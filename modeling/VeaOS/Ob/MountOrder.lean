import VeaOS.Ob.FileSystems

/-! The order in which a mount asks the file systems. All registrations end up at the end of
their list, and the walk goes along it up to the first success. -/
namespace VeaOS.Ob
open Foundation RingLinks FsNode List

section Lists
variable {Object : Type} [DecidableEq Object] {world : FsWorld Object}

/-- The registered file systems of a kind, in the order of their registration. -/
def ofKind (world : FsWorld Object) (registrations : List Object) (kind : FsKind) : List Object :=
  registrations.filter fun fs => (world.deviceType fs).fsKind = some kind

def listed (world : FsWorld Object) (registrations : List Object) (kind : FsKind) : List (FsNode Object) :=
  (ofKind world registrations kind).map .device

theorem initializeFsLists_family (world : FsWorld Object) (L : RingLinks (FsNode Object)) :
    Family (initializeFsLists L) head (listed world []) := by
  have network := ring_initialize L (.head .network)
  have disk := ring_initialize (L.initializeListHead (.head .network)) (.head .disk)
  have network' : Ring ((L.initializeListHead (.head .network)).initializeListHead (.head .disk))
      (.head .network) [] := Ring.initialize_apart network (by simp)
  have cdRom := ring_initialize ((L.initializeListHead (.head .network)).initializeListHead (.head .disk))
    (.head .cdRom)
  have network'' : Ring (initializeFsLists L) (.head .network) [] := Ring.initialize_apart network' (by simp)
  have disk' : Ring (initializeFsLists L) (.head .disk) [] := Ring.initialize_apart disk (by simp)
  refine ⟨fun kind => ?_, fun left right => ?_⟩
  · cases kind with
    | disk => exact disk'
    | network => exact network''
    | cdRom => exact cdRom
  · rw [mem_cons] at left right
    obtain rfl | none := left
    · obtain same | none := right
      · exact head.inj same
      · cases none
    · cases none

omit [DecidableEq Object] in
theorem device_mem_listed {registrations : List Object} {kind : FsKind} {fs : Object} :
    device fs ∈ listed world registrations kind ↔
      fs ∈ registrations ∧ (world.deviceType fs).fsKind = some kind := by
  rw [listed, mem_map_of_injective fun _ _ same => device.inj same, ofKind, mem_filter,
    decide_eq_true_iff]

theorem obioRegisterFileSystem_family {L : RingLinks (FsNode Object)} {done : List Object} {fs : Object}
    (family : Family L FsNode.head (listed world done)) (new : fs ∉ done) :
    Family (obioRegisterFileSystem world L fs) FsNode.head (listed world (done ++ [fs])) := by
  have absent : ∀ kind, FsNode.device fs ∉ FsNode.head kind :: listed world done kind := by
    intro kind member
    obtain same | inside := List.mem_cons.mp member
    · cases same
    · exact new (device_mem_listed.mp inside).1
  rw [obioRegisterFileSystem]
  split
  next none =>
    have same : listed world (done ++ [fs]) = listed world done := by
      funext kind
      rw [listed, listed, ofKind, ofKind, List.filter_append, List.filter_singleton, none]
      simp
    rw [same]
    exact family
  next kind found =>
    have grown : listed world (done ++ [fs]) =
        Function.update (listed world done) kind (listed world done kind ++ [.device fs]) := by
      funext other
      obtain rfl | differ := eq_or_ne other kind
      · rw [Function.update_self, listed, listed, ofKind, ofKind, List.filter_append, List.filter_singleton,
          found]
        simp
      · rw [Function.update_of_ne differ, listed, listed, ofKind, ofKind, List.filter_append,
          List.filter_singleton, found]
        simp [differ.symm]
    have last : L.insertHeadList (L.blink (.head kind)) (.device fs) =
        L.insertTailList (.head kind) (.device fs) := by
      have next := (family.ring kind).flink_blink
      rw [insertHead_eq_insertTail (by rw [next]), next]
    rw [last, ite_self, grown]
    exact family.insertTail absent kind

theorem registerAll_family (world : FsWorld Object) (L : RingLinks (FsNode Object)) {registrations : List Object}
    (distinct : registrations.Nodup) :
    Family (registerAll world L registrations) head (listed world registrations) := by
  have along : ∀ (rest done : List Object) (L : RingLinks (FsNode Object)), (done ++ rest).Nodup →
      Family L head (listed world done) →
      Family (rest.foldl (obioRegisterFileSystem world) L) head (listed world (done ++ rest)) := by
    intro rest
    induction rest with
    | nil =>
      intro done L _ family
      rw [append_nil]
      exact family
    | cons fs rest ih =>
      intro done L distinct family
      have new : fs ∉ done := fun member =>
        (nodup_append.mp distinct).2.2 fs member fs mem_cons_self rfl
      rw [append_cons] at distinct ⊢
      exact ih (done ++ [fs]) _ distinct (obioRegisterFileSystem_family family new)
  exact along registrations [] _ distinct (initializeFsLists_family world L)

end Lists

section Walk
variable {Object : Type} [DecidableEq Object] {world : FsWorld Object}

/-- The walk as it goes along a list; nothing when it does not end. -/
def askAll (world : FsWorld Object) (stackDepth : Nat) :
    List Object → MountStatus → List Object → Option (MountStatus × List Object)
  | [], status, asked => some (status, asked)
  | fs :: rest, status, asked =>
    if status = .success then some (status, asked)
    else if world.upperAttachedObject fs ≠ none then none
    else if world.oipAllocated fs (stackDepth + 1) then
      askAll world stackDepth rest (world.answer fs) (asked ++ [fs])
    else some (.insufficientResources, asked)

omit [DecidableEq Object] in
theorem climbStack_attached {header : Object} (attached : world.upperAttachedObject header ≠ none)
    (fuel : Nat) (fs : Object) (overhead : Nat) : climbStack world header fuel fs overhead = none := by
  induction fuel generalizing fs overhead with
  | zero => rfl
  | succ fuel ih =>
    rw [climbStack]
    split
    next none => exact absurd none attached
    next upper _ => exact ih upper (overhead + 1)

theorem mountLoop_eq {L : RingLinks (FsNode Object)} {head : FsNode Object} {before rest : List Object}
    {fuel : Nat}
    (ring : Ring L head ((before ++ rest).map .device)) (stackDepth : Nat) (enough : rest.length + 1 < fuel)
    (status : MountStatus) (asked : List Object) :
    mountLoop world L stackDepth head fuel ((rest.map device ++ [head]).head (by simp)) status asked =
      askAll world stackDepth rest status asked := by
  induction rest generalizing before fuel status asked with
  | nil =>
    obtain _ | fuel := fuel
    · exact absurd enough (Nat.not_lt_zero _)
    · rw [mountLoop.eq_def, askAll]
      exact if_pos (Or.inl rfl)
  | cons fs rest ih =>
    obtain _ | fuel := fuel
    · exact absurd enough (Nat.not_lt_zero _)
    · have member : device fs ∈ (before ++ fs :: rest).map device :=
        mem_map_of_mem (mem_append_right _ mem_cons_self)
      have notHead : device fs ≠ head := fun same =>
        (nodup_cons.mp ring.distinct).1 (same ▸ member)
      have next : L.flink (.device fs) = (rest.map device ++ [head]).head (by simp) := by
        rw [map_append, map_cons] at ring
        exact ring.flink_eq
      have shifted : Ring L head ((before ++ [fs] ++ rest).map .device) := by
        rwa [append_assoc, singleton_append]
      have few : rest.length + 1 < fuel := by
        rw [length_cons] at enough
        omega
      change mountLoop world L stackDepth head (fuel + 1) (.device fs) status asked = _
      rw [mountLoop.eq_def, askAll]
      simp only
      by_cases done : status = .success
      · rw [if_pos (Or.inr done), if_pos done]
      · rw [if_neg (by simp [notHead, done]), if_neg done]
        cases attached : world.upperAttachedObject fs with
        | some upper =>
          have held : world.upperAttachedObject fs ≠ none := by
            rw [attached]
            exact Option.some_ne_none upper
          rw [climbStack_attached held]
          simp
        | none =>
          have climbed : climbStack world fs fuel fs 1 = some (fs, 1) := by
            obtain _ | fuel := fuel
            · exact absurd few (Nat.not_lt_zero _)
            · rw [climbStack, attached]
          simp only [climbed, ne_eq, not_true_eq_false, if_false]
          split
          next => rw [next, ih shifted few]
          next => rfl

end Walk

section Asked
variable {Object : Type} {world : FsWorld Object} {final status : MountStatus} {asked all rest : List Object}

/-- The file systems up to the first that accepts the volume. -/
def tried (world : FsWorld Object) : List Object → List Object
  | [] => []
  | fs :: rest => if world.answer fs = .success then [fs] else fs :: tried world rest

/-- Nothing is attached above the file system, and there is a packet for a request to it. -/
structure Askable (world : FsWorld Object) (stackDepth : Nat) (fs : Object) : Prop where
  bare : world.upperAttachedObject fs = none
  packet : world.oipAllocated fs (stackDepth + 1) = true

theorem tried_initial (world : FsWorld Object) (fileSystems : List Object) :
    tried world fileSystems <+: fileSystems := by
  induction fileSystems with
  | nil => exact prefix_refl []
  | cons fs rest ih =>
    rw [tried]
    split
    next => exact ⟨rest, rfl⟩
    next => exact (prefix_cons_inj fs).mpr ih

theorem answer_of_tried : ∀ {fileSystems before after : List Object} {fs : Object},
    tried world fileSystems = before ++ fs :: after → world.answer fs = .success → after = []
  | [], before, _, _, split, _ => by
      rw [tried] at split
      exact absurd split.symm (by simp)
  | fs :: rest, before, after, other, split, accepted => by
      rw [tried] at split
      split at split
      next =>
        obtain _ | ⟨first, before⟩ := before
        · exact (cons.inj split).2.symm
        · exact absurd (cons.inj split).2.symm (by simp)
      next refused =>
        obtain _ | ⟨first, before⟩ := before
        · exact absurd ((cons.inj split).1 ▸ accepted) refused
        · exact answer_of_tried (cons.inj split).2 accepted

theorem tried_eq_self {fileSystems : List Object} (refused : ∀ fs ∈ fileSystems, world.answer fs ≠ .success) :
    tried world fileSystems = fileSystems := by
  induction fileSystems with
  | nil => rfl
  | cons fs rest ih =>
    rw [tried, if_neg (refused fs mem_cons_self),
      ih fun other member => refused other (mem_cons_of_mem fs member)]

theorem askAll_success (stackDepth : Nat) (fileSystems asked : List Object) :
    askAll world stackDepth fileSystems .success asked = some (.success, asked) := by
  obtain _ | ⟨fs, rest⟩ := fileSystems
  · rfl
  · rw [askAll, if_pos rfl]

theorem askAll_tried {stackDepth : Nat} {fileSystems : List Object}
    (askable : ∀ fs ∈ tried world fileSystems, Askable world stackDepth fs) (open_ : status ≠ .success)
    (asked : List Object) :
    ∃ final,
      askAll world stackDepth fileSystems status asked = some (final, asked ++ tried world fileSystems) ∧
      (final ≠ .success → ∀ fs ∈ fileSystems, world.answer fs ≠ .success) := by
  induction fileSystems generalizing status asked with
  | nil =>
    refine ⟨status, ?_, fun _ _ member => absurd member not_mem_nil⟩
    rw [askAll, tried, append_nil]
  | cons fs rest ih =>
    rw [tried] at askable ⊢
    have here : Askable world stackDepth fs := by
      apply askable
      split <;> exact mem_cons_self
    rw [askAll, if_neg open_, if_neg (not_not_intro here.bare), if_pos here.packet]
    by_cases accepted : world.answer fs = .success
    · rw [if_pos accepted, accepted, askAll_success]
      exact ⟨.success, rfl, fun failed => absurd rfl failed⟩
    · rw [if_neg accepted] at askable ⊢
      obtain ⟨final, walked, refused⟩ :=
        ih (fun other member => askable other (mem_cons_of_mem fs member)) accepted (asked ++ [fs])
      refine ⟨final, ?_, fun failed other member => ?_⟩
      · rw [walked, append_assoc, singleton_append]
      · obtain rfl | member := mem_cons.mp member
        · exact accepted
        · exact refused failed other member

theorem askAll_ended {stackDepth : Nat} {fileSystems : List Object} (open_ : status ≠ .success)
    (ended : askAll world stackDepth fileSystems status asked = some (final, all)) :
    (∀ fs ∈ tried world fileSystems, Askable world stackDepth fs) ∨
      final = .insufficientResources ∧
        ∃ done fs left, fileSystems = done ++ fs :: left ∧ all = asked ++ done := by
  induction fileSystems generalizing status asked with
  | nil => exact Or.inl fun _ member => absurd member not_mem_nil
  | cons fs rest ih =>
    rw [askAll, if_neg open_] at ended
    split at ended
    next => cases ended
    next bare =>
      have bare := not_not.mp bare
      split at ended
      next packet =>
        rw [tried]
        by_cases accepted : world.answer fs = .success
        · rw [if_pos accepted]
          exact Or.inl fun other member => mem_singleton.mp member ▸ ⟨bare, packet⟩
        · rw [if_neg accepted]
          obtain askable | ⟨failed, done, stuck, left, split, same⟩ := ih accepted ended
          · refine Or.inl fun other member => ?_
            obtain rfl | member := mem_cons.mp member
            · exact ⟨bare, packet⟩
            · exact askable other member
          · exact Or.inr ⟨failed, fs :: done, stuck, left, by rw [split, cons_append],
              by rw [same, append_assoc, singleton_append]⟩
      next =>
        cases ended
        exact Or.inr ⟨rfl, [], fs, rest, rfl, (append_nil _).symm⟩

end Asked

section Mounts
variable {Object : Type} [DecidableEq Object] {world : FsWorld Object} {L : RingLinks (FsNode Object)}
  {registrations : List Object} {device : MountDevice}

/-- What a mount is to do with the file systems of the kind. -/
structure AskedRight (world : FsWorld Object) (fileSystems : List Object) (outcome : MountOutcome Object) :
    Prop where
  once : outcome.asked.Nodup
  known : ∀ fs ∈ outcome.asked, fs ∈ fileSystems
  highFirst : ∀ before fs after, outcome.asked = before ++ fs :: after → world.highPriority fs = false →
    ∀ other ∈ fileSystems, world.highPriority other = true → other ∈ before
  stops : ∀ before fs after, outcome.asked = before ++ fs :: after → world.answer fs = .success → after = []
  failure : outcome.status ≠ .success → ∀ fs ∈ fileSystems, fs ∈ outcome.asked ∧ world.answer fs ≠ .success

/-- The mount ends, and asks the file systems as it is to do. A volume that is mounted is not
mounted again: no file system is asked, and it fails only where there is none. -/
def MountRight (world : FsWorld Object) (L : RingLinks (FsNode Object)) (registrations : List Object)
    (earlyPhase : Bool) (device : MountDevice) : Prop :=
  ∃ bound outcome,
    (∀ fuel, bound ≤ fuel →
      obioMountVolume world (registerAll world L registrations) earlyPhase fuel device = .ended outcome) ∧
    if device.vpbFlags &&& vpbMounted = 0 then
      ∃ kind, device.deviceType.mountKind = some kind ∧
        AskedRight world (ofKind world registrations kind) outcome
    else outcome.asked = [] ∧ (outcome.status ≠ .success →
      ∀ kind, device.deviceType.mountKind = some kind → ofKind world registrations kind = [])

/-- The device has a list of file systems, all that are tried can be asked, and none with high
priority was registered after one of them without. A volume that is mounted is not about to be
removed, or there is no file system for it. -/
def MountClean (world : FsWorld Object) (registrations : List Object) (device : MountDevice) : Prop :=
  if device.vpbFlags &&& vpbMounted = 0 then
    ∃ kind, device.deviceType.mountKind = some kind ∧
      (∀ fs ∈ tried world (ofKind world registrations kind), Askable world device.stackDepth fs) ∧
      ∀ before fs after, ofKind world registrations kind = before ++ fs :: after →
        fs ∈ tried world (ofKind world registrations kind) → world.highPriority fs = false →
        ∀ later ∈ after, world.highPriority later = false
  else device.vpbFlags &&& vpbRemovePending = 0 ∨
    ∀ kind, device.deviceType.mountKind = some kind → ofKind world registrations kind = []

theorem mountLoop_registerAll (distinct : registrations.Nodup) (kind : FsKind) (stackDepth : Nat) {fuel : Nat}
    (enough : (ofKind world registrations kind).length + 1 < fuel) :
    mountLoop world (registerAll world L registrations) stackDepth (.head kind) fuel
        ((registerAll world L registrations).flink (.head kind)) .unsuccessful [] =
      askAll world stackDepth (ofKind world registrations kind) .unsuccessful [] := by
  have ring : Ring (registerAll world L registrations) (.head kind)
      (([] ++ ofKind world registrations kind).map .device) :=
    (registerAll_family world L distinct).ring kind
  rw [ring.flink_head]
  exact mountLoop_eq ring stackDepth enough .unsuccessful []

omit [DecidableEq Object] in
theorem highFirst_iff {fileSystems : List Object} (distinct : fileSystems.Nodup) :
    (∀ before fs after, tried world fileSystems = before ++ fs :: after → world.highPriority fs = false →
      ∀ other ∈ fileSystems, world.highPriority other = true → other ∈ before) ↔
    ∀ before fs after, fileSystems = before ++ fs :: after → fs ∈ tried world fileSystems →
      world.highPriority fs = false → ∀ later ∈ after, world.highPriority later = false := by
  obtain ⟨left, whole⟩ := tried_initial world fileSystems
  constructor
  · intro first before fs after split member normal later behind
    obtain ⟨before', after', split'⟩ := append_of_mem member
    by_contra high
    have early : later ∈ before' := by
      apply first before' fs after' split' normal later _ (by simpa using high)
      rw [split]
      exact mem_append_right _ (mem_cons_of_mem fs behind)
    have same : before ++ fs :: after = before' ++ fs :: (after' ++ left) := by
      rw [← split, ← whole, split', append_assoc, cons_append]
    rw [split] at distinct
    have single := (nodup_cons.mp (nodup_middle.mp distinct)).1
    rw [mem_append, not_or] at single
    have aligned : before = before' := ((append_cons_inj_of_notMem single.1 single.2).mp same).1
    have apart := (nodup_append'.mp distinct).2.2
    exact apart (aligned ▸ early) (mem_cons_of_mem fs behind)
  · intro ordered before fs after split normal other member high
    have place : fileSystems = before ++ fs :: (after ++ left) := by
      rw [← whole, split, append_assoc, cons_append]
    rw [place] at member
    obtain early | late := mem_append.mp member
    · exact early
    · obtain rfl | late := mem_cons.mp late
      · rw [normal] at high
        cases high
      · have asked : fs ∈ tried world fileSystems := split ▸ mem_append_right _ mem_cons_self
        have low := ordered before fs _ place asked normal other late
        rw [low] at high
        cases high

theorem obioMountVolume_congr {fuel fuel' : Nat} {kind : FsKind} (earlyPhase : Bool)
    (kindOf : device.deviceType.mountKind = some kind)
    (same : mountLoop world L device.stackDepth (.head kind) fuel (L.flink (.head kind)) .unsuccessful [] =
      mountLoop world L device.stackDepth (.head kind) fuel' (L.flink (.head kind)) .unsuccessful []) :
    obioMountVolume world L earlyPhase fuel device = obioMountVolume world L earlyPhase fuel' device := by
  simp only [obioMountVolume, kindOf]
  rw [same]

theorem obioMountVolume_loop {fuel : Nat} {kind : FsKind} {final : MountStatus} {asked : List Object}
    (earlyPhase : Bool) (unmounted : device.vpbFlags &&& vpbMounted = 0)
    (kindOf : device.deviceType.mountKind = some kind)
    (walked : mountLoop world L device.stackDepth (.head kind) fuel (L.flink (.head kind)) .unsuccessful [] =
      some (final, asked)) :
    ∃ outcome, obioMountVolume world L earlyPhase fuel device = .ended outcome ∧
      outcome.status = final ∧ outcome.asked = asked := by
  rw [obioMountVolume, if_pos unmounted]
  simp only [kindOf, walked]
  cases final <;> exact ⟨_, rfl, rfl, rfl⟩

theorem obioMountVolume_running {fuel : Nat} {kind : FsKind} (earlyPhase : Bool)
    (unmounted : device.vpbFlags &&& vpbMounted = 0) (kindOf : device.deviceType.mountKind = some kind)
    (walking : mountLoop world L device.stackDepth (.head kind) fuel (L.flink (.head kind)) .unsuccessful [] =
      none) :
    obioMountVolume world L earlyPhase fuel device = .running := by
  rw [obioMountVolume, if_pos unmounted]
  simp only [kindOf, walking]

theorem obioMountVolume_mounted (mounted : device.vpbFlags &&& vpbMounted ≠ 0) (earlyPhase : Bool) :
    ∃ outcome, (∀ fuel, obioMountVolume world L earlyPhase fuel device = .ended outcome) ∧
      outcome.asked = [] ∧ (outcome.status = .success ↔ device.vpbFlags &&& vpbRemovePending = 0) := by
  by_cases leaving : device.vpbFlags &&& vpbRemovePending = 0
  · have same : ∀ fuel, obioMountVolume world L earlyPhase fuel device =
        mountReturn earlyPhase .success device [] := by
      intro fuel
      rw [obioMountVolume, if_neg mounted, if_neg (not_not_intro leaving)]
    exact ⟨_, same, rfl, iff_of_true rfl leaving⟩
  · have same : ∀ fuel, obioMountVolume world L earlyPhase fuel device =
        mountReturn earlyPhase .deviceDoesNotExist device [] := by
      intro fuel
      rw [obioMountVolume, if_neg mounted, if_pos leaving]
    exact ⟨_, same, rfl, iff_of_false MountStatus.noConfusion leaving⟩

omit [DecidableEq Object] in
theorem askedRight_iff {fileSystems : List Object} (distinct : fileSystems.Nodup) (stackDepth : Nat) :
    (∃ outcome : MountOutcome Object,
      askAll world stackDepth fileSystems .unsuccessful [] = some (outcome.status, outcome.asked) ∧
        AskedRight world fileSystems outcome) ↔
      (∀ fs ∈ tried world fileSystems, Askable world stackDepth fs) ∧
        ∀ before fs after, fileSystems = before ++ fs :: after → fs ∈ tried world fileSystems →
          world.highPriority fs = false → ∀ later ∈ after, world.highPriority later = false := by
  have starts : MountStatus.unsuccessful ≠ .success := fun same => MountStatus.noConfusion same
  constructor
  · rintro ⟨outcome, walked, right⟩
    have askable : ∀ fs ∈ tried world fileSystems, Askable world stackDepth fs := by
      obtain askable | ⟨failed, done, stuck, left, split, same⟩ := askAll_ended starts walked
      · exact askable
      · have missed := (right.failure (by rw [failed]; exact fun same => MountStatus.noConfusion same) stuck
          (split ▸ mem_append_right _ mem_cons_self)).1
        rw [same, nil_append] at missed
        rw [split] at distinct
        have single := (nodup_cons.mp (nodup_middle.mp distinct)).1
        exact absurd (mem_append_left left missed) single
    refine ⟨askable, ?_⟩
    obtain ⟨final, walked', -⟩ := askAll_tried askable starts []
    rw [walked, nil_append] at walked'
    have all : outcome.asked = tried world fileSystems := (Prod.mk.inj (Option.some.inj walked')).2
    apply (highFirst_iff distinct).mp
    intro before fs after split
    exact right.highFirst before fs after (all.trans split)
  · rintro ⟨askable, ordered⟩
    obtain ⟨final, walked, refused⟩ := askAll_tried askable starts []
    rw [nil_append] at walked
    refine ⟨⟨final, ⟨.disk, 0, 0, 0, 0⟩, tried world fileSystems, false⟩, walked, ?_⟩
    constructor
    · exact distinct.sublist (tried_initial world fileSystems).sublist
    · exact fun fs member => (tried_initial world fileSystems).subset member
    · exact (highFirst_iff distinct).mpr ordered
    · exact fun _ _ _ split accepted => answer_of_tried split accepted
    · intro failed fs member
      have none := refused failed
      exact ⟨(tried_eq_self none).symm ▸ member, none fs member⟩

omit [DecidableEq Object] in
theorem AskedRight.congr {fileSystems : List Object} {outcome outcome' : MountOutcome Object}
    (right : AskedRight world fileSystems outcome) (status : outcome'.status = outcome.status)
    (asked : outcome'.asked = outcome.asked) : AskedRight world fileSystems outcome' := by
  constructor
  · exact asked ▸ right.once
  · exact asked ▸ right.known
  · exact asked ▸ right.highFirst
  · exact asked ▸ right.stops
  · rw [status, asked]
    exact right.failure

/-- A mount asks as it should, and ends, exactly when the file systems that it tries have no
device attached above them and were registered with the high priorities first. A file system
registers once. -/
theorem obioMountVolume_right_iff (world : FsWorld Object) (L : RingLinks (FsNode Object))
    (registrations : List Object) (earlyPhase : Bool) (device : MountDevice) (distinct : registrations.Nodup) :
    MountRight world L registrations earlyPhase device ↔ MountClean world registrations device := by
  by_cases unmounted : device.vpbFlags &&& vpbMounted = 0
  · have bounded : ∀ kind fuel, (ofKind world registrations kind).length + 2 ≤ fuel →
        mountLoop world (registerAll world L registrations) device.stackDepth (.head kind) fuel
          ((registerAll world L registrations).flink (.head kind)) .unsuccessful [] =
        askAll world device.stackDepth (ofKind world registrations kind) .unsuccessful [] :=
      fun kind fuel enough => mountLoop_registerAll distinct kind device.stackDepth enough
    have distinct' : ∀ kind, (ofKind world registrations kind).Nodup := fun kind => distinct.filter _
    rw [MountRight, MountClean, if_pos unmounted]
    constructor
    · rintro ⟨bound, outcome, ended, right⟩
      rw [if_pos unmounted] at right
      obtain ⟨kind, kindOf, right⟩ := right
      refine ⟨kind, kindOf, (askedRight_iff (distinct' kind) device.stackDepth).mp ?_⟩
      have last := ended (bound + ((ofKind world registrations kind).length + 2)) (Nat.le_add_right _ _)
      have walk := bounded kind (bound + ((ofKind world registrations kind).length + 2)) (Nat.le_add_left _ _)
      cases walked : askAll world device.stackDepth (ofKind world registrations kind) .unsuccessful [] with
      | none =>
        rw [obioMountVolume_running earlyPhase unmounted kindOf (walk.trans walked)] at last
        cases last
      | some result =>
        obtain ⟨outcome', ended', status, asked⟩ :=
          obioMountVolume_loop earlyPhase unmounted kindOf (walk.trans walked)
        rw [ended'] at last
        cases last
        exact ⟨outcome, by rw [status, asked], right⟩
    · intro clean
      obtain ⟨kind, kindOf, clean⟩ := clean
      obtain ⟨outcome, walked, right⟩ := (askedRight_iff (distinct' kind) device.stackDepth).mpr clean
      have first := bounded kind _ (Nat.le_refl _)
      obtain ⟨outcome', ended, status, asked⟩ :=
        obioMountVolume_loop earlyPhase unmounted kindOf (first.trans walked)
      refine ⟨(ofKind world registrations kind).length + 2, outcome', fun fuel enough => ?_, ?_⟩
      · rw [← ended]
        exact obioMountVolume_congr earlyPhase kindOf ((bounded kind fuel enough).trans first.symm)
      · rw [if_pos unmounted]
        exact ⟨kind, kindOf, right.congr status asked⟩
  · obtain ⟨outcome, ended, none, status⟩ :=
      obioMountVolume_mounted (L := registerAll world L registrations) unmounted earlyPhase
    rw [MountRight, MountClean, if_neg unmounted]
    constructor
    · rintro ⟨bound, outcome', ended', right⟩
      rw [if_neg unmounted] at right
      have last := ended' bound (Nat.le_refl bound)
      rw [ended] at last
      cases last
      exact or_iff_not_imp_left.mpr fun leaving => right.2 (mt status.mp leaving)
    · intro clean
      refine ⟨0, outcome, fun fuel _ => ended fuel, ?_⟩
      rw [if_neg unmounted]
      exact ⟨none, fun failed => clean.resolve_left (mt status.mpr failed)⟩

end Mounts

/-- Two file systems for disks. The first has high priority, the second accepts the volume. -/
def twoFileSystems : FsWorld Nat where
  deviceType _ := .diskFileSystem
  highPriority fs := fs == 0
  upperAttachedObject _ := none
  oipAllocated _ _ := true
  answer fs := if fs = 1 then .success else .unsuccessful

def newDisk : MountDevice := ⟨.disk, 0, 1, 0, 0⟩

theorem obioMountVolume_high_first : MountRight twoFileSystems ⟨id, id⟩ [0, 1] false newDisk := by
  apply (obioMountVolume_right_iff twoFileSystems ⟨id, id⟩ [0, 1] false newDisk (by decide)).mpr
  refine ⟨.disk, rfl, fun fs _ => ⟨rfl, rfl⟩, ?_⟩
  intro before fs after split _ normal later behind
  have both : ofKind twoFileSystems [0, 1] .disk = [0, 1] := rfl
  rw [both] at split
  obtain _ | ⟨first, before⟩ := before
  · obtain ⟨rfl, -⟩ := cons.inj split
    cases normal
  · obtain _ | ⟨second, before⟩ := before
    · obtain ⟨-, rfl⟩ := cons.inj (cons.inj split).2
      cases behind
    · exact absurd (cons.inj (cons.inj split).2).2 (by simp)

/-- The same with a device above the first file system. -/
def hookedFileSystems : FsWorld Nat :=
  { twoFileSystems with upperAttachedObject := fun fs => if fs = 0 then some 2 else none }

/-- The registration of the high priority does not get before the other one, and a device above
a file system keeps the walk in the inner loop. -/
theorem obioMountVolume_low_first :
    ¬ MountRight twoFileSystems ⟨id, id⟩ [1, 0] false newDisk ∧
      ¬ MountRight hookedFileSystems ⟨id, id⟩ [0, 1] false newDisk := by
  constructor
  · rintro ⟨bound, outcome, ended, right⟩
    have run : obioMountVolume twoFileSystems (registerAll twoFileSystems ⟨id, id⟩ [1, 0]) false (bound + 3)
        newDisk = .ended ⟨.success, obioMountInitializeVpb newDisk, [1], false⟩ := rfl
    have last := ended (bound + 3) (Nat.le_add_right bound 3)
    rw [run] at last
    cases last
    obtain ⟨kind, kindOf, right⟩ := right
    obtain rfl : FsKind.disk = kind := Option.some.inj kindOf
    exact absurd (right.highFirst [] 1 [] rfl rfl 0 (by decide) rfl) not_mem_nil
  · rintro ⟨bound, outcome, ended, -⟩
    have enough : (ofKind hookedFileSystems [0, 1] .disk).length + 1 < bound + 4 :=
      Nat.lt_add_left bound (by decide)
    have distinct : [0, 1].Nodup := by decide
    have walking := mountLoop_registerAll (L := ⟨id, id⟩) distinct .disk newDisk.stackDepth enough
    have last := ended (bound + 4) (Nat.le_add_right bound 4)
    rw [obioMountVolume_running false rfl rfl (walking.trans rfl)] at last
    cases last

end VeaOS.Ob

import VeaOS.Ob.TopReferences

/-! The reference counts of a stack of devices around each request: what each
helper leaves behind on the top of the stack. -/
namespace VeaOS.Pnp
open Ob Option

section Raised
variable {Object : Type} [DecidableEq Object] {σ : AttachState Object} {o top : Object}

/-- More references on one object, and nothing else. -/
def raised (σ : AttachState Object) (o : Object) (n : Nat) : AttachState Object :=
  Function.update σ o { σ o with referenceCount := (σ o).referenceCount + n }

theorem reference_eq : σ.reference o = raised σ o 1 := rfl

@[simp] theorem raised_zero : raised σ o 0 = σ := Function.update_eq_self o σ

@[simp] theorem raised_raised : raised (raised σ o m) o n = raised σ o (m + n) := by
  simp [raised, Nat.add_assoc]

@[simp] theorem raised_upper (p : Object) :
    (raised σ o n p).upperAttachedObject = (σ p).upperAttachedObject := by
  by_cases same : p = o
  · subst same
    simp [raised]
  · simp [raised, same]

theorem raised_count (p : Object) :
    (raised σ o n p).referenceCount = (σ p).referenceCount + if p = o then n else 0 := by
  by_cases same : p = o
  · subst same
    simp [raised]
  · simp [raised, same]

theorem dereference_raised : (raised σ o (n + 1)).dereference o = raised σ o n := by
  simp [raised, AttachState.dereference]

theorem raised_comm (other : o ≠ top) : raised (raised σ o m) top n = raised (raised σ top n) o m := by
  funext p
  by_cases isLower : p = o
  · subst isLower
    simp [raised, other]
  · by_cases isTop : p = top
    · subst isTop
      simp [raised, isLower]
    · simp [raised, isLower, isTop]

theorem dereference_raised_top : (raised (raised σ o 1) top 1).dereference o = raised σ top 1 := by
  by_cases same : o = top
  · subst same
    rw [raised_raised, dereference_raised]
  · rw [raised_comm same, dereference_raised, raised_zero]

omit [DecidableEq Object] in
theorem currentTop_congr {σ' : AttachState Object}
    (same : ∀ p, (σ' p).upperAttachedObject = (σ p).upperAttachedObject) (fuel : Nat) (o : Object) :
    σ'.currentTop fuel o = σ.currentTop fuel o := by
  induction fuel generalizing o with
  | zero => rfl
  | succ fuel ih =>
    rw [AttachState.currentTop, AttachState.currentTop, same]
    cases (σ o).upperAttachedObject with
    | none => rfl
    | some upper => exact ih upper

@[simp] theorem currentTop_raised (p : Object) : (raised σ p n).currentTop fuel o = σ.currentTop fuel o :=
  currentTop_congr raised_upper fuel o

theorem topLoop_raised (fuel : Nat) (σ : AttachState Object) (o : Object) :
    topLoop fuel (raised σ o 1) o = (σ.currentTop fuel o).map fun top => (raised σ top 1, top) := by
  induction fuel generalizing o with
  | zero => rfl
  | succ fuel ih =>
    rw [topLoop, AttachState.currentTop, raised_upper]
    cases above : (σ o).upperAttachedObject with
    | none => rfl
    | some upper =>
      dsimp only
      rw [reference_eq, dereference_raised_top, ih]

theorem obioGetTopDeviceObject_raised (fuel : Nat) (σ : AttachState Object) (o : Object) :
    obioGetTopDeviceObject fuel σ o = (σ.currentTop fuel o).map fun top => (raised σ top 1, top) :=
  topLoop_raised fuel σ o

omit [DecidableEq Object] in
theorem currentTop_top (found : σ.currentTop fuel o = some top) (more : 0 < fuel') :
    σ.currentTop fuel' top = some top := by
  obtain ⟨n, rfl⟩ := Nat.exists_eq_succ_of_ne_zero (Nat.ne_of_gt more)
  rw [AttachState.currentTop, (currentTop_end found).1]

omit [DecidableEq Object] in
theorem currentTop_fuel (found : σ.currentTop fuel o = some top) : 0 < fuel := by
  cases fuel with
  | zero => cases found
  | succ fuel => exact Nat.succ_pos fuel

end Raised

section Helpers
variable {Object Information : Type} [DecidableEq Object] {σ σ' : AttachState Object} {o : Object}

/-- The requests whose helpers are given the driver's answer. -/
inductive HelperCall (Object Information : Type) where
  | synchronusCallByStack (deviceObject : Object) (oip : Bool) (answer : DriverAnswer Information)
  | callSpecificPnpOip (deviceObject : Object) (oip : Bool) (answer : DriverAnswer Information)
  | queryDeviceRelations (physicalDeviceObject : Object) (oip : Bool)
      (answer : DriverAnswer (Option (List Object)))
  | startDevice (physicalDeviceObject : Object) (oip : Bool) (answer : DriverAnswer Information)
  | createDeviceNodeInstancePath (physicalDeviceObject : Object) (deviceOip instanceOip : Bool)
      (deviceAnswer instanceAnswer : DriverAnswer Information) (pool : Bool)
  | parseDevice (originalDevice : Object) (request : ParseRequest Object Information)

def helperStep (fuel : Nat) (σ : AttachState Object) :
    HelperCall Object Information → Option (AttachState Object)
  | .synchronusCallByStack o oip answer => (obioSynchronusCallByStack fuel σ o oip answer).map Prod.fst
  | .callSpecificPnpOip o oip answer => (obioCallSpecificPnpOip fuel σ o oip answer).map Prod.fst
  | .queryDeviceRelations o oip answer => (obioQueryDeviceRelations fuel σ o oip answer).map Prod.fst
  | .startDevice o oip answer => (obioStartDevice fuel σ o oip answer).map Prod.fst
  | .createDeviceNodeInstancePath o deviceOip instanceOip deviceAnswer instanceAnswer pool =>
    (obioCreateDeviceNodeInstancePath fuel σ o deviceOip instanceOip deviceAnswer instanceAnswer pool).map
      Prod.fst
  | .parseDevice o request => (obioParseDevice fuel σ o request).map Prod.fst

def CountsKept (σ σ' : AttachState Object) : Prop := ∀ o, (σ' o).referenceCount = (σ o).referenceCount

/-- An open that neither mounts nor finds a device above its target. -/
def ParsesBare (σ : AttachState Object) (o : Object) (request : ParseRequest Object Information) : Prop :=
  request.openPacket = false ∨
    match request.vpb with
    | none => (σ o).upperAttachedObject = none
    | some vpb => vpb.mounted = true ∧ (vpb.locked = true ∨ (σ vpb.deviceObject).upperAttachedObject = none)

def HelperKeeps (σ : AttachState Object) : HelperCall Object Information → Prop
  | .parseDevice o request => ParsesBare σ o request
  | _ => False

theorem not_countsKept (more : 0 < n) : ¬ CountsKept σ (raised σ o n) := by
  intro kept
  have same := kept o
  rw [raised_count, if_pos rfl] at same
  omega

theorem not_countsKept_twice (more : 0 < m) (p : Object) : ¬ CountsKept σ (raised (raised σ o m) p n) := by
  intro kept
  have same := kept o
  rw [raised_count, raised_count, if_pos rfl] at same
  omega

theorem obioSynchronusCallByStack_raised (fuel : Nat) (σ : AttachState Object) (o : Object) (oip : Bool)
    (answer : DriverAnswer Information) :
    ∃ outcome, obioSynchronusCallByStack fuel σ o oip answer =
      (σ.currentTop fuel o).map fun top => (raised σ top 1, outcome) := by
  refine ⟨if oip then (if answer.returned = statusPending then answer.status else answer.returned,
    some answer.information) else (statusInsufficientResources, none), ?_⟩
  rw [obioSynchronusCallByStack, obioGetTopDeviceObject_raised, reference_eq, currentTop_raised]
  cases σ.currentTop fuel o with
  | none => rfl
  | some top =>
    cases oip with
    | false | true => exact congrArg some (Prod.ext dereference_raised_top rfl)

theorem obioSynchronusCallByStack_top (found : σ.currentTop fuel o = some top) (oip : Bool)
    (answer : DriverAnswer Information) :
    ∃ outcome, obioSynchronusCallByStack fuel (raised σ top n) top oip answer =
      some (raised σ top (n + 1), outcome) := by
  obtain ⟨outcome, called⟩ := obioSynchronusCallByStack_raised fuel (raised σ top n) top oip answer
  refine ⟨outcome, ?_⟩
  rw [called, currentTop_raised, currentTop_top found (currentTop_fuel found), map_some, raised_raised]

theorem obioQueryDeviceRelations_raised (fuel : Nat) (σ : AttachState Object) (o : Object) (oip : Bool)
    (answer : DriverAnswer (Option (List Object))) (found : σ.currentTop fuel o = some top) :
    ∃ outcome, obioQueryDeviceRelations fuel σ o oip answer = some (raised σ top 2, outcome) := by
  obtain ⟨⟨status, information⟩, called⟩ := obioSynchronusCallByStack_top (n := 1) found oip answer
  refine ⟨(status, information.getD none), ?_⟩
  rw [obioQueryDeviceRelations, obioGetTopDeviceObject_raised, found]
  simp only [map_some, bind_eq_bind, bind_some]
  rw [called]
  rfl

theorem obioStartDevice_raised (fuel : Nat) (σ : AttachState Object) (o : Object) (oip : Bool)
    (answer : DriverAnswer Information) (found : σ.currentTop fuel o = some top) :
    ∃ outcome, obioStartDevice fuel σ o oip answer = some (raised σ top 1, outcome) := by
  obtain ⟨⟨status, information⟩, called⟩ := obioSynchronusCallByStack_raised fuel σ o oip answer
  refine ⟨(status, 0), ?_⟩
  rw [obioStartDevice, called, found]
  rfl

theorem obioCreateDeviceNodeInstancePath_raised (fuel : Nat) (σ : AttachState Object) (o : Object)
    (deviceOip instanceOip : Bool) (deviceAnswer instanceAnswer : DriverAnswer Information) (pool : Bool)
    (found : σ.currentTop fuel o = some top) :
    ∃ n outcome, 0 < n ∧
      obioCreateDeviceNodeInstancePath fuel σ o deviceOip instanceOip deviceAnswer instanceAnswer pool =
        some (raised σ top n, outcome) := by
  obtain ⟨⟨deviceStatus, deviceId⟩, asked⟩ := obioSynchronusCallByStack_top (n := 1) found deviceOip deviceAnswer
  obtain ⟨⟨instanceStatus, instanceId⟩, askedAgain⟩ :=
    obioSynchronusCallByStack_top (n := 2) found instanceOip instanceAnswer
  rw [obioCreateDeviceNodeInstancePath, obioGetTopDeviceObject_raised, found]
  simp only [map_some, bind_eq_bind, bind_some, obioCallSpecificPnpOip]
  rw [asked]
  simp only [bind_some, pure_def]
  by_cases answered : deviceStatus.isSuccess = true
  · rw [askedAgain]
    simp only [answered, Bool.not_true, Bool.false_eq_true, if_false, bind_some]
    refine ⟨3, ?_⟩
    by_cases answeredAgain : instanceStatus.isSuccess = true
    · cases pool with
      | false | true => exact ⟨_, by omega, by simp [answeredAgain]; rfl⟩
    · exact ⟨_, by omega, by simp [answeredAgain]; rfl⟩
  · exact ⟨2, _, by omega, by simp [answered]; rfl⟩

theorem openTarget_raised (fuel : Nat) (σ : AttachState Object) (target : Object)
    (request : ParseRequest Object Information) :
    ∃ outcome, openTarget fuel σ target request =
      (if (σ target).upperAttachedObject.isSome then
        (σ.currentTop fuel target).map fun top => raised σ top 1
      else some σ).map fun σ => (σ, outcome) := by
  obtain ⟨outcome, opened⟩ : ∃ outcome, ∀ σ : AttachState Object,
      (if !request.createStatus.isSuccess then some (σ, request.createStatus, none)
      else if request.named && !request.namePool then some (σ, statusInsufficientResources, none)
      else if !request.oip then some (σ, statusInsufficientResources, none)
      else
        let status :=
          if request.answer.returned = statusPending then request.answer.status else request.answer.returned
        some (σ, status, if status.isSuccess then some ParsedObject.file else none)) = some (σ, outcome) := by
    cases request.createStatus.isSuccess with
    | false => exact ⟨_, fun _ => rfl⟩
    | true =>
      cases request.named && !request.namePool with
      | true => exact ⟨_, fun _ => rfl⟩
      | false => cases request.oip <;> exact ⟨_, fun _ => rfl⟩
  refine ⟨outcome, ?_⟩
  rw [openTarget]
  by_cases above : (σ target).upperAttachedObject.isSome
  · rw [if_pos above, if_pos above, obioGetTopDeviceObject_raised]
    cases σ.currentTop fuel target with
    | none => rfl
    | some top => exact opened _
  · rw [if_neg above, if_neg above]
    exact opened _

theorem openTarget_keeps (returned : openTarget fuel σ target request = some (σ', outcome)) :
    CountsKept σ σ' ↔ (σ target).upperAttachedObject = none := by
  obtain ⟨_, opened⟩ := openTarget_raised fuel σ target request
  rw [opened] at returned
  cases above : (σ target).upperAttachedObject with
  | none =>
    rw [above] at returned
    obtain ⟨rfl, -⟩ := Prod.mk.inj (some.inj returned)
    exact iff_of_true (fun _ => rfl) rfl
  | some upper =>
    rw [above, isSome_some, if_pos rfl] at returned
    cases found : σ.currentTop fuel target with
    | none => rw [found] at returned; cases returned
    | some top =>
      rw [found] at returned
      obtain ⟨rfl, -⟩ := Prod.mk.inj (some.inj returned)
      exact iff_of_false (not_countsKept Nat.one_pos) (some_ne_none upper)

theorem openTarget_raised_not_kept (more : 0 < n)
    (returned : openTarget fuel (raised σ top n) target request = some (σ', outcome)) : ¬ CountsKept σ σ' := by
  obtain ⟨_, opened⟩ := openTarget_raised fuel (raised σ top n) target request
  rw [opened] at returned
  by_cases above : (raised σ top n target).upperAttachedObject.isSome
  · rw [if_pos above] at returned
    cases found : (raised σ top n).currentTop fuel target with
    | none => rw [found] at returned; cases returned
    | some upper =>
      rw [found] at returned
      obtain ⟨rfl, -⟩ := Prod.mk.inj (some.inj returned)
      exact not_countsKept_twice more upper
  · rw [if_neg above] at returned
    obtain ⟨rfl, -⟩ := Prod.mk.inj (some.inj returned)
    exact not_countsKept more

theorem obioMountVolume_raised (fuel : Nat) (σ : AttachState Object) (o : Object)
    (request : ParseRequest Object Information) (vpb : Vpb Object) (found : σ.currentTop fuel o = some top) :
    ∃ n outcome, 0 < n ∧ obioMountVolume fuel σ o request vpb = some (raised σ top n, outcome) := by
  rw [obioMountVolume, obioGetTopDeviceObject_raised, found]
  simp only [map_some, bind_eq_bind, bind_some, reference_eq, raised_raised]
  by_cases mounts : request.mountAnswer.isSuccess = true
  · exact ⟨2, _, by omega, by rw [if_pos mounts]; rfl⟩
  · exact ⟨1, _, by omega, by rw [if_neg mounts, dereference_raised]; rfl⟩

theorem obioParseDevice_mounted {vpb : Vpb Object} (opens : request.openPacket = true)
    (volume : request.vpb = some vpb) (mounted : vpb.mounted = true) :
    obioParseDevice fuel σ o request =
      if vpb.locked then some (σ, statusAccessDenied, none) else openTarget fuel σ vpb.deviceObject request := by
  have succeeds : statusSuccess.isSuccess = true := by decide
  rw [obioParseDevice, opens, volume]
  simp only [obioCheckVpbMounted, mounted, Bool.not_true, Bool.false_eq_true, if_false, if_true,
    bind_eq_bind, bind_some, pure_def, succeeds]
  cases vpb.locked with
  | false => rfl
  | true => rfl

theorem obioParseDevice_unmounted {vpb : Vpb Object} (opens : request.openPacket = true)
    (volume : request.vpb = some vpb) (unmounted : vpb.mounted = false)
    (returned : obioParseDevice fuel σ o request = some (σ', outcome)) : ¬ CountsKept σ σ' := by
  rw [obioParseDevice, opens, volume] at returned
  simp only [obioCheckVpbMounted, unmounted, Bool.not_true, Bool.false_eq_true, if_false,
    bind_eq_bind, pure_def] at returned
  cases found : σ.currentTop fuel o with
  | none =>
    rw [obioMountVolume, obioGetTopDeviceObject_raised, found] at returned
    cases returned
  | some top =>
    obtain ⟨n, ⟨status, volume⟩, more, mounts⟩ := obioMountVolume_raised fuel σ o request vpb found
    rw [mounts] at returned
    simp only [bind_some] at returned
    by_cases succeeds : status.isSuccess = true
    · by_cases locked : volume.locked = true
      · simp only [succeeds, locked, Bool.not_true, Bool.false_eq_true, if_false, if_true,
          bind_some] at returned
        obtain ⟨rfl, -⟩ := Prod.mk.inj (some.inj returned)
        exact not_countsKept more
      · simp only [succeeds, locked, Bool.not_true, Bool.false_eq_true, if_false, bind_some] at returned
        exact openTarget_raised_not_kept more returned
    · simp only [succeeds, Bool.not_false, if_true, bind_some] at returned
      obtain ⟨rfl, -⟩ := Prod.mk.inj (some.inj returned)
      exact not_countsKept more

theorem obioParseDevice_keeps (returned : obioParseDevice fuel σ o request = some (σ', outcome)) :
    CountsKept σ σ' ↔ ParsesBare σ o request := by
  by_cases opens : request.openPacket = true
  · rw [ParsesBare, opens, or_iff_right Bool.noConfusion]
    cases volume : request.vpb with
    | none =>
      rw [obioParseDevice, opens, volume] at returned
      exact openTarget_keeps returned
    | some vpb =>
      by_cases mounted : vpb.mounted = true
      · rw [obioParseDevice_mounted opens volume mounted] at returned
        by_cases locked : vpb.locked = true
        · rw [if_pos locked] at returned
          obtain ⟨rfl, -⟩ := Prod.mk.inj (some.inj returned)
          exact iff_of_true (fun _ => rfl) ⟨mounted, .inl locked⟩
        · rw [if_neg locked] at returned
          rw [openTarget_keeps returned]
          exact ⟨fun bare => ⟨mounted, .inr bare⟩, fun ⟨_, bare⟩ => bare.resolve_left locked⟩
      · exact iff_of_false
          (obioParseDevice_unmounted opens volume (eq_false_of_ne_true mounted) returned)
          fun bare => mounted bare.1
  · have closed := eq_false_of_ne_true opens
    rw [obioParseDevice, closed] at returned
    obtain ⟨rfl, -⟩ := Prod.mk.inj (some.inj returned)
    exact iff_of_true (fun _ => rfl) (.inl closed)

theorem leaks_of_raised {Outcome : Type} {run : Option (AttachState Object × Outcome)}
    (spec : ∀ top, σ.currentTop fuel o = some top → ∃ n outcome, 0 < n ∧ run = some (raised σ top n, outcome))
    (ends : σ.currentTop fuel o = none → run = none) (returned : run.map Prod.fst = some σ') :
    ¬ CountsKept σ σ' := by
  cases found : σ.currentTop fuel o with
  | none => rw [ends found] at returned; cases returned
  | some top =>
    obtain ⟨n, outcome, more, runs⟩ := spec top found
    rw [runs] at returned
    obtain rfl := some.inj returned
    exact not_countsKept more

/-- A request that returns keeps the counts only where it is an open of a mounted
volume, or of a device without one, that has nothing attached above it. -/
theorem helper_counts {call : HelperCall Object Information} (returned : helperStep fuel σ call = some σ') :
    CountsKept σ σ' ↔ HelperKeeps σ call := by
  cases call with
  | synchronusCallByStack o oip answer =>
    obtain ⟨outcome, called⟩ := obioSynchronusCallByStack_raised fuel σ o oip answer
    exact iff_of_false (leaks_of_raised (fun top found => ⟨1, outcome, by omega, by rw [called, found]; rfl⟩)
      (fun found => by rw [called, found]; rfl) returned) id
  | callSpecificPnpOip o oip answer =>
    obtain ⟨outcome, called⟩ := obioSynchronusCallByStack_raised fuel σ o oip answer
    exact iff_of_false (leaks_of_raised
      (fun top found => ⟨1, outcome, by omega, by rw [obioCallSpecificPnpOip, called, found]; rfl⟩)
      (fun found => by rw [obioCallSpecificPnpOip, called, found]; rfl) returned) id
  | queryDeviceRelations o oip answer =>
    exact iff_of_false (leaks_of_raised
      (fun top found => (obioQueryDeviceRelations_raised fuel σ o oip answer found).elim
        fun outcome called => ⟨2, outcome, by omega, called⟩)
      (fun found => by rw [obioQueryDeviceRelations, obioGetTopDeviceObject_raised, found]; rfl) returned) id
  | startDevice o oip answer =>
    exact iff_of_false (leaks_of_raised
      (fun top found => (obioStartDevice_raised fuel σ o oip answer found).elim
        fun outcome called => ⟨1, outcome, by omega, called⟩)
      (fun found => by
        obtain ⟨_, called⟩ := obioSynchronusCallByStack_raised fuel σ o oip answer
        rw [obioStartDevice, called, found]
        rfl) returned) id
  | createDeviceNodeInstancePath o deviceOip instanceOip deviceAnswer instanceAnswer pool =>
    exact iff_of_false (leaks_of_raised
      (fun top found => obioCreateDeviceNodeInstancePath_raised fuel σ o deviceOip instanceOip deviceAnswer
        instanceAnswer pool found)
      (fun found => by rw [obioCreateDeviceNodeInstancePath, obioGetTopDeviceObject_raised, found]; rfl)
      returned) id
  | parseDevice o request =>
    obtain ⟨⟨_, outcome⟩, parsed, rfl⟩ := map_eq_some_iff.mp returned
    exact obioParseDevice_keeps parsed

end Helpers

def attachedPair : AttachState Bool
  | false => ⟨true, some true, none, 1, 2⟩
  | true => ⟨true, none, some false, 2, 1⟩

def plainOpen : ParseRequest Bool Unit :=
  ⟨true, none, 0, true, 0, true, true, true, ⟨0, 0, ()⟩⟩

theorem helper_counts_opened :
    ∃ σ', helperStep 3 attachedPair (.parseDevice true plainOpen) = some σ' ∧ CountsKept attachedPair σ' := by
  have opened : helperStep 3 attachedPair (.parseDevice true plainOpen) = some attachedPair := rfl
  exact ⟨_, opened, (helper_counts opened).2 (Or.inr rfl)⟩

/-- A successful start leaves a reference on the device above. -/
theorem start_leaks :
    ¬ ∀ σ', helperStep 3 attachedPair (.startDevice false true (⟨0, 0, ()⟩ : DriverAnswer Unit)) = some σ' →
      CountsKept attachedPair σ' := by
  intro kept
  exact absurd (kept _ rfl true) (by decide)

end VeaOS.Pnp

import Mathlib.Data.Finset.Card
import VeaOS.Ob.DeviceRounds

/-! One turn of the switch in the tree: what it leaves of the other nodes, and
which references it takes and drops. -/
namespace VeaOS.Pnp
open Forest DeviceNode DeviceTree Function List

section Entries
variable {Device : Type} [DecidableEq Device] {σ σ' σ'' : DeviceTree Device}

/-- A node that is made keeps the reference that the list of its bus stood for. -/
def keptByNew (σ σ' : DeviceTree Device) (d : Device) : Int :=
  if σ.deviceNode d = none ∧ σ'.deviceNode d ≠ none then 1 else 0

omit [DecidableEq Device] in
theorem keptByNew_nonneg (σ σ' : DeviceTree Device) (d : Device) : 0 ≤ keptByNew σ σ' d := by
  rw [keptByNew]
  split_ifs <;> decide

omit [DecidableEq Device] in
theorem keptByNew_same (same : σ'.deviceNode = σ.deviceNode) (d : Device) : keptByNew σ σ' d = 0 := by
  rw [keptByNew, same]
  exact if_neg fun both => both.2 both.1

omit [DecidableEq Device] in
theorem keptByNew_trans (two : σ'.deviceNode d ≠ none → σ''.deviceNode d ≠ none)
    (one : σ.deviceNode d ≠ none → σ'.deviceNode d ≠ none) :
    keptByNew σ σ'' d = keptByNew σ σ' d + keptByNew σ' σ'' d := by
  rw [keptByNew, keptByNew, keptByNew]
  by_cases before : σ.deviceNode d = none
  · by_cases between : σ'.deviceNode d = none
    · simp [before, between]
    · simp [before, between, two between]
  · simp [before, one before]

/-- The references of a list, as its devices are entered. -/
structure EntryAccounts (requested : Device → Prop) (σ σ' : DeviceTree Device) (devices : List Device)
    (log : List (WalkEvent Device)) : Prop where
  closes : ∀ d, balance d log + listed d devices = leftOn d log + keptByNew σ σ' d
  leaves : ∀ d, leftOn d log ≠ 0 → requested d
  covers : ∀ d, Covered d (listed d devices) log
  grows : ∀ d, σ.deviceNode d ≠ none → σ'.deviceNode d ≠ none

theorem listed_single (d e : Device) : listed d [e] = if e = d then 1 else 0 :=
  (listed_cons d e []).trans (Int.add_zero _)

theorem balance_lefts (d : Device) (n : Nat) (e : Device) :
    balance d (replicate n (.left e)) = leftOn d (replicate n (.left e)) := by
  induction n with
  | zero => rfl
  | succ n ih => rw [replicate_succ, balance, leftOn, ih, WalkEvent.change]

theorem covered_lefts (high : 0 ≤ height) (n : Nat) (d e : Device) :
    Covered d height (replicate n (.left e)) :=
  .of_taken high fun event member => by
    rw [eq_of_mem_replicate member]
    exact change_left_nonneg d e

theorem leftOn_lefts {n : Nat} {d e : Device} (left : leftOn d (replicate n (.left e)) ≠ 0) : e = d := by
  by_contra other
  refine left ?_
  induction n with
  | zero => rfl
  | succ n ih =>
    rw [replicate_succ, leftOn, if_neg other, ih fun more => left ?_, Int.add_zero]
    rw [replicate_succ, leftOn, if_neg other, Int.zero_add, more]

namespace EntryAccounts
variable {requested : Device → Prop} {e : Device}

theorem dropped (top : Device → Device) (n : Nat) (same : σ'.deviceNode = σ.deviceNode) (asked : n ≠ 0 → requested (top e)) :
    EntryAccounts requested σ σ' [e] (replicate n (.left (top e)) ++ [.dereference e]) where
  closes d := by
    rw [balance_append, leftOn_append, balance_lefts, keptByNew_same same, listed_single]
    simp only [balance, leftOn, WalkEvent.change]
    split_ifs <;> omega
  leaves d left := by
    rw [leftOn_append] at left
    have left : leftOn d (replicate n (.left (top e))) ≠ 0 := by simpa [leftOn] using left
    obtain rfl := leftOn_lefts left
    refine asked fun none => left ?_
    rw [none]
    rfl
  covers d := by
    refine .append (covered_lefts (listed_nonneg d _) n d (top e)) ?_
    have taken := leftOn_nonneg d (replicate n (.left (top e)))
    rw [balance_lefts, listed_single]
    simp only [Covered, WalkEvent.change]
    split_ifs <;> omega
  grows d := by rw [same]; exact id

theorem kept (top : Device → Device) (n : Nat) (missing : σ.deviceNode e = none) (made : σ'.deviceNode = update σ.deviceNode e (some c))
    (asked : requested (top e)) :
    EntryAccounts requested σ σ' [e] (replicate n (.left (top e))) where
  closes d := by
    rw [balance_lefts, listed_single, keptByNew, made]
    by_cases here : e = d
    · subst here
      simp [missing]
    · rw [update_of_ne (Ne.symm here)]
      simp [here]
  leaves d left := by
    obtain rfl := leftOn_lefts left
    exact asked
  covers d := covered_lefts (listed_nonneg d _) n d (top e)
  grows d known := by
    rw [made]
    by_cases here : d = e
    · rw [here, update_self]
      exact Option.some_ne_none c
    · rwa [update_of_ne here]

theorem congr {log : List (WalkEvent Device)} {τ τ' : DeviceTree Device}
    (accounts : EntryAccounts requested σ σ' devices log) (before : τ.deviceNode = σ.deviceNode)
    (after : τ'.deviceNode = σ'.deviceNode) : EntryAccounts requested τ τ' devices log where
  closes d := by
    rw [keptByNew, before, after]
    exact accounts.closes d
  leaves := accounts.leaves
  covers := accounts.covers
  grows d := by
    rw [before, after]
    exact accounts.grows d

theorem weaken {requested' : Device → Prop} {log : List (WalkEvent Device)}
    (accounts : EntryAccounts requested σ σ' devices log) (more : ∀ d, requested d → requested' d) :
    EntryAccounts requested' σ σ' devices log :=
  { accounts with leaves := fun d left => more d (accounts.leaves d left) }

theorem trans {requested' requested'' : Device → Prop} {log log' : List (WalkEvent Device)}
    (one : EntryAccounts requested' σ σ' [e] log) (two : EntryAccounts requested'' σ' σ'' rest log')
    (now : ∀ d, requested' d → requested d) (later : ∀ d, requested'' d → requested d) :
    EntryAccounts requested σ σ'' (e :: rest) (log ++ log') where
  closes d := by
    have first := one.closes d
    have second := two.closes d
    rw [listed_single] at first
    rw [balance_append, leftOn_append, listed_cons, keptByNew_trans (two.grows d) (one.grows d)]
    omega
  leaves d left := by
    rw [leftOn_append] at left
    by_cases first : leftOn d log = 0
    · exact later d (two.leaves d (by omega))
    · exact now d (one.leaves d first)
  covers d := by
    have first := one.closes d
    rw [listed_single] at first
    have taken := leftOn_nonneg d log
    have made := keptByNew_nonneg σ σ' d
    have more := listed_nonneg d rest
    have all := listed_cons d e rest
    have head := listed_single d e
    exact .append ((one.covers d).mono (by omega)) ((two.covers d).mono (by omega))
  grows d known := two.grows d (one.grows d known)

end EntryAccounts

/-- A request for a device of the list that has no node yet. -/
def AsksForNew (σ : DeviceTree Device) (top : Device → Device) (creation : Nat → CreationAnswers) (i : Nat)
    (devices : List Device) (d : Device) : Prop :=
  ∃ j e, devices[j]? = some e ∧ σ.deviceNode e = none ∧ (creation (i + j)).pool = true ∧ top e = d

theorem enumerateEntry_accounts (top : Device → Device) (creation : Nat → CreationAnswers) (i p : Nat)
    (σ : DeviceTree Device) (e : Device) :
    EntryAccounts (AsksForNew σ top creation i [e]) σ (enumerateEntry top (creation i) p σ e).1 [e]
      (enumerateEntry top (creation i) p σ e).2 := by
  rw [enumerateEntry]
  cases found : σ.deviceNode e with
  | some c => exact .dropped top 0 rfl fun more => absurd rfl more
  | none =>
    rw [obioAllocateZeroDeviceNode, obioCreateDeviceNode]
    cases pool : (creation i).pool with
    | false => exact .dropped top 0 rfl fun more => absurd rfl more
    | true =>
      have asked : AsksForNew σ top creation i [e] (top e) := ⟨0, e, rfl, found, pool, rfl⟩
      by_cases succeeds : (creation i).instancePath.1.isSuccess = true
      · simp only [succeeds, Bool.not_true, Bool.false_eq_true, if_false]
        have lefts : ∀ k, replicate k (WalkEvent.left (top e)) ++ [.left (top e), .left (top e)] =
            replicate (k + 2) (.left (top e)) := fun k =>
          (replicate_add k 2 (WalkEvent.left (top e))).symm
        rw [lefts]
        refine .kept (c := σ.count) top _ found ?_ asked
        rw [modify_deviceNode, (obioSetDevNodeState_samePlaces _ _).deviceNode,
          insert_deviceNode]
      · simp only [succeeds, Bool.not_true, Bool.not_false, Bool.false_eq_true, if_false, if_true]
        exact .dropped top _ rfl fun _ => asked

theorem enumerateEntries_accounts (top : Device → Device) (creation : Nat → CreationAnswers) (i p : Nat)
    (σ : DeviceTree Device) (devices : List Device) :
    EntryAccounts (AsksForNew σ top creation i devices) σ (enumerateEntries top creation p i σ devices).1 devices
      (enumerateEntries top creation p i σ devices).2 := by
  induction devices generalizing σ i with
  | nil => exact {
      closes := fun d => by
        rw [enumerateEntries, keptByNew_same rfl]
        rfl
      leaves := fun _ left => absurd rfl left
      covers := fun _ => Int.le_refl 0
      grows := fun _ => id }
  | cons e rest ih =>
    have one := enumerateEntry_accounts top creation i p σ e
    refine one.trans (ih (i + 1) _) (fun d asked => ?_) fun d asked => ?_
    · obtain ⟨j, e', entry, missing, pool, same⟩ := asked
      cases j with
      | zero => exact ⟨0, e', entry, missing, pool, same⟩
      | succ j => cases entry
    · obtain ⟨j, e', entry, missing, pool, same⟩ := asked
      have before : σ.deviceNode e' = none := by
        by_contra known
        exact one.grows e' known missing
      refine ⟨j + 1, e', entry, before, ?_, same⟩
      rwa [← Nat.add_assoc, Nat.add_right_comm]

end Entries

section Effects
variable {Device : Type} [DecidableEq Device] {σ σ' : DeviceTree Device} {reported : Finset Device}

structure NodeSound (reported : Finset Device) (node : DeviceNode Device) : Prop where
  notRaw : node.rawDeviceOk = false
  notRemoved : node.state ≠ .removed
  pending : ∀ devices, node.pendingDeviceRelations = some devices → ∀ d ∈ devices, d ∈ reported

/-- The turns that send a request to the stack with this device on top. -/
inductive Requested (answers : WalkAnswers Device) (σ : DeviceTree Device) (n : Nat) (d : Device) : Prop where
  | ofNode : (σ.nodes n).Asks answers d → Requested answers σ n d
  | ofReport : (σ.nodes n).state = .enumerateCompletion →
      (σ.nodes n).lastStateCompletionStatus.isSuccess = true →
      (σ.nodes n).pendingDeviceRelations = some devices →
      AsksForNew σ answers.top answers.creation 0 devices d → Requested answers σ n d

/-- The references of a turn, against the lists of devices and the new nodes. -/
structure TurnAccounts (requested : Device → Prop) (σ σ' : DeviceTree Device) (n : Nat) (again : Bool)
    (log : List (WalkEvent Device)) : Prop where
  closes : ∀ d, balance d log + (σ.nodes n).listedPending d =
    leftOn d log + (σ'.nodes n).listedPending d + keptByNew σ σ' d
  leaves : ∀ d, leftOn d log ≠ 0 → requested d
  covers : ∀ d, Covered d ((σ.nodes n).listedPending d) log
  pends : (σ'.nodes n).pendingDeviceRelations ≠ none → (σ'.nodes n).state = .enumerateCompletion ∧ again = true

/-- What a turn of the switch does to the tree. -/
structure RoundEffect (reported : Finset Device) (answers : WalkAnswers Device) (σ σ' : DeviceTree Device)
    (children : Nat → List Nat) (n : Nat) (again : Bool) (log : List (WalkEvent Device)) : Prop where
  shape : ∃ children', TreeShape σ' children' ∧ ∀ q, q ≠ n → children' q = children q
  grows : σ.count ≤ σ'.count
  quiet : visits log = []
  about : ∀ event ∈ log, ∀ m, event.about = some m → m = n
  further : again = true → (σ.nodes n).state.stage < (σ'.nodes n).state.stage
  sound : ∀ m, m < σ'.count → NodeSound reported (σ'.nodes m)
  device : ∀ m, m < σ.count → (σ'.nodes m).physicalDeviceObject = (σ.nodes m).physicalDeviceObject
  new : ∀ m, σ.count ≤ m → m < σ'.count →
    (σ'.nodes m).physicalDeviceObject ∈ reported ∧ (σ'.nodes m).state = .initialized
  fitsSelf : ((σ.nodes n).state = .resourcesAssigned → answers.start.status.isSuccess = true) →
    ∀ {added started failed : Prop}, NodeFits added started failed (σ.nodes n) →
      NodeFits (added ∨ AddSucceeded log n) (started ∨ StartSucceeded log n) (failed ∨ RequestFailed log n)
        (σ'.nodes n)
  fitsOther : ∀ m, m < σ.count → m ≠ n → ∀ {added started failed : Prop},
    NodeFits added started failed (σ.nodes m) → NodeFits added started failed (σ'.nodes m)
  older : ∀ p c, c < σ.count → IsChild σ' p c → IsChild σ p c
  settles : ∀ m, m < σ'.count → m ≠ n → (m < σ.count → (σ.nodes m).pendingDeviceRelations = none) →
    (σ'.nodes m).pendingDeviceRelations = none
  accounts : (σ.nodes n).Settled → TurnAccounts (Requested answers σ n) σ σ' n again log

/-- The lists that buses report in a walk name devices of a finite set only. -/
def ReportsWithin (reported : Finset Device) (answers : WalkAnswers Device) : Prop :=
  ∀ devices, answers.relationList = some devices → ∀ d ∈ devices, d ∈ reported

omit [DecidableEq Device] in
theorem NodeSound.of_frame {answers : WalkAnswers Device} {node node' : DeviceNode Device}
    (sound : NodeSound reported node) (within : ReportsWithin reported answers) (frame : NodeFrame answers node node') :
    NodeSound reported node' where
  notRaw := by rw [rawDeviceOk, frame.capabilityFlags]; exact sound.notRaw
  notRemoved removed := sound.notRemoved (frame.removed removed)
  pending devices listed := by
    rcases frame.pending with same | none | asked
    · exact sound.pending devices (same ▸ listed)
    · rw [none] at listed
      cases listed
    · exact within devices (asked ▸ listed)

theorem RoundEffect.of_local {answers : WalkAnswers Device} {children : Nat → List Nat}
    {change : DeviceNode Device → DeviceNode Device} (shape : TreeShape σ children)
    (sound : ∀ m, m < σ.count → NodeSound reported (σ.nodes m)) (within : ReportsWithin reported answers)
    (inside : n < σ.count) (keeps : ∀ node, (change node).place = node.place)
    (round : LocalRound answers n (σ.nodes n) (change (σ.nodes n)) again log) :
    RoundEffect reported answers σ (σ.modify n change) children n again log where
  shape := ⟨children, (modify_samePlaces keeps n).shape shape, fun _ _ => rfl⟩
  grows := Nat.le_refl _
  quiet := round.quiet
  about := round.about
  further again := by
    rw [modify_self]
    exact round.further again
  sound m below := by
    by_cases here : m = n
    · subst here
      rw [modify_self]
      exact (sound m inside).of_frame within round.frame
    · rw [modify_of_ne here]
      exact sound m below
  device m _ := by
    by_cases here : m = n
    · subst here
      rw [modify_self]
      exact round.frame.device
    · rw [modify_of_ne here]
  new m old below := absurd old (Nat.not_le_of_gt below)
  fitsSelf started := by
    rw [modify_self]
    exact round.fits started
  fitsOther m _ other := by
    rw [modify_of_ne other]
    exact id
  older p c _ := (IsChild.of_samePlaces (modify_samePlaces keeps n)).mp
  settles m below other none := by
    rw [modify_of_ne other]
    exact none below
  accounts settled := by
    have accounts := round.accounts settled
    exact {
      closes := fun d => by
        rw [keptByNew_same (modify_deviceNode n), Int.add_zero, modify_self]
        exact accounts.closes d
      leaves := fun d left => .ofNode (accounts.leaves d left)
      covers := accounts.covers
      pends := by
        rw [modify_self]
        exact accounts.pends }

omit [DecidableEq Device] in
theorem NodeSound.of_data {node node' : DeviceNode Device} (sound : NodeSound reported node)
    (same : node'.data = node.data) : NodeSound reported node' := by
  obtain ⟨-, state, -, capability, -, pending⟩ := fields_of_data same
  exact {
    notRaw := by rw [rawDeviceOk, capability]; exact sound.notRaw
    notRemoved := by rw [state]; exact sound.notRemoved
    pending := by rw [pending]; exact sound.pending }

omit [DecidableEq Device] in
theorem NodeFits.of_data {added started failed : Prop} {node node' : DeviceNode Device}
    (fits : NodeFits added started failed node) (same : node'.data = node.data) :
    NodeFits added started failed node' := by
  obtain ⟨-, state, flags, capability, status, -⟩ := fields_of_data same
  exact {
    added := by rw [state]; exact fits.added
    started := by rw [isStarted, state, status]; exact fits.started
    failed := by rw [state, flags]; exact fits.failed
    notRaw := by rw [rawDeviceOk, capability]; exact fits.notRaw }

omit [DecidableEq Device] in
theorem NodeFits.markedGone {added started failed : Prop} {node : DeviceNode Device}
    (fits : NodeFits added started failed node) : NodeFits added started failed node.markedGone := by
  rw [DeviceNode.markedGone]
  split_ifs
  · exact {
      added := fun past => by
        rw [DeviceNode.setState_state] at past
        cases past
      started := fun past => by
        rw [DeviceNode.isStarted, DeviceNode.setState_state] at past
        cases past
      failed := fun before => ⟨DeviceNode.setState_state _ _, by
        rw [DeviceNode.setState_flags]
        exact (fits.failed before).2⟩
      notRaw := by
        rw [DeviceNode.rawDeviceOk, DeviceNode.setState_capabilityFlags]
        exact fits.notRaw }
  · exact fits

omit [DecidableEq Device] in
theorem NodeSound.markedGone {node : DeviceNode Device} (sound : NodeSound reported node) :
    NodeSound reported node.markedGone := by
  rw [DeviceNode.markedGone]
  split_ifs
  · exact {
      notRaw := by
        rw [DeviceNode.rawDeviceOk, DeviceNode.setState_capabilityFlags]
        exact sound.notRaw
      notRemoved := by
        rw [DeviceNode.setState_state]
        exact DevnodeState.noConfusion
      pending := by
        rw [DeviceNode.setState_pendingDeviceRelations]
        exact sound.pending }
  · exact sound

omit [DecidableEq Device] in
theorem Discovered.sound {node : DeviceNode Device} {devices : List Device} (discovered : Discovered node devices) :
    NodeSound reported node where
  notRaw := by rw [rawDeviceOk, discovered.capabilityFlags]; rfl
  notRemoved := by rw [discovered.state]; exact DevnodeState.noConfusion
  pending devices listed := by
    rw [discovered.pending] at listed
    cases listed

omit [DecidableEq Device] in
theorem onlyReferences_append {first second : List (WalkEvent Device)} (one : OnlyReferences first)
    (two : OnlyReferences second) : OnlyReferences (first ++ second) := fun event member =>
  (mem_append.mp member).elim (one event) (two event)

theorem enumerateEntry_onlyReferences (top : Device → Device) (answers : CreationAnswers) (p : Nat)
    (σ : DeviceTree Device) (d : Device) : OnlyReferences (enumerateEntry top answers p σ d).2 := by
  have dropped : OnlyReferences [WalkEvent.dereference d] := fun event member => by
    rw [mem_singleton.mp member]
    exact ⟨rfl, rfl⟩
  have taken : ∀ n, OnlyReferences (replicate n (WalkEvent.left (top d))) := fun n event member => by
    rw [eq_of_mem_replicate member]
    exact ⟨rfl, rfl⟩
  rw [enumerateEntry]
  cases σ.deviceNode d with
  | some c => exact dropped
  | none =>
    rw [obioAllocateZeroDeviceNode, obioCreateDeviceNode]
    cases answers.pool with
    | false => exact onlyReferences_append (forall_mem_nil _) dropped
    | true =>
      by_cases succeeds : answers.instancePath.1.isSuccess = true
      · simp only [succeeds, Bool.not_true, Bool.false_eq_true, if_false]
        exact onlyReferences_append (taken _) (taken 2)
      · simp only [succeeds, Bool.not_true, Bool.not_false, Bool.false_eq_true, if_false, if_true]
        exact onlyReferences_append (taken _) dropped

theorem enumerateEntries_onlyReferences (top : Device → Device) (creation : Nat → CreationAnswers) (p : Nat) (i : Nat)
    (σ : DeviceTree Device) (devices : List Device) :
    OnlyReferences (enumerateEntries top creation p i σ devices).2 := by
  induction devices generalizing σ i with
  | nil => exact forall_mem_nil _
  | cons d rest ih => exact onlyReferences_append (enumerateEntry_onlyReferences top (creation i) p σ d) (ih _ _)

/-- A turn that enumerates the devices of a report. -/
theorem RoundEffect.of_enumerated {answers : WalkAnswers Device} {children : Nat → List Nat} {devices : List Device}
    (sound : ∀ m, m < σ.count → NodeSound reported (σ.nodes m)) (inside : n < σ.count)
    (state : (σ.nodes n).state = .enumerateCompletion) (known : ∀ d ∈ devices, d ∈ reported)
    (references : OnlyReferences log) (shapeBefore : TreeShape σ children)
    (accounts : EntryAccounts (Requested answers σ n) σ σ' devices log)
    (reports : (σ.nodes n).pendingDeviceRelations = some devices)
    (enumerated : Enumerated σ σ' n children devices) :
    RoundEffect reported answers σ σ' children n false log := by
  have selfSound : NodeSound reported
      (({ σ.nodes n with pendingDeviceRelations := none }.reported devices).setState .started) := {
    notRaw := by rw [rawDeviceOk, setState_capabilityFlags]; exact (sound n inside).notRaw
    notRemoved := by rw [setState_state]; exact DevnodeState.noConfusion
    pending := fun devices listed => by
      rw [setState_pendingDeviceRelations] at listed
      cases listed }
  obtain ⟨added, newer, shape⟩ := enumerated.shape
  exact {
    shape := ⟨_, shape, fun q other => update_of_ne other _ _⟩
    grows := enumerated.count
    quiet := references.visits
    about := fun event member m same => by
      rw [(references event member).1] at same
      cases same
    further := fun again => absurd again Bool.false_ne_true
    sound := fun m below => by
      by_cases old : m < σ.count
      · by_cases here : m = n
        · subst here
          exact selfSound.of_data enumerated.self
        · by_cases child : m ∈ children n
          · have cleared : NodeSound reported ((σ.nodes m).cleared.reported devices) :=
              ⟨(sound m old).notRaw, (sound m old).notRemoved, (sound m old).pending⟩
            exact cleared.markedGone.of_data (enumerated.child m child)
          · have kept : NodeSound reported ((σ.nodes m).reported devices) :=
              ⟨(sound m old).notRaw, (sound m old).notRemoved, (sound m old).pending⟩
            exact kept.of_data (enumerated.other m old here child)
      · exact (enumerated.new m (Nat.le_of_not_lt old) below).sound
    device := fun m old => by
      by_cases here : m = n
      · subst here
        rw [(fields_of_data enumerated.self).1, setState_physicalDeviceObject]
        rfl
      · by_cases child : m ∈ children n
        · have place := markedGone_place ((σ.nodes m).cleared.reported devices)
          exact (fields_of_data (enumerated.child m child)).1.trans (congrArg Prod.fst place :)
        · exact (fields_of_data (enumerated.other m old here child)).1
    new := fun m old below => by
      have discovered := enumerated.new m old below
      exact ⟨known _ discovered.device, discovered.state⟩
    fitsSelf := fun _ {added started failed} fits => by
      have capability := setState_capabilityFlags
        ({ σ.nodes n with pendingDeviceRelations := none }.reported devices) .started
      refine (fits.moved ?_ (fun _ => .inl (fits.added ?_)) (fun _ => .inl (fits.started ?_))
        references.not_requestFailed capability).of_data enumerated.self
      · rw [state]
        exact DevnodeState.noConfusion
      · rw [state]
        rfl
      · rw [isStarted, state]
    fitsOther := fun m old other {added started failed} fits => by
      by_cases child : m ∈ children n
      · have cleared : NodeFits added started failed ((σ.nodes m).cleared.reported devices) :=
          ⟨fits.added, fits.started, fits.failed, fits.notRaw⟩
        exact cleared.markedGone.of_data (enumerated.child m child)
      · have kept : NodeFits added started failed ((σ.nodes m).reported devices) :=
          ⟨fits.added, fits.started, fits.failed, fits.notRaw⟩
        exact kept.of_data (enumerated.other m old other child)
    older := fun p c old child => by
      by_cases here : p = n
      · subst here
        exact enumerated.child_old shapeBefore child old
      · have member := (shape.parent p c).mpr child
        rw [update_of_ne here] at member
        exact (shapeBefore.parent p c).mp member
    settles := fun m below other none => by
      by_cases old : m < σ.count
      · by_cases child : m ∈ children n
        · have same := (fields_of_data (enumerated.child m child)).2.2.2.2.2
          rw [same, markedGone_pending]
          exact none old
        · have same := (fields_of_data (enumerated.other m old other child)).2.2.2.2.2
          rw [same]
          exact none old
      · exact (enumerated.new m (Nat.le_of_not_lt old) below).pending
    accounts := fun _ => by
      have none : (σ'.nodes n).pendingDeviceRelations = none := by
        rw [(fields_of_data enumerated.self).2.2.2.2.2, setState_pendingDeviceRelations]
        rfl
      have listed : ∀ d, (σ.nodes n).listedPending d = listed d devices := fun d => by
        rw [listedPending, reports]
        rfl
      exact {
        closes := fun d => by
          rw [listed, listedPending_none none, Int.add_zero]
          exact accounts.closes d
        leaves := accounts.leaves
        covers := fun d => by
          rw [listed]
          exact accounts.covers d
        pends := fun listed => absurd none listed } }

theorem processNode_effect {children : Nat → List Nat} (shape : TreeShape σ children)
    (sound : ∀ m, m < σ.count → NodeSound reported (σ.nodes m)) {answers : WalkAnswers Device}
    (within : ReportsWithin reported answers) (inside : n < σ.count) :
    ∃ σ' again log, processNode answers σ n = some (σ', again, log) ∧
      RoundEffect reported answers σ σ' children n again log := by
  by_cases state : (σ.nodes n).state = .enumerateCompletion
  · by_cases processed : (σ.nodes n).lastStateCompletionStatus.isSuccess = true ∧
        (σ.nodes n).pendingDeviceRelations ≠ none
    · obtain ⟨devices, reports⟩ := Option.ne_none_iff_exists'.mp processed.2
      obtain ⟨σ', log, ends, logged, deviceNode, enumerated⟩ :=
        enumerate_processed shape inside answers.top answers.creation processed.1 reports
      have before := (beforeEntries_samePlaces σ n (children n)).deviceNode
      have entered := enumerateEntries_accounts answers.top answers.creation 0 n
        (beforeEntries σ n (children n)) devices
      have accounts : EntryAccounts (Requested answers σ n) σ σ' devices log := by
        rw [logged]
        exact (entered.congr before.symm deviceNode).weaken fun d asked => .ofReport state processed.1 reports <| by
          rwa [AsksForNew, before] at asked
      refine ⟨σ', false, log, by rw [processNode, state]; simp only [ends]; rfl, .of_enumerated sound inside state
        ((sound n inside).pending devices reports) ?_ shape accounts reports enumerated⟩
      rw [logged]
      exact enumerateEntries_onlyReferences _ _ _ _ _ _
    · obtain ⟨status, ends⟩ := enumerate_unprocessed answers.top answers.creation (σ := σ) (p := n)
        fun succeeds => by
          by_contra listed
          exact processed ⟨succeeds, listed⟩
      refine ⟨_, false, _, by rw [processNode, state]; simp only [ends]; rfl, .of_local shape sound within inside
        (fun node => setState_place { node with pendingDeviceRelations := none } _)
        (.silent (fun event member => ?_) ?_ (fun _ => ?_) (fun again => absurd again Bool.false_ne_true)
          fun fits => ?_)⟩
      · obtain ⟨device, -, rfl⟩ := mem_map.mp member
        exact ⟨rfl, rfl⟩
      · have cleared : NodeFrame answers (σ.nodes n) { σ.nodes n with pendingDeviceRelations := none } :=
          ⟨rfl, rfl, .inr (.inl rfl), id⟩
        exact cleared.setState _ DevnodeState.noConfusion
      · exact .dropped (setState_pendingDeviceRelations _ _)
      · refine fits.through ?_ (fun _ => ?_) (fun _ => ?_) (setState_capabilityFlags _ _)
        · rw [state]
          exact DevnodeState.noConfusion
        · rw [state]
          rfl
        · rw [isStarted, state]
  · obtain ⟨change, again, log, keeps, ends, round⟩ := processNode_local answers σ n (sound n inside).notRaw state
    exact ⟨_, again, log, ends, .of_local shape sound within inside keeps round⟩

end Effects

end VeaOS.Pnp

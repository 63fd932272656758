import VeaOS.Ob.DeviceWalkRuns

/-! The references that a walk takes and drops. Between two rounds a device's count
is told by the new nodes, the list of the current node and what the requests left. -/
namespace VeaOS.Pnp
open Relation DeviceNode

section References
variable {Device : Type} [DecidableEq Device] {s : DeviceTree Device} {start : Nat} {reported : Finset Device}
variable {w w' : WalkState Device} {answers : Nat → WalkAnswers Device} {d : Device}

/-- The reference on the device of the current node. -/
def DeviceNode.held (node : DeviceNode Device) (d : Device) : Int :=
  if node.physicalDeviceObject = d then 1 else 0

theorem DeviceNode.held_nonneg (node : DeviceNode Device) (d : Device) : 0 ≤ node.held d := by
  rw [held]
  split_ifs <;> decide

theorem change_dereference (node : DeviceNode Device) (d : Device) :
    (WalkEvent.dereference node.physicalDeviceObject).change d = - node.held d := by
  rw [WalkEvent.change, held]
  split_ifs <;> rfl

/-- No node below the start had the device when the walk began. -/
def NotBelow (s : DeviceTree Device) (start : Nat) (d : Device) : Prop :=
  ∀ m, ReflTransGen (IsChild s) start m → m ≠ start → (s.nodes m).physicalDeviceObject ≠ d

/-- No turn of the walk sends a request to the stack with this device on top. -/
def NotRequested (start : Nat) (answers : Nat → WalkAnswers Device) (s : DeviceTree Device) (d : Device) : Prop :=
  ∀ t w, obioDevNodeStateMachine start answers s t = some w → w.running = true →
    ¬ Requested (answers t) w.tree w.currentNode d

structure Referenced (s : DeviceTree Device) (start : Nat) (d : Device) (w : WalkState Device) : Prop where
  covers : Covered d 0 w.log
  closes : balance d w.log + (w.tree.nodes w.currentNode).held d = keptByNew s w.tree d +
    (w.tree.nodes w.currentNode).listedPending d + leftOn d w.log + (s.nodes start).held d
  others : ∀ m, m < w.tree.count → m ≠ w.currentNode → (w.tree.nodes m).pendingDeviceRelations = none
  settled : (w.tree.nodes w.currentNode).Settled
  finished : w.running = false → (w.tree.nodes w.currentNode).pendingDeviceRelations = none
  device : ∀ m, m < s.count → (w.tree.nodes m).physicalDeviceObject = (s.nodes m).physicalDeviceObject

omit [DecidableEq Device] in
theorem TreeShape.known {σ : DeviceTree Device} {children : Nat → List Nat} (shape : TreeShape σ children) :
    σ.deviceNode d ≠ none ↔ ∃ n, n < σ.count ∧ (σ.nodes n).physicalDeviceObject = d := by
  rw [Option.ne_none_iff_exists']
  exact exists_congr (shape.device d)

omit [DecidableEq Device] in
theorem known_mono {σ σ' : DeviceTree Device} {children children' : Nat → List Nat} (shape : TreeShape σ children)
    (shape' : TreeShape σ' children') (grows : σ.count ≤ σ'.count)
    (device : ∀ m, m < σ.count → (σ'.nodes m).physicalDeviceObject = (σ.nodes m).physicalDeviceObject) :
    σ.deviceNode d ≠ none → σ'.deviceNode d ≠ none := by
  rw [shape.known, shape'.known]
  rintro ⟨n, inside, same⟩
  exact ⟨n, Nat.lt_of_lt_of_le inside grows, (device n inside).trans same⟩

omit [DecidableEq Device] in
theorem Walking.descends (walking : Walking s start reported w) (tree : TreeSound s) (old : n < s.count)
    (below : ReflTransGen (IsChild w.tree) start n) : ReflTransGen (IsChild s) start n := by
  obtain ⟨children, shape⟩ := tree
  induction below with
  | refl => exact .refl
  | @tail p c _ child ih =>
    have before := walking.older p c old child
    have later := shape.ordered.later p c ((shape.parent p c).mpr before)
    exact (ih (Nat.lt_trans later old)).tail before

theorem Walking.held_le (walking : Walking s start reported w) (tree : TreeSound s) (startInside : start < s.count)
    (device : ∀ m, m < s.count → (w.tree.nodes m).physicalDeviceObject = (s.nodes m).physicalDeviceObject)
    (apart : NotBelow s start d) :
    (w.tree.nodes w.currentNode).held d ≤ keptByNew s w.tree d + (s.nodes start).held d := by
  have kept := keptByNew_nonneg s w.tree d
  have first := (s.nodes start).held_nonneg d
  rw [held]
  split_ifs with same
  · by_cases home : w.currentNode = start
    · rw [home, device start startInside] at same
      rw [held, if_pos same]
      omega
    · obtain ⟨children, shape, -⟩ := walking.place
      by_cases old : w.currentNode < s.count
      · rw [device _ old] at same
        exact absurd same (apart _ (walking.descends tree old walking.below) home)
      · have missing : s.deviceNode d = none := by
          obtain ⟨childrenBefore, shapeBefore⟩ := tree
          by_contra known
          obtain ⟨m, inside, there⟩ := shapeBefore.known.mp known
          have found := (shape.device d m).mpr
            ⟨Nat.lt_of_lt_of_le inside walking.grows, (device m inside).trans there⟩
          have here := (shape.device d w.currentNode).mpr ⟨walking.inside, same⟩
          exact old (Option.some.inj (found.symm.trans here) ▸ inside)
        have known : w.tree.deviceNode d ≠ none := shape.known.mpr ⟨w.currentNode, walking.inside, same⟩
        rw [keptByNew, if_pos ⟨missing, known⟩]
        omega
  · omega

theorem balance_visiting {visited : List (WalkEvent Device)} (visiting : ∀ event ∈ visited, event = .visit n) :
    balance d visited = 0 ∧ leftOn d visited = 0 := by
  induction visited with
  | nil => exact ⟨rfl, rfl⟩
  | cons event rest ih =>
    obtain rfl := visiting event List.mem_cons_self
    obtain ⟨none, left⟩ := ih fun event member => visiting event (List.mem_cons_of_mem _ member)
    exact ⟨by rw [balance, none]; rfl, left⟩

/-- What a round keeps: the references it takes are those of the new nodes, the
list and the requests, and the one that it drops is on the next node. -/
theorem Referenced.round {answers : WalkAnswers Device} {children : Nat → List Nat}
    (referenced : Referenced s start d w) (walking : Walking s start reported w)
    (walking' : Walking s start reported w') (round : RoundOf reported answers w w' children again log visited)
    (tree : TreeSound s) (startInside : start < s.count) (apart : NotBelow s start d) :
    Referenced s start d w' := by
  have effect := round.effect
  have accounts := effect.accounts referenced.settled
  obtain ⟨childrenBefore, shapeBefore⟩ := tree
  obtain ⟨childrenNow, shape, -⟩ := walking.place
  obtain ⟨children', shape', -⟩ := walking'.place
  have device : ∀ m, m < s.count → (w'.tree.nodes m).physicalDeviceObject = (s.nodes m).physicalDeviceObject :=
    fun m old => (effect.device m (Nat.lt_of_lt_of_le old walking.grows)).trans (referenced.device m old)
  have settles : ∀ m, m < w'.tree.count → m ≠ w.currentNode → (w'.tree.nodes m).pendingDeviceRelations = none :=
    fun m below other => effect.settles m below other fun old => referenced.others m old other
  have ended : again = false → (w'.tree.nodes w.currentNode).pendingDeviceRelations = none := fun ended => by
    by_contra listed
    rw [(accounts.pends listed).2] at ended
    cases ended
  have done : again = false → ∀ m, m < w'.tree.count → (w'.tree.nodes m).pendingDeviceRelations = none :=
    fun finished m below => by
      by_cases here : m = w.currentNode
      · rw [here]
        exact ended finished
      · exact settles m below here
  have pending : (w'.tree.nodes w'.currentNode).listedPending d = (w'.tree.nodes w.currentNode).listedPending d := by
    cases again with
    | true => rw [(round.stays rfl).1]
    | false => rw [listedPending_none (done rfl _ walking'.inside),
        listedPending_none (ended rfl)]
  have made : keptByNew s w'.tree d = keptByNew s w.tree d + keptByNew w.tree w'.tree d :=
    keptByNew_trans (known_mono shape shape' effect.grows effect.device)
      (known_mono shapeBefore shape walking.grows referenced.device)
  have taken := accounts.closes d
  have before := referenced.closes
  have whole : 0 ≤ 0 + balance d w.log := Covered.total referenced.covers
  have next : (w'.tree.nodes w'.currentNode).held d ≤ keptByNew s w'.tree d + (s.nodes start).held d :=
    walking'.held_le ⟨childrenBefore, shapeBefore⟩ startInside device apart
  have listedAfter := (w'.tree.nodes w'.currentNode).listedPending_nonneg d
  have leftBefore := leftOn_nonneg d w.log
  have leftNow := leftOn_nonneg d log
  have keptBefore := keptByNew_nonneg s w.tree d
  have keptNow := keptByNew_nonneg w.tree w'.tree d
  have first := (s.nodes start).held_nonneg d
  have here := (w.tree.nodes w.currentNode).held_nonneg d
  have takes : (WalkEvent.reference (w.tree.nodes w.currentNode).physicalDeviceObject).change d =
      (w.tree.nodes w.currentNode).held d := rfl
  have drops := change_dereference (w'.tree.nodes w'.currentNode) d
  obtain ⟨quiet, noneLeft⟩ := balance_visiting (d := d) round.visiting
  exact {
    covers := by
      rw [round.log, roundLog]
      refine .append (.append (.append (.append referenced.covers ⟨whole, ?_⟩) ((accounts.covers d).mono ?_))
        ⟨?_, ?_⟩) (.of_taken ?_ fun event member => by rw [round.visiting event member]; exact Int.le_refl 0)
      all_goals
        simp only [balance_append, balance, takes, drops, Covered]
        omega
    closes := by
      rw [round.log, roundLog, pending, made]
      simp only [balance_append, leftOn_append, balance, leftOn, takes, drops, quiet, noneLeft]
      omega
    others := fun m below other => by
      by_cases there : m = w.currentNode
      · rw [there]
        cases again with
        | true => exact absurd (there.trans (round.stays rfl).1.symm) other
        | false => exact ended rfl
      · exact settles m below there
    settled := fun listed => by
      cases again with
      | true =>
        rw [(round.stays rfl).1] at listed ⊢
        exact (accounts.pends listed).1
      | false => exact absurd (done rfl _ walking'.inside) listed
    finished := fun finished => by
      cases again with
      | true =>
        rw [(round.stays rfl).2] at finished
        cases finished
      | false => exact done rfl _ walking'.inside
    device := device }

theorem RoundOf.noneLeft {answers : WalkAnswers Device} {children : Nat → List Nat} {log : List (WalkEvent Device)}
    (round : RoundOf reported answers w w' children again log visited)
    (settled : (w.tree.nodes w.currentNode).Settled) (none : leftOn d w.log = 0)
    (quiet : ¬ Requested answers w.tree w.currentNode d) : leftOn d w'.log = 0 := by
  have now : leftOn d log = 0 := by
    by_contra left
    exact quiet ((round.effect.accounts settled).leaves d left)
  rw [round.log, roundLog]
  simp only [leftOn_append, leftOn, none, now, (balance_visiting round.visiting).2, Int.add_zero]

/-- Where no stack with the device on top is asked and no node below the start has
it yet, the device's count is never below its first value, and what stays is the
reference of a new node. -/
theorem walk_references {addedBefore startedBefore : Nat → Prop}
    (begins : WalkStart s start reported addedBefore startedBefore)
    (idle : ∀ m, m < s.count → (s.nodes m).pendingDeviceRelations = none)
    (within : ∀ t, ReportsWithin reported (answers t)) :
    ∃ T w, obioDevNodeStateMachine start answers s T = some w ∧ w.running = false ∧
      ∀ d, NotBelow s start d → NotRequested start answers s d →
        (∀ earlier later, w.log = earlier ++ later → 0 ≤ balance d earlier) ∧
        balance d w.log = keptByNew s w.tree d := by
  have atStart : ∀ d, Referenced s start d ⟨s, start, true, [.visit start]⟩ := fun d => {
    covers := ⟨Int.le_refl 0, Int.le_refl 0⟩
    closes := by
      rw [keptByNew_same rfl, listedPending_none (idle start begins.inside)]
      simp only [balance, leftOn, WalkEvent.change, Int.add_zero]
    others := fun m below _ => idle m below
    settled := fun listed => absurd (idle start begins.inside) listed
    finished := fun _ => idle start begins.inside
    device := fun _ _ => rfl }
  obtain ⟨T, w, reached, finished, walking, referenced⟩ := begins.walking.ends
    (fun w => ∀ d, NotBelow s start d → Referenced s start d w ∧
      (NotRequested start answers s d → leftOn d w.log = 0)) (t := 0) within begins.inside rfl
    (fun d _ => ⟨atStart d, fun _ => rfl⟩)
    fun t w w' children again log visited reached running walking walking' round before d apart => by
      obtain ⟨referenced, none⟩ := before d apart
      exact ⟨referenced.round walking walking' round begins.tree begins.inside apart, fun quiet =>
        round.noneLeft referenced.settled (none quiet) (quiet t w reached running)⟩
  refine ⟨T, w, reached, finished, fun d apart quiet => ?_⟩
  obtain ⟨accounts, none⟩ := referenced d apart
  have home := walking.home finished
  have closes := accounts.closes
  refine ⟨fun earlier later split => ?_, ?_⟩
  · have covers := accounts.covers
    rw [split] at covers
    have high := covers.of_append
    rwa [Int.zero_add] at high
  · rw [home] at closes
    have held : (w.tree.nodes start).held d = (s.nodes start).held d := by
      rw [held, accounts.device start begins.inside, held]
    have listed := listedPending_none (home ▸ accounts.finished finished) d
    have left := none quiet
    omega

end References

def answersBelowTop : WalkAnswers Nat := { answersWithStart 0 with top := fun _ => 7 }

theorem notRequested_sample {d : Nat} (other : d ≠ 7) : NotRequested 0 (fun _ => answersBelowTop) startedRoot d := by
  intro t w _ _ requested
  cases requested with
  | ofNode asks => exact other asks.2.symm
  | ofReport _ _ _ asks =>
    obtain ⟨_, _, _, _, _, same⟩ := asks
    exact other same.symm

theorem answersBelowTop_within : ReportsWithin {1} answersBelowTop := answersWithStart_within 0

theorem startedRoot_notBelow (d : Nat) : NotBelow startedRoot 0 d := fun m below other => by
  rcases below.cases_tail with same | ⟨p, -, child⟩
  · exact absurd same other
  · exact absurd (Nat.lt_one_iff.mp child.1) other

theorem walk_references_sample :
    ∃ T w, obioDevNodeStateMachine 0 (fun _ => answersBelowTop) startedRoot T = some w ∧ w.running = false ∧
      balance 1 w.log = keptByNew startedRoot w.tree 1 := by
  obtain ⟨T, w, reached, finished, balanced⟩ := walk_references startedRoot_begins
    (fun m below => by rw [Nat.lt_one_iff.mp below]; rfl) fun _ => answersBelowTop_within
  exact ⟨T, w, reached, finished, (balanced 1 (startedRoot_notBelow 1) (notRequested_sample (by decide))).2⟩

/-- A second walk of the tree that a first one left drops a reference of the root's child. -/
theorem dropped_reference :
    ∃ w w', obioDevNodeStateMachine 0 (fun _ => answersWithStart 0) startedRoot 9 = some w ∧ w.running = false ∧
      obioDevNodeStateMachine 0 (fun _ => answersWithStart 0) w.tree 1 = some w' ∧ balance 1 w'.log = -1 := by
  have first : obioDevNodeStateMachine 0 (fun _ => answersWithStart 0) startedRoot 9 = some _ := rfl
  exact ⟨_, _, first, rfl, rfl, rfl⟩

end VeaOS.Pnp

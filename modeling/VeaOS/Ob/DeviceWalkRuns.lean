import Mathlib.Order.Interval.Finset.Nat
import VeaOS.Ob.DeviceClimb
import VeaOS.Ob.DeviceTurns

/-! Whole walks of the state machine. Every node of the tree is visited once and
parents first, while the tree grows, and where every start succeeds each state
tells which requests succeeded. -/
namespace VeaOS.Pnp
open Forest Relation
open List (append_nil filterMap_cons filterMap_nil forall_mem_nil length length_append length_pos_of_mem
  length_singleton mem_append mem_singleton)

section Walks
variable {Device : Type} [DecidableEq Device] {s : DeviceTree Device} {start : Nat} {reported : Finset Device}
variable {w w' : WalkState Device}

def walkBound (s : DeviceTree Device) (reported : Finset Device) : Nat := s.count + reported.card

def Listing (s : DeviceTree Device) (start : Nat) (reported : Finset Device) (w : WalkState Device)
    (children : Nat → List Nat) : Prop :=
  if w.running then
    ∃ before after, Position children (walkBound s reported) start w.currentNode before after ∧
      visits w.log = before ++ [w.currentNode]
  else
    visits w.log = preorder children (walkBound s reported) start

structure Walking (s : DeviceTree Device) (start : Nat) (reported : Finset Device) (w : WalkState Device) : Prop where
  place : ∃ children, TreeShape w.tree children ∧ Listing s start reported w children
  inside : w.currentNode < w.tree.count
  grows : s.count ≤ w.tree.count
  sound : ∀ m, m < w.tree.count → NodeSound reported (w.tree.nodes m)
  new : ∀ m, s.count ≤ m → m < w.tree.count → (w.tree.nodes m).physicalDeviceObject ∈ reported
  about : ∀ event ∈ w.log, ∀ m, event.about = some m → m < w.tree.count
  below : ReflTransGen (IsChild w.tree) start w.currentNode
  home : w.running = false → w.currentNode = start
  older : ∀ p c, c < s.count → IsChild w.tree p c → IsChild s p c

omit [DecidableEq Device] in
theorem count_le_walkBound {σ : DeviceTree Device} {children : Nat → List Nat} (shape : TreeShape σ children)
    (new : ∀ m, s.count ≤ m → m < σ.count → (σ.nodes m).physicalDeviceObject ∈ reported) :
    σ.count ≤ walkBound s reported := by
  have short : (Finset.Ico s.count σ.count).card ≤ reported.card := by
    refine Finset.card_le_card_of_injOn (fun m => (σ.nodes m).physicalDeviceObject) (fun m inside => ?_)
      fun a insideA b insideB same => ?_
    · obtain ⟨old, below⟩ := Finset.mem_Ico.mp inside
      exact new m old below
    · have foundA := (shape.device _ a).mpr ⟨(Finset.mem_Ico.mp insideA).2, rfl⟩
      have foundB := (shape.device _ b).mpr ⟨(Finset.mem_Ico.mp insideB).2, same.symm⟩
      exact Option.some.inj (foundA.symm.trans foundB)
  rw [Nat.card_Ico] at short
  rw [walkBound]
  omega

/-- What is left of a walk: nodes to visit, and states of the one that is current. -/
def remaining (s : DeviceTree Device) (reported : Finset Device) (w : WalkState Device) : Nat :=
  (walkBound s reported - (visits w.log).length) * 8 + (7 - (w.tree.nodes w.currentNode).state.stage)

def roundLog (w : WalkState Device) (σ' : DeviceTree Device) (next : Nat) (log visited : List (WalkEvent Device)) :
    List (WalkEvent Device) :=
  w.log ++ [.reference (w.tree.nodes w.currentNode).physicalDeviceObject] ++ log ++
    [.dereference (σ'.nodes next).physicalDeviceObject] ++ visited

omit [DecidableEq Device] in
theorem visits_roundLog (w : WalkState Device) (σ' : DeviceTree Device) (next : Nat)
    (visited : List (WalkEvent Device)) {log : List (WalkEvent Device)} (quiet : visits log = []) :
    visits (roundLog w σ' next log visited) = visits w.log ++ visits visited := by
  have referenced : ∀ d : Device, visits [WalkEvent.reference d] = [] := fun _ => rfl
  have dereferenced : ∀ d : Device, visits [WalkEvent.dereference d] = [] := fun _ => rfl
  rw [roundLog, visits_append, visits_append, visits_append, visits_append, quiet, referenced, dereferenced]
  simp only [append_nil]

theorem walkRound_again {answers : WalkAnswers Device}
    (ends : processNode answers w.tree w.currentNode = some (σ', true, log)) :
    walkRound start answers w = some ⟨σ', w.currentNode, true, roundLog w σ' w.currentNode log []⟩ := by
  rw [walkRound, ends]
  rfl

theorem walkRound_moves {answers : WalkAnswers Device}
    (ends : processNode answers w.tree w.currentNode = some (σ', false, log))
    (moves : nextNode σ' start w.currentNode = some next) (other : next ≠ start) :
    walkRound start answers w = some ⟨σ', next, true, roundLog w σ' next log [.visit next]⟩ := by
  rw [walkRound, ends]
  simp only [Option.bind_eq_bind, Option.bind_some, moves, Bool.false_eq_true, if_false, other, or_self, ne_eq,
    not_false_eq_true, decide_true, Bool.false_or]
  rfl

theorem walkRound_returns {answers : WalkAnswers Device}
    (ends : processNode answers w.tree w.currentNode = some (σ', false, log))
    (moves : nextNode σ' start w.currentNode = some start) :
    walkRound start answers w = some ⟨σ', start, false, roundLog w σ' start log []⟩ := by
  rw [walkRound, ends]
  simp only [Option.bind_eq_bind, Option.bind_some, moves, Bool.false_eq_true, if_false, or_true, if_true, ne_eq,
    not_true_eq_false, decide_false, Bool.or_self]
  rfl

/-- The state of each node tells which requests for it succeeded, in the walk or
before it, and a request that failed in the walk has ended the node. -/
def Fitting (addedBefore startedBefore : Nat → Prop) (w : WalkState Device) : Prop :=
  ∀ n, n < w.tree.count → NodeFits (addedBefore n ∨ AddSucceeded w.log n) (startedBefore n ∨ StartSucceeded w.log n)
    (RequestFailed w.log n) (w.tree.nodes n)

omit [DecidableEq Device] in
theorem mem_roundLog {σ' : DeviceTree Device} {log visited : List (WalkEvent Device)} {event : WalkEvent Device}
    (visiting : ∀ event ∈ visited, event.about = none) (about : event.about = some n) :
    event ∈ roundLog w σ' next log visited ↔ event ∈ w.log ∨ event ∈ log := by
  have notReference : ∀ d : Device, event ≠ .reference d ∧ event ≠ .dereference d := by
    refine fun d => ⟨fun same => ?_, fun same => ?_⟩ <;>
    · rw [same] at about
      cases about
  have notVisited : event ∉ visited := fun member => by
    rw [visiting event member] at about
    cases about
  simp only [roundLog, mem_append, mem_singleton, (notReference _).1, (notReference _).2, notVisited,
    or_false]

/-- A round is one turn of the switch and a move. -/
structure RoundOf (reported : Finset Device) (answers : WalkAnswers Device) (w w' : WalkState Device)
    (children : Nat → List Nat) (again : Bool) (log visited : List (WalkEvent Device)) : Prop where
  effect : RoundEffect reported answers w.tree w'.tree children w.currentNode again log
  log : w'.log = roundLog w w'.tree w'.currentNode log visited
  visiting : ∀ event ∈ visited, event = .visit w'.currentNode
  stays : again = true → w'.currentNode = w.currentNode ∧ w'.running = true

omit [DecidableEq Device] in
theorem RoundOf.nothing {current : Nat} : ∀ event ∈ ([] : List (WalkEvent Device)), event = .visit current :=
  forall_mem_nil _

theorem Fitting.round {answers : WalkAnswers Device} {children : Nat → List Nat}
    {addedBefore startedBefore : Nat → Prop} (fitting : Fitting addedBefore startedBefore w)
    (walking : Walking s start reported w) (round : RoundOf reported answers w w' children again log visited)
    (started : (w.tree.nodes w.currentNode).state = .resourcesAssigned → answers.start.status.isSuccess = true) :
    Fitting addedBefore startedBefore w' := by
  intro n below
  have effect := round.effect
  have visiting : ∀ event ∈ visited, event.about = none := fun event member => by
    rw [round.visiting event member]
    rfl
  have added : AddSucceeded w'.log n ↔ AddSucceeded w.log n ∨ AddSucceeded log n := by
    rw [← addSucceeded_append, round.log]
    refine exists_congr fun status => and_congr_left fun _ => ?_
    rw [mem_roundLog visiting rfl, mem_append]
  have startedHere : StartSucceeded w'.log n ↔ StartSucceeded w.log n ∨ StartSucceeded log n := by
    rw [← startSucceeded_append, round.log]
    refine exists_congr fun status => and_congr_left fun _ => ?_
    rw [mem_roundLog visiting rfl, mem_append]
  have failed : RequestFailed w'.log n ↔ RequestFailed w.log n ∨ RequestFailed log n := by
    rw [← requestFailed_append, round.log]
    refine exists_congr fun status => and_congr_left fun _ => ?_
    rw [mem_roundLog visiting rfl, mem_roundLog visiting rfl, mem_append, mem_append]
  rw [added, startedHere, failed, ← or_assoc, ← or_assoc]
  by_cases old : n < w.tree.count
  · by_cases here : n = w.currentNode
    · subst here
      exact effect.fitsSelf started (fitting _ old)
    · have others : ∀ event ∈ log, event.about ≠ some n := fun event member same =>
        here (effect.about event member n same)
      refine (effect.fitsOther n old here (fitting n old)).mono .inl .inl fun either => either.resolve_right ?_
      rintro ⟨status, member, -⟩
      exact member.elim (fun member => others _ member rfl) fun member => others _ member rfl
  · obtain ⟨-, state⟩ := effect.new n (Nat.le_of_not_lt old) below
    have notBefore : ∀ event ∈ w.log, event.about ≠ some n := fun event member same =>
      old (walking.about event member n same)
    have notNow : ∀ event ∈ log, event.about ≠ some n := fun event member same =>
      old (effect.about event member n same ▸ walking.inside)
    exact {
      added := fun past => by
        rw [state] at past
        cases past
      started := fun past => by
        rw [DeviceNode.isStarted, state] at past
        cases past
      failed := by
        rintro (⟨status, member | member, -⟩ | ⟨status, member | member, -⟩)
        · exact absurd rfl (notBefore _ member)
        · exact absurd rfl (notBefore _ member)
        · exact absurd rfl (notNow _ member)
        · exact absurd rfl (notNow _ member)
      notRaw := (effect.sound n below).notRaw }

/-- A round of a walk, its next invariant, and what becomes less. -/
theorem Walking.round {answers : WalkAnswers Device} (walking : Walking s start reported w)
    (running : w.running = true) (within : ReportsWithin reported answers) (startInside : start < s.count) :
    ∃ w', walkRound start answers w = some w' ∧ Walking s start reported w' ∧
      (w'.running = true → remaining s reported w' < remaining s reported w) ∧
      ∃ children again log visited, RoundOf reported answers w w' children again log visited := by
  obtain ⟨children, shape, listing⟩ := walking.place
  rw [Listing, if_pos running] at listing
  obtain ⟨before, after, position, listed⟩ := listing
  obtain ⟨σ', again, log, ends, effect⟩ := processNode_effect shape walking.sound within walking.inside
  obtain ⟨children', shape', same⟩ := effect.shape
  have new : ∀ m, s.count ≤ m → m < σ'.count → (σ'.nodes m).physicalDeviceObject ∈ reported := fun m old below => by
    by_cases here : m < w.tree.count
    · rw [effect.device m here]
      exact walking.new m old here
    · exact (effect.new m (Nat.le_of_not_lt here) below).1
  have ordered := shape.ordered.mono (count_le_walkBound shape walking.new)
  have ordered' := shape'.ordered.mono (count_le_walkBound shape' new)
  have position' := position.update ordered same
  have below : ∀ {c}, Descends children' start c → ReflTransGen (IsChild σ') start c := fun descends =>
    ReflTransGen.mono (fun p c member => (shape'.parent p c).mp member) _ _ descends
  have inside' := Nat.lt_of_lt_of_le walking.inside effect.grows
  have about : ∀ visited next, (∀ event ∈ visited, event.about = none) →
      ∀ event ∈ roundLog w σ' next log visited, ∀ m, event.about = some m → m < σ'.count :=
    fun visited next visiting event member m about => by
      rcases (mem_roundLog visiting about).mp member with old | now
      · exact Nat.lt_of_lt_of_le (walking.about event old m about) effect.grows
      · rw [effect.about event now m about]
        exact inside'
  have grows := Nat.le_trans walking.grows effect.grows
  have older : ∀ p c, c < s.count → IsChild σ' p c → IsChild s p c := fun p c old child =>
    walking.older p c old (effect.older p c (Nat.lt_of_lt_of_le old walking.grows) child)
  have startBound : start < walkBound s reported := Nat.lt_of_lt_of_le startInside (Nat.le_add_right _ _)
  have count : (visits w.log).length = before.length + 1 := by rw [listed, length_append, length_singleton]
  cases again with
  | true =>
    have quiet := visits_roundLog w σ' w.currentNode [] effect.quiet
    refine ⟨_, walkRound_again ends, ⟨⟨children', shape', ?_⟩, inside', grows, effect.sound, new,
      about [] _ (forall_mem_nil _), below position'.descends,
      fun ended => absurd ended.symm Bool.false_ne_true, older⟩, fun _ => ?_, _, true, log, [], effect, rfl,
      RoundOf.nothing, fun _ => ⟨rfl, rfl⟩⟩
    · rw [Listing, if_pos rfl]
      exact ⟨before, after, position', quiet.trans (by rw [listed]; exact append_nil _)⟩
    · have further := effect.further rfl
      have last := (σ'.nodes w.currentNode).state.stage_le
      rw [remaining, remaining, quiet]
      simp only [visits, filterMap_nil, append_nil]
      omega
  | false =>
    rcases nextNode_eq shape' ordered' position' inside' (effect.sound _ inside').notRemoved with
      ⟨moves, whole⟩ | ⟨next, after', moves, other, onward⟩
    · have quiet := visits_roundLog w σ' start [] effect.quiet
      refine ⟨_, walkRound_returns ends moves, ⟨⟨children', shape', ?_⟩, Nat.lt_of_lt_of_le startInside grows,
        grows, effect.sound, new, about [] _ (forall_mem_nil _), .refl, fun _ => rfl, older⟩,
        fun again => absurd again Bool.false_ne_true,
        _, false, log, [], effect, rfl, RoundOf.nothing, fun again => absurd again Bool.false_ne_true⟩
      rw [Listing, if_neg Bool.false_ne_true, whole, quiet, listed]
      exact append_nil _
    · have quiet := visits_roundLog w σ' next [.visit next] effect.quiet
      have nothing : ∀ event ∈ [WalkEvent.visit next], (event : WalkEvent Device).about = none :=
        fun event member => by rw [mem_singleton.mp member]; rfl
      refine ⟨_, walkRound_moves ends moves other, ⟨⟨children', shape', ?_⟩,
        onward.lt_bound shape'.ordered (Nat.lt_of_lt_of_le startInside grows), grows, effect.sound, new,
        about _ _ nothing, below onward.descends, fun ended => absurd ended.symm Bool.false_ne_true, older⟩,
        fun _ => ?_, _, false, log, [.visit next], effect, rfl, fun event member => mem_singleton.mp member, fun again => absurd again Bool.false_ne_true⟩
      · rw [Listing, if_pos rfl]
        exact ⟨before ++ [w.currentNode], after', onward, quiet.trans (by rw [listed]; rfl)⟩
      · have whole := congrArg length (onward.preorder_eq ordered')
        have short := ordered'.preorder_length_le startBound
        have self := length_pos_of_mem (ordered'.self_mem_preorder next)
        simp only [length_append, length_singleton] at whole
        rw [remaining, remaining, quiet, length_append]
        simp only [visits, filterMap_cons, WalkEvent.visited, filterMap_nil, length_singleton]
          at count ⊢
        omega

/-- Every node below the start once, and no node before its parent. -/
def VisitsTree (σ : DeviceTree Device) (start : Nat) (visited : List Nat) : Prop :=
  visited.Nodup ∧ (∀ n, n ∈ visited ↔ ReflTransGen (IsChild σ) start n) ∧
    ∀ p c, p ∈ visited → IsChild σ p c → ∃ first second, visited = first ++ second ∧ p ∈ first ∧ c ∈ second

omit [DecidableEq Device] in
theorem visitsTree_preorder {σ : DeviceTree Device} {children : Nat → List Nat} {bound : Nat}
    (shape : TreeShape σ children) (ordered : Ordered children bound) :
    VisitsTree σ start (preorder children bound start) := by
  have same : (fun p c => c ∈ children p) = IsChild σ := funext fun p => funext fun c =>
    propext (shape.parent p c)
  refine ⟨ordered.preorder_nodup start, fun n => ?_, fun p c listed child => ?_⟩
  · rw [ordered.mem_preorder, Descends, same]
  · have descends := ordered.mem_preorder.mp listed
    obtain ⟨before, after, position⟩ := @Position.exists_of_descends _ bound _ _ descends
    obtain ⟨whole, later⟩ := position.parent_first ordered ((shape.parent p c).mpr child)
    exact ⟨before ++ [p], _, whole, by simp, later⟩

/-- Every start that the walk asks for succeeds. -/
def StartsSucceed (start : Nat) (answers : Nat → WalkAnswers Device) (s : DeviceTree Device) : Prop :=
  ∀ t w, obioDevNodeStateMachine start answers s t = some w → w.running = true →
    (w.tree.nodes w.currentNode).state = .resourcesAssigned → (answers t).start.status.isSuccess = true

/-- The nodes of the tree at the beginning of a walk, and what earlier walks did. -/
structure WalkStart (s : DeviceTree Device) (start : Nat) (reported : Finset Device)
    (addedBefore startedBefore : Nat → Prop) : Prop where
  tree : TreeSound s
  inside : start < s.count
  sound : ∀ m, m < s.count → NodeSound reported (s.nodes m)
  added : ∀ m, m < s.count → (s.nodes m).state.isAdded = true → addedBefore m
  started : ∀ m, m < s.count → (s.nodes m).isStarted = true → startedBefore m

variable {answers : Nat → WalkAnswers Device} {addedBefore startedBefore : Nat → Prop}

omit [DecidableEq Device] in
theorem WalkStart.walking (begins : WalkStart s start reported addedBefore startedBefore) :
    Walking s start reported ⟨s, start, true, [.visit start]⟩ := by
  obtain ⟨children, shape⟩ := begins.tree
  have about : ∀ event ∈ [WalkEvent.visit start], ∀ m, (event : WalkEvent Device).about = some m → m < s.count :=
    fun event member m about => by
      rw [mem_singleton.mp member] at about
      cases about
  refine ⟨⟨children, shape, ?_⟩, begins.inside, Nat.le_refl _, begins.sound,
    fun m old below => absurd old (Nat.not_le_of_gt below), about, .refl, fun _ => rfl, fun _ _ _ => id⟩
  rw [Listing, if_pos rfl]
  exact ⟨[], [], .root, rfl⟩

omit [DecidableEq Device] in
theorem WalkStart.fitting (begins : WalkStart s start reported addedBefore startedBefore) :
    Fitting addedBefore startedBefore ⟨s, start, true, [.visit start]⟩ := fun n below => {
  added := fun past => .inl (begins.added n below past)
  started := fun past => .inl (begins.started n below past)
  failed := by
    rintro ⟨status, member | member, -⟩
    · cases mem_singleton.mp member
    · cases mem_singleton.mp member
  notRaw := (begins.sound n below).notRaw }

theorem Walking.ends (holds : WalkState Device → Prop) (walking : Walking s start reported w)
    (within : ∀ t, ReportsWithin reported (answers t)) (startInside : start < s.count)
    (reached : obioDevNodeStateMachine start answers s t = some w) (here : holds w)
    (keeps : ∀ t w w' children again log visited, obioDevNodeStateMachine start answers s t = some w →
      w.running = true → Walking s start reported w → Walking s start reported w' →
      RoundOf reported (answers t) w w' children again log visited → holds w → holds w') :
    ∃ T w', obioDevNodeStateMachine start answers s T = some w' ∧ w'.running = false ∧
      Walking s start reported w' ∧ holds w' := by
  induction left : remaining s reported w using Nat.strongRecOn generalizing w t with
  | ind left ih =>
    by_cases running : w.running = true
    · obtain ⟨w', stepped, walking', less, children, again, log, visited, round⟩ :=
        walking.round running (within t) startInside
      have reached' : obioDevNodeStateMachine start answers s (t + 1) = some w' := by
        rw [obioDevNodeStateMachine, reached, Option.bind_some, walkStep, if_pos running, stepped]
      have there := keeps t w w' children again log visited reached running walking walking' round here
      by_cases more : w'.running = true
      · exact ih _ (left ▸ less more) walking' reached' there rfl
      · exact ⟨t + 1, w', reached', eq_false_of_ne_true more, walking', there⟩
    · exact ⟨t, w, reached, eq_false_of_ne_true running, walking, here⟩

end Walks

/-- Every walk ends and has visited the tree that it leaves, each node once and
parents first. Where the starts succeed, a node that is started was added and
started, and one for which a request failed waits for its removal. -/
theorem device_walk {Device : Type} [DecidableEq Device] {s : DeviceTree Device} {start : Nat}
    {reported : Finset Device} {answers : Nat → WalkAnswers Device} {addedBefore startedBefore : Nat → Prop}
    (begins : WalkStart s start reported addedBefore startedBefore)
    (within : ∀ t, ReportsWithin reported (answers t)) :
    ∃ T w, obioDevNodeStateMachine start answers s T = some w ∧ w.running = false ∧ TreeSound w.tree ∧
      VisitsTree w.tree start (visits w.log) ∧
      (StartsSucceed start answers s → ∀ n, n < w.tree.count →
        ((w.tree.nodes n).state = .started →
          (addedBefore n ∨ AddSucceeded w.log n) ∧ (startedBefore n ∨ StartSucceeded w.log n)) ∧
        (RequestFailed w.log n → (w.tree.nodes n).state = .awaitingQueuedRemoval ∧
          (w.tree.nodes n).flags.problem = true)) := by
  have keeps : ∀ t w w' children again log visited, obioDevNodeStateMachine start answers s t = some w →
      w.running = true → Walking s start reported w → Walking s start reported w' →
      RoundOf reported (answers t) w w' children again log visited →
      (StartsSucceed start answers s → Fitting addedBefore startedBefore w) →
      StartsSucceed start answers s → Fitting addedBefore startedBefore w' :=
    fun t w w' children again log visited reached running walking _ round fitting starts =>
      (fitting starts).round walking round (starts t w reached running)
  obtain ⟨T, w, reached, finished, walking, fitting⟩ := begins.walking.ends _ (t := 0) within begins.inside rfl
    (fun _ => begins.fitting) keeps
  obtain ⟨children, shape, listing⟩ := walking.place
  rw [Listing, finished, if_neg Bool.false_ne_true] at listing
  have ordered := shape.ordered.mono (count_le_walkBound shape walking.new)
  refine ⟨T, w, reached, finished, ⟨children, shape⟩, listing ▸ visitsTree_preorder shape ordered,
    fun starts n below => ⟨fun state => ?_, (fitting starts n below).failed⟩⟩
  have added : (w.tree.nodes n).state.isAdded = true := by
    rw [state]
    rfl
  have started : (w.tree.nodes n).isStarted = true := by rw [DeviceNode.isStarted, state]
  exact ⟨(fitting starts n below).added added, (fitting starts n below).started started⟩

/-- The root is started and is to ask its bus. -/
def startedRoot : DeviceTree Nat :=
  rootTree.modify 0 fun node => { node with state := .started, flags := { node.flags with reenumerate := true } }

/-- Every step succeeds, but for the answer to a start. -/
def answersWithStart (status : VeaStatus) : WalkAnswers Nat where
  systemInit := true
  top := id
  addDevice := ⟨0, 0, 0, true, 0, 0, 0, 0, 0, true, some 0⟩
  start := ⟨true, status, status⟩
  relations := answeredRequest
  relationList := some [1]
  creation _ := ⟨true, answeredRequest, answeredRequest, true, answeredRequest, answeredRequest⟩

theorem startedRoot_begins : WalkStart startedRoot 0 {1} (· = 0) (· = 0) where
  tree := by
    obtain ⟨children, shape⟩ := rootTree_sound
    refine ⟨children, (DeviceTree.modify_samePlaces ?_ 0).shape shape⟩
    exact fun _ => rfl
  inside := Nat.one_pos
  sound m below := by
    obtain rfl := Nat.lt_one_iff.mp below
    exact ⟨rfl, DevnodeState.noConfusion, fun _ listed => by cases listed⟩
  added _ below _ := Nat.lt_one_iff.mp below
  started _ below _ := Nat.lt_one_iff.mp below

theorem answersWithStart_within (status : VeaStatus) : ReportsWithin {1} (answersWithStart status) :=
  fun devices listed d member => by
    cases listed
    exact Finset.mem_singleton.mpr (mem_singleton.mp member)

/-- A started root whose bus reports a device that starts. -/
theorem device_walk_sample :
    ∃ T w, obioDevNodeStateMachine 0 (fun _ => answersWithStart 0) startedRoot T = some w ∧ w.running = false ∧
      VisitsTree w.tree 0 (visits w.log) ∧ ∀ n, n < w.tree.count → (w.tree.nodes n).state = .started →
        (n = 0 ∨ AddSucceeded w.log n) ∧ (n = 0 ∨ StartSucceeded w.log n) := by
  obtain ⟨T, w, reached, finished, -, visited, states⟩ :=
    device_walk startedRoot_begins fun _ => answersWithStart_within 0
  have succeed : StartsSucceed 0 (fun _ => answersWithStart 0) startedRoot := fun _ _ _ _ _ =>
    show (0 : VeaStatus).isSuccess = true by decide
  exact ⟨T, w, reached, finished, visited, fun n below => (states succeed n below).1⟩

/-- A device whose start fails is started, and no problem is recorded. -/
theorem failed_start :
    ∃ w, obioDevNodeStateMachine 0 (fun _ => answersWithStart statusUnsuccessful) startedRoot 9 = some w ∧
      w.running = false ∧ .start 1 statusUnsuccessful ∈ w.log ∧ RequestFailed w.log 1 ∧
      (w.tree.nodes 1).state = .started ∧ (w.tree.nodes 1).flags.problem = false := by
  have run : obioDevNodeStateMachine 0 (fun _ => answersWithStart statusUnsuccessful) startedRoot 9 = some _ := rfl
  have asked : .start 1 statusUnsuccessful ∈ (obioDevNodeStateMachine 0
      (fun _ => answersWithStart statusUnsuccessful) startedRoot 9).elim [] WalkState.log := by decide
  exact ⟨_, run, rfl, asked, ⟨statusUnsuccessful, .inr asked, by decide⟩, rfl, rfl⟩

end VeaOS.Pnp

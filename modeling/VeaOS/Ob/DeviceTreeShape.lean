import VeaOS.Foundation.OrderedForest
import VeaOS.Ob.DeviceTree

/-! The links of the device tree describe one ordered tree, whatever the buses
report. What a report changes besides the links it changes node by node. -/
namespace VeaOS.Pnp
open Forest Function List DeviceNode

section Shape
variable {Device : Type}

/-- Links and lists say the same, and a device has at most one node. -/
structure TreeShape (σ : DeviceTree Device) (children : Nat → List Nat) : Prop where
  ordered : Ordered children σ.count
  nonempty : 0 < σ.count
  first : ∀ p, p < σ.count → (σ.nodes p).child = (children p).head?
  last : ∀ p, p < σ.count → (σ.nodes p).lastChild = (children p).getLast?
  sibling : ∀ p left c right, children p = left ++ c :: right → (σ.nodes c).sibling = right.head?
  parent : ∀ p c, c ∈ children p ↔ c < σ.count ∧ (σ.nodes c).parent = some p
  root : (σ.nodes 0).parent = none
  linked : ∀ c, c < σ.count → c ≠ 0 → (σ.nodes c).parent.isSome
  device : ∀ d n, σ.deviceNode d = some n ↔ n < σ.count ∧ (σ.nodes n).physicalDeviceObject = d

def TreeSound (σ : DeviceTree Device) : Prop := ∃ children, TreeShape σ children

namespace DeviceNode

def data (node : DeviceNode Device) : DeviceNode Device :=
  { node with parent := none, sibling := none, child := none, lastChild := none, level := 0 }

theorem fields_of_data {node node' : DeviceNode Device} (same : node'.data = node.data) :
    node'.physicalDeviceObject = node.physicalDeviceObject ∧ node'.state = node.state ∧
    node'.flags = node.flags ∧ node'.capabilityFlags = node.capabilityFlags ∧
    node'.lastStateCompletionStatus = node.lastStateCompletionStatus ∧
    node'.pendingDeviceRelations = node.pendingDeviceRelations := by
  simp only [data, mk.injEq, true_and] at same
  obtain ⟨device, state, -, pending, flags, status, -, capability⟩ := same
  exact ⟨device, state, flags, capability, status, pending⟩

/-- A node's device and its place in the tree. -/
def place (node : DeviceNode Device) : Device × Option Nat × Option Nat × Option Nat × Option Nat :=
  (node.physicalDeviceObject, node.parent, node.sibling, node.child, node.lastChild)

def setState (node : DeviceNode Device) (state : DevnodeState) : DeviceNode Device :=
  if node.state = state then node else { node with state := state, previousState := node.state }

variable (node : DeviceNode Device)

@[simp] theorem setState_place (state : DevnodeState) : (node.setState state).place = node.place := by
  rw [setState]
  split_ifs <;> rfl

@[simp] theorem setState_state (state : DevnodeState) : (node.setState state).state = state := by
  rw [setState]
  split_ifs with same
  · exact same
  · rfl

theorem setState_data (state : DevnodeState) : (node.setState state).data = node.data.setState state := by
  rw [setState, setState]
  have same : node.data.state = node.state := rfl
  rw [same]
  split_ifs <;> rfl

@[simp] theorem setState_physicalDeviceObject (state : DevnodeState) :
    (node.setState state).physicalDeviceObject = node.physicalDeviceObject := by
  rw [setState]
  split_ifs <;> rfl

@[simp] theorem setState_capabilityFlags (state : DevnodeState) :
    (node.setState state).capabilityFlags = node.capabilityFlags := by
  rw [setState]
  split_ifs <;> rfl

@[simp] theorem setState_pendingDeviceRelations (state : DevnodeState) :
    (node.setState state).pendingDeviceRelations = node.pendingDeviceRelations := by
  rw [setState]
  split_ifs <;> rfl

@[simp] theorem setState_lastStateCompletionStatus (state : DevnodeState) :
    (node.setState state).lastStateCompletionStatus = node.lastStateCompletionStatus := by
  rw [setState]
  split_ifs <;> rfl

@[simp] theorem setState_flags (state : DevnodeState) : (node.setState state).flags = node.flags := by
  rw [setState]
  split_ifs <;> rfl

end DeviceNode

/-- Two trees with the same nodes in the same places. -/
structure SamePlaces (σ σ' : DeviceTree Device) : Prop where
  places : ∀ n, (σ'.nodes n).place = (σ.nodes n).place
  count : σ'.count = σ.count
  deviceNode : σ'.deviceNode = σ.deviceNode

namespace SamePlaces

theorem refl (σ : DeviceTree Device) : SamePlaces σ σ := ⟨fun _ => rfl, rfl, rfl⟩

theorem trans (one : SamePlaces σ σ') (two : SamePlaces σ' σ'') : SamePlaces σ σ'' where
  places n := (two.places n).trans (one.places n)
  count := two.count.trans one.count
  deviceNode := two.deviceNode.trans one.deviceNode

theorem symm (same : SamePlaces σ σ') : SamePlaces σ' σ where
  places n := (same.places n).symm
  count := same.count.symm
  deviceNode := same.deviceNode.symm

theorem fields (same : SamePlaces σ σ') (n : Nat) :
    (σ'.nodes n).physicalDeviceObject = (σ.nodes n).physicalDeviceObject ∧
    (σ'.nodes n).parent = (σ.nodes n).parent ∧ (σ'.nodes n).sibling = (σ.nodes n).sibling ∧
    (σ'.nodes n).child = (σ.nodes n).child ∧ (σ'.nodes n).lastChild = (σ.nodes n).lastChild := by
  have place := same.places n
  simp only [DeviceNode.place, Prod.mk.injEq] at place
  exact place

theorem shape (same : SamePlaces σ σ') (shape : TreeShape σ children) : TreeShape σ' children where
  ordered := same.count ▸ shape.ordered
  nonempty := same.count ▸ shape.nonempty
  first p inside := (same.fields p).2.2.2.1.trans (shape.first p (same.count ▸ inside))
  last p inside := (same.fields p).2.2.2.2.trans (shape.last p (same.count ▸ inside))
  sibling p left c right split := (same.fields c).2.2.1.trans (shape.sibling p left c right split)
  parent p c := by rw [same.count, (same.fields c).2.1]; exact shape.parent p c
  root := (same.fields 0).2.1.trans shape.root
  linked c inside other := by rw [(same.fields c).2.1]; exact shape.linked c (same.count ▸ inside) other
  device d n := by rw [same.count, same.deviceNode, (same.fields n).1]; exact shape.device d n

end SamePlaces

namespace DeviceTree
variable {σ : DeviceTree Device} {change : DeviceNode Device → DeviceNode Device}

@[simp] theorem modify_self (n : Nat) : (σ.modify n change).nodes n = change (σ.nodes n) :=
  update_self n _ _

theorem modify_nodes (n : Nat) : (σ.modify n change).nodes = update σ.nodes n (change (σ.nodes n)) := rfl

theorem modify_of_ne (other : m ≠ n) : (σ.modify n change).nodes m = σ.nodes m :=
  update_of_ne other _ _

@[simp] theorem modify_count (n : Nat) : (σ.modify n change).count = σ.count := rfl

@[simp] theorem modify_deviceNode (n : Nat) : (σ.modify n change).deviceNode = σ.deviceNode := rfl

theorem modify_modify {more : DeviceNode Device → DeviceNode Device} (n : Nat) :
    (σ.modify n change).modify n more = σ.modify n fun node => more (change node) := by
  rw [modify, modify, modify]
  simp only [update_self, update_idem]

theorem modify_congr {change' : DeviceNode Device → DeviceNode Device}
    (same : change (σ.nodes n) = change' (σ.nodes n)) : σ.modify n change = σ.modify n change' := by
  rw [modify, modify, same]

theorem modify_unchanged (same : change (σ.nodes n) = σ.nodes n) : σ.modify n change = σ := by
  rw [modify, same, update_eq_self]

theorem modify_samePlaces (keeps : ∀ node, (change node).place = node.place) (n : Nat) :
    SamePlaces σ (σ.modify n change) where
  places m := by
    by_cases here : m = n
    · subst here
      rw [modify_self, keeps]
    · rw [modify_of_ne here]
  count := rfl
  deviceNode := rfl

theorem modify_data (keeps : ∀ node, (change node).data = node.data) (n m : Nat) :
    ((σ.modify n change).nodes m).data = (σ.nodes m).data := by
  by_cases here : m = n
  · subst here
    rw [modify_self, keeps]
  · rw [modify_of_ne here]

theorem obioSetDevNodeState_eq (n : Nat) (state : DevnodeState) :
    σ.obioSetDevNodeState n state = σ.modify n fun node => node.setState state := by
  rw [obioSetDevNodeState]
  split_ifs with same
  · have unchanged : (σ.nodes n).setState state = σ.nodes n := if_pos same
    exact (modify_unchanged unchanged).symm
  · have changed : (σ.nodes n).setState state =
        { σ.nodes n with state := state, previousState := (σ.nodes n).state } := if_neg same
    exact modify_congr changed.symm

theorem obioSetDevNodeState_samePlaces (n : Nat) (state : DevnodeState) :
    SamePlaces σ (σ.obioSetDevNodeState n state) := by
  rw [obioSetDevNodeState_eq]
  exact modify_samePlaces (fun node => node.setState_place state) n

/-- A tree with one more node, which is not linked yet. -/
def grown [DecidableEq Device] (σ : DeviceTree Device) (node : DeviceNode Device) : DeviceTree Device where
  nodes := Function.update σ.nodes σ.count node
  count := σ.count + 1
  deviceNode := Function.update σ.deviceNode node.physicalDeviceObject (some σ.count)

section Insertion
variable [DecidableEq Device] {node : DeviceNode Device} {children : Nat → List Nat}

theorem grown_nodes : (σ.grown node).nodes = update σ.nodes σ.count node := rfl

theorem grown_old (inside : n < σ.count) : (σ.grown node).nodes n = σ.nodes n :=
  update_of_ne (Nat.ne_of_lt inside) _ _

theorem insert_place (shape : TreeShape σ children) (inside : p < σ.count)
    (unlinked : node.child = none ∧ node.lastChild = none) (n : Nat) :
    (((σ.grown node).obioInsertDeviceNode σ.count p).nodes n).place =
      ((if n = σ.count then node else σ.nodes n).physicalDeviceObject,
        if n = σ.count then some p else (σ.nodes n).parent,
        if n = σ.count then none
          else if (children p).getLast? = some n then some σ.count else (σ.nodes n).sibling,
        if n = σ.count then none
          else if n = p ∧ children p = [] then some σ.count else (σ.nodes n).child,
        if n = σ.count then none else if n = p then some σ.count else (σ.nodes n).lastChild) := by
  have parentOther : p ≠ σ.count := Nat.ne_of_lt inside
  rw [obioInsertDeviceNode, modify_of_ne parentOther, grown_old inside, shape.last p inside]
  cases last : (children p).getLast? with
  | none =>
    have empty := getLast?_eq_none_iff.mp last
    simp only [modify_nodes, grown_nodes, update_apply, empty, and_true]
    by_cases new : n = σ.count
    · subst new
      simp [place, parentOther.symm, unlinked]
    · by_cases isParent : n = p
      · subst isParent
        simp [place, new]
      · simp [place, new, isParent]
  | some l =>
    have member : l ∈ children p := mem_of_getLast? last
    have lastOther : l ≠ σ.count := Nat.ne_of_lt (shape.ordered.below p l member)
    have lastLater : l ≠ p := Nat.ne_of_gt (shape.ordered.later p l member)
    have filled : children p ≠ [] := ne_nil_of_mem member
    simp only [modify_nodes, grown_nodes, update_apply, filled, and_false, if_false]
    by_cases new : n = σ.count
    · subst new
      simp [place, parentOther.symm, lastOther.symm, unlinked]
    · by_cases isParent : n = p
      · subst isParent
        simp [place, new, lastLater, lastLater.symm]
      · by_cases isLast : n = l
        · subst isLast
          simp [place, new, isParent]
        · simp [place, new, isParent, isLast, Ne.symm isLast]

omit [DecidableEq Device] in
theorem insert_count (σ : DeviceTree Device) (new p : Nat) : (σ.obioInsertDeviceNode new p).count = σ.count := by
  rw [obioInsertDeviceNode]
  cases (((σ.modify new _).nodes p).lastChild) <;> rfl

omit [DecidableEq Device] in
theorem insert_deviceNode (σ : DeviceTree Device) (new p : Nat) :
    (σ.obioInsertDeviceNode new p).deviceNode = σ.deviceNode := by
  rw [obioInsertDeviceNode]
  cases ((σ.modify new fun node => { node with parent := some p, sibling := none }).nodes p).lastChild <;> rfl

/-- A new node at the end of a list of children keeps the tree. -/
theorem insert_shape (shape : TreeShape σ children) (inside : p < σ.count)
    (unlinked : node.child = none ∧ node.lastChild = none)
    (missing : σ.deviceNode node.physicalDeviceObject = none) :
    TreeShape ((σ.grown node).obioInsertDeviceNode σ.count p)
      (update children p (children p ++ [σ.count])) := by
  have counts : ((σ.grown node).obioInsertDeviceNode σ.count p).count = σ.count + 1 := insert_count _ _ _
  have devices : ((σ.grown node).obioInsertDeviceNode σ.count p).deviceNode =
      update σ.deviceNode node.physicalDeviceObject (some σ.count) := by
    rw [obioInsertDeviceNode]
    cases ((((σ.grown node).modify σ.count _).nodes p).lastChild) <;> rfl
  have fields := fun n => insert_place shape inside unlinked n
  simp only [place, Prod.mk.injEq] at fields
  have other := Nat.ne_of_lt shape.nonempty
  have parentOther := Nat.ne_of_lt inside
  have leaf : children σ.count = [] := shape.ordered.leaf (by omega)
  exact {
    ordered := by rw [counts]; exact shape.ordered.append inside
    nonempty := by rw [counts]; exact Nat.succ_pos _
    first := fun q below => by
      rw [counts] at below
      rw [(fields q).2.2.2.1]
      by_cases new : q = σ.count
      · rw [if_pos new, new, update_of_ne parentOther.symm, leaf, head?_nil]
      · rw [if_neg new]
        by_cases isParent : q = p
        · subst isParent
          rw [update_self, head?_append, ← shape.first q inside]
          cases first : (σ.nodes q).child with
          | none =>
            have empty := head?_eq_none_iff.mp ((shape.first q inside).symm.trans first)
            rw [if_pos ⟨rfl, empty⟩]
            rfl
          | some c =>
            have filled : children q ≠ [] := fun empty => by
              rw [shape.first q inside, empty] at first
              cases first
            rw [if_neg fun both => filled both.2]
            rfl
        · rw [if_neg fun both => isParent both.1, update_of_ne isParent]
          exact shape.first q (by omega)
    last := fun q below => by
      rw [counts] at below
      rw [(fields q).2.2.2.2]
      by_cases new : q = σ.count
      · rw [if_pos new, new, update_of_ne parentOther.symm, leaf, getLast?_nil]
      · rw [if_neg new]
        by_cases isParent : q = p
        · rw [if_pos isParent, isParent, update_self, getLast?_concat]
        · rw [if_neg isParent, update_of_ne isParent]
          exact shape.last q (by omega)
    sibling := fun q left c right split => by
      rw [(fields c).2.2.1]
      by_cases isParent : q = p
      · subst isParent
        rw [update_self] at split
        rcases eq_nil_or_concat right with rfl | ⟨rest, b, rfl⟩
        · obtain ⟨-, rfl⟩ := append_inj' split rfl |>.imp id singleton_inj.mp
          rw [if_pos rfl, head?_nil]
        · rw [concat_eq_append, ← cons_append, ← append_assoc] at split
          obtain ⟨old, new⟩ := append_inj' split rfl
          obtain rfl := singleton_inj.mp new
          have member : c ∈ children q := by rw [old]; simp
          rw [if_neg (Nat.ne_of_lt (shape.ordered.below q c member)), old]
          cases rest with
          | nil => rw [getLast?_concat, if_pos rfl]; rfl
          | cons d rest =>
            have notLast : (left ++ c :: d :: rest).getLast? ≠ some c := fun isLast => by
              have once := shape.ordered.once q
              rw [old] at once
              have behind : c ∉ d :: rest := (nodup_cons.mp (nodup_append.mp once).2.1).1
              rw [getLast?_append_cons, getLast?_cons_cons] at isLast
              exact behind (mem_of_getLast? isLast)
            rw [if_neg notLast]
            exact (shape.sibling q left c (d :: rest) old).trans rfl
      · rw [update_of_ne isParent] at split
        have member : c ∈ children q := by rw [split]; simp
        have notLast : (children p).getLast? ≠ some c := fun isLast =>
          isParent (shape.ordered.single q p c member (mem_of_getLast? isLast))
        rw [if_neg (Nat.ne_of_lt (shape.ordered.below q c member)), if_neg notLast]
        exact shape.sibling q left c right split
    parent := fun q c => by
      rw [counts, (fields c).2.1, Ordered.mem_append, shape.parent]
      by_cases new : c = σ.count
      · subst new
        rw [if_pos rfl]
        simp [eq_comm]
      · rw [if_neg new]
        simp only [new, and_false, or_false]
        exact and_congr_left fun _ => by omega
    root := by rw [(fields 0).2.1, if_neg other]; exact shape.root
    linked := fun c below notRoot => by
      rw [counts] at below
      rw [(fields c).2.1]
      split_ifs with new
      · rfl
      · exact shape.linked c (by omega) notRoot
    device := fun d n => by
      rw [counts, devices, (fields n).1]
      by_cases isNew : d = node.physicalDeviceObject
      · subst isNew
        rw [update_self, Option.some_inj]
        constructor
        · rintro rfl
          exact ⟨Nat.lt_succ_self _, by rw [if_pos rfl]⟩
        · rintro ⟨below, same⟩
          by_contra old
          rw [if_neg fun here => old here.symm] at same
          have found := (shape.device _ n).mpr ⟨by omega, same⟩
          rw [missing] at found
          cases found
      · rw [update_of_ne isNew, shape.device]
        by_cases new : n = σ.count
        · subst new
          rw [if_pos rfl]
          exact iff_of_false (fun both => Nat.lt_irrefl _ both.1) fun both => isNew both.2.symm
        · rw [if_neg new]
          exact and_congr_left fun _ => by omega }

omit [DecidableEq Device] in
theorem addChild_samePlaces (σ : DeviceTree Device) (other : p ≠ c) :
    SamePlaces (σ.obioInsertDeviceNode c p) (σ.obioAddDeviceNodeChild (some p) (some c)).1 := by
  rw [obioInsertDeviceNode, obioAddDeviceNodeChild, if_neg other]
  have level : ∀ (σ : DeviceTree Device) level,
      SamePlaces σ (σ.modify c fun node => { node with level := level }) := fun σ level => by
    refine modify_samePlaces (fun node => ?_) c
    rfl
  cases last : ((σ.modify c fun node => { node with parent := some p, sibling := none }).nodes p).lastChild with
  | none =>
    simp only [last, modify_modify]
    exact (level _ _).symm
  | some lastChild =>
    simp only [last]
    exact (level _ _).symm

/-- A device that is linked without a level keeps the tree too. -/
theorem addChild_sound (shape : TreeShape σ children) (inside : p < σ.count)
    (unlinked : node.child = none ∧ node.lastChild = none)
    (missing : σ.deviceNode node.physicalDeviceObject = none) :
    TreeSound ((σ.grown node).obioAddDeviceNodeChild (some p) (some σ.count)).1 :=
  ⟨_, (addChild_samePlaces _ (Nat.ne_of_lt inside)).shape (insert_shape shape inside unlinked missing)⟩

omit [DecidableEq Device] in
theorem insert_data (σ : DeviceTree Device) (new p n : Nat) :
    ((σ.obioInsertDeviceNode new p).nodes n).data = (σ.nodes n).data := by
  rw [obioInsertDeviceNode]
  generalize (((σ.modify new fun node => { node with parent := some p, sibling := none }).nodes p).lastChild) = last
  cases last with
  | none =>
    rw [modify_data, modify_data, modify_data]
    all_goals exact fun _ => rfl
  | some lastChild =>
    rw [modify_data, modify_data, modify_data, modify_data]
    all_goals exact fun _ => rfl

end Insertion

end DeviceTree
end Shape
end VeaOS.Pnp

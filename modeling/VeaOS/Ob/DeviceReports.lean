import VeaOS.Ob.DeviceTreeShape

/-! Reports of the buses. Each device of a report ends with a node that is marked
as enumerated, and afterwards the children without the mark are gone. -/
namespace VeaOS.Pnp
open Forest Transition DeviceNode

section Loops
variable {Device : Type} {σ : DeviceTree Device} {children : Nat → List Nat}

theorem TreeShape.siblingsFrom_eq (shape : TreeShape σ children) (split : children p = left ++ right)
    (enough : right.length ≤ fuel) : σ.siblingsFrom fuel right.head? = some right := by
  induction right generalizing left fuel with
  | nil => cases fuel <;> rfl
  | cons c rest ih =>
    cases fuel with
    | zero => cases enough
    | succ fuel =>
      have later : σ.siblingsFrom fuel rest.head? = some rest :=
        ih (split.trans (List.append_cons left c rest)) (Nat.le_of_succ_le_succ enough)
      rw [List.head?_cons, DeviceTree.siblingsFrom, shape.sibling p left c rest split, later]
      rfl

theorem TreeShape.childList_eq (shape : TreeShape σ children) (inside : p < σ.count) :
    σ.childList p = some (children p) := by
  have within : children p ⊆ List.range σ.count := fun c member =>
    List.mem_range.mpr (shape.ordered.below p c member)
  have short := (List.subperm_of_subset (shape.ordered.once p) within).length_le
  rw [List.length_range] at short
  rw [DeviceTree.childList, shape.first p inside]
  exact shape.siblingsFrom_eq (List.nil_append (children p)).symm short

theorem foldl_modify_nodes {change : DeviceNode Device → DeviceNode Device} {nodes : List Nat}
    (once : nodes.Nodup) (n : Nat) :
    (nodes.foldl (fun σ c => σ.modify c change) σ).nodes n =
      if n ∈ nodes then change (σ.nodes n) else σ.nodes n := by
  induction nodes generalizing σ with
  | nil => rw [if_neg List.not_mem_nil, List.foldl_nil]
  | cons c rest ih =>
    obtain ⟨apart, once⟩ := List.nodup_cons.mp once
    rw [List.foldl_cons, ih once]
    by_cases here : n = c
    · subst here
      rw [if_neg apart, if_pos List.mem_cons_self, DeviceTree.modify_self]
    · simp only [List.mem_cons, here, false_or, DeviceTree.modify_of_ne here]

theorem foldl_modify_samePlaces {change : DeviceNode Device → DeviceNode Device}
    (keeps : ∀ node, (change node).place = node.place) (nodes : List Nat) :
    SamePlaces σ (nodes.foldl (fun σ c => σ.modify c change) σ) := by
  induction nodes generalizing σ with
  | nil => exact .refl σ
  | cons c rest ih => exact (DeviceTree.modify_samePlaces keeps c).trans ih

/-- A child that was not reported and is not gone yet. -/
def DeviceNode.markedGone (node : DeviceNode Device) : DeviceNode Device :=
  if !node.flags.enumerated && !node.flags.deviceGone then
    { node with flags := { node.flags with deviceGone := true } }.setState .awaitingQueuedRemoval
  else
    node

theorem DeviceNode.markedGone_place (node : DeviceNode Device) : node.markedGone.place = node.place := by
  rw [markedGone]
  split_ifs
  · rw [setState_place]
    rfl
  · rfl

theorem DeviceNode.markedGone_gone (node : DeviceNode Device) :
    node.markedGone.flags.deviceGone = (node.flags.deviceGone || !node.flags.enumerated) := by
  rw [markedGone]
  cases enumerated : node.flags.enumerated <;> cases gone : node.flags.deviceGone <;> simp [enumerated, gone]

theorem DeviceNode.markedGone_pending (node : DeviceNode Device) :
    node.markedGone.pendingDeviceRelations = node.pendingDeviceRelations := by
  rw [markedGone]
  split_ifs
  · rw [setState_pendingDeviceRelations]
  · rfl

theorem DeviceNode.markedGone_data (node : DeviceNode Device) : node.markedGone.data = node.data.markedGone := by
  rw [markedGone, markedGone]
  have flags : node.data.flags = node.flags := rfl
  rw [flags]
  split_ifs
  · exact setState_data _ _
  · rfl

theorem DeviceNode.markedGone_reported (node : DeviceNode Device) (reported : node.flags.enumerated = true) :
    node.markedGone = node := by
  rw [markedGone, reported]
  exact if_neg Bool.false_ne_true

theorem markGone_eq (σ : DeviceTree Device) (c : Nat) : markGone σ c = σ.modify c markedGone := by
  rw [markGone]
  split_ifs with unreported
  · rw [DeviceTree.obioSetDevNodeState_eq, DeviceTree.modify_modify]
    have marked : (σ.nodes c).markedGone = _ := if_pos unreported
    exact DeviceTree.modify_congr marked.symm
  · have unmarked : (σ.nodes c).markedGone = σ.nodes c := if_neg unreported
    exact (DeviceTree.modify_unchanged unmarked).symm

end Loops

section Entries
variable {Device : Type} [DecidableEq Device] {σ σ' σ'' : DeviceTree Device} {children : Nat → List Nat}

def DeviceNode.reported (node : DeviceNode Device) (devices : List Device) : DeviceNode Device :=
  { node with flags := { node.flags with
      enumerated := node.flags.enumerated || decide (node.physicalDeviceObject ∈ devices) } }

structure Discovered (node : DeviceNode Device) (devices : List Device) : Prop where
  device : node.physicalDeviceObject ∈ devices
  state : node.state = .initialized
  enumerated : node.flags.enumerated = true
  reenumerate : node.flags.reenumerate = true
  notGone : node.flags.deviceGone = false
  noProblem : node.flags.problem = false
  capabilityFlags : node.capabilityFlags = 0
  pending : node.pendingDeviceRelations = none

theorem DeviceNode.reported_data (node : DeviceNode Device) (devices : List Device) :
    (node.reported devices).data = node.data.reported devices := rfl

theorem DeviceNode.reported_cons (node : DeviceNode Device) (d : Device) (rest : List Device) :
    (node.reported [d]).reported rest = node.reported (d :: rest) := by
  simp [reported, Bool.or_assoc]

namespace Discovered
variable {node node' : DeviceNode Device} {d : Device} {rest : List Device}

omit [DecidableEq Device] in
theorem weaken (discovered : Discovered node rest) : Discovered node (d :: rest) :=
  { discovered with device := List.mem_cons_of_mem d discovered.device }

theorem later (discovered : Discovered node [d]) (same : node'.data = (node.reported rest).data) :
    Discovered node' (d :: rest) := by
  obtain ⟨device, state, flags, capability, -, pending⟩ := fields_of_data same
  exact {
    device := by
      rw [device, reported, List.mem_singleton.mp discovered.device]
      exact List.mem_cons_self
    state := state.trans discovered.state
    enumerated := by rw [flags, reported, discovered.enumerated, Bool.true_or]
    reenumerate := by rw [flags]; exact discovered.reenumerate
    notGone := by rw [flags]; exact discovered.notGone
    noProblem := by rw [flags]; exact discovered.noProblem
    capabilityFlags := capability.trans discovered.capabilityFlags
    pending := pending.trans discovered.pending }

end Discovered

/-- The part of a tree that a list of reported devices changes. -/
structure Entered (σ σ' : DeviceTree Device) (p : Nat) (children : Nat → List Nat) (devices : List Device) :
    Prop where
  shape : ∃ added, (∀ n ∈ added, σ.count ≤ n) ∧ TreeShape σ' (Function.update children p (children p ++ added))
  count : σ.count ≤ σ'.count
  old : ∀ n, n < σ.count → (σ'.nodes n).data = ((σ.nodes n).reported devices).data
  new : ∀ n, σ.count ≤ n → n < σ'.count → Discovered (σ'.nodes n) devices

namespace Entered

theorem nil (shape : TreeShape σ children) (p : Nat) : Entered σ σ p children [] where
  shape := ⟨[], List.forall_mem_nil _, by rwa [List.append_nil, Function.update_eq_self]⟩
  count := Nat.le_refl _
  old n _ := by simp [reported]
  new n old below := absurd old (Nat.not_le_of_gt below)

theorem known (shape : TreeShape σ children) (p : Nat) (found : σ.deviceNode d = some c) :
    Entered σ (σ.modify c fun node => { node with flags := { node.flags with enumerated := true } }) p children
      [d] where
  shape := ⟨[], List.forall_mem_nil _, by
    rw [List.append_nil, Function.update_eq_self]
    refine (DeviceTree.modify_samePlaces ?_ c).shape shape
    exact fun _ => rfl⟩
  count := Nat.le_refl _
  old n inside := by
    by_cases here : n = c
    · subst here
      have device := ((shape.device d n).mp found).2
      simp [reported, data, device]
    · have other : (σ.nodes n).physicalDeviceObject ≠ d := fun same => here <| Option.some.inj <|
        ((shape.device d n).mpr ⟨inside, same⟩).symm.trans found
      rw [DeviceTree.modify_of_ne here]
      simp [reported, other]
  new n old below := absurd old (Nat.not_le_of_gt below)

theorem skipped (shape : TreeShape σ children) (p : Nat) (missing : σ.deviceNode d = none) :
    Entered σ σ p children [d] where
  shape := ⟨[], List.forall_mem_nil _, by rwa [List.append_nil, Function.update_eq_self]⟩
  count := Nat.le_refl _
  old n inside := by
    have other : (σ.nodes n).physicalDeviceObject ≠ d := fun same => by
      rw [(shape.device d n).mpr ⟨inside, same⟩] at missing
      cases missing
    simp [reported, other]
  new n old below := absurd old (Nat.not_le_of_gt below)

def firstNode (d : Device) (boot : Bool) : DeviceNode Device :=
  { zeroNode d with flags := ⟨false, false, false, false, boot⟩ }

theorem made (shape : TreeShape σ children) (inside : p < σ.count) (missing : σ.deviceNode d = none)
    (boot : Bool) :
    Entered σ ((((σ.grown (firstNode d boot)).obioInsertDeviceNode σ.count p).obioSetDevNodeState σ.count
      .initialized).modify σ.count fun node =>
        { node with flags := { node.flags with reenumerate := true, enumerated := true } }) p children [d] := by
  rw [DeviceTree.obioSetDevNodeState_eq, DeviceTree.modify_modify]
  have inserted : TreeShape ((σ.grown (firstNode d boot)).obioInsertDeviceNode σ.count p)
      (Function.update children p (children p ++ [σ.count])) :=
    DeviceTree.insert_shape shape inside ⟨rfl, rfl⟩ missing
  have data := DeviceTree.insert_data (σ.grown (firstNode d boot)) σ.count p
  have counts : ((σ.grown (firstNode d boot)).obioInsertDeviceNode σ.count p).count = σ.count + 1 :=
    DeviceTree.insert_count _ _ _
  generalize (σ.grown (firstNode d boot)).obioInsertDeviceNode σ.count p = τ at inserted data counts ⊢
  exact {
    shape := by
      refine ⟨[σ.count], fun n new => ?_, (DeviceTree.modify_samePlaces ?_ σ.count).shape inserted⟩
      · exact Nat.le_of_eq (List.mem_singleton.mp new).symm
      · exact fun node => (DeviceNode.setState_place node .initialized :)
    count := by rw [DeviceTree.modify_count, counts]; exact Nat.le_succ _
    old := fun n below => by
      have other : (σ.nodes n).physicalDeviceObject ≠ d := fun same => by
        rw [(shape.device d n).mpr ⟨below, same⟩] at missing
        cases missing
      rw [DeviceTree.modify_of_ne (Nat.ne_of_lt below), data, DeviceTree.grown_old below]
      simp [DeviceNode.reported, other]
    new := fun n old below => by
      rw [DeviceTree.modify_count, counts] at below
      obtain rfl : n = σ.count := by omega
      have here : (τ.nodes σ.count).data = (firstNode d boot).data :=
        (data σ.count).trans (congrArg DeviceNode.data (Function.update_self _ _ _))
      obtain ⟨device, -, flags, capability, -, pending⟩ := DeviceNode.fields_of_data here
      rw [DeviceTree.modify_self]
      constructor <;> simp [device, flags, capability, pending, firstNode, zeroNode] }

theorem trans (one : Entered σ σ' p children [d])
    (two : ∀ children', TreeShape σ' children' → Entered σ' σ'' p children' rest) :
    Entered σ σ'' p children (d :: rest) := by
  obtain ⟨added, new, shape⟩ := one.shape
  have more := two _ shape
  exact {
    shape := by
      obtain ⟨addedMore, newer, shape'⟩ := more.shape
      rw [Function.update_self, Function.update_idem, List.append_assoc] at shape'
      refine ⟨added ++ addedMore, fun n member => ?_, shape'⟩
      rcases List.mem_append.mp member with first | second
      · exact new n first
      · exact Nat.le_trans one.count (newer n second)
    count := Nat.le_trans one.count more.count
    old := fun n inside => by
      rw [more.old n (Nat.lt_of_lt_of_le inside one.count), reported_data, one.old n inside,
        ← reported_data, reported_cons]
    new := fun n old below => by
      by_cases first : n < σ'.count
      · exact (one.new n old first).later (more.old n first)
      · exact (more.new n (Nat.le_of_not_lt first) below).weaken }

end Entered

theorem enumerateEntry_entered (shape : TreeShape σ children) (inside : p < σ.count) (top : Device → Device)
    (answers : CreationAnswers) (d : Device) :
    Entered σ (enumerateEntry top answers p σ d).1 p children [d] := by
  rw [enumerateEntry]
  cases found : σ.deviceNode d with
  | some c => exact .known shape p found
  | none =>
    rw [obioAllocateZeroDeviceNode, obioCreateDeviceNode]
    cases answers.pool with
    | false => exact .skipped shape p found
    | true =>
      by_cases succeeds : answers.instancePath.1.isSuccess = true
      · simp only [succeeds, Bool.not_true, Bool.false_eq_true, if_false]
        exact .made shape inside found answers.resources.status.isSuccess
      · simp only [succeeds, Bool.not_true, Bool.not_false, Bool.false_eq_true, if_false, if_true]
        exact .skipped shape p found

theorem enumerateEntries_entered (shape : TreeShape σ children) (inside : p < σ.count) (top : Device → Device)
    (creation : Nat → CreationAnswers) (i : Nat) (devices : List Device) :
    Entered σ (enumerateEntries top creation p i σ devices).1 p children devices := by
  induction devices generalizing σ children i with
  | nil => exact .nil shape p
  | cons d rest ih =>
    have one := enumerateEntry_entered shape inside top (creation i) d
    exact one.trans fun children' shape' => ih shape' (Nat.lt_of_lt_of_le inside one.count) (i + 1)

def DeviceNode.cleared (node : DeviceNode Device) : DeviceNode Device :=
  { node with flags := { node.flags with enumerated := false } }

/-- The tree after a report that was processed. -/
structure Enumerated (σ σ' : DeviceTree Device) (p : Nat) (children : Nat → List Nat) (devices : List Device) :
    Prop where
  shape : ∃ added, (∀ n ∈ added, σ.count ≤ n) ∧ TreeShape σ' (Function.update children p (children p ++ added))
  count : σ.count ≤ σ'.count
  self : (σ'.nodes p).data =
    (({ σ.nodes p with pendingDeviceRelations := none }.reported devices).setState .started).data
  child : ∀ c, c ∈ children p → (σ'.nodes c).data = ((σ.nodes c).cleared.reported devices).markedGone.data
  other : ∀ n, n < σ.count → n ≠ p → n ∉ children p → (σ'.nodes n).data = ((σ.nodes n).reported devices).data
  new : ∀ n, σ.count ≤ n → n < σ'.count → Discovered (σ'.nodes n) devices

def beforeEntries (σ : DeviceTree Device) (p : Nat) (children : List Nat) : DeviceTree Device :=
  children.foldl (fun σ c => σ.modify c DeviceNode.cleared)
    (σ.modify p fun node => { node with pendingDeviceRelations := none })

omit [DecidableEq Device] in
theorem beforeEntries_samePlaces (σ : DeviceTree Device) (p : Nat) (children : List Nat) :
    SamePlaces σ (beforeEntries σ p children) := by
  refine (DeviceTree.modify_samePlaces ?_ p).trans (foldl_modify_samePlaces ?_ children)
  · exact fun _ => rfl
  · exact fun _ => rfl

omit [DecidableEq Device] in
theorem beforeEntries_nodes (once : nodes.Nodup) (n : Nat) :
    (beforeEntries σ p nodes).nodes n =
      if n ∈ nodes then ((σ.modify p fun node => { node with pendingDeviceRelations := none }).nodes n).cleared
      else (σ.modify p fun node => { node with pendingDeviceRelations := none }).nodes n :=
  foldl_modify_nodes once n

theorem enumerate_eq (shape : TreeShape σ children) (inside : p < σ.count) (top : Device → Device)
    (creation : Nat → CreationAnswers) (succeeds : (σ.nodes p).lastStateCompletionStatus.isSuccess = true)
    (reports : (σ.nodes p).pendingDeviceRelations = some devices)
    (entries : enumerateEntries top creation p 0 (beforeEntries σ p (children p)) devices = (τ, log))
    (found : τ.childList p = some nodes) :
    obioEnumerateDeviceNode top creation σ p =
      some ((nodes.foldl (fun σ c => σ.modify c markedGone) τ).modify p fun node =>
        node.setState .started, statusSuccess, log) := by
  have pending : SamePlaces σ (σ.modify p fun node => { node with pendingDeviceRelations := none }) := by
    refine DeviceTree.modify_samePlaces ?_ p
    exact fun _ => rfl
  have clears := (pending.shape shape).childList_eq (p := p) inside
  have marks : (markGone : DeviceTree Device → Nat → DeviceTree Device) =
      fun σ c => σ.modify c markedGone := funext fun σ => funext fun c => markGone_eq σ c
  rw [obioEnumerateDeviceNode]
  simp only [succeeds, reports, Bool.not_true, Bool.false_eq_true, if_false, Option.bind_eq_bind]
  rw [clears, Option.bind_some]
  have entries : enumerateEntries top creation p 0 ((children p).foldl clearEnumerated
    (σ.modify p fun node => { node with pendingDeviceRelations := none })) devices = (τ, log) := entries
  rw [entries]
  simp only [found, Option.bind_some, DeviceTree.obioSetDevNodeState_eq, marks]

theorem enumerate_processed (shape : TreeShape σ children) (inside : p < σ.count) (top : Device → Device)
    (creation : Nat → CreationAnswers) (succeeds : (σ.nodes p).lastStateCompletionStatus.isSuccess = true)
    (reports : (σ.nodes p).pendingDeviceRelations = some devices) :
    ∃ σ' log, obioEnumerateDeviceNode top creation σ p = some (σ', statusSuccess, log) ∧
      log = (enumerateEntries top creation p 0 (beforeEntries σ p (children p)) devices).2 ∧
      σ'.deviceNode = (enumerateEntries top creation p 0 (beforeEntries σ p (children p)) devices).1.deviceNode ∧
      Enumerated σ σ' p children devices := by
  have before := beforeEntries_samePlaces σ p (children p)
  have shapeBefore := before.shape shape
  have entered := enumerateEntries_entered shapeBefore (before.count ▸ inside) top creation 0 devices
  cases entries : enumerateEntries top creation p 0 (beforeEntries σ p (children p)) devices with
  | mk τ log =>
    rw [entries] at entered
    obtain ⟨added, newer, shapeAfter⟩ := entered.shape
    have insideAfter : p < τ.count := Nat.lt_of_lt_of_le inside (before.count ▸ entered.count)
    have found := shapeAfter.childList_eq insideAfter
    have once := shapeAfter.ordered.once p
    rw [Function.update_self] at found once
    refine ⟨_, log, enumerate_eq shape inside top creation succeeds reports entries found, rfl, ?_⟩
    rw [DeviceTree.modify_deviceNode]
    have marked : ∀ n, ((children p ++ added).foldl (fun σ c => σ.modify c markedGone) τ).nodes n =
        if n ∈ children p ++ added then (τ.nodes n).markedGone else τ.nodes n := foldl_modify_nodes once
    have gone : SamePlaces τ ((children p ++ added).foldl (fun σ c => σ.modify c markedGone) τ) :=
      foldl_modify_samePlaces markedGone_place _
    generalize (children p ++ added).foldl (fun σ c => σ.modify c markedGone) τ = υ at marked gone ⊢
    refine ⟨gone.deviceNode, ?_⟩
    have newer : ∀ n ∈ added, σ.count ≤ n := fun n member => before.count ▸ newer n member
    have apart : p ∉ children p ++ added := fun member => by
      rcases List.mem_append.mp member with old | new
      · exact Nat.lt_irrefl p (shape.ordered.later p p old)
      · exact absurd (newer p new) (Nat.not_le_of_gt inside)
    have beforeNode := fun n => beforeEntries_nodes (σ := σ) (p := p) (shape.ordered.once p) n
    have afterNode : ∀ n, n < σ.count → (τ.nodes n).data =
        (((beforeEntries σ p (children p)).nodes n).reported devices).data := fun n below =>
      entered.old n (before.count.symm ▸ below)
    exact {
      shape := by
        refine ⟨added, newer, (gone.trans (DeviceTree.modify_samePlaces ?_ p)).shape shapeAfter⟩
        exact fun node => node.setState_place .started
      count := by
        rw [DeviceTree.modify_count, gone.count, ← before.count]
        exact entered.count
      self := by
        have notChild : p ∉ children p := fun member => apart (List.mem_append_left _ member)
        rw [DeviceTree.modify_self, marked, if_neg apart, setState_data, afterNode p inside,
          beforeNode, if_neg notChild, DeviceTree.modify_self, ← setState_data]
      child := fun c member => by
        have other : c ≠ p := Nat.ne_of_gt (shape.ordered.later p c member)
        rw [DeviceTree.modify_of_ne other, marked, if_pos (List.mem_append_left _ member),
          markedGone_data, afterNode c (shape.ordered.below p c member), beforeNode, if_pos member,
          DeviceTree.modify_of_ne other, ← markedGone_data]
      other := fun n below other notChild => by
        have notAdded : n ∉ added := fun member => absurd (newer n member) (Nat.not_le_of_gt below)
        rw [DeviceTree.modify_of_ne other, marked, if_neg (List.mem_append.not.mpr (not_or.mpr ⟨notChild, notAdded⟩)),
          afterNode n below, beforeNode, if_neg notChild, DeviceTree.modify_of_ne other]
      new := fun n old below => by
        rw [DeviceTree.modify_count, gone.count] at below
        have discovered := entered.new n (before.count.symm ▸ old) below
        have other : n ≠ p := Nat.ne_of_gt (Nat.lt_of_lt_of_le inside old)
        rw [DeviceTree.modify_of_ne other, marked, markedGone_reported _ discovered.enumerated, ite_self]
        exact discovered }

theorem enumerate_unprocessed (top : Device → Device) (creation : Nat → CreationAnswers)
    (nothing : (σ.nodes p).lastStateCompletionStatus.isSuccess = true → (σ.nodes p).pendingDeviceRelations = none) :
    ∃ status, obioEnumerateDeviceNode top creation σ p =
      some (σ.modify p fun node => { node with pendingDeviceRelations := none }.setState .started, status,
        ((σ.nodes p).pendingDeviceRelations.getD []).map .dereference) := by
  rw [obioEnumerateDeviceNode]
  by_cases succeeds : (σ.nodes p).lastStateCompletionStatus.isSuccess = true
  · simp only [succeeds, nothing succeeds, Bool.not_true, Bool.false_eq_true, if_false,
      DeviceTree.obioSetDevNodeState_eq, DeviceTree.modify_modify]
    exact ⟨_, rfl⟩
  · simp only [succeeds, Bool.not_false, if_true, DeviceTree.obioSetDevNodeState_eq, DeviceTree.modify_modify]
    exact ⟨_, rfl⟩

end Entries

section Reports
variable {Device : Type} [DecidableEq Device] {σ σ' : DeviceTree Device} {top : Device → Device}

/-- What a bus answers about the devices below a node. -/
structure BusReport (Device : Type) where
  node : Nat
  status : VeaStatus
  relations : Option (List Device)
  creation : Nat → CreationAnswers

def DeviceTree.answered (σ : DeviceTree Device) (r : BusReport Device) : DeviceTree Device :=
  σ.modify r.node fun node =>
    { node with pendingDeviceRelations := r.relations, lastStateCompletionStatus := r.status }

def reportStep (top : Device → Device) (σ : DeviceTree Device) (r : BusReport Device) :
    Option (DeviceTree Device) :=
  if r.node < σ.count then
    (obioEnumerateDeviceNode top r.creation (σ.answered r) r.node).map Prod.fst
  else
    none

def IsChild (σ : DeviceTree Device) (p c : Nat) : Prop := c < σ.count ∧ (σ.nodes c).parent = some p

/-- A report without a list is one without devices. -/
def GoneExact (σ : DeviceTree Device) (r : BusReport Device) : Prop :=
  r.status.isSuccess = true → ∀ c, IsChild σ r.node c →
    ((σ.nodes c).flags.deviceGone = true ↔ (σ.nodes c).physicalDeviceObject ∉ r.relations.getD [])

/-- No child that is gone is reported again, and without a list all children are gone. -/
def NoneReappears (σ : DeviceTree Device) (r : BusReport Device) : Prop :=
  r.status.isSuccess = true → ∀ c, IsChild σ r.node c →
    match r.relations with
    | some devices => (σ.nodes c).flags.deviceGone = true → (σ.nodes c).physicalDeviceObject ∉ devices
    | none => (σ.nodes c).flags.deviceGone = true

omit [DecidableEq Device] in
theorem answered_samePlaces (σ : DeviceTree Device) (r : BusReport Device) : SamePlaces σ (σ.answered r) := by
  refine DeviceTree.modify_samePlaces ?_ r.node
  exact fun _ => rfl

omit [DecidableEq Device] in
theorem answered_flags (σ : DeviceTree Device) (r : BusReport Device) (n : Nat) :
    ((σ.answered r).nodes n).flags = (σ.nodes n).flags := by
  by_cases here : n = r.node
  · subst here
    rw [DeviceTree.answered, DeviceTree.modify_self]
  · rw [DeviceTree.answered, DeviceTree.modify_of_ne here]

theorem reportStep_unprocessed (inside : r.node < σ.count)
    (nothing : r.status.isSuccess = true → r.relations = none) :
    ∃ σ', reportStep top σ r = some σ' ∧ SamePlaces σ σ' ∧
      ∀ n, (σ'.nodes n).flags = (σ.nodes n).flags := by
  have answer : ((σ.answered r).nodes r.node).lastStateCompletionStatus.isSuccess = true →
      ((σ.answered r).nodes r.node).pendingDeviceRelations = none := by
    rw [DeviceTree.answered, DeviceTree.modify_self]
    exact nothing
  obtain ⟨status, enumerated⟩ := enumerate_unprocessed top r.creation answer
  have stepped : reportStep top σ r = some ((σ.answered r).modify r.node fun node =>
      { node with pendingDeviceRelations := none }.setState .started) := by
    rw [reportStep, if_pos inside, enumerated]
    rfl
  refine ⟨_, stepped, ?_, fun n => ?_⟩
  · refine (answered_samePlaces σ r).trans (DeviceTree.modify_samePlaces ?_ r.node)
    exact fun node => (setState_place { node with pendingDeviceRelations := none } .started :)
  · rw [← answered_flags σ r n]
    by_cases here : n = r.node
    · subst here
      rw [DeviceTree.modify_self, setState_flags]
    · rw [DeviceTree.modify_of_ne here]

theorem reportStep_processed {children : Nat → List Nat} (shape : TreeShape σ children) (inside : r.node < σ.count)
    (succeeds : r.status.isSuccess = true) (reports : r.relations = some devices) :
    ∃ σ', reportStep top σ r = some σ' ∧ Enumerated (σ.answered r) σ' r.node children devices := by
  have answer : ((σ.answered r).nodes r.node).lastStateCompletionStatus = r.status ∧
      ((σ.answered r).nodes r.node).pendingDeviceRelations = r.relations := by
    rw [DeviceTree.answered, DeviceTree.modify_self]
    exact ⟨rfl, rfl⟩
  obtain ⟨σ', log, enumerated, -, -, spec⟩ := enumerate_processed ((answered_samePlaces σ r).shape shape)
    inside top r.creation (answer.1 ▸ succeeds) (answer.2.trans reports)
  exact ⟨σ', by rw [reportStep, if_pos inside, enumerated]; rfl, spec⟩

theorem Enumerated.gone_old {children : Nat → List Nat} {devices : List Device} (shape : TreeShape σ children)
    (enumerated : Enumerated σ σ' p children devices) (child : IsChild σ p c) :
    IsChild σ' p c ∧ (σ'.nodes c).physicalDeviceObject = (σ.nodes c).physicalDeviceObject ∧
      ((σ'.nodes c).flags.deviceGone = true ↔
        (σ.nodes c).flags.deviceGone = true ∨ (σ.nodes c).physicalDeviceObject ∉ devices) := by
  obtain ⟨added, -, shape'⟩ := enumerated.shape
  have member := (shape.parent p c).mpr child
  obtain ⟨device, -, flags, -⟩ := fields_of_data (enumerated.child c member)
  refine ⟨(shape'.parent p c).mp ?_, device.trans ?_, ?_⟩
  · rw [Function.update_self]
    exact List.mem_append_left added member
  · have place := markedGone_place ((σ.nodes c).cleared.reported devices)
    exact (congrArg Prod.fst place :)
  · rw [flags, markedGone_gone, Bool.or_eq_true, Bool.not_eq_true']
    exact or_congr_right decide_eq_false_iff_not

theorem Enumerated.child_old {children : Nat → List Nat} {devices : List Device} (shape : TreeShape σ children)
    (enumerated : Enumerated σ σ' p children devices) (child : IsChild σ' p c) (old : c < σ.count) :
    IsChild σ p c := by
  obtain ⟨added, newer, shape'⟩ := enumerated.shape
  have member := (shape'.parent p c).mpr child
  rw [Function.update_self, List.mem_append] at member
  have notAdded : c ∉ added := fun new => absurd (newer c new) (Nat.not_le_of_gt old)
  exact (shape.parent p c).mp (member.resolve_right notAdded)

omit [DecidableEq Device] in
theorem IsChild.of_samePlaces (same : SamePlaces σ σ') : IsChild σ' p c ↔ IsChild σ p c := by
  rw [IsChild, IsChild, same.count, (same.fields c).2.1]

theorem reportStep_inside (stepped : reportStep top σ r = some σ') : r.node < σ.count := by
  by_contra outside
  rw [reportStep, if_neg outside] at stepped
  cases stepped

theorem TreeSound.report (sound : TreeSound σ) (stepped : reportStep top σ r = some σ') :
    TreeSound σ' ∧ (GoneExact σ' r ↔ NoneReappears σ r) := by
  obtain ⟨children, shape⟩ := sound
  have inside := reportStep_inside stepped
  by_cases succeeds : r.status.isSuccess = true
  · cases reports : r.relations with
    | none =>
      obtain ⟨τ, returned, same, flags⟩ := reportStep_unprocessed inside fun _ => reports
      obtain rfl := Option.some.inj (returned.symm.trans stepped)
      refine ⟨⟨children, same.shape shape⟩, ?_⟩
      rw [GoneExact, NoneReappears, reports]
      refine forall_congr' fun _ => forall_congr' fun c => imp_congr (IsChild.of_samePlaces same) ?_
      rw [flags, Option.getD_none]
      exact iff_true_right List.not_mem_nil
    | some devices =>
      obtain ⟨τ, returned, enumerated⟩ := reportStep_processed shape inside succeeds reports
      obtain rfl := Option.some.inj (returned.symm.trans stepped)
      obtain ⟨added, -, shape'⟩ := enumerated.shape
      have same := answered_samePlaces σ r
      refine ⟨⟨_, shape'⟩, ?_⟩
      rw [GoneExact, NoneReappears, reports]
      refine forall_congr' fun _ => ⟨fun exact c child gone => ?_, fun fresh c child => ?_⟩
      · obtain ⟨child', device, marked⟩ :=
          enumerated.gone_old (same.shape shape) ((IsChild.of_samePlaces same).mpr child)
        have absent := (exact c child').mp (marked.mpr (.inl (answered_flags σ r c ▸ gone)))
        rwa [device, (same.fields c).1] at absent
      · by_cases old : c < σ.count
        · have child := enumerated.child_old (same.shape shape) child old
          obtain ⟨-, device, marked⟩ := enumerated.gone_old (same.shape shape) child
          rw [marked, device, answered_flags, (same.fields c).1]
          exact or_iff_right_of_imp (fresh c ((IsChild.of_samePlaces same).mp child))
        · have discovered := enumerated.new c (Nat.le_of_not_lt old) child.1
          exact iff_of_false (by rw [discovered.notGone]; exact Bool.false_ne_true)
            fun absent => absent discovered.device
  · obtain ⟨τ, returned, same, -⟩ := reportStep_unprocessed inside fun success =>
      absurd success succeeds
    obtain rfl := Option.some.inj (returned.symm.trans stepped)
    exact ⟨⟨children, same.shape shape⟩, iff_of_true (fun success => absurd success succeeds)
      fun success => absurd success succeeds⟩

theorem TreeSound.reports (sound : TreeSound σ) (inside : r.node < σ.count) : (reportStep top σ r).isSome := by
  obtain ⟨children, shape⟩ := sound
  by_cases succeeds : r.status.isSuccess = true
  · cases reports : r.relations with
    | none =>
      obtain ⟨τ, returned, -⟩ := reportStep_unprocessed inside fun _ => reports
      rw [returned]
      rfl
    | some devices =>
      obtain ⟨τ, returned, -⟩ := reportStep_processed shape inside succeeds reports
      rw [returned]
      rfl
  · obtain ⟨τ, returned, -⟩ := reportStep_unprocessed inside fun success => absurd success succeeds
    rw [returned]
    rfl

end Reports

/-- Every run of reports keeps one tree with at most one node for a device. The
children without a device are the ones marked as gone after each report exactly
if none that is gone comes back. -/
theorem device_reports {Device : Type} [DecidableEq Device] {top : Device → Device} {s : DeviceTree Device}
    {reports : List (BusReport Device)} (sound : TreeSound s) :
    (Along (fun σ r => ∀ t, reportStep top σ r = some t → TreeSound t ∧ GoneExact t r) (reportStep top) s reports ↔
      Along (fun σ r => r.node < σ.count → NoneReappears σ r) (reportStep top) s reports) ∧
    ∀ t, exec (reportStep top) s reports = some t →
      TreeSound t ∧ ∀ r : BusReport Device, r.node < t.count → (reportStep top t r).isSome := by
  refine ⟨along_good_iff (fun sound stepped => ?_) (fun {σ r} sound stuck inside => ?_)
    (fun sound _ stepped => (sound.report stepped).1) sound, fun t run => ?_⟩
  · obtain ⟨soundAfter, exactly⟩ := sound.report stepped
    rw [exactly, and_iff_right soundAfter]
    exact ⟨fun fresh _ => fresh, fun fresh => fresh (reportStep_inside stepped)⟩
  · have returns : (reportStep top σ r).isSome := sound.reports inside
    rw [stuck] at returns
    cases returns
  · have every : Along (fun _ _ => True) (reportStep top) s reports := .of_forall fun _ _ _ => trivial
    have soundEnd : TreeSound t := exec_preserves (fun sound _ stepped => (TreeSound.report sound stepped).1) sound
      every run
    exact ⟨soundEnd, fun r inside => soundEnd.reports inside⟩

/-- A tree of the root alone, whose device is the first. -/
def rootTree : DeviceTree Nat where
  nodes _ := zeroNode 0
  count := 1
  deviceNode d := if d = 0 then some 0 else none

theorem rootTree_sound : TreeSound rootTree := by
  refine ⟨fun _ => [], ?_⟩
  exact {
    ordered := ⟨fun _ _ => False.elim ∘ List.not_mem_nil, fun _ _ => False.elim ∘ List.not_mem_nil,
      fun _ => List.nodup_nil, fun _ _ _ => False.elim ∘ List.not_mem_nil⟩
    nonempty := Nat.one_pos
    first := fun _ _ => rfl
    last := fun _ _ => rfl
    sibling := fun _ _ _ _ split => by simp at split
    parent := fun p c => iff_of_false List.not_mem_nil fun both => Option.some_ne_none p both.2.symm
    root := rfl
    linked := fun c below other => absurd (Nat.lt_one_iff.mp below) other
    device := fun d n => by
      by_cases root : d = 0
      · subst root
        simp [rootTree, zeroNode, eq_comm]
      · simp [rootTree, zeroNode, root, Ne.symm root] }

def answeredRequest : StackRequest := ⟨true, 0, 0⟩

def rootReport (devices : List Nat) : BusReport Nat :=
  ⟨0, 0, some devices, fun _ => ⟨true, answeredRequest, answeredRequest, true, answeredRequest, answeredRequest⟩⟩

/-- Of two devices the first is gone in the second report. -/
theorem device_reports_sample :
    ∃ s t, reportStep id rootTree (rootReport [1, 2]) = some s ∧ reportStep id s (rootReport [2]) = some t ∧
      TreeSound t ∧ GoneExact t (rootReport [2]) ∧ (t.nodes 1).flags.deviceGone = true := by
  have first : reportStep id rootTree (rootReport [1, 2]) = some _ := rfl
  have fresh : Along (fun σ r => r.node < σ.count → NoneReappears σ r) (reportStep id) rootTree
      [rootReport [1, 2], rootReport [2]] := by
    refine ⟨fun _ _ c child => absurd child.2 nofun, fun s stepped => ⟨fun _ _ c child gone => ?_, fun _ _ => trivial⟩⟩
    cases first.symm.trans stepped
    have below : c < 3 := child.1
    match c, below with
    | 0, _ => cases child.2
    | 1, _ => cases gone
    | 2, _ => cases gone
  obtain ⟨-, kept⟩ := (device_reports rootTree_sound).1.mpr fresh
  obtain ⟨sound, exactly⟩ := (kept _ first).1 _ rfl
  exact ⟨_, _, first, rfl, sound, exactly, rfl⟩

/-- A device that comes back stays marked as gone. -/
theorem reappears :
    ∃ t, exec (reportStep id) rootTree [rootReport [1], rootReport [], rootReport [1]] = some t ∧
      IsChild t 0 1 ∧ (t.nodes 1).physicalDeviceObject = 1 ∧ (t.nodes 1).flags.deviceGone = true ∧
      ¬ GoneExact t (rootReport [1]) := by
  have run : exec (reportStep id) rootTree [rootReport [1], rootReport [], rootReport [1]] = some _ := rfl
  refine ⟨_, run, ⟨by decide, rfl⟩, rfl, rfl, fun exact => ?_⟩
  exact absurd ((exact rfl 1 ⟨by decide, rfl⟩).mp rfl) (by decide)

end VeaOS.Pnp

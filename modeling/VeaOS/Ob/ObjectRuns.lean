import VeaOS.Foundation.Runs
import VeaOS.Ob.LedgerSteps

/-! Runs of the operations on objects. The ledger follows the callers: who made
an object or refers to it, which handles are open, and which names were given. -/
namespace VeaOS.Ob
open Sf Ul Transition Function Ledger ObState

structure ObSystem where
  objects : ObState
  ledger : Ledger
  named : Object → Option (Object × List Char)

inductive ObAction where
  | create (type : ObjectType) (info : CreateInfo) (securityDescriptor : Option VeaSecurityDescriptor)
      (body : SymbolicLink) (objectAllocated infoAllocated : Bool)
  | insert (caller : Caller) (parse : Object → List Char → ParseOutcome) (object : Object) (info : CreateInfo)
      (call : InsertCall)
  | openByName (caller : Caller) (parse : Object → List Char → ParseOutcome) (attributes : ObjectAttributes)
      (expectedType : Option ObjectType) (accessMode : KProcessorMode) (desiredAccess : AccessMask)
  | duplicate (caller : Caller) (object : Object) (attributes : Attributes) (accessMode : KProcessorMode)
      (grantedAccess : AccessMask)
  | close (caller : Caller) (handle : Handle) (mode : KProcessorMode)
  | reference (object : Object)
  | dereference (object : Object)
  | makeTemporary (object : Object)

def Ledger.received (ℓ : Ledger) (σ : ObState) (caller : Caller) (handle : Handle) : Ledger :=
  if handle = 0 then ℓ
  else match tableIdOf caller handle .kernelMode with
    | (none, _) => ℓ
    | (some which, handle) =>
      match σ.table which with
      | none => ℓ
      | some T =>
        let entry := T.entries (handleToIndex handle)
        match entry.object with
        | none => ℓ
        | some object => ℓ.openHandle which ⟨handle, object, entry.grantedAccess⟩

/-- The open handle that a close finds, and its object. -/
def closing (σ : ObState) (caller : Caller) (handle : Handle) (mode : KProcessorMode) :
    Option (TableId × Handle × Object) :=
  if handle = 0 then none
  else match tableIdOf caller handle mode with
    | (none, _) => none
    | (some which, handle) =>
      (σ.table which).bind fun T => (ulDestroyHandle T handle).2.2.map fun object => (which, handle, object)

/-- The name check takes the name of an object out of its directory. -/
def Removes (σ : ObState) (object : Object) : Prop :=
  (σ.header object).permanent = false ∧ (directoryOf σ object).isSome = true

instance (σ : ObState) (object : Object) : Decidable (Removes σ object) := by
  unfold Removes
  infer_instance

def Ledger.checked (ℓ : Ledger) (σ : ObState) (object : Object) : Ledger :=
  if Removes σ object then ℓ.leak object else ℓ

/-- An object that its creator inserts waits no longer. -/
def Ledger.inserting (ℓ : Ledger) (object : Object) : Ledger :=
  { ℓ with waiting := Function.update ℓ.waiting object false }

def obStep (s : ObSystem) : ObAction → ObSystem
  | .create type info securityDescriptor body objectAllocated infoAllocated =>
    match obCreateObject s.objects type info securityDescriptor body objectAllocated infoAllocated with
    | (σ, status) =>
      if status.isSuccess then
        { s with
          objects := σ
          ledger := { s.ledger.setHeld s.objects.nextObject 1 with
            waiting := Function.update s.ledger.waiting s.objects.nextObject true } }
      else { s with objects := σ }
  | .insert caller parse object info call =>
    match obInsertObject s.objects caller parse object info call with
    | (σ, status, handle) =>
      let ledger := s.ledger.inserting object
      let held := s.ledger.held object
      if status.isSuccess then
        { objects := σ
          ledger := (ledger.setHeld object
            (if call.newObject then held + call.objectPointerBias else held - 1)).received σ caller handle
          named := match directoryOf σ object with
            | none => s.named
            | some directory => Function.update s.named object (some (directory, storedName info)) }
      else { s with objects := σ, ledger := ledger.setHeld object (held - 1) }
  | .openByName caller parse attributes expectedType accessMode desiredAccess =>
    match obOpenObjectByName s.objects caller parse attributes expectedType accessMode desiredAccess with
    | (σ, _, handle) => { s with objects := σ, ledger := s.ledger.received σ caller handle }
  | .duplicate caller object attributes accessMode grantedAccess =>
    match obpCreateHandle s.objects caller object attributes accessMode grantedAccess with
    | (σ, _, handle) => { s with objects := σ, ledger := s.ledger.received σ caller handle }
  | .close caller handle mode =>
    let σ := obCloseHandle s.objects caller handle mode
    match closing s.objects caller handle mode with
    | none => { s with objects := σ }
    | some (which, handle, object) =>
      let ledger := (s.ledger.closeHandle which (handleToIndex handle)).checked s.objects object
      { objects := σ
        ledger := ledger
        named :=
          if ledger.handleCount object = 0 ∧ (s.objects.header object).permanent = false then
            Function.update s.named object none
          else s.named }
  | .reference object =>
    { s with
      objects := obReferenceObject s.objects object
      ledger := s.ledger.setHeld object (s.ledger.held object + 1) }
  | .dereference object =>
    { s with
      objects := obDereferenceObject s.objects object
      ledger := s.ledger.setHeld object (s.ledger.held object - 1) }
  | .makeTemporary object =>
    { objects := obMakeTemporaryObject s.objects object
      ledger := if (directoryOf s.objects object).isSome then s.ledger.leak object else s.ledger
      named := Function.update s.named object none }

/-- A reference that is not the one of a link to its target. -/
def Ledger.Releasable (ℓ : Ledger) (σ : ObState) (object : Object) : Prop :=
  0 < ℓ.held object ∧ ∀ l, (σ.link l).targetObject = some object → 2 ≤ ℓ.held object

def ParsesLive (σ : ObState) (parse : Object → List Char → ParseOutcome) : Prop :=
  ∀ p path o, parse p path = .resolved (some o) → 0 < (σ.header o).referenceCount

/-- What the callers keep to: an object is inserted once by its creator, the
first one as a permanent directory, and only a holder gives up a reference. -/
def ObAdmits (s : ObSystem) : ObAction → Prop
  | .create _ _ _ body _ _ => ∀ t, body.targetObject = some t → 0 < s.ledger.held t
  | .insert _ parse object info _ =>
    s.ledger.Releasable s.objects object ∧ s.ledger.waiting object = true ∧
      (s.objects.header object).createInfo = some info ∧ ParsesLive s.objects parse ∧
      (s.objects.rootDirectoryObject = none → info.attributes.objectName = ['/'] →
        info.attributes.attributes.permanent = true)
  | .openByName _ parse _ _ _ _ => ParsesLive s.objects parse
  | .duplicate _ object _ _ _ => 0 < s.ledger.handleCount object
  | .close _ _ _ => True
  | .reference object => 0 < (s.objects.header object).referenceCount
  | .dereference object => s.ledger.Releasable s.objects object
  | .makeTemporary object => 0 < (s.objects.header object).referenceCount ∧
      s.objects.rootDirectoryObject ≠ some object

section
variable {σ σ' : ObState} {ℓ : Ledger} {object : Object}

theorem Sound.counted_pos (sound : Sound σ ℓ) : 0 < (σ.header object).referenceCount ↔ 0 < ℓ.sum σ object := by
  rw [sound.counted]
  omega

theorem Sound.open_counted (sound : Sound σ ℓ) (opened : OpenAt σ which i object) : 0 < ℓ.handleCount object := by
  obtain ⟨T, table, positive, inside, used⟩ := opened
  obtain ⟨free, accounted⟩ := sound.tables.accounted table
  obtain ⟨grant, member, rfl⟩ := accounted.owner positive inside used
  obtain ⟨line, listed, rfl⟩ := List.mem_map.mp member
  apply List.countP_pos_iff.mpr
  refine ⟨line, (List.mem_filter.mp listed).1, ?_⟩
  have holds := (accounted.holds member).1
  rw [used] at holds
  exact decide_eq_true (Option.some.inj holds).symm

theorem Ledger.sum_pos_of_linked (ℓ : Ledger) (entry : directoryOf σ object = some d) : 0 < ℓ.sum σ object := by
  rw [sum, linked, entry]
  exact Nat.add_pos_left (Nat.add_pos_right _ Nat.one_pos) _

theorem Ledger.sum_pos_of_held (σ : ObState) (held : 0 < ℓ.held object) : 0 < ℓ.sum σ object := by
  rw [sum]
  omega

theorem Ledger.sum_pos_of_handle (σ : ObState) (opened : 0 < ℓ.handleCount object) : 0 < ℓ.sum σ object := by
  rw [sum]
  omega

theorem Sound.sheltered (sound : Sound σ ℓ) (parses : ParsesLive σ parse) : Sheltered σ parse := by
  have live : ∀ {o}, 0 < ℓ.sum σ o → Live σ o := fun positive => Or.inl (sound.counted_pos.mpr positive)
  constructor
  case root => exact fun found => Or.inr (sound.root found).1
  case entry => exact fun member => live (ℓ.sum_pos_of_linked (sound.names.entry.mp member))
  case target => exact fun found => live (sum_pos_of_held σ (sound.target found))
  case parsed => exact fun outcome => Or.inl (parses _ _ _ outcome)
  case handle => exact fun opened => live (sum_pos_of_handle σ (sound.open_counted opened))

theorem Sound.found_born (sound : Sound σ ℓ) (parses : ParsesLive σ parse) (root : σ.rootDirectoryObject = some r)
    (start : ∀ o, request.rootObject = some o → ∃ which i, OpenAt σ which i o)
    (found : Found (σ.namespaceAt r) parse request object) : object < σ.nextObject := by
  have root_born := (sound.root root).2.2
  cases found with
  | start =>
    rw [LookupRequest.start]
    cases given : request.rootObject with
    | none => exact root_born
    | some o =>
      obtain ⟨which, i, opened⟩ := start o given
      exact sound.born (sum_pos_of_handle σ (sound.open_counted opened))
  | root => exact root_born
  | entry member => exact sound.born (ℓ.sum_pos_of_linked (sound.names.entry.mp member))
  | target link => exact sound.born (sum_pos_of_held σ (sound.target link))
  | parsed outcome => exact sound.born (sound.counted_pos.mp (parses _ _ _ outcome))

theorem Ledger.received_congr (ℓ : Ledger) (same : ∀ which, σ'.table which = σ.table which) (caller : Caller)
    (handle : Handle) : ℓ.received σ' caller handle = ℓ.received σ caller handle := by
  simp only [received, same]

theorem Sound.handled (sound : Sound σ ℓ) (born : object < σ.nextObject) (live : Live σ object)
    (handled : Handled σ caller object σ' handle) : Sound σ' (ℓ.received σ' caller handle) := by
  cases handled with
  | unasked => exact sound
  | @created which T granted thread T' created _ table made nonzero returned =>
    have opened := sound.openHandle born live table made nonzero
    obtain ⟨free, accounted⟩ := sound.tables.accounted table
    have small := sound.tables.small table
    obtain ⟨x, rest, rfl, rfl, positive, bound, first, unused, rfl⟩ := created_entry accounted made nonzero
    have given : handle ≠ 0 := by
      rcases returned with ⟨_, rfl⟩ | ⟨_, _, rfl⟩
      · exact obMarkHandleAsKernelHandle_ne_zero _
      · exact nonzero
    have index : handleToIndex (indexToHandle x) = x := index_handle (by omega)
    rw [received, if_neg given, tableIdOf_made (indexToHandle_msb (by omega)) returned]
    dsimp only
    rw [table_setTable]
    simp only [index, update_self]
    exact opened

theorem Sound.givenUp (sound : Sound σ ℓ) (counted : 0 < (σ.header object).referenceCount)
    (unlinked : directoryOf σ object = none) (unnamed : nameInfo.bind NameInfo.directory = none)
    (permanent : (σ.header object).permanent = true → p = true) : Sound (givenUp σ object p nameInfo) ℓ := by
  have count := sound.counted object
  have kept : Sound (Ob.givenUp σ object p nameInfo) (ℓ.setHeld object (ℓ.held object)) := by
    refine sound.setHeader (sound.born (sound.counted_pos.mp counted)) rfl (unnamed.trans unlinked.symm) ?_ ?_ count ?_
      (fun l => sound.target)
    · rw [unlinked]
      nofun
    · exact fun root => permanent (sound.root root).1
    · rw [sound.undeleted (Or.inl counted)]
      exact (if_neg fun gone => absurd gone.1 (ne_of_gt counted)).symm
  rwa [setHeld_self] at kept

theorem Sound.setCreateInfo (sound : Sound σ ℓ) (born : object < σ.nextObject) (createInfo : Option CreateInfo) :
    Sound (σ.setCreateInfo object createInfo) ℓ := by
  have deleted := sound.deleted object
  have kept : Sound (σ.setCreateInfo object createInfo) (ℓ.setHeld object (ℓ.held object)) := by
    refine sound.setHeader born rfl rfl (fun _ _ => rfl) (fun root => (sound.root root).1) (sound.counted object) ?_
      (fun l => sound.target)
    simp only [born, true_and] at deleted
    exact deleted
  rwa [setHeld_self] at kept

theorem Sound.references (sound : Sound σ ℓ) (counted : 0 < (σ.header object).referenceCount) (n : Nat) :
    Sound ((obReferenceObject · object)^[n] σ) (ℓ.setHeld object (ℓ.held object + n)) ∧
      ((obReferenceObject · object)^[n] σ).nextObject = σ.nextObject := by
  induction n generalizing σ ℓ with
  | zero => exact ⟨by rwa [Nat.add_zero, setHeld_self], rfl⟩
  | succ n ih =>
    rw [iterate_succ_apply]
    have referenced := sound.reference (sound.born (sound.counted_pos.mp counted)) (Or.inl counted)
    have raised : 0 < ((obReferenceObject σ object).header object).referenceCount := by
      rw [referenced.counted_pos]
      apply sum_pos_of_held
      rw [held_setHeld]
      exact Nat.succ_pos _
    obtain ⟨kept, next⟩ := ih referenced raised
    rw [held_setHeld, setHeld_setHeld, Nat.add_right_comm] at kept
    exact ⟨kept, next⟩

theorem nextObject_obDereferenceObject (σ : ObState) (object : Object) :
    (obDereferenceObject σ object).nextObject = σ.nextObject := by
  have removed : ∀ τ : ObState, (obpRemoveEntryDirectory τ object).nextObject = τ.nextObject := by
    intro τ
    rw [obpRemoveEntryDirectory]
    split
    next => rfl
    next => split <;> rfl
  rw [obDereferenceObject]
  split
  next =>
    split
    next => rfl
    next => exact removed _
  next => rfl

theorem Sound.settled (sound : Sound σ ℓ) (releasable : ℓ.Releasable σ object) (call : InsertCall) :
    Sound (settled σ object call) (ℓ.setHeld object
      (if call.newObject then ℓ.held object + call.objectPointerBias else ℓ.held object - 1)) := by
  have positive := sum_pos_of_held σ releasable.1
  have born := sound.born positive
  rw [Ob.settled]
  split
  next =>
    obtain ⟨referenced, next⟩ := sound.references (sound.counted_pos.mpr positive) call.objectPointerBias
    exact referenced.setCreateInfo (next ▸ born) none
  next =>
    have dereferenced := sound.dereference releasable.1 releasable.2
    exact dereferenced.setCreateInfo (nextObject_obDereferenceObject σ object ▸ born) none

theorem Places.born (places : Places σ caller parse object info result) (sound : Sound σ ℓ)
    (parses : ParsesLive σ parse) : result.currentDirectory < σ.nextObject := by
  obtain ⟨root, rootObject, root_eq, referenced, rfl⟩ := places
  refine sound.found_born parses root_eq ?_ (lookupObjectName_found _ _ _).1
  rintro o given
  have given : rootObject = some o := given
  rw [given] at referenced
  exact referenceRootDirectory_open referenced

theorem Sound.named (sound : Sound σ ℓ) (named : Named σ caller parse object info σ') (held : 0 < ℓ.held object)
    (unlinked : directoryOf σ object = none) (waiting : ℓ.waiting object = false) (parses : ParsesLive σ parse)
    (permanent : σ.rootDirectoryObject = none → info.attributes.objectName = ['/'] →
      (σ.header object).permanent = true) : Sound σ' ℓ := by
  have positive := sum_pos_of_held σ held
  have counted := sound.counted_pos.mpr positive
  have born := sound.born positive
  cases named with
  | unnamed => exact sound
  | nameless => exact sound
  | root first type name =>
    have cleared : Sound (clearDirectory σ object) ℓ := by
      have unnamed : ((σ.header object).nameInfo.map fun info => { info with directory := none }).bind
          NameInfo.directory = none := by
        cases (σ.header object).nameInfo <;> rfl
      exact sound.givenUp counted unlinked unnamed id
    obtain ⟨_, flag, kind⟩ := header_clearDirectory σ object object
    exact cleared.becomeRoot born (flag.trans (permanent first name)) (kind.trans type)
  | outside name => exact sound.givenUp counted unlinked rfl id
  | entry name places success missing type present distinct =>
    apply sound.enter born (Or.inl counted) unlinked waiting type (places.born sound parses)
    intro existing member other stored
    apply distinct existing member other
    have different : existing ≠ object := by
      rintro rfl
      rw [sound.names.entry, unlinked] at member
      cases member
    rw [setNameInfo, header_setHeader_ne different]
    exact stored

theorem Ledger.received_rest (ℓ : Ledger) (σ : ObState) (caller : Caller) (handle : Handle) :
    (ℓ.received σ caller handle).held = ℓ.held ∧ (ℓ.received σ caller handle).waiting = ℓ.waiting ∧
      (ℓ.received σ caller handle).leaked = ℓ.leaked := by
  rw [received]
  split
  next => exact ⟨rfl, rfl, rfl⟩
  next =>
    split
    next => exact ⟨rfl, rfl, rfl⟩
    next =>
      split
      next => exact ⟨rfl, rfl, rfl⟩
      next =>
        dsimp only
        split <;> exact ⟨rfl, rfl, rfl⟩

theorem Ledger.received_setHeld (ℓ : Ledger) (σ : ObState) (caller : Caller) (handle : Handle) (n : Nat) :
    (ℓ.setHeld object n).received σ caller handle = (ℓ.received σ caller handle).setHeld object n := by
  rw [received, received]
  split
  next => rfl
  next =>
    split
    next => rfl
    next =>
      split
      next => rfl
      next =>
        dsimp only
        split <;> rfl

theorem Handled.counted (handled : Handled σ caller object σ' handle)
    (counted : 0 < (σ.header o).referenceCount) : 0 < (σ'.header o).referenceCount := by
  cases handled with
  | unasked => exact counted
  | created =>
    rw [header_setTable, obReferenceObject, setCount]
    by_cases same : o = object
    · rw [same, header_setHeader]
      rw [same] at counted
      dsimp only
      omega
    · rwa [header_setHeader_ne same]

theorem Handled.permanent (handled : Handled σ caller object σ' handle) (o : Object) :
    (σ'.header o).permanent = (σ.header o).permanent := by
  cases handled with
  | unasked => rfl
  | created =>
    rw [header_setTable, obReferenceObject, setCount]
    by_cases same : o = object
    · rw [same, header_setHeader]
    · rw [header_setHeader_ne same]

theorem Named.rest (named : Named σ caller parse object info σ') :
    (∀ which, σ'.table which = σ.table which) ∧ σ'.link = σ.link := by
  cases named with
  | unnamed | nameless => exact ⟨fun _ => rfl, rfl⟩
  | outside => exact ⟨fun _ => table_setHeader, rfl⟩
  | root | entry => exact ⟨fun which => by cases which <;> rfl, rfl⟩

theorem table_obpRemoveEntryDirectory (σ : ObState) (object : Object) (which : TableId) :
    (obpRemoveEntryDirectory σ object).table which = σ.table which := by
  rw [obpRemoveEntryDirectory]
  split
  next => rfl
  next =>
    split
    next => cases which <;> rfl
    next => rfl

theorem table_obDereferenceObject (σ : ObState) (object : Object) (which : TableId) :
    (obDereferenceObject σ object).table which = σ.table which := by
  have count : (σ.setCount object ((σ.header object).referenceCount - 1)).table which = σ.table which :=
    table_setHeader
  rw [obDereferenceObject]
  split
  next =>
    split
    next => exact count
    next =>
      rw [destroyObject, table_setHeader, table_obpRemoveEntryDirectory, ← count]
      cases which <;> rfl
  next => exact count

theorem table_settled (σ : ObState) (object : Object) (call : InsertCall) (which : TableId) :
    (settled σ object call).table which = σ.table which := by
  have references : ∀ n, ((obReferenceObject · object)^[n] σ).table which = σ.table which := by
    intro n
    induction n with
    | zero => rfl
    | succ n ih =>
      rw [iterate_succ_apply', obReferenceObject, setCount, table_setHeader, ih]
  rw [settled, setCreateInfo, table_setHeader]
  split
  next => exact references _
  next => exact table_obDereferenceObject σ object which

section
variable {info : CreateInfo} (sound : Sound σ ℓ) (releasable : ℓ.Releasable σ object)
  (waiting : ℓ.waiting object = true) (parses : ParsesLive σ parse)
  (bootstrap : σ.rootDirectoryObject = none → info.attributes.objectName = ['/'] →
    info.attributes.attributes.permanent = true)
include sound waiting

theorem Sound.inserting : Sound σ (ℓ.inserting object) := by
  apply sound.rewait
  intro o waits
  by_cases same : o = object
  · exact same ▸ sound.fresh waiting
  · rw [update_of_ne same] at waits
    exact sound.fresh waits

include releasable

theorem Sound.flagged (p : Bool) (unnamed : nameInfo.bind NameInfo.directory = none) :
    Sound (Ob.givenUp σ object ((σ.header object).permanent || p) nameInfo) (ℓ.inserting object) := by
  have counted := sound.counted_pos.mpr (sum_pos_of_held σ releasable.1)
  refine (sound.inserting waiting).givenUp counted (sound.fresh waiting) unnamed fun set => ?_
  rw [set, Bool.true_or]

include parses bootstrap

theorem Sound.inserted
    (inserted : obInsertObject σ caller parse object info call = (σ', status, handle))
    (success : status.isSuccess = true) :
    ∃ σ₁ σ₂, Handled (Ob.flagged σ object info) caller object σ₁ handle ∧
      Named σ₁ caller parse object info σ₂ ∧ σ' = Ob.settled σ₂ object call ∧
      insertRefused info.attributes.objectName info call = none ∧
      Sound σ₁ ((ℓ.inserting object).received σ₁ caller handle) ∧
      Sound σ₂ ((ℓ.inserting object).received σ₁ caller handle) := by
  have positive := sum_pos_of_held σ releasable.1
  have counted := sound.counted_pos.mpr positive
  have unlinked := sound.fresh waiting
  obtain ⟨σ₁, σ₂, handled, named, rfl, accepted⟩ :=
    obInsertObject_inserted (sound.sheltered parses) sound.tables counted inserted success
  have flagged := sound.flagged releasable waiting info.attributes.attributes.permanent unlinked
  have flagged_counted : 0 < ((Ob.flagged σ object info).header object).referenceCount := by
    rw [Ob.flagged, Ob.givenUp, header_setHeader]
    exact counted
  have opened := flagged.handled (flagged.born (flagged.counted_pos.mp flagged_counted))
    (Or.inl flagged_counted) handled
  obtain ⟨_, _, root⟩ := handled.rest
  obtain ⟨held, waits, _⟩ := (ℓ.inserting object).received_rest σ₁ caller handle
  refine ⟨σ₁, σ₂, handled, named, rfl, accepted, opened, opened.named named ?_ ?_ ?_ ?_ ?_⟩
  · rw [held]
    exact releasable.1
  · rw [directoryOf, handled.nameInfo]
    exact unlinked
  · rw [waits]
    exact update_self ..
  · intro p path o outcome
    apply handled.counted
    rw [Ob.flagged, Ob.givenUp]
    by_cases same : o = object
    · rw [same, header_setHeader]
      exact counted
    · rw [header_setHeader_ne same]
      exact parses p path o outcome
  · intro first name
    rw [handled.permanent, Ob.flagged, Ob.givenUp, header_setHeader]
    rw [root] at first
    dsimp only
    rw [bootstrap first name, Bool.or_true]

theorem Sound.insert (inserted : obInsertObject σ caller parse object info call = (σ', status, handle)) :
    Sound σ' (if status.isSuccess then
      ((ℓ.inserting object).setHeld object
        (if call.newObject then ℓ.held object + call.objectPointerBias else ℓ.held object - 1)).received
          σ' caller handle
      else (ℓ.inserting object).setHeld object (ℓ.held object - 1)) := by
  cases success : status.isSuccess with
  | false =>
    have counted := sound.counted_pos.mpr (sum_pos_of_held σ releasable.1)
    obtain ⟨nameInfo, present, unnamed, rfl, rfl⟩ :=
      obInsertObject_failed (sound.sheltered parses) sound.tables counted inserted success
    exact (sound.flagged releasable waiting _ unnamed).dereference releasable.1 releasable.2
  | true =>
    obtain ⟨σ₁, σ₂, handled, named, rfl, _, _, placed⟩ :=
      sound.inserted releasable waiting parses bootstrap inserted success
    obtain ⟨_, link, _⟩ := handled.rest
    obtain ⟨tables, links⟩ := named.rest
    obtain ⟨held, _, _⟩ := (ℓ.inserting object).received_rest σ₁ caller handle
    have left : ((ℓ.inserting object).received σ₁ caller handle).Releasable σ₂ object := by
      rw [Releasable, held, links, link]
      exact releasable
    have ended := placed.settled left call
    have same : ∀ which, (Ob.settled σ₂ object call).table which = σ₁.table which := by
      intro which
      rw [table_settled, tables]
    rw [held] at ended
    rw [if_pos rfl, received_setHeld, received_congr _ same]
    exact ended

end

theorem obCloseHandle_closing (σ : ObState) (caller : Caller) (handle : Handle) (mode : KProcessorMode) :
    match closing σ caller handle mode with
    | none => obCloseHandle σ caller handle mode = σ
    | some (which, target, object) => ∃ T T' status, σ.table which = some T ∧
        ulDestroyHandle T target = (T', status, some object) ∧
        obCloseHandle σ caller handle mode =
          obDereferenceObject (obpDeleteNameCheck (σ.setTable which T') object) object := by
  rw [closing, obCloseHandle]
  by_cases zero : handle = 0
  · rw [if_pos zero, if_pos zero]
  · rw [if_neg zero, if_neg zero]
    rcases tableIdOf caller handle mode with ⟨_ | which, target⟩
    · rfl
    · dsimp only
      rw [destroyHandle]
      cases table : σ.table which with
      | none => rfl
      | some T =>
        rw [Option.bind_some]
        rcases destroyed : ulDestroyHandle T target with ⟨T', status, _ | object⟩
        · dsimp only [Option.map_none]
          rw [destroyed]
        · dsimp only [Option.map_some]
          refine ⟨T, T', status, table, destroyed, ?_⟩
          rw [destroyed]

theorem Sound.deleteNameCheck (sound : Sound σ ℓ) (object : Object) :
    Sound (obpDeleteNameCheck σ object) (ℓ.checked σ object) := by
  rw [obpDeleteNameCheck, checked]
  split
  next permanent =>
    rw [if_neg fun removes => absurd removes.1 (by rw [permanent]; exact Bool.noConfusion)]
    exact sound
  next temporary =>
    cases entry : (σ.header object).nameInfo.bind NameInfo.directory with
    | none =>
      have unlinked : directoryOf σ object = none := entry
      rw [if_neg fun removes => absurd removes.2 (by rw [unlinked]; exact Bool.noConfusion)]
      exact sound
    | some directory =>
      have linked : directoryOf σ object = some directory := entry
      rw [if_pos ⟨Bool.eq_false_of_not_eq_true temporary, by rw [linked]; rfl⟩]
      exact sound.remove linked

theorem link_obpDeleteNameCheck (σ : ObState) (object : Object) :
    (obpDeleteNameCheck σ object).link = σ.link := by
  have removed : (obpRemoveEntryDirectory σ object).link = σ.link := by
    rw [obpRemoveEntryDirectory]
    split
    next => rfl
    next => split <;> rfl
  rw [obpDeleteNameCheck]
  split
  next => rfl
  next =>
    split
    next => rfl
    next => exact removed

theorem Ledger.checked_rest (ℓ : Ledger) (σ : ObState) (object : Object) :
    (ℓ.checked σ object).held = ℓ.held ∧ (ℓ.checked σ object).handles = ℓ.handles ∧
      (ℓ.checked σ object).waiting = ℓ.waiting := by
  rw [checked]
  split <;> exact ⟨rfl, rfl, rfl⟩

theorem Ledger.checked_setHeld (ℓ : Ledger) (σ : ObState) (o : Object) (n : Nat) :
    (ℓ.setHeld object n).checked σ o = (ℓ.checked σ o).setHeld object n := by
  rw [checked, checked]
  split <;> rfl

theorem removes_setTable : Removes (σ.setTable which T) object ↔ Removes σ object := by
  rw [Removes, Removes, header_setTable, directoryOf_setTable]

theorem Sound.close {target : Handle} (sound : Sound σ ℓ)
    (closed : closing σ caller handle mode = some (which, target, object)) :
    Sound (obCloseHandle σ caller handle mode) ((ℓ.closeHandle which (handleToIndex target)).checked σ object) ∧
      ℓ.handleCount object = (ℓ.closeHandle which (handleToIndex target)).handleCount object + 1 := by
  have result := obCloseHandle_closing σ caller handle mode
  rw [closed] at result
  obtain ⟨T, T', status, table, destroyed, result⟩ := result
  obtain ⟨taken, count⟩ := sound.closeHandle table destroyed
  refine ⟨?_, count⟩
  have checked := taken.deleteNameCheck object
  obtain ⟨held, _, _⟩ := Ledger.checked_rest ((ℓ.closeHandle which (handleToIndex target)).setHeld object
    (ℓ.held object + 1)) (σ.setTable which T') object
  have released : (((ℓ.closeHandle which (handleToIndex target)).setHeld object (ℓ.held object + 1)).checked
      (σ.setTable which T') object).Releasable (obpDeleteNameCheck (σ.setTable which T') object) object := by
    rw [Ledger.Releasable, held, Ledger.held_setHeld, link_obpDeleteNameCheck, (@setTable_rest σ T' which).2.2.2]
    exact ⟨Nat.succ_pos _, fun l found => Nat.succ_le_succ (sound.target found)⟩
  have given := checked.dereference released.1 released.2
  rw [held, Ledger.held_setHeld, Ledger.checked_setHeld, Ledger.setHeld_setHeld, Nat.add_sub_cancel] at given
  have kept : ((ℓ.closeHandle which (handleToIndex target)).checked (σ.setTable which T') object).setHeld object
      (ℓ.held object) = (ℓ.closeHandle which (handleToIndex target)).checked σ object := by
    have same : (ℓ.closeHandle which (handleToIndex target)).checked (σ.setTable which T') object
        = (ℓ.closeHandle which (handleToIndex target)).checked σ object := by
      rw [Ledger.checked, Ledger.checked]
      exact if_congr removes_setTable rfl rfl
    obtain ⟨held, _, _⟩ := (ℓ.closeHandle which (handleToIndex target)).checked_rest σ object
    have line : ℓ.held object = ((ℓ.closeHandle which (handleToIndex target)).checked σ object).held object := by
      rw [held]
      rfl
    rw [same, line, Ledger.setHeld_self]
  rw [result]
  exact kept ▸ given

theorem obOpenObjectByName_spec (sheltered : Sheltered σ parse)
    (opened : obOpenObjectByName σ caller parse attributes expectedType accessMode desiredAccess
      = (σ', status, handle)) :
    (σ' = σ ∧ handle = 0) ∨ ∃ root rootObject found σ₂, σ.rootDirectoryObject = some root ∧
      referenceRootDirectory σ caller ⟨attributes, accessMode, expectedType, false⟩ = (.success, rootObject) ∧
      (lookupObjectName (σ.namespaceAt root) parse (LookupCall.request
        ⟨attributes, accessMode, expectedType, false⟩ rootObject)).foundObject = some found ∧
      Live σ found ∧ Handled (obReferenceObject σ found) caller found σ₂ handle ∧
      σ' = obDereferenceObject σ₂ found := by
  rw [obOpenObjectByName] at opened
  rcases looked : obpLookupObjectName σ caller parse ⟨attributes, accessMode, expectedType, false⟩ with ⟨σ₁, result⟩
  obtain ⟨state, live, looked_up⟩ := obpLookupObjectName_spec sheltered looked
  rw [looked] at opened
  dsimp only at opened
  split at opened
  next failed =>
    simp only [Prod.mk.injEq] at opened
    obtain ⟨rfl, _, rfl⟩ := opened
    have missing : result.foundObject = none := by
      cases found : result.foundObject with
      | none => rfl
      | some o =>
        rw [(live o found).1] at failed
        cases failed
    rw [missing] at state
    exact Or.inl ⟨state, rfl⟩
  next succeeded =>
    have success : result.status.isSuccess = true := by simpa using succeeded
    cases found : result.foundObject with
    | none =>
      rw [found] at opened state
      simp only [Prod.mk.injEq] at opened
      obtain ⟨rfl, _, rfl⟩ := opened
      exact Or.inl ⟨state, rfl⟩
    | some o =>
      rw [found] at opened state
      obtain rfl : σ₁ = obReferenceObject σ o := state
      have alive := (live o found).2
      dsimp only at opened
      split at opened
      next =>
        simp only [Prod.mk.injEq] at opened
        obtain ⟨rfl, _, rfl⟩ := opened
        exact Or.inl ⟨dereference_reference alive, rfl⟩
      next granted _ =>
        rcases made : obpCreateHandle (obReferenceObject σ o) caller o attributes.attributes accessMode granted with
          ⟨σ₂, status₂, handle₂⟩
        rw [made] at opened
        simp only [Prod.mk.injEq] at opened
        obtain ⟨rfl, rfl, rfl⟩ := opened
        obtain ⟨created, failed⟩ := obpCreateHandle_spec alive.reference made
        cases handle_made : status₂.isSuccess with
        | false =>
          obtain ⟨rfl, rfl⟩ := failed handle_made
          exact Or.inl ⟨dereference_reference alive, rfl⟩
        | true =>
          obtain ⟨root, rootObject, root_eq, referenced, rfl⟩ := looked_up success
          exact Or.inr ⟨root, rootObject, o, σ₂, root_eq, referenced, found, alive, (created handle_made).1, rfl⟩

theorem Ledger.received_zero (ℓ : Ledger) (σ : ObState) (caller : Caller) : ℓ.received σ caller 0 = ℓ := if_pos rfl

theorem Sound.openByName (sound : Sound σ ℓ) (parses : ParsesLive σ parse)
    (opened : obOpenObjectByName σ caller parse attributes expectedType accessMode desiredAccess
      = (σ', status, handle)) : Sound σ' (ℓ.received σ' caller handle) := by
  rcases obOpenObjectByName_spec (sound.sheltered parses) opened with ⟨rfl, rfl⟩ |
    ⟨root, rootObject, found, σ₂, root_eq, referenced, result, live, handled, rfl⟩
  · exact (ℓ.received_zero σ' caller).symm ▸ sound
  · have born : found < σ.nextObject := by
      refine sound.found_born parses root_eq ?_ ((lookupObjectName_found _ _ _).2 found result).2
      rintro o given
      have given : rootObject = some o := given
      rw [given] at referenced
      exact referenceRootDirectory_open referenced
    have looked := sound.reference born live
    have handled_sound := looked.handled born live.reference handled
    obtain ⟨_, link, _⟩ := handled.rest
    obtain ⟨held, _, _⟩ := (ℓ.setHeld found (ℓ.held found + 1)).received_rest σ₂ caller handle
    have released : ((ℓ.setHeld found (ℓ.held found + 1)).received σ₂ caller handle).Releasable σ₂ found := by
      rw [Releasable, held, held_setHeld, link]
      exact ⟨Nat.succ_pos _, fun l targeted => Nat.succ_le_succ (sound.target targeted)⟩
    have given := handled_sound.dereference released.1 released.2
    rw [held, held_setHeld, received_setHeld, setHeld_setHeld, Nat.add_sub_cancel] at given
    have same : (ℓ.received σ₂ caller handle).setHeld found (ℓ.held found)
        = ℓ.received (obDereferenceObject σ₂ found) caller handle := by
      rw [ℓ.received_congr (table_obDereferenceObject σ₂ found)]
      obtain ⟨held, _, _⟩ := ℓ.received_rest σ₂ caller handle
      have line : ℓ.held found = (ℓ.received σ₂ caller handle).held found := by rw [held]
      rw [line, setHeld_self]
    exact same ▸ given

theorem Sound.duplicate (sound : Sound σ ℓ) (opened : 0 < ℓ.handleCount object)
    (made : obpCreateHandle σ caller object attributes accessMode granted = (σ', status, handle)) :
    Sound σ' (ℓ.received σ' caller handle) := by
  have positive := sum_pos_of_handle σ opened
  have live : Live σ object := Or.inl (sound.counted_pos.mpr positive)
  obtain ⟨created, failed⟩ := obpCreateHandle_spec live made
  cases success : status.isSuccess with
  | true => exact sound.handled (sound.born positive) live (created success).1
  | false =>
    obtain ⟨rfl, rfl⟩ := failed success
    exact (ℓ.received_zero σ' caller).symm ▸ sound

theorem Sound.setPermanent (sound : Sound σ ℓ) (counted : 0 < (σ.header object).referenceCount)
    (other : σ.rootDirectoryObject ≠ some object) : Sound (σ.setPermanent object false) ℓ := by
  have kept : Sound (σ.setPermanent object false) (ℓ.setHeld object (ℓ.held object)) := by
    refine sound.setHeader (sound.born (sound.counted_pos.mp counted)) rfl rfl (fun _ _ => rfl)
      (fun root => absurd root other) (sound.counted object) ?_ (fun l => sound.target)
    rw [sound.undeleted (Or.inl counted)]
    exact (if_neg fun gone => absurd gone.1 (ne_of_gt counted)).symm
  rwa [setHeld_self] at kept

theorem Sound.makeTemporary (sound : Sound σ ℓ) (counted : 0 < (σ.header object).referenceCount)
    (other : σ.rootDirectoryObject ≠ some object) :
    Sound (obMakeTemporaryObject σ object) (if (directoryOf σ object).isSome then ℓ.leak object else ℓ) := by
  have checked := (sound.setPermanent counted other).deleteNameCheck object
  have same : ℓ.checked (σ.setPermanent object false) object
      = if (directoryOf σ object).isSome then ℓ.leak object else ℓ := by
    have temporary : ((σ.setPermanent object false).header object).permanent = false := by
      rw [ObState.setPermanent, ObState.header_setHeader]
    have directory : directoryOf (σ.setPermanent object false) object = directoryOf σ object :=
      directoryOf_setPermanent ..
    rw [Ledger.checked]
    apply if_congr _ rfl rfl
    rw [Removes, temporary, directory]
    exact and_iff_right rfl
  exact same ▸ checked

theorem Sound.createObject (sound : Sound σ ℓ) (target : ∀ t, body.targetObject = some t → 0 < ℓ.held t)
    (created : obCreateObject σ type info securityDescriptor body objectAllocated infoAllocated = (σ', status)) :
    Sound σ' (if status.isSuccess then
      { ℓ.setHeld σ.nextObject 1 with waiting := update ℓ.waiting σ.nextObject true } else ℓ) := by
  have unnamed : (if info.attributes.objectName = [] then none else some (⟨none, none⟩ : NameInfo)).bind
      NameInfo.directory = none := by
    split <;> rfl
  have made := sound.create ⟨1, type, false,
    if info.attributes.objectName = [] then none else some ⟨none, none⟩, securityDescriptor, none⟩ rfl unnamed target
  have unheld : ℓ.held σ.nextObject = 0 := by
    have none := sound.unborn (Nat.le_refl σ.nextObject)
    rw [sum] at none
    omega
  rw [obCreateObject] at created
  split at created
  next =>
    obtain ⟨rfl, rfl⟩ := Prod.mk.inj created
    exact sound
  next =>
    dsimp only at created
    split at created
    next =>
      obtain ⟨rfl, rfl⟩ := Prod.mk.inj created
      have only : 0 < (ℓ.setHeld σ.nextObject 1).held σ.nextObject := by
        rw [held_setHeld]
        exact Nat.one_pos
      have given := made.dereference only (by
        intro l found
        have held : 0 < ℓ.held σ.nextObject := by
          by_cases here : l = σ.nextObject
          · rw [here] at found
            exact target _ ((congrArg SymbolicLink.targetObject (update_self ..)).symm.trans found)
          · exact sound.target ((congrArg SymbolicLink.targetObject (update_of_ne here ..)).symm.trans found)
        omega)
      rw [held_setHeld, setHeld_setHeld, Nat.sub_self, ← unheld, setHeld_self] at given
      exact given
    next =>
      obtain ⟨rfl, rfl⟩ := Prod.mk.inj created
      refine (made.setCreateInfo (Nat.lt_succ_self _) (some info)).rewait ?_
      intro o waits
      have unlinked : directoryOf σ o = none := by
        by_cases same : o = σ.nextObject
        · exact same ▸ (sound.unlinked_unborn (Nat.le_refl _)).1
        · rw [update_of_ne same] at waits
          exact sound.fresh waits
      exact (directoryOf_setCreateInfo ..).trans ((sound.directoryOf_made unnamed body o).trans unlinked)

theorem Sound.step (sound : Sound s.objects s.ledger) (admitted : ObAdmits s action) :
    Sound (obStep s action).objects (obStep s action).ledger := by
  cases action with
  | create type info securityDescriptor body objectAllocated infoAllocated =>
    rw [obStep]
    rcases created : obCreateObject s.objects type info securityDescriptor body objectAllocated infoAllocated with
      ⟨σ', status⟩
    have kept := sound.createObject admitted created
    dsimp only
    split
    next success =>
      rw [if_pos success] at kept
      exact kept
    next failed =>
      rw [if_neg failed] at kept
      exact kept
  | insert caller parse object info call =>
    obtain ⟨releasable, waiting, _, parses, bootstrap⟩ := admitted
    rw [obStep]
    rcases inserted : obInsertObject s.objects caller parse object info call with ⟨σ', status, handle⟩
    have kept := sound.insert releasable waiting parses bootstrap inserted
    dsimp only
    split
    next success =>
      rw [if_pos success] at kept
      exact kept
    next failed =>
      rw [if_neg failed] at kept
      exact kept
  | openByName caller parse attributes expectedType accessMode desiredAccess =>
    rw [obStep]
    rcases opened : obOpenObjectByName s.objects caller parse attributes expectedType accessMode desiredAccess with
      ⟨σ', status, handle⟩
    exact sound.openByName admitted opened
  | duplicate caller object attributes accessMode granted =>
    rw [obStep]
    rcases made : obpCreateHandle s.objects caller object attributes accessMode granted with ⟨σ', status, handle⟩
    exact sound.duplicate admitted made
  | close caller handle mode =>
    rw [obStep]
    dsimp only
    cases closed : closing s.objects caller handle mode with
    | none =>
      have unchanged := obCloseHandle_closing s.objects caller handle mode
      rw [closed] at unchanged
      dsimp only at unchanged ⊢
      rw [unchanged]
      exact sound
    | some line =>
      obtain ⟨which, target, object⟩ := line
      exact (sound.close closed).1
  | reference object =>
    exact sound.reference (sound.born (sound.counted_pos.mp admitted)) (Or.inl admitted)
  | dereference object => exact sound.dereference admitted.1 admitted.2
  | makeTemporary object => exact sound.makeTemporary admitted.1 admitted.2

end

structure Booted (σ : ObState) : Prop where
  kernel : ulCreateHandleTable 1024 true true = some σ.kernelTable
  process {p T} : σ.processTable p = some T → ulCreateHandleTable 100 true true = some T
  header (o : Object) : (σ.header o).referenceCount = 0 ∧ directoryOf σ o = none
  entries (d : Object) : σ.entries d = []
  link (l : Object) : (σ.link l).targetObject = none
  root : σ.rootDirectoryObject = none
  nextObject : σ.nextObject = 0
  deleted (o : Object) : σ.deleted o = 0

def Ledger.blank : Ledger := ⟨fun _ => 0, [], fun _ => 0, fun _ => false⟩

def ObSystem.boot (σ : ObState) : ObSystem := ⟨σ, .blank, fun _ => none⟩

theorem blank_created {T : ObjectTable} (created : ulCreateHandleTable capacity true true = some T) :
    Blank T ∧ T.maxEntries = capacity := by
  rw [ulCreateHandleTable] at created
  split at created
  next => cases created
  next =>
    simp only [Bool.not_true, Bool.false_eq_true, if_false] at created
    obtain rfl := Option.some.inj created
    exact ⟨fun _ _ => ⟨rfl, rfl⟩, rfl⟩

theorem Booted.sound (booted : Booted σ) : Sound σ .blank := by
  have created : ∀ {which T}, σ.table which = some T → ∃ capacity, 2 ≤ capacity ∧ capacity ≤ 1024 ∧
      ulCreateHandleTable capacity true true = some T := by
    intro which T table
    cases which with
    | none =>
      obtain rfl := Option.some.inj table
      exact ⟨1024, by decide, by decide, booted.kernel⟩
    | some p => exact ⟨100, by decide, by decide, booted.process table⟩
  have sums : ∀ o, blank.sum σ o = 0 := by
    intro o
    rw [sum, linked, (booted.header o).2]
    rfl
  constructor
  case tables =>
    constructor
    case accounted =>
      intro which T table
      obtain ⟨capacity, positive, small, created⟩ := created table
      exact ⟨_, accounted_create positive (by omega) created⟩
    case blank =>
      intro which T table
      obtain ⟨capacity, _, _, created⟩ := created table
      exact (blank_created created).1
    case small =>
      intro which T table
      obtain ⟨capacity, _, small, created⟩ := created table
      exact (blank_created created).2 ▸ small
    case absent => exact fun _ => rfl
  case names =>
    constructor
    case entry =>
      intro o d
      rw [booted.entries, (booted.header o).2]
      exact iff_of_false List.not_mem_nil fun found => by cases found
    case nodup =>
      intro d
      rw [booted.entries]
      exact List.nodup_nil
    case directory =>
      intro o d entry
      rw [(booted.header o).2] at entry
      cases entry
    case named =>
      intro o d entry
      rw [(booted.header o).2] at entry
      cases entry
    case distinct =>
      intro d o o' n n' entry
      rw [(booted.header o).2] at entry
      cases entry
  case counted =>
    intro o
    rw [(booted.header o).1, sums]
    rfl
  case deleted =>
    intro o
    rw [booted.deleted, booted.nextObject]
    exact (if_neg fun born => Nat.not_lt_zero o born.1).symm
  case root =>
    intro o found
    rw [booted.root] at found
    cases found
  case target =>
    intro l o found
    rw [booted.link] at found
    cases found
  case fresh => exact fun waits => by cases waits
  case unborn => exact fun _ => sums _

def ObRun (σ : ObState) : List ObAction → ObSystem → Prop :=
  Run (Guarded ObAdmits fun s a t => t = obStep s a) (.boot σ)

theorem ObRun.sound (booted : Booted σ) (run : ObRun σ actions s) : Sound s.objects s.ledger := by
  apply Run.invariant (P := fun s : ObSystem => Sound s.objects s.ledger) _ run booted.sound
  rintro s action t sound ⟨admitted, rfl⟩
  exact sound.step admitted

end VeaOS.Ob

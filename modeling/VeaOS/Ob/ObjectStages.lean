import VeaOS.Ob.Objects

/-! What the operations on objects do, stage by stage. A reference that is taken
and given up again leaves the state as it was. -/
namespace VeaOS.Ob
open Sf Ul Function ObState

namespace ObState
variable {σ : ObState} {object : Object} {which which' : TableId} {T T' : ObjectTable}

@[simp] theorem setHeader_self : σ.setHeader object (σ.header object) = σ := by
  rw [setHeader, update_eq_self]

@[simp] theorem setHeader_setHeader : (σ.setHeader object h).setHeader object h' = σ.setHeader object h' := by
  simp only [setHeader, update_idem]

@[simp] theorem header_setHeader : (σ.setHeader object h).header object = h := update_self ..

theorem header_setHeader_ne (other : x ≠ object) : (σ.setHeader object h).header x = σ.header x :=
  update_of_ne other ..

theorem setHeader_comm (other : x ≠ object) :
    (σ.setHeader x h).setHeader object h' = (σ.setHeader object h').setHeader x h := by
  simp only [setHeader, update_comm other]

theorem namespaceAt_setHeader (type : h.type = (σ.header object).type)
    (name : h.nameInfo.bind NameInfo.name = (σ.header object).nameInfo.bind NameInfo.name) :
    (σ.setHeader object h).namespaceAt root = σ.namespaceAt root := by
  simp only [namespaceAt, Namespace.mk.injEq]
  refine ⟨?_, ?_, rfl, rfl, trivial⟩
  · funext x
    by_cases same : x = object
    · rw [same, header_setHeader, type]
    · rw [header_setHeader_ne same]
  · funext x
    by_cases same : x = object
    · rw [same, header_setHeader, name]
    · rw [header_setHeader_ne same]

@[simp] theorem namespaceAt_setCount : (σ.setCount object count).namespaceAt root = σ.namespaceAt root :=
  namespaceAt_setHeader rfl rfl

@[simp] theorem table_setHeader : (σ.setHeader object h).table which = σ.table which := by
  cases which <;> rfl

theorem setTable_setTable (found : σ.table which = some T) : (σ.setTable which T').setTable which T = σ := by
  cases which with
  | none =>
    obtain rfl := Option.some.inj found
    rfl
  | some process =>
    have found : σ.processTable process = some T := found
    simp only [setTable, update_idem, ← found, update_eq_self]

@[simp] theorem table_setTable : (σ.setTable which T).table which = some T := by
  cases which with
  | none => rfl
  | some process => exact update_self ..

theorem table_setTable_ne (other : which' ≠ which) : (σ.setTable which T).table which' = σ.table which' := by
  cases which with
  | none =>
    cases which' with
    | none => exact absurd rfl other
    | some process => rfl
  | some process =>
    cases which' with
    | none => rfl
    | some process' => exact update_of_ne (fun same => other (congrArg some same)) ..

theorem setTable_setHeader :
    (σ.setHeader object h).setTable which T = (σ.setTable which T).setHeader object h := by
  cases which <;> rfl

@[simp] theorem header_setTable : (σ.setTable which T).header = σ.header := by
  cases which <;> rfl

end ObState

/-- Giving up a reference that was taken does not destroy the object. -/
def Live (σ : ObState) (object : Object) : Prop :=
  0 < (σ.header object).referenceCount ∨ (σ.header object).permanent = true

theorem dereference_reference (live : Live σ x) : obDereferenceObject (obReferenceObject σ x) x = σ := by
  have back : (obReferenceObject σ x).setCount x ((σ.header x).referenceCount + 1 - 1) = σ := by
    rw [add_sub_cancel_right]
    simp only [obReferenceObject, setCount, header_setHeader, setHeader_setHeader]
    exact setHeader_self
  have count : ((obReferenceObject σ x).header x).referenceCount = (σ.header x).referenceCount + 1 := by
    rw [obReferenceObject, setCount, header_setHeader]
  rw [obDereferenceObject]
  simp only [count, back]
  split
  next zero =>
    have permanent := live.resolve_left (by omega)
    rw [if_pos permanent]
  next => rfl

section
variable {N : Namespace} {parse : Object → List Char → ParseOutcome} {request : LookupRequest}

inductive Found (N : Namespace) (parse : Object → List Char → ParseOutcome) (request : LookupRequest) :
    Object → Prop
  | start : Found N parse request (request.start N)
  | root : Found N parse request N.root
  | entry (member : o ∈ N.entries d) : Found N parse request o
  | target (link : (N.link l).targetObject = some o) : Found N parse request o
  | parsed (outcome : parse p path = .resolved (some o)) : Found N parse request o

theorem reparseDirectory_found (current : Found N parse request ctx.currentDirectory) :
    Found N parse request (reparseDirectory N request ctx) := by
  rw [reparseDirectory]
  split
  next => exact .root
  next =>
    cases given : request.rootObject with
    | none => exact current
    | some root =>
      have start : request.start N = root := by rw [LookupRequest.start, given]; rfl
      exact start ▸ .start

def Leads (N : Namespace) (parse : Object → List Char → ParseOutcome) (request : LookupRequest) :
    LookupContext ⊕ LookupResult → Prop
  | .inl next => Found N parse request next.currentDirectory
  | .inr result => Found N parse request result.currentDirectory ∧
      ∀ o, result.foundObject = some o → result.status = .success ∧ Found N parse request o

theorem finishLookup_leads (found : Found N parse request object) (here : Found N parse request current) :
    Leads N parse request (.inr (finishLookup N request object current)) := by
  rw [finishLookup]
  split
  next => exact ⟨here, nofun⟩
  next =>
    refine ⟨here, fun o result => ⟨rfl, ?_⟩⟩
    exact Option.some.inj result ▸ found

theorem countReparse_leads (current : Found N parse request ctx.currentDirectory)
    (found : Found N parse request next.currentDirectory) : Leads N parse request (countReparse ctx next) := by
  rw [countReparse]
  split
  next => exact ⟨current, fun _ found => by cases found⟩
  next => exact found

theorem enterObject_leads (found : Found N parse request object) :
    Leads N parse request (enterObject N request ctx object) := by
  rw [enterObject]
  split
  next => exact finishLookup_leads found found
  next => exact found

theorem lookupStep_leads (current : Found N parse request ctx.currentDirectory) :
    Leads N parse request (lookupStep N parse request ctx) := by
  rw [lookupStep]
  split
  next =>
    rw [obpParseSymbolicLink]
    cases link : (N.link ctx.currentDirectory).targetObject with
    | some target => exact countReparse_leads current (.target link)
    | none => exact countReparse_leads current (reparseDirectory_found current)
  next =>
    split
    next => exact ⟨current, fun _ found => by cases found⟩
    next outcome => exact finishLookup_leads (.parsed outcome) current
    next => exact countReparse_leads current (reparseDirectory_found current)
    next => exact ⟨current, fun _ found => by cases found⟩
  next => exact ⟨current, fun _ found => by cases found⟩
  next =>
    split
    next => exact finishLookup_leads current current
    next =>
      split
      next => exact ⟨current, fun _ found => by cases found⟩
      next found => exact enterObject_leads (.entry (List.mem_of_find?_eq_some found))

theorem lookupObjectName_found (N : Namespace) (parse : Object → List Char → ParseOutcome)
    (request : LookupRequest) : Leads N parse request (.inr (lookupObjectName N parse request)) := by
  have leads : ∀ ctx, Found N parse request ctx.currentDirectory →
      Leads N parse request (.inr (lookupLoop N parse request ctx)) := by
    intro ctx
    induction ctx using lookupLoop.induct N parse request with
    | case1 ctx result stepped =>
      intro current
      rw [lookupLoop_done stepped, ← stepped]
      exact lookupStep_leads current
    | case2 ctx next stepped ih =>
      intro current
      have leads := lookupStep_leads current
      rw [stepped] at leads
      rw [lookupLoop_next stepped]
      exact ih leads
  exact leads _ .start

end

/-- An entry of a table that a handle stands for. -/
def OpenAt (σ : ObState) (which : TableId) (i : Nat) (object : Object) : Prop :=
  ∃ T, σ.table which = some T ∧ 0 < i ∧ i < T.maxEntries ∧ (T.entries i).object = some object

theorem obReferenceObjectByHandle_open {σ : ObState} {process : Option Nat} {typeOf : Object → ObjectType}
    {desired : AccessMask} {expected : Option ObjectType}
    (referenced : obReferenceObjectByHandle typeOf σ.kernelTable (process.bind σ.processTable) handle desired
      expected mode = (.success, some o)) : ∃ which i, OpenAt σ which i o := by
  rw [obReferenceObjectByHandle] at referenced
  split at referenced
  next => cases referenced
  next =>
    rcases selected : obpGetHandleTable σ.kernelTable (process.bind σ.processTable) handle mode with ⟨_ | T, index⟩
    · rw [selected] at referenced
      cases referenced
    · rw [selected] at referenced
      dsimp only at referenced
      split at referenced
      next => cases referenced
      next inside =>
        cases object : (T.entries (handleToIndex index)).object with
        | none =>
          rw [object] at referenced
          cases referenced
        | some found =>
          rw [object] at referenced
          dsimp only at referenced
          split at referenced
          next => cases referenced
          next =>
            split at referenced
            next => cases referenced
            next =>
              obtain rfl := Option.some.inj (Prod.mk.inj referenced).2
              have table : ∃ which, σ.table which = some T := by
                rw [obpGetHandleTable] at selected
                split at selected
                next => exact ⟨none, (Prod.mk.inj selected).1⟩
                next =>
                  have selected := (Prod.mk.inj selected).1
                  cases process with
                  | none => cases selected
                  | some process => exact ⟨some process, selected⟩
              obtain ⟨which, table⟩ := table
              exact ⟨which, _, T, table, by omega, by omega, object⟩

/-- Every object that a lookup can come to is live. -/
structure Sheltered (σ : ObState) (parse : Object → List Char → ParseOutcome) : Prop where
  root {o} : σ.rootDirectoryObject = some o → Live σ o
  entry {o d} : o ∈ σ.entries d → Live σ o
  target {o l} : (σ.link l).targetObject = some o → Live σ o
  parsed {o p path} : parse p path = .resolved (some o) → Live σ o
  handle {o which i} : OpenAt σ which i o → Live σ o

theorem referenceRootDirectory_open (referenced : referenceRootDirectory σ caller call = (.success, some o)) :
    ∃ which i, OpenAt σ which i o := by
  rw [referenceRootDirectory] at referenced
  split at referenced
  next => cases referenced
  next =>
    rcases found : obReferenceObjectByHandle (fun object => (σ.header object).type) σ.kernelTable
      (caller.process.bind σ.processTable) call.attributes.rootDirectory 0 none call.accessMode with ⟨status, object⟩
    rw [found] at referenced
    obtain ⟨status_eq, rfl⟩ := Prod.mk.inj referenced
    cases status with
    | success => exact obReferenceObjectByHandle_open found
    | invalidParameter | invalidHandle | objectTypeMismatch | accessDenied => cases status_eq

theorem referenceRootDirectory_success (σ : ObState) (caller : Caller) (call : LookupCall)
    (success : (referenceRootDirectory σ caller call).1.isSuccess = true) :
    (referenceRootDirectory σ caller call).1 = .success := by
  rw [referenceRootDirectory] at success ⊢
  split
  next => rfl
  next given =>
    rw [if_neg given] at success
    dsimp only at success ⊢
    generalize (obReferenceObjectByHandle (fun object => (σ.header object).type) σ.kernelTable
      (caller.process.bind σ.processTable) call.attributes.rootDirectory 0 none call.accessMode).1 = status at success
    cases status with
    | success => rfl
    | invalidParameter | invalidHandle | objectTypeMismatch | accessDenied => cases success

theorem Live.reference (live : Live σ o) : Live (obReferenceObject σ x) o := by
  rw [Live, obReferenceObject, setCount]
  by_cases same : o = x
  · subst same
    rw [header_setHeader]
    rcases live with counted | permanent
    · exact Or.inl (by dsimp only; omega)
    · exact Or.inr permanent
  · rw [header_setHeader_ne same]
    exact live

theorem reference_comm (σ : ObState) (x y : Object) :
    obReferenceObject (obReferenceObject σ x) y = obReferenceObject (obReferenceObject σ y) x := by
  by_cases same : x = y
  · rw [same]
  · simp only [obReferenceObject, setCount, header_setHeader_ne same,
      header_setHeader_ne (Ne.symm same), setHeader_comm same]

theorem obpLookupObjectName_spec (sheltered : Sheltered σ parse)
    (looked : obpLookupObjectName σ caller parse call = (σ', result)) :
    σ' = (result.foundObject.map (obReferenceObject σ)).getD σ ∧
      (∀ o, result.foundObject = some o → result.status = .success ∧ Live σ o) ∧
      (result.status.isSuccess = true → ∃ root rootObject, σ.rootDirectoryObject = some root ∧
        referenceRootDirectory σ caller call = (.success, rootObject) ∧
        result = lookupObjectName (σ.namespaceAt root) parse (call.request rootObject)) := by
  rw [obpLookupObjectName] at looked
  split at looked
  next =>
    obtain ⟨rfl, rfl⟩ := Prod.mk.inj looked
    exact ⟨rfl, nofun, nofun⟩
  next root root_eq =>
    split at looked
    next rootObject referenced =>
      obtain ⟨state, rfl⟩ := Prod.mk.inj looked
      have start : ∀ o, rootObject = some o → Live σ o := by
        rintro o rfl
        obtain ⟨which, i, opened⟩ := referenceRootDirectory_open referenced
        exact sheltered.handle opened
      refine ⟨?_, ?_, fun _ => ⟨root, rootObject, root_eq, referenced, rfl⟩⟩
      · rw [← state]
        cases rootObject with
        | none => rfl
        | some x =>
          have live := start x rfl
          cases (lookupObjectName (σ.namespaceAt root) parse (call.request (some x))).foundObject with
          | none => exact dereference_reference live
          | some f =>
            calc obDereferenceObject (obReferenceObject (obReferenceObject σ x) f) x
                = obDereferenceObject (obReferenceObject (obReferenceObject σ f) x) x := by
                  rw [reference_comm]
              _ = obReferenceObject σ f := dereference_reference live.reference
      · intro o found
        obtain ⟨status, found⟩ := (lookupObjectName_found _ _ _).2 o found
        refine ⟨status, ?_⟩
        cases found with
        | start =>
          cases rootObject with
          | none => exact sheltered.root root_eq
          | some x => exact start x rfl
        | root => exact sheltered.root root_eq
        | entry member => exact sheltered.entry member
        | target link => exact sheltered.target link
        | parsed outcome => exact sheltered.parsed outcome
    next status object failed referenced =>
      obtain ⟨rfl, rfl⟩ := Prod.mk.inj looked
      refine ⟨rfl, nofun, fun success => absurd ?_ failed⟩
      have succeeded := referenceRootDirectory_success σ caller call
      rw [referenced] at succeeded
      exact succeeded success

/-- The lookup that looks for the place of a name. -/
def Places (σ : ObState) (caller : Caller) (parse : Object → List Char → ParseOutcome) (object : Object)
    (info : CreateInfo) (result : LookupResult) : Prop :=
  let call : LookupCall := ⟨info.attributes, info.processorMode, some (σ.header object).type, true⟩
  ∃ root rootObject, σ.rootDirectoryObject = some root ∧
    referenceRootDirectory σ caller call = (.success, rootObject) ∧
    result = lookupObjectName (σ.namespaceAt root) parse (call.request rootObject)

/-- The name that an object is stored under. -/
def storedName (info : CreateInfo) : List Char := (finalName info.attributes.objectName).takeWhile (· != '\x00')

def enterDirectory (σ : ObState) (directory object : Object) (name : List Char) : ObState :=
  (obReferenceObject (σ.setNameInfo object (some ⟨some directory, some name⟩)) object).setEntries directory
    (σ.entries directory ++ [object])

/-- The outcomes of the name stage that succeed. -/
inductive Named (σ : ObState) (caller : Caller) (parse : Object → List Char → ParseOutcome) (object : Object)
    (info : CreateInfo) : ObState → Prop
  | unnamed (name : info.attributes.objectName = []) : Named σ caller parse object info σ
  | root (first : σ.rootDirectoryObject = none) (type : (σ.header object).type = .directory)
      (name : info.attributes.objectName = ['/']) :
      Named σ caller parse object info { clearDirectory σ object with rootDirectoryObject := some object }
  | entry (name : info.attributes.objectName ≠ []) (places : Places σ caller parse object info result)
      (success : result.status.isSuccess = true) (missing : result.foundObject = none)
      (type : (σ.header result.currentDirectory).type = .directory)
      (nameInfo : (σ.header object).nameInfo.isSome = true)
      (distinct : ∀ existing ∈ σ.entries result.currentDirectory, ∀ other,
        ((σ.setNameInfo object (some ⟨some result.currentDirectory, some (storedName info)⟩)).header
          existing).nameInfo.bind NameInfo.name = some other → sameName other (storedName info) = false) :
      Named σ caller parse object info (enterDirectory σ result.currentDirectory object (storedName info))
  | outside (name : info.attributes.objectName ≠ []) (places : Places σ caller parse object info result)
      (success : result.status.isSuccess = true) (missing : result.foundObject = none)
      (type : (σ.header result.currentDirectory).type ≠ .directory)
      (nameInfo : (σ.header object).nameInfo.isSome = true) :
      Named σ caller parse object info (σ.setNameInfo object (some ⟨none, some (storedName info)⟩))
  | nameless (name : info.attributes.objectName ≠ []) (places : Places σ caller parse object info result)
      (success : result.status.isSuccess = true) (missing : result.foundObject = none)
      (type : (σ.header result.currentDirectory).type ≠ .directory)
      (nameInfo : (σ.header object).nameInfo = none) : Named σ caller parse object info σ

theorem obpInsertDirectory_spec (named : (σ.header object).nameInfo = some ⟨parent, some name⟩)
    (inserted : obpInsertDirectory σ directory object entryAllocated = (σ', status)) :
    (status.isSuccess = true →
      σ' = (obReferenceObject σ object).setEntries directory (σ.entries directory ++ [object]) ∧
      ∀ existing ∈ σ.entries directory, ∀ other,
        (σ.header existing).nameInfo.bind NameInfo.name = some other → sameName other name = false) ∧
    (status.isSuccess = false → σ' = σ) := by
  rw [obpInsertDirectory, named] at inserted
  dsimp only at inserted
  split at inserted
  next =>
    obtain ⟨rfl, rfl⟩ := Prod.mk.inj inserted
    exact ⟨nofun, fun _ => rfl⟩
  next distinct =>
    split at inserted
    next =>
      obtain ⟨rfl, rfl⟩ := Prod.mk.inj inserted
      exact ⟨nofun, fun _ => rfl⟩
    next =>
      obtain ⟨rfl, rfl⟩ := Prod.mk.inj inserted
      refine ⟨fun _ => ⟨rfl, ?_⟩, nofun⟩
      intro existing member other stored
      by_contra same
      apply distinct
      rw [List.any_eq_true]
      refine ⟨existing, member, ?_⟩
      rw [stored]
      simpa using same

/-- A name stage that fails has at most written the name information. -/
theorem insertName_spec (sheltered : Sheltered σ parse) (name : info.attributes.objectName ≠ [])
    (inserted : insertName σ caller parse object info call = (σ', status)) :
    (status.isSuccess = true → Named σ caller parse object info σ') ∧
    (status.isSuccess = false → ∃ nameInfo, nameInfo.isSome = (σ.header object).nameInfo.isSome ∧
      σ' = σ.setNameInfo object nameInfo) := by
  rw [insertName] at inserted
  rcases looked : obpLookupObjectName σ caller parse
    ⟨info.attributes, info.processorMode, some (σ.header object).type, true⟩ with ⟨σ₁, result⟩
  obtain ⟨state, live, places⟩ := obpLookupObjectName_spec sheltered looked
  have unchanged : σ = σ.setNameInfo object (σ.header object).nameInfo := by
    exact setHeader_self.symm
  rw [looked] at inserted
  dsimp only at inserted
  split at inserted
  next found status_eq found_eq =>
    rw [found_eq] at state
    obtain ⟨rfl, rfl⟩ := Prod.mk.inj inserted
    obtain rfl := state
    refine ⟨nofun, fun _ => ⟨_, rfl, ?_⟩⟩
    calc obDereferenceObject (obReferenceObject σ found) found = σ := dereference_reference (live found found_eq).2
      _ = σ.setNameInfo object (σ.header object).nameInfo := unchanged
  next other =>
    have missing : result.foundObject = none := by
      cases found : result.foundObject with
      | none => rfl
      | some o => exact (other o (live o found).1 found).elim
    rw [missing] at state
    obtain rfl : σ₁ = σ := state
    split at inserted
    next failed =>
      obtain ⟨rfl, rfl⟩ := Prod.mk.inj inserted
      refine ⟨fun success => ?_, fun _ => ⟨_, rfl, unchanged⟩⟩
      rw [success] at failed
      cases failed
    next succeeded =>
      have success : result.status.isSuccess = true := by simpa using succeeded
      have places : Places σ₁ caller parse object info result := places success
      cases nameInfo : (σ₁.header object).nameInfo with
      | none =>
        simp only [nameInfo, Option.isNone_none, if_true] at inserted
        split at inserted
        next type =>
          rw [obpInsertDirectory, nameInfo] at inserted
          obtain ⟨rfl, rfl⟩ := Prod.mk.inj inserted
          exact ⟨nofun, fun _ => ⟨none, rfl, nameInfo ▸ unchanged⟩⟩
        next type =>
          obtain ⟨rfl, rfl⟩ := Prod.mk.inj inserted
          exact ⟨fun _ => .nameless name places success missing type nameInfo, nofun⟩
      | some old =>
        have present : (σ₁.header object).nameInfo.isSome = true := by rw [nameInfo]; rfl
        simp only [nameInfo, Option.isNone_some, Bool.false_eq_true, if_false] at inserted
        split at inserted
        next unallocated =>
          obtain ⟨rfl, rfl⟩ := Prod.mk.inj inserted
          exact ⟨nofun, fun _ => ⟨some old, rfl, nameInfo ▸ unchanged⟩⟩
        next σ₂ written =>
          split at written
          next => cases written
          next =>
            obtain rfl := Option.some.inj written
            split at inserted
            next type =>
              have written : ((σ₁.setNameInfo object (some ⟨some result.currentDirectory,
                  some (storedName info)⟩)).header object).nameInfo
                  = some ⟨some result.currentDirectory, some (storedName info)⟩ := by
                rw [setNameInfo, header_setHeader]
              obtain ⟨entered, kept⟩ := obpInsertDirectory_spec written inserted
              refine ⟨fun succeeded => ?_, fun failed =>
                ⟨some ⟨some result.currentDirectory, some (storedName info)⟩, rfl, kept failed⟩⟩
              obtain ⟨rfl, distinct⟩ := entered succeeded
              exact .entry name places success missing type present distinct
            next type =>
              obtain ⟨rfl, rfl⟩ := Prod.mk.inj inserted
              exact ⟨fun _ => .outside name places success missing type present, nofun⟩

end VeaOS.Ob

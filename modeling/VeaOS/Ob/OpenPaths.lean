import VeaOS.Ob.NameQuery

/-! The paths of objects that are open. An object keeps its path from the root
while it is open, as long as no close takes away a name on it. -/
namespace VeaOS.Ob
open Sf Ul Transition Option

section Root
variable {σ σ' : ObState} {object : Object}

theorem root_obDereferenceObject (σ : ObState) (object : Object) :
    (obDereferenceObject σ object).rootDirectoryObject = σ.rootDirectoryObject := by
  have removed : ∀ τ : ObState, (obpRemoveEntryDirectory τ object).rootDirectoryObject = τ.rootDirectoryObject := by
    intro τ
    rw [obpRemoveEntryDirectory]
    split
    next => rfl
    next => split <;> rfl
  rw [obDereferenceObject]
  split
  next =>
    split
    next => rfl
    next => exact removed _
  next => rfl

theorem root_obpDeleteNameCheck (σ : ObState) (object : Object) :
    (obpDeleteNameCheck σ object).rootDirectoryObject = σ.rootDirectoryObject := by
  rw [obpDeleteNameCheck]
  split
  next => rfl
  next =>
    split
    next => rfl
    next =>
      rw [obpRemoveEntryDirectory]
      split
      next => rfl
      next => split <;> rfl

theorem root_settled (σ : ObState) (object : Object) (call : InsertCall) :
    (settled σ object call).rootDirectoryObject = σ.rootDirectoryObject := by
  have references : ∀ n, ((obReferenceObject · object)^[n] σ).rootDirectoryObject = σ.rootDirectoryObject := by
    intro n
    induction n with
    | zero => rfl
    | succ n ih =>
      rw [Function.iterate_succ_apply']
      exact ih
  rw [settled]
  split
  next => exact references _
  next => exact root_obDereferenceObject σ object

theorem Named.root_kept (named : Named σ caller parse object info σ') (root : σ.rootDirectoryObject = some r) :
    σ'.rootDirectoryObject = some r := by
  cases named with
  | root first =>
    rw [first] at root
    cases root
  | unnamed | nameless | outside | entry => exact root

/-- The root directory stays what it is. -/
theorem root_obStep {s : ObSystem} (sound : Sound s.objects s.ledger) (admitted : ObAdmits s action)
    (root : s.objects.rootDirectoryObject = some r) : (obStep s action).objects.rootDirectoryObject = some r := by
  cases action with
  | create type info securityDescriptor body objectAllocated infoAllocated =>
    rw [obStep]
    rcases created : obCreateObject s.objects type info securityDescriptor body objectAllocated infoAllocated with
      ⟨σ', status⟩
    have kept : σ'.rootDirectoryObject = some r := by
      rw [obCreateObject] at created
      split at created
      next => exact (Prod.mk.inj created).1 ▸ root
      next =>
        dsimp only at created
        split at created
        next => exact (Prod.mk.inj created).1 ▸ (root_obDereferenceObject ..).trans root
        next => exact (Prod.mk.inj created).1 ▸ root
    dsimp only
    split <;> exact kept
  | insert caller parse object info call =>
    obtain ⟨releasable, waiting, _, parses, bootstrap⟩ := admitted
    have counted := sound.counted_pos.mpr (Ledger.sum_pos_of_held s.objects releasable.1)
    rw [obStep]
    rcases inserted : obInsertObject s.objects caller parse object info call with ⟨σ', status, handle⟩
    dsimp only
    cases success : status.isSuccess with
    | false =>
      obtain ⟨nameInfo, _, _, _, rfl⟩ :=
        obInsertObject_failed (sound.sheltered parses) sound.tables counted inserted success
      exact (root_obDereferenceObject ..).trans root
    | true =>
      obtain ⟨σ₁, σ₂, handled, named, rfl, _⟩ := sound.inserted releasable waiting parses bootstrap inserted success
      exact (root_settled ..).trans (named.root_kept (handled.rest.2.2.trans root))
  | openByName caller parse attributes expectedType accessMode desiredAccess =>
    rw [obStep]
    rcases opened : obOpenObjectByName s.objects caller parse attributes expectedType accessMode desiredAccess with
      ⟨σ', status, handle⟩
    rcases obOpenObjectByName_spec (sound.sheltered admitted) opened with ⟨rfl, _⟩ |
      ⟨_, _, found, σ₂, _, _, _, live, handled, rfl⟩
    · exact root
    · exact (root_obDereferenceObject ..).trans (handled.rest.2.2.trans root)
  | duplicate caller object attributes accessMode granted =>
    rw [obStep]
    rcases made : obpCreateHandle s.objects caller object attributes accessMode granted with ⟨σ', status, handle⟩
    have live : Live s.objects object :=
      Or.inl (sound.counted_pos.mpr (Ledger.sum_pos_of_handle s.objects admitted))
    obtain ⟨created, failed⟩ := obpCreateHandle_spec live made
    cases success : status.isSuccess with
    | true => exact (created success).1.rest.2.2.trans root
    | false => exact (failed success).1 ▸ root
  | close caller handle mode =>
    have result := obCloseHandle_closing s.objects caller handle mode
    rw [obStep]
    cases closed : closing s.objects caller handle mode with
    | none =>
      rw [closed] at result
      exact (congrArg ObState.rootDirectoryObject result).trans root
    | some line =>
      rw [closed] at result
      obtain ⟨T, T', status, _, _, result⟩ := result
      dsimp only
      rw [result, root_obDereferenceObject, root_obpDeleteNameCheck]
      cases line.1 <;> exact root
  | reference object => exact root
  | dereference object => exact (root_obDereferenceObject ..).trans root
  | makeTemporary object => exact (root_obpDeleteNameCheck ..).trans root

end Root

/-- The directories above an object, and the object itself. -/
def Beneath (σ : ObState) : Object → Object → Prop :=
  Relation.ReflTransGen fun d o => directoryOf σ o = some d

/-- The condition on the steps. When the name of an object is taken out of its
directory, nothing stays open there or beneath it. -/
def KeepsNames (s : ObSystem) (a : ObAction) : Prop :=
  ∀ y, unnames s a = some y → ∀ o, Beneath s.objects y o → match a with
    | .close .. => s.ledger.handleCount o = if o = y then 1 else 0
    | _ => s.ledger.handleCount o = 0

def KeptRun : ObSystem → List ObAction → ObSystem → Prop :=
  Run (Guarded (fun s a => ObAdmits s a ∧ KeepsNames s a) fun s a t => t = obStep s a)

/-- A handle to the object is open in every state that a run comes through. -/
def OpenThroughout (o : Object) : ObSystem → List ObAction → Prop
  | s, [] => 0 < s.ledger.handleCount o
  | s, a :: rest => 0 < s.ledger.handleCount o ∧ OpenThroughout o (obStep s a) rest

section Steps
variable {s : ObSystem} {a : ObAction} {o x : Object}

theorem OpenThroughout.first (opened : OpenThroughout o s actions) : 0 < s.ledger.handleCount o := by
  cases actions with
  | nil => exact opened
  | cons => exact opened.1

theorem KeepsNames.closesLast (keeps : KeepsNames s a) : ClosesLast s a := by
  cases a with
  | close caller handle mode =>
    intro which target object closed removes
    have taken : unnames s (.close caller handle mode) = some object := by
      rw [unnames, closed]
      exact if_pos removes
    exact (keeps object taken object .refl).trans (if_pos rfl)
  | _ => trivial

/-- Nothing is open any more at or beneath an object whose name was taken. -/
theorem KeepsNames.closed (sound : Sound s.objects s.ledger) (keeps : KeepsNames s a)
    (taken : unnames s a = some x) (beneath : Beneath s.objects x o) : (obStep s a).ledger.handleCount o = 0 := by
  have before := keeps x taken o beneath
  cases a with
  | close caller handle mode =>
    rw [unnames] at taken
    rw [obStep]
    cases closing_eq : closing s.objects caller handle mode with
    | none =>
      rw [closing_eq] at taken
      cases taken
    | some line =>
      obtain ⟨which, target, object⟩ := line
      rw [closing_eq, bind_some] at taken
      dsimp only at taken ⊢
      split at taken
      next =>
        obtain rfl := some.inj taken
        rw [Ledger.handleCount, (Ledger.checked_rest ..).2.1, ← Ledger.handleCount]
        obtain ⟨_, count⟩ := sound.close closing_eq
        by_cases same : o = object
        · subst same
          rw [if_pos rfl] at before
          omega
        · rw [if_neg same] at before
          have fewer : (s.ledger.closeHandle which (handleToIndex target)).handleCount o ≤ s.ledger.handleCount o :=
            List.filter_sublist.countP_le
          omega
      next => cases taken
  | makeTemporary object =>
    have ledger : (obStep s (.makeTemporary object)).ledger.handleCount o = s.ledger.handleCount o := by
      rw [obStep]
      dsimp only
      split <;> rfl
    exact ledger.trans before
  | create | insert | openByName | duplicate | reference | dereference => cases taken

/-- A name that is not taken away stays. -/
theorem named_obStep (sound : Sound s.objects s.ledger) (right : s.NamedRight) (admitted : ObAdmits s a)
    (named : s.named x = some entry) (kept : unnames s a ≠ some x) : (obStep s a).named x = some entry := by
  have linked : (directoryOf s.objects x).isSome = true := by
    rw [right x] at named
    obtain ⟨d, directory, _⟩ := map_eq_some_iff.mp named
    rw [directory, isSome_some]
  cases a with
  | create type info securityDescriptor body objectAllocated infoAllocated =>
    rw [obStep]
    dsimp only
    split <;> exact named
  | insert caller parse object info call =>
    have other : x ≠ object := by
      rintro rfl
      rw [sound.fresh admitted.2.1] at linked
      cases linked
    rw [obStep]
    dsimp only
    split
    next =>
      dsimp only
      cases directoryOf (obInsertObject s.objects caller parse object info call).1 object with
      | none => exact named
      | some d => exact (Function.update_of_ne other ..).trans named
    next => exact named
  | close caller handle mode =>
    rw [obStep]
    rw [unnames] at kept
    cases closing_eq : closing s.objects caller handle mode with
    | none => exact named
    | some line =>
      obtain ⟨which, target, object⟩ := line
      rw [closing_eq, bind_some] at kept
      dsimp only at kept ⊢
      split
      next gone =>
        refine (Function.update_of_ne ?_ ..).trans named
        rintro rfl
        exact kept (if_pos ⟨gone.2, linked⟩)
      next => exact named
  | makeTemporary object =>
    refine (Function.update_of_ne ?_ ..).trans named
    rintro rfl
    exact kept (if_pos linked)
  | openByName | duplicate | reference | dereference => exact named

/-- The path of an object leads to it as long as no name on it is taken away. -/
theorem Located.step (sound : Sound s.objects s.ledger) (right : s.NamedRight) (admitted : ObAdmits s a)
    (after : Sound (obStep s a).objects (obStep s a).ledger) (right' : (obStep s a).NamedRight)
    (root : s.objects.rootDirectoryObject = some r) (located : Located s.objects r o names)
    (kept : ∀ x, Beneath s.objects x o → unnames s a ≠ some x) : Located (obStep s a).objects r o names := by
  induction located with
  | root => exact .root (after.root (root_obStep sound admitted root)).2.1
  | @entry d names o n above other entry name plain ih =>
    have stays : (obStep s a).named o = some (d, n) := by
      refine named_obStep sound right admitted ?_ (kept o .refl)
      rw [right o, entry, name]
      rfl
    rw [right' o, map_eq_some_iff] at stays
    obtain ⟨d', entry', pair⟩ := stays
    obtain ⟨rfl, same⟩ := Prod.mk.inj pair
    obtain ⟨n', name'⟩ := after.names.named entry'
    rw [name', getD_some] at same
    subst same
    exact .entry (ih fun x beneath => kept x (beneath.tail entry)) other entry' name' plain

end Steps

/-- What a run from a state keeps: its names, and the paths of what stays open. -/
structure RunKeeps (s : ObSystem) : Prop where
  sound : Sound s.objects s.ledger
  right : s.NamedRight

theorem RunKeeps.step (keeps : RunKeeps s) (admitted : ObAdmits s a) (kept : KeepsNames s a) :
    RunKeeps (obStep s a) :=
  ⟨keeps.sound.step admitted, NamedRight.step keeps.sound keeps.right admitted kept.closesLast⟩

theorem KeptRun.located (run : KeptRun s actions t) (keeps : RunKeeps s)
    (root : s.objects.rootDirectoryObject = some r) (located : Located s.objects r o names)
    (opened : OpenThroughout o s actions) :
    t.objects.rootDirectoryObject = some r ∧ Located t.objects r o names := by
  induction run with
  | refl => exact ⟨root, located⟩
  | @next s a t actions u head tail ih =>
    obtain ⟨⟨admitted, kept⟩, rfl⟩ := head
    have after := keeps.step admitted kept
    refine ih after (root_obStep keeps.sound admitted root) ?_ opened.2
    refine located.step keeps.sound keeps.right admitted after.sound after.right root fun x beneath taken => ?_
    have closed := kept.closed keeps.sound taken beneath
    exact Nat.ne_of_gt opened.2.first closed

theorem KeptRun.keeps (run : KeptRun s actions t) (keeps : RunKeeps s) : RunKeeps t := by
  apply Run.invariant (P := RunKeeps) _ run keeps
  rintro s a t keeps ⟨⟨admitted, kept⟩, rfl⟩
  exact keeps.step admitted kept

/-- An open object is found by its name in its directory, and by a lookup
relative to it; an object without a name is not. -/
structure NamesOpen (s : ObSystem) : Prop where
  found {o d n} : s.named o = some (d, n) → 0 < s.ledger.handleCount o → ∀ root caseInsensitive,
    obpLookupEntryDirectory (s.objects.namespaceAt root) d n caseInsensitive = some o ∧
      (Plain n → (s.objects.header o).type.hasParseRoutine = false → ∀ parse insertMode,
        lookupObjectName (s.objects.namespaceAt root) parse ⟨n, some d, none, caseInsensitive, insertMode⟩
          = ⟨.success, some o, o⟩)
  gone {o} : s.named o = none → ∀ root d token caseInsensitive,
    obpLookupEntryDirectory (s.objects.namespaceAt root) d token caseInsensitive ≠ some o

/-- What led to an object that is open since then still leads to it. -/
def PathsOpen (s : ObSystem) (later : List ObAction) (t : ObSystem) : Prop :=
  ∀ root o names, s.objects.rootDirectoryObject = some root → Located s.objects root o names →
    OpenThroughout o s later → ∀ caller parse attributes accessMode, AnswersItself (t.objects.header o).type parse o →
      (obpLookupObjectName t.objects caller parse
        ⟨⟨0, locatedPath names, attributes⟩, accessMode, none, false⟩).2.answer = (.success, some o)

theorem keepsNames_of_none (none_taken : unnames s a = none) : KeepsNames s a :=
  fun _ taken => nomatch none_taken.symm.trans taken

section Nested

theorem obOpenObjectByName_opens (root : σ.rootDirectoryObject = some r) (absolute : attributes.rootDirectory = 0)
    (looked : lookupObjectName (σ.namespaceAt r) unparsed
      (LookupCall.request ⟨attributes, .kernelMode, none, false⟩ none) = ⟨.success, some found, d⟩)
    (made : obpCreateHandle (obReferenceObject σ found) kernelCaller found attributes.attributes .kernelMode granted
      = (σ', .success, handle)) :
    obOpenObjectByName σ kernelCaller unparsed attributes none .kernelMode granted
      = (obDereferenceObject σ' found, .success, handle) := by
  have referenced : referenceRootDirectory σ kernelCaller ⟨attributes, .kernelMode, none, false⟩ = (.success, none) :=
    if_pos absolute
  have opened : obpLookupObjectName σ kernelCaller unparsed ⟨attributes, .kernelMode, none, false⟩
      = (obReferenceObject σ found, ⟨.success, some found, d⟩) := by
    rw [obpLookupObjectName, root]
    dsimp only
    rw [referenced]
    dsimp only
    rw [looked]
    rfl
  rw [obOpenObjectByName, opened]
  dsimp only
  rw [show obpCheckAccess (obReferenceObject σ found) kernelCaller found .kernelMode none granted = some granted from rfl]
  dsimp only
  rw [made]
  rfl

/-- The state after an object was opened that has other references. -/
def openedAs (s : ObSystem) (info : CreateInfo) (found : Object) (handle : Handle) : ObSystem :=
  let σ := obDereferenceObject (obpCreateHandle (obReferenceObject s.objects found) kernelCaller found
    info.attributes.attributes .kernelMode 0).1 found
  { s with objects := σ, ledger := s.ledger.received σ kernelCaller handle }

def openAction (info : CreateInfo) : ObAction := .openByName kernelCaller unparsed info.attributes none .kernelMode 0

/-- `/d/x` with a handle, and then `/d` with a handle. -/
def openedDeep : ObSystem := openedAs deepSystem deepInfo 2 0x80000004

def openedBoth : ObSystem := openedAs openedDeep (kernelInfo ['/', 'd'] true) 1 0x80000008

theorem openedDeep_step : openedDeep = obStep deepSystem (openAction deepInfo) := by
  have looked : lookupObjectName (deepSystem.objects.namespaceAt 0) unparsed
      (LookupCall.request ⟨deepInfo.attributes, .kernelMode, none, false⟩ none) = ⟨.success, some 2, 2⟩ := by
    rw [lookupObjectName, lookupLoop_next rfl, lookupLoop_done rfl]
    rfl
  rw [openAction, obStep, obOpenObjectByName_opens rfl rfl looked rfl]
  rfl

theorem openedBoth_step : openedBoth = obStep openedDeep (openAction (kernelInfo ['/', 'd'] true)) := by
  have looked : lookupObjectName (openedDeep.objects.namespaceAt 0) unparsed
      (LookupCall.request ⟨(kernelInfo ['/', 'd'] true).attributes, .kernelMode, none, false⟩ none)
        = ⟨.success, some 1, 1⟩ := by
    rw [lookupObjectName, lookupLoop_done rfl]
    rfl
  rw [openAction, obStep, obOpenObjectByName_opens rfl rfl looked rfl]
  rfl

end Nested

end VeaOS.Ob

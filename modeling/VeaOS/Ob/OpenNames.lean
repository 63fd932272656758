import VeaOS.Ob.EntryLookup
import VeaOS.Ob.ReferenceCounts

/-! The names of objects that are open. A close takes the name of an object away
whether or not it was the last one. -/
namespace VeaOS.Ob
open Sf Ul Transition ObState

/-- The entries of the directories, and the names in them, are the same. -/
def SameNames (σ σ' : ObState) : Prop :=
  ∀ o, directoryOf σ' o = directoryOf σ o ∧ (directoryOf σ o ≠ none → nameOf σ' o = nameOf σ o)

section
variable {σ σ' σ'' : ObState} {ℓ : Ledger} {object : Object}

theorem SameNames.refl (σ : ObState) : SameNames σ σ := fun _ => ⟨rfl, fun _ => rfl⟩

theorem SameNames.trans (first : SameNames σ σ') (second : SameNames σ' σ'') : SameNames σ σ'' := by
  intro o
  obtain ⟨directory, name⟩ := first o
  obtain ⟨directory', name'⟩ := second o
  exact ⟨directory'.trans directory, fun entry => (name' (directory ▸ entry)).trans (name entry)⟩

theorem SameNames.setHeader {h : ObjectHeader} (directory : h.nameInfo.bind NameInfo.directory = directoryOf σ object)
    (name : directoryOf σ object ≠ none → h.nameInfo.bind NameInfo.name = nameOf σ object) :
    SameNames σ (σ.setHeader object h) := by
  intro o
  refine ⟨directoryOf_setHeader directory o, fun entry => ?_⟩
  by_cases same : o = object
  · rw [nameOf, same, header_setHeader]
    exact name (same ▸ entry)
  · rw [nameOf, header_setHeader_ne same, nameOf]

theorem SameNames.reference (σ : ObState) (object : Object) : SameNames σ (obReferenceObject σ object) :=
  .setHeader rfl fun _ => rfl

theorem SameNames.setTable (σ : ObState) (which : TableId) (T : ObjectTable) : SameNames σ (σ.setTable which T) := by
  intro o
  refine ⟨directoryOf_setTable o, fun _ => ?_⟩
  rw [nameOf, header_setTable, nameOf]

theorem SameNames.handled (handled : Handled σ caller object σ' handle) : SameNames σ σ' := by
  cases handled with
  | unasked => exact .refl σ
  | created => exact (SameNames.reference σ object).trans (.setTable _ _ _)

theorem SameNames.dereference (kept : directoryOf σ object = none ∨ (σ.header object).referenceCount ≠ 1) :
    SameNames σ (obDereferenceObject σ object) := by
  have counted : SameNames σ (σ.setCount object ((σ.header object).referenceCount - 1)) :=
    .setHeader rfl fun _ => rfl
  rw [obDereferenceObject]
  split
  next zero =>
    split
    next => exact counted
    next =>
      have unlinked : directoryOf σ object = none := kept.resolve_right fun other => other (by omega)
      rw [destroyObject_unlinked ((directoryOf_setCount ..).trans unlinked), setCount,
        header_setHeader, setHeader_setHeader]
      have written : ∀ h : ObjectHeader, h.nameInfo.bind NameInfo.directory = directoryOf σ object →
          SameNames σ (σ.setHeader object h) := fun _ same => .setHeader same fun entry => absurd unlinked entry
      refine written _ ?_
      rw [unlinked]
      rw [directoryOf] at unlinked
      dsimp only
      cases given : (σ.header object).nameInfo with
      | none => rfl
      | some info =>
        rw [given] at unlinked
        exact unlinked
  next => exact counted

theorem Sound.named_counted (sound : Sound σ ℓ) (held : 0 < ℓ.held object) :
    directoryOf σ object = none ∨ (σ.header object).referenceCount ≠ 1 := by
  cases entry : directoryOf σ object with
  | none => exact Or.inl rfl
  | some d =>
    have count := sound.counted object
    rw [Ledger.sum, linked, entry, Option.isSome_some, if_pos rfl] at count
    exact Or.inr (by omega)

theorem SameNames.settled (sound : Sound σ ℓ) (held : 0 < ℓ.held object) (call : InsertCall) :
    SameNames σ (settled σ object call) := by
  have created : ∀ τ : ObState, SameNames τ (τ.setCreateInfo object none) := fun _ => .setHeader rfl fun _ => rfl
  have references : ∀ n, SameNames σ ((obReferenceObject · object)^[n] σ) := by
    intro n
    induction n with
    | zero => exact .refl σ
    | succ n ih =>
      rw [Function.iterate_succ_apply']
      exact ih.trans (.reference _ _)
  rw [Ob.settled]
  split
  next => exact (references _).trans (created _)
  next => exact (SameNames.dereference (sound.named_counted held)).trans (created _)

end

/-- The name of an object is the one in its directory. -/
def ObSystem.NamedRight (s : ObSystem) : Prop :=
  ∀ o, s.named o = (directoryOf s.objects o).map fun d => (d, (nameOf s.objects o).getD [])

section
variable {s : ObSystem} {σ : ObState} {ℓ : Ledger} {object : Object}

theorem SameNames.namedRight (same : SameNames s.objects σ) (right : s.NamedRight) :
    ObSystem.NamedRight ⟨σ, ℓ, s.named⟩ := by
  intro o
  obtain ⟨directory, name⟩ := same o
  have before := right o
  dsimp only
  rw [directory, before]
  cases entry : directoryOf s.objects o with
  | none => rfl
  | some d => rw [name (by rw [entry]; nofun)]

theorem ObSystem.NamedRight.update {entry : Option (Object × List Char)} (right : s.NamedRight)
    (others : ∀ o, o ≠ object → directoryOf σ o = directoryOf s.objects o ∧
      (directoryOf s.objects o ≠ none → nameOf σ o = nameOf s.objects o))
    (written : entry = (directoryOf σ object).map fun d => (d, (nameOf σ object).getD [])) :
    ObSystem.NamedRight ⟨σ, ℓ, Function.update s.named object entry⟩ := by
  intro o
  dsimp only
  by_cases same : o = object
  · rw [same, Function.update_self, written]
  · obtain ⟨directory, name⟩ := others o same
    rw [Function.update_of_ne same, directory, right o]
    cases entry : directoryOf s.objects o with
    | none => rfl
    | some d => rw [name (by rw [entry]; nofun)]

theorem deleteNameCheck_names (names : Names σ) (object : Object) :
    (Removes σ object → directoryOf (obpDeleteNameCheck σ object) object = none) ∧
      (¬ Removes σ object → obpDeleteNameCheck σ object = σ) ∧
      ∀ o, o ≠ object → directoryOf (obpDeleteNameCheck σ object) o = directoryOf σ o ∧
        nameOf (obpDeleteNameCheck σ object) o = nameOf σ o := by
  rw [obpDeleteNameCheck]
  split
  next permanent =>
    refine ⟨fun removes => ?_, fun _ => rfl, fun _ _ => ⟨rfl, rfl⟩⟩
    rw [removes.1] at permanent
    cases permanent
  next temporary =>
    cases entry : (σ.header object).nameInfo.bind NameInfo.directory with
    | none =>
      have unlinked : directoryOf σ object = none := entry
      exact ⟨fun _ => unlinked, fun _ => rfl, fun _ _ => ⟨rfl, rfl⟩⟩
    | some d =>
      have linked : directoryOf σ object = some d := entry
      have removed := obpRemoveEntryDirectory_linked names linked
      dsimp only
      rw [removed]
      refine ⟨fun _ => ?_, fun kept => ?_, fun o other => ⟨?_, ?_⟩⟩
      · rw [directoryOf_clearDirectory, if_pos rfl]
      · exact absurd ⟨Bool.eq_false_of_not_eq_true temporary, by rw [linked]; rfl⟩ kept
      · rw [directoryOf_clearDirectory, if_neg other]
        rfl
      · rw [nameOf_clearDirectory]
        rfl

theorem Named.names (named : Named σ caller parse object info σ') (unlinked : directoryOf σ object = none) :
    (∀ d, directoryOf σ' object = some d → nameOf σ' object = some (storedName info)) ∧
      ∀ o, o ≠ object → directoryOf σ' o = directoryOf σ o ∧ nameOf σ' o = nameOf σ o := by
  cases named with
  | unnamed | nameless =>
    refine ⟨fun d entry => ?_, fun _ _ => ⟨rfl, rfl⟩⟩
    rw [unlinked] at entry
    cases entry
  | root first type name =>
    have cleared : ∀ o, directoryOf ({ clearDirectory σ object with rootDirectoryObject := some object } : ObState) o
        = directoryOf (clearDirectory σ object) o := fun _ => rfl
    have stored : ∀ o, nameOf ({ clearDirectory σ object with rootDirectoryObject := some object } : ObState) o
        = nameOf (clearDirectory σ object) o := fun _ => rfl
    refine ⟨fun d entry => ?_, fun o other => ?_⟩
    · rw [cleared, directoryOf_clearDirectory, if_pos rfl] at entry
      cases entry
    · rw [cleared, stored, directoryOf_clearDirectory, if_neg other, nameOf_clearDirectory]
      exact ⟨rfl, rfl⟩
  | outside =>
    refine ⟨fun d entry => ?_, fun o other => ?_⟩
    · rw [directoryOf, setNameInfo, header_setHeader] at entry
      cases entry
    · rw [directoryOf, nameOf, setNameInfo, header_setHeader_ne other]
      exact ⟨rfl, rfl⟩
  | entry =>
    refine ⟨fun d _ => ?_, fun o other => ?_⟩
    · rw [nameOf_enterDirectory, if_pos rfl]
    · rw [directoryOf_enterDirectory, nameOf_enterDirectory, if_neg other, if_neg other]
      exact ⟨rfl, rfl⟩

/-- The condition on a close: the one that takes a name closes the only open
handle of the object. -/
def ClosesLast (s : ObSystem) : ObAction → Prop
  | .close caller handle mode => ∀ which target object, closing s.objects caller handle mode = some (which, target, object) →
      Removes s.objects object → s.ledger.handleCount object = 1
  | _ => True

theorem NamedRight.insert (sound : Sound s.objects s.ledger) (right : s.NamedRight)
    (admitted : ObAdmits s (.insert caller parse object info call)) :
    (obStep s (.insert caller parse object info call)).NamedRight := by
  obtain ⟨releasable, waiting, _, parses, bootstrap⟩ := admitted
  have counted := sound.counted_pos.mpr (Ledger.sum_pos_of_held s.objects releasable.1)
  have unlinked := sound.fresh waiting
  rw [obStep]
  rcases inserted : obInsertObject s.objects caller parse object info call with ⟨σ', status, handle⟩
  dsimp only
  cases success : status.isSuccess with
  | false =>
    rw [if_neg Bool.false_ne_true]
    obtain ⟨nameInfo, present, unnamed, rfl, rfl⟩ :=
      obInsertObject_failed (sound.sheltered parses) sound.tables counted inserted success
    have given : SameNames s.objects (givenUp s.objects object
        ((s.objects.header object).permanent || info.attributes.attributes.permanent) nameInfo) :=
      .setHeader (unnamed.trans unlinked.symm) fun entry => absurd unlinked entry
    apply SameNames.namedRight _ right
    refine given.trans (.dereference (Or.inl ?_))
    exact ((given object).1).trans unlinked
  | true =>
    rw [if_pos rfl]
    obtain ⟨σ₁, σ₂, handled, named, rfl, _, _, placed⟩ :=
      sound.inserted releasable waiting parses bootstrap inserted success
    have flagged : SameNames s.objects (flagged s.objects object info) := .setHeader rfl fun _ => rfl
    have made := flagged.trans (.handled handled)
    have held : 0 < ((s.ledger.inserting object).received σ₁ caller handle).held object := by
      rw [((s.ledger.inserting object).received_rest σ₁ caller handle).1]
      exact releasable.1
    have settled := SameNames.settled placed held call
    obtain ⟨entered, others⟩ := named.names (((made object).1).trans unlinked)
    have rest : ∀ o, o ≠ object → directoryOf (Ob.settled σ₂ object call) o = directoryOf s.objects o ∧
        (directoryOf s.objects o ≠ none → nameOf (Ob.settled σ₂ object call) o = nameOf s.objects o) := by
      intro o other
      obtain ⟨directory, name⟩ := others o other
      refine ⟨((settled o).1.trans directory).trans (made o).1, fun entry => ?_⟩
      have kept : directoryOf σ₂ o ≠ none := by rwa [directory, (made o).1]
      exact ((settled o).2 kept).trans (name.trans ((made o).2 entry))
    cases entry : directoryOf (Ob.settled σ₂ object call) object with
    | none =>
      apply SameNames.namedRight _ right
      intro o
      by_cases same : o = object
      · subst same
        exact ⟨entry.trans unlinked.symm, fun linked => absurd unlinked linked⟩
      · exact rest o same
    | some d =>
      apply right.update rest
      have linked : directoryOf σ₂ object = some d := (settled object).1.symm.trans entry
      rw [entry, (settled object).2 (by rw [linked]; exact Option.some_ne_none d), entered d linked]
      rfl

theorem NamedRight.close (sound : Sound s.objects s.ledger) (right : s.NamedRight)
    (last : ClosesLast s (.close caller handle mode)) : (obStep s (.close caller handle mode)).NamedRight := by
  have result := obCloseHandle_closing s.objects caller handle mode
  rw [obStep]
  cases closed : closing s.objects caller handle mode with
  | none =>
    rw [closed] at result
    dsimp only at result ⊢
    rw [result]
    exact right
  | some line =>
    obtain ⟨which, target, object⟩ := line
    rw [closed] at result
    dsimp only at result ⊢
    obtain ⟨T, T', status, table, destroyed, result⟩ := result
    obtain ⟨_, count⟩ := sound.close closed
    obtain ⟨taken, _⟩ := sound.closeHandle table destroyed
    rw [result]
    have handles : ((s.ledger.closeHandle which (handleToIndex target)).checked s.objects object).handleCount object
        = (s.ledger.closeHandle which (handleToIndex target)).handleCount object := by
      rw [Ledger.handleCount, (Ledger.checked_rest ..).2.1, Ledger.handleCount]
    rw [handles]
    obtain ⟨removed, kept, others⟩ := deleteNameCheck_names (taken.names) object
    rw [removes_setTable] at removed kept
    have tables := SameNames.setTable s.objects which T'
    by_cases removes : Removes s.objects object
    · have only := last which target object closed removes
      rw [if_pos ⟨by omega, removes.1⟩]
      have given := SameNames.dereference (Or.inl (removed removes))
      apply right.update
      · intro o other
        obtain ⟨directory, name⟩ := others o other
        refine ⟨((given o).1.trans directory).trans (tables o).1, fun entry => ?_⟩
        have linked : directoryOf (obpDeleteNameCheck (s.objects.setTable which T') object) o ≠ none := by
          rwa [directory, (tables o).1]
        exact ((given o).2 linked).trans (name.trans ((tables o).2 entry))
      · rw [(given object).1, removed removes]
        rfl
    · rw [kept removes]
      have held : 0 < ((s.ledger.closeHandle which (handleToIndex target)).setHeld object
          (s.ledger.held object + 1)).held object := by
        rw [Ledger.held_setHeld]
        exact Nat.succ_pos _
      have counts := taken.named_counted held
      have same := tables.trans (SameNames.dereference counts)
      split
      next gone =>
        apply right.update fun o _ => same o
        have unlinked : directoryOf s.objects object = none := by
          by_contra linked
          exact removes ⟨gone.2, Option.isSome_iff_ne_none.mpr linked⟩
        rw [(same object).1, unlinked]
        rfl
      next => exact same.namedRight right

theorem SameNames.made (sound : Sound σ ℓ) (header : ObjectHeader)
    (unnamed : header.nameInfo.bind NameInfo.directory = none) (body : SymbolicLink) :
    SameNames σ (made σ header body) := by
  intro o
  refine ⟨sound.directoryOf_made unnamed body o, fun entry => ?_⟩
  have other : o ≠ σ.nextObject := by
    rintro rfl
    exact entry (sound.unlinked_unborn (Nat.le_refl _)).1
  rw [nameOf, header_made, if_neg other, nameOf]

theorem SameNames.create (sound : Sound σ ℓ)
    (created : obCreateObject σ type info securityDescriptor body objectAllocated infoAllocated = (σ', status)) :
    SameNames σ σ' := by
  have unnamed : (if info.attributes.objectName = [] then none else some (⟨none, none⟩ : NameInfo)).bind
      NameInfo.directory = none := by
    split <;> rfl
  have made := SameNames.made sound ⟨1, type, false,
    if info.attributes.objectName = [] then none else some ⟨none, none⟩, securityDescriptor, none⟩ unnamed body
  rw [obCreateObject] at created
  split at created
  next =>
    obtain ⟨rfl, rfl⟩ := Prod.mk.inj created
    exact .refl σ
  next =>
    dsimp only at created
    split at created
    next =>
      obtain ⟨rfl, rfl⟩ := Prod.mk.inj created
      refine made.trans (.dereference (Or.inl ?_))
      exact (made σ.nextObject).1.trans (sound.unlinked_unborn (Nat.le_refl _)).1
    next =>
      obtain ⟨rfl, rfl⟩ := Prod.mk.inj created
      exact made.trans (.setHeader rfl fun _ => rfl)

theorem SameNames.openByName (sound : Sound σ ℓ) (parses : ParsesLive σ parse)
    (opened : obOpenObjectByName σ caller parse attributes expectedType accessMode desiredAccess
      = (σ', status, handle)) : SameNames σ σ' := by
  rcases obOpenObjectByName_spec (sound.sheltered parses) opened with ⟨rfl, _⟩ |
    ⟨_, _, found, σ₂, _, _, _, live, handled, rfl⟩
  · exact .refl σ'
  · have made := (SameNames.reference σ found).trans (.handled handled)
    refine made.trans (.dereference ?_)
    cases entry : directoryOf σ found with
    | none => exact Or.inl ((made found).1.trans entry)
    | some d =>
      have born := sound.born (ℓ.sum_pos_of_linked entry)
      have looked := (sound.reference born live).handled born live.reference handled
      apply looked.named_counted
      rw [(Ledger.received_rest ..).1, Ledger.held_setHeld]
      exact Nat.succ_pos _

theorem NamedRight.step (sound : Sound s.objects s.ledger) (right : s.NamedRight)
    (admitted : ObAdmits s action) (last : ClosesLast s action) : (obStep s action).NamedRight := by
  cases action with
  | create type info securityDescriptor body objectAllocated infoAllocated =>
    rw [obStep]
    rcases created : obCreateObject s.objects type info securityDescriptor body objectAllocated infoAllocated with
      ⟨σ', status⟩
    dsimp only
    split <;> exact (SameNames.create sound created).namedRight right
  | insert caller parse object info call => exact NamedRight.insert sound right admitted
  | openByName caller parse attributes expectedType accessMode desiredAccess =>
    rw [obStep]
    rcases opened : obOpenObjectByName s.objects caller parse attributes expectedType accessMode desiredAccess with
      ⟨σ', status, handle⟩
    exact (SameNames.openByName sound admitted opened).namedRight right
  | duplicate caller object attributes accessMode granted =>
    rw [obStep]
    rcases made : obpCreateHandle s.objects caller object attributes accessMode granted with ⟨σ', status, handle⟩
    apply SameNames.namedRight _ right
    have live : Live s.objects object :=
      Or.inl (sound.counted_pos.mpr (Ledger.sum_pos_of_handle s.objects admitted))
    obtain ⟨created, failed⟩ := obpCreateHandle_spec live made
    cases success : status.isSuccess with
    | true => exact .handled (created success).1
    | false => exact (failed success).1 ▸ .refl _
  | close caller handle mode => exact NamedRight.close sound right last
  | reference object => exact (SameNames.reference s.objects object).namedRight right
  | dereference object =>
    exact (SameNames.dereference (sound.named_counted admitted.1)).namedRight right
  | makeTemporary object =>
    have flagged : SameNames s.objects (s.objects.setPermanent object false) := .setHeader rfl fun _ => rfl
    have temporary : ((s.objects.setPermanent object false).header object).permanent = false := by
      rw [setPermanent, header_setHeader]
    obtain ⟨removed, kept, others⟩ := deleteNameCheck_names (sound.setPermanent admitted.1 admitted.2).names object
    apply right.update
    · intro o other
      obtain ⟨directory, name⟩ := others o other
      exact ⟨directory.trans (flagged o).1, fun entry => name.trans ((flagged o).2 entry)⟩
    · have unlinked : directoryOf (obMakeTemporaryObject s.objects object) object = none := by
        by_cases removes : Removes (s.objects.setPermanent object false) object
        · exact removed removes
        · rw [obMakeTemporaryObject, kept removes]
          by_contra linked
          exact removes ⟨temporary, Option.isSome_iff_ne_none.mpr linked⟩
      rw [unlinked]
      rfl

end

end VeaOS.Ob

import VeaOS.Ob.Ledger

/-! What the changes of the objects do to the ledger: a line moves to another
place, an entry comes or goes, an object is made. -/
namespace VeaOS.Ob
open Sf Ul Function Ledger ObState Option

section
variable {σ σ' : ObState} {ℓ ℓ' : Ledger} {object : Object} {T T' : ObjectTable} {which : TableId}

theorem Sound.transfer (sound : Sound σ ℓ) (tables : TablesKept σ' ℓ'.grants) (names : Names σ')
    (kept : ∀ o, (σ'.header o).referenceCount = (σ.header o).referenceCount ∧
      (σ'.header o).permanent = (σ.header o).permanent ∧ (σ'.header o).type = (σ.header o).type)
    (sums : ∀ o, ℓ'.sum σ' o = ℓ.sum σ o) (deleted : σ'.deleted = σ.deleted)
    (next : σ'.nextObject = σ.nextObject) (root : σ'.rootDirectoryObject = σ.rootDirectoryObject)
    (link : σ'.link = σ.link) (target : ∀ l o, (σ.link l).targetObject = some o → 0 < ℓ'.held o)
    (fresh : ∀ o, ℓ'.waiting o = true → directoryOf σ' o = none) : Sound σ' ℓ' := by
  constructor
  case tables => exact tables
  case names => exact names
  case counted =>
    intro o
    rw [(kept o).1, sums]
    exact sound.counted o
  case deleted =>
    intro o
    rw [(kept o).1, (kept o).2.1, deleted, next]
    exact sound.deleted o
  case root =>
    intro o found
    rw [root] at found
    rw [(kept o).2.1, (kept o).2.2, next]
    exact sound.root found
  case target =>
    intro l o found
    rw [link] at found
    exact target l o found
  case fresh => exact fresh _
  case unborn =>
    intro o later
    rw [next] at later
    rw [sums]
    exact sound.unborn later

theorem TablesKept.setTable {grants grants' : TableId → List (Grant Object)} (tables : TablesKept σ grants)
    (accounted : ∃ free, Accounted T free (grants' which)) (blank : Blank T) (small : T.maxEntries ≤ 1024)
    (others : ∀ other, other ≠ which → grants' other = grants other) : TablesKept (σ.setTable which T) grants' := by
  constructor
  case accounted =>
    intro other T' found
    by_cases same : other = which
    · subst same
      rw [table_setTable] at found
      exact some.inj found ▸ accounted
    · rw [table_setTable_ne same] at found
      rw [others other same]
      exact tables.accounted found
  case blank =>
    intro other T' found
    by_cases same : other = which
    · subst same
      rw [table_setTable] at found
      exact some.inj found ▸ blank
    · rw [table_setTable_ne same] at found
      exact tables.blank found
  case small =>
    intro other T' found
    by_cases same : other = which
    · subst same
      rw [table_setTable] at found
      exact some.inj found ▸ small
    · rw [table_setTable_ne same] at found
      exact tables.small found
  case absent =>
    intro other found
    by_cases same : other = which
    · subst same
      rw [table_setTable] at found
      cases found
    · rw [table_setTable_ne same] at found
      rw [others other same]
      exact tables.absent found

theorem Names.setTable (names : Names σ) : Names (σ.setTable which T) := by
  cases which <;> exact ⟨names.entry, names.nodup, names.directory, names.named, names.distinct⟩

theorem directoryOf_setTable (o : Object) : directoryOf (σ.setTable which T) o = directoryOf σ o := by
  cases which <;> rfl

theorem setTable_rest : (σ.setTable which T).deleted = σ.deleted ∧ (σ.setTable which T).nextObject = σ.nextObject ∧
    (σ.setTable which T).rootDirectoryObject = σ.rootDirectoryObject ∧ (σ.setTable which T).link = σ.link := by
  cases which <;> exact ⟨rfl, rfl, rfl, rfl⟩

theorem Sound.setTable (sound : Sound σ ℓ) (tables : TablesKept (σ.setTable which T) ℓ'.grants)
    (sums : ∀ o, ℓ'.held o + ℓ'.handleCount o = ℓ.held o + ℓ.handleCount o) (leaked : ℓ'.leaked = ℓ.leaked)
    (waiting : ℓ'.waiting = ℓ.waiting)
    (target : ∀ l o, (σ.link l).targetObject = some o → 0 < ℓ'.held o) : Sound (σ.setTable which T) ℓ' := by
  obtain ⟨deleted, next, root, link⟩ := @setTable_rest σ T which
  refine sound.transfer tables sound.names.setTable ?_ ?_ deleted next root link target ?_
  · intro o
    rw [header_setTable]
    exact ⟨rfl, rfl, rfl⟩
  · intro o
    rw [sum, sum, sums, linked, linked, directoryOf_setTable, leaked]
  · intro o waits
    rw [waiting] at waits
    rw [directoryOf_setTable]
    exact sound.fresh waits

theorem Ledger.setHeld_setHeld (ℓ : Ledger) (object : Object) (m n : Nat) :
    (ℓ.setHeld object m).setHeld object n = ℓ.setHeld object n := by
  rw [setHeld, setHeld, setHeld, update_idem]

theorem Sound.openHandle (sound : Sound σ ℓ) (born : object < σ.nextObject) (live : Live σ object)
    (table : σ.table which = some T) (made : ulCreateHandle T (some object) granted thread = (T', handle))
    (nonzero : handle ≠ 0) :
    Sound ((obReferenceObject σ object).setTable which T') (ℓ.openHandle which ⟨handle, object, granted⟩) := by
  obtain ⟨free, accounted⟩ := sound.tables.accounted table
  obtain ⟨x, rest, rfl, rfl, positive, bound, first, unused, entry⟩ := created_entry accounted made nonzero
  obtain ⟨_, created⟩ := accounted.create object granted thread
  rw [made] at created
  have referenced := sound.reference born live
  apply referenced.setTable
  case tables =>
    apply referenced.tables.setTable
    case accounted =>
      refine ⟨rest, ?_⟩
      rw [grants_openHandle, if_pos rfl]
      exact created
    case blank =>
      intro i empty
      rw [entry] at empty ⊢
      dsimp only at empty ⊢
      by_cases same : i = x
      · rw [same, update_self] at empty
        cases empty
      · rw [update_of_ne same] at empty ⊢
        exact sound.tables.blank table i empty
    case small =>
      have small := sound.tables.small table
      rwa [entry]
    case others =>
      intro other different
      rw [grants_openHandle, if_neg (Ne.symm different)]
      rfl
  case sums =>
    intro o
    rw [handleCount_openHandle]
    by_cases same : object = o
    · subst same
      rw [if_pos rfl, held_setHeld]
      exact Nat.add_right_comm (ℓ.held object) (ℓ.handleCount object) 1
    · rw [if_neg same, held_setHeld_ne _ _ (Ne.symm same)]
      rfl
  case leaked => rfl
  case waiting => rfl
  case target => exact fun l o found => sound.target found

theorem destroyed_entry (destroyed : ulDestroyHandle T handle = (T', status, some object)) :
    status = .success ∧ 0 < handleToIndex handle ∧ handleToIndex handle < T.maxEntries ∧
      (T.entries (handleToIndex handle)).object = some object ∧
      T' = { T with
        entries := update T.entries (handleToIndex handle)
          { object := none, grantedAccess := 0, nextFreeIndex := T.firstFreeIndex, ownerThread := none }
        firstFreeIndex := handleToIndex handle
        handleCount := T.handleCount - 1 } := by
  rw [ulDestroyHandle] at destroyed
  split at destroyed
  next => simp only [Prod.mk.injEq, reduceCtorEq, and_false] at destroyed
  next =>
    dsimp only at destroyed
    split at destroyed
    next => simp only [Prod.mk.injEq, reduceCtorEq, and_false] at destroyed
    next inside =>
      split at destroyed
      next => simp only [Prod.mk.injEq, reduceCtorEq, and_false] at destroyed
      next used =>
        simp only [Prod.mk.injEq, some.injEq] at destroyed
        obtain ⟨rfl, rfl, rfl⟩ := destroyed
        exact ⟨rfl, by omega, by omega, used, rfl⟩

/-- The reference of a handle that is closed is held until it is given up. -/
theorem Sound.closeHandle (sound : Sound σ ℓ) (table : σ.table which = some T)
    (destroyed : ulDestroyHandle T handle = (T', status, some object)) :
    Sound (σ.setTable which T')
      ((ℓ.closeHandle which (handleToIndex handle)).setHeld object (ℓ.held object + 1)) ∧
    ℓ.handleCount object = (ℓ.closeHandle which (handleToIndex handle)).handleCount object + 1 := by
  obtain ⟨free, accounted⟩ := sound.tables.accounted table
  obtain ⟨rfl, positive, bound, used, entry⟩ := destroyed_entry destroyed
  obtain ⟨_, released⟩ := accounted.destroy positive bound used
  rw [destroyed] at released
  obtain ⟨grant, member, index⟩ := accounted.owner positive bound used
  obtain rfl : object = grant.object := by
    have holds := (accounted.holds member).1
    rw [index, used] at holds
    exact some.inj holds
  have distinct := (List.nodup_append.mp accounted.distinct).2.1
  have counts := ℓ.handleCount_closeHandle distinct member index
  refine ⟨?_, by rw [counts, if_pos rfl]⟩
  apply sound.setTable
  case tables =>
    apply sound.tables.setTable
    case accounted =>
      refine ⟨handleToIndex handle :: free, ?_⟩
      have kept := ℓ.grants_closeHandle which which (handleToIndex handle)
      rw [if_pos rfl] at kept
      exact kept ▸ released
    case blank =>
      intro i empty
      rw [entry] at empty ⊢
      dsimp only at empty ⊢
      by_cases same : i = handleToIndex handle
      · rw [same, update_self]
        exact ⟨rfl, rfl⟩
      · rw [update_of_ne same] at empty ⊢
        exact sound.tables.blank table i empty
    case small =>
      have small := sound.tables.small table
      rwa [entry]
    case others =>
      intro other different
      have kept := ℓ.grants_closeHandle which other (handleToIndex handle)
      rwa [if_neg different] at kept
  case sums =>
    intro o
    have count := counts o
    have same_count : ((ℓ.closeHandle which (handleToIndex handle)).setHeld grant.object
        (ℓ.held grant.object + 1)).handleCount o = (ℓ.closeHandle which (handleToIndex handle)).handleCount o := rfl
    rw [same_count, count]
    by_cases same : grant.object = o
    · rw [if_pos same, ← same, held_setHeld]
      exact Nat.add_right_comm ..
    · rw [if_neg same, held_setHeld_ne _ _ (Ne.symm same)]
      rfl
  case leaked => rfl
  case waiting => rfl
  case target =>
    intro l o found
    by_cases same : o = grant.object
    · rw [same, held_setHeld]
      exact Nat.succ_pos _
    · rw [held_setHeld_ne _ _ same]
      exact sound.target found

end

section
variable {σ : ObState} {ℓ : Ledger} {object d : Object}

theorem directoryOf_clearDirectory (σ : ObState) (object x : Object) :
    directoryOf (clearDirectory σ object) x = if x = object then none else directoryOf σ x := by
  rw [directoryOf, clearDirectory, setNameInfo]
  by_cases same : x = object
  · rw [if_pos same, same, header_setHeader]
    dsimp only
    cases (σ.header object).nameInfo <;> rfl
  · rw [if_neg same, header_setHeader_ne same, directoryOf]

theorem nameOf_clearDirectory (σ : ObState) (object x : Object) :
    nameOf (clearDirectory σ object) x = nameOf σ x := by
  rw [nameOf, nameOf, clearDirectory, setNameInfo]
  by_cases same : x = object
  · rw [same, header_setHeader]
    dsimp only
    cases (σ.header object).nameInfo <;> rfl
  · rw [header_setHeader_ne same]

theorem header_clearDirectory (σ : ObState) (object x : Object) :
    ((clearDirectory σ object).header x).referenceCount = (σ.header x).referenceCount ∧
      ((clearDirectory σ object).header x).permanent = (σ.header x).permanent ∧
      ((clearDirectory σ object).header x).type = (σ.header x).type := by
  rw [clearDirectory, setNameInfo]
  by_cases same : x = object
  · rw [same, header_setHeader]
    exact ⟨rfl, rfl, rfl⟩
  · rw [header_setHeader_ne same]
    exact ⟨rfl, rfl, rfl⟩

theorem obpRemoveEntryDirectory_linked (names : Names σ) (entry : directoryOf σ object = some d) :
    obpRemoveEntryDirectory σ object = clearDirectory (σ.setEntries d ((σ.entries d).erase object)) object := by
  rw [obpRemoveEntryDirectory, show (σ.header object).nameInfo.bind NameInfo.directory = some d from entry]
  exact if_pos (names.entry.mpr entry)

theorem Names.remove (names : Names σ) (entry : directoryOf σ object = some d) :
    Names (clearDirectory (σ.setEntries d ((σ.entries d).erase object)) object) := by
  have directories : ∀ x, directoryOf (clearDirectory (σ.setEntries d ((σ.entries d).erase object)) object) x
      = if x = object then none else directoryOf σ x := directoryOf_clearDirectory _ object
  have left : ∀ {x e}, directoryOf (clearDirectory (σ.setEntries d ((σ.entries d).erase object)) object) x = some e →
      x ≠ object ∧ directoryOf σ x = some e := by
    intro x e found
    rw [directories] at found
    split at found
    · cases found
    next other => exact ⟨other, found⟩
  constructor
  case entry =>
    intro o e
    rw [directories]
    have entries : (clearDirectory (σ.setEntries d ((σ.entries d).erase object)) object).entries e
        = update σ.entries d ((σ.entries d).erase object) e := rfl
    rw [entries]
    by_cases here : e = d
    · subst here
      rw [update_self, (names.nodup e).mem_erase_iff, names.entry]
      by_cases same : o = object
      · simp only [same, ne_eq, not_true, false_and, if_true, reduceCtorEq]
      · simp only [same, ne_eq, not_false_eq_true, true_and, if_false]
    · rw [update_of_ne here, names.entry]
      by_cases same : o = object
      · subst same
        rw [if_pos rfl, entry]
        exact iff_of_false (fun found => here (some.inj found).symm) nofun
      · rw [if_neg same]
  case nodup =>
    intro e
    have entries : (clearDirectory (σ.setEntries d ((σ.entries d).erase object)) object).entries e
        = update σ.entries d ((σ.entries d).erase object) e := rfl
    rw [entries]
    by_cases here : e = d
    · rw [here, update_self]
      exact (names.nodup d).erase object
    · rw [update_of_ne here]
      exact names.nodup e
  case directory =>
    intro o e found
    rw [(header_clearDirectory _ object e).2.2]
    exact names.directory (left found).2
  case named =>
    intro o e found
    rw [nameOf_clearDirectory]
    exact names.named (left found).2
  case distinct =>
    intro e o o' n n' first second different name₁ name₂
    rw [nameOf_clearDirectory] at name₁ name₂
    exact names.distinct (left first).2 (left second).2 different name₁ name₂

theorem Sound.remove (sound : Sound σ ℓ) (entry : directoryOf σ object = some d) :
    Sound (obpRemoveEntryDirectory σ object) (ℓ.leak object) := by
  rw [obpRemoveEntryDirectory_linked sound.names entry]
  refine sound.transfer (sound.tables.congr ?_) (sound.names.remove entry) (header_clearDirectory _ object) ?_ rfl rfl
    rfl rfl (fun l o => sound.target) ?_
  · exact fun which => by cases which <;> rfl
  · intro o
    rw [sum, sum, linked, directoryOf_clearDirectory, linked]
    by_cases same : o = object
    · subst same
      have leaked : (ℓ.leak o).leaked o = ℓ.leaked o + 1 := update_self ..
      rw [if_pos rfl, entry, leaked]
      exact Nat.add_right_comm (ℓ.held o + ℓ.handleCount o) (ℓ.leaked o) 1
    · have leaked : (ℓ.leak object).leaked o = ℓ.leaked o := update_of_ne same ..
      rw [if_neg same, leaked]
      rfl
  · intro o waits
    rw [directoryOf_clearDirectory]
    split
    next => rfl
    next => exact sound.fresh waits

theorem sameName_comm (a b : List Char) : sameName a b = sameName b a := by
  induction a generalizing b with
  | nil => cases b <;> rfl
  | cons c rest ih =>
    cases b with
    | nil => rfl
    | cons d more => rw [sameName, sameName, ih more, Bool.beq_comm]

theorem header_enterDirectory (σ : ObState) (d object : Object) (n : List Char) (x : Object) :
    (enterDirectory σ d object n).header x =
      if x = object then { σ.header object with
        referenceCount := (σ.header object).referenceCount + 1, nameInfo := some ⟨some d, some n⟩ }
      else σ.header x := by
  have written : (enterDirectory σ d object n).header
      = ((obReferenceObject (σ.setNameInfo object (some ⟨some d, some n⟩)) object)).header := rfl
  rw [written, obReferenceObject, setCount, setNameInfo, setHeader_setHeader]
  by_cases same : x = object
  · rw [if_pos same, same, header_setHeader, header_setHeader]
  · rw [if_neg same, header_setHeader_ne same]

theorem directoryOf_enterDirectory (σ : ObState) (d object : Object) (n : List Char) (x : Object) :
    directoryOf (enterDirectory σ d object n) x = if x = object then some d else directoryOf σ x := by
  rw [directoryOf, header_enterDirectory]
  split <;> rfl

theorem nameOf_enterDirectory (σ : ObState) (d object : Object) (n : List Char) (x : Object) :
    nameOf (enterDirectory σ d object n) x = if x = object then some n else nameOf σ x := by
  rw [nameOf, header_enterDirectory]
  split <;> rfl

theorem entries_enterDirectory (σ : ObState) (d object : Object) (n : List Char) (e : Object) :
    (enterDirectory σ d object n).entries e = if e = d then σ.entries d ++ [object] else σ.entries e := by
  have written : (enterDirectory σ d object n).entries e
      = update σ.entries d (σ.entries d ++ [object]) e := rfl
  rw [written]
  by_cases here : e = d
  · rw [here, if_pos rfl, update_self]
  · rw [if_neg here, update_of_ne here]

theorem Names.enter (names : Names σ) (unlinked : directoryOf σ object = none)
    (type : (σ.header d).type = .directory) (born : d < σ.nextObject)
    (distinct : ∀ existing ∈ σ.entries d, ∀ other, nameOf σ existing = some other → sameName other n = false) :
    Names (enterDirectory σ d object n) := by
  have absent : ∀ e, object ∉ σ.entries e := by
    intro e member
    rw [names.entry, unlinked] at member
    cases member
  have apart : ∀ {o m}, o ≠ object → directoryOf σ o = some d → nameOf σ o = some m → sameName m n = false :=
    fun _ found stored => distinct _ (names.entry.mpr found) _ stored
  constructor
  case entry =>
    intro o e
    rw [directoryOf_enterDirectory, entries_enterDirectory]
    by_cases here : e = d
    · subst here
      rw [if_pos rfl, List.mem_append, List.mem_singleton, names.entry]
      by_cases same : o = object
      · simp only [same, or_true, if_true]
      · simp only [same, or_false, if_false]
    · rw [if_neg here, names.entry]
      by_cases same : o = object
      · subst same
        rw [if_pos rfl, unlinked]
        exact iff_of_false nofun fun found => here (some.inj found).symm
      · rw [if_neg same]
  case nodup =>
    intro e
    rw [entries_enterDirectory]
    split
    next => exact (names.nodup d).append (List.nodup_singleton object) (List.disjoint_singleton.mpr (absent d))
    next => exact names.nodup e
  case directory =>
    intro o e found
    have types : ((enterDirectory σ d object n).header e).type = (σ.header e).type := by
      rw [header_enterDirectory]
      split
      next same => rw [same]
      next => rfl
    rw [types]
    rw [directoryOf_enterDirectory] at found
    split at found
    next => exact some.inj found ▸ ⟨type, born⟩
    next => exact names.directory found
  case named =>
    intro o e found
    rw [directoryOf_enterDirectory] at found
    rw [nameOf_enterDirectory]
    split at found
    next same => exact ⟨n, if_pos same⟩
    next other =>
      rw [if_neg other]
      exact names.named found
  case distinct =>
    intro e o o' m m' first second different name₁ name₂
    rw [directoryOf_enterDirectory] at first second
    rw [nameOf_enterDirectory] at name₁ name₂
    by_cases here : o = object
    · have other : o' ≠ object := fun same => different (here.trans same.symm)
      rw [if_pos here] at first name₁
      rw [if_neg other] at second name₂
      obtain rfl := some.inj first
      obtain rfl := some.inj name₁
      rw [sameName_comm]
      exact apart other second name₂
    · rw [if_neg here] at first name₁
      by_cases there : o' = object
      · rw [if_pos there] at second name₂
        obtain rfl := some.inj second
        obtain rfl := some.inj name₂
        exact apart here first name₁
      · rw [if_neg there] at second name₂
        exact names.distinct first second different name₁ name₂

theorem Sound.enter (sound : Sound σ ℓ) (born : object < σ.nextObject) (live : Live σ object)
    (unlinked : directoryOf σ object = none) (waiting : ℓ.waiting object = false)
    (type : (σ.header d).type = .directory) (inside : d < σ.nextObject)
    (distinct : ∀ existing ∈ σ.entries d, ∀ other, nameOf σ existing = some other → sameName other n = false) :
    Sound (enterDirectory σ d object n) ℓ := by
  have referenced := sound.reference born live
  refine referenced.transfer (sound.tables.congr ?_) (sound.names.enter unlinked type inside distinct) ?_ ?_ rfl rfl
    rfl rfl (fun l o => sound.target) ?_
  · exact fun which => by cases which <;> rfl
  · intro o
    rw [header_enterDirectory, obReferenceObject, setCount]
    split
    next same =>
      rw [same, header_setHeader]
      exact ⟨rfl, rfl, rfl⟩
    next other =>
      rw [header_setHeader_ne other]
      exact ⟨rfl, rfl, rfl⟩
  · intro o
    rw [sum, sum, linked, directoryOf_enterDirectory, linked, obReferenceObject, directoryOf_setCount]
    by_cases same : o = object
    · subst same
      rw [if_pos rfl, held_setHeld, unlinked]
      exact congrArg (· + ℓ.leaked o) (Nat.add_right_comm (ℓ.held o) (ℓ.handleCount o) 1)
    · rw [if_neg same, held_setHeld_ne _ _ same]
      rfl
  · intro o waits
    rw [directoryOf_enterDirectory]
    split
    next same =>
      rw [same, waiting] at waits
      cases waits
    next => exact sound.fresh waits

theorem Sound.becomeRoot (sound : Sound σ ℓ) (born : object < σ.nextObject)
    (permanent : (σ.header object).permanent = true) (type : (σ.header object).type = .directory) :
    Sound { σ with rootDirectoryObject := some object } ℓ := by
  have names := sound.names
  constructor
  case tables => exact sound.tables.congr fun which => by cases which <;> rfl
  case names => exact ⟨names.entry, names.nodup, names.directory, names.named, names.distinct⟩
  case counted => exact sound.counted
  case deleted => exact sound.deleted
  case root =>
    intro o found
    obtain rfl := some.inj found
    exact ⟨permanent, type, born⟩
  case target => exact fun found => sound.target found
  case fresh => exact fun waits => sound.fresh waits
  case unborn => exact fun later => sound.unborn later

theorem Sound.rewait {waiting : Object → Bool} (sound : Sound σ ℓ)
    (fresh : ∀ o, waiting o = true → directoryOf σ o = none) : Sound σ { ℓ with waiting := waiting } where
  tables := sound.tables
  names := sound.names
  counted := sound.counted
  deleted := sound.deleted
  root := sound.root
  target found := sound.target found
  fresh := fresh _
  unborn later := sound.unborn later

/-- The object that the next allocation makes, held by its creator. -/
def made (σ : ObState) (header : ObjectHeader) (body : SymbolicLink) : ObState :=
  { (σ.setHeader σ.nextObject header).setEntries σ.nextObject [] with
    link := Function.update σ.link σ.nextObject body
    nextObject := σ.nextObject + 1 }

theorem Sound.unlinked_unborn (sound : Sound σ ℓ) (later : σ.nextObject ≤ object) :
    directoryOf σ object = none ∧ ∀ o, directoryOf σ o ≠ some object := by
  have none := sound.unborn later
  refine ⟨?_, fun o entry => ?_⟩
  · rw [sum, linked] at none
    split at none
    next => omega
    next absent => simpa using absent
  · exact absurd (sound.names.directory entry).2 (Nat.not_lt_of_le later)

theorem header_made (σ : ObState) (header : ObjectHeader) (body : SymbolicLink) (o : Object) :
    (made σ header body).header o = if o = σ.nextObject then header else σ.header o := by
  have written : (made σ header body).header = (σ.setHeader σ.nextObject header).header := rfl
  rw [written]
  by_cases same : o = σ.nextObject
  · rw [if_pos same, same, header_setHeader]
  · rw [if_neg same, header_setHeader_ne same]

theorem Sound.directoryOf_made {header : ObjectHeader} (sound : Sound σ ℓ)
    (unnamed : header.nameInfo.bind NameInfo.directory = none) (body : SymbolicLink) (o : Object) :
    directoryOf (made σ header body) o = directoryOf σ o := by
  rw [directoryOf, header_made]
  split
  next same => rw [same, unnamed, (sound.unlinked_unborn (Nat.le_refl _)).1]
  next => rfl

theorem Sound.create {body : SymbolicLink} (sound : Sound σ ℓ) (header : ObjectHeader) (count : header.referenceCount = 1)
    (unnamed : header.nameInfo.bind NameInfo.directory = none)
    (target : ∀ t, body.targetObject = some t → 0 < ℓ.held t) :
    Sound (made σ header body) (ℓ.setHeld σ.nextObject 1) := by
  obtain ⟨unlinked, unentered⟩ := sound.unlinked_unborn (Nat.le_refl _)
  have names := sound.names
  have entries : (made σ header body).entries = σ.entries := by
    have empty : σ.entries σ.nextObject = [] :=
      List.eq_nil_iff_forall_not_mem.mpr fun o member => unentered o (names.entry.mp member)
    have written : (made σ header body).entries = update σ.entries σ.nextObject [] := rfl
    rw [written, ← empty, update_eq_self]
  have written := header_made σ header body
  have directories := sound.directoryOf_made unnamed body
  have named : ∀ o d, directoryOf σ o = some d → nameOf (made σ header body) o = nameOf σ o := by
    intro o d entry
    have other : o ≠ σ.nextObject := fun same => by
      rw [same, unlinked] at entry
      cases entry
    rw [nameOf, written, if_neg other, nameOf]
  constructor
  case tables => exact sound.tables.congr fun which => by cases which <;> rfl
  case names =>
    constructor
    case entry =>
      intro o d
      rw [entries, directories]
      exact names.entry
    case nodup =>
      intro d
      rw [entries]
      exact names.nodup d
    case directory =>
      intro o d entry
      obtain ⟨type, inside⟩ := names.directory (directories o ▸ entry)
      rw [written, if_neg (Nat.ne_of_lt inside)]
      exact ⟨type, Nat.lt_succ_of_lt inside⟩
    case named =>
      intro o d entry
      rw [directories] at entry
      rw [named o d entry]
      exact names.named entry
    case distinct =>
      intro d o o' n n' first second different name₁ name₂
      rw [directories] at first second
      rw [named o d first] at name₁
      rw [named o' d second] at name₂
      exact names.distinct first second different name₁ name₂
  case counted =>
    intro o
    rw [written, sum, linked, directories]
    by_cases same : o = σ.nextObject
    · have none := sound.unborn (Nat.le_of_eq same.symm)
      rw [sum, linked] at none
      rw [if_pos same, count, same, held_setHeld, ← same]
      have handles : (ℓ.setHeld o 1).handleCount o = ℓ.handleCount o := rfl
      have leaked : (ℓ.setHeld o 1).leaked o = ℓ.leaked o := rfl
      omega
    · rw [if_neg same, held_setHeld_ne _ _ same]
      exact sound.counted o
  case deleted =>
    intro o
    have deleted := sound.deleted o
    have next : (made σ header body).nextObject = σ.nextObject + 1 := rfl
    have kept : (made σ header body).deleted = σ.deleted := rfl
    rw [written, kept, deleted, next]
    by_cases same : o = σ.nextObject
    · rw [if_pos same, count, same]
      simp only [lt_irrefl, false_and, if_false, one_ne_zero, and_false]
    · rw [if_neg same]
      simp only [Nat.lt_succ_iff_lt_or_eq, same, or_false]
  case root =>
    intro o found
    obtain ⟨permanent, type, inside⟩ := sound.root found
    rw [written, if_neg (Nat.ne_of_lt inside)]
    exact ⟨permanent, type, Nat.lt_succ_of_lt inside⟩
  case target =>
    intro l o found
    have links : (made σ header body).link = update σ.link σ.nextObject body := rfl
    rw [links] at found
    by_cases same : o = σ.nextObject
    · rw [same, held_setHeld]
      exact Nat.one_pos
    · rw [held_setHeld_ne _ _ same]
      by_cases here : l = σ.nextObject
      · rw [here, update_self] at found
        exact target o found
      · rw [update_of_ne here] at found
        exact sound.target found
  case fresh =>
    intro o waits
    rw [directories]
    exact sound.fresh waits
  case unborn =>
    intro o later
    have later : σ.nextObject + 1 ≤ o := later
    have none := sound.unborn (Nat.le_of_succ_le later)
    rw [sum, linked, directories, held_setHeld_ne _ _ (Nat.ne_of_gt later)]
    exact none

end

end VeaOS.Ob

import VeaOS.Ob.ReferenceCounts

/-! Runs of insertions into directories and removals from them. An object finds
its entry through the directory it records, so an object is inserted only while
no directory has it. -/
namespace VeaOS.Ob
open Transition Function ObState List

inductive DirectoryAction where
  /-- The name information is filled, and the object is inserted. -/
  | insert (directory object : Object) (name : List Char) (entryAllocated : Bool)
  | remove (object : Object)

/-- The directory and the final name, which ends at its first terminator, are
written where the object has name information. -/
def fillNameInfo (σ : ObState) (directory object : Object) (name : List Char) : ObState :=
  if (σ.header object).nameInfo.isNone then σ
  else σ.setNameInfo object (some ⟨some directory, some (name.takeWhile (· != '\x00'))⟩)

/-- `inserted` is the directory that an object was inserted into and not removed from since. -/
structure DirectoryRun where
  state : ObState
  inserted : Object → Option Object

def directoryStep (run : DirectoryRun) : DirectoryAction → DirectoryRun × Option VeaStatus
  | .insert directory object name entryAllocated =>
    let result := obpInsertDirectory (fillNameInfo run.state directory object name) directory object
      entryAllocated
    (⟨result.1, if result.2.isSuccess then Function.update run.inserted object (some directory)
      else run.inserted⟩, some result.2)
  | .remove object =>
    (⟨obpRemoveEntryDirectory run.state object, Function.update run.inserted object none⟩, none)

section Statement

def objectName (σ : ObState) (object : Object) : List Char :=
  ((σ.header object).nameInfo.bind NameInfo.name).getD []

/-- The names in a directory are distinct, and its entries are the objects that
were inserted and not removed. -/
structure DirectoriesKept (run : DirectoryRun) : Prop where
  names (directory) : (run.state.entries directory).Pairwise fun x y =>
    sameName (objectName run.state x) (objectName run.state y) = false
  once (directory) : (run.state.entries directory).Nodup
  entries {directory object} : object ∈ run.state.entries directory ↔ run.inserted object = some directory

/-- The object to be inserted is in no directory. -/
def InsertsAbsent (run : DirectoryRun) : DirectoryAction → Prop
  | .insert _ object _ _ => ∀ directory, object ∉ run.state.entries directory
  | .remove _ => True

/-- A removal takes the object's own entry away and no other, and an insertion
that fails changes no entry and no reference count. -/
def ChangesOwnEntry (run : DirectoryRun) : DirectoryAction → DirectoryRun × Option VeaStatus → Prop
  | .remove object, (next, _) =>
    (∀ directory, next.state.entries directory = (run.state.entries directory).filter (· ≠ object)) ∧
      (run.inserted object = none → next.state.entries = run.state.entries)
  | .insert directory object _ _, (next, status) =>
    if status = some .success then
      next.state.entries = Function.update run.state.entries directory
          (run.state.entries directory ++ [object]) ∧
        (next.state.header object).referenceCount = (run.state.header object).referenceCount + 1
    else next.state.entries = run.state.entries ∧
      ∀ x, (next.state.header x).referenceCount = (run.state.header x).referenceCount

def DirectoryStep (run : DirectoryRun) (action : DirectoryAction) (next : DirectoryRun) : Prop :=
  (directoryStep run action).1 = next

end Statement

/-- What an insertion does to the entries and the headers. -/
inductive Inserts (σ : ObState) (directory object : Object) : ObState × VeaStatus → Prop
  | refused (unsuccessful : status.isSuccess = false) : Inserts σ directory object (σ, status)
  | entered (info : NameInfo) (named : (σ.header object).nameInfo = some info)
      (free : ∀ existing ∈ σ.entries directory, ∀ name,
        (σ.header existing).nameInfo.bind NameInfo.name = some name →
          sameName name (info.name.getD []) = false) :
      Inserts σ directory object
        ((obReferenceObject σ object).setEntries directory (σ.entries directory ++ [object]), .success)

theorem obpInsertDirectory_inserts (σ : ObState) (directory object : Object) (entryAllocated : Bool) :
    Inserts σ directory object (obpInsertDirectory σ directory object entryAllocated) := by
  rw [obpInsertDirectory]
  cases named : (σ.header object).nameInfo with
  | none => exact .refused rfl
  | some info =>
    dsimp only
    by_cases collides : ((σ.entries directory).any fun existing =>
        ((σ.header existing).nameInfo.bind NameInfo.name).any (sameName · (info.name.getD []))) = true
    · rw [if_pos collides]
      exact .refused rfl
    · rw [if_neg collides]
      by_cases allocated : entryAllocated = true
      · rw [if_neg (by simp [allocated])]
        refine .entered info named fun existing member name known => ?_
        by_contra same
        refine collides (any_eq_true.mpr ⟨existing, member, ?_⟩)
        rw [known]
        simpa using same
      · rw [if_pos (by simp [allocated])]
        exact .refused rfl

/-- Every entry records its directory and a name. -/
structure DirectoriesLinked (run : DirectoryRun) : Prop extends DirectoriesKept run where
  recorded {directory object} : object ∈ run.state.entries directory →
    ∃ name, (run.state.header object).nameInfo = some ⟨some directory, some name⟩

section Filling
variable {σ : ObState} {directory object : Object} {name : List Char}

theorem header_fillNameInfo (other : x ≠ object) :
    (fillNameInfo σ directory object name).header x = σ.header x := by
  unfold fillNameInfo
  split
  · rfl
  · exact header_setHeader_ne other

theorem entries_fillNameInfo : (fillNameInfo σ directory object name).entries = σ.entries := by
  unfold fillNameInfo
  split
  · rfl
  · rfl

theorem count_fillNameInfo (x : Object) :
    ((fillNameInfo σ directory object name).header x).referenceCount = (σ.header x).referenceCount := by
  by_cases same : x = object
  · subst same
    unfold fillNameInfo
    split
    · rfl
    · rw [setNameInfo, header_setHeader]
  · rw [header_fillNameInfo same]

theorem named_fillNameInfo (named : ((fillNameInfo σ directory object name).header object).nameInfo = some info) :
    info = ⟨some directory, some (name.takeWhile (· != '\x00'))⟩ := by
  unfold fillNameInfo at named
  split at named
  · next unnamed => simp [named] at unnamed
  · rw [setNameInfo, header_setHeader] at named
    exact (Option.some.inj named).symm

end Filling

namespace DirectoriesLinked
variable {run : DirectoryRun} {directory object : Object} {name : List Char}

theorem congr (held : DirectoriesLinked run) {σ : ObState} (entries : σ.entries = run.state.entries)
    (same : ∀ d, ∀ x ∈ run.state.entries d, (σ.header x).nameInfo = (run.state.header x).nameInfo) :
    DirectoriesLinked ⟨σ, run.inserted⟩ := by
  constructor
  · constructor
    · intro d
      simp only [entries]
      refine (held.names d).imp_of_mem fun {x y} inX inY apart => ?_
      rw [objectName, objectName, same d x inX, same d y inY]
      exact apart
    · intro d
      simp only [entries]
      exact held.once d
    · intro d x
      simp only [entries]
      exact held.entries
  · intro d x member
    simp only [entries] at member
    simp only [same d x member]
    exact held.recorded member

theorem one (held : DirectoriesLinked run) (first : object ∈ run.state.entries d)
    (second : object ∈ run.state.entries d') : d = d' :=
  Option.some.inj ((held.entries.mp first).symm.trans (held.entries.mp second))

theorem filled (held : DirectoriesLinked run) (absent : ∀ d, object ∉ run.state.entries d) :
    DirectoriesLinked ⟨fillNameInfo run.state directory object name, run.inserted⟩ := by
  refine held.congr entries_fillNameInfo fun d x member => ?_
  rw [header_fillNameInfo]
  rintro rfl
  exact absent d member

theorem count_reference (σ : ObState) (object x : Object) (other : x ≠ object) :
    (obReferenceObject σ object).header x = σ.header x := header_setHeader_ne other

/-- An object whose name is free becomes the last entry. -/
theorem enter (held : DirectoriesLinked run) (absent : ∀ d, object ∉ run.state.entries d)
    (named : (run.state.header object).nameInfo = some ⟨some directory, some name⟩)
    (free : ∀ existing ∈ run.state.entries directory, ∀ known,
      (run.state.header existing).nameInfo.bind NameInfo.name = some known → sameName known name = false) :
    DirectoriesLinked ⟨(obReferenceObject run.state object).setEntries directory
      (run.state.entries directory ++ [object]), update run.inserted object (some directory)⟩ := by
  have nameInfo : ∀ x, ((obReferenceObject run.state object).header x).nameInfo =
      (run.state.header x).nameInfo := by
    intro x
    by_cases same : x = object
    · subst same
      rw [obReferenceObject, setCount, header_setHeader]
    · rw [count_reference _ _ _ same]
  have unmoved : DirectoriesLinked ⟨obReferenceObject run.state object, run.inserted⟩ :=
    held.congr rfl fun d x _ => nameInfo x
  have elsewhere : ∀ d, d ≠ directory → ((obReferenceObject run.state object).setEntries directory
      (run.state.entries directory ++ [object])).entries d = run.state.entries d := fun d other =>
    update_of_ne other ..
  have here : ((obReferenceObject run.state object).setEntries directory
      (run.state.entries directory ++ [object])).entries directory = run.state.entries directory ++ [object] :=
    update_self ..
  constructor
  · constructor
    · intro d
      by_cases same : d = directory
      · subst same
        simp only [here]
        refine pairwise_append.mpr ⟨unmoved.names d, pairwise_singleton _ _, fun x member y last => ?_⟩
        obtain rfl := mem_singleton.mp last
        obtain ⟨known, recorded⟩ := held.recorded member
        have apart := free x member known (by rw [recorded]; rfl)
        simp only [objectName, setEntries, nameInfo, recorded, named]
        exact apart
      · simp only [elsewhere d same]
        exact unmoved.names d
    · intro d
      by_cases same : d = directory
      · subst same
        simp only [here]
        exact nodup_append.mpr ⟨held.once d, nodup_singleton _, fun x member y last => by
          rintro rfl
          exact absent d (mem_singleton.mp last ▸ member)⟩
      · simp only [elsewhere d same]
        exact held.once d
    · intro d x
      by_cases own : x = object
      · subst own
        simp only [update_self, Option.some.injEq]
        constructor
        · intro member
          by_contra other
          rw [elsewhere d (Ne.symm other)] at member
          exact absent d member
        · rintro rfl
          rw [here]
          simp
      · simp only [update_of_ne own]
        by_cases same : d = directory
        · subst same
          rw [here, mem_append, mem_singleton, or_iff_left own]
          exact held.entries
        · rw [elsewhere d same]
          exact held.entries
  · intro d x member
    simp only [setEntries, nameInfo]
    by_cases own : x = object
    · subst own
      by_cases same : d = directory
      · subst same
        exact ⟨name, named⟩
      · rw [elsewhere d same] at member
        exact absurd member (absent d)
    · by_cases same : d = directory
      · subst same
        rw [here, mem_append, mem_singleton, or_iff_left own] at member
        exact held.recorded member
      · rw [elsewhere d same] at member
        exact held.recorded member

theorem remove_entries (held : DirectoriesLinked run) (object d : Object) :
    (obpRemoveEntryDirectory run.state object).entries d = (run.state.entries d).filter (· ≠ object) := by
  have absent : object ∉ run.state.entries d → run.state.entries d = (run.state.entries d).filter (· ≠ object) := by
    intro outside
    refine (filter_eq_self.mpr fun x member => ?_).symm
    simpa using fun same : x = object => outside (same ▸ member)
  unfold obpRemoveEntryDirectory
  cases recorded : (run.state.header object).nameInfo.bind NameInfo.directory with
  | none =>
    refine absent fun member => ?_
    obtain ⟨name, named⟩ := held.recorded member
    simp [named] at recorded
  | some directory =>
    dsimp only
    by_cases member : object ∈ run.state.entries directory
    · rw [if_pos member]
      by_cases same : d = directory
      · subst same
        refine (update_self ..).trans (((held.once d).erase_eq_filter object).trans ?_)
        exact filter_congr fun x _ => by by_cases own : x = object <;> simp [own]
      · rw [show (clearDirectory (run.state.setEntries directory _) object).entries d = run.state.entries d from
          update_of_ne same ..]
        exact absent fun other => same (held.one other member)
    · rw [if_neg member]
      refine absent fun other => member ?_
      obtain ⟨name, named⟩ := held.recorded other
      rw [named] at recorded
      exact Option.some.inj recorded ▸ other

theorem remove_header (σ : ObState) (other : x ≠ object) :
    (obpRemoveEntryDirectory σ object).header x = σ.header x := by
  unfold obpRemoveEntryDirectory
  cases (σ.header object).nameInfo.bind NameInfo.directory with
  | none => rfl
  | some directory =>
    dsimp only
    split
    · exact header_setHeader_ne other
    · rfl

theorem remove (held : DirectoriesLinked run) (object : Object) :
    DirectoriesLinked ⟨obpRemoveEntryDirectory run.state object, update run.inserted object none⟩ := by
  have entries := held.remove_entries object
  have member : ∀ {d x}, x ∈ (obpRemoveEntryDirectory run.state object).entries d ↔
      x ∈ run.state.entries d ∧ x ≠ object := by
    intro d x
    rw [entries, mem_filter, decide_eq_true_eq]
  constructor
  · constructor
    · intro d
      simp only [entries]
      refine ((held.names d).filter _).imp_of_mem fun {x y} inX inY apart => ?_
      rw [← entries d] at inX inY
      rw [objectName, objectName, remove_header _ (member.mp inX).2, remove_header _ (member.mp inY).2]
      exact apart
    · intro d
      simp only [entries]
      exact (held.once d).filter _
    · intro d x
      rw [member]
      by_cases own : x = object
      · subst own
        simp
      · simp only [own, ne_eq, not_false_eq_true, and_true, update_of_ne]
        exact held.entries
  · intro d x inside
    obtain ⟨before, other⟩ := member.mp inside
    simp only [remove_header _ other]
    exact held.recorded before

end DirectoriesLinked

theorem DirectoriesLinked.step {run : DirectoryRun} (held : DirectoriesLinked run) (action : DirectoryAction)
    (absent : InsertsAbsent run action) :
    DirectoriesLinked (directoryStep run action).1 ∧ ChangesOwnEntry run action (directoryStep run action) := by
  cases action with
  | remove object =>
    refine ⟨held.remove object, held.remove_entries object, fun uninserted => funext fun d => ?_⟩
    refine (held.remove_entries object d).trans (filter_eq_self.mpr fun x member => ?_)
    rw [decide_eq_true_eq]
    rintro rfl
    rw [held.entries.mp member] at uninserted
    cases uninserted
  | insert directory object name entryAllocated =>
    have filled : DirectoriesLinked ⟨fillNameInfo run.state directory object name, _⟩ := held.filled absent
    have inserts := obpInsertDirectory_inserts (fillNameInfo run.state directory object name) directory object
      entryAllocated
    cases result : obpInsertDirectory (fillNameInfo run.state directory object name) directory object
      entryAllocated with
    | mk σ' status =>
    rw [result] at inserts
    simp only [directoryStep, result, ChangesOwnEntry]
    cases inserts with
    | refused unsuccessful =>
      have failed : ¬ some status = some VeaStatus.success := by
        rintro ⟨⟩
        cases unsuccessful
      simp only [unsuccessful, Bool.false_eq_true, if_false, if_neg failed]
      exact ⟨filled, entries_fillNameInfo, count_fillNameInfo⟩
    | entered info named free =>
      have written := named_fillNameInfo named
      subst written
      have outside : ∀ d, object ∉ (fillNameInfo run.state directory object name).entries d := by
        rw [entries_fillNameInfo]
        exact absent
      have entered := filled.enter outside named free
      refine ⟨entered, ?_⟩
      rw [if_pos rfl, obReferenceObject, setEntries, setCount]
      simp only [entries_fillNameInfo, header_setHeader, count_fillNameInfo]
      exact ⟨congrArg (fun e => update e _ _) entries_fillNameInfo, trivial⟩

/-- In every run from empty directories in which objects are inserted only while
they are in no directory, names and entries stay right, and each step changes
the entry of its own object only. -/
theorem directory_runs {σ : ObState} {actions : List DirectoryAction} {last : DirectoryRun}
    (empty : ∀ d, σ.entries d = [])
    (run : Run (Guarded InsertsAbsent DirectoryStep) ⟨σ, fun _ => none⟩ actions last) :
    DirectoriesKept last ∧ ∀ action, InsertsAbsent last action →
      ChangesOwnEntry last action (directoryStep last action) := by
  have start : DirectoriesLinked ⟨σ, fun _ => none⟩ := by
    constructor
    · constructor
      · intro d
        simp [empty]
      · intro d
        simp [empty]
      · simp [empty]
    · simp [empty]
  have held := run.invariant (P := DirectoriesLinked) (fun held step => by
    obtain ⟨absent, rfl⟩ := step
    exact (held.step _ absent).1) start
  exact ⟨held.toDirectoriesKept, fun action absent => (held.step action absent).2⟩

/-- Objects that have name information, with nothing in it yet. -/
def namelessObjects : ObState :=
  { bootState with header := fun _ => ⟨1, .directory, false, some ⟨none, none⟩, none, none⟩ }

def twoEntries : DirectoryRun :=
  (directoryStep (directoryStep ⟨namelessObjects, fun _ => none⟩ (.insert 0 1 ['a'] true)).1
    (.insert 0 2 ['b'] true)).1

def removedObject : DirectoryRun := (directoryStep twoEntries (.remove 1)).1

/-- Of two entries one is removed. -/
theorem directory_runs_removed : DirectoriesKept removedObject ∧
    ∀ action, InsertsAbsent removedObject action →
      ChangesOwnEntry removedObject action (directoryStep removedObject action) := by
  have absent : InsertsAbsent (directoryStep ⟨namelessObjects, fun _ => none⟩ (.insert 0 1 ['a'] true)).1
      (.insert 0 2 ['b'] true) := by
    intro directory member
    by_cases here : directory = 0
    · subst here
      exact absurd member (by decide)
    · have other : (directoryStep ⟨namelessObjects, fun _ => none⟩ (.insert 0 1 ['a'] true)).1.state.entries directory
          = [] := update_of_ne here ..
      rw [other] at member
      cases member
  have run : Run (Guarded InsertsAbsent DirectoryStep) ⟨namelessObjects, fun _ => none⟩
      [.insert 0 1 ['a'] true, .insert 0 2 ['b'] true, .remove 1] removedObject :=
    .next ⟨fun _ => not_mem_nil, rfl⟩ (.next ⟨absent, rfl⟩ (.single ⟨trivial, rfl⟩))
  exact directory_runs (fun _ => rfl) run

/-- An insertion of an object that is in the directory renames its entry before
it is refused. -/
theorem inserted_again_renamed : ¬ DirectoriesKept
    (directoryStep (directoryStep (directoryStep ⟨namelessObjects, fun _ => none⟩
      (.insert 0 1 ['a'] true)).1 (.insert 0 2 ['b'] true)).1 (.insert 0 1 ['b'] true)).1 := by
  intro kept
  have names := kept.names 0
  revert names
  decide

end VeaOS.Ob

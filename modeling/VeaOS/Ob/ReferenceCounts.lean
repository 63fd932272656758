import VeaOS.Ob.ObjectRuns

/-! The count of an object against the references to it. A name that is taken
out of its directory keeps its reference, so does a name in a directory that is
destroyed, and a permanent object is not deleted. -/
namespace VeaOS.Ob
open Sf Ul Transition List

/-- The entries of the directories that name an object; those of a directory
that was destroyed were freed with it. -/
def entriesNaming (σ : ObState) (object : Object) : Nat :=
  (((List.range σ.nextObject).filter (σ.deleted · = 0)).flatMap σ.entries).count object

/-- An entry that names an object, in a directory that was destroyed. -/
def Stranded (σ : ObState) (object : Object) : Prop := ∃ d, directoryOf σ object = some d ∧ σ.deleted d ≠ 0

theorem Sound.entries_distinct (sound : Sound σ ℓ) :
    (((range σ.nextObject).filter (σ.deleted · = 0)).flatMap σ.entries).Nodup := by
  have names := sound.names
  rw [nodup_flatMap]
  refine ⟨fun d _ => names.nodup d, (nodup_range.filter _).imp ?_⟩
  intro d e different
  refine disjoint_left.mpr fun o first second => different ?_
  rw [names.entry] at first second
  exact Option.some.inj (first.symm.trans second)

theorem Sound.mem_entries (sound : Sound σ ℓ) (object : Object) :
    object ∈ ((range σ.nextObject).filter (σ.deleted · = 0)).flatMap σ.entries ↔
      (directoryOf σ object).isSome = true ∧ ¬ Stranded σ object := by
  simp only [mem_flatMap, mem_filter, mem_range, decide_eq_true_eq, sound.names.entry]
  constructor
  · rintro ⟨d, ⟨_, live⟩, entry⟩
    refine ⟨entry ▸ rfl, ?_⟩
    rintro ⟨e, other, gone⟩
    obtain rfl := Option.some.inj (entry.symm.trans other)
    exact gone live
  · rintro ⟨named, kept⟩
    obtain ⟨d, entry⟩ := Option.isSome_iff_exists.mp named
    exact ⟨d, ⟨(sound.names.directory entry).2, by_contra fun gone => kept ⟨d, entry, gone⟩⟩, entry⟩

/-- The line of an object's entry in its account, less what was freed. -/
theorem Sound.linked_eq (sound : Sound σ ℓ) (object : Object) [Decidable (Stranded σ object)] :
    linked σ object = entriesNaming σ object + if Stranded σ object then 1 else 0 := by
  have listed := sound.mem_entries object
  rw [entriesNaming, linked]
  by_cases stranded : Stranded σ object
  · have named : (directoryOf σ object).isSome = true := by
      obtain ⟨d, entry, _⟩ := stranded
      rw [entry, Option.isSome_some]
    rw [if_pos named, if_pos stranded, count_eq_zero.mpr fun member => (listed.mp member).2 stranded]
  · rw [if_neg stranded, Nat.add_zero]
    by_cases named : (directoryOf σ object).isSome = true
    · rw [if_pos named, count_eq_one_of_mem sound.entries_distinct (listed.mpr ⟨named, stranded⟩)]
    · rw [if_neg named, count_eq_zero.mpr fun member => named (listed.mp member).1]

namespace ObSystem

/-- The references of creators and holders, the open handles and the entries. -/
def references (s : ObSystem) (object : Object) : Nat :=
  s.ledger.held object + s.ledger.handleCount object + entriesNaming s.objects object

/-- An object is counted right, and deleted once when nothing refers to it. -/
structure CountedRight (s : ObSystem) (object : Object) : Prop where
  count : (s.objects.header object).referenceCount = s.references object
  deleted : s.objects.deleted object = if object < s.objects.nextObject ∧ s.references object = 0 then 1 else 0

end ObSystem

/-- The object whose name an action takes out of its directory. -/
def unnames (s : ObSystem) : ObAction → Option Object
  | .close caller handle mode =>
    (closing s.objects caller handle mode).bind fun line => if Removes s.objects line.2.2 then some line.2.2 else none
  | .makeTemporary object => if (directoryOf s.objects object).isSome then some object else none
  | _ => none

/-- No name is taken out of a directory that was destroyed. -/
def SparesFreed (s : ObSystem) (a : ObAction) : Prop := ∀ o, unnames s a = some o → ¬ Stranded s.objects o

/-- An object is counted right as long as none of its names was taken out of a
directory or lost with it, and deleted right unless it is permanent without a
reference. -/
theorem object_references (booted : Booted σ)
    (run : Run (Guarded (fun s a => ObAdmits s a ∧ SparesFreed s a) fun s a t => t = obStep s a) (.boot σ) actions s)
    (object : Object) :
    s.CountedRight object ↔ s.ledger.leaked object = 0 ∧ ¬ Stranded s.objects object ∧
      ¬ (object < s.objects.nextObject ∧ (s.objects.header object).permanent = true ∧ s.references object = 0) := by
  classical
  have admitted : ObRun σ actions s := run.mono fun stepped => ⟨stepped.1.1, stepped.2⟩
  have sound := admitted.sound booted
  have count : (s.objects.header object).referenceCount
      = s.references object + (if Stranded s.objects object then 1 else 0) + s.ledger.leaked object := by
    rw [sound.counted, ObSystem.references, Ledger.sum, sound.linked_eq]
    push_cast
    omega
  have deleted := sound.deleted object
  constructor
  · intro right
    have counted := right.count
    have kept : ¬ Stranded s.objects object := by
      intro stranded
      rw [if_pos stranded] at count
      omega
    rw [if_neg kept] at count
    refine ⟨by omega, kept, ?_⟩
    rintro ⟨born, permanent, unreferenced⟩
    have taken := right.deleted
    rw [if_pos ⟨born, unreferenced⟩, deleted, permanent] at taken
    simp at taken
  · rintro ⟨leaked, kept, referenced⟩
    have counted : (s.objects.header object).referenceCount = s.references object := by
      rw [if_neg kept] at count
      omega
    refine ⟨counted, deleted.trans ?_⟩
    apply if_congr _ rfl rfl
    rw [counted, Int.natCast_eq_zero]
    constructor
    · rintro ⟨born, unreferenced, _⟩
      exact ⟨born, unreferenced⟩
    · rintro ⟨born, unreferenced⟩
      exact ⟨born, unreferenced, Bool.eq_false_of_not_eq_true fun permanent =>
        referenced ⟨born, permanent, unreferenced⟩⟩

def bootState : ObState where
  header _ := ⟨0, .directory, false, none, none, none⟩
  entries _ := []
  link _ := ⟨[], none⟩
  rootDirectoryObject := none
  kernelTable := (ulCreateHandleTable 1024 true true).get rfl
  processTable _ := none
  genericMapping _ := ⟨0, 0, 0, 0⟩
  nextObject := 0
  deleted _ := 0

theorem bootState_booted : Booted bootState where
  kernel := rfl
  process := nofun
  header _ := ⟨rfl, rfl⟩
  entries _ := rfl
  link _ := rfl
  root := rfl
  nextObject := rfl
  deleted _ := rfl

def kernelCaller : Caller := ⟨none, 0, none⟩

def kernelInfo (name : List Char) (permanent : Bool) : CreateInfo :=
  ⟨⟨0, name, ⟨permanent, false, true⟩⟩, .kernelMode⟩

def unparsed : Object → List Char → ParseOutcome := fun _ _ => .resolved none

/-- The root directory, and an object that is to be inserted as `/a`. -/
def preparedActions : List ObAction :=
  [.create .directory (kernelInfo ['/'] true) none ⟨[], none⟩ true true,
    .insert kernelCaller unparsed 0 (kernelInfo ['/'] true) ⟨none, 0, 0, true, false, true, true⟩,
    .create (.other 0 false) (kernelInfo ['/', 'a'] false) none ⟨[], none⟩ true true]

def preparedSystem : ObSystem := preparedActions.foldl obStep (.boot bootState)

theorem untargeted {link : Object → SymbolicLink} {path : List Char} (none_targeted : ∀ l, (link l).targetObject = none)
    (made : Object) : ∀ l, (Function.update link made ⟨path, none⟩ l).targetObject = none := by
  intro l
  by_cases same : l = made
  · rw [same, Function.update_self]
  · rw [Function.update_of_ne same, none_targeted]

theorem Ledger.releasable_of_untargeted {ℓ : Ledger} {σ : ObState} (held : 0 < ℓ.held object)
    (untargeted : ∀ l, (σ.link l).targetObject = none) : ℓ.Releasable σ object := by
  refine ⟨held, fun l found => ?_⟩
  rw [untargeted] at found
  cases found

theorem preparedSystem_untargeted (l : Object) : (preparedSystem.objects.link l).targetObject = none :=
  untargeted (untargeted (fun _ => rfl) 0) 1 l

theorem preparedSystem_reached : ObRun bootState preparedActions preparedSystem :=
  .next ⟨nofun, rfl⟩ <|
  .next ⟨⟨Ledger.releasable_of_untargeted Nat.one_pos (untargeted (fun _ => rfl) 0), rfl, rfl, nofun, fun _ _ => rfl⟩,
    rfl⟩ <|
  .next ⟨nofun, rfl⟩ <| .refl _

def insertA : InsertCall := ⟨none, 0, 0, false, true, true, true⟩

def handledObjects : ObState :=
  (handleStage (flagged preparedSystem.objects 1 (kernelInfo ['/', 'a'] false)) kernelCaller 1
    (kernelInfo ['/', 'a'] false) insertA).1

def namedObjects : ObState :=
  (obpInsertDirectory (handledObjects.setNameInfo 1 (some ⟨some 0, some ['a']⟩)) 0 1 true).1

theorem obInsertObject_a : obInsertObject preparedSystem.objects kernelCaller unparsed 1 (kernelInfo ['/', 'a'] false)
    insertA = (settled namedObjects 1 insertA, .success, 0x80000004) := by
  have looked : obpLookupObjectName handledObjects kernelCaller unparsed
      ⟨(kernelInfo ['/', 'a'] false).attributes, .kernelMode, some (.other 0 false), true⟩
        = (handledObjects, ⟨.success, none, 0⟩) := by
    have root : handledObjects.rootDirectoryObject = some 0 := rfl
    have referenced : referenceRootDirectory handledObjects kernelCaller
        ⟨(kernelInfo ['/', 'a'] false).attributes, .kernelMode, some (.other 0 false), true⟩ = (.success, none) := rfl
    have result : lookupObjectName (handledObjects.namespaceAt 0) unparsed (LookupCall.request
        ⟨(kernelInfo ['/', 'a'] false).attributes, .kernelMode, some (.other 0 false), true⟩ none)
          = ⟨.success, none, 0⟩ := by
      rw [lookupObjectName, lookupLoop_done rfl]
      rfl
    rw [obpLookupObjectName, root]
    dsimp only
    rw [referenced]
    dsimp only
    rw [result]
    rfl
  have staged : handleStage (flagged preparedSystem.objects 1 (kernelInfo ['/', 'a'] false)) kernelCaller 1
      (kernelInfo ['/', 'a'] false) insertA = (handledObjects, .success, 0x80000004) := rfl
  have rooted : handledObjects.rootDirectoryObject = some 0 := rfl
  have entered : insertStage handledObjects kernelCaller unparsed 1 (kernelInfo ['/', 'a'] false) insertA
      = (namedObjects, .success) := (insertStage_directory (cons_ne_nil _ _) rooted looked rfl rfl rfl).trans rfl
  exact obInsertObject_enters rfl staged entered

def openObjects : ObState := settled namedObjects 1 insertA

def openSystem : ObSystem :=
  ⟨openObjects, ((preparedSystem.ledger.inserting 1).setHeld 1 0).received openObjects kernelCaller 0x80000004,
    Function.update (fun _ => none) 1 (some (0, ['a']))⟩

theorem preparedSystem_admits :
    ObAdmits preparedSystem (.insert kernelCaller unparsed 1 (kernelInfo ['/', 'a'] false) insertA) :=
  ⟨Ledger.releasable_of_untargeted Nat.one_pos preparedSystem_untargeted, rfl, rfl, nofun, nofun⟩

theorem openSystem_reached : ObRun bootState
    (preparedActions ++ [.insert kernelCaller unparsed 1 (kernelInfo ['/', 'a'] false) insertA]) openSystem := by
  have inserted : obStep preparedSystem (.insert kernelCaller unparsed 1 (kernelInfo ['/', 'a'] false) insertA)
      = openSystem := by
    rw [obStep, obInsertObject_a]
    rfl
  exact preparedSystem_reached.trans (.single ⟨preparedSystem_admits, inserted.symm⟩)

/-- The handle and the entry are counted. -/
theorem object_references_open : openSystem.CountedRight 1 := by
  have sparing : ∀ a ∈ preparedActions ++ [.insert kernelCaller unparsed 1 (kernelInfo ['/', 'a'] false) insertA],
      ∀ s, SparesFreed s a :=
    forall_mem_cons.mpr ⟨fun _ => nofun, forall_mem_cons.mpr ⟨fun _ => nofun,
      forall_mem_cons.mpr ⟨fun _ => nofun, forall_mem_singleton.mpr fun _ => nofun⟩⟩⟩
  refine (object_references bootState_booted (openSystem_reached.guard sparing) 1).mpr ⟨rfl, ?_, by decide⟩
  rintro ⟨d, entry, gone⟩
  obtain rfl : 0 = d := Option.some.inj entry
  exact gone rfl

/-- The name of the object goes with its handle, the reference of the name does not. -/
theorem object_references_lost : ∃ s, ObRun bootState (preparedActions ++
      [.insert kernelCaller unparsed 1 (kernelInfo ['/', 'a'] false) insertA] ++
        [.close kernelCaller 0x80000004 .kernelMode]) s ∧ ¬ s.CountedRight 1 := by
  refine ⟨_, openSystem_reached.trans (.single ⟨trivial, rfl⟩), ?_⟩
  intro right
  exact absurd right.count (by decide)

end VeaOS.Ob

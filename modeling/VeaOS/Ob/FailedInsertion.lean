import VeaOS.Ob.ReferenceCounts

/-! A failed insertion. What it did is undone, and the reference of the creator
goes; the flag of a permanent object stays, and with it the object. -/
namespace VeaOS.Ob
open Sf Ul Transition Function

/-- Directories, tables and the other objects are as before, and the object is
destroyed once if the creator's reference was the only one. -/
structure Undone (σ σ' : ObState) (object : Object) : Prop where
  entries : σ'.entries = σ.entries
  root : σ'.rootDirectoryObject = σ.rootDirectoryObject
  tables (which : TableId) : σ'.table which = σ.table which
  others {o} : o ≠ object → σ'.header o = σ.header o ∧ σ'.link o = σ.link o ∧ σ'.deleted o = σ.deleted o
  unlinked : directoryOf σ' object = none
  count : (σ'.header object).referenceCount = (σ.header object).referenceCount - 1
  destroyed : σ'.deleted object = σ.deleted object + if (σ.header object).referenceCount = 1 then 1 else 0

theorem Undone.written {h : ObjectHeader} {link : Object → SymbolicLink}
    (count : h.referenceCount = (σ.header object).referenceCount - 1)
    (unnamed : h.nameInfo.bind NameInfo.directory = none) (links : ∀ o, o ≠ object → link o = σ.link o)
    (destroyed : k = σ.deleted object + if (σ.header object).referenceCount = 1 then 1 else 0) :
    Undone σ { σ.setHeader object h with deleted := update σ.deleted object k, link := link } object := by
  have header : ({ σ.setHeader object h with
      deleted := update σ.deleted object k, link := link } : ObState).header object = h :=
    ObState.header_setHeader
  constructor
  case entries => rfl
  case root => rfl
  case tables => exact fun which => by cases which <;> rfl
  case others =>
    exact fun other => ⟨ObState.header_setHeader_ne other, links _ other, update_of_ne other ..⟩
  case unlinked =>
    rw [directoryOf, header]
    exact unnamed
  case count => rw [header, count]
  case destroyed => exact (update_self ..).trans destroyed

theorem obDereferenceObject_givenUp (σ : ObState) (object : Object) (p : Bool)
    (unnamed : nameInfo.bind NameInfo.directory = none) :
    Undone σ (obDereferenceObject (givenUp σ object p nameInfo) object) object ↔
      ((σ.header object).referenceCount = 1 → p = false) := by
  have written : (givenUp σ object p nameInfo).header object
      = { σ.header object with permanent := p, nameInfo := nameInfo } := ObState.header_setHeader
  have lowered : (givenUp σ object p nameInfo).setCount object ((σ.header object).referenceCount - 1)
      = σ.setHeader object { σ.header object with
          referenceCount := (σ.header object).referenceCount - 1, permanent := p, nameInfo := nameInfo } := by
    rw [ObState.setCount, written, givenUp, ObState.setHeader_setHeader]
  have kept : ∀ h, σ.setHeader object h = { σ.setHeader object h with
      deleted := update σ.deleted object (σ.deleted object), link := σ.link } := by
    intro h
    rw [update_eq_self]
    rfl
  rw [obDereferenceObject, written]
  dsimp only
  rw [lowered, ObState.header_setHeader]
  split
  next zero =>
    have last : (σ.header object).referenceCount = 1 := by omega
    split
    next permanent =>
      have permanent : p = true := permanent
      refine iff_of_false (fun undone => ?_) (fun temporary => ?_)
      · have destroyed := undone.destroyed
        rw [if_pos last] at destroyed
        exact absurd destroyed (Nat.ne_of_lt (Nat.lt_succ_self _))
      · rw [temporary last] at permanent
        cases permanent
    next temporary =>
      refine iff_of_true ?_ fun _ => Bool.eq_false_of_not_eq_true temporary
      rw [destroyObject_unlinked, ObState.header_setHeader, ObState.setHeader_setHeader]
      · apply Undone.written
        · rfl
        · cases nameInfo with
          | none => rfl
          | some _ => exact unnamed
        · intro o other
          dsimp only
          split
          · exact update_of_ne other ..
          · rfl
        · rw [if_pos last]
          rfl
      · rw [directoryOf, ObState.header_setHeader]
        exact unnamed
  next remaining =>
    have more : (σ.header object).referenceCount ≠ 1 := by omega
    refine iff_of_true ?_ fun last => absurd last more
    rw [kept]
    exact Undone.written rfl unnamed (fun _ _ => rfl) (by rw [if_neg more]; rfl)

/-- A failed insertion undoes what it did, unless it leaves a permanent object
without a reference. -/
theorem failed_insertion (booted : Booted σ) (run : ObRun σ actions s)
    (admitted : ObAdmits s (.insert caller parse object info call))
    (inserted : obInsertObject s.objects caller parse object info call = (σ', status, handle))
    (failed : status.isSuccess = false) :
    handle = 0 ∧ (Undone s.objects σ' object ↔ ((s.objects.header object).referenceCount = 1 →
      ((s.objects.header object).permanent || info.attributes.attributes.permanent) = false)) := by
  have sound := run.sound booted
  obtain ⟨releasable, waiting, _, parses, _⟩ := admitted
  have counted := sound.counted_pos.mpr (Ledger.sum_pos_of_held s.objects releasable.1)
  obtain ⟨nameInfo, _, unnamed, none_returned, rfl⟩ :=
    obInsertObject_failed (sound.sheltered parses) sound.tables counted inserted failed
  exact ⟨none_returned, obDereferenceObject_givenUp _ _ _ unnamed⟩

def refusedInfo (permanent : Bool) : CreateInfo := ⟨⟨0, [], ⟨permanent, false, true⟩⟩, .userMode⟩

def refusedActions (permanent : Bool) : List ObAction :=
  [.create (.other 0 false) (refusedInfo permanent) none ⟨[], none⟩ true true]

def refusedSystem (permanent : Bool) : ObSystem := (refusedActions permanent).foldl obStep (.boot bootState)

theorem refusedSystem_reached (permanent : Bool) :
    ObRun bootState (refusedActions permanent) (refusedSystem permanent) :=
  .next ⟨nofun, rfl⟩ <| .refl _

theorem refusedSystem_admits (permanent : Bool) :
    ObAdmits (refusedSystem permanent) (.insert kernelCaller unparsed 0 (refusedInfo permanent) insertA) :=
  ⟨Ledger.releasable_of_untargeted Nat.one_pos (untargeted (fun _ => rfl) 0), rfl, rfl, nofun, nofun⟩

/-- An object that is to be inserted as `/A`, beside `/a`. -/
def secondSystem : ObSystem :=
  obStep openSystem (.create (.other 0 false) (kernelInfo ['/', 'A'] false) none ⟨[], none⟩ true true)

theorem secondSystem_untargeted : ∀ l, (secondSystem.objects.link l).targetObject = none :=
  untargeted preparedSystem_untargeted 2

def secondHandled : ObState :=
  (handleStage (flagged secondSystem.objects 2 (kernelInfo ['/', 'A'] false)) kernelCaller 2
    (kernelInfo ['/', 'A'] false) insertA).1

/-- The object has its handle when its name turns out to be there in the other case. -/
theorem obInsertObject_second :
    (obInsertObject secondSystem.objects kernelCaller unparsed 2 (kernelInfo ['/', 'A'] false) insertA).2
      = (.objectNameCollision, 0) := by
  have looked : obpLookupObjectName secondHandled kernelCaller unparsed
      ⟨(kernelInfo ['/', 'A'] false).attributes, .kernelMode, some (.other 0 false), true⟩
        = (secondHandled, ⟨.success, none, 0⟩) := by
    have root : secondHandled.rootDirectoryObject = some 0 := rfl
    have referenced : referenceRootDirectory secondHandled kernelCaller
        ⟨(kernelInfo ['/', 'A'] false).attributes, .kernelMode, some (.other 0 false), true⟩ = (.success, none) := rfl
    have result : lookupObjectName (secondHandled.namespaceAt 0) unparsed (LookupCall.request
        ⟨(kernelInfo ['/', 'A'] false).attributes, .kernelMode, some (.other 0 false), true⟩ none)
          = ⟨.success, none, 0⟩ := by
      rw [lookupObjectName, lookupLoop_done rfl]
      rfl
    rw [obpLookupObjectName, root]
    dsimp only
    rw [referenced]
    dsimp only
    rw [result]
    rfl
  have staged : handleStage (flagged secondSystem.objects 2 (kernelInfo ['/', 'A'] false)) kernelCaller 2
      (kernelInfo ['/', 'A'] false) insertA = (secondHandled, .success, 0x80000008) := rfl
  have rooted : secondHandled.rootDirectoryObject = some 0 := rfl
  have refused : obpInsertDirectory (secondHandled.setNameInfo 2 (some ⟨some 0, some ['A']⟩)) 0 2 true
      = (secondHandled.setNameInfo 2 (some ⟨some 0, some ['A']⟩), .objectNameCollision) := rfl
  have entered : insertStage secondHandled kernelCaller unparsed 2 (kernelInfo ['/', 'A'] false) insertA
      = (secondHandled.setNameInfo 2 (some ⟨some 0, some ['A']⟩), .objectNameCollision) :=
    (insertStage_directory (List.cons_ne_nil _ _) rooted looked rfl rfl rfl).trans refused
  rw [obInsertObject_undone rfl staged entered rfl]

/-- The insertion of a second object under a name that differs in its case only. -/
theorem failed_insertion_refused : Undone secondSystem.objects
    (obInsertObject secondSystem.objects kernelCaller unparsed 2 (kernelInfo ['/', 'A'] false) insertA).1 2 := by
  have created : ObAdmits openSystem
      (.create (.other 0 false) (kernelInfo ['/', 'A'] false) none ⟨[], none⟩ true true) := nofun
  have reached : ObRun bootState _ secondSystem := openSystem_reached.trans (.single ⟨created, rfl⟩)
  have admits : ObAdmits secondSystem (.insert kernelCaller unparsed 2 (kernelInfo ['/', 'A'] false) insertA) :=
    ⟨Ledger.releasable_of_untargeted Nat.one_pos secondSystem_untargeted, rfl, rfl, nofun, nofun⟩
  have failed : (obInsertObject secondSystem.objects kernelCaller unparsed 2 (kernelInfo ['/', 'A'] false)
      insertA).2.1.isSuccess = false := congrArg (fun result => result.1.isSuccess) obInsertObject_second
  exact (failed_insertion bootState_booted reached admits rfl failed).2.mpr fun _ => rfl

/-- The call of a user who asks for a kernel handle, for a permanent object. -/
theorem failed_insertion_permanent : ∃ s, ObRun bootState (refusedActions true) s ∧
    ObAdmits s (.insert kernelCaller unparsed 0 (refusedInfo true) insertA) ∧
    (obInsertObject s.objects kernelCaller unparsed 0 (refusedInfo true) insertA).2.1 = .invalidParameter ∧
    (s.objects.header 0).referenceCount = 1 ∧
    ¬ Undone s.objects (obInsertObject s.objects kernelCaller unparsed 0 (refusedInfo true) insertA).1 0 := by
  refine ⟨_, refusedSystem_reached true, refusedSystem_admits true, rfl, rfl, fun undone => ?_⟩
  exact absurd undone.destroyed (by decide)

end VeaOS.Ob

import VeaOS.Ob.ObjectStages
import VeaOS.Ul.HandleRuns

/-! What `ObInsertObject` leaves behind: on success a handle and a name, on
failure the header of the object. -/
namespace VeaOS.Ob
open Sf Ul Function ObState Option

def Blank (T : ObjectTable) : Prop :=
  ∀ i, (T.entries i).object = none → (T.entries i).grantedAccess = 0 ∧ (T.entries i).ownerThread = none

/-- The open handles account for every table; the tables of the source have 100
and 1024 entries. -/
structure TablesKept (σ : ObState) (grants : TableId → List (Grant Object)) : Prop where
  accounted {which T} : σ.table which = some T → ∃ free, Accounted T free (grants which)
  blank {which T} : σ.table which = some T → Blank T
  small {which T} : σ.table which = some T → T.maxEntries ≤ 1024
  absent {which} : σ.table which = none → grants which = []

section
variable {T T' : ObjectTable}

theorem created_entry (accounted : Accounted T free grants)
    (made : ulCreateHandle T (some object) granted thread = (T', handle)) (nonzero : handle ≠ 0) :
    ∃ x rest, free = x :: rest ∧ handle = indexToHandle x ∧ 0 < x ∧ x < T.maxEntries ∧
      T.firstFreeIndex = x ∧ (T.entries x).object = none ∧
      T' = { T with
        entries := update T.entries x ⟨some object, granted, 0, some thread⟩
        firstFreeIndex := (T.entries x).nextFreeIndex
        handleCount := T.handleCount + 1 } := by
  have fails := accounted.create_fails object granted thread
  rw [made] at fails
  cases free with
  | nil => exact absurd (fails.mpr rfl) nonzero
  | cons x rest =>
    obtain ⟨head, positive, _⟩ := accounted.chain
    have bound := accounted.mem_iff.mp (List.mem_append_left _ List.mem_cons_self)
    simp only [ulCreateHandle, isNone_some, Bool.false_eq_true, if_false, head, if_neg positive] at made
    obtain ⟨rfl, rfl⟩ := Prod.mk.inj made
    exact ⟨x, rest, rfl, rfl, bound.1, bound.2, head, accounted.empty List.mem_cons_self, rfl⟩

theorem created_destroyed (accounted : Accounted T free grants) (blank : Blank T) (small : T.maxEntries ≤ 1024)
    (made : ulCreateHandle T (some object) granted thread = (T', handle)) (nonzero : handle ≠ 0) :
    ulDestroyHandle T' handle = (T, .success, some object) := by
  obtain ⟨x, rest, rfl, rfl, positive, bound, first, unused, rfl⟩ := created_entry accounted made nonzero
  have index : handleToIndex (indexToHandle x) = x := index_handle (by omega)
  have entry : (⟨none, 0, (T.entries x).nextFreeIndex, none⟩ : HandleTableEntry Object Nat) = T.entries x := by
    obtain ⟨access, owner⟩ := blank x unused
    generalize T.entries x = entry at unused access owner ⊢
    cases entry
    simp_all
  rw [ulDestroyHandle, if_neg nonzero]
  simp only [index, update_self, update_idem, entry, update_eq_self]
  rw [if_neg (by omega), BitVec.add_sub_cancel, ← first]

end

/-- The handle stage of an insertion that goes on. -/
inductive Handled (σ : ObState) (caller : Caller) (object : Object) : ObState → Handle → Prop
  | unasked : Handled σ caller object σ 0
  | created (table : σ.table which = some T) (made : ulCreateHandle T (some object) granted thread = (T', handle))
      (nonzero : handle ≠ 0)
      (returned : which = none ∧ handle' = obMarkHandleAsKernelHandle handle ∨
        which = caller.process ∧ which ≠ none ∧ handle' = handle) :
      Handled σ caller object ((obReferenceObject σ object).setTable which T') handle'

theorem obMarkHandleAsKernelHandle_ne_zero (handle : Handle) : obMarkHandleAsKernelHandle handle ≠ 0 := by
  intro zero
  have flag : kernelHandleFlag.msb = true := rfl
  have msb := congrArg BitVec.msb zero
  rw [obMarkHandleAsKernelHandle, BitVec.msb_or, flag, Bool.or_true] at msb
  cases msb

theorem obpCreateHandle_spec (live : Live σ object)
    (made : obpCreateHandle σ caller object attributes mode granted = (σ', status, handle)) :
    (status.isSuccess = true → Handled σ caller object σ' handle ∧ handle ≠ 0) ∧
    (status.isSuccess = false → σ' = σ ∧ handle = 0) := by
  rw [obpCreateHandle] at made
  dsimp only at made
  split at made
  next =>
    simp only [Prod.mk.injEq] at made
    obtain ⟨rfl, rfl, rfl⟩ := made
    exact ⟨nofun, fun _ => ⟨rfl, rfl⟩⟩
  next =>
    split at made
    next =>
      simp only [Prod.mk.injEq] at made
      obtain ⟨rfl, rfl, rfl⟩ := made
      exact ⟨nofun, fun _ => ⟨rfl, rfl⟩⟩
    next T table =>
      rcases called : ulCreateHandle T (some object) granted caller.thread with ⟨T', created⟩
      rw [called] at made
      dsimp only at made
      split at made
      next =>
        simp only [Prod.mk.injEq] at made
        obtain ⟨rfl, rfl, rfl⟩ := made
        exact ⟨nofun, fun _ => ⟨dereference_reference live, rfl⟩⟩
      next nonzero =>
        simp only [Prod.mk.injEq] at made
        obtain ⟨rfl, rfl, rfl⟩ := made
        refine ⟨fun _ => ?_, nofun⟩
        cases kernel : attributes.kernelHandle || caller.process.isNone with
        | true =>
          rw [kernel] at table
          exact ⟨.created table called nonzero (Or.inl ⟨rfl, rfl⟩), obMarkHandleAsKernelHandle_ne_zero created⟩
        | false =>
          rw [kernel] at table
          have process : caller.process ≠ none := by
            rintro absent
            rw [absent, isNone_none, Bool.or_true] at kernel
            cases kernel
          exact ⟨.created table called nonzero (Or.inr ⟨rfl, process, rfl⟩), nonzero⟩

theorem handleStage_spec (live : Live σ object)
    (handled : handleStage σ caller object info call = (σ', status, handle)) :
    (status.isSuccess = true → Handled σ caller object σ' handle) ∧
    (status.isSuccess = false → σ' = σ) := by
  rw [handleStage] at handled
  split at handled
  next =>
    simp only [Prod.mk.injEq] at handled
    obtain ⟨rfl, rfl, rfl⟩ := handled
    exact ⟨fun _ => .unasked, nofun⟩
  next =>
    split at handled
    next =>
      simp only [Prod.mk.injEq] at handled
      obtain ⟨rfl, rfl, rfl⟩ := handled
      exact ⟨nofun, fun _ => rfl⟩
    next =>
      obtain ⟨created, failed⟩ := obpCreateHandle_spec live handled
      exact ⟨fun success => (created success).1, fun failure => (failed failure).1⟩

theorem and_kernelHandleFlag (handle : Handle) :
    handle &&& kernelHandleFlag = if handle.msb then kernelHandleFlag else 0 := by
  have flag : kernelHandleFlag = BitVec.twoPow 32 31 := rfl
  rw [flag, BitVec.and_twoPow]
  rfl

theorem obKernelHandleToHandle_mark (small : handle.msb = false) :
    obKernelHandleToHandle (obMarkHandleAsKernelHandle handle) = handle := by
  have clear : handle &&& kernelHandleFlag = 0#32 := by
    rw [and_kernelHandleFlag, small]
    rfl
  calc (handle ||| kernelHandleFlag) &&& ~~~kernelHandleFlag
      = handle &&& ~~~kernelHandleFlag := by
        rw [BitVec.and_or_distrib_right, BitVec.and_not_self]
        exact BitVec.or_zero
    _ = (handle &&& kernelHandleFlag) ||| (handle &&& ~~~kernelHandleFlag) := by
        rw [clear, BitVec.zero_or]
    _ = handle := by
        rw [← BitVec.and_or_distrib_left, BitVec.or_not_self, BitVec.and_allOnes]

theorem indexToHandle_msb (small : x ≤ 1024) : (indexToHandle x).msb = false := by
  rw [BitVec.msb_eq_decide, indexToHandle, BitVec.toNat_shiftLeft, BitVec.toNat_ofNat, Nat.shiftLeft_eq]
  exact decide_eq_false (by omega)

theorem tableIdOf_made (small : handle.msb = false)
    (returned : which = none ∧ handle' = obMarkHandleAsKernelHandle handle ∨
      which = caller.process ∧ which ≠ none ∧ handle' = handle) :
    tableIdOf caller handle' .kernelMode = (some which, handle) := by
  rcases returned with ⟨rfl, rfl⟩ | ⟨rfl, process, rfl⟩
  · have flagged : (obMarkHandleAsKernelHandle handle).msb = true := by
      rw [obMarkHandleAsKernelHandle, BitVec.msb_or]
      exact Bool.or_true _
    have kernel : obpIsKernelHandle (obMarkHandleAsKernelHandle handle) .kernelMode = true := by
      rw [obpIsKernelHandle, and_kernelHandleFlag, flagged]
      rfl
    rw [tableIdOf, if_pos kernel, obKernelHandleToHandle_mark small]
  · have user : ¬ obpIsKernelHandle handle' .kernelMode = true := by
      rw [obpIsKernelHandle, and_kernelHandleFlag, small]
      decide
    obtain ⟨p, given⟩ := ne_none_iff_exists'.mp process
    rw [tableIdOf, if_neg user, given]
    rfl

theorem Handled.closed (handled : Handled σ caller object σ' handle) (tables : TablesKept σ grants)
    (h : ObjectHeader) (unlinked : h.nameInfo.bind NameInfo.directory = none) (nonzero : handle ≠ 0) :
    obCloseHandle (σ'.setHeader object h) caller handle .kernelMode
      = obDereferenceObject ((obReferenceObject σ object).setHeader object h) object := by
  cases handled with
  | unasked => exact absurd rfl nonzero
  | @created which T granted thread T' created _ table made created_ne returned =>
    obtain ⟨free, accounted⟩ := tables.accounted table
    have small := tables.small table
    obtain ⟨x, _, _, rfl, _, bound, _⟩ := created_entry accounted made created_ne
    have destroyed := created_destroyed accounted (tables.blank table) small made created_ne
    have selected := tableIdOf_made (indexToHandle_msb (by omega)) returned
    have checked : obpDeleteNameCheck ((obReferenceObject σ object).setHeader object h) object
        = (obReferenceObject σ object).setHeader object h := by
      rw [obpDeleteNameCheck, header_setHeader, unlinked]
      exact ite_self _
    have found : (obReferenceObject σ object).table which = some T := by
      rw [obReferenceObject, setCount, table_setHeader, table]
    have restored : (((obReferenceObject σ object).setTable which T').setHeader object h).setTable which T
        = (obReferenceObject σ object).setHeader object h := by
      rw [setTable_setHeader, setTable_setTable found]
    rw [obCloseHandle, if_neg nonzero, selected]
    dsimp only
    rw [destroyHandle, table_setHeader, table_setTable]
    dsimp only
    rw [destroyed]
    dsimp only
    rw [restored, checked]

theorem Live.setHeader (live : Live σ x) (kept : Live σ object → Live (σ.setHeader object h) object) :
    Live (σ.setHeader object h) x := by
  by_cases same : x = object
  · exact same ▸ kept (same ▸ live)
  · rw [Live, header_setHeader_ne same]
    exact live

theorem Sheltered.setHeader (sheltered : Sheltered σ parse)
    (kept : Live σ object → Live (σ.setHeader object h) object) : Sheltered (σ.setHeader object h) parse where
  root found := (sheltered.root found).setHeader kept
  entry member := (sheltered.entry member).setHeader kept
  target link := (sheltered.target link).setHeader kept
  parsed outcome := (sheltered.parsed outcome).setHeader kept
  handle := by
    rintro o which i ⟨T, table, inside⟩
    rw [table_setHeader] at table
    exact (sheltered.handle ⟨T, table, inside⟩).setHeader kept

theorem Handled.open_at (handled : Handled σ caller object σ' handle) (tables : TablesKept σ grants)
    (opened : OpenAt σ' which i o) : OpenAt σ which i o ∨ o = object := by
  cases handled with
  | unasked => exact Or.inl opened
  | @created made_in T granted thread T' created _ table made created_ne returned =>
    obtain ⟨free, accounted⟩ := tables.accounted table
    obtain ⟨x, _, _, rfl, _, bound, _, _, rfl⟩ := created_entry accounted made created_ne
    obtain ⟨T₁, table₁, positive, inside, used⟩ := opened
    by_cases same : which = made_in
    · subst same
      rw [table_setTable] at table₁
      obtain rfl := some.inj table₁
      dsimp only at used
      by_cases entry : i = x
      · subst entry
        rw [update_self] at used
        exact Or.inr (some.inj used).symm
      · rw [update_of_ne entry] at used
        exact Or.inl ⟨T, table, positive, inside, used⟩
    · rw [table_setTable_ne same, obReferenceObject, setCount, table_setHeader] at table₁
      exact Or.inl ⟨T₁, table₁, positive, inside, used⟩

/-- The header of an object as a failed insertion gives it up. -/
def givenUp (σ : ObState) (object : Object) (permanent : Bool) (nameInfo : Option NameInfo) : ObState :=
  σ.setHeader object { σ.header object with permanent := permanent, nameInfo := nameInfo }

theorem givenUp_live (live : 0 < (σ.header object).referenceCount) :
    Live (givenUp σ object permanent nameInfo) object := by
  rw [Live, givenUp, header_setHeader]
  exact Or.inl live

/-- The object with the permanent flag that an insertion gives it. -/
def flagged (σ : ObState) (object : Object) (info : CreateInfo) : ObState :=
  givenUp σ object ((σ.header object).permanent || info.attributes.attributes.permanent)
    (σ.header object).nameInfo

theorem flagged_eq (σ : ObState) (object : Object) (info : CreateInfo) :
    (if info.attributes.attributes.permanent then σ.setPermanent object true else σ) = flagged σ object info := by
  rw [flagged, givenUp]
  cases info.attributes.attributes.permanent with
  | true => rw [if_pos rfl, Bool.or_true]; rfl
  | false => rw [if_neg Bool.false_ne_true, Bool.or_false]; exact setHeader_self.symm

theorem Handled.nameInfo (handled : Handled (flagged σ object info) caller object σ' handle) :
    (σ'.header object).nameInfo = (σ.header object).nameInfo := by
  cases handled with
  | unasked => rw [flagged, givenUp, header_setHeader]
  | created =>
    rw [header_setTable, obReferenceObject, setCount, header_setHeader, flagged, givenUp,
      header_setHeader]

theorem Handled.live (handled : Handled σ caller object σ' handle) (live : Live σ o) : Live σ' o := by
  cases handled with
  | unasked => exact live
  | created =>
    rw [Live, header_setTable]
    exact live.reference

theorem Handled.rest (handled : Handled σ caller object σ' handle) :
    σ'.entries = σ.entries ∧ σ'.link = σ.link ∧ σ'.rootDirectoryObject = σ.rootDirectoryObject := by
  cases handled with
  | unasked => exact ⟨rfl, rfl, rfl⟩
  | @created which => cases which <;> exact ⟨rfl, rfl, rfl⟩

theorem Handled.sheltered (handled : Handled σ caller object σ' handle) (tables : TablesKept σ grants)
    (live : Live σ object) (sheltered : Sheltered σ parse) : Sheltered σ' parse := by
  obtain ⟨entries, link, root⟩ := handled.rest
  constructor
  case root => exact fun found => handled.live (sheltered.root (root ▸ found))
  case entry => exact fun member => handled.live (sheltered.entry (entries ▸ member))
  case target => exact fun found => handled.live (sheltered.target (link ▸ found))
  case parsed => exact fun outcome => handled.live (sheltered.parsed outcome)
  case handle =>
    intro o which i opened
    rcases handled.open_at tables opened with before | rfl
    · exact handled.live (sheltered.handle before)
    · exact handled.live live

theorem insertFailed_unhandled (σ : ObState) (caller : Caller) (object : Object) (info : CreateInfo) :
    ∃ nameInfo, nameInfo.isSome = (σ.header object).nameInfo.isSome ∧
      nameInfo.bind NameInfo.directory = none ∧
      insertFailed (flagged σ object info) caller object 0 = obDereferenceObject
        (givenUp σ object ((σ.header object).permanent || info.attributes.attributes.permanent) nameInfo) object := by
  refine ⟨(σ.header object).nameInfo.map fun info => { info with directory := none }, ?_, ?_, ?_⟩
  · rw [isSome_map]
  · cases (σ.header object).nameInfo <;> rfl
  · rw [insertFailed, if_pos rfl, clearDirectory, flagged, givenUp, setNameInfo]
    simp only [header_setHeader, setHeader_setHeader]
    rfl

theorem TablesKept.congr (tables : TablesKept σ grants) (same : ∀ which, σ'.table which = σ.table which) :
    TablesKept σ' grants where
  accounted found := tables.accounted (same _ ▸ found)
  blank found := tables.blank (same _ ▸ found)
  small found := tables.small (same _ ▸ found)
  absent found := tables.absent (same _ ▸ found)

theorem TablesKept.setHeader (tables : TablesKept σ grants) (object : Object) (h : ObjectHeader) :
    TablesKept (σ.setHeader object h) grants :=
  tables.congr fun _ => table_setHeader

theorem insertFailed_handled (tables : TablesKept σ grants) (counted : 0 < (σ.header object).referenceCount)
    (handled : Handled (flagged σ object info) caller object σ₁ handle)
    (present : written.isSome = (σ.header object).nameInfo.isSome) :
    ∃ nameInfo, nameInfo.isSome = (σ.header object).nameInfo.isSome ∧
      nameInfo.bind NameInfo.directory = none ∧
      insertFailed (σ₁.setNameInfo object written) caller object handle = obDereferenceObject
        (givenUp σ object ((σ.header object).permanent || info.attributes.attributes.permanent) nameInfo) object := by
  have unlinked : (written.map fun info => { info with directory := none }).bind NameInfo.directory = none := by
    cases written <;> rfl
  refine ⟨written.map fun info => { info with directory := none }, ?_, unlinked, ?_⟩
  · rw [isSome_map, present]
  · have cleared : clearDirectory (σ₁.setNameInfo object written) object = σ₁.setHeader object
        { σ₁.header object with nameInfo := written.map fun info => { info with directory := none } } := by
      simp only [clearDirectory, setNameInfo, header_setHeader, setHeader_setHeader]
    rw [insertFailed, cleared]
    have handled_again := handled
    cases handled with
    | unasked =>
      rw [if_pos rfl]
      simp only [flagged, givenUp, header_setHeader, setHeader_setHeader]
    | created table made created_ne returned =>
      have nonzero : handle ≠ 0 := by
        rcases returned with ⟨_, rfl⟩ | ⟨_, _, rfl⟩
        · exact obMarkHandleAsKernelHandle_ne_zero _
        · exact created_ne
      have live : Live (givenUp σ object ((σ.header object).permanent || info.attributes.attributes.permanent)
        (written.map fun info => { info with directory := none })) object := givenUp_live counted
      rw [if_neg nonzero, handled_again.closed (tables.setHeader ..) _ unlinked nonzero,
        header_setTable]
      congr 1
      rw [← dereference_reference live]
      congr 1
      simp only [flagged, givenUp, obReferenceObject, setCount, header_setHeader,
        setHeader_setHeader]

theorem insertStage_spec (sheltered : Sheltered σ parse)
    (inserted : insertStage σ caller parse object info call = (σ', status)) :
    (status.isSuccess = true → Named σ caller parse object info σ') ∧
    (status.isSuccess = false → ∃ nameInfo, nameInfo.isSome = (σ.header object).nameInfo.isSome ∧
      σ' = σ.setNameInfo object nameInfo) := by
  rw [insertStage] at inserted
  split at inserted
  next name =>
    obtain ⟨rfl, rfl⟩ := Prod.mk.inj inserted
    exact ⟨fun _ => .unnamed name, nofun⟩
  next name =>
    split at inserted
    next first =>
      split at inserted
      next =>
        obtain ⟨rfl, rfl⟩ := Prod.mk.inj inserted
        exact ⟨nofun, fun _ => ⟨_, rfl, setHeader_self.symm⟩⟩
      next root =>
        obtain ⟨rfl, rfl⟩ := Prod.mk.inj inserted
        obtain ⟨type, name⟩ := not_or.mp root
        exact ⟨fun _ => .root first (not_not.mp type) (not_not.mp name), nofun⟩
    next => exact insertName_spec sheltered name inserted

theorem obInsertObject_failed (sheltered : Sheltered σ parse) (tables : TablesKept σ grants)
    (counted : 0 < (σ.header object).referenceCount)
    (inserted : obInsertObject σ caller parse object info call = (σ', status, handle))
    (failed : status.isSuccess = false) :
    ∃ nameInfo, nameInfo.isSome = (σ.header object).nameInfo.isSome ∧
      nameInfo.bind NameInfo.directory = none ∧ handle = 0 ∧
      σ' = obDereferenceObject
        (givenUp σ object ((σ.header object).permanent || info.attributes.attributes.permanent) nameInfo) object := by
  rw [obInsertObject, flagged_eq] at inserted
  have live : Live (flagged σ object info) object := givenUp_live counted
  split at inserted
  next refused _ =>
    simp only [Prod.mk.injEq] at inserted
    obtain ⟨rfl, rfl, rfl⟩ := inserted
    obtain ⟨nameInfo, present, unlinked, result⟩ := insertFailed_unhandled σ caller object info
    exact ⟨nameInfo, present, unlinked, rfl, result⟩
  next =>
    rcases staged : handleStage (flagged σ object info) caller object info call with ⟨σ₁, status₁, newHandle⟩
    obtain ⟨handled, unhandled⟩ := handleStage_spec live staged
    rw [staged] at inserted
    dsimp only at inserted
    split at inserted
    next refused =>
      simp only [Prod.mk.injEq] at inserted
      obtain ⟨rfl, rfl, rfl⟩ := inserted
      obtain rfl := unhandled failed
      obtain ⟨nameInfo, present, unlinked, result⟩ := insertFailed_unhandled σ caller object info
      exact ⟨nameInfo, present, unlinked, rfl, result⟩
    next accepted =>
      have handled := handled (by simpa using accepted)
      have sheltered : Sheltered σ₁ parse :=
        handled.sheltered (tables.setHeader ..) live (sheltered.setHeader fun _ => live)
      rcases placed : insertStage σ₁ caller parse object info call with ⟨σ₂, status₂⟩
      rw [placed] at inserted
      dsimp only at inserted
      split at inserted
      next =>
        simp only [Prod.mk.injEq] at inserted
        obtain ⟨rfl, rfl, rfl⟩ := inserted
        obtain ⟨written, present, rfl⟩ := (insertStage_spec sheltered placed).2 failed
        rw [handled.nameInfo] at present
        obtain ⟨nameInfo, present, unlinked, result⟩ := insertFailed_handled tables counted handled present
        exact ⟨nameInfo, present, unlinked, rfl, result⟩
      next =>
        simp only [Prod.mk.injEq] at inserted
        obtain ⟨_, rfl, _⟩ := inserted
        cases failed

theorem insertRefused_fails (refused : insertRefused name info call = some status) :
    status.isSuccess = false := by
  rw [insertRefused] at refused
  split at refused
  · exact some.inj refused ▸ rfl
  · split at refused
    · exact some.inj refused ▸ rfl
    · split at refused
      · exact some.inj refused ▸ rfl
      · cases refused

def settled (σ : ObState) (object : Object) (call : InsertCall) : ObState :=
  (if call.newObject then (obReferenceObject · object)^[call.objectPointerBias] σ
    else obDereferenceObject σ object).setCreateInfo object none

theorem obInsertObject_inserted (sheltered : Sheltered σ parse) (tables : TablesKept σ grants)
    (counted : 0 < (σ.header object).referenceCount)
    (inserted : obInsertObject σ caller parse object info call = (σ', status, handle))
    (success : status.isSuccess = true) :
    ∃ σ₁ σ₂, Handled (flagged σ object info) caller object σ₁ handle ∧
      Named σ₁ caller parse object info σ₂ ∧ σ' = settled σ₂ object call ∧
      insertRefused info.attributes.objectName info call = none := by
  rw [obInsertObject, flagged_eq] at inserted
  have live : Live (flagged σ object info) object := givenUp_live counted
  split at inserted
  next refused refused_eq =>
    simp only [Prod.mk.injEq] at inserted
    obtain ⟨rfl, rfl, rfl⟩ := inserted
    rw [insertRefused_fails refused_eq] at success
    cases success
  next accepted_call =>
    rcases staged : handleStage (flagged σ object info) caller object info call with ⟨σ₁, status₁, newHandle⟩
    obtain ⟨handled, unhandled⟩ := handleStage_spec live staged
    rw [staged] at inserted
    dsimp only at inserted
    split at inserted
    next refused =>
      simp only [Prod.mk.injEq] at inserted
      obtain ⟨rfl, rfl, rfl⟩ := inserted
      rw [success] at refused
      cases refused
    next accepted =>
      have handled := handled (by simpa using accepted)
      have sheltered : Sheltered σ₁ parse :=
        handled.sheltered (tables.setHeader ..) live (sheltered.setHeader fun _ => live)
      rcases placed : insertStage σ₁ caller parse object info call with ⟨σ₂, status₂⟩
      rw [placed] at inserted
      dsimp only at inserted
      split at inserted
      next refused =>
        simp only [Prod.mk.injEq] at inserted
        obtain ⟨rfl, rfl, rfl⟩ := inserted
        rw [success] at refused
        cases refused
      next placed_success =>
        simp only [Prod.mk.injEq] at inserted
        obtain ⟨rfl, rfl, rfl⟩ := inserted
        exact ⟨σ₁, σ₂, handled, (insertStage_spec sheltered placed).1 (by simpa using placed_success), rfl, accepted_call⟩

/-- The name stage of an insertion whose walk ends in a directory. -/
theorem insertStage_directory (name : info.attributes.objectName ≠ []) (root : σ.rootDirectoryObject = some r)
    (looked : obpLookupObjectName σ caller parse
      ⟨info.attributes, info.processorMode, some (σ.header object).type, true⟩ = (σ, ⟨.success, none, d⟩))
    (type : (σ.header d).type = .directory) (nameInfo : (σ.header object).nameInfo.isSome = true)
    (nameAllocated : call.nameAllocated = true) :
    insertStage σ caller parse object info call =
      obpInsertDirectory (σ.setNameInfo object (some ⟨some d, some (storedName info)⟩)) d object
        call.entryAllocated := by
  have unnamed : (σ.header object).nameInfo.isNone = false := by
    cases given : (σ.header object).nameInfo with
    | none =>
      rw [given] at nameInfo
      cases nameInfo
    | some _ => rfl
  have successful : VeaStatus.success.isSuccess = true := rfl
  rw [insertStage, if_neg name, root]
  dsimp only
  rw [insertName, looked]
  simp only [successful, Bool.not_true, Bool.false_eq_true, if_false, type, if_true, unnamed, nameAllocated]
  rfl

theorem obInsertObject_enters (accepted : insertRefused info.attributes.objectName info call = none)
    (handled : handleStage (flagged σ object info) caller object info call = (σ₁, .success, handle))
    (staged : insertStage σ₁ caller parse object info call = (σ₂, .success)) :
    obInsertObject σ caller parse object info call = (settled σ₂ object call, .success, handle) := by
  rw [obInsertObject, flagged_eq, accepted, handled]
  dsimp only
  rw [staged]
  rfl

theorem obInsertObject_undone (accepted : insertRefused info.attributes.objectName info call = none)
    (handled : handleStage (flagged σ object info) caller object info call = (σ₁, .success, handle))
    (staged : insertStage σ₁ caller parse object info call = (σ₂, status)) (failed : status.isSuccess = false) :
    obInsertObject σ caller parse object info call = (insertFailed σ₂ caller object handle, status, 0) := by
  have successful : VeaStatus.success.isSuccess = true := rfl
  rw [obInsertObject, flagged_eq, accepted, handled]
  dsimp only
  rw [staged]
  simp only [successful, failed, Bool.not_true, Bool.not_false, Bool.false_eq_true, if_false, if_true]

end VeaOS.Ob

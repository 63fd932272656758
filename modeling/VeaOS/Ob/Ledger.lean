import VeaOS.Ob.Insertion

/-! The ledger of references: what creators and holders have, the open handles,
and the references of directory entries that were removed. The count of an
object is the sum of its lines and of the entry that names it. An object that
was not inserted yet is waiting. -/
namespace VeaOS.Ob
open Sf Ul Function NameInfo

structure Ledger where
  held : Object → Nat
  handles : List (TableId × Grant Object)
  leaked : Object → Nat
  waiting : Object → Bool

namespace Ledger

def grants (ℓ : Ledger) (which : TableId) : List (Grant Object) :=
  (ℓ.handles.filter (·.1 = which)).map Prod.snd

def handleCount (ℓ : Ledger) (object : Object) : Nat := ℓ.handles.countP (·.2.object = object)

def setHeld (ℓ : Ledger) (object : Object) (n : Nat) : Ledger :=
  { ℓ with held := Function.update ℓ.held object n }

def openHandle (ℓ : Ledger) (which : TableId) (grant : Grant Object) : Ledger :=
  { ℓ with handles := (which, grant) :: ℓ.handles }

def closeHandle (ℓ : Ledger) (which : TableId) (i : Nat) : Ledger :=
  { ℓ with handles := ℓ.handles.filter fun line => ¬ (line.1 = which ∧ line.2.index = i) }

@[simp] theorem held_setHeld (ℓ : Ledger) (object : Object) (n : Nat) : (ℓ.setHeld object n).held object = n :=
  update_self ..

theorem held_setHeld_ne (ℓ : Ledger) (n : Nat) (other : x ≠ object) : (ℓ.setHeld object n).held x = ℓ.held x :=
  update_of_ne other ..

theorem setHeld_self (ℓ : Ledger) (object : Object) : ℓ.setHeld object (ℓ.held object) = ℓ := by
  rw [setHeld, update_eq_self]

def leak (ℓ : Ledger) (object : Object) : Ledger :=
  { ℓ with leaked := Function.update ℓ.leaked object (ℓ.leaked object + 1) }

theorem grants_openHandle (ℓ : Ledger) (which which' : TableId) (grant : Grant Object) :
    (ℓ.openHandle which grant).grants which' = if which = which' then grant :: ℓ.grants which' else ℓ.grants which' := by
  by_cases same : which = which'
  · simp [grants, openHandle, same]
  · simp [grants, openHandle, same]

theorem handleCount_openHandle (ℓ : Ledger) (which : TableId) (grant : Grant Object) (object : Object) :
    (ℓ.openHandle which grant).handleCount object =
      ℓ.handleCount object + if grant.object = object then 1 else 0 := by
  simp [handleCount, openHandle, List.countP_cons]

theorem grants_closeHandle (ℓ : Ledger) (which which' : TableId) (i : Nat) :
    (ℓ.closeHandle which i).grants which' =
      if which' = which then (ℓ.grants which').filter fun grant => grant.index ≠ i else ℓ.grants which' := by
  by_cases same : which' = which
  · subst same
    rw [if_pos rfl, grants, grants, closeHandle, List.filter_filter, List.filter_map, List.filter_filter]
    congr 1
    apply List.filter_congr
    intro line _
    by_cases table : line.1 = which' <;> simp [table]
  · rw [if_neg same, grants, grants, closeHandle, List.filter_filter]
    congr 1
    apply List.filter_congr
    intro line _
    by_cases table : line.1 = which'
    · simp [table, same]
    · simp [table]

theorem filter_line (ℓ : Ledger) (distinct : ((ℓ.grants which).map Grant.index).Nodup)
    (member : grant ∈ ℓ.grants which) (index : grant.index = i) :
    ℓ.handles.filter (fun line => line.1 = which ∧ line.2.index = i) = [(which, grant)] := by
  have inner : ℓ.handles.filter (fun line => line.1 = which ∧ line.2.index = i)
      = (ℓ.handles.filter (·.1 = which)).filter (·.2.index = i) := by
    rw [List.filter_filter]
    apply List.filter_congr
    intro line _
    simp [Bool.and_comm]
  have nodup : ((ℓ.handles.filter (fun line => line.1 = which ∧ line.2.index = i)).map (·.2.index)).Nodup := by
    rw [grants, List.map_map] at distinct
    rw [inner]
    exact (List.filter_sublist.map _).nodup distinct
  have listed : (which, grant) ∈ ℓ.handles.filter (fun line => line.1 = which ∧ line.2.index = i) := by
    obtain ⟨⟨which', grant'⟩, filtered, rfl⟩ := List.mem_map.mp member
    obtain ⟨written, table⟩ := List.mem_filter.mp filtered
    obtain rfl : which' = which := of_decide_eq_true table
    exact List.mem_filter.mpr ⟨written, decide_eq_true ⟨rfl, index⟩⟩
  have all : ∀ line ∈ ℓ.handles.filter (fun line => line.1 = which ∧ line.2.index = i), line.2.index = i :=
    fun line member => (of_decide_eq_true (List.mem_filter.mp member).2).2
  revert nodup listed all
  generalize ℓ.handles.filter (fun line => line.1 = which ∧ line.2.index = i) = lines
  intro nodup listed all
  match lines with
  | [] => cases listed
  | [line] => rw [List.mem_singleton.mp listed]
  | x :: y :: rest =>
    have first := all x List.mem_cons_self
    have second := all y (List.mem_cons_of_mem x List.mem_cons_self)
    rw [List.map_cons, List.map_cons, first, second] at nodup
    exact absurd List.mem_cons_self (List.nodup_cons.mp nodup).1

theorem closeHandle_perm (ℓ : Ledger) (distinct : ((ℓ.grants which).map Grant.index).Nodup)
    (member : grant ∈ ℓ.grants which) (index : grant.index = i) :
    ℓ.handles.Perm ((which, grant) :: (ℓ.closeHandle which i).handles) := by
  have split := List.filter_append_perm (fun line => decide (line.1 = which ∧ line.2.index = i)) ℓ.handles
  rw [ℓ.filter_line distinct member index] at split
  refine split.symm.trans (.of_eq ?_)
  rw [List.singleton_append, closeHandle]
  congr 1
  apply List.filter_congr
  intro line _
  exact decide_not.symm

theorem handleCount_closeHandle (ℓ : Ledger) (distinct : ((ℓ.grants which).map Grant.index).Nodup)
    (member : grant ∈ ℓ.grants which) (index : grant.index = i) (object : Object) :
    ℓ.handleCount object = (ℓ.closeHandle which i).handleCount object + if grant.object = object then 1 else 0 := by
  have perm := (ℓ.closeHandle_perm distinct member index).countP_eq (fun line => decide (line.2.object = object))
  rw [handleCount, handleCount, perm, List.countP_cons]
  simp only [decide_eq_true_eq]

end Ledger

def directoryOf (σ : ObState) (object : Object) : Option Object :=
  (σ.header object).nameInfo.bind NameInfo.directory

def nameOf (σ : ObState) (object : Object) : Option (List Char) :=
  (σ.header object).nameInfo.bind NameInfo.name

/-- The entry that names an object, as a line of its account. -/
def linked (σ : ObState) (object : Object) : Nat := if (directoryOf σ object).isSome then 1 else 0

def Ledger.sum (ℓ : Ledger) (σ : ObState) (object : Object) : Nat :=
  ℓ.held object + ℓ.handleCount object + linked σ object + ℓ.leaked object

/-- The directories and the name information agree, and no two names of a
directory are the same. -/
structure Names (σ : ObState) : Prop where
  entry {o d} : o ∈ σ.entries d ↔ directoryOf σ o = some d
  nodup (d : Object) : (σ.entries d).Nodup
  directory {o d} : directoryOf σ o = some d → (σ.header d).type = .directory ∧ d < σ.nextObject
  named {o d} : directoryOf σ o = some d → ∃ n, nameOf σ o = some n
  distinct {d o o' n n'} : directoryOf σ o = some d → directoryOf σ o' = some d → o ≠ o' →
    nameOf σ o = some n → nameOf σ o' = some n' → sameName n n' = false

structure Sound (σ : ObState) (ℓ : Ledger) : Prop where
  tables : TablesKept σ ℓ.grants
  names : Names σ
  counted (o : Object) : (σ.header o).referenceCount = ℓ.sum σ o
  deleted (o : Object) : σ.deleted o =
    if o < σ.nextObject ∧ (σ.header o).referenceCount = 0 ∧ (σ.header o).permanent = false then 1 else 0
  root {o} : σ.rootDirectoryObject = some o →
    (σ.header o).permanent = true ∧ (σ.header o).type = .directory ∧ o < σ.nextObject
  target {l o} : (σ.link l).targetObject = some o → 0 < ℓ.held o
  fresh {o} : ℓ.waiting o = true → directoryOf σ o = none
  unborn {o} : σ.nextObject ≤ o → ℓ.sum σ o = 0

section
variable {σ : ObState} {ℓ : Ledger} {object : Object} {h : ObjectHeader}

theorem directoryOf_setHeader (directory : h.nameInfo.bind directory = directoryOf σ object) (x : Object) :
    directoryOf (σ.setHeader object h) x = directoryOf σ x := by
  by_cases same : x = object
  · rw [directoryOf, same, ObState.header_setHeader, directory]
  · rw [directoryOf, ObState.header_setHeader_ne same, directoryOf]

@[simp] theorem directoryOf_setCount (n : Int) (x : Object) :
    directoryOf (σ.setCount object n) x = directoryOf σ x := by
  rw [ObState.setCount, directoryOf_setHeader]
  rfl

@[simp] theorem directoryOf_setPermanent (p : Bool) (x : Object) :
    directoryOf (σ.setPermanent object p) x = directoryOf σ x := by
  rw [ObState.setPermanent, directoryOf_setHeader]
  rfl

@[simp] theorem directoryOf_setCreateInfo (info : Option CreateInfo) (x : Object) :
    directoryOf (σ.setCreateInfo object info) x = directoryOf σ x := by
  rw [ObState.setCreateInfo, directoryOf_setHeader]
  rfl

theorem linked_setHeader (directory : h.nameInfo.bind directory = directoryOf σ object) (x : Object) :
    linked (σ.setHeader object h) x = linked σ x := by
  rw [linked, linked, directoryOf_setHeader directory]

theorem Names.setHeader (names : Names σ) (type : h.type = (σ.header object).type)
    (directory : h.nameInfo.bind NameInfo.directory = directoryOf σ object)
    (name : ∀ d, directoryOf σ object = some d → h.nameInfo.bind NameInfo.name = nameOf σ object) :
    Names (σ.setHeader object h) := by
  have types : ∀ x, ((σ.setHeader object h).header x).type = (σ.header x).type := by
    intro x
    by_cases same : x = object
    · rw [same, ObState.header_setHeader, type]
    · rw [ObState.header_setHeader_ne same]
  have stored : ∀ x d, directoryOf σ x = some d → nameOf (σ.setHeader object h) x = nameOf σ x := by
    intro x d entry
    by_cases same : x = object
    · rw [nameOf, same, ObState.header_setHeader]
      exact name d (same ▸ entry)
    · rw [nameOf, ObState.header_setHeader_ne same, nameOf]
  constructor
  case entry =>
    intro o d
    rw [directoryOf_setHeader directory]
    exact names.entry
  case nodup => exact names.nodup
  case directory =>
    intro o d entry
    rw [types]
    exact names.directory (directoryOf_setHeader directory o ▸ entry)
  case named =>
    intro o d entry
    rw [directoryOf_setHeader directory] at entry
    rw [stored o d entry]
    exact names.named entry
  case distinct =>
    intro d o o' n n' first second different name₁ name₂
    rw [directoryOf_setHeader directory] at first second
    rw [stored o d first] at name₁
    rw [stored o' d second] at name₂
    exact names.distinct first second different name₁ name₂

/-- A header is written, an object may be deleted, and links may give up targets. -/
theorem Sound.write (sound : Sound σ ℓ) (born : object < σ.nextObject) (type : h.type = (σ.header object).type)
    (directory : h.nameInfo.bind directory = directoryOf σ object)
    (name : ∀ d, directoryOf σ object = some d → h.nameInfo.bind name = nameOf σ object)
    (root : σ.rootDirectoryObject = some object → h.permanent = true)
    (count : h.referenceCount = (n + ℓ.handleCount object + linked σ object + ℓ.leaked object : Nat))
    (deletions : k = if h.referenceCount = 0 ∧ h.permanent = false then 1 else 0)
    (links : ∀ l o, (link l).targetObject = some o → (σ.link l).targetObject = some o)
    (target : ∀ l, (link l).targetObject = some object → 0 < n) :
    Sound { σ.setHeader object h with deleted := update σ.deleted object k, link := link }
      (ℓ.setHeld object n) := by
  have written : ∀ x, (({ σ.setHeader object h with
      deleted := update σ.deleted object k, link := link } : ObState).header x)
        = if x = object then h else σ.header x := by
    intro x
    by_cases same : x = object
    · rw [if_pos same, same]
      exact ObState.header_setHeader
    · rw [if_neg same]
      exact ObState.header_setHeader_ne same
  have sums : ∀ x, (ℓ.setHeld object n).sum
      { σ.setHeader object h with deleted := update σ.deleted object k, link := link } x
        = if x = object then n + ℓ.handleCount object + linked σ object + ℓ.leaked object else ℓ.sum σ x := by
    intro x
    have line : linked { σ.setHeader object h with
        deleted := update σ.deleted object k, link := link } x = linked σ x := linked_setHeader directory x
    rw [Ledger.sum, line]
    by_cases same : x = object
    · rw [if_pos same, same, Ledger.held_setHeld]
      rfl
    · rw [if_neg same, Ledger.held_setHeld_ne ℓ n same]
      rfl
  constructor
  case tables => exact (sound.tables.setHeader object h).congr fun which => by cases which <;> rfl
  case names =>
    have names := sound.names.setHeader type directory name
    exact ⟨names.entry, names.nodup, names.directory, names.named, names.distinct⟩
  case counted =>
    intro o
    rw [written, sums]
    by_cases same : o = object
    · rw [if_pos same, if_pos same, count]
    · rw [if_neg same, if_neg same]
      exact sound.counted o
  case deleted =>
    intro o
    rw [written]
    by_cases same : o = object
    · subst same
      rw [if_pos rfl]
      have born : o < ({ σ.setHeader o h with
        deleted := update σ.deleted o k, link := link } : ObState).nextObject := born
      simp only [born, true_and, update_self, deletions]
    · rw [if_neg same]
      have other : update σ.deleted object k o = σ.deleted o := update_of_ne same ..
      exact other.trans (sound.deleted o)
  case root =>
    intro o found
    have found : σ.rootDirectoryObject = some o := found
    rw [written]
    by_cases same : o = object
    · subst same
      rw [if_pos rfl, type]
      exact ⟨root found, (sound.root found).2⟩
    · rw [if_neg same]
      exact sound.root found
  case target =>
    intro l o found
    by_cases same : o = object
    · subst same
      rw [Ledger.held_setHeld]
      exact target l found
    · rw [Ledger.held_setHeld_ne ℓ n same]
      exact sound.target (links l o found)
  case fresh => exact fun waiting => (directoryOf_setHeader directory _).trans (sound.fresh waiting)
  case unborn =>
    intro o later
    have later : σ.nextObject ≤ o := later
    have other : o ≠ object := (Nat.lt_of_lt_of_le born later).ne'
    rw [sums, if_neg other]
    exact sound.unborn later

theorem Sound.setHeader (sound : Sound σ ℓ) (born : object < σ.nextObject) (type : h.type = (σ.header object).type)
    (directory : h.nameInfo.bind directory = directoryOf σ object)
    (name : ∀ d, directoryOf σ object = some d → h.nameInfo.bind name = nameOf σ object)
    (root : σ.rootDirectoryObject = some object → h.permanent = true)
    (count : h.referenceCount = (n + ℓ.handleCount object + linked σ object + ℓ.leaked object : Nat))
    (deletions : σ.deleted object = if h.referenceCount = 0 ∧ h.permanent = false then 1 else 0)
    (target : ∀ l, (σ.link l).targetObject = some object → 0 < n) :
    Sound (σ.setHeader object h) (ℓ.setHeld object n) := by
  have written := sound.write born type directory name root count deletions (fun _ _ => id) target
  rwa [update_eq_self] at written

theorem Sound.undeleted (sound : Sound σ ℓ) (live : Live σ object) : σ.deleted object = 0 := by
  rw [sound.deleted]
  apply if_neg
  rintro ⟨_, zero, temporary⟩
  rcases live with positive | permanent
  · omega
  · rw [temporary] at permanent
    cases permanent

theorem Sound.born (sound : Sound σ ℓ) (counted : 0 < ℓ.sum σ object) : object < σ.nextObject := by
  by_contra later
  have none := sound.unborn (Nat.le_of_not_lt later)
  omega

theorem Sound.reference (sound : Sound σ ℓ) (born : object < σ.nextObject) (live : Live σ object) :
    Sound (obReferenceObject σ object) (ℓ.setHeld object (ℓ.held object + 1)) := by
  have count := sound.counted object
  have undeleted := sound.undeleted live
  refine sound.setHeader born rfl rfl (fun _ _ => rfl) ?_ ?_ ?_ ?_
  · exact fun root => (sound.root root).1
  · rw [count, Ledger.sum]
    push_cast
    omega
  · rw [undeleted]
    apply (if_neg _).symm
    rintro ⟨zero, _⟩
    dsimp only at zero
    omega
  · exact fun _ _ => Nat.succ_pos _

theorem destroyObject_unlinked (unlinked : directoryOf σ object = none) :
    destroyObject σ object =
      { σ.setHeader object { σ.header object with
          nameInfo := (σ.header object).nameInfo.map fun info => { info with name := none }
          createInfo := none } with
        deleted := update σ.deleted object (σ.deleted object + 1)
        link := if (σ.header object).type = .symbolicLink then update σ.link object ⟨[], none⟩
          else σ.link } := by
  have detached : obpRemoveEntryDirectory (deleteRoutine σ object) object = deleteRoutine σ object := by
    have unlinked : ((deleteRoutine σ object).header object).nameInfo.bind directory = none := unlinked
    rw [obpRemoveEntryDirectory, unlinked]
  rw [destroyObject, detached]
  rfl

theorem target_released {link : Object → SymbolicLink} {c : Prop} [Decidable c]
    (targeted : ((if c then update link object ⟨[], none⟩ else link) l).targetObject = some o) :
    (link l).targetObject = some o := by
  split at targeted
  · by_cases same : l = object
    · rw [same, update_self] at targeted
      cases targeted
    · rwa [update_of_ne same] at targeted
  · exact targeted

theorem Sound.dereference (sound : Sound σ ℓ) (held : 0 < ℓ.held object)
    (kept : ∀ l, (σ.link l).targetObject = some object → 2 ≤ ℓ.held object) :
    Sound (obDereferenceObject σ object) (ℓ.setHeld object (ℓ.held object - 1)) := by
  have count := sound.counted object
  have positive : 0 < ℓ.sum σ object := by rw [Ledger.sum]; omega
  have born := sound.born positive
  have live : Live σ object := Or.inl (by omega)
  have undeleted := sound.undeleted live
  have target : ∀ l, (σ.link l).targetObject = some object → 0 < ℓ.held object - 1 := by
    intro l targeted
    have kept := kept l targeted
    omega
  have lowered : (σ.header object).referenceCount - 1
      = (ℓ.held object - 1 + ℓ.handleCount object + linked σ object + ℓ.leaked object : Nat) := by
    rw [count, Ledger.sum]
    omega
  rw [obDereferenceObject]
  split
  next zero =>
    split
    next permanent =>
      rw [ObState.setCount, ObState.header_setHeader] at permanent
      refine sound.setHeader born rfl rfl (fun _ _ => rfl) (fun root => (sound.root root).1) lowered ?_ target
      rw [undeleted]
      apply (if_neg _).symm
      rintro ⟨_, temporary⟩
      rw [temporary] at permanent
      cases permanent
    next temporary =>
      rw [ObState.setCount, ObState.header_setHeader, Bool.not_eq_true] at temporary
      have unlinked : directoryOf σ object = none := by
        rw [linked] at lowered
        split at lowered
        next => omega
        next absent => simpa using absent
      rw [destroyObject_unlinked ((directoryOf_setCount ..).trans unlinked), ObState.setCount,
        ObState.header_setHeader, ObState.setHeader_setHeader]
      have nameless : ∀ {P : Object → Prop}, ∀ d, directoryOf σ object = some d → P d := by
        intro P d entry
        rw [unlinked] at entry
        cases entry
      refine sound.write born rfl ?_ nameless ?_ lowered ?_ ?_ ?_
      · have kept : ((σ.header object).nameInfo.map fun info => { info with name := none }).bind directory
            = directoryOf σ object := by
          rw [directoryOf]
          cases (σ.header object).nameInfo <;> rfl
        exact kept
      · exact fun root => (sound.root root).1
      · rw [if_pos ⟨zero, temporary⟩]
        exact congrArg (· + 1) undeleted
      · exact fun _ _ => target_released
      · exact fun l targeted => target l (target_released targeted)
  next remaining =>
    refine sound.setHeader born rfl rfl (fun _ _ => rfl) (fun root => (sound.root root).1) lowered ?_ target
    rw [undeleted]
    exact (if_neg fun gone => remaining gone.1).symm

end

end VeaOS.Ob

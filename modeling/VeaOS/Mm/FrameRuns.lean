import Mathlib.Data.List.Count
import VeaOS.Mm.PageFrames

/-! The list of the free pages over runs. Every reference that a page carries
belongs to its owner, to a lock, or was there before; a page whose last reference
goes away is active and on no list. -/
namespace VeaOS.Mm
open Foundation DoubleList Transition List PipDatabase Option

/-- The free list holds exactly the free frames, each once, linked both ways. -/
structure Exact (total : Nat) (db : PipDatabase) (xs : List Nat) : Prop where
  linked : Linked db.freeLinks xs
  members {x} : x ∈ xs ↔ x < total ∧ (db.pip x).state = .free

section Database
variable {db : PipDatabase} {xs : List Nat}

@[simp] theorem setPip_self (db : PipDatabase) (i : Nat) (entry : Pip) :
    (db.setPip i entry).pip i = entry := if_pos rfl

theorem setPip_of_ne (other : x ≠ i) : (db.setPip i entry).pip x = db.pip x := if_neg other

@[simp] theorem freeLinks_setFlink (db : PipDatabase) (i : Nat) (v : Option Nat) :
    (db.setFlink i v).freeLinks = db.freeLinks.setNext i v := by
  simp only [PipDatabase.freeLinks, PipDatabase.setFlink, PipDatabase.setPip, setNext,
    DoubleList.mk.injEq, and_true]
  constructor <;> funext x <;> by_cases same : x = i <;> simp [same]

@[simp] theorem freeLinks_setBlink (db : PipDatabase) (i : Nat) (v : Option Nat) :
    (db.setBlink i v).freeLinks = db.freeLinks.setPrev i v := by
  simp only [PipDatabase.freeLinks, PipDatabase.setBlink, PipDatabase.setPip, setPrev,
    DoubleList.mk.injEq, and_true]
  constructor <;> funext x <;> by_cases same : x = i <;> simp [same]

theorem freeLinks_unlink (db : PipDatabase) (i : Nat) :
    (mmpUnlinkFreePage db i).freeLinks = db.freeLinks.unlink i := by
  have next : db.freeLinks.next i = (db.pip i).flink := rfl
  have prev : db.freeLinks.prev i = (db.pip i).blink := rfl
  simp only [mmpUnlinkFreePage, unlink, next, prev]
  cases (db.pip i).blink <;> cases (db.pip i).flink <;> simp only [freeLinks_setFlink,
    freeLinks_setBlink] <;> rfl

theorem freeLinks_insertHead (db : PipDatabase) (i : Nat) :
    (mmpInsertFreePageHead db i).freeLinks = db.freeLinks.insertHead i := by
  have first : db.freeLinks.first = db.mmFirstFreePip := rfl
  have kept : ((db.setFlink i db.mmFirstFreePip).setBlink i none).mmFirstFreePip =
    db.mmFirstFreePip := rfl
  have kept' : ((db.freeLinks.setNext i db.mmFirstFreePip).setPrev i none).first =
    db.mmFirstFreePip := rfl
  simp only [mmpInsertFreePageHead, insertHead, first, kept, kept']
  cases db.mmFirstFreePip with
  | none =>
    rw [← freeLinks_setFlink, ← freeLinks_setBlink]
    rfl
  | some head =>
    simp only
    rw [← freeLinks_setFlink, ← freeLinks_setBlink, ← freeLinks_setBlink]
    rfl

@[simp] theorem state_setFlink : ((db.setFlink i v).pip x).state = (db.pip x).state := by
  by_cases same : x = i <;> simp [setFlink, setPip, same]

@[simp] theorem state_setBlink : ((db.setBlink i v).pip x).state = (db.pip x).state := by
  by_cases same : x = i <;> simp [setBlink, setPip, same]

@[simp] theorem references_setFlink :
    ((db.setFlink i v).pip x).referenceCount = (db.pip x).referenceCount := by
  by_cases same : x = i <;> simp [setFlink, setPip, same]

@[simp] theorem references_setBlink :
    ((db.setBlink i v).pip x).referenceCount = (db.pip x).referenceCount := by
  by_cases same : x = i <;> simp [setBlink, setPip, same]

/-- Only the links and the heads of the lists differ. -/
structure SameFrames (db db' : PipDatabase) : Prop where
  state (x) : (db'.pip x).state = (db.pip x).state
  referenceCount (x) : (db'.pip x).referenceCount = (db.pip x).referenceCount

theorem sameFrames_unlink (db : PipDatabase) (i : Nat) : SameFrames db (mmpUnlinkFreePage db i) := by
  constructor <;> intro x <;> unfold mmpUnlinkFreePage <;> cases (db.pip i).blink <;>
    cases (db.pip i).flink <;> simp

theorem sameFrames_insertFree (db : PipDatabase) (i : Nat) :
    SameFrames db (mmpInsertFreePageHead db i) := by
  constructor <;> intro x <;> simp only [mmpInsertFreePageHead] <;> split <;> simp

theorem sameFrames_insertZeroed (db : PipDatabase) (i : Nat) :
    SameFrames db (mmpInsertZeroedPageHead db i) := by
  constructor <;> intro x <;> simp only [mmpInsertZeroedPageHead] <;> split <;> simp

theorem zeroed_unlink (db : PipDatabase) (i : Nat) :
    (mmpUnlinkFreePage db i).mmFirstZeroedPip = db.mmFirstZeroedPip := by
  unfold mmpUnlinkFreePage
  cases (db.pip i).blink <;> cases (db.pip i).flink <;> rfl

theorem zeroed_insertFree (db : PipDatabase) (i : Nat) :
    (mmpInsertFreePageHead db i).mmFirstZeroedPip = db.mmFirstZeroedPip := by
  simp only [mmpInsertFreePageHead]
  split <;> rfl

namespace Exact

theorem write (exact_ : Exact total db xs) (absent : i ∉ xs) (taken : entry.state ≠ .free) :
    Exact total (db.setPip i entry) xs := by
  have others : ∀ x ∈ xs, x ≠ i := by
    rintro x member rfl
    exact absent member
  constructor
  · refine exact_.linked.congr rfl (fun x member => ?_) (fun x member => ?_) <;>
      simp only [freeLinks, setPip_of_ne (others x member)]
  · intro x
    by_cases same : x = i
    · subst x
      simp [absent, taken]
    · rw [setPip_of_ne same]
      exact exact_.members

theorem unlink (exact_ : Exact total db xs) (member : i ∈ xs) (taken : entry.state ≠ .free) :
    Exact total ((mmpUnlinkFreePage db i).setPip i entry) (xs.erase i) := by
  have distinct := exact_.linked.distinct
  have linked := exact_.linked.unlink member
  rw [← freeLinks_unlink] at linked
  have others : ∀ x ∈ xs.erase i, x ≠ i := fun x inside => (distinct.mem_erase_iff.mp inside).1
  constructor
  · refine linked.congr rfl (fun x inside => ?_) (fun x inside => ?_) <;>
      simp only [freeLinks, setPip_of_ne (others x inside)]
  · intro x
    by_cases same : x = i
    · subst x
      simp [distinct.mem_erase_iff, taken]
    · rw [distinct.mem_erase_iff, setPip_of_ne same, (sameFrames_unlink db i).state, exact_.members]
      simp [same]

theorem insert (exact_ : Exact total db xs) (known : i < total) (absent : i ∉ xs)
    (free : entry.state = .free) :
    Exact total (mmpInsertFreePageHead (db.setPip i entry) i) (i :: xs) := by
  have others : ∀ x ∈ xs, x ≠ i := by
    rintro x member rfl
    exact absent member
  have linked : Linked (db.setPip i entry).freeLinks xs := by
    refine exact_.linked.congr rfl (fun x member => ?_) (fun x member => ?_) <;>
      simp only [freeLinks, setPip_of_ne (others x member)]
  constructor
  · rw [freeLinks_insertHead]
    exact linked.insertHead absent
  · intro x
    rw [(sameFrames_insertFree _ i).state]
    by_cases same : x = i
    · subst x
      simp [known, free]
    · rw [setPip_of_ne same, mem_cons, exact_.members]
      simp [same]

theorem insertZeroed (exact_ : Exact total db xs) (absent : i ∉ xs) (taken : entry.state ≠ .free)
    (head : ∀ x, db.mmFirstZeroedPip = some x → x ∉ xs) :
    Exact total (mmpInsertZeroedPageHead (db.setPip i entry) i) xs := by
  have written := exact_.write absent taken
  have others : ∀ x ∈ xs, x ≠ i := by
    rintro x member rfl
    exact absent member
  have kept : ∀ x ∈ xs,
      (mmpInsertZeroedPageHead (db.setPip i entry) i).pip x = (db.setPip i entry).pip x := by
    intro x member
    have other := others x member
    simp only [mmpInsertZeroedPageHead]
    split
    · next first found =>
        have apart : x ≠ first := by
          rintro rfl
          exact head x found member
        simp only [setBlink, setFlink, setPip_of_ne apart, setPip_of_ne other]
    · simp only [setBlink, setFlink, setPip_of_ne other]
  have first : (mmpInsertZeroedPageHead (db.setPip i entry) i).mmFirstFreePip = db.mmFirstFreePip := by
    simp only [mmpInsertZeroedPageHead]
    split <;> rfl
  constructor
  · refine written.linked.congr first (fun x member => ?_) (fun x member => ?_) <;>
      simp only [freeLinks, kept x member]
  · intro x
    rw [(sameFrames_insertZeroed _ i).state]
    exact written.members

end Exact
end Database

/-- The references of a page belong to its owner and its locks. A page that one
of them holds is active and not being cleared, or it has another reference. -/
structure Accounted (state : PipState) (references own locks : Nat) (clearing : Prop) : Prop where
  counted : own + locks ≤ references
  owned : 0 < own → state = .active ∧ ¬ clearing
  locked : 0 < locks → state = .active ∧ ¬ clearing ∨ own + locks < references
  free : state = .free → locks = 0
  clearing : clearing → state = .active

namespace Accounted
variable {state : PipState} {references own locks : Nat} {clearing : Prop}

theorem last_active (account : Accounted state references own locks clearing)
    (held : 0 < own + locks) (last : references ≤ 1) : state = .active ∧ ¬ clearing := by
  have := account.counted
  by_cases owns : 0 < own
  · exact account.owned owns
  · exact (account.locked (by omega)).resolve_right (by omega)

theorem release (account : Accounted state references own locks clearing) (fewer : own' ≤ own)
    (fewer' : locks' ≤ locks) (one : own' + locks' + 1 = own + locks) :
    Accounted (if references ≤ 1 then .free else state) (references - 1) own' locks' clearing := by
  have counted := account.counted
  by_cases last : references ≤ 1
  · have active := account.last_active (by omega) last
    rw [if_pos last]
    constructor
    · omega
    · omega
    · omega
    · omega
    · exact fun clears => absurd clears active.2
  · rw [if_neg last]
    constructor
    · omega
    · exact fun owns => account.owned (by omega)
    · intro held
      rcases account.locked (by omega) with active | more
      · exact .inl active
      · exact .inr (by omega)
    · intro isFree
      have := account.free isFree
      omega
    · exact account.clearing

end Accounted

/-- One reference of a page goes away; the page becomes free with the last one. -/
structure Released (total : Nat) (db db' : PipDatabase) (i : Nat) (xs' : List Nat) : Prop where
  list : Exact total db' xs'
  others (x) : x ≠ i → (db'.pip x).state = (db.pip x).state ∧
    (db'.pip x).referenceCount = (db.pip x).referenceCount
  head : db'.mmFirstZeroedPip = db.mmFirstZeroedPip
  references : (db'.pip i).referenceCount.toNat = (db.pip i).referenceCount.toNat - 1
  state : (db'.pip i).state =
    if (db.pip i).referenceCount.toNat ≤ 1 then .free else (db.pip i).state

section Release
variable {db : PipDatabase} {xs : List Nat}

theorem toNat_pred {r : BitVec 16} (positive : 0 < r.toNat) : (r - 1).toNat = r.toNat - 1 := by
  apply BitVec.toNat_sub_of_le
  exact positive

theorem setPip_setPip (db : PipDatabase) (i : Nat) (entry entry' : Pip) :
    (db.setPip i entry).setPip i entry' = db.setPip i entry' := by
  simp only [PipDatabase.setPip, PipDatabase.mk.injEq, and_true]
  funext x
  by_cases same : x = i <;> simp [same]

theorem released_last (list : Exact total db xs) (known : i < total)
    (taken : (db.pip i).state ≠ .free) (last : (db.pip i).referenceCount.toNat = 1)
    (references : entry.referenceCount = 0) (free : entry.state = .free) :
    Released total db (mmpInsertFreePageHead (db.setPip i entry) i) i (i :: xs) := by
  have absent : i ∉ xs := fun member => taken (list.members.mp member).2
  have same := sameFrames_insertFree (db.setPip i entry) i
  refine ⟨list.insert known absent free, fun x other => ?_, zeroed_insertFree _ i, ?_, ?_⟩
  · rw [same.state, same.referenceCount, setPip_of_ne other]
    exact ⟨rfl, rfl⟩
  · rw [same.referenceCount, setPip_self, references, last]
    rfl
  · rw [same.state, setPip_self, free, if_pos (by omega)]

theorem released_more (list : Exact total db xs) (taken : (db.pip i).state ≠ .free)
    (more : 1 < (db.pip i).referenceCount.toNat)
    (references : entry.referenceCount = (db.pip i).referenceCount - 1)
    (kept : entry.state = (db.pip i).state) : Released total db (db.setPip i entry) i xs := by
  have absent : i ∉ xs := fun member => taken (list.members.mp member).2
  refine ⟨list.write absent (by rwa [kept]), fun x other => ?_, rfl, ?_, ?_⟩
  · rw [setPip_of_ne other]
    exact ⟨rfl, rfl⟩
  · rw [setPip_self, references, toNat_pred (by omega)]
  · rw [setPip_self, kept, if_neg (by omega)]

theorem last_iff {r : BitVec 16} (positive : 0 < r.toNat) : r - 1 = 0 ↔ r.toNat = 1 := by
  have zero : (0 : BitVec 16).toNat = 0 := rfl
  rw [← BitVec.toNat_inj, toNat_pred positive, zero]
  omega

theorem dereference_released (list : Exact total db xs) (known : frameOf address < total)
    (taken : (db.pip (frameOf address)).state ≠ .free)
    (positive : 0 < (db.pip (frameOf address)).referenceCount.toNat) :
    ∃ xs', Released total db (mmDereferencePhysicalPage total db address) (frameOf address) xs' := by
  have some_ : (db.pip (frameOf address)).referenceCount > 0 := positive
  have inside : ¬ frameOf address ≥ total := by omega
  unfold mmDereferencePhysicalPage
  simp only [if_neg inside, if_pos some_, setPip_setPip, setPip_self]
  by_cases last : (db.pip (frameOf address)).referenceCount - 1 = 0
  · rw [if_pos last]
    exact ⟨_, released_last list known taken ((last_iff positive).mp last) last rfl⟩
  · rw [if_neg last]
    have := mt (last_iff positive).mpr last
    exact ⟨_, released_more list taken (by omega) rfl rfl⟩

theorem free_released (list : Exact total db xs) (known : frameOf address < total)
    (aligned : address.toNat % 4096 = 0) (active : (db.pip (frameOf address)).state = .active)
    (positive : 0 < (db.pip (frameOf address)).referenceCount.toNat) :
    ∃ xs', Released total db (mmFreePhysicalPage total db address).1 (frameOf address) xs' := by
  have some_ : (db.pip (frameOf address)).referenceCount > 0 := positive
  have inside : ¬ frameOf address ≥ total := by omega
  have taken : (db.pip (frameOf address)).state ≠ .free := by simp [active]
  unfold mmFreePhysicalPage
  simp only [aligned, active, ne_eq, not_true_eq_false, if_false, if_neg inside, if_pos some_,
    setPip_setPip, setPip_self]
  by_cases last : (db.pip (frameOf address)).referenceCount - 1 = 0
  · rw [if_pos last]
    exact ⟨_, released_last list known taken ((last_iff positive).mp last) last rfl⟩
  · rw [if_neg last]
    have := mt (last_iff positive).mpr last
    exact ⟨_, released_more list taken (by omega) rfl active.symm⟩

end Release

/-- The owners, the locks and the zero page thread agree with the database. -/
structure Frames (total : Nat) (start : PipDatabase) (σ : FrameSystem) (xs : List Nat) : Prop where
  list : Exact total σ.db xs
  zeroed {h} : σ.db.mmFirstZeroedPip = some h → (σ.db.pip h).state = .zeroed
  accounted {x} : x < total → Accounted (σ.db.pip x).state (σ.db.pip x).referenceCount.toNat
    (σ.owned.count x) (σ.locked.count x) (σ.zeroing = some x)
  known {x} : x ∈ σ.owned ∨ σ.zeroing = some x → x < total
  reserved {x} : x < total → (start.pip x).state = .reserved → (σ.db.pip x).state = .reserved

/-- A page is freed by its owner and unlocked by someone who locked it. -/
def Balanced (σ : FrameSystem) : FrameAction → Prop
  | .free address => address.toNat % 4096 = 0 ∧ frameOf address ∈ σ.owned
  | .dereference address => frameOf address ∈ σ.locked
  | _ => True

/-- A page is locked while it is active and not being cleared, or has another
reference and is not free; and not too often. -/
def LocksActive (total : Nat) (σ : FrameSystem) : FrameAction → Prop
  | .reference address => frameOf address < total →
      (σ.db.pip (frameOf address)).referenceCount.toNat < 65535 ∧
        ((σ.db.pip (frameOf address)).state = .active ∧ σ.zeroing ≠ some (frameOf address) ∨
          (σ.db.pip (frameOf address)).state ≠ .free ∧
            0 < (σ.db.pip (frameOf address)).referenceCount.toNat)
  | _ => True

namespace Frames
variable {σ σ' : FrameSystem} {xs xs' : List Nat} {start : PipDatabase}

section
variable (frames : Frames total start σ xs)
include frames

theorem change (i : Nat) (list : Exact total σ'.db xs')
    (zeroed : ∀ h, σ'.db.mmFirstZeroedPip = some h → (σ'.db.pip h).state = .zeroed)
    (others : ∀ x, x ≠ i → (σ'.db.pip x).state = (σ.db.pip x).state ∧
      (σ'.db.pip x).referenceCount = (σ.db.pip x).referenceCount ∧
      σ'.owned.count x = σ.owned.count x ∧ σ'.locked.count x = σ.locked.count x ∧
      (σ'.zeroing = some x ↔ σ.zeroing = some x))
    (here : i < total → Accounted (σ'.db.pip i).state (σ'.db.pip i).referenceCount.toNat
      (σ'.owned.count i) (σ'.locked.count i) (σ'.zeroing = some i))
    (known : ∀ x, x ∈ σ'.owned ∨ σ'.zeroing = some x → x < total)
    (unreserved : i < total →
      (σ'.db.pip i).state = (σ.db.pip i).state ∨ (σ.db.pip i).state ≠ .reserved) :
    Frames total start σ' xs' := by
  refine ⟨list, fun {h} => zeroed h, fun {x} bound => ?_, fun {x} => known x, fun {x} bound was => ?_⟩
  · by_cases same : x = i
    · subst x
      exact here bound
    · obtain ⟨state, references, own, locks, clearing⟩ := others x same
      rw [state, references, own, locks]
      simp only [clearing]
      exact frames.accounted bound
  · have still := frames.reserved bound was
    by_cases same : x = i
    · subst x
      rcases unreserved bound with kept | other
      · rw [kept, still]
      · exact absurd still other
    · rw [(others x same).1, still]

theorem not_free (taken : (σ.db.pip i).state ≠ .free) : i ∉ xs :=
  fun member => taken (frames.list.members.mp member).2

theorem reference (active : LocksActive total σ (.reference address)) :
    ∃ σ', frameStep total σ (.reference address) = some σ' ∧ Frames total start σ' xs := by
  refine ⟨_, rfl, ?_⟩
  simp only [LocksActive] at active
  unfold mmReferencePhysicalPage
  generalize frameOf address = i at *
  by_cases outside : i ≥ total
  · rw [if_pos outside]
    refine frames.change i frames.list (fun h => frames.zeroed) (fun x other => ?_) (by omega)
      (fun x => frames.known) (by omega)
    exact ⟨rfl, rfl, rfl, count_cons_of_ne other.symm, Iff.rfl⟩
  · rw [if_neg outside]
    have bound : i < total := by omega
    obtain ⟨below, usable⟩ := active bound
    have account := frames.accounted bound
    have taken : (σ.db.pip i).state ≠ .free := by
      rcases usable with ⟨state, _⟩ | ⟨other, _⟩
      · simp [state]
      · exact other
    refine frames.change i (frames.list.write (frames.not_free taken) taken) (fun h head => ?_)
      (fun x other => ?_) (fun _ => ?_) (fun x => frames.known) (fun _ => .inl (by simp))
    · by_cases same : h = i
      · subst h
        rw [setPip_self]
        exact frames.zeroed head
      · rw [setPip_of_ne same]
        exact frames.zeroed head
    · rw [setPip_of_ne other]
      exact ⟨rfl, rfl, rfl, count_cons_of_ne other.symm, Iff.rfl⟩
    · have more : ((σ.db.pip i).referenceCount + 1).toNat = (σ.db.pip i).referenceCount.toNat + 1 := by
        have one : (1 : BitVec 16).toNat = 1 := rfl
        rw [BitVec.toNat_add, one]
        omega
      rw [setPip_self, count_cons_self]
      simp only [more]
      obtain ⟨counted, owned, locked, free, clearing⟩ := account
      constructor
      · omega
      · exact owned
      · intro _
        by_cases held : (σ.db.pip i).state = .active ∧ σ.zeroing ≠ some i
        · exact .inl held
        · have positive := (usable.resolve_left held).2
          have unowned : σ.owned.count i = 0 := by
            by_contra owns
            exact held (owned (by omega))
          right
          by_cases before : 0 < σ.locked.count i
          · have := (locked before).resolve_left held
            omega
          · omega
      · exact fun isFree => absurd isFree taken
      · exact clearing

theorem released (released : Released total σ.db σ'.db i xs')
    (known : i < total) (zeroing : σ'.zeroing = σ.zeroing)
    (others : ∀ x, x ≠ i → σ'.owned.count x = σ.owned.count x ∧ σ'.locked.count x = σ.locked.count x)
    (own : σ'.owned.count i ≤ σ.owned.count i) (locks : σ'.locked.count i ≤ σ.locked.count i)
    (one : σ'.owned.count i + σ'.locked.count i + 1 = σ.owned.count i + σ.locked.count i)
    (subset : ∀ x ∈ σ'.owned, x ∈ σ.owned) : Frames total start σ' xs' := by
  have account := frames.accounted known
  obtain ⟨list, same, head, references, state⟩ := released
  refine frames.change i list (fun h first => ?_) (fun x other => ?_) (fun _ => ?_) (fun x => ?_)
    (fun _ => ?_)
  · rw [head] at first
    have zeroed := frames.zeroed first
    by_cases here : h = i
    · subst h
      have single : ¬ (σ.db.pip i).referenceCount.toNat ≤ 1 := fun few => by
        rw [zeroed] at account
        have := account.last_active (by omega) few
        cases this.1
      rw [state, if_neg single, zeroed]
    · rw [(same h here).1, zeroed]
  · rw [zeroing]
    exact ⟨(same x other).1, (same x other).2, (others x other).1, (others x other).2, Iff.rfl⟩
  · rw [references, state, zeroing]
    exact account.release own locks one
  · rw [zeroing]
    exact fun held => frames.known (held.imp_left (subset x))
  · by_cases few : (σ.db.pip i).referenceCount.toNat ≤ 1
    · have := account.last_active (by omega) few
      exact .inr (by simp [this.1])
    · rw [state, if_neg few]
      exact .inl rfl

theorem dereference (balanced : frameOf address ∈ σ.locked) :
    ∃ σ' xs', frameStep total σ (.dereference address) = some σ' ∧ Frames total start σ' xs' := by
  have erased : ∀ x, x ≠ frameOf address →
      (σ.locked.erase (frameOf address)).count x = σ.locked.count x := fun x other =>
    count_erase_of_ne other
  by_cases outside : frameOf address ≥ total
  · have kept : mmDereferencePhysicalPage total σ.db address = σ.db := if_pos outside
    refine ⟨_, xs, rfl, ?_⟩
    rw [kept]
    refine frames.change (frameOf address) frames.list (fun h => frames.zeroed) (fun x other => ?_)
      (by omega) (fun x => frames.known) (by omega)
    exact ⟨rfl, rfl, rfl, erased x other, Iff.rfl⟩
  · have known : frameOf address < total := by omega
    have held : 0 < σ.locked.count (frameOf address) := count_pos_iff.mpr balanced
    have account := frames.accounted known
    have taken : (σ.db.pip (frameOf address)).state ≠ .free := fun isFree => by
      have := account.free isFree
      omega
    have counted := account.counted
    obtain ⟨xs', freed⟩ := dereference_released frames.list known taken (by omega)
    refine ⟨_, xs', rfl, frames.released freed known rfl (fun x other => ⟨rfl, erased x other⟩)
      (Nat.le_refl _) ?_ ?_ (fun x => id)⟩
    · exact (erase_sublist).count_le _
    · simp only [count_erase_self]
      omega

theorem free (aligned : address.toNat % 4096 = 0) (balanced : frameOf address ∈ σ.owned) :
    ∃ σ' xs', frameStep total σ (.free address) = some σ' ∧ Frames total start σ' xs' := by
  have known := frames.known (.inl balanced)
  have held : 0 < σ.owned.count (frameOf address) := count_pos_iff.mpr balanced
  have account := frames.accounted known
  have counted := account.counted
  obtain ⟨xs', freed⟩ := free_released frames.list known aligned (account.owned held).1 (by omega)
  refine ⟨_, xs', rfl, frames.released freed known rfl
    (fun x other => ⟨count_erase_of_ne other, rfl⟩) ?_ (Nat.le_refl _) ?_
    (fun x => mem_of_mem_erase)⟩
  · exact (erase_sublist).count_le _
  · simp only [count_erase_self]
    omega

theorem take (member : i ∈ xs) (entry : Pip) (active : entry.state = .active)
    (db : σ'.db = (mmpUnlinkFreePage σ.db i).setPip i entry)
    (others : ∀ x, x ≠ i → σ'.owned.count x = σ.owned.count x ∧ (σ'.zeroing = some x ↔ σ.zeroing = some x))
    (locked : σ'.locked = σ.locked)
    (own : σ'.owned.count i ≤ entry.referenceCount.toNat)
    (one : σ'.owned.count i = 0 ∨ σ'.zeroing ≠ some i)
    (known : ∀ x, x ∈ σ'.owned ∨ σ'.zeroing = some x → x = i ∨ x ∈ σ.owned ∨ σ.zeroing = some x) :
    Frames total start σ' (xs.erase i) := by
  obtain ⟨bound, isFree⟩ := frames.list.members.mp member
  have same := sameFrames_unlink σ.db i
  have unlocked := (frames.accounted bound).free isFree
  refine frames.change i ?_ (fun h head => ?_) (fun x other => ?_) (fun _ => ?_) (fun x held => ?_)
    (fun _ => .inr (by simp [isFree]))
  · rw [db]
    exact frames.list.unlink member (by simp [active])
  · have head' : σ.db.mmFirstZeroedPip = some h := by
      rw [db] at head
      exact (zeroed_unlink σ.db i).symm.trans head
    have zeroed := frames.zeroed head'
    have apart : h ≠ i := by
      rintro rfl
      rw [isFree] at zeroed
      cases zeroed
    rw [db, setPip_of_ne apart, same.state, zeroed]
  · rw [db, setPip_of_ne other, same.state, same.referenceCount, locked]
    exact ⟨rfl, rfl, (others x other).1, rfl, (others x other).2⟩
  · rw [db, setPip_self, locked, unlocked]
    constructor
    · omega
    · intro owns
      exact ⟨active, one.resolve_left (by omega)⟩
    · omega
    · exact fun _ => rfl
    · exact fun _ => active
  · rcases known x held with rfl | old
    · exact bound
    · exact frames.known old

theorem not_owned (member : i ∈ xs) : σ.owned.count i = 0 ∧ σ.zeroing ≠ some i := by
  obtain ⟨bound, isFree⟩ := frames.list.members.mp member
  have account := frames.accounted bound
  constructor
  · by_contra owns
    have := (account.owned (by omega)).1
    rw [isFree] at this
    cases this
  · intro clears
    have := account.clearing clears
    rw [isFree] at this
    cases this

end

theorem frameOf_ofNat (bound : i < 0x100000) : frameOf (BitVec.ofNat 32 (i * 4096)) = i := by
  rw [frameOf, BitVec.toNat_ofNat]
  omega

theorem activated (frames : Frames total start σ xs) (member : i ∈ xs) (owned : List Nat)
    (own : ∀ x, x ≠ i → owned.count x = σ.owned.count x) (one : owned.count i ≤ 1)
    (known : ∀ x ∈ owned, x = i ∨ x ∈ σ.owned) :
    Frames total start { σ with db := activate σ.db i, owned } (xs.erase i) := by
  refine frames.take member { (mmpUnlinkFreePage σ.db i).pip i with
    state := .active, referenceCount := 1, shareCount := 1 } rfl rfl
    (fun x other => ⟨own x other, Iff.rfl⟩) rfl one (.inr (frames.not_owned member).2) ?_
  rintro x (held | clears)
  · exact (known x held).imp_right .inl
  · exact .inr (.inr clears)

theorem allocate (frames : Frames total start σ xs) (bounded : total ≤ 0x100000) :
    ∃ σ' xs', frameStep total σ .allocate = some σ' ∧ Frames total start σ' xs' := by
  have first := frames.list.linked.first
  cases xs with
  | nil =>
    have none_ : σ.db.mmFirstFreePip = none := first
    refine ⟨σ, [], ?_, frames⟩
    simp only [frameStep, mmAllocatePhysicalPage, none_, map_some, if_true]
  | cons i rest =>
    have some_ : σ.db.mmFirstFreePip = some i := first
    have member : i ∈ i :: rest := mem_cons_self
    obtain ⟨bound, isFree⟩ := frames.list.members.mp member
    have valid : ¬ (i ≥ total ∨ (σ.db.pip i).state ≠ .free) := by
      rw [not_or, not_not]
      exact ⟨by omega, isFree⟩
    have unowned := (frames.not_owned member).1
    have frame := frameOf_ofNat (show i < 0x100000 by omega)
    refine ⟨_, _, ?_, frames.activated member
      (if BitVec.ofNat 32 (i * 4096) = 0 then σ.owned else i :: σ.owned) (fun x other => ?_) ?_
      fun x held => ?_⟩
    · simp only [frameStep, mmAllocatePhysicalPage, some_, if_neg valid, map_some, frame]
    · split
      · rfl
      · exact count_cons_of_ne other.symm
    · split
      · omega
      · rw [count_cons_self]
        omega
    · split at held
      · exact .inr held
      · exact mem_cons.mp held

theorem zero (frames : Frames total start σ xs) :
    ∃ σ' xs', frameStep total σ .zero = some σ' ∧ Frames total start σ' xs' := by
  cases clearing : σ.zeroing with
  | none =>
    have first := frames.list.linked.first
    cases xs with
    | nil =>
      have none_ : σ.db.mmFirstFreePip = none := first
      refine ⟨σ, [], ?_, frames⟩
      simp only [frameStep, takePage, clearing, none_]
      rw [← clearing]
    | cons i rest =>
      have some_ : σ.db.mmFirstFreePip = some i := first
      have member : i ∈ i :: rest := mem_cons_self
      have unowned := (frames.not_owned member).1
      refine ⟨{ σ with
        db := (mmpUnlinkFreePage σ.db i).setPip i
          { (mmpUnlinkFreePage σ.db i).pip i with state := .active }
        zeroing := some i }, _, ?_, frames.take member _ rfl rfl (fun x other => ⟨rfl, ?_⟩) rfl
          (by simp [unowned]) (.inl unowned) ?_⟩
      · simp only [frameStep, takePage, clearing, some_]
      · simp [clearing, Ne.symm other]
      · rintro x (held | clears)
        · exact .inr (.inl held)
        · exact .inl (some.inj clears).symm
  | some i =>
    have bound := frames.known (.inr clearing)
    have account := frames.accounted bound
    have active := account.clearing clearing
    have absent : i ∉ xs := frames.not_free (by simp [active])
    let entry : Pip := { σ.db.pip i with state := .zeroed }
    have same := sameFrames_insertZeroed (σ.db.setPip i entry) i
    have unowned : σ.owned.count i = 0 := by
      by_contra owns
      exact (account.owned (by omega)).2 clearing
    have head : (storePage σ.db i).mmFirstZeroedPip = some i := rfl
    have list : Exact total (storePage σ.db i) xs :=
      frames.list.insertZeroed absent (by simp) fun x first => frames.not_free (by
        rw [frames.zeroed first]
        simp)
    refine ⟨{ σ with db := storePage σ.db i, zeroing := none }, xs, ?_, frames.change i list
      (fun h first => ?_) (fun x other => ?_) (fun _ => ?_) (fun x held => ?_)
      (fun _ => .inr (by simp [active]))⟩
    · simp only [frameStep, clearing]
    · rw [head, some.injEq] at first
      subst h
      exact (same.state i).trans (by simp [entry])
    · refine ⟨(same.state x).trans (by rw [setPip_of_ne other]),
        (same.referenceCount x).trans (by rw [setPip_of_ne other]), rfl, rfl, ?_⟩
      simp [clearing, Ne.symm other]
    · have state : ((storePage σ.db i).pip i).state = .zeroed := (same.state i).trans (by simp [entry])
      have references : ((storePage σ.db i).pip i).referenceCount = (σ.db.pip i).referenceCount :=
        (same.referenceCount i).trans (by simp [entry])
      simp only [state, references]
      have counted := account.counted
      constructor
      · exact counted
      · omega
      · intro held
        exact .inr ((account.locked held).resolve_left fun active => active.2 clearing)
      · exact fun isFree => nomatch isFree
      · exact fun clears => nomatch clears
    · rcases held with owns | clears
      · exact frames.known (.inl owns)
      · cases clears

theorem perm (frames : Frames total start σ xs) (same : σ.owned.Perm owned) :
    Frames total start { σ with owned } xs := by
  obtain ⟨list, zeroed, accounted, known, reserved⟩ := frames
  refine ⟨list, zeroed, fun {x} bound => ?_, fun {x} held => ?_, reserved⟩
  · have account := accounted bound
    simp only [same.count_eq] at account
    exact account
  · exact known (held.imp_left same.mem_iff.mpr)

theorem activateAll (keep : Bool) (pages : List Nat) (frames : Frames total start σ xs) (distinct : pages.Nodup)
    (listed : ∀ x ∈ pages, x ∈ xs) :
    ∃ xs', Frames total start
      { σ with db := pages.foldl activate σ.db, owned := (if keep then pages else []) ++ σ.owned } xs' := by
  induction pages generalizing σ xs with
  | nil => exact ⟨xs, by cases keep <;> exact frames⟩
  | cons i rest ih =>
    obtain ⟨apart, distinct⟩ := nodup_cons.mp distinct
    have member := listed i mem_cons_self
    have unowned := (frames.not_owned member).1
    have next := frames.activated member ((if keep then [i] else []) ++ σ.owned)
      (fun x other => by cases keep <;> simp [count_cons_of_ne other.symm])
      (by cases keep <;> simp [unowned])
      (fun x held => by cases keep <;> simp at held ⊢ <;> tauto)
    have listed' : ∀ x ∈ rest, x ∈ xs.erase i := by
      intro x later
      rw [mem_erase_of_ne]
      · exact listed x (mem_cons_of_mem _ later)
      · rintro rfl
        exact apart later
    obtain ⟨xs', final⟩ := ih next distinct listed'
    refine ⟨xs', final.perm ?_⟩
    cases keep with
    | false => exact Perm.refl _
    | true => exact perm_middle

end Frames

theorem contiguousScan_spec {db : PipDatabase}
    (scanned : contiguousScan db pages left i found startIndex = some s)
    (seen : ∀ x, i - found ≤ x → x < i → (db.pip x).state = .free) (within : found ≤ i)
    (begun : 0 < found → startIndex = i - found) (more : found < pages) :
    s + pages ≤ i + left ∧ ∀ x, s ≤ x → x < s + pages → (db.pip x).state = .free := by
  induction left generalizing i found startIndex with
  | zero => simp [contiguousScan] at scanned
  | succ left ih =>
    rw [contiguousScan] at scanned
    split at scanned
    · next isFree =>
        have origin : (if found = 0 then i else startIndex) = i - found := by
          split
          · omega
          · exact begun (by omega)
        have seen' : ∀ x, i - found ≤ x → x < i + 1 → (db.pip x).state = .free := by
          intro x low high
          by_cases same : x = i
          · rwa [same]
          · exact seen x low (by omega)
        simp only [origin] at scanned
        split at scanned
        · next done =>
            simp only [some.injEq] at scanned
            subst s
            refine ⟨by omega, fun x low high => seen' x low (by omega)⟩
        · obtain ⟨ends, free⟩ := ih scanned (fun x low high => seen' x (by omega) high) (by omega)
            (by omega) (by omega)
          exact ⟨by omega, free⟩
    · obtain ⟨ends, free⟩ := ih scanned (fun x low high => by omega) (by omega) (by omega) (by omega)
      exact ⟨by omega, free⟩

namespace Frames
variable {σ σ' : FrameSystem} {xs xs' : List Nat} {start : PipDatabase}

theorem contiguous_spec {db : PipDatabase} {pageCount : BitVec 32}
    (scanned : contiguousScan db pageCount.toNat total 0 0 0xFFFFFFFF = some s)
    (nonzero : pageCount ≠ 0) : s < total ∧ s + pageCount.toNat ≤ total ∧
      ∀ x, s ≤ x → x < s + pageCount.toNat → (db.pip x).state = .free := by
  have positive : 0 < pageCount.toNat := by
    by_contra zero
    exact nonzero (BitVec.eq_of_toNat_eq (by
      have : (0 : BitVec 32).toNat = 0 := rfl
      omega))
  obtain ⟨ends, free⟩ := contiguousScan_spec scanned (by omega) (Nat.le_refl 0) (by omega) positive
  exact ⟨by omega, by omega, free⟩

theorem allocateContiguous (frames : Frames total start σ xs) (bounded : total ≤ 0x100000)
    (pageCount : BitVec 32) : ∃ σ' xs', frameStep total σ (.allocateContiguous pageCount) = some σ' ∧
      Frames total start σ' xs' := by
  by_cases empty : pageCount = 0
  · refine ⟨σ, xs, ?_, frames⟩
    simp only [frameStep, mmAllocateContiguousPhysicalPages, if_pos empty, if_true]
  · cases scanned : contiguousScan σ.db pageCount.toNat total 0 0 0xFFFFFFFF with
    | none =>
      refine ⟨σ, xs, ?_, frames⟩
      simp only [frameStep, mmAllocateContiguousPhysicalPages, if_neg empty, scanned, if_true]
    | some s =>
      obtain ⟨begins, ends, free⟩ := contiguous_spec scanned empty
      have frame := frameOf_ofNat (show s < 0x100000 by omega)
      obtain ⟨xs', final⟩ := frames.activateAll (decide (BitVec.ofNat 32 (s * 4096) ≠ 0))
        (range' s pageCount.toNat) (nodup_range' ..) fun x inside => by
          rw [mem_range'_1] at inside
          exact frames.list.members.mpr ⟨by omega, free x inside.1 inside.2⟩
      refine ⟨_, xs', ?_, final⟩
      simp only [frameStep, mmAllocateContiguousPhysicalPages, if_neg empty, scanned]
      by_cases failed : BitVec.ofNat 32 (s * 4096) = 0
      · simp [failed]
      · have keep : decide (BitVec.ofNat 32 (s * 4096) ≠ 0) = true := decide_eq_true failed
        simp only [if_neg failed, keep, if_true, frame]

theorem step (frames : Frames total start σ xs) (bounded : total ≤ 0x100000)
    (admitted : Balanced σ action ∧ LocksActive total σ action) :
    ∃ σ' xs', frameStep total σ action = some σ' ∧ Frames total start σ' xs' := by
  obtain ⟨balanced, active⟩ := admitted
  cases action with
  | allocate => exact frames.allocate bounded
  | allocateContiguous pageCount => exact frames.allocateContiguous bounded pageCount
  | free address => exact frames.free balanced.1 balanced.2
  | reference address =>
    obtain ⟨σ', done, next⟩ := frames.reference active
    exact ⟨σ', xs, done, next⟩
  | dereference address => exact frames.dereference balanced
  | zero => exact frames.zero

end Frames

/-- The free list is exact, the zeroed list starts at a zeroed page, and nothing
is allocated, locked or being cleared. -/
structure Quiet (total : Nat) (db : PipDatabase) : Prop where
  list : ∃ xs, Exact total db xs
  zeroed {h} : db.mmFirstZeroedPip = some h → (db.pip h).state = .zeroed

/-- In every run that locks active pages only, the free list stays exact, and the
reserved pages stay reserved and are not allocated. -/
theorem frame_runs_exact (highestAddress : BitVec 32) (db : PipDatabase)
    (quiet : Quiet (mmTotalPages highestAddress) db)
    (admitted : Along (fun σ action => Balanced σ action ∧
        LocksActive (mmTotalPages highestAddress) σ action)
      (frameStep (mmTotalPages highestAddress)) ⟨db, none, [], []⟩ actions) :
    ∃ σ xs, exec (frameStep (mmTotalPages highestAddress)) ⟨db, none, [], []⟩ actions = some σ ∧
      Exact (mmTotalPages highestAddress) σ.db xs ∧
      (∀ x, x < mmTotalPages highestAddress → (db.pip x).state = .reserved → x ∉ xs) ∧
      (∃ db' address, mmAllocatePhysicalPage (mmTotalPages highestAddress) σ.db = some (db', address) ∧
        (address ≠ 0 → (db.pip (frameOf address)).state ≠ .reserved)) ∧
      ∀ pageCount db' address, mmAllocateContiguousPhysicalPages (mmTotalPages highestAddress) σ.db
        pageCount = (db', address) → address ≠ 0 →
        ∀ x, frameOf address ≤ x → x < frameOf address + pageCount.toNat →
          (db.pip x).state ≠ .reserved := by
  have bounded : mmTotalPages highestAddress ≤ 0x100000 := by
    have := highestAddress.isLt
    rw [mmTotalPages]
    omega
  obtain ⟨xs, list⟩ := quiet.list
  have start : Frames (mmTotalPages highestAddress) db ⟨db, none, [], []⟩ xs := by
    refine ⟨list, quiet.zeroed, fun {x} bound => ?_, fun {x} held => ?_, fun _ => id⟩
    · constructor <;> simp
    · simp at held
  obtain ⟨σ, ended, xs', frames⟩ := exec_invariant
    (P := fun _ σ => ∃ xs, Frames (mmTotalPages highestAddress) db σ xs)
    (fun {n σ action} invariant admits _ => by
      obtain ⟨xs, frames⟩ := invariant
      obtain ⟨σ', xs', done, next⟩ := frames.step bounded admits
      exact ⟨σ', done, xs', next⟩)
    ⟨xs, start⟩ admitted (show 0 + actions.length ≤ actions.length by omega)
  have unreserved : ∀ {x}, x < mmTotalPages highestAddress → (σ.db.pip x).state = .free →
      (db.pip x).state ≠ .reserved := by
    intro x bound isFree was
    have := frames.reserved bound was
    rw [isFree] at this
    cases this
  refine ⟨σ, xs', ended, frames.list, fun x bound was member => ?_, ?_, ?_⟩
  · exact unreserved bound (frames.list.members.mp member).2 was
  · have first := frames.list.linked.first
    cases xs' with
    | nil =>
      have none_ : σ.db.mmFirstFreePip = none := first
      exact ⟨σ.db, 0, by rw [mmAllocatePhysicalPage, none_], fun nonzero => absurd rfl nonzero⟩
    | cons i rest =>
      have some_ : σ.db.mmFirstFreePip = some i := first
      obtain ⟨bound, isFree⟩ := frames.list.members.mp (mem_cons_self (l := rest) (a := i))
      refine ⟨activate σ.db i, BitVec.ofNat 32 (i * 4096), ?_, fun _ => ?_⟩
      · simp only [mmAllocatePhysicalPage, some_]
        rw [if_neg]
        rw [not_or, not_not]
        exact ⟨by omega, isFree⟩
      · rw [Frames.frameOf_ofNat (by omega)]
        exact unreserved bound isFree
  · intro pageCount db' address allocated nonzero x low high
    unfold mmAllocateContiguousPhysicalPages at allocated
    split at allocated
    · cases allocated
      exact absurd rfl nonzero
    · next some_ =>
        split at allocated
        · cases allocated
          exact absurd rfl nonzero
        · next s scanned =>
            obtain ⟨begins, ends, free⟩ := Frames.contiguous_spec scanned some_
            cases allocated
            rw [Frames.frameOf_ofNat (by omega)] at low high
            exact unreserved (by omega) (free x low high)

/-- Three pages, of which the last one is free. -/
def threePages : PipDatabase where
  pip x := ⟨none, none, 0, 0, if x = 2 then .free else .reserved⟩
  mmFirstFreePip := some 2
  mmFirstZeroedPip := none

theorem quiet_threePages : Quiet (mmTotalPages 0x3000) threePages := by
  refine ⟨⟨[2], ⟨⟨by simp, rfl, fun {l x r} split => ?_⟩, fun {x} => ?_⟩⟩, fun {h} head => nomatch head⟩
  · cases l with
    | nil =>
      obtain ⟨rfl, rfl⟩ := cons.inj split
      exact ⟨rfl, rfl⟩
    | cons y l => simp at split
  · by_cases same : x = 2
    · simp [same, threePages, mmTotalPages]
    · simp [same, threePages]

theorem frame_runs_exact_lock : ∃ σ xs, exec (frameStep (mmTotalPages 0x3000)) ⟨threePages, none, [], []⟩
      [.allocate, .reference 0x2000, .free 0x2000, .dereference 0x2000] = some σ ∧
      Exact (mmTotalPages 0x3000) σ.db xs ∧
      (∀ x, x < mmTotalPages 0x3000 → (threePages.pip x).state = .reserved → x ∉ xs) ∧
      (∃ db' address, mmAllocatePhysicalPage (mmTotalPages 0x3000) σ.db = some (db', address) ∧
        (address ≠ 0 → (threePages.pip (frameOf address)).state ≠ .reserved)) ∧
      ∀ pageCount db' address, mmAllocateContiguousPhysicalPages (mmTotalPages 0x3000) σ.db
        pageCount = (db', address) → address ≠ 0 →
        ∀ x, frameOf address ≤ x → x < frameOf address + pageCount.toNat →
          (threePages.pip x).state ≠ .reserved := by
  apply frame_runs_exact 0x3000 threePages quiet_threePages
  refine ⟨⟨trivial, trivial⟩, fun σ₁ stepped => ?_⟩
  obtain rfl := some.inj stepped
  refine ⟨⟨trivial, fun _ => by decide⟩, fun σ₂ stepped => ?_⟩
  obtain rfl := some.inj stepped
  refine ⟨⟨⟨by decide, by decide⟩, trivial⟩, fun σ₃ stepped => ?_⟩
  obtain rfl := some.inj stepped
  exact ⟨⟨mem_cons_self, trivial⟩, fun _ _ => trivial⟩

/-- A reserved page that is locked and unlocked is freed, and allocated next. -/
theorem reserved_page_freed : Quiet (mmTotalPages 0x3000) threePages ∧
    (threePages.pip 1).state = .reserved ∧
    Along Balanced (frameStep (mmTotalPages 0x3000)) ⟨threePages, none, [], []⟩
      [.reference 0x1000, .dereference 0x1000] ∧
    ∃ σ, exec (frameStep (mmTotalPages 0x3000)) ⟨threePages, none, [], []⟩
      [.reference 0x1000, .dereference 0x1000] = some σ ∧
      (∃ db', mmAllocatePhysicalPage (mmTotalPages 0x3000) σ.db = some (db', 0x1000)) ∧
      ∀ xs, Exact (mmTotalPages 0x3000) σ.db xs → 1 ∈ xs := by
  refine ⟨quiet_threePages, rfl, ⟨trivial, fun σ₁ stepped => ?_⟩, _, rfl, ⟨_, rfl⟩, fun xs list => ?_⟩
  · obtain rfl := some.inj stepped
    exact ⟨mem_cons_self, fun _ _ => trivial⟩
  · exact list.members.mpr ⟨by decide, by decide⟩

end VeaOS.Mm

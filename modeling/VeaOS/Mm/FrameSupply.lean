import VeaOS.Mm.FrameRuns

/-! Whether an allocation finds the pages that nobody uses. Pages that the zero
page thread has cleared are on a list of their own, from which nothing is taken. -/
namespace VeaOS.Mm
open Foundation Transition List Option

/-- The free pages that a step takes off their list. -/
def Takes (total : Nat) (σ : FrameSystem) : FrameAction → Nat → Prop
  | .allocate, x => σ.db.mmFirstFreePip = some x
  | .allocateContiguous pageCount, x => ∃ s,
      contiguousScan σ.db pageCount.toNat total 0 0 0xFFFFFFFF = some s ∧ s ≤ x ∧ x < s + pageCount.toNat
  | .zero, x => σ.zeroing = none ∧ σ.db.mmFirstFreePip = some x
  | _, _ => False

def Stores (σ : FrameSystem) : FrameAction → Prop
  | .zero => σ.zeroing ≠ none
  | _ => False

/-- A page stays free while another one is zeroed. -/
def SparesFree (total : Nat) (σ : FrameSystem) (action : FrameAction) : Prop :=
  σ.db.mmFirstZeroedPip ≠ none ∨ Stores σ action →
    ∃ x, x < total ∧ (σ.db.pip x).state = .free ∧ ¬ Takes total σ action x

/-- An allocation succeeds while a page is free or zeroed. -/
def Supplied (total : Nat) (db : PipDatabase) : Prop :=
  ∀ x, x < total → (db.pip x).state = .free ∨ (db.pip x).state = .zeroed →
    ∃ db' address, mmAllocatePhysicalPage total db = some (db', address) ∧ address ≠ 0

/-- As the database is set up: the pages below 1 MiB are reserved, and none is zeroed. -/
structure Booted (total : Nat) (db : PipDatabase) : Prop extends Quiet total db where
  low : 0 < total → (db.pip 0).state = .reserved
  unzeroed : (db.pip x).state ≠ .zeroed

section Steps
variable {total : Nat} {db : PipDatabase} {σ σ' : FrameSystem}

theorem activate_state : ((activate db i).pip x).state = if x = i then .active else (db.pip x).state := by
  by_cases same : x = i
  · rw [same, if_pos rfl, activate, setPip_self]
  · rw [if_neg same, activate, setPip_of_ne same, (sameFrames_unlink db i).state]

theorem activateAll_state (pages : List Nat) : ((pages.foldl activate db).pip x).state =
    if x ∈ pages then .active else (db.pip x).state := by
  induction pages generalizing db with
  | nil => rfl
  | cons i rest ih =>
    rw [foldl_cons, ih, activate_state]
    by_cases later : x ∈ rest
    · rw [if_pos later, if_pos (mem_cons_of_mem _ later)]
    · simp only [later, mem_cons, or_false, if_false]

theorem activateAll_zeroed (pages : List Nat) :
    (pages.foldl activate db).mmFirstZeroedPip = db.mmFirstZeroedPip := by
  induction pages generalizing db with
  | nil => rfl
  | cons i rest ih => exact ih.trans (zeroed_unlink db i)

theorem storePage_state : ((storePage db i).pip x).state = if x = i then .zeroed else (db.pip x).state := by
  rw [storePage, (sameFrames_insertZeroed _ i).state]
  by_cases same : x = i
  · rw [same, if_pos rfl, setPip_self]
  · rw [if_neg same, setPip_of_ne same]

/-- What a step does to the state of a page, and to the list of the zeroed ones. -/
structure Supplies (total : Nat) (σ : FrameSystem) (action : FrameAction) (σ' : FrameSystem) : Prop where
  free : (σ.db.pip x).state = .free → ¬ Takes total σ action x → (σ'.db.pip x).state = .free
  zeroed : (σ'.db.pip x).state = .zeroed → (σ.db.pip x).state = .zeroed ∨ Stores σ action
  head : σ'.db.mmFirstZeroedPip ≠ none ↔ σ.db.mmFirstZeroedPip ≠ none ∨ Stores σ action

theorem Supplies.of_states (head : σ'.db.mmFirstZeroedPip = σ.db.mmFirstZeroedPip)
    (quiet : ¬ Stores σ action)
    (states : ∀ x, (σ'.db.pip x).state = (σ.db.pip x).state ∨ (σ'.db.pip x).state = .free ∨
      (σ'.db.pip x).state = .active ∧ Takes total σ action x) : Supplies total σ action σ' := by
  constructor
  · intro x isFree kept
    obtain same | free | ⟨_, takes⟩ := states x
    · exact same.trans isFree
    · exact free
    · exact absurd takes kept
  · intro x zeroed
    obtain same | free | ⟨active, _⟩ := states x
    · exact Or.inl (same.symm.trans zeroed)
    · exact absurd (free.symm.trans zeroed) (by decide)
    · exact absurd (active.symm.trans zeroed) (by decide)
  · rw [head, or_iff_left quiet]

theorem Released.states (released : Released total db db' i xs) (x : Nat) :
    (db'.pip x).state = (db.pip x).state ∨ (db'.pip x).state = .free := by
  by_cases same : x = i
  · rw [same, released.state]
    split
    · exact Or.inr rfl
    · exact Or.inl rfl
  · exact Or.inl (released.others x same).1

theorem Supplies.of_released (σ' : FrameSystem) (released : Released total σ.db σ'.db i xs) (quiet : ¬ Stores σ action) :
    Supplies total σ action σ' := by
  apply Supplies.of_states released.head quiet
  intro x
  obtain same | free := released.states x
  · exact Or.inl same
  · exact Or.inr (Or.inl free)

theorem Supplies.of_taken (head : σ'.db.mmFirstZeroedPip = σ.db.mmFirstZeroedPip)
    (quiet : ¬ Stores σ action) (takes : Takes total σ action i)
    (states : ∀ x, (σ'.db.pip x).state = if x = i then .active else (σ.db.pip x).state) :
    Supplies total σ action σ' := by
  apply Supplies.of_states head quiet
  intro x
  rw [states]
  by_cases same : x = i
  · rw [if_pos same, same]
    exact Or.inr (Or.inr ⟨rfl, takes⟩)
  · exact Or.inl (if_neg same)

namespace Frames
variable {start : PipDatabase} {xs : List Nat}

theorem supplies_free (frames : Frames total start σ xs) (balanced : Balanced σ (.free address))
    (stepped : frameStep total σ (.free address) = some σ') : Supplies total σ (.free address) σ' := by
  obtain rfl := some.inj stepped
  have known := frames.known (.inl balanced.2)
  have held : 0 < σ.owned.count (frameOf address) := count_pos_iff.mpr balanced.2
  have account := frames.accounted known
  have counted := account.counted
  obtain ⟨_, freed⟩ := free_released frames.list known balanced.1 (account.owned held).1 (by omega)
  exact .of_released _ freed id

theorem supplies_dereference (frames : Frames total start σ xs)
    (balanced : Balanced σ (.dereference address))
    (stepped : frameStep total σ (.dereference address) = some σ') :
    Supplies total σ (.dereference address) σ' := by
  obtain rfl := some.inj stepped
  by_cases outside : frameOf address ≥ total
  · have kept : mmDereferencePhysicalPage total σ.db address = σ.db := if_pos outside
    apply Supplies.of_states _ id
    · intro x
      exact Or.inl (by simp only [kept])
    · simp only [kept]
  · have known : frameOf address < total := by omega
    have held : 0 < σ.locked.count (frameOf address) := count_pos_iff.mpr balanced
    have account := frames.accounted known
    have counted := account.counted
    have taken : (σ.db.pip (frameOf address)).state ≠ .free := fun isFree => by
      have := account.free isFree
      omega
    obtain ⟨_, freed⟩ := dereference_released frames.list known taken (by omega)
    exact .of_released _ freed id

theorem supplies_reference (stepped : frameStep total σ (.reference address) = some σ') :
    Supplies total σ (.reference address) σ' := by
  obtain rfl := some.inj stepped
  have states : ∀ x, ((mmReferencePhysicalPage total σ.db address).pip x).state = (σ.db.pip x).state ∧
      (mmReferencePhysicalPage total σ.db address).mmFirstZeroedPip = σ.db.mmFirstZeroedPip := by
    intro x
    rw [mmReferencePhysicalPage]
    generalize frameOf address = i
    dsimp only
    split
    next => exact ⟨rfl, rfl⟩
    next =>
      by_cases same : x = i
      · rw [same, setPip_self]
        exact ⟨rfl, rfl⟩
      · rw [setPip_of_ne same]
        exact ⟨rfl, rfl⟩
  exact .of_states (states 0).2 id fun x => Or.inl (states x).1

theorem supplies_allocate (stepped : frameStep total σ .allocate = some σ') :
    Supplies total σ .allocate σ' := by
  simp only [frameStep, mmAllocatePhysicalPage] at stepped
  split at stepped
  next =>
    obtain rfl := some.inj stepped
    exact .of_states rfl id fun _ => Or.inl rfl
  next i first =>
    split at stepped
    next => cases stepped
    next =>
      obtain rfl := some.inj stepped
      exact .of_taken (zeroed_unlink σ.db i) id first fun x => activate_state

theorem supplies_allocateContiguous (stepped : frameStep total σ (.allocateContiguous pageCount) = some σ') :
    Supplies total σ (.allocateContiguous pageCount) σ' := by
  simp only [frameStep, mmAllocateContiguousPhysicalPages] at stepped
  split at stepped
  next =>
    obtain rfl := some.inj stepped
    exact .of_states rfl id fun _ => Or.inl rfl
  next =>
    split at stepped
    next =>
      obtain rfl := some.inj stepped
      exact .of_states rfl id fun _ => Or.inl rfl
    next s scanned =>
      obtain rfl := some.inj stepped
      apply Supplies.of_states (activateAll_zeroed _) id
      intro x
      dsimp only
      rw [activateAll_state]
      split
      next member =>
        rw [mem_range'_1] at member
        exact Or.inr (Or.inr ⟨rfl, s, scanned, member⟩)
      next => exact Or.inl rfl

theorem supplies_zero (frames : Frames total start σ xs) (stepped : frameStep total σ .zero = some σ') :
    Supplies total σ .zero σ' := by
  simp only [frameStep] at stepped
  split at stepped
  next idle =>
    have quiet : ¬ Stores σ .zero := fun stores => stores idle
    simp only [takePage] at stepped
    split at stepped
    next =>
      obtain rfl := some.inj stepped
      exact .of_states rfl quiet fun _ => Or.inl rfl
    next i first =>
      obtain rfl := some.inj stepped
      apply Supplies.of_taken (zeroed_unlink σ.db i) quiet ⟨idle, first⟩
      intro x
      by_cases same : x = i
      · rw [same, if_pos rfl, setPip_self]
      · rw [if_neg same, setPip_of_ne same, (sameFrames_unlink σ.db i).state]
  next i clearing =>
    obtain rfl := some.inj stepped
    have stores : Stores σ .zero := by
      rw [Stores, clearing]
      exact some_ne_none i
    have active := (frames.accounted (frames.known (.inr clearing))).clearing clearing
    constructor
    · intro x isFree _
      dsimp only
      rw [storePage_state, if_neg]
      · exact isFree
      · rintro rfl
        exact absurd (isFree.symm.trans active) (by decide)
    · exact fun _ => Or.inr stores
    · exact iff_of_true (some_ne_none i) (Or.inr stores)

theorem supplies (frames : Frames total start σ xs) (balanced : Balanced σ action)
    (stepped : frameStep total σ action = some σ') : Supplies total σ action σ' := by
  cases action with
  | allocate => exact supplies_allocate stepped
  | allocateContiguous pageCount => exact supplies_allocateContiguous stepped
  | free address => exact frames.supplies_free balanced stepped
  | reference address => exact supplies_reference stepped
  | dereference address => exact frames.supplies_dereference balanced stepped
  | zero => exact frames.supplies_zero stepped

end Frames
end Steps

/-- The free list has a page while one is zeroed. -/
structure Spared (total : Nat) (start : PipDatabase) (σ : FrameSystem) : Prop where
  frames : ∃ xs, Frames total start σ xs
  zeroed : (σ.db.pip x).state = .zeroed → σ.db.mmFirstZeroedPip ≠ none
  free : σ.db.mmFirstZeroedPip ≠ none → ∃ x, x < total ∧ (σ.db.pip x).state = .free

namespace Spared
variable {total : Nat} {start : PipDatabase} {σ : FrameSystem}

theorem step (spared : Spared total start σ) (bounded : total ≤ 0x100000)
    (admitted : (Balanced σ action ∧ LocksActive total σ action) ∧ SparesFree total σ action) :
    ∃ σ', frameStep total σ action = some σ' ∧ Spared total start σ' := by
  obtain ⟨xs, frames⟩ := spared.frames
  obtain ⟨σ', xs', stepped, next⟩ := frames.step bounded admitted.1
  have supplies := frames.supplies admitted.1.1 stepped
  refine ⟨σ', stepped, ⟨xs', next⟩, fun {x} zeroed => ?_, fun head => ?_⟩
  · rw [supplies.head]
    exact (supplies.zeroed zeroed).imp_left spared.zeroed
  · obtain ⟨x, bound, isFree, kept⟩ := admitted.2 (supplies.head.mp head)
    exact ⟨x, bound, supplies.free isFree kept⟩

theorem supplied (spared : Spared total start σ) (bounded : total ≤ 0x100000)
    (low : 0 < total → (start.pip 0).state = .reserved) : Supplied total σ.db := by
  intro x bound unused
  obtain ⟨xs, frames⟩ := spared.frames
  obtain ⟨y, inside, isFree⟩ : ∃ y, y < total ∧ (σ.db.pip y).state = .free := by
    obtain isFree | zeroed := unused
    · exact ⟨x, bound, isFree⟩
    · exact spared.free (spared.zeroed zeroed)
  have listed := frames.list.members.mpr ⟨inside, isFree⟩
  have first := frames.list.linked.first
  cases xs with
  | nil => exact absurd listed not_mem_nil
  | cons i rest =>
    have head : σ.db.mmFirstFreePip = some i := first
    obtain ⟨below, isFree⟩ := frames.list.members.mp (mem_cons_self (l := rest) (a := i))
    have positive : i ≠ 0 := by
      rintro rfl
      have reserved := frames.reserved below (low below)
      exact absurd (isFree.symm.trans reserved) (by decide)
    refine ⟨activate σ.db i, BitVec.ofNat 32 (i * 4096), ?_, fun zero => ?_⟩
    · simp only [mmAllocatePhysicalPage, head]
      rw [if_neg]
      rw [not_or, not_not]
      exact ⟨by omega, isFree⟩
    · have frame := Frames.frameOf_ofNat (show i < 0x100000 by omega)
      rw [zero] at frame
      exact positive frame.symm

end Spared

/-- In every run that leaves a free page beside the zeroed ones, an allocation
finds one. -/
theorem frame_supply (highestAddress : BitVec 32) (db : PipDatabase)
    (booted : Booted (mmTotalPages highestAddress) db)
    (admitted : Along (fun σ action => (Balanced σ action ∧
        LocksActive (mmTotalPages highestAddress) σ action) ∧
        SparesFree (mmTotalPages highestAddress) σ action)
      (frameStep (mmTotalPages highestAddress)) ⟨db, none, [], []⟩ actions) :
    ∃ σ, exec (frameStep (mmTotalPages highestAddress)) ⟨db, none, [], []⟩ actions = some σ ∧
      Supplied (mmTotalPages highestAddress) σ.db := by
  have bounded : mmTotalPages highestAddress ≤ 0x100000 := by
    have := highestAddress.isLt
    rw [mmTotalPages]
    omega
  have initial : Spared (mmTotalPages highestAddress) db ⟨db, none, [], []⟩ := by
    refine ⟨?_, fun zeroed => absurd zeroed booted.unzeroed, fun head => ?_⟩
    · obtain ⟨xs, list⟩ := booted.list
      refine ⟨xs, list, booted.zeroed, fun {x} bound => ?_, fun {x} held => ?_, fun _ => id⟩
      · constructor <;> simp
      · simp at held
    · obtain ⟨h, first⟩ := ne_none_iff_exists'.mp head
      exact absurd (booted.zeroed first) booted.unzeroed
  obtain ⟨σ, ended, spared⟩ := exec_invariant
    (P := fun _ σ => Spared (mmTotalPages highestAddress) db σ)
    (fun spared admits _ => spared.step bounded admits)
    initial admitted (show 0 + actions.length ≤ actions.length by omega)
  exact ⟨σ, ended, spared.supplied bounded booted.low⟩

/-- Four pages, of which the last two are free. -/
def fourPages : PipDatabase where
  pip x := ⟨if x = 2 then some 3 else none, if x = 3 then some 2 else none, 0, 0,
    if x = 2 ∨ x = 3 then .free else .reserved⟩
  mmFirstFreePip := some 2
  mmFirstZeroedPip := none

theorem booted_threePages : Booted (mmTotalPages 0x3000) threePages := by
  refine ⟨quiet_threePages, fun _ => rfl, fun {x} => ?_⟩
  by_cases same : x = 2 <;> simp [threePages, same]

theorem booted_fourPages : Booted (mmTotalPages 0x4000) fourPages := by
  refine ⟨⟨⟨[2, 3], ⟨by decide, rfl, fun {l x r} split => ?_⟩, fun {x} => ?_⟩, nofun⟩, fun _ => rfl,
    fun {x} => ?_⟩
  · obtain _ | ⟨a, _ | ⟨b, l⟩⟩ := l
    · obtain ⟨rfl, rfl⟩ := cons.inj split
      exact ⟨rfl, rfl⟩
    · obtain ⟨rfl, rest⟩ := cons.inj split
      obtain ⟨rfl, rfl⟩ := cons.inj rest
      exact ⟨rfl, rfl⟩
    · simp at split
  · by_cases same : x = 2 ∨ x = 3
    · obtain rfl | rfl := same <;> simp [fourPages, mmTotalPages]
    · simp only [fourPages, if_neg same, mem_cons, not_mem_nil, or_false]
      exact iff_of_false same fun free => absurd free.2 (by decide)
  · by_cases same : x = 2 ∨ x = 3 <;> simp [fourPages, same]

/-- One page is zeroed, and the other one is still there. -/
theorem frame_supply_spare : ∃ σ, exec (frameStep (mmTotalPages 0x4000)) ⟨fourPages, none, [], []⟩
    [.zero, .zero] = some σ ∧ Supplied (mmTotalPages 0x4000) σ.db := by
  apply frame_supply 0x4000 fourPages booted_fourPages
  refine ⟨⟨⟨trivial, trivial⟩, ?_⟩, fun σ₁ stepped => ?_⟩
  · rintro (head | stores)
    · exact absurd rfl head
    · exact absurd rfl stores
  obtain rfl := some.inj stepped
  refine ⟨⟨⟨trivial, trivial⟩, fun _ => ⟨3, by decide, rfl, fun takes => ?_⟩⟩, fun _ _ => trivial⟩
  exact some_ne_none 2 takes.1

/-- The only free page is zeroed, and an allocation finds none. -/
theorem zeroed_page_lost : Booted (mmTotalPages 0x3000) threePages ∧
    ∃ σ, exec (frameStep (mmTotalPages 0x3000)) ⟨threePages, none, [], []⟩ [.zero, .zero] = some σ ∧
      ¬ Supplied (mmTotalPages 0x3000) σ.db := by
  refine ⟨booted_threePages, _, rfl, fun supplied => ?_⟩
  obtain ⟨db', address, allocated, nonzero⟩ := supplied 2 (by decide) (Or.inr rfl)
  exact nonzero (congrArg Prod.snd (some.inj allocated)).symm

end VeaOS.Mm

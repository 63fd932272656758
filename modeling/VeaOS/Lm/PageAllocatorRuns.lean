import VeaOS.Foundation.Runs
import VeaOS.Lm.PageAllocator

/-! When the pages that the loader hands out are whole pages of usable memory below 4 GB,
each handed out once, over every sequence of calls. -/
namespace VeaOS.Lm
open Transition Option

def Descriptor.covers (d : Descriptor) (b : Nat) : Bool := d.baseAddress ≤ b && b < d.baseAddress + d.length

def Allocation.covers (a : Allocation) (b : Nat) : Bool := a.address ≤ b && b < a.address + a.size

/-- How many descriptors of a kind cover a byte. -/
def covering (kind : ExtendedType → Nat → Bool) (map : List DescriptorEx) (b : Nat) : Nat :=
  map.countP fun d => kind d.extendedType d.baseAddress && d.covers b

def ofType (t : ExtendedType) : ExtendedType → Nat → Bool := fun e _ => e = t

def usable : ExtendedType → Nat → Bool := fun e base => e = .loaderGood && 0x100000 ≤ base

/-- How many ranges that were handed out with a type cover a byte. -/
def handed (kind : ExtendedType → Bool) (log : List Allocation) (b : Nat) : Nat :=
  log.countP fun a => kind a.extendedType && a.covers b

/-- The ranges handed out are whole pages, in usable memory at or above 1 MB and below 4 GB,
and apart; the map covers each byte as the firmware's did, but for the types of the ranges
handed out; and each page table has a frame that was handed out. -/
structure Loader.Sound (firmware : List Descriptor) (σ : Loader) : Prop where
  aligned : ∀ a ∈ σ.log, pageSize ∣ a.address
  inside : ∀ a ∈ σ.log, ∀ b, a.covers b = true → 0x100000 ≤ b ∧ b < 4294967296 ∧
    ∃ d ∈ firmware, d.type = 1 ∧ d.covers b = true
  disjoint : σ.log.Pairwise fun a c => ∀ b, a.covers b = true → c.covers b = false
  conserved : ∀ t b, covering (ofType t) σ.extendedMap b + (if t = .loaderGood then handed (fun _ => true) σ.log b else 0) =
    covering (ofType t) (lmExtendedMap firmware) b + handed (fun e => e = t) σ.log b
  tables : ∀ frame ∈ σ.installed, ∃ a ∈ σ.log, a.address = frame * pageSize ∧ a.size = pageSize

/-- The usable descriptors at or above 1 MB do not overlap. -/
def Separate (firmware : List Descriptor) : Prop := ∀ b, covering usable (lmExtendedMap firmware) b ≤ 1

namespace Loader

/-- The descriptor that pages are cut from ends with a page, at 4 GB or below. -/
def Grants (σ : Loader) (pageCount : Nat) : Prop :=
  pageCount ≠ 0 → ∀ i d, lastFitting (pageCount * pageSize) σ.extendedMap σ.extendedMap.length = some (i, d) →
    pageSize ∣ d.baseAddress + d.length ∧ d.baseAddress + d.length ≤ 4294967296

/-- A page table is there, or there is a page for it. -/
def MapsPage (σ : Loader) (virtualAddr : Nat) : Prop :=
  σ.directory (virtualAddr / 4194304) = none →
    lastFitting pageSize σ.extendedMap σ.extendedMap.length ≠ none ∧ σ.Grants 1

def MapsPages (virtualAddr physicalAddr : Nat) : (page count : Nat) → Loader → Prop
  | _, 0, _ => True
  | page, count + 1, σ =>
    σ.MapsPage ((virtualAddr + page * pageSize) % 4294967296) ∧
    ∀ τ, σ.mapPage ((virtualAddr + page * pageSize) % 4294967296)
      ((physicalAddr + page * pageSize) % 4294967296) = some τ →
      MapsPages virtualAddr physicalAddr (page + 1) count τ

/-- Each allocation of the call, those of page tables included, finds what it must. -/
def Meets (σ : Loader) : LoaderCall → Prop
  | .allocatePhysicalPages pageCount => σ.Grants pageCount
  | .allocatePhysicalPagesEx _ pageCount => σ.Grants pageCount
  | .mapVirtualMemory virtualAddr physicalAddr pageCount => MapsPages virtualAddr physicalAddr 0 pageCount σ
  | .allocatePool poolType byteSize => byteSize ≠ 0 → σ.Grants (poolPages byteSize) ∧
      ∀ physAddr τ, σ.lmAllocatePhysicalPagesEx poolType (poolPages byteSize) = some (physAddr, τ) → physAddr ≠ 0 →
        MapsPages τ.nextPoolVirtAddress physAddr 0 (poolPages byteSize) { τ with
          nextPoolVirtAddress := (τ.nextPoolVirtAddress + poolPages byteSize * pageSize) % 4294967296 }

/-- What holds of the map and the ranges handed out. -/
structure Kept (firmware : List Descriptor) (σ : Loader) : Prop extends σ.Sound firmware where
  cut : ∀ b, covering usable σ.extendedMap b + handed (fun _ => true) σ.log b =
    covering usable (lmExtendedMap firmware) b
  taken : ∀ a ∈ σ.log, a.extendedType ≠ .loaderGood

end Loader

section Cutting
variable {map : List DescriptorEx} {d new : DescriptorEx} {i size b : Nat}

theorem lastFitting_spec {n : Nat} (found : lastFitting size map n = some (i, d)) :
    map[i]? = some d ∧ d.fits size = true := by
  induction n with
  | zero => cases found
  | succ n ih =>
    unfold lastFitting at found
    split at found
    · rename_i e there
      split_ifs at found with fits
      · cases found
        exact ⟨there, fits⟩
      · exact ih found
    · exact ih found

theorem covers_cut (room : size ≤ d.length) (b : Nat) : (d.covers b).toNat =
    (({ d with length := d.length - size } : DescriptorEx).covers b).toNat +
      ((⟨d.baseAddress + d.length - size, size, 0⟩ : Descriptor).covers b).toNat := by
  simp only [Descriptor.covers]
  by_cases below : d.baseAddress ≤ b
  · by_cases left : b < d.baseAddress + (d.length - size)
    · have first : b < d.baseAddress + d.length := by omega
      have second : ¬ d.baseAddress + d.length - size ≤ b := by omega
      simp [below, left, first, second]
    · by_cases first : b < d.baseAddress + d.length
      · have second : d.baseAddress + d.length - size ≤ b := by omega
        have third : b < d.baseAddress + d.length - size + size := by omega
        simp [below, left, first, second, third]
      · have third : ¬ b < d.baseAddress + d.length - size + size := by omega
        simp [below, left, first, third]
  · have second : ¬ d.baseAddress + d.length - size ≤ b := by omega
    simp [below, second]

theorem covering_cut (kind : ExtendedType → Nat → Bool) (found : map[i]? = some d) (room : size ≤ d.length) (b : Nat) :
    covering kind (map.set i { d with length := d.length - size } ++ [new]) b +
        (kind d.extendedType d.baseAddress &&
          (⟨d.baseAddress + d.length - size, size, 0⟩ : Descriptor).covers b).toNat =
      covering kind map b + (kind new.extendedType new.baseAddress && new.covers b).toNat := by
  obtain ⟨within, here⟩ := List.getElem?_eq_some_iff.mp found
  have split := covers_cut room b
  simp only [covering, List.countP_append, List.countP_set within, here, List.countP_singleton]
  have counted : (if kind d.extendedType d.baseAddress && d.covers b then 1 else 0) ≤
      map.countP fun e => kind e.extendedType e.baseAddress && e.covers b := by
    split_ifs with counts
    · exact List.countP_pos_iff.mpr ⟨d, List.mem_of_getElem? found, counts⟩
    · exact Nat.zero_le _
  generalize kind d.extendedType d.baseAddress = k at counted ⊢
  generalize (kind new.extendedType new.baseAddress && new.covers b) = n
  generalize (map.countP fun e => kind e.extendedType e.baseAddress && e.covers b) = c at counted ⊢
  generalize d.covers b = whole at split counted ⊢
  generalize ({ d with length := d.length - size } : DescriptorEx).covers b = rest at split ⊢
  generalize (⟨d.baseAddress + d.length - size, size, 0⟩ : Descriptor).covers b = top at split ⊢
  cases k
  · cases n <;> simp
  · simp only [Bool.true_and] at counted ⊢
    cases whole <;> cases rest <;> cases top <;> cases n <;> simp at split counted ⊢ <;> omega

theorem handed_cons (kind : ExtendedType → Bool) (a : Allocation) (log : List Allocation) (b : Nat) :
    handed kind (a :: log) b = handed kind log b + (kind a.extendedType && a.covers b).toNat := by
  simp only [handed, List.countP_cons]
  cases kind a.extendedType && a.covers b <;> rfl

theorem handed_pos {log : List Allocation} {a : Allocation} (member : a ∈ log) (covered : a.covers b = true) :
    0 < handed (fun _ => true) log b :=
  List.countP_pos_iff.mpr ⟨a, member, by simpa using covered⟩

theorem usable_of_covering {firmware : List Descriptor}
    (covered : 0 < covering (ofType .loaderGood) (lmExtendedMap firmware) b) :
    ∃ d ∈ firmware, d.type = 1 ∧ d.covers b = true := by
  obtain ⟨e, member, counts⟩ := List.countP_pos_iff.mp covered
  obtain ⟨d, member', rfl⟩ := List.mem_map.mp member
  simp only [ofType, Bool.and_eq_true, decide_eq_true_eq] at counts
  refine ⟨d, member', ?_, counts.2⟩
  have good := counts.1
  unfold extendedTypeOf at good
  split at good
  · assumption
  all_goals cases good

end Cutting

namespace Loader
variable {σ τ : Loader} {firmware : List Descriptor}

theorem allocate_cases (allocated : σ.allocate type e pageCount = some (address, τ)) :
    (address = 0 ∧ τ = σ ∧
      (pageCount ≠ 0 → lastFitting (pageCount * pageSize) σ.extendedMap σ.extendedMap.length = none)) ∨
    ∃ i d, pageCount ≠ 0 ∧ lastFitting (pageCount * pageSize) σ.extendedMap σ.extendedMap.length = some (i, d) ∧
      address = (d.baseAddress + d.length - pageCount * pageSize) % 18446744073709551616 % 4294967296 ∧
      τ = { σ with
        extendedMap := σ.extendedMap.set i { d with length := d.length - pageCount * pageSize } ++
          [⟨⟨(d.baseAddress + d.length - pageCount * pageSize) % 18446744073709551616, pageCount * pageSize, type⟩, e⟩]
        log := ⟨address, pageCount * pageSize, e⟩ :: σ.log } := by
  unfold allocate at allocated
  by_cases none_ : pageCount = 0
  · rw [if_pos none_] at allocated
    cases allocated
    exact .inl ⟨rfl, rfl, fun some_ => absurd none_ some_⟩
  · rw [if_neg none_] at allocated
    cases found : lastFitting (pageCount * pageSize) σ.extendedMap σ.extendedMap.length with
    | none =>
      simp only [found] at allocated
      cases allocated
      exact .inl ⟨rfl, rfl, fun _ => rfl⟩
    | some at_ =>
      obtain ⟨i, d⟩ := at_
      simp only [found] at allocated
      split_ifs at allocated
      cases allocated
      exact .inr ⟨i, d, none_, rfl, rfl, rfl⟩

section
variable (kept : σ.Kept firmware)
include kept

/-- The top of a usable descriptor is handed out. -/
theorem Kept.cutTop (separate : Separate firmware) (here : σ.extendedMap[i]? = some d)
    (fits : d.fits size = true) (whole : pageSize ∣ size) (ends : pageSize ∣ d.baseAddress + d.length)
    (below : d.baseAddress + d.length ≤ 4294967296) (other : e ≠ .loaderGood)
    (there : address = d.baseAddress + d.length - size) :
    ({ σ with
      extendedMap := σ.extendedMap.set i { d with length := d.length - size } ++ [⟨⟨address, size, type⟩, e⟩]
      log := ⟨address, size, e⟩ :: σ.log } : Loader).Kept firmware := by
  simp only [DescriptorEx.fits, Bool.and_eq_true, decide_eq_true_eq] at fits
  obtain ⟨⟨good, room⟩, high⟩ := fits
  subst there
  have cutting : ∀ kind b,
      covering kind (σ.extendedMap.set i { d with length := d.length - size } ++
          [⟨⟨d.baseAddress + d.length - size, size, type⟩, e⟩]) b +
        (kind d.extendedType d.baseAddress &&
          (⟨d.baseAddress + d.length - size, size, e⟩ : Allocation).covers b).toNat =
      covering kind σ.extendedMap b + (kind e (d.baseAddress + d.length - size) &&
        (⟨d.baseAddress + d.length - size, size, e⟩ : Allocation).covers b).toNat :=
    fun kind b => covering_cut kind here room b
  have within : ∀ {b}, (⟨d.baseAddress + d.length - size, size, e⟩ : Allocation).covers b = true →
      d.baseAddress ≤ b ∧ b < d.baseAddress + d.length := by
    intro b covered
    simp only [Allocation.covers, Bool.and_eq_true, decide_eq_true_eq] at covered
    omega
  have looked : usable d.extendedType d.baseAddress = true := by simp [usable, good, high]
  have counted : ∀ {kind b}, (⟨d.baseAddress + d.length - size, size, e⟩ : Allocation).covers b = true →
      kind d.extendedType d.baseAddress = true → 0 < covering kind σ.extendedMap b := by
    intro kind b covered counts
    obtain ⟨first, last⟩ := within covered
    exact List.countP_pos_iff.mpr ⟨d, List.mem_of_getElem? here, by
      rw [counts, Bool.true_and, Descriptor.covers, decide_eq_true first, decide_eq_true last, Bool.and_self]⟩
  have alone : ∀ c ∈ σ.log, ∀ b, (⟨d.baseAddress + d.length - size, size, e⟩ : Allocation).covers b = true →
      c.covers b = false := by
    intro c member b covered
    rw [← Bool.not_eq_true]
    intro again
    have cut := kept.cut b
    have once := separate b
    have first := counted covered looked
    have second := handed_pos member again
    omega
  exact
    { aligned := fun a member => by
        rcases List.mem_cons.mp member with rfl | old
        · exact Nat.dvd_sub ends whole
        · exact kept.aligned a old
      inside := fun a member b covered => by
        rcases List.mem_cons.mp member with rfl | old
        · obtain ⟨first, last⟩ := within covered
          refine ⟨Nat.le_trans high first, Nat.lt_of_lt_of_le last below, usable_of_covering ?_⟩
          have conserved := kept.conserved .loaderGood b
          have present : 0 < covering (ofType .loaderGood) σ.extendedMap b := counted covered (by simp [ofType, good])
          have nothing : handed (fun t => decide (t = .loaderGood)) σ.log b = 0 := by
            refine List.countP_eq_zero.mpr fun c taken => ?_
            simp [kept.taken c taken]
          rw [if_pos rfl, nothing] at conserved
          omega
        · exact kept.inside a old b covered
      disjoint := List.pairwise_cons.mpr ⟨alone, kept.disjoint⟩
      conserved := fun t b => by
        have cut := cutting (ofType t) b
        have conserved := kept.conserved t b
        simp only [handed_cons, Bool.true_and]
        generalize (⟨d.baseAddress + d.length - size, size, e⟩ : Allocation).covers b = top at cut ⊢
        by_cases free : t = .loaderGood
        · have kinds : ofType t d.extendedType d.baseAddress = true ∧
              ofType t e (d.baseAddress + d.length - size) = false ∧ decide (e = t) = false := by
            simp [ofType, free, good, other]
          rw [kinds.1, kinds.2.1, Bool.true_and, Bool.false_and, Bool.toNat_false] at cut
          rw [if_pos free] at conserved ⊢
          rw [kinds.2.2, Bool.false_and, Bool.toNat_false]
          omega
        · have kinds : ofType t d.extendedType d.baseAddress = false ∧
              ofType t e (d.baseAddress + d.length - size) = decide (e = t) := by
            simp [ofType, good, Ne.symm free]
          rw [kinds.1, kinds.2, Bool.false_and, Bool.toNat_false] at cut
          rw [if_neg free] at conserved ⊢
          omega
      tables := fun frame member => by
        obtain ⟨a, old, place⟩ := kept.tables frame member
        exact ⟨a, List.mem_cons_of_mem _ old, place⟩
      cut := fun b => by
        have cut := cutting usable b
        have before := kept.cut b
        have lost : usable e (d.baseAddress + d.length - size) = false := by simp [usable, other]
        rw [looked, lost, Bool.true_and, Bool.false_and, Bool.toNat_false, Nat.add_zero] at cut
        simp only [handed_cons, Bool.true_and]
        omega
      taken := fun a member => by
        rcases List.mem_cons.mp member with rfl | old
        · exact other
        · exact kept.taken a old }

theorem Kept.allocate (separate : Separate firmware) (grants : σ.Grants pageCount)
    (other : e ≠ .loaderGood) (allocated : σ.allocate type e pageCount = some (address, τ)) :
    τ.Kept firmware ∧ (lastFitting (pageCount * pageSize) σ.extendedMap σ.extendedMap.length ≠ none →
      pageCount ≠ 0 → ∃ a ∈ τ.log, a.address = address ∧ a.size = pageCount * pageSize) := by
  rcases allocate_cases allocated with ⟨-, rfl, nothing⟩ | ⟨i, d, positive, found, there, written⟩
  · exact ⟨kept, fun found some_ => absurd (nothing some_) found⟩
  obtain ⟨ends, below⟩ := grants positive i d found
  obtain ⟨here, fits⟩ := lastFitting_spec found
  have size : 0 < pageCount * pageSize := Nat.mul_pos (Nat.pos_of_ne_zero positive) (by decide)
  have top : d.baseAddress + d.length - pageCount * pageSize < 4294967296 := by omega
  have small : d.baseAddress + d.length - pageCount * pageSize < 18446744073709551616 := by omega
  rw [Nat.mod_eq_of_lt small] at there written
  rw [Nat.mod_eq_of_lt top] at there
  rw [← there] at written
  rw [written]
  exact ⟨kept.cutTop separate here fits (Nat.dvd_mul_left _ _) ends below other there,
    fun _ _ => ⟨_, List.mem_cons_self, rfl, rfl⟩⟩

theorem Kept.ensureTable (separate : Separate firmware) (maps : σ.directory index = none →
      lastFitting pageSize σ.extendedMap σ.extendedMap.length ≠ none ∧ σ.Grants 1)
    (ensured : σ.ensureTable index = some τ) : τ.Kept firmware := by
  unfold Loader.ensureTable at ensured
  split at ensured
  · cases ensured
    exact kept
  · rename_i missing
    obtain ⟨found, grants⟩ := maps missing
    obtain ⟨⟨address, ρ⟩, allocated, rfl⟩ := map_eq_some_iff.mp ensured
    obtain ⟨kept', given⟩ := kept.allocate separate grants (by decide) allocated
    obtain ⟨a, member, place, size⟩ := given (by rwa [Nat.one_mul]) Nat.one_ne_zero
    exact { kept' with
      tables := fun frame installed => by
        rcases List.mem_cons.mp installed with rfl | old
        · refine ⟨a, member, ?_, by rw [size, Nat.one_mul]⟩
          rw [← place, Nat.div_mul_cancel (kept'.aligned a member)]
        · exact kept'.tables frame old }

theorem Kept.mapPage (separate : Separate firmware) (maps : σ.MapsPage virtualAddr)
    (mapped : σ.mapPage virtualAddr physicalAddr = some τ) : τ.Kept firmware := by
  obtain ⟨ρ, ensured, rfl⟩ := map_eq_some_iff.mp mapped
  exact { kept.ensureTable separate maps ensured with }

theorem Kept.mapPages {page : Nat} (separate : Separate firmware)
    (maps : MapsPages virtualAddr physicalAddr page count σ)
    (mapped : Loader.mapPages virtualAddr physicalAddr page count σ = some τ) : τ.Kept firmware := by
  induction count generalizing page σ with
  | zero =>
    cases mapped
    exact kept
  | succ count ih =>
    obtain ⟨ρ, first, rest⟩ := bind_eq_some_iff.mp mapped
    exact ih (kept.mapPage separate maps.1 first) (maps.2 ρ first) rest

theorem Kept.step (separate : Separate firmware) (meets : σ.Meets call)
    (stepped : σ.step call = some τ) : τ.Kept firmware := by
  cases call with
  | allocatePhysicalPages pageCount =>
    obtain ⟨⟨address, ρ⟩, allocated, rfl⟩ := map_eq_some_iff.mp stepped
    exact (kept.allocate separate meets (by decide) allocated).1
  | allocatePhysicalPagesEx poolType pageCount =>
    obtain ⟨⟨address, ρ⟩, allocated, rfl⟩ := map_eq_some_iff.mp stepped
    exact (kept.allocate separate meets (by cases poolType <;> decide) allocated).1
  | mapVirtualMemory virtualAddr physicalAddr pageCount => exact kept.mapPages separate meets stepped
  | allocatePool poolType byteSize =>
    obtain ⟨⟨address, ρ⟩, pooled, rfl⟩ := map_eq_some_iff.mp stepped
    unfold lmAllocatePool at pooled
    split_ifs at pooled with empty
    · cases pooled
      exact kept
    · obtain ⟨grants, maps⟩ := meets empty
      obtain ⟨⟨physAddr, υ⟩, allocated, rest⟩ := bind_eq_some_iff.mp pooled
      have kept' := (kept.allocate separate grants (by cases poolType <;> decide) allocated).1
      change (if physAddr = 0 then some (0, υ) else _) = some (address, ρ) at rest
      split_ifs at rest with failed
      · cases rest
        exact kept'
      · obtain ⟨υ', mapped, same⟩ := map_eq_some_iff.mp rest
        cases same
        have moved : ({ υ with
            nextPoolVirtAddress := (υ.nextPoolVirtAddress + poolPages byteSize * pageSize) % 4294967296 } :
            Loader).Kept firmware := { kept' with }
        exact moved.mapPages separate (maps physAddr υ allocated failed) mapped

end

/-- Over every sequence of calls, pages are handed out as they must while each allocation
meets the condition. -/
theorem pages_sound (firmware : List Descriptor) (directory : Nat → Option Nat)
    (pageTables : Nat → Nat → Option PageEntry) (calls : List LoaderCall) (separate : Separate firmware)
    (meets : Along Meets Loader.step (lmInitMemoryManager firmware directory pageTables) calls)
    (reached : exec Loader.step (lmInitMemoryManager firmware directory pageTables) calls = some τ) :
    τ.Sound firmware := by
  have initial : (lmInitMemoryManager firmware directory pageTables).Kept firmware :=
    { aligned := fun _ member => by cases member
      inside := fun _ member => by cases member
      disjoint := List.Pairwise.nil
      conserved := fun t b => by
        change covering (ofType t) (lmExtendedMap firmware) b + (if t = .loaderGood then 0 else 0) = _
        rw [ite_self]
        rfl
      tables := fun _ member => by cases member
      cut := fun b => rfl
      taken := fun _ member => by cases member }
  exact (exec_preserves (fun kept meets stepped => kept.step separate meets stepped) initial meets reached).toSound

def freshLoader (firmware : List Descriptor) : Loader := lmInitMemoryManager firmware (fun _ => none) fun _ _ => none

/-- Two pages are taken, and one for the table with which they are mapped. -/
def twoPagesMapped : List LoaderCall := [.allocatePhysicalPages 2, .mapVirtualMemory 0xC0000000 0x10E000 1]

theorem pages_sound_mapped : ∃ τ, exec Loader.step (freshLoader [⟨0x100000, 0x10000, 1⟩]) twoPagesMapped = some τ ∧
    τ.log = [⟨0x10D000, 4096, .loaderOccupied⟩, ⟨0x10E000, 8192, .loaderOccupied⟩] ∧
    τ.Sound [⟨0x100000, 0x10000, 1⟩] := by
  refine ⟨_, rfl, by decide, pages_sound [⟨0x100000, 0x10000, 1⟩] (fun _ => none) (fun _ _ => none) twoPagesMapped
    (fun b => List.countP_le_length) ⟨fun _ i d found => ?_, fun σ taken => ?_⟩ rfl⟩
  · cases (show some (0, _) = some (i, d) from found)
    exact ⟨by decide, by decide⟩
  · cases taken
    refine ⟨⟨fun _ => ⟨by decide, fun _ i d found => ?_⟩, fun _ _ => trivial⟩, fun _ _ => trivial⟩
    cases (show some (0, _) = some (i, d) from found)
    exact ⟨by decide, by decide⟩

/-- A usable range that does not end with a page, one above 4 GB, and a mapping without
memory for its page table. -/
theorem pages_misplaced :
    (∃ τ, exec Loader.step (freshLoader [⟨0x100000, 0x1400, 1⟩])
      [.allocatePhysicalPages 1] = some τ ∧ ¬ τ.Sound [⟨0x100000, 0x1400, 1⟩]) ∧
    (∃ τ, exec Loader.step (freshLoader [⟨0x100000000, 0x10000, 1⟩])
      [.allocatePhysicalPages 1] = some τ ∧ ¬ τ.Sound [⟨0x100000000, 0x10000, 1⟩]) ∧
    ∃ τ, exec Loader.step (freshLoader [])
      [.mapVirtualMemory 0xC0000000 0x200000 1] = some τ ∧ ¬ τ.Sound [] := by
  refine ⟨⟨_, rfl, fun sound => ?_⟩, ⟨_, rfl, fun sound => ?_⟩, _, rfl, fun sound => ?_⟩
  · exact absurd (sound.aligned _ List.mem_cons_self) (by decide)
  · exact absurd (sound.inside _ List.mem_cons_self 0xF000 (by decide)).1 (by decide)
  · obtain ⟨a, member, -⟩ := sound.tables 0 List.mem_cons_self
    cases member

end Loader

end VeaOS.Lm

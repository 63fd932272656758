import VeaOS.Mm.VadWindow

/-! Views of a section. What is mapped is a descriptor that keeps the low 32 bits of the
offset and the pages of a size of 32 bits, and a fault reads where the descriptor says. -/
namespace VeaOS.Mm.View
open Foundation PointerTree Rtl
variable {Area : Type}

/-- The size of the image file is `none` where the segment has no image information. -/
structure Segment (Area : Type) where
  controlArea : Option Area
  imageFileSize : Option (BitVec 32)

structure Section (Area : Type) where
  image : Bool
  sizeOfSection : BitVec 64
  initialPageProtection : BitVec 32
  segment : Option (Segment Area)

inductive SectionStatus where
  | ofSegment (status : VeaStatus)
  | invalidPageProtection
  | sectionProtection
  | invalidViewSize
  deriving DecidableEq, Repr

/-- The status and what the output parameters hold. -/
structure ViewResult where
  status : SectionStatus
  baseAddress : Option (BitVec 32)
  sectionOffset : Option (BitVec 64)
  viewSize : Option (BitVec 32)
  deriving DecidableEq

section Model

def mmNoAccess : BitVec 32 := 0x18
def mmGuardPage : BitVec 32 := 0x10
def mmNoCache : BitVec 32 := 0x08
def pageGuard : BitVec 32 := 0x100
def pageNoCache : BitVec 32 := 0x200
def pageWriteCombine : BitVec 32 := 0x400

/-- The entries without a protection are `MM_INVALID_PROTECTION`. -/
def mmUserProtectionToMask1 : List (Option (BitVec 32)) :=
  [some 0, some mmNoAccess, some 1, none, some 4, none, none, none,
    some 5, none, none, none, none, none, none, none]

def mmUserProtectionToMask2 : List (Option (BitVec 32)) :=
  [some 0, some 2, some 3, none, some 6, none, none, none, some 7, none, none, none, none, none, none, none]

/-- `none` is `MM_INVALID_PROTECTION`. -/
def miMakeProtectionMask (protect : BitVec 32) : Option (BitVec 32) := do
  if protect ≥ pageWriteCombine * 2 then none
  let mask1 := protect &&& 0xF
  let mask2 := (protect >>> 4) &&& 0xF
  let protectMask ←
    if mask1 = 0 then
      if mask2 = 0 then none else mmUserProtectionToMask2.getD mask2.toNat none
    else if mask2 ≠ 0 then none else mmUserProtectionToMask1.getD mask1.toNat none
  if protect &&& pageGuard ≠ 0 ∧
      (protectMask = mmNoAccess ∨ protect &&& (pageNoCache ||| pageWriteCombine) ≠ 0) then none
  let protectMask := if protect &&& pageGuard ≠ 0 then protectMask ||| mmGuardPage else protectMask
  if protect &&& pageNoCache ≠ 0 ∧ (protectMask = mmNoAccess ∨ protect &&& pageWriteCombine ≠ 0) then none
  let protectMask := if protect &&& pageNoCache ≠ 0 then protectMask ||| mmNoCache else protectMask
  if protect &&& pageWriteCombine ≠ 0 ∧ protectMask = mmNoAccess then none
  return if protect &&& pageWriteCombine ≠ 0 then protectMask ||| mmNoAccess else protectMask

/-- A right that is asked for and that the section was not created with. -/
def mismatch (protect initial mask : BitVec 32) : Prop := protect &&& mask ≠ 0 ∧ initial &&& mask = 0

instance : Decidable (mismatch protect initial mask) := inferInstanceAs (Decidable (_ ∧ _))

def pageWritable : BitVec 32 := 0x44
def miSectionCanRead : BitVec 32 := 0xFE
def pageExecutable : BitVec 32 := 0xF0

def Section.imageSegment? (object : Section Area) : Option (Segment Area) :=
  if object.image then object.segment else none

/-- The size in the image information, or else that of the section. -/
def imageViewSize (object : Section Area) (segment : Segment Area) : BitVec 32 :=
  match segment.imageFileSize with
  | some size => if size > 0 then size else object.sizeOfSection.setWidth 32
  | none => object.sizeOfSection.setWidth 32

/-- The offset of the section is rounded down to a page. -/
def pageOffset (sectionOffset : Option (BitVec 64)) : Option (BitVec 64) :=
  sectionOffset.map fun offset => offset &&& ~~~0xFFF#64

/-- `process` says that a process is given. Attaching to it changes nothing here. -/
def mmMapViewOfSection (fuel : Nat) (σ : AddressSpace Area) (available : Nat) (pooled : Bool)
    (sectionObject : Option (Section Area)) (process : Bool) (baseAddress : Option (BitVec 32))
    (sectionOffset : Option (BitVec 64)) (viewSize : Option (BitVec 32)) (protect : BitVec 32) :
    Option (AddressSpace Area × ViewResult) :=
  match sectionObject, baseAddress, viewSize with
  | some object, some base, some size =>
    if process = false then
      some (σ, ⟨.ofSegment .invalidParameter, baseAddress, sectionOffset, viewSize⟩)
    else if protect = 0 ∨ miMakeProtectionMask protect = none then
      some (σ, ⟨.invalidPageProtection, baseAddress, sectionOffset, viewSize⟩)
    else match object.imageSegment? with
    | some segment => do
        let (σ, status, out) ← mmMapViewOfSegment fuel σ available pooled (some segment.controlArea)
          (some base) (imageViewSize object segment) protect 0
        return (σ, ⟨.ofSegment status, out, sectionOffset,
          if status = .success then some (imageViewSize object segment) else viewSize⟩)
    | none =>
      if mismatch protect object.initialPageProtection pageWritable ∨
          mismatch protect object.initialPageProtection miSectionCanRead ∨
          mismatch protect object.initialPageProtection pageExecutable then
        some (σ, ⟨.sectionProtection, baseAddress, sectionOffset, viewSize⟩)
      else
        let viewOffset := (pageOffset sectionOffset).getD 0
        if viewOffset + size.setWidth 64 < viewOffset then
          some (σ, ⟨.invalidViewSize, baseAddress, pageOffset sectionOffset, viewSize⟩)
        else if size = 0 ∧ object.sizeOfSection ≤ viewOffset then
          some (σ, ⟨.invalidViewSize, baseAddress, pageOffset sectionOffset, viewSize⟩)
        else
          let size := if size = 0 then (object.sizeOfSection - viewOffset).setWidth 32 else size
          if viewOffset + size.setWidth 64 > object.sizeOfSection then
            some (σ, ⟨.invalidViewSize, baseAddress, pageOffset sectionOffset, some size⟩)
          else do
            let (σ, status, out) ← mmMapViewOfSegment fuel σ available pooled
              (object.segment.map Segment.controlArea) (some base) size protect viewOffset
            return (σ, ⟨.ofSegment status, out, pageOffset sectionOffset, some size⟩)
  | _, _, _ => some (σ, ⟨.ofSegment .invalidParameter, baseAddress, sectionOffset, viewSize⟩)

inductive PageFill where
  | zeroed
  | readFrom (fileOffset : BitVec 64)
  deriving DecidableEq

/-- The file object of a control area is given as whether there is one. -/
def hasFile (filePointer : Area → Bool) (controlArea : Option Area) : Bool := controlArea.elim false filePointer

/-- The descriptor that a fault finds and the contents it asks for, where a page table and
a frame are to be had. -/
def mmFaultDemandPaging (fuel : Nat) (σ : AddressSpace Area) (filePointer : Area → Bool)
    (faultingAddress : BitVec 32) : Option (Option (Nat × PageFill)) := do
  let vpnTarget := faultingAddress >>> 12
  match ← mmpFindVadByVpn σ vpnTarget fuel σ.mmKernelVadTree.root with
  | none => return none
  | some v =>
    if hasFile filePointer (σ.vad v).controlArea then
      return some (v, .readFrom ((σ.vad v).viewOffset.setWidth 64 +
        (vpnTarget - (σ.vad v).startingVpn).setWidth 64 * 4096))
    else return some (v, .zeroed)

end Model

/-- The bytes of the view that is asked for, zero meaning to the end of the section. An
image is mapped whole. -/
def Section.viewBytes (object : Section Area) (offset : Nat) (viewSize : BitVec 32) : Nat :=
  match object.imageSegment? with
  | some segment =>
    match segment.imageFileSize with
    | some size => if size > 0 then size.toNat else object.sizeOfSection.toNat
    | none => object.sizeOfSection.toNat
  | none => if viewSize = 0 then object.sizeOfSection.toNat - offset else viewSize.toNat

/-- The control area that a view of the section gets. -/
def Section.controlArea (object : Section Area) : Option Area := object.segment.bind Segment.controlArea

/-- The byte of an address whose page is filled so. Without a file the page is zeroed. -/
def BackedBy (filed : Bool) (fill : PageFill) (inPage byte : Nat) : Prop :=
  match fill with
  | .zeroed => filed = false
  | .readFrom fileOffset => fileOffset.toNat + inPage = byte

def roundedPages (size : Nat) : Nat := (size + 4095) / 4096

/-- The view lies in the section, a new descriptor has its pages, and faults find the
descriptor and the bytes of the section. -/
structure ViewGeometry (fuel : Nat) (object : Section Area) (filePointer : Area → Bool)
    (σ σ' : AddressSpace Area) (base : BitVec 32) (offset size : Nat) : Prop where
  inside : offset + size ≤ object.sizeOfSection.toNat
  mapped : ∃ v, ¬ σ.mmKernelVadTree.Reaches v ∧ σ'.mmKernelVadTree.Reaches v ∧
    (σ'.first v * 4096 = base.toNat ∧ (σ'.last v + 1) * 4096 = base.toNat + roundedPages size * 4096) ∧
    ∀ d < size, ∃ fill, mmFaultDemandPaging fuel σ' filePointer (base + BitVec.ofNat 32 d) = some (some (v, fill)) ∧
      BackedBy (hasFile filePointer object.controlArea) fill ((base.toNat + d) % 4096) (offset + d)

/-- The pages behind the last range end with the address space, where no gap holds them. -/
def PlaceFits (σ : AddressSpace Area) (nodes : List Nat) (pages : Nat) : Prop :=
  (∀ v ∈ nodes, 0xC1000 ≤ σ.first v) →
    (∃ p, 0xC1000 ≤ p ∧ Gap σ nodes pages p) ∨ ∀ v ∈ nodes, σ.last v + 1 + pages ≤ 0x100000

/-- No rounding or truncation loses a bit, the view ends with the address space, and an image
is asked for from its start. -/
structure ViewFits (object : Section Area) (filePointer : Area → Bool) (σ : AddressSpace Area)
    (nodes : List Nat) (base : BitVec 32) (offset size : Nat) : Prop where
  short : size ≤ 0xFFFFF000
  place : if pageAlignDown base = 0 then PlaceFits σ nodes (roundedPages size)
    else (pageAlignDown base).toNat + size ≤ 0x100000000
  image : object.imageSegment?.isSome → offset + size ≤ object.sizeOfSection.toNat
  file : hasFile filePointer object.controlArea →
    if object.imageSegment?.isSome then offset = 0 else offset < 0x100000000

/-- The pages that the view is mapped over are free. -/
def RangeFree (σ : AddressSpace Area) (available : Nat) (pooled : Bool) (base viewSize : BitVec 32) : Prop :=
  FindsRoom σ (.mapView available pooled (some none) (some base) viewSize 0 0)

section Geometry
variable {σ σ' : AddressSpace Area} {t t' : KeyTree Nat Int}

theorem pageAlignDown_whole (va : BitVec 32) : (pageAlignDown va).toNat % 4096 = 0 := by
  rw [pageAlignDown_eq, toNat_shiftLeft_page, toNat_shiftRight_page]
  omega

theorem placeFits_congr (vads : ∀ v ∈ nodes, σ'.vad v = σ.vad v) :
    PlaceFits σ' nodes pages ↔ PlaceFits σ nodes pages := by
  have first : ∀ v ∈ nodes, σ'.first v = σ.first v := fun v member => by
    rw [AddressSpace.first, vads v member, AddressSpace.first]
  have last : ∀ v ∈ nodes, σ'.last v = σ.last v := fun v member => by
    rw [AddressSpace.last, vads v member, AddressSpace.last]
  have gap : ∀ p, Gap σ' nodes pages p ↔ Gap σ nodes pages p := fun p =>
    ⟨fun gap => gap.congr fun v member => (vads v member).symm, fun gap => gap.congr vads⟩
  have above : (∀ v ∈ nodes, 0xC1000 ≤ σ'.first v) ↔ ∀ v ∈ nodes, 0xC1000 ≤ σ.first v :=
    forall₂_congr fun v member => by rw [first v member]
  have short : (∀ v ∈ nodes, σ'.last v + 1 + pages ≤ 0x100000) ↔ ∀ v ∈ nodes, σ.last v + 1 + pages ≤ 0x100000 :=
    forall₂_congr fun v member => by rw [last v member]
  simp only [PlaceFits, gap, above, short]

theorem chosen_place (starts : ∀ v ∈ nodes, σ.first v < 0x100000) {va : BitVec 32} (nonzero : va ≠ 0)
    (bounded : pages ≤ 0x3EC00) (ends : (∀ v ∈ nodes, 0xC1000 ≤ σ.first v) →
      (∀ v ∈ nodes, σ.last v + 1 < 0x100000) ∨ ∃ p, 0xC1000 ≤ p ∧ Gap σ nodes pages p)
    (chosen : ChosenPlace σ nodes pages va) :
    va.toNat % 4096 = 0 ∧ (va.toNat + pages * 4096 ≤ 0x100000000 ↔ PlaceFits σ nodes pages) := by
  have positive : va.toNat ≠ 0 := fun zero => nonzero (BitVec.eq_of_toNat_eq zero)
  rcases chosen with ⟨start, low⟩ | ⟨above, ⟨p, later, gap, same⟩ | ⟨nowhere, v, member, behind, same⟩⟩
  · refine ⟨by omega, iff_of_true (by omega) fun above => ?_⟩
    rcases low with rfl | ⟨k, memberK, below⟩
    · exact .inr fun v => (absurd · List.not_mem_nil)
    · have := above k memberK
      omega
  · obtain ⟨v, member, fits⟩ := gap.1
    have := starts v member
    exact ⟨by omega, iff_of_true (by omega) fun _ => .inl ⟨p, later, gap⟩⟩
  · have inside := ((ends above).resolve_right fun ⟨p, later, gap⟩ => nowhere p later gap) v member
    refine ⟨by omega, ?_, fun fits => ?_⟩
    · intro fits _
      refine .inr fun w memberW => ?_
      have := behind w memberW
      omega
    · have short := (fits above).resolve_left (fun ⟨p, later, gap⟩ => nowhere p later gap) v member
      omega

theorem allocated_place (ranges : Ranges σ t) (enough : t.size ≤ fuel) (nonzero : va ≠ 0)
    (room : (mmpAllocateVadNode σ available).isSome → RoomFor σ pages.toNat)
    (done : mmAllocateVirtualRange fuel σ available pages = some (σ', va)) :
    va.toNat % 4096 = 0 ∧ (va.toNat + pages.toNat * 4096 ≤ 0x100000000 ↔ PlaceFits σ t.inorder pages.toNat) := by
  have none_ : ∀ {σ'' : AddressSpace Area} {P : Prop}, some (σ'', (0 : BitVec 32)) = some (σ', va) → P :=
    fun same => absurd (Prod.mk.inj (Option.some.inj same)).2.symm nonzero
  cases taken : mmpAllocateVadNode σ available with
  | none =>
    simp only [mmAllocateVirtualRange, taken] at done
    exact none_ done
  | some found =>
    obtain ⟨σ₁, new⟩ := found
    obtain ⟨ranges₁, _, _, _, vads⟩ := ranges.allocate taken
    simp only [mmAllocateVirtualRange, taken] at done
    by_cases invalid : pages = 0 ∨ pages > (kvaLimit - startingKva) / pageSize
    · rw [if_pos invalid] at done
      exact none_ done
    · rw [if_neg invalid] at done
      have limit : ((kvaLimit - startingKva) / pageSize).toNat = 0x3EC00 := by decide
      have zero : (0 : BitVec 32).toNat = 0 := rfl
      rw [gt_iff_lt, BitVec.lt_def, limit, ← BitVec.toNat_inj, zero] at invalid
      have positive : 0 < pages.toNat := by omega
      obtain ⟨place, chosen, at_⟩ := choose_cases ranges₁ positive (by omega) enough
      simp only [chosen, Option.bind_eq_bind, Option.bind_some, Option.pure_def] at done
      by_cases exhausted : place + pages * 4096 ≥ kvaLimit
      · rw [if_pos exhausted] at done
        exact none_ done
      · rw [if_neg exhausted] at done
        obtain ⟨_, _, same⟩ := Option.bind_eq_some_iff.mp done
        obtain rfl := (Prod.mk.inj (Option.some.inj same)).2
        have same : ∀ v ∈ t.inorder, σ₁.first v = σ.first v ∧ σ₁.last v = σ.last v := fun v member => by
          rw [AddressSpace.first, AddressSpace.last, vads v member]
          exact ⟨rfl, rfl⟩
        have reaches : ∀ v, σ.mmKernelVadTree.Reaches v ↔ v ∈ t.inorder := fun v => ranges.focus.reaches_iff
        obtain ⟨whole, fits⟩ := chosen_place (fun v member => (ranges₁.bounds v member).1) nonzero (by omega)
          (fun above => by
            have ends := (room (by rw [taken]; rfl) positive (by omega)).2
            simp only [reaches] at ends
            rcases ends fun v member => (same v member).1 ▸ above v member with ends | ⟨p, later, gap⟩
            · exact .inl fun v member => (same v member).2 ▸ ends v member
            · exact .inr ⟨p, later, Gap.congr gap vads⟩) at_
        exact ⟨whole, fits.trans (placeFits_congr vads)⟩

theorem find_sound (vpn : BitVec 32) (found : mmpFindVadByVpn σ vpn fuel node = some (some v)) :
    σ.first v ≤ vpn.toNat ∧ vpn.toNat ≤ σ.last v := by
  induction fuel generalizing node with
  | zero => cases node <;> cases found
  | succ fuel ih =>
    cases node with
    | none => cases found
    | some k =>
      rw [mmpFindVadByVpn] at found
      by_cases here : (σ.vad k).startingVpn ≤ vpn ∧ vpn ≤ (σ.vad k).endingVpn
      · rw [if_pos here] at found
        obtain rfl := Option.some.inj (Option.some.inj found)
        exact here
      · rw [if_neg here] at found
        by_cases less : vpn < (σ.vad k).startingVpn
        · rw [if_pos less] at found
          exact ih found
        · rw [if_neg less] at found
          exact ih found

theorem fault_of_found {a : BitVec 32}
    (found : mmpFindVadByVpn σ (a >>> 12) fuel σ.mmKernelVadTree.root = some (some v)) :
    mmFaultDemandPaging fuel σ filePointer a = some (some (v,
      if hasFile filePointer (σ.vad v).controlArea then .readFrom ((σ.vad v).viewOffset.setWidth 64 +
        (a >>> 12 - (σ.vad v).startingVpn).setWidth 64 * 4096) else .zeroed)) := by
  simp only [mmFaultDemandPaging, found, Option.bind_eq_bind, Option.bind_some, Option.pure_def]
  split <;> rfl

theorem found_of_fault (served : mmFaultDemandPaging fuel σ filePointer a = some (some (v, fill))) :
    mmpFindVadByVpn σ (a >>> 12) fuel σ.mmKernelVadTree.root = some (some v) := by
  rw [mmFaultDemandPaging, Option.bind_eq_bind, Option.bind_eq_some_iff] at served
  obtain ⟨found, looked, served⟩ := served
  rw [looked]
  cases found with
  | none => cases served
  | some w =>
    dsimp only at served
    split at served <;> cases served <;> rfl

theorem backed_iff {va start : BitVec 32} (kept : BitVec 32) (whole : va.toNat % 4096 = 0)
    (first : start.toNat = va.toNat / 4096) (inside : va.toNat + d < 0x100000000) (filed : Bool) :
    BackedBy filed (if filed then .readFrom (kept.setWidth 64 +
        ((va + BitVec.ofNat 32 d) >>> 12 - start).setWidth 64 * 4096) else .zeroed)
      ((va.toNat + d) % 4096) (offset + d) ↔ (filed → kept.toNat = offset) := by
  cases filed with
  | false => simp [BackedBy]
  | true =>
    have page : (4096 : BitVec 64).toNat = 4096 := rfl
    have pages : ((va + BitVec.ofNat 32 d) >>> 12 - start).toNat = d / 4096 := by
      rw [BitVec.toNat_sub, toNat_shiftRight_page, BitVec.toNat_add, BitVec.toNat_ofNat, first]
      omega
    have keptBound := kept.isLt
    have position : (kept.setWidth 64 + ((va + BitVec.ofNat 32 d) >>> 12 - start).setWidth 64 * 4096).toNat =
        kept.toNat + d / 4096 * 4096 := by
      rw [BitVec.toNat_add, BitVec.toNat_mul, BitVec.toNat_setWidth, BitVec.toNat_setWidth, pages, page]
      omega
    simp only [if_true, BackedBy, position, true_imp_iff]
    omega

theorem geometry_iff {va size : BitVec 32} {viewOffset : BitVec 64} (ranges : Ranges σ' t')
    (enough : 2 * t'.size ≤ fuel) (member : v ∈ t'.inorder) (fresh : ¬ σ.mmKernelVadTree.Reaches v)
    (node : ViewNode σ' v object.controlArea va.toNat (pageRoundUp size >>> 12).toNat viewOffset)
    (whole : va.toNat % 4096 = 0) (nonzero : size ≠ 0) (same : size = BitVec.ofNat 32 bytes)
    (only : ∀ w, ¬ σ.mmKernelVadTree.Reaches w → σ'.mmKernelVadTree.Reaches w → w = v) :
    ViewGeometry fuel object filePointer σ σ' va offset bytes ↔
      offset + bytes ≤ object.sizeOfSection.toNat ∧ bytes ≤ 0xFFFFF000 ∧ va.toNat + bytes ≤ 0x100000000 ∧
        (hasFile filePointer object.controlArea → (viewOffset.setWidth 32).toNat = offset) := by
  obtain ⟨first, last, area, offset32⟩ := node
  have vaBound := va.isLt
  have sizeNat : size.toNat = bytes % 0x100000000 := by rw [same, BitVec.toNat_ofNat]
  have sizePositive : size.toNat ≠ 0 := fun zero => nonzero (BitVec.eq_of_toNat_eq zero)
  rw [toNat_roundUp_pages, sizeNat] at last
  have vpn : ∀ d, ((va + BitVec.ofNat 32 d) >>> 12).toNat = (va.toNat + d) % 0x100000000 / 4096 := fun d => by
    rw [toNat_shiftRight_page, BitVec.toNat_add, BitVec.toNat_ofNat]
    omega
  constructor
  · rintro ⟨inside, w, freshW, reachedW, ⟨_, high⟩, backed⟩
    obtain rfl := only w freshW reachedW
    have short : bytes ≤ 0xFFFFF000 := by
      simp only [roundedPages] at high
      omega
    have fits : va.toNat + bytes ≤ 0x100000000 := by
      by_contra beyond
      -- the last byte wraps to an address below the view
      obtain ⟨fill, served, _⟩ := backed (bytes - 1) (by omega)
      have low := (find_sound _ (found_of_fault served)).1
      rw [vpn, first] at low
      omega
    refine ⟨inside, short, fits, ?_⟩
    obtain ⟨fill, served, holds⟩ := backed 0 (by omega)
    rw [fault_of_found (found_of_fault served)] at served
    cases served
    rw [area] at holds
    rw [← offset32]
    exact (backed_iff _ whole first (by omega) _).mp holds
  · rintro ⟨inside, short, fits, kept⟩
    refine ⟨inside, v, fresh, ranges.focus.reaches_iff.mpr member, ⟨by omega, ?_⟩, fun d less => ?_⟩
    · simp only [roundedPages]
      omega
    · obtain ⟨found, looked, _, complete⟩ := lookup_spec ranges ((va + BitVec.ofNat 32 d) >>> 12) enough
      have here : found = some v := by
        apply complete v member
        · rw [vpn, first]
          omega
        · rw [vpn]
          omega
      refine ⟨_, fault_of_found (here ▸ looked), ?_⟩
      rw [area, backed_iff _ whole first (by omega), offset32]
      exact kept

theorem segment_view_iff (object : Section Area) {base size : BitVec 32} (protect : BitVec 32)
    (viewOffset : BitVec 64) (offset : Nat) (filePointer : Area → Bool) (ranges : Ranges σ t)
    (enough : 2 * t.size + 2 ≤ fuel) (free : RangeFree σ available pooled base size) (bytes : Nat)
    (same : size = BitVec.ofNat 32 bytes) :
    ∃ σ' status out, mmMapViewOfSegment fuel σ available pooled (object.segment.map Segment.controlArea)
        (some base) size protect viewOffset = some (σ', status, out) ∧
      (status = .success → ∃ va, out = some va ∧
        (ViewGeometry fuel object filePointer σ σ' va offset bytes ↔
          offset + bytes ≤ object.sizeOfSection.toNat ∧ bytes ≤ 0xFFFFF000 ∧
            (if pageAlignDown base = 0 then PlaceFits σ t.inorder (roundedPages bytes)
              else (pageAlignDown base).toNat + bytes ≤ 0x100000000) ∧
            (hasFile filePointer object.controlArea → (viewOffset.setWidth 32).toNat = offset))) := by
  have finds : FindsRoom σ (.mapView available pooled (object.segment.map Segment.controlArea) (some base) size
      protect viewOffset) := by
    cases object.segment with
    | none => trivial
    | some segment => exact free
  obtain ⟨σ', status, out, t', done, keeps, mapped⟩ := map_spec ranges finds enough
  refine ⟨σ', status, out, done, fun succeeded => ?_⟩
  obtain ⟨area, asked, va, v, given, ⟨⟩, rfl, nonzero, fresh, members, node, placed⟩ := mapped succeeded
  have controlArea : object.controlArea = area := by
    obtain ⟨segment, found, rfl⟩ := Option.map_eq_some_iff.mp given
    rw [Section.controlArea, found, Option.bind_some]
  have grown := keeps.size
  have room : pageAlignDown base = 0 → (mmpAllocateVadNode σ available).isSome →
      RoomFor σ (pageRoundUp size >>> 12).toNat := by
    intro chosen
    have room := free nonzero
    rwa [if_pos chosen] at room
  have whole : va.toNat % 4096 = 0 := by
    split at placed
    next chosen =>
      obtain ⟨found, _, allocated⟩ := placed
      exact (allocated_place ranges (by omega) found (room chosen) allocated).1
    next =>
      rw [placed]
      exact pageAlignDown_whole base
  have only : ∀ w, ¬ σ.mmKernelVadTree.Reaches w → σ'.mmKernelVadTree.Reaches w → w = v := by
    intro w unreached reached
    exact ((members w).mp (keeps.ranges.focus.reaches_iff.mp reached)).resolve_left
      (mt ranges.focus.reaches_iff.mpr unreached)
  refine ⟨va, rfl, (geometry_iff keeps.ranges (by omega) ((members v).mpr (.inr rfl))
    (mt ranges.focus.reaches_iff.mp fresh) (controlArea ▸ node) whole nonzero same only).trans ?_⟩
  refine and_congr_right fun _ => and_congr_right fun short => and_congr ?_ Iff.rfl
  by_cases chosen : pageAlignDown base = 0
  · rw [if_pos chosen] at placed ⊢
    obtain ⟨found, _, allocated⟩ := placed
    have pages : (pageRoundUp size >>> 12).toNat = roundedPages bytes := by
      rw [toNat_roundUp_pages, same, BitVec.toNat_ofNat, roundedPages]
      omega
    rw [← pages, ← (allocated_place ranges (by omega) found (room chosen) allocated).2, pages, roundedPages]
    omega
  · rw [if_neg chosen] at placed ⊢
    rw [placed]

theorem imageViewSize_eq {segment : Segment Area} (found : object.imageSegment? = some segment) (offset : Nat) (viewSize : BitVec 32) :
    imageViewSize object segment = BitVec.ofNat 32 (object.viewBytes offset viewSize) := by
  have truncated : object.sizeOfSection.setWidth 32 = BitVec.ofNat 32 object.sizeOfSection.toNat :=
    BitVec.eq_of_toNat_eq (by rw [BitVec.toNat_setWidth, BitVec.toNat_ofNat])
  simp only [imageViewSize, Section.viewBytes, found]
  cases segment.imageFileSize with
  | none => exact truncated
  | some size =>
    dsimp only
    split
    · rw [BitVec.ofNat_toNat, BitVec.setWidth_eq]
    · exact truncated

theorem dataViewSize_eq {object : Section Area} (found : object.imageSegment? = none) {viewSize : BitVec 32}
    {viewOffset : BitVec 64} (some_ : ¬ (viewSize = 0 ∧ object.sizeOfSection ≤ viewOffset)) :
    (if viewSize = 0 then (object.sizeOfSection - viewOffset).setWidth 32 else viewSize) =
      BitVec.ofNat 32 (object.viewBytes viewOffset.toNat viewSize) := by
  simp only [Section.viewBytes, found]
  by_cases whole : viewSize = 0
  · have less : viewOffset ≤ object.sizeOfSection := by
      have more : ¬ object.sizeOfSection ≤ viewOffset := fun le => some_ ⟨whole, le⟩
      rw [BitVec.le_def] at more ⊢
      omega
    rw [if_pos whole, if_pos whole]
    apply BitVec.eq_of_toNat_eq
    rw [BitVec.toNat_setWidth, BitVec.toNat_ofNat, BitVec.toNat_sub_of_le less]
  · rw [if_neg whole, if_neg whole, BitVec.ofNat_toNat, BitVec.setWidth_eq]

theorem dataView_inside {object : Section Area} (found : object.imageSegment? = none) {viewSize : BitVec 32}
    {viewOffset : BitVec 64} (overflow : ¬ viewOffset + viewSize.setWidth 64 < viewOffset)
    (boundary : ¬ viewOffset + (BitVec.ofNat 32 (object.viewBytes viewOffset.toNat viewSize)).setWidth 64 >
      object.sizeOfSection) (short : object.viewBytes viewOffset.toNat viewSize ≤ 0xFFFFF000) :
    viewOffset.toNat + object.viewBytes viewOffset.toNat viewSize ≤ object.sizeOfSection.toNat := by
  have offsetBound := viewOffset.isLt
  have sectionBound := object.sizeOfSection.isLt
  rw [BitVec.lt_def, BitVec.toNat_add, BitVec.toNat_setWidth] at overflow
  rw [gt_iff_lt, BitVec.lt_def, BitVec.toNat_add, BitVec.toNat_setWidth, BitVec.toNat_ofNat] at boundary
  simp only [Section.viewBytes, found] at *
  by_cases whole : viewSize = 0
  · simp only [if_pos whole] at *
    omega
  · have sizeBound := viewSize.isLt
    simp only [if_neg whole] at *
    omega

theorem viewFits_image {object : Section Area} (image : object.imageSegment?.isSome) (offset bytes : Nat) :
    (offset + bytes ≤ object.sizeOfSection.toNat ∧ bytes ≤ 0xFFFFF000 ∧
        (if pageAlignDown base = 0 then PlaceFits σ nodes (roundedPages bytes)
          else (pageAlignDown base).toNat + bytes ≤ 0x100000000) ∧
        (hasFile filePointer object.controlArea → ((0 : BitVec 64).setWidth 32).toNat = offset)) ↔
      ViewFits object filePointer σ nodes base offset bytes := by
  have zero : ((0 : BitVec 64).setWidth 32).toNat = 0 := rfl
  constructor
  · rintro ⟨inside, short, place, file⟩
    refine ⟨short, place, fun _ => inside, fun filed => ?_⟩
    rw [if_pos image]
    exact (file filed).symm
  · rintro ⟨short, place, inside, file⟩
    refine ⟨inside image, short, place, fun filed => ?_⟩
    have start := file filed
    rw [if_pos image] at start
    rw [zero, start]

theorem viewFits_data {object : Section Area} (data : object.imageSegment? = none) (viewOffset : BitVec 64)
    (inside : bytes ≤ 0xFFFFF000 → viewOffset.toNat + bytes ≤ object.sizeOfSection.toNat) :
    (viewOffset.toNat + bytes ≤ object.sizeOfSection.toNat ∧ bytes ≤ 0xFFFFF000 ∧
        (if pageAlignDown base = 0 then PlaceFits σ nodes (roundedPages bytes)
          else (pageAlignDown base).toNat + bytes ≤ 0x100000000) ∧
        (hasFile filePointer object.controlArea → (viewOffset.setWidth 32).toNat = viewOffset.toNat)) ↔
      ViewFits object filePointer σ nodes base viewOffset.toNat bytes := by
  have kept : (viewOffset.setWidth 32).toNat = viewOffset.toNat ↔ viewOffset.toNat < 0x100000000 := by
    rw [BitVec.toNat_setWidth]
    omega
  have notImage : ¬ object.imageSegment?.isSome := by simp [data]
  constructor
  · rintro ⟨_, short, place, file⟩
    refine ⟨short, place, fun image => absurd image notImage, fun filed => ?_⟩
    rw [if_neg notImage]
    exact kept.mp (file filed)
  · rintro ⟨short, place, _, file⟩
    refine ⟨inside short, short, place, fun filed => kept.mpr ?_⟩
    have below := file filed
    rwa [if_neg notImage] at below

def fileSection (sizeOfSection : BitVec 64) : Section Unit := ⟨false, sizeOfSection, 4, some ⟨some (), none⟩⟩

end Geometry
end VeaOS.Mm.View

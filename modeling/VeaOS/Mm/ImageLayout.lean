import Mathlib.Order.Interval.Set.Disjoint
import Mathlib.Data.List.Pairwise
import VeaOS.Foundation.PackedBits
import VeaOS.Mm.ImageSection

/-! Where the sections of a relocatable driver come to lie in its image. A
section is placed at its offset in the file, whether or not it has bytes there,
and the image ends where the file does. -/
namespace VeaOS.Elf
open Foundation

section Specification
variable (file : FileReader)

/-- The header of a file, and its section headers, as they are read. -/
def fileHeader : Elf32Ehdr := Elf32Ehdr.ofBytes ((miSimpleReadFile file 0 sizeofElf32Ehdr).getD [])

def fileSections : List Elf32Shdr :=
  tableOf Elf32Shdr.ofBytes sizeofElf32Shdr (fileHeader file).eShnum.toNat
    ((miSimpleReadFile file (fileHeader file).eShoff.toNat
      ((fileHeader file).eShnum.toNat * sizeofElf32Shdr)).getD [])

def allocatedSections : List Elf32Shdr := (fileSections file).filter isAllocated

/-- The addresses that an allocated section takes, from the one it was assigned on. -/
def placedRange (segment : MmSectionSegment) (shdr : Elf32Shdr) : Set Nat :=
  Set.Ico segment.virtualAddress.toNat (segment.virtualAddress.toNat + shdr.shSize.toNat)

def placedRanges (image : ImageSectionObject) : List (Set Nat) :=
  List.zipWith placedRange image.segments (allocatedSections file)

structure LaidOut (image : ImageSectionObject) : Prop where
  all : image.segments.length = (allocatedSections file).length
  apart : (placedRanges file image).Pairwise fun a b => a ∩ b = ∅
  inside : ∀ range ∈ placedRanges file image, range ⊆ Set.Iio image.imageFileSize.toNat

end Specification

section Condition

def spanEnd (shdr : Elf32Shdr) : Nat := shdr.shOffset.toNat + shdr.shSize.toNat

/-- The bytes from a section's offset on, as many as its size, are not those of
the other section, where both have any. -/
def SpansApart (a b : Elf32Shdr) : Prop :=
  a.shSize = 0 ∨ b.shSize = 0 ∨ spanEnd a ≤ b.shOffset.toNat ∨ spanEnd b ≤ a.shOffset.toNat

instance (a b : Elf32Shdr) : Decidable (SpansApart a b) := inferInstanceAs (Decidable (_ ∨ _))

def wholePages (size : Nat) : Nat := (size + 4095) / 4096 * 4096

def shdrTableEnd (file : FileReader) : BitVec 32 :=
  (fileHeader file).eShoff + BitVec.ofNat 32 ((fileHeader file).eShnum.toNat * sizeofElf32Shdr)

/-- Sections whose end gives the file a length. -/
def Measured (shdr : Elf32Shdr) : Prop :=
  isFileBacked shdr ∧ shdr.shOffset + shdr.shSize < imageSizeLimit

instance (shdr : Elf32Shdr) : Decidable (Measured shdr) := inferInstanceAs (Decidable (_ ∧ _))

/-- A section ends in the last page of the section headers, or of a section
that has bytes in the file, or before it. -/
def Covered (file : FileReader) (shdr : Elf32Shdr) : Prop :=
  shdr.shSize = 0 ∨
    shdrTableEnd file ≤ 0xFFFFF000 ∧
      (spanEnd shdr ≤ wholePages (shdrTableEnd file).toNat ∨
        ∃ other ∈ fileSections file, Measured other ∧
          spanEnd shdr ≤ wholePages (other.shOffset + other.shSize).toNat)

instance (file : FileReader) (shdr : Elf32Shdr) : Decidable (Covered file shdr) :=
  inferInstanceAs (Decidable (_ ∨ _))

end Condition

section Sizes

theorem alignUpBy_page (size : BitVec 32) :
    (alignUpBy size imagePageSize).toNat =
      if size ≤ 0xFFFFF000 then wholePages size.toNat else 0 := by
  have shifted : alignUpBy size imagePageSize = ((size + imagePageSize - 1) >>> 12) <<< 12 :=
    Packed.and_highMask _ _ (by decide)
  rw [shifted, show size + imagePageSize - 1 = size + 4095 by rw [imagePageSize]; bv_omega,
    BitVec.toNat_shiftLeft, BitVec.toNat_ushiftRight, BitVec.toNat_add, Nat.shiftLeft_eq,
    Nat.shiftRight_eq_div_pow, show (4095 : BitVec 32).toNat = 4095 from rfl]
  have bound := size.isLt
  split
  · next small =>
      have small : size.toNat ≤ 0xFFFFF000 := small
      rw [wholePages]
      omega
  · next large =>
      have large : ¬ size.toNat ≤ 0xFFFFF000 := large
      omega

theorem le_wholePages (positive : 0 < length) :
    length ≤ wholePages size ↔ (length - 1) / 4096 * 4096 < size := by
  rw [wholePages]
  omega

theorem lt_raiseSectionEnd (highest : BitVec 32) (shdr : Elf32Shdr) (bound : Nat) :
    bound < (raiseSectionEnd highest shdr).toNat ↔
      bound < highest.toNat ∨ Measured shdr ∧ bound < (shdr.shOffset + shdr.shSize).toNat := by
  by_cases backed : isFileBacked shdr = true
  · by_cases small : shdr.shOffset + shdr.shSize < imageSizeLimit
    · by_cases higher : shdr.shOffset + shdr.shSize > highest
      · have above : highest.toNat < (shdr.shOffset + shdr.shSize).toNat := higher
        simp only [raiseSectionEnd, backed, small, higher, Measured, and_self, if_true, true_and]
        omega
      · have below : (shdr.shOffset + shdr.shSize).toNat ≤ highest.toNat := Nat.not_lt.mp higher
        simp only [raiseSectionEnd, backed, small, higher, Measured, false_and, if_false, if_true, true_and]
        omega
    · simp only [raiseSectionEnd, backed, small, Measured, and_false, if_false, if_true, false_and, or_false]
  · simp only [raiseSectionEnd, backed, Measured, if_false, Bool.false_eq_true, false_and, or_false]

theorem lt_maxSectionEndOffset (table : List Elf32Shdr) (bound : Nat) :
    bound < (maxSectionEndOffset table).toNat ↔
      ∃ shdr ∈ table, Measured shdr ∧ bound < (shdr.shOffset + shdr.shSize).toNat := by
  have from_any : ∀ start : BitVec 32, bound < (table.foldl raiseSectionEnd start).toNat ↔
      bound < start.toNat ∨
        ∃ shdr ∈ table, Measured shdr ∧ bound < (shdr.shOffset + shdr.shSize).toNat := by
    induction table with
    | nil => simp
    | cons shdr rest ih =>
      intro start
      rw [List.foldl_cons, ih, List.exists_mem_cons_iff, ← or_assoc, lt_raiseSectionEnd]
  rw [maxSectionEndOffset, from_any]
  exact or_iff_right (Nat.not_lt_zero bound)

end Sizes

section Accepted
variable {file : FileReader} {pool : PoolAnswers}

theorem readElfHeader_spec (read : readElfHeader file = .ok elfHeader) :
    elfHeader = fileHeader file := by
  rw [readElfHeader] at read
  cases bytes : miSimpleReadFile file 0 sizeofElf32Ehdr with
  | none => simp only [bytes, reduceCtorEq] at read
  | some bytes' =>
    rw [fileHeader, bytes, Option.getD_some]
    simp only [bytes] at read
    by_cases short : bytes'.length < sizeofElf32Ehdr
    · rw [if_pos short] at read
      cases read
    · rw [if_neg short] at read
      by_cases valid : rtlValidateElfHeader (Elf32Ehdr.ofBytes bytes') = true
      · rw [valid] at read
        cases read
        rfl
      · rw [Bool.eq_false_of_not_eq_true valid] at read
        cases read

/-- The end that the image of a relocatable file is sized by. -/
def highestEnd (file : FileReader) : BitVec 32 :=
  if shdrTableEnd file > maxSectionEndOffset (fileSections file) then
    shdrTableEnd file
  else
    maxSectionEndOffset (fileSections file)

theorem relocatableSegments_spec
    (found : relocatableSegments file pool (fileHeader file) = .ok (segments, nrSegments, imageSize))
    (sized : imageSize ≠ 0) :
    segments = (allocatedSections file).map sectionSegment ∧ imageSize = highestEnd file := by
  rw [relocatableSegments] at found
  by_cases table : pool.table = true
  · cases bytes : miSimpleReadFile file (fileHeader file).eShoff.toNat
        ((fileHeader file).eShnum.toNat * sizeofElf32Shdr) with
    | none =>
      simp only [table, bytes] at found
      cases found
    | some bytes' =>
      have same : tableOf Elf32Shdr.ofBytes sizeofElf32Shdr (fileHeader file).eShnum.toNat bytes' =
          fileSections file := by
        rw [fileSections, bytes, Option.getD_some]
      simp only [table, bytes, same] at found
      by_cases short : bytes'.length < (fileHeader file).eShnum.toNat * sizeofElf32Shdr
      · rw [if_pos short] at found
        cases found
      · rw [if_neg short] at found
        by_cases counted : countSegments isAllocated (fileSections file) > 0
        · rw [if_pos counted] at found
          by_cases given : pool.segments = true
          · rw [given] at found
            cases found
            exact ⟨rfl, rfl⟩
          · rw [Bool.eq_false_of_not_eq_true given] at found
            cases found
        · rw [if_neg counted] at found
          cases found
          exact absurd rfl sized
  · simp only [table] at found
    cases found

theorem relocatable_accepted (accepted : elfFmtCreateImageSection file pool = .ok image)
    (relocatable : (fileHeader file).eType = etRel) :
    image.segments = (allocatedSections file).map sectionSegment ∧
      image.imageFileSize = alignUpBy (highestEnd file) imagePageSize := by
  rw [elfFmtCreateImageSection] at accepted
  cases read : readElfHeader file with
  | error status =>
    rw [read] at accepted
    cases accepted
  | ok elfHeader =>
    obtain rfl := readElfHeader_spec read
    simp only [read, bind, Except.bind, if_pos relocatable] at accepted
    cases found : relocatableSegments file pool (fileHeader file) with
    | error status =>
      rw [found] at accepted
      cases accepted
    | ok layout =>
      obtain ⟨segments, nrSegments, imageSize⟩ := layout
      simp only [found] at accepted
      by_cases empty : imageSize = 0 ∨ nrSegments = 0
      · rw [if_pos empty] at accepted
        cases accepted
      · rw [if_neg empty] at accepted
        obtain ⟨segmentsEq, sizeEq⟩ :=
          relocatableSegments_spec found fun zero => empty (.inl zero)
        cases accepted
        exact ⟨segmentsEq, by rw [sizeEq]⟩

end Accepted

section Layout
variable {file : FileReader} {pool : PoolAnswers} {image : ImageSectionObject}

theorem placedRanges_eq (segments : image.segments = (allocatedSections file).map sectionSegment) :
    placedRanges file image =
      (allocatedSections file).map fun shdr => Set.Ico shdr.shOffset.toNat (spanEnd shdr) := by
  rw [placedRanges, segments, List.zipWith_map_left, List.zipWith_self]
  rfl

theorem disjointRanges_iff (a b : Elf32Shdr) :
    Set.Ico a.shOffset.toNat (spanEnd a) ∩ Set.Ico b.shOffset.toNat (spanEnd b) = ∅ ↔
      SpansApart a b := by
  have empty : ∀ shdr : Elf32Shdr, shdr.shSize = 0 ↔ shdr.shSize.toNat = 0 := fun shdr => by bv_omega
  rw [← Set.disjoint_iff_inter_eq_empty, Set.Ico_disjoint_Ico, SpansApart, empty, empty]
  simp only [spanEnd]
  omega

theorem lt_highestEnd (bound : Nat) :
    bound < (highestEnd file).toNat ↔ bound < (shdrTableEnd file).toNat ∨
      ∃ other ∈ fileSections file, Measured other ∧ bound < (other.shOffset + other.shSize).toNat := by
  rw [← lt_maxSectionEndOffset, highestEnd]
  by_cases higher : shdrTableEnd file > maxSectionEndOffset (fileSections file)
  · have above : (maxSectionEndOffset (fileSections file)).toNat < (shdrTableEnd file).toNat := higher
    rw [if_pos higher]
    omega
  · have below : (shdrTableEnd file).toNat ≤ (maxSectionEndOffset (fileSections file)).toNat :=
      Nat.not_lt.mp higher
    rw [if_neg higher]
    omega

theorem highestEnd_small : highestEnd file ≤ 0xFFFFF000 ↔ shdrTableEnd file ≤ 0xFFFFF000 := by
  have bounded : ∀ end' : BitVec 32, end' ≤ 0xFFFFF000 ↔ ¬ 0xFFFFF000 < end'.toNat := fun end' => by
    rw [Nat.not_lt]
    rfl
  rw [bounded, bounded, not_iff_not, lt_highestEnd]
  refine or_iff_left fun ⟨other, _, measured, above⟩ => ?_
  have small : (other.shOffset + other.shSize).toNat < 0x1000000 := measured.2
  omega

theorem inside_iff (imageSize : image.imageFileSize = alignUpBy (highestEnd file) imagePageSize)
    (shdr : Elf32Shdr) :
    Set.Ico shdr.shOffset.toNat (spanEnd shdr) ⊆ Set.Iio image.imageFileSize.toNat ↔ Covered file shdr := by
  rw [imageSize, alignUpBy_page, Covered]
  by_cases empty : shdr.shSize = 0
  · simp [empty, spanEnd]
  · have positive : shdr.shOffset.toNat < spanEnd shdr := by
      rw [spanEnd]
      bv_omega
    have reaches : ∀ size, Set.Ico shdr.shOffset.toNat (spanEnd shdr) ⊆ Set.Iio size ↔
        spanEnd shdr ≤ size := by
      intro size
      constructor
      · intro inside
        have last := inside (show spanEnd shdr - 1 ∈ Set.Ico shdr.shOffset.toNat (spanEnd shdr) from
          ⟨by omega, by omega⟩)
        exact Nat.le_of_pred_lt last
      · exact fun within address member => Nat.lt_of_lt_of_le member.2 within
    rw [reaches, or_iff_right empty, ← highestEnd_small]
    by_cases small : highestEnd file ≤ 0xFFFFF000
    · simp only [small, if_true, true_and, lt_highestEnd,
        le_wholePages (Nat.lt_of_le_of_lt (Nat.zero_le _) positive)]
    · rw [if_neg small]
      exact iff_of_false (by omega) fun ⟨low, _⟩ => small low

end Layout

/-- The allocated sections of a relocatable file have their own addresses, all
inside the image, exactly if the file numbers their bytes, those of `.bss`
included, apart and before its own end. -/
theorem relocatable_layout (accepted : elfFmtCreateImageSection file pool = .ok image)
    (relocatable : (fileHeader file).eType = etRel) :
    LaidOut file image ↔
      (allocatedSections file).Pairwise SpansApart ∧
        ∀ shdr ∈ allocatedSections file, Covered file shdr := by
  obtain ⟨segments, imageSize⟩ := relocatable_accepted accepted relocatable
  have ranges := placedRanges_eq segments
  have apart : ((placedRanges file image).Pairwise fun a b => a ∩ b = ∅) ↔
      (allocatedSections file).Pairwise SpansApart := by
    rw [ranges, List.pairwise_map]
    simp only [disjointRanges_iff]
  have inside : (∀ range ∈ placedRanges file image, range ⊆ Set.Iio image.imageFileSize.toNat) ↔
      ∀ shdr ∈ allocatedSections file, Covered file shdr := by
    rw [ranges, List.forall_mem_map]
    simp only [inside_iff imageSize]
  constructor
  · exact fun laidOut => ⟨apart.mp laidOut.apart, inside.mp laidOut.inside⟩
  · rintro ⟨spans, covered⟩
    exact ⟨by rw [segments, List.length_map], apart.mpr spans, inside.mpr covered⟩

section Samples

/-- A relocatable file whose section headers follow its header: the type, the
flags, the offset and the size of each. -/
def sampleElf (sections : List (Nat × Nat × Nat × Nat)) : List Byte :=
  elfMag ++ [1, 1, 1] ++ List.replicate 9 0 ++ littleEndian 2 1 ++ littleEndian 2 3 ++ littleEndian 4 1 ++
    littleEndian 4 0 ++ littleEndian 4 0 ++ littleEndian 4 52 ++ littleEndian 4 0 ++ littleEndian 2 52 ++
    littleEndian 2 0 ++ littleEndian 2 0 ++ littleEndian 2 40 ++ littleEndian 2 sections.length ++
    littleEndian 2 0 ++
    sections.flatMap fun (type, flags, offset, size) =>
      littleEndian 4 0 ++ littleEndian 4 type ++ littleEndian 4 flags ++ littleEndian 4 0 ++
        littleEndian 4 offset ++ littleEndian 4 size ++ List.replicate 16 0

def sampleReader (bytes : List Byte) : FileReader := fun offset length =>
  some ((bytes.drop offset).take length)

/-- `.text` and, after it, `.bss`. -/
def textThenBss : FileReader := sampleReader (sampleElf [(0, 0, 0, 0), (1, 6, 172, 12), (8, 3, 184, 64)])

/-- `.bss`, and `.rodata` at the same offset. -/
def bssThenRodata : FileReader := sampleReader (sampleElf [(0, 0, 0, 0), (8, 3, 172, 64), (1, 2, 172, 8)])

end Samples

theorem relocatable_layout_sample :
    ∃ image, elfFmtCreateImageSection textThenBss ⟨true, true⟩ = .ok image ∧ LaidOut textThenBss image := by
  have accepted : elfFmtCreateImageSection textThenBss ⟨true, true⟩ =
      .ok ⟨[⟨172, 172, 4096, 12, 0x20⟩, ⟨184, 184, 4096, 0, 4⟩], 2, 4096, 0, 3⟩ := by decide +kernel
  exact ⟨_, accepted, (relocatable_layout accepted (by decide +kernel)).mpr
    ⟨by decide +kernel, by decide +kernel⟩⟩

/-- `.bss` has no bytes in the file, and the section after it is placed over it. -/
theorem bss_overlaid :
    ∃ image, elfFmtCreateImageSection bssThenRodata ⟨true, true⟩ = .ok image ∧
      (fileHeader bssThenRodata).eType = etRel ∧ ¬ LaidOut bssThenRodata image := by
  refine ⟨⟨[⟨172, 172, 4096, 0, 4⟩, ⟨172, 172, 4096, 8, 2⟩], 2, 4096, 0, 3⟩, by decide +kernel, by decide +kernel, ?_⟩
  intro laidOut
  have apart := laidOut.apart
  rw [placedRanges_eq (by decide +kernel), List.pairwise_map] at apart
  simp only [disjointRanges_iff] at apart
  exact absurd apart (by decide +kernel)

end VeaOS.Elf

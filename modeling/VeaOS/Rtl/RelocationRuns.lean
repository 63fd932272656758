import VeaOS.Rtl.ElfRelocation

/-! What the relocation of an image leaves in memory. The image is well formed when its
sites share no byte with each other and with the tables that are read on the way. -/
namespace VeaOS.Elf
open Foundation Option

section Image
variable (m : Memory Unit) (header imageBase : BitVec 32)

def eShnum : BitVec 16 := m.read16 (address (header + 48))

def shdr (index : BitVec 32) : BitVec 32 :=
  header + m.read32 (address (header + 32)) + index * (m.read16 (address (header + 46))).setWidth 32

def shOffset (index : BitVec 32) : BitVec 32 := m.read32 (address (shdr m header index + 16))
def shSize (index : BitVec 32) : BitVec 32 := m.read32 (address (shdr m header index + 20))
def shLink (index : BitVec 32) : BitVec 32 := m.read32 (address (shdr m header index + 24))
def shInfo (index : BitVec 32) : BitVec 32 := m.read32 (address (shdr m header index + 28))

structure Entry where
  index : Nat
  number : Nat

namespace Entry
variable (e : Entry)

def relSection : BitVec 32 := BitVec.ofNat 32 e.index
def symSection : BitVec 32 := shLink m header e.relSection
def strSection : BitVec 32 := shLink m header (e.symSection m header)

def rel : BitVec 32 := header + shOffset m header e.relSection + BitVec.ofNat 32 e.number * 8
def rInfo : BitVec 32 := m.read32 (address (e.rel m header + 4))
def relType : BitVec 8 := (e.rInfo m header).setWidth 8

def sym : BitVec 32 := header + shOffset m header (e.symSection m header) + (e.rInfo m header >>> 8) * 16
def stShndx : BitVec 16 := m.read16 (address (e.sym m header + 14))
def stValue : BitVec 32 := m.read32 (address (e.sym m header + 4))

def name : BitVec 32 := header + shOffset m header (e.strSection m header) + m.read32 (address (e.sym m header))

def site : BitVec 32 :=
  imageBase + shOffset m header (shInfo m header e.relSection) + m.read32 (address (e.rel m header))

structure In : Prop where
  known : e.index < (eShnum m header).toNat
  rel : m.read32 (address (shdr m header e.relSection + 4)) = shtRel
  counted : e.number < (shSize m header e.relSection / 8).toNat

end Entry

/-- The `n` bytes from an address on. -/
def Covers (a : BitVec 32) (n x : Nat) : Prop := a.toNat ≤ x ∧ x < a.toNat + n

inductive InString : BitVec 32 → Nat → Prop where
  | here : InString a a.toNat
  | later (more : m () a.toNat ≠ 0) (rest : InString (a + 1) x) : InString a x

/-- The fields of the records that are read, with their offsets and sizes. -/
def headerFields : List (BitVec 32 × Nat) := [(16, 2), (32, 4), (46, 2), (48, 2)]
def shdrFields : List (BitVec 32 × Nat) := [(4, 4), (16, 4), (20, 4), (24, 4), (28, 4)]
def relFields : List (BitVec 32 × Nat) := [(0, 4), (4, 4)]
def symFields : List (BitVec 32 × Nat) := [(0, 4), (4, 4), (14, 2)]

/-- What is read on the way: the header, the section headers, the entries with their symbols,
and the names of the imported ones. -/
inductive TableByte (x : Nat) : Prop where
  | header (field : f ∈ headerFields) (covers : Covers (header + f.1) f.2 x)
  | shdr {index : BitVec 32} (known : index.toNat < (eShnum m header).toNat) (field : f ∈ shdrFields)
      (covers : Covers (shdr m header index + f.1) f.2 x)
  | rel {e : Entry} (known : e.In m header) (field : f ∈ relFields) (covers : Covers (e.rel m header + f.1) f.2 x)
  | sym {e : Entry} (known : e.In m header) (field : f ∈ symFields) (covers : Covers (e.sym m header + f.1) f.2 x)
  | name {e : Entry} (known : e.In m header) (imported : e.stShndx m header = shnUndef)
      (covers : InString m (e.name m header) x)

/-- A relocatable image whose tables and sites lie apart. -/
structure WellFormed : Prop where
  relocatable : m.read16 (address (header + 16)) = etRel
  distinct : ∀ e e' : Entry, e.In m header → e'.In m header → e ≠ e' → ∀ x,
    ¬ (Covers (e.site m header imageBase) 4 x ∧ Covers (e'.site m header imageBase) 4 x)
  apart : ∀ e : Entry, e.In m header → ∀ x, Covers (e.site m header imageBase) 4 x → ¬ TableByte m header x

end Image

/-- Where a symbol is loaded: the name of an imported one is resolved, the value of an absolute
one is its address, and another one lies in its section. -/
inductive LoadedAt (m : Memory Unit) (header imageBase : BitVec 32) (kernelResolver : Option (List Byte → BitVec 32))
    (e : Entry) : BitVec 32 → Prop where
  | imported {resolver name} (shndx : e.stShndx m header = shnUndef) (given : kernelResolver = some resolver)
      (read : ∃ fuel, cString (fun _ => true) m fuel (e.name m header) = some name) :
      LoadedAt m header imageBase kernelResolver e (resolver name)
  | absolute (shndx : e.stShndx m header = shnAbs) :
      LoadedAt m header imageBase kernelResolver e (e.stValue m header)
  | defined (known : e.stShndx m header < eShnum m header) (notUndef : e.stShndx m header ≠ shnUndef)
      (notAbs : e.stShndx m header ≠ shnAbs) : LoadedAt m header imageBase kernelResolver e
        (imageBase + shOffset m header ((e.stShndx m header).setWidth 32) + e.stValue m header)

/-- What a site holds after the relocation: S + A, or S + A - P. -/
def Patched (m m' : Memory Unit) (header imageBase : BitVec 32) (kernelResolver : Option (List Byte → BitVec 32))
    (e : Entry) : Prop :=
  ∃ s, LoadedAt m header imageBase kernelResolver e s ∧
    (e.relType m header = r38632 ∧
        m'.read32 (address (e.site m header imageBase)) = s + m.read32 (address (e.site m header imageBase)) ∨
      e.relType m header = r386Pc32 ∧
        m'.read32 (address (e.site m header imageBase)) =
          s + m.read32 (address (e.site m header imageBase)) - e.site m header imageBase)

theorem bind_some {x : Option α} {f : α → Option β} (done : x >>= f = some b) : ∃ a, x = some a ∧ f a = some b :=
  bind_eq_some_iff.mp done

section Reads
variable {m₀ m : Memory Unit} {inside : Nat → Bool} {header imageBase : BitVec 32}

theorem load16_some (done : load16 inside m a = some v) : v = m.read16 (address a) := by
  rw [load16] at done
  split at done
  · exact (some.inj done).symm
  · cases done

theorem load32_some (done : load32 inside m a = some v) : v = m.read32 (address a) := by
  rw [load32] at done
  split at done
  · exact (some.inj done).symm
  · cases done

theorem read16_same (same : ∀ x, Covers a 2 x → m () x = m₀ () x) : m.read16 (address a) = m₀.read16 (address a) :=
  Memory.read16_congr fun _ x spans => same x spans.2

theorem read32_same (same : ∀ x, Covers a 4 x → m () x = m₀ () x) : m.read32 (address a) = m₀.read32 (address a) :=
  Memory.read32_congr fun _ x spans => same x spans.2

def TablesKept (m₀ m : Memory Unit) (header : BitVec 32) : Prop :=
  ∀ x, TableByte m₀ header x → m () x = m₀ () x

section
variable (kept : TablesKept m₀ m header)
include kept

theorem TablesKept.header16 (field : (k, 2) ∈ headerFields)
    (done : load16 inside m (header + k) = some v) : v = m₀.read16 (address (header + k)) :=
  (load16_some done).trans (read16_same fun x covers => kept x (.header field covers))

theorem TablesKept.shdr32 (known : index.toNat < (eShnum m₀ header).toNat)
    (field : (k, 4) ∈ shdrFields) (done : load32 inside m (shdr m₀ header index + k) = some v) :
    v = m₀.read32 (address (shdr m₀ header index + k)) :=
  (load32_some done).trans (read32_same fun x covers => kept x (.shdr known field covers))

theorem TablesKept.rel32 {e : Entry} (known : e.In m₀ header)
    (field : (k, 4) ∈ relFields) (done : load32 inside m (e.rel m₀ header + k) = some v) :
    v = m₀.read32 (address (e.rel m₀ header + k)) :=
  (load32_some done).trans (read32_same fun x covers => kept x (.rel known field covers))

theorem TablesKept.sym32 {e : Entry} (known : e.In m₀ header)
    (field : (k, 4) ∈ symFields) (done : load32 inside m (e.sym m₀ header + k) = some v) :
    v = m₀.read32 (address (e.sym m₀ header + k)) :=
  (load32_some done).trans (read32_same fun x covers => kept x (.sym known field covers))

theorem TablesKept.sym16 {e : Entry} (known : e.In m₀ header)
    (field : (k, 2) ∈ symFields) (done : load16 inside m (e.sym m₀ header + k) = some v) :
    v = m₀.read16 (address (e.sym m₀ header + k)) :=
  (load16_some done).trans (read16_same fun x covers => kept x (.sym known field covers))

end

theorem cString_same (same : ∀ x, InString m₀ a x → m () x = m₀ () x) (done : cString inside m fuel a = some name) :
    cString (fun _ => true) m₀ fuel a = some name := by
  induction fuel generalizing a name with
  | zero => cases done
  | succ fuel ih =>
    rw [cString] at done ⊢
    split at done
    · rw [if_pos rfl, ← same _ .here]
      by_cases ends : m () a.toNat = 0
      · rw [if_pos ends] at done ⊢
        exact done
      · rw [if_neg ends] at done ⊢
        obtain ⟨rest, read, rfl⟩ := map_eq_some_iff.mp done
        have more : m₀ () a.toNat ≠ 0 := by rwa [← same _ .here]
        rw [ih (fun x covers => same x (.later more covers)) read, map_some]
    · cases done

theorem TablesKept.sectionHeader (kept : TablesKept m₀ m header)
    (done : sectionHeader inside header (header + m₀.read32 (address (header + 32))) m index = some a) :
    a = shdr m₀ header index := by
  rw [Elf.sectionHeader, bind_eq_bind, bind_eq_some_iff] at done
  obtain ⟨entsize, loaded, done⟩ := done
  obtain rfl := some.inj done
  rw [kept.header16 (by decide) loaded, shdr]

/-- The tables of a section are those of its entries. -/
structure TablesOf (m₀ : Memory Unit) (header imageBase : BitVec 32) (i : Nat) (tables : RelocTables) : Prop where
  target : tables.targetSectionBase = imageBase + shOffset m₀ header (shInfo m₀ header (BitVec.ofNat 32 i))
  symTable : tables.symTable = header + shOffset m₀ header (Entry.symSection m₀ header ⟨i, j⟩)
  strTabShdr : tables.strTabShdr = shdr m₀ header (Entry.strSection m₀ header ⟨i, j⟩)
  strTable : tables.strTable = header + shOffset m₀ header (Entry.strSection m₀ header ⟨i, j⟩)
  relTable : tables.relTable = header + shOffset m₀ header (BitVec.ofNat 32 i)
  relCount : tables.relCount = shSize m₀ header (BitVec.ofNat 32 i) / 8
  strKnown : (Entry.strSection m₀ header ⟨i, j⟩).toNat < (eShnum m₀ header).toNat

theorem tables_spec (kept : TablesKept m₀ m header) (relocatable : m₀.read16 (address (header + 16)) = etRel)
    (known : i < (eShnum m₀ header).toNat)
    (done : relocTables inside header imageBase (header + m₀.read32 (address (header + 32))) m
      (shdr m₀ header (BitVec.ofNat 32 i)) = some (.ok tables)) : TablesOf m₀ header imageBase i tables := by
  have bound := (eShnum m₀ header).isLt
  have index : (BitVec.ofNat 32 i).toNat < (eShnum m₀ header).toNat := by
    rw [BitVec.toNat_ofNat]
    omega
  rw [relocTables] at done
  obtain ⟨info, loadInfo, done⟩ := bind_some done
  obtain ⟨link, loadLink, done⟩ := bind_some done
  obtain ⟨shnum, loadShnum, done⟩ := bind_some done
  obtain rfl := kept.header16 (by decide) loadShnum
  obtain rfl := kept.shdr32 index (by decide) loadInfo
  obtain rfl := kept.shdr32 index (by decide) loadLink
  split at done
  · cases done
  · next valid =>
      rw [not_or, Nat.not_le, Nat.not_le] at valid
      obtain ⟨target, atTarget, done⟩ := bind_some done
      obtain rfl := kept.sectionHeader atTarget
      obtain ⟨eType, loadType, done⟩ := bind_some done
      obtain rfl := (kept.header16 (by decide) loadType).trans relocatable
      obtain ⟨targetOffset, loadTarget, done⟩ := bind_some done
      rw [if_pos rfl] at loadTarget
      obtain rfl := kept.shdr32 valid.1 (by decide) loadTarget
      obtain ⟨symTab, atSymTab, done⟩ := bind_some done
      obtain rfl := kept.sectionHeader atSymTab
      obtain ⟨strIndex, loadStrIndex, done⟩ := bind_some done
      obtain rfl := kept.shdr32 valid.2 (by decide) loadStrIndex
      split at done
      · cases done
      · next strKnown =>
          rw [Nat.not_le] at strKnown
          obtain ⟨strTab, atStrTab, done⟩ := bind_some done
          obtain rfl := kept.sectionHeader atStrTab
          obtain ⟨symOffset, loadSymOffset, done⟩ := bind_some done
          obtain rfl := kept.shdr32 valid.2 (by decide) loadSymOffset
          obtain ⟨strOffset, loadStrOffset, done⟩ := bind_some done
          obtain rfl := kept.shdr32 strKnown (by decide) loadStrOffset
          split at done
          · cases done
          · obtain ⟨relOffset, loadRelOffset, done⟩ := bind_some done
            obtain rfl := kept.shdr32 index (by decide) loadRelOffset
            obtain ⟨relSize, loadRelSize, done⟩ := bind_some done
            obtain rfl := kept.shdr32 index (by decide) loadRelSize
            obtain ⟨⟩ := Except.ok.inj (some.inj done)
            exact ⟨rfl, rfl, rfl, rfl, rfl, rfl, strKnown⟩

theorem TablesKept.rOffset (kept : TablesKept m₀ m header) {e : Entry} (known : e.In m₀ header)
    (done : load32 inside m (e.rel m₀ header) = some v) : v = m₀.read32 (address (e.rel m₀ header)) := by
  rw [← BitVec.add_zero (e.rel m₀ header)] at done ⊢
  exact kept.rel32 known (by decide) done

theorem TablesKept.stName (kept : TablesKept m₀ m header) {e : Entry} (known : e.In m₀ header)
    (done : load32 inside m (e.sym m₀ header) = some v) : v = m₀.read32 (address (e.sym m₀ header)) := by
  rw [← BitVec.add_zero (e.sym m₀ header)] at done ⊢
  exact kept.sym32 known (by decide) done

theorem symValue_spec (kept : TablesKept m₀ m header) (relocatable : m₀.read16 (address (header + 16)) = etRel)
    {e : Entry} (known : e.In m₀ header) (tables : TablesOf m₀ header imageBase e.index found)
    (done : symValue inside fuel header imageBase kernelResolver (header + m₀.read32 (address (header + 32))) m found
      (e.sym m₀ header) = some (.ok value)) : LoadedAt m₀ header imageBase kernelResolver e value := by
  rw [symValue] at done
  obtain ⟨shndx, loadShndx, done⟩ := bind_some done
  obtain rfl := kept.sym16 known (by decide) loadShndx
  split at done
  · next undef =>
      obtain ⟨stName, loadName, done⟩ := bind_some done
      obtain rfl := kept.stName known loadName
      obtain ⟨strSize, loadSize, done⟩ := bind_some done
      split at done
      · cases done
      · cases kernelResolver with
        | none => cases done
        | some resolver =>
          obtain ⟨name, read, done⟩ := bind_some done
          rw [tables.strTable] at read
          have same := cString_same (fun x covers => kept x (.name known undef covers)) read
          have result := some.inj done
          split at result
          · cases result
          · obtain rfl := Except.ok.inj result
            exact .imported undef rfl ⟨fuel, same⟩
  · next notUndef =>
      split at done
      · next abs =>
          obtain ⟨stValue, loadValue, done⟩ := bind_some done
          obtain rfl := kept.sym32 known (by decide) loadValue
          obtain rfl := Except.ok.inj (some.inj done)
          exact .absolute abs
      · next notAbs =>
          obtain ⟨shnum, loadShnum, done⟩ := bind_some done
          obtain rfl := kept.header16 (by decide) loadShnum
          split at done
          · cases done
          · next below =>
              rw [ge_iff_le, BitVec.not_le] at below
              obtain ⟨eType, loadType, done⟩ := bind_some done
              obtain rfl := (kept.header16 (by decide) loadType).trans relocatable
              rw [if_pos rfl] at done
              obtain ⟨symDef, atSymDef, done⟩ := bind_some done
              obtain rfl := kept.sectionHeader atSymDef
              obtain ⟨defOffset, loadOffset, done⟩ := bind_some done
              have defKnown : (((e.stShndx m₀ header).setWidth 32 : BitVec 32)).toNat < (eShnum m₀ header).toNat := by
                have small := (e.stShndx m₀ header).isLt
                rw [BitVec.toNat_setWidth, Nat.mod_eq_of_lt (by omega)]
                exact below
              obtain rfl := kept.shdr32 defKnown (by decide) loadOffset
              obtain ⟨stValue, loadValue, done⟩ := bind_some done
              obtain rfl := kept.sym32 known (by decide) loadValue
              obtain rfl := Except.ok.inj (some.inj done)
              exact .defined below notUndef notAbs

theorem symValue_error (done : symValue inside fuel header imageBase kernelResolver shdrBase m found sym =
    some (.error status)) : status ≠ .success := by
  rw [symValue] at done
  obtain ⟨shndx, _, done⟩ := bind_some done
  split at done
  · obtain ⟨_, _, done⟩ := bind_some done
    obtain ⟨_, _, done⟩ := bind_some done
    split at done
    · cases done
      decide
    · cases kernelResolver with
      | none => cases done; decide
      | some resolver =>
        obtain ⟨name, _, done⟩ := bind_some done
        have result := some.inj done
        split at result
        · cases result
          decide
        · cases result
  · split at done
    · obtain ⟨_, _, done⟩ := bind_some done
      cases done
    · obtain ⟨_, _, done⟩ := bind_some done
      split at done
      · cases done
        decide
      · obtain ⟨_, _, done⟩ := bind_some done
        split at done
        · obtain ⟨_, _, done⟩ := bind_some done
          obtain ⟨_, _, done⟩ := bind_some done
          obtain ⟨_, _, done⟩ := bind_some done
          cases done
        · obtain ⟨_, _, done⟩ := bind_some done
          cases done

theorem relocTables_error (done : relocTables inside header imageBase shdrBase m relShdr = some (.error status)) :
    status ≠ .success := by
  rw [relocTables] at done
  obtain ⟨_, _, done⟩ := bind_some done
  obtain ⟨_, _, done⟩ := bind_some done
  obtain ⟨_, _, done⟩ := bind_some done
  split at done
  · cases done
    decide
  · obtain ⟨_, _, done⟩ := bind_some done
    obtain ⟨_, _, done⟩ := bind_some done
    obtain ⟨_, _, done⟩ := bind_some done
    obtain ⟨_, _, done⟩ := bind_some done
    obtain ⟨_, _, done⟩ := bind_some done
    split at done
    · cases done
      decide
    · obtain ⟨_, _, done⟩ := bind_some done
      obtain ⟨_, _, done⟩ := bind_some done
      obtain ⟨_, _, done⟩ := bind_some done
      split at done
      · cases done
        decide
      · obtain ⟨_, _, done⟩ := bind_some done
        obtain ⟨_, _, done⟩ := bind_some done
        cases done

theorem applyRelocation_spec (kept : TablesKept m₀ m header)
    (relocatable : m₀.read16 (address (header + 16)) = etRel) {e : Entry} (known : e.In m₀ header)
    (tables : TablesOf m₀ header imageBase e.index found)
    (done : applyRelocation inside fuel header imageBase kernelResolver
      (header + m₀.read32 (address (header + 32))) found e.number m = some (m', .success)) :
    ∃ s, LoadedAt m₀ header imageBase kernelResolver e s ∧
      (e.relType m₀ header = r38632 ∧ m' = m.write32 (address (e.site m₀ header imageBase))
          (m.read32 (address (e.site m₀ header imageBase)) + s) ∨
        e.relType m₀ header = r386Pc32 ∧ m' = m.write32 (address (e.site m₀ header imageBase))
          (m.read32 (address (e.site m₀ header imageBase)) + (s - e.site m₀ header imageBase))) := by
  have rel : found.relTable + BitVec.ofNat 32 e.number * 8 = e.rel m₀ header := by
    rw [tables.relTable]
    rfl
  rw [applyRelocation] at done
  dsimp only at done
  rw [rel] at done
  obtain ⟨rInfo, loadInfo, done⟩ := bind_some done
  obtain rfl := kept.rel32 known (by decide) loadInfo
  have sym : found.symTable + (m₀.read32 (address (e.rel m₀ header + 4)) >>> 8) * 16 = e.sym m₀ header := by
    rw [tables.symTable]
    rfl
  obtain ⟨result, valued, done⟩ := bind_some done
  cases result with
  | error status =>
    obtain ⟨_, failed⟩ := Prod.mk.inj (some.inj done)
    exact absurd failed (symValue_error valued)
  | ok value =>
    rw [sym] at valued
    obtain ⟨rOffset, loadOffset, done⟩ := bind_some done
    obtain rfl := kept.rOffset known loadOffset
    rw [tables.target] at done
    refine ⟨value, symValue_spec kept relocatable known tables valued, ?_⟩
    split at done
    · cases done
    · split at done
      · next isWord =>
          obtain ⟨old, loadOld, done⟩ := bind_some done
          obtain rfl := load32_some loadOld
          obtain ⟨rfl, _⟩ := Prod.mk.inj (some.inj done)
          exact .inl ⟨isWord, rfl⟩
      · split at done
        · next isRelative =>
            obtain ⟨old, loadOld, done⟩ := bind_some done
            obtain rfl := load32_some loadOld
            obtain ⟨rfl, _⟩ := Prod.mk.inj (some.inj done)
            exact .inr ⟨isRelative, rfl⟩
        · cases done

end Reads

/-- The entries that are done are patched, the sites of the others and all other bytes as they were. -/
structure Progress (m₀ m : Memory Unit) (header imageBase : BitVec 32)
    (kernelResolver : Option (List Byte → BitVec 32)) (isDone : Entry → Prop) : Prop where
  frame : ∀ x, (∀ e : Entry, e.In m₀ header → ¬ Covers (e.site m₀ header imageBase) 4 x) → m () x = m₀ () x
  patched : ∀ e : Entry, e.In m₀ header → isDone e → Patched m₀ m header imageBase kernelResolver e
  waiting : ∀ e : Entry, e.In m₀ header → ¬ isDone e →
    m.read32 (address (e.site m₀ header imageBase)) = m₀.read32 (address (e.site m₀ header imageBase))

/-- The entries in front of an entry, in the order of the loops. -/
def Before (i j : Nat) (e : Entry) : Prop := e.index < i ∨ e.index = i ∧ e.number < j

section Runs
variable {m₀ m m' : Memory Unit} {inside : Nat → Bool} {header imageBase : BitVec 32}
  {kernelResolver : Option (List Byte → BitVec 32)} {isDone : Entry → Prop}

section
variable (progress : Progress m₀ m header imageBase kernelResolver isDone)
include progress

theorem Progress.tables (wellFormed : WellFormed m₀ header imageBase)
    : TablesKept m₀ m header := fun x byte =>
  progress.frame x fun e known covers => wellFormed.apart e known x covers byte

theorem Progress.congr (same : ∀ e : Entry, e.In m₀ header → (isDone' e ↔ isDone e)) :
    Progress m₀ m header imageBase kernelResolver isDone' :=
  ⟨progress.frame, fun e known isDone => progress.patched e known ((same e known).mp isDone),
    fun e known waits => progress.waiting e known (mt (same e known).mpr waits)⟩

theorem Progress.write (wellFormed : WellFormed m₀ header imageBase) {e : Entry} (known : e.In m₀ header)
    (waits : ¬ isDone e)
    (loaded : LoadedAt m₀ header imageBase kernelResolver e s)
    (kind : e.relType m₀ header = r38632 ∧
        v = m.read32 (address (e.site m₀ header imageBase)) + s ∨
      e.relType m₀ header = r386Pc32 ∧
        v = m.read32 (address (e.site m₀ header imageBase)) + (s - e.site m₀ header imageBase)) :
    Progress m₀ (m.write32 (address (e.site m₀ header imageBase)) v) header imageBase kernelResolver
      fun e' => isDone e' ∨ e' = e := by
  have off : ∀ x, ¬ Covers (e.site m₀ header imageBase) 4 x →
      m.write32 (address (e.site m₀ header imageBase)) v () x = m () x :=
    fun x outside => Memory.write32_outside fun spans => outside spans.2
  have others : ∀ e' : Entry, e'.In m₀ header → e' ≠ e →
      (m.write32 (address (e.site m₀ header imageBase)) v).read32 (address (e'.site m₀ header imageBase)) =
        m.read32 (address (e'.site m₀ header imageBase)) := fun e' known' other =>
    read32_same fun x covers => off x fun both => wellFormed.distinct e' e known' known other x ⟨covers, both⟩
  refine ⟨fun x outside => (off x (outside e known)).trans (progress.frame x outside), fun e' known' isDone' => ?_,
    fun e' known' waits' => ?_⟩
  · by_cases same : e' = e
    · subst e'
      refine ⟨s, loaded, ?_⟩
      rw [Memory.read32_write32]
      rw [progress.waiting e known waits] at kind
      rcases kind with ⟨word, rfl⟩ | ⟨relative, rfl⟩
      · exact .inl ⟨word, BitVec.add_comm _ _⟩
      · refine .inr ⟨relative, ?_⟩
        rw [BitVec.add_comm, BitVec.sub_eq_add_neg, BitVec.sub_eq_add_neg, BitVec.add_assoc, BitVec.add_assoc,
          BitVec.add_comm (- _)]
    · obtain ⟨s', loaded', kind'⟩ := progress.patched e' known' (isDone'.resolve_right same)
      exact ⟨s', loaded', by rwa [others e' known' same]⟩
  · rw [not_or] at waits'
    rw [others e' known' waits'.2]
    exact progress.waiting e' known' waits'.1

theorem Progress.entry (wellFormed : WellFormed m₀ header imageBase) {e : Entry} (known : e.In m₀ header)
    (waits : ¬ isDone e)
    (tables : TablesOf m₀ header imageBase e.index found)
    (done : applyRelocation inside fuel header imageBase kernelResolver
      (header + m₀.read32 (address (header + 32))) found e.number m = some (m', .success)) :
    Progress m₀ m' header imageBase kernelResolver fun e' => isDone e' ∨ e' = e := by
  obtain ⟨s, loaded, kind⟩ := applyRelocation_spec (progress.tables wellFormed) wellFormed.relocatable known tables done
  rcases kind with ⟨word, rfl⟩ | ⟨relative, rfl⟩
  · exact progress.write wellFormed known waits loaded (.inl ⟨word, rfl⟩)
  · exact progress.write wellFormed known waits loaded (.inr ⟨relative, rfl⟩)

end

theorem before_succ {e : Entry} : Before i (j + 1) e ↔ Before i j e ∨ e = ⟨i, j⟩ := by
  obtain ⟨index, number⟩ := e
  simp only [Before, Entry.mk.injEq]
  omega

theorem Progress.entries (wellFormed : WellFormed m₀ header imageBase)
    (tables : TablesOf m₀ header imageBase i found) (known : i < (eShnum m₀ header).toNat)
    (rel : m₀.read32 (address (shdr m₀ header (BitVec.ofNat 32 i) + 4)) = shtRel)
    (progress : Progress m₀ m header imageBase kernelResolver (Before i j))
    (left : j + n = (shSize m₀ header (BitVec.ofNat 32 i) / 8).toNat)
    (done : untilFailure (applyRelocation inside fuel header imageBase kernelResolver
      (header + m₀.read32 (address (header + 32))) found) (List.range' j n) m = some (m', .success)) :
    Progress m₀ m' header imageBase kernelResolver (Before i (j + n)) := by
  induction n generalizing j m with
  | zero =>
    obtain ⟨rfl, _⟩ := Prod.mk.inj (some.inj done)
    exact progress
  | succ n ih =>
    rw [List.range'_succ, untilFailure] at done
    obtain ⟨⟨m₁, status⟩, stepped, done⟩ := bind_some done
    dsimp only at done
    split at done
    · next succeeded =>
        subst succeeded
        have counted : j < (shSize m₀ header (BitVec.ofNat 32 i) / 8).toNat := by omega
        have current : Entry.In m₀ header ⟨i, j⟩ := ⟨known, rel, counted⟩
        have waits : ¬ Before i j ⟨i, j⟩ := by
          rintro (less | ⟨_, less⟩)
          · exact Nat.lt_irrefl i less
          · exact Nat.lt_irrefl j less
        have next := ih ((progress.entry wellFormed current waits tables stepped).congr fun e _ => before_succ)
          (by omega) done
        rwa [Nat.add_assoc, Nat.add_comm 1 n] at next
    · next failed =>
        obtain ⟨_, same⟩ := Prod.mk.inj (some.inj done)
        exact absurd same failed

theorem Progress.relocSection (wellFormed : WellFormed m₀ header imageBase)
    (progress : Progress m₀ m header imageBase kernelResolver (Before i 0)) (known : i < (eShnum m₀ header).toNat)
    (done : applySection inside fuel header imageBase kernelResolver
      (header + m₀.read32 (address (header + 32))) i m = some (m', .success)) :
    Progress m₀ m' header imageBase kernelResolver (Before (i + 1) 0) := by
  have kept := progress.tables wellFormed
  have bound := (eShnum m₀ header).isLt
  have index : (BitVec.ofNat 32 i).toNat < (eShnum m₀ header).toNat := by
    rw [BitVec.toNat_ofNat]
    omega
  rw [applySection] at done
  obtain ⟨relShdr, atRel, done⟩ := bind_some done
  obtain rfl := kept.sectionHeader atRel
  obtain ⟨shType, loadType, done⟩ := bind_some done
  obtain rfl := kept.shdr32 index (by decide) loadType
  split at done
  · next other =>
      -- no entry belongs to a section of another type
      obtain ⟨rfl, _⟩ := Prod.mk.inj (some.inj done)
      refine progress.congr fun e inImage => ?_
      have elsewhere : e.index ≠ i := by
        rintro rfl
        exact other inImage.rel
      simp only [Before]
      omega
  · next rel =>
      rw [ne_eq, not_not] at rel
      obtain ⟨result, found, done⟩ := bind_some done
      cases result with
      | error status =>
        obtain ⟨_, failed⟩ := Prod.mk.inj (some.inj done)
        exact absurd failed (relocTables_error found)
      | ok tables =>
        have tablesOf := tables_spec kept wellFormed.relocatable known found
        dsimp only at done
        rw [List.range_eq_range', tablesOf.relCount] at done
        refine (progress.entries wellFormed tablesOf known rel (Nat.zero_add _) done).congr fun e inImage => ?_
        have counted := inImage.counted
        by_cases here : e.index = i
        · subst here
          rw [Nat.zero_add]
          exact iff_of_true (.inl (Nat.lt_succ_self _)) (.inr ⟨rfl, counted⟩)
        · simp only [Before]
          omega

theorem Progress.sections (wellFormed : WellFormed m₀ header imageBase)
    (progress : Progress m₀ m header imageBase kernelResolver (Before i 0))
    (done : applySections inside fuel header imageBase kernelResolver
      (header + m₀.read32 (address (header + 32))) steps i m = some (m', .success)) :
    Progress m₀ m' header imageBase kernelResolver fun _ => True := by
  induction steps generalizing i m with
  | zero => cases done
  | succ steps ih =>
    rw [applySections] at done
    obtain ⟨shnum, loadShnum, done⟩ := bind_some done
    obtain rfl := (progress.tables wellFormed).header16 (by decide) loadShnum
    split at done
    · next known =>
        obtain ⟨⟨m₁, status⟩, stepped, done⟩ := bind_some done
        dsimp only at done
        split at done
        · next succeeded =>
            subst succeeded
            exact ih (progress.relocSection wellFormed known stepped) done
        · next failed =>
            obtain ⟨_, same⟩ := Prod.mk.inj (some.inj done)
            exact absurd same failed
    · next past =>
        obtain ⟨rfl, _⟩ := Prod.mk.inj (some.inj done)
        refine progress.congr fun e inImage => iff_of_true trivial (.inl ?_)
        exact Nat.lt_of_lt_of_le inImage.known (Nat.not_lt.mp past)

/-- Once the relocation of a well-formed image succeeds, every site holds what its entry asks
for, and the other bytes are as they were. -/
theorem relocation_result (wellFormed : WellFormed m header imageBase)
    (done : rtlApplyElfRelocations inside fuel header imageBase kernelResolver m = some (m', .success)) :
    (∀ e : Entry, e.In m header → Patched m m' header imageBase kernelResolver e) ∧
      ∀ x, (∀ e : Entry, e.In m header → ¬ Covers (e.site m header imageBase) 4 x) → m' () x = m () x := by
  rw [rtlApplyElfRelocations] at done
  split at done
  · cases done
  · obtain ⟨shoff, loadShoff, done⟩ := bind_some done
    obtain rfl := load32_some loadShoff
    have start : Progress m m header imageBase kernelResolver (Before 0 0) :=
      ⟨fun _ _ => rfl, fun e _ before => absurd before (by simp [Before]), fun _ _ _ => rfl⟩
    have progress := start.sections wellFormed done
    exact ⟨fun e known => progress.patched e known trivial, progress.frame⟩

end Runs

section Sample

def sampleHeader : List Byte :=
  elfMag ++ List.replicate 12 0 ++ littleEndian 2 1 ++ littleEndian 2 3 ++ littleEndian 4 1 ++ littleEndian 4 0 ++
    littleEndian 4 0 ++ littleEndian 4 52 ++ littleEndian 4 0 ++ littleEndian 2 52 ++ littleEndian 2 0 ++
    littleEndian 2 0 ++ littleEndian 2 40 ++ littleEndian 2 5 ++ littleEndian 2 0

def sampleShdr (type offset size link info : Nat) : List Byte :=
  [0, type, 0, 0, offset, size, link, info, 1, 0].flatMap (littleEndian 4)

def sampleSym (name value shndx : Nat) : List Byte :=
  littleEndian 4 name ++ littleEndian 4 value ++ littleEndian 4 0 ++ [0, 0] ++ littleEndian 2 shndx

/-- Two words of code, of which the first asks for the imported `f` and the second for the distance
to the second word. -/
def sampleBytes : List Byte :=
  sampleHeader ++ sampleShdr 0 0 0 0 0 ++ sampleShdr 1 252 8 0 0 ++ sampleShdr 2 260 48 3 0 ++
    sampleShdr 3 308 4 0 0 ++ sampleShdr 9 312 16 2 1 ++ littleEndian 4 16 ++ littleEndian 4 32 ++
    sampleSym 0 0 0 ++ sampleSym 1 0 0 ++ sampleSym 0 4 1 ++ [0, 0x66, 0, 0] ++
    littleEndian 4 0 ++ littleEndian 4 0x101 ++ littleEndian 4 4 ++ littleEndian 4 0x202

def sampleMemory : Memory Unit := fun _ x => sampleBytes.getD (x - 0xC0000000) 0

def sampleResolver (name : List Byte) : BitVec 32 := if name = [0x66] then 0xC0100000 else 0

theorem sample_succeeds : (rtlApplyElfRelocations (fun _ => true) 8 0xC0000000 0xC0000000 (some sampleResolver)
    sampleMemory).map Prod.snd = some .success := by decide +kernel

theorem sample_shnum : (eShnum sampleMemory 0xC0000000).toNat = 5 := by decide +kernel

theorem sample_entry {e : Entry} (known : e.In sampleMemory 0xC0000000) : e = ⟨4, 0⟩ ∨ e = ⟨4, 1⟩ := by
  obtain ⟨index, number⟩ := e
  obtain ⟨known, rel, counted⟩ := known
  rw [sample_shnum] at known
  have onlyLast : ∀ i : Fin 5, sampleMemory.read32 (address
      (shdr sampleMemory 0xC0000000 (BitVec.ofNat 32 i.val) + 4)) = shtRel → i.val = 4 := by decide +kernel
  obtain rfl : index = 4 := onlyLast ⟨index, known⟩ rel
  have two : (shSize sampleMemory 0xC0000000 4 / 8).toNat = 2 := by decide +kernel
  have few : number < 2 := two ▸ counted
  simp only [Entry.mk.injEq, true_and]
  omega

theorem sample_site : Entry.site sampleMemory 0xC0000000 0xC0000000 ⟨4, 0⟩ = 0xC00000FC ∧
    Entry.site sampleMemory 0xC0000000 0xC0000000 ⟨4, 1⟩ = 0xC0000100 := by decide +kernel

theorem sample_tables (byte : TableByte sampleMemory 0xC0000000 x) : x < 0xC00000FC ∨ 0xC0000104 ≤ x := by
  cases byte with
  | @header f field covers =>
    have below : ∀ f ∈ headerFields, ((0xC0000000 : BitVec 32) + f.1).toNat + f.2 ≤ 0xC00000FC := by
      decide +kernel
    exact .inl (covers.2.trans_le (below f field))
  | @shdr f index known field covers =>
    have below : ∀ i : Fin 5, ∀ f ∈ shdrFields,
        (shdr sampleMemory 0xC0000000 (BitVec.ofNat 32 i.val) + f.1).toNat + f.2 ≤ 0xC00000FC := by
      decide +kernel
    rw [sample_shnum] at known
    have here := below ⟨index.toNat, known⟩ f field
    rw [BitVec.ofNat_toNat, BitVec.setWidth_eq] at here
    exact .inl (covers.2.trans_le here)
  | @rel f e known field covers =>
    have above : ∀ j : Fin 2, ∀ f ∈ relFields,
        0xC0000104 ≤ (Entry.rel sampleMemory 0xC0000000 ⟨4, j.val⟩ + f.1).toNat := by decide +kernel
    rcases sample_entry known with rfl | rfl
    · exact .inr ((above 0 f field).trans covers.1)
    · exact .inr ((above 1 f field).trans covers.1)
  | @sym f e known field covers =>
    have above : ∀ j : Fin 2, ∀ f ∈ symFields,
        0xC0000104 ≤ (Entry.sym sampleMemory 0xC0000000 ⟨4, j.val⟩ + f.1).toNat := by decide +kernel
    rcases sample_entry known with rfl | rfl
    · exact .inr ((above 0 f field).trans covers.1)
    · exact .inr ((above 1 f field).trans covers.1)
  | @name e known imported covers =>
    have start : Entry.name sampleMemory 0xC0000000 ⟨4, 0⟩ = 0xC0000135 := by decide +kernel
    have ended : sampleMemory () (0xC0000135 + 1 : BitVec 32).toNat = 0 := by decide +kernel
    have second : Entry.stShndx sampleMemory 0xC0000000 ⟨4, 1⟩ ≠ shnUndef := by decide +kernel
    rcases sample_entry known with rfl | rfl
    · rw [start] at covers
      cases covers with
      | here => exact .inr (by decide)
      | later _ rest =>
        cases rest with
        | here => exact .inr (by decide)
        | later more _ => exact absurd ended more
    · exact absurd imported second

theorem sample_wellFormed : WellFormed sampleMemory 0xC0000000 0xC0000000 where
  relocatable := by decide +kernel
  distinct e e' known known' different x both := by
    obtain ⟨first, second⟩ := both
    rcases sample_entry known with rfl | rfl <;> rcases sample_entry known' with rfl | rfl
    · exact different rfl
    · rw [sample_site.1] at first
      rw [sample_site.2] at second
      exact absurd (first.2.trans_le (by decide)) (Nat.not_lt.mpr second.1)
    · rw [sample_site.2] at first
      rw [sample_site.1] at second
      exact absurd (second.2.trans_le (by decide)) (Nat.not_lt.mpr first.1)
    · exact different rfl
  apart e known x covers byte := by
    rcases sample_entry known with rfl | rfl
    · rw [sample_site.1] at covers
      rcases sample_tables byte with below | above
      · exact Nat.not_lt.mpr covers.1 below
      · exact absurd (covers.2.trans_le (by decide)) (Nat.not_lt.mpr above)
    · rw [sample_site.2] at covers
      rcases sample_tables byte with below | above
      · exact absurd (below.trans_le (by decide)) (Nat.not_lt.mpr covers.1)
      · exact absurd (covers.2.trans_le (by decide)) (Nat.not_lt.mpr above)

theorem relocation_result_sample : ∃ m',
    rtlApplyElfRelocations (fun _ => true) 8 0xC0000000 0xC0000000 (some sampleResolver) sampleMemory =
        some (m', .success) ∧
      (∀ e : Entry, e.In sampleMemory 0xC0000000 →
        Patched sampleMemory m' 0xC0000000 0xC0000000 (some sampleResolver) e) ∧
      ∀ x, (∀ e : Entry, e.In sampleMemory 0xC0000000 →
        ¬ Covers (e.site sampleMemory 0xC0000000 0xC0000000) 4 x) → m' () x = sampleMemory () x := by
  obtain ⟨⟨m', status⟩, done, rfl⟩ := map_eq_some_iff.mp sample_succeeds
  exact ⟨m', done, relocation_result sample_wellFormed done⟩

end Sample

end VeaOS.Elf

import VeaOS.Mm.FrameSupply
import VeaOS.Mm.VadRuns

/-! The database of physical pages as it is set up from the memory map of the firmware.
Byte ranges of 64 bits become frames by rounding down, and the database itself lies in
the first usable range that has room for it. -/
namespace VeaOS.Mm
open Foundation DoubleList List PipDatabase Option

/-- Type 1 is usable memory; the other types are not told apart. -/
structure MemoryDescriptor where
  baseAddress : BitVec 64
  length : BitVec 64
  type : BitVec 32
  deriving DecidableEq

namespace MemoryDescriptor

def Usable (d : MemoryDescriptor) : Prop := d.type = 1

instance (d : MemoryDescriptor) : Decidable d.Usable := inferInstanceAs (Decidable (_ = _))

def endAddr (d : MemoryDescriptor) : BitVec 32 := (d.baseAddress + d.length).setWidth 32

def Holds (d : MemoryDescriptor) (a : Nat) : Prop :=
  d.baseAddress.toNat ≤ a ∧ a < d.baseAddress.toNat + d.length.toNat

/-- The page lies in the range as a whole. -/
def Covers (d : MemoryDescriptor) (i : Nat) : Prop := ∀ a, i * 4096 ≤ a → a < (i + 1) * 4096 → d.Holds a

/-- The pages that are counted from the one in which the range starts. -/
def Counts (d : MemoryDescriptor) (i : Nat) : Prop :=
  d.baseAddress.toNat / 4096 ≤ i ∧ i < d.baseAddress.toNat / 4096 + d.length.toNat / 4096

end MemoryDescriptor

/-- Where a database would lie in a range: its start, the end of the range, and the end of
the database with its page tables. -/
structure Placement where
  usableStart : BitVec 32
  blockEnd : BitVec 32
  reservedEnd : BitVec 32
  deriving DecidableEq

def Placement.HasRoom (p : Placement) : Prop := ¬ (p.blockEnd ≤ p.usableStart ∨ p.blockEnd < p.reservedEnd)

instance (p : Placement) : Decidable p.HasRoom := inferInstanceAs (Decidable (¬ _))

section Model

/-- The end of the kernel and the entries of the page directory that are present. -/
structure BootLayout where
  kernelPhysEnd : BitVec 32
  present : Nat → Bool

def highestAddress (mmap : List MemoryDescriptor) : BitVec 32 :=
  mmap.foldl (fun highest d => if d.Usable ∧ d.endAddr > highest then d.endAddr else highest) 0

def databaseSize (mmap : List MemoryDescriptor) : BitVec 32 := highestAddress mmap / 4096 * 22

def pageTablePages (present : Nat → Bool) (firstPde lastPde : Nat) : Nat :=
  ((List.range' firstPde (lastPde + 1 - firstPde)).filter fun pde => !present pde).length

def candidate (layout : BootLayout) (size : BitVec 32) (d : MemoryDescriptor) : Placement :=
  let usableStart : BitVec 32 := d.baseAddress.setWidth 32
  let usableStart := if usableStart < layout.kernelPhysEnd then layout.kernelPhysEnd else usableStart
  let usableStart := pageRoundUp usableStart
  let candidateVa := usableStart + 0xC0000000
  let candidateVaEnd := candidateVa + size
  let tables := pageTablePages layout.present (candidateVa >>> 22).toNat ((candidateVaEnd - 1) >>> 22).toNat
  ⟨usableStart, d.endAddr, usableStart + pageRoundUp size + BitVec.ofNat 32 tables * 4096⟩

/-- The range in which the database is placed loses what lies below the end of the database. -/
def placeDatabase (layout : BootLayout) (size : BitVec 32) :
    List MemoryDescriptor → Option (Placement × List MemoryDescriptor)
  | [] => none
  | d :: rest =>
    let place := candidate layout size d
    if d.Usable ∧ place.HasRoom then
      some (place, { d with
        baseAddress := place.reservedEnd.setWidth 64
        length := (place.blockEnd - place.reservedEnd).setWidth 64 } :: rest)
    else (placeDatabase layout size rest).map fun (place, rest) => (place, d :: rest)

/-- The loop over the pages of the database, from `va` on. It fails where no page is left
for a page table. -/
def mmMapPip (virtualEnd pageTableEnd : BitVec 32) :
    Nat → (Nat → Bool) → BitVec 32 → BitVec 32 → Option Bool
  | 0, _, _, _ => none
  | fuel + 1, present, pageTableNext, va =>
    if va < virtualEnd then
      if present (va >>> 22).toNat then mmMapPip virtualEnd pageTableEnd fuel present pageTableNext (va + 4096)
      else if pageTableNext ≥ pageTableEnd then some false
      else mmMapPip virtualEnd pageTableEnd fuel (Function.update present (va >>> 22).toNat true)
        (pageTableNext + 4096) (va + 4096)
    else some true

def PipDatabase.setState (db : PipDatabase) (index : Nat) (state : PipState) : PipDatabase :=
  db.setPip index { db.pip index with state }

def reservedPip : Pip := ⟨none, none, 0, 0, .reserved⟩

def reserveAll (total : Nat) (db : PipDatabase) : PipDatabase :=
  (List.range total).foldl (fun db i => db.setPip i reservedPip) db

def freeRange (total : Nat) (db : PipDatabase) (d : MemoryDescriptor) : PipDatabase :=
  if d.Usable then
    let startPage : BitVec 32 := (d.baseAddress / 4096).setWidth 32
    let pageCount : BitVec 32 := (d.length / 4096).setWidth 32
    (List.range pageCount.toNat).foldl (fun db j =>
      let currentIndex := (startPage + BitVec.ofNat 32 j).toNat
      if currentIndex < total then db.setState currentIndex .free else db) db
  else db

def reserveLow (db : PipDatabase) : PipDatabase :=
  (List.range 256).foldl (fun db i => db.setState i .reserved) db

def reserveKernel (total : Nat) (db : PipDatabase) : PipDatabase :=
  (List.range' 4096 12800).foldl (fun db i => if i < total then db.setState i .reserved else db) db

/-- One step of the loop that links the free frames, with the last one of them. -/
def linkFree (linked : PipDatabase × Option Nat) (i : Nat) : PipDatabase × Option Nat :=
  let (db, lastFreeIndex) := linked
  if (db.pip i).state = .free then
    match db.mmFirstFreePip, lastFreeIndex with
    | some _, some last => ((db.setFlink last (some i)).setBlink i (some last), some i)
    | some _, none => (db.setBlink i none, some i)
    | none, _ => ({ db with mmFirstFreePip := some i }.setBlink i none, some i)
  else linked

def linkAll (total : Nat) (db : PipDatabase) : PipDatabase :=
  let (db, lastFreeIndex) := (List.range total).foldl linkFree (db, none)
  match lastFreeIndex with
  | some last => db.setFlink last none
  | none => db

/-- The database of a memory map, where the range of the database is cut already. -/
def fillDatabase (total : Nat) (mmap : List MemoryDescriptor) (memory : Nat → Pip) : PipDatabase :=
  linkAll total (reserveKernel total (reserveLow (mmap.foldl (freeRange total)
    (reserveAll total ⟨memory, none, none⟩))))

/-- The result is `none` where the fuel ends, and no database where the system cannot have one.
The database holds what its memory held before. -/
def mmInitializePip (fuel : Nat) (layout : BootLayout) (mmap : List MemoryDescriptor) (memory : Nat → Pip) :
    Option (Option (PipDatabase × Placement)) :=
  let size := databaseSize mmap
  match placeDatabase layout size mmap with
  | none => some none
  | some (place, mmap') =>
    if place.usableStart = 0 then some none
    else do
      let virtualStart := place.usableStart + 0xC0000000
      let mapped ← mmMapPip (virtualStart + size) place.reservedEnd fuel layout.present
        (place.usableStart + pageRoundUp size) virtualStart
      return if mapped then
        some (fillDatabase (mmTotalPages (highestAddress mmap)) mmap' memory, place) else none

end Model

/-- The frame lies in a usable range and outside what is excluded. -/
structure FrameSound (mmap : List MemoryDescriptor) (place : Placement) (i : Nat) : Prop where
  usable : ∃ d ∈ mmap, d.Usable ∧ d.Covers i
  others : ∀ d ∈ mmap, ¬ d.Usable → ∀ a, i * 4096 ≤ a → a < (i + 1) * 4096 → ¬ d.Holds a
  low : 0x100000 ≤ i * 4096
  kernel : (i + 1) * 4096 ≤ 0x1000000 ∨ 0x1000000 + 50 * 0x100000 ≤ i * 4096
  database : (i + 1) * 4096 ≤ place.usableStart.toNat ∨ place.reservedEnd.toNat ≤ i * 4096

/-- The links of the entries hold a list of sound frames, each once. -/
def FreeListSound (mmap : List MemoryDescriptor) (place : Placement) (db : PipDatabase) : Prop :=
  ∃ xs, DoubleList.Linked db.freeLinks xs ∧ ∀ i ∈ xs, FrameSound mmap place i

/-- The first usable range that passes the test for room. -/
def databaseIndex (layout : BootLayout) (mmap : List MemoryDescriptor) : Option Nat :=
  mmap.findIdx? fun d => decide (d.Usable ∧ (candidate layout (databaseSize mmap) d).HasRoom)

/-- The frame is in the database, and neither in the first megabyte nor kept for the kernel. -/
def Spare (mmap : List MemoryDescriptor) (i : Nat) : Prop :=
  i < mmTotalPages (highestAddress mmap) ∧ 256 ≤ i ∧ ¬ (4096 ≤ i ∧ i < 16896)

/-- No spare page of a usable range has a byte of a range that is not, or belongs to the
database in another range, page numbers of usable ranges have 32 bits, and the range that
passes the test for room has it. -/
structure MapFits (layout : BootLayout) (mmap : List MemoryDescriptor) : Prop where
  apart : ∀ d ∈ mmap, ∀ e ∈ mmap, d.Usable → ¬ e.Usable → ∀ i, Spare mmap i → d.Covers i →
    ∀ a, i * 4096 ≤ a → a < (i + 1) * 4096 → ¬ e.Holds a
  high : ∀ d ∈ mmap, d.Usable → d.baseAddress.toNat + d.length.toNat < 0x100000000000
  room : ∀ {k d}, databaseIndex layout mmap = some k → mmap[k]? = some d →
    d.baseAddress.toNat + d.length.toNat ≤ 0x100000000 ∧
      (candidate layout (databaseSize mmap) d).usableStart ≤ (candidate layout (databaseSize mmap) d).reservedEnd
  database : ∀ {j k d e}, databaseIndex layout mmap = some k → mmap[k]? = some d → mmap[j]? = some e → j ≠ k →
    e.Usable → ∀ i, Spare mmap i → e.Counts i →
      (i + 1) * 4096 ≤ (candidate layout (databaseSize mmap) d).usableStart.toNat ∨
        (candidate layout (databaseSize mmap) d).reservedEnd.toNat ≤ i * 4096

/-- A usable range that starts within a page is too short for a page, or that page is not
spare, or lies in another usable range. -/
def WholePages (layout : BootLayout) (mmap : List MemoryDescriptor) : Prop :=
  ∀ j d, mmap[j]? = some d → d.Usable → databaseIndex layout mmap ≠ some j →
    d.baseAddress.toNat % 4096 = 0 ∨ d.length.toNat < 4096 ∨ ¬ Spare mmap (d.baseAddress.toNat / 4096) ∨
      ∃ e ∈ mmap, e.Usable ∧ e.Covers (d.baseAddress.toNat / 4096)

section Linking
variable {db db' : PipDatabase} {total : Nat}

theorem state_foldl {ι : Type} {step : PipDatabase → ι → PipDatabase} (hits : ι → Nat → Prop) (s : PipState)
    (one : ∀ db j x, (hits j x → ((step db j).pip x).state = s) ∧
      (¬ hits j x → ((step db j).pip x).state = (db.pip x).state)) (l : List ι) (db : PipDatabase) (x : Nat) :
    ((∃ j ∈ l, hits j x) → ((l.foldl step db).pip x).state = s) ∧
      ((∀ j ∈ l, ¬ hits j x) → ((l.foldl step db).pip x).state = (db.pip x).state) := by
  induction l generalizing db with
  | nil => exact ⟨fun ⟨_, member, _⟩ => absurd member not_mem_nil, fun _ => rfl⟩
  | cons j rest ih =>
    rw [foldl_cons]
    obtain ⟨hit, miss⟩ := ih (step db j)
    refine ⟨fun ⟨k, member, hitsK⟩ => ?_, fun none_ => ?_⟩
    · by_cases later : ∃ j ∈ rest, hits j x
      · exact hit later
      · rw [miss fun j inRest hitsJ => later ⟨j, inRest, hitsJ⟩]
        rcases mem_cons.mp member with rfl | inRest
        · exact (one db k x).1 hitsK
        · exact absurd ⟨k, inRest, hitsK⟩ later
    · rw [miss fun j inRest => none_ j (mem_cons_of_mem _ inRest)]
      exact (one db j x).2 (none_ j mem_cons_self)

structure SameLists (db db' : PipDatabase) : Prop where
  flink (x) : (db'.pip x).flink = (db.pip x).flink
  free : db'.mmFirstFreePip = db.mmFirstFreePip
  zeroed : db'.mmFirstZeroedPip = db.mmFirstZeroedPip

theorem SameLists.refl (db : PipDatabase) : SameLists db db := ⟨fun _ => rfl, rfl, rfl⟩

theorem SameLists.trans {db'' : PipDatabase} (first : SameLists db db') (second : SameLists db' db'') :
    SameLists db db'' :=
  ⟨fun x => (second.flink x).trans (first.flink x), second.free.trans first.free, second.zeroed.trans first.zeroed⟩

theorem sameLists_foldl {ι : Type} {step : PipDatabase → ι → PipDatabase}
    (one : ∀ db j, SameLists db (step db j)) (l : List ι) (db : PipDatabase) : SameLists db (l.foldl step db) := by
  induction l generalizing db with
  | nil => exact .refl db
  | cons j rest ih => exact (one db j).trans (ih (step db j))

theorem sameLists_setState (db : PipDatabase) (i : Nat) (s : PipState) : SameLists db (db.setState i s) := by
  refine ⟨fun x => ?_, rfl, rfl⟩
  by_cases same : x = i
  · rw [same, setState, setPip_self]
  · rw [setState, setPip_of_ne same]

theorem state_setState (db : PipDatabase) (i x : Nat) (s : PipState) :
    ((db.setState i s).pip x).state = if x = i then s else (db.pip x).state := by
  by_cases same : x = i
  · rw [same, if_pos rfl, setState, setPip_self]
  · rw [if_neg same, setState, setPip_of_ne same]

/-- The frames met so far that are free are linked; the entries behind them have no link yet. -/
structure LinkedUpTo (start db : PipDatabase) (total n : Nat) (lastFreeIndex : Option Nat) : Prop where
  linked : DoubleList.Linked db.freeLinks ((List.range n).filter fun i => (start.pip i).state = .free)
  last : lastFreeIndex = ((List.range n).filter fun i => (start.pip i).state = .free).getLast?
  state (x) : (db.pip x).state = (start.pip x).state
  fresh {x} : n ≤ x → x < total → (db.pip x).flink = none
  zeroed : db.mmFirstZeroedPip = start.mmFirstZeroedPip

theorem filter_range_succ (p : Nat → Bool) (n : Nat) :
    (range (n + 1)).filter p = (range n).filter p ++ if p n then [n] else [] := by
  rw [range_succ, filter_append]
  cases at_ : p n <;> simp [at_]

@[simp] theorem flink_setFlink : ((db.setFlink i v).pip x).flink = if x = i then v else (db.pip x).flink := by
  by_cases same : x = i <;> simp [setFlink, setPip, same]

@[simp] theorem flink_setBlink : ((db.setBlink i v).pip x).flink = (db.pip x).flink := by
  by_cases same : x = i <;> simp [setBlink, setPip, same]

@[simp] theorem blink_setBlink : ((db.setBlink i v).pip x).blink = if x = i then v else (db.pip x).blink := by
  by_cases same : x = i <;> simp [setBlink, setPip, same]

@[simp] theorem blink_setFlink : ((db.setFlink i v).pip x).blink = (db.pip x).blink := by
  by_cases same : x = i <;> simp [setFlink, setPip, same]

/-- What a free frame changes: the last one is linked to it, and the head where there is none. -/
structure LinksBehind (db db' : PipDatabase) (final : Option Nat) (n : Nat) : Prop where
  flink (y) : (db'.pip y).flink = if final = some y then some n else (db.pip y).flink
  blink (y) : (db'.pip y).blink = if y = n then final else (db.pip y).blink
  state (y) : (db'.pip y).state = (db.pip y).state
  first : db'.mmFirstFreePip = some (db.mmFirstFreePip.getD n)
  zeroed : db'.mmFirstZeroedPip = db.mmFirstZeroedPip

theorem linkFree_free {final : Option Nat} (free : (db.pip n).state = .free)
    (same : db.mmFirstFreePip = none ↔ final = none) :
    LinksBehind db (linkFree (db, final) n).1 final n ∧ (linkFree (db, final) n).2 = some n := by
  cases head : db.mmFirstFreePip with
  | none =>
    obtain rfl := same.mp head
    have stepped : linkFree (db, none) n = ({ db with mmFirstFreePip := some n }.setBlink n none, some n) := by
      simp only [linkFree, if_pos free, head]
    rw [stepped]
    refine ⟨⟨fun y => ?_, fun y => ?_, fun y => state_setBlink, ?_, rfl⟩, rfl⟩
    · rw [flink_setBlink]
      exact (if_neg nofun).symm
    · rw [blink_setBlink]
    · rw [head]
      rfl
  | some h =>
    cases final with
    | none => exact absurd (same.mpr rfl) (by simp [head])
    | some last =>
      have stepped : linkFree (db, some last) n =
          ((db.setFlink last (some n)).setBlink n (some last), some n) := by
        simp only [linkFree, if_pos free, head]
      rw [stepped]
      refine ⟨⟨fun y => ?_, fun y => ?_, fun y => state_setBlink.trans state_setFlink, ?_, rfl⟩, rfl⟩
      · rw [flink_setBlink, flink_setFlink]
        simp only [some.injEq, eq_comm]
      · rw [blink_setBlink, blink_setFlink]
      · rw [head]
        exact head

theorem LinkedUpTo.step {final : Option Nat} (upTo : LinkedUpTo start db total n final) (less : n < total) :
    LinkedUpTo start (linkFree (db, final) n).1 total (n + 1) (linkFree (db, final) n).2 := by
  obtain ⟨linked, last, state, fresh, zeroed⟩ := upTo
  have range := filter_range_succ (fun i => decide ((start.pip i).state = .free)) n
  by_cases free : (start.pip n).state = .free
  · rw [if_pos (decide_eq_true free)] at range
    generalize nodes : (List.range n).filter (fun i => decide ((start.pip i).state = .free)) = xs at linked last range
    have below : ∀ y ∈ xs, y < n := fun y member => by
      rw [← nodes] at member
      exact List.mem_range.mp (List.mem_of_mem_filter member)
    have lastBelow : ∀ y, final = some y → y < n := fun y found =>
      below y (List.mem_of_getLast? (last ▸ found))
    have same : db.mmFirstFreePip = none ↔ final = none := by
      have first : db.mmFirstFreePip = xs.head? := linked.first
      rw [first, last]
      simp
    obtain ⟨⟨flink, blink, states, first, zeroed'⟩, final'⟩ := linkFree_free ((state n).trans free) same
    refine ⟨?_, ?_, fun x => (states x).trans (state x), fun {x} later inside => ?_, zeroed'.trans zeroed⟩
    · rw [range]
      have nowhere : db.freeLinks.next n = none := fresh (Nat.le_refl n) less
      have head : db.mmFirstFreePip = xs.head? := linked.first
      have absent : n ∉ xs := fun member => Nat.lt_irrefl n (below n member)
      refine linked.snoc absent ?_ ?_ ?_ (fun y found => ?_) fun y member => ?_
      · refine first.trans ?_
        rw [head]
        cases xs <;> rfl
      · exact ((blink n).trans (if_pos rfl)).trans last
      · refine ((flink n).trans (if_neg fun found => ?_)).trans nowhere
        exact Nat.lt_irrefl n (lastBelow n found)
      · exact (flink y).trans (if_pos (last.trans found))
      · refine ⟨(blink y).trans (if_neg ?_), fun other => (flink y).trans (if_neg fun found => ?_)⟩
        · rintro rfl
          exact Nat.lt_irrefl y (below y member)
        · exact other (last.symm.trans found)
    · rw [range, final', List.getLast?_concat]
    · rw [flink, if_neg fun found => ?_]
      · exact fresh (by omega) inside
      · have := lastBelow x found
        omega
  · rw [if_neg (by simpa using free), List.append_nil] at range
    have stays : linkFree (db, final) n = (db, final) := if_neg fun here => free ((state n).symm.trans here)
    rw [stays]
    exact ⟨range ▸ linked, range ▸ last, state, fun later inside => fresh (by omega) inside, zeroed⟩

theorem linkAll_spec (fresh : ∀ x, x < total → (db.pip x).flink = none) (empty : db.mmFirstFreePip = none) :
    DoubleList.Linked (linkAll total db).freeLinks ((range total).filter fun i => (db.pip i).state = .free) ∧
      (∀ x, ((linkAll total db).pip x).state = (db.pip x).state) ∧
      (linkAll total db).mmFirstZeroedPip = db.mmFirstZeroedPip := by
  have runs : ∀ n ≤ total, LinkedUpTo db ((range n).foldl linkFree (db, none)).1 total n
      ((range n).foldl linkFree (db, none)).2 := by
    intro n
    induction n with
    | zero =>
      exact fun _ => ⟨⟨nodup_nil, empty, fun {l x r} split => by cases l <;> cases split⟩, rfl,
        fun _ => rfl, fun _ inside => fresh _ inside, rfl⟩
    | succ n ih =>
      intro inside
      have stepped := (ih (Nat.le_of_succ_le inside)).step inside
      rw [range_succ, foldl_append]
      exact stepped
  obtain ⟨linked, last, state, _, zeroed⟩ := runs total (Nat.le_refl total)
  simp only [linkAll]
  generalize (range total).foldl linkFree (db, none) = result at linked last state zeroed
  obtain ⟨db', final⟩ := result
  cases final with
  | none => exact ⟨linked, state, zeroed⟩
  | some i =>
    refine ⟨?_, fun x => state_setFlink.trans (state x), zeroed⟩
    obtain ⟨l, split⟩ := getLast?_eq_some_iff.mp last.symm
    have ends : db'.freeLinks.next i = none := (linked.links split).2
    refine linked.congr rfl (fun x _ => ?_) fun x _ => blink_setFlink
    refine flink_setFlink.trans ?_
    by_cases at_ : x = i
    · rw [if_pos at_, at_]
      exact ends.symm
    · exact if_neg at_

/-- The page numbers that the loop over a range runs through. -/
def Names (d : MemoryDescriptor) (i : Nat) : Prop :=
  ∃ j, j < ((d.length / 4096).setWidth 32 : BitVec 32).toNat ∧
    ((d.baseAddress / 4096).setWidth 32 + BitVec.ofNat 32 j : BitVec 32).toNat = i

theorem setState_if (applies : Prop) [Decidable applies] (db : PipDatabase) (i x : Nat) (s : PipState) :
    (applies ∧ i = x → (((if applies then db.setState i s else db).pip x).state = s)) ∧
      (¬ (applies ∧ i = x) → ((if applies then db.setState i s else db).pip x).state = (db.pip x).state) := by
  by_cases holds : applies
  · rw [if_pos holds, state_setState]
    exact ⟨fun both => if_pos both.2.symm, fun other => if_neg fun same => other ⟨holds, same.symm⟩⟩
  · exact ⟨fun both => absurd both.1 holds, fun _ => by rw [if_neg holds]⟩

theorem freeRange_state (total : Nat) (db : PipDatabase) (d : MemoryDescriptor) (x : Nat) :
    (d.Usable ∧ x < total ∧ Names d x → ((freeRange total db d).pip x).state = .free) ∧
      (¬ (d.Usable ∧ x < total ∧ Names d x) → ((freeRange total db d).pip x).state = (db.pip x).state) := by
  by_cases usable : d.Usable
  · simp only [freeRange, if_pos usable]
    obtain ⟨hit, miss⟩ := state_foldl (fun j x =>
        ((d.baseAddress / 4096).setWidth 32 + BitVec.ofNat 32 j : BitVec 32).toNat < total ∧
        ((d.baseAddress / 4096).setWidth 32 + BitVec.ofNat 32 j : BitVec 32).toNat = x) .free
      (fun db j x => setState_if _ db _ x .free)
      (range ((d.length / 4096).setWidth 32 : BitVec 32).toNat) db x
    refine ⟨fun ⟨_, inside, j, less, same⟩ => hit ⟨j, mem_range.mpr less, same ▸ inside, same⟩,
      fun other => miss ?_⟩
    rintro j member ⟨inside, same⟩
    exact other ⟨usable, same ▸ inside, j, mem_range.mp member, same⟩
  · exact ⟨fun named => absurd named.1 usable, fun _ => by rw [freeRange, if_neg usable]⟩

theorem freeRange_lists (total : Nat) (db : PipDatabase) (d : MemoryDescriptor) :
    SameLists db (freeRange total db d) := by
  rw [freeRange]
  split
  · refine sameLists_foldl (fun db j => ?_) _ _
    dsimp only
    split
    · exact sameLists_setState db _ _
    · exact .refl db
  · exact .refl db

theorem reserveLow_state (db : PipDatabase) (x : Nat) :
    (x < 256 → ((reserveLow db).pip x).state = .reserved) ∧
      (¬ x < 256 → ((reserveLow db).pip x).state = (db.pip x).state) := by
  obtain ⟨hit, miss⟩ := state_foldl (fun i x => i = x) .reserved
    (fun db i x => ⟨fun same => by rw [state_setState, if_pos same.symm],
      fun other => by rw [state_setState, if_neg (Ne.symm other)]⟩) (range 256) db x
  rw [reserveLow]
  refine ⟨fun low => hit ⟨x, mem_range.mpr low, rfl⟩, fun high => miss fun i member same => high ?_⟩
  exact mem_range.mp (same ▸ member)

theorem reserveKernel_state (total : Nat) (db : PipDatabase) (x : Nat) :
    ((4096 ≤ x ∧ x < 16896) ∧ x < total → ((reserveKernel total db).pip x).state = .reserved) ∧
      (¬ (4096 ≤ x ∧ x < 16896) → ((reserveKernel total db).pip x).state = (db.pip x).state) := by
  have range : ∀ i, i ∈ range' 4096 12800 ↔ 4096 ≤ i ∧ i < 16896 := fun i => by rw [mem_range'_1]
  obtain ⟨hit, miss⟩ := state_foldl (fun i x => i < total ∧ i = x) .reserved
    (fun db i x => setState_if (i < total) db i x .reserved) (range' 4096 12800) db x
  rw [reserveKernel]
  refine ⟨fun ⟨kernel, inside⟩ => hit ⟨x, (range x).mpr kernel, inside, rfl⟩, fun outside => miss ?_⟩
  rintro i member ⟨_, same⟩
  exact outside ((range x).mp (same ▸ member))

theorem reserveLow_lists (db : PipDatabase) : SameLists db (reserveLow db) :=
  sameLists_foldl (fun db i => sameLists_setState db i .reserved) _ db

theorem reserveKernel_lists (total : Nat) (db : PipDatabase) : SameLists db (reserveKernel total db) := by
  refine sameLists_foldl (fun db i => ?_) _ _
  split
  · exact sameLists_setState db _ _
  · exact .refl db

theorem reserveAll_pip (total : Nat) (db : PipDatabase) (x : Nat) :
    ((reserveAll total db).pip x) = if x < total then reservedPip else db.pip x := by
  induction total with
  | zero => rfl
  | succ n ih =>
    rw [reserveAll, range_succ, foldl_append, foldl_cons, foldl_nil]
    by_cases same : x = n
    · rw [same, setPip_self, if_pos (Nat.lt_succ_self n)]
    · rw [setPip_of_ne same]
      refine ih.trans ?_
      simp only [show x < n + 1 ↔ x < n by omega]

theorem reserveAll_lists (total : Nat) (db : PipDatabase) :
    (reserveAll total db).mmFirstFreePip = db.mmFirstFreePip ∧
      (reserveAll total db).mmFirstZeroedPip = db.mmFirstZeroedPip := by
  induction total with
  | zero => exact ⟨rfl, rfl⟩
  | succ n ih =>
    rw [reserveAll, range_succ, foldl_append]
    exact ih

/-- The frames that are free once the database is set up. -/
theorem fillDatabase_spec (total : Nat) (mmap : List MemoryDescriptor) (memory : Nat → Pip) :
    ∃ xs, DoubleList.Linked (fillDatabase total mmap memory).freeLinks xs ∧
      (∀ i, i ∈ xs ↔ i < total ∧ ((fillDatabase total mmap memory).pip i).state = .free) ∧
      (∀ i, i < total → (((fillDatabase total mmap memory).pip i).state = .free ↔
        256 ≤ i ∧ ¬ (4096 ≤ i ∧ i < 16896) ∧ ∃ d ∈ mmap, d.Usable ∧ Names d i) ∧
        (((fillDatabase total mmap memory).pip i).state = .free ∨
          ((fillDatabase total mmap memory).pip i).state = .reserved)) ∧
      (fillDatabase total mmap memory).mmFirstZeroedPip = none := by
  -- the database before the frames are linked
  obtain ⟨db₀, zero⟩ : ∃ db, reserveAll total ⟨memory, none, none⟩ = db := ⟨_, rfl⟩
  obtain ⟨db₁, one⟩ : ∃ db, mmap.foldl (freeRange total) db₀ = db := ⟨_, rfl⟩
  obtain ⟨db₂, two⟩ : ∃ db, reserveLow db₁ = db := ⟨_, rfl⟩
  obtain ⟨db₃, three⟩ : ∃ db, reserveKernel total db₂ = db := ⟨_, rfl⟩
  have filled : fillDatabase total mmap memory = linkAll total db₃ := by
    rw [fillDatabase, zero, one, two, three]
  rw [filled]
  have lists : SameLists db₀ db₃ :=
    (one ▸ sameLists_foldl (freeRange_lists total) mmap db₀).trans
      ((two ▸ reserveLow_lists db₁).trans (three ▸ reserveKernel_lists total db₂))
  have reserved : ∀ x < total, db₀.pip x = reservedPip := fun x inside =>
    zero ▸ (reserveAll_pip total _ x).trans (if_pos inside)
  have heads := reserveAll_lists total ⟨memory, none, none⟩
  rw [zero] at heads
  have fresh : ∀ x, x < total → (db₃.pip x).flink = none := fun x inside => by
    rw [lists.flink, reserved x inside]
    rfl
  obtain ⟨linked, states, zeroed⟩ := linkAll_spec fresh (lists.free.trans heads.1)
  have decided : ∀ x, x < total → ((db₃.pip x).state = .free ↔
      256 ≤ x ∧ ¬ (4096 ≤ x ∧ x < 16896) ∧ ∃ d ∈ mmap, d.Usable ∧ Names d x) ∧
      ((db₃.pip x).state = .free ∨ (db₃.pip x).state = .reserved) := by
    intro x inside
    obtain ⟨freed, kept⟩ := state_foldl (fun d x => d.Usable ∧ x < total ∧ Names d x) .free
      (freeRange_state total) mmap db₀ x
    obtain ⟨lowHit, lowMiss⟩ := reserveLow_state db₁ x
    obtain ⟨kernelHit, kernelMiss⟩ := reserveKernel_state total db₂ x
    rw [one] at freed kept
    rw [two] at lowHit lowMiss
    rw [three] at kernelHit kernelMiss
    have notFree : (db₃.pip x).state = .reserved → (db₃.pip x).state ≠ .free := fun set free =>
      PipState.noConfusion (set.symm.trans free)
    by_cases kernel : 4096 ≤ x ∧ x < 16896
    · have set : (db₃.pip x).state = .reserved := kernelHit ⟨kernel, inside⟩
      exact ⟨iff_of_false (notFree set) fun ⟨_, outside, _⟩ => outside kernel, .inr set⟩
    have third : (db₃.pip x).state = (db₂.pip x).state := kernelMiss kernel
    by_cases low : x < 256
    · have set : (db₃.pip x).state = .reserved := third.trans (lowHit low)
      exact ⟨iff_of_false (notFree set) fun ⟨above, _⟩ => by omega, .inr set⟩
    have second : (db₂.pip x).state = (db₁.pip x).state := lowMiss low
    by_cases named : ∃ d ∈ mmap, d.Usable ∧ Names d x
    · obtain ⟨d, member, usable, names⟩ := named
      have set : (db₃.pip x).state = .free :=
        (third.trans second).trans (freed ⟨d, member, usable, inside, names⟩)
      exact ⟨iff_of_true set ⟨by omega, kernel, d, member, usable, names⟩, .inl set⟩
    · have first : (db₁.pip x).state = (db₀.pip x).state := kept fun d member ⟨usable, _, names⟩ =>
        named ⟨d, member, usable, names⟩
      have start : (db₀.pip x).state = .reserved := by
        rw [reserved x inside]
        rfl
      have set : (db₃.pip x).state = .reserved := ((third.trans second).trans first).trans start
      exact ⟨iff_of_false (notFree set) fun ⟨_, _, found⟩ => named found, .inr set⟩
  refine ⟨_, linked, fun i => ?_, fun i inside => ?_, zeroed.trans (lists.zeroed.trans heads.2)⟩
  · rw [mem_filter, mem_range, decide_eq_true_iff, states i]
  · rw [states i]
    exact decided i inside

end Linking
section Placing
variable {layout : BootLayout} {mmap mmap' : List MemoryDescriptor} {place : Placement}

/-- What is left of the range in which the database lies. -/
def restOf (d : MemoryDescriptor) (place : Placement) : MemoryDescriptor :=
  { d with
    baseAddress := place.reservedEnd.setWidth 64
    length := (place.blockEnd - place.reservedEnd).setWidth 64 }

theorem placeDatabase_spec (found : placeDatabase layout size mmap = some (place, mmap')) :
    ∃ k d, mmap.findIdx? (fun d => decide (d.Usable ∧ (candidate layout size d).HasRoom)) = some k ∧
      mmap[k]? = some d ∧ mmap' = mmap.set k (restOf d place) ∧ place = candidate layout size d ∧
      d.Usable ∧ place.HasRoom := by
  induction mmap generalizing mmap' with
  | nil => cases found
  | cons d rest ih =>
    simp only [placeDatabase] at found
    rw [findIdx?_cons]
    by_cases room : d.Usable ∧ (candidate layout size d).HasRoom
    · rw [if_pos room] at found
      obtain ⟨rfl, rfl⟩ := Prod.mk.inj (some.inj found)
      refine ⟨0, d, ?_, rfl, rfl, rfl, room⟩
      rw [decide_eq_true room, if_pos rfl]
    · rw [if_neg room] at found
      obtain ⟨⟨place', rest'⟩, placed, same⟩ := map_eq_some_iff.mp found
      obtain ⟨rfl, rfl⟩ := Prod.mk.inj same
      obtain ⟨k, e, index, at_, rewritten, isPlace, holds⟩ := ih placed
      refine ⟨k + 1, e, ?_, at_, by rw [set_cons_succ, rewritten], isPlace, holds⟩
      rw [decide_eq_false room, if_neg (by decide), index]
      rfl

/-- The database lies in the range, and ends with a page. -/
structure DatabaseInside (d : MemoryDescriptor) (place : Placement) : Prop where
  start : d.baseAddress.toNat ≤ place.usableStart.toNat
  order : place.usableStart.toNat ≤ place.reservedEnd.toNat
  inside : place.reservedEnd.toNat ≤ place.blockEnd.toNat
  ends : place.blockEnd.toNat = d.baseAddress.toNat + d.length.toNat
  aligned : place.reservedEnd.toNat % 4096 = 0

theorem candidate_inside {d : MemoryDescriptor} (isPlace : place = candidate layout size d) (room : place.HasRoom)
    (below : d.baseAddress.toNat + d.length.toNat ≤ 0x100000000) (whole : place.usableStart ≤ place.reservedEnd)
    (nonzero : place.usableStart ≠ 0) :
    DatabaseInside d place := by
  rw [Placement.HasRoom, not_or, BitVec.le_def, BitVec.lt_def] at room
  have positive : place.usableStart.toNat ≠ 0 := fun zero => nonzero (BitVec.eq_of_toNat_eq zero)
  have blockEnd : place.blockEnd.toNat = (d.baseAddress.toNat + d.length.toNat) % 0x100000000 := by
    rw [isPlace]
    simp only [candidate, MemoryDescriptor.endAddr]
    rw [BitVec.toNat_setWidth, BitVec.toNat_add]
    omega
  obtain ⟨start, atLeast, rounded⟩ : ∃ start : BitVec 32, d.baseAddress.toNat % 0x100000000 ≤ start.toNat ∧
      place.usableStart = pageRoundUp start := by
    refine ⟨_, ?_, by rw [isPlace]; rfl⟩
    have kept : (d.baseAddress.setWidth 32 : BitVec 32).toNat = d.baseAddress.toNat % 0x100000000 :=
      BitVec.toNat_setWidth _ _
    split
    · next less =>
        rw [BitVec.lt_def] at less
        omega
    · omega
  have startBound := start.isLt
  have usableStart := congrArg BitVec.toNat rounded
  rw [toNat_pageRoundUp] at usableStart
  have reservedEnd : place.reservedEnd.toNat % 4096 = 0 := by
    obtain ⟨tables, same⟩ : ∃ tables : BitVec 32, place.reservedEnd =
        pageRoundUp start + pageRoundUp size + tables * 4096 := by
      rw [← rounded, isPlace]
      exact ⟨_, rfl⟩
    have page : (4096 : BitVec 32).toNat = 4096 := rfl
    rw [same, BitVec.toNat_add, BitVec.toNat_add, BitVec.toNat_mul, page, toNat_pageRoundUp, toNat_pageRoundUp]
    omega
  have order : place.usableStart.toNat ≤ place.reservedEnd.toNat := whole
  refine ⟨by omega, order, by omega, by omega, reservedEnd⟩

theorem names_iff {d : MemoryDescriptor} (bounded : d.baseAddress.toNat + d.length.toNat < 0x100000000000) (i : Nat) :
    Names d i ↔ d.Counts i := by
  have page : (4096 : BitVec 64).toNat = 4096 := rfl
  have count : ((d.length / 4096).setWidth 32 : BitVec 32).toNat = d.length.toNat / 4096 := by
    rw [BitVec.toNat_setWidth, BitVec.toNat_udiv, page]
    omega
  have index : ∀ j, j < d.length.toNat / 4096 →
      ((d.baseAddress / 4096).setWidth 32 + BitVec.ofNat 32 j : BitVec 32).toNat = d.baseAddress.toNat / 4096 + j := by
    intro j less
    rw [BitVec.toNat_add, BitVec.toNat_setWidth, BitVec.toNat_udiv, BitVec.toNat_ofNat, page]
    omega
  rw [Names, count, MemoryDescriptor.Counts]
  constructor
  · rintro ⟨j, less, rfl⟩
    rw [index j less]
    omega
  · rintro ⟨low, high⟩
    refine ⟨i - d.baseAddress.toNat / 4096, by omega, ?_⟩
    rw [index _ (by omega)]
    omega

theorem names_restOf {d : MemoryDescriptor} (order : place.reservedEnd.toNat ≤ place.blockEnd.toNat)
    (whole : place.reservedEnd.toNat % 4096 = 0) (i : Nat) : Names (restOf d place) i ↔
      place.reservedEnd.toNat ≤ i * 4096 ∧ (i + 1) * 4096 ≤ place.blockEnd.toNat := by
  have endBound := place.blockEnd.isLt
  have base : (restOf d place).baseAddress.toNat = place.reservedEnd.toNat := by
    rw [restOf, BitVec.toNat_setWidth]
    omega
  have length : (restOf d place).length.toNat = place.blockEnd.toNat - place.reservedEnd.toNat := by
    rw [restOf, BitVec.toNat_setWidth, BitVec.toNat_sub_of_le order]
    omega
  rw [names_iff (by omega), MemoryDescriptor.Counts, base, length]
  omega

section
variable (accepted : mmInitializePip fuel layout mmap memory = some (some (db, place)))
include accepted

theorem accepted_spec :
    ∃ mmap', placeDatabase layout (databaseSize mmap) mmap = some (place, mmap') ∧ place.usableStart ≠ 0 ∧
      db = fillDatabase (mmTotalPages (highestAddress mmap)) mmap' memory := by
  simp only [mmInitializePip] at accepted
  cases placed : placeDatabase layout (databaseSize mmap) mmap with
  | none => rw [placed] at accepted; cases accepted
  | some found =>
    obtain ⟨place', mmap'⟩ := found
    simp only [placed] at accepted
    by_cases zero : place'.usableStart = 0
    · rw [if_pos zero] at accepted
      cases accepted
    · rw [if_neg zero, bind_eq_bind, bind_eq_some_iff] at accepted
      obtain ⟨mapped, _, done⟩ := accepted
      cases mapped with
      | false => cases done
      | true =>
        obtain ⟨rfl, rfl⟩ := Prod.mk.inj (some.inj (some.inj done))
        exact ⟨mmap', rfl, zero, rfl⟩

theorem quiet_of_accepted : Quiet (mmTotalPages (highestAddress mmap)) db := by
  obtain ⟨mmap', _, _, rfl⟩ := accepted_spec accepted
  obtain ⟨xs, linked, members, _, zeroed⟩ := fillDatabase_spec (mmTotalPages (highestAddress mmap)) mmap' memory
  exact ⟨⟨xs, linked, members _⟩, fun {h} found => by rw [zeroed] at found; cases found⟩

theorem free_list_members (fits : MapFits layout mmap)
    : ∃ k d xs, databaseIndex layout mmap = some k ∧ mmap[k]? = some d ∧ d.Usable ∧
      place = candidate layout (databaseSize mmap) d ∧ DatabaseInside d place ∧ DoubleList.Linked db.freeLinks xs ∧
      ∀ i, i ∈ xs ↔ Spare mmap i ∧
        (place.reservedEnd.toNat ≤ i * 4096 ∧ (i + 1) * 4096 ≤ place.blockEnd.toNat ∨
          ∃ j e, mmap[j]? = some e ∧ j ≠ k ∧ e.Usable ∧ e.Counts i) := by
  obtain ⟨mmap', placed, nonzero, rfl⟩ := accepted_spec accepted
  obtain ⟨k, d, index, at_, rfl, isPlace, usable, room⟩ := placeDatabase_spec placed
  obtain ⟨below, whole⟩ := fits.room index at_
  have lies := candidate_inside isPlace room below (isPlace ▸ whole) nonzero
  have inside := lies.inside
  have aligned := lies.aligned
  obtain ⟨xs, linked, members, states, _⟩ := fillDatabase_spec (mmTotalPages (highestAddress mmap))
    (mmap.set k (restOf d place)) memory
  have known : k < mmap.length := (List.getElem?_eq_some_iff.mp at_).1
  refine ⟨k, d, xs, index, at_, usable, isPlace, lies, linked, fun i => ?_⟩
  rw [members]
  constructor
  · rintro ⟨small, free⟩
    obtain ⟨low, kernel, e, member, usableE, names⟩ := (states i small).1.mp free
    refine ⟨⟨small, low, kernel⟩, ?_⟩
    obtain ⟨j, atJ⟩ := List.mem_iff_getElem?.mp member
    by_cases same : k = j
    · rw [List.getElem?_set, if_pos same, if_pos known] at atJ
      obtain rfl := some.inj atJ
      exact .inl ((names_restOf inside aligned i).mp names)
    · rw [List.getElem?_set, if_neg same] at atJ
      have bounded := fits.high e (List.mem_iff_getElem?.mpr ⟨j, atJ⟩) usableE
      exact .inr ⟨j, e, atJ, Ne.symm same, usableE, (names_iff bounded i).mp names⟩
  · rintro ⟨⟨small, low, kernel⟩, named⟩
    refine ⟨small, (states i small).1.mpr ⟨low, kernel, ?_⟩⟩
    rcases named with rest | ⟨j, e, atJ, other, usableE, names⟩
    · refine ⟨restOf d place, List.mem_iff_getElem?.mpr ⟨k, ?_⟩, usable, (names_restOf inside aligned i).mpr rest⟩
      rw [List.getElem?_set, if_pos rfl, if_pos known]
    · have bounded := fits.high e (List.mem_iff_getElem?.mpr ⟨j, atJ⟩) usableE
      refine ⟨e, List.mem_iff_getElem?.mpr ⟨j, ?_⟩, usableE, (names_iff bounded i).mpr names⟩
      rw [List.getElem?_set, if_neg (Ne.symm other)]
      exact atJ

theorem wholePages_of_sound (fits : MapFits layout mmap) (listed : FreeListSound mmap place db)
    : WholePages layout mmap := by
  obtain ⟨k, d, xs, index, at_, usable, _, _, linked, members⟩ := free_list_members accepted fits
  obtain ⟨ys, linkedY, sound⟩ := listed
  intro j e atJ usableE other
  obtain rfl := linked.unique linkedY
  by_contra partial_
  rw [not_or, not_or, not_or, Nat.not_lt, not_not] at partial_
  obtain ⟨unaligned, long, spare, uncovered⟩ := partial_
  -- the page in which the range starts is handed out
  have notDatabase : j ≠ k := by
    rintro rfl
    exact other index
  have member := (members (e.baseAddress.toNat / 4096)).mpr
    ⟨spare, .inr ⟨j, e, atJ, notDatabase, usableE, Nat.le_refl _, by omega⟩⟩
  exact uncovered (sound _ member).usable

theorem sound_of_wholePages (fits : MapFits layout mmap) (wholePages : WholePages layout mmap)
    : FreeListSound mmap place db := by
  obtain ⟨k, d, xs, index, at_, usable, isPlace, ⟨start, order, inside, ends, aligned⟩, linked, members⟩ :=
    free_list_members accepted fits
  refine ⟨xs, linked, fun i member => ?_⟩
  obtain ⟨spare, named⟩ := (members i).mp member
  have ⟨small, low, kernel⟩ := spare
  -- a usable range that holds the frame
  obtain ⟨e, memberE, usableE, covers, apart⟩ : ∃ e ∈ mmap, e.Usable ∧ e.Covers i ∧
      ((i + 1) * 4096 ≤ place.usableStart.toNat ∨ place.reservedEnd.toNat ≤ i * 4096) := by
    rcases named with ⟨behind, ahead⟩ | ⟨j, e, atJ, other, usableE, counts⟩
    · exact ⟨d, mem_of_getElem? at_, usable, fun a low high => ⟨by omega, by omega⟩, .inr behind⟩
    · have apart := isPlace ▸ fits.database index at_ atJ other usableE i spare counts
      have ⟨above, below⟩ := counts
      have notIndex : databaseIndex layout mmap ≠ some j := by
        rw [index]
        exact fun same => other (some.inj same).symm
      by_cases whole : e.baseAddress.toNat % 4096 = 0 ∨ e.baseAddress.toNat / 4096 ≠ i
      · exact ⟨e, mem_of_getElem? atJ, usableE, fun a low high => ⟨by omega, by omega⟩, apart⟩
      · obtain ⟨unaligned, rfl⟩ := not_or.mp whole |>.imp_right not_not.mp
        rcases wholePages j e atJ usableE notIndex with aligned | short | kept | ⟨f, memberF, usableF, covers⟩
        · exact absurd aligned unaligned
        · omega
        · exact absurd spare kept
        · exact ⟨f, memberF, usableF, covers, apart⟩
  exact ⟨⟨e, memberE, usableE, covers⟩, fun e' member' unusable => fits.apart e memberE e' member' usableE unusable i
    spare covers, by omega, by omega, apart⟩

end

/-- The free list that is set up is sound exactly when every range hands out whole pages. -/
theorem boot_list_iff (accepted : mmInitializePip fuel layout mmap memory = some (some (db, place)))
    (fits : MapFits layout mmap) : FreeListSound mmap place db ↔ WholePages layout mmap :=
  ⟨wholePages_of_sound accepted fits, sound_of_wholePages accepted fits⟩

theorem accepted_of (placed : placeDatabase layout (databaseSize mmap) mmap = some (place, mmap'))
    (nonzero : place.usableStart ≠ 0)
    (mapped : mmMapPip (place.usableStart + 0xC0000000 + databaseSize mmap) place.reservedEnd fuel layout.present
      (place.usableStart + pageRoundUp (databaseSize mmap)) (place.usableStart + 0xC0000000) = some true)
    (memory : Nat → Pip) : mmInitializePip fuel layout mmap memory =
      some (some (fillDatabase (mmTotalPages (highestAddress mmap)) mmap' memory, place)) := by
  simp only [mmInitializePip, placed, if_neg nonzero, mapped, Option.bind_eq_bind, Option.bind_some, if_true,
    Option.pure_def]

/-- The loader maps the first four megabytes; the kernel ends at two. -/
def bootLayout : BootLayout := ⟨0x200000, fun pde => pde == 768⟩

/-- 47 megabytes, two kilobytes that are reserved, and 64 kilobytes twice, the second time
with half of them again. -/
def bootMap (base : BitVec 64) : List MemoryDescriptor :=
  [⟨0x100000, 0x2F00000, 1⟩, ⟨0x5000000, 0x800, 2⟩, ⟨base, 0x10000, 1⟩, ⟨0x5008000, 0x10000, 1⟩]

def bootPlace : Placement := ⟨0x200000, 0x3000000, 0x26F000⟩

section Boot
variable {base : BitVec 64}

theorem accepted_bootMap (either : base = 0x5000800 ∨ base = 0x5001000) (memory : Nat → Pip) :
    ∃ db, mmInitializePip 120 bootLayout (bootMap base) memory = some (some (db, bootPlace)) := by
  have placed : placeDatabase bootLayout (databaseSize (bootMap base)) (bootMap base) =
      some (bootPlace, restOf ⟨0x100000, 0x2F00000, 1⟩ bootPlace :: (bootMap base).tail) := by
    rcases either with rfl | rfl <;> decide +kernel
  exact ⟨_, accepted_of placed (by decide) (by rcases either with rfl | rfl <;> decide +kernel) memory⟩

theorem databaseIndex_bootMap (either : base = 0x5000800 ∨ base = 0x5001000) :
    databaseIndex bootLayout (bootMap base) = some 0 := by
  rcases either with rfl | rfl <;> decide +kernel

theorem getElem?_bootMap (at_ : (bootMap base)[j]? = some d) : j = 0 ∧ d = ⟨0x100000, 0x2F00000, 1⟩ ∨
    j = 1 ∧ d = ⟨0x5000000, 0x800, 2⟩ ∨ j = 2 ∧ d = ⟨base, 0x10000, 1⟩ ∨ j = 3 ∧ d = ⟨0x5008000, 0x10000, 1⟩ := by
  match j, at_ with
  | 0, at_ => exact .inl ⟨rfl, (some.inj at_).symm⟩
  | 1, at_ => exact .inr (.inl ⟨rfl, (some.inj at_).symm⟩)
  | 2, at_ => exact .inr (.inr (.inl ⟨rfl, (some.inj at_).symm⟩))
  | 3, at_ => exact .inr (.inr (.inr ⟨rfl, (some.inj at_).symm⟩))
  | _ + 4, at_ => cases at_

theorem mapFits_bootMap (either : base = 0x5000800 ∨ base = 0x5001000) : MapFits bootLayout (bootMap base) := by
  have low : 0x5000800 ≤ base.toNat ∧ base.toNat ≤ 0x5001000 := by
    rcases either with rfl | rfl <;> decide
  have place : candidate bootLayout (databaseSize (bootMap base)) ⟨0x100000, 0x2F00000, 1⟩ = bootPlace := by
    rcases either with rfl | rfl <;> decide +kernel
  have first {k d} (index : databaseIndex bootLayout (bootMap base) = some k) (at_ : (bootMap base)[k]? = some d) :
      k = 0 ∧ d = ⟨0x100000, 0x2F00000, 1⟩ := by
    rw [databaseIndex_bootMap either] at index
    obtain rfl := some.inj index
    exact ⟨rfl, (some.inj at_).symm⟩
  refine ⟨fun d memberD e memberE usable unusable i spare covers a low_ high => ?_, fun d member _ => ?_,
    fun index at_ => ?_, fun index at_ atJ other usable i spare counts => .inr ?_⟩
  · obtain ⟨j, atJ⟩ := mem_iff_getElem?.mp memberD
    obtain ⟨k, atK⟩ := mem_iff_getElem?.mp memberE
    have holds := covers a low_ high
    have second : (⟨0x5000000, 0x800, 2⟩ : MemoryDescriptor).Holds a → 0x5000000 ≤ a ∧ a < 0x5000800 := fun holds => holds
    rcases getElem?_bootMap atK with ⟨-, rfl⟩ | ⟨-, rfl⟩ | ⟨-, rfl⟩ | ⟨-, rfl⟩
    · exact absurd rfl unusable
    · intro inE
      obtain ⟨above, below⟩ := second inE
      rcases getElem?_bootMap atJ with ⟨-, rfl⟩ | ⟨-, rfl⟩ | ⟨-, rfl⟩ | ⟨-, rfl⟩
      · have ends : a < 0x3000000 := holds.2
        omega
      · cases usable
      · have begins : base.toNat ≤ a := holds.1
        omega
      · have begins : 0x5008000 ≤ a := holds.1
        omega
    · exact absurd rfl unusable
    · exact absurd rfl unusable
  · obtain ⟨j, atJ⟩ := mem_iff_getElem?.mp member
    rcases getElem?_bootMap atJ with ⟨_, rfl⟩ | ⟨_, rfl⟩ | ⟨_, rfl⟩ | ⟨_, rfl⟩
    · decide
    · decide
    · change base.toNat + 0x10000 < 0x100000000000
      omega
    · decide
  · obtain ⟨rfl, rfl⟩ := first index at_
    rw [place]
    decide
  · obtain ⟨rfl, rfl⟩ := first index at_
    rw [place]
    obtain ⟨begins, -⟩ := counts
    have ends : bootPlace.reservedEnd.toNat = 0x26F000 := rfl
    rcases getElem?_bootMap atJ with ⟨rfl, rfl⟩ | ⟨-, rfl⟩ | ⟨-, rfl⟩ | ⟨-, rfl⟩
    · exact absurd rfl other
    · cases usable
    · change base.toNat / 4096 ≤ i at begins
      omega
    · change 0x5008000 / 4096 ≤ i at begins
      omega

end Boot

/-- The last range starts with a page. -/
theorem boot_list_iff_aligned : ∃ db, mmInitializePip 120 bootLayout (bootMap 0x5001000) (fun _ => reservedPip) =
      some (some (db, bootPlace)) ∧
    (FreeListSound (bootMap 0x5001000) bootPlace db ↔ WholePages bootLayout (bootMap 0x5001000)) := by
  obtain ⟨db, accepted⟩ := accepted_bootMap (.inr rfl) fun _ => reservedPip
  exact ⟨db, accepted, boot_list_iff accepted (mapFits_bootMap (.inr rfl))⟩

/-- The last range starts in the middle of a page, behind the bytes that are reserved. -/
theorem boot_list_shares_page : ∃ db, mmInitializePip 120 bootLayout (bootMap 0x5000800) (fun _ => reservedPip) =
    some (some (db, bootPlace)) ∧ ¬ FreeListSound (bootMap 0x5000800) bootPlace db := by
  obtain ⟨db, accepted⟩ := accepted_bootMap (.inl rfl) fun _ => reservedPip
  refine ⟨db, accepted, fun listed => ?_⟩
  have whole := wholePages_of_sound accepted (mapFits_bootMap (.inl rfl)) listed 2 _ rfl rfl
    (by rw [databaseIndex_bootMap (.inl rfl)]; decide)
  rcases whole with aligned | short | kept | ⟨e, member, usable, covers⟩
  · exact absurd aligned (by decide)
  · exact absurd short (by decide)
  · exact absurd (by rw [Spare]; decide +kernel) kept
  · have holds : e.Holds 0x5000000 := covers 0x5000000 (by decide) (by decide)
    obtain ⟨j, at_⟩ := mem_iff_getElem?.mp member
    rcases getElem?_bootMap at_ with ⟨-, rfl⟩ | ⟨-, rfl⟩ | ⟨-, rfl⟩ | ⟨-, rfl⟩
    · exact absurd holds.2 (by decide)
    · cases usable
    · exact absurd holds.1 (by decide)
    · exact absurd holds.1 (by decide)

end Placing
end VeaOS.Mm

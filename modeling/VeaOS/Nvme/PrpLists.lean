import VeaOS.Ob.Mdl

/-! The addresses of a transfer as a controller takes them: the first one with its offset in the
page, then one more page, or a page that lists the rest. -/
namespace VeaOS.Nvme
open Ob (Mdl PageTables pageSize pageAlign sizeofMdl sizeofPfnNumber)

section Translation

def mapped (tables : PageTables) (va : Nat) : Bool :=
  tables.pde (va / 0x400000) &&& 1 != 0 &&
    (tables.pde (va / 0x400000) &&& 0x80 != 0 || tables.pte (va / 0x1000) &&& 1 != 0)

/-- `MmGetPhysicalAddress`; an address without a page gives zero. The masks are written as
quotients and remainders. -/
def mmGetPhysicalAddress (tables : PageTables) (va : Nat) : Nat :=
  let pde := tables.pde (va / 0x400000)
  let pte := tables.pte (va / 0x1000)
  if pde &&& 1 = 0 then 0
  else if pde &&& 0x80 ≠ 0 then pde.toNat / 0x400000 * 0x400000 + va % 0x400000
  else if pte &&& 1 = 0 then 0
  else pte.toNat / 0x1000 * 0x1000 + va % 0x1000

theorem mmGetPhysicalAddress_page {tables : PageTables} {va : Nat} (present : mapped tables va = true) :
    mmGetPhysicalAddress tables (pageAlign va) % pageSize = 0 ∧
      mmGetPhysicalAddress tables va = mmGetPhysicalAddress tables (pageAlign va) + va % pageSize := by
  have large : pageAlign va / 0x400000 = va / 0x400000 := by
    simp only [pageAlign, pageSize]
    omega
  have small : pageAlign va / 0x1000 = va / 0x1000 := by
    simp only [pageAlign, pageSize]
    omega
  simp only [mapped, Bool.and_eq_true, Bool.or_eq_true, bne_iff_ne, ne_eq] at present
  obtain ⟨table, page⟩ := present
  simp only [mmGetPhysicalAddress, large, small, if_neg table]
  split
  next => simp only [pageAlign, pageSize]; omega
  next whole =>
    simp only [if_neg (page.resolve_left whole)]
    simp only [pageAlign, pageSize]
    omega

end Translation

section Build

inductive PrpStatus where
  | success
  | invalidParameter
  | notSupported
  | insufficientResources
  deriving DecidableEq, Repr

structure PrpList where
  physical : Nat
  entries : Nat → Nat

structure PrpOutputs where
  prp1 : Nat
  prp2 : Nat
  prpList : Option PrpList

structure PrpResult where
  status : PrpStatus
  outputs : PrpOutputs
  allocated : Bool

def PrpOutputs.cleared : PrpOutputs := ⟨0, 0, none⟩

/-- The buffer of a call: its address and length, and the list of its frames if there is one. -/
structure PrpBuffer where
  buffer : BitVec 32
  length : BitVec 32
  mdl : Option Mdl

namespace PrpBuffer
variable (b : PrpBuffer) (tables : PageTables)

def mdlRefused : Bool :=
  b.mdl.any fun mdl => mdl.size.toNat < sizeofMdl || pageSize ≤ mdl.byteOffset ||
    mdl.byteCount < b.length.toNat || b.buffer != BitVec.ofNat 32 (mdl.startVa + mdl.byteOffset)

def pageOffset : Nat :=
  match b.mdl with
  | some mdl => mdl.byteOffset
  | none => mmGetPhysicalAddress tables b.buffer.toNat % pageSize

def pageCount : Nat :=
  b.length.toNat / pageSize + (b.length.toNat % pageSize + b.pageOffset tables + (pageSize - 1)) / pageSize

def pagesRefused : Bool :=
  b.pageCount tables = 0 || 513 < b.pageCount tables ||
    b.mdl.any fun mdl => (mdl.size.toNat - sizeofMdl) / sizeofPfnNumber < b.pageCount tables

def first : Nat :=
  match b.mdl with
  | some mdl => (mdl.pfnArray 0).toNat * pageSize + mdl.byteOffset
  | none => mmGetPhysicalAddress tables b.buffer.toNat

/-- The address of a later page. Its virtual address has 32 bits. -/
def page (i : Nat) : Nat :=
  match b.mdl with
  | some mdl => (mdl.pfnArray i).toNat * pageSize
  | none => pageAlign (mmGetPhysicalAddress tables ((pageAlign b.buffer.toNat + i * pageSize) % 0x100000000))

end PrpBuffer

/-- `NVMeBuildPrp`, with the page that it gets for a list, and with what the outputs hold before. -/
def nvmeBuildPrp (tables : PageTables) (listPage : Option Nat) (b : PrpBuffer) (before : PrpOutputs) :
    PrpResult :=
  if b.buffer = 0 ∨ b.length = 0 then ⟨.invalidParameter, before, false⟩
  else if b.mdlRefused then ⟨.invalidParameter, .cleared, false⟩
  else if b.pagesRefused tables then ⟨.notSupported, .cleared, false⟩
  else if b.pageCount tables = 1 then ⟨.success, ⟨b.first tables, 0, none⟩, false⟩
  else if b.pageCount tables = 2 then ⟨.success, ⟨b.first tables, b.page tables 1, none⟩, false⟩
  else match listPage with
    | none => ⟨.insufficientResources, ⟨b.first tables, 0, none⟩, false⟩
    | some physical => ⟨.success, ⟨b.first tables, physical, some ⟨physical, fun j =>
      if j + 1 < b.pageCount tables then b.page tables (j + 1) else 0⟩⟩, true⟩

end Build

section Meaning

/-- The address of a byte of the buffer, by the list or by the page tables. -/
def PrpBuffer.byteAt (b : PrpBuffer) (tables : PageTables) (k : Nat) : Option Nat :=
  match b.mdl with
  | some mdl => some ((mdl.pfnArray ((mdl.byteOffset + k) / pageSize)).toNat * pageSize +
      (mdl.byteOffset + k) % pageSize)
  | none =>
    if b.buffer.toNat + k < 0x100000000 ∧ mapped tables (b.buffer.toNat + k) = true then
      some (mmGetPhysicalAddress tables (b.buffer.toNat + k))
    else none

/-- The address that a controller takes for a byte of the transfer. The second output is a page
when there are two pages, and with more of them a list of at most 512. -/
def PrpOutputs.byteAt (outputs : PrpOutputs) (length k : Nat) : Option Nat :=
  let place := outputs.prp1 % pageSize + k
  if place < pageSize then some (outputs.prp1 + k)
  else if (outputs.prp1 % pageSize + length + (pageSize - 1)) / pageSize = 2 then
    some (outputs.prp2 + place % pageSize)
  else match outputs.prpList with
    | none => none
    | some list =>
      if outputs.prp2 = list.physical ∧ place / pageSize ≤ 512 then
        some (list.entries (place / pageSize - 1) + place % pageSize)
      else none

/-- A failure leaves nothing, a success the addresses of the buffer. -/
def PrpRight (tables : PageTables) (b : PrpBuffer) (result : PrpResult) : Prop :=
  if result.status = .success then
    ∀ k < b.length.toNat, ∃ address, b.byteAt tables k = some address ∧
      result.outputs.byteAt b.length.toNat k = some address
  else result.outputs = .cleared ∧ result.allocated = false

/-- All bytes of a buffer without a list have pages. -/
def PrpBuffer.Present (b : PrpBuffer) (tables : PageTables) : Prop :=
  b.mdl = none → ∀ k < b.length.toNat,
    b.buffer.toNat + k < 0x100000000 ∧ mapped tables (b.buffer.toNat + k) = true

/-- When a call goes right: with nothing to do, the outputs are clear before; when the memory for
a list is missing, the first address is zero; on success the buffer is present. -/
def PrpSound (tables : PageTables) (listPage : Option Nat) (b : PrpBuffer) (before : PrpOutputs) : Prop :=
  if b.buffer = 0 ∨ b.length = 0 then before = .cleared
  else if b.mdlRefused ∨ b.pagesRefused tables then True
  else if 3 ≤ b.pageCount tables ∧ listPage = none then b.first tables = 0
  else b.Present tables

variable {tables : PageTables} {b : PrpBuffer}

theorem PrpBuffer.first_mod (present : b.Present tables) (inside : b.mdlRefused = false)
    (nonempty : 0 < b.length.toNat) :
    b.first tables % pageSize = b.pageOffset tables ∧
      (b.mdl = none → b.pageOffset tables = b.buffer.toNat % pageSize) := by
  rw [first, pageOffset]
  cases list : b.mdl with
  | some mdl =>
    simp only [mdlRefused, list, Option.any_some, Bool.or_eq_false_iff, decide_eq_false_iff_not] at inside
    refine ⟨?_, fun none => by cases none⟩
    simp only [pageSize] at *
    omega
  | none =>
    have page := mmGetPhysicalAddress_page ((present list 0 nonempty).2)
    refine ⟨rfl, fun _ => ?_⟩
    rw [Nat.add_zero] at page
    rw [page.2]
    simp only [pageSize] at *
    omega

theorem PrpBuffer.pageCount_eq (b : PrpBuffer) (tables : PageTables) :
    b.pageCount tables = (b.pageOffset tables + b.length.toNat + (pageSize - 1)) / pageSize := by
  simp only [pageCount, pageSize]
  omega

theorem PrpBuffer.byteAt_first (present : b.Present tables)
    (same : b.mdl = none → b.pageOffset tables = b.buffer.toNat % pageSize) (inside : k < b.length.toNat)
    (early : b.pageOffset tables + k < pageSize) : b.byteAt tables k = some (b.first tables + k) := by
  rw [byteAt, first] at *
  rw [pageOffset] at same early
  cases list : b.mdl with
  | some mdl =>
    simp only [list] at early ⊢
    rw [Nat.div_eq_of_lt early, Nat.mod_eq_of_lt early, Nat.add_assoc]
  | none =>
    simp only [list, true_implies] at early same ⊢
    have here := present list k inside
    have start := present list 0 (Nat.zero_lt_of_lt inside)
    rw [Nat.add_zero] at start
    rw [if_pos here, (mmGetPhysicalAddress_page here.2).2, (mmGetPhysicalAddress_page start.2).2]
    rw [same] at early
    have page : pageAlign (b.buffer.toNat + k) = pageAlign b.buffer.toNat := by
      simp only [pageAlign, pageSize] at *
      omega
    have place : (b.buffer.toNat + k) % pageSize = b.buffer.toNat % pageSize + k := by
      simp only [pageSize] at *
      omega
    rw [page, place, Nat.add_assoc]

theorem PrpBuffer.byteAt_page (present : b.Present tables)
    (same : b.mdl = none → b.pageOffset tables = b.buffer.toNat % pageSize) (inside : k < b.length.toNat) :
    b.byteAt tables k = some (b.page tables ((b.pageOffset tables + k) / pageSize) +
      (b.pageOffset tables + k) % pageSize) ∨ b.pageOffset tables + k < pageSize := by
  by_cases early : b.pageOffset tables + k < pageSize
  · exact Or.inr early
  · left
    rw [byteAt, page]
    cases list : b.mdl with
    | some mdl => simp only [pageOffset, list]
    | none =>
      have here := present list k inside
      have offset := same list
      simp only [if_pos here]
      rw [(mmGetPhysicalAddress_page here.2).2, offset]
      have page : (pageAlign b.buffer.toNat + (b.buffer.toNat % pageSize + k) / pageSize * pageSize) %
          0x100000000 = pageAlign (b.buffer.toNat + k) := by
        simp only [pageAlign, pageSize] at *
        omega
      have place : (b.buffer.toNat + k) % pageSize = (b.buffer.toNat % pageSize + k) % pageSize := by
        simp only [pageSize]
        omega
      have whole := (mmGetPhysicalAddress_page here.2).1
      rw [page, place, pageAlign.eq_1 (mmGetPhysicalAddress tables _), whole, Nat.sub_zero]

theorem nvmeBuildPrp_right (present : b.Present tables) (nonempty : 0 < b.length.toNat)
    (accepted : b.mdlRefused = false) (pages : b.pagesRefused tables = false) {outputs : PrpOutputs}
    (prp1 : outputs.prp1 = b.first tables)
    (later : b.pageCount tables = 2 → outputs.prp2 = b.page tables 1)
    (listed : 3 ≤ b.pageCount tables → ∃ physical entries, outputs.prp2 = physical ∧
      outputs.prpList = some ⟨physical, entries⟩ ∧
        ∀ j, j + 1 < b.pageCount tables → entries j = b.page tables (j + 1)) :
    ∀ k < b.length.toNat, ∃ address, b.byteAt tables k = some address ∧
      outputs.byteAt b.length.toNat k = some address := by
  obtain ⟨offset, same⟩ := PrpBuffer.first_mod present accepted nonempty
  intro k inside
  have spanned := b.pageCount_eq tables
  simp only [PrpOutputs.byteAt, prp1, offset, ← spanned]
  by_cases early : b.pageOffset tables + k < pageSize
  · exact ⟨_, PrpBuffer.byteAt_first present same inside early, by rw [if_pos early]⟩
  · have address := (PrpBuffer.byteAt_page present same inside).resolve_right early
    have few : b.pageCount tables ≤ 513 := by
      simp only [PrpBuffer.pagesRefused, Bool.or_eq_false_iff, decide_eq_false_iff_not, Nat.not_lt] at pages
      exact pages.1.2
    have within : (b.pageOffset tables + k) / pageSize < b.pageCount tables := by
      rw [spanned]
      simp only [pageSize] at *
      omega
    have behind : 1 ≤ (b.pageOffset tables + k) / pageSize := by
      simp only [pageSize] at *
      omega
    refine ⟨_, address, ?_⟩
    rw [if_neg early]
    by_cases two : b.pageCount tables = 2
    · have second : (b.pageOffset tables + k) / pageSize = 1 := by omega
      rw [if_pos two, later two, second]
    · obtain ⟨physical, entries, prp2, list, held⟩ := listed (by omega)
      have index : (b.pageOffset tables + k) / pageSize - 1 + 1 = (b.pageOffset tables + k) / pageSize := by
        omega
      simp only [if_neg two, list, prp2]
      rw [if_pos ⟨trivial, by omega⟩, held _ (by omega), index]

theorem present_of_right {result : PrpResult} (right : PrpRight tables b result)
    (success : result.status = .success) : b.Present tables := by
  intro none k inside
  rw [PrpRight, if_pos success] at right
  obtain ⟨address, found, _⟩ := right k inside
  rw [PrpBuffer.byteAt, none] at found
  simp only at found
  split at found
  next here => exact here
  next => cases found

/-- A call goes right exactly under the condition. -/
theorem nvmeBuildPrp_iff (tables : PageTables) (listPage : Option Nat) (b : PrpBuffer) (before : PrpOutputs) :
    PrpRight tables b (nvmeBuildPrp tables listPage b before) ↔ PrpSound tables listPage b before := by
  rw [nvmeBuildPrp.eq_def, PrpSound]
  by_cases given : b.buffer = 0 ∨ b.length = 0
  · rw [if_pos given, if_pos given, PrpRight, if_neg fun same => by cases same]
    exact and_iff_left rfl
  · have nonempty : 0 < b.length.toNat :=
      Nat.pos_of_ne_zero fun zero => given (Or.inr (BitVec.eq_of_toNat_eq zero))
    rw [if_neg given, if_neg given]
    by_cases accepted : b.mdlRefused = true
    · rw [if_pos accepted, if_pos (Or.inl accepted), PrpRight, if_neg fun same => by cases same]
      exact ⟨fun _ => trivial, fun _ => ⟨rfl, rfl⟩⟩
    · by_cases pages : b.pagesRefused tables = true
      · rw [if_neg accepted, if_pos pages, if_pos (Or.inr pages), PrpRight, if_neg fun same => by cases same]
        exact ⟨fun _ => trivial, fun _ => ⟨rfl, rfl⟩⟩
      · have accepted' := Bool.eq_false_iff.mpr accepted
        have pages' := Bool.eq_false_iff.mpr pages
        have neither : ¬ (b.mdlRefused = true ∨ b.pagesRefused tables = true) :=
          fun either => either.elim accepted pages
        rw [if_neg accepted, if_neg pages, if_neg neither]
        by_cases one : b.pageCount tables = 1
        · rw [if_pos one, if_neg fun both => absurd both.1 (by omega)]
          refine ⟨fun right => present_of_right right rfl, fun present => ?_⟩
          rw [PrpRight, if_pos rfl]
          exact nvmeBuildPrp_right present nonempty accepted' pages' rfl (fun two => by omega)
            (fun three => by omega)
        · by_cases two : b.pageCount tables = 2
          · rw [if_neg one, if_pos two, if_neg fun both => absurd both.1 (by omega)]
            refine ⟨fun right => present_of_right right rfl, fun present => ?_⟩
            rw [PrpRight, if_pos rfl]
            exact nvmeBuildPrp_right present nonempty accepted' pages' rfl (fun _ => rfl) (fun three => by omega)
          · have some : b.pageCount tables ≠ 0 := by
              simp only [PrpBuffer.pagesRefused, Bool.or_eq_false_iff, decide_eq_false_iff_not] at pages'
              exact pages'.1.1
            rw [if_neg one, if_neg two]
            cases listPage with
            | none =>
              rw [if_pos ⟨by omega, rfl⟩, PrpRight, if_neg fun same => by cases same]
              refine ⟨fun right => congrArg PrpOutputs.prp1 right.1, fun zero => ⟨?_, rfl⟩⟩
              rw [zero]
              rfl
            | some physical =>
              rw [if_neg fun both => by cases both.2]
              refine ⟨fun right => present_of_right right rfl, fun present => ?_⟩
              rw [PrpRight, if_pos rfl]
              exact nvmeBuildPrp_right present nonempty accepted' pages' rfl (fun same => absurd same two)
                fun _ => ⟨physical, _, rfl, rfl, fun j later => if_pos later⟩

end Meaning

section Sample

/-- Pages of 4 MiB that map every address to itself. -/
def directTables : PageTables := ⟨fun i => BitVec.ofNat 32 (i * 0x400000) ||| 0x83, fun _ => 0⟩

def threePages : PrpBuffer := ⟨0x1000, 0x3000, none⟩

/-- Without memory for the list of three pages, the first address stays in the command. -/
theorem nvmeBuildPrp_leaves :
    ¬ PrpRight directTables threePages (nvmeBuildPrp directTables none threePages .cleared) := by
  intro right
  have failed : (nvmeBuildPrp directTables none threePages .cleared).status = .insufficientResources := by
    decide
  have first : (nvmeBuildPrp directTables none threePages .cleared).outputs.prp1 = 0x1000 := by decide
  rw [PrpRight, failed, if_neg fun same => by cases same] at right
  rw [right.1] at first
  exact absurd first (by decide)

end Sample

end VeaOS.Nvme

import Mathlib.Data.BitVec

/-! The write bit of the pages of a view. A fault makes a page present, or, where it
is present, copies it; what the entries are given on the way is kept, since another
processor may use an entry before the fault has ended. -/
namespace VeaOS.Mm

open List

structure PageEntry where
  present : Bool
  rw : Bool
  user : Bool
  cow : Bool
  frame : Nat
  deriving DecidableEq, Repr

namespace PageEntry

def writable (entry : PageEntry) : Bool := entry.present && entry.rw

def invalid : PageEntry := ⟨false, false, false, false, 0⟩

end PageEntry

def pageReadWrite : BitVec 32 := 0x04
def pageExecuteReadWrite : BitVec 32 := 0x40

/-- The range of a view, its protection, and whether its control area points to a file. -/
structure ViewRange where
  startingVpn : Nat
  endingVpn : Nat
  protection : BitVec 32
  fileBacked : Bool

namespace ViewRange

def Holds (view : ViewRange) (vpn : Nat) : Prop := view.startingVpn ≤ vpn ∧ vpn ≤ view.endingVpn

instance (view : ViewRange) (vpn : Nat) : Decidable (view.Holds vpn) := inferInstanceAs (Decidable (_ ∧ _))

def allowsWrite (view : ViewRange) : Bool := view.protection &&& (pageReadWrite ||| pageExecuteReadWrite) != 0

end ViewRange

/-- A fault and what is found for it: a page table, a frame, and the page in the file. -/
structure PageFault where
  vpn : Nat
  write : Bool
  pageTable : Bool
  newFrame : Option Nat
  readSucceeds : Bool

/-- `written` are the values that entries were given, `answers` says of each fault whether it
was for a write and whether it was resolved. -/
structure EntryState where
  pte : Nat → PageEntry
  shareCount : Nat → Nat
  written : List (Nat × PageEntry)
  answers : List (Bool × Bool)

namespace EntryState

def setPte (σ : EntryState) (vpn : Nat) (entry : PageEntry) : EntryState :=
  { σ with
    pte := fun x => if x = vpn then entry else σ.pte x
    written := (vpn, entry) :: σ.written }

def setShareCount (σ : EntryState) (frame count : Nat) : EntryState :=
  { σ with shareCount := fun x => if x = frame then count else σ.shareCount x }

def answer (σ : EntryState) (fault : PageFault) (resolved : Bool) : EntryState :=
  { σ with answers := (fault.write, resolved) :: σ.answers }

end EntryState

section Model

def mmiWritePteValid (entry : PageEntry) (pfn : Nat) : PageEntry :=
  { entry with frame := pfn, present := true, rw := true, user := false }

def mmFaultCopyOnWrite (σ : EntryState) (fault : PageFault) : EntryState × Bool :=
  let entry := σ.pte fault.vpn
  if fault.write ∧ entry.present ∧ ¬ entry.rw ∧ entry.cow then
    let oldFrame := entry.frame
    if σ.shareCount oldFrame = 1 then (σ.setPte fault.vpn { entry with rw := true, cow := false }, true)
    else match fault.newFrame with
      | none => (σ, false)
      | some frame =>
        let σ := (σ.setShareCount frame 1).setShareCount oldFrame (σ.shareCount oldFrame - 1)
        (σ.setPte fault.vpn { entry with frame, rw := true, cow := false }, true)
  else (σ, false)

/-- The entry of a new page, after it was made present. -/
def setProtection (view : ViewRange) (σ : EntryState) (fault : PageFault) : EntryState :=
  if fault.write || view.allowsWrite then σ.setPte fault.vpn { σ.pte fault.vpn with rw := true } else σ

/-- The page is read from the file or zeroed; where the read fails it goes away again. -/
def fillPage (view : ViewRange) (σ : EntryState) (fault : PageFault) (frame : Nat) : EntryState × Bool :=
  if view.fileBacked && !fault.readSucceeds then ((σ.setPte fault.vpn .invalid).setShareCount frame 0, false)
  else (σ, true)

def mmFaultDemandPaging (view : ViewRange) (σ : EntryState) (fault : PageFault) : EntryState × Bool :=
  if ¬ view.Holds fault.vpn then (σ, false)
  else if fault.pageTable = false then (σ, false)
  else match fault.newFrame with
    | none => (σ, false)
    | some frame =>
      let σ := (σ.setShareCount frame 1).setPte fault.vpn (mmiWritePteValid (σ.pte fault.vpn) frame)
      fillPage view (setProtection view σ fault) fault frame

/-- The processor says whether the page was present. -/
def mmAccessFault (view : ViewRange) (σ : EntryState) (fault : PageFault) : EntryState :=
  let result := if (σ.pte fault.vpn).present then mmFaultCopyOnWrite σ fault else mmFaultDemandPaging view σ fault
  result.1.answer fault result.2

end Model

/-- No entry of the view was given the write bit, and no write fault was resolved. -/
structure Guarded (view : ViewRange) (σ : EntryState) : Prop where
  entries : ∀ vpn entry, (vpn, entry) ∈ σ.written → view.Holds vpn → entry.writable = false
  writes : ∀ resolved, (true, resolved) ∈ σ.answers → resolved = false

/-- A page table and a frame are there for the fault. -/
def Served (fault : PageFault) : Prop := fault.pageTable = true ∧ fault.newFrame.isSome

structure Extends (σ σ' : EntryState) : Prop where
  written : σ.written ⊆ σ'.written
  answers : σ.answers ⊆ σ'.answers

section Steps
variable {view : ViewRange} {σ σ' : EntryState}

theorem Extends.refl (σ : EntryState) : Extends σ σ := ⟨Subset.refl _, Subset.refl _⟩

theorem Extends.trans (first : Extends σ σ') (second : Extends σ' σ'') : Extends σ σ'' :=
  ⟨Subset.trans first.written second.written, Subset.trans first.answers second.answers⟩

theorem Extends.setPte (σ : EntryState) (vpn : Nat) (entry : PageEntry) : Extends σ (σ.setPte vpn entry) :=
  ⟨subset_cons_self _ _, Subset.refl _⟩

theorem Extends.setShareCount (σ : EntryState) (frame count : Nat) : Extends σ (σ.setShareCount frame count) :=
  ⟨Subset.refl _, Subset.refl _⟩

theorem Extends.answer (σ : EntryState) (fault : PageFault) (resolved : Bool) :
    Extends σ (σ.answer fault resolved) :=
  ⟨Subset.refl _, subset_cons_self _ _⟩

theorem extends_copyOnWrite (σ : EntryState) (fault : PageFault) : Extends σ (mmFaultCopyOnWrite σ fault).1 := by
  simp only [mmFaultCopyOnWrite]
  split
  · split
    · exact .setPte σ _ _
    · split
      · exact .refl σ
      · exact .trans (.setShareCount σ _ _) (.trans (.setShareCount _ _ _) (.setPte _ _ _))
  · exact .refl σ

theorem extends_setProtection (view : ViewRange) (σ : EntryState) (fault : PageFault) :
    Extends σ (setProtection view σ fault) := by
  rw [setProtection]
  split
  · exact .setPte _ _ _
  · exact .refl σ

theorem extends_fillPage (view : ViewRange) (σ : EntryState) (fault : PageFault) (frame : Nat) :
    Extends σ (fillPage view σ fault frame).1 := by
  rw [fillPage]
  split
  · exact .trans (.setPte σ _ _) (.setShareCount _ _ _)
  · exact .refl σ

theorem extends_demandPaging (view : ViewRange) (σ : EntryState) (fault : PageFault) :
    Extends σ (mmFaultDemandPaging view σ fault).1 := by
  rw [mmFaultDemandPaging]
  split
  · exact .refl σ
  · split
    · exact .refl σ
    · split
      · exact .refl σ
      · exact .trans (.trans (.setShareCount σ _ _) (.setPte _ _ _))
          ((extends_setProtection view _ fault).trans (extends_fillPage view _ fault _))

theorem extends_accessFault (view : ViewRange) (σ : EntryState) (fault : PageFault) :
    Extends σ (mmAccessFault view σ fault) := by
  simp only [mmAccessFault]
  split
  · exact (extends_copyOnWrite σ fault).trans (.answer _ _ _)
  · exact (extends_demandPaging view σ fault).trans (.answer _ _ _)

theorem extends_accessFaults (view : ViewRange) (faults : List PageFault) (σ : EntryState) :
    Extends σ (faults.foldl (mmAccessFault view) σ) := by
  induction faults generalizing σ with
  | nil => exact .refl σ
  | cons fault rest ih => exact (extends_accessFault view σ fault).trans (ih _)

theorem Guarded.of_extends (guarded : Guarded view σ') (extends_ : Extends σ σ') : Guarded view σ :=
  ⟨fun vpn entry member => guarded.entries vpn entry (extends_.written member),
    fun resolved member => guarded.writes resolved (extends_.answers member)⟩

theorem served_writable (absent : (σ.pte fault.vpn).present = false) (inside : view.Holds fault.vpn)
    (served : Served fault) : ¬ Guarded view (mmAccessFault view σ fault) := by
  obtain ⟨table, some_⟩ := served
  obtain ⟨frame, found⟩ := Option.isSome_iff_exists.mp some_
  intro guarded
  have installed : Extends ((σ.setShareCount frame 1).setPte fault.vpn
      (mmiWritePteValid (σ.pte fault.vpn) frame)) (mmAccessFault view σ fault) := by
    have present : ¬ (σ.pte fault.vpn).present = true := by simp [absent]
    have there : ¬ fault.pageTable = false := by simp [table]
    simp only [mmAccessFault, if_neg present]
    refine .trans ?_ (.answer _ _ _)
    simp only [mmFaultDemandPaging, if_neg (not_not.mpr inside), if_neg there, found]
    exact (extends_setProtection view _ fault).trans (extends_fillPage view _ fault frame)
  have kept := (guarded.of_extends installed).entries _ _ mem_cons_self inside
  cases kept

theorem unserved_reported (absent : (σ.pte fault.vpn).present = false) (unserved : ¬ Served fault) :
    mmAccessFault view σ fault = σ.answer fault false := by
  have present : ¬ (σ.pte fault.vpn).present = true := by simp [absent]
  have failed : mmFaultDemandPaging view σ fault = (σ, false) := by
    rw [mmFaultDemandPaging]
    split
    · rfl
    · split
      · rfl
      next there =>
        split
        · rfl
        next frame found => exact absurd ⟨by simpa using there, by simp [found]⟩ unserved
  simp only [mmAccessFault, if_neg present, failed]

end Steps

/-- On a view of which no page is present, whatever its protection, the write bit stays away and write
faults are refused in exactly those runs of faults that find no page table or no frame. -/
theorem protection_kept_iff (view : ViewRange) (σ : EntryState) (started : Guarded view σ)
    (fresh : ∀ vpn, view.Holds vpn → (σ.pte vpn).present = false) (faults : List PageFault)
    (inside : ∀ fault ∈ faults, view.Holds fault.vpn) :
    Guarded view (faults.foldl (mmAccessFault view) σ) ↔ ∀ fault ∈ faults, ¬ Served fault := by
  induction faults generalizing σ with
  | nil => exact iff_of_true started fun fault => (absurd · not_mem_nil)
  | cons fault rest ih =>
    have here := inside fault mem_cons_self
    have absent := fresh fault.vpn here
    rw [foldl_cons, forall_mem_cons]
    by_cases served : Served fault
    · refine iff_of_false (fun guarded => ?_) fun unserved => unserved.1 served
      exact served_writable absent here served (guarded.of_extends (extends_accessFaults view rest _))
    · have started' : Guarded view (σ.answer fault false) := by
        refine ⟨started.entries, fun resolved member => ?_⟩
        rcases mem_cons.mp member with same | before
        · exact (Prod.mk.inj same).2
        · exact started.writes resolved before
      rw [unserved_reported absent served,
        ih (σ.answer fault false) started' fresh fun f member => inside f (mem_cons_of_mem _ member)]
      exact ⟨fun others => ⟨served, others⟩, fun all => all.2⟩

/-- A read-only view of one page, without a file. -/
def readOnlyView : ViewRange := ⟨0xC1000, 0xC1000, 0x02, false⟩

def noEntries : EntryState := ⟨fun _ => .invalid, fun _ => 0, [], []⟩

theorem guarded_noEntries (view : ViewRange) : Guarded view noEntries :=
  ⟨fun _ _ => (absurd · not_mem_nil), fun _ => (absurd · not_mem_nil)⟩

/-- A write fault that finds no frame. -/
theorem protection_kept_iff_frameless :
    Guarded readOnlyView ([⟨0xC1000, true, true, none, true⟩].foldl (mmAccessFault readOnlyView) noEntries) ↔
      ∀ fault ∈ [PageFault.mk 0xC1000 true true none true], ¬ Served fault :=
  protection_kept_iff readOnlyView noEntries (guarded_noEntries _) (fun _ _ => rfl) _ (by decide)

/-- A read fault makes the page of a read-only view writable, and a write fault on it is resolved. -/
theorem read_only_widened : readOnlyView.allowsWrite = false ∧
    ((mmAccessFault readOnlyView noEntries ⟨0xC1000, false, true, some 5, true⟩).pte 0xC1000).writable = true ∧
    ¬ Guarded readOnlyView (mmAccessFault readOnlyView noEntries ⟨0xC1000, false, true, some 5, true⟩) ∧
    (mmAccessFault readOnlyView noEntries ⟨0xC1000, true, true, some 5, true⟩).answers = [(true, true)] := by
  refine ⟨by decide, by decide, ?_, by decide⟩
  exact served_writable rfl (by decide) ⟨rfl, rfl⟩

end VeaOS.Mm

import Mathlib.Data.BitVec

/-! Page faults on a file-backed view. A fault takes a frame, makes the page
present, and reads the page through the new mapping, while other threads run. -/
namespace VeaOS.Mm

abbrev PageBytes := Fin 4096 → BitVec 8

/-- The descriptor of a view and the file its control area points to. -/
structure FileView where
  startingVpn : Nat
  endingVpn : Nat
  viewOffset : Nat
  file : List (BitVec 8)

/-- What the file system answers to a read of one page. A read that fails may
have written some bytes before. -/
inductive ReadOutcome where
  | completed (information : Nat)
  | endOfFile
  | failed (left : PageBytes)

/-- Where a thread is in `MmFaultDemandPaging`. -/
inductive FaultPoint (Frame : Type) where
  | outside
  /-- The view is found, no frame taken yet. -/
  | found (vpn : Nat)
  /-- Before the page table entry is written. -/
  | installing (vpn : Nat) (frame : Frame)
  | reading (vpn : Nat) (frame : Frame)
  /-- The read failed; before the page table entry is cleared. -/
  | clearing (vpn : Nat) (frame : Frame)
  /-- Before the frame is freed. -/
  | freeing (frame : Frame)

namespace FaultPoint
variable {Frame : Type}

/-- The frame that a fault has taken and is still responsible for. -/
def frame? : FaultPoint Frame → Option Frame
  | .outside | .found _ => none
  | .installing _ frame | .reading _ frame | .clearing _ frame | .freeing frame => some frame

def page? : FaultPoint Frame → Option (Nat × Frame)
  | .reading vpn frame | .clearing vpn frame => some (vpn, frame)
  | _ => none

theorem frame?_of_page? {point : FaultPoint Frame} (page : point.page? = some (vpn, frame)) :
    point.frame? = some frame := by
  cases point with
  | reading _ _ | clearing _ _ =>
    obtain ⟨⟩ := Option.some.inj page
    rfl
  | _ => cases page

end FaultPoint

/-- `pte` has the frame of each page that is present; `allocated` are the frames
that faults have taken. -/
structure PagingState (Thread Frame : Type) where
  pte : Nat → Option Frame
  memory : Frame → PageBytes
  allocated : Frame → Bool
  point : Thread → FaultPoint Frame

def FileView.fileOffset (view : FileView) (vpn : Nat) : Nat :=
  view.viewOffset + (vpn - view.startingVpn) * 4096

/-- The bytes of the file from an offset on, and zeros beyond its end. -/
def fileBytes (file : List (BitVec 8)) (offset : Nat) : PageBytes :=
  fun i => file.getD (offset + i) 0

/-- The bytes of the target page after the read, and whether it succeeded. -/
def mmpReadPageFromFile (file : List (BitVec 8)) (offset : Nat) : ReadOutcome → PageBytes × Bool
  | .completed information => (fun i => if i < information then fileBytes file offset i else 0, true)
  | .endOfFile => (fun _ => 0, true)
  | .failed left => (left, false)

inductive PagingAction (Thread Frame : Type) where
  | fault (thread : Thread) (vpn : Nat)
  /-- No page table or no frame is left. -/
  | giveUp (thread : Thread)
  | allocate (thread : Thread) (frame : Frame)
  | install (thread : Thread)
  | read (thread : Thread) (outcome : ReadOutcome)
  | clear (thread : Thread)
  | free (thread : Thread)
  /-- Another owner uses a frame that is free here, and frees it again. -/
  | reuse (frame : Frame) (bytes : PageBytes)

variable {Thread Frame : Type} [DecidableEq Thread] [DecidableEq Frame]

namespace PagingState
variable (σ : PagingState Thread Frame)

def goto (thread : Thread) (point : FaultPoint Frame) : PagingState Thread Frame :=
  { σ with point := Function.update σ.point thread point }

def setPte (vpn : Nat) (entry : Option Frame) : PagingState Thread Frame :=
  { σ with pte := Function.update σ.pte vpn entry }

def setMemory (frame : Frame) (bytes : PageBytes) : PagingState Thread Frame :=
  { σ with memory := Function.update σ.memory frame bytes }

def setAllocated (frame : Frame) (allocated : Bool) : PagingState Thread Frame :=
  { σ with allocated := Function.update σ.allocated frame allocated }

section Projections
set_option linter.unusedSectionVars false
variable (thread : Thread) (point : FaultPoint Frame) (vpn : Nat) (entry : Option Frame)
  (frame : Frame) (bytes : PageBytes) (allocated : Bool)

@[simp] theorem goto_point : (σ.goto thread point).point = Function.update σ.point thread point := rfl
@[simp] theorem goto_pte : (σ.goto thread point).pte = σ.pte := rfl
@[simp] theorem goto_memory : (σ.goto thread point).memory = σ.memory := rfl
@[simp] theorem goto_allocated : (σ.goto thread point).allocated = σ.allocated := rfl
@[simp] theorem setPte_point : (σ.setPte vpn entry).point = σ.point := rfl
@[simp] theorem setPte_pte : (σ.setPte vpn entry).pte = Function.update σ.pte vpn entry := rfl
@[simp] theorem setPte_memory : (σ.setPte vpn entry).memory = σ.memory := rfl
@[simp] theorem setPte_allocated : (σ.setPte vpn entry).allocated = σ.allocated := rfl
@[simp] theorem setMemory_point : (σ.setMemory frame bytes).point = σ.point := rfl
@[simp] theorem setMemory_pte : (σ.setMemory frame bytes).pte = σ.pte := rfl
@[simp] theorem setMemory_memory :
    (σ.setMemory frame bytes).memory = Function.update σ.memory frame bytes := rfl
@[simp] theorem setMemory_allocated : (σ.setMemory frame bytes).allocated = σ.allocated := rfl
@[simp] theorem setAllocated_point : (σ.setAllocated frame allocated).point = σ.point := rfl
@[simp] theorem setAllocated_pte : (σ.setAllocated frame allocated).pte = σ.pte := rfl
@[simp] theorem setAllocated_memory : (σ.setAllocated frame allocated).memory = σ.memory := rfl
@[simp] theorem setAllocated_allocated :
    (σ.setAllocated frame allocated).allocated = Function.update σ.allocated frame allocated := rfl

end Projections
end PagingState

/-- One step of `MmFaultDemandPaging` of some thread. The read goes to the frame
that the page has when it is carried out; where the page has none it faults, and
goes on after that fault. -/
def pagingStep (view : FileView) (σ : PagingState Thread Frame) :
    PagingAction Thread Frame → Option (PagingState Thread Frame)
  | .fault thread vpn =>
    match σ.point thread with
    | .outside =>
      if view.startingVpn ≤ vpn ∧ vpn ≤ view.endingVpn then some (σ.goto thread (.found vpn))
      else some σ
    | _ => none
  | .giveUp thread =>
    match σ.point thread with
    | .found _ => some (σ.goto thread .outside)
    | _ => none
  | .allocate thread frame =>
    match σ.point thread with
    | .found vpn =>
      if σ.allocated frame then none
      else some ((σ.setAllocated frame true).goto thread (.installing vpn frame))
    | _ => none
  | .install thread =>
    match σ.point thread with
    | .installing vpn frame => some ((σ.setPte vpn (some frame)).goto thread (.reading vpn frame))
    | _ => none
  | .read thread outcome =>
    match σ.point thread with
    | .reading vpn frame =>
      match σ.pte vpn with
      | none => none
      | some target =>
        let (bytes, success) := mmpReadPageFromFile view.file (view.fileOffset vpn) outcome
        let σ := σ.setMemory target bytes
        some (σ.goto thread (if success then .outside else .clearing vpn frame))
    | _ => none
  | .clear thread =>
    match σ.point thread with
    | .clearing vpn frame => some ((σ.setPte vpn none).goto thread (.freeing frame))
    | _ => none
  | .free thread =>
    match σ.point thread with
    | .freeing frame => some ((σ.setAllocated frame false).goto thread .outside)
    | _ => none
  | .reuse frame bytes =>
    if σ.allocated frame then none else some (σ.setMemory frame bytes)

end VeaOS.Mm

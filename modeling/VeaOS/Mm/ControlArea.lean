import Mathlib.Data.BitVec

/-! The control areas of sections: which counters creation, mapping, unmapping,
closing and deletion change, and when an area is given back to the pool. Each
creation that obtains a control area numbers it, and the section object over it
has the same number; file objects are numbers. -/
namespace VeaOS.Mm.Section

structure ControlArea where
  numberOfSectionReferences : BitVec 32
  numberOfUserReferences : BitVec 32
  numberOfMappedViews : BitVec 32
  filePointer : Option Nat
  image : Bool
  file : Bool
  beingDeleted : Bool
  /-- How often the area was given back to the pool. -/
  freed : Nat

/-- A section object, with the reference count of its header. -/
structure SectionObject where
  controlArea : Nat
  userReference : Bool
  referenceCount : Int
  live : Bool

/-- A descriptor of a view. It is memory of its own: `node` is the four-byte
word at which it starts. -/
structure ViewVad where
  node : BitVec 30
  controlArea : Nat
  deriving DecidableEq

/-- The header of a file object. Of its references, `held` are those of handles
and pointers outside the control areas. -/
structure FileHeader where
  referenceCount : Int
  held : Nat
  deleted : Bool

structure SectionState where
  created : Nat
  area : Nat → ControlArea
  object : Nat → SectionObject
  vads : List ViewVad
  file : Nat → FileHeader

/-- How far `VeaCreateSection` gets: it has no control area, `MiCreateDataFileMap`
fails, `ObCreateObject` fails, `ObInsertObject` fails, or it succeeds. -/
inductive CreateOutcome where
  | noArea
  | noMap
  | noObject
  | notInserted
  | inserted
  deriving DecidableEq

structure CreateCall where
  secImage : Bool
  fileHandle : Option Nat
  fileObject : Option Nat
  outcome : CreateOutcome

namespace ControlArea
variable (area : ControlArea)

def giveBack : ControlArea := { area with beingDeleted := true, freed := area.freed + 1 }

/-- The section object over the area is deleted. -/
def dropSection : ControlArea :=
  if 0 < area.numberOfSectionReferences then
    { area with numberOfSectionReferences := area.numberOfSectionReferences - 1 }
  else area

def dropUser : ControlArea :=
  let users := if 0 < area.numberOfUserReferences then area.numberOfUserReferences - 1
    else area.numberOfUserReferences
  { area with
    numberOfUserReferences := users
    beingDeleted := area.beingDeleted || (users == 0 && area.numberOfSectionReferences == 0) }

def mapView : ControlArea :=
  { area with
    numberOfMappedViews := area.numberOfMappedViews + 1
    numberOfSectionReferences := area.numberOfSectionReferences + 1 }

def unmapView : ControlArea :=
  { area with
    numberOfMappedViews := area.numberOfMappedViews - 1
    numberOfSectionReferences := area.numberOfSectionReferences - 1 }

end ControlArea

def zeroArea : ControlArea := ⟨0, 0, 0, none, false, false, false, 0⟩

namespace SectionState
variable (σ : SectionState)

def setArea (a : Nat) (area : ControlArea) : SectionState :=
  { σ with area := Function.update σ.area a area }

def setObject (i : Nat) (object : SectionObject) : SectionState :=
  { σ with object := Function.update σ.object i object }

def setVads (vads : List ViewVad) : SectionState := { σ with vads }

def setFile (f : Nat) (header : FileHeader) : SectionState :=
  { σ with file := Function.update σ.file f header }

def add (area : ControlArea) (object : SectionObject) : SectionState :=
  { σ with
    area := Function.update σ.area σ.created area
    object := Function.update σ.object σ.created object
    created := σ.created + 1 }

/-- A control area that no section object refers to. -/
def newArea (area : ControlArea) : SectionState :=
  σ.add area ⟨σ.created, false, 0, false⟩

/-- A control area and a section object over it. -/
def newSection (area : ControlArea) (userReference : Bool) : SectionState :=
  σ.add area ⟨σ.created, userReference, 1, true⟩

section Projections
variable (a i f : Nat) (area : ControlArea) (object : SectionObject) (vads : List ViewVad)
  (header : FileHeader)

@[simp] theorem setArea_created : (σ.setArea a area).created = σ.created := rfl
@[simp] theorem setArea_area : (σ.setArea a area).area = Function.update σ.area a area := rfl
@[simp] theorem setArea_object : (σ.setArea a area).object = σ.object := rfl
@[simp] theorem setArea_vads : (σ.setArea a area).vads = σ.vads := rfl
@[simp] theorem setArea_file : (σ.setArea a area).file = σ.file := rfl
@[simp] theorem setObject_created : (σ.setObject i object).created = σ.created := rfl
@[simp] theorem setObject_area : (σ.setObject i object).area = σ.area := rfl
@[simp] theorem setObject_object :
    (σ.setObject i object).object = Function.update σ.object i object := rfl
@[simp] theorem setObject_vads : (σ.setObject i object).vads = σ.vads := rfl
@[simp] theorem setObject_file : (σ.setObject i object).file = σ.file := rfl
@[simp] theorem setVads_created : (σ.setVads vads).created = σ.created := rfl
@[simp] theorem setVads_area : (σ.setVads vads).area = σ.area := rfl
@[simp] theorem setVads_object : (σ.setVads vads).object = σ.object := rfl
@[simp] theorem setVads_vads : (σ.setVads vads).vads = vads := rfl
@[simp] theorem setVads_file : (σ.setVads vads).file = σ.file := rfl
@[simp] theorem setFile_created : (σ.setFile f header).created = σ.created := rfl
@[simp] theorem setFile_area : (σ.setFile f header).area = σ.area := rfl
@[simp] theorem setFile_object : (σ.setFile f header).object = σ.object := rfl
@[simp] theorem setFile_vads : (σ.setFile f header).vads = σ.vads := rfl
@[simp] theorem setFile_file : (σ.setFile f header).file = Function.update σ.file f header := rfl
@[simp] theorem add_created : (σ.add area object).created = σ.created + 1 := rfl
@[simp] theorem add_area : (σ.add area object).area = Function.update σ.area σ.created area := rfl
@[simp] theorem add_object :
    (σ.add area object).object = Function.update σ.object σ.created object := rfl
@[simp] theorem add_vads : (σ.add area object).vads = σ.vads := rfl
@[simp] theorem add_file : (σ.add area object).file = σ.file := rfl

end Projections
end SectionState

def obReferenceFile (σ : SectionState) (f : Nat) : SectionState :=
  σ.setFile f { σ.file f with referenceCount := (σ.file f).referenceCount + 1 }

def obDereferenceFile (σ : SectionState) (f : Nat) : SectionState :=
  let count := (σ.file f).referenceCount - 1
  σ.setFile f { σ.file f with
    referenceCount := count
    deleted := (σ.file f).deleted || count == 0 }

def miCheckControlArea (σ : SectionState) (a : Nat) : SectionState :=
  let area := σ.area a
  if area.numberOfSectionReferences = 0 ∧ area.numberOfUserReferences = 0 then
    let σ := σ.setArea a area.giveBack
    match area.file, area.filePointer with
    | true, some f => obDereferenceFile σ f
    | _, _ => σ
  else σ

def mmpDeleteSection (σ : SectionState) (i : Nat) : SectionState :=
  let a := (σ.object i).controlArea
  miCheckControlArea (σ.setArea a (σ.area a).dropSection) a

/-- The close routine of the section type. `ObCloseHandle` calls no close routine:
it only drops the handle's reference. -/
def mmpCloseSection (σ : SectionState) (i : Nat) (systemHandleCount : Nat) : SectionState :=
  let object := σ.object i
  if systemHandleCount = 1 ∧ object.userReference = true then
    (σ.setObject i { object with userReference := false }).setArea object.controlArea
      (σ.area object.controlArea).dropUser
  else σ

def obReferenceSection (σ : SectionState) (i : Nat) : SectionState :=
  σ.setObject i { σ.object i with referenceCount := (σ.object i).referenceCount + 1 }

def obDereferenceSection (σ : SectionState) (i : Nat) : SectionState :=
  let count := (σ.object i).referenceCount - 1
  if count = 0 then
    mmpDeleteSection (σ.setObject i { σ.object i with referenceCount := count, live := false }) i
  else σ.setObject i { σ.object i with referenceCount := count }

/-- `MmCreateArm3Section` without a file. -/
def createPagingFileSection (σ : SectionState) : CreateOutcome → SectionState
  | .noArea | .noMap => σ
  | .noObject =>
    let σ := σ.newArea { zeroArea with
      numberOfSectionReferences := 1 - 1
      numberOfUserReferences := 1 - 1 }
    miCheckControlArea σ (σ.created - 1)
  | .notInserted | .inserted =>
    σ.newSection { zeroArea with
      numberOfSectionReferences := 1
      numberOfUserReferences := 1 } true

/-- `MmCreateArm3Section` with a file that is no image. -/
def createDataFileSection (σ : SectionState) (f : Nat) (fileHandle : Option Nat) :
    CreateOutcome → SectionState
  | .noArea => if fileHandle.isSome then obDereferenceFile σ f else σ
  | .noMap =>
    let σ := σ.newArea { zeroArea with freed := 1 }
    if fileHandle.isSome then obDereferenceFile σ f else σ
  | .noObject => σ.newArea { zeroArea with filePointer := some f, file := true }
  | .notInserted | .inserted =>
    σ.newSection { zeroArea with filePointer := some f, file := true } true

def mmCreateImageSection (σ : SectionState) (f : Nat) : CreateOutcome → SectionState
  | .noArea | .noMap => σ
  | .noObject =>
    obDereferenceFile ((obReferenceFile σ f).newArea { zeroArea with
      numberOfSectionReferences := 1
      filePointer := some f
      image := true
      file := true
      freed := 1 }) f
  | .notInserted | .inserted =>
    (obReferenceFile σ f).newSection { zeroArea with
      numberOfSectionReferences := 1
      filePointer := some f
      image := true
      file := true } false

def mmCreateArm3Section (σ : SectionState) (call : CreateCall) : SectionState :=
  match call.fileObject, call.fileHandle with
  | none, none => if call.secImage then σ else createPagingFileSection σ call.outcome
  | some f, fileHandle =>
    if call.secImage then
      let σ := mmCreateImageSection σ f call.outcome
      if fileHandle.isSome then obDereferenceFile σ f else σ
    else createDataFileSection σ f fileHandle call.outcome
  | none, some f =>
    let σ := obReferenceFile σ f
    if call.secImage then obDereferenceFile (mmCreateImageSection σ f call.outcome) f
    else createDataFileSection σ f (some f) call.outcome

/-- Where the object is not inserted, `ObInsertObject` drops its only reference,
and `VeaCreateSection` drops it again. -/
def veaCreateSection (σ : SectionState) (call : CreateCall) : SectionState :=
  let σ' := mmCreateArm3Section σ call
  match call.outcome with
  | .notInserted =>
    if σ.created < σ'.created then
      obDereferenceSection (obDereferenceSection σ' σ.created) σ.created
    else σ'
  | _ => σ'

def mmMapViewOfSegment (σ : SectionState) (a : Nat) (node : BitVec 30) : SectionState :=
  (σ.setVads (⟨node, a⟩ :: σ.vads)).setArea a (σ.area a).mapView

def mmUnmapViewOfSection (σ : SectionState) (vad : ViewVad) : SectionState :=
  miCheckControlArea ((σ.setVads (σ.vads.erase vad)).setArea vad.controlArea
    (σ.area vad.controlArea).unmapView) vad.controlArea

inductive SectionAction where
  | create (call : CreateCall)
  | referenceSection (i : Nat)
  /-- A handle is closed, or a pointer released. -/
  | dereferenceSection (i : Nat)
  | closeRoutine (i systemHandleCount : Nat)
  | map (i : Nat) (node : BitVec 30)
  | unmap (vad : ViewVad)
  | referenceFile (f : Nat)
  | dereferenceFile (f : Nat)

/-- Who calls has a reference to what it calls on, and a new descriptor is memory
that no other one uses. -/
def Callable (σ : SectionState) : SectionAction → Prop
  | .create call => ∀ f, (call.fileHandle = some f ∨ call.fileObject = some f) → 0 < (σ.file f).held
  | .referenceSection i | .dereferenceSection i | .closeRoutine i _ => (σ.object i).live = true
  | .map i node => (σ.object i).live = true ∧ ∀ v ∈ σ.vads, v.node ≠ node
  | .unmap vad => vad ∈ σ.vads
  | .referenceFile f | .dereferenceFile f => 0 < (σ.file f).held

def sectionStep (σ : SectionState) : SectionAction → SectionState
  | .create call => veaCreateSection σ call
  | .referenceSection i => obReferenceSection σ i
  | .dereferenceSection i => obDereferenceSection σ i
  | .closeRoutine i systemHandleCount => mmpCloseSection σ i systemHandleCount
  | .map i node => mmMapViewOfSegment σ (σ.object i).controlArea node
  | .unmap vad => mmUnmapViewOfSection σ vad
  | .referenceFile f =>
    let σ := obReferenceFile σ f
    σ.setFile f { σ.file f with held := (σ.file f).held + 1 }
  | .dereferenceFile f =>
    obDereferenceFile (σ.setFile f { σ.file f with held := (σ.file f).held - 1 }) f

def SectionStep (σ : SectionState) (action : SectionAction) (σ' : SectionState) : Prop :=
  Callable σ action ∧ sectionStep σ action = σ'

/-- No section yet; each file object has the references that are held to it. -/
def SectionState.start (held : Nat → Nat) : SectionState where
  created := 0
  area _ := zeroArea
  object _ := ⟨0, false, 0, false⟩
  vads := []
  file f := ⟨held f, held f, false⟩

end VeaOS.Mm.Section

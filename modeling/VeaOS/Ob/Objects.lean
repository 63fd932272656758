import VeaOS.Ob.Lookup
import VeaOS.Sf.AccessCheck
import VeaOS.Ul.HandleTable
import Mathlib.Data.List.DropRight

/-! The objects, their reference counts, the directories and the handle tables,
with the operations of the life cycle. A parse routine is a function of the
lookup it runs in. The reference that a deleted link held to its target is
given up by a step of its own. -/
namespace VeaOS.Ob
open Sf Ul

/-- The attribute bits that the operations test. -/
structure Attributes where
  permanent : Bool
  caseInsensitive : Bool
  kernelHandle : Bool
  deriving DecidableEq, Repr

structure ObjectAttributes where
  rootDirectory : Handle
  objectName : List Char
  attributes : Attributes

/-- `OB_CREATE_INFO`, with the copy of the name in the attributes. -/
structure CreateInfo where
  attributes : ObjectAttributes
  processorMode : KProcessorMode

structure NameInfo where
  directory : Option Object
  name : Option (List Char)

/-- `nameInfo` is there if `OB_FLAG_HAS_NAME_INFO` is set, `permanent` is
`OB_FLAG_PERMANENT`. The count is an integer without a bound. -/
structure ObjectHeader where
  referenceCount : Int
  type : ObjectType
  permanent : Bool
  nameInfo : Option NameInfo
  securityDescriptor : Option VeaSecurityDescriptor
  createInfo : Option CreateInfo

/-- The kernel's table, or the table of a process. -/
abbrev TableId := Option Nat

abbrev ObjectTable := HandleTable Object Nat

/-- `nextObject` is the next allocation; `deleted` counts how often an object
was taken apart. -/
structure ObState where
  header : Object → ObjectHeader
  entries : Object → List Object
  link : Object → SymbolicLink
  rootDirectoryObject : Option Object
  kernelTable : ObjectTable
  processTable : Nat → Option ObjectTable
  genericMapping : ObjectType → GenericMapping
  nextObject : Object
  deleted : Object → Nat

/-- Who calls: the current process and thread, and the token of the process. -/
structure Caller where
  process : Option Nat
  thread : Nat
  token : Option VeaToken

namespace ObState

def setHeader (σ : ObState) (object : Object) (header : ObjectHeader) : ObState :=
  { σ with header := Function.update σ.header object header }

def setCount (σ : ObState) (object : Object) (count : Int) : ObState :=
  σ.setHeader object { σ.header object with referenceCount := count }

def setPermanent (σ : ObState) (object : Object) (permanent : Bool) : ObState :=
  σ.setHeader object { σ.header object with permanent := permanent }

def setNameInfo (σ : ObState) (object : Object) (nameInfo : Option NameInfo) : ObState :=
  σ.setHeader object { σ.header object with nameInfo := nameInfo }

def setCreateInfo (σ : ObState) (object : Object) (createInfo : Option CreateInfo) : ObState :=
  σ.setHeader object { σ.header object with createInfo := createInfo }

def setEntries (σ : ObState) (directory : Object) (entries : List Object) : ObState :=
  { σ with entries := Function.update σ.entries directory entries }

def table (σ : ObState) : TableId → Option ObjectTable
  | none => some σ.kernelTable
  | some process => σ.processTable process

def setTable (σ : ObState) (id : TableId) (table : ObjectTable) : ObState :=
  match id with
  | none => { σ with kernelTable := table }
  | some process => { σ with processTable := Function.update σ.processTable process (some table) }

def namespaceAt (σ : ObState) (root : Object) : Namespace where
  type := fun object => (σ.header object).type
  name := fun object => (σ.header object).nameInfo.bind NameInfo.name
  entries := σ.entries
  link := σ.link
  root := root

end ObState

/-- `NameInfo->Directory = NULL`, where there is name information. -/
def clearDirectory (σ : ObState) (object : Object) : ObState :=
  σ.setNameInfo object ((σ.header object).nameInfo.map fun info => { info with directory := none })

def obpRemoveEntryDirectory (σ : ObState) (object : Object) : ObState :=
  match (σ.header object).nameInfo.bind NameInfo.directory with
  | none => σ
  | some directory =>
    if object ∈ σ.entries directory then
      clearDirectory (σ.setEntries directory ((σ.entries directory).erase object)) object
    else σ

/-- The comparison of two names in `ObpInsertDirectory`. -/
def sameName : List Char → List Char → Bool
  | [], [] => true
  | c₁ :: s₁, c₂ :: s₂ => lowerCase c₁ == lowerCase c₂ && sameName s₁ s₂
  | _, _ => false

def obReferenceObject (σ : ObState) (object : Object) : ObState :=
  σ.setCount object ((σ.header object).referenceCount + 1)

/-- The delete routine of the type; a link gives up its target. -/
def deleteRoutine (σ : ObState) (object : Object) : ObState :=
  { σ with
    deleted := Function.update σ.deleted object (σ.deleted object + 1)
    link := if (σ.header object).type = .symbolicLink then Function.update σ.link object ⟨[], none⟩ else σ.link }

/-- The delete routine runs, the name is taken out of its directory, and the
name and the create information are freed with the object. The entries of a
directory stay listed here, though their list head is freed with it: what is
said of entries asks that their directory was not destroyed. -/
def destroyObject (σ : ObState) (object : Object) : ObState :=
  let detached := obpRemoveEntryDirectory (deleteRoutine σ object) object
  let header := detached.header object
  detached.setHeader object
    { header with
      nameInfo := header.nameInfo.map fun info => { info with name := none }
      createInfo := none }

def obDereferenceObject (σ : ObState) (object : Object) : ObState :=
  let count := (σ.header object).referenceCount - 1
  let σ := σ.setCount object count
  if count = 0 then
    if (σ.header object).permanent then σ else destroyObject σ object
  else σ

def obpInsertDirectory (σ : ObState) (directory object : Object) (entryAllocated : Bool) :
    ObState × VeaStatus :=
  match (σ.header object).nameInfo with
  | none => (σ, .invalidParameter)
  | some newNameInfo =>
    let newName := newNameInfo.name.getD []
    if (σ.entries directory).any fun existing =>
        ((σ.header existing).nameInfo.bind NameInfo.name).any (sameName · newName) then
      (σ, .objectNameCollision)
    else if !entryAllocated then (σ, .insufficientResources)
    else ((obReferenceObject σ object).setEntries directory (σ.entries directory ++ [object]), .success)

def obpDeleteNameCheck (σ : ObState) (object : Object) : ObState :=
  if (σ.header object).permanent then σ
  else match (σ.header object).nameInfo.bind NameInfo.directory with
    | none => σ
    | some _ => obpRemoveEntryDirectory σ object

def obMakeTemporaryObject (σ : ObState) (object : Object) : ObState :=
  obpDeleteNameCheck (σ.setPermanent object false) object

def obMarkHandleAsKernelHandle (handle : Handle) : Handle := handle ||| kernelHandleFlag

def obpCheckAccess (σ : ObState) (caller : Caller) (object : Object) (accessMode : KProcessorMode)
    (token : Option VeaToken) (desiredAccess : AccessMask) : Option AccessMask :=
  if accessMode ≠ .userMode then some desiredAccess
  else
    let header := σ.header object
    match sfAccessCheck header.securityDescriptor (token.orElse fun _ => caller.token) desiredAccess
        (some (σ.genericMapping header.type)) (some 0) with
    | (true, granted) => granted
    | (false, _) => none

def obpCreateHandle (σ : ObState) (caller : Caller) (object : Object) (attributes : Attributes)
    (accessMode : KProcessorMode) (grantedAccess : AccessMask) : ObState × VeaStatus × Handle :=
  let isKernel := attributes.kernelHandle || caller.process.isNone
  if isKernel ∧ accessMode = .userMode then (σ, .invalidParameter, 0)
  else
    let id := if isKernel then none else caller.process
    match σ.table id with
    | none => (σ, .invalidParameter, 0)
    | some table =>
      let referenced := obReferenceObject σ object
      match ulCreateHandle table (some object) grantedAccess caller.thread with
      | (table, handle) =>
        if handle = 0 then (obDereferenceObject referenced object, .insufficientResources, 0)
        else (referenced.setTable id table, .success,
          if isKernel then obMarkHandleAsKernelHandle handle else handle)

/-- The table that a handle is looked up in, and the handle without the flag. -/
def tableIdOf (caller : Caller) (handle : Handle) (mode : KProcessorMode) : Option TableId × Handle :=
  if obpIsKernelHandle handle mode then (some none, obKernelHandleToHandle handle)
  else (caller.process.map some, handle)

/-- `UlDestroyHandle`, with what it does after the lock is released. -/
def destroyHandle (σ : ObState) (id : TableId) (handle : Handle) : ObState :=
  match σ.table id with
  | none => σ
  | some table =>
    match ulDestroyHandle table handle with
    | (_, _, none) => σ
    | (table, _, some object) =>
      obDereferenceObject (obpDeleteNameCheck (σ.setTable id table) object) object

def obCloseHandle (σ : ObState) (caller : Caller) (handle : Handle) (mode : KProcessorMode) : ObState :=
  if handle = 0 then σ
  else match tableIdOf caller handle mode with
    | (none, _) => σ
    | (some id, handle) => destroyHandle σ id handle

def VeaStatus.ofUl : Ul.VeaStatus → VeaStatus
  | .success => .success
  | .invalidParameter => .invalidParameter
  | .invalidHandle => .invalidHandle
  | .objectTypeMismatch => .objectTypeMismatch
  | .accessDenied => .accessDenied

/-- How `ObpLookupObjectName` is called. -/
structure LookupCall where
  attributes : ObjectAttributes
  accessMode : KProcessorMode
  expectedType : Option ObjectType
  insertMode : Bool

def LookupCall.request (call : LookupCall) (rootObject : Option Object) : LookupRequest :=
  ⟨call.attributes.objectName, rootObject, call.expectedType, call.attributes.attributes.caseInsensitive,
    call.insertMode⟩

/-- The object that `RootDirectory` stands for. -/
def referenceRootDirectory (σ : ObState) (caller : Caller) (call : LookupCall) :
    VeaStatus × Option Object :=
  if call.attributes.rootDirectory = 0 then (.success, none)
  else
    let found := obReferenceObjectByHandle (fun object => (σ.header object).type) σ.kernelTable
      (caller.process.bind σ.processTable) call.attributes.rootDirectory 0 none call.accessMode
    (.ofUl found.1, found.2)

/-- The reference of `RootDirectory` is held during the walk and given up after
the reference of the result was taken. No name is looked up before there is a
root directory. -/
def obpLookupObjectName (σ : ObState) (caller : Caller) (parse : Object → List Char → ParseOutcome)
    (call : LookupCall) : ObState × LookupResult :=
  match σ.rootDirectoryObject with
  | none => (σ, ⟨.objectPathNotFound, none, 0⟩)
  | some root =>
    match referenceRootDirectory σ caller call with
    | (.success, rootObject) =>
      let result := lookupObjectName (σ.namespaceAt root) parse (call.request rootObject)
      let σ := (rootObject.map (obReferenceObject σ)).getD σ
      let σ := (result.foundObject.map (obReferenceObject σ)).getD σ
      ((rootObject.map (obDereferenceObject σ)).getD σ, result)
    | (status, _) => (σ, ⟨status, none, root⟩)

def obpCheckUnsecureName (name : List Char) (accessMode : KProcessorMode) : Bool :=
  let illegal (c : Char) : Bool :=
    c.toNat < 32 || c.toNat == 127 || c == '*' || c == '<' || c == '>' || c == '"' || c == '|' ||
      c == '?' && accessMode == .userMode
  let rec doubled : List Char → Bool
    | c :: d :: rest => isSeparator c && isSeparator d || doubled (d :: rest)
    | _ => false
  (name.getLast?.any fun c => c == ' ' || c == '.') && accessMode == .userMode ||
    name.any illegal || doubled name || name == ['.'] || name == ['.', '.']

/-- What follows the last separator of a name. -/
def finalName (name : List Char) : List Char := name.rtakeWhile (!isSeparator ·)

/-- What the caller of `ObInsertObject` passes, and which of its allocations succeed. -/
structure InsertCall where
  accessToken : Option VeaToken
  desiredAccess : AccessMask
  objectPointerBias : Nat
  newObject : Bool
  handle : Bool
  nameAllocated : Bool
  entryAllocated : Bool

/-- The lookup and the directory insertion for a name below the root directory. -/
def insertName (σ : ObState) (caller : Caller) (parse : Object → List Char → ParseOutcome)
    (object : Object) (info : CreateInfo) (call : InsertCall) : ObState × VeaStatus :=
  match obpLookupObjectName σ caller parse
      ⟨info.attributes, info.processorMode, some (σ.header object).type, true⟩ with
  | (σ, result) =>
    match result.status, result.foundObject with
    | .success, some found => (obDereferenceObject σ found, .objectNameCollision)
    | status, _ =>
      if !status.isSuccess then (σ, status)
      else
        let targetDirectory := result.currentDirectory
        let isDirectory := (σ.header targetDirectory).type = .directory
        let name := (finalName info.attributes.objectName).takeWhile (· != '\x00')
        let named :=
          if (σ.header object).nameInfo.isNone then some σ
          else if !call.nameAllocated then none
          else some (σ.setNameInfo object
            (some ⟨if isDirectory then some targetDirectory else none, some name⟩))
        match named with
        | none => (σ, .insufficientResources)
        | some σ =>
          if isDirectory then obpInsertDirectory σ targetDirectory object call.entryAllocated
          else (σ, .success)

/-- The name stage of `ObInsertObject`; the first object with a name is the root directory. -/
def insertStage (σ : ObState) (caller : Caller) (parse : Object → List Char → ParseOutcome)
    (object : Object) (info : CreateInfo) (call : InsertCall) : ObState × VeaStatus :=
  if info.attributes.objectName = [] then (σ, .success)
  else match σ.rootDirectoryObject with
    | none =>
      if (σ.header object).type ≠ .directory ∨ info.attributes.objectName ≠ ['/'] then
        (σ, .objectPathNotFound)
      else ({ clearDirectory σ object with rootDirectoryObject := some object }, .success)
    | some _ => insertName σ caller parse object info call

/-- The access check and the handle of `ObInsertObject`. -/
def handleStage (σ : ObState) (caller : Caller) (object : Object) (info : CreateInfo) (call : InsertCall) :
    ObState × VeaStatus × Handle :=
  if !call.handle then (σ, .success, 0)
  else match obpCheckAccess σ caller object info.processorMode call.accessToken call.desiredAccess with
    | none => (σ, .accessDenied, 0)
    | some granted => obpCreateHandle σ caller object info.attributes.attributes info.processorMode granted

/-- The exit of `ObInsertObject` for every failure. -/
def insertFailed (σ : ObState) (caller : Caller) (object : Object) (newHandle : Handle) : ObState :=
  let σ := clearDirectory σ object
  let σ := if newHandle = 0 then σ else obCloseHandle σ caller newHandle .kernelMode
  obDereferenceObject σ object

def insertRefused (name : List Char) (info : CreateInfo) (call : InsertCall) : Option VeaStatus :=
  if call.objectPointerBias ≠ 0 ∧ call.newObject = false then some .invalidParameter
  else if name ≠ [] ∧ obpCheckUnsecureName name info.processorMode then some .objectNameInvalid
  else if call.handle ∧ info.processorMode = .userMode ∧ info.attributes.attributes.kernelHandle then
    some .invalidParameter
  else none

/-- `ObInsertObject` for an object that `ObCreateObject` made; a failure returns
no handle. -/
def obInsertObject (σ : ObState) (caller : Caller) (parse : Object → List Char → ParseOutcome)
    (object : Object) (info : CreateInfo) (call : InsertCall) : ObState × VeaStatus × Handle :=
  let σ := if info.attributes.attributes.permanent then σ.setPermanent object true else σ
  match insertRefused info.attributes.objectName info call with
  | some status => (insertFailed σ caller object 0, status, 0)
  | none =>
    match handleStage σ caller object info call with
    | (σ, status, newHandle) =>
      if !status.isSuccess then (insertFailed σ caller object 0, status, 0)
      else match insertStage σ caller parse object info call with
        | (σ, status) =>
          if !status.isSuccess then (insertFailed σ caller object newHandle, status, 0)
          else
            let σ :=
              if call.newObject then (obReferenceObject · object)^[call.objectPointerBias] σ
              else obDereferenceObject σ object
            (σ.setCreateInfo object none, .success, newHandle)

/-- `ObCreateObject`. The body is what the creator writes into it; the flags say
whether the object, its create routine and the create information succeed. -/
def obCreateObject (σ : ObState) (type : ObjectType) (info : CreateInfo)
    (securityDescriptor : Option VeaSecurityDescriptor) (body : SymbolicLink)
    (objectAllocated infoAllocated : Bool) : ObState × VeaStatus :=
  if !objectAllocated then (σ, .insufficientResources)
  else
    let object := σ.nextObject
    let nameInfo := if info.attributes.objectName = [] then none else some ⟨none, none⟩
    let σ := { (σ.setHeader object ⟨1, type, false, nameInfo, securityDescriptor, none⟩).setEntries object [] with
      link := Function.update σ.link object body
      nextObject := object + 1 }
    if !infoAllocated then (obDereferenceObject σ object, .insufficientResources)
    else (σ.setCreateInfo object (some info), .success)

def obOpenObjectByName (σ : ObState) (caller : Caller) (parse : Object → List Char → ParseOutcome)
    (attributes : ObjectAttributes) (expectedType : Option ObjectType) (accessMode : KProcessorMode)
    (desiredAccess : AccessMask) : ObState × VeaStatus × Handle :=
  match obpLookupObjectName σ caller parse ⟨attributes, accessMode, expectedType, false⟩ with
  | (σ, result) =>
    if !result.status.isSuccess then (σ, result.status, 0)
    else match result.foundObject with
      | none => (σ, .objectNameNotFound, 0)
      | some found =>
        match obpCheckAccess σ caller found accessMode none desiredAccess with
        | none => (obDereferenceObject σ found, .accessDenied, 0)
        | some granted =>
          match obpCreateHandle σ caller found attributes.attributes accessMode granted with
          | (σ, status, handle) => (obDereferenceObject σ found, status, handle)

end VeaOS.Ob

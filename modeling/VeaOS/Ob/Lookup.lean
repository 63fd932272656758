import VeaOS.Foundation.DelimitedText
import Mathlib.Data.BitVec

/-! The lookup of a path. The remaining name is a pointer and a length into the
caller's string or into the reparse buffer of the lookup context, and a parse
routine of a link writes into that buffer while the pointer may be in it. -/
namespace VeaOS.Ob
open Foundation
open List (ext_getElem getD_eq_getElem?_getD getElem?_eq_getElem getElem_drop getElem_map getElem_range'
  length_drop length_map length_pos_of_ne_nil length_range' takeWhile_sublist)

/-- An object is named by the allocation that made it. -/
abbrev Object := Nat

inductive VeaStatus where
  | success
  | invalidParameter
  | invalidHandle
  | objectTypeMismatch
  | accessDenied
  | insufficientResources
  | objectNameInvalid
  | objectNameNotFound
  | objectNameCollision
  | objectPathNotFound
  | reparseObjectMayLoop
  | other (value : BitVec 32)
  deriving DecidableEq, Repr

/-- `VEA_SUCCESS`: the sign of the status. -/
def VeaStatus.isSuccess : VeaStatus → Bool
  | .success => true
  | .other value => !value.msb
  | _ => false

/-- The types that the lookup tells apart: the directory type has no parse
routine, the link type has `ObpParseSymbolicLink`, any other may have its own. -/
inductive ObjectType where
  | directory
  | symbolicLink
  | other (typeId : Nat) (parseRoutine : Bool)
  deriving DecidableEq, Repr

structure SymbolicLink where
  linkTarget : List Char
  targetObject : Option Object

/-- What a lookup reads of the objects. `name` is the name buffer in the name
information of an object, `none` where there is no buffer to read. -/
structure Namespace where
  type : Object → ObjectType
  name : Object → Option (List Char)
  entries : Object → List Object
  link : Object → SymbolicLink
  root : Object

def isSeparator (c : Char) : Bool := c == '/' || c == '\\'

def lowerCase (c : Char) : Char := if 'A' ≤ c ∧ c ≤ 'Z' then Char.ofNat (c.toNat + 32) else c

def foldCase (caseInsensitive : Bool) (c : Char) : Char := if caseInsensitive then lowerCase c else c

def obpMatchToken (caseInsensitive : Bool) : List Char → List Char → Bool
  | [], entryName => entryName.isEmpty
  | _ :: _, [] => false
  | c₂ :: token, c₁ :: entryName =>
    foldCase caseInsensitive c₁ == foldCase caseInsensitive c₂ &&
      obpMatchToken caseInsensitive token entryName

def obpLookupEntryDirectory (N : Namespace) (directory : Object) (token : List Char)
    (caseInsensitive : Bool) : Option Object :=
  (N.entries directory).find? fun object => (N.name object).any (obpMatchToken caseInsensitive token)

/-- The array that `RemainingName.Buffer` points into. -/
inductive NameArray where
  | objectName
  | reparseBuffer
  deriving DecidableEq, Repr

structure LookupContext where
  currentDirectory : Object
  array : NameArray
  offset : Nat
  length : Nat
  reparseBuffer : Nat → Char
  reparseCount : Nat

/-- What a lookup is asked for. `rootObject` is the object that the handle in
`RootDirectory` stands for. -/
structure LookupRequest where
  objectName : List Char
  rootObject : Option Object
  expectedType : Option ObjectType
  caseInsensitive : Bool
  insertMode : Bool

structure LookupResult where
  status : VeaStatus
  foundObject : Option Object
  currentDirectory : Object
  deriving DecidableEq, Repr

/-- What a parse routine other than the link's answers for an object and the
remaining name, within one lookup. -/
inductive ParseOutcome where
  | resolved (object : Option Object)
  | reparse (path : List Char)
  | failed (status : VeaStatus)
  deriving DecidableEq, Repr

def readName (objectName : List Char) (array : NameArray) (buffer : Nat → Char) (i : Nat) : Char :=
  match array with
  | .objectName => objectName.getD i '\x00'
  | .reparseBuffer => buffer i

namespace LookupContext

def remainingName (objectName : List Char) (ctx : LookupContext) : List Char :=
  (List.range' ctx.offset ctx.length).map (readName objectName ctx.array ctx.reparseBuffer)

/-- `RemainingName.Buffer += n; RemainingName.Length -= n`. -/
def advance (ctx : LookupContext) (n : Nat) : LookupContext :=
  { ctx with offset := ctx.offset + n, length := ctx.length - n }

def skipSeparators (objectName : List Char) (ctx : LookupContext) : LookupContext :=
  ctx.advance ((ctx.remainingName objectName).takeWhile isSeparator).length

def moveTo (ctx : LookupContext) (object : Object) : LookupContext :=
  { ctx with currentDirectory := object }

end LookupContext

def obpGetNextPathToken (objectName : List Char) (ctx : LookupContext) :
    LookupContext × Option (List Char) :=
  let skipped := ctx.skipSeparators objectName
  let token := (skipped.remainingName objectName).takeWhile fun c => !isSeparator c && c != '\x00'
  if token = [] then ({ skipped with length := 0 }, none)
  else (skipped.advance token.length, some token)

/-- `sizeof(ReparseBuffer) - 1`. -/
def maxLen : Nat := 511

/-- The loop that copies the link target; `tempLen` characters are written. -/
def copyTarget : List Char → (Nat → Char) → Nat → (Nat → Char) × Nat
  | [], buffer, tempLen => (buffer, tempLen)
  | c :: target, buffer, tempLen =>
    if tempLen < maxLen then copyTarget target (Function.update buffer tempLen c) (tempLen + 1)
    else (buffer, tempLen)

/-- The loop that copies `remLen` characters of the remaining name from `remBuf`
on, each one read when its turn comes. -/
def copyRemaining (objectName : List Char) (array : NameArray) :
    Nat → Nat → (Nat → Char) → Nat → (Nat → Char) × Nat
  | 0, _, buffer, tempLen => (buffer, tempLen)
  | remLen + 1, remBuf, buffer, tempLen =>
    if tempLen < maxLen then
      copyRemaining objectName array remLen (remBuf + 1)
        (Function.update buffer tempLen (readName objectName array buffer remBuf)) (tempLen + 1)
    else (buffer, tempLen)

/-- The reparse of a link with a target path. -/
def substituteTarget (objectName linkTarget : List Char) (ctx : LookupContext) : LookupContext :=
  let (buffer, tempLen) := copyTarget linkTarget ctx.reparseBuffer 0
  let rem := LookupContext.skipSeparators objectName { ctx with reparseBuffer := buffer }
  let (buffer, tempLen) :=
    if rem.length = 0 then (buffer, tempLen)
    else
      let (buffer, tempLen) :=
        if 0 < tempLen ∧ isSeparator (buffer (tempLen - 1)) = false ∧ tempLen < maxLen then
          (Function.update buffer tempLen '/', tempLen + 1)
        else (buffer, tempLen)
      copyRemaining objectName ctx.array rem.length rem.offset buffer tempLen
  { ctx with
    array := .reparseBuffer
    offset := 0
    length := tempLen
    reparseBuffer := Function.update buffer tempLen '\x00' }

/-- The reparse of another parse routine, which has checked the length of its path. -/
def LookupContext.restart (ctx : LookupContext) (path : List Char) : LookupContext :=
  { ctx with
    array := .reparseBuffer
    offset := 0
    length := path.length
    reparseBuffer := fun i => path.getD i '\x00' }

def obpParseSymbolicLink (link : SymbolicLink) (objectName : List Char) (ctx : LookupContext) :
    LookupContext ⊕ Object :=
  match link.targetObject with
  | some target => .inr target
  | none => .inl (substituteTarget objectName link.linkTarget ctx)

/-- `++ReparseCount > 32`, after which the lookup gives up. -/
def countReparse (ctx : LookupContext) (next : LookupContext) : LookupContext ⊕ LookupResult :=
  if 32 < ctx.reparseCount + 1 then .inr ⟨.reparseObjectMayLoop, none, ctx.currentDirectory⟩
  else .inl { next with reparseCount := ctx.reparseCount + 1 }

def reparseDirectory (N : Namespace) (request : LookupRequest) (ctx : LookupContext) : Object :=
  if isSeparator (ctx.reparseBuffer 0) then N.root
  else request.rootObject.getD ctx.currentDirectory

def finishLookup (N : Namespace) (request : LookupRequest) (object current : Object) : LookupResult :=
  if ∃ type ∈ request.expectedType, N.type object ≠ type then ⟨.objectTypeMismatch, none, current⟩
  else ⟨.success, some object, current⟩

def ObjectType.hasParseRoutine : ObjectType → Bool
  | .directory => false
  | .symbolicLink => true
  | .other _ parseRoutine => parseRoutine

/-- An object that was found in a directory is the current one, or the result. -/
def enterObject (N : Namespace) (request : LookupRequest) (ctx : LookupContext) (object : Object) :
    LookupContext ⊕ LookupResult :=
  let next := (ctx.moveTo object).skipSeparators request.objectName
  if next.length = 0 ∧ (N.type object).hasParseRoutine = false then
    .inr (finishLookup N request object object)
  else .inl next

/-- One round of the loop of `ObpLookupObjectName`. -/
def lookupStep (N : Namespace) (parse : Object → List Char → ParseOutcome) (request : LookupRequest)
    (ctx : LookupContext) : LookupContext ⊕ LookupResult :=
  let current := ctx.currentDirectory
  match N.type current with
  | .symbolicLink =>
    match obpParseSymbolicLink (N.link current) request.objectName ctx with
    | .inr target => countReparse ctx ((ctx.skipSeparators request.objectName).moveTo target)
    | .inl reparsed => countReparse ctx (reparsed.moveTo (reparseDirectory N request reparsed))
  | .other _ true =>
    match parse current (ctx.remainingName request.objectName) with
    | .resolved none =>
      .inr ⟨if request.insertMode then .success else .objectNameNotFound, none, current⟩
    | .resolved (some object) => .inr (finishLookup N request object current)
    | .reparse path =>
      countReparse ctx ((ctx.restart path).moveTo (reparseDirectory N request (ctx.restart path)))
    | .failed status => .inr ⟨status, none, current⟩
  | .other _ false => .inr ⟨.objectTypeMismatch, none, current⟩
  | .directory =>
    match obpGetNextPathToken request.objectName ctx with
    | (_, none) => .inr (finishLookup N request current current)
    | (next, some token) =>
      match obpLookupEntryDirectory N current token request.caseInsensitive with
      | none =>
        .inr ⟨if request.insertMode ∧ next.length = 0 then .success else .objectNameNotFound,
          none, current⟩
      | some object => enterObject N request next object

namespace LookupContext
variable {name : List Char} {ctx : LookupContext}

@[simp] theorem remainingName_length (name : List Char) (ctx : LookupContext) :
    (ctx.remainingName name).length = ctx.length := by
  simp only [remainingName, length_map, length_range']

@[simp] theorem advance_length : (ctx.advance n).length = ctx.length - n := rfl

@[simp] theorem remainingName_advance : (ctx.advance n).remainingName name = (ctx.remainingName name).drop n := by
  apply ext_getElem
  · simp only [remainingName_length, advance_length, length_drop]
  · intro i _ _
    simp only [remainingName, advance, getElem_map, getElem_range', getElem_drop]
    congr 1
    omega

@[simp] theorem remainingName_moveTo : (ctx.moveTo object).remainingName name = ctx.remainingName name := rfl

theorem remainingName_skip :
    (ctx.skipSeparators name).remainingName name = (ctx.remainingName name).dropWhile isSeparator := by
  rw [skipSeparators, remainingName_advance]
  exact drop_takeWhile ..

theorem skip_length_le (name : List Char) : (ctx.skipSeparators name).length ≤ ctx.length := Nat.sub_le ..

end LookupContext

theorem obpGetNextPathToken_length (found : obpGetNextPathToken name ctx = (next, some token)) :
    next.length < ctx.length := by
  rw [obpGetNextPathToken] at found
  split at found
  next => cases found
  next nonempty =>
    obtain ⟨rfl, _⟩ := Prod.mk.inj found
    have fits := (takeWhile_sublist (fun c => !isSeparator c && c != '\x00')
      (l := (ctx.skipSeparators name).remainingName name)).length_le
    rw [LookupContext.remainingName_length] at fits
    have positive := length_pos_of_ne_nil nonempty
    have skipped := ctx.skip_length_le name
    rw [LookupContext.advance_length]
    omega

/-- What a round of the loop uses up: a reparse, or characters of the name. -/
def LookupContext.Closer (next ctx : LookupContext) : Prop :=
  Prod.Lex (· < ·) (· < ·) (33 - next.reparseCount, next.length) (33 - ctx.reparseCount, ctx.length)

theorem countReparse_closer (counted : countReparse ctx reparsed = .inl next) : next.Closer ctx := by
  rw [countReparse] at counted
  split at counted
  next => cases counted
  next below =>
    obtain rfl := Sum.inl.inj counted
    exact .left _ _ (by dsimp only; omega)

theorem obpGetNextPathToken_count (name : List Char) (ctx : LookupContext) :
    (obpGetNextPathToken name ctx).1.reparseCount = ctx.reparseCount := by
  rw [obpGetNextPathToken]
  split <;> rfl

theorem enterObject_closer (found : obpGetNextPathToken request.objectName ctx = (following, some token))
    (entered : enterObject N request following object = .inl next) : next.Closer ctx := by
  have taken := obpGetNextPathToken_length found
  have count : following.reparseCount = ctx.reparseCount := by
    rw [← obpGetNextPathToken_count request.objectName ctx, found]
  rw [enterObject] at entered
  split at entered
  next => cases entered
  next =>
    obtain rfl := Sum.inl.inj entered
    have skipped := (following.moveTo object).skip_length_le request.objectName
    exact Prod.lex_def.mpr (Or.inr ⟨congrArg (33 - ·) count, skipped.trans_lt taken⟩)

theorem lookupStep_closer (stepped : lookupStep N parse request ctx = .inl next) : next.Closer ctx := by
  rw [lookupStep] at stepped
  split at stepped
  next =>
    split at stepped
    next => exact countReparse_closer stepped
    next => exact countReparse_closer stepped
  next =>
    split at stepped
    next => cases stepped
    next => cases stepped
    next => exact countReparse_closer stepped
    next => cases stepped
  next => cases stepped
  next =>
    split at stepped
    next => cases stepped
    next found =>
      split at stepped
      next => cases stepped
      next => exact enterObject_closer found stepped

/-- The loop ends for every namespace, also where links lead around in circles. -/
def lookupLoop (N : Namespace) (parse : Object → List Char → ParseOutcome) (request : LookupRequest)
    (ctx : LookupContext) : LookupResult :=
  match _stepped : lookupStep N parse request ctx with
  | .inr result => result
  | .inl next => lookupLoop N parse request next
termination_by (33 - ctx.reparseCount, ctx.length)
decreasing_by exact lookupStep_closer _stepped

theorem lookupLoop_done (stepped : lookupStep N parse request ctx = .inr result) :
    lookupLoop N parse request ctx = result := by
  rw [lookupLoop]
  split
  next other => exact Sum.inr.inj (other.symm.trans stepped)
  next other => cases other.symm.trans stepped

theorem lookupLoop_next (stepped : lookupStep N parse request ctx = .inl next) :
    lookupLoop N parse request ctx = lookupLoop N parse request next := by
  rw [lookupLoop]
  split
  next other => cases other.symm.trans stepped
  next other => rw [Sum.inl.inj (other.symm.trans stepped)]

def LookupRequest.start (request : LookupRequest) (N : Namespace) : Object := request.rootObject.getD N.root

def LookupContext.initial (objectName : List Char) (directory : Object) : LookupContext :=
  ⟨directory, .objectName, 0, objectName.length, fun _ => '\x00', 0⟩

/-- `ObpLookupObjectName`, from the object that it starts at on. -/
def lookupObjectName (N : Namespace) (parse : Object → List Char → ParseOutcome) (request : LookupRequest) :
    LookupResult :=
  lookupLoop N parse request (.initial request.objectName (request.start N))

theorem remainingName_initial (name : List Char) (directory : Object) :
    (LookupContext.initial name directory).remainingName name = name := by
  apply ext_getElem
  · rw [LookupContext.remainingName_length]
    rfl
  · intro i _ inside
    simp only [LookupContext.remainingName, LookupContext.initial, readName, getElem_map,
      getElem_range', getD_eq_getElem?_getD, Nat.zero_add, Nat.one_mul,
      getElem?_eq_getElem inside, Option.getD_some]

theorem lookupLoop_rec {P : LookupContext → LookupResult → Prop}
    (done : ∀ ctx result, lookupStep N parse request ctx = .inr result → P ctx result)
    (next : ∀ ctx following, lookupStep N parse request ctx = .inl following →
      P following (lookupLoop N parse request following) → P ctx (lookupLoop N parse request following))
    (ctx : LookupContext) : P ctx (lookupLoop N parse request ctx) := by
  induction ctx using lookupLoop.induct N parse request with
  | case1 ctx result stepped =>
    rw [lookupLoop_done stepped]
    exact done ctx result stepped
  | case2 ctx following stepped ih =>
    rw [lookupLoop_next stepped]
    exact next ctx following stepped ih

end VeaOS.Ob

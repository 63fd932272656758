import VeaOS.Foundation.DelimitedText
import VeaOS.Vk.KeyTree

/-! A path that is followed from an open key, and the path that is stored with the
key that it leads to. -/
namespace VeaOS.Vk
open Foundation

structure KeyObject where
  keyNode : Option (Pointer Nat)
  keyOffset : BitVec 32
  fullKeyPath : List Byte

/-- What is read of the lookup, and the accesses that the type of the object has. -/
structure KeyLookup where
  caseInsensitive : Bool
  insertMode : Bool
  desiredAccess : BitVec 32
  validAccessMask : BitVec 32
  remainingName : List Byte

def KeyLookup.Denied (lookup : KeyLookup) : Prop :=
  lookup.validAccessMask ≠ 0 ∧ lookup.desiredAccess &&& ~~~lookup.validAccessMask ≠ 0

instance (lookup : KeyLookup) : Decidable lookup.Denied := inferInstanceAs (Decidable (_ ∧ _))

inductive KeyParse where
  | resolved (object : KeyObject)
  | inserting (name : List Byte)
  | reparse (name : List Byte)
  | failed (status : VkStatus)
  | outside

def slash : Byte := 0x2F
def keyDirSymlink : BitVec 16 := 1 <<< 5
def fileKeyLink : BitVec 32 := 9
def vkMaxKeyPathLength : Nat := 512
def sizeofPathBuffer : Nat := 256
def sizeofReparseBuffer : Nat := 512
def maxComponents : Nat := 64

def asciiBytes (text : String) : List Byte := text.toList.map fun c => BitVec.ofNat 8 c.toNat

def registryPrefix : List Byte := asciiBytes "/REGISTRY/MACHINE/SYSTEM"

/-- The text behind a component, from the next one on. -/
def remainderOf : Option (List Byte × List Byte) → List Byte
  | none => []
  | some (nextToken, save) => if save = [] then nextToken else nextToken ++ slash :: save

section Path
variable (H : Hive)

/-- The keys from below the root down to a key; as many more are allowed. -/
def pathComponents (left : Nat) (currentNode : Pointer Nat) (below : List (Pointer Nat)) :
    Except VkStatus (List (Pointer Nat)) :=
  if currentNode = rootNode then .ok below
  else
    match left with
    | 0 => .error .nameTooLong
    | left + 1 =>
      if H.memory.read16 (currentNode.add directoryNode.nameLength) = 0 then .error .nameTooLong
      else
        let parentOffset := H.memory.read32 (currentNode.add 8)
        if parentOffset = 0 then .error .objectPathInvalid
        else
          match vkpGetCellPointer H parentOffset with
          | none => .error .objectTypeMismatch
          | some parent =>
            if H.memory.read16 (parent.add 4) ≠ keyDirSig then .error .objectTypeMismatch
            else pathComponents left parent (currentNode :: below)

def vkpInitializeKeyObjectPath (keyNode : Option (Pointer Nat)) : Except VkStatus (List Byte) :=
  match keyNode with
  | none => .error .invalidParameter
  | some keyNode =>
    match pathComponents H maxComponents keyNode [] with
    | .error status => .error status
    | .ok components =>
      let path := registryPrefix ++ components.flatMap fun node => slash :: nameAt H directoryNode node
      if vkMaxKeyPathLength < path.length + 1 then .error .nameTooLong else .ok path

end Path

/-- The next component of a text, and the text behind it. -/
def vkpGetNextToken (path : List Byte) : Option (List Byte × List Byte) :=
  match path.dropWhile (· == slash) with
  | [] => none
  | c :: rest => some ((c :: rest).takeWhile (!· == slash), ((c :: rest).dropWhile (!· == slash)).drop 1)

theorem nextToken_shorter (next : vkpGetNextToken path = some (token, save)) : save.length < path.length := by
  rw [vkpGetNextToken] at next
  cases skipped : path.dropWhile (· == slash) with
  | nil =>
    rw [skipped] at next
    cases next
  | cons c rest =>
    rw [skipped] at next
    obtain ⟨-, rfl⟩ := Prod.mk.inj (Option.some.inj next)
    have short := (List.dropWhile_suffix (l := path) (· == slash)).length_le
    rw [skipped, List.length_cons] at short
    have word : (!c == slash) = true := by
      rw [head_dropWhile skipped]
      rfl
    rw [List.dropWhile_cons_of_pos (p := fun x => !x == slash) word, List.length_drop]
    have later := (List.dropWhile_suffix (l := rest) (!· == slash)).length_le
    omega

section Parse
variable (H : Hive)

/-- A text up to its zero, which is looked for in as many characters. -/
def readText (p : Pointer Nat) : Nat → Option (List Byte)
  | 0 => none
  | n + 1 =>
    let c := H.memory p.block p.offset
    if c = 0 then some [] else (readText (p.add 1) n).map (c :: ·)

/-- The path that a symbolic link puts in place of what was followed. -/
def followSymlink (child : Pointer Nat) (remainder : List Byte) (visits : Nat) : Option KeyParse :=
  match vkpFindValueNode H child (asciiBytes "SymbolicLinkValue") visits with
  | none => none
  | some .missing => some (.failed .objectNameInvalid)
  | some .outside => some .outside
  | some (.found _ linkValue) =>
    if H.memory.read32 (linkValue.add 20) ≠ fileKeyLink then some (.failed .objectNameInvalid)
    else
      let targetPath :=
        if H.memory.read16 (linkValue.add 24) &&& keyFileInline ≠ 0 ∨ H.memory.read32 (linkValue.add 16) ≤ 4 then
          some (linkValue.add 12)
        else (vkpGetCellPointer H (H.memory.read32 (linkValue.add 12))).map fun cellPtr => cellPtr.add 4
      match targetPath with
      | none => some (.failed .objectNameInvalid)
      | some targetPath =>
        (readText H targetPath visits).map fun target =>
          let path := if remainder = [] then target else target ++ slash :: remainder
          if sizeofReparseBuffer ≤ path.length then .failed .nameTooLong else .reparse path

/-- The object of a key that was found; the status is that of a failed allocation. -/
def createKeyObject (created : Option VkStatus) (foundChild : Option (Pointer Nat)) (offset : BitVec 32) :
    KeyParse :=
  match created with
  | some status => .failed status
  | none =>
    match vkpInitializeKeyObjectPath H foundChild with
    | .error status => .failed status
    | .ok path => .resolved ⟨foundChild, offset, path⟩

variable (insertMode : Bool) (created : Option VkStatus) (visits : Nat)

def parseTokens (currentNode : Pointer Nat) (token save : List Byte) : Option KeyParse :=
  if insertMode && (vkpGetNextToken save).isNone then some (.inserting token)
  else
    match vkpFindSubkey H currentNode token visits with
    | none => none
    | some .missing => some (.failed .objectNameNotFound)
    | some .outside => some .outside
    | some (.found offset child) =>
      if H.memory.read16 (child.add 6) &&& keyDirSymlink ≠ 0 then
        followSymlink H child (remainderOf (vkpGetNextToken save)) visits
      else
        match _next : vkpGetNextToken save with
        | none => some (createKeyObject H created (some child) offset)
        | some (nextToken, save') => parseTokens child nextToken save'
termination_by save.length
decreasing_by exact nextToken_shorter _next

/-- The text that is followed, which a buffer has room for. -/
def pathBuffer (remainingName : List Byte) : List Byte := rawString (remainingName.take (sizeofPathBuffer - 1))

end Parse

def vkpParseKeyObject (H : Hive) (parseObject : KeyObject) (lookup : KeyLookup) (created : Option VkStatus)
    (visits : Nat) : Option KeyParse :=
  if lookup.caseInsensitive then some (.failed .invalidParameter)
  else if lookup.Denied then some (.failed .accessDenied)
  else if lookup.remainingName.length = 0 then some (.resolved parseObject)
  else
    match vkpGetNextToken (pathBuffer lookup.remainingName) with
    | none => some (createKeyObject H created none 0)
    | some (token, save) =>
      match parseObject.keyNode with
      | none =>
        if lookup.insertMode && (vkpGetNextToken save).isNone then some (.inserting token)
        else some (.failed .objectNameNotFound)
      | some keyNode => parseTokens H lookup.insertMode created visits keyNode token save

end VeaOS.Vk

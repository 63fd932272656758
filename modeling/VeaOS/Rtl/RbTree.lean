import VeaOS.Rtl.BalancedNode

/-! The red-black tree of the runtime library. Every node carries its colour in
`Balance`; the two mirrored halves of each fix-up loop are one definition with
a side. -/
namespace VeaOS.Rtl
open Foundation PointerTree
variable {ι : Type*}

inductive RbColor where
  | black
  | red
  deriving DecidableEq, Repr

abbrev RbTree (ι : Type*) := PointerTree ι RbColor

section Model
variable [DecidableEq ι]

/-- `X == NULL || RTL_RB_COLOR(X) == RTL_RB_BLACK`. -/
def isBlack (T : RbTree ι) : Option ι → Bool
  | none => true
  | some node => T.balance node = .black

/-- `RTL_RB_SET_COLOR` on a node that may be null. -/
def paintBlack (T : RbTree ι) : Option ι → RbTree ι
  | none => T
  | some node => T.setBalance node .black

def rtlRbLeftRotate : RbTree ι → ι → Option (RbTree ι) := PointerTree.rotate .left

def rtlRbRightRotate : RbTree ι → ι → Option (RbTree ι) := PointerTree.rotate .right

/-- The recoloured rotation that ends the insertion loop. -/
def insertFixupRotate (s : Side) (T : RbTree ι) (z : ι) : Option (RbTree ι × ι) := do
  let parent ← T.parent z
  let T := T.setBalance parent .black
  let grandparent ← T.parent parent
  let T := T.setBalance grandparent .red
  return (← T.rotate s.opp grandparent, z)

/-- The body of the insertion loop when the parent of `z` is the child on side
`s` of its own parent. -/
def insertFixupStep (s : Side) (T : RbTree ι) (z : ι) : Option (RbTree ι × ι) := do
  let parent ← T.parent z
  let grandparent ← T.parent parent
  let uncle := T.child s.opp grandparent
  if isBlack T uncle then
    if T.child s.opp parent = some z then
      insertFixupRotate s (← T.rotate s parent) parent
    else insertFixupRotate s T z
  else
    let T := paintBlack (T.setBalance parent .black) uncle
    return (T.setBalance grandparent .red, grandparent)

def blackenRoot (T : RbTree ι) : Option (RbTree ι) := do
  let root ← T.root
  return T.setBalance root .black

def rtlRbInsertFixup : Nat → RbTree ι → ι → Option (RbTree ι)
  | 0, _, _ => none
  | fuel + 1, T, z =>
    match T.parent z with
    | none => blackenRoot T
    | some parent =>
      if T.balance parent = .red then do
        let grandparent ← T.parent parent
        let side : Side := if T.child .left grandparent = some parent then .left else .right
        let (T, z) ← insertFixupStep side T z
        rtlRbInsertFixup fuel T z
      else blackenRoot T

def rtlRbTransplant (T : RbTree ι) (u : ι) (v : Option ι) : RbTree ι :=
  (T.relink .left (T.parent u) u v).adopt v (T.parent u)

/-- The sibling of `X` in the deletion loop, after a red one was rotated away. -/
def deleteFixupSibling (s : Side) (T : RbTree ι) (xParent : ι) : Option (RbTree ι × ι) := do
  let w ← T.child s.opp xParent
  if T.balance w = .red then
    let T := (T.setBalance w .black).setBalance xParent .red
    let T ← T.rotate s xParent
    return (T, ← T.child s.opp xParent)
  else return (T, w)

/-- The sibling of `X` with a red child on the far side. -/
def deleteFixupNephew (s : Side) (T : RbTree ι) (xParent w : ι) : Option (RbTree ι × ι) := do
  if isBlack T (T.child s.opp w) then
    let T := (paintBlack T (T.child s w)).setBalance w .red
    let T ← T.rotate s.opp w
    return (T, ← T.child s.opp xParent)
  else return (T, w)

/-- The rotation that ends the deletion loop. -/
def deleteFixupRotate (s : Side) (T : RbTree ι) (xParent w : ι) : Option (RbTree ι) :=
  let T := (T.setBalance w (T.balance xParent)).setBalance xParent .black
  (paintBlack T (T.child s.opp w)).rotate s xParent

/-- The body of the deletion loop when `X` is the child on side `s` of
`xParent`. The result holds the next `X` and `XParent`. -/
def deleteFixupStep (s : Side) (T : RbTree ι) (xParent : ι) :
    Option (RbTree ι × Option ι × Option ι) := do
  let (T, w) ← deleteFixupSibling s T xParent
  if isBlack T (T.child s w) && isBlack T (T.child s.opp w) then
    let T := T.setBalance w .red
    return (T, some xParent, T.parent xParent)
  else
    let (T, w) ← deleteFixupNephew s T xParent w
    let T ← deleteFixupRotate s T xParent w
    return (T, T.root, some xParent)

def rtlRbDeleteFixup : Nat → RbTree ι → Option ι → Option ι → Option (RbTree ι)
  | fuel, T, x, xParent =>
    if x ≠ T.root ∧ isBlack T x then
      match fuel with
      | 0 => none
      | fuel + 1 => do
          let xParent ← xParent
          let side : Side := if T.child .left xParent = x then .left else .right
          let (T, x, xParent) ← deleteFixupStep side T xParent
          rtlRbDeleteFixup fuel T x xParent
    else some (paintBlack T x)

def rtlInsertElementRb (fuel : Nat) (compareRoutine : ι → ι → Int) (T : RbTree ι) (newNode : ι) :
    Option (RbTree ι) := do
  let T := (T.setChild .left newNode none).setChild .right newNode none
  let T := T.setBalance newNode .red
  let (link, leftmost) ←
    T.descend (fun node => compareRoutine newNode node < 0) fuel none true T.root
  let T := T.setParent newNode (link.map Prod.fst)
  let T := match link with
    | none => (T.setRoot (some newNode)).setLeftmost (some newNode)
    | some (y, _) =>
      if compareRoutine newNode y < 0 then
        let T := T.setChild .left y (some newNode)
        if leftmost then T.setLeftmost (some newNode) else T
      else T.setChild .right y (some newNode)
  rtlRbInsertFixup fuel T newNode

/-- The part of the deletion that takes `z` out of the tree. The result holds
the node that moved up, its parent, and the colour that the tree lost. -/
def rbUnlink (fuel : Nat) (T : RbTree ι) (z : ι) :
    Option (RbTree ι × Option ι × Option ι × RbColor) := do
  match T.child .left z, T.child .right z with
  | none, right => return (rtlRbTransplant T z right, right, T.parent z, T.balance z)
  | some left, none => return (rtlRbTransplant T z (some left), some left, T.parent z, T.balance z)
  | some _, some right =>
    let y ← T.first fuel right
    let originalColor := T.balance y
    let x := T.child .right y
    let (T, xParent) : RbTree ι × Option ι :=
      if T.parent y = some z then (T, some y)
      else
        let xParent := T.parent y
        let T := rtlRbTransplant T y (T.child .right y)
        let T := T.setChild .right y (T.child .right z)
        (T.adopt (T.child .right y) (some y), xParent)
    let T := rtlRbTransplant T z (some y)
    let T := T.setChild .left y (T.child .left z)
    let T := T.adopt (T.child .left y) (some y)
    return (T.setBalance y (T.balance z), x, xParent, originalColor)

def rtlDeleteElementRb (fuel : Nat) (T : RbTree ι) (z : ι) : Option (RbTree ι) := do
  let T : RbTree ι ← uncacheLeftmost fuel T z
  let (T, x, xParent, originalColor) ← rbUnlink fuel T z
  let T ← if originalColor = .black then rtlRbDeleteFixup fuel T x xParent else some T
  return ((T.setChild .left z none).setChild .right z none).setParent z none

def rtlGetNextNodeRb (fuel : Nat) (T : RbTree ι) (node : ι) : Option (Option ι) :=
  T.successor fuel node

end Model
end VeaOS.Rtl

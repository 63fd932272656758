import VeaOS.Rtl.BalancedNode

/-! The AVL tree of the runtime library: a node's `Balance` is the height of
its subtree, and the way up from a changed place recomputes it and rotates
where the two sides differ by more than one. -/
namespace VeaOS.Rtl
open Foundation PointerTree
variable {ι : Type*}

abbrev AvlTree (ι : Type*) := PointerTree ι Int

section Model
variable [DecidableEq ι]

/-- `AVL_GET_HEIGHT`. -/
def avlGetHeight (T : AvlTree ι) : Option ι → Int
  | none => 0
  | some node => T.balance node

def avlNodeHeight (T : AvlTree ι) (node : ι) : Int :=
  1 + max (avlGetHeight T (T.child .left node)) (avlGetHeight T (T.child .right node))

/-- The rotation towards side `s`, after which the two heights are recomputed
from the bottom up. -/
def rtlpRotateIterative (s : Side) (T : AvlTree ι) (node : ι) : Option (AvlTree ι) := do
  let pivot ← T.child s.opp node
  let T ← T.rotate s node
  let T := T.setBalance node (avlNodeHeight T node)
  return T.setBalance pivot (avlNodeHeight T pivot)

def rtlpRotateRightIterative : AvlTree ι → ι → Option (AvlTree ι) := rtlpRotateIterative .right

def rtlpRotateLeftIterative : AvlTree ι → ι → Option (AvlTree ι) := rtlpRotateIterative .left

/-- The two kinds of rotation that relieve a node that is too heavy on side
`s`: when the child there leans the other way, it is rotated first. -/
def relieve (s : Side) (T : AvlTree ι) (current : ι) : Option (AvlTree ι) := do
  let inner ← T.child s current
  let T ← if avlGetHeight T (T.child s.opp inner) - avlGetHeight T (T.child s inner) > 0 then
      rtlpRotateIterative s T inner
    else some T
  rtlpRotateIterative s.opp T current

def rebalanceNode (T : AvlTree ι) (current : ι) : Option (AvlTree ι) :=
  let T := T.setBalance current (avlNodeHeight T current)
  let balanceFactor :=
    avlGetHeight T (T.child .right current) - avlGetHeight T (T.child .left current)
  if balanceFactor < -1 then relieve .left T current
  else if balanceFactor > 1 then relieve .right T current
  else some T

/-- The loop on the way up, which insertion and deletion both end with. -/
def rebalance : Nat → AvlTree ι → Option ι → Option (AvlTree ι)
  | _, T, none => some T
  | 0, _, some _ => none
  | fuel + 1, T, some current => do
      let T ← rebalanceNode T current
      rebalance fuel T (T.parent current)

def rtlInsertElementAvl (fuel : Nat) (compareRoutine : ι → ι → Int) (T : AvlTree ι) (newNode : ι) :
    Option (AvlTree ι) := do
  let T := ((T.setChild .left newNode none).setChild .right newNode none).setParent newNode none
  let T := T.setBalance newNode 1
  match T.root with
  | none => return (T.setRoot (some newNode)).setLeftmost (some newNode)
  | some _ =>
    let (link, _) ← T.descend (fun node => compareRoutine newNode node < 0) fuel none true T.root
    let (parent, side) ← link
    let T := (T.setParent newNode (some parent)).setChild side parent (some newNode)
    let first := match T.leftmost with
      | none => true
      | some leftmost => compareRoutine newNode leftmost < 0
    let T := if first then T.setLeftmost (some newNode) else T
    rebalance fuel T (some parent)

/-- The links of `targetNode` are handed to its only child, or to its successor.
The result holds the node from which the heights are to be recomputed. -/
def avlUnlink (fuel : Nat) (T : AvlTree ι) (targetNode : ι) : Option (AvlTree ι × Option ι) := do
  let parentNode := T.parent targetNode
  match T.child .left targetNode, T.child .right targetNode with
  | some _, some right =>
    let successor ← T.first fuel right
    let successorParent ← T.parent successor
    let successorRight := T.child .right successor
    let (T, nodeToBalance) : AvlTree ι × ι :=
      if successorParent ≠ targetNode then
        let T := T.setChild .left successorParent successorRight
        let T := T.adopt successorRight (some successorParent)
        let T := T.setChild .right successor (T.child .right targetNode)
        (T.adopt (T.child .right targetNode) (some successor), successorParent)
      else (T, successor)
    let T := T.setParent successor parentNode
    let T := T.setChild .left successor (T.child .left targetNode)
    let T := T.adopt (T.child .left targetNode) (some successor)
    return (T.relink .left parentNode targetNode (some successor), some nodeToBalance)
  | left, right =>
    let child := if left = none then right else left
    let T := T.adopt child parentNode
    return (T.relink .left parentNode targetNode child, parentNode)

def rtlDeleteElementAvl (fuel : Nat) (T : AvlTree ι) (targetNode : ι) : Option (AvlTree ι) := do
  if T.root = none then return T
  let T : AvlTree ι ← uncacheLeftmost fuel T targetNode
  let (T, nodeToBalance) ← avlUnlink fuel T targetNode
  rebalance fuel T nodeToBalance

def rtlGetNextNodeAvl (fuel : Nat) (T : AvlTree ι) (node : ι) : Option (Option ι) :=
  T.successor fuel node

end Model
end VeaOS.Rtl

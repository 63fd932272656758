import VeaOS.Vk.HiveChains
import VeaOS.Vk.KeyResolution

/-! The loader opens keys by path. It finds what the kernel finds in the same hive. -/
namespace VeaOS.Vk
open Foundation List

inductive Opened where
  | opened (node : Pointer Nat)
  | missing
  | outside

section Loader
variable (image : Nat → Byte) (hiveLength : BitVec 32) (visits : Nat)

/-- The loop over the components of a path. -/
def openTokens (currentNode : Pointer Nat) (path : List Byte) : Option Opened :=
  match _skipped : path.dropWhile (· == slash) with
  | [] => some (.opened currentNode)
  | c :: rest =>
    match lvkFindSubkey image hiveLength currentNode ((c :: rest).takeWhile (!· == slash)) visits with
    | none => none
    | some .missing => some .missing
    | some .outside => some .outside
    | some (.found _ node) => openTokens node (((c :: rest).dropWhile (!· == slash)).drop 1)
termination_by path.length
decreasing_by exact nextToken_shorter (by rw [vkpGetNextToken, _skipped])

def lvkOpenKey (keyPath : List Byte) : Option Opened :=
  if lvkInitializeLoaderParser image hiveLength = false then some .missing
  else if sizeofPathBuffer ≤ (rawString keyPath).length then some .missing
  else openTokens image hiveLength visits rootNode (rawString keyPath)

/-- The loader and the kernel find the same keys and values, from any node on. -/
structure LookupsAgree (H : Hive) : Prop where
  ready : lvkInitializeLoaderParser image hiveLength = false ↔ hiveLength = 0
  subkeys {name node visits} : rawString name ≠ [] →
    lvkFindSubkey image hiveLength node name visits = vkpFindSubkey H node (rawString name) visits
  values {name node visits} : rawString name ≠ [] →
    lvkFindValueNode image hiveLength node name visits = vkpFindValueNode H node (rawString name) visits

def openedOf (H : Hive) : Option (BitVec 32) → Opened
  | some c => .opened (cellOf H c)
  | none => .missing

/-- A path is opened as its components lead through the tree, and as the kernel opens it. -/
structure OpensRight (H : Hive) (T : NamedTree (BitVec 32) (List Byte)) (path : List Byte) (result : Opened) : Prop where
  ends : ∃ bound, ∀ visits ≥ bound, lvkOpenKey image hiveLength visits path = some result
  leads : result = openedOf H (T.walk T.root (components (rawString path)))
  kernel {lookup object} : lookup.remainingName = path →
    Settles (vkpParseKeyObject H systemKey lookup none) (.resolved object) →
    ∃ node, object.keyNode = some node ∧ result = .opened node

end Loader

section Lookups
variable {image : Nat → Byte} {hiveLength : BitVec 32} {pool : Memory Nat} {pooled : Bool} {H : Hive}
  {name : List Byte}

theorem subkeys_agree (loaded : vkpInitializeSystemHive image hiveLength pool pooled = some H)
    (nonempty : rawString name ≠ []) {node : Pointer Nat} {visits : Nat} :
    lvkFindSubkey image hiveLength node name visits = vkpFindSubkey H node (rawString name) visits := by
  rw [vkpFindSubkey, if_neg (mt length_eq_zero_iff.mp nonempty)]
  exact ((kernel_agrees (accepted_spec loaded)).findNode_eq _ visits).symm

/-- The loader takes each hive that the kernel takes, unless it is empty. -/
theorem lookups_agree (loaded : vkpInitializeSystemHive image hiveLength pool pooled = some H) :
    LookupsAgree image hiveLength H := by
  have accepted := accepted_spec loaded
  refine ⟨parser_ready accepted, fun nonempty => subkeys_agree loaded nonempty, fun {name node visits} nonempty => ?_⟩
  rw [vkpFindValueNode, if_neg (mt length_eq_zero_iff.mp nonempty)]
  exact ((kernel_agrees accepted).findNode_eq _ visits).symm

theorem lookups_agree_nested : LookupsAgree nestedImage 0x2000 nestedHive :=
  lookups_agree (Option.some_get nestedImage_loads).symm

theorem rawString_plain (plain : ∀ b ∈ name, b ≠ 0) : rawString name = name :=
  takeWhile_eq_self_iff.mpr fun b member => by simpa using plain b member

theorem openTokens_eq (node : Pointer Nat) (path : List Byte) (visits : Nat) :
    openTokens image hiveLength visits node path =
      match vkpGetNextToken path with
      | none => some (.opened node)
      | some (token, save) =>
        match lvkFindSubkey image hiveLength node token visits with
        | none => none
        | some .missing => some .missing
        | some .outside => some .outside
        | some (.found _ child) => openTokens image hiveLength visits child save := by
  rw [openTokens, vkpGetNextToken]
  split
  next skipped => rw [skipped]
  next c rest skipped => rw [skipped]

end Lookups

section Keys
variable {image : Nat → Byte} {hiveLength : BitVec 32} {pool : Memory Nat} {pooled : Bool} {H : Hive}
  {T : NamedTree (BitVec 32) (List Byte)} {k : BitVec 32} {name path : List Byte}

theorem openTokens_walks (loaded : vkpInitializeSystemHive image hiveLength pool pooled = some H)
    (represents : Represents H T) (holds : T.Holds k)
    (plain : ∀ word ∈ components path, word ≠ [] ∧ ∀ b ∈ word, b ≠ 0) :
    ∃ bound, ∀ visits ≥ bound, openTokens image hiveLength visits (cellOf H k) path =
      some (openedOf H (T.walk k (components path))) := by
  induction words : components path generalizing k path with
  | nil =>
    refine ⟨0, fun visits _ => ?_⟩
    rw [openTokens_eq, nextToken_none.mpr words]
    rfl
  | cons word rest ih =>
    obtain ⟨_, empty⟩ | ⟨token, save, next, later⟩ := nextToken_cases path
    · cases empty.symm.trans words
    obtain ⟨rfl, rfl⟩ := cons.inj (later.symm.trans words)
    rw [words] at plain
    obtain ⟨nonempty, letters⟩ := plain token mem_cons_self
    have same := rawString_plain letters
    have found (visits : Nat) (enough : (T.children k).length < visits) :
        lvkFindSubkey image hiveLength (cellOf H k) token visits = some (lookupOf H (T.child k token)) := by
      rw [subkeys_agree loaded (same.symm ▸ nonempty), same]
      exact findSubkey_spec represents holds nonempty letters enough
    cases child : T.child k token with
    | none =>
      refine ⟨(T.children k).length + 1, fun visits enough => ?_⟩
      rw [openTokens_eq, next, NamedTree.walk, child]
      dsimp only
      rw [found visits enough, child]
      rfl
    | some c =>
      obtain ⟨bound, settled⟩ := ih (holds.child (NamedTree.child_spec child).1)
        (fun word member => plain word (mem_cons_of_mem _ member)) rfl
      refine ⟨max bound ((T.children k).length + 1), fun visits enough => ?_⟩
      rw [openTokens_eq, next, NamedTree.walk, child]
      dsimp only
      rw [found visits (le_of_max_le_right enough), child]
      exact settled visits (le_of_max_le_left enough)

theorem rawString_take (short : (rawString name).length ≤ n) : rawString (name.take n) = rawString name := by
  rw [rawString, rawString] at *
  induction name generalizing n with
  | nil => rw [take_nil]
  | cons c rest ih =>
    obtain _ | n := n
    · rw [length_eq_zero_iff.mp (Nat.le_zero.mp short)]
      rfl
    rw [takeWhile_cons] at short
    rw [take_succ_cons, takeWhile_cons, takeWhile_cons]
    split
    next more =>
      rw [if_pos more, length_cons] at short
      rw [ih (Nat.le_of_succ_le_succ short)]
    next => rfl

theorem ready_of_represents (loaded : vkpInitializeSystemHive image hiveLength pool pooled = some H)
    (represents : Represents H T) : lvkInitializeLoaderParser image hiveLength = true := by
  refine Bool.eq_true_of_not_eq_false fun unready => ?_
  have accepted := accepted_spec loaded
  have empty : hiveLength = 0 := (parser_ready accepted).mp unready
  have root := (represents.key T.root Under.root).whole
  obtain ⟨-, below⟩ := loader_inside_iff.mp ((kernel_agrees accepted).inside_iff.mp root)
  have positive : 30 ≤ directoryNode.name := by decide
  rw [empty, show (0 : BitVec 32).toNat = 0 from rfl] at below
  omega

theorem loader_opens (loaded : vkpInitializeSystemHive image hiveLength pool pooled = some H)
    (represents : Represents H T) (short : (rawString path).length < sizeofPathBuffer) :
    ∃ result, OpensRight image hiveLength H T path result := by
  have buffer : pathBuffer path = rawString path := rawString_take (Nat.le_sub_one_of_lt short)
  have plain : ∀ word ∈ components (rawString path), word ≠ [] ∧ ∀ b ∈ word, b ≠ 0 := buffer ▸ pathBuffer_plain
  have root : rootNode = cellOf H T.root := (represents.root ▸ represents.rootCell).symm
  obtain ⟨bound, settled⟩ := openTokens_walks loaded represents Under.root plain
  refine ⟨_, ⟨bound, fun visits enough => ?_⟩, rfl, ?_⟩
  · have ready := ready_of_represents loaded represents
    rw [lvkOpenKey, ready, if_neg Bool.noConfusion, if_neg (Nat.not_le.mpr short), root]
    exact settled visits enough
  · rintro lookup object rfl settles
    by_cases empty : lookup.remainingName = []
    · obtain ⟨bound, settled⟩ := settles
      have parsed := settled bound (Nat.le_refl _)
      obtain ⟨sensitive, allowed⟩ := parse_allowed parsed
      rw [parse_itself sensitive allowed empty] at parsed
      cases parsed
      refine ⟨rootNode, rfl, ?_⟩
      rw [empty, root]
      rfl
    obtain ⟨c, reached, made⟩ := parse_resolved represents Under.root (congrArg some root) empty settles
    have followed : lookup.followed = components (rawString lookup.remainingName) := congrArg components buffer
    refine ⟨cellOf H c, (create_isKey made).1, ?_⟩
    rw [← followed, reached]
    rfl

theorem loader_opens_nested :
    ∃ result, OpensRight nestedImage 0x2000 nestedHive nestedTree nestedName result :=
  loader_opens (Option.some_get nestedImage_loads).symm nested_represents (by decide)

end Keys
end VeaOS.Vk

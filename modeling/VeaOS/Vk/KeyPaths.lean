import VeaOS.Vk.KeyParse

/-! What a lookup along the components of a path comes to, and the paths of keys. -/
namespace VeaOS.Vk
open Foundation List NamedTree Option

def isSlash (b : Byte) : Bool := b == slash

def components (path : List Byte) : List (List Byte) := fields isSlash path

section Tokens
variable {path token save : List Byte}

theorem nextToken_none : vkpGetNextToken path = none ↔ components path = [] := by
  rw [components, fields_eq_nil, vkpGetNextToken]
  have skip : path.dropWhile isSlash = path.dropWhile (· == slash) := rfl
  rw [skip]
  cases path.dropWhile (· == slash) with
  | nil => exact iff_of_true rfl rfl
  | cons c rest => exact iff_of_false (fun none => by cases none) (cons_ne_nil _ _)

theorem nextToken_some (next : vkpGetNextToken path = some (token, save)) :
    components path = token :: components save := by
  rw [vkpGetNextToken] at next
  cases skipped : path.dropWhile (· == slash) with
  | nil =>
    rw [skipped] at next
    cases next
  | cons c rest =>
    rw [skipped] at next
    obtain ⟨rfl, rfl⟩ := Prod.mk.inj (some.inj next)
    have first : path.dropWhile isSlash = c :: rest := skipped
    rw [components, fields_cons first]
    refine congrArg _ ?_
    change fields isSlash ((c :: rest).dropWhile (!isSlash ·)) =
      fields isSlash (((c :: rest).dropWhile (!isSlash ·)).drop 1)
    cases after : (c :: rest).dropWhile (!isSlash ·) with
    | nil => rfl
    | cons d tail =>
      have separator : isSlash d = true := by simpa using head_dropWhile after
      exact fields_separator separator

end Tokens

section Walks
variable {H : Hive} {T : NamedTree (BitVec 32) (List Byte)} {k c : BitVec 32} {name : List Byte}

def IsSymlink (H : Hive) (c : BitVec 32) : Prop := H.memory.read16 ((cellOf H c).add 6) &&& keyDirSymlink ≠ 0

theorem findSubkey_result (represents : Represents H T) (holds : T.Holds k) (nonempty : name ≠ [])
    (plain : ∀ b ∈ name, b ≠ 0) (found : vkpFindSubkey H (cellOf H k) name visits = some result) :
    result = lookupOf H (T.child k name) := by
  have enough := findSubkey_spec represents holds nonempty plain (Nat.lt_succ_self (T.children k).length)
  have key := represents.key k holds
  have first : (kernelCells H).Inside ((cellOf H k).add directoryNode.first) 4 :=
    inside_add key.whole ((show 12 + 4 ≤ 30 by decide).trans (Nat.le_add_right _ _))
  rw [vkpFindSubkey, if_neg (mt length_eq_zero_iff.mp nonempty), findNode, if_neg (not_not.mpr first)]
    at found enough
  exact search_unique found enough

theorem followSymlink_resolves (child : Pointer Nat) (remainder : List Byte) (visits : Nat) (object : KeyObject) :
    followSymlink H child remainder visits ≠ some (.resolved object) := by
  intro followed
  rw [followSymlink] at followed
  split at followed
  · cases followed
  · cases followed
  · cases followed
  · split at followed
    · cases followed
    · dsimp only at followed
      split at followed
      · cases followed
      · obtain ⟨target, -, resolved⟩ := map_eq_some_iff.mp followed
        split_ifs at resolved

theorem parseTokens_cons (token save : List Byte)
    (looked : (insertMode && (vkpGetNextToken save).isNone) = false) :
    parseTokens H insertMode created visits (cellOf H k) token save =
      match vkpFindSubkey H (cellOf H k) token visits with
      | none => none
      | some .missing => some (.failed .objectNameNotFound)
      | some .outside => some .outside
      | some (.found offset child) =>
        if H.memory.read16 (child.add 6) &&& keyDirSymlink ≠ 0 then
          followSymlink H child (remainderOf (vkpGetNextToken save)) visits
        else
          match vkpGetNextToken save with
          | none => some (createKeyObject H created (some child) offset)
          | some (nextToken, save') => parseTokens H insertMode created visits child nextToken save' := by
  rw [parseTokens]
  simp only [looked, Bool.false_eq_true, if_false]
  cases found : vkpFindSubkey H (cellOf H k) token visits with
  | none => rfl
  | some result =>
    cases result with
    | missing => rfl
    | outside => rfl
    | found offset child =>
      dsimp only
      split
      · rfl
      · split
        next last => rw [last]
        next next => rw [next]

theorem nextToken_cases (save : List Byte) :
    vkpGetNextToken save = none ∧ components save = [] ∨
      ∃ nextToken save', vkpGetNextToken save = some (nextToken, save') ∧
        components save = nextToken :: components save' := by
  cases next : vkpGetNextToken save with
  | none => exact Or.inl ⟨rfl, nextToken_none.mp next⟩
  | some pair => exact Or.inr ⟨pair.1, pair.2, rfl, nextToken_some next⟩

theorem parse_sound (represents : Represents H T) (holds : T.Holds k)
    (plain : ∀ word ∈ token :: components save, word ≠ [] ∧ ∀ b ∈ word, b ≠ 0)
    (parsed : parseTokens H insertMode created visits (cellOf H k) token save = some (.resolved object)) :
    ∃ c, T.walk k (token :: components save) = some c ∧
      createKeyObject H created (some (cellOf H c)) c = .resolved object := by
  induction words : components save generalizing k token save with
  | nil =>
    obtain ⟨nonempty, letters⟩ := plain token mem_cons_self
    have last := nextToken_none.mpr words
    obtain rfl : insertMode = false := Bool.eq_false_of_not_eq_true fun inserting => by
      rw [parseTokens, inserting, last] at parsed
      cases parsed
    rw [parseTokens_cons token save rfl, last] at parsed
    cases found : vkpFindSubkey H (cellOf H k) token visits with
    | none => simp only [found, reduceCtorEq] at parsed
    | some result =>
      obtain rfl := findSubkey_result represents holds nonempty letters found
      cases child : T.child k token with
      | none => simp [found, child, lookupOf] at parsed
      | some c =>
        simp only [found, child, lookupOf] at parsed
        split at parsed
        · exact absurd parsed (followSymlink_resolves _ _ _ _)
        · exact ⟨c, by rw [walk, child]; rfl, some.inj parsed⟩
  | cons word rest ih =>
    obtain ⟨nonempty, letters⟩ := plain token mem_cons_self
    obtain ⟨_, empty⟩ | ⟨nextToken, save', next, later⟩ := nextToken_cases save
    · cases empty.symm.trans words
    obtain ⟨rfl, rfl⟩ := cons.inj (later.symm.trans words)
    rw [parseTokens_cons token save (by rw [next]; exact Bool.and_false _), next] at parsed
    cases found : vkpFindSubkey H (cellOf H k) token visits with
    | none => simp only [found, reduceCtorEq] at parsed
    | some result =>
      obtain rfl := findSubkey_result represents holds nonempty letters found
      cases child : T.child k token with
      | none => simp [found, child, lookupOf] at parsed
      | some c =>
        simp only [found, child, lookupOf] at parsed
        split at parsed
        · exact absurd parsed (followSymlink_resolves _ _ _ _)
        · have below : T.Holds c := holds.child (child_spec child).1
          obtain ⟨d, reached, made⟩ := ih below
            (fun word member => plain word (mem_cons_of_mem _ (later ▸ member))) parsed rfl
          exact ⟨d, by rw [walk, child, bind_some, reached], made⟩

theorem parse_complete (represents : Represents H T) (holds : T.Holds k)
    (plain : ∀ word ∈ token :: components save, word ≠ [] ∧ ∀ b ∈ word, b ≠ 0)
    (noLinks : ∀ names c, names ≠ [] → names <+: token :: components save → T.walk k names = some c →
      ¬ IsSymlink H c) :
    ∃ bound, ∀ visits ≥ bound, parseTokens H false created visits (cellOf H k) token save =
      some (match T.walk k (token :: components save) with
        | none => .failed .objectNameNotFound
        | some c => createKeyObject H created (some (cellOf H c)) c) := by
  obtain ⟨nonempty, letters⟩ := plain token mem_cons_self
  have spec (visits : Nat) (enough : (T.children k).length < visits) :=
    findSubkey_spec represents holds nonempty letters enough
  induction words : components save generalizing k token save with
  | nil =>
    refine ⟨(T.children k).length + 1, fun visits enough => ?_⟩
    rw [parseTokens_cons token save rfl, spec visits enough, walk, nextToken_none.mpr words]
    cases child : T.child k token with
    | none => rfl
    | some c =>
      have plainKey : ¬ IsSymlink H c := noLinks [token] c (cons_ne_nil _ _)
        (cons_prefix_cons.mpr ⟨rfl, nil_prefix⟩) (by rw [walk, child]; rfl)
      exact if_neg plainKey
  | cons word rest ih =>
    obtain ⟨_, empty⟩ | ⟨nextToken, save', next, later⟩ := nextToken_cases save
    · cases empty.symm.trans words
    obtain ⟨rfl, rfl⟩ := cons.inj (later.symm.trans words)
    cases child : T.child k token with
    | none =>
      refine ⟨(T.children k).length + 1, fun visits enough => ?_⟩
      rw [parseTokens_cons token save rfl, spec visits enough, walk, child]
      rfl
    | some c =>
      have plainKey : ¬ IsSymlink H c := noLinks [token] c (cons_ne_nil _ _)
        (cons_prefix_cons.mpr ⟨rfl, nil_prefix⟩) (by rw [walk, child]; rfl)
      have below : T.Holds c := holds.child (child_spec child).1
      have plain' : ∀ word ∈ nextToken :: components save', word ≠ [] ∧ ∀ b ∈ word, b ≠ 0 :=
        fun word member => plain word (mem_cons_of_mem _ (later ▸ member))
      have noLinks' : ∀ names d, names ≠ [] → names <+: nextToken :: components save' →
          T.walk c names = some d → ¬ IsSymlink H d := fun names d _ initial reached =>
        noLinks (token :: names) d (cons_ne_nil _ _) (cons_prefix_cons.mpr ⟨rfl, later ▸ initial⟩)
          (by rw [walk, child, bind_some, reached])
      obtain ⟨nonempty', letters'⟩ := plain' nextToken mem_cons_self
      obtain ⟨bound, settled⟩ := ih below plain' noLinks' nonempty' letters'
        (fun visits enough => findSubkey_spec represents below nonempty' letters' enough) rfl
      refine ⟨max bound ((T.children k).length + 1), fun visits enough => ?_⟩
      rw [parseTokens_cons token save rfl, spec visits (le_of_max_le_right enough), walk, child, next]
      refine (if_neg plainKey).trans ?_
      exact settled visits (le_of_max_le_left enough)

end Walks
section Stored
variable {H : Hive} {T : NamedTree (BitVec 32) (List Byte)} {c : BitVec 32} {names : List (List Byte)}

/-- The path of the key that names lead to from the root. -/
def storedPath (names : List (List Byte)) : List Byte := registryPrefix ++ names.flatMap (slash :: ·)

def Storable (names : List (List Byte)) : Prop :=
  names.length ≤ maxComponents ∧ (storedPath names).length < vkMaxKeyPathLength

instance (names : List (List Byte)) : Decidable (Storable names) := inferInstanceAs (Decidable (_ ∧ _))

theorem Represents.name_plain (represents : Represents H T) (reached : T.walk T.root names = some c) :
    ∀ name ∈ names, PlainName name := by
  induction names using reverseRecOn generalizing c with
  | nil => exact fun name member => absurd member not_mem_nil
  | append_singleton front name ih =>
    obtain ⟨before, named, -⟩ := walk_last reached
    have above : T.Holds (T.parent c) := Holds.walk Under.root before
    rw [walk_concat, before, bind_some] at reached
    obtain ⟨member, -⟩ := child_spec reached
    intro word among
    rcases mem_append.mp among with among | among
    · exact ih before word among
    · obtain rfl := mem_singleton.mp among
      exact named ▸ represents.plain _ above c member

theorem pathComponents_spec (represents : Represents H T) (reached : T.walk T.root names = some c)
    (left : Nat) (below : List (Pointer Nat)) :
    if names.length ≤ left then ∃ nodes, pathComponents H left (cellOf H c) below = .ok (nodes ++ below) ∧
      nodes.map (nameAt H directoryNode) = names
    else pathComponents H left (cellOf H c) below = .error .nameTooLong := by
  induction names using reverseRecOn generalizing c left below with
  | nil =>
    obtain rfl := some.inj reached
    rw [length_nil, if_pos (Nat.zero_le _)]
    refine ⟨[], ?_, rfl⟩
    rw [pathComponents.eq_def, if_pos (represents.root ▸ represents.rootCell)]
    rfl
  | append_singleton front name ih =>
    obtain ⟨before, named, notRoot⟩ := walk_last reached
    have holds : T.Holds c := Holds.walk Under.root reached
    have above : T.Holds (T.parent c) := Holds.walk Under.root before
    have member : c ∈ T.children (T.parent c) := by
      rw [walk_concat, before, bind_some] at reached
      exact (child_spec reached).1
    have inside : cellOf H c ≠ rootNode := fun same => notRoot <|
      represents.apart c T.root holds Under.root (same.trans (represents.root ▸ represents.rootCell).symm)
    have word : nameAt H directoryNode (cellOf H c) = name := (represents.named c holds).trans named
    have nonempty : H.memory.read16 ((cellOf H c).add directoryNode.nameLength) ≠ 0 := by
      intro zero
      have short : (nameAt H directoryNode (cellOf H c)).length = 0 := by
        rw [nameAt, Memory.readBytes_length, zero]
        rfl
      have empty : name = [] := word.symm.trans (length_eq_zero_iff.mp short)
      exact (represents.plain _ above c member).1 (named.trans empty)
    have parent : H.memory.read32 ((cellOf H c).add 8) = T.parent c := represents.parent _ above c member
    have key := represents.key _ above
    rw [pathComponents.eq_def, if_neg inside, length_append, length_singleton]
    obtain _ | left := left
    · rw [if_neg (Nat.not_succ_le_zero _)]
    · have signature : H.memory.read16 ((cellOf H (T.parent c)).add 4) = keyDirSig := key.signature
      simp only [if_neg nonempty, parent, if_neg key.nonzero, key.cell, signature, ne_eq, not_true_eq_false,
        if_false, Nat.add_le_add_iff_right]
      have rest := ih before left (cellOf H c :: below)
      split
      next fits =>
        rw [if_pos fits] at rest
        obtain ⟨nodes, found, same⟩ := rest
        refine ⟨nodes ++ [cellOf H c], ?_, ?_⟩
        · rw [found, append_assoc, singleton_append]
        · rw [map_append, same, map_singleton, word]
      next many =>
        rw [if_neg many] at rest
        exact rest

theorem initializePath_spec (represents : Represents H T) (reached : T.walk T.root names = some c) :
    vkpInitializeKeyObjectPath H (some (cellOf H c)) =
      if Storable names then .ok (storedPath names) else .error .nameTooLong := by
  have collected := pathComponents_spec represents reached maxComponents []
  rw [vkpInitializeKeyObjectPath]
  by_cases few : names.length ≤ maxComponents
  · rw [if_pos few] at collected
    obtain ⟨nodes, found, rfl⟩ := collected
    have path : registryPrefix ++ nodes.flatMap (fun node => slash :: nameAt H directoryNode node) =
        storedPath (nodes.map (nameAt H directoryNode)) := by
      rw [storedPath, flatMap_map]
    simp only [found, append_nil, path]
    by_cases short : (storedPath (nodes.map (nameAt H directoryNode))).length < vkMaxKeyPathLength
    · have fits : Storable (nodes.map (nameAt H directoryNode)) := ⟨few, short⟩
      rw [if_neg (Nat.not_lt.mpr short), if_pos fits]
    · have long : ¬ Storable (nodes.map (nameAt H directoryNode)) := fun fits => short fits.2
      rw [if_pos (Nat.lt_succ_of_le (Nat.le_of_not_lt short)), if_neg long]
  · rw [if_neg few] at collected
    have many : ¬ Storable names := fun fits => few fits.1
    rw [collected, if_neg many]

end Stored
end VeaOS.Vk

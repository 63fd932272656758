import VeaOS.Vk.KeyPaths

/-! When a lookup opens the key that the components of a path lead to, with a path
that leads to it again. -/
namespace VeaOS.Vk
open Foundation List NamedTree Option

/-- What the object manager leaves out between an object and the name that remains. -/
def isObjectSeparator (b : Byte) : Bool := b == slash || b == 0x5C

/-- The name that remains of a stored path at the key of the system's hive. -/
def resolvedName (path : List Byte) : List Byte := (path.drop registryPrefix.length).dropWhile isObjectSeparator

def systemKey : KeyObject := ⟨some rootNode, rootOffset, registryPrefix⟩

/-- A lookup that is let run comes to a result. -/
def Settles (parse : Nat → Option KeyParse) (result : KeyParse) : Prop :=
  ∃ bound, ∀ visits ≥ bound, parse visits = some result

def KeyObject.IsKey (object : KeyObject) (H : Hive) (c : BitVec 32) : Prop :=
  object.keyNode = some (cellOf H c) ∧ object.keyOffset = c

section
variable (H : Hive) (T : NamedTree (BitVec 32) (List Byte)) (above : List (List Byte)) (k : BitVec 32)
  (lookup : KeyLookup) (created : Option VkStatus)

/-- The path that is stored for a key leads to the key. -/
def PathResolves (object : KeyObject) (c : BitVec 32) : Prop :=
  ∃ again, Settles (vkpParseKeyObject H systemKey
    { lookup with remainingName := resolvedName object.fullKeyPath } none) (.resolved again) ∧ again.IsKey H c

/-- A key that may not be opened: the access, memory, the length of the path or that of the stored path. -/
def Refused : Prop :=
  lookup.Denied ∨ created ≠ none ∨ sizeofPathBuffer ≤ lookup.remainingName.length ∨
    ¬ Storable (above ++ components lookup.remainingName)

/-- A lookup opens the key that the components lead to, or gives an error where there is none. -/
def ResolvesRight : KeyParse → Prop
  | .resolved object => ∃ c, T.walk k (components lookup.remainingName) = some c ∧ object.IsKey H c ∧
      PathResolves H lookup object c
  | .failed _ => Refused above lookup created ∨ T.walk k (components lookup.remainingName) = none
  | _ => False

def KeyLookup.followed : List (List Byte) := components (pathBuffer lookup.remainingName)

/-- A stored path that is not cut when it is followed. -/
def ShortPath (names : List (List Byte)) : Prop :=
  (storedPath names).length ≤ registryPrefix.length + sizeofPathBuffer

/-- A path is followed as a whole to a key with a short path, or does not lead to a key. -/
inductive FollowedWhole : Prop
  | denied (denied : lookup.Denied)
  | itself (empty : lookup.remainingName = []) (short : ShortPath above)
  | unmade (named : lookup.remainingName ≠ []) (failed : created ≠ none)
  | blank (blank : lookup.followed = []) (named : lookup.remainingName ≠ [])
      (other : sizeofPathBuffer ≤ lookup.remainingName.length ∨ components lookup.remainingName ≠ [])
  | unknown (word : lookup.followed ≠ []) (nowhere : T.walk k lookup.followed = none)
  | deep (word : lookup.followed ≠ []) (long : ¬ Storable (above ++ lookup.followed))
  | whole (word : lookup.followed ≠ []) (same : lookup.followed = components lookup.remainingName)
      (short : ShortPath (above ++ lookup.followed))

end

section Names
variable {names : List (List Byte)} {path name : List Byte}

theorem storedPath_length :
    (storedPath names).length = registryPrefix.length + (names.map (·.length + 1)).sum := by
  rw [storedPath, length_append, length_flatMap]
  rfl

theorem isSlash_of_plain (plain : PlainName name) : name ≠ [] ∧ ∀ b ∈ name, isSlash b = false :=
  ⟨plain.1, fun b member => beq_eq_false_iff_ne.mpr (plain.2 b member).2.1⟩

theorem resolvedName_spec (plain : ∀ name ∈ names, PlainName name) :
    components (resolvedName (storedPath names)) = names ∧
      (∀ b ∈ resolvedName (storedPath names), b ≠ 0) ∧
      (resolvedName (storedPath names)).length = (names.map (·.length + 1)).sum - 1 := by
  rw [resolvedName, storedPath, drop_left]
  obtain _ | ⟨first, rest⟩ := names
  · exact ⟨rfl, fun b member => absurd member not_mem_nil, rfl⟩
  obtain ⟨nonempty, letters⟩ := plain first mem_cons_self
  obtain ⟨c, word, rfl⟩ := exists_cons_of_ne_nil nonempty
  have letter : isObjectSeparator c = false := by
    obtain ⟨-, notSlash, notBackslash⟩ := letters c mem_cons_self
    exact Bool.or_eq_false_iff.mpr ⟨beq_eq_false_iff_ne.mpr notSlash, beq_eq_false_iff_ne.mpr notBackslash⟩
  have tail : (((c :: word) :: rest).flatMap (slash :: ·)).dropWhile isObjectSeparator =
      (c :: word) ++ rest.flatMap (slash :: ·) := by
    rw [flatMap_cons, cons_append, dropWhile_cons_of_pos rfl, cons_append,
      dropWhile_cons_of_neg (by simp [letter])]
  have whole : components (((c :: word) :: rest).flatMap (slash :: ·)) = (c :: word) :: rest :=
    fields_flatMap rfl fun name member => isSlash_of_plain (plain name member)
  rw [tail]
  refine ⟨?_, ?_, ?_⟩
  · rw [flatMap_cons, cons_append, components, fields_separator rfl] at whole
    exact whole
  · intro b member
    rcases mem_append.mp member with member | member
    · exact (letters b member).1
    · obtain ⟨name, among, member⟩ := mem_flatMap.mp member
      rcases mem_cons.mp member with rfl | member
      · decide
      · exact ((plain name (mem_cons_of_mem _ among)).2 b member).1
  · rw [length_append, length_flatMap, map_cons, sum_cons]
    simp only [length_cons]
    omega

theorem pathBuffer_plain : ∀ word ∈ components (pathBuffer name), word ≠ [] ∧ ∀ b ∈ word, b ≠ 0 := by
  intro word member
  refine ⟨(fields_plain word member).1, fun b inside => ?_⟩
  obtain ⟨among, -⟩ := mem_fields.mp ⟨word, member, inside⟩
  simpa using mem_takeWhile_imp among

theorem pathBuffer_whole (plain : ∀ b ∈ name, b ≠ 0) (short : name.length < sizeofPathBuffer) :
    pathBuffer name = name := by
  rw [pathBuffer, take_of_length_le (Nat.le_sub_one_of_lt short), rawString]
  exact takeWhile_eq_self_iff.mpr fun b member => by simpa using plain b member

theorem pathBuffer_length : (pathBuffer name).length < sizeofPathBuffer := by
  have cut := (List.takeWhile_prefix (l := name.take (sizeofPathBuffer - 1)) (· ≠ 0)).length_le
  rw [length_take] at cut
  rw [pathBuffer, rawString, sizeofPathBuffer] at *
  omega

end Names
section Outcomes
variable {H : Hive} {T : NamedTree (BitVec 32) (List Byte)} {names : List (List Byte)} {k c : BitVec 32}
  {object : KeyObject} {lookup : KeyLookup} {created : Option VkStatus}

theorem Settles.unique {parse : Nat → Option KeyParse} (settles : Settles parse result)
    (settles' : Settles parse result') : result = result' := by
  obtain ⟨bound, settled⟩ := settles
  obtain ⟨bound', settled'⟩ := settles'
  have last := settled (max bound bound') (Nat.le_max_left _ _)
  exact some.inj (last.symm.trans (settled' (max bound bound') (Nat.le_max_right _ _)))

theorem parse_named (sensitive : lookup.caseInsensitive = false) (allowed : ¬ lookup.Denied)
    (named : lookup.remainingName ≠ []) (visits : Nat) : vkpParseKeyObject H object lookup created visits =
      match vkpGetNextToken (pathBuffer lookup.remainingName) with
      | none => some (createKeyObject H created none 0)
      | some (token, save) =>
        match object.keyNode with
        | none =>
          if lookup.insertMode && (vkpGetNextToken save).isNone then some (.inserting token)
          else some (.failed .objectNameNotFound)
        | some keyNode => parseTokens H lookup.insertMode created visits keyNode token save := by
  have long : lookup.remainingName.length ≠ 0 := mt length_eq_zero_iff.mp named
  rw [vkpParseKeyObject, sensitive]
  exact (if_neg Bool.false_ne_true).trans ((if_neg allowed).trans (if_neg long))

theorem parse_itself (sensitive : lookup.caseInsensitive = false) (allowed : ¬ lookup.Denied)
    (empty : lookup.remainingName = []) (visits : Nat) :
    vkpParseKeyObject H object lookup created visits = some (.resolved object) := by
  rw [vkpParseKeyObject, sensitive, if_neg Bool.false_ne_true, if_neg allowed, empty]
  rfl

theorem parse_settles (represents : Represents H T) (holds : T.Holds k) (key : object.keyNode = some (cellOf H k))
    (sensitive : lookup.caseInsensitive = false) (notInsert : lookup.insertMode = false)
    (allowed : ¬ lookup.Denied) (named : lookup.remainingName ≠ [])
    (noLinks : ∀ names c, names ≠ [] → names <+: lookup.followed → T.walk k names = some c → ¬ IsSymlink H c) :
    Settles (vkpParseKeyObject H object lookup created)
      (if lookup.followed = [] then createKeyObject H created none 0
      else
        match T.walk k lookup.followed with
        | none => .failed .objectNameNotFound
        | some c => createKeyObject H created (some (cellOf H c)) c) := by
  obtain ⟨last, empty⟩ | ⟨token, save, next, words⟩ := nextToken_cases (pathBuffer lookup.remainingName)
  · refine ⟨0, fun visits _ => ?_⟩
    have followed : lookup.followed = [] := empty
    rw [parse_named sensitive allowed named, last, if_pos followed]
  · have followed : lookup.followed = token :: components save := words
    have plain : ∀ word ∈ token :: components save, word ≠ [] ∧ ∀ b ∈ word, b ≠ 0 := words ▸ pathBuffer_plain
    obtain ⟨bound, settled⟩ := parse_complete represents holds plain (followed ▸ noLinks)
    refine ⟨bound, fun visits enough => ?_⟩
    rw [parse_named sensitive allowed named, next, key, notInsert]
    dsimp only
    rw [settled visits enough, followed]
    exact congrArg some (if_neg (cons_ne_nil _ _)).symm

/-- A lookup that comes to a key is let through. -/
theorem parse_allowed (parsed : vkpParseKeyObject H object lookup created visits = some (.resolved again)) :
    lookup.caseInsensitive = false ∧ ¬ lookup.Denied := by
  rw [vkpParseKeyObject] at parsed
  split at parsed
  · cases parsed
  next sensitive =>
    split at parsed
    · cases parsed
    next allowed => exact ⟨Bool.eq_false_of_not_eq_true sensitive, allowed⟩

/-- The components lead to a key that is resolved. -/
theorem parse_resolved (represents : Represents H T) (holds : T.Holds k) (key : object.keyNode = some (cellOf H k))
    (named : lookup.remainingName ≠ [])
    (settles : Settles (vkpParseKeyObject H object lookup created) (.resolved again)) :
    ∃ c, T.walk k lookup.followed = some c ∧
      createKeyObject H created (some (cellOf H c)) c = .resolved again := by
  obtain ⟨bound, settled⟩ := settles
  have parsed := settled bound (Nat.le_refl _)
  obtain ⟨sensitive, allowed⟩ := parse_allowed parsed
  rw [parse_named sensitive allowed named] at parsed
  obtain ⟨last, empty⟩ | ⟨token, save, next, words⟩ := nextToken_cases (pathBuffer lookup.remainingName)
  · rw [last] at parsed
    cases created with
    | none | some => cases parsed
  · have plain : ∀ word ∈ token :: components save, word ≠ [] ∧ ∀ b ∈ word, b ≠ 0 := words ▸ pathBuffer_plain
    rw [next, key] at parsed
    have followed : lookup.followed = token :: components save := words
    rw [followed]
    exact parse_sound represents holds plain parsed

theorem create_key (represents : Represents H T) (reached : T.walk T.root names = some c) :
    createKeyObject H none (some (cellOf H c)) c =
      if Storable names then
        .resolved ⟨some (cellOf H c), c, storedPath names⟩
      else .failed .nameTooLong := by
  simp only [createKeyObject, initializePath_spec represents reached]
  by_cases fits : Storable names
  · rw [if_pos fits, if_pos fits]
  · rw [if_neg fits, if_neg fits]

theorem create_isKey (made : createKeyObject H created (some (cellOf H c)) c = .resolved object) :
    object.IsKey H c := by
  rw [createKeyObject.eq_def] at made
  split at made
  · cases made
  · split at made
    · cases made
    · cases made
      exact ⟨rfl, rfl⟩

theorem followed_stored (plain : ∀ name ∈ names, PlainName name)
    (remains : lookup.remainingName = resolvedName (storedPath names)) :
    lookup.followed = names ↔ ShortPath names := by
  obtain ⟨words, letters, long⟩ := resolvedName_spec plain
  rw [ShortPath, storedPath_length, Nat.add_le_add_iff_left, KeyLookup.followed, remains]
  constructor
  · intro followed
    have few := (@fields_length_le _ isSlash (pathBuffer (resolvedName (storedPath names)))).1
    have same : fields isSlash (pathBuffer (resolvedName (storedPath names))) = names := followed
    rw [same] at few
    exact few.trans pathBuffer_length
  · intro short
    by_cases empty : resolvedName (storedPath names) = []
    · rw [empty] at words
      rw [empty]
      exact words
    · have positive := length_pos_iff.mpr empty
      rw [pathBuffer_whole letters (by omega), words]

theorem pathResolves_iff (represents : Represents H T) (reached : T.walk T.root names = some c)
    (fits : Storable names) (stored : object.fullKeyPath = storedPath names)
    (sensitive : lookup.caseInsensitive = false) (notInsert : lookup.insertMode = false)
    (allowed : ¬ lookup.Denied)
    (noLinks : ∀ front c, front ≠ [] → front <+: names → T.walk T.root front = some c → ¬ IsSymlink H c) :
    PathResolves H lookup object c ↔ ShortPath names := by
  have plain := represents.name_plain reached
  have root : systemKey.keyNode = some (cellOf H T.root) := by
    rw [represents.root, represents.rootCell]
    rfl
  rw [PathResolves, stored]
  generalize again : ({ lookup with remainingName := resolvedName (storedPath names) } : KeyLookup) = lookup'
  have sensitive : lookup'.caseInsensitive = false := again ▸ sensitive
  have notInsert : lookup'.insertMode = false := again ▸ notInsert
  have allowed : ¬ lookup'.Denied := again ▸ allowed
  have remains : lookup'.remainingName = resolvedName (storedPath names) := again ▸ rfl
  rw [← followed_stored plain remains]
  by_cases named : lookup'.remainingName = []
  · have isRoot : names = [] := by
      rw [← (resolvedName_spec plain).1, ← remains, named]
      rfl
    obtain rfl := isRoot
    obtain rfl := some.inj reached
    refine iff_of_true ⟨systemKey, ⟨0, fun visits _ => parse_itself sensitive allowed named visits⟩, root,
      represents.root.symm⟩ ?_
    rw [KeyLookup.followed, named]
    rfl
  constructor
  · rintro ⟨object', settles, _, offset⟩
    obtain ⟨d, walked, made⟩ := parse_resolved represents Under.root root named settles
    obtain rfl : d = c := (create_isKey made).2.symm.trans offset
    exact walk_injective walked reached
  · intro followed
    have word : names ≠ [] := by
      rintro rfl
      exact named (remains.trans rfl)
    obtain ⟨bound, settled⟩ := @parse_settles H T T.root systemKey lookup' none represents Under.root root
      sensitive notInsert allowed named (followed.symm ▸ noLinks)
    refine ⟨⟨some (cellOf H c), c, storedPath names⟩, ⟨bound, fun visits enough => ?_⟩, rfl, rfl⟩
    rw [settled visits enough, followed, if_neg word, reached]
    exact congrArg some ((create_key represents reached).trans (if_pos fits))

end Outcomes
theorem followed_whole {H : Hive} {T : NamedTree (BitVec 32) (List Byte)} {above : List (List Byte)}
    {lookup : KeyLookup} (represents : Represents H T)
    (reached : T.walk T.root (above ++ components lookup.remainingName) = some c)
    (short : lookup.remainingName.length < sizeofPathBuffer) :
    lookup.followed = components lookup.remainingName := by
  have plain := represents.name_plain reached
  rw [KeyLookup.followed, pathBuffer_whole (fun b member zero => ?_) short]
  obtain ⟨word, among, inside⟩ := (@mem_fields _ isSlash _ _).mpr ⟨member, zero ▸ rfl⟩
  exact ((plain word (mem_append_right _ among)).2 b inside).1 zero

/-- A lookup opens the right key, with a path that leads to it again, just where the path is followed as
a whole. -/
theorem key_resolution_iff {H : Hive} {T : NamedTree (BitVec 32) (List Byte)} {above : List (List Byte)}
    {k : BitVec 32} {object : KeyObject} {lookup : KeyLookup} (represents : Represents H T)
    (opened : T.walk T.root above = some k) (key : object.IsKey H k)
    (stored : object.fullKeyPath = storedPath above) (fits : Storable above) (sensitive : lookup.caseInsensitive = false) (notInsert : lookup.insertMode = false)
    (noLinks : ∀ names c, names ≠ [] → names <+: above ++ lookup.followed → T.walk T.root names = some c →
      ¬ IsSymlink H c) (created : Option VkStatus) :
    (∃ result, Settles (vkpParseKeyObject H object lookup created) result ∧
      ResolvesRight H T above k lookup created result) ↔
    FollowedWhole T above k lookup created := by
  have holds : T.Holds k := Holds.walk Under.root opened
  have outcome {result : KeyParse} (settles : Settles (vkpParseKeyObject H object lookup created) result) :
      (∃ result, Settles (vkpParseKeyObject H object lookup created) result ∧
        ResolvesRight H T above k lookup created result) ↔ ResolvesRight H T above k lookup created result :=
    ⟨fun ⟨_, settles', right⟩ => settles.unique settles' ▸ right, fun right => ⟨result, settles, right⟩⟩
  by_cases denied : lookup.Denied
  · have settles : Settles (vkpParseKeyObject H object lookup created) (.failed .accessDenied) := by
      refine ⟨0, fun visits _ => ?_⟩
      rw [vkpParseKeyObject, sensitive, if_neg Bool.false_ne_true, if_pos denied]
    exact iff_of_true ((outcome settles).mpr (Or.inl (Or.inl denied))) (.denied denied)
  by_cases named : lookup.remainingName = []
  · have settles : Settles (vkpParseKeyObject H object lookup created) (.resolved object) :=
      ⟨0, fun visits _ => parse_itself sensitive denied named visits⟩
    have nothing : lookup.followed = [] := by
      rw [KeyLookup.followed, named]
      rfl
    rw [nothing, append_nil] at noLinks
    have again := pathResolves_iff represents opened fits stored sensitive notInsert denied noLinks
    rw [outcome settles, ResolvesRight, named]
    constructor
    · rintro ⟨c, reached, _, resolves⟩
      obtain rfl := some.inj reached
      exact .itself named (again.mp resolves)
    · intro whole
      cases whole with
      | denied isDenied => exact absurd isDenied denied
      | itself _ short => exact ⟨k, rfl, key, again.mpr short⟩
      | unmade word _ | blank _ word _ => exact absurd named word
      | unknown word _ | deep word _ | whole word _ _ => exact absurd nothing word
  have noLinks' : ∀ names c, names ≠ [] → names <+: lookup.followed → T.walk k names = some c →
      ¬ IsSymlink H c := by
    intro names c word initial reached
    refine noLinks (above ++ names) c (append_ne_nil_of_right_ne_nil _ word)
      (prefix_append_right_inj above |>.mpr initial) ?_
    rw [walk_append, opened, bind_some, reached]
  have settles : Settles (vkpParseKeyObject H object lookup created) _ :=
    parse_settles represents holds key.1 sensitive notInsert denied named noLinks'
  rw [outcome settles]
  have whole (short : lookup.remainingName.length < sizeofPathBuffer) (c : BitVec 32)
      (reached : T.walk k (components lookup.remainingName) = some c) :
      lookup.followed = components lookup.remainingName :=
    followed_whole represents (by rw [walk_append, opened, bind_some, reached]) short
  have failing (status : VkStatus) (nowhere : ∀ c, lookup.remainingName.length < sizeofPathBuffer →
      T.walk k (components lookup.remainingName) = some c →
        ¬ Storable (above ++ components lookup.remainingName)) :
      ResolvesRight H T above k lookup created (.failed status) := by
    by_cases short : lookup.remainingName.length < sizeofPathBuffer
    · cases reached : T.walk k (components lookup.remainingName) with
      | none => exact Or.inr reached
      | some c => exact Or.inl (Or.inr (Or.inr (Or.inr (nowhere c short reached))))
    · exact Or.inl (Or.inr (Or.inr (Or.inl (Nat.le_of_not_lt short))))
  cases created with
  | some status =>
    refine iff_of_true ?_ (.unmade named (some_ne_none status))
    have refused : Refused above lookup (some status) := Or.inr (Or.inl (some_ne_none status))
    split
    · exact Or.inl refused
    · split
      · exact Or.inl refused
      · exact Or.inl refused
  | none =>
    by_cases nothing : lookup.followed = []
    · rw [if_pos nothing]
      change ResolvesRight H T above k lookup none (.failed .invalidParameter) ↔ _
      constructor
      · intro right
        by_cases blank : components lookup.remainingName = []
        · refine .blank nothing named (Or.inl ?_)
          obtain (isDenied | failed | long | room) | nowhere := right
          · exact absurd isDenied denied
          · exact absurd rfl failed
          · exact long
          · rw [blank, append_nil] at room
            exact absurd fits room
          · rw [blank] at nowhere
            cases nowhere
        · exact .blank nothing named (Or.inr blank)
      · intro followed
        have other : sizeofPathBuffer ≤ lookup.remainingName.length ∨ components lookup.remainingName ≠ [] := by
          cases followed with
          | denied isDenied => exact absurd isDenied denied
          | itself empty _ => exact absurd empty named
          | unmade _ failed => exact absurd rfl failed
          | blank _ _ other => exact other
          | unknown word _ | deep word _ | whole word _ _ => exact absurd nothing word
        refine failing _ fun c short found => ?_
        obtain long | words := other
        · exact absurd long (Nat.not_le.mpr short)
        · exact absurd (nothing ▸ (whole short c found).symm) words
    rw [if_neg nothing]
    cases reached : T.walk k lookup.followed with
    | none =>
      refine iff_of_true (failing _ fun c short found => ?_) (.unknown nothing reached)
      rw [whole short c found, found] at reached
      cases reached
    | some c =>
      have below : T.walk T.root (above ++ lookup.followed) = some c := by
        rw [walk_append, opened, bind_some, reached]
      change ResolvesRight H T above k lookup none (createKeyObject H none (some (cellOf H c)) c) ↔ _
      rw [create_key represents below]
      by_cases room : Storable (above ++ lookup.followed)
      case neg =>
        rw [if_neg room]
        refine iff_of_true (failing _ fun c short found => ?_) (.deep nothing room)
        rwa [← whole short c found]
      rw [if_pos room]
      have again := @pathResolves_iff H T _ c
        ⟨some (cellOf H c), c, storedPath (above ++ lookup.followed)⟩ lookup represents below room rfl sensitive notInsert denied noLinks
      constructor
      · rintro ⟨d, found, ⟨-, same⟩, resolves⟩
        obtain rfl : c = d := same
        have other : T.walk T.root (above ++ components lookup.remainingName) = some c := by
          rw [walk_append, opened, bind_some, found]
        have same := append_cancel_left (walk_injective below other)
        exact .whole nothing same (again.mp resolves)
      · intro followed
        cases followed with
        | denied isDenied => exact absurd isDenied denied
        | itself empty _ => exact absurd empty named
        | unmade _ failed => exact absurd rfl failed
        | blank empty _ _ => exact absurd empty nothing
        | unknown _ nowhere => cases nowhere.symm.trans reached
        | deep _ long => exact absurd room long
        | whole _ same short => exact ⟨c, same ▸ reached, ⟨rfl, rfl⟩, again.mpr short⟩

/-- A key below the root, and a key below it. -/
def nestedImage : Nat → Byte :=
  (((((((((((((Memory.write32 (fun (_ : Unit) _ => 0) ⟨(), 0⟩ keyHeaderSig).write32 ⟨(), 0x1000⟩
    keyBinSig).write16 ⟨(), 0x101C⟩ keyDirSig).write32 ⟨(), 0x1024⟩ 0x1040).write16 ⟨(), 0x1044⟩
    keyDirSig).write32 ⟨(), 0x1048⟩ 0x1018).write32 ⟨(), 0x104C⟩ 0x1068).write16 ⟨(), 0x105C⟩ 1).writeBytes
    ⟨(), 0x105E⟩ [0x61]).write16 ⟨(), 0x106C⟩ keyDirSig).write32 ⟨(), 0x1070⟩ 0x1040).write16
    ⟨(), 0x1084⟩ 1).writeBytes ⟨(), 0x1086⟩ [0x62]) ()

theorem nestedImage_loads : (vkpInitializeSystemHive nestedImage 0x2000 (fun _ _ => 0) true).isSome = true := by
  decide

def nestedHive : Hive := (vkpInitializeSystemHive nestedImage 0x2000 (fun _ _ => 0) true).get nestedImage_loads

def nestedChildren (k : BitVec 32) : List (BitVec 32) :=
  if k = rootOffset then [0x1040] else if k = 0x1040 then [0x1068] else []

theorem nested_under (under : Under nestedChildren rootOffset k) : k = rootOffset ∨ k = 0x1040 ∨ k = 0x1068 := by
  cases under with
  | root => exact Or.inl rfl
  | child _ member =>
    rw [nestedChildren] at member
    split at member
    · exact Or.inr (Or.inl (mem_singleton.mp member))
    · split at member
      · exact Or.inr (Or.inr (mem_singleton.mp member))
      · cases member

def nestedTree : NamedTree (BitVec 32) (List Byte) where
  root := rootOffset
  children := nestedChildren
  name k := if k = 0x1040 then [0x61] else if k = 0x1068 then [0x62] else []
  parent k := if k = 0x1068 then 0x1040 else rootOffset
  parent_eq k under c member := by
    rcases nested_under under with rfl | rfl | rfl
    · obtain rfl := List.mem_singleton.mp member
      rfl
    · obtain rfl := List.mem_singleton.mp member
      rfl
    · cases member
  root_alone k under := by
    rcases nested_under under with rfl | rfl | rfl <;> decide
  distinct k under := by
    rcases nested_under under with rfl | rfl | rfl <;> decide

theorem nested_represents : Represents nestedHive nestedTree := by
  refine ⟨rfl, by decide, ?_, ?_, ?_, ?_, ?_, ?_⟩
  · intro k holds
    rcases nested_under holds with rfl | rfl | rfl
    · exact ⟨by decide, by decide, by decide, by decide⟩
    · exact ⟨by decide, by decide, by decide, by decide⟩
    · exact ⟨by decide, by decide, by decide, by decide⟩
  · intro k k' holds holds' same
    rcases nested_under holds with rfl | rfl | rfl <;> rcases nested_under holds' with rfl | rfl | rfl <;>
      first | rfl | exact absurd same (by decide)
  · intro k holds
    rcases nested_under holds with rfl | rfl | rfl
    · have last : nodeField nestedHive 0x1040 directoryNode.next = 0 := by decide
      exact ⟨by decide, last⟩
    · have last : nodeField nestedHive 0x1068 directoryNode.next = 0 := by decide
      exact ⟨by decide, last⟩
    · change nodeField nestedHive 0x1068 12 = 0
      decide
  · intro k holds c member
    rcases nested_under holds with rfl | rfl | rfl
    · obtain rfl : c = 0x1040 := mem_singleton.mp member
      decide
    · obtain rfl : c = 0x1068 := mem_singleton.mp member
      decide
    · cases member
  · intro k holds
    rcases nested_under holds with rfl | rfl | rfl <;> decide
  · intro k holds c member
    rcases nested_under holds with rfl | rfl | rfl
    · obtain rfl : c = 0x1040 := mem_singleton.mp member
      exact ⟨cons_ne_nil _ _, by decide⟩
    · obtain rfl : c = 0x1068 := mem_singleton.mp member
      exact ⟨cons_ne_nil _ _, by decide⟩
    · cases member

theorem nested_noLinks (names : List (List Byte)) (c : BitVec 32)
    (reached : nestedTree.walk nestedTree.root names = some c) : ¬ IsSymlink nestedHive c := by
  rw [IsSymlink, not_not]
  rcases nested_under (Holds.walk Under.root reached) with rfl | rfl | rfl <;> decide

def openLookup (name : List Byte) : KeyLookup := ⟨false, false, 0, 0, name⟩

/-- `/a//b` -/
def nestedName : List Byte := [slash, 0x61, slash, slash, 0x62]

/-- The key two levels down is opened, with separators repeated. -/
theorem key_resolution_nested : ∃ result,
    Settles (vkpParseKeyObject nestedHive systemKey (openLookup nestedName) none) result ∧
    ResolvesRight nestedHive nestedTree [] rootOffset (openLookup nestedName) none result := by
  have followed : (openLookup nestedName).followed = [[0x61], [0x62]] := by decide
  refine (key_resolution_iff nested_represents rfl ⟨by decide, rfl⟩ rfl (by decide) rfl rfl
    (fun names c _ _ reached => nested_noLinks names c reached) none).mpr (.whole ?_ ?_ ?_)
  · rw [followed]
    exact cons_ne_nil _ _
  · decide
  · have short : (storedPath [[0x61], [0x62]]).length ≤ registryPrefix.length + sizeofPathBuffer := by decide
    rw [followed]
    exact short

/-- A component, 254 separators, and a component that there is no room for. -/
def cutName : List Byte := 0x61 :: (List.replicate 254 slash ++ [0x63])

/-- The key of the first component is opened, though the other one names no key below it. -/
theorem key_resolution_cut :
    nestedTree.walk rootOffset (components cutName) = none ∧
    Settles (vkpParseKeyObject nestedHive systemKey (openLookup cutName) none)
      (.resolved ⟨some (cellOf nestedHive 0x1040), 0x1040, storedPath [[0x61]]⟩) ∧
    ¬ ∃ result, Settles (vkpParseKeyObject nestedHive systemKey (openLookup cutName) none) result ∧
      ResolvesRight nestedHive nestedTree [] rootOffset (openLookup cutName) none result := by
  have nowhere : nestedTree.walk rootOffset (components cutName) = none := by decide +kernel
  have followed : (openLookup cutName).followed = [[0x61]] := by decide +kernel
  have reached : nestedTree.walk rootOffset [[0x61]] = some 0x1040 := by decide
  have room : Storable [[0x61]] := by decide
  have made : createKeyObject nestedHive none (some (cellOf nestedHive 0x1040)) 0x1040 =
      .resolved ⟨some (cellOf nestedHive 0x1040), 0x1040, storedPath [[0x61]]⟩ :=
    (create_key nested_represents reached).trans (if_pos room)
  have settles : Settles (vkpParseKeyObject nestedHive systemKey (openLookup cutName) none) _ :=
    parse_settles nested_represents Under.root (by decide) rfl rfl (by decide) (cons_ne_nil _ _)
      (fun names c _ _ reached => nested_noLinks names c reached)
  have first : nestedTree.walk nestedTree.root (openLookup cutName).followed = some 0x1040 := by
    rw [followed]
    exact reached
  have word : (openLookup cutName).followed ≠ [] := by
    rw [followed]
    exact cons_ne_nil _ _
  rw [if_neg word, first] at settles
  have settles := (congrArg (Settles _) made).mp settles
  refine ⟨nowhere, settles, ?_⟩
  rintro ⟨result, settles', right⟩
  obtain rfl := settles.unique settles'
  obtain ⟨c, found, -⟩ := right
  cases nowhere.symm.trans found

end VeaOS.Vk

import Mathlib.Algebra.GroupWithZero.Nat
import Mathlib.Data.List.TakeWhile
import Mathlib.Data.List.Infix

/-! Text that is read field by field, with runs of separators between the fields. -/
namespace VeaOS.Foundation
open List
variable {α : Type} {separates : α → Bool} {text : List α}

/-- The fields of a text, of which none is empty. -/
def fields (separates : α → Bool) (text : List α) : List (List α) :=
  (text.splitOnP separates).filter (!·.isEmpty)

theorem drop_takeWhile (p : α → Bool) (text : List α) :
    text.drop (text.takeWhile p).length = text.dropWhile p := by
  have split := takeWhile_append_dropWhile (p := p) (l := text)
  calc text.drop (text.takeWhile p).length
      = (text.takeWhile p ++ text.dropWhile p).drop (text.takeWhile p).length := by rw [split]
    _ = text.dropWhile p := drop_left

theorem head_dropWhile {p : α → Bool} (kept : text.dropWhile p = c :: rest) : p c = false := by
  have head := head_dropWhile_not p (l := text) (by rw [kept]; exact cons_ne_nil c rest)
  simpa only [kept, head_cons] using head

@[simp] theorem fields_nil : fields separates [] = [] := rfl

theorem fields_separator (separator : separates c = true) :
    fields separates (c :: text) = fields separates text := by
  simp [fields, splitOnP_cons_eq_if_modifyHead, separator]

theorem fields_append (separator : separates c = true) :
    fields separates (front ++ c :: rest) = fields separates front ++ fields separates rest := by
  rw [fields, splitOnP_append_cons front rest separator, filter_append]
  rfl

theorem fields_word (nonempty : word ≠ []) (plain : ∀ c ∈ word, separates c = false) :
    fields separates word = [word] := by
  rw [fields, splitOnP_eq_singleton plain]
  simp [nonempty]

theorem fields_dropWhile : fields separates (text.dropWhile separates) = fields separates text := by
  induction text with
  | nil => rfl
  | cons c text ih =>
    cases separator : separates c with
    | true => rw [dropWhile_cons_of_pos separator, ih, fields_separator separator]
    | false => rw [dropWhile_cons_of_neg (by simp [separator])]

theorem fields_cons (first : text.dropWhile separates = c :: rest) :
    fields separates text = (c :: rest).takeWhile (!separates ·)
      :: fields separates ((c :: rest).dropWhile (!separates ·)) := by
  have plain : ∀ d ∈ (c :: rest).takeWhile (!separates ·), separates d = false := by
    intro d member
    simpa using mem_takeWhile_imp member
  have nonempty : (c :: rest).takeWhile (!separates ·) ≠ [] := by
    rw [takeWhile_cons_of_pos (by simp [head_dropWhile first])]
    exact cons_ne_nil _ _
  rw [← fields_dropWhile, first]
  have split := takeWhile_append_dropWhile (p := (!separates ·)) (l := c :: rest)
  cases after : (c :: rest).dropWhile (!separates ·) with
  | nil =>
    rw [after, append_nil] at split
    rw [fields_nil, split]
    exact fields_word (cons_ne_nil c rest) (split ▸ plain)
  | cons d tail =>
    have separator : separates d = true := by simpa using head_dropWhile after
    rw [after] at split
    rw [← congrArg (fields separates) split, fields_append separator, fields_word nonempty plain,
      fields_separator separator]
    rfl

theorem fields_eq_nil : fields separates text = [] ↔ text.dropWhile separates = [] := by
  constructor
  · intro empty
    cases first : text.dropWhile separates with
    | nil => rfl
    | cons c rest =>
      rw [fields_cons first] at empty
      cases empty
  · intro skipped
    rw [← fields_dropWhile, skipped, fields_nil]

theorem fields_induction (separates : α → Bool) {P : List α → Prop} (blank : ∀ text, text.dropWhile separates = [] → P text)
    (field : ∀ text c rest, text.dropWhile separates = c :: rest →
      P ((c :: rest).dropWhile (!separates ·)) → P text)
    (text : List α) : P text := by
  induction n : text.length using Nat.strong_induction_on generalizing text with
  | _ n ih =>
    cases first : text.dropWhile separates with
    | nil => exact blank text first
    | cons c rest =>
      refine field text c rest first (ih _ ?_ _ rfl)
      have skipped := (dropWhile_suffix (l := text) separates).length_le
      have later := (dropWhile_suffix (l := rest) (!separates ·)).length_le
      rw [first, length_cons] at skipped
      rw [dropWhile_cons_of_pos (by simp [head_dropWhile first])]
      omega

theorem fields_plain : ∀ word ∈ fields separates text, word ≠ [] ∧ ∀ c ∈ word, separates c = false := by
  induction text using fields_induction separates with
  | blank text blank =>
    rw [fields_eq_nil.mpr blank]
    exact fun word member => absurd member not_mem_nil
  | field text c rest first ih =>
    rw [fields_cons first]
    rintro word (_ | ⟨_, member⟩)
    · refine ⟨?_, fun d member => by simpa using mem_takeWhile_imp member⟩
      rw [takeWhile_cons_of_pos (by simp [head_dropWhile first])]
      exact cons_ne_nil _ _
    · exact ih word member

theorem mem_fields : (∃ word ∈ fields separates text, c ∈ word) ↔ c ∈ text ∧ separates c = false := by
  induction text using fields_induction separates with
  | blank text blank =>
    rw [fields_eq_nil.mpr blank]
    have all := dropWhile_eq_nil_iff.mp blank
    refine ⟨fun ⟨word, member, _⟩ => absurd member not_mem_nil, fun ⟨member, plain⟩ => ?_⟩
    exact absurd (all c member) (by simp [plain])
  | field text d rest first ih =>
    have skip := takeWhile_append_dropWhile (p := separates) (l := text)
    have split := takeWhile_append_dropWhile (p := (!separates ·)) (l := d :: rest)
    rw [fields_cons first, exists_mem_cons_iff, ih]
    constructor
    · rintro (member | ⟨member, plain⟩)
      · refine ⟨?_, by simpa using mem_takeWhile_imp member⟩
        rw [← skip, first, ← split]
        exact mem_append_right _ (mem_append_left _ member)
      · refine ⟨?_, plain⟩
        rw [← skip, first, ← split]
        exact mem_append_right _ (mem_append_right _ member)
    · rintro ⟨member, plain⟩
      rw [← skip, first, ← split] at member
      rcases mem_append.mp member with before | member
      · exact absurd (mem_takeWhile_imp before) (by simp [plain])
      · exact (mem_append.mp member).imp_right fun later => ⟨later, plain⟩

theorem fields_length_le : ((fields separates text).map (·.length + 1)).sum ≤ text.length + 1 ∧
    (text.head?.all separates → ((fields separates text).map (·.length + 1)).sum ≤ text.length) := by
  induction text using fields_induction separates with
  | blank text blank =>
    rw [fields_eq_nil.mpr blank]
    exact ⟨Nat.zero_le _, fun _ => Nat.zero_le _⟩
  | field text d rest first ih =>
    have skip := congrArg length (takeWhile_append_dropWhile (p := separates) (l := text))
    have split := congrArg length (takeWhile_append_dropWhile (p := (!separates ·)) (l := d :: rest))
    rw [first, length_append] at skip
    rw [length_append] at split
    have later : (((d :: rest).dropWhile (!separates ·)).head?.all separates) = true := by
      cases after : (d :: rest).dropWhile (!separates ·) with
      | nil => rfl
      | cons e tail => simpa using head_dropWhile after
    have few := ih.2 later
    rw [fields_cons first, map_cons, sum_cons]
    refine ⟨by omega, fun leads => ?_⟩
    obtain _ | ⟨e, tail⟩ := text
    · cases first
    · rw [head?_cons, Option.all_some] at leads
      rw [takeWhile_cons_of_pos leads, length_cons] at skip
      omega

theorem fields_flatMap (separator : separates c = true) {words : List (List α)}
    (plain : ∀ word ∈ words, word ≠ [] ∧ ∀ d ∈ word, separates d = false) :
    fields separates (words.flatMap (c :: ·)) = words := by
  induction words using reverseRecOn with
  | nil => rfl
  | append_singleton front word ih =>
    obtain ⟨nonempty, letters⟩ := plain word (by simp)
    rw [flatMap_append, flatMap_singleton, fields_append separator, fields_word nonempty letters,
      ih fun word member => plain word (mem_append_left _ member)]

/-- Two texts joined by a separator that the first one may end in already. -/
def join (separates : α → Bool) (separator : α) (front rest : List α) : List α :=
  if rest = [] then front
  else if front.getLast?.all separates then front ++ rest
  else front ++ separator :: rest

theorem fields_join (separator : separates c = true) :
    fields separates (join separates c front rest) = fields separates front ++ fields separates rest := by
  rw [join]
  split
  next empty => rw [empty, fields_nil, append_nil]
  next =>
    split
    next ended =>
      rcases eq_nil_or_concat front with rfl | ⟨text, d, rfl⟩
      · rfl
      · have separator : separates d = true := by simpa using ended
        rw [concat_eq_append, append_assoc, singleton_append, fields_append separator,
          fields_append separator, fields_nil, append_nil]
    next => exact fields_append separator

end VeaOS.Foundation

import VeaOS.Ob.Lookup

/-! What `ObpParseSymbolicLink` leaves in the reparse buffer. The two copies
yield the substituted path if it fits and the characters of the remaining name
lie behind those that are written before they are read. -/
namespace VeaOS.Ob
open Foundation Function List

/-- The characters of an array from a position on. -/
def slice (content : Nat → Char) (start length : Nat) : List Char :=
  (List.range' start length).map content

theorem slice_add (content : Nat → Char) (start n m : Nat) :
    slice content start (n + m) = slice content start n ++ slice content (start + n) m := by
  rw [slice, slice, slice, ← map_append, range'_append_1]

theorem slice_congr {content content' : Nat → Char}
    (same : ∀ i, start ≤ i → i < start + n → content i = content' i) :
    slice content start n = slice content' start n := by
  apply map_congr_left
  intro i member
  obtain ⟨lower, upper⟩ := mem_range'_1.mp member
  exact same i lower upper

theorem slice_cons (content : Nat → Char) (start n : Nat) :
    slice content start (n + 1) = content start :: slice content (start + 1) n := rfl

theorem slice_update_outside {content : Nat → Char} (outside : i < start ∨ start + n ≤ i) :
    slice (update content i c) start n = slice content start n := by
  apply slice_congr
  intro j lower upper
  exact update_of_ne (by omega) _ _

theorem remainingName_eq_slice (name : List Char) (ctx : LookupContext) :
    ctx.remainingName name = slice (readName name ctx.array ctx.reparseBuffer) ctx.offset ctx.length := rfl

theorem slice_readName_congr {buffer buffer' : Nat → Char}
    (same : array = .reparseBuffer → ∀ i, start ≤ i → buffer i = buffer' i) :
    slice (readName name array buffer) start n = slice (readName name array buffer') start n := by
  apply slice_congr
  intro i lower _
  cases array with
  | objectName => rfl
  | reparseBuffer => exact same rfl i lower

/-- The state of a copy after `text` was written from `tempLen` on. -/
structure Copied (copy : (Nat → Char) × Nat) (buffer : Nat → Char) (tempLen : Nat) (text : List Char) :
    Prop where
  count : copy.2 = tempLen + text.length
  content : slice copy.1 tempLen text.length = text
  before {i} : i < tempLen → copy.1 i = buffer i
  after {i} : tempLen + text.length ≤ i → copy.1 i = buffer i

namespace Copied
variable {copy middle : (Nat → Char) × Nat} {buffer : Nat → Char} {front rest : List Char}

theorem nil : Copied (buffer, tempLen) buffer tempLen [] :=
  ⟨rfl, rfl, fun _ => rfl, fun _ => rfl⟩

theorem cons (copied : Copied copy (update buffer tempLen c) (tempLen + 1) rest) :
    Copied copy buffer tempLen (c :: rest) where
  count := by
    rw [copied.count, length_cons]
    omega
  content := by
    rw [length_cons, slice_cons, copied.content, copied.before (Nat.lt_succ_self tempLen),
      update_self]
  before := by
    intro i below
    rw [copied.before (Nat.lt_succ_of_lt below), update_of_ne below.ne]
  after := by
    intro i above
    rw [length_cons] at above
    rw [copied.after (by omega), update_of_ne (by omega)]

theorem append (copied : Copied middle buffer tempLen front)
    (further : Copied copy middle.1 middle.2 rest) : Copied copy buffer tempLen (front ++ rest) where
  count := by
    rw [further.count, copied.count, length_append, Nat.add_assoc]
  content := by
    have start := copied.count
    rw [length_append, slice_add, ← start, further.content]
    congr 1
    calc slice copy.1 tempLen front.length
        = slice middle.1 tempLen front.length :=
          slice_congr fun i _ upper => further.before (by omega)
      _ = front := copied.content
  before := by
    intro i below
    have start := copied.count
    rw [further.before (by omega), copied.before below]
  after := by
    intro i above
    have start := copied.count
    rw [length_append] at above
    rw [further.after (by omega), copied.after (by omega)]

theorem getElem (copied : Copied copy buffer 0 front) (inside : i < front.length) :
    copy.1 i = front[i] := by
  have content := copied.content
  have bound : i < (slice copy.1 0 front.length).length := by simpa [slice] using inside
  calc copy.1 i = (slice copy.1 0 front.length)[i] := by simp [slice]
    _ = front[i] := by simp only [content]

end Copied

theorem copyTarget_spec (fits : tempLen + target.length ≤ maxLen) :
    Copied (copyTarget target buffer tempLen) buffer tempLen target := by
  induction target generalizing buffer tempLen with
  | nil => exact .nil
  | cons c target ih =>
    rw [length_cons] at fits
    rw [copyTarget, if_pos (by omega)]
    exact (ih (by omega)).cons

theorem copyRemaining_spec (fits : tempLen + n ≤ maxLen) (apart : array = .reparseBuffer → tempLen ≤ remBuf) :
    Copied (copyRemaining name array n remBuf buffer tempLen) buffer tempLen
      (slice (readName name array buffer) remBuf n) := by
  induction n generalizing remBuf buffer tempLen with
  | zero => exact .nil
  | succ n ih =>
    rw [copyRemaining, if_pos (by omega), slice_cons]
    apply Copied.cons
    have unread : slice (readName name array buffer) (remBuf + 1) n
        = slice (readName name array
            (update buffer tempLen (readName name array buffer remBuf))) (remBuf + 1) n := by
      apply slice_readName_congr
      intro inside i above
      have behind := apart inside
      exact (update_of_ne (by omega) _ _).symm
    rw [unread]
    exact ih (by omega) fun inside => Nat.succ_le_succ (apart inside)

/-- The path that a link's target and the components after the link make up. -/
def substituted (target rest : List Char) : List Char :=
  join isSeparator '/' target (rest.dropWhile isSeparator)

/-- The characters that are written before the remaining name is read lie before it. -/
def Apart (ctx : LookupContext) (name target : List Char) : Prop :=
  ctx.array = .reparseBuffer → ctx.remainingName name = [] ∨
    (substituted target (ctx.remainingName name)).length
      ≤ ctx.offset + ((ctx.remainingName name).dropWhile isSeparator).length

/-- A target with the separator that the remaining name needs. -/
def separated (target : List Char) : List Char :=
  if target.getLast?.all isSeparator then target else target ++ ['/']

theorem substituted_of_end (ended : rest.dropWhile isSeparator = []) : substituted target rest = target := by
  rw [substituted, ended, join, if_pos rfl]

theorem substituted_of_rest (remains : rest.dropWhile isSeparator ≠ []) :
    substituted target rest = separated target ++ rest.dropWhile isSeparator := by
  rw [substituted, join, if_neg remains, separated]
  split
  next => rfl
  next => exact append_cons ..

theorem length_le_separated : target.length ≤ (separated target).length := by
  rw [separated]
  split
  next => exact Nat.le_refl _
  next => exact length_append.symm ▸ Nat.le_add_right ..

theorem Copied.separator (copied : Copied copy buffer 0 target) (below : target.length < maxLen) :
    Copied (if 0 < copy.2 ∧ isSeparator (copy.1 (copy.2 - 1)) = false ∧ copy.2 < maxLen then
      (update copy.1 copy.2 '/', copy.2 + 1) else copy) buffer 0 (separated target) := by
  have count : copy.2 = target.length := by rw [copied.count, Nat.zero_add]
  rcases eq_nil_or_concat target with rfl | ⟨text, c, rfl⟩
  · rw [if_neg fun positive => by simp [count] at positive]
    exact copied
  · have last : copy.1 (copy.2 - 1) = c := by
      rw [count, copied.getElem (by simp)]
      simp
    rw [last, separated, concat_eq_append, getLast?_append_cons, getLast?_singleton,
      Option.all_some, ← concat_eq_append]
    cases ended : isSeparator c with
    | true =>
      rw [if_neg (by simp), if_pos rfl]
      exact copied
    | false =>
      rw [if_pos ⟨by rw [count]; simp, rfl, by omega⟩, if_neg Bool.false_ne_true]
      exact copied.append (.cons .nil)

theorem LookupContext.slice_skipped (ctx : LookupContext) (name : List Char) :
    slice (readName name ctx.array ctx.reparseBuffer) (ctx.skipSeparators name).offset
      (ctx.skipSeparators name).length = (ctx.remainingName name).dropWhile isSeparator :=
  LookupContext.remainingName_skip

theorem length_substituted (target rest : List Char) :
    target.length + (rest.dropWhile isSeparator).length ≤ (substituted target rest).length := by
  by_cases ended : rest.dropWhile isSeparator = []
  · rw [substituted_of_end ended, ended, length_nil, Nat.add_zero]
  · rw [substituted_of_rest ended, length_append]
    exact Nat.add_le_add_right length_le_separated _

theorem Apart.target_le (apart : Apart ctx name target) (inside : ctx.array = .reparseBuffer)
    (remains : ctx.remainingName name ≠ []) : target.length ≤ ctx.offset := by
  have behind := (apart inside).resolve_left remains
  have length := length_substituted target (ctx.remainingName name)
  omega

theorem Apart.unread (apart : Apart ctx name target) (copied : Copied copy ctx.reparseBuffer 0 target) :
    LookupContext.remainingName name { ctx with reparseBuffer := copy.1 } = ctx.remainingName name := by
  by_cases empty : ctx.remainingName name = []
  · have nothing : ctx.length = 0 := by
      rw [← ctx.remainingName_length name, empty, length_nil]
    rw [empty]
    apply eq_nil_of_length_eq_zero
    rw [LookupContext.remainingName_length, nothing]
  · apply slice_readName_congr
    intro inside i above
    have behind := apart.target_le inside empty
    exact copied.after (by dsimp only at above; omega)

theorem substituteTarget_copied (fits : (substituted target (ctx.remainingName name)).length ≤ maxLen)
    (apart : Apart ctx name target) :
    ∃ copy, Copied copy ctx.reparseBuffer 0 (substituted target (ctx.remainingName name)) ∧
      substituteTarget name target ctx =
        { ctx with
          array := .reparseBuffer
          offset := 0
          length := copy.2
          reparseBuffer := update copy.1 copy.2 '\x00' } := by
  have length := length_substituted target (ctx.remainingName name)
  have copied : Copied (copyTarget target ctx.reparseBuffer 0) ctx.reparseBuffer 0 target :=
    copyTarget_spec (by omega)
  rw [substituteTarget]
  generalize copyTarget target ctx.reparseBuffer 0 = first at copied
  have skipped : LookupContext.skipSeparators name { ctx with reparseBuffer := first.1 }
      = { ctx.skipSeparators name with reparseBuffer := first.1 } := by
    rw [LookupContext.skipSeparators, apart.unread copied]
    rfl
  have left : (ctx.skipSeparators name).length = ((ctx.remainingName name).dropWhile isSeparator).length := by
    rw [← LookupContext.remainingName_skip, LookupContext.remainingName_length]
  dsimp only
  rw [skipped]
  dsimp only
  by_cases ended : (ctx.remainingName name).dropWhile isSeparator = []
  · rw [if_pos (by rw [left, ended, length_nil]), substituted_of_end ended]
    exact ⟨first, copied, rfl⟩
  · have positive := length_pos_of_ne_nil ended
    rw [if_neg (by omega)]
    have separator := copied.separator (by omega)
    generalize (if 0 < first.2 ∧ isSeparator (first.1 (first.2 - 1)) = false ∧ first.2 < maxLen then
      (update first.1 first.2 '/', first.2 + 1) else first) = second at separator ⊢
    have total : (substituted target (ctx.remainingName name)).length
        = (separated target).length + (ctx.skipSeparators name).length := by
      rw [substituted_of_rest ended, length_append, left]
    have behind : ctx.array = .reparseBuffer → (separated target).length ≤ (ctx.skipSeparators name).offset := by
      intro inside
      have remains : ctx.remainingName name ≠ [] := fun empty => ended (by rw [empty]; rfl)
      have apart := (apart inside).resolve_left remains
      have forward : ctx.offset ≤ (ctx.skipSeparators name).offset := Nat.le_add_right ..
      omega
    have rest : slice (readName name ctx.array second.1) (ctx.skipSeparators name).offset
        (ctx.skipSeparators name).length = (ctx.remainingName name).dropWhile isSeparator := by
      rw [← ctx.slice_skipped]
      apply slice_readName_congr
      intro inside i above
      have reached := behind inside
      exact separator.after (by omega)
    have count := separator.count
    refine ⟨_, ?_, rfl⟩
    rw [substituted_of_rest ended, ← rest]
    exact separator.append (copyRemaining_spec (by omega) fun inside => by have := behind inside; omega)

theorem substituteTarget_spec (fits : (substituted target (ctx.remainingName name)).length ≤ maxLen)
    (apart : Apart ctx name target) :
    (substituteTarget name target ctx).remainingName name = substituted target (ctx.remainingName name) ∧
      isSeparator ((substituteTarget name target ctx).reparseBuffer 0)
        = (substituted target (ctx.remainingName name)).head?.any isSeparator := by
  obtain ⟨copy, copied, result⟩ := substituteTarget_copied fits apart
  have count := copied.count
  rw [Nat.zero_add] at count
  rw [result]
  constructor
  · rw [remainingName_eq_slice]
    calc slice (update copy.1 copy.2 '\x00') 0 copy.2
        = slice copy.1 0 copy.2 := slice_update_outside (Or.inr (by omega))
      _ = substituted target (ctx.remainingName name) := by rw [count, copied.content]
  · cases path : substituted target (ctx.remainingName name) with
    | nil =>
      rw [path, length_nil] at count
      dsimp only
      rw [count, update_self]
      rfl
    | cons c rest =>
      rw [path] at copied count
      have first := copied.getElem (Nat.zero_lt_succ rest.length)
      dsimp only
      rw [update_of_ne (by rw [count]; exact (Nat.succ_ne_zero _).symm), first]
      rfl

end VeaOS.Ob

import VeaOS.Ob.ObjectRuns

/-! The entry that a token finds. No two entries of a directory match one token,
so that an object is found under its own name in either mode. -/
namespace VeaOS.Ob
open Ul LookupContext

theorem obpMatchToken_self (caseInsensitive : Bool) (name : List Char) :
    obpMatchToken caseInsensitive name name = true := by
  induction name with
  | nil => rfl
  | cons c rest ih => rw [obpMatchToken, ih, beq_self_eq_true, Bool.and_self]

theorem sameName_of_match (found : obpMatchToken caseInsensitive token name = true) : sameName name token = true := by
  induction token generalizing name with
  | nil =>
    cases name with
    | nil => rfl
    | cons => cases found
  | cons c rest ih =>
    cases name with
    | nil => cases found
    | cons d more =>
      rw [obpMatchToken, Bool.and_eq_true] at found
      have letters : lowerCase d = lowerCase c := by
        have folded := eq_of_beq found.1
        cases caseInsensitive with
        | true => exact folded
        | false => exact congrArg lowerCase folded
      rw [sameName, letters, beq_self_eq_true, Bool.true_and]
      exact ih found.2

theorem Names.finds (names : Names σ) (directory : directoryOf σ o = some d) (name : nameOf σ o = some n)
    (root : Object) (caseInsensitive : Bool) :
    obpLookupEntryDirectory (σ.namespaceAt root) d n caseInsensitive = some o := by
  rw [obpLookupEntryDirectory]
  have stored : ∀ x, (σ.namespaceAt root).name x = nameOf σ x := fun _ => rfl
  have entries : (σ.namespaceAt root).entries d = σ.entries d := rfl
  rw [entries]
  cases found : (σ.entries d).find? fun object =>
      ((σ.namespaceAt root).name object).any (obpMatchToken caseInsensitive n) with
  | none =>
    have missed := List.find?_eq_none.mp found o (names.entry.mpr directory)
    rw [stored, name, Option.any_some, obpMatchToken_self] at missed
    exact absurd rfl missed
  | some x =>
    have listed := names.entry.mp (List.mem_of_find?_eq_some found)
    have matched := List.find?_some found
    rw [stored] at matched
    obtain ⟨m, named⟩ := names.named listed
    rw [named, Option.any_some] at matched
    by_contra other
    have different : x ≠ o := fun same => other (congrArg some same)
    have apart := names.distinct listed directory different named name
    rw [sameName_of_match matched] at apart
    cases apart

theorem Names.misses (names : Names σ) (unlinked : directoryOf σ o = none) (root d : Object) (token : List Char)
    (caseInsensitive : Bool) : obpLookupEntryDirectory (σ.namespaceAt root) d token caseInsensitive ≠ some o := by
  intro found
  have member : o ∈ σ.entries d := List.mem_of_find?_eq_some found
  rw [names.entry, unlinked] at member
  cases member

def Plain (name : List Char) : Prop := name ≠ [] ∧ ∀ c ∈ name, isSeparator c = false ∧ c ≠ '\x00'

theorem plain_singleton {c : Char} (word : isSeparator c = false) (other : c ≠ '\x00') : Plain [c] :=
  ⟨List.cons_ne_nil _ _, List.forall_mem_singleton.mpr ⟨word, other⟩⟩

theorem Plain.token {ctx : LookupContext} (plain : Plain name) (remains : ctx.remainingName objectName = name) :
    ∃ next, obpGetNextPathToken objectName ctx = (next, some name) ∧ next.length = 0 := by
  obtain ⟨c, rest, rfl⟩ := List.exists_cons_of_ne_nil plain.1
  have unskipped : ctx.skipSeparators objectName = ctx.advance 0 := by
    rw [skipSeparators, remains, List.takeWhile_cons_of_neg]
    · rfl
    · rw [(plain.2 c List.mem_cons_self).1]
      exact Bool.false_ne_true
  have token : (ctx.remainingName objectName).takeWhile (fun c => !isSeparator c && c != '\x00') = c :: rest := by
    rw [remains]
    apply List.takeWhile_eq_self_iff.mpr
    intro c member
    obtain ⟨separator, terminator⟩ := plain.2 c member
    rw [separator, bne_iff_ne.mpr terminator]
    rfl
  refine ⟨(ctx.advance 0).advance (c :: rest).length, ?_, ?_⟩
  · rw [obpGetNextPathToken, unskipped, remainingName_advance, List.drop_zero, token]
    exact if_neg (List.cons_ne_nil c rest)
  · rw [advance_length, advance_length, Nat.sub_zero,
      ← remainingName_length objectName ctx, remains, Nat.sub_self]

theorem Names.opens (names : Names σ) (directory : directoryOf σ o = some d) (name : nameOf σ o = some n)
    (plain : Plain n) (unparsed : (σ.header o).type.hasParseRoutine = false) (root : Object)
    (parse : Object → List Char → ParseOutcome) (caseInsensitive insertMode : Bool) :
    lookupObjectName (σ.namespaceAt root) parse ⟨n, some d, none, caseInsensitive, insertMode⟩
      = ⟨.success, some o, o⟩ := by
  have type : (σ.namespaceAt root).type d = .directory := (names.directory directory).1
  obtain ⟨next, token, consumed⟩ := plain.token (remainingName_initial n d)
  have skipped := (next.moveTo o).skip_length_le n
  have entered : enterObject (σ.namespaceAt root) ⟨n, some d, none, caseInsensitive, insertMode⟩ next o
      = .inr ⟨.success, some o, o⟩ := by
    have rest : ((next.moveTo o).skipSeparators n).length = 0 :=
      Nat.eq_zero_of_le_zero (skipped.trans_eq consumed)
    have leaf : ((σ.namespaceAt root).type o).hasParseRoutine = false := unparsed
    rw [enterObject]
    simp only [rest, leaf, true_and, if_true]
    exact congrArg Sum.inr (if_neg fun expected => by obtain ⟨_, ⟨⟩, _⟩ := expected)
  rw [lookupObjectName]
  apply lookupLoop_done
  rw [lookupStep]
  have start : (initial n (LookupRequest.start ⟨n, some d, none, caseInsensitive, insertMode⟩
      (σ.namespaceAt root))).currentDirectory = d := rfl
  have token : obpGetNextPathToken n (initial n (LookupRequest.start
      ⟨n, some d, none, caseInsensitive, insertMode⟩ (σ.namespaceAt root))) = (next, some n) := token
  simp only [start, type, token, names.finds directory name]
  exact entered

end VeaOS.Ob

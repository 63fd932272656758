import VeaOS.Ob.Lookup

/-! The rounds of a lookup. Each one takes a component off the remaining name or is one of at
most 32 reparses, so they come to an end wherever the directories and the links lead. -/
namespace VeaOS.Ob
open Foundation

variable {N : Namespace} {parse : Object → List Char → ParseOutcome} {request : LookupRequest}
  {ctx next following : LookupContext} {result : LookupResult} {name token : List Char}

def lookupRounds (N : Namespace) (parse : Object → List Char → ParseOutcome) (request : LookupRequest) :
    Nat → LookupContext → LookupContext ⊕ LookupResult
  | 0, ctx => .inl ctx
  | rounds + 1, ctx =>
    match lookupStep N parse request ctx with
    | .inr result => .inr result
    | .inl next => lookupRounds N parse request rounds next

theorem lookupRounds_done (stepped : lookupStep N parse request ctx = .inr result) :
    lookupRounds N parse request 1 ctx = .inr result := by
  rw [lookupRounds, stepped]

theorem lookupRounds_next (stepped : lookupStep N parse request ctx = .inl next) (rounds : Nat) :
    lookupRounds N parse request (rounds + 1) ctx = lookupRounds N parse request rounds next := by
  rw [lookupRounds, stepped]

theorem lookupRounds_end (N : Namespace) (parse : Object → List Char → ParseOutcome) (request : LookupRequest)
    (ctx : LookupContext) :
    ∃ rounds, lookupRounds N parse request rounds ctx = .inr (lookupLoop N parse request ctx) := by
  refine lookupLoop_rec (P := fun ctx result => ∃ rounds, lookupRounds N parse request rounds ctx = .inr result)
    (fun ctx result stepped => ⟨1, lookupRounds_done stepped⟩) (fun ctx next stepped ended => ?_) ctx
  obtain ⟨rounds, ended⟩ := ended
  exact ⟨rounds + 1, (lookupRounds_next stepped rounds).trans ended⟩

section Round

/-- A component of the name is taken off, with the separators on both sides of it. -/
structure Consumes (name : List Char) (ctx next : LookupContext) : Prop where
  component : ∃ before token after, token ≠ [] ∧ (∀ c ∈ token, isSeparator c = false) ∧
    (∀ c ∈ before ++ after, isSeparator c = true) ∧
    ctx.remainingName name = before ++ token ++ after ++ next.remainingName name
  sameCount : next.reparseCount = ctx.reparseCount

/-- One more of the reparses, of which there are at most 32. -/
structure Reparses (ctx next : LookupContext) : Prop where
  counted : next.reparseCount = ctx.reparseCount + 1
  bounded : next.reparseCount ≤ 32

theorem countReparse_reparses {reparsed : LookupContext} (counted : countReparse ctx reparsed = .inl next) :
    Reparses ctx next := by
  rw [countReparse] at counted
  split at counted
  · cases counted
  · next below =>
      obtain rfl := Sum.inl.inj counted
      exact ⟨rfl, Nat.le_of_not_lt below⟩

theorem remainingName_split (name : List Char) (ctx : LookupContext) : ∃ before,
    (∀ c ∈ before, isSeparator c = true) ∧
      ctx.remainingName name = before ++ (ctx.skipSeparators name).remainingName name := by
  refine ⟨(ctx.remainingName name).takeWhile isSeparator, fun c member => List.mem_takeWhile_imp member, ?_⟩
  rw [LookupContext.remainingName_skip, List.takeWhile_append_dropWhile]

theorem obpGetNextPathToken_split (found : obpGetNextPathToken name ctx = (following, some token)) :
    token ≠ [] ∧ (∀ c ∈ token, isSeparator c = false) ∧ ∃ before, (∀ c ∈ before, isSeparator c = true) ∧
      ctx.remainingName name = before ++ token ++ following.remainingName name := by
  obtain ⟨before, separators, whole⟩ := remainingName_split name ctx
  rw [obpGetNextPathToken] at found
  split at found
  · cases found
  · next nonempty =>
      obtain ⟨rfl, same⟩ := Prod.mk.inj found
      obtain rfl := Option.some.inj same
      refine ⟨nonempty, fun c member => ?_, before, separators, ?_⟩
      · have plain := List.mem_takeWhile_imp member
        simp only [Bool.and_eq_true, Bool.not_eq_true'] at plain
        exact plain.1
      · rw [LookupContext.remainingName_advance, drop_takeWhile, List.append_assoc,
          List.takeWhile_append_dropWhile]
        exact whole

theorem enterObject_consumes {object : Object}
    (found : obpGetNextPathToken request.objectName ctx = (following, some token))
    (entered : enterObject N request following object = .inl next) : Consumes request.objectName ctx next := by
  obtain ⟨nonempty, plain, before, separators, whole⟩ := obpGetNextPathToken_split found
  have count : following.reparseCount = ctx.reparseCount := by
    rw [← obpGetNextPathToken_count request.objectName ctx, found]
  rw [enterObject] at entered
  split at entered
  · cases entered
  · obtain rfl := Sum.inl.inj entered
    obtain ⟨after, separators', rest⟩ := remainingName_split request.objectName (following.moveTo object)
    refine ⟨⟨before, token, after, nonempty, plain, fun c member => ?_, ?_⟩, count⟩
    · exact (List.mem_append.mp member).elim (separators c) (separators' c)
    · have moved : (following.moveTo object).remainingName request.objectName =
          following.remainingName request.objectName := LookupContext.remainingName_moveTo ..
      rw [whole, ← moved, rest, List.append_assoc _ after]

theorem lookupStep_progress (stepped : lookupStep N parse request ctx = .inl next) :
    Consumes request.objectName ctx next ∨ Reparses ctx next := by
  rw [lookupStep] at stepped
  split at stepped
  · split at stepped
    · exact .inr (countReparse_reparses stepped)
    · exact .inr (countReparse_reparses stepped)
  · split at stepped
    · cases stepped
    · cases stepped
    · exact .inr (countReparse_reparses stepped)
    · cases stepped
  · cases stepped
  · split at stepped
    · cases stepped
    · next found =>
        split at stepped
        · cases stepped
        · exact .inl (enterObject_consumes found stepped)

end Round

/-- Every lookup returns, whatever its directories, links and parse routines are, and each round
before the last one consumes a component or is one of 32 reparses. -/
theorem lookup_terminates (N : Namespace) (parse : Object → List Char → ParseOutcome) (request : LookupRequest) :
    (∃ rounds, lookupRounds N parse request rounds (.initial request.objectName (request.start N)) =
      .inr (lookupObjectName N parse request)) ∧
    ∀ ctx next, lookupStep N parse request ctx = .inl next →
      Consumes request.objectName ctx next ∨ Reparses ctx next :=
  ⟨lookupRounds_end N parse request _, fun _ _ stepped => lookupStep_progress stepped⟩

end VeaOS.Ob

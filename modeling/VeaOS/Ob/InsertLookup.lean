import VeaOS.Ob.OpenNames
import Mathlib.Data.List.Find

/-! Insert, then look up. The insertion puts an object where the walk of its path
misses a component, under the last name of the path as it was given; a link that
ends the path makes the two differ. -/
namespace VeaOS.Ob
open Sf Ul Transition ObState LookupRequest Option

section
variable {N N' : Namespace} {parse : Object → List Char → ParseOutcome} {request : LookupRequest}

def Walks (N : Namespace) (parse : Object → List Char → ParseOutcome) (request : LookupRequest)
    (ctx : LookupContext) : Prop :=
  Relation.ReflTransGen (fun a b => lookupStep N parse request a = .inl b)
    (.initial request.objectName (request.start N)) ctx

theorem Walks.loop (walks : Walks N parse request ctx) :
    lookupObjectName N parse request = lookupLoop N parse request ctx := by
  induction walks with
  | refl => rfl
  | tail _ stepped ih => rw [ih, lookupLoop_next stepped]

/-- The component of a path that no entry of a directory has, the last of what remains. -/
structure Misses (N : Namespace) (parse : Object → List Char → ParseOutcome) (request : LookupRequest)
    (d : Object) (token : List Char) (ctx next : LookupContext) : Prop where
  walks : Walks N parse request ctx
  here : ctx.currentDirectory = d
  directory : N.type d = .directory
  found : obpGetNextPathToken request.objectName ctx = (next, some token)
  last : next.length = 0
  missing : obpLookupEntryDirectory N d token request.caseInsensitive = none

theorem Walks.asked {request' : LookupRequest} (walks : Walks N parse request ctx)
    (objectName : request'.objectName = request.objectName) (rootObject : request'.rootObject = request.rootObject)
    (caseInsensitive : request'.caseInsensitive = request.caseInsensitive) : Walks N parse request' ctx := by
  have start : request'.start N = request.start N := by rw [start, start, rootObject]
  have reparse : ∀ next, reparseDirectory N request' next = reparseDirectory N request next := fun next => by
    rw [reparseDirectory, reparseDirectory, rootObject]
  have goes : ∀ a b, lookupStep N parse request a = .inl b → lookupStep N parse request' a = .inl b := by
    intro a b stepped
    rw [lookupStep] at stepped ⊢
    rw [objectName, caseInsensitive]
    simp only [reparse]
    split at stepped
    next => exact stepped
    next =>
      split at stepped
      next => cases stepped
      next => cases stepped
      next => exact stepped
      next => cases stepped
    next => cases stepped
    next =>
      split at stepped
      next => cases stepped
      next =>
        split at stepped
        next => cases stepped
        next =>
          rw [enterObject] at stepped ⊢
          rw [objectName]
          split at stepped
          next => cases stepped
          next more =>
            rw [if_neg more]
            exact stepped
  rw [Walks, start, objectName]
  exact Relation.ReflTransGen.mono goes _ _ walks

theorem Misses.asked (misses : Misses N parse request d token ctx next) (request' : LookupRequest)
    (objectName : request'.objectName = request.objectName) (rootObject : request'.rootObject = request.rootObject)
    (caseInsensitive : request'.caseInsensitive = request.caseInsensitive) :
    Misses N parse request' d token ctx next where
  walks := misses.walks.asked objectName rootObject caseInsensitive
  here := misses.here
  directory := misses.directory
  found := objectName ▸ misses.found
  last := misses.last
  missing := caseInsensitive ▸ misses.missing

/-- A walk that ends without an object, and without an error, in a directory
misses the last component. -/
theorem lookup_misses (success : (lookupObjectName N parse request).status.isSuccess = true)
    (nothing : (lookupObjectName N parse request).foundObject = none)
    (directory : N.type (lookupObjectName N parse request).currentDirectory = .directory) :
    ∃ token ctx next, Misses N parse request (lookupObjectName N parse request).currentDirectory token ctx next := by
  have ended : ∀ ctx, Walks N parse request ctx → ∀ result, lookupLoop N parse request ctx = result →
      result.status.isSuccess = true → result.foundObject = none → N.type result.currentDirectory = .directory →
      ∃ token ctx next, Misses N parse request result.currentDirectory token ctx next := by
    intro ctx
    induction ctx using lookupLoop.induct N parse request with
    | case1 ctx result stepped =>
      intro walks result' looped success nothing directory
      rw [lookupLoop_done stepped] at looped
      subst looped
      have finished : ∀ x y, .inr result = (.inr (finishLookup N request x y) : LookupContext ⊕ LookupResult) →
          False := by
        intro x y same
        rw [Sum.inr.inj same, finishLookup] at success nothing
        split at success
        next => cases success
        next other =>
          rw [if_neg other] at nothing
          cases nothing
      have counted : ∀ following, countReparse ctx following = .inr result → False := by
        intro following same
        rw [countReparse] at same
        split at same
        next =>
          rw [← Sum.inr.inj same] at success
          cases success
        next => cases same
      rw [lookupStep] at stepped
      split at stepped
      next =>
        split at stepped
        · exact (counted _ stepped).elim
        · exact (counted _ stepped).elim
      next type =>
        split at stepped
        next =>
          rw [← Sum.inr.inj stepped, type] at directory
          cases directory
        next => exact (finished _ _ stepped.symm).elim
        next => exact (counted _ stepped).elim
        next =>
          rw [← Sum.inr.inj stepped, type] at directory
          cases directory
      next type =>
        rw [← Sum.inr.inj stepped, type] at directory
        cases directory
      next type =>
        split at stepped
        next => exact (finished _ _ stepped.symm).elim
        next following token found =>
          split at stepped
          next missing =>
            obtain rfl := Sum.inr.inj stepped
            have last : following.length = 0 := by
              by_contra more
              rw [if_neg fun both => more both.2] at success
              cases success
            exact ⟨token, ctx, following, walks, rfl, type, found, last, missing⟩
          next object _ =>
            rw [enterObject] at stepped
            split at stepped
            next => exact (finished _ _ stepped.symm).elim
            next => cases stepped
    | case2 ctx next stepped ih =>
      intro walks result looped
      rw [lookupLoop_next stepped] at looped
      exact ih (walks.tail stepped) result looped
  exact ended _ .refl _ rfl success nothing directory

/-- An entry of a directory that a lookup takes. -/
def Takes (N : Namespace) (parse : Object → List Char → ParseOutcome) (request : LookupRequest)
    (d o : Object) : Prop :=
  ∃ ctx next token, Walks N parse request ctx ∧ ctx.currentDirectory = d ∧ N.type d = .directory ∧
    obpGetNextPathToken request.objectName ctx = (next, some token) ∧
    obpLookupEntryDirectory N d token request.caseInsensitive = some o

/-- An object that does not send the lookup of its path on to another path. -/
def Stays (type : ObjectType) (parse : Object → List Char → ParseOutcome) (o : Object) : Prop :=
  match type with
  | .directory | .other _ false => True
  | .symbolicLink => False
  | .other _ true => ∀ path, parse o [] ≠ .reparse path

/-- A lookup that comes to an object with nothing left answers it: the object has
no parse routine, or its routine answers the object for the empty rest. -/
def AnswersItself (type : ObjectType) (parse : Object → List Char → ParseOutcome) (o : Object) : Prop :=
  match type with
  | .directory | .other _ false => True
  | .symbolicLink => False
  | .other _ true => parse o [] = .resolved (some o)

theorem AnswersItself.of_plain (plain : type.hasParseRoutine = false) : AnswersItself type parse o := by
  cases type with
  | directory => trivial
  | symbolicLink => cases plain
  | other typeId parseRoutine =>
    obtain rfl : parseRoutine = false := plain
    trivial

theorem AnswersItself.stays (answers : AnswersItself type parse o) : Stays type parse o := by
  cases type with
  | directory => trivial
  | symbolicLink => exact answers
  | other typeId parseRoutine =>
    cases parseRoutine with
    | false => trivial
    | true => exact fun path reparsed => nomatch answers.symm.trans reparsed

theorem Stays.routine (stays : Stays type parse o) (routine : type.hasParseRoutine = true) :
    ∃ typeId, type = .other typeId true ∧ ∀ path, parse o [] ≠ .reparse path := by
  cases type with
  | directory => cases routine
  | symbolicLink => exact stays.elim
  | other typeId parseRoutine =>
    obtain rfl : parseRoutine = true := routine
    exact ⟨typeId, rfl, stays⟩

theorem finishLookup_self (expected : ∀ type ∈ request.expectedType, N.type o = type) :
    finishLookup N request o o = ⟨.success, some o, o⟩ := by
  apply if_neg
  rintro ⟨kind, member, other⟩
  exact other (expected kind member)

/-- At an object with a parse routine, and nothing left of the path. -/
theorem lookupLoop_parsed (type : N.type o = .other typeId true) (direct : ∀ path, parse o [] ≠ .reparse path)
    (expected : ∀ type ∈ request.expectedType, N.type o = type) (here : ctx.currentDirectory = o)
    (rest : ctx.length = 0) :
    lookupLoop N parse request ctx = ⟨.success, some o, o⟩ ↔ parse o [] = .resolved (some o) := by
  have remains : ctx.remainingName request.objectName = [] := by
    rw [← List.length_eq_zero_iff, LookupContext.remainingName_length, rest]
  cases answered : parse o [] with
  | resolved found =>
    cases found with
    | none =>
      have stepped : lookupStep N parse request ctx =
          .inr ⟨if request.insertMode then .success else .objectNameNotFound, none, o⟩ := by
        rw [lookupStep, here, type]
        dsimp only
        rw [remains, answered]
      rw [lookupLoop_done stepped]
      exact iff_of_false (fun result => by cases congrArg LookupResult.foundObject result) fun found => by cases found
    | some x =>
      have stepped : lookupStep N parse request ctx = .inr (finishLookup N request x o) := by
        rw [lookupStep, here, type]
        dsimp only
        rw [remains, answered]
      rw [lookupLoop_done stepped]
      constructor
      · intro result
        rw [finishLookup] at result
        split at result
        next => cases congrArg LookupResult.foundObject result
        next => rw [some.inj (congrArg LookupResult.foundObject result)]
      · intro resolved
        cases resolved
        exact finishLookup_self expected
  | reparse path => exact absurd answered (direct path)
  | failed status =>
    have stepped : lookupStep N parse request ctx = .inr ⟨status, none, o⟩ := by
      rw [lookupStep, here, type]
      dsimp only
      rw [remains, answered]
    rw [lookupLoop_done stepped]
    exact iff_of_false (fun result => by cases congrArg LookupResult.foundObject result) fun found => by cases found

/-- A lookup that comes to an object with nothing left. -/
theorem lookupLoop_entered (stays : Stays (N.type o) parse o) (expected : ∀ type ∈ request.expectedType, N.type o = type)
    (rest : ((next.moveTo o).skipSeparators request.objectName).length = 0)
    (stepped : lookupStep N parse request ctx = enterObject N request next o) :
    lookupLoop N parse request ctx = ⟨.success, some o, o⟩ ↔ AnswersItself (N.type o) parse o := by
  rw [enterObject] at stepped
  by_cases routine : (N.type o).hasParseRoutine = true
  · rw [if_neg fun both => Bool.false_ne_true (both.2.symm.trans routine)] at stepped
    obtain ⟨typeId, kind, direct⟩ := stays.routine routine
    rw [lookupLoop_next stepped, lookupLoop_parsed kind direct expected rfl rest, kind]
    rfl
  · have plain := Bool.eq_false_iff.mpr routine
    rw [if_pos ⟨rest, plain⟩, finishLookup_self expected] at stepped
    rw [lookupLoop_done stepped]
    exact iff_of_true rfl (.of_plain plain)

structure Entered (N N' : Namespace) (d o : Object) (n : List Char) : Prop where
  type : N'.type = N.type
  link : N'.link = N.link
  root : N'.root = N.root
  entries (e : Object) : N'.entries e = if e = d then N.entries d ++ [o] else N.entries e
  name {x : Object} : x ≠ o → N'.name x = N.name x
  named : N'.name o = some n
  absent (e : Object) : o ∉ N.entries e

namespace Entered

variable (entered : Entered N N' d o n)
include entered

theorem lookup (e : Object) (token : List Char) (caseInsensitive : Bool) :
    obpLookupEntryDirectory N' e token caseInsensitive =
      (obpLookupEntryDirectory N e token caseInsensitive).or
        (if e = d ∧ obpMatchToken caseInsensitive token n = true then some o else none) := by
  have before : ∀ e, (N.entries e).find? (fun x => (N'.name x).any (obpMatchToken caseInsensitive token))
      = obpLookupEntryDirectory N e token caseInsensitive := by
    intro e
    apply List.find?_congr
    intro x member
    have other : x ≠ o := fun same => entered.absent e (same ▸ member)
    rw [entered.name other]
  rw [obpLookupEntryDirectory, entered.entries]
  by_cases here : e = d
  · subst here
    rw [if_pos rfl, List.find?_append, before]
    congr 1
    rw [List.find?_singleton, entered.named, any_some]
    by_cases matched : obpMatchToken caseInsensitive token n = true
    · rw [if_pos matched, if_pos ⟨rfl, matched⟩]
    · rw [if_neg matched, if_neg fun both => matched both.2]
  · rw [if_neg here, before, if_neg fun both => here both.1, or_none]

theorem step (same : ∀ next token, N.type ctx.currentDirectory = .directory →
      obpGetNextPathToken request.objectName ctx = (next, some token) →
      obpLookupEntryDirectory N' ctx.currentDirectory token request.caseInsensitive
        = obpLookupEntryDirectory N ctx.currentDirectory token request.caseInsensitive) :
    lookupStep N' parse request ctx = lookupStep N parse request ctx := by
  have finish : ∀ x y, finishLookup N' request x y = finishLookup N request x y := fun x y => by
    rw [finishLookup, finishLookup, entered.type]
  have enter : ∀ next x, enterObject N' request next x = enterObject N request next x := fun next x => by
    rw [enterObject, enterObject, entered.type, finish]
  have reparse : ∀ next, reparseDirectory N' request next = reparseDirectory N request next := fun next => by
    rw [reparseDirectory, reparseDirectory, entered.root]
  rw [lookupStep, lookupStep, entered.type, entered.link]
  simp only [finish, enter, reparse]
  split
  next => rfl
  next => rfl
  next => rfl
  next type =>
    split
    next => rfl
    next next token found => rw [same next token type found]

theorem forward (stepped : lookupStep N parse request ctx = .inl next) :
    lookupStep N' parse request ctx = .inl next := by
  rw [← stepped]
  apply entered.step
  intro following token type found
  rw [entered.lookup]
  cases entry : obpLookupEntryDirectory N ctx.currentDirectory token request.caseInsensitive with
  | some x => rfl
  | none =>
    rw [lookupStep] at stepped
    simp only [type, found, entry] at stepped
    cases stepped

theorem walks (walks : Walks N parse request ctx) : Walks N' parse request ctx := by
  have start : request.start N' = request.start N := by rw [start, start, entered.root]
  rw [Walks, start]
  exact Relation.ReflTransGen.mono (fun _ _ => entered.forward) _ _ walks

theorem same (passes : ¬ Takes N' parse request d o) :
    lookupObjectName N' parse request = lookupObjectName N parse request := by
  have missed : ∀ {ctx}, Walks N' parse request ctx →
      lookupStep N' parse request ctx = lookupStep N parse request ctx := by
    intro ctx walks
    apply entered.step
    intro next token type found
    rw [entered.lookup]
    cases entry : obpLookupEntryDirectory N ctx.currentDirectory token request.caseInsensitive with
    | some x => rfl
    | none =>
      rw [none_or]
      apply if_neg
      rintro ⟨here, matched⟩
      refine passes ⟨ctx, next, token, walks, here, ?_, found, ?_⟩
      · rw [entered.type, ← here, type]
      · rw [← here, entered.lookup, entry, none_or, if_pos ⟨here, matched⟩]
  have same : ∀ ctx, Walks N' parse request ctx →
      lookupLoop N' parse request ctx = lookupLoop N parse request ctx := by
    intro ctx
    induction ctx using lookupLoop.induct N' parse request with
    | case1 ctx result stepped =>
      intro walks
      rw [lookupLoop_done stepped, lookupLoop_done ((missed walks).symm.trans stepped)]
    | case2 ctx next stepped ih =>
      intro walks
      rw [lookupLoop_next stepped, lookupLoop_next ((missed walks).symm.trans stepped)]
      exact ih (walks.tail stepped)
  have start : request.start N' = request.start N := by rw [start, start, entered.root]
  rw [lookupObjectName, lookupObjectName, same _ .refl, start]

theorem finds (misses : Misses N parse request d token ctx next)
    (stays : Stays (N.type o) parse o) (expected : ∀ type ∈ request.expectedType, N.type o = type) :
    lookupObjectName N' parse request = ⟨.success, some o, o⟩ ↔
      obpMatchToken request.caseInsensitive token n = true ∧ AnswersItself (N.type o) parse o := by
  obtain ⟨walks, here, directory, found, last, missing⟩ := misses
  have type : N'.type d = .directory := by rw [entered.type, directory]
  have lookup := entered.lookup d token request.caseInsensitive
  rw [missing, none_or] at lookup
  rw [(entered.walks walks).loop]
  by_cases matched : obpMatchToken request.caseInsensitive token n = true
  · rw [if_pos ⟨rfl, matched⟩] at lookup
    have rest : ((next.moveTo o).skipSeparators request.objectName).length = 0 :=
      Nat.eq_zero_of_le_zero (((next.moveTo o).skip_length_le request.objectName).trans_eq last)
    have stepped : lookupStep N' parse request ctx = enterObject N' request next o := by
      rw [lookupStep]
      simp only [type, found, here, lookup]
    rw [← entered.type] at stays expected ⊢
    rw [lookupLoop_entered stays expected rest stepped, and_iff_right matched]
  · rw [if_neg fun both => matched both.2] at lookup
    have stepped : lookupStep N' parse request ctx = .inr
        ⟨if request.insertMode ∧ next.length = 0 then .success else .objectNameNotFound, none, d⟩ := by
      rw [lookupStep]
      simp only [type, found, here, lookup]
    rw [lookupLoop_done stepped]
    exact iff_of_false (fun result => by cases congrArg LookupResult.foundObject result) fun both => matched both.1

end Entered
end

section
variable {σ σ' : ObState} {object : Object}

theorem settled_kept (kept : (σ.header object).referenceCount ≠ 1 ∨ (σ.header object).permanent = true)
    (call : InsertCall) : ∃ h : ObjectHeader, settled σ object call = σ.setHeader object h ∧
      h.type = (σ.header object).type ∧ h.nameInfo = (σ.header object).nameInfo := by
  have references : ∀ n, ∃ count, (obReferenceObject · object)^[n] σ = σ.setCount object count := by
    intro n
    induction n with
    | zero => exact ⟨(σ.header object).referenceCount, setHeader_self.symm⟩
    | succ n ih =>
      obtain ⟨count, same⟩ := ih
      refine ⟨count + 1, ?_⟩
      rw [Function.iterate_succ_apply', same]
      simp only [obReferenceObject, setCount, header_setHeader, setHeader_setHeader]
  have dereferenced : obDereferenceObject σ object = σ.setCount object ((σ.header object).referenceCount - 1) := by
    rw [obDereferenceObject]
    split
    next zero =>
      apply if_pos
      rw [setCount, header_setHeader]
      exact kept.resolve_left fun other => other (by omega)
    next => rfl
  rw [settled]
  split
  next =>
    obtain ⟨count, same⟩ := references call.objectPointerBias
    refine ⟨{ σ.header object with referenceCount := count, createInfo := none }, ?_, rfl, rfl⟩
    rw [same]
    simp only [setCreateInfo, setCount, header_setHeader, setHeader_setHeader]
  next =>
    refine ⟨{ σ.header object with
      referenceCount := (σ.header object).referenceCount - 1, createInfo := none }, ?_, rfl, rfl⟩
    rw [dereferenced]
    simp only [setCreateInfo, setCount, header_setHeader, setHeader_setHeader]

theorem Handled.namespaceAt (handled : Handled (flagged σ object info) caller object σ' handle) (root : Object) :
    σ'.namespaceAt root = σ.namespaceAt root := by
  have start : (flagged σ object info).namespaceAt root = σ.namespaceAt root :=
    namespaceAt_setHeader rfl rfl
  cases handled with
  | unasked => exact start
  | @created which T _ _ T' =>
    have table : ((obReferenceObject (flagged σ object info) object).setTable which T').namespaceAt root
        = (obReferenceObject (flagged σ object info) object).namespaceAt root := by
      cases which <;> rfl
    rw [table, obReferenceObject, namespaceAt_setCount]
    exact start

theorem enterDirectory_entered (absent : ∀ e, object ∉ σ.entries e) (d : Object) (n : List Char) (root : Object) :
    Entered (σ.namespaceAt root) ((enterDirectory σ d object n).namespaceAt root) d object n where
  type := by
    funext x
    have written := header_enterDirectory σ d object n x
    rw [namespaceAt]
    dsimp only
    rw [written]
    split
    next same => rw [same]; rfl
    next => rfl
  link := rfl
  root := rfl
  entries e := entries_enterDirectory σ d object n e
  name other := (nameOf_enterDirectory σ d object n _).trans (if_neg other)
  named := (nameOf_enterDirectory σ d object n object).trans (if_pos rfl)
  absent := absent

theorem obpLookupObjectName_absolute (root_eq : σ.rootDirectoryObject = some root)
    (absolute : call.attributes.rootDirectory = 0) (caller : Caller) :
    (obpLookupObjectName σ caller parse call).2 = lookupObjectName (σ.namespaceAt root) parse (call.request none) := by
  have referenced : referenceRootDirectory σ caller call = (.success, none) := by
    rw [referenceRootDirectory, if_pos absolute]
  rw [obpLookupObjectName, root_eq]
  dsimp only
  rw [referenced]

end

/-- The lookup that an insertion makes for the place of its object. -/
def placeRequest (info : CreateInfo) (type : ObjectType) : LookupRequest :=
  LookupCall.request ⟨info.attributes, info.processorMode, some type, true⟩ none

/-- What a path misses in a directory is the name that its object is stored under. -/
def MissesStored (N : Namespace) (parse : Object → List Char → ParseOutcome) (info : CreateInfo)
    (type : ObjectType) (d : Object) : Prop :=
  ∃ token ctx next, Misses N parse (placeRequest info type) d token ctx next ∧
    obpMatchToken info.attributes.attributes.caseInsensitive token (storedName info) = true

theorem Places.misses (places : Places σ caller parse object info result)
    (absolute : info.attributes.rootDirectory = 0) (success : result.status.isSuccess = true)
    (missing : result.foundObject = none) (type : (σ.header result.currentDirectory).type = .directory) :
    ∃ root token ctx next, σ.rootDirectoryObject = some root ∧ Misses (σ.namespaceAt root) parse
      (placeRequest info (σ.header object).type) result.currentDirectory token ctx next := by
  obtain ⟨root, rootObject, root_eq, referenced, rfl⟩ := places
  have start : rootObject = none := by
    rw [referenceRootDirectory, if_pos absolute] at referenced
    exact (Prod.mk.inj referenced).2.symm
  subst start
  obtain ⟨token, ctx, next, misses⟩ := lookup_misses success missing type
  exact ⟨root, token, ctx, next, root_eq, misses⟩

theorem settled_entered (absent : ∀ e, object ∉ σ.entries e) (counted : 0 < (σ.header object).referenceCount)
    (d : Object) (n : List Char) (root : Object) (call : InsertCall) :
    Entered (σ.namespaceAt root) ((settled (enterDirectory σ d object n) object call).namespaceAt root) d object n ∧
      (settled (enterDirectory σ d object n) object call).rootDirectoryObject = σ.rootDirectoryObject ∧
      directoryOf (settled (enterDirectory σ d object n) object call) object = some d := by
  have more : ((enterDirectory σ d object n).header object).referenceCount ≠ 1 := by
    rw [header_enterDirectory, if_pos rfl]
    dsimp only
    omega
  obtain ⟨h, ended, type, nameInfo⟩ := settled_kept (Or.inl more) call
  rw [ended]
  refine ⟨?_, rfl, ?_⟩
  · rw [namespaceAt_setHeader type (by rw [nameInfo])]
    exact enterDirectory_entered absent d n root
  · rw [directoryOf, header_setHeader, nameInfo]
    exact (directoryOf_enterDirectory σ d object n object).trans (if_pos rfl)

theorem lookupObjectName_root (N : Namespace) (parse : Object → List Char → ParseOutcome)
    (directory : N.type N.root = .directory) (caseInsensitive insertMode : Bool) :
    lookupObjectName N parse ⟨['/'], none, none, caseInsensitive, insertMode⟩ = ⟨.success, some N.root, N.root⟩ := by
  rw [lookupObjectName]
  apply lookupLoop_done
  rw [lookupStep]
  have start : (LookupContext.initial ['/'] (LookupRequest.start ⟨['/'], none, none, caseInsensitive, insertMode⟩
      N)).currentDirectory = N.root := rfl
  have nothing : obpGetNextPathToken ['/'] (LookupContext.initial ['/'] (LookupRequest.start
      ⟨['/'], none, none, caseInsensitive, insertMode⟩ N)) =
        (((LookupContext.initial ['/'] N.root).advance 1 |> fun ctx => { ctx with length := 0 }), none) := rfl
  simp only [start, directory, nothing]
  exact congrArg Sum.inr (if_neg fun expected => by obtain ⟨_, ⟨⟩, _⟩ := expected)

/-- An insertion under an absolute path. The object is found by its path if what
the path missed is the name it is stored under and its parse routine, if any,
answers the object; no other lookup changes. The first object is found as the root. -/
theorem insert_then_lookup (booted : Booted σ) (run : ObRun σ actions s)
    (admitted : ObAdmits s (.insert caller parse object info call))
    (inserted : obInsertObject s.objects caller parse object info call = (σ', status, handle))
    (success : status.isSuccess = true) (absolute : info.attributes.rootDirectory = 0)
    (path : info.attributes.objectName ≠ [])
    (stays : Stays (s.objects.header object).type parse object) :
    let call accessMode expectedType : LookupCall := ⟨info.attributes, accessMode, expectedType, false⟩
    (∀ d, directoryOf σ' object = some d → ∃ root, s.objects.rootDirectoryObject = some root ∧
      (∀ caller accessMode expectedType, (∀ type ∈ expectedType, (s.objects.header object).type = type) →
        ((obpLookupObjectName σ' caller parse (call accessMode expectedType)).2 = ⟨.success, some object, object⟩ ↔
          AnswersItself (s.objects.header object).type parse object ∧
            MissesStored (s.objects.namespaceAt root) parse info (s.objects.header object).type d)) ∧
      ∀ request, ¬ Takes (σ'.namespaceAt root) parse request d object →
        lookupObjectName (σ'.namespaceAt root) parse request
          = lookupObjectName (s.objects.namespaceAt root) parse request) ∧
    (s.objects.rootDirectoryObject = none → ∀ caller accessMode,
      (obpLookupObjectName σ' caller parse (call accessMode none)).2 = ⟨.success, some object, object⟩) := by
  have sound := run.sound booted
  obtain ⟨releasable, waiting, _, parses, bootstrap⟩ := admitted
  obtain ⟨σ₁, σ₂, handled, named, rfl, _, opened, placed⟩ :=
    sound.inserted releasable waiting parses bootstrap inserted success
  have unlinked := sound.fresh waiting
  obtain ⟨entries, _, root_kept⟩ := handled.rest
  have root_kept : σ₁.rootDirectoryObject = s.objects.rootDirectoryObject := root_kept
  have held : 0 < ((s.ledger.inserting object).received σ₁ caller handle).held object := by
    rw [((s.ledger.inserting object).received_rest σ₁ caller handle).1]
    exact releasable.1
  have before : directoryOf σ₁ object = none := by
    rw [directoryOf, handled.nameInfo]
    exact unlinked
  have unentered : directoryOf σ₂ object = none → ∀ d, directoryOf (Ob.settled σ₂ object call) object ≠ some d := by
    intro none_entered d entered
    rw [((SameNames.settled placed held call) object).1, none_entered] at entered
    cases entered
  cases named with
  | unnamed name => exact absurd name path
  | nameless name places =>
    obtain ⟨root, _, root_eq, _⟩ := places
    refine ⟨fun d entered => absurd entered (unentered before d), fun first => ?_⟩
    rw [← root_kept, root_eq] at first
    cases first
  | outside name places =>
    obtain ⟨root, _, root_eq, _⟩ := places
    refine ⟨fun d entered => absurd entered (unentered ?_ d), fun first => ?_⟩
    · rw [directoryOf, setNameInfo, header_setHeader]
      rfl
    · rw [← root_kept, root_eq] at first
      cases first
  | root first type name =>
    have permanent : (({ clearDirectory σ₁ object with rootDirectoryObject := some object } : ObState).header
        object).permanent = true := by
      have flag := (header_clearDirectory σ₁ object object).2.1
      rw [handled.permanent, flagged, givenUp, header_setHeader] at flag
      dsimp only at flag
      rw [bootstrap (root_kept ▸ first) name, Bool.or_true] at flag
      exact flag
    refine ⟨fun d entered => absurd entered (unentered ?_ d), fun _ caller accessMode => ?_⟩
    · exact (directoryOf_clearDirectory σ₁ object object).trans (if_pos rfl)
    · obtain ⟨h, ended, kind, _⟩ := settled_kept (Or.inr permanent) call
      rw [ended]
      have directory : h.type = .directory :=
        kind.trans ((header_clearDirectory σ₁ object object).2.2.trans type)
      have rooted : (({ clearDirectory σ₁ object with rootDirectoryObject := some object } : ObState).setHeader
        object h).rootDirectoryObject = some object := rfl
      rw [obpLookupObjectName_absolute rooted absolute, LookupCall.request]
      dsimp only
      rw [name]
      refine lookupObjectName_root _ parse ?_ _ false
      rw [namespaceAt]
      dsimp only
      rw [header_setHeader]
      exact directory
  | @entry result name places found missing type present distinct =>
    obtain ⟨root, token, ctx, next, root_eq, misses⟩ := places.misses absolute found missing type
    have absent : ∀ e, object ∉ σ₁.entries e := by
      intro e member
      rw [opened.names.entry, before] at member
      cases member
    obtain ⟨entered, root_after, directory⟩ := settled_entered absent
      (opened.counted_pos.mpr (Ledger.sum_pos_of_held σ₁ held)) result.currentDirectory (storedName info) root call
    have same : σ₁.namespaceAt root = s.objects.namespaceAt root := handled.namespaceAt root
    have kind : (σ₁.header object).type = (s.objects.header object).type :=
      congrFun (congrArg Namespace.type same) object
    rw [same, kind] at misses
    rw [same] at entered
    refine ⟨fun d linked => ?_, fun first => ?_⟩
    · obtain rfl : result.currentDirectory = d := some.inj (directory.symm.trans linked)
      refine ⟨root, root_kept ▸ root_eq, fun caller accessMode expectedType expected => ?_, fun request passes =>
        entered.same passes⟩
      have finds : ∀ {token ctx next}, Misses (s.objects.namespaceAt root) parse
          (placeRequest info (s.objects.header object).type) result.currentDirectory token ctx next → _ := fun misses =>
        entered.finds (misses.asked (LookupCall.request ⟨info.attributes, accessMode, expectedType, false⟩ none)
          rfl rfl rfl) stays expected
      rw [obpLookupObjectName_absolute (root_after.trans root_eq) absolute]
      constructor
      · intro looked
        obtain ⟨matched, answers⟩ := (finds misses).mp looked
        exact ⟨answers, token, ctx, next, misses, matched⟩
      · rintro ⟨answers, token', ctx', next', misses', matched⟩
        exact (finds misses').mpr ⟨matched, answers⟩
    · rw [← root_kept, root_eq] at first
      cases first

/-- An object in the root directory. -/
theorem insert_then_lookup_a : (obpLookupObjectName openObjects kernelCaller unparsed
    ⟨(kernelInfo ['/', 'a'] false).attributes, .kernelMode, none, false⟩).2 = ⟨.success, some 1, 1⟩ := by
  obtain ⟨root, root_eq, found, _⟩ := (insert_then_lookup bootState_booted preparedSystem_reached preparedSystem_admits
    obInsertObject_a rfl rfl nofun trivial).1 0 rfl
  obtain rfl : 0 = root := some.inj root_eq
  exact (found kernelCaller .kernelMode none nofun).mpr ⟨trivial, ['a'], _, _, ⟨.refl, rfl, rfl, rfl, rfl, rfl⟩, rfl⟩

def plainInsert : InsertCall := ⟨none, 0, 0, true, false, true, true⟩

def entering (σ : ObState) (info : CreateInfo) (d object : Object) : ObState :=
  settled (obpInsertDirectory ((flagged σ object info).setNameInfo object (some ⟨some d, some (storedName info)⟩)) d
    object true).1 object plainInsert

theorem obInsertObject_plain (root : (flagged σ object info).rootDirectoryObject = some r)
    (absolute : info.attributes.rootDirectory = 0) (name : info.attributes.objectName ≠ [])
    (accepted : insertRefused info.attributes.objectName info plainInsert = none)
    (looked : lookupObjectName ((flagged σ object info).namespaceAt r) unparsed
      (placeRequest info ((flagged σ object info).header object).type) = ⟨.success, none, d⟩)
    (type : ((flagged σ object info).header d).type = .directory)
    (nameInfo : ((flagged σ object info).header object).nameInfo.isSome = true)
    (inserted : (obpInsertDirectory ((flagged σ object info).setNameInfo object (some ⟨some d, some (storedName info)⟩)) d
      object true).2 = .success) :
    obInsertObject σ kernelCaller unparsed object info plainInsert = (entering σ info d object, .success, 0) := by
  have found : obpLookupObjectName (flagged σ object info) kernelCaller unparsed
      ⟨info.attributes, info.processorMode, some ((flagged σ object info).header object).type, true⟩
        = (flagged σ object info, ⟨.success, none, d⟩) := by
    have referenced : referenceRootDirectory (flagged σ object info) kernelCaller
        ⟨info.attributes, info.processorMode, some ((flagged σ object info).header object).type, true⟩
          = (.success, none) := if_pos absolute
    rw [obpLookupObjectName, root]
    dsimp only
    rw [referenced]
    dsimp only
    rw [placeRequest] at looked
    rw [looked]
    rfl
  have staged : (insertStage (flagged σ object info) kernelCaller unparsed object info plainInsert).2 = .success := by
    rw [insertStage_directory name root found type nameInfo rfl]
    exact inserted
  rw [obInsertObject_enters accepted rfl (Prod.ext rfl staged), entering,
    insertStage_directory name root found type nameInfo rfl]
  rfl

/-- The insertion of an object in a directory, without a handle. -/
def insertedPlain (s : ObSystem) (info : CreateInfo) (d object : Object) : ObSystem where
  objects := entering s.objects info d object
  ledger := (s.ledger.inserting object).setHeld object (s.ledger.held object)
  named := Function.update s.named object (some (d, storedName info))

/-- The directory `/d`, and the link `/l` to a name in it that is not there. -/
def directorySystem : ObSystem :=
  [.create .directory (kernelInfo ['/'] true) none ⟨[], none⟩ true true,
    .insert kernelCaller unparsed 0 (kernelInfo ['/'] true) plainInsert,
    .create .directory (kernelInfo ['/', 'd'] true) none ⟨[], none⟩ true true].foldl obStep (.boot bootState)

def placedDirectory : ObSystem := insertedPlain directorySystem (kernelInfo ['/', 'd'] true) 0 1

def linkSystem : ObSystem :=
  obStep placedDirectory (.create .symbolicLink (kernelInfo ['/', 'l'] true) none ⟨['/', 'd', '/', 'x'], none⟩ true true)

def danglingSystem : ObSystem :=
  obStep (insertedPlain linkSystem (kernelInfo ['/', 'l'] true) 0 2)
    (.create (.other 0 false) (kernelInfo ['/', 'l'] false) none ⟨[], none⟩ true true)

def placedActions : List ObAction :=
  [.create .directory (kernelInfo ['/'] true) none ⟨[], none⟩ true true,
    .insert kernelCaller unparsed 0 (kernelInfo ['/'] true) plainInsert,
    .create .directory (kernelInfo ['/', 'd'] true) none ⟨[], none⟩ true true,
    .insert kernelCaller unparsed 1 (kernelInfo ['/', 'd'] true) plainInsert]

def danglingActions : List ObAction :=
  placedActions ++ [.create .symbolicLink (kernelInfo ['/', 'l'] true) none ⟨['/', 'd', '/', 'x'], none⟩ true true,
    .insert kernelCaller unparsed 2 (kernelInfo ['/', 'l'] true) plainInsert,
    .create (.other 0 false) (kernelInfo ['/', 'l'] false) none ⟨[], none⟩ true true]

theorem obInsertObject_d : obInsertObject directorySystem.objects kernelCaller unparsed 1 (kernelInfo ['/', 'd'] true)
    plainInsert = (entering directorySystem.objects (kernelInfo ['/', 'd'] true) 0 1, .success, 0) := by
  refine obInsertObject_plain (r := 0) rfl rfl nofun rfl ?_ rfl rfl rfl
  rw [lookupObjectName, lookupLoop_done rfl]
  rfl

theorem obInsertObject_l : obInsertObject linkSystem.objects kernelCaller unparsed 2 (kernelInfo ['/', 'l'] true)
    plainInsert = (entering linkSystem.objects (kernelInfo ['/', 'l'] true) 0 2, .success, 0) := by
  refine obInsertObject_plain (r := 0) rfl rfl nofun rfl ?_ rfl rfl rfl
  rw [lookupObjectName, lookupLoop_done rfl]
  rfl

theorem obInsertObject_dangling : obInsertObject danglingSystem.objects kernelCaller unparsed 3
    (kernelInfo ['/', 'l'] false) plainInsert
      = (entering danglingSystem.objects (kernelInfo ['/', 'l'] false) 1 3, .success, 0) := by
  refine obInsertObject_plain (r := 0) rfl rfl nofun rfl ?_ rfl rfl rfl
  rw [lookupObjectName, lookupLoop_next rfl, lookupLoop_next rfl, lookupLoop_next rfl, lookupLoop_done rfl]
  rfl

theorem danglingSystem_untargeted : ∀ l, (Function.update (Function.update (Function.update (fun _ => (⟨[], none⟩ :
    SymbolicLink)) 0 ⟨[], none⟩) 1 ⟨[], none⟩) 2 ⟨['/', 'd', '/', 'x'], none⟩ l).targetObject = none :=
  untargeted (untargeted (untargeted (fun _ => rfl) 0) 1) 2

theorem obStep_d : placedDirectory
    = obStep directorySystem (.insert kernelCaller unparsed 1 (kernelInfo ['/', 'd'] true) plainInsert) := by
  rw [obStep, obInsertObject_d]
  rfl

theorem obStep_l : insertedPlain linkSystem (kernelInfo ['/', 'l'] true) 0 2
    = obStep linkSystem (.insert kernelCaller unparsed 2 (kernelInfo ['/', 'l'] true) plainInsert) := by
  rw [obStep, obInsertObject_l]
  rfl

theorem placedDirectory_reached : ObRun bootState placedActions placedDirectory :=
  .next ⟨nofun, rfl⟩ <|
  .next ⟨⟨Ledger.releasable_of_untargeted Nat.one_pos (untargeted (fun _ => rfl) 0), rfl, rfl, nofun, fun _ _ => rfl⟩,
    rfl⟩ <|
  .next ⟨nofun, rfl⟩ <|
  .next ⟨⟨Ledger.releasable_of_untargeted Nat.one_pos (untargeted (untargeted (fun _ => rfl) 0) 1), rfl, rfl, nofun,
    nofun⟩, obStep_d⟩ <| .refl _

theorem danglingSystem_reached : ObRun bootState danglingActions danglingSystem :=
  placedDirectory_reached.trans <|
  .next ⟨nofun, rfl⟩ <|
  .next ⟨⟨Ledger.releasable_of_untargeted Nat.one_pos danglingSystem_untargeted, rfl, rfl, nofun, nofun⟩, obStep_l⟩ <|
  .next ⟨nofun, rfl⟩ <| .refl _

/-- `/d/x`, an object in the directory `/d`. -/
def deepInfo : CreateInfo := kernelInfo ['/', 'd', '/', 'x'] false

def nestedSystem : ObSystem := obStep placedDirectory (.create (.other 0 false) deepInfo none ⟨[], none⟩ true true)

def deepSystem : ObSystem := insertedPlain nestedSystem deepInfo 1 2

theorem obInsertObject_x : obInsertObject nestedSystem.objects kernelCaller unparsed 2 deepInfo plainInsert
    = (entering nestedSystem.objects deepInfo 1 2, .success, 0) := by
  refine obInsertObject_plain (r := 0) rfl rfl nofun rfl ?_ rfl rfl rfl
  rw [lookupObjectName, lookupLoop_next rfl, lookupLoop_done rfl]
  rfl

theorem obStep_x : deepSystem = obStep nestedSystem (.insert kernelCaller unparsed 2 deepInfo plainInsert) := by
  rw [obStep, obInsertObject_x]
  rfl

def deepActions : List ObAction :=
  placedActions ++ [.create (.other 0 false) deepInfo none ⟨[], none⟩ true true,
    .insert kernelCaller unparsed 2 deepInfo plainInsert]

theorem deepSystem_untargeted : ∀ l, (deepSystem.objects.link l).targetObject = none :=
  untargeted (untargeted (untargeted (fun _ => rfl) 0) 1) 2

theorem deepSystem_reached : ObRun bootState deepActions deepSystem :=
  placedDirectory_reached.trans <|
  .next ⟨nofun, rfl⟩ <|
  .next ⟨⟨Ledger.releasable_of_untargeted Nat.one_pos deepSystem_untargeted, rfl, rfl, nofun, nofun⟩, obStep_x⟩ <|
  .refl _

/-- An object that is inserted through a link that leads nowhere is not found there. -/
theorem insert_then_lookup_dangling : ∃ s, ObRun bootState danglingActions s ∧
    ObAdmits s (.insert kernelCaller unparsed 3 (kernelInfo ['/', 'l'] false) plainInsert) ∧
    ∃ σ, obInsertObject s.objects kernelCaller unparsed 3 (kernelInfo ['/', 'l'] false) plainInsert = (σ, .success, 0) ∧
      (obpLookupObjectName σ kernelCaller unparsed
        ⟨(kernelInfo ['/', 'l'] false).attributes, .kernelMode, none, false⟩).2 = ⟨.objectNameNotFound, none, 1⟩ := by
  refine ⟨_, danglingSystem_reached, ⟨Ledger.releasable_of_untargeted Nat.one_pos
    (untargeted danglingSystem_untargeted 3), rfl, rfl, nofun, nofun⟩, _, obInsertObject_dangling, ?_⟩
  have rooted : (entering danglingSystem.objects (kernelInfo ['/', 'l'] false) 1 3).rootDirectoryObject = some 0 := rfl
  rw [obpLookupObjectName_absolute rooted rfl, lookupObjectName, lookupLoop_next rfl, lookupLoop_next rfl,
    lookupLoop_next rfl, lookupLoop_done rfl]
  rfl

end VeaOS.Ob

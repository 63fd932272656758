import VeaOS.Ob.ReparseBuffer
import Mathlib.Data.List.DropRight

/-! A lookup resolves the path that results when the prefix that names a link is
replaced by the target of the link, over and over. The resolution is over
components; the places it visits are kept with the text that remains. -/
namespace VeaOS.Ob
open Foundation

def components (path : List Char) : List (List Char) := fields isSeparator path

inductive Resolution where
  | object (object : Object)
  | notFound
  | typeMismatch
  | failed (status : VeaStatus)
  deriving DecidableEq, Repr

def ParseOutcome.resolution : ParseOutcome → Option Resolution
  | .resolved none => some .notFound
  | .resolved (some object) => some (.object object)
  | .reparse _ => none
  | .failed status => some (.failed status)

/-- Where the resolution of a substituted path starts. -/
def LookupRequest.startOf (request : LookupRequest) (N : Namespace) (path : List Char) : Object :=
  if path.head?.any isSeparator then N.root else request.start N

section
variable (N : Namespace) (parse : Object → List Char → ParseOutcome) (request : LookupRequest)

/-- What the components of a path lead to from an object. A parse routine other
than the link's sees some text with the components. -/
inductive Resolves : Object → List (List Char) → Resolution → Prop
  | arrived (plain : (N.type o).hasParseRoutine = false) : Resolves o [] (.object o)
  | leaf (type : N.type o = .other typeId false) : Resolves o (c :: rest) .typeMismatch
  | missing (type : N.type o = .directory)
      (entry : obpLookupEntryDirectory N o c request.caseInsensitive = none) :
      Resolves o (c :: rest) .notFound
  | entry (type : N.type o = .directory)
      (entry : obpLookupEntryDirectory N o c request.caseInsensitive = some o')
      (further : Resolves o' rest r) : Resolves o (c :: rest) r
  | target (type : N.type o = .symbolicLink) (link : (N.link o).targetObject = some o')
      (further : Resolves o' rest r) : Resolves o rest r
  | substitute (type : N.type o = .symbolicLink) (link : (N.link o).targetObject = none)
      (further : Resolves (request.startOf N (N.link o).linkTarget)
        (components (N.link o).linkTarget ++ rest) r) : Resolves o rest r
  | parsed (type : N.type o = .other typeId true) (text : components path = rest)
      (outcome : (parse o path).resolution = some r) : Resolves o rest r
  | reparsed (type : N.type o = .other typeId true) (text : components path = rest)
      (outcome : parse o path = .reparse path')
      (further : Resolves (request.startOf N path') (components path') r) : Resolves o rest r

/-- The status and the object that a lookup returns for a resolution. -/
def answer : Resolution → VeaStatus × Option Object
  | .object o =>
    if ∃ type ∈ request.expectedType, N.type o ≠ type then (.objectTypeMismatch, none)
    else (.success, some o)
  | .notFound => (.objectNameNotFound, none)
  | .typeMismatch => (.objectTypeMismatch, none)
  | .failed status => (status, none)

/-- The places that a resolution comes through: where the text that remains
starts in the substituted path (nowhere in the path as given), how many
substitutions were made, the object, and the text that remains. -/
inductive Visits : Option Nat → Nat → Object → List Char → Prop
  | start : Visits none 0 (request.start N) request.objectName
  | entry (visits : Visits offset n o text) (type : N.type o = .directory)
      (first : text.dropWhile isSeparator = c :: rest)
      (entry : obpLookupEntryDirectory N o ((c :: rest).takeWhile (!isSeparator ·)) request.caseInsensitive
        = some o')
      (remains : ((c :: rest).dropWhile (!isSeparator ·)).dropWhile isSeparator = text') :
      Visits (offset.map (· + (text.length - text'.length))) n o' text'
  | target (visits : Visits offset n o text) (type : N.type o = .symbolicLink)
      (link : (N.link o).targetObject = some o') (remains : text.dropWhile isSeparator = text') :
      Visits (offset.map (· + (text.length - text'.length))) (n + 1) o' text'
  | substitute (visits : Visits offset n o text) (type : N.type o = .symbolicLink)
      (link : (N.link o).targetObject = none) :
      Visits (some 0) (n + 1) (request.startOf N (substituted (N.link o).linkTarget text))
        (substituted (N.link o).linkTarget text)
  | reparsed (visits : Visits offset n o text) (type : N.type o = .other typeId true)
      (outcome : parse o text = .reparse path) :
      Visits (some 0) (n + 1) (request.startOf N path) path

/-- A target that is substituted as a whole, at a place of a resolution. -/
structure TargetFits (target text : List Char) (offset : Option Nat) : Prop where
  absolute : target.head?.any isSeparator = true ∨ request.rootObject.isSome = true
  short : (substituted target text).length ≤ maxLen
  apart {k} : offset = some k → text = [] ∨
    (substituted target text).length ≤ k + (text.dropWhile isSeparator).length

def firstComponent (text : List Char) : List Char := text.takeWhile (!isSeparator ·)

/-- A component of a directory that is read as a whole, or is missing there however it is read. -/
def ReadWhole (directory : Object) (component : List Char) : Prop :=
  '\x00' ∉ component ∨ component.head? ≠ some '\x00' ∧
    obpLookupEntryDirectory N directory component request.caseInsensitive = none ∧
    obpLookupEntryDirectory N directory (component.takeWhile (· != '\x00')) request.caseInsensitive = none

/-- The resolutions that the reparse buffer and the reparse count leave room for. -/
structure SubstitutionFits : Prop where
  token {offset n o text} : Visits N parse request offset n o text → N.type o = .directory →
    text.dropWhile isSeparator ≠ [] → ReadWhole N request o (firstComponent (text.dropWhile isSeparator))
  start {typeId} : N.type (request.start N) = .other typeId false → components request.objectName ≠ []
  links {offset n o text} : Visits N parse request offset n o text → N.type o = .symbolicLink → n < 32
  object {offset n o text o' typeId} : Visits N parse request offset n o text →
    N.type o = .symbolicLink → (N.link o).targetObject = some o' → N.type o' = .other typeId false →
    components text ≠ []
  target {offset n o text} : Visits N parse request offset n o text →
    N.type o = .symbolicLink → (N.link o).targetObject = none →
    TargetFits request (N.link o).linkTarget text offset
  reparse {offset n o text typeId path} : Visits N parse request offset n o text →
    N.type o = .other typeId true → parse o text = .reparse path →
    n < 32 ∧ (path.head?.any isSeparator = true ∨ request.rootObject.isSome = true)

end

namespace LookupContext

/-- Where the remaining name starts in the substituted path. -/
def place (ctx : LookupContext) : Option Nat :=
  match ctx.array with
  | .objectName => none
  | .reparseBuffer => some ctx.offset

/-- `next` is further on in the same text. -/
structure Ahead (next ctx : LookupContext) : Prop where
  array : next.array = ctx.array
  shorter : next.length ≤ ctx.length
  offset : next.offset = ctx.offset + (ctx.length - next.length)
  count : next.reparseCount = ctx.reparseCount

theorem Ahead.trans {third next ctx : LookupContext} (later : third.Ahead next) (ahead : next.Ahead ctx) :
    third.Ahead ctx where
  array := later.array.trans ahead.array
  shorter := later.shorter.trans ahead.shorter
  offset := by
    have first := ahead.offset
    have second := later.offset
    have shorter := ahead.shorter
    have short := later.shorter
    omega
  count := later.count.trans ahead.count

theorem Ahead.place {next ctx : LookupContext} (ahead : next.Ahead ctx) :
    next.place = ctx.place.map (· + (ctx.length - next.length)) := by
  rw [LookupContext.place, LookupContext.place, ahead.array, ahead.offset]
  cases ctx.array <;> rfl

theorem advance_ahead (ctx : LookupContext) (fits : n ≤ ctx.length) : (ctx.advance n).Ahead ctx where
  array := rfl
  shorter := Nat.sub_le ..
  offset := by
    rw [advance_length]
    exact congrArg (ctx.offset + ·) (by omega)
  count := rfl

theorem skip_ahead (name : List Char) (ctx : LookupContext) : (ctx.skipSeparators name).Ahead ctx := by
  apply ctx.advance_ahead
  have sub := (List.takeWhile_sublist isSeparator (l := ctx.remainingName name)).length_le
  rwa [remainingName_length] at sub

end LookupContext

theorem takeWhile_component (text : List Char) :
    text.takeWhile (fun c => !isSeparator c && c != '\x00') = (firstComponent text).takeWhile (· != '\x00') := by
  rw [firstComponent, List.takeWhile_takeWhile]
  congr 1
  funext c
  rw [Bool.decide_and, Bool.decide_eq_true, Bool.decide_eq_true, Bool.and_comm]

theorem takeWhile_plain {component : List Char} (plain : '\x00' ∉ component) :
    component.takeWhile (· != '\x00') = component :=
  List.takeWhile_eq_self_iff.mpr fun _ member => bne_iff_ne.mpr fun null => plain (null ▸ member)

theorem obpGetNextPathToken_end (ended : (ctx.remainingName name).dropWhile isSeparator = []) :
    (obpGetNextPathToken name ctx).2 = none := by
  rw [obpGetNextPathToken, LookupContext.remainingName_skip, ended]
  rfl

theorem obpGetNextPathToken_cut (nonnull : c ≠ '\x00')
    (first : (ctx.remainingName name).dropWhile isSeparator = c :: rest) :
    ∃ next, obpGetNextPathToken name ctx =
      (next, some ((firstComponent (c :: rest)).takeWhile (· != '\x00'))) := by
  have nonempty : (firstComponent (c :: rest)).takeWhile (· != '\x00') ≠ [] := by
    rw [firstComponent, List.takeWhile_cons_of_pos (by simp [head_dropWhile first]),
      List.takeWhile_cons_of_pos (by simpa using nonnull)]
    exact List.cons_ne_nil _ _
  rw [obpGetNextPathToken, LookupContext.remainingName_skip, first, takeWhile_component, if_neg nonempty]
  exact ⟨_, rfl⟩

theorem obpGetNextPathToken_first (plain : '\x00' ∉ firstComponent (c :: rest))
    (first : (ctx.remainingName name).dropWhile isSeparator = c :: rest) :
    ∃ next, obpGetNextPathToken name ctx = (next, some (firstComponent (c :: rest))) ∧
      next.remainingName name = (c :: rest).dropWhile (!isSeparator ·) ∧ next.Ahead ctx := by
  have nonempty : firstComponent (c :: rest) ≠ [] := by
    rw [firstComponent, List.takeWhile_cons_of_pos (by simp [head_dropWhile first])]
    exact List.cons_ne_nil _ _
  rw [obpGetNextPathToken, LookupContext.remainingName_skip, first, takeWhile_component, takeWhile_plain plain,
    if_neg nonempty]
  rw [firstComponent]
  refine ⟨_, rfl, ?_, ?_⟩
  · rw [LookupContext.remainingName_advance, LookupContext.remainingName_skip, first, drop_takeWhile]
  · refine (LookupContext.advance_ahead _ ?_).trans (ctx.skip_ahead name)
    rw [← LookupContext.remainingName_length name, LookupContext.remainingName_skip, first]
    exact (List.takeWhile_sublist _).length_le

section
variable {N : Namespace} {parse : Object → List Char → ParseOutcome} {request : LookupRequest}

theorem Resolves.unique
    (regular : ∀ o path path', components path = components path' → parse o path = parse o path')
    (first : Resolves N parse request o rest r) (second : Resolves N parse request o rest r') : r = r' := by
  induction first with
  | arrived plain => cases second <;> simp_all [ObjectType.hasParseRoutine]
  | leaf | missing | entry => cases second <;> simp_all
  | target | substitute => cases second <;> simp_all [ObjectType.hasParseRoutine]
  | @parsed o _ path rest r type text outcome =>
    cases second with
    | arrived plain => simp_all [ObjectType.hasParseRoutine]
    | leaf type' | missing type' | entry type' | target type' | substitute type' => cases type.symm.trans type'
    | parsed _ text' outcome' =>
      rw [regular o _ path (text'.trans text.symm), outcome] at outcome'
      exact Option.some.inj outcome'
    | reparsed _ text' outcome' =>
      rw [regular o path _ (text.trans text'.symm), outcome'] at outcome
      cases outcome
  | @reparsed o _ path rest _ r type text outcome further ih =>
    cases second with
    | arrived plain => simp_all [ObjectType.hasParseRoutine]
    | leaf type' | missing type' | entry type' | target type' | substitute type' => cases type.symm.trans type'
    | parsed _ text' outcome' =>
      rw [regular o _ path (text'.trans text.symm), outcome] at outcome'
      cases outcome'
    | reparsed _ text' outcome' further' =>
      rw [regular o _ path (text'.trans text.symm), outcome] at outcome'
      obtain rfl := ParseOutcome.reparse.inj outcome'
      exact ih further'

/-- A round of the loop is at a place of the resolution. -/
structure Placed (N : Namespace) (parse : Object → List Char → ParseOutcome) (request : LookupRequest)
    (ctx : LookupContext) : Prop where
  visits : Visits N parse request ctx.place ctx.reparseCount ctx.currentDirectory
    (ctx.remainingName request.objectName)
  leaf : N.type ctx.currentDirectory = .other typeId false →
    components (ctx.remainingName request.objectName) ≠ []

/-- A round ends with what the path resolves to, or passes the resolution on. -/
def Tracks (N : Namespace) (parse : Object → List Char → ParseOutcome) (request : LookupRequest)
    (ctx : LookupContext) : LookupContext ⊕ LookupResult → Prop
  | .inr result => ∃ r, Resolves N parse request ctx.currentDirectory
      (components (ctx.remainingName request.objectName)) r ∧
      (result.status, result.foundObject) = answer N request r
  | .inl next => Placed N parse request next ∧
      ∀ r, Resolves N parse request next.currentDirectory
        (components (next.remainingName request.objectName)) r →
        Resolves N parse request ctx.currentDirectory
          (components (ctx.remainingName request.objectName)) r

theorem Visits.start_passed (visits : Visits N parse request offset (n + 1) o text) (typeId : Nat) :
    N.type (request.start N) ≠ .other typeId false := by
  have passed : offset = none ∧ n + 1 = 0 ∧ o = request.start N ∨
      N.type (request.start N) ≠ .other typeId false := by
    generalize n + 1 = m at visits
    induction visits with
    | start => exact Or.inl ⟨rfl, rfl, rfl⟩
    | entry _ type _ _ _ ih | target _ type _ _ ih | substitute _ type _ ih | reparsed _ type _ ih =>
      refine Or.inr ?_
      rcases ih with ⟨_, _, rfl⟩ | passed
      · rw [type]
        nofun
      · exact passed
  exact passed.resolve_left fun start => Nat.succ_ne_zero n start.2.1

theorem head_substituted (target text : List Char) :
    (substituted target text).head?.any isSeparator = target.head?.any isSeparator := by
  cases target with
  | nil =>
    cases first : text.dropWhile isSeparator with
    | nil => rw [substituted_of_end first]
    | cons c rest =>
      rw [substituted_of_rest (by rw [first]; exact List.cons_ne_nil c rest), first]
      have plain : isSeparator c = false := head_dropWhile first
      exact plain
  | cons c target =>
    by_cases ended : text.dropWhile isSeparator = []
    · rw [substituted_of_end ended]
    · rw [substituted_of_rest ended, separated]
      split <;> rfl

theorem LookupRequest.startOf_substituted (request : LookupRequest) (N : Namespace) (target text : List Char) :
    request.startOf N (substituted target text) = request.startOf N target := by
  rw [startOf, startOf, head_substituted]

theorem finishLookup_answer (N : Namespace) (request : LookupRequest) (object current : Object) :
    ((finishLookup N request object current).status, (finishLookup N request object current).foundObject)
      = answer N request (.object object) := by
  rw [finishLookup, answer]
  split <;> rfl

theorem components_skip (text : List Char) : components (text.dropWhile isSeparator) = components text :=
  fields_dropWhile

theorem components_substituted (target text : List Char) :
    components (substituted target text) = components target ++ components text := by
  rw [components, substituted, fields_join (by rfl), fields_dropWhile]
  rfl

theorem countReparse_of_lt (below : ctx.reparseCount < 32) :
    countReparse ctx next = .inl { next with reparseCount := ctx.reparseCount + 1 } := by
  rw [countReparse, if_neg (by omega)]

namespace Placed

theorem follow (placed : Placed N parse request ctx) (fits : SubstitutionFits N parse request)
    (type : N.type ctx.currentDirectory = .symbolicLink)
    (link : (N.link ctx.currentDirectory).targetObject = some o') :
    Tracks N parse request ctx (countReparse ctx ((ctx.skipSeparators request.objectName).moveTo o')) := by
  rw [countReparse_of_lt (fits.links placed.visits type)]
  have skipped : (ctx.skipSeparators request.objectName).remainingName request.objectName
      = (ctx.remainingName request.objectName).dropWhile isSeparator := LookupContext.remainingName_skip
  constructor
  · constructor
    · have visits := placed.visits.target type link skipped.symm
      rw [LookupContext.remainingName_length, LookupContext.remainingName_length,
        ← (ctx.skip_ahead request.objectName).place] at visits
      exact visits
    · intro typeId leaf
      have remains := fits.object placed.visits type link leaf
      rw [← components_skip, ← skipped] at remains
      exact remains
  · intro r further
    refine .target type link ?_
    rw [← components_skip, ← skipped]
    exact further

theorem restart (root : N.type N.root = .directory)
    (visits : Visits N parse request (some 0) (n + 1) (request.startOf N path) path)
    {next : LookupContext} (array : next.array = .reparseBuffer) (offset : next.offset = 0)
    (count : next.reparseCount = n + 1) (current : next.currentDirectory = request.startOf N path)
    (remains : next.remainingName request.objectName = path) : Placed N parse request next where
  visits := by
    rw [LookupContext.place, array, offset, count, current, remains]
    exact visits
  leaf := by
    intro typeId leaf
    rw [current, LookupRequest.startOf] at leaf
    split at leaf
    next => cases root.symm.trans leaf
    next => exact absurd leaf (visits.start_passed typeId)

theorem reparseDirectory_eq (absolute : path.head?.any isSeparator = true ∨ request.rootObject.isSome = true)
    (first : isSeparator (ctx.reparseBuffer 0) = path.head?.any isSeparator) :
    reparseDirectory N request ctx = request.startOf N path := by
  rw [reparseDirectory, LookupRequest.startOf, first]
  split
  next => rfl
  next relative =>
    obtain ⟨o, given⟩ := Option.isSome_iff_exists.mp (absolute.resolve_left relative)
    rw [LookupRequest.start, given]
    rfl

theorem substitute (placed : Placed N parse request ctx) (fits : SubstitutionFits N parse request)
    (root : N.type N.root = .directory) (type : N.type ctx.currentDirectory = .symbolicLink)
    (link : (N.link ctx.currentDirectory).targetObject = none) :
    let reparsed := substituteTarget request.objectName (N.link ctx.currentDirectory).linkTarget ctx
    Tracks N parse request ctx (countReparse ctx (reparsed.moveTo (reparseDirectory N request reparsed))) := by
  intro reparsed
  have room := fits.target placed.visits type link
  have apart : Apart ctx request.objectName (N.link ctx.currentDirectory).linkTarget := by
    intro inside
    exact room.apart (by rw [LookupContext.place, inside])
  obtain ⟨remains, first⟩ := substituteTarget_spec room.short apart
  have absolute := room.absolute
  rw [← head_substituted _ (ctx.remainingName request.objectName)] at absolute
  rw [countReparse_of_lt (fits.links placed.visits type), reparseDirectory_eq absolute first]
  have visits := placed.visits.substitute type link
  constructor
  · exact .restart root visits rfl rfl rfl rfl remains
  · intro r further
    refine .substitute type link ?_
    rw [← components_substituted, ← request.startOf_substituted]
    exact remains ▸ further

theorem remainingName_restart (name path : List Char) (ctx : LookupContext) :
    (ctx.restart path).remainingName name = path := by
  apply List.ext_getElem
  · rw [LookupContext.remainingName_length]
    rfl
  · intro i _ inside
    simp only [LookupContext.remainingName, LookupContext.restart, readName, List.getElem_map, List.getElem_range',
      List.getD_eq_getElem?_getD, Nat.zero_add, Nat.one_mul, List.getElem?_eq_getElem inside, Option.getD_some]

theorem ask (placed : Placed N parse request ctx) (fits : SubstitutionFits N parse request)
    (root : N.type N.root = .directory) (lookup : request.insertMode = false)
    (type : N.type ctx.currentDirectory = .other typeId true) :
    Tracks N parse request ctx (lookupStep N parse request ctx) := by
  rw [lookupStep]
  simp only [type, lookup]
  cases outcome : parse ctx.currentDirectory (ctx.remainingName request.objectName) with
  | resolved object =>
    cases object with
    | none => exact ⟨.notFound, .parsed type rfl (congrArg ParseOutcome.resolution outcome), rfl⟩
    | some object =>
      exact ⟨.object object, .parsed type rfl (congrArg ParseOutcome.resolution outcome),
        finishLookup_answer ..⟩
  | failed status => exact ⟨.failed status, .parsed type rfl (congrArg ParseOutcome.resolution outcome), rfl⟩
  | reparse path =>
    obtain ⟨below, absolute⟩ := fits.reparse placed.visits type outcome
    have first : isSeparator ((ctx.restart path).reparseBuffer 0) = path.head?.any isSeparator := by
      cases path <;> rfl
    dsimp only
    rw [countReparse_of_lt below, reparseDirectory_eq absolute first]
    have remains := remainingName_restart request.objectName path ctx
    constructor
    · exact .restart root (placed.visits.reparsed type outcome) rfl rfl rfl rfl remains
    · intro r further
      have further : Resolves N parse request (request.startOf N path)
          (components ((ctx.restart path).remainingName request.objectName)) r := further
      rw [remains] at further
      exact .reparsed type rfl outcome further

theorem enter (placed : Placed N parse request ctx) (type : N.type ctx.currentDirectory = .directory)
    (first : (ctx.remainingName request.objectName).dropWhile isSeparator = c :: rest)
    (path : components (ctx.remainingName request.objectName)
      = (c :: rest).takeWhile (!isSeparator ·) :: components ((c :: rest).dropWhile (!isSeparator ·)))
    (remains : next.remainingName request.objectName = (c :: rest).dropWhile (!isSeparator ·))
    (ahead : next.Ahead ctx)
    (entry : obpLookupEntryDirectory N ctx.currentDirectory ((c :: rest).takeWhile (!isSeparator ·))
      request.caseInsensitive = some object) :
    Tracks N parse request ctx (enterObject N request next object) := by
  have skipped : ((next.moveTo object).skipSeparators request.objectName).remainingName request.objectName
      = ((c :: rest).dropWhile (!isSeparator ·)).dropWhile isSeparator := by
    rw [LookupContext.remainingName_skip, LookupContext.remainingName_moveTo, remains]
  have further : components (((next.moveTo object).skipSeparators request.objectName).remainingName
      request.objectName) = components ((c :: rest).dropWhile (!isSeparator ·)) := by
    rw [skipped, components_skip]
  have later : ((next.moveTo object).skipSeparators request.objectName).Ahead ctx :=
    ((next.moveTo object).skip_ahead _).trans ⟨ahead.array, ahead.shorter, ahead.offset, ahead.count⟩
  rw [enterObject]
  split
  next ended =>
    obtain ⟨short, plain⟩ := ended
    have empty := List.eq_nil_of_length_eq_zero
      ((LookupContext.remainingName_length request.objectName _).trans short)
    rw [empty] at further
    refine ⟨.object object, ?_, finishLookup_answer ..⟩
    rw [path, ← further]
    exact .entry type entry (.arrived plain)
  next onward =>
    constructor
    · constructor
      · have visits := placed.visits.entry type first entry rfl
        rw [← skipped, LookupContext.remainingName_length, LookupContext.remainingName_length, ← later.place] at visits
        rw [later.count]
        exact visits
      · intro typeId leaf empty
        refine onward ⟨?_, congrArg ObjectType.hasParseRoutine leaf⟩
        have ended := fields_eq_nil.mp empty
        rw [skipped, List.dropWhile_idempotent] at ended
        rw [← LookupContext.remainingName_length request.objectName, skipped, ended, List.length_nil]
    · intro r resolves
      rw [path]
      rw [further] at resolves
      exact .entry type entry resolves

theorem descend (placed : Placed N parse request ctx) (fits : SubstitutionFits N parse request) (lookup : request.insertMode = false)
    (type : N.type ctx.currentDirectory = .directory) :
    Tracks N parse request ctx (lookupStep N parse request ctx) := by
  rw [lookupStep]
  simp only [type, lookup]
  cases first : (ctx.remainingName request.objectName).dropWhile isSeparator with
  | nil =>
    have ended := obpGetNextPathToken_end first
    have empty : components (ctx.remainingName request.objectName) = [] := fields_eq_nil.mpr first
    rcases found : obpGetNextPathToken request.objectName ctx with ⟨next, _ | token⟩
    · refine ⟨.object ctx.currentDirectory, ?_, finishLookup_answer ..⟩
      rw [empty]
      exact .arrived (by rw [type]; rfl)
    · rw [found] at ended
      cases ended
  | cons c rest =>
    have path : components (ctx.remainingName request.objectName) = _ := fields_cons first
    have whole := fits.token placed.visits type (first ▸ List.cons_ne_nil c rest)
    rw [first] at whole
    rcases whole with plain | ⟨nonnull, missing, cut⟩
    rotate_left
    · have start : c ≠ '\x00' := fun null => nonnull (by
        rw [firstComponent, List.takeWhile_cons_of_pos (by simp [head_dropWhile first]), null]
        rfl)
      obtain ⟨next, found⟩ := obpGetNextPathToken_cut start first
      rw [found]
      dsimp only
      rw [cut]
      refine ⟨.notFound, ?_, rfl⟩
      rw [path]
      exact .missing type missing
    obtain ⟨next, found, remains, ahead⟩ := obpGetNextPathToken_first plain first
    rw [found, firstComponent]
    dsimp only
    cases entry : obpLookupEntryDirectory N ctx.currentDirectory ((c :: rest).takeWhile (!isSeparator ·))
        request.caseInsensitive with
    | none =>
      refine ⟨.notFound, ?_, rfl⟩
      rw [path]
      exact .missing type entry
    | some object =>
      exact placed.enter type first path remains ahead entry

end Placed

theorem Placed.step (placed : Placed N parse request ctx) (fits : SubstitutionFits N parse request)
    (root : N.type N.root = .directory) (lookup : request.insertMode = false) :
    Tracks N parse request ctx (lookupStep N parse request ctx) := by
  cases type : N.type ctx.currentDirectory with
  | directory => exact placed.descend fits lookup type
  | symbolicLink =>
    rw [lookupStep]
    simp only [type, obpParseSymbolicLink]
    cases link : (N.link ctx.currentDirectory).targetObject with
    | some object => exact placed.follow fits type link
    | none => exact placed.substitute fits root type link
  | other typeId parseRoutine =>
    cases parseRoutine with
    | true => exact placed.ask fits root lookup type
    | false =>
      obtain ⟨c, rest, path⟩ := List.exists_cons_of_ne_nil (placed.leaf type)
      rw [lookupStep]
      simp only [type]
      refine ⟨.typeMismatch, ?_, rfl⟩
      rw [path]
      exact .leaf type

end

/-- A lookup without insertion returns what the path resolves to by substitution. -/
theorem lookup_substitutes {N : Namespace} {parse : Object → List Char → ParseOutcome}
    {request : LookupRequest} (root : N.type N.root = .directory) (lookup : request.insertMode = false)
    (fits : SubstitutionFits N parse request) :
    ∃ r, Resolves N parse request (request.start N) (components request.objectName) r ∧
      ((lookupObjectName N parse request).status, (lookupObjectName N parse request).foundObject)
        = answer N request r := by
  have tracked : ∀ ctx, Placed N parse request ctx → ∃ r, Resolves N parse request ctx.currentDirectory
      (components (ctx.remainingName request.objectName)) r ∧
      ((lookupLoop N parse request ctx).status, (lookupLoop N parse request ctx).foundObject)
        = answer N request r := by
    intro ctx
    induction ctx using lookupLoop.induct N parse request with
    | case1 ctx result stepped =>
      intro placed
      have tracks := placed.step fits root lookup
      rw [stepped] at tracks
      rw [lookupLoop_done stepped]
      exact tracks
    | case2 ctx next stepped ih =>
      intro placed
      have tracks := placed.step fits root lookup
      rw [stepped] at tracks
      obtain ⟨r, resolves, answered⟩ := ih tracks.1
      rw [lookupLoop_next stepped]
      exact ⟨r, tracks.2 r resolves, answered⟩
  have remains := remainingName_initial request.objectName (request.start N)
  have placed : Placed N parse request (.initial request.objectName (request.start N)) := by
    refine ⟨?_, ?_⟩
    · rw [remains]
      exact .start
    · intro typeId leaf
      rw [remains]
      exact fits.start leaf
  obtain ⟨r, resolves, answered⟩ := tracked _ placed
  rw [remains] at resolves
  exact ⟨r, resolves, answered⟩

/-- A link to a link to a directory with one entry. -/
def linkedNamespace : Namespace where
  type
    | 0 | 3 => .directory
    | 1 | 2 => .symbolicLink
    | _ => .other 0 false
  name
    | 1 => some ['p']
    | 2 => some ['q']
    | 3 => some ['d', 'd']
    | 4 => some ['x']
    | _ => none
  entries
    | 0 => [1, 2, 3]
    | 3 => [4]
    | _ => []
  link
    | 1 => ⟨['/', 'q'], none⟩
    | _ => ⟨['/', 'd', 'd'], none⟩
  root := 0

def linkedRequest (objectName : List Char) : LookupRequest := ⟨objectName, none, none, false, false⟩

def noParse : Object → List Char → ParseOutcome := fun _ _ => .resolved none

theorem linked_visits (visits : Visits linkedNamespace noParse (linkedRequest ['/', 'q', '/', 'x']) offset n o text) :
    (offset, n, o, text) ∈ [(none, 0, 0, ['/', 'q', '/', 'x']), (none, 0, 2, ['x']),
      (some 0, 1, 0, ['/', 'd', 'd', '/', 'x']), (some 4, 1, 3, ['x']), (some 5, 1, 4, [])] := by
  induction visits with
  | start => exact List.mem_cons_self
  | entry _ type first entry remains ih =>
    simp only [List.mem_cons, Prod.mk.injEq, List.not_mem_nil, or_false] at ih
    rcases ih with ⟨rfl, rfl, rfl, rfl⟩ | ⟨rfl, rfl, rfl, rfl⟩ | ⟨rfl, rfl, rfl, rfl⟩ |
      ⟨rfl, rfl, rfl, rfl⟩ | ⟨rfl, rfl, rfl, rfl⟩
    · cases first
      cases entry
      cases remains
      exact .tail _ (.head _)
    · cases type
    · cases first
      cases entry
      cases remains
      exact .tail _ (.tail _ (.tail _ (.head _)))
    · cases first
      cases entry
      cases remains
      exact .tail _ (.tail _ (.tail _ (.tail _ (.head _))))
    · cases type
  | target _ _ link _ ih =>
    simp only [List.mem_cons, Prod.mk.injEq, List.not_mem_nil, or_false] at ih
    rcases ih with ⟨rfl, rfl, rfl, rfl⟩ | ⟨rfl, rfl, rfl, rfl⟩ | ⟨rfl, rfl, rfl, rfl⟩ |
      ⟨rfl, rfl, rfl, rfl⟩ | ⟨rfl, rfl, rfl, rfl⟩ <;> cases link
  | substitute _ type _ ih =>
    simp only [List.mem_cons, Prod.mk.injEq, List.not_mem_nil, or_false] at ih
    rcases ih with ⟨rfl, rfl, rfl, rfl⟩ | ⟨rfl, rfl, rfl, rfl⟩ | ⟨rfl, rfl, rfl, rfl⟩ |
      ⟨rfl, rfl, rfl, rfl⟩ | ⟨rfl, rfl, rfl, rfl⟩
    · cases type
    · exact .tail _ (.tail _ (.head _))
    · cases type
    · cases type
    · cases type
  | reparsed _ _ outcome _ => cases outcome

/-- A link in the path as given. -/
theorem lookup_substitutes_linked : ∃ r,
    Resolves linkedNamespace noParse (linkedRequest ['/', 'q', '/', 'x']) 0 [['q'], ['x']] r ∧
      ((lookupObjectName linkedNamespace noParse (linkedRequest ['/', 'q', '/', 'x'])).status,
        (lookupObjectName linkedNamespace noParse (linkedRequest ['/', 'q', '/', 'x'])).foundObject)
      = answer linkedNamespace (linkedRequest ['/', 'q', '/', 'x']) r := by
  have once : ∀ {offset n o text},
      Visits linkedNamespace noParse (linkedRequest ['/', 'q', '/', 'x']) offset n o text →
      linkedNamespace.type o = .symbolicLink → offset = none ∧ n = 0 ∧ o = 2 ∧ text = ['x'] := by
    intro offset n o text visits type
    have place := linked_visits visits
    simp only [List.mem_cons, Prod.mk.injEq, List.not_mem_nil, or_false] at place
    rcases place with ⟨_, _, rfl, _⟩ | place | ⟨_, _, rfl, _⟩ | ⟨_, _, rfl, _⟩ | ⟨_, _, rfl, _⟩
    · cases type
    · exact place
    · cases type
    · cases type
    · cases type
  refine lookup_substitutes rfl rfl ⟨?_, nofun, ?_, ?_, ?_, ?_⟩
  · intro offset n o text visits type remains
    have place := linked_visits visits
    simp only [List.mem_cons, Prod.mk.injEq, List.not_mem_nil, or_false] at place
    rcases place with ⟨_, _, rfl, rfl⟩ | ⟨_, _, rfl, rfl⟩ | ⟨_, _, rfl, rfl⟩ | ⟨_, _, rfl, rfl⟩ |
      ⟨_, _, rfl, rfl⟩
    · exact .inl (by decide)
    · cases type
    · exact .inl (by decide)
    · exact .inl (by decide)
    · cases type
  · intro offset n o text visits type
    obtain ⟨_, rfl, _⟩ := once visits type
    decide
  · intro offset n o text o' typeId visits type link
    obtain ⟨_, _, rfl, _⟩ := once visits type
    cases link
  · intro offset n o text visits type _
    obtain ⟨rfl, _, rfl, rfl⟩ := once visits type
    exact ⟨.inl rfl, by decide, nofun⟩
  · intro offset n o text typeId path _ _ outcome
    cases outcome

/-- The second link's target is written over the component that remains. -/
theorem lookup_overwrites : ¬ ∃ r,
    Resolves linkedNamespace noParse (linkedRequest ['/', 'p', '/', 'x']) 0 [['p'], ['x']] r ∧
      ((lookupObjectName linkedNamespace noParse (linkedRequest ['/', 'p', '/', 'x'])).status,
        (lookupObjectName linkedNamespace noParse (linkedRequest ['/', 'p', '/', 'x'])).foundObject)
      = answer linkedNamespace (linkedRequest ['/', 'p', '/', 'x']) r := by
  have found : lookupObjectName linkedNamespace noParse (linkedRequest ['/', 'p', '/', 'x'])
      = ⟨.success, some 3, 3⟩ := by
    rw [lookupObjectName, lookupLoop_next rfl, lookupLoop_next rfl, lookupLoop_next rfl,
      lookupLoop_next rfl, lookupLoop_done rfl]
    rfl
  have resolves : Resolves linkedNamespace noParse (linkedRequest ['/', 'p', '/', 'x']) 0 [['p'], ['x']]
      (.object 4) :=
    .entry rfl rfl <| .substitute rfl rfl <| .entry rfl rfl <| .substitute rfl rfl <|
      .entry rfl rfl <| .entry rfl rfl <| .arrived rfl
  rintro ⟨r, other, answered⟩
  obtain rfl := other.unique (fun _ _ _ _ => rfl) resolves
  rw [found] at answered
  cases answered

end VeaOS.Ob

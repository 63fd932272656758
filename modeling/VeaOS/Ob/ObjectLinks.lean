import VeaOS.Ob.Substitution
import VeaOS.Ob.InsertLookup

/-! A link to an object and the object's own path. Behind the link the lookup is one reparse
further than behind the path and goes on as it does there, except that an object which is
neither a directory nor parsed is only accepted when a directory was left for it. -/
namespace VeaOS.Ob
open Foundation Function LookupContext
open List (append_assoc append_nil cons cons_append cons_ne_nil dropWhile_idempotent dropWhile_sublist drop_left
  eq_nil_of_length_eq_zero exists_cons_of_ne_nil length mem_cons_self mem_takeWhile_imp range' replicate
  takeWhile_append_dropWhile takeWhile_append_of_pos takeWhile_cons_of_neg takeWhile_cons_of_pos takeWhile_sublist)

/-- `ObCreateSymbolicLinkToObject`. The flags say which allocations succeed: the object, the
buffer of its name, and the entry of the directory. -/
def obCreateSymbolicLinkToObject (σ : ObState) (parentDirectory : Object) (linkName : List Char)
    (targetObject : Object) (objectAllocated nameAllocated entryAllocated : Bool) : ObState × VeaStatus :=
  if linkName = [] then (σ, .invalidParameter)
  else if !objectAllocated then (σ, .insufficientResources)
  else
    let linkObject := σ.nextObject
    let name := if nameAllocated then some linkName else none
    let header : ObjectHeader := ⟨1, .symbolicLink, true, some ⟨some parentDirectory, name⟩, none, none⟩
    let σ := { (σ.setHeader linkObject header).setEntries linkObject [] with
      link := Function.update σ.link linkObject ⟨[], if nameAllocated then some targetObject else none⟩
      nextObject := linkObject + 1 }
    if !nameAllocated then (obDereferenceObject σ linkObject, .insufficientResources)
    else match obpInsertDirectory (obReferenceObject σ targetObject) parentDirectory linkObject entryAllocated with
      | (σ, status) => (obDereferenceObject σ linkObject, status)

structure LinksTo (N : Namespace) (l x : Object) : Prop where
  type : N.type l = .symbolicLink
  target : (N.link l).targetObject = some x

def LookupRequest.named (request : LookupRequest) (objectName : List Char) : LookupRequest :=
  { request with objectName := objectName }

def LookupResult.answer (result : LookupResult) : VeaStatus × Option Object := (result.status, result.foundObject)

/-- The components lead from an object to another one, through directories alone. -/
inductive Descends (N : Namespace) (caseInsensitive : Bool) : Object → List (List Char) → Object → Prop
  | here : Descends N caseInsensitive o [] o
  | entry (type : N.type d = .directory)
      (found : obpLookupEntryDirectory N d c caseInsensitive = some o)
      (further : Descends N caseInsensitive o rest x) : Descends N caseInsensitive d (c :: rest) x

/-- The path names the object: its components lead there. -/
structure PathNames (N : Namespace) (request : LookupRequest) (path : List Char) (x : Object) : Prop where
  plain : '\x00' ∉ path
  named : components path ≠ []
  descends : Descends N request.caseInsensitive (request.start N) (components path) x

section Token
variable {name : List Char} {ctx : LookupContext} {before token after : List Char}

theorem obpGetNextPathToken_next (text : ctx.remainingName name = before ++ token ++ after)
    (separators : ∀ c ∈ before, isSeparator c = true) (word : Plain token)
    (ends : after.head?.all isSeparator = true) :
    ∃ next, obpGetNextPathToken name ctx = (next, some token) ∧ next.remainingName name = after ∧
      next = (ctx.advance before.length).advance token.length := by
  obtain ⟨c, rest, rfl⟩ := exists_cons_of_ne_nil word.1
  have first : isSeparator c = false := (word.2 c mem_cons_self).1
  have leading : (ctx.remainingName name).takeWhile isSeparator = before := by
    rw [text, append_assoc, takeWhile_append_of_pos separators, cons_append,
      takeWhile_cons_of_neg (by simp [first]), append_nil]
  have skipped : (ctx.skipSeparators name).remainingName name = (c :: rest) ++ after := by
    rw [skipSeparators, remainingName_advance, leading, text, append_assoc,
      drop_left]
  have taken : ((ctx.skipSeparators name).remainingName name).takeWhile
      (fun c => !isSeparator c && c != '\x00') = c :: rest := by
    rw [skipped, takeWhile_append_of_pos fun d member => by
      obtain ⟨separator, terminator⟩ := word.2 d member
      simp [separator, terminator]]
    cases after with
    | nil => exact append_nil _
    | cons d more =>
      have separator : isSeparator d = true := by simpa using ends
      rw [takeWhile_cons_of_neg (by simp [separator]), append_nil]
  refine ⟨(ctx.skipSeparators name).advance (c :: rest).length, ?_, ?_, ?_⟩
  · rw [obpGetNextPathToken, taken]
    exact if_neg (cons_ne_nil c rest)
  · rw [remainingName_advance, skipped, drop_left]
  · rw [skipSeparators, leading]

theorem components_split {path : List Char} (plain : '\x00' ∉ path) (first : components path = token :: tokens) :
    ∃ before after, path = before ++ token ++ after ∧ (∀ c ∈ before, isSeparator c = true) ∧ Plain token ∧
      after.head?.all isSeparator = true ∧ components after = tokens ∧ '\x00' ∉ after := by
  cases skipped : path.dropWhile isSeparator with
  | nil =>
    rw [components, fields_eq_nil.mpr skipped] at first
    cases first
  | cons c rest =>
    rw [components, fields_cons skipped] at first
    obtain ⟨rfl, rfl⟩ := cons.inj first
    have whole : path = path.takeWhile isSeparator ++ (c :: rest).takeWhile (!isSeparator ·) ++
        (c :: rest).dropWhile (!isSeparator ·) := by
      rw [append_assoc, takeWhile_append_dropWhile, ← skipped, takeWhile_append_dropWhile]
    have sub : (c :: rest).Sublist path := skipped ▸ dropWhile_sublist isSeparator
    refine ⟨_, _, whole, fun d member => mem_takeWhile_imp member, ⟨?_, fun d member => ⟨?_, ?_⟩⟩, ?_, rfl, ?_⟩
    · rw [takeWhile_cons_of_pos (by simp [head_dropWhile skipped])]
      exact cons_ne_nil _ _
    · simpa using mem_takeWhile_imp member
    · rintro rfl
      exact plain (sub.mem ((takeWhile_sublist _).mem member))
    · cases behind : (c :: rest).dropWhile (!isSeparator ·) with
      | nil => rfl
      | cons d more => simpa using head_dropWhile behind
    · exact fun member => plain (sub.mem ((dropWhile_sublist _).mem member))

end Token

section Behind

/-- `ctx'` is a lookup at the same place with the same text in front, one reparse later. -/
structure Behind (name name' : List Char) (ctx ctx' : LookupContext) : Prop where
  directory : ctx'.currentDirectory = ctx.currentDirectory
  count : ctx'.reparseCount = ctx.reparseCount + 1
  buffer : ctx'.reparseBuffer = ctx.reparseBuffer
  array : ctx'.array = ctx.array
  offset : ctx.array = .reparseBuffer → ctx'.offset = ctx.offset
  text : ctx'.remainingName name' = ctx.remainingName name

variable {N : Namespace} {parse : Object → List Char → ParseOutcome} {request : LookupRequest}
  {name name' : List Char} {ctx ctx' : LookupContext}

namespace Behind

variable (behind : Behind name name' ctx ctx')
include behind

theorem length : ctx'.length = ctx.length := by
  rw [← remainingName_length name', behind.text, remainingName_length]

theorem advance (n : Nat) : Behind name name' (ctx.advance n) (ctx'.advance n) where
  directory := behind.directory
  count := behind.count
  buffer := behind.buffer
  array := behind.array
  offset inside := congrArg (· + n) (behind.offset inside)
  text := by rw [remainingName_advance, remainingName_advance, behind.text]

theorem skip : Behind name name' (ctx.skipSeparators name) (ctx'.skipSeparators name') := by
  rw [skipSeparators, skipSeparators, behind.text]
  exact behind.advance _

theorem moveTo (object : Object) : Behind name name' (ctx.moveTo object) (ctx'.moveTo object) where
  directory := rfl
  count := behind.count
  buffer := behind.buffer
  array := behind.array
  offset := behind.offset
  text := behind.text

theorem token : (obpGetNextPathToken name' ctx').2 = (obpGetNextPathToken name ctx).2 ∧
      Behind name name' (obpGetNextPathToken name ctx).1 (obpGetNextPathToken name' ctx').1 := by
  rw [obpGetNextPathToken, obpGetNextPathToken, behind.skip.text]
  split
  · refine ⟨rfl, behind.skip.directory, behind.skip.count, behind.skip.buffer, behind.skip.array,
      behind.skip.offset, ?_⟩
    rw [remainingName, remainingName]
    rfl
  · exact ⟨rfl, behind.skip.advance _⟩

end Behind

theorem copyRemaining_congr {n off off' : Nat}
    (same : ∀ i < n, name'.getD (off' + i) '\x00' = name.getD (off + i) '\x00') (buffer : Nat → Char) (tempLen : Nat) :
    copyRemaining name' .objectName n off' buffer tempLen = copyRemaining name .objectName n off buffer tempLen := by
  induction n generalizing off off' buffer tempLen with
  | zero => rfl
  | succ n ih =>
    have first : readName name' .objectName buffer off' = readName name .objectName buffer off :=
      same 0 (Nat.zero_lt_succ n)
    have rest := @ih (off + 1) (off' + 1) fun i below => by
      have step := same (i + 1) (Nat.succ_lt_succ below)
      rwa [Nat.add_comm i 1, ← Nat.add_assoc, ← Nat.add_assoc] at step
    rw [copyRemaining, copyRemaining, first, rest]

theorem readName_of_text {n off off' : Nat} {buffer buffer' : Nat → Char}
    (text : (range' off' n).map (readName name' .objectName buffer') =
      (range' off n).map (readName name .objectName buffer)) (i : Nat) (below : i < n) :
    name'.getD (off' + i) '\x00' = name.getD (off + i) '\x00' := by
  have element := congrArg (fun text => text[i]?) text
  simpa [below, readName] using element

theorem copyRemaining_within (name name' : List Char) (n off : Nat) (buffer : Nat → Char) (tempLen : Nat) :
    copyRemaining name' .reparseBuffer n off buffer tempLen = copyRemaining name .reparseBuffer n off buffer tempLen := by
  induction n generalizing off buffer tempLen with
  | zero => rfl
  | succ n ih =>
    rw [copyRemaining, copyRemaining]
    split
    · exact ih _ _ _
    · rfl

namespace Behind

variable (behind : Behind name name' ctx ctx')
include behind

theorem withBuffer (buffer : Nat → Char) :
    Behind name name' { ctx with reparseBuffer := buffer } { ctx' with reparseBuffer := buffer } where
  directory := behind.directory
  count := behind.count
  buffer := rfl
  array := behind.array
  offset := behind.offset
  text := by
    have text := behind.text
    have array := behind.array
    have length := behind.length
    have offset := behind.offset
    rw [remainingName, remainingName] at text ⊢
    dsimp only
    cases inside : ctx.array with
    | objectName =>
      rw [array, inside] at text
      rw [array, inside]
      exact text
    | reparseBuffer =>
      rw [array, inside, offset inside, length]
      rfl

theorem copied (buffer : Nat → Char) (tempLen : Nat) :
    copyRemaining name' ctx'.array ctx'.length ctx'.offset buffer tempLen =
      copyRemaining name ctx.array ctx.length ctx.offset buffer tempLen := by
  rw [behind.array, behind.length]
  cases inside : ctx.array with
  | objectName =>
    have text := behind.text
    rw [remainingName, remainingName, behind.array, behind.length, inside] at text
    exact copyRemaining_congr (readName_of_text text) buffer tempLen
  | reparseBuffer =>
    rw [behind.offset inside]
    exact copyRemaining_within name name' _ _ buffer tempLen

theorem substitute (target : List Char) :
    Behind name name' (substituteTarget name target ctx) (substituteTarget name' target ctx') := by
  rw [substituteTarget, substituteTarget, behind.buffer]
  generalize copyTarget target ctx.reparseBuffer 0 = copy
  obtain ⟨buffer, tempLen⟩ := copy
  have rem := (behind.withBuffer buffer).skip
  have array : ctx'.array = ctx.array := behind.array
  have copied := rem.copied
  have skipped : (skipSeparators name' { ctx' with reparseBuffer := buffer }).array = ctx'.array := rfl
  have skipped' : (skipSeparators name { ctx with reparseBuffer := buffer }).array = ctx.array := rfl
  rw [skipped, skipped'] at copied
  dsimp only
  rw [rem.length]
  split
  · exact ⟨behind.directory, behind.count, rfl, rfl, fun _ => rfl, rfl⟩
  · rw [← rem.length, copied, rem.length]
    exact ⟨behind.directory, behind.count, rfl, rfl, fun _ => rfl, rfl⟩

theorem restart (path : List Char) : Behind name name' (ctx.restart path) (ctx'.restart path) :=
  ⟨behind.directory, behind.count, rfl, rfl, fun _ => rfl, rfl⟩

theorem reparseDirectory (request : LookupRequest) (name'' : List Char) :
    reparseDirectory N (request.named name'') ctx' = Ob.reparseDirectory N request ctx := by
  rw [Ob.reparseDirectory, Ob.reparseDirectory, behind.buffer, behind.directory]
  rfl

end Behind

/-- A round at a place and the round behind it. The two part where the first one makes the
last of the reparses. -/
inductive StepsBehind (name name' : List Char) :
    LookupContext ⊕ LookupResult → LookupContext ⊕ LookupResult → Prop
  | next (behind : Behind name name' next next') (few : next.reparseCount < 32) :
      StepsBehind name name' (.inl next) (.inl next')
  | done (same : result'.answer = result.answer) : StepsBehind name name' (.inr result) (.inr result')
  | spent (last : next.reparseCount = 32) (refused : result'.answer = (.reparseObjectMayLoop, none)) :
      StepsBehind name name' (.inl next) (.inr result')

theorem countReparse_behind {next next' : LookupContext} (behind : Behind name name' ctx ctx')
    (reparsed : Behind name name' next next') : StepsBehind name name' (countReparse ctx next) (countReparse ctx' next') := by
  rw [countReparse, countReparse, behind.count]
  by_cases spent : 32 < ctx.reparseCount + 1
  · rw [if_pos spent, if_pos (by omega)]
    exact .done rfl
  · rw [if_neg spent]
    by_cases last : 32 < ctx.reparseCount + 1 + 1
    · rw [if_pos last]
      exact .spent (by dsimp only; omega) rfl
    · rw [if_neg last]
      refine .next ⟨reparsed.directory, rfl, reparsed.buffer, reparsed.array, reparsed.offset, reparsed.text⟩ ?_
      dsimp only
      omega

theorem enterObject_behind {next next' : LookupContext} (behind : Behind request.objectName name' next next')
    (few : next.reparseCount < 32) (object : Object) : StepsBehind request.objectName name'
      (enterObject N request next object) (enterObject N (request.named name') next' object) := by
  have entered : Behind request.objectName name' ((next.moveTo object).skipSeparators request.objectName)
      ((next'.moveTo object).skipSeparators name') := (behind.moveTo object).skip
  have short : ((next.moveTo object).skipSeparators request.objectName).reparseCount = next.reparseCount := rfl
  have whole : ((next'.moveTo object).skipSeparators (request.named name').objectName).length =
      ((next.moveTo object).skipSeparators request.objectName).length := entered.length
  rw [enterObject, enterObject, whole]
  split
  · exact .done rfl
  · exact .next entered (short ▸ few)

theorem lookupStep_behind (behind : Behind request.objectName name' ctx ctx') (few : ctx.reparseCount < 32) :
    StepsBehind request.objectName name' (lookupStep N parse request ctx)
      (lookupStep N parse (request.named name') ctx') := by
  rw [lookupStep, lookupStep, behind.directory]
  split
  · rw [obpParseSymbolicLink, obpParseSymbolicLink]
    split
    · next found =>
        split at found
        · cases found
          exact countReparse_behind behind (behind.skip.moveTo _)
        · cases found
    · next found =>
        split at found
        · cases found
        · cases found
          have reparsed := behind.substitute (N.link ctx.currentDirectory).linkTarget
          have place := reparsed.reparseDirectory (N := N) request name'
          exact countReparse_behind behind (place ▸ reparsed.moveTo _)
  · have text : ctx'.remainingName (request.named name').objectName = ctx.remainingName request.objectName := behind.text
    rw [text]
    split
    · exact .done rfl
    · exact .done (by rw [finishLookup, finishLookup]; rfl)
    · have restarted := @Behind.restart request.objectName name' _ _ behind
      rename_i path _
      have place := (restarted path).reparseDirectory (N := N) request name'
      exact countReparse_behind behind (place ▸ (restarted path).moveTo _)
    · exact .done rfl
  · exact .done rfl
  · obtain ⟨word, after⟩ := behind.token
    cases taken : obpGetNextPathToken request.objectName ctx with
    | mk next token =>
    cases taken' : obpGetNextPathToken name' ctx' with
    | mk next' token' =>
    have count : next.reparseCount < 32 := by
      rw [← congrArg (·.1.reparseCount) taken, obpGetNextPathToken_count]
      exact few
    rw [taken, taken'] at word after
    dsimp only at word after
    subst word
    have taken'' : obpGetNextPathToken (request.named name').objectName ctx' = (next', token') := taken'
    rw [taken'']
    cases token' with
    | none => exact .done rfl
    | some token =>
      dsimp only
      have lookup : obpLookupEntryDirectory N ctx.currentDirectory token (request.named name').caseInsensitive =
          obpLookupEntryDirectory N ctx.currentDirectory token request.caseInsensitive := rfl
      rw [lookup]
      cases obpLookupEntryDirectory N ctx.currentDirectory token request.caseInsensitive with
      | none =>
        refine .done ?_
        have length := after.length
        dsimp only [LookupResult.answer, LookupRequest.named]
        simp only [length]
      | some object => exact enterObject_behind after count object

end Behind

section Spends
variable {N : Namespace} {parse : Object → List Char → ParseOutcome} {request : LookupRequest}
  {name' : List Char} {ctx ctx' : LookupContext}

/-- The round is a reparse, or the parse routine reports a loop itself. -/
inductive TriesReparse (N : Namespace) (parse : Object → List Char → ParseOutcome) (request : LookupRequest)
    (ctx : LookupContext) : Prop
  | link (type : N.type ctx.currentDirectory = .symbolicLink)
  | parsed (type : N.type ctx.currentDirectory = .other typeId true)
      (path : parse ctx.currentDirectory (ctx.remainingName request.objectName) = .reparse path)
  | failed (type : N.type ctx.currentDirectory = .other typeId true)
      (loop : parse ctx.currentDirectory (ctx.remainingName request.objectName) = .failed .reparseObjectMayLoop)

/-- From here on the lookup makes its last allowed reparse, and ends without one more. -/
def SpendsFrom (N : Namespace) (parse : Object → List Char → ParseOutcome) (request : LookupRequest)
    (ctx : LookupContext) : Prop :=
  ∃ last : LookupContext, Relation.ReflTransGen (fun a b => lookupStep N parse request a = .inl b) ctx last ∧
    last.reparseCount = 32 ∧ (∃ result, lookupStep N parse request last = .inr result) ∧
    ¬ TriesReparse N parse request last

/-- A lookup that uses up the reparses that a lookup may make, and no more. -/
def Spends (N : Namespace) (parse : Object → List Char → ParseOutcome) (request : LookupRequest) : Prop :=
  SpendsFrom N parse request (.initial request.objectName (request.start N))

theorem SpendsFrom.next_iff {next : LookupContext} (stepped : lookupStep N parse request ctx = .inl next) :
    SpendsFrom N parse request ctx ↔ SpendsFrom N parse request next := by
  constructor
  · rintro ⟨last, reached, spent, ⟨result, done⟩, settled⟩
    cases reached.cases_head with
    | inl here =>
      rw [here, done] at stepped
      cases stepped
    | inr first =>
      obtain ⟨following, step, further⟩ := first
      obtain rfl := Sum.inl.inj (step.symm.trans stepped)
      exact ⟨last, further, spent, ⟨result, done⟩, settled⟩
  · rintro ⟨last, reached, spent, done, settled⟩
    exact ⟨last, .head stepped reached, spent, done, settled⟩

theorem SpendsFrom.walk_iff {later : LookupContext}
    (walk : Relation.ReflTransGen (fun a b => lookupStep N parse request a = .inl b) ctx later) :
    SpendsFrom N parse request ctx ↔ SpendsFrom N parse request later := by
  induction walk with
  | refl => rfl
  | tail _ stepped ih => exact ih.trans (SpendsFrom.next_iff stepped)

theorem SpendsFrom.done_iff {result : LookupResult} (stepped : lookupStep N parse request ctx = .inr result) :
    SpendsFrom N parse request ctx ↔ ctx.reparseCount = 32 ∧ ¬ TriesReparse N parse request ctx := by
  constructor
  · rintro ⟨last, reached, spent, -, settled⟩
    cases reached.cases_head with
    | inl here => exact here ▸ ⟨spent, settled⟩
    | inr first =>
      obtain ⟨_, step, _⟩ := first
      cases step.symm.trans stepped
  · rintro ⟨spent, settled⟩
    exact ⟨ctx, .refl, spent, ⟨result, stepped⟩, settled⟩

theorem countReparse_spent (spent : ctx.reparseCount = 32) (next : LookupContext) :
    countReparse ctx next = .inr ⟨.reparseObjectMayLoop, none, ctx.currentDirectory⟩ :=
  if_pos (by omega)

theorem finishLookup_settled (N : Namespace) (request : LookupRequest) (object current : Object) :
    (finishLookup N request object current).answer ≠ (.reparseObjectMayLoop, none) := by
  rw [finishLookup]
  split
  · exact fun same => by cases congrArg Prod.fst same
  · exact fun same => by cases congrArg Prod.fst same

/-- What a round without reparses left does: it goes on with none left, or it ends, and it
reports a loop just where it would have made a reparse. -/
theorem lookupStep_spent (spent : ctx.reparseCount = 32) :
    (∃ next, lookupStep N parse request ctx = .inl next ∧ next.reparseCount = 32) ∨
    (∃ result, lookupStep N parse request ctx = .inr result ∧
      (result.answer = (.reparseObjectMayLoop, none) ↔ TriesReparse N parse request ctx)) := by
  rw [lookupStep]
  split
  · next type =>
      refine .inr ⟨⟨.reparseObjectMayLoop, none, ctx.currentDirectory⟩, ?_, fun _ => .link type, fun _ => rfl⟩
      split
      · exact countReparse_spent spent _
      · exact countReparse_spent spent _
  · next typeId type =>
      have parsed : ∀ outcome, parse ctx.currentDirectory (ctx.remainingName request.objectName) = outcome →
          (∀ path, outcome ≠ .reparse path) → outcome ≠ .failed .reparseObjectMayLoop →
          ¬ TriesReparse N parse request ctx := by
        intro outcome answered reparse failed reparses
        cases reparses with
        | link link => cases link.symm.trans type
        | parsed _ path => exact reparse _ (answered.symm.trans path)
        | failed _ loop => exact failed (answered.symm.trans loop)
      split
      · next answered =>
          refine .inr ⟨_, rfl, fun loop => ?_, fun reparses => ?_⟩
          · have status := congrArg Prod.fst loop
            dsimp only [LookupResult.answer] at status
            split at status <;> cases status
          · exact (parsed _ answered (fun _ same => by cases same) (fun same => by cases same) reparses).elim
      · next answered =>
          refine .inr ⟨_, rfl, fun loop => (finishLookup_settled _ _ _ _ loop).elim, fun reparses => ?_⟩
          exact (parsed _ answered (fun _ same => by cases same) (fun same => by cases same) reparses).elim
      · next answered => exact .inr ⟨_, countReparse_spent spent _, fun _ => .parsed type answered, fun _ => rfl⟩
      · next status answered =>
          refine .inr ⟨_, rfl, fun loop => ?_, fun reparses => ?_⟩
          · exact .failed type (answered.trans (congrArg _ (congrArg Prod.fst loop)))
          · by_cases mayLoop : status = .reparseObjectMayLoop
            · rw [mayLoop]
              rfl
            · exact (parsed _ answered (fun _ same => by cases same) (fun same => mayLoop (by cases same; rfl)) reparses).elim
  · next typeId type =>
      refine .inr ⟨_, rfl, fun loop => (by cases congrArg Prod.fst loop), fun reparses => ?_⟩
      cases reparses with
      | link link => cases link.symm.trans type
      | parsed other | failed other => cases other.symm.trans type
  · next type =>
      have settled : ¬ TriesReparse N parse request ctx := by
        intro reparses
        cases reparses with
        | link link => cases link.symm.trans type
        | parsed other | failed other => cases other.symm.trans type
      cases taken : obpGetNextPathToken request.objectName ctx with
      | mk next token =>
      have count : next.reparseCount = 32 := by
        rw [← congrArg (·.1.reparseCount) taken, obpGetNextPathToken_count]
        exact spent
      cases token with
      | none => exact .inr ⟨_, rfl, fun loop => (finishLookup_settled _ _ _ _ loop).elim, fun r => (settled r).elim⟩
      | some token =>
        dsimp only
        split
        · refine .inr ⟨_, rfl, fun loop => ?_, fun r => (settled r).elim⟩
          have status := congrArg Prod.fst loop
          dsimp only [LookupResult.answer] at status
          split at status <;> cases status
        · rw [enterObject]
          split
          · exact .inr ⟨_, rfl, fun loop => (finishLookup_settled _ _ _ _ loop).elim, fun r => (settled r).elim⟩
          · exact .inl ⟨_, rfl, count⟩

theorem lookupLoop_spent (ctx : LookupContext) : ctx.reparseCount = 32 →
    ((lookupLoop N parse request ctx).answer = (.reparseObjectMayLoop, none) ↔ ¬ SpendsFrom N parse request ctx) := by
  refine lookupLoop_rec (P := fun ctx result => ctx.reparseCount = 32 →
    (result.answer = (.reparseObjectMayLoop, none) ↔ ¬ SpendsFrom N parse request ctx)) ?_ ?_ ctx
  · intro ctx result stepped spent
    rcases @lookupStep_spent N parse request _ spent with
      ⟨_, step, _⟩ | ⟨result', step, reported⟩
    · cases step.symm.trans stepped
    · obtain rfl := Sum.inr.inj (step.symm.trans stepped)
      rw [reported, SpendsFrom.done_iff stepped]
      exact ⟨fun reparses settled => settled.2 reparses, fun settled => by_contra fun still => settled ⟨spent, still⟩⟩
  · intro ctx following stepped ih spent
    rcases @lookupStep_spent N parse request _ spent with
      ⟨next, step, count⟩ | ⟨_, step, _⟩
    · obtain rfl := Sum.inl.inj (step.symm.trans stepped)
      rw [ih count, SpendsFrom.next_iff stepped]
    · cases step.symm.trans stepped

theorem lookupLoop_behind (ctx : LookupContext) : ctx.reparseCount < 32 →
    ∀ ctx', Behind request.objectName name' ctx ctx' →
      (¬ SpendsFrom N parse request ctx →
        (lookupLoop N parse (request.named name') ctx').answer = (lookupLoop N parse request ctx).answer) ∧
      (SpendsFrom N parse request ctx →
        (lookupLoop N parse (request.named name') ctx').answer = (.reparseObjectMayLoop, none)) := by
  refine lookupLoop_rec (P := fun ctx result => ctx.reparseCount < 32 →
    ∀ ctx', Behind request.objectName name' ctx ctx' →
      (¬ SpendsFrom N parse request ctx →
        (lookupLoop N parse (request.named name') ctx').answer = result.answer) ∧
      (SpendsFrom N parse request ctx →
        (lookupLoop N parse (request.named name') ctx').answer = (.reparseObjectMayLoop, none))) ?_ ?_ ctx
  · intro ctx result stepped few ctx' behind
    have unspent : ¬ SpendsFrom N parse request ctx := by
      rw [SpendsFrom.done_iff stepped]
      exact fun spends => few.ne spends.1
    have steps := @lookupStep_behind N parse _ _ _ _ behind few
    rw [stepped] at steps
    cases stepped' : lookupStep N parse (request.named name') ctx' with
    | inl next' =>
      rw [stepped'] at steps
      cases steps
    | inr result' =>
      rw [stepped'] at steps
      cases steps with
      | done same => exact lookupLoop_done stepped' ▸ ⟨fun _ => same, fun spends => (unspent spends).elim⟩
  · intro ctx following stepped ih few ctx' behind
    have steps := @lookupStep_behind N parse _ _ _ _ behind few
    rw [stepped] at steps
    cases stepped' : lookupStep N parse (request.named name') ctx' with
    | inl next' =>
      rw [stepped'] at steps
      cases steps with
      | next behind few =>
        rw [lookupLoop_next stepped', SpendsFrom.next_iff stepped]
        exact ih few _ behind
    | inr result' =>
      rw [stepped'] at steps
      cases steps with
      | spent last refused =>
        rw [lookupLoop_done stepped', SpendsFrom.next_iff stepped]
        exact ⟨fun unspent => refused.trans ((lookupLoop_spent following last).mpr unspent).symm,
          fun _ => refused⟩

end Spends

section Descends
variable {N : Namespace} {parse : Object → List Char → ParseOutcome} {request : LookupRequest}
  {ctx : LookupContext} {rest : List Char}

/-- The walk of a path comes to the object that the path names, with what is behind the path left. -/
theorem Descends.reaches (more : rest.head?.all isSeparator = true)
    (descends : Descends N request.caseInsensitive d tokens x) : ∀ {ctx : LookupContext} {path : List Char},
    '\x00' ∉ path → components path = tokens → tokens ≠ [] → ctx.currentDirectory = d →
    ctx.remainingName request.objectName = path ++ rest →
    ∃ last next : LookupContext, Relation.ReflTransGen (fun a b => lookupStep N parse request a = .inl b) ctx last ∧
      lookupStep N parse request last = enterObject N request next x ∧
      (next.remainingName request.objectName).dropWhile isSeparator = rest.dropWhile isSeparator ∧
      next.array = ctx.array ∧ next.reparseBuffer = ctx.reparseBuffer ∧ next.reparseCount = ctx.reparseCount ∧
      last.reparseCount = ctx.reparseCount := by
  induction descends with
  | here => exact fun _ _ some => (some rfl).elim
  | @entry d c o tokens x type found further ih =>
    intro ctx path plain first _ here text
    obtain ⟨before, after, rfl, separators, word, ends, second, plain'⟩ := components_split plain first
    have ends' : (after ++ rest).head?.all isSeparator = true := by
      cases after with
      | nil => exact more
      | cons a after => exact ends
    obtain ⟨next, token, left, advanced⟩ := @obpGetNextPathToken_next _ ctx _ c _
      (text.trans (List.append_assoc ..)) separators word ends'
    have step : lookupStep N parse request ctx = enterObject N request next o := by
      rw [lookupStep, here, type, token]
      dsimp only
      rw [found]
    cases tokens with
    | nil =>
      cases further
      refine ⟨ctx, next, .refl, step, ?_, ?_, ?_, ?_, rfl⟩
      · have blank : ∀ a ∈ after, isSeparator a = true :=
          List.dropWhile_eq_nil_iff.mp (fields_eq_nil.mp second)
        rw [left, List.dropWhile_append_of_pos blank]
      all_goals rw [advanced]; rfl
    | cons token tokens =>
      have entered : enterObject N request next o =
          .inl ((next.moveTo o).skipSeparators request.objectName) := by
        rw [enterObject]
        refine if_neg fun ended => ?_
        have length := congrArg List.length
          ((@remainingName_skip request.objectName (next.moveTo o)).trans
            (congrArg (List.dropWhile isSeparator) left))
        rw [remainingName_length, ended.1] at length
        have none := List.eq_nil_of_length_eq_zero length.symm
        rw [List.dropWhile_eq_nil_iff] at none
        have blank : components after = [] :=
          fields_eq_nil.mpr (List.dropWhile_eq_nil_iff.mpr fun a member => none a (List.mem_append_left _ member))
        rw [second] at blank
        cases blank
      obtain ⟨last, next', walk, steps, left', array, buffer, count, count'⟩ :=
        @ih ((next.moveTo o).skipSeparators request.objectName) (after.dropWhile isSeparator)
          (fun member => plain' ((List.dropWhile_sublist _).mem member)) ((components_skip after).trans second)
          (List.cons_ne_nil _ _) rfl (by
            rw [remainingName_skip, remainingName_moveTo, left]
            cases skipped : after.dropWhile isSeparator with
            | nil =>
              rw [components, fields_eq_nil.mpr skipped] at second
              cases second
            | cons a more => rw [List.dropWhile_append, skipped]; rfl)
      have place : next.array = ctx.array ∧ next.reparseBuffer = ctx.reparseBuffer ∧
          next.reparseCount = ctx.reparseCount := by
        rw [advanced]
        exact ⟨rfl, rfl, rfl⟩
      exact ⟨last, next', .head (step.trans entered) walk, steps, left', array.trans place.1,
        buffer.trans place.2.1, count.trans place.2.2, count'.trans place.2.2⟩

theorem PathNames.reaches {path : List Char} (names : PathNames N request path x)
    (more : rest.head?.all isSeparator = true) : ∃ last next : LookupContext,
      Walks N parse (request.named (path ++ rest)) last ∧
      lookupStep N parse (request.named (path ++ rest)) last = enterObject N (request.named (path ++ rest)) next x ∧
      (next.remainingName (path ++ rest)).dropWhile isSeparator = rest.dropWhile isSeparator ∧
      next.array = .objectName ∧ next.reparseBuffer = (fun _ => '\x00') ∧ next.reparseCount = 0 ∧
      last.reparseCount = 0 :=
  @Descends.reaches _ _ (request.named (path ++ rest)) _ _ _ _ more names.descends _ _ names.plain rfl names.named rfl
    (remainingName_initial _ _)

end Descends

section Links
variable {N : Namespace} {parse : Object → List Char → ParseOutcome} {request : LookupRequest}
  {path linkPath rest : List Char} {l x : Object}

theorem LinksTo.reaches (link : LinksTo N l x) (linked : PathNames N request linkPath l)
    (more : rest.head?.all isSeparator = true) : ∃ ctx : LookupContext,
      Walks N parse (request.named (linkPath ++ rest)) ctx ∧ ctx.currentDirectory = x ∧ ctx.reparseCount = 1 ∧
      ctx.array = .objectName ∧ ctx.reparseBuffer = (fun _ => '\x00') ∧
      ctx.remainingName (linkPath ++ rest) = rest.dropWhile isSeparator := by
  obtain ⟨last, next, walks, step, left, array, buffer, count, -⟩ := @PathNames.reaches _ parse _ _ _ _ linked more
  let entered := (next.moveTo l).skipSeparators (linkPath ++ rest)
  have place : entered.currentDirectory = l := rfl
  have begun : entered.reparseCount = 0 := count
  have enters : lookupStep N parse (request.named (linkPath ++ rest)) last = .inl entered := by
    rw [step, enterObject, link.type]
    exact if_neg fun ended => by cases ended.2
  have follows : lookupStep N parse (request.named (linkPath ++ rest)) entered =
      .inl { (entered.skipSeparators (linkPath ++ rest)).moveTo x with reparseCount := 1 } := by
    rw [lookupStep, place, link.type, obpParseSymbolicLink, link.target]
    dsimp only
    rw [countReparse, begun]
    rfl
  have skipped : entered.remainingName (linkPath ++ rest) = rest.dropWhile isSeparator := by
    rw [remainingName_skip, remainingName_moveTo, left]
  have skippedAgain : (entered.skipSeparators (linkPath ++ rest)).remainingName (linkPath ++ rest) =
      rest.dropWhile isSeparator := by
    rw [remainingName_skip, skipped, dropWhile_idempotent]
  exact ⟨_, (walks.tail enters).tail follows, rfl, rfl, array, buffer, skippedAgain⟩

theorem lookupLoop_ended {ctx : LookupContext} (here : ctx.currentDirectory = x) (type : N.type x = .directory)
    (ended : (ctx.remainingName request.objectName).dropWhile isSeparator = []) :
    lookupLoop N parse request ctx = finishLookup N request x x := by
  apply lookupLoop_done
  rw [lookupStep, here, type]
  dsimp only
  cases token : obpGetNextPathToken request.objectName ctx with
  | mk next token' =>
  have none := congrArg Prod.snd token
  rw [obpGetNextPathToken_end ended] at none
  dsimp only at none
  rw [← none]

theorem LinksTo.answers (link : LinksTo N l x) (names : PathNames N request path x)
    (linked : PathNames N request linkPath l) (more : rest.head?.all isSeparator = true)
    (apart : components rest = [] → ∀ typeId, N.type x ≠ .other typeId false) :
    (¬ Spends N parse (request.named (path ++ rest)) →
      (lookupObjectName N parse (request.named (linkPath ++ rest))).answer =
        (lookupObjectName N parse (request.named (path ++ rest))).answer) ∧
    (Spends N parse (request.named (path ++ rest)) →
      (lookupObjectName N parse (request.named (linkPath ++ rest))).answer = (.reparseObjectMayLoop, none)) := by
  obtain ⟨ctx', walks', here', count', array', buffer', text'⟩ := @LinksTo.reaches _ parse _ _ _ _ _ link linked more
  obtain ⟨last, next, walks, step, left, array, buffer, count, begun⟩ := @PathNames.reaches _ parse _ _ _ _ names more
  let ctx := (next.moveTo x).skipSeparators (path ++ rest)
  have text : ctx.remainingName (path ++ rest) = rest.dropWhile isSeparator := by
    rw [remainingName_skip, remainingName_moveTo, left]
  have given : ctx.array ≠ .reparseBuffer := fun inside => by cases array.symm.trans inside
  have behind : Behind (request.named (path ++ rest)).objectName (linkPath ++ rest) ctx ctx' :=
    ⟨here', count'.trans (congrArg (· + 1) count.symm), buffer'.trans buffer.symm, array'.trans array.symm,
      fun inside => (given inside).elim, text'.trans text.symm⟩
  have few : ctx.reparseCount < 32 := count.trans_lt (by decide)
  rw [walks'.loop, walks.loop, Spends, SpendsFrom.walk_iff walks]
  by_cases ended : ctx.length = 0 ∧ (N.type x).hasParseRoutine = false
  · have done : lookupStep N parse (request.named (path ++ rest)) last =
        .inr (finishLookup N (request.named (path ++ rest)) x x) := by
      rw [step, enterObject]
      exact if_pos ended
    have empty : rest.dropWhile isSeparator = [] := by
      rw [← text]
      exact eq_nil_of_length_eq_zero ((remainingName_length _ _).trans ended.1)
    have unspent : ¬ SpendsFrom N parse (request.named (path ++ rest)) last := by
      rw [SpendsFrom.done_iff done, begun]
      exact fun spends => by cases spends.1
    have ended' : (ctx'.remainingName (request.named (linkPath ++ rest)).objectName).dropWhile isSeparator = [] := by
      rw [LookupRequest.named, text', empty]
      rfl
    have directory : N.type x = .directory := by
      cases type : N.type x with
      | directory => rfl
      | symbolicLink =>
        rw [type] at ended
        cases ended.2
      | other typeId parseRoutine =>
        rw [type] at ended
        cases parseRoutine with
        | true => cases ended.2
        | false => exact (apart (fields_eq_nil.mpr empty) typeId type).elim
    rw [lookupLoop_done done, lookupLoop_ended here' directory ended']
    exact ⟨fun _ => rfl, fun spends => (unspent spends).elim⟩
  · have enters : lookupStep N parse (request.named (path ++ rest)) last = .inl ctx := by
      rw [step, enterObject]
      exact if_neg ended
    rw [lookupLoop_next enters, SpendsFrom.next_iff enters]
    exact lookupLoop_behind ctx few ctx' behind

theorem obDereferenceObject_permanent {σ : ObState} (permanent : (σ.header o).permanent = true) :
    ((obDereferenceObject σ o).header o).type = (σ.header o).type ∧ (obDereferenceObject σ o).link = σ.link := by
  have header : ((σ.setCount o ((σ.header o).referenceCount - 1)).header o) =
      { σ.header o with referenceCount := (σ.header o).referenceCount - 1 } := update_self ..
  have kept : obDereferenceObject σ o = σ.setCount o ((σ.header o).referenceCount - 1) := by
    rw [obDereferenceObject, header]
    dsimp only
    rw [permanent, if_pos rfl, ite_self]
  rw [kept, header]
  exact ⟨rfl, rfl⟩

theorem obReferenceObject_header (σ : ObState) (o e : Object) :
    ((obReferenceObject σ o).header e).type = (σ.header e).type ∧
      ((obReferenceObject σ o).header e).permanent = (σ.header e).permanent := by
  by_cases here : e = o
  · subst here
    have header : (obReferenceObject σ e).header e = { σ.header e with referenceCount := (σ.header e).referenceCount + 1 } :=
      update_self ..
    rw [header]
    exact ⟨rfl, rfl⟩
  · have header : (obReferenceObject σ o).header e = σ.header e := update_of_ne here ..
    rw [header]
    exact ⟨rfl, rfl⟩

theorem obpInsertDirectory_header (σ : ObState) (d o e : Object) (entryAllocated : Bool) :
    ((obpInsertDirectory σ d o entryAllocated).1.header e).type = (σ.header e).type ∧
      ((obpInsertDirectory σ d o entryAllocated).1.header e).permanent = (σ.header e).permanent ∧
      (obpInsertDirectory σ d o entryAllocated).1.link = σ.link := by
  rw [obpInsertDirectory]
  split
  · exact ⟨rfl, rfl, rfl⟩
  · dsimp only
    split
    · exact ⟨rfl, rfl, rfl⟩
    · split
      · exact ⟨rfl, rfl, rfl⟩
      · exact ⟨(obReferenceObject_header σ o e).1, (obReferenceObject_header σ o e).2, rfl⟩

theorem obCreateSymbolicLinkToObject_links {σ σ' : ObState}
    (created : obCreateSymbolicLinkToObject σ parentDirectory linkName x objectAllocated nameAllocated entryAllocated =
      (σ', .success)) (root : Object) : LinksTo (σ'.namespaceAt root) σ.nextObject x := by
  obtain ⟨σ₀, type, permanent, target, made⟩ : ∃ σ₀ : ObState, (σ₀.header σ.nextObject).type = .symbolicLink ∧
      (σ₀.header σ.nextObject).permanent = true ∧ (σ₀.link σ.nextObject).targetObject = some x ∧
      σ' = obDereferenceObject
        (obpInsertDirectory (obReferenceObject σ₀ x) parentDirectory σ.nextObject entryAllocated).1 σ.nextObject := by
    rw [obCreateSymbolicLinkToObject] at created
    split at created
    · cases congrArg Prod.snd created
    · split at created
      · cases congrArg Prod.snd created
      · dsimp only at created
        split at created
        · cases congrArg Prod.snd created
        · next allocated =>
            rw [Bool.not_eq_true', Bool.not_eq_false] at allocated
            have header (h : ObjectHeader) : update σ.header σ.nextObject h σ.nextObject = h :=
              update_self ..
            refine ⟨_, ?_, ?_, ?_, (congrArg Prod.fst created).symm⟩
            · exact congrArg ObjectHeader.type (header _)
            · exact congrArg ObjectHeader.permanent (header _)
            · dsimp only
              rw [update_self, if_pos allocated]
  obtain ⟨type₁, permanent₁⟩ := obReferenceObject_header σ₀ x σ.nextObject
  obtain ⟨type₂, permanent₂, link₂⟩ := obpInsertDirectory_header (obReferenceObject σ₀ x) parentDirectory
    σ.nextObject σ.nextObject entryAllocated
  obtain ⟨type₃, link₃⟩ := obDereferenceObject_permanent (permanent₂.trans (permanent₁.trans permanent))
  subst made
  refine ⟨type₃.trans (type₂.trans (type₁.trans type)), ?_⟩
  have link : ((obDereferenceObject (obpInsertDirectory (obReferenceObject σ₀ x) parentDirectory σ.nextObject
      entryAllocated).1 σ.nextObject).namespaceAt root).link = σ₀.link := link₃.trans link₂
  rw [link]
  exact target

/-- Looking a path up through a link that was made to an object, and through the path of the object. -/
theorem createdLink_answers {σ σ' : ObState} {linkName : List Char}
    (created : obCreateSymbolicLinkToObject σ parentDirectory linkName x objectAllocated nameAllocated entryAllocated =
      (σ', .success))
    (type : N.type σ.nextObject = (σ'.namespaceAt root).type σ.nextObject)
    (link : N.link σ.nextObject = (σ'.namespaceAt root).link σ.nextObject)
    (names : PathNames N request path x) (linked : PathNames N request linkPath σ.nextObject)
    (more : rest.head?.all isSeparator = true)
    (apart : components rest = [] → ∀ typeId, N.type x ≠ .other typeId false) :
    (¬ Spends N parse (request.named (path ++ rest)) →
      (lookupObjectName N parse (request.named (linkPath ++ rest))).answer =
        (lookupObjectName N parse (request.named (path ++ rest))).answer) ∧
    (Spends N parse (request.named (path ++ rest)) →
      (lookupObjectName N parse (request.named (linkPath ++ rest))).answer = (.reparseObjectMayLoop, none)) := by
  have links := obCreateSymbolicLinkToObject_links created root
  have now : LinksTo N σ.nextObject x := ⟨type.trans links.type, by rw [link]; exact links.target⟩
  exact now.answers names linked more apart

end Links

section Chain

def pathRequest (path : List Char) : LookupRequest := ⟨path, none, none, false, false⟩

/-- `/l` is a link to the directory `/d`, which has the entry `x`. -/
def linkedDeep : ObState := (obCreateSymbolicLinkToObject deepSystem.objects 0 ['l'] 1 true true true).1

theorem createdLink_answers_directory :
    (¬ Spends (linkedDeep.namespaceAt 0) unparsed ((pathRequest []).named (['/', 'd'] ++ ['/', 'x'])) →
      (lookupObjectName (linkedDeep.namespaceAt 0) unparsed
          ((pathRequest []).named (['/', 'l'] ++ ['/', 'x']))).answer =
        (lookupObjectName (linkedDeep.namespaceAt 0) unparsed
          ((pathRequest []).named (['/', 'd'] ++ ['/', 'x']))).answer) ∧
    (Spends (linkedDeep.namespaceAt 0) unparsed ((pathRequest []).named (['/', 'd'] ++ ['/', 'x'])) →
      (lookupObjectName (linkedDeep.namespaceAt 0) unparsed
          ((pathRequest []).named (['/', 'l'] ++ ['/', 'x']))).answer = (.reparseObjectMayLoop, none)) := by
  have created : obCreateSymbolicLinkToObject deepSystem.objects 0 ['l'] 1 true true true
      = (linkedDeep, .success) := rfl
  have directory : (linkedDeep.namespaceAt 0).type 1 = .directory := rfl
  refine @createdLink_answers _ _ _ _ _ _ _ _ _ _ _ 0 _ _ _ created rfl rfl ⟨by decide, by decide, ?_⟩ ⟨by decide, by decide, ?_⟩ rfl ?_
  · exact .entry rfl rfl .here
  · exact .entry rfl rfl .here
  · intro _ typeId other
    cases directory.symm.trans other

/-- `/l` is a link to the directory `/d`. -/
def linkedDirectory : ObState := (obCreateSymbolicLinkToObject placedDirectory.objects 0 ['l'] 1 true true true).1

/-- The loop of a lookup, for as many rounds. -/
def lookupWithin (N : Namespace) (parse : Object → List Char → ParseOutcome) (request : LookupRequest) :
    Nat → LookupContext → Option LookupResult
  | 0, _ => none
  | rounds + 1, ctx =>
    match lookupStep N parse request ctx with
    | .inr result => some result
    | .inl next => lookupWithin N parse request rounds next

theorem lookupWithin_loop {N : Namespace} {parse : Object → List Char → ParseOutcome} {request : LookupRequest}
    {rounds : Nat} {ctx : LookupContext} (within : lookupWithin N parse request rounds ctx = some result) :
    lookupLoop N parse request ctx = result := by
  induction rounds generalizing ctx with
  | zero => cases within
  | succ rounds ih =>
    rw [lookupWithin] at within
    cases stepped : lookupStep N parse request ctx with
    | inr done =>
      rw [stepped] at within
      exact (lookupLoop_done stepped).trans (Option.some.inj within)
    | inl next =>
      rw [stepped] at within
      rw [lookupLoop_next stepped, ih within]

/-- `/d`, a link `/l` to it, a link `/ll` to that one, and so on. -/
def linkChain : Nat → ObState
  | 0 => placedDirectory.objects
  | n + 1 => (obCreateSymbolicLinkToObject (linkChain n) 0 (List.replicate (n + 1) 'l') (n + 1) true true true).1

theorem linkChain_succ (n : Nat) : linkChain (n + 1) =
    (obCreateSymbolicLinkToObject (linkChain n) 0 (replicate (n + 1) 'l') (n + 1) true true true).1 := rfl

/-- The path of the last link but one leads to the directory; the last link, which was made to
that one, leads nowhere. And the path of a plain object finds it, where a link to it does not. -/
theorem linkToObject_differs :
    (obCreateSymbolicLinkToObject (linkChain 32) 0 (List.replicate 33 'l') 33 true true true = (linkChain 33, .success) ∧
      (lookupObjectName ((linkChain 33).namespaceAt 0) unparsed (pathRequest ('/' :: List.replicate 32 'l'))).answer =
        (.success, some 1) ∧
      (lookupObjectName ((linkChain 33).namespaceAt 0) unparsed (pathRequest ('/' :: List.replicate 33 'l'))).answer =
        (.reparseObjectMayLoop, none)) ∧
    ∃ linkedObject, obCreateSymbolicLinkToObject openObjects 0 ['l'] 1 true true true = (linkedObject, .success) ∧
      (lookupObjectName (linkedObject.namespaceAt 0) unparsed (pathRequest ['/', 'a'])).answer = (.success, some 1) ∧
      (lookupObjectName (linkedObject.namespaceAt 0) unparsed (pathRequest ['/', 'l'])).answer =
        (.objectTypeMismatch, none) := by
  refine ⟨⟨?_, ?_, ?_⟩, ⟨_, rfl, ?_, ?_⟩⟩
  · have status : (obCreateSymbolicLinkToObject (linkChain 32) 0 (replicate 33 'l') 33 true true true).2 =
        .success := by decide +kernel
    have made := linkChain_succ 32
    simp only [Nat.reduceAdd] at made
    rw [made, ← status]
  · have found : lookupWithin ((linkChain 33).namespaceAt 0) unparsed (pathRequest ('/' :: replicate 32 'l')) 40
        (.initial ('/' :: replicate 32 'l') 0) = some ⟨.success, some 1, 1⟩ := by decide +kernel
    have answer := congrArg LookupResult.answer (lookupWithin_loop found)
    exact answer
  · have refused : lookupWithin ((linkChain 33).namespaceAt 0) unparsed (pathRequest ('/' :: replicate 33 'l')) 40
        (.initial ('/' :: replicate 33 'l') 0) = some ⟨.reparseObjectMayLoop, none, 2⟩ := by decide +kernel
    have answer := congrArg LookupResult.answer (lookupWithin_loop refused)
    exact answer
  · rw [lookupObjectName, lookupLoop_done rfl]
    rfl
  · rw [lookupObjectName, lookupLoop_next rfl, lookupLoop_next rfl, lookupLoop_done rfl]
    rfl

end Chain

end VeaOS.Ob

import VeaOS.Ob.ObjectLinks
import Mathlib.Data.List.GetD

/-! The query of an object's name. One pass up the directories measures the name, a second one
writes it from its end on. A lookup of what was written leads down the same directories. -/
namespace VeaOS.Ob
open Foundation List

def nameTooLong : VeaStatus := .other 0xC0000106

def bufferTooSmall : VeaStatus := .other 0xC0000023

/-- `ANSI_STRING`. The text is given by its offset in the buffer of the query. -/
structure AnsiString where
  length : Nat
  maximumLength : Nat
  buffer : Option Nat

/-- `sizeof(ANSI_STRING)`. -/
def ansiStringSize : Nat := 8

/-- What a place of the buffer of a query holds. -/
inductive NameCell where
  | text (c : Char)
  | descriptor (name : AnsiString)

abbrev NameMemory := Nat → NameCell

def putText (memory : NameMemory) (place : Nat) (text : List Char) : NameMemory := fun i =>
  if place ≤ i ∧ i < place + text.length then .text (text.getD (i - place) '\x00') else memory i

def putDescriptor (memory : NameMemory) (name : AnsiString) : NameMemory := fun i =>
  if i < ansiStringSize then .descriptor name else memory i

structure NameQuery where
  status : VeaStatus
  returnLength : Option Nat
  memory : NameMemory

section Model
variable (σ : ObState) (root : Object)

/-- What a directory adds to the size, and the directory above it. -/
def componentSize (directory : Object) : Nat × Option Object :=
  match (σ.header directory).nameInfo with
  | some ⟨above, some name⟩ => (1 + name.length, above)
  | _ => (1 + 3, none)

/-- The pass that measures, for as many directories. -/
def measureName : Nat → Option Object → Nat → Option (Except VeaStatus Nat)
  | _, none, nameSize => some (.ok nameSize)
  | 0, some _, _ => none
  | rounds + 1, some directory, nameSize =>
    if directory = root then some (.ok nameSize)
    else if 0xFFFFFFFF - (componentSize σ directory).1 < nameSize then some (.error nameTooLong)
    else measureName rounds (componentSize σ directory).2 (nameSize + (componentSize σ directory).1)

/-- The pass that writes, for as many directories: where it has come to, and the buffer. -/
def copyName : Nat → Option Object → Nat → NameMemory → Option (Nat × NameMemory)
  | _, none, place, memory => some (place, memory)
  | 0, some _, _, _ => none
  | rounds + 1, some directory, place, memory =>
    if directory = root then some (place, memory)
    else
      let memory := putText memory (place - 1) ['\\']
      match (σ.header directory).nameInfo with
      | some ⟨above, some name⟩ =>
        copyName rounds above (place - 1 - name.length) (putText memory (place - 1 - name.length) name)
      | _ => some (place - 1 - 3, putText memory (place - 1 - 3) ['.', '.', '.'])

/-- `NameSize`, with the separator in front. -/
def queriedSize (rounds : Nat) (object : Object) (info : NameInfo) (name : List Char) :
    Option (Except VeaStatus Nat) :=
  if object = root then some (.ok 1)
  else (measureName σ root rounds info.directory name.length).map fun measured => do
    let nameSize ← measured
    if 0xFFFFFFFF - 1 < nameSize then .error nameTooLong else .ok (nameSize + 1)

/-- What the second pass leaves in the buffer, and where the name begins. -/
def writtenName (rounds : Nat) (object : Object) (info : NameInfo) (name : List Char) (requiredLength : Nat)
    (memory : NameMemory) : Option (Nat × NameMemory) :=
  let place := requiredLength - 1
  let memory := putText memory place ['\x00']
  if object = root then some (place - 1, putText memory (place - 1) ['\\'])
  else (copyName σ root rounds info.directory (place - name.length) (putText memory (place - name.length) name)).map
    fun (place, memory) => (place - 1, putText memory (place - 1) ['\\'])

/-- `ObQueryNameString` for an object with a name, or the root. -/
def queryNamed (rounds : Nat) (object : Object) (info : NameInfo) (name : List Char) (length : Nat)
    (memory : NameMemory) : Option NameQuery :=
  match queriedSize σ root rounds object info name with
  | none => none
  | some (.error status) => some ⟨status, none, memory⟩
  | some (.ok nameSize) =>
    if 0xFFFE < nameSize then some ⟨nameTooLong, none, memory⟩
    else
      let requiredLength := ansiStringSize + nameSize + 1
      if length < requiredLength then some ⟨bufferTooSmall, some requiredLength, memory⟩
      else (writtenName σ root rounds object info name requiredLength memory).map fun (place, memory) =>
        ⟨.success, some requiredLength,
          putDescriptor memory ⟨nameSize % 0x10000, (nameSize + 1) % 0x10000, some place⟩⟩

/-- `ObQueryNameString`, where the loops see at most so many directories. No type has a
`QueryNameMethod`. -/
def obQueryNameString (rounds : Nat) (object : Object) (length : Nat) (memory : NameMemory) : Option NameQuery :=
  match (σ.header object).nameInfo.map fun info => (info, info.name) with
  | some (info, some name) => queryNamed σ root rounds object info name length memory
  | _ =>
    if object = root then queryNamed σ root rounds object ⟨none, none⟩ [] length memory
    else if length < ansiStringSize then some ⟨bufferTooSmall, some ansiStringSize, memory⟩
    else some ⟨.success, some ansiStringSize, putDescriptor memory ⟨0, 0, none⟩⟩

/-- What stands in front of a name, by the directories above it. The loops end at the root, at a
directory that is in none, or behind one without a name. -/
inductive Ancestors : Nat → Option Object → List Char → Prop
  | top : Ancestors n none []
  | root : Ancestors (n + 1) (some root) []
  | named (other : d ≠ root) (info : (σ.header d).nameInfo = some ⟨above, some name⟩)
      (front : Ancestors n above text) : Ancestors (n + 1) (some d) (text ++ name ++ ['\\'])
  | unnamed (other : d ≠ root) (unnamed : nameOf σ d = none) : Ancestors (n + 1) (some d) ['.', '.', '.', '\\']

inductive FullName : Nat → Object → List Char → Prop
  | root : FullName n root ['\\']
  | named (other : o ≠ root) (info : (σ.header o).nameInfo = some ⟨directory, some name⟩)
      (front : Ancestors σ root n directory text) : FullName n o ('\\' :: (text ++ name))

end Model

section Passes
variable {σ : ObState} {root : Object}

theorem putText_append (memory : NameMemory) (place : Nat) (front rest : List Char) :
    putText (putText memory (place + front.length) rest) place front = putText memory place (front ++ rest) := by
  funext i
  rw [putText, putText, putText, length_append]
  by_cases inFront : place ≤ i ∧ i < place + front.length
  · rw [if_pos inFront, if_pos (by omega), getD_append _ _ _ _ (by omega)]
  · rw [if_neg inFront]
    by_cases behind : place + front.length ≤ i ∧ i < place + front.length + rest.length
    · rw [if_pos behind, if_pos (by omega), getD_append_right _ _ _ _ (by omega)]
      congr 2
      omega
    · rw [if_neg behind, if_neg (by omega)]

theorem componentSize_named (info : (σ.header d).nameInfo = some ⟨above, some name⟩) :
    componentSize σ d = (1 + name.length, above) := by
  rw [componentSize, info]

theorem componentSize_unnamed (unnamed : nameOf σ d = none) : componentSize σ d = (1 + 3, none) := by
  rw [componentSize]
  split
  · next above name info =>
      rw [nameOf, info] at unnamed
      cases unnamed
  · rfl

theorem measureName_eq (front : Ancestors σ root n parent text) (nameSize : Nat) :
    measureName σ root n parent nameSize = some (.ok (nameSize + text.length)) ∨
      measureName σ root n parent nameSize = some (.error nameTooLong) ∧ 0xFFFE < nameSize + text.length := by
  induction front generalizing nameSize with
  | top =>
    rw [measureName]
    exact .inl rfl
  | root =>
    rw [measureName, if_pos rfl]
    exact .inl rfl
  | @named d above name n text other info front ih =>
    have length : (text ++ name ++ ['\\']).length = text.length + (1 + name.length) := by
      simp only [length_append, length_singleton]
      omega
    rw [measureName, if_neg other, componentSize_named info, length]
    dsimp only
    split
    · exact .inr ⟨rfl, by omega⟩
    · have sum : nameSize + (1 + name.length) + text.length = nameSize + (text.length + (1 + name.length)) := by omega
      rw [← sum]
      exact ih _
  | @unnamed d n other unnamed =>
    have ends : measureName σ root n none (nameSize + (1 + 3)) = some (.ok (nameSize + (1 + 3))) := by rw [measureName]
    rw [measureName, if_neg other, componentSize_unnamed unnamed]
    dsimp only
    split
    · exact .inr ⟨rfl, by dsimp only [length_cons, length_nil]; omega⟩
    · exact .inl ends

theorem copyName_eq (front : Ancestors σ root n parent text) {place : Nat} (room : text.length ≤ place)
    (memory : NameMemory) :
    copyName σ root n parent place memory = some (place - text.length, putText memory (place - text.length) text) := by
  have nothing (place : Nat) (memory : NameMemory) : putText memory place [] = memory := by
    funext i
    exact if_neg (by dsimp only [length_nil]; omega)
  induction front generalizing place memory with
  | top =>
    rw [copyName, length_nil, Nat.sub_zero, nothing]
  | root =>
    rw [copyName, if_pos rfl, length_nil, Nat.sub_zero, nothing]
  | @named d above name n text other info front ih =>
    simp only [length_append, length_singleton] at room
    have first := putText_append memory (place - 1 - name.length) name ['\\']
    have second := putText_append memory (place - 1 - name.length - text.length) text (name ++ ['\\'])
    rw [show place - 1 - name.length + name.length = place - 1 by omega] at first
    rw [show place - 1 - name.length - text.length + text.length = place - 1 - name.length by omega] at second
    have begins : place - 1 - name.length - text.length = place - (text ++ name ++ ['\\']).length := by
      simp only [length_append, length_singleton]
      omega
    rw [copyName, if_neg other, info]
    dsimp only
    rw [ih (by omega), first, second, begins, append_assoc]
  | @unnamed d n other unnamed =>
    have first := putText_append memory (place - 1 - 3) ['.', '.', '.'] ['\\']
    dsimp only [length_cons, length_nil] at room first
    rw [show place - 1 - 3 + (0 + 1 + 1 + 1) = place - 1 by omega] at first
    rw [copyName, if_neg other]
    dsimp only
    split
    · next above name info =>
        rw [nameOf, info] at unnamed
        cases unnamed
    · rw [first]
      rfl

def nameAnswer (text : List Char) (length : Nat) (memory : NameMemory) : NameQuery :=
  if 0xFFFE < text.length then ⟨nameTooLong, none, memory⟩
  else if length < ansiStringSize + text.length + 1 then
    ⟨bufferTooSmall, some (ansiStringSize + text.length + 1), memory⟩
  else ⟨.success, some (ansiStringSize + text.length + 1),
    putDescriptor (putText memory ansiStringSize (text ++ ['\x00'])) ⟨text.length, text.length + 1, some ansiStringSize⟩⟩

theorem queryNamed_eq {info : NameInfo} {name text : List Char}
    (size : queriedSize σ root n o info name = some (.ok text.length) ∨
      queriedSize σ root n o info name = some (.error nameTooLong) ∧ 0xFFFE < text.length)
    (written : ∀ memory, writtenName σ root n o info name (ansiStringSize + text.length + 1) memory =
      some (ansiStringSize, putText memory ansiStringSize (text ++ ['\x00'])))
    (length : Nat) (memory : NameMemory) :
    queryNamed σ root n o info name length memory = some (nameAnswer text length memory) := by
  rw [queryNamed, nameAnswer]
  rcases size with size | ⟨size, long⟩
  · rw [size]
    dsimp only
    by_cases long : 0xFFFE < text.length
    · rw [if_pos long, if_pos long]
    · rw [if_neg long, if_neg long]
      split
      · rfl
      · rw [written, Option.map_some, Nat.mod_eq_of_lt (by omega), Nat.mod_eq_of_lt (by omega)]
  · rw [size, if_pos long]

theorem queryNamed_root (info : NameInfo) (name : List Char) (length : Nat) (memory : NameMemory) :
    queryNamed σ root n root info name length memory = some (nameAnswer ['\\'] length memory) := by
  refine queryNamed_eq (.inl ?_) (fun memory => ?_) length memory
  · rw [queriedSize, if_pos rfl]
    rfl
  · rw [writtenName, if_pos rfl]
    exact congrArg (fun memory => some (ansiStringSize, memory))
      (putText_append memory ansiStringSize ['\\'] ['\x00'])

theorem queryNamed_named {text : List Char} (other : o ≠ root) (front : Ancestors σ root n directory text)
    (name : List Char) (length : Nat) (memory : NameMemory) :
    queryNamed σ root n o ⟨directory, some name⟩ name length memory =
      some (nameAnswer ('\\' :: (text ++ name)) length memory) := by
  have total : ('\\' :: (text ++ name)).length = name.length + text.length + 1 := by
    simp only [length_cons, length_append]
    omega
  refine queryNamed_eq ?_ (fun memory => ?_) length memory
  · rw [queriedSize, if_neg other, total]
    dsimp only
    rcases measureName_eq front name.length with measured | ⟨measured, long⟩
    · rw [measured, Option.map_some]
      by_cases long : 0xFFFFFFFF - 1 < name.length + text.length
      · refine .inr ⟨congrArg some ?_, by omega⟩
        exact if_pos long
      · exact .inl (congrArg some (if_neg long))
    · rw [measured, Option.map_some]
      exact .inr ⟨rfl, by omega⟩
  · have ended := putText_append memory (ansiStringSize + 1 + text.length) name ['\x00']
    have up := putText_append memory (ansiStringSize + 1) text (name ++ ['\x00'])
    have begun := putText_append memory ansiStringSize ['\\'] (text ++ (name ++ ['\x00']))
    have first : ansiStringSize + 1 + text.length + name.length = ansiStringSize + ('\\' :: (text ++ name)).length + 1 - 1 := by
      rw [total]
      omega
    have second : ansiStringSize + ('\\' :: (text ++ name)).length + 1 - 1 - name.length =
        ansiStringSize + 1 + text.length := by
      rw [total]
      omega
    rw [first] at ended
    rw [writtenName, if_neg other]
    dsimp only
    rw [second, ended, copyName_eq front (by omega), Nat.add_sub_cancel, up, Option.map_some, Nat.add_sub_cancel]
    exact congrArg (fun memory => some (ansiStringSize, memory)) (begun.trans (by
      rw [cons_append, nil_append, cons_append, append_assoc]))

theorem obQueryNameString_eq (full : FullName σ root n o text) (length : Nat) (memory : NameMemory) :
    obQueryNameString σ root n o length memory = some (nameAnswer text length memory) := by
  cases full with
  | root =>
    rw [obQueryNameString]
    split
    · exact queryNamed_root _ _ _ _
    · rw [if_pos rfl]
      exact queryNamed_root _ _ _ _
  | named other info front =>
    rw [obQueryNameString, info]
    exact queryNamed_named other front _ length memory

end Passes
section Paths
variable {σ : ObState} {root : Object}

/-- The names on the way from the root to an object, each as a path can have it. -/
inductive Located (σ : ObState) (root : Object) : Object → List (List Char) → Prop
  | root (type : (σ.header root).type = .directory) : Located σ root root []
  | entry (above : Located σ root d names) (other : o ≠ root) (entry : directoryOf σ o = some d)
      (name : nameOf σ o = some n) (plain : Plain n) : Located σ root o (names ++ [n])

def locatedPath (names : List (List Char)) : List Char :=
  if names = [] then ['\\'] else names.flatMap ('\\' :: ·)

theorem Ancestors.unique (front : Ancestors σ root n parent text) (front' : Ancestors σ root n' parent text') :
    text = text' := by
  induction front generalizing n' text' with
  | top =>
    cases front'
    rfl
  | root =>
    cases front' with
    | root => rfl
    | named other | unnamed other => exact (other rfl).elim
  | named other info front ih =>
    cases front' with
    | root => exact (other rfl).elim
    | named _ info' front' =>
      cases info.symm.trans info'
      rw [ih front']
    | unnamed _ unnamed =>
      rw [nameOf, info] at unnamed
      cases unnamed
  | unnamed other unnamed =>
    cases front' with
    | root => exact (other rfl).elim
    | named _ info' =>
      rw [nameOf, info'] at unnamed
      cases unnamed
    | unnamed => rfl

theorem FullName.unique (full : FullName σ root n o text) (full' : FullName σ root n' o text') : text = text' := by
  cases full with
  | root =>
    cases full' with
    | root => rfl
    | named other => exact (other rfl).elim
  | named other info front =>
    cases full' with
    | root => exact (other rfl).elim
    | named _ info' front' =>
      cases info.symm.trans info'
      rw [front.unique front']

theorem nameInfo_of (entry : directoryOf σ o = some d) (name : nameOf σ o = some n) :
    (σ.header o).nameInfo = some ⟨some d, some n⟩ := by
  cases info : (σ.header o).nameInfo with
  | none =>
    rw [directoryOf, info] at entry
    cases entry
  | some given =>
    obtain ⟨directory, stored⟩ := given
    rw [directoryOf, info] at entry
    rw [nameOf, info] at name
    rw [show directory = some d from entry, show stored = some n from name]

theorem flatMap_separators (names : List (List Char)) :
    '\\' :: names.flatMap (· ++ ['\\']) = names.flatMap ('\\' :: ·) ++ ['\\'] := by
  induction names with
  | nil => rfl
  | cons name names ih =>
    rw [flatMap_cons, flatMap_cons, append_assoc, cons_append, append_assoc, ← ih]
    rfl

theorem Located.ancestors (located : Located σ root d names) :
    Ancestors σ root (names.length + 1) (some d) (names.flatMap (· ++ ['\\'])) := by
  induction located with
  | root => exact .root
  | entry above other entry name plain ih =>
    rw [flatMap_append, flatMap_singleton, length_append, length_singleton, ← append_assoc]
    exact .named other (nameInfo_of entry name) ih

theorem Located.fullName (located : Located σ root o names) : ∃ n, FullName σ root n o (locatedPath names) := by
  cases located with
  | root => exact ⟨0, .root⟩
  | @entry d names o n above other entry name plain =>
    have text : locatedPath (names ++ [n]) = '\\' :: (names.flatMap (· ++ ['\\']) ++ n) := by
      rw [locatedPath, if_neg (append_ne_nil_of_right_ne_nil _ (cons_ne_nil _ _)), flatMap_append,
        flatMap_singleton, ← cons_append, flatMap_separators, append_assoc]
      rfl
    rw [text]
    exact ⟨_, .named other (nameInfo_of entry name) above.ancestors⟩

theorem Located.plain (located : Located σ root o names) : ∀ n ∈ names, Plain n := by
  induction located with
  | root => exact fun _ member => by cases member
  | entry above other entry name plain ih =>
    intro n member
    rcases mem_append.mp member with member | member
    · exact ih n member
    · exact mem_singleton.mp member ▸ plain

theorem components_flatMap (plain : ∀ n ∈ names, Plain n) : components (names.flatMap ('\\' :: ·)) = names := by
  induction names with
  | nil => rfl
  | cons n names ih =>
    have rest := ih fun m member => plain m (mem_cons_of_mem n member)
    obtain ⟨nonempty, word⟩ := plain n mem_cons_self
    have first : fields isSeparator n = [n] := fields_word nonempty fun c member => (word c member).1
    rw [components] at rest ⊢
    rw [flatMap_cons, cons_append, fields_separator rfl]
    cases names with
    | nil => rw [flatMap_nil, append_nil, first]
    | cons m names =>
      rw [flatMap_cons, cons_append, fields_separator rfl] at rest
      rw [flatMap_cons, cons_append, fields_append rfl, first, rest]
      rfl

theorem Descends.append {N : Namespace} (descends : Descends N caseInsensitive d names x)
    (type : N.type x = .directory) (found : obpLookupEntryDirectory N x n caseInsensitive = some o) :
    Descends N caseInsensitive d (names ++ [n]) o := by
  induction descends with
  | here => exact .entry type found .here
  | entry type' found' further ih => exact .entry type' found' (ih type found)

theorem Located.descends (kept : Names σ) (located : Located σ root o names) (caseInsensitive : Bool) :
    Descends (σ.namespaceAt root) caseInsensitive root names o := by
  induction located with
  | root => exact .here
  | entry above other entry name plain ih =>
    exact ih.append (kept.directory entry).1 (kept.finds entry name root caseInsensitive)

theorem Located.lookup (kept : Names σ) (located : Located σ root o names)
    (answers : AnswersItself (σ.header o).type parse o) (caseInsensitive : Bool) :
    (lookupObjectName (σ.namespaceAt root) parse ⟨locatedPath names, none, none, caseInsensitive, false⟩).answer =
      (.success, some o) := by
  have ends (text : List Char) (current : Object) : (finishLookup (σ.namespaceAt root)
      ⟨text, none, none, caseInsensitive, false⟩ o current).answer = (.success, some o) := by
    rw [finishLookup, if_neg fun expected => by obtain ⟨_, ⟨⟩, _⟩ := expected]
    rfl
  cases located with
  | root type =>
    have ended : ((LookupContext.initial ['\\'] root).remainingName ['\\']).dropWhile isSeparator = [] := rfl
    have loop := @lookupLoop_ended (σ.namespaceAt root) parse ⟨['\\'], none, none, caseInsensitive, false⟩ _
      (.initial ['\\'] root) rfl type ended
    exact (congrArg LookupResult.answer loop).trans (ends _ _)
  | @entry d names o n above other entry name plain =>
    have located := Located.entry above other entry name plain
    have text : locatedPath (names ++ [n]) = (names ++ [n]).flatMap ('\\' :: ·) :=
      if_neg (append_ne_nil_of_right_ne_nil _ (cons_ne_nil _ _))
    have separate := components_flatMap located.plain
    have named : PathNames (σ.namespaceAt root) ⟨[], none, none, caseInsensitive, false⟩
        ((names ++ [n]).flatMap ('\\' :: ·)) o := by
      refine ⟨fun member => ?_, ?_, ?_⟩
      · obtain ⟨m, listed, null⟩ := mem_flatMap.mp member
        rcases mem_cons.mp null with null | null
        · cases null
        · exact ((located.plain m listed).2 _ null).2 rfl
      · rw [separate]
        exact append_ne_nil_of_right_ne_nil _ (cons_ne_nil _ _)
      · rw [separate]
        exact located.descends kept caseInsensitive
    obtain ⟨last, next, walks, step, left, -⟩ := @PathNames.reaches _ parse _ [] _ _ named rfl
    rw [append_nil] at walks step left
    have short : ((next.moveTo o).skipSeparators ((names ++ [n]).flatMap ('\\' :: ·))).length = 0 := by
      rw [← LookupContext.remainingName_length ((names ++ [n]).flatMap ('\\' :: ·)), LookupContext.remainingName_skip,
        LookupContext.remainingName_moveTo, left]
      rfl
    rw [text]
    have found := (lookupLoop_entered answers.stays (fun _ expected => by cases expected) short step).mpr answers
    exact congrArg LookupResult.answer (walks.loop.trans found)

end Paths
section RoundTrip
variable {σ : ObState} {root : Object}

/-- The text that the descriptor in front of a buffer stands for. -/
def nameString (memory : NameMemory) : Option (List Char) :=
  match memory 0 with
  | .descriptor ⟨length, _, some place⟩ => some ((List.range length).map fun i =>
    match memory (place + i) with
    | .text c => c
    | .descriptor _ => '\x00')
  | _ => none

/-- What a query of a name with a buffer of some length is to do. -/
structure QueryAnswers (text : List Char) (length : Nat) (memory : NameMemory) (query : NameQuery) : Prop where
  inside : ∀ i, length ≤ i → query.memory i = memory i
  required : text.length ≤ 0xFFFE → query.returnLength = some (ansiStringSize + text.length + 1)
  tooLong : query.status = nameTooLong ↔ 0xFFFE < text.length
  tooSmall : query.status = bufferTooSmall ↔ text.length ≤ 0xFFFE ∧ length < ansiStringSize + text.length + 1
  success : query.status = .success ↔ text.length ≤ 0xFFFE ∧ ansiStringSize + text.length + 1 ≤ length
  failed : query.status ≠ .success → query.memory = memory
  returned : query.status = .success → nameString query.memory = some text

theorem nameString_written (memory : NameMemory) (text : List Char) (maximumLength : Nat) :
    nameString (putDescriptor (putText memory ansiStringSize (text ++ ['\x00']))
      ⟨text.length, maximumLength, some ansiStringSize⟩) = some text := by
  have front : putDescriptor (putText memory ansiStringSize (text ++ ['\x00']))
      ⟨text.length, maximumLength, some ansiStringSize⟩ 0 =
      .descriptor ⟨text.length, maximumLength, some ansiStringSize⟩ := rfl
  rw [nameString, front]
  refine congrArg some (ext_getElem (by rw [length_map, length_range]) fun i inside _ => ?_)
  rw [length_map, length_range] at inside
  have cell : putDescriptor (putText memory ansiStringSize (text ++ ['\x00']))
      ⟨text.length, maximumLength, some ansiStringSize⟩ (ansiStringSize + i) = .text text[i] := by
    rw [putDescriptor, if_neg (by omega), putText, length_append, length_singleton, if_pos (by omega),
      Nat.add_sub_cancel_left, getD_append _ _ _ _ inside, getD_eq_getElem _ _ inside]
  rw [getElem_map, getElem_range, cell]

theorem nameAnswer_answers (text : List Char) (length : Nat) (memory : NameMemory) :
    QueryAnswers text length memory (nameAnswer text length memory) := by
  have longStatus : nameTooLong ≠ bufferTooSmall := by decide
  have size : ansiStringSize = 8 := rfl
  rw [nameAnswer]
  by_cases long : 0xFFFE < text.length
  · rw [if_pos long]
    exact ⟨fun _ _ => rfl, fun short => absurd long (Nat.not_lt.mpr short), ⟨fun _ => long, fun _ => rfl⟩,
      ⟨fun same => (longStatus same).elim, fun small => absurd long (Nat.not_lt.mpr small.1)⟩,
      ⟨nofun, fun fits => absurd long (Nat.not_lt.mpr fits.1)⟩, fun _ => rfl, nofun⟩
  · have short : text.length ≤ 0xFFFE := Nat.le_of_not_lt long
    rw [if_neg long]
    by_cases small : length < ansiStringSize + text.length + 1
    · rw [if_pos small]
      exact ⟨fun _ _ => rfl, fun _ => rfl, ⟨fun same => (longStatus same.symm).elim, fun past => absurd past long⟩,
        ⟨fun _ => ⟨short, small⟩, fun _ => rfl⟩, ⟨nofun, fun fits => absurd small (Nat.not_lt.mpr fits.2)⟩,
        fun _ => rfl, nofun⟩
    · rw [if_neg small]
      refine ⟨fun i past => ?_, fun _ => rfl, ⟨nofun, fun past => absurd past long⟩,
        ⟨nofun, fun past => absurd past.2 small⟩, ⟨fun _ => ⟨short, Nat.le_of_not_lt small⟩, fun _ => rfl⟩,
        fun failed => absurd rfl failed, fun _ => nameString_written _ _ _⟩
      dsimp only
      rw [putDescriptor, if_neg (by omega), putText, length_append, length_singleton, if_neg (by omega)]

/-- A name that was queried leads back to the object. -/
theorem query_then_lookup (kept : Names σ) (full : FullName σ root n o text) (length : Nat) (memory : NameMemory)
    (parse : Object → List Char → ParseOutcome) (caseInsensitive : Bool) :
    ∃ query, obQueryNameString σ root n o length memory = some query ∧ QueryAnswers text length memory query ∧
      (query.status = .success → ∀ names, Located σ root o names →
        AnswersItself (σ.header o).type parse o → ∃ string, nameString query.memory = some string ∧
          (lookupObjectName (σ.namespaceAt root) parse ⟨string, none, none, caseInsensitive, false⟩).answer =
            (.success, some o)) := by
  refine ⟨_, obQueryNameString_eq full length memory, nameAnswer_answers text length memory, ?_⟩
  intro success names located answers
  refine ⟨text, (nameAnswer_answers text length memory).returned success, ?_⟩
  obtain ⟨n', full'⟩ := located.fullName
  rw [full.unique full']
  exact located.lookup kept answers caseInsensitive

/-- The object `/d/x`. -/
theorem query_then_lookup_nested :
    ∃ query, obQueryNameString deepSystem.objects 0 2 2 64 (fun _ => .text 'z') = some query ∧
      QueryAnswers ['\\', 'd', '\\', 'x'] 64 (fun _ => .text 'z') query ∧
      ∃ string, nameString query.memory = some string ∧
        (lookupObjectName (deepSystem.objects.namespaceAt 0) unparsed ⟨string, none, none, true, false⟩).answer =
          (.success, some 2) := by
  have above : (deepSystem.objects.header 1).nameInfo = some ⟨some 0, some ['d']⟩ := rfl
  have full : FullName deepSystem.objects 0 2 2 ['\\', 'd', '\\', 'x'] :=
    @FullName.named _ _ _ (some 1) ['x'] _ _ two_ne_zero rfl (.named Nat.one_ne_zero above .root)
  have located : Located deepSystem.objects 0 2 [['d'], ['x']] :=
    .entry (.entry (.root rfl) Nat.one_ne_zero rfl rfl (plain_singleton rfl (by decide))) two_ne_zero rfl rfl
      (plain_singleton rfl (by decide))
  obtain ⟨query, asked, answers, found⟩ := query_then_lookup (deepSystem_reached.sound bootState_booted).names full 64
    (fun _ => .text 'z') unparsed true
  exact ⟨query, asked, answers, found (answers.success.mpr ⟨by decide, by decide⟩) _ located trivial⟩

/-- Objects of which 1 has some name in some directory, and 2 is the root. -/
def namedObject (directory : Object) (name : List Char) : ObState :=
  { bootState with
    header := fun o => if o = 1 then ⟨1, .other 0 false, false, some ⟨some directory, some name⟩, none, none⟩
      else ⟨1, .directory, true, none, none, none⟩
    entries := fun d => if d = directory then [1] else []
    rootDirectoryObject := some 2
    nextObject := 4 }

/-- The name of a link leads to what the link is to, the name of an object below a directory
without a name leads nowhere, a name with a separator is taken for two, and the name that is
too long for the descriptor is not returned at all. -/
theorem query_then_lookup_differs :
    ((obQueryNameString linkedDirectory 0 1 2 64 fun _ => .text 'x').map fun query =>
      (query.status, nameString query.memory)) = some (.success, some ['\\', 'l']) ∧
    (lookupObjectName (linkedDirectory.namespaceAt 0) unparsed (pathRequest ['\\', 'l'])).answer = (.success, some 1) ∧
    ((obQueryNameString (namedObject 3 ['a']) 2 1 1 64 fun _ => .text 'x').map fun query =>
      (query.status, nameString query.memory)) = some (.success, some ['\\', '.', '.', '.', '\\', 'a']) ∧
    (lookupObjectName ((namedObject 3 ['a']).namespaceAt 2) unparsed
      (pathRequest ['\\', '.', '.', '.', '\\', 'a'])).answer = (.objectNameNotFound, none) ∧
    ((obQueryNameString (namedObject 2 ['a', '/', 'b']) 2 1 1 64 fun _ => .text 'x').map fun query =>
      (query.status, nameString query.memory)) = some (.success, some ['\\', 'a', '/', 'b']) ∧
    (lookupObjectName ((namedObject 2 ['a', '/', 'b']).namespaceAt 2) unparsed
      (pathRequest ['\\', 'a', '/', 'b'])).answer = (.objectNameNotFound, none) ∧
    ((obQueryNameString (namedObject 2 (List.replicate 0xFFFE 'a')) 2 1 1 0x20000 fun _ => .text 'x').map
      (·.status)) = some nameTooLong := by
  refine ⟨by decide +kernel, ?_, by decide +kernel, ?_, by decide +kernel, ?_, ?_⟩
  · rw [lookupObjectName, lookupLoop_next rfl, lookupLoop_next rfl, lookupLoop_done rfl]
    rfl
  · rw [lookupObjectName, lookupLoop_done rfl]
    rfl
  · rw [lookupObjectName, lookupLoop_done rfl]
    rfl
  · have full : FullName (namedObject 2 (replicate 0xFFFE 'a')) 2 1 1
        ('\\' :: ([] ++ replicate 0xFFFE 'a')) := @FullName.named _ _ _ (some 2) _ _ _ (by decide) rfl .root
    have long : 0xFFFE < ('\\' :: ([] ++ replicate 0xFFFE 'a')).length := by
      rw [length_cons, nil_append, length_replicate]
      decide
    rw [obQueryNameString_eq full, nameAnswer, if_pos long]
    rfl

end RoundTrip
end VeaOS.Ob

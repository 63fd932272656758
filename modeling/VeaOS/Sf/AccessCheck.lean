import Mathlib.Data.List.Basic

/-! The discretionary access check. The ACE loop folds a mask of rights still
to be granted over the list; its meaning is decided right by right, by the
first entry of the list that speaks about the right. -/
namespace VeaOS.Sf

structure VeaSid where
  revision : BitVec 8
  authority : BitVec 8
  flags : BitVec 16
  machineID : BitVec 32
  userID : BitVec 32
  deriving DecidableEq, Repr

/-- `ACE_TYPE` as it is read from memory: the two enumerators, and the values
the enumeration does not name. -/
inductive AceType where
  | deny
  | allow
  | other (value : BitVec 32)
  deriving DecidableEq, Repr

structure VeaAce where
  aceType : AceType
  aceFlags : BitVec 8
  aceSize : BitVec 16
  accessMask : BitVec 32
  targetSid : VeaSid
  deriving DecidableEq, Repr

/-- The entries follow the header in memory and each one says how far away the
next one is, so the memory is read by byte offset from the ACL. -/
structure VeaAcl where
  aceCount : BitVec 16
  entryAt : Nat → VeaAce

/-- `sizeof(VEA_ACL)`, the offset of the first entry. -/
def veaAclSize : Nat := 8

structure VeaSecurityDescriptor where
  dacl : Option VeaAcl

structure VeaToken where
  userSid : VeaSid
  groupCount : BitVec 32
  supplementaryGroups : Option (Nat → Option VeaSid)

structure GenericMapping where
  genericRead : BitVec 32
  genericWrite : BitVec 32
  genericExecute : BitVec 32
  genericAll : BitVec 32

def veaGenericRead : BitVec 32 := 0x80000000
def veaGenericWrite : BitVec 32 := 0x40000000
def veaGenericExecute : BitVec 32 := 0x20000000
def veaGenericAll : BitVec 32 := 0x10000000

def mapGenericRight (generic specific accessMask : BitVec 32) : BitVec 32 :=
  if accessMask &&& generic ≠ 0#32 then (accessMask &&& ~~~generic) ||| specific else accessMask

/-- The four rights are mapped one after the other on the same mask. -/
def sfMapGenericMask (accessMask : BitVec 32) : Option GenericMapping → BitVec 32
  | none => accessMask
  | some mapping =>
    let read := mapGenericRight veaGenericRead mapping.genericRead accessMask
    let write := mapGenericRight veaGenericWrite mapping.genericWrite read
    let execute := mapGenericRight veaGenericExecute mapping.genericExecute write
    mapGenericRight veaGenericAll mapping.genericAll execute

/-- `SfEqualSid` on two non-null pointers; the flags are not compared. -/
def sfEqualSid (target source : VeaSid) : Bool :=
  if target.revision ≠ source.revision then false
  else if target.authority ≠ source.authority then false
  else if target.machineID ≠ source.machineID ∨ source.userID ≠ target.userID then false
  else true

def sfpMatchSidWithToken (token : VeaToken) (target : VeaSid) : Bool :=
  sfEqualSid token.userSid target ||
    match token.supplementaryGroups with
    | none => false
    | some groups => (List.range token.groupCount.toNat).any fun i =>
      match groups i with
      | none => false
      | some group => sfEqualSid group target

/-- The `for` loop over the entries, with `left` of them still to be visited
and the current one at byte `offset`. -/
def aceLoop (token : VeaToken) (dacl : VeaAcl) : Nat → Nat → BitVec 32 → BitVec 32 → Bool × BitVec 32
  | 0, _, remaining, granted => if remaining = 0#32 then (true, granted) else (false, 0#32)
  | left + 1, offset, remaining, granted =>
    let ace := dacl.entryAt offset
    let next := offset + ace.aceSize.toNat
    if sfpMatchSidWithToken token ace.targetSid then
      match ace.aceType with
      | .deny =>
        if remaining &&& ace.accessMask ≠ 0#32 then (false, 0#32)
        else aceLoop token dacl left next remaining granted
      | .allow =>
        let matched := remaining &&& ace.accessMask
        if remaining &&& ~~~matched = 0#32 then (true, granted ||| matched)
        else aceLoop token dacl left next (remaining &&& ~~~matched) (granted ||| matched)
      | .other _ => aceLoop token dacl left next remaining granted
    else aceLoop token dacl left next remaining granted

/-- `SfAccessCheck`: the returned flag, and the cell that `GrantedAccess`
points to (`none` for a null pointer). -/
def sfAccessCheck (descriptor : Option VeaSecurityDescriptor) (clientToken : Option VeaToken)
    (desiredAccess : BitVec 32) (mapping : Option GenericMapping) (grantedAccess : Option (BitVec 32)) :
    Bool × Option (BitVec 32) :=
  match grantedAccess, clientToken with
  | none, _ => (false, none)
  | some _, none => (false, some 0#32)
  | some _, some token =>
    let request := sfMapGenericMask desiredAccess mapping
    if request = 0#32 then (true, some 0#32)
    else
      match descriptor.bind VeaSecurityDescriptor.dacl with
      | none => (true, some request)
      | some dacl =>
        if dacl.aceCount = 0#16 then (false, some 0#32)
        else
          let (allowed, granted) := aceLoop token dacl dacl.aceCount.toNat veaAclSize request 0#32
          (allowed, some granted)

/-- The entries in list order, each found at the size of the one before it. -/
def entriesFrom (dacl : VeaAcl) : Nat → Nat → List VeaAce
  | 0, _ => []
  | left + 1, offset =>
    let ace := dacl.entryAt offset
    ace :: entriesFrom dacl left (offset + ace.aceSize.toNat)

def VeaAcl.entries (dacl : VeaAcl) : List VeaAce :=
  entriesFrom dacl dacl.aceCount.toNat veaAclSize

/-- An entry speaks about a right when it allows or denies it to a SID of the token. -/
def VeaAce.speaks (token : VeaToken) (bit : Nat) (ace : VeaAce) : Bool :=
  sfpMatchSidWithToken token ace.targetSid && ace.accessMask.getLsbD bit &&
    (ace.aceType == .allow || ace.aceType == .deny)

def firstDecision (token : VeaToken) (entries : List VeaAce) (bit : Nat) : Option AceType :=
  (entries.find? (VeaAce.speaks token bit)).map VeaAce.aceType

/-- What the check is for: every requested right is first spoken about by an
entry that allows it. -/
def Granted (token : VeaToken) (entries : List VeaAce) (request : BitVec 32) : Prop :=
  ∀ bit, request.getLsbD bit = true → firstDecision token entries bit = some .allow

theorem granted_zero (token : VeaToken) (entries : List VeaAce) : Granted token entries 0#32 := by
  intro bit requested
  simp at requested

theorem firstDecision_silent (silent : ace.speaks token bit = false) :
    firstDecision token (ace :: rest) bit = firstDecision token rest bit := by
  simp only [firstDecision, List.find?_cons, silent]

theorem firstDecision_speaks (speaks : VeaAce.speaks token bit ace = true) :
    firstDecision token (ace :: rest) bit = some ace.aceType := by
  simp only [firstDecision, List.find?_cons, speaks, Option.map_some]

theorem granted_skip (silent : ∀ bit, request.getLsbD bit = true → ace.speaks token bit = false) :
    Granted token (ace :: rest) request ↔ Granted token rest request := by
  constructor
  · intro granted bit requested
    rw [← firstDecision_silent (silent bit requested)]
    exact granted bit requested
  · intro granted bit requested
    rw [firstDecision_silent (silent bit requested)]
    exact granted bit requested

theorem granted_deny (matched : sfpMatchSidWithToken token ace.targetSid = true)
    (denies : ace.aceType = .deny) (overlap : request &&& ace.accessMask ≠ 0#32) :
    ¬ Granted token (ace :: rest) request := by
  intro granted
  apply overlap
  apply BitVec.eq_of_getLsbD_eq
  intro bit _
  by_cases both : request.getLsbD bit = true ∧ ace.accessMask.getLsbD bit = true
  · have speaks : ace.speaks token bit = true := by simp [VeaAce.speaks, matched, both.2, denies]
    have decision := granted bit both.1
    rw [firstDecision_speaks speaks, denies] at decision
    contradiction
  · simpa using both

theorem granted_allow (matched : sfpMatchSidWithToken token ace.targetSid = true)
    (allows : ace.aceType = .allow) :
    Granted token (ace :: rest) request ↔
      Granted token rest (request &&& ~~~(request &&& ace.accessMask)) := by
  have speaks : ∀ bit, ace.speaks token bit = ace.accessMask.getLsbD bit := by
    intro bit
    simp [VeaAce.speaks, matched, allows]
  constructor
  · intro granted bit requested
    simp only [BitVec.getLsbD_and, BitVec.getLsbD_not, Bool.and_eq_true] at requested
    have silent : ace.speaks token bit = false := by
      rw [speaks]
      simpa [requested.1] using requested.2.2
    rw [← firstDecision_silent silent]
    exact granted bit requested.1
  · intro granted bit requested
    by_cases contained : ace.accessMask.getLsbD bit = true
    · rw [firstDecision_speaks (by rw [speaks, contained]), allows]
    · have silent : ace.speaks token bit = false := by rw [speaks]; simpa using contained
      rw [firstDecision_silent silent]
      have bound := BitVec.lt_of_getLsbD requested
      apply granted bit
      simp only [BitVec.getLsbD_and, BitVec.getLsbD_not, requested, contained, bound]
      simp

/-- The mask of rights still to be granted is the invariant of the loop: the
rights already granted do not matter to the rest of the list. -/
theorem aceLoop_spec (token : VeaToken) (dacl : VeaAcl) (left offset : Nat)
    (remaining granted : BitVec 32) :
    ((aceLoop token dacl left offset remaining granted).1 = true ↔
        Granted token (entriesFrom dacl left offset) remaining) ∧
      (aceLoop token dacl left offset remaining granted).2 =
        if (aceLoop token dacl left offset remaining granted).1 then granted ||| remaining else 0#32 := by
  induction left generalizing offset remaining granted with
  | zero =>
    by_cases done : remaining = 0#32
    · subst done
      simp [aceLoop, granted_zero]
    · simp only [aceLoop, entriesFrom, done, if_false, Bool.false_eq_true, false_iff, and_true]
      intro all
      apply done
      apply BitVec.eq_of_getLsbD_eq
      intro bit _
      by_cases requested : remaining.getLsbD bit = true
      · have := all bit requested
        simp [firstDecision] at this
      · simpa using requested
  | succ left ih =>
    simp only [aceLoop, entriesFrom]
    by_cases matched : sfpMatchSidWithToken token (dacl.entryAt offset).targetSid = true
    · simp only [matched, if_true]
      cases kind : (dacl.entryAt offset).aceType with
      | deny =>
        by_cases overlap : remaining &&& (dacl.entryAt offset).accessMask = 0#32
        · have silent : ∀ bit, remaining.getLsbD bit = true →
              (dacl.entryAt offset).speaks token bit = false := by
            intro bit requested
            have clear := congrArg (·.getLsbD bit) overlap
            simp only [BitVec.getLsbD_and, requested, Bool.true_and] at clear
            simpa [VeaAce.speaks] using fun _ set => by simp [clear] at set
          simpa only [overlap, ne_eq, not_true_eq_false, if_false, granted_skip silent] using
            ih _ remaining granted
        · simp only [ne_eq, overlap, not_false_eq_true, if_true, granted_deny matched kind overlap]
          simp
      | allow =>
        have rights : granted ||| remaining =
            granted ||| remaining &&& (dacl.entryAt offset).accessMask |||
              remaining &&& ~~~(remaining &&& (dacl.entryAt offset).accessMask) := by
          apply BitVec.eq_of_getLsbD_eq
          intro bit bound
          simp only [BitVec.getLsbD_or, BitVec.getLsbD_and, BitVec.getLsbD_not, bound,
            decide_true, Bool.true_and]
          cases granted.getLsbD bit <;> cases remaining.getLsbD bit <;> simp
        rw [granted_allow matched kind]
        by_cases done : remaining &&& ~~~(remaining &&& (dacl.entryAt offset).accessMask) = 0#32
        · simp only [done, if_true, granted_zero, true_and]
          rw [rights, done, BitVec.or_zero]
        · simp only [done, if_false]
          rw [rights]
          exact ih _ _ _
      | other value =>
        have silent : ∀ bit, remaining.getLsbD bit = true →
            (dacl.entryAt offset).speaks token bit = false := by
          intro bit _
          simp [VeaAce.speaks, kind]
        simpa only [granted_skip silent] using ih _ remaining granted
    · have silent : ∀ bit, remaining.getLsbD bit = true →
          (dacl.entryAt offset).speaks token bit = false := by
        intro bit _
        simp [VeaAce.speaks, matched]
      simpa only [matched, if_false, Bool.false_eq_true, granted_skip silent] using
        ih _ remaining granted

/-- The check grants a request exactly when the first entry about each of its
rights allows it, and reports all of the request or nothing. -/
theorem access_check_first_match (dacl : VeaAcl) (token : VeaToken)
    (desiredAccess : BitVec 32) (mapping : Option GenericMapping) (before : BitVec 32) :
    let result := sfAccessCheck (some ⟨some dacl⟩) (some token)
      desiredAccess mapping (some before)
    let request := sfMapGenericMask desiredAccess mapping
    (result.1 = true ↔ Granted token dacl.entries request) ∧
      (result.1 = true → result.2 = some request) ∧ (result.1 = false → result.2 = some 0#32) := by
  intro result request
  by_cases nothing : request = 0#32
  · have value : result = (true, some 0#32) := by
      simp only [result, sfAccessCheck]
      exact if_pos nothing
    simp only [value, nothing]
    simp [granted_zero token dacl.entries]
  · have value : result = ((aceLoop token dacl dacl.aceCount.toNat veaAclSize request 0#32).1,
        some (aceLoop token dacl dacl.aceCount.toNat veaAclSize request 0#32).2) := by
      simp only [result, sfAccessCheck, Option.bind_some]
      rw [if_neg nothing]
      by_cases empty : dacl.aceCount = 0#16
      · -- the early exit on an empty list is what the loop does there too
        simp only [empty, if_true, BitVec.toNat_ofNat, Nat.zero_mod, aceLoop, nothing, if_false]
      · rw [if_neg empty]
    obtain ⟨decides, reports⟩ := aceLoop_spec token dacl dacl.aceCount.toNat veaAclSize request 0#32
    simp only [value]
    refine ⟨decides, ?_, ?_⟩
    · intro allowed
      rw [reports, allowed, if_pos rfl, BitVec.zero_or]
    · intro denied
      rw [reports, denied, if_neg Bool.false_ne_true]

theorem granted_or : Granted token entries (a ||| b) ↔ Granted token entries a ∧ Granted token entries b := by
  simp only [Granted, BitVec.getLsbD_or, Bool.or_eq_true, or_imp, forall_and]

theorem mapGenericRight_or (generic specific a b : BitVec 32) : mapGenericRight generic specific (a ||| b) =
    mapGenericRight generic specific a ||| mapGenericRight generic specific b := by
  have parts (mask : BitVec 32) : (a ||| b) &&& mask = a &&& mask ||| b &&& mask := by
    ext bit
    simp [Bool.and_or_distrib_right]
  have keeps {x : BitVec 32} (clear : x &&& generic = 0#32) : x &&& ~~~generic = x := by
    ext bit bound
    have absent := congrArg (·[bit]) clear
    simpa using absent
  rw [mapGenericRight, mapGenericRight, mapGenericRight, parts, parts]
  by_cases inA : a &&& generic = 0#32 <;> by_cases inB : b &&& generic = 0#32
  · simp [inA, inB]
  · simp [inA, inB, keeps, BitVec.or_assoc]
  · simp [inA, inB, keeps]
    ac_rfl
  · simp only [inA, inB, ne_eq, BitVec.or_eq_zero_iff, and_self, not_false_eq_true, if_true]
    ext bit
    simp only [BitVec.getElem_or]
    grind

/-- Rights are decided one by one: a request is granted exactly when each part of it is, for
every descriptor, token and mapping. -/
theorem access_rights_apart (descriptor : Option VeaSecurityDescriptor) (token : Option VeaToken)
    (mapping : Option GenericMapping) (before : Option (BitVec 32)) (a b : BitVec 32) :
    (sfAccessCheck descriptor token (a ||| b) mapping before).1 = true ↔
      (sfAccessCheck descriptor token a mapping before).1 = true ∧
        (sfAccessCheck descriptor token b mapping before).1 = true := by
  obtain _ | before := before
  · simp [sfAccessCheck]
  obtain _ | token := token
  · simp [sfAccessCheck]
  have decided (request : BitVec 32) : (sfAccessCheck descriptor (some token) request mapping (some before)).1 = true ↔
      ∀ dacl, descriptor.bind VeaSecurityDescriptor.dacl = some dacl →
        Granted token dacl.entries (sfMapGenericMask request mapping) := by
    rw [sfAccessCheck]
    by_cases nothing : sfMapGenericMask request mapping = 0#32
    · simp [nothing, granted_zero]
    cases descriptor.bind VeaSecurityDescriptor.dacl with
    | none => simp [nothing]
    | some dacl =>
      have decides := (aceLoop_spec token dacl dacl.aceCount.toNat veaAclSize (sfMapGenericMask request mapping) 0#32).1
      rw [← VeaAcl.entries] at decides
      simp only [nothing, if_false, Option.some.injEq, forall_eq', ← decides]
      split
      next empty => simp [empty, aceLoop, nothing]
      next => rfl
  have parts : sfMapGenericMask (a ||| b) mapping = sfMapGenericMask a mapping ||| sfMapGenericMask b mapping := by
    cases mapping with
    | none => rfl
    | some mapping => simp only [sfMapGenericMask, mapGenericRight_or]
  simp only [decided, parts, granted_or, imp_and, forall_and]

end VeaOS.Sf

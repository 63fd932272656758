import Mathlib.Logic.Relation
import VeaOS.Foundation.Runs

/-! Stacks of attached objects. An object is attached to the top of the stack
that its target is in at that moment, and holds a reference on it until it is
detached. -/
namespace VeaOS.Ob
open Transition

structure AttachHeader (Object : Type) where
  allowAttachByDefault : Bool
  upperAttachedObject : Option Object
  lowerAttachedObject : Option Object
  stackDepth : BitVec 8
  referenceCount : Nat

abbrev AttachState (Object : Type) := Object → AttachHeader Object

section Model
variable {Object : Type} [DecidableEq Object]

namespace AttachState
variable (σ : AttachState Object) (o : Object)

def setUpper (upper : Option Object) : AttachState Object :=
  Function.update σ o { σ o with upperAttachedObject := upper }

def setLower (lower : Option Object) : AttachState Object :=
  Function.update σ o { σ o with lowerAttachedObject := lower }

def setDepth (depth : BitVec 8) : AttachState Object :=
  Function.update σ o { σ o with stackDepth := depth }

def reference : AttachState Object :=
  Function.update σ o { σ o with referenceCount := (σ o).referenceCount + 1 }

def dereference : AttachState Object :=
  Function.update σ o { σ o with referenceCount := (σ o).referenceCount - 1 }

/-- The way up from an object to the top of its stack. -/
def currentTop : Nat → Object → Option Object
  | 0, _ => none
  | fuel + 1, o =>
    match (σ o).upperAttachedObject with
    | some upper => currentTop fuel upper
    | none => some o

end AttachState

/-- The state afterwards and the object that was attached to; nothing where the
way up does not end. -/
def obioAttachObject (fuel : Nat) (σ : AttachState Object) (sourceObject targetObject : Option Object) :
    Option (AttachState Object × Option Object) :=
  match sourceObject, targetObject with
  | some source, some target =>
    if source = target then
      some (σ, none)
    else if !(σ source).allowAttachByDefault || !(σ target).allowAttachByDefault then
      some (σ, none)
    else if (σ source).lowerAttachedObject.isSome then
      some (σ, none)
    else
      (σ.currentTop fuel target).map fun top =>
        let σ := σ.setLower source (some top)
        let σ := σ.setUpper top (some source)
        let σ := σ.setDepth source ((σ top).stackDepth + 1)
        (σ.reference top, some top)
  | _, _ => some (σ, none)

/-- Nothing where the system stops because of an object that is still attached above. -/
def obioDetachObject (σ : AttachState Object) : Option Object → Option (AttachState Object)
  | none => some σ
  | some o =>
    if (σ o).upperAttachedObject.isSome then
      none
    else
      match (σ o).lowerAttachedObject with
      | some lower =>
        let σ := σ.setUpper lower none
        let σ := σ.setLower o none
        let σ := σ.setDepth o 1
        some (σ.dereference lower)
      | none => some (σ.setDepth o 1)

inductive AttachAction (Object : Type) where
  | attach (source target : Option Object)
  | detach (object : Option Object)

def attachStep (fuel : Nat) (σ : AttachState Object) : AttachAction Object → Option (AttachState Object)
  | .attach source target => (obioAttachObject fuel σ source target).map Prod.fst
  | .detach object => obioDetachObject σ object

end Model

section Specification
variable {Object : Type} (σ : AttachState Object)

def UpperLink (a b : Object) : Prop := (σ a).upperAttachedObject = some b

/-- Objects that are not attached, with the references that are held on them. -/
structure Standalone (held : Object → Nat) : Prop where
  unattached : ∀ o, (σ o).upperAttachedObject = none ∧ (σ o).lowerAttachedObject = none
  depth : ∀ o, (σ o).stackDepth = 1
  references : ∀ o, (σ o).referenceCount = held o
  alive : ∀ o, 0 < held o

structure AttachSound (held : Object → Nat) : Prop where
  inverse : ∀ a b, (σ a).upperAttachedObject = some b ↔ (σ b).lowerAttachedObject = some a
  acyclic : ∀ o, ¬ Relation.TransGen (UpperLink σ) o o
  terminates : ∀ o, ∃ fuel top, σ.currentTop fuel o = some top
  depth : ∀ a b, (σ b).lowerAttachedObject = some a → (σ b).stackDepth.toNat = (σ a).stackDepth.toNat + 1
  references : ∀ o, (σ o).referenceCount = held o + if (σ o).upperAttachedObject.isSome then 1 else 0
  alive : ∀ o, 0 < (σ o).referenceCount

def Attaches (source target : Object) : Prop :=
  source ≠ target ∧ (σ source).allowAttachByDefault ∧ (σ target).allowAttachByDefault ∧
    (σ source).lowerAttachedObject = none

/-- What is attached has nothing above it, and does not come too high. -/
def AttachesFresh [DecidableEq Object] (fuel : Nat) (σ : AttachState Object) : AttachAction Object → Prop
  | .attach (some source) (some target) => Attaches σ source target →
      (σ source).upperAttachedObject = none ∧
        ∀ top, σ.currentTop fuel target = some top → (σ top).stackDepth ≠ 255
  | _ => True

end Specification

section Way
variable {Object : Type} {σ : AttachState Object}

theorem currentTop_end (found : σ.currentTop fuel o = some top) :
    (σ top).upperAttachedObject = none ∧ (top = o ∨ (σ top).lowerAttachedObject.isSome ∨
      ∃ a, (σ a).upperAttachedObject = some top) := by
  induction fuel generalizing o with
  | zero => cases found
  | succ fuel ih =>
    rw [AttachState.currentTop] at found
    cases above : (σ o).upperAttachedObject with
    | none =>
      rw [above] at found
      cases found
      exact ⟨above, .inl rfl⟩
    | some upper =>
      rw [above] at found
      obtain ⟨ends, here | attached⟩ := ih found
      · subst here
        exact ⟨ends, .inr (.inr ⟨o, above⟩)⟩
      · exact ⟨ends, .inr attached⟩

theorem currentTop_ends
    (deeper : ∀ a b, (σ a).upperAttachedObject = some b →
      (σ b).stackDepth.toNat = (σ a).stackDepth.toNat + 1) (enough : 256 ≤ fuel + (σ o).stackDepth.toNat) :
    ∃ top, σ.currentTop fuel o = some top := by
  induction fuel generalizing o with
  | zero =>
    have below := (σ o).stackDepth.isLt
    omega
  | succ fuel ih =>
    cases above : (σ o).upperAttachedObject with
    | none => exact ⟨o, by rw [AttachState.currentTop, above]⟩
    | some upper =>
      have depth := deeper o upper above
      obtain ⟨top, found⟩ := ih (o := upper) (by omega)
      exact ⟨top, by rw [AttachState.currentTop, above]; exact found⟩

theorem currentTop_loops (there : UpperLink σ a b) (back : UpperLink σ b a) (fuel : Nat) :
    σ.currentTop fuel a = none ∧ σ.currentTop fuel b = none := by
  induction fuel with
  | zero => exact ⟨rfl, rfl⟩
  | succ fuel ih =>
    rw [AttachState.currentTop, AttachState.currentTop, show (σ a).upperAttachedObject = some b from there,
      show (σ b).upperAttachedObject = some a from back]
    exact ih.symm

theorem depth_lt_of_upper
    (deeper : ∀ a b, (σ a).upperAttachedObject = some b →
      (σ b).stackDepth.toNat = (σ a).stackDepth.toNat + 1)
    (way : Relation.TransGen (UpperLink σ) a b) : (σ a).stackDepth.toNat < (σ b).stackDepth.toNat := by
  induction way with
  | single link | tail _ link ih =>
    have depth := deeper _ _ link
    omega

end Way

section Linked
variable {Object : Type} {σ : AttachState Object} {held : Object → Nat}

/-- What the links, the depths and the counts of sound stacks are. -/
structure AttachLinked (σ : AttachState Object) (held : Object → Nat) : Prop where
  inverse : ∀ a b, (σ a).upperAttachedObject = some b ↔ (σ b).lowerAttachedObject = some a
  depth : ∀ a b, (σ b).lowerAttachedObject = some a → (σ b).stackDepth.toNat = (σ a).stackDepth.toNat + 1
  bottom : ∀ o, (σ o).lowerAttachedObject = none → (σ o).stackDepth = 1
  references : ∀ o, (σ o).referenceCount = held o + if (σ o).upperAttachedObject.isSome then 1 else 0
  alive : ∀ o, 0 < held o

namespace AttachLinked

theorem deeper (linked : AttachLinked σ held) (a b : Object) (above : (σ a).upperAttachedObject = some b) :
    (σ b).stackDepth.toNat = (σ a).stackDepth.toNat + 1 :=
  linked.depth a b ((linked.inverse a b).mp above)

theorem positive (linked : AttachLinked σ held) (o : Object) : 0 < (σ o).stackDepth.toNat := by
  cases below : (σ o).lowerAttachedObject with
  | none =>
    rw [linked.bottom o below]
    decide
  | some lower =>
    have depth := linked.depth lower o below
    omega

theorem sound (linked : AttachLinked σ held) : AttachSound σ held where
  inverse := linked.inverse
  acyclic o cycle := Nat.lt_irrefl _ (depth_lt_of_upper linked.deeper cycle)
  terminates o := by
    have ends : ∃ top, σ.currentTop 256 o = some top := currentTop_ends linked.deeper (by omega)
    exact ⟨256, ends⟩
  depth := linked.depth
  references := linked.references
  alive o := by
    rw [linked.references]
    exact Nat.add_pos_left (linked.alive o) _

theorem of_standalone (standalone : Standalone σ held) : AttachLinked σ held where
  inverse a b := by simp [(standalone.unattached a).1, (standalone.unattached b).2]
  depth a b below := by
    rw [(standalone.unattached b).2] at below
    cases below
  bottom o _ := standalone.depth o
  references o := by
    rw [standalone.references, (standalone.unattached o).1]
    rfl
  alive := standalone.alive

end AttachLinked
end Linked

section Steps
variable {Object : Type} [DecidableEq Object] {σ t : AttachState Object} {held : Object → Nat}
  {source target top o : Object}

/-- What an attachment writes, each field of each object. -/
structure AttachWrites (σ : AttachState Object) (source top : Object) (t : AttachState Object) : Prop where
  upper : ∀ o, (t o).upperAttachedObject = if o = top then some source else (σ o).upperAttachedObject
  lower : ∀ o, (t o).lowerAttachedObject = if o = source then some top else (σ o).lowerAttachedObject
  depth : ∀ o, (t o).stackDepth = if o = source then (σ top).stackDepth + 1 else (σ o).stackDepth
  references : ∀ o, (t o).referenceCount = (σ o).referenceCount + if o = top then 1 else 0

theorem attach_writes (other : top ≠ source) :
    AttachWrites σ source top
      ((((σ.setLower source (some top)).setUpper top (some source)).setDepth source
        ((((σ.setLower source (some top)).setUpper top (some source)) top).stackDepth + 1)).reference top) := by
  constructor
  all_goals
    intro o
    by_cases isTop : o = top
    · subst isTop
      simp [AttachState.setLower, AttachState.setUpper, AttachState.setDepth, AttachState.reference, other]
    · by_cases isSource : o = source
      · subst isSource
        simp [AttachState.setLower, AttachState.setUpper, AttachState.setDepth, AttachState.reference,
          isTop, other]
      · simp [AttachState.setLower, AttachState.setUpper, AttachState.setDepth, AttachState.reference,
          Function.update_apply, isTop, isSource]

theorem attachStep_attach (stepped : attachStep fuel σ (.attach source? target?) = some t) :
    t = σ ∧ (∀ source ∈ source?, ∀ target ∈ target?, ¬ Attaches σ source target) ∨
      ∃ source target top, source? = some source ∧ target? = some target ∧ Attaches σ source target ∧
        σ.currentTop fuel target = some top ∧
        t = (((σ.setLower source (some top)).setUpper top (some source)).setDepth source
          ((((σ.setLower source (some top)).setUpper top (some source)) top).stackDepth + 1)).reference top := by
  rw [attachStep] at stepped
  cases source? with
  | none =>
    cases stepped
    exact .inl ⟨rfl, fun _ absent => by cases absent⟩
  | some source =>
    cases target? with
    | none =>
      cases stepped
      exact .inl ⟨rfl, fun _ _ _ absent => by cases absent⟩
    | some target =>
      dsimp only [obioAttachObject] at stepped
      by_cases same : source = target
      · rw [if_pos same] at stepped
        cases stepped
        refine .inl ⟨rfl, ?_⟩
        rintro _ ⟨⟩ _ ⟨⟩ attaches
        exact attaches.1 same
      · rw [if_neg same] at stepped
        by_cases barred : (!(σ source).allowAttachByDefault || !(σ target).allowAttachByDefault) = true
        · rw [if_pos barred] at stepped
          cases stepped
          refine .inl ⟨rfl, ?_⟩
          rintro _ ⟨⟩ _ ⟨⟩ attaches
          rw [attaches.2.1, attaches.2.2.1] at barred
          cases barred
        · rw [if_neg barred] at stepped
          by_cases attached : (σ source).lowerAttachedObject.isSome = true
          · rw [if_pos attached] at stepped
            cases stepped
            refine .inl ⟨rfl, ?_⟩
            rintro _ ⟨⟩ _ ⟨⟩ attaches
            rw [attaches.2.2.2] at attached
            cases attached
          · rw [if_neg attached] at stepped
            simp only [Bool.or_eq_true, Bool.not_eq_true', not_or, Bool.not_eq_false] at barred
            cases found : σ.currentTop fuel target with
            | none =>
              rw [found] at stepped
              cases stepped
            | some top =>
              rw [found] at stepped
              cases stepped
              exact .inr ⟨source, target, top, rfl, rfl,
                ⟨same, barred.1, barred.2, by simpa using attached⟩, found, rfl⟩

omit [DecidableEq Object] in
theorem AttachLinked.top_ne (linked : AttachLinked σ held) (attaches : Attaches σ source target)
    (found : σ.currentTop fuel target = some top) : top ≠ source := by
  rintro rfl
  obtain ⟨_, isTarget | below | ⟨a, above⟩⟩ := currentTop_end found
  · exact attaches.1 isTarget
  · rw [attaches.2.2.2] at below
    cases below
  · have below := (linked.inverse a top).mp above
    rw [attaches.2.2.2] at below
    cases below

theorem AttachLinked.attach (linked : AttachLinked σ held) (writes : AttachWrites σ source top t)
    (other : top ≠ source) (free : (σ source).lowerAttachedObject = none)
    (ends : (σ top).upperAttachedObject = none) (bare : (σ source).upperAttachedObject = none)
    (shallow : (σ top).stackDepth ≠ 255) : AttachLinked t held := by
  have deeper : ((σ top).stackDepth + 1).toNat = (σ top).stackDepth.toNat + 1 := by bv_omega
  refine ⟨fun a b => ?_, fun a b below => ?_, fun o below => ?_, fun o => ?_, linked.alive⟩
  · rw [writes.upper, writes.lower]
    by_cases isTop : a = top
    · by_cases isSource : b = source
      · simp [isTop, isSource]
      · rw [if_pos isTop, if_neg isSource, isTop]
        refine iff_of_false (fun same => isSource (Option.some.inj same).symm) fun below => ?_
        rw [(linked.inverse top b).mpr below] at ends
        cases ends
    · by_cases isSource : b = source
      · rw [if_neg isTop, if_pos isSource, isSource]
        refine iff_of_false (fun above => ?_) fun same => isTop (Option.some.inj same).symm
        rw [(linked.inverse a source).mp above] at free
        cases free
      · rw [if_neg isTop, if_neg isSource]
        exact linked.inverse a b
  · rw [writes.lower] at below
    rw [writes.depth, writes.depth]
    by_cases isSource : b = source
    · rw [if_pos isSource] at below
      cases below
      rw [if_pos isSource, if_neg other, deeper]
    · rw [if_neg isSource] at below
      have notSource : a ≠ source := by
        rintro rfl
        rw [(linked.inverse a b).mpr below] at bare
        cases bare
      rw [if_neg isSource, if_neg notSource]
      exact linked.depth a b below
  · rw [writes.lower] at below
    by_cases isSource : o = source
    · rw [if_pos isSource] at below
      cases below
    · rw [if_neg isSource] at below
      rw [writes.depth, if_neg isSource]
      exact linked.bottom o below
  · rw [writes.references, writes.upper, linked.references]
    by_cases isTop : o = top
    · simp [isTop, ends]
    · simp [isTop]

theorem AttachLinked.attach_unsound (linked : AttachLinked σ held) (writes : AttachWrites σ source top t)
    (other : top ≠ source) (free : (σ source).lowerAttachedObject = none) (sound : AttachSound t held) :
    (σ source).upperAttachedObject = none ∧ (σ top).stackDepth ≠ 255 := by
  have attached : (t source).lowerAttachedObject = some top := by rw [writes.lower, if_pos rfl]
  have depth := sound.depth top source attached
  rw [writes.depth, if_pos rfl, writes.depth, if_neg other] at depth
  have shallow : (σ top).stackDepth ≠ 255 := by bv_omega
  refine ⟨?_, shallow⟩
  cases above : (σ source).upperAttachedObject with
  | none => rfl
  | some upper =>
    have below := (linked.inverse source upper).mp above
    have notSource : upper ≠ source := by
      rintro rfl
      rw [below] at free
      cases free
    have still : (t upper).lowerAttachedObject = some source := by
      rw [writes.lower, if_neg notSource, below]
    have lifted := sound.depth source upper still
    rw [writes.depth, if_neg notSource, writes.depth, if_pos rfl, depth,
      linked.depth source upper below, linked.bottom source free] at lifted
    have positive := linked.positive top
    have one : (1 : BitVec 8).toNat = 1 := rfl
    omega

/-- What a detachment writes, each field of each object. -/
structure DetachWrites (σ : AttachState Object) (o below : Object) (t : AttachState Object) : Prop where
  upper : ∀ a, (t a).upperAttachedObject = if a = below then none else (σ a).upperAttachedObject
  lower : ∀ a, (t a).lowerAttachedObject = if a = o then none else (σ a).lowerAttachedObject
  depth : ∀ a, (t a).stackDepth = if a = o then 1 else (σ a).stackDepth
  references : ∀ a, (t a).referenceCount = (σ a).referenceCount - if a = below then 1 else 0

theorem detach_writes (other : lower ≠ o) :
    DetachWrites σ o lower ((((σ.setUpper lower none).setLower o none).setDepth o 1).dereference lower) := by
  constructor
  all_goals
    intro a
    by_cases isLower : a = lower
    · subst isLower
      simp [AttachState.setLower, AttachState.setUpper, AttachState.setDepth, AttachState.dereference,
        Function.update_apply, other]
    · by_cases isObject : a = o
      · subst isObject
        simp [AttachState.setLower, AttachState.setUpper, AttachState.setDepth, AttachState.dereference,
          Function.update_apply, isLower]
      · simp [AttachState.setLower, AttachState.setUpper, AttachState.setDepth, AttachState.dereference,
          Function.update_apply, isLower, isObject]

variable (linked : AttachLinked σ held)
include linked

theorem AttachLinked.detached (writes : DetachWrites σ o lower t)
    (bare : (σ o).upperAttachedObject = none) (below : (σ o).lowerAttachedObject = some lower) :
    AttachLinked t held := by
  have above := (linked.inverse lower o).mpr below
  refine ⟨fun a b => ?_, fun a b under => ?_, fun a under => ?_, fun a => ?_, linked.alive⟩
  · rw [writes.upper, writes.lower]
    by_cases isLower : a = lower
    · rw [if_pos isLower, isLower]
      by_cases isObject : b = o
      · simp [isObject]
      · rw [if_neg isObject]
        refine iff_of_false (fun same => by cases same) fun under => isObject ?_
        rw [(linked.inverse lower b).mpr under] at above
        exact Option.some.inj above
    · rw [if_neg isLower]
      by_cases isObject : b = o
      · rw [if_pos isObject, isObject]
        refine iff_of_false (fun above => isLower ?_) fun same => by cases same
        rw [(linked.inverse a o).mp above] at below
        exact Option.some.inj below
      · rw [if_neg isObject]
        exact linked.inverse a b
  · rw [writes.lower] at under
    by_cases isObject : b = o
    · rw [if_pos isObject] at under
      cases under
    · rw [if_neg isObject] at under
      have notObject : a ≠ o := by
        rintro rfl
        rw [(linked.inverse a b).mpr under] at bare
        cases bare
      rw [writes.depth, writes.depth, if_neg isObject, if_neg notObject]
      exact linked.depth a b under
  · rw [writes.lower] at under
    rw [writes.depth]
    by_cases isObject : a = o
    · rw [if_pos isObject]
    · rw [if_neg isObject] at under ⊢
      exact linked.bottom a under
  · rw [writes.references, writes.upper, linked.references]
    by_cases isLower : a = lower
    · simp [isLower, above]
    · simp [isLower]

theorem AttachLinked.detach (stepped : obioDetachObject σ (some o) = some t) : AttachLinked t held := by
  rw [obioDetachObject] at stepped
  by_cases above : (σ o).upperAttachedObject.isSome = true
  · rw [if_pos above] at stepped
    cases stepped
  · rw [if_neg above] at stepped
    have bare : (σ o).upperAttachedObject = none := by simpa using above
    cases below : (σ o).lowerAttachedObject with
    | none =>
      rw [below] at stepped
      cases stepped
      have same : σ.setDepth o 1 = σ := by
        rw [AttachState.setDepth, ← linked.bottom o below]
        exact Function.update_eq_self o σ
      rwa [same]
    | some lower =>
      rw [below] at stepped
      cases stepped
      have other : lower ≠ o := by
        rintro rfl
        rw [(linked.inverse lower lower).mpr below] at bare
        cases bare
      exact linked.detached (detach_writes other) bare below

theorem AttachLinked.step (fresh : AttachesFresh fuel σ action)
    (stepped : attachStep fuel σ action = some t) : AttachLinked t held := by
  cases action with
  | attach source? target? =>
    obtain ⟨rfl, _⟩ | ⟨source, target, top, rfl, rfl, attaches, found, rfl⟩ := attachStep_attach stepped
    · exact linked
    · have other := linked.top_ne attaches found
      obtain ⟨bare, shallow⟩ := fresh attaches
      exact linked.attach (attach_writes other) other attaches.2.2.2 (currentTop_end found).1 bare
        (shallow top found)
  | detach object =>
    cases object with
    | none =>
      cases stepped
      exact linked
    | some o => exact linked.detach stepped

theorem AttachLinked.sound_iff (stepped : attachStep fuel σ action = some t) :
    AttachSound t held ↔ AttachesFresh fuel σ action := by
  refine ⟨fun sound => ?_, fun fresh => (linked.step fresh stepped).sound⟩
  cases action with
  | detach object => trivial
  | attach source? target? =>
    obtain ⟨rfl, refused⟩ | ⟨source, target, top, rfl, rfl, attaches, found, rfl⟩ := attachStep_attach stepped
    · cases source? with
      | none => trivial
      | some source =>
        cases target? with
        | none => trivial
        | some target => exact fun attaches => absurd attaches (refused source rfl target rfl)
    · intro _
      have other := linked.top_ne attaches found
      obtain ⟨bare, shallow⟩ := linked.attach_unsound (attach_writes other) other attaches.2.2.2 sound
      refine ⟨bare, fun top' found' => ?_⟩
      rw [found] at found'
      cases found'
      exact shallow

theorem AttachLinked.attach_returns (enough : 256 ≤ fuel) (source target : Option Object) :
    (attachStep fuel σ (.attach source target)).isSome := by
  cases source with
  | none => rfl
  | some source =>
    cases target with
    | none => rfl
    | some target =>
      rw [attachStep, obioAttachObject]
      obtain ⟨top, found⟩ : ∃ top, σ.currentTop fuel target = some top :=
        currentTop_ends linked.deeper (by omega)
      rw [found]
      split_ifs <;> rfl

end Steps

/-- From objects that are not attached, every step leaves sound stacks exactly
if what is attached has nothing above it and comes no higher than 255; and
every attachment to such stacks returns. -/
theorem attachment_runs {Object : Type} [DecidableEq Object] {s : AttachState Object} {held : Object → Nat}
    {actions : List (AttachAction Object)} (standalone : Standalone s held) (enough : 256 ≤ fuel) :
    (Along (fun σ action => ∀ t, attachStep fuel σ action = some t → AttachSound t held) (attachStep fuel) s actions ↔
      Along (AttachesFresh fuel) (attachStep fuel) s actions) ∧
    ∀ t, Along (AttachesFresh fuel) (attachStep fuel) s actions → exec (attachStep fuel) s actions = some t →
      AttachSound t held ∧ ∀ source target, (attachStep fuel t (.attach source target)).isSome := by
  have start := AttachLinked.of_standalone standalone
  refine ⟨@along_good_iff _ _ _ _ _ _ (fun σ => AttachLinked σ held) (fun _ _ t => AttachSound t held)
    (fun linked stepped => linked.sound_iff stepped) (fun {σ action} linked stuck => ?_)
    (fun linked fresh stepped => linked.step fresh stepped) start, fun t fresh run => ?_⟩
  · cases action with
    | attach source target =>
      have returns := linked.attach_returns enough source target
      rw [stuck] at returns
      cases returns
    | detach object => trivial
  · have linked := exec_preserves (P := fun σ => AttachLinked σ held)
      (fun linked fresh stepped => linked.step fresh stepped) start fresh run
    exact ⟨linked.sound, linked.attach_returns enough⟩

def standaloneObjects : AttachState Nat := fun _ => ⟨true, none, none, 1, 1⟩

theorem standaloneObjects_standalone : Standalone standaloneObjects fun _ => 1 :=
  ⟨fun _ => ⟨rfl, rfl⟩, fun _ => rfl, fun _ => rfl, fun _ => Nat.one_pos⟩

theorem attachment_runs_sample :
    ∃ t, exec (attachStep 256) standaloneObjects
      [.attach (some 1) (some 0), .attach (some 2) (some 0), .detach (some 2)] = some t ∧
      AttachSound t fun _ => 1 := by
  have run : exec (attachStep 256) standaloneObjects
      [.attach (some 1) (some 0), .attach (some 2) (some 0), .detach (some 2)] = some _ := rfl
  refine ⟨_, run, ((attachment_runs standaloneObjects_standalone (Nat.le_refl 256)).2 _ ?_ run).1⟩
  refine ⟨fun _ => ⟨rfl, fun top found => ?_⟩, ?_⟩
  · cases found
    decide
  · rintro _ ⟨⟩
    refine ⟨fun _ => ⟨rfl, fun top found => ?_⟩, ?_⟩
    · cases found
      decide
    · rintro _ ⟨⟩
      exact ⟨trivial, fun _ _ => trivial⟩

/-- The bottom of a stack is attached to its top, and an object with another
above it is attached to a third. -/
theorem attach_turns :
    (∃ t, exec (attachStep 256) standaloneObjects [.attach (some 1) (some 0), .attach (some 0) (some 1)] = some t ∧
      UpperLink t 0 1 ∧ UpperLink t 1 0 ∧ (∀ fuel, t.currentTop fuel 0 = none) ∧ ¬ AttachSound t fun _ => 1) ∧
    ∃ t, exec (attachStep 256) standaloneObjects [.attach (some 1) (some 0), .attach (some 0) (some 2)] = some t ∧
      (t 1).stackDepth = 2 ∧ (t 0).stackDepth = 2 ∧ ¬ AttachSound t fun _ => 1 := by
  have turns : ∀ {t : AttachState Nat}, UpperLink t 0 1 → UpperLink t 1 0 →
      (∀ fuel, t.currentTop fuel 0 = none) ∧ ¬ AttachSound t fun _ => 1 := fun there back =>
    ⟨fun fuel => (currentTop_loops there back fuel).1, fun sound => sound.acyclic 0 (.tail (.single there) back)⟩
  refine ⟨⟨_, rfl, rfl, rfl, turns rfl rfl⟩, _, rfl, rfl, rfl, fun sound => ?_⟩
  exact absurd (sound.depth 0 1 rfl) (by decide)

end VeaOS.Ob

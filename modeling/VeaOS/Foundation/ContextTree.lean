import Mathlib.Data.List.Nodup

/-! Binary trees with a distinguished position. A context is a tree with a
hole; both are written with a side, so that a fact and its mirror image are
one statement. -/
namespace VeaOS.Foundation

open List

inductive Side where
  | left
  | right
  deriving DecidableEq, Repr

namespace Side

def opp : Side → Side
  | .left => .right
  | .right => .left

@[simp] theorem opp_opp (s : Side) : s.opp.opp = s := by cases s <;> rfl
@[simp] theorem opp_left : Side.left.opp = .right := rfl
@[simp] theorem opp_right : Side.right.opp = .left := rfl
@[simp] theorem opp_ne (s : Side) : s.opp ≠ s := by cases s <;> decide
@[simp] theorem ne_opp (s : Side) : s ≠ s.opp := by cases s <;> decide
theorem eq_or_opp (s side : Side) : side = s ∨ side = s.opp := by cases s <;> cases side <;> simp

end Side

inductive KeyTree (ι β : Type*) where
  | nil
  | node (left : KeyTree ι β) (key : ι) (data : β) (right : KeyTree ι β)

variable {ι β : Type*}

namespace KeyTree

/-- The node whose child on side `s` is `near` and whose other child is `far`. -/
def join (s : Side) (near : KeyTree ι β) (key : ι) (data : β) (far : KeyTree ι β) : KeyTree ι β :=
  match s with
  | .left => .node near key data far
  | .right => .node far key data near

def inorder : KeyTree ι β → List ι
  | .nil => []
  | .node l k _ r => l.inorder ++ k :: r.inorder

def root : KeyTree ι β → Option ι
  | .nil => none
  | .node _ k _ _ => some k

def size : KeyTree ι β → Nat
  | .nil => 0
  | .node l _ _ r => l.size + r.size + 1

@[simp] theorem root_nil : (nil : KeyTree ι β).root = none := rfl
@[simp] theorem root_join (s : Side) (a b : KeyTree ι β) (k : ι) (d : β) :
    (join s a k d b).root = some k := by cases s <;> rfl

theorem join_opp (s : Side) (a b : KeyTree ι β) (k : ι) (d : β) :
    join s.opp a k d b = join s b k d a := by cases s <;> rfl

theorem eq_nil_or_join (s : Side) (t : KeyTree ι β) : t = .nil ∨ ∃ a k d b, t = join s a k d b := by
  cases t with
  | nil => exact .inl rfl
  | node l k d r => cases s with
    | left => exact .inr ⟨l, k, d, r, rfl⟩
    | right => exact .inr ⟨r, k, d, l, rfl⟩

theorem root_eq_none (t : KeyTree ι β) : t.root = none ↔ t = .nil := by cases t <;> simp [root]

theorem eq_join_of_root {t : KeyTree ι β} (s : Side) (rooted : t.root = some k) :
    ∃ a d b, t = join s a k d b := by
  obtain rfl | ⟨a, key, d, b, rfl⟩ := t.eq_nil_or_join s
  · simp at rooted
  · simp only [root_join, Option.some.injEq] at rooted
    exact ⟨a, d, b, by rw [rooted]⟩

theorem mem_inorder_of_root {t : KeyTree ι β} (rooted : t.root = some k) : k ∈ t.inorder := by
  cases t with
  | nil => simp at rooted
  | node l key d r =>
    simp only [root, Option.some.injEq] at rooted
    simp [inorder, rooted]

theorem length_inorder (t : KeyTree ι β) : t.inorder.length = t.size := by
  induction t with
  | nil => rfl
  | node l k d r left right =>
    simp only [inorder, size, length_append, length_cons, left, right]
    omega

theorem inorder_rotate (s : Side) (a b e : KeyTree ι β) :
    (join s (join s a x dx b) y dy e).inorder = (join s a x dx' (join s b y dy' e)).inorder := by
  cases s <;> simp [join, inorder]

theorem inorder_join_congr {s : Side} {a a' b : KeyTree ι β} (same : a'.inorder = a.inorder) :
    (join s a' k d' b).inorder = (join s a k d b).inorder := by
  cases s <;> simp [join, inorder, same]

theorem mem_join {s : Side} {a b : KeyTree ι β} :
    x ∈ (join s a k d b).inorder ↔ x ∈ a.inorder ∨ x = k ∨ x ∈ b.inorder := by
  cases s
  · simp only [join, inorder, mem_append, mem_cons]
  · simp only [join, inorder, mem_append, mem_cons]
    tauto

/-- The keys of a tree are pairwise distinct. -/
def Distinct (t : KeyTree ι β) : Prop := t.inorder.Nodup

@[simp] theorem distinct_nil : (nil : KeyTree ι β).Distinct := nodup_nil

theorem distinct_join {s : Side} {a b : KeyTree ι β} :
    (join s a k d b).Distinct ↔ a.Distinct ∧ b.Distinct ∧ k ∉ a.inorder ∧ k ∉ b.inorder ∧
      (∀ x ∈ a.inorder, x ∉ b.inorder) := by
  cases s
  · simp only [join, Distinct, inorder, nodup_append, nodup_cons, mem_cons, ne_eq]
    grind
  · simp only [join, Distinct, inorder, nodup_append, nodup_cons, mem_cons, ne_eq]
    grind

theorem distinct_node {a b : KeyTree ι β} :
    (node a k d b).Distinct ↔ a.Distinct ∧ b.Distinct ∧ k ∉ a.inorder ∧ k ∉ b.inorder ∧
      (∀ x ∈ a.inorder, x ∉ b.inorder) := distinct_join (s := .left)

end KeyTree

/-- A tree with a hole: the hole is the child on side `side` of `key`, whose
other child is `sibling`. -/
inductive Context (ι β : Type*) where
  | top
  | frame (side : Side) (key : ι) (data : β) (sibling : KeyTree ι β) (outer : Context ι β)

namespace Context

def plug : Context ι β → KeyTree ι β → KeyTree ι β
  | .top, t => t
  | .frame s k d sib outer, t => outer.plug (.join s t k d sib)

def parent : Context ι β → Option ι
  | .top => none
  | .frame _ k _ _ _ => some k

def link : Context ι β → Option (ι × Side)
  | .top => none
  | .frame s k _ _ _ => some (k, s)

def keys : Context ι β → List ι
  | .top => []
  | .frame _ k _ sib outer => k :: (sib.inorder ++ outer.keys)

def depth : Context ι β → Nat
  | .top => 0
  | .frame _ _ _ _ outer => outer.depth + 1

def before : Context ι β → List ι
  | .top => []
  | .frame .left _ _ _ outer => outer.before
  | .frame .right k _ sib outer => outer.before ++ (sib.inorder ++ [k])

def after : Context ι β → List ι
  | .top => []
  | .frame .left k _ sib outer => k :: (sib.inorder ++ outer.after)
  | .frame .right _ _ _ outer => outer.after

def append : Context ι β → Context ι β → Context ι β
  | .top, c => c
  | .frame s k d sib outer, c => .frame s k d sib (outer.append c)

@[simp] theorem parent_top : (top : Context ι β).parent = none := rfl
@[simp] theorem parent_frame (s : Side) (k : ι) (d : β) (sib : KeyTree ι β) (outer : Context ι β) :
    (frame s k d sib outer).parent = some k := rfl

@[simp] theorem link_top : (top : Context ι β).link = none := rfl
@[simp] theorem link_frame (s : Side) (k : ι) (d : β) (sib : KeyTree ι β) (outer : Context ι β) :
    (frame s k d sib outer).link = some (k, s) := rfl

theorem link_fst (c : Context ι β) : c.link.map Prod.fst = c.parent := by cases c <;> rfl

theorem plug_append (inner outer : Context ι β) (t : KeyTree ι β) :
    (inner.append outer).plug t = outer.plug (inner.plug t) := by
  induction inner generalizing t with
  | top => rfl
  | frame s k d sib rest ih => exact ih _

theorem inorder_plug (c : Context ι β) (t : KeyTree ι β) :
    (c.plug t).inorder = c.before ++ (t.inorder ++ c.after) := by
  induction c generalizing t with
  | top => simp [plug, before, after]
  | frame s k d sib outer ih =>
    cases s <;> simp [plug, before, after, ih, KeyTree.join, KeyTree.inorder]

theorem inorder_plug_congr {c : Context ι β} {t t' : KeyTree ι β} (same : t'.inorder = t.inorder) :
    (c.plug t').inorder = (c.plug t).inorder := by
  rw [inorder_plug, inorder_plug, same]

theorem before_append (inner outer : Context ι β) :
    (inner.append outer).before = outer.before ++ inner.before := by
  induction inner with
  | top => simp [append, before]
  | frame s k d sib rest ih => cases s <;> simp [append, before, ih]

theorem mem_keys {c : Context ι β} : x ∈ c.keys ↔ x ∈ c.before ∨ x ∈ c.after := by
  induction c with
  | top => simp [keys, before, after]
  | frame s k d sib outer ih =>
    cases s <;> simp only [keys, before, after, mem_cons, mem_append, ih,
      not_mem_nil, or_false] <;> tauto

theorem length_keys (c : Context ι β) : c.keys.length = c.before.length + c.after.length := by
  induction c with
  | top => rfl
  | frame s k d sib outer ih =>
    cases s <;> simp only [keys, before, after, length_append, length_cons,
      length_nil, ih] <;> omega

theorem mem_plug {c : Context ι β} {t : KeyTree ι β} :
    x ∈ (c.plug t).inorder ↔ x ∈ c.keys ∨ x ∈ t.inorder := by
  rw [inorder_plug, mem_keys]
  simp only [mem_append]
  tauto

theorem distinct_plug {c : Context ι β} {t : KeyTree ι β} :
    (c.plug t).Distinct ↔ t.Distinct ∧ c.keys.Nodup ∧ ∀ x ∈ t.inorder, x ∉ c.keys := by
  induction c generalizing t with
  | top => simp [plug, keys]
  | frame s k d sib outer ih =>
    rw [plug, ih, KeyTree.distinct_join]
    clear ih
    simp only [keys, nodup_cons, mem_append, nodup_append, mem_cons,
      KeyTree.mem_join, KeyTree.Distinct, ne_eq, or_imp, forall_and, not_or]
    constructor
    · rintro ⟨⟨near, far, notNear, notFar, apart⟩, outerNodup, clean⟩
      grind
    · rintro ⟨near, ⟨⟨notFar, notOuter⟩, far, outerNodup, clean⟩, notKey, apart⟩
      grind

theorem parent_mem_keys {c : Context ι β} (above : c.parent = some k) : k ∈ c.keys := by
  cases c with
  | top => simp at above
  | frame s key d sib outer => simp_all [keys]

theorem link_mem_keys {c : Context ι β} (linked : c.link = some (k, s)) : k ∈ c.keys := by
  cases c with
  | top => simp at linked
  | frame s key d sib outer => simp_all [keys]

theorem depth_le_length (c : Context ι β) : c.depth ≤ c.keys.length := by
  induction c with
  | top => simp [depth, keys]
  | frame s k d sib outer ih =>
    simp only [depth, keys, length_cons, length_append]
    omega

theorem root_plug_frame {s : Side} {sib : KeyTree ι β} {outer : Context ι β} (t t' : KeyTree ι β) :
    ((frame s k d sib outer).plug t).root = ((frame s k d sib outer).plug t').root := by
  induction outer generalizing s k d sib t t' with
  | top => simp [plug]
  | frame s' k' d' sib' rest ih => exact ih _ _

theorem root_plug_mem_keys {s : Side} {sib : KeyTree ι β} {outer : Context ι β} {t : KeyTree ι β}
    (rooted : ((frame s k d sib outer).plug t).root = some r) : r ∈ (frame s k d sib outer).keys := by
  induction outer generalizing s k d sib t with
  | top =>
    simp only [plug, KeyTree.root_join, Option.some.injEq] at rooted
    simp [keys, rooted]
  | frame s' k' d' sib' rest ih =>
    rw [keys]
    exact mem_cons_of_mem _ (mem_append_right _ (ih rooted))

theorem exists_root_plug {s : Side} {sib : KeyTree ι β} {outer : Context ι β} {t : KeyTree ι β} :
    ∃ r, ((frame s k d sib outer).plug t).root = some r := by
  rw [← Option.ne_none_iff_exists', ne_eq, KeyTree.root_eq_none]
  intro empty
  have member : k ∈ ((frame s k d sib outer).plug t).inorder := mem_plug.mpr (.inl (by simp [keys]))
  rw [empty] at member
  simp [KeyTree.inorder] at member

theorem exists_of_mem {t : KeyTree ι β} (member : k ∈ t.inorder) :
    ∃ c l d r, t = plug c (.node l k d r) := by
  suffices general : ∀ c : Context ι β, ∃ c' l d r, plug c t = plug c' (.node l k d r) from
    general .top
  induction t with
  | nil => simp [KeyTree.inorder] at member
  | node l key d r left right =>
    intro c
    simp only [KeyTree.inorder, mem_append, mem_cons] at member
    rcases member with inLeft | rfl | inRight
    · exact left inLeft (.frame .left key d r c)
    · exact ⟨c, l, d, r, rfl⟩
    · exact right inRight (.frame .right key d l c)

theorem exists_first {t : KeyTree ι β} (nonempty : t ≠ .nil) :
    ∃ c k d r, t = plug c (.node .nil k d r) ∧ c.before = [] := by
  induction t with
  | nil => exact absurd rfl nonempty
  | node l key d r left right =>
    by_cases bottom : l = .nil
    · exact ⟨.top, key, d, r, by rw [bottom]; rfl, rfl⟩
    · obtain ⟨c, k, e, rest, shape, first⟩ := left bottom
      refine ⟨c.append (.frame .left key d r .top), k, e, rest, ?_, ?_⟩
      · rw [plug_append, ← shape]
        rfl
      · simp [before_append, before, first]

end Context
end VeaOS.Foundation

import VeaOS.Vocpi.TemplateScan

/-! Resource templates as they are written: items, each with its length, and an end tag with a
checksum. The second loop describes what the items say. -/
namespace VeaOS.Vocpi

/-- An item. Those that are neither for ports nor for interrupts have a body of any kind. -/
inductive ResourceItem where
  | irq (mask : BitVec 16) (flags : Option (BitVec 8))
  | io (decode : BitVec 8) (minimum maximum : BitVec 16) (alignment length : BitVec 8)
  | small (tag : BitVec 4) (body : List (BitVec 8)) (other : tag ≠ 4 ∧ tag ≠ 8 ∧ tag ≠ 15)
      (few : body.length < 8)
  | large (tag : BitVec 7) (body : List (BitVec 8)) (few : body.length < 2 ^ 16)

def lowByte (value : BitVec 16) : BitVec 8 := value.setWidth 8
def highByte (value : BitVec 16) : BitVec 8 := (value >>> 8).setWidth 8

def smallHeader (tag : BitVec 4) (length : Nat) : BitVec 8 := tag.setWidth 8 <<< 3 ||| BitVec.ofNat 8 length
def largeHeader (tag : BitVec 7) : BitVec 8 := 0x80 ||| tag.setWidth 8

def ResourceItem.encode : ResourceItem → List (BitVec 8)
  | .irq mask none => [smallHeader 4 2, lowByte mask, highByte mask]
  | .irq mask (some flags) => [smallHeader 4 3, lowByte mask, highByte mask, flags]
  | .io decode minimum maximum alignment length =>
    [smallHeader 8 7, decode, lowByte minimum, highByte minimum, lowByte maximum, highByte maximum, alignment,
      length]
  | .small tag body _ _ => smallHeader tag body.length :: body
  | .large tag body _ =>
    largeHeader tag :: lowByte (BitVec.ofNat 16 body.length) :: highByte (BitVec.ofNat 16 body.length) :: body

def template (items : List ResourceItem) (checksum : BitVec 8) : List (BitVec 8) :=
  items.flatMap ResourceItem.encode ++ [smallHeader 15 1, checksum]

def irqNumbers (mask : BitVec 16) : List Nat := (List.range 16).filter mask.getLsbD

def portOf (minimum maximum : BitVec 16) (alignment length : BitVec 8) : RequiredResource :=
  .port (length.setWidth 32) (alignment.setWidth 32) (minimum.setWidth 64) (maximum.setWidth 64)

def interruptOf (number : Nat) : RequiredResource := .interrupt (BitVec.ofNat 32 number) (BitVec.ofNat 32 number)

/-- What an item says: the range of ports, or one interrupt for each number. -/
def ResourceItem.meaning : ResourceItem → List RequiredResource
  | .irq mask _ => (irqNumbers mask).map interruptOf
  | .io _ minimum maximum alignment length => [portOf minimum maximum alignment length]
  | .small _ _ _ _ => []
  | .large _ _ _ => []

def ResourceItem.coded : ResourceItem → List RequiredResource
  | .irq mask _ => [interruptOf (irqNumber 16 mask 0)]
  | .io _ minimum maximum alignment length => [portOf minimum maximum alignment length]
  | .small _ _ _ _ => []
  | .large _ _ _ => []

section Headers

theorem smallHeader_small : ∀ (tag : BitVec 4) (length : Fin 8),
    acpiResourceIsLarge (smallHeader tag length) = false := by decide

theorem smallHeader_tag : ∀ (tag : BitVec 4) (length : Fin 8),
    acpiSmallResourceTag (smallHeader tag length) = tag.setWidth 8 := by decide

theorem smallHeader_length : ∀ (tag : BitVec 4) (length : Fin 8),
    acpiSmallResourceLength (smallHeader tag length) = length := by decide

theorem largeHeader_large : ∀ tag : BitVec 7, acpiResourceIsLarge (largeHeader tag) = true := by decide

theorem word_bytes (value : BitVec 16) : highByte value ++ lowByte value = value := by
  apply BitVec.eq_of_getLsbD_eq
  intro i inside
  rw [BitVec.getLsbD_append]
  by_cases low : i < 8
  · simp [lowByte, low]
  · have high : i - 8 < 8 := by omega
    have sum : 8 + (i - 8) = i := by omega
    simp [highByte, low, high, sum]

end Headers

section Interrupts

theorem bit_zero (mask : BitVec 16) : mask &&& 1 = 0 ↔ mask.getLsbD 0 = false := by
  rw [← BitVec.toNat_inj, BitVec.toNat_and, BitVec.getLsbD, Nat.testBit_zero]
  change mask.toNat &&& 1 = 0 ↔ _
  rw [Nat.and_one_is_mod, decide_eq_false_iff_not]
  omega

theorem irqNumber_first : ∀ (left : Nat) (mask : BitVec 16) (irqNum n : Nat), n < left → mask.getLsbD n = true →
    (∀ m < n, mask.getLsbD m = false) → irqNumber left mask irqNum = irqNum + n
  | left + 1, mask, irqNum, n, bound, set, first => by
      rw [irqNumber]
      obtain _ | n := n
      · rw [if_neg fun zero => absurd ((bit_zero mask).mp zero) (by rw [set]; exact Bool.noConfusion), Nat.add_zero]
      · rw [if_pos ((bit_zero mask).mpr (first 0 (Nat.succ_pos n)))]
        have shifted : ∀ m, (mask >>> 1).getLsbD m = mask.getLsbD (m + 1) := fun m => by
          rw [BitVec.getLsbD_ushiftRight, Nat.add_comm]
        rw [irqNumber_first left (mask >>> 1) (irqNum + 1) n (Nat.lt_of_succ_lt_succ bound)
          ((shifted n).trans set) fun m less => (shifted m).trans (first (m + 1) (Nat.succ_lt_succ less))]
        omega

theorem irqNumber_none : ∀ (left : Nat) (mask : BitVec 16) (irqNum : Nat), (∀ m < left, mask.getLsbD m = false) →
    irqNumber left mask irqNum = irqNum + left
  | 0, _, _, _ => rfl
  | left + 1, mask, irqNum, clear => by
      rw [irqNumber, if_pos ((bit_zero mask).mpr (clear 0 (Nat.succ_pos left)))]
      rw [irqNumber_none left (mask >>> 1) (irqNum + 1) fun m less => ?_]
      · omega
      · rw [BitVec.getLsbD_ushiftRight, Nat.add_comm]
        exact clear (m + 1) (Nat.succ_lt_succ less)

theorem mem_irqNumbers {mask : BitVec 16} {n : Nat} : n ∈ irqNumbers mask ↔ n < 16 ∧ mask.getLsbD n = true := by
  rw [irqNumbers, List.mem_filter, List.mem_range]

theorem irqNumber_of_single {mask : BitVec 16} {n : Nat} (single : irqNumbers mask = [n]) :
    irqNumber 16 mask 0 = n := by
  obtain ⟨bound, set⟩ := mem_irqNumbers.mp (single ▸ List.mem_singleton_self n)
  rw [irqNumber_first 16 mask 0 n bound set fun m less => ?_, Nat.zero_add]
  apply Bool.eq_false_iff.mpr
  intro also
  have member : m ∈ irqNumbers mask := mem_irqNumbers.mpr ⟨Nat.lt_trans less bound, also⟩
  rw [single, List.mem_singleton] at member
  exact Nat.lt_irrefl n (member ▸ less)

theorem irqNumber_of_nil {mask : BitVec 16} (none : irqNumbers mask = []) : irqNumber 16 mask 0 = 16 := by
  apply irqNumber_none
  intro m less
  apply Bool.eq_false_iff.mpr
  intro set
  have member := mem_irqNumbers.mpr ⟨less, set⟩
  rw [none] at member
  cases member

end Interrupts

section Templates
variable {memory : CrsMemory} {size index : Nat} {visited : List Nat}

/-- The bytes are in the memory from the index on. -/
def At (memory : CrsMemory) (index : Nat) (bytes : List (BitVec 8)) : Prop :=
  ∀ k b, bytes[k]? = some b → memory (index + k) = b

theorem At.append {xs ys : List (BitVec 8)} (at_ : At memory index (xs ++ ys)) :
    At memory index xs ∧ At memory (index + xs.length) ys := by
  constructor
  · intro k b found
    apply at_ k b
    rw [List.getElem?_append_left (List.getElem?_eq_some_iff.mp found).1]
    exact found
  · intro k b found
    rw [Nat.add_assoc]
    apply at_ (xs.length + k) b
    rw [List.getElem?_append_right (Nat.le_add_right _ _), Nat.add_sub_cancel_left]
    exact found

theorem At.first {b : BitVec 8} {bs : List (BitVec 8)} (at_ : At memory index (b :: bs)) : memory index = b :=
  at_ 0 b rfl

theorem offset_eq {distance : Nat} (fits : index + distance < 2 ^ 32) : offset index distance = index + distance :=
  Nat.mod_eq_of_lt fits

theorem word_at {distance : Nat} {value : BitVec 16} (fits : index + (distance + 1) < 2 ^ 32)
    (low : memory (index + distance) = lowByte value) (high : memory (index + (distance + 1)) = highByte value) :
    word memory index distance = value := by
  rw [word, offset_eq fits, offset_eq (Nat.lt_of_succ_lt fits), low, high, word_bytes]

theorem walk_small {tag : BitVec 4} {length : Nat} (few : length < 8) (notEnd : tag ≠ 15)
    (header : memory index = smallHeader tag length) (fits : index + (1 + length) < size) (bounded : size < 2 ^ 32)
    (touched : ∀ r ∈ fillTouches memory index, r < size)
    (rest : Walk memory size (fillTouches memory) (index + (1 + length)) visited) :
    Walk memory size (fillTouches memory) index (index :: visited) := by
  have small : acpiResourceIsLarge (memory index) = false := header ▸ smallHeader_small tag ⟨length, few⟩
  have tagged : acpiSmallResourceTag (memory index) = tag.setWidth 8 := header ▸ smallHeader_tag tag ⟨length, few⟩
  have long : acpiSmallResourceLength (memory index) = length := header ▸ smallHeader_length tag ⟨length, few⟩
  have other : ∀ tag : BitVec 4, tag ≠ 15 → tag.setWidth 8 ≠ acpiSmallTagEnd := by decide
  have next : nextIndex memory index = index + (1 + length) := by
    rw [nextIndex, small, if_neg Bool.false_ne_true, long, offset_eq (Nat.lt_trans fits bounded)]
  exact .small (Nat.lt_of_le_of_lt (Nat.le_add_right _ _) fits) small (tagged ▸ other tag notEnd) touched
    (next ▸ rest)

theorem tag_of_header {tag : BitVec 4} {length : Nat} (few : length < 8)
    (header : memory index = smallHeader tag length) : acpiSmallResourceTag (memory index) = tag.setWidth 8 :=
  header ▸ smallHeader_tag tag ⟨length, few⟩

theorem walk_irq {mask : BitVec 16} {length : Nat} (few : length < 8) (body : 2 ≤ length)
    (header : memory index = smallHeader 4 length) (low : memory (index + 1) = lowByte mask)
    (high : memory (index + 2) = highByte mask) (fits : index + (1 + length) < size) (bounded : size < 2 ^ 32)
    (rest : Walk memory size (fillTouches memory) (index + (1 + length)) visited) :
    Walk memory size (fillTouches memory) index (index :: visited) ∧
      described memory index = [interruptOf (irqNumber 16 mask 0)] := by
  have tag : acpiSmallResourceTag (memory index) = acpiSmallTagIrq := tag_of_header few header
  have notIo : ¬ acpiSmallResourceTag (memory index) = acpiSmallTagIo := by
    rw [tag]
    decide
  constructor
  · refine walk_small few (by decide) header fits bounded (fun r member => ?_) rest
    simp only [fillTouches, if_neg notIo, if_pos tag, List.mem_cons, List.not_mem_nil, or_false] at member
    obtain rfl | rfl := member <;> rw [offset_eq] <;> omega
  · have value : word memory index 1 = mask := word_at (by omega) low high
    simp only [described, fillItem, if_neg notIo, if_pos tag, value, List.nil_append]
    rfl

theorem walk_io {minimum maximum : BitVec 16} {alignment length : BitVec 8}
    (header : memory index = smallHeader 8 7)
    (minLow : memory (index + 2) = lowByte minimum) (minHigh : memory (index + 3) = highByte minimum)
    (maxLow : memory (index + 4) = lowByte maximum) (maxHigh : memory (index + 5) = highByte maximum)
    (aligned : memory (index + 6) = alignment) (long : memory (index + 7) = length)
    (fits : index + 8 < size) (bounded : size < 2 ^ 32)
    (rest : Walk memory size (fillTouches memory) (index + 8) visited) :
    Walk memory size (fillTouches memory) index (index :: visited) ∧
      described memory index = [portOf minimum maximum alignment length] := by
  have tag : acpiSmallResourceTag (memory index) = acpiSmallTagIo := tag_of_header (by decide) header
  constructor
  · refine walk_small (by decide) (by decide) header fits bounded (fun r member => ?_) rest
    simp only [fillTouches, if_pos tag, List.mem_cons, List.not_mem_nil, or_false] at member
    obtain rfl | rfl | rfl | rfl | rfl | rfl := member <;> rw [offset_eq] <;> omega
  · have first : word memory index 2 = minimum := word_at (by omega) minLow minHigh
    have second : word memory index 4 = maximum := word_at (by omega) maxLow maxHigh
    have sixth : memory (offset index 6) = alignment := by rw [offset_eq (by omega), aligned]
    have seventh : memory (offset index 7) = length := by rw [offset_eq (by omega), long]
    simp only [described, fillItem, if_pos tag, first, second, sixth, seventh, List.nil_append]
    rfl

theorem walk_other {tag : BitVec 4} {length : Nat} (other : tag ≠ 4 ∧ tag ≠ 8 ∧ tag ≠ 15) (few : length < 8)
    (header : memory index = smallHeader tag length) (fits : index + (1 + length) < size) (bounded : size < 2 ^ 32)
    (rest : Walk memory size (fillTouches memory) (index + (1 + length)) visited) :
    Walk memory size (fillTouches memory) index (index :: visited) ∧ described memory index = [] := by
  have tagged := tag_of_header few header
  have apart : ∀ tag : BitVec 4, tag ≠ 4 ∧ tag ≠ 8 ∧ tag ≠ 15 →
      tag.setWidth 8 ≠ acpiSmallTagIo ∧ tag.setWidth 8 ≠ acpiSmallTagIrq := by decide
  obtain ⟨notIo, notIrq⟩ := apart tag other
  rw [← tagged] at notIo notIrq
  have none : described memory index = [] := by
    simp only [described, fillItem, if_neg notIo, if_neg notIrq]
  refine ⟨walk_small few other.2.2 header fits bounded (fun r member => ?_) rest, none⟩
  rw [fillTouches_of_nil none] at member
  cases member

theorem walk_large {tag : BitVec 7} {length : Nat} (few : length < 2 ^ 16)
    (header : memory index = largeHeader tag) (low : memory (index + 1) = lowByte (BitVec.ofNat 16 length))
    (high : memory (index + 2) = highByte (BitVec.ofNat 16 length)) (fits : index + (3 + length) < size)
    (bounded : size < 2 ^ 32) (rest : Walk memory size (fillTouches memory) (index + (3 + length)) visited) :
    Walk memory size (fillTouches memory) index visited := by
  have large : acpiResourceIsLarge (memory index) = true := header ▸ largeHeader_large tag
  have long : (word memory index 1).toNat = length := by
    rw [word_at (by omega) low high, BitVec.toNat_ofNat, Nat.mod_eq_of_lt few]
  have next : nextIndex memory index = index + (3 + length) := by
    rw [nextIndex, if_pos large, long, offset_eq (Nat.lt_trans fits bounded)]
  refine .large (by omega) large ?_ ?_ (next ▸ rest) <;> rw [offset_eq] <;> omega

theorem walk_item (item : ResourceItem) (written : At memory index item.encode)
    (fits : index + item.encode.length < size) (bounded : size < 2 ^ 32)
    (rest : Walk memory size (fillTouches memory) (index + item.encode.length) visited) :
    ∃ visited', Walk memory size (fillTouches memory) index visited' ∧
      visited'.flatMap (described memory) = item.coded ++ visited.flatMap (described memory) := by
  cases item with
  | irq mask flags =>
    cases flags with
    | none =>
      obtain ⟨walk, said⟩ := walk_irq (by decide) (Nat.le_refl 2) written.first (written 1 _ rfl)
        (written 2 _ rfl) fits bounded rest
      exact ⟨index :: visited, walk, by rw [List.flatMap_cons, said]; rfl⟩
    | some flags =>
      obtain ⟨walk, said⟩ := walk_irq (by decide) (Nat.le_succ 2) written.first (written 1 _ rfl)
        (written 2 _ rfl) fits bounded rest
      exact ⟨index :: visited, walk, by rw [List.flatMap_cons, said]; rfl⟩
  | io decode minimum maximum alignment length =>
    obtain ⟨walk, said⟩ := walk_io written.first (written 2 _ rfl) (written 3 _ rfl) (written 4 _ rfl)
      (written 5 _ rfl) (written 6 _ rfl) (written 7 _ rfl) fits bounded rest
    exact ⟨index :: visited, walk, by rw [List.flatMap_cons, said]; rfl⟩
  | small tag body other few =>
    rw [ResourceItem.encode, List.length_cons, Nat.add_comm body.length 1] at fits rest
    obtain ⟨walk, said⟩ := walk_other other few written.first fits bounded rest
    exact ⟨index :: visited, walk, by rw [List.flatMap_cons, said]; rfl⟩
  | large tag body few =>
    have total : (ResourceItem.encode (.large tag body few)).length = 3 + body.length := by
      simp only [ResourceItem.encode, List.length_cons]
      omega
    rw [total] at fits rest
    exact ⟨visited, walk_large few written.first (written 1 _ rfl) (written 2 _ rfl) fits bounded rest, rfl⟩

theorem walk_template (items : List ResourceItem) (checksum : BitVec 8)
    (written : At memory index (template items checksum))
    (fits : index + (template items checksum).length ≤ size) (bounded : size < 2 ^ 32) :
    ∃ visited, Walk memory size (fillTouches memory) index visited ∧
      visited.flatMap (described memory) = items.flatMap ResourceItem.coded := by
  induction items generalizing index with
  | nil =>
    have header : memory index = smallHeader 15 1 := written.first
    have inside : index < size := Nat.lt_of_lt_of_le (Nat.lt_add_of_pos_right Nat.zero_lt_two) fits
    exact ⟨[], .last inside (header ▸ smallHeader_small 15 1) (header ▸ smallHeader_tag 15 1), rfl⟩
  | cons item items ih =>
    have parts : template (item :: items) checksum = item.encode ++ template items checksum := by
      rw [template, List.flatMap_cons, List.append_assoc]
      rfl
    rw [parts] at written fits
    rw [List.length_append, ← Nat.add_assoc] at fits
    obtain ⟨here, later⟩ := written.append
    obtain ⟨visited, walk, said⟩ := ih later fits
    have room : 0 < (template items checksum).length := by
      rw [template, List.length_append]
      exact Nat.lt_of_lt_of_le Nat.zero_lt_two (Nat.le_add_left _ _)
    obtain ⟨visited', walk', said'⟩ :=
      walk_item item here (Nat.lt_of_lt_of_le (Nat.lt_add_of_pos_right room) fits) bounded walk
    exact ⟨visited', walk', by rw [said', said, List.flatMap_cons]⟩

end Templates

section Queries
variable {memory : CrsMemory} {length : BitVec 32} {items : List ResourceItem}

def bytes (memory : CrsMemory) (size : Nat) : List (BitVec 8) := (List.range size).map memory

/-- A query over the buffer ends, has read in it only, and has written what it counted. The list
is what a template says. -/
def CrsRight (memory : CrsMemory) (length : BitVec 32) : Prop :=
  ∀ allocated, ∃ bound outcome,
    (∀ fuel, bound < fuel → vocpiQueryNodeResourcesRequirement true
      (0, some (.buffer (some memory) length)) allocated fuel = some outcome) ∧
    (∀ r ∈ outcome.reads, r < length.toNat) ∧
    (∀ list, outcome.list = some list → list.descriptors.length = outcome.resourceCount) ∧
    (allocated = true → ∀ items checksum, bytes memory length.toNat = template items checksum →
      (outcome.list.elim [] RequiredResourcesListEx.descriptors) = items.flatMap ResourceItem.meaning)

/-- The items have all that is read of them in the buffer, and in a template each interrupt item
names one interrupt. -/
def CrsClean (memory : CrsMemory) (length : BitVec 32) : Prop :=
  (∃ visited, Walk memory length.toNat (fillTouches memory) 0 visited) ∧
    ∀ items checksum, bytes memory length.toNat = template items checksum →
      ∀ mask flags, ResourceItem.irq mask flags ∈ items → (irqNumbers mask).length = 1

theorem at_of_bytes {size : Nat} {written : List (BitVec 8)} (same : bytes memory size = written) :
    At memory 0 written ∧ written.length = size := by
  subst same
  constructor
  · intro k b found
    rw [bytes, List.getElem?_map] at found
    obtain ⟨i, place, value⟩ := Option.map_eq_some_iff.mp found
    obtain ⟨inside, rfl⟩ := List.getElem?_eq_some_iff.mp place
    rw [List.getElem_range] at value
    rw [Nat.zero_add]
    exact value
  · rw [bytes, List.length_map, List.length_range]

theorem coded_of_single {item : ResourceItem}
    (single : ∀ mask flags, item = .irq mask flags → (irqNumbers mask).length = 1) : item.coded = item.meaning := by
  cases item with
  | irq mask flags =>
    obtain ⟨n, only⟩ := List.length_eq_one_iff.mp (single mask flags rfl)
    rw [ResourceItem.coded, ResourceItem.meaning, only, irqNumber_of_single only]
    rfl
  | io => rfl
  | small => rfl
  | large => rfl

theorem sixteen_notMem (items : List ResourceItem) : interruptOf 16 ∉ items.flatMap ResourceItem.meaning := by
  intro member
  obtain ⟨item, -, said⟩ := List.mem_flatMap.mp member
  cases item with
  | irq mask flags =>
    obtain ⟨n, named, same⟩ := List.mem_map.mp said
    have bound := (mem_irqNumbers.mp named).1
    have vectors := congrArg BitVec.toNat (RequiredResource.interrupt.inj same).1
    rw [BitVec.toNat_ofNat, BitVec.toNat_ofNat, Nat.mod_eq_of_lt (by omega)] at vectors
    omega
  | io => cases List.mem_singleton.mp said
  | small => cases said
  | large => cases said

theorem flatMap_lengths {α β : Type} {f g : α → List β} {xs : List α}
    (atMost : ∀ x ∈ xs, (f x).length ≤ (g x).length) (total : (xs.flatMap f).length = (xs.flatMap g).length) :
    ∀ x ∈ xs, (f x).length = (g x).length := by
  have below : ∀ ys : List α, (∀ y ∈ ys, (f y).length ≤ (g y).length) →
      (ys.flatMap f).length ≤ (ys.flatMap g).length := by
    intro ys
    induction ys with
    | nil => exact fun _ => Nat.le_refl 0
    | cons y ys ih =>
      intro atMost
      rw [List.flatMap_cons, List.flatMap_cons, List.length_append, List.length_append]
      exact Nat.add_le_add (atMost y List.mem_cons_self)
        (ih fun z member => atMost z (List.mem_cons_of_mem y member))
  induction xs with
  | nil => exact fun _ member => absurd member List.not_mem_nil
  | cons y ys ih =>
    rw [List.flatMap_cons, List.flatMap_cons, List.length_append, List.length_append] at total
    have later := fun z member => atMost z (List.mem_cons_of_mem y member)
    have first := atMost y List.mem_cons_self
    have rest := below ys later
    intro x member
    obtain rfl | member := List.mem_cons.mp member
    · omega
    · exact ih later (by omega) x member

theorem single_of_coded (same : items.flatMap ResourceItem.coded = items.flatMap ResourceItem.meaning)
    {mask : BitVec 16} {flags : Option (BitVec 8)} (member : ResourceItem.irq mask flags ∈ items) :
    (irqNumbers mask).length = 1 := by
  have some : ∀ mask flags, ResourceItem.irq mask flags ∈ items → irqNumbers mask ≠ [] := by
    intro mask flags member none
    apply sixteen_notMem items
    rw [← same]
    refine List.mem_flatMap.mpr ⟨_, member, ?_⟩
    rw [ResourceItem.coded, irqNumber_of_nil none]
    exact List.mem_singleton_self _
  have atLeast : ∀ item ∈ items, item.coded.length ≤ item.meaning.length := by
    intro item member
    cases item with
    | irq mask flags =>
      rw [ResourceItem.meaning, List.length_map]
      exact List.length_pos_iff.mpr (some mask flags member)
    | io => exact Nat.le_refl 1
    | small | large => exact Nat.le_refl 0
  have equal := flatMap_lengths atLeast (congrArg List.length same) _ member
  rw [ResourceItem.meaning, List.length_map] at equal
  exact equal.symm

theorem crsOutcome_list (found : List RequiredResource) (reads reads' : List Nat) :
    (crsOutcome found true reads reads').list.elim [] RequiredResourcesListEx.descriptors = found := by
  unfold crsOutcome
  split
  next none => exact none.symm
  next => rfl

theorem crsOutcome_written (found : List RequiredResource) (allocated : Bool) (reads reads' : List Nat) :
    ∀ list, (crsOutcome found allocated reads reads').list = some list →
      list.descriptors.length = (crsOutcome found allocated reads reads').resourceCount := by
  unfold crsOutcome
  intro list made
  split at made
  next => cases made
  next some =>
    rw [if_neg some]
    cases allocated with
    | false => cases made
    | true =>
      cases made
      rfl

theorem crsOutcome_reads {size : Nat} {found : List RequiredResource} {reads reads' : List Nat}
    (within : ∀ r ∈ reads ++ reads', r < size) (allocated : Bool) :
    ∀ r ∈ (crsOutcome found allocated reads reads').reads, r < size := by
  intro r member
  unfold crsOutcome at member
  split at member
  next => exact within r (List.mem_append_left _ member)
  next =>
    cases allocated with
    | false => exact within r (List.mem_append_left _ member)
    | true => exact within r member

theorem vocpiQuery_empty (memory : CrsMemory) (allocated : Bool) (fuel : Nat) :
    vocpiQueryNodeResourcesRequirement true (0, some (.buffer (some memory) 0)) allocated fuel =
      some ⟨.unsuccessful, none, 0, []⟩ := rfl

theorem vocpiQuery_buffer (memory : CrsMemory) (nonempty : length ≠ 0) (allocated : Bool) (fuel : Nat) :
    vocpiQueryNodeResourcesRequirement true (0, some (.buffer (some memory) length)) allocated fuel =
      queryCrsBuffer memory length.toNat fuel allocated := by
  change (if length = 0 then some _ else queryCrsBuffer memory length.toNat fuel allocated) = _
  rw [if_neg nonempty]

theorem template_ne_nil (items : List ResourceItem) (checksum : BitVec 8) : template items checksum ≠ [] := by
  rw [template]
  exact List.append_ne_nil_of_right_ne_nil _ (List.cons_ne_nil _ _)

/-- Both loops read a buffer right exactly when all that they read of its items is in it, and each
interrupt item of a template names one interrupt. -/
theorem vocpiQueryNodeResourcesRequirement_right_iff (memory : CrsMemory) (length : BitVec 32) :
    CrsRight memory length ↔ CrsClean memory length := by
  by_cases empty : length = 0
  · subst empty
    constructor
    · refine fun _ => ⟨⟨[], .past (Nat.le_refl 0)⟩, fun items checksum same => ?_⟩
      exact absurd same.symm (template_ne_nil items checksum)
    · refine fun _ allocated => ⟨0, _, fun fuel _ => vocpiQuery_empty memory allocated fuel,
        fun _ member => absurd member List.not_mem_nil, fun list made => ?_,
        fun _ items checksum same => absurd same.symm (template_ne_nil items checksum)⟩
      cases made
  · constructor
    · intro right
      obtain ⟨bound, outcome, ended, within, -, listed⟩ := right true
      have last := ended (bound + 1) (Nat.lt_succ_self bound)
      rw [vocpiQuery_buffer memory empty] at last
      obtain ⟨visited, walk⟩ := walk_of_queryCrsBuffer last within
      refine ⟨⟨visited, walk⟩, fun items checksum same mask flags member => ?_⟩
      obtain ⟨written, size⟩ := at_of_bytes same
      obtain ⟨visited', walk', coded⟩ := walk_template items checksum written (by omega) length.isLt
      obtain ⟨bound', reads, reads', -, queried⟩ := queryCrsBuffer_of_walk walk' true
      have both := ended (bound + bound' + 1) (by omega)
      rw [vocpiQuery_buffer memory empty, queried (bound + bound') (Nat.le_add_left _ _), coded] at both
      have list := listed rfl items checksum same
      rw [← Option.some.inj both, crsOutcome_list] at list
      exact single_of_coded list member
    · rintro ⟨⟨visited, walk⟩, single⟩ allocated
      obtain ⟨bound, reads, reads', within, queried⟩ := queryCrsBuffer_of_walk walk allocated
      refine ⟨bound, crsOutcome (visited.flatMap (described memory)) allocated reads reads', fun fuel enough => ?_,
        crsOutcome_reads within allocated, crsOutcome_written _ allocated reads reads', ?_⟩
      · obtain ⟨fuel, rfl⟩ := Nat.exists_eq_add_of_le' (Nat.le_trans (Nat.le_add_left 1 bound) enough)
        rw [vocpiQuery_buffer memory empty]
        exact queried fuel (Nat.le_of_succ_le_succ enough)
      · rintro rfl items checksum same
        obtain ⟨written, size⟩ := at_of_bytes same
        obtain ⟨visited', walk', coded⟩ := walk_template items checksum written (by omega) length.isLt
        obtain ⟨bound', first, second, -, queried'⟩ := queryCrsBuffer_of_walk walk' true
        have one := queried (bound + bound') (Nat.le_add_right _ _)
        rw [queried' (bound + bound') (Nat.le_add_left _ _)] at one
        rw [← Option.some.inj one, crsOutcome_list, coded]
        apply List.flatMap_congr
        intro item member
        exact coded_of_single fun mask flags same' => single items checksum same mask flags (same' ▸ member)

end Queries

/-- A large item of which only the header is in the buffer, and a template with an item for two
interrupts. -/
def cutItem : CrsMemory := fun i => if i = 0 then 0x86 else 0
def twoInterrupts : CrsMemory := fun i => if i = 0 then 0x22 else if i = 1 then 0x03 else if i = 3 then 0x79 else 0

theorem vocpiQueryNodeResourcesRequirement_wrong : ¬ CrsRight cutItem 1 ∧ ¬ CrsRight twoInterrupts 5 := by
  constructor
  · intro right
    obtain ⟨bound, outcome, ended, within, -⟩ := right true
    have run : vocpiQueryNodeResourcesRequirement true (0, some (.buffer (some cutItem) 1)) true (bound + 2) =
        some ⟨.notFound, none, 0, [0, 1, 2]⟩ := rfl
    have last := ended (bound + 2) (by omega)
    rw [run] at last
    cases last
    exact absurd (within 1 (by decide)) (by decide)
  · intro right
    obtain ⟨bound, outcome, ended, -, -, listed⟩ := right true
    have run : vocpiQueryNodeResourcesRequirement true (0, some (.buffer (some twoInterrupts) 5)) true (bound + 3) =
        some ⟨.success, some ⟨68, 1, 1, 1, [interruptOf 0]⟩, 1, [0, 3, 0, 1, 2, 3]⟩ := rfl
    have last := ended (bound + 3) (by omega)
    rw [run] at last
    cases last
    have list := listed rfl [.irq 3 none] 0 (by decide)
    exact absurd (congrArg List.length list) (by decide)

end VeaOS.Vocpi

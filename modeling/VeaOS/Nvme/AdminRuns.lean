import Mathlib.Data.Fintype.Basic
import VeaOS.Foundation.Runs
import VeaOS.Nvme.AdminQueue

/-! When the calls get the completions of their own commands, over every interleaving of
the calls and the controller. -/
namespace VeaOS.Nvme
open Foundation Transition Function List Option
variable {Thread : Type*}

namespace AdminState

/-- Each entry taken is that of the call's own command, none is taken twice, and a call
returns nothing but the completion of its command. -/
structure Sound (σ : AdminState Thread) : Prop where
  own : ∀ x ∈ σ.consumed, x.2.serial = x.1
  once : (σ.consumed.map fun x => x.2.serial).Nodup
  success : ∀ r ∈ σ.returns, r.status = .success →
    ∃ e, r.completion = some e ∧ e.serial = r.serial ∧ e.status = 0
  judged : ∀ r ∈ σ.returns, ∀ e, r.judged = some e → e.serial = r.serial

/-- The submission ring has room; a call that reads the head is the only one to do so,
and finds there its own completion or none yet; no other call moved the head before a call
rings the doorbell; and the controller posts to the slot that a call looks at only the
completion that this call waits for. -/
def Meets (depth : Nat) (σ : AdminState Thread) : AdminAction Thread → Prop
  | .submit _ _ => σ.queue.submitted.length + 1 < σ.queue.fetched + depth
  | .proceed thread => ∀ c, σ.call thread = some c →
      (c.stage = .submitted → (∀ other d, σ.call other = some d → d.stage.reading = false) ∧
        ((σ.queue.completion σ.queue.completionHead).phase = σ.queue.phase →
          (σ.queue.completion σ.queue.completionHead).serial = c.serial)) ∧
      (c.stage = .storedHead → σ.queue.completionHead = (c.head + 1) % depth)
  | .fetch => True
  | .post i _ => ∀ thread c, σ.call thread = some c → c.stage ≠ .submitted → c.head = σ.queue.completionTail →
      ∀ x, σ.queue.executing[i]? = some x → x.1 = c.serial

instance [Fintype Thread] (depth : Nat) (σ : AdminState Thread) (a : AdminAction Thread) :
    Decidable (σ.Meets depth a) :=
  match a with
  | .submit _ _ => inferInstanceAs (Decidable (_ < _))
  | .proceed thread => inferInstanceAs (Decidable (∀ c ∈ σ.call thread,
      (c.stage = .submitted → (∀ other, ∀ d ∈ σ.call other, d.stage.reading = false) ∧
        ((σ.queue.completion σ.queue.completionHead).phase = σ.queue.phase →
          (σ.queue.completion σ.queue.completionHead).serial = c.serial)) ∧
      (c.stage = .storedHead → σ.queue.completionHead = (c.head + 1) % depth)))
  | .fetch => isTrue trivial
  | .post i _ => inferInstanceAs (Decidable (∀ thread, ∀ c ∈ σ.call thread, c.stage ≠ .submitted →
      c.head = σ.queue.completionTail → ∀ x ∈ σ.queue.executing[i]?, x.1 = c.serial))

/-- The call looks at the entry after the `taken` ones, which is its own once it is there. -/
structure AtHead (depth taken : Nat) (posted : List (Nat × BitVec 15)) (c : AdminCall) : Prop where
  head : c.head = taken % depth
  own : ∀ e, posted[taken]? = some e → e.1 = c.serial

/-- The completion that the call copied is the `n`-th one, and that of its own command. -/
def Copied (posted : List (Nat × BitVec 15)) (n : Nat) (c : AdminCall) : Prop :=
  ∃ e, c.completion = some e ∧ e.serial = c.serial ∧ posted[n]? = some (e.serial, e.status)

/-- Where a call stands, `taken` entries having been taken and the head moved past them. -/
def Placed (depth taken : Nat) (σ : AdminState Thread) (c : AdminCall) : Prop :=
  match c.stage with
  | .submitted => True
  | .readHead => AtHead depth taken σ.queue.posted c ∧ σ.queue.phase = lapBit depth taken ∧ σ.consumed.length = taken
  | .polling => AtHead depth taken σ.queue.posted c ∧ σ.queue.phase = lapBit depth taken ∧
      σ.consumed.length = taken ∧ c.expectedPhase = lapBit depth taken
  | .found => AtHead depth taken σ.queue.posted c ∧ σ.queue.phase = lapBit depth taken ∧
      σ.consumed.length = taken ∧ taken < σ.queue.posted.length
  | .copied => AtHead depth taken σ.queue.posted c ∧ σ.queue.phase = lapBit depth taken ∧
      σ.consumed.length = taken + 1 ∧ Copied σ.queue.posted taken c
  | .toggledPhase => AtHead depth taken σ.queue.posted c ∧ σ.queue.phase = lapBit depth (taken + 1) ∧
      σ.consumed.length = taken + 1 ∧ Copied σ.queue.posted taken c
  | .storedHead | .rangDoorbell => ∃ n < taken, c.head = n % depth ∧ σ.queue.posted.length ≤ n + depth ∧
      Copied σ.queue.posted n c

structure Matched (depth taken rung : Nat) (reader : Option Thread) (σ : AdminState Thread) : Prop where
  wired : σ.queue.Wired depth rung
  head : σ.queue.completionHead = taken % depth
  told : rung ≤ taken
  behind : taken ≤ σ.queue.posted.length
  idle : reader = none → σ.queue.phase = lapBit depth taken ∧ σ.consumed.length = taken
  one : ∀ thread, (∃ c, σ.call thread = some c ∧ c.stage.reading = true) ↔ reader = some thread
  calls : ∀ thread c, σ.call thread = some c → Placed depth taken σ c
  consumed : (σ.consumed.map fun x => x.2.serial) = (σ.queue.posted.take σ.consumed.length).map Prod.fst
  own : ∀ x ∈ σ.consumed, x.2.serial = x.1
  success : ∀ r ∈ σ.returns, r.status = .success →
    ∃ e, r.completion = some e ∧ e.serial = r.serial ∧ e.status = 0
  judged : ∀ r ∈ σ.returns, ∀ e, r.judged = some e → e.serial = r.serial

section Moves
variable {depth taken rung : Nat} {reader : Option Thread} {σ τ : AdminState Thread} {thread : Thread} {c : AdminCall}

theorem Matched.sound (matched : Matched depth taken rung reader σ) : σ.Sound where
  own := matched.own
  once := by
    rw [matched.consumed]
    have distinct := matched.wired.serials.nodup_iff.mpr nodup_range
    exact (nodup_append.mp distinct).1.sublist ((take_sublist _ _).map _)
  success := matched.success
  judged := matched.judged

theorem Placed.congr (posted : τ.queue.posted = σ.queue.posted) (phase : τ.queue.phase = σ.queue.phase)
    (consumed : τ.consumed = σ.consumed) (placed : Placed depth taken σ c) : Placed depth taken τ c := by
  unfold Placed at placed ⊢
  rw [posted, phase, consumed]
  exact placed

theorem Placed.later (aside : c.stage.reading = false) (posted : τ.queue.posted = σ.queue.posted)
    (later : taken ≤ taken') (placed : Placed depth taken σ c) : Placed depth taken' τ c := by
  unfold Placed at placed ⊢
  cases stage : c.stage <;> simp only [stage, AdminStage.reading, Bool.true_eq_false] at aside placed ⊢
  · obtain ⟨n, before, rest⟩ := placed
    rw [posted]
    exact ⟨n, Nat.lt_of_lt_of_le before later, rest⟩
  · obtain ⟨n, before, rest⟩ := placed
    rw [posted]
    exact ⟨n, Nat.lt_of_lt_of_le before later, rest⟩

theorem Matched.entry_at_head (matched : Matched depth taken rung reader σ) (posted : taken < σ.queue.posted.length) :
    σ.queue.posted[taken]? = some ((σ.queue.completion (taken % depth)).serial, (σ.queue.completion (taken % depth)).status) :=
  (matched.wired.entry posted (by
    have := matched.wired.space
    have := matched.told
    omega)).1

theorem AtHead.same (at_head : AtHead depth taken posted c) (head : d.head = c.head) (serial : d.serial = c.serial) :
    AtHead depth taken posted d := ⟨head.trans at_head.head, fun e found => serial ▸ at_head.own e found⟩

theorem Matched.fetch (matched : Matched depth taken rung reader σ) (fetched : σ.queue.fetch depth = some q) :
    Matched depth taken rung reader ({ σ with queue := q } : AdminState Thread) := by
  have wired := matched.wired.fetch fetched
  simp only [NvmeQueue.fetch, ite_none_left_eq_some, map_eq_some_iff] at fetched
  obtain ⟨-, entry, -, rfl⟩ := fetched
  exact ⟨wired, matched.head, matched.told, matched.behind, matched.idle, matched.one,
    fun t d found => (matched.calls t d found).congr rfl rfl rfl, matched.consumed, matched.own, matched.success,
    matched.judged⟩

theorem Copied.post (copied : Copied posted n c) : Copied (posted ++ more) n c := by
  obtain ⟨e, copy, own, here⟩ := copied
  refine ⟨e, copy, own, ?_⟩
  rw [List.getElem?_append_left (List.getElem?_eq_some_iff.mp here).1]
  exact here

theorem AtHead.post (at_head : AtHead depth taken posted c)
    (own : taken % depth = posted.length % depth → x.1 = c.serial) : AtHead depth taken (posted ++ [x]) c := by
  refine ⟨at_head.head, fun e found => ?_⟩
  rcases Nat.lt_or_ge taken posted.length with before | after
  · rw [List.getElem?_append_left before] at found
    exact at_head.own e found
  · have last : taken = posted.length := by
      have small := (List.getElem?_eq_some_iff.mp found).1
      simp only [List.length_append, List.length_singleton] at small
      omega
    rw [last, List.getElem?_concat_length] at found
    rw [← some.inj found]
    exact own (by rw [last])

theorem Matched.posted_apart {i n : Nat} {x : Nat × NvmeCommand} {y : Nat × BitVec 15}
    (matched : Matched depth taken rung reader σ) (found : σ.queue.executing[i]? = some x)
    (here : σ.queue.posted[n]? = some y) : x.1 ≠ y.1 := by
  have distinct := matched.wired.serials.nodup_iff.mpr nodup_range
  have apart := (nodup_append.mp distinct).2.2 y.1 (mem_map_of_mem (mem_of_getElem? here))
    x.1 (mem_map_of_mem (mem_of_getElem? found))
  exact fun same => apart same.symm

theorem Placed.post {i : Nat} (placed : Placed depth taken σ c) (matched : Matched depth taken rung reader σ)
    {entry : Nat × NvmeCommand} (found : σ.queue.executing[i]? = some entry)
    (own : c.stage ≠ .submitted → c.head = σ.queue.completionTail →
      ∀ x, σ.queue.executing[i]? = some x → x.1 = c.serial)
    (posted : τ.queue.posted = σ.queue.posted ++ [(entry.1, status)]) (phase : τ.queue.phase = σ.queue.phase)
    (consumed : τ.consumed = σ.consumed) : Placed depth taken τ c := by
  unfold Placed at placed ⊢
  have tail := matched.wired.completionTail
  rw [posted, phase, consumed]
  cases stage : c.stage <;>
    simp only [stage, ne_eq, reduceCtorEq, not_false_eq_true, forall_const] at placed own ⊢
  case readHead =>
    obtain ⟨at_head, rest⟩ := placed
    exact ⟨at_head.post fun same => own (at_head.head.trans (same.trans tail.symm)) entry found, rest⟩
  case polling =>
    obtain ⟨at_head, rest⟩ := placed
    exact ⟨at_head.post fun same => own (at_head.head.trans (same.trans tail.symm)) entry found, rest⟩
  case found =>
    obtain ⟨at_head, phase, length, before⟩ := placed
    refine ⟨at_head.post fun same => own (at_head.head.trans (same.trans tail.symm)) entry found, phase, length, ?_⟩
    simp only [length_append]
    omega
  case copied =>
    obtain ⟨at_head, phase, length, copy⟩ := placed
    exact ⟨at_head.post fun same => own (at_head.head.trans (same.trans tail.symm)) entry found, phase, length, copy.post⟩
  case toggledPhase =>
    obtain ⟨at_head, phase, length, copy⟩ := placed
    exact ⟨at_head.post fun same => own (at_head.head.trans (same.trans tail.symm)) entry found, phase, length, copy.post⟩
  all_goals
    obtain ⟨n, before, head, near, copy⟩ := placed
    refine ⟨n, before, head, ?_, copy.post⟩
    obtain ⟨e, -, serial, here⟩ := copy
    rw [length_append, length_singleton]
    refine Nat.lt_of_le_of_ne near fun full => matched.posted_apart found here ?_
    rw [full, Nat.add_mod_right, ← head] at tail
    exact (own tail.symm entry found).trans serial.symm

theorem Matched.post (matched : Matched depth taken rung reader σ) (meets : σ.Meets depth (.post i status))
    (posted : σ.queue.post depth i status = some q) :
    Matched depth taken rung reader ({ σ with queue := q } : AdminState Thread) := by
  have wired := matched.wired.post posted
  simp only [NvmeQueue.post, ite_none_left_eq_some, map_eq_some_iff] at posted
  obtain ⟨-, entry, found, rfl⟩ := posted
  have behind := matched.behind
  have short : σ.consumed.length ≤ σ.queue.posted.length := by
    have lengths := congrArg length matched.consumed
    simp only [length_map, length_take] at lengths
    omega
  refine ⟨wired, matched.head, matched.told, ?_, matched.idle, matched.one, fun t c running => ?_, ?_, matched.own,
    matched.success, matched.judged⟩
  · simp only [length_append]
    omega
  · have placed := matched.calls t c running
    exact placed.post matched found (meets t c running) rfl rfl rfl
  · rw [matched.consumed]
    simp only [take_append_of_le_length short]

theorem nvmeSetupAdminQueue_matched (positive : 0 < depth) :
    Matched depth 0 0 none (nvmeSetupAdminQueue Thread) where
  wired := NvmeQueue.wired_initial positive
  head := (Nat.zero_mod depth).symm
  told := Nat.le_refl 0
  behind := Nat.le_refl 0
  idle := fun _ => ⟨by simp [nvmeSetupAdminQueue, nvmeInitializeQueueState, lapBit], rfl⟩
  one := fun thread => iff_of_false (fun ⟨c, found, _⟩ => by cases found) (fun same => by cases same)
  calls := fun thread c found => by cases found
  consumed := rfl
  own := fun x found => by cases found
  success := fun r found => by cases found
  judged := fun r found => by cases found

variable [DecidableEq Thread]

section
variable (matched : Matched depth taken rung reader σ)
include matched

theorem Matched.aside (wired : τ.queue.Wired depth rung')
    (told : rung' ≤ taken) (posted : τ.queue.posted = σ.queue.posted) (phase : τ.queue.phase = σ.queue.phase)
    (head : τ.queue.completionHead = σ.queue.completionHead) (consumed : τ.consumed = σ.consumed)
    (call : τ.call = update σ.call thread c') (notReading : reader ≠ some thread)
    (after : ∀ d, c' = some d → d.stage.reading = false ∧ Placed depth taken τ d)
    (success : ∀ r ∈ τ.returns, r.status = .success → ∃ e, r.completion = some e ∧ e.serial = r.serial ∧ e.status = 0)
    (judged : ∀ r ∈ τ.returns, ∀ e, r.judged = some e → e.serial = r.serial) : Matched depth taken rung' reader τ where
  wired := wired
  head := head.trans matched.head
  told := told
  behind := posted ▸ matched.behind
  idle := fun none => by
    rw [phase, consumed]
    exact matched.idle none
  one := fun other => by
    rw [call]
    by_cases same : other = thread
    · rw [same, update_self]
      refine iff_of_false ?_ notReading
      rintro ⟨d, found, reading⟩
      rw [(after d found).1] at reading
      cases reading
    · rw [update_of_ne same]
      exact matched.one other
  calls := fun other d found => by
    rw [call] at found
    by_cases same : other = thread
    · rw [same, update_self] at found
      exact (after d found).2
    · rw [update_of_ne same] at found
      exact (matched.calls other d found).congr posted phase consumed
  consumed := by
    rw [consumed, posted]
    exact matched.consumed
  own := by
    rw [consumed]
    exact matched.own
  success := success
  judged := judged

theorem Matched.atHead (wired : τ.queue.Wired depth rung)
    (posted : τ.queue.posted = σ.queue.posted) (head : τ.queue.completionHead = taken' % depth)
    (later : taken ≤ taken') (behind : taken' ≤ σ.queue.posted.length)
    (call : τ.call = update σ.call thread c') (alone : ∀ other, other ≠ thread → reader ≠ some other)
    (alone' : ∀ other, other ≠ thread → reader' ≠ some other)
    (idle : reader' = none → τ.queue.phase = lapBit depth taken' ∧ τ.consumed.length = taken')
    (role : (∃ d, c' = some d ∧ d.stage.reading = true) ↔ reader' = some thread)
    (after : ∀ d, c' = some d → Placed depth taken' τ d)
    (consumed : (τ.consumed.map fun x => x.2.serial) = (σ.queue.posted.take τ.consumed.length).map Prod.fst)
    (own : ∀ x ∈ τ.consumed, x.2.serial = x.1) (returns : ∀ r ∈ τ.returns, r ∈ σ.returns ∨ r.status ≠ .success ∧ r.judged = none) :
    Matched depth taken' rung reader' τ where
  wired := wired
  head := head
  told := Nat.le_trans matched.told later
  behind := posted ▸ behind
  idle := idle
  one := fun other => by
    rw [call]
    by_cases same : other = thread
    · rw [same, update_self]
      exact role
    · rw [update_of_ne same, matched.one other]
      exact iff_of_false (alone other same) (alone' other same)
  calls := fun other d found => by
    rw [call] at found
    by_cases same : other = thread
    · rw [same, update_self] at found
      exact after d found
    · rw [update_of_ne same] at found
      have aside : d.stage.reading = false := by
        rw [← Bool.not_eq_true]
        exact fun reading => alone other same ((matched.one other).mp ⟨d, found, reading⟩)
      exact (matched.calls other d found).later aside posted later
  consumed := posted ▸ consumed
  own := own
  success := fun r found succeeds => by
    rcases returns r found with old | failed
    · exact matched.success r old succeeds
    · exact absurd succeeds failed.1
  judged := fun r found e judged => by
    rcases returns r found with old | failed
    · exact matched.judged r old e judged
    · rw [failed.2] at judged
      cases judged

theorem Matched.proceed (found : σ.call thread = some c) (meets : σ.Meets depth (.proceed thread)) :
    ∃ taken' rung' reader', Matched depth taken' rung' reader' (σ.proceed depth ms thread c) := by
  have placed := matched.calls thread c found
  have role := (matched.one thread).mp
  have others : ∀ {other : Thread}, other ≠ thread → some thread ≠ some other := fun differs same =>
    differs (some.inj same).symm
  unfold Placed at placed
  unfold AdminState.proceed
  cases stage : c.stage <;> simp only [stage] at placed ⊢
  case submitted =>
    obtain ⟨unread, own⟩ := (meets c found).1 stage
    have free : reader = none := by
      cases held : reader with
      | none => rfl
      | some other =>
        obtain ⟨d, running, reading⟩ := (matched.one other).mpr held
        rw [unread other d running] at reading
        cases reading
    subst free
    obtain ⟨phase, length⟩ := matched.idle rfl
    refine ⟨taken, rung, some thread, matched.atHead matched.wired rfl matched.head (Nat.le_refl _) matched.behind rfl
      (fun _ _ same => by cases same) (fun other => others) (fun same => by cases same)
      (iff_of_true ⟨_, rfl, rfl⟩ rfl) (fun d same => ?_) matched.consumed matched.own (fun r old => .inl old)⟩
    cases same
    refine ⟨⟨matched.head, fun e here => ?_⟩, phase, length⟩
    have posted := (List.getElem?_eq_some_iff.mp here).1
    have current := (matched.wired.current_iff matched.behind matched.told).mpr posted
    rw [← matched.head, ← phase] at current
    have entry := matched.entry_at_head posted
    rw [← matched.head] at entry
    rw [← some.inj (entry.symm.trans here)]
    exact own current
  case readHead =>
    obtain ⟨at_head, phase, length⟩ := placed
    have reads := role ⟨c, found, by rw [stage]; rfl⟩
    subst reads
    refine ⟨taken, rung, some thread, matched.atHead matched.wired rfl matched.head (Nat.le_refl _) matched.behind rfl
      (fun other => others) (fun other => others) (fun same => by cases same)
      (iff_of_true ⟨_, rfl, rfl⟩ rfl) (fun d same => ?_) matched.consumed matched.own (fun r old => .inl old)⟩
    cases same
    exact ⟨at_head.same rfl rfl, phase, length, phase⟩
  case polling =>
    obtain ⟨at_head, phase, length, expected⟩ := placed
    have reads := role ⟨c, found, by rw [stage]; rfl⟩
    subst reads
    split_ifs with current late
    · refine ⟨taken, rung, some thread, matched.atHead matched.wired rfl matched.head (Nat.le_refl _) matched.behind rfl
        (fun other => others) (fun other => others) (fun same => by cases same)
        (iff_of_true ⟨_, rfl, rfl⟩ rfl) (fun d same => ?_) matched.consumed matched.own (fun r old => .inl old)⟩
      cases same
      rw [at_head.head, expected] at current
      exact ⟨at_head.same rfl rfl, phase, length, (matched.wired.current_iff matched.behind matched.told).mp current⟩
    · refine ⟨taken, rung, none, matched.atHead matched.wired rfl matched.head (Nat.le_refl _) matched.behind rfl
        (fun other => others) (fun _ _ same => by cases same) (fun _ => ⟨phase, length⟩)
        (iff_of_false (fun ⟨_, same, _⟩ => by cases same) (fun same => by cases same))
        (fun d same => by cases same) matched.consumed matched.own (fun r found => ?_)⟩
      rcases List.mem_cons.mp found with new | old
      · rw [new]
        exact .inr ⟨AdminStatus.noConfusion, rfl⟩
      · exact .inl old
    · refine ⟨taken, rung, some thread, matched.atHead matched.wired rfl matched.head (Nat.le_refl _) matched.behind rfl
        (fun other => others) (fun other => others) (fun same => by cases same)
        (iff_of_true ⟨_, rfl, rfl⟩ rfl) (fun d same => ?_) matched.consumed matched.own (fun r old => .inl old)⟩
      cases same
      exact ⟨at_head.same rfl rfl, phase, length, expected⟩
  case found =>
    obtain ⟨at_head, phase, length, posted⟩ := placed
    have reads := role ⟨c, found, by rw [stage]; rfl⟩
    subst reads
    have entry := matched.entry_at_head posted
    rw [← at_head.head] at entry
    have own := at_head.own _ entry
    refine ⟨taken, rung, some thread, matched.atHead matched.wired rfl matched.head (Nat.le_refl _) matched.behind rfl
      (fun other => others) (fun other => others) (fun same => by cases same)
      (iff_of_true ⟨_, rfl, rfl⟩ rfl) (fun d same => ?_) ?_ (fun x member => ?_) (fun r old => .inl old)⟩
    · cases same
      refine ⟨at_head.same rfl rfl, phase, ?_, _, rfl, own, entry⟩
      simp only [List.length_append, List.length_singleton, length]
    · simp only [List.map_append, List.map_cons, List.map_nil, List.length_append, List.length_singleton,
        List.take_add_one, ← matched.consumed]
      rw [length, entry]
      rfl
    · rcases List.mem_append.mp member with old | new
      · exact matched.own x old
      · rw [List.mem_singleton.mp new]
        exact own
  case copied =>
    obtain ⟨at_head, phase, length, copy⟩ := placed
    have reads := role ⟨c, found, by rw [stage]; rfl⟩
    subst reads
    refine ⟨taken, rung, some thread, matched.atHead ?_ rfl matched.head (Nat.le_refl _) matched.behind rfl
      (fun other => others) (fun other => others) (fun same => by cases same)
      (iff_of_true ⟨_, rfl, rfl⟩ rfl) (fun d same => ?_) matched.consumed matched.own (fun r old => .inl old)⟩
    · exact matched.wired.quiet
    · cases same
      refine ⟨at_head.same rfl rfl, ?_, length, copy⟩
      simp only [at_head.head, slot_succ, phase]
      exact lapBit_succ.symm
  case toggledPhase =>
    obtain ⟨at_head, phase, length, copy⟩ := placed
    have reads := role ⟨c, found, by rw [stage]; rfl⟩
    subst reads
    obtain ⟨e, copied, own, posted⟩ := copy
    have here := (List.getElem?_eq_some_iff.mp posted).1
    refine ⟨taken + 1, rung, none, matched.atHead ?_ rfl ?_ (Nat.le_succ _) here rfl
      (fun other => others) (fun _ _ same => by cases same) (fun _ => ⟨phase, length⟩)
      (iff_of_false (fun ⟨d, same, reading⟩ => ?_) (fun same => by cases same)) (fun d same => ?_)
      matched.consumed matched.own (fun r old => .inl old)⟩
    · exact matched.wired.quiet
    · simp only [at_head.head, slot_succ]
    · cases same
      cases reading
    · cases same
      refine ⟨taken, Nat.lt_succ_self _, at_head.head, ?_, e, copied, own, posted⟩
      have := matched.wired.space
      have := matched.told
      simp only
      omega
  case storedHead =>
    have moved := (meets c found).2 stage
    have notReading : reader ≠ some thread := fun reads => by
      obtain ⟨d, running, reading⟩ := (matched.one thread).mpr reads
      cases found.symm.trans running
      rw [stage] at reading
      cases reading
    refine ⟨taken, taken, reader, matched.aside ?_ (Nat.le_refl _) rfl rfl rfl rfl rfl notReading (fun d same => ?_)
      matched.success matched.judged⟩
    · have rings := matched.wired.host matched.told matched.behind (h := σ.queue.completionHead) (b := σ.queue.phase)
      rw [matched.head.symm.trans moved] at rings
      exact rings
    · cases same
      exact ⟨rfl, placed⟩
  case rangDoorbell =>
    obtain ⟨n, before, head, near, e, copied, own, posted⟩ := placed
    have notReading : reader ≠ some thread := fun reads => by
      obtain ⟨d, running, reading⟩ := (matched.one thread).mpr reads
      cases found.symm.trans running
      rw [stage] at reading
      cases reading
    have entry := (matched.wired.entry (List.getElem?_eq_some_iff.mp posted).1 near).1
    rw [← head, posted] at entry
    obtain ⟨serial, status⟩ := Prod.mk.inj (some.inj entry)
    refine ⟨taken, rung, reader, matched.aside matched.wired matched.told rfl rfl rfl rfl rfl notReading
      (fun d same => by cases same) (fun r member succeeds => ?_) (fun r member e' judged => ?_)⟩
    · rcases List.mem_cons.mp member with new | old
      · subst new
        refine ⟨e, copied, own, ?_⟩
        rw [status]
        by_contra failed
        simp only [if_neg failed] at succeeds
        cases succeeds
      · exact matched.success r old succeeds
    · rcases List.mem_cons.mp member with new | old
      · subst new
        cases judged
        rw [← serial]
        exact own
      · exact matched.judged r old e' judged

theorem Matched.submit (free : σ.call thread = none)
    (room : σ.queue.submitted.length + 1 < σ.queue.fetched + depth) :
    Matched depth taken rung reader ({ σ.setCall thread (some ⟨.submitted, σ.queue.submitted.length, 0, false, 0, none⟩) with
      queue := σ.queue.submit depth command } : AdminState Thread) := by
  refine matched.aside (matched.wired.submit room) matched.told rfl rfl rfl rfl rfl (fun reads => ?_) (fun d same => ?_)
    matched.success matched.judged
  · obtain ⟨d, running, -⟩ := (matched.one thread).mpr reads
    rw [free] at running
    cases running
  · cases same
    exact ⟨rfl, trivial⟩

theorem Matched.step (meets : σ.Meets depth a)
    (stepped : σ.step depth ms a = some τ) : ∃ taken' rung' reader', Matched depth taken' rung' reader' τ := by
  cases a with
  | submit thread command =>
    simp only [AdminState.step, ite_none_right_eq_some, some.injEq] at stepped
    obtain ⟨free, rfl⟩ := stepped
    exact ⟨taken, rung, reader, matched.submit (by simpa using free) meets⟩
  | proceed thread =>
    obtain ⟨c, found, rfl⟩ := map_eq_some_iff.mp stepped
    exact matched.proceed found meets
  | fetch =>
    obtain ⟨q, fetched, rfl⟩ := map_eq_some_iff.mp stepped
    exact ⟨taken, rung, reader, matched.fetch fetched⟩
  | post i status =>
    obtain ⟨q, posted, rfl⟩ := map_eq_some_iff.mp stepped
    exact ⟨taken, rung, reader, matched.post meets posted⟩

end

/-- In every run whose steps meet the condition, each call gets the completion of its own
command. -/
theorem admin_calls_sound (readyTimeoutMs : UInt32) (actions : List (AdminAction Thread))
    (meets : Along (Meets nvmeAdminQueueDepth) (step nvmeAdminQueueDepth readyTimeoutMs)
      (nvmeSetupAdminQueue Thread) actions)
    (executed : exec (step nvmeAdminQueueDepth readyTimeoutMs) (nvmeSetupAdminQueue Thread) actions = some τ) :
    τ.Sound := by
  obtain ⟨taken, rung, reader, matched⟩ := exec_preserves
    (P := fun σ => ∃ taken rung reader, Matched nvmeAdminQueueDepth taken rung reader σ)
    (fun ⟨_, _, _, matched⟩ met stepped => matched.step met stepped)
    ⟨0, 0, none, nvmeSetupAdminQueue_matched (by decide)⟩ meets executed
  exact matched.sound

def overlappingCalls : List (AdminAction Bool) :=
  [.submit false ⟨6, 0, 0, 0, 0, 1, 0, 0⟩, .submit true ⟨5, 1, 0, 0, 0, 0, 0, 0⟩, .fetch, .fetch, .post 0 0] ++
    List.replicate 6 (.proceed false) ++ List.replicate 3 (.proceed true) ++ [.proceed false, .post 0 2] ++
    List.replicate 3 (.proceed true) ++ [.proceed false] ++ List.replicate 3 (.proceed true)

/-- Two calls at the same time. The second one polls the next entry before the first one has rung the
doorbell, and fails. -/
theorem admin_calls_sound_overlap : ∃ τ,
    exec (step nvmeAdminQueueDepth 1) (nvmeSetupAdminQueue Bool) overlappingCalls = some τ ∧
    τ.returns.map (fun r => (r.serial, r.status)) = [(1, .ioDeviceError), (0, .success)] ∧ τ.Sound :=
  ⟨_, rfl, by decide, admin_calls_sound 1 overlappingCalls (by decide +kernel) rfl⟩

/-- The second of two commands ends first, and the call of the first takes its completion. -/
theorem admin_completion_of_another : ∃ τ, exec (step nvmeAdminQueueDepth 1) (nvmeSetupAdminQueue Bool)
    ([.submit false ⟨6, 0, 0, 0, 0, 1, 0, 0⟩, .submit true ⟨5, 1, 0, 0, 0, 0, 0, 0⟩, .fetch, .fetch, .post 1 0] ++
      List.replicate 8 (.proceed false)) = some τ ∧
    (τ.returns.map fun r => (r.serial, r.status, r.completion.map (·.serial))) = [(0, .success, some 1)] ∧ ¬ τ.Sound :=
  ⟨_, rfl, by decide, fun sound => absurd (sound.own (0, _) (by exact mem_cons_self)) (by decide)⟩

end Moves
end AdminState
end VeaOS.Nvme

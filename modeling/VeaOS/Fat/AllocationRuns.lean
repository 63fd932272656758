import VeaOS.Fat.ClusterAllocation

/-! Runs of threads that allocate clusters. Where no entry or sector changes between
its read and its write, every cluster that is given away was free, goes to one
caller, and its own entries are all that changes. -/
namespace VeaOS.Fat
open Foundation Transition AllocState List Option Vcb

section Entries
variable {vcb : Vcb} {disk : Disk} {copy cluster x : Nat}

theorem setNext_endOfChain (oldVal : Nat) : setNext oldVal endOfChain % 0x10000000 = 0x0FFFFFFF := by
  rw [setNext, endOfChain]
  omega

theorem next_withNext (formed : vcb.WellFormed) (known : cluster < vcb.totalClusters + 2)
    (inside : copy < vcb.numberOfFats) (x_known : x < vcb.totalClusters + 2) (used : vcb.next disk x ≠ 0) :
    vcb.next (vcb.withNext disk copy cluster endOfChain) x ≠ 0 := by
  by_cases here : 0 = copy ∧ x = cluster
  · obtain ⟨rfl, rfl⟩ := here
    rw [Vcb.next, entry_withNext, setNext_endOfChain]
    decide
  · have other : 0 ≠ copy ∨ x ≠ cluster := by
      by_contra both
      exact here ⟨by omega, by omega⟩
    rw [Vcb.next, entry_withNext_other formed known x_known inside formed.tables other]
    exact used

end Entries

section Invariant
variable {vcb : Vcb} {d0 : Disk} {σ σ' : AllocState}

structure Searched (vcb : Vcb) (disk : Disk) (start cluster : Nat) (skipped : List Nat) : Prop where
  first : 2 ≤ start
  within : start ≤ cluster
  seen : ∀ x, start ≤ x → x < cluster → x < vcb.totalClusters → x ∈ skipped ∨ vcb.next disk x ≠ 0

/-- The phase of a call and the sector that it has read. -/
def AllocPhase.Sound (vcb : Vcb) (disk : Disk) : AllocPhase → Prop
  | .idle => True
  | .scan start cluster skipped => Searched vcb disk start cluster skipped ∧ cluster < vcb.totalClusters
  | .change start cluster skipped => Searched vcb disk start cluster skipped ∧ cluster < vcb.totalClusters
  | .write start cluster skipped found copy =>
    Searched vcb disk start cluster skipped ∧ cluster < vcb.totalClusters ∧ copy < vcb.numberOfFats ∧
      vcb.entryIn found cluster % 0x10000000 = 0

/-- The cluster whose entry a call has written to the copies before this one. -/
def AllocPhase.written : AllocPhase → Option (Nat × Nat)
  | .write _ cluster _ _ copy => if copy = 0 then none else some (cluster, copy)
  | _ => none

/-- The entry of the cluster is changed in the copy. -/
def AllocState.Taken (σ : AllocState) (copy cluster : Nat) : Prop :=
  cluster ∈ σ.returned ∨ ∃ t upTo, (σ.phases t).written = some (cluster, upTo) ∧ copy < upTo

structure AllocInv (vcb : Vcb) (d0 : Disk) (σ : AllocState) : Prop where
  once : σ.returned.Nodup
  range : ∀ c ∈ σ.returned, 2 ≤ c ∧ c < vcb.totalClusters
  apart : ∀ t c upTo, (σ.phases t).written = some (c, upTo) → c ∉ σ.returned ∧
    ∀ t' upTo', (σ.phases t').written = some (c, upTo') → t' = t
  free : ∀ copy c, copy < vcb.numberOfFats → σ.Taken copy c → vcb.next d0 c = 0
  marked : ∀ copy c, copy < vcb.numberOfFats → σ.Taken copy c →
    vcb.entry σ.disk copy c = setNext (vcb.entry d0 copy c) endOfChain
  others : ∀ lba i, (∀ copy c, copy < vcb.numberOfFats → σ.Taken copy c →
    ¬ (vcb.entryPointer copy c).Spans 4 lba i) → σ.disk lba i = d0 lba i
  phases : ∀ t, (σ.phases t).Sound vcb σ.disk
  full : σ.diskFull = true → ∀ x, x < vcb.totalClusters + 2 → 2 ≤ x → vcb.next σ.disk x ≠ 0

namespace Searched
variable {disk disk' : Disk} {start cluster : Nat} {skipped : List Nat}

theorem mono (searched : Searched vcb disk start cluster skipped)
    (used : ∀ x, x < vcb.totalClusters + 2 → vcb.next disk x ≠ 0 → vcb.next disk' x ≠ 0) :
    Searched vcb disk' start cluster skipped where
  first := searched.first
  within := searched.within
  seen x low high inside := (searched.seen x low high inside).imp_right (used x (by omega))

theorem further (searched : Searched vcb disk start cluster skipped) (more : skipped ⊆ skipped')
    (here : cluster ∈ skipped' ∨ vcb.next disk cluster ≠ 0) :
    Searched vcb disk start (cluster + 1) skipped' where
  first := searched.first
  within := Nat.le_succ_of_le searched.within
  seen x low high inside := by
    by_cases same : x = cluster
    · rw [same]
      exact here
    · exact (searched.seen x low (by omega) inside).imp_left fun member => more member

end Searched

theorem AllocPhase.Sound.mono {phase : AllocPhase} {disk disk' : Disk} (sound : phase.Sound vcb disk)
    (used : ∀ x, x < vcb.totalClusters + 2 → vcb.next disk x ≠ 0 → vcb.next disk' x ≠ 0) :
    phase.Sound vcb disk' := by
  cases phase with
  | idle => trivial
  | scan | change | write => exact ⟨sound.1.mono used, sound.2⟩

namespace AllocState

@[simp] theorem setPhase_self (σ : AllocState) (t : Nat) (phase : AllocPhase) :
    (σ.setPhase t phase).phases t = phase := Function.update_self _ _ _

theorem setPhase_of_ne {t t' : Nat} (σ : AllocState) (phase : AllocPhase) (other : t' ≠ t) :
    (σ.setPhase t phase).phases t' = σ.phases t' := Function.update_of_ne other _ _

end AllocState

namespace AllocInv
variable {t start cluster copy c : Nat} {skipped : List Nat}

theorem taken_range (inv : AllocInv vcb d0 σ) (taken : σ.Taken copy c) : c < vcb.totalClusters := by
  rcases taken with given | ⟨t, upTo, written, -⟩
  · exact (inv.range c given).2
  · have sound := inv.phases t
    cases phase : σ.phases t with
    | write start cluster skipped found at_ =>
      rw [phase] at sound written
      rw [AllocPhase.written] at written
      split_ifs at written
      obtain ⟨rfl, -⟩ := Prod.mk.inj (some.inj written)
      exact sound.2.1
    | _ =>
      rw [phase] at written
      cases written

theorem untaken (inv : AllocInv vcb d0 σ) (formed : vcb.WellFormed) (known : c < vcb.totalClusters + 2)
    (inside : copy < vcb.numberOfFats) (none : ¬ σ.Taken copy c) :
    vcb.entry σ.disk copy c = vcb.entry d0 copy c := by
  rw [entry, Memory.readBytes_congr fun lba i spans => inv.others lba i fun copy' c' inside' taken spans' => ?_,
    entry]
  have below := inv.taken_range taken
  obtain ⟨rfl, rfl⟩ := entryPointer_inj formed known (by omega) inside inside' spans spans'
  exact none taken

theorem setPhase (inv : AllocInv vcb d0 σ) {phase : AllocPhase} (same : phase.written = (σ.phases t).written)
    (sound : phase.Sound vcb σ.disk) : AllocInv vcb d0 (σ.setPhase t phase) := by
  have writtens : ∀ t', ((σ.setPhase t phase).phases t').written = (σ.phases t').written := fun t' => by
    by_cases here : t' = t
    · rw [here, setPhase_self, same]
    · rw [setPhase_of_ne σ phase here]
  have taken : ∀ copy c, (σ.setPhase t phase).Taken copy c → σ.Taken copy c := fun copy c taken => by
    rcases taken with given | ⟨t', upTo, written, below⟩
    · exact .inl given
    · exact .inr ⟨t', upTo, (writtens t').symm.trans written, below⟩
  have takenBack : ∀ copy c, σ.Taken copy c → (σ.setPhase t phase).Taken copy c := fun copy c taken => by
    rcases taken with given | ⟨t', upTo, written, below⟩
    · exact .inl given
    · exact .inr ⟨t', upTo, (writtens t').trans written, below⟩
  exact {
    once := inv.once
    range := inv.range
    apart := fun t' c upTo written => by
      rw [writtens] at written
      obtain ⟨fresh, alone⟩ := inv.apart t' c upTo written
      exact ⟨fresh, fun t'' upTo' written' => alone t'' upTo' ((writtens t'').symm.trans written')⟩
    free := fun copy c inside now => inv.free copy c inside (taken copy c now)
    marked := fun copy c inside now => inv.marked copy c inside (taken copy c now)
    others := fun lba i outside => inv.others lba i fun copy c inside before =>
      outside copy c inside (takenBack copy c before)
    phases := fun t' => by
      by_cases here : t' = t
      · rw [here, setPhase_self]
        exact sound
      · rw [setPhase_of_ne σ phase here]
        exact inv.phases t'
    full := inv.full }

theorem search (inv : AllocInv vcb d0 σ) (unwritten : (σ.phases t).written = none)
    (searched : Searched vcb σ.disk start cluster skipped) (ends : σ.EndsFull vcb start cluster skipped) :
    AllocInv vcb d0 (σ.search vcb t start cluster skipped) := by
  rw [AllocState.search]
  by_cases more : cluster < vcb.totalClusters
  · rw [if_pos more]
    exact inv.setPhase unwritten.symm ⟨searched, more⟩
  · rw [if_neg more]
    have idle : AllocInv vcb d0 (σ.setPhase t .idle) := inv.setPhase unwritten.symm trivial
    exact { idle with
      full := fun _ x known low => by
        by_cases outside : x < start ∨ vcb.totalClusters ≤ x ∨ x ∈ skipped
        · exact ends (Nat.le_of_not_lt more) x known low outside
        · have seen := searched.seen x (by omega) (by omega) (by omega)
          exact seen.resolve_left fun member => outside (.inr (.inr member)) }

theorem wrote (inv : AllocInv vcb d0 σ) (formed : vcb.WellFormed) (inside : copy < vcb.numberOfFats)
    (known : cluster < vcb.totalClusters) (untaken : ¬ σ.Taken copy cluster) (free : vcb.next d0 cluster = 0)
    (disk : σ'.disk = vcb.withNext σ.disk copy cluster endOfChain) (full : σ'.diskFull = σ.diskFull)
    (taken : ∀ f c, f < vcb.numberOfFats → (σ'.Taken f c ↔ σ.Taken f c ∨ f = copy ∧ c = cluster))
    (once : σ'.returned.Nodup) (range : ∀ c ∈ σ'.returned, 2 ≤ c ∧ c < vcb.totalClusters)
    (apart : ∀ t c upTo, (σ'.phases t).written = some (c, upTo) → c ∉ σ'.returned ∧
      ∀ t' upTo', (σ'.phases t').written = some (c, upTo') → t' = t)
    (phases : ∀ t, (σ'.phases t).Sound vcb σ'.disk) : AllocInv vcb d0 σ' where
  once := once
  range := range
  apart := apart
  free f c below now := by
    rcases (taken f c below).mp now with before | ⟨-, rfl⟩
    · exact inv.free f c below before
    · exact free
  marked f c below now := by
    rw [disk]
    rcases (taken f c below).mp now with before | ⟨rfl, rfl⟩
    · have other : f ≠ copy ∨ c ≠ cluster := by
        by_contra both
        obtain ⟨rfl, rfl⟩ : f = copy ∧ c = cluster := ⟨by omega, by omega⟩
        exact untaken before
      have range := inv.taken_range before
      rw [entry_withNext_other formed (by omega) (by omega) inside below other]
      exact inv.marked f c below before
    · rw [entry_withNext, inv.untaken formed (by omega) below untaken]
  others lba i outside := by
    rw [disk, withNext_outside (outside copy cluster inside ((taken copy cluster inside).mpr (.inr ⟨rfl, rfl⟩)))]
    exact inv.others lba i fun f c below before => outside f c below ((taken f c below).mpr (.inl before))
  phases := phases
  full was x small low := by
    rw [disk]
    exact next_withNext formed (by omega) inside small (inv.full (full ▸ was) x small low)

end AllocInv

/-- A call that is about to change the entry of a cluster in a copy: it has changed
the copies before it, and no other call has changed an entry of the cluster. -/
structure WritesNext (vcb : Vcb) (d0 : Disk) (σ : AllocState) (t cluster copy : Nat) : Prop where
  inside : copy < vcb.numberOfFats
  known : 2 ≤ cluster ∧ cluster < vcb.totalClusters
  untaken : ¬ σ.Taken copy cluster
  free : vcb.next d0 cluster = 0
  alone : ∀ t' upTo, (σ.phases t').written = some (cluster, upTo) → t' = t
  own : (σ.phases t).written = if copy = 0 then none else some (cluster, copy)

namespace WritesNext
variable {t cluster copy : Nat}

theorem own_eq (writes : WritesNext vcb d0 σ t cluster copy) (there : (σ.phases t).written = some (c, upTo)) :
    c = cluster ∧ upTo = copy := by
  rw [writes.own] at there
  split_ifs at there
  obtain ⟨rfl, rfl⟩ := Prod.mk.inj (some.inj there)
  exact ⟨rfl, rfl⟩

theorem before (writes : WritesNext vcb d0 σ t cluster copy) (below : f < copy) : σ.Taken f cluster := by
  refine .inr ⟨t, copy, ?_, below⟩
  rw [writes.own, if_neg (by omega)]

theorem of_inv (inv : AllocInv vcb d0 σ) (formed : vcb.WellFormed)
    (phase : σ.phases t = .write start cluster skipped found copy)
    (unchanged : vcb.readSector σ.disk (vcb.targetFatLba cluster copy) = found) :
    WritesNext vcb d0 σ t cluster copy := by
  have sound := inv.phases t
  rw [phase] at sound
  obtain ⟨searched, known, inside, zero⟩ := sound
  rw [← unchanged, entryIn_readSector formed] at zero
  have untaken : ¬ σ.Taken copy cluster := fun taken => by
    rw [inv.marked copy cluster inside taken, setNext_endOfChain] at zero
    cases zero
  have own : (σ.phases t).written = if copy = 0 then none else some (cluster, copy) := by
    rw [phase, AllocPhase.written]
  exact {
    inside := inside
    known := ⟨Nat.le_trans searched.first searched.within, known⟩
    untaken := untaken
    free := by
      by_cases first : copy = 0
      · subst first
        rw [Vcb.next, ← inv.untaken formed (by omega) inside untaken]
        exact zero
      · rw [if_neg first] at own
        exact inv.free 0 cluster formed.tables (.inr ⟨t, copy, own, by omega⟩)
    alone := fun t' upTo there => by
      by_cases first : copy = 0
      · have positive : 0 < upTo := by
          cases other : σ.phases t' with
          | write start c skipped found k =>
            rw [other, AllocPhase.written] at there
            split_ifs at there
            obtain ⟨-, rfl⟩ := Prod.mk.inj (some.inj there)
            omega
          | _ =>
            rw [other] at there
            cases there
        exact absurd (.inr ⟨t', upTo, there, by omega⟩) untaken
      · rw [if_neg first] at own
        exact (inv.apart t cluster copy own).2 t' upTo there
    own := own }

theorem more (writes : WritesNext vcb d0 σ t cluster copy) (inv : AllocInv vcb d0 σ) (formed : vcb.WellFormed)
    (disk : σ'.disk = vcb.withNext σ.disk copy cluster endOfChain) (full : σ'.diskFull = σ.diskFull)
    (returned : σ'.returned = σ.returned) (now : (σ'.phases t).written = some (cluster, copy + 1))
    (kept : ∀ t', t' ≠ t → σ'.phases t' = σ.phases t') (sound : (σ'.phases t).Sound vcb σ'.disk) :
    AllocInv vcb d0 σ' := by
  have fresh : cluster ∉ σ.returned := fun given => writes.untaken (.inl given)
  refine inv.wrote formed writes.inside writes.known.2 writes.untaken writes.free disk full
    (fun f c below => ⟨?_, ?_⟩) (returned ▸ inv.once) (returned ▸ inv.range) (fun t' c upTo there => ?_) fun t' => ?_
  · rintro (given | ⟨t', upTo, there, before⟩)
    · exact .inl (.inl (returned ▸ given))
    · by_cases self : t' = t
      · rw [self, now] at there
        obtain ⟨rfl, rfl⟩ := Prod.mk.inj (some.inj there)
        by_cases last : f = copy
        · exact .inr ⟨last, rfl⟩
        · exact .inl (writes.before (by omega))
      · rw [kept t' self] at there
        exact .inl (.inr ⟨t', upTo, there, before⟩)
  · rintro ((given | ⟨t', upTo, there, before⟩) | ⟨rfl, rfl⟩)
    · exact .inl (returned ▸ given)
    · by_cases self : t' = t
      · rw [self] at there
        obtain ⟨rfl, rfl⟩ := writes.own_eq there
        exact .inr ⟨t, upTo + 1, now, by omega⟩
      · exact .inr ⟨t', upTo, (congrArg AllocPhase.written (kept t' self)).trans there, before⟩
    · exact .inr ⟨t, f + 1, now, by omega⟩
  · rw [returned]
    by_cases self : t' = t
    · rw [self, now] at there
      obtain ⟨rfl, rfl⟩ := Prod.mk.inj (some.inj there)
      refine ⟨fresh, fun t'' upTo' there' => ?_⟩
      by_cases other : t'' = t
      · rw [other, self]
      · rw [kept t'' other] at there'
        exact absurd (writes.alone t'' upTo' there') other
    · rw [kept t' self] at there
      obtain ⟨fresh', alone⟩ := inv.apart t' c upTo there
      refine ⟨fresh', fun t'' upTo' there' => ?_⟩
      by_cases other : t'' = t
      · rw [other, now] at there'
        obtain ⟨rfl, rfl⟩ := Prod.mk.inj (some.inj there')
        exact absurd (writes.alone t' upTo there) self
      · rw [kept t'' other] at there'
        exact alone t'' upTo' there'
  · by_cases self : t' = t
    · rw [self]
      exact sound
    · rw [kept t' self, disk]
      have known := writes.known
      exact (inv.phases t').mono fun x small used => next_withNext formed (by omega) writes.inside small used

theorem last (writes : WritesNext vcb d0 σ t cluster copy) (inv : AllocInv vcb d0 σ) (formed : vcb.WellFormed)
    (disk : σ'.disk = vcb.withNext σ.disk copy cluster endOfChain) (full : σ'.diskFull = σ.diskFull)
    (returned : σ'.returned = cluster :: σ.returned) (idle : σ'.phases t = .idle)
    (ends : vcb.numberOfFats ≤ copy + 1) (kept : ∀ t', t' ≠ t → σ'.phases t' = σ.phases t') :
    AllocInv vcb d0 σ' := by
  have fresh : cluster ∉ σ.returned := fun given => writes.untaken (.inl given)
  have none : (σ'.phases t).written = none := by
    rw [idle]
    rfl
  refine inv.wrote formed writes.inside writes.known.2 writes.untaken writes.free disk full
    (fun f c below => ⟨?_, ?_⟩) ?_ (fun c given => ?_) (fun t' c upTo there => ?_) fun t' => ?_
  · rintro (given | ⟨t', upTo, there, before⟩)
    · rw [returned] at given
      rcases mem_cons.mp given with rfl | old
      · by_cases last : f = copy
        · exact .inr ⟨last, rfl⟩
        · exact .inl (writes.before (by omega))
      · exact .inl (.inl old)
    · by_cases self : t' = t
      · rw [self, none] at there
        cases there
      · rw [kept t' self] at there
        exact .inl (.inr ⟨t', upTo, there, before⟩)
  · rintro ((given | ⟨t', upTo, there, before⟩) | ⟨-, rfl⟩)
    · exact .inl (returned ▸ mem_cons_of_mem _ given)
    · by_cases self : t' = t
      · rw [self] at there
        obtain ⟨rfl, -⟩ := writes.own_eq there
        exact .inl (returned ▸ mem_cons_self)
      · exact .inr ⟨t', upTo, (congrArg AllocPhase.written (kept t' self)).trans there, before⟩
    · exact .inl (returned ▸ mem_cons_self)
  · rw [returned]
    exact nodup_cons.mpr ⟨fresh, inv.once⟩
  · rw [returned] at given
    rcases mem_cons.mp given with rfl | old
    · exact writes.known
    · exact inv.range c old
  · by_cases self : t' = t
    · rw [self, none] at there
      cases there
    · rw [kept t' self] at there
      obtain ⟨fresh', alone⟩ := inv.apart t' c upTo there
      refine ⟨fun given => ?_, fun t'' upTo' there' => ?_⟩
      · rw [returned] at given
        rcases mem_cons.mp given with rfl | old
        · exact self (writes.alone t' upTo there)
        · exact fresh' old
      · by_cases other : t'' = t
        · rw [other, none] at there'
          cases there'
        · rw [kept t'' other] at there'
          exact alone t'' upTo' there'
  · by_cases self : t' = t
    · rw [self, idle]
      trivial
    · rw [kept t' self, disk]
      have known := writes.known
      exact (inv.phases t').mono fun x small used => next_withNext formed (by omega) writes.inside small used

end WritesNext

namespace AllocInv
variable {t start cluster copy : Nat} {skipped : List Nat}

theorem write (inv : AllocInv vcb d0 σ) (formed : vcb.WellFormed) {found : List Byte}
    (phase : σ.phases t = .write start cluster skipped found copy)
    (unchanged : vcb.readSector σ.disk (vcb.targetFatLba cluster copy) = found) :
    AllocInv vcb d0 (writeNext vcb { σ with
      disk := writeSector σ.disk (vcb.targetFatLba cluster copy) (vcb.withEntry found cluster endOfChain) }
      t start cluster skipped found (copy + 1)) := by
  have writes := WritesNext.of_inv inv formed phase unchanged
  have sound := inv.phases t
  rw [phase] at sound
  obtain ⟨searched, known, inside, zero⟩ := sound
  have disk : writeSector σ.disk (vcb.targetFatLba cluster copy) (vcb.withEntry found cluster endOfChain) =
      vcb.withNext σ.disk copy cluster endOfChain := by
    rw [← unchanged, writeSector_withEntry formed, withNext]
  have kept : ∀ (τ : AllocState), τ.phases = σ.phases → ∀ phase t', t' ≠ t → (τ.setPhase t phase).phases t' = σ.phases t' :=
    fun τ same phase t' other => (setPhase_of_ne τ phase other).trans (congrFun same t')
  rw [writeNext]
  by_cases more : copy + 1 < vcb.numberOfFats
  · rw [if_pos more]
    refine writes.more inv formed disk rfl rfl ?_ (kept _ rfl _) ?_
    · rw [setPhase_self]
      rfl
    · rw [setPhase_self]
      refine ⟨searched.mono fun x small used => ?_, known, more, zero⟩
      rw [disk]
      exact next_withNext formed (by omega) inside small used
  · rw [if_neg more]
    exact writes.last inv formed disk rfl rfl (setPhase_self _ _ _) (Nat.le_of_not_lt more) (kept _ rfl _)

theorem startSearch_ge (vcb : Vcb) (σ : AllocState) : 2 ≤ σ.startSearch vcb := by
  rw [startSearch]
  split_ifs with hint
  · exact hint.1
  · exact Nat.le_refl 2

theorem step (inv : AllocInv vcb d0 σ) (formed : vcb.WellFormed) {a : AllocStep} (admitted : σ.Admits vcb a)
    (stepped : σ.step vcb a = some σ') : AllocInv vcb d0 σ' := by
  cases a with
  | enter t =>
    cases phase : σ.phases t with
    | idle =>
      rw [AllocState.step, phase] at stepped
      rw [AllocState.Admits, phase] at admitted
      obtain rfl := Option.some.inj stepped
      refine inv.search (by rw [phase]; rfl) ⟨startSearch_ge vcb σ, Nat.le_refl _, fun x low high => ?_⟩ admitted
      exact absurd low (Nat.not_le_of_lt high)
    | _ =>
      rw [AllocState.step, phase] at stepped
      cases stepped
  | readNext t succeeds =>
    cases phase : σ.phases t with
    | scan start cluster skipped =>
      have sound := inv.phases t
      rw [phase] at sound
      have unwritten : (σ.phases t).written = none := by
        rw [phase]
        rfl
      rw [AllocState.step, phase] at stepped
      rw [AllocState.Admits, phase] at admitted
      cases succeeds with
      | false =>
        obtain rfl := Option.some.inj stepped
        exact inv.search unwritten
          (sound.1.further (List.subset_cons_self _ _) (.inl List.mem_cons_self))
          (admitted.resolve_left fun both => Bool.false_ne_true both.1)
      | true =>
        by_cases free : vcb.next σ.disk cluster = 0
        · have stepped : some _ = some σ' := (if_pos free).symm.trans stepped
          obtain rfl := Option.some.inj stepped
          exact inv.setPhase unwritten.symm sound
        · have stepped : some _ = some σ' := (if_neg free).symm.trans stepped
          obtain rfl := Option.some.inj stepped
          exact inv.search unwritten (sound.1.further (List.Subset.refl _) (.inr free))
            (admitted.resolve_left fun both => free both.2)
    | _ =>
      rw [AllocState.step, phase] at stepped
      cases stepped
  | readEntry t succeeds =>
    cases phase : σ.phases t with
    | change start cluster skipped =>
      have sound := inv.phases t
      rw [phase] at sound
      have unwritten : (σ.phases t).written = none := by
        rw [phase]
        rfl
      rw [AllocState.step, phase] at stepped
      rw [AllocState.Admits, phase] at admitted
      cases succeeds with
      | false =>
        obtain rfl := Option.some.inj stepped
        exact inv.search unwritten
          (sound.1.further (List.subset_cons_self _ _) (.inl List.mem_cons_self)) admitted
      | true =>
        obtain rfl := Option.some.inj stepped
        rw [AllocState.writeNext, if_pos formed.tables]
        refine inv.setPhase unwritten.symm ⟨sound.1, sound.2, formed.tables, ?_⟩
        rw [Vcb.entryIn_readSector formed]
        exact admitted
    | _ =>
      rw [AllocState.step, phase] at stepped
      cases stepped
  | writeEntry t succeeds =>
    cases phase : σ.phases t with
    | write start cluster skipped found copy =>
      have sound := inv.phases t
      rw [phase] at sound
      rw [AllocState.step, phase] at stepped
      rw [AllocState.Admits, phase] at admitted
      cases succeeds with
      | false =>
        obtain ⟨rfl, ends⟩ := admitted
        obtain rfl := Option.some.inj stepped
        exact inv.search (by rw [phase]; rfl)
          (sound.1.further (List.subset_cons_self _ _) (.inl List.mem_cons_self)) ends
      | true =>
        obtain rfl := Option.some.inj stepped
        exact inv.write formed phase admitted
    | _ =>
      rw [AllocState.step, phase] at stepped
      cases stepped

end AllocInv
end Invariant

def quietVolume (d0 : Disk) (nextFreeCluster : Nat) : AllocState := ⟨d0, nextFreeCluster, fun _ => .idle, [], false⟩

theorem quietVolume_inv (vcb : Vcb) (d0 : Disk) (nextFreeCluster : Nat) :
    AllocInv vcb d0 (quietVolume d0 nextFreeCluster) := by
  have none : ∀ copy c, ¬ (quietVolume d0 nextFreeCluster).Taken copy c := by
    rintro copy c (given | ⟨t, upTo, written, -⟩)
    · cases given
    · cases written
  exact {
    once := nodup_nil
    range := forall_mem_nil _
    apart := fun t c upTo written => by cases written
    free := fun copy c _ taken => absurd taken (none copy c)
    marked := fun copy c _ taken => absurd taken (none copy c)
    others := fun _ _ _ => rfl
    phases := fun _ => trivial
    full := fun full => by cases full }

/-- What every run of admitted steps leaves: each cluster that is given away was free
and has one owner, its entries are marked in every copy with their upper bits kept,
nothing else changes, and the disk is full where that is reported. -/
theorem cluster_allocation {vcb : Vcb} (formed : vcb.WellFormed) {d0 : Disk} {nextFreeCluster : Nat}
    {steps : List AllocStep} {σ : AllocState}
    (admitted : Along (AllocState.Admits vcb) (AllocState.step vcb) (quietVolume d0 nextFreeCluster) steps)
    (executed : exec (AllocState.step vcb) (quietVolume d0 nextFreeCluster) steps = some σ) :
    σ.returned.Nodup ∧
    (∀ c ∈ σ.returned, 2 ≤ c ∧ c < vcb.totalClusters ∧ vcb.next d0 c = 0) ∧
    (∀ copy c, copy < vcb.numberOfFats → σ.Taken copy c →
      vcb.entry σ.disk copy c = setNext (vcb.entry d0 copy c) endOfChain) ∧
    (∀ lba i, (∀ copy c, copy < vcb.numberOfFats → σ.Taken copy c → ¬ (vcb.entryPointer copy c).Spans 4 lba i) →
      σ.disk lba i = d0 lba i) ∧
    (σ.diskFull = true → ∀ x, x < vcb.totalClusters + 2 → 2 ≤ x → vcb.next σ.disk x ≠ 0) := by
  have inv : AllocInv vcb d0 σ := exec_preserves
    (fun inv admitted stepped => AllocInv.step inv formed admitted stepped)
    (quietVolume_inv vcb d0 nextFreeCluster) admitted executed
  refine ⟨inv.once, fun c given => ?_, inv.marked, inv.others, inv.full⟩
  obtain ⟨low, high⟩ := inv.range c given
  exact ⟨low, high, inv.free 0 c formed.tables (.inl given)⟩

def smallVolume (totalClusters : Nat) : Vcb where
  bytesPerSector := 512
  sectorsPerCluster := 1
  numberOfFats := 2
  fatSizeSectors := 1
  rootDirStartCluster := 2
  fatStartLba := 32
  dataStartLba := 34
  totalClusters := totalClusters

def blankDisk : Disk := fun _ _ => 0

theorem smallVolume_formed : (smallVolume 4).WellFormed :=
  ⟨by decide, by decide, by decide, by decide, by decide, by decide, by decide⟩

theorem Vcb.readSector_other {vcb : Vcb} {disk : Disk} {buffer : List Byte} (apart : lba' ≠ lba) :
    vcb.readSector (writeSector disk lba buffer) lba' = vcb.readSector disk lba' :=
  Memory.readBytes_congr fun _ _ spans => Memory.writeBytes_block (spans.1 ▸ apart)

theorem Vcb.readSector_written {vcb : Vcb} {disk : Disk} {buffer : List Byte}
    (whole : buffer.length = vcb.bytesPerSector) :
    vcb.readSector (writeSector disk lba buffer) lba = buffer := by
  have same : (writeSector disk lba buffer).readBytes ⟨lba, 0⟩ buffer.length = buffer :=
    Memory.readBytes_writeBytes
  rwa [whole] at same

/-- Two threads, one of which passes by the first cluster because it cannot read its entry. -/
def twoCalls : List AllocStep :=
  [.enter 0, .enter 1, .readNext 1 false, .readNext 0 true, .readNext 1 true, .readEntry 0 true,
    .writeEntry 0 true, .writeEntry 0 true, .readEntry 1 true, .writeEntry 1 true, .writeEntry 1 true]

theorem cluster_allocation_two :
    ∃ σ, exec (AllocState.step (smallVolume 4)) (quietVolume blankDisk 2) twoCalls = some σ ∧
      σ.returned = [3, 2] ∧ σ.returned.Nodup ∧
      ∀ copy c, copy < 2 → σ.Taken copy c →
        (smallVolume 4).entry σ.disk copy c = setNext ((smallVolume 4).entry blankDisk copy c) endOfChain := by
  have executed : exec (step (smallVolume 4)) (quietVolume blankDisk 2) twoCalls = some _ := rfl
  have admitted : Along (Admits (smallVolume 4)) (step (smallVolume 4))
      (quietVolume blankDisk 2) twoCalls := by
    refine ⟨fun full => absurd full (by decide), fun σ stepped => ?_⟩
    obtain rfl := some.inj stepped
    refine ⟨fun full => absurd full (by decide), fun σ stepped => ?_⟩
    obtain rfl := some.inj stepped
    refine ⟨.inr fun full => absurd full (by decide), fun σ stepped => ?_⟩
    obtain rfl := some.inj stepped
    refine ⟨.inl ⟨rfl, rfl⟩, fun σ stepped => ?_⟩
    obtain rfl := some.inj stepped
    refine ⟨.inl ⟨rfl, rfl⟩, fun σ stepped => ?_⟩
    obtain rfl := some.inj stepped
    refine ⟨rfl, fun σ stepped => ?_⟩
    obtain rfl := some.inj stepped
    refine ⟨rfl, fun σ stepped => ?_⟩
    obtain rfl := some.inj stepped
    refine ⟨(readSector_other (by decide)).trans rfl, fun σ stepped => ?_⟩
    obtain rfl := some.inj stepped
    refine ⟨?_, fun σ stepped => ?_⟩
    · change (smallVolume 4).next _ 3 = 0
      decide +kernel
    obtain rfl := some.inj stepped
    refine ⟨rfl, fun σ stepped => ?_⟩
    obtain rfl := some.inj stepped
    refine ⟨(readSector_other (by decide)).trans ?_, fun σ stepped => trivial⟩
    refine (readSector_written ?_).trans ((readSector_other (by decide)).trans (readSector_written ?_)).symm
    · decide +kernel
    · decide +kernel
  obtain ⟨once, -, marked, -⟩ := cluster_allocation smallVolume_formed admitted executed
  exact ⟨_, executed, rfl, once, marked⟩

/-- The last two clusters are never given away, and two calls that read an entry
before either writes it are given the same cluster. -/
theorem full_and_shared :
    (∃ σ, exec (AllocState.step (smallVolume 2)) (quietVolume blankDisk 2) [.enter 0] = some σ ∧
      σ.diskFull = true ∧ (smallVolume 2).next σ.disk 2 = 0 ∧ (smallVolume 2).next σ.disk 3 = 0) ∧
    ∃ σ, exec (AllocState.step (smallVolume 4)) (quietVolume blankDisk 2)
        [.enter 0, .enter 1, .readNext 0 true, .readNext 1 true, .readEntry 0 true, .readEntry 1 true,
          .writeEntry 0 true, .writeEntry 0 true, .writeEntry 1 true, .writeEntry 1 true] = some σ ∧
      σ.returned = [2, 2] :=
  ⟨⟨_, rfl, rfl, rfl, rfl⟩, _, rfl, rfl⟩

end VeaOS.Fat

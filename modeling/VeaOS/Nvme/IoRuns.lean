import VeaOS.Foundation.Places
import VeaOS.Foundation.Runs
import VeaOS.Nvme.IoQueue

/-! Over every interleaving of requests, completions and handlers, the identifiers in
flight are distinct, no submission is overwritten, and every accepted request is completed
once with the outcome of its own command. -/
namespace VeaOS.Nvme
open Foundation Transition Function IoState List
variable {Thread Oip : Type*}

def IoAction.OfHandler : IoAction Thread Oip → Prop
  | .processIoCompletion _ | .nextEntry _ | .completeRequest _ => True
  | .readWrite _ _ | .fetch | .post _ _ => False

/-- The steps that a thread still has to take until it can start to drain, when a
completion waits and when none does. -/
def Handler.left (waits : Bool) : Handler Oip → Nat
  | .idle => if waits then 4 else 1
  | .draining _ => 2
  | .completing _ => if waits then 5 else 1

theorem Handler.left_mono (h : Handler Oip) {waits waits' : Bool} (later : waits = true → waits' = true) :
    h.left waits ≤ h.left waits' := by
  cases h <;> cases waits <;> cases waits' <;> simp_all [Handler.left]

theorem Handler.left_le (h : Handler Oip) (waits : Bool) : h.left waits ≤ 5 := by
  cases h <;> cases waits <;> simp [Handler.left]

namespace IoState

/-- The submissions whose completions were consumed. -/
def ended (σ : IoState Thread Oip) : List Nat := (σ.queue.posted.take σ.taken).map Prod.fst

def InFlight (σ : IoState Thread Oip) (n : Nat) : Prop := n < σ.queue.submitted.length ∧ n ∉ σ.ended

def used (σ : IoState Thread Oip) : List Nat :=
  (List.range nvmeIoQueueDepth).filter fun k => (σ.ioRequests k).isSome

/-- The request of a context is the one accepted with its submission. -/
def Entered (σ : IoState Thread Oip) (context : RequestContext Oip) : Prop :=
  ∃ request, σ.accepted[context.serial]? = some request ∧ request.oip = context.oip ∧
    request.length = context.length

/-- The completion of a request whose command ended with the status. -/
def Fulfils (σ : IoState Thread Oip) (r : Completed Oip) : Prop :=
  ∃ request status, σ.accepted[r.serial]? = some request ∧ (r.serial, status) ∈ σ.queue.posted ∧ r.oip = request.oip ∧
    (status = 0 → r.status = .success ∧ r.information = request.length) ∧
    (status ≠ 0 → r.status = .ioDeviceError ∧ r.information = 0)

/-- What holds in every state: in flight an identifier names one command, the counter is
that of the slots in use, the commands not yet fetched are in their slots, the handler
goes on exactly as long as a completion waits, which is the oldest, its arrays have room,
and of the requests accepted each is in flight, with a handler or completed, which it is
once. -/
structure Sound (σ : IoState Thread Oip) : Prop where
  identifiers : ∀ m n c d, σ.InFlight m → σ.InFlight n → σ.queue.submitted[m]? = some c →
    σ.queue.submitted[n]? = some d → c.commandId = d.commandId → m = n
  active : σ.activeIoCommands = σ.used.length
  limit : σ.activeIoCommands ≤ nvmeIoQueueUsableEntries
  kept : Window nvmeIoQueueDepth σ.queue.submission
    (fun n e => ∃ c, σ.queue.submitted[n]? = some c ∧ e = some (n, c)) σ.queue.fetched σ.queue.submitted.length
  current : (σ.queue.completion σ.queue.completionHead).phase = σ.queue.phase ↔ σ.taken < σ.queue.posted.length
  oldest : σ.taken < σ.queue.posted.length →
    NvmeQueue.Records σ.queue.submitted σ.queue.posted σ.taken (σ.queue.completion σ.queue.completionHead)
  arrays : ∀ thread done, σ.handler thread = .draining done → done.length < nvmeIoQueueDepth
  everyone : ∀ n < σ.accepted.length, σ.InFlight n ∨ (∃ thread, ∃ x ∈ (σ.handler thread).batch, x.1.serial = n) ∨
    ∃ r ∈ σ.completed, r.serial = n
  once : (σ.completed.map (·.serial)).Nodup
  later : ∀ thread, ∀ x ∈ (σ.handler thread).batch, ¬ σ.InFlight x.1.serial ∧ ∀ r ∈ σ.completed, r.serial ≠ x.1.serial
  own : ∀ r ∈ σ.completed, σ.Fulfils r

/-- The step of a handler at the head of its loop: an entry of the current phase is
consumed, which frees the slot of its identifier and keeps its status with the request of
the slot; at any other entry the lock is released. -/
def Handles [DecidableEq Thread] (σ : IoState Thread Oip) (thread : Thread) (τ : IoState Thread Oip) : Prop :=
  let entry := σ.queue.completion σ.queue.completionHead
  ∃ done, σ.handler thread = .draining done ∧
    if entry.phase = σ.queue.phase then
      ∃ context, σ.queue.posted[σ.taken]? = some (context.serial, entry.status) ∧
        σ.ioRequests entry.commandId.toNat = some context ∧
        τ.ioRequests = Function.update σ.ioRequests entry.commandId.toNat none ∧
        τ.handler = Function.update σ.handler thread (.draining (done ++ [(context, entry.status)])) ∧
        τ.queue.completionHead = (σ.queue.completionHead + 1) % nvmeIoQueueDepth ∧ τ.taken = σ.taken + 1 ∧
        τ.holder = σ.holder
    else
      τ.ioRequests = σ.ioRequests ∧ τ.handler = Function.update σ.handler thread (.completing done) ∧
        τ.queue = σ.queue ∧ τ.taken = σ.taken ∧ τ.holder = none

/-- Boundedly many steps of handlers complete every request whose completion is posted. -/
def Drains [DecidableEq Thread] (σ : IoState Thread Oip) : Prop :=
  Nonempty Thread → ∃ actions τ, (∀ a ∈ actions, a.OfHandler) ∧ actions.length ≤ 2 * σ.queue.posted.length + 6 ∧
    Run (fun σ a τ => σ.step a = some τ) σ actions τ ∧ ∀ x ∈ σ.queue.posted, ∃ r ∈ τ.completed, r.serial = x.1

/-- Where the requests are whose completions were consumed. -/
def place (σ : IoState Thread Oip) : Option Thread → List Nat
  | none => σ.completed.map (·.serial)
  | some thread => (σ.handler thread).batch.map (·.1.serial)

/-- The context is in use under the identifier of its command, which is in flight. -/
structure InSlot (σ : IoState Thread Oip) (k : Nat) (context : RequestContext Oip) : Prop where
  inside : k < nvmeIoQueueDepth
  inFlight : σ.InFlight context.serial
  identifier : ∃ c, σ.queue.submitted[context.serial]? = some c ∧ c.commandId.toNat = k
  entered : σ.Entered context

structure Served (σ : IoState Thread Oip) : Prop where
  wired : σ.queue.Wired nvmeIoQueueDepth σ.taken
  head : σ.queue.completionHead = σ.taken % nvmeIoQueueDepth
  phase : σ.queue.phase = lapBit nvmeIoQueueDepth σ.taken
  accepted : σ.accepted.length = σ.queue.submitted.length
  count : σ.queue.submitted.length = σ.taken + σ.activeIoCommands
  active : σ.activeIoCommands = σ.used.length
  limit : σ.activeIoCommands ≤ nvmeIoQueueUsableEntries
  slots : ∀ k context, σ.ioRequests k = some context → σ.InSlot k context
  listed : ∀ n, σ.InFlight n → ∃ k context, σ.ioRequests k = some context ∧ context.serial = n
  places : Shared σ.place (· ∈ σ.ended)
  batches : ∀ thread, ∀ x ∈ (σ.handler thread).batch, (x.1.serial, x.2) ∈ σ.queue.posted ∧ σ.Entered x.1
  completed : ∀ r ∈ σ.completed, σ.Fulfils r
  drained : ∀ thread done, σ.handler thread = .draining done →
    σ.holder = some thread ∧ done.length + σ.activeIoCommands ≤ nvmeIoQueueUsableEntries

section Invariant
variable {σ τ : IoState Thread Oip} {thread : Thread} {n k : Nat}

theorem Served.posted_distinct (served : σ.Served) : (σ.queue.posted.map Prod.fst).Nodup :=
  (nodup_append.mp (served.wired.serials.nodup_iff.mpr nodup_range)).1

theorem Served.posted_lt (served : σ.Served) (member : n ∈ σ.queue.posted.map Prod.fst) :
    n < σ.queue.submitted.length := by
  have range := served.wired.serials.mem_iff.mp (mem_append_left _ member)
  exact Nat.lt_of_lt_of_le (mem_range.mp range) served.wired.behind

theorem Served.sound (served : σ.Served) : σ.Sound where
  identifiers := fun m n c d first second found found' same => by
    obtain ⟨k, context, slot, rfl⟩ := served.listed m first
    obtain ⟨k', context', slot', rfl⟩ := served.listed n second
    obtain ⟨c', command, rfl⟩ := (served.slots k context slot).identifier
    obtain ⟨d', command', rfl⟩ := (served.slots k' context' slot').identifier
    cases found.symm.trans command
    cases found'.symm.trans command'
    rw [same, slot'] at slot
    rw [Option.some.inj slot]
  active := served.active
  limit := served.limit
  kept := served.wired.pending
  current := by
    rw [served.head, served.phase]
    exact served.wired.current_iff served.wired.told (Nat.le_refl _)
  oldest := fun waits => by
    rw [served.head]
    exact served.wired.entry waits (by
      have := served.wired.space
      omega)
  arrays := fun thread done draining => by
    have few := (served.drained thread done draining).2
    exact Nat.lt_of_le_of_lt (Nat.le_trans (Nat.le_add_right _ _) few) (by decide)
  everyone := fun n accepted => by
    by_cases gone : n ∈ σ.ended
    · obtain ⟨p, there⟩ := (served.places.all n).mp gone
      cases p with
      | none =>
        obtain ⟨r, member, rfl⟩ := mem_map.mp there
        exact .inr (.inr ⟨r, member, rfl⟩)
      | some thread =>
        obtain ⟨x, member, rfl⟩ := mem_map.mp there
        exact .inr (.inl ⟨thread, x, member, rfl⟩)
    · exact .inl ⟨served.accepted ▸ accepted, gone⟩
  once := served.places.once none
  later := fun thread x member => by
    have there : x.1.serial ∈ σ.place (some thread) := mem_map_of_mem member
    refine ⟨fun flight => flight.2 ((served.places.all _).mpr ⟨_, there⟩), fun r completed same => ?_⟩
    have here : x.1.serial ∈ σ.place none := same ▸ mem_map_of_mem completed
    cases served.places.apart here there
  own := served.completed

/-- The histories of the later state go on from those of the earlier one. -/
structure Extends (σ τ : IoState Thread Oip) : Prop where
  submitted : ∀ {n : Nat} {c}, σ.queue.submitted[n]? = some c → τ.queue.submitted[n]? = some c
  accepted : ∀ {n : Nat} {r}, σ.accepted[n]? = some r → τ.accepted[n]? = some r
  posted : ∀ {x}, x ∈ σ.queue.posted → x ∈ τ.queue.posted

theorem Extends.entered (grows : σ.Extends τ) {context : RequestContext Oip} (entered : σ.Entered context) :
    τ.Entered context := by
  obtain ⟨request, found, same⟩ := entered
  exact ⟨request, grows.accepted found, same⟩

theorem Extends.fulfils (grows : σ.Extends τ) {r : Completed Oip} (fulfils : σ.Fulfils r) : τ.Fulfils r := by
  obtain ⟨request, status, found, posted, same⟩ := fulfils
  exact ⟨request, status, grows.accepted found, grows.posted posted, same⟩

theorem Extends.inSlot (grows : σ.Extends τ) {context : RequestContext Oip} (flight : τ.InFlight context.serial)
    (slot : σ.InSlot k context) : τ.InSlot k context := by
  obtain ⟨c, found, same⟩ := slot.identifier
  exact ⟨slot.inside, flight, ⟨c, grows.submitted found, same⟩, grows.entered slot.entered⟩

theorem Served.controller (served : σ.Served) (wired : τ.queue.Wired nvmeIoQueueDepth σ.taken)
    (submitted : τ.queue.submitted = σ.queue.submitted) (head : τ.queue.completionHead = σ.queue.completionHead)
    (phase : τ.queue.phase = σ.queue.phase) (posted : ∃ more, τ.queue.posted = σ.queue.posted ++ more)
    (taken : τ.taken = σ.taken) (active : τ.activeIoCommands = σ.activeIoCommands)
    (ioRequests : τ.ioRequests = σ.ioRequests) (accepted : τ.accepted = σ.accepted)
    (handler : ∀ thread, (τ.handler thread).batch = (σ.handler thread).batch) (completed : τ.completed = σ.completed)
    (drained : ∀ thread done, τ.handler thread = .draining done →
      τ.holder = some thread ∧ done.length + τ.activeIoCommands ≤ nvmeIoQueueUsableEntries) : τ.Served := by
  obtain ⟨more, posted⟩ := posted
  have ended : τ.ended = σ.ended := by
    rw [ended, ended, posted, taken, take_append_of_le_length served.wired.told]
  have flight : ∀ n, τ.InFlight n ↔ σ.InFlight n := fun n => by rw [InFlight, InFlight, submitted, ended]
  have grows : σ.Extends τ := ⟨fun found => submitted ▸ found, fun found => accepted ▸ found,
    fun found => posted ▸ mem_append_left _ found⟩
  have used : τ.used = σ.used := by rw [used, used, ioRequests]
  have places : ∀ p, τ.place p = σ.place p
    | none => by rw [place, place, completed]
    | some thread => by rw [place, place, handler]
  refine ⟨taken ▸ wired, by rw [head, taken, served.head], by rw [phase, taken, served.phase],
    by rw [accepted, submitted, served.accepted], by rw [submitted, taken, active, served.count],
    by rw [active, used, served.active], active ▸ served.limit, fun k context found => ?_, fun n inFlight => ?_, ?_,
    fun thread x member => ?_, fun r member => ?_, drained⟩
  · rw [ioRequests] at found
    have slot := served.slots k context found
    exact grows.inSlot ((flight _).mpr slot.inFlight) slot
  · rw [ioRequests]
    exact served.listed n ((flight n).mp inFlight)
  · rw [ended]
    exact served.places.congr places
  · rw [handler] at member
    obtain ⟨there, entered⟩ := served.batches thread x member
    exact ⟨grows.posted there, grows.entered entered⟩
  · rw [completed] at member
    exact grows.fulfils (served.completed r member)

theorem findCommandId_spec (found : σ.findCommandId = some k) : k < nvmeIoQueueDepth ∧ σ.ioRequests k = none := by
  obtain ⟨i, -, rfl⟩ := mem_map.mp (mem_of_find?_eq_some found)
  exact ⟨Nat.mod_lt _ (by decide), by simpa using find?_some found⟩

theorem used_update (table : Nat → Option (RequestContext Oip)) (o : Option (RequestContext Oip))
    (inside : k < nvmeIoQueueDepth) :
    ((range nvmeIoQueueDepth).filter fun j => (update table k o j).isSome).length +
        (if (table k).isSome then 1 else 0) =
      ((range nvmeIoQueueDepth).filter fun j => (table j).isSome).length + if o.isSome then 1 else 0 := by
  rw [← length_filter_update (fun j => (table j).isSome) o.isSome nodup_range (mem_range.mpr inside)]
  congr 3
  funext j
  by_cases same : j = k
  · rw [same, update_self, update_self]
  · rw [update_of_ne same, update_of_ne same]

theorem Served.accept (served : σ.Served) (unheld : σ.holder = none) (room : σ.activeIoCommands < nvmeIoQueueUsableEntries)
    (inside : k < nvmeIoQueueDepth) (free : σ.ioRequests k = none) (request : ReadWrite Oip) (command : NvmeCommand)
    (prpList : Bool) : (σ.accept request command prpList k).Served := by
  have lengths := served.wired.serials.length_eq
  simp only [List.length_append, List.length_map, List.length_range] at lengths
  have told := served.wired.told
  have count := served.count
  have limit : σ.activeIoCommands < 63 := room
  have fits : σ.queue.submitted.length + 1 < σ.queue.fetched + nvmeIoQueueDepth := by
    rw [show nvmeIoQueueDepth = 64 from rfl]
    omega
  have fresh : σ.queue.submitted.length ∉ σ.ended := fun member =>
    Nat.lt_irrefl _ (served.posted_lt (((List.take_sublist _ _).map _).subset member))
  have flight : ∀ n, (σ.accept request command prpList k).InFlight n ↔ σ.InFlight n ∨ n = σ.queue.submitted.length := by
    intro n
    change n < (σ.queue.submitted ++ [_]).length ∧ n ∉ σ.ended ↔ (n < σ.queue.submitted.length ∧ n ∉ σ.ended) ∨ _
    rw [List.length_append, List.length_singleton]
    by_cases last : n = σ.queue.submitted.length
    · rw [last]
      exact iff_of_true ⟨Nat.lt_succ_self _, fresh⟩ (.inr rfl)
    · refine ⟨fun ⟨small, apart⟩ => .inl ⟨by omega, apart⟩, ?_⟩
      rintro (⟨small, apart⟩ | same)
      · exact ⟨by omega, apart⟩
      · exact absurd same last
  have grows : σ.Extends (σ.accept request command prpList k) := by
    refine ⟨fun {n c} found => ?_, fun {n r} found => ?_, fun found => found⟩
    · exact (List.getElem?_append_left (List.getElem?_eq_some_iff.mp found).1).trans found
    · exact (List.getElem?_append_left (List.getElem?_eq_some_iff.mp found).1).trans found
  have here : (σ.accept request command prpList k).ioRequests k =
      some ⟨request.oip, prpList, request.length, σ.queue.submitted.length⟩ := Function.update_self ..
  have elsewhere : ∀ {j}, j ≠ k → (σ.accept request command prpList k).ioRequests j = σ.ioRequests j := fun differs =>
    Function.update_of_ne differs _ _
  have used := used_update σ.ioRequests
    (some ⟨request.oip, prpList, request.length, σ.queue.submitted.length⟩) inside
  rw [free] at used
  simp only [Option.isSome_none, Option.isSome_some, ↓reduceIte, Bool.false_eq_true, Nat.add_zero] at used
  refine ⟨served.wired.submit fits, served.head, served.phase, ?_, ?_, ?_, room, fun j context found => ?_,
    fun n inFlight => ?_, served.places, fun thread x member => ?_, fun r member => grows.fulfils (served.completed r member),
    fun thread done draining => ?_⟩
  · simp only [IoState.accept, NvmeQueue.submit, List.length_append, served.accepted, List.length_singleton]
  · simp only [IoState.accept, NvmeQueue.submit, List.length_append, List.length_singleton]
    omega
  · exact (congrArg (· + 1) served.active).trans used.symm
  · by_cases same : j = k
    · rw [same, here] at found
      cases found
      refine ⟨same ▸ inside, (flight _).mpr (.inr rfl), ⟨{ command with commandId := UInt16.ofNat k }, ?_, ?_⟩,
        request, ?_, rfl, rfl⟩
      · exact List.getElem?_concat_length ..
      · rw [same]
        exact (UInt16.toNat_ofNat' ..).trans (Nat.mod_eq_of_lt (Nat.lt_trans inside (by decide)))
      · simp only [IoState.accept, ← served.accepted, List.getElem?_concat_length]
    · rw [elsewhere same] at found
      have slot := served.slots j context found
      exact grows.inSlot ((flight _).mpr (.inl slot.inFlight)) slot
  · rcases (flight n).mp inFlight with old | last
    · obtain ⟨j, context, found, serial⟩ := served.listed n old
      have apart : j ≠ k := fun same => by
        rw [same, free] at found
        cases found
      exact ⟨j, context, (elsewhere apart).trans found, serial⟩
    · exact ⟨k, _, here, last.symm⟩
  · obtain ⟨there, entered⟩ := served.batches thread x member
    exact ⟨there, grows.entered entered⟩
  · have holds := (served.drained thread done draining).1
    rw [unheld] at holds
    cases holds

theorem Served.readWrite (served : σ.Served) (unheld : σ.holder = none) (disk : NvmeDisk) (request : ReadWrite Oip) :
    (σ.readWrite disk request).1.Served := by
  unfold IoState.readWrite
  cases buildCommand disk request with
  | error status => exact served
  | ok built =>
    simp only
    split_ifs with full
    · exact served
    · cases found : σ.findCommandId with
      | none => exact served
      | some k =>
        obtain ⟨inside, free⟩ := findCommandId_spec found
        exact served.accept unheld (Nat.lt_of_not_ge full) inside free request built.1 built.2

theorem Served.fresh_at_head {x : Nat × BitVec 15} (served : σ.Served) (posted : σ.queue.posted[σ.taken]? = some x) :
    x.1 ∉ σ.ended := by
  have distinct := served.posted_distinct
  rw [← take_append_drop σ.taken σ.queue.posted, map_append] at distinct
  have next : x ∈ σ.queue.posted.drop σ.taken := by
    refine mem_of_getElem? (i := 0) ?_
    rw [getElem?_drop]
    exact posted
  exact fun gone => (nodup_append.mp distinct).2.2 x.1 gone x.1 (mem_map_of_mem next) rfl

theorem Served.request_at_head (served : σ.Served)
    (current : (σ.queue.completion σ.queue.completionHead).phase = σ.queue.phase) :
    ∃ context, σ.requestOf (σ.queue.completion σ.queue.completionHead).commandId = some context ∧
      σ.queue.posted[σ.taken]? = some (context.serial, (σ.queue.completion σ.queue.completionHead).status) ∧
      σ.InSlot (σ.queue.completion σ.queue.completionHead).commandId.toNat context ∧
      σ.ioRequests (σ.queue.completion σ.queue.completionHead).commandId.toNat = some context := by
  have waits := served.sound.current.mp current
  obtain ⟨posted, c, found, commandId⟩ := served.sound.oldest waits
  have member := mem_of_getElem? posted
  have flight : σ.InFlight (σ.queue.completion σ.queue.completionHead).serial := by
    exact ⟨served.posted_lt (mem_map_of_mem member), served.fresh_at_head posted⟩
  obtain ⟨k, context, slot, serial⟩ := served.listed _ flight
  have inSlot := served.slots k context slot
  obtain ⟨c', found', rfl⟩ := inSlot.identifier
  rw [serial] at found'
  cases found.symm.trans found'
  rw [← commandId] at inSlot slot
  refine ⟨context, ?_, by rw [serial]; exact posted, inSlot, slot⟩
  rw [requestOf, if_pos inSlot.inside, slot]

theorem outcome_serial (context : RequestContext Oip) (status : BitVec 15) :
    (outcome context status).serial = context.serial := by
  unfold outcome
  split_ifs <;> rfl

theorem Entered.outcome {context : RequestContext Oip} {status : BitVec 15} (entered : σ.Entered context)
    (posted : (context.serial, status) ∈ σ.queue.posted) : σ.Fulfils (outcome context status) := by
  obtain ⟨request, accepted, oip, length⟩ := entered
  refine ⟨request, status, by rwa [outcome_serial], by rwa [outcome_serial], ?_⟩
  unfold IoState.outcome
  split_ifs with zero
  · exact ⟨oip.symm, fun _ => ⟨rfl, length.symm⟩, fun nonzero => absurd zero nonzero⟩
  · exact ⟨oip.symm, fun zero' => absurd zero' zero, fun _ => ⟨rfl, rfl⟩⟩

theorem nvmeCreateIoQueue_served (nextCommandId : UInt16) : (nvmeCreateIoQueue Thread Oip nextCommandId).Served := by
  refine ⟨NvmeQueue.wired_initial (by decide), rfl, ?_, rfl, rfl, ?_, Nat.zero_le _, fun k context found => ?_,
    fun n flight => ?_, ⟨fun p => ?_, fun {p q n} here _ => ?_, fun n => ?_⟩, fun thread x member => ?_, fun r member => ?_,
    fun thread done draining => ?_⟩
  · simp [nvmeCreateIoQueue, nvmeInitializeQueueState, lapBit]
  · exact (congrArg length (filter_eq_nil_iff.mpr fun k _ => Bool.false_ne_true)).symm
  · cases found
  · exact absurd flight.1 (Nat.not_lt_zero n)
  · cases p <;> exact nodup_nil
  · cases p <;> cases here
  · refine iff_of_false (fun gone => by cases gone) ?_
    rintro ⟨p, member⟩
    cases p <;> cases member
  · cases member
  · cases member
  · cases draining

variable [DecidableEq Thread]

theorem setHandler_self {h : Handler Oip} : (σ.setHandler thread h).handler thread = h := update_self ..

theorem setHandler_of_ne {h : Handler Oip} {other : Thread} (differs : other ≠ thread) :
    (σ.setHandler thread h).handler other = σ.handler other := update_of_ne differs _ _

theorem Served.idle (served : σ.Served) {h : Handler Oip} (batch : h.batch = (σ.handler thread).batch)
    (lock : Option Thread) (drained : ∀ done, h = .draining done → lock = some thread ∧ done = [])
    (others : ∀ other, other ≠ thread → σ.holder = some other → lock = some other) :
    ({ σ.setHandler thread h with holder := lock } : IoState Thread Oip).Served := by
  refine served.controller served.wired rfl rfl rfl ⟨[], (append_nil _).symm⟩ rfl rfl rfl rfl (fun other => ?_) rfl
    fun other done draining => ?_
  · by_cases same : other = thread
    · rw [same]
      exact (congrArg Handler.batch setHandler_self).trans batch
    · exact congrArg Handler.batch (setHandler_of_ne same)
  · by_cases same : other = thread
    · rw [same] at draining ⊢
      obtain ⟨holds, rfl⟩ := drained done (setHandler_self.symm.trans draining)
      exact ⟨holds, (Nat.zero_add _).symm ▸ served.limit⟩
    · obtain ⟨holds, few⟩ := served.drained other done ((setHandler_of_ne same).symm.trans draining)
      exact ⟨others other same holds, few⟩

/-- The completion at the head is taken and its request leaves the table. -/
theorem Served.takeRequest {entry : NvmeCompletion} (served : σ.Served)
    (draining : σ.handler thread = .draining done) (posted : σ.queue.posted[σ.taken]? = some (context.serial, entry.status))
    (inSlot : σ.InSlot entry.commandId.toNat context) (slot : σ.ioRequests entry.commandId.toNat = some context) :
    (σ.takeRequest thread done context entry).Served := by
  have waits := (List.getElem?_eq_some_iff.mp posted).1
  have count := served.count
  have active := served.active
  have one : σ.activeIoCommands ≠ 0 := by
    have member : entry.commandId.toNat ∈ σ.used :=
      List.mem_filter.mpr ⟨List.mem_range.mpr inSlot.inside, by rw [slot]; rfl⟩
    have := List.length_pos_of_mem member
    omega
  have ended : (σ.takeRequest thread done context entry).ended = σ.ended ++ [context.serial] := by
    change (σ.queue.posted.take (σ.taken + 1)).map Prod.fst = _
    rw [List.take_add_one, posted, List.map_append]
    rfl
  have flight : ∀ n, (σ.takeRequest thread done context entry).InFlight n ↔ σ.InFlight n ∧ n ≠ context.serial := by
    intro n
    rw [InFlight, ended]
    change n < σ.queue.submitted.length ∧ _ ↔ (n < σ.queue.submitted.length ∧ n ∉ σ.ended) ∧ _
    rw [List.mem_append, List.mem_singleton, not_or, and_assoc]
  have grows : σ.Extends (σ.takeRequest thread done context entry) := ⟨fun found => found, fun found => found, fun found => found⟩
  have here : (σ.takeRequest thread done context entry).ioRequests entry.commandId.toNat = none := Function.update_self ..
  have elsewhere : ∀ {j}, j ≠ entry.commandId.toNat →
      (σ.takeRequest thread done context entry).ioRequests j = σ.ioRequests j := fun differs =>
    Function.update_of_ne differs _ _
  have used := used_update σ.ioRequests none inSlot.inside
  rw [slot] at used
  simp only [Option.isSome_none, Option.isSome_some, ↓reduceIte, Bool.false_eq_true, Nat.add_zero] at used
  have fewer : (σ.takeRequest thread done context entry).activeIoCommands = σ.activeIoCommands - 1 := if_pos one
  have batch : (σ.takeRequest thread done context entry).handler thread =
      .draining (done ++ [(context, entry.status)]) := Function.update_self ..
  have others : ∀ {other}, other ≠ thread → (σ.takeRequest thread done context entry).handler other = σ.handler other :=
    fun differs => Function.update_of_ne differs _ _
  refine ⟨?_, ?_, ?_, served.accepted, ?_, ?_, ?_, fun j c found => ?_, fun n inFlight => ?_, ?_, fun other x member => ?_,
    served.completed, fun other done' draining' => ?_⟩
  · have rings := served.wired.host (h := (σ.queue.completionHead + 1) % nvmeIoQueueDepth)
      (b := if (σ.queue.completionHead + 1) % nvmeIoQueueDepth = 0 then !σ.queue.phase else σ.queue.phase)
      (Nat.le_succ σ.taken) waits
    have next : (σ.taken + 1) % nvmeIoQueueDepth = (σ.queue.completionHead + 1) % nvmeIoQueueDepth := by
      rw [served.head, slot_succ]
    rw [Nat.succ_eq_add_one, next] at rings
    exact rings
  · change (σ.queue.completionHead + 1) % nvmeIoQueueDepth = (σ.taken + 1) % nvmeIoQueueDepth
    rw [served.head, slot_succ]
  · change (if (σ.queue.completionHead + 1) % nvmeIoQueueDepth = 0 then !σ.queue.phase else σ.queue.phase) = _
    rw [served.head, served.phase, slot_succ]
    exact lapBit_succ.symm
  · rw [fewer]
    change σ.queue.submitted.length = σ.taken + 1 + _
    omega
  · rw [fewer]
    change _ = ((List.range nvmeIoQueueDepth).filter fun j =>
      (Function.update σ.ioRequests entry.commandId.toNat none j).isSome).length
    rw [IoState.used] at active
    omega
  · rw [fewer]
    have := served.limit
    omega
  · by_cases same : j = entry.commandId.toNat
    · rw [same, here] at found
      cases found
    · rw [elsewhere same] at found
      have other := served.slots j c found
      refine grows.inSlot ((flight _).mpr ⟨other.inFlight, fun serial => same ?_⟩) other
      obtain ⟨c₁, command₁, rfl⟩ := other.identifier
      obtain ⟨c₂, command₂, identifier⟩ := inSlot.identifier
      rw [serial] at command₁
      cases command₁.symm.trans command₂
      exact identifier
  · obtain ⟨old, differs⟩ := (flight n).mp inFlight
    obtain ⟨j, c, found, serial⟩ := served.listed n old
    refine ⟨j, c, (elsewhere fun same => differs ?_).trans found, serial⟩
    rw [same, slot] at found
    rw [← serial, Option.some.inj found]
  · rw [ended]
    refine ((served.places.add inSlot.inFlight.2 (p := some thread) ?_ fun p differs => ?_).all_congr fun m => ?_)
    · simp only [place, batch, draining, Handler.batch, List.map_append, List.map_cons, List.map_nil]
    · cases p with
      | none => rfl
      | some other => rw [place, place, others fun same => differs (congrArg _ same)]
    · rw [List.mem_append, List.mem_singleton]
  · by_cases same : other = thread
    · rw [same, batch] at member
      rcases List.mem_append.mp member with old | new
      · exact served.batches thread x (by rw [draining]; exact old)
      · rw [List.mem_singleton.mp new]
        exact ⟨List.mem_of_getElem? posted, inSlot.entered⟩
    · rw [others same] at member
      exact served.batches other x member
  · obtain ⟨holds, few⟩ := served.drained thread done draining
    by_cases same : other = thread
    · rw [same, batch] at draining'
      cases draining'
      refine ⟨same ▸ holds, ?_⟩
      rw [fewer, List.length_append, List.length_singleton]
      omega
    · rw [others same] at draining'
      have elsewhere := (served.drained other done' draining').1
      exact absurd (Option.some.inj (elsewhere.symm.trans holds)) same

theorem Served.nextEntry (served : σ.Served) (draining : σ.handler thread = .draining done) :
    (σ.nextEntry thread done).Served := by
  unfold IoState.nextEntry
  by_cases current : (σ.queue.completion σ.queue.completionHead).phase = σ.queue.phase
  · obtain ⟨context, request, posted, inSlot, slot⟩ := served.request_at_head current
    rw [if_neg (not_not.mpr current), request]
    exact served.takeRequest draining posted inSlot slot
  · rw [if_pos current]
    have holds := (served.drained thread done draining).1
    exact served.idle (by rw [draining]; rfl) none (fun _ same => by cases same)
      fun other differs same => absurd (Option.some.inj (same.symm.trans holds)) differs

theorem Served.complete (served : σ.Served) (completing : σ.handler thread = .completing ((context, status) :: rest)) :
    ({ σ.setHandler thread (.completing rest) with completed := outcome context status :: σ.completed } :
      IoState Thread Oip).Served := by
  have batch : (σ.handler thread).batch = (context, status) :: rest := by rw [completing, Handler.batch]
  obtain ⟨posted, entered⟩ := served.batches thread (context, status) (by rw [batch]; exact mem_cons_self)
  refine ⟨served.wired, served.head, served.phase, served.accepted, served.count, served.active, served.limit,
    fun k c found => ?_, served.listed, ?_, fun other x member => ?_, fun r member => ?_, fun other done draining => ?_⟩
  · have slot := served.slots k c found
    exact ⟨slot.inside, slot.inFlight, slot.identifier, slot.entered⟩
  · refine served.places.move (p := some thread) (q := none) (n := context.serial) (Option.some_ne_none thread) ?_ ?_
      fun p apart notNone => ?_
    · have self : (σ.setHandler thread (.completing rest)).handler thread = .completing rest := setHandler_self
      simp only [place, batch, map_cons]
      exact congrArg (context.serial :: ·) (congrArg (fun h => h.batch.map (·.1.serial)) self).symm
    · simp only [place, map_cons, outcome_serial]
    · cases p with
      | none => exact absurd rfl notNone
      | some other =>
        change ((σ.setHandler thread (.completing rest)).handler other).batch.map (·.1.serial) = _
        rw [setHandler_of_ne fun same => apart (congrArg _ same)]
        rfl
  · by_cases same : other = thread
    · rw [same] at member
      change x ∈ ((σ.setHandler thread (.completing rest)).handler thread).batch at member
      rw [setHandler_self] at member
      exact served.batches thread x (by rw [batch]; exact mem_cons_of_mem _ member)
    · change x ∈ ((σ.setHandler thread (.completing rest)).handler other).batch at member
      rw [setHandler_of_ne same] at member
      exact served.batches other x member
  · rcases mem_cons.mp member with new | old
    · rw [new]
      exact entered.outcome posted
    · exact served.completed r old
  · change (σ.setHandler thread (.completing rest)).handler other = _ at draining
    by_cases same : other = thread
    · rw [same, setHandler_self] at draining
      cases draining
    · rw [setHandler_of_ne same] at draining
      exact served.drained other done draining

theorem Served.step (served : σ.Served) (stepped : σ.step a = some τ) : τ.Served := by
  cases a with
  | readWrite disk request =>
    obtain ⟨free, same⟩ := Option.ite_none_right_eq_some.mp stepped
    cases same
    exact served.readWrite (by simpa using free) disk request
  | processIoCompletion thread =>
    simp only [IoState.step] at stepped
    split at stepped
    · rename_i free idle
      cases stepped
      exact served.idle (by rw [idle]; rfl) (some thread) (fun done same => by cases same; exact ⟨rfl, rfl⟩)
        fun other _ same => absurd (free.symm.trans same) (Option.some_ne_none other).symm
    · cases stepped
  | nextEntry thread =>
    simp only [IoState.step] at stepped
    split at stepped
    · rename_i done draining
      cases stepped
      exact served.nextEntry draining
    · cases stepped
  | completeRequest thread =>
    simp only [IoState.step] at stepped
    split at stepped
    · rename_i completing
      cases stepped
      exact served.idle (by rw [completing]; rfl) σ.holder (fun _ same => by cases same) fun _ _ same => same
    · rename_i context status rest completing
      cases stepped
      exact served.complete completing
    · cases stepped
  | fetch =>
    obtain ⟨q, fetched, rfl⟩ := Option.map_eq_some_iff.mp stepped
    have wired := served.wired.fetch fetched
    simp only [NvmeQueue.fetch, Option.ite_none_left_eq_some, Option.map_eq_some_iff] at fetched
    obtain ⟨-, entry, -, rfl⟩ := fetched
    exact served.controller wired rfl rfl rfl ⟨[], (List.append_nil _).symm⟩ rfl rfl rfl rfl (fun _ => rfl) rfl
      served.drained
  | post i status =>
    obtain ⟨q, posted, rfl⟩ := Option.map_eq_some_iff.mp stepped
    have wired := served.wired.post posted
    simp only [NvmeQueue.post, Option.ite_none_left_eq_some, Option.map_eq_some_iff] at posted
    obtain ⟨-, entry, -, rfl⟩ := posted
    exact served.controller wired rfl rfl rfl ⟨_, rfl⟩ rfl rfl rfl rfl (fun _ => rfl) rfl served.drained

theorem Served.handles (served : σ.Served) (stepped : σ.step (.nextEntry thread) = some τ) : σ.Handles thread τ := by
  simp only [IoState.step] at stepped
  split at stepped
  next done draining =>
    obtain rfl := Option.some.inj stepped
    refine ⟨done, draining, ?_⟩
    by_cases current : (σ.queue.completion σ.queue.completionHead).phase = σ.queue.phase
    · obtain ⟨context, request, posted, -, slot⟩ := served.request_at_head current
      rw [if_pos current, IoState.nextEntry, if_neg (not_not.mpr current), request]
      exact ⟨context, posted, slot, rfl, rfl, rfl, rfl, rfl⟩
    · rw [if_neg current, IoState.nextEntry, if_pos current]
      exact ⟨rfl, rfl, rfl, rfl, rfl⟩
  next => cases stepped

/-- The thread that holds the lock drains. -/
def Held (σ : IoState Thread Oip) : Prop :=
  ∀ thread, σ.holder = some thread → ∃ done, σ.handler thread = .draining done

theorem Held.step (held : σ.Held) (served : σ.Served) (stepped : σ.step a = some τ) : τ.Held := by
  cases a with
  | readWrite disk request =>
    obtain ⟨-, same⟩ := Option.ite_none_right_eq_some.mp stepped
    cases same
    have unchanged : (σ.readWrite disk request).1.holder = σ.holder ∧
        (σ.readWrite disk request).1.handler = σ.handler := by
      unfold IoState.readWrite
      split
      · exact ⟨rfl, rfl⟩
      · split_ifs
        · exact ⟨rfl, rfl⟩
        · split <;> exact ⟨rfl, rfl⟩
    intro thread holds
    rw [unchanged.1] at holds
    rw [unchanged.2]
    exact held thread holds
  | processIoCompletion thread =>
    simp only [IoState.step] at stepped
    split at stepped
    · cases stepped
      intro other holds
      cases holds
      exact ⟨[], setHandler_self⟩
    · cases stepped
  | nextEntry thread =>
    obtain ⟨done, draining, handled⟩ := served.handles stepped
    intro other holds
    split_ifs at handled
    · obtain ⟨context, -, -, -, handler, -, -, holder⟩ := handled
      rw [holder] at holds
      rw [handler]
      by_cases same : other = thread
      · rw [same, Function.update_self]
        exact ⟨_, rfl⟩
      · rw [Function.update_of_ne same]
        exact held other holds
    · rw [handled.2.2.2.2] at holds
      cases holds
  | completeRequest thread =>
    have apart : ∀ other, σ.holder = some other → ∀ batch, σ.handler thread = .completing batch → other ≠ thread := by
      rintro other holds batch completing rfl
      obtain ⟨done, draining⟩ := held other holds
      cases completing.symm.trans draining
    simp only [IoState.step] at stepped
    split at stepped
    · rename_i completing
      cases stepped
      intro other holds
      obtain ⟨done, draining⟩ := held other holds
      exact ⟨done, (setHandler_of_ne (apart other holds _ completing)).trans draining⟩
    · rename_i context status rest completing
      cases stepped
      intro other holds
      obtain ⟨done, draining⟩ := held other holds
      exact ⟨done, (setHandler_of_ne (apart other holds _ completing)).trans draining⟩
    · cases stepped
  | fetch | post =>
    obtain ⟨q, -, rfl⟩ := Option.map_eq_some_iff.mp stepped
    exact held

def stepsLeft (σ : IoState Thread Oip) (thread : Thread) : Nat :=
  2 * (σ.queue.posted.length - σ.taken) + (σ.taken - σ.completed.length) + (if σ.holder.isSome then 1 else 0) +
    (σ.handler thread).left (decide (σ.taken < σ.queue.posted.length))

omit [DecidableEq Thread] in
theorem Served.completed_lt (served : σ.Served) {x : RequestContext Oip × BitVec 15}
    (kept : x ∈ (σ.handler thread).batch) : σ.completed.length < σ.taken := by
  have there : x.1.serial ∈ σ.place (some thread) := mem_map_of_mem kept
  have fresh : x.1.serial ∉ σ.place none := fun here => by cases served.places.apart here there
  have inside : x.1.serial :: σ.place none ⊆ σ.ended := by
    rintro n (_ | ⟨_, member⟩)
    · exact (served.places.all _).mpr ⟨_, there⟩
    · exact (served.places.all n).mpr ⟨none, member⟩
  have distinct : (x.1.serial :: σ.place none).Nodup := nodup_cons.mpr ⟨fresh, served.places.once none⟩
  have few := (subperm_of_subset distinct inside).length_le
  have told := served.wired.told
  simp only [place, length_cons, length_map, ended, length_take] at few
  omega

theorem advance_entry (thread : Thread) (served : σ.Served) (draining : σ.handler u = .draining done) :
    ∃ τ, σ.step (.nextEntry u) = some τ ∧ τ.queue.posted = σ.queue.posted ∧ τ.stepsLeft thread < σ.stepsLeft thread := by
  have holds := (served.drained u done draining).1
  have change : ∀ (h : Handler Oip) (waits waits' : Bool), (waits = true → waits' = true) →
      h.left waits ≤ (σ.handler u).left waits' →
      (update σ.handler u h thread).left waits ≤ (σ.handler thread).left waits' := by
    intro h waits waits' later fewer
    by_cases same : thread = u
    · rw [same, update_self]
      exact fewer
    · rw [update_of_ne same]
      exact Handler.left_mono _ later
  refine ⟨σ.nextEntry u done, by simp only [step, draining], ?_⟩
  rw [draining] at change
  by_cases current : (σ.queue.completion σ.queue.completionHead).phase = σ.queue.phase
  · obtain ⟨context, request, -⟩ := served.request_at_head current
    have waits := served.sound.current.mp current
    rw [nextEntry, if_neg (not_not.mpr current), request]
    refine ⟨rfl, ?_⟩
    have phase := change (.draining (done ++ [(context, (σ.queue.completion σ.queue.completionHead).status)]))
      (decide (σ.taken + 1 < σ.queue.posted.length)) true (fun _ => rfl) (Nat.le_refl 2)
    simp only [stepsLeft, waits, decide_true]
    refine Nat.add_lt_add_of_lt_of_le (Nat.add_lt_add_of_lt_of_le ?_ (Nat.le_refl _)) phase
    change 2 * (σ.queue.posted.length - (σ.taken + 1)) + (σ.taken + 1 - σ.completed.length) < _
    omega
  · have nothing : ¬ σ.taken < σ.queue.posted.length := mt served.sound.current.mpr current
    rw [nextEntry, if_pos current]
    refine ⟨rfl, ?_⟩
    have phase := change (.completing done) (decide (σ.taken < σ.queue.posted.length))
      (decide (σ.taken < σ.queue.posted.length)) id (by rw [decide_eq_false nothing]; exact Nat.le_succ 1)
    simp only [stepsLeft, holds]
    refine Nat.add_lt_add_of_lt_of_le (Nat.add_lt_add_left ?_ _) phase
    exact Nat.zero_lt_one

theorem advance_complete (thread : Thread) (served : σ.Served) (completing : σ.handler u = .completing (x :: rest)) :
    ∃ τ, σ.step (.completeRequest u) = some τ ∧ τ.queue.posted = σ.queue.posted ∧
      τ.stepsLeft thread < σ.stepsLeft thread := by
  have kept : x ∈ (σ.handler u).batch := by
    rw [completing]
    exact mem_cons_self
  have fewer := served.completed_lt kept
  refine ⟨{ σ.setHandler u (.completing rest) with completed := outcome x.1 x.2 :: σ.completed },
    by simp only [step, completing], rfl, ?_⟩
  have phase : ∀ waits, (update σ.handler u (.completing rest) thread).left waits =
      (σ.handler thread).left waits := by
    intro waits
    by_cases same : thread = u
    · rw [same, update_self, completing]
      rfl
    · rw [update_of_ne same]
  simp only [stepsLeft, setHandler, phase, length_cons]
  refine Nat.add_lt_add_right (Nat.add_lt_add_right ?_ _) _
  omega

theorem advance_idle (served : σ.Served) (free : σ.holder = none) (waits : σ.taken < σ.queue.posted.length)
    (nothing : (σ.handler thread).batch = []) :
    ∃ a τ, a.OfHandler ∧ σ.step a = some τ ∧ τ.queue.posted = σ.queue.posted ∧
      τ.stepsLeft thread < σ.stepsLeft thread := by
  cases point : σ.handler thread with
  | idle =>
    refine ⟨.processIoCompletion thread, { σ.setHandler thread (.draining []) with holder := some thread }, trivial,
      by simp only [step, free, point], rfl, ?_⟩
    simp [stepsLeft, setHandler, update_self, point, free, waits, Handler.left]
  | draining done =>
    have holds := (served.drained thread done point).1
    rw [free] at holds
    cases holds
  | completing batch =>
    obtain rfl : batch = [] := by rwa [point] at nothing
    refine ⟨.completeRequest thread, σ.setHandler thread .idle, trivial, by simp only [step, point], rfl, ?_⟩
    simp [stepsLeft, setHandler, update_self, point, free, waits, Handler.left]

theorem Served.advance (served : σ.Served) (held : σ.Held) (thread : Thread)
    (unfinished : ¬ ∀ x ∈ σ.queue.posted, ∃ r ∈ σ.completed, r.serial = x.1) :
    ∃ a τ, a.OfHandler ∧ σ.step a = some τ ∧ τ.queue.posted = σ.queue.posted ∧
      τ.stepsLeft thread < σ.stepsLeft thread := by
  -- The lock is released first, then kept requests are completed; what is left is to drain.
  cases lock : σ.holder with
  | some u =>
    obtain ⟨done, draining⟩ := held u lock
    obtain ⟨τ, advanced⟩ := advance_entry thread served draining
    exact ⟨.nextEntry u, τ, trivial, advanced⟩
  | none =>
    by_cases keeps : ∃ u, (σ.handler u).batch ≠ []
    · obtain ⟨u, keeps⟩ := keeps
      cases point : σ.handler u with
      | idle => exact absurd (by rw [point]; rfl) keeps
      | draining done =>
        have holds := (served.drained u done point).1
        rw [lock] at holds
        cases holds
      | completing batch =>
        rw [point] at keeps
        obtain ⟨x, rest, rfl⟩ := exists_cons_of_ne_nil keeps
        obtain ⟨τ, advanced⟩ := advance_complete thread served point
        exact ⟨.completeRequest u, τ, trivial, advanced⟩
    · simp only [not_exists, not_not] at keeps
      refine advance_idle served lock (Nat.lt_of_not_le fun all => unfinished fun x member => ?_) (keeps thread)
      have gone : x.1 ∈ σ.ended := by
        rw [ended, take_of_length_le all]
        exact mem_map_of_mem member
      obtain ⟨p, there⟩ := (served.places.all _).mp gone
      cases p with
      | none => exact mem_map.mp there
      | some u =>
        rw [place, keeps u] at there
        cases there

theorem Served.drains (served : σ.Served) (held : σ.Held) : σ.Drains := by
  rintro ⟨thread⟩
  obtain ⟨actions, τ, calm, short, run, ⟨-, -, posted⟩, done⟩ := Run.reach
    (fun τ : IoState Thread Oip => τ.Served ∧ τ.Held ∧ τ.queue.posted = σ.queue.posted)
    (fun τ => ∀ x ∈ τ.queue.posted, ∃ r ∈ τ.completed, r.serial = x.1) (fun τ => τ.stepsLeft thread)
    (fun τ ⟨served, held, same⟩ unfinished => by
      obtain ⟨a, ρ, calm, stepped, posted, less⟩ := served.advance held thread unfinished
      exact ⟨a, ρ, calm, stepped, ⟨served.step stepped, held.step served stepped, posted.trans same⟩, less⟩)
    ⟨served, held, rfl⟩
  refine ⟨actions, τ, calm, Nat.le_trans short ?_, run, posted ▸ done⟩
  have told := served.wired.told
  have phase := (σ.handler thread).left_le (decide (σ.taken < σ.queue.posted.length))
  simp only [stepsLeft]
  split <;> omega

/-- Every state of every run of the queue pair is sound, each step of a handler consumes
what it should, and the handlers complete all that is posted. -/
theorem io_queue_sound (nextCommandId : UInt16) (actions : List (IoAction Thread Oip))
    (executed : exec step (nvmeCreateIoQueue Thread Oip nextCommandId) actions = some τ) :
    τ.Sound ∧ (∀ thread ρ, τ.step (.nextEntry thread) = some ρ → τ.Handles thread ρ) ∧ τ.Drains := by
  have free : Along (fun _ _ => True) step (nvmeCreateIoQueue Thread Oip nextCommandId) actions :=
    Along.of_forall fun _ _ _ => trivial
  obtain ⟨served, held⟩ : τ.Served ∧ τ.Held := exec_preserves (P := fun σ => σ.Served ∧ σ.Held)
    (fun kept _ stepped => ⟨kept.1.step stepped, kept.2.step kept.1 stepped⟩)
    ⟨nvmeCreateIoQueue_served nextCommandId, nofun⟩ free executed
  exact ⟨served.sound, fun thread ρ stepped => served.handles stepped, served.drains held⟩

/-- Two requests that end in the other order, the first of them with an error. -/
def outOfOrder : List (IoAction Unit Nat) :=
  [.readWrite ⟨true, 1, 1000, 512, 9⟩ ⟨10, true, 0, 1024, true, .ok ⟨0x1000, 0, false⟩⟩,
    .readWrite ⟨true, 1, 1000, 512, 9⟩ ⟨20, false, 512, 512, true, .ok ⟨0x2000, 0, false⟩⟩, .fetch, .fetch,
    .post 1 0, .post 0 3, .processIoCompletion (), .nextEntry (), .nextEntry (), .nextEntry (),
    .completeRequest (), .completeRequest ()]

/-- The whole run, and the step that consumes the completion of the second request. -/
theorem io_queue_sound_sample :
    (∃ τ, exec step (nvmeCreateIoQueue Unit Nat 4) outOfOrder = some τ ∧
      (τ.completed.map fun r => (r.oip, r.status, r.information)) = [(10, .ioDeviceError, 0), (20, .success, 512)] ∧
        τ.Sound) ∧
    ∃ σ τ, exec step (nvmeCreateIoQueue Unit Nat 4) (outOfOrder.take 7) = some σ ∧
      σ.step (.nextEntry ()) = some τ ∧ σ.Handles () τ ∧ σ.Drains := by
  obtain ⟨-, handles, drains⟩ := io_queue_sound 4 (outOfOrder.take 7) rfl
  exact ⟨⟨_, rfl, by decide, (io_queue_sound 4 outOfOrder rfl).1⟩, _, _, rfl, rfl, handles () _ rfl, drains⟩

end Invariant
end IoState
end VeaOS.Nvme

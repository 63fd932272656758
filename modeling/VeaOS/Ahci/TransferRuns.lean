import Mathlib.Data.List.Range
import Mathlib.Data.Nat.ModEq
import VeaOS.Ahci.Transfer
import VeaOS.Foundation.Runs

/-! When every byte of a request goes between its sector and its place in the caller's
buffer, once and in order, with any number of requests in flight. -/
namespace VeaOS.Ahci
open Transition Function List Transfers
variable {Oip Space : Type*} {m : Machine Space} {space : Space}

/-- The move of byte `k` of a request. -/
def Request.move (m : Machine Space) (request : Request Space) (k : Nat) : Move :=
  ⟨some (request.byteOffset + k), request.address m k⟩

def Request.moves (m : Machine Space) (request : Request Space) (count : Nat) : List Move :=
  (List.range count).map (request.move m)

def Request.sectors (request : Request Space) (bytes : Nat) : List Nat :=
  List.range' (request.byteOffset / sectorSize) (bytes / sectorSize)

/-- The commands cover the sectors in order and their tables fit; the bytes are moved in
order, each to its place; and what was completed was moved wholly. -/
structure Record.Right (m : Machine Space) (r : Record Space) : Prop where
  covers : ∃ bytes ≤ r.request.byteLength, r.commands.flatMap Command.sectors = r.request.sectors bytes
  tables : ∀ c ∈ r.commands, c.bytes = c.sectorCount * sectorSize
  moved : ∃ count ≤ r.request.byteLength, r.moves = r.request.moves m count
  completed : ∀ i, r.information = some i → i = r.request.byteLength ∧
    r.commands.flatMap Command.sectors = r.request.sectors i ∧ r.moves = r.request.moves m i

section Entries

theorem Prd.cells_memory (even : a % 2 = 0) (whole : n % 2 = 0) :
    (⟨.memory a, n⟩ : Prd).cells = (range n).map fun j => .memory (a + j) := by
  simp [Prd.cells, even, whole]

theorem Prd.cells_bounceBuffer (whole : n % 2 = 0) :
    (⟨.bounceBuffer, n⟩ : Prd).cells = (range n).map .bounce := by
  simp [Prd.cells, whole]

theorem mdlEntries_cells (pageArray : Nat → Nat) (room page offset bytes : Nat) (inside : offset < pageSize)
    (even : offset % 2 = 0) (whole : bytes % 2 = 0) (fits : offset + bytes ≤ room * pageSize) :
    (mdlEntries pageArray room page offset bytes).flatMap Prd.cells = (range bytes).map (fun j =>
      .memory (pageArray ((page * pageSize + offset + j) / pageSize) * pageSize +
        (page * pageSize + offset + j) % pageSize)) ∧
    ((mdlEntries pageArray room page offset bytes).map (·.byteCount)).sum = bytes := by
  induction room generalizing page offset bytes with
  | zero =>
    obtain rfl : bytes = 0 := by omega
    exact ⟨rfl, rfl⟩
  | succ room ih =>
    simp only [mdlEntries, pageSize] at inside fits ih ⊢
    split_ifs with more
    · obtain ⟨first, sized⟩ : ∃ first, min (4096 - offset) bytes = first := ⟨_, rfl⟩
      rw [sized]
      obtain ⟨rest, sum⟩ := ih (page + 1) 0 (bytes - first) (by decide) rfl (by omega) (by omega)
      simp only [flatMap_cons, map_cons, sum_cons, rest, sum]
      refine ⟨?_, by omega⟩
      obtain ⟨more, rfl⟩ := Nat.exists_eq_add_of_le (show first ≤ bytes by omega)
      rw [Prd.cells_memory (by omega) (by omega), range_add, map_append, map_map,
        Nat.add_sub_cancel_left]
      refine congrArg₂ _ (map_congr_left fun j member => ?_) (map_congr_left fun j member => ?_)
      · have within := mem_range.mp member
        have here : (page * 4096 + offset + j) / 4096 = page := by omega
        have place : (page * 4096 + offset + j) % 4096 = offset + j := by omega
        rw [here, place, Nat.add_assoc]
      · have within := mem_range.mp member
        have next : page * 4096 + offset + (first + j) = (page + 1) * 4096 + 0 + j := by omega
        rw [comp_apply, next]
    · obtain rfl : bytes = 0 := by omega
      exact ⟨rfl, rfl⟩

end Entries

namespace ChunkContext

/-- The address space maps the caller's buffer, which is present, where the copy of the
chunk goes. -/
def Copied (m : Machine Space) (space : Space) (chunk : ChunkContext Oip Space) : Prop :=
  ∀ j < chunk.chunkSize, ∃ address, m.translate space (chunk.userCurrentBuffer + j) = some address ∧
    chunk.request.address m (chunk.bufferByteOffset + j) = some address

/-- The table has room for the pages of the chunk, or its bytes are present and lie one
after the other. -/
def Direct (m : Machine Space) (space : Space) (chunk : ChunkContext Oip Space) : Prop :=
  match chunk.request.buffer with
  | .mdl _ byteOffset _ => byteOffset % 2 = 0 ∧
      (byteOffset + chunk.bufferByteOffset) % pageSize + chunk.chunkSize ≤ ahciMaxPrdtEntries * pageSize
  | .plain userBuffer => userBuffer ≠ 0 ∧ m.mmGetPhysicalAddress space chunk.userCurrentBuffer % 2 = 0 ∧
      ∀ j < chunk.chunkSize, chunk.request.address m (chunk.bufferByteOffset + j) =
        some (m.mmGetPhysicalAddress space chunk.userCurrentBuffer + j)

/-- The command of the chunk counts on a byte of the bounce buffer. -/
def Relies (chunk : ChunkContext Oip Space) (j : Nat) : Prop :=
  chunk.usesBounceBuffer = true ∧
    if chunk.request.isWrite then chunk.moved ≤ j ∧ j < chunk.chunkSize else j < chunk.moved

/-- What is left of the request and where it goes on. -/
structure Placed (chunk : ChunkContext Oip Space) : Prop where
  start : chunk.currentStartLba * sectorSize = chunk.request.byteOffset + chunk.transferredBytes
  place : chunk.bufferByteOffset = chunk.transferredBytes
  total : chunk.transferredBytes + chunk.remainingBytes = chunk.request.byteLength
  before : sectorSize ∣ chunk.transferredBytes
  whole : sectorSize ∣ chunk.remainingBytes
  left : 0 < chunk.remainingBytes
  below : chunk.request.byteOffset + chunk.request.byteLength ≤ 281474976710656 * sectorSize

end ChunkContext

/-- The record of a request whose command was issued. -/
structure Follows (m : Machine Space) (chunk : ChunkContext Oip Space) (r : Record Space) : Prop where
  placed : chunk.Placed
  same : r.request = chunk.request
  pending : r.information = none
  lba : chunk.command.lba = chunk.currentStartLba
  count : chunk.command.sectorCount * sectorSize = chunk.chunkSize
  cells : chunk.command.cells.map some = (List.range chunk.chunkSize).map fun j =>
    if chunk.usesBounceBuffer then some (.bounce j)
    else (chunk.request.address m (chunk.bufferByteOffset + j)).map .memory
  chosen : chunk.usesBounceBuffer = chunk.needsBounce m
  within : chunk.moved ≤ chunk.chunkSize
  moves : r.moves = chunk.request.moves m
    (chunk.transferredBytes + if chunk.usesBounceBuffer && !chunk.request.isWrite then 0 else chunk.moved)
  covers : r.commands.flatMap Command.sectors = chunk.request.sectors (chunk.transferredBytes + chunk.chunkSize)
  tables : ∀ c ∈ r.commands, c.bytes = c.sectorCount * sectorSize

/-- The byte that a command which counts on the bounce buffer finds there. -/
def ChunkContext.token (m : Machine Space) (chunk : ChunkContext Oip Space) (j : Nat) : Held :=
  if chunk.request.isWrite then .ofMemory (chunk.request.address m (chunk.bufferByteOffset + j))
  else .disk (chunk.currentStartLba * sectorSize + j)

namespace Transfers

/-- The request of a slot that is not completed yet. -/
def pending (σ : Transfers Oip Space) (slot : Nat) : Option (ChunkContext Oip Space) :=
  (σ.pendingOip slot).bind fun _ => σ.chunkContext slot

structure Tracked (m : Machine Space) (σ : Transfers Oip Space) : Prop where
  follows : ∀ s c, σ.pending s = some c → ∃ r, σ.records c.masterOip = some r ∧ Follows m c r
  distinct : ∀ s t c d, σ.pending s = some c → σ.pending t = some d → c.masterOip = d.masterOip → s = t
  held : ∀ s c j, σ.pending s = some c → c.Relies j → σ.bounceBuffer j = c.token m j
  finished : ∀ oip r, σ.records oip = some r → (∃ s c, σ.pending s = some c ∧ c.masterOip = oip) ∨ r.Right m

/-- A slot without a request has no command with the controller, and a command that the
controller is done with was moved wholly. -/
structure Issued (σ : Transfers Oip Space) : Prop where
  quiet : ∀ s, σ.pendingOip s = none → σ.ci s = false ∧ σ.issuing s = []
  ended : ∀ s c, σ.pending s = some c → σ.issuing s = [] → σ.ci s = false →
    c.moved = c.command.sectorCount * sectorSize

/-- No other command counts on the byte of the bounce buffer. -/
def Undisturbed (σ : Transfers Oip Space) (slot j : Nat) : Prop :=
  ∀ other c, other ≠ slot → σ.pending other = some c → ¬ c.Relies j

/-- What the next command of a chunk must find. -/
def Dispatches (m : Machine Space) (σ : Transfers Oip Space) (space : Space) (slot : Nat)
    (chunk : ChunkContext Oip Space) : Prop :=
  if chunk.needsBounce m then
    chunk.request.isWrite = true → chunk.Copied m space ∧ ∀ j < chunk.chunkSize, σ.Undisturbed slot j
  else chunk.Direct m space

/-- A request starts with a sector and ends below the sectors that have an address; its
commands find its buffer as they must; no command ends while another one is issued; what is
written into the bounce buffer is not counted on; and a slot that is completed had its
command issued and carried out. -/
def Meets (m : Machine Space) (σ : Transfers Oip Space) : TransferAction Oip Space → Prop
  | .readWrite slot oip request => request.byteLength % sectorSize = 0 → 0 < request.byteLength →
      request.byteOffset % sectorSize = 0 ∧
      request.byteOffset + request.byteLength ≤ 281474976710656 * sectorSize ∧
      σ.Dispatches m request.space slot (startChunk oip request)
  | .issue slot => ∀ read rest, σ.issuing slot = read :: rest → ∀ t, read t = true → σ.ci t = true
  | .moveByte slot => ∀ chunk, σ.chunkContext slot = some chunk → chunk.usesBounceBuffer = true →
      chunk.request.isWrite = false → σ.Undisturbed slot chunk.moved
  | .finish _ => True
  | .complete slot space => σ.issuing slot = [] ∧ σ.ci slot = false ∧ ∀ chunk, σ.chunkContext slot = some chunk →
      (chunk.usesBounceBuffer = true → chunk.request.isWrite = false → chunk.Copied m space) ∧
      (0 < chunk.advanced.remainingBytes → σ.Dispatches m space slot chunk.advanced)

def Sound (m : Machine Space) (σ : Transfers Oip Space) : Prop := ∀ oip r, σ.records oip = some r → r.Right m

end Transfers

section Chunks
variable {chunk : ChunkContext Oip Space} {r : Record Space}
open ChunkContext

theorem Request.moves_add (request : Request Space) (n k : Nat) :
    request.moves m (n + k) = request.moves m n ++ (range k).map fun j => request.move m (n + j) := by
  simp only [Request.moves, range_add, map_append, map_map]
  rfl

theorem Follows.moveOn (follows : Follows m chunk r) (more : chunk.moved < chunk.chunkSize) (list : List Move)
    (moved : list = chunk.request.moves m
      (chunk.transferredBytes + if chunk.usesBounceBuffer && !chunk.request.isWrite then 0 else chunk.moved + 1)) :
    Follows m { chunk with moved := chunk.moved + 1 } { r with moves := list } :=
  { follows with
    placed := { follows.placed with }
    within := more
    moves := moved }

theorem Follows.byte (follows : Follows m chunk r) (j : Nat) :
    chunk.command.lba * sectorSize + j = chunk.request.byteOffset + (chunk.transferredBytes + j) := by
  rw [follows.lba, follows.placed.start, Nat.add_assoc]

theorem Follows.cell (follows : Follows m chunk r) (more : chunk.moved < chunk.chunkSize) :
    ∃ cell, chunk.command.cells[chunk.moved]? = some cell ∧ some cell =
      if chunk.usesBounceBuffer then some (.bounce chunk.moved)
      else (chunk.request.address m (chunk.bufferByteOffset + chunk.moved)).map .memory := by
  have there := congrArg (·[chunk.moved]?) follows.cells
  simp only [getElem?_map, getElem?_range more, Option.map_some] at there
  exact Option.map_eq_some_iff.mp there

theorem Follows.right (follows : Follows m chunk r) : r.Right m := by
  have total := follows.placed.total
  have size : chunk.chunkSize ≤ chunk.remainingBytes := Nat.min_le_left _ _
  have within := follows.within
  exact
    { covers := ⟨chunk.transferredBytes + chunk.chunkSize, by rw [follows.same]; omega,
        by rw [follows.same]; exact follows.covers⟩
      tables := follows.tables
      moved := ⟨chunk.transferredBytes + if chunk.usesBounceBuffer && !chunk.request.isWrite then 0 else chunk.moved,
        by rw [follows.same]; split_ifs <;> omega, by rw [follows.same]; exact follows.moves⟩
      completed := fun i done => by cases follows.pending.symm.trans done }

theorem ChunkContext.Placed.size (placed : chunk.Placed) :
    0 < chunk.chunkSize ∧ sectorSize ∣ chunk.chunkSize ∧ chunk.chunkSize ≤ chunk.remainingBytes := by
  have left := placed.left
  have whole : 512 ∣ chunk.remainingBytes := placed.whole
  have size : chunk.chunkSize = min chunk.remainingBytes 65536 := rfl
  rw [size]
  refine ⟨?_, ?_, Nat.min_le_left _ _⟩
  · omega
  · change 512 ∣ min chunk.remainingBytes 65536
    omega

theorem ChunkContext.Placed.advanced (placed : chunk.Placed) (more : 0 < chunk.advanced.remainingBytes) :
    chunk.advanced.Placed := by
  obtain ⟨positive, sectors, fits⟩ := placed.size
  exact
    { start := by
        simp only [ChunkContext.advanced]
        rw [Nat.add_mul, Nat.div_mul_cancel sectors, placed.start, Nat.add_assoc]
      place := congrArg (· + chunk.chunkSize) placed.place
      total := by
        simp only [ChunkContext.advanced]
        rw [Nat.add_assoc, Nat.add_sub_cancel' fits, placed.total]
      before := Nat.dvd_add placed.before sectors
      whole := Nat.dvd_sub placed.whole sectors
      left := more
      below := placed.below }

theorem placed_startChunk (oip : Oip) {request : Request Space} (whole : request.byteLength % sectorSize = 0)
    (left : 0 < request.byteLength) (aligned : request.byteOffset % sectorSize = 0)
    (below : request.byteOffset + request.byteLength ≤ 281474976710656 * sectorSize) :
    (startChunk oip request).Placed where
  start := Nat.div_mul_cancel (Nat.dvd_of_mod_eq_zero aligned)
  place := rfl
  total := Nat.zero_add _
  before := Nat.dvd_zero _
  whole := Nat.dvd_of_mod_eq_zero whole
  left := left
  below := below

variable (placed : chunk.Placed)
include placed

theorem ChunkContext.Placed.lba : chunk.currentStartLba % 281474976710656 = chunk.currentStartLba := by
  have start := placed.start
  have below := placed.below
  have total := placed.total
  have left := placed.left
  simp only [sectorSize] at start below
  exact Nat.mod_eq_of_lt (by omega)

theorem ChunkContext.Placed.evenPlace : chunk.bufferByteOffset % 2 = 0 := by
  rw [placed.place]
  exact Nat.mod_eq_zero_of_dvd (Nat.dvd_trans (by decide) placed.before)

theorem entries_cells (direct : chunk.needsBounce m = false → chunk.Direct m space) :
    (chunk.nextCommand m space).cells.map some = (range chunk.chunkSize).map (fun j =>
      if chunk.needsBounce m then some (.bounce j)
      else (chunk.request.address m (chunk.bufferByteOffset + j)).map .memory) ∧
    (chunk.nextCommand m space).bytes = chunk.chunkSize := by
  have even : chunk.chunkSize % 2 = 0 :=
    Nat.mod_eq_zero_of_dvd (Nat.dvd_trans (by decide) placed.size.2.1)
  simp only [Command.cells, Command.bytes, nextCommand, entries]
  cases needed : chunk.needsBounce m with
  | true => simp [Prd.cells_bounceBuffer even]
  | false =>
    have describes := direct needed
    simp only [Bool.false_eq_true, ↓reduceIte]
    unfold Direct at describes
    cases buffer : chunk.request.buffer with
    | mdl mappedSystemVa byteOffset pageArray =>
      simp only [buffer] at describes ⊢
      obtain ⟨evenOffset, room⟩ := describes
      have evenPlace : (byteOffset + chunk.bufferByteOffset) % pageSize % 2 = 0 := by
        rw [Nat.mod_mod_of_dvd _ (show 2 ∣ pageSize by decide), Nat.add_mod, evenOffset, placed.evenPlace]
      obtain ⟨cells, sum⟩ := mdlEntries_cells pageArray ahciMaxPrdtEntries
        ((byteOffset + chunk.bufferByteOffset) / pageSize) ((byteOffset + chunk.bufferByteOffset) % pageSize)
        chunk.chunkSize (Nat.mod_lt _ (by decide)) evenPlace even room
      refine ⟨?_, sum⟩
      rw [cells, map_map]
      refine map_congr_left fun j member => ?_
      rw [comp_apply, Nat.div_add_mod']
      simp only [Request.address, buffer, Nat.add_assoc, Option.map_some]
    | plain userBuffer =>
      simp only [buffer] at describes ⊢
      obtain ⟨given, evenAddress, following⟩ := describes
      simp only [if_pos given, flatMap_cons, flatMap_nil, append_nil,
        Prd.cells_memory evenAddress even, map_map]
      refine ⟨map_congr_left fun j member => ?_, by simp⟩
      rw [following j (mem_range.mp member)]
      rfl

theorem ChunkContext.Placed.copies (needed : chunk.needsBounce m = true) :
    m.hasBounceBuffer = true ∧ (chunk.userCurrentBuffer != 0) = true := by
  have aligned : chunk.chunkSize % 4 = 0 := Nat.mod_eq_zero_of_dvd (Nat.dvd_trans (by decide) placed.size.2.1)
  simp only [needsBounce, isBufferAligned, aligned, Bool.and_eq_true, Bool.not_eq_true'] at needed
  refine ⟨needed.2, ?_⟩
  by_contra zero
  simp only [bne_iff_ne, ne_eq, Decidable.not_not] at zero
  rw [zero] at needed
  simp at needed

theorem ChunkContext.Placed.sectors :
    chunk.request.sectors chunk.transferredBytes ++ (chunk.nextCommand m space).sectors =
      chunk.request.sectors (chunk.transferredBytes + chunk.chunkSize) := by
  have positive : 0 < sectorSize := by decide
  have lba : (chunk.nextCommand m space).lba =
      chunk.request.byteOffset / sectorSize + chunk.transferredBytes / sectorSize := by
    rw [← Nat.add_div_of_dvd_left placed.before, ← placed.start, Nat.mul_div_cancel _ positive]
    exact placed.lba
  simp only [Request.sectors, Command.sectors]
  rw [lba, Nat.add_div_of_dvd_right placed.before]
  exact range'_append_1

theorem Follows.dispatch (same : r.request = chunk.request) (pending : r.information = none)
    (direct : chunk.needsBounce m = false → chunk.Direct m space)
    (moves : r.moves = chunk.request.moves m chunk.transferredBytes)
    (covers : r.commands.flatMap Command.sectors = chunk.request.sectors chunk.transferredBytes)
    (tables : ∀ c ∈ r.commands, c.bytes = c.sectorCount * sectorSize) :
    Follows m (chunk.issued m space) { r with commands := r.commands ++ [chunk.nextCommand m space] } := by
  obtain ⟨cells, bytes⟩ := entries_cells placed direct
  have count : (chunk.nextCommand m space).sectorCount * sectorSize = chunk.chunkSize :=
    Nat.div_mul_cancel placed.size.2.1
  exact
    { placed := { placed with }
      same := same
      pending := pending
      lba := placed.lba
      count := count
      cells := cells
      chosen := rfl
      within := Nat.zero_le _
      moves := by rw [moves]; simp [issued]
      covers := by
        change (r.commands ++ [chunk.nextCommand m space]).flatMap Command.sectors = _
        rw [flatMap_append, covers]
        simp only [flatMap_cons, flatMap_nil, append_nil]
        exact placed.sectors
      tables := fun c member => by
        rcases mem_append.mp member with old | new
        · exact tables c old
        · rw [mem_singleton.mp new, bytes, count] }

end Chunks

theorem Held.memory?_ofMemory (address : Option Nat) : (Held.ofMemory address).memory? = address := by
  cases address <;> rfl

namespace Transfers
variable {σ τ : Transfers Oip Space} {slot : Nat} {chunk : ChunkContext Oip Space} {r : Record Space}

def Alone (σ : Transfers Oip Space) (slot : Nat) (oip : Oip) : Prop :=
  ∀ t c, t ≠ slot → σ.pending t = some c → c.masterOip ≠ oip

theorem chunkContext_of_pending (found : σ.pending slot = some chunk) : σ.chunkContext slot = some chunk := by
  obtain ⟨_, _, there⟩ := Option.bind_eq_some_iff.mp found
  exact there

theorem pending_eq (owned : σ.pendingOip slot ≠ none) : σ.pending slot = σ.chunkContext slot := by
  obtain ⟨oip, owner⟩ := Option.ne_none_iff_exists'.mp owned
  rw [pending, owner]
  rfl

theorem Tracked.alone (tracked : σ.Tracked m) (found : σ.pending slot = some chunk) :
    σ.Alone slot chunk.masterOip :=
  fun t c other there same => other (tracked.distinct t slot c chunk there found same)

theorem copyOut_eq (tracked : σ.Tracked m) (found : σ.pending slot = some chunk)
    (follows : Follows m chunk r) (ended : chunk.moved = chunk.chunkSize)
    (copied : chunk.usesBounceBuffer = true → chunk.request.isWrite = false → chunk.Copied m space) :
    r.moves ++ σ.copyOut m space chunk = chunk.request.moves m (chunk.transferredBytes + chunk.chunkSize) := by
  have moves := follows.moves
  rw [ended] at moves
  cases uses : chunk.usesBounceBuffer && !chunk.request.isWrite with
  | false =>
    rw [uses, if_neg Bool.false_ne_true] at moves
    have nothing : σ.copyOut m space chunk = [] := if_neg (by
      simp only [Bool.and_eq_true, not_and]
      intro reads
      rw [reads.1.2, reads.1.1] at uses
      cases uses)
    rw [nothing, List.append_nil, moves]
  | true =>
    rw [uses, if_pos rfl, Nat.add_zero] at moves
    simp only [Bool.and_eq_true, Bool.not_eq_true'] at uses
    obtain ⟨present, nonzero⟩ := follows.placed.copies (follows.chosen.symm.trans uses.1)
    have copies : σ.copyOut m space chunk = (List.range chunk.chunkSize).map fun j =>
        ⟨(σ.bounceBuffer j).disk?, m.translate space (chunk.userCurrentBuffer + j)⟩ :=
      if_pos (by simp [uses, present, nonzero])
    rw [copies, moves, Request.moves_add]
    refine congrArg _ (List.map_congr_left fun j member => ?_)
    have inside := List.mem_range.mp member
    have held := tracked.held slot chunk j found ⟨uses.1, by
      rw [uses.2, if_neg Bool.false_ne_true, ended]
      exact inside⟩
    simp only [ChunkContext.token, uses.2, Bool.false_eq_true, ↓reduceIte] at held
    obtain ⟨address, mapped, there⟩ := copied uses.1 uses.2 j inside
    rw [follows.placed.place] at there
    rw [held, mapped, ← there, follows.placed.start, Nat.add_assoc]
    rfl

theorem Dispatches.elsewhere (dispatches : σ.Dispatches m space slot chunk)
    (old : ∀ t c, t ≠ slot → τ.pending t = some c → σ.pending t = some c) :
    τ.Dispatches m space slot chunk := by
  simp only [Dispatches] at dispatches ⊢
  split_ifs at dispatches ⊢ with needed
  · intro writes
    obtain ⟨copied, undisturbed⟩ := dispatches writes
    exact ⟨copied, fun j inside t c other there => undisturbed j inside t c other (old t c other there)⟩
  · exact dispatches

theorem Tracked.sound (tracked : σ.Tracked m) : σ.Sound m := fun oip r recorded => by
  rcases tracked.finished oip r recorded with ⟨s, c, found, rfl⟩ | right
  · obtain ⟨r', recorded', follows⟩ := tracked.follows s c found
    cases recorded.symm.trans recorded'
    exact follows.right
  · exact right

theorem not_sound_of_move {σ : Transfers Oip Space} (oip : Oip) (found expected : Move)
    (moved : (σ.records oip).map (fun r => (r.moves, r.request.move m 0)) = some ([found], expected))
    (other : found ≠ expected) : ¬ σ.Sound m := fun sound => by
  obtain ⟨r, recorded, same⟩ := Option.map_eq_some_iff.mp moved
  obtain ⟨moves, first⟩ := Prod.mk.inj same
  obtain ⟨count, -, all⟩ := (sound oip r recorded).moved
  rw [moves] at all
  rcases count with _ | count
  · cases all
  · rw [Request.moves, range_succ_eq_map] at all
    exact other ((cons.inj all).1.trans first)

variable [DecidableEq Oip]

theorem Tracked.put (tracked : σ.Tracked m) (placed : τ.pending = update σ.pending slot (some chunk))
    (recorded : τ.records = update σ.records chunk.masterOip (some r)) (follows : Follows m chunk r)
    (alone : σ.Alone slot chunk.masterOip)
    (before : ∀ c, σ.pending slot = some c → c.masterOip = chunk.masterOip)
    (held : ∀ j, chunk.Relies j → τ.bounceBuffer j = chunk.token m j)
    (kept : ∀ t c j, t ≠ slot → σ.pending t = some c → c.Relies j → τ.bounceBuffer j = σ.bounceBuffer j) :
    τ.Tracked m := by
  have at_slot : ∀ {s c}, τ.pending s = some c → (s = slot ∧ c = chunk) ∨ (s ≠ slot ∧ σ.pending s = some c) := by
    intro s c found
    rw [placed] at found
    by_cases same : s = slot
    · rw [same, update_self] at found
      exact .inl ⟨same, (Option.some.inj found).symm⟩
    · rw [update_of_ne same] at found
      exact .inr ⟨same, found⟩
  refine ⟨fun s c found => ?_, fun s t c d first second same => ?_, fun s c j found relies => ?_,
    fun oip r' found => ?_⟩
  · rw [recorded]
    rcases at_slot found with ⟨-, rfl⟩ | ⟨other, old⟩
    · exact ⟨r, update_self .., follows⟩
    · obtain ⟨r', there, following⟩ := tracked.follows s c old
      exact ⟨r', (update_of_ne (alone s c other old) _ _).trans there, following⟩
  · rcases at_slot first with ⟨rfl, rfl⟩ | ⟨otherS, oldS⟩
    · rcases at_slot second with ⟨rfl, -⟩ | ⟨otherT, oldT⟩
      · rfl
      · exact absurd same.symm (alone t d otherT oldT)
    · rcases at_slot second with ⟨rfl, rfl⟩ | ⟨otherT, oldT⟩
      · exact absurd same (alone s c otherS oldS)
      · exact tracked.distinct s t c d oldS oldT same
  · rcases at_slot found with ⟨-, rfl⟩ | ⟨other, old⟩
    · exact held j relies
    · exact (kept s c j other old relies).trans (tracked.held s c j old relies)
  · rw [recorded] at found
    by_cases same : oip = chunk.masterOip
    · exact .inl ⟨slot, chunk, placed ▸ update_self .., same.symm⟩
    · refine (tracked.finished oip r' ((update_of_ne same _ _).symm.trans found)).imp_left ?_
      rintro ⟨s, c, old, owner⟩
      have other : s ≠ slot := fun here => same (owner.symm.trans (before c (here ▸ old)))
      exact ⟨s, c, placed ▸ (update_of_ne other _ _).trans old, owner⟩

theorem Tracked.drop (tracked : σ.Tracked m) (found : σ.pending slot = some chunk) (right : r.Right m)
    (placed : τ.pending = update σ.pending slot none) (copies : τ.bounceBuffer = σ.bounceBuffer)
    (recorded : τ.records = update σ.records chunk.masterOip (some r)) : τ.Tracked m := by
  have elsewhere : ∀ {s c}, τ.pending s = some c → s ≠ slot ∧ σ.pending s = some c := by
    intro s c there
    rw [placed] at there
    by_cases same : s = slot
    · rw [same, update_self] at there
      cases there
    · exact ⟨same, (update_of_ne same _ _).symm.trans there⟩
  have alone := tracked.alone found
  refine ⟨fun s c there => ?_, fun s t c d first second same => ?_, fun s c j there relies => ?_,
    fun oip r' there => ?_⟩
  · obtain ⟨other, old⟩ := elsewhere there
    obtain ⟨r', known, following⟩ := tracked.follows s c old
    exact ⟨r', recorded ▸ (update_of_ne (alone s c other old) _ _).trans known, following⟩
  · exact tracked.distinct s t c d (elsewhere first).2 (elsewhere second).2 same
  · exact copies ▸ tracked.held s c j (elsewhere there).2 relies
  · rw [recorded] at there
    by_cases same : oip = chunk.masterOip
    · cases (update_self ..).symm.trans (same ▸ there)
      exact .inr right
    · refine (tracked.finished oip r' ((update_of_ne same _ _).symm.trans there)).imp_left ?_
      rintro ⟨s, c, old, owner⟩
      have other : s ≠ slot := fun here => by
        rw [here, found] at old
        cases old
        exact same owner.symm
      exact ⟨s, c, placed ▸ (update_of_ne other _ _).trans old, owner⟩

omit [DecidableEq Oip] in
theorem Tracked.congr (tracked : σ.Tracked m) (requests : τ.pending = σ.pending)
    (copies : τ.bounceBuffer = σ.bounceBuffer) (records : τ.records = σ.records) : τ.Tracked m where
  follows := by rw [requests, records]; exact tracked.follows
  distinct := by rw [requests]; exact tracked.distinct
  held := by rw [requests, copies]; exact tracked.held
  finished := by rw [requests, records]; exact tracked.finished

theorem pending_dispatch : (σ.ahciDispatchSubChunk m space slot chunk).pending =
    update σ.pending slot (some (chunk.issued m space)) := by
  funext s
  by_cases same : s = slot
  · simp [pending, ahciDispatchSubChunk, log, same]
  · simp [pending, ahciDispatchSubChunk, log, update_of_ne same]

variable (σ slot chunk) in
theorem moveByte_ports : (σ.moveByte slot chunk).pendingOip = σ.pendingOip ∧ (σ.moveByte slot chunk).ci = σ.ci ∧
    (σ.moveByte slot chunk).issuing = σ.issuing ∧ (σ.moveByte slot chunk).chunkContext =
      update σ.chunkContext slot (some { chunk with moved := chunk.moved + 1 }) := by
  rw [moveByte]
  split
  · exact ⟨rfl, rfl, rfl, rfl⟩
  · exact ⟨rfl, rfl, rfl, rfl⟩
  · split <;> exact ⟨rfl, rfl, rfl, rfl⟩

theorem pending_moveByte (found : σ.pending slot = some chunk) : (σ.moveByte slot chunk).pending =
    update σ.pending slot (some { chunk with moved := chunk.moved + 1 }) := by
  obtain ⟨owner, -, -, contexts⟩ := moveByte_ports σ slot chunk
  obtain ⟨oip, owned, -⟩ := Option.bind_eq_some_iff.mp found
  funext s
  rw [pending, owner, contexts]
  by_cases same : s = slot
  · rw [same, update_self, update_self, owned]
    rfl
  · rw [update_of_ne same, update_of_ne same, pending]

theorem Tracked.dispatch (tracked : σ.Tracked m) (placed : chunk.Placed)
    (dispatches : σ.Dispatches m space slot chunk) (free : σ.pending slot = none)
    (alone : σ.Alone slot chunk.masterOip) (recorded : σ.records chunk.masterOip = some r) (same : r.request = chunk.request)
    (pending : r.information = none) (moves : r.moves = chunk.request.moves m chunk.transferredBytes)
    (covers : r.commands.flatMap Command.sectors = chunk.request.sectors chunk.transferredBytes)
    (tables : ∀ c ∈ r.commands, c.bytes = c.sectorCount * sectorSize) :
    (σ.ahciDispatchSubChunk m space slot chunk).Tracked m := by
  have direct : chunk.needsBounce m = false → chunk.Direct m space := fun without => by
    rwa [Dispatches, without, if_neg Bool.false_ne_true] at dispatches
  have follows := Follows.dispatch placed same pending direct moves covers tables
  have copied : ∀ j, (chunk.issued m space).Relies j → σ.copyIn m space chunk j = (chunk.issued m space).token m j := by
    rintro j ⟨needed, counted⟩
    by_cases writes : chunk.request.isWrite = true
    · have inside : j < chunk.chunkSize := by
        simp only [ChunkContext.issued, writes, ↓reduceIte] at counted
        exact counted.2
      have needs : chunk.needsBounce m = true := needed
      rw [Dispatches, if_pos needs] at dispatches
      obtain ⟨address, mapped, there⟩ := (dispatches writes).1 j inside
      simp only [copyIn, ChunkContext.token, ChunkContext.issued, needs, writes, inside, decide_true, Bool.and_self,
        ↓reduceIte]
      rw [mapped, there]
    · simp only [ChunkContext.issued, writes] at counted
      cases counted
  have kept : ∀ t c j, t ≠ slot → σ.pending t = some c → c.Relies j →
      σ.copyIn m space chunk j = σ.bounceBuffer j := fun t c j other found relies => by
    rw [copyIn, if_neg]
    simp only [Bool.and_eq_true, decide_eq_true_eq]
    rintro ⟨⟨needed, writes⟩, inside⟩
    rw [Dispatches, if_pos needed] at dispatches
    exact (dispatches writes).2 j inside t c other found relies
  refine tracked.put pending_dispatch ?_ follows alone (fun c found => by rw [free] at found; cases found) copied kept
  simp only [ahciDispatchSubChunk, log, recorded, Option.map_some, ChunkContext.issued]

theorem Tracked.moveByte (tracked : σ.Tracked m) (found : σ.pending slot = some chunk)
    (undisturbed : chunk.usesBounceBuffer = true → chunk.request.isWrite = false → σ.Undisturbed slot chunk.moved)
    (running : chunk.moved < chunk.command.sectorCount * sectorSize) : (σ.moveByte slot chunk).Tracked m := by
  obtain ⟨r, recorded, follows⟩ := tracked.follows slot chunk found
  have more : chunk.moved < chunk.chunkSize := by rwa [follows.count] at running
  have alone := tracked.alone found
  have before : ∀ c, σ.pending slot = some c → c.masterOip = chunk.masterOip := fun c there => by
    rw [found] at there
    cases there
    rfl
  have placed := pending_moveByte found
  have next : chunk.request.moves m (chunk.transferredBytes + (chunk.moved + 1)) =
      chunk.request.moves m (chunk.transferredBytes + chunk.moved) ++
        [⟨some (chunk.command.lba * sectorSize + chunk.moved),
          chunk.request.address m (chunk.bufferByteOffset + chunk.moved)⟩] := by
    rw [← Nat.add_assoc, Request.moves_add, follows.byte, follows.placed.place]
    rfl
  have moves := follows.moves
  obtain ⟨cell, there, cell_eq⟩ := follows.cell more
  by_cases uses : chunk.usesBounceBuffer = true
  · have token : ∀ j, chunk.Relies j → σ.bounceBuffer j = chunk.token m j := fun j => tracked.held slot chunk j found
    rw [if_pos uses, Option.some.injEq] at cell_eq
    subst cell_eq
    simp only [Transfers.moveByte, there] at placed ⊢
    split_ifs at placed ⊢ with writes
    · have held := token chunk.moved ⟨uses, by rw [if_pos writes]; exact ⟨Nat.le_refl _, more⟩⟩
      simp only [ChunkContext.token, writes, ↓reduceIte] at held
      simp only [writes, Bool.not_true, Bool.and_false, Bool.false_eq_true, ↓reduceIte] at moves
      have moved := follows.moveOn more _ (by
        rw [writes, Bool.not_true, Bool.and_false, if_neg Bool.false_ne_true, next, ← moves])
      refine tracked.put placed ?_ moved alone before (fun j relies => token j ⟨uses, ?_⟩) fun _ _ _ _ _ _ => rfl
      · simp only [log, recorded, Option.map_some, held, Held.memory?_ofMemory]
      · have counted := relies.2
        simp only [writes, ↓reduceIte] at counted ⊢
        exact ⟨Nat.le_of_succ_le counted.1, counted.2⟩
    · have reads : chunk.request.isWrite = false := by simpa using writes
      simp only [uses, reads, Bool.not_false, Bool.and_self, ↓reduceIte] at moves
      have moved := follows.moveOn more r.moves (by rw [uses, reads]; exact moves)
      refine tracked.put placed (Function.update_eq_self_iff.mpr recorded.symm).symm moved alone before
        (fun j relies => ?_) fun t c j other there relies => ?_
      · by_cases same : j = chunk.moved
        · rw [same]
          simp only [ChunkContext.token, reads, Bool.false_eq_true, ↓reduceIte, Function.update_self, follows.lba]
        · have counted := relies.2
          simp only [reads, Bool.false_eq_true, ↓reduceIte] at counted
          refine (Function.update_of_ne same _ _).trans (token j ⟨uses, ?_⟩)
          rw [reads, if_neg Bool.false_ne_true]
          exact Nat.lt_of_le_of_ne (Nat.le_of_lt_succ counted) same
      · have differs : j ≠ chunk.moved := fun same => undisturbed uses reads t c other there (same ▸ relies)
        exact Function.update_of_ne differs _ _
  · have direct : chunk.usesBounceBuffer = false := by simpa using uses
    rw [if_neg uses] at cell_eq
    obtain ⟨address, known, rfl⟩ := Option.map_eq_some_iff.mp cell_eq.symm
    rw [known] at next
    simp only [direct, Bool.false_and, Bool.false_eq_true, ↓reduceIte] at moves
    simp only [Transfers.moveByte, there] at placed ⊢
    have moved := follows.moveOn more _ (by rw [direct, Bool.false_and, if_neg Bool.false_ne_true, next, ← moves])
    refine tracked.put placed ?_ moved alone before (fun j relies => absurd relies.1 uses) fun _ _ _ _ _ _ => rfl
    simp only [log, recorded, Option.map_some]

theorem Tracked.completeChunk (tracked : σ.Tracked m) (found : σ.pending slot = some chunk)
    (copied : chunk.usesBounceBuffer = true → chunk.request.isWrite = false → chunk.Copied m space)
    (dispatches : 0 < chunk.advanced.remainingBytes → σ.Dispatches m space slot chunk.advanced)
    (ended : chunk.moved = chunk.command.sectorCount * sectorSize) : (σ.completeChunk m space slot chunk).Tracked m := by
  obtain ⟨r, recorded, follows⟩ := tracked.follows slot chunk found
  have alone := tracked.alone found
  rw [follows.count] at ended
  have moves := copyOut_eq tracked found follows ended copied
  obtain ⟨positive, sectors, fits⟩ := follows.placed.size
  have total := follows.placed.total
  have released : ∀ τ : Transfers Oip Space, τ.chunkContext = σ.chunkContext →
      τ.pendingOip = Function.update σ.pendingOip slot none → τ.pending = Function.update σ.pending slot none := by
    intro τ contexts oips
    funext s
    rw [pending, contexts, oips]
    by_cases same : s = slot
    · rw [same, Function.update_self, Function.update_self]
      rfl
    · rw [Function.update_of_ne same, Function.update_of_ne same, pending]
  simp only [Transfers.completeChunk]
  split_ifs with more
  · have right : ({ r with moves := r.moves ++ σ.copyOut m space chunk } : Record Space).Right m :=
      { covers := follows.right.covers
        tables := follows.tables
        moved := ⟨chunk.transferredBytes + chunk.chunkSize, by rw [follows.same]; omega, by
          rw [follows.same]
          exact moves⟩
        completed := fun i done => by cases follows.pending.symm.trans done }
    have dropped := tracked.drop (τ := { σ with
      pendingOip := Function.update σ.pendingOip slot none
      records := Function.update σ.records chunk.masterOip
        (some { r with moves := r.moves ++ σ.copyOut m space chunk }) }) found right (released _ rfl rfl) rfl rfl
    have without := released { σ with
      pendingOip := Function.update σ.pendingOip slot none
      records := Function.update σ.records chunk.masterOip
        (some { r with moves := r.moves ++ σ.copyOut m space chunk }) } rfl rfl
    have old : ∀ {t c}, t ≠ slot → Function.update σ.pending slot none t = some c → σ.pending t = some c :=
      fun other there => (Function.update_of_ne other _ _).symm.trans there
    have dispatched := dropped.dispatch (follows.placed.advanced more)
      ((dispatches more).elsewhere fun t c other there => old other (without ▸ there))
      (without ▸ Function.update_self ..) (fun t c other there => alone t c other (old other (without ▸ there)))
      (Function.update_self ..) follows.same follows.pending moves follows.covers follows.tables
    simp only [ahciDispatchSubChunk, log, recorded, Option.map_some, Function.update_idem] at dispatched ⊢
    exact dispatched
  · have whole : chunk.transferredBytes + chunk.chunkSize = chunk.request.byteLength := by
      have nothing : chunk.remainingBytes - chunk.chunkSize = 0 := Nat.eq_zero_of_not_pos more
      omega
    have right : ({ r with
        moves := r.moves ++ σ.copyOut m space chunk
        information := some chunk.advanced.transferredBytes } : Record Space).Right m :=
      { covers := follows.right.covers
        tables := follows.tables
        moved := ⟨chunk.transferredBytes + chunk.chunkSize, by rw [follows.same]; omega, by
          rw [follows.same]
          exact moves⟩
        completed := fun i done => by
          cases done
          rw [follows.same]
          exact ⟨whole, follows.covers, moves⟩ }
    refine tracked.drop found right (released _ rfl rfl) rfl ?_
    simp only [log, recorded, Option.map_some, Function.update_idem, Function.update_self]

theorem Tracked.readWrite (tracked : σ.Tracked m) (meets : σ.Meets m (.readWrite slot oip request))
    (free : σ.pendingOip slot = none) (fresh : σ.records oip = none) :
    (σ.ahciPdoReadWrite m slot oip request).Tracked m := by
  unfold ahciPdoReadWrite
  split_ifs with refused
  · exact tracked
  simp only [not_or, Decidable.not_not] at refused
  obtain ⟨aligned, below, dispatches⟩ := meets refused.2 (Nat.pos_of_ne_zero refused.1)
  have alone : ∀ {t c}, σ.pending t = some c → c.masterOip ≠ oip := fun {t c} there same => by
    obtain ⟨r, recorded, -⟩ := tracked.follows t c there
    rw [same, fresh] at recorded
    cases recorded
  have right : (⟨request, [], [], none⟩ : Record Space).Right m :=
    { covers := ⟨0, Nat.zero_le _, rfl⟩
      tables := fun c member => by cases member
      moved := ⟨0, Nat.zero_le _, rfl⟩
      completed := fun i done => by cases done }
  have accepted : Tracked m { σ with records := update σ.records oip (some ⟨request, [], [], none⟩) } :=
    { follows := fun s c there => by
        obtain ⟨r, recorded, follows⟩ := tracked.follows s c there
        exact ⟨r, (update_of_ne (alone there) _ _).trans recorded, follows⟩
      distinct := tracked.distinct
      held := tracked.held
      finished := fun other r there => by
        by_cases same : other = oip
        · cases (update_self ..).symm.trans (same ▸ there)
          exact .inr right
        · exact tracked.finished other r ((update_of_ne same _ _).symm.trans there) }
  have nothing : [] = request.sectors 0 := by rw [Request.sectors, Nat.zero_div]; rfl
  have without : σ.pending slot = none := by rw [pending, free]; rfl
  exact accepted.dispatch (placed_startChunk oip refused.2 (Nat.pos_of_ne_zero refused.1) aligned below)
    (dispatches.elsewhere fun _ _ _ there => there) without (fun t c _ there => alone there)
    (update_self ..) rfl rfl rfl nothing fun c member => by cases member

section Registers

theorem Issued.dispatch (issued : σ.Issued) : (σ.ahciDispatchSubChunk m space slot chunk).Issued where
  quiet := by
    intro s free
    by_cases same : s = slot
    · simp [ahciDispatchSubChunk, log, same] at free
    · simp only [ahciDispatchSubChunk, log, update_of_ne same] at free ⊢
      exact issued.quiet s free
  ended := by
    intro s c found written
    rw [pending_dispatch] at found
    by_cases same : s = slot
    · simp [ahciDispatchSubChunk, log, same] at written
    · simp only [ahciDispatchSubChunk, log, update_of_ne same] at found written ⊢
      exact issued.ended s c found written

omit [DecidableEq Oip] in
theorem issueCommand_contexts {read : Nat → Bool} (running : ∀ t, read t = true → σ.ci t = true) :
    (σ.issueCommand slot read rest).chunkContext = σ.chunkContext := by
  funext t
  refine if_neg ?_
  simp only [Bool.and_eq_true, Bool.not_eq_true', not_and, Bool.not_eq_false]
  exact running t

omit [DecidableEq Oip] in
theorem Issued.issue (issued : σ.Issued) {read : Nat → Bool} (running : ∀ t, read t = true → σ.ci t = true)
    (reading : σ.issuing slot = read :: rest) : (σ.issueCommand slot read rest).Issued where
  quiet := by
    intro s free
    obtain ⟨idle, written⟩ := issued.quiet s free
    have other : s ≠ slot := fun same => by rw [same, reading] at written; cases written
    have unread : read s = false := Bool.eq_false_iff.mpr fun set => by rw [running s set] at idle; cases idle
    simp [issueCommand, idle, written, unread, other]
  ended := by
    intro s c found written done
    simp only [issueCommand, Bool.or_eq_false_iff, beq_eq_false_iff_ne] at done
    rw [pending, issueCommand_contexts running] at found
    exact issued.ended s c found ((update_of_ne done.2 _ _).symm.trans written) done.1.1

theorem Issued.moveByte (issued : σ.Issued) (found : σ.pending slot = some chunk) (running : σ.ci slot = true) :
    (σ.moveByte slot chunk).Issued := by
  obtain ⟨oips, bits, reads, -⟩ := moveByte_ports σ slot chunk
  constructor
  · rw [oips, bits, reads]
    exact issued.quiet
  · rw [bits, reads, pending_moveByte found]
    intro s c there written done
    by_cases same : s = slot
    · rw [same, running] at done
      cases done
    · rw [update_of_ne same] at there
      exact issued.ended s c there written done

omit [DecidableEq Oip] in
theorem Issued.finish (issued : σ.Issued) (found : σ.chunkContext slot = some chunk)
    (moved : chunk.moved = chunk.command.sectorCount * sectorSize) :
    Issued { σ with ci := update σ.ci slot false } where
  quiet := by
    intro s free
    obtain ⟨idle, written⟩ := issued.quiet s free
    refine ⟨?_, written⟩
    by_cases same : s = slot
    · rw [same]
      exact update_self ..
    · exact (update_of_ne same _ _).trans idle
  ended := by
    intro s c there written done
    by_cases same : s = slot
    · cases (same ▸ chunkContext_of_pending there).symm.trans found
      exact moved
    · exact issued.ended s c there written ((update_of_ne same _ _).symm.trans done)

theorem Issued.complete (issued : σ.Issued) (written : σ.issuing slot = []) (done : σ.ci slot = false) :
    (σ.completeChunk m space slot chunk).Issued := by
  rw [completeChunk]
  split_ifs
  · exact Issued.dispatch ⟨issued.quiet, issued.ended⟩
  · constructor
    · intro s free
      by_cases same : s = slot
      · subst same
        exact ⟨done, written⟩
      · exact issued.quiet s ((update_of_ne same _ _).symm.trans free)
    · intro s c found
      by_cases same : s = slot
      · simp [pending, log, same] at found
      · simp only [pending, log, update_of_ne same] at found
        exact issued.ended s c found

end Registers

theorem step_sound (kept : σ.Tracked m ∧ σ.Issued) (meets : σ.Meets m action)
    (stepped : σ.step m action = some τ) : τ.Tracked m ∧ τ.Issued := by
  obtain ⟨tracked, issued⟩ := kept
  cases action with
  | readWrite slot oip request =>
    simp only [step, Bool.and_eq_true, Option.isNone_iff_eq_none, Option.ite_none_right_eq_some,
      Option.some.injEq] at stepped
    obtain ⟨⟨free, fresh⟩, rfl⟩ := stepped
    refine ⟨tracked.readWrite meets free fresh, ?_⟩
    rw [ahciPdoReadWrite]
    split_ifs
    · exact issued
    · exact Issued.dispatch ⟨issued.quiet, issued.ended⟩
  | issue slot =>
    simp only [step] at stepped
    split at stepped
    next read rest reading =>
      obtain rfl := Option.some.inj stepped
      have running := meets read rest reading
      refine ⟨tracked.congr (funext fun s => ?_) rfl rfl, issued.issue running reading⟩
      rw [pending, issueCommand_contexts running]
      rfl
    next => cases stepped
  | moveByte slot =>
    obtain ⟨chunk, found, moved⟩ := Option.bind_eq_some_iff.mp stepped
    simp only [Bool.and_eq_true, decide_eq_true_eq, Option.ite_none_right_eq_some, Option.some.injEq] at moved
    obtain ⟨⟨running, more⟩, rfl⟩ := moved
    have owned : σ.pendingOip slot ≠ none := fun free => by
      rw [(issued.quiet slot free).1] at running
      cases running
    rw [← pending_eq owned] at found
    exact ⟨tracked.moveByte found (meets chunk (chunkContext_of_pending found)) more, issued.moveByte found running⟩
  | finish slot =>
    obtain ⟨chunk, found, finished⟩ := Option.bind_eq_some_iff.mp stepped
    simp only [Bool.and_eq_true, decide_eq_true_eq, Option.ite_none_right_eq_some, Option.some.injEq] at finished
    obtain ⟨⟨-, moved⟩, rfl⟩ := finished
    exact ⟨tracked.congr rfl rfl rfl, issued.finish found moved⟩
  | complete slot space =>
    obtain ⟨chunk, found, completed⟩ := Option.bind_eq_some_iff.mp stepped
    simp only [Bool.and_eq_true, Option.ite_none_right_eq_some, Option.some.injEq] at completed
    obtain ⟨⟨owned, -⟩, rfl⟩ := completed
    obtain ⟨written, done, finds⟩ := meets
    obtain ⟨copied, dispatches⟩ := finds chunk found
    rw [← pending_eq (Option.isSome_iff_ne_none.mp owned)] at found
    exact ⟨tracked.completeChunk found copied dispatches (issued.ended slot chunk found written done),
      issued.complete written done⟩

/-- Over every interleaving of requests, bytes moved and completions, each byte goes where
it belongs as long as the steps meet the condition. -/
theorem transfers_sound (m : Machine Space) (actions : List (TransferAction Oip Space))
    (meets : Along (Meets m) (Transfers.step m) (noTransfers Oip Space) actions)
    (reached : exec (Transfers.step m) (noTransfers Oip Space) actions = some τ) : τ.Sound m := by
  have initial : (noTransfers Oip Space).Tracked m ∧ (noTransfers Oip Space).Issued :=
    ⟨{ follows := fun _ _ found => by cases found
       distinct := fun _ _ _ _ found => by cases found
       held := fun _ _ _ found => by cases found
       finished := fun _ _ found => by cases found },
     { quiet := fun _ _ => ⟨rfl, rfl⟩
       ended := fun _ _ found => by cases found }⟩
  exact (exec_preserves (fun kept meets stepped => step_sound kept meets stepped) initial meets reached).1.sound

/-- The bytes of a command that does not go through the bounce buffer. -/
theorem run_moveBytes (n : Nat) (found : σ.chunkContext slot = some chunk) (running : σ.ci slot = true)
    (direct : chunk.usesBounceBuffer = false) (recorded : (σ.records chunk.masterOip).isSome)
    (left : chunk.moved + n ≤ chunk.command.sectorCount * sectorSize) :
    ∃ τ, Run (Guarded (Meets m) fun σ action τ => σ.step m action = some τ) σ (replicate n (.moveByte slot)) τ ∧
      τ.ci = σ.ci ∧ τ.issuing = σ.issuing ∧ τ.pendingOip = σ.pendingOip ∧
      τ.chunkContext slot = some { chunk with moved := chunk.moved + n } ∧ (τ.records chunk.masterOip).isSome := by
  induction n generalizing σ chunk with
  | zero => exact ⟨σ, .refl σ, rfl, rfl, rfl, found, recorded⟩
  | succ n ih =>
    obtain ⟨oips, bits, reads, contexts⟩ := moveByte_ports σ slot chunk
    have stepped : σ.step m (.moveByte slot) = some (σ.moveByte slot chunk) := by
      have more : chunk.moved < chunk.command.sectorCount * sectorSize := by omega
      simp only [step, found, Option.bind_some, running, more, decide_true, Bool.and_self, ↓reduceIte]
    have meets : σ.Meets m (.moveByte slot) := fun c there uses => by
      cases found.symm.trans there
      rw [direct] at uses
      cases uses
    have still : ((σ.moveByte slot chunk).records chunk.masterOip).isSome := by
      rw [moveByte]
      split
      · exact recorded
      · simpa [log] using recorded
      · split
        · simpa [log] using recorded
        · exact recorded
    obtain ⟨τ, run, ci, issuing, owners, there, known⟩ := @ih (σ.moveByte slot chunk)
      { chunk with moved := chunk.moved + 1 } (contexts ▸ update_self ..) (bits ▸ running) direct
      still (by simpa only [Nat.add_assoc, Nat.add_comm 1] using left)
    refine ⟨τ, .next ⟨meets, stepped⟩ run, ci.trans bits, issuing.trans reads, owners.trans oips, ?_, known⟩
    rw [there, Nat.add_assoc, Nat.add_comm 1]

/-- A last command of a request that does not go through the bounce buffer is carried out
and completes the request. -/
theorem run_completes (space : Space) (found : σ.chunkContext slot = some chunk) (running : σ.ci slot = true)
    (written : σ.issuing slot = []) (owned : (σ.pendingOip slot).isSome) (direct : chunk.usesBounceBuffer = false)
    (recorded : (σ.records chunk.masterOip).isSome) (fresh : chunk.moved = 0) (last : chunk.advanced.remainingBytes = 0) :
    ∃ actions τ, Run (Guarded (Meets m) fun σ action τ => σ.step m action = some τ) σ actions τ ∧
      (τ.records chunk.masterOip).map (·.information) = some (some chunk.advanced.transferredBytes) := by
  obtain ⟨τ, moved, ci, issuing, owners, there, known⟩ := run_moveBytes (m := m)
    (chunk.command.sectorCount * sectorSize) found running direct recorded (by rw [fresh, Nat.zero_add])
  rw [fresh, Nat.zero_add] at there
  have finished : τ.step m (.finish slot) = some { τ with ci := Function.update τ.ci slot false } := by
    simp only [Transfers.step, there, Option.bind_some, ci, running, decide_true, Bool.and_self, ↓reduceIte]
  have completes : Meets m { τ with ci := Function.update τ.ci slot false } (.complete slot space) := by
    refine ⟨(congrFun issuing slot).trans written, Function.update_self .., fun c at_slot => ?_⟩
    cases there.symm.trans at_slot
    refine ⟨fun uses => ?_, fun more => ?_⟩
    · rw [direct] at uses
      cases uses
    · exact absurd last (Nat.ne_of_gt more)
  have completed : Transfers.step m { τ with ci := Function.update τ.ci slot false } (.complete slot space) =
      some (Transfers.completeChunk m { τ with ci := Function.update τ.ci slot false } space slot
        { chunk with moved := chunk.command.sectorCount * sectorSize }) := by
    simp only [Transfers.step, there, Option.bind_some, owners, owned, Function.update_self, Bool.not_false,
      Bool.or_true, Bool.and_self, ↓reduceIte]
  have ends : τ.Meets m (.finish slot) := trivial
  refine ⟨_, _, moved.trans (.next ⟨ends, finished⟩ (.single ⟨completes, completed⟩)), ?_⟩
  obtain ⟨r, there⟩ := Option.isSome_iff_exists.mp known
  have stops : ¬ chunk.advanced.remainingBytes > 0 := by rw [last]; exact Nat.lt_irrefl 0
  simp only [ChunkContext.advanced, ChunkContext.chunkSize] at stops
  simp only [Transfers.completeChunk, ChunkContext.advanced, ChunkContext.chunkSize, if_neg stops, log,
    Function.update_self, there, Option.map_some]

section Samples

def identityMapped (hasBounceBuffer : Bool) : Machine Unit := ⟨hasBounceBuffer, false, fun _ page => some page⟩

theorem translate_identityMapped (va : Nat) : (identityMapped hasBounceBuffer).translate () va = some va :=
  congrArg some (Nat.div_add_mod' va pageSize)

def oneSector (offset : Nat) (isWrite : Bool) (address : Nat) : Request Unit := ⟨offset, 512, isWrite, .plain address, ()⟩

/-- A read into an even address, which is completed while a write from an odd one is under way. -/
theorem transfers_sound_read : ∃ actions τ,
    exec (Transfers.step (identityMapped true)) (noTransfers Nat Unit) actions = some τ ∧
      (τ.records 7).map (·.information) = some (some 512) ∧ τ.Sound (identityMapped true) := by
  let one : Transfers Nat Unit :=
    (noTransfers Nat Unit).ahciPdoReadWrite (identityMapped true) 0 7 (oneSector 1024 false 8192)
  let two := one.issueCommand 0 (fun _ => false) []
  let three := two.ahciPdoReadWrite (identityMapped true) 1 8 (oneSector 512 true 12289)
  let four := three.issueCommand 1 two.ci []
  have accepts : (noTransfers Nat Unit).Meets (identityMapped true) (.readWrite 0 7 (oneSector 1024 false 8192)) := by
    refine fun _ _ => ⟨by decide, by decide, ?_⟩
    rw [Dispatches, if_neg (by decide)]
    have there : (identityMapped true).mmGetPhysicalAddress () 8192 = 8192 :=
      congrArg (Option.getD · 0) (translate_identityMapped 8192)
    refine ⟨by decide, congrArg (· % 2) there, fun j _ => (translate_identityMapped (8192 + (0 + j))).trans ?_⟩
    rw [Nat.zero_add]
    exact congrArg (some <| · + j) there.symm
  have issues : one.Meets (identityMapped true) (.issue 0) := by
    intro read rest reading t set
    obtain rfl : (fun _ => false) = read := (cons.inj reading).1
    cases set
  have writes : two.Meets (identityMapped true) (.readWrite 1 8 (oneSector 512 true 12289)) := by
    refine fun _ _ => ⟨by decide, by decide, ?_⟩
    rw [Dispatches, if_pos (by decide)]
    refine fun _ => ⟨fun j inside => ⟨12289 + j, translate_identityMapped (12289 + j), ?_⟩,
      fun j inside other c apart there relies => ?_⟩
    · rw [startChunk, Nat.zero_add]
      exact translate_identityMapped (12289 + j)
    · have context : update (fun _ : Nat => none) 0
          (some ((startChunk 7 (oneSector 1024 false 8192)).issued (identityMapped true) ())) other = some c :=
        chunkContext_of_pending there
      by_cases same : other = 0
      · rw [same, update_self] at context
        cases context
        cases relies.1
      · rw [update_of_ne same] at context
        cases context
  have issuesBoth : three.Meets (identityMapped true) (.issue 1) := by
    intro read rest reading t set
    obtain rfl : two.ci = read := (cons.inj reading).1
    exact set
  have start : Run (Guarded (Meets (identityMapped true)) fun σ a τ => σ.step (identityMapped true) a = some τ)
      (noTransfers Nat Unit) _ four :=
    .next ⟨accepts, rfl⟩ <| .next ⟨issues, rfl⟩ <| .next ⟨writes, rfl⟩ <| .single ⟨issuesBoth, rfl⟩
  have context : four.chunkContext 0 =
    some ((startChunk 7 (oneSector 1024 false 8192)).issued (identityMapped true) ()) := rfl
  obtain ⟨actions, τ, run, information⟩ := run_completes (m := identityMapped true) () context rfl rfl rfl rfl rfl rfl rfl
  obtain ⟨along, reached⟩ := (start.trans run).along
  exact ⟨_, τ, reached, information, transfers_sound _ _ along reached⟩

/-- A page array that does not start with a page needs one entry more than the table has; an
offset within a sector is rounded down; and the second of two writes through the bounce
buffer replaces the first. -/
theorem transfer_short_or_misplaced :
    (∃ τ, exec (Transfers.step (identityMapped true)) (noTransfers Nat Unit)
      [.readWrite 0 7 ⟨0, 65536, false, .mdl 0 4 fun page => page, ()⟩] = some τ ∧ ¬ τ.Sound (identityMapped true)) ∧
    (∃ τ, exec (Transfers.step (identityMapped true)) (noTransfers Nat Unit)
      [.readWrite 0 7 (oneSector 256 false 8192), .issue 0, .moveByte 0] = some τ ∧ ¬ τ.Sound (identityMapped true)) ∧
    ∃ τ, exec (Transfers.step (identityMapped true)) (noTransfers Nat Unit)
      [.readWrite 0 7 (oneSector 0 true 8193), .readWrite 1 8 (oneSector 512 true 12289), .issue 0, .moveByte 0] =
        some τ ∧
        ¬ τ.Sound (identityMapped true) := by
  refine ⟨⟨_, rfl, fun sound => ?_⟩, ⟨_, rfl, ?_⟩, _, rfl, ?_⟩
  · exact absurd ((sound 7 _ rfl).tables _ mem_cons_self) (by decide)
  · exact not_sound_of_move 7 ⟨some 0, some 8192⟩ ⟨some 256, some 8192⟩ (by decide +kernel) (by decide)
  · exact not_sound_of_move 7 ⟨some 0, some 12289⟩ ⟨some 0, some 8193⟩ (by decide +kernel) (by decide)

end Samples

end Transfers

end VeaOS.Ahci

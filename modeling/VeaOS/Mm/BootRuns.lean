import VeaOS.Mm.BootFrames

/-! Runs of the allocator from the database that is set up at boot. What it hands out is
usable memory, outside of the kernel and of the database. -/
namespace VeaOS.Mm
open Foundation DoubleList Transition

section Owners
variable {start : PipDatabase} {σ σ' : FrameSystem} {xs : List Nat}

theorem Frames.contiguous_free {db : PipDatabase} (bounded : total ≤ 0x100000)
    (allocated : mmAllocateContiguousPhysicalPages total db pageCount = (db', address)) (nonzero : address ≠ 0) :
    ∀ x ∈ List.range' (frameOf address) pageCount.toNat, x < total ∧ (db.pip x).state = .free := by
  unfold mmAllocateContiguousPhysicalPages at allocated
  split at allocated
  · cases allocated
    exact absurd rfl nonzero
  next some_ =>
    split at allocated
    · cases allocated
      exact absurd rfl nonzero
    next s scanned =>
      obtain ⟨begins, ends, free⟩ := contiguous_spec scanned some_
      cases allocated
      intro x inside
      rw [frameOf_ofNat (by omega), List.mem_range'_1] at inside
      exact ⟨by omega, free x inside.1 inside.2⟩

theorem Frames.owned_nodup (frames : Frames total start σ xs) (bounded : total ≤ 0x100000)
    (once : σ.owned.Nodup) (stepped : frameStep total σ action = some σ') : σ'.owned.Nodup := by
  have unowned {x} (bound : x < total) (isFree : (σ.db.pip x).state = .free) : x ∉ σ.owned :=
    List.count_eq_zero.mp (frames.not_owned (frames.list.members.mpr ⟨bound, isFree⟩)).1
  cases action with
  | allocate =>
    simp only [frameStep, mmAllocatePhysicalPage] at stepped
    cases first : σ.db.mmFirstFreePip with
    | none =>
      simp only [first] at stepped
      obtain rfl := Option.some.inj stepped
      exact once
    | some i =>
      simp only [first] at stepped
      split at stepped
      · cases stepped
      next fits =>
        obtain ⟨bound, isFree⟩ := not_or.mp fits
        obtain rfl := Option.some.inj stepped
        dsimp only
        rw [frameOf_ofNat (by omega)]
        split
        · exact once
        · exact List.nodup_cons.mpr ⟨unowned (Nat.not_le.mp bound) (not_not.mp isFree), once⟩
  | allocateContiguous pageCount =>
    obtain ⟨result, allocated⟩ : ∃ r, mmAllocateContiguousPhysicalPages total σ.db pageCount = r := ⟨_, rfl⟩
    simp only [frameStep, allocated] at stepped
    obtain rfl := Option.some.inj stepped
    dsimp only
    split
    · exact once
    next nonzero =>
      have free := contiguous_free bounded allocated nonzero
      exact List.Nodup.append (List.nodup_range' ..) once fun x inside => unowned (free x inside).1 (free x inside).2
  | free address =>
    obtain rfl := Option.some.inj stepped
    exact once.erase _
  | reference | dereference =>
    obtain rfl := Option.some.inj stepped
    exact once
  | zero =>
    simp only [frameStep] at stepped
    split at stepped <;> (obtain rfl := Option.some.inj stepped; exact once)

end Owners

section Boot
variable {layout : BootLayout} {mmap : List MemoryDescriptor} {memory : Nat → Pip} {db : PipDatabase}
  {place : Placement}

/-- The pages that have an owner or are being cleared are sound, and have nobody else. -/
structure OwnsSound (mmap : List MemoryDescriptor) (place : Placement) (σ : FrameSystem) : Prop where
  once : σ.owned.Nodup
  owned : ∀ i ∈ σ.owned, FrameSound mmap place i
  clearing : ∀ i, σ.zeroing = some i → FrameSound mmap place i ∧ i ∉ σ.owned

theorem Frames.ownsSound (frames : Frames (mmTotalPages (highestAddress mmap)) db σ xs) (once : σ.owned.Nodup)
    (accepted : mmInitializePip fuel layout mmap memory = some (some (db, place)))
    (listed : FreeListSound mmap place db) : OwnsSound mmap place σ := by
  obtain ⟨mmap', _, _, rfl⟩ := accepted_spec accepted
  obtain ⟨ys, linked, members, states, _⟩ := fillDatabase_spec (mmTotalPages (highestAddress mmap)) mmap' memory
  obtain ⟨zs, linkedZ, sound⟩ := listed
  obtain rfl := linked.unique linkedZ
  -- a page that is active now was not reserved at boot
  have began {i} (bound : i < mmTotalPages (highestAddress mmap)) (active : (σ.db.pip i).state = .active) :
      FrameSound mmap place i := by
    rcases (states i bound).2 with free | reserved
    · exact sound i ((members i).mpr ⟨bound, free⟩)
    · cases active.symm.trans (frames.reserved bound reserved)
  refine ⟨once, fun i member => ?_, fun i clears => ?_⟩
  · have bound := frames.known (.inl member)
    exact began bound ((frames.accounted bound).owned (List.count_pos_iff.mpr member)).1
  · have bound := frames.known (.inr clears)
    have account := frames.accounted bound
    exact ⟨began bound (account.clearing clears), fun member =>
      (account.owned (List.count_pos_iff.mpr member)).2 clears⟩

/-- In every run from the boot on whose pages are locked while they are active, only sound
pages are handed out, each to one owner. -/
theorem boot_runs_sound (accepted : mmInitializePip fuel layout mmap memory = some (some (db, place)))
    (fits : MapFits layout mmap) (wholePages : WholePages layout mmap)
    (admitted : Along (fun σ action => Balanced σ action ∧
        LocksActive (mmTotalPages (highestAddress mmap)) σ action)
      (frameStep (mmTotalPages (highestAddress mmap))) ⟨db, none, [], []⟩ actions) :
    ∃ σ, exec (frameStep (mmTotalPages (highestAddress mmap))) ⟨db, none, [], []⟩ actions = some σ ∧
      OwnsSound mmap place σ := by
  have bounded : mmTotalPages (highestAddress mmap) ≤ 0x100000 := by
    have := (highestAddress mmap).isLt
    rw [mmTotalPages]
    omega
  obtain ⟨⟨xs, list⟩, zeroed⟩ := quiet_of_accepted accepted
  have start : Frames (mmTotalPages (highestAddress mmap)) db ⟨db, none, [], []⟩ xs := by
    refine ⟨list, zeroed, fun {x} bound => ?_, fun {x} held => ?_, fun _ => id⟩
    · constructor <;> simp
    · simp at held
  obtain ⟨σ, ended, xs', frames, once⟩ := exec_invariant
    (P := fun _ σ => ∃ xs, Frames (mmTotalPages (highestAddress mmap)) db σ xs ∧ σ.owned.Nodup)
    (fun {n σ action} invariant admits _ => by
      obtain ⟨xs, frames, once⟩ := invariant
      obtain ⟨σ', xs', done, next⟩ := frames.step bounded admits
      exact ⟨σ', done, xs', next, frames.owned_nodup bounded once done⟩)
    ⟨xs, start, List.nodup_nil⟩ admitted (show 0 + actions.length ≤ actions.length by omega)
  exact ⟨σ, ended, frames.ownsSound once accepted (sound_of_wholePages accepted fits wholePages)⟩

theorem wholePages_bootMap : WholePages bootLayout (bootMap 0x5001000) := by
  intro j d at_ usable _
  rcases getElem?_bootMap at_ with ⟨-, rfl⟩ | ⟨-, rfl⟩ | ⟨-, rfl⟩ | ⟨-, rfl⟩ <;> exact .inl (by decide)

theorem boot_runs_sound_aligned : ∃ db σ,
    mmInitializePip 120 bootLayout (bootMap 0x5001000) (fun _ => reservedPip) = some (some (db, bootPlace)) ∧
    exec (frameStep (mmTotalPages (highestAddress (bootMap 0x5001000)))) ⟨db, none, [], []⟩
      [.allocate, .zero, .allocateContiguous 2] = some σ ∧ OwnsSound (bootMap 0x5001000) bootPlace σ := by
  obtain ⟨db, accepted⟩ := accepted_bootMap (.inr rfl) fun _ => reservedPip
  obtain ⟨σ, ended, sound⟩ := boot_runs_sound accepted (mapFits_bootMap (.inr rfl)) wholePages_bootMap
    (show Along _ _ _ [.allocate, .zero, .allocateContiguous 2] from
      ⟨⟨trivial, trivial⟩, fun _ _ => ⟨⟨trivial, trivial⟩, fun _ _ => ⟨⟨trivial, trivial⟩, fun _ _ => trivial⟩⟩⟩)
  exact ⟨db, σ, accepted, ended, sound⟩

end Boot
end VeaOS.Mm

import VeaOS.Foundation.Runs
import VeaOS.Mm.SystemLoader

/-! Loads of drivers one after the other. A load compares the base name with the stored
paths and says nothing about an entry that it finds, and it gives no range back once the
driver has one. -/
namespace VeaOS.Mm.Loader
open Foundation Elf Transition Option

/-- The system space, and the path that each entry of its list was loaded for. -/
structure Session where
  space : SystemSpace
  paths : List (List Byte)

def Loaded (paths : List (List Byte)) (path : List Byte) : Prop := ∃ p ∈ paths, rtlEqualString path p = true

/-- No two entries were loaded for one path, in any case spelling. -/
def OnePerPath (paths : List (List Byte)) : Prop := paths.Pairwise fun p q => rtlEqualString p q = false

structure Unchanged (σ σ' : SystemSpace) : Prop where
  entries : σ'.ptLoadedModuleList = σ.ptLoadedModuleList
  ranges : σ'.ranges = σ.ranges

/-- The entries that a load adds are for its path. -/
def Session.after (s : Session) (call : LoadCall) (r : LoadResult) : Session where
  space := r.space
  paths := s.paths ++ List.replicate (r.space.ptLoadedModuleList.length - s.space.ptLoadedModuleList.length)
    call.fileName

/-- The outputs are an entry for the path and its base. -/
def Answered (s : Session) (call : LoadCall) (r : LoadResult) : Prop :=
  ∃ j p entry, s.paths[j]? = some p ∧ rtlEqualString call.fileName p = true ∧
    s.space.ptLoadedModuleList[j]? = some entry ∧ (call.moduleObject = true → r.moduleObject = some j) ∧
    (call.imageBaseAddress = true → r.imageBaseAddress = some entry.imageBase)

structure LoadCorrect (s : Session) (call : LoadCall) (r : LoadResult) : Prop where
  reload : Loaded s.paths call.fileName → veaSuccess r.status = true ∧ Unchanged s.space r.space ∧
    Answered s call r
  once : OnePerPath s.paths → OnePerPath (s.after call r).paths
  failed : veaSuccess r.status = false → Unchanged s.space r.space

section Condition
variable (fuel : Nat) (kernelExport : List Byte → BitVec 32)

/-- The load comes to the section of the file. -/
structure Opens (σ : SystemSpace) (call : LoadCall) (answers : Answers) : Prop where
  buffer : answers.buffer = true
  unlisted : (σ.ptLoadedModuleList.any fun entry => rtlEqualString call.searched entry.filePath) = false
  opened : veaSuccess answers.openFile = true
  created : veaSuccess answers.createSection = true
  referenced : veaSuccess answers.referenceSection = true
  session : call.flags = 0

/-- What has to go well once the driver has its range. -/
structure DriverFinishes (σ : SystemSpace) (answers : Answers) : Prop where
  place : answers.driver.place ≠ 0
  pages : ∀ i < (pageCountOf answers.image.sizeOfSection).toNat, answers.page i ≠ 0
  relocates : ∃ m status, ldrRelocateImage fuel kernelExport (copyBytes σ.memory answers.driver.place
    answers.image.sizeOfSection answers.image.bytes) answers.driver.place = some (m, status) ∧
      veaSuccess status = true
  entry : answers.entry = true

/-- Once there is a range, nothing fails any more. -/
structure Finishes (σ : SystemSpace) (answers : Answers) : Prop where
  view : answers.image.viewSize ≠ 0 → answers.view.refuses (pageCountOf answers.image.viewSize) = false →
    answers.view.place ≠ 0
  driver : answers.image.viewSize ≠ 0 → answers.view.refuses (pageCountOf answers.image.viewSize) = false →
    answers.image.sizeOfSection ≠ 0 → answers.driver.refuses (pageCountOf answers.image.sizeOfSection) = false →
    DriverFinishes fuel kernelExport σ answers

end Condition

section Ranges
variable {σ : SystemSpace} {base : BitVec 32}

theorem unmap_entries : (mmUnmapViewOfSection σ base).ptLoadedModuleList = σ.ptLoadedModuleList := by
  rw [mmUnmapViewOfSection]
  split
  · rfl
  · split <;> rfl

theorem unmap_memory : (mmUnmapViewOfSection σ base).memory = σ.memory := by
  rw [mmUnmapViewOfSection]
  split
  · rfl
  · split <;> rfl

theorem unmap_length (σ : SystemSpace) (base : BitVec 32) : σ.ranges.length ≤ (mmUnmapViewOfSection σ base).ranges.length + 1 := by
  rw [mmUnmapViewOfSection]
  split
  · exact Nat.le_succ _
  · next range found =>
      split
      · exact Nat.le_succ _
      · have member := List.mem_of_find?_eq_some found
        have shorter := List.length_erase_of_mem member
        simp only [shorter]
        omega

theorem unmap_newest (newest : σ.ranges = (base >>> 12, last) :: rest) (holds : base >>> 12 ≤ last) :
    (mmUnmapViewOfSection σ base).ranges = rest := by
  have found : σ.ranges.find? (fun range => range.1 ≤ base >>> 12 && base >>> 12 ≤ range.2) =
      some (base >>> 12, last) := by
    rw [newest, List.find?_cons_of_pos]
    simpa using holds
  simp only [mmUnmapViewOfSection, found]
  simp [newest]

theorem granted_holds {gap : Gap} (granted : gap.refuses pageCount = false) :
    gap.place >>> 12 ≤ (gap.place >>> 12) + pageCount - 1 := by
  simp only [Gap.refuses, Bool.or_eq_false_iff, beq_eq_false_iff_ne, decide_eq_false_iff_not,
    gt_iff_lt, BitVec.lt_def] at granted
  obtain ⟨⟨⟨_, nonzero⟩, few⟩, _⟩ := granted
  have limit : (kvaSize / 0x1000).toNat = 0x3EC00 := by decide
  have positive : pageCount.toNat ≠ 0 := fun zero => nonzero (BitVec.eq_of_toNat_eq zero)
  have page : (gap.place >>> 12).toNat < 0x100000 := by
    rw [BitVec.toNat_ushiftRight, Nat.shiftRight_eq_div_pow]
    have := gap.place.isLt
    omega
  rw [limit] at few
  rw [BitVec.le_def]
  have one : (1 : BitVec 32).toNat = 1 := rfl
  rw [BitVec.toNat_sub, BitVec.toNat_add, one]
  omega

end Ranges

section Image
variable {σ : SystemSpace} {answers : Answers} {fuel : Nat} {kernelExport : List Byte → BitVec 32}

theorem mapPages_complete {pte : BitVec 32 → Option (BitVec 32)} :
    (mapPages page left i va pte).2 = true ↔ ∀ k < left, page (i + k) ≠ 0 := by
  induction left generalizing i va pte with
  | zero => simp [mapPages]
  | succ left ih =>
    rw [mapPages]
    split
    · next none_ =>
        refine iff_of_false (by simp) fun all => ?_
        exact all 0 (Nat.succ_pos _) none_
    · next some_ =>
        rw [ih]
        constructor
        · rintro later (_ | k) inside
          · exact some_
          · have := later k (Nat.lt_of_succ_lt_succ inside)
            rwa [Nat.add_assoc, Nat.add_comm 1] at this
        · intro all k inside
          have := all (k + 1) (Nat.succ_lt_succ inside)
          rwa [Nat.add_assoc, Nat.add_comm 1]

theorem mapPages_all {pte : BitVec 32 → Option (BitVec 32)} :
    (mapPages page n 0 va pte).2 = true ↔ ∀ k < n, page k ≠ 0 := by
  rw [mapPages_complete]
  simp only [Nat.zero_add]

/-- What is left when the section was or was not brought into the system space. -/
inductive ImageOutcome (fuel : Nat) (kernelExport : List Byte → BitVec 32) (σ : SystemSpace) (answers : Answers) :
    SystemSpace → Status → BitVec 32 → Prop where
  | refused {σ' : SystemSpace} (failed : veaSuccess status = false) (unchanged : Unchanged σ σ')
      (finishes : Finishes fuel kernelExport σ answers) : ImageOutcome fuel kernelExport σ answers σ' status 0
  | lost {σ' : SystemSpace} (failed : veaSuccess status = false)
      (entries : σ'.ptLoadedModuleList = σ.ptLoadedModuleList)
      (longer : σ.ranges.length < σ'.ranges.length) (unfinished : ¬ Finishes fuel kernelExport σ answers) :
      ImageOutcome fuel kernelExport σ answers σ' status 0
  | brought {σ' : SystemSpace} (entries : σ'.ptLoadedModuleList = σ.ptLoadedModuleList)
      (longer : σ.ranges.length < σ'.ranges.length)
      (memory : σ'.memory =
        copyBytes σ.memory answers.driver.place answers.image.sizeOfSection answers.image.bytes)
      (decided : Finishes fuel kernelExport σ answers ↔ answers.entry = true ∧ ∃ m status,
        ldrRelocateImage fuel kernelExport σ'.memory answers.driver.place = some (m, status) ∧
          veaSuccess status = true) :
      ImageOutcome fuel kernelExport σ answers σ' statusSuccess answers.driver.place

/-- The view of the section is refused, or it takes a range. -/
inductive ViewOutcome (σ : SystemSpace) (image : ImageSection) (gap : Gap) :
    SystemSpace × Status × BitVec 32 → Prop where
  | refused (failed : veaSuccess status = false)
      (none_ : image.viewSize = 0 ∨ gap.refuses (pageCountOf image.viewSize) = true) :
      ViewOutcome σ image gap (σ, status, 0)
  | taken {σ' : SystemSpace} (sized : image.viewSize ≠ 0)
      (granted : gap.refuses (pageCountOf image.viewSize) = false)
      (same : status = if gap.place = 0 then statusNoMemory else statusSuccess)
      (entries : σ'.ptLoadedModuleList = σ.ptLoadedModuleList) (memory : σ'.memory = σ.memory)
      (ranges : σ'.ranges = (gap.place >>> 12, (gap.place >>> 12) + pageCountOf image.viewSize - 1) :: σ.ranges) :
      ViewOutcome σ image gap (σ', status, gap.place)

theorem view_outcome (image : ImageSection) (gap : Gap) :
    ViewOutcome σ image gap (mmMapViewOfSection σ image gap) := by
  rw [mmMapViewOfSection]
  by_cases empty : image.viewSize = 0
  · rw [if_pos empty]
    exact .refused rfl (.inl empty)
  · rw [if_neg empty, mmAllocateVirtualRange]
    cases granted : gap.refuses (pageCountOf image.viewSize) with
    | true => exact .refused rfl (.inr granted)
    | false => exact .taken empty granted rfl rfl rfl rfl

theorem image_outcome {σ' : SystemSpace} (loaded : miLoadImageSection σ answers = (σ', status, base)) :
    ImageOutcome fuel kernelExport σ answers σ' status base := by
  rw [miLoadImageSection] at loaded
  have outcome := view_outcome (σ := σ) answers.image answers.view
  obtain ⟨⟨σ₁, status₁, tempBase⟩, mapped⟩ : ∃ v, mmMapViewOfSection σ answers.image answers.view = v := ⟨_, rfl⟩
  rw [mapped] at loaded outcome
  cases outcome with
  | refused failed none_ =>
    simp only [failed, Bool.not_false, if_true, Prod.mk.injEq] at loaded
    obtain ⟨rfl, rfl, rfl⟩ := loaded
    have never : answers.image.viewSize ≠ 0 →
        answers.view.refuses (pageCountOf answers.image.viewSize) = false → False := by
      intro sized granted
      rcases none_ with empty | refuses
      · exact sized empty
      · rw [granted] at refuses
        cases refuses
    exact .refused failed ⟨rfl, rfl⟩ ⟨fun sized granted => (never sized granted).elim,
      fun sized granted => (never sized granted).elim⟩
  | taken sized granted same entries memory ranges =>
    by_cases nowhere : answers.view.place = 0
    · rw [if_pos nowhere] at same
      subst same
      have failed : veaSuccess statusNoMemory = false := rfl
      simp only [failed, Bool.not_false, if_true, Prod.mk.injEq] at loaded
      obtain ⟨rfl, rfl, rfl⟩ := loaded
      exact .lost failed entries (by simp [ranges]) fun finishes => finishes.view sized granted nowhere
    rw [if_neg nowhere] at same
    subst same
    have succeeded : veaSuccess statusSuccess = true := rfl
    simp only [succeeded, Bool.not_true, Bool.false_eq_true, if_false] at loaded
    have restored := unmap_newest ranges (granted_holds granted)
    by_cases empty : answers.image.sizeOfSection = 0
    · rw [if_pos empty, Prod.mk.injEq, Prod.mk.injEq] at loaded
      obtain ⟨rfl, rfl, rfl⟩ := loaded
      exact .refused rfl ⟨unmap_entries.trans entries, restored⟩
        ⟨fun _ _ => nowhere, fun _ _ some_ => absurd empty some_⟩
    rw [if_neg empty, mmAllocateVirtualRange] at loaded
    cases driver : answers.driver.refuses (pageCountOf answers.image.sizeOfSection) with
    | true =>
      simp only [driver, if_true, Prod.mk.injEq] at loaded
      obtain ⟨rfl, rfl, rfl⟩ := loaded
      refine .refused rfl ⟨unmap_entries.trans entries, restored⟩ ⟨fun _ _ => nowhere, fun _ _ _ taken => ?_⟩
      rw [driver] at taken
      cases taken
    | false =>
      simp only [driver, Bool.false_eq_true, if_false] at loaded
      have longer : ∀ {σ₂ : SystemSpace}, σ₂.ranges = (answers.driver.place >>> 12,
          (answers.driver.place >>> 12) + pageCountOf answers.image.sizeOfSection - 1) :: σ₁.ranges →
          σ.ranges.length < (mmUnmapViewOfSection σ₂ answers.view.place).ranges.length := by
        intro σ₂ both
        have left := unmap_length σ₂ answers.view.place
        simp only [both, ranges, List.length_cons] at left
        omega
      have needs : Finishes fuel kernelExport σ answers → DriverFinishes fuel kernelExport σ answers :=
        fun finishes => finishes.driver sized granted empty driver
      by_cases placed : answers.driver.place = 0
      · rw [if_pos placed, Prod.mk.injEq, Prod.mk.injEq] at loaded
        obtain ⟨rfl, rfl, rfl⟩ := loaded
        exact .lost rfl (unmap_entries.trans entries) (longer rfl) fun finishes =>
          (needs finishes).place placed
      rw [if_neg placed] at loaded
      cases complete : (mapPages answers.page (pageCountOf answers.image.sizeOfSection).toNat 0
          answers.driver.place σ₁.pte).2 with
      | false =>
        simp only [complete, Bool.not_false, if_true, Prod.mk.injEq] at loaded
        obtain ⟨rfl, rfl, rfl⟩ := loaded
        refine .lost rfl (unmap_entries.trans entries) (longer rfl) fun finishes => ?_
        rw [mapPages_all.mpr (needs finishes).pages] at complete
        cases complete
      | true =>
        simp only [complete, Bool.not_true, Bool.false_eq_true, if_false, Prod.mk.injEq] at loaded
        obtain ⟨rfl, rfl, rfl⟩ := loaded
        have pages := mapPages_all.mp complete
        refine .brought (unmap_entries.trans entries) (longer rfl) (by rw [unmap_memory, memory]) ?_
        rw [unmap_memory, memory]
        constructor
        · exact fun finishes => ⟨(needs finishes).entry, (needs finishes).relocates⟩
        · rintro ⟨entry, relocates⟩
          exact ⟨fun _ _ => nowhere, fun _ _ _ _ => ⟨placed, pages, relocates, entry⟩⟩

end Image

section Loads
variable {s : Session} {call : LoadCall} {answers : Answers} {r : LoadResult} {fuel : Nat}
  {kernelExport : List Byte → BitVec 32}

/-- A load leaves the space as it is and says nothing, adds an entry, or loses a range. -/
inductive Outcome (fuel : Nat) (kernelExport : List Byte → BitVec 32) (σ : SystemSpace) (call : LoadCall)
    (answers : Answers) (r : LoadResult) : Prop where
  | stays (unchanged : Unchanged σ r.space) (noEntry : r.moduleObject = none) (noBase : r.imageBaseAddress = none)
      (finishes : Opens σ call answers → Finishes fuel kernelExport σ answers)
  | added (succeeded : veaSuccess r.status = true)
      (entries : ∃ entry, r.space.ptLoadedModuleList = σ.ptLoadedModuleList ++ [entry])
      (finishes : Finishes fuel kernelExport σ answers)
  | lost (failed : veaSuccess r.status = false) (longer : σ.ranges.length < r.space.ranges.length)
      (opens : Opens σ call answers) (unfinished : ¬ Finishes fuel kernelExport σ answers)

theorem load_outcome {σ : SystemSpace} (done : mmLoadSystemImage fuel kernelExport σ call answers = some r) :
    Outcome fuel kernelExport σ call answers r := by
  have closed : ∀ {status : Status}, (Opens σ call answers → False) → some ⟨σ, status, none, none⟩ = some r →
      Outcome fuel kernelExport σ call answers r := by
    intro status shut done
    obtain rfl := some.inj done
    exact .stays ⟨rfl, rfl⟩ rfl rfl fun opens => (shut opens).elim
  rw [mmLoadSystemImage] at done
  cases buffer : answers.buffer with
  | false =>
    simp only [buffer, Bool.not_false, if_true] at done
    refine closed (fun opens => ?_) done
    exact absurd (buffer.symm.trans opens.buffer) (by decide)
  | true =>
  simp only [buffer, Bool.not_true, Bool.false_eq_true, if_false] at done
  cases listed : σ.ptLoadedModuleList.any fun entry => rtlEqualString call.searched entry.filePath with
  | true =>
    rw [listed, if_pos rfl] at done
    refine closed (fun opens => ?_) done
    exact absurd (listed.symm.trans opens.unlisted) (by decide)
  | false =>
  simp only [listed, Bool.false_eq_true, if_false] at done
  cases opened : veaSuccess answers.openFile with
  | false =>
    simp only [opened, Bool.not_false, if_true] at done
    refine closed (fun opens => ?_) done
    exact absurd (opened.symm.trans opens.opened) (by decide)
  | true =>
  simp only [opened, Bool.not_true, Bool.false_eq_true, if_false] at done
  cases created : veaSuccess answers.createSection with
  | false =>
    simp only [created, Bool.not_false, if_true] at done
    refine closed (fun opens => ?_) done
    exact absurd (created.symm.trans opens.created) (by decide)
  | true =>
  simp only [created, Bool.not_true, Bool.false_eq_true, if_false] at done
  cases referenced : veaSuccess answers.referenceSection with
  | false =>
    simp only [referenced, Bool.not_false, if_true] at done
    refine closed (fun opens => ?_) done
    exact absurd (referenced.symm.trans opens.referenced) (by decide)
  | true =>
  simp only [referenced, Bool.not_true, Bool.false_eq_true, if_false] at done
  by_cases session : call.flags = 0
  · have opens : Opens σ call answers := ⟨buffer, listed, opened, created, referenced, session⟩
    rw [if_neg (not_not_intro session)] at done
    obtain ⟨⟨σ₁, status, base⟩, loaded⟩ : ∃ v, miLoadImageSection σ answers = v := ⟨_, rfl⟩
    rw [loaded] at done
    have outcome : ImageOutcome fuel kernelExport σ answers σ₁ status base := image_outcome loaded
    cases outcome with
    | refused failed unchanged finishes =>
      simp only [failed, Bool.not_false, if_true] at done
      obtain rfl := some.inj done
      exact .stays unchanged rfl rfl fun _ => finishes
    | lost failed entries longer unfinished =>
      simp only [failed, Bool.not_false, if_true] at done
      obtain rfl := some.inj done
      exact .lost failed longer opens unfinished
    | brought entries longer memory decided =>
      have succeeded : veaSuccess statusSuccess = true := rfl
      simp only [succeeded, Bool.not_true, Bool.false_eq_true, if_false, bind_eq_bind] at done
      obtain ⟨⟨m, status⟩, relocated, done⟩ := bind_eq_some_iff.mp done
      cases relocates : veaSuccess status with
      | false =>
        simp only [relocates, Bool.not_false, if_true] at done
        obtain rfl := some.inj done
        refine .lost relocates longer opens fun finishes => ?_
        obtain ⟨m', status', again, success⟩ := (decided.mp finishes).2
        cases relocated.symm.trans again
        rw [relocates] at success
        cases success
      | true =>
        simp only [relocates, Bool.not_true, Bool.false_eq_true, if_false] at done
        cases entry : answers.entry with
        | false =>
          simp only [entry, Bool.not_false, if_true] at done
          obtain rfl := some.inj done
          have failed : veaSuccess statusInsufficientResources = false := by decide
          refine .lost failed longer opens fun finishes => ?_
          exact absurd (entry.symm.trans (decided.mp finishes).1) (by decide)
        | true =>
          simp only [entry, Bool.not_true, Bool.false_eq_true, if_false] at done
          obtain rfl := some.inj done
          exact .added succeeded ⟨_, by rw [entries]⟩ (decided.mpr ⟨entry, m, status, relocated, relocates⟩)
  · rw [if_pos session] at done
    exact closed (fun opens => session opens.session) done

theorem equalString_symm (p q : List Byte) : rtlEqualString p q = rtlEqualString q p := by
  simp only [rtlEqualString]
  exact BEq.comm

/-- What keeps a load in order: the path is new, and a range that is taken is used. -/
def Meets (fuel : Nat) (kernelExport : List Byte → BitVec 32) (s : Session) (load : LoadCall × Answers) : Prop :=
  ¬ Loaded s.paths load.1.fileName ∧
    (Opens s.space load.1 load.2 → Finishes fuel kernelExport s.space load.2)

theorem load_correct (meets : Meets fuel kernelExport s (call, answers))
    (done : mmLoadSystemImage fuel kernelExport s.space call answers = some r) : LoadCorrect s call r := by
  obtain ⟨unloaded, finishes⟩ := meets
  refine ⟨fun loaded => (unloaded loaded).elim, ?_, ?_⟩
  · intro single
    refine List.pairwise_append.mpr ⟨single, ?_, fun p member q new => ?_⟩
    · cases load_outcome done with
      | stays unchanged => simp [unchanged.entries]
      | added _ entries =>
        obtain ⟨entry, entries⟩ := entries
        simp [entries]
      | lost _ _ opens unfinished => exact absurd (finishes opens) unfinished
    · obtain rfl := List.eq_of_mem_replicate new
      rw [equalString_symm, Bool.eq_false_iff]
      exact fun equal => unloaded ⟨p, member, equal⟩
  · intro failed
    cases load_outcome done with
    | stays unchanged => exact unchanged
    | added succeeded =>
      rw [succeeded] at failed
      cases failed
    | lost _ _ opens unfinished => exact absurd (finishes opens) unfinished

theorem correct_meets (asks : call.moduleObject = true ∨ call.imageBaseAddress = true)
    (done : mmLoadSystemImage fuel kernelExport s.space call answers = some r) (correct : LoadCorrect s call r) :
    Meets fuel kernelExport s (call, answers) := by
  -- an output is stored only where an entry was added
  have silent : r.moduleObject = none → r.imageBaseAddress = none → ¬ Answered s call r := by
    rintro noEntry noBase ⟨j, p, entry, _, _, _, module, base⟩
    rcases asks with asks | asks
    · rw [noEntry] at module
      cases module asks
    · rw [noBase] at base
      cases base asks
  cases load_outcome done with
  | stays unchanged noEntry noBase finishes =>
    exact ⟨fun loaded => silent noEntry noBase (correct.reload loaded).2.2, finishes⟩
  | added succeeded entries finishes =>
    refine ⟨fun loaded => ?_, fun _ => finishes⟩
    obtain ⟨entry, entries⟩ := entries
    have same := congrArg List.length (entries.symm.trans (correct.reload loaded).2.1.entries)
    simp at same
  | lost failed longer =>
    rw [(correct.failed failed).ranges] at longer
    exact absurd longer (Nat.lt_irrefl _)

def load (fuel : Nat) (kernelExport : List Byte → BitVec 32) (s : Session) (call : LoadCall × Answers) :
    Option Session :=
  (mmLoadSystemImage fuel kernelExport s.space call.1 call.2).map (s.after call.1)

theorem loads_correct (single : OnePerPath s.paths)
    (meets : Along (Meets fuel kernelExport) (load fuel kernelExport) s calls) :
    Along (fun s c => ∀ r, mmLoadSystemImage fuel kernelExport s.space c.1 c.2 = some r →
      LoadCorrect s c.1 r ∧ OnePerPath (s.after c.1 r).paths) (load fuel kernelExport) s calls := by
  induction calls generalizing s with
  | nil => trivial
  | cons c rest ih =>
    have each : ∀ r, mmLoadSystemImage fuel kernelExport s.space c.1 c.2 = some r →
        LoadCorrect s c.1 r ∧ OnePerPath (s.after c.1 r).paths := fun r done =>
      have correct := load_correct meets.1 done
      ⟨correct, correct.once single⟩
    refine ⟨each, fun t loaded => ih ?_ (meets.2 t loaded)⟩
    obtain ⟨r, done, rfl⟩ := map_eq_some_iff.mp loaded
    exact (each r done).2

/-- A load that asks for the entry or for the base is as it should be exactly when its path is new
and nothing fails once there is a range. In a run of such loads no path has two entries. -/
theorem loads_in_order (fuel : Nat) (kernelExport : List Byte → BitVec 32) :
    (∀ s call answers r, call.moduleObject = true ∨ call.imageBaseAddress = true →
      mmLoadSystemImage fuel kernelExport s.space call answers = some r →
      (LoadCorrect s call r ↔ Meets fuel kernelExport s (call, answers))) ∧
    ∀ s calls, OnePerPath s.paths → Along (Meets fuel kernelExport) (load fuel kernelExport) s calls →
      Along (fun s c => ∀ r, mmLoadSystemImage fuel kernelExport s.space c.1 c.2 = some r →
        LoadCorrect s c.1 r ∧ OnePerPath (s.after c.1 r).paths) (load fuel kernelExport) s calls :=
  ⟨fun _ _ _ _ asks done => ⟨correct_meets asks done, fun meets => load_correct meets done⟩,
    fun _ _ single meets => loads_correct single meets⟩

end Loads

section Sample

/-- A relocatable image with one section of code. -/
def driverBytes : List Byte :=
  elfMag ++ [1, 1] ++ List.replicate 10 0 ++ littleEndian 2 1 ++ littleEndian 2 3 ++ littleEndian 4 1 ++
    littleEndian 4 0 ++ littleEndian 4 0 ++ littleEndian 4 52 ++ littleEndian 4 0 ++ littleEndian 2 52 ++
    littleEndian 2 0 ++ littleEndian 2 0 ++ littleEndian 2 40 ++ littleEndian 2 2 ++ littleEndian 2 0 ++
    List.replicate 40 0 ++ [0, 1, 6, 0, 132, 4, 0, 0, 1, 0].flatMap (littleEndian 4) ++ littleEndian 4 0xC3

/-- Everything goes well, and a driver's range is put at an address. -/
def goodAnswers (place : BitVec 32) : Answers where
  buffer := true
  unsetStatus := 0
  openFile := 0
  createSection := 0
  referenceSection := 0
  image := ⟨136, 136, fun i => driverBytes.getD i 0⟩
  view := ⟨true, 0xC2000000⟩
  driver := ⟨true, place⟩
  page _ := 0x100000
  entry := true
  name := true

/-- The load of `/a.ko`. -/
def sampleCall : LoadCall := ⟨[0x2F, 0x61, 0x2E, 0x6B, 0x6F], none, 0, true, true⟩

def emptySession : Session := ⟨⟨[], [], fun _ => none, fun _ _ => 0⟩, []⟩

theorem sample_meets : Meets 8 (fun _ => 0) emptySession (sampleCall, goodAnswers 0xC1000000) := by
  have fresh : ¬ Loaded emptySession.paths sampleCall.fileName := fun ⟨_, member, _⟩ => (nomatch member)
  refine ⟨fresh, fun _ => ⟨fun _ _ => by decide, fun _ _ _ _ => ?_⟩⟩
  have relocates : (ldrRelocateImage 8 (fun _ => 0) (copyBytes emptySession.space.memory 0xC1000000 136
      fun i => driverBytes.getD i 0) 0xC1000000).map Prod.snd = some statusSuccess := by decide +kernel
  obtain ⟨⟨m, status⟩, done, rfl⟩ := map_eq_some_iff.mp relocates
  exact ⟨by decide, fun _ _ => (by decide : (0x100000 : BitVec 32) ≠ 0), ⟨m, _, done, by decide⟩, rfl⟩

theorem sample_loads : (mmLoadSystemImage 8 (fun _ => 0) emptySession.space sampleCall
    (goodAnswers 0xC1000000)).map (fun r => (r.status, r.moduleObject, r.imageBaseAddress)) = some (0, some 0, some 0xC1000000) := by
  decide +kernel

theorem loads_in_order_sample :
    (∃ r, mmLoadSystemImage 8 (fun _ => 0) emptySession.space sampleCall (goodAnswers 0xC1000000) = some r ∧
      (LoadCorrect emptySession sampleCall r ↔
        Meets 8 (fun _ => 0) emptySession (sampleCall, goodAnswers 0xC1000000))) ∧
    Along (fun s c => ∀ r, mmLoadSystemImage 8 (fun _ => 0) s.space c.1 c.2 = some r →
      LoadCorrect s c.1 r ∧ OnePerPath (s.after c.1 r).paths) (load 8 fun _ => 0) emptySession
        [(sampleCall, goodAnswers 0xC1000000)] := by
  obtain ⟨r, done, _⟩ := map_eq_some_iff.mp sample_loads
  exact ⟨⟨r, done, (loads_in_order 8 _).1 _ _ _ _ (.inl rfl) done⟩,
    (loads_in_order 8 _).2 _ _ .nil ⟨sample_meets, fun _ _ => trivial⟩⟩

/-- The second load of a path gives it a second entry and a second range. -/
theorem second_load_adds_entry : OnePerPath emptySession.paths ∧
    ∃ s, exec (load 8 fun _ => 0) emptySession
      [(sampleCall, goodAnswers 0xC1000000), (sampleCall, goodAnswers 0xC1001000)] = some s ∧
      ¬ OnePerPath s.paths ∧ s.space.ptLoadedModuleList.length = 2 ∧ s.space.ranges.length = 2 := by
  have twice : (exec (load 8 fun _ => 0) emptySession
      [(sampleCall, goodAnswers 0xC1000000), (sampleCall, goodAnswers 0xC1001000)]).map (fun s =>
        (s.paths, s.space.ptLoadedModuleList.length, s.space.ranges.length)) =
      some ([sampleCall.fileName, sampleCall.fileName], 2, 2) := by decide +kernel
  obtain ⟨s, done, same⟩ := map_eq_some_iff.mp twice
  simp only [Prod.mk.injEq] at same
  obtain ⟨paths, entries, ranges⟩ := same
  refine ⟨.nil, s, done, ?_, entries, ranges⟩
  rw [paths, OnePerPath, List.pairwise_cons]
  exact fun single => absurd (single.1 _ (List.mem_singleton.mpr rfl)) (by decide)

end Sample
end VeaOS.Mm.Loader

import VeaOS.Foundation.Runs
import VeaOS.Mm.DemandPaging

/-! Interleavings of page faults on one view. Faults that do not meet on a page
keep the frames in order; the page shows file data only while it is not read. -/
namespace VeaOS.Mm
open Transition FaultPoint Function
variable {Thread Frame : Type} [DecidableEq Thread] [DecidableEq Frame]

/-- The answers of a file system: all the bytes there are, the end of the file
where there are none, or an error. -/
def Answers (view : FileView) (offset : Nat) : ReadOutcome → Prop
  | .completed information => information = min 4096 (view.file.length - offset)
  | .endOfFile => view.file.length ≤ offset
  | .failed _ => True

def ReadAnswered (view : FileView) (σ : PagingState Thread Frame) : PagingAction Thread Frame → Prop
  | .read thread outcome => ∀ vpn frame, σ.point thread = .reading vpn frame →
      Answers view (view.fileOffset vpn) outcome
  | _ => True

/-- A fault makes its page present only if no other has done so. -/
def Alone (σ : PagingState Thread Frame) : PagingAction Thread Frame → Prop
  | .install thread => ∀ vpn frame, σ.point thread = .installing vpn frame → σ.pte vpn = none
  | _ => True

/-- What a fault shows is file data before its read and after one that failed. -/
def FrameReady (view : FileView) (σ : PagingState Thread Frame) : PagingAction Thread Frame → Prop
  | .install thread => ∀ vpn frame, σ.point thread = .installing vpn frame →
      σ.memory frame = fileBytes view.file (view.fileOffset vpn)
  | .read thread (.failed left) => ∀ vpn frame, σ.point thread = .reading vpn frame →
      left = σ.memory frame
  | _ => True

omit [DecidableEq Thread] [DecidableEq Frame] in
theorem fileBytes_beyond (beyond : file.length ≤ offset + i.val) : fileBytes file offset i = 0 := by
  rw [fileBytes, List.getD_eq_getElem?_getD, List.getElem?_eq_none beyond, Option.getD_none]

omit [DecidableEq Thread] [DecidableEq Frame] in
theorem mmpReadPageFromFile_bytes (answers : Answers view offset outcome)
    (success : (mmpReadPageFromFile view.file offset outcome).2 = true) :
    (mmpReadPageFromFile view.file offset outcome).1 = fileBytes view.file offset := by
  cases outcome with
  | completed information =>
    funext i
    have size := i.isLt
    simp only [Answers] at answers
    simp only [mmpReadPageFromFile]
    split
    next => rfl
    next beyond => rw [fileBytes_beyond (by omega)]
  | endOfFile =>
    funext i
    simp only [Answers] at answers
    rw [mmpReadPageFromFile, fileBytes_beyond (by omega)]
  | failed left => cases success

/-- Every frame that was taken is one page's or one fault's, and a page read by a
fault has that fault's frame. -/
structure FramesKept (σ : PagingState Thread Frame) : Prop where
  held {thread frame} : (σ.point thread).frame? = some frame → σ.allocated frame = true
  apart {s t frame} : (σ.point s).frame? = some frame → (σ.point t).frame? = some frame → s = t
  mapped {vpn frame} : σ.pte vpn = some frame → σ.allocated frame = true
  single {vpn vpn' frame} : σ.pte vpn = some frame → σ.pte vpn' = some frame → vpn = vpn'
  present {thread vpn frame} : (σ.point thread).page? = some (vpn, frame) → σ.pte vpn = some frame
  hidden {thread vpn frame} : (σ.point thread).frame? = some frame →
    (σ.point thread).page? = none → σ.pte vpn ≠ some frame
  owned {frame} : σ.allocated frame = true →
    (∃ vpn, σ.pte vpn = some frame) ∨ ∃ thread, (σ.point thread).frame? = some frame

section FrameSteps
set_option linter.unusedSimpArgs false
set_option linter.unusedSectionVars false

theorem goto_frame? (σ : PagingState Thread Frame) (thread t : Thread) (point : FaultPoint Frame) :
    (update σ.point thread point t).frame? =
      if t = thread then point.frame? else (σ.point t).frame? := by
  rw [update_apply]
  split <;> rfl

theorem goto_page? (σ : PagingState Thread Frame) (thread t : Thread) (point : FaultPoint Frame) :
    (update σ.point thread point t).page? =
      if t = thread then point.page? else (σ.point t).page? := by
  rw [update_apply]
  split <;> rfl

theorem FramesKept.goto {σ : PagingState Thread Frame} (kept : FramesKept σ)
    (frame : (σ.point thread).frame? = point.frame?) (page : (σ.point thread).page? = point.page?) :
    FramesKept (σ.goto thread point) := by
  have frames (t) : ((σ.goto thread point).point t).frame? = (σ.point t).frame? := by
    rw [PagingState.goto_point, goto_frame?, ← frame]
    split
    next same => rw [same]
    next => rfl
  have pages (t) : ((σ.goto thread point).point t).page? = (σ.point t).page? := by
    rw [PagingState.goto_point, goto_page?, ← page]
    split
    next same => rw [same]
    next => rfl
  obtain ⟨held, apart, mapped, single, present, hidden, owned⟩ := kept
  constructor
  all_goals simp only [frames, pages, PagingState.goto_pte, PagingState.goto_allocated]
  all_goals assumption

theorem FramesKept.allocate {σ : PagingState Thread Frame} (kept : FramesKept σ)
    (found : σ.point thread = .found vpn) (free : σ.allocated frame ≠ true) :
    FramesKept ((σ.setAllocated frame true).goto thread (.installing vpn frame)) := by
  have noFrame : (σ.point thread).frame? = none := by rw [found]; rfl
  have noPage : (σ.point thread).page? = none := by rw [found]; rfl
  have newFrame : (installing vpn frame).frame? = some frame := rfl
  have newPage : (installing vpn frame).page? = none := rfl
  obtain ⟨held, apart, mapped, single, present, hidden, owned⟩ := kept
  have unheld {t} : (σ.point t).frame? ≠ some frame := fun taken => free (held taken)
  have unmapped {vpn} : σ.pte vpn ≠ some frame := fun taken => free (mapped taken)
  constructor
  all_goals simp only [PagingState.goto_point, PagingState.setAllocated_point, goto_frame?, goto_page?,
    PagingState.goto_pte, PagingState.setAllocated_pte, PagingState.goto_allocated,
    PagingState.setAllocated_allocated, update_apply, newFrame, newPage]
  all_goals grind

theorem FramesKept.install {σ : PagingState Thread Frame} (kept : FramesKept σ)
    (installing : σ.point thread = .installing vpn frame) (empty : σ.pte vpn = none) :
    FramesKept ((σ.setPte vpn (some frame)).goto thread (.reading vpn frame)) := by
  have ownFrame : (σ.point thread).frame? = some frame := by rw [installing]; rfl
  have noPage : (σ.point thread).page? = none := by rw [installing]; rfl
  have newFrame : (reading vpn frame).frame? = some frame := rfl
  have newPage : (reading vpn frame).page? = some (vpn, frame) := rfl
  obtain ⟨held, apart, mapped, single, present, hidden, owned⟩ := kept
  constructor
  all_goals simp only [PagingState.goto_point, PagingState.setPte_point, goto_frame?, goto_page?,
    PagingState.goto_pte, PagingState.setPte_pte, PagingState.goto_allocated,
    PagingState.setPte_allocated, update_apply, newFrame, newPage]
  all_goals grind

theorem FramesKept.finish {σ : PagingState Thread Frame} (kept : FramesKept σ)
    (reading : σ.point thread = .reading vpn frame) : FramesKept (σ.goto thread .outside) := by
  have ownFrame : (σ.point thread).frame? = some frame := by rw [reading]; rfl
  have ownPage : (σ.point thread).page? = some (vpn, frame) := by rw [reading]; rfl
  have newFrame : (.outside : FaultPoint Frame).frame? = none := rfl
  have newPage : (.outside : FaultPoint Frame).page? = none := rfl
  obtain ⟨held, apart, mapped, single, present, hidden, owned⟩ := kept
  have shown := present ownPage
  constructor
  all_goals simp only [PagingState.goto_point, goto_frame?, goto_page?, PagingState.goto_pte,
    PagingState.goto_allocated, newFrame, newPage]
  all_goals grind

theorem FramesKept.clear {σ : PagingState Thread Frame} (kept : FramesKept σ)
    (clearing : σ.point thread = .clearing vpn frame) :
    FramesKept ((σ.setPte vpn none).goto thread (.freeing frame)) := by
  have ownFrame : (σ.point thread).frame? = some frame := by rw [clearing]; rfl
  have ownPage : (σ.point thread).page? = some (vpn, frame) := by rw [clearing]; rfl
  have newFrame : (freeing frame).frame? = some frame := rfl
  have newPage : (freeing frame).page? = none := rfl
  obtain ⟨held, apart, mapped, single, present, hidden, owned⟩ := kept
  have shown := present ownPage
  have frameOfPage {t vpn frame} (page : (σ.point t).page? = some (vpn, frame)) :
      (σ.point t).frame? = some frame := frame?_of_page? page
  constructor
  all_goals simp only [PagingState.goto_point, PagingState.setPte_point, goto_frame?, goto_page?,
    PagingState.goto_pte, PagingState.setPte_pte, PagingState.goto_allocated,
    PagingState.setPte_allocated, update_apply, newFrame, newPage]
  all_goals grind

theorem FramesKept.free {σ : PagingState Thread Frame} (kept : FramesKept σ)
    (freeing : σ.point thread = .freeing frame) :
    FramesKept ((σ.setAllocated frame false).goto thread .outside) := by
  have ownFrame : (σ.point thread).frame? = some frame := by rw [freeing]; rfl
  have noPage : (σ.point thread).page? = none := by rw [freeing]; rfl
  have newFrame : (.outside : FaultPoint Frame).frame? = none := rfl
  have newPage : (.outside : FaultPoint Frame).page? = none := rfl
  obtain ⟨held, apart, mapped, single, present, hidden, owned⟩ := kept
  have frameOfPage {t vpn frame} (page : (σ.point t).page? = some (vpn, frame)) :
      (σ.point t).frame? = some frame := frame?_of_page? page
  constructor
  all_goals simp only [PagingState.goto_point, PagingState.setAllocated_point, goto_frame?, goto_page?,
    PagingState.goto_pte, PagingState.setAllocated_pte, PagingState.goto_allocated,
    PagingState.setAllocated_allocated, update_apply, newFrame, newPage]
  all_goals grind

theorem FramesKept.setMemory {σ : PagingState Thread Frame} (kept : FramesKept σ) :
    FramesKept (σ.setMemory frame bytes) := by
  obtain ⟨held, apart, mapped, single, present, hidden, owned⟩ := kept
  constructor <;> assumption

end FrameSteps

/-- A step that the page faults can take, with what it found. -/
inductive PagingMove (view : FileView) (σ : PagingState Thread Frame) :
    PagingAction Thread Frame → PagingState Thread Frame → Prop
  | fault (outside : σ.point thread = .outside) :
      PagingMove view σ (.fault thread vpn) (σ.goto thread (.found vpn))
  | unmapped : PagingMove view σ (.fault thread vpn) σ
  | giveUp (found : σ.point thread = .found vpn) : PagingMove view σ (.giveUp thread) (σ.goto thread .outside)
  | allocate (found : σ.point thread = .found vpn) (free : σ.allocated frame ≠ true) :
      PagingMove view σ (.allocate thread frame)
        ((σ.setAllocated frame true).goto thread (.installing vpn frame))
  | install (installing : σ.point thread = .installing vpn frame) :
      PagingMove view σ (.install thread) ((σ.setPte vpn (some frame)).goto thread (.reading vpn frame))
  | read (reading : σ.point thread = .reading vpn frame) (shown : σ.pte vpn = some target) :
      PagingMove view σ (.read thread outcome)
        ((σ.setMemory target (mmpReadPageFromFile view.file (view.fileOffset vpn) outcome).1).goto thread
          (if (mmpReadPageFromFile view.file (view.fileOffset vpn) outcome).2 then .outside
            else .clearing vpn frame))
  | clear (clearing : σ.point thread = .clearing vpn frame) :
      PagingMove view σ (.clear thread) ((σ.setPte vpn none).goto thread (.freeing frame))
  | free (freeing : σ.point thread = .freeing frame) :
      PagingMove view σ (.free thread) ((σ.setAllocated frame false).goto thread .outside)
  | reuse (free : σ.allocated frame ≠ true) : PagingMove view σ (.reuse frame bytes) (σ.setMemory frame bytes)

theorem PagingMove.of_step {σ σ' : PagingState Thread Frame} (stepped : pagingStep view σ action = some σ') :
    PagingMove view σ action σ' := by
  cases action <;> simp only [pagingStep] at stepped <;> grind [PagingMove]

theorem FramesKept.step {σ σ' : PagingState Thread Frame} (kept : FramesKept σ) (alone : Alone σ action)
    (stepped : pagingStep view σ action = some σ') : FramesKept σ' := by
  cases PagingMove.of_step stepped with
  | fault outside => exact kept.goto (by rw [outside]; rfl) (by rw [outside]; rfl)
  | unmapped => exact kept
  | giveUp found => exact kept.goto (by rw [found]; rfl) (by rw [found]; rfl)
  | allocate found free => exact kept.allocate found free
  | install installing => exact kept.install installing (alone _ _ installing)
  | read reading shown =>
    split
    · exact kept.setMemory.finish reading
    · exact kept.setMemory.goto (by rw [PagingState.setMemory_point, reading]; rfl)
        (by rw [PagingState.setMemory_point, reading]; rfl)
  | clear clearing => exact kept.clear clearing
  | free freeing => exact kept.free freeing
  | reuse => exact kept.setMemory

/-- Every page that is present shows its bytes of the file. -/
def Filled (view : FileView) (σ : PagingState Thread Frame) : Prop :=
  ∀ vpn frame, σ.pte vpn = some frame → σ.memory frame = fileBytes view.file (view.fileOffset vpn)

theorem Filled.setMemory {σ : PagingState Thread Frame} (filled : Filled view σ)
    (given : ∀ vpn, σ.pte vpn = some frame → bytes = fileBytes view.file (view.fileOffset vpn)) :
    Filled view (σ.setMemory frame bytes) := by
  intro vpn shown present
  rw [PagingState.setMemory_memory, update_apply]
  split
  next same => exact given vpn (same ▸ present)
  next => exact filled vpn shown present

theorem Filled.setPte {σ : PagingState Thread Frame} (filled : Filled view σ)
    (given : ∀ frame, entry = some frame → σ.memory frame = fileBytes view.file (view.fileOffset vpn)) :
    Filled view (σ.setPte vpn entry) := by
  intro other shown present
  rw [PagingState.setPte_pte, update_apply] at present
  split at present
  next same =>
    rw [same]
    exact given shown present
  next => exact filled other shown present

theorem Filled.step {σ σ' : PagingState Thread Frame} (filled : Filled view σ) (kept : FramesKept σ)
    (ready : FrameReady view σ action) (answered : ReadAnswered view σ action)
    (stepped : pagingStep view σ action = some σ') : Filled view σ' := by
  cases PagingMove.of_step stepped with
  | fault | unmapped | giveUp | allocate | free => exact filled
  | install installing =>
    apply filled.setPte
    rintro _ ⟨⟩
    exact ready _ _ installing
  | @read _ vpn frame target outcome reading shown =>
    apply filled.setMemory
    intro other otherShown
    obtain rfl := kept.single shown otherShown
    cases success : (mmpReadPageFromFile view.file (view.fileOffset vpn) outcome).2 with
    | true => exact mmpReadPageFromFile_bytes (answered vpn frame reading) success
    | false =>
      cases outcome with
      | completed _ | endOfFile => cases success
      | failed left =>
        obtain rfl : frame = target :=
          Option.some.inj ((kept.present (by rw [reading]; rfl)).symm.trans shown)
        exact (ready vpn frame reading).trans (filled vpn frame shown)
  | clear =>
    apply filled.setPte
    rintro _ ⟨⟩
  | reuse free =>
    apply filled.setMemory
    intro vpn shown
    exact absurd (kept.mapped shown) free

/-- Present pages show file data, one frame is not two pages', the frame a fault made
present is still its page's, and a frame that is taken is a page's or a fault's. -/
structure ShowsFile (view : FileView) (σ : PagingState Thread Frame) : Prop where
  filled : Filled view σ
  single {vpn vpn' frame} : σ.pte vpn = some frame → σ.pte vpn' = some frame → vpn = vpn'
  present {thread vpn frame} : (σ.point thread).page? = some (vpn, frame) → σ.pte vpn = some frame
  unmapped {thread vpn frame} : σ.point thread = .freeing frame → σ.pte vpn ≠ some frame
  owned {frame} : σ.allocated frame = true →
    (∃ vpn, σ.pte vpn = some frame) ∨ ∃ thread, (σ.point thread).frame? = some frame

def PagingState.start (memory : Frame → PageBytes) : PagingState Thread Frame where
  pte := fun _ => none
  memory := memory
  allocated := fun _ => false
  point := fun _ => .outside

def PagingStep (view : FileView) (σ : PagingState Thread Frame) (action : PagingAction Thread Frame)
    (σ' : PagingState Thread Frame) : Prop :=
  ReadAnswered view σ action ∧ pagingStep view σ action = some σ'

omit [DecidableEq Thread] [DecidableEq Frame] in
theorem FramesKept.start (memory : Frame → PageBytes) :
    FramesKept (PagingState.start memory : PagingState Thread Frame) := by
  constructor <;> simp [PagingState.start, frame?, page?]

theorem pte_unchanged {σ σ' : PagingState Thread Frame} (alone : Alone σ action)
    (stepped : pagingStep view σ action = some σ') (before : σ.pte vpn = some frame)
    (after : σ'.pte vpn = some frame') : frame = frame' := by
  cases PagingMove.of_step stepped with
  | install installing =>
    have empty := alone _ _ installing
    simp only [PagingState.goto_pte, PagingState.setPte_pte, update_apply] at after
    grind
  | clear =>
    simp only [PagingState.goto_pte, PagingState.setPte_pte, update_apply] at after
    grind
  | _ => exact Option.some.inj (before.symm.trans after)

theorem paging_runs {view : FileView} {memory : Frame → PageBytes}
    {actions : List (PagingAction Thread Frame)} {σ : PagingState Thread Frame}
    (run : Run (Guarded (fun σ action => Alone σ action ∧ FrameReady view σ action) (PagingStep view))
      (.start memory) actions σ) :
    ShowsFile view σ ∧ ∀ action σ', Alone σ action → PagingStep view σ action σ' →
      ∀ vpn frame frame', σ.pte vpn = some frame → σ'.pte vpn = some frame' → frame = frame' := by
  have invariant : FramesKept σ ∧ Filled view σ := by
    apply run.invariant (P := fun σ => FramesKept σ ∧ Filled view σ)
    · rintro σ action σ' ⟨kept, filled⟩ ⟨⟨alone, ready⟩, answered, stepped⟩
      exact ⟨kept.step alone stepped, filled.step kept ready answered stepped⟩
    · constructor
      · exact .start memory
      · rintro vpn frame ⟨⟩
  obtain ⟨kept, filled⟩ := invariant
  constructor
  · constructor
    · exact filled
    · exact kept.single
    · exact kept.present
    · intro thread vpn frame freeing
      exact kept.hidden (congrArg frame? freeing) (congrArg page? freeing)
    · exact kept.owned
  · rintro action σ' alone ⟨answered, stepped⟩ vpn frame frame' before after
    exact pte_unchanged alone stepped before after

/-- A page with the two bytes of a file, and one beyond its end. -/
def twoPages : FileView where
  startingVpn := 0
  endingVpn := 1
  viewOffset := 0
  file := [5, 6]

/-- Two threads fault on the two pages at once. -/
theorem paging_runs_two : ∃ σ : PagingState Nat Nat,
    σ.pte 0 = some 7 ∧ σ.pte 1 = some 8 ∧ σ.memory 7 1 = 6 ∧ ShowsFile twoPages σ := by
  have run : Run (Guarded (fun σ action => Alone σ action ∧ FrameReady twoPages σ action) (PagingStep twoPages))
      (.start fun frame => fileBytes [5, 6] (if frame = 7 then 0 else 4096))
      [.fault 0 0, .fault 1 1, .allocate 0 7, .allocate 1 8, .install 0, .install 1, .read 1 .endOfFile,
        .read 0 (.completed 2)] _ :=
    .next ⟨⟨trivial, trivial⟩, trivial, rfl⟩ <| .next ⟨⟨trivial, trivial⟩, trivial, rfl⟩ <|
    .next ⟨⟨trivial, trivial⟩, trivial, rfl⟩ <| .next ⟨⟨trivial, trivial⟩, trivial, rfl⟩ <|
    .next ⟨⟨fun _ _ taken => by obtain ⟨⟩ := taken; rfl, fun _ _ taken => by obtain ⟨⟩ := taken; rfl⟩, trivial, rfl⟩ <|
    .next ⟨⟨fun _ _ taken => by obtain ⟨⟩ := taken; rfl, fun _ _ taken => by obtain ⟨⟩ := taken; rfl⟩, trivial, rfl⟩ <|
    .next ⟨⟨trivial, trivial⟩, fun _ _ taken => by obtain ⟨⟩ := taken; exact show 2 ≤ 4096 by decide, rfl⟩ <|
    .next ⟨⟨trivial, trivial⟩, fun _ _ taken => by obtain ⟨⟩ := taken; exact show 2 = min 4096 2 by decide, rfl⟩ <|
    .refl _
  exact ⟨_, rfl, rfl, rfl, (paging_runs run).1⟩

/-- A page beyond the end of the file, in a frame of zeros. -/
def emptyView : FileView where
  startingVpn := 0
  endingVpn := 0
  viewOffset := 0
  file := []

/-- A page shows what its frame held before while it is read; and of two faults
that meet on a page one leaves its frame taken for no page. -/
theorem stale_and_leaked :
    (∃ σ : PagingState Nat Nat, Run (PagingStep emptyView) (.start fun _ _ => 1)
      [.fault 0 0, .allocate 0 7, .install 0] σ ∧ ¬ Filled emptyView σ) ∧
    ∃ σ : PagingState Nat Nat, Run (PagingStep emptyView) (.start fun _ _ => 0)
      [.fault 0 0, .fault 1 0, .allocate 0 7, .allocate 1 8, .install 0, .install 1,
        .read 0 .endOfFile, .read 1 .endOfFile] σ ∧
      (∀ thread, (σ.point thread).frame? = none) ∧ σ.allocated 7 = true ∧ ∀ vpn, σ.pte vpn ≠ some 7 := by
  constructor
  · refine ⟨_, .next ⟨trivial, rfl⟩ <| .next ⟨trivial, rfl⟩ <| .next ⟨trivial, rfl⟩ <| .refl _, ?_⟩
    intro filled
    have byte := congrFun (filled 0 7 rfl) 0
    exact absurd byte (by decide)
  · have run : Run (PagingStep emptyView) (.start fun _ _ => 0)
        [.fault 0 0, .fault 1 0, .allocate 0 7, .allocate 1 8, .install 0, .install 1,
          .read 0 .endOfFile, .read 1 .endOfFile] _ :=
      .next ⟨trivial, rfl⟩ <| .next ⟨trivial, rfl⟩ <| .next ⟨trivial, rfl⟩ <|
      .next ⟨trivial, rfl⟩ <| .next ⟨trivial, rfl⟩ <| .next ⟨trivial, rfl⟩ <|
      .next ⟨fun _ _ _ => Nat.zero_le _, rfl⟩ <| .next ⟨fun _ _ _ => Nat.zero_le _, rfl⟩ <| .refl _
    refine ⟨_, run, ?_, rfl, ?_⟩
    · rintro (_ | _ | thread) <;> rfl
    · rintro (_ | vpn) <;> simp [PagingState.start]

end VeaOS.Mm

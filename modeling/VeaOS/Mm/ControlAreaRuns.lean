import VeaOS.Foundation.Runs
import VeaOS.Mm.ControlAreaCounts

/-! Runs of section creations, views, closes and deletions: an area that loses a
holder is looked at, and goes with the last one where the holders are counted. -/
namespace VeaOS.Mm.Section
open Transition Foundation ControlArea Function List

structure Lived (f credit : Nat) (σ : SectionState) : Prop where
  kept : SectionsKept f credit σ
  settled : a < σ.created → Settled σ a

/-- An area may lose one holder where the code then counts the others: of a data
file none or two others remain, and the last holder of an area without a file
leaves no user reference behind. -/
def Releasable (σ : SectionState) (a : Nat) : Prop :=
  ((σ.area a).dataFile = true → σ.views a ≠ 0 → 2 < σ.holders a) ∧
    ((σ.area a).file = false → σ.holders a = 1 → (σ.object a).userReference = false)

namespace Lived
open SectionState
variable {σ : SectionState}

theorem unfreed (lived : Lived f credit σ) (inside : a < σ.created) (held : σ.holders a ≠ 0) :
    (σ.area a).freed = 0 := by
  have account := lived.kept.accounted inside
  have few := account.few
  by_contra freed
  exact held (account.gone (by omega))

theorem update (area : ControlArea) (object : SectionObject) (vads : List ViewVad) (lived : Lived 0 0 σ)
    (inside : a < σ.created)
    (accounted : Accounted area object (vads.countP fun v => v.controlArea == a))
    (files : ∀ g, area.refersTo g = (σ.area a).refersTo g)
    (own : object.controlArea = a) (counted : object.live = true → 0 < object.referenceCount)
    (within : ∀ v ∈ vads, v.controlArea < σ.created) (apart : (vads.map ViewVad.node).Nodup)
    (others : ∀ b, b ≠ a → vads.countP (fun v => v.controlArea == b) = σ.views b)
    (held : object.live.toNat + vads.countP (fun v => v.controlArea == a) ≠ 0) :
    Lived 0 0 (((σ.setVads vads).setObject a object).setArea a area) := by
  constructor
  · exact lived.kept.update area object vads 0 inside accounted (by rw [files]) (fun g _ => files g) own counted within
      apart others
  · intro b created
    exact Settled.update area object vads (fun _ => lived.settled created) others fun _ _ => held

theorem map (lived : Lived 0 0 σ) (live : (σ.object i).live = true) (fresh : ∀ v ∈ σ.vads, v.node ≠ node) :
    Lived 0 0 (mmMapViewOfSegment σ (σ.object i).controlArea node) := by
  have inside := (lived.kept.counted live).1
  have held : σ.holders i ≠ 0 := by
    rw [holders, live, Bool.toNat_true]
    omega
  have unfreed := lived.unfreed inside held
  have account := lived.kept.accounted inside
  have few := lived.kept.views_le (a := i)
  have sections := account.sections unfreed
  have counted : ((⟨node, i⟩ :: σ.vads).countP fun v => v.controlArea == i) = σ.views i + 1 := by
    rw [countP_cons_of_pos (by exact beq_self_eq_true i)]
    rfl
  have updated : Lived 0 0 (((σ.setVads (⟨node, i⟩ :: σ.vads)).setObject i (σ.object i)).setArea i
      (σ.area i).mapView) := by
    apply lived.update _ _ _ inside
    · rw [counted]
      constructor
      · exact account.few
      · exact fun freed => absurd (unfreed.symm.trans freed) Nat.zero_ne_one
      · intro _
        rw [live, Bool.toNat_true] at sections ⊢
        have share : (σ.area i).dataFile.toNat ≤ 1 := Bool.toNat_le _
        rw [mapView_sections _ (by omega), sections,
          show (σ.area i).mapView.dataFile = (σ.area i).dataFile from rfl]
        omega
      · exact account.users
      · exact account.file
    · exact fun _ => rfl
    · exact lived.kept.own inside
    · exact fun live => (lived.kept.counted live).2
    · intro v member
      obtain rfl | old := mem_cons.mp member
      · exact inside
      · exact lived.kept.inside old
    · rw [map_cons, nodup_cons]
      refine ⟨?_, lived.kept.apart⟩
      intro member
      obtain ⟨v, old, same⟩ := mem_map.mp member
      exact fresh v old same
    · intro b other
      rw [countP_cons_of_neg (by simpa using Ne.symm other)]
      rfl
    · rw [counted]
      omega
  rw [lived.kept.own inside]
  rwa [show (σ.setVads (⟨node, i⟩ :: σ.vads)).setObject i (σ.object i) =
    σ.setVads (⟨node, i⟩ :: σ.vads) from setObject_self _] at updated

/-- A view or a section object goes, and the area is looked at. -/
theorem release (area : ControlArea) (object : SectionObject) (vads : List ViewVad) (lived : Lived 0 0 σ)
    (inside : a < σ.created) (releasable : Releasable σ a) (unfreed : (σ.area a).freed = 0)
    (fewer : object.live.toNat + vads.countP (fun v => v.controlArea == a) + 1 = σ.holders a)
    (dropped : area.numberOfSectionReferences.toNat =
      (σ.area a).numberOfSectionReferences.toNat - 1)
    (same : area.numberOfUserReferences = (σ.area a).numberOfUserReferences ∧
      area.file = (σ.area a).file ∧ area.image = (σ.area a).image ∧
      area.filePointer = (σ.area a).filePointer ∧ area.freed = (σ.area a).freed)
    (flag : object.userReference = (σ.object a).userReference)
    (own : object.controlArea = a) (counted : object.live = true → 0 < object.referenceCount)
    (within : ∀ v ∈ vads, v.controlArea < σ.created) (apart : (vads.map ViewVad.node).Nodup)
    (others : ∀ b, b ≠ a → vads.countP (fun v => v.controlArea == b) = σ.views b) :
    Lived 0 0 (miCheckControlArea (((σ.setVads vads).setObject a object).setArea a area) a) := by
  obtain ⟨users, file, image, pointer, freed⟩ := same
  have account := lived.kept.accounted inside
  have sections := account.sections unfreed
  rw [← holders] at sections
  have dataFile : area.dataFile = (σ.area a).dataFile := by
    rw [dataFile, file, image, dataFile]
  have refers (g) : area.refersTo g = (σ.area a).refersTo g := by
    rw [refersTo, freed, pointer, refersTo]
  have accounted : Accounted area object (vads.countP fun v => v.controlArea == a) := by
    constructor
    · rw [freed]
      exact account.few
    · exact fun gone => absurd ((unfreed.symm.trans freed.symm).trans gone) Nat.zero_ne_one
    · intro _
      rw [dropped, dataFile]
      omega
    · intro _
      rw [users, file, flag]
      exact account.users unfreed
    · rw [file, pointer]
      exact account.file
  have kept : SectionsKept 0 0 (((σ.setVads vads).setObject a object).setArea a area) :=
    lived.kept.update area object vads 0 inside accounted (by rw [refers]) (fun g _ => refers g) own counted within
      apart others
  have left : (((σ.setVads vads).setObject a object).setArea a area).holders a + 1 = σ.holders a := by
    rw [holders, setArea_object, setObject_object, update_self]
    exact fewer
  obtain ⟨stays, settled⟩ := kept.check inside
    (by rw [setArea_area, update_self, freed, unfreed])
    (by
      rw [setArea_area, update_self, dataFile]
      intro data single
      have bound : (σ.object a).live.toNat ≤ 1 := Bool.toNat_le _
      have total : σ.holders a = (σ.object a).live.toNat + σ.views a := rfl
      have more := releasable.1 data
      omega)
    (by
      rw [setArea_area, setArea_object, setObject_object, update_self, update_self,
        file, flag]
      intro noFile none
      exact releasable.2 noFile (by omega))
    (fun b other created => Settled.update area object vads (fun _ => lived.settled created) others
      fun same => absurd same other)
  constructor
  · exact stays
  · intro b created
    rw [miCheckControlArea_created] at created
    exact settled b created

theorem unmap (lived : Lived 0 0 σ) (mapped : vad ∈ σ.vads) (releasable : Releasable σ vad.controlArea) :
    Lived 0 0 (mmUnmapViewOfSection σ vad) := by
  have inside := lived.kept.inside mapped
  have counted (b) : (σ.vads.erase vad).countP (fun v => v.controlArea == b) =
      σ.views b - if vad.controlArea = b then 1 else 0 := by
    rw [countP_erase]
    simp [mapped, views]
  have some : 0 < σ.views vad.controlArea :=
    countP_pos_iff.mpr ⟨vad, mapped, beq_self_eq_true _⟩
  have total : σ.holders vad.controlArea = (σ.object vad.controlArea).live.toNat +
    σ.views vad.controlArea := rfl
  have unfreed := lived.unfreed inside (by omega)
  have sections := (lived.kept.accounted inside).sections unfreed
  have released := lived.release (σ.area vad.controlArea).unmapView (σ.object vad.controlArea)
    (σ.vads.erase vad) inside releasable unfreed
    (by
      rw [counted, if_pos rfl]
      omega)
    (by
      apply unmapView_sections
      cases data : (σ.area vad.controlArea).dataFile with
      | true =>
        have more := releasable.1 data (by omega)
        rw [data, Bool.toNat_true] at sections
        omega
      | false =>
        rw [data, Bool.toNat_false] at sections
        omega)
    ⟨rfl, rfl, rfl, rfl, rfl⟩ rfl (lived.kept.own inside) (fun live => (lived.kept.counted live).2)
    (fun v member => lived.kept.inside (mem_of_mem_erase member))
    (lived.kept.apart.sublist (erase_sublist.map _))
    (by
      intro b other
      rw [counted, if_neg (Ne.symm other)]
      rfl)
  rwa [show (σ.setVads (σ.vads.erase vad)).setObject vad.controlArea (σ.object vad.controlArea) =
    σ.setVads (σ.vads.erase vad) from setObject_self _] at released

theorem setObject {object : SectionObject} (lived : Lived 0 0 σ) (inside : i < σ.created)
    (accounted : Accounted (σ.area i) object (σ.views i)) (own : object.controlArea = i)
    (live : object.live = true) (counted : 0 < object.referenceCount) : Lived 0 0 (σ.setObject i object) := by
  have updated := lived.update (σ.area i) object σ.vads inside accounted (fun _ => rfl) own
    (fun _ => counted) (fun _ => lived.kept.inside) lived.kept.apart (fun _ _ => rfl)
    (by
      rw [live, Bool.toNat_true]
      omega)
  rwa [setVads_self, show (σ.setObject i object).setArea i (σ.area i) = σ.setObject i object from
    setArea_self _] at updated

theorem referenceSection (lived : Lived 0 0 σ) (live : (σ.object i).live = true) :
    Lived 0 0 (obReferenceSection σ i) := by
  obtain ⟨inside, positive⟩ := lived.kept.counted live
  obtain ⟨few, gone, sections, users, file⟩ := lived.kept.accounted inside
  exact lived.setObject inside ⟨few, gone, sections, users, file⟩ (lived.kept.own inside) live
    (Int.lt_add_one_of_le (Int.le_of_lt positive))

theorem closeSection (lived : Lived 0 0 σ) (live : (σ.object i).live = true) :
    Lived 0 0 (mmpCloseSection σ i systemHandleCount) := by
  obtain ⟨inside, positive⟩ := lived.kept.counted live
  obtain ⟨few, gone, sections, users, file⟩ := lived.kept.accounted inside
  rw [mmpCloseSection]
  split
  next last =>
    rw [lived.kept.own inside]
    apply lived.update _ _ _ inside
    · constructor
      · exact few
      · exact gone
      · exact sections
      · intro unfreed
        rw [if_neg (by rintro ⟨_, ⟨⟩⟩)]
        exact dropUser_users _ (by simpa using users unfreed)
      · exact file
    · exact fun _ => rfl
    · rfl
    · exact fun _ => positive
    · exact fun _ => lived.kept.inside
    · exact lived.kept.apart
    · exact fun _ _ => rfl
    · rw [live, Bool.toNat_true]
      omega
  next => exact lived

theorem dereferenceSection (lived : Lived 0 0 σ) (live : (σ.object i).live = true)
    (releasable : (σ.object i).referenceCount = 1 → Releasable σ i) :
    Lived 0 0 (obDereferenceSection σ i) := by
  have inside := (lived.kept.counted live).1
  have total : σ.holders i = 1 + σ.views i := by rw [holders, live, Bool.toNat_true]
  have unfreed := lived.unfreed inside (by omega)
  rw [obDereferenceSection]
  dsimp only
  split
  next last =>
    rw [mmpDeleteSection, setObject_object, update_self, lived.kept.own inside]
    apply lived.release _ _ _ inside (releasable (by omega)) unfreed
    · rw [total, Bool.toNat_false]
      exact congrArg (· + 1) (Nat.zero_add _) |>.trans (Nat.add_comm _ _)
    · exact dropSection_sections _
    · exact dropSection_same _
    · rfl
    · rfl
    · exact fun alive => absurd alive Bool.false_ne_true
    · exact fun _ => lived.kept.inside
    · exact lived.kept.apart
    · exact fun _ _ => rfl
  next more =>
    obtain ⟨few, gone, sections, users, file⟩ := lived.kept.accounted inside
    have positive := (lived.kept.counted live).2
    exact lived.setObject inside ⟨few, gone, sections, users, file⟩ (lived.kept.own inside) live
      (show 0 < (σ.object i).referenceCount - 1 by omega)

theorem dereferenceDead (lived : Lived 0 0 σ) (inside : i < σ.created)
    (dead : (σ.object i).live = false) (none : (σ.object i).referenceCount = 0) :
    Lived 0 0 (obDereferenceSection σ i) := by
  obtain ⟨few, gone, sections, users, file⟩ := lived.kept.accounted inside
  have object : obDereferenceSection σ i =
      σ.setObject i { σ.object i with referenceCount := (σ.object i).referenceCount - 1 } := by
    rw [obDereferenceSection, none]
    exact if_neg (by decide)
  rw [object]
  have updated := lived.kept.update (σ.area i)
    { σ.object i with referenceCount := (σ.object i).referenceCount - 1 } σ.vads 0 inside
    ⟨few, gone, sections, users, file⟩ rfl (fun _ _ => rfl) (lived.kept.own inside)
    (fun live => absurd (dead.symm.trans live) Bool.false_ne_true) (fun _ => lived.kept.inside)
    lived.kept.apart (fun _ _ => rfl)
  constructor
  · rwa [setVads_self, show (σ.setObject i _).setArea i (σ.area i) = σ.setObject i _ from
      setArea_self _] at updated
  · intro b created
    have settled := Settled.update (a := i) (b := b) (σ.area i)
      { σ.object i with referenceCount := (σ.object i).referenceCount - 1 } σ.vads (fun _ => lived.settled created) (fun _ _ => rfl) fun same => same ▸ lived.settled created
    rwa [setVads_self, show (σ.setObject i _).setArea i (σ.area i) = σ.setObject i _ from
      setArea_self _] at settled

variable {f credit : Nat}

theorem reference (lived : Lived f credit σ) (undeleted : (σ.file f).deleted = false) :
    Lived f (credit + 1) (obReferenceFile σ f) :=
  ⟨lived.kept.reference undeleted, lived.settled⟩

theorem dereference (lived : Lived f (credit + 1) σ) : Lived f credit (obDereferenceFile σ f) :=
  ⟨lived.kept.dereference, lived.settled⟩

theorem add {area : ControlArea} {object : SectionObject}
    (lived : Lived f (credit + (area.refersTo f).toNat) σ) (accounted : Accounted area object 0)
    (files : ∀ g, g ≠ f → area.refersTo g = false) (own : object.controlArea = σ.created)
    (counted : object.live = true → 0 < object.referenceCount)
    (held : area.freed = 0 → object.live = true) : Lived f credit (σ.add area object) := by
  constructor
  · exact lived.kept.add accounted files own counted
  · intro b created unfreed
    rw [holders]
    by_cases same : b = σ.created
    · subst b
      simp only [add_area, add_object, update_self] at unfreed ⊢
      rw [held unfreed, Bool.toNat_true]
      omega
    · simp only [add_area, add_object, update_of_ne same] at unfreed ⊢
      rw [add_created] at created
      exact lived.settled (by omega) unfreed

theorem newArea {area : ControlArea} (lived : Lived f credit σ) (freed : area.freed = 1)
    (file : area.file = area.filePointer.isSome) : Lived f credit (σ.newArea area) := by
  have unreferenced (g) : area.refersTo g = false := by
    rw [refersTo, freed]
    rfl
  apply Lived.add
  · rw [unreferenced]
    exact lived
  · constructor
    · exact Nat.le_of_eq freed
    · exact fun _ => rfl
    · exact fun again => absurd (freed.symm.trans again) Nat.one_ne_zero
    · exact fun again => absurd (freed.symm.trans again) Nat.one_ne_zero
    · exact file
  · exact fun g _ => unreferenced g
  · rfl
  · exact fun live => absurd live Bool.false_ne_true
  · exact fun again => absurd (freed.symm.trans again) Nat.one_ne_zero

theorem newSection {area : ControlArea} (lived : Lived f (credit + 1) σ) (unfreed : area.freed = 0)
    (file : area.file = true) (pointer : area.filePointer = some f)
    (sections : area.numberOfSectionReferences.toNat = 1 - area.dataFile.toNat)
    (users : area.numberOfUserReferences = 0) : Lived f credit (σ.newSection area userReference) := by
  have refers : area.refersTo f = true := by
    rw [refersTo, unfreed, pointer, beq_self_eq_true, beq_self_eq_true]
    rfl
  apply Lived.add
  · rw [refers]
    exact lived
  · constructor
    · rw [unfreed]
      exact Nat.zero_le _
    · exact fun freed => absurd (unfreed.symm.trans freed) Nat.zero_ne_one
    · exact fun _ => sections
    · rw [if_neg (by rw [file]; rintro ⟨⟨⟩, _⟩)]
      exact fun _ => users
    · rw [file, pointer]
      rfl
  · intro g other
    rw [refersTo, pointer, show (some f == some g) = false by simpa using Ne.symm other,
      Bool.and_false]
  · rfl
  · exact fun _ => Int.one_pos
  · exact fun _ => rfl

theorem imageSection (lived : Lived f credit σ) (undeleted : (σ.file f).deleted = false) :
    Lived f credit (mmCreateImageSection σ f outcome) := by
  cases outcome with
  | noArea | noMap => exact lived
  | noObject => exact ((lived.reference undeleted).newArea rfl rfl).dereference
  | notInserted | inserted => exact (lived.reference undeleted).newSection rfl rfl rfl rfl rfl

theorem pagingFileSection (lived : Lived 0 0 σ) : Lived 0 0 (createPagingFileSection σ outcome) := by
  cases outcome with
  | noArea | noMap => exact lived
  | noObject =>
    have none : σ.views σ.created = 0 := lived.kept.views_created
    have accounted : Accounted { zeroArea with
        numberOfSectionReferences := 1 - 1
        numberOfUserReferences := 1 - 1 } ⟨σ.created, false, 0, false⟩ 0 :=
      ⟨Nat.zero_le _, fun _ => rfl, fun _ => by simp [zeroArea, dataFile],
        fun _ => by simp, rfl⟩
    have kept := SectionsKept.add lived.kept accounted (fun _ _ => rfl) rfl
      fun live => absurd live Bool.false_ne_true
    obtain ⟨stays, settled⟩ := kept.check (a := σ.created) (Nat.lt_succ_self _)
      (by rw [add_area, update_self]; rfl)
      (by rw [add_area, update_self]; rintro ⟨⟩)
      (by rw [add_object, update_self]; exact fun _ _ => rfl)
      (by
        intro b other created unfreed
        rw [add_created] at created
        rw [add_area, update_of_ne other] at unfreed
        rw [holders, add_object, update_of_ne other]
        exact lived.settled (by omega) unfreed)
    constructor
    · exact stays
    · intro b created
      rw [createPagingFileSection, miCheckControlArea_created] at created
      exact settled b created
  | notInserted | inserted =>
    apply Lived.add
    · exact lived
    · exact ⟨Nat.zero_le _, fun freed => absurd freed Nat.zero_ne_one, fun _ => rfl, fun _ => rfl, rfl⟩
    · exact fun _ _ => rfl
    · rfl
    · exact fun _ => Int.one_pos
    · exact fun _ => rfl

theorem noCredit (lived : Lived f 0 σ) : Lived g 0 σ := ⟨lived.kept.noCredit, lived.settled⟩

end Lived

/-- The calls after which the counters are right: a paging-file section is
inserted, the object of a data-file section is created, the file of a data-file
section comes by a handle, no file comes both ways; and what is released is
`Releasable`. -/
def Admits (σ : SectionState) : SectionAction → Prop
  | .create call =>
    match call.fileObject, call.fileHandle with
    | none, none => call.secImage = true ∨ call.outcome ≠ .notInserted
    | none, some _ => call.secImage = true ∨ call.outcome ≠ .noObject
    | some _, none => call.secImage = true ∨ call.outcome = .noArea ∨ call.outcome = .noMap
    | some _, some _ => False
  | .dereferenceSection i =>
    (σ.object i).referenceCount = 1 → Releasable σ (σ.object i).controlArea
  | .unmap vad => Releasable σ vad.controlArea
  | _ => True

namespace Lived
open SectionState
variable {σ : SectionState}

theorem arm3Section (lived : Lived 0 0 σ) (callable : Callable σ (.create call))
    (admitted : Admits σ (.create call)) : Lived 0 0 (mmCreateArm3Section σ call) := by
  obtain ⟨secImage, fileHandle, fileObject, outcome⟩ := call
  have undeleted {f} (given : fileHandle = some f ∨ fileObject = some f) :
      (σ.file f).deleted = false := lived.kept.undeleted (callable f given)
  cases fileObject with
  | none =>
    cases fileHandle with
    | none =>
      rw [mmCreateArm3Section]
      dsimp only
      split
      next => exact lived
      next => exact lived.pagingFileSection
    | some f =>
      have alive := undeleted (Or.inl rfl)
      have referenced : Lived f 1 (obReferenceFile σ f) := lived.noCredit.reference alive
      have still : ((obReferenceFile σ f).file f).deleted = false := by
        rw [obReferenceFile, setFile_file, update_self, alive]
      rw [mmCreateArm3Section]
      dsimp only
      split
      next => exact (referenced.imageSection still).dereference.noCredit
      next data =>
        cases outcome with
        | noArea => exact referenced.dereference.noCredit
        | noMap => exact (referenced.newArea rfl rfl).dereference.noCredit
        | noObject => exact (admitted.resolve_left data rfl).elim
        | notInserted | inserted => exact (referenced.newSection rfl rfl rfl rfl rfl).noCredit
  | some f =>
    cases fileHandle with
    | none =>
      have alive := undeleted (Or.inr rfl)
      rw [mmCreateArm3Section]
      dsimp only
      split
      next => exact (lived.noCredit.imageSection alive).noCredit
      next data =>
        obtain rfl | rfl := admitted.resolve_left data
        · exact lived
        · exact lived.newArea rfl rfl
    | some g => exact admitted.elim

theorem notInserted (admitted : Admits σ (.create ⟨secImage, fileHandle, fileObject, .notInserted⟩)) :
    let σ' := mmCreateArm3Section σ ⟨secImage, fileHandle, fileObject, .notInserted⟩
    σ' = σ ∨ σ'.created = σ.created + 1 ∧ σ'.vads = σ.vads ∧ (σ'.area σ.created).file = true ∧
      ∃ flag, σ'.object σ.created = ⟨σ.created, flag, 1, true⟩ := by
  have made {τ : SectionState} {area : ControlArea} {flag : Bool} (same : τ.created = σ.created)
      (views : τ.vads = σ.vads) (file : area.file = true) :
      (τ.newSection area flag).created = σ.created + 1 ∧ (τ.newSection area flag).vads = σ.vads ∧
      ((τ.newSection area flag).area σ.created).file = true ∧
      ∃ flag', (τ.newSection area flag).object σ.created = ⟨σ.created, flag', 1, true⟩ := by
    rw [SectionState.newSection, add_created, add_area, add_object, add_vads, same, views,
      Function.update_self, Function.update_self]
    exact ⟨rfl, rfl, file, flag, rfl⟩
  rw [mmCreateArm3Section]
  dsimp only
  cases fileObject with
  | none =>
    cases fileHandle with
    | none =>
      obtain image | inserted := admitted
      · exact Or.inl (if_pos image)
      · exact absurd rfl inserted
    | some f =>
      right
      dsimp only
      split
      next => exact made (τ := obReferenceFile (obReferenceFile σ f) f) rfl rfl rfl
      next => exact made (τ := obReferenceFile σ f) rfl rfl rfl
  | some f =>
    cases fileHandle with
    | none =>
      obtain image | ⟨⟨⟩⟩ | ⟨⟨⟩⟩ := admitted
      right
      dsimp only
      rw [if_pos image]
      exact made (τ := obReferenceFile σ f) rfl rfl rfl
    | some g => exact admitted.elim

theorem create (lived : Lived 0 0 σ) (callable : Callable σ (.create call))
    (admitted : Admits σ (.create call)) : Lived 0 0 (veaCreateSection σ call) := by
  have made := lived.arm3Section callable admitted
  obtain ⟨secImage, fileHandle, fileObject, outcome⟩ := call
  rw [veaCreateSection]
  cases outcome with
  | noArea | noMap | noObject | inserted => exact made
  | notInserted =>
    dsimp only
    split
    next more =>
      obtain same | ⟨created, vads, file, flag, object⟩ := notInserted admitted
      · rw [same] at more
        exact absurd more (Nat.lt_irrefl _)
      · generalize mmCreateArm3Section σ ⟨secImage, fileHandle, fileObject, .notInserted⟩ = σ'
          at made more created vads file object
        have none : σ'.views σ.created = 0 := by
          rw [views, vads]
          exact lived.kept.views_created
        have last : (σ'.object σ.created).referenceCount = 1 := by rw [object]
        have releasable : Releasable σ' σ.created :=
          ⟨fun _ some => absurd none some,
            fun noFile => absurd (noFile.symm.trans file) Bool.false_ne_true⟩
        have first := made.dereferenceSection (by rw [object]) fun _ => releasable
        obtain ⟨same, dead⟩ := obDereferenceSection_last last
        exact first.dereferenceDead (by rw [same]; exact more) (by rw [dead]) (by rw [dead])
    next => exact made

theorem step (lived : Lived 0 0 σ) (admitted : Admits σ action) (stepped : SectionStep σ action σ') :
    Lived 0 0 σ' := by
  obtain ⟨callable, rfl⟩ := stepped
  cases action with
  | create call => exact lived.create callable admitted
  | referenceSection i => exact lived.referenceSection callable
  | dereferenceSection i =>
    rw [Admits, lived.kept.own (lived.kept.counted callable).1] at admitted
    exact lived.dereferenceSection callable admitted
  | closeRoutine i systemHandleCount => exact lived.closeSection callable
  | map i node => exact lived.map callable.1 callable.2
  | unmap vad => exact lived.unmap callable admitted
  | referenceFile f =>
    have kept := lived.kept.noCredit.reference (lived.kept.undeleted callable)
    have total := kept.references f
    rw [if_pos rfl] at total
    refine Lived.noCredit (f := f) ⟨kept.setFile ?_ (kept.deleted f), lived.settled⟩
    simp only [total, Nat.cast_add, Nat.cast_one, Nat.cast_zero]
    omega
  | dereferenceFile f =>
    have total := lived.kept.references f
    simp only [Nat.cast_zero, ite_self] at total
    have kept : SectionsKept f 1 (σ.setFile f { σ.file f with held := (σ.file f).held - 1 }) := by
      apply (lived.kept.noCredit (g := f)).setFile
      · have held : 0 < (σ.file f).held := callable
        simp only [total, Nat.cast_one]
        omega
      · exact lived.kept.deleted f
    exact Lived.noCredit (f := f) ⟨kept.dereference, lived.settled⟩

theorem start : Lived 0 0 (.start held) := by
  refine ⟨⟨?_, ?_, ?_, ?_, List.nodup_nil, ?_, ?_⟩, ?_⟩
  · exact fun created => absurd created (Nat.not_lt_zero _)
  · exact fun created => absurd created (Nat.not_lt_zero _)
  · exact fun live => absurd live Bool.false_ne_true
  · exact fun member => absurd member List.not_mem_nil
  · intro g
    have none : (SectionState.start held).unfreed g = 0 := Nat.count_zero _
    rw [none]
    simp [SectionState.start]
  · exact fun g deleted => absurd deleted Bool.false_ne_true
  · exact fun created => absurd created (Nat.not_lt_zero _)

end Lived

/-- A section object refers to the control area, or a view is mapped over it. A
user reference is one of a section object. -/
def SectionState.Attached (σ : SectionState) (a : Nat) : Prop :=
  (∃ i, (σ.object i).live = true ∧ (σ.object i).controlArea = a) ∨ ∃ v ∈ σ.vads, v.controlArea = a

/-- A control area is given back once, when nothing is attached to it any more,
and until then its file object is there. -/
structure LifeCycle (σ : SectionState) : Prop where
  attached : σ.Attached a → (σ.area a).freed = 0
  left : a < σ.created → ¬ σ.Attached a → (σ.area a).freed = 1
  file : σ.Attached a → (σ.area a).filePointer = some f → (σ.file f).deleted = false

theorem Lived.attached_iff {σ : SectionState} (lived : Lived 0 0 σ) :
    σ.Attached a ↔ a < σ.created ∧ σ.holders a ≠ 0 := by
  constructor
  · rintro (⟨i, live, own⟩ | ⟨v, member, rfl⟩)
    · have inside := (lived.kept.counted live).1
      rw [lived.kept.own inside] at own
      subst i
      refine ⟨inside, ?_⟩
      rw [SectionState.holders, live, Bool.toNat_true]
      omega
    · have some : 0 < σ.views v.controlArea :=
        List.countP_pos_iff.mpr ⟨v, member, beq_self_eq_true _⟩
      refine ⟨lived.kept.inside member, ?_⟩
      rw [SectionState.holders]
      omega
  · rintro ⟨inside, held⟩
    by_cases live : (σ.object a).live = true
    · exact Or.inl ⟨a, live, lived.kept.own inside⟩
    · rw [SectionState.holders, Bool.eq_false_of_not_eq_true live, Bool.toNat_false] at held
      obtain ⟨v, member, equal⟩ := List.countP_pos_iff.mp (show 0 < σ.views a by omega)
      exact Or.inr ⟨v, member, eq_of_beq equal⟩

theorem Lived.lifeCycle {σ : SectionState} (lived : Lived 0 0 σ) : LifeCycle σ := by
  constructor
  · intro a attached
    obtain ⟨inside, held⟩ := lived.attached_iff.mp attached
    exact lived.unfreed inside held
  · intro a inside detached
    have none : σ.holders a = 0 := by
      by_contra held
      exact detached (lived.attached_iff.mpr ⟨inside, held⟩)
    have few := (lived.kept.accounted inside).few
    have some : (σ.area a).freed ≠ 0 := fun unfreed => lived.settled inside unfreed none
    omega
  · intro a f attached pointer
    obtain ⟨inside, held⟩ := lived.attached_iff.mp attached
    have unfreed := lived.unfreed inside held
    apply Bool.eq_false_of_not_eq_true
    intro deleted
    have gone := lived.kept.deleted f deleted
    have total := lived.kept.references f
    simp only [Nat.cast_zero, ite_self] at total
    have refers : (σ.area a).refersTo f = true := by
      rw [refersTo, unfreed, pointer, beq_self_eq_true, beq_self_eq_true]
      rfl
    have some : 0 < σ.unfreed f := Nat.zero_lt_of_lt
      (Nat.count_strict_mono (p := fun a => (σ.area a).refersTo f = true) refers inside)
    omega

theorem section_runs {held : Nat → Nat} {actions : List SectionAction} {σ : SectionState}
    (run : Run (Guarded Admits SectionStep) (.start held) actions σ) : LifeCycle σ := by
  have lived : Lived 0 0 σ := by
    apply run.invariant (P := Lived 0 0)
    · rintro σ action σ' lived ⟨admitted, stepped⟩
      exact lived.step admitted stepped
    · exact .start
  exact lived.lifeCycle

/-- A view of an image that outlives its section object. -/
theorem section_runs_image : ∃ σ : SectionState, (σ.area 0).freed = 1 ∧ LifeCycle σ := by
  have run : Run (Guarded Admits SectionStep) (.start fun _ => 1)
      [.create ⟨true, some 0, none, .inserted⟩, .map 0 5, .dereferenceSection 0, .unmap ⟨5, 0⟩] _ :=
    .next ⟨Or.inl rfl, fun _ _ => Nat.one_pos, rfl⟩ <|
    .next ⟨trivial, ⟨rfl, fun _ member => absurd member not_mem_nil⟩, rfl⟩ <|
    .next ⟨fun _ => ⟨fun data => absurd data Bool.false_ne_true, fun file => absurd file.symm
      Bool.false_ne_true⟩, rfl, rfl⟩ <|
    .next ⟨⟨fun data => absurd data Bool.false_ne_true, fun file => absurd file.symm
      Bool.false_ne_true⟩, mem_cons_self, rfl⟩ <| .refl _
  exact ⟨_, rfl, section_runs run⟩

/-- The area of a data file goes with its view while the section is there, or with
the section while a view is there; that of a section without a file never goes. -/
theorem freed_early_or_never :
    (∃ σ : SectionState, Run SectionStep (.start fun _ => 1)
      [.create ⟨false, some 0, none, .inserted⟩, .map 0 5, .unmap ⟨5, 0⟩] σ ∧
      σ.Attached 0 ∧ (σ.area 0).freed = 1) ∧
    (∃ σ : SectionState, Run SectionStep (.start fun _ => 1)
      [.create ⟨false, some 0, none, .inserted⟩, .map 0 5, .dereferenceSection 0] σ ∧
      σ.Attached 0 ∧ (σ.area 0).freed = 1) ∧
    ∃ σ : SectionState, Run SectionStep (.start fun _ => 1)
      [.create ⟨false, none, none, .inserted⟩, .dereferenceSection 0] σ ∧
      σ.created = 1 ∧ (∀ a, ¬ σ.Attached a) ∧ (σ.area 0).freed = 0 := by
  refine ⟨?_, ?_, ?_⟩
  · have run : Run SectionStep (.start fun _ => 1)
        [.create ⟨false, some 0, none, .inserted⟩, .map 0 5, .unmap ⟨5, 0⟩] _ :=
      .next ⟨fun _ _ => Nat.one_pos, rfl⟩ <|
      .next ⟨⟨rfl, fun _ member => absurd member not_mem_nil⟩, rfl⟩ <|
      .next ⟨mem_cons_self, rfl⟩ <| .refl _
    exact ⟨_, run, Or.inl ⟨0, rfl, rfl⟩, rfl⟩
  · have run : Run SectionStep (.start fun _ => 1)
        [.create ⟨false, some 0, none, .inserted⟩, .map 0 5, .dereferenceSection 0] _ :=
      .next ⟨fun _ _ => Nat.one_pos, rfl⟩ <|
      .next ⟨⟨rfl, fun _ member => absurd member not_mem_nil⟩, rfl⟩ <|
      .next ⟨rfl, rfl⟩ <| .refl _
    exact ⟨_, run, Or.inr ⟨⟨5, 0⟩, mem_cons_self, rfl⟩, rfl⟩
  · have run : Run SectionStep (.start fun _ => 1)
        [.create ⟨false, none, none, .inserted⟩, .dereferenceSection 0] _ :=
      .next ⟨fun _ given => absurd given (by rintro (⟨⟨⟩⟩ | ⟨⟨⟩⟩)), rfl⟩ <|
      .next ⟨rfl, rfl⟩ <| .refl _
    refine ⟨_, run, rfl, ?_, rfl⟩
    rintro a (⟨_ | i, live, _⟩ | ⟨v, member, _⟩)
    · exact absurd live Bool.false_ne_true
    · exact absurd live Bool.false_ne_true
    · exact absurd member not_mem_nil

end VeaOS.Mm.Section

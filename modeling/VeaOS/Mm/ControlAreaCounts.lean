import VeaOS.Foundation.Census
import VeaOS.Mm.ControlArea

/-! What the counters of a control area and of a file object stand for. The
references that an area counts are its section object and its views, save the
section object of a data file. -/
namespace VeaOS.Mm.Section
open Foundation Function ControlArea

namespace ControlArea
variable (area : ControlArea)

def dataFile : Bool := area.file && !area.image

/-- An area that is not given back counts as a reference to its file. -/
def refersTo (f : Nat) : Bool := area.freed == 0 && area.filePointer == some f

theorem giveBack_refersTo : area.giveBack.refersTo f = false := rfl

theorem mapView_sections (few : area.numberOfSectionReferences.toNat < 0xFFFFFFFF) :
    area.mapView.numberOfSectionReferences.toNat = area.numberOfSectionReferences.toNat + 1 := by
  rw [mapView]
  bv_omega

theorem unmapView_sections (some : 0 < area.numberOfSectionReferences.toNat) :
    area.unmapView.numberOfSectionReferences.toNat = area.numberOfSectionReferences.toNat - 1 := by
  rw [unmapView]
  bv_omega

theorem dropSection_sections :
    area.dropSection.numberOfSectionReferences.toNat = area.numberOfSectionReferences.toNat - 1 := by
  rw [dropSection]
  split <;> bv_omega

theorem dropSection_same : area.dropSection.numberOfUserReferences = area.numberOfUserReferences ∧
    area.dropSection.file = area.file ∧ area.dropSection.image = area.image ∧
    area.dropSection.filePointer = area.filePointer ∧ area.dropSection.freed = area.freed := by
  rw [dropSection]
  split <;> exact ⟨rfl, rfl, rfl, rfl, rfl⟩

theorem dropUser_users {held : Prop} [Decidable held]
    (known : area.numberOfUserReferences = if held then 1 else 0) :
    area.dropUser.numberOfUserReferences = 0 := by
  rw [dropUser, known]
  by_cases counted : held
  · rw [if_pos counted]
    rfl
  · rw [if_neg counted]
    rfl

end ControlArea

namespace SectionState
variable (σ : SectionState)

def views (a : Nat) : Nat := σ.vads.countP fun v => v.controlArea == a

/-- The section object over a control area and its views. -/
def holders (a : Nat) : Nat := (σ.object a).live.toNat + σ.views a

/-- The control areas with a file that are not given back. -/
def unfreed (f : Nat) : Nat :=
  Nat.count (fun a => (σ.area a).refersTo f) σ.created

@[simp] theorem setObject_self : σ.setObject a (σ.object a) = σ := by
  rw [setObject, update_eq_self]

@[simp] theorem setArea_self : σ.setArea a (σ.area a) = σ := by
  rw [setArea, update_eq_self]

@[simp] theorem setVads_self : σ.setVads σ.vads = σ := rfl

end SectionState

/-- The counters of an area whose views are numbered: nothing counts the section
object of a data file. -/
structure Accounted (area : ControlArea) (object : SectionObject) (views : Nat) : Prop where
  few : area.freed ≤ 1
  gone : area.freed = 1 → object.live.toNat + views = 0
  sections : area.freed = 0 →
    area.numberOfSectionReferences.toNat = object.live.toNat + views - area.dataFile.toNat
  users : area.freed = 0 →
    area.numberOfUserReferences = if area.file = false ∧ object.userReference = true then 1 else 0
  file : area.file = area.filePointer.isSome

/-- The file object `f` has `credit` references that a call has taken and not yet
given to a control area or dropped. -/
structure SectionsKept (f credit : Nat) (σ : SectionState) : Prop where
  accounted : a < σ.created → Accounted (σ.area a) (σ.object a) (σ.views a)
  own : i < σ.created → (σ.object i).controlArea = i
  counted : (σ.object i).live = true → i < σ.created ∧ 0 < (σ.object i).referenceCount
  inside : v ∈ σ.vads → v.controlArea < σ.created
  apart : (σ.vads.map ViewVad.node).Nodup
  references : ∀ g, (σ.file g).referenceCount =
    (σ.file g).held + σ.unfreed g + if g = f then (credit : Int) else 0
  deleted : ∀ g, (σ.file g).deleted = true → (σ.file g).referenceCount = 0

def Settled (σ : SectionState) (a : Nat) : Prop := (σ.area a).freed = 0 → σ.holders a ≠ 0

theorem Settled.update {σ : SectionState} (area : ControlArea) (object : SectionObject)
    (vads : List ViewVad) (others : b ≠ a → Settled σ b)
    (views : ∀ b, b ≠ a → vads.countP (fun v => v.controlArea == b) = σ.views b)
    (changed : b = a → area.freed = 0 →
      object.live.toNat + vads.countP (fun v => v.controlArea == a) ≠ 0) :
    Settled (((σ.setVads vads).setObject a object).setArea a area) b := by
  intro unfreed
  by_cases same : b = a
  · subst b
    simp only [SectionState.setArea_area, Function.update_self] at unfreed
    rw [SectionState.holders, SectionState.setArea_object, SectionState.setObject_object,
      Function.update_self]
    exact changed rfl unfreed
  · simp only [SectionState.setArea_area, SectionState.setObject_area, SectionState.setVads_area,
      Function.update_of_ne same] at unfreed
    rw [SectionState.holders, SectionState.setArea_object, SectionState.setObject_object,
      Function.update_of_ne same]
    rw [show (((σ.setVads vads).setObject a object).setArea a area).views b = σ.views b from
      views b same]
    exact others same unfreed

theorem Settled.setArea {σ : SectionState} {area : ControlArea} (others : b ≠ a → Settled σ b)
    (changed : b = a → area.freed = 0 → σ.holders a ≠ 0) : Settled (σ.setArea a area) b := by
  have updated := Settled.update area (σ.object a) σ.vads others (fun _ _ => rfl) changed
  rwa [SectionState.setVads_self, SectionState.setObject_self] at updated

theorem miCheckControlArea_created (σ : SectionState) (a : Nat) :
    (miCheckControlArea σ a).created = σ.created := by
  rw [miCheckControlArea]
  dsimp only
  split
  next => split <;> rfl
  next => rfl

theorem miCheckControlArea_object (σ : SectionState) (a : Nat) :
    (miCheckControlArea σ a).object = σ.object := by
  rw [miCheckControlArea]
  dsimp only
  split
  next => split <;> rfl
  next => rfl

theorem obDereferenceSection_last {σ : SectionState} (last : (σ.object i).referenceCount = 1) :
    (obDereferenceSection σ i).created = σ.created ∧
      (obDereferenceSection σ i).object i = { σ.object i with referenceCount := 0, live := false } := by
  rw [obDereferenceSection, last]
  dsimp only
  rw [if_pos (by decide), mmpDeleteSection, miCheckControlArea_created, miCheckControlArea_object,
    SectionState.setArea_object, SectionState.setObject_object, Function.update_self]
  exact ⟨rfl, rfl⟩

namespace SectionsKept
open SectionState
variable {σ : SectionState} {a f g credit : Nat}

theorem views_le (kept : SectionsKept f credit σ) : σ.views a ≤ 0x40000000 := by
  have few := (kept.apart.map BitVec.toFin_injective).length_le_card
  rw [List.length_map, List.length_map, Fintype.card_fin] at few
  exact Nat.le_trans List.countP_le_length few

theorem views_created (kept : SectionsKept f credit σ) : σ.views σ.created = 0 := by
  rw [views, List.countP_eq_zero]
  intro v member equal
  exact Nat.ne_of_lt (kept.inside member) (eq_of_beq equal)

theorem noCredit (kept : SectionsKept f 0 σ) : SectionsKept g 0 σ := by
  refine { kept with references := fun h => ?_ }
  have total := kept.references h
  simpa using total

theorem undeleted (kept : SectionsKept f 0 σ) (held : 0 < (σ.file g).held) :
    (σ.file g).deleted = false := by
  apply Bool.eq_false_of_not_eq_true
  intro deleted
  have total := kept.references g
  have none := kept.deleted g deleted
  simp only [Nat.cast_zero, ite_self] at total
  omega

theorem update (area : ControlArea) (object : SectionObject) (vads : List ViewVad) (left : Nat)
    (kept : SectionsKept f credit σ) (inside : a < σ.created)
    (accounted : Accounted area object (vads.countP fun v => v.controlArea == a))
    (balance : (area.refersTo f).toNat + left = ((σ.area a).refersTo f).toNat + credit)
    (files : ∀ g, g ≠ f → area.refersTo g = (σ.area a).refersTo g)
    (own : object.controlArea = a) (counted : object.live = true → 0 < object.referenceCount)
    (within : ∀ v ∈ vads, v.controlArea < σ.created) (apart : (vads.map ViewVad.node).Nodup)
    (others : ∀ b, b ≠ a → vads.countP (fun v => v.controlArea == b) = σ.views b) :
    SectionsKept f left (((σ.setVads vads).setObject a object).setArea a area) := by
  have changed (g) : (((σ.setVads vads).setObject a object).setArea a area).unfreed g +
      ((σ.area a).refersTo g).toNat = σ.unfreed g + (area.refersTo g).toNat :=
    count_update (refersTo · g) σ.area inside area
  constructor
  · intro b created
    by_cases same : b = a
    · subst b
      simp only [setArea_area, setArea_object, setObject_object, update_self]
      exact accounted
    · simp only [setArea_area, setArea_object, setObject_object, setObject_area, setVads_area,
        setVads_object, update_of_ne same]
      rw [show (((σ.setVads vads).setObject a object).setArea a area).views b = σ.views b from
        others b same]
      exact kept.accounted created
  · intro i created
    by_cases same : i = a
    · subst i
      simp only [setArea_object, setObject_object, update_self, own]
    · simp only [setArea_object, setObject_object, setVads_object, update_of_ne same]
      exact kept.own created
  · intro i live
    by_cases same : i = a
    · subst i
      simp only [setArea_object, setObject_object, update_self] at live ⊢
      exact ⟨inside, counted live⟩
    · simp only [setArea_object, setObject_object, setVads_object, update_of_ne same] at live ⊢
      exact kept.counted live
  · exact within _
  · exact apart
  · intro g
    have before := kept.references g
    have after := changed g
    by_cases same : g = f
    · subst g
      rw [if_pos rfl] at before ⊢
      rw [setArea_file, setObject_file, setVads_file]
      omega
    · rw [if_neg same] at before ⊢
      rw [files g same] at after
      rw [Nat.add_right_cancel after]
      exact before
  · exact kept.deleted

theorem setFile {header : FileHeader} {left : Nat} (kept : SectionsKept f credit σ)
    (references : header.referenceCount = header.held + σ.unfreed f + (left : Int))
    (deleted : header.deleted = true → header.referenceCount = 0) :
    SectionsKept f left (σ.setFile f header) := by
  refine { kept with references := fun g => ?_, deleted := fun g gone => ?_ }
  · rw [setFile_file, show (σ.setFile f header).unfreed g = σ.unfreed g from rfl]
    by_cases same : g = f
    · subst g
      rw [update_self, if_pos rfl]
      exact references
    · have total := kept.references g
      rw [if_neg same] at total
      rw [update_of_ne same, if_neg same]
      exact total
  · rw [setFile_file] at gone ⊢
    by_cases same : g = f
    · subst g
      rw [update_self] at gone ⊢
      exact deleted gone
    · rw [update_of_ne same] at gone ⊢
      exact kept.deleted g gone

theorem reference (kept : SectionsKept f credit σ) (undeleted : (σ.file f).deleted = false) :
    SectionsKept f (credit + 1) (obReferenceFile σ f) := by
  have total := kept.references f
  rw [if_pos rfl] at total
  apply kept.setFile
  · simp only [total, Nat.cast_add, Nat.cast_one, Int.add_assoc]
  · intro deleted
    exact absurd (undeleted.symm.trans deleted) Bool.false_ne_true

theorem dereference (kept : SectionsKept f (credit + 1) σ) :
    SectionsKept f credit (obDereferenceFile σ f) := by
  have total := kept.references f
  rw [if_pos rfl, Nat.cast_add] at total
  apply kept.setFile
  · simp only [total]
    omega
  · simp only [Bool.or_eq_true, beq_iff_eq]
    rintro (before | zero)
    · have none := kept.deleted f before
      omega
    · exact zero

theorem add {area : ControlArea} {object : SectionObject}
    (kept : SectionsKept f (credit + (area.refersTo f).toNat) σ)
    (accounted : Accounted area object 0)
    (files : ∀ g, g ≠ f → area.refersTo g = false)
    (own : object.controlArea = σ.created) (counted : object.live = true → 0 < object.referenceCount) :
    SectionsKept f credit (σ.add area object) := by
  have fresh := kept.views_created
  have unfreed (g) : (σ.add area object).unfreed g =
      σ.unfreed g + (area.refersTo g).toNat := by
    rw [unfreed, add_created, add_area, Nat.count_succ, update_self,
      count_update_outside (refersTo · g) σ.area (Nat.le_refl _) area]
    cases area.refersTo g <;> rfl
  constructor
  · intro b created
    rw [show (σ.add area object).views b = σ.views b from rfl]
    by_cases same : b = σ.created
    · subst b
      simp only [add_area, add_object, update_self, fresh]
      exact accounted
    · simp only [add_area, add_object, update_of_ne same]
      rw [add_created] at created
      exact kept.accounted (by omega)
  · intro i created
    by_cases same : i = σ.created
    · subst i
      simp only [add_object, update_self, own]
    · simp only [add_object, update_of_ne same]
      rw [add_created] at created
      exact kept.own (by omega)
  · intro i live
    rw [add_created]
    by_cases same : i = σ.created
    · subst i
      simp only [add_object, update_self] at live ⊢
      exact ⟨Nat.lt_succ_self _, counted live⟩
    · simp only [add_object, update_of_ne same] at live ⊢
      exact ⟨Nat.lt_succ_of_lt (kept.counted live).1, (kept.counted live).2⟩
  · intro v member
    exact Nat.lt_succ_of_lt (kept.inside member)
  · exact kept.apart
  · intro g
    have total := kept.references g
    rw [unfreed, add_file]
    by_cases same : g = f
    · subst g
      simp only [if_true] at total ⊢
      omega
    · simp only [if_neg same, files g same, Bool.toNat_false] at total ⊢
      exact total
  · exact kept.deleted

theorem updateArea {area : ControlArea} (kept : SectionsKept f credit σ) (inside : a < σ.created)
    (accounted : Accounted area (σ.object a) (σ.views a))
    (balance : (area.refersTo f).toNat + left = ((σ.area a).refersTo f).toNat + credit)
    (files : ∀ g, g ≠ f → area.refersTo g = (σ.area a).refersTo g) :
    SectionsKept f left (σ.setArea a area) := by
  have updated := kept.update area _ σ.vads left inside accounted balance files (kept.own inside)
    (fun live => (kept.counted live).2) (fun _ => kept.inside) kept.apart (fun _ _ => rfl)
  rwa [setVads_self, setObject_self] at updated

/-- What becomes of an area that may have lost its last reference. -/
theorem check (kept : SectionsKept f 0 σ) (inside : a < σ.created) (unfreed : (σ.area a).freed = 0)
    (dataFile : (σ.area a).dataFile = true → σ.holders a ≠ 1)
    (paging : (σ.area a).file = false → σ.holders a = 0 → (σ.object a).userReference = false)
    (settled : ∀ b, b ≠ a → b < σ.created → Settled σ b) :
    SectionsKept f 0 (miCheckControlArea σ a) ∧
      ∀ b < σ.created, Settled (miCheckControlArea σ a) b := by
  have account := kept.accounted inside
  have sections := account.sections unfreed
  have users := account.users unfreed
  rw [← holders] at sections
  rw [miCheckControlArea]
  split
  next released =>
    obtain ⟨noSections, noUsers⟩ := released
    have noHolder : σ.holders a = 0 := by
      rw [show (σ.area a).numberOfSectionReferences.toNat = 0 by rw [noSections]; rfl] at sections
      cases data : (σ.area a).dataFile with
      | true =>
        rw [data, Bool.toNat_true] at sections
        have some := dataFile data
        omega
      | false =>
        rw [data] at sections
        exact sections.symm
    have accounted : Accounted (σ.area a).giveBack (σ.object a) (σ.views a) := by
      constructor
      · exact Nat.le_of_eq (congrArg (· + 1) unfreed)
      · exact fun _ => noHolder
      · exact fun again => absurd again (Nat.succ_ne_zero _)
      · exact fun again => absurd again (Nat.succ_ne_zero _)
      · exact account.file
    have given : ∀ b < σ.created, Settled (σ.setArea a (σ.area a).giveBack) b := by
      intro b created
      apply Settled.setArea
      · intro other
        exact settled b other created
      · exact fun _ again => absurd again (Nat.succ_ne_zero _)
    cases pointer : (σ.area a).filePointer with
    | some g =>
      rw [show (σ.area a).file = true by rw [account.file, pointer]; rfl]
      have refers : (σ.area a).refersTo g = true := by
        rw [refersTo, unfreed, pointer, beq_self_eq_true, beq_self_eq_true]
        rfl
      have others : ∀ h, h ≠ g → (σ.area a).giveBack.refersTo h = (σ.area a).refersTo h := by
        intro h other
        rw [giveBack_refersTo, refersTo, pointer,
          show (some g == some h) = false by simpa using Ne.symm other, Bool.and_false]
      have freed : SectionsKept g 1 (σ.setArea a (σ.area a).giveBack) :=
        (kept.noCredit (g := g)).updateArea inside accounted
          (by rw [giveBack_refersTo, refers]; rfl) others
      exact ⟨freed.dereference.noCredit, given⟩
    | none =>
      rw [show (σ.area a).file = false by rw [account.file, pointer]; rfl]
      have refers (g) : (σ.area a).giveBack.refersTo g = (σ.area a).refersTo g := by
        rw [giveBack_refersTo, refersTo, pointer,
          show ((none : Option Nat) == some g) = false from rfl, Bool.and_false]
      exact ⟨kept.updateArea inside accounted (by rw [refers]) fun g _ => refers g, given⟩
  next remains =>
    refine ⟨kept, fun b created => ?_⟩
    by_cases same : b = a
    · subst b
      intro _ noHolder
      apply remains
      constructor
      · rw [noHolder, Nat.zero_sub] at sections
        exact BitVec.eq_of_toNat_eq sections
      · rw [users]
        apply if_neg
        rintro ⟨noFile, flagged⟩
        exact absurd ((paging noFile noHolder).symm.trans flagged) Bool.false_ne_true
    · exact settled b same created

end SectionsKept

end VeaOS.Mm.Section

import Mathlib.Algebra.GroupWithZero.Nat
import VeaOS.Ob.PnpNotify
import Mathlib.Data.List.Count

/-! Runs of registrations and events. Everything that a registration or a callback does adds
entries at the end of the list, so that an event passes each entry once. -/
namespace VeaOS.Pnp
open Foundation RingLinks Function List PnpNode

section Growth
variable {Driver : Type} [DecidableEq Driver] {s s' s'' : PnpState Driver} {order added more : List Nat}
  {floor low number : Nat} {driver : Driver} {category : EventCategory} {guid : Guid} {zeroMapped : Bool}

def Lists (s : PnpState Driver) (order : List Nat) : Prop := Ring s.links .head (order.map .entry)

/-- From `s` to `s'` the list grows by `added`. Each of these was returned by its registration and
holds one reference to its driver, and no entry below `floor` was called. -/
structure Grows (floor : Nat) (s s' : PnpState Driver) (order added : List Nat) : Prop where
  lists : Lists s' (order ++ added)
  later : s.next ≤ s'.next
  fresh : ∀ n ∈ added, s.next ≤ n ∧ n < s'.next
  kept : ∀ n < s.next, s'.entries n = s.entries n
  single : ∀ n ∈ added, (s'.entries n).refCount = 1
  handed : ∃ out, s'.handedOut = s.handedOut ++ out ∧ added.Perm out
  references : ∀ d, s'.references d = s.references d + added.countP fun n => (s'.entries n).driverObject = d
  called : ∃ new, s'.calls = s.calls ++ new ∧ ∀ call ∈ new, floor ≤ call.1

omit [DecidableEq Driver] in
theorem entry_mem_map : entry number ∈ order.map entry ↔ number ∈ order :=
  mem_map_of_injective fun _ _ same => entry.inj same

theorem Grows.refl (lists : Lists s order) : Grows floor s s order [] := by
  constructor
  · rw [append_nil]
    exact lists
  · exact Nat.le_refl s.next
  · exact fun _ member => absurd member not_mem_nil
  · exact fun _ _ => rfl
  · exact fun _ member => absurd member not_mem_nil
  · exact ⟨[], (append_nil _).symm, Perm.refl []⟩
  · exact fun _ => rfl
  · exact ⟨[], (append_nil _).symm, fun _ member => absurd member not_mem_nil⟩

theorem Grows.trans (first : Grows floor s s' order added) (second : Grows low s' s'' (order ++ added) more)
    (above : floor ≤ low) : Grows floor s s'' order (added ++ more) := by
  have stays : ∀ n ∈ added, s''.entries n = s'.entries n := fun n member =>
    second.kept n (first.fresh n member).2
  constructor
  · rw [← append_assoc]
    exact second.lists
  · exact Nat.le_trans first.later second.later
  · intro n member
    obtain early | late := mem_append.mp member
    · exact ⟨(first.fresh n early).1, Nat.lt_of_lt_of_le (first.fresh n early).2 second.later⟩
    · exact ⟨Nat.le_trans first.later (second.fresh n late).1, (second.fresh n late).2⟩
  · intro n old
    rw [second.kept n (Nat.lt_of_lt_of_le old first.later), first.kept n old]
  · intro n member
    obtain early | late := mem_append.mp member
    · rw [stays n early]
      exact first.single n early
    · exact second.single n late
  · obtain ⟨out, same, perm⟩ := first.handed
    obtain ⟨out', same', perm'⟩ := second.handed
    exact ⟨out ++ out', by rw [same', same, append_assoc], perm.append perm'⟩
  · intro d
    have counted : added.countP (fun n => (s''.entries n).driverObject = d) =
        added.countP fun n => (s'.entries n).driverObject = d := by
      apply countP_congr
      intro n member
      rw [stays n member]
    rw [second.references d, first.references d, countP_append, counted, Nat.add_assoc]
  · obtain ⟨new, same, bound⟩ := first.called
    obtain ⟨new', same', bound'⟩ := second.called
    refine ⟨new ++ new', by rw [same', same, append_assoc], fun call member => ?_⟩
    obtain early | late := mem_append.mp member
    · exact bound call early
    · exact Nat.le_trans above (bound' call late)

theorem Grows.allocated (grows : Grows floor s s' order added) (old : ∀ n ∈ order, n < s.next) :
    ∀ n ∈ order ++ added, n < s'.next := by
  intro n member
  obtain early | late := mem_append.mp member
  · exact Nat.lt_of_lt_of_le (old n early) grows.later
  · exact (grows.fresh n late).2

end Growth

section Entries
variable {Driver : Type} [DecidableEq Driver] {s s' : PnpState Driver} {order nested : List Nat} {number : Nat}
  {driver : Driver} {category : EventCategory} {guid : Guid} {zeroMapped : Bool}

/-- The state of a registration that has its entry. -/
def allocatedState (s : PnpState Driver) (driver : Driver) (category : EventCategory) : PnpState Driver :=
  (obReferenceDriver s driver).allocateEntry driver category

def insertedState (s : PnpState Driver) (driver : Driver) (category : EventCategory) (guid : Guid) :
    PnpState Driver :=
  insertPnpEntry (allocatedState s driver category) s.next guid

omit [DecidableEq Driver] in
theorem absent_of_old (old : ∀ n ∈ order, n < s.next) :
    PnpNode.entry s.next ∉ PnpNode.head :: order.map PnpNode.entry := by
  intro member
  obtain same | inside := List.mem_cons.mp member
  · cases same
  · exact Nat.lt_irrefl _ (old s.next (entry_mem_map.mp inside))

omit [DecidableEq Driver] in
theorem null_notMem : PnpNode.null ∉ PnpNode.head :: order.map PnpNode.entry := by
  intro member
  obtain same | inside := List.mem_cons.mp member
  · cases same
  · obtain ⟨n, -, same⟩ := List.mem_map.mp inside
    cases same

theorem allocatedState_lists (lists : Lists s order) (old : ∀ n ∈ order, n < s.next) (driver : Driver)
    (category : EventCategory) : Lists (allocatedState s driver category) order := by
  have absent := absent_of_old old
  have other : ∀ x ∈ PnpNode.head :: order.map PnpNode.entry, x ≠ .entry s.next := fun x member same =>
    absent (same ▸ member)
  apply Ring.congr lists
  · intro x member
    exact Function.update_of_ne (other x member) _ _
  · intro x member
    exact Function.update_of_ne (other x member) _ _

theorem insertedState_lists (lists : Lists s order) (old : ∀ n ∈ order, n < s.next) (driver : Driver)
    (category : EventCategory) (guid : Guid) :
    Lists (insertedState s driver category guid) (order ++ [s.next]) := by
  have joined := Ring.insertTail (allocatedState_lists lists old driver category) (absent_of_old old)
  rw [Lists, List.map_append]
  exact joined

theorem insertedState_entries (driver : Driver) (category : EventCategory) (guid : Guid) {n : Nat}
    (old : n < s.next) : (insertedState s driver category guid).entries n = s.entries n := by
  have other : n ≠ s.next := Nat.ne_of_lt old
  have allocated : (allocatedState s driver category).entries n = s.entries n := update_of_ne other _ _
  exact (update_of_ne other _ _).trans allocated

theorem insertedState_entry (driver : Driver) (category : EventCategory) (guid : Guid) :
    (insertedState s driver category guid).entries s.next = ⟨driver, some guid, category, 1⟩ := by
  have allocated : (allocatedState s driver category).entries s.next = ⟨driver, none, category, 1⟩ :=
    update_self _ _ _
  have changed : (insertedState s driver category guid).entries s.next =
      { (allocatedState s driver category).entries s.next with guid := some guid } := update_self _ _ _
  rw [changed, allocated]

theorem Grows.mine {floor : Nat}
    (grows : Grows floor (insertedState s driver category guid) s' (order ++ [s.next]) nested) :
    s'.entries s.next = ⟨driver, some guid, category, 1⟩ :=
  (grows.kept s.next (Nat.lt_succ_self _)).trans (insertedState_entry driver category guid)

theorem Grows.registered
    (grows : Grows s.next (insertedState s driver category guid) s' (order ++ [s.next]) nested) :
    Grows s.next s (s'.handOut s.next) order (s.next :: nested) := by
  have mine := grows.mine
  constructor
  · rw [append_cons]
    exact grows.lists
  · exact Nat.le_trans (Nat.le_succ _) grows.later
  · intro n member
    obtain rfl | member := mem_cons.mp member
    · exact ⟨Nat.le_refl _, grows.later⟩
    · exact ⟨Nat.le_trans (Nat.le_succ _) (grows.fresh n member).1, (grows.fresh n member).2⟩
  · intro n before
    exact (grows.kept n (Nat.lt_succ_of_lt before)).trans (insertedState_entries driver category guid before)
  · intro n member
    obtain rfl | member := mem_cons.mp member
    · exact congrArg PnpEntry.refCount mine
    · exact grows.single n member
  · obtain ⟨out, same, perm⟩ := grows.handed
    refine ⟨out ++ [s.next], ?_, (perm_cons_append_cons _ (by simpa using perm))⟩
    change s'.handedOut ++ [s.next] = s.handedOut ++ (out ++ [s.next])
    rw [same, append_assoc]
    rfl
  · intro d
    have total := grows.references d
    change s'.references d = update s.references driver (s.references driver + 1) d + _ at total
    change s'.references d = s.references d + (s.next :: nested).countP fun n => (s'.entries n).driverObject = d
    rw [countP_cons, mine, total]
    obtain rfl | other := eq_or_ne d driver
    · rw [update_self]
      simp only [decide_true, if_true]
      omega
    · rw [update_of_ne other]
      simp [other.symm]
  · exact grows.called

theorem obioDereferencePnpNotify_last {links : RingLinks PnpNode} (single : (s.entries number).refCount = 1)
    (removed : removePnpEntry zeroMapped s.links number = some links)
    (category : (s.entries number).eventCategory ≠ .targetDeviceChange) :
    obioDereferencePnpNotify zeroMapped s number =
      some { (obDereferenceDriver s (s.entries number).driverObject).modifyEntry number
          (fun entry => { entry with refCount := entry.refCount - 1 }) with links } := by
  have gone : (((obDereferenceDriver s (s.entries number).driverObject).modifyEntry number
      fun entry => { entry with refCount := entry.refCount - 1 }).entries number) =
      { s.entries number with refCount := 0 } := by
    change update s.entries number _ number = _
    rw [update_self]
    change { s.entries number with refCount := (s.entries number).refCount - 1 } = _
    rw [single]
    rfl
  have removed' : removePnpEntry zeroMapped ((obDereferenceDriver s (s.entries number).driverObject).modifyEntry
      number fun entry => { entry with refCount := entry.refCount - 1 }).links number = some links := removed
  simp only [obioDereferencePnpNotify, gone, if_true, removed', category, if_false]

theorem removePnpEntry_eq (mapped : (L.flink (.entry number) ≠ .null ∧ L.blink (.entry number) ≠ .null) ∨
    zeroMapped = true) : removePnpEntry zeroMapped L number =
      some (((L.unlinkEntry (.entry number)).setFlink (.entry number) .null).setBlink (.entry number) .null) := by
  rw [removePnpEntry, if_neg]
  rintro ⟨null, unmapped⟩
  obtain ⟨flink, blink⟩ | mapped := mapped
  · exact null.elim flink blink
  · rw [mapped] at unmapped
    cases unmapped

theorem ring_cleared {L : RingLinks PnpNode} (ring : Ring L .head (order.map .entry)) (absent : number ∉ order) :
    Ring ((L.setFlink (.entry number) .null).setBlink (.entry number) .null) .head (order.map .entry) := by
  have other : ∀ x ∈ PnpNode.head :: order.map PnpNode.entry, x ≠ .entry number := by
    rintro x member rfl
    obtain same | inside := List.mem_cons.mp member
    · cases same
    · exact absent (entry_mem_map.mp inside)
  apply Ring.congr ring
  · intro x member
    exact Function.update_of_ne (other x member) _ _
  · intro x member
    exact Function.update_of_ne (other x member) _ _

/-- What `t` has besides `s`: an entry of its own and the reference for it. -/
structure Holds (s t : PnpState Driver) (driver : Driver) (category : EventCategory) : Prop where
  next : t.next = s.next + 1
  entries : ∀ n < s.next, t.entries n = s.entries n
  mine : ∃ guid, t.entries s.next = ⟨driver, guid, category, 1⟩
  references : t.references = Function.update s.references driver (s.references driver + 1)
  handedOut : t.handedOut = s.handedOut
  calls : t.calls = s.calls

theorem allocatedState_holds (s : PnpState Driver) (driver : Driver) (category : EventCategory) :
    Holds s (allocatedState s driver category) driver category :=
  ⟨rfl, fun _ old => update_of_ne (Nat.ne_of_lt old) _ _, ⟨none, update_self _ _ _⟩, rfl, rfl, rfl⟩

theorem insertedState_holds (s : PnpState Driver) (driver : Driver) (category : EventCategory) (guid : Guid) :
    Holds s (insertedState s driver category guid) driver category :=
  ⟨rfl, fun _ old => insertedState_entries driver category guid old,
    ⟨some guid, insertedState_entry driver category guid⟩, rfl, rfl, rfl⟩

theorem Holds.failed {t : PnpState Driver} {links : RingLinks PnpNode} (holds : Holds s t driver category)
    (other : category ≠ .targetDeviceChange) (removed : removePnpEntry zeroMapped t.links s.next = some links)
    (ring : Ring links .head (order.map .entry)) (floor : Nat) :
    ∃ s', obioDereferencePnpNotify zeroMapped t s.next = some s' ∧ Grows floor s s' order [] := by
  obtain ⟨guid, mine⟩ := holds.mine
  have single : (t.entries s.next).refCount = 1 := by rw [mine]
  have kind : (t.entries s.next).eventCategory ≠ .targetDeviceChange := by
    rw [mine]
    exact other
  refine ⟨_, obioDereferencePnpNotify_last single removed kind, ?_⟩
  constructor
  · rw [append_nil]
    exact ring
  · exact Nat.le_of_lt (holds.next ▸ Nat.lt_succ_self s.next)
  · exact fun _ member => absurd member not_mem_nil
  · intro n before
    exact (update_of_ne (Nat.ne_of_lt before) _ _).trans (holds.entries n before)
  · exact fun _ member => absurd member not_mem_nil
  · exact ⟨[], by rw [append_nil]; exact holds.handedOut, Perm.refl []⟩
  · intro d
    change update t.references _ (t.references (t.entries s.next).driverObject - 1) d = s.references d + 0
    rw [mine, holds.references, update_self, update_idem, Nat.add_sub_cancel,
      update_eq_self]
    rfl
  · exact ⟨[], by rw [append_nil]; exact holds.calls, fun _ member => absurd member not_mem_nil⟩

theorem insertedState_removed (lists : Lists s order) (old : ∀ n ∈ order, n < s.next) (driver : Driver)
    (category : EventCategory) (guid : Guid) (zeroMapped : Bool) :
    ∃ links, removePnpEntry zeroMapped (insertedState s driver category guid).links s.next = some links ∧
      Ring links .head (order.map .entry) := by
  have ring := insertedState_lists lists old driver category guid
  rw [Lists, List.map_append, List.map_singleton] at ring
  have flink := ring.flink_eq
  have blink := (segment_append.mp ring.linked).1.blink_mem
  have notNull : (insertedState s driver category guid).links.blink (.entry s.next) ≠ .null := fun null =>
    null_notMem (null ▸ blink)
  refine ⟨_, removePnpEntry_eq (Or.inl ⟨?_, notNull⟩), ring_cleared ?_ ?_⟩
  · rw [flink]
    exact fun same => PnpNode.noConfusion same
  · have left := ring.unlink
    rwa [List.append_nil] at left
  · exact fun member => Nat.lt_irrefl _ (old s.next member)

theorem allocatedState_removed (lists : Lists s order) (old : ∀ n ∈ order, n < s.next) (driver : Driver)
    (category : EventCategory) :
    ∃ links, removePnpEntry true (allocatedState s driver category).links s.next = some links ∧
      Ring links .head (order.map .entry) := by
  have ring := allocatedState_lists lists old driver category
  refine ⟨_, removePnpEntry_eq (Or.inr rfl), ring_cleared ?_ fun member => Nat.lt_irrefl _ (old s.next member)⟩
  have flink : (allocatedState s driver category).links.flink (.entry s.next) = .null := Function.update_self _ _ _
  have blink : (allocatedState s driver category).links.blink (.entry s.next) = .null := Function.update_self _ _ _
  have other : ∀ x ∈ PnpNode.head :: order.map PnpNode.entry, x ≠ .null := fun x member same =>
    null_notMem (same ▸ member)
  apply Ring.congr ring
  · intro x member
    rw [unlinkEntry, flink, blink]
    exact Function.update_of_ne (other x member) _ _
  · intro x member
    rw [unlinkEntry, flink, blink]
    exact Function.update_of_ne (other x member) _ _

end Entries

section Requests
variable {Driver : Type}

/-- A registration without the defect: it fails before it has an entry, or is for device
interfaces, or is of an unsupported category that may fail through the memory at address zero. -/
def PnpParameters.Clean (zeroMapped : Bool) (p : PnpParameters Driver) : Prop :=
  invalidParameters p = true ∨ p.allocated = false ∨ p.eventCategory = .deviceInterfaceChange ∨
    zeroMapped = true ∧ p.eventCategory ≠ .targetDeviceChange

mutual
def PnpRequest.Clean (zeroMapped : Bool) : PnpRequest Driver → Prop
  | .register p existing => p.Clean zeroMapped ∧ existing.Clean zeroMapped

def PnpArrivals.Clean (zeroMapped : Bool) : PnpArrivals Driver → Prop
  | .last => True
  | .link _ does rest => does.Clean zeroMapped ∧ rest.Clean zeroMapped

def PnpRequests.Clean (zeroMapped : Bool) : PnpRequests Driver → Prop
  | .done => True
  | .request first rest => first.Clean zeroMapped ∧ rest.Clean zeroMapped
end

mutual
/-- All registrations in a request, with those of the callbacks. -/
def PnpRequest.count : PnpRequest Driver → Nat
  | .register _ existing => existing.count + 1

def PnpArrivals.count : PnpArrivals Driver → Nat
  | .last => 0
  | .link _ does rest => does.count + rest.count

def PnpRequests.count : PnpRequests Driver → Nat
  | .done => 0
  | .request first rest => first.count + rest.count
end

variable [DecidableEq Driver] {s s' : PnpState Driver} {order : List Nat} {zeroMapped : Bool}

/-- What a registration is to do: nothing when it fails, else one entry for its driver and class at
the end of the list, before those that its callback registers. -/
structure RegisterEnds (p : PnpParameters Driver) (s s' : PnpState Driver) (status : PnpStatus)
    (added : List Nat) : Prop where
  failed : status ≠ .success → added = []
  succeeded : status = .success →
    (∃ nested out, added = s.next :: nested ∧ s'.handedOut = s.handedOut ++ out ++ [s.next] ∧ nested.Perm out) ∧
      p.driverObject = some (s'.entries s.next).driverObject ∧ p.eventCategoryData = (s'.entries s.next).guid

omit [DecidableEq Driver] in
theorem registerEnds_failed {p : PnpParameters Driver} {status : PnpStatus} (failed : status ≠ .success) :
    RegisterEnds p s s' status [] :=
  ⟨fun _ => rfl, fun success => absurd success failed⟩

theorem registerEnds_registered {p : PnpParameters Driver} {driver : Driver} {category : EventCategory}
    {guid : Guid} {nested : List Nat} (given : p.driverObject = some driver)
    (data : p.eventCategoryData = some guid)
    (grows : Grows s.next (insertedState s driver category guid) s' (order ++ [s.next]) nested) :
    RegisterEnds p s (s'.handOut s.next) .success (s.next :: nested) := by
  refine ⟨fun failed => absurd rfl failed, fun _ => ⟨?_, ?_, ?_⟩⟩
  · obtain ⟨out, same, perm⟩ := grows.handed
    refine ⟨nested, out, rfl, ?_, perm⟩
    change s'.handedOut ++ [s.next] = _
    rw [same]
    rfl
  · exact given.trans (congrArg (fun entry => some entry.driverObject) grows.mine.symm)
  · exact data.trans (congrArg PnpEntry.guid grows.mine.symm)

def PnpRequest.parameters : PnpRequest Driver → PnpParameters Driver
  | .register p _ => p

omit [DecidableEq Driver] in
theorem driverObject_of_valid {p : PnpParameters Driver} (valid : invalidParameters p = false) :
    ∃ driver, p.driverObject = some driver := by
  simp only [invalidParameters, Bool.or_eq_false_iff] at valid
  exact Option.isSome_iff_exists.mp (by simpa using valid.1.1.1)

omit [DecidableEq Driver] in
theorem guid_of_valid {p : PnpParameters Driver} (valid : invalidParameters p = false)
    (category : p.eventCategory = .deviceInterfaceChange) : ∃ guid, p.eventCategoryData = some guid := by
  simp only [invalidParameters, Bool.or_eq_false_iff] at valid
  exact Option.isSome_iff_exists.mp (by simpa [category] using valid.2)

theorem Grows.call {floor number : Nat} (lists : Lists s order) (mine : floor ≤ number) (message : InterfaceChange) :
    Grows floor s (obioCallbackProcedure s number message) order [] := by
  have same : Grows floor s s order [] := Grows.refl lists
  refine ⟨same.lists, same.later, same.fresh, same.kept, same.single, same.handed, same.references, ?_⟩
  exact ⟨[(number, message)], rfl, fun call member => mem_singleton.mp member ▸ mine⟩

mutual
theorem obioRegisterPlugPlayNotification_grows : ∀ (request : PnpRequest Driver) {s : PnpState Driver}
    {order : List Nat}, request.Clean zeroMapped → Lists s order → (∀ n ∈ order, n < s.next) →
    ∃ status s' added, obioRegisterPlugPlayNotification zeroMapped s request = some (status, s') ∧
      Grows s.next s s' order added ∧ RegisterEnds request.parameters s s' status added ∧
      added.length ≤ request.count
  | .register p existing, s, order, clean, lists, old => by
      obtain ⟨clean, inside⟩ := clean
      rw [obioRegisterPlugPlayNotification]
      cases invalid : invalidParameters p with
      | true =>
        exact ⟨_, s, [], rfl, Grows.refl lists, registerEnds_failed (fun same => PnpStatus.noConfusion same),
          Nat.zero_le _⟩
      | false =>
        obtain ⟨driver, given⟩ := driverObject_of_valid invalid
        simp only [Bool.false_eq_true, if_false, given]
        cases allocated : p.allocated with
        | false =>
          have back : obDereferenceDriver (obReferenceDriver s driver) driver = s := by
            simp [obDereferenceDriver, obReferenceDriver, PnpState.addReferences]
          simp only [Bool.not_false, if_true, back]
          exact ⟨_, s, [], rfl, Grows.refl lists,
            registerEnds_failed (fun same => PnpStatus.noConfusion same), Nat.zero_le _⟩
        | true =>
          simp only [Bool.not_true, Bool.false_eq_true, if_false]
          by_cases category : p.eventCategory = .deviceInterfaceChange
          · obtain ⟨guid, data⟩ := guid_of_valid invalid category
            have joined := insertedState_lists lists old driver p.eventCategory guid
            have before : ∀ n ∈ order ++ [s.next], n < s.next + 1 := by
              intro n member
              obtain early | mine := mem_append.mp member
              · exact Nat.lt_succ_of_lt (old n early)
              · exact mem_singleton.mp mine ▸ Nat.lt_succ_self _
            rw [if_pos category]
            simp only [data]
            cases existingToo : p.includeExisting with
            | false =>
              have grows : Grows s.next (insertedState s driver p.eventCategory guid)
                  (insertedState s driver p.eventCategory guid) (order ++ [s.next]) [] := Grows.refl joined
              exact ⟨_, _, [s.next], rfl, grows.registered, registerEnds_registered given data grows,
                Nat.succ_le_succ (Nat.zero_le _)⟩
            | true =>
              by_cases found : p.deviceInterfaces = .success
              · obtain ⟨s', nested, called, grows, few⟩ :=
                  callExisting_grows existing s.next guid inside joined before (Nat.lt_succ_self _)
                refine ⟨_, _, s.next :: nested, ?_, grows.registered,
                  registerEnds_registered given data grows, Nat.succ_le_succ few⟩
                rw [if_pos rfl, if_pos found]
                exact congrArg (Option.map _) called
              · obtain ⟨links, removed, ring⟩ :=
                  insertedState_removed lists old driver p.eventCategory guid zeroMapped
                obtain ⟨s', left, grows⟩ := (insertedState_holds s driver p.eventCategory guid).failed
                  (by rw [category]; exact fun same => EventCategory.noConfusion same) removed ring s.next
                refine ⟨_, s', [], ?_, grows, registerEnds_failed found, Nat.zero_le _⟩
                rw [if_pos rfl, if_neg found]
                exact congrArg (Option.map _) left
          · obtain ⟨mapped, other⟩ : zeroMapped = true ∧ p.eventCategory ≠ .targetDeviceChange := by
              simpa [PnpParameters.Clean, invalid, allocated, category] using clean
            obtain ⟨links, removed, ring⟩ := allocatedState_removed lists old driver p.eventCategory
            obtain ⟨s', left, grows⟩ := (allocatedState_holds s driver p.eventCategory).failed other
              removed ring s.next
            rw [if_neg category, mapped]
            exact ⟨_, s', [], congrArg (Option.map _) left, grows,
              registerEnds_failed (fun same => PnpStatus.noConfusion same), Nat.zero_le _⟩

theorem callExisting_grows : ∀ (existing : PnpArrivals Driver) {s : PnpState Driver} {order : List Nat}
    (number : Nat) (guid : Guid), existing.Clean zeroMapped → Lists s order → (∀ n ∈ order, n < s.next) →
    number < s.next →
    ∃ s' added, callExisting zeroMapped number guid s existing = some s' ∧
      Grows number s s' order added ∧ added.length ≤ existing.count
  | .last, s, order, number, guid, _, lists, _, _ => ⟨s, [], rfl, Grows.refl lists, Nat.zero_le _⟩
  | .link symbolicLink does rest, s, order, number, guid, clean, lists, old, mine => by
      have called : Grows number s (obioCallbackProcedure s number
          (interfaceChange guidDeviceInterfaceArrival guid symbolicLink)) order [] :=
        Grows.call lists (Nat.le_refl number) _
      obtain ⟨s', added, performed, grows, few⟩ := perform_grows does clean.1 called.lists (called.allocated old)
      rw [append_nil] at grows
      have so_far := called.trans (by rwa [append_nil]) (Nat.le_of_lt mine)
      obtain ⟨s'', more, called', grows', few'⟩ := callExisting_grows rest number guid clean.2 so_far.lists
        (so_far.allocated old) (Nat.lt_of_lt_of_le mine so_far.later)
      refine ⟨s'', added ++ more, ?_, so_far.trans grows' (Nat.le_refl number), ?_⟩
      · rw [callExisting]
        simp only [performed]
        exact called'
      · rw [length_append, PnpArrivals.count]
        exact Nat.add_le_add few few'

theorem perform_grows : ∀ (does : PnpRequests Driver) {s : PnpState Driver} {order : List Nat},
    does.Clean zeroMapped → Lists s order → (∀ n ∈ order, n < s.next) →
    ∃ s' added, perform zeroMapped s does = some s' ∧
      Grows s.next s s' order added ∧ added.length ≤ does.count
  | .done, s, order, _, lists, _ => ⟨s, [], rfl, Grows.refl lists, Nat.zero_le _⟩
  | .request first rest, s, order, clean, lists, old => by
      obtain ⟨status, s', added, performed, grows, -, few⟩ :=
        obioRegisterPlugPlayNotification_grows first clean.1 lists old
      obtain ⟨s'', more, performed', grows', few'⟩ := perform_grows rest clean.2 grows.lists (grows.allocated old)
      refine ⟨s'', added ++ more, ?_, grows.trans grows' grows.later, ?_⟩
      · rw [perform, performed]
        exact performed'
      · rw [length_append, PnpRequests.count]
        exact Nat.add_le_add few few'
end

end Requests

section Events
variable {Driver : Type} [DecidableEq Driver] {s s' : PnpState Driver} {order : List Nat} {zeroMapped : Bool}
  {number : Nat} {message : InterfaceChange}

theorem obioDereferencePnpNotify_more (more : (s.entries number).refCount = 2) :
    obioDereferencePnpNotify zeroMapped s number =
      some ((obDereferenceDriver s (s.entries number).driverObject).modifyEntry number
        fun entry => { entry with refCount := 1 }) := by
  have left : (obDereferenceDriver s (s.entries number).driverObject).modifyEntry number
      (fun entry => { entry with refCount := entry.refCount - 1 }) =
      (obDereferenceDriver s (s.entries number).driverObject).modifyEntry number
        fun entry => { entry with refCount := 1 } := by
    have same : { s.entries number with refCount := (s.entries number).refCount - 1 } =
        { s.entries number with refCount := 1 } := by
      rw [more]
      rfl
    exact congrArg (fun entry => { obDereferenceDriver s (s.entries number).driverObject with
      entries := update s.entries number entry }) same
  have one : (((obDereferenceDriver s (s.entries number).driverObject).modifyEntry number
      fun entry => { entry with refCount := 1 }).entries number).refCount ≠ 0 := by
    change (update s.entries number _ number).refCount ≠ 0
    rw [update_self]
    change (1 : BitVec 8) ≠ 0
    decide
  simp only [obioDereferencePnpNotify, left, one, if_false]

theorem obioProcessSingleNotification_grows {does : PnpRequests Driver} (clean : does.Clean zeroMapped)
    (lists : Lists s order) (old : ∀ n ∈ order, n < s.next) (member : number ∈ order)
    (single : (s.entries number).refCount = 1) (message : InterfaceChange) :
    ∃ s' added, obioProcessSingleNotification zeroMapped s number message does =
        some (s', s'.links.flink (.entry number)) ∧
      Grows 0 s s' order added ∧ added.length ≤ does.count ∧
      ∃ new, s'.calls = s.calls ++ (number, message) :: new ∧ ∀ call ∈ new, s.next ≤ call.1 := by
  obtain ⟨t, added, performed, grows, few⟩ := perform_grows does
    (s := obioCallbackProcedure (obioReferencePnpNotify s number) number message) clean lists old
  have inside : number < s.next := old number member
  have outside : ∀ n ∈ added, n ≠ number := fun n fresh same =>
    Nat.lt_irrefl _ (Nat.lt_of_lt_of_le (same ▸ inside) (grows.fresh n fresh).1)
  have entry : t.entries number = { s.entries number with refCount := 2 } := by
    rw [grows.kept number inside]
    change update s.entries number { s.entries number with refCount := (s.entries number).refCount + 1 }
      number = _
    rw [update_self, single]
    rfl
  have more : (t.entries number).refCount = 2 := by rw [entry]
  obtain ⟨new, logged, apart⟩ := grows.called
  have calls : t.calls = s.calls ++ (number, message) :: new := by
    rw [logged]
    exact (append_cons s.calls (number, message) new).symm
  refine ⟨(obDereferenceDriver t (t.entries number).driverObject).modifyEntry number
    fun entry => { entry with refCount := 1 }, added, ?_, ?_, few, new, calls, apart⟩
  · rw [obioProcessSingleNotification, performed]
    simp only [obioDereferencePnpNotify_more more, Option.map_some]
    rfl
  · constructor
    · exact grows.lists
    · exact grows.later
    · exact grows.fresh
    · intro n before
      change update t.entries number { t.entries number with refCount := 1 } n = s.entries n
      obtain rfl | other := eq_or_ne n number
      · rw [update_self, entry, ← single]
      · rw [update_of_ne other, grows.kept n before]
        exact update_of_ne other _ _
    · intro n fresh
      exact (congrArg PnpEntry.refCount (update_of_ne (outside n fresh) _ _)).trans (grows.single n fresh)
    · exact grows.handed
    · intro d
      have counted : added.countP (fun n => (t.entries n).driverObject = d) =
          added.countP fun n =>
            (update t.entries number { t.entries number with refCount := 1 } n).driverObject = d := by
        apply countP_congr
        intro n fresh
        rw [update_of_ne (outside n fresh)]
      have total := grows.references d
      change t.references d = update s.references (s.entries number).driverObject
        (s.references (s.entries number).driverObject + 1) d + _ at total
      change update t.references (t.entries number).driverObject
        (t.references (t.entries number).driverObject - 1) d = _ + added.countP
          fun n => (update t.entries number { t.entries number with refCount := 1 } n).driverObject = d
      rw [← counted, entry]
      obtain rfl | other := eq_or_ne d (s.entries number).driverObject
      · rw [update_self, total, update_self]
        omega
      · rw [update_of_ne other, total, update_of_ne other]
    · exact ⟨(number, message) :: new, calls, fun _ _ => Nat.zero_le _⟩

/-- The calls that an event makes to an entry on the rest of its way. -/
def heard (s : PnpState Driver) (message : InterfaceChange) (rest : List Nat) (n : Nat) :
    List (Nat × InterfaceChange) :=
  if n ∈ rest ∧ (s.entries n).guid = some message.interfaceClassGuid then [(n, message)] else []

omit [DecidableEq Driver] in
theorem filter_apart {new : List (Nat × InterfaceChange)} {n : Nat} (inside : n < s.next)
    (apart : ∀ call ∈ new, s.next ≤ call.1) : new.filter (fun call => call.1 = n) = [] := by
  rw [filter_eq_nil_iff]
  intro call member same
  have behind := apart call member
  rw [of_decide_eq_true same] at behind
  exact Nat.lt_irrefl _ (Nat.lt_of_lt_of_le inside behind)

/-- What an event does on the rest of its way, with enough fuel. -/
def Delivers (zeroMapped : Bool) (message : InterfaceChange) (bound : Nat) (s : PnpState Driver)
    (done rest : List Nat) (does : List (PnpRequests Driver)) : Prop :=
  ∃ s' added new,
    (∀ fuel, bound < fuel → deliver zeroMapped message fuel s
      ((rest.map PnpNode.entry ++ [PnpNode.head]).head (by simp)) does = some s') ∧
    Grows 0 s s' (done ++ rest) added ∧ s'.calls = s.calls ++ new ∧
    ∀ n ∈ done ++ rest, new.filter (fun call => call.1 = n) = heard s message rest n

theorem delivers_end (lists : Lists s order) (bound : Nat) (does : List (PnpRequests Driver)) :
    Delivers zeroMapped message bound s order [] does := by
  have here : Lists s (order ++ []) := by rwa [append_nil]
  refine ⟨s, [], [], fun fuel enough => ?_, Grows.refl here, (append_nil _).symm, fun n _ => rfl⟩
  obtain _ | fuel := fuel
  · exact absurd enough (Nat.not_lt_zero bound)
  · rfl

theorem delivers_other {bound : Nat} {done rest : List Nat} {does : List (PnpRequests Driver)}
    (lists : Lists s (done ++ number :: rest))
    (other : (s.entries number).guid ≠ some message.interfaceClassGuid)
    (delivers : Delivers zeroMapped message bound s (done ++ [number]) rest does) :
    Delivers zeroMapped message (bound + 1) s done (number :: rest) does := by
  rw [Lists, map_append, map_cons] at lists
  obtain ⟨s', added, new, walked, grows, logged, called⟩ := delivers
  rw [append_assoc, singleton_append] at grows called
  refine ⟨s', added, new, fun fuel enough => ?_, grows, logged, fun n member => ?_⟩
  · obtain _ | fuel := fuel
    · exact absurd enough (Nat.not_lt_zero _)
    · change deliver zeroMapped message (fuel + 1) s (.entry number) does = some s'
      rw [deliver, if_neg other, lists.flink_eq]
      exact walked fuel (Nat.lt_of_succ_lt_succ enough)
  · rw [called n member]
    obtain rfl | differ := eq_or_ne n number
    · rw [heard, heard, if_neg fun both => other both.2, if_neg fun both => other both.2]
    · simp only [heard, mem_cons, differ, false_or]

theorem delivers_called {bound : Nat} {done rest added : List Nat} {does : List (PnpRequests Driver)}
    {new : List (Nat × InterfaceChange)} {t : PnpState Driver}
    (old : ∀ n ∈ done ++ number :: rest, n < s.next)
    (mine : (s.entries number).guid = some message.interfaceClassGuid)
    (processed : obioProcessSingleNotification zeroMapped s number message (does.headD .done) =
      some (t, t.links.flink (.entry number)))
    (grows : Grows 0 s t (done ++ number :: rest) added)
    (logged : t.calls = s.calls ++ (number, message) :: new) (apart : ∀ call ∈ new, s.next ≤ call.1)
    (delivers : Delivers zeroMapped message bound t (done ++ [number]) (rest ++ added) does.tail) :
    Delivers zeroMapped message (bound + 1) s done (number :: rest) does := by
  have lists := grows.lists
  rw [Lists, append_assoc, cons_append, map_append, map_cons] at lists
  obtain ⟨s', more, new', walked, grows', logged', called⟩ := delivers
  have same : done ++ [number] ++ (rest ++ added) = done ++ number :: rest ++ added := by simp
  rw [same] at grows' called
  refine ⟨s', added ++ more, (number, message) :: (new ++ new'), fun fuel enough => ?_,
    grows.trans grows' (Nat.le_refl 0), ?_, fun n member => ?_⟩
  · obtain _ | fuel := fuel
    · exact absurd enough (Nat.not_lt_zero _)
    · change deliver zeroMapped message (fuel + 1) s (.entry number) does = some s'
      rw [deliver, if_pos mine, processed]
      simp only [lists.flink_eq]
      exact walked fuel (Nat.lt_of_succ_lt_succ enough)
  · rw [logged', logged, append_assoc, cons_append]
  · have unmoved : t.entries n = s.entries n := grows.kept n (old n member)
    have fresh : n ∉ added := fun inside =>
      Nat.lt_irrefl _ (Nat.lt_of_lt_of_le (old n member) (grows.fresh n inside).1)
    have later := called n (mem_append_left added member)
    rw [filter_cons, filter_append, filter_apart (old n member) apart, nil_append, later]
    obtain ⟨distinct, -⟩ := lists
    obtain rfl | differ := eq_or_ne n number
    · have single : n ∉ rest := by
        have apart' := (nodup_append.mp (nodup_cons.mp distinct).2).2.1
        intro inside
        exact (nodup_cons.mp apart').1 (entry_mem_map.mpr (mem_append_left added inside))
      have none : heard t message (rest ++ added) n = [] :=
        if_neg fun both => (mem_append.mp both.1).elim single fresh
      have once : heard s message (n :: rest) n = [(n, message)] := if_pos ⟨mem_cons_self, mine⟩
      rw [none, once]
      simp
    · simp only [heard, unmoved, mem_append, mem_cons, differ, fresh, or_false, false_or]
      simp [differ.symm]

theorem delivers_all (bound : Nat) : ∀ {s : PnpState Driver} {done rest : List Nat}
    {does : List (PnpRequests Driver)}, Lists s (done ++ rest) → (∀ n ∈ done ++ rest, n < s.next) →
    (∀ n ∈ done ++ rest, (s.entries n).refCount = 1) → (∀ b ∈ does, b.Clean zeroMapped) →
    rest.length + (does.map PnpRequests.count).sum ≤ bound →
    Delivers zeroMapped message bound s done rest does := by
  induction bound with
  | zero =>
    intro s done rest does lists _ _ _ few
    obtain _ | ⟨number, rest⟩ := rest
    · rw [append_nil] at lists
      exact delivers_end lists 0 does
    · exact absurd (Nat.le_trans (Nat.le_add_right _ _) few) (Nat.not_succ_le_zero _)
  | succ bound ih =>
    intro s done rest does lists old singles clean few
    obtain _ | ⟨number, rest⟩ := rest
    · rw [append_nil] at lists
      exact delivers_end lists (bound + 1) does
    · rw [length_cons] at few
      have member : number ∈ done ++ number :: rest := mem_append_right _ mem_cons_self
      have again : done ++ [number] ++ rest = done ++ number :: rest := append_assoc done [number] rest
      by_cases mine : (s.entries number).guid = some message.interfaceClassGuid
      · have first : (does.headD .done).Clean zeroMapped := by
          cases does with
          | nil => trivial
          | cons b _ => exact clean b mem_cons_self
        have parts : (does.map PnpRequests.count).sum =
            (does.headD .done).count + (does.tail.map PnpRequests.count).sum := by
          cases does with
          | nil => rfl
          | cons b _ => rfl
        obtain ⟨t, added, processed, grows, few', new, logged, apart⟩ :=
          obioProcessSingleNotification_grows first lists old member (singles number member) message
        have same : done ++ [number] ++ (rest ++ added) = done ++ number :: rest ++ added := by
          rw [← append_assoc, again]
        refine delivers_called old mine processed grows logged apart (ih ?_ ?_ ?_ ?_ ?_)
        · rw [same]
          exact grows.lists
        · rw [same]
          exact grows.allocated old
        · rw [same]
          intro n inside
          obtain early | late := mem_append.mp inside
          · rw [grows.kept n (old n early)]
            exact singles n early
          · exact grows.single n late
        · exact fun b inside => clean b (mem_of_mem_tail inside)
        · rw [length_append]
          omega
      · refine delivers_other lists mine (ih ?_ ?_ ?_ clean (by omega))
        · rwa [again]
        · rwa [again]
        · rwa [again]

end Events

section Runs
variable {Driver : Type} [DecidableEq Driver] {s s' : PnpState Driver} {order added : List Nat} {floor : Nat}
  {start : Driver → Nat} {zeroMapped : Bool}

def pnpStart (links : RingLinks PnpNode) (memory : Nat → PnpEntry Driver) (start : Driver → Nat) :
    PnpState Driver :=
  ⟨links.initializeListHead .head, memory, 0, start, [], []⟩

/-- The list holds the entries that registrations have returned, each with one reference to its
driver and no others. -/
structure PnpRight (start : Driver → Nat) (s : PnpState Driver) (order : List Nat) : Prop where
  lists : Lists s order
  allocated : ∀ n ∈ order, n < s.next
  single : ∀ n ∈ order, (s.entries n).refCount = 1
  handed : order.Perm s.handedOut
  references : ∀ d, s.references d = start d + order.countP fun n => (s.entries n).driverObject = d

theorem pnpStart_right (links : RingLinks PnpNode) (memory : Nat → PnpEntry Driver) (start : Driver → Nat) :
    PnpRight start (pnpStart links memory start) [] := by
  constructor
  · exact ring_initialize links .head
  · exact fun _ member => absurd member not_mem_nil
  · exact fun _ member => absurd member not_mem_nil
  · exact Perm.refl []
  · exact fun _ => rfl

theorem PnpRight.grows (right : PnpRight start s order) (grows : Grows floor s s' order added) :
    PnpRight start s' (order ++ added) := by
  constructor
  · exact grows.lists
  · exact grows.allocated right.allocated
  · intro n member
    obtain early | late := mem_append.mp member
    · rw [grows.kept n (right.allocated n early)]
      exact right.single n early
    · exact grows.single n late
  · obtain ⟨out, same, perm⟩ := grows.handed
    rw [same]
    exact right.handed.append perm
  · intro d
    have counted : order.countP (fun n => (s'.entries n).driverObject = d) =
        order.countP fun n => (s.entries n).driverObject = d := by
      apply countP_congr
      intro n member
      rw [grows.kept n (right.allocated n member)]
    rw [grows.references d, right.references d, countP_append, counted, Nat.add_assoc]

/-- An event without the loss of the message, whose callbacks register without the defect. -/
def PnpEvent.Clean (zeroMapped : Bool) (e : PnpEvent Driver) : Prop :=
  e.allocated = true ∧ ∀ b ∈ e.does, b.Clean zeroMapped

/-- A registration returns, leaves everything right, and adds nothing when it fails. -/
def RegistrationRight (start : Driver → Nat) (zeroMapped : Bool) (s : PnpState Driver) (order : List Nat)
    (request : PnpRequest Driver) : Prop :=
  ∃ status s' added, obioRegisterPlugPlayNotification zeroMapped s request = some (status, s') ∧
    PnpRight start s' (order ++ added) ∧ RegisterEnds request.parameters s s' status added ∧
    (∀ n ∈ order, s'.entries n = s.entries n) ∧ (status ≠ .success → s'.references = s.references)

/-- An event returns, leaves everything right, and has called each entry of before as often as it
is to: once with the message when it is registered for it. -/
def EventRight (start : Driver → Nat) (zeroMapped : Bool) (s : PnpState Driver) (order : List Nat)
    (e : PnpEvent Driver) : Prop :=
  ∃ bound s' added new,
    (∀ fuel, bound < fuel → obioNotifyDeviceInterfaceChange zeroMapped fuel s e = some s') ∧
    PnpRight start s' (order ++ added) ∧ (∀ n ∈ order, s'.entries n = s.entries n) ∧
    s'.calls = s.calls ++ new ∧ ∀ n ∈ order, new.filter (fun call => call.1 = n) = heard s e.message order n

theorem PnpRight.registration (right : PnpRight start s order) {request : PnpRequest Driver}
    (clean : request.Clean zeroMapped) : RegistrationRight start zeroMapped s order request := by
  obtain ⟨status, s', added, registered, grows, ends, -⟩ :=
    obioRegisterPlugPlayNotification_grows request clean right.lists right.allocated
  refine ⟨status, s', added, registered, right.grows grows, ends, fun n member => ?_,
    fun failed => funext fun d => ?_⟩
  · exact grows.kept n (right.allocated n member)
  · have total := grows.references d
    rwa [ends.failed failed, countP_nil, Nat.add_zero] at total

theorem PnpRight.event (right : PnpRight start s order) {e : PnpEvent Driver} (clean : e.Clean zeroMapped) :
    EventRight start zeroMapped s order e := by
  obtain ⟨allocated, clean⟩ := clean
  have delivers : Delivers zeroMapped e.message (order.length + (e.does.map PnpRequests.count).sum) s [] order
      e.does := delivers_all _ right.lists right.allocated right.single clean (Nat.le_refl _)
  obtain ⟨s', added, new, walked, grows, logged, called⟩ := delivers
  refine ⟨order.length + (e.does.map PnpRequests.count).sum, s', added, new, fun fuel enough => ?_,
    right.grows grows, fun n member => grows.kept n (right.allocated n member), logged, called⟩
  rw [obioNotifyDeviceInterfaceChange, allocated, Ring.flink_head right.lists]
  exact walked fuel enough

/-- What runs of registrations and events without the defect reach. -/
inductive PnpReached (zeroMapped : Bool) (s₀ : PnpState Driver) : PnpState Driver → Prop where
  | start : PnpReached zeroMapped s₀ s₀
  | registered {s s' : PnpState Driver} {request : PnpRequest Driver} {status : PnpStatus}
      (before : PnpReached zeroMapped s₀ s) (clean : request.Clean zeroMapped)
      (step : obioRegisterPlugPlayNotification zeroMapped s request = some (status, s')) :
      PnpReached zeroMapped s₀ s'
  | notified {s s' : PnpState Driver} {e : PnpEvent Driver} {bound : Nat}
      (before : PnpReached zeroMapped s₀ s) (clean : e.Clean zeroMapped)
      (step : ∀ fuel, bound < fuel → obioNotifyDeviceInterfaceChange zeroMapped fuel s e = some s') :
      PnpReached zeroMapped s₀ s'

theorem PnpReached.right {links : RingLinks PnpNode} {memory : Nat → PnpEntry Driver}
    (reached : PnpReached zeroMapped (pnpStart links memory start) s) : ∃ order, PnpRight start s order := by
  induction reached with
  | start => exact ⟨[], pnpStart_right links memory start⟩
  | registered _ clean step ih =>
    obtain ⟨order, right⟩ := ih
    obtain ⟨status, s', added, registered, right', -⟩ := right.registration clean
    rw [step] at registered
    cases registered
    exact ⟨order ++ added, right'⟩
  | @notified s s' e bound _ clean step ih =>
    obtain ⟨order, right⟩ := ih
    obtain ⟨bound', s'', added, new, walked, right', -⟩ := right.event clean
    have same := step (bound + bound' + 1) (by omega)
    rw [walked (bound + bound' + 1) (by omega)] at same
    cases same
    exact ⟨order ++ added, right'⟩

/-- In a run without the defect, at every point the list and the references are right, every
further registration ends as it is to, and every event calls each entry as often as it is to. -/
theorem pnpNotify_right (links : RingLinks PnpNode) (memory : Nat → PnpEntry Driver) (start : Driver → Nat)
    (zeroMapped : Bool) (reached : PnpReached zeroMapped (pnpStart links memory start) s) :
    ∃ order, PnpRight start s order ∧
      (∀ request : PnpRequest Driver, request.Clean zeroMapped →
        RegistrationRight start zeroMapped s order request) ∧
      ∀ e : PnpEvent Driver, e.Clean zeroMapped → EventRight start zeroMapped s order e := by
  obtain ⟨order, right⟩ := reached.right
  exact ⟨order, right, fun _ clean => right.registration clean, fun _ clean => right.event clean⟩
end Runs

/-- One driver that has one reference, and nothing registered. -/
def oneDriver : PnpState Unit :=
  pnpStart ⟨id, id⟩ (fun _ => ⟨(), none, .reserved, 0⟩) fun _ => 1

def requestFor (category : EventCategory) : PnpRequest Unit :=
  .register ⟨category, false, some guidDeviceInterfaceArrival, some (), true, true, true, .success⟩ .last

theorem pnpNotify_right_after_one :
    ∃ order, PnpRight (fun _ => 1)
        ((insertedState oneDriver () .deviceInterfaceChange guidDeviceInterfaceArrival).handOut 0) order ∧
      (∀ request : PnpRequest Unit, request.Clean false → RegistrationRight (fun _ => 1) false
        ((insertedState oneDriver () .deviceInterfaceChange guidDeviceInterfaceArrival).handOut 0) order request) ∧
      ∀ e : PnpEvent Unit, e.Clean false → EventRight (fun _ => 1) false
        ((insertedState oneDriver () .deviceInterfaceChange guidDeviceInterfaceArrival).handOut 0) order e := by
  have step : obioRegisterPlugPlayNotification false oneDriver (requestFor .deviceInterfaceChange) =
    some (.success, (insertedState oneDriver () .deviceInterfaceChange guidDeviceInterfaceArrival).handOut 0) := rfl
  have clean : (requestFor .deviceInterfaceChange).Clean false := ⟨Or.inr (Or.inr (Or.inl rfl)), trivial⟩
  exact pnpNotify_right ⟨id, id⟩ (fun _ => ⟨(), none, .reserved, 0⟩) (fun _ => 1) false
    (.registered .start clean step)

/-- A failed registration for the change of a target device gives back two references for one, and
without memory at address zero a failed registration stops the system. -/
theorem pnpNotify_unsupported :
    ¬ RegistrationRight (fun _ => 1) true oneDriver [] (requestFor .targetDeviceChange) ∧
      ¬ RegistrationRight (fun _ => 1) false oneDriver [] (requestFor .hardwareProfileChange) := by
  constructor
  · rintro ⟨status, s', added, registered, -, -, -, references⟩
    obtain ⟨t, run, none⟩ : ∃ t, obioRegisterPlugPlayNotification true oneDriver (requestFor .targetDeviceChange) =
      some (.notSupported, t) ∧ t.references () = 0 := ⟨_, rfl, rfl⟩
    rw [run] at registered
    cases registered
    have same := congrFun (references fun same => PnpStatus.noConfusion same) ()
    rw [none] at same
    exact absurd same.symm (by decide)
  · rintro ⟨status, s', added, registered, -⟩
    have stops : obioRegisterPlugPlayNotification false oneDriver (requestFor .hardwareProfileChange) = none := rfl
    rw [stops] at registered
    cases registered

end VeaOS.Pnp

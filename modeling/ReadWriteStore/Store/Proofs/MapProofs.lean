import ReadWriteStore.Header.Proofs.HoldersProofs
import ReadWriteStore.Store.Linearization
import ReadWriteStore.Store.Proofs.IterationProofs
import ReadWriteStore.Store.Proofs.LifetimeProofs

/-!
# What a step of a store means for the map

The entry of an ID is read off its slot, so a step that leaves a slot as it is leaves the entries of all
its IDs, and the operation of a header that takes effect is an operation of the map.
-/

namespace ReadWriteStore.Store

open Header (reservedId isOccupied currentId view)

/-! ## Entries -/

section Entries

variable {T E : Type} {s s' : State T E} {id : Id}

theorem Map.set_self (m : Map T E) (id : Id) (entry : Option (Entry T E)) : (m.set id entry).entry id = entry :=
  Function.update_self ..

theorem Map.set_ne (m : Map T E) (entry : Option (Entry T E)) {other : Id} (h : other ≠ id) :
    (m.set id entry).entry other = m.entry other :=
  Function.update_of_ne h ..

theorem Map.insert_self (m : Map T E) (id : Id) (value : E) : (m.insert id value).entry id = some (.new value) :=
  Function.update_self ..

theorem Map.insert_ne (m : Map T E) (value : E) {other : Id} (h : other ≠ id) :
    (m.insert id value).entry other = m.entry other :=
  Function.update_of_ne h ..

theorem Id.ext_at {other : Id} (hordinal : other.ordinal = id.ordinal)
    (haddress : other.slotAddress = id.slotAddress) (hstore : other.storeId = id.storeId) : other = id := by
  cases other
  cases id
  cases hordinal
  cases haddress
  cases hstore
  rfl

/-- The slot holds the same element under the same ID and the same locks. -/
structure State.Agrees (s s' : State T E) (address : SlotAddress) : Prop where
  storeId : s'.storeId = s.storeId
  occupied : isOccupied (s'.header address).word = isOccupied (s.header address).word
  ordinal : currentId (s'.header address).word = currentId (s.header address).word
  locks : (s'.header address).locks = (s.header address).locks
  value : isOccupied (s.header address).word = true → s'.value address = s.value address

theorem State.Agrees.present (h : s.Agrees s' id.slotAddress) : s'.Present id ↔ s.Present id := by
  unfold State.Present
  rw [h.occupied, h.ordinal]

theorem State.Agrees.entry (h : s.Agrees s' id.slotAddress) : s'.map.entry id = s.map.entry id := by
  have hlocks : (s'.header id.slotAddress).lockCount id.ordinal = (s.header id.slotAddress).lockCount id.ordinal := by
    unfold Header.State.lockCount
    rw [h.locks]
  simp only [State.map, h.present, h.storeId, hlocks]
  by_cases hp : s.Present id ∧ id.storeId = s.storeId
  · rw [if_pos hp, if_pos hp, h.value hp.1.1]
  · rw [if_neg hp, if_neg hp]

theorem State.Agrees.used (h : s.Agrees s' id.slotAddress) : s'.map.used id ↔ s.map.used id := by
  simp only [State.map, h.present, h.storeId, h.ordinal]

/-- A step that leaves every slot as it is leaves the map as it is. -/
theorem State.map_congr (h : ∀ address, s.Agrees s' address) : s'.map = s.map := by
  refine Map.ext (funext fun id => (h _).entry) (funext fun id => propext (h _).used)

/-- The parts of a state that the map is read from. -/
theorem State.map_eq (hstore : s'.storeId = s.storeId) (hheader : s'.header = s.header) (hvalue : s'.value = s.value) :
    s'.map = s.map := by
  refine State.map_congr fun address => ⟨hstore, ?_, ?_, ?_, fun _ => ?_⟩
  · rw [hheader]
  · rw [hheader]
  · rw [hheader]
  · rw [hvalue]

theorem State.entry_present {value : E} (hp : s.Present id) (hstore : id.storeId = s.storeId)
    (hvalue : s.value id.slotAddress = some value) :
    s.map.entry id = some ⟨value, (s.header id.slotAddress).lockCount id.ordinal⟩ := by
  simp only [State.map, if_pos (And.intro hp hstore), hvalue, Option.map_some]

theorem State.entry_gone (hp : ¬s.Present id) : s.map.entry id = none := by
  simp only [State.map]
  rw [if_neg fun h => hp h.1]

theorem State.entry_foreign (hstore : id.storeId ≠ s.storeId) : s.map.entry id = none := by
  simp only [State.map]
  rw [if_neg fun h => hstore h.2]

theorem State.present_of_entry {entry : Entry T E} (h : s.map.entry id = some entry) :
    s.Present id ∧ id.storeId = s.storeId ∧ s.value id.slotAddress = some entry.value ∧
      entry.locks = (s.header id.slotAddress).lockCount id.ordinal := by
  simp only [State.map] at h
  split at h
  · rename_i hp
    obtain ⟨value, hvalue, rfl⟩ := Option.map_eq_some_iff.1 h
    exact ⟨hp.1, hp.2, hvalue, rfl⟩
  · cases h

theorem State.not_present (hocc : isOccupied (s.header id.slotAddress).word = false) : ¬s.Present id := by
  intro hp
  rw [hp.1] at hocc
  cases hocc

/-- A slot has one entry at most. -/
theorem State.entry_other {other : Id} (hp : s.Present id) (hstore : id.storeId = s.storeId)
    (haddress : other.slotAddress = id.slotAddress) (hne : other ≠ id) : s.map.entry other = none := by
  by_cases hs : other.storeId = s.storeId
  · refine State.entry_gone fun h => hne ?_
    unfold State.Present at h
    rw [haddress, hp.2] at h
    exact Id.ext_at h.2.symm haddress (hs.trans hstore.symm)
  · exact State.entry_foreign hs

theorem State.used_at (hstore : id.storeId = s.storeId) : s.map.used id ↔
    id.ordinal.toNat < (currentId (s.header id.slotAddress).word).toNat ∨ s.Present id := by
  simp only [State.map, hstore, true_and]

theorem State.not_used (hstore : id.storeId ≠ s.storeId) : ¬s.map.used id := fun h => hstore h.1

section Update

variable (hstore : s'.storeId = s.storeId) (hid : id.storeId = s.storeId)
  (hother : ∀ address, address ≠ id.slotAddress → s.Agrees s' address)

include hstore hid hother

/-- The entry of an ID has changed, and that of no other one. -/
theorem State.map_set (hp : s.Present id) (hp' : s'.Present id) : s'.map = s.map.set id (s'.map.entry id) := by
  refine Map.ext (funext fun other => ?_) (funext fun other => propext ?_)
  · by_cases ho : other = id
    · rw [ho, Map.set_self]
    · rw [Map.set_ne _ _ ho]
      by_cases ha : other.slotAddress = id.slotAddress
      · rw [State.entry_other hp hid ha ho, State.entry_other hp' (hid.trans hstore.symm) ha ho]
      · exact (hother _ ha).entry
  · show s'.map.used other ↔ s.map.used other
    by_cases ha : other.slotAddress = id.slotAddress
    · simp only [State.map, hstore, State.Present, ha, hp.1, hp.2, hp'.1, hp'.2]
    · exact (hother _ ha).used

/-- The element of an ID has gone. -/
theorem State.map_erase (hp : s.Present id) (hocc' : isOccupied (s'.header id.slotAddress).word = false)
    (hnext : (currentId (s'.header id.slotAddress).word).toNat = id.ordinal.toNat + 1) :
    s'.map = s.map.set id none := by
  refine Map.ext (funext fun other => ?_) (funext fun other => propext ?_)
  · by_cases ho : other = id
    · rw [ho, Map.set_self, State.entry_gone (State.not_present hocc')]
    · rw [Map.set_ne _ _ ho]
      by_cases ha : other.slotAddress = id.slotAddress
      · rw [State.entry_other hp hid ha ho, State.entry_gone (State.not_present (by rw [ha]; exact hocc'))]
      · exact (hother _ ha).entry
  · show s'.map.used other ↔ s.map.used other
    by_cases ha : other.slotAddress = id.slotAddress
    · by_cases hs : other.storeId = s.storeId
      · rw [State.used_at hs, State.used_at (hs.trans hstore.symm)]
        have hgone' : ¬s'.Present other := State.not_present (by rw [ha]; exact hocc')
        have hpresent : s.Present other ↔ id.ordinal.toNat = other.ordinal.toNat := by
          rw [State.Present, ha, hp.2, UInt32.toNat_inj]
          exact and_iff_right hp.1
        rw [ha, hnext, hp.2, hpresent]
        simp only [hgone', or_false]
        omega
      · exact iff_of_false (State.not_used fun h => hs (h.trans hstore)) (State.not_used hs)
    · exact (hother _ ha).used

/-- An element has come. -/
theorem State.map_insert {value : E} (hocc : isOccupied (s.header id.slotAddress).word = false)
    (hordinal : currentId (s.header id.slotAddress).word = id.ordinal) (hp' : s'.Present id)
    (hvalue : s'.value id.slotAddress = some value) (hlocks : ∀ t, (s'.header id.slotAddress).locks t = []) :
    ¬s.map.used id ∧ s'.map = s.map.insert id value := by
  constructor
  · rw [State.used_at hid, hordinal]
    rintro (hlt | hp)
    · exact Nat.lt_irrefl _ hlt
    · exact State.not_present hocc hp
  refine Map.ext (funext fun other => ?_) (funext fun other => propext ?_)
  · by_cases ho : other = id
    · rw [ho, Map.insert_self, State.entry_present hp' (hid.trans hstore.symm) hvalue,
        Header.State.lockCount_nil hlocks]
      rfl
    · rw [Map.insert_ne _ _ ho]
      by_cases ha : other.slotAddress = id.slotAddress
      · rw [State.entry_other hp' (hid.trans hstore.symm) ha ho,
          State.entry_gone (State.not_present (by rw [ha]; exact hocc))]
      · exact (hother _ ha).entry
  · show s'.map.used other ↔ s.map.used other ∨ other = id
    by_cases ha : other.slotAddress = id.slotAddress
    · by_cases hs : other.storeId = s.storeId
      · have hgone : ¬s.Present other := State.not_present (by rw [ha]; exact hocc)
        have heq : other = id ↔ other.ordinal = id.ordinal := by
          exact ⟨fun h => by rw [h], fun h => Id.ext_at h ha (hs.trans hid.symm)⟩
        have hpresent : s'.Present other ↔ id.ordinal = other.ordinal := by
          rw [State.Present, ha, hp'.2]
          exact and_iff_right hp'.1
        rw [State.used_at hs, State.used_at (hs.trans hstore.symm), heq, hpresent, ha, hp'.2, hordinal]
        simp only [hgone, or_false]
        exact or_congr_right eq_comm
      · refine iff_of_false (State.not_used fun h => hs (h.trans hstore)) ?_
        rintro (h | rfl)
        · exact State.not_used hs h
        · exact hs hid
    · rw [(hother _ ha).used]
      exact ⟨Or.inl, fun h => h.resolve_right fun h => ha (congrArg Id.slotAddress h)⟩

end Update

end Entries

/-! ## Operations of a header -/

section Operations

variable {T E : Type} [DecidableEq T] {build : Build} {s : State T E} {t : T} {id : Id}

omit [DecidableEq T] in
/-- The other slots do not notice. -/
theorem State.agrees_setHeader (s : State T E) {address other : SlotAddress} (header : Header.State T)
    (hne : other ≠ address) : s.Agrees (s.setHeader address header) other := by
  have hheader : (s.setHeader address header).header other = s.header other := by
    rw [State.setHeader_header, Function.update_of_ne hne]
  exact ⟨rfl, by rw [hheader], by rw [hheader], by rw [hheader], fun _ => by rw [State.setHeader_value]⟩

omit [DecidableEq T] in
theorem State.setHeader_self (s : State T E) (address : SlotAddress) (header : Header.State T) :
    (s.setHeader address header).header address = header := by
  rw [State.setHeader_header, Function.update_self]

omit [DecidableEq T] in
theorem State.present_of_view {lock : Header.RwLock} (hview : view (s.header id.slotAddress).word = lock)
    (hmode : lock.mode ≠ .unoccupied) (hid : lock.id = id.ordinal) : s.Present id := by
  subst hview
  exact ⟨Header.isOccupied_of_mode hmode, hid⟩

omit [DecidableEq T] in
/-- Only an element that is there can be locked or removed. -/
theorem State.present_of_apply {lock' : Header.RwLock} {op : Header.RwOp}
    (happly : (view (s.header id.slotAddress).word).apply op = some lock') (hid : op.forId = some id.ordinal) :
    s.Present id := by
  have hordinal := Header.RwLock.apply_id happly hid
  rcases Header.RwLock.apply_cases happly with ⟨rfl, -⟩ | ⟨-, -, -, hmode, -⟩ | ⟨-, -, hmode, -⟩
  · cases hid
  · exact State.present_of_view rfl hmode hordinal
  · exact State.present_of_view rfl hmode hordinal

omit [DecidableEq T] in
theorem State.Filled.entry (h : s.Filled) (hstore : id.storeId = s.storeId) (hp : s.Present id) :
    ∃ value, s.value id.slotAddress = some value ∧
      s.map.entry id = some ⟨value, (s.header id.slotAddress).lockCount id.ordinal⟩ := by
  obtain ⟨value, hvalue⟩ := Option.isSome_iff_exists.1 (h.occupied id.slotAddress hp.1)
  exact ⟨value, hvalue, State.entry_present hp hstore hvalue⟩

omit [DecidableEq T] in
/-- A step on the locks of an element that stays. -/
theorem State.map_setHeader {header : Header.State T} {value : E} {op : Header.RwOp}
    (hstore : id.storeId = s.storeId) (hvalue : s.value id.slotAddress = some value)
    (happly : (view (s.header id.slotAddress).word).apply op = some (view header.word))
    (hid : op.forId = some id.ordinal) (hop : ∀ id, op ≠ .remove id ∧ op ≠ .removeLocked id) :
    (s.setHeader id.slotAddress header).map = s.map.set id (some ⟨value, header.lockCount id.ordinal⟩) := by
  have hordinal := Header.RwLock.apply_id happly hid
  rcases Header.RwLock.apply_cases happly with ⟨rfl, -⟩ | ⟨other, hother, -⟩ | ⟨-, -, hmode, hmode', hid'⟩
  · cases hid
  · exact (hother.elim (hop other).1 (hop other).2).elim
  · have hheader := s.setHeader_self id.slotAddress header
    have hp' : (s.setHeader id.slotAddress header).Present id :=
      State.present_of_view (by rw [hheader]) hmode' (hid'.trans hordinal)
    rw [State.map_set (show (s.setHeader id.slotAddress header).storeId = s.storeId from rfl) hstore
        (fun other hne => s.agrees_setHeader header hne)
        (State.present_of_view rfl hmode hordinal) hp',
      State.entry_present hp' hstore (by rw [State.setHeader_value]; exact hvalue), hheader]

omit [DecidableEq T] in
/-- A step that takes the element. -/
theorem State.map_setHeader_erase {header : Header.State T} {op : Header.RwOp} (hstore : id.storeId = s.storeId)
    (happly : (view (s.header id.slotAddress).word).apply op = some (view header.word))
    (hop : op = .remove id.ordinal ∨ op = .removeLocked id.ordinal) (hne : id.ordinal ≠ reservedId) :
    (s.setHeader id.slotAddress header).map = s.map.set id none := by
  have hid : op.forId = some id.ordinal := by rcases hop with rfl | rfl <;> rfl
  rcases Header.RwLock.apply_cases happly with ⟨rfl, -⟩ | ⟨ordinal, hother, hordinal, hmode, hlock⟩ | ⟨-, hother, -⟩
  · cases hid
  · obtain rfl : ordinal = id.ordinal := by
      rcases hop with rfl | rfl <;> rcases hother with hother | hother <;> cases hother <;> rfl
    have hheader := s.setHeader_self id.slotAddress header
    refine State.map_erase (show (s.setHeader id.slotAddress header).storeId = s.storeId from rfl) hstore
      (fun other hne => s.agrees_setHeader header hne)
      (State.present_of_view rfl hmode hordinal) ?_ ?_
    · rw [hheader, ← Header.view_mode_iff, hlock]
    · rw [hheader, ← Header.next_toNat hne]
      exact congrArg (fun lock => lock.id.toNat) hlock
  · exact (hop.elim (hother _).1 (hother _).2).elim

omit [DecidableEq T] in
/-- A step that brings an element. -/
theorem State.map_setHeader_insert {header : Header.State T} {value : E} (hstore : id.storeId = s.storeId)
    (hvalue : s.value id.slotAddress = some value)
    (happly : (view (s.header id.slotAddress).word).apply .occupy = some (view header.word))
    (hordinal : currentId header.word = id.ordinal) (hlocks : ∀ t, header.locks t = []) :
    ¬s.map.used id ∧ (s.setHeader id.slotAddress header).map = s.map.insert id value := by
  rcases Header.RwLock.apply_cases happly with ⟨-, hmode, hmode', hid⟩ | ⟨_, hother, -⟩ | ⟨hother, -⟩
  · have hheader := s.setHeader_self id.slotAddress header
    refine State.map_insert (show (s.setHeader id.slotAddress header).storeId = s.storeId from rfl) hstore
      (fun other hne => s.agrees_setHeader header hne)
      ((Header.view_mode_iff _).1 hmode) (hid.symm.trans hordinal) ?_ ?_ ?_
    · exact State.present_of_view (by rw [hheader]) hmode' hordinal
    · rw [State.setHeader_value]
      exact hvalue
    · rw [hheader]
      exact hlocks
  · rcases hother with hother | hother <;> cases hother
  · exact absurd rfl hother

variable [Fintype T]

/-- An operation of a header that takes effect is an operation of the map. -/
theorem State.Sound.effect (h : s.Sound build) (hn : s.Noted) (hk : s.Kept) {frame : Frame E}
    {header : Header.State T} (hc : s.control t = .header frame)
    (hknown : ∀ id, frame.id = some id → id ∈ s.issued)
    (htaken : ∀ id element, frame = .removeLocked id element → s.value id.slotAddress = some element)
    (hbefore : ((s.header frame.address).control t).done = false)
    (happly : (view (s.header frame.address).word).apply frame.call.op = some (view header.word))
    (hlocks : header.locks =
      ((s.header frame.address).record t (frame.call.effect (view (s.header frame.address).word).id)).locks)
    (hinv' : header.Inv) :
    s.map.Effect t frame.origin ((s.setHeader frame.address header).outcome frame)
      (s.setHeader frame.address header).map := by
  have hinv := Header.reachable_inv (h.linked.header frame.address)
  have hserves := h.linked.serves t frame hc
  have hholds : ∀ lock, frame.call.releases = some lock → lock ∈ (s.header frame.address).locks t :=
    fun lock hlock => hserves.holds (hinv.control t) hbefore hlock
  have hentry : ∀ id, frame.id = some id → frame.address = id.slotAddress → frame.call.op.forId = some id.ordinal →
      id.storeId = s.storeId ∧ s.Present id ∧ ∃ value, s.value id.slotAddress = some value ∧
        s.map.entry id = some ⟨value, (s.header id.slotAddress).lockCount id.ordinal⟩ := by
    intro id hid haddress hfor
    rw [haddress] at happly
    have hstore := hn.storeId id (hknown id hid)
    have hp := State.present_of_apply happly hfor
    exact ⟨hstore, hp, h.filled.entry hstore hp⟩
  cases frame with
  | occupy address element =>
    have hmode : (view header.word).mode = .unlocked ∧ (view header.word).id = (view (s.header address).word).id := by
      have happly' : (view (s.header address).word).apply .occupy = some (view header.word) := happly
      simp only [Header.RwLock.apply] at happly'
      split at happly'
      · injection happly' with hview
        rw [← hview]
        exact ⟨rfl, rfl⟩
      · cases happly'
    have hidAt : (s.setHeader address header).idAt address = s.idAt address := by
      refine Id.ext_at ?_ rfl rfl
      show currentId ((s.setHeader address header).header address).word = _
      rw [s.setHeader_self]
      exact hmode.2
    obtain ⟨hnew, hmap⟩ := State.map_setHeader_insert (show (s.idAt address).storeId = s.storeId from rfl)
      (hk.placed t address element hc) happly hmode.2 (hinv'.locks_of_free (Or.inl hmode.1))
    show s.map.Effect t (.insert element) (.insert ((s.setHeader address header).idAt address))
      (s.setHeader (s.idAt address).slotAddress header).map
    rw [hmap, hidAt]
    exact .insert hnew
  | remove id method =>
    obtain ⟨hstore, hp, value, hvalue, hsome⟩ := hentry id rfl rfl rfl
    show s.map.Effect t _ (.remove (.ok ((s.setHeader id.slotAddress header).value id.slotAddress)))
      (s.setHeader id.slotAddress header).map
    rw [State.setHeader_value, hvalue,
      State.map_setHeader_erase hstore happly (Or.inl rfl) (h.ne_reserved (hknown id rfl))]
    refine .remove hsome fun u kind => ?_
    have hfree := hinv.locks_of_free (Or.inl (Header.RwLock.apply_free happly (Or.inr rfl)))
    exact congrFun (congrFun (Header.State.lockCount_nil hfree) u) kind
  | removeLocked id element =>
    obtain ⟨hstore, hp, value, hvalue, hsome⟩ := hentry id rfl rfl rfl
    obtain rfl : value = element := Option.some.inj (hvalue.symm.trans (htaken id element rfl))
    show s.map.Effect t _ _ (s.setHeader id.slotAddress header).map
    rw [State.map_setHeader_erase hstore happly (Or.inr rfl) (h.ne_reserved (hknown id rfl))]
    exact .removeLocked hsome (Header.State.lockCount_pos.2 (hholds _ rfl))
  | read id method =>
    obtain ⟨hstore, hp, value, hvalue, hsome⟩ := hentry id rfl rfl rfl
    show s.map.Effect t _ _ (s.setHeader id.slotAddress header).map
    rw [State.map_setHeader hstore hvalue happly rfl (by simp [Frame.call, Header.Call.op]), Header.State.lockCount_acquire hlocks]
    refine .read hsome fun u => ?_
    have hwriter := hinv.not_writer (Header.RwLock.apply_lockRead happly) u id.ordinal
    exact Nat.eq_zero_of_not_pos fun hpos => hwriter (Header.State.lockCount_pos.1 hpos)
  | write id method =>
    obtain ⟨hstore, hp, value, hvalue, hsome⟩ := hentry id rfl rfl rfl
    show s.map.Effect t _ _ (s.setHeader id.slotAddress header).map
    rw [State.map_setHeader hstore hvalue happly rfl (by simp [Frame.call, Header.Call.op]), Header.State.lockCount_acquire hlocks]
    refine .write hsome fun u kind => ?_
    have hfree := hinv.locks_of_free (Or.inl (Header.RwLock.apply_free happly (Or.inl rfl)))
    exact congrFun (congrFun (Header.State.lockCount_nil hfree) u) kind
  | dropRead id =>
    obtain ⟨hstore, hp, value, hvalue, hsome⟩ := hentry id rfl rfl rfl
    show s.map.Effect t _ _ (s.setHeader id.slotAddress header).map
    rw [State.map_setHeader hstore hvalue happly rfl (by simp [Frame.call, Header.Call.op]), Header.State.lockCount_release hlocks]
    exact .dropRead hsome (Header.State.lockCount_pos.2 (hholds _ rfl))
  | dropWrite id =>
    obtain ⟨hstore, hp, value, hvalue, hsome⟩ := hentry id rfl rfl rfl
    show s.map.Effect t _ _ (s.setHeader id.slotAddress header).map
    rw [State.map_setHeader hstore hvalue happly rfl (by simp [Frame.call, Header.Call.op]), Header.State.lockCount_release hlocks]
    exact .dropWrite hsome (Header.State.lockCount_pos.2 (hholds _ rfl))

end Operations

end ReadWriteStore.Store

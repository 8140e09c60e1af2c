import ReadWriteStore.Header.Proofs.MissProofs
import ReadWriteStore.Store.Lifetime
import ReadWriteStore.Store.Proofs.CustodyProofs
import ReadWriteStore.Store.Proofs.IdentityProofs

/-!
# Every ID lives once

The ordinal of a header never decreases, and it is above the ordinals of all IDs whose element is gone. What
is in a slot between the write of `insert` and the return of the ID is the element inserted, since nobody
else has the ID by then.
-/

namespace ReadWriteStore.Store

open Header (reservedId isOccupied currentId)

variable {T E : Type} [DecidableEq T] {build : Build} {s s' : State T E} {e : Event T E}

/-! ## Ordinals -/

section Ordinals

variable [Fintype T]

/-- The header of an ID has its ordinal or a later one. -/
theorem State.Sound.ordinal_le (h : s.Sound build) {id : Id} (hid : id ∈ s.issued) :
    id.ordinal.toNat ≤ (currentId (s.header id.slotAddress).word).toNat := by
  have hinv := Header.reachable_inv (h.linked.header id.slotAddress)
  have hle := hinv.ledger.issued_le _ (h.linked.issued id hid)
  rw [← Header.idFromBits_toNat] at hle
  exact hle

theorem State.Sound.ne_reserved (h : s.Sound build) {id : Id} (hid : id ∈ s.issued) :
    id.ordinal ≠ reservedId :=
  (Header.reachable_inv (h.linked.header id.slotAddress)).ne_reserved (h.linked.issued id hid)

/-- The ordinal decides whether the element is there. -/
theorem State.Sound.present_iff (h : s.Sound build) {id : Id} (hid : id ∈ s.issued) :
    s.Present id ↔ currentId (s.header id.slotAddress).word = id.ordinal := by
  refine ⟨fun hpresent => hpresent.2, fun heq => ⟨?_, heq⟩⟩
  have hinv := Header.reachable_inv (h.linked.header id.slotAddress)
  have hmem := h.linked.issued id hid
  rw [← heq] at hmem
  exact (Header.isOccupied_iff _).2 (hinv.ledger.occupied.2 hmem)

theorem State.Sound.gone_iff (h : s.Sound build) {id : Id} (hid : id ∈ s.issued) :
    ¬s.Present id ↔ id.ordinal.toNat < (currentId (s.header id.slotAddress).word).toNat := by
  rw [h.present_iff hid]
  have hle := h.ordinal_le hid
  constructor
  · intro hne
    rcases Nat.lt_or_eq_of_le hle with hlt | heq
    · exact hlt
    · exact absurd (UInt32.toNat_inj.1 heq).symm hne
  · intro hlt heq
    rw [heq] at hlt
    exact absurd hlt (Nat.lt_irrefl _)

/-- An occupied header has an ordinal left. -/
theorem State.Sound.occupied_ne_reserved (h : s.Sound build) {address : SlotAddress}
    (hocc : isOccupied (s.header address).word = true) : currentId (s.header address).word ≠ reservedId := by
  have hinv := Header.reachable_inv (h.linked.header address)
  exact hinv.ne_reserved (hinv.ledger.occupied.1 ((Header.isOccupied_iff _).1 hocc))

/-- No step takes the ordinal of a header back. -/
theorem State.Sound.ordinal_mono (h : s.Sound build) (hm : Move build s e s') (ha : Allowed s e)
    (address : SlotAddress) :
    (currentId (s.header address).word).toNat ≤ (currentId (s'.header address).word).toNat := by
  obtain ⟨class_, hclass⟩ := h.classified
  cases hm.headerPart address with
  | same hheader hframe => rw [hheader]
  | enters haddress hbefore hafter hwhy hstep =>
    subst haddress
    rw [(h.linked.entered ha hwhy hstep).2.2.1]
  | leaves haddress hbefore hafter hstep =>
    rw [header_left hstep]
    exact le_refl _
  | goes haddress hcontrol hsame hevent hstep =>
    subst haddress
    cases (h.linked.served hclass hcontrol hevent hstep).2.occupancy with
    | same hocc hid hdone => rw [hid]
    | occupied hc hbefore hafter hocc hid => rw [hid]
    | @emptied id hc hbefore hafter hocc hocc' hid hid' =>
      have hne := h.occupied_ne_reserved hocc
      rw [hid] at hne
      rw [hid, hid', Header.next_toNat hne]
      exact Nat.le_succ _

end Ordinals

/-! ## Values -/

/-- A step inside a call of a header writes no element. -/
theorem Move.value_of_header (hm : Move build s e s') {frame : Frame E}
    (hc : s.control e.thread = .header frame) : s'.value = s.value := by
  cases hm with
  | headerStep | expire | headerFault => simp
  | resume => simp
  | replace h => cases hc.symm.trans h
  | place h => cases hc.symm.trans h
  | bucketFault h => cases hc.symm.trans h
  | moveOutLocked h => cases hc.symm.trans h
  | enter h => cases hc.symm.trans h
  | _ => rfl

/-- Who writes the cell of a slot. -/
theorem Move.writes (hm : Move build s e s') (address : SlotAddress) :
    s'.value address = s.value address ∨ (∃ element, s.control e.thread = .place element address) ∨
      ∃ call element result, e = .call e.thread call ∧ Replaces s call address element result := by
  cases hm with
  | enter | headerStep | expire | headerFault => exact Or.inl (by simp)
  | moveOutLocked => exact Or.inl (by simp)
  | resume => exact Or.inl (by simp)
  | @bucketFault t _ frame fault bucket hc hr hb =>
    obtain ⟨unwound, heq⟩ := (s.setBucket frame.bucket bucket).unwindBucket_eq t fault frame
    rw [heq]
    exact Or.inl rfl
  | @replace t call address' element result hc hreplace =>
    by_cases haddress : address = address'
    · subst haddress
      exact Or.inr (Or.inr ⟨call, element, result, rfl, hreplace⟩)
    · left
      rw [State.setControl_value, State.setValue_value, Function.update_of_ne haddress]
      rfl
  | @place t spurious element address' header hc hh =>
    by_cases haddress : address = address'
    · subst haddress
      exact Or.inr (Or.inl ⟨element, hc⟩)
    · left
      rw [State.setControl_value, State.setHeader_value, State.setValue_value,
        Function.update_of_ne haddress]
  | _ => exact Or.inl rfl

/-- A replacement of an element under an ID of its slot that is in use. -/
theorem State.Sound.replaces [Fintype T] (h : s.Sound build) (ha : Allowed s e) {call : Call E}
    {address : SlotAddress} {element : E} {result : Return E} (he : e = .call e.thread call)
    (hreplace : Replaces s call address element result) :
    ∃ id ∈ s.issued, id.slotAddress = address ∧ s.Present id ∧
      (call = .replace id element ∨ call = .replaceMut id element ∧ s.Quiet) := by
  rw [he] at ha
  cases hreplace with
  | @replace id _ old hv =>
    have hinv := Header.reachable_inv (h.linked.header id.slotAddress)
    obtain ⟨hid, -, hocc, -⟩ := hinv.of_write_lock ha.2
    exact ⟨id, ha.1, rfl, ⟨hocc, hid⟩, Or.inl rfl⟩
  | @replaceMut id _ old hv hid =>
    exact ⟨id, ha.1, rfl, (h.present_iff ha.1).2 hid, Or.inr ⟨rfl, ha.2⟩⟩

/-! ## Before an ID is returned -/

/-- Nobody else has the ID that an `insert` is about to return. -/
structure State.Kept (s : State T E) : Prop where
  /-- A removal has an ID that was returned. -/
  moveOut : ∀ t id, s.control t = .moveOutLocked id → id ∈ s.issued
  removes : ∀ t frame id, s.control t = .header frame → frame.emptying = some id → id ∈ s.issued
  pending : ∀ t address ordinal, s.Pending t address ordinal →
    isOccupied (s.header address).word = true ∧ currentId (s.header address).word = ordinal
  placed : ∀ t address element, s.control t = .header (.occupy address element) →
    s.value address = some element

theorem Move.issued_subset (hm : Move build s e s') : s.issued ⊆ s'.issued := by
  rcases hm.issues with hsame | ⟨address, element, ordinal, -, -, hnew⟩
  · rw [hsame]
    exact fun _ hid => hid
  · rw [hnew]
    exact List.subset_cons_self _ _

theorem State.Kept.moveOut_step (hk : s.Kept) (hm : Move build s e s') (ha : Allowed s e) {t : T} {id : Id}
    (hc : s'.control t = .moveOutLocked id) : id ∈ s'.issued := by
  refine hm.issued_subset ?_
  by_cases ht : t = e.thread
  · subst ht
    by_cases hbefore : s.control e.thread = .moveOutLocked id
    · exact absurd hc (hm.moveOutLocked_ne hbefore)
    · obtain ⟨he, -⟩ := hm.of_moveOutLocked hc hbefore
      rw [he] at ha
      exact ha.1
  · rw [hm.control_ne ht] at hc
    exact hk.moveOut t id hc

theorem State.Kept.removes_step (hk : s.Kept) (hm : Move build s e s') (ha : Allowed s e) {t : T}
    {frame : Frame E} {id : Id} (hc : s'.control t = .header frame) (hid : frame.emptying = some id) :
    id ∈ s'.issued := by
  refine hm.issued_subset ?_
  by_cases ht : t = e.thread
  · subst ht
    cases hm.headerPart frame.address with
    | same hheader hframe => exact hk.removes _ frame id ((hframe frame rfl).1 hc) hid
    | goes haddress hcontrol hsame hevent hstep =>
      cases hsame.symm.trans hc
      exact hk.removes _ frame id hcontrol hid
    | leaves haddress hbefore hafter hstep => exact absurd hc (hafter frame)
    | enters haddress hbefore hafter hwhy hstep =>
      cases hafter.symm.trans hc
      rcases hwhy with ⟨-, call, hcall, hframe⟩ | ⟨_, _, rfl, -⟩ | ⟨id', element, rfl, hmove, -⟩
      · rw [hcall] at ha
        cases call with
        | remove id' method =>
          cases hframe
          cases hid
          exact ha
        | read | write | dropRead | dropWrite =>
          cases hframe
          cases hid
        | _ => cases hframe
      · cases hid
      · cases hid
        exact hk.moveOut _ _ hmove
  · rw [hm.control_ne ht] at hc
    exact hk.removes t frame id hc hid

section Step

variable [Fintype T]

omit [DecidableEq T] [Fintype T] in
/-- The ID that is about to be returned is not one that others know. -/
theorem State.Kept.not_pending (hn : s.Noted) {t : T} {address : SlotAddress} {ordinal : UInt32} {id : Id}
    (hp : s.Pending t address ordinal) (hid : id ∈ s.issued) (haddress : id.slotAddress = address) :
    id.ordinal ≠ ordinal := by
  rintro rfl
  have hfresh := hn.fresh t address id.ordinal hp
  have hstore := hn.storeId id hid
  obtain ⟨ordinal, slotAddress, storeId⟩ := id
  subst haddress hstore
  exact hfresh hid

/-- The thread that takes the step comes to be about to return. -/
theorem State.Kept.pending_self (hk : s.Kept) (h : s.Sound build) (hm : Move build s e s') (ha : Allowed s e)
    {address : SlotAddress} {ordinal : UInt32} (hp : s'.Pending e.thread address ordinal) :
    isOccupied (s'.header address).word = true ∧ currentId (s'.header address).word = ordinal := by
  obtain ⟨class_, hclass⟩ := h.classified
  obtain ⟨element, hc', hr'⟩ := hp
  cases hm.headerPart address with
  | same hheader hframe =>
    rw [hheader] at hr' ⊢
    exact hk.pending _ address ordinal ⟨element, (hframe _ rfl).1 hc', hr'⟩
  | enters haddress hbefore hafter hwhy hstep =>
    cases hafter.symm.trans hc'
    have hdone := (h.linked.entered ha hwhy hstep).2.1
    rw [hr'] at hdone
    cases hdone
  | leaves haddress hbefore hafter hstep => exact absurd hc' (hafter _)
  | goes haddress hcontrol hsame hevent hstep =>
    cases hsame.symm.trans hc'
    have hserved := (h.linked.served hclass hcontrol hevent hstep).2
    have hrunning : (s.header address).control e.thread = .running .occupyFetchOr := by
      obtain ⟨point, hpoint⟩ := header_running hevent hstep
      rcases serves_occupy (h.linked.serves _ _ hcontrol) with hbefore | ⟨other, hbefore⟩
      · exact hbefore
      · cases hbefore.symm.trans hpoint
    have hbefore : ((s.header address).control e.thread).done = false := by
      rw [hrunning]
      rfl
    have hafter : ((s'.header address).control e.thread).done = true := by
      rw [hr']
      rfl
    cases hserved.occupancy with
    | same hocc hid hdone =>
      have heq : ((s'.header address).control e.thread).done = ((s.header address).control e.thread).done :=
        hdone rfl
      rw [hafter, hbefore] at heq
      cases heq
    | occupied hcall _ _ hocc hid =>
      refine ⟨hocc, ?_⟩
      cases hserved with
      | stays hdone =>
        rw [hafter] at hdone
        exact absurd (hdone.trans hbefore) nofun
      | takes _ _ happly hlocks hissued hoccupy =>
        cases hr'.symm.trans (hoccupy rfl)
        exact hid
    | emptied hcall =>
      rcases hcall with ⟨timeout, hcall⟩ | hcall
      · cases hcall
      · cases hcall

/-- Nobody empties the slot of an `insert` that is about to return. -/
theorem State.Kept.pending_ne (hk : s.Kept) (hn : s.Noted) (h : s.Sound build) (hm : Move build s e s')
    (ha : Allowed s e) {t : T} (ht : t ≠ e.thread) {address : SlotAddress} {ordinal : UInt32}
    (hp : s'.Pending t address ordinal) :
    isOccupied (s'.header address).word = true ∧ currentId (s'.header address).word = ordinal := by
  obtain ⟨class_, hclass⟩ := h.classified
  rw [State.Pending.of_ne hm h ha ht] at hp
  obtain ⟨hocc, hord⟩ := hk.pending t address ordinal hp
  cases hm.headerPart address with
  | same hheader hframe =>
    rw [hheader]
    exact ⟨hocc, hord⟩
  | enters haddress hbefore hafter hwhy hstep =>
    subst haddress
    rw [(h.linked.entered ha hwhy hstep).2.2.1]
    exact ⟨hocc, hord⟩
  | leaves haddress hbefore hafter hstep =>
    rw [header_left hstep]
    exact ⟨hocc, hord⟩
  | @goes frame event haddress hcontrol hsame hevent hstep =>
    subst haddress
    cases (h.linked.served hclass hcontrol hevent hstep).2.occupancy with
    | same hocc' hid hdone => exact ⟨hocc'.trans hocc, hid.trans hord⟩
    | occupied hc hbefore hafter hocc' hid => exact ⟨hocc', hid.trans hord⟩
    | @emptied id hc hbefore hafter _ hocc' hid hid' =>
      -- the thread would have to know the ID
      exfalso
      rw [hord] at hid
      cases frame with
      | remove other method =>
        have hother : other.ordinal = id := by
          rcases hc with ⟨timeout, hc⟩ | hc
          · exact (Header.Call.remove.inj hc).1
          · cases hc
        exact State.Kept.not_pending hn hp (hk.removes _ _ other hcontrol rfl) rfl (hother.trans hid.symm)
      | removeLocked other element =>
        have hother : other.ordinal = id := by
          rcases hc with ⟨timeout, hc⟩ | hc
          · cases hc
          · exact Header.Call.removeLocked.inj hc
        exact State.Kept.not_pending hn hp (hk.removes _ _ other hcontrol rfl) rfl (hother.trans hid.symm)
      | _ =>
        rcases hc with ⟨timeout, hc⟩ | hc
        · cases hc
        · cases hc

omit [Fintype T] in
/-- Where an `insert` is, from the write of its element to its return. -/
theorem State.Sound.placing_cases (h : s.Sound build) {t : T} {address : SlotAddress} {element : E}
    (hc : s.control t = .header (.occupy address element)) :
    s.reserves t = some address ∨ ∃ ordinal, s.Pending t address ordinal := by
  rcases serves_occupy (h.linked.serves t _ hc) with hrunning | ⟨ordinal, hreturned⟩
  · left
    refine State.reserves_of_occupy hc ?_
    rw [show (s.header address).control t = _ from hrunning]
    rfl
  · exact Or.inr ⟨ordinal, element, hc, hreturned⟩

/-- Nobody else writes the slot of an `insert` before it returns. -/
theorem State.Kept.value_ne (hk : s.Kept) (hn : s.Noted) (h : s.Sound build) (hm : Move build s e s')
    (ha : Allowed s e) {t : T} (ht : t ≠ e.thread) {address : SlotAddress} {element : E}
    (hc : s.control t = .header (.occupy address element)) : s'.value address = s.value address := by
  obtain ⟨class_, hclass⟩ := h.classified
  rcases hm.writes address with hsame | ⟨element', hplace⟩ | ⟨call, element', result, he, hreplace⟩
  · exact hsame
  · have hres : s.reserves e.thread = some address := by
      unfold State.reserves
      rw [hplace]
    rcases h.placing_cases hc with hreserves | ⟨ordinal, hp⟩
    · have hmine := (hclass.reserved address t).2 hreserves
      have hother := (hclass.reserved address e.thread).2 hres
      rw [hmine] at hother
      exact absurd (Ownership.Class.reserved.inj hother) ht
    · have hfree := (reserved_unoccupied hclass hres).1
      rw [(hk.pending t address ordinal hp).1] at hfree
      cases hfree
  · obtain ⟨id, hid, haddress, hpresent, hcall⟩ := h.replaces ha he hreplace
    rcases h.placing_cases hc with hreserves | ⟨ordinal, hp⟩
    · have hfree := (reserved_unoccupied hclass hreserves).1
      rw [← haddress, hpresent.1] at hfree
      cases hfree
    · have hord := (hk.pending t address ordinal hp).2
      rw [← haddress, hpresent.2] at hord
      exact absurd hord (State.Kept.not_pending hn hp hid haddress)

theorem State.Kept.placed_step (hk : s.Kept) (hn : s.Noted) (h : s.Sound build) (hm : Move build s e s')
    (ha : Allowed s e) {t : T} {address : SlotAddress} {element : E}
    (hc : s'.control t = .header (.occupy address element)) : s'.value address = some element := by
  by_cases ht : t = e.thread
  · subst ht
    cases hm.headerPart address with
    | same hheader hframe =>
      have hbefore := (hframe _ rfl).1 hc
      rw [hm.value_of_header hbefore]
      exact hk.placed _ _ _ hbefore
    | goes haddress hcontrol hsame hevent hstep =>
      cases hsame.symm.trans hc
      rw [hm.value_of_header hcontrol]
      exact hk.placed _ _ _ hcontrol
    | leaves haddress hbefore hafter hstep => exact absurd hc (hafter _)
    | enters haddress hbefore hafter hwhy hstep =>
      cases hafter.symm.trans hc
      rcases hwhy with ⟨-, call, hcall, hframe⟩ | ⟨_, _, hframe, hplace⟩ | ⟨_, _, hframe, -⟩
      · cases call <;> cases hframe
      · cases hframe
        cases hm with
        | place hplace' hh =>
          cases hplace.symm.trans hplace'
          rw [State.setControl_value, State.setHeader_value, State.setValue_value, Function.update_self]
        | headerStep hother | expire hother => exact absurd hother (hbefore _)
        | moveFault hother hv =>
          rcases hother with hother | ⟨method, mayReuse, hother⟩
          · cases hplace.symm.trans hother
          · cases hplace.symm.trans hother
        | insert h' | enter h' | removeLocked h' | capacity h' | look h' | replace h' | callFault h' | reuse h'
        | draw h' | bucketStep h' | located h' | addedNext h' | addedLast h' | addFault h' | bucketFault h'
        | resume h' | headerFault h' | moveOut h' | moveOutLocked h' | push h' | ret h' | retFault h'
        | elsewhere h' => cases hplace.symm.trans h'
      · cases hframe
  · rw [hm.control_ne ht] at hc
    rw [hk.value_ne hn h hm ha ht hc]
    exact hk.placed t address element hc

theorem State.Kept.step (hk : s.Kept) (hn : s.Noted) (h : s.Sound build) (hm : Move build s e s')
    (ha : Allowed s e) : s'.Kept where
  moveOut _ _ := hk.moveOut_step hm ha
  removes _ _ _ := hk.removes_step hm ha
  pending t address ordinal hp := by
    by_cases ht : t = e.thread
    · subst ht
      exact hk.pending_self h hm ha hp
    · exact hk.pending_ne hn h hm ha ht hp
  placed _ _ _ := hk.placed_step hn h hm ha

end Step

omit [DecidableEq T] in
theorem State.Kept.init (storeId : UInt64) (generator : T → UInt32) :
    (State.init storeId generator : State T E).Kept where
  moveOut t id h := by cases h
  removes t frame id h := by cases h
  pending t address ordinal h := by
    obtain ⟨element, hc, -⟩ := h
    cases hc
  placed t address element h := by cases h

theorem kept_of_reachable [Fintype T] (h : ((machine build T E).restrict State.NoWrap).Reachable s) :
    s.Sound build ∧ s.Noted ∧ s.Kept := by
  refine h.invariant (P := fun s => s.Sound build ∧ s.Noted ∧ s.Kept) ?_ ?_
  · rintro _ ⟨storeId, generator, rfl⟩
    exact ⟨.init storeId generator, .init storeId generator, .init storeId generator⟩
  · rintro s e s' ⟨hs, hn, hk⟩ ⟨hwrap, ha, hstep⟩
    exact ⟨hs.step (.of_step hstep) ha hwrap, hn.step hs (.of_step hstep) ha,
      hk.step hn hs (.of_step hstep) ha⟩

/-! ## Calls that find nothing -/

section Misses

variable [Fintype T] {t : T} {id : Id} {result : Return E}

omit [DecidableEq T] [Fintype T] in
theorem assertNativeId_ok (hn : s.Noted) (hid : id ∈ s.issued) : s.assertNativeId build id = .ok () := by
  have heq : (s.storeId == id.storeId) = true := beq_iff_eq.2 (hn.storeId id hid).symm
  unfold State.assertNativeId
  rw [heq]
  exact debugAssert_true ..

/-- A call with the ID of an element that is gone. -/
theorem State.Sound.misses_start (h : s.Sound build) (hn : s.Noted) {call : Call E}
    (hm : Move build s (.call t call) s') (hid : id ∈ s.issued) (hgone : ¬s.Present id)
    (hmissed : call.missed = some (id, result)) : s'.Misses build t id result := by
  have hne : currentId (s.header id.slotAddress).word ≠ id.ordinal := fun heq =>
    hgone ((h.present_iff hid).2 heq)
  cases hm with
  | insert => cases hmissed
  | removeLocked => cases hmissed
  | capacity => cases hmissed
  | @enter _ _ frame header hc hframe hh =>
    right
    have hcontrol : header.control t = .ofChecked (Header.start build frame.call) := by
      cases Header.Move.of_step hh with
      | call hidle => exact Function.update_self ..
    have hentered : frame.address = id.slotAddress →
        (((s.setHeader frame.address header).setControl t (.header frame)).header id.slotAddress).control t =
          .ofChecked (Header.start build frame.call) := by
      intro haddress
      rw [State.setControl_header, State.setHeader_header, ← haddress, Function.update_self]
      exact hcontrol
    cases call with
    | read _ method =>
      cases hframe
      cases hmissed
      exact ⟨_, .lockRead, method.timeout, State.setControl_self .., rfl, rfl, Or.inl (hentered rfl)⟩
    | write _ method =>
      cases hframe
      cases hmissed
      exact ⟨_, .lockWrite, method.timeout, State.setControl_self .., rfl, rfl, Or.inl (hentered rfl)⟩
    | remove _ method =>
      cases hframe
      cases hmissed
      exact ⟨_, .remove, method.timeout, State.setControl_self .., rfl, rfl, Or.inl (hentered rfl)⟩
    | dropRead | dropWrite => cases hmissed
    | _ => cases hframe
  | look hc hlook =>
    left
    rw [State.setControl_self]
    cases hlook with
    | deref => cases hmissed
    | iterMut => cases hmissed
    | replaceMut =>
      cases hmissed
      rfl
    | @getMut _ element hv =>
      cases hmissed
      rcases getExclusive_cases build (s.slot id.slotAddress) id.ordinal with ⟨-, he⟩ | ⟨heq, -⟩ | ⟨heq, -⟩
      · rw [he] at hv
        cases hv
        rfl
      · exact absurd heq hne
      · exact absurd heq hne
  | replace hc hreplace =>
    cases hreplace with
    | replace => cases hmissed
    | replaceMut _ heq =>
      cases hmissed
      exact absurd heq hne
  | callFault hc hfault =>
    cases hfault with
    | foreign hother hfault =>
      exfalso
      have hsame : call.checkedId = some id := by
        cases call <;> cases hmissed <;> rfl
      cases hother.symm.trans hsame
      rw [assertNativeId_ok hn hid] at hfault
      cases hfault
    | access haddress hfault =>
      exfalso
      cases call with
      | getMut | replaceMut =>
        cases hmissed
        rw [Call.accesses, if_neg hne] at haddress
        cases haddress
      | deref | replace => cases hmissed
      | _ => cases haddress
    | iterMut => cases hmissed

/-- What the method makes of the answer that the ID is another one. -/
theorem resume_missed {frame : Frame E} {attempt : Header.Attempt} {timeout : Timeout} {storeId : UInt64}
    {control : Checked (Control E)} (hmissed : frame.missed = some (id, result))
    (hcall : frame.call = attempt.call id.ordinal timeout)
    (hres : frame.resume storeId (attempt.answer id.ordinal (.ok false)) = some control) :
    Control.ofChecked control = .returned result := by
  cases frame with
  | read _ method =>
    cases hmissed
    cases attempt <;> cases hcall
    cases hres
    cases method <;> rfl
  | write _ method =>
    cases hmissed
    cases attempt <;> cases hcall
    cases hres
    cases method <;> rfl
  | remove _ method =>
    cases hmissed
    cases attempt <;> cases hcall
    cases hres
    cases method <;> rfl
  | _ => cases hmissed

theorem missed_address {frame : Frame E} (hmissed : frame.missed = some (id, result)) :
    frame.address = id.slotAddress := by
  cases frame <;> cases hmissed <;> rfl

/-- A step of the thread inside such a call. -/
theorem State.Sound.misses_self (h : s.Sound build) (hm : Move build s e s') (hid : id ∈ s.issued)
    (hgone : ¬s.Present id) (hret : e ≠ .ret e.thread) (hmiss : s.Misses build e.thread id result) :
    s'.Misses build e.thread id result := by
  have hne : currentId (s.header id.slotAddress).word ≠ id.ordinal := fun heq =>
    hgone ((h.present_iff hid).2 heq)
  rcases hmiss with hreturned | ⟨frame, attempt, timeout, hc, hmissed, hcall, hcontrol⟩
  · exfalso
    cases hm with
    | ret => exact hret rfl
    | retFault => exact hret rfl
    | moveFault hother =>
      rcases hother with hother | ⟨method, mayReuse, hother⟩
      · cases hreturned.symm.trans hother
      · cases hreturned.symm.trans hother
    | insert h' | enter h' | removeLocked h' | capacity h' | look h' | replace h' | callFault h' | reuse h'
    | draw h' | place h' | bucketStep h' | located h' | addedNext h' | addedLast h' | addFault h' | bucketFault h'
    | headerStep h' | expire h' | resume h' | headerFault h' | moveOut h' | moveOutLocked h' | push h'
    | elsewhere h' => cases hreturned.symm.trans h'
  · have haddress := missed_address hmissed
    have hstart : Header.start build frame.call = .ok (.running (attempt.entry id.ordinal timeout)) := by
      rw [hcall]
      exact Header.start_attempt (h.ne_reserved hid) attempt timeout
    rw [hstart] at hcontrol
    cases hm with
    | @headerStep t spurious frame' header hc' hh =>
      cases hc.symm.trans hc'
      right
      refine ⟨frame, attempt, timeout, hc, hmissed, hcall, Or.inr ?_⟩
      rw [State.setHeader_header, ← haddress, Function.update_self]
      rw [haddress] at hh
      rcases hcontrol with hentry | hanswer
      · exact Header.miss_step hne hentry hh
      · obtain ⟨point, hpoint⟩ := header_running (Or.inl ⟨spurious, rfl⟩) hh
        cases hanswer.symm.trans hpoint
    | @expire t frame' header hc' hh =>
      exfalso
      cases hc.symm.trans hc'
      rw [haddress] at hh
      cases Header.Move.of_step hh with
      | expire hparked =>
        rcases hcontrol with hentry | hanswer
        · cases attempt <;> cases hentry.symm.trans hparked
        · cases hanswer.symm.trans hparked
    | @resume t spurious frame' result' header control hc' hr hh hres =>
      cases hc.symm.trans hc'
      left
      rw [haddress] at hr
      refine (State.setControl_self _ _).trans ?_
      rcases hcontrol with hentry | hanswer
      · cases hentry.symm.trans hr
      · cases hanswer.symm.trans hr
        exact resume_missed hmissed hcall hres
    | @headerFault t spurious frame' fault header hc' hr hh =>
      cases hc.symm.trans hc'
      rw [haddress] at hr
      rcases hcontrol with hentry | hanswer
      · cases hentry.symm.trans hr
      · cases hanswer.symm.trans hr
    | moveFault hother =>
      rcases hother with hother | ⟨method, mayReuse, hother⟩
      · cases hc.symm.trans hother
      · cases hc.symm.trans hother
    | insert h' | enter h' | removeLocked h' | capacity h' | look h' | replace h' | callFault h' | reuse h'
    | draw h' | place h' | bucketStep h' | located h' | addedNext h' | addedLast h' | addFault h' | bucketFault h'
    | moveOut h' | moveOutLocked h' | push h' | ret h' | retFault h' | elsewhere h' => cases hc.symm.trans h'

theorem State.Sound.misses_step (h : s.Sound build) (hm : Move build s e s') (ha : Allowed s e)
    (hid : id ∈ s.issued) (hgone : ¬s.Present id) (hret : e ≠ .ret t) (hmiss : s.Misses build t id result) :
    s'.Misses build t id result := by
  by_cases ht : t = e.thread
  · subst ht
    exact h.misses_self hm hid hgone hret hmiss
  · obtain ⟨class_, hclass⟩ := h.classified
    unfold State.Misses
    rw [hm.control_ne ht, ((h.linked.others hclass hm ha id.slotAddress).1 t ht).1]
    exact hmiss

end Misses

/-! ## Whole runs -/

section Run

variable [Fintype T] {n : ℕ} {state : ℕ → State T E} {event : ℕ → Event T E}

/-- An element that is gone does not come back. -/
theorem gone_stays (hrun : ((machine build T E).restrict State.NoWrap).Run n state event) {i j : ℕ} {id : Id}
    (hij : i ≤ j) (hj : j ≤ n) (hid : id ∈ (state i).issued) (hgone : ¬(state i).Present id) :
    id ∈ (state j).issued ∧ ¬(state j).Present id := by
  refine hrun.persist (P := fun s => id ∈ s.issued ∧ ¬s.Present id) ?_ hij hj ⟨hid, hgone⟩
  rintro s e s' hr ⟨hid, hgone⟩ ⟨hwrap, ha, hstep⟩
  have hs := sound_of_reachable hr
  have hm := Move.of_step hstep
  have hid' := hm.issued_subset hid
  refine ⟨hid', ?_⟩
  rw [hs.gone_iff hid] at hgone
  rw [(hs.step hm ha hwrap).gone_iff hid']
  exact Nat.lt_of_lt_of_le hgone (hs.ordinal_mono hm ha id.slotAddress)

theorem exhausted_stays (hrun : ((machine build T E).restrict State.NoWrap).Run n state event) {i j : ℕ}
    {address : SlotAddress} (hij : i ≤ j) (hj : j ≤ n)
    (hlast : currentId ((state i).header address).word = reservedId) :
    currentId ((state j).header address).word = reservedId := by
  refine hrun.persist (P := fun s => currentId (s.header address).word = reservedId) ?_ hij hj hlast
  rintro s e s' hr hlast ⟨-, ha, hstep⟩
  have hmono := (sound_of_reachable hr).ordinal_mono (.of_step hstep) ha address
  rw [hlast] at hmono
  have hlt := (currentId (s'.header address).word).toNat_lt
  rw [← UInt32.toNat_inj]
  rw [Header.reservedId_toNat] at hmono ⊢
  omega

omit [Fintype T] in
/-- A step that returns an ID. -/
theorem issues_inserted (hk : s.Kept) (hm : Move build s e s') {id : Id}
    (hnew : s'.issued = id :: s.issued) : ∃ element,
      s.control e.thread = .header (.occupy id.slotAddress element) ∧ s'.Present id ∧
        s'.value id.slotAddress = some element := by
  rcases hm.issues with hsame | ⟨address, element, ordinal, hc, hr, hissued⟩
  · rw [hsame] at hnew
    exact absurd hnew.symm (List.cons_ne_self _ _)
  · rw [hissued] at hnew
    cases hnew
    have hp := hk.pending _ address ordinal ⟨element, hc, hr⟩
    refine ⟨element, hc, ?_, ?_⟩
    · have hword : (s'.header address).word = (s.header address).word := by
        cases hm.headerPart address with
        | same hheader => rw [hheader]
        | enters _ hbefore => exact absurd hc (hbefore _)
        | leaves _ _ _ hstep =>
          rw [header_left hstep]
          rfl
        | goes haddress hcontrol hsame hevent hstep =>
          obtain ⟨point, hpoint⟩ := header_running hevent hstep
          cases hr.symm.trans hpoint
      show isOccupied (s'.header address).word = true ∧ currentId (s'.header address).word = ordinal
      rw [hword]
      exact hp
    · rw [hm.value_of_header hc]
      exact hk.placed _ _ _ hc

/-- An element is replaced under its own ID. -/
theorem value_replaced (h : s.Sound build) (hn : s.Noted) (hm : Move build s e s') (ha : Allowed s e) {id : Id}
    (hid : id ∈ s.issued) (hpresent : s.Present id)
    (hne : s'.value id.slotAddress ≠ s.value id.slotAddress) :
    ∃ t element, e = .call t (.replace id element) ∨ e = .call t (.replaceMut id element) := by
  rcases hm.writes id.slotAddress with hsame | ⟨element, hplace⟩ | ⟨call, element, result, he, hreplace⟩
  · exact absurd hsame hne
  · have hfree := (h.owned.places e.thread element id.slotAddress hplace).1
    rw [hpresent.1] at hfree
    cases hfree
  · obtain ⟨other, hother, haddress, hthere, hcall⟩ := h.replaces ha he hreplace
    have heq : other = id := by
      have hordinal : other.ordinal = id.ordinal := by
        rw [← hthere.2, haddress]
        exact hpresent.2
      have hstore : other.storeId = id.storeId := (hn.storeId other hother).trans (hn.storeId id hid).symm
      obtain ⟨ordinal, slotAddress, storeId⟩ := id
      obtain ⟨ordinal', slotAddress', storeId'⟩ := other
      cases hordinal
      cases hstore
      cases haddress
      rfl
    subst heq
    refine ⟨e.thread, element, ?_⟩
    rcases hcall with rfl | ⟨rfl, -⟩
    · exact Or.inl he
    · exact Or.inr he

omit [DecidableEq T] [Fintype T] in
theorem unique_of_noted (hn : s.Noted) : (s.issued.map fun id => (id.slotAddress, id.ordinal)).Nodup := by
  refine List.Nodup.map_on ?_ hn.nodup
  intro id hid other hother heq
  have hstore : id.storeId = other.storeId := (hn.storeId id hid).trans (hn.storeId other hother).symm
  obtain ⟨ordinal, slotAddress, storeId⟩ := id
  obtain ⟨ordinal', slotAddress', storeId'⟩ := other
  cases heq
  cases hstore
  rfl

end Run

/-- While no counter wraps around, every ID lives once. -/
theorem ids_live_once (build : Build) (T E : Type) [Fintype T] [DecidableEq T] (n : ℕ) (state : ℕ → State T E)
    (event : ℕ → Event T E) (hrun : ((machine build T E).restrict State.NoWrap).Run n state event) :
    Lifetimes build n state event where
  unique k hk := unique_of_noted (kept_of_reachable (hrun.reachable k hk)).2.1
  removed k hk t id hemp hpresent := by
    obtain ⟨class_, hclass⟩ := (sound_of_reachable (hrun.reachable k hk)).classified
    have hemptied := (hclass.emptied id.slotAddress t).2 ⟨id, hemp, rfl⟩
    rw [(hclass.occupied id.slotAddress).2 hpresent.1] at hemptied
    cases hemptied
  dead i j id hij hj hid hgone := (gone_stays hrun hij hj hid hgone).2
  misses i j k t call id result hij hjk hk hid hgone hcall hmissed hret := by
    induction k, hjk using Nat.le_induction with
    | base =>
      obtain ⟨hid', hgone'⟩ := gone_stays hrun hij (by omega) hid hgone
      obtain ⟨hs, hn, -⟩ := kept_of_reachable (hrun.reachable j (by omega))
      have hm := Move.of_step (hrun.step j (by omega)).2.2
      rw [hcall] at hm
      exact hs.misses_start hn hm hid' hgone' hmissed
    | succ k hjk ih =>
      obtain ⟨hid', hgone'⟩ := gone_stays hrun (by omega) (by omega) hid hgone (j := k)
      obtain ⟨-, ha, hstep⟩ := hrun.step k (by omega)
      refine (sound_of_reachable (hrun.reachable k (by omega))).misses_step (.of_step hstep) ha hid' hgone'
        (hret k (by omega) (by omega)) (ih (by omega) fun m hm hmk => hret m hm (by omega))
  exhausted i j address hij hj hlast := by
    have hlast' := exhausted_stays hrun hij hj hlast
    rw [Bool.eq_false_iff]
    intro hocc
    exact (sound_of_reachable (hrun.reachable j hj)).occupied_ne_reserved hocc hlast'
  ordinals k hk id hid := Header.next_toNat ((sound_of_reachable (hrun.reachable k hk)).ne_reserved hid)
  exclusive k hk id hid heq := by
    have hs := sound_of_reachable (hrun.reachable k hk)
    have hpresent := (hs.present_iff hid).2 heq
    exact ⟨hpresent, hs.filled.occupied id.slotAddress hpresent.1⟩
  inserted k hk id hnew := by
    obtain ⟨-, -, hkept⟩ := kept_of_reachable (hrun.reachable k (by omega))
    exact issues_inserted hkept (.of_step (hrun.step k hk).2.2) hnew
  replaced k hk id hid hpresent hne := by
    obtain ⟨hs, hn, -⟩ := kept_of_reachable (hrun.reachable k (by omega))
    obtain ⟨-, ha, hstep⟩ := hrun.step k hk
    exact value_replaced hs hn (.of_step hstep) ha hid hpresent hne

/-- An element is inserted and removed, and looked up under its ID. -/
def removeAndRead : List (Event (Fin 1) Bool) :=
  wholeCall 0 (.insert true) 13 ++ wholeCall 0 (.remove ⟨0, ⟨9, ⟨0, 0⟩⟩, 0⟩ .plain) 4 ++
    beginCall 0 (.read ⟨0, ⟨9, ⟨0, 0⟩⟩, 0⟩ .plain) 2

theorem ids_live_once_removed : Lifetimes .debug removeAndRead.length
    (Transition.System.trace (step .debug) (fun s e => s.NoWrap e ∧ Allowed s e) (.init 0 fun _ => 0) removeAndRead)
    (removeAndRead.getD · (.ret 0)) :=
  ids_live_once .debug (Fin 1) Bool _ _ _
    (run_of_replay_restrict .debug State.NoWrap 0 (fun _ => 0) removeAndRead (.ret 0) (by decide +kernel))

/-- Once a counter has wrapped around, an insert writes over an element whose ID is in use. -/
theorem id_gets_another_element : ∃ (n : ℕ) (state : ℕ → State (Fin 1) Bool) (event : ℕ → Event (Fin 1) Bool),
    (machine .debug (Fin 1) Bool).Run n state event ∧ ¬Lifetimes .debug n state event := by
  obtain ⟨s, address, hr, hc, hslot, hid⟩ := exists_overwriting true false
  have hstep : ∃ s', step .debug s (.act 0 false) = some s' ∧ s'.value address = some false := by
    have hheader : (s.setValue address false).header address = occupiedHeader := by
      rw [State.setValue_header]
      unfold State.header
      rw [hslot]
    rw [step_act]
    unfold State.act
    simp only [hc]
    unfold State.enterHeader
    simp only [Frame.address, Frame.call, hheader]
    refine ⟨_, rfl, ?_⟩
    rw [State.setControl_value, State.setHeader_value, State.setValue_value, Function.update_self]
  obtain ⟨s', hstep, hvalue⟩ := hstep
  have hne : Nonempty (Event (Fin 1) Bool) := ⟨.ret 0⟩
  obtain ⟨n, state, event, hrun, hlast⟩ := hr.exists_run
  have hact : (machine .debug (Fin 1) Bool).step s (.act 0 false) s' := ⟨trivial, hstep⟩
  obtain ⟨state', event', hrun', hbefore, hevent, hafter⟩ := hrun.extend hlast hact
  refine ⟨n + 1, state', event', hrun', fun hlife => ?_⟩
  have hreplaced := hlife.replaced n (Nat.lt_succ_self n) ⟨0, address, s.storeId⟩
  rw [hbefore, hafter, hevent] at hreplaced
  have hpresent : s.Present ⟨0, address, s.storeId⟩ := by
    have hword : (s.header address).word = Header.occupiedUnlockedBits 0 := by
      unfold State.header
      rw [hslot]
      rfl
    show isOccupied (s.header address).word = true ∧ currentId (s.header address).word = 0
    rw [hword]
    exact ⟨by decide, by decide⟩
  have hchanged : s'.value address ≠ s.value address := by
    rw [hvalue]
    unfold State.value
    rw [hslot]
    simp
  obtain ⟨t, element, he | he⟩ := hreplaced hid hpresent hchanged
  · cases he
  · cases he

end ReadWriteStore.Store

import ReadWriteStore.Store.Proofs.RefinementProofs

/-!
# The IDs of a store

Every ID that `insert` returns is new, and the header of its slot has issued its ordinal. Between the
two an `insert` holds the ordinal back: it is pending.
-/

namespace ReadWriteStore.Store

open Header (reservedId isOccupied currentId)

variable {T E : Type} [DecidableEq T] {build : Build} {s s' : State T E} {e : Event T E}

/-- Thread `t` is about to return an ID from `insert`. -/
def State.Pending (s : State T E) (t : T) (address : SlotAddress) (ordinal : UInt32) : Prop :=
  ∃ element, s.control t = .header (.occupy address element) ∧
    (s.header address).control t = .returned (.occupy ordinal)

/-- The IDs that `insert` has returned are those that the headers have issued. -/
structure State.Noted (s : State T E) : Prop where
  storeId : ∀ id ∈ s.issued, id.storeId = s.storeId
  nodup : s.issued.Nodup
  noted : ∀ address ordinal, ordinal ∈ (s.header address).issued →
    ⟨ordinal, address, s.storeId⟩ ∈ s.issued ∨ ∃ t, s.Pending t address ordinal
  fresh : ∀ t address ordinal, s.Pending t address ordinal → ⟨ordinal, address, s.storeId⟩ ∉ s.issued
  unique : ∀ t u address ordinal, s.Pending t address ordinal → s.Pending u address ordinal → t = u

/-- A thread inside a call of a header has not returned an ID. -/
theorem Move.issued_eq (hm : Move build s e s') {frame : Frame E}
    (hc' : s'.control e.thread = .header frame) : s'.issued = s.issued := by
  cases hm with
  | resume hc hr hh hres =>
    exact absurd ((State.setControl_self _ _).symm.trans hc')
      ((Control.finishing_ne (Frame.resume_finishing hres)).1 frame)
  | @bucketFault t _ frame fault bucket _ _ _ =>
    obtain ⟨unwound, heq⟩ := (s.setBucket frame.bucket bucket).unwindBucket_eq t fault frame
    rw [heq]
    rfl
  | _ => rfl

/-- An `insert` whose ID is pending returns it. -/
theorem State.Pending.leaves {t : T} {address : SlotAddress} {ordinal : UInt32}
    (h : s.Pending t address ordinal) (hm : Move build s e s') (ht : e.thread = t)
    (hafter : ∀ frame, s'.control t ≠ .header frame) :
    s'.issued = ⟨ordinal, address, s.storeId⟩ :: s.issued := by
  obtain ⟨element, hc', hr'⟩ := h
  subst ht
  cases hm with
  | @resume t spurious frame result header control hc hr hh hres =>
    cases hc'.symm.trans hc
    cases hr'.symm.trans hr
    rfl
  | headerFault hc hr hh =>
    cases hc'.symm.trans hc
    cases hr'.symm.trans hr
  | headerStep hc | expire hc => exact absurd hc (hafter _)
  | moveFault hc hv =>
    rcases hc with hc | ⟨method, mayReuse, hc⟩
    · cases hc'.symm.trans hc
    · cases hc'.symm.trans hc
  | insert h | enter h | removeLocked h | capacity h | look h | replace h | callFault h | reuse h | draw h
  | place h | bucketStep h | located h | addedNext h | addedLast h | addFault h | bucketFault h | moveOut h
  | moveOutLocked h | push h | ret h | retFault h | elsewhere h => cases hc'.symm.trans h

theorem State.Pending.of_ne (hm : Move build s e s') (h : s.Sound build) (ha : Allowed s e) {t : T}
    {address : SlotAddress} {ordinal : UInt32} (ht : t ≠ e.thread) :
    s'.Pending t address ordinal ↔ s.Pending t address ordinal := by
  obtain ⟨class_, hclass⟩ := h.classified
  unfold State.Pending
  rw [hm.control_ne ht, ((h.linked.others hclass hm ha address).1 t ht).1]

omit [DecidableEq T] in
/-- The ordinal of a slot that is about to be occupied has not been issued. -/
theorem current_not_mem_issued [Fintype T] {header : Header.State T} (h : header.Inv)
    (hocc : isOccupied header.word = false) : (Header.view header.word).id ∉ header.issued := by
  intro hmem
  have hoccupied := (Header.isOccupied_iff _).2 (h.ledger.occupied.2 hmem)
  rw [hocc] at hoccupied
  cases hoccupied

section Step

variable [Fintype T]

/-- A thread whose ID becomes pending has just occupied its slot. -/
theorem State.Sound.pending_cases (h : s.Sound build) (hm : Move build s e s') (ha : Allowed s e)
    {address : SlotAddress} {ordinal : UInt32} (hp : s'.Pending e.thread address ordinal) :
    s'.issued = s.issued ∧ (s.Pending e.thread address ordinal ∨
      ordinal ∉ (s.header address).issued ∧ (s'.header address).issued = ordinal :: (s.header address).issued) := by
  obtain ⟨class_, hclass⟩ := h.classified
  obtain ⟨element, hc', hr'⟩ := hp
  refine ⟨hm.issued_eq hc', ?_⟩
  cases hm.headerPart address with
  | same hheader hframe =>
    rw [hheader] at hr'
    exact Or.inl ⟨element, (hframe _ rfl).1 hc', hr'⟩
  | enters haddress hbefore hafter hwhy hstep =>
    cases hafter.symm.trans hc'
    have hdone := (h.linked.entered ha hwhy hstep).2.1
    rw [hr'] at hdone
    cases hdone
  | leaves haddress hbefore hafter hstep => exact absurd hc' (hafter _)
  | @goes frame event haddress hcontrol hsame hevent hstep =>
    cases hsame.symm.trans hc'
    right
    have hallowed := h.linked.goes_allowed hclass hcontrol hevent
    have hserves := h.linked.serves _ _ hcontrol
    cases (h.linked.served hclass hcontrol hevent hstep).2 with
    | stays hdone hview hlocks hissued =>
      rw [hr'] at hdone
      obtain ⟨point, hpoint⟩ := header_running hevent hstep
      rcases serves_occupy hserves with hbefore | ⟨other, hbefore⟩
      · rw [hbefore] at hdone
        cases hdone
      · cases hbefore.symm.trans hpoint
    | takes hbefore hafter happly hlocks hissued hoccupy =>
      cases hr'.symm.trans (hoccupy rfl)
      refine ⟨current_not_mem_issued (Header.reachable_inv (h.linked.header address)) ?_, hissued⟩
      rcases Header.RwLock.apply_cases happly with ⟨-, hmode, -⟩ | ⟨id, hop, -⟩ | ⟨hop, -⟩
      · exact (Header.view_mode_iff _).1 hmode
      · rcases hop with hop | hop <;> cases hop
      · exact absurd rfl hop

/-- A header issues an ordinal to the thread that occupies it. -/
theorem State.Sound.issued_cases (h : s.Sound build) (hm : Move build s e s') (ha : Allowed s e)
    {address : SlotAddress} {ordinal : UInt32} (hmem : ordinal ∈ (s'.header address).issued) :
    ordinal ∈ (s.header address).issued ∨ s'.Pending e.thread address ordinal := by
  obtain ⟨class_, hclass⟩ := h.classified
  cases hm.headerPart address with
  | same hheader hframe =>
    rw [hheader] at hmem
    exact Or.inl hmem
  | enters haddress hbefore hafter hwhy hstep =>
    subst haddress
    rw [(h.linked.entered ha hwhy hstep).2.2.2.2] at hmem
    exact Or.inl hmem
  | leaves haddress hbefore hafter hstep =>
    rw [header_left hstep] at hmem
    exact Or.inl hmem
  | @goes frame event haddress hcontrol hsame hevent hstep =>
    subst haddress
    cases (h.linked.served hclass hcontrol hevent hstep).2 with
    | stays hdone hview hlocks hissued =>
      rw [hissued] at hmem
      exact Or.inl hmem
    | takes hbefore hafter happly hlocks hissued hoccupy =>
      rw [hissued] at hmem
      cases frame with
      | occupy address element =>
        rcases List.mem_cons.1 hmem with rfl | hmem
        · exact Or.inr ⟨element, hsame, hoccupy rfl⟩
        · exact Or.inl hmem
      | _ => exact Or.inl hmem

omit [Fintype T] in
/-- A pending ID stays pending until it is returned. -/
theorem State.Pending.stays {t : T} {address : SlotAddress} {ordinal : UInt32}
    (hp : s.Pending t address ordinal) (hm : Move build s e s') (ht : e.thread = t) :
    s'.Pending t address ordinal ∨ s'.issued = ⟨ordinal, address, s.storeId⟩ :: s.issued := by
  obtain ⟨element, hc, hr⟩ := hp
  subst ht
  cases hm.headerPart address with
  | same hheader hframe =>
    refine Or.inl ⟨element, (hframe _ rfl).2 hc, ?_⟩
    rw [hheader]
    exact hr
  | enters haddress hbefore hafter hwhy hstep => exact absurd hc (hbefore _)
  | goes haddress hcontrol hsame hevent hstep =>
    obtain ⟨point, hpoint⟩ := header_running hevent hstep
    cases hr.symm.trans hpoint
  | leaves haddress hbefore hafter hstep =>
    exact Or.inr (State.Pending.leaves ⟨element, hc, hr⟩ hm rfl hafter)

theorem State.Noted.step (hn : s.Noted) (h : s.Sound build) (hm : Move build s e s') (ha : Allowed s e) :
    s'.Noted := by
  have hother : ∀ {t address ordinal}, t ≠ e.thread →
      (s'.Pending t address ordinal ↔ s.Pending t address ordinal) := fun ht =>
    State.Pending.of_ne hm h ha ht
  have hpending : ∀ {t address ordinal}, s.Pending t address ordinal →
      ordinal ∈ (s.header address).issued := by
    rintro t address ordinal ⟨element, hc, hr⟩
    exact h.linked.returned t address element ordinal hc hr
  -- an ID is returned by the thread for which it was pending
  have hissues : s'.issued = s.issued ∨ ∃ address ordinal, s.Pending e.thread address ordinal ∧
      s'.issued = ⟨ordinal, address, s.storeId⟩ :: s.issued := by
    rcases hm.issues with hsame | ⟨address, element, ordinal, hc, hr, hnew⟩
    · exact Or.inl hsame
    · exact Or.inr ⟨address, ordinal, ⟨element, hc, hr⟩, hnew⟩
  have hsubset : ∀ id ∈ s.issued, id ∈ s'.issued := by
    intro id hid
    rcases hissues with hsame | ⟨address, ordinal, -, hnew⟩
    · rw [hsame]
      exact hid
    · rw [hnew]
      exact List.mem_cons_of_mem _ hid
  have hfresh : ∀ {address ordinal}, s'.Pending e.thread address ordinal →
      ∀ u, s.Pending u address ordinal → u = e.thread := by
    intro address ordinal hp u hu
    rcases (h.pending_cases hm ha hp).2 with hbefore | ⟨hnew, -⟩
    · exact hn.unique u e.thread address ordinal hu hbefore
    · exact absurd (hpending hu) hnew
  constructor
  · intro id hid
    rw [hm.storeId_eq]
    rcases hissues with hsame | ⟨address, ordinal, -, hnew⟩
    · rw [hsame] at hid
      exact hn.storeId id hid
    · rw [hnew] at hid
      rcases List.mem_cons.1 hid with rfl | hid
      · rfl
      · exact hn.storeId id hid
  · rcases hissues with hsame | ⟨address, ordinal, hp, hnew⟩
    · rw [hsame]
      exact hn.nodup
    · rw [hnew]
      exact List.nodup_cons.2 ⟨hn.fresh _ _ _ hp, hn.nodup⟩
  · intro address ordinal hmem
    rw [hm.storeId_eq]
    rcases h.issued_cases hm ha hmem with hbefore | hp
    · rcases hn.noted address ordinal hbefore with hid | ⟨t, hp⟩
      · exact Or.inl (hsubset _ hid)
      · by_cases ht : t = e.thread
        · rcases hp.stays hm ht.symm with hstays | hnew
          · exact Or.inr ⟨t, hstays⟩
          · left
            rw [hnew]
            exact List.mem_cons_self
        · exact Or.inr ⟨t, (hother ht).2 hp⟩
    · exact Or.inr ⟨e.thread, hp⟩
  · intro t address ordinal hp hid
    rw [hm.storeId_eq] at hid
    by_cases ht : t = e.thread
    · subst ht
      obtain ⟨hsame, hcases⟩ := h.pending_cases hm ha hp
      rw [hsame] at hid
      rcases hcases with hbefore | ⟨hnew, -⟩
      · exact hn.fresh _ _ _ hbefore hid
      · exact hnew (h.linked.issued _ hid)
    · rw [hother ht] at hp
      rcases hissues with hsame | ⟨address', ordinal', hp', hnew⟩
      · rw [hsame] at hid
        exact hn.fresh t address ordinal hp hid
      · rw [hnew] at hid
        rcases List.mem_cons.1 hid with he | hid
        · cases he
          exact ht (hn.unique t e.thread _ _ hp hp')
        · exact hn.fresh t address ordinal hp hid
  · intro t u address ordinal ht hu
    by_cases htm : t = e.thread
    · by_cases hum : u = e.thread
      · rw [htm, hum]
      · subst htm
        exact (hfresh ht u ((hother hum).1 hu)).symm
    · by_cases hum : u = e.thread
      · subst hum
        exact hfresh hu t ((hother htm).1 ht)
      · exact hn.unique t u address ordinal ((hother htm).1 ht) ((hother hum).1 hu)

end Step

omit [DecidableEq T] in
theorem State.Noted.init (storeId : UInt64) (generator : T → UInt32) :
    (State.init storeId generator : State T E).Noted where
  storeId id h := by cases h
  nodup := List.nodup_nil
  noted address ordinal h := by cases h
  fresh t address ordinal h := by
    obtain ⟨element, hc, -⟩ := h
    cases hc
  unique t u address ordinal h := by
    obtain ⟨element, hc, -⟩ := h
    cases hc

theorem noted_of_reachable [Fintype T] (h : ((machine build T E).restrict State.NoWrap).Reachable s) :
    s.Noted := by
  have hboth : s.Sound build ∧ s.Noted := by
    refine h.invariant (P := fun s => s.Sound build ∧ s.Noted) ?_ ?_
    · rintro _ ⟨storeId, generator, rfl⟩
      exact ⟨.init storeId generator, .init storeId generator⟩
    · rintro s e s' ⟨hs, hn⟩ ⟨hwrap, ha, hstep⟩
      exact ⟨hs.step (.of_step hstep) ha hwrap, hn.step hs (.of_step hstep) ha⟩
  exact hboth.2

end ReadWriteStore.Store

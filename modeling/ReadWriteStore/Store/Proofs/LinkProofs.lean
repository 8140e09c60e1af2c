import ReadWriteStore.Header.Proofs.ServeProofs
import ReadWriteStore.Bucket.Proofs.GrowthProofs
import ReadWriteStore.Store.Proofs.OwnershipProofs
import ReadWriteStore.Store.Proofs.PartsProofs

/-!
# The store uses its buckets and headers as they are meant to be used

A thread is inside a call of a bucket or a header exactly where the store says so, and every call meets
the contract of the header: so each header is a run of its own machine, and each bucket keeps its
invariant as long as its counter does not wrap around.
-/

namespace ReadWriteStore.Store

variable {T E : Type} [DecidableEq T] {build : Build} {s s' : State T E} {e : Event T E}

structure State.Linked (build : Build) (s : State T E) : Prop where
  header : ∀ address, (Header.machine build T).Reachable (s.header address)
  serves : ∀ t frame, s.control t = .header frame →
    ((s.header frame.address).control t).Serves frame.call
  idle : ∀ t address, (∀ frame, s.control t = .header frame → frame.address ≠ address) →
    (s.header address).control t = .idle
  bucket : ∀ bucket, (s.bucket bucket).Good build
  calm : ∀ t bucket, (∀ frame, s.control t = .bucket frame → frame.bucket ≠ bucket) →
    (s.bucket bucket).control t = .idle
  issued : ∀ id ∈ s.issued, id.ordinal ∈ (s.header id.slotAddress).issued
  returned : ∀ t address element ordinal, s.control t = .header (.occupy address element) →
    (s.header address).control t = .returned (.occupy ordinal) → ordinal ∈ (s.header address).issued
  locked : ∀ t id, s.control t = .moveOutLocked id →
    ⟨.write, id.ordinal⟩ ∈ (s.header id.slotAddress).locks t

theorem State.Linked.init (storeId : UInt64) (generator : T → UInt32) :
    (State.init storeId generator : State T E).Linked build where
  header _ := .init rfl
  serves t frame h := by cases h
  idle _ _ _ := rfl
  bucket _ := .init
  calm _ _ _ := rfl
  issued id h := by cases h
  returned t address element ordinal h := by cases h
  locked t id h := by cases h

/-! ## One header -/

/-- A thread about to set the notification bit serves a call of `occupy`. -/
theorem serves_occupyFetchOr {c : Header.Call}
    (h : (Header.Control.running .occupyFetchOr).Serves c) : c = .occupy := by
  rcases h with h | ⟨attempt, id, timeout, won, -, h⟩
  · cases c with
    | occupy => rfl
    | _ => exact absurd h not_false
  · exact absurd h not_false

omit [DecidableEq T] in
theorem State.reserves_of_occupy {t : T} {address : SlotAddress} {element : E}
    (hc : s.control t = .header (.occupy address element))
    (hdone : ((s.header address).control t).done = false) : s.reserves t = some address := by
  unfold State.reserves
  rw [hc]
  show (if ((s.header address).control t).done then none else some address) = _
  rw [hdone]
  rfl

/-- A thread that enters a header meets its contract. -/
theorem State.Linked.enters_allowed (h : s.Linked build) (ha : Allowed s e) {frame : Frame E}
    (hwhy : EntersHeader s e frame) :
    Header.Allowed (s.header frame.address) (.call e.thread frame.call) := by
  rcases hwhy with ⟨-, call, hcall, hframe⟩ | ⟨_, _, rfl, -⟩ | ⟨id, element, rfl, hc, -⟩
  · rw [hcall] at ha
    cases call with
    | remove id method => cases hframe; exact h.issued id ha
    | read id method => cases hframe; exact h.issued id ha
    | write id method => cases hframe; exact h.issued id ha
    | dropRead id => cases hframe; exact ha.2
    | dropWrite id => cases hframe; exact ha.2
    | _ => cases hframe
  · trivial
  · exact h.locked _ id hc

/-- The slot that an `insert` is about to occupy is free, and has an ordinal left. -/
theorem State.Linked.goes_allowed (h : s.Linked build) {class_ : SlotAddress → Ownership.Class T}
    (hclass : s.ownership.Classified class_) {t : T} {frame : Frame E} {event : Header.Event T}
    (hcontrol : s.control t = .header frame)
    (hevent : (∃ spurious, event = .act t spurious) ∨ event = .expire t) :
    Header.Allowed (s.header frame.address) event := by
  rcases hevent with ⟨spurious, rfl⟩ | rfl
  · intro hpoint
    have hserves := h.serves t frame hcontrol
    rw [hpoint] at hserves
    have hcall := serves_occupyFetchOr hserves
    cases frame with
    | occupy address element =>
      have hdone : ((s.header address).control t).done = false := by
        rw [show (s.header address).control t = .running .occupyFetchOr from hpoint]
        rfl
      have hreserves := State.reserves_of_occupy hcontrol hdone
      have hres := (hclass.reserved address t).2 hreserves
      refine ⟨?_, hclass.reusable address (Or.inr (Or.inl ⟨_, hres⟩))⟩
      show Header.isOccupied (s.header address).word = false
      rw [Bool.eq_false_iff]
      intro hocc
      have hoccupied := (hclass.occupied address).2 hocc
      rw [hres] at hoccupied
      cases hoccupied
    | _ => cases hcall
  · trivial

/-- A step of the store is a step of the header that its protocol allows, or none. -/
theorem State.Linked.headerStep (h : s.Linked build) {class_ : SlotAddress → Ownership.Class T}
    (hclass : s.ownership.Classified class_) (ha : Allowed s e) {address : SlotAddress}
    (hpart : HeaderPart build s s' e address) :
    s'.header address = s.header address ∨ ∃ event : Header.Event T, event.thread = e.thread ∧
      Header.Allowed (s.header address) event ∧
        Header.step build (s.header address) event = some (s'.header address) := by
  cases hpart with
  | same hheader hframe => exact Or.inl hheader
  | @enters frame haddress hbefore hafter hwhy hstep =>
    subst haddress
    exact Or.inr ⟨_, rfl, h.enters_allowed ha hwhy, hstep⟩
  | @goes frame event haddress hcontrol hsame hevent hstep =>
    subst haddress
    refine Or.inr ⟨event, ?_, h.goes_allowed hclass hcontrol hevent, hstep⟩
    rcases hevent with ⟨spurious, rfl⟩ | rfl
    · rfl
    · rfl
  | leaves haddress hbefore hafter hstep => exact Or.inr ⟨.ret e.thread, rfl, trivial, hstep⟩

/-! ## Preservation -/

/-- Where a thread that serves a call of `occupy` can be. -/
theorem serves_occupy {control : Header.Control} (h : control.Serves .occupy) :
    control = .running .occupyFetchOr ∨ ∃ ordinal, control = .returned (.occupy ordinal) := by
  rcases h with h | ⟨attempt, id, timeout, won, hcall, -⟩
  · cases control with
    | running point =>
      cases point with
      | occupyFetchOr => exact Or.inl rfl
      | _ => exact absurd h not_false
    | returned result =>
      obtain ⟨ordinal, rfl⟩ := h
      exact Or.inr ⟨ordinal, rfl⟩
    | _ => exact absurd h not_false
  · cases attempt <;> cases hcall

section Step

variable [Fintype T] {class_ : SlotAddress → Ownership.Class T}

/-- A thread inside a call of a header goes on with it. -/
theorem State.Linked.served (h : s.Linked build) (hclass : s.ownership.Classified class_) {t : T}
    {frame : Frame E} {event : Header.Event T} {header : Header.State T}
    (hcontrol : s.control t = .header frame)
    (hevent : (∃ spurious, event = .act t spurious) ∨ event = .expire t)
    (hstep : Header.step build (s.header frame.address) event = some header) :
    (header.control t).Serves frame.call ∧ Header.Served (s.header frame.address) header t frame.call := by
  have hinv := Header.reachable_inv (h.header frame.address)
  have hallowed := h.goes_allowed hclass hcontrol hevent
  have hserves := h.serves t frame hcontrol
  rcases hevent with ⟨spurious, rfl⟩ | rfl
  · exact Header.move_serves hinv hallowed (.of_step hstep) (by intro he; cases he) hserves
  · exact Header.move_serves hinv hallowed (.of_step hstep) (by intro he; cases he) hserves

/-- A thread that has entered a header serves its call. -/
theorem State.Linked.entered (h : s.Linked build) (ha : Allowed s e) {frame : Frame E}
    {header : Header.State T} (hwhy : EntersHeader s e frame)
    (hstep : Header.step build (s.header frame.address) (.call e.thread frame.call) = some header) :
    (header.control e.thread).Serves frame.call ∧ (header.control e.thread).done = false ∧
      header.word = (s.header frame.address).word ∧ header.locks = (s.header frame.address).locks ∧
        header.issued = (s.header frame.address).issued := by
  have hinv := Header.reachable_inv (h.header frame.address)
  have hok : (Header.Control.ofChecked (Header.start build frame.call)).Ok
      (s.header frame.address).issued ((s.header frame.address).locks e.thread) :=
    Header.start_ok hinv (h.enters_allowed ha hwhy)
  obtain ⟨hserves, hdone⟩ := Header.start_serves hok
  cases Header.Move.of_step hstep with
  | call hidle =>
    rw [Header.State.setControl_control, Function.update_self]
    exact ⟨hserves, hdone, rfl, rfl, rfl⟩

omit [Fintype T] in
/-- Only a thread inside a call of a header moves on in it. -/
theorem header_running {t : T} {header header' : Header.State T} {event : Header.Event T}
    (hevent : (∃ spurious, event = .act t spurious) ∨ event = .expire t)
    (hstep : Header.step build header event = some header') :
    ∃ point, header.control t = .running point := by
  rcases hevent with ⟨spurious, rfl⟩ | rfl
  · cases Header.Move.of_step hstep with
    | exec h hop => exact ⟨_, h⟩
    | park h hfree => exact ⟨_, h⟩
    | enqueue h => exact ⟨_, h⟩
    | leave h => exact ⟨_, h⟩
    | wake h hq => exact ⟨_, h⟩
    | unpark h hfree => exact ⟨_, h⟩
  · cases Header.Move.of_step hstep with
    | expire h hq hfree => exact ⟨_, h⟩

omit [Fintype T] in
/-- A thread that comes back from a header leaves everything but its control as it is. -/
theorem header_left {t : T} {header header' : Header.State T}
    (hstep : Header.step build header (.ret t) = some header') :
    header' = header.setControl t .idle := by
  cases Header.Move.of_step hstep with
  | ret hdone => rfl

omit [Fintype T] in
/-- A step of a header leaves the other threads alone, and no ID is taken back. -/
theorem State.Linked.others (h : s.Linked build) (hclass : s.ownership.Classified class_)
    (hm : Move build s e s') (ha : Allowed s e) (address : SlotAddress) :
    (∀ u ≠ e.thread, (s'.header address).control u = (s.header address).control u ∧
      (s'.header address).locks u = (s.header address).locks u) ∧
        (s.header address).issued ⊆ (s'.header address).issued := by
  rcases h.headerStep hclass ha (hm.headerPart address) with hsame | ⟨event, hthread, -, hstep⟩
  · rw [hsame]
    exact ⟨fun _ _ => ⟨rfl, rfl⟩, fun _ hid => hid⟩
  · have hmove := Header.Move.of_step hstep
    rw [← hthread]
    exact ⟨fun u hu => hmove.frame hu, hmove.issued_subset⟩

theorem State.Linked.serves_step (h : s.Linked build) (hclass : s.ownership.Classified class_)
    (hm : Move build s e s') (ha : Allowed s e) (t : T) (frame : Frame E)
    (hc : s'.control t = .header frame) : ((s'.header frame.address).control t).Serves frame.call := by
  by_cases ht : t = e.thread
  · subst ht
    cases hm.headerPart frame.address with
    | same hheader hframe =>
      rw [hheader]
      exact h.serves _ frame ((hframe frame rfl).1 hc)
    | @enters frame' haddress hbefore hafter hwhy hstep =>
      cases hafter.symm.trans hc
      exact (h.entered ha hwhy hstep).1
    | @goes frame' event haddress hcontrol hsame hevent hstep =>
      cases hsame.symm.trans hc
      exact (h.served hclass hcontrol hevent hstep).1
    | leaves haddress hbefore hafter hstep => exact absurd hc (hafter frame)
  · rw [((h.others hclass hm ha frame.address).1 t ht).1]
    rw [hm.control_ne ht] at hc
    exact h.serves t frame hc

omit [Fintype T] in
theorem State.Linked.idle_step (h : s.Linked build) (hclass : s.ownership.Classified class_)
    (hm : Move build s e s') (ha : Allowed s e) (t : T) (address : SlotAddress)
    (hout : ∀ frame, s'.control t = .header frame → frame.address ≠ address) :
    (s'.header address).control t = .idle := by
  by_cases ht : t = e.thread
  · subst ht
    cases hm.headerPart address with
    | same hheader hframe =>
      rw [hheader]
      refine h.idle _ address fun frame hc haddress => ?_
      exact hout frame ((hframe frame haddress).2 hc) haddress
    | enters haddress hbefore hafter hwhy hstep => exact absurd haddress (hout _ hafter)
    | goes haddress hcontrol hsame hevent hstep => exact absurd haddress (hout _ hsame)
    | leaves haddress hbefore hafter hstep =>
      rw [header_left hstep, Header.State.setControl_control, Function.update_self]
  · rw [((h.others hclass hm ha address).1 t ht).1]
    rw [hm.control_ne ht] at hout
    exact h.idle t address hout

omit [Fintype T] in
/-- A step of the store is a step of the bucket that does not wrap its counter around, or none. -/
theorem BucketPart.bucketStep {bucket : Fin bucketCount} (hpart : BucketPart build s s' e bucket)
    (hwrap : s.NoWrap e) :
    s'.bucket bucket = s.bucket bucket ∨ ∃ event : Bucket.Event T, event.thread = e.thread ∧
      ¬(s.bucket bucket).Wraps event.thread ∧
        Bucket.step build (s.bucket bucket) event = some (s'.bucket bucket) := by
  cases hpart with
  | same hbucket hframe => exact Or.inl hbucket
  | enters hb hbefore hafter hstep =>
    exact Or.inr ⟨_, rfl, (Bucket.Move.of_step hstep).not_wraps nofun, hstep⟩
  | goes hb hcontrol hsame hstep =>
    subst hb
    refine Or.inr ⟨_, rfl, fun hw => hwrap ?_, hstep⟩
    unfold State.Wraps
    rw [hcontrol]
    exact hw
  | leaves hb hbefore hafter hstep =>
    exact Or.inr ⟨_, rfl, (Bucket.Move.of_step hstep).not_wraps nofun, hstep⟩

omit [Fintype T] in
theorem State.Linked.calm_step (h : s.Linked build) (hm : Move build s e s') (hwrap : s.NoWrap e)
    (t : T) (bucket : Fin bucketCount)
    (hout : ∀ frame, s'.control t = .bucket frame → frame.bucket ≠ bucket) :
    (s'.bucket bucket).control t = .idle := by
  by_cases ht : t = e.thread
  · subst ht
    cases hm.bucketPart bucket with
    | same hbucket hframe =>
      rw [hbucket]
      refine h.calm _ bucket fun frame hc hb => ?_
      exact hout frame ((hframe frame hb).2 hc) hb
    | enters hb hbefore hafter hstep => exact absurd hb (hout _ hafter)
    | goes hb hcontrol hsame hstep => exact absurd hb (hout _ hsame)
    | leaves hb hbefore hafter hstep => exact (Bucket.Move.of_step hstep).ret_control rfl
  · rw [hm.control_ne ht] at hout
    rcases (hm.bucketPart bucket).bucketStep hwrap with hsame | ⟨event, hthread, -, hstep⟩
    · rw [hsame]
      exact h.calm t bucket hout
    · rw [(Bucket.Move.of_step hstep).control_ne (by rw [hthread]; exact ht)]
      exact h.calm t bucket hout

theorem State.Linked.returned_step (h : s.Linked build) (hclass : s.ownership.Classified class_)
    (hm : Move build s e s') (ha : Allowed s e) (t : T) (address : SlotAddress) (element : E)
    (ordinal : UInt32) (hc : s'.control t = .header (.occupy address element))
    (hr : (s'.header address).control t = .returned (.occupy ordinal)) :
    ordinal ∈ (s'.header address).issued := by
  by_cases ht : t = e.thread
  · subst ht
    cases hm.headerPart address with
    | same hheader hframe =>
      rw [hheader] at hr ⊢
      exact h.returned _ address element ordinal ((hframe _ rfl).1 hc) hr
    | @enters frame haddress hbefore hafter hwhy hstep =>
      cases hafter.symm.trans hc
      have hdone := (h.entered ha hwhy hstep).2.1
      rw [hr] at hdone
      cases hdone
    | @goes frame event haddress hcontrol hsame hevent hstep =>
      cases hsame.symm.trans hc
      have hserved := (h.served hclass hcontrol hevent hstep).2
      cases hserved with
      | stays hdone hview hlocks hissued =>
        -- a call that has returned takes no other step
        rw [hr] at hdone
        rcases serves_occupy (h.serves _ _ hcontrol) with hbefore | ⟨other, hbefore⟩
        · rw [hbefore] at hdone
          cases hdone
        · have hpoint := header_running hevent hstep
          obtain ⟨point, hpoint⟩ := hpoint
          cases hbefore.symm.trans hpoint
      | takes hbefore hafter happly hlocks hissued hoccupy =>
        have hnew := hoccupy rfl
        rw [hr] at hnew
        cases hnew
        rw [hissued]
        exact List.mem_cons_self
    | leaves haddress hbefore hafter hstep => exact absurd hc (hafter _)
  · obtain ⟨hothers, hissued⟩ := h.others hclass hm ha address
    rw [(hothers t ht).1] at hr
    rw [hm.control_ne ht] at hc
    exact hissued (h.returned t address element ordinal hc hr)

/-- The steps of a store preserve the links to its buckets and headers. -/
theorem State.Linked.step (h : s.Linked build) (hclass : s.ownership.Classified class_)
    (hm : Move build s e s') (ha : Allowed s e) (hwrap : s.NoWrap e) : s'.Linked build where
  header address := by
    rcases h.headerStep hclass ha (hm.headerPart address) with hsame | ⟨event, -, hallowed, hstep⟩
    · rw [hsame]
      exact h.header address
    · exact .step (h.header address) ⟨hallowed, hstep⟩
  serves := h.serves_step hclass hm ha
  idle := h.idle_step hclass hm ha
  bucket bucket := by
    rcases (hm.bucketPart bucket).bucketStep hwrap with hsame | ⟨event, -, hnowrap, hstep⟩
    · rw [hsame]
      exact h.bucket bucket
    · exact (h.bucket bucket).move hnowrap (.of_step hstep)
  calm := h.calm_step hm hwrap
  issued id hid := by
    rcases hm.issues with hsame | ⟨address, element, ordinal, hc, hr, hnew⟩
    · rw [hsame] at hid
      exact (h.others hclass hm ha id.slotAddress).2 (h.issued id hid)
    · rw [hnew] at hid
      rcases List.mem_cons.1 hid with rfl | hid
      · exact (h.others hclass hm ha address).2 (h.returned _ address element ordinal hc hr)
      · exact (h.others hclass hm ha id.slotAddress).2 (h.issued id hid)
  returned := h.returned_step hclass hm ha
  locked t id hc := by
    by_cases ht : t = e.thread
    · subst ht
      by_cases hbefore : s.control e.thread = .moveOutLocked id
      · -- the thread stays where it is only while another one moves
        exact absurd hc (hm.moveOutLocked_ne hbefore)
      · obtain ⟨he, hheader⟩ := hm.of_moveOutLocked hc hbefore
        rw [hheader]
        rw [he] at ha
        exact ha.2
    · rw [((h.others hclass hm ha id.slotAddress).1 t ht).2]
      rw [hm.control_ne ht] at hc
      exact h.locked t id hc

end Step

end ReadWriteStore.Store

import ReadWriteStore.Header.Proofs.OccupancyProofs
import ReadWriteStore.Store.Proofs.LinkProofs

/-!
# The store refines the model of ownership

Every step of a store whose counters do not wrap around is a step of the abstract model, or changes
nothing that it sees. So at every moment each slot is in exactly one state, and its value is there
whenever somebody reads it.
-/

namespace ReadWriteStore.Store

open Header (reservedId isOccupied currentId)

variable {T E : Type} [DecidableEq T] {build : Build} {s s' : State T E} {e : Event T E}

/-! ## What a call of a header returns -/

theorem serves_remove_returned {id : UInt32} {timeout : Timeout} {result : Header.Return}
    (h : (Header.Control.returned result).Serves (.remove id timeout)) :
    result = .remove (.ok (.matched (id + 1 != reservedId))) ∨ result = .remove (.ok .didntMatch) ∨
      result = .remove (.error .timedOut) := by
  rcases h with h | ⟨attempt, id', timeout', won, hcall, h⟩
  · exact absurd h not_false
  · cases attempt with
    | remove =>
      cases hcall
      rcases h with ⟨-, rfl⟩ | ⟨-, -, rfl⟩ | ⟨-, -, -, rfl⟩
      · exact Or.inl rfl
      · exact Or.inr (Or.inl rfl)
      · exact Or.inr (Or.inr rfl)
    | _ => cases hcall

theorem serves_removeLocked_returned {id : UInt32} {result : Header.Return}
    (h : (Header.Control.returned result).Serves (.removeLocked id)) :
    result = .removeLocked (id + 1 != reservedId) := by
  rcases h with h | ⟨attempt, id', timeout', won, hcall, -⟩
  · exact h
  · cases attempt <;> cases hcall

/-- Only an attempt can fail. -/
theorem serves_faulted {c : Header.Call} {fault : Fault} (h : (Header.Control.faulted fault).Serves c) :
    c ≠ .occupy ∧ ∀ id, c ≠ .removeLocked id := by
  rcases h with h | ⟨attempt, id, timeout, won, rfl, -⟩
  · cases c <;> exact absurd h not_false
  · cases attempt <;> exact ⟨nofun, fun _ => nofun⟩

/-! ## The invariant -/

/-- What a thread knows about the slot that it is emptying. -/
structure State.Flagged (s : State T E) : Prop where
  moveOut : ∀ t id method mayReuse, s.control t = .moveOut id method mayReuse →
    mayReuse = (id.ordinal + 1 != reservedId)
  push : ∀ t id result, s.control t = .push id result → id.ordinal + 1 ≠ reservedId

/-- A slot that somebody reads has been written. -/
structure State.Filled (s : State T E) : Prop where
  occupied : ∀ address, isOccupied (s.header address).word = true → (s.value address).isSome = true
  emptied : ∀ t id, s.empties t = some id → (s.value id.slotAddress).isSome = true
  placed : ∀ t address element, s.control t = .header (.occupy address element) →
    (s.value address).isSome = true

/-- A store whose counters have not wrapped around. -/
structure State.Sound (build : Build) (s : State T E) : Prop where
  linked : s.Linked build
  flagged : s.Flagged
  filled : s.Filled
  classified : ∃ class_, s.ownership.Classified class_

/-! ## The roles of the threads -/

/-- A step changes the roles of its own thread only. -/
theorem State.Sound.roles_ne (h : s.Sound build) (hm : Move build s e s') (ha : Allowed s e)
    (hwrap : s.NoWrap e) {u : T} (hu : u ≠ e.thread) :
    s'.reserves u = s.reserves u ∧ s'.empties u = s.empties u := by
  obtain ⟨class_, hclass⟩ := h.classified
  have hcontrol := hm.control_ne hu
  have hheader : ∀ address, (s'.header address).control u = (s.header address).control u := fun address =>
    ((h.linked.others hclass hm ha address).1 u hu).1
  have hbucket : ∀ bucket, (s'.bucket bucket).control u = (s.bucket bucket).control u := by
    intro bucket
    rcases (hm.bucketPart bucket).bucketStep hwrap with hsame | ⟨event, hthread, -, hstep⟩
    · rw [hsame]
    · exact (Bucket.Move.of_step hstep).control_ne (by rw [hthread]; exact hu)
  unfold State.reserves State.empties
  rw [hcontrol]
  simp only [hheader, hbucket]
  exact ⟨trivial, trivial⟩

theorem State.Sound.roles_update (h : s.Sound build) (hm : Move build s e s') (ha : Allowed s e)
    (hwrap : s.NoWrap e) :
    s'.reserves = Function.update s.reserves e.thread (s'.reserves e.thread) ∧
      s'.empties = Function.update s.empties e.thread (s'.empties e.thread) := by
  constructor
  · funext u
    by_cases hu : u = e.thread
    · rw [hu, Function.update_self]
    · rw [Function.update_of_ne hu, (h.roles_ne hm ha hwrap hu).1]
  · funext u
    by_cases hu : u = e.thread
    · rw [hu, Function.update_self]
    · rw [Function.update_of_ne hu, (h.roles_ne hm ha hwrap hu).2]

/-- The slot that a call of a header fills. -/
def Frame.reserving : Frame E → Option SlotAddress
  | .occupy address _ => some address
  | _ => none

/-- The ID whose slot a call of a header empties. -/
def Frame.emptying : Frame E → Option Id
  | .remove id _ | .removeLocked id _ => some id
  | _ => none

omit [DecidableEq T] in
theorem State.roles_header {t : T} {frame : Frame E} (hc : s.control t = .header frame) :
    s.reserves t = (if ((s.header frame.address).control t).done then none else frame.reserving) ∧
      s.empties t = if ((s.header frame.address).control t).done then frame.emptying else none := by
  unfold State.reserves State.empties
  rw [hc]
  cases frame with
  | occupy => exact ⟨rfl, (ite_self _).symm⟩
  | remove | removeLocked => exact ⟨(ite_self _).symm, rfl⟩
  | _ => exact ⟨(ite_self _).symm, (ite_self _).symm⟩

omit [DecidableEq T] in
theorem State.roles_bucket {t : T} {frame : BucketFrame E} (hc : s.control t = .bucket frame) :
    s.reserves t = ((s.bucket frame.bucket).control t).location.map (fun location =>
      ⟨frame.bucket, location⟩) ∧ s.empties t = none := by
  unfold State.reserves State.empties
  rw [hc]
  exact ⟨rfl, rfl⟩

omit [DecidableEq T] in
/-- A thread whose call of a bucket carries no slot. -/
theorem State.roles_unlocated {t : T} {frame : BucketFrame E} (hc : s.control t = .bucket frame)
    (hnone : ((s.bucket frame.bucket).control t).location = none) :
    s.reserves t = none ∧ s.empties t = none := by
  obtain ⟨hres, hemp⟩ := State.roles_bucket hc
  refine ⟨?_, hemp⟩
  rw [hres, hnone]
  rfl

/-- A thread that has just entered a bucket has no slot yet. -/
theorem State.roles_entered {t : T} {frame : BucketFrame E} {bucket : Bucket.State T}
    (hc : s.control t = .bucket frame)
    (hstep : Bucket.step build bucket (.call t frame.call) = some (s.bucket frame.bucket)) :
    s.reserves t = none ∧ s.empties t = none := by
  refine State.roles_unlocated hc ?_
  generalize s.bucket frame.bucket = after at hstep
  cases Bucket.Move.of_step hstep with
  | call hidle =>
    rw [Bucket.State.setControl_self]
    cases frame <;> rfl

omit [DecidableEq T] in
theorem State.roles_place {t : T} {element : E} {address : SlotAddress}
    (hc : s.control t = .place element address) : s.reserves t = some address ∧ s.empties t = none := by
  unfold State.reserves State.empties
  rw [hc]
  exact ⟨rfl, rfl⟩

omit [DecidableEq T] in
theorem State.roles_moveOut {t : T} {id : Id} {method : Method} {mayReuse : Bool}
    (hc : s.control t = .moveOut id method mayReuse) : s.reserves t = none ∧ s.empties t = some id := by
  unfold State.reserves State.empties
  rw [hc]
  exact ⟨rfl, rfl⟩

omit [DecidableEq T] in
theorem State.roles_push {t : T} {id : Id} {result : Return E} (hc : s.control t = .push id result) :
    s.reserves t = none ∧ s.empties t = some id := by
  unfold State.reserves State.empties
  rw [hc]
  exact ⟨rfl, rfl⟩

/-- Where a thread has no part in a slot. -/
def Control.uninvolved : Control E → Bool
  | .idle | .pop _ | .moveOutLocked _ | .returned _ | .faulted _ => true
  | _ => false

omit [DecidableEq T] in
theorem State.uninvolved {t : T} {control : Control E} (hc : s.control t = control)
    (h : control.uninvolved = true) : (s.control t).uninvolved = true := by
  rw [hc]
  exact h

omit [DecidableEq T] in
theorem State.roles_uninvolved {t : T} (h : (s.control t).uninvolved = true) :
    s.reserves t = none ∧ s.empties t = none := by
  unfold State.reserves State.empties
  cases hc : s.control t with
  | idle | pop | moveOutLocked | returned | faulted => exact ⟨rfl, rfl⟩
  | _ =>
    rw [hc] at h
    cases h

/-! ## The parts that a step does not change -/

/-- Without a step inside a bucket nothing is handed out. -/
theorem Move.handedOut_eq (hm : Move build s e s')
    (hne : ∀ frame, s.control e.thread = .bucket frame → s'.control e.thread ≠ .bucket frame)
    (bucket : Fin bucketCount) : (s'.bucket bucket).inner = (s.bucket bucket).inner := by
  cases hm.bucketPart bucket with
  | same hbucket hframe => rw [hbucket]
  | enters hb hbefore hafter hstep =>
    generalize s'.bucket bucket = after at hstep
    cases Bucket.Move.of_step hstep with
    | call hidle => rfl
  | goes hb hcontrol hsame hstep => exact absurd hsame (hne _ hcontrol)
  | leaves hb hbefore hafter hstep =>
    generalize s'.bucket bucket = after at hstep
    cases Bucket.Move.of_step hstep with
    | ret hdone => rfl

/-- Without a step inside a header no word changes. -/
theorem Move.word_eq (hm : Move build s e s')
    (hne : ∀ frame, s.control e.thread = .header frame → s'.control e.thread ≠ .header frame)
    (address : SlotAddress) : (s'.header address).word = (s.header address).word := by
  cases hm.headerPart address with
  | same hheader hframe => rw [hheader]
  | enters haddress hbefore hafter hwhy hstep =>
    generalize s'.header address = after at hstep
    cases Header.Move.of_step hstep with
    | call hidle => rfl
  | goes haddress hcontrol hsame hevent hstep => exact absurd hsame (hne _ hcontrol)
  | leaves haddress hbefore hafter hstep =>
    rw [header_left hstep]
    rfl

/-! ## The steps -/

/-- A step that the model does not see. -/
theorem State.Sound.refines_quiet (h : s.Sound build) (hm : Move build s e s') (ha : Allowed s e)
    (hwrap : s.NoWrap e)
    (hb : ∀ frame, s.control e.thread = .bucket frame → s'.control e.thread ≠ .bucket frame)
    (hh : ∀ frame, s.control e.thread = .header frame → s'.control e.thread ≠ .header frame)
    (hq : s'.erasures = s.erasures) (hres : s'.reserves e.thread = s.reserves e.thread)
    (hemp : s'.empties e.thread = s.empties e.thread) : s'.ownership = s.ownership := by
  obtain ⟨hreserves, hempties⟩ := h.roles_update hm ha hwrap
  rw [hres, Function.update_eq_self] at hreserves
  rw [hemp, Function.update_eq_self] at hempties
  unfold State.ownership
  simp only [hm.handedOut_eq hb, hm.word_eq hh, hq, hreserves, hempties]

/-- A thread that has no part in a slot before and after a step. -/
theorem State.Sound.refines_uninvolved (h : s.Sound build) (hm : Move build s e s') (ha : Allowed s e)
    (hwrap : s.NoWrap e) (hbefore : (s.control e.thread).uninvolved = true)
    (hafter : (s'.control e.thread).uninvolved = true) (hq : s'.erasures = s.erasures) :
    s'.ownership = s.ownership := by
  refine h.refines_quiet hm ha hwrap ?_ ?_ hq ?_ ?_
  · intro frame hc
    rw [hc] at hbefore
    cases hbefore
  · intro frame hc
    rw [hc] at hbefore
    cases hbefore
  · rw [(State.roles_uninvolved hbefore).1, (State.roles_uninvolved hafter).1]
  · rw [(State.roles_uninvolved hbefore).2, (State.roles_uninvolved hafter).2]

/-- A step inside a bucket hands out a slot, or is not seen. -/
theorem State.Sound.refines_bucketStep (h : s.Sound build) (hm : Move build s e s') (ha : Allowed s e)
    (hwrap : s.NoWrap e) {frame : BucketFrame E} (hc : s.control e.thread = .bucket frame)
    (hc' : s'.control e.thread = .bucket frame) (hq : s'.erasures = s.erasures)
    (hb : Bucket.step build (s.bucket frame.bucket) (.act e.thread) = some (s'.bucket frame.bucket)) :
    s'.ownership = s.ownership ∨ s.ownership.Step e.thread s'.ownership := by
  obtain ⟨hreserves, hempties⟩ := h.roles_update hm ha hwrap
  have hgood := h.linked.bucket frame.bucket
  have hnowrap : ¬(s.bucket frame.bucket).Wraps e.thread := by
    intro hw
    refine hwrap ?_
    unfold State.Wraps
    rw [hc]
    exact hw
  have hword := hm.word_eq fun other hother => by cases hc.symm.trans hother
  have hother : ∀ bucket, bucket ≠ frame.bucket → s'.bucket bucket = s.bucket bucket := by
    intro bucket hne
    cases hm.bucketPart bucket with
    | same hbucket hframe => exact hbucket
    | enters hb hbefore hafter hstep =>
      cases hafter.symm.trans hc'
      exact absurd hb.symm hne
    | goes hb hcontrol hsame hstep =>
      cases hcontrol.symm.trans hc
      exact absurd hb.symm hne
    | leaves hb hbefore hafter hstep =>
      cases hbefore.symm.trans hc
      exact absurd hb.symm hne
  have hemp : s'.empties e.thread = s.empties e.thread := by
    rw [(State.roles_bucket hc).2, (State.roles_bucket hc').2]
  rw [hemp, Function.update_eq_self] at hempties
  obtain ⟨-, hhandout⟩ := hgood.inv.act hgood.guarded hnowrap (.of_step hb)
  cases hhandout with
  | same hout hloc =>
    left
    have hres : s'.reserves e.thread = s.reserves e.thread := by
      rw [(State.roles_bucket hc).1, (State.roles_bucket hc').1, hloc]
    rw [hres, Function.update_eq_self] at hreserves
    have hissued : ∀ address : SlotAddress, (s'.bucket address.bucket).inner.HandedOut address.location ↔
        (s.bucket address.bucket).inner.HandedOut address.location := by
      intro address
      by_cases hbucket : address.bucket = frame.bucket
      · rw [hbucket]
        exact hout _
      · rw [hother _ hbucket]
    unfold State.ownership
    simp only [hissued, hword, hq, hreserves, hempties]
  | @fresh location hnew hout hnone hsome =>
    right
    have hres : s'.reserves e.thread = some ⟨frame.bucket, location⟩ := by
      rw [(State.roles_bucket hc').1, hsome]
      rfl
    have hbefore : s.reserves e.thread = none := by
      rw [(State.roles_bucket hc).1, hnone]
      rfl
    have heq : s'.ownership = { s.ownership with
        issued := fun other => s.ownership.issued other ∨ other = ⟨frame.bucket, location⟩
        reserves := Function.update s.ownership.reserves e.thread (some ⟨frame.bucket, location⟩) } := by
      have hissued : ∀ address : SlotAddress, (s'.bucket address.bucket).inner.HandedOut address.location ↔
          (s.bucket address.bucket).inner.HandedOut address.location ∨ address = ⟨frame.bucket, location⟩ := by
        rintro ⟨bucket, location'⟩
        by_cases hbucket : bucket = frame.bucket
        · subst hbucket
          rw [SlotAddress.mk.injEq]
          refine (hout _).trans (or_congr Iff.rfl ?_)
          simp
        · rw [hother _ hbucket, SlotAddress.mk.injEq]
          simp [hbucket]
      unfold State.ownership
      simp only [hissued, hword, hq, hreserves, hempties, hres]
    rw [heq]
    exact .draw hnew hbefore

/-- A call of a header that brings or takes no element. -/
theorem Frame.not_moves {frame : Frame E} (h : frame.call.moves = false) :
    frame.reserving = none ∧ frame.emptying = none := by
  cases frame with
  | occupy | remove | removeLocked => cases h
  | _ => exact ⟨rfl, rfl⟩

/-- A step inside a header brings or takes an element, or is not seen. -/
theorem State.Sound.refines_headerStep [Fintype T] (h : s.Sound build) (hm : Move build s e s')
    (ha : Allowed s e) (hwrap : s.NoWrap e) {frame : Frame E} {event : Header.Event T}
    (hc : s.control e.thread = .header frame) (hc' : s'.control e.thread = .header frame)
    (hq : s'.erasures = s.erasures)
    (hevent : (∃ spurious, event = .act e.thread spurious) ∨ event = .expire e.thread)
    (hh : Header.step build (s.header frame.address) event = some (s'.header frame.address)) :
    s'.ownership = s.ownership ∨ s.ownership.Step e.thread s'.ownership := by
  obtain ⟨hreserves, hempties⟩ := h.roles_update hm ha hwrap
  obtain ⟨hresBefore, hempBefore⟩ := State.roles_header hc
  obtain ⟨hresAfter, hempAfter⟩ := State.roles_header hc'
  obtain ⟨class_, hclass⟩ := h.classified
  have hinner := hm.handedOut_eq fun other hother => by cases hc.symm.trans hother
  have hother : ∀ address, address ≠ frame.address → s'.header address = s.header address := by
    intro address hne
    cases hm.headerPart address with
    | same hheader hframe => exact hheader
    | enters haddress hbefore hafter hwhy hstep => exact absurd hc (hbefore _)
    | goes haddress hcontrol hsame hevent hstep =>
      cases hcontrol.symm.trans hc
      exact absurd haddress.symm hne
    | leaves haddress hbefore hafter hstep => exact absurd hc' (hafter _)
  have hupdate : ∀ {α : Type} (f : UInt64 → α) {x : α}, f (s'.header frame.address).word = x →
      (fun address => f (s'.header address).word) =
        Function.update (fun address => f (s.header address).word) frame.address x := by
    intro α f x hx
    funext address
    by_cases haddress : address = frame.address
    · rw [haddress, Function.update_self, hx]
    · rw [Function.update_of_ne haddress, hother _ haddress]
  cases (h.linked.served hclass hc hevent hh).2.occupancy with
  | same hocc hid hdone =>
    left
    have hroles : s'.reserves e.thread = s.reserves e.thread ∧ s'.empties e.thread = s.empties e.thread := by
      rw [hresBefore, hempBefore, hresAfter, hempAfter]
      cases hmoves : frame.call.moves with
      | false =>
        rw [(Frame.not_moves hmoves).1, (Frame.not_moves hmoves).2]
        exact ⟨by rw [ite_self, ite_self], by rw [ite_self, ite_self]⟩
      | true =>
        rw [hdone hmoves]
        exact ⟨rfl, rfl⟩
    rw [hroles.1, Function.update_eq_self] at hreserves
    rw [hroles.2, Function.update_eq_self] at hempties
    have hocc' := hupdate isOccupied hocc
    have hid' := hupdate currentId hid
    rw [Function.update_eq_self] at hocc' hid'
    unfold State.ownership
    simp only [hinner, hq, hreserves, hempties, hocc', hid']
  | occupied hcall hbefore hafter hocc hid =>
    right
    cases frame with
    | occupy address element =>
      rw [hafter, if_pos rfl] at hresAfter hempAfter
      rw [hbefore, if_neg nofun] at hresBefore hempBefore
      have hempSame : s'.empties e.thread = s.empties e.thread := hempAfter.trans hempBefore.symm
      rw [hresAfter] at hreserves
      rw [hempSame, Function.update_eq_self] at hempties
      have hocc' := hupdate isOccupied hocc
      have hid' := hupdate currentId hid
      rw [Function.update_eq_self] at hid'
      have heq : s'.ownership = { s.ownership with
          occupied := Function.update s.ownership.occupied address true
          reserves := Function.update s.ownership.reserves e.thread none } := by
        unfold State.ownership
        simp only [hinner, hq, hreserves, hempties, hocc', hid']
        rfl
      rw [heq]
      exact .occupy hresBefore
    | _ => cases hcall
  | @emptied id hcall hbefore hafter hocc hocc' hid hid' =>
    right
    obtain ⟨id', hframe, haddress, hordinal⟩ : ∃ id' : Id, frame.emptying = some id' ∧
        frame.address = id'.slotAddress ∧ id'.ordinal = id := by
      rcases hcall with ⟨timeout, hcall⟩ | hcall
      · cases frame with
        | remove id' method =>
          cases hcall
          exact ⟨id', rfl, rfl, rfl⟩
        | _ => cases hcall
      · cases frame with
        | removeLocked id' element =>
          cases hcall
          exact ⟨id', rfl, rfl, rfl⟩
        | _ => cases hcall
    subst hordinal
    rw [hafter, if_pos rfl] at hresAfter hempAfter
    rw [hbefore, if_neg nofun] at hempBefore
    have hresNone : s.reserves e.thread = none := by
      rw [hresBefore]
      cases frame with
      | occupy => cases hframe
      | _ => exact ite_self _
    rw [hresAfter, ← hresNone, Function.update_eq_self] at hreserves
    rw [hempAfter, hframe] at hempties
    have hoccs := hupdate isOccupied hocc'
    have hids := hupdate currentId hid'
    rw [haddress] at hoccs hids hocc hid
    have heq : s'.ownership = { s.ownership with
        occupied := Function.update s.ownership.occupied id'.slotAddress false
        ordinal := Function.update s.ownership.ordinal id'.slotAddress (id'.ordinal + 1)
        empties := Function.update s.ownership.empties e.thread (some id') } := by
      unfold State.ownership
      simp only [hinner, hq, hreserves, hempties, hoccs, hids]
    rw [heq]
    exact .vacate hocc hid hempBefore

/-- What a method does after its call of a header has returned. -/
inductive Frame.Resumed (frame : Frame E) (result : Header.Return) (control : Control E) : Prop
  | ends (hend : control.uninvolved = true)
      (hres : (if (Header.Control.returned result).done then none else frame.reserving) = none)
      (hemp : (if (Header.Control.returned result).done then frame.emptying else none) = none)
  | moves {id : Id} {method : Method} (hdone : (Header.Control.returned result).done = true)
      (hemp : frame.emptying = some id)
      (hcontrol : control = .moveOut id method (id.ordinal + 1 != reservedId))
  | moved {id : Id} {element : E} (hdone : (Header.Control.returned result).done = true)
      (hemp : frame.emptying = some id)
      (hcontrol : control = afterMove id (id.ordinal + 1 != reservedId) (.removeLocked element))

theorem Frame.resumed {storeId : UInt64} {frame : Frame E} {result : Header.Return}
    {control : Checked (Control E)} (hserves : (Header.Control.returned result).Serves frame.call)
    (h : frame.resume storeId result = some control) :
    frame.Resumed result (Control.ofChecked control) := by
  have hfinish : ∀ {α : Type} (method : Method) (answer : BlockResult α) (f : BlockResult α → Return E),
      (Control.ofChecked (do return .returned (f (← method.finish answer)))).uninvolved = true := by
    intro α method answer f
    cases method with
    | plain => cases answer <;> rfl
    | withTimeout timeout => rfl
  cases frame with
  | occupy address element =>
    cases result with
    | occupy ordinal => cases h; exact .ends rfl rfl rfl
    | _ => cases h
  | remove id method =>
    rcases serves_remove_returned hserves with rfl | rfl | rfl
    · cases h
      exact .moves rfl rfl rfl
    · cases h
      exact .ends (hfinish method (.ok none) .remove) rfl rfl
    · cases h
      exact .ends (hfinish method (.error .timedOut) .remove) rfl rfl
  | removeLocked id element =>
    obtain rfl := serves_removeLocked_returned hserves
    cases h
    exact .moved rfl rfl rfl
  | read id method =>
    cases result with
    | lockRead result =>
      cases h
      exact .ends (hfinish method (lockResult id result) .read) (ite_self _) (ite_self _)
    | _ => cases h
  | write id method =>
    cases result with
    | lockWrite result =>
      cases h
      exact .ends (hfinish method (lockResult id result) .write) (ite_self _) (ite_self _)
    | _ => cases h
  | dropRead id =>
    cases result with
    | unlockRead => cases h; exact .ends rfl rfl rfl
    | _ => cases h
  | dropWrite id =>
    cases result with
    | unlockWrite => cases h; exact .ends rfl rfl rfl
    | _ => cases h

/-- A removal that has moved its element out queues the slot later, or retires it now. -/
theorem State.Sound.refines_afterMove (h : s.Sound build) (hm : Move build s e s') (ha : Allowed s e)
    (hwrap : s.NoWrap e) {id : Id} {result : Return E}
    (hb : ∀ frame, s.control e.thread = .bucket frame → s'.control e.thread ≠ .bucket frame)
    (hh : ∀ frame, s.control e.thread = .header frame → s'.control e.thread ≠ .header frame)
    (hq : s'.erasures = s.erasures) (hres : s.reserves e.thread = none)
    (hemp : s.empties e.thread = some id)
    (hc' : s'.control e.thread = afterMove id (id.ordinal + 1 != reservedId) result) :
    s'.ownership = s.ownership ∨ s.ownership.Step e.thread s'.ownership := by
  by_cases hreuse : id.ordinal + 1 = reservedId
  · right
    have hc : s'.control e.thread = .returned result := by
      rw [hc', hreuse]
      rfl
    obtain ⟨hres', hemp'⟩ := State.roles_uninvolved (s := s') (t := e.thread) (by rw [hc]; rfl)
    obtain ⟨hreserves, hempties⟩ := h.roles_update hm ha hwrap
    rw [hres', ← hres, Function.update_eq_self] at hreserves
    rw [hemp'] at hempties
    have heq : s'.ownership = { s.ownership with
        empties := Function.update s.ownership.empties e.thread none } := by
      unfold State.ownership
      simp only [hm.handedOut_eq hb, hm.word_eq hh, hq, hreserves, hempties]
    rw [heq]
    exact .retire hemp hreuse
  · left
    have hc : s'.control e.thread = .push id result := by
      have hreuse' : (id.ordinal + 1 != reservedId) = true := by simpa using hreuse
      rw [hc', hreuse']
      rfl
    obtain ⟨hres', hemp'⟩ := State.roles_push hc
    exact h.refines_quiet hm ha hwrap hb hh hq (hres'.trans hres.symm) (hemp'.trans hemp.symm)

omit [DecidableEq T] in
/-- The element that a thread moves out is there. -/
theorem State.Filled.moveOut (h : s.Filled) {t : T} {id : Id} {method : Method} {mayReuse : Bool}
    (hc : s.control t = .moveOut id method mayReuse) {fault : Fault} :
    assumeInit build (s.value id.slotAddress) ≠ .error fault := by
  have hsome := h.emptied t id (State.roles_moveOut hc).2
  intro he
  cases hv : s.value id.slotAddress with
  | none =>
    rw [hv] at hsome
    cases hsome
  | some element =>
    rw [hv] at he
    cases he

/-- A thread that enters a header keeps its part in a slot. -/
theorem State.Sound.refines_enters [Fintype T] (h : s.Sound build) (hm : Move build s e s')
    (ha : Allowed s e) (hwrap : s.NoWrap e) {frame : Frame E} (hwhy : EntersHeader s e frame)
    (hc' : s'.control e.thread = .header frame) (hq : s'.erasures = s.erasures)
    (hh : Header.step build (s.header frame.address) (.call e.thread frame.call)
      = some (s'.header frame.address)) : s'.ownership = s.ownership := by
  obtain ⟨hres', hemp'⟩ := State.roles_header hc'
  have hdone := (h.linked.entered ha hwhy hh).2.1
  rw [hdone, if_neg nofun] at hres' hemp'
  rcases hwhy with ⟨hc, call, hcall, hframe⟩ | ⟨address, element, rfl, hc⟩ | ⟨id, element, rfl, hc, -⟩
  · obtain ⟨hres, hemp⟩ := State.roles_uninvolved (State.uninvolved hc rfl)
    have hnone : frame.reserving = none := by
      cases call <;> cases hframe <;> rfl
    refine h.refines_quiet hm ha hwrap ?_ ?_ hq ?_ (hemp'.trans hemp.symm)
    · exact fun other hother => by cases hc.symm.trans hother
    · exact fun other hother => by cases hc.symm.trans hother
    · rw [hres', hres, hnone]
  · obtain ⟨hres, hemp⟩ := State.roles_place hc
    refine h.refines_quiet hm ha hwrap ?_ ?_ hq (hres'.trans hres.symm) (hemp'.trans hemp.symm)
    · exact fun other hother => by cases hc.symm.trans hother
    · exact fun other hother => by cases hc.symm.trans hother
  · obtain ⟨hres, hemp⟩ := State.roles_uninvolved (State.uninvolved hc rfl)
    refine h.refines_quiet hm ha hwrap ?_ ?_ hq (hres'.trans hres.symm) (hemp'.trans hemp.symm)
    · exact fun other hother => by cases hc.symm.trans hother
    · exact fun other hother => by cases hc.symm.trans hother

/-- Every step of the store is a step of the model, or is not seen. -/
theorem State.Sound.refines [Fintype T] (h : s.Sound build) (hm : Move build s e s') (ha : Allowed s e)
    (hwrap : s.NoWrap e) :
    s'.ownership = s.ownership ∨ s.ownership.Step e.thread s'.ownership := by
  have hquiet : ∀ {control control'}, s.control e.thread = control → s'.control e.thread = control' →
      (∀ frame, control = .bucket frame → control' ≠ .bucket frame) →
      (∀ frame, control = .header frame → control' ≠ .header frame) → s'.erasures = s.erasures →
      s'.reserves e.thread = s.reserves e.thread ∧ s'.empties e.thread = s.empties e.thread →
      s'.ownership = s.ownership ∨ s.ownership.Step e.thread s'.ownership := by
    rintro _ _ rfl rfl hb hh hq ⟨hres, hemp⟩
    exact Or.inl (h.refines_quiet hm ha hwrap hb hh hq hres hemp)
  have huninvolved : ∀ {control control'}, s.control e.thread = control → s'.control e.thread = control' →
      control.uninvolved = true → control'.uninvolved = true → s'.erasures = s.erasures →
      s'.ownership = s.ownership ∨ s.ownership.Step e.thread s'.ownership := by
    rintro _ _ rfl rfl hbefore hafter hq
    exact Or.inl (h.refines_uninvolved hm ha hwrap hbefore hafter hq)
  have hmove := hm
  cases hm with
  | insert hc | removeLocked hc | look hc | replace hc | callFault hc | ret hc | retFault hc =>
    exact huninvolved hc (State.setControl_self ..) rfl rfl rfl
  | elsewhere hc => exact huninvolved hc hc rfl rfl rfl
  | @enter t call frame header hc hframe hh =>
    refine Or.inl (h.refines_enters hmove ha hwrap (Or.inl ⟨hc, call, rfl, hframe⟩)
      (State.setControl_self ..) rfl ?_)
    rw [State.setControl_header, State.setHeader_header, Function.update_self]
    exact hh
  | @capacity t bucket hc hb =>
    obtain ⟨hres, hemp⟩ := State.roles_uninvolved (State.uninvolved hc rfl)
    have hc' := State.setControl_self (s := s.setBucket 0 bucket) t (.bucket (.capacity 0 0 0))
    obtain ⟨hres', hemp'⟩ := State.roles_entered hc' hb
    exact hquiet hc hc' nofun nofun rfl ⟨hres'.trans hres.symm, hemp'.trans hemp.symm⟩
  | @reuse t spurious element address rest hc hq =>
    right
    obtain ⟨hres, hemp⟩ := State.roles_uninvolved (State.uninvolved hc rfl)
    have hc' := State.setControl_self (s := { s with erasures := rest }) t (.place element address)
    obtain ⟨hres', hemp'⟩ := State.roles_place hc'
    obtain ⟨hreserves, hempties⟩ := h.roles_update hmove ha hwrap
    have hempSame := hemp'.trans hemp.symm
    dsimp only [Event.thread] at hreserves hempties
    rw [hres'] at hreserves
    rw [hempSame, Function.update_eq_self] at hempties
    have heq : ({ s with erasures := rest }.setControl t (.place element address)).ownership =
        { s.ownership with
          erasures := rest
          reserves := Function.update s.ownership.reserves t (some address) } := by
      unfold State.ownership
      rw [hreserves, hempties]
      rfl
    rw [heq]
    exact .reuse hq hres
  | @draw t spurious element generator bucket hc hq hg hb =>
    obtain ⟨hres, hemp⟩ := State.roles_uninvolved (State.uninvolved hc rfl)
    have hc' := State.setControl_self
      (s := { s with generator := Function.update s.generator t generator }.setBucket
        (bucketId generator) bucket) t (.bucket (.insert (bucketId generator) element))
    obtain ⟨hres', hemp'⟩ := State.roles_entered hc' (by
      rw [State.setControl_bucket, State.setBucket_bucket]
      show _ = some (Function.update s.bucket (bucketId generator) bucket (bucketId generator))
      rw [Function.update_self]
      exact hb)
    exact hquiet hc hc' nofun nofun rfl ⟨hres'.trans hres.symm, hemp'.trans hemp.symm⟩
  | @place t spurious element address header hc hh =>
    refine Or.inl (h.refines_enters hmove ha hwrap (Or.inr (Or.inl ⟨address, element, rfl, hc⟩))
      (State.setControl_self ..) rfl ?_)
    rw [State.setControl_header, State.setHeader_header, State.setValue_header]
    show _ = some (Function.update s.header address header address)
    rw [Function.update_self]
    exact hh
  | @bucketStep t spurious frame bucket hc hb =>
    refine h.refines_bucketStep hmove ha hwrap hc hc rfl ?_
    rw [State.setBucket_bucket, Function.update_self]
    exact hb
  | @located t spurious b element location bucket hc hr hb =>
    have hc' := State.setControl_self (s := s.setBucket b bucket) t (.place element ⟨b, location⟩)
    obtain ⟨hres, hemp⟩ := State.roles_bucket hc
    obtain ⟨hres', hemp'⟩ := State.roles_place hc'
    refine hquiet hc hc' nofun nofun rfl ⟨hres'.trans ?_, hemp'.trans hemp.symm⟩
    show _ = s.reserves t
    rw [hres]
    show _ = ((s.bucket b).control t).location.map _
    rw [hr]
    rfl
  | @addedNext t spurious b _ _ _ _ totalTouched totalAllocated bucket next hc hr hb ht ha hlt hn =>
    obtain ⟨hres, hemp⟩ := State.roles_unlocated hc (congrArg Bucket.Control.location hr)
    have hc' := State.setControl_self (s := (s.setBucket b bucket).setBucket ⟨b.val + 1, hlt⟩ next) t
      (.bucket (.capacity ⟨b.val + 1, hlt⟩ totalTouched totalAllocated))
    obtain ⟨hres', hemp'⟩ := State.roles_entered hc' (by
      rw [State.setControl_bucket, State.setBucket_bucket]
      show _ = some (Function.update (Function.update s.bucket b bucket) _ next ⟨b.val + 1, hlt⟩)
      rw [Function.update_self]
      exact hn)
    refine hquiet hc hc' ?_ nofun rfl ⟨hres'.trans hres.symm, hemp'.trans hemp.symm⟩
    intro frame hframe heq
    cases hframe
    simp only [Control.bucket.injEq, BucketFrame.capacity.injEq] at heq
    have := congrArg Fin.val heq.1
    simp at this
  | @addedLast t spurious b _ _ _ _ totalTouched totalAllocated bucket hc hr hb ht ha hlast =>
    obtain ⟨hres, hemp⟩ := State.roles_unlocated hc (congrArg Bucket.Control.location hr)
    have hc' := State.setControl_self (s := s.setBucket b bucket) t
      (.returned (.capacity totalTouched totalAllocated))
    obtain ⟨hres', hemp'⟩ := State.roles_uninvolved (State.uninvolved hc' rfl)
    exact hquiet hc hc' nofun nofun rfl ⟨hres'.trans hres.symm, hemp'.trans hemp.symm⟩
  | @addFault t spurious b _ _ _ _ fault bucket hc hr hb hfault =>
    obtain ⟨hres, hemp⟩ := State.roles_unlocated hc (congrArg Bucket.Control.location hr)
    have hc' := State.setControl_self (s := s.setBucket b bucket) t (.faulted fault)
    obtain ⟨hres', hemp'⟩ := State.roles_uninvolved (State.uninvolved hc' rfl)
    exact hquiet hc hc' nofun nofun rfl ⟨hres'.trans hres.symm, hemp'.trans hemp.symm⟩
  | @bucketFault t spurious frame fault bucket hc hr hb =>
    obtain ⟨hres, hemp⟩ := State.roles_unlocated hc (congrArg Bucket.Control.location hr)
    obtain ⟨unwound, heq⟩ := (s.setBucket frame.bucket bucket).unwindBucket_eq t fault frame
    have hc' : ((s.setBucket frame.bucket bucket).unwindBucket t fault frame).control t
        = .faulted fault := by
      rw [heq]
      exact State.setControl_self ..
    obtain ⟨hres', hemp'⟩ := State.roles_uninvolved (State.uninvolved hc' rfl)
    refine hquiet hc hc' nofun nofun ?_ ⟨hres'.trans hres.symm, hemp'.trans hemp.symm⟩
    rw [heq]
    rfl
  | @headerStep t spurious frame header hc hh =>
    refine h.refines_headerStep hmove ha hwrap hc hc rfl (Or.inl ⟨spurious, rfl⟩) ?_
    rw [State.setHeader_header, Function.update_self]
    exact hh
  | @expire t frame header hc hh =>
    refine h.refines_headerStep hmove ha hwrap hc hc rfl (Or.inr rfl) ?_
    rw [State.setHeader_header, Function.update_self]
    exact hh
  | @resume t spurious frame result header control hc hr hh hres =>
    have hserves := h.linked.serves t frame hc
    rw [hr] at hserves
    obtain ⟨hresBefore, hempBefore⟩ := State.roles_header hc
    rw [hr] at hresBefore hempBefore
    have hc' := State.setControl_self (s := (s.setHeader frame.address header).noteIssued frame result) t
      (.ofChecked control)
    have hq : (((s.setHeader frame.address header).noteIssued frame result).setControl t
        (.ofChecked control)).erasures = s.erasures := by
      rw [State.setControl_erasures, State.noteIssued_erasures]
      rfl
    cases Frame.resumed hserves hres with
    | ends hend hnone hnone' =>
      obtain ⟨hres', hemp'⟩ := State.roles_uninvolved (State.uninvolved hc' hend)
      refine hquiet hc hc' nofun ?_ hq ⟨?_, ?_⟩
      · rintro other - heq
        rw [heq] at hend
        cases hend
      · exact hres'.trans (hresBefore.trans hnone).symm
      · exact hemp'.trans (hempBefore.trans hnone').symm
    | @moves id method hdone hframe hcontrol =>
      have hmoveOut := hc'.trans hcontrol
      obtain ⟨hres', hemp'⟩ := State.roles_moveOut hmoveOut
      rw [if_pos hdone] at hresBefore hempBefore
      exact hquiet hc hmoveOut nofun nofun hq
        ⟨hres'.trans hresBefore.symm, hemp'.trans (hempBefore.trans hframe).symm⟩
    | @moved id element hdone hframe hcontrol =>
      rw [if_pos hdone] at hresBefore hempBefore
      refine h.refines_afterMove hmove ha hwrap ?_ ?_ hq hresBefore (hempBefore.trans hframe)
        (hc'.trans hcontrol)
      · exact fun other hother => by cases hc.symm.trans hother
      · intro other _ heq
        rw [hc'.symm.trans heq] at hcontrol
        have hfinishing := afterMove_finishing id (id.ordinal + 1 != reservedId) (.removeLocked element)
        rw [← hcontrol] at hfinishing
        cases hfinishing
  | @headerFault t spurious frame fault header hc hr hh =>
    have hserves := h.linked.serves t frame hc
    rw [hr] at hserves
    obtain ⟨hres, hemp⟩ := State.roles_header hc
    rw [hr] at hres hemp
    have hnone : frame.reserving = none := by
      cases frame with
      | occupy => exact absurd rfl (serves_faulted hserves).1
      | _ => rfl
    rw [hnone] at hres
    have hc' := State.setControl_self (s := s.setHeader frame.address header) t (.faulted fault)
    obtain ⟨hres', hemp'⟩ := State.roles_uninvolved (State.uninvolved hc' rfl)
    exact hquiet hc hc' nofun nofun rfl ⟨hres'.trans hres.symm, hemp'.trans hemp.symm⟩
  | @moveOut t spurious id method mayReuse element hc hv =>
    obtain ⟨hres, hemp⟩ := State.roles_moveOut hc
    obtain rfl := h.flagged.moveOut t id method mayReuse hc
    refine h.refines_afterMove hmove ha hwrap ?_ ?_ rfl hres hemp (State.setControl_self ..)
    · exact fun other hother => by cases hc.symm.trans hother
    · exact fun other hother => by cases hc.symm.trans hother
  | @moveOutLocked t spurious id element header hc hv hh =>
    refine Or.inl (h.refines_enters hmove ha hwrap (Or.inr (Or.inr ⟨id, element, rfl, hc, hv⟩))
      (State.setControl_self ..) rfl ?_)
    rw [State.setControl_header, State.setHeader_header]
    show _ = some (Function.update s.header id.slotAddress header id.slotAddress)
    rw [Function.update_self]
    exact hh
  | @moveFault t spurious id fault hc hv =>
    rcases hc with hc | ⟨method, mayReuse, hc⟩
    · exact huninvolved hc (State.setControl_self ..) rfl rfl rfl
    · exact absurd hv (h.filled.moveOut hc)
  | @push t spurious id result hc =>
    right
    obtain ⟨hres, hemp⟩ := State.roles_push hc
    have hc' := State.setControl_self (s := { s with erasures := s.erasures ++ [id.slotAddress] }) t
      (.returned result)
    obtain ⟨hres', hemp'⟩ := State.roles_uninvolved (State.uninvolved hc' rfl)
    obtain ⟨hreserves, hempties⟩ := h.roles_update hmove ha hwrap
    have hresSame := hres'.trans hres.symm
    dsimp only [Event.thread] at hreserves hempties
    rw [hresSame, Function.update_eq_self] at hreserves
    rw [hemp'] at hempties
    have heq : ({ s with erasures := s.erasures ++ [id.slotAddress] }.setControl t
        (.returned result)).ownership =
        { s.ownership with
          erasures := s.ownership.erasures ++ [id.slotAddress]
          empties := Function.update s.ownership.empties t none } := by
      unfold State.ownership
      rw [hreserves, hempties]
      rfl
    rw [heq]
    exact .push hemp (h.flagged.push t id result hc)

/-! ## Preservation -/

/-- A step writes one element, or none. -/
theorem Move.value_cases (hm : Move build s e s') :
    s'.value = s.value ∨ ∃ address element, s'.value = Function.update s.value address (some element) := by
  cases hm with
  | enter | headerStep | expire | headerFault =>
    exact Or.inl (by simp)
  | moveOutLocked => exact Or.inl (by simp)
  | resume => exact Or.inl (by simp)
  | @bucketFault t _ frame fault bucket hc hr hb =>
    obtain ⟨unwound, heq⟩ := (s.setBucket frame.bucket bucket).unwindBucket_eq t fault frame
    rw [heq]
    exact Or.inl rfl
  | @replace t call address element result hc hreplace =>
    refine Or.inr ⟨address, element, ?_⟩
    rw [State.setControl_value, State.setValue_value]
    rfl
  | @place t spurious element address header hc hh =>
    refine Or.inr ⟨address, element, ?_⟩
    rw [State.setControl_value, State.setHeader_value, State.setValue_value]
  | _ => exact Or.inl rfl

/-- No element is erased. -/
theorem Move.value_mono (hm : Move build s e s') {address : SlotAddress}
    (h : (s.value address).isSome = true) : (s'.value address).isSome = true := by
  rcases hm.value_cases with hsame | ⟨written, element, hwritten⟩
  · rw [hsame]
    exact h
  · rw [hwritten]
    by_cases haddress : address = written
    · rw [haddress, Function.update_self]
      rfl
    · rw [Function.update_of_ne haddress]
      exact h

theorem afterMove_cases {id : Id} {mayReuse : Bool} {result : Return E} :
    (∀ id' method mayReuse', afterMove id mayReuse result ≠ .moveOut id' method mayReuse') ∧
      ∀ id' result', afterMove id mayReuse result = .push id' result' → id' = id ∧ mayReuse = true := by
  cases mayReuse with
  | false => exact ⟨nofun, nofun⟩
  | true =>
    refine ⟨nofun, fun id' result' h => ?_⟩
    cases h
    exact ⟨rfl, rfl⟩

/-- A thread starts to empty a slot with the flag that the header has returned. -/
theorem State.Sound.moveOut_step (h : s.Sound build) (hm : Move build s e s') {id : Id} {method : Method}
    {mayReuse : Bool} (hc' : s'.control e.thread = .moveOut id method mayReuse) :
    mayReuse = (id.ordinal + 1 != reservedId) := by
  cases hm with
  | @resume t spurious frame result header control hc hr hh hres =>
    have hserves := h.linked.serves t frame hc
    rw [hr] at hserves
    have hcontrol := (State.setControl_self _ _).symm.trans hc'
    cases Frame.resumed hserves hres with
    | ends hend =>
      rw [hcontrol] at hend
      cases hend
    | moves hdone hframe hmoves =>
      cases hcontrol.symm.trans hmoves
      rfl
    | moved hdone hframe hmoved => exact absurd (hmoved.symm.trans hcontrol) (afterMove_cases.1 _ _ _)
  | moveOut hc hv => exact absurd ((State.setControl_self _ _).symm.trans hc') (afterMove_cases.1 _ _ _)
  | @bucketFault t _ frame fault bucket hc hr hb =>
    obtain ⟨unwound, heq⟩ := (s.setBucket frame.bucket bucket).unwindBucket_eq t fault frame
    rw [heq] at hc'
    cases (State.setControl_self _ _).symm.trans hc'
  | headerStep hc | expire hc | bucketStep hc | elsewhere hc => cases hc.symm.trans hc'
  | _ => cases (State.setControl_self _ _).symm.trans hc'

theorem State.Sound.push_step (h : s.Sound build) (hm : Move build s e s') {id : Id} {result : Return E}
    (hc' : s'.control e.thread = .push id result) : id.ordinal + 1 ≠ reservedId := by
  have hflag : ∀ {id' : Id} {result' : Return E},
      afterMove id' (id'.ordinal + 1 != reservedId) result' = .push id result →
        id.ordinal + 1 ≠ reservedId := by
    intro id' result' heq
    obtain ⟨rfl, hflag⟩ := afterMove_cases.2 _ _ heq
    simpa using hflag
  cases hm with
  | @resume t spurious frame result' header control hc hr hh hres =>
    have hserves := h.linked.serves t frame hc
    rw [hr] at hserves
    have hcontrol := (State.setControl_self _ _).symm.trans hc'
    cases Frame.resumed hserves hres with
    | ends hend =>
      rw [hcontrol] at hend
      cases hend
    | moves hdone hframe hmoves => cases hcontrol.symm.trans hmoves
    | moved hdone hframe hmoved => exact hflag (hmoved.symm.trans hcontrol)
  | @moveOut t spurious id' method mayReuse element hc hv =>
    obtain rfl := h.flagged.moveOut t id' method mayReuse hc
    exact hflag ((State.setControl_self _ _).symm.trans hc')
  | @bucketFault t _ frame fault bucket hc hr hb =>
    obtain ⟨unwound, heq⟩ := (s.setBucket frame.bucket bucket).unwindBucket_eq t fault frame
    rw [heq] at hc'
    cases (State.setControl_self _ _).symm.trans hc'
  | headerStep hc | expire hc | bucketStep hc | elsewhere hc => cases hc.symm.trans hc'
  | _ => cases (State.setControl_self _ _).symm.trans hc'

theorem State.Sound.flagged_step (h : s.Sound build) (hm : Move build s e s') : s'.Flagged where
  moveOut t id method mayReuse hc := by
    by_cases ht : t = e.thread
    · subst ht
      exact h.moveOut_step hm hc
    · rw [hm.control_ne ht] at hc
      exact h.flagged.moveOut t id method mayReuse hc
  push t id result hc := by
    by_cases ht : t = e.thread
    · subst ht
      exact h.push_step hm hc
    · rw [hm.control_ne ht] at hc
      exact h.flagged.push t id result hc

/-- A thread starts to empty a slot that is occupied. -/
theorem Ownership.Step.empties {o o' : Ownership T} {t u : T} {id : Id} (h : o.Step t o')
    (hid : o'.empties u = some id) : o.empties u = some id ∨ o.occupied id.slotAddress = true := by
  have hnone : Function.update o.empties t none u = some id → o.empties u = some id := by
    intro hu
    by_cases ht : u = t
    · rw [ht, Function.update_self] at hu
      cases hu
    · rw [Function.update_of_ne ht] at hu
      exact hu
  cases h with
  | draw | reuse | occupy => exact Or.inl hid
  | @vacate id' hocc hord _ =>
    by_cases ht : u = t
    · subst ht
      cases (Function.update_self _ _ _).symm.trans hid
      exact Or.inr hocc
    · exact Or.inl ((Function.update_of_ne ht _ _).symm.trans hid)
  | push | retire => exact Or.inl (hnone hid)

/-- The element of an `insert` is in its slot before the header is told. -/
theorem State.Filled.placed_step (h : s.Filled) (hm : Move build s e s') {address : SlotAddress}
    {element : E} (hc' : s'.control e.thread = .header (.occupy address element)) :
    (s'.value address).isSome = true := by
  cases hm.headerPart address with
  | same hheader hframe => exact hm.value_mono (h.placed _ _ _ ((hframe _ rfl).1 hc'))
  | goes haddress hcontrol hsame hevent hstep =>
    cases hsame.symm.trans hc'
    exact hm.value_mono (h.placed _ _ _ hcontrol)
  | leaves haddress hbefore hafter hstep => exact absurd hc' (hafter _)
  | enters haddress hbefore hafter hwhy hstep =>
    cases hm with
    | @place t spurious element' address' header hc hh =>
      cases (State.setControl_self _ _).symm.trans hc'
      rw [State.setControl_value, State.setHeader_value, State.setValue_value, Function.update_self]
      rfl
    | @enter t call frame header hc hframe hh =>
      cases (State.setControl_self _ _).symm.trans hc'
      cases call <;> cases hframe
    | headerStep hc | expire hc => exact absurd hc (hbefore _)
    | @bucketFault t _ frame fault bucket hc hr hb =>
      obtain ⟨unwound, heq⟩ := (s.setBucket frame.bucket bucket).unwindBucket_eq t fault frame
      rw [heq] at hc'
      cases (State.setControl_self _ _).symm.trans hc'
    | resume hc => exact absurd hc (hbefore _)
    | @moveOut t spurious id method mayReuse element' hc hv =>
      cases mayReuse <;> cases (State.setControl_self _ _).symm.trans hc'
    | bucketStep hc | elsewhere hc => cases hc.symm.trans hc'
    | _ => cases (State.setControl_self _ _).symm.trans hc'

theorem State.Sound.filled_step [Fintype T] (h : s.Sound build) (hm : Move build s e s') (ha : Allowed s e)
    (hwrap : s.NoWrap e) : s'.Filled where
  occupied address hocc := by
    obtain ⟨class_, hclass⟩ := h.classified
    have hsame : (s'.header address).word = (s.header address).word → (s'.value address).isSome = true := by
      intro hword
      rw [hword] at hocc
      exact hm.value_mono (h.filled.occupied address hocc)
    cases hm.headerPart address with
    | same hheader hframe => exact hsame (by rw [hheader])
    | enters haddress hbefore hafter hwhy hstep =>
      subst haddress
      exact hsame (h.linked.entered ha hwhy hstep).2.2.1
    | leaves haddress hbefore hafter hstep =>
      refine hsame ?_
      rw [header_left hstep]
      rfl
    | @goes frame event haddress hcontrol _ hevent hstep =>
      subst haddress
      cases (h.linked.served hclass hcontrol hevent hstep).2.occupancy with
      | same hocc' hid hdone =>
        rw [hocc'] at hocc
        exact hm.value_mono (h.filled.occupied _ hocc)
      | occupied hcall hbefore hafter hocc' hid =>
        cases frame with
        | occupy address element => exact hm.value_mono (h.filled.placed _ _ _ hcontrol)
        | _ => cases hcall
      | emptied hcall hbefore hafter hoccBefore hocc' hid hid' =>
        rw [hocc'] at hocc
        cases hocc
  emptied t id hemp := by
    rcases h.refines hm ha hwrap with hsame | hstep
    · have hemp' : s'.ownership.empties t = some id := hemp
      rw [hsame] at hemp'
      exact hm.value_mono (h.filled.emptied t id hemp')
    · rcases hstep.empties hemp with hbefore | hocc
      · exact hm.value_mono (h.filled.emptied t id hbefore)
      · exact hm.value_mono (h.filled.occupied _ hocc)
  placed t address element hc := by
    by_cases ht : t = e.thread
    · subst ht
      exact h.filled.placed_step hm hc
    · rw [hm.control_ne ht] at hc
      exact hm.value_mono (h.filled.placed t address element hc)

/-- The steps of a store preserve all of it. -/
theorem State.Sound.step [Fintype T] (h : s.Sound build) (hm : Move build s e s') (ha : Allowed s e)
    (hwrap : s.NoWrap e) : s'.Sound build := by
  obtain ⟨class_, hclass⟩ := h.classified
  refine ⟨h.linked.step hclass hm ha hwrap, h.flagged_step hm, h.filled_step hm ha hwrap, ?_⟩
  rcases h.refines hm ha hwrap with hsame | hstep
  · rw [hsame]
    exact ⟨class_, hclass⟩
  · exact hclass.step hstep

omit [DecidableEq T] in
theorem State.init_ownership (storeId : UInt64) (generator : T → UInt32) :
    (State.init storeId generator : State T E).ownership = Ownership.init := by
  have hissued : ∀ location, ¬Bucket.Inner.new.HandedOut location :=
    Bucket.init_not_handedOut (T := T)
  refine Ownership.ext ?_ ?_ ?_ rfl rfl rfl
  · funext address
    exact propext (iff_of_false (hissued _) not_false)
  · funext address
    show isOccupied ((State.init storeId generator : State T E).header address).word = false
    exact (show isOccupied (Header.unoccupiedBits 0) = false from by decide)
  · funext address
    show currentId (Header.unoccupiedBits 0) = 0
    decide

theorem State.Sound.init (storeId : UInt64) (generator : T → UInt32) :
    (State.init storeId generator : State T E).Sound build where
  linked := .init storeId generator
  flagged := ⟨nofun, nofun⟩
  filled := by
    refine ⟨fun address hocc => ?_, nofun, nofun⟩
    have hnew : isOccupied (Header.unoccupiedBits 0) = true := hocc
    rw [show isOccupied (Header.unoccupiedBits 0) = false from by decide] at hnew
    cases hnew
  classified := ⟨fun _ => .unissued, by rw [State.init_ownership]; exact .init⟩

/-- A store none of whose counters has wrapped around. -/
theorem sound_of_reachable [Fintype T] (h : ((machine build T E).restrict State.NoWrap).Reachable s) :
    s.Sound build := by
  refine h.invariant ?_ ?_
  · rintro _ ⟨storeId, generator, rfl⟩
    exact .init storeId generator
  · rintro s e s' hs ⟨hwrap, ha, hstep⟩
    exact hs.step (.of_step hstep) ha hwrap

/-- A thread calls a method, and takes some steps. -/
def beginCall (t : T) (call : Call E) (steps : ℕ) : List (Event T E) :=
  .call t call :: List.replicate steps (.act t false)

/-- The same up to the return. -/
def wholeCall (t : T) (call : Call E) (steps : ℕ) : List (Event T E) := beginCall t call steps ++ [.ret t]

/-- A state that a list of events leads to without a counter that wraps around. -/
theorem exists_reachable_noWrap [Fintype T] (build : Build) (storeId : UInt64) (generator : T → UInt32)
    (es : List (Event T E)) (p : State T E → Bool)
    (hp : (Transition.System.replay (step build) (fun s e => s.NoWrap e ∧ Allowed s e)
      (.init storeId generator) es).any p = true) :
    ∃ s, ((machine build T E).restrict State.NoWrap).Reachable s ∧ p s = true := by
  have hreached : ∃ s, (Transition.System.ofFn
      (fun s : State T E => ∃ storeId generator, s = State.init storeId generator) (step build)
      fun s e => s.NoWrap e ∧ Allowed s e).Reachable s ∧ p s = true :=
    Transition.System.exists_reachable ⟨storeId, generator, rfl⟩ es p hp
  obtain ⟨s, hr, hs⟩ := hreached
  exact ⟨s, hr.restrict, hs⟩

/-- A list of events as a run. -/
theorem run_of_replay [Fintype T] (build : Build) (storeId : UInt64) (generator : T → UInt32)
    (es : List (Event T E)) (d : Event T E)
    (hes : (Transition.System.replay (step build) Allowed (.init storeId generator) es).isSome = true) :
    (machine build T E).Run es.length
      (Transition.System.trace (step build) Allowed (.init storeId generator) es) (es.getD · d) :=
  @Transition.System.Run.of_replay _ _ (fun s => ∃ storeId generator, s = State.init storeId generator) _ _ _
    _ ⟨storeId, generator, rfl⟩ es d hes

/-- The same where every step meets a condition. -/
theorem run_of_replay_restrict [Fintype T] (build : Build) (ok : State T E → Event T E → Prop)
    [∀ s e, Decidable (ok s e)] (storeId : UInt64) (generator : T → UInt32) (es : List (Event T E))
    (d : Event T E)
    (hes : (Transition.System.replay (step build) (fun s e => ok s e ∧ Allowed s e)
      (.init storeId generator) es).isSome = true) :
    ((machine build T E).restrict ok).Run es.length
      (Transition.System.trace (step build) (fun s e => ok s e ∧ Allowed s e) (.init storeId generator) es)
      (es.getD · d) := by
  have hrun := @Transition.System.Run.of_replay _ _ (fun s => ∃ storeId generator, s = State.init storeId generator)
    _ _ _ _ ⟨storeId, generator, rfl⟩ es d hes
  exact hrun.restrict

end ReadWriteStore.Store

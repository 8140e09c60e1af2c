import ReadWriteStore.Store.Proofs.MapProofs

/-!
# A store is linearizable

Every step of a store is answered by steps of the map that show the same to the callers: a method takes
effect at the step on its header that succeeds, a miss where it returns, and the other steps are seen by
nobody.
-/

namespace ReadWriteStore.Store

open Header (isOccupied currentId view)
open Transition (Object)
open Transition.Object (Phase Shared)

variable {T E : Type} [DecidableEq T] [Fintype T] {build : Build} {s s' : State T E} {e : Event T E} {t u : T}

theorem Control.stands_done {frame : Frame E} {phase : Phase (Map T E) (Call E) (Return E)}
    (hdone : ((s.header frame.address).control t).done = true) :
    (Control.header frame).Stands s t phase ↔ phase = .done (s.outcome frame) := by
  simp only [Control.Stands, hdone, if_true]

theorem Control.stands_underway {frame : Frame E} {phase : Phase (Map T E) (Call E) (Return E)}
    (hdone : ((s.header frame.address).control t).done = false) :
    (Control.header frame).Stands s t phase ↔ ∃ seen, phase = .pending frame.origin seen ∧ s.Underway t frame seen := by
  simp only [Control.Stands, hdone, Bool.false_eq_true, if_false]

/-! ## The other threads -/

section Others

/-- An element that is gone stays away. -/
theorem State.Sound.gone_step (h : s.Sound build) (h' : s'.Sound build) (hm : Move build s e s') (ha : Allowed s e)
    {id : Id} (hid : id ∈ s.issued) (hgone : ¬s.Present id) : ¬s'.Present id := by
  rw [h.gone_iff hid] at hgone
  rw [h'.gone_iff (hm.issued_subset hid)]
  have := h.ordinal_mono hm ha id.slotAddress
  omega

omit [DecidableEq T] [Fintype T] in
theorem Ownership.Classified.occupied_iff {o : Ownership T} {class_ : SlotAddress → Ownership.Class T}
    (h : o.Classified class_) {address : SlotAddress} (hocc : o.occupied address = true) :
    (∀ t, o.reserves t ≠ some address) ∧ ∀ t id, o.empties t = some id → id.slotAddress ≠ address := by
  have hclass := (h.occupied address).2 hocc
  refine ⟨fun t hres => ?_, fun t id hemp haddress => ?_⟩
  · cases hclass.symm.trans ((h.reserved address t).2 hres)
  · cases hclass.symm.trans ((h.emptied address t).2 ⟨id, hemp, haddress⟩)

/-- Nobody writes an element that is about to be moved out. -/
theorem State.Sound.value_emptied (h : s.Sound build) (hm : Move build s e s') (ha : Allowed s e) {id : Id}
    (hemp : s.empties u = some id) : s'.value id.slotAddress = s.value id.slotAddress := by
  obtain ⟨class_, hclass⟩ := h.classified
  rcases hm.writes id.slotAddress with hsame | ⟨element, hc⟩ | ⟨call, element, result, he, hreplace⟩
  · exact hsame
  · have hemptied := (hclass.emptied id.slotAddress u).2 ⟨id, hemp, rfl⟩
    have hreserved := (hclass.reserved id.slotAddress e.thread).2 (State.roles_place hc).1
    cases hemptied.symm.trans hreserved
  · obtain ⟨id', hid', haddress, hp, -⟩ := h.replaces ha he hreplace
    exact absurd haddress.symm ((hclass.occupied_iff hp.1).2 u id hemp)

/-- Nobody else writes an element that a thread has locked to remove it. -/
theorem State.Sound.value_taken (h : s.Sound build) (hm : Move build s e s') (ha : Allowed s e) (hu : u ≠ e.thread)
    {id : Id} {element : E} (hc : s.control u = .header (.removeLocked id element))
    (hdone : ((s.header id.slotAddress).control u).done = false) :
    s'.value id.slotAddress = s.value id.slotAddress := by
  have hinv := Header.reachable_inv (h.linked.header id.slotAddress)
  have hlock : ⟨.write, id.ordinal⟩ ∈ (s.header id.slotAddress).locks u :=
    (h.linked.serves u _ hc).holds (hinv.control u) hdone rfl
  obtain ⟨class_, hclass⟩ := h.classified
  rcases hm.writes id.slotAddress with hsame | ⟨element', hplace⟩ | ⟨call, element', result, he, hreplace⟩
  · exact hsame
  · obtain ⟨-, -, hocc, -⟩ := hinv.of_write_lock hlock
    exact absurd (State.roles_place hplace).1 ((hclass.occupied_iff hocc).1 e.thread)
  · obtain ⟨id', hid', haddress, hp, hcall⟩ := h.replaces ha he hreplace
    rw [he] at ha
    rcases hcall with rfl | ⟨-, hquiet⟩
    · have hholds := ha.2
      rw [haddress, hinv.sole_writer hlock hu.symm] at hholds
      cases hholds
    · have hidle := (hquiet u).1
      rw [hc] at hidle
      cases hidle

/-- A step moves one thread. -/
theorem State.Sound.stands_other (h : s.Sound build) (h' : s'.Sound build) (hk : s.Kept) (hk' : s'.Kept)
    (hm : Move build s e s') (ha : Allowed s e) (hu : u ≠ e.thread) {phase : Phase (Map T E) (Call E) (Return E)}
    (hst : (s.control u).Stands s u phase) : (s'.control u).Stands s' u phase := by
  obtain ⟨class_, hclass⟩ := h.classified
  have hheader : ∀ address, (s'.header address).control u = (s.header address).control u := fun address =>
    ((h.linked.others hclass hm ha address).1 u hu).1
  have hcontrol := hm.control_ne hu
  rw [hcontrol]
  cases hc : s.control u with
  | header frame =>
    rw [hc] at hst hcontrol
    cases hdone : ((s.header frame.address).control u).done with
    | true =>
      rw [Control.stands_done hdone] at hst
      rw [Control.stands_done (by rw [hheader]; exact hdone)]
      refine hst.trans (congrArg Phase.done ?_)
      have hroles := State.roles_header hc
      rw [hdone, if_pos rfl] at hroles
      cases frame with
      | occupy address element =>
        rcases serves_occupy (h.linked.serves u _ hc) with hrun | ⟨ordinal, hret⟩
        · rw [hrun] at hdone
          cases hdone
        · have hp := (hk.pending u address ordinal ⟨element, hc, hret⟩).2
          have hp' := (hk'.pending u address ordinal ⟨element, hcontrol, by rw [hheader]; exact hret⟩).2
          refine congrArg Return.insert (Id.ext_at (hp.trans hp'.symm) rfl hm.storeId_eq.symm)
      | remove id method =>
        exact congrArg (fun value => Return.remove (.ok value)) (h.value_emptied hm ha hroles.2).symm
      | _ => rfl
    | false =>
      rw [Control.stands_underway hdone] at hst
      rw [Control.stands_underway (by rw [hheader]; exact hdone)]
      obtain ⟨seen, hphase, hunderway⟩ := hst
      refine ⟨seen, hphase, ⟨fun id hid => hm.issued_subset (hunderway.known id hid), ?_, ?_, ?_⟩⟩
      · intro attempt id method hattempt
        rw [hheader]
        refine (hunderway.standing attempt id method hattempt).mono (fun hgone => ?_) fun hbusy => hbusy
        refine h.gone_step h' hm ha (hunderway.known id ?_) hgone
        cases frame <;> cases hattempt <;> rfl
      · rintro id element rfl
        rw [h.value_taken hm ha hu hc hdone]
        exact hunderway.taken id element rfl
      · rw [hheader]
        exact hunderway.full
  | moveOut id method mayReuse =>
    rw [hc] at hst
    refine Eq.trans hst ?_
    rw [← h.value_emptied hm ha (State.roles_moveOut hc).2]
  | _ =>
    rw [hc] at hst
    exact hst

end Others

/-! ## Inside a call of a header -/

section Header

/-- What the invariants say of one state. -/
structure State.Known (build : Build) (s : State T E) : Prop where
  sound : s.Sound build
  noted : s.Noted
  kept : s.Kept

/-- Thread `t` goes from a phase to one where it stands in `s'`, and shows `actions`. -/
def State.Answers (s s' : State T E) (t : T) (phase : Phase (Map T E) (Call E) (Return E))
    (actions : List (Object.Action T (Call E) (Return E))) : Prop :=
  ∃ phase', (Map.object T E).Goes t s.map phase actions s'.map phase' ∧ (s'.control t).Stands s' t phase'

theorem Frame.attempt_call {frame : Frame E} {attempt : Header.Attempt} {id : Id} {method : Method}
    (h : frame.attempt = some (attempt, id, method)) : frame.call = attempt.call id.ordinal method.timeout ∧
      frame.address = id.slotAddress ∧ frame.id = some id := by
  cases frame <;> cases h <;> exact ⟨rfl, rfl, rfl⟩

theorem Frame.not_lockRead {frame : Frame E} (h : ¬∃ id method, frame = .read id method) (id : UInt32)
    (timeout : Timeout) : frame.call ≠ .lockRead id timeout := by
  rintro hcall
  cases frame with
  | read id method => exact h ⟨id, method, rfl⟩
  | _ => cases hcall

omit [DecidableEq T] in
/-- A call that meets a conflict on its header has to wait on the map. -/
theorem State.Filled.busy (h : s.Filled) {frame : Frame E} {attempt : Header.Attempt} {id : Id} {method : Method}
    (hattempt : frame.attempt = some (attempt, id, method)) (hstore : id.storeId = s.storeId)
    (hinv : (s.header id.slotAddress).Inv)
    (hconflict : attempt.Conflicts id.ordinal (view (s.header id.slotAddress).word)) : s.map.Busy frame.origin := by
  obtain ⟨u, kind, hlock, hkind⟩ := hinv.conflicts hconflict
  have hp : s.Present id := by
    cases kind with
    | read =>
      obtain ⟨hid, -, -, hocc⟩ := hinv.of_read_lock hlock
      exact ⟨hocc, hid⟩
    | write =>
      obtain ⟨hid, -, hocc, -⟩ := hinv.of_write_lock hlock
      exact ⟨hocc, hid⟩
  obtain ⟨value, -, hentry⟩ := h.entry hstore hp
  have hpos := Header.State.lockCount_pos.2 hlock
  cases frame with
  | read id' method' =>
    cases hattempt
    obtain rfl := hkind rfl
    exact ⟨_, hentry, fun hread => Nat.ne_of_gt hpos (hread u)⟩
  | write id' method' =>
    cases hattempt
    exact ⟨_, hentry, fun hfree => Nat.ne_of_gt hpos (hfree u kind)⟩
  | remove id' method' =>
    cases hattempt
    exact ⟨_, hentry, fun hfree => Nat.ne_of_gt hpos (hfree u kind)⟩
  | _ => cases hattempt

/-- A header that cannot count one more reader belongs to an element that the map cannot lock either. -/
theorem State.Known.panics_read (h : s.Known build) {id : Id} (method : Method) (hissued : id ∈ s.issued)
    (hid : Header.idFromBits (s.header id.slotAddress).word = id.ordinal)
    (hmax : Header.readersFromBits (s.header id.slotAddress).word = Header.maxConcurrentReads) :
    s.map.Panics (.read id method) := by
  have hinv := Header.reachable_inv (h.sound.linked.header id.slotAddress)
  have hheld := hinv.held_of_full hmax
  have hpos : 0 < (s.header id.slotAddress).held .read := by
    rw [hheld, Header.maxConcurrentReads_toNat]
    omega
  obtain ⟨u, hlock⟩ := hinv.exists_holder hpos
  obtain ⟨-, -, -, hocc⟩ := hinv.of_read_lock hlock
  obtain ⟨value, -, hentry⟩ := h.sound.filled.entry (h.noted.storeId id hissued) ⟨hocc, hid⟩
  exact ⟨_, hentry, (hinv.tally_lockCount hid).trans hheld⟩

/-- A call that will panic has seen a map on which it may. -/
theorem State.Known.panics (h : s.Known build) {frame : Frame E} {header : Header.State T}
    {event : Header.Event T} (ha : Header.Allowed (s.header frame.address) event)
    (hm : Header.Move build (s.header frame.address) event header) (hret : event ≠ .ret event.thread)
    (hserves : ((s.header frame.address).control event.thread).Serves frame.call) {seen : Set (Map T E)}
    (hunderway : s.Underway event.thread frame seen) (hfull : (header.control event.thread).Full) :
    ∃ m ∈ insert s.map seen, m.Panics frame.origin := by
  have hinv := Header.reachable_inv (h.sound.linked.header frame.address)
  by_cases hread : ∃ id method, frame = .read id method
  · obtain ⟨id, method, rfl⟩ := hread
    rcases hm.full hinv ha hret (hunderway.standing .lockRead id method rfl) hfull with hbefore | ⟨hid, hmax⟩
    · obtain ⟨m, hmem, hpanics⟩ := hunderway.full hbefore
      exact ⟨m, Set.mem_insert_of_mem _ hmem, hpanics⟩
    · exact ⟨s.map, Set.mem_insert _ _, h.panics_read method (hunderway.known id rfl) hid hmax⟩
  · have hcall := Frame.not_lockRead hread
    have hserves' := (Header.move_serves hinv ha hm hret hserves).1
    exact absurd hfull (hserves'.not_full hcall (hm.not_faulted hinv ha hret hserves hcall))

omit [Fintype T] in
/-- What a method has achieved on its header depends on the element and the ID there. -/
theorem State.outcome_congr {frame : Frame E} (hstore : s'.storeId = s.storeId) (hvalue : s'.value = s.value)
    (hid : currentId (s'.header frame.address).word = currentId (s.header frame.address).word) :
    s'.outcome frame = s.outcome frame := by
  cases frame with
  | occupy address element => exact congrArg Return.insert (Id.ext_at hid rfl hstore)
  | remove id method => exact congrArg (fun value => Return.remove (.ok value)) (congrFun hvalue _)
  | _ => rfl

omit [Fintype T] [DecidableEq T] in
/-- A step of a header that leaves its lock as it is. -/
theorem State.agrees_stays {address : SlotAddress} {header : Header.State T}
    (hview : view header.word = view (s.header address).word) (hlocks : header.locks = (s.header address).locks)
    (other : SlotAddress) : s.Agrees (s.setHeader address header) other := by
  obtain ⟨hocc, hid⟩ := Header.isOccupied_congr hview
  by_cases ho : other = address
  · rw [ho]
    have hheader := s.setHeader_self address header
    exact ⟨rfl, by rw [hheader]; exact hocc, by rw [hheader]; exact hid, by rw [hheader]; exact hlocks,
      fun _ => by rw [State.setHeader_value]⟩
  · exact s.agrees_setHeader header ho

/-- A step inside a call of a header. -/
theorem State.Known.goes_header (h : s.Known build) {frame : Frame E} {header : Header.State T}
    {event : Header.Event T} (ha : Header.Allowed (s.header frame.address) event) (hc : s.control t = .header frame)
    (hthread : event.thread = t) (hret : event ≠ .ret t)
    (hstep : Header.step build (s.header frame.address) event = some header)
    {phase : Phase (Map T E) (Call E) (Return E)} (hst : (Control.header frame).Stands s t phase) :
    s.Answers (s.setHeader frame.address header) t phase [] := by
  subst hthread
  have hinv := Header.reachable_inv (h.sound.linked.header frame.address)
  have hm := Header.Move.of_step hstep
  have hinv' := hinv.move ha hm
  have hserves := h.sound.linked.serves _ frame hc
  have hheader := s.setHeader_self frame.address header
  have hcontrol : (s.setHeader frame.address header).control event.thread = .header frame := hc
  unfold State.Answers
  rw [hcontrol]
  cases (Header.move_serves hinv ha hm hret hserves).2 with
  | takes hbefore hafter happly hlocks hissued hoccupy =>
    obtain ⟨seen, rfl, hunderway⟩ := (Control.stands_underway hbefore).1 hst
    refine ⟨_, Object.Goes.effect (h.sound.effect h.noted h.kept hc hunderway.known hunderway.taken hbefore happly
      hlocks hinv'), (Control.stands_done ?_).2 rfl⟩
    rw [hheader]
    exact hafter
  | stays hdone hview hlocks hissued =>
    have hid := (Header.isOccupied_congr hview).2
    have hagrees := State.agrees_stays hview hlocks
    rw [State.map_congr hagrees]
    cases hbefore : ((s.header frame.address).control event.thread).done with
    | true =>
      obtain rfl := (Control.stands_done hbefore).1 hst
      refine ⟨_, Object.Goes.stay _, (Control.stands_done ?_).2 (congrArg Phase.done ?_)⟩
      · rw [hheader, hdone, hbefore]
      · refine Eq.symm (State.outcome_congr rfl ?_ ?_)
        · rw [State.setHeader_value]
        · rw [hheader]
          exact hid
    | false =>
      obtain ⟨seen, rfl, hunderway⟩ := (Control.stands_underway hbefore).1 hst
      have hafter : ((s.setHeader frame.address header).header frame.address).control event.thread =
          header.control event.thread := by rw [hheader]
      refine ⟨_, Object.Goes.see, (Control.stands_underway (by rw [hafter, hdone, hbefore])).2 ⟨_, rfl, ?_⟩⟩
      refine ⟨hunderway.known, fun attempt id method hattempt => ?_, fun id element hframe => ?_, fun hfull => ?_⟩
      · obtain ⟨hcall, haddress, hfor⟩ := Frame.attempt_call hattempt
        have hstanding := hunderway.standing attempt id method hattempt
        rw [← haddress, hafter]
        rw [haddress] at hinv hm ha hbefore hdone
        obtain ⟨won, hstanding', -⟩ := Header.move_standing hinv ha hm hret hstanding
        obtain rfl : won = false := by rw [← hstanding'.done_eq, hdone, hbefore]
        refine hstanding'.mono (fun hother hp => ?_) fun hwaits => ?_
        · have hp' := (hagrees _).present.1 hp
          exact hother.elim (fun hgone => hgone hp') fun hne => hne hp'.2
        · rcases hwaits with ⟨m, hm, hbusy⟩ | hconflict
          · exact ⟨m, Set.mem_insert_of_mem _ hm, hbusy⟩
          · exact ⟨s.map, Set.mem_insert _ _, h.sound.filled.busy hattempt
              (h.noted.storeId id (hunderway.known id hfor)) hinv hconflict⟩
      · rw [State.setHeader_value]
        exact hunderway.taken id element hframe
      · rw [hafter] at hfull
        exact h.panics ha hm hret hserves hunderway hfull

omit [Fintype T] in
/-- The ID of a call of a header is one that `insert` has returned. -/
theorem State.Known.known_enter (h : s.Known build) (ha : Allowed s e) {frame : Frame E}
    (hwhy : EntersHeader s e frame) {id : Id} (hid : frame.id = some id) : id ∈ s.issued := by
  rcases hwhy with ⟨-, call, hcall, hframe⟩ | ⟨_, _, rfl, -⟩ | ⟨id', element, rfl, hc, -⟩
  · rw [hcall] at ha
    cases call with
    | remove | read | write =>
      cases hframe
      cases hid
      exact ha
    | dropRead | dropWrite =>
      cases hframe
      cases hid
      exact ha.1
    | _ => cases hframe
  · cases hid
  · cases hid
    exact h.kept.moveOut _ _ hc

/-- A thread that enters a call of a header. -/
theorem State.Known.goes_enter (h : s.Known build) (ha : Allowed s e) {frame : Frame E} {header : Header.State T}
    (hwhy : EntersHeader s e frame)
    (hstep : Header.step build (s.header frame.address) (.call e.thread frame.call) = some header)
    (hstore : s'.storeId = s.storeId) (hissued : s'.issued = s.issued)
    (hheader : s'.header = Function.update s.header frame.address header)
    (hvalue : ∀ address, isOccupied (s.header address).word = true → s'.value address = s.value address) :
    s'.map = s.map ∧ ∀ seen, (Control.header frame).Stands s' e.thread (.pending frame.origin seen) := by
  have hinv := Header.reachable_inv (h.sound.linked.header frame.address)
  have hallowed := h.sound.linked.enters_allowed ha hwhy
  obtain ⟨-, hdone, hword, hlocks, -⟩ := h.sound.linked.entered ha hwhy hstep
  have hself : s'.header frame.address = header := by rw [hheader, Function.update_self]
  constructor
  · refine State.map_congr fun address => ?_
    by_cases haddress : address = frame.address
    · rw [haddress]
      exact ⟨hstore, by rw [hself, hword], by rw [hself, hword], by rw [hself, hlocks], hvalue _⟩
    · have hother : s'.header address = s.header address := by rw [hheader, Function.update_of_ne haddress]
      exact ⟨hstore, by rw [hother], by rw [hother], by rw [hother], hvalue _⟩
  · intro seen
    have hstart : (s'.header frame.address).control e.thread = .ofChecked (Header.start build frame.call) := by
      rw [hself]
      cases Header.Move.of_step hstep with
      | call hidle => exact Function.update_self ..
    refine (Control.stands_underway (by rw [hself]; exact hdone)).2 ⟨seen, rfl, ?_⟩
    refine ⟨fun id hid => by rw [hissued]; exact h.known_enter ha hwhy hid, ?_, ?_, ?_⟩
    · intro attempt id method hattempt
      obtain ⟨hcall, haddress, -⟩ := Frame.attempt_call hattempt
      rw [← haddress, hstart, hcall]
      exact Header.start_standing
    · rintro id element rfl
      rcases hwhy with ⟨-, call, -, hframe⟩ | ⟨_, _, hframe, -⟩ | ⟨_, _, hframe, hc, helement⟩
      · cases call <;> cases hframe
      · cases hframe
      · cases hframe
        obtain ⟨-, -, hocc, -⟩ := hinv.of_write_lock (h.sound.linked.locked _ _ hc)
        rw [hvalue id.slotAddress hocc]
        exact helement
    · intro hfull
      rw [hstart] at hfull
      exact absurd hfull (Header.start_not_full hinv hallowed)

omit [DecidableEq T] [Fintype T] in
theorem serves_attempt_returned {attempt : Header.Attempt} {id : UInt32} {timeout : Timeout}
    {result : Header.Return} (h : (Header.Control.returned result).Serves (attempt.call id timeout)) :
    result = attempt.answer id (.ok true) ∨ result = attempt.answer id (.ok false) ∨
      result = attempt.answer id (.error .timedOut) := by
  rcases h with h | ⟨attempt', id', timeout', won, hcall, h⟩
  · cases attempt <;> exact absurd h not_false
  · obtain ⟨rfl, rfl⟩ : attempt' = attempt ∧ id' = id := by
      cases attempt <;> cases attempt' <;> cases hcall <;> exact ⟨rfl, rfl⟩
    rcases h with ⟨-, h⟩ | ⟨-, -, h⟩ | ⟨-, -, -, h⟩
    · exact Or.inl h
    · exact Or.inr (Or.inl h)
    · exact Or.inr (Or.inr h)

omit [DecidableEq T] [Fintype T] in
/-- What the method makes of a timeout. -/
theorem resume_timedOut {frame : Frame E} {attempt : Header.Attempt} {id : Id} {method : Method} {storeId : UInt64}
    {control : Checked (Control E)} (hattempt : frame.attempt = some (attempt, id, method))
    (htimeout : method.timeout ≠ .blockIndefinitely)
    (hres : frame.resume storeId (attempt.answer id.ordinal (.error .timedOut)) = some control) :
    ∃ result, Control.ofChecked control = .returned result ∧ Map.TimesOut frame.origin result := by
  cases method with
  | plain => exact absurd rfl htimeout
  | withTimeout timeout =>
    cases frame with
    | read =>
      cases hattempt
      cases hres
      exact ⟨_, rfl, .read htimeout⟩
    | write =>
      cases hattempt
      cases hres
      exact ⟨_, rfl, .write htimeout⟩
    | remove =>
      cases hattempt
      cases hres
      exact ⟨_, rfl, .remove htimeout⟩
    | _ => cases hattempt

/-- A method goes on once its call of a header has taken effect. -/
theorem State.Known.resume_done (h : s.Known build) {frame : Frame E} {result : Header.Return}
    {control : Checked (Control E)} (hc : s.control t = .header frame)
    (hr : (s.header frame.address).control t = .returned result)
    (hdone : ((s.header frame.address).control t).done = true)
    (hres : frame.resume s.storeId result = some control) (hvalue : s'.value = s.value) :
    (Control.ofChecked control).Stands s' t (.done (s.outcome frame)) := by
  have hserves := h.sound.linked.serves t frame hc
  rw [hr] at hserves hdone
  cases frame with
  | occupy address element =>
    rcases serves_occupy hserves with hrun | ⟨ordinal, hret⟩
    · cases hrun
    · cases hret
      cases hres
      have hordinal := (h.kept.pending t address ordinal ⟨element, hc, hr⟩).2
      exact congrArg (fun ordinal => Phase.done (Return.insert (Id.mk ordinal address s.storeId))) hordinal
  | remove id method =>
    rcases serves_remove_returned hserves with rfl | rfl | rfl
    · cases hres
      exact congrArg (fun value => Phase.done (Return.remove (.ok (value id.slotAddress)))) hvalue.symm
    · cases hdone
    · cases hdone
  | removeLocked id element =>
    obtain rfl := serves_removeLocked_returned hserves
    cases hres
    show (afterMove id _ (.removeLocked element)).Stands s' t _
    unfold afterMove
    split <;> rfl
  | read id method =>
    rcases @serves_attempt_returned .lockRead _ _ _ hserves with rfl | rfl | rfl
    · cases hres
      cases method <;> rfl
    · cases hdone
    · cases hdone
  | write id method =>
    rcases @serves_attempt_returned .lockWrite _ _ _ hserves with rfl | rfl | rfl
    · cases hres
      cases method <;> rfl
    · cases hdone
    · cases hdone
  | dropRead id | dropWrite id =>
    cases result <;> cases hres
    rfl

/-- The calls that may fail bring no element, and return none if they do. -/
theorem attempt_element {frame : Frame E} (h : frame.attempt.isSome = true) {result : Return E}
    (hresult : (∃ id, frame.origin.missed = some (id, result)) ∨ Map.TimesOut frame.origin result) :
    result.element = none := by
  cases frame with
  | remove | read | write =>
    rcases hresult with ⟨id, hmissed⟩ | htimes
    · cases hmissed
      rfl
    · cases htimes
      rfl
  | _ => cases h

omit [Fintype T] in
/-- Only a call that may fail returns without an effect. -/
theorem State.Known.attempt_failed (h : s.Known build) {frame : Frame E} {result : Header.Return}
    {control : Checked (Control E)} (hc : s.control t = .header frame)
    (hr : (s.header frame.address).control t = .returned result)
    (hdone : ((s.header frame.address).control t).done = false)
    (hres : frame.resume s.storeId result = some control) : frame.attempt.isSome = true := by
  have hserves := h.sound.linked.serves t frame hc
  rw [hr] at hserves hdone
  cases frame with
  | occupy address element =>
    rcases serves_occupy hserves with hrun | ⟨ordinal, hret⟩
    · cases hrun
    · cases hret
      cases hdone
  | removeLocked id element =>
    obtain rfl := serves_removeLocked_returned hserves
    cases hdone
  | dropRead id | dropWrite id =>
    cases result <;> cases hres
    cases hdone
  | _ => rfl

/-- A method goes on once its call of a header has failed. -/
theorem State.Known.resume_failed (h : s.Known build) {frame : Frame E} {result : Header.Return}
    {control : Checked (Control E)} (hc : s.control t = .header frame)
    (hr : (s.header frame.address).control t = .returned result)
    (hdone : ((s.header frame.address).control t).done = false)
    (hres : frame.resume s.storeId result = some control) {seen : Set (Map T E)} (hunderway : s.Underway t frame seen) :
    ∃ answer, answer.element = none ∧ Control.ofChecked control = .returned answer ∧
      (Map.object T E).Goes t s.map (.pending frame.origin seen) [] s.map (.done answer) := by
  have hsome := h.attempt_failed hc hr hdone hres
  obtain ⟨⟨attempt, id, method⟩, hattempt⟩ := Option.isSome_iff_exists.1 hsome
  obtain ⟨hcall, haddress, -⟩ := Frame.attempt_call hattempt
  have hstanding := hunderway.standing attempt id method hattempt
  rw [← haddress, hr] at hstanding
  rcases hstanding with ⟨hwon, -⟩ | ⟨-, hgone, rfl⟩ | ⟨-, hbusy, htimeout, rfl⟩
  · cases hwon
  · obtain ⟨answer, hmissed, horigin⟩ : ∃ answer, frame.missed = some (id, answer) ∧
        frame.origin.missed = some (id, answer) := by
      cases frame <;> cases hattempt <;> exact ⟨_, rfl, rfl⟩
    refine ⟨answer, attempt_element hsome (Or.inl ⟨id, horigin⟩), ?_,
      Object.Goes.effect (Map.Effect.miss horigin (State.entry_gone hgone))⟩
    rw [resume_missed hmissed hcall hres]
  · obtain ⟨answer, hresult, htimes⟩ := resume_timedOut hattempt htimeout hres
    exact ⟨answer, attempt_element hsome (Or.inr htimes), hresult, Object.Goes.giveUp hbusy htimes⟩

omit [Fintype T] in
/-- A thread that comes back from a header leaves the map as it is. -/
theorem State.map_left {address : SlotAddress} {header : Header.State T}
    (hstep : Header.step build (s.header address) (.ret t) = some header) (hstore : s'.storeId = s.storeId)
    (hheader : s'.header = Function.update s.header address header) (hvalue : s'.value = s.value) :
    s'.map = s.map := by
  have hself : s'.header address = (s.header address).setControl t .idle := by
    rw [hheader, Function.update_self, header_left hstep]
  refine State.map_congr fun other => ?_
  by_cases ho : other = address
  · rw [ho]
    exact ⟨hstore, by rw [hself]; rfl, by rw [hself]; rfl, by rw [hself]; rfl, fun _ => by rw [hvalue]⟩
  · have hother : s'.header other = s.header other := by rw [hheader, Function.update_of_ne ho]
    exact ⟨hstore, by rw [hother], by rw [hother], by rw [hother], fun _ => by rw [hvalue]⟩

/-- A method after its call of a header has returned. -/
theorem State.Known.goes_resume (h : s.Known build) {frame : Frame E} {header : Header.State T}
    {result : Header.Return} {control : Checked (Control E)} (hc : s.control t = .header frame)
    (hr : (s.header frame.address).control t = .returned result)
    (hstep : Header.step build (s.header frame.address) (.ret t) = some header)
    (hres : frame.resume s.storeId result = some control)
    {phase : Phase (Map T E) (Call E) (Return E)} (hst : (Control.header frame).Stands s t phase) :
    s.Answers (((s.setHeader frame.address header).noteIssued frame result).setControl t (.ofChecked control))
      t phase [] := by
  have hmap : (((s.setHeader frame.address header).noteIssued frame result).setControl t
      (.ofChecked control)).map = s.map := State.map_left hstep (by simp) (by simp) (by simp)
  unfold State.Answers
  rw [hmap, State.setControl_self]
  cases hdone : ((s.header frame.address).control t).done with
  | true =>
    obtain rfl := (Control.stands_done hdone).1 hst
    exact ⟨_, Object.Goes.stay _, h.resume_done hc hr hdone hres (by simp)⟩
  | false =>
    obtain ⟨seen, rfl, hunderway⟩ := (Control.stands_underway hdone).1 hst
    obtain ⟨answer, -, hcontrol, hgoes⟩ := h.resume_failed hc hr hdone hres hunderway
    rw [hcontrol]
    exact ⟨_, hgoes, rfl⟩

end Header

/-! ## Calls that take effect at once -/

section Calls

omit [Fintype T] in
theorem State.Sound.quiet_locks (h : s.Sound build) (hquiet : s.Quiet) {address : SlotAddress}
    (hocc : isOccupied (s.header address).word = true) (t : T) : (s.header address).locks t = [] := by
  have hlocation : address.location ∈ (s.bucket address.bucket).inner.locations :=
    Bucket.Inner.mem_locations.2 (h.handedOut hocc).1
  exact (hquiet t).2 address (List.mem_flatMap.2 ⟨address.bucket, List.mem_finRange _,
    List.mem_map.2 ⟨address.location, hlocation, rfl⟩⟩)

omit [Fintype T] in
/-- In a store that nobody is using every element is free. -/
theorem State.Sound.quiet_free (h : s.Sound build) (hquiet : s.Quiet) {id : Id} {entry : Entry T E}
    (hentry : s.map.entry id = some entry) : entry.Free := by
  obtain ⟨hp, -, -, hlocks⟩ := State.present_of_entry hentry
  intro u kind
  rw [hlocks, Header.State.lockCount_nil (h.quiet_locks hquiet hp.1)]

/-- A thread that holds a lock holds it on the map. -/
theorem State.Known.held (h : s.Known build) {kind : Header.LockKind} {id : Id} (hholds : s.Holds u kind id) :
    ∃ value, s.value id.slotAddress = some value ∧ s.Present id ∧
      s.map.entry id = some ⟨value, (s.header id.slotAddress).lockCount id.ordinal⟩ ∧
        0 < (s.header id.slotAddress).lockCount id.ordinal u kind := by
  have hinv := Header.reachable_inv (h.sound.linked.header id.slotAddress)
  have hp : s.Present id := by
    cases kind with
    | read =>
      obtain ⟨hid, -, -, hocc⟩ := hinv.of_read_lock hholds.2
      exact ⟨hocc, hid⟩
    | write =>
      obtain ⟨hid, -, hocc, -⟩ := hinv.of_write_lock hholds.2
      exact ⟨hocc, hid⟩
  obtain ⟨value, hvalue, hentry⟩ := h.sound.filled.entry (h.noted.storeId id hholds.1) hp
  exact ⟨value, hvalue, hp, hentry, Header.State.lockCount_pos.2 hholds.2⟩

/-- The items of `iter_mut`. -/
theorem State.Known.enumerates (h : s.Known build) (hquiet : s.Quiet) (steps : ℕ) :
    s.map.Enumerates steps (s.items.take steps) := by
  have hyields := (h.sound.still h.noted hquiet).yields build 0 (Nat.le_refl s.callDepth)
  have hpresent : ∀ item ∈ s.items, ∃ entry, s.map.entry item.1 = some entry ∧ entry.value = item.2 := by
    rintro ⟨id, element⟩ hmem
    obtain ⟨hid, hocc, hvalue, hissued, -⟩ := hyields.present id element hmem
    have hp : s.Present id := ⟨hocc, (congrArg Id.ordinal hid).symm⟩
    exact ⟨_, State.entry_present hp (h.noted.storeId id hissued) hvalue, rfl⟩
  constructor
  · exact fun item hmem => hpresent item (List.mem_of_mem_take hmem)
  · have hnodup : (s.items.map Prod.fst).Nodup :=
      List.Nodup.of_map Id.slotAddress (by rw [List.map_map]; exact hyields.nodup)
    rw [List.map_take]
    exact hnodup.sublist (List.take_sublist _ _)
  · exact List.length_take_le _ _
  · intro hlt id entry hentry
    obtain ⟨hp, hstore, hvalue, -⟩ := State.present_of_entry hentry
    have hall : s.items.take steps = s.items := by
      rw [List.length_take] at hlt
      exact List.take_of_length_le (by omega)
    have hid : id = s.idAt id.slotAddress := Id.ext_at hp.2.symm rfl hstore
    rw [hall, hid]
    exact hyields.complete id.slotAddress entry.value hp.1 hvalue

/-- A call that only looks at elements. -/
theorem State.Known.look (h : s.Known build) {call : Call E} {result : Return E} (ha : s.CallAllowed t call)
    (hlook : Looks build s call result) : s.map.Effect t call result s.map := by
  cases hlook with
  | @deref kind id element hv =>
    obtain ⟨u, hholds⟩ := ha
    obtain ⟨value, hvalue, -, hentry, hpos⟩ := h.held hholds
    obtain rfl : value = element := Option.some.inj (hvalue.symm.trans hv)
    exact .deref hentry ⟨u, hpos⟩
  | @getMut id element hv =>
    obtain ⟨hid, hquiet⟩ := ha
    rcases getExclusive_cases build (s.slot id.slotAddress) id.ordinal with ⟨hne, heq⟩ | ⟨hord, value, hvalue, heq⟩ |
      ⟨-, fault, -, heq⟩
    · cases heq.symm.trans hv
      exact .miss rfl (State.entry_gone fun hp => hne hp.2)
    · cases heq.symm.trans hv
      have hentry := State.entry_present ((h.sound.present_iff hid).2 hord) (h.noted.storeId id hid) hvalue
      exact .getMut hentry (h.sound.quiet_free hquiet hentry)
    · cases heq.symm.trans hv
  | @replaceMut id element hne => exact .miss rfl (State.entry_gone fun hp => hne hp.2)
  | @iterMut stack steps items iter slots hv =>
    rcases (h.sound.still h.noted ha).iterMut build stack steps with ⟨hover, -⟩ | ⟨iter', heq⟩
    · cases hover.symm.trans hv
    · cases heq.symm.trans hv
      exact .iterMut (fun id entry hentry => h.sound.quiet_free ha hentry) (h.enumerates ha steps)

omit [DecidableEq T] [Fintype T] in
/-- The entry of an element after it has been replaced. -/
theorem State.map_setValue {id : Id} {element : E} {entry : Entry T E} (hstore : s'.storeId = s.storeId)
    (hheader : s'.header = s.header) (hvalue : s'.value = Function.update s.value id.slotAddress (some element))
    (hentry : s.map.entry id = some entry) : s'.map = s.map.set id (some { entry with value := element }) := by
  obtain ⟨hp, hid, -, hlocks⟩ := State.present_of_entry hentry
  have hp' : s'.Present id := by
    unfold State.Present
    rw [hheader]
    exact hp
  have hother : ∀ address, address ≠ id.slotAddress → s.Agrees s' address := by
    intro address hne
    exact ⟨hstore, by rw [hheader], by rw [hheader], by rw [hheader], fun _ => by
      rw [hvalue, Function.update_of_ne hne]⟩
  rw [State.map_set hstore hid hother hp hp', State.entry_present hp' (hid.trans hstore.symm)
    (by rw [hvalue, Function.update_self]), hheader, hlocks]

/-- A call that replaces an element. -/
theorem State.Known.replace (h : s.Known build) {call : Call E} {address : SlotAddress} {element : E}
    {result : Return E} (ha : s.CallAllowed t call) (hreplace : Replaces s call address element result)
    (hstore : s'.storeId = s.storeId) (hheader : s'.header = s.header)
    (hvalue : s'.value = Function.update s.value address (some element)) : s.map.Effect t call result s'.map := by
  cases hreplace with
  | @replace id _ old hv =>
    obtain ⟨value, hvalue', -, hentry, hpos⟩ := h.held ha
    obtain rfl : value = old := Option.some.inj (hvalue'.symm.trans hv)
    rw [State.map_setValue hstore hheader hvalue hentry]
    exact .replace hentry hpos
  | @replaceMut id _ old hv hord =>
    have hentry := State.entry_present ((h.sound.present_iff ha.1).2 hord) (h.noted.storeId id ha.1) hv
    rw [State.map_setValue hstore hheader hvalue hentry]
    exact .replaceMut hentry (h.sound.quiet_free ha.2 hentry)

/-- No call fails at once. -/
theorem State.Known.no_callFault (h : s.Known build) {call : Call E} {fault : Fault} (ha : s.CallAllowed t call) :
    ¬CallFault build s call fault := by
  rintro (⟨hid, hfault⟩ | ⟨haddress, hfault⟩ | ⟨hfault, hgoes⟩)
  · rename_i id
    have hissued : id ∈ s.issued := by
      cases call with
      | remove | read | write =>
        cases hid
        exact ha
      | removeLocked | getMut | replaceMut =>
        cases hid
        exact ha.1
      | _ => cases hid
    rw [assertNativeId_ok h.noted hissued] at hfault
    cases hfault
  · have hsome : ∀ address, isOccupied (s.header address).word = true →
        contentsPtr build (s.value address) ≠ .error fault := by
      intro address hocc herr
      obtain ⟨value, hvalue⟩ := Option.isSome_iff_exists.1 (h.sound.filled.occupied address hocc)
      rw [hvalue] at herr
      cases herr
    cases call with
    | deref kind id =>
      cases haddress
      obtain ⟨u, hholds⟩ := ha
      obtain ⟨-, -, hp, -⟩ := h.held hholds
      exact hsome _ hp.1 hfault
    | replace id element =>
      cases haddress
      obtain ⟨-, -, hp, -⟩ := h.held ha
      exact hsome _ hp.1 hfault
    | getMut id | replaceMut id element =>
      simp only [Call.accesses] at haddress
      split at haddress
      · rename_i hord
        cases haddress
        exact hsome _ ((h.sound.present_iff ha.1).2 hord).1 hfault
      · cases haddress
    | _ => cases haddress
  · rcases (h.sound.still h.noted ha).iterMut build _ _ with ⟨hover, -⟩ | ⟨iter, heq⟩
    · cases hover.symm.trans hfault
      exact hgoes rfl
    · cases heq.symm.trans hfault

end Calls

/-! ## One step -/

section Step

variable {phase phase' : Phase (Map T E) (Call E) (Return E)} {actions : List (Object.Action T (Call E) (Return E))}
  {control : Control E}

theorem Control.Stands.at (hst : (s.control t).Stands s t phase) (hc : s.control t = control) :
    control.Stands s t phase := by
  rw [← hc]
  exact hst

theorem State.Answers.of_goes (hc' : s'.control t = control)
    (hgoes : (Map.object T E).Goes t s.map phase actions s'.map phase') (hst : control.Stands s' t phase') :
    s.Answers s' t phase actions := by
  refine ⟨phase', hgoes, ?_⟩
  rw [hc']
  exact hst

/-- A step that nobody sees. -/
theorem State.Answers.of_silent (hc' : s'.control t = control) (hmap : s'.map = s.map)
    (hst : control.Stands s' t phase) : s.Answers s' t phase [] := by
  refine .of_goes hc' ?_ hst
  rw [hmap]
  exact .stay phase

theorem Call.frame_origin {call : Call E} {frame : Frame E} (h : call.frame = some frame) : frame.origin = call := by
  cases call <;> cases h <;> rfl

/-- A call is answered on the map. -/
theorem State.Known.goes_call (h : s.Known build) {call : Call E} (hm : Move build s (.call t call) s')
    (ha : Allowed s (.call t call)) : s.Answers s' t .idle [.call t call] := by
  cases hm with
  | @insert _ element hc =>
    refine .of_goes (State.setControl_self ..) ?_ ⟨∅, rfl⟩
    rw [State.map_eq rfl rfl rfl]
    exact .call
  | @enter _ _ frame header hc hframe hh =>
    have hstore : ((s.setHeader frame.address header).setControl t (.header frame)).storeId = s.storeId := rfl
    obtain ⟨hmap, hst⟩ := h.goes_enter ha (Or.inl ⟨hc, call, rfl, hframe⟩) hh hstore rfl
      (State.setHeader_header ..) fun _ _ => congrFun (State.setHeader_value ..) _
    refine .of_goes (State.setControl_self ..) ?_ (hst ∅)
    rw [hmap, Call.frame_origin hframe]
    exact .call
  | @removeLocked _ id hc =>
    refine .of_goes (State.setControl_self ..) ?_ ⟨∅, rfl⟩
    rw [State.map_eq rfl rfl rfl]
    exact .call
  | @capacity _ bucket hc hb =>
    refine .of_goes (State.setControl_self ..) ?_ ⟨∅, rfl⟩
    rw [State.map_eq rfl rfl rfl]
    exact .call
  | @look _ _ result hc hlook =>
    refine .of_goes (State.setControl_self ..) ?_ rfl
    rw [State.map_eq rfl rfl rfl]
    exact .trans .call (.effect (h.look ha hlook))
  | @replace _ _ address element result hc hreplace =>
    refine .of_goes (State.setControl_self ..) ?_ rfl
    exact .trans .call (.effect (h.replace ha hreplace rfl (State.setValue_header ..) (State.setValue_value ..)))
  | @callFault _ _ fault hc hfault => exact absurd hfault (h.no_callFault ha)

/-- `insert` goes on to the header of its slot. -/
theorem State.Known.enters_place (h : s.Known build) {element : E} {address : SlotAddress} {header : Header.State T}
    (hc : s.control t = .place element address)
    (hh : Header.step build (s.header address) (.call t .occupy) = some header)
    (hs' : s' = ((s.setValue address element).setHeader address header).setControl t
      (.header (.occupy address element))) :
    s'.map = s.map ∧ ∀ seen, (Control.header (.occupy address element)).Stands s' t (.pending (.insert element) seen) := by
  subst hs'
  obtain ⟨class_, hclass⟩ := h.sound.classified
  have hwhy : EntersHeader s (.act t false) (.occupy address element) := Or.inr (Or.inl ⟨address, element, rfl, hc⟩)
  have hfree : isOccupied (s.header address).word = false := by
    rw [Bool.eq_false_iff]
    intro hocc
    exact (hclass.occupied_iff hocc).1 t (State.roles_place hc).1
  have hstore : (((s.setValue address element).setHeader address header).setControl t
    (.header (.occupy address element))).storeId = s.storeId := rfl
  refine h.goes_enter (show Allowed s (.act t false) from trivial) hwhy hh hstore rfl ?_ fun other hocc => ?_
  · rw [State.setControl_header, State.setHeader_header, State.setValue_header]
    rfl
  · have hne : other ≠ address := by
      rintro rfl
      rw [hfree] at hocc
      cases hocc
    rw [State.setControl_value, State.setHeader_value, State.setValue_value, Function.update_of_ne hne]

/-- `remove_locked` goes on to the header of its slot. -/
theorem State.Known.enters_moveOutLocked (h : s.Known build) {id : Id} {element : E} {header : Header.State T}
    (hc : s.control t = .moveOutLocked id) (hv : s.value id.slotAddress = some element)
    (hh : Header.step build (s.header id.slotAddress) (.call t (.removeLocked id.ordinal)) = some header)
    (hs' : s' = (s.setHeader id.slotAddress header).setControl t (.header (.removeLocked id element))) :
    s'.map = s.map ∧ ∀ seen, (Control.header (.removeLocked id element)).Stands s' t (.pending (.removeLocked id) seen) := by
  subst hs'
  have hwhy : EntersHeader s (.act t false) (.removeLocked id element) := Or.inr (Or.inr ⟨id, element, rfl, hc, hv⟩)
  have hstore : ((s.setHeader id.slotAddress header).setControl t
    (.header (.removeLocked id element))).storeId = s.storeId := rfl
  exact h.goes_enter (show Allowed s (.act t false) from trivial) hwhy hh hstore rfl (State.setHeader_header ..)
    fun _ _ => congrFun (State.setHeader_value ..) _

/-- The element of a removal is there. -/
theorem State.Known.no_moveFault (h : s.Known build) {id : Id} {fault : Fault}
    (hc : s.control t = .moveOutLocked id ∨ ∃ method mayReuse, s.control t = .moveOut id method mayReuse) :
    assumeInit build (s.value id.slotAddress) ≠ .error fault := by
  intro hv
  rcases hc with hc | ⟨method, mayReuse, hc⟩
  · have hinv := Header.reachable_inv (h.sound.linked.header id.slotAddress)
    obtain ⟨-, -, hocc, -⟩ := hinv.of_write_lock (h.sound.linked.locked t id hc)
    obtain ⟨value, hvalue⟩ := Option.isSome_iff_exists.1 (h.sound.filled.occupied _ hocc)
    rw [hvalue] at hv
    cases hv
  · exact h.sound.filled.moveOut hc hv

/-- A step of a thread inside a call is answered on the map. -/
theorem State.Known.goes_act (h : s.Known build) {spurious : Bool} (hm : Move build s (.act t spurious) s')
    (hst : (s.control t).Stands s t phase) : s.Answers s' t phase [] := by
  obtain ⟨class_, hclass⟩ := h.sound.classified
  cases hm with
  | @reuse _ _ element address rest hc hq =>
    obtain ⟨seen, rfl⟩ := hst.at hc
    exact .of_silent (State.setControl_self ..) (State.map_eq rfl rfl rfl) ⟨seen, rfl⟩
  | @draw _ _ element generator bucket hc hq hg hb =>
    obtain ⟨seen, rfl⟩ := hst.at hc
    exact .of_silent (State.setControl_self ..) (State.map_eq rfl rfl rfl) ⟨seen, rfl⟩
  | @place _ _ element address header hc hh =>
    obtain ⟨seen, rfl⟩ := hst.at hc
    obtain ⟨hmap, hst'⟩ := h.enters_place hc hh rfl
    exact .of_silent (State.setControl_self ..) hmap (hst' seen)
  | @bucketStep _ _ frame bucket hc hb =>
    exact .of_silent hc (State.map_eq rfl rfl rfl) (hst.at hc)
  | @located _ _ b element location bucket hc hr hb =>
    obtain ⟨seen, rfl⟩ := hst.at hc
    exact .of_silent (State.setControl_self ..) (State.map_eq rfl rfl rfl) ⟨seen, rfl⟩
  | @addedNext _ _ b _ _ _ _ _ _ _ _ hc =>
    obtain ⟨seen, rfl⟩ := hst.at hc
    exact .of_silent (State.setControl_self ..) (State.map_eq rfl rfl rfl) ⟨seen, rfl⟩
  | @addedLast _ _ b _ _ _ _ _ _ _ hc =>
    obtain ⟨seen, rfl⟩ := hst.at hc
    refine .of_goes (State.setControl_self ..) ?_ rfl
    rw [State.map_eq rfl rfl rfl]
    exact .effect .capacity
  | @addFault _ _ b _ _ _ _ _ _ hc =>
    obtain ⟨seen, rfl⟩ := hst.at hc
    refine .of_goes (State.setControl_self ..) ?_ rfl
    rw [State.map_eq rfl rfl rfl]
    exact .trans .see (.fail ⟨s.map, Set.mem_insert _ _, trivial⟩)
  | @bucketFault _ _ frame fault bucket hc hr hb =>
    obtain ⟨seen, rfl⟩ := hst.at hc
    obtain ⟨unwound, heq⟩ := (s.setBucket frame.bucket bucket).unwindBucket_eq t fault frame
    rw [heq]
    refine .of_goes (State.setControl_self ..) ?_ rfl
    rw [State.map_eq rfl rfl rfl]
    refine .trans .see (.fail ⟨s.map, Set.mem_insert _ _, ?_⟩)
    cases frame <;> trivial
  | @headerStep _ _ frame header hc hh =>
    exact h.goes_header (h.sound.linked.goes_allowed hclass hc (Or.inl ⟨spurious, rfl⟩)) hc rfl nofun hh (hst.at hc)
  | @resume _ _ frame result header control hc hr hh hres => exact h.goes_resume hc hr hh hres (hst.at hc)
  | @headerFault _ _ frame fault header hc hr hh =>
    have hdone : ((s.header frame.address).control t).done = false := by
      rw [hr]
      rfl
    obtain ⟨seen, rfl, hunderway⟩ := (Control.stands_underway hdone).1 (hst.at hc)
    have hfull : ((s.header frame.address).control t).Full := by
      rw [hr]
      trivial
    refine .of_goes (State.setControl_self ..) ?_ rfl
    have hstore : ((s.setHeader frame.address header).setControl t (.faulted fault)).storeId = s.storeId := rfl
    rw [State.map_left hh hstore (State.setHeader_header ..) (State.setHeader_value ..)]
    exact .fail (hunderway.full hfull)
  | @moveOut _ _ id method mayReuse element hc hv =>
    obtain rfl := hst.at hc
    refine .of_silent (State.setControl_self ..) (State.map_eq rfl rfl rfl) ?_
    rw [hv]
    unfold afterMove
    split <;> rfl
  | @moveOutLocked _ _ id element header hc hv hh =>
    obtain ⟨seen, rfl⟩ := hst.at hc
    obtain ⟨hmap, hst'⟩ := h.enters_moveOutLocked hc hv hh rfl
    exact .of_silent (State.setControl_self ..) hmap (hst' seen)
  | @moveFault _ _ id fault hc hv => exact absurd hv (h.no_moveFault hc)
  | @push _ _ id result hc =>
    obtain rfl := hst.at hc
    exact .of_silent (State.setControl_self ..) (State.map_eq rfl rfl rfl) rfl

/-- Every step is answered on the map. -/
theorem State.Known.goes (h : s.Known build) (hm : Move build s e s') (ha : Allowed s e)
    (hst : (s.control e.thread).Stands s e.thread phase) : s.Answers s' e.thread phase (s.shows e) := by
  obtain ⟨class_, hclass⟩ := h.sound.classified
  cases e with
  | call t call =>
    have hidle : s.control t = .idle := by cases hm <;> assumption
    obtain rfl := hst.at hidle
    exact h.goes_call hm ha
  | act t spurious => exact h.goes_act hm hst
  | expire t =>
    cases hm with
    | @expire _ frame header hc hh =>
      exact h.goes_header (h.sound.linked.goes_allowed hclass hc (Or.inr rfl)) hc rfl nofun hh (hst.at hc)
  | ret t =>
    cases hm with
    | @ret _ result hc =>
      obtain rfl := hst.at hc
      have hshows : s.shows (.ret t) = [.ret t (some result)] := by rw [State.shows, hc]
      rw [hshows]
      refine .of_goes (State.setControl_self ..) ?_ rfl
      rw [show (s.finish t result).map = s.map from State.map_eq rfl rfl rfl]
      exact .ret
    | @retFault _ fault hc =>
      obtain rfl := hst.at hc
      have hshows : s.shows (.ret t) = [.ret t none] := by rw [State.shows, hc]
      rw [hshows]
      refine .of_goes (State.setControl_self ..) ?_ rfl
      rw [State.map_eq rfl rfl rfl]
      exact .retFailed
  | elsewhere t =>
    cases hm with
    | @elsewhere _ hc =>
      obtain rfl := hst.at hc
      exact .of_silent hc (State.map_eq rfl rfl rfl) rfl

end Step

/-! ## Whole runs -/

section Runs

omit [DecidableEq T] [Fintype T] in
theorem State.init_map (storeId : UInt64) (generator : T → UInt32) :
    (State.init storeId generator : State T E).map = Map.init := by
  have hgone : ∀ id, ¬(State.init storeId generator : State T E).Present id := by
    rintro id ⟨hocc, -⟩
    have hword : isOccupied (Header.unoccupiedBits 0) = true := hocc
    exact absurd hword (by decide)
  refine Map.ext (funext fun id => State.entry_gone (hgone id)) (funext fun id => propext ?_)
  refine iff_of_false ?_ not_false
  rintro ⟨-, hlt | hp⟩
  · exact Nat.not_lt_zero _ hlt
  · exact hgone id hp

theorem known_of_reachable (h : ((machine build T E).restrict State.NoWrap).Reachable s) : s.Known build :=
  ⟨(kept_of_reachable h).1, (kept_of_reachable h).2.1, (kept_of_reachable h).2.2⟩

/-- The shared map simulates the store. -/
theorem simulates (build : Build) (T E : Type) [Fintype T] [DecidableEq T] :
    ((machine build T E).restrict State.NoWrap).Simulates (Map.object T E).shared State.shows
      Object.Event.visible State.Matches where
  init := by
    rintro _ ⟨storeId, generator, rfl⟩
    exact ⟨⟨.init, fun _ => .idle⟩, ⟨rfl, fun _ => rfl⟩, ⟨(State.init_map ..).symm, fun _ => rfl⟩⟩
  step := by
    rintro s e s' ⟨m, phase⟩ hs ⟨hobject, hphase⟩ hstep
    have h := known_of_reachable hs
    have h' := known_of_reachable (hs.step hstep)
    have ha := hstep.2.1
    have hm := Move.of_step hstep.2.2
    obtain rfl : m = s.map := hobject
    obtain ⟨phase', hgoes, hst⟩ := h.goes hm ha (hphase e.thread)
    obtain ⟨es, hpath, hes⟩ := hgoes ⟨s.map, phase⟩ rfl rfl
    refine ⟨es, _, hpath, hes, rfl, fun u => ?_⟩
    by_cases hu : u = e.thread
    · rw [hu]
      show (s'.control e.thread).Stands s' e.thread (Function.update phase e.thread phase' e.thread)
      rw [Function.update_self]
      exact hst
    · show (s'.control u).Stands s' u (Function.update phase e.thread phase' u)
      rw [Function.update_of_ne hu]
      exact h.sound.stands_other h'.sound h.kept h'.kept hm ha hu (hphase u)

/-- A store is linearizable: whatever its callers see of a run, they could have seen of the map, whose
operations take effect at once. -/
theorem linearizable (build : Build) (T E : Type) [Fintype T] [DecidableEq T] (n : ℕ) (state : ℕ → State T E)
    (event : ℕ → Event T E) (hrun : ((machine build T E).restrict State.NoWrap).Run n state event) :
    ∃ a es a', (Map.object T E).shared.init a ∧ (Map.object T E).shared.Path a es a' ∧
      es.flatMap Object.Event.visible = Transition.System.history State.shows state event n ∧
        a'.object = (state n).map := by
  obtain ⟨a, es, a', ha, hpath, hhistory, hmatch⟩ := (simulates build T E).run hrun
  exact ⟨a, es, a', ha, hpath, hhistory, hmatch.object⟩

end Runs

/-- The second thread meets the lock that the first one has taken on its element, and gives up. -/
def meetsLock : List (Event (Fin 2) Bool) :=
  wholeCall 0 (.insert true) 13 ++ wholeCall 0 (.write ⟨0, ⟨9, ⟨0, 0⟩⟩, 0⟩ .plain) 2 ++
    wholeCall 1 (.read ⟨0, ⟨9, ⟨0, 0⟩⟩, 0⟩ (.withTimeout .dontBlock)) 2

theorem linearizable_meets_lock : ∃ a es a', (Map.object (Fin 2) Bool).shared.init a ∧
    (Map.object (Fin 2) Bool).shared.Path a es a' ∧
      es.flatMap Object.Event.visible =
        [.call 0 (.insert true), .ret 0 (some (.insert ⟨0, ⟨9, ⟨0, 0⟩⟩, 0⟩)),
          .call 0 (.write ⟨0, ⟨9, ⟨0, 0⟩⟩, 0⟩ .plain),
          .ret 0 (some (.write (.ok (some ⟨0, ⟨9, ⟨0, 0⟩⟩, 0⟩)))),
          .call 1 (.read ⟨0, ⟨9, ⟨0, 0⟩⟩, 0⟩ (.withTimeout .dontBlock)),
          .ret 1 (some (.read (.error .timedOut)))] := by
  obtain ⟨a, es, a', ha, hpath, hhistory, -⟩ := linearizable .debug (Fin 2) Bool _ _ _
    (run_of_replay_restrict .debug State.NoWrap 0 (fun _ => 0) meetsLock (.ret 0) (by decide +kernel))
  exact ⟨a, es, a', ha, hpath, hhistory.trans rfl⟩

end ReadWriteStore.Store

import ReadWriteStore.Header.Proofs.RefineProofs

/-!
# Every result is justified

A call of `lock_read`, `lock_write` or `remove` is followed from its first step to its return.
`Standing` says at every point what the steps so far entitle the call to answer: whether one of its own
steps took the operation of the atomic lock, and whether the header was seen with another ID or in a
conflicting mode.
-/

namespace ReadWriteStore.Header

open Transition

/-! ## What a call may answer -/

/-- The call `attempt id timeout`, in the terms of `transition`. -/
def Attempt.Is (attempt : Attempt) (id : UInt32) (caller : Caller) : Prop :=
  match attempt with
  | .lockRead => False
  | .lockWrite => caller = .lockWrite id
  | .remove => caller = .remove id (id + 1)

/-- The closure of the call, with the deadline it was given. -/
def Frame.Of (attempt : Attempt) (id : UInt32) (timeout : Timeout) (deadline : Option Instant)
    (frame : Frame) : Prop :=
  (timeout = .blockIndefinitely → deadline = none) ∧
  match frame with
  | .lockRead id' timeout' => attempt = .lockRead ∧ id' = id ∧ timeout' = timeout
  | .transition _ _ caller => attempt.Is id caller

/-- What the closure may hand back: `won` if a step of the call took the operation, `other` if the
header was seen with another ID. -/
def Response.Standing (won : Bool) (other : Prop) : Frame → Response → Prop
  | .lockRead _ _, .matched _ => won = false
  | .lockRead _ _, .mismatch => won = false ∧ other
  | .transition _ _ _, .transitioned success => won = success ∧ (success = false → other)
  | _, _ => False

/-- What a call may return; `busy` if the header was seen in a conflicting mode. -/
def Return.Standing (attempt : Attempt) (id : UInt32) (timeout : Timeout) (won : Bool)
    (other busy : Prop) (result : Return) : Prop :=
  won = true ∧ result = attempt.answer id (.ok true) ∨
  won = false ∧ other ∧ result = attempt.answer id (.ok false) ∨
  won = false ∧ busy ∧ timeout ≠ .blockIndefinitely ∧ result = attempt.answer id (.error .timedOut)

def Point.Standing (attempt : Attempt) (id : UInt32) (timeout : Timeout) (won : Bool)
    (other busy : Prop) : Point → Prop
  | .lockReadLoad id' timeout' => attempt = .lockRead ∧ id' = id ∧ timeout' = timeout ∧ won = false
  | .lockReadExchange id' _ _ timeout' =>
    attempt = .lockRead ∧ id' = id ∧ timeout' = timeout ∧ won = false
  | .transitionExchange _ _ timeout' caller => attempt.Is id caller ∧ timeout' = timeout ∧ won = false
  | .park frame deadline | .closure frame deadline =>
    frame.Of attempt id timeout deadline ∧ won = false
  | .markExchange frame deadline _ _ | .enqueue frame deadline _ | .parked frame deadline _ =>
    frame.Of attempt id timeout deadline ∧ won = false ∧ busy
  | .leave frame deadline result =>
    frame.Of attempt id timeout deadline ∧
      ∃ response, result = some (.didntPark response) ∧ response.Standing won other frame
  | _ => False

/-- What a call is entitled to where it stands. A call that has panicked answers nothing. -/
def Control.Standing (attempt : Attempt) (id : UInt32) (timeout : Timeout) (won : Bool)
    (other busy : Prop) : Control → Prop
  | .idle => False
  | .running point => point.Standing attempt id timeout won other busy
  | .returned result => result.Standing attempt id timeout won other busy
  | .faulted _ => won = false

section Code

variable {attempt : Attempt} {id : UInt32} {timeout : Timeout} {won : Bool} {other busy : Prop}
  {build : Build} {frame : Frame} {deadline : Option Instant}

theorem Response.Standing.mono {other' : Prop} (ho : other → other') {response : Response}
    (h : response.Standing won other frame) : response.Standing won other' frame := by
  cases frame with
  | lockRead id timeout =>
    cases response with
    | mismatch => exact ⟨h.1, ho h.2⟩
    | matched current => exact h
    | transitioned success => exact h
  | transition expected new caller =>
    cases response with
    | transitioned success => exact ⟨h.1, fun hs => ho (h.2 hs)⟩
    | matched current => exact h
    | mismatch => exact h

theorem Return.Standing.mono {other' busy' : Prop} (ho : other → other') (hb : busy → busy')
    {result : Return} (h : result.Standing attempt id timeout won other busy) :
    result.Standing attempt id timeout won other' busy' := by
  rcases h with h | ⟨hwon, hother, h⟩ | ⟨hwon, hbusy, h⟩
  · exact Or.inl h
  · exact Or.inr (Or.inl ⟨hwon, ho hother, h⟩)
  · exact Or.inr (Or.inr ⟨hwon, hb hbusy, h⟩)

/-- What was seen once stays seen. -/
theorem Control.Standing.mono {other' busy' : Prop} (ho : other → other') (hb : busy → busy')
    {control : Control} (h : control.Standing attempt id timeout won other busy) :
    control.Standing attempt id timeout won other' busy' := by
  cases control with
  | running point =>
    cases point with
    | markExchange frame deadline expectedState newState => exact ⟨h.1, h.2.1, hb h.2.2⟩
    | enqueue frame deadline result => exact ⟨h.1, h.2.1, hb h.2.2⟩
    | parked frame deadline result => exact ⟨h.1, h.2.1, hb h.2.2⟩
    | leave frame deadline result =>
      obtain ⟨hframe, response, hresult, hresp⟩ := h
      exact ⟨hframe, response, hresult, hresp.mono ho⟩
    | _ => exact h
  | returned result => exact Return.Standing.mono ho hb h
  | _ => exact h

theorem Attempt.Is.finish {caller : Caller} (h : attempt.Is id caller) (result : BlockResult Bool) :
    caller.finish result = attempt.answer id result := by
  cases attempt with
  | lockRead => exact absurd h not_false
  | lockWrite => cases h; rfl
  | remove => cases h; rfl

theorem lockReadExchange_standing {current : UInt64} :
    (Control.ofChecked (lockReadExchange build id current timeout)).Standing .lockRead id timeout
      false other busy := by
  unfold lockReadExchange
  cases incrementReaders build current with
  | ok new => exact ⟨rfl, rfl, rfl, rfl⟩
  | error fault => rfl

theorem lockReadWithCurrent_standing {current : UInt64} (ho : idFromBits current ≠ id → other)
    (hb : idFromBits current = id → isWriteLocked current = true → busy) :
    (Control.ofChecked (lockReadWithCurrent build id current timeout)).Standing .lockRead id timeout
      false other busy := by
  unfold lockReadWithCurrent
  by_cases hid : idFromBits current = id
  · rw [if_neg (by simpa using hid)]
    by_cases hw : isWriteLocked current = true
    · rw [if_pos hw]
      cases timeout with
      | dontBlock => exact Or.inr (Or.inr ⟨rfl, hb hid hw, fun he => (by cases he), rfl⟩)
      | blockUntil deadline => exact ⟨⟨fun he => (by cases he), rfl, rfl, rfl⟩, rfl⟩
      | blockIndefinitely => exact ⟨⟨fun _ => rfl, rfl, rfl, rfl⟩, rfl⟩
    · rw [if_neg hw]
      exact lockReadExchange_standing
  · rw [if_pos hid]
    exact Or.inr (Or.inl ⟨rfl, ho hid, rfl⟩)

theorem transitionErr_standing {expected new actual : UInt64} {caller : Caller}
    (h : attempt.Is id caller) (ho : idFromBits actual ≠ idFromBits expected → other)
    (hb : idFromBits actual = idFromBits expected → readersFromBits actual > 0 → busy) :
    (transitionErr expected new actual timeout caller).Standing attempt id timeout false other
      busy := by
  unfold transitionErr
  by_cases hid : idFromBits actual = idFromBits expected
  · rw [if_pos hid]
    by_cases hr : readersFromBits actual > 0
    · rw [if_pos hr]
      cases timeout with
      | dontBlock =>
        exact Or.inr (Or.inr ⟨rfl, hb hid hr, fun he => (by cases he), h.finish _⟩)
      | blockUntil deadline => exact ⟨⟨fun he => (by cases he), h⟩, rfl⟩
      | blockIndefinitely => exact ⟨⟨fun _ => rfl, h⟩, rfl⟩
    · rw [if_neg hr]
      exact ⟨h, rfl, rfl⟩
  · rw [if_neg hid]
    exact Or.inr (Or.inl ⟨rfl, ho hid, h.finish _⟩)

theorem Frame.resume_standing {response : Response} (hframe : frame.Of attempt id timeout deadline)
    (h : response.Standing won other frame) :
    (Control.ofChecked (frame.resume build response)).Standing attempt id timeout won other busy := by
  cases frame with
  | lockRead id' timeout' =>
    obtain ⟨-, rfl, rfl, rfl⟩ := hframe
    cases response with
    | matched current =>
      obtain rfl : won = false := h
      exact lockReadExchange_standing
    | mismatch =>
      obtain ⟨rfl, hother⟩ := h
      exact Or.inr (Or.inl ⟨rfl, hother, rfl⟩)
    | transitioned success => exact absurd h not_false
  | transition expected new caller =>
    obtain ⟨-, his⟩ := hframe
    cases response with
    | transitioned success =>
      obtain ⟨rfl, hother⟩ := h
      cases won with
      | true => exact Or.inl ⟨rfl, his.finish _⟩
      | false => exact Or.inr (Or.inl ⟨rfl, hother rfl, his.finish _⟩)
    | matched current => exact absurd h not_false
    | mismatch => exact absurd h not_false

theorem Frame.timedOut_standing (hframe : frame.Of attempt id timeout deadline)
    (ht : timeout ≠ .blockIndefinitely) (hbusy : busy) :
    frame.timedOut.Standing attempt id timeout false other busy := by
  cases frame with
  | lockRead id' timeout' =>
    obtain ⟨-, rfl, rfl, rfl⟩ := hframe
    exact Or.inr (Or.inr ⟨rfl, hbusy, ht, rfl⟩)
  | transition expected new caller =>
    obtain ⟨-, his⟩ := hframe
    exact Or.inr (Or.inr ⟨rfl, hbusy, ht, his.finish _⟩)

theorem Attempt.Is.id_eq {caller : Caller} (h : attempt.Is id caller) : caller.id = id := by
  cases attempt with
  | lockRead => exact absurd h not_false
  | lockWrite => cases h; rfl
  | remove => cases h; rfl

theorem Attempt.Is.rwOp {caller : Caller} (h : attempt.Is id caller) :
    caller.rwOp = attempt.op id := by
  cases attempt with
  | lockRead => exact absurd h not_false
  | lockWrite => cases h; rfl
  | remove => cases h; rfl

/-- A locked header conflicts with the calls that go through `transition`. -/
theorem Attempt.Is.conflicts {caller : Caller} (h : attempt.Is id caller) {word : UInt64}
    (hid : idFromBits word = id) (hr : readersFromBits word ≠ 0) :
    attempt.Conflicts id (view word) := by
  have hlocked : view word = ⟨id, .writing⟩ ∨ ∃ readers, view word = ⟨id, .reading readers⟩ := by
    cases hw : isWriteLocked word with
    | true => exact Or.inl (by rw [view_writing hw, hid])
    | false => exact Or.inr ⟨_, by rw [view_reading hr hw, hid]⟩
  cases attempt with
  | lockRead => exact absurd h not_false
  | lockWrite => exact hlocked
  | remove => exact hlocked

end Code

/-! ## One step of the call -/

/-- How a step of the call changes the atomic lock: not at all, or by the operation of the call. -/
def Takes (attempt : Attempt) (id : UInt32) (won won' : Bool) (lock lock' : RwLock) : Prop :=
  won' = won ∧ lock' = lock ∨ won = false ∧ won' = true ∧ lock.apply (attempt.op id) = some lock'

variable {T : Type} [Fintype T] {build : Build} {s s' : State T}
  {attempt : Attempt} {id : UInt32} {timeout : Timeout} {won : Bool} {other busy : Prop}

/-- A load or a failed compare exchange. -/
theorem stay_standing {t : T} {point : Point} {op : AtomicOp} {reply : Reply} (hinv : s.Inv)
    (hc : s.control t = .running point) (hop : point.op = some op)
    (hreply : reply = .value s.word ∨ reply = .err s.word)
    (hself : (Control.ofChecked (point.resume build reply)).Ok s.issued (s.locks t))
    (h : point.Standing attempt id timeout won other busy) :
    (Control.ofChecked (point.resume build reply)).Standing attempt id timeout won
      (other ∨ idFromBits s.word ≠ id) (busy ∨ attempt.Conflicts id (view s.word)) := by
  have hfound : reply.found = s.word := by rcases hreply with rfl | rfl <;> rfl
  have hok := hinv.running hc
  -- a thread that reads the word as it is sees an ID and a mode
  have hread : idFromBits s.word = id → isWriteLocked s.word = true →
      busy ∨ Attempt.lockRead.Conflicts id (view s.word) := by
    intro hid hw
    refine Or.inr ?_
    show view s.word = ⟨id, .writing⟩
    rw [view_writing hw, hid]
  cases point with
  | lockReadLoad id' timeout' =>
    obtain ⟨rfl, rfl, rfl, rfl⟩ := h
    simp only [Point.resume, hfound]
    exact lockReadWithCurrent_standing Or.inr hread
  | lockReadExchange id' current new timeout' =>
    obtain ⟨rfl, rfl, rfl, rfl⟩ := h
    rcases hreply with rfl | rfl <;> exact lockReadWithCurrent_standing Or.inr hread
  | transitionExchange expected new timeout' caller =>
    obtain ⟨his, rfl, rfl⟩ := h
    obtain ⟨-, rfl, -⟩ := hok
    have herr : (transitionErr (occupiedUnlockedBits caller.id) new s.word timeout' caller).Standing
        attempt id timeout' false (other ∨ idFromBits s.word ≠ id)
        (busy ∨ attempt.Conflicts id (view s.word)) := by
      refine transitionErr_standing his ?_ ?_
      · rw [idFromBits_occupiedUnlockedBits, his.id_eq]
        exact Or.inr
      · rw [idFromBits_occupiedUnlockedBits, his.id_eq]
        intro hid hr
        refine Or.inr (his.conflicts hid ?_)
        rintro hz
        rw [hz] at hr
        exact absurd hr (by decide)
    rcases hreply with rfl | rfl <;> exact herr
  | closure frame deadline =>
    obtain ⟨hframe, rfl⟩ := h
    simp only [Point.resume] at hself ⊢
    cases hchoice : frame.choice reply with
    | block expectedState =>
      rw [hchoice] at hself
      simp only [blockResultToParkResult] at hself ⊢
      cases hmark : markThreadBlocking build expectedState with
      | error fault => rfl
      | ok newState =>
        rw [hmark] at hself
        obtain ⟨-, hr, hid, -⟩ := hself
        refine ⟨hframe, rfl, ?_⟩
        cases frame with
        | lockRead id' timeout' =>
          obtain ⟨-, rfl, rfl, rfl⟩ := hframe
          rcases Frame.choice_lockRead reply id' timeout' with
            ⟨-, he⟩ | ⟨hid', hw, he⟩ | ⟨-, -, he⟩
          · rw [he] at hchoice; cases hchoice
          · rw [hfound] at hid' hw
            exact hread hid' hw
          · rw [he] at hchoice; cases hchoice
        | transition expected new caller =>
          obtain ⟨-, his⟩ := hframe
          have herr : (Frame.transition expected new caller).choice (.err s.word) =
              .block expectedState := by
            rcases hreply with rfl | rfl <;> exact hchoice
          rcases Frame.choice_transition_err s.word expected new caller with ⟨-, he⟩ | ⟨-, he⟩
          · rw [he] at herr
            cases herr
            exact Or.inr (his.conflicts (hid.trans his.id_eq) hr)
          · rw [he] at herr; cases herr
    | dontBlock response =>
      refine ⟨hframe, response, rfl, ?_⟩
      cases frame with
      | lockRead id' timeout' =>
        obtain ⟨-, rfl, rfl, rfl⟩ := hframe
        rcases Frame.choice_lockRead reply id' timeout' with
          ⟨hid, he⟩ | ⟨-, -, he⟩ | ⟨-, -, he⟩
        · rw [he] at hchoice
          cases hchoice
          exact ⟨rfl, Or.inr (by rw [← hfound]; exact hid)⟩
        · rw [he] at hchoice; cases hchoice
        · rw [he] at hchoice; cases hchoice; rfl
      | transition expected new caller =>
        obtain ⟨-, his⟩ := hframe
        obtain ⟨-, rfl, -⟩ := hok
        have herr : (Frame.transition (occupiedUnlockedBits caller.id) new caller).choice
            (.err s.word) = .dontBlock response := by
          rcases hreply with rfl | rfl <;> exact hchoice
        rcases Frame.choice_transition_err s.word (occupiedUnlockedBits caller.id) new caller with
          ⟨-, he⟩ | ⟨hid, he⟩
        · rw [he] at herr; cases herr
        · rw [he] at herr
          cases herr
          rw [idFromBits_occupiedUnlockedBits, his.id_eq] at hid
          exact ⟨rfl, fun _ => Or.inr hid⟩
  | markExchange frame deadline expectedState newState =>
    obtain ⟨hframe, rfl, -⟩ := h
    rcases hreply with rfl | rfl <;> exact ⟨hframe, rfl⟩
  | park | enqueue | leave | parked | unpark => cases hop
  | _ => exact absurd h not_false

variable [DecidableEq T]

/-- An operation of the call on the word. -/
theorem change_standing {t : T} {point : Point} {op : AtomicOp} (hinv : s.Inv)
    (hc : s.control t = .running point) (hop : point.op = some op)
    (hch : Change build s t point s') (h : point.Standing attempt id timeout won other busy) :
    ∃ won', (s'.control t).Standing attempt id timeout won' (other ∨ idFromBits s.word ≠ id)
        (busy ∨ attempt.Conflicts id (view s.word)) ∧
      Takes attempt id won won' (view s.word) (view s'.word) := by
  have hrefines := hch.refines hinv
  cases hch with
  | stay hreply _ hself =>
    refine ⟨won, ?_, Or.inl ⟨rfl, rfl⟩⟩
    rw [State.setControl_control, Function.update_self]
    exact stay_standing hinv hc hop hreply hself h
  | mark hframe hr hid =>
    obtain ⟨hof, rfl, hbusy⟩ := h
    refine ⟨false, ?_, Or.inl ⟨rfl, view_mark hr⟩⟩
    rw [State.setControl_control, Function.update_self]
    exact ⟨hof, rfl, Or.inl hbusy⟩
  | addReader hmem hid hw hr =>
    obtain ⟨rfl, rfl, rfl, rfl⟩ := h
    subst hid
    have hocc : isOccupied s.word = true := (isOccupied_iff _).2 (hinv.ledger.occupied.2 hmem)
    refine ⟨true, ?_, Or.inr ⟨rfl, rfl, by simpa [Attempt.op] using view_increment hocc hw hr⟩⟩
    rw [State.setControl_control, Function.update_self]
    exact Or.inl ⟨rfl, rfl⟩
  | transition hcaller hcur =>
    obtain ⟨his, rfl, rfl⟩ := h
    refine ⟨true, ?_, Or.inr ⟨rfl, rfl, ?_⟩⟩
    · rw [State.setControl_control, Function.update_self]
      exact Or.inl ⟨rfl, his.finish _⟩
    · rw [hcur, ← his.rwOp]
      simpa using view_transition hcaller
  | transitionSlow hcaller hcur =>
    obtain ⟨⟨hdeadline, his⟩, rfl⟩ := h
    refine ⟨true, ?_, Or.inr ⟨rfl, rfl, ?_⟩⟩
    · rw [State.setControl_control, Function.update_self]
      exact ⟨⟨hdeadline, his⟩, _, rfl, rfl, fun he => (by cases he)⟩
    · rw [hcur, ← Attempt.Is.rwOp his]
      simpa using view_transition hcaller
  | _ => exact absurd h not_false

/-- Every step of the call keeps it entitled to what it may answer. -/
theorem move_standing {e : Event T} (hinv : s.Inv) (ha : Allowed s e) (hm : Move build s e s')
    (hret : e ≠ .ret e.thread)
    (h : (s.control e.thread).Standing attempt id timeout won other busy) :
    ∃ won', (s'.control e.thread).Standing attempt id timeout won' (other ∨ idFromBits s.word ≠ id)
        (busy ∨ attempt.Conflicts id (view s.word)) ∧
      Takes attempt id won won' (view s.word) (view s'.word) := by
  cases hm with
  | call hc =>
    have h' := h
    rw [Event.thread, hc] at h'
    exact absurd h' not_false
  | @exec t spurious point op hc hop =>
    have hpoint : point.Standing attempt id timeout won other busy := by
      rw [Event.thread, hc] at h
      exact h
    exact change_standing hinv hc hop (hinv.exec_change hc hop (by rintro rfl; exact ha hc)) hpoint
  | @park t spurious frame deadline hc hfree =>
    rw [Event.thread, hc] at h
    refine ⟨won, ?_, Or.inl ⟨rfl, rfl⟩⟩
    simp only [Event.thread, State.setControl_control, Function.update_self]
    exact h
  | @enqueue t spurious frame deadline result hc =>
    rw [Event.thread, hc] at h
    obtain ⟨hof, hwon, hbusy⟩ := h
    refine ⟨won, ?_, Or.inl ⟨rfl, rfl⟩⟩
    simp only [Event.thread, State.setControl_control, Function.update_self]
    exact ⟨hof, hwon, Or.inl hbusy⟩
  | @leave t spurious frame deadline result hc =>
    rw [Event.thread, hc] at h
    obtain ⟨hof, response, rfl, hresp⟩ := h
    refine ⟨won, ?_, Or.inl ⟨rfl, rfl⟩⟩
    simp only [Event.thread, State.setControl_control, Function.update_self]
    exact (Frame.resume_standing hof hresp).mono Or.inl Or.inl
  | @wake t spurious frame deadline result hc hq =>
    obtain ⟨-, rfl⟩ := hinv.running hc
    rw [Event.thread, hc] at h
    refine ⟨won, ?_, Or.inl ⟨rfl, rfl⟩⟩
    simp only [Event.thread, State.setControl_control, Function.update_self]
    exact ⟨h.1, h.2.1⟩
  | unpark hc hfree =>
    rw [Event.thread, hc] at h
    exact absurd h not_false
  | @expire t frame deadline result hc hq hfree =>
    obtain ⟨-, rfl⟩ := hinv.running hc
    rw [Event.thread, hc] at h
    obtain ⟨hof, rfl, hbusy⟩ := h
    refine ⟨false, ?_, Or.inl ⟨rfl, rfl⟩⟩
    simp only [Event.thread, State.expire, State.setControl_control, Function.update_self]
    have ht : timeout ≠ .blockIndefinitely := by
      intro he
      have hnone := hof.1 he
      cases hnone
    exact (Frame.timedOut_standing hof ht hbusy).mono Or.inl Or.inl
  | ret hc => exact absurd rfl hret

omit [Fintype T] [DecidableEq T] in
theorem start_standing : (Control.ofChecked (start build (attempt.call id timeout))).Standing attempt id
    timeout false other busy := by
  cases attempt with
  | lockRead =>
    simp only [Attempt.call, start]
    cases debugAssert build (id != reservedId) "attempted to read lock the reserved ID" with
    | error fault => rfl
    | ok _ => exact ⟨rfl, rfl, rfl, rfl⟩
  | lockWrite =>
    simp only [Attempt.call, start]
    cases debugAssert build (id != reservedId) "attempted to write lock the reserved ID" with
    | error fault => rfl
    | ok _ => exact ⟨rfl, rfl, rfl⟩
  | remove =>
    simp only [Attempt.call, start]
    cases debugAssert build (id != reservedId) "attempted to remove the reserved ID" with
    | error fault => rfl
    | ok _ =>
      cases hnext : addU32 build id 1 with
      | error fault => rfl
      | ok nextId =>
        obtain rfl := addU32_eq hnext
        exact ⟨rfl, rfl, rfl⟩

/-- No operation of the atomic lock leaves it as it was. -/
theorem RwLock.apply_ne (lock : RwLock) (op : RwOp) : lock.apply op ≠ some lock := by
  obtain ⟨id, mode⟩ := lock
  cases op with
  | lockRead id' =>
    unfold RwLock.apply
    by_cases hid : id = id'
    · cases mode <;> simp [hid]
    · simp [hid]
  | unlockRead id' =>
    unfold RwLock.apply
    by_cases hid : id = id'
    · cases mode with
      | reading readers =>
        rcases readers with _ | _ | readers <;> simp [hid]
      | _ => simp [hid]
    · simp [hid]
  | _ =>
    unfold RwLock.apply
    cases mode <;> simp

/-! ## The run of a call -/

/-- Event `i` of the run is the call `c` of `t`, and in state `j` the call has returned `result`. -/
structure Answers (state : ℕ → State T) (event : ℕ → Event T) (t : T) (c : Call) (i j : ℕ)
    (result : Return) : Prop where
  lt : i < j
  call : event i = .call t c
  returned : (state j).control t = .returned result
  within : ∀ m, i < m → m < j → event m ≠ .ret t

/-- Step `m` is a step of `t` that takes the operation of its call on the atomic lock. -/
def TakesAt (state : ℕ → State T) (event : ℕ → Event T) (t : T) (attempt : Attempt) (id : UInt32)
    (m : ℕ) : Prop :=
  (event m).thread = t ∧
    (view (state m).word).apply (attempt.op id) = some (view (state (m + 1)).word)

/-- What the steps `i < m < k` of a run have been for the call that `t` made in step `i`. -/
structure History (state : ℕ → State T) (event : ℕ → Event T) (t : T) (attempt : Attempt)
    (id : UInt32) (i k : ℕ) (won : Bool) : Prop where
  taken : won = true ↔ ∃ m, i < m ∧ m < k ∧ TakesAt state event t attempt id m
  once : ∀ m m', i < m → m < k → i < m' → m' < k → TakesAt state event t attempt id m →
    TakesAt state event t attempt id m' → m = m'
  others : ∀ m, i < m → m < k → (event m).thread = t → ¬TakesAt state event t attempt id m →
    view (state (m + 1)).word = view (state m).word

variable {state : ℕ → State T} {event : ℕ → Event T} {t : T} {i k : ℕ}

omit [Fintype T] [DecidableEq T] in
theorem History.start : History state event t attempt id i (i + 1) false where
  taken := by
    constructor
    · intro h
      cases h
    · rintro ⟨m, hm, hk, -⟩
      omega
  once := by
    intro m m' hm hk
    omega
  others := by
    intro m hm hk
    omega

omit [Fintype T] [DecidableEq T] in
/-- A step that does not take the operation. -/
theorem History.skip (h : History state event t attempt id i k won)
    (hskip : ¬TakesAt state event t attempt id k)
    (hview : (event k).thread = t → view (state (k + 1)).word = view (state k).word) :
    History state event t attempt id i (k + 1) won where
  taken := by
    rw [h.taken]
    constructor
    · rintro ⟨m, hm, hk, htake⟩
      exact ⟨m, hm, by omega, htake⟩
    · rintro ⟨m, hm, hk, htake⟩
      have hmk : m ≠ k := by rintro rfl; exact hskip htake
      exact ⟨m, hm, by omega, htake⟩
  once := by
    intro m m' hm hk hm' hk' htake htake'
    have hmk : m ≠ k := by rintro rfl; exact hskip htake
    have hmk' : m' ≠ k := by rintro rfl; exact hskip htake'
    exact h.once m m' hm (by omega) hm' (by omega) htake htake'
  others := by
    intro m hm hk hthread hnot
    by_cases hmk : m = k
    · subst hmk
      exact hview hthread
    · exact h.others m hm (by omega) hthread hnot

omit [Fintype T] [DecidableEq T] in
/-- The step that takes the operation. -/
theorem History.take (h : History state event t attempt id i k false) (hik : i < k)
    (htake : TakesAt state event t attempt id k) :
    History state event t attempt id i (k + 1) true where
  taken := ⟨fun _ => ⟨k, hik, by omega, htake⟩, fun _ => rfl⟩
  once := by
    have hnone : ∀ m, i < m → m < k → ¬TakesAt state event t attempt id m := by
      intro m hm hk hm'
      have := h.taken.2 ⟨m, hm, hk, hm'⟩
      cases this
    intro m m' hm hk hm' hk' hmt hmt'
    by_cases hmk : m = k
    · by_cases hmk' : m' = k
      · omega
      · exact absurd hmt' (hnone m' hm' (by omega))
    · exact absurd hmt (hnone m hm (by omega))
  others := by
    intro m hm hk hthread hnot
    by_cases hmk : m = k
    · subst hmk
      exact absurd htake hnot
    · exact h.others m hm (by omega) hthread hnot

/-- The call at state `k`: its history, and what that entitles it to. -/
theorem run_standing {n : ℕ} (hrun : (machine build T).Run n state event)
    (hi : event i = .call t (attempt.call id timeout)) (hik : i < k) (hk : k ≤ n)
    (hret : ∀ m, i < m → m < k → event m ≠ .ret t) :
    ∃ won, History state event t attempt id i k won ∧
      ((state k).control t).Standing attempt id timeout won
        (∃ m, i < m ∧ m < k ∧ idFromBits (state m).word ≠ id)
        (∃ m, i < m ∧ m < k ∧ attempt.Conflicts id (view (state m).word)) := by
  induction k, hik using Nat.le_induction with
  | base =>
    refine ⟨false, History.start, ?_⟩
    have hm := Move.of_step (hrun.step i hk).2
    rw [hi] at hm
    generalize state (i + 1) = s' at hm
    cases hm with
    | call hc =>
      rw [State.setControl_control, Function.update_self]
      exact start_standing
  | succ k hik ih =>
    obtain ⟨won, hhist, hstand⟩ := ih (by omega) fun m hm hmk => hret m hm (by omega)
    have hinv := reachable_inv (hrun.reachable k (by omega))
    obtain ⟨ha, hstep⟩ := hrun.step k hk
    have hm := Move.of_step hstep
    have hother : (∃ m, i < m ∧ m < k ∧ idFromBits (state m).word ≠ id) →
        ∃ m, i < m ∧ m < k + 1 ∧ idFromBits (state m).word ≠ id := by
      rintro ⟨m, hm, hmk, h⟩
      exact ⟨m, hm, by omega, h⟩
    have hbusy : (∃ m, i < m ∧ m < k ∧ attempt.Conflicts id (view (state m).word)) →
        ∃ m, i < m ∧ m < k + 1 ∧ attempt.Conflicts id (view (state m).word) := by
      rintro ⟨m, hm, hmk, h⟩
      exact ⟨m, hm, by omega, h⟩
    by_cases hthread : (event k).thread = t
    · subst hthread
      obtain ⟨won', hstand', htakes⟩ := move_standing hinv ha hm (hret k (by omega) (by omega)) hstand
      refine ⟨won', ?_, hstand'.mono ?_ ?_⟩
      · rcases htakes with ⟨rfl, hview⟩ | ⟨rfl, rfl, happly⟩
        · refine hhist.skip ?_ fun _ => hview
          rintro ⟨-, happly⟩
          rw [hview] at happly
          exact RwLock.apply_ne _ _ happly
        · exact hhist.take (by omega) ⟨rfl, happly⟩
      · rintro (h | h)
        · exact hother h
        · exact ⟨k, by omega, by omega, h⟩
      · rintro (h | h)
        · exact hbusy h
        · exact ⟨k, by omega, by omega, h⟩
    · refine ⟨won, hhist.skip (fun h => hthread h.1) (fun h => absurd h hthread), ?_⟩
      rw [(hm.frame (Ne.symm hthread)).1]
      exact hstand.mono hother hbusy

/-! ## The theorem -/

omit [Fintype T] [DecidableEq T] in
theorem Attempt.answer_inj {r r' : BlockResult Bool} (h : attempt.answer id r = attempt.answer id r') :
    r = r' := by
  cases attempt with
  | lockRead => cases h; rfl
  | lockWrite => cases h; rfl
  | remove =>
    rcases r with ⟨⟨⟩⟩ | ⟨_ | _⟩ <;> rcases r' with ⟨⟨⟩⟩ | ⟨_ | _⟩ <;> first | rfl | cases h

/-- What the result of a call says about the atomic lock between the call and its return. -/
structure Justified (state : ℕ → State T) (event : ℕ → Event T) (t : T) (attempt : Attempt)
    (id : UInt32) (timeout : Timeout) (i j : ℕ) (result : Return) : Prop where
  /-- The call succeeds exactly when one of its own steps took its operation on the atomic lock. -/
  success : result = attempt.answer id (.ok true) ↔
    ∃ m, i < m ∧ m < j ∧ TakesAt state event t attempt id m
  once : ∀ m m', i < m → m < j → i < m' → m' < j → TakesAt state event t attempt id m →
    TakesAt state event t attempt id m' → m = m'
  /-- The other steps of the call, failed exchanges included, leave the atomic lock alone. -/
  others : ∀ m, i < m → m < j → (event m).thread = t → ¬TakesAt state event t attempt id m →
    view (state (m + 1)).word = view (state m).word
  mismatch : result = attempt.answer id (.ok false) →
    ∃ m, i < m ∧ m < j ∧ idFromBits (state m).word ≠ id
  timedOut : result = attempt.answer id (.error .timedOut) →
    ∃ m, i < m ∧ m < j ∧ attempt.Conflicts id (view (state m).word)
  /-- There is no other result. -/
  answer : ∃ r, result = attempt.answer id r
  /-- The result of a call without a deadline can be unwrapped. -/
  indefinitely : timeout = .blockIndefinitely → ∃ r, result = attempt.answer id (.ok r)

/-- Whatever a lock or a removal returns, one of its own steps, or a moment between its call and its return,
is the reason for it. -/
theorem justified (build : Build) (T : Type) [Fintype T] [DecidableEq T] (n : ℕ) (state : ℕ → State T)
    (event : ℕ → Event T) (hrun : (machine build T).Run n state event) (t : T) (attempt : Attempt)
    (id : UInt32) (timeout : Timeout) (i j : ℕ) (result : Return) (hj : j ≤ n)
    (h : Answers state event t (attempt.call id timeout) i j result) :
    Justified state event t attempt id timeout i j result := by
  obtain ⟨won, hhist, hstand⟩ := run_standing hrun h.call h.lt hj h.within
  rw [h.returned] at hstand
  have hcases : result.Standing attempt id timeout won _ _ := hstand
  rcases hcases with ⟨rfl, rfl⟩ | ⟨rfl, hother, rfl⟩ | ⟨rfl, hbusy, hnever, rfl⟩
  · refine ⟨?_, hhist.once, hhist.others, ?_, ?_, ⟨_, rfl⟩, fun _ => ⟨_, rfl⟩⟩
    · rw [← hhist.taken]
      exact ⟨fun _ => rfl, fun _ => rfl⟩
    · intro he
      cases Attempt.answer_inj he
    · intro he
      cases Attempt.answer_inj he
  · refine ⟨?_, hhist.once, hhist.others, fun _ => hother, ?_, ⟨_, rfl⟩, fun _ => ⟨_, rfl⟩⟩
    · rw [← hhist.taken]
      constructor
      · intro he
        cases Attempt.answer_inj he
      · intro he
        cases he
    · intro he
      cases Attempt.answer_inj he
  · refine ⟨?_, hhist.once, hhist.others, ?_, fun _ => hbusy, ⟨_, rfl⟩, fun he => absurd he hnever⟩
    · rw [← hhist.taken]
      constructor
      · intro he
        cases Attempt.answer_inj he
      · intro he
        cases he
    · intro he
      cases Attempt.answer_inj he

/-- One thread inserts an element and locks it for writing; a reader that does not wait gives up. -/
def readerGivesUp : List (Event (Fin 2)) :=
  [.call 0 .occupy, .act 0 false, .ret 0, .call 0 (.lockWrite 0 .dontBlock), .act 0 false, .ret 0,
    .call 1 (.lockRead 0 .dontBlock), .act 1 false]

theorem justified_timed_out :
    Justified (System.trace (step .debug) Allowed State.init readerGivesUp)
      (readerGivesUp.getD · (.ret 0)) 1 .lockRead 0 .dontBlock 6 8 (.lockRead (.error .timedOut)) := by
  refine justified .debug (Fin 2) 8 _ _ (run_of_replay .debug readerGivesUp (.ret 0) (by decide)) 1
    .lockRead 0 .dontBlock 6 8 _ (by omega) ⟨by omega, rfl, by decide, fun m hm hm' => ?_⟩
  obtain rfl : m = 7 := by omega
  decide

end ReadWriteStore.Header

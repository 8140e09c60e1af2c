import ReadWriteStore.Header.Proofs.JustifyProofs

/-!
# One call from its start to its return

For the code that calls a header: where a thread can be while it serves a call (`Serves`), and what a
step of the thread does. It either changes nothing that the caller can see, or it is the one step at
which the call takes its operation of the atomic lock (`Served`).
-/

namespace ReadWriteStore.Header

open Transition

/-- The operation of the atomic lock that a call is for. -/
def Call.op : Call → RwOp
  | .lockRead id _ => .lockRead id
  | .unlockRead id => .unlockRead id
  | .lockWrite id _ => .lockWrite id
  | .unlockWrite id => .unlockWrite id
  | .occupy => .occupy
  | .remove id _ => .remove id
  | .removeLocked id => .removeLocked id

/-- What the operation means for the locks and the IDs; `current` is the ID of the header. -/
def Call.effect (current : UInt32) : Call → Effect
  | .lockRead id _ => .acquire ⟨.read, id⟩
  | .unlockRead id => .release ⟨.read, id⟩
  | .lockWrite id _ => .acquire ⟨.write, id⟩
  | .unlockWrite id | .removeLocked id => .release ⟨.write, id⟩
  | .occupy => .issue current
  | .remove _ _ => .none

/-- Where a thread can be while it serves a call that cannot fail. -/
def Control.Completing : Call → Control → Prop
  | .unlockRead id, .running (.unlockReadLoad id') => id' = id
  | .unlockRead id, .running (.unlockReadExchange id' _ _ _) => id' = id
  | .unlockRead _, .running (.unpark result) | .unlockRead _, .returned result => result = .unlockRead
  | .unlockWrite id, .running (.unlockWriteSwap id' _) => id' = id
  | .unlockWrite _, .running (.unpark result) | .unlockWrite _, .returned result =>
    result = .unlockWrite
  | .removeLocked id, .running (.removeLockedSwap id' _ _) => id' = id
  | .removeLocked id, .running (.unpark result) | .removeLocked id, .returned result =>
    result = .removeLocked (id + 1 != reservedId)
  | .occupy, .running .occupyFetchOr => True
  | .occupy, .returned result => ∃ id, result = .occupy id
  | _, _ => False

/-- Where a thread can be while it serves a call. -/
def Control.Serves (c : Call) (control : Control) : Prop :=
  control.Completing c ∨
    ∃ attempt id timeout won, c = attempt.call id timeout ∧
      control.Standing attempt id timeout won True True

/-- What a step of thread `t` does for the call it serves. -/
inductive Served {T : Type} [DecidableEq T] (s s' : State T) (t : T) (c : Call) : Prop
  | stays (hdone : (s'.control t).done = (s.control t).done) (hview : view s'.word = view s.word)
      (hlocks : s'.locks = s.locks) (hissued : s'.issued = s.issued)
  | takes (hbefore : (s.control t).done = false) (hafter : (s'.control t).done = true)
      (happly : (view s.word).apply c.op = some (view s'.word))
      (hlocks : s'.locks = (s.record t (c.effect (view s.word).id)).locks)
      (hissued : s'.issued = (s.record t (c.effect (view s.word).id)).issued)
      (hoccupy : c = .occupy → s'.control t = .returned (.occupy (view s.word).id))

/-- A call has taken effect exactly where its standing says so. -/
theorem Control.Standing.done_eq {attempt : Attempt} {id : UInt32} {timeout : Timeout} {won : Bool}
    {other busy : Prop} {control : Control} (h : control.Standing attempt id timeout won other busy) :
    control.done = won := by
  cases control with
  | idle => exact absurd h not_false
  | running point =>
    cases point with
    | lockReadLoad | lockReadExchange => exact h.2.2.2.symm
    | transitionExchange => exact h.2.2.symm
    | park | closure => exact h.2.symm
    | markExchange | enqueue | parked => exact h.2.1.symm
    | leave frame deadline result =>
      obtain ⟨-, response, rfl, hresp⟩ := h
      cases frame with
      | lockRead id timeout =>
        cases response with
        | matched current => exact hresp.symm
        | mismatch => exact hresp.1.symm
        | transitioned success => exact absurd hresp not_false
      | transition expected new caller =>
        cases response with
        | transitioned success =>
          rw [hresp.1]
          cases success <;> rfl
        | matched current => exact absurd hresp not_false
        | mismatch => exact absurd hresp not_false
    | _ => exact absurd h not_false
  | returned result =>
    rcases h with ⟨rfl, rfl⟩ | ⟨rfl, -, rfl⟩ | ⟨rfl, -, -, rfl⟩ <;> cases attempt <;> rfl
  | faulted fault => exact h.symm

section Code

variable {issued : List UInt32} {locks : List Lock} {build : Build} {c : Call}

theorem afterSwap_completing (old : UInt64) {result : Return}
    (h : (Control.returned result).Completing c) (h' : (Control.running (.unpark result)).Completing c) :
    (wakeIf old result).Completing c ∧ (wakeIf old result).done = true := by
  unfold wakeIf
  split
  · exact ⟨h', rfl⟩
  · refine ⟨h, ?_⟩
    cases result with
    | unlockRead | unlockWrite | occupy | removeLocked => rfl
    | _ => cases c <;> first | exact absurd h' not_false | exact absurd h not_false | cases h

/-- A call that starts without a fault serves from its first step on. -/
theorem start_serves (hok : (Control.ofChecked (start build c)).Ok issued locks) :
    (Control.ofChecked (start build c)).Serves c ∧ (Control.ofChecked (start build c)).done = false := by
  have hattempt : ∀ attempt id timeout, c = Attempt.call id timeout attempt →
      (Control.ofChecked (start build c)).Serves c ∧
        (Control.ofChecked (start build c)).done = false := by
    rintro attempt id timeout rfl
    have hst : (Control.ofChecked (start build (attempt.call id timeout))).Standing attempt id timeout
        false True True := start_standing
    exact ⟨Or.inr ⟨attempt, id, timeout, false, rfl, hst⟩, hst.done_eq⟩
  cases c with
  | lockRead id timeout => exact hattempt .lockRead id timeout rfl
  | lockWrite id timeout => exact hattempt .lockWrite id timeout rfl
  | remove id timeout => exact hattempt .remove id timeout rfl
  | unlockRead id => exact ⟨Or.inl rfl, rfl⟩
  | unlockWrite id => exact ⟨Or.inl rfl, rfl⟩
  | occupy => exact ⟨Or.inl trivial, rfl⟩
  | removeLocked id =>
    simp only [start] at hok ⊢
    cases h : addU32 build id 1 with
    | ok nextId => exact ⟨Or.inl rfl, rfl⟩
    | error fault =>
      rw [h] at hok
      have hfault : fault = tooManyReaders := hok
      unfold addU32 at h
      split at h
      · cases h
        cases hfault
      · cases h

end Code

/-! ## One step of the call -/

variable {T : Type} [DecidableEq T] {build : Build} {s s' : State T} {c : Call}

/-- A step that touches neither the word nor the bookkeeping. -/
theorem Served.of_same {t : T} (hdone : (s'.control t).done = (s.control t).done)
    (hword : s'.word = s.word) (hlocks : s'.locks = s.locks) (hissued : s'.issued = s.issued) :
    Served s s' t c :=
  .stays hdone (by rw [hword]) hlocks hissued

/-! What an operation writes to the word does not matter to the rest of the state. -/

theorem record_word_locks (t : T) (word : UInt64) (effect : Effect) (control : Control) :
    (({ s with word := word }.record t effect).setControl t control).locks = (s.record t effect).locks := by
  cases effect <;> rfl

theorem record_word_issued (t : T) (word : UInt64) (effect : Effect) (control : Control) :
    (({ s with word := word }.record t effect).setControl t control).issued
      = (s.record t effect).issued := by
  cases effect <;> rfl

theorem record_word_word (t : T) (word : UInt64) (effect : Effect) (control : Control) :
    (({ s with word := word }.record t effect).setControl t control).word = word := by
  cases effect <;> rfl

variable [Fintype T]

/-- An operation on the word, on the way to the result of an attempt. -/
theorem change_serves_attempt {t : T} {point : Point} {op : AtomicOp} (hinv : s.Inv)
    (hc : s.control t = .running point) (hop : point.op = some op) (hch : Change build s t point s')
    {attempt : Attempt} {id : UInt32} {timeout : Timeout} {won : Bool}
    (h : point.Standing attempt id timeout won True True) :
    (s'.control t).Serves (attempt.call id timeout) ∧ Served s s' t (attempt.call id timeout) := by
  have hbefore : (s.control t).done = won := by
    have hstanding : (Control.running point).Standing attempt id timeout won True True := h
    rw [hc]
    exact hstanding.done_eq
  obtain ⟨won', hst, htakes⟩ := change_standing hinv hc hop hch h
  have hserves : (s'.control t).Serves (attempt.call id timeout) :=
    Or.inr ⟨attempt, id, timeout, won', rfl, hst.mono (fun _ => trivial) fun _ => trivial⟩
  refine ⟨hserves, ?_⟩
  have hne : ∀ lock' op, ¬RwLock.apply lock' op = some lock' := fun lock' op => RwLock.apply_ne lock' op
  have happly : view s'.word ≠ view s.word → won = false ∧ won' = true ∧
      (view s.word).apply (attempt.op id) = some (view s'.word) := by
    intro hview
    rcases htakes with ⟨-, hsame⟩ | htakes
    · exact absurd hsame hview
    · exact htakes
  have hop' : (attempt.call id timeout).op = attempt.op id := by cases attempt <;> rfl
  have hocc : attempt.call id timeout ≠ .occupy := by cases attempt <;> simp [Attempt.call]
  -- the word changes as the atomic lock does, and the bookkeeping with it
  have htake : ∀ effect, s'.locks = (s.record t effect).locks → s'.issued = (s.record t effect).issued →
      (attempt.call id timeout).effect (view s.word).id = effect → view s'.word ≠ view s.word →
      Served s s' t (attempt.call id timeout) := by
    rintro _ hlocks hissued rfl hview
    obtain ⟨rfl, rfl, hnext⟩ := happly hview
    exact .takes hbefore hst.done_eq (by rw [hop']; exact hnext) hlocks hissued
      fun he => absurd he hocc
  have hstay : view s'.word = view s.word → s'.locks = s.locks → s'.issued = s.issued →
      Served s s' t (attempt.call id timeout) := by
    intro hview hlocks hissued
    refine .stays ?_ hview hlocks hissued
    rcases htakes with ⟨rfl, -⟩ | ⟨-, -, happly⟩
    · rw [hbefore, hst.done_eq]
    · rw [hview] at happly
      exact absurd happly (hne _ _)
  cases hch with
  | stay hreply heffect hself => exact hstay rfl rfl rfl
  | mark hframe hr hid => exact hstay (view_mark hr) rfl rfl
  | @addReader id' timeout' hmem hid hw hr =>
    obtain ⟨rfl, rfl, rfl, rfl⟩ := h
    have hocc : isOccupied s.word = true := by
      rw [isOccupied_iff, hinv.ledger.occupied, hid]
      exact hmem
    have hinc := view_increment hocc hw hr
    refine htake (.acquire ⟨.read, id'⟩) (record_word_locks ..) (record_word_issued ..) rfl
      fun hview => ?_
    rw [record_word_word] at hview
    rw [hview] at hinc
    exact hne _ _ hinc
  | @transition timeout' caller hcaller hcur =>
    have hview : view caller.target ≠ view s.word := by
      intro hview
      have happly := view_transition hcaller
      rw [← hcur, hview] at happly
      exact hne _ _ happly
    cases attempt with
    | lockRead => exact absurd h.1 not_false
    | lockWrite =>
      obtain rfl : caller = .lockWrite id := h.1
      exact htake (.acquire ⟨.write, id⟩) rfl rfl rfl hview
    | remove =>
      obtain rfl : caller = .remove id (id + 1) := h.1
      exact htake .none rfl rfl rfl hview
  | @transitionSlow deadline caller hcaller hcur =>
    have hview : view caller.target ≠ view s.word := by
      intro hview
      have happly := view_transition hcaller
      rw [← hcur, hview] at happly
      exact hne _ _ happly
    cases attempt with
    | lockRead => exact absurd h.1.2 not_false
    | lockWrite =>
      obtain rfl : caller = .lockWrite id := h.1.2
      exact htake (.acquire ⟨.write, id⟩) rfl rfl rfl hview
    | remove =>
      obtain rfl : caller = .remove id (id + 1) := h.1.2
      exact htake .none rfl rfl rfl hview
  | _ => exact absurd h not_false

/-- An operation on the word, for a call that cannot fail. -/
theorem change_completing {t : T} {point : Point} {op : AtomicOp} (hinv : s.Inv)
    (hc : s.control t = .running point) (hop : point.op = some op) (hch : Change build s t point s')
    (h : (Control.running point).Completing c) :
    (s'.control t).Completing c ∧ Served s s' t c := by
  have hbefore : (s.control t).done = false := by
    rw [hc]
    cases point <;> first | rfl | cases hop
  have hok := hinv.running hc
  cases hch with
  | @stay _ reply hreply heffect hself =>
    -- only `unlock_read` reads before it writes
    cases c with
    | unlockRead id =>
      have hlock : ⟨.read, id⟩ ∈ s.locks t := by
        cases point with
        | unlockReadLoad id' => exact (show id' = id from h) ▸ hok
        | unlockReadExchange id' => exact (show id' = id from h) ▸ hok.1
        | unpark => cases hop
        | _ => exact absurd h not_false
      have hresume : point.resume build reply = unlockReadWithCurrent build id s.word := by
        cases point with
        | unlockReadLoad id' =>
          obtain rfl : id' = id := h
          rcases hreply with rfl | rfl <;> rfl
        | unlockReadExchange id' =>
          obtain rfl : id' = id := h
          rcases hreply with rfl | rfl <;> rfl
        | unpark => cases hop
        | _ => exact absurd h not_false
      obtain ⟨hid, hr, hw, hocc⟩ := hinv.of_read_lock hlock
      obtain ⟨new, mustUnpark, -, heq⟩ := unlockReadWithCurrent_eq build hid hr hw hocc
      rw [hresume, heq]
      refine ⟨?_, .of_same ?_ rfl rfl rfl⟩
      · simp only [State.setControl_control, Function.update_self]
        rfl
      · rw [hbefore]
        simp only [State.setControl_control, Function.update_self]
        rfl
    | unlockWrite id =>
      cases point with
      | unlockWriteSwap => cases heffect
      | unpark => cases hop
      | _ => exact absurd h not_false
    | removeLocked id =>
      cases point with
      | removeLockedSwap => cases heffect
      | unpark => cases hop
      | _ => exact absurd h not_false
    | occupy =>
      cases point with
      | occupyFetchOr => cases heffect
      | _ => exact absurd h not_false
    | _ => exact absurd h not_false
  | @dropReader id new mustUnpark hlock hleave =>
    cases c with
    | unlockRead id' =>
      obtain rfl : id = id' := h
      refine ⟨?_, .takes hbefore ?_ (hinv.apply_unlockRead hlock hleave) rfl rfl fun he => by cases he⟩
      · simp only [State.setControl_control, Function.update_self]
        cases mustUnpark <;> rfl
      · simp only [State.setControl_control, Function.update_self]
        cases mustUnpark <;> rfl
    | _ => exact absurd h not_false
  | @unlockWrite id hlock =>
    cases c with
    | unlockWrite id' =>
      obtain rfl : id = id' := h
      obtain ⟨hserves, hdone⟩ := afterSwap_completing (c := .unlockWrite id) s.word rfl rfl
      refine ⟨?_, .takes hbefore ?_ (hinv.apply_unlockWrite hlock) rfl rfl fun he => by cases he⟩
      · simp only [State.setControl_control, Function.update_self]
        exact hserves
      · simp only [State.setControl_control, Function.update_self]
        exact hdone
    | _ => exact absurd h not_false
  | @removeLocked id hlock =>
    cases c with
    | removeLocked id' =>
      obtain rfl : id = id' := h
      obtain ⟨hserves, hdone⟩ := afterSwap_completing (c := .removeLocked id) s.word rfl rfl
      refine ⟨?_, .takes hbefore ?_ (hinv.apply_removeLocked hlock) rfl rfl fun he => by cases he⟩
      · simp only [State.setControl_control, Function.update_self]
        exact hserves
      · simp only [State.setControl_control, Function.update_self]
        exact hdone
    | _ => exact absurd h not_false
  | occupy hocc hne =>
    cases c with
    | occupy =>
      refine ⟨?_, .takes hbefore ?_ (apply_occupy hocc) rfl rfl fun _ => ?_⟩
      · simp only [State.setControl_control, Function.update_self]
        exact ⟨_, rfl⟩
      · simp only [State.setControl_control, Function.update_self]
        rfl
      · simp only [State.setControl_control, Function.update_self]
        rfl
    | _ => exact absurd h not_false
  | _ => cases c <;> exact absurd h not_false

/-- Every step of a thread that serves a call. -/
theorem move_serves {e : Event T} (hinv : s.Inv) (ha : Allowed s e) (hm : Move build s e s')
    (hret : e ≠ .ret e.thread) (h : (s.control e.thread).Serves c) :
    (s'.control e.thread).Serves c ∧ Served s s' e.thread c := by
  have hmono : ∀ {attempt id timeout won} {control : Control},
      control.Standing attempt id timeout won (True ∨ idFromBits s.word ≠ id)
        (True ∨ attempt.Conflicts id (view s.word)) → control.Standing attempt id timeout won True True :=
    fun h => h.mono (fun _ => trivial) fun _ => trivial
  -- a step that is not on the word keeps the standing of an attempt
  have hquiet : ∀ {attempt id timeout won}, c = Attempt.call id timeout attempt →
      (s.control e.thread).Standing attempt id timeout won True True → view s'.word = view s.word →
      s'.locks = s.locks → s'.issued = s.issued →
      (s'.control e.thread).Serves c ∧ Served s s' e.thread c := by
    rintro attempt id timeout won rfl hst hview hlocks hissued
    obtain ⟨won', hst', htakes⟩ := move_standing hinv ha hm hret hst
    refine ⟨Or.inr ⟨attempt, id, timeout, won', rfl, hmono hst'⟩, .stays ?_ hview hlocks hissued⟩
    rcases htakes with ⟨rfl, -⟩ | ⟨-, -, happly⟩
    · rw [hst.done_eq, hst'.done_eq]
    · rw [hview] at happly
      exact absurd happly (RwLock.apply_ne _ _)
  cases hm with
  | call hc =>
    rw [Event.thread, hc] at h
    rcases h with h | ⟨attempt, id, timeout, won, -, h⟩
    · cases c <;> exact absurd h not_false
    · exact absurd h not_false
  | @exec t spurious point op hc hop =>
    have hch : Change build s t point (s.exec build t point op spurious) :=
      hinv.exec_change hc hop (by rintro rfl; exact ha hc)
    rw [Event.thread, hc] at h
    rcases h with h | ⟨attempt, id, timeout, won, rfl, h⟩
    · obtain ⟨h, hserved⟩ := change_completing hinv hc hop hch h
      exact ⟨Or.inl h, hserved⟩
    · exact change_serves_attempt hinv hc hop hch h
  | unpark hc hfree =>
    rw [Event.thread, hc] at h
    rcases h with h | ⟨attempt, id, timeout, won, -, h⟩
    · refine ⟨Or.inl ?_, .of_same ?_ rfl rfl rfl⟩
      · simp only [Event.thread, State.setControl_control, Function.update_self]
        cases c <;> first | exact h | exact absurd h not_false
      · simp only [Event.thread, State.setControl_control, Function.update_self, hc]
        cases c with
        | unlockRead => rw [show _ = _ from h]; rfl
        | unlockWrite => rw [show _ = _ from h]; rfl
        | removeLocked => rw [show _ = _ from h]; rfl
        | _ => exact absurd h not_false
    · exact absurd h not_false
  | ret hc => exact absurd rfl hret
  | park hc hfree =>
    rcases h with h | ⟨attempt, id, timeout, won, rfl, h⟩
    · rw [Event.thread, hc] at h
      cases c <;> exact absurd h not_false
    · exact hquiet rfl h rfl rfl rfl
  | enqueue hc =>
    rcases h with h | ⟨attempt, id, timeout, won, rfl, h⟩
    · rw [Event.thread, hc] at h
      cases c <;> exact absurd h not_false
    · exact hquiet rfl h rfl rfl rfl
  | leave hc =>
    rcases h with h | ⟨attempt, id, timeout, won, rfl, h⟩
    · rw [Event.thread, hc] at h
      cases c <;> exact absurd h not_false
    · exact hquiet rfl h rfl rfl rfl
  | wake hc hq =>
    rcases h with h | ⟨attempt, id, timeout, won, rfl, h⟩
    · rw [Event.thread, hc] at h
      cases c <;> exact absurd h not_false
    · exact hquiet rfl h rfl rfl rfl
  | expire hc hq hfree =>
    rcases h with h | ⟨attempt, id, timeout, won, rfl, h⟩
    · rw [Event.thread, hc] at h
      cases c <;> exact absurd h not_false
    · exact hquiet rfl h rfl rfl rfl

end ReadWriteStore.Header

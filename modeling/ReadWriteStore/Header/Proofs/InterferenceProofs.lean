import ReadWriteStore.Header.Interference
import ReadWriteStore.Header.Proofs.RetryProofs

/-!
# Calls interfere a bounded number of times

Each piece of code between two steps leaves its thread with a bounded number of changes and wakeups, and a
step that makes one has more of them left before than after.
-/

namespace ReadWriteStore.Header

open Transition

/-! ## The code between two steps -/

section Code

variable {build : Build} {changes wakes : ℕ} {control : Control}

/-- The call has no more left than this, in the queue or not. -/
def Control.Within (changes wakes : ℕ) (control : Control) : Prop :=
  control.changes false ≤ changes ∧ control.wakes ≤ wakes

theorem Point.changes_le (point : Point) (queued : Bool) : point.changes queued ≤ point.changes false := by
  cases point with
  | parked => cases queued <;> simp [Point.changes]
  | _ => exact Nat.le_refl _

theorem Control.changes_le (control : Control) (queued : Bool) : control.changes queued ≤ control.changes false := by
  cases control with
  | running point => exact point.changes_le queued
  | _ => exact Nat.le_refl _

theorem Control.changes_le_add (control : Control) (queued queued' : Bool) :
    control.changes queued ≤ control.changes queued' + 2 := by
  cases control with
  | running point =>
    cases point with
    | parked =>
      show (if queued then 0 else 2) ≤ _
      split <;> omega
    | _ => exact Nat.le_add_right _ _
  | _ => exact Nat.zero_le _

theorem Control.Within.ofChecked {result : Checked Control}
    (h : ∀ control, result = .ok control → control.Within changes wakes) :
    (Control.ofChecked result).Within changes wakes := by
  cases result with
  | error fault => exact ⟨Nat.zero_le _, Nat.zero_le _⟩
  | ok control => exact h control rfl

theorem within_returned (result : Return) : (Control.returned result).Within changes wakes :=
  ⟨Nat.zero_le _, Nat.zero_le _⟩

theorem lockReadExchange_within (id : UInt32) (current : UInt64) (timeout : Timeout) :
    (Control.ofChecked (lockReadExchange build id current timeout)).Within 2 0 := by
  refine .ofChecked fun control h => ?_
  obtain ⟨new, -, h⟩ := Checked.bind_eq_ok h
  cases h
  exact ⟨Nat.le_refl _, Nat.le_refl _⟩

theorem lockReadWithCurrent_within (id : UInt32) (current : UInt64) (timeout : Timeout) :
    (Control.ofChecked (lockReadWithCurrent build id current timeout)).Within 2 0 := by
  unfold lockReadWithCurrent
  split
  · exact within_returned _
  · split
    · cases timeout with
      | dontBlock => exact within_returned _
      | _ => exact ⟨Nat.le_refl _, Nat.le_refl _⟩
    · exact lockReadExchange_within id current timeout

theorem unlockReadWithCurrent_within (id : UInt32) (current : UInt64) :
    (Control.ofChecked (unlockReadWithCurrent build id current)).Within 1 1 := by
  refine .ofChecked fun control h => ?_
  unfold unlockReadWithCurrent at h
  obtain ⟨_, -, h⟩ := Checked.bind_eq_ok h
  obtain ⟨_, -, h⟩ := Checked.bind_eq_ok h
  obtain ⟨_, -, h⟩ := Checked.bind_eq_ok h
  obtain ⟨_, -, h⟩ := Checked.bind_eq_ok h
  obtain ⟨_, -, h⟩ := Checked.bind_eq_ok h
  cases h
  exact ⟨Nat.le_refl _, Nat.le_refl _⟩

theorem transitionErr_within (expected new actual : UInt64) (timeout : Timeout) (caller : Caller) :
    (transitionErr expected new actual timeout caller).Within 2 0 := by
  unfold transitionErr
  split
  · split
    · cases timeout with
      | dontBlock => exact within_returned _
      | _ => exact ⟨Nat.le_refl _, Nat.le_refl _⟩
    · exact ⟨Nat.le_refl _, Nat.le_refl _⟩
  · exact within_returned _

theorem blockResult_within (frame : Frame) (deadline : Option Instant) (choice : BlockChoice) :
    (Control.ofChecked (blockResultToParkResult build frame deadline choice)).Within 2 0 := by
  refine .ofChecked fun control h => ?_
  cases choice with
  | block expectedState =>
    obtain ⟨newState, -, h⟩ := Checked.bind_eq_ok h
    cases h
    exact ⟨Nat.le_refl _, Nat.le_refl _⟩
  | dontBlock response =>
    cases h
    cases response <;> exact ⟨Nat.le_of_ble_eq_true rfl, Nat.le_refl _⟩

theorem afterFetchOr_within (old : UInt64) : (Control.ofChecked (afterFetchOr build old)).Within 0 0 := by
  refine .ofChecked fun control h => ?_
  unfold afterFetchOr at h
  obtain ⟨_, -, h⟩ := Checked.bind_eq_ok h
  obtain ⟨_, -, h⟩ := Checked.bind_eq_ok h
  cases h
  exact within_returned _

theorem afterSwap_within (id : UInt32) (old : UInt64) (result : Return) :
    (Control.ofChecked (afterSwap build id old result)).Within 0 1 := by
  refine .ofChecked fun control h => ?_
  unfold afterSwap at h
  obtain ⟨_, -, h⟩ := Checked.bind_eq_ok h
  obtain ⟨_, -, h⟩ := Checked.bind_eq_ok h
  obtain ⟨blocking, -, h⟩ := Checked.bind_eq_ok h
  cases blocking with
  | true => cases h; exact ⟨Nat.le_refl _, Nat.le_refl _⟩
  | false => cases h; exact within_returned _

theorem start_within (call : Call) : (Control.ofChecked (start build call)).Within 2 1 := by
  refine .ofChecked fun control h => ?_
  cases call with
  | lockRead id timeout | lockWrite id timeout =>
    obtain ⟨_, -, h⟩ := Checked.bind_eq_ok h
    cases h
    exact ⟨Nat.le_refl _, Nat.zero_le _⟩
  | remove id timeout =>
    obtain ⟨_, -, h⟩ := Checked.bind_eq_ok h
    obtain ⟨_, -, h⟩ := Checked.bind_eq_ok h
    cases h
    exact ⟨Nat.le_refl _, Nat.zero_le _⟩
  | unlockRead id | unlockWrite id =>
    cases h
    exact ⟨Nat.le_succ _, Nat.le_refl _⟩
  | occupy =>
    cases h
    exact ⟨Nat.le_succ _, Nat.zero_le _⟩
  | removeLocked id =>
    obtain ⟨_, -, h⟩ := Checked.bind_eq_ok h
    cases h
    exact ⟨Nat.le_succ _, Nat.le_refl _⟩

theorem occupy_within : (Control.ofChecked (start build .occupy)).Within 1 0 := ⟨Nat.le_refl _, Nat.le_refl _⟩

theorem removeLocked_within (id : UInt32) : (Control.ofChecked (start build (.removeLocked id))).Within 1 1 := by
  refine .ofChecked fun control h => ?_
  obtain ⟨_, -, h⟩ := Checked.bind_eq_ok h
  cases h
  exact ⟨Nat.le_refl _, Nat.le_refl _⟩

/-- A frame that has left `park` has no more left than it had there. -/
theorem resume_within (frame : Frame) (deadline : Option Instant) (response : Response) :
    (Control.ofChecked (frame.resume build response)).Within
      ((Point.leave frame deadline (some (.didntPark response))).changes false) 0 := by
  cases frame with
  | lockRead id timeout =>
    cases response with
    | matched current => exact lockReadExchange_within id current timeout
    | _ => exact within_returned _
  | transition => exact within_returned _

end Code

/-! ## Steps -/

section Steps

variable {T : Type} [DecidableEq T] {build : Build} {s s' : State T} {e : Event T} {t u : T} {control : Control}
  {changes wakes : ℕ}

theorem State.within (hc : s.control t = control) (h : control.Within changes wakes) :
    s.changes t ≤ changes ∧ s.wakes t ≤ wakes := by
  unfold State.changes State.wakes
  rw [hc]
  exact ⟨(control.changes_le _).trans h.1, h.2⟩

/-- What a point that is not in the queue has left. -/
theorem State.left_at {point : Point} (hc : s.control t = .running point) (hasleep : point.asleep = false) :
    s.changes t = point.changes false ∧ s.wakes t = point.wakes := by
  unfold State.changes State.wakes
  rw [hc]
  refine ⟨?_, rfl⟩
  cases point with
  | parked => cases hasleep
  | _ => rfl

/-- A step that leaves the word and the queue to the others as they are. -/
theorem Pays.of_still {point : Point} (hc : s.control t = .running point) (hasleep : point.asleep = false)
    (hc' : s'.control t = control) (h : control.Within (point.changes false) point.wakes) (hword : s'.word = s.word)
    (hqueue : ∀ u, u ≠ t → (u ∈ s'.queue ↔ u ∈ s.queue)) : Pays s s' t := by
  obtain ⟨hchanges, hwakes⟩ := State.left_at hc hasleep
  obtain ⟨hchanges', hwakes'⟩ := State.within hc' h
  exact ⟨by omega, by omega, Or.inl hword, Or.inl hqueue⟩

/-- A step that may change the word, and leaves the queue as it is. -/
theorem Pays.of_change {point : Point} (hc : s.control t = .running point) (hasleep : point.asleep = false)
    (hc' : s'.control t = control) (h : control.Within changes point.wakes) (hlt : changes < point.changes false)
    (hqueue : s'.queue = s.queue) : Pays s s' t := by
  obtain ⟨hchanges, hwakes⟩ := State.left_at hc hasleep
  obtain ⟨hchanges', hwakes'⟩ := State.within hc' h
  exact ⟨by omega, by omega, Or.inr (by omega), Or.inl fun u _ => by rw [hqueue]⟩

/-- An operation on the word. -/
theorem exec_pays {point : Point} {op : AtomicOp} {spurious : Bool} (hc : s.control t = .running point)
    (hop : point.op = some op) : Pays s (s.exec build t point op spurious) t := by
  have hstill : point.asleep = false → ∀ {word : UInt64} {reply : Reply}, op.exec spurious s.word = (word, reply) →
      word = s.word → (Control.ofChecked (point.resume build reply)).Within (point.changes false) point.wakes →
        Pays s (s.exec build t point op spurious) t := by
    intro hasleep word reply hexec hword hwithin
    rw [exec_eq hexec]
    refine .of_still hc hasleep (State.setControl_self _ _ _) hwithin ?_ fun u _ => ?_
    · rw [State.setControl_word, State.record_word, hword]
    · rw [State.setControl_queue, State.record_queue]
  have hchange : point.asleep = false → ∀ (changes : ℕ) {word : UInt64} {reply : Reply},
      op.exec spurious s.word = (word, reply) →
        (Control.ofChecked (point.resume build reply)).Within changes point.wakes → changes < point.changes false →
          Pays s (s.exec build t point op spurious) t := by
    intro hasleep changes word reply hexec hwithin hlt
    rw [exec_eq hexec]
    refine .of_change hc hasleep (State.setControl_self _ _ _) hwithin hlt ?_
    rw [State.setControl_queue, State.record_queue]
  cases point with
  | lockReadLoad id timeout =>
    cases hop
    exact hstill rfl rfl rfl (lockReadWithCurrent_within id s.word timeout)
  | lockReadExchange id current new timeout =>
    cases hop
    rcases compareExchangeWeak_cases current new spurious s.word with ⟨-, hexec⟩ | hexec
    · exact hchange rfl 0 hexec (within_returned _) (Nat.succ_pos _)
    · exact hstill rfl hexec rfl (lockReadWithCurrent_within id s.word timeout)
  | unlockReadLoad id =>
    cases hop
    exact hstill rfl rfl rfl (unlockReadWithCurrent_within id s.word)
  | unlockReadExchange id current new mustUnpark =>
    cases hop
    rcases compareExchangeWeak_cases current new spurious s.word with ⟨-, hexec⟩ | hexec
    · refine hchange rfl 0 hexec ?_ (Nat.succ_pos _)
      cases mustUnpark with
      | true => exact ⟨Nat.le_refl _, Nat.le_refl _⟩
      | false => exact within_returned _
    · exact hstill rfl hexec rfl (unlockReadWithCurrent_within id s.word)
  | transitionExchange expected new timeout caller =>
    cases hop
    rcases compareExchangeWeak_cases expected new spurious s.word with ⟨-, hexec⟩ | hexec
    · exact hchange rfl 0 hexec (within_returned _) (Nat.succ_pos _)
    · exact hstill rfl hexec rfl (transitionErr_within expected new s.word timeout caller)
  | closure frame deadline =>
    cases hop
    cases frame with
    | lockRead id timeout => exact hstill rfl rfl rfl (blockResult_within _ deadline _)
    | transition expected new caller =>
      rcases compareExchange_cases expected new spurious s.word with ⟨-, hexec⟩ | ⟨-, hexec⟩
      · exact hchange rfl 0 hexec ⟨Nat.le_refl _, Nat.le_refl _⟩ (Nat.succ_pos _)
      · exact hstill rfl hexec rfl (blockResult_within _ deadline _)
  | markExchange frame deadline expectedState newState =>
    cases hop
    rcases compareExchange_cases expectedState newState spurious s.word with ⟨-, hexec⟩ | ⟨-, hexec⟩
    · exact hchange rfl 0 hexec ⟨Nat.le_refl _, Nat.le_refl _⟩ (Nat.succ_pos _)
    · exact hstill rfl hexec rfl ⟨Nat.le_refl _, Nat.le_refl _⟩
  | unlockWriteSwap id new =>
    cases hop
    exact hchange rfl 0 rfl (afterSwap_within id s.word _) (Nat.succ_pos _)
  | removeLockedSwap id nextId new =>
    cases hop
    exact hchange rfl 0 rfl (afterSwap_within id s.word _) (Nat.succ_pos _)
  | occupyFetchOr =>
    cases hop
    exact hchange rfl 0 rfl (afterFetchOr_within s.word) (Nat.succ_pos _)
  | _ => cases hop

variable [Fintype T]

/-- Every step inside a call. -/
theorem Move.pays (hm : Move build s e s') (hinv : s.Inv) (hcall : ∀ t c, e ≠ .call t c) : Pays s s' e.thread := by
  cases hm with
  | call => exact absurd rfl (hcall _ _)
  | exec hc hop => exact exec_pays hc hop
  | park hc hfree =>
    exact .of_still hc rfl (State.setControl_self _ _ _) ⟨Nat.le_refl _, Nat.le_refl _⟩ rfl fun u _ => Iff.rfl
  | @enqueue t spurious frame deadline result hc =>
    show Pays s _ t
    refine ⟨?_, ?_, Or.inl rfl, Or.inl fun u hu => ?_⟩
    · have hq : decide (t ∈ s.queue ++ [t]) = true := by simp
      refine le_of_eq_of_le ?_ (Nat.zero_le _)
      show (Control.changes (decide (t ∈ s.queue ++ [t])) _) = 0
      rw [hq, State.setControl_self]
      rfl
    · refine le_of_eq_of_le ?_ (Nat.zero_le _)
      unfold State.wakes
      rw [State.setControl_self]
      rfl
    · show u ∈ s.queue ++ [t] ↔ u ∈ s.queue
      simp [hu]
  | @leave t spurious frame deadline result hc =>
    obtain ⟨-, response, rfl, -⟩ := hinv.running hc
    exact .of_still hc rfl (State.setControl_self _ _ _) (resume_within frame deadline response) rfl fun u _ => Iff.rfl
  | @wake t spurious frame deadline result hc hq =>
    obtain ⟨-, rfl⟩ := hinv.running hc
    have hwithin : (Control.running (.park frame deadline)).Within 2 0 := ⟨Nat.le_refl _, Nat.le_refl _⟩
    obtain ⟨hchanges, hwakes⟩ := State.within (s := s.setControl t (.running (.park frame deadline)))
      (State.setControl_self _ _ _) hwithin
    refine ⟨hchanges.trans (Nat.le_of_eq ?_), hwakes.trans (Nat.zero_le _), Or.inl rfl, Or.inl fun u _ => Iff.rfl⟩
    show 2 = s.changes t
    unfold State.changes
    rw [hc, decide_eq_false hq]
    rfl
  | @unpark t spurious result hc hfree =>
    have hwithin : (Control.returned result).Within 0 0 := within_returned _
    obtain ⟨hchanges, hwakes⟩ := State.within (s := { s with queue := ([] : List T) }.setControl t (.returned result))
      (State.setControl_self _ _ _) hwithin
    refine ⟨hchanges.trans (Nat.zero_le _), hwakes.trans (Nat.zero_le _), Or.inl rfl, Or.inr ?_⟩
    exact Nat.lt_of_le_of_lt hwakes ((State.left_at hc rfl).2 ▸ Nat.succ_pos _)
  | @expire t frame deadline result hc hq hfree =>
    obtain ⟨-, rfl⟩ := hinv.running hc
    have hwithin : (Control.ofChecked (afterPark build frame (some deadline) (some .timedOut))).Within 0 0 := by
      cases frame <;> exact within_returned _
    obtain ⟨hchanges, hwakes⟩ := State.within (s := s.expire build t frame deadline (some .waited))
      (State.setControl_self _ _ _) hwithin
    refine ⟨hchanges.trans (Nat.zero_le _), hwakes.trans (Nat.zero_le _), Or.inl rfl, Or.inl fun u hu => ?_⟩
    exact List.mem_erase_of_ne hu
  | @ret t hc =>
    have hwithin : Control.idle.Within 0 0 := ⟨Nat.le_refl _, Nat.le_refl _⟩
    obtain ⟨hchanges, hwakes⟩ := State.within (s := s.setControl t .idle) (State.setControl_self _ _ _) hwithin
    exact ⟨hchanges.trans (Nat.zero_le _), hwakes.trans (Nat.zero_le _), Or.inl rfl, Or.inl fun u _ => Iff.rfl⟩

omit [Fintype T] in
/-- What a step of one thread does to another one is paid for. -/
theorem Pays.others (hp : Pays s s' e.thread) (hm : Move build s e s') (hu : u ≠ e.thread) :
    s'.potential u ≤ s.potential u +
        5 * (s.changes e.thread - s'.changes e.thread + (s.wakes e.thread - s'.wakes e.thread)) ∧
      s'.changes u ≤ s.changes u + 2 * (s.wakes e.thread - s'.wakes e.thread) ∧ s'.wakes u = s.wakes u := by
  have hcontrol := (hm.frame hu).1
  have hpotential := hm.potential_other hu
  have hwakes : s'.wakes u = s.wakes u := congrArg Control.wakes hcontrol
  rcases hp.queue with hqueue | hlt
  · have hmem : decide (u ∈ s'.queue) = decide (u ∈ s.queue) := decide_eq_decide.2 (hqueue u hu)
    have hchanges : s'.changes u = s.changes u := by
      unfold State.changes
      rw [hcontrol, hmem]
    rcases hp.word with hword | hlt
    · have hsame : s'.potential u = s.potential u := by
        unfold State.potential
        rw [hcontrol, hword, hmem]
      exact ⟨by omega, by omega, hwakes⟩
    · exact ⟨by omega, by omega, hwakes⟩
  · have hchanges : s'.changes u ≤ s.changes u + 2 := by
      unfold State.changes
      rw [hcontrol]
      exact (s.control u).changes_le_add _ _
    exact ⟨by omega, by omega, hwakes⟩

omit [Fintype T] in
/-- Where a call begins and ends nothing happens to the others. -/
theorem Move.quiet_others (hm : Move build s e s') (he : (∃ c, e = .call e.thread c) ∨ e = .ret e.thread)
    (hu : u ≠ e.thread) :
    s'.potential u = s.potential u ∧ s'.changes u = s.changes u ∧ s'.wakes u = s.wakes u := by
  have hsame : ∀ control, s' = s.setControl e.thread control →
      s'.potential u = s.potential u ∧ s'.changes u = s.changes u ∧ s'.wakes u = s.wakes u := by
    rintro control rfl
    have hcontrol : (s.setControl e.thread control).control u = s.control u := Function.update_of_ne hu _ _
    unfold State.potential State.changes State.wakes
    rw [hcontrol]
    exact ⟨rfl, rfl, rfl⟩
  cases hm with
  | call | ret => exact hsame _ rfl
  | _ => rcases he with ⟨c, he⟩ | he <;> cases he

omit [Fintype T] in
/-- What a call has left where it begins. -/
theorem Move.begins {c : Call} (hm : Move build s (.call t c) s')
    (h : (Control.ofChecked (start build c)).Within changes wakes) :
    s'.potential t ≤ 6 ∧ s'.changes t ≤ changes ∧ s'.wakes t ≤ wakes := by
  cases hm with
  | call =>
    obtain ⟨hchanges, hwakes⟩ := State.within (s := s.setControl t _) (State.setControl_self _ _ _) h
    exact ⟨potential_fresh (State.setControl_self _ _ _) (start_fresh c), hchanges, hwakes⟩

end Steps

end ReadWriteStore.Header

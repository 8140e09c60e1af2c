import ReadWriteStore.Header.Retry
import ReadWriteStore.Header.Proofs.ServeProofs
import ReadWriteStore.Transition.Potential

/-!
# The retry loops end

A potential bounds the steps that a call has left: its distance to the end of the call, and a surcharge if
the word that it remembers has changed or it has been woken up. Steps of the thread lower it unless they
fail spuriously, and a step of another thread adds the surcharge at most.
-/

namespace ReadWriteStore.Header

open Transition

/-! ## The potential -/

/-- The steps to the end of the call or into the queue, if nobody interferes. -/
def Point.rank : Point → ℕ
  | .lockReadLoad _ _ | .transitionExchange _ _ _ _ => 6
  | .park _ _ => 5
  | .closure _ _ => 4
  | .markExchange _ _ _ _ | .leave _ _ _ | .unlockReadLoad _ => 3
  | .lockReadExchange _ _ _ _ | .unlockReadExchange _ _ _ _ | .enqueue _ _ _ | .unlockWriteSwap _ _
  | .removeLockedSwap _ _ _ | .occupyFetchOr => 2
  | .parked _ _ _ | .unpark _ => 1

/-- The word that the next compare exchange of a thread expects because the thread has read it. -/
def Point.lastRead : Point → Option UInt64
  | .lockReadExchange _ current _ _ | .unlockReadExchange _ current _ _ | .markExchange _ _ current _
  | .leave _ _ (some (.didntPark (.matched current))) => some current
  | _ => none

def Point.asleep : Point → Bool
  | .parked _ _ _ => true
  | _ => false

variable {T : Type}

/-- The thread has to go back: the word is not what it has read, or it has been woken up. -/
def Point.outdated (word : UInt64) (queued : Bool) (point : Point) : Bool :=
  match point.lastRead with
  | some current => word != current
  | none => point.asleep && !queued

def Control.potential (word : UInt64) (queued : Bool) : Control → ℕ
  | .running point => point.rank + if point.outdated word queued then 5 else 0
  | _ => 0

def State.potential [DecidableEq T] (s : State T) (t : T) : ℕ :=
  (s.control t).potential s.word (decide (t ∈ s.queue))

/-! ## After the word has been read -/

section Fresh

variable {build : Build} {word : UInt64} {rank : ℕ} {control : Control}

/-- A thread that has just read the word, with so much of its way left. -/
def Control.Fresh (word : UInt64) (rank : ℕ) : Control → Prop
  | .running point => point.rank ≤ rank ∧ point.asleep = false ∧
      ∀ current, point.lastRead = some current → current = word
  | _ => True

theorem Control.Fresh.mono {rank' : ℕ} (h : control.Fresh word rank) (hle : rank ≤ rank') :
    control.Fresh word rank' := by
  cases control with
  | running point => exact ⟨h.1.trans hle, h.2⟩
  | _ => trivial

theorem Control.Fresh.potential_le (h : control.Fresh word rank) (queued : Bool) :
    control.potential word queued ≤ rank := by
  cases control with
  | running point =>
    obtain ⟨hrank, hawake, hread⟩ := h
    have hnot : point.outdated word queued = false := by
      unfold Point.outdated
      cases hlast : point.lastRead with
      | some current => simp [hread current hlast]
      | none => simp [hawake]
    show (point.rank + if point.outdated word queued then 5 else 0) ≤ rank
    rw [hnot]
    exact hrank
  | _ => exact Nat.zero_le _

/-- The word may have changed in the meantime. -/
theorem Control.Fresh.potential_le_add {word' : UInt64} {queued : Bool} (h : control.Fresh word rank) :
    control.potential word' queued ≤ rank + 5 := by
  cases control with
  | running point =>
    have hrank := h.1
    show (point.rank + if point.outdated word' queued then 5 else 0) ≤ rank + 5
    split <;> omega
  | _ => exact Nat.zero_le _

theorem Control.Fresh.ofChecked {result : Checked Control}
    (h : ∀ control, result = .ok control → control.Fresh word rank) :
    (Control.ofChecked result).Fresh word rank := by
  cases result with
  | error fault => trivial
  | ok control => exact h control rfl

theorem lockReadExchange_fresh (id : UInt32) (timeout : Timeout) :
    (Control.ofChecked (lockReadExchange build id word timeout)).Fresh word 2 := by
  unfold lockReadExchange
  cases incrementReaders build word with
  | error fault => trivial
  | ok new => exact ⟨Nat.le_refl _, rfl, fun current h => (Option.some.inj h).symm⟩

theorem lockReadWithCurrent_fresh (id : UInt32) (timeout : Timeout) :
    (Control.ofChecked (lockReadWithCurrent build id word timeout)).Fresh word 5 := by
  unfold lockReadWithCurrent
  split
  · trivial
  · split
    · cases timeout with
      | dontBlock => trivial
      | _ => exact ⟨Nat.le_refl _, rfl, nofun⟩
    · exact (lockReadExchange_fresh id timeout).mono (by omega)

theorem unlockReadWithCurrent_fresh (id : UInt32) :
    (Control.ofChecked (unlockReadWithCurrent build id word)).Fresh word 2 := by
  refine .ofChecked fun control h => ?_
  unfold unlockReadWithCurrent at h
  obtain ⟨_, -, h⟩ := Checked.bind_eq_ok h
  obtain ⟨_, -, h⟩ := Checked.bind_eq_ok h
  obtain ⟨_, -, h⟩ := Checked.bind_eq_ok h
  obtain ⟨_, -, h⟩ := Checked.bind_eq_ok h
  obtain ⟨_, -, h⟩ := Checked.bind_eq_ok h
  cases h
  exact ⟨Nat.le_refl _, rfl, fun current h => (Option.some.inj h).symm⟩

theorem transitionErr_fresh (expected new : UInt64) (timeout : Timeout) (caller : Caller) :
    (transitionErr expected new word timeout caller).Fresh word
      (if (Point.transitionExchange expected new timeout caller).retries (.err word) then 6 else 5) := by
  unfold transitionErr
  by_cases hid : idFromBits word = idFromBits expected
  · rw [if_pos hid]
    by_cases hr : readersFromBits word > 0
    · rw [if_pos hr]
      cases timeout with
      | dontBlock => trivial
      | _ => exact ⟨by show 5 ≤ _; split <;> omega, rfl, fun _ h => by cases h⟩
    · rw [if_neg hr]
      have hretries : (Point.transitionExchange expected new timeout caller).retries (.err word) = true := by
        simp [Point.retries, Reply.isErr, Reply.found, hid, hr]
      rw [if_pos hretries]
      exact ⟨Nat.le_refl _, rfl, fun _ h => by cases h⟩
  · rw [if_neg hid]
    trivial

/-- The closure remembers the word that it has seen. -/
theorem blockResult_fresh {frame : Frame} {deadline : Option Instant} {reply : Reply}
    (hfound : reply.found = word) :
    (Control.ofChecked (blockResultToParkResult build frame deadline (frame.choice reply))).Fresh word 3 := by
  have hchoice : (∀ expectedState, frame.choice reply = .block expectedState → expectedState = word) ∧
      ∀ current, frame.choice reply = .dontBlock (.matched current) → current = word := by
    rw [← hfound]
    cases frame with
    | lockRead id timeout =>
      rcases Frame.choice_lockRead reply id timeout with ⟨-, he⟩ | ⟨-, -, he⟩ | ⟨-, -, he⟩
      · rw [he]
        exact ⟨fun _ h => (by cases h), fun _ h => (by cases h)⟩
      · rw [he]
        exact ⟨fun _ h => (BlockChoice.block.inj h).symm, fun _ h => (by cases h)⟩
      · rw [he]
        exact ⟨fun _ h => (by cases h), fun _ h => by cases h; rfl⟩
    | transition expected new caller =>
      cases reply with
      | ok found => exact ⟨fun _ h => (by cases h), fun _ h => (by cases h)⟩
      | value found | err found =>
        rcases Frame.choice_transition_err found expected new caller with ⟨-, he⟩ | ⟨-, he⟩
        · exact ⟨fun _ h => (BlockChoice.block.inj (he.symm.trans h)).symm, fun _ h => by cases he.symm.trans h⟩
        · exact ⟨fun _ h => (by cases he.symm.trans h), fun _ h => (by cases he.symm.trans h)⟩
  generalize frame.choice reply = choice at hchoice
  cases choice with
  | block expectedState =>
    obtain rfl := hchoice.1 expectedState rfl
    simp only [blockResultToParkResult]
    cases markThreadBlocking build expectedState with
    | error fault => trivial
    | ok newState => exact ⟨Nat.le_refl _, rfl, fun current h => (Option.some.inj h).symm⟩
  | dontBlock response =>
    refine ⟨Nat.le_refl _, rfl, fun current h => ?_⟩
    cases response with
    | matched current' =>
      cases h
      exact hchoice.2 _ rfl
    | _ => cases h

theorem afterFetchOr_fresh (old : UInt64) :
    (Control.ofChecked (afterFetchOr build old)).Fresh word 1 := by
  refine .ofChecked fun control h => ?_
  unfold afterFetchOr at h
  obtain ⟨_, -, h⟩ := Checked.bind_eq_ok h
  obtain ⟨_, -, h⟩ := Checked.bind_eq_ok h
  cases h
  trivial

theorem afterSwap_fresh (id : UInt32) (old : UInt64) (result : Return) :
    (Control.ofChecked (afterSwap build id old result)).Fresh word 1 := by
  refine .ofChecked fun control h => ?_
  unfold afterSwap at h
  obtain ⟨_, -, h⟩ := Checked.bind_eq_ok h
  obtain ⟨_, -, h⟩ := Checked.bind_eq_ok h
  obtain ⟨blocking, -, h⟩ := Checked.bind_eq_ok h
  cases blocking with
  | true => cases h; exact ⟨Nat.le_refl _, rfl, nofun⟩
  | false => cases h; trivial

/-- Where a call begins. -/
theorem start_fresh (call : Call) : (Control.ofChecked (start build call)).Fresh word 6 := by
  refine .ofChecked fun control h => ?_
  cases call with
  | lockRead id timeout | lockWrite id timeout =>
    obtain ⟨_, -, h⟩ := Checked.bind_eq_ok h
    cases h
    exact ⟨Nat.le_refl _, rfl, nofun⟩
  | unlockRead id | unlockWrite id | occupy =>
    cases h
    exact ⟨by simp [Point.rank], rfl, nofun⟩
  | remove id timeout =>
    obtain ⟨_, -, h⟩ := Checked.bind_eq_ok h
    obtain ⟨_, -, h⟩ := Checked.bind_eq_ok h
    cases h
    exact ⟨Nat.le_refl _, rfl, nofun⟩
  | removeLocked id =>
    obtain ⟨_, -, h⟩ := Checked.bind_eq_ok h
    cases h
    exact ⟨by simp [Point.rank], rfl, nofun⟩

end Fresh

/-! ## Steps -/

section Steps

variable [DecidableEq T] {build : Build} {s s' : State T} {e : Event T} {t : T}

theorem potential_running {point : Point} (hc : s.control t = .running point) :
    s.potential t = point.rank + if point.outdated s.word (decide (t ∈ s.queue)) then 5 else 0 := by
  unfold State.potential
  rw [hc]
  rfl

/-- A step that leaves the thread with something that it has just read. -/
theorem potential_fresh {control : Control} {rank : ℕ} (hc : s'.control t = control)
    (h : control.Fresh s'.word rank) : s'.potential t ≤ rank := by
  unfold State.potential
  rw [hc]
  exact h.potential_le _

/-- A step of another thread makes the thread go back at worst. -/
theorem Move.potential_other (hm : Move build s e s') (hu : t ≠ e.thread) :
    s'.potential t ≤ s.potential t + 5 := by
  unfold State.potential
  rw [(hm.frame hu).1]
  cases s.control t with
  | running point =>
    show (point.rank + if _ then 5 else 0) ≤ (point.rank + if _ then 5 else 0) + 5
    split <;> split <;> omega
  | _ => exact Nat.zero_le _

/-- A weak compare exchange that fails has found another word, or fails spuriously. -/
theorem weak_fails {expected new word : UInt64} {spurious : Bool}
    (h : (compareExchangeWeak expected new).exec spurious word = (word, .err word)) :
    word ≠ expected ∨ word = expected ∧ spurious = true := by
  by_cases hword : word = expected
  · cases spurious with
    | true => exact Or.inr ⟨hword, rfl⟩
    | false =>
      simp only [compareExchangeWeak, AtomicOp.exec, hword, and_self, if_true] at h
      cases congrArg Prod.snd h
  · exact Or.inl hword

omit [DecidableEq T] in
theorem failsSpuriously_of {point : Point} {expected new : UInt64} {spurious : Bool}
    (hc : s.control t = .running point) (hop : point.op = some (compareExchangeWeak expected new))
    (h : s.word = expected ∧ spurious = true) : s.failsSpuriously (.act t spurious) = true := by
  obtain ⟨hword, rfl⟩ := h
  simp only [State.failsSpuriously, State.operation, hc, hop, Option.map_some, compareExchangeWeak,
    hword, beq_self_eq_true]

/-- The surcharge of a thread whose word has changed. -/
theorem potential_outdated {point : Point} {current : UInt64} (hc : s.control t = .running point)
    (hread : point.lastRead = some current) (hne : s.word ≠ current) :
    s.potential t = point.rank + 5 := by
  have houtdated : point.outdated s.word (decide (t ∈ s.queue)) = true := by
    unfold Point.outdated
    rw [hread]
    simpa using hne
  rw [potential_running hc, houtdated]
  rfl

theorem rank_le_potential {point : Point} (hc : s.control t = .running point) :
    point.rank ≤ s.potential t := by
  rw [potential_running hc]
  exact Nat.le_add_right _ _

/-- A compare exchange that fails: the thread reads the word again. -/
theorem exchange_fails {point : Point} {expected new : UInt64} {spurious : Bool}
    (hc : s.control t = .running point) (hop : point.op = some (compareExchangeWeak expected new))
    (hread : point.lastRead = some expected)
    (hexec : (compareExchangeWeak expected new).exec spurious s.word = (s.word, .err s.word)) :
    point.rank + 5 ≤ s.potential t + if s.failsSpuriously (.act t spurious) then 6 else 0 := by
  rcases weak_fails hexec with hne | hspurious
  · rw [potential_outdated hc hread hne]
    exact Nat.le_add_right _ _
  · rw [failsSpuriously_of hc hop hspurious]
    have hle := rank_le_potential hc
    show point.rank + 5 ≤ s.potential t + 6
    omega

variable [Fintype T]

omit [DecidableEq T] in
/-- `transition` starts over only when it has seen the word that it expects: the only unlocked word that
carries an issued ID. -/
theorem State.Inv.transition_retries (h : s.Inv) {expected new : UInt64} {timeout : Timeout}
    {caller : Caller} (hc : s.control t = .running (.transitionExchange expected new timeout caller))
    (hretries : (Point.transitionExchange expected new timeout caller).retries (.err s.word) = true) :
    s.word = expected := by
  obtain ⟨hcaller, rfl, -⟩ := h.running hc
  simp only [Point.retries, Reply.isErr, Reply.found, Bool.true_and, Bool.and_eq_true, beq_iff_eq,
    Bool.not_eq_true', idFromBits_occupiedUnlockedBits] at hretries
  obtain ⟨hid, hr⟩ := hretries
  have hzero : readersFromBits s.word = 0 := by
    have hnot : ¬(0 : UInt32) < readersFromBits s.word := of_decide_eq_false hr
    rw [UInt32.lt_iff_toNat_lt] at hnot
    rw [← UInt32.toNat_inj]
    exact Nat.eq_zero_of_not_pos hnot
  rw [h.ledger.eq_unlocked (by rw [hid]; exact hcaller.1) hzero, hid]

/-- An operation on the word leaves its thread with a word that it has just read, and less to do unless it
has failed spuriously. -/
theorem State.Inv.exec_fresh (h : s.Inv) {point : Point} {op : AtomicOp} {spurious : Bool}
    (hc : s.control t = .running point) (hop : point.op = some op) :
    ∃ rank, ((s.exec build t point op spurious).control t).Fresh (s.exec build t point op spurious).word rank ∧
      rank + 1 ≤ s.potential t + if s.failsSpuriously (.act t spurious) then 6 else 0 := by
  have hp := h.running hc
  have hle := rank_le_potential hc
  generalize hcost : (if s.failsSpuriously (.act t spurious) then 6 else 0) = cost
  have hafter : ∀ (rank : ℕ) {word : UInt64} {reply : Reply}, op.exec spurious s.word = (word, reply) →
      (Control.ofChecked (point.resume build reply)).Fresh word rank → rank + 1 ≤ s.potential t + cost →
        ∃ rank, ((s.exec build t point op spurious).control t).Fresh
          (s.exec build t point op spurious).word rank ∧ rank + 1 ≤ s.potential t + cost := by
    intro rank word reply hexec hfresh hrank
    rw [exec_eq hexec, State.setControl_control, Function.update_self, State.setControl_word,
      State.record_word]
    exact ⟨rank, hfresh, hrank⟩
  -- the steps that always bring the thread forward
  have hforward : ∀ (rank : ℕ) {word : UInt64} {reply : Reply}, op.exec spurious s.word = (word, reply) →
      (Control.ofChecked (point.resume build reply)).Fresh word rank → rank + 1 ≤ point.rank →
        ∃ rank, ((s.exec build t point op spurious).control t).Fresh
          (s.exec build t point op spurious).word rank ∧ rank + 1 ≤ s.potential t + cost :=
    fun rank _ _ hexec hfresh hrank => hafter rank hexec hfresh (by omega)
  cases point with
  | lockReadLoad id timeout =>
    cases hop
    exact hforward _ rfl (lockReadWithCurrent_fresh id timeout) (Nat.le_refl _)
  | lockReadExchange id current new timeout =>
    cases hop
    rcases compareExchangeWeak_cases current new spurious s.word with ⟨-, hexec⟩ | hexec
    · exact hforward 0 hexec trivial (Nat.le_succ _)
    · have hfails := exchange_fails hc rfl rfl hexec
      rw [hcost] at hfails
      exact hafter _ hexec (lockReadWithCurrent_fresh id timeout) (Nat.le_of_succ_le hfails)
  | unlockReadLoad id =>
    cases hop
    exact hforward _ rfl (unlockReadWithCurrent_fresh id) (Nat.le_refl _)
  | unlockReadExchange id current new mustUnpark =>
    cases hop
    rcases compareExchangeWeak_cases current new spurious s.word with ⟨-, hexec⟩ | hexec
    · refine hforward 1 hexec ?_ (Nat.le_refl _)
      cases mustUnpark with
      | true => exact ⟨Nat.le_refl _, rfl, nofun⟩
      | false => trivial
    · have hfails := exchange_fails hc rfl rfl hexec
      rw [hcost] at hfails
      refine hafter _ hexec (unlockReadWithCurrent_fresh id) ?_
      have hrank : (Point.unlockReadExchange id current new mustUnpark).rank = 2 := rfl
      omega
  | transitionExchange expected new timeout caller =>
    cases hop
    obtain ⟨hcaller, rfl, -⟩ := hp
    have hrank : (Point.transitionExchange (occupiedUnlockedBits caller.id) new timeout caller).rank = 6 := rfl
    rcases compareExchangeWeak_cases (occupiedUnlockedBits caller.id) new spurious s.word with
      ⟨-, hexec⟩ | hexec
    · exact hforward 0 hexec trivial (by omega)
    · refine hafter _ hexec (transitionErr_fresh _ new timeout caller) ?_
      split
      · rename_i hretries
        have hword := h.transition_retries hc hretries
        have hspurious := (weak_fails hexec).resolve_left fun hne => hne hword
        rw [failsSpuriously_of hc rfl hspurious, if_pos rfl] at hcost
        omega
      · omega
  | closure frame deadline =>
    cases hop
    cases frame with
    | lockRead id timeout => exact hforward _ rfl (blockResult_fresh rfl) (Nat.le_refl _)
    | transition expected new caller =>
      rcases compareExchange_cases expected new spurious s.word with ⟨-, hexec⟩ | ⟨-, hexec⟩
      · exact hforward _ hexec ⟨Nat.le_refl _, rfl, nofun⟩ (Nat.le_refl _)
      · exact hforward _ hexec (blockResult_fresh rfl) (Nat.le_refl _)
  | markExchange frame deadline expectedState newState =>
    cases hop
    rcases compareExchange_cases expectedState newState spurious s.word with ⟨-, hexec⟩ | ⟨hne, hexec⟩
    · exact hforward _ hexec ⟨Nat.le_refl _, rfl, nofun⟩ (Nat.le_refl _)
    · have houtdated := potential_outdated hc rfl hne
      refine hafter 4 hexec ⟨Nat.le_refl _, rfl, nofun⟩ ?_
      have hrank : (Point.markExchange frame deadline expectedState newState).rank = 3 := rfl
      omega
  | unlockWriteSwap id new =>
    cases hop
    exact hforward _ rfl (afterSwap_fresh id s.word _) (Nat.le_refl _)
  | removeLockedSwap id nextId new =>
    cases hop
    exact hforward _ rfl (afterSwap_fresh id s.word _) (Nat.le_refl _)
  | occupyFetchOr =>
    cases hop
    exact hforward _ rfl (afterFetchOr_fresh s.word) (Nat.le_refl _)
  | _ => cases hop

/-! ### Any step -/

omit [Fintype T] [DecidableEq T] in
/-- A control that is fresh whatever the word is remembers nothing. -/
theorem Control.lastRead_of_forall {point : Point} (rank : ℕ)
    (h : ∀ word, (Control.running point).Fresh word rank) : point.lastRead = none := by
  rw [Option.eq_none_iff_forall_ne_some]
  intro current hread
  have hzero := (h 0).2.2 current hread
  have hone := (h 1).2.2 current hread
  exact absurd (hzero.symm.trans hone) (by decide)

/-- A step of the thread inside its call. -/
structure Advances (s s' : State T) (e : Event T) (t : T) : Prop where
  potential : s'.potential t + 1 ≤ s.potential t + if s.failsSpuriously e then 6 else 0
  /-- It remembers what it has just read, or what it remembered before. -/
  lastRead : ∀ point current, s'.control t = .running point → point.lastRead = some current →
    s.operates e = true ∧ s'.word = current ∨ s.operates e = false ∧ s'.word = s.word ∧
      ∃ point', s.control t = .running point' ∧ point'.lastRead = some current

omit [Fintype T] [DecidableEq T] in
theorem operates_eq {point : Point} {spurious : Bool} (hc : s.control t = .running point) :
    s.operates (.act t spurious) = point.op.isSome := by
  simp only [State.operates, State.operation, hc, Option.isSome_map]

omit [Fintype T] in
/-- A step off the word, after which the thread remembers nothing. -/
theorem Advances.of_forget {control : Control} (rank : ℕ) (hc : s'.control t = control)
    (h : ∀ word, control.Fresh word rank) (hrank : rank + 1 ≤ s.potential t) : Advances s s' e t where
  potential := (Nat.succ_le_succ (potential_fresh hc (h _))).trans (hrank.trans (Nat.le_add_right _ _))
  lastRead point current hc' hread := by
    rw [← hc, hc'] at h
    rw [Control.lastRead_of_forall rank h] at hread
    cases hread

omit [Fintype T] in
/-- A thread that enters the queue is not outdated there. -/
theorem Advances.of_queued {frame : Frame} {deadline : Option Instant} {result : Option ParkResult}
    (hc : s'.control t = .running (.parked frame deadline result)) (hq : t ∈ s'.queue)
    (hrank : 2 ≤ s.potential t) : Advances s s' e t where
  potential := by
    have hnot : (Point.parked frame deadline result).outdated s'.word (decide (t ∈ s'.queue)) = false := by
      rw [decide_eq_true hq]
      rfl
    rw [potential_running hc, hnot]
    exact hrank.trans (Nat.le_add_right _ _)
  lastRead point current hc' hread := by
    cases hc.symm.trans hc'
    cases hread

omit [Fintype T] in
/-- A thread that leaves `park` takes the word that it has read with it. -/
theorem Advances.of_leave {frame : Frame} {deadline : Option Instant} {response : Response} {spurious : Bool}
    (hc : s.control t = .running (.leave frame deadline (some (.didntPark response))))
    (hc' : s'.control t = .ofChecked (frame.resume build response)) (hword : s'.word = s.word) :
    Advances s s' (.act t spurious) t := by
  have hrank := rank_le_potential hc
  cases frame with
  | transition expected new caller => exact .of_forget 2 hc' (fun word => trivial) hrank
  | lockRead id timeout =>
    cases response with
    | mismatch | transitioned => exact .of_forget 2 hc' (fun word => trivial) hrank
    | matched current =>
      have hfresh : (s'.control t).Fresh current 2 := by
        rw [hc']
        exact lockReadExchange_fresh id timeout
      refine ⟨?_, fun point current' hpoint hread => Or.inr ⟨?_, hword, _, hc, ?_⟩⟩
      · refine Nat.le_trans ?_ (Nat.le_add_right _ _)
        by_cases hsame : s'.word = current
        · exact (Nat.succ_le_succ (potential_fresh rfl (hsame ▸ hfresh))).trans hrank
        · rw [potential_outdated hc rfl (by rw [← hword]; exact hsame)]
          exact Nat.succ_le_succ hfresh.potential_le_add
      · rw [operates_eq hc]
        rfl
      · rw [hpoint] at hfresh
        rw [hfresh.2.2 current' hread]
        rfl

/-- A step of a thread inside its call. -/
theorem Move.advances (hm : Move build s e s') (hinv : s.Inv) (hcall : ∀ t c, e ≠ .call t c)
    (hret : ∀ t, e ≠ .ret t) : Advances s s' e e.thread := by
  cases hm with
  | call => exact absurd rfl (hcall _ _)
  | ret => exact absurd rfl (hret _)
  | @exec t spurious point op hc hop =>
    obtain ⟨rank, hfresh, hrank⟩ := hinv.exec_fresh hc hop
    refine ⟨(Nat.succ_le_succ (potential_fresh rfl hfresh)).trans hrank, fun point' current hc' hread =>
      Or.inl ⟨?_, ?_⟩⟩
    · rw [operates_eq hc, hop]
      rfl
    · rw [show ((s.exec build t point op spurious).control t) = _ from hc'] at hfresh
      exact (hfresh.2.2 current hread).symm
  | park hc hfree =>
    exact .of_forget 4 (State.setControl_self _ _ _) (fun word => ⟨Nat.le_refl _, rfl, nofun⟩)
      (rank_le_potential hc)
  | enqueue hc =>
    exact .of_queued (State.setControl_self _ _ _) (List.mem_append_right _ (List.mem_singleton.2 rfl))
      (rank_le_potential hc)
  | @leave t spurious frame deadline result hc =>
    obtain ⟨-, response, rfl, -⟩ := hinv.running hc
    exact .of_leave hc (State.setControl_self _ _ _) rfl
  | @wake t spurious frame deadline result hc hq =>
    obtain ⟨-, rfl⟩ := hinv.running hc
    refine .of_forget 5 (State.setControl_self _ _ _) (fun word => ⟨Nat.le_refl _, rfl, nofun⟩) ?_
    have houtdated : (Point.parked frame deadline (some .waited)).outdated s.word (decide (t ∈ s.queue)) = true := by
      rw [decide_eq_false hq]
      rfl
    show 5 + 1 ≤ s.potential t
    rw [potential_running hc, houtdated]
    exact Nat.le_refl _
  | unpark hc hfree =>
    exact .of_forget 0 (State.setControl_self _ _ _) (fun word => trivial) (rank_le_potential hc)
  | expire hc hq hfree =>
    obtain ⟨-, rfl⟩ := hinv.running hc
    refine .of_forget 0 (State.setControl_self _ _ _) (fun word => ?_) (rank_le_potential hc)
    rename_i t frame deadline
    cases frame with
    | lockRead id timeout => trivial
    | transition expected new caller => trivial

end Steps

/-! ## Runs -/

section Runs

variable [Fintype T] [DecidableEq T] {build : Build} {n : ℕ} {state : ℕ → State T} {event : ℕ → Event T}
  {t : T} {call : Call} {i j : ℕ}

omit [Fintype T] in
theorem move_of_run (hrun : (machine build T).Run n state event) {m : ℕ} (hm : m < n) :
    Move build (state m) (event m) (state (m + 1)) :=
  Move.of_step (hrun.step m hm).2

theorem inv_of_run (hrun : (machine build T).Run n state event) {m : ℕ} (hm : m ≤ n) : (state m).Inv :=
  reachable_inv (hrun.reachable m hm)

omit [Fintype T] in
/-- The state after the call. -/
theorem start_of_run (hrun : (machine build T).Run n state event) (hcall : event i = .call t call)
    (hi : i < n) : (state (i + 1)).control t = .ofChecked (start build call) ∧
      (state (i + 1)).word = (state i).word := by
  have hm := move_of_run hrun hi
  rw [hcall] at hm
  generalize state (i + 1) = s' at hm
  cases hm with
  | call hidle => exact ⟨State.setControl_self _ _ _, rfl⟩

/-- Between its call and its return a thread serves the call. -/
theorem run_serves (hrun : (machine build T).Run n state event) (hcall : event i = .call t call)
    (hwithin : ∀ m, i < m → m < j → event m ≠ .ret t) {m : ℕ} (hm : m ≤ n) (hij : i < m) (hmj : m ≤ j) :
    ((state m).control t).Serves call := by
  induction m, hij using Nat.le_induction with
  | base =>
    have ha := (hrun.step i hm).1
    rw [hcall] at ha
    rw [(start_of_run hrun hcall hm).1]
    exact (start_serves (start_ok (inv_of_run hrun (Nat.le_of_lt hm)) ha)).1
  | succ m him ih =>
    have hserves := ih (by omega) (by omega)
    have hmove := move_of_run hrun hm
    by_cases hthread : (event m).thread = t
    · subst hthread
      exact (move_serves (inv_of_run hrun (Nat.le_of_lt hm)) (hrun.step m hm).1 hmove
        (hwithin m him (by omega)) hserves).1
    · rw [(hmove.frame (Ne.symm hthread)).1]
      exact hserves

/-- Every step of the thread between its call and its return. -/
theorem run_advances (hrun : (machine build T).Run n state event) (hcall : event i = .call t call)
    (hj : j ≤ n) (hwithin : ∀ m, i < m → m < j → event m ≠ .ret t) {m : ℕ} (him : i < m) (hmj : m < j)
    (hthread : (event m).thread = t) : Advances (state m) (state (m + 1)) (event m) t := by
  have hserves := run_serves hrun hcall hwithin (m := m) (by omega) him (by omega)
  have hmove := move_of_run hrun (m := m) (by omega)
  subst hthread
  refine hmove.advances (inv_of_run hrun (by omega)) (fun u c he => ?_) fun u he => ?_
  · rw [he] at hmove hserves
    generalize state (m + 1) = s' at hmove
    cases hmove with
    | call hidle =>
      rw [Event.thread, hidle] at hserves
      rcases hserves with hserves | ⟨attempt, id, timeout, won, -, hserves⟩
      · cases call <;> exact hserves
      · exact hserves
  · refine hwithin m him hmj ?_
    rw [he]
    rfl

/-! ### The steps are paid for -/

/-- What a step costs: another thread may change the word, and a spurious failure starts over. -/
def stepCost (state : ℕ → State T) (event : ℕ → Event T) (t : T) (m : ℕ) : ℕ :=
  5 * (if (event m).thread ≠ t then 1 else 0) +
    6 * if (event m).thread = t ∧ (state m).failsSpuriously (event m) = true then 1 else 0

theorem run_bounded (hrun : (machine build T).Run n state event) (hcall : event i = .call t call)
    (hij : i < j) (hj : j ≤ n) (hwithin : ∀ m, i < m → m < j → event m ≠ .ret t) :
    ownSteps event t (i + 1) j ≤
      6 * (1 + otherSteps event t (i + 1) j + spuriousFailures state event t (i + 1) j) := by
  have hstart : (state (i + 1)).potential t ≤ 6 :=
    potential_fresh (start_of_run hrun hcall (by omega)).1 (start_fresh call)
  have hpaid : ∀ k, i + 1 ≤ k → k < j →
      (state (k + 1)).potential t + (if (event k).thread = t then 1 else 0) ≤
        (state k).potential t + stepCost state event t k := by
    intro k hik hkj
    unfold stepCost
    by_cases hthread : (event k).thread = t
    · have hadvances := (run_advances hrun hcall hj hwithin hik hkj hthread).potential
      simp only [hthread, ne_eq, not_true_eq_false, if_true, if_false, true_and, Nat.mul_zero,
        Nat.zero_add]
      cases hspurious : (state k).failsSpuriously (event k) with
      | true =>
        rw [hspurious] at hadvances
        exact hadvances
      | false =>
        rw [hspurious] at hadvances
        exact hadvances
    · have hother := (move_of_run hrun (m := k) (by omega)).potential_other (Ne.symm hthread)
      simp only [hthread, ne_eq, not_false_eq_true, if_true, if_false, false_and]
      omega
  have htotal := sum_work_le (fun k => (state k).potential t) _ _ (Nat.succ_le_of_lt hij) hpaid
  have hwork : ∑ k ∈ Finset.Ico (i + 1) j, (if (event k).thread = t then 1 else 0)
      = ownSteps event t (i + 1) j := (Finset.card_filter _ _).symm
  have hcost : ∑ k ∈ Finset.Ico (i + 1) j, stepCost state event t k
      = 5 * otherSteps event t (i + 1) j + 6 * spuriousFailures state event t (i + 1) j := by
    unfold stepCost otherSteps spuriousFailures
    rw [Finset.sum_add_distrib, ← Finset.mul_sum, ← Finset.mul_sum, Finset.card_filter, Finset.card_filter]
  simp only [Nat.succ_eq_add_one, hwork, hcost] at htotal
  omega

/-! ### The cause of a retry -/

omit [Fintype T] in
/-- Only an operation changes the word. -/
theorem Move.word_of_not_operates {s s' : State T} {e : Event T} (hm : Move build s e s')
    (h : s.operates e = false) : s'.word = s.word := by
  rcases hm.word_eq with hsame | ⟨u, spurious, point, op, rfl, hc, hop, -⟩
  · exact hsame
  · rw [operates_eq hc, hop] at h
    cases h

/-- Step `read` is the last one before `m` at which the thread looks at the word. -/
def LastRead (state : ℕ → State T) (event : ℕ → Event T) (t : T) (read m : ℕ) : Prop :=
  (event read).thread = t ∧ (state read).operates (event read) = true ∧
    ∀ l, read < l → l < m → (event l).thread = t → (state l).operates (event l) = false

/-- What a thread remembers it has read since its call. -/
theorem run_lastRead (hrun : (machine build T).Run n state event) (hcall : event i = .call t call)
    (hj : j ≤ n) (hwithin : ∀ m, i < m → m < j → event m ≠ .ret t) {m : ℕ} (him : i < m) (hmj : m ≤ j)
    {point : Point} {current : UInt64} (hc : (state m).control t = .running point)
    (hread : point.lastRead = some current) :
    ∃ read, i < read ∧ read < m ∧ LastRead state event t read m ∧ (state (read + 1)).word = current := by
  induction m, him using Nat.le_induction generalizing point with
  | base =>
    have hnone : point.lastRead = none := by
      refine Control.lastRead_of_forall 6 fun word => ?_
      rw [← hc, (start_of_run hrun hcall (by omega)).1]
      exact start_fresh call
    rw [hnone] at hread
    cases hread
  | succ m him ih =>
    -- the last read is the same as before a step that does not look at the word
    have hkeep : ∀ point', (state m).control t = .running point' → point'.lastRead = some current →
        ((event m).thread = t → (state m).operates (event m) = false) →
        ∃ read, i < read ∧ read < m + 1 ∧ LastRead state event t read (m + 1) ∧
          (state (read + 1)).word = current := by
      intro point' hc' hread' hquiet
      obtain ⟨read, hir, hrm, ⟨hown, hop, hlater⟩, hword⟩ := ih (by omega) hc' hread'
      refine ⟨read, hir, by omega, ⟨hown, hop, fun l hrl hlm hthread => ?_⟩, hword⟩
      by_cases hl : l = m
      · subst hl
        exact hquiet hthread
      · exact hlater l hrl (by omega) hthread
    by_cases hthread : (event m).thread = t
    · rcases (run_advances hrun hcall hj hwithin him (by omega) hthread).lastRead point current hc hread with
        ⟨hop, hword⟩ | ⟨hquiet, -, point', hc', hread'⟩
      · exact ⟨m, him, by omega, ⟨hthread, hop, fun l hml hlm => by omega⟩, hword⟩
      · exact hkeep point' hc' hread' fun _ => hquiet
    · refine hkeep point ?_ hread fun h => absurd h hthread
      rw [← ((move_of_run hrun (m := m) (by omega)).frame (Ne.symm hthread)).1]
      exact hc

/-- A word that is not the one a thread remembers was changed by another thread. -/
theorem run_changedSince (hrun : (machine build T).Run n state event) (hcall : event i = .call t call)
    (hj : j ≤ n) (hwithin : ∀ m, i < m → m < j → event m ≠ .ret t) {m : ℕ} (him : i < m) (hmj : m < j)
    {point : Point} {current : UInt64} (hc : (state m).control t = .running point)
    (hread : point.lastRead = some current) (hne : (state m).word ≠ current) :
    ∃ read, i < read ∧ read < m ∧ ChangedSince state event t read m := by
  obtain ⟨read, hir, hrm, hlast, hword⟩ := run_lastRead hrun hcall hj hwithin him (by omega) hc hread
  rw [← hword] at hne
  obtain ⟨k, hrk, hkm, hk⟩ := exists_succ_ne (fun k => (state k).word) hrm hne
  refine ⟨read, hir, hrm, hlast, k, hrk, hkm, fun hthread => hk ?_, hk⟩
  exact (move_of_run hrun (m := k) (by omega)).word_of_not_operates (hlast.2.2 k hrk hkm hthread)

omit [Fintype T] [DecidableEq T] in
theorem State.of_retries {s : State T} {e : Event T} (h : s.retries e = true) :
    ∃ u spurious point op, e = .act u spurious ∧ s.control u = .running point ∧ point.op = some op ∧
      point.retries (op.exec spurious s.word).2 = true := by
  unfold State.retries State.operation at h
  cases e with
  | act u spurious =>
    cases hc : s.control u with
    | running point =>
      cases hop : point.op with
      | some op =>
        simp only [hc, hop, Option.map_some] at h
        exact ⟨u, spurious, point, op, rfl, hc, hop, h⟩
      | none =>
        simp only [hc, hop, Option.map_none] at h
        cases h
    | _ =>
      simp only [hc] at h
      cases h
  | _ => cases h

omit [DecidableEq T] in
/-- A retry of `transition`. -/
theorem State.Inv.transition_cause {s : State T} (h : s.Inv) {t : T} {spurious : Bool}
    {expected new : UInt64} {timeout : Timeout} {caller : Caller}
    (hc : s.control t = .running (.transitionExchange expected new timeout caller))
    (hretries : (Point.transitionExchange expected new timeout caller).retries
      ((compareExchangeWeak expected new).exec spurious s.word).2 = true) :
    s.word = expected ∧ s.failsSpuriously (.act t spurious) = true := by
  rcases compareExchangeWeak_cases expected new spurious s.word with ⟨-, hexec⟩ | hexec
  · rw [hexec] at hretries
    cases hretries
  · rw [hexec] at hretries
    have hword := h.transition_retries hc hretries
    exact ⟨hword, failsSpuriously_of hc rfl ((weak_fails hexec).resolve_left fun hne => hne hword)⟩

omit [DecidableEq T] in
/-- Why a method starts over: a word that it remembers has changed, or the step has failed spuriously. -/
theorem State.Inv.retry_cause {s : State T} (h : s.Inv) {t : T} {spurious : Bool} {point : Point}
    {op : AtomicOp} (hc : s.control t = .running point) (hop : point.op = some op)
    (hretries : point.retries (op.exec spurious s.word).2 = true) :
    s.failsSpuriously (.act t spurious) = true ∨
      ∃ current, point.lastRead = some current ∧ s.word ≠ current := by
  cases point with
  | lockReadExchange id current new timeout | unlockReadExchange id current new mustUnpark =>
    cases hop
    rcases compareExchangeWeak_cases current new spurious s.word with ⟨-, hexec⟩ | hexec
    · rw [hexec] at hretries
      cases hretries
    · rcases weak_fails hexec with hne | hspurious
      · exact Or.inr ⟨current, rfl, hne⟩
      · exact Or.inl (failsSpuriously_of hc rfl hspurious)
  | markExchange frame deadline expectedState newState =>
    cases hop
    rcases compareExchange_cases expectedState newState spurious s.word with ⟨-, hexec⟩ | ⟨hne, hexec⟩
    · rw [hexec] at hretries
      cases hretries
    · exact Or.inr ⟨expectedState, rfl, hne⟩
  | transitionExchange expected new timeout caller =>
    cases hop
    exact Or.inl (h.transition_cause hc hretries).2
  | _ => cases hretries

/-! ### The word that no call observes -/

omit [DecidableEq T] in
/-- The ID of a call was returned by an earlier `occupy`. -/
theorem State.Inv.issued_of_call {s : State T} (h : s.Inv) {t : T} (ha : Allowed s (.call t call))
    {id : UInt32} (hid : call.id = some id) : id ∈ s.issued := by
  -- the ID of a lock that is held is the one in the occupied header
  have hheld : idFromBits s.word = id → isOccupied s.word = true → id ∈ s.issued := by
    rintro rfl hocc
    exact h.ledger.occupied.1 ((isOccupied_iff _).1 hocc)
  cases call with
  | lockRead id' timeout | lockWrite id' timeout | remove id' timeout =>
    cases hid
    exact ha
  | unlockRead id' =>
    cases hid
    obtain ⟨hword, -, -, hocc⟩ := h.of_read_lock ha
    exact hheld hword hocc
  | unlockWrite id' | removeLocked id' =>
    cases hid
    obtain ⟨hword, -, hocc, -⟩ := h.of_write_lock ha
    exact hheld hword hocc
  | occupy => cases hid

theorem run_unobserved (hrun : (machine build T).Run n state event) (hcall : event i = .call t call)
    (hi : i < n) {id : UInt32} (hid : call.id = some id) {m : ℕ} (him : i ≤ m) (hm : m ≤ n) :
    ¬(isOccupied (state m).word = false ∧ idFromBits (state m).word = id) := by
  rintro ⟨hocc, hword⟩
  have ha := (hrun.step i hi).1
  rw [hcall] at ha
  have hissued : id ∈ (state m).issued :=
    hrun.persist (P := fun s => id ∈ s.issued) (fun s e s' _ hmem hs => (Move.of_step hs.2).issued_subset hmem)
      him hm ((inv_of_run hrun (Nat.le_of_lt hi)).issued_of_call ha hid)
  rw [← hword] at hissued
  have hoccupied := (isOccupied_iff _).2 ((inv_of_run hrun hm).ledger.occupied.2 hissued)
  rw [hocc] at hoccupied
  cases hoccupied

end Runs

/-! ## The theorem -/

/-- Only a step of another thread, or a spurious failure, makes a call try again, so that its own steps are
bounded by those. -/
theorem retries_end (build : Build) (T : Type) [Fintype T] [DecidableEq T] (n : ℕ) (state : ℕ → State T)
    (event : ℕ → Event T) (hrun : (machine build T).Run n state event) (t : T) (call : Call) (i j : ℕ)
    (hcall : event i = .call t call) (hij : i < j) (hj : j ≤ n)
    (hwithin : ∀ m, i < m → m < j → event m ≠ .ret t) : RetriesEnd state event t call i j where
  bounded := run_bounded hrun hcall hij hj hwithin
  caused := by
    intro m him hmj hthread hretries
    obtain ⟨u, spurious, point, op, he, hc, hop, hretries⟩ := State.of_retries hretries
    obtain rfl : u = t := by rw [he] at hthread; exact hthread
    rcases (inv_of_run hrun (m := m) (by omega)).retry_cause hc hop hretries with hspurious | ⟨current, hread, hne⟩
    · rw [he]
      exact Or.inl hspurious
    · exact Or.inr (run_changedSince hrun hcall hj hwithin him hmj hc hread hne)
  transition := by
    intro m him hmj hthread hretries expected new timeout caller hc
    obtain ⟨u, spurious, point, op, he, hc', hop, hretries⟩ := State.of_retries hretries
    obtain rfl : u = t := by rw [he] at hthread; exact hthread
    cases hc.symm.trans hc'
    cases hop
    rw [he]
    exact (inv_of_run hrun (by omega)).transition_cause hc hretries
  unobserved id hid m him hmj := run_unobserved hrun hcall (by omega) hid him (by omega)

/-- A reader that starts over twice: another reader comes first, and then the exchange fails spuriously. -/
def readerStartsOver : List (Event (Fin 2)) :=
  [.call 0 .occupy, .act 0 false, .ret 0, .call 0 (.lockRead 0 .dontBlock), .act 0 false,
    .call 1 (.lockRead 0 .dontBlock), .act 1 false, .act 1 false, .act 0 false, .act 0 true, .act 0 false]

theorem retries_end_reader :
    RetriesEnd (System.trace (step .debug) Allowed State.init readerStartsOver)
      (readerStartsOver.getD · (.ret 0)) 0 (.lockRead 0 .dontBlock) 3 11 := by
  have hevents : ∀ m < 11, 3 < m → readerStartsOver.getD m (.ret 0) ≠ .ret 0 := by decide
  exact retries_end .debug (Fin 2) 11 _ _
    (run_of_replay .debug readerStartsOver (.ret 0) (by decide +kernel)) 0 _ 3 11 rfl (by omega) (by omega)
    fun m hm hmj => hevents m hmj hm

end ReadWriteStore.Header

import ReadWriteStore.Header.Proofs.ExclusionProofs

/-!
# No lost wakeup

A thread in the parking queue of a header is covered: the header is locked and carries the waiting
mark, so that the step that unlocks it will see the mark, or a thread that has already taken such a
step still has its `unpark` to run. The invariant also follows the queue lock, because the cover has
to hold from the moment the mark is set inside the closure, before the thread is in the queue.
-/

namespace ReadWriteStore.Header

open Transition

/-! ## Stages of parking -/

/-- Where a thread stands with respect to the parking queue. -/
inductive Stage
  | outside
  /-- Holds the queue lock and has not set the waiting mark, or gives up. -/
  | inside
  /-- Holds the queue lock and is about to enter the queue. -/
  | entering
  | asleep
  | waking
  deriving DecidableEq

def Point.stage : Point → Stage
  | .closure _ _ | .markExchange _ _ _ _ | .leave _ _ _ => .inside
  | .enqueue _ _ _ => .entering
  | .parked _ _ _ => .asleep
  | .unpark _ => .waking
  | _ => .outside

def Control.stage : Control → Stage
  | .running point => point.stage
  | _ => .outside

/-- The stages of the thread that holds the queue lock. -/
def Stage.Holds (stage : Stage) : Prop := stage = .inside ∨ stage = .entering

theorem Control.unpark_of_stage {control : Control} (h : control.stage = .waking) :
    ∃ result, control = .running (.unpark result) := by
  cases control with
  | running point =>
    cases point with
    | unpark result => exact ⟨result, rfl⟩
    | _ => cases h
  | _ => cases h

/-- The header is locked and its waiting mark is set. -/
def Marked (word : UInt64) : Prop :=
  readersFromBits word ≠ 0 ∧ word &&& threadNotificationMask = 0

/-- What a call returns whose step unlocked or removed the element. -/
def Return.Releases : Return → Prop
  | .unlockRead | .unlockWrite | .removeLocked _ => True
  | _ => False

theorem marked_iff (word : UInt64) : Marked word ↔ 2 ^ 32 ≤ word.toNat ∧ word.toNat < 2 ^ 63 := by
  have hmask := no_threadBlocking_iff word
  rw [beq_iff_eq] at hmask
  have hr : readersFromBits word ≠ 0 ↔ word.toNat / 2 ^ 32 % 2 ^ 31 ≠ 0 := by
    rw [ne_eq, ← UInt32.toNat_inj, readersFromBits_toNat]
    rfl
  unfold Marked
  rw [hr, hmask]
  omega

/-- The unlocked word has no mark. -/
theorem not_marked_unlocked (id : UInt32) : ¬Marked (occupiedUnlockedBits id) := by
  rw [marked_iff, occupiedUnlockedBits_toNat]
  omega

section Code

variable {build : Build} {id : UInt32} {current : UInt64} {timeout : Timeout}

theorem Control.ofChecked_stage {x : Checked Control}
    (hok : ∀ control, x = .ok control → control.stage = .outside) :
    (Control.ofChecked x).stage = .outside := by
  cases x with
  | ok control => exact hok control rfl
  | error fault => rfl

theorem lockReadExchange_stage :
    (Control.ofChecked (lockReadExchange build id current timeout)).stage = .outside := by
  apply Control.ofChecked_stage
  intro control hok
  obtain ⟨new, -, hnew⟩ := Checked.bind_eq_ok hok
  cases hnew
  rfl

theorem lockReadWithCurrent_stage :
    (Control.ofChecked (lockReadWithCurrent build id current timeout)).stage = .outside := by
  unfold lockReadWithCurrent
  split
  · rfl
  · split
    · cases timeout <;> rfl
    · exact lockReadExchange_stage

theorem unlockReadWithCurrent_stage :
    (Control.ofChecked (unlockReadWithCurrent build id current)).stage = .outside := by
  apply Control.ofChecked_stage
  intro control hok
  -- three assertions, the question for waiting threads and the decrement
  obtain ⟨-, -, hok⟩ := Checked.bind_eq_ok hok
  obtain ⟨-, -, hok⟩ := Checked.bind_eq_ok hok
  obtain ⟨-, -, hok⟩ := Checked.bind_eq_ok hok
  obtain ⟨blocking, -, hok⟩ := Checked.bind_eq_ok hok
  obtain ⟨decremented, -, hok⟩ := Checked.bind_eq_ok hok
  cases hok
  rfl

theorem transitionErr_stage {expected new actual : UInt64} {caller : Caller} :
    (transitionErr expected new actual timeout caller).stage = .outside := by
  unfold transitionErr
  split
  · split
    · cases timeout <;> rfl
    · rfl
  · rfl

theorem afterPark_stage {frame : Frame} {deadline : Option Instant} {result : Option ParkResult} :
    (Control.ofChecked (afterPark build frame deadline result)).stage = .outside := by
  apply Control.ofChecked_stage
  intro control hok
  obtain ⟨parkResult, -, hok⟩ := Checked.bind_eq_ok hok
  cases parkResult with
  | waited => cases hok; rfl
  | timedOut =>
    cases hok
    cases frame <;> rfl
  | didntPark response =>
    cases frame with
    | lockRead id timeout =>
      cases response with
      | matched current =>
        obtain ⟨new, -, hok⟩ := Checked.bind_eq_ok hok
        cases hok
        rfl
      | _ => cases hok; rfl
    | transition expected new caller => cases hok; rfl

/-- The same for a thread that gives up. -/
theorem expire_stage {frame : Frame} {deadline : Option Instant} {result : Option ParkResult} :
    (Control.ofChecked do
      let result ← timedOutCallback build result
      afterPark build frame deadline (some result)).stage = .outside := by
  apply Control.ofChecked_stage
  intro control hok
  obtain ⟨result', -, hok⟩ := Checked.bind_eq_ok hok
  have hpark := @afterPark_stage build frame deadline (some result')
  rw [hok] at hpark
  exact hpark

theorem start_stage {call : Call} : (Control.ofChecked (start build call)).stage = .outside := by
  apply Control.ofChecked_stage
  intro control hok
  cases call with
  | lockRead id timeout =>
    obtain ⟨-, -, hok⟩ := Checked.bind_eq_ok hok
    cases hok
    rfl
  | lockWrite id timeout =>
    obtain ⟨-, -, hok⟩ := Checked.bind_eq_ok hok
    cases hok
    rfl
  | remove id timeout =>
    obtain ⟨-, -, hok⟩ := Checked.bind_eq_ok hok
    obtain ⟨nextId, -, hok⟩ := Checked.bind_eq_ok hok
    cases hok
    rfl
  | removeLocked id =>
    obtain ⟨nextId, -, hok⟩ := Checked.bind_eq_ok hok
    cases hok
    rfl
  | _ => cases hok; rfl

/-- A load or a failed compare exchange keeps the stage: the closure goes on under the queue lock, and
everything else stays outside of the queue. -/
theorem resume_stage {point : Point} {op : AtomicOp} {reply : Reply} {word : UInt64}
    {issued : List UInt32} {locks : List Lock} (hop : point.op = some op)
    (hreply : reply = .value word ∨ reply = .err word) (heffect : point.effect reply = .none)
    (hself : (Control.ofChecked (point.resume build reply)).Ok issued locks) :
    (Control.ofChecked (point.resume build reply)).stage = point.stage ∧
      (point.stage = .outside ∨ point.stage = .inside) := by
  have hne : ∀ old, reply ≠ .ok old := by
    intro old he
    rcases hreply with rfl | rfl <;> cases he
  cases point with
  | lockReadLoad id timeout => exact ⟨lockReadWithCurrent_stage, Or.inl rfl⟩
  | lockReadExchange id current new timeout =>
    refine ⟨?_, Or.inl rfl⟩
    rcases hreply with rfl | rfl <;> exact lockReadWithCurrent_stage
  | unlockReadLoad id => exact ⟨unlockReadWithCurrent_stage, Or.inl rfl⟩
  | unlockReadExchange id current new mustUnpark =>
    refine ⟨?_, Or.inl rfl⟩
    rcases hreply with rfl | rfl <;> exact unlockReadWithCurrent_stage
  | transitionExchange expected new timeout caller =>
    refine ⟨?_, Or.inl rfl⟩
    rcases hreply with rfl | rfl <;> exact transitionErr_stage
  | closure frame deadline =>
    refine ⟨?_, Or.inr rfl⟩
    simp only [Point.resume] at hself ⊢
    cases hchoice : frame.choice reply with
    | dontBlock response => rfl
    | block expectedState =>
      rw [hchoice] at hself
      simp only [blockResultToParkResult] at hself ⊢
      cases hmark : markThreadBlocking build expectedState with
      | ok newState => rfl
      | error fault =>
        -- the closure never faults: the fault would not be the limit on readers
        rw [hmark] at hself
        have hfault : fault = tooManyReaders := hself
        rcases Checked.bind_eq_error hmark with hassert | ⟨-, -, hmark⟩
        · cases (debugAssert_error hassert).symm.trans hfault
        · rcases Checked.bind_eq_error hmark with hassert | ⟨-, -, hok⟩
          · cases (debugAssert_error hassert).symm.trans hfault
          · cases hok
  | markExchange frame deadline expectedState newState =>
    refine ⟨?_, Or.inr rfl⟩
    rcases hreply with rfl | rfl <;> rfl
  | unlockWriteSwap id new => cases heffect
  | removeLockedSwap id nextId new => cases heffect
  | occupyFetchOr => cases heffect
  | _ => cases hop

end Code

/-! ## The invariant -/

structure Parking {T : Type} (s : State T) : Prop where
  nodup : s.queue.Nodup
  asleep : ∀ t ∈ s.queue, (s.control t).stage = .asleep
  lock : ∀ t, s.queueLock = some t ↔ (s.control t).stage.Holds
  releases : ∀ t result, s.control t = .running (.unpark result) → result.Releases
  covered : (s.queue ≠ [] ∨ ∃ t, (s.control t).stage = .entering) →
    Marked s.word ∨ ∃ t, (s.control t).stage = .waking

namespace Parking

variable {T : Type} {build : Build} {s s' : State T}

theorem init : Parking (State.init : State T) where
  nodup := List.nodup_nil
  asleep := by simp [State.init]
  lock := by simp [State.init, Control.stage, Stage.Holds]
  releases := by simp [State.init]
  covered := by simp [State.init, Control.stage]

/-- A thread that is not asleep is not in the queue. -/
theorem not_queued (h : Parking s) {t : T} (ht : (s.control t).stage ≠ .asleep) : t ∉ s.queue :=
  fun hq => ht (h.asleep t hq)

/-- A step of `t` that leaves the queue and its lock alone. -/
theorem keep (h : Parking s) (t : T) (hqueue : s'.queue = s.queue)
    (hlock : s'.queueLock = s.queueLock) (hother : ∀ u, u ≠ t → s'.control u = s.control u)
    (hholds : (s'.control t).stage.Holds ↔ (s.control t).stage.Holds)
    (hasleep : t ∈ s.queue → (s'.control t).stage = .asleep)
    (hreleases : ∀ result, s'.control t = .running (.unpark result) → result.Releases)
    (hwaking : (s.control t).stage ≠ .waking)
    (hentering : (s'.control t).stage = .entering → Marked s'.word)
    (hword : Marked s.word → Marked s'.word ∨ (s'.control t).stage = .waking) : Parking s' where
  nodup := by rw [hqueue]; exact h.nodup
  asleep := by
    intro u hu
    rw [hqueue] at hu
    by_cases hut : u = t
    · subst hut; exact hasleep hu
    · rw [hother u hut]; exact h.asleep u hu
  lock := by
    intro u
    rw [hlock, h.lock u]
    by_cases hut : u = t
    · subst hut; exact hholds.symm
    · rw [hother u hut]
  releases := by
    intro u result hu
    by_cases hut : u = t
    · subst hut; exact hreleases result hu
    · rw [hother u hut] at hu; exact h.releases u result hu
  covered := by
    rw [hqueue]
    intro hcause
    by_cases ht : (s'.control t).stage = .entering
    · exact Or.inl (hentering ht)
    have hcause' : s.queue ≠ [] ∨ ∃ u, (s.control u).stage = .entering := by
      rcases hcause with hq | ⟨u, hu⟩
      · exact Or.inl hq
      · have hut : u ≠ t := by rintro rfl; exact ht hu
        rw [hother u hut] at hu
        exact Or.inr ⟨u, hu⟩
    rcases h.covered hcause' with hmark | ⟨u, hu⟩
    · rcases hword hmark with hmark' | hwake
      · exact Or.inl hmark'
      · exact Or.inr ⟨t, hwake⟩
    · have hut : u ≠ t := by rintro rfl; exact hwaking hu
      exact Or.inr ⟨u, by rw [hother u hut]; exact hu⟩

/-- A step of `t` from outside of the queue to outside of the queue, or to waking the queue. -/
theorem keep_outside (h : Parking s) (t : T) (hqueue : s'.queue = s.queue)
    (hlock : s'.queueLock = s.queueLock) (hother : ∀ u, u ≠ t → s'.control u = s.control u)
    (hbefore : (s.control t).stage = .outside)
    (hafter : (s'.control t).stage = .outside ∨
      ∃ result, s'.control t = .running (.unpark result) ∧ result.Releases)
    (hword : Marked s.word → Marked s'.word ∨ (s'.control t).stage = .waking) : Parking s' := by
  refine h.keep t hqueue hlock hother ?_ ?_ ?_ ?_ ?_ hword
  · rcases hafter with ha | ⟨result, ha, -⟩
    · rw [ha, hbefore]
    · rw [ha, hbefore]
      simp [Stage.Holds, Control.stage, Point.stage]
  · intro hq
    have := h.asleep t hq
    rw [hbefore] at this
    cases this
  · intro result hr
    rcases hafter with ha | ⟨result', ha, hrel⟩
    · rw [hr] at ha
      cases ha
    · rw [hr] at ha
      cases ha
      exact hrel
  · rw [hbefore]
    intro he
    cases he
  · intro he
    rcases hafter with ha | ⟨result, ha, -⟩
    · rw [ha] at he
      cases he
    · rw [ha] at he
      cases he

theorem covered_by_other (h : Parking s) {t : T} (ht : (s.control t).stage ≠ .waking)
    (hcause : s.queue ≠ [] ∨ ∃ u, (s.control u).stage = .entering) :
    Marked s.word ∨ ∃ u, u ≠ t ∧ (s.control u).stage = .waking := by
  rcases h.covered hcause with hmark | ⟨u, hu⟩
  · exact Or.inl hmark
  · refine Or.inr ⟨u, ?_, hu⟩
    rintro rfl
    exact ht hu

/-- Nobody is inside while the queue lock is free. -/
theorem nobody_holds (h : Parking s) (hfree : s.queueLock = none) (u : T) :
    ¬(s.control u).stage.Holds := by
  intro hu
  have := (h.lock u).2 hu
  rw [hfree] at this
  cases this

/-- Only the holder of the queue lock is inside. -/
theorem others_outside (h : Parking s) {t : T} (ht : (s.control t).stage.Holds) {u : T}
    (hut : u ≠ t) : ¬(s.control u).stage.Holds := by
  intro hu
  have ht' := (h.lock t).2 ht
  have hu' := (h.lock u).2 hu
  rw [ht'] at hu'
  exact hut (Option.some_inj.1 hu').symm

variable [DecidableEq T]

/-- A step of `t` on the queue, while nobody else is inside. -/
theorem requeue (h : Parking s) {t : T} {queue : List T} {lock : Option T} {control : Control}
    (hnodup : queue.Nodup)
    (hqueue : ∀ u ∈ queue, u ∈ s.queue ∧ u ≠ t ∨ u = t ∧ control.stage = .asleep)
    (hothers : ∀ u, u ≠ t → ¬(s.control u).stage.Holds)
    (hlock : ∀ u, lock = some u ↔ u = t ∧ control.stage.Holds)
    (hself : control.stage ≠ .entering ∧ control.stage ≠ .waking)
    (hcovered : queue ≠ [] → Marked s.word ∨ ∃ u, u ≠ t ∧ (s.control u).stage = .waking) :
    Parking ({ s with queue := queue, queueLock := lock }.setControl t control) where
  nodup := hnodup
  asleep := by
    intro u hu
    rcases hqueue u hu with ⟨hu, hut⟩ | ⟨rfl, hself⟩
    · simpa [hut] using h.asleep u hu
    · simpa using hself
  lock := by
    intro u
    simp only [State.setControl_queueLock, State.setControl_control]
    rw [hlock u]
    by_cases hut : u = t
    · subst hut
      rw [Function.update_self]
      exact ⟨fun hu => hu.2, fun hu => ⟨rfl, hu⟩⟩
    · rw [Function.update_of_ne hut]
      exact ⟨fun hu => absurd hu.1 hut, fun hu => absurd hu (hothers u hut)⟩
  releases := by
    intro u result hu
    simp only [State.setControl_control] at hu
    by_cases hut : u = t
    · subst hut
      rw [Function.update_self] at hu
      exact absurd (by rw [hu]; rfl) hself.2
    · rw [Function.update_of_ne hut] at hu
      exact h.releases u result hu
  covered := by
    simp only [State.setControl_queue, State.setControl_control, State.setControl_word]
    rintro (hq | ⟨u, hu⟩)
    · rcases hcovered hq with hmark | ⟨u, hut, hu⟩
      · exact Or.inl hmark
      · exact Or.inr ⟨u, by rw [Function.update_of_ne hut]; exact hu⟩
    · by_cases hut : u = t
      · subst hut
        rw [Function.update_self] at hu
        exact absurd hu hself.1
      · rw [Function.update_of_ne hut] at hu
        exact absurd (Or.inr hu) (hothers u hut)

/-- The same for a step on the word. -/
theorem keep_effect (h : Parking s) {t : T} {word : UInt64} {effect : Effect} {control : Control}
    (hbefore : (s.control t).stage = .outside)
    (hafter : control.stage = .outside ∨
      ∃ result, control = .running (.unpark result) ∧ result.Releases)
    (hword : Marked s.word → Marked word ∨ control.stage = .waking) :
    Parking (({ s with word := word }.record t effect).setControl t control) := by
  refine h.keep_outside t (by simp) (by simp) (fun u hu => by simp [hu]) hbefore ?_ ?_
  · simpa using hafter
  · simpa using hword

theorem wakeIf_stage (old : UInt64) {result : Return} (hrel : result.Releases) :
    ((wakeIf old result).stage = .outside ∨
      ∃ woken, wakeIf old result = .running (.unpark woken) ∧ woken.Releases) ∧
    (Marked old → (wakeIf old result).stage = .waking) := by
  unfold wakeIf
  rw [marked_iff]
  split
  · exact ⟨Or.inr ⟨result, rfl, hrel⟩, fun _ => rfl⟩
  · exact ⟨Or.inl rfl, fun h => absurd h.2 (by assumption)⟩

/-- An operation on the word keeps sleeping threads covered. -/
theorem change (h : Parking s) {t : T} {point : Point} {op : AtomicOp}
    (hc : s.control t = .running point) (hop : point.op = some op)
    (hch : Change build s t point s') : Parking s' := by
  have hstage : (s.control t).stage = point.stage := by rw [hc]; rfl
  cases hch with
  | @stay point reply hreply heffect hself =>
    obtain ⟨hsame, hplain⟩ := resume_stage hop hreply heffect hself
    have hafter : ((s.setControl t (.ofChecked (point.resume build reply))).control t).stage
        = (s.control t).stage := by
      rw [State.setControl_control, Function.update_self, hsame, hstage]
    have hne : ((s.setControl t (.ofChecked (point.resume build reply))).control t).stage ≠ .waking ∧
        ((s.setControl t (.ofChecked (point.resume build reply))).control t).stage ≠ .entering := by
      rw [hafter, hstage]
      rcases hplain with hp | hp <;> rw [hp] <;> exact ⟨by decide, by decide⟩
    refine h.keep t rfl rfl (fun u hu => by simp [hu]) (by rw [hafter]) ?_ ?_ ?_ ?_ Or.inl
    · intro hq
      rw [hafter]
      exact h.asleep t hq
    · intro result hr
      rw [hr] at hne
      exact absurd rfl hne.1
    · rw [← hafter]
      exact hne.1
    · intro he
      exact absurd he hne.2
  | @mark frame deadline hframe hr hid =>
    have hmarked : Marked (s.word &&& ~~~threadNotificationMask) := by
      have hne : s.word.toNat / 2 ^ 32 % 2 ^ 31 ≠ 0 := by
        rw [← readersFromBits_toNat]
        intro he
        exact hr (UInt32.toNat_inj.1 he)
      rw [marked_iff, mark_toNat]
      omega
    refine h.keep t rfl rfl (fun u hu => by simp [hu]) ?_ ?_ ?_ ?_ (fun _ => hmarked)
      (fun _ => Or.inl hmarked)
    · rw [hstage]
      simp [Stage.Holds, Control.stage, Point.stage]
    · intro hq
      have := h.asleep t hq
      rw [hstage] at this
      cases this
    · intro result hr
      simp at hr
    · rw [hstage]
      intro he
      cases he
  | @addReader id timeout hmem hid hw hr =>
    refine h.keep_effect hstage (Or.inl rfl) fun hmark => Or.inl ?_
    have hne : s.word.toNat / 2 ^ 32 % 2 ^ 31 ≠ 2 ^ 31 - 1 := by
      intro he
      rw [← isWriteLocked_iff, hw] at he
      cases he
    rw [marked_iff] at hmark ⊢
    rw [increment_toNat (by omega)]
    omega
  | @dropReader id new mustUnpark hlock hleave =>
    obtain ⟨hmust, rfl⟩ := hleave
    cases mustUnpark with
    | true => exact h.keep_effect hstage (Or.inr ⟨_, rfl, trivial⟩) fun _ => Or.inr rfl
    | false =>
      refine h.keep_effect hstage (Or.inl rfl) fun hmark => Or.inl ?_
      -- the mark stays because another reader does
      rw [marked_iff] at hmark
      have hone : readersFromBits s.word ≠ 1 := by
        intro he
        simp [he] at hmust
        omega
      have hone' : s.word.toNat / 2 ^ 32 % 2 ^ 31 ≠ 1 := by
        rw [← readersFromBits_toNat]
        intro he
        exact hone (UInt32.toNat_inj.1 he)
      rw [if_neg Bool.false_ne_true, marked_iff, decrement_toNat hmark.1]
      omega
  | @transition timeout caller hcaller hcur =>
    refine h.keep_effect hstage (Or.inl rfl) fun hmark => ?_
    rw [hcur] at hmark
    exact absurd hmark (not_marked_unlocked _)
  | @transitionSlow deadline caller hcaller hcur =>
    refine h.keep t (by simp) (by simp) (fun u hu => by simp [hu]) ?_ ?_ ?_ ?_ ?_ ?_
    · rw [hstage]
      simp [Control.stage, Point.stage]
    · intro hq
      have := h.asleep t hq
      rw [hstage] at this
      cases this
    · intro result hr
      simp at hr
    · rw [hstage]
      intro he
      cases he
    · intro he
      simp [Control.stage, Point.stage] at he
    · intro hmark
      rw [hcur] at hmark
      exact absurd hmark (not_marked_unlocked _)
  | unlockWrite hlock =>
    obtain ⟨hafter, hwake⟩ := @wakeIf_stage s.word .unlockWrite trivial
    exact h.keep_effect hstage hafter fun hmark => Or.inr (hwake hmark)
  | @removeLocked id hlock =>
    obtain ⟨hafter, hwake⟩ := @wakeIf_stage s.word (.removeLocked (id + 1 != reservedId)) trivial
    exact h.keep_effect hstage hafter fun hmark => Or.inr (hwake hmark)
  | occupy hocc hne =>
    refine h.keep_effect hstage (Or.inl rfl) fun hmark => ?_
    rw [marked_iff, ← isOccupied_iff, hocc] at hmark
    exact absurd hmark.1 Bool.false_ne_true

variable [Fintype T]

/-- Every step that the protocol allows keeps sleeping threads covered. -/
theorem move (h : Parking s) (hinv : s.Inv) {e : Event T} (ha : Allowed s e)
    (hm : Move build s e s') : Parking s' := by
  cases hm with
  | @call t c hc =>
    have hbefore : (s.control t).stage = .outside := by rw [hc]; rfl
    refine h.keep_outside t rfl rfl (fun u hu => by simp [hu]) hbefore (Or.inl ?_) Or.inl
    rw [State.setControl_control, Function.update_self]
    exact start_stage
  | exec hc hop =>
    refine h.change hc hop (hinv.exec_change hc hop ?_)
    rintro rfl
    exact ha hc
  | @park t spurious frame deadline hc hfree =>
    have hstage : (s.control t).stage = .outside := by rw [hc]; rfl
    refine h.requeue h.nodup (fun u hu => Or.inl ⟨hu, ?_⟩) (fun u _ => h.nobody_holds hfree u) ?_
      ?_ fun hq => h.covered_by_other (by rw [hstage]; decide) (Or.inl hq)
    · rintro rfl
      exact h.not_queued (by rw [hstage]; decide) hu
    · intro u
      rw [Option.some_inj, eq_comm]
      exact ⟨fun he => ⟨he, Or.inl rfl⟩, fun he => he.1⟩
    · constructor <;> intro he <;> cases he
  | @enqueue t spurious frame deadline result hc =>
    have hstage : (s.control t).stage = .entering := by rw [hc]; rfl
    have hself : t ∉ s.queue := h.not_queued (by rw [hstage]; decide)
    refine h.requeue ?_ ?_ (fun u hut => h.others_outside (Or.inr hstage) hut) ?_
      ?_ fun _ => h.covered_by_other (by rw [hstage]; decide) (Or.inr ⟨t, hstage⟩)
    · rw [List.nodup_append]
      refine ⟨h.nodup, List.nodup_singleton t, ?_⟩
      intro u hu v hv
      rw [List.mem_singleton] at hv
      rintro rfl
      exact hself (hv ▸ hu)
    · intro u hu
      rcases List.mem_append.1 hu with hold | hnew
      · refine Or.inl ⟨hold, ?_⟩
        rintro rfl
        exact hself hold
      · exact Or.inr ⟨List.mem_singleton.1 hnew, rfl⟩
    · intro u
      simp [Stage.Holds, Control.stage, Point.stage]
    · constructor <;> intro he <;> cases he
  | @leave t spurious frame deadline result hc =>
    have hstage : (s.control t).stage = .inside := by rw [hc]; rfl
    have hafter := @afterPark_stage build frame deadline result
    refine h.requeue h.nodup (fun u hu => Or.inl ⟨hu, ?_⟩)
      (fun u hut => h.others_outside (Or.inl hstage) hut) ?_ ?_
      fun hq => h.covered_by_other (by rw [hstage]; decide) (Or.inl hq)
    · rintro rfl
      exact h.not_queued (by rw [hstage]; decide) hu
    · intro u
      rw [hafter]
      simp [Stage.Holds]
    · rw [hafter]
      exact ⟨by decide, by decide⟩
  | @wake t spurious frame deadline result hc hq =>
    have hstage : (s.control t).stage = .asleep := by rw [hc]; rfl
    have hafter := @afterPark_stage build frame deadline result
    refine h.keep t rfl rfl (fun u hu => by simp [hu]) ?_ (fun hq' => absurd hq' hq) ?_ ?_ ?_ Or.inl
    · rw [State.setControl_control, Function.update_self, hafter, hstage]
      simp [Stage.Holds]
    · intro result' hr
      rw [State.setControl_control, Function.update_self] at hr
      rw [hr] at hafter
      cases hafter
    · rw [hstage]
      intro he
      cases he
    · rw [State.setControl_control, Function.update_self, hafter]
      intro he
      cases he
  | @unpark t spurious result hc hfree =>
    refine h.requeue List.nodup_nil (fun u hu => absurd hu List.not_mem_nil)
      (fun u _ => h.nobody_holds hfree u) ?_ ?_ fun hq => absurd rfl hq
    · intro u
      rw [hfree]
      simp [Stage.Holds, Control.stage]
    · constructor <;> intro he <;> cases he
  | @expire t frame deadline result hc hq hfree =>
    have hstage : (s.control t).stage = .asleep := by rw [hc]; rfl
    have hafter := @expire_stage build frame (some deadline) result
    refine h.requeue (h.nodup.erase t) ?_ (fun u _ => h.nobody_holds hfree u) ?_ ?_ ?_
    · intro u hu
      rw [h.nodup.mem_erase_iff] at hu
      exact Or.inl ⟨hu.2, hu.1⟩
    · intro u
      rw [hfree, hafter]
      simp [Stage.Holds]
    · rw [hafter]
      exact ⟨by decide, by decide⟩
    · intro _
      exact h.covered_by_other (by rw [hstage]; decide) (Or.inl (List.ne_nil_of_mem hq))
  | @ret t hc =>
    have hbefore : (s.control t).stage = .outside := by
      rcases hc with ⟨r, hc⟩ | ⟨fault, hc⟩ <;> rw [hc] <;> rfl
    refine h.keep_outside t rfl rfl (fun u hu => by simp [hu]) hbefore (Or.inl ?_) Or.inl
    rw [State.setControl_control, Function.update_self]
    rfl

end Parking

/-! ## The theorem -/

variable {T : Type} [Fintype T] {build : Build} {s : State T}

/-- Whoever is asleep on a header will be woken: the header is locked and marked, or a thread that has
released or removed its element is about to wake the queue. -/
structure NoLostWakeup (s : State T) : Prop where
  covered : ∀ t ∈ s.queue, Marked s.word ∨
    ∃ u result, s.control u = .running (.unpark result) ∧ result.Releases
  /-- Somebody holds the header or is about to wake it. -/
  held : ∀ t ∈ s.queue, (∃ u lock, lock ∈ s.locks u) ∨ ∃ u result, s.control u = .running (.unpark result)

theorem Parking.noLostWakeup (h : Parking s) (hinv : s.Inv) : NoLostWakeup s := by
  have hcovered : ∀ t ∈ s.queue, Marked s.word ∨
      ∃ u result, s.control u = .running (.unpark result) ∧ result.Releases := by
    intro t ht
    rcases h.covered (Or.inl (List.ne_nil_of_mem ht)) with hmark | ⟨u, hu⟩
    · exact Or.inl hmark
    · obtain ⟨result, hr⟩ := Control.unpark_of_stage hu
      exact Or.inr ⟨u, result, hr, h.releases u result hr⟩
  refine ⟨hcovered, fun t ht => ?_⟩
  rcases hcovered t ht with ⟨hr, -⟩ | ⟨u, result, hr, -⟩
  · refine Or.inl ?_
    by_contra hnone
    push Not at hnone
    have hzero : ∀ kind, s.held kind = 0 := by
      intro kind
      unfold State.held
      rw [tally_eq_zero]
      intro u
      rw [List.eq_nil_iff_forall_not_mem.2 (hnone u)]
      rfl
    have hfield := hinv.ledger.field
    rw [hzero, hzero, if_pos rfl, ← readersFromBits_toNat] at hfield
    exact hr (UInt32.toNat_inj.1 hfield)
  · exact Or.inr ⟨u, result, hr⟩

variable [DecidableEq T]

theorem reachable_parking (h : (machine build T).Reachable s) : s.Inv ∧ Parking s := by
  refine h.invariant (P := fun s => s.Inv ∧ Parking s) ?_ ?_
  · rintro _ rfl
    exact ⟨State.Inv.init, Parking.init⟩
  · rintro s e s' ⟨hinv, hpark⟩ hs
    have hm := Move.of_step hs.2
    exact ⟨hinv.move hs.1 hm, hpark.move hinv hs.1 hm⟩

/-- In every reachable state somebody is bound to wake the threads that sleep in the queue. -/
theorem no_lost_wakeup (build : Build) (T : Type) [Fintype T] [DecidableEq T] (s : State T)
    (hs : (machine build T).Reachable s) : NoLostWakeup s :=
  (reachable_parking hs).2.noLostWakeup (reachable_parking hs).1

/-- The second thread sleeps on the element that the first one has write locked. -/
theorem no_lost_wakeup_sleeper :
    ∃ s : State (Fin 2), (machine .debug (Fin 2)).Reachable s ∧ s.queue = [1] ∧ NoLostWakeup s := by
  obtain ⟨s, hs, hp⟩ := exists_reachable .debug
    [.call 0 .occupy, .act 0 false, .ret 0, .call 0 (.lockWrite 0 .dontBlock), .act 0 false, .ret 0,
      .call 1 (.lockRead 0 .blockIndefinitely), .act 1 false, .act 1 false, .act 1 false, .act 1 false,
      .act 1 false]
    (fun s : State (Fin 2) => s.queue = [1]) (by decide)
  exact ⟨s, hs, of_decide_eq_true hp, no_lost_wakeup .debug (Fin 2) s hs⟩

end ReadWriteStore.Header

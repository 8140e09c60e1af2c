import ReadWriteStore.Header.Proofs.InterferenceProofs
import ReadWriteStore.Store.Progress
import ReadWriteStore.Store.Proofs.LinearizationProofs

/-!
# The store makes progress

Every step of a call is paid for: by the call itself, by a spurious failure, or by a change or a wakeup that
another call has made. As a call makes only a few of these, the steps of a run are bounded by its calls.
-/

namespace ReadWriteStore.Bucket

variable {T : Type} [DecidableEq T] {build : Build} {s s' : State T} {t : T}

theorem afterFetch_rank (location : Checked (Option Location)) : (afterFetch location).rank ≤ 5 := by
  rcases location with fault | location
  · exact Nat.zero_le _
  · cases location with
    | none => exact Nat.le_refl _
    | some location => exact Nat.zero_le _

theorem Point.afterFetch_rank {point : Point} (hf : point.Fetches) (location : Checked (Option Location)) :
    (point.afterFetch location).rank < point.rank := by
  cases point with
  | fetch => exact Nat.le_refl _
  | slowFetch | refetch =>
    rcases location with fault | location
    · simp [Point.afterFetch, afterSlowFetch, afterRefetch, Control.rank, Point.rank]
    · cases location <;> simp [Point.afterFetch, afterSlowFetch, afterRefetch, Control.rank, Point.rank]
  | _ => cases hf

/-- A call of a bucket has no loop. -/
theorem Move.rank_lt (hm : Move build s (.act t) s') : (s'.control t).rank < (s.control t).rank := by
  cases hm with
  | lockRead hc hpoint =>
    rw [hc, State.setControl_self]
    rcases hpoint with ⟨rfl, rfl⟩ | ⟨rfl, rfl⟩
    · exact Nat.le_refl _
    · exact Nat.le_refl _
  | fetch hc hf =>
    rw [hc, State.setControl_self]
    exact Point.afterFetch_rank hf _
  | unlockRead hc =>
    rw [hc, State.setControl_self]
    exact Nat.lt_succ_of_le (afterFetch_rank _)
  | lockWrite hc | load hc =>
    rw [hc, State.setControl_self]
    exact Nat.le_refl _
  | expand hc =>
    rw [hc, State.setControl_self]
    cases (s.inner.expand build).2 with
    | error fault => exact Nat.le_succ _
    | ok => exact Nat.le_refl _
  | @unlockWrite _ location hc =>
    rw [hc, State.setControl_self]
    cases location <;> exact Nat.le_refl _
  | @compute _ headSize used hc =>
    rw [hc, State.setControl_self]
    cases capacity build headSize used <;> exact Nat.le_refl _

theorem Move.starts_rank (hm : Move build s (.call t .nextInsertLocation) s') : (s'.control t).rank ≤ 8 := by
  cases hm with
  | call =>
    rw [State.setControl_self]
    exact Nat.le_refl _

theorem Move.starts_capacity_rank (hm : Move build s (.call t .capacity) s') : (s'.control t).rank ≤ 3 := by
  cases hm with
  | call =>
    rw [State.setControl_self]
    exact Nat.le_refl _

end ReadWriteStore.Bucket

namespace ReadWriteStore.Store

open Transition (tally)

variable {T E : Type} [DecidableEq T] {build : Build} {s s' : State T E} {e : Event T E} {t u : T}

/-! ## What a thread has left -/

section Left

theorem State.left {control : Control E} (hc : s.control t = control) :
    s.work t = s.workAt t control ∧ s.changes t = s.changesAt t control ∧ s.wakes t = s.wakesAt t control := by
  subst hc
  exact ⟨rfl, rfl, rfl⟩

/-- Behind its calls of buckets and headers a method has at most three steps to go. -/
theorem State.left_finishing (h : (s.control t).finishing = true) :
    s.work t ≤ 3 ∧ s.changes t = 0 ∧ s.wakes t = 0 := by
  cases hc : s.control t with
  | moveOut | push | returned | faulted =>
    obtain ⟨hwork, hchanges, hwakes⟩ := State.left hc
    exact ⟨hwork.trans_le (by simp [State.workAt]), hchanges, hwakes⟩
  | _ =>
    rw [hc] at h
    cases h

end Left

/-! ## The others -/

section Others

variable [Fintype T]

/-- What a step of one thread does to another one in a header is paid for. -/
theorem Move.others_header (hm : Move build s e s') (h : s.Linked build) (hu : u ≠ e.thread) (address : SlotAddress) :
    (s'.header address).potential u ≤ (s.header address).potential u +
        5 * (s.changes e.thread - s'.changes e.thread + (s.wakes e.thread - s'.wakes e.thread)) ∧
      (s'.header address).changes u ≤ (s.header address).changes u + 2 * (s.wakes e.thread - s'.wakes e.thread) ∧
        (s'.header address).wakes u = (s.header address).wakes u := by
  rcases hm.headerPart address with ⟨hheader, -⟩ | ⟨-, -, -, -, hstep⟩ | ⟨rfl, hcontrol, hsame, hevent, hstep⟩ |
    ⟨-, -, -, hstep⟩
  · rw [hheader]
    exact ⟨Nat.le_add_right _ _, Nat.le_add_right _ _, rfl⟩
  · obtain ⟨hpotential, hchanges, hwakes⟩ := (Header.Move.of_step hstep).quiet_others (Or.inl ⟨_, rfl⟩) hu
    rw [hpotential, hchanges, hwakes]
    exact ⟨Nat.le_add_right _ _, Nat.le_add_right _ _, rfl⟩
  · rename_i frame event
    obtain ⟨-, hown, hownWakes⟩ := State.left hcontrol
    obtain ⟨-, hown', hownWakes'⟩ := State.left hsame
    simp only [State.changesAt, State.wakesAt] at hown hownWakes hown' hownWakes'
    rw [hown, hownWakes, hown', hownWakes']
    have hmove := Header.Move.of_step hstep
    have hinv := Header.reachable_inv (h.header frame.address)
    have hthread : event.thread = e.thread := by
      rcases hevent with ⟨spurious, rfl⟩ | rfl
      · rfl
      · rfl
    have hnotCall : ∀ t c, event ≠ .call t c := by
      rcases hevent with ⟨spurious, rfl⟩ | rfl
      · simp
      · simp
    rw [← hthread] at hu ⊢
    exact (hmove.pays hinv hnotCall).others hmove hu
  · obtain ⟨hpotential, hchanges, hwakes⟩ := (Header.Move.of_step hstep).quiet_others (Or.inr rfl) hu
    rw [hpotential, hchanges, hwakes]
    exact ⟨Nat.le_add_right _ _, Nat.le_add_right _ _, rfl⟩

omit [Fintype T] in
theorem Move.others_bucket (hm : Move build s e s') (hu : u ≠ e.thread) (bucket : Fin bucketCount) :
    (s'.bucket bucket).control u = (s.bucket bucket).control u := by
  rcases hm.bucketPart bucket with ⟨hbucket, -⟩ | ⟨-, -, -, hstep⟩ | ⟨-, -, -, hstep⟩ | ⟨-, -, -, hstep⟩
  · rw [hbucket]
  · exact (Bucket.Move.of_step hstep).control_ne hu
  · exact (Bucket.Move.of_step hstep).control_ne hu
  · exact (Bucket.Move.of_step hstep).control_ne hu

/-- What a step of one thread does to another one is paid for. -/
theorem Move.others (hm : Move build s e s') (h : s.Linked build) (hu : u ≠ e.thread) :
    s'.work u ≤ s.work u + 5 * (s.changes e.thread - s'.changes e.thread + (s.wakes e.thread - s'.wakes e.thread)) ∧
      s'.changes u ≤ s.changes u + 2 * (s.wakes e.thread - s'.wakes e.thread) ∧ s'.wakes u = s.wakes u := by
  obtain ⟨hwork, hchanges, hwakes⟩ := State.left (hm.control_ne hu)
  rw [hwork, hchanges, hwakes]
  unfold State.work
  cases hc : s.control u with
  | header frame =>
    obtain ⟨hpotential, hchanges, hwakes⟩ := hm.others_header h hu frame.address
    obtain ⟨-, hchanges₀, hwakes₀⟩ := State.left hc
    rw [hchanges₀, hwakes₀]
    simp only [State.workAt, State.changesAt, State.wakesAt]
    exact ⟨by omega, hchanges, hwakes⟩
  | bucket frame =>
    obtain ⟨-, hchanges₀, hwakes₀⟩ := State.left hc
    rw [hchanges₀, hwakes₀]
    cases frame with
    | insert bucket element =>
      simp only [State.workAt, hm.others_bucket hu]
      exact ⟨Nat.le_add_right _ _, Nat.le_add_right _ _, rfl⟩
    | capacity bucket =>
      simp only [State.workAt, hm.others_bucket hu]
      exact ⟨Nat.le_add_right _ _, Nat.le_add_right _ _, rfl⟩
  | _ =>
    obtain ⟨-, hchanges₀, hwakes₀⟩ := State.left hc
    rw [hchanges₀, hwakes₀]
    exact ⟨Nat.le_add_right _ _, Nat.le_add_right _ _, rfl⟩

/-! ## The thread itself -/

/-- A step that `t` takes inside a call. -/
structure Proceeds (s s' : State T E) (e : Event T E) (t : T) : Prop where
  work : s'.work t + 1 ≤ s.work t + if s.failsSpuriously e then 6 else 0
  changes : s'.changes t ≤ s.changes t
  wakes : s'.wakes t ≤ s.wakes t

omit [Fintype T] in
theorem Proceeds.of_control {control control' : Control E} (hc : s.control t = control) (hc' : s'.control t = control')
    (hwork : s'.workAt t control' < s.workAt t control) (hchanges : s'.changesAt t control' ≤ s.changesAt t control)
    (hwakes : s'.wakesAt t control' ≤ s.wakesAt t control) : Proceeds s s' e t := by
  subst hc
  subst hc'
  exact ⟨Nat.le_add_right_of_le hwork, hchanges, hwakes⟩

omit [Fintype T] in
/-- A step to the end of the method. -/
theorem Proceeds.of_finishing {control : Control E} (hc : s.control t = control) (hwork : 4 ≤ s.workAt t control)
    (h' : (s'.control t).finishing = true) : Proceeds s s' e t := by
  obtain ⟨hwork', hchanges', hwakes'⟩ := State.left_finishing h'
  subst hc
  refine .of_control rfl rfl (Nat.lt_of_le_of_lt hwork' hwork) ?_ ?_
  · exact hchanges'.trans_le (Nat.zero_le _)
  · exact hwakes'.trans_le (Nat.zero_le _)

omit [Fintype T] in
theorem Proceeds.of_faulted {control : Control E} {fault : Fault} (hc : s.control t = control)
    (hwork : 1 < s.workAt t control) (hc' : s'.control t = .faulted fault) : Proceeds s s' e t :=
  .of_control hc hc' hwork (Nat.zero_le _) (Nat.zero_le _)

/-- A step inside a header. -/
theorem Proceeds.of_header {frame : Frame E} {event : Header.Event T} {header : Header.State T}
    (h : s.Linked build) (hc : s.control t = .header frame) (hevent : event.thread = t)
    (hcall : ∀ u c, event ≠ .call u c) (hret : ∀ u, event ≠ .ret u)
    (hspurious : (s.header frame.address).failsSpuriously event = s.failsSpuriously e)
    (hh : Header.step build (s.header frame.address) event = some header) :
    Proceeds s (s.setHeader frame.address header) e t := by
  subst hevent
  have hmove := Header.Move.of_step hh
  have hinv := Header.reachable_inv (h.header frame.address)
  have hadvances := (hmove.advances hinv hcall hret).potential
  have hpays := hmove.pays hinv hcall
  have hc' : (s.setHeader frame.address header).control event.thread = .header frame := hc
  obtain ⟨hwork, hchanges, hwakes⟩ := State.left hc
  obtain ⟨hwork', hchanges', hwakes'⟩ := State.left hc'
  simp only [State.workAt, State.changesAt, State.wakesAt, State.setHeader_self]
    at hwork hchanges hwakes hwork' hchanges' hwakes'
  rw [hspurious] at hadvances
  refine ⟨?_, ?_, ?_⟩
  · rw [hwork, hwork']
    omega
  · rw [hchanges, hchanges']
    exact hpays.changes
  · rw [hwakes, hwakes']
    exact hpays.wakes

omit [Fintype T] in
/-- A call of a header has begun. -/
theorem State.left_begun (frame : Frame E) {changes wakes : ℕ}
    (hh : Header.step build (s.header frame.address) (.call t frame.call) = some (s'.header frame.address))
    (hwithin : (Header.Control.ofChecked (Header.start build frame.call)).Within changes wakes) :
    s'.workAt t (.header frame) ≤ 10 ∧ s'.changesAt t (.header frame) ≤ changes ∧
      s'.wakesAt t (.header frame) ≤ wakes := by
  obtain ⟨hpotential, hchanges, hwakes⟩ := (Header.Move.of_step hh).begins hwithin
  exact ⟨Nat.add_le_add_right hpotential 4, hchanges, hwakes⟩

theorem Move.proceeds (hm : Move build s e s') (h : s.Linked build) (hcall : e.isCall = false)
    (helsewhere : e.isElsewhere = false) : Proceeds s s' e e.thread := by
  cases hm with
  | insert | enter | removeLocked | capacity | look | replace | callFault => cases hcall
  | elsewhere => cases helsewhere
  | reuse hc hq =>
    exact .of_control hc (State.setControl_self _ _) (by simp [State.workAt]) (Nat.le_refl _) (Nat.le_refl _)
  | draw hc hq hg hb =>
    refine .of_control hc (State.setControl_self _ _) ?_ (Nat.le_refl _) (Nat.le_refl _)
    simp only [State.workAt, State.entered_bucket]
    have hrank := Bucket.Move.starts_rank (Bucket.Move.of_step hb)
    exact Nat.lt_of_le_of_lt (Nat.add_le_add_right hrank 12) (by decide)
  | @place t spurious element address header hc hh =>
    have hc' : (((s.setValue address element).setHeader address header).setControl t
        (.header (.occupy address element))).control t = .header (.occupy address element) :=
      State.setControl_self _ _
    obtain ⟨hwork, hchanges, hwakes⟩ := State.left_begun (.occupy address element)
      (hh.trans (congrArg some (State.setHeader_self _ _ _).symm)) Header.occupy_within
    exact .of_control hc hc' (Nat.lt_succ_of_le hwork) hchanges hwakes
  | @bucketStep t spurious frame bucket hc hb =>
    have hrank := (Bucket.Move.of_step hb).rank_lt
    have hbucket : (s.setBucket frame.bucket bucket).bucket frame.bucket = bucket := by simp
    refine .of_control hc hc ?_ ?_ ?_
    · cases frame with
      | insert b element =>
        refine lt_of_eq_of_lt (congrArg (fun state => (Bucket.State.control state t).rank + 12) hbucket) ?_
        exact Nat.add_lt_add_right hrank 12
      | capacity b totalTouched totalAllocated =>
        refine lt_of_eq_of_lt
          (congrArg (fun state => (Bucket.State.control state t).rank + 4 * (15 - b.val) + 2) hbucket) ?_
        exact Nat.add_lt_add_right (Nat.add_lt_add_right hrank _) 2
    · cases frame <;> exact Nat.le_refl _
    · exact Nat.le_refl _
  | located hc hr hb =>
    exact .of_control hc (State.setControl_self _ _) (by simp only [State.workAt]; omega) (Nat.le_refl _) (Nat.le_refl _)
  | @addedNext t spurious b _ _ _ _ _ _ bucket next hc hr hb ht ha hlt hn =>
    refine .of_control hc (State.setControl_self _ _) ?_ (Nat.le_refl _) (Nat.le_refl _)
    simp only [State.workAt, State.entered_bucket, Event.thread]
    have hrank := Bucket.Move.starts_capacity_rank (Bucket.Move.of_step hn)
    have hlt' : b.val + 1 < 16 := hlt
    omega
  | addedLast hc hr hb ht ha hlast =>
    exact .of_control hc (State.setControl_self _ _) (by simp only [State.workAt]; omega) (Nat.le_refl _) (Nat.le_refl _)
  | addFault hc hr hb hfault =>
    exact .of_faulted hc (by simp only [State.workAt]; omega) (State.setControl_self _ _)
  | @bucketFault t spurious frame fault bucket hc hr hb =>
    obtain ⟨unwound, heq⟩ := (s.setBucket frame.bucket bucket).unwindBucket_eq t fault frame
    rw [heq]
    refine .of_faulted hc ?_ (State.setControl_self _ _)
    cases frame <;> simp only [State.workAt] <;> omega
  | @headerStep t spurious frame header hc hh =>
    refine .of_header h hc rfl (by simp) (by simp) ?_ hh
    simp only [State.failsSpuriously, hc]
  | @expire t frame header hc hh => exact .of_header h hc rfl (by simp) (by simp) rfl hh
  | resume hc hr hh hres =>
    refine .of_finishing hc (by simp only [State.workAt]; omega) ?_
    exact (congrArg Control.finishing (State.setControl_self _ _)).trans (Frame.resume_finishing hres)
  | headerFault hc =>
    exact .of_faulted hc (by simp only [State.workAt]; omega) (State.setControl_self _ _)
  | @moveOut t spurious id method mayReuse element hc hv =>
    refine .of_control hc (State.setControl_self _ _) ?_ ?_ ?_
    · cases mayReuse <;> simp [afterMove, State.workAt]
    · cases mayReuse <;> exact Nat.le_refl _
    · cases mayReuse <;> exact Nat.le_refl _
  | @moveOutLocked t spurious id element header hc hv hh =>
    have hc' : ((s.setHeader id.slotAddress header).setControl t (.header (.removeLocked id element))).control t =
        .header (.removeLocked id element) := State.setControl_self _ _
    obtain ⟨hwork, hchanges, hwakes⟩ := State.left_begun (.removeLocked id element)
      (hh.trans (congrArg some (State.setHeader_self _ _ _).symm)) (Header.removeLocked_within id.ordinal)
    exact .of_control hc hc' (Nat.lt_succ_of_le hwork) hchanges hwakes
  | moveFault hc hv =>
    rcases hc with hc | ⟨method, mayReuse, hc⟩
    · exact .of_faulted hc (by simp [State.workAt]) (State.setControl_self _ _)
    · exact .of_faulted hc (by simp [State.workAt]) (State.setControl_self _ _)
  | push hc | ret hc | retFault hc =>
    exact .of_control hc (State.setControl_self _ _) (by simp [State.workAt]) (Nat.le_refl _) (Nat.le_refl _)

omit [Fintype T] in
/-- A thread starts a call from rest, with so much before it. -/
theorem Move.begins (hm : Move build s e s') (hcall : e.isCall = true) :
    s.control e.thread = .idle ∧ s'.work e.thread ≤ 65 ∧ s'.changes e.thread ≤ 2 ∧ s'.wakes e.thread ≤ 1 := by
  have hleft : ∀ {t : T} {control : Control E}, s'.control t = control → s'.workAt t control ≤ 65 →
      s'.changesAt t control ≤ 2 → s'.wakesAt t control ≤ 1 →
        s'.work t ≤ 65 ∧ s'.changes t ≤ 2 ∧ s'.wakes t ≤ 1 := by
    rintro t control rfl hwork hchanges hwakes
    exact ⟨hwork, hchanges, hwakes⟩
  cases hm with
  | @enter t call frame header hc hframe hh =>
    have hc' : ((s.setHeader frame.address header).setControl t (.header frame)).control t = .header frame :=
      State.setControl_self _ _
    obtain ⟨hwork, hchanges, hwakes⟩ := State.left_begun frame
      (hh.trans (congrArg some (State.setHeader_self _ _ _).symm)) (Header.start_within frame.call)
    exact ⟨hc, hleft hc' (hwork.trans (by omega)) hchanges hwakes⟩
  | @capacity t bucket hc hb =>
    refine ⟨hc, hleft (State.setControl_self _ _) ?_ (Nat.zero_le _) (Nat.zero_le _)⟩
    simp only [State.workAt, State.entered_bucket]
    have hrank := Bucket.Move.starts_capacity_rank (Bucket.Move.of_step hb)
    exact Nat.add_le_add_right (Nat.add_le_add_right hrank 60) 2
  | insert hc | removeLocked hc | look hc | replace hc | callFault hc =>
    refine ⟨hc, hleft (State.setControl_self _ _) ?_ ?_ ?_⟩
    · simp [State.workAt]
    · simp [State.changesAt]
    · simp [State.wakesAt]
  | _ => cases hcall

/-! ## The budget of all threads -/

/-- Every step is paid for. -/
theorem Move.budget (hm : Move build s e s') (h : s.Linked build) :
    tally s'.budget + 1 ≤ tally s.budget + s.cost e := by
  obtain ⟨n, hn⟩ : ∃ n, Fintype.card T = n := ⟨_, rfl⟩
  obtain ⟨changed, hchanged⟩ : ∃ changed, s.changes e.thread - s'.changes e.thread = changed := ⟨_, rfl⟩
  obtain ⟨woken, hwoken⟩ : ∃ woken, s.wakes e.thread - s'.wakes e.thread = woken := ⟨_, rfl⟩
  have hothers : ∀ u, u ≠ e.thread →
      s'.budget u ≤ s.budget u + (5 * (changed + woken) + changeCost n * (2 * woken)) := by
    intro u hu
    obtain ⟨hwork, hchanges, hwakes⟩ := hm.others h hu
    rw [hchanged, hwoken] at hwork
    rw [hwoken] at hchanges
    have hcost := Nat.mul_le_mul_left (changeCost n) hchanges
    rw [Nat.mul_add] at hcost
    unfold State.budget
    rw [hwakes, hn]
    omega
  refine Transition.tally_step ?_ hothers
  -- what the others have to pay more, the thread has left less
  have hraise : n * (5 * (changed + woken) + changeCost n * (2 * woken)) =
      changeCost n * changed + wakeCost n * woken := by
    unfold wakeCost changeCost
    ring
  rw [hn, hraise]
  unfold State.budget
  rw [hn]
  cases hcall : e.isCall with
  | true =>
    obtain ⟨hc, hwork, hchanges, hwakes⟩ := hm.begins hcall
    obtain ⟨hwork₀, hchanges₀, hwakes₀⟩ := State.left hc
    simp only [State.workAt, State.changesAt, State.wakesAt] at hwork₀ hchanges₀ hwakes₀
    obtain rfl : changed = 0 := by omega
    obtain rfl : woken = 0 := by omega
    have hcost : callCost n ≤ s.cost e := by
      unfold State.cost
      rw [if_pos hcall, hn]
      omega
    have hchangesCost := Nat.mul_le_mul_left (changeCost n) hchanges
    have hwakesCost := Nat.mul_le_mul_left (wakeCost n) hwakes
    rw [hwork₀, hchanges₀, hwakes₀]
    unfold callCost at hcost
    omega
  | false =>
    cases helsewhere : e.isElsewhere with
    | true =>
      have hsame : s'.work e.thread = s.work e.thread ∧ s'.changes e.thread = s.changes e.thread ∧
          s'.wakes e.thread = s.wakes e.thread := by
        cases hm with
        | elsewhere hc => exact ⟨rfl, rfl, rfl⟩
        | _ => cases helsewhere
      have hcost : 1 ≤ s.cost e := by
        unfold State.cost
        rw [if_pos helsewhere]
        omega
      obtain rfl : changed = 0 := by omega
      obtain rfl : woken = 0 := by omega
      rw [hsame.1, hsame.2.1, hsame.2.2]
      omega
    | false =>
      obtain ⟨hwork, hchanges, hwakes⟩ := hm.proceeds h hcall helsewhere
      have hcost : (if s.failsSpuriously e then 6 else 0) ≤ s.cost e := by
        unfold State.cost
        omega
      have hpaid : changeCost n * s'.changes e.thread + changeCost n * changed = changeCost n * s.changes e.thread := by
        rw [← Nat.mul_add, ← hchanged, Nat.add_sub_cancel' hchanges]
      have hpaidWakes : wakeCost n * s'.wakes e.thread + wakeCost n * woken = wakeCost n * s.wakes e.thread := by
        rw [← Nat.mul_add, ← hwoken, Nat.add_sub_cancel' hwakes]
      omega

end Others

/-! ## Runs -/

section Runs

variable [Fintype T] {n : ℕ} {state : ℕ → State T E} {event : ℕ → Event T E}

omit [DecidableEq T] [Fintype T] in
theorem sum_steps (n : ℕ) (p : ℕ → Bool) (cost : ℕ) :
    ∑ k ∈ Finset.range n, (if p k then cost else 0) = cost * steps n p := by
  unfold steps
  rw [← Finset.sum_filter, Finset.sum_const, smul_eq_mul, Nat.mul_comm]

/-- The steps of a run are bounded by its calls and its spurious failures. -/
theorem progress (build : Build) (T E : Type) [Fintype T] [DecidableEq T] (n : ℕ) (state : ℕ → State T E)
    (event : ℕ → Event T E) (hrun : ((machine build T E).restrict State.NoWrap).Run n state event) :
    n ≤ callCost (Fintype.card T) * steps n (fun k => (event k).isCall) +
      6 * steps n (fun k => (state k).failsSpuriously (event k)) + steps n (fun k => (event k).isElsewhere) := by
  have hpaid := Transition.sum_work_le (i := 0) (j := n) (fun k => tally (state k).budget) (fun _ => 1)
    (fun k => (state k).cost (event k)) (Nat.zero_le n) fun k _ hk =>
      (Move.of_step (hrun.step k hk).2.2).budget (sound_of_reachable (hrun.reachable k (by omega))).linked
  have hstart : tally (state 0).budget = 0 := by
    obtain ⟨storeId, generator, h₀⟩ := hrun.init
    rw [h₀]
    simp [tally, State.budget, State.work, State.changes, State.wakes, State.workAt, State.changesAt, State.wakesAt,
      State.init]
  have hcost : ∑ k ∈ Finset.Ico 0 n, (state k).cost (event k) =
      callCost (Fintype.card T) * steps n (fun k => (event k).isCall) +
        6 * steps n (fun k => (state k).failsSpuriously (event k)) + 1 * steps n (fun k => (event k).isElsewhere) := by
    rw [← sum_steps, ← sum_steps, ← sum_steps, ← Finset.sum_add_distrib, ← Finset.sum_add_distrib,
      ← Finset.range_eq_Ico]
    rfl
  rw [hstart, hcost] at hpaid
  simp only [Finset.sum_const, Nat.card_Ico, smul_eq_mul] at hpaid
  omega

end Runs

/-- The second thread sleeps until the first one unlocks the element, is overtaken by a reader, and then fails
once more. -/
def wakesAndRetries : List (Event (Fin 2) Bool) :=
  List.flatten [meetsLock.take 19, beginCall 1 (.read ⟨0, ⟨9, ⟨0, 0⟩⟩, 0⟩ .plain) 5,
    wholeCall 0 (.dropWrite ⟨0, ⟨9, ⟨0, 0⟩⟩, 0⟩) 3, List.replicate 4 (.act 1 false),
    wholeCall 0 (.read ⟨0, ⟨9, ⟨0, 0⟩⟩, 0⟩ .plain) 3,
    [.act 1 false, .act 1 true, .act 1 false, .act 1 false, .ret 1]]

theorem progress_wakes_and_retries : wakesAndRetries.length = 44 ∧
    steps 44 (fun k => (Transition.System.trace (step .debug) (fun s e => s.NoWrap e ∧ Allowed s e)
      (.init 0 fun _ => 0) wakesAndRetries k).failsSpuriously (wakesAndRetries.getD k (.ret 0))) = 1 ∧
    44 ≤ callCost (Fintype.card (Fin 2)) * steps 44 (fun k => (wakesAndRetries.getD k (.ret 0)).isCall) +
      6 * steps 44 (fun k => (Transition.System.trace (step .debug) (fun s e => s.NoWrap e ∧ Allowed s e)
        (.init 0 fun _ => 0) wakesAndRetries k).failsSpuriously (wakesAndRetries.getD k (.ret 0))) +
      steps 44 (fun k => (wakesAndRetries.getD k (.ret 0)).isElsewhere) :=
  ⟨rfl, by decide +kernel, progress .debug (Fin 2) Bool _ _ _
    (run_of_replay_restrict .debug State.NoWrap 0 (fun _ => 0) wakesAndRetries (.ret 0) (by decide +kernel))⟩

end ReadWriteStore.Store

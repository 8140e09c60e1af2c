import ReadWriteStore.Store.Peak
import ReadWriteStore.Store.Proofs.CountProofs
import ReadWriteStore.Store.Proofs.CustodyProofs
import ReadWriteStore.Store.Proofs.IterationProofs
import ReadWriteStore.Store.Proofs.LifetimeProofs
import ReadWriteStore.Store.Proofs.MeasureProofs

/-!
# The touched capacity is the peak

A single thread draws a slot from a bucket only when the queue of erasures is empty. So when it returns
from the last `insert` that did, every slot handed out is occupied or retired.
-/

namespace ReadWriteStore.Store

open Header (reservedId isOccupied currentId)

variable {T E : Type} [DecidableEq T] {build : Build} {s s' : State T E} {e : Event T E}

/-! ## A single thread -/

section Alone

variable [Fintype T] {t : T}

/-- At most one thread is inside a bucket. -/
theorem State.Linked.inFlight_le_one (h : s.Linked build) (halone : ∀ u ≠ t, s.control u = .idle)
    (bucket : Fin bucketCount) : (s.bucket bucket).inFlight ≤ 1 := by
  have hothers : ∀ u ≠ t, (if ((s.bucket bucket).control u).inserting then 1 else 0) = 0 := by
    intro u hu
    have hidle : (s.bucket bucket).control u = .idle := by
      refine h.calm u bucket fun frame hc => ?_
      rw [halone u hu] at hc
      cases hc
    rw [hidle]
    rfl
  unfold Bucket.State.inFlight Transition.tally
  rw [Finset.sum_eq_single t (fun u _ hu => hothers u hu) fun hmem => absurd (Finset.mem_univ t) hmem]
  split <;> omega

/-- A single thread has little to count while each bucket has fewer than 32 blocks. -/
theorem State.Linked.small (h : s.Linked build) (halone : ∀ u ≠ t, s.control u = .idle) {bucket : Fin bucketCount}
    (hshort : (s.bucket bucket).inner.blocks.length < 32) : (s.bucket bucket).Small :=
  ⟨(h.inFlight_le_one halone bucket).trans_lt (by omega),
    Bucket.headSize_lt (h.bucket bucket).inv.chain.1 (by omega)⟩

end Alone

/-! ## The slots between two calls -/

section AtRest

omit [DecidableEq T] in
theorem not_retired_of_present {address : SlotAddress} (hpresent : address ∈ s.present) : address ∉ s.retired := by
  intro hretired
  have hocc : isOccupied (s.header address).word = true := hpresent
  rw [hretired.1] at hocc
  cases hocc

/-- The slots that have been handed out, and how many they are. -/
theorem State.Sound.handed (h : s.Sound build) :
    {address : SlotAddress | (s.bucket address.bucket).inner.HandedOut address.location}.Finite ∧
      {address : SlotAddress | (s.bucket address.bucket).inner.HandedOut address.location}.ncard =
        ∑ bucket, s.touched bucket :=
  ncard_handedOut fun bucket => (h.linked.bucket bucket).inv.chain.1

theorem State.Sound.union_subset (h : s.Sound build) (hrest : s.AtRest) :
    s.present ∪ s.retired ⊆
      {address : SlotAddress | (s.bucket address.bucket).inner.HandedOut address.location} := by
  intro address hmem
  refine (h.owned.between hrest address).2 ?_
  rcases hmem with hpresent | ⟨hocc, hord⟩
  · exact Or.inl hpresent
  · by_cases hq : address ∈ s.erasures
    · exact Or.inr (Or.inl hq)
    · exact Or.inr (Or.inr ⟨hocc, hq, hord⟩)

theorem State.Sound.ncard_union (h : s.Sound build) (hrest : s.AtRest) :
    (s.present ∪ s.retired).ncard = s.present.ncard + s.retired.ncard := by
  have hfinite := h.handed.1.subset (h.union_subset hrest)
  exact Set.ncard_union_eq (Set.disjoint_left.2 fun _ => not_retired_of_present) (hfinite.subset Set.subset_union_left)
    (hfinite.subset Set.subset_union_right)

/-- No more slots are in use than have been handed out. -/
theorem State.Sound.load_le (h : s.Sound build) (hrest : s.AtRest) :
    s.present.ncard + s.retired.ncard ≤ ∑ bucket, s.touched bucket := by
  rw [← h.ncard_union hrest, ← h.handed.2]
  exact Set.ncard_le_ncard (h.union_subset hrest) h.handed.1

/-- With an empty queue all of them are. -/
theorem State.Sound.load_eq (h : s.Sound build) (hrest : s.AtRest) (hq : s.erasures = []) :
    s.present.ncard + s.retired.ncard = ∑ bucket, s.touched bucket := by
  rw [← h.ncard_union hrest, ← h.handed.2]
  congr 1
  refine Set.Subset.antisymm (h.union_subset hrest) fun address hmem => ?_
  rcases (h.owned.between hrest address).1 hmem with hocc | hqueued | ⟨hocc, -, hord⟩
  · exact Or.inl hocc
  · rw [hq] at hqueued
    cases hqueued
  · exact Or.inr ⟨hocc, hord⟩

end AtRest

/-! ## One step of the thread -/

/-- Inside an `insert`, or at its end. -/
def Control.Drawing : Control E → Prop
  | .bucket (.insert _ _) | .place _ _ | .header (.occupy _ _) | .returned (.insert _) | .faulted _ => True
  | _ => False

theorem drawing_of_eq {control control' : Control E} (hc : control' = control) (hd : control.Drawing) :
    control'.Drawing := by
  rw [hc]
  exact hd

/-- Thread `t` is not about to draw a slot from a bucket. -/
def State.Steady (s : State T E) (t : T) : Prop :=
  match s.control t with
  | .bucket (.insert _ _) => False
  | .bucket (.capacity bucket _ _) => ((s.bucket bucket).control t).inserting = false
  | _ => True

/-- A thread inside `capacity` of a bucket leaves the chain and the counter alone. -/
theorem measuring_step {bucket bucket' : Bucket.State T} {t : T}
    (hnot : (bucket.control t).inserting = false) (hm : Bucket.Move build bucket (.act t) bucket') :
    bucket'.inner = bucket.inner ∧ (bucket'.control t).inserting = false := by
  cases hm with
  | lockRead hc hpoint =>
    rw [hc] at hnot
    rcases hpoint with ⟨rfl, -⟩ | ⟨-, rfl⟩
    · cases hnot
    · rw [Bucket.State.setControl_self]
      exact ⟨rfl, rfl⟩
  | load hc =>
    rw [Bucket.State.setControl_self]
    exact ⟨rfl, rfl⟩
  | @compute t headSize used hc =>
    rw [Bucket.State.setControl_self]
    refine ⟨rfl, ?_⟩
    cases Bucket.capacity build headSize used <;> rfl
  | @fetch t point hc hf =>
    rw [hc] at hnot
    cases point with
    | fetch | slowFetch | refetch => cases hnot
    | _ => exact absurd hf not_false
  | unlockRead hc | lockWrite hc | expand hc | unlockWrite hc =>
    rw [hc] at hnot
    cases hnot

/-- No slot is handed out. -/
theorem State.Steady.inner_eq (hsteady : s.Steady e.thread) (hm : Move build s e s') (bucket : Fin bucketCount) :
    (s'.bucket bucket).inner = (s.bucket bucket).inner := by
  cases hm.bucketPart bucket with
  | same hbucket => rw [hbucket]
  | enters _ _ _ hstep =>
    generalize s'.bucket bucket = bucket' at hstep
    cases Bucket.Move.of_step hstep
    rfl
  | @goes frame hb hc _ hstep =>
    subst hb
    unfold State.Steady at hsteady
    rw [hc] at hsteady
    cases frame with
    | insert => exact absurd hsteady not_false
    | capacity b totalTouched totalAllocated => exact (measuring_step hsteady (.of_step hstep)).1
  | leaves _ _ _ hstep =>
    generalize s'.bucket bucket = bucket' at hstep
    cases Bucket.Move.of_step hstep
    rfl

/-- An `insert` goes on or ends, and leaves the queue as it is. -/
theorem drawing_step (hdraw : (s.control e.thread).Drawing) (hm : Move build s e s') :
    s'.erasures = s.erasures ∧ ((s'.control e.thread).Drawing ∨ s'.control e.thread = .idle) := by
  have hgoes : ∀ control, s.control e.thread = control → control.Drawing := by
    rintro _ rfl
    exact hdraw
  cases hm with
  | bucketStep hc | headerStep hc | expire hc => exact ⟨rfl, Or.inl hdraw⟩
  | located hc | place hc | headerFault hc =>
    exact ⟨rfl, Or.inl (drawing_of_eq (State.setControl_self _ _) trivial)⟩
  | @bucketFault t _ frame fault bucket hc =>
    cases frame with
    | insert b element => exact ⟨rfl, Or.inl (drawing_of_eq (Function.update_self ..) trivial)⟩
    | capacity => exact absurd (hgoes _ hc) not_false
  | @resume t _ frame result header control hc hr hh hres =>
    cases frame with
    | occupy address element =>
      cases result with
      | occupy ordinal =>
        cases hres
        exact ⟨rfl, Or.inl (drawing_of_eq (State.setControl_self _ _) trivial)⟩
      | _ => cases hres
    | _ => exact absurd (hgoes _ hc) not_false
  | ret hc | retFault hc => exact ⟨rfl, Or.inr (State.setControl_self _ _)⟩
  | moveFault hc =>
    rcases hc with hc | ⟨method, mayReuse, hc⟩
    · exact absurd (hgoes _ hc) not_false
    · exact absurd (hgoes _ hc) not_false
  | insert hc | enter hc | removeLocked hc | capacity hc | look hc | replace hc | callFault hc | reuse hc | draw hc
  | addedNext hc | addedLast hc | addFault hc | moveOut hc | moveOutLocked hc | push hc | elsewhere hc =>
    exact absurd (hgoes _ hc) not_false

omit [DecidableEq T] in
theorem State.Steady.of_control {t : T} {control : Control E} (hc : s.control t = control)
    (hne : ∀ frame, control ≠ .bucket frame) : s.Steady t := by
  unfold State.Steady
  rw [hc]
  split
  · exact absurd rfl (hne _)
  · exact absurd rfl (hne _)
  · trivial

/-- A thread that has just entered `capacity` of a bucket. -/
theorem State.Steady.of_entered {t : T} {bucket : Fin bucketCount} {before state : Bucket.State T}
    {totalTouched totalAllocated : UInt32}
    (hc : s'.control t = .bucket (.capacity bucket totalTouched totalAllocated)) (hb : s'.bucket bucket = state)
    (hstep : Bucket.step build before (.call t .capacity) = some state) : s'.Steady t := by
  unfold State.Steady
  rw [hc]
  show ((s'.bucket bucket).control t).inserting = false
  rw [hb]
  cases Bucket.Move.of_step hstep
  rw [Bucket.State.setControl_self]
  rfl

/-- The thread draws a slot only when the queue is empty. -/
theorem State.Steady.step (hsteady : s.Steady e.thread) (hm : Move build s e s') :
    s'.Steady e.thread ∨ (s'.erasures = [] ∧ (s'.control e.thread).Drawing) := by
  cases hm with
  | draw hc hq => exact Or.inr ⟨hq, drawing_of_eq (State.setControl_self _ _) trivial⟩
  | capacity hc hb => exact Or.inl (.of_entered (State.setControl_self _ _) (State.entered_bucket _ _ _ _) hb)
  | addedNext hc hr hb ht ha hlt hn =>
    exact Or.inl (.of_entered (State.setControl_self _ _) (State.entered_bucket _ _ _ _) hn)
  | @bucketStep t spurious frame bucket hc hb =>
    refine Or.inl ?_
    unfold State.Steady at hsteady ⊢
    rw [show (s.setBucket frame.bucket bucket).control (Event.act t spurious).thread = .bucket frame from hc]
    rw [show s.control (Event.act t spurious).thread = .bucket frame from hc] at hsteady
    cases frame with
    | insert => exact absurd hsteady not_false
    | capacity b totalTouched totalAllocated =>
      show ((Function.update s.bucket b bucket b).control t).inserting = false
      rw [Function.update_self]
      exact (measuring_step hsteady (.of_step hb)).2
  | headerStep hc | expire hc | elsewhere hc => exact Or.inl (.of_control hc nofun)
  | @bucketFault t _ frame fault bucket hc =>
    cases frame with
    | insert b element => exact Or.inl (.of_control (Function.update_self ..) nofun)
    | capacity => exact Or.inl (.of_control (State.setControl_self _ _) nofun)
  | @resume t _ frame result header control hc hr hh hres =>
    exact Or.inl (.of_control (State.setControl_self _ _)
      (Control.finishing_ne (Frame.resume_finishing hres)).2.1)
  | @moveOut t _ id method mayReuse element hc hv =>
    exact Or.inl (.of_control (State.setControl_self _ _)
      (Control.finishing_ne (afterMove_finishing id mayReuse _)).2.1)
  | insert hc | enter hc | removeLocked hc | look hc | replace hc | callFault hc | reuse hc | place hc | located hc
  | addedLast hc | addFault hc | headerFault hc | moveOutLocked hc | moveFault hc | push hc | ret hc | retFault hc =>
    exact Or.inl (.of_control (State.setControl_self _ _) nofun)

/-! ## Runs -/

section Run

variable [Fintype T] {n : ℕ} {state : ℕ → State T E} {event : ℕ → Event T E} {t : T}

omit [Fintype T] in
/-- The other threads of a single-threaded run are idle. -/
theorem alone_of_run (hrun : (machine build T E).Run n state event) (hsingle : ∀ k < n, (event k).thread = t) :
    ∀ k ≤ n, ∀ u ≠ t, (state k).control u = .idle := by
  intro k
  induction k with
  | zero =>
    intro _ u _
    obtain ⟨storeId, generator, hinit⟩ := hrun.init
    rw [hinit]
    rfl
  | succ k ih =>
    intro hk u hu
    have hm := Move.of_step (hrun.step k hk).2
    rw [hm.control_ne (by rw [hsingle k hk]; exact hu)]
    exact ih (by omega) u hu

theorem small_of_run (hrun : (machine build T E).Run n state event) (hsingle : ∀ k < n, (event k).thread = t)
    (hshort : ∀ k ≤ n, ∀ bucket, ((state k).bucket bucket).inner.blocks.length < 32) :
    ∀ k ≤ n, (state k).Sound build → ∀ bucket, ((state k).bucket bucket).Small :=
  fun k hk hs bucket => hs.linked.small (alone_of_run hrun hsingle k hk) (hshort k hk bucket)

/-- At some moment between two calls every slot handed out so far was in use, or the thread is in the `insert` that
brings about such a moment. -/
theorem peak_of_run (hrun : ((machine build T E).restrict State.NoWrap).Run n state event)
    (hsingle : ∀ k < n, (event k).thread = t) : ∀ k ≤ n,
    ((state k).erasures = [] ∧ ((state k).control t).Drawing) ∨
      ((state k).Steady t ∧ ∃ j ≤ k, (state j).AtRest ∧
        (state j).present.ncard + (state j).retired.ncard = ∑ bucket, (state k).touched bucket) := by
  have halone := alone_of_run hrun.of_restrict hsingle
  intro k
  induction k with
  | zero =>
    intro _
    obtain ⟨storeId, generator, hinit⟩ := hrun.init
    rw [hinit]
    have hrest : (State.init storeId generator : State T E).AtRest := fun _ => rfl
    have hs : (State.init storeId generator : State T E).Sound build := .init storeId generator
    refine Or.inr ⟨.of_control rfl nofun, 0, le_rfl, ?_, ?_⟩
    · rw [hinit]
      exact hrest
    · rw [hinit]
      exact hs.load_eq hrest rfl
  | succ k ih =>
    intro hk
    obtain ⟨-, -, hstep⟩ := hrun.step k hk
    have hm := Move.of_step hstep
    have hthread := hsingle k hk
    rcases ih (by omega) with ⟨hq, hdraw⟩ | ⟨hsteady, j, hj, hrest, hload⟩
    · rw [← hthread] at hdraw
      obtain ⟨hq', hdraw' | hidle⟩ := drawing_step hdraw hm
      · rw [hthread] at hdraw'
        exact Or.inl ⟨hq'.trans hq, hdraw'⟩
      · rw [hthread] at hidle
        have hrest : (state (k + 1)).AtRest := by
          intro u
          by_cases hu : u = t
          · rw [hu]
            exact hidle
          · exact halone (k + 1) hk u hu
        have hs := sound_of_reachable (hrun.reachable (k + 1) hk)
        exact Or.inr ⟨.of_control hidle nofun, k + 1, le_rfl, hrest, hs.load_eq hrest (hq'.trans hq)⟩
    · rw [← hthread] at hsteady
      have hsame : ∀ bucket, (state (k + 1)).touched bucket = (state k).touched bucket := by
        intro bucket
        unfold State.touched
        rw [hsteady.inner_eq hm]
      rcases hsteady.step hm with hsteady' | ⟨hq, hdraw⟩
      · rw [hthread] at hsteady'
        refine Or.inr ⟨hsteady', j, by omega, hrest, ?_⟩
        rw [hload]
        exact Finset.sum_congr rfl fun bucket _ => (hsame bucket).symm
      · rw [hthread] at hdraw
        exact Or.inl ⟨hq, hdraw⟩

/-- A retired slot stays retired. -/
theorem retired_mono (hrun : ((machine build T E).restrict State.NoWrap).Run n state event) {k : ℕ} (hk : k ≤ n) :
    (state k).retired ⊆ (state n).retired := by
  rintro address ⟨-, hord⟩
  have hord' := exhausted_stays hrun hk le_rfl hord
  refine ⟨?_, hord'⟩
  rw [Bool.eq_false_iff]
  intro hocc
  exact (sound_of_reachable (hrun.reachable n le_rfl)).occupied_ne_reserved hocc hord'

/-- The greatest number of slots in use is the number handed out. -/
theorem isGreatest_load (hrun : ((machine build T E).restrict State.NoWrap).Run n state event)
    (hsingle : ∀ k < n, (event k).thread = t) (hrest : (state n).AtRest) :
    IsGreatest {load | ∃ k ≤ n, (state k).AtRest ∧ load = (state k).present.ncard + (state k).retired.ncard}
      (∑ bucket, (state n).touched bucket) := by
  constructor
  · rcases peak_of_run hrun hsingle n le_rfl with ⟨-, hdraw⟩ | ⟨-, j, hj, hrest', hload⟩
    · rw [hrest t] at hdraw
      exact absurd hdraw not_false
    · exact ⟨j, hj, hrest', hload.symm⟩
  · rintro _ ⟨k, hk, hrest', rfl⟩
    calc (state k).present.ncard + (state k).retired.ncard
      _ ≤ ∑ bucket, (state k).touched bucket := (sound_of_reachable (hrun.reachable k hk)).load_le hrest'
      _ ≤ ∑ bucket, (state n).touched bucket :=
        Finset.sum_le_sum fun bucket _ => (grows_of_run hrun hk le_rfl bucket).1

end Run

/-- While no bucket has 32 blocks, the touched capacity of a store that one thread uses is its peak. -/
theorem capacity_is_peak (build : Build) (T E : Type) [Fintype T] [DecidableEq T] (n : ℕ) (state : ℕ → State T E)
    (event : ℕ → Event T E) (hrun : (machine build T E).Run n state event) (t : T)
    (hsingle : ∀ k < n, (event k).thread = t) (hidle : (state n).control t = .idle)
    (hfits : ∑ bucket, ((state n).bucket bucket).inner.allocated < 2 ^ 32)
    (hshort : ∀ k ≤ n, ∀ bucket, ((state k).bucket bucket).inner.blocks.length < 32) :
    ∃ touched allocated, PeakCapacity build n state touched allocated := by
  have hsmall := small_of_run hrun hsingle hshort
  have hrun' := noWrap_of_small hrun hsmall
  obtain ⟨hs, hcounted⟩ := counted_of_small hrun hsmall n le_rfl
  have hrest : (state n).AtRest := by
    intro u
    by_cases hu : u = t
    · rw [hu]
      exact hidle
    · exact alone_of_run hrun hsingle n le_rfl u hu
  have hle : ∀ bucket, ((state n).bucket bucket).inner.nextUnusedSlot.toNat ≤
      ((state n).bucket bucket).inner.headSize.toNat := by
    intro bucket
    refine (hcounted bucket).le_head fun u => ?_
    rw [hs.linked.calm u bucket fun frame hc => by cases (hrest u).symm.trans hc]
    rfl
  obtain ⟨hsums, hcapacity⟩ := capacity_eq build (fun bucket => (hs.linked.bucket bucket).inv.chain.1)
    (fun bucket => Nat.le_of_lt_succ (hshort n le_rfl bucket)) hle hfits
  have htouched : (UInt32.ofNat (∑ bucket, ((state n).bucket bucket).inner.touched.length)).toNat =
      ∑ bucket, (state n).touched bucket := Bucket.toNat_ofNat_of_lt (by omega)
  have hallocated := Bucket.toNat_ofNat_of_lt hfits
  have hpeak := isGreatest_load hrun' hsingle hrest
  rw [← htouched] at hpeak
  refine ⟨_, _, hcapacity, hpeak, fun hnone => ?_, ?_, hallocated⟩
  · have hset : {load | ∃ k ≤ n, (state k).AtRest ∧ load = (state k).present.ncard} =
        {load | ∃ k ≤ n, (state k).AtRest ∧ load = (state k).present.ncard + (state k).retired.ncard} := by
      ext load
      refine exists_congr fun k => and_congr_right fun hk => ?_
      rw [Set.subset_eq_empty (retired_mono hrun' hk) hnone, Set.ncard_empty, Nat.add_zero]
    rw [hset]
    exact hpeak
  · rw [UInt32.le_iff_toNat_le, htouched, hallocated]
    exact hsums

/-- Two elements are inserted and removed, and the next one goes into the slot of the first. -/
def insertAfterRemovals : List (Event (Fin 1) Bool) :=
  List.flatten [insertOne, insertOne, wholeCall 0 (.remove ⟨0, ⟨9, ⟨0, 0⟩⟩, 0⟩ .plain) 4,
    wholeCall 0 (.remove ⟨0, ⟨14, ⟨0, 0⟩⟩, 0⟩ .plain) 4, wholeCall 0 (.insert false) 4]

/-- One element is present, and the peak is two. -/
theorem capacity_is_peak_after_removals :
    ∃ (n : ℕ) (state : ℕ → State (Fin 1) Bool), (state n).issued.length = 3 ∧ (state n).erasures.length = 1 ∧
      PeakCapacity .debug n state 2 2 := by
  obtain ⟨state, event, hrun, hlast, hissued, herasures, hfits, hcapacity, hidle⟩ :
      ∃ (state : ℕ → State (Fin 1) Bool) (event : ℕ → Event (Fin 1) Bool),
        ((machine .debug (Fin 1) Bool).restrict fun s _ =>
          ∀ bucket, (s.bucket bucket).inner.blocks.length < 32).Run 48 state event ∧
        (∀ bucket, ((state 48).bucket bucket).inner.blocks.length < 32) ∧ (state 48).issued.length = 3 ∧
        (state 48).erasures.length = 1 ∧ ∑ bucket, ((state 48).bucket bucket).inner.allocated < 2 ^ 32 ∧
        capacity .debug (fun bucket => ((state 48).bucket bucket).inner) = .ok (2, 2) ∧
        ((state 48).control 0).isIdle = true :=
    ⟨_, _, run_of_replay_restrict .debug _ 0 (fun _ => 0) insertAfterRemovals (.ret 0) (by decide +kernel),
      by decide +kernel⟩
  have hcalm : (state 48).control 0 = .idle := Control.isIdle_iff.1 hidle
  obtain ⟨touched, allocated, hpeak⟩ := capacity_is_peak .debug (Fin 1) Bool 48 state event hrun.of_restrict 0
    (fun _ _ => Subsingleton.elim _ _) hcalm hfits fun k hk => by
      rcases Nat.lt_or_ge k 48 with hlt | hge
      · exact (hrun.step k hlt).1
      · obtain rfl : k = 48 := by omega
        exact hlast
  cases hcapacity.symm.trans hpeak.computes
  exact ⟨48, state, hissued, herasures, hpeak⟩

/-- With a block of `2 ^ 31` slots the capacity is not computed. -/
theorem capacity_not_peak : ∃ (n : ℕ) (state : ℕ → State (Fin 1) Unit) (event : ℕ → Event (Fin 1) Unit),
    (machine .debug (Fin 1) Unit).Run n state event ∧ (∀ k < n, (event k).thread = 0) ∧
      (state n).control 0 = .idle ∧ ∑ bucket, ((state n).bucket bucket).inner.allocated < 2 ^ 32 ∧
        ¬∃ touched allocated, PeakCapacity .debug n state touched allocated := by
  obtain ⟨s, inner, hr, hrest, hsettled, hlen, -⟩ := @exists_stocked Unit .debug () (2 ^ 32 - 1) (by omega)
  obtain ⟨hblocks, -⟩ := hsettled.full hlen
  have hne : Nonempty (Event (Fin 1) Unit) := ⟨.ret 0⟩
  obtain ⟨n, state, event, hrun, rfl⟩ := hr.exists_run
  have hinner : ∀ bucket, ((state n).bucket bucket).inner = if bucket = 0 then inner else .new := by
    intro bucket
    rw [hrest.bucket]
    rfl
  have hmax : inner.headSize = Bucket.maxBlockSize :=
    (Bucket.headSize_eq_max hsettled.doubling hsettled.length_le).2 hblocks
  refine ⟨n, state, event, hrun, fun _ _ => Subsingleton.elim _ _, hrest.control, ?_, ?_⟩
  · have hsum := Bucket.sum_doubling hsettled.doubling hsettled.length_le
    rw [hblocks] at hsum
    rw [@BucketRuns.sum_allocated (fun _ => 0) (fun bucket _ => (state n).bucket bucket) _ hinner]
    unfold Bucket.Inner.allocated
    omega
  · rintro ⟨touched, allocated, hpeak⟩
    obtain ⟨fault, hfault⟩ := Bucket.headSizeToTotalSize_max .debug
    have hfirst : Bucket.capacity .debug inner.headSize inner.nextUnusedSlot = .error fault := by
      unfold Bucket.capacity
      rw [hmax, hfault]
      rfl
    have hloop := hpeak.computes
    obtain ⟨rest, hbuckets⟩ : ∃ rest, List.finRange bucketCount = 0 :: rest := ⟨_, List.finRange_succ⟩
    unfold capacity at hloop
    rw [hbuckets, List.map_cons, capacityLoop, hinner 0, if_pos rfl, hfirst] at hloop
    cases hloop

end ReadWriteStore.Store

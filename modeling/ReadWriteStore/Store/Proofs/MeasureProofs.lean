import ReadWriteStore.Bucket.Proofs.CapacityProofs
import ReadWriteStore.Store.Measure
import ReadWriteStore.Store.Proofs.RefinementProofs

/-!
# The arithmetic of capacity

What `capacity` has read of a bucket lies between what has been handed out and allocated when the call
begins and now. Both only grow, so that sums of them never go below the sums of an earlier call.
-/

namespace ReadWriteStore.Bucket

variable {T : Type} [DecidableEq T] {build : Build} {s s' : State T} {e : Event T}

/-! ## What only grows -/

theorem State.Good.touched_le (h : s.Good build) (hwrap : ¬s.Wraps e.thread) (hm : Move build s e s') :
    s.inner.touched.length ≤ s'.inner.touched.length := by
  have hd := h.inv.chain.1
  have hd' := (h.move hwrap hm).inv.chain.1
  refine (List.subperm_of_subset (nodup_touched hd) fun location hmem => ?_).length_le
  rw [mem_touched hd] at hmem
  rw [mem_touched hd']
  exact (h.inv.hands h.guarded hwrap hm).1 location hmem

theorem State.Good.allocated_le (h : s.Good build) (hm : Move build s e s') :
    s.inner.allocated ≤ s'.inner.allocated := by
  unfold Inner.allocated
  rcases h.blocks hm with hsame | ⟨-, -, hgrown⟩
  · rw [hsame]
  · rw [hgrown, List.map_cons, List.sum_cons]
    exact Nat.le_add_left _ _

/-- The subtractions where the counter is at most the head. -/
theorem capacity_subtracts (build : Build) {inner : Inner} (hd : Doubling inner.blocks)
    (hlen : inner.blocks.length ≤ 31) (hle : inner.nextUnusedSlot ≤ inner.headSize) :
    ∃ total, headSizeToTotalSize build inner.headSize = .ok total ∧
      inner.headSize - inner.nextUnusedSlot ≤ total := by
  refine ⟨_, headSizeToTotalSize_eq build hd hlen, ?_⟩
  have hsplit := touched_add_unused (UInt32.le_iff_toNat_le.1 hle)
  have hlt := allocated_lt hd hlen
  rw [UInt32.le_iff_toNat_le, UInt32.toNat_sub_of_le _ _ hle]
  show _ ≤ (UInt32.ofNat inner.allocated).toNat
  rw [toNat_ofNat_of_lt (by omega)]
  omega

end ReadWriteStore.Bucket

namespace ReadWriteStore.Store

variable {T E : Type} [DecidableEq T] {build : Build} {s s' : State T E} {e : Event T E}

/-- The number of slots of a bucket that have been handed out. -/
def State.touched (s : State T E) (bucket : Fin bucketCount) : ℕ := (s.bucket bucket).inner.touched.length

def State.allocated (s : State T E) (bucket : Fin bucketCount) : ℕ := (s.bucket bucket).inner.allocated

theorem State.Sound.grows (h : s.Sound build) (hm : Move build s e s') (hwrap : s.NoWrap e)
    (bucket : Fin bucketCount) :
    s.touched bucket ≤ s'.touched bucket ∧ s.allocated bucket ≤ s'.allocated bucket := by
  unfold State.touched State.allocated
  rcases (hm.bucketPart bucket).bucketStep hwrap with hsame | ⟨event, -, hnowrap, hstep⟩
  · rw [hsame]
    exact ⟨le_refl _, le_refl _⟩
  · have hgood := h.linked.bucket bucket
    exact ⟨hgood.touched_le hnowrap (.of_step hstep), hgood.allocated_le (.of_step hstep)⟩

/-! ## What a call has read -/

/-- Two capacities that have been read, between two pairs of bounds. -/
structure Between (touched allocated : UInt32) (low low' now now' : ℕ) : Prop where
  touched_ge : low ≤ touched.toNat
  touched_le : touched.toNat ≤ now
  allocated_ge : low' ≤ allocated.toNat
  allocated_le : allocated.toNat ≤ now'
  le : touched ≤ allocated

theorem Between.mono {touched allocated : UInt32} {low low' now now' later later' : ℕ}
    (h : Between touched allocated low low' now now') (hl : now ≤ later) (hl' : now' ≤ later') :
    Between touched allocated low low' later later' :=
  ⟨h.touched_ge, h.touched_le.trans hl, h.allocated_ge, h.allocated_le.trans hl', h.le⟩

/-- What thread `t` has read inside a bucket. -/
def ReadsBucket (build : Build) (low low' now now' : ℕ) : Bucket.Control → Prop
  | .running .capacityLockRead | .running .capacityLoad => True
  | .running (.capacityUnlockRead headSize used) =>
    (used ≤ headSize ∧ ∃ total, Bucket.headSizeToTotalSize build headSize = .ok total ∧
      headSize - used ≤ total) ∧
        ∃ touched allocated, Bucket.capacity build headSize used = .ok (touched, allocated) ∧
          Between touched allocated low low' now now'
  | .returned (.capacity touched allocated) => Between touched allocated low low' now now'
  | _ => False

theorem ReadsBucket.mono {control : Bucket.Control} {low low' now now' later later' : ℕ}
    (h : ReadsBucket build low low' now now' control) (hl : now ≤ later) (hl' : now' ≤ later') :
    ReadsBucket build low low' later later' control := by
  cases control with
  | running point =>
    cases point with
    | capacityUnlockRead headSize used =>
      obtain ⟨hsub, touched, allocated, hcap, hbetween⟩ := h
      exact ⟨hsub, touched, allocated, hcap, hbetween.mono hl hl'⟩
    | capacityLockRead | capacityLoad => trivial
    | _ => exact absurd h not_false
  | returned result =>
    cases result with
    | capacity touched allocated => exact Between.mono h hl hl'
    | location => exact absurd h not_false
  | _ => exact absurd h not_false

/-- What thread `t` has read in a call of `capacity`; `low` and `low'` are the touched and allocated slots
when it began. -/
structure State.Reads (build : Build) (low low' : Fin bucketCount → ℕ) (s : State T E) (t : T) : Prop where
  ge : ∀ bucket, low bucket ≤ s.touched bucket ∧ low' bucket ≤ s.allocated bucket
  control : match s.control t with
    | .bucket (.capacity bucket touched allocated) =>
      Between touched allocated (∑ other ∈ Finset.Iio bucket, low other) (∑ other ∈ Finset.Iio bucket, low' other)
        (∑ other ∈ Finset.Iio bucket, s.touched other) (∑ other ∈ Finset.Iio bucket, s.allocated other) ∧
          ReadsBucket build (low bucket) (low' bucket) (s.touched bucket) (s.allocated bucket)
            ((s.bucket bucket).control t)
    | .returned (.capacity touched allocated) =>
      Between touched allocated (∑ other, low other) (∑ other, low' other) (∑ other, s.touched other)
        (∑ other, s.allocated other)
    | _ => False

omit [DecidableEq T] in
theorem State.Reads.cases {low low' : Fin bucketCount → ℕ} {t : T} (h : s.Reads build low low' t) :
    (∃ bucket touched allocated, s.control t = .bucket (.capacity bucket touched allocated) ∧
      Between touched allocated (∑ other ∈ Finset.Iio bucket, low other) (∑ other ∈ Finset.Iio bucket, low' other)
        (∑ other ∈ Finset.Iio bucket, s.touched other) (∑ other ∈ Finset.Iio bucket, s.allocated other) ∧
          ReadsBucket build (low bucket) (low' bucket) (s.touched bucket) (s.allocated bucket)
            ((s.bucket bucket).control t)) ∨
    ∃ touched allocated, s.control t = .returned (.capacity touched allocated) ∧
      Between touched allocated (∑ other, low other) (∑ other, low' other) (∑ other, s.touched other)
        (∑ other, s.allocated other) := by
  have hcontrol := h.control
  cases hc : s.control t with
  | bucket frame =>
    rw [hc] at hcontrol
    cases frame with
    | insert => exact absurd hcontrol not_false
    | capacity bucket touched allocated => exact Or.inl ⟨bucket, touched, allocated, rfl, hcontrol⟩
  | returned result =>
    rw [hc] at hcontrol
    cases result with
    | capacity touched allocated => exact Or.inr ⟨touched, allocated, rfl, hcontrol⟩
    | _ => exact absurd hcontrol not_false
  | _ =>
    rw [hc] at hcontrol
    exact absurd hcontrol not_false

/-! ## Sums over the buckets -/

section Sums

variable {touched allocated touched' allocated' : UInt32} {low low' now now' lower lower' more more' : ℕ}

/-- Sums that fit in a `u32` keep the bounds. -/
theorem Between.add (h : Between touched allocated low low' now now')
    (h' : Between touched' allocated' lower lower' more more') (hfit : now' + more' < 2 ^ 32) :
    Between (touched + touched') (allocated + allocated') (low + lower) (low' + lower') (now + more)
      (now' + more') := by
  have hle := UInt32.le_iff_toNat_le.1 h.le
  have hle' := UInt32.le_iff_toNat_le.1 h'.le
  have ha := h.allocated_le
  have ha' := h'.allocated_le
  have htouched : (touched + touched').toNat = touched.toNat + touched'.toNat := by
    rw [UInt32.toNat_add]
    exact Nat.mod_eq_of_lt (by omega)
  have hallocated : (allocated + allocated').toNat = allocated.toNat + allocated'.toNat := by
    rw [UInt32.toNat_add]
    exact Nat.mod_eq_of_lt (by omega)
  refine ⟨?_, ?_, ?_, ?_, ?_⟩
  · rw [htouched]
    exact Nat.add_le_add h.touched_ge h'.touched_ge
  · rw [htouched]
    exact Nat.add_le_add h.touched_le h'.touched_le
  · rw [hallocated]
    exact Nat.add_le_add h.allocated_ge h'.allocated_ge
  · rw [hallocated]
    exact Nat.add_le_add ha ha'
  · rw [UInt32.le_iff_toNat_le, htouched, hallocated]
    exact Nat.add_le_add hle hle'

theorem Between.addU32_ok (h : Between touched allocated low low' now now')
    (h' : Between touched' allocated' lower lower' more more') (hfit : now' + more' < 2 ^ 32) {fault : Fault} :
    addU32 build touched touched' ≠ .error fault ∧ addU32 build allocated allocated' ≠ .error fault := by
  have hle := UInt32.le_iff_toNat_le.1 h.le
  have hle' := UInt32.le_iff_toNat_le.1 h'.le
  have ha := h.allocated_le
  have ha' := h'.allocated_le
  constructor
  · rw [ReadWriteStore.addU32_ok build (by omega)]
    nofun
  · rw [ReadWriteStore.addU32_ok build (by omega)]
    nofun

theorem sum_Iio_next (f : Fin bucketCount → ℕ) {bucket : Fin bucketCount} (hlt : bucket.val + 1 < bucketCount) :
    ∑ other ∈ Finset.Iio ⟨bucket.val + 1, hlt⟩, f other = ∑ other ∈ Finset.Iio bucket, f other + f bucket := by
  have hinsert : Finset.Iio ⟨bucket.val + 1, hlt⟩ = insert bucket (Finset.Iio bucket) := by
    ext other
    rw [Finset.mem_Iio, Finset.mem_insert, Finset.mem_Iio, Fin.lt_def, Fin.lt_def, Fin.ext_iff]
    show other.val < bucket.val + 1 ↔ _
    omega
  rw [hinsert, Finset.sum_insert (by simp), Nat.add_comm]

theorem sum_Iio_last (f : Fin bucketCount → ℕ) {bucket : Fin bucketCount} (hlast : ¬bucket.val + 1 < bucketCount) :
    ∑ other, f other = ∑ other ∈ Finset.Iio bucket, f other + f bucket := by
  have hinsert : Finset.univ = insert bucket (Finset.Iio bucket) := by
    ext other
    rw [Finset.mem_insert, Finset.mem_Iio, Fin.lt_def, Fin.ext_iff]
    have := other.isLt
    exact ⟨fun _ => by omega, fun _ => Finset.mem_univ _⟩
  rw [hinsert, Finset.sum_insert (by simp), Nat.add_comm]

theorem sum_Iio_le (f : Fin bucketCount → ℕ) (bucket : Fin bucketCount) :
    ∑ other ∈ Finset.Iio bucket, f other + f bucket ≤ ∑ other, f other := by
  have hinsert : ∑ other ∈ insert bucket (Finset.Iio bucket), f other =
      ∑ other ∈ Finset.Iio bucket, f other + f bucket := by
    rw [Finset.sum_insert (by simp), Nat.add_comm]
  rw [← hinsert]
  exact Finset.sum_le_sum_of_subset (Finset.subset_univ _)

end Sums

/-! ## One step -/

section Step

variable {low low' : Fin bucketCount → ℕ} {t : T}

/-- What a call begins with. -/
theorem State.Reads.start (h : s.Sound build) (hm : Move build s (.call t .capacity) s')
    (hwrap : s.NoWrap (.call t .capacity)) : s'.Reads build s.touched s.allocated t := by
  refine ⟨fun bucket => h.grows hm hwrap bucket, ?_⟩
  cases hm with
  | enter _ hframe => cases hframe
  | @capacity _ bucket hc hb =>
    have hcontrol : ((s.setBucket 0 bucket).setControl t (.bucket (.capacity 0 0 0)) : State T E).control t =
        .bucket (.capacity 0 0 0) := State.setControl_self _ _
    have hentered : bucket.control t = .running .capacityLockRead := by
      cases Bucket.Move.of_step hb with
      | call hidle => exact Bucket.State.setControl_self _ _
    have hbucket : ((s.setBucket 0 bucket).setControl t (.bucket (.capacity 0 0 0)) : State T E).bucket 0 =
        bucket := State.entered_bucket _ _ _ _
    rw [hcontrol]
    have hnone : Finset.Iio (0 : Fin bucketCount) = ∅ := by decide
    simp only [hnone, Finset.sum_empty, hbucket, hentered]
    exact ⟨⟨Nat.zero_le _, Nat.zero_le _, Nat.zero_le _, Nat.zero_le _, UInt32.le_rfl⟩, trivial⟩
  | look _ hlook => cases hlook
  | replace _ hreplace => cases hreplace
  | callFault _ hfault =>
    cases hfault with
    | foreign hid => cases hid
    | access haddress => cases haddress

/-- A thread inside a bucket reads on. -/
theorem readsBucket_step {bucket bucket' : Bucket.State T} {below below' : ℕ}
    (hgood : bucket.Good build) (hlen : bucket.inner.blocks.length < 32)
    (hmeasured : bucket.control t = .running .capacityLoad → bucket.inner.nextUnusedSlot ≤ bucket.inner.headSize)
    (hlow : below ≤ bucket.inner.touched.length ∧ below' ≤ bucket.inner.allocated)
    (hreads : ReadsBucket build below below' bucket.inner.touched.length bucket.inner.allocated
      (bucket.control t))
    (hm : Bucket.Move build bucket (.act t) bucket') :
    ReadsBucket build below below' bucket.inner.touched.length bucket.inner.allocated (bucket'.control t) := by
  cases hm with
  | lockRead hc hpoint =>
    rw [Bucket.State.setControl_self]
    rcases hpoint with ⟨rfl, rfl⟩ | ⟨rfl, rfl⟩
    · rw [hc] at hreads
      exact absurd hreads not_false
    · trivial
  | load hc =>
    rw [Bucket.State.setControl_self]
    have hd := hgood.inv.chain.1
    have hle := hmeasured hc
    have hlt := Bucket.allocated_lt hd (by omega)
    have hsplit := Bucket.touched_add_unused (UInt32.le_iff_toNat_le.1 hle)
    have htouched : (UInt32.ofNat bucket.inner.touched.length).toNat = bucket.inner.touched.length :=
      Bucket.toNat_ofNat_of_lt (by omega)
    have hallocated : (UInt32.ofNat bucket.inner.allocated).toNat = bucket.inner.allocated :=
      Bucket.toNat_ofNat_of_lt (by omega)
    refine ⟨⟨hle, Bucket.capacity_subtracts build hd (by omega) hle⟩, _, _,
      Bucket.capacity_eq build hd (by omega) (UInt32.le_iff_toNat_le.1 hle), ?_⟩
    refine ⟨?_, ?_, ?_, ?_, ?_⟩
    · rw [htouched]
      exact hlow.1
    · rw [htouched]
    · rw [hallocated]
      exact hlow.2
    · rw [hallocated]
    · rw [UInt32.le_iff_toNat_le, htouched, hallocated]
      omega
  | compute hc =>
    rw [Bucket.State.setControl_self]
    rw [hc] at hreads
    obtain ⟨-, touched, allocated, hcap, hbetween⟩ := hreads
    rw [hcap]
    exact hbetween
  | @fetch t point hc hf =>
    rw [hc] at hreads
    cases point with
    | capacityLockRead | capacityLoad | capacityUnlockRead => exact absurd hf not_false
    | _ => exact absurd hreads not_false
  | unlockRead hc | lockWrite hc | expand hc | unlockWrite hc =>
    rw [hc] at hreads
    exact absurd hreads not_false

/-- The thread itself goes on, bucket by bucket. -/
theorem State.Reads.control_self (h : s.Sound build) (hm : Move build s e s') (hwrap : s.NoWrap e)
    (hmeasured : s.Measured e) (hfits : s.Fits) (hfits' : s'.Fits) (hret : e ≠ .ret e.thread)
    (hr : s.Reads build low low' e.thread) (hge : ∀ bucket, low bucket ≤ s'.touched bucket ∧
      low' bucket ≤ s'.allocated bucket) : s'.Reads build low low' e.thread := by
  have hgrows := fun bucket => h.grows hm hwrap bucket
  rcases hr.cases with ⟨bucket, touched, allocated, hc, hbetween, hreads⟩ | ⟨touched, allocated, hc, hbetween⟩
  · have hbetween' := hbetween.mono (Finset.sum_le_sum fun other _ => (hgrows other).1)
      (Finset.sum_le_sum fun other _ => (hgrows other).2)
    have hreads' := hreads.mono (hgrows bucket).1 (hgrows bucket).2
    have hbelow := (sum_Iio_le s'.allocated bucket).trans_lt hfits'.2
    cases hm with
    | @bucketStep t spurious frame bucket' hc' hb =>
      cases hc.symm.trans hc'
      refine ⟨hge, ?_⟩
      have hcontrol : (s.setBucket bucket bucket').control t =
          .bucket (.capacity bucket touched allocated) := hc
      have hself : (s.setBucket bucket bucket').bucket bucket = bucket' := Function.update_self ..
      show match (s.setBucket bucket bucket').control t with
        | .bucket (.capacity bucket touched allocated) => _ | .returned (.capacity touched allocated) => _
        | _ => False
      rw [hcontrol]
      refine ⟨hbetween', ?_⟩
      have hload : (s.bucket bucket).control t = .running .capacityLoad →
          (s.bucket bucket).inner.nextUnusedSlot ≤ (s.bucket bucket).inner.headSize := by
        intro hl
        unfold State.Measured at hmeasured
        rw [hc] at hmeasured
        dsimp only [BucketFrame.bucket, Event.thread] at hmeasured
        rw [hl] at hmeasured
        exact hmeasured
      have hstep := readsBucket_step (h.linked.bucket bucket) (hfits.1 bucket) hload (hr.ge bucket) hreads
        (.of_step hb)
      refine ReadsBucket.mono ?_ (hgrows bucket).1 (hgrows bucket).2
      show ReadsBucket build _ _ _ _ (((s.setBucket bucket bucket').bucket bucket).control t)
      rw [hself]
      exact hstep
    | @addedNext t spurious b _ _ touched₁ allocated₁ touched₂ allocated₂ bucket₁ next hc' hb hret' ht ha hlt hn =>
      cases hc.symm.trans hc'
      rw [show (s.bucket bucket).control (Event.act t spurious).thread = _ from hb] at hreads'
      refine ⟨hge, ?_⟩
      rw [show (Event.act t spurious).thread = t from rfl, State.setControl_self]
      obtain rfl := addU32_eq ht
      obtain rfl := addU32_eq ha
      refine ⟨?_, ?_⟩
      · rw [sum_Iio_next _ hlt, sum_Iio_next _ hlt, sum_Iio_next _ hlt, sum_Iio_next _ hlt]
        exact hbetween'.add hreads' hbelow
      · have hself : (((s.setBucket bucket bucket₁).setBucket ⟨bucket.val + 1, hlt⟩ next).setControl t
            (.bucket (.capacity ⟨bucket.val + 1, hlt⟩ (touched + touched₁) (allocated + allocated₁))) :
              State T E).bucket ⟨bucket.val + 1, hlt⟩ = next := State.entered_bucket _ _ _ _
        have hentered : next.control t = .running .capacityLockRead := by
          cases Bucket.Move.of_step hn with
          | call hidle => exact Bucket.State.setControl_self _ _
        rw [hself]
        show ReadsBucket _ _ _ _ _ (next.control t)
        rw [hentered]
        trivial
    | @addedLast t spurious b _ _ touched₁ allocated₁ touched₂ allocated₂ bucket₁ hc' hb hret' ht ha hlast =>
      cases hc.symm.trans hc'
      rw [show (s.bucket bucket).control (Event.act t spurious).thread = _ from hb] at hreads'
      refine ⟨hge, ?_⟩
      rw [show (Event.act t spurious).thread = t from rfl, State.setControl_self]
      obtain rfl := addU32_eq ht
      obtain rfl := addU32_eq ha
      show Between _ _ _ _ _ _
      rw [sum_Iio_last _ hlast, sum_Iio_last _ hlast, sum_Iio_last _ hlast, sum_Iio_last _ hlast]
      exact hbetween'.add hreads' hbelow
    | @addFault t spurious b _ _ touched₁ allocated₁ fault bucket₁ hc' hb hret' hfault =>
      cases hc.symm.trans hc'
      rw [show (s.bucket bucket).control (Event.act t spurious).thread = _ from hb] at hreads'
      rcases hfault with hfault | hfault
      · exact absurd hfault (hbetween'.addU32_ok hreads' hbelow).1
      · exact absurd hfault (hbetween'.addU32_ok hreads' hbelow).2
    | @bucketFault t _ frame fault bucket₁ hc' hb =>
      cases hc.symm.trans hc'
      rw [show (s.bucket bucket).control (Event.act t _).thread = _ from hb] at hreads
      exact absurd hreads not_false
    | located hc' => cases hc.symm.trans hc'
    | moveFault hother =>
      rcases hother with hother | ⟨method, mayReuse, hother⟩
      · cases hc.symm.trans hother
      · cases hc.symm.trans hother
    | insert h' | enter h' | removeLocked h' | capacity h' | look h' | replace h' | callFault h' | reuse h'
    | draw h' | place h' | headerStep h' | expire h' | resume h' | headerFault h' | moveOut h' | moveOutLocked h'
    | push h' | ret h' | retFault h' | elsewhere h' => cases hc.symm.trans h'
  · exfalso
    cases hm with
    | ret => exact hret rfl
    | retFault => exact hret rfl
    | moveFault hother =>
      rcases hother with hother | ⟨method, mayReuse, hother⟩
      · cases hc.symm.trans hother
      · cases hc.symm.trans hother
    | insert h' | enter h' | removeLocked h' | capacity h' | look h' | replace h' | callFault h' | reuse h'
    | draw h' | place h' | bucketStep h' | located h' | addedNext h' | addedLast h' | addFault h' | bucketFault h'
    | headerStep h' | expire h' | resume h' | headerFault h' | moveOut h' | moveOutLocked h' | push h'
    | elsewhere h' => cases hc.symm.trans h'

/-- The other threads only raise the bounds. -/
theorem State.Reads.control_ne (h : s.Sound build) (hm : Move build s e s') (hwrap : s.NoWrap e) (ht : t ≠ e.thread)
    (hr : s.Reads build low low' t) (hge : ∀ bucket, low bucket ≤ s'.touched bucket ∧
      low' bucket ≤ s'.allocated bucket) : s'.Reads build low low' t := by
  have hgrows := fun bucket => h.grows hm hwrap bucket
  refine ⟨hge, ?_⟩
  rw [hm.control_ne ht]
  rcases hr.cases with ⟨bucket, touched, allocated, hc, hbetween, hreads⟩ | ⟨touched, allocated, hc, hbetween⟩
  · rw [hc]
    refine ⟨hbetween.mono (Finset.sum_le_sum fun other _ => (hgrows other).1)
      (Finset.sum_le_sum fun other _ => (hgrows other).2), ?_⟩
    have hsame : (s'.bucket bucket).control t = (s.bucket bucket).control t := by
      rcases (hm.bucketPart bucket).bucketStep hwrap with hsame | ⟨event, hthread, -, hstep⟩
      · rw [hsame]
      · exact (Bucket.Move.of_step hstep).control_ne (by rw [hthread]; exact ht)
    rw [hsame]
    exact hreads.mono (hgrows bucket).1 (hgrows bucket).2
  · rw [hc]
    exact hbetween.mono (Finset.sum_le_sum fun other _ => (hgrows other).1)
      (Finset.sum_le_sum fun other _ => (hgrows other).2)

theorem State.Reads.step (h : s.Sound build) (hm : Move build s e s') (hwrap : s.NoWrap e)
    (hmeasured : s.Measured e) (hfits : s.Fits) (hfits' : s'.Fits) (hret : e ≠ .ret t)
    (hr : s.Reads build low low' t) : s'.Reads build low low' t := by
  have hgrows := fun bucket => h.grows hm hwrap bucket
  have hge : ∀ bucket, low bucket ≤ s'.touched bucket ∧ low' bucket ≤ s'.allocated bucket := fun bucket =>
    ⟨(hr.ge bucket).1.trans (hgrows bucket).1, (hr.ge bucket).2.trans (hgrows bucket).2⟩
  by_cases ht : t = e.thread
  · subst ht
    exact hr.control_self h hm hwrap hmeasured hfits hfits' hret hge
  · exact hr.control_ne h hm hwrap ht hge

end Step

/-! ## Runs -/

section Run

variable [Fintype T] {n : ℕ} {state : ℕ → State T E} {event : ℕ → Event T E}

theorem grows_of_run (hrun : ((machine build T E).restrict State.NoWrap).Run n state event) {j k : ℕ} (hjk : j ≤ k)
    (hk : k ≤ n) (bucket : Fin bucketCount) :
    (state j).touched bucket ≤ (state k).touched bucket ∧
      (state j).allocated bucket ≤ (state k).allocated bucket := by
  induction k, hjk using Nat.le_induction with
  | base => exact ⟨le_rfl, le_rfl⟩
  | succ k hjk ih =>
    obtain ⟨hwrap, -, hstep⟩ := hrun.step k (by omega)
    have hgrows := (sound_of_reachable (hrun.reachable k (by omega))).grows (.of_step hstep) hwrap bucket
    exact ⟨(ih (by omega)).1.trans hgrows.1, (ih (by omega)).2.trans hgrows.2⟩

/-- What has been read in a call that is going on. -/
theorem reads_of_run (hrun : ((machine build T E).restrict fun s e => s.NoWrap e ∧ s.Measured e).Run n state event)
    (hfits : ∀ k ≤ n, (state k).Fits) {i k : ℕ} {t : T} (hk : k ≤ n) (h : Measures event i k t) :
    (state k).Reads build (state i).touched (state i).allocated t := by
  obtain ⟨hik, hcall, hret⟩ := h
  induction k, hik using Nat.le_induction with
  | base =>
    obtain ⟨⟨hwrap, -⟩, -, hstep⟩ := hrun.step i hk
    have hs := sound_of_reachable ((hrun.weaken fun _ _ h => h.1).reachable i (by omega))
    have hm := Move.of_step hstep
    rw [hcall] at hm hwrap
    exact State.Reads.start hs hm hwrap
  | succ k hik ih =>
    obtain ⟨⟨hwrap, hmeasured⟩, -, hstep⟩ := hrun.step k (by omega)
    have hs := sound_of_reachable ((hrun.weaken fun _ _ h => h.1).reachable k (by omega))
    exact (ih (by omega) fun m hm hmk => hret m hm (by omega)).step hs (.of_step hstep) hwrap hmeasured
      (hfits k (by omega)) (hfits (k + 1) hk) (hret k (by omega) (by omega))

end Run

/-- Where `capacity` meets no head that an `insert` has found full, its arithmetic is sound. -/
theorem capacity_sound (build : Build) (T E : Type) [Fintype T] [DecidableEq T] (n : ℕ) (state : ℕ → State T E)
    (event : ℕ → Event T E)
    (hrun : ((machine build T E).restrict fun s e => s.NoWrap e ∧ s.Measured e).Run n state event)
    (hfits : ∀ k ≤ n, (state k).Fits) : SoundCapacity build n state event where
  subtracts i k t hk h bucket totalTouched totalAllocated headSize used hc hb := by
    have hcontrol := (reads_of_run hrun hfits hk h).control
    rw [hc] at hcontrol
    obtain ⟨-, hreads⟩ := hcontrol
    rw [hb] at hreads
    exact hreads.1
  returns i k t hk h fault hc := by
    have hcontrol := (reads_of_run hrun hfits hk h).control
    rw [hc] at hcontrol
    exact hcontrol
  le i k t hk h touched allocated hc := by
    have hcontrol := (reads_of_run hrun hfits hk h).control
    rw [hc] at hcontrol
    exact hcontrol.le
  mono i j k l t hjk hl hfirst hsecond touched allocated touched' allocated' hc hc' := by
    have hkl := hsecond.1
    have hbetween := (reads_of_run hrun hfits (by omega) hfirst).control
    rw [hc] at hbetween
    have hbetween' := (reads_of_run hrun hfits hl hsecond).control
    rw [hc'] at hbetween'
    have hgrows := grows_of_run (hrun.weaken fun _ _ h => h.1) hjk (by omega)
    constructor
    · rw [UInt32.le_iff_toNat_le]
      calc touched.toNat
        _ ≤ ∑ other, (state j).touched other := hbetween.touched_le
        _ ≤ ∑ other, (state k).touched other := Finset.sum_le_sum fun other _ => (hgrows other).1
        _ ≤ touched'.toNat := hbetween'.touched_ge
    · rw [UInt32.le_iff_toNat_le]
      calc allocated.toNat
        _ ≤ ∑ other, (state j).allocated other := hbetween.allocated_le
        _ ≤ ∑ other, (state k).allocated other := Finset.sum_le_sum fun other _ => (hgrows other).2
        _ ≤ allocated'.toNat := hbetween'.allocated_ge

/-- An element is inserted. While another thread inserts into the same bucket, the first one calls `capacity`
before the bucket has grown and once more after it has. -/
def insertAndMeasure : List (Event (Fin 2) Unit) :=
  List.flatten [wholeCall 0 (.insert ()) 13, beginCall 1 (.insert ()) 2, wholeCall 0 .capacity 64,
    List.replicate 8 (.act 1 false), beginCall 0 .capacity 64]

theorem capacity_sound_while_inserting :
    ∃ (state : ℕ → State (Fin 2) Unit) (event : ℕ → Event (Fin 2) Unit), SoundCapacity .debug 157 state event ∧
      ((state 83).control 0).capacity = some (1, 1) ∧ ((state 157).control 0).capacity = some (2, 3) ∧
        ((state 157).control 1).isIdle = false := by
  obtain ⟨state, event, hrun, hfirst, hfits, hsecond, hinside⟩ :
      ∃ (state : ℕ → State (Fin 2) Unit) (event : ℕ → Event (Fin 2) Unit),
        ((machine .debug (Fin 2) Unit).restrict fun s e => (s.NoWrap e ∧ s.Measured e) ∧ s.Fits).Run 157 state
          event ∧ ((state 83).control 0).capacity = some (1, 1) ∧ (state 157).Fits ∧
            ((state 157).control 0).capacity = some (2, 3) ∧ ((state 157).control 1).isIdle = false :=
    ⟨_, _, run_of_replay_restrict .debug _ 0 (fun _ => 0) insertAndMeasure (.ret 0) (by decide +kernel),
      by decide +kernel⟩
  refine ⟨state, event, capacity_sound .debug (Fin 2) Unit 157 state event (hrun.weaken fun _ _ hok => hok.1)
    fun k hk => ?_, hfirst, hsecond, hinside⟩
  rcases Nat.lt_or_ge k 157 with hlt | hge
  · exact (hrun.step k hlt).1.2
  · obtain rfl : k = 157 := by omega
    exact hfits

/-- An element fills the only slot of a bucket. A second insert finds the head full, and before it has expanded
the bucket the first thread calls `capacity`. -/
def measureFullHead : List (Event (Fin 2) Unit) :=
  List.flatten [wholeCall 0 (.insert ()) 13, beginCall 1 (.insert ()) 3, beginCall 0 .capacity 4]

/-- The subtraction of the counter from the head underflows. -/
theorem capacity_underflows : ∃ (n : ℕ) (state : ℕ → State (Fin 2) Unit) (event : ℕ → Event (Fin 2) Unit),
    (machine .debug (Fin 2) Unit).Run n state event ∧ (∀ k ≤ n, (state k).Fits) ∧
      ¬SoundCapacity .debug n state event := by
  refine ⟨_, _, _, run_of_replay .debug 0 (fun _ => 3) measureFullHead (.ret 0) (by decide +kernel),
    by decide +kernel, fun hsound => ?_⟩
  have hrets : ∀ m < 24, 19 < m → measureFullHead.getD m (.ret 0) ≠ .ret 0 := by decide
  exact hsound.returns 19 24 0 (by decide) ⟨by decide, rfl, fun m hm hlt => hrets m hlt hm⟩
    (.overflow "attempt to subtract with overflow") rfl

end ReadWriteStore.Store

import ReadWriteStore.Store.Capacity
import ReadWriteStore.Store.Proofs.SizeHintProofs

/-!
# Capacity is exact while the sums fit

The total of one bucket is computed back from its head, which works for every head but the largest.
The sums over the sixteen buckets are exact unless the slots of all of them are too many for a `u32`.
-/

namespace ReadWriteStore.Store

variable {build : Build}

/-! ## The sums -/

/-- Adding two numbers whose sum fits. -/
theorem addU32_ofNat (build : Build) {a b : ℕ} (h : a + b < 2 ^ 32) :
    addU32 build (UInt32.ofNat a) (UInt32.ofNat b) = .ok (UInt32.ofNat (a + b)) := by
  have ha : (UInt32.ofNat a).toNat = a := Bucket.toNat_ofNat_of_lt (by omega)
  have hb : (UInt32.ofNat b).toNat = b := Bucket.toNat_ofNat_of_lt (by omega)
  rw [addU32_ok build (by omega), ← UInt32.ofNat_add]

/-- The loop adds up what fits in a `u32`. -/
theorem capacityLoop_eq (build : Build) {inners : List Bucket.Inner}
    (hcapacity : ∀ inner ∈ inners, Bucket.capacity build inner.headSize inner.nextUnusedSlot =
      .ok (UInt32.ofNat inner.touched.length, UInt32.ofNat inner.allocated)) (touched allocated : ℕ)
    (htouched : touched + (inners.map fun inner => inner.touched.length).sum < 2 ^ 32)
    (hallocated : allocated + (inners.map Bucket.Inner.allocated).sum < 2 ^ 32) :
    capacityLoop build inners (UInt32.ofNat touched) (UInt32.ofNat allocated) =
      .ok (UInt32.ofNat (touched + (inners.map fun inner => inner.touched.length).sum),
        UInt32.ofNat (allocated + (inners.map Bucket.Inner.allocated).sum)) := by
  induction inners generalizing touched allocated with
  | nil => rfl
  | cons inner rest ih =>
    rw [List.map_cons, List.sum_cons] at htouched hallocated
    rw [List.map_cons, List.sum_cons, List.map_cons, List.sum_cons]
    show (Bucket.capacity build inner.headSize inner.nextUnusedSlot >>= _) = _
    rw [hcapacity inner List.mem_cons_self]
    show (addU32 build (UInt32.ofNat touched) (UInt32.ofNat inner.touched.length) >>= _) = _
    rw [addU32_ofNat build (by omega)]
    show (addU32 build (UInt32.ofNat allocated) (UInt32.ofNat inner.allocated) >>= _) = _
    rw [addU32_ofNat build (by omega)]
    show capacityLoop build rest _ _ = _
    rw [ih (fun other hmem => hcapacity other (List.mem_cons_of_mem _ hmem)) _ _ (by omega) (by omega),
      Nat.add_assoc, Nat.add_assoc]

/-- The capacity of buckets whose counters are at most their heads. -/
theorem capacity_eq (build : Build) {inner : Fin bucketCount → Bucket.Inner}
    (hd : ∀ bucket, Bucket.Doubling (inner bucket).blocks) (hlen : ∀ bucket, (inner bucket).blocks.length ≤ 31)
    (hle : ∀ bucket, (inner bucket).nextUnusedSlot.toNat ≤ (inner bucket).headSize.toNat)
    (hsum : ∑ bucket, (inner bucket).allocated < 2 ^ 32) :
    ∑ bucket, (inner bucket).touched.length ≤ ∑ bucket, (inner bucket).allocated ∧
      capacity build inner = .ok (UInt32.ofNat (∑ bucket, (inner bucket).touched.length),
        UInt32.ofNat (∑ bucket, (inner bucket).allocated)) := by
  have htouched : ∑ bucket, (inner bucket).touched.length ≤ ∑ bucket, (inner bucket).allocated :=
    Finset.sum_le_sum fun bucket _ => by
      have := Bucket.touched_add_unused (hle bucket)
      omega
  have hmap : ∀ f : Bucket.Inner → ℕ, ((List.finRange bucketCount).map inner).map f =
      (List.finRange bucketCount).map fun bucket => f (inner bucket) := fun f => List.map_map
  have hbuckets : ∀ other ∈ (List.finRange bucketCount).map inner,
      Bucket.capacity build other.headSize other.nextUnusedSlot =
        .ok (UInt32.ofNat other.touched.length, UInt32.ofNat other.allocated) := by
    intro other hmem
    obtain ⟨bucket, -, rfl⟩ := List.mem_map.1 hmem
    exact Bucket.capacity_eq build (hd bucket) (hlen bucket) (hle bucket)
  have hloop := capacityLoop_eq build hbuckets 0 0
  rw [hmap, hmap, ← Fin.sum_univ_def, ← Fin.sum_univ_def, Nat.zero_add, Nat.zero_add] at hloop
  exact ⟨htouched, hloop (by omega) hsum⟩

/-- The slots that have been handed out are counted bucket by bucket. -/
theorem ncard_handedOut {inner : Fin bucketCount → Bucket.Inner}
    (hd : ∀ bucket, Bucket.Doubling (inner bucket).blocks) :
    {address : SlotAddress | (inner address.bucket).HandedOut address.location}.Finite ∧
      {address : SlotAddress | (inner address.bucket).HandedOut address.location}.ncard =
        ∑ bucket, (inner bucket).touched.length := by
  have hset : {address : SlotAddress | (inner address.bucket).HandedOut address.location} =
      ((GenIter.new inner).pending.toFinset : Set SlotAddress) := by
    ext address
    rw [Set.mem_ofPred_eq, ← Bucket.mem_touched (hd address.bucket), ← GenIter.mem_pending_new inner]
    simp
  rw [hset]
  refine ⟨Finset.finite_toSet _, ?_⟩
  rw [Set.ncard_coe_finset, List.toFinset_card_of_nodup (GenIter.nodup_pending_new hd), GenIter.pending_new,
    List.length_flatMap, List.map_reverse, List.sum_reverse, Fin.sum_univ_def]
  congr 1
  refine List.map_congr_left fun bucket _ => ?_
  rw [List.length_map]

/-! ## Sixteen buckets -/

section Runs

variable {T : Type} [DecidableEq T] {n : Fin bucketCount → ℕ} {state : Fin bucketCount → ℕ → Bucket.State T}
  {event : Fin bucketCount → ℕ → Bucket.Event T}

theorem BucketRuns.ncard_taken (h : BucketRuns build n state event) :
    {address : SlotAddress | Bucket.Taken (state address.bucket) (n address.bucket)
      address.location}.ncard = ∑ bucket, (state bucket (n bucket)).inner.touched.length := by
  rw [← (ncard_handedOut h.doubling).2]
  congr 1
  ext address
  exact (h.handouts address.bucket).taken_iff (Nat.le_refl _)

/-- The chain of a bucket only grows. -/
theorem BucketRuns.blocks_mono (h : BucketRuns build n state event) (bucket : Fin bucketCount) {i j : ℕ}
    (hij : i ≤ j) (hj : j ≤ n bucket) :
    (state bucket i).inner.blocks.length ≤ (state bucket j).inner.blocks.length := by
  induction j, hij using Nat.le_induction with
  | base => exact Nat.le_refl _
  | succ j hij ih =>
    have hstep := (h.good bucket j (by omega)).blocks (Bucket.Move.of_step ((h bucket).step j (by omega)).2.2)
    have hle := ih (by omega)
    rcases hstep with hsame | ⟨-, -, hcons⟩
    · rw [hsame]
      exact hle
    · rw [hcons, List.length_cons]
      omega

/-- While a chain has fewer than 32 blocks the counter is at most the head, but for the calls in
flight. -/
theorem BucketRuns.counted [Fintype T] (h : BucketRuns build n state event) (bucket : Fin bucketCount)
    (hlen : (state bucket (n bucket)).inner.blocks.length ≤ 31) :
    ∀ k ≤ n bucket, (state bucket k).Counted := by
  intro k
  induction k with
  | zero =>
    intro _
    rw [show state bucket 0 = .init from (h bucket).init]
    exact .init
  | succ k ih =>
    intro hk
    have hmono := h.blocks_mono bucket hk (Nat.le_refl _)
    have hd := (h.good bucket (k + 1) hk).inv.chain.1
    refine (ih (by omega)).move (h.good bucket k (by omega)) ((h bucket).step k (by omega)).1
      (Bucket.Move.of_step ((h bucket).step k (by omega)).2.2) ?_
    exact Bucket.headSize_lt hd (by omega)

end Runs

/-- With no insert in flight the capacity of a store is exact, exactly if no bucket has 32 blocks and
all blocks together have fewer than `2 ^ 32` slots. -/
theorem capacity_exact (build : Build) (T : Type) [DecidableEq T] [Fintype T]
    (n : Fin bucketCount → ℕ) (state : Fin bucketCount → ℕ → Bucket.State T)
    (event : Fin bucketCount → ℕ → Bucket.Event T) (hruns : BucketRuns build n state event)
    (hidle : ∀ bucket t, ((state bucket (n bucket)).control t).inserting = false) :
    ExactCapacity build (fun address =>
      Bucket.Taken (state address.bucket) (n address.bucket) address.location)
      (fun bucket => (state bucket (n bucket)).inner) ↔
        (∀ bucket, (state bucket (n bucket)).inner.blocks.length < 32) ∧
          ∑ bucket, (state bucket (n bucket)).inner.allocated < 2 ^ 32 := by
  constructor
  · intro hexact
    obtain ⟨touched, allocated, -, -, hsum⟩ := hexact.sums
    refine ⟨fun bucket => ?_, ?_⟩
    · obtain ⟨total, htotal, heq⟩ := hexact.total bucket
      have hd := hruns.doubling bucket
      generalize (state bucket (n bucket)).inner = inner at htotal heq hd
      exact Bucket.length_lt_of_total hd htotal heq
    · rw [← hsum]
      exact allocated.toNat_lt
  · rintro ⟨hshort, hsum⟩
    have hlen : ∀ bucket, (state bucket (n bucket)).inner.blocks.length ≤ 31 := fun bucket =>
      Nat.le_of_lt_succ (hshort bucket)
    have hle : ∀ bucket, (state bucket (n bucket)).inner.nextUnusedSlot.toNat ≤
        (state bucket (n bucket)).inner.headSize.toNat := fun bucket =>
      (hruns.counted bucket (hlen bucket) _ (Nat.le_refl _)).le_head (hidle bucket)
    obtain ⟨htouched, htotals⟩ := capacity_eq build hruns.doubling hlen hle hsum
    refine ⟨fun bucket => ⟨_, Bucket.headSizeToTotalSize_eq build (hruns.doubling bucket) (hlen bucket), ?_⟩,
      _, _, htotals, ?_, ?_⟩
    · have := Bucket.allocated_lt (hruns.doubling bucket) (hlen bucket)
      exact Bucket.toNat_ofNat_of_lt (by unfold Bucket.Inner.allocated at this; omega)
    · rw [hruns.ncard_taken]
      exact Bucket.toNat_ofNat_of_lt (by omega)
    · exact Bucket.toNat_ofNat_of_lt hsum

/-- A store with three blocks, of whose seven slots six have been handed out. -/
theorem capacity_exact_three_blocks :
    ∃ (n : Fin bucketCount → ℕ) (state : Fin bucketCount → ℕ → Bucket.State (Fin 1))
      (event : Fin bucketCount → ℕ → Bucket.Event (Fin 1)),
      BucketRuns .release n state event ∧ ∑ bucket, (state bucket (n bucket)).inner.allocated = 7 ∧
      (state 0 (n 0)).inner.touched.length = 6 ∧
      ExactCapacity .release (fun address =>
        Bucket.Taken (state address.bucket) (n address.bucket) address.location)
        fun bucket => (state bucket (n bucket)).inner := by
  obtain ⟨n, state, event, hruns, hidle, hinner⟩ :=
    BucketRuns.of_reachable (Bucket.reach_three_blocks .release)
  have hsum : ∑ bucket, (state bucket (n bucket)).inner.allocated = 7 := by
    rw [BucketRuns.sum_allocated hinner]
    rfl
  refine ⟨n, state, event, hruns, hsum, by rw [hinner 0]; rfl, (capacity_exact .release (Fin 1) n state event
    hruns fun bucket t => by rw [hidle bucket t]; rfl).2 ⟨fun bucket => ?_, by rw [hsum]; decide⟩⟩
  rw [hinner bucket]
  by_cases hb : bucket = 0
  · rw [if_pos hb]
    decide
  · rw [if_neg hb]
    decide

/-- With a block of `2 ^ 31` slots the capacity is not computed, although it is a `u32`. -/
theorem capacity_fails (build : Build) :
    ∃ (n : Fin bucketCount → ℕ) (state : Fin bucketCount → ℕ → Bucket.State (Fin 1))
      (event : Fin bucketCount → ℕ → Bucket.Event (Fin 1)),
      BucketRuns build n state event ∧ (∀ bucket t, (state bucket (n bucket)).control t = .idle) ∧
      (state 0 (n 0)).inner.headSize = Bucket.maxBlockSize ∧
      ∑ bucket, (state bucket (n bucket)).inner.allocated < 2 ^ 32 ∧
      ¬ExactCapacity build (fun address =>
        Bucket.Taken (state address.bucket) (n address.bucket) address.location)
        fun bucket => (state bucket (n bucket)).inner := by
  obtain ⟨inner, hr, hd, hlen, -⟩ := Bucket.exists_chain build (le_refl 31)
  obtain ⟨n, state, event, hruns, hidle, hinner⟩ := BucketRuns.of_reachable hr
  have hmax : inner.headSize = Bucket.maxBlockSize := (Bucket.headSize_eq_max hd (by omega)).2 hlen
  refine ⟨n, state, event, hruns, hidle, ?_, ?_, fun hexact => ?_⟩
  · rw [hinner 0, if_pos rfl]
    exact hmax
  · have hsum := Bucket.sum_doubling hd (by omega)
    rw [hlen] at hsum
    rw [BucketRuns.sum_allocated hinner]
    show (inner.blocks.map UInt32.toNat).sum < 2 ^ 32
    omega
  · obtain ⟨total, htotal, -⟩ := hexact.total 0
    obtain ⟨fault, hfault⟩ := Bucket.headSizeToTotalSize_max build
    rw [hinner 0, if_pos rfl, hmax, hfault] at htotal
    cases htotal

theorem capacity_largest_block :
    ∃ (n : Fin bucketCount → ℕ) (state : Fin bucketCount → ℕ → Bucket.State (Fin 1))
      (event : Fin bucketCount → ℕ → Bucket.Event (Fin 1)),
      BucketRuns .release n state event ∧ (∀ bucket t, (state bucket (n bucket)).control t = .idle) ∧
      (state 0 (n 0)).inner.headSize = Bucket.maxBlockSize ∧
      ∑ bucket, (state bucket (n bucket)).inner.allocated < 2 ^ 32 ∧
      ¬ExactCapacity .release (fun address =>
        Bucket.Taken (state address.bucket) (n address.bucket) address.location)
        fun bucket => (state bucket (n bucket)).inner :=
  capacity_fails .release

end ReadWriteStore.Store

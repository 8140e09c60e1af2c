import ReadWriteStore.Bucket.Proofs.AllocProofs
import ReadWriteStore.Store.Proofs.WalkProofs

/-!
# The size hint counts the slots not yet visited

The hint of a bucket iterator is computed as if its current block were the head of a chain. Since the
lengths of the blocks halve, that is the number of slots the iterator has still to visit; only the
largest block of all is too long for `head_size_to_total_size`.
-/

namespace ReadWriteStore.Store

open Transition (walk walks walkAll)

variable {σ α : Type} {build : Build} {tracker : Tracker σ α}

/-! ## The slots of a walk -/

theorem visited_chainActions (bucket : Fin bucketCount) (chain : List UInt32) (last : UInt32) :
    (chainActions bucket chain last).filterMap Action.visited =
      (Bucket.touchedFrom chain last).map fun location => ⟨bucket, location⟩ := by
  induction chain generalizing last with
  | nil => rfl
  | cons len older ih =>
    have hactions : chainActions bucket (len :: older) last =
        ((List.range last.toNat).map fun slot => Action.visit
          ⟨bucket, older.length, Bucket.physicalSlot len (UInt32.ofNat slot)⟩).reverse ++
            .leave bucket older.length len :: chainActions bucket older (older.headD 0) := rfl
    have htouched : Bucket.touchedFrom (len :: older) last =
        ((List.range last.toNat).map fun slot =>
          (⟨older.length, Bucket.physicalSlot len (UInt32.ofNat slot)⟩ : Bucket.Location)).reverse ++
            Bucket.touchedFrom older (older.headD 0) := rfl
    rw [hactions, htouched, List.filterMap_append, List.map_append]
    congr 1
    · rw [List.map_reverse, List.filterMap_reverse, List.map_map, List.filterMap_map,
        ← List.filterMap_eq_map]
      rfl
    · exact ih (older.headD 0)

/-- The slots that an iterator has still to visit. -/
def GenIter.pending (iter : GenIter) : List SlotAddress := iter.actions.filterMap Action.visited

def BucketIter.pending (iter : BucketIter) : List SlotAddress := iter.actions.filterMap Action.visited

theorem GenIter.pending_cons (current : BucketIter) (rest : GenIter) :
    GenIter.pending (current :: rest) = current.pending ++ GenIter.pending rest := by
  unfold GenIter.pending BucketIter.pending GenIter.actions
  rw [List.flatMap_cons, List.filterMap_append]

theorem BucketIter.length_pending {len last : UInt32} {older : List UInt32} (bucket : Fin bucketCount) :
    (BucketIter.pending ⟨bucket, last, len :: older⟩).length =
      last.toNat + (older.map UInt32.toNat).sum := by
  unfold BucketIter.pending BucketIter.actions
  rw [visited_chainActions, List.length_map, Bucket.length_touchedFrom]

/-! ## The hint of one bucket -/

/-- With an empty head, or without one, the hint is 0. -/
theorem BucketIter.sizeHint_zero {iter : BucketIter} (hhead : iter.chain.headD 0 = 0)
    (hlast : iter.lastSlot = 0) : iter.sizeHint build = .ok (0, some 0) := by
  unfold BucketIter.sizeHint
  rw [hhead, hlast]
  show (Bucket.headSizeToTotalSize build 0 >>= _) = _
  rw [Bucket.headSizeToTotalSize_zero]
  show (subU32 build 0 0 >>= _) = _
  rw [subU32_ok build (le_refl _)]
  show (subU32 build 0 0 >>= _) = _
  rw [subU32_ok build (le_refl _)]
  rfl

/-- The hint is exact unless the largest block is in the way. -/
theorem BucketIter.sizeHint_cases (build : Build) {iter : BucketIter} (h : iter.Valid) :
    (iter.chain.length < 32 ∧ iter.sizeHint build = .ok (0, some iter.pending.length)) ∨
      (32 ≤ iter.chain.length ∧ (∃ fault, iter.sizeHint build = .error fault)) ∨
      (32 ≤ iter.chain.length ∧ ∃ upper, iter.sizeHint build = .ok (0, some upper) ∧
        upper < iter.pending.length) := by
  obtain ⟨bucket, last, chain⟩ := iter
  obtain ⟨hd, hle⟩ := h
  cases chain with
  | nil =>
    have hlast : last = 0 := UInt32.toNat_inj.1 (Nat.le_zero.1 (UInt32.le_iff_toNat_le.1 hle))
    subst hlast
    exact Or.inl ⟨Nat.zero_lt_succ 31, BucketIter.sizeHint_zero rfl rfl⟩
  | cons len older =>
    replace hd : Bucket.Doubling (len :: older) := hd
    replace hle : last ≤ len := hle
    have hle' : last.toNat ≤ len.toNat := UInt32.le_iff_toNat_le.1 hle
    rw [BucketIter.length_pending]
    show (older.length + 1 < 32 ∧ _) ∨ (32 ≤ older.length + 1 ∧ _) ∨ (32 ≤ older.length + 1 ∧ _)
    rcases Nat.lt_trichotomy older.length 31 with hlt | heq | hgt
    · left
      refine ⟨by omega, ?_⟩
      have hsum := Bucket.sum_doubling hd (by simp only [List.length_cons]; omega)
      have hpow : 2 ^ (len :: older).length ≤ 2 ^ 31 :=
        Nat.pow_le_pow_right (by omega) (by simp only [List.length_cons]; omega)
      rw [List.map_cons, List.sum_cons] at hsum
      have htotal : (UInt32.ofNat ((len :: older).map UInt32.toNat).sum).toNat =
          len.toNat + (older.map UInt32.toNat).sum := by
        rw [List.map_cons, List.sum_cons, UInt32.toNat_ofNat']
        exact Nat.mod_eq_of_lt (by omega)
      have hunused : (len - last).toNat = len.toNat - last.toNat := UInt32.toNat_sub_of_le _ _ hle
      have htouched : (UInt32.ofNat ((len :: older).map UInt32.toNat).sum - (len - last)).toNat =
          last.toNat + (older.map UInt32.toNat).sum := by
        rw [UInt32.toNat_sub_of_le _ _ (UInt32.le_iff_toNat_le.2 (by omega))]
        omega
      have hcalc : Bucket.headSizeToTotalSize build len =
          .ok (UInt32.ofNat ((len :: older).map UInt32.toNat).sum) :=
        Bucket.headSizeToTotalSize_eq build hd (by simp only [List.length_cons]; omega)
      unfold BucketIter.sizeHint
      show (Bucket.headSizeToTotalSize build len >>= _) = _
      rw [hcalc]
      show (subU32 build len last >>= _) = _
      rw [subU32_ok build hle']
      show (subU32 build _ (len - last) >>= _) = _
      rw [subU32_ok build (by omega), ← htouched]
      rfl
    · right
      left
      refine ⟨by omega, ?_⟩
      have hmax : len = Bucket.maxBlockSize := by
        rw [hd.1, heq]
        rfl
      subst hmax
      obtain ⟨fault, hfault⟩ := Bucket.headSizeToTotalSize_max build
      refine ⟨fault, ?_⟩
      unfold BucketIter.sizeHint
      show (Bucket.headSizeToTotalSize build Bucket.maxBlockSize >>= _) = _
      rw [hfault]
      rfl
    · right
      right
      have hzero : len = 0 := by
        rw [hd.1, ← UInt32.toNat_inj, UInt32.toNat_ofNat']
        exact Nat.mod_eq_zero_of_dvd (Nat.pow_dvd_pow 2 (by omega))
      subst hzero
      have hlast : last = 0 := UInt32.toNat_inj.1 (Nat.le_zero.1 hle')
      have hpos := Bucket.sum_pos hd.2 (by rintro rfl; simp at hgt)
      exact ⟨by omega, 0, BucketIter.sizeHint_zero rfl hlast, by omega⟩

/-! ## The hint of all buckets -/

/-- The loop adds up the slots still to be visited, unless a block is in the way. -/
theorem sizeHintLoop_cases (build : Build) {iters : List BucketIter}
    (h : ∀ current ∈ iters, current.Valid) (upper : ℕ) :
    ((∀ current ∈ iters, current.chain.length < 32) ∧ sizeHintLoop build iters 0 (some upper) =
        .ok (0, some (upper + (iters.map fun current => current.pending.length).sum))) ∨
      (¬(∀ current ∈ iters, current.chain.length < 32) ∧
        ∀ total, sizeHintLoop build iters 0 (some upper) = .ok (0, some total) →
          total < upper + (iters.map fun current => current.pending.length).sum) := by
  induction iters generalizing upper with
  | nil => exact Or.inl ⟨fun _ hmem => absurd hmem List.not_mem_nil, rfl⟩
  | cons current rest ih =>
    have hrest := ih (fun other hmem => h other (List.mem_cons_of_mem _ hmem))
    rw [List.map_cons, List.sum_cons]
    have hloop : ∀ own, current.sizeHint build = .ok (0, some own) →
        sizeHintLoop build (current :: rest) 0 (some upper) =
          sizeHintLoop build rest 0 (some (upper + own)) := by
      intro own hown
      show (current.sizeHint build >>= _) = _
      rw [hown]
      rfl
    have hhead : 32 ≤ current.chain.length →
        ¬∀ other ∈ current :: rest, other.chain.length < 32 := by
      intro hlen hall
      have := hall current List.mem_cons_self
      omega
    rcases BucketIter.sizeHint_cases build (h current List.mem_cons_self) with
      ⟨hshort, hown⟩ | ⟨hlong, fault, hown⟩ | ⟨hlong, own, hown, hlt⟩
    · rw [hloop _ hown]
      rcases hrest (upper + current.pending.length) with ⟨hall, heq⟩ | ⟨hnot, hlt⟩
      · refine Or.inl ⟨?_, by rw [heq, Nat.add_assoc]⟩
        intro other hmem
        rcases List.mem_cons.1 hmem with rfl | hmem
        · exact hshort
        · exact hall other hmem
      · refine Or.inr ⟨fun hall => hnot fun other hmem => hall other (List.mem_cons_of_mem _ hmem), ?_⟩
        intro total htotal
        have := hlt total htotal
        omega
    · refine Or.inr ⟨hhead hlong, fun total htotal => ?_⟩
      have herror : sizeHintLoop build (current :: rest) 0 (some upper) = .error fault := by
        show (current.sizeHint build >>= _) = _
        rw [hown]
        rfl
      rw [herror] at htotal
      cases htotal
    · refine Or.inr ⟨hhead hlong, fun total htotal => ?_⟩
      rw [hloop _ hown] at htotal
      rcases hrest (upper + own) with ⟨hall, heq⟩ | ⟨hnot, hlt'⟩
      · rw [heq] at htotal
        cases htotal
        omega
      · have := hlt' total htotal
        omega

theorem GenIter.length_pending (iter : GenIter) :
    iter.pending.length = (iter.map fun current => current.pending.length).sum := by
  induction iter with
  | nil => rfl
  | cons current rest ih =>
    rw [GenIter.pending_cons, List.length_append, ih]
    rfl

/-- The hint is the number of slots still to be visited, exactly if every chain has fewer than 32
blocks. -/
theorem GenIter.sizeHint_iff {iter : GenIter} (h : iter.Valid) :
    iter.sizeHint build = .ok (0, some iter.pending.length) ↔
      ∀ current ∈ iter, current.chain.length < 32 := by
  have hvalid : ∀ current ∈ iter.reverse, current.Valid := fun current hmem =>
    h current (List.mem_reverse.1 hmem)
  have hsum : (iter.reverse.map fun current => current.pending.length).sum = iter.pending.length := by
    rw [GenIter.length_pending, List.map_reverse, List.sum_reverse]
  unfold GenIter.sizeHint
  rcases sizeHintLoop_cases build hvalid 0 with ⟨hall, heq⟩ | ⟨hnot, hlt⟩
  · rw [heq, hsum, Nat.zero_add]
    exact ⟨fun _ current hmem => hall current (List.mem_reverse.2 hmem), fun _ => rfl⟩
  · constructor
    · intro heq
      have := hlt _ heq
      omega
    · intro hall
      exact absurd (fun current hmem => hall current (List.mem_reverse.1 hmem)) hnot

/-! ## The log -/

theorem act_logged {action : Action} {memory memory' : σ} {log log' : List SlotAddress}
    {item : Option α} (h : tracker.logged.act action (memory, log) = .ok (item, memory', log')) :
    tracker.act action memory = .ok (item, memory') ∧ log' = action.visited.toList ++ log := by
  cases action with
  | visit address =>
    obtain ⟨⟨item', left⟩, hvisit, hpure⟩ := Checked.bind_eq_ok h
    cases hpure
    exact ⟨hvisit, rfl⟩
  | leave bucket block len =>
    obtain ⟨⟨memory₁, log₁⟩, hlogged, hpure⟩ := Checked.bind_eq_ok h
    cases hpure
    obtain ⟨left, hleave, hpure⟩ := Checked.bind_eq_ok hlogged
    cases hpure
    refine ⟨?_, rfl⟩
    have hleave' : tracker.leave bucket block len memory = .ok memory' := hleave
    show (tracker.leave bucket block len memory >>= _) = _
    rw [hleave']
    rfl

theorem pending_cons (action : Action) (rest : List Action) :
    (action :: rest).filterMap Action.visited =
      action.visited.toList ++ rest.filterMap Action.visited := by
  cases action <;> rfl

/-- A walk of the logged tracker is one of the tracker, and the log has the slots it visited. -/
theorem walkAll_logged {actions : List Action} {memory memory' : σ} {log log' : List SlotAddress}
    {items : List α} (h : walkAll tracker.logged.act actions (memory, log) = .ok (items, memory', log')) :
    walkAll tracker.act actions memory = .ok (items, memory') ∧
      log' = (actions.filterMap Action.visited).reverse ++ log := by
  induction actions generalizing memory log items with
  | nil =>
    cases h
    exact ⟨rfl, rfl⟩
  | cons action rest ih =>
    obtain ⟨⟨item, memory₁, log₁⟩, hact, h⟩ := Checked.bind_eq_ok h
    obtain ⟨⟨items₁, memory₂, log₂⟩, hrest, h⟩ := Checked.bind_eq_ok h
    cases h
    obtain ⟨hwalk, rfl⟩ := ih hrest
    obtain ⟨hact', rfl⟩ := act_logged hact
    refine ⟨?_, ?_⟩
    · rw [walkAll, hact']
      show (walkAll tracker.act rest memory₁ >>= _) = _
      rw [hwalk]
      rfl
    · rw [pending_cons, List.reverse_append, List.append_assoc]
      cases action <;> rfl

/-- Only visits give items. -/
theorem length_items_le {actions : List Action} {memory memory' : σ} {items : List α}
    (h : walkAll tracker.act actions memory = .ok (items, memory')) :
    items.length ≤ (actions.filterMap Action.visited).length := by
  induction actions generalizing memory items with
  | nil =>
    cases h
    exact Nat.le_refl _
  | cons action rest ih =>
    obtain ⟨⟨item, memory₁⟩, hact, h⟩ := Checked.bind_eq_ok h
    obtain ⟨⟨items₁, memory₂⟩, hrest, h⟩ := Checked.bind_eq_ok h
    cases h
    have hle := ih hrest
    have hone : item.toList.length ≤ action.visited.toList.length := by
      cases action with
      | visit address => cases item <;> simp [Action.visited]
      | leave bucket block len =>
        obtain ⟨left, -, hpure⟩ := Checked.bind_eq_ok hact
        cases hpure
        exact Nat.le_refl _
    rw [pending_cons, List.length_append, List.length_append]
    omega

/-! ## The start of an iteration -/

section New

variable {inner : Fin bucketCount → Bucket.Inner}

theorem GenIter.valid_new (hd : ∀ bucket, Bucket.Doubling (inner bucket).blocks) :
    (GenIter.new inner).Valid := by
  intro current hmem
  rw [GenIter.new, List.mem_reverse, List.mem_map] at hmem
  obtain ⟨bucket, -, rfl⟩ := hmem
  refine ⟨hd bucket, ?_⟩
  rw [UInt32.le_iff_toNat_le]
  show (min _ (inner bucket).headSize).toNat ≤ (inner bucket).headSize.toNat
  rw [Bucket.toNat_min]
  exact Nat.min_le_right _ _

theorem GenIter.pending_new (inner : Fin bucketCount → Bucket.Inner) :
    (GenIter.new inner).pending = (List.finRange bucketCount).reverse.flatMap fun bucket =>
      (inner bucket).touched.map fun location => ⟨bucket, location⟩ := by
  have hpending : ∀ iter : GenIter, iter.pending = iter.flatMap BucketIter.pending := by
    intro iter
    induction iter with
    | nil => rfl
    | cons current rest ih => rw [GenIter.pending_cons, ih, List.flatMap_cons]
  rw [hpending, GenIter.new, ← List.map_reverse, List.flatMap_map]
  congr 1
  funext bucket
  exact visited_chainActions bucket _ _

theorem GenIter.mem_pending_new (inner : Fin bucketCount → Bucket.Inner) {address : SlotAddress} :
    address ∈ (GenIter.new inner).pending ↔ address.location ∈ (inner address.bucket).touched := by
  rw [GenIter.pending_new, List.mem_flatMap]
  constructor
  · rintro ⟨bucket, -, hmem⟩
    obtain ⟨location, hlocation, rfl⟩ := List.mem_map.1 hmem
    exact hlocation
  · intro hmem
    exact ⟨address.bucket, by simp, List.mem_map.2 ⟨address.location, hmem, rfl⟩⟩

theorem GenIter.nodup_pending_new (hd : ∀ bucket, Bucket.Doubling (inner bucket).blocks) :
    (GenIter.new inner).pending.Nodup := by
  rw [GenIter.pending_new, List.nodup_flatMap]
  constructor
  · intro bucket _
    refine List.Nodup.map ?_ (Bucket.nodup_touched (hd bucket))
    intro location location' he
    exact congrArg SlotAddress.location he
  · refine List.Nodup.pairwise_of_forall_ne (List.nodup_reverse.2 (List.nodup_finRange bucketCount)) ?_
    intro bucket _ bucket' _ hne
    rw [Function.onFun, List.disjoint_left]
    intro address hmem hmem'
    obtain ⟨location, -, rfl⟩ := List.mem_map.1 hmem
    obtain ⟨location', -, he⟩ := List.mem_map.1 hmem'
    exact hne (congrArg SlotAddress.bucket he).symm

end New

/-! ## The hint -/

/-- What is left of an iterator bounds what it still gives. -/
theorem GenIter.hints {iter : GenIter} (h : iter.Valid) (hshort : ∀ current ∈ iter, current.chain.length < 32)
    (memory : σ) : Hints build tracker iter.pending.length iter memory where
  exact := (GenIter.sizeHint_iff h).2 hshort
  later stack steps items iter' memory' htake := by
    obtain ⟨hwalks, hfollow⟩ := GenIter.walks_of_take h htake
    obtain ⟨done, hsplit, hall⟩ := Transition.walks_eq_ok hwalks
    have hpending : iter.pending = done.filterMap Action.visited ++ iter'.pending := by
      unfold GenIter.pending
      rw [hsplit, List.filterMap_append]
    have hitems := length_items_le hall
    have hshort' : ∀ current ∈ iter', current.chain.length < 32 := by
      intro current hmem
      obtain ⟨old, hold, -, -, hsuffix⟩ := hfollow current hmem
      exact Nat.lt_of_le_of_lt hsuffix.length_le (hshort old hold)
    rw [hpending, List.length_append]
    exact ⟨by omega, _, (GenIter.sizeHint_iff hfollow.valid).2 hshort', by omega⟩
  finished stack iter' memory' hnext := by
    have hwalked := GenIter.next_walked build tracker stack h memory
    rw [hnext] at hwalked
    generalize hw : Transition.stackWalkLists _ tracker.act stack iter.chains memory = left at hwalked
    cases hwalked with
    | done hfollow =>
      obtain ⟨done, -, -, hnone⟩ := Transition.walk_eq_ok (Transition.walk_of_stackWalkLists hw)
      have hshort' : ∀ current ∈ iter', current.chain.length < 32 := by
        intro current hmem
        obtain ⟨old, hold, -, -, hsuffix⟩ := hfollow current hmem
        exact Nat.lt_of_le_of_lt hsuffix.length_le (hshort old hold)
      rw [(GenIter.sizeHint_iff hfollow.valid).2 hshort']
      unfold GenIter.pending
      rw [GenIter.actions_eq, hnone rfl]
      rfl

section Runs

variable {T : Type} [DecidableEq T] {n : Fin bucketCount → ℕ} {state : Fin bucketCount → ℕ → Bucket.State T}
  {event : Fin bucketCount → ℕ → Bucket.Event T}

theorem BucketRuns.good (h : BucketRuns build n state event) (bucket : Fin bucketCount) :
    ∀ k ≤ n bucket, (state bucket k).Good build := by
  intro k
  induction k with
  | zero =>
    intro _
    rw [show state bucket 0 = .init from (h bucket).init]
    exact .init
  | succ k ih =>
    intro hk
    exact (ih (by omega)).move ((h bucket).step k (by omega)).1
      (Bucket.Move.of_step ((h bucket).step k (by omega)).2.2)

theorem BucketRuns.handouts (h : BucketRuns build n state event) (bucket : Fin bucketCount) :
    Bucket.Handouts (n bucket) (state bucket) fun k => (event bucket k).thread :=
  Bucket.handouts_of_moves (h bucket).init (h.good bucket) (fun k hk => ((h bucket).step k hk).1)
    fun k hk => Bucket.Move.of_step ((h bucket).step k hk).2.2

theorem BucketRuns.doubling (h : BucketRuns build n state event) (bucket : Fin bucketCount) :
    Bucket.Doubling (state bucket (n bucket)).inner.blocks :=
  (h.good bucket _ (Nat.le_refl _)).inv.chain.1

/-- What an iterator has still to visit is what has been handed out and is not in the log. -/
theorem BucketRuns.unvisited_eq (h : BucketRuns build n state event) {stack steps : ℕ} {memory memory' : σ}
    {items : List α} {iter : GenIter} {log : List SlotAddress}
    (htake : (GenIter.new fun bucket => (state bucket (n bucket)).inner).take build tracker.logged stack steps
      (memory, []) = .ok (items, iter, memory', log)) :
    iter.Valid ∧ unvisited (fun address =>
      Bucket.Taken (state address.bucket) (n address.bucket) address.location) log = iter.pending.length := by
  obtain ⟨hwalks, hfollow⟩ := GenIter.walks_of_take (GenIter.valid_new h.doubling) htake
  obtain ⟨done, hsplit, hall⟩ := Transition.walks_eq_ok hwalks
  obtain ⟨-, rfl⟩ := walkAll_logged hall
  have hpending : (GenIter.new fun bucket => (state bucket (n bucket)).inner).pending =
      done.filterMap Action.visited ++ iter.pending := by
    unfold GenIter.pending
    rw [hsplit, List.filterMap_append]
  have hnodup := GenIter.nodup_pending_new h.doubling
  rw [hpending] at hnodup
  have hdisjoint := List.disjoint_of_nodup_append hnodup
  have hset : {address : SlotAddress | Bucket.Taken (state address.bucket) (n address.bucket)
      address.location ∧ address ∉ (done.filterMap Action.visited).reverse ++ []} =
        (iter.pending.toFinset : Set SlotAddress) := by
    ext address
    rw [Set.mem_ofPred_eq, (h.handouts address.bucket).taken_iff (Nat.le_refl _),
      ← Bucket.mem_touched (h.doubling address.bucket), ← GenIter.mem_pending_new
        fun bucket => (state bucket (n bucket)).inner, hpending]
    simp only [List.append_nil, List.mem_reverse, List.mem_append, List.coe_toFinset, Set.mem_ofPred_eq]
    constructor
    · rintro ⟨hdone | hleft, hnot⟩
      · exact absurd hdone hnot
      · exact hleft
    · intro hleft
      exact ⟨Or.inr hleft, fun hdone => hdisjoint hdone hleft⟩
  refine ⟨hfollow.valid, ?_⟩
  unfold unvisited
  rw [hset, Set.ncard_coe_finset, List.toFinset_card_of_nodup (List.Nodup.of_append_right hnodup)]

end Runs

/-- After any number of calls of `next` on an iterator over buckets whose counters have not wrapped
around, the size hint is the number of slots that have been handed out and not visited, and bounds what
is left from then on, exactly if no chain still to be walked along has 32 blocks. -/
theorem size_hint (build : Build) (T σ α : Type) [DecidableEq T] (tracker : Tracker σ α)
    (n : Fin bucketCount → ℕ) (state : Fin bucketCount → ℕ → Bucket.State T)
    (event : Fin bucketCount → ℕ → Bucket.Event T) (hruns : BucketRuns build n state event)
    (stack steps : ℕ) (memory memory' : σ) (items : List α) (iter : GenIter) (log : List SlotAddress)
    (htake : (GenIter.new fun bucket => (state bucket (n bucket)).inner).take build tracker.logged stack steps
      (memory, []) = .ok (items, iter, memory', log)) :
    Hints build tracker (unvisited (fun address =>
      Bucket.Taken (state address.bucket) (n address.bucket) address.location) log) iter memory' ↔
        ∀ current ∈ iter, current.chain.length < 32 := by
  obtain ⟨hvalid, hcount⟩ := hruns.unvisited_eq htake
  rw [hcount]
  constructor
  · intro hhints
    exact (GenIter.sizeHint_iff hvalid).1 hhints.exact
  · intro hshort
    exact GenIter.hints hvalid hshort memory'

/-- One bucket has a run of its own, and the others are new. -/
theorem BucketRuns.of_reachable {inner : Bucket.Inner}
    (h : (Bucket.boundedMachine build (Fin 1)).Reachable (Bucket.calm inner)) :
    ∃ n state event, BucketRuns (T := Fin 1) build n state event ∧
      (∀ bucket t, (state bucket (n bucket)).control t = .idle) ∧
        ∀ bucket, (state bucket (n bucket)).inner = if bucket = 0 then inner else .new := by
  have : Nonempty (Bucket.Event (Fin 1)) := ⟨.act 0⟩
  obtain ⟨n, state, event, hrun, hlast⟩ := h.exists_run
  refine ⟨fun bucket => if bucket = 0 then n else 0,
    fun bucket => if bucket = 0 then state else fun _ => .init, fun _ => event, ?_, ?_, ?_⟩
  · intro bucket
    by_cases hb : bucket = 0
    · simpa only [if_pos hb] using hrun
    · simp only [if_neg hb]
      exact ⟨rfl, fun k hk => absurd hk (Nat.not_lt_zero k)⟩
  · intro bucket t
    by_cases hb : bucket = 0
    · simp only [if_pos hb, hlast]
      rfl
    · simp only [if_neg hb]
      rfl
  · intro bucket
    by_cases hb : bucket = 0
    · simp only [if_pos hb, hlast]
      rfl
    · simp only [if_neg hb]
      rfl

/-- All blocks are in that bucket. -/
theorem BucketRuns.sum_allocated {n : Fin bucketCount → ℕ}
    {state : Fin bucketCount → ℕ → Bucket.State (Fin 1)} {inner : Bucket.Inner}
    (hinner : ∀ bucket, (state bucket (n bucket)).inner = if bucket = 0 then inner else .new) :
    ∑ bucket, (state bucket (n bucket)).inner.allocated = inner.allocated := by
  have hallocated : ∀ bucket, (state bucket (n bucket)).inner.allocated =
      if bucket = 0 then inner.allocated else 0 := by
    intro bucket
    rw [hinner bucket]
    split
    · rfl
    · rfl
  rw [Finset.sum_congr rfl fun bucket _ => hallocated bucket, Finset.sum_ite_eq' Finset.univ 0,
    if_pos (Finset.mem_univ 0)]

/-- The chain that bucket 0 starts an iteration with. -/
theorem GenIter.exists_mem_new (inner : Fin bucketCount → Bucket.Inner) :
    ∃ current ∈ GenIter.new inner, current.chain = (inner 0).blocks :=
  ⟨BucketIter.new 0 (inner 0), List.mem_reverse.2 (List.mem_map.2 ⟨0, List.mem_finRange 0, rfl⟩), rfl⟩

/-- Slots whose elements are still there, but for those in the third block, which have been emptied. -/
def emptiedHead (address : SlotAddress) : Slot (Fin 1) ℕ :=
  if address.location.block = 2 then ⟨{ Header.State.init with word := Header.unoccupiedBits 1 }, some 5⟩
  else ⟨{ Header.State.init with word := Header.occupiedUnlockedBits 0 }, some 5⟩

/-- The size hint after a call of `next` that has passed three emptied slots and found an element behind
them. -/
theorem size_hint_after_next :
    ∃ (n : Fin bucketCount → ℕ) (state : Fin bucketCount → ℕ → Bucket.State (Fin 1))
      (event : Fin bucketCount → ℕ → Bucket.Event (Fin 1)) (items : List (Id × ℕ)) (iter : GenIter)
      (memory : SlotAddress → Slot (Fin 1) ℕ) (log : List SlotAddress),
      BucketRuns .debug n state event ∧ (state 0 (n 0)).inner.touched.length = 6 ∧
      (GenIter.new fun bucket => (state bucket (n bucket)).inner).take .debug (mutTracker .debug 7).logged 30 1
        (emptiedHead, []) = .ok (items, iter, memory, log) ∧ items.length = 1 ∧ log.length = 4 ∧
      Hints .debug (mutTracker .debug 7 : Tracker (SlotAddress → Slot (Fin 1) ℕ) (Id × ℕ))
        (unvisited (fun address =>
          Bucket.Taken (state address.bucket) (n address.bucket) address.location) log) iter memory := by
  obtain ⟨n, state, event, hruns, -, hinner⟩ := BucketRuns.of_reachable (Bucket.reach_three_blocks .debug)
  have hall : ((GenIter.new fun bucket => if bucket = 0 then ⟨[4, 2, 1], 3⟩ else .new).take .debug
      (mutTracker .debug 7).logged 30 1 (emptiedHead, [])).toOption.any (fun result =>
        decide (result.1.length = 1 ∧ result.2.2.2.length = 4 ∧
          ∀ current ∈ result.2.1, current.chain.length < 32)) = true := by decide +kernel
  rw [← funext hinner] at hall
  cases htake : (GenIter.new fun bucket => (state bucket (n bucket)).inner).take .debug
      (mutTracker .debug 7 : Tracker (SlotAddress → Slot (Fin 1) ℕ) (Id × ℕ)).logged 30 1 (emptiedHead, []) with
  | error fault =>
    rw [htake] at hall
    cases hall
  | ok result =>
    obtain ⟨items, iter, memory, log⟩ := result
    rw [htake] at hall
    obtain ⟨hitems, hlog, hshort⟩ := of_decide_eq_true hall
    refine ⟨n, state, event, items, iter, memory, log, hruns, ?_, htake, hitems, hlog,
      (size_hint .debug (Fin 1) (SlotAddress → Slot (Fin 1) ℕ) (Id × ℕ) (mutTracker .debug 7) n state event
        hruns 30 1 emptiedHead memory items iter log htake).2 hshort⟩
    rw [hinner 0]
    rfl

/-- With a block of `2 ^ 31` slots the size hint panics or hangs, although the number of slots is a
`u32`. -/
theorem size_hint_fails (build : Build) :
    ∃ (n : Fin bucketCount → ℕ) (state : Fin bucketCount → ℕ → Bucket.State (Fin 1))
      (event : Fin bucketCount → ℕ → Bucket.Event (Fin 1)),
      BucketRuns build n state event ∧ (∀ bucket t, (state bucket (n bucket)).control t = .idle) ∧
      ∑ bucket, (state bucket (n bucket)).inner.allocated < 2 ^ 32 ∧
      ¬Hints build (mutTracker build 7 : Tracker (SlotAddress → Slot (Fin 1) ℕ) (Id × ℕ))
        (unvisited (fun address =>
          Bucket.Taken (state address.bucket) (n address.bucket) address.location) [])
        (GenIter.new fun bucket => (state bucket (n bucket)).inner) fun _ => .new := by
  obtain ⟨inner, hr, hd, hlen, -⟩ := Bucket.exists_chain build (le_refl 31)
  obtain ⟨n, state, event, hruns, hidle, hinner⟩ := BucketRuns.of_reachable hr
  refine ⟨n, state, event, hruns, hidle, ?_, fun hhints => ?_⟩
  · have hsum := Bucket.sum_doubling hd (by omega)
    rw [hlen] at hsum
    rw [BucketRuns.sum_allocated hinner]
    show (inner.blocks.map UInt32.toNat).sum < 2 ^ 32
    omega
  · have htake : (GenIter.new fun bucket => (state bucket (n bucket)).inner).take build
        (mutTracker build 7 : Tracker (SlotAddress → Slot (Fin 1) ℕ) (Id × ℕ)).logged 0 0
        (fun _ => .new, []) = .ok ([], _, fun _ => .new, []) := rfl
    obtain ⟨hvalid, hcount⟩ := hruns.unvisited_eq htake
    rw [hcount] at hhints
    obtain ⟨current, hmem, hchain⟩ :=
      GenIter.exists_mem_new fun bucket => (state bucket (n bucket)).inner
    have hshort := (GenIter.sizeHint_iff hvalid).1 hhints.exact current hmem
    rw [hchain, hinner 0, if_pos rfl, hlen] at hshort
    exact absurd hshort (Nat.lt_irrefl 32)

theorem size_hint_largest_block :
    ∃ (n : Fin bucketCount → ℕ) (state : Fin bucketCount → ℕ → Bucket.State (Fin 1))
      (event : Fin bucketCount → ℕ → Bucket.Event (Fin 1)),
      BucketRuns .release n state event ∧ (∀ bucket t, (state bucket (n bucket)).control t = .idle) ∧
      ∑ bucket, (state bucket (n bucket)).inner.allocated < 2 ^ 32 ∧
      ¬Hints .release (mutTracker .release 7 : Tracker (SlotAddress → Slot (Fin 1) ℕ) (Id × ℕ))
        (unvisited (fun address =>
          Bucket.Taken (state address.bucket) (n address.bucket) address.location) [])
        (GenIter.new fun bucket => (state bucket (n bucket)).inner) fun _ => .new :=
  size_hint_fails .release

end ReadWriteStore.Store

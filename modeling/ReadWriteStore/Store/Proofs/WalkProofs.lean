import ReadWriteStore.Bucket.Proofs.CapacityProofs
import ReadWriteStore.Store.Walk

/-!
# The iterators walk along what is left

`next` of an iterator is one search along its actions, by calls that nest as those of `stackWalk` do, and
leaves the iterator at what is left of them.
-/

namespace ReadWriteStore.Store

open Transition (walks stackWalk stackWalkLists stackWalks stackWalk_cons_some stackWalk_cons_none
  stackWalk_cons_error)

variable {σ α : Type} {build : Build} {tracker : Tracker σ α} {memory : σ} {stack : ℕ}

/-! ## One bucket -/

theorem chainActions_zero (bucket : Fin bucketCount) (len : UInt32) (older : List UInt32) :
    chainActions bucket (len :: older) 0 =
      .leave bucket older.length len :: chainActions bucket older (older.headD 0) := rfl

/-- The last slot first. -/
theorem chainActions_pos (bucket : Fin bucketCount) (len last : UInt32) (older : List UInt32)
    (h : last ≠ 0) :
    chainActions bucket (len :: older) last =
      .visit ⟨bucket, older.length, Bucket.physicalSlot len (last - 1)⟩ ::
        chainActions bucket (len :: older) (last - 1) := by
  have hpos : last.toNat ≠ 0 := fun he => h (UInt32.toNat_inj.1 he)
  have hone : (1 : UInt32).toNat = 1 := rfl
  have hpred : (last - 1).toNat = last.toNat - 1 := by
    rw [UInt32.toNat_sub_of_le _ _ (UInt32.le_iff_toNat_le.2 (by omega)), hone]
  obtain ⟨n, hn⟩ : ∃ n, last.toNat = n + 1 := ⟨last.toNat - 1, by omega⟩
  have hlast : last - 1 = UInt32.ofNat n := by
    rw [← UInt32.toNat_inj, hpred, UInt32.toNat_ofNat']
    have := last.toNat_lt
    omega
  unfold chainActions
  rw [hpred, hn, List.range_succ, List.map_append, List.reverse_append, hlast]
  rfl

/-- An iterator has done what a search along its actions does, and is at what is left of them. -/
inductive Walked {β ι A : Type} (actions : ι → A) (valid : ι → Prop) :
    Checked (β × ι × σ) → Checked (β × A × σ) → Prop
  | fault (fault : Fault) : Walked actions valid (.error fault) (.error fault)
  | done {item : β} {iter : ι} {memory : σ} (hvalid : valid iter) :
      Walked actions valid (.ok (item, iter, memory)) (.ok (item, actions iter, memory))

theorem Walked.mono {β ι A : Type} {actions : ι → A} {valid valid' : ι → Prop}
    {result : Checked (β × ι × σ)} {left : Checked (β × A × σ)}
    (h : Walked actions valid result left) (hvalid : ∀ iter, valid iter → valid' iter) :
    Walked actions valid' result left := by
  cases h with
  | fault fault => exact .fault fault
  | done hv => exact .done (hvalid _ hv)

theorem BucketIter.next_nil {iter : BucketIter} (hlast : iter.lastSlot = 0) (hchain : iter.chain = []) :
    iter.next build tracker (stack + 1) memory = .ok (none, iter, memory) := by
  rw [BucketIter.next, if_pos hlast, hchain]
  rfl

theorem BucketIter.next_leave {iter : BucketIter} {len : UInt32} {older : List UInt32}
    (hlast : iter.lastSlot = 0) (hchain : iter.chain = len :: older) :
    iter.next build tracker (stack + 1) memory = (do
      let memory ← tracker.leave iter.bucket older.length len memory
      BucketIter.next build tracker stack { iter with lastSlot := older.headD 0, chain := older } memory) := by
  rw [BucketIter.next, if_pos hlast, hchain]

theorem BucketIter.next_visit {iter : BucketIter} {len : UInt32} {older : List UInt32}
    (hlast : iter.lastSlot ≠ 0) (hchain : iter.chain = len :: older) :
    iter.next build tracker (stack + 1) memory = (do
      let lastSlot := iter.lastSlot - 1
      let location ← Bucket.slotAddress build older.length len lastSlot
      let (contents, memory) ← tracker.visit ⟨iter.bucket, location⟩ memory
      match contents with
      | some result => return (some result, { iter with lastSlot := lastSlot }, memory)
      | none => BucketIter.next build tracker stack { iter with lastSlot := lastSlot } memory) := by
  rewrite [BucketIter.next, if_neg hlast, hchain]
  rfl

/-- A valid iterator of a bucket, and what stays the same of it. -/
def BucketIter.Follows (iter iter' : BucketIter) : Prop :=
  iter'.Valid ∧ iter'.bucket = iter.bucket ∧ iter'.chain <:+ iter.chain

theorem BucketIter.Follows.older {bucket : Fin bucketCount} {last last' len : UInt32} {older : List UInt32}
    {iter' : BucketIter} (h : BucketIter.Follows ⟨bucket, last', older⟩ iter') :
    BucketIter.Follows ⟨bucket, last, len :: older⟩ iter' :=
  ⟨h.1, h.2.1, h.2.2.trans (List.suffix_cons len older)⟩

/-- `next` of the iterator of a bucket. -/
theorem BucketIter.next_walked (build : Build) (tracker : Tracker σ α) (stack : ℕ) {iter : BucketIter}
    (h : iter.Valid) (memory : σ) :
    Walked BucketIter.actions iter.Follows (iter.next build tracker stack memory)
      (stackWalk .stackOverflow tracker.act stack iter.actions memory) := by
  induction stack generalizing iter memory with
  | zero => exact .fault _
  | succ stack ih =>
    obtain ⟨bucket, last, chain⟩ := iter
    cases chain with
    | nil =>
      have hlast : last = 0 := by
        have := UInt32.le_iff_toNat_le.1 h.le
        exact UInt32.toNat_inj.1 (Nat.le_zero.1 this)
      subst hlast
      rw [BucketIter.next_nil rfl rfl]
      exact .done ⟨h, rfl, List.suffix_refl _⟩
    | cons len older =>
      by_cases hlast : last = 0
      · subst hlast
        have holder : BucketIter.Valid ⟨bucket, older.headD 0, older⟩ := ⟨h.doubling.2, UInt32.le_rfl⟩
        rw [BucketIter.next_leave rfl rfl]
        show Walked _ _ _ (stackWalk _ _ _ (chainActions bucket (len :: older) 0) memory)
        rw [chainActions_zero]
        cases hleave : tracker.leave bucket older.length len memory with
        | error fault =>
          have hact : tracker.act (.leave bucket older.length len) memory = .error fault := by
            simp only [Tracker.act, hleave]
            rfl
          rw [stackWalk_cons_error hact]
          exact .fault fault
        | ok memory' =>
          have hact : tracker.act (.leave bucket older.length len) memory = .ok (none, memory') := by
            simp only [Tracker.act, hleave]
            rfl
          rw [stackWalk_cons_none hact]
          exact (ih holder memory').mono fun iter' hiter => hiter.older
      · have hpos : last.toNat ≠ 0 := fun he => hlast (UInt32.toNat_inj.1 he)
        have hone : (1 : UInt32).toNat = 1 := rfl
        have hpred : (last - 1).toNat = last.toNat - 1 := by
          rw [UInt32.toNat_sub_of_le _ _ (UInt32.le_iff_toNat_le.2 (by omega)), hone]
        have hle : last.toNat ≤ len.toNat := UInt32.le_iff_toNat_le.1 h.le
        have hslot : last - 1 < len := by
          rw [UInt32.lt_iff_toNat_lt]
          omega
        have hprev : BucketIter.Valid ⟨bucket, last - 1, len :: older⟩ := by
          refine ⟨h.doubling, UInt32.le_iff_toNat_le.2 ?_⟩
          show (last - 1).toNat ≤ len.toNat
          omega
        rw [BucketIter.next_visit hlast rfl]
        show Walked _ _ (Bucket.slotAddress build older.length len (last - 1) >>= _)
          (stackWalk _ _ _ (chainActions bucket (len :: older) last) memory)
        rw [Bucket.slotAddress_eq build older.length (h.doubling.head hslot), chainActions_pos _ _ _ _ hlast]
        generalize haddress :
          (⟨bucket, ⟨older.length, Bucket.physicalSlot len (last - 1)⟩⟩ : SlotAddress) = address
        show Walked _ _ (tracker.visit ⟨bucket, ⟨older.length, Bucket.physicalSlot len (last - 1)⟩⟩ memory
          >>= _) _
        rw [haddress]
        cases hvisit : tracker.visit address memory with
        | error fault =>
          have hact : tracker.act (.visit address) memory = .error fault := hvisit
          rw [stackWalk_cons_error hact]
          exact .fault fault
        | ok result =>
          obtain ⟨contents, memory'⟩ := result
          have hact : tracker.act (.visit address) memory = .ok (contents, memory') := hvisit
          cases contents with
          | some item =>
            rw [stackWalk_cons_some hact]
            exact .done ⟨hprev, rfl, List.suffix_refl _⟩
          | none =>
            rw [stackWalk_cons_none hact]
            exact ih hprev memory'

/-! ## Sixteen buckets -/

/-- A valid iterator is left with bucket iterators that follow some of its own. -/
def GenIter.Follows (iter iter' : GenIter) : Prop :=
  ∀ current ∈ iter', ∃ old ∈ iter, old.Follows current

theorem GenIter.Follows.refl {iter : GenIter} (h : iter.Valid) : iter.Follows iter :=
  fun current hmem => ⟨current, hmem, h current hmem, rfl, List.suffix_refl _⟩

theorem GenIter.Follows.valid {iter iter' : GenIter} (h : iter.Follows iter') : iter'.Valid := by
  intro current hmem
  obtain ⟨old, -, hold⟩ := h current hmem
  exact hold.1

theorem GenIter.Follows.trans {iter iter' iter'' : GenIter} (h : iter.Follows iter')
    (h' : iter'.Follows iter'') : iter.Follows iter'' := by
  intro current hmem
  obtain ⟨mid, hmid, hfollow⟩ := h' current hmem
  obtain ⟨old, hold, hfollow'⟩ := h mid hmid
  exact ⟨old, hold, hfollow.1, hfollow.2.1.trans hfollow'.2.1, hfollow.2.2.trans hfollow'.2.2⟩

theorem GenIter.actions_eq (iter : GenIter) : iter.actions = iter.chains.flatten := rfl

theorem GenIter.next_walked (build : Build) (tracker : Tracker σ α) (stack : ℕ) {iter : GenIter}
    (h : iter.Valid) (memory : σ) :
    Walked GenIter.chains iter.Follows (iter.next build tracker stack memory)
      (stackWalkLists .stackOverflow tracker.act stack iter.chains memory) := by
  induction stack generalizing iter memory with
  | zero => exact .fault _
  | succ stack ih =>
    cases iter with
    | nil => exact .done (fun current hmem => absurd hmem List.not_mem_nil)
    | cons current rest =>
      have hcurrent := BucketIter.next_walked build tracker stack (h current List.mem_cons_self) memory
      have hrest : GenIter.Valid rest := fun other hmem => h other (List.mem_cons_of_mem _ hmem)
      show Walked _ _ (current.next build tracker stack memory >>= _)
        (stackWalk .stackOverflow tracker.act stack current.actions memory >>= _)
      generalize current.next build tracker stack memory = result at hcurrent
      generalize stackWalk .stackOverflow tracker.act stack current.actions memory = left at hcurrent
      cases hcurrent with
      | fault fault => exact .fault fault
      | @done item current' memory' hfollow =>
        cases item with
        | some item =>
          refine .done ?_
          intro other hmem
          rcases List.mem_cons.1 hmem with rfl | hmem
          · exact ⟨current, List.mem_cons_self, hfollow⟩
          · exact ⟨other, List.mem_cons_of_mem _ hmem, hrest other hmem, rfl, List.suffix_refl _⟩
        | none =>
          refine (ih hrest memory').mono fun iter' hiter other hmem => ?_
          obtain ⟨old, hold, hother⟩ := hiter other hmem
          exact ⟨old, List.mem_cons_of_mem _ hold, hother⟩

/-- Any number of calls of `next`. -/
theorem GenIter.take_walked (build : Build) (tracker : Tracker σ α) (stack steps : ℕ) {iter : GenIter}
    (h : iter.Valid) (memory : σ) :
    Walked GenIter.chains iter.Follows (iter.take build tracker stack steps memory)
      (stackWalks .stackOverflow tracker.act stack steps iter.chains memory) := by
  induction steps generalizing iter memory with
  | zero => exact .done (.refl h)
  | succ steps ih =>
    have hfirst := GenIter.next_walked build tracker stack h memory
    show Walked _ _ (iter.next build tracker stack memory >>= _)
      (stackWalkLists .stackOverflow tracker.act stack iter.chains memory >>= _)
    generalize iter.next build tracker stack memory = result at hfirst
    generalize stackWalkLists .stackOverflow tracker.act stack iter.chains memory = left at hfirst
    cases hfirst with
    | fault fault => exact .fault fault
    | @done item iter₁ memory₁ hfollow =>
      have hrest := ih hfollow.valid memory₁
      show Walked _ _ (iter₁.take build tracker stack steps memory₁ >>= _)
        (stackWalks .stackOverflow tracker.act stack steps iter₁.chains memory₁ >>= _)
      generalize iter₁.take build tracker stack steps memory₁ = result at hrest
      generalize stackWalks .stackOverflow tracker.act stack steps iter₁.chains memory₁ = left at hrest
      cases hrest with
      | fault fault => exact .fault fault
      | done hfollow' => exact .done (hfollow.trans hfollow')

/-- Calls that go well are searches along the actions. -/
theorem GenIter.walks_of_take {iter iter' : GenIter} (h : iter.Valid) {steps : ℕ} {memory' : σ}
    {items : List α} (htake : iter.take build tracker stack steps memory = .ok (items, iter', memory')) :
    walks tracker.act steps iter.actions memory = .ok (items, iter'.actions, memory') ∧
      iter.Follows iter' := by
  have hwalked := GenIter.take_walked build tracker stack steps h memory
  rw [htake] at hwalked
  generalize hleft : stackWalks _ tracker.act stack steps iter.chains memory = left at hwalked
  cases hwalked with
  | done hfollow => exact ⟨Transition.walks_of_stackWalks hleft, hfollow⟩

/-! ## Iterations whose items are known -/

section Items

variable {P : List Action → σ → Prop} {item : Action → Option α}

/-- If each action gives a known item, calls of `next` give the items there are, or overflow the stack. -/
theorem GenIter.take_of_invariant (build : Build) (tracker : Tracker σ α)
    (hstep : ∀ action rest memory, P (action :: rest) memory →
      ∃ memory', tracker.act action memory = .ok (item action, memory') ∧ P rest memory') (stack steps : ℕ)
    {iter : GenIter} (h : iter.Valid) (hp : P iter.actions memory) :
    iter.take build tracker stack steps memory = .error .stackOverflow ∧
        stack < Transition.callDepths item 1 iter.chains ∨
      ∃ iter' memory', iter.take build tracker stack steps memory =
          .ok ((iter.actions.filterMap item).take steps, iter', memory') ∧ iter.Follows iter' ∧
        iter'.actions.filterMap item = (iter.actions.filterMap item).drop steps ∧ P iter'.actions memory' := by
  have hwalked := GenIter.take_walked build tracker stack steps h memory
  have hp : P iter.chains.flatten memory := hp
  rcases Transition.stackWalks_of_invariant .stackOverflow hstep stack steps hp with
    ⟨hover, hdeep⟩ | ⟨left, memory', hwalks, hleft, hp'⟩
  · rw [hover] at hwalked
    generalize iter.take build tracker stack steps memory = result at hwalked
    cases hwalked
    exact Or.inl ⟨rfl, hdeep⟩
  · rw [hwalks] at hwalked
    generalize iter.take build tracker stack steps memory = result at hwalked
    cases hwalked with
    | done hfollow => exact Or.inr ⟨_, memory', rfl, hfollow, hleft, hp'⟩

/-- On a stack that is not deep enough some number of calls overflows it. -/
theorem GenIter.exists_take_overflow (build : Build) (tracker : Tracker σ α)
    (hstep : ∀ action rest memory, P (action :: rest) memory →
      ∃ memory', tracker.act action memory = .ok (item action, memory') ∧ P rest memory')
    {iter : GenIter} (h : iter.Valid) (hp : P iter.actions memory)
    (hdeep : stack < Transition.callDepths item 1 iter.chains) :
    ∃ steps, iter.take build tracker stack steps memory = .error .stackOverflow := by
  have hp : P iter.chains.flatten memory := hp
  obtain ⟨steps, hover⟩ := Transition.exists_stackWalks_overflow Fault.stackOverflow hstep hp hdeep
  have hwalked := GenIter.take_walked build tracker stack steps h memory
  rw [hover] at hwalked
  generalize hresult : iter.take build tracker stack steps memory = result at hwalked
  cases hwalked
  exact ⟨steps, hresult⟩

end Items

end ReadWriteStore.Store

import ReadWriteStore.Bucket.Calls
import ReadWriteStore.Bucket.Proofs.GrowthProofs

/-!
# What a bucket hands out to one thread

The steps of a thread that has the bucket to itself keep what its call comes to, so the number of its
calls determines the bucket and the slots handed out, and every call hands out one more slot at most.
-/

namespace ReadWriteStore.Bucket

variable {T : Type} [DecidableEq T] {build : Build} {s s' : State T} {t : T}

/-! ## One call -/

/-- A call that has its result keeps it. -/
theorem afterFetch_rest (inner : Inner) (location : Checked (Option Location)) :
    (afterFetch location).rest build inner = some ((Point.unlockRead location).rest build inner) := by
  rcases location with fault | _ | location
  · rfl
  · rfl
  · rfl

theorem afterUnlockWrite_rest (inner : Inner) (location : Checked Location) :
    (afterUnlockWrite location).rest build inner = some (inner, location) := by
  cases location with
  | error fault => rfl
  | ok location => rfl

theorem expand_rest (inner : Inner) :
    (afterExpand (inner.expand build).2).rest build (inner.expand build).1 =
      some (inner.expandLocation build) := by
  unfold Inner.expandLocation
  generalize inner.expand build = result
  obtain ⟨inner', fault | _⟩ := result
  · rfl
  · rfl

/-- A `fetch_add` keeps what the call comes to. -/
theorem fetch_rest {point : Point} (hf : point.Fetches) (inner : Inner) :
    (point.afterFetch (inner.nextInsertLocation build).2).rest build (inner.nextInsertLocation build).1 =
      some (point.rest build inner) := by
  cases point with
  | fetch =>
    show _ = some (inner.insertLocation build)
    unfold Inner.insertLocation
    generalize inner.nextInsertLocation build = result
    obtain ⟨inner', fault | _ | location⟩ := result
    · rfl
    · rfl
    · rfl
  | slowFetch =>
    show _ = some (inner.slowLocation build)
    unfold Inner.slowLocation
    generalize inner.nextInsertLocation build = result
    obtain ⟨inner', fault | _ | location⟩ := result
    · rfl
    · rfl
    · rfl
  | refetch =>
    show _ = some (inner.refetchLocation build)
    unfold Inner.refetchLocation
    generalize inner.nextInsertLocation build = result
    obtain ⟨inner', fault | _ | location⟩ := result
    · rfl
    · rfl
    · rfl
  | _ => exact absurd hf not_false

/-- Every step of a call keeps what it comes to. -/
theorem rest_act {result : Inner × Checked Location} (hstep : step build s (.act t) = some s')
    (hrest : (s.control t).rest build s.inner = some result) :
    (s'.control t).rest build s'.inner = some result := by
  cases Move.of_step hstep with
  | lockRead hc hpoint hfree =>
    rw [hc] at hrest
    rw [State.setControl_self]
    rcases hpoint with ⟨rfl, rfl⟩ | ⟨rfl, rfl⟩
    · exact hrest
    · cases hrest
  | @fetch _ point hc hf =>
    rw [hc] at hrest
    rw [State.setControl_self]
    refine (fetch_rest hf s.inner).trans ?_
    cases point with
    | fetch | slowFetch | refetch => exact hrest
    | _ => exact absurd hf not_false
  | unlockRead hc =>
    rw [hc] at hrest
    rw [State.setControl_self]
    exact (afterFetch_rest s.inner _).trans hrest
  | lockWrite hc hfree hnone =>
    rw [hc] at hrest
    rw [State.setControl_self]
    exact hrest
  | expand hc =>
    rw [hc] at hrest
    rw [State.setControl_self]
    exact (expand_rest s.inner).trans hrest
  | unlockWrite hc =>
    rw [hc] at hrest
    rw [State.setControl_self]
    exact (afterUnlockWrite_rest s.inner _).trans hrest
  | load hc =>
    rw [hc] at hrest
    cases hrest
  | compute hc =>
    rw [hc] at hrest
    cases hrest

/-- A thread that carries a slot is about to return it. -/
theorem rest_of_location {inner : Inner} {control : Control} {location : Location}
    (h : control.location = some location) : control.rest build inner = some (inner, .ok location) := by
  cases control with
  | running point =>
    cases point with
    | unlockRead result =>
      rcases result with fault | _ | other
      · cases h
      · cases h
      · cases h; rfl
    | unlockWrite result =>
      cases result with
      | error fault => cases h
      | ok other => cases h; rfl
    | _ => cases h
  | returned result =>
    cases result with
    | location other => cases h; rfl
    | capacity => cases h
  | _ => cases h

/-! ## Any number of calls -/

namespace Inner

theorem mem_handouts_succ {calls : ℕ} {location : Location} :
    location ∈ handouts build (calls + 1) ↔
      location ∈ handouts build calls ∨
        ((afterCalls build calls).insertLocation build).2 = .ok location := by
  rw [handouts.eq_def build (calls + 1)]
  dsimp only
  generalize ((afterCalls build calls).insertLocation build).2 = result
  cases result with
  | error fault => simp
  | ok other => simp [or_comm, eq_comm]

/-- A call hands out one more slot at most. -/
theorem card_handouts_succ (build : Build) (calls : ℕ) :
    (handouts build calls).toFinset.card ≤ (handouts build (calls + 1)).toFinset.card ∧
      (handouts build (calls + 1)).toFinset.card ≤ (handouts build calls).toFinset.card + 1 := by
  rw [handouts.eq_def build (calls + 1)]
  dsimp only
  split
  · rename_i location _
    rw [List.toFinset_cons]
    exact ⟨Finset.card_le_card (Finset.subset_insert _ _), Finset.card_insert_le _ _⟩
  · exact ⟨Nat.le_refl _, Nat.le_succ _⟩

theorem card_handouts_mono (build : Build) {calls calls' : ℕ} (h : calls ≤ calls') :
    (handouts build calls).toFinset.card ≤ (handouts build calls').toFinset.card := by
  induction calls', h using Nat.le_induction with
  | base => exact Nat.le_refl _
  | succ calls' _ ih => exact ih.trans (card_handouts_succ build calls').1

/-- Numbers of calls that differ by one at most hand out numbers of slots that do. -/
theorem card_handouts_le (build : Build) {calls calls' : ℕ} (h : calls ≤ calls' + 1) :
    (handouts build calls).toFinset.card ≤ (handouts build calls').toFinset.card + 1 :=
  (card_handouts_mono build h).trans (card_handouts_succ build calls').2

end Inner

/-- Thread `t` has the bucket to itself, and has made so many calls; the last one may be in flight. -/
inductive State.Alone (build : Build) (s : State T) (t : T) (taken : Location → Prop) : ℕ → Prop
  | between {calls : ℕ} (hidle : s.control t = .idle) (hinner : s.inner = .afterCalls build calls)
      (htaken : ∀ location, taken location ↔ location ∈ Inner.handouts build calls) :
      Alone build s t taken calls
  | inside {calls : ℕ}
      (hrest : (s.control t).rest build s.inner =
        some ((Inner.afterCalls build calls).insertLocation build))
      (hbefore : ∀ location ∈ Inner.handouts build calls, taken location)
      (hafter : ∀ location, taken location → location ∈ Inner.handouts build (calls + 1)) :
      Alone build s t taken (calls + 1)

namespace State.Alone

variable {taken taken' : Location → Prop} {calls : ℕ}

theorem call (h : s.Alone build t taken calls) (hidle : s.control t = .idle)
    (hstep : step build s (.call t .nextInsertLocation) = some s')
    (htaken : ∀ location, taken' location ↔ taken location ∨ (s'.control t).location = some location) :
    s'.Alone build t taken' (calls + 1) := by
  cases Move.of_step hstep with
  | call hc =>
    have hnew : ∀ location, taken' location ↔ taken location := by
      intro location
      rw [htaken, State.setControl_self]
      exact or_iff_left nofun
    cases h with
    | between _ hinner hhanded =>
      refine .inside ?_ (fun location hmem => ?_) fun location hmem => ?_
      · rw [State.setControl_self, ← hinner]
        rfl
      · exact (hnew location).2 ((hhanded location).2 hmem)
      · exact Inner.mem_handouts_succ.2 (Or.inl ((hhanded location).1 ((hnew location).1 hmem)))
    | inside hrest =>
      rw [hidle] at hrest
      cases hrest

theorem act (h : s.Alone build t taken calls) (hstep : step build s (.act t) = some s')
    (htaken : ∀ location, taken' location ↔ taken location ∨ (s'.control t).location = some location) :
    s'.Alone build t taken' calls := by
  cases h with
  | between hidle =>
    simp only [step, hidle] at hstep
    cases hstep
  | inside hrest hbefore hafter =>
    have hrest' := rest_act hstep hrest
    refine .inside hrest' (fun location hmem => (htaken location).2 (Or.inl (hbefore location hmem)))
      fun location hmem => ?_
    rcases (htaken location).1 hmem with hold | hnew
    · exact hafter location hold
    · rw [rest_of_location hnew] at hrest'
      exact Inner.mem_handouts_succ.2 (Or.inr (congrArg Prod.snd (Option.some.inj hrest')).symm)

theorem ret (h : s.Alone build t taken calls) (hstep : step build s (.ret t) = some s')
    (hcarried : ∀ location, (s.control t).location = some location → taken location)
    (htaken : ∀ location, taken' location ↔ taken location ∨ (s'.control t).location = some location) :
    s'.Alone build t taken' calls := by
  cases Move.of_step hstep with
  | ret hdone =>
    have hnew : ∀ location, taken' location ↔ taken location := by
      intro location
      rw [htaken, State.setControl_self]
      exact or_iff_left nofun
    cases h with
    | between hidle =>
      rcases hdone with ⟨r, hdone⟩ | ⟨fault, hdone⟩
      · cases hidle.symm.trans hdone
      · cases hidle.symm.trans hdone
    | @inside calls hrest hbefore hafter =>
      -- the call has come to its end: its result is the one that the number of calls determines
      have hresult : s.inner = .afterCalls build (calls + 1) ∧
          ∀ location, ((Inner.afterCalls build calls).insertLocation build).2 = .ok location →
            taken location := by
        rcases hdone with ⟨result, hdone⟩ | ⟨fault, hdone⟩
        · cases result with
          | location location =>
            have hlocation : (s.control t).location = some location := by rw [hdone]; rfl
            rw [rest_of_location hlocation] at hrest
            have heq := Option.some.inj hrest
            refine ⟨congrArg Prod.fst heq, fun other hother => ?_⟩
            cases (congrArg Prod.snd heq).trans hother
            exact hcarried _ hlocation
          | capacity touched allocated =>
            rw [hdone] at hrest
            cases hrest
        · rw [hdone] at hrest
          have heq := Option.some.inj hrest
          refine ⟨congrArg Prod.fst heq, fun other hother => ?_⟩
          cases (congrArg Prod.snd heq).trans hother
      refine .between (State.setControl_self _ _) hresult.1 fun location => ?_
      rw [hnew]
      constructor
      · exact hafter location
      · intro hmem
        rcases Inner.mem_handouts_succ.1 hmem with hmem | hmem
        · exact hbefore location hmem
        · exact hresult.2 location hmem

omit [DecidableEq T] in
/-- The slots taken, as a finite set. -/
theorem finite (h : s.Alone build t taken calls) : {location | taken location}.Finite := by
  cases h with
  | between _ _ htaken =>
    exact (Inner.handouts build calls).finite_toSet.subset fun location h => (htaken location).1 h
  | @inside calls _ _ hafter =>
    exact (Inner.handouts build (calls + 1)).finite_toSet.subset fun location h => hafter location h

omit [DecidableEq T] in
theorem ncard_le (h : s.Alone build t taken calls) :
    {location | taken location}.ncard ≤ (Inner.handouts build calls).toFinset.card := by
  rw [← Set.ncard_coe_finset]
  refine Set.ncard_le_ncard (fun location hmem => ?_) (Finset.finite_toSet _)
  rw [Finset.mem_coe, List.mem_toFinset]
  cases h with
  | between _ _ htaken => exact (htaken location).1 hmem
  | inside _ _ hafter => exact hafter location hmem

omit [DecidableEq T] in
/-- The calls that are over have handed out their slots. -/
theorem le_ncard (h : s.Alone build t taken calls) {done : ℕ}
    (hdone : done = calls ∧ s.control t = .idle ∨ done + 1 = calls) :
    (Inner.handouts build done).toFinset.card ≤ {location | taken location}.ncard := by
  rw [← Set.ncard_coe_finset]
  refine Set.ncard_le_ncard (fun location hmem => ?_) h.finite
  rw [Finset.mem_coe, List.mem_toFinset] at hmem
  cases h with
  | between _ _ htaken =>
    refine (htaken location).2 ?_
    rcases hdone with ⟨rfl, -⟩ | rfl
    · exact hmem
    · exact Inner.mem_handouts_succ.2 (Or.inl hmem)
  | inside hrest hbefore _ =>
    rcases hdone with ⟨-, hidle⟩ | heq
    · rw [hidle] at hrest
      cases hrest
    · cases heq
      exact hbefore location hmem

end State.Alone

end ReadWriteStore.Bucket

import ReadWriteStore.Bucket.Proofs.SequentialProofs

/-!
# A growth that fails

The debug build panics where the double of the head is too long, before it has touched the chain. As
long as no other growth fails, and the counter that the failing calls still advance does not wrap
around, the bucket goes on as before.
-/

namespace ReadWriteStore.Bucket

variable {T : Type} [DecidableEq T] {build : Build} {s s' : State T}

/-! ## One step -/

/-- The event of a bucket whose allocator does not fail. -/
def AllocEvent.plain : AllocEvent T → Event T
  | .step e => e
  | .null t => .act t

omit [DecidableEq T] in
theorem AllocEvent.plain_thread (e : AllocEvent T) : e.plain.thread = e.thread := by
  cases e <;> rfl

/-- Where the multiplication overflows the allocator is not called. -/
theorem Inner.expandIn_of_overflow {inner : Inner} (h : inner.headSize = maxBlockSize) (null : Bool) :
    inner.expandIn .debug null = inner.expand .debug := by
  obtain ⟨blocks, n⟩ := inner
  cases blocks with
  | nil => cases h
  | cons len older =>
    have hlen : len = maxBlockSize := h
    subst hlen
    rfl

/-- The debug build does not double the largest block. -/
theorem Inner.expand_of_overflow {inner : Inner} (h : inner.headSize = maxBlockSize) :
    inner.expand .debug = (inner, .error (.overflow "attempt to multiply with overflow")) := by
  obtain ⟨blocks, n⟩ := inner
  cases blocks with
  | nil => cases h
  | cons len older =>
    have hlen : len = maxBlockSize := h
    subst hlen
    rfl

/-- A step that grows cleanly is one of a bucket whose allocator does not fail. -/
theorem step_of_allocStep {e : AllocEvent T} (hs : s.GrowsCleanly build e)
    (h : allocStep build s e = some s') : step build s e.plain = some s' := by
  cases e with
  | step e => exact h
  | null t =>
    obtain ⟨rfl, hhead⟩ := hs
    simp only [allocStep] at h
    split at h
    · rename_i hc
      rw [Inner.expandIn_of_overflow hhead] at h
      show step .debug s (.act t) = some s'
      simp only [step, hc, State.act]
      exact h
    · cases h

theorem not_wraps_of_step {e : AllocEvent T} (hs : s.GrowsCleanly build e)
    (h : allocStep build s e = some s') : ¬s.Wraps e.plain.thread := by
  intro hw
  have hm := Move.of_step (step_of_allocStep hs h)
  have hrunning : ∃ point, s.control e.plain.thread = .running point ∧ point.Fetches := by
    unfold State.Wraps at hw
    split at hw
    · rename_i point hc
      exact ⟨point, hc, hw.1⟩
    · exact absurd hw not_false
  obtain ⟨point, hc, hf⟩ := hrunning
  have hact := hm.eq_act hc
  cases e with
  | null t =>
    simp only [allocStep] at h
    split at h
    · rename_i hexpand
      have hc' : s.control t = .running point := hc
      rw [hexpand] at hc'
      cases hc'
      exact hf
    · cases h
  | step e =>
    have he : e = .act e.thread := hact
    rw [he] at hs
    exact hs.1 hw

/-- A thread that doubles the largest block cleanly does so in the debug build. -/
theorem debug_of_max {e : AllocEvent T} (hs : s.GrowsCleanly build e)
    (hm : Move build s e.plain s') (hc : s.control e.thread = .running .expand)
    (hmax : s.inner.headSize = maxBlockSize) : build = .debug := by
  cases e with
  | null t => exact hs.1
  | step e =>
    have he : e = .act e.thread := hm.eq_act hc
    rw [he] at hs
    cases build with
    | debug => rfl
    | release => exact absurd hc (hs.2 rfl hmax)

theorem headSize_eq_max {inner : Inner} (hd : Doubling inner.blocks) (hlen : inner.blocks.length ≤ 32) :
    inner.headSize = maxBlockSize ↔ inner.blocks.length = 32 := by
  obtain ⟨blocks, n⟩ := inner
  cases blocks with
  | nil =>
    constructor
    · intro h
      cases h
    · intro h
      cases h
  | cons len older =>
    have hshort : older.length < 32 := hlen
    rw [← UInt32.toNat_inj]
    show len.toNat = 2 ^ 31 ↔ older.length + 1 = 32
    rw [head_toNat hd hshort]
    constructor
    · intro h
      have := Nat.pow_right_injective (le_refl 2) h
      omega
    · intro h
      have h31 : older.length = 31 := by omega
      rw [h31]

/-- A step that grows cleanly keeps the chain free of overflow. -/
theorem short_of_allocStep {e : AllocEvent T} (hg : s.Good build) (hlen : s.inner.blocks.length ≤ 32)
    (hs : s.GrowsCleanly build e) (h : allocStep build s e = some s') :
    s'.inner.blocks.length ≤ 32 := by
  have hm := Move.of_step (step_of_allocStep hs h)
  rcases hg.blocks hm with hsame | ⟨hc, -, hcons⟩
  · rw [hsame]
    exact hlen
  · have hgood' := hg.move (not_wraps_of_step hs h) hm
    cases build with
    | debug => exact hgood'.inv.chain.2 rfl
    | release =>
      have hne : s.inner.blocks.length ≠ 32 := by
        intro he
        have hmax := (headSize_eq_max hg.inv.chain.1 hlen).2 he
        rw [e.plain_thread] at hc
        cases debug_of_max hs hm hc hmax
      rw [hcons, List.length_cons]
      omega

/-- A growth that cannot make the new block. -/
theorem clean_failure {e : AllocEvent T} (hg : s.Good build) (hlen : s.inner.blocks.length ≤ 32)
    (hs : s.GrowsCleanly build e) (h : allocStep build s e = some s') {t : T}
    (hc : s.control t = .running .expand) (ht : t = e.thread)
    (hfail : e = .null t ∨ s.inner.headSize = maxBlockSize) :
    s'.inner.blocks = s.inner.blocks ∧
      ∃ fault, fault.isPanic = true ∧ fault.isBreach = false ∧
        s'.control t = .running (.unlockWrite (.error fault)) := by
  subst ht
  have hm := Move.of_step (step_of_allocStep hs h)
  have hmax : build = .debug ∧ s.inner.headSize = maxBlockSize := by
    rcases hfail with he | hmax
    · rw [he] at hs
      exact hs
    · exact ⟨debug_of_max hs hm hc hmax, hmax⟩
  obtain ⟨rfl, hmax⟩ := hmax
  have hlength := (headSize_eq_max hg.inv.chain.1 hlen).1 hmax
  rw [← e.plain_thread] at hc ⊢
  obtain ⟨hinner, hcontrol⟩ := hm.of_expand hc
  have hexp := Inner.expanded hg.inv.chain (hg.inv.running hc)
  rw [hinner, hcontrol]
  generalize s.inner.expand .debug = r at hexp
  cases hexp with
  | grown hchain hnext hblocks hout =>
    have := hchain.2 rfl
    rw [hblocks, List.length_cons] at this
    omega
  | panicked hbuild hlen => exact ⟨rfl, _, rfl, rfl, rfl⟩

/-! ## Runs -/

/-- `head_size_to_total_size` grows with the chain. -/
theorem headSizeToTotalSize_mono {inner inner' : Inner} (hd : Doubling inner.blocks)
    (hd' : Doubling inner'.blocks) (hlen : inner'.blocks.length ≤ 32)
    (hle : inner.blocks.length ≤ inner'.blocks.length) {a b : UInt32}
    (ha : headSizeToTotalSize build inner.headSize = .ok a)
    (hb : headSizeToTotalSize build inner'.headSize = .ok b) : a ≤ b := by
  have hshort : inner'.blocks.length ≤ 31 := by
    by_contra hn
    have hmax := (headSize_eq_max hd' hlen).2 (by omega)
    obtain ⟨fault, herror⟩ := headSizeToTotalSize_max build
    rw [hmax, herror] at hb
    cases hb
  have ha' := headSizeToTotalSize_eq build hd (by omega)
  have hb' := headSizeToTotalSize_eq build hd' hshort
  have hsum := sum_doubling hd (by omega)
  have hsum' := sum_doubling hd' (by omega)
  have hpow : 2 ^ inner.blocks.length ≤ 2 ^ inner'.blocks.length := Nat.pow_le_pow_right (by omega) hle
  have hpow' : 2 ^ inner'.blocks.length ≤ 2 ^ 31 := Nat.pow_le_pow_right (by omega) hshort
  cases ha.symm.trans ha'
  cases hb.symm.trans hb'
  rw [UInt32.le_iff_toNat_le, UInt32.toNat_ofNat', UInt32.toNat_ofNat', Nat.mod_eq_of_lt (by omega),
    Nat.mod_eq_of_lt (by omega)]
  omega

/-- In every run in which no step reaches a defect, a growth that fails is a panic that leaves the
chain, the slots handed out and the capacity alone. -/
theorem growth_fails_cleanly (build : Build) (T : Type) [DecidableEq T] (n : ℕ) (state : ℕ → State T)
    (event : ℕ → AllocEvent T)
    (h : ((allocMachine build T).restrict (State.GrowsCleanly build)).Run n state event) :
    CleanGrowth build n state event := by
  have hclean : ∀ k < n, (state k).GrowsCleanly build (event k) := fun k hk => (h.step k hk).1
  have hstep : ∀ k < n, allocStep build (state k) (event k) = some (state (k + 1)) := fun k hk =>
    (h.step k hk).2.2
  have hmove : ∀ k < n, Move build (state k) (event k).plain (state (k + 1)) := fun k hk =>
    Move.of_step (step_of_allocStep (hclean k hk) (hstep k hk))
  have hwrap : ∀ k < n, ¬(state k).Wraps (event k).plain.thread := fun k hk =>
    not_wraps_of_step (hclean k hk) (hstep k hk)
  have hinit : state 0 = State.init := h.init
  have hall : ∀ k ≤ n, (state k).Good build ∧ (state k).inner.blocks.length ≤ 32 := by
    intro k
    induction k with
    | zero =>
      intro _
      rw [hinit]
      exact ⟨.init, Nat.zero_le _⟩
    | succ k ih =>
      intro hk
      obtain ⟨hg, hlen⟩ := ih (by omega)
      exact ⟨hg.move (hwrap k (by omega)) (hmove k hk),
        short_of_allocStep hg hlen (hclean k hk) (hstep k hk)⟩
  have hhand := handouts_of_moves hinit (fun k hk => (hall k hk).1) hwrap hmove
  have hgrow : ∀ i j, i ≤ j → j ≤ n → (state i).inner.blocks.length ≤ (state j).inner.blocks.length := by
    intro i j hij
    induction j, hij using Nat.le_induction with
    | base => intro _; exact le_refl _
    | succ j hij ih =>
      intro hj
      refine le_trans (ih (by omega)) ?_
      rcases (hall j (by omega)).1.blocks (hmove j hj) with hsame | ⟨-, -, hcons⟩
      · rw [hsame]
      · rw [hcons]
        exact Nat.le_succ _
  constructor
  · intro k hk t hc ht hfail
    exact clean_failure (hall k (by omega)).1 (hall k (by omega)).2 (hclean k hk) (hstep k hk) hc ht hfail
  · rintro k hk len hlen rfl
    have hmem : UInt32.toNat 0 ∈ (state k).inner.blocks.map UInt32.toNat := List.mem_map_of_mem hlen
    rw [lengths_of_doubling (hall k hk).1.inv.chain.1 (hall k hk).2, List.mem_reverse, List.mem_map] at hmem
    obtain ⟨i, -, hi⟩ := hmem
    have := Nat.two_pow_pos i
    have hzero : UInt32.toNat 0 = 0 := rfl
    omega
  · rintro i k location hik hk ⟨j, hj, t, ht⟩
    have htaken : Taken state k location := ⟨j, by omega, t, ht⟩
    rw [hhand.taken_iff hk] at htaken
    exact Inner.mem_locations.2 htaken.1
  · intro i j t u location hij hj ht hu
    obtain ⟨rfl, hcarried⟩ := hhand.carried hij hj (by rw [ht]; rfl) u (by rw [hu]; rfl)
    refine ⟨rfl, fun m him hmj he => ?_⟩
    have hidle := (hmove m (by omega)).ret_control (t := t) (by rw [he]; rfl)
    have hlater := hcarried (m + 1) (by omega) (by omega)
    rw [hidle] at hlater
    cases hlater
  · intro i j a b hij hj ha hb
    exact headSizeToTotalSize_mono (hall i (by omega)).1.inv.chain.1 (hall j hj).1.inv.chain.1 (hall j hj).2
      (hgrow i j hij hj) ha hb

/-- A debug build whose allocator does not fail grows cleanly. -/
theorem reach_alloc {s : State T} (h : (boundedMachine .debug T).Reachable s) :
    ((allocMachine .debug T).restrict (State.GrowsCleanly .debug)).Reachable s := by
  induction h with
  | init hs => exact .init hs
  | @step s s' e _ hs ih =>
    refine .step (e := .step e) ih ⟨?_, hs.2⟩
    cases e with
    | act t => exact ⟨hs.1, fun h => by cases h⟩
    | call | ret => trivial

/-- A head of `2 ^ 31` slots is full, and the next call fails to grow it. -/
theorem growth_fails_cleanly_full_block :
    ∃ (n : ℕ) (state : ℕ → State (Fin 1)) (event : ℕ → AllocEvent (Fin 1)),
      (state n).inner.headSize = maxBlockSize ∧ (state n).control 0 = .running .expand ∧
        (state (n + 1)).control 0 =
          .running (.unlockWrite (.error (.overflow "attempt to multiply with overflow"))) ∧
        CleanGrowth .debug (n + 1) state event := by
  obtain ⟨inner, hr, hd, hlen⟩ := exists_expand_largest .debug
  have hmax := (headSize_eq_max hd (by omega)).2 hlen
  have : Nonempty (AllocEvent (Fin 1)) := ⟨.null 0⟩
  obtain ⟨n, state, event, hrun, hlast⟩ := (reach_alloc hr).exists_run
  have hstep : allocStep .debug (single inner [] (some 0) (.running .expand)) (.step (.act 0)) =
      some (single inner [] (some 0)
        (.running (.unlockWrite (.error (.overflow "attempt to multiply with overflow"))))) := by
    have hexpand : step .debug (single inner [] (some 0) (.running .expand)) (.act 0) =
        some (single (inner.expand .debug).1 [] (some 0) (afterExpand (inner.expand .debug).2)) :=
      congrArg some (single_setControl _ _ _ _ _)
    rw [Inner.expand_of_overflow hmax] at hexpand
    exact hexpand
  have hclean : (single inner [] (some 0) (.running .expand)).GrowsCleanly .debug (.step (.act (0 : Fin 1))) :=
    ⟨fun hw => hw.1, fun h => by cases h⟩
  obtain ⟨state', event', hrun', hbefore, -, hafter⟩ := hrun.extend hlast (e := .step (.act 0))
    ⟨hclean, trivial, hstep⟩
  refine ⟨n, state', event', ?_, ?_, ?_, growth_fails_cleanly .debug (Fin 1) (n + 1) state' event' hrun'⟩
  · rw [hbefore]
    exact hmax
  · rw [hbefore]
    rfl
  · rw [hafter]
    rfl

/-! ## An allocator that returns null -/

/-- A call of an empty bucket, up to the growth. -/
def firstGrowth : List (AllocEvent (Fin 1)) :=
  .step (.call 0 .nextInsertLocation) :: List.replicate 5 (.step (.act 0))

/-- The states of a run of these events. -/
abbrev allocTrace (build : Build) (es : List (AllocEvent (Fin 1))) : ℕ → State (Fin 1) :=
  Transition.System.trace (allocStep build) (fun _ _ => True) State.init es

theorem alloc_run_of_replay (build : Build) (es : List (AllocEvent (Fin 1)))
    (hes : (Transition.System.replay (allocStep build) (fun _ _ => True) State.init es).isSome = true) :
    (allocMachine build (Fin 1)).Run es.length (allocTrace build es) (es.getD · (.null 0)) :=
  @Transition.System.Run.of_replay _ _ (· = State.init) _ _ _ State.init rfl es (.null 0) hes

/-- A first call whose `alloc` returns null. -/
def firstNull : List (AllocEvent (Fin 1)) := firstGrowth ++ [.null 0]

/-- If `alloc` returns null, the call writes through the pointer. -/
theorem growth_fails_through_null :
    ¬∀ (build : Build) (n : ℕ) (state : ℕ → State (Fin 1)) (event : ℕ → AllocEvent (Fin 1)),
      (allocMachine build (Fin 1)).Run n state event → CleanGrowth build n state event := by
  intro h
  have hclean := h .release 7 (allocTrace .release firstNull) (firstNull.getD · (.null 0))
    (alloc_run_of_replay .release firstNull (by decide +kernel))
  obtain ⟨-, fault, -, hbreach, hc⟩ := hclean.fails 6 (by omega) 0 rfl rfl (Or.inl rfl)
  have hnull : (allocTrace .release firstNull 7).control 0 =
      .running (.unlockWrite (.error (.undefined "wrote through a null pointer"))) := rfl
  rw [hnull] at hc
  cases hc
  cases hbreach

end ReadWriteStore.Bucket

import ReadWriteStore.Bucket.Proofs.CapacityProofs
import ReadWriteStore.Bucket.Proofs.GrowthProofs

/-!
# One call after the other

A thread alone fills the head and grows the chain, up to the largest block.
-/

namespace ReadWriteStore.Bucket

open Transition (System)

variable {build : Build}

/-- The machine whose counter does not wrap around. -/
abbrev boundedMachine (build : Build) (T : Type) [DecidableEq T] : System (State T) (Event T) :=
  (machine build T).restrict State.NoWrap

/-- A bucket with a single thread. -/
def single (inner : Inner) (readers : List (Fin 1)) (writer : Option (Fin 1)) (control : Control) :
    State (Fin 1) := ⟨inner, readers, writer, fun _ => control⟩

/-- A bucket that nobody is using. -/
def calm (inner : Inner) : State (Fin 1) := single inner [] none .idle

theorem single_setControl (inner : Inner) (readers : List (Fin 1)) (writer : Option (Fin 1))
    (control control' : Control) :
    (single inner readers writer control).setControl 0 control' = single inner readers writer control' := by
  unfold State.setControl single
  congr 1
  funext t
  rw [Subsingleton.elim t 0, Function.update_self]

/-- One more step of the thread. -/
theorem reach {s s' : State (Fin 1)} (hr : (boundedMachine build (Fin 1)).Reachable s) (e : Event (Fin 1))
    (hwrap : ¬s.Wraps 0) (h : step build s e = some s') : (boundedMachine build (Fin 1)).Reachable s' := by
  refine .step hr ⟨?_, trivial, h⟩
  unfold State.NoWrap
  rw [Subsingleton.elim e.thread 0]
  exact hwrap

/-- A step of the thread that is not a `fetch_add`. -/
theorem reach_point {inner : Inner} {readers : List (Fin 1)} {writer : Option (Fin 1)} {point : Point}
    {s' : State (Fin 1)}
    (hr : (boundedMachine build (Fin 1)).Reachable (single inner readers writer (.running point)))
    (hf : ¬point.Fetches) (h : (single inner readers writer (.running point)).act build 0 point = some s') :
    (boundedMachine build (Fin 1)).Reachable s' :=
  reach hr (.act 0) (fun hw => hf hw.1) h

/-- A `fetch_add` that does not wrap around. -/
theorem reach_fetch {inner : Inner} {readers : List (Fin 1)} {writer : Option (Fin 1)} {point : Point}
    (hr : (boundedMachine build (Fin 1)).Reachable (single inner readers writer (.running point)))
    (hf : point.Fetches) (hmax : inner.nextUnusedSlot ≠ 0xFFFFFFFF) :
    (boundedMachine build (Fin 1)).Reachable (single (inner.nextInsertLocation build).1 readers writer
      (point.afterFetch (inner.nextInsertLocation build).2)) := by
  refine reach hr (.act 0) (fun hw => hmax hw.2.2) ?_
  cases point with
  | fetch => exact congrArg some (single_setControl _ _ _ _ _)
  | slowFetch => exact congrArg some (single_setControl _ _ _ _ _)
  | refetch => exact congrArg some (single_setControl _ _ _ _ _)
  | _ => exact absurd hf not_false

/-! ## Calls -/

section Calls

variable {inner inner₁ inner₂ inner₃ inner₄ : Inner} {location : Location}

theorem reach_lockRead (hr : (boundedMachine build (Fin 1)).Reachable (calm inner)) :
    (boundedMachine build (Fin 1)).Reachable (single inner [0] none (.running .fetch)) := by
  have h₁ : (boundedMachine build (Fin 1)).Reachable (single inner [] none (.running .lockRead)) :=
    reach hr (.call 0 .nextInsertLocation) not_false (congrArg some (single_setControl _ _ _ _ _))
  exact reach_point h₁ not_false (congrArg some (single_setControl _ _ _ _ _))

/-- A call that finds a slot at once. -/
theorem reach_fast (hr : (boundedMachine build (Fin 1)).Reachable (calm inner))
    (hmax : inner.nextUnusedSlot ≠ 0xFFFFFFFF)
    (hfetch : inner.nextInsertLocation build = (inner₁, .ok (some location))) :
    (boundedMachine build (Fin 1)).Reachable (calm inner₁) := by
  have h₂ := reach_fetch (reach_lockRead hr) trivial hmax
  rw [hfetch] at h₂
  have h₃ : (boundedMachine build (Fin 1)).Reachable (single inner₁ [] none (.returned (.location location))) :=
    reach_point h₂ not_false (congrArg some (single_setControl _ _ _ _ _))
  exact reach h₃ (.ret 0) not_false (congrArg some (single_setControl _ _ _ _ _))

/-- A call that finds the chain full, up to the growth. -/
theorem reach_expand (hr : (boundedMachine build (Fin 1)).Reachable (calm inner))
    (hmax : inner.nextUnusedSlot ≠ 0xFFFFFFFF) (hmax₁ : inner₁.nextUnusedSlot ≠ 0xFFFFFFFF)
    (hfetch : inner.nextInsertLocation build = (inner₁, .ok none))
    (hslow : inner₁.nextInsertLocation build = (inner₂, .ok none)) :
    (boundedMachine build (Fin 1)).Reachable (single inner₂ [] (some 0) (.running .expand)) := by
  have h₂ := reach_fetch (reach_lockRead hr) trivial hmax
  rw [hfetch] at h₂
  have h₃ : (boundedMachine build (Fin 1)).Reachable (single inner₁ [] none (.running .lockWrite)) :=
    reach_point h₂ not_false (congrArg some (single_setControl _ _ _ _ _))
  have h₄ : (boundedMachine build (Fin 1)).Reachable (single inner₁ [] (some 0) (.running .slowFetch)) :=
    reach_point h₃ not_false (congrArg some (single_setControl _ _ _ _ _))
  have h₅ := reach_fetch h₄ trivial hmax₁
  rw [hslow] at h₅
  exact h₅

/-- A call that grows the chain. -/
theorem reach_slow (hr : (boundedMachine build (Fin 1)).Reachable (calm inner))
    (hmax : inner.nextUnusedSlot ≠ 0xFFFFFFFF) (hmax₁ : inner₁.nextUnusedSlot ≠ 0xFFFFFFFF)
    (hmax₃ : inner₃.nextUnusedSlot ≠ 0xFFFFFFFF)
    (hfetch : inner.nextInsertLocation build = (inner₁, .ok none))
    (hslow : inner₁.nextInsertLocation build = (inner₂, .ok none))
    (hexpand : inner₂.expand build = (inner₃, .ok ()))
    (hrefetch : inner₃.nextInsertLocation build = (inner₄, .ok (some location))) :
    (boundedMachine build (Fin 1)).Reachable (calm inner₄) := by
  have h₅ := reach_expand hr hmax hmax₁ hfetch hslow
  have h₆ : (boundedMachine build (Fin 1)).Reachable (single inner₃ [] (some 0) (.running .refetch)) := by
    refine reach_point h₅ not_false ?_
    simp only [single, State.act, hexpand]
    exact congrArg some (single_setControl _ _ _ _ _)
  have h₇ := reach_fetch h₆ trivial hmax₃
  rw [hrefetch] at h₇
  have h₈ : (boundedMachine build (Fin 1)).Reachable (single inner₄ [] none (.returned (.location location))) :=
    reach_point h₇ not_false (congrArg some (single_setControl _ _ _ _ _))
  exact reach h₈ (.ret 0) not_false (congrArg some (single_setControl _ _ _ _ _))

end Calls

/-! ## Filling and growing -/

/-- The head is filled slot by slot. -/
theorem reach_fill {len : UInt32} {older : List UInt32} (hd : Doubling (len :: older)) {c : ℕ}
    (hr : (boundedMachine build (Fin 1)).Reachable (calm ⟨len :: older, UInt32.ofNat c⟩))
    (k : ℕ) (hk : c + k ≤ len.toNat) :
    (boundedMachine build (Fin 1)).Reachable (calm ⟨len :: older, UInt32.ofNat (c + k)⟩) := by
  have hlen := len.toNat_lt
  induction k with
  | zero => exact hr
  | succ k ih =>
    have hnat : (UInt32.ofNat (c + k)).toNat = c + k := by
      rw [UInt32.toNat_ofNat']
      exact Nat.mod_eq_of_lt (by omega)
    have hlt : UInt32.ofNat (c + k) < len := by
      rw [UInt32.lt_iff_toNat_lt, hnat]
      omega
    have hmax : UInt32.ofNat (c + k) ≠ 0xFFFFFFFF := by
      intro he
      have := congrArg UInt32.toNat he
      rw [hnat] at this
      have hmaxnat : (0xFFFFFFFF : UInt32).toNat = 2 ^ 32 - 1 := rfl
      omega
    have hd' : Doubling (⟨len :: older, UInt32.ofNat (c + k)⟩ : Inner).blocks := hd
    rcases Inner.nextInsertLocation_cases build hd' with
      ⟨hnil, -⟩ | ⟨-, -, location, hfetch⟩ | ⟨-, hle, -⟩
    · cases hnil
    · have hnext := reach_fast (ih (by omega)) hmax hfetch
      have hsucc : UInt32.ofNat (c + k) + 1 = UInt32.ofNat (c + (k + 1)) := by
        rw [← Nat.add_assoc, UInt32.ofNat_add (c + k) 1]
        rfl
      rw [← hsucc]
      exact hnext
    · exact absurd hle (UInt32.not_le.2 hlt)

/-- A `fetch_add` on a full chain. -/
theorem fetch_full (build : Build) {inner : Inner} (hd : Doubling inner.blocks) (hfull : inner.headSize ≤ inner.nextUnusedSlot)
    (hmax : inner.nextUnusedSlot ≠ 0xFFFFFFFF) :
    ∃ inner', inner.nextInsertLocation build = (inner', .ok none) ∧ inner'.blocks = inner.blocks ∧
      inner'.headSize ≤ inner'.nextUnusedSlot ∧
      inner'.nextUnusedSlot.toNat ≤ inner.nextUnusedSlot.toNat + 1 := by
  rcases Inner.nextInsertLocation_cases build hd with ⟨hnil, hfetch⟩ | ⟨-, hlt, -⟩ | ⟨-, hle, hfetch⟩
  · exact ⟨inner, hfetch, rfl, hfull, Nat.le_succ _⟩
  · exact absurd hfull (UInt32.not_le.2 hlt)
  · refine ⟨_, hfetch, rfl, ?_, Nat.le_of_eq (succ_toNat hmax)⟩
    rw [UInt32.le_iff_toNat_le] at hle ⊢
    show inner.headSize.toNat ≤ (inner.nextUnusedSlot + 1).toNat
    rw [succ_toNat hmax]
    omega

theorem ne_max {n : UInt32} (h : n.toNat < 2 ^ 32 - 1) : n ≠ 0xFFFFFFFF := by
  rintro rfl
  exact absurd h (by decide)

/-- A full chain of fewer than 32 blocks grows. -/
theorem reach_grow {inner : Inner} (hr : (boundedMachine build (Fin 1)).Reachable (calm inner))
    (hd : Doubling inner.blocks) (hlen : inner.blocks.length ≤ 31)
    (hfull : inner.nextUnusedSlot = inner.headSize) :
    (boundedMachine build (Fin 1)).Reachable
      (calm ⟨UInt32.ofNat (2 ^ inner.blocks.length) :: inner.blocks, 1⟩) := by
  have hsmall : inner.nextUnusedSlot.toNat ≤ 2 ^ 30 := by
    rw [hfull]
    unfold Inner.headSize
    generalize inner.blocks = blocks at hd hlen
    cases blocks with
    | nil => exact Nat.zero_le _
    | cons len older =>
      rw [List.length_cons] at hlen
      show len.toNat ≤ 2 ^ 30
      rw [head_toNat hd (by omega)]
      exact Nat.pow_le_pow_right (by omega) (by omega)
  obtain ⟨inner₁, hfetch, hblocks₁, hfull₁, hle₁⟩ :=
    fetch_full build hd (by rw [hfull]; exact UInt32.le_rfl) (ne_max (by omega))
  rw [← hblocks₁] at hd hlen
  obtain ⟨inner₂, hslow, hblocks₂, hfull₂, -⟩ :=
    fetch_full build hd hfull₁ (ne_max (by omega))
  rw [← hblocks₂] at hd hlen
  have hchain₂ : inner₂.Chain build := ⟨hd, fun _ => by omega⟩
  have hexpanded := Inner.expanded hchain₂ hfull₂
  generalize hexpand : inner₂.expand build = result at hexpanded
  cases hexpanded with
  | panicked hbuild hlen' => omega
  | @grown inner₃ hchain hnext hblocks hout =>
    have hinner₃ : inner₃ = ⟨UInt32.ofNat (2 ^ inner.blocks.length) :: inner.blocks, 0⟩ := by
      rw [hblocks₂, hblocks₁] at hblocks
      obtain ⟨blocks, n⟩ := inner₃
      cases hblocks
      cases hnext
      rfl
    rw [hblocks₂, hblocks₁] at hlen
    have hpos : (0 : UInt32) < UInt32.ofNat (2 ^ inner.blocks.length) := by
      rw [UInt32.lt_iff_toNat_lt, UInt32.toNat_ofNat',
        Nat.mod_eq_of_lt (Nat.pow_lt_pow_right (by omega) (by omega))]
      exact Nat.two_pow_pos _
    have hzero : (0 : UInt32) ≠ 0xFFFFFFFF := by decide
    subst hinner₃
    rcases Inner.nextInsertLocation_cases build hchain.1 with
      ⟨hnil, -⟩ | ⟨-, -, location, hrefetch⟩ | ⟨-, hle, -⟩
    · cases hnil
    · exact reach_slow hr (ne_max (by omega)) (ne_max (by omega)) hzero hfetch hslow hexpand
        hrefetch
    · exact absurd hle (UInt32.not_le.2 hpos)

/-- Every block up to the largest is reached. -/
theorem exists_chain (build : Build) {k : ℕ} (hk : k ≤ 31) :
    ∃ inner, (boundedMachine build (Fin 1)).Reachable (calm inner) ∧ Doubling inner.blocks ∧
      inner.blocks.length = k + 1 ∧ inner.nextUnusedSlot = 1 := by
  induction k with
  | zero => exact ⟨_, reach_grow (.init rfl) trivial (Nat.zero_le _) rfl, ⟨rfl, trivial⟩, rfl, rfl⟩
  | succ k ih =>
    obtain ⟨⟨blocks, n⟩, hr, hd, hlen, rfl⟩ := ih (by omega)
    cases blocks with
    | nil => cases hlen
    | cons len older =>
      rw [List.length_cons] at hlen
      have hpos : 1 ≤ len.toNat := by
        rw [head_toNat hd (by omega)]
        exact Nat.one_le_two_pow
      have hfill := reach_fill (c := 1) hd hr (len.toNat - 1) (by omega)
      rw [Nat.add_sub_cancel' hpos, UInt32.ofNat_toNat] at hfill
      refine ⟨_, reach_grow hfill hd (by rw [List.length_cons]; omega) rfl, ⟨rfl, hd⟩, ?_, rfl⟩
      rw [List.length_cons, List.length_cons, hlen]

/-- Six calls fill two blocks and all but one slot of the third. -/
theorem reach_three_blocks (build : Build) :
    (boundedMachine build (Fin 1)).Reachable (calm ⟨[4, 2, 1], 3⟩) := by
  have hone : (boundedMachine build (Fin 1)).Reachable (calm ⟨[1], 1⟩) :=
    reach_grow (.init rfl) trivial (Nat.zero_le _) rfl
  have htwo : (boundedMachine build (Fin 1)).Reachable (calm ⟨[2, 1], 1⟩) :=
    reach_grow hone ⟨rfl, trivial⟩ (by decide) rfl
  have hd : Doubling [2, 1] := ⟨rfl, rfl, trivial⟩
  have hfull : (boundedMachine build (Fin 1)).Reachable (calm ⟨[2, 1], 2⟩) :=
    reach_fill (c := 1) hd htwo 1 (by decide)
  have hthree : (boundedMachine build (Fin 1)).Reachable (calm ⟨[4, 2, 1], 1⟩) :=
    reach_grow hfull hd (by decide) rfl
  have hd' : Doubling [4, 2, 1] := ⟨rfl, hd⟩
  exact reach_fill (c := 1) hd' hthree 2 (by decide)

/-- The largest block is filled, and the next call is about to double it. -/
theorem exists_expand_largest (build : Build) :
    ∃ inner, (boundedMachine build (Fin 1)).Reachable (single inner [] (some 0) (.running .expand)) ∧
      Doubling inner.blocks ∧ inner.blocks.length = 32 := by
  obtain ⟨⟨blocks, n⟩, hr, hd, hlen, rfl⟩ := exists_chain build (Nat.le_refl 31)
  cases blocks with
  | nil => cases hlen
  | cons len older =>
    have holder : older.length = 31 := Nat.succ.inj hlen
    have hhead : len.toNat = 2 ^ 31 := by rw [head_toNat hd (by omega), holder]
    have hfill := reach_fill (c := 1) hd hr (2 ^ 31 - 1) (by omega)
    have hfull : (UInt32.ofNat (1 + (2 ^ 31 - 1))).toNat = 2 ^ 31 := rfl
    generalize UInt32.ofNat (1 + (2 ^ 31 - 1)) = n at hfill hfull
    have hd : Doubling (⟨len :: older, n⟩ : Inner).blocks := hd
    have hle : len ≤ n := UInt32.le_iff_toNat_le.2 (by omega)
    obtain ⟨inner₁, hfetch, hblocks₁, hfull₁, hle₁⟩ :=
      fetch_full build hd hle (ne_max (by show n.toNat < _; omega))
    have hle₁' : inner₁.nextUnusedSlot.toNat ≤ n.toNat + 1 := hle₁
    have hmax₁ : inner₁.nextUnusedSlot ≠ 0xFFFFFFFF := ne_max (by omega)
    obtain ⟨inner₂, hslow, hblocks₂, -, -⟩ := fetch_full build (hblocks₁ ▸ hd) hfull₁ hmax₁
    have hblocks : inner₂.blocks = len :: older := hblocks₂.trans hblocks₁
    exact ⟨inner₂, reach_expand hfill (ne_max (by show n.toNat < _; omega)) hmax₁ hfetch hslow,
      hblocks ▸ hd, hblocks ▸ hlen⟩

end ReadWriteStore.Bucket

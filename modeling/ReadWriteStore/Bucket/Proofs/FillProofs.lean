import Mathlib.Logic.Relation
import ReadWriteStore.Bucket.Proofs.CallsProofs
import ReadWriteStore.Bucket.Proofs.SequentialProofs

/-!
# Calls that fill a bucket

A thread alone gets through its call. While the chain can grow, each call hands out one slot more; when the
largest block is full a call of the debug build fails, and leaves the counter two further.
-/

namespace ReadWriteStore.Bucket

open Relation (ReflTransGen)

variable {build : Build}

/-! ## Through one call -/

/-- Steps of a single thread inside its call. -/
def Leads (build : Build) : State (Fin 1) → State (Fin 1) → Prop :=
  ReflTransGen fun s s' => step build s (.act 0) = some s'

/-- A step and then more. -/
theorem Leads.head {s s' s'' : State (Fin 1)} (h : step build s (.act 0) = some s')
    (hrest : Leads build s' s'') : Leads build s s'' :=
  ReflTransGen.head h hrest

/-- A `fetch_add` of the single thread. -/
theorem single_fetch {inner : Inner} {readers : List (Fin 1)} {writer : Option (Fin 1)} {point : Point}
    (hf : point.Fetches) :
    step build (single inner readers writer (.running point)) (.act 0) =
      some (single (inner.nextInsertLocation build).1 readers writer
        (point.afterFetch (inner.nextInsertLocation build).2)) := by
  cases point with
  | fetch | slowFetch | refetch => exact congrArg some (single_setControl _ _ _ _ _)
  | _ => exact absurd hf not_false

/-- The end of a call under the write lock. -/
theorem leads_unlockWrite (inner : Inner) (location : Checked Location) :
    Leads build (single inner [] (some 0) (.running (.unlockWrite location)))
      (single inner [] none (afterUnlockWrite location)) :=
  .head (congrArg some (single_setControl _ _ _ _ _)) .refl

theorem leads_refetch (inner : Inner) :
    Leads build (single inner [] (some 0) (.running .refetch))
      (single (inner.refetchLocation build).1 [] none
        (afterUnlockWrite (inner.refetchLocation build).2)) := by
  refine .head (single_fetch trivial) ?_
  unfold Inner.refetchLocation
  generalize inner.nextInsertLocation build = result
  obtain ⟨inner', fault | _ | location⟩ := result
  · exact leads_unlockWrite _ _
  · exact leads_unlockWrite _ _
  · exact leads_unlockWrite _ _

theorem leads_expand (inner : Inner) :
    Leads build (single inner [] (some 0) (.running .expand))
      (single (inner.expandLocation build).1 [] none
        (afterUnlockWrite (inner.expandLocation build).2)) := by
  have hexpand : step build (single inner [] (some 0) (.running .expand)) (.act 0) =
      some (single (inner.expand build).1 [] (some 0) (afterExpand (inner.expand build).2)) :=
    congrArg some (single_setControl _ _ _ _ _)
  refine .head hexpand ?_
  unfold Inner.expandLocation
  generalize inner.expand build = result
  obtain ⟨inner', fault | _⟩ := result
  · exact leads_unlockWrite _ _
  · exact leads_refetch _

theorem leads_lockWrite (inner : Inner) :
    Leads build (single inner [] none (.running .lockWrite))
      (single (inner.slowLocation build).1 [] none (afterUnlockWrite (inner.slowLocation build).2)) := by
  have hlock : step build (single inner [] none (.running .lockWrite)) (.act 0) =
      some (single inner [] (some 0) (.running .slowFetch)) := congrArg some (single_setControl _ _ _ _ _)
  refine .head hlock (.head (single_fetch trivial) ?_)
  unfold Inner.slowLocation
  generalize inner.nextInsertLocation build = result
  obtain ⟨inner', fault | _ | location⟩ := result
  · exact leads_unlockWrite _ _
  · exact leads_expand _
  · exact leads_unlockWrite _ _

/-- A whole call. -/
theorem leads_insert (build : Build) (inner : Inner) :
    Leads build (single inner [] none (.running .lockRead))
      (single (inner.insertLocation build).1 [] none
        (afterUnlockWrite (inner.insertLocation build).2)) := by
  have hlock : step build (single inner [] none (.running .lockRead)) (.act 0) =
      some (single inner [0] none (.running .fetch)) := congrArg some (single_setControl _ _ _ _ _)
  have hunlock : ∀ inner' location, step build (single inner' [0] none (.running (.unlockRead location)))
      (.act 0) = some (single inner' [] none (afterFetch location)) :=
    fun _ _ => congrArg some (single_setControl _ _ _ _ _)
  refine .head hlock (.head (single_fetch trivial) (.head (hunlock _ _) ?_))
  unfold Inner.insertLocation
  generalize inner.nextInsertLocation build = result
  obtain ⟨inner', fault | _ | location⟩ := result
  · exact .refl
  · exact leads_lockWrite _
  · exact .refl

/-! ## What a call does -/

namespace Inner

variable {inner inner' : Inner} {location : Location}

/-- A bucket between two calls that have gone well. -/
structure Settled (inner : Inner) : Prop where
  doubling : Doubling inner.blocks
  length_le : inner.blocks.length ≤ 32
  le : inner.nextUnusedSlot ≤ inner.headSize

/-- A call that hands out one more slot. -/
structure Draws (build : Build) (inner inner' : Inner) (location : Location) : Prop where
  call : inner.insertLocation build = (inner', .ok location)
  settled : inner'.Settled
  fresh : ¬inner.HandedOut location
  handedOut : ∀ other, inner'.HandedOut other ↔ inner.HandedOut other ∨ other = location

theorem Settled.new : (new : Inner).Settled := ⟨trivial, Nat.zero_le _, UInt32.le_rfl⟩

theorem headSize_le (hd : Doubling inner.blocks) (hlen : inner.blocks.length ≤ 32) :
    inner.headSize.toNat ≤ 2 ^ (inner.blocks.length - 1) := by
  unfold headSize
  generalize inner.blocks = blocks at hd hlen
  cases blocks with
  | nil => exact Nat.zero_le _
  | cons len older =>
    show len.toNat ≤ 2 ^ older.length
    rw [List.length_cons] at hlen
    rw [head_toNat hd (by omega)]

theorem Settled.counter_le (h : inner.Settled) : inner.nextUnusedSlot.toNat ≤ 2 ^ 31 := by
  have hle := UInt32.le_iff_toNat_le.1 h.le
  have hhead := headSize_le h.doubling h.length_le
  have hpow : 2 ^ (inner.blocks.length - 1) ≤ 2 ^ 31 :=
    Nat.pow_le_pow_right (by omega) (by have := h.length_le; omega)
  omega

/-- A `fetch_add` on a full chain hands out nothing. -/
theorem overshoot (build : Build) (hd : Doubling inner.blocks) (hfull : inner.headSize ≤ inner.nextUnusedSlot)
    (hmax : inner.nextUnusedSlot ≠ 0xFFFFFFFF) :
    ∃ inner', inner.nextInsertLocation build = (inner', .ok none) ∧ inner'.blocks = inner.blocks ∧
      inner'.headSize ≤ inner'.nextUnusedSlot ∧
      inner'.nextUnusedSlot.toNat ≤ inner.nextUnusedSlot.toNat + 1 ∧
      ∀ other, inner'.HandedOut other ↔ inner.HandedOut other := by
  obtain ⟨inner', hfetch, hblocks, hfull', hle⟩ := fetch_full build hd hfull hmax
  have hfetched := fetched build hd (Or.inr hmax)
  rw [hfetch] at hfetched
  cases hfetched with
  | full _ hout => exact ⟨inner', hfetch, hblocks, hfull', hle, hout⟩

/-- A `fetch_add` on a chain with room in the head. -/
theorem takes (build : Build) (hd : Doubling inner.blocks) (hlt : inner.nextUnusedSlot < inner.headSize) :
    ∃ inner' location, inner.nextInsertLocation build = (inner', .ok (some location)) ∧
      inner'.blocks = inner.blocks ∧ inner'.nextUnusedSlot.toNat = inner.nextUnusedSlot.toNat + 1 ∧
      ¬inner.HandedOut location ∧
      ∀ other, inner'.HandedOut other ↔ inner.HandedOut other ∨ other = location := by
  have hmax : inner.nextUnusedSlot ≠ 0xFFFFFFFF := by
    intro he
    rw [he, UInt32.lt_iff_toNat_lt] at hlt
    have hhead := inner.headSize.toNat_lt
    have hnat : (0xFFFFFFFF : UInt32).toNat = 2 ^ 32 - 1 := rfl
    omega
  rcases nextInsertLocation_cases build hd with ⟨hnil, -⟩ | ⟨-, -, location, hfetch⟩ | ⟨-, hle, -⟩
  · unfold headSize at hlt
    rw [hnil] at hlt
    exact absurd hlt UInt32.not_lt_zero
  · have hfetched := fetched build hd (Or.inr hmax)
    rw [hfetch] at hfetched
    cases hfetched with
    | slot _ hfresh hout => exact ⟨_, location, hfetch, rfl, succ_toNat hmax, hfresh, hout⟩
  · exact absurd hle (UInt32.not_le.2 hlt)

/-- While the head has room, a call hands out a slot of it. -/
theorem Settled.takes (h : inner.Settled) (build : Build) (hlt : inner.nextUnusedSlot < inner.headSize) :
    ∃ inner' location, inner.Draws build inner' location ∧ inner'.blocks = inner.blocks := by
  obtain ⟨inner', location, hfetch, hblocks, hnext, hfresh, hout⟩ := Inner.takes build h.doubling hlt
  refine ⟨inner', location, ⟨?_, ⟨hblocks ▸ h.doubling, hblocks ▸ h.length_le, ?_⟩, hfresh, hout⟩, hblocks⟩
  · unfold insertLocation
    rw [hfetch]
  · have hhead : inner'.headSize = inner.headSize := by unfold headSize; rw [hblocks]
    rw [hhead, UInt32.le_iff_toNat_le, hnext]
    exact UInt32.lt_iff_toNat_lt.1 hlt

/-- While the head has room or the chain can grow, a call hands out a slot. -/
theorem Settled.draws (h : inner.Settled) (build : Build)
    (hroom : inner.blocks.length ≤ 31 ∨ inner.nextUnusedSlot < inner.headSize) :
    ∃ inner' location, inner.Draws build inner' location := by
  by_cases hlt : inner.nextUnusedSlot < inner.headSize
  · obtain ⟨inner', location, hdraws, -⟩ := h.takes build hlt
    exact ⟨inner', location, hdraws⟩
  · have hlen : inner.blocks.length ≤ 31 := hroom.resolve_right hlt
    have hcounter := h.counter_le
    -- both `fetch_add`s miss, and then the chain grows
    obtain ⟨inner₁, hfetch, hblocks₁, hfull₁, hle₁, hout₁⟩ :=
      overshoot build h.doubling (UInt32.not_lt.1 hlt) (ne_max (by omega))
    obtain ⟨inner₂, hslow, hblocks₂, hfull₂, hle₂, hout₂⟩ :=
      overshoot build (hblocks₁ ▸ h.doubling) hfull₁ (ne_max (by omega))
    rw [hblocks₁] at hblocks₂
    have hchain₂ : inner₂.Chain build := ⟨hblocks₂ ▸ h.doubling, fun _ => by rw [hblocks₂]; omega⟩
    have hexpanded := expanded hchain₂ hfull₂
    generalize hexpand : inner₂.expand build = result at hexpanded
    cases hexpanded with
    | panicked hbuild hlen' =>
      rw [hblocks₂] at hlen'
      omega
    | @grown inner₃ hchain hnext hblocks₃ hout₃ =>
      rw [hblocks₂] at hblocks₃
      have hhead : inner₃.headSize = UInt32.ofNat (2 ^ inner.blocks.length) := by
        unfold headSize
        rw [hblocks₃]
        rfl
      have hpos : inner₃.nextUnusedSlot < inner₃.headSize := by
        rw [hnext, hhead, UInt32.lt_iff_toNat_lt, UInt32.toNat_ofNat',
          Nat.mod_eq_of_lt (Nat.pow_lt_pow_right (by omega) (by omega))]
        exact Nat.two_pow_pos _
      obtain ⟨inner₄, location, hrefetch, hblocks₄, hnext₄, hfresh, hout₄⟩ := Inner.takes build hchain.1 hpos
      have hhead₄ : inner₄.headSize = inner₃.headSize := by unfold headSize; rw [hblocks₄]
      have hsame : ∀ other, inner₃.HandedOut other ↔ inner.HandedOut other := fun other =>
        (hout₃ other).trans ((hout₂ other).trans (hout₁ other))
      refine ⟨inner₄, location, ?_, ⟨hblocks₄ ▸ hchain.1, ?_, ?_⟩, ?_, fun other => ?_⟩
      · unfold insertLocation
        rw [hfetch]
        show inner₁.slowLocation build = _
        unfold slowLocation
        rw [hslow]
        show inner₂.expandLocation build = _
        unfold expandLocation
        rw [hexpand]
        show inner₃.refetchLocation build = _
        unfold refetchLocation
        rw [hrefetch]
      · rw [hblocks₄, hblocks₃, List.length_cons]
        omega
      · rw [hhead₄, UInt32.le_iff_toNat_le, hnext₄]
        exact UInt32.lt_iff_toNat_lt.1 hpos
      · rw [← hsame]
        exact hfresh
      · rw [hout₄, hsame]

theorem Draws.length_touched {build : Build} (h : inner.Draws build inner' location)
    (hd : Doubling inner.blocks) : inner'.touched.length = inner.touched.length + 1 := by
  have hperm : inner'.touched.Perm (location :: inner.touched) := by
    refine (List.perm_ext_iff_of_nodup (nodup_touched h.settled.doubling)
      (List.nodup_cons.2 ⟨fun hmem => h.fresh ((mem_touched hd).1 hmem), nodup_touched hd⟩)).2 fun other => ?_
    rw [mem_touched h.settled.doubling, h.handedOut, List.mem_cons, mem_touched hd, or_comm]
  exact hperm.length_eq

/-- A bucket that cannot hand out another slot has handed out all but one of `2 ^ 32`. -/
theorem Settled.room (h : inner.Settled) (hlt : inner.touched.length < 2 ^ 32 - 1) :
    inner.blocks.length ≤ 31 ∨ inner.nextUnusedSlot < inner.headSize := by
  by_contra hnot
  rw [not_or, UInt32.not_lt] at hnot
  obtain ⟨hlen, hle⟩ := hnot
  have hlen' : inner.blocks.length = 32 := by have := h.length_le; omega
  have hsum := sum_doubling h.doubling h.length_le
  have htouched := touched_add_unused (UInt32.le_iff_toNat_le.1 h.le)
  rw [UInt32.le_iff_toNat_le] at hle
  rw [hlen'] at hsum
  unfold allocated at htouched
  omega

theorem Settled.full (h : inner.Settled) (hfull : inner.touched.length = 2 ^ 32 - 1) :
    inner.blocks.length = 32 ∧ inner.nextUnusedSlot.toNat = 2 ^ 31 := by
  have hsum := sum_doubling h.doubling h.length_le
  have hle := UInt32.le_iff_toNat_le.1 h.le
  have htouched := touched_add_unused hle
  unfold allocated at htouched
  have hlen : inner.blocks.length = 32 := by
    by_contra hne
    have hpow : 2 ^ inner.blocks.length ≤ 2 ^ 31 :=
      Nat.pow_le_pow_right (by omega) (by have := h.length_le; omega)
    omega
  refine ⟨hlen, ?_⟩
  rw [hlen] at hsum
  have hhead : inner.headSize.toNat = 2 ^ 31 := by
    have hd := h.doubling
    unfold headSize
    generalize inner.blocks = blocks at hd hlen
    cases blocks with
    | nil => cases hlen
    | cons len older =>
      have holder : older.length = 31 := Nat.succ.inj hlen
      show len.toNat = 2 ^ 31
      rw [head_toNat hd (by omega), holder]
  omega

/-- A call of the debug build when the largest block is full. -/
theorem insertLocation_full {blocks : List UInt32} (next : UInt32) (hd : Doubling blocks)
    (hlen : blocks.length = 32) (hle : 2 ^ 31 ≤ next.toNat) (hlt : next.toNat + 1 < 2 ^ 32) :
    (⟨blocks, next⟩ : Inner).insertLocation .debug = (⟨blocks, next + 1 + 1⟩,
      .error (.overflow "attempt to multiply with overflow")) := by
  cases blocks with
  | nil => cases hlen
  | cons len older =>
    have hlen' : older.length = 31 := Nat.succ.inj hlen
    have hhead : len.toNat = 2 ^ 31 := by rw [head_toNat hd (by omega), hlen']
    have hmiss : ∀ next' : UInt32, 2 ^ 31 ≤ next'.toNat →
        (⟨len :: older, next'⟩ : Inner).nextInsertLocation .debug = (⟨len :: older, next' + 1⟩, .ok none) := by
      intro next' hle'
      unfold nextInsertLocation
      have hnot : ¬next' < len := by
        rw [UInt32.lt_iff_toNat_lt]
        omega
      simp only [if_neg hnot]
    have hne : next ≠ 0xFFFFFFFF := ne_max (by omega)
    have hfull₂ : 2 ^ 31 ≤ (next + 1).toNat := by
      rw [succ_toNat hne]
      exact Nat.le_succ_of_le hle
    unfold insertLocation
    rw [hmiss next hle]
    show slowLocation .debug _ = _
    unfold slowLocation
    rw [hmiss (next + 1) hfull₂]
    show expandLocation .debug _ = _
    unfold expandLocation expand
    have hover : mulU32 .debug len resizeFactor = .error (.overflow "attempt to multiply with overflow") := by
      unfold mulU32
      rw [if_pos ⟨rfl, by rw [hhead]; decide⟩]
    simp only [hover]

/-- When the counter has come around to 0, the next call hands out a slot that it has handed out before. -/
theorem Settled.repeats (h : inner.Settled) (build : Build) (hfull : inner.touched.length = 2 ^ 32 - 1) :
    ∃ inner' location, (⟨inner.blocks, 0⟩ : Inner).Draws build inner' location ∧
      inner.HandedOut location := by
  obtain ⟨-, hnext⟩ := h.full hfull
  have hle := UInt32.le_iff_toNat_le.1 h.le
  have hpos : 2 ^ 31 ≤ inner.headSize.toNat := by omega
  have hsettled : (⟨inner.blocks, 0⟩ : Inner).Settled :=
    ⟨h.doubling, h.length_le, UInt32.le_iff_toNat_le.2 (Nat.zero_le _)⟩
  have hlt : (⟨inner.blocks, 0⟩ : Inner).nextUnusedSlot < (⟨inner.blocks, 0⟩ : Inner).headSize := by
    rw [UInt32.lt_iff_toNat_lt]
    show 0 < inner.headSize.toNat
    omega
  obtain ⟨inner', location, hdraws, hblocks⟩ := hsettled.takes build hlt
  refine ⟨inner', location, hdraws, handedOut_of_mem h.doubling ?_ fun _ => ?_⟩
  · have hcontains := ((hdraws.handedOut location).2 (Or.inr rfl)).1
    have hmem := mem_locations.2 hcontains
    unfold locations at hmem ⊢
    rwa [hblocks] at hmem
  · have hhead : inner.headSize.toNat ≤ 2 ^ 31 := by
      have := headSize_le h.doubling h.length_le
      have hpow : 2 ^ (inner.blocks.length - 1) ≤ 2 ^ 31 :=
        Nat.pow_le_pow_right (by omega) (by have := h.length_le; omega)
      omega
    rw [UInt32.le_iff_toNat_le]
    omega

end Inner

end ReadWriteStore.Bucket

import ReadWriteStore.Bucket.Growth
import ReadWriteStore.Bucket.Proofs.InvariantProofs
import Mathlib.Data.Set.Card.Arithmetic

/-!
# What a run hands out

`Hands` is what a step of one thread does to the slots that have been handed out and to those that
threads carry. Along a sequence of such steps the counter tells exactly which slots have been taken,
and a slot is carried by one call only.
-/

namespace ReadWriteStore.Bucket

variable {T : Type} {s s' : State T}

/-- A step of thread `t` keeps what has been handed out; a new slot goes to `t`, which takes up new
slots only. -/
structure Hands (s s' : State T) (t : T) : Prop where
  keeps : ∀ location, s.inner.HandedOut location → s'.inner.HandedOut location
  gains : ∀ location, s'.inner.HandedOut location →
    s.inner.HandedOut location ∨ (s'.control t).location = some location
  others : ∀ u, u ≠ t → s'.control u = s.control u
  own : ∀ location, (s'.control t).location = some location →
    (s.control t).location = some location ∨ ¬s.inner.HandedOut location

theorem Handout.hands {t : T} (h : Handout s s' t) (hothers : ∀ u, u ≠ t → s'.control u = s.control u) :
    Hands s s' t := by
  cases h with
  | same hout hloc =>
    refine ⟨fun l => (hout l).2, fun l hl => Or.inl ((hout l).1 hl), hothers, fun l hl => ?_⟩
    rw [hloc] at hl
    exact Or.inl hl
  | @fresh location hnew hout hnone hsome =>
    refine ⟨fun l hl => (hout l).2 (Or.inl hl), fun l hl => ?_, hothers, fun l hl => ?_⟩
    · rcases (hout l).1 hl with hl | rfl
      · exact Or.inl hl
      · exact Or.inr hsome
    · rw [hsome] at hl
      cases hl
      exact Or.inr hnew

/-- A sequence of such steps from a bucket that has handed out nothing. -/
structure Handouts (n : ℕ) (state : ℕ → State T) (thread : ℕ → T) : Prop where
  init : ∀ location, ¬(state 0).inner.HandedOut location
  located : ∀ k ≤ n, ∀ t location, ((state k).control t).location = some location →
    (state k).inner.HandedOut location
  step : ∀ k < n, Hands (state k) (state (k + 1)) (thread k)

namespace Handouts

variable {n : ℕ} {state : ℕ → State T} {thread : ℕ → T} {location : Location}

theorem keeps (h : Handouts n state thread) {i j : ℕ} (hij : i ≤ j) (hj : j ≤ n)
    (hi : (state i).inner.HandedOut location) : (state j).inner.HandedOut location := by
  induction j, hij using Nat.le_induction with
  | base => exact hi
  | succ j hij ih => exact (h.step j (by omega)).keeps location (ih (by omega))

/-- The counter tells what has been taken. -/
theorem taken_iff (h : Handouts n state thread) {k : ℕ} (hk : k ≤ n) :
    Taken state k location ↔ (state k).inner.HandedOut location := by
  constructor
  · rintro ⟨i, hi, t, ht⟩
    exact h.keeps hi hk (h.located i (by omega) t location ht)
  · intro hout
    induction k with
    | zero => exact absurd hout (h.init location)
    | succ k ih =>
      rcases (h.step k (by omega)).gains location hout with hout | hnew
      · obtain ⟨i, hi, t, ht⟩ := ih (by omega) hout
        exact ⟨i, by omega, t, ht⟩
      · exact ⟨k + 1, le_refl _, thread k, hnew⟩

/-- Two threads never carry the same slot. -/
theorem carrier_unique (h : Handouts n state thread) : ∀ k ≤ n, ∀ t u,
    ((state k).control t).location = some location →
      ((state k).control u).location = some location → t = u := by
  intro k
  induction k with
  | zero =>
    intro hk t u ht _
    exact absurd (h.located 0 hk t location ht) (h.init location)
  | succ k ih =>
    intro hk t u ht hu
    have hstep := h.step k (by omega)
    -- the thread that moved cannot have got a slot that another one carries
    have hcross : ∀ w, w ≠ thread k → ((state (k + 1)).control (thread k)).location = some location →
        ((state (k + 1)).control w).location ≠ some location := by
      intro w hw hmoved hother
      rw [hstep.others w hw] at hother
      rcases hstep.own location hmoved with hold | hnew
      · exact hw (ih (by omega) w (thread k) hother hold)
      · exact hnew (h.located k (by omega) w location hother)
    by_cases htk : t = thread k
    · by_contra htu
      subst htk
      exact hcross u (fun he => htu he.symm) ht hu
    by_cases huk : u = thread k
    · subst huk
      exact absurd ht (hcross t htk hu)
    · rw [hstep.others t htk] at ht
      rw [hstep.others u huk] at hu
      exact ih (by omega) t u ht hu

/-- A slot is carried by one thread, from the moment it gets the slot to the end of the call. -/
theorem carried (h : Handouts n state thread) {i j : ℕ} (hij : i ≤ j) (hj : j ≤ n) {t : T}
    (ht : ((state i).control t).location = some location) : ∀ u,
    ((state j).control u).location = some location →
      t = u ∧ ∀ m, i ≤ m → m ≤ j → ((state m).control t).location = some location := by
  induction j, hij using Nat.le_induction with
  | base =>
    intro u hu
    refine ⟨h.carrier_unique i hj t u ht hu, fun m him hmi => ?_⟩
    obtain rfl : m = i := by omega
    exact ht
  | succ j hij ih =>
    intro u hu
    have hstep := h.step j (by omega)
    have hbefore : ((state j).control u).location = some location := by
      by_cases huj : u = thread j
      · rcases hstep.own location (by rw [← huj]; exact hu) with hold | hnew
        · rw [huj]
          exact hold
        · exact absurd (h.keeps hij (by omega) (h.located i (by omega) t location ht)) hnew
      · rw [← hstep.others u huj]
        exact hu
    obtain ⟨rfl, hall⟩ := ih (by omega) u hbefore
    refine ⟨rfl, fun m him hmj => ?_⟩
    rcases Nat.lt_or_ge m (j + 1) with hlt | hge
    · exact hall m him (by omega)
    · obtain rfl : m = j + 1 := by omega
      exact hu

end Handouts

/-! ## Counting -/

theorem toNat_min (a b : UInt32) : (min a b).toNat = min a.toNat b.toNat := by
  show (if a ≤ b then a else b).toNat = _
  split
  · rename_i h
    exact (Nat.min_eq_left (UInt32.le_iff_toNat_le.1 h)).symm
  · rename_i h
    rw [UInt32.le_iff_toNat_le] at h
    exact (Nat.min_eq_right (by omega)).symm

theorem lt_min_iff {a b c : UInt32} : a < min b c ↔ a < b ∧ a < c := by
  rw [UInt32.lt_iff_toNat_lt, toNat_min, Nat.lt_min]
  rfl

theorem ofNat_lt {i : ℕ} {last : UInt32} (h : i < last.toNat) : UInt32.ofNat i < last := by
  have := last.toNat_lt
  rw [UInt32.lt_iff_toNat_lt, UInt32.toNat_ofNat']
  omega

theorem mem_touchedFrom_cons {len last : UInt32} {older : List UInt32} {location : Location} :
    location ∈ touchedFrom (len :: older) last ↔
      (location.block = older.length ∧ ∃ slot < last, physicalSlot len slot = location.slot) ∨
        location ∈ touchedFrom older (older.headD 0) := by
  have hcons : touchedFrom (len :: older) last =
      ((List.range last.toNat).map fun slot =>
        (⟨older.length, physicalSlot len (UInt32.ofNat slot)⟩ : Location)).reverse ++
          touchedFrom older (older.headD 0) := rfl
  rw [hcons, List.mem_append, List.mem_reverse, List.mem_map]
  refine or_congr ⟨?_, ?_⟩ Iff.rfl
  · rintro ⟨i, hi, rfl⟩
    exact ⟨rfl, UInt32.ofNat i, ofNat_lt (List.mem_range.1 hi), rfl⟩
  · rintro ⟨hblock, slot, hslot, hp⟩
    refine ⟨slot.toNat, List.mem_range.2 (UInt32.lt_iff_toNat_lt.1 hslot), ?_⟩
    rw [UInt32.ofNat_toNat, hp, ← hblock]

/-- A chain that is full up to its last slot. -/
theorem mem_touchedFrom_full {blocks : List UInt32} (hd : Doubling blocks) (n : UInt32)
    {location : Location} :
    location ∈ touchedFrom blocks (blocks.headD 0) ↔ (⟨blocks, n⟩ : Inner).Contains location := by
  induction blocks with
  | nil =>
    unfold touchedFrom Inner.Contains Inner.blockLen
    simp
  | cons len older ih =>
    rw [Inner.contains_cons n, ← ih hd.2, mem_touchedFrom_cons]
    refine or_congr (and_congr_right fun _ => ⟨?_, ?_⟩) Iff.rfl
    · rintro ⟨slot, hslot, hp⟩
      rw [← hp]
      exact physicalSlot_lt (hd.head hslot) slot
    · intro hslot
      exact physicalSlot_surj (hd.head hslot) hslot

/-- The list holds what the counter says. -/
theorem mem_touched {inner : Inner} (hd : Doubling inner.blocks) {location : Location} :
    location ∈ inner.touched ↔ inner.HandedOut location := by
  obtain ⟨blocks, n⟩ := inner
  unfold Inner.touched Inner.HandedOut
  cases blocks with
  | nil =>
    unfold touchedFrom Inner.Contains Inner.blockLen
    simp
  | cons len older =>
    show location ∈ touchedFrom (len :: older) (min n len) ↔ _
    rw [mem_touchedFrom_cons, mem_touchedFrom_full hd.2 n, Inner.contains_cons n]
    have hblock : (⟨older, n⟩ : Inner).Contains location → location.block < older.length := by
      rintro ⟨len', hlen, -⟩
      exact Inner.blockLen_lt hlen
    constructor
    · rintro (⟨hb, slot, hslot, hp⟩ | hold)
      · obtain ⟨hn, hlen⟩ := lt_min_iff.1 hslot
        refine ⟨Or.inl ⟨hb, ?_⟩, fun _ => ⟨slot, hn, hlen, hp⟩⟩
        rw [← hp]
        exact physicalSlot_lt (hd.head hlen) slot
      · refine ⟨Or.inr hold, fun hb => ?_⟩
        have := hblock hold
        have hb' : location.block + 1 = older.length + 1 := hb
        omega
    · rintro ⟨⟨hb, -⟩ | hold, hslot⟩
      · obtain ⟨slot, hn, hlen, hp⟩ := hslot (by simp [hb])
        exact Or.inl ⟨hb, slot, lt_min_iff.2 ⟨hn, hlen⟩, hp⟩
      · exact Or.inr hold

theorem block_lt_of_mem {blocks : List UInt32} (hd : Doubling blocks) {location : Location}
    (h : location ∈ touchedFrom blocks (blocks.headD 0)) : location.block < blocks.length := by
  obtain ⟨len, hlen, -⟩ := (mem_touchedFrom_full hd 0).1 h
  exact Inner.blockLen_lt hlen

theorem nodup_touchedFrom {blocks : List UInt32} (hd : Doubling blocks) {last : UInt32}
    (hlast : last ≤ blocks.headD 0) : (touchedFrom blocks last).Nodup := by
  induction blocks generalizing last with
  | nil => exact List.nodup_nil
  | cons len older ih =>
    have hcons : touchedFrom (len :: older) last =
        ((List.range last.toNat).map fun slot =>
          (⟨older.length, physicalSlot len (UInt32.ofNat slot)⟩ : Location)).reverse ++
            touchedFrom older (older.headD 0) := rfl
    rw [hcons, List.nodup_append]
    refine ⟨?_, ih hd.2 UInt32.le_rfl, ?_⟩
    · rw [List.nodup_reverse]
      refine List.Nodup.map_on ?_ List.nodup_range
      intro i hi j hj he
      have hi' := UInt32.lt_of_lt_of_le (ofNat_lt (List.mem_range.1 hi)) hlast
      have hj' := UInt32.lt_of_lt_of_le (ofNat_lt (List.mem_range.1 hj)) hlast
      have hslot := physicalSlot_inj (hd.head hi') hi' hj' (congrArg Location.slot he)
      have hnat := congrArg UInt32.toNat hslot
      have := last.toNat_lt
      rw [List.mem_range] at hi hj
      rw [UInt32.toNat_ofNat', UInt32.toNat_ofNat'] at hnat
      omega
    · rintro a ha b hb rfl
      rw [List.mem_reverse, List.mem_map] at ha
      obtain ⟨i, -, rfl⟩ := ha
      have := block_lt_of_mem hd.2 hb
      exact absurd this (Nat.lt_irrefl _)

theorem nodup_touched {inner : Inner} (hd : Doubling inner.blocks) : inner.touched.Nodup := by
  refine nodup_touchedFrom hd ?_
  rw [UInt32.le_iff_toNat_le, toNat_min]
  exact Nat.min_le_right _ _

theorem length_touchedFrom (len last : UInt32) (older : List UInt32) :
    (touchedFrom (len :: older) last).length = last.toNat + (older.map UInt32.toNat).sum := by
  induction older generalizing len last with
  | nil => simp [touchedFrom]
  | cons len' older ih =>
    have hcons : touchedFrom (len :: len' :: older) last =
        ((List.range last.toNat).map fun slot =>
          (⟨(len' :: older).length, physicalSlot len (UInt32.ofNat slot)⟩ : Location)).reverse ++
            touchedFrom (len' :: older) len' := rfl
    rw [hcons, List.length_append, ih, List.length_reverse, List.length_map, List.length_range]
    simp

/-- The length of the head of a chain without overflow. -/
theorem head_toNat {len : UInt32} {older : List UInt32} (hd : Doubling (len :: older))
    (hlen : older.length < 32) : len.toNat = 2 ^ older.length := by
  rw [hd.1, UInt32.toNat_ofNat']
  exact Nat.mod_eq_of_lt (Nat.pow_lt_pow_right (by omega) hlen)

/-- The oldest block has a slot. -/
theorem sum_pos {blocks : List UInt32} (hd : Doubling blocks) (hne : blocks ≠ []) :
    0 < (blocks.map UInt32.toNat).sum := by
  induction blocks with
  | nil => exact absurd rfl hne
  | cons len older ih =>
    rw [List.map_cons, List.sum_cons]
    cases older with
    | nil =>
      rw [hd.1]
      exact Nat.one_pos
    | cons len' older =>
      have := ih hd.2 (List.cons_ne_nil _ _)
      omega

/-- A chain of fewer than 33 blocks has one slot fewer than a power of two. -/
theorem sum_doubling {blocks : List UInt32} (hd : Doubling blocks) (hlen : blocks.length ≤ 32) :
    (blocks.map UInt32.toNat).sum + 1 = 2 ^ blocks.length := by
  induction blocks with
  | nil => rfl
  | cons len older ih =>
    rw [List.length_cons] at hlen
    have hrest := ih hd.2 (by omega)
    rw [List.map_cons, List.sum_cons, List.length_cons, pow_succ, head_toNat hd (by omega)]
    omega

/-- The lengths of a chain of fewer than 33 blocks. -/
theorem lengths_of_doubling {blocks : List UInt32} (hd : Doubling blocks) (hlen : blocks.length ≤ 32) :
    blocks.map UInt32.toNat = ((List.range blocks.length).map fun i => 2 ^ i).reverse := by
  induction blocks with
  | nil => rfl
  | cons len older ih =>
    rw [List.length_cons] at hlen
    rw [List.map_cons, ih hd.2 (by omega), head_toNat hd (by omega), List.length_cons, List.range_succ,
      List.map_append, List.reverse_append]
    rfl

end ReadWriteStore.Bucket

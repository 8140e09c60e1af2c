import ReadWriteStore.Bucket.Proofs.HandoutProofs

/-!
# The arithmetic of capacity

`head_size_to_total_size` adds up the powers of two up to the head, so it gives the length of a chain
that doubles. It has to compute the next power of two to stop: with a head of `2 ^ 31` slots that is
not a `u32`.
-/

namespace ReadWriteStore.Bucket

variable {build : Build}

/-- One round of the loop. After `i` rounds it has added up `2 ^ i - 1`. -/
theorem totalSizeLoop_round {headSize : UInt32} {i : ℕ} (hi : i ≤ 30) (hgo : 2 ^ i ≤ headSize.toNat)
    (fuel : ℕ) :
    totalSizeLoop build headSize (fuel + 1) (UInt32.ofNat (2 ^ i - 1)) (UInt32.ofNat (2 ^ i)) =
      totalSizeLoop build headSize fuel (UInt32.ofNat (2 ^ (i + 1) - 1)) (UInt32.ofNat (2 ^ (i + 1))) := by
  have hle : 2 ^ (i + 1) ≤ 2 ^ 31 := Nat.pow_le_pow_right (by omega) (by omega)
  have hpos := Nat.two_pow_pos i
  have hsucc : 2 ^ (i + 1) = 2 ^ i * 2 := pow_succ 2 i
  have htotal : (UInt32.ofNat (2 ^ i - 1)).toNat = 2 ^ i - 1 := by
    rw [UInt32.toNat_ofNat']
    exact Nat.mod_eq_of_lt (by omega)
  have hsize : (UInt32.ofNat (2 ^ i)).toNat = 2 ^ i := by
    rw [UInt32.toNat_ofNat']
    exact Nat.mod_eq_of_lt (by omega)
  have hcond : UInt32.ofNat (2 ^ i) ≤ headSize := by
    rw [UInt32.le_iff_toNat_le, hsize]
    exact hgo
  have hadd : addU32 build (UInt32.ofNat (2 ^ i - 1)) (UInt32.ofNat (2 ^ i)) =
      .ok (UInt32.ofNat (2 ^ (i + 1) - 1)) := by
    rw [addU32_ok build (by omega), ← UInt32.ofNat_add]
    congr 2
    omega
  have hmul : mulU32 build (UInt32.ofNat (2 ^ i)) resizeFactor = .ok (UInt32.ofNat (2 ^ (i + 1))) := by
    have hfactor : resizeFactor.toNat = 2 := rfl
    rw [mulU32_ok build (by rw [hsize, hfactor]; omega), hsucc, UInt32.ofNat_mul]
    rfl
  rw [totalSizeLoop, if_pos hcond, hadd]
  show (mulU32 build (UInt32.ofNat (2 ^ i)) resizeFactor >>= _) = _
  rw [hmul]
  rfl

/-- With a head of `2 ^ k` slots the loop stops after `k + 1` rounds. -/
theorem totalSizeLoop_eq {headSize : UInt32} {k : ℕ} (hk : k ≤ 30) (hhead : headSize.toNat = 2 ^ k) :
    ∀ j i fuel, i + j = k + 1 → j < fuel →
      totalSizeLoop build headSize fuel (UInt32.ofNat (2 ^ i - 1)) (UInt32.ofNat (2 ^ i)) =
        .ok (UInt32.ofNat (2 ^ (k + 1) - 1)) := by
  intro j
  induction j with
  | zero =>
    intro i fuel hij hfuel
    obtain ⟨fuel, rfl⟩ : ∃ f, fuel = f + 1 := ⟨fuel - 1, by omega⟩
    obtain rfl : i = k + 1 := by omega
    have hlt : 2 ^ (k + 1) < 2 ^ 32 := Nat.pow_lt_pow_right (by omega) (by omega)
    have hstop : ¬UInt32.ofNat (2 ^ (k + 1)) ≤ headSize := by
      rw [UInt32.le_iff_toNat_le, UInt32.toNat_ofNat', Nat.mod_eq_of_lt hlt, hhead, pow_succ]
      have := Nat.two_pow_pos k
      omega
    rw [totalSizeLoop, if_neg hstop]
    rfl
  | succ j ih =>
    intro i fuel hij hfuel
    obtain ⟨fuel, rfl⟩ : ∃ f, fuel = f + 1 := ⟨fuel - 1, by omega⟩
    rw [totalSizeLoop_round (by omega) (by rw [hhead]; exact Nat.pow_le_pow_right (by omega) (by omega))]
    exact ih (i + 1) fuel (by omega) (by omega)

/-- In the release build the doubled size becomes 0, and the loop goes on for ever. -/
theorem totalSizeLoop_zero (headSize : UInt32) : ∀ fuel total,
    totalSizeLoop .release headSize fuel total 0 = .error .hang := by
  intro fuel
  induction fuel with
  | zero => intro total; rfl
  | succ fuel ih =>
    intro total
    rw [totalSizeLoop, if_pos UInt32.zero_le]
    exact ih _

/-- With a head of `2 ^ 31` slots the debug build panics in the last round, and the release build never
stops, whatever the fuel. -/
theorem totalSizeLoop_max : ∀ j i fuel, i + j = 31 →
    ∃ fault, totalSizeLoop build maxBlockSize fuel (UInt32.ofNat (2 ^ i - 1)) (UInt32.ofNat (2 ^ i)) =
      .error fault := by
  intro j
  induction j with
  | zero =>
    intro i fuel hij
    obtain rfl : i = 31 := by omega
    cases fuel with
    | zero => exact ⟨_, rfl⟩
    | succ fuel =>
      cases build with
      | debug => exact ⟨.overflow "attempt to multiply with overflow", rfl⟩
      | release => exact ⟨.hang, totalSizeLoop_zero maxBlockSize fuel _⟩
  | succ j ih =>
    intro i fuel hij
    cases fuel with
    | zero => exact ⟨_, rfl⟩
    | succ fuel =>
      have hle : 2 ^ i ≤ 2 ^ 31 := Nat.pow_le_pow_right (by omega) (by omega)
      rw [totalSizeLoop_round (by omega) hle]
      exact ih (i + 1) fuel (by omega)

theorem headSizeToTotalSize_max (build : Build) :
    ∃ fault, headSizeToTotalSize build maxBlockSize = .error fault :=
  totalSizeLoop_max 31 0 64 rfl

theorem headSizeToTotalSize_zero : headSizeToTotalSize build 0 = .ok 0 := by
  cases build <;> rfl

/-- `head_size_to_total_size` gives the number of slots of a chain of fewer than 32 blocks. -/
theorem headSizeToTotalSize_eq (build : Build) {blocks : List UInt32} (hd : Doubling blocks)
    (hlen : blocks.length ≤ 31) :
    headSizeToTotalSize build (blocks.headD 0) = .ok (UInt32.ofNat (blocks.map UInt32.toNat).sum) := by
  cases blocks with
  | nil => exact headSizeToTotalSize_zero
  | cons len older =>
    rw [List.length_cons] at hlen
    have hsum := sum_doubling hd (by rw [List.length_cons]; omega)
    rw [List.length_cons] at hsum
    have hsum' : ((len :: older).map UInt32.toNat).sum = 2 ^ (older.length + 1) - 1 := by omega
    rw [hsum']
    exact totalSizeLoop_eq (by omega) (head_toNat hd (by omega)) (older.length + 1) 0 64 (by omega)
      (by omega)

/-! ## The capacity of one bucket -/

theorem toNat_ofNat_of_lt {n : ℕ} (h : n < 2 ^ 32) : (UInt32.ofNat n).toNat = n := by
  rw [UInt32.toNat_ofNat']
  exact Nat.mod_eq_of_lt h

/-- A slot has been touched unless it is one of the last of the head. -/
theorem touched_add_unused {inner : Inner} (hle : inner.nextUnusedSlot.toNat ≤ inner.headSize.toNat) :
    inner.touched.length + (inner.headSize.toNat - inner.nextUnusedSlot.toNat) = inner.allocated := by
  obtain ⟨blocks, n⟩ := inner
  cases blocks with
  | nil =>
    show 0 + (0 - n.toNat) = 0
    omega
  | cons len older =>
    have hle' : n.toNat ≤ len.toNat := hle
    have hmin : (min n len).toNat = n.toNat := by
      rw [toNat_min]
      exact Nat.min_eq_left hle'
    show (touchedFrom (len :: older) (min n len)).length + (len.toNat - n.toNat) =
      (List.map UInt32.toNat (len :: older)).sum
    rw [length_touchedFrom, hmin, List.map_cons, List.sum_cons]
    omega

/-- With 32 blocks or more `head_size_to_total_size` does not give the total. -/
theorem length_lt_of_total {inner : Inner} (hd : Doubling inner.blocks) {total : UInt32}
    (htotal : headSizeToTotalSize build inner.headSize = .ok total)
    (heq : total.toNat = inner.allocated) : inner.blocks.length < 32 := by
  obtain ⟨blocks, n⟩ := inner
  cases blocks with
  | nil => exact Nat.zero_lt_succ 31
  | cons len older =>
    by_contra hn
    replace htotal : headSizeToTotalSize build len = .ok total := htotal
    replace hn : 31 ≤ older.length := by
      simp only [List.length_cons] at hn
      omega
    rcases Nat.eq_or_lt_of_le hn with hmax | hgt
    · have hlen : len = maxBlockSize := by
        rw [hd.1, ← hmax]
        rfl
      subst hlen
      obtain ⟨fault, hfault⟩ := headSizeToTotalSize_max build
      cases hfault.symm.trans htotal
    · have hzero : len = 0 := by
        rw [hd.1, ← UInt32.toNat_inj, UInt32.toNat_ofNat']
        exact Nat.mod_eq_zero_of_dvd (Nat.pow_dvd_pow 2 (by omega))
      subst hzero
      cases headSizeToTotalSize_zero.symm.trans htotal
      have hpos := sum_pos hd.2 (by rintro rfl; simp at hgt)
      have hsum : (0 : UInt32).toNat = (0 : UInt32).toNat + (older.map UInt32.toNat).sum := heq
      omega

/-- With fewer than 32 blocks the head is not the largest one. -/
theorem headSize_lt {inner : Inner} (hd : Doubling inner.blocks) (hlen : inner.blocks.length ≤ 31) :
    inner.headSize.toNat < 2 ^ 31 := by
  unfold Inner.headSize
  generalize inner.blocks = blocks at hd hlen
  cases blocks with
  | nil => exact Nat.two_pow_pos 31
  | cons len older =>
    rw [List.length_cons] at hlen
    show len.toNat < 2 ^ 31
    rw [head_toNat hd (by omega)]
    exact Nat.pow_lt_pow_right (by omega) (by omega)

theorem allocated_lt {inner : Inner} (hd : Doubling inner.blocks) (hlen : inner.blocks.length ≤ 31) :
    inner.allocated < 2 ^ 31 := by
  have hsum := sum_doubling hd (by omega)
  have hpow : 2 ^ inner.blocks.length ≤ 2 ^ 31 := Nat.pow_le_pow_right (by omega) hlen
  unfold Inner.allocated
  omega

/-- The capacity of a bucket whose counter is at most its head. -/
theorem capacity_eq (build : Build) {inner : Inner} (hd : Doubling inner.blocks)
    (hlen : inner.blocks.length ≤ 31) (hle : inner.nextUnusedSlot.toNat ≤ inner.headSize.toNat) :
    capacity build inner.headSize inner.nextUnusedSlot =
      .ok (UInt32.ofNat inner.touched.length, UInt32.ofNat inner.allocated) := by
  have htotal : headSizeToTotalSize build inner.headSize = .ok (UInt32.ofNat inner.allocated) :=
    headSizeToTotalSize_eq build hd hlen
  have hsplit := touched_add_unused hle
  have hlt := allocated_lt hd hlen
  have hallocated : (UInt32.ofNat inner.allocated).toNat = inner.allocated :=
    toNat_ofNat_of_lt (by omega)
  have htouched : (UInt32.ofNat inner.touched.length).toNat = inner.touched.length :=
    toNat_ofNat_of_lt (by omega)
  have hunused : (inner.headSize - inner.nextUnusedSlot).toNat =
      inner.headSize.toNat - inner.nextUnusedSlot.toNat :=
    UInt32.toNat_sub_of_le _ _ (UInt32.le_iff_toNat_le.2 hle)
  have hresult : UInt32.ofNat inner.allocated - (inner.headSize - inner.nextUnusedSlot) =
      UInt32.ofNat inner.touched.length := by
    rw [← UInt32.toNat_inj, UInt32.toNat_sub_of_le _ _ (UInt32.le_iff_toNat_le.2 (by omega)), htouched]
    omega
  unfold capacity
  rw [htotal]
  show (subU32 build inner.headSize inner.nextUnusedSlot >>= _) = _
  rw [subU32_ok build hle]
  show (subU32 build (UInt32.ofNat inner.allocated) (inner.headSize - inner.nextUnusedSlot) >>= _) = _
  rw [subU32_ok build (by omega), hresult]
  rfl

end ReadWriteStore.Bucket

import ReadWriteStore.Bucket.Layout
import Mathlib.Algebra.Order.Ring.Nat
import Mathlib.Data.Nat.Bitwise

/-!
# The layout computed by hand is the one of the compiler

`next_multiple_of` rounds up as `repr(C)` does. As long as the size of the block fits into a `usize`
no step of the computation overflows, and the slots are where the compiler looks for them.
-/

namespace ReadWriteStore.Bucket

/-! ## Rounding up -/

theorem dvd_roundUp (offset align : ℕ) : align ∣ roundUp offset align :=
  Dvd.intro_left _ rfl

theorem le_roundUp (offset : ℕ) {align : ℕ} (ha : 0 < align) : offset ≤ roundUp offset align := by
  have hdiv := Nat.div_add_mod (offset + align - 1) align
  have hmod := Nat.mod_lt (offset + align - 1) ha
  unfold roundUp
  rw [mul_comm]
  omega

theorem roundUp_lt (offset : ℕ) {align : ℕ} (ha : 0 < align) : roundUp offset align < offset + align := by
  have hdiv := Nat.div_add_mod (offset + align - 1) align
  unfold roundUp
  rw [mul_comm]
  omega

/-- No multiple of the alignment lies between an offset and the offset rounded up. -/
theorem roundUp_le {offset align q : ℕ} (ha : 0 < align) (hle : offset ≤ q) (hq : align ∣ q) :
    roundUp offset align ≤ q := by
  by_contra hn
  have hlt := roundUp_lt offset ha
  have hstep : q + align ≤ roundUp offset align := by
    obtain ⟨a, rfl⟩ := hq
    obtain ⟨b, hb⟩ := dvd_roundUp offset align
    rw [hb] at hn ⊢
    have hab : a < b := lt_of_mul_lt_mul_left (not_le.1 hn) (Nat.zero_le _)
    calc align * a + align = align * (a + 1) := (Nat.mul_succ _ _).symm
      _ ≤ align * b := Nat.mul_le_mul_left _ hab
  omega

theorem roundUp_eq {offset align q : ℕ} (ha : 0 < align) (hle : offset ≤ q) (hlt : q < offset + align)
    (hq : align ∣ q) : roundUp offset align = q := by
  refine le_antisymm (roundUp_le ha hle hq) ?_
  by_contra hn
  obtain ⟨a, rfl⟩ := hq
  obtain ⟨b, hb⟩ := dvd_roundUp offset align
  have hge := le_roundUp offset ha
  rw [hb] at hn hge
  have hba : b < a := lt_of_mul_lt_mul_left (not_le.1 hn) (Nat.zero_le _)
  have hstep : align * b + align ≤ align * a := by
    calc align * b + align = align * (b + 1) := (Nat.mul_succ _ _).symm
      _ ≤ align * a := Nat.mul_le_mul_left _ hba
  omega

/-! ## Arithmetic that does not overflow -/

section Usize

variable {build : Build} {bits a b : ℕ}

theorem addUsize_ok (h : a + b < 2 ^ bits) : addUsize build bits a b = .ok (a + b) := by
  rw [addUsize, if_neg (by omega), Nat.mod_eq_of_lt h]

theorem mulUsize_ok (h : a * b < 2 ^ bits) : mulUsize build bits a b = .ok (a * b) := by
  rw [mulUsize, if_neg (by omega), Nat.mod_eq_of_lt h]

theorem nextMultipleOf_ok (hb : 0 < b) (h : roundUp a b < 2 ^ bits) :
    nextMultipleOf build bits a b = .ok (roundUp a b) := by
  have hmod := Nat.mod_lt a hb
  have hdiv := Nat.div_add_mod a b
  unfold nextMultipleOf
  by_cases hz : a % b = 0
  · rw [if_pos hz, roundUp_eq hb le_rfl (by omega) (Nat.dvd_of_mod_eq_zero hz)]
    rfl
  · have hup : roundUp a b = a + (b - a % b) := by
      refine roundUp_eq hb (by omega) (by omega) ⟨a / b + 1, ?_⟩
      rw [Nat.mul_succ]
      omega
    rw [if_neg hz, hup]
    exact addUsize_ok (by rw [← hup]; exact h)

end Usize

theorem Layout.align_pos (layout : Layout) : 0 < layout.align := by
  obtain ⟨k, hk⟩ := layout.align_pow
  rw [hk]
  exact Nat.two_pow_pos k

/-- Of two alignments the larger one is a multiple of the other. -/
theorem dvd_max_align (header slot : Layout) :
    header.align ∣ max header.align slot.align ∧ slot.align ∣ max header.align slot.align := by
  obtain ⟨i, hi⟩ := header.align_pow
  obtain ⟨j, hj⟩ := slot.align_pow
  rw [hi, hj]
  rcases le_total i j with h | h
  · rw [max_eq_right (Nat.pow_le_pow_right (by omega) h)]
    exact ⟨pow_dvd_pow 2 h, dvd_refl _⟩
  · rw [max_eq_left (Nat.pow_le_pow_right (by omega) h)]
    exact ⟨dvd_refl _, pow_dvd_pow 2 h⟩

/-! ## The fields of a block -/

section Block

variable (header slot : Layout) (size : UInt32)

theorem structAlign_block : structAlign (blockFields header slot size) = max header.align slot.align := by
  have hpos := slot.align_pos
  simp only [structAlign, blockFields, List.foldr_cons, List.foldr_nil]
  rw [max_eq_left (show 1 ≤ slot.align from hpos)]

theorem fieldOffsets_block : fieldOffsets 0 (blockFields header slot size) =
    ([0, roundUp header.size slot.align], roundUp header.size slot.align + size.toNat * slot.size) := by
  have hzero : roundUp 0 header.align = 0 :=
    roundUp_eq header.align_pos le_rfl (by have := header.align_pos; omega) (dvd_zero _)
  simp only [blockFields, fieldOffsets, hzero, Nat.zero_add]

theorem structSize_block : structSize (blockFields header slot size) =
    roundUp (roundUp header.size slot.align + size.toNat * slot.size) (max header.align slot.align) := by
  rw [structSize, fieldOffsets_block, structAlign_block]

/-- The block that `Block::new` allocates, for as long as its size fits into a `usize`. -/
theorem blockLayout_eq (build : Build) {bits : ℕ}
    (hfits : structSize (blockFields header slot size) < 2 ^ bits) :
    blockLayout build bits header slot size = .ok
      ⟨roundUp header.size slot.align, structSize (blockFields header slot size),
        structAlign (blockFields header slot size)⟩ := by
  have hpos : 0 < max header.align slot.align := lt_max_of_lt_left header.align_pos
  rw [structSize_block] at hfits ⊢
  rw [structAlign_block]
  have hle := le_roundUp (roundUp header.size slot.align + size.toNat * slot.size) hpos
  have hcomm : slot.size * size.toNat = size.toNat * slot.size := mul_comm _ _
  unfold blockLayout
  rw [mulUsize_ok (by omega), nextMultipleOf_ok slot.align_pos (by omega)]
  show (addUsize build bits _ _ >>= _) = _
  rw [addUsize_ok (by omega), hcomm]
  show (nextMultipleOf build bits _ _ >>= _) = _
  rw [nextMultipleOf_ok hpos hfits]
  rfl

end Block

/-! ## The theorem -/

/-- A block of `size` slots at the address `bytes` is laid out as the compiler expects. -/
structure LaidOut (build : Build) (bits : ℕ) (header slot : Layout) (size : UInt32)
    (layout : BlockLayout) (bytes : ℕ) : Prop where
  /-- The memory is freed with the layout it was allocated with. -/
  size_eq : layout.blockSize = structSize (blockFields header slot size)
  align_eq : layout.blockAlign = structAlign (blockFields header slot size)
  /-- The header is at the start, and the slots where the compiler puts the slice. -/
  offsets : (fieldOffsets 0 (blockFields header slot size)).1 = [0, layout.slotsOffset]
  /-- Every slot is written where the compiler looks for it. -/
  slot_ptr : ∀ i < size.toNat,
    slotPtr build bits slot layout bytes i = .ok (bytes + slotOffset header slot i)
  aligned : ∀ i < size.toNat, slot.align ∣ bytes + slotOffset header slot i
  /-- The slice starts at the least multiple of its alignment behind the header. -/
  least : header.size ≤ layout.slotsOffset ∧ slot.align ∣ layout.slotsOffset ∧
    ∀ q, header.size ≤ q → slot.align ∣ q → layout.slotsOffset ≤ q
  disjoint : ∀ i j, i < j → j < size.toNat →
    slotOffset header slot i + slot.size ≤ slotOffset header slot j
  behind_header : ∀ i < size.toNat, header.size ≤ slotOffset header slot i
  inside : ∀ i < size.toNat, slotOffset header slot i + slot.size ≤ layout.blockSize

/-- The block layout computed by hand agrees with the one of the compiler, for every header and slot
and every length whose total fits into a `usize`, wherever the allocator puts the block. -/
theorem block_layout (build : Build) (bits : ℕ) (header slot : Layout) (size : UInt32)
    (hfits : structSize (blockFields header slot size) < 2 ^ bits) :
    ∃ layout, blockLayout build bits header slot size = .ok layout ∧
      ∀ bytes, layout.blockAlign ∣ bytes → LaidOut build bits header slot size layout bytes := by
  refine ⟨_, blockLayout_eq header slot size build hfits, fun bytes hbytes => ?_⟩
  have hsize := structSize_block header slot size
  have halign := structAlign_block header slot size
  have hend := le_roundUp (roundUp header.size slot.align + size.toNat * slot.size)
    (lt_max_of_lt_left header.align_pos : 0 < max header.align slot.align)
  have hinside : ∀ i < size.toNat,
      slotOffset header slot i + slot.size ≤ structSize (blockFields header slot size) := by
    intro i hi
    have hmul : (i + 1) * slot.size ≤ size.toNat * slot.size := Nat.mul_le_mul_right _ hi
    rw [Nat.succ_mul] at hmul
    unfold slotOffset
    omega
  refine ⟨rfl, rfl, by rw [fieldOffsets_block], fun i hi => ?_, fun i hi => ?_, ?_, fun i j hij hj => ?_,
    fun i hi => ?_, hinside⟩
  · have hle := hinside i hi
    have hcomm : slot.size * i = i * slot.size := mul_comm _ _
    unfold slotPtr
    unfold slotOffset at hle ⊢
    rw [mulUsize_ok (by omega), hcomm, ← Nat.add_assoc]
    rfl
  · have hb : slot.align ∣ bytes := dvd_trans (by rw [halign]; exact (dvd_max_align header slot).2) hbytes
    unfold slotOffset
    exact Nat.dvd_add hb (Nat.dvd_add (dvd_roundUp _ _) (Dvd.dvd.mul_left slot.align_dvd i))
  · exact ⟨le_roundUp _ slot.align_pos, dvd_roundUp _ _, fun q hle hq => roundUp_le slot.align_pos hle hq⟩
  · have hmul : (i + 1) * slot.size ≤ j * slot.size := Nat.mul_le_mul_right _ hij
    rw [Nat.succ_mul] at hmul
    unfold slotOffset
    omega
  · have hle := le_roundUp header.size slot.align_pos
    unfold slotOffset
    omega

/-- A block of four slots that are more strictly aligned than the header. -/
theorem block_layout_overaligned :
    ∃ layout, blockLayout .debug 64 ⟨24, 8, ⟨3, rfl⟩, by decide⟩ ⟨64, 32, ⟨5, rfl⟩, by decide⟩ 4
        = .ok layout ∧
      ∀ bytes, layout.blockAlign ∣ bytes →
        LaidOut .debug 64 ⟨24, 8, ⟨3, rfl⟩, by decide⟩ ⟨64, 32, ⟨5, rfl⟩, by decide⟩ 4 layout bytes :=
  block_layout .debug 64 ⟨24, 8, ⟨3, rfl⟩, by decide⟩ ⟨64, 32, ⟨5, rfl⟩, by decide⟩ 4 (by decide)

end ReadWriteStore.Bucket

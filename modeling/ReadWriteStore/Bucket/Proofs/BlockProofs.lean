import ReadWriteStore.Bucket.Machine
import Mathlib.Data.Fintype.EquivFin
import Mathlib.Data.Nat.Bitwise
import Mathlib.Data.Nat.ModEq

/-!
# The chain of a bucket and the slots it has handed out

Scrambling permutes the slots of a block. A chain doubles from block to block, and `HandedOut` reads
off the counter which of its slots have been handed out: adding one to the counter hands out a new
slot while the head has one left, and a full head stays handed out when the chain grows.
-/

namespace ReadWriteStore.Bucket

/-! ## Scrambling -/

theorem physicalSlot_toNat {len : UInt32} {k : ℕ} (hlen : len.toNat = 2 ^ k) (slot : UInt32) :
    (physicalSlot len slot).toNat = slot.toNat * 3 % 2 ^ k := by
  have hk : k < 32 := by
    have hlt := len.toNat_lt
    rw [hlen] at hlt
    exact (Nat.pow_lt_pow_iff_right (by omega)).1 hlt
  have hpos : 1 ≤ len.toNat := by rw [hlen]; exact Nat.one_le_two_pow
  have hsub : (len - 1).toNat = 2 ^ k - 1 := by
    rw [UInt32.toNat_sub_of_le _ _ (by rw [UInt32.le_iff_toNat_le]; exact hpos), hlen]
    rfl
  have hslot := slot.toNat_lt
  have hmul : (slot.toUInt64 * 3).toNat = slot.toNat * 3 := by
    rw [UInt64.toNat_mul, UInt32.toNat_toUInt64]
    show slot.toNat * 3 % 2 ^ 64 = _
    omega
  unfold physicalSlot
  rw [UInt32.toNat_and, hsub, Nat.and_two_pow_sub_one_eq_mod, UInt64.toNat_toUInt32, hmul]
  exact Nat.mod_mod_of_dvd _ (pow_dvd_pow 2 hk.le)

theorem physicalSlot_lt {len : UInt32} {k : ℕ} (hlen : len.toNat = 2 ^ k) (slot : UInt32) :
    physicalSlot len slot < len := by
  rw [UInt32.lt_iff_toNat_lt, physicalSlot_toNat hlen, hlen]
  exact Nat.mod_lt _ (Nat.two_pow_pos k)

/-- Slots of a block are mapped to different slots. -/
theorem physicalSlot_inj {len slot slot' : UInt32} {k : ℕ} (hlen : len.toNat = 2 ^ k)
    (hs : slot < len) (hs' : slot' < len) (h : physicalSlot len slot = physicalSlot len slot') :
    slot = slot' := by
  rw [UInt32.lt_iff_toNat_lt, hlen] at hs hs'
  rw [← UInt32.toNat_inj, physicalSlot_toNat hlen, physicalSlot_toNat hlen] at h
  have hco : Nat.gcd (2 ^ k) 3 = 1 := Nat.Coprime.pow_left k (by decide)
  have hmod : slot.toNat ≡ slot'.toNat [MOD 2 ^ k] := Nat.ModEq.cancel_right_of_coprime hco h
  rw [← UInt32.toNat_inj]
  exact Nat.ModEq.eq_of_lt_of_lt hmod hs hs'

/-- Every slot of a block is the image of one. -/
theorem physicalSlot_surj {len slot : UInt32} {k : ℕ} (hlen : len.toNat = 2 ^ k) (hs : slot < len) :
    ∃ slot' < len, physicalSlot len slot' = slot := by
  have hlt : ∀ i : Fin len.toNat, (UInt32.ofNat i.val).toNat = i.val := by
    intro i
    have := len.toNat_lt
    have := i.isLt
    rw [UInt32.toNat_ofNat']
    omega
  let f : Fin len.toNat → Fin len.toNat := fun i =>
    ⟨(physicalSlot len (UInt32.ofNat i.val)).toNat, (physicalSlot_lt hlen _)⟩
  have hinj : Function.Injective f := by
    intro i j hij
    have hval : (physicalSlot len (UInt32.ofNat i.val)).toNat
        = (physicalSlot len (UInt32.ofNat j.val)).toNat := by
      have hf : (f i).val = (f j).val := by rw [hij]
      exact hf
    have hu := physicalSlot_inj hlen (by rw [UInt32.lt_iff_toNat_lt, hlt]; exact i.isLt)
      (by rw [UInt32.lt_iff_toNat_lt, hlt]; exact j.isLt) (UInt32.toNat_inj.1 hval)
    apply Fin.ext
    rw [← hlt i, ← hlt j, hu]
  obtain ⟨i, hi⟩ := (Finite.injective_iff_surjective.1 hinj) ⟨slot.toNat, UInt32.lt_iff_toNat_lt.1 hs⟩
  have hval : (physicalSlot len (UInt32.ofNat i.val)).toNat = slot.toNat := by
    have hf : (f i).val = slot.toNat := by rw [hi]
    exact hf
  refine ⟨UInt32.ofNat i.val, ?_, UInt32.toNat_inj.1 hval⟩
  rw [UInt32.lt_iff_toNat_lt, hlt]
  exact i.isLt

theorem scrambleSlot_eq (build : Build) {len : UInt32} {k : ℕ} (hlen : len.toNat = 2 ^ k) (slot : UInt32) :
    scrambleSlot build len slot = .ok (physicalSlot len slot) := by
  have hone : (1 : UInt32).toNat ≤ len.toNat := by
    rw [hlen]
    exact Nat.one_le_two_pow
  unfold scrambleSlot
  rw [subU32_ok build hone]
  rfl

theorem slotAddress_eq (build : Build) (block : ℕ) {len : UInt32} {k : ℕ} (hlen : len.toNat = 2 ^ k)
    (slot : UInt32) : slotAddress build block len slot = .ok ⟨block, physicalSlot len slot⟩ := by
  unfold slotAddress
  rw [scrambleSlot_eq build hlen]
  show (checkIndex build len _ >>= _) = _
  rw [checkIndex_ok build (physicalSlot_lt hlen slot)]
  rfl

/-! ## The chain -/

/-- A block that has a slot has a length that is a power of two. -/
theorem Doubling.head {len : UInt32} {older : List UInt32} (h : Doubling (len :: older)) {slot : UInt32}
    (hs : slot < len) : len.toNat = 2 ^ older.length := by
  have hlen := h.1
  have hpos : 0 < len.toNat := lt_of_le_of_lt (Nat.zero_le _) (UInt32.lt_iff_toNat_lt.1 hs)
  rw [hlen, UInt32.toNat_ofNat'] at hpos ⊢
  rcases Nat.lt_or_ge older.length 32 with hlt | hge
  · exact Nat.mod_eq_of_lt (Nat.pow_lt_pow_right (by omega) hlt)
  · rw [Nat.mod_eq_zero_of_dvd (pow_dvd_pow 2 hge)] at hpos
    omega

namespace Inner

variable {inner : Inner} {location : Location}

theorem blockLen_cons (len : UInt32) (older : List UInt32) (n n' : UInt32) {block : ℕ} :
    (⟨len :: older, n⟩ : Inner).blockLen block =
      if block = older.length then some len else (⟨older, n'⟩ : Inner).blockLen block := by
  unfold blockLen
  rw [List.reverse_cons]
  split
  · rename_i he
    rw [List.getElem?_append_right (by simp [he])]
    simp [he]
  · rename_i he
    rcases Nat.lt_or_ge block older.length with hlt | hge
    · rw [List.getElem?_append_left (by simpa using hlt)]
    · rw [List.getElem?_eq_none (by simp; omega), List.getElem?_eq_none (by simp; omega)]

theorem mem_locations : location ∈ inner.locations ↔ inner.Contains location := by
  obtain ⟨block, slot⟩ := location
  unfold locations Contains blockLen
  constructor
  · intro h
    obtain ⟨⟨len, b⟩, hmem, hslot⟩ := List.mem_flatMap.1 h
    obtain ⟨i, hi, he⟩ := List.mem_map.1 hslot
    rw [List.mem_range] at hi
    have hget := List.mem_zipIdx_iff_getElem?.1 hmem
    cases he
    refine ⟨len, hget, ?_⟩
    have := len.toNat_lt
    rw [UInt32.lt_iff_toNat_lt, UInt32.toNat_ofNat']
    omega
  · rintro ⟨len, hlen, hlt⟩
    refine List.mem_flatMap.2 ⟨(len, block), List.mem_zipIdx_iff_getElem?.2 hlen, ?_⟩
    refine List.mem_map.2 ⟨slot.toNat, List.mem_range.2 (UInt32.lt_iff_toNat_lt.1 hlt), ?_⟩
    rw [UInt32.ofNat_toNat]

theorem blockLen_head (len : UInt32) (older : List UInt32) (n : UInt32) :
    (⟨len :: older, n⟩ : Inner).blockLen older.length = some len := by
  rw [blockLen_cons _ _ _ n, if_pos rfl]

theorem blockLen_lt {block : ℕ} {len : UInt32} (h : inner.blockLen block = some len) :
    block < inner.blocks.length := by
  obtain ⟨hlt, -⟩ := List.getElem?_eq_some_iff.1 h
  simpa using hlt

/-- A new head leaves the locations behind it. -/
theorem contains_cons {len : UInt32} {older : List UInt32} {n : UInt32} (n' : UInt32) :
    (⟨len :: older, n⟩ : Inner).Contains location ↔
      location.block = older.length ∧ location.slot < len ∨
        (⟨older, n'⟩ : Inner).Contains location := by
  unfold Contains
  rw [blockLen_cons len older n n']
  constructor
  · rintro ⟨len', hlen, hlt⟩
    split at hlen
    · rename_i he
      cases hlen
      exact Or.inl ⟨he, hlt⟩
    · exact Or.inr ⟨len', hlen, hlt⟩
  · rintro (⟨he, hlt⟩ | ⟨len', hlen, hlt⟩)
    · exact ⟨len, by rw [if_pos he], hlt⟩
    · have hne : location.block ≠ older.length := ne_of_lt (blockLen_lt hlen)
      exact ⟨len', by rw [if_neg hne]; exact hlen, hlt⟩

/-! ## Adding one to the counter -/

/-- The fate of a `fetch_add` that does not wrap. -/
inductive Fetched (inner : Inner) : Inner × Checked (Option Location) → Prop
  /-- There is no head, or it is full. -/
  | full {inner' : Inner} (hblocks : inner'.blocks = inner.blocks)
      (hout : ∀ location, inner'.HandedOut location ↔ inner.HandedOut location)
      (hfull : inner'.headSize ≤ inner'.nextUnusedSlot) : Fetched inner (inner', .ok none)
  /-- The head has a slot left. -/
  | slot {inner' : Inner} {location : Location} (hblocks : inner'.blocks = inner.blocks)
      (hfresh : ¬inner.HandedOut location)
      (hout : ∀ location', inner'.HandedOut location' ↔
        inner.HandedOut location' ∨ location' = location) :
      Fetched inner (inner', .ok (some location))

theorem lt_succ_iff {a n : UInt32} (hn : n ≠ 0xFFFFFFFF) : a < n + 1 ↔ a < n ∨ a = n := by
  have hlt := n.toNat_lt
  have hne : n.toNat ≠ 2 ^ 32 - 1 := fun h => hn (UInt32.toNat_inj.1 h)
  rw [UInt32.lt_iff_toNat_lt, UInt32.lt_iff_toNat_lt, ← UInt32.toNat_inj, UInt32.toNat_add]
  show a.toNat < (n.toNat + 1) % 2 ^ 32 ↔ _
  omega

theorem fetched (build : Build) (hd : Doubling inner.blocks)
    (hwrap : inner.blocks = [] ∨ inner.nextUnusedSlot ≠ 0xFFFFFFFF) :
    Fetched inner (inner.nextInsertLocation build) := by
  obtain ⟨blocks, n⟩ := inner
  cases blocks with
  | nil => exact .full rfl (fun _ => Iff.rfl) (by simp [headSize])
  | cons len older =>
    have hn : n ≠ 0xFFFFFFFF := by
      rcases hwrap with h | h
      · cases h
      · exact h
    -- the head of both chains is full up to the counter
    have hout : ∀ location, (⟨len :: older, n + 1⟩ : Inner).HandedOut location ↔
        (⟨len :: older, n⟩ : Inner).HandedOut location ∨
          (location.block = older.length ∧ n < len ∧ physicalSlot len n = location.slot) := by
      intro location
      have hhead : location.block + 1 = (len :: older).length ↔ location.block = older.length := by simp
      unfold HandedOut
      simp only [headSize, List.headD_cons, hhead]
      constructor
      · rintro ⟨hc, hslot⟩
        by_cases hb : location.block = older.length
        · obtain ⟨slot, hlt, hlen, hp⟩ := hslot hb
          rcases (lt_succ_iff hn).1 hlt with h | rfl
          · exact Or.inl ⟨hc, fun _ => ⟨slot, h, hlen, hp⟩⟩
          · exact Or.inr ⟨hb, hlen, hp⟩
        · exact Or.inl ⟨hc, fun h => absurd h hb⟩
      · rintro (⟨hc, hslot⟩ | ⟨hb, hlen, hp⟩)
        · refine ⟨hc, fun hb => ?_⟩
          obtain ⟨slot, hlt, h⟩ := hslot hb
          exact ⟨slot, (lt_succ_iff hn).2 (Or.inl hlt), h⟩
        · refine ⟨?_, fun _ => ⟨n, (lt_succ_iff hn).2 (Or.inr rfl), hlen, hp⟩⟩
          refine (contains_cons n).2 (Or.inl ⟨hb, ?_⟩)
          rw [← hp]
          exact physicalSlot_lt (hd.head hlen) n
    unfold nextInsertLocation
    by_cases hlt : n < len
    · simp only [if_pos hlt, slotAddress_eq build older.length (hd.head hlt)]
      refine .slot rfl ?_ fun location' => ?_
      · rintro ⟨-, hslot⟩
        obtain ⟨slot, hs, hlen, hp⟩ := hslot (by simp)
        have he := physicalSlot_inj (hd.head hlt) hlen hlt hp
        rw [he] at hs
        exact UInt32.lt_irrefl _ hs
      · rw [hout]
        refine or_congr Iff.rfl ⟨?_, ?_⟩
        · rintro ⟨hb, -, hp⟩
          rw [hp, ← hb]
        · rintro rfl
          exact ⟨rfl, hlt, rfl⟩
    · simp only [if_neg hlt]
      refine .full rfl (fun location => ?_) ?_
      · rw [hout]
        exact ⟨fun h => h.resolve_right fun h => hlt h.2.1, Or.inl⟩
      · show len ≤ n + 1
        rw [UInt32.not_lt, UInt32.le_iff_toNat_le] at hlt
        have hlt' := n.toNat_lt
        have hne : n.toNat ≠ 2 ^ 32 - 1 := fun h => hn (UInt32.toNat_inj.1 h)
        rw [UInt32.le_iff_toNat_le, UInt32.toNat_add]
        show len.toNat ≤ (n.toNat + 1) % 2 ^ 32
        omega

/-! ## Growing -/

/-- The chains that a build makes: the debug build panics where the release build overflows. -/
def Chain (build : Build) (inner : Inner) : Prop :=
  Doubling inner.blocks ∧ (build = .debug → inner.blocks.length ≤ 32)

inductive Expanded (build : Build) (inner : Inner) : Inner × Checked Unit → Prop
  | grown {inner' : Inner} (hchain : inner'.Chain build) (hnext : inner'.nextUnusedSlot = 0)
      (hblocks : inner'.blocks = UInt32.ofNat (2 ^ inner.blocks.length) :: inner.blocks)
      (hout : ∀ location, inner'.HandedOut location ↔ inner.HandedOut location) :
      Expanded build inner (inner', .ok ())
  | panicked (hbuild : build = .debug) (hlen : inner.blocks.length = 32) :
      Expanded build inner (inner, .error (.overflow "attempt to multiply with overflow"))

theorem ofNat_two_pow_succ (n : ℕ) : UInt32.ofNat (2 ^ n) * resizeFactor = UInt32.ofNat (2 ^ (n + 1)) := by
  rw [← UInt32.toNat_inj, UInt32.toNat_mul, UInt32.toNat_ofNat', UInt32.toNat_ofNat', pow_succ]
  show 2 ^ n % 2 ^ 32 * 2 % 2 ^ 32 = _
  omega

theorem isPowerOfTwo_ofNat : ∀ n < 32,
    (UInt32.ofNat (2 ^ n) != 0) = true ∧ isPowerOfTwo (UInt32.ofNat (2 ^ n)) = true := by
  decide

/-- Before and after the growth of a full chain the same slots have been handed out. -/
theorem handedOut_grow (hd : Doubling inner.blocks) (hfull : inner.headSize ≤ inner.nextUnusedSlot)
    (len : UInt32) : (⟨len :: inner.blocks, 0⟩ : Inner).HandedOut location ↔ inner.HandedOut location := by
  obtain ⟨blocks, n⟩ := inner
  unfold HandedOut
  rw [contains_cons n]
  constructor
  · rintro ⟨hc, hslot⟩
    have hne : location.block ≠ blocks.length := by
      intro he
      obtain ⟨slot, hlt, -⟩ := hslot (by simp [he])
      exact UInt32.not_lt_zero hlt
    have hold := hc.resolve_left fun h => hne h.1
    refine ⟨hold, fun hb => ?_⟩
    cases blocks with
    | nil =>
      obtain ⟨len', hlen, -⟩ := hold
      cases hlen
    | cons head older =>
      have hlt : location.slot < head := by
        obtain ⟨len', hlen, hlt⟩ := hold
        have hbe : location.block = older.length := by simpa using hb
        rw [hbe, blockLen_head] at hlen
        cases hlen
        exact hlt
      obtain ⟨slot, hs, hp⟩ := physicalSlot_surj (hd.head hlt) hlt
      exact ⟨slot, UInt32.lt_of_lt_of_le hs hfull, hs, hp⟩
  · rintro ⟨hc, -⟩
    refine ⟨Or.inr hc, fun hb => ?_⟩
    obtain ⟨len', hlen, -⟩ := hc
    have hlt : location.block < blocks.length := blockLen_lt hlen
    simp at hb
    omega

theorem expanded {build : Build} (hc : inner.Chain build)
    (hfull : inner.headSize ≤ inner.nextUnusedSlot) : Expanded build inner (inner.expand build) := by
  obtain ⟨blocks, n⟩ := inner
  obtain ⟨hd, hlen⟩ := hc
  have hgrow : ∀ size : UInt32, size = UInt32.ofNat (2 ^ blocks.length) →
      (build = .debug → blocks.length < 32) →
      newBlock build size = .ok size ∧
        Expanded build ⟨blocks, n⟩ (⟨size :: blocks, 0⟩, .ok ()) := by
    rintro _ rfl hb
    refine ⟨?_, .grown ⟨⟨rfl, hd⟩, fun h => ?_⟩ rfl rfl fun _ => handedOut_grow hd hfull _⟩
    · cases build with
      | debug =>
        obtain ⟨hne, hpow⟩ := isPowerOfTwo_ofNat _ (hb rfl)
        simp only [newBlock, hne, hpow, debugAssert_true]
        rfl
      | release => rfl
    · exact hb h
  cases blocks with
  | nil =>
    obtain ⟨hnew, hexp⟩ := hgrow initialBlockSize rfl fun _ => by simp
    unfold expand
    simp only [hnew]
    exact hexp
  | cons len older =>
    unfold expand
    by_cases hover : build = .debug ∧ 2 ^ 32 ≤ len.toNat * resizeFactor.toNat
    · simp only [mulU32, if_pos hover]
      refine .panicked hover.1 ?_
      have hle := hlen hover.1
      have htwo : len.toNat ≤ 2 ^ older.length := by
        rw [hd.1, UInt32.toNat_ofNat']
        exact Nat.mod_le _ _
      have hbig : 2 ^ 31 ≤ 2 ^ older.length := by
        have h2 : 2 ^ 32 ≤ len.toNat * 2 := hover.2
        omega
      have hge := (Nat.pow_le_pow_iff_right (by omega)).1 hbig
      simp only [List.length_cons] at hle ⊢
      omega
    · have hsize : len * resizeFactor = UInt32.ofNat (2 ^ (len :: older).length) := by
        rw [hd.1]
        exact ofNat_two_pow_succ _
      obtain ⟨hnew, hexp⟩ := hgrow _ hsize fun hb => by
        by_contra hn
        refine hover ⟨hb, ?_⟩
        have hle := hlen hb
        have holder : older.length = 31 := by
          simp only [List.length_cons] at hn hle
          omega
        rw [hd.1, holder]
        decide
      simp only [mulU32, if_neg hover, hnew]
      exact hexp

end Inner

end ReadWriteStore.Bucket

import ReadWriteStore.Bucket.Proofs.BlockProofs
import ReadWriteStore.Store.Block
import ReadWriteStore.Store.Iter

/-!
# Scrambling is a permutation

Three is odd, so multiplying by it permutes the slots of a block whose length is a power of two. The
methods that take a logical slot all go through this permutation, and so do the iterators.
-/

namespace ReadWriteStore.Store

namespace Block

variable {T E : Type} {build : Build} {block : Block} {k : ℕ}

theorem slotAddress_eq (build : Build) (hlen : block.len.toNat = 2 ^ k) (slot : UInt32) :
    block.slotAddress build slot = .ok (block.address (Bucket.physicalSlot block.len slot)) := by
  unfold slotAddress
  rw [Bucket.scrambleSlot_eq build hlen]
  show (checkIndex build block.len _ >>= _) = _
  rw [checkIndex_ok build (Bucket.physicalSlot_lt hlen slot)]
  rfl

theorem take_eq (build : Build) (hlen : block.len.toNat = 2 ^ k) (slot : UInt32)
    (slots : SlotAddress → Slot T E) :
    block.take build slot slots = (do
      let address := block.address (Bucket.physicalSlot block.len slot)
      let (left, contents) ← (slots address).take build
      return (Function.update slots address left,
        contents.map fun (ordinal, element) => (⟨ordinal, address, block.storeId⟩, element))) := by
  unfold take
  rw [Bucket.scrambleSlot_eq build hlen]
  show (checkIndex build block.len _ >>= _) = _
  rw [checkIndex_ok build (Bucket.physicalSlot_lt hlen slot)]
  rfl

theorem slotContents_eq (build : Build) (hlen : block.len.toNat = 2 ^ k) (slot : UInt32)
    (slots : SlotAddress → Slot T E) :
    block.slotContents build slot slots = (do
      let address := block.address (Bucket.physicalSlot block.len slot)
      let contents ← (slots address).contents build
      return contents.map fun (ordinal, element) => (⟨ordinal, address, block.storeId⟩, element)) := by
  unfold slotContents
  rw [Bucket.scrambleSlot_eq build hlen]
  show (checkIndex build block.len _ >>= _) = _
  rw [checkIndex_ok build (Bucket.physicalSlot_lt hlen slot)]
  rfl

/-- `scramble_slot` permutes the slots of every block whose length is a power of two. -/
theorem scrambles (build : Build) (block : Block) (T E : Type)
    (hlen : ∃ k, block.len.toNat = 2 ^ k) : block.Scrambles build T E := by
  obtain ⟨k, hlen⟩ := hlen
  have hscramble := Bucket.scrambleSlot_eq build hlen
  have haddress := slotAddress_eq build hlen
  constructor
  · intro slot _
    exact ⟨_, Bucket.physicalSlot_lt hlen slot, hscramble slot⟩
  · intro slot hs slot' hs' heq
    rw [hscramble, hscramble] at heq
    exact Bucket.physicalSlot_inj hlen hs hs' (Except.ok.inj heq)
  · intro physical hphysical
    obtain ⟨slot, hs, rfl⟩ := Bucket.physicalSlot_surj hlen hphysical
    refine ⟨slot, ⟨hs, haddress slot⟩, ?_⟩
    rintro slot' ⟨hs', heq⟩
    rw [haddress] at heq
    have hsame := congrArg (fun address => address.location.slot) (Except.ok.inj heq)
    exact Bucket.physicalSlot_inj hlen hs' hs hsame
  · intro slot _
    exact ⟨_, haddress slot, take_eq build hlen slot⟩
  · intro slot _
    exact ⟨_, haddress slot, slotContents_eq build hlen slot⟩

/-- The block of `2 ^ 31` slots, where three times a slot no longer fits in 32 bits. -/
theorem scrambles_largest : Scrambles .debug ⟨0, 31, 2 ^ 31, 0⟩ (Fin 2) ℕ :=
  scrambles .debug ⟨0, 31, 2 ^ 31, 0⟩ (Fin 2) ℕ ⟨31, by decide⟩

/-! ## The trackers -/

/-- `MutBlockTracker` visits a logical slot through `slot_contents`. -/
theorem mutTracker_visit (hlen : block.len.toNat = 2 ^ k) (slot : UInt32) (slots : SlotAddress → Slot T E) :
    (do
      let location ← Bucket.slotAddress build block.number block.len slot
      (mutTracker build block.storeId).visit ⟨block.bucket, location⟩ slots) = (do
      let item ← block.slotContents build slot slots
      return (item, slots)) := by
  rw [Bucket.slotAddress_eq build block.number hlen, slotContents_eq build hlen]
  dsimp only
  generalize hslot : Bucket.physicalSlot block.len slot = physical
  show ((slots (block.address physical)).contents build >>= _) = _
  cases (slots (block.address physical)).contents build with
  | error fault => rfl
  | ok contents => cases contents <;> rfl

/-- `OwnedBlockTracker` visits a logical slot through `take`. -/
theorem ownedTracker_visit (payloadOffset : ℕ) (hlen : block.len.toNat = 2 ^ k) (slot : UInt32)
    (remains : Remains T E) :
    (do
      let location ← Bucket.slotAddress build block.number block.len slot
      (ownedTracker build payloadOffset block.storeId).visit ⟨block.bucket, location⟩ remains) = (do
      let (slots, item) ← block.take build slot remains.slot
      return (item, { remains with slot := slots })) := by
  rw [Bucket.slotAddress_eq build block.number hlen, take_eq build hlen]
  dsimp only
  generalize hslot : Bucket.physicalSlot block.len slot = physical
  show ((remains.slot (block.address physical)).take build >>= _) = _
  cases (remains.slot (block.address physical)).take build with
  | error fault => rfl
  | ok result =>
    obtain ⟨left, contents⟩ := result
    cases contents <;> rfl

end Block

end ReadWriteStore.Store

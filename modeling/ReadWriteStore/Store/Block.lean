import ReadWriteStore.Bucket.Block
import ReadWriteStore.Store.Slot

/-!
# Blocks as arrays of slots

The methods of `Block` that take a logical slot: each of them scrambles it and indexes the slots.
-/

namespace ReadWriteStore.Store

/-- `Block`: where it is, the number of its slots, and the store ID in its header. -/
structure Block where
  bucket : Fin bucketCount
  number : ℕ
  len : UInt32
  storeId : UInt64
  deriving DecidableEq, Repr

namespace Block

variable {T E : Type}

/-- `&self.slots[slot]`. -/
def address (block : Block) (slot : UInt32) : SlotAddress := ⟨block.bucket, block.number, slot⟩

/-- `Block::slot_address`. -/
def slotAddress (build : Build) (block : Block) (slot : UInt32) : Checked SlotAddress := do
  let slot ← Bucket.scrambleSlot build block.len slot
  checkIndex build block.len slot
  return block.address slot

/-- `Block::take`: the slots it leaves, and the ID and the element. -/
def take (build : Build) (block : Block) (slot : UInt32) (slots : SlotAddress → Slot T E) :
    Checked ((SlotAddress → Slot T E) × Option (Id × E)) := do
  let slot ← Bucket.scrambleSlot build block.len slot
  checkIndex build block.len slot
  let (left, contents) ← (slots (block.address slot)).take build
  let contents := contents.map fun (ordinal, element) =>
    ((⟨ordinal, block.address slot, block.storeId⟩ : Id), element)
  return (Function.update slots (block.address slot) left, contents)

/-- `Block::slot_contents`. -/
def slotContents (build : Build) (block : Block) (slot : UInt32) (slots : SlotAddress → Slot T E) :
    Checked (Option (Id × E)) := do
  let slot ← Bucket.scrambleSlot build block.len slot
  checkIndex build block.len slot
  let contents ← (slots (block.address slot)).contents build
  return contents.map fun (ordinal, element) =>
    ((⟨ordinal, block.address slot, block.storeId⟩ : Id), element)

/-- The scrambling goes through every slot of the block once, and the iterators follow it. -/
structure Scrambles (build : Build) (block : Block) (T E : Type) : Prop where
  below : ∀ slot < block.len, ∃ physical < block.len,
    Bucket.scrambleSlot build block.len slot = .ok physical
  injective : ∀ slot < block.len, ∀ slot' < block.len,
    Bucket.scrambleSlot build block.len slot = Bucket.scrambleSlot build block.len slot' → slot = slot'
  /-- `slot_address` hits every slot once. -/
  hits : ∀ physical < block.len, ∃! slot, slot < block.len ∧
    block.slotAddress build slot = .ok (block.address physical)
  /-- `take` empties the slot that `slot_address` handed out. -/
  takes : ∀ slot < block.len, ∃ address, block.slotAddress build slot = .ok address ∧
    ∀ slots : SlotAddress → Slot T E, block.take build slot slots = (do
      let (left, contents) ← (slots address).take build
      return (Function.update slots address left,
        contents.map fun (ordinal, element) => (⟨ordinal, address, block.storeId⟩, element)))
  /-- `slot_contents` looks into it. -/
  looks : ∀ slot < block.len, ∃ address, block.slotAddress build slot = .ok address ∧
    ∀ slots : SlotAddress → Slot T E, block.slotContents build slot slots = (do
      let contents ← (slots address).contents build
      return contents.map fun (ordinal, element) => (⟨ordinal, address, block.storeId⟩, element))

end Block

end ReadWriteStore.Store

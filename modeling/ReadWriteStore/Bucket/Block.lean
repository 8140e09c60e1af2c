import ReadWriteStore.Util.Checked

/-!
# Blocks and the chain of a bucket

`block.rs` and `bucket.rs` as far as they deal with slots and not with what the slots hold: the chain
of blocks, the counter of the slots handed out, the scrambling of slots, growth, and the capacity that
is computed back from the length of the head.
-/

namespace ReadWriteStore.Bucket

/-- A slot of a bucket: the number of its block, counted from the oldest, and its index in the block. -/
structure Location where
  block : ℕ
  slot : UInt32
  deriving DecidableEq, Repr

def initialBlockSize : UInt32 := 1

def resizeFactor : UInt32 := 2

/-! ## Blocks -/

/-- `u32::is_power_of_two`. -/
def isPowerOfTwo (size : UInt32) : Bool := size != 0 && size &&& (size - 1) == 0

/-- The checks of `Block::new`, which then makes a block of the given length. -/
def newBlock (build : Build) (size : UInt32) : Checked UInt32 := do
  debugAssert build (size != 0) "size cannot be zero"
  debugAssert build (isPowerOfTwo size) "size must be a power of two"
  return size

/-- `Block::scramble_slot` of a block of length `len`. -/
def scrambleSlot (build : Build) (len slot : UInt32) : Checked UInt32 := do
  let unbounded := slot.toUInt64 * 3
  let mask ← subU32 build len 1
  return unbounded.toUInt32 &&& mask

/-- The slot that `scramble_slot` maps a slot to. -/
def physicalSlot (len slot : UInt32) : UInt32 := (slot.toUInt64 * 3).toUInt32 &&& (len - 1)

/-- `Block::slot_address` of the block with the given number. -/
def slotAddress (build : Build) (block : ℕ) (len slot : UInt32) : Checked Location := do
  let slot ← scrambleSlot build len slot
  checkIndex build len slot
  return ⟨block, slot⟩

/-! ## The chain -/

/-- Each block is twice as long as the one before it. The lengths are 0 after an overflow. -/
def Doubling : List UInt32 → Prop
  | [] => True
  | len :: older => len = UInt32.ofNat (2 ^ older.length) ∧ Doubling older

/-- `BucketInner`. -/
structure Inner where
  /-- The lengths of the blocks: `head`, then `next` of each. -/
  blocks : List UInt32
  nextUnusedSlot : UInt32
  deriving DecidableEq, Repr

namespace Inner

def new : Inner := ⟨[], 0⟩

/-- `BucketInner::next_insert_location`. The `fetch_add` wraps around. -/
def nextInsertLocation (build : Build) (inner : Inner) : Inner × Checked (Option Location) :=
  match inner.blocks with
  | [] => (inner, .ok none)
  | len :: older =>
    let slot := inner.nextUnusedSlot
    ({ inner with nextUnusedSlot := slot + 1 },
      if slot < len then (slotAddress build older.length len slot).map some else .ok none)

/-- `BucketInner::expand`. -/
def expand (build : Build) (inner : Inner) : Inner × Checked Unit :=
  let blockSize : Checked UInt32 :=
    match inner.blocks with
    | [] => .ok initialBlockSize
    | len :: _ => mulU32 build len resizeFactor
  match blockSize with
  | .error fault => (inner, .error fault)
  | .ok size =>
    match newBlock build size with
    -- the old head has been taken out, and is dropped with the arguments of the call
    | .error fault => ({ inner with blocks := [] }, .error fault)
    | .ok len => ({ blocks := len :: inner.blocks, nextUnusedSlot := 0 }, .ok ())

/-- The length of the head, 0 without a head. -/
def headSize (inner : Inner) : UInt32 := inner.blocks.headD 0

/-- The length of a block, by its number. -/
def blockLen (inner : Inner) (block : ℕ) : Option UInt32 := inner.blocks.reverse[block]?

/-- The slots of every block. -/
def locations (inner : Inner) : List Location :=
  inner.blocks.reverse.zipIdx.flatMap fun (len, block) =>
    (List.range len.toNat).map fun slot => ⟨block, UInt32.ofNat slot⟩

/-- The location is in the chain. -/
def Contains (inner : Inner) (location : Location) : Prop :=
  ∃ len, inner.blockLen location.block = some len ∧ location.slot < len

/-- The slots that the counter says have been handed out: every slot of the older blocks, and the
slots of the head that are scrambled from one below the counter. -/
def HandedOut (inner : Inner) (location : Location) : Prop :=
  inner.Contains location ∧
    (location.block + 1 = inner.blocks.length →
      ∃ slot < inner.nextUnusedSlot, slot < inner.headSize ∧
        physicalSlot inner.headSize slot = location.slot)

end Inner

/-! ## Capacity -/

/-- The loop of `head_size_to_total_size`. A doubled `u32` is 0 after 32 steps and stays so: the fuel
runs out only in a loop that never ends. -/
def totalSizeLoop (build : Build) (headSize : UInt32) : ℕ → UInt32 → UInt32 → Checked UInt32
  | 0, _, _ => .error .hang
  | fuel + 1, total, consideredBlockSize =>
    if consideredBlockSize ≤ headSize then do
      let total ← addU32 build total consideredBlockSize
      let consideredBlockSize ← mulU32 build consideredBlockSize resizeFactor
      totalSizeLoop build headSize fuel total consideredBlockSize
    else
      return total

def headSizeToTotalSize (build : Build) (headSize : UInt32) : Checked UInt32 :=
  totalSizeLoop build headSize 64 0 initialBlockSize

/-- `Bucket::capacity` after it has read the length of the head and the counter: the touched and the
allocated capacity. -/
def capacity (build : Build) (headSize used : UInt32) : Checked (UInt32 × UInt32) := do
  let allocatedCapacity ← headSizeToTotalSize build headSize
  let total ← headSizeToTotalSize build headSize
  let unused ← subU32 build headSize used
  let touchedCapacity ← subU32 build total unused
  return (touchedCapacity, allocatedCapacity)

end ReadWriteStore.Bucket

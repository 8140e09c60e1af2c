import ReadWriteStore.Store.Slot

/-!
# Iterators

`iter.rs`: a `GenBucketIter` walks the chain of one bucket from the head, each block from its last slot
handed out down to slot 0, and a `GenIter` walks the buckets from the last to the first. What visiting
a slot and leaving a block means is up to the tracker: `MutBlockTracker` looks at the slots,
`OwnedBlockTracker` empties them and drops each block behind it. Both `next` are recursive, and a run of
slots without elements takes as much stack as it is long; the stack is counted in calls of `next`.
-/

namespace ReadWriteStore.Store

/-- A `BlockTracker`, as what it does to a memory `σ`. -/
structure Tracker (σ α : Type) where
  /-- `take` on the slot at an address. -/
  visit : SlotAddress → σ → Checked (Option α × σ)
  /-- `next` on a block: its bucket, its number and its length. -/
  leave : Fin bucketCount → ℕ → UInt32 → σ → Checked σ

/-- `GenBucketIter`. -/
structure BucketIter where
  bucket : Fin bucketCount
  lastSlot : UInt32
  /-- The lengths of the current block and of those behind it. -/
  chain : List UInt32
  deriving DecidableEq, Repr

variable {σ α : Type}

/-- `GenBucketIter::new` on a bucket. -/
def BucketIter.new (bucket : Fin bucketCount) (inner : Bucket.Inner) : BucketIter where
  bucket := bucket
  lastSlot := min inner.nextUnusedSlot inner.headSize
  chain := inner.blocks

/-- `GenBucketIter::next`, on a stack for so many calls of it. It calls itself for each slot without an
element and each block left behind. -/
def BucketIter.next (build : Build) (tracker : Tracker σ α) :
    ℕ → BucketIter → σ → Checked (Option α × BucketIter × σ)
  | 0, _, _ => .error .stackOverflow
  | stack + 1, iter, memory =>
    if iter.lastSlot = 0 then
      match iter.chain with
      | [] => return (none, iter, memory)
      | len :: older => do
        let memory ← tracker.leave iter.bucket older.length len memory
        BucketIter.next build tracker stack { iter with lastSlot := older.headD 0, chain := older } memory
    else
      match iter.chain with
      | [] => do
        -- `unwrap_debug_checked` on the current block
        assumeInit build none
      | len :: older => do
        let lastSlot := iter.lastSlot - 1
        let location ← Bucket.slotAddress build older.length len lastSlot
        let (contents, memory) ← tracker.visit ⟨iter.bucket, location⟩ memory
        match contents with
        | some result => return (some result, { iter with lastSlot := lastSlot }, memory)
        | none => BucketIter.next build tracker stack { iter with lastSlot := lastSlot } memory

/-- `GenIter`, the last of its bucket iterators first. -/
abbrev GenIter := List BucketIter

/-- `GenIter::next`, on a stack for so many calls of it and of `GenBucketIter::next`. It calls itself for
each bucket that has nothing left. -/
def GenIter.next (build : Build) (tracker : Tracker σ α) :
    ℕ → GenIter → σ → Checked (Option α × GenIter × σ)
  | 0, _, _ => .error .stackOverflow
  | _ + 1, [], memory => return (none, [], memory)
  | stack + 1, current :: rest, memory => do
    let (result, current, memory) ← current.next build tracker stack memory
    match result with
    | some result => return (some result, current :: rest, memory)
    | none => GenIter.next build tracker stack rest memory

/-- Any number of calls of `next`, and the items they return. -/
def GenIter.take (build : Build) (tracker : Tracker σ α) (stack : ℕ) :
    ℕ → GenIter → σ → Checked (List α × GenIter × σ)
  | 0, iter, memory => return ([], iter, memory)
  | steps + 1, iter, memory => do
    let (item, iter, memory) ← iter.next build tracker stack memory
    let (items, iter, memory) ← GenIter.take build tracker stack steps iter memory
    return (item.toList ++ items, iter, memory)

/-- The iterators of the sixteen buckets, as `IterMut::new` and `IntoIter::new` collect them. -/
def GenIter.new (inner : Fin bucketCount → Bucket.Inner) : GenIter :=
  ((List.finRange bucketCount).map fun bucket => BucketIter.new bucket (inner bucket)).reverse

/-! ## How much is left -/

/-- `GenBucketIter::size_hint`: the lower and the upper bound. -/
def BucketIter.sizeHint (build : Build) (iter : BucketIter) : Checked (ℕ × Option ℕ) := do
  let currentBlockSize := iter.chain.headD 0
  let allocatedSize ← Bucket.headSizeToTotalSize build currentBlockSize
  let unused ← subU32 build currentBlockSize iter.lastSlot
  let touchedSize ← subU32 build allocatedSize unused
  return (0, some touchedSize.toNat)

/-- The loop of `GenIter::size_hint`. Sixteen `u32` bounds fit in a `usize`. -/
def sizeHintLoop (build : Build) : List BucketIter → ℕ → Option ℕ → Checked (ℕ × Option ℕ)
  | [], totalLower, totalUpper => return (totalLower, totalUpper)
  | iter :: rest, totalLower, totalUpper => do
    let (lower, upper) ← iter.sizeHint build
    sizeHintLoop build rest (totalLower + lower) (Option.map₂ (· + ·) totalUpper upper)

/-- `GenIter::size_hint`. -/
def GenIter.sizeHint (build : Build) (iter : GenIter) : Checked (ℕ × Option ℕ) :=
  sizeHintLoop build iter.reverse 0 (some 0)

/-! ## The two trackers -/

variable {T E : Type} [DecidableEq T]

/-- `MutBlockTracker`: the items are IDs with the elements that the references point to. -/
def mutTracker (build : Build) (storeId : UInt64) : Tracker (SlotAddress → Slot T E) (Id × E) where
  visit address slots := do
    match ← (slots address).contents build with
    | some (ordinal, element) => return (some (⟨ordinal, address, storeId⟩, element), slots)
    | none => return (none, slots)
  leave _ _ _ slots := return slots

/-- The memory of an owned iteration: the slots, and the elements destroyed so far. -/
structure Remains (T E : Type) where
  slot : SlotAddress → Slot T E
  destroyed : List E

/-- Drops the slots at the given addresses. -/
def Remains.dropSlots (build : Build) (payloadOffset : ℕ) :
    List SlotAddress → Remains T E → Checked (Remains T E)
  | [], remains => return remains
  | address :: rest, remains => do
    let element ← (remains.slot address).drop build payloadOffset
    Remains.dropSlots build payloadOffset rest
      { remains with destroyed := element.toList ++ remains.destroyed }

/-- The slots of a block. -/
def blockAddresses (bucket : Fin bucketCount) (block : ℕ) (len : UInt32) : List SlotAddress :=
  (List.range len.toNat).map fun slot => ⟨bucket, block, UInt32.ofNat slot⟩

/-- `OwnedBlockTracker`: leaving a block drops it, without the blocks behind it. -/
def ownedTracker (build : Build) (payloadOffset : ℕ) (storeId : UInt64) :
    Tracker (Remains T E) (Id × E) where
  visit address remains := do
    let (slot, contents) ← (remains.slot address).take build
    let remains := { remains with slot := Function.update remains.slot address slot }
    match contents with
    | some (ordinal, element) => return (some (⟨ordinal, address, storeId⟩, element), remains)
    | none => return (none, remains)
  leave bucket block len remains :=
    Remains.dropSlots build payloadOffset (blockAddresses bucket block len) remains

/-- The slots of a chain of blocks, the head last. -/
def chainAddresses (bucket : Fin bucketCount) : List UInt32 → List SlotAddress
  | [] => []
  | len :: older => chainAddresses bucket older ++ blockAddresses bucket older.length len

/-- The slots that a `GenIter` still owns. -/
def GenIter.addresses (iter : GenIter) : List SlotAddress :=
  iter.reverse.flatMap fun current => chainAddresses current.bucket current.chain

end ReadWriteStore.Store

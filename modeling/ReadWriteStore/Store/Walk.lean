import ReadWriteStore.Bucket.Growth
import ReadWriteStore.Store.Iter
import ReadWriteStore.Transition.StackWalk

/-!
# What is left of an iteration

The position of an iterator, as the list of what it has still to do: visit the slots handed out, block
by block from the last to the first, and leave each block behind it.
-/

namespace ReadWriteStore.Store

inductive Action
  | visit (address : SlotAddress)
  /-- Leave a block: its bucket, its number and its length. -/
  | leave (bucket : Fin bucketCount) (block : ℕ) (len : UInt32)
  deriving DecidableEq, Repr

/-- The slot that an action visits. -/
def Action.visited : Action → Option SlotAddress
  | .visit address => some address
  | .leave _ _ _ => none

/-- What is left of a chain whose head has `last` slots to visit. -/
def chainActions (bucket : Fin bucketCount) : List UInt32 → UInt32 → List Action
  | [], _ => []
  | len :: older, last =>
    ((List.range last.toNat).map fun slot =>
      .visit ⟨bucket, older.length, Bucket.physicalSlot len (UInt32.ofNat slot)⟩).reverse ++
        .leave bucket older.length len :: chainActions bucket older (older.headD 0)

def BucketIter.actions (iter : BucketIter) : List Action :=
  chainActions iter.bucket iter.chain iter.lastSlot

/-- What is left, bucket by bucket. -/
def GenIter.chains (iter : GenIter) : List (List Action) := iter.map BucketIter.actions

def GenIter.actions (iter : GenIter) : List Action := iter.flatMap BucketIter.actions

variable {σ α : Type}

/-- One action of a tracker. -/
def Tracker.act (tracker : Tracker σ α) : Action → σ → Checked (Option α × σ)
  | .visit address, memory => tracker.visit address memory
  | .leave bucket block len, memory => do
    let memory ← tracker.leave bucket block len memory
    return (none, memory)

/-- A position that an iterator can be in. -/
structure BucketIter.Valid (iter : BucketIter) : Prop where
  doubling : Bucket.Doubling iter.chain
  le : iter.lastSlot ≤ iter.chain.headD 0

def GenIter.Valid (iter : GenIter) : Prop := ∀ current ∈ iter, current.Valid

/-! ## The size hint -/

/-- The tracker, with a log of the slots that it has visited. -/
def Tracker.logged (tracker : Tracker σ α) : Tracker (σ × List SlotAddress) α where
  visit address memory := do
    let (item, left) ← tracker.visit address memory.1
    return (item, left, address :: memory.2)
  leave bucket block len memory := do
    let left ← tracker.leave bucket block len memory.1
    return (left, memory.2)

/-- The number of slots that have been handed out and not yet been visited. -/
noncomputable def unvisited (taken : SlotAddress → Prop) (log : List SlotAddress) : ℕ :=
  {address | taken address ∧ address ∉ log}.ncard

/-- Sixteen runs of a bucket whose counters do not wrap around. -/
def BucketRuns {T : Type} [DecidableEq T] (build : Build) (n : Fin bucketCount → ℕ)
    (state : Fin bucketCount → ℕ → Bucket.State T) (event : Fin bucketCount → ℕ → Bucket.Event T) : Prop :=
  ∀ bucket, ((Bucket.machine build T).restrict Bucket.State.NoWrap).Run (n bucket) (state bucket)
    (event bucket)

/-- The size hint bounds what is left by `remaining`. -/
structure Hints (build : Build) (tracker : Tracker σ α) (remaining : ℕ) (iter : GenIter) (memory : σ) :
    Prop where
  exact : iter.sizeHint build = .ok (0, some remaining)
  /-- No more items than that are left, and the hint does not grow. -/
  later : ∀ stack steps items iter' memory',
    iter.take build tracker stack steps memory = .ok (items, iter', memory') →
      items.length ≤ remaining ∧
        ∃ upper, iter'.sizeHint build = .ok (0, some upper) ∧ upper ≤ remaining
  finished : ∀ stack iter' memory', iter.next build tracker stack memory = .ok (none, iter', memory') →
    iter'.sizeHint build = .ok (0, some 0)

end ReadWriteStore.Store

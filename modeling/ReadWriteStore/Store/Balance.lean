import ReadWriteStore.Bucket.Growth
import ReadWriteStore.Store.Machine

/-!
# The choice of a bucket

The bucket IDs that one thread produces, and what it means that they are balanced.
-/

namespace ReadWriteStore.Store

/-- The first bucket IDs that `arbitrary_bucket_id` produces from a state of the generator. -/
def bucketIds : ℕ → UInt32 → List (Fin bucketCount)
  | 0, _ => []
  | n + 1, generator =>
    let generator := nextGenerator generator
    bucketId generator :: bucketIds n generator

variable {T E : Type}

/-- The event is a step of thread `t`, which calls nothing but `insert`. -/
def Event.Inserts (t : T) : Event T E → Prop
  | .call u (.insert _) | .act u _ | .expire u | .ret u => u = t
  | .call _ _ | .elsewhere _ => False

/-- The bucket has handed out the slot at step `k` of a run or before. -/
def HandedOut (state : ℕ → State T E) (k : ℕ) (address : SlotAddress) : Prop :=
  Bucket.Taken (fun i => (state i).bucket address.bucket) k address.location

/-- The buckets are used evenly. -/
structure Balanced (build : Build) (T E : Type) [DecidableEq T] : Prop where
  /-- Each bucket is drawn equally often, rounded down or up. -/
  drawn : ∀ n generator bucket,
    (bucketIds n generator).count bucket = n / bucketCount ∨
      (bucketIds n generator).count bucket = (n + (bucketCount - 1)) / bucketCount
  /-- A thread that does nothing but insert into a new store is handed out slots evenly. -/
  slots : ∀ t n state event,
    ((machine build T E).restrict fun _ e => e.Inserts t).Run n state event →
      ∀ bucket bucket', {address | address.bucket = bucket ∧ HandedOut state n address}.ncard ≤
        {address | address.bucket = bucket' ∧ HandedOut state n address}.ncard + 1

end ReadWriteStore.Store

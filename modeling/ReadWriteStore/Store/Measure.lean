import ReadWriteStore.Bucket.Growth
import ReadWriteStore.Store.Machine

/-!
# Capacity while inserts are in flight

`RwStore::capacity` reads one bucket after the other, while other threads go on inserting. What it means
that its arithmetic is sound all the same.
-/

namespace ReadWriteStore.Store

variable {T E : Type}

/-- No block is the largest one, and all blocks together have fewer than `2 ^ 32` slots. -/
def State.Fits (s : State T E) : Prop :=
  (∀ bucket, (s.bucket bucket).inner.blocks.length < 32) ∧
    ∑ bucket, (s.bucket bucket).inner.allocated < 2 ^ 32

instance (s : State T E) : Decidable s.Fits := inferInstanceAs (Decidable (_ ∧ _))

/-- The answer of `capacity` that a thread has. -/
def Control.capacity : Control E → Option (UInt32 × UInt32)
  | .returned (.capacity touched allocated) => some (touched, allocated)
  | _ => none

/-- If the step reads the counter of a bucket for `capacity`, no `insert` has found the head full yet. -/
def State.Measured (s : State T E) (e : Event T E) : Prop :=
  match s.control e.thread with
  | .bucket frame =>
    match (s.bucket frame.bucket).control e.thread with
    | .running .capacityLoad =>
      (s.bucket frame.bucket).inner.nextUnusedSlot ≤ (s.bucket frame.bucket).inner.headSize
    | _ => True
  | _ => True

instance (s : State T E) (e : Event T E) : Decidable (s.Measured e) := by
  unfold State.Measured
  split
  · split <;> infer_instance
  · infer_instance

/-- Thread `t` is in the call of `capacity` that event `i` began, or has its result. -/
def Measures (event : ℕ → Event T E) (i k : ℕ) (t : T) : Prop :=
  i < k ∧ event i = .call t .capacity ∧ ∀ m, i < m → m < k → event m ≠ .ret t

/-- In a run the arithmetic of `capacity` is sound. -/
structure SoundCapacity (build : Build) (n : ℕ) (state : ℕ → State T E) (event : ℕ → Event T E) : Prop where
  /-- The two subtractions of `Bucket::capacity`. -/
  subtracts : ∀ i k t, k ≤ n → Measures event i k t → ∀ bucket totalTouched totalAllocated headSize used,
    (state k).control t = .bucket (.capacity bucket totalTouched totalAllocated) →
      ((state k).bucket bucket).control t = .running (.capacityUnlockRead headSize used) →
        used ≤ headSize ∧ ∃ total, Bucket.headSizeToTotalSize build headSize = .ok total ∧
          headSize - used ≤ total
  returns : ∀ i k t, k ≤ n → Measures event i k t → ∀ fault, (state k).control t ≠ .faulted fault
  le : ∀ i k t, k ≤ n → Measures event i k t → ∀ touched allocated,
    (state k).control t = .returned (.capacity touched allocated) → touched ≤ allocated
  /-- A later call of the same thread returns no less. -/
  mono : ∀ i j k l t, j ≤ k → l ≤ n → Measures event i j t → Measures event k l t →
    ∀ touched allocated touched' allocated',
      (state j).control t = .returned (.capacity touched allocated) →
        (state l).control t = .returned (.capacity touched' allocated') →
          touched ≤ touched' ∧ allocated ≤ allocated'

end ReadWriteStore.Store

import Mathlib.Data.Set.Card
import ReadWriteStore.Store.Capacity
import ReadWriteStore.Store.Machine

/-!
# The peak of a store

How many elements a store has had at once, which is what its touched capacity is meant to be.
-/

namespace ReadWriteStore.Store

open Header (reservedId isOccupied currentId)

variable {T E : Type}

/-- The slots that hold an element. -/
def State.present (s : State T E) : Set SlotAddress := {address | isOccupied (s.header address).word = true}

/-- The slots that have had their last element. -/
def State.retired (s : State T E) : Set SlotAddress :=
  {address | isOccupied (s.header address).word = false ∧ currentId (s.header address).word = reservedId}

/-- Nobody is inside a call. -/
def State.AtRest (s : State T E) : Prop := ∀ t, s.control t = .idle

/-- At the end of a run the capacity is its peak. -/
structure PeakCapacity (build : Build) (n : ℕ) (state : ℕ → State T E) (touched allocated : UInt32) : Prop where
  computes : capacity build (fun bucket => ((state n).bucket bucket).inner) = .ok (touched, allocated)
  peak : IsGreatest {load | ∃ k ≤ n, (state k).AtRest ∧ load = (state k).present.ncard + (state k).retired.ncard}
    touched.toNat
  /-- While no slot is retired, it is the most elements ever present at once. -/
  unretired : (state n).retired = ∅ →
    IsGreatest {load | ∃ k ≤ n, (state k).AtRest ∧ load = (state k).present.ncard} touched.toNat
  le : touched ≤ allocated
  total : allocated.toNat = ∑ bucket, ((state n).bucket bucket).inner.allocated

end ReadWriteStore.Store

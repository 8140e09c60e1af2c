import ReadWriteStore.Store.Map

/-!
# What a lock is good for

The promise of the guards of `lock.rs`: as long as its owner keeps a lock the element stays where it is, and
nobody else writes it.
-/

namespace ReadWriteStore.Store

open Header (LockKind)

variable {T E : Type}

/-- The lock that a call gives back. -/
def Call.releases : Call E → Option (LockKind × Id)
  | .dropRead id => some (.read, id)
  | .dropWrite id | .removeLocked id => some (.write, id)
  | _ => none

/-- A write lock excludes every other lock. -/
def Entry.Exclusive (entry : Entry T E) : Prop :=
  ∀ t, 0 < entry.locks t .write →
    entry.locks t .write = 1 ∧ entry.locks t .read = 0 ∧ ∀ u, u ≠ t → ∀ kind, entry.locks u kind = 0

structure Map.Exclusive (m : Map T E) : Prop where
  entry : ∀ id entry, m.entry id = some entry → entry.Exclusive
  used : ∀ id entry, m.entry id = some entry → m.used id

/-- A lock that a thread holds at moment `i` of a run, and does not give back before `j`. -/
structure Guards [DecidableEq T] (state : ℕ → State T E) (event : ℕ → Event T E) (t : T) (kind : LockKind) (id : Id)
    (i j : ℕ) : Prop where
  /-- The thread still holds the lock, -/
  holds : (state j).Holds t kind id
  /-- the element is there, -/
  present : (state j).Present id
  initialised : ((state j).value id.slotAddress).isSome = true
  /-- and it is the same one, unless the thread has replaced it through a write lock. -/
  value : (state j).value id.slotAddress = (state i).value id.slotAddress ∨
    kind = .write ∧ ∃ k element, i ≤ k ∧ k < j ∧ event k = .call t (.replace id element)
  /-- Nobody shares a write lock. -/
  alone : kind = .write → ∀ u, u ≠ t → ((state j).header id.slotAddress).locks u = []

end ReadWriteStore.Store

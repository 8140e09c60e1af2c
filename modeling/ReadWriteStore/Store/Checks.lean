import ReadWriteStore.Store.Machine

/-!
# The checks of the debug build

What the release build takes for granted, and the debug build checks.
-/

namespace ReadWriteStore.Store

variable {T E : Type}

/-- No call of the store, of a header or of a bucket has failed a check that only the debug build makes, or
broken the contract behind one. A header panics at the limit on readers only. -/
structure State.KeepsContracts [DecidableEq T] (s : State T E) : Prop where
  store : ∀ t fault, s.control t = .faulted fault → fault.isBreach = false
  header : ∀ address t fault, (s.header address).control t = .faulted fault → fault = Header.tooManyReaders
  bucket : ∀ bucket t fault, (s.bucket bucket).control t = .faulted fault → fault.isBreach = false

/-- The head blocks have fewer than `2 ^ 31` slots. -/
def State.Short (s : State T E) : Prop := ∀ bucket, (s.bucket bucket).inner.headSize.toNat < 2 ^ 31

instance (s : State T E) : Decidable s.Short := inferInstanceAs (Decidable (∀ _, _))

end ReadWriteStore.Store

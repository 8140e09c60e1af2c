import ReadWriteStore.Store.Machine

/-!
# IDs and locks of another store

Two stores in one program, and the calls of one of them with an ID or a lock of the other: what
`assert_native_id` makes of them in the debug build, and what the unwinding of its panic does to the
arguments of the call.
-/

namespace ReadWriteStore.Store

/-- `RwStoreId::generate` on the global counter: the ID, and the counter after it. -/
def generateStoreId (nextRwstoreId : UInt64) : UInt64 × UInt64 := (nextRwstoreId, nextRwstoreId + 1)

/-- The IDs of the next stores of a program, from the value of the counter on. -/
def generateStoreIds : ℕ → UInt64 → List UInt64
  | 0, _ => []
  | count + 1, nextRwstoreId =>
    let (id, nextRwstoreId) := generateStoreId nextRwstoreId
    id :: generateStoreIds count nextRwstoreId

variable {T E : Type} [DecidableEq T]

/-- Thread `t` can pass the ID or the lock that the call takes: the store has issued it. -/
def State.Provides (s : State T E) (t : T) : Call E → Prop
  | .remove id _ | .read id _ | .write id _ | .getMut id | .replaceMut id _ => id ∈ s.issued
  | .removeLocked id => s.Holds t .write id
  | _ => False

/-- The call takes its lock by value. -/
def Call.isRemoveLocked : Call E → Bool
  | .removeLocked _ => true
  | _ => false

/-- The call on its own store that the drop of an argument makes: a lock is unlocked, an ID is only a
copy. -/
def Call.dropArgument : Call E → Option (Call E)
  | .removeLocked id => some (.dropWrite id)
  | _ => none

/-- The destructors that are still armed when `assert_native_id` panics. `remove_locked` has taken the
ID out of its lock with `WriteLock::forget` by then. -/
def Call.armed : Call E → Option (Call E)
  | .removeLocked _ => none
  | _ => none

/-- Two stores of one program. -/
structure Stores (T E : Type) where
  a : State T E
  b : State T E

/-- The drop of an argument of a call, on the store that the argument belongs to. -/
def State.dropped (build : Build) (s : State T E) (t : T) : Option (Call E) → Option (State T E)
  | some drop => step build s (.call t drop)
  | none => some s

/-- Thread `t` calls a method of `a` with an ID or a lock of `b`. A panic unwinds the arguments. -/
def Stores.foreignCall (build : Build) (s : Stores T E) (t : T) (call : Call E) : Option (Stores T E) :=
  (step build s.a (.call t call)).bind fun a =>
    match a.control t with
    | .faulted _ => (s.b.dropped build t call.armed).map fun b => ⟨a, b⟩
    | _ => some ⟨a, s.b⟩

/-- The panic of `assert_native_id`. -/
def foreignFault : Fault := .assertion "attempted to use an ID created with a different store"

/-- The call panics, nothing of `a` changes but where its thread is, and `b` goes on as if the argument
had been dropped. -/
def Stores.Rejects (build : Build) (s : Stores T E) (t : T) (call : Call E) : Prop :=
  ∃ b, s.b.dropped build t call.dropArgument = some b ∧
    s.foreignCall build t call = some ⟨s.a.setControl t (.faulted foreignFault), b⟩

instance [Fintype T] (s : State T E) (t : T) : (call : Call E) → Decidable (s.Provides t call)
  | .remove _ _ | .read _ _ | .write _ _ | .getMut _ | .replaceMut _ _ =>
    inferInstanceAs (Decidable (_ ∈ _))
  | .removeLocked id => inferInstanceAs (Decidable (s.Holds t .write id))
  | .insert _ | .dropRead _ | .dropWrite _ | .deref _ _ | .replace _ _ | .capacity | .iterMut _ _ =>
    inferInstanceAs (Decidable False)

end ReadWriteStore.Store

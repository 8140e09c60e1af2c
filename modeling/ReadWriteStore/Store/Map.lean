import ReadWriteStore.Store.Lifetime
import ReadWriteStore.Transition.Object

/-!
# The map that a store is

What a store is for: a map from IDs to elements, in which every element has a read-write lock of its own
and no ID is used twice. Every method is one operation that takes effect at once. `State.map` reads the
map out of a store.
-/

namespace ReadWriteStore.Store

open Header (LockKind)
open Transition (Object tally)

/-- An element, and how many locks of a kind each thread holds on it. -/
@[ext] structure Entry (T E : Type) where
  value : E
  locks : T → LockKind → ℕ

namespace Entry

variable {T E : Type}

def new (value : E) : Entry T E := ⟨value, fun _ _ => 0⟩

def Free (entry : Entry T E) : Prop := ∀ t kind, entry.locks t kind = 0

/-- One more reader may come. -/
def Readable (entry : Entry T E) : Prop := ∀ t, entry.locks t .write = 0

variable [DecidableEq T]

/-- Thread `t` holds `n` locks of a kind. -/
def withLocks (entry : Entry T E) (t : T) (kind : LockKind) (n : ℕ) : Entry T E :=
  { entry with locks := Function.update entry.locks t (Function.update (entry.locks t) kind n) }

def lock (entry : Entry T E) (t : T) (kind : LockKind) : Entry T E :=
  entry.withLocks t kind (entry.locks t kind + 1)

def unlock (entry : Entry T E) (t : T) (kind : LockKind) : Entry T E :=
  entry.withLocks t kind (entry.locks t kind - 1)

end Entry

@[ext] structure Map (T E : Type) where
  entry : Id → Option (Entry T E)
  /-- The IDs that have been in the map. -/
  used : Id → Prop

namespace Map

variable {T E : Type}

def init : Map T E := ⟨fun _ => none, fun _ => False⟩

def set (m : Map T E) (id : Id) (entry : Option (Entry T E)) : Map T E :=
  { m with entry := Function.update m.entry id entry }

def insert (m : Map T E) (id : Id) (value : E) : Map T E :=
  ⟨Function.update m.entry id (some (.new value)), fun other => m.used other ∨ other = id⟩

/-- The items are the first elements of the map in some order, up to `steps` of them. -/
structure Enumerates (m : Map T E) (steps : ℕ) (items : List (Id × E)) : Prop where
  present : ∀ item ∈ items, ∃ entry, m.entry item.1 = some entry ∧ entry.value = item.2
  nodup : (items.map Prod.fst).Nodup
  length_le : items.length ≤ steps
  complete : items.length < steps → ∀ id entry, m.entry id = some entry → (id, entry.value) ∈ items

/-- What an operation of thread `t` does. -/
inductive Effect [DecidableEq T] (m : Map T E) (t : T) : Call E → Return E → Map T E → Prop
  | insert {element : E} {id : Id} (hnew : ¬m.used id) :
      Effect m t (.insert element) (.insert id) (m.insert id element)
  /-- There is no element under the ID. -/
  | miss {call : Call E} {id : Id} {result : Return E} (hcall : call.missed = some (id, result))
      (hnone : m.entry id = none) : Effect m t call result m
  | remove {id : Id} {method : Method} {entry : Entry T E} (hsome : m.entry id = some entry)
      (hfree : entry.Free) : Effect m t (.remove id method) (.remove (.ok (some entry.value))) (m.set id none)
  | removeLocked {id : Id} {entry : Entry T E} (hsome : m.entry id = some entry)
      (hlock : 0 < entry.locks t .write) : Effect m t (.removeLocked id) (.removeLocked entry.value) (m.set id none)
  | read {id : Id} {method : Method} {entry : Entry T E} (hsome : m.entry id = some entry)
      (hread : entry.Readable) :
      Effect m t (.read id method) (.read (.ok (some id))) (m.set id (some (entry.lock t .read)))
  | write {id : Id} {method : Method} {entry : Entry T E} (hsome : m.entry id = some entry)
      (hfree : entry.Free) :
      Effect m t (.write id method) (.write (.ok (some id))) (m.set id (some (entry.lock t .write)))
  | dropRead {id : Id} {entry : Entry T E} (hsome : m.entry id = some entry)
      (hlock : 0 < entry.locks t .read) :
      Effect m t (.dropRead id) .dropRead (m.set id (some (entry.unlock t .read)))
  | dropWrite {id : Id} {entry : Entry T E} (hsome : m.entry id = some entry)
      (hlock : 0 < entry.locks t .write) :
      Effect m t (.dropWrite id) .dropWrite (m.set id (some (entry.unlock t .write)))
  | deref {kind : LockKind} {id : Id} {entry : Entry T E} (hsome : m.entry id = some entry)
      (hlock : ∃ u, 0 < entry.locks u kind) : Effect m t (.deref kind id) (.deref entry.value) m
  | replace {id : Id} {element : E} {entry : Entry T E} (hsome : m.entry id = some entry)
      (hlock : 0 < entry.locks t .write) :
      Effect m t (.replace id element) (.replace entry.value) (m.set id (some { entry with value := element }))
  /-- The numbers are not the map's. -/
  | capacity {touched allocated : UInt32} : Effect m t .capacity (.capacity touched allocated) m
  | getMut {id : Id} {entry : Entry T E} (hsome : m.entry id = some entry) (hfree : entry.Free) :
      Effect m t (.getMut id) (.getMut (some entry.value)) m
  | replaceMut {id : Id} {element : E} {entry : Entry T E} (hsome : m.entry id = some entry)
      (hfree : entry.Free) :
      Effect m t (.replaceMut id element) (.replaceMut (some entry.value))
        (m.set id (some { entry with value := element }))
  | iterMut {stack steps : ℕ} {items : List (Id × E)} (hfree : ∀ id entry, m.entry id = some entry → entry.Free)
      (hitems : m.Enumerates steps items) : Effect m t (.iterMut stack steps) (.iterMut items) m

/-- An operation waits for a lock of somebody. -/
def Busy (m : Map T E) : Call E → Prop
  | .read id _ => ∃ entry, m.entry id = some entry ∧ ¬entry.Readable
  | .write id _ | .remove id _ => ∃ entry, m.entry id = some entry ∧ ¬entry.Free
  | _ => False

/-- An operation with a timeout. -/
inductive TimesOut : Call E → Return E → Prop
  | read {id : Id} {method : Method} (h : method.timeout ≠ .blockIndefinitely) :
      TimesOut (.read id method) (.read (.error .timedOut))
  | write {id : Id} {method : Method} (h : method.timeout ≠ .blockIndefinitely) :
      TimesOut (.write id method) (.write (.error .timedOut))
  | remove {id : Id} {method : Method} (h : method.timeout ≠ .blockIndefinitely) :
      TimesOut (.remove id method) (.remove (.error .timedOut))

/-- The only calls that panic: those that cannot get a slot, count one more reader or add up the blocks. -/
def Panics [Fintype T] (m : Map T E) : Call E → Prop
  | .read id _ => ∃ entry, m.entry id = some entry ∧
      tally (fun t => entry.locks t .read) = Header.maxConcurrentReads.toNat
  | .insert _ | .capacity => True
  | _ => False

/-- The map as an object that threads share. -/
def object (T E : Type) [Fintype T] [DecidableEq T] : Object (Map T E) T (Call E) (Return E) where
  init := (· = .init)
  effect := Effect
  busy := Busy
  givesUp := TimesOut
  fails := Panics

end Map

/-! ## The map of a store -/

namespace State

variable {T E : Type}

instance (s : State T E) (id : Id) : Decidable (s.Present id) := inferInstanceAs (Decidable (_ ∧ _))

def map (s : State T E) : Map T E where
  entry id :=
    if s.Present id ∧ id.storeId = s.storeId then
      (s.value id.slotAddress).map fun value => ⟨value, (s.header id.slotAddress).lockCount id.ordinal⟩
    else none
  used id := id.storeId = s.storeId ∧
    (id.ordinal.toNat < (Header.currentId (s.header id.slotAddress).word).toNat ∨ s.Present id)

/-- What a caller sees of a step. -/
def shows [DecidableEq T] (s : State T E) : Event T E → List (Object.Action T (Call E) (Return E))
  | .call t call => [.call t call]
  | .ret t =>
    match s.control t with
    | .returned result => [.ret t (some result)]
    | _ => [.ret t none]
  | _ => []

end State

end ReadWriteStore.Store

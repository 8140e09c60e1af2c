import ReadWriteStore.Header.RwLock
import ReadWriteStore.Store.Machine

/-!
# Who owns a slot

An abstract model of what the operations of a store do to its slots: an `insert` draws a slot from a
bucket or takes one from the queue of erasures, its element occupies the slot, a removal empties it,
and then the slot is queued or retired. `State.ownership` reads it out of a store.
-/

namespace ReadWriteStore.Store

open Header (reservedId)

/-- The slots and the threads of a store, as far as ownership goes. -/
@[ext] structure Ownership (T : Type) where
  /-- The slots that the buckets have handed out. -/
  issued : SlotAddress → Prop
  occupied : SlotAddress → Bool
  /-- The ordinal in the header of a slot. -/
  ordinal : SlotAddress → UInt32
  /-- The slot that a thread has reserved for its `insert`. -/
  reserves : T → Option SlotAddress
  /-- The ID whose slot a thread is emptying. -/
  empties : T → Option Id
  erasures : List SlotAddress

namespace Ownership

variable {T : Type}

def init : Ownership T where
  issued _ := False
  occupied _ := false
  ordinal _ := 0
  reserves _ := none
  empties _ := none
  erasures := []

variable [DecidableEq T]

/-- What a step of thread `t` can do. -/
inductive Step (o : Ownership T) (t : T) : Ownership T → Prop
  /-- `next_insert_location` hands out a slot. -/
  | draw {address : SlotAddress} (hnew : ¬o.issued address) (hnone : o.reserves t = none) :
      Step o t { o with
        issued := fun other => o.issued other ∨ other = address
        reserves := Function.update o.reserves t (some address) }
  | reuse {address : SlotAddress} {rest : List SlotAddress} (hq : o.erasures = address :: rest)
      (hnone : o.reserves t = none) :
      Step o t { o with
        erasures := rest
        reserves := Function.update o.reserves t (some address) }
  | occupy {address : SlotAddress} (hres : o.reserves t = some address) :
      Step o t { o with
        occupied := Function.update o.occupied address true
        reserves := Function.update o.reserves t none }
  /-- A removal takes effect. -/
  | vacate {id : Id} (hocc : o.occupied id.slotAddress = true)
      (hord : o.ordinal id.slotAddress = id.ordinal) (hnone : o.empties t = none) :
      Step o t { o with
        occupied := Function.update o.occupied id.slotAddress false
        ordinal := Function.update o.ordinal id.slotAddress (id.ordinal + 1)
        empties := Function.update o.empties t (some id) }
  | push {id : Id} (hemp : o.empties t = some id) (hne : id.ordinal + 1 ≠ reservedId) :
      Step o t { o with
        erasures := o.erasures ++ [id.slotAddress]
        empties := Function.update o.empties t none }
  /-- The slot has had its last element. -/
  | retire {id : Id} (hemp : o.empties t = some id) (heq : id.ordinal + 1 = reservedId) :
      Step o t { o with empties := Function.update o.empties t none }

/-- The states of a slot. -/
inductive Class (T : Type)
  | unissued
  | reserved (thread : T)
  | occupied
  | emptied (thread : T)
  | queued
  | retired
  deriving DecidableEq, Repr

/-- Each slot is in the state that `class_` says, and in no other. -/
structure Classified (o : Ownership T) (class_ : SlotAddress → Class T) : Prop where
  unissued : ∀ address, class_ address = .unissued ↔ ¬o.issued address
  reserved : ∀ address t, class_ address = .reserved t ↔ o.reserves t = some address
  occupied : ∀ address, class_ address = .occupied ↔ o.occupied address = true
  emptied : ∀ address t, class_ address = .emptied t ↔
    ∃ id, o.empties t = some id ∧ id.slotAddress = address
  queued : ∀ address, class_ address = .queued ↔ address ∈ o.erasures
  nodup : o.erasures.Nodup
  retired : ∀ address, class_ address = .retired → o.ordinal address = reservedId
  /-- A slot for an element to come has an ordinal left. -/
  reusable : ∀ address, class_ address = .unissued ∨ (∃ t, class_ address = .reserved t) ∨
    class_ address = .queued → o.ordinal address ≠ reservedId
  emptying : ∀ t id, o.empties t = some id → o.ordinal id.slotAddress = id.ordinal + 1

end Ownership

/-! ## The ownership of a store -/

variable {T E : Type}

/-- The slot that thread `t` has reserved. -/
def State.reserves (s : State T E) (t : T) : Option SlotAddress :=
  match s.control t with
  | .bucket frame =>
    ((s.bucket frame.bucket).control t).location.map fun location => ⟨frame.bucket, location⟩
  | .place _ address => some address
  | .header (.occupy address _) =>
    if ((s.header address).control t).done then none else some address
  | _ => none

/-- The ID whose slot thread `t` is emptying. -/
def State.empties (s : State T E) (t : T) : Option Id :=
  match s.control t with
  | .header (.remove id _) | .header (.removeLocked id _) =>
    if ((s.header id.slotAddress).control t).done then some id else none
  | .moveOut id _ _ | .push id _ => some id
  | _ => none

def State.ownership (s : State T E) : Ownership T where
  issued address := (s.bucket address.bucket).inner.HandedOut address.location
  occupied address := Header.isOccupied (s.header address).word
  ordinal address := Header.currentId (s.header address).word
  reserves := s.reserves
  empties := s.empties
  erasures := s.erasures

/-- The next step of thread `t` wraps the counter of a bucket around. -/
def State.Wraps [DecidableEq T] (s : State T E) (t : T) : Prop :=
  match s.control t with
  | .bucket frame => (s.bucket frame.bucket).Wraps t
  | _ => False

def State.NoWrap [DecidableEq T] (s : State T E) (e : Event T E) : Prop := ¬s.Wraps e.thread

instance [DecidableEq T] (s : State T E) (t : T) : Decidable (s.Wraps t) := by
  unfold State.Wraps
  split <;> infer_instance

instance [DecidableEq T] (s : State T E) (e : Event T E) : Decidable (s.NoWrap e) :=
  inferInstanceAs (Decidable ¬_)

/-- Each slot is in one state, and an `insert` gets only slots that nobody else has to do with. -/
structure State.Owned (s : State T E) : Prop where
  classified : ∃ class_, s.ownership.Classified class_
  /-- Where `occupy` is about to be called, or to take effect. -/
  occupies : ∀ t address, s.reserves t = some address →
    Header.isOccupied (s.header address).word = false ∧ Header.currentId (s.header address).word ≠ reservedId
  /-- Where an `insert` is about to write its element, no element is live or still to be moved out. -/
  places : ∀ t element address, s.control t = .place element address →
    Header.isOccupied (s.header address).word = false ∧ ∀ u id, s.empties u = some id → id.slotAddress ≠ address
  between : (∀ t, s.control t = .idle) → ∀ address,
    (s.bucket address.bucket).inner.HandedOut address.location ↔
      Header.isOccupied (s.header address).word = true ∨ address ∈ s.erasures ∨
        (Header.isOccupied (s.header address).word = false ∧ address ∉ s.erasures ∧
          Header.currentId (s.header address).word = reservedId)

end ReadWriteStore.Store

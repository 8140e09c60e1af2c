import ReadWriteStore.Store.Ownership

/-!
# The life of an ID

What an ID means over a run of a store: it is returned once, its element stays in its slot until a removal
takes effect, and from then on no method finds anything under it.
-/

namespace ReadWriteStore.Store

open Header (reservedId isOccupied currentId)

variable {T E : Type}

/-- The element of an ID is in its slot. -/
def State.Present (s : State T E) (id : Id) : Prop :=
  isOccupied (s.header id.slotAddress).word = true ∧ currentId (s.header id.slotAddress).word = id.ordinal

/-- What a call that looks up an ID returns if it finds no element. -/
def Call.missed : Call E → Option (Id × Return E)
  | .read id _ => some (id, .read (.ok none))
  | .write id _ => some (id, .write (.ok none))
  | .remove id _ => some (id, .remove (.ok none))
  | .getMut id => some (id, .getMut none)
  | .replaceMut id _ => some (id, .replaceMut none)
  | _ => none

/-- The same for a call of a header. -/
def Frame.missed : Frame E → Option (Id × Return E)
  | .read id _ => some (id, .read (.ok none))
  | .write id _ => some (id, .write (.ok none))
  | .remove id _ => some (id, .remove (.ok none))
  | _ => none

/-- The call of thread `t` returns this without a wait: the first look at the header is still to come, or it
has told the thread that the ID is another one. -/
def State.Misses [DecidableEq T] (build : Build) (s : State T E) (t : T) (id : Id) (result : Return E) : Prop :=
  s.control t = .returned result ∨
    ∃ (frame : Frame E) (attempt : Header.Attempt) (timeout : Timeout), s.control t = .header frame ∧
      frame.missed = some (id, result) ∧
        frame.call = attempt.call id.ordinal timeout ∧
          ((s.header id.slotAddress).control t = .ofChecked (Header.start build frame.call) ∨
            (s.header id.slotAddress).control t = .returned (attempt.answer id.ordinal (.ok false)))

/-- In a run every ID lives once. -/
structure Lifetimes [DecidableEq T] (build : Build) (n : ℕ) (state : ℕ → State T E) (event : ℕ → Event T E) :
    Prop where
  /-- No two calls of `insert` return the same slot and ordinal. -/
  unique : ∀ k ≤ n, ((state k).issued.map fun id => (id.slotAddress, id.ordinal)).Nodup
  /-- Once a removal has taken effect the element is gone, -/
  removed : ∀ k ≤ n, ∀ t id, (state k).empties t = some id → ¬(state k).Present id
  /-- for the rest of the run, -/
  dead : ∀ i j id, i ≤ j → j ≤ n → id ∈ (state i).issued → ¬(state i).Present id → ¬(state j).Present id
  /-- and every call from then on returns `None`. -/
  misses : ∀ i j k t call id result, i ≤ j → j < k → k ≤ n → id ∈ (state i).issued →
    ¬(state i).Present id → event j = .call t call → call.missed = some (id, result) →
      (∀ m, j < m → m < k → event m ≠ .ret t) → (state k).Misses build t id result
  /-- A slot that has run out of ordinals stays unoccupied. -/
  exhausted : ∀ i j address, i ≤ j → j ≤ n → currentId ((state i).header address).word = reservedId →
    isOccupied ((state j).header address).word = false
  ordinals : ∀ k ≤ n, ∀ id ∈ (state k).issued, (id.ordinal + 1).toNat = id.ordinal.toNat + 1
  /-- Where the ordinal is the one of the header, as `get_exclusive` checks, the element is there: -/
  exclusive : ∀ k ≤ n, ∀ id ∈ (state k).issued,
    currentId ((state k).header id.slotAddress).word = id.ordinal →
      (state k).Present id ∧ ((state k).value id.slotAddress).isSome = true
  /-- it is the one given to `insert`, -/
  inserted : ∀ k < n, ∀ id, (state (k + 1)).issued = id :: (state k).issued → ∃ element,
    (state k).control (event k).thread = .header (.occupy id.slotAddress element) ∧
      (state (k + 1)).Present id ∧ (state (k + 1)).value id.slotAddress = some element
  /-- or what was put in its place under the ID. -/
  replaced : ∀ k < n, ∀ id ∈ (state k).issued, (state k).Present id →
    (state (k + 1)).value id.slotAddress ≠ (state k).value id.slotAddress →
      ∃ t element, event k = .call t (.replace id element) ∨ event k = .call t (.replaceMut id element)

end ReadWriteStore.Store

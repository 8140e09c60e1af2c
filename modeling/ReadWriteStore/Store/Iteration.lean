import ReadWriteStore.Store.Machine
import ReadWriteStore.Store.Walk

/-!
# Iterating over a store

What it means that the iterators of a store that nobody is using yield exactly its elements.
-/

namespace ReadWriteStore.Store

open Header (isOccupied currentId)

variable {T E : Type} [DecidableEq T]

/-- The ID of the element in a slot. -/
def State.idAt (s : State T E) (address : SlotAddress) : Id :=
  ⟨currentId (s.header address).word, address, s.storeId⟩

/-- The item that a visit of a slot gives. -/
def State.item (s : State T E) : Action → Option (Id × E)
  | .visit address =>
    if isOccupied (s.header address).word then (s.value address).map fun element => (s.idAt address, element)
    else none
  | .leave _ _ _ => none

/-- The most calls of `next` that are open at once in an iteration over the whole store. Those of `GenIter`
are one more than the buckets that have come to their end since the last element; on top of them stand
those of the bucket, one more than its slots without an element and the blocks left behind since then. -/
def State.callDepth (s : State T E) : ℕ :=
  Transition.callDepths s.item 1 (GenIter.new fun bucket => (s.bucket bucket).inner).chains

/-- On a stack for so many calls of `next`, `iter_mut` and `into_iter` yield the items and then nothing more,
and these are the elements present with their IDs. -/
structure Yields (build : Build) (payloadOffset stack : ℕ) (s : State T E) (items : List (Id × E)) : Prop where
  complete : ∀ address element, isOccupied (s.header address).word = true →
    s.value address = some element → (s.idAt address, element) ∈ items
  /-- Each item is an element present, under the ID that `insert` has returned, which leads to it. -/
  present : ∀ id element, (id, element) ∈ items → id = s.idAt id.slotAddress ∧
    isOccupied (s.header id.slotAddress).word = true ∧ s.value id.slotAddress = some element ∧
      id ∈ s.issued ∧ (s.slot id.slotAddress).getExclusive build id.ordinal = .ok (some element)
  nodup : (items.map fun item => item.1.slotAddress).Nodup
  /-- A number of calls of `next` returns as many items as there are, and no slot has changed. -/
  iterMut : ∀ steps, ∃ iter, (GenIter.new fun bucket => (s.bucket bucket).inner).take build
    (mutTracker build s.storeId) stack steps s.slot = .ok (items.take steps, iter, s.slot)
  intoIter : ∀ steps, ∃ iter remains, (GenIter.new fun bucket => (s.bucket bucket).inner).take build
    (ownedTracker build payloadOffset s.storeId) stack steps ⟨s.slot, []⟩ = .ok (items.take steps, iter, remains)

end ReadWriteStore.Store

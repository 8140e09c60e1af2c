import ReadWriteStore.Bucket.Machine
import ReadWriteStore.Header.Exclusive

/-!
# Slots, their addresses and IDs

A slot is a header and a cell for an element; the functions of `block.rs` that work on one slot with
exclusive access are functions of it. An address stands for the pointer to a slot: slots of different
blocks, or at different places in one, have different addresses.
-/

namespace ReadWriteStore.Store

def bucketCount : ℕ := 16

instance : NeZero bucketCount := ⟨by decide⟩

structure SlotAddress where
  bucket : Fin bucketCount
  location : Bucket.Location
  deriving DecidableEq, Repr

/-- `Id`. The release build has no store IDs, and reads none. -/
structure Id where
  ordinal : UInt32
  slotAddress : SlotAddress
  storeId : UInt64
  deriving DecidableEq, Repr

/-- `Slot`. The value is `none` while the cell has never been written; moving the element out leaves
its bytes behind. -/
structure Slot (T E : Type) where
  header : Header.State T
  value : Option E

variable {T E : Type} [DecidableEq T]

/-- `Slot::new`. -/
def Slot.new : Slot T E := ⟨.init, none⟩

/-- `DebugCheckedMaybeUninit::contents_ptr`, and an access through the pointer. -/
def contentsPtr (build : Build) : Option E → Checked E
  | some value => .ok value
  | none =>
    match build with
    | .debug => .error (.assertion "internal error: entered unreachable code")
    | .release => .error (.undefined "pointer to an uninitialised element")

/-- `drop_in_place` on the cell of a slot cast to a pointer to the element. The debug build keeps an
`Option<Element>` there, which has its payload at `payloadOffset`. -/
def dropInPlace (build : Build) (payloadOffset : ℕ) (value : Option E) : Checked E :=
  if build = .debug ∧ payloadOffset ≠ 0 then
    .error (.undefined "dropped an element at an address where there is none")
  else
    match value with
    | some element => .ok element
    | none => .error (.undefined "dropped an uninitialised element")

/-- `Slot::drop`, then the drop of its header: the element it destroys. -/
def Slot.drop (build : Build) (payloadOffset : ℕ) (slot : Slot T E) : Checked (Option E) := do
  let element ←
    if Header.needsDrop slot.header.word then
      some <$> dropInPlace build payloadOffset slot.value
    else pure none
  Header.drop build slot.header.word
  return element

/-- A `mem::replace` through a pointer to the contents: the slot it leaves, and the old element. -/
def Slot.replace (build : Build) (slot : Slot T E) (element : E) : Checked (Slot T E × E) := do
  let old ← contentsPtr build slot.value
  return ({ slot with value := some element }, old)

/-- `Block::get_exclusive`, and an access through the pointer. -/
def Slot.getExclusive (build : Build) (slot : Slot T E) (ordinal : UInt32) : Checked (Option E) := do
  if Header.currentId slot.header.word = ordinal then
    return some (← contentsPtr build slot.value)
  else
    return none

/-- `Block::take` after it has found the slot: the slot it leaves, and the ordinal and the element. -/
def Slot.take (build : Build) (slot : Slot T E) : Checked (Slot T E × Option (UInt32 × E)) := do
  let (word, id) ← Header.reset build slot.header.word
  match id with
  | some id =>
    let element ← assumeInit build slot.value
    return ({ slot with header := { slot.header with word := word } }, some (id, element))
  | none => return ({ slot with header := { slot.header with word := word } }, none)

/-- `Block::slot_contents` after it has found the slot. -/
def Slot.contents (build : Build) (slot : Slot T E) : Checked (Option (UInt32 × E)) := do
  match Header.idIfOccupied slot.header.word with
  | some id => return some (id, ← contentsPtr build slot.value)
  | none => return none

end ReadWriteStore.Store

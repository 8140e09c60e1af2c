import ReadWriteStore.Store.Slot

/-!
# Where the element of a slot lies

`DebugCheckedMaybeUninit` is an `Option<Element>` in the debug build and a `MaybeUninit<Element>` in the
release build. A slot is reached by typed reads and writes of it, through the pointer of
`contents_ptr`, and in `Slot::drop` by a cast of the pointer to the cell; here each of them is an
access to an address. The one fact about an element type that matters is the offset at which
`Option<Element>` keeps its payload.
-/

namespace ReadWriteStore.Store

/-- A slot in memory. `latest` is bookkeeping: the element last inserted or written. -/
structure Cell (E : Type) where
  word : UInt64
  /-- The tag of the `Option`, which only the debug build has. -/
  isSome : Bool
  /-- The elements that lie in memory, by their address. -/
  memory : ℕ → Option E
  latest : Option E

/-- The way to a reference to the element. -/
inductive Route
  /-- `Block::get_unchecked`, by a holder of a lock. -/
  | unchecked
  /-- `Block::get_exclusive` with an ID. -/
  | exclusive (ordinal : UInt32)
  /-- `Block::slot_contents`. -/
  | slotContents
  deriving DecidableEq, Repr

/-- What is done with a slot. -/
inductive CellOp (E : Type)
  | insert (element : E)
  /-- A look at the element, or a write through the reference. -/
  | access (route : Route) (replacement : Option E)
  /-- `Block::remove`, or `Block::remove_locked` under a write lock that was just taken. -/
  | remove (ordinal : UInt32)
  /-- `Block::take`. -/
  | take
  deriving DecidableEq, Repr

/-- The address of the element inside a cell at `cell`, as its type lays it out. -/
def valueAddress (build : Build) (payloadOffset cell : ℕ) : ℕ :=
  match build with
  | .debug => cell + payloadOffset
  | .release => cell

/-- The address that `Slot::drop` casts to a pointer to the element. -/
def dropAddress (cell : ℕ) : ℕ := cell

variable {E : Type}

namespace Cell

def new : Cell E := ⟨Header.unoccupiedBits 0, false, fun _ => none, none⟩

section Access

variable (build : Build) (payloadOffset cell : ℕ) (s : Cell E)

/-- `DebugCheckedMaybeUninit::contents_ptr`. -/
def contentsAddress : Checked ℕ :=
  match build with
  | .debug =>
    if s.isSome then .ok (cell + payloadOffset)
    else .error (.assertion "internal error: entered unreachable code")
  | .release => .ok cell

/-- A write of `DebugCheckedMaybeUninit::new(element)` to the cell. -/
def store (element : E) : Cell E :=
  { s with
    isSome := true
    memory := Function.update s.memory (valueAddress build payloadOffset cell) (some element)
    latest := some element }

/-- A typed read of the cell, and `assume_init`. -/
def load : Checked E :=
  if build = .debug ∧ s.isSome = false then
    .error (.assertion "called `Option::unwrap()` on a `None` value")
  else
    match s.memory (valueAddress build payloadOffset cell) with
    | some element => .ok element
    | none => .error (.undefined "assumed to be initialised")

/-- A use of the pointer that `contents_ptr` hands out. -/
def use (replacement : Option E) : Checked (Cell E) := do
  let address ← s.contentsAddress build payloadOffset cell
  match replacement with
  | some element =>
    return { s with memory := Function.update s.memory address (some element), latest := some element }
  | none => return s

def apply : CellOp E → Checked (Cell E)
  | .insert element => do
    let s := s.store build payloadOffset cell element
    let _ ← Header.afterFetchOr build s.word
    return { s with word := s.word ||| Header.threadNotificationMask }
  | .access .unchecked replacement => s.use build payloadOffset cell replacement
  | .access (.exclusive ordinal) replacement =>
    if Header.currentId s.word = ordinal then s.use build payloadOffset cell replacement else .ok s
  | .access .slotContents replacement =>
    match Header.idIfOccupied s.word with
    | some _ => s.use build payloadOffset cell replacement
    | none => .ok s
  | .remove ordinal =>
    if s.word = Header.occupiedUnlockedBits ordinal then do
      let _ ← s.load build payloadOffset cell
      let next ← addU32 build ordinal 1
      return { s with word := Header.unoccupiedBits next }
    else .ok s
  | .take => do
    let (word, id) ← Header.reset build s.word
    match id with
    | some _ =>
      let _ ← s.load build payloadOffset cell
      return { s with word := word }
    | none => return { s with word := word }

/-- Any number of operations, one after the other. -/
def run : List (CellOp E) → Cell E → Checked (Cell E)
  | [], s => .ok s
  | op :: ops, s => do
    let s ← s.apply build payloadOffset cell op
    run ops s

/-- `Slot::drop`: the element that lies where it looks for one. -/
def drop : Checked (Option E) :=
  if Header.needsDrop s.word then
    match s.memory (dropAddress cell) with
    | some element => .ok (some element)
    | none => .error (.undefined "dropped an element at an address where there is none")
  else .ok none

end Access

/-- The pointer of `contents_ptr`, the cast of `Slot::drop` and the element agree: the drop of an
occupied slot destroys the element last inserted or written, at the address of the references to it. -/
def DropsTheElement (build : Build) (payloadOffset cell : ℕ) (s : Cell E) : Prop :=
  Header.isOccupied s.word = true →
    s.contentsAddress build payloadOffset cell = .ok (dropAddress cell) ∧
      ∃ element, s.latest = some element ∧ s.memory (dropAddress cell) = some element ∧
        s.drop cell = .ok (some element)

end Cell

end ReadWriteStore.Store

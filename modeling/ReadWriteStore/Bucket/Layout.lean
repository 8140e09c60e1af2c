import ReadWriteStore.Util.Checked
import Mathlib.Data.List.Basic

/-!
# The layout of a block in memory

`Block::new` computes by hand where the header and the slots of a block lie and how much memory they
need; every later access, and the deallocation, goes by the layout that `repr(C)` gives to the struct.
Both are here, over any layouts of the header and of a slot.
-/

namespace ReadWriteStore.Bucket

/-- The size and the alignment of a type. -/
structure Layout where
  size : ℕ
  align : ℕ
  align_pow : ∃ k, align = 2 ^ k
  align_dvd : align ∣ size

/-! ## `Block::new` -/

/-- `a + b` on a `usize` of the given width. -/
def addUsize (build : Build) (bits a b : ℕ) : Checked ℕ :=
  if build = .debug ∧ 2 ^ bits ≤ a + b then .error (.overflow "attempt to add with overflow")
  else .ok ((a + b) % 2 ^ bits)

/-- `a * b` on a `usize` of the given width. -/
def mulUsize (build : Build) (bits a b : ℕ) : Checked ℕ :=
  if build = .debug ∧ 2 ^ bits ≤ a * b then .error (.overflow "attempt to multiply with overflow")
  else .ok ((a * b) % 2 ^ bits)

/-- `Block::next_multiple_of`. -/
def nextMultipleOf (build : Build) (bits number multiple : ℕ) : Checked ℕ :=
  if number % multiple = 0 then
    return number
  else do
    let excess := number % multiple
    let padding := multiple - excess
    addUsize build bits number padding

/-- The numbers that `Block::new` computes. -/
structure BlockLayout where
  slotsOffset : ℕ
  blockSize : ℕ
  blockAlign : ℕ
  deriving DecidableEq, Repr

/-- `Block::new` up to the allocation, for blocks of `size` slots. -/
def blockLayout (build : Build) (bits : ℕ) (header slot : Layout) (size : UInt32) :
    Checked BlockLayout := do
  let slotsSize ← mulUsize build bits slot.size size.toNat
  let slotsOffset ← nextMultipleOf build bits header.size slot.align
  let blockAlign := max header.align slot.align
  let blockSize ← nextMultipleOf build bits (← addUsize build bits slotsOffset slotsSize) blockAlign
  return ⟨slotsOffset, blockSize, blockAlign⟩

/-- The pointer through which `Block::new` writes slot `i` of a block allocated at `bytes`. -/
def slotPtr (build : Build) (bits : ℕ) (slot : Layout) (layout : BlockLayout) (bytes i : ℕ) :
    Checked ℕ := do
  let offset ← mulUsize build bits slot.size i
  return bytes + layout.slotsOffset + offset

/-! ## `repr(C)` -/

/-- The least multiple of `align` that is not below `offset`. -/
def roundUp (offset align : ℕ) : ℕ := (offset + align - 1) / align * align

/-- The `repr(C)` rule: the offset of each field, and where the last one ends. -/
def fieldOffsets : ℕ → List (ℕ × ℕ) → List ℕ × ℕ
  | offset, [] => ([], offset)
  | offset, (size, align) :: fields =>
    let start := roundUp offset align
    let (offsets, stop) := fieldOffsets (start + size) fields
    (start :: offsets, stop)

/-- The alignment of a `repr(C)` struct. -/
def structAlign (fields : List (ℕ × ℕ)) : ℕ := fields.foldr (fun field align => max field.2 align) 1

/-- The size of a `repr(C)` struct. -/
def structSize (fields : List (ℕ × ℕ)) : ℕ := roundUp (fieldOffsets 0 fields).2 (structAlign fields)

/-- The size and the alignment of the fields of `Block`, with a slice of `size` slots. -/
def blockFields (header slot : Layout) (size : UInt32) : List (ℕ × ℕ) :=
  [(header.size, header.align), (size.toNat * slot.size, slot.align)]

/-- Where the compiler finds slot `i` of a block. -/
def slotOffset (header slot : Layout) (i : ℕ) : ℕ := roundUp header.size slot.align + i * slot.size

end ReadWriteStore.Bucket

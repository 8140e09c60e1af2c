import ReadWriteStore.Header.Machine

/-!
# The operations of a header that need exclusive access

The methods of `Header` that take `&mut self`: they load and store the word directly, so each is a
function of it.
-/

namespace ReadWriteStore.Header

def needsDrop (state : UInt64) : Bool := isOccupied state

/-- `Header::id`. -/
def currentId (state : UInt64) : UInt32 := idFromBits state

def idIfOccupied (state : UInt64) : Option UInt32 :=
  if isOccupied state then some (idFromBits state) else none

/-- `Header::reset`: the new word, and the ID if the header was occupied. -/
def reset (build : Build) (state : UInt64) : Checked (UInt64 × Option UInt32) := do
  debugAssert build (readersFromBits state == 0) "header had readers (0x\x7b:x\x7d) when being reset"
  if isOccupied state then
    let id := idFromBits state
    let blocking ← hasThreadBlocking build state
    debugAssert build (!blocking) "header had thread blocking when being reset"
    return (unoccupiedBits id, some id)
  else
    return (state, none)

/-- `Header::drop`, which only the debug build has, on a thread that is not panicking. -/
def drop (build : Build) (state : UInt64) : Checked Unit := do
  debugAssert build (readersFromBits state == 0) "header had readers (0x\x7b:x\x7d) when being dropped"
  if build = .debug ∧ isOccupied state then
    let blocking ← hasThreadBlocking build state
    debugAssert build (!blocking) "header had thread blocking when being dropped"

end ReadWriteStore.Header

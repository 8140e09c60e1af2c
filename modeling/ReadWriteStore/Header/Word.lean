import ReadWriteStore.Util.Checked

/-!
# The packed header word

The helpers at the end of `header.rs` on the 64-bit state of a header: the notification bit (set
when no thread is blocking), 31 reader bits (all ones when write locked) and the 32-bit ID.
-/

namespace ReadWriteStore.Header

/-- `RESERVED_ID`, `u32::MAX`. -/
def reservedId : UInt32 := 0xFFFFFFFF

/-- `MAX_CONCURRENT_READS`. -/
def maxConcurrentReads : UInt32 := ((1 : UInt32) <<< 31) - 2

def unoccupiedBits (id : UInt32) : UInt64 := id.toUInt64

def threadNotificationMask : UInt64 := (1 : UInt64) <<< 63

def occupiedUnlockedBits (id : UInt32) : UInt64 := threadNotificationMask ||| unoccupiedBits id

def isOccupied (state : UInt64) : Bool := state >>> 32 != 0

def writeLockedBits (id : UInt32) : UInt64 := id.toUInt64 ||| ((0xFFFFFFFF : UInt32).toUInt64 <<< 32)

def idFromBits (bits : UInt64) : UInt32 := bits.toUInt32

def readersFromBits (bits : UInt64) : UInt32 := (bits >>> 32).toUInt32 &&& ~~~((1 : UInt32) <<< 31)

def isWriteLocked (bits : UInt64) : Bool := readersFromBits bits == ~~~((1 : UInt32) <<< 31)

def hasThreadBlocking (build : Build) (bits : UInt64) : Checked Bool := do
  debugAssert build (isOccupied bits) "cannot check thread blocking status when unoccupied"
  return bits &&& threadNotificationMask == 0

def markThreadBlocking (build : Build) (bits : UInt64) : Checked UInt64 := do
  debugAssert build (readersFromBits bits > 0) "cannot block when unlocked"
  debugAssert build (idFromBits bits != reservedId) "cannot block on the reserved ID"
  return bits &&& ~~~threadNotificationMask

def unmarkThreadBlocking (bits : UInt64) : UInt64 := bits ||| threadNotificationMask

def tooManyReaders : Fault := .explicit "too many concurrent readers on RwStore element"

/-- The addition cannot overflow where the assertions pass, so it is the wrapping one. -/
def incrementReaders (build : Build) (bits : UInt64) : Checked UInt64 := do
  if readersFromBits bits == maxConcurrentReads then
    throw tooManyReaders
  debugAssert build (!isWriteLocked bits) "cannot add reader when write locked"
  debugAssert build (idFromBits bits != reservedId) "cannot lock when empty"
  return bits + ((1 : UInt64) <<< 32)

def decrementReaders (build : Build) (bits : UInt64) : Checked UInt64 := do
  debugAssert build (readersFromBits bits != 0) "no readers to remove"
  return bits - ((1 : UInt64) <<< 32)

end ReadWriteStore.Header

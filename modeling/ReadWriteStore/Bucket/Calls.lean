import ReadWriteStore.Bucket.Growth

/-!
# Calls of one thread

`next_insert_location` for a thread that has the bucket to itself, and what a number of such calls hand
out.
-/

namespace ReadWriteStore.Bucket

namespace Inner

/-- `next_insert_location_slow` after it has grown the chain. -/
def refetchLocation (build : Build) (inner : Inner) : Inner × Checked Location :=
  match inner.nextInsertLocation build with
  | (inner, .ok (some location)) => (inner, .ok location)
  | (inner, .ok none) => (inner, .error (.explicit "called `Option::unwrap()` on a `None` value"))
  | (inner, .error fault) => (inner, .error fault)

/-- `next_insert_location_slow` from where it grows the chain. -/
def expandLocation (build : Build) (inner : Inner) : Inner × Checked Location :=
  match inner.expand build with
  | (inner, .ok ()) => inner.refetchLocation build
  | (inner, .error fault) => (inner, .error fault)

/-- `Bucket::next_insert_location_slow`. -/
def slowLocation (build : Build) (inner : Inner) : Inner × Checked Location :=
  match inner.nextInsertLocation build with
  | (inner, .ok (some location)) => (inner, .ok location)
  | (inner, .ok none) => inner.expandLocation build
  | (inner, .error fault) => (inner, .error fault)

/-- `Bucket::next_insert_location`. -/
def insertLocation (build : Build) (inner : Inner) : Inner × Checked Location :=
  match inner.nextInsertLocation build with
  | (inner, .ok (some location)) => (inner, .ok location)
  | (inner, .ok none) => inner.slowLocation build
  | (inner, .error fault) => (inner, .error fault)

/-- A new bucket after a number of calls. -/
def afterCalls (build : Build) : ℕ → Inner
  | 0 => .new
  | calls + 1 => ((afterCalls build calls).insertLocation build).1

/-- The slots that the first calls on a new bucket hand out. -/
def handouts (build : Build) : ℕ → List Location
  | 0 => []
  | calls + 1 =>
    match ((afterCalls build calls).insertLocation build).2 with
    | .ok location => location :: handouts build calls
    | .error _ => handouts build calls

end Inner

/-- The rest of a call of `next_insert_location`, for a thread alone: the bucket it leaves, and what
it returns. -/
def Point.rest (build : Build) : Point → Inner → Inner × Checked Location
  | .lockRead, inner | .fetch, inner => inner.insertLocation build
  | .unlockRead (.ok (some location)), inner => (inner, .ok location)
  | .unlockRead (.ok none), inner | .lockWrite, inner | .slowFetch, inner => inner.slowLocation build
  | .unlockRead (.error fault), inner => (inner, .error fault)
  | .expand, inner => inner.expandLocation build
  | .refetch, inner => inner.refetchLocation build
  | .unlockWrite location, inner => (inner, location)
  | .capacityLockRead, inner | .capacityLoad, inner | .capacityUnlockRead _ _, inner =>
    (inner, .error .hang)

/-- The same from where a thread is, `none` outside a call of `next_insert_location`. -/
def Control.rest (build : Build) (inner : Inner) : Control → Option (Inner × Checked Location)
  | .running .capacityLockRead | .running .capacityLoad | .running (.capacityUnlockRead _ _)
  | .idle | .returned (.capacity _ _) => none
  | .running point => some (point.rest build inner)
  | .returned (.location location) => some (inner, .ok location)
  | .faulted fault => some (inner, .error fault)

end ReadWriteStore.Bucket

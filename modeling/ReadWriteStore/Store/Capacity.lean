import ReadWriteStore.Store.Walk

/-!
# The capacity of a store

`RwStore::capacity` on a store with no call in flight: the sums over its buckets, in `u32`.
-/

namespace ReadWriteStore.Store

/-- The loop of `RwStore::capacity`. -/
def capacityLoop (build : Build) : List Bucket.Inner → UInt32 → UInt32 → Checked (UInt32 × UInt32)
  | [], totalTouched, totalAllocated => return (totalTouched, totalAllocated)
  | inner :: rest, totalTouched, totalAllocated => do
    let (touched, allocated) ← Bucket.capacity build inner.headSize inner.nextUnusedSlot
    let totalTouched ← addU32 build totalTouched touched
    let totalAllocated ← addU32 build totalAllocated allocated
    capacityLoop build rest totalTouched totalAllocated

/-- `RwStore::capacity`: the touched and the allocated capacity. -/
def capacity (build : Build) (inner : Fin bucketCount → Bucket.Inner) : Checked (UInt32 × UInt32) :=
  capacityLoop build ((List.finRange bucketCount).map inner) 0 0

/-- The sums that the code computes are the true ones. -/
structure ExactCapacity (build : Build) (taken : SlotAddress → Prop)
    (inner : Fin bucketCount → Bucket.Inner) : Prop where
  total : ∀ bucket, ∃ total, Bucket.headSizeToTotalSize build (inner bucket).headSize = .ok total ∧
    total.toNat = (inner bucket).allocated
  sums : ∃ touched allocated, capacity build inner = .ok (touched, allocated) ∧
    touched.toNat = {address | taken address}.ncard ∧
      allocated.toNat = ∑ bucket, (inner bucket).allocated

end ReadWriteStore.Store

import ReadWriteStore.Store.Proofs.PartsProofs

/-!
# Taking a step

What a thread does next, for a run that is built step by step.
-/

namespace ReadWriteStore.Store

variable {T E : Type} [DecidableEq T] {build : Build} {s : State T E} {t : T} {spurious : Bool}
  {bucket : Fin bucketCount} {element : E} {address : SlotAddress}

/-- `insert` calls the bucket that it has drawn. -/
theorem State.act_draw {state : Bucket.State T} (hc : s.control t = .pop element) (hq : s.erasures = [])
    (hb : bucketId (nextGenerator (s.generator t)) = bucket)
    (hstep : Bucket.step build (s.bucket bucket) (.call t .nextInsertLocation) = some state) :
    s.act build t spurious =
      some (({ s with generator := Function.update s.generator t (nextGenerator (s.generator t)) }.setBucket bucket
        state).setControl t (.bucket (.insert bucket element))) := by
  unfold State.act
  simp only [hc, hq, hb]
  unfold State.enterBucket
  simp only [BucketFrame.bucket, BucketFrame.call, hstep, Option.map_some]

theorem State.act_bucketStep {frame : BucketFrame E} {point : Bucket.Point} {state : Bucket.State T}
    (hc : s.control t = .bucket frame) (hpoint : (s.bucket frame.bucket).control t = .running point)
    (hstep : Bucket.step build (s.bucket frame.bucket) (.act t) = some state) :
    s.act build t spurious = some (s.setBucket frame.bucket state) := by
  unfold State.act
  simp only [hc]
  unfold State.actBucket
  simp only [hpoint, hstep, Option.map_some]

/-- The bucket has handed out a slot. -/
theorem State.act_located {location : Bucket.Location} (hc : s.control t = .bucket (.insert bucket element))
    (hreturned : (s.bucket bucket).control t = .returned (.location location)) :
    s.act build t spurious = some ((s.setBucket bucket ((s.bucket bucket).setControl t .idle)).setControl t
      (.place element ⟨bucket, location⟩)) := by
  have hret : Bucket.step build (s.bucket bucket) (.ret t) = some ((s.bucket bucket).setControl t .idle) := by
    simp only [Bucket.step, hreturned]
  unfold State.act
  simp only [hc]
  unfold State.actBucket
  simp only [BucketFrame.bucket, hreturned, hret, Option.bind_some]
  rfl

/-- The call of the bucket has failed. -/
theorem State.act_bucketFault {frame : BucketFrame E} {fault : Fault} (hc : s.control t = .bucket frame)
    (hfault : (s.bucket frame.bucket).control t = .faulted fault) :
    s.act build t spurious = some ((s.setBucket frame.bucket
      ((s.bucket frame.bucket).setControl t .idle)).unwindBucket t fault frame) := by
  have hret : Bucket.step build (s.bucket frame.bucket) (.ret t) =
      some ((s.bucket frame.bucket).setControl t .idle) := by
    simp only [Bucket.step, hfault]
  unfold State.act
  simp only [hc]
  unfold State.actBucket
  simp only [hfault, hret, Option.map_some]

/-- The element goes into the slot, and `occupy` begins. -/
theorem State.act_place {header : Header.State T} (hc : s.control t = .place element address)
    (hstep : Header.step build (s.header address) (.call t .occupy) = some header) :
    s.act build t spurious = some (((s.setValue address element).setHeader address header).setControl t
      (.header (.occupy address element))) := by
  have hheader : (s.setValue address element).header address = s.header address := by
    rw [State.setValue_header]
  unfold State.act
  simp only [hc]
  unfold State.enterHeader
  simp only [Frame.address, Frame.call, hheader, hstep, Option.map_some]

theorem State.act_headerStep {frame : Frame E} {point : Header.Point} {header : Header.State T}
    (hc : s.control t = .header frame) (hpoint : (s.header frame.address).control t = .running point)
    (hstep : Header.step build (s.header frame.address) (.act t spurious) = some header) :
    s.act build t spurious = some (s.setHeader frame.address header) := by
  unfold State.act
  simp only [hc]
  unfold State.actHeader
  simp only [hpoint, hstep, Option.map_some]

/-- The header has answered. -/
theorem State.act_resume {frame : Frame E} {result : Header.Return} {control : Checked (Control E)}
    (hc : s.control t = .header frame) (hreturned : (s.header frame.address).control t = .returned result)
    (hres : frame.resume s.storeId result = some control) :
    s.act build t spurious = some (((s.setHeader frame.address
      ((s.header frame.address).setControl t .idle)).noteIssued frame result).setControl t (.ofChecked control)) := by
  have hret : Header.step build (s.header frame.address) (.ret t) =
      some ((s.header frame.address).setControl t .idle) := by
    simp only [Header.step, hreturned]
  unfold State.act
  simp only [hc]
  unfold State.actHeader
  simp only [hreturned, hret, Option.bind_some]
  unfold State.resumeHeader
  show (frame.resume s.storeId result).map _ = _
  rw [hres, Option.map_some]

/-- The call of the header has failed. -/
theorem State.act_headerFault {frame : Frame E} {fault : Fault} (hc : s.control t = .header frame)
    (hfault : (s.header frame.address).control t = .faulted fault) :
    s.act build t spurious = some ((s.setHeader frame.address
      ((s.header frame.address).setControl t .idle)).setControl t (.faulted fault)) := by
  have hret : Header.step build (s.header frame.address) (.ret t) =
      some ((s.header frame.address).setControl t .idle) := by
    simp only [Header.step, hfault]
  unfold State.act
  simp only [hc]
  unfold State.actHeader
  simp only [hfault, hret, Option.map_some]

end ReadWriteStore.Store

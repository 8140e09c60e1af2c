import ReadWriteStore.Store.Proofs.MachineProofs

/-!
# A step of a store, bucket by bucket and header by header

Seen from one bucket or one header, a step of the store is a step of that bucket or header or nothing
at all. `BucketPart` and `HeaderPart` say which, and what it means for the call that the thread is in.
-/

namespace ReadWriteStore.Store

variable {T E : Type}

/-! ## The parts of a state that an update leaves alone -/

namespace State

variable (s : State T E)

section SetControl

variable [DecidableEq T] (t : T) (control : Control E)

@[simp] theorem setControl_storeId : (s.setControl t control).storeId = s.storeId := rfl
@[simp] theorem setControl_header : (s.setControl t control).header = s.header := rfl
@[simp] theorem setControl_value : (s.setControl t control).value = s.value := rfl
@[simp] theorem setControl_bucket : (s.setControl t control).bucket = s.bucket := rfl
@[simp] theorem setControl_erasures : (s.setControl t control).erasures = s.erasures := rfl
@[simp] theorem setControl_issued : (s.setControl t control).issued = s.issued := rfl
@[simp] theorem setControl_given : (s.setControl t control).given = s.given := rfl
@[simp] theorem setControl_handedBack : (s.setControl t control).handedBack = s.handedBack := rfl
@[simp] theorem setControl_unwound : (s.setControl t control).unwound = s.unwound := rfl
@[simp] theorem setControl_control :
    (s.setControl t control).control = Function.update s.control t control := rfl

end SetControl

section SetHeader

variable (address : SlotAddress) (header : Header.State T)

@[simp] theorem setHeader_storeId : (s.setHeader address header).storeId = s.storeId := rfl
@[simp] theorem setHeader_bucket : (s.setHeader address header).bucket = s.bucket := rfl
@[simp] theorem setHeader_erasures : (s.setHeader address header).erasures = s.erasures := rfl
@[simp] theorem setHeader_issued : (s.setHeader address header).issued = s.issued := rfl
@[simp] theorem setHeader_given : (s.setHeader address header).given = s.given := rfl
@[simp] theorem setHeader_handedBack : (s.setHeader address header).handedBack = s.handedBack := rfl
@[simp] theorem setHeader_unwound : (s.setHeader address header).unwound = s.unwound := rfl
@[simp] theorem setHeader_control : (s.setHeader address header).control = s.control := rfl

@[simp] theorem setHeader_header :
    (s.setHeader address header).header = Function.update s.header address header := by
  funext other
  by_cases h : other = address
  · subst h
    simp [State.header, State.setHeader]
  · simp [State.header, State.setHeader, h]

@[simp] theorem setHeader_value : (s.setHeader address header).value = s.value := by
  funext other
  by_cases h : other = address
  · subst h
    simp [State.value, State.setHeader]
  · simp [State.value, State.setHeader, h]

end SetHeader

section SetValue

variable (address : SlotAddress) (element : E)

@[simp] theorem setValue_storeId : (s.setValue address element).storeId = s.storeId := rfl
@[simp] theorem setValue_bucket : (s.setValue address element).bucket = s.bucket := rfl
@[simp] theorem setValue_erasures : (s.setValue address element).erasures = s.erasures := rfl
@[simp] theorem setValue_issued : (s.setValue address element).issued = s.issued := rfl
@[simp] theorem setValue_given : (s.setValue address element).given = s.given := rfl
@[simp] theorem setValue_handedBack : (s.setValue address element).handedBack = s.handedBack := rfl
@[simp] theorem setValue_unwound : (s.setValue address element).unwound = s.unwound := rfl
@[simp] theorem setValue_control : (s.setValue address element).control = s.control := rfl

@[simp] theorem setValue_header : (s.setValue address element).header = s.header := by
  funext other
  by_cases h : other = address
  · subst h
    simp [State.header, State.setValue]
  · simp [State.header, State.setValue, h]

@[simp] theorem setValue_value :
    (s.setValue address element).value = Function.update s.value address (some element) := by
  funext other
  by_cases h : other = address
  · subst h
    simp [State.value, State.setValue]
  · simp [State.value, State.setValue, h]

end SetValue

section SetBucket

variable (bucket : Fin bucketCount) (state : Bucket.State T)

@[simp] theorem setBucket_storeId : (s.setBucket bucket state).storeId = s.storeId := rfl
@[simp] theorem setBucket_header : (s.setBucket bucket state).header = s.header := rfl
@[simp] theorem setBucket_value : (s.setBucket bucket state).value = s.value := rfl
@[simp] theorem setBucket_erasures : (s.setBucket bucket state).erasures = s.erasures := rfl
@[simp] theorem setBucket_issued : (s.setBucket bucket state).issued = s.issued := rfl
@[simp] theorem setBucket_given : (s.setBucket bucket state).given = s.given := rfl
@[simp] theorem setBucket_handedBack : (s.setBucket bucket state).handedBack = s.handedBack := rfl
@[simp] theorem setBucket_unwound : (s.setBucket bucket state).unwound = s.unwound := rfl
@[simp] theorem setBucket_control : (s.setBucket bucket state).control = s.control := rfl
@[simp] theorem setBucket_bucket :
    (s.setBucket bucket state).bucket = Function.update s.bucket bucket state := rfl

end SetBucket

section NoteIssued

variable (frame : Frame E) (result : Header.Return)

theorem noteIssued_eq : ∃ issued, s.noteIssued frame result = { s with issued := issued } := by
  unfold noteIssued
  split
  · exact ⟨_, rfl⟩
  · exact ⟨_, rfl⟩

@[simp] theorem noteIssued_storeId : (s.noteIssued frame result).storeId = s.storeId := by
  obtain ⟨issued, h⟩ := s.noteIssued_eq frame result
  rw [h]
@[simp] theorem noteIssued_header : (s.noteIssued frame result).header = s.header := by
  obtain ⟨issued, h⟩ := s.noteIssued_eq frame result
  rw [h]
  rfl
@[simp] theorem noteIssued_value : (s.noteIssued frame result).value = s.value := by
  obtain ⟨issued, h⟩ := s.noteIssued_eq frame result
  rw [h]
  rfl
@[simp] theorem noteIssued_bucket : (s.noteIssued frame result).bucket = s.bucket := by
  obtain ⟨issued, h⟩ := s.noteIssued_eq frame result
  rw [h]
@[simp] theorem noteIssued_erasures : (s.noteIssued frame result).erasures = s.erasures := by
  obtain ⟨issued, h⟩ := s.noteIssued_eq frame result
  rw [h]
@[simp] theorem noteIssued_given : (s.noteIssued frame result).given = s.given := by
  obtain ⟨issued, h⟩ := s.noteIssued_eq frame result
  rw [h]
@[simp] theorem noteIssued_handedBack : (s.noteIssued frame result).handedBack = s.handedBack := by
  obtain ⟨issued, h⟩ := s.noteIssued_eq frame result
  rw [h]
@[simp] theorem noteIssued_unwound : (s.noteIssued frame result).unwound = s.unwound := by
  obtain ⟨issued, h⟩ := s.noteIssued_eq frame result
  rw [h]
@[simp] theorem noteIssued_control : (s.noteIssued frame result).control = s.control := by
  obtain ⟨issued, h⟩ := s.noteIssued_eq frame result
  rw [h]

end NoteIssued

/-- A panic in a bucket drops what the method owns, and nothing else. -/
theorem unwindBucket_eq [DecidableEq T] (t : T) (fault : Fault) (frame : BucketFrame E) :
    ∃ unwound, s.unwindBucket t fault frame =
      { s with unwound := unwound }.setControl t (.faulted fault) := by
  cases frame with
  | insert bucket element => exact ⟨element :: s.unwound, rfl⟩
  | capacity bucket totalTouched totalAllocated => exact ⟨s.unwound, rfl⟩

end State

variable [DecidableEq T] {build : Build} {s s' : State T E} {e : Event T E}

/-! ## One header -/

/-- Why a thread enters a call of a header. -/
def EntersHeader (s : State T E) (e : Event T E) (frame : Frame E) : Prop :=
  (s.control e.thread = .idle ∧ ∃ call, e = .call e.thread call ∧ call.frame = some frame) ∨
    (∃ address element, frame = .occupy address element ∧ s.control e.thread = .place element address) ∨
    ∃ id element, frame = .removeLocked id element ∧ s.control e.thread = .moveOutLocked id ∧
      s.value id.slotAddress = some element

/-- What a step means for one header. -/
inductive HeaderPart (build : Build) (s s' : State T E) (e : Event T E) (address : SlotAddress) : Prop
  | same (hheader : s'.header address = s.header address)
      (hframe : ∀ frame : Frame E, frame.address = address →
        (s'.control e.thread = .header frame ↔ s.control e.thread = .header frame))
  | enters {frame : Frame E} (haddress : frame.address = address)
      (hbefore : ∀ other, s.control e.thread ≠ .header other)
      (hafter : s'.control e.thread = .header frame) (hwhy : EntersHeader s e frame)
      (hstep : Header.step build (s.header address) (.call e.thread frame.call)
        = some (s'.header address))
  | goes {frame : Frame E} {event : Header.Event T} (haddress : frame.address = address)
      (hcontrol : s.control e.thread = .header frame) (hsame : s'.control e.thread = .header frame)
      (hevent : (∃ spurious, event = .act e.thread spurious) ∨ event = .expire e.thread)
      (hstep : Header.step build (s.header address) event = some (s'.header address))
  | leaves {frame : Frame E} (haddress : frame.address = address)
      (hbefore : s.control e.thread = .header frame)
      (hafter : ∀ other, s'.control e.thread ≠ .header other)
      (hstep : Header.step build (s.header address) (.ret e.thread) = some (s'.header address))

theorem HeaderPart.of_quiet {address : SlotAddress} (hheader : s'.header = s.header)
    (hbefore : ∀ frame, s.control e.thread ≠ .header frame)
    (hafter : ∀ frame, s'.control e.thread ≠ .header frame) : HeaderPart build s s' e address :=
  .same (by rw [hheader]) fun frame _ =>
    ⟨fun h => absurd h (hafter frame), fun h => absurd h (hbefore frame)⟩

/-- A thread enters a call of a header. -/
theorem HeaderPart.of_enter {address : SlotAddress} {frame : Frame E} {header : Header.State T}
    (hbefore : ∀ other, s.control e.thread ≠ .header other)
    (hafter : s'.control e.thread = .header frame) (hwhy : EntersHeader s e frame)
    (hheader : s'.header = Function.update s.header frame.address header)
    (hstep : Header.step build (s.header frame.address) (.call e.thread frame.call) = some header) :
    HeaderPart build s s' e address := by
  by_cases h : frame.address = address
  · subst h
    refine .enters rfl hbefore hafter hwhy ?_
    rw [hheader, Function.update_self]
    exact hstep
  · refine .same (by rw [hheader, Function.update_of_ne (Ne.symm h)]) fun other hother => ?_
    rw [hafter]
    constructor
    · intro heq
      cases heq
      exact absurd hother h
    · intro heq
      exact absurd heq (hbefore other)

/-- A thread goes on inside a call of a header. -/
theorem HeaderPart.of_go {address : SlotAddress} {frame : Frame E} {header : Header.State T}
    {event : Header.Event T} (hcontrol : s.control e.thread = .header frame)
    (hsame : s'.control e.thread = .header frame)
    (hevent : (∃ spurious, event = .act e.thread spurious) ∨ event = .expire e.thread)
    (hheader : s'.header = Function.update s.header frame.address header)
    (hstep : Header.step build (s.header frame.address) event = some header) :
    HeaderPart build s s' e address := by
  by_cases h : frame.address = address
  · subst h
    refine .goes rfl hcontrol hsame hevent ?_
    rw [hheader, Function.update_self]
    exact hstep
  · refine .same (by rw [hheader, Function.update_of_ne (Ne.symm h)]) fun other _ => ?_
    rw [hcontrol, hsame]

/-- A thread comes back from a call of a header. -/
theorem HeaderPart.of_leave {address : SlotAddress} {frame : Frame E} {header : Header.State T}
    (hbefore : s.control e.thread = .header frame)
    (hafter : ∀ other, s'.control e.thread ≠ .header other)
    (hheader : s'.header = Function.update s.header frame.address header)
    (hstep : Header.step build (s.header frame.address) (.ret e.thread) = some header) :
    HeaderPart build s s' e address := by
  by_cases h : frame.address = address
  · subst h
    refine .leaves rfl hbefore hafter ?_
    rw [hheader, Function.update_self]
    exact hstep
  · refine .same (by rw [hheader, Function.update_of_ne (Ne.symm h)]) fun other hother => ?_
    rw [hbefore]
    constructor
    · intro heq
      exact absurd heq (hafter other)
    · intro heq
      cases heq
      exact absurd hother h

/-- The calls of a bucket or a header that a method makes are behind the thread. -/
def Control.finishing : Control E → Bool
  | .moveOut _ _ _ | .push _ _ | .returned _ | .faulted _ => true
  | _ => false

theorem Control.finishing_ne {control : Control E} (h : control.finishing = true) :
    (∀ frame, control ≠ .header frame) ∧ (∀ frame, control ≠ .bucket frame) ∧
      ∀ id, control ≠ .moveOutLocked id := by
  refine ⟨?_, ?_, ?_⟩
  · rintro frame rfl
    cases h
  · rintro frame rfl
    cases h
  · rintro id rfl
    cases h

theorem afterMove_finishing (id : Id) (mayReuse : Bool) (result : Return E) :
    (afterMove id mayReuse result).finishing = true := by
  cases mayReuse <;> rfl

/-- After its call of a header a method makes no other. -/
theorem Frame.resume_finishing {storeId : UInt64} {frame : Frame E} {result : Header.Return}
    {control : Checked (Control E)} (h : frame.resume storeId result = some control) :
    (Control.ofChecked control).finishing = true := by
  -- a plain method may panic on the result of the other variant
  have hfinish : ∀ {α : Type} (method : Method) (answer : BlockResult α) (f : BlockResult α → Return E),
      (Control.ofChecked (do return .returned (f (← method.finish answer)))).finishing = true := by
    intro α method answer f
    cases method with
    | plain => cases answer <;> rfl
    | withTimeout timeout => rfl
  cases frame with
  | occupy address element =>
    cases result with
    | occupy ordinal => cases h; rfl
    | _ => cases h
  | remove id method =>
    cases result with
    | remove result =>
      rcases result with error | matched
      · cases h
        exact hfinish method (.error error) .remove
      · cases matched with
        | matched mayReuse => cases h; rfl
        | didntMatch =>
          cases h
          exact hfinish method (.ok none) .remove
    | _ => cases h
  | removeLocked id element =>
    cases result with
    | removeLocked mayReuse =>
      cases h
      exact afterMove_finishing ..
    | _ => cases h
  | read id method =>
    cases result with
    | lockRead result =>
      cases h
      exact hfinish method (lockResult id result) .read
    | _ => cases h
  | write id method =>
    cases result with
    | lockWrite result =>
      cases h
      exact hfinish method (lockResult id result) .write
    | _ => cases h
  | dropRead id =>
    cases result with
    | unlockRead => cases h; rfl
    | _ => cases h
  | dropWrite id =>
    cases result with
    | unlockWrite => cases h; rfl
    | _ => cases h

omit [DecidableEq T] in
/-- A thread that is elsewhere is not inside a call of a header. -/
theorem State.not_header {t : T} {control : Control E} (hc : s.control t = control)
    (hne : ∀ frame, control ≠ .header frame) : ∀ frame, s.control t ≠ .header frame := by
  rw [hc]
  exact hne

theorem Move.headerPart (hm : Move build s e s') (address : SlotAddress) :
    HeaderPart build s s' e address := by
  cases hm with
  | enter hc hframe hh =>
    exact .of_enter (State.not_header hc nofun) (State.setControl_self _ _)
      (Or.inl ⟨hc, _, rfl, hframe⟩) (by rw [State.setControl_header, State.setHeader_header]) hh
  | place hc hh =>
    exact .of_enter (State.not_header hc nofun) (State.setControl_self _ _)
      (Or.inr (Or.inl ⟨_, _, rfl, hc⟩))
      (by rw [State.setControl_header, State.setHeader_header, State.setValue_header]; rfl) hh
  | moveOutLocked hc hv hh =>
    exact .of_enter (State.not_header hc nofun) (State.setControl_self _ _)
      (Or.inr (Or.inr ⟨_, _, rfl, hc, hv⟩))
      (by rw [State.setControl_header, State.setHeader_header]; rfl) hh
  | headerStep hc hh => exact .of_go hc hc (Or.inl ⟨_, rfl⟩) (State.setHeader_header ..) hh
  | expire hc hh => exact .of_go hc hc (Or.inr rfl) (State.setHeader_header ..) hh
  | resume hc hr hh hres =>
    exact .of_leave hc (State.not_header (State.setControl_self _ _) (Control.finishing_ne (Frame.resume_finishing hres)).1)
      (by rw [State.setControl_header, State.noteIssued_header, State.setHeader_header]) hh
  | headerFault hc hr hh =>
    exact .of_leave hc (State.not_header (State.setControl_self _ _) nofun)
      (by rw [State.setControl_header, State.setHeader_header]) hh
  | @bucketFault t _ frame fault bucket hc hr hb =>
    obtain ⟨unwound, heq⟩ := (s.setBucket frame.bucket bucket).unwindBucket_eq t fault frame
    rw [heq]
    exact .of_quiet rfl (State.not_header hc nofun)
      (State.not_header (State.setControl_self _ _) nofun)
  | replace hc hreplace =>
    exact .of_quiet (by rw [State.setControl_header, State.setValue_header]; rfl)
      (State.not_header hc nofun) (State.not_header (State.setControl_self _ _) nofun)
  | bucketStep hc | elsewhere hc => exact .of_quiet rfl (State.not_header hc nofun) (State.not_header hc nofun)
  | @moveOut t _ id method mayReuse element hc hv =>
    exact .of_quiet rfl (State.not_header hc nofun)
      (State.not_header (State.setControl_self _ _) (Control.finishing_ne (afterMove_finishing ..)).1)
  | moveFault hc hv =>
    refine .of_quiet rfl ?_ (State.not_header (State.setControl_self _ _) nofun)
    rcases hc with hc | ⟨method, mayReuse, hc⟩
    · exact State.not_header hc nofun
    · exact State.not_header hc nofun
  | insert hc | removeLocked hc | capacity hc | look hc | callFault hc | reuse hc | draw hc | located hc
  | addedNext hc | addedLast hc | addFault hc | push hc | ret hc | retFault hc =>
    exact .of_quiet rfl (State.not_header hc nofun) (State.not_header (State.setControl_self _ _) nofun)

/-! ## One bucket -/

/-- What a step means for one bucket. -/
inductive BucketPart (build : Build) (s s' : State T E) (e : Event T E) (bucket : Fin bucketCount) : Prop
  | same (hbucket : s'.bucket bucket = s.bucket bucket)
      (hframe : ∀ frame : BucketFrame E, frame.bucket = bucket →
        (s'.control e.thread = .bucket frame ↔ s.control e.thread = .bucket frame))
  | enters {frame : BucketFrame E} (hb : frame.bucket = bucket)
      (hbefore : ∀ other, s.control e.thread = .bucket other → other.bucket ≠ bucket)
      (hafter : s'.control e.thread = .bucket frame)
      (hstep : Bucket.step build (s.bucket bucket) (.call e.thread frame.call) = some (s'.bucket bucket))
  | goes {frame : BucketFrame E} (hb : frame.bucket = bucket) (hcontrol : s.control e.thread = .bucket frame)
      (hsame : s'.control e.thread = .bucket frame)
      (hstep : Bucket.step build (s.bucket bucket) (.act e.thread) = some (s'.bucket bucket))
  | leaves {frame : BucketFrame E} (hb : frame.bucket = bucket) (hbefore : s.control e.thread = .bucket frame)
      (hafter : ∀ other, s'.control e.thread = .bucket other → other.bucket ≠ bucket)
      (hstep : Bucket.step build (s.bucket bucket) (.ret e.thread) = some (s'.bucket bucket))

omit [DecidableEq T] in
theorem State.not_bucket {t : T} {control : Control E} (hc : s.control t = control)
    (hne : ∀ frame, control ≠ .bucket frame) : ∀ frame, s.control t ≠ .bucket frame := by
  rw [hc]
  exact hne

theorem BucketPart.of_quiet {bucket : Fin bucketCount} (hbucket : s'.bucket = s.bucket)
    (hbefore : ∀ frame, s.control e.thread ≠ .bucket frame)
    (hafter : ∀ frame, s'.control e.thread ≠ .bucket frame) : BucketPart build s s' e bucket :=
  .same (by rw [hbucket]) fun frame _ =>
    ⟨fun h => absurd h (hafter frame), fun h => absurd h (hbefore frame)⟩

/-- A thread enters a call of a bucket. -/
theorem BucketPart.of_enter {bucket : Fin bucketCount} {frame : BucketFrame E} {state : Bucket.State T}
    (hbefore : ∀ other, s.control e.thread ≠ .bucket other)
    (hafter : s'.control e.thread = .bucket frame)
    (hbucket : s'.bucket = Function.update s.bucket frame.bucket state)
    (hstep : Bucket.step build (s.bucket frame.bucket) (.call e.thread frame.call) = some state) :
    BucketPart build s s' e bucket := by
  by_cases h : frame.bucket = bucket
  · subst h
    refine .enters rfl (fun other hother => absurd hother (hbefore other)) hafter ?_
    rw [hbucket, Function.update_self]
    exact hstep
  · refine .same (by rw [hbucket, Function.update_of_ne (Ne.symm h)]) fun other hother => ?_
    rw [hafter]
    constructor
    · intro heq
      cases heq
      exact absurd hother h
    · intro heq
      exact absurd heq (hbefore other)

/-- A thread comes back from a call of a bucket. -/
theorem BucketPart.of_leave {bucket : Fin bucketCount} {frame : BucketFrame E} {state : Bucket.State T}
    (hbefore : s.control e.thread = .bucket frame)
    (hafter : ∀ other, s'.control e.thread ≠ .bucket other)
    (hbucket : s'.bucket = Function.update s.bucket frame.bucket state)
    (hstep : Bucket.step build (s.bucket frame.bucket) (.ret e.thread) = some state) :
    BucketPart build s s' e bucket := by
  by_cases h : frame.bucket = bucket
  · subst h
    refine .leaves rfl hbefore (fun other hother => absurd hother (hafter other)) ?_
    rw [hbucket, Function.update_self]
    exact hstep
  · refine .same (by rw [hbucket, Function.update_of_ne (Ne.symm h)]) fun other hother => ?_
    rw [hbefore]
    constructor
    · intro heq
      exact absurd heq (hafter other)
    · intro heq
      cases heq
      exact absurd hother h

theorem Move.bucketPart (hm : Move build s e s') (bucket : Fin bucketCount) :
    BucketPart build s s' e bucket := by
  cases hm with
  | capacity hc hb => exact .of_enter (State.not_bucket hc nofun) (State.setControl_self _ _) rfl hb
  | draw hc hq hg hb => exact .of_enter (State.not_bucket hc nofun) (State.setControl_self _ _) rfl hb
  | @bucketStep t _ frame state hc hb =>
    by_cases h : frame.bucket = bucket
    · subst h
      refine .goes rfl hc hc ?_
      rw [State.setBucket_bucket, Function.update_self]
      exact hb
    · exact .same (by rw [State.setBucket_bucket, Function.update_of_ne (Ne.symm h)]) fun _ _ => Iff.rfl
  | located hc hr hb =>
    exact .of_leave hc (State.not_bucket (State.setControl_self _ _) nofun) rfl hb
  | addedLast hc hr hb =>
    exact .of_leave hc (State.not_bucket (State.setControl_self _ _) nofun) rfl hb
  | addFault hc hr hb =>
    exact .of_leave hc (State.not_bucket (State.setControl_self _ _) nofun) rfl hb
  | @bucketFault t _ frame fault state hc hr hb =>
    obtain ⟨unwound, heq⟩ := (s.setBucket frame.bucket state).unwindBucket_eq t fault frame
    rw [heq]
    exact .of_leave hc (State.not_bucket (State.setControl_self _ _) nofun) rfl hb
  | @addedNext t _ b _ _ _ _ _ _ state next hc hr hb ht ha hlt hn =>
    have hne : (⟨b.val + 1, hlt⟩ : Fin bucketCount) ≠ b := by
      intro he
      have := congrArg Fin.val he
      simp at this
    by_cases h : b = bucket
    · subst h
      refine .leaves rfl hc ?_ ?_
      · intro other hother
        cases (State.setControl_self _ _).symm.trans hother
        exact hne
      · show _ = some (Function.update (Function.update s.bucket b state) _ next b)
        rw [Function.update_of_ne hne.symm, Function.update_self]
        exact hb
    · by_cases h' : (⟨b.val + 1, hlt⟩ : Fin bucketCount) = bucket
      · subst h'
        refine .enters rfl ?_ (State.setControl_self _ _) ?_
        · intro other hother
          cases hc.symm.trans hother
          exact h
        · show _ = some (Function.update (Function.update s.bucket b state) _ next _)
          rw [Function.update_self]
          exact hn
      · refine .same ?_ fun other hother => ?_
        · show Function.update (Function.update s.bucket b state) _ next bucket = _
          rw [Function.update_of_ne (Ne.symm h'), Function.update_of_ne (Ne.symm h)]
        · constructor
          · intro heq
            cases (State.setControl_self _ _).symm.trans heq
            exact absurd hother h'
          · intro heq
            cases hc.symm.trans heq
            exact absurd hother h
  | resume hc hr hh hres =>
    exact .of_quiet (by rw [State.setControl_bucket, State.noteIssued_bucket]; rfl) (State.not_bucket hc nofun)
      (State.not_bucket (State.setControl_self _ _) (Control.finishing_ne (Frame.resume_finishing hres)).2.1)
  | headerStep hc | expire hc | elsewhere hc =>
    exact .of_quiet rfl (State.not_bucket hc nofun) (State.not_bucket hc nofun)
  | @moveOut t _ id method mayReuse element hc hv =>
    exact .of_quiet rfl (State.not_bucket hc nofun)
      (State.not_bucket (State.setControl_self _ _) (Control.finishing_ne (afterMove_finishing ..)).2.1)
  | moveFault hc hv =>
    refine .of_quiet rfl ?_ (State.not_bucket (State.setControl_self _ _) nofun)
    rcases hc with hc | ⟨method, mayReuse, hc⟩
    · exact State.not_bucket hc nofun
    · exact State.not_bucket hc nofun
  | insert hc | enter hc | removeLocked hc | look hc | replace hc | callFault hc | reuse hc | place hc
  | headerFault hc | moveOutLocked hc | push hc | ret hc | retFault hc =>
    exact .of_quiet rfl (State.not_bucket hc nofun) (State.not_bucket (State.setControl_self _ _) nofun)

/-! ## The other threads, and the IDs -/

/-- A step changes the control of its own thread only. -/
theorem Move.control_ne (hm : Move build s e s') {u : T} (hu : u ≠ e.thread) :
    s'.control u = s.control u := by
  cases hm with
  | @bucketFault t _ frame fault state hc hr hb =>
    obtain ⟨unwound, heq⟩ := (s.setBucket frame.bucket state).unwindBucket_eq t fault frame
    rw [heq]
    exact Function.update_of_ne hu _ _
  | resume hc hr hh hres =>
    rw [State.setControl_control, State.noteIssued_control]
    exact Function.update_of_ne hu _ _
  | headerStep | expire | bucketStep | elsewhere => rfl
  | _ => exact Function.update_of_ne hu _ _

/-- `remove_locked` starts with the element. -/
theorem Move.of_moveOutLocked (hm : Move build s e s') {id : Id}
    (hc' : s'.control e.thread = .moveOutLocked id) (hne : s.control e.thread ≠ .moveOutLocked id) :
    e = .call e.thread (.removeLocked id) ∧ s'.header = s.header := by
  cases hm with
  | removeLocked hc =>
    cases (State.setControl_self _ _).symm.trans hc'
    exact ⟨rfl, rfl⟩
  | @bucketFault t _ frame fault state hc hr hb =>
    obtain ⟨unwound, heq⟩ := (s.setBucket frame.bucket state).unwindBucket_eq t fault frame
    rw [heq] at hc'
    cases (State.setControl_self _ _).symm.trans hc'
  | resume hc hr hh hres =>
    exact absurd ((State.setControl_self _ _).symm.trans hc')
      ((Control.finishing_ne (Frame.resume_finishing hres)).2.2 id)
  | moveOut hc hv =>
    exact absurd ((State.setControl_self _ _).symm.trans hc')
      ((Control.finishing_ne (afterMove_finishing ..)).2.2 id)
  | headerStep | expire | bucketStep | elsewhere => exact absurd hc' hne
  | _ => cases (State.setControl_self _ _).symm.trans hc'

/-- A thread with the element to move out has one step to take. -/
theorem Move.moveOutLocked_ne (hm : Move build s e s') {id : Id}
    (hc : s.control e.thread = .moveOutLocked id) : s'.control e.thread ≠ .moveOutLocked id := by
  intro hc'
  cases hm with
  | moveOutLocked _ hv hh => cases (State.setControl_self _ _).symm.trans hc'
  | moveFault _ hv => cases (State.setControl_self _ _).symm.trans hc'
  | headerStep h | expire h | bucketStep h | elsewhere h | insert h | enter h | removeLocked h | capacity h
  | look h | replace h | callFault h | reuse h | draw h | place h | located h | addedNext h | addedLast h
  | addFault h | bucketFault h | resume h | headerFault h | moveOut h | push h | ret h | retFault h =>
    cases hc.symm.trans h

/-- A step issues no ID, or the one that `occupy` has returned. -/
theorem Move.issues (hm : Move build s e s') :
    s'.issued = s.issued ∨ ∃ address element ordinal,
      s.control e.thread = .header (.occupy address element) ∧
        (s.header address).control e.thread = .returned (.occupy ordinal) ∧
          s'.issued = ⟨ordinal, address, s.storeId⟩ :: s.issued := by
  cases hm with
  | @resume t _ frame result header control hc hr hh hres =>
    cases frame with
    | occupy address element =>
      cases result with
      | occupy ordinal => exact Or.inr ⟨address, element, ordinal, hc, hr, rfl⟩
      | _ => exact Or.inl rfl
    | _ => exact Or.inl rfl
  | @bucketFault t _ frame fault bucket _ _ _ => cases frame <;> exact Or.inl rfl
  | _ => exact Or.inl rfl

end ReadWriteStore.Store

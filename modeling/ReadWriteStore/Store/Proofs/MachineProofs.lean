import ReadWriteStore.Store.Machine

/-!
# What a step of a store can do

`Move` lists the steps with their guards. A step of a thread inside a call of a bucket or a header
carries the step of that bucket or header.
-/

namespace ReadWriteStore.Store

/-! ## Calls -/

section Calls

variable {T E : Type} [DecidableEq T]

/-- The calls that go straight to a header. -/
def Call.frame : Call E → Option (Frame E)
  | .remove id method => some (.remove id method)
  | .read id method => some (.read id method)
  | .write id method => some (.write id method)
  | .dropRead id => some (.dropRead id)
  | .dropWrite id => some (.dropWrite id)
  | _ => none

/-- The ID that `assert_native_id` looks at. -/
def Call.checkedId : Call E → Option Id
  | .remove id _ | .read id _ | .write id _ | .removeLocked id | .getMut id | .replaceMut id _ => some id
  | _ => none

/-- The IDs whose element a call accesses directly, in a given state. -/
def Call.accesses (s : State T E) : Call E → Option SlotAddress
  | .deref _ id | .replace id _ => some id.slotAddress
  | .getMut id | .replaceMut id _ =>
    if Header.currentId (s.header id.slotAddress).word = id.ordinal then some id.slotAddress else none
  | _ => none

/-- How a call can fail at once. -/
inductive CallFault (build : Build) (s : State T E) : Call E → Fault → Prop
  | foreign {call : Call E} {id : Id} {fault : Fault} (hid : call.checkedId = some id)
      (hfault : s.assertNativeId build id = .error fault) : CallFault build s call fault
  | access {call : Call E} {address : SlotAddress} {fault : Fault}
      (haddress : call.accesses s = some address)
      (hfault : contentsPtr build (s.value address) = .error fault) : CallFault build s call fault
  | iterMut {stack steps : ℕ} {fault : Fault}
      (hfault : (GenIter.new fun bucket => (s.bucket bucket).inner).take build
        (mutTracker build s.storeId) stack steps s.slot = .error fault) (hgoes : fault ≠ .stackOverflow) :
      CallFault build s (.iterMut stack steps) fault

/-- What a call that only looks at elements returns. -/
inductive Looks (build : Build) (s : State T E) : Call E → Return E → Prop
  | deref {kind : Header.LockKind} {id : Id} {element : E} (h : s.value id.slotAddress = some element) :
      Looks build s (.deref kind id) (.deref element)
  | getMut {id : Id} {element : Option E}
      (h : (s.slot id.slotAddress).getExclusive build id.ordinal = .ok element) :
      Looks build s (.getMut id) (.getMut element)
  | replaceMut {id : Id} {element : E}
      (h : Header.currentId (s.header id.slotAddress).word ≠ id.ordinal) :
      Looks build s (.replaceMut id element) (.replaceMut none)
  | iterMut {stack steps : ℕ} {items : List (Id × E)} {iter : GenIter} {slots : SlotAddress → Slot T E}
      (h : (GenIter.new fun bucket => (s.bucket bucket).inner).take build
        (mutTracker build s.storeId) stack steps s.slot = .ok (items, iter, slots)) :
      Looks build s (.iterMut stack steps) (.iterMut items)

/-- What a call that replaces an element returns. -/
inductive Replaces (s : State T E) : Call E → SlotAddress → E → Return E → Prop
  | replace {id : Id} {element old : E} (h : s.value id.slotAddress = some old) :
      Replaces s (.replace id element) id.slotAddress element (.replace old)
  | replaceMut {id : Id} {element old : E} (h : s.value id.slotAddress = some old)
      (hid : Header.currentId (s.header id.slotAddress).word = id.ordinal) :
      Replaces s (.replaceMut id element) id.slotAddress element (.replaceMut (some old))

end Calls

/-! ## Inversion of a step -/

/-- What `step` can do on an event. -/
inductive Move {T E : Type} [DecidableEq T] (build : Build) (s : State T E) :
    Event T E → State T E → Prop
  -- an idle thread calls a method
  | insert {t : T} {element : E} (hc : s.control t = .idle) :
      Move build s (.call t (.insert element))
        ({ s with given := element :: s.given }.setControl t (.pop element))
  | enter {t : T} {call : Call E} {frame : Frame E} {header : Header.State T}
      (hc : s.control t = .idle) (hframe : call.frame = some frame)
      (hh : Header.step build (s.header frame.address) (.call t frame.call) = some header) :
      Move build s (.call t call) ((s.setHeader frame.address header).setControl t (.header frame))
  | removeLocked {t : T} {id : Id} (hc : s.control t = .idle) :
      Move build s (.call t (.removeLocked id)) (s.setControl t (.moveOutLocked id))
  | capacity {t : T} {bucket : Bucket.State T} (hc : s.control t = .idle)
      (hb : Bucket.step build (s.bucket 0) (.call t .capacity) = some bucket) :
      Move build s (.call t .capacity) ((s.setBucket 0 bucket).setControl t (.bucket (.capacity 0 0 0)))
  | look {t : T} {call : Call E} {result : Return E} (hc : s.control t = .idle)
      (hlook : Looks build s call result) :
      Move build s (.call t call) (s.setControl t (.returned result))
  | replace {t : T} {call : Call E} {address : SlotAddress} {element : E} {result : Return E}
      (hc : s.control t = .idle) (hreplace : Replaces s call address element result) :
      Move build s (.call t call)
        (({ s with given := element :: s.given }.setValue address element).setControl t
          (.returned result))
  | callFault {t : T} {call : Call E} {fault : Fault} (hc : s.control t = .idle)
      (hfault : CallFault build s call fault) :
      Move build s (.call t call) (s.setControl t (.faulted fault))
  -- the steps of `insert` outside a bucket and a header
  | reuse {t : T} {spurious : Bool} {element : E} {address : SlotAddress} {rest : List SlotAddress}
      (hc : s.control t = .pop element) (hq : s.erasures = address :: rest) :
      Move build s (.act t spurious)
        ({ s with erasures := rest }.setControl t (.place element address))
  | draw {t : T} {spurious : Bool} {element : E} {generator : UInt32} {bucket : Bucket.State T}
      (hc : s.control t = .pop element) (hq : s.erasures = [])
      (hg : generator = nextGenerator (s.generator t))
      (hb : Bucket.step build (s.bucket (bucketId generator)) (.call t .nextInsertLocation)
        = some bucket) :
      Move build s (.act t spurious)
        (({ s with generator := Function.update s.generator t generator }.setBucket
          (bucketId generator) bucket).setControl t (.bucket (.insert (bucketId generator) element)))
  | place {t : T} {spurious : Bool} {element : E} {address : SlotAddress} {header : Header.State T}
      (hc : s.control t = .place element address)
      (hh : Header.step build (s.header address) (.call t .occupy) = some header) :
      Move build s (.act t spurious) (((s.setValue address element).setHeader address header).setControl t
        (.header (.occupy address element)))
  -- inside a call of a bucket
  | bucketStep {t : T} {spurious : Bool} {frame : BucketFrame E} {bucket : Bucket.State T}
      (hc : s.control t = .bucket frame)
      (hb : Bucket.step build (s.bucket frame.bucket) (.act t) = some bucket) :
      Move build s (.act t spurious) (s.setBucket frame.bucket bucket)
  | located {t : T} {spurious : Bool} {b : Fin bucketCount} {element : E}
      {location : Bucket.Location} {bucket : Bucket.State T}
      (hc : s.control t = .bucket (.insert b element))
      (hr : (s.bucket b).control t = .returned (.location location))
      (hb : Bucket.step build (s.bucket b) (.ret t) = some bucket) :
      Move build s (.act t spurious)
        ((s.setBucket b bucket).setControl t (.place element ⟨b, location⟩))
  | addedNext {t : T} {spurious : Bool} {b : Fin bucketCount}
      {totalTouched totalAllocated touched allocated totalTouched' totalAllocated' : UInt32}
      {bucket next : Bucket.State T} (hc : s.control t = .bucket (.capacity b totalTouched totalAllocated))
      (hr : (s.bucket b).control t = .returned (.capacity touched allocated))
      (hb : Bucket.step build (s.bucket b) (.ret t) = some bucket)
      (ht : addU32 build totalTouched touched = .ok totalTouched')
      (ha : addU32 build totalAllocated allocated = .ok totalAllocated')
      (hlt : b.val + 1 < bucketCount)
      (hn : Bucket.step build (s.bucket ⟨b.val + 1, hlt⟩) (.call t .capacity) = some next) :
      Move build s (.act t spurious) (((s.setBucket b bucket).setBucket ⟨b.val + 1, hlt⟩ next).setControl t
        (.bucket (.capacity ⟨b.val + 1, hlt⟩ totalTouched' totalAllocated')))
  | addedLast {t : T} {spurious : Bool} {b : Fin bucketCount}
      {totalTouched totalAllocated touched allocated totalTouched' totalAllocated' : UInt32}
      {bucket : Bucket.State T} (hc : s.control t = .bucket (.capacity b totalTouched totalAllocated))
      (hr : (s.bucket b).control t = .returned (.capacity touched allocated))
      (hb : Bucket.step build (s.bucket b) (.ret t) = some bucket)
      (ht : addU32 build totalTouched touched = .ok totalTouched')
      (ha : addU32 build totalAllocated allocated = .ok totalAllocated')
      (hlast : ¬b.val + 1 < bucketCount) :
      Move build s (.act t spurious) ((s.setBucket b bucket).setControl t
        (.returned (.capacity totalTouched' totalAllocated')))
  | addFault {t : T} {spurious : Bool} {b : Fin bucketCount}
      {totalTouched totalAllocated touched allocated : UInt32} {fault : Fault}
      {bucket : Bucket.State T} (hc : s.control t = .bucket (.capacity b totalTouched totalAllocated))
      (hr : (s.bucket b).control t = .returned (.capacity touched allocated))
      (hb : Bucket.step build (s.bucket b) (.ret t) = some bucket)
      (hfault : addU32 build totalTouched touched = .error fault ∨
        addU32 build totalAllocated allocated = .error fault) :
      Move build s (.act t spurious) ((s.setBucket b bucket).setControl t (.faulted fault))
  | bucketFault {t : T} {spurious : Bool} {frame : BucketFrame E} {fault : Fault}
      {bucket : Bucket.State T} (hc : s.control t = .bucket frame)
      (hr : (s.bucket frame.bucket).control t = .faulted fault)
      (hb : Bucket.step build (s.bucket frame.bucket) (.ret t) = some bucket) :
      Move build s (.act t spurious) ((s.setBucket frame.bucket bucket).unwindBucket t fault frame)
  -- inside a call of a header
  | headerStep {t : T} {spurious : Bool} {frame : Frame E} {header : Header.State T}
      (hc : s.control t = .header frame)
      (hh : Header.step build (s.header frame.address) (.act t spurious) = some header) :
      Move build s (.act t spurious) (s.setHeader frame.address header)
  | expire {t : T} {frame : Frame E} {header : Header.State T} (hc : s.control t = .header frame)
      (hh : Header.step build (s.header frame.address) (.expire t) = some header) :
      Move build s (.expire t) (s.setHeader frame.address header)
  | resume {t : T} {spurious : Bool} {frame : Frame E} {result : Header.Return}
      {header : Header.State T} {control : Checked (Control E)} (hc : s.control t = .header frame)
      (hr : (s.header frame.address).control t = .returned result)
      (hh : Header.step build (s.header frame.address) (.ret t) = some header)
      (hres : frame.resume s.storeId result = some control) :
      Move build s (.act t spurious)
        (((s.setHeader frame.address header).noteIssued frame result).setControl t (.ofChecked control))
  | headerFault {t : T} {spurious : Bool} {frame : Frame E} {fault : Fault} {header : Header.State T}
      (hc : s.control t = .header frame)
      (hr : (s.header frame.address).control t = .faulted fault)
      (hh : Header.step build (s.header frame.address) (.ret t) = some header) :
      Move build s (.act t spurious)
        ((s.setHeader frame.address header).setControl t (.faulted fault))
  -- the steps of a removal outside a header
  | moveOut {t : T} {spurious : Bool} {id : Id} {method : Method} {mayReuse : Bool} {element : E}
      (hc : s.control t = .moveOut id method mayReuse) (hv : s.value id.slotAddress = some element) :
      Move build s (.act t spurious)
        (s.setControl t (afterMove id mayReuse (.remove (.ok (some element)))))
  | moveOutLocked {t : T} {spurious : Bool} {id : Id} {element : E} {header : Header.State T}
      (hc : s.control t = .moveOutLocked id) (hv : s.value id.slotAddress = some element)
      (hh : Header.step build (s.header id.slotAddress) (.call t (.removeLocked id.ordinal))
        = some header) :
      Move build s (.act t spurious)
        ((s.setHeader id.slotAddress header).setControl t (.header (.removeLocked id element)))
  | moveFault {t : T} {spurious : Bool} {id : Id} {fault : Fault}
      (hc : s.control t = .moveOutLocked id ∨ ∃ method mayReuse, s.control t = .moveOut id method mayReuse)
      (hv : assumeInit build (s.value id.slotAddress) = .error fault) :
      Move build s (.act t spurious) (s.setControl t (.faulted fault))
  | push {t : T} {spurious : Bool} {id : Id} {result : Return E} (hc : s.control t = .push id result) :
      Move build s (.act t spurious)
        ({ s with erasures := s.erasures ++ [id.slotAddress] }.setControl t (.returned result))
  -- back to the caller
  | ret {t : T} {result : Return E} (hc : s.control t = .returned result) :
      Move build s (.ret t) (s.finish t result)
  | retFault {t : T} {fault : Fault} (hc : s.control t = .faulted fault) :
      Move build s (.ret t) (s.setControl t .idle)
  | elsewhere {t : T} (hc : s.control t = .idle) :
      Move build s (.elsewhere t)
        { s with generator := Function.update s.generator t (nextGenerator (s.generator t)) }

section Machine

variable {T E : Type} [DecidableEq T] {build : Build} {s s' : State T E} {t : T}

@[simp] theorem State.setControl_self (t : T) (control : Control E) :
    (s.setControl t control).control t = control :=
  Function.update_self ..

theorem State.entered_bucket (bucket : Fin bucketCount) (state : Bucket.State T) (t : T) (control : Control E) :
    ((s.setBucket bucket state).setControl t control).bucket bucket = state :=
  Function.update_self ..

theorem assumeInit_eq_ok {α : Type} {x : Option α} {a : α} (h : assumeInit build x = .ok a) :
    x = some a := by
  cases x with
  | some b => cases h; rfl
  | none => cases build <;> cases h

theorem contentsPtr_eq_ok {x : Option E} {a : E} (h : contentsPtr build x = .ok a) : x = some a := by
  cases x with
  | some b => cases h; rfl
  | none => cases build <;> cases h

/-- A check that went well, or the fault it ended the call with. -/
theorem State.checked_cases {α : Type} {result : Checked α} {next : α → Option (State T E)}
    (h : s.checked t result next = some s') :
    (∃ value, result = .ok value ∧ next value = some s') ∨
      ∃ fault, result = .error fault ∧ s' = s.setControl t (.faulted fault) := by
  cases result with
  | ok value => exact Or.inl ⟨value, rfl, h⟩
  | error fault =>
    cases h
    exact Or.inr ⟨fault, rfl, rfl⟩

/-- A call that goes straight to a header. -/
theorem Move.of_enter {call : Call E} {frame : Frame E} (hc : s.control t = .idle)
    (hframe : call.frame = some frame) (h : s.enterHeader build t frame = some s') :
    Move build s (.call t call) s' := by
  obtain ⟨header, hh, rfl⟩ := Option.map_eq_some_iff.1 h
  exact .enter hc hframe hh

/-- The same after `assert_native_id`. -/
theorem Move.of_checked_enter {call : Call E} {frame : Frame E} {id : Id} (hc : s.control t = .idle)
    (hid : call.checkedId = some id) (hframe : call.frame = some frame)
    (h : s.checked t (s.assertNativeId build id) (fun _ => s.enterHeader build t frame) = some s') :
    Move build s (.call t call) s' := by
  rcases State.checked_cases h with ⟨-, -, h⟩ | ⟨fault, hfault, rfl⟩
  · exact .of_enter hc hframe h
  · exact .callFault hc (.foreign hid hfault)

omit [DecidableEq T] in
/-- The three outcomes of `get_exclusive`. -/
theorem getExclusive_cases (build : Build) (slot : Slot T E) (ordinal : UInt32) :
    (Header.currentId slot.header.word ≠ ordinal ∧ slot.getExclusive build ordinal = .ok none) ∨
      (Header.currentId slot.header.word = ordinal ∧ ∃ element, slot.value = some element ∧
        slot.getExclusive build ordinal = .ok (some element)) ∨
      (Header.currentId slot.header.word = ordinal ∧ ∃ fault,
        contentsPtr build slot.value = .error fault ∧ slot.getExclusive build ordinal = .error fault) := by
  unfold Slot.getExclusive
  by_cases hid : Header.currentId slot.header.word = ordinal
  · rw [if_pos hid]
    cases hp : contentsPtr build slot.value with
    | ok element => exact Or.inr (Or.inl ⟨hid, element, contentsPtr_eq_ok hp, rfl⟩)
    | error fault => exact Or.inr (Or.inr ⟨hid, fault, rfl, rfl⟩)
  · rw [if_neg hid]
    exact Or.inl ⟨hid, rfl⟩

theorem Move.of_start {call : Call E} (hc : s.control t = .idle) (h : s.start build t call = some s') :
    Move build s (.call t call) s' := by
  cases call with
  | insert element => cases h; exact .insert hc
  | remove id method => exact .of_checked_enter hc rfl rfl h
  | removeLocked id =>
    rcases State.checked_cases h with ⟨-, -, h⟩ | ⟨fault, hfault, rfl⟩
    · cases h
      exact .removeLocked hc
    · exact .callFault hc (.foreign rfl hfault)
  | read id method => exact .of_checked_enter hc rfl rfl h
  | write id method => exact .of_checked_enter hc rfl rfl h
  | dropRead id => exact .of_enter hc rfl h
  | dropWrite id => exact .of_enter hc rfl h
  | deref kind id =>
    rcases State.checked_cases h with ⟨element, hv, h⟩ | ⟨fault, hfault, rfl⟩
    · cases h
      exact .look hc (.deref (contentsPtr_eq_ok hv))
    · exact .callFault hc (.access rfl hfault)
  | replace id element =>
    rcases State.checked_cases h with ⟨⟨slot, old⟩, hv, h⟩ | ⟨fault, hfault, rfl⟩
    · obtain ⟨old', hp, he⟩ := Checked.bind_eq_ok hv
      cases he
      cases h
      exact .replace hc (.replace (contentsPtr_eq_ok hp))
    · rcases Checked.bind_eq_error hfault with hp | ⟨old, -, he⟩
      · exact .callFault hc (.access rfl hp)
      · cases he
  | capacity =>
    obtain ⟨bucket, hb, rfl⟩ := Option.map_eq_some_iff.1 h
    exact .capacity hc hb
  | getMut id =>
    rcases State.checked_cases h with ⟨-, -, h⟩ | ⟨fault, hfault, rfl⟩
    · rcases State.checked_cases h with ⟨element, hv, h⟩ | ⟨fault, hfault, rfl⟩
      · cases h
        exact .look hc (.getMut hv)
      · rcases getExclusive_cases build (s.slot id.slotAddress) id.ordinal with
          ⟨-, he⟩ | ⟨-, element, -, he⟩ | ⟨hid, fault', hp, he⟩
        · rw [he] at hfault; cases hfault
        · rw [he] at hfault; cases hfault
        · rw [he] at hfault
          cases hfault
          exact .callFault hc (.access (if_pos hid) hp)
    · exact .callFault hc (.foreign rfl hfault)
  | replaceMut id element =>
    rcases State.checked_cases h with ⟨-, -, h⟩ | ⟨fault, hfault, rfl⟩
    · rcases State.checked_cases h with ⟨old, hv, h⟩ | ⟨fault, hfault, rfl⟩
      · rcases getExclusive_cases build (s.slot id.slotAddress) id.ordinal with
          ⟨hid, he⟩ | ⟨hid, old', hval, he⟩ | ⟨hid, fault', hp, he⟩
        · rw [he] at hv
          cases hv
          cases h
          exact .look hc (.replaceMut hid)
        · rw [he] at hv
          cases hv
          cases h
          exact .replace hc (.replaceMut hval hid)
        · rw [he] at hv; cases hv
      · rcases getExclusive_cases build (s.slot id.slotAddress) id.ordinal with
          ⟨-, he⟩ | ⟨-, element', -, he⟩ | ⟨hid, fault', hp, he⟩
        · rw [he] at hfault; cases hfault
        · rw [he] at hfault; cases hfault
        · rw [he] at hfault
          cases hfault
          exact .callFault hc (.access (if_pos hid) hp)
    · exact .callFault hc (.foreign rfl hfault)
  | iterMut stack steps =>
    have hgoes : ¬Checked.aborts ((GenIter.new fun bucket => (s.bucket bucket).inner).take build
        (mutTracker build s.storeId) stack steps s.slot) = true := by
      intro haborts
      simp only [State.start, haborts, if_true] at h
      cases h
    simp only [State.start, if_neg hgoes] at h
    rcases State.checked_cases h with ⟨⟨items, iter, slots⟩, hv, h⟩ | ⟨fault, hfault, rfl⟩
    · cases h
      exact .look hc (.iterMut hv)
    · refine .callFault hc (.iterMut hfault ?_)
      rintro rfl
      rw [hfault] at hgoes
      exact hgoes rfl

theorem Move.of_actBucket {spurious : Bool} {frame : BucketFrame E} (hc : s.control t = .bucket frame)
    (h : s.actBucket build t frame = some s') : Move build s (.act t spurious) s' := by
  unfold State.actBucket at h
  split at h
  · cases h
  · obtain ⟨bucket, hb, rfl⟩ := Option.map_eq_some_iff.1 h
    exact .bucketStep hc hb
  · rename_i result hr
    obtain ⟨bucket, hb, h⟩ := Option.bind_eq_some_iff.1 h
    cases frame with
    | insert b element =>
      cases result with
      | location location => cases h; exact .located hc hr hb
      | capacity touched allocated => cases h
    | capacity b totalTouched totalAllocated =>
      cases result with
      | location location => cases h
      | capacity touched allocated =>
        rcases State.checked_cases h with ⟨⟨totalTouched', totalAllocated'⟩, hsum, h⟩ | ⟨fault, hfault, rfl⟩
        · obtain ⟨touched', ht, hsum⟩ := Checked.bind_eq_ok hsum
          obtain ⟨allocated', ha, hsum⟩ := Checked.bind_eq_ok hsum
          cases hsum
          dsimp only at h
          split at h
          · rename_i hlt
            obtain ⟨next, hn, rfl⟩ := Option.map_eq_some_iff.1 h
            have hne : (⟨b.val + 1, hlt⟩ : Fin bucketCount) ≠ b := by
              intro he
              have := congrArg Fin.val he
              simp at this
            refine .addedNext hc hr hb ht ha hlt ?_
            simpa [State.setBucket, BucketFrame.bucket, BucketFrame.call, hne] using hn
          · rename_i hlast
            cases h
            exact .addedLast hc hr hb ht ha hlast
        · refine .addFault hc hr hb ?_
          rcases Checked.bind_eq_error hfault with hf | ⟨touched', -, hfault⟩
          · exact Or.inl hf
          · rcases Checked.bind_eq_error hfault with hf | ⟨allocated', -, hfault⟩
            · exact Or.inr hf
            · cases hfault
  · rename_i fault hr
    obtain ⟨bucket, hb, rfl⟩ := Option.map_eq_some_iff.1 h
    exact .bucketFault hc hr hb

theorem Move.of_actHeader {spurious : Bool} {frame : Frame E} (hc : s.control t = .header frame)
    (h : s.actHeader build t spurious frame = some s') : Move build s (.act t spurious) s' := by
  unfold State.actHeader at h
  split at h
  · cases h
  · obtain ⟨header, hh, rfl⟩ := Option.map_eq_some_iff.1 h
    exact .headerStep hc hh
  · rename_i result hr
    obtain ⟨header, hh, h⟩ := Option.bind_eq_some_iff.1 h
    obtain ⟨control, hres, rfl⟩ := Option.map_eq_some_iff.1 h
    exact .resume hc hr hh hres
  · rename_i fault hr
    obtain ⟨header, hh, rfl⟩ := Option.map_eq_some_iff.1 h
    exact .headerFault hc hr hh

theorem Move.of_act {spurious : Bool} (h : s.act build t spurious = some s') :
    Move build s (.act t spurious) s' := by
  unfold State.act at h
  split at h
  · rename_i element hc
    split at h
    · rename_i address rest hq
      cases h
      exact .reuse hc hq
    · rename_i hq
      obtain ⟨bucket, hb, rfl⟩ := Option.map_eq_some_iff.1 h
      exact .draw hc hq rfl hb
  · rename_i frame hc
    exact .of_actBucket hc h
  · rename_i element address hc
    obtain ⟨header, hh, rfl⟩ := Option.map_eq_some_iff.1 h
    refine .place hc ?_
    simpa [State.setValue, State.header, Frame.address, Frame.call] using hh
  · rename_i frame hc
    exact .of_actHeader hc h
  · rename_i id method mayReuse hc
    rcases State.checked_cases h with ⟨element, hv, h⟩ | ⟨fault, hfault, rfl⟩
    · rcases State.checked_cases h with ⟨result, hf, h⟩ | ⟨fault, hfault, rfl⟩
      · have hresult : result = .ok (some element) := by
          cases method <;> cases hf <;> rfl
        subst hresult
        cases h
        exact .moveOut hc (assumeInit_eq_ok hv)
      · cases method <;> cases hfault
    · exact .moveFault (Or.inr ⟨method, mayReuse, hc⟩) hfault
  · rename_i id hc
    rcases State.checked_cases h with ⟨element, hv, h⟩ | ⟨fault, hfault, rfl⟩
    · obtain ⟨header, hh, rfl⟩ := Option.map_eq_some_iff.1 h
      exact .moveOutLocked hc (assumeInit_eq_ok hv) hh
    · exact .moveFault (Or.inl hc) hfault
  · rename_i id result hc
    cases h
    exact .push hc
  · cases h
  · cases h
  · cases h

theorem Move.of_step {e : Event T E} (h : step build s e = some s') : Move build s e s' := by
  cases e with
  | call t call =>
    simp only [step] at h
    split at h
    · rename_i hc
      exact .of_start hc h
    · cases h
  | act t spurious => exact .of_act h
  | expire t =>
    simp only [step] at h
    split at h
    · rename_i frame hc
      obtain ⟨header, hh, rfl⟩ := Option.map_eq_some_iff.1 h
      exact .expire hc hh
    · cases h
  | ret t =>
    simp only [step] at h
    split at h
    · rename_i result hc
      cases h
      exact .ret hc
    · rename_i fault hc
      cases h
      exact .retFault hc
    · cases h
  | elsewhere t =>
    simp only [step] at h
    split at h
    · rename_i hc
      cases h
      exact .elsewhere hc
    · cases h

/-- The store keeps its identity. -/
theorem Move.storeId_eq {e : Event T E} (hm : Move build s e s') : s'.storeId = s.storeId := by
  cases hm with
  | @resume t _ frame result header control _ _ _ hres =>
    cases frame <;> cases result <;> rfl
  | @bucketFault t _ frame fault bucket _ _ _ => cases frame <;> rfl
  | _ => rfl

theorem Control.isIdle_iff {control : Control E} : control.isIdle = true ↔ control = .idle := by
  cases control <;> simp [Control.isIdle]

/-- A state that a list of events leads to. -/
theorem exists_reachable [Fintype T] (build : Build) (storeId : UInt64) (generator : T → UInt32)
    (es : List (Event T E)) (p : State T E → Bool)
    (hp : (Transition.System.replay (step build) Allowed (.init storeId generator) es).any p = true) :
    ∃ s, (machine build T E).Reachable s ∧ p s = true :=
  Transition.System.exists_reachable ⟨storeId, generator, rfl⟩ es p hp

end Machine

end ReadWriteStore.Store

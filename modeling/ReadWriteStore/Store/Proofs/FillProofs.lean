import ReadWriteStore.Bucket.Proofs.FillProofs
import ReadWriteStore.Header.Proofs.ChangeProofs
import ReadWriteStore.Store.Proofs.ActProofs
import ReadWriteStore.Store.Proofs.BalanceProofs

/-!
# Inserts that fill a bucket of a store

A thread alone, which inserts into other stores in between until the generator is where it wants it,
fills one bucket of the store up to the last slot of the largest block. In the debug build more inserts
fail, and wrap the counter of the bucket around.
-/

namespace ReadWriteStore.Store

open Function

variable {E : Type} {build : Build} {s : State (Fin 1) E}

/-! ## One insert -/

/-- A store that its thread is not using, with no erasures. -/
structure State.Resting (s : State (Fin 1) E) (inner : Fin bucketCount → Bucket.Inner) : Prop where
  control : s.control 0 = .idle
  erasures : s.erasures = []
  bucket : s.bucket = fun bucket => Bucket.calm (inner bucket)

theorem reach {s' : State (Fin 1) E} (e : Event (Fin 1) E) (hr : (machine build (Fin 1) E).Reachable s)
    (ha : Allowed s e) (h : step build s e = some s') : (machine build (Fin 1) E).Reachable s' :=
  .step hr ⟨ha, h⟩

theorem step_act (t : Fin 1) (spurious : Bool) :
    step build s (.act t spurious) = s.act build t spurious := rfl

/-- The thread is inside a call of a bucket. -/
def State.inCall (s : State (Fin 1) E) (bucket : Fin bucketCount) (element : E)
    (state : Bucket.State (Fin 1)) : State (Fin 1) E :=
  (s.setBucket bucket state).setControl 0 (.bucket (.insert bucket element))

theorem inCall_bucket (s : State (Fin 1) E) (bucket : Fin bucketCount) (element : E)
    (state : Bucket.State (Fin 1)) : (s.inCall bucket element state).bucket bucket = state :=
  update_self ..

theorem inCall_control {bucket : Fin bucketCount} {element : E} {state : Bucket.State (Fin 1)} :
    (s.inCall bucket element state).control 0 = .bucket (.insert bucket element) :=
  State.setControl_self _ _

/-- The bucket goes on. -/
theorem inCall_setBucket (s : State (Fin 1) E) (bucket : Fin bucketCount) (element : E)
    (state state' : Bucket.State (Fin 1)) :
    (s.inCall bucket element state).setBucket bucket state' = s.inCall bucket element state' := by
  unfold State.inCall State.setBucket State.setControl
  simp only [update_idem]

theorem reach_inCall {bucket : Fin bucketCount} {element : E} {state state' : Bucket.State (Fin 1)}
    (hr : (machine build (Fin 1) E).Reachable (s.inCall bucket element state))
    (h : Bucket.Leads build state state') :
    (machine build (Fin 1) E).Reachable (s.inCall bucket element state') := by
  induction h with
  | refl => exact hr
  | @tail state₁ state₂ _ hstep ih =>
    refine reach (.act 0 false) ih trivial ?_
    have hrunning : ∃ point, state₁.control 0 = .running point := by
      cases hc : state₁.control 0 with
      | running point => exact ⟨point, rfl⟩
      | _ =>
        simp only [Bucket.step, hc] at hstep
        cases hstep
    obtain ⟨point, hpoint⟩ := hrunning
    rw [step_act, ← inCall_setBucket s bucket element state₁ state₂]
    exact State.act_bucketStep inCall_control ((congrFun (congrArg _ (inCall_bucket ..)) 0).trans hpoint)
      (by rw [BucketFrame.bucket, inCall_bucket, hstep])

/-- The thread draws a bucket and calls it. -/
theorem act_draw {element : E} {bucket : Fin bucketCount} {inner : Bucket.Inner} {spurious : Bool}
    (hc : s.control 0 = .pop element) (hq : s.erasures = [])
    (hb : bucketId (nextGenerator (s.generator 0)) = bucket) (hs : s.bucket bucket = Bucket.calm inner) :
    s.act build 0 spurious =
      some ({ s with generator := update s.generator 0 (nextGenerator (s.generator 0)) }.inCall bucket
        element (Bucket.single inner [] none (.running .lockRead))) := by
  have hstep : Bucket.step build (s.bucket bucket) (.call 0 .nextInsertLocation) =
      some (Bucket.single inner [] none (.running .lockRead)) := by
    rw [hs]
    exact congrArg some (Bucket.single_setControl _ _ _ _ _)
  exact State.act_draw hc hq hb hstep

theorem inCall_ret {bucket : Fin bucketCount} {element : E} {inner : Bucket.Inner} {control : Bucket.Control} :
    (s.inCall bucket element (Bucket.single inner [] none control)).setBucket bucket
        (((s.inCall bucket element (Bucket.single inner [] none control)).bucket bucket).setControl 0 .idle) =
      s.inCall bucket element (Bucket.calm inner) := by
  rw [inCall_setBucket, inCall_bucket, Bucket.single_setControl]
  rfl

/-- The bucket has handed out a slot. -/
theorem act_located {element : E} {bucket : Fin bucketCount} {inner : Bucket.Inner} {spurious : Bool}
    {location : Bucket.Location} :
    (s.inCall bucket element (Bucket.single inner [] none (.returned (.location location)))).act build 0
        spurious =
      some ((s.setBucket bucket (Bucket.calm inner)).setControl 0 (.place element ⟨bucket, location⟩)) := by
  rw [State.act_located inCall_control (by rw [inCall_bucket]; rfl), inCall_ret]
  unfold State.inCall State.setControl
  simp only [update_idem]

/-- The call of the bucket has failed. -/
theorem act_failed {element : E} {bucket : Fin bucketCount} {inner : Bucket.Inner} {spurious : Bool}
    {fault : Fault} :
    (s.inCall bucket element (Bucket.single inner [] none (.faulted fault))).act build 0 spurious =
      some ({ s with unwound := element :: s.unwound }.setBucket bucket (Bucket.calm inner)
        |>.setControl 0 (.faulted fault)) := by
  rw [State.act_bucketFault inCall_control (by rw [BucketFrame.bucket, inCall_bucket]; rfl), BucketFrame.bucket,
    inCall_ret]
  unfold State.unwindBucket State.inCall State.setControl
  simp only [update_idem]
  rfl

/-! ### Occupying the slot -/

/-- The header of a slot with its first element. -/
def occupiedHeader : Header.State (Fin 1) :=
  { Header.State.init with word := Header.occupiedUnlockedBits 0, issued := [0] }

/-- The header of a slot inside its first `occupy`. -/
def occupyingHeader (control : Header.Control) (word : UInt64) (issued : List UInt32) :
    Header.State (Fin 1) :=
  { Header.State.init with word := word, control := fun _ => control, issued := issued }

theorem occupyingHeader_setControl {control control' : Header.Control} {word : UInt64} {issued : List UInt32} :
    (occupyingHeader control word issued).setControl 0 control' = occupyingHeader control' word issued := by
  unfold Header.State.setControl occupyingHeader
  congr 1
  funext t
  rw [Subsingleton.elim t 0, update_self]

theorem header_call : Header.step build (Header.State.init : Header.State (Fin 1)) (.call 0 .occupy) =
    some (occupyingHeader (.running .occupyFetchOr) (Header.unoccupiedBits 0) []) :=
  congrArg some (occupyingHeader_setControl : (occupyingHeader .idle (Header.unoccupiedBits 0) []).setControl 0 _ = _)

theorem header_act :
    Header.step build (occupyingHeader (.running .occupyFetchOr) (Header.unoccupiedBits 0) []) (.act 0 false) =
      some (occupyingHeader (.returned (.occupy 0)) (Header.occupiedUnlockedBits 0) [0]) := by
  have hafter : Header.afterFetchOr build (Header.unoccupiedBits 0) = .ok (.returned (.occupy 0)) := by
    cases build <;> decide
  have hexec : (AtomicOp.fetchOr Header.threadNotificationMask .acqRel).exec false (Header.unoccupiedBits 0) =
      (Header.occupiedUnlockedBits 0, .value (Header.unoccupiedBits 0)) := by decide
  refine congrArg some ((Header.exec_eq hexec).trans ?_)
  show Header.State.setControl _ 0 (.ofChecked (Header.afterFetchOr build (Header.unoccupiedBits 0))) = _
  rw [hafter]
  exact (occupyingHeader_setControl :
    (occupyingHeader (.running .occupyFetchOr) (Header.occupiedUnlockedBits 0) [0]).setControl 0 _ = _)

/-- The thread is inside a call of a header. -/
def State.inHeader (s : State (Fin 1) E) (frame : Frame E) (element : E) (header : Header.State (Fin 1)) :
    State (Fin 1) E :=
  { s with slot := update s.slot frame.address ⟨header, some element⟩ }.setControl 0 (.header frame)

section Occupy

variable {address : SlotAddress} {frame : Frame E} {element : E} {header header' : Header.State (Fin 1)}
  {spurious : Bool}

theorem inHeader_header : (s.inHeader frame element header).header frame.address = header := by
  show (update s.slot frame.address ⟨header, some element⟩ frame.address).header = header
  rw [update_self]

theorem inHeader_control : (s.inHeader frame element header).control 0 = .header frame :=
  State.setControl_self _ _

theorem inHeader_setHeader :
    (s.inHeader frame element header).setHeader frame.address header' = s.inHeader frame element header' := by
  unfold State.inHeader State.setHeader State.setControl
  simp only [update_idem, update_self]

/-- The element is in the slot. -/
theorem act_place (hc : s.control 0 = .place element address) (hnew : s.slot address = .new) :
    s.act build 0 spurious =
      some (s.inHeader (.occupy address element) element
        (occupyingHeader (.running .occupyFetchOr) (Header.unoccupiedBits 0) [])) := by
  have hheader : s.header address = Header.State.init := by
    unfold State.header
    rw [hnew]
    rfl
  rw [State.act_place hc (hheader ▸ header_call)]
  unfold State.setHeader State.setValue State.inHeader State.setControl
  simp only [Frame.address, update_idem, update_self]

/-- The header goes on. -/
theorem act_header (hrunning : ∃ point, header.control 0 = .running point)
    (hstep : Header.step build header (.act 0 spurious) = some header') :
    (s.inHeader frame element header).act build 0 spurious = some (s.inHeader frame element header') := by
  obtain ⟨point, hpoint⟩ := hrunning
  rw [State.act_headerStep inHeader_control (by rw [inHeader_header, hpoint]) (by rw [inHeader_header, hstep]),
    inHeader_setHeader]

/-- The ID is noted. -/
theorem act_occupied :
    (s.inHeader (.occupy address element) element
      (occupyingHeader (.returned (.occupy 0)) (Header.occupiedUnlockedBits 0) [0])).act build 0 spurious =
      some ({ s with
        slot := update s.slot address ⟨occupiedHeader, some element⟩
        issued := ⟨0, address, s.storeId⟩ :: s.issued }.setControl 0
          (.returned (.insert ⟨0, address, s.storeId⟩))) := by
  have hreturned : ((s.inHeader (.occupy address element) element
      (occupyingHeader (.returned (.occupy 0)) (Header.occupiedUnlockedBits 0) [0])).header
        (Frame.occupy address element).address).control 0 = .returned (.occupy 0) := by
    rw [inHeader_header]
    rfl
  rw [State.act_resume inHeader_control hreturned rfl, inHeader_setHeader, inHeader_header, occupyingHeader_setControl]
  unfold State.noteIssued State.inHeader State.setControl
  simp only [Frame.address, update_idem]
  rfl

end Occupy

/-! ### The whole insert -/

theorem ret_inserted {id : Id} : step build (s.setControl 0 (.returned (.insert id))) (.ret 0) =
    some (s.setControl 0 .idle) := by
  simp only [step, State.finish, State.setControl, update_self, update_idem]
  rfl

theorem ret_faulted {fault : Fault} : step build (s.setControl 0 (.faulted fault)) (.ret 0) =
    some (s.setControl 0 .idle) := by
  simp only [step, State.setControl, update_self, update_idem]

/-- What an insert that draws a slot does to the store. -/
structure Inserted (s s' : State (Fin 1) E) (address : SlotAddress) (element : E) : Prop where
  storeId : s'.storeId = s.storeId
  slot : s'.slot = update s.slot address ⟨occupiedHeader, some element⟩
  issued : s'.issued = ⟨0, address, s.storeId⟩ :: s.issued

theorem calm_update (inner : Fin bucketCount → Bucket.Inner) (bucket : Fin bucketCount) (inner' : Bucket.Inner) :
    update (fun other => Bucket.calm (inner other)) bucket (Bucket.calm inner') =
      fun other => Bucket.calm (update inner bucket inner' other) := by
  funext other
  by_cases hother : other = bucket
  · subst hother
    rw [update_self, update_self]
  · rw [update_of_ne hother, update_of_ne hother]

/-- The first steps of an insert: the call of the bucket is at its end. -/
theorem reach_answered {inner : Fin bucketCount → Bucket.Inner} {bucket : Fin bucketCount} (element : E)
    (hr : (machine build (Fin 1) E).Reachable s) (hs : s.Resting inner)
    (hb : bucketId (nextGenerator (s.generator 0)) = bucket) :
    ∃ generator control, (machine build (Fin 1) E).Reachable
      ({ s with given := element :: s.given, generator := generator, control := control }.inCall bucket
        element (Bucket.single ((inner bucket).insertLocation build).1 [] none
          (Bucket.afterUnlockWrite ((inner bucket).insertLocation build).2))) := by
  have hstart : step build s (.call 0 (.insert element)) =
      some ({ s with given := element :: s.given }.setControl 0 (.pop element)) := by
    simp only [step, hs.control]
    rfl
  have h₁ := reach (.call 0 (.insert element)) hr trivial hstart
  have h₂ := reach (.act 0 false) h₁ trivial ((step_act 0 false).trans
    (act_draw (State.setControl_self _ _) hs.erasures hb (congrFun hs.bucket bucket)))
  exact ⟨_, _, reach_inCall h₂ (Bucket.leads_insert build (inner bucket))⟩

/-- An insert that has been handed a slot. -/
theorem reach_place {inner : Fin bucketCount → Bucket.Inner} {inner' : Bucket.Inner}
    {location : Bucket.Location} {bucket : Fin bucketCount} (element : E)
    (hr : (machine build (Fin 1) E).Reachable s) (hs : s.Resting inner)
    (hb : bucketId (nextGenerator (s.generator 0)) = bucket)
    (hcall : (inner bucket).insertLocation build = (inner', .ok location)) :
    ∃ generator control, (machine build (Fin 1) E).Reachable
      (({ s with given := element :: s.given, generator := generator, control := control }.setBucket bucket
        (Bucket.calm inner')).setControl 0 (.place element ⟨bucket, location⟩)) := by
  obtain ⟨generator, control, h₃⟩ := reach_answered element hr hs hb
  rw [hcall] at h₃
  exact ⟨generator, control, reach (.act 0 false) h₃ trivial ((step_act 0 false).trans act_located)⟩

/-- An insert into a bucket that hands out a slot. -/
theorem reach_insert {inner : Fin bucketCount → Bucket.Inner} {inner' : Bucket.Inner}
    {location : Bucket.Location} {bucket : Fin bucketCount} (element : E)
    (hr : (machine build (Fin 1) E).Reachable s) (hs : s.Resting inner)
    (hb : bucketId (nextGenerator (s.generator 0)) = bucket)
    (hcall : (inner bucket).insertLocation build = (inner', .ok location))
    (hnew : s.slot ⟨bucket, location⟩ = .new) :
    ∃ s', (machine build (Fin 1) E).Reachable s' ∧ s'.Resting (update inner bucket inner') ∧
      Inserted s s' ⟨bucket, location⟩ element := by
  obtain ⟨generator, control, h₄⟩ := reach_place element hr hs hb hcall
  have h₅ := reach (.act 0 false) h₄ trivial ((step_act 0 false).trans
    (act_place (State.setControl_self _ _) hnew))
  have h₆ := reach (.act 0 false) h₅ trivial ((step_act 0 false).trans (act_header ⟨_, rfl⟩ header_act))
  have h₇ := reach (.act 0 false) h₆ trivial ((step_act 0 false).trans act_occupied)
  refine ⟨_, reach (.ret 0) h₇ trivial ret_inserted, ⟨State.setControl_self _ _, hs.erasures, ?_⟩,
    rfl, rfl, rfl⟩
  show update s.bucket bucket (Bucket.calm inner') = _
  rw [hs.bucket]
  exact calm_update inner bucket inner'

/-- An insert into a bucket whose call fails: the panic is on its way. -/
theorem reach_insert_faulted {inner : Fin bucketCount → Bucket.Inner} {inner' : Bucket.Inner}
    {fault : Fault} {bucket : Fin bucketCount} (element : E)
    (hr : (machine build (Fin 1) E).Reachable s) (hs : s.Resting inner)
    (hb : bucketId (nextGenerator (s.generator 0)) = bucket)
    (hcall : (inner bucket).insertLocation build = (inner', .error fault)) :
    ∃ s' : State (Fin 1) E, (machine build (Fin 1) E).Reachable (s'.setControl 0 (.faulted fault)) ∧
      (s'.setControl 0 .idle).Resting (update inner bucket inner') ∧
      s'.storeId = s.storeId ∧ s'.slot = s.slot ∧ s'.issued = s.issued := by
  obtain ⟨generator, control, h₃⟩ := reach_answered element hr hs hb
  rw [hcall] at h₃
  have h₄ := reach (.act 0 false) h₃ trivial ((step_act 0 false).trans act_failed)
  refine ⟨_, h₄, ⟨State.setControl_self _ _, hs.erasures, ?_⟩, rfl, rfl, rfl⟩
  show update s.bucket bucket (Bucket.calm inner') = _
  rw [hs.bucket]
  exact calm_update inner bucket inner'

/-- An insert into a bucket whose call fails. -/
theorem reach_insert_fault {inner : Fin bucketCount → Bucket.Inner} {inner' : Bucket.Inner}
    {fault : Fault} {bucket : Fin bucketCount} (element : E)
    (hr : (machine build (Fin 1) E).Reachable s) (hs : s.Resting inner)
    (hb : bucketId (nextGenerator (s.generator 0)) = bucket)
    (hcall : (inner bucket).insertLocation build = (inner', .error fault)) :
    ∃ s', (machine build (Fin 1) E).Reachable s' ∧ s'.Resting (update inner bucket inner') ∧
      s'.storeId = s.storeId ∧ s'.slot = s.slot ∧ s'.issued = s.issued := by
  obtain ⟨s', h, hrest, hid, hslot, hissued⟩ := reach_insert_faulted element hr hs hb hcall
  exact ⟨_, reach (.ret 0) h trivial ret_faulted, hrest, hid, hslot, hissued⟩

/-! ## Steering -/

/-- Inserts into other stores move the generator to where the next insert draws the given bucket. -/
theorem reach_steered {inner : Fin bucketCount → Bucket.Inner}
    (hr : (machine build (Fin 1) E).Reachable s) (hs : s.Resting inner) (bucket : Fin bucketCount) :
    ∃ generator, (machine build (Fin 1) E).Reachable { s with generator := generator } ∧
      bucketId (nextGenerator (generator 0)) = bucket := by
  have hmoved : ∀ n, (machine build (Fin 1) E).Reachable
      { s with generator := update s.generator 0 (nextGenerator^[n] (s.generator 0)) } := by
    intro n
    induction n with
    | zero => simpa using hr
    | succ n ih =>
      refine reach (.elsewhere 0) ih trivial ?_
      simp only [step, hs.control, update_self, update_idem, iterate_succ_apply']
  have hperiod : minimalPeriod nextBucket (bucketId (nextGenerator (s.generator 0))) =
      Fintype.card (Fin bucketCount) := by
    rw [minimalPeriod_nextBucket, Fintype.card_fin]
  obtain ⟨n, hn⟩ := Transition.exists_iterate_eq hperiod bucket
  refine ⟨_, hmoved n, ?_⟩
  rw [update_self, ← hn, ← bucketId_iterate, ← iterate_succ_apply' nextGenerator, iterate_succ_apply]

/-! ## Filling -/

/-- The buckets of a store of which only the first one is used. -/
def onlyFirst (inner : Bucket.Inner) (bucket : Fin bucketCount) : Bucket.Inner :=
  if bucket = 0 then inner else .new

theorem update_onlyFirst (inner inner' : Bucket.Inner) :
    update (onlyFirst inner) 0 inner' = onlyFirst inner' := by
  funext bucket
  unfold onlyFirst
  by_cases hb : bucket = 0
  · subst hb
    rw [update_self, if_pos rfl]
  · rw [update_of_ne hb, if_neg hb, if_neg hb]

/-- The slots that the first bucket has handed out hold elements, and the other slots are new. -/
structure Stocked (s : State (Fin 1) E) (inner : Bucket.Inner) (element : E) : Prop where
  occupied : ∀ location, inner.HandedOut location → s.slot ⟨0, location⟩ = ⟨occupiedHeader, some element⟩
  new : ∀ address : SlotAddress, (address.bucket = 0 → ¬inner.HandedOut address.location) →
    s.slot address = .new
  issued : ∀ id, id ∈ s.issued ↔ ∃ location, inner.HandedOut location ∧ id = ⟨0, ⟨0, location⟩, s.storeId⟩

theorem Stocked.insert {s' : State (Fin 1) E} {inner inner' : Bucket.Inner} {location : Bucket.Location}
    {element : E} (h : Stocked s inner element) (hdraws : inner.Draws build inner' location)
    (hs : Inserted s s' ⟨0, location⟩ element) : Stocked s' inner' element where
  occupied other hother := by
    rw [hs.slot]
    by_cases heq : other = location
    · rw [heq, update_self]
    · have hne : (⟨0, other⟩ : SlotAddress) ≠ ⟨0, location⟩ := fun he => heq (SlotAddress.mk.inj he).2
      rw [update_of_ne hne]
      exact h.occupied other (((hdraws.handedOut other).1 hother).resolve_right heq)
  new address hnot := by
    have hne : address ≠ ⟨0, location⟩ := by
      rintro rfl
      exact hnot rfl ((hdraws.handedOut location).2 (Or.inr rfl))
    rw [hs.slot, update_of_ne hne]
    exact h.new address fun hb hout => hnot hb ((hdraws.handedOut _).2 (Or.inl hout))
  issued id := by
    rw [hs.issued, hs.storeId, List.mem_cons, h.issued]
    constructor
    · rintro (rfl | ⟨other, hout, rfl⟩)
      · exact ⟨location, (hdraws.handedOut _).2 (Or.inr rfl), rfl⟩
      · exact ⟨other, (hdraws.handedOut _).2 (Or.inl hout), rfl⟩
    · rintro ⟨other, hout, rfl⟩
      rcases (hdraws.handedOut other).1 hout with hold | rfl
      · exact Or.inr ⟨other, hold, rfl⟩
      · exact Or.inl rfl

theorem Stocked.quiet {inner : Bucket.Inner} {buckets : Fin bucketCount → Bucket.Inner} {element : E}
    (h : Stocked s inner element) (hrest : s.Resting buckets) : s.Quiet := by
  intro t
  rw [Fin.fin_one_eq_zero t]
  refine ⟨by rw [hrest.control]; rfl, fun address _ => ?_⟩
  unfold State.header
  by_cases hout : address.bucket = 0 ∧ inner.HandedOut address.location
  · obtain ⟨bucket, location⟩ := address
    obtain ⟨rfl, hlocation⟩ := hout
    rw [h.occupied location hlocation]
    rfl
  · rw [h.new address fun hb hlocation => hout ⟨hb, hlocation⟩]
    rfl

/-- Every number of slots that a bucket can have is reached. -/
theorem exists_stocked (build : Build) (element : E) {n : ℕ} (hn : n < 2 ^ 32) :
    ∃ s inner, (machine build (Fin 1) E).Reachable s ∧ s.Resting (onlyFirst inner) ∧ inner.Settled ∧
      inner.touched.length = n ∧ Stocked s inner element := by
  induction n with
  | zero =>
    refine ⟨State.init 0 fun _ => 0, .new, .init ⟨0, fun _ => 0, rfl⟩, ⟨rfl, rfl, ?_⟩, .new, rfl, ?_⟩
    · funext bucket
      unfold onlyFirst
      rw [ite_self]
      rfl
    · have hnone : ∀ location, ¬(Bucket.Inner.new : Bucket.Inner).HandedOut location :=
        Bucket.init_not_handedOut (T := Fin 1)
      refine ⟨fun location hout => absurd hout (hnone location), fun _ _ => rfl, fun id => ?_⟩
      refine ⟨fun hmem => absurd hmem List.not_mem_nil, ?_⟩
      rintro ⟨location, hout, -⟩
      exact absurd hout (hnone location)
  | succ n ih =>
    obtain ⟨s, inner, hr, hrest, hsettled, hlen, hstocked⟩ := ih (by omega)
    obtain ⟨inner', location, hdraws⟩ := hsettled.draws build (hsettled.room (by omega))
    obtain ⟨generator, hr', hb⟩ := reach_steered hr hrest 0
    have hnew : s.slot ⟨0, location⟩ = .new := hstocked.new _ fun _ => hdraws.fresh
    have hrest' : ({ s with generator := generator } : State (Fin 1) E).Resting (onlyFirst inner) :=
      ⟨hrest.control, hrest.erasures, hrest.bucket⟩
    obtain ⟨s', hr'', hrest'', hinserted⟩ := reach_insert element hr' hrest' hb hdraws.call hnew
    rw [update_onlyFirst] at hrest''
    refine ⟨s', inner', hr'', hrest'', hdraws.settled, ?_, ?_⟩
    · rw [hdraws.length_touched hsettled.doubling, hlen]
    · have hsame : Stocked ({ s with generator := generator } : State (Fin 1) E) inner element :=
        ⟨hstocked.occupied, hstocked.new, hstocked.issued⟩
      exact hsame.insert hdraws hinserted

/-- In the debug build an insert into a full bucket panics. -/
theorem exists_full (element : E) : ∃ s : State (Fin 1) E, (machine .debug (Fin 1) E).Reachable
    (s.setControl 0 (.faulted (.overflow "attempt to multiply with overflow"))) := by
  obtain ⟨s, inner, hr, hrest, hsettled, hlen, -⟩ := exists_stocked .debug element (n := 2 ^ 32 - 1) (by omega)
  obtain ⟨generator, hr', hb⟩ := reach_steered hr hrest 0
  have hrest' : ({ s with generator := generator } : State (Fin 1) E).Resting (onlyFirst inner) :=
    ⟨hrest.control, hrest.erasures, hrest.bucket⟩
  obtain ⟨hblocks, hnext⟩ := hsettled.full hlen
  have hcall := Bucket.Inner.insertLocation_full inner.nextUnusedSlot hsettled.doubling hblocks
    (by omega) (by omega)
  obtain ⟨s', h, -⟩ := reach_insert_faulted element hr' hrest' hb hcall
  exact ⟨s', h⟩

/-- In the debug build inserts that fail take the counter on from the last slot of the largest block, and
around. -/
theorem exists_wrapped (element : E) :
    ∃ s inner, (machine .debug (Fin 1) E).Reachable s ∧ s.Resting (onlyFirst ⟨inner.blocks, 0⟩) ∧
      inner.Settled ∧ inner.touched.length = 2 ^ 32 - 1 ∧ Stocked s inner element := by
  have hfails : ∀ n ≤ 2 ^ 30, ∃ s inner, (machine .debug (Fin 1) E).Reachable s ∧
      s.Resting (onlyFirst ⟨inner.blocks, UInt32.ofNat (2 ^ 31 + 2 * n)⟩) ∧ inner.Settled ∧
        inner.touched.length = 2 ^ 32 - 1 ∧ Stocked s inner element := by
    intro n hn
    induction n with
    | zero =>
      obtain ⟨s, inner, hr, hrest, hsettled, hlen, hstocked⟩ :=
        exists_stocked .debug element (n := 2 ^ 32 - 1) (by omega)
      obtain ⟨-, hnext⟩ := hsettled.full hlen
      refine ⟨s, inner, hr, ?_, hsettled, hlen, hstocked⟩
      have hinner : (⟨inner.blocks, UInt32.ofNat (2 ^ 31 + 2 * 0)⟩ : Bucket.Inner) = inner := by
        have heq : UInt32.ofNat (2 ^ 31 + 2 * 0) = inner.nextUnusedSlot := by
          rw [← UInt32.toNat_inj, hnext]
          rfl
        rw [heq]
      rw [hinner]
      exact hrest
    | succ n ih =>
      obtain ⟨s, inner, hr, hrest, hsettled, hlen, hstocked⟩ := ih (by omega)
      obtain ⟨generator, hr', hb⟩ := reach_steered hr hrest 0
      have hrest' : ({ s with generator := generator } : State (Fin 1) E).Resting
          (onlyFirst ⟨inner.blocks, UInt32.ofNat (2 ^ 31 + 2 * n)⟩) :=
        ⟨hrest.control, hrest.erasures, hrest.bucket⟩
      have hnat : (UInt32.ofNat (2 ^ 31 + 2 * n)).toNat = 2 ^ 31 + 2 * n := by
        rw [UInt32.toNat_ofNat']
        exact Nat.mod_eq_of_lt (by omega)
      have hcall := Bucket.Inner.insertLocation_full (UInt32.ofNat (2 ^ 31 + 2 * n)) hsettled.doubling
        (hsettled.full hlen).1 (by omega) (by omega)
      obtain ⟨s', hr'', hrest'', hid, hslot, hissued⟩ := reach_insert_fault element hr' hrest' hb hcall
      rw [update_onlyFirst] at hrest''
      refine ⟨s', inner, hr'', ?_, hsettled, hlen, ?_⟩
      · have hnext : UInt32.ofNat (2 ^ 31 + 2 * n) + 1 + 1 = UInt32.ofNat (2 ^ 31 + 2 * (n + 1)) := by
          rw [← UInt32.toNat_inj, UInt32.toNat_add, UInt32.toNat_add, UInt32.toNat_ofNat', UInt32.toNat_ofNat']
          show (((2 ^ 31 + 2 * n) % 2 ^ 32 + 1) % 2 ^ 32 + 1) % 2 ^ 32 = (2 ^ 31 + 2 * (n + 1)) % 2 ^ 32
          omega
        rw [← hnext]
        exact hrest''
      · refine ⟨fun location hout => ?_, fun address hnot => ?_, fun id => ?_⟩
        · rw [hslot]
          exact hstocked.occupied location hout
        · rw [hslot]
          exact hstocked.new address hnot
        · rw [hissued, hid]
          exact hstocked.issued id
  exact hfails (2 ^ 30) (le_refl _)

/-- The next insert is then handed a slot that holds an element. -/
theorem exists_overwriting (element element' : E) :
    ∃ s address, (machine .debug (Fin 1) E).Reachable s ∧ s.control 0 = .place element' address ∧
      s.slot address = ⟨occupiedHeader, some element⟩ ∧ ⟨0, address, s.storeId⟩ ∈ s.issued := by
  obtain ⟨s, inner, hr, hrest, hsettled, hlen, hstocked⟩ := exists_wrapped element
  obtain ⟨inner', location, hdraws, hout⟩ := hsettled.repeats .debug hlen
  obtain ⟨generator, hr', hb⟩ := reach_steered hr hrest 0
  have hrest' : ({ s with generator := generator } : State (Fin 1) E).Resting (onlyFirst ⟨inner.blocks, 0⟩) :=
    ⟨hrest.control, hrest.erasures, hrest.bucket⟩
  obtain ⟨generator', control, hr''⟩ := reach_place element' hr' hrest' hb hdraws.call
  exact ⟨_, ⟨0, location⟩, hr'', State.setControl_self _ _, hstocked.occupied location hout,
    (hstocked.issued _).2 ⟨location, hout, rfl⟩⟩

end ReadWriteStore.Store

import ReadWriteStore.Store.Proofs.DropProofs
import ReadWriteStore.Store.Proofs.LinearizationProofs

/-!
# No element is lost

What an operation puts into the map and what it returns is what the map gains and loses, and the other steps
move an element at most between its thread and the books of the store.
-/

namespace ReadWriteStore.Store

open Header (isOccupied currentId)
open Transition (tally)
open Transition.Object (Phase Shared)

variable {T E : Type} [DecidableEq T]

/-! ## The elements of a map -/

section Map

variable {m m' : Map T E} {t : T} {call : Call E} {result : Return E} {id : Id}

omit [DecidableEq T] in
theorem Map.elementAt_some {entry : Entry T E} (h : m.entry id = some entry) : m.elementAt id = {entry.value} := by
  unfold Map.elementAt
  rw [h]
  rfl

omit [DecidableEq T] in
theorem Map.elementAt_none (h : m.entry id = none) : m.elementAt id = 0 := by
  unfold Map.elementAt
  rw [h]
  rfl

omit [DecidableEq T] in
theorem Map.elements_change (hfin : (Function.support m.elementAt).Finite)
    (h : ∀ other, other ≠ id → m'.entry other = m.entry other) :
    m'.elements + m.elementAt id = m.elements + m'.elementAt id := by
  refine Transition.finsum_change hfin id fun other hne => ?_
  unfold Map.elementAt
  rw [h other hne]

omit [DecidableEq T] in
theorem Map.elements_set (hfin : (Function.support m.elementAt).Finite) {entry : Entry T E}
    (hsome : m.entry id = some entry) (new : Option (Entry T E)) :
    (m.set id new).elements + {entry.value} = m.elements + (new.map Entry.value).toList := by
  have hchange := Map.elements_change hfin fun other (hne : other ≠ id) => Map.set_ne m new hne
  rw [Map.elementAt_some hsome] at hchange
  rw [hchange]
  unfold Map.elementAt
  rw [Map.set_self]

omit [DecidableEq T] in
/-- An operation on an element that stays. -/
theorem Map.elements_keep (hfin : (Function.support m.elementAt).Finite) {entry new : Entry T E}
    (hsome : m.entry id = some entry) (hvalue : new.value = entry.value) :
    (m.set id (some new)).elements = m.elements := by
  have hset := Map.elements_set hfin hsome (some new)
  rw [Option.map_some, hvalue] at hset
  exact add_right_cancel hset

/-- What an operation brings is what it returns and what the map gains. -/
theorem Map.Effect.elements (h : m.Effect t call result m') (hfin : (Function.support m.elementAt).Finite)
    (hused : ∀ id entry, m.entry id = some entry → m.used id) :
    m'.elements + result.element.toList = m.elements + (call.brings result).toList := by
  cases h with
  | @insert element id hnew =>
    have hnone : m.entry id = none := by
      rw [Option.eq_none_iff_forall_not_mem]
      exact fun entry hentry => hnew (hused id entry hentry)
    have hchange := Map.elements_change hfin fun other (hne : other ≠ id) => Map.insert_ne m element hne
    rw [Map.elementAt_none hnone, Map.elementAt_some (Map.insert_self ..)] at hchange
    exact hchange
  | miss hcall hnone =>
    cases call <;> cases hcall <;> rfl
  | remove hsome hfree | removeLocked hsome hlock => exact Map.elements_set hfin hsome none
  | replace hsome hlock | replaceMut hsome hfree => exact Map.elements_set hfin hsome (some _)
  | read hsome hread | write hsome hfree | dropRead hsome hlock | dropWrite hsome hlock =>
    exact congrArg (· + _) (Map.elements_keep hfin hsome rfl)
  | deref | capacity | getMut | iterMut => rfl

omit [DecidableEq T] in
/-- A list of everything in the map. -/
theorem Map.Enumerates.elements {steps : ℕ} {items : List (Id × E)} (h : m.Enumerates steps items)
    (hall : items.length < steps) : m.elements = (items.map Prod.snd : Multiset E) := by
  have hmissing : ∀ id, id ∉ items.map Prod.fst → m.elementAt id = 0 := by
    intro id hid
    refine Map.elementAt_none (Option.eq_none_iff_forall_not_mem.2 fun entry hentry => hid ?_)
    exact List.mem_map.2 ⟨_, h.complete hall id entry hentry, rfl⟩
  have hsum : ∀ l : List (Id × E), (∀ item ∈ l, item ∈ items) →
      ((l.map Prod.fst).map m.elementAt).sum = (l.map Prod.snd : Multiset E) := by
    intro l hl
    induction l with
    | nil => rfl
    | cons item rest ih =>
      obtain ⟨entry, hentry, hvalue⟩ := h.present item (hl item List.mem_cons_self)
      rw [List.map_cons, List.map_cons, List.sum_cons, ih fun other hmem => hl other (List.mem_cons_of_mem _ hmem),
        Map.elementAt_some hentry, hvalue]
      rfl
  unfold Map.elements
  rw [Transition.finsum_list h.nodup hmissing]
  exact hsum items fun item hmem => hmem

end Map

/-! ## The elements that a thread carries -/

section Step

variable [Fintype T] {build : Build} {s s' : State T E} {e : Event T E} {t u : T}
  {phase : Phase (Map T E) (Call E) (Return E)} {control : Control E}

theorem Control.Stands.carries (hst : (s.control t).Stands s t phase) : s.carries t = carried phase := by
  unfold State.carries
  cases hc : s.control t with
  | header frame =>
    replace hst := hst.at hc
    cases hdone : ((s.header frame.address).control t).done with
    | true =>
      obtain rfl := (Control.stands_done hdone).1 hst
      simp only [hdone, if_true]
      rfl
    | false =>
      obtain ⟨seen, rfl, -⟩ := (Control.stands_underway hdone).1 hst
      simp only [hdone, Bool.false_eq_true, if_false]
      rfl
  | pop | bucket | place | moveOutLocked =>
    obtain ⟨seen, rfl⟩ := hst.at hc
    rfl
  | _ =>
    obtain rfl := hst.at hc
    rfl

theorem Control.Stands.carries_of (hc : s.control t = control) (hst : control.Stands s t phase) :
    s.carries t = carried phase :=
  Control.Stands.carries (by rw [hc]; exact hst)

omit [Fintype T] in
/-- Only the elements of occupied slots are in the map. -/
theorem State.Sound.finite_elements (h : s.Sound build) : (Function.support s.map.elementAt).Finite := by
  refine ((List.finite_toSet s.addresses).image s.idAt).subset fun id hid => ?_
  cases hentry : s.map.entry id with
  | none => exact absurd (Map.elementAt_none hentry) hid
  | some entry =>
    obtain ⟨hp, hstore, -⟩ := State.present_of_entry hentry
    refine ⟨id.slotAddress, ?_, Id.ext_at hp.2 rfl hstore.symm⟩
    have hlocation : id.slotAddress.location ∈ (s.bucket id.slotAddress.bucket).inner.locations :=
      Bucket.Inner.mem_locations.2 (h.handedOut hp.1).1
    exact List.mem_flatMap.2 ⟨id.slotAddress.bucket, List.mem_finRange _,
      List.mem_map.2 ⟨id.slotAddress.location, hlocation, rfl⟩⟩

omit [DecidableEq T] [Fintype T] in
theorem State.map_used (id : Id) (entry : Entry T E) (h : s.map.entry id = some entry) : s.map.used id := by
  obtain ⟨hp, hstore, -⟩ := State.present_of_entry h
  exact (State.used_at hstore).2 (Or.inr hp)

omit [Fintype T] in
theorem State.Sound.elements (h : s.Sound build) {call : Call E} {result : Return E}
    (heffect : s.map.Effect t call result s'.map) :
    s'.map.elements + result.element.toList = s.map.elements + (call.brings result).toList :=
  heffect.elements h.finite_elements State.map_used

theorem Frame.brings (frame : Frame E) (result : Return E) : frame.origin.brings result = frame.origin.owned := by
  cases frame <;> cases result <;> rfl

omit [Fintype T] in
/-- A step that brings nothing in or out. -/
theorem State.Flow.of_inside (hgiven : s'.given = s.given) (hback : s'.handedBack = s.handedBack)
    (hunwound : s'.unwound = s.unwound) (hbalance : s'.carries t + s'.map.elements = s.carries t + s.map.elements) :
    s.Flow s' t 0 0 0 := by
  constructor
  · rw [hgiven, zero_add]
  · rw [hback, zero_add]
  · rw [hunwound, zero_add]
  · simpa only [add_zero] using hbalance

omit [Fintype T] in
/-- A step that moves nothing. -/
theorem State.Flow.of_still (hgiven : s'.given = s.given) (hback : s'.handedBack = s.handedBack)
    (hunwound : s'.unwound = s.unwound) (hcarries : s'.carries t = s.carries t) (hmap : s'.map = s.map) :
    s.Flow s' t 0 0 0 :=
  .of_inside hgiven hback hunwound (by rw [hcarries, hmap])

omit [Fintype T] in
theorem State.carries_done {frame : Frame E} (hc : s.control t = .header frame)
    (hdone : ((s.header frame.address).control t).done = true) :
    s.carries t = (s.outcome frame).element.toList := by
  simp only [State.carries, hc, hdone, if_true]

omit [Fintype T] in
theorem State.carries_underway {frame : Frame E} (hc : s.control t = .header frame)
    (hdone : ((s.header frame.address).control t).done = false) :
    s.carries t = frame.origin.owned.toList := by
  simp only [State.carries, hc, hdone, Bool.false_eq_true, if_false]

/-- A step inside a call of a header. -/
theorem State.Known.flow_header (h : s.Known build) {frame : Frame E} {header : Header.State T}
    {event : Header.Event T} (ha : Header.Allowed (s.header frame.address) event) (hc : s.control t = .header frame)
    (hthread : event.thread = t) (hret : event ≠ .ret t)
    (hstep : Header.step build (s.header frame.address) event = some header)
    (hst : (Control.header frame).Stands s t phase) : s.Flow (s.setHeader frame.address header) t 0 0 0 := by
  subst hthread
  have hinv := Header.reachable_inv (h.sound.linked.header frame.address)
  have hm := Header.Move.of_step hstep
  have hheader := s.setHeader_self frame.address header
  have hc' : (s.setHeader frame.address header).control event.thread = .header frame := hc
  refine .of_inside rfl rfl rfl ?_
  cases (Header.move_serves hinv ha hm hret (h.sound.linked.serves _ frame hc)).2 with
  | takes hbefore hafter happly hlocks hissued hoccupy =>
    obtain ⟨seen, rfl, hunderway⟩ := (Control.stands_underway hbefore).1 hst
    have heffect := h.sound.effect h.noted h.kept hc hunderway.known hunderway.taken hbefore happly hlocks
      (hinv.move ha hm)
    have helements := h.sound.elements heffect
    rw [Frame.brings] at helements
    rw [State.carries_done hc' (by rw [hheader]; exact hafter), State.carries_underway hc hbefore, add_comm, helements,
      add_comm]
  | stays hdone hview hlocks hissued =>
    rw [State.map_congr (State.agrees_stays hview hlocks)]
    refine congrArg (· + _) ?_
    have hafter : (((s.setHeader frame.address header).header frame.address).control event.thread).done =
        ((s.header frame.address).control event.thread).done := by rw [hheader, hdone]
    cases hbefore : ((s.header frame.address).control event.thread).done with
    | true =>
      have houtcome : (s.setHeader frame.address header).outcome frame = s.outcome frame :=
        State.outcome_congr rfl (State.setHeader_value ..) (by rw [hheader]; exact (Header.isOccupied_congr hview).2)
      rw [State.carries_done hc hbefore, State.carries_done hc' (hafter.trans hbefore), houtcome]
    | false => rw [State.carries_underway hc hbefore, State.carries_underway hc' (hafter.trans hbefore)]

omit [Fintype T] in
theorem State.carries_idle (hc : s.control t = .idle) : s.carries t = 0 := by
  simp only [State.carries, hc]

omit [Fintype T] in
theorem State.carries_returned {result : Return E} (hc : s.control t = .returned result) :
    s.carries t = result.element.toList := by
  simp only [State.carries, hc]

/-- A call that enters a header owns what it has owned before. -/
theorem State.carries_entered {frame : Frame E} (hc : s.control t = .header frame) {seen : Set (Map T E)}
    (hst : (Control.header frame).Stands s t (.pending frame.origin seen)) :
    s.carries t = frame.origin.owned.toList :=
  Control.Stands.carries_of hc hst

/-- What a call brings. -/
theorem State.Known.flow_call (h : s.Known build) {call : Call E} (hm : Move build s (.call t call) s')
    (ha : Allowed s (.call t call)) : ∃ brought, s.Flow s' t brought 0 0 := by
  have hidle : s.control t = .idle := by cases hm <;> assumption
  have hnone := State.carries_idle hidle
  cases hm with
  | @insert _ element hc =>
    refine ⟨{element}, rfl, (zero_add _).symm, (zero_add _).symm, ?_⟩
    rw [hnone, State.map_eq rfl rfl rfl]
    simp only [State.carries, State.setControl_self, add_zero, zero_add]
    exact add_comm _ _
  | @enter _ _ frame header hc hframe hh =>
    obtain ⟨hmap, hst⟩ := h.goes_enter ha (Or.inl ⟨hc, call, rfl, hframe⟩) hh
      (show ((s.setHeader frame.address header).setControl t (.header frame)).storeId = s.storeId from rfl) rfl
      (State.setHeader_header ..) fun _ _ => congrFun (State.setHeader_value ..) _
    refine ⟨0, .of_still rfl rfl rfl ?_ hmap⟩
    rw [hnone, State.carries_entered (State.setControl_self ..) (hst ∅)]
    cases call <;> cases hframe <;> rfl
  | @removeLocked _ id hc =>
    refine ⟨0, .of_still rfl rfl rfl ?_ (State.map_eq rfl rfl rfl)⟩
    rw [hnone]
    simp only [State.carries, State.setControl_self]
  | @capacity _ bucket hc hb =>
    refine ⟨0, .of_still rfl rfl rfl ?_ (State.map_eq rfl rfl rfl)⟩
    rw [hnone]
    simp only [State.carries, State.setControl_self]
    rfl
  | @look _ _ result hc hlook =>
    refine ⟨0, .of_still rfl rfl rfl ?_ (State.map_eq rfl rfl rfl)⟩
    rw [hnone, State.carries_returned (State.setControl_self ..)]
    cases hlook <;> rfl
  | @replace _ _ address element result hc hreplace =>
    have hstore : (({ s with given := element :: s.given }.setValue address element).setControl t
      (.returned result)).storeId = s.storeId := rfl
    have helements := h.sound.elements
      (h.replace ha hreplace hstore (State.setValue_header ..) (State.setValue_value ..))
    refine ⟨{element}, rfl, (zero_add _).symm, (zero_add _).symm, ?_⟩
    rw [hnone, State.carries_returned (State.setControl_self ..), add_zero, add_zero, zero_add, add_comm, helements]
    cases hreplace <;> rfl
  | @callFault _ _ fault hc hfault => exact absurd hfault (h.no_callFault ha)

omit [Fintype T] in
theorem State.carries_faulted {fault : Fault} (hc : s.control t = .faulted fault) : s.carries t = 0 := by
  simp only [State.carries, hc]

/-- A method after its call of a header has returned. -/
theorem State.Known.flow_resume (h : s.Known build) {frame : Frame E} {header : Header.State T}
    {result : Header.Return} {control : Checked (Control E)} (hc : s.control t = .header frame)
    (hr : (s.header frame.address).control t = .returned result)
    (hstep : Header.step build (s.header frame.address) (.ret t) = some header)
    (hres : frame.resume s.storeId result = some control) (hst : (Control.header frame).Stands s t phase) :
    s.Flow (((s.setHeader frame.address header).noteIssued frame result).setControl t (.ofChecked control)) t
      0 0 0 := by
  obtain ⟨issued, hnote⟩ := (s.setHeader frame.address header).noteIssued_eq frame result
  have hmap : (((s.setHeader frame.address header).noteIssued frame result).setControl t
      (.ofChecked control)).map = s.map := State.map_left hstep (by simp) (by simp) (by simp)
  refine .of_still (by rw [hnote]; rfl) (by rw [hnote]; rfl) (by rw [hnote]; rfl) ?_ hmap
  cases hdone : ((s.header frame.address).control t).done with
  | true =>
    have hvalue : (((s.setHeader frame.address header).noteIssued frame result).setControl t
      (.ofChecked control)).value = s.value := by simp
    have hst' := h.resume_done hc hr hdone hres hvalue
    rw [State.carries_done hc hdone]
    exact Control.Stands.carries_of (State.setControl_self ..) hst'
  | false =>
    obtain ⟨seen, rfl, hunderway⟩ := (Control.stands_underway hdone).1 hst
    obtain ⟨answer, hanswer, hcontrol, -⟩ := h.resume_failed hc hr hdone hres hunderway
    rw [State.carries_underway hc hdone, State.carries_returned ((State.setControl_self ..).trans hcontrol), hanswer]
    have hsome := h.attempt_failed hc hr hdone hres
    cases frame <;> first | rfl | cases hsome

/-- A step of a thread inside a call loses an element if `insert` panics. -/
theorem State.Known.flow_act (h : s.Known build) {spurious : Bool} (hm : Move build s (.act t spurious) s')
    (hst : (s.control t).Stands s t phase) : ∃ lost, s.Flow s' t 0 0 lost := by
  obtain ⟨class_, hclass⟩ := h.sound.classified
  cases hm with
  | @reuse _ _ element address rest hc hq =>
    refine ⟨0, .of_still rfl rfl rfl ?_ (State.map_eq rfl rfl rfl)⟩
    simp only [State.carries, State.setControl_self, hc]
  | @draw _ _ element generator bucket hc hq hg hb =>
    refine ⟨0, .of_still rfl rfl rfl ?_ (State.map_eq rfl rfl rfl)⟩
    simp only [State.carries, State.setControl_self, hc]
    rfl
  | @place _ _ element address header hc hh =>
    obtain ⟨hmap, hst'⟩ := h.enters_place hc hh rfl
    refine ⟨0, .of_still rfl rfl rfl ?_ hmap⟩
    rw [State.carries_entered (State.setControl_self ..) (hst' ∅)]
    simp only [State.carries, hc]
    rfl
  | @bucketStep _ _ frame bucket hc hb =>
    refine ⟨0, .of_still rfl rfl rfl ?_ (State.map_eq rfl rfl rfl)⟩
    have hc' : (s.setBucket frame.bucket bucket).control t = .bucket frame := hc
    simp only [State.carries, hc, hc']
  | @located _ _ b element location bucket hc hr hb =>
    refine ⟨0, .of_still rfl rfl rfl ?_ (State.map_eq rfl rfl rfl)⟩
    simp only [State.carries, State.setControl_self, hc]
    rfl
  | @addedNext _ _ b _ _ _ _ _ _ _ _ hc =>
    refine ⟨0, .of_still rfl rfl rfl ?_ (State.map_eq rfl rfl rfl)⟩
    simp only [State.carries, State.setControl_self, hc]
    rfl
  | @addedLast _ _ b _ _ _ _ _ _ _ hc =>
    refine ⟨0, .of_still rfl rfl rfl ?_ (State.map_eq rfl rfl rfl)⟩
    simp only [State.carries, State.setControl_self, hc]
    rfl
  | @addFault _ _ b _ _ _ _ _ _ hc =>
    refine ⟨0, .of_still rfl rfl rfl ?_ (State.map_eq rfl rfl rfl)⟩
    simp only [State.carries, State.setControl_self, hc]
    rfl
  | @bucketFault _ _ frame fault bucket hc hr hb =>
    have hcarries : ((s.setBucket frame.bucket bucket).unwindBucket t fault frame).carries t = 0 := by
      refine @State.carries_faulted _ _ _ _ _ fault ?_
      cases frame <;> exact State.setControl_self ..
    cases frame with
    | insert b element =>
      refine ⟨{element}, (zero_add _).symm, (zero_add _).symm, rfl, ?_⟩
      rw [hcarries, State.map_eq rfl rfl rfl]
      simp only [State.carries, hc, add_zero, zero_add]
      exact add_comm _ _
    | capacity b _ _ =>
      refine ⟨0, .of_still rfl rfl rfl ?_ (State.map_eq rfl rfl rfl)⟩
      rw [hcarries]
      simp only [State.carries, hc]
      rfl
  | @headerStep _ _ frame header hc hh =>
    exact ⟨0, h.flow_header (h.sound.linked.goes_allowed hclass hc (Or.inl ⟨spurious, rfl⟩)) hc rfl nofun hh (hst.at hc)⟩
  | @resume _ _ frame result header control hc hr hh hres => exact ⟨0, h.flow_resume hc hr hh hres (hst.at hc)⟩
  | @headerFault _ _ frame fault header hc hr hh =>
    have hdone : ((s.header frame.address).control t).done = false := by
      rw [hr]
      rfl
    have hstore : ((s.setHeader frame.address header).setControl t (.faulted fault)).storeId = s.storeId := rfl
    have hmap := State.map_left hh hstore (State.setHeader_header ..) (State.setHeader_value ..)
    refine ⟨0, .of_still rfl rfl rfl ?_ hmap⟩
    rw [State.carries_faulted (State.setControl_self ..), State.carries_underway hc hdone]
    -- `occupy` does not panic
    have hserves := h.sound.linked.serves t frame hc
    rw [hr] at hserves
    cases frame with
    | occupy address element =>
      rcases serves_occupy hserves with hrun | ⟨ordinal, hret⟩
      · cases hrun
      · cases hret
    | _ => rfl
  | @moveOut _ _ id method mayReuse element hc hv =>
    refine ⟨0, .of_still rfl rfl rfl ?_ (State.map_eq rfl rfl rfl)⟩
    cases mayReuse <;> simp only [State.carries, State.setControl_self, hc, hv, afterMove] <;> rfl
  | @moveOutLocked _ _ id element header hc hv hh =>
    obtain ⟨hmap, hst'⟩ := h.enters_moveOutLocked hc hv hh rfl
    refine ⟨0, .of_still rfl rfl rfl ?_ hmap⟩
    rw [State.carries_entered (State.setControl_self ..) (hst' ∅)]
    simp only [State.carries, hc]
    rfl
  | @moveFault _ _ id fault hc hv => exact absurd hv (h.no_moveFault hc)
  | @push _ _ id result hc =>
    refine ⟨0, .of_still rfl rfl rfl ?_ (State.map_eq rfl rfl rfl)⟩
    simp only [State.carries, State.setControl_self, hc]

/-- Every step. -/
theorem State.Known.flow (h : s.Known build) (hm : Move build s e s') (ha : Allowed s e)
    (hst : (s.control e.thread).Stands s e.thread phase) : ∃ brought back lost, s.Flow s' e.thread brought back lost := by
  obtain ⟨class_, hclass⟩ := h.sound.classified
  cases e with
  | call t call =>
    obtain ⟨brought, hflow⟩ := h.flow_call hm ha
    exact ⟨brought, 0, 0, hflow⟩
  | act t spurious =>
    obtain ⟨lost, hflow⟩ := h.flow_act hm hst
    exact ⟨0, 0, lost, hflow⟩
  | expire t =>
    cases hm with
    | @expire _ frame header hc hh =>
      exact ⟨0, 0, 0, h.flow_header (h.sound.linked.goes_allowed hclass hc (Or.inr rfl)) hc rfl nofun hh (hst.at hc)⟩
  | ret t =>
    show ∃ brought back lost, s.Flow s' t brought back lost
    cases hm with
    | @ret _ result hc =>
      refine ⟨0, result.element.toList, 0, (zero_add _).symm, rfl, (zero_add _).symm, ?_⟩
      rw [State.carries_returned hc, show (s.finish t result).map = s.map from State.map_eq rfl rfl rfl,
        show (s.finish t result).carries t = 0 from State.carries_idle (State.setControl_self ..), zero_add, add_zero,
        add_zero, add_comm]
    | @retFault _ fault hc =>
      refine ⟨0, 0, 0, .of_still rfl rfl rfl ?_ (State.map_eq rfl rfl rfl)⟩
      rw [State.carries_faulted hc]
      exact State.carries_idle (State.setControl_self ..)
  | elsewhere t =>
    show ∃ brought back lost, s.Flow s' t brought back lost
    cases hm with
    | @elsewhere _ hc =>
      refine ⟨0, 0, 0, .of_still rfl rfl rfl ?_ (State.map_eq rfl rfl rfl)⟩
      rw [State.carries_idle hc]
      exact State.carries_idle hc

/-- A step moves elements of one thread. -/
theorem State.Balanced.step (h : s.Balanced) {brought back lost : Multiset E}
    (hflow : s.Flow s' t brought back lost) (hother : ∀ u, u ≠ t → s'.carries u = s.carries u) : s'.Balanced := by
  have htally : tally s'.carries + s.carries t = tally s.carries + s'.carries t := by
    rw [← Transition.tally_update s.carries t (s'.carries t)]
    refine congrArg (tally · + s.carries t) (funext fun u => ?_)
    by_cases hu : u = t
    · rw [hu, Function.update_self]
    · rw [Function.update_of_ne hu, hother u hu]
  have hbalance := hflow.balance
  have hbefore : (s.given : Multiset E) = _ := h
  classical
  refine Multiset.ext.2 fun element => ?_
  have hcount := congrArg (Multiset.count element) hbalance
  have htally := congrArg (Multiset.count element) htally
  have hbefore := congrArg (Multiset.count element) hbefore
  rw [hflow.given, hflow.handedBack, hflow.unwound]
  simp only [Multiset.count_add] at hcount htally hbefore ⊢
  omega

end Step

/-! ## Whole runs -/

section Runs

variable [Fintype T] {build : Build} {s : State T E}

/-- In every state that a store reaches its elements are accounted for. -/
theorem balanced_of_reachable (h : ((machine build T E).restrict State.NoWrap).Reachable s) : s.Balanced := by
  induction h with
  | @init s hs =>
    obtain ⟨storeId, generator, rfl⟩ := hs
    have hcarries : (State.init storeId generator : State T E).carries = fun _ => 0 := rfl
    have helements : (Map.init : Map T E).elementAt = fun _ => 0 := rfl
    unfold State.Balanced Map.elements
    rw [hcarries, Transition.tally_zero, State.init_map, helements, finsum_zero]
    rfl
  | @step s s' e hs hstep ih =>
    have h := known_of_reachable hs
    have h' := known_of_reachable (hs.step hstep)
    have hm := Move.of_step hstep.2.2
    obtain ⟨a, -, hmatch⟩ := (simulates build T E).reachable hs
    obtain ⟨brought, back, lost, hflow⟩ := h.flow hm hstep.2.1 (hmatch.phase e.thread)
    refine ih.step hflow fun u hu => ?_
    have hst := h.sound.stands_other h'.sound h.kept h'.kept hm hstep.2.1 hu (hmatch.phase u)
    rw [hst.carries, (hmatch.phase u).carries]

/-- The elements of a store that nobody is using. -/
theorem given_of_quiet (h : ((machine build T E).restrict State.NoWrap).Reachable s) (hquiet : s.Quiet) :
    s.given.Perm (s.handedBack ++ s.unwound ++ s.items.map Prod.snd) := by
  have hitems : s.map.elements = (s.items.map Prod.snd : Multiset E) := by
    have henumerates := (known_of_reachable h).enumerates hquiet (s.items.length + 1)
    rw [List.take_of_length_le (Nat.le_succ _)] at henumerates
    exact henumerates.elements (Nat.lt_succ_self _)
  have hcarries : s.carries = fun _ => 0 := by
    funext t
    exact State.carries_idle (Control.isIdle_iff.1 (hquiet t).1)
  have hbalance : (s.given : Multiset E) = _ := balanced_of_reachable h
  rw [hcarries, Transition.tally_zero, add_zero, hitems] at hbalance
  exact Multiset.coe_eq_coe.1 hbalance

/-- The end of a store that nobody is using. -/
theorem settles_of_reachable {payloadOffset stack : ℕ}
    (h : ((machine build T E).restrict State.NoWrap).Reachable s) (hquiet : s.Quiet)
    (hpayload : ∀ address, Header.isOccupied (s.header address).word = true → build = .release ∨ payloadOffset = 0)
    (hdeep : s.callDepth ≤ stack) : s.Settles build payloadOffset stack (s.handedBack ++ s.unwound) := by
  have hstill := (sound_of_reachable h).still (noted_of_reachable h) hquiet
  have hgiven := given_of_quiet h hquiet
  constructor
  · obtain ⟨destroyed, hdrop, hperm⟩ := hstill.dropStore hpayload
    exact ⟨destroyed, hdrop, hgiven.trans (hperm.symm.append_left _)⟩
  · intro steps
    obtain ⟨destroyed, hinto, hperm⟩ :=
      (hstill.intoIter_drop hpayload stack steps).resolve_left fun hover => Nat.not_le.2 hover.2 hdeep
    refine ⟨_, destroyed, hinto, hgiven.trans ?_⟩
    rw [List.append_assoc _ _ destroyed]
    refine List.Perm.append_left _ ?_
    refine List.Perm.trans ?_ (hperm.symm.append_left _)
    rw [← List.map_append, List.take_append_drop]

/-- At every moment each element is in one place, and so it is at the end of a store that nobody is using. -/
theorem accounted (build : Build) (T E : Type) [Fintype T] [DecidableEq T] (s : State T E)
    (h : ((machine build T E).restrict State.NoWrap).Reachable s) :
    s.Balanced ∧ (s.Quiet → ∀ payloadOffset stack, build = .release ∨ payloadOffset = 0 → s.callDepth ≤ stack →
      s.Settles build payloadOffset stack (s.handedBack ++ s.unwound)) :=
  ⟨balanced_of_reachable h, fun hquiet _ _ hpayload hdeep =>
    settles_of_reachable h hquiet (fun _ _ => hpayload) hdeep⟩

omit [Fintype T] in
/-- Only an `insert` that panics drops an element itself. -/
theorem Move.unwound {s' : State T E} {e : Event T E} (hm : Move build s e s') (h : ¬s.Unwinds e.thread) :
    s'.unwound = s.unwound := by
  cases hm with
  | @bucketFault t _ frame fault bucket hc hr hb =>
    cases frame with
    | insert b element =>
      refine absurd ?_ h
      have hr' : (s.bucket b).control t = .faulted fault := hr
      show s.Unwinds t
      simp only [State.Unwinds, State.unwinds, hc, hr']
    | capacity => rfl
  | @resume t _ frame result header control hc hr hh hres =>
    obtain ⟨issued, hnote⟩ := (s.setHeader frame.address header).noteIssued_eq frame result
    rw [hnote]
    rfl
  | _ => rfl

omit [Fintype T] in
theorem unwound_of_run {n : ℕ} {state : ℕ → State T E} {event : ℕ → Event T E}
    (hrun : ((machine build T E).restrict fun s e => s.NoWrap e ∧ ¬s.Unwinds e.thread).Run n state event) :
    (state n).unwound = [] := by
  refine hrun.invariant (P := fun s => s.unwound = []) ?_ ?_ n (Nat.le_refl n)
  · rintro _ ⟨storeId, generator, rfl⟩
    rfl
  · intro s e s' hs hstep
    rw [(Move.of_step hstep.2.2).unwound hstep.1.2]
    exact hs

/-- While no counter wraps around and no `insert` panics, every element has one fate. -/
theorem one_fate (build : Build) (T E : Type) [Fintype T] [DecidableEq T] (payloadOffset : ℕ)
    (hpayload : build = .release ∨ payloadOffset = 0) (n : ℕ) (state : ℕ → State T E) (event : ℕ → Event T E)
    (hrun : ((machine build T E).restrict fun s e => s.NoWrap e ∧ ¬s.Unwinds e.thread).Run n state event)
    (hquiet : (state n).Quiet) (stack : ℕ) (hdeep : (state n).callDepth ≤ stack) :
    (state n).Settles build payloadOffset stack (state n).handedBack := by
  have hreach := (hrun.weaken fun _ _ hok => hok.1).reachable n (Nat.le_refl n)
  have hsettles := settles_of_reachable hreach hquiet (fun _ _ => hpayload) hdeep
  rwa [unwound_of_run hrun, List.append_nil] at hsettles

/-- The same with the condition that is needed: elements that are left are destroyed where they are, and the
stack is deep enough. -/
theorem fates (build : Build) (T E : Type) [Fintype T] [DecidableEq T] (payloadOffset stack n : ℕ)
    (state : ℕ → State T E) (event : ℕ → Event T E)
    (hrun : ((machine build T E).restrict fun s e => s.NoWrap e ∧ ¬s.Unwinds e.thread).Run n state event)
    (hquiet : (state n).Quiet) :
    (state n).Settles build payloadOffset stack (state n).handedBack ↔
      (build = .release ∨ payloadOffset = 0 ∨ ∀ id, ¬(state n).Present id) ∧ (state n).callDepth ≤ stack := by
  have hreach := (hrun.weaken fun _ _ hok => hok.1).reachable n (Nat.le_refl n)
  have hstill := (sound_of_reachable hreach).still (noted_of_reachable hreach) hquiet
  have hunwound := unwound_of_run hrun
  generalize state n = s at *
  constructor
  · intro hsettles
    constructor
    · by_contra hnot
      push Not at hnot
      obtain ⟨hbuild, hne, id, hocc, -⟩ := hnot
      obtain rfl : build = .debug := by
        cases build with
        | debug => rfl
        | release => exact absurd rfl hbuild
      obtain ⟨destroyed, hdrop, hperm⟩ := hsettles.dropStore
      have hnil := dropStore_misplaced hne hdrop
      have hgiven := given_of_quiet hreach hquiet
      rw [hunwound, List.append_nil] at hgiven
      rw [hnil] at hperm
      have hitems := (List.perm_append_left_iff _).1 (hgiven.symm.trans hperm)
      obtain ⟨element, hvalue⟩ := Option.isSome_iff_exists.1 (hstill.occupied _ hocc).2
      have hmem := hstill.mem_items_of_occupied hocc hvalue
      rw [List.map_eq_nil_iff.1 hitems.eq_nil] at hmem
      cases hmem
    · by_contra hshort
      obtain ⟨steps, hover⟩ := hstill.exists_intoIter_overflow build payloadOffset (Nat.not_le.1 hshort)
      obtain ⟨items, destroyed, hinto, -⟩ := hsettles.intoIter steps
      rw [hover] at hinto
      cases hinto
  · rintro ⟨hpayload, hdeep⟩
    have hplace : ∀ address, Header.isOccupied (s.header address).word = true →
        build = .release ∨ payloadOffset = 0 := by
      intro address hocc
      rcases hpayload with hrelease | hzero | hnone
      · exact Or.inl hrelease
      · exact Or.inr hzero
      · exact absurd ⟨hocc, rfl⟩ (hnone (s.idAt address))
    have hsettles := settles_of_reachable hreach hquiet hplace hdeep
    rwa [hunwound, List.append_nil] at hsettles

end Runs

/-- An element is removed, and its slot is used again. -/
def reuseSlot : List (Event (Fin 1) Bool) :=
  insertOne ++ wholeCall 0 (.remove ⟨0, ⟨9, ⟨0, 0⟩⟩, 0⟩ .plain) 4 ++ wholeCall 0 (.insert false) 4

/-- The element has been removed, and is on its way to the caller. -/
theorem accounted_on_its_way : ∃ s : State (Fin 1) Bool, s.given = [true] ∧ s.carries 0 = {true} ∧
    s.handedBack = [] ∧ s.Balanced := by
  obtain ⟨s, hr, hp⟩ := exists_reachable_noWrap .debug 0 (fun _ => 0) (reuseSlot.take 18)
    (fun s => decide (s.given = [true] ∧ s.carries 0 = {true} ∧ s.handedBack = [])) (by decide +kernel)
  obtain ⟨hgiven, hcarries, hback⟩ := of_decide_eq_true hp
  exact ⟨s, hgiven, hcarries, hback, (accounted .debug (Fin 1) Bool s hr).1⟩

theorem one_fate_of_each : ∃ s : State (Fin 1) Bool, s.given = [false, true] ∧ s.handedBack = [true] ∧
    s.Settles .debug 0 40 s.handedBack := by
  have hrun := run_of_replay_restrict .debug (fun s e => s.NoWrap e ∧ ¬s.Unwinds e.thread) 0 (fun _ => 0)
    reuseSlot (.ret 0) (by decide +kernel)
  exact ⟨_, by decide +kernel, by decide +kernel,
    one_fate .debug (Fin 1) Bool 0 (Or.inr rfl) _ _ _ hrun (by decide +kernel) 40 (by decide +kernel)⟩

/-- Two of four elements in three blocks have been removed, and the rest is destroyed if the stack is deep enough
and the elements are where `Option` has its start. -/
theorem fates_three_blocks : ∃ s : State (Fin 1) Bool, s.given.length = 4 ∧ s.handedBack.length = 2 ∧
    s.Settles .debug 0 11 s.handedBack ∧ ¬s.Settles .debug 0 10 s.handedBack ∧ ¬s.Settles .debug 8 11 s.handedBack := by
  have hrun := run_of_replay_restrict .debug (fun s e => s.NoWrap e ∧ ¬s.Unwinds e.thread) 0 (fun _ => 0)
    fillBlocks (.ret 0) (by decide +kernel)
  have hfates := fun payloadOffset stack =>
    fates .debug (Fin 1) Bool payloadOffset stack _ _ _ hrun (by decide +kernel)
  refine ⟨_, by decide +kernel, by decide +kernel, (hfates 0 11).2 ⟨Or.inr (Or.inl rfl), by decide +kernel⟩, ?_, ?_⟩
  · rw [hfates 0 10]
    rintro ⟨-, hdeep⟩
    exact absurd hdeep (by decide +kernel)
  · rw [hfates 8 11]
    rintro ⟨hrelease | hzero | hnone, -⟩
    · cases hrelease
    · cases hzero
    · exact hnone ⟨0, ⟨9, ⟨0, 0⟩⟩, 0⟩ (by decide +kernel)

/-- In the debug build an element behind the discriminant of its `Option` is not destroyed. -/
theorem element_without_fate : ∃ s : State (Fin 1) Bool, (machine .debug (Fin 1) Bool).Reachable s ∧ s.Quiet ∧
    s.given = [true] ∧ ∀ stack, ¬s.Settles .debug 8 stack s.handedBack := by
  obtain ⟨s, hr, hp⟩ := exists_reachable_noWrap .debug 0 (fun _ => 0) insertOne
    (fun s => decide (s.Quiet ∧ s.given = [true] ∧
      (s.dropStore .debug 8).isOk = false)) (by decide +kernel)
  obtain ⟨hquiet, hgiven, hdrop⟩ := of_decide_eq_true hp
  refine ⟨s, hr.of_restrict, hquiet, hgiven, fun stack hsettles => ?_⟩
  obtain ⟨destroyed, hok, -⟩ := hsettles.dropStore
  rw [hok] at hdrop
  cases hdrop

end ReadWriteStore.Store

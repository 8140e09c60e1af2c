import ReadWriteStore.Store.Checks
import ReadWriteStore.Store.Proofs.FateProofs

/-!
# No check of the debug build fails

The headers and the buckets keep their contracts by their own invariants; the store adds no fault to theirs
but the overflow of a sum.
-/

namespace ReadWriteStore.Store

variable {T E : Type} [Fintype T] [DecidableEq T] {build : Build} {s s' : State T E} {e : Event T E} {t : T}

omit [Fintype T] in
theorem State.Linked.bucket_keeps (h : s.Linked build) {bucket : Fin bucketCount} {fault : Fault}
    (hc : (s.bucket bucket).control t = .faulted fault) : fault.isBreach = false := by
  have hok := (h.bucket bucket).inv.ok t
  rw [hc] at hok
  exact hok

theorem State.Linked.header_keeps (h : s.Linked build) {address : SlotAddress} {fault : Fault}
    (hc : (s.header address).control t = .faulted fault) : fault = Header.tooManyReaders := by
  have hok := (Header.reachable_inv (h.header address)).control t
  rw [hc] at hok
  exact hok

/-- What a method makes of the answer of a header is not a fault. -/
theorem State.Known.resume_not_faulted (h : s.Known build) {frame : Frame E} {result : Header.Return}
    {control : Checked (Control E)} (hc : s.control t = .header frame)
    (hr : (s.header frame.address).control t = .returned result) (hres : frame.resume s.storeId result = some control)
    {a : Transition.Object.Shared (Map T E) T (Call E) (Return E)} (hmatch : s.Matches a) (fault : Fault) :
    Control.ofChecked control ≠ .faulted fault := by
  have hst := (hmatch.phase t).at hc
  cases hdone : ((s.header frame.address).control t).done with
  | true =>
    have hvalue : s.value = s.value := rfl
    have hdone' := h.resume_done hc hr hdone hres hvalue
    intro hfault
    rw [hfault] at hdone'
    cases hdone'
  | false =>
    obtain ⟨seen, -, hunderway⟩ := (Control.stands_underway hdone).1 hst
    obtain ⟨answer, -, hcontrol, -⟩ := h.resume_failed hc hr hdone hres hunderway
    rw [hcontrol]
    exact nofun

/-- A step that ends in a fault has found it in a bucket or a header, or has added up the blocks. -/
theorem State.Known.fault_step (h : s.Known build) (hm : Move build s e s') (ha : Allowed s e)
    {a : Transition.Object.Shared (Map T E) T (Call E) (Return E)} (hmatch : s.Matches a) {fault : Fault}
    (hc' : s'.control e.thread = .faulted fault) : fault.isBreach = false := by
  have hself : ∀ {r : State T E} {t : T} {control : Control E},
      (r.setControl t control).control t = .faulted fault → control = .faulted fault := by
    intro r t control hset
    rwa [State.setControl_self] at hset
  cases hm with
  | @callFault t call fault' hc hfault => exact absurd hfault (h.no_callFault ha)
  | @moveFault t _ id fault' hc hv => exact absurd hv (h.no_moveFault hc)
  | @addFault t _ b _ _ _ _ fault' bucket hc hr hb hfault =>
    obtain rfl : fault' = fault := by cases hself hc'; rfl
    rcases hfault with hadd | hadd <;> exact Bucket.addU32_breach hadd
  | @bucketFault t _ frame fault' bucket hc hr hb =>
    obtain ⟨unwound, heq⟩ := (s.setBucket frame.bucket bucket).unwindBucket_eq t fault' frame
    rw [heq] at hc'
    cases hself hc'
    exact h.sound.linked.bucket_keeps hr
  | @headerFault t _ frame fault' header hc hr hh =>
    cases hself hc'
    rw [h.sound.linked.header_keeps hr]
    rfl
  | @resume t _ frame result header control hc hr hh hres =>
    exact absurd (hself hc') (h.resume_not_faulted hc hr hres hmatch fault)
  | @moveOut t _ id method mayReuse element hc hv =>
    have hcontrol := hself hc'
    cases mayReuse <;> cases hcontrol
  | @bucketStep t _ frame bucket hc hb =>
    have hc'' : s.control t = .faulted fault := hc'
    rw [hc] at hc''
    cases hc''
  | @headerStep t _ frame header hc hh | @expire t frame header hc hh =>
    have hc'' : s.control t = .faulted fault := hc'
    rw [hc] at hc''
    cases hc''
  | @elsewhere t hc =>
    have hc'' : s.control t = .faulted fault := hc'
    rw [hc] at hc''
    cases hc''
  | @ret t result hc => cases hself (show (s.finish t result).control t = _ from hc')
  | _ => cases hself hc'

theorem keepsContracts_of_reachable (h : ((machine build T E).restrict State.NoWrap).Reachable s) :
    s.KeepsContracts := by
  have hknown := known_of_reachable h
  refine ⟨?_, fun _ _ _ => hknown.sound.linked.header_keeps, fun _ _ _ => hknown.sound.linked.bucket_keeps⟩
  induction h with
  | @init s hs =>
    obtain ⟨storeId, generator, rfl⟩ := hs
    exact nofun
  | @step s s' e hs hstep ih =>
    have hm := Move.of_step hstep.2.2
    obtain ⟨a, -, hmatch⟩ := (simulates build T E).reachable hs
    intro u fault hc
    by_cases hu : u = e.thread
    · subst hu
      exact (known_of_reachable hs).fault_step hm hstep.2.1 hmatch hc
    · rw [hm.control_ne hu] at hc
      exact ih (known_of_reachable hs) u fault hc

/-- The end of a store goes well, or overflows the stack. -/
theorem end_of_reachable (h : ((machine build T E).restrict State.NoWrap).Reachable s) (hquiet : s.Quiet)
    {payloadOffset : ℕ} (hpayload : build = .release ∨ payloadOffset = 0) :
    (s.dropStore build payloadOffset).isOk = true ∧ ∀ stack steps,
      (s.intoIter build payloadOffset stack steps).isOk = true ∨
        stack < s.callDepth ∧ s.intoIter build payloadOffset stack steps = .error .stackOverflow := by
  have hstill := (sound_of_reachable h).still (noted_of_reachable h) hquiet
  constructor
  · obtain ⟨destroyed, hdrop, -⟩ := hstill.dropStore fun _ _ => hpayload
    rw [hdrop]
    rfl
  · intro stack steps
    rcases hstill.intoIter_drop (fun _ _ => hpayload) stack steps with ⟨hover, hdeep⟩ | ⟨destroyed, hinto, -⟩
    · exact Or.inr ⟨hdeep, hover⟩
    · left
      rw [hinto]
      rfl

/-- No run of a store fails a check of the debug build, and its end does not either. -/
theorem checks_hold (build : Build) (T E : Type) [Fintype T] [DecidableEq T] (s : State T E)
    (h : ((machine build T E).restrict State.NoWrap).Reachable s) :
    s.KeepsContracts ∧ (s.Quiet → ∀ payloadOffset, build = .release ∨ payloadOffset = 0 →
      (s.dropStore build payloadOffset).isOk = true ∧ ∀ stack steps,
        (s.intoIter build payloadOffset stack steps).isOk = true ∨
          stack < s.callDepth ∧ s.intoIter build payloadOffset stack steps = .error .stackOverflow) :=
  ⟨keepsContracts_of_reachable h, fun hquiet _ hpayload => end_of_reachable h hquiet hpayload⟩

/-- A slot has been used again, and the store is at rest. -/
theorem checks_hold_reused : ∃ s : State (Fin 1) Bool, s.issued.length = 2 ∧ s.KeepsContracts ∧
    (s.dropStore .debug 0).isOk = true := by
  obtain ⟨s, hr, hp⟩ := exists_reachable_noWrap .debug 0 (fun _ => 0) reuseSlot
    (fun s => decide (s.Quiet ∧ s.issued.length = 2)) (by decide +kernel)
  obtain ⟨hquiet, hissued⟩ := of_decide_eq_true hp
  obtain ⟨hkeeps, hend⟩ := checks_hold .debug (Fin 1) Bool s hr
  exact ⟨s, hissued, hkeeps, (hend hquiet 0 (Or.inr rfl)).1⟩

end ReadWriteStore.Store

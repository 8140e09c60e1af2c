import ReadWriteStore.Header.Proofs.PackedProofs
import ReadWriteStore.Store.Proofs.FillProofs

/-!
# Reads that fill the header of an element

A thread alone, which reads one element and keeps its locks, takes the reader bits of the header up to their
limit. The next `read` panics.
-/

namespace ReadWriteStore.Store

open Function
open Header (Packs)

variable {E : Type} {build : Build} {s : State (Fin 1) E}

/-! ## One read -/

/-- The header of a slot with its first element, with read locks of the thread. -/
def readHeader (control : Header.Control) (word : UInt64) (readers : ℕ) : Header.State (Fin 1) :=
  { Header.State.init with
    word := word
    control := fun _ => control
    locks := fun _ => List.replicate readers ⟨.read, 0⟩
    issued := [0] }

theorem readHeader_setControl {control control' : Header.Control} {word : UInt64} {readers : ℕ} :
    (readHeader control word readers).setControl 0 control' = readHeader control' word readers := by
  unfold Header.State.setControl readHeader
  congr 1
  funext t
  rw [Subsingleton.elim t 0, update_self]

theorem readHeader_acquire {control : Header.Control} {word : UInt64} {readers : ℕ} :
    (readHeader control word readers).record 0 (.acquire ⟨.read, 0⟩) = readHeader control word (readers + 1) := by
  have hlocks : update (fun _ : Fin 1 => List.replicate readers (⟨.read, 0⟩ : Header.Lock)) 0
      (⟨.read, 0⟩ :: List.replicate readers ⟨.read, 0⟩) = fun _ => List.replicate (readers + 1) ⟨.read, 0⟩ := by
    funext t
    rw [Subsingleton.elim t 0, update_self]
    rfl
  exact congrArg (fun locks => { readHeader control word readers with locks := locks }) hlocks

section Header

variable {word : UInt64} {readers : ℕ}

theorem readHeader_call : Header.step build (readHeader .idle word readers) (.call 0 (.lockRead 0 .dontBlock)) =
    some (readHeader (.running (.lockReadLoad 0 .dontBlock)) word readers) := by
  have hstart : Header.start build (.lockRead 0 .dontBlock) = .ok (.running (.lockReadLoad 0 .dontBlock)) := by
    cases build <;> rfl
  refine congrArg some ?_
  rw [hstart]
  exact readHeader_setControl

/-- The thread has loaded the word. -/
theorem readHeader_load {result : Checked Header.Control}
    (hnext : Header.lockReadWithCurrent build 0 word .dontBlock = result) :
    Header.step build (readHeader (.running (.lockReadLoad 0 .dontBlock)) word readers) (.act 0 false) =
      some (readHeader (.ofChecked result) word readers) := by
  refine congrArg some ?_
  show Header.State.setControl _ 0 (.ofChecked (Header.lockReadWithCurrent build 0 word .dontBlock)) = _
  rw [hnext]
  exact readHeader_setControl

/-- The lock is taken. -/
theorem readHeader_exchange {new : UInt64} :
    Header.step build (readHeader (.running (.lockReadExchange 0 word new .dontBlock)) word readers)
        (.act 0 false) =
      some (readHeader (.returned (.lockRead (.ok true))) new (readers + 1)) := by
  have hexec : (Header.compareExchangeWeak word new).exec false word = (new, .ok word) := by
    simp [Header.compareExchangeWeak, AtomicOp.exec]
  refine congrArg some ((Header.exec_eq hexec).trans ?_)
  show Header.State.setControl (Header.State.record (readHeader _ new readers) 0 (.acquire ⟨.read, 0⟩)) 0 _ = _
  rewrite [readHeader_acquire]
  exact readHeader_setControl

/-- A word with room for one more reader. -/
theorem lockReadWithCurrent_room (build : Build) (h : Packs word 0 readers 1)
    (hlt : readers < Header.maxConcurrentReads.toNat) :
    ∃ new, Header.lockReadWithCurrent build 0 word .dontBlock =
      .ok (.running (.lockReadExchange 0 word new .dontBlock)) ∧ Packs new 0 (readers + 1) 1 := by
  have hroom : ∃ new, Header.incrementReaders build word = .ok new ∧ Packs new 0 (readers + 1) 1 :=
    h.incrementReaders (by decide) hlt
  obtain ⟨new, hnew, hpacks⟩ := hroom
  have hfree : ¬Header.isWriteLocked word = true := by
    rw [h.isWriteLocked_iff]
    rw [Header.maxConcurrentReads_toNat] at hlt
    omega
  refine ⟨new, ?_, hpacks⟩
  unfold Header.lockReadWithCurrent Header.lockReadExchange
  rw [if_neg (not_not_intro h.idFromBits), if_neg hfree, hnew]
  rfl

/-- A word without room. -/
theorem lockReadWithCurrent_full (h : Packs word 0 Header.maxConcurrentReads.toNat 1) :
    Header.lockReadWithCurrent build 0 word .dontBlock = .error Header.tooManyReaders := by
  have hfree : ¬Header.isWriteLocked word = true := by
    rw [h.isWriteLocked_iff, Header.maxConcurrentReads_toNat]
    omega
  have hfull : Header.readersFromBits word = Header.maxConcurrentReads :=
    UInt32.toNat_inj.1 h.readersFromBits
  unfold Header.lockReadWithCurrent Header.lockReadExchange
  rw [if_neg (not_not_intro h.idFromBits), if_neg hfree, Header.incrementReaders_full build hfull]
  rfl

end Header

/-! ## All the reads -/

/-- The store between two reads of its element. -/
def State.readBy (s : State (Fin 1) E) (address : SlotAddress) (element : E) (word : UInt64) (readers : ℕ) :
    State (Fin 1) E :=
  { s with slot := update s.slot address ⟨readHeader .idle word readers, some element⟩ }.setControl 0 .idle

section Read

variable {address : SlotAddress} {element : E} {word : UInt64} {readers : ℕ}

/-- The thread calls `read`. -/
theorem call_read : step build (s.readBy address element word readers)
      (.call 0 (.read ⟨0, address, s.storeId⟩ (.withTimeout .dontBlock))) =
    some (s.inHeader (.read ⟨0, address, s.storeId⟩ (.withTimeout .dontBlock)) element
      (readHeader (.running (.lockReadLoad 0 .dontBlock)) word readers)) := by
  have hheader : (s.readBy address element word readers).header address = readHeader .idle word readers := by
    show (update s.slot address ⟨readHeader .idle word readers, some element⟩ address).header = _
    rw [update_self]
  have hidle : (s.readBy address element word readers).control 0 = .idle := State.setControl_self _ _
  have hnative : (s.readBy address element word readers).assertNativeId build ⟨0, address, s.storeId⟩ =
      .ok () := by
    show debugAssert build (s.storeId == s.storeId) _ = _
    rw [beq_self_eq_true, debugAssert_true]
  unfold step
  simp only [hidle, State.start, hnative, State.checked]
  unfold State.enterHeader
  simp only [Frame.address, Frame.call, Method.timeout, hheader, readHeader_call, Option.map_some]
  unfold State.setHeader State.readBy State.inHeader State.setControl
  simp only [Frame.address, update_idem, update_self]

theorem inHeader_ret {frame : Frame E} {control : Header.Control} :
    (s.inHeader frame element (readHeader control word readers)).setHeader frame.address
        (((s.inHeader frame element (readHeader control word readers)).header frame.address).setControl 0 .idle) =
      s.inHeader frame element (readHeader .idle word readers) := by
  rw [inHeader_setHeader, inHeader_header, readHeader_setControl]

/-- The `read` has its lock. -/
theorem act_locked : (s.inHeader (.read ⟨0, address, s.storeId⟩ (.withTimeout .dontBlock)) element
      (readHeader (.returned (.lockRead (.ok true))) word readers)).act build 0 false =
    some ((s.readBy address element word readers).setControl 0
      (.returned (.read (.ok (some ⟨0, address, s.storeId⟩))))) := by
  rw [State.act_resume inHeader_control (by rw [inHeader_header]; rfl) rfl, inHeader_ret]
  unfold State.noteIssued State.inHeader State.readBy State.setControl
  simp only [Frame.address, update_idem]
  rfl

/-- The `read` has met a full header. -/
theorem act_full {fault : Fault} :
    (s.inHeader (.read ⟨0, address, s.storeId⟩ (.withTimeout .dontBlock)) element
      (readHeader (.faulted fault) word readers)).act build 0 false =
    some ((s.readBy address element word readers).setControl 0 (.faulted fault)) := by
  rw [State.act_headerFault inHeader_control (by rw [inHeader_header]; rfl), inHeader_ret]
  unfold State.inHeader State.readBy State.setControl
  simp only [Frame.address, update_idem]

theorem readBy_idle : ((s.readBy address element word readers).setControl 0 .idle) =
    s.readBy address element word readers := by
  unfold State.readBy State.setControl
  simp only [update_idem]

theorem ret_locked : step build ((s.readBy address element word readers).setControl 0
      (.returned (.read (.ok (some ⟨0, address, s.storeId⟩))))) (.ret 0) =
    some (s.readBy address element word readers) := by
  simp only [step, State.finish, State.setControl, update_self, update_idem]
  exact congrArg some readBy_idle

/-- One more read lock. -/
theorem reach_read (hr : (machine build (Fin 1) E).Reachable (s.readBy address element word readers))
    (hissued : ⟨0, address, s.storeId⟩ ∈ s.issued) (h : Packs word 0 readers 1)
    (hlt : readers < Header.maxConcurrentReads.toNat) :
    ∃ new, (machine build (Fin 1) E).Reachable (s.readBy address element new (readers + 1)) ∧
      Packs new 0 (readers + 1) 1 := by
  obtain ⟨new, hnext, hpacks⟩ := lockReadWithCurrent_room build h hlt
  have h₁ := reach (.call 0 (.read ⟨0, address, s.storeId⟩ (.withTimeout .dontBlock))) hr hissued call_read
  have h₂ := reach (.act 0 false) h₁ trivial ((step_act 0 false).trans
    (act_header ⟨_, rfl⟩ (readHeader_load hnext)))
  have h₃ := reach (.act 0 false) h₂ trivial ((step_act 0 false).trans (act_header ⟨_, rfl⟩ readHeader_exchange))
  have h₄ := reach (.act 0 false) h₃ trivial ((step_act 0 false).trans act_locked)
  exact ⟨new, reach (.ret 0) h₄ trivial ret_locked, hpacks⟩

/-- As many read locks as a header can count. -/
theorem reach_reads (hr : (machine build (Fin 1) E).Reachable
      (s.readBy address element (Header.occupiedUnlockedBits 0) 0))
    (hissued : ⟨0, address, s.storeId⟩ ∈ s.issued) :
    ∀ readers ≤ Header.maxConcurrentReads.toNat, ∃ word,
      (machine build (Fin 1) E).Reachable (s.readBy address element word readers) ∧ Packs word 0 readers 1 := by
  intro readers
  induction readers with
  | zero => exact fun _ => ⟨_, hr, Header.occupiedUnlockedBits_packs 0⟩
  | succ readers ih =>
    intro hle
    obtain ⟨word, hword, hpacks⟩ := ih (by omega)
    exact reach_read hword hissued hpacks hle

/-- The `read` that finds no room. -/
theorem reach_read_fault (hr : (machine build (Fin 1) E).Reachable
      (s.readBy address element word Header.maxConcurrentReads.toNat))
    (hissued : ⟨0, address, s.storeId⟩ ∈ s.issued) (h : Packs word 0 Header.maxConcurrentReads.toNat 1) :
    (machine build (Fin 1) E).Reachable
      ((s.readBy address element word Header.maxConcurrentReads.toNat).setControl 0
        (.faulted Header.tooManyReaders)) := by
  have h₁ := reach (.call 0 (.read ⟨0, address, s.storeId⟩ (.withTimeout .dontBlock))) hr hissued call_read
  have h₂ := reach (.act 0 false) h₁ trivial ((step_act 0 false).trans
    (act_header ⟨_, rfl⟩ (readHeader_load (lockReadWithCurrent_full h))))
  exact reach (.act 0 false) h₂ trivial ((step_act 0 false).trans act_full)

end Read

/-- A thread reads an element until the next `read` panics. -/
theorem exists_reads (build : Build) (element : E) : ∃ s : State (Fin 1) E,
    (machine build (Fin 1) E).Reachable (s.setControl 0 (.faulted Header.tooManyReaders)) := by
  obtain ⟨s, inner, hr, hrest, hsettled, hlen, hstocked⟩ := exists_stocked build element (n := 1) (by omega)
  obtain ⟨location, hout⟩ : ∃ location, inner.HandedOut location := by
    obtain ⟨location, hmem⟩ := List.exists_mem_of_length_pos (hlen ▸ Nat.one_pos)
    exact ⟨location, (Bucket.mem_touched hsettled.doubling).1 hmem⟩
  have hsame : s.readBy ⟨0, location⟩ element (Header.occupiedUnlockedBits 0) 0 = s := by
    have hslot : update s.slot ⟨0, location⟩ ⟨occupiedHeader, some element⟩ = s.slot := by
      rw [← hstocked.occupied location hout, update_eq_self]
    have hcontrol : update s.control 0 .idle = s.control := by
      rw [← hrest.control, update_eq_self]
    show ({ s with
      slot := update s.slot ⟨0, location⟩ ⟨occupiedHeader, some element⟩
      control := update s.control 0 .idle } : State (Fin 1) E) = s
    rw [hslot, hcontrol]
  have hissued : ⟨0, ⟨0, location⟩, s.storeId⟩ ∈ s.issued := (hstocked.issued _).2 ⟨location, hout, rfl⟩
  obtain ⟨word, hword, hpacks⟩ := reach_reads (hsame.symm ▸ hr) hissued _ (le_refl _)
  exact ⟨_, reach_read_fault hword hissued hpacks⟩

end ReadWriteStore.Store

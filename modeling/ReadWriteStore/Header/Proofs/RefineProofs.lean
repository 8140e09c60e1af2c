import ReadWriteStore.Header.RwLock
import ReadWriteStore.Header.Proofs.ExclusionProofs

/-!
# A header refines the atomic read-write lock

Seen through `view`, every step of the machine is one operation of the atomic lock or none at all.
-/

namespace ReadWriteStore.Header

open Transition

/-! ## The views of the words -/

theorem view_unoccupied {word : UInt64} (h : isOccupied word = false) :
    view word = ⟨idFromBits word, .unoccupied⟩ := by
  simp [view, h]

theorem view_unlocked {word : UInt64} (hocc : isOccupied word = true)
    (hr : readersFromBits word = 0) : view word = ⟨idFromBits word, .unlocked⟩ := by
  simp [view, hocc, hr]

theorem isOccupied_of_readers {word : UInt64} (h : readersFromBits word ≠ 0) :
    isOccupied word = true := by
  rw [isOccupied_iff]
  by_contra hlt
  apply h
  rw [← UInt32.toNat_inj, readersFromBits_toNat, Nat.div_eq_of_lt (by omega)]
  rfl

theorem view_writing {word : UInt64} (h : isWriteLocked word = true) :
    view word = ⟨idFromBits word, .writing⟩ := by
  have hr := readers_of_writeLocked h
  simp [view, isOccupied_of_readers hr, hr, h]

theorem view_reading {word : UInt64} (hr : readersFromBits word ≠ 0)
    (hw : isWriteLocked word = false) :
    view word = ⟨idFromBits word, .reading (readersFromBits word).toNat⟩ := by
  simp [view, isOccupied_of_readers hr, hr, hw]

/-- The view of a word, from the numbers in its fields. -/
theorem view_congr {word word' : UInt64} (hid : idFromBits word = idFromBits word')
    (hr : readersFromBits word = readersFromBits word')
    (hocc : isOccupied word = isOccupied word') : view word = view word' := by
  have hw : isWriteLocked word = isWriteLocked word' := by
    unfold isWriteLocked
    rw [hr]
  unfold view
  rw [hid, hr, hocc, hw]

theorem view_occupiedUnlockedBits (id : UInt32) :
    view (occupiedUnlockedBits id) = ⟨id, .unlocked⟩ := by
  have hlt := id.toNat_lt
  rw [view_unlocked, idFromBits_occupiedUnlockedBits]
  · rw [isOccupied_iff, occupiedUnlockedBits_toNat]
    omega
  · rw [← UInt32.toNat_inj, readersFromBits_toNat, occupiedUnlockedBits_toNat]
    show _ = 0
    omega

theorem view_writeLockedBits (id : UInt32) : view (writeLockedBits id) = ⟨id, .writing⟩ := by
  have hlt := id.toNat_lt
  have hid : idFromBits (writeLockedBits id) = id := by
    rw [idFromBits_eq_iff, writeLockedBits_toNat]
    omega
  rw [view_writing, hid]
  rw [isWriteLocked_iff, writeLockedBits_toNat]
  omega

theorem view_unoccupiedBits (id : UInt32) : view (unoccupiedBits id) = ⟨id, .unoccupied⟩ := by
  have hlt := id.toNat_lt
  have hid : idFromBits (unoccupiedBits id) = id := by
    rw [idFromBits_eq_iff, unoccupiedBits_toNat]
    omega
  rw [view_unoccupied, hid]
  rw [Bool.eq_false_iff, ne_eq, isOccupied_iff, unoccupiedBits_toNat]
  omega

theorem view_mark {word : UInt64} (hr : readersFromBits word ≠ 0) :
    view (word &&& ~~~threadNotificationMask) = view word := by
  have hlt := word.toNat_lt
  have hmark := mark_toNat word
  have hsame : readersFromBits (word &&& ~~~threadNotificationMask) = readersFromBits word := by
    rw [← UInt32.toNat_inj, readersFromBits_toNat, readersFromBits_toNat, hmark]
    omega
  refine view_congr ?_ hsame ?_
  · rw [← UInt32.toNat_inj, idFromBits_toNat, idFromBits_toNat, hmark]
    omega
  · rw [isOccupied_of_readers hr, isOccupied_of_readers (by rw [hsame]; exact hr)]

theorem view_occupy {word : UInt64} (hocc : isOccupied word = false) :
    view (word ||| threadNotificationMask) = ⟨idFromBits word, .unlocked⟩ := by
  have hlt : word.toNat < 2 ^ 32 := by
    rw [Bool.eq_false_iff, ne_eq, isOccupied_iff] at hocc
    omega
  have hor := or_mask_toNat (w := word) (by omega)
  have hid : idFromBits (word ||| threadNotificationMask) = idFromBits word := by
    rw [← UInt32.toNat_inj, idFromBits_toNat, idFromBits_toNat, hor]
    omega
  rw [view_unlocked, hid]
  · rw [isOccupied_iff, hor]
    omega
  · rw [← UInt32.toNat_inj, readersFromBits_toNat, hor]
    show _ = 0
    omega

theorem isWriteLocked_false_iff (word : UInt64) :
    isWriteLocked word = false ↔ word.toNat / 2 ^ 32 % 2 ^ 31 ≠ 2 ^ 31 - 1 := by
  rw [Bool.eq_false_iff, ne_eq, isWriteLocked_iff]

/-- One more reader. -/
theorem view_increment {word : UInt64} (hocc : isOccupied word = true)
    (hw : isWriteLocked word = false) (hr : readersFromBits word ≠ maxConcurrentReads) :
    (view word).apply (.lockRead (idFromBits word)) = some (view (word + ((1 : UInt64) <<< 32))) := by
  have hlt := word.toNat_lt
  have hfull : word.toNat / 2 ^ 32 % 2 ^ 31 ≠ 2 ^ 31 - 2 := by
    rw [← readersFromBits_toNat]
    intro he
    apply hr
    rw [← UInt32.toNat_inj, he, maxConcurrentReads_toNat]
  have hw' := (isWriteLocked_false_iff word).1 hw
  have hinc := increment_toNat (w := word) (by omega)
  have hid : idFromBits (word + ((1 : UInt64) <<< 32)) = idFromBits word := by
    rw [← UInt32.toNat_inj, idFromBits_toNat, idFromBits_toNat, hinc]
    omega
  have hreaders : (readersFromBits (word + ((1 : UInt64) <<< 32))).toNat =
      (readersFromBits word).toNat + 1 := by
    rw [readersFromBits_toNat, readersFromBits_toNat, hinc]
    omega
  have hne : readersFromBits (word + ((1 : UInt64) <<< 32)) ≠ 0 := by
    intro he
    rw [he] at hreaders
    cases hreaders
  rw [view_reading hne, hid, hreaders]
  · by_cases hz : readersFromBits word = 0
    · rw [view_unlocked hocc hz, hz]
      simp [RwLock.apply]
    · rw [view_reading hz hw]
      simp [RwLock.apply]
  · rw [isWriteLocked_false_iff, hinc]
    omega

/-- One reader less. -/
theorem view_decrement {word new : UInt64} {mustUnpark : Bool} (hr : readersFromBits word ≠ 0)
    (hw : isWriteLocked word = false) (hleave : ReadersLeave word new mustUnpark) :
    (view word).apply (.unlockRead (idFromBits word)) = some (view new) := by
  have hlt := word.toNat_lt
  have hpos : word.toNat / 2 ^ 32 % 2 ^ 31 ≠ 0 := by
    rw [← readersFromBits_toNat]
    intro he
    exact hr (UInt32.toNat_inj.1 he)
  have hw' := (isWriteLocked_false_iff word).1 hw
  obtain ⟨hmust, hnew⟩ := hleave
  have hdec := decrement_toNat (w := word) (by omega)
  rw [view_reading hr hw]
  by_cases hone : readersFromBits word = 1
  · -- the last reader: the notification bit is set, by the decrement or again
    have hone' : word.toNat / 2 ^ 32 % 2 ^ 31 = 1 := by
      rw [← readersFromBits_toNat, hone]
      rfl
    have hnat : new.toNat = word.toNat % 2 ^ 32 + 2 ^ 63 := by
      rw [hnew]
      by_cases hmark : word.toNat < 2 ^ 63
      · have hmust' : mustUnpark = true := by
          rw [hmust, hone, decide_eq_true hmark]
          rfl
        rw [if_pos hmust', unmarkThreadBlocking_toNat, hdec]
        omega
      · have hmust' : ¬mustUnpark = true := by
          rw [hmust, decide_eq_false hmark]
          exact Bool.false_ne_true
        rw [if_neg hmust', hdec]
        omega
    have hid : idFromBits new = idFromBits word := by
      rw [← UInt32.toNat_inj, idFromBits_toNat, idFromBits_toNat, hnat]
      omega
    rw [view_unlocked, hid, hone]
    · simp [RwLock.apply]
    · rw [isOccupied_iff, hnat]
      omega
    · rw [← UInt32.toNat_inj, readersFromBits_toNat, hnat]
      show _ = 0
      omega
  · have hone' : word.toNat / 2 ^ 32 % 2 ^ 31 ≠ 1 := by
      rw [← readersFromBits_toNat]
      intro he
      exact hone (UInt32.toNat_inj.1 he)
    have hmust' : ¬mustUnpark = true := by rw [hmust]; simp [hone]
    rw [if_neg hmust'] at hnew
    rw [hnew]
    have hid : idFromBits (word - ((1 : UInt64) <<< 32)) = idFromBits word := by
      rw [← UInt32.toNat_inj, idFromBits_toNat, idFromBits_toNat, hdec]
      omega
    have hreaders : (readersFromBits word).toNat =
        (readersFromBits (word - ((1 : UInt64) <<< 32))).toNat + 1 := by
      rw [readersFromBits_toNat, readersFromBits_toNat, hdec]
      omega
    have hne : (readersFromBits (word - ((1 : UInt64) <<< 32))).toNat ≠ 0 := by
      rw [readersFromBits_toNat, hdec]
      omega
    obtain ⟨readers, hcount⟩ := Nat.exists_eq_succ_of_ne_zero hne
    rw [view_reading, hid, hreaders, hcount]
    · simp [RwLock.apply]
    · intro he
      rw [he] at hne
      exact hne rfl
    · rw [isWriteLocked_false_iff, hdec]
      omega

/-! ## The steps -/

def Caller.rwOp : Caller → RwOp
  | .lockWrite id => .lockWrite id
  | .remove id _ => .remove id

/-- The operation of the atomic lock that a step at the point may take. -/
def Point.rwOp : Point → Option RwOp
  | .lockReadExchange id _ _ _ => some (.lockRead id)
  | .unlockReadExchange id _ _ _ => some (.unlockRead id)
  | .transitionExchange _ _ _ caller => some caller.rwOp
  | .closure (.transition _ _ caller) _ => some caller.rwOp
  | .unlockWriteSwap id _ => some (.unlockWrite id)
  | .removeLockedSwap id _ _ => some (.removeLocked id)
  | .occupyFetchOr => some .occupy
  | _ => none

theorem view_transition {issued : List UInt32} {caller : Caller} (h : caller.Ok issued) :
    (view (occupiedUnlockedBits caller.id)).apply caller.rwOp = some (view caller.target) := by
  rw [view_occupiedUnlockedBits]
  cases caller with
  | lockWrite id =>
    show _ = some (view (writeLockedBits id))
    rw [view_writeLockedBits]
    simp [RwLock.apply, Caller.rwOp, Caller.id]
  | remove id nextId =>
    obtain rfl := h.2 id nextId rfl
    show _ = some (view (unoccupiedBits (id + 1)))
    rw [view_unoccupiedBits]
    simp [RwLock.apply, Caller.rwOp, Caller.id]

variable {T : Type} [Fintype T] [DecidableEq T] {build : Build} {s s' : State T}

omit [DecidableEq T] in
theorem State.Inv.apply_unlockRead (h : s.Inv) {t : T} {id : UInt32} (hlock : ⟨.read, id⟩ ∈ s.locks t)
    {new : UInt64} {mustUnpark : Bool} (hleave : ReadersLeave s.word new mustUnpark) :
    (view s.word).apply (.unlockRead id) = some (view new) := by
  obtain ⟨rfl, hr, hw, -⟩ := h.of_read_lock hlock
  exact view_decrement hr hw hleave

omit [DecidableEq T] in
theorem State.Inv.apply_unlockWrite (h : s.Inv) {t : T} {id : UInt32}
    (hlock : ⟨.write, id⟩ ∈ s.locks t) :
    (view s.word).apply (.unlockWrite id) = some (view (occupiedUnlockedBits id)) := by
  obtain ⟨rfl, hw, -⟩ := h.of_write_lock hlock
  rw [view_writing hw]
  simp [view_occupiedUnlockedBits, RwLock.apply]

omit [DecidableEq T] in
theorem State.Inv.apply_removeLocked (h : s.Inv) {t : T} {id : UInt32}
    (hlock : ⟨.write, id⟩ ∈ s.locks t) :
    (view s.word).apply (.removeLocked id) = some (view (unoccupiedBits (id + 1))) := by
  obtain ⟨rfl, hw, -⟩ := h.of_write_lock hlock
  rw [view_writing hw]
  simp [view_unoccupiedBits, RwLock.apply]

theorem apply_occupy {word : UInt64} (hocc : isOccupied word = false) :
    (view word).apply .occupy = some (view (word ||| threadNotificationMask)) := by
  rw [view_unoccupied hocc]
  simp [view_occupy hocc, RwLock.apply]

/-- The word is as it was, or a locked header has got its waiting mark. -/
def Unmoved (word word' : UInt64) : Prop :=
  word' = word ∨ readersFromBits word ≠ 0 ∧ word' = word &&& ~~~threadNotificationMask

theorem Unmoved.view_eq {word word' : UInt64} (h : Unmoved word word') : view word' = view word := by
  rcases h with rfl | ⟨hr, rfl⟩
  · rfl
  · exact view_mark hr

/-- A step on the word leaves all but the waiting mark alone or takes the operation of its point. -/
theorem Change.unmoved_or {t : T} {point : Point} (hinv : s.Inv) (hch : Change build s t point s') :
    Unmoved s.word s'.word ∨
      ∃ op, point.rwOp = some op ∧ (view s.word).apply op = some (view s'.word) := by
  cases hch with
  | stay _ _ _ => exact Or.inl (Or.inl rfl)
  | mark hframe hr hid => exact Or.inl (Or.inr ⟨hr, rfl⟩)
  | addReader hmem hid hw hr =>
    refine Or.inr ⟨_, rfl, ?_⟩
    subst hid
    have hocc : isOccupied s.word = true := (isOccupied_iff _).2 (hinv.ledger.occupied.2 hmem)
    simpa using view_increment hocc hw hr
  | dropReader hlock hleave =>
    refine Or.inr ⟨_, rfl, ?_⟩
    simpa using hinv.apply_unlockRead hlock hleave
  | transition hcaller hcur =>
    refine Or.inr ⟨_, rfl, ?_⟩
    rw [hcur]
    simpa using view_transition hcaller
  | transitionSlow hcaller hcur =>
    refine Or.inr ⟨_, rfl, ?_⟩
    rw [hcur]
    simpa using view_transition hcaller
  | unlockWrite hlock =>
    refine Or.inr ⟨_, rfl, ?_⟩
    simpa using hinv.apply_unlockWrite hlock
  | removeLocked hlock =>
    refine Or.inr ⟨_, rfl, ?_⟩
    simpa using hinv.apply_removeLocked hlock
  | occupy hocc hne =>
    refine Or.inr ⟨_, rfl, ?_⟩
    simpa using apply_occupy hocc

/-- A step on the word leaves the atomic lock alone or takes the operation of its point. -/
theorem Change.refines {t : T} {point : Point} (hinv : s.Inv) (hch : Change build s t point s') :
    view s'.word = view s.word ∨
      ∃ op, point.rwOp = some op ∧ (view s.word).apply op = some (view s'.word) := by
  rcases hch.unmoved_or hinv with h | h
  · exact Or.inl h.view_eq
  · exact Or.inr h

omit [Fintype T] in
/-- A step that is not on the word. -/
theorem Move.word_eq {e : Event T} (hm : Move build s e s') :
    s'.word = s.word ∨ ∃ t spurious point op, e = .act t spurious ∧
      s.control t = .running point ∧ point.op = some op ∧ s' = s.exec build t point op spurious := by
  cases hm with
  | exec hc hop => exact Or.inr ⟨_, _, _, _, rfl, hc, hop, rfl⟩
  | _ => exact Or.inl rfl

theorem State.Inv.refines (h : s.Inv) {e : Event T} (ha : Allowed s e) (hm : Move build s e s') :
    view s'.word = view s.word ∨ ∃ op, (view s.word).apply op = some (view s'.word) := by
  rcases hm.word_eq with hsame | ⟨t, spurious, point, op, rfl, hc, hop, rfl⟩
  · rw [hsame]
    exact Or.inl rfl
  · have hch : Change build s t point (s.exec build t point op spurious) :=
      h.exec_change hc hop (by rintro rfl; exact ha hc)
    rcases hch.refines h with hsame | ⟨op', -, happly⟩
    · exact Or.inl hsame
    · exact Or.inr ⟨op', happly⟩

/-- Only a removal changes the ID of the atomic lock. -/
theorem RwLock.id_of_apply {lock lock' : RwLock} {op : RwOp} (h : lock.apply op = some lock') :
    lock'.id = lock.id ∨ lock'.mode = .unoccupied := by
  obtain ⟨id, mode⟩ := lock
  cases op with
  | lockRead id' =>
    simp only [RwLock.apply] at h
    split at h
    · rename_i hid
      cases mode <;> cases h <;> exact Or.inl hid.symm
    · cases h
  | unlockRead id' =>
    simp only [RwLock.apply] at h
    split at h
    · rename_i hid
      split at h <;> cases h <;> exact Or.inl hid.symm
    · cases h
  | lockWrite id' =>
    simp only [RwLock.apply] at h
    split at h
    · rename_i he
      cases he
      cases h
      exact Or.inl rfl
    · cases h
  | unlockWrite id' =>
    simp only [RwLock.apply] at h
    split at h
    · rename_i he
      cases he
      cases h
      exact Or.inl rfl
    · cases h
  | remove id' =>
    simp only [RwLock.apply] at h
    split at h <;> cases h
    exact Or.inr rfl
  | removeLocked id' =>
    simp only [RwLock.apply] at h
    split at h <;> cases h
    exact Or.inr rfl
  | occupy =>
    simp only [RwLock.apply] at h
    split at h <;> cases h
    exact Or.inl rfl

/-- A step keeps the ID or leaves the header unoccupied. -/
theorem State.Inv.id_step (h : s.Inv) {e : Event T} (ha : Allowed s e) (hm : Move build s e s') :
    idFromBits s'.word = idFromBits s.word ∨ isOccupied s'.word = false := by
  rcases h.refines ha hm with hsame | ⟨op, happly⟩
  · exact Or.inl (congrArg RwLock.id hsame)
  · rcases RwLock.id_of_apply happly with hid | hmode
    · exact Or.inl hid
    · refine Or.inr ?_
      cases hocc : isOccupied s'.word with
      | false => rfl
      | true =>
        unfold view at hmode
        rw [hocc] at hmode
        split at hmode
        · split at hmode
          · cases hmode
          · split at hmode <;> cases hmode
        · contradiction

/-- The words of a header are only ever those of the atomic lock. -/
theorem reachable_view (h : (machine build T).Reachable s) :
    RwLock.system.Reachable (view s.word) := by
  have hboth : s.Inv ∧ RwLock.system.Reachable (view s.word) := by
    refine h.invariant (P := fun s => s.Inv ∧ RwLock.system.Reachable (view s.word)) ?_ ?_
    · rintro _ rfl
      refine ⟨State.Inv.init, .init ?_⟩
      exact view_unoccupiedBits 0
    · rintro s e s' ⟨hinv, hview⟩ hs
      have hm := Move.of_step hs.2
      refine ⟨hinv.move hs.1 hm, ?_⟩
      rcases hinv.refines hs.1 hm with hsame | ⟨op, happly⟩
      · rw [hsame]
        exact hview
      · exact .step hview ⟨trivial, happly⟩
  exact hboth.2

end ReadWriteStore.Header

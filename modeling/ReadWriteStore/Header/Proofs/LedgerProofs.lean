import ReadWriteStore.Header.Proofs.WordProofs

/-!
# What the word of a header says about its locks

`Ledger word reads writes issued` ties the three fields of the word to the number of read and write
locks held and to the IDs that `occupy` has returned. Each lemma takes the ledger through one of the
changes that the methods of `Header` make to the word.
-/

namespace ReadWriteStore.Header

/-- The word carries the lock state and the current ID. -/
structure Ledger (word : UInt64) (reads writes : ℕ) (issued : List UInt32) : Prop where
  field : word.toNat / 2 ^ 32 % 2 ^ 31 = if writes = 0 then reads else 2 ^ 31 - 1
  writes_le : writes ≤ 1
  exclusive : writes = 1 → reads = 0
  reads_le : reads ≤ 2 ^ 31 - 2
  occupied : 2 ^ 32 ≤ word.toNat ↔ idFromBits word ∈ issued
  issued_le : ∀ id ∈ issued, id.toNat ≤ word.toNat % 2 ^ 32
  not_reserved : reservedId ∉ issued
  nodup : issued.Nodup

/-- The next ID, for an ID that `occupy` may return. -/
theorem next_toNat {id : UInt32} (h : id ≠ reservedId) : (id + 1).toNat = id.toNat + 1 := by
  have hid := id.toNat_lt
  have hne : id.toNat ≠ 2 ^ 32 - 1 := by
    intro he
    exact h (UInt32.toNat_inj.1 (by rw [he, reservedId_toNat]))
  rw [UInt32.toNat_add]
  simp
  omega

namespace Ledger

variable {w : UInt64} {reads writes : ℕ} {issued : List UInt32} {id : UInt32}

theorem init : Ledger (unoccupiedBits 0) 0 0 [] where
  field := by decide
  writes_le := by omega
  exclusive := fun _ => rfl
  reads_le := by omega
  occupied := by simp [unoccupiedBits_toNat]
  issued_le := by simp
  not_reserved := by simp
  nodup := List.nodup_nil

theorem ne_reserved (h : Ledger w reads writes issued) (hid : id ∈ issued) : id ≠ reservedId := by
  rintro rfl
  exact h.not_reserved hid

/-- A locked header is occupied. -/
theorem occupied_of_readers (h : Ledger w reads writes issued) (hr : readersFromBits w ≠ 0) :
    isOccupied w = true ∧ idFromBits w ∈ issued := by
  have hne : w.toNat / 2 ^ 32 % 2 ^ 31 ≠ 0 := by
    rw [← readersFromBits_toNat]
    intro he
    exact hr (UInt32.toNat_inj.1 he)
  have hle : 2 ^ 32 ≤ w.toNat := by omega
  exact ⟨(isOccupied_iff w).2 hle, h.occupied.1 hle⟩

/-- A header that carries an issued ID and has no readers is the word `lock_write` expects. -/
theorem eq_unlocked (h : Ledger w reads writes issued) (hid : idFromBits w ∈ issued)
    (hr : readersFromBits w = 0) : w = occupiedUnlockedBits (idFromBits w) := by
  have hocc : isOccupied w = true := (isOccupied_iff w).2 (h.occupied.2 hid)
  have hge := notification_of_unlocked hocc hr
  have hlt := w.toNat_lt
  apply UInt64.toNat_inj.1
  rw [← UInt32.toNat_inj, readersFromBits_toNat] at hr
  rw [occupiedUnlockedBits_toNat, idFromBits_toNat]
  simp at hr
  omega

theorem readers_ne_zero (h : Ledger w reads writes issued) (hpos : 0 < reads + writes) :
    readersFromBits w ≠ 0 := by
  intro he
  have hfield := h.field
  rw [← readersFromBits_toNat, he] at hfield
  have := h.writes_le
  have hex := h.exclusive
  split at hfield
  · simp at hfield; omega
  · simp at hfield

theorem not_writeLocked (h : Ledger w reads writes issued) (hpos : 0 < reads) :
    isWriteLocked w = false := by
  have hw := h.writes_le
  have hex := h.exclusive
  have hle := h.reads_le
  have hz : writes = 0 := by
    rcases Nat.eq_zero_or_pos writes with hz | hz
    · exact hz
    · have := hex (by omega)
      omega
  rw [Bool.eq_false_iff, ne_eq, isWriteLocked_iff, h.field, if_pos hz]
  omega

theorem isWriteLocked_iff_writes (h : Ledger w reads writes issued) :
    isWriteLocked w = true ↔ writes = 1 := by
  have := h.writes_le
  have hle := h.reads_le
  rw [isWriteLocked_iff, h.field]
  split <;> omega

/-! ## Changes -/

/-- One more reader. -/
theorem increment (h : Ledger w reads writes issued) (hid : idFromBits w ∈ issued)
    (hw : isWriteLocked w = false) (hr : readersFromBits w ≠ maxConcurrentReads) :
    Ledger (w + ((1 : UInt64) <<< 32)) (reads + 1) writes issued ∧
      idFromBits (w + ((1 : UInt64) <<< 32)) = idFromBits w ∧ writes = 0 := by
  have hlt := w.toNat_lt
  have hle := h.reads_le
  have hocc := h.occupied.2 hid
  have hz : writes = 0 := by
    have := h.writes_le
    have hiff := h.isWriteLocked_iff_writes
    rw [hw] at hiff
    by_contra hne
    exact absurd (hiff.2 (by omega)) (by simp)
  have hfield := h.field
  rw [if_pos hz] at hfield
  have hmax : reads ≠ 2 ^ 31 - 2 := by
    intro he
    apply hr
    rw [← UInt32.toNat_inj, readersFromBits_toNat, maxConcurrentReads_toNat, hfield, he]
  have hnat := increment_toNat (w := w) (by omega)
  have hsame : idFromBits (w + ((1 : UInt64) <<< 32)) = idFromBits w := by
    rw [← UInt32.toNat_inj, idFromBits_toNat, idFromBits_toNat, hnat]
    omega
  refine ⟨⟨?_, h.writes_le, ?_, ?_, ?_, ?_, h.not_reserved, h.nodup⟩, hsame, hz⟩
  · rw [hnat, if_pos hz]; omega
  · intro h1; omega
  · omega
  · rw [hnat, hsame]
    exact ⟨fun _ => hid, fun _ => by omega⟩
  · intro id hmem
    have := h.issued_le id hmem
    rw [hnat]
    omega

/-- One reader less; the last one also restores the notification bit. -/
theorem decrement (h : Ledger w (reads + 1) writes issued) {mustUnpark : Bool} {new : UInt64}
    (hmust : mustUnpark = (decide (w.toNat < 2 ^ 63) && readersFromBits w == 1))
    (hnew : new = if mustUnpark then unmarkThreadBlocking (w - ((1 : UInt64) <<< 32))
      else w - ((1 : UInt64) <<< 32)) :
    Ledger new reads writes issued ∧ idFromBits new = idFromBits w := by
  have hlt := w.toNat_lt
  have hle := h.reads_le
  have hz : writes = 0 := by
    have := h.writes_le
    have := h.exclusive
    omega
  have hfield := h.field
  rw [if_pos hz] at hfield
  have hdec := decrement_toNat (w := w) (by omega)
  have hone : (readersFromBits w == 1) = true ↔ reads = 0 := by
    rw [beq_iff_eq, ← UInt32.toNat_inj, readersFromBits_toNat, hfield]
    simp
  have hocc := h.occupied
  have hnat : new.toNat = if w.toNat < 2 ^ 63 ∧ reads = 0 then w.toNat - 2 ^ 32 + 2 ^ 63
      else w.toNat - 2 ^ 32 := by
    by_cases hcase : w.toNat < 2 ^ 63 ∧ reads = 0
    · rw [if_pos hcase, hnew, hmust, hone.2 hcase.2]
      simp only [hcase.1, decide_true, Bool.and_self, if_true, unmarkThreadBlocking_toNat, hdec]
      omega
    · have hfalse : mustUnpark = false := by
        rw [hmust, Bool.and_eq_false_iff, decide_eq_false_iff_not, Bool.eq_false_iff, ne_eq, hone]
        tauto
      rw [if_neg hcase, hnew, hfalse, if_neg (by simp), hdec]
  have hsame : idFromBits new = idFromBits w := by
    rw [← UInt32.toNat_inj, idFromBits_toNat, idFromBits_toNat, hnat]
    split <;> omega
  refine ⟨⟨?_, h.writes_le, ?_, ?_, ?_, ?_, h.not_reserved, h.nodup⟩, hsame⟩
  · rw [hnat, if_pos hz]
    split <;> omega
  · intro h1; omega
  · omega
  · rw [hsame, ← hocc, hnat]
    split <;> omega
  · intro id hmem
    have := h.issued_le id hmem
    rw [hnat]
    split <;> omega

/-- The waiting mark of a locked header. -/
theorem mark (h : Ledger w reads writes issued) (hr : readersFromBits w ≠ 0) :
    Ledger (w &&& ~~~threadNotificationMask) reads writes issued ∧
      idFromBits (w &&& ~~~threadNotificationMask) = idFromBits w := by
  have hlt := w.toNat_lt
  have hnat := mark_toNat w
  have hsame : idFromBits (w &&& ~~~threadNotificationMask) = idFromBits w := by
    rw [← UInt32.toNat_inj, idFromBits_toNat, idFromBits_toNat, hnat]
    omega
  have hne : w.toNat / 2 ^ 32 % 2 ^ 31 ≠ 0 := by
    rw [← readersFromBits_toNat]
    intro he
    exact hr (UInt32.toNat_inj.1 he)
  refine ⟨⟨?_, h.writes_le, h.exclusive, h.reads_le, ?_, ?_, h.not_reserved, h.nodup⟩, hsame⟩
  · rw [hnat, ← h.field]; omega
  · rw [hsame, ← h.occupied, hnat]; omega
  · intro id hmem
    have := h.issued_le id hmem
    rw [hnat]
    omega

/-- The word `lock_write` and `remove` expect: nobody holds a lock. -/
theorem unlocked (h : Ledger (occupiedUnlockedBits id) reads writes issued) :
    reads = 0 ∧ writes = 0 ∧ idFromBits (occupiedUnlockedBits id) = id ∧ id ∈ issued := by
  have hid := id.toNat_lt
  have hfield := h.field
  have hle := h.writes_le
  have hocc := h.occupied
  have hsame : idFromBits (occupiedUnlockedBits id) = id := by
    rw [← UInt32.toNat_inj, idFromBits_toNat, occupiedUnlockedBits_toNat]
    omega
  rw [occupiedUnlockedBits_toNat] at hfield hocc
  rw [hsame] at hocc
  refine ⟨?_, ?_, hsame, hocc.1 (by omega)⟩
  · split at hfield <;> omega
  · split at hfield <;> omega

/-- `lock_write` from the unlocked word. -/
theorem lockWrite (h : Ledger (occupiedUnlockedBits id) reads writes issued) :
    Ledger (writeLockedBits id) reads (writes + 1) issued ∧ idFromBits (writeLockedBits id) = id := by
  obtain ⟨rfl, rfl, hid, hmem⟩ := h.unlocked
  have hlt := id.toNat_lt
  have hnat := writeLockedBits_toNat id
  have hsame : idFromBits (writeLockedBits id) = id := by
    rw [← UInt32.toNat_inj, idFromBits_toNat, hnat]
    omega
  refine ⟨⟨?_, by omega, fun _ => rfl, by omega, ?_, ?_, h.not_reserved, h.nodup⟩, hsame⟩
  · rw [hnat, if_neg (by omega)]; omega
  · rw [hsame, hnat]
    exact ⟨fun _ => hmem, fun _ => by omega⟩
  · intro i hi
    have := h.issued_le i hi
    rw [occupiedUnlockedBits_toNat] at this
    rw [hnat]
    omega

/-- `unlock_write`. -/
theorem unlockWrite (h : Ledger w reads (writes + 1) issued) (hid : idFromBits w = id) :
    Ledger (occupiedUnlockedBits id) reads writes issued ∧
      idFromBits (occupiedUnlockedBits id) = id := by
  have hlt := id.toNat_lt
  have hz : writes = 0 := by have := h.writes_le; omega
  subst hz
  have hreads := h.exclusive rfl
  have hmem := (h.occupied_of_readers (h.readers_ne_zero (by omega))).2
  have hnat := occupiedUnlockedBits_toNat id
  have hsame : idFromBits (occupiedUnlockedBits id) = id := by
    rw [← UInt32.toNat_inj, idFromBits_toNat, hnat]
    omega
  refine ⟨⟨?_, by omega, by omega, h.reads_le, ?_, ?_, h.not_reserved, h.nodup⟩, hsame⟩
  · rw [hnat, if_pos rfl]; omega
  · rw [hsame, hnat, ← hid]
    exact ⟨fun _ => hmem, fun _ => by omega⟩
  · intro i hi
    have := h.issued_le i hi
    rw [idFromBits_eq_iff] at hid
    rw [hnat]
    omega

/-- `remove` from the unlocked word and `remove_locked`: the header moves to the next ID. -/
theorem retire (h : Ledger w reads writes issued) (hmem : id ∈ issued) (hid : idFromBits w = id) :
    Ledger (unoccupiedBits (id + 1)) 0 0 issued ∧
      (idFromBits (unoccupiedBits (id + 1))).toNat = id.toNat + 1 := by
  have hlt := id.toNat_lt
  have hnext := next_toNat (h.ne_reserved hmem)
  have hlt' := (id + 1).toNat_lt
  have hnat := unoccupiedBits_toNat (id + 1)
  have hsame : (idFromBits (unoccupiedBits (id + 1))).toNat = id.toNat + 1 := by
    rw [idFromBits_toNat, hnat]
    omega
  have hle : ∀ i ∈ issued, i.toNat ≤ id.toNat := by
    intro i hi
    have := h.issued_le i hi
    rw [idFromBits_eq_iff] at hid
    omega
  refine ⟨⟨?_, by omega, by omega, by omega, ?_, ?_, h.not_reserved, h.nodup⟩, hsame⟩
  · rw [hnat, if_pos rfl]; omega
  · constructor
    · intro hge
      rw [hnat] at hge
      omega
    · intro hin
      have := hle _ hin
      omega
  · intro i hi
    have := hle i hi
    rw [hnat]
    omega

/-- `occupy`: the word was unoccupied, so it was the bare ID. -/
theorem occupy (h : Ledger w reads writes issued) (hocc : isOccupied w = false)
    (hid : idFromBits w ≠ reservedId) :
    Ledger (w ||| threadNotificationMask) reads writes (idFromBits w :: issued) ∧
      idFromBits (w ||| threadNotificationMask) = idFromBits w := by
  have hlt : w.toNat < 2 ^ 32 := by
    rw [Bool.eq_false_iff, ne_eq, isOccupied_iff] at hocc
    omega
  have hfield := h.field
  have hle := h.writes_le
  have hnat := or_mask_toNat (w := w) (by omega)
  have hsame : idFromBits (w ||| threadNotificationMask) = idFromBits w := by
    rw [← UInt32.toNat_inj, idFromBits_toNat, idFromBits_toNat, hnat]
    omega
  have hnot : idFromBits w ∉ issued := by
    intro hin
    have := h.occupied.2 hin
    omega
  refine ⟨⟨?_, hle, h.exclusive, h.reads_le, ?_, ?_, ?_, List.nodup_cons.2 ⟨hnot, h.nodup⟩⟩, hsame⟩
  · rw [hnat, ← hfield]; omega
  · rw [hsame, hnat]
    exact ⟨fun _ => List.mem_cons_self, fun _ => by omega⟩
  · intro i hi
    rcases List.mem_cons.1 hi with rfl | hi
    · rw [hnat, idFromBits_toNat]; omega
    · have := h.issued_le i hi
      rw [hnat]
      omega
  · rintro hin
    rcases List.mem_cons.1 hin with he | hin
    · exact hid he.symm
    · exact h.not_reserved hin

end Ledger

end ReadWriteStore.Header

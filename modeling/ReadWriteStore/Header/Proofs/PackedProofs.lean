import ReadWriteStore.Header.Packed
import ReadWriteStore.Header.Proofs.WordProofs

/-!
# The packed word is a faithful encoding

A word is determined by its three fields (`Packs`), each helper reads or changes one of them, and the
contents of a header are determined by the fields of their word.
-/

namespace ReadWriteStore.Header

variable {build : Build} {bits bits' : UInt64} {id : UInt32} {readers notification : ℕ}

/-! ## Words and their fields -/

/-- A word with the given fields. -/
structure Packs (bits : UInt64) (id : UInt32) (readers notification : ℕ) : Prop where
  readers_lt : readers < 2 ^ 31
  notification_lt : notification < 2
  toNat : bits.toNat = id.toNat + 2 ^ 32 * readers + 2 ^ 63 * notification

namespace Packs

theorem unique (h : Packs bits id readers notification) (h' : Packs bits' id readers notification) :
    bits = bits' := by
  rw [← UInt64.toNat_inj, h.toNat, h'.toNat]

theorem idFromBits (h : Packs bits id readers notification) : idFromBits bits = id := by
  have hid := id.toNat_lt
  have hn := h.notification_lt
  rw [idFromBits_eq_iff, h.toNat]
  omega

theorem readersFromBits (h : Packs bits id readers notification) :
    (readersFromBits bits).toNat = readers := by
  have hid := id.toNat_lt
  have hr := h.readers_lt
  have hn := h.notification_lt
  rw [readersFromBits_toNat, h.toNat]
  omega

theorem isWriteLocked_iff (h : Packs bits id readers notification) :
    isWriteLocked bits = true ↔ readers = 2 ^ 31 - 1 := by
  rw [Header.isWriteLocked_iff, ← readersFromBits_toNat, h.readersFromBits]

theorem isOccupied_iff (h : Packs bits id readers notification) :
    isOccupied bits = true ↔ readers ≠ 0 ∨ notification ≠ 0 := by
  have hid := id.toNat_lt
  rw [Header.isOccupied_iff, h.toNat]
  omega

/-- The bit of the mark is a field of its own. -/
theorem and_mask (h : Packs bits id readers notification) :
    (bits &&& threadNotificationMask).toNat = 2 ^ 63 * notification := by
  have hid := id.toNat_lt
  have hr := h.readers_lt
  have hn := h.notification_lt
  have hdiv : bits.toNat / 2 ^ 63 % 2 = notification := by
    rw [h.toNat]
    omega
  rw [UInt64.toNat_and, threadNotificationMask_toNat, Nat.and_two_pow,
    Nat.testBit_eq_decide_div_mod_eq, hdiv]
  obtain rfl | rfl : notification = 0 ∨ notification = 1 := by omega
  · rfl
  · rfl

theorem hasThreadBlocking (h : Packs bits id readers notification)
    (hocc : readers ≠ 0 ∨ notification ≠ 0) :
    hasThreadBlocking build bits = .ok (decide (notification = 0)) := by
  have hid := id.toNat_lt
  have hr := h.readers_lt
  have hn := h.notification_lt
  rw [hasThreadBlocking_ok build (h.isOccupied_iff.2 hocc)]
  congr 1
  rw [decide_eq_decide, h.toNat]
  omega

/-! ### Changing a field -/

theorem incrementReaders (h : Packs bits id readers notification) (hid : id ≠ reservedId)
    (hlt : readers < maxConcurrentReads.toNat) :
    ∃ bits', incrementReaders build bits = .ok bits' ∧ Packs bits' id (readers + 1) notification := by
  have hidlt := id.toNat_lt
  have hn := h.notification_lt
  have htoNat := h.toNat
  rw [maxConcurrentReads_toNat] at hlt
  have hne : Header.readersFromBits bits ≠ maxConcurrentReads := by
    rw [Ne, ← UInt32.toNat_inj, h.readersFromBits, maxConcurrentReads_toNat]
    omega
  have hnw : isWriteLocked bits = false := by
    rw [Bool.eq_false_iff, Ne, h.isWriteLocked_iff]
    omega
  refine ⟨_, incrementReaders_ok build hne hnw (by rw [h.idFromBits]; exact hid), by omega, hn, ?_⟩
  rw [increment_toNat (by omega), htoNat]
  omega

theorem decrementReaders (h : Packs bits id (readers + 1) notification) :
    ∃ bits', decrementReaders build bits = .ok bits' ∧ Packs bits' id readers notification := by
  have hr := h.readers_lt
  have htoNat := h.toNat
  have hne : Header.readersFromBits bits ≠ 0 := by
    rw [Ne, ← UInt32.toNat_inj, h.readersFromBits]
    simp
  refine ⟨_, decrementReaders_ok build hne, by omega, h.notification_lt, ?_⟩
  rw [decrement_toNat (by omega), htoNat]
  omega

theorem markThreadBlocking (h : Packs bits id readers notification) (hid : id ≠ reservedId)
    (hr : readers ≠ 0) :
    ∃ bits', markThreadBlocking build bits = .ok bits' ∧ Packs bits' id readers 0 := by
  have hidlt := id.toNat_lt
  have hlt := h.readers_lt
  have hn := h.notification_lt
  have hne : Header.readersFromBits bits ≠ 0 := by
    rw [Ne, ← UInt32.toNat_inj, h.readersFromBits]
    exact hr
  refine ⟨_, markThreadBlocking_ok build hne (by rw [h.idFromBits]; exact hid), hlt, by omega, ?_⟩
  rw [mark_toNat, h.toNat]
  omega

theorem unmarkThreadBlocking (h : Packs bits id readers notification) :
    Packs (unmarkThreadBlocking bits) id readers 1 := by
  have hid := id.toNat_lt
  have hlt := h.readers_lt
  have hn := h.notification_lt
  refine ⟨hlt, by omega, ?_⟩
  rw [unmarkThreadBlocking_toNat, h.toNat]
  omega

end Packs

theorem occupiedUnlockedBits_packs (id : UInt32) : Packs (occupiedUnlockedBits id) id 0 1 :=
  ⟨by omega, by omega, by rw [occupiedUnlockedBits_toNat]; omega⟩

theorem unoccupiedBits_packs (id : UInt32) : Packs (unoccupiedBits id) id 0 0 :=
  ⟨by omega, by omega, by rw [unoccupiedBits_toNat]; omega⟩

theorem writeLockedBits_packs (id : UInt32) : Packs (writeLockedBits id) id (2 ^ 31 - 1) 1 :=
  ⟨by omega, by omega, by rw [writeLockedBits_toNat]; omega⟩

/-- The readers of a word can be added one by one up to the limit. -/
theorem addReaders_packs (build : Build) (hid : id ≠ reservedId) :
    ∀ readers ≤ maxConcurrentReads.toNat, ∃ bits,
      addReaders build readers (occupiedUnlockedBits id) = .ok bits ∧ Packs bits id readers 1 := by
  intro readers
  induction readers with
  | zero => exact fun _ => ⟨_, rfl, occupiedUnlockedBits_packs id⟩
  | succ readers ih =>
    intro hle
    obtain ⟨bits, hbits, hpacks⟩ := ih (by omega)
    obtain ⟨bits', hbits', hpacks'⟩ := hpacks.incrementReaders hid (by omega)
    refine ⟨bits', ?_, hpacks'⟩
    unfold addReaders
    rw [hbits]
    exact hbits'

/-! ## Contents and their words -/

/-- The reader bits of a mode. -/
def LockMode.readerBits : LockMode → ℕ
  | .unoccupied => 0
  | .shared readers => readers
  | .write => 2 ^ 31 - 1

/-- The notification bit: unset when there are threads blocking, and in unoccupied headers. -/
def Contents.notificationBit (contents : Contents) : ℕ :=
  if contents.mode = .unoccupied ∨ contents.waiting = true then 0 else 1

/-- The word has the fields that the contents ask for. -/
abbrev Contents.Packs (contents : Contents) (bits : UInt64) : Prop :=
  Header.Packs bits contents.id contents.mode.readerBits contents.notificationBit

namespace Contents

variable {contents contents' : Contents}

theorem readerBits_ne_zero (h : contents.mode.Locked) : contents.mode.readerBits ≠ 0 := by
  unfold LockMode.readerBits
  cases hmode : contents.mode with
  | unoccupied => rw [hmode] at h; exact h.elim
  | shared readers => rw [hmode] at h; exact h
  | write => simp

theorem occupied_of_locked (h : contents.mode.Locked) : contents.mode ≠ .unoccupied := by
  intro hmode
  rw [hmode] at h
  exact h

theorem notification_of_waiting (h : contents.waiting = true) : contents.notificationBit = 0 :=
  if_pos (Or.inr h)

theorem notification_of_not_waiting (hmode : contents.mode ≠ .unoccupied)
    (h : contents.waiting = false) : contents.notificationBit = 1 := by
  unfold notificationBit
  rw [if_neg]
  rintro (h' | h')
  · exact hmode h'
  · rw [h] at h'
    cases h'

/-- A header in use has a bit set above its ID. -/
theorem occupied_fields (contents : Contents) :
    contents.mode.readerBits ≠ 0 ∨ contents.notificationBit ≠ 0 ↔ contents.mode ≠ .unoccupied := by
  constructor
  · rintro (h | h) hmode
    · exact h (by rw [hmode]; rfl)
    · exact h (if_pos (Or.inl hmode))
  · intro hmode
    cases hwaiting : contents.waiting with
    | true => exact Or.inl (readerBits_ne_zero (contents.locked hwaiting))
    | false =>
      rw [notification_of_not_waiting hmode hwaiting]
      exact Or.inr Nat.one_ne_zero

/-- All reader bits are set in a write lock only. -/
theorem readerBits_full (contents : Contents) :
    contents.mode.readerBits = 2 ^ 31 - 1 ↔ contents.mode = .write := by
  unfold LockMode.readerBits
  cases hmode : contents.mode with
  | unoccupied => simp
  | shared readers =>
    have hle := contents.readers_le readers hmode
    rw [maxConcurrentReads_toNat] at hle
    simp
    omega
  | write => simp

theorem mode_of_readers (h : contents.mode = .shared readers) : contents.mode.readerBits = readers := by
  rw [h]
  rfl

theorem occupied_of_readers (h : contents.mode = .shared readers) : contents.mode ≠ .unoccupied := by
  rw [h]
  nofun

theorem lockBits_packs (build : Build) (contents : Contents) :
    ∃ bits, contents.lockBits build = .ok bits ∧
      Header.Packs bits contents.id contents.mode.readerBits
        (if contents.mode = .unoccupied then 0 else 1) := by
  unfold lockBits
  cases hmode : contents.mode with
  | unoccupied => exact ⟨_, rfl, unoccupiedBits_packs contents.id⟩
  | shared readers =>
    exact addReaders_packs build (contents.issued (occupied_of_readers hmode)) readers
      (contents.readers_le readers hmode)
  | write => exact ⟨_, rfl, writeLockedBits_packs contents.id⟩

/-- The helpers build the word with the fields of the contents. -/
theorem bits_packs (build : Build) (contents : Contents) :
    ∃ bits, contents.bits build = .ok bits ∧ contents.Packs bits := by
  obtain ⟨unmarked, hbits, hpacks⟩ := lockBits_packs build contents
  unfold Contents.bits
  rw [hbits]
  show ∃ bits, (if contents.waiting then markThreadBlocking build unmarked else pure unmarked) = _ ∧ _
  cases hwaiting : contents.waiting with
  | true =>
    have hlocked := contents.locked hwaiting
    obtain ⟨bits, hmark, hmarked⟩ := hpacks.markThreadBlocking
      (contents.issued (occupied_of_locked hlocked)) (readerBits_ne_zero hlocked)
    refine ⟨bits, hmark, ?_⟩
    rw [Contents.Packs, notification_of_waiting hwaiting]
    exact hmarked
  | false =>
    refine ⟨unmarked, rfl, ?_⟩
    unfold Contents.Packs notificationBit
    rw [hwaiting]
    simpa using hpacks

theorem packs_of_bits (h : contents.bits build = .ok bits) : contents.Packs bits := by
  obtain ⟨bits', hbits', hpacks⟩ := bits_packs build contents
  rw [h] at hbits'
  cases hbits'
  exact hpacks

/-- A word with the fields of the contents is the one that the helpers build. -/
theorem bits_of_packs (build : Build) (h : contents.Packs bits) : contents.bits build = .ok bits := by
  obtain ⟨bits', hbits', hpacks⟩ := bits_packs build contents
  rw [hbits', hpacks.unique h]

/-- Where `increment_readers` does not panic there is room for a reader. -/
theorem increment_packs (h : contents.Packs bits) (hmode : contents.mode = .shared readers)
    (hbits' : incrementReaders build bits = .ok bits') :
    readers < maxConcurrentReads.toNat ∧
      Header.Packs bits' contents.id (readers + 1) contents.notificationBit := by
  rw [Contents.Packs, mode_of_readers hmode] at h
  have hle := contents.readers_le readers hmode
  have hlt : readers < maxConcurrentReads.toNat := by
    refine lt_of_le_of_ne hle fun heq => ?_
    rw [incrementReaders_full build] at hbits'
    · cases hbits'
    · rw [← UInt32.toNat_inj, h.readersFromBits, heq]
  obtain ⟨bits'', hbits'', hpacks⟩ := h.incrementReaders
    (contents.issued (occupied_of_readers hmode)) hlt
  rw [hbits'] at hbits''
  cases hbits''
  exact ⟨hlt, hpacks⟩

theorem modeFromBits_eq (h : contents.Packs bits) : modeFromBits bits = contents.mode := by
  unfold modeFromBits
  have hocc := h.isOccupied_iff.trans contents.occupied_fields
  have hwrite := h.isWriteLocked_iff.trans contents.readerBits_full
  have hreaders := h.readersFromBits
  cases hmode : contents.mode with
  | unoccupied =>
    rw [if_neg]
    rw [hocc, hmode]
    exact fun h => h rfl
  | shared readers =>
    rw [if_pos (hocc.2 (occupied_of_readers hmode)), if_neg, hreaders, mode_of_readers hmode]
    rw [hwrite, hmode]
    nofun
  | write =>
    rw [if_pos (hocc.2 (by rw [hmode]; nofun)), if_pos (hwrite.2 hmode)]

theorem hasThreadBlocking_eq (build : Build) (h : contents.Packs bits)
    (hmode : contents.mode ≠ .unoccupied) : hasThreadBlocking build bits = .ok contents.waiting := by
  rw [h.hasThreadBlocking (contents.occupied_fields.2 hmode)]
  congr 1
  cases hwaiting : contents.waiting with
  | true => exact decide_eq_true (notification_of_waiting hwaiting)
  | false => rw [notification_of_not_waiting hmode hwaiting]; rfl

/-- Contents with the same word are the same. -/
theorem eq_of_packs (h : contents.Packs bits) (h' : contents'.Packs bits) : contents = contents' := by
  have hmode : contents.mode = contents'.mode := (modeFromBits_eq h).symm.trans (modeFromBits_eq h')
  have hwaiting : contents.waiting = contents'.waiting := by
    by_cases hocc : contents.mode = .unoccupied
    · -- nobody waits at an unoccupied header
      have hnone : ∀ c : Contents, c.mode = .unoccupied → c.waiting = false := by
        intro c hc
        rw [Bool.eq_false_iff]
        intro hw
        exact occupied_of_locked (c.locked hw) hc
      rw [hnone contents hocc, hnone contents' (hmode ▸ hocc)]
    · have heq := hasThreadBlocking_eq .debug h hocc
      rw [hasThreadBlocking_eq .debug h' (hmode ▸ hocc)] at heq
      exact (Except.ok.inj heq).symm
  exact Contents.ext (h.idFromBits.symm.trans h'.idFromBits) hmode hwaiting

/-- One reader more. -/
theorem OneMore.packs (hmore : contents.OneMore contents')
    (h : Header.Packs bits contents.id (contents.mode.readerBits + 1) contents.notificationBit) :
    contents'.Packs bits := by
  obtain ⟨readers, hmode, hmode'⟩ := hmore.readers
  have hnotification : contents'.notificationBit = contents.notificationBit := by
    unfold notificationBit
    rw [hmore.waiting, hmode, hmode']
    simp
  rw [Contents.Packs, hmore.id, mode_of_readers hmode', hnotification]
  rw [mode_of_readers hmode] at h
  exact h

/-- The same lock, with a mark of its own. -/
theorem SameLock.packs (hsame : contents.SameLock contents') {notification : ℕ}
    (hnotification : contents'.notificationBit = notification)
    (h : Header.Packs bits contents.id contents.mode.readerBits notification) : contents'.Packs bits := by
  rw [Contents.Packs, hsame.id, hsame.mode, hnotification]
  exact h

end Contents

/-- Words that agree on the notification bit. -/
theorem Packs.and_mask_eq {id' : UInt32} {readers' : ℕ} (h : Packs bits id readers notification)
    (h' : Packs bits' id' readers' notification) :
    bits &&& threadNotificationMask = bits' &&& threadNotificationMask := by
  rw [← UInt64.toNat_inj, h.and_mask, h'.and_mask]

/-- Words that agree on the other fields. -/
theorem Packs.or_mask_eq {notification' : ℕ} (h : Packs bits id readers notification)
    (h' : Packs bits' id readers notification') :
    bits ||| threadNotificationMask = bits' ||| threadNotificationMask :=
  h.unmarkThreadBlocking.unique h'.unmarkThreadBlocking

theorem unmarkThreadBlocking_and (bits : UInt64) :
    unmarkThreadBlocking bits &&& ~~~threadNotificationMask = bits &&& ~~~threadNotificationMask := by
  rw [← UInt64.toNat_inj, mark_toNat, mark_toNat, unmarkThreadBlocking_toNat]
  omega

open Contents in
/-- Every ID, lock mode and mark has a word of its own, and the helpers keep to the encoding. -/
theorem faithful (build : Build) : Faithful build where
  builds contents := by
    obtain ⟨bits, hbits, -⟩ := bits_packs build contents
    exact ⟨bits, hbits⟩
  different contents contents' heq := by
    obtain ⟨bits, hbits, hpacks⟩ := bits_packs build contents
    exact eq_of_packs hpacks (packs_of_bits (heq ▸ hbits))
  id contents bits hbits := (packs_of_bits hbits).idFromBits
  mode contents bits hbits := modeFromBits_eq (packs_of_bits hbits)
  occupied contents bits hbits := (packs_of_bits hbits).isOccupied_iff.trans contents.occupied_fields
  writeLocked contents bits hbits :=
    (packs_of_bits hbits).isWriteLocked_iff.trans contents.readerBits_full
  readers contents bits readers hbits hmode := by
    rw [(packs_of_bits hbits).readersFromBits, mode_of_readers hmode]
  waiting contents bits hbits hmode := hasThreadBlocking_eq build (packs_of_bits hbits) hmode
  increment_panics contents bits readers fault hbits hmode := by
    have hpacks := packs_of_bits hbits
    have hid := contents.issued (occupied_of_readers hmode)
    have hle := contents.readers_le readers hmode
    have hreaders := mode_of_readers hmode
    constructor
    · intro herror
      by_cases hlt : readers < maxConcurrentReads.toNat
      · obtain ⟨bits', hbits', -⟩ := hpacks.incrementReaders hid (hreaders ▸ hlt)
        rw [hbits'] at herror
        cases herror
      · refine ⟨by omega, ?_⟩
        rw [incrementReaders_full] at herror
        · exact (Except.error.inj herror).symm
        · rw [← UInt32.toNat_inj, hpacks.readersFromBits, hreaders]
          omega
    · rintro ⟨rfl, rfl⟩
      apply incrementReaders_full
      rw [← UInt32.toNat_inj, hpacks.readersFromBits, hreaders]
  increment contents contents' bits hbits hmore := by
    obtain ⟨readers, hmode, hmode'⟩ := hmore.readers
    have hle := contents'.readers_le _ hmode'
    obtain ⟨bits', hbits', hpacks'⟩ := (packs_of_bits hbits).incrementReaders
      (contents.issued (occupied_of_readers hmode)) (by rw [mode_of_readers hmode]; omega)
    rw [hbits', bits_of_packs build (hmore.packs hpacks')]
  increment_keeps contents bits bits' readers hbits hmode hbits' := by
    have hpacks := packs_of_bits hbits
    obtain ⟨hlt, hpacks'⟩ := increment_packs hpacks hmode hbits'
    refine ⟨hpacks'.and_mask_eq hpacks, hpacks'.idFromBits.trans hpacks.idFromBits.symm, ?_⟩
    rw [Bool.eq_false_iff, Ne, hpacks'.isWriteLocked_iff]
    rw [maxConcurrentReads_toNat] at hlt
    omega
  decrement contents bits bits' readers hbits hmode hbits' := by
    have hpacks := packs_of_bits hbits
    obtain ⟨-, hpacks'⟩ := increment_packs hpacks hmode hbits'
    obtain ⟨bits'', hbits'', hpacks''⟩ := hpacks'.decrementReaders
    rw [hbits'']
    rw [Contents.Packs, mode_of_readers hmode] at hpacks
    rw [hpacks''.unique hpacks]
  decrement_keeps contents bits readers hbits hmode := by
    have hpacks := packs_of_bits hbits
    rw [Contents.Packs, mode_of_readers hmode] at hpacks
    obtain ⟨bits', hbits', hpacks'⟩ := hpacks.decrementReaders
    exact ⟨bits', hbits', hpacks'.and_mask_eq hpacks, hpacks'.idFromBits.trans hpacks.idFromBits.symm,
      hpacks'.readersFromBits⟩
  mark contents contents' bits hbits hlocked hsame hwaiting := by
    obtain ⟨bits', hbits', hpacks'⟩ := (packs_of_bits hbits).markThreadBlocking
      (contents.issued (occupied_of_locked hlocked)) (readerBits_ne_zero hlocked)
    rw [hbits', bits_of_packs build (hsame.packs (notification_of_waiting hwaiting) hpacks')]
  mark_keeps contents bits hbits hlocked := by
    have hpacks := packs_of_bits hbits
    obtain ⟨bits', hbits', hpacks'⟩ := hpacks.markThreadBlocking
      (contents.issued (occupied_of_locked hlocked)) (readerBits_ne_zero hlocked)
    exact ⟨bits', hbits', hpacks'.or_mask_eq hpacks⟩
  unmark contents contents' bits hbits hlocked hsame hwaiting := by
    have hmode : contents'.mode ≠ .unoccupied := by
      rw [hsame.mode]
      exact occupied_of_locked hlocked
    have hpacks := (packs_of_bits hbits).unmarkThreadBlocking
    rw [bits_of_packs build (hsame.packs (notification_of_not_waiting hmode hwaiting) hpacks)]
  unmark_keeps := unmarkThreadBlocking_and
  last_leaves contents bits hbits hmode hwaiting := by
    have hpacks := packs_of_bits hbits
    rw [Contents.Packs, mode_of_readers hmode] at hpacks
    obtain ⟨bits', hbits', hpacks'⟩ := hpacks.decrementReaders
    rw [hbits']
    show Except.ok (unmarkThreadBlocking bits') = _
    rw [hpacks'.unmarkThreadBlocking.unique (occupiedUnlockedBits_packs contents.id)]

end ReadWriteStore.Header

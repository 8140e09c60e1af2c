import ReadWriteStore.Header.Exclusive
import ReadWriteStore.Header.Proofs.ServeProofs

/-!
# What a call means for the element

For the code that calls a header: the one step of a call that brings or takes an element, and that every
other step leaves the occupancy and the ID of the header as they are.
-/

namespace ReadWriteStore.Header

variable {T : Type} [DecidableEq T] {s s' : State T} {t : T} {c : Call}

theorem view_mode_iff (word : UInt64) : (view word).mode = .unoccupied ↔ isOccupied word = false := by
  cases hocc : isOccupied word with
  | false => exact ⟨fun _ => rfl, fun _ => by rw [view_unoccupied hocc]⟩
  | true =>
    refine ⟨fun h => ?_, fun h => by cases h⟩
    simp only [view, hocc, if_true] at h
    split at h
    · cases h
    · split at h <;> cases h

/-- What an operation of the atomic lock means for its element. -/
theorem RwLock.apply_cases {lock lock' : RwLock} {op : RwOp} (h : lock.apply op = some lock') :
    (op = .occupy ∧ lock.mode = .unoccupied ∧ lock'.mode ≠ .unoccupied ∧ lock'.id = lock.id) ∨
      (∃ id, (op = .remove id ∨ op = .removeLocked id) ∧ lock.id = id ∧ lock.mode ≠ .unoccupied ∧
        lock' = ⟨id + 1, .unoccupied⟩) ∨
      (op ≠ .occupy ∧ (∀ id, op ≠ .remove id ∧ op ≠ .removeLocked id) ∧ lock.mode ≠ .unoccupied ∧
        lock'.mode ≠ .unoccupied ∧ lock'.id = lock.id) := by
  obtain ⟨id, mode⟩ := lock
  cases op with
  | lockRead id' =>
    simp only [RwLock.apply] at h
    split at h
    · rename_i hid
      right
      right
      cases mode <;> cases h <;> simp [hid]
    · cases h
  | unlockRead id' =>
    simp only [RwLock.apply] at h
    split at h
    · rename_i hid
      right
      right
      split at h <;> cases h <;> simp [hid]
    · cases h
  | lockWrite id' =>
    simp only [RwLock.apply] at h
    split at h
    · rename_i he
      cases he
      cases h
      simp
    · cases h
  | unlockWrite id' =>
    simp only [RwLock.apply] at h
    split at h
    · rename_i he
      cases he
      cases h
      simp
    · cases h
  | remove id' =>
    simp only [RwLock.apply] at h
    split at h
    · rename_i he
      cases he
      cases h
      simp
    · cases h
  | removeLocked id' =>
    simp only [RwLock.apply] at h
    split at h
    · rename_i he
      cases he
      cases h
      simp
    · cases h
  | occupy =>
    simp only [RwLock.apply] at h
    split at h
    · rename_i he
      cases h
      simp [he]
    · cases h

/-- The calls that bring or take an element. -/
def Call.moves : Call → Bool
  | .occupy | .remove _ _ | .removeLocked _ => true
  | _ => false

/-- What a step inside a call means for the element of the header. -/
inductive Occupancy (s s' : State T) (t : T) (c : Call) : Prop
  | same (hocc : isOccupied s'.word = isOccupied s.word) (hid : currentId s'.word = currentId s.word)
      (hdone : c.moves = true → (s'.control t).done = (s.control t).done)
  | occupied (hc : c = .occupy) (hbefore : (s.control t).done = false)
      (hafter : (s'.control t).done = true) (hocc' : isOccupied s'.word = true)
      (hid : currentId s'.word = currentId s.word)
  | emptied {id : UInt32} (hc : (∃ timeout, c = .remove id timeout) ∨ c = .removeLocked id)
      (hbefore : (s.control t).done = false) (hafter : (s'.control t).done = true)
      (hocc : isOccupied s.word = true) (hocc' : isOccupied s'.word = false)
      (hid : currentId s.word = id) (hid' : currentId s'.word = id + 1)

theorem isOccupied_congr {word word' : UInt64} (h : view word' = view word) :
    isOccupied word' = isOccupied word ∧ currentId word' = currentId word := by
  have hmode := view_mode_iff word
  have hmode' := view_mode_iff word'
  rw [h, hmode] at hmode'
  constructor
  · cases ho : isOccupied word with
    | false => exact hmode'.1 ho
    | true =>
      rw [ho] at hmode'
      cases ho' : isOccupied word' with
      | false => exact absurd (hmode'.2 ho') nofun
      | true => rfl
  · exact congrArg RwLock.id h

theorem isOccupied_of_mode {word : UInt64} (h : (view word).mode ≠ .unoccupied) : isOccupied word = true := by
  by_contra hn
  exact h ((view_mode_iff word).2 (by simpa using hn))

theorem Served.occupancy (h : Served s s' t c) : Occupancy s s' t c := by
  cases h with
  | stays hdone hview hlocks hissued =>
    obtain ⟨hocc, hid⟩ := isOccupied_congr hview
    exact .same hocc hid fun _ => hdone
  | takes hbefore hafter happly hlocks hissued hoccupy =>
    rcases RwLock.apply_cases happly with ⟨hop, hmode, hmode', hid⟩ | ⟨id, hop, hid, hmode, hlock⟩ |
      ⟨hop, hother, hmode, hmode', hid⟩
    · have hc : c = .occupy := by cases c <;> first | rfl | cases hop
      exact .occupied hc hbefore hafter (isOccupied_of_mode hmode') hid
    · have hc : (∃ timeout, c = .remove id timeout) ∨ c = .removeLocked id := by
        rcases hop with hop | hop
        · cases c with
          | remove id' timeout => cases hop; exact Or.inl ⟨timeout, rfl⟩
          | _ => cases hop
        · cases c with
          | removeLocked id' => cases hop; exact Or.inr rfl
          | _ => cases hop
      refine .emptied hc hbefore hafter (isOccupied_of_mode hmode) ?_ hid (congrArg RwLock.id hlock)
      rw [← view_mode_iff, hlock]
    · refine .same ?_ hid fun hmoves => ?_
      · rw [isOccupied_of_mode hmode, isOccupied_of_mode hmode']
      · -- a call that brings or takes an element takes effect in one of the other ways
        cases c with
        | occupy => exact absurd rfl hop
        | remove id timeout => exact absurd rfl (hother id).1
        | removeLocked id => exact absurd rfl (hother id).2
        | _ => cases hmoves

end ReadWriteStore.Header

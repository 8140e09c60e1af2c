import ReadWriteStore.Store.Proofs.FillProofs
import ReadWriteStore.Store.Proofs.RefinementProofs

/-!
# Every slot has one owner

What the states of the slots say about the calls of `occupy` and about the cells that `insert` writes.
A counter that has wrapped around hands out slots that hold elements.
-/

namespace ReadWriteStore.Store

open Header (reservedId isOccupied currentId)

variable {T E : Type} {s : State T E}

section Classified

variable {class_ : SlotAddress → Ownership.Class T}

/-- A reserved slot has no element, and an ordinal left. -/
theorem reserved_unoccupied (h : s.ownership.Classified class_) {t : T} {address : SlotAddress}
    (hres : s.reserves t = some address) :
    isOccupied (s.header address).word = false ∧ currentId (s.header address).word ≠ reservedId := by
  have hclass : class_ address = .reserved t := (h.reserved address t).2 hres
  refine ⟨?_, h.reusable address (Or.inr (Or.inl ⟨t, hclass⟩))⟩
  rw [Bool.eq_false_iff]
  intro hocc
  have hoccupied := (h.occupied address).2 hocc
  rw [hclass] at hoccupied
  cases hoccupied

/-- Nobody is emptying a reserved slot. -/
theorem reserved_not_emptied (h : s.ownership.Classified class_) {t u : T} {address : SlotAddress} {id : Id}
    (hres : s.reserves t = some address) (hemp : s.empties u = some id) : id.slotAddress ≠ address := by
  intro he
  have hclass : class_ address = .reserved t := (h.reserved address t).2 hres
  have hemptied := (h.emptied address u).2 ⟨id, hemp, he⟩
  rw [hclass] at hemptied
  cases hemptied

theorem not_reserves (hidle : ∀ t, s.control t = .idle) (t : T) : s.reserves t = none := by
  unfold State.reserves
  rw [hidle t]

theorem not_empties (hidle : ∀ t, s.control t = .idle) (t : T) : s.empties t = none := by
  unfold State.empties
  rw [hidle t]

/-- Between two calls the slots handed out are occupied, queued or retired. -/
theorem handedOut_iff (h : s.ownership.Classified class_) (hidle : ∀ t, s.control t = .idle)
    (address : SlotAddress) : (s.bucket address.bucket).inner.HandedOut address.location ↔
      isOccupied (s.header address).word = true ∨ address ∈ s.erasures ∨
        (isOccupied (s.header address).word = false ∧ address ∉ s.erasures ∧
          currentId (s.header address).word = reservedId) := by
  have hissued : class_ address ≠ .unissued ↔
      (s.bucket address.bucket).inner.HandedOut address.location := by
    rw [Ne, h.unissued]
    exact not_not
  rw [← hissued]
  have hocc : class_ address = .occupied ↔ isOccupied (s.header address).word = true := h.occupied address
  have hqueued : class_ address = .queued ↔ address ∈ s.erasures := h.queued address
  constructor
  · intro hne
    cases hclass : class_ address with
    | unissued => exact absurd hclass hne
    | reserved t =>
      have hres : s.reserves t = some address := (h.reserved address t).1 hclass
      rw [not_reserves hidle] at hres
      cases hres
    | occupied => exact Or.inl (hocc.1 hclass)
    | emptied t =>
      obtain ⟨id, hemp, -⟩ := (h.emptied address t).1 hclass
      have hnone : s.empties t = none := not_empties hidle t
      rw [show s.empties t = some id from hemp] at hnone
      cases hnone
    | queued => exact Or.inr (Or.inl (hqueued.1 hclass))
    | retired =>
      refine Or.inr (Or.inr ⟨?_, ?_, h.retired address hclass⟩)
      · rw [Bool.eq_false_iff]
        intro ho
        rw [hocc.2 ho] at hclass
        cases hclass
      · intro hq
        rw [hqueued.2 hq] at hclass
        cases hclass
  · rintro (ho | hq | ⟨-, -, hord⟩) hnew
    · rw [hocc.2 ho] at hnew
      cases hnew
    · rw [hqueued.2 hq] at hnew
      cases hnew
    · exact h.reusable address (Or.inl hnew) hord

end Classified

variable [DecidableEq T]

theorem State.Sound.owned {build : Build} (h : s.Sound build) : s.Owned := by
  obtain ⟨class_, hclass⟩ := h.classified
  refine ⟨⟨class_, hclass⟩, fun t address hres => reserved_unoccupied hclass hres, ?_,
    handedOut_iff hclass⟩
  intro t element address hc
  have hres : s.reserves t = some address := by
    unfold State.reserves
    rw [hc]
  exact ⟨(reserved_unoccupied hclass hres).1, fun u id hemp => reserved_not_emptied hclass hres hemp⟩

/-- While no counter wraps around, every slot has one owner at every moment. -/
theorem one_owner (build : Build) (T E : Type) [Fintype T] [DecidableEq T] (s : State T E)
    (h : ((machine build T E).restrict State.NoWrap).Reachable s) : s.Owned :=
  (sound_of_reachable h).owned

/-- The thread inserts an element, and is about to write the next one. -/
def insertAnother : List (Event (Fin 1) Bool) :=
  wholeCall 0 (.insert true) 13 ++ beginCall 0 (.insert false) 10

theorem one_owner_of_each : ∃ s : State (Fin 1) Bool, s.issued.length = 1 ∧ (s.reserves 0).isSome = true ∧
    s.Owned := by
  obtain ⟨s, hr, hp⟩ := exists_reachable_noWrap .debug 0 (fun _ => 0) insertAnother
    (fun s => decide (s.issued.length = 1 ∧ (s.reserves 0).isSome = true)) (by decide +kernel)
  obtain ⟨hissued, hres⟩ := of_decide_eq_true hp
  exact ⟨s, hissued, hres, one_owner .debug (Fin 1) Bool s hr⟩

/-- An insert is about to write over an element of the store. -/
theorem two_owners : ∃ s : State (Fin 1) Unit, (machine .debug (Fin 1) Unit).Reachable s ∧ ¬s.Owned := by
  obtain ⟨s, address, hr, hc, hslot, -⟩ := exists_overwriting () ()
  refine ⟨s, hr, fun howned => ?_⟩
  have hfree := (howned.places 0 () address hc).1
  unfold State.header at hfree
  rw [hslot] at hfree
  cases hfree

end ReadWriteStore.Store

import ReadWriteStore.Store.Ownership

/-!
# Every slot is in exactly one state

The abstract model keeps a state for each slot. Since a step moves one slot from one state to another,
the invariant is a case analysis over six steps.
-/

namespace ReadWriteStore.Store.Ownership

open Header (reservedId)

variable {T : Type} {o o' : Ownership T} {t : T} {class_ : SlotAddress → Class T}

theorem Classified.init : (init : Ownership T).Classified fun _ => .unissued where
  unissued _ := ⟨fun _ h => h, fun _ => rfl⟩
  reserved _ _ := ⟨fun h => (by cases h), fun h => (by cases h)⟩
  occupied _ := ⟨fun h => (by cases h), fun h => (by cases h)⟩
  emptied _ _ := ⟨fun h => (by cases h), fun ⟨_, h, _⟩ => (by cases h)⟩
  queued _ := ⟨fun h => (by cases h), fun h => (by cases h)⟩
  nodup := List.nodup_nil
  retired _ h := by cases h
  reusable _ _ := by
    show (0 : UInt32) ≠ reservedId
    decide
  emptying _ _ h := by cases h

namespace Classified

variable [DecidableEq T]

/-- A thread has drawn a slot from a bucket. -/
theorem draw (h : o.Classified class_) {address : SlotAddress} (hnew : ¬o.issued address)
    (hnone : o.reserves t = none) :
    Classified { o with
      issued := fun other => o.issued other ∨ other = address
      reserves := Function.update o.reserves t (some address) }
      (Function.update class_ address (.reserved t)) := by
  obtain ⟨hunissued, hreserved, hoccupied, hemptied, hqueued, hnodup, hretired, hreusable, hemptying⟩ := h
  have hclass : class_ address = .unissued := (hunissued address).2 hnew
  constructor
  · intro other
    grind
  · intro other u
    grind
  · intro other
    grind
  · intro other u
    grind
  · intro other
    grind
  · exact hnodup
  · intro other
    grind
  · intro other
    grind
  · exact hemptying

/-- A thread has taken a slot from the queue. -/
theorem reuse (h : o.Classified class_) {address : SlotAddress} {rest : List SlotAddress}
    (hq : o.erasures = address :: rest) (hnone : o.reserves t = none) :
    Classified { o with
      erasures := rest
      reserves := Function.update o.reserves t (some address) }
      (Function.update class_ address (.reserved t)) := by
  obtain ⟨hunissued, hreserved, hoccupied, hemptied, hqueued, hnodup, hretired, hreusable, hemptying⟩ := h
  have hclass : class_ address = .queued := (hqueued address).2 (by rw [hq]; exact List.mem_cons_self)
  rw [hq] at hnodup hqueued
  obtain ⟨hnot, hrest⟩ := List.nodup_cons.1 hnodup
  constructor
  · intro other
    grind
  · intro other u
    grind
  · intro other
    grind
  · intro other u
    grind
  · intro other
    grind
  · exact hrest
  · intro other
    grind
  · intro other
    grind
  · intro u other
    grind

/-- The element of a thread occupies its slot. -/
theorem occupy (h : o.Classified class_) {address : SlotAddress} (hres : o.reserves t = some address) :
    Classified { o with
      occupied := Function.update o.occupied address true
      reserves := Function.update o.reserves t none }
      (Function.update class_ address .occupied) := by
  obtain ⟨hunissued, hreserved, hoccupied, hemptied, hqueued, hnodup, hretired, hreusable, hemptying⟩ := h
  have hclass : class_ address = .reserved t := (hreserved address t).2 hres
  constructor
  · intro other
    grind
  · intro other u
    grind
  · intro other
    grind
  · intro other u
    grind
  · intro other
    grind
  · grind
  · intro other
    grind
  · intro other
    grind
  · intro u other
    grind

/-- A removal has taken effect. -/
theorem vacate (h : o.Classified class_) {id : Id} (hocc : o.occupied id.slotAddress = true)
    (hnone : o.empties t = none) :
    Classified { o with
      occupied := Function.update o.occupied id.slotAddress false
      ordinal := Function.update o.ordinal id.slotAddress (id.ordinal + 1)
      empties := Function.update o.empties t (some id) }
      (Function.update class_ id.slotAddress (.emptied t)) := by
  obtain ⟨hunissued, hreserved, hoccupied, hemptied, hqueued, hnodup, hretired, hreusable, hemptying⟩ := h
  have hclass : class_ id.slotAddress = .occupied := (hoccupied id.slotAddress).2 hocc
  have hfree : ∀ u other, o.empties u = some other → other.slotAddress ≠ id.slotAddress := by
    intro u other hother he
    have hemptiedClass := (hemptied id.slotAddress u).2 ⟨other, hother, he⟩
    rw [hclass] at hemptiedClass
    cases hemptiedClass
  constructor
  · intro other
    grind
  · intro other u
    grind
  · intro other
    grind
  · intro other u
    grind
  · intro other
    grind
  · grind
  · intro other
    grind
  · intro other
    grind
  · intro u other
    grind

/-- The slot of an element that has been moved out can be used again. -/
theorem push (h : o.Classified class_) {id : Id} (hemp : o.empties t = some id)
    (hne : id.ordinal + 1 ≠ reservedId) :
    Classified { o with
      erasures := o.erasures ++ [id.slotAddress]
      empties := Function.update o.empties t none }
      (Function.update class_ id.slotAddress .queued) := by
  obtain ⟨hunissued, hreserved, hoccupied, hemptied, hqueued, hnodup, hretired, hreusable, hemptying⟩ := h
  have hclass : class_ id.slotAddress = .emptied t := (hemptied id.slotAddress t).2 ⟨id, hemp, rfl⟩
  have hnot : id.slotAddress ∉ o.erasures := by grind
  have hord := hemptying t id hemp
  constructor
  · intro other
    grind
  · intro other u
    grind
  · intro other
    grind
  · intro other u
    grind
  · intro other
    grind
  · grind
  · intro other
    grind
  · intro other
    grind
  · intro u other
    grind

/-- The slot of an element that has been moved out has no ordinal left. -/
theorem retire (h : o.Classified class_) {id : Id} (hemp : o.empties t = some id)
    (heq : id.ordinal + 1 = reservedId) :
    Classified { o with
      empties := Function.update o.empties t none }
      (Function.update class_ id.slotAddress .retired) := by
  obtain ⟨hunissued, hreserved, hoccupied, hemptied, hqueued, hnodup, hretired, hreusable, hemptying⟩ := h
  have hclass : class_ id.slotAddress = .emptied t := (hemptied id.slotAddress t).2 ⟨id, hemp, rfl⟩
  have hord := hemptying t id hemp
  constructor
  · intro other
    grind
  · intro other u
    grind
  · intro other
    grind
  · intro other u
    grind
  · intro other
    grind
  · grind
  · intro other
    grind
  · intro other
    grind
  · intro u other
    grind

theorem step (h : o.Classified class_) (hs : o.Step t o') : ∃ class', o'.Classified class' := by
  cases hs with
  | draw hnew hnone => exact ⟨_, h.draw hnew hnone⟩
  | reuse hq hnone => exact ⟨_, h.reuse hq hnone⟩
  | occupy hres => exact ⟨_, h.occupy hres⟩
  | vacate hocc hord hnone => exact ⟨_, h.vacate hocc hnone⟩
  | push hemp hne => exact ⟨_, h.push hemp hne⟩
  | retire hemp heq => exact ⟨_, h.retire hemp heq⟩

end Classified

end ReadWriteStore.Store.Ownership

import ReadWriteStore.Header.Proofs.WordProofs
import ReadWriteStore.Store.Storage

/-!
# The two forms of slot storage

Whatever is done with a slot, an occupied one holds the element last inserted or written at the address
that its type gives it, which is the address of every reference to it. The cast in `Slot::drop` finds
it there if the payload of the `Option` is at the start, or there is no `Option`.
-/

namespace ReadWriteStore.Store

open Header

namespace Cell

variable {E : Type} {build : Build} {payloadOffset cell : ℕ} {s s' : Cell E}

/-- An occupied slot holds the element last inserted or written. -/
def Holds (build : Build) (payloadOffset cell : ℕ) (s : Cell E) : Prop :=
  isOccupied s.word = true →
    s.isSome = true ∧ ∃ element, s.latest = some element ∧
      s.memory (valueAddress build payloadOffset cell) = some element

theorem isOccupied_unoccupiedBits (id : UInt32) : isOccupied (unoccupiedBits id) = false := by
  have hlt := id.toNat_lt
  rw [Bool.eq_false_iff, ne_eq, isOccupied_iff, unoccupiedBits_toNat]
  omega

theorem holds_new : (new : Cell E).Holds build payloadOffset cell := by
  intro h
  have hfree : isOccupied (new : Cell E).word = false := isOccupied_unoccupiedBits 0
  rw [hfree] at h
  cases h

/-- `contents_ptr` hands out the address of the element. -/
theorem contentsAddress_eq {address : ℕ} (h : s.contentsAddress build payloadOffset cell = .ok address) :
    address = valueAddress build payloadOffset cell := by
  cases build with
  | debug =>
    unfold contentsAddress at h
    dsimp only at h
    split at h
    · cases h
      rfl
    · cases h
  | release => cases h; rfl

theorem Holds.use (h : s.Holds build payloadOffset cell) {replacement : Option E}
    (hs : s.use build payloadOffset cell replacement = .ok s') : s'.Holds build payloadOffset cell := by
  obtain ⟨address, haddress, hs⟩ := Checked.bind_eq_ok hs
  cases replacement with
  | none => cases hs; exact h
  | some element =>
    cases hs
    rw [contentsAddress_eq haddress]
    intro hocc
    exact ⟨(h hocc).1, element, rfl, Function.update_self ..⟩

theorem reset_unoccupied {word word' : UInt64} {id : Option UInt32}
    (h : reset build word = .ok (word', id)) : isOccupied word' = false := by
  obtain ⟨-, -, h⟩ := Checked.bind_eq_ok h
  split at h
  · obtain ⟨blocking, -, h⟩ := Checked.bind_eq_ok h
    obtain ⟨-, -, h⟩ := Checked.bind_eq_ok h
    cases h
    exact isOccupied_unoccupiedBits _
  · rename_i hocc
    cases h
    exact Bool.eq_false_iff.2 hocc

theorem Holds.apply (h : s.Holds build payloadOffset cell) {op : CellOp E}
    (hs : s.apply build payloadOffset cell op = .ok s') : s'.Holds build payloadOffset cell := by
  cases op with
  | insert element =>
    obtain ⟨control, -, hs⟩ := Checked.bind_eq_ok hs
    cases hs
    intro _
    exact ⟨rfl, element, rfl, Function.update_self ..⟩
  | access route replacement =>
    cases route with
    | unchecked => exact h.use hs
    | exclusive ordinal =>
      simp only [Cell.apply] at hs
      split at hs
      · exact h.use hs
      · cases hs
        exact h
    | slotContents =>
      simp only [Cell.apply] at hs
      split at hs
      · exact h.use hs
      · cases hs
        exact h
  | remove ordinal =>
    simp only [Cell.apply] at hs
    split at hs
    · obtain ⟨element, -, hs⟩ := Checked.bind_eq_ok hs
      obtain ⟨next, -, hs⟩ := Checked.bind_eq_ok hs
      cases hs
      intro hocc
      rw [isOccupied_unoccupiedBits] at hocc
      cases hocc
    · cases hs
      exact h
  | take =>
    obtain ⟨⟨word, id⟩, hreset, hs⟩ := Checked.bind_eq_ok hs
    have hfree := reset_unoccupied hreset
    have hnot : isOccupied s'.word = false := by
      cases id with
      | none => cases hs; exact hfree
      | some id =>
        obtain ⟨element, -, hs⟩ := Checked.bind_eq_ok hs
        cases hs
        exact hfree
    intro hocc
    rw [hnot] at hocc
    cases hocc

theorem Holds.run {ops : List (CellOp E)} : ∀ {s : Cell E}, s.Holds build payloadOffset cell →
    Cell.run build payloadOffset cell ops s = .ok s' → s'.Holds build payloadOffset cell := by
  induction ops with
  | nil =>
    intro s h hs
    cases hs
    exact h
  | cons op ops ih =>
    intro s h hs
    obtain ⟨s₁, h₁, hs⟩ := Checked.bind_eq_ok hs
    exact ih (h.apply h₁) hs

/-- The cast of `Slot::drop` finds the element where its type keeps it. -/
theorem dropAddress_eq (h : build = .release ∨ payloadOffset = 0) :
    dropAddress cell = valueAddress build payloadOffset cell := by
  rcases h with rfl | rfl
  · rfl
  · cases build <;> rfl

/-- After any operations on a slot, the drop of the slot destroys the element last inserted or written,
at the address of the references to it, exactly if the slot is empty, the build is the release build,
or `Option<Element>` has its payload at the start. -/
theorem drops_the_element (build : Build) (payloadOffset cell : ℕ) (E : Type) (ops : List (CellOp E))
    (s : Cell E) (h : Cell.run build payloadOffset cell ops .new = .ok s) :
    s.DropsTheElement build payloadOffset cell ↔
      isOccupied s.word = false ∨ build = .release ∨ payloadOffset = 0 := by
  have hholds : s.Holds build payloadOffset cell := Holds.run holds_new h
  constructor
  · intro hdrops
    by_contra hn
    push Not at hn
    obtain ⟨hocc, hbuild, hoffset⟩ := hn
    obtain ⟨haddress, -⟩ := hdrops (by simpa using hocc)
    have heq := contentsAddress_eq haddress
    cases build with
    | debug =>
      have heq' : cell = cell + payloadOffset := heq
      omega
    | release => exact hbuild rfl
  · intro hcond hocc
    have hwhere : build = .release ∨ payloadOffset = 0 := by
      rcases hcond with hfree | hcond
      · rw [hocc] at hfree
        cases hfree
      · exact hcond
    obtain ⟨hsome, element, hlatest, hmem⟩ := hholds hocc
    have heq : dropAddress cell = valueAddress build payloadOffset cell := dropAddress_eq hwhere
    refine ⟨?_, element, hlatest, ?_, ?_⟩
    · rw [heq]
      unfold contentsAddress valueAddress
      cases build <;> simp [hsome]
    · rw [heq]
      exact hmem
    · unfold Cell.drop needsDrop
      rw [if_pos hocc, heq, hmem]

/-- In the release build an element is inserted, replaced, removed and inserted again. -/
theorem drops_the_element_release :
    ∃ s : Cell ℕ, Cell.run .release 8 4096
        [.insert 1, .access (.exclusive 0) (some 2), .remove 0, .insert 3] .new = .ok s ∧
      isOccupied s.word = true ∧
      (s.DropsTheElement .release 8 4096 ↔
        isOccupied s.word = false ∨ Build.release = .release ∨ 8 = 0) :=
  ⟨_, rfl, by decide, drops_the_element .release 8 4096 ℕ
    [.insert 1, .access (.exclusive 0) (some 2), .remove 0, .insert 3] _ rfl⟩

/-- In the debug build `Slot::drop` looks for an inserted element in front of its payload. -/
theorem drop_misses_the_element :
    ¬∀ (build : Build) (payloadOffset cell : ℕ) (ops : List (CellOp ℕ)) (s : Cell ℕ),
      Cell.run build payloadOffset cell ops .new = .ok s →
        s.DropsTheElement build payloadOffset cell := by
  intro h
  obtain ⟨haddress, -⟩ := h .debug 8 4096 [.insert 1] _ rfl (by decide)
  cases haddress

end Cell

/-- On a slot that holds an element, the model of `drop_in_place` on an `Option` fails exactly where the
two addresses differ. -/
theorem dropInPlace_ok_iff (build : Build) (payloadOffset cell : ℕ) {E : Type} (element : E) :
    dropInPlace build payloadOffset (some element) = .ok element ↔
      dropAddress cell = valueAddress build payloadOffset cell := by
  unfold dropInPlace dropAddress valueAddress
  cases build with
  | debug =>
    by_cases hz : payloadOffset = 0
    · simp [hz]
    · simp [hz]
  | release => simp

end ReadWriteStore.Store

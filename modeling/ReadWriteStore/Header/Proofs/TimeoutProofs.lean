import ReadWriteStore.Header.Proofs.JustifyProofs

/-!
# A call that times out has no lasting effect

A call that gives up has changed nothing but the waiting mark of a locked header, and whoever unlocks
the header sets the notification bit again: a present element that nobody has locked carries the very
word that `lock_write` and `remove` expect.
-/

namespace ReadWriteStore.Header

open Transition

variable {T : Type} [Fintype T] [DecidableEq T] {build : Build} {s s' : State T}

/-- A step that leaves the atomic lock as it was changes at most the waiting mark. -/
theorem State.Inv.unmoved (h : s.Inv) {e : Event T} (ha : Allowed s e) (hm : Move build s e s')
    (hview : view s'.word = view s.word) : Unmoved s.word s'.word := by
  rcases hm.word_eq with hsame | ⟨t, spurious, point, op, rfl, hc, hop, rfl⟩
  · exact Or.inl hsame
  · have hch : Change build s t point (s.exec build t point op spurious) :=
      h.exec_change hc hop (by rintro rfl; exact ha hc)
    rcases hch.unmoved_or h with hunmoved | ⟨op', -, happly⟩
    · exact hunmoved
    · rw [hview] at happly
      exact absurd happly (RwLock.apply_ne _ _)

omit [DecidableEq T] in
/-- A header with an issued ID and no readers carries the word that `transition` expects. -/
theorem State.Inv.eq_unlocked (h : s.Inv) {id : UInt32} (hid : id ∈ s.issued)
    (hcur : idFromBits s.word = id) (hr : readersFromBits s.word = 0) :
    s.word = occupiedUnlockedBits id := by
  subst hcur
  exact h.ledger.eq_unlocked hid hr

omit [DecidableEq T] in
/-- A present element that nobody has locked. -/
theorem State.Inv.eq_of_no_locks (h : s.Inv) (hocc : isOccupied s.word = true)
    (hnone : ∀ t, s.locks t = []) : s.word = occupiedUnlockedBits (idFromBits s.word) := by
  have hheld : ∀ kind, s.held kind = 0 := by
    intro kind
    unfold State.held
    rw [tally_eq_zero]
    intro t
    rw [hnone t]
    rfl
  refine h.eq_unlocked (h.ledger.occupied.1 ((isOccupied_iff _).1 hocc)) rfl ?_
  rw [← UInt32.toNat_inj, readersFromBits_toNat, h.ledger.field, if_pos (hheld _), hheld]
  rfl

/-! ## The theorem -/

/-- The steps `i ≤ m < j` of a run are those of a call of `t` that timed out. -/
structure NoLastingEffect (n : ℕ) (state : ℕ → State T) (event : ℕ → Event T) (t : T) (i j : ℕ) :
    Prop where
  /-- The call clears the notification bit of a locked header, or leaves the word alone. -/
  own : ∀ m, i ≤ m → m < j → (event m).thread = t →
    Unmoved (state m).word (state (m + 1)).word
  /-- Occupancy, ID, readers and write state change in the steps of other threads only. -/
  view_eq : ∀ m, i ≤ m → m < j → (event m).thread = t →
    view (state (m + 1)).word = view (state m).word
  /-- An element that is present and not locked has the word of `occupied_unlocked_bits`. -/
  restored : ∀ m ≤ n, isOccupied (state m).word = true → (∀ u, (state m).locks u = []) →
    (state m).word = occupiedUnlockedBits (idFromBits (state m).word)
  /-- A step that unlocks a header and leaves it occupied leaves it with that word. -/
  unlocked : ∀ m < n, readersFromBits (state m).word ≠ 0 → isOccupied (state (m + 1)).word = true →
    readersFromBits (state (m + 1)).word = 0 →
    (state (m + 1)).word = occupiedUnlockedBits (idFromBits (state (m + 1)).word)
  /-- A writer or remover that meets its ID on an unlocked header meets the word it expects. -/
  accepted : ∀ m ≤ n, ∀ u point, (state m).control u = .running point →
    ∀ expected new caller, (∃ timeout, point = .transitionExchange expected new timeout caller) ∨
      (∃ deadline, point = .closure (.transition expected new caller) deadline) →
    idFromBits (state m).word = caller.id → readersFromBits (state m).word = 0 →
    (state m).word = expected

/-- A call that times out leaves the lock as if it had not been made: its own steps change the waiting mark
only. -/
theorem timed_out (build : Build) (T : Type) [Fintype T] [DecidableEq T] (n : ℕ) (state : ℕ → State T)
    (event : ℕ → Event T) (hrun : (machine build T).Run n state event) (t : T) (attempt : Attempt)
    (id : UInt32) (timeout : Timeout) (i j : ℕ) (hj : j ≤ n)
    (h : Answers state event t (attempt.call id timeout) i j (attempt.answer id (.error .timedOut))) :
    NoLastingEffect n state event t i j := by
  have hinv : ∀ m ≤ n, (state m).Inv := fun m hm => reachable_inv (hrun.reachable m hm)
  have hmove : ∀ m < n, Allowed (state m) (event m) ∧ Move build (state m) (event m) (state (m + 1)) :=
    fun m hm => ⟨(hrun.step m hm).1, Move.of_step (hrun.step m hm).2⟩
  -- a call that times out has never taken its operation
  have hview : ∀ m, i ≤ m → m < j → (event m).thread = t →
      view (state (m + 1)).word = view (state m).word := by
    intro m him hmj hthread
    obtain ⟨won, hhist, hstand⟩ := run_standing hrun h.call h.lt hj h.within
    rw [h.returned] at hstand
    have hwon : won = false := by
      rcases hstand with ⟨-, he⟩ | ⟨rfl, -⟩ | ⟨rfl, -⟩
      · cases Attempt.answer_inj he
      · rfl
      · rfl
    by_cases hmi : m = i
    · have hm := (hmove m (by omega)).2
      rw [hmi, h.call] at hm
      rw [hmi]
      rcases hm.word_eq with hsame | ⟨_, _, _, _, he, -⟩
      · rw [hsame]
      · cases he
    · refine hhist.others m (by omega) hmj hthread fun htake => ?_
      have := hhist.taken.2 ⟨m, by omega, hmj, htake⟩
      rw [hwon] at this
      cases this
  have hunlocked : ∀ m ≤ n, isOccupied (state m).word = true → readersFromBits (state m).word = 0 →
      (state m).word = occupiedUnlockedBits (idFromBits (state m).word) := fun m hm hocc hr =>
    (hinv m hm).eq_unlocked ((hinv m hm).ledger.occupied.1 ((isOccupied_iff _).1 hocc)) rfl hr
  refine ⟨fun m him hmj hthread => ?_, hview, fun m hm => (hinv m hm).eq_of_no_locks,
    fun m hm _ hocc hr => hunlocked (m + 1) hm hocc hr, ?_⟩
  · obtain ⟨ha, hm⟩ := hmove m (by omega)
    exact (hinv m (by omega)).unmoved ha hm (hview m him hmj hthread)
  · intro m hm u point hc expected new caller hpoint hid hr
    have hok := (hinv m hm).running hc
    have hcaller : caller.Ok (state m).issued ∧ expected = occupiedUnlockedBits caller.id := by
      rcases hpoint with ⟨timeout, rfl⟩ | ⟨deadline, rfl⟩
      · exact ⟨hok.1, hok.2.1⟩
      · exact ⟨hok.1, hok.2.1⟩
    rw [hcaller.2]
    exact (hinv m hm).eq_unlocked hcaller.1.1 hid hr

/-- A waiter marks a write-locked header and gives up; the writer unlocks it and finds it unmarked. -/
def waiterGivesUp : List (Event (Fin 2)) :=
  [.call 0 .occupy, .act 0 false, .ret 0, .call 0 (.lockWrite 0 .dontBlock), .act 0 false, .ret 0,
    .call 1 (.remove 0 (.blockUntil 7)), .act 1 false, .act 1 false, .act 1 false, .act 1 false,
    .act 1 false, .expire 1, .call 0 (.unlockWrite 0), .act 0 false]

theorem timed_out_waiter :
    NoLastingEffect 15 (System.trace (step .debug) Allowed State.init waiterGivesUp)
      (waiterGivesUp.getD · (.ret 0)) 1 6 13 := by
  have hevents : ∀ m < 13, waiterGivesUp.getD m (.ret 0) ≠ .ret 1 := by decide
  refine timed_out .debug (Fin 2) 15 _ _ (run_of_replay .debug waiterGivesUp (.ret 0) (by decide +kernel)) 1
    .remove 0 (.blockUntil 7) 6 13 (by omega) ⟨by omega, rfl, by decide +kernel, ?_⟩
  exact fun m _ hm => hevents m hm

end ReadWriteStore.Header

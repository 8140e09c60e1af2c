import ReadWriteStore.Header.Publication
import ReadWriteStore.Header.Proofs.RefineProofs
import ReadWriteStore.Header.Proofs.WakeupProofs

/-!
# Publication of writes through the lock

Only the swaps and the `fetch_or` acquire; the compare exchanges with which `lock_read`, `lock_write`
and `remove` succeed release and never acquire. So what a thread knows about the current element is
exactly what it wrote itself and what was handed over to it by a wakeup, and a call publishes properly
exactly where that is everything there is to know.
-/

namespace ReadWriteStore.Header.Publication

open Transition

/-! ## The steps on the word -/

section Code

variable {build : Build} {point : Point} {op : AtomicOp} {reply : Reply}

/-- The operations that acquire. -/
theorem acquires_cases (hop : point.op = some op) (h : (op.ordering reply).acquires = true) :
    (∃ id new, point = .unlockWriteSwap id new) ∨
      (∃ id nextId new, point = .removeLockedSwap id nextId new) ∨ point = .occupyFetchOr := by
  cases point with
  | unlockWriteSwap id new => exact Or.inl ⟨id, new, rfl⟩
  | removeLockedSwap id nextId new => exact Or.inr (Or.inl ⟨id, nextId, new, rfl⟩)
  | occupyFetchOr => exact Or.inr (Or.inr rfl)
  | closure frame deadline =>
    cases hop
    cases frame with
    | lockRead id timeout => cases h
    | transition expected new caller => cases reply <;> cases h
  | lockReadLoad id timeout => cases hop; cases h
  | unlockReadLoad id => cases hop; cases h
  | lockReadExchange id current new timeout => cases hop; cases reply <;> cases h
  | unlockReadExchange id current new mustUnpark => cases hop; cases reply <;> cases h
  | transitionExchange expected new timeout caller => cases hop; cases reply <;> cases h
  | markExchange frame deadline expectedState newState => cases hop; cases reply <;> cases h
  | _ => cases hop

/-- A step that takes a lock is a success for its ID. -/
theorem success_of_acquire {lock : Lock} (h : point.effect reply = .acquire lock) :
    success reply point = some lock.id := by
  cases point with
  | lockReadExchange id current new timeout =>
    cases reply with
    | ok old => cases h; rfl
    | _ => cases h
  | unlockReadExchange id current new mustUnpark => cases reply <;> cases h
  | transitionExchange expected new timeout caller =>
    cases reply with
    | ok old =>
      cases caller with
      | lockWrite id => cases h; rfl
      | remove id nextId => cases h
    | _ => cases h
  | closure frame deadline =>
    cases frame with
    | lockRead id timeout => cases h
    | transition expected new caller =>
      cases reply with
      | ok old =>
        cases caller with
        | lockWrite id => cases h; rfl
        | remove id nextId => cases h
      | _ => cases h
  | _ => cases h

/-- A step gives up only a lock that its thread holds. -/
theorem held_of_release {issued : List UInt32} {locks : List Lock} {lock : Lock}
    (hpoint : point.Ok issued locks) (h : point.effect reply = .release lock) : lock ∈ locks := by
  cases point with
  | lockReadExchange id current new timeout => cases reply <;> cases h
  | unlockReadExchange id current new mustUnpark =>
    cases reply with
    | ok old => cases h; exact hpoint.1
    | _ => cases h
  | transitionExchange expected new timeout caller =>
    cases reply with
    | ok old => cases caller <;> cases h
    | _ => cases h
  | closure frame deadline =>
    cases frame with
    | lockRead id timeout => cases h
    | transition expected new caller =>
      cases reply with
      | ok old => cases caller <;> cases h
      | _ => cases h
  | unlockWriteSwap id new => cases h; exact hpoint.1
  | removeLockedSwap id nextId new => cases h; exact hpoint.1
  | _ => cases h

/-- A call succeeds on a word that carries its ID, by an operation that does not acquire. -/
theorem success_cases {issued : List UInt32} {locks : List Lock} {spurious : Bool} {word : UInt64}
    {id : UInt32} (hpoint : point.Ok issued locks) (hop : point.op = some op)
    (h : success (op.exec spurious word).2 point = some id) :
    idFromBits word = id ∧ (op.ordering (op.exec spurious word).2).acquires = false := by
  cases point with
  | lockReadExchange id' current new timeout =>
    cases hop
    obtain ⟨-, rfl, -⟩ := hpoint
    rcases compareExchangeWeak_cases current new spurious word with ⟨rfl, hexec⟩ | hexec
    · rw [hexec] at h ⊢
      cases h
      exact ⟨rfl, rfl⟩
    · rw [hexec] at h
      cases h
  | transitionExchange expected new timeout caller =>
    cases hop
    obtain ⟨-, rfl, -⟩ := hpoint
    rcases compareExchangeWeak_cases (occupiedUnlockedBits caller.id) new spurious word with
      ⟨rfl, hexec⟩ | hexec
    · rw [hexec] at h ⊢
      cases h
      exact ⟨idFromBits_occupiedUnlockedBits _, rfl⟩
    · rw [hexec] at h
      cases h
  | closure frame deadline =>
    cases hop
    cases frame with
    | lockRead id' timeout => cases h
    | transition expected new caller =>
      obtain ⟨-, rfl, -⟩ := hpoint
      simp only [Frame.op] at h ⊢
      rcases compareExchange_cases (occupiedUnlockedBits caller.id) new spurious word with
        ⟨rfl, hexec⟩ | ⟨-, hexec⟩
      · rw [hexec] at h ⊢
        cases h
        exact ⟨idFromBits_occupiedUnlockedBits _, rfl⟩
      · rw [hexec] at h
        cases h
  | _ => cases h

/-- Only a step that gives up a lock goes on to wake the queue. -/
theorem release_of_waking (hop : point.op = some op)
    (h : (Control.ofChecked (point.resume build reply)).stage = .waking) :
    ∃ lock, point.effect reply = .release lock := by
  have hread : ∀ {id current timeout},
      (Control.ofChecked (lockReadWithCurrent build id current timeout)).stage ≠ .waking := by
    intro id current timeout
    rw [lockReadWithCurrent_stage]
    exact fun he => by cases he
  have hunlock : ∀ {id current},
      (Control.ofChecked (unlockReadWithCurrent build id current)).stage ≠ .waking := by
    intro id current
    rw [unlockReadWithCurrent_stage]
    exact fun he => by cases he
  cases point with
  | lockReadLoad id timeout => exact absurd h hread
  | lockReadExchange id current new timeout =>
    cases reply with
    | ok old => cases h
    | _ => exact absurd h hread
  | unlockReadLoad id => exact absurd h hunlock
  | unlockReadExchange id current new mustUnpark =>
    cases reply with
    | ok old => exact ⟨_, rfl⟩
    | _ => exact absurd h hunlock
  | transitionExchange expected new timeout caller =>
    cases reply with
    | ok old => cases h
    | _ =>
      have h' : (transitionErr expected new _ timeout caller).stage = .waking := h
      rw [transitionErr_stage] at h'
      cases h'
  | closure frame deadline =>
    simp only [Point.resume] at h
    cases hchoice : frame.choice reply with
    | block expectedState =>
      rw [hchoice] at h
      simp only [blockResultToParkResult] at h
      cases hmark : markThreadBlocking build expectedState with
      | ok newState => rw [hmark] at h; cases h
      | error fault => rw [hmark] at h; cases h
    | dontBlock response => rw [hchoice] at h; cases h
  | markExchange frame deadline expectedState newState => cases reply <;> cases h
  | unlockWriteSwap id new => exact ⟨_, rfl⟩
  | removeLockedSwap id nextId new => exact ⟨_, rfl⟩
  | occupyFetchOr =>
    have houtside : (Control.ofChecked (afterFetchOr build reply.found)).stage = .outside := by
      apply Control.ofChecked_stage
      intro control hok
      obtain ⟨-, -, hok⟩ := Checked.bind_eq_ok hok
      obtain ⟨-, -, hok⟩ := Checked.bind_eq_ok hok
      cases hok
      rfl
    exact absurd (houtside.symm.trans h) (fun he => by cases he)
  | _ => cases hop

end Code

/-- A list of events that the protocol allows, run from the initial state. -/
theorem exists_reachable {T : Type} [DecidableEq T] (build : Build) (es : List (Event T))
    (p : State T → Bool) (hp : (System.replay (step build) Allowed State.init es).any p = true) :
    ∃ s, (machine build T).Reachable s ∧ p s = true :=
  @System.exists_reachable _ _ (· = State.init) _ _ _ State.init rfl es p hp

/-! ## The invariant -/

/-- What each thread knows about the element that the header holds now. -/
structure State.Inv {T : Type} [Fintype T] (s : State T) : Prop where
  header : s.header.Inv
  write_id : ∀ (k : ℕ) (w : Write T), s.writes[k]? = some w → w.id ∈ s.header.issued
  published_lt : ∀ k ∈ s.published, k < s.writes.length
  seen_lt : ∀ t, ∀ k ∈ s.seen t, k < s.writes.length
  offered_lt : ∀ t, ∀ k ∈ s.offered t, k < s.writes.length
  released_le : ∀ t, s.released t ≤ s.writes.length
  offeredAt_le : ∀ t, s.offeredAt t ≤ s.writes.length
  wokenAt_le : ∀ t, s.wokenAt t ≤ s.writes.length
  /-- A thread knows its own writes and what was handed over to it, and no more. -/
  seen : ∀ t (k : ℕ) (w : Write T), s.writes[k]? = some w → w.id = idFromBits s.header.word →
    (k ∈ s.seen t ↔ w.author = t ∨ k < s.wokenAt t)
  offered : ∀ t (k : ℕ) (w : Write T), s.writes[k]? = some w → w.id = idFromBits s.header.word →
    (k ∈ s.offered t ↔ k < s.offeredAt t)
  /-- A thread about to wake the queue knows every write up to the moment it gave up its lock. -/
  waking : ∀ t result, s.header.control t = .running (.unpark result) →
    ∀ (k : ℕ) (w : Write T), s.writes[k]? = some w → w.id = idFromBits s.header.word →
      (k ∈ s.seen t ↔ k < s.released t)
  /-- Whoever holds a lock had nothing to learn from the word. -/
  holders : ∀ t, ∀ lock ∈ s.header.locks t, s.Covered t lock.id

/-- The number of writes that come before the last release of `t`. -/
def State.releasedBy (s : State T) (t : T) : Effect → ℕ
  | .release _ => s.writes.length
  | _ => s.released t

namespace State.Inv

variable {T : Type} [Fintype T] {s : State T}

theorem init : (State.init : State T).Inv where
  header := Header.State.Inv.init
  write_id := by simp [State.init]
  published_lt := by simp [State.init]
  seen_lt := by simp [State.init]
  offered_lt := by simp [State.init]
  released_le := by simp [State.init]
  offeredAt_le := by simp [State.init]
  wokenAt_le := by simp [State.init]
  seen := by simp [State.init]
  offered := by simp [State.init]
  waking := by simp [State.init]
  holders := by simp [State.init, Header.State.init]

/-- For the element that the header holds now, being covered is knowing every write. -/
theorem learnt_iff (h : s.Inv) {t : T} {id : UInt32} (hid : idFromBits s.header.word = id) :
    s.Learnt t id ↔ s.Covered t id := by
  subst hid
  constructor
  · intro hl k w hk hw
    exact (h.seen t k w hk hw).1 (hl k w hk hw)
  · intro hc k w hk hw
    exact (h.seen t k w hk hw).2 (hc k w hk hw)

/-- After a removal there is nothing to know yet. -/
theorem no_writes {header : Header.State T} (h : s.Inv) (hheader : header.Inv)
    (hissued : s.header.issued ⊆ header.issued) (hocc : isOccupied header.word = false) :
    ∀ (k : ℕ) (w : Write T), s.writes[k]? = some w → w.id ≠ idFromBits header.word := by
  intro k w hk he
  have hmem : idFromBits header.word ∈ header.issued := by
    rw [← he]
    exact hissued (h.write_id k w hk)
  have hoccupied := (isOccupied_iff _).2 (hheader.ledger.occupied.2 hmem)
  rw [hocc] at hoccupied
  cases hoccupied

variable [DecidableEq T]

/-- Thread `t` writes under its lock. -/
theorem write (h : s.Inv) {t : T} {id : UInt32} (hidle : s.header.control t = .idle)
    (hlock : ⟨.write, id⟩ ∈ s.header.locks t) : (s.write t id).Inv := by
  have hcurrent := h.header.of_write_lock hlock
  have hmem : id ∈ s.header.issued := by
    rw [← hcurrent.1]
    exact h.header.ledger.occupied.1 ((isOccupied_iff _).1 hcurrent.2.2.1)
  have hlength : (s.write t id).writes.length = s.writes.length + 1 := by simp [State.write]
  -- a write is an old one or the new one
  have hcases : ∀ (k : ℕ) (w : Write T), (s.write t id).writes[k]? = some w →
      s.writes[k]? = some w ∧ k < s.writes.length ∨ k = s.writes.length ∧ w = ⟨t, id⟩ := by
    intro k w hk
    simp only [State.write] at hk
    rcases lt_trichotomy k s.writes.length with hlt | rfl | hgt
    · rw [List.getElem?_append_left hlt] at hk
      exact Or.inl ⟨hk, hlt⟩
    · rw [List.getElem?_append_right le_rfl, Nat.sub_self] at hk
      cases hk
      exact Or.inr ⟨rfl, rfl⟩
    · rw [List.getElem?_eq_none (by simp; omega)] at hk
      cases hk
  have hseen : ∀ u k, k ∈ (s.write t id).seen u ↔ k ∈ s.seen u ∨ u = t ∧ k = s.writes.length := by
    intro u k
    simp only [State.write]
    by_cases hut : u = t
    · subst hut
      simp [Finset.mem_insert, or_comm]
    · simp [hut]
  refine ⟨h.header, ?_, ?_, ?_, ?_, ?_, ?_, ?_, ?_, ?_, ?_, ?_⟩
  · intro k w hk
    rcases hcases k w hk with ⟨hk, -⟩ | ⟨-, rfl⟩
    · exact h.write_id k w hk
    · exact hmem
  · intro k hk
    have := h.published_lt k hk
    omega
  · intro u k hk
    rcases (hseen u k).1 hk with hk | ⟨-, rfl⟩
    · have := h.seen_lt u k hk
      omega
    · omega
  · intro u k hk
    have := h.offered_lt u k hk
    omega
  · intro u
    have : s.released u ≤ _ := h.released_le u
    show s.released u ≤ _
    omega
  · intro u
    have := h.offeredAt_le u
    show s.offeredAt u ≤ _
    omega
  · intro u
    have := h.wokenAt_le u
    show s.wokenAt u ≤ _
    omega
  · intro u k w hk hw
    rw [hseen]
    rcases hcases k w hk with ⟨hk, hlt⟩ | ⟨rfl, rfl⟩
    · rw [h.seen u k w hk hw]
      constructor
      · rintro (hold | ⟨-, he⟩)
        · exact hold
        · omega
      · exact Or.inl
    · have hnot : s.writes.length ∉ s.seen u := fun hin => by
        have := h.seen_lt u _ hin
        omega
      have hle := h.wokenAt_le u
      constructor
      · rintro (hin | ⟨rfl, -⟩)
        · exact absurd hin hnot
        · exact Or.inl rfl
      · rintro (he | hlt)
        · exact Or.inr ⟨he.symm, rfl⟩
        · have hlt' : s.writes.length < s.wokenAt u := hlt
          omega
  · intro u k w hk hw
    rcases hcases k w hk with ⟨hk, -⟩ | ⟨rfl, rfl⟩
    · exact h.offered u k w hk hw
    · have hle := h.offeredAt_le u
      constructor
      · intro hin
        have := h.offered_lt u _ hin
        omega
      · intro hlt
        have hlt' : s.writes.length < s.offeredAt u := hlt
        omega
  · intro u result hu k w hk hw
    have hut : u ≠ t := by
      rintro rfl
      have hu' : s.header.control u = .running (.unpark result) := hu
      rw [hidle] at hu'
      cases hu'
    rw [hseen]
    rcases hcases k w hk with ⟨hk, -⟩ | ⟨rfl, rfl⟩
    · rw [h.waking u result hu k w hk hw]
      exact ⟨fun hor => hor.elim (fun hlt => hlt) fun he => absurd he.1 hut, Or.inl⟩
    · have hle := h.released_le u
      constructor
      · rintro (hin | ⟨he, -⟩)
        · have := h.seen_lt u _ hin
          omega
        · exact absurd he hut
      · intro hlt
        have hlt' : s.writes.length < s.released u := hlt
        omega
  · intro u lock hl k w hk hw
    by_cases hut : u = t
    · subst hut
      rcases hcases k w hk with ⟨hk, -⟩ | ⟨-, rfl⟩
      · exact h.holders u lock hl k w hk hw
      · exact Or.inl rfl
    · have hl' : lock ∈ s.header.locks u := hl
      rw [h.header.sole_writer hlock hut] at hl'
      exact absurd hl' List.not_mem_nil

/-- A step of `t` on the header, with what it learns and publishes. -/
theorem exec (h : s.Inv) {header : Header.State T} (t : T) (seen published : Finset ℕ) (released : ℕ)
    (hheader : header.Inv) (hissued : s.header.issued ⊆ header.issued)
    (hid : idFromBits header.word = idFromBits s.header.word ∨ isOccupied header.word = false)
    (hothers : ∀ u, u ≠ t → header.control u = s.header.control u ∧ header.locks u = s.header.locks u)
    (hold : s.seen t ⊆ seen)
    (hnew : ∀ k ∈ seen, k ∈ s.seen t ∨ k < s.writes.length ∧ ∀ w, s.writes[k]? = some w →
      w.id = idFromBits s.header.word → w.author = t ∨ k < s.wokenAt t)
    (hpublished : ∀ k ∈ published, k < s.writes.length) (hreleased : released ≤ s.writes.length)
    (hwaking : ∀ result, header.control t = .running (.unpark result) →
      released = s.writes.length ∧ s.Covered t (idFromBits s.header.word))
    (hlocks : ∀ lock ∈ header.locks t, s.Covered t lock.id) :
    { s with
      header := header
      seen := Function.update s.seen t seen
      published := published
      released := Function.update s.released t released }.Inv := by
  have hnone := h.no_writes hheader hissued
  -- what is known of the element that the header holds now
  have hsame : ∀ (k : ℕ) (w : Write T), s.writes[k]? = some w → w.id = idFromBits header.word →
      w.id = idFromBits s.header.word := by
    intro k w hk hw
    rcases hid with hid | hocc
    · rw [hw, hid]
    · exact absurd hw (hnone hocc k w hk)
  refine ⟨hheader, fun k w hk => hissued (h.write_id k w hk), hpublished, ?_, h.offered_lt, ?_,
    h.offeredAt_le, h.wokenAt_le, ?_, ?_, ?_, ?_⟩
  · intro u k hk
    by_cases hut : u = t
    · subst hut
      simp only [Function.update_self] at hk
      rcases hnew k hk with hk | ⟨hlt, -⟩
      · exact h.seen_lt u k hk
      · exact hlt
    · simp only [Function.update_of_ne hut] at hk
      exact h.seen_lt u k hk
  · intro u
    by_cases hut : u = t
    · subst hut
      simpa using hreleased
    · simpa [hut] using h.released_le u
  · intro u k w hk hw
    have hw' := hsame k w hk hw
    by_cases hut : u = t
    · subst hut
      simp only [Function.update_self]
      rw [← h.seen u k w hk hw']
      constructor
      · intro hin
        rcases hnew k hin with hin | ⟨-, hc⟩
        · exact hin
        · exact (h.seen u k w hk hw').2 (hc w hk hw')
      · intro hin
        exact hold hin
    · simp only [Function.update_of_ne hut]
      exact h.seen u k w hk hw'
  · intro u k w hk hw
    exact h.offered u k w hk (hsame k w hk hw)
  · intro u result hu k w hk hw
    have hw' := hsame k w hk hw
    by_cases hut : u = t
    · subst hut
      obtain ⟨rfl, hcovered⟩ := hwaking result hu
      simp only [Function.update_self]
      have hlt : k < s.writes.length := (List.getElem?_eq_some_iff.1 hk).1
      refine ⟨fun _ => hlt, fun _ => hold ?_⟩
      exact (h.seen u k w hk hw').2 (hcovered k w hk hw')
    · have hu' : s.header.control u = .running (.unpark result) := by
        rw [← (hothers u hut).1]
        exact hu
      simp only [Function.update_of_ne hut]
      exact h.waking u result hu' k w hk hw'
  · intro u lock hl
    by_cases hut : u = t
    · subst hut
      exact hlocks lock hl
    · have hl' : lock ∈ s.header.locks u := by
        rw [← (hothers u hut).2]
        exact hl
      exact h.holders u lock hl'

/-- A step of `t` on the header that touches neither its word nor its locks. -/
theorem quiet (h : s.Inv) {header : Header.State T} {t : T} (hheader : header.Inv)
    (hword : header.word = s.header.word) (hlocks : header.locks = s.header.locks)
    (hissued : header.issued = s.header.issued)
    (hothers : ∀ u, u ≠ t → header.control u = s.header.control u)
    (hstage : (header.control t).stage ≠ .waking) : { s with header := header }.Inv := by
  have hexec := h.exec t (s.seen t) s.published (s.released t) hheader
    (fun _ hi => by rw [hissued]; exact hi) (Or.inl (by rw [hword]))
    (fun u hut => ⟨hothers u hut, by rw [hlocks]⟩) (fun _ hk => hk) (fun _ hk => Or.inl hk)
    h.published_lt (h.released_le t) (fun result hr => absurd (by rw [hr]; rfl) hstage)
    (fun lock hl => h.holders t lock (by rw [← hlocks]; exact hl))
  simpa using hexec

/-- Thread `t`, about to wake the queue, offers what it has seen. -/
theorem offer (h : s.Inv) {t : T} {result : Return}
    (hc : s.header.control t = .running (.unpark result)) : (s.offer t).Inv := by
  refine ⟨h.header, h.write_id, h.published_lt, h.seen_lt, ?_, h.released_le, ?_, h.wokenAt_le, h.seen,
    ?_, h.waking, h.holders⟩
  · intro u k hk
    simp only [State.offer] at hk
    split at hk
    · exact h.seen_lt t k hk
    · exact h.offered_lt u k hk
  · intro u
    simp only [State.offer]
    split
    · exact h.released_le t
    · exact h.offeredAt_le u
  · intro u k w hk hw
    simp only [State.offer]
    split
    · exact h.waking t result hc k w hk hw
    · exact h.offered u k w hk hw

/-- A thread that is woken learns what it was offered. -/
theorem hear (h : s.Inv) {t : T} (hidle : (s.header.control t).stage ≠ .waking) : (s.hear t).Inv := by
  refine ⟨h.header, h.write_id, h.published_lt, ?_, h.offered_lt, h.released_le, h.offeredAt_le, ?_, ?_,
    h.offered, ?_, ?_⟩
  · intro u k hk
    by_cases hut : u = t
    · subst hut
      simp only [State.hear, Function.update_self, Finset.mem_union] at hk
      exact hk.elim (h.seen_lt u k) (h.offered_lt u k)
    · simp only [State.hear, Function.update_of_ne hut] at hk
      exact h.seen_lt u k hk
  · intro u
    by_cases hut : u = t
    · subst hut
      simp only [State.hear, Function.update_self]
      exact max_le (h.wokenAt_le u) (h.offeredAt_le u)
    · simp only [State.hear, Function.update_of_ne hut]
      exact h.wokenAt_le u
  · intro u k w hk hw
    by_cases hut : u = t
    · subst hut
      have hseen := h.seen u k w hk hw
      have hoffered := h.offered u k w hk hw
      simp only [State.hear, Function.update_self, Finset.mem_union, lt_max_iff]
      rw [hseen, hoffered]
      tauto
    · simp only [State.hear, Function.update_of_ne hut]
      exact h.seen u k w hk hw
  · intro u result hu k w hk hw
    have hut : u ≠ t := by
      rintro rfl
      have hu' : s.header.control u = .running (.unpark result) := hu
      exact hidle (by rw [hu']; rfl)
    simp only [State.hear, Function.update_of_ne hut]
    exact h.waking u result hu k w hk hw
  · intro u lock hl k w hk hw
    have hcovered := h.holders u lock hl k w hk hw
    by_cases hut : u = t
    · subst hut
      simp only [State.hear, Function.update_self, lt_max_iff]
      tauto
    · simp only [State.hear, Function.update_of_ne hut]
      exact hcovered

/-- The operation of `t` on the word. -/
theorem access (h : s.Inv) {build : Build} {t : T} {spurious : Bool} {point : Point} {op : AtomicOp}
    (hc : s.header.control t = .running point) (hop : point.op = some op)
    (ha : Header.Allowed s.header (.act t spurious))
    (hmeets : ∀ id, success (op.exec spurious s.header.word).2 point = some id → s.Covered t id) :
    { (s.access t op (op.exec spurious s.header.word).2).noteRelease t
        (point.effect (op.exec spurious s.header.word).2) with
      header := s.header.exec build t point op spurious }.Inv := by
  have hmove : Move build s.header (.act t spurious) (s.header.exec build t point op spurious) :=
    .exec hc hop
  have hheader := h.header.move ha hmove
  have hpoint := h.header.running hc
  have hword : (s.header.exec build t point op spurious).word = (op.exec spurious s.header.word).1 := by
    simp [Header.State.exec]
  have hcontrol : (s.header.exec build t point op spurious).control t =
      .ofChecked (point.resume build (op.exec spurious s.header.word).2) := by
    simp [Header.State.exec]
  have hlocks : (s.header.exec build t point op spurious).locks t =
      (s.header.record t (point.effect (op.exec spurious s.header.word).2)).locks t := by
    simp only [Header.State.exec, Header.State.setControl_locks]
    cases point.effect (op.exec spurious s.header.word).2 <;> rfl
  have hissued : s.header.issued ⊆ (s.header.exec build t point op spurious).issued :=
    Header.State.record_issued_subset { s.header with word := (op.exec spurious s.header.word).1 } t
      (point.effect (op.exec spurious s.header.word).2)
  have hid := h.header.id_step ha hmove
  have hothers : ∀ u, u ≠ t → (s.header.exec build t point op spurious).control u = s.header.control u ∧
      (s.header.exec build t point op spurious).locks u = s.header.locks u :=
    fun u hut => hmove.frame hut
  generalize s.header.exec build t point op spurious = header at *
  generalize (op.exec spurious s.header.word).2 = reply at *
  -- an operation that acquires is made under the write lock, or where nothing has been written
  have hacquires : (op.ordering reply).acquires = true → ∀ (k : ℕ) (w : Write T),
      s.writes[k]? = some w → w.id = idFromBits s.header.word → w.author = t ∨ k < s.wokenAt t := by
    intro hacq k w hk hw
    rcases acquires_cases hop hacq with ⟨id, new, rfl⟩ | ⟨id, nextId, new, rfl⟩ | rfl
    · refine h.holders t _ hpoint.1 k w hk ?_
      rw [hw, h.header.lock_id t _ hpoint.1]
    · refine h.holders t _ hpoint.1 k w hk ?_
      rw [hw, h.header.lock_id t _ hpoint.1]
    · have hmem := h.write_id k w hk
      rw [hw] at hmem
      have hocc := (isOccupied_iff _).2 (h.header.ledger.occupied.2 hmem)
      rw [(ha hc).1] at hocc
      cases hocc
  have hexec := h.exec t
    (if (op.ordering reply).acquires then s.seen t ∪ s.published else s.seen t)
    (if op.writes reply && (op.ordering reply).releases then
      s.published ∪ if (op.ordering reply).acquires then s.seen t ∪ s.published else s.seen t
      else s.published)
    (s.releasedBy t (point.effect reply))
    hheader hissued hid hothers ?_ ?_ ?_ ?_ ?_ ?_
  · cases heffect : point.effect reply with
    | release lock =>
      rw [heffect] at hexec
      exact hexec
    | _ =>
      rw [heffect] at hexec
      simpa [State.noteRelease, State.access, State.releasedBy] using hexec
  · split
    · exact Finset.subset_union_left
    · exact Finset.Subset.refl _
  · intro k hk
    split at hk
    · rename_i hacq
      rcases Finset.mem_union.1 hk with hk | hk
      · exact Or.inl hk
      · exact Or.inr ⟨h.published_lt k hk, hacquires hacq k⟩
    · exact Or.inl hk
  · intro k hk
    split at hk
    · rcases Finset.mem_union.1 hk with hk | hk
      · exact h.published_lt k hk
      · split at hk
        · rcases Finset.mem_union.1 hk with hk | hk
          · exact h.seen_lt t k hk
          · exact h.published_lt k hk
        · exact h.seen_lt t k hk
    · exact h.published_lt k hk
  · unfold State.releasedBy
    split
    · exact le_rfl
    · exact h.released_le t
  · intro result hr
    rw [hcontrol] at hr
    obtain ⟨lock, heffect⟩ := release_of_waking hop (by rw [hr]; rfl)
    rw [heffect]
    have hlock := held_of_release hpoint heffect
    refine ⟨rfl, ?_⟩
    rw [← h.header.lock_id t lock hlock]
    exact h.holders t lock hlock
  · intro lock hl
    rw [hlocks] at hl
    cases heffect : point.effect reply with
    | none =>
      rw [heffect] at hl
      exact h.holders t lock hl
    | acquire lock' =>
      rw [heffect] at hl
      simp only [Header.State.record, Function.update_self] at hl
      rcases List.mem_cons.1 hl with rfl | hl
      · exact hmeets _ (success_of_acquire heffect)
      · exact h.holders t lock hl
    | release lock' =>
      rw [heffect] at hl
      simp only [Header.State.record, Function.update_self] at hl
      exact h.holders t lock (List.mem_of_mem_erase hl)
    | issue id =>
      rw [heffect] at hl
      exact h.holders t lock hl

variable {build : Build} {s' : State T}

/-- Every step that meets the condition preserves the invariant. -/
theorem step (h : s.Inv) {e : Event T} (ha : Allowed s e) (hmeets : Meets s e)
    (hs : step build s e = some s') : s'.Inv := by
  cases e with
  | write t id =>
    simp only [Publication.step] at hs
    split at hs
    · rename_i hguard
      cases hs
      exact h.write hguard.1 hguard.2
    · cases hs
  | header e handOver =>
    obtain ⟨header, hstep, rfl⟩ := Option.map_eq_some_iff.1 hs
    have hm := Move.of_step hstep
    have hheader := h.header.move ha hm
    cases hm with
    | @call t c hc =>
      refine h.quiet (t := t) hheader rfl rfl rfl (fun u hut => by simp [hut]) ?_
      rw [Header.State.setControl_control, Function.update_self, start_stage]
      exact fun he => by cases he
    | @exec t spurious point op hc hop =>
      have hmemory : s.memory handOver (.act t spurious) =
          (s.access t op (op.exec spurious s.header.word).2).noteRelease t
            (point.effect (op.exec spurious s.header.word).2) := by
        simp only [State.memory, hc, hop]
      rw [hmemory]
      refine h.access hc hop ha fun id hsuccess => hmeets id ?_
      simp only [State.succeeds, hc, hop, Option.bind_some]
      exact hsuccess
    | @park t spurious frame deadline hc hfree =>
      have hmemory : s.memory handOver (.act t spurious) = s := by
        simp only [State.memory, hc, Point.op]
      rw [hmemory]
      refine h.quiet (t := t) hheader rfl rfl rfl (fun u hut => by simp [hut]) ?_
      rw [Header.State.setControl_control, Function.update_self]
      exact fun he => by cases he
    | @enqueue t spurious frame deadline result hc =>
      have hmemory : s.memory handOver (.act t spurious) = s := by
        simp only [State.memory, hc, Point.op]
      rw [hmemory]
      refine h.quiet (t := t) hheader rfl rfl rfl (fun u hut => by simp [hut]) ?_
      rw [Header.State.setControl_control, Function.update_self]
      exact fun he => by cases he
    | @leave t spurious frame deadline result hc =>
      have hmemory : s.memory handOver (.act t spurious) = s := by
        simp only [State.memory, hc, Point.op]
      rw [hmemory]
      refine h.quiet (t := t) hheader rfl rfl rfl (fun u hut => by simp [hut]) ?_
      rw [Header.State.setControl_control, Function.update_self, afterPark_stage]
      exact fun he => by cases he
    | @wake t spurious frame deadline result hc hq =>
      have hmemory : s.memory handOver (.act t spurious) = if handOver then s.hear t else s := by
        simp only [State.memory, hc, Point.op]
      have hstage : (s.header.control t).stage ≠ .waking := by
        rw [hc]
        exact fun he => by cases he
      have hmem : (s.memory handOver (.act t spurious)).Inv ∧
          (s.memory handOver (.act t spurious)).header = s.header := by
        rw [hmemory]
        cases handOver with
        | true => exact ⟨h.hear hstage, rfl⟩
        | false => exact ⟨h, rfl⟩
      refine hmem.1.quiet (t := t) hheader ?_ ?_ ?_ ?_ ?_
      · rw [hmem.2]; rfl
      · rw [hmem.2]; rfl
      · rw [hmem.2]; rfl
      · intro u hut
        rw [hmem.2]
        simp [hut]
      · rw [Header.State.setControl_control, Function.update_self, afterPark_stage]
        exact fun he => by cases he
    | @unpark t spurious result hc hfree =>
      have hmemory : s.memory handOver (.act t spurious) = s.offer t := by
        simp only [State.memory, hc, Point.op]
      rw [hmemory]
      refine (h.offer hc).quiet (t := t) hheader rfl rfl rfl (fun u hut => by simp [State.offer, hut]) ?_
      rw [Header.State.setControl_control, Function.update_self]
      exact fun he => by cases he
    | @expire t frame deadline result hc hq hfree =>
      refine h.quiet (t := t) hheader rfl rfl rfl
        (fun u hut => by simp [Header.State.expire, hut]) ?_
      simp only [Header.State.expire, Header.State.setControl_control, Function.update_self]
      rw [expire_stage]
      exact fun he => by cases he
    | @ret t hc =>
      refine h.quiet (t := t) hheader rfl rfl rfl (fun u hut => by simp [hut]) ?_
      rw [Header.State.setControl_control, Function.update_self]
      exact fun he => by cases he

end State.Inv

/-! ## The theorem -/

variable {T : Type} [DecidableEq T] {build : Build} {s s' : State T}

omit [DecidableEq T] in
theorem succeeds_cases {e : Event T} {id : UInt32} (h : s.succeeds e = some id) :
    ∃ t spurious handOver point op, e = .header (.act t spurious) handOver ∧
      s.header.control t = .running point ∧ point.op = some op ∧
      success (op.exec spurious s.header.word).2 point = some id := by
  cases e with
  | write t id' => cases h
  | header e handOver =>
    cases e with
    | act t spurious =>
      simp only [State.succeeds] at h
      split at h
      · rename_i point hc
        obtain ⟨op, hop, hsuccess⟩ := Option.bind_eq_some_iff.1 h
        exact ⟨t, spurious, handOver, point, op, rfl, hc, hop, hsuccess⟩
      · cases h
    | _ => cases h

/-- A thread that succeeds knows afterwards what it knew before. -/
theorem learnt_of_success [Fintype T] (h : s.Inv) {e : Event T} {id : UInt32}
    (hs : step build s e = some s') (hid : s.succeeds e = some id) :
    (s'.Learnt e.thread id ↔ s.Learnt e.thread id) ∧ idFromBits s.header.word = id := by
  obtain ⟨t, spurious, handOver, point, op, rfl, hc, hop, hsuccess⟩ := succeeds_cases hid
  obtain ⟨header, -, rfl⟩ := Option.map_eq_some_iff.1 hs
  obtain ⟨hword, hacquires⟩ := success_cases (h.header.running hc) hop hsuccess
  have hmemory : s.memory handOver (.act t spurious) =
      (s.access t op (op.exec spurious s.header.word).2).noteRelease t
        (point.effect (op.exec spurious s.header.word).2) := by
    simp only [State.memory, hc, hop]
  have hsame : (s.memory handOver (.act t spurious)).writes = s.writes ∧
      (s.memory handOver (.act t spurious)).seen = s.seen := by
    rw [hmemory]
    cases point.effect (op.exec spurious s.header.word).2 <;>
      simp [State.noteRelease, State.access, hacquires]
  refine ⟨?_, hword⟩
  show (∀ k w, (s.memory handOver (.act t spurious)).writes[k]? = some w → w.id = id →
    k ∈ (s.memory handOver (.act t spurious)).seen t) ↔ s.Learnt t id
  rw [hsame.1, hsame.2]
  rfl

theorem reachable_inv [Fintype T] (h : ((machine build T).restrict Meets).Reachable s) : s.Inv := by
  refine h.invariant ?_ ?_
  · rintro _ rfl
    exact State.Inv.init
  · rintro s e s' hinv ⟨hmeets, ha, hs⟩
    exact hinv.step ha hmeets hs

/-- What a header publishes to those who lock it. -/
structure Publishes (build : Build) (s : State T) : Prop where
  /-- A call that succeeds with `id` has learnt of every write under `id` exactly if there was nothing
  for it to learn from the word. -/
  success : ∀ e s' id, (machine build T).step s e s' → s.succeeds e = some id →
    (s'.Learnt e.thread id ↔ Meets s e)
  holders : ∀ t, ∀ lock ∈ s.header.locks t, s.Learnt t lock.id

/-- As long as threads succeed only where they have nothing to learn from the word, whoever holds a lock has
learnt of every write under its ID. At each success the condition is exact. -/
theorem publication (build : Build) (T : Type) [Fintype T] [DecidableEq T] (s : State T)
    (hs : ((machine build T).restrict Meets).Reachable s) : Publishes build s := by
  have hinv := reachable_inv hs
  constructor
  · rintro e s' id ⟨-, hstep⟩ hid
    obtain ⟨hlearnt, hword⟩ := learnt_of_success hinv hstep hid
    rw [hlearnt, hinv.learnt_iff hword]
    unfold Meets
    rw [hid]
    constructor
    · rintro hcovered id' ⟨⟩
      exact hcovered
    · intro hmeets
      exact hmeets id rfl
  · intro t lock hlock
    have hword : idFromBits s.header.word = lock.id := (hinv.header.lock_id t lock hlock).symm
    exact (hinv.learnt_iff hword).2 (hinv.holders t lock hlock)

/-- One thread inserts an element, writes to it and unlocks it; another one takes a read lock. -/
def readerAfterWriter : List (Event (Fin 2)) :=
  [.header (.call 0 .occupy) false, .header (.act 0 false) false, .header (.ret 0) false,
    .header (.call 0 (.lockWrite 0 .dontBlock)) false, .header (.act 0 false) false,
    .header (.ret 0) false, .write 0 0, .header (.call 0 (.unlockWrite 0)) false,
    .header (.act 0 false) false, .header (.ret 0) false,
    .header (.call 1 (.lockRead 0 .dontBlock)) false, .header (.act 1 false) false]

/-- The reader comes while the writer has the lock, sleeps, and is woken up with what the writer has seen. -/
def readerBehindWriter : List (Event (Fin 2)) :=
  readerAfterWriter.take 7 ++ [.header (.call 1 (.lockRead 0 .blockIndefinitely)) false] ++
    List.replicate 5 (.header (.act 1 false) false) ++
    [.header (.call 0 (.unlockWrite 0)) false, .header (.act 0 false) false, .header (.act 0 false) false,
      .header (.ret 0) false, .header (.act 1 false) true] ++
    List.replicate 4 (.header (.act 1 false) false)

/-- A thread that is woken up by the writer may read what it wrote. -/
theorem publication_handed_over :
    ∃ s : State (Fin 2), s.writes = [⟨0, 0⟩] ∧ s.wokenAt 1 = 1 ∧ s.header.locks 1 = [⟨.read, 0⟩] ∧
      Publishes .release s := by
  obtain ⟨s, hs, hp⟩ := @System.exists_reachable _ _ (· = State.init) (step .release)
    (fun s e => Meets s e ∧ Allowed s e) _ (State.init : State (Fin 2)) rfl readerBehindWriter
    (fun s => s.writes = [⟨0, 0⟩] ∧ s.wokenAt 1 = 1 ∧ s.header.locks 1 = [⟨.read, 0⟩]) (by decide +kernel)
  obtain ⟨hwrites, hwoken, hlocks⟩ := of_decide_eq_true hp
  exact ⟨s, hwrites, hwoken, hlocks, publication .release (Fin 2) s hs.restrict⟩

/-- The reader succeeds on the fast path and has learnt nothing. -/
theorem publication_fails :
    ¬∀ s : State (Fin 2), (machine .release (Fin 2)).Reachable s → ∀ e s' id,
      (machine .release (Fin 2)).step s e s' → s.succeeds e = some id → s'.Learnt e.thread id := by
  intro hall
  obtain ⟨s, hs, hp⟩ := exists_reachable .release readerAfterWriter
    (fun s => (step .release s (.header (.act 1 false) false)).any fun s' =>
      Allowed s (.header (.act 1 false) false) ∧
        s.succeeds (.header (.act 1 false) false) = some 0 ∧ s'.writes = [⟨0, 0⟩] ∧ s'.seen 1 = ∅)
    (by decide +kernel)
  obtain ⟨s', hstep, hp⟩ := (Option.any_eq_true _ _).1 hp
  obtain ⟨ha, hid, hwrites, hseen⟩ := of_decide_eq_true hp
  have hlearnt := hall s hs _ s' 0 ⟨ha, hstep⟩ hid 0 ⟨0, 0⟩ (by rw [hwrites]; rfl) rfl
  have hin : 0 ∈ s'.seen 1 := hlearnt
  rw [hseen] at hin
  exact absurd hin (Finset.notMem_empty 0)

end ReadWriteStore.Header.Publication

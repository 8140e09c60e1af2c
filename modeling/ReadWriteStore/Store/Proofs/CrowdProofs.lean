import ReadWriteStore.Store.Proofs.ActProofs
import ReadWriteStore.Store.Proofs.ChecksProofs
import ReadWriteStore.Store.Proofs.CountProofs

/-!
# Threads that crowd a bucket

Fewer than `2 ^ 31` inserts at a time cannot wrap the counter of a bucket around, and no check fails. More than
`2 ^ 32` can: they all find the head full before the first of them drops its read lock.
-/

namespace ReadWriteStore.Store

open Function
open Header (isOccupied)

variable {T E : Type}

/-! ## Few inserts at a time -/

/-- An element fills the only slot of a bucket. Two inserts find it full, one after the other grows the bucket. -/
def insertTogether : List (Event (Fin 3) Bool) :=
  List.flatten [wholeCall 0 (.insert true) 13, beginCall 1 (.insert true) 3, beginCall 2 (.insert true) 3,
    [.act 1 false, .act 2 false], List.replicate 9 (.act 1 false), [.ret 1], List.replicate 7 (.act 2 false), [.ret 2]]

variable [DecidableEq T] {s s' : State T E} {t : T} {element : E}

/-- The debug build of a store with short head blocks. -/
abbrev shortMachine (T E : Type) [DecidableEq T] : Transition.System (State T E) (Event T E) :=
  (machine .debug T E).restrict fun s _ => s.Short

omit [DecidableEq T] in
theorem State.Short.setBucket (h : s.Short) {bucket : Fin bucketCount} {state : Bucket.State T}
    (hblocks : state.inner.blocks = (s.bucket bucket).inner.blocks) : (s.setBucket bucket state).Short := by
  intro other
  show (update s.bucket bucket state other).inner.headSize.toNat < 2 ^ 31
  by_cases hother : other = bucket
  · subst hother
    rw [update_self]
    unfold Bucket.Inner.headSize
    rw [hblocks]
    exact h other
  · rw [update_of_ne hother]
    exact h other

theorem reach_act (hr : (shortMachine T E).Reachable s) (hs : s.Short) (h : s.act .debug t false = some s') :
    (shortMachine T E).Reachable s' :=
  have hallowed : Allowed s (.act t false) := trivial
  .step hr ⟨hs, hallowed, h⟩

/-- Inserts that have found the only slot of a bucket taken, and threads that wait for their turn. -/
structure Crowded (s : State T E) (bucket : Fin bucketCount) (waiting : T → Prop) (next : UInt32) : Prop where
  short : s.Short
  erasures : s.erasures = []
  inner : (s.bucket bucket).inner = ⟨[1], next⟩
  writer : (s.bucket bucket).writer = none
  occupied : isOccupied (s.header ⟨bucket, ⟨0, 0⟩⟩).word = true
  control : ∀ t, waiting t → s.control t = .idle
  calm : ∀ t, waiting t → (s.bucket bucket).control t = .idle
  header : ∀ t, waiting t → (s.header ⟨bucket, ⟨0, 0⟩⟩).control t = .idle
  draws : ∀ t, waiting t → bucketId (nextGenerator (s.generator t)) = bucket

variable {bucket : Fin bucketCount} {waiting : T → Prop} {next : UInt32}

/-- One thread of the crowd inside its call of the bucket. -/
structure Inside (s : State T E) (bucket : Fin bucketCount) (waiting : T → Prop) (next : UInt32) (t : T)
    (element : E) (point : Bucket.Point) : Prop where
  crowded : Crowded s bucket waiting next
  out : ¬waiting t
  control : s.control t = .bucket (.insert bucket element)
  point : (s.bucket bucket).control t = .running point
  header : (s.header ⟨bucket, ⟨0, 0⟩⟩).control t = .idle

theorem Crowded.enter (h : Crowded s bucket waiting next) (hr : (shortMachine T E).Reachable s) (ht : waiting t)
    (element : E) : ∃ s', (shortMachine T E).Reachable s' ∧
      Inside s' bucket (fun u => waiting u ∧ u ≠ t) next t element .lockRead := by
  have hidle := h.calm t ht
  have hstart : step .debug s (.call t (.insert element)) =
      some ({ s with given := element :: s.given }.setControl t (.pop element)) := by
    simp only [step, h.control t ht]
    rfl
  have h₁ : (shortMachine T E).Reachable ({ s with given := element :: s.given }.setControl t (.pop element)) :=
    have hallowed : Allowed s (.call t (.insert element)) := trivial
    .step hr ⟨h.short, hallowed, hstart⟩
  have hcalled : Bucket.step .debug (s.bucket bucket) (.call t .nextInsertLocation) =
      some ((s.bucket bucket).setControl t (.running .lockRead)) := by
    simp only [Bucket.step, hidle]
    rfl
  have h₂ := reach_act (t := t) h₁ h.short (State.act_draw (State.setControl_self t _) h.erasures (h.draws t ht) hcalled)
  refine ⟨_, h₂, ⟨⟨h.short.setBucket rfl, h.erasures, ?_, ?_, h.occupied, ?_, ?_, ?_, ?_⟩, ?_, ?_, ?_, ?_⟩⟩
  · rw [State.entered_bucket]
    exact h.inner
  · rw [State.entered_bucket]
    exact h.writer
  · rintro u ⟨hu, hne⟩
    show update (update s.control t _) t _ u = _
    rw [update_of_ne hne, update_of_ne hne]
    exact h.control u hu
  · rintro u ⟨hu, hne⟩
    rw [State.entered_bucket]
    show update (s.bucket bucket).control t _ u = _
    rw [update_of_ne hne]
    exact h.calm u hu
  · exact fun u hu => h.header u hu.1
  · rintro u ⟨hu, hne⟩
    show bucketId (nextGenerator (update s.generator t _ u)) = bucket
    rw [update_of_ne hne]
    exact h.draws u hu
  · exact fun hu => hu.2 rfl
  · exact State.setControl_self ..
  · rw [State.entered_bucket]
    exact update_self ..
  · exact h.header t ht

/-- The thread goes on inside the bucket. -/
theorem Inside.go {point point' : Bucket.Point} {next' : UInt32} {state : Bucket.State T}
    (h : Inside s bucket waiting next t element point) (hr : (shortMachine T E).Reachable s)
    (hstep : Bucket.step .debug (s.bucket bucket) (.act t) = some state) (hinner : state.inner = ⟨[1], next'⟩)
    (hwriter : state.writer = none) (hpoint : state.control t = .running point') :
    ∃ s', (shortMachine T E).Reachable s' ∧ Inside s' bucket waiting next' t element point' := by
  have hself : (s.setBucket bucket state).bucket bucket = state := update_self ..
  refine ⟨_, reach_act hr h.crowded.short (State.act_bucketStep h.control h.point hstep), ⟨⟨h.crowded.short.setBucket ?_,
    h.crowded.erasures, ?_, ?_, h.crowded.occupied, h.crowded.control, ?_, h.crowded.header, h.crowded.draws⟩,
    h.out, h.control, ?_, h.header⟩⟩
  · show state.inner.blocks = (s.bucket bucket).inner.blocks
    rw [hinner, h.crowded.inner]
  · show ((s.setBucket bucket state).bucket bucket).inner = _
    rw [hself, hinner]
  · show ((s.setBucket bucket state).bucket bucket).writer = none
    rw [hself, hwriter]
  · intro u hu
    have hne : u ≠ t := by
      rintro rfl
      exact h.out hu
    show ((s.setBucket bucket state).bucket bucket).control u = .idle
    rw [hself, (Bucket.Move.of_step hstep).control_ne hne]
    exact h.crowded.calm u hu
  · show ((s.setBucket bucket state).bucket bucket).control t = _
    rw [hself, hpoint]

/-- A thread of the crowd adds to the counter. -/
theorem Crowded.fetch (h : Crowded s bucket waiting next) (hr : (shortMachine T E).Reachable s) (ht : waiting t)
    (element : E) : ∃ s', (shortMachine T E).Reachable s' ∧
      Inside s' bucket (fun u => waiting u ∧ u ≠ t) (next + 1) t element
        (.unlockRead ((⟨[1], next⟩ : Bucket.Inner).nextInsertLocation .debug).2) := by
  obtain ⟨s₁, h₁, hs₁⟩ := h.enter hr ht element
  have hlock : Bucket.step .debug (s₁.bucket bucket) (.act t) = some ({ s₁.bucket bucket with
      readers := t :: (s₁.bucket bucket).readers }.setControl t (.running .fetch)) := by
    simp only [Bucket.step, hs₁.point, Bucket.State.act, hs₁.crowded.writer, if_true]
  obtain ⟨s₂, h₂, hs₂⟩ := hs₁.go h₁ hlock hs₁.crowded.inner hs₁.crowded.writer (update_self ..)
  have hfetch : Bucket.step .debug (s₂.bucket bucket) (.act t) = some ({ s₂.bucket bucket with
      inner := ⟨[1], next + 1⟩ }.setControl t
        (.running (.unlockRead ((⟨[1], next⟩ : Bucket.Inner).nextInsertLocation .debug).2))) := by
    simp only [Bucket.step, hs₂.point, Bucket.State.act, hs₂.crowded.inner]
    rfl
  exact hs₂.go h₂ hfetch rfl hs₂.crowded.writer (update_self ..)

/-! ## The slot is handed out again -/

/-- `occupy` finds the slot occupied. -/
theorem act_occupies {address : SlotAddress} (hc : s.control t = .header (.occupy address element))
    (hpoint : (s.header address).control t = .running .occupyFetchOr)
    (hoccupied : isOccupied (s.header address).word = true) :
    ∃ s', s.act .debug t false = some s' ∧ s'.bucket = s.bucket ∧
      (s'.header address).control t = .faulted (.assertion "attempted to occupy occupied header") := by
  have hafter : Header.afterFetchOr .debug (s.header address).word =
      .error (.assertion "attempted to occupy occupied header") := by
    unfold Header.afterFetchOr
    rw [hoccupied]
    rfl
  have hstep : Header.step .debug (s.header address) (.act t false) = some ((s.header address).exec .debug t
      .occupyFetchOr (.fetchOr Header.threadNotificationMask .acqRel) false) := by
    simp only [Header.step, hpoint]
    rfl
  refine ⟨_, State.act_headerStep hc hpoint hstep, rfl, ?_⟩
  rw [Frame.address, State.setHeader_header, update_self]
  show (Header.State.setControl _ t (.ofChecked (Header.afterFetchOr .debug (s.header address).word))).control t = _
  rw [hafter]
  exact update_self ..

/-- A thread that is handed the slot writes over the element in it. -/
theorem Inside.overwrites (h : Inside s bucket waiting next t element (.unlockRead (.ok (some ⟨0, 0⟩))))
    (hr : (shortMachine T E).Reachable s) : ∃ s', (shortMachine T E).Reachable s' ∧ s'.Short ∧
      (s'.header ⟨bucket, ⟨0, 0⟩⟩).control t = .faulted (.assertion "attempted to occupy occupied header") := by
  have hunlock : Bucket.step .debug (s.bucket bucket) (.act t) = some ({ s.bucket bucket with
      readers := (s.bucket bucket).readers.erase t }.setControl t (.returned (.location ⟨0, 0⟩))) := by
    simp only [Bucket.step, h.point, Bucket.State.act]
    rfl
  have h₁ := reach_act hr h.crowded.short (State.act_bucketStep h.control h.point hunlock)
  generalize hstate : Bucket.State.setControl _ t (.returned (.location ⟨0, 0⟩)) = state at h₁ hunlock
  have hreturned : state.control t = .returned (.location ⟨0, 0⟩) := hstate ▸ update_self ..
  have hblocks : state.inner.blocks = (s.bucket bucket).inner.blocks := hstate ▸ rfl
  have hself : (s.setBucket bucket state).bucket bucket = state := update_self ..
  have hshort₁ : (s.setBucket bucket state).Short := h.crowded.short.setBucket hblocks
  have h₂ := reach_act h₁ hshort₁ (State.act_located h.control (hself.symm ▸ hreturned))
  have hshort₂ : ((s.setBucket bucket state).setBucket bucket
      (((s.setBucket bucket state).bucket bucket).setControl t .idle)).Short := hshort₁.setBucket rfl
  have hoccupy : Header.step .debug (s.header ⟨bucket, ⟨0, 0⟩⟩) (.call t .occupy) =
      some ((s.header ⟨bucket, ⟨0, 0⟩⟩).setControl t (.running .occupyFetchOr)) := by
    simp only [Header.step, h.header, if_true]
    rfl
  have h₃ := reach_act h₂ hshort₂ (State.act_place (State.setControl_self ..) hoccupy)
  generalize hplaced : State.setControl _ t (.header (.occupy ⟨bucket, ⟨0, 0⟩⟩ element)) = s₃ at h₃
  have hcontrol : s₃.control t = .header (.occupy ⟨bucket, ⟨0, 0⟩⟩ element) := hplaced ▸ State.setControl_self ..
  have hheader : s₃.header ⟨bucket, ⟨0, 0⟩⟩ =
      (s.header ⟨bucket, ⟨0, 0⟩⟩).setControl t (.running .occupyFetchOr) := by
    rw [← hplaced, State.setControl_header, State.setHeader_header, update_self]
  have hshort₃ : s₃.Short := by
    rw [← hplaced]
    exact hshort₂
  have hpoint : (s₃.header ⟨bucket, ⟨0, 0⟩⟩).control t = .running .occupyFetchOr := by
    rw [hheader]
    exact update_self ..
  have hoccupied : isOccupied (s₃.header ⟨bucket, ⟨0, 0⟩⟩).word = true := by
    rw [hheader]
    exact h.crowded.occupied
  obtain ⟨s', hact, hbucket, hfault⟩ := act_occupies hcontrol hpoint hoccupied
  refine ⟨s', reach_act h₃ hshort₃ hact, ?_, hfault⟩
  unfold State.Short
  rw [hbucket]
  exact hshort₃

/-! ## All the threads -/

omit [DecidableEq T] in
theorem Crowded.mono {waiting' : T → Prop} (h : Crowded s bucket waiting next) (hsub : ∀ t, waiting' t → waiting t) :
    Crowded s bucket waiting' next where
  short := h.short
  erasures := h.erasures
  inner := h.inner
  writer := h.writer
  occupied := h.occupied
  control t ht := h.control t (hsub t ht)
  calm t ht := h.calm t (hsub t ht)
  header t ht := h.header t (hsub t ht)
  draws t ht := h.draws t (hsub t ht)

/-- The generator of a thread is its own. -/
theorem Move.generator_ne {build : Build} {e : Event T E} (hm : Move build s e s') {u : T} (hu : u ≠ e.thread) :
    s'.generator u = s.generator u := by
  cases hm with
  | draw | elsewhere => exact update_of_ne hu ..
  | @resume t _ frame result header control _ _ _ hres => cases frame <;> cases result <;> rfl
  | @bucketFault t _ frame fault bucket _ _ _ => cases frame <;> rfl
  | _ => rfl

/-- One thread more than the counter of a bucket has values. -/
abbrev Crowd := Fin (2 ^ 32 + 1)

/-- The first thread moves, and wraps no counter around. -/
def First (s : State Crowd Bool) (e : Event Crowd Bool) : Prop :=
  (s.NoWrap e ∧ s.Short ∧ e.thread = 0) ∧ Allowed s e

instance (s : State Crowd Bool) (e : Event Crowd Bool) : Decidable (First s e) :=
  inferInstanceAs (Decidable (_ ∧ _))

/-- The first thread of the crowd alone. -/
abbrev firstMachine : Transition.System (State Crowd Bool) (Event Crowd Bool) :=
  .ofFn (· = .init 0 fun _ => 0) (step .debug) First

theorem first_reachable {s : State Crowd Bool} (h : firstMachine.Reachable s) :
    (shortMachine Crowd Bool).Reachable s ∧ ((machine .debug Crowd Bool).restrict State.NoWrap).Reachable s ∧
      ∀ u ≠ 0, s.control u = .idle ∧ s.generator u = 0 := by
  induction h with
  | init h =>
    subst h
    exact ⟨.init ⟨0, _, rfl⟩, .init ⟨0, _, rfl⟩, fun _ _ => ⟨rfl, rfl⟩⟩
  | @step s s' e _ hstep ih =>
    obtain ⟨⟨⟨hwrap, hshort, hfirst⟩, ha⟩, hstep⟩ := hstep
    obtain ⟨hs, hs', hothers⟩ := ih
    have hm := Move.of_step hstep
    refine ⟨.step hs ⟨hshort, ha, hstep⟩, .step hs' ⟨hwrap, ha, hstep⟩, fun u hu => ?_⟩
    rw [← hfirst] at hu
    rw [hm.control_ne hu, hm.generator_ne hu]
    exact hothers u (hfirst ▸ hu)

/-- The first thread has inserted an element, and the others have not done anything. -/
theorem exists_inserted :
    ∃ s : State Crowd Bool, (shortMachine Crowd Bool).Reachable s ∧ Crowded s 9 (fun t => 0 < t.val) 1 := by
  have hinserted : ∃ s, firstMachine.Reachable s ∧ decide (s.Short ∧ s.erasures.length = 0 ∧
      (s.bucket 9).inner.blocks = [1] ∧ (s.bucket 9).inner.nextUnusedSlot = 1 ∧ (s.bucket 9).writer = none ∧
      isOccupied (s.header ⟨9, ⟨0, 0⟩⟩).word = true) = true := by
    refine @Transition.System.exists_reachable _ _ (· = .init 0 fun _ => 0) (step .debug) First _ _ rfl
      (wholeCall 0 (.insert true) 13) _ ?_
    decide +kernel
  obtain ⟨s, hr, hp⟩ := hinserted
  obtain ⟨hshort, herasures, hblocks, hnext, hwriter, hoccupied⟩ := of_decide_eq_true hp
  obtain ⟨hs, hs', hothers⟩ := first_reachable hr
  have hlinked := (sound_of_reachable hs').linked
  have hidle : ∀ t : Crowd, 0 < t.val → s.control t = .idle ∧ s.generator t = 0 :=
    fun t ht => hothers t fun he => by rw [he] at ht; exact absurd ht (lt_irrefl 0)
  refine ⟨s, hs, hshort, List.length_eq_zero_iff.1 herasures, ?_, hwriter, hoccupied, fun t ht => (hidle t ht).1,
    fun t ht => ?_, fun t ht => ?_, fun t ht => ?_⟩
  · rw [← hblocks, ← hnext]
  · refine hlinked.calm t 9 fun frame hc => ?_
    rw [(hidle t ht).1] at hc
    cases hc
  · refine hlinked.idle t _ fun frame hc => ?_
    rw [(hidle t ht).1] at hc
    cases hc
  · rw [(hidle t ht).2]
    decide

/-- Thread after thread finds the slot taken. -/
theorem exists_crowded : ∀ n ≤ 2 ^ 32 - 1, ∃ s : State Crowd Bool, (shortMachine Crowd Bool).Reachable s ∧
    Crowded s 9 (fun t => n < t.val) (UInt32.ofNat (n + 1)) := by
  intro n
  induction n with
  | zero => exact fun _ => exists_inserted
  | succ n ih =>
    intro hn
    obtain ⟨s, hr, hs⟩ := ih (by omega)
    obtain ⟨s', hr', hs'⟩ := hs.fetch hr (t := ⟨n + 1, by omega⟩) (Nat.lt_succ_self n) true
    have hnext : UInt32.ofNat (n + 1) + 1 = UInt32.ofNat (n + 1 + 1) := (UInt32.ofNat_add (n + 1) 1).symm
    rw [hnext] at hs'
    refine ⟨s', hr', hs'.crowded.mono fun t ht => ⟨Nat.lt_of_succ_lt ht, ?_⟩⟩
    rintro rfl
    exact absurd ht (lt_irrefl _)

/-- The thread after them is handed a slot with an element in it. -/
theorem exists_overwritten : ∃ s : State Crowd Bool, (shortMachine Crowd Bool).Reachable s ∧ s.Short ∧
    ∃ address t, (s.header address).control t = .faulted (.assertion "attempted to occupy occupied header") := by
  obtain ⟨s, hr, hs⟩ := exists_crowded (2 ^ 32 - 1) (le_refl _)
  have hzero : UInt32.ofNat (2 ^ 32 - 1 + 1) = 0 := by decide
  rw [hzero] at hs
  have hlast : 2 ^ 32 - 1 < (Fin.last (2 ^ 32)).val := by
    rw [Fin.val_last]
    omega
  obtain ⟨s', hr', hs'⟩ := hs.fetch hr hlast true
  obtain ⟨s'', hr'', hshort, hfault⟩ := hs'.overwrites hr'
  exact ⟨s'', hr'', hshort, _, _, hfault⟩

end ReadWriteStore.Store

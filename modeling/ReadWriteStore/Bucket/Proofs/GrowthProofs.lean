import ReadWriteStore.Bucket.Proofs.HandoutProofs

/-!
# Growth neither repeats nor skips a slot

In a run with few enough calls in flight no `fetch_add` wraps around: the counter exceeds the head by
the calls that have found it full. So the invariant of the bucket holds throughout, and the counter
tells what has been handed out.
-/

namespace ReadWriteStore.Bucket

open Transition (tally tally_apply_update)

variable {T : Type} [DecidableEq T] {build : Build} {s s' : State T} {e : Event T}

/-! ## Steps -/

/-- A step hands out at most one slot, to its own thread. -/
theorem State.Inv.hands (h : s.Inv build) (hg : s.Guarded) (hwrap : ¬s.Wraps e.thread)
    (hm : Move build s e s') : Hands s s' e.thread := by
  cases e with
  | act t => exact (h.act hg hwrap hm).2.hands fun u hu => hm.control_ne hu
  | call t c =>
    cases hm with
    | call hc =>
      refine ⟨fun l hl => hl, fun l hl => Or.inl hl, fun u hu => Function.update_of_ne hu _ _, fun l hl => ?_⟩
      have hself : (s.setControl t (start c)).control (Event.call t c).thread = start c :=
        State.setControl_self ..
      rw [hself] at hl
      cases c <;> cases hl
  | ret t =>
    cases hm with
    | ret hc =>
      refine ⟨fun l hl => hl, fun l hl => Or.inl hl, fun u hu => Function.update_of_ne hu _ _, fun l hl => ?_⟩
      have hself : (s.setControl t .idle).control (Event.ret t).thread = .idle :=
        State.setControl_self ..
      rw [hself] at hl
      cases hl

/-- Only a growth changes the chain. -/
theorem Move.blocks_cases (hm : Move build s e s') :
    s'.inner.blocks = s.inner.blocks ∨ s.control e.thread = .running .expand := by
  cases hm with
  | fetch hc hf =>
    left
    show (s.inner.nextInsertLocation build).1.blocks = _
    unfold Inner.nextInsertLocation
    split <;> rfl
  | expand hc => exact Or.inr hc
  | _ => exact Or.inl rfl

/-- A thread about to grow the chain does so. -/
theorem Move.of_expand (hm : Move build s e s') (hc : s.control e.thread = .running .expand) :
    s'.inner = (s.inner.expand build).1 ∧
      s'.control e.thread = afterExpand (s.inner.expand build).2 := by
  have he := hm.eq_act hc
  rw [he] at hm
  cases hm with
  | expand hc' => exact ⟨rfl, State.setControl_self ..⟩
  | lockRead hc' hpoint hfree =>
    rcases hpoint with ⟨rfl, -⟩ | ⟨rfl, -⟩
    · cases hc'.symm.trans hc
    · cases hc'.symm.trans hc
  | fetch hc' hf =>
    cases hc'.symm.trans hc
    exact absurd hf not_false
  | unlockRead hc' => cases hc'.symm.trans hc
  | lockWrite hc' hfree hnone => cases hc'.symm.trans hc
  | unlockWrite hc' => cases hc'.symm.trans hc
  | load hc' => cases hc'.symm.trans hc
  | compute hc' => cases hc'.symm.trans hc

omit [DecidableEq T] in
theorem init_not_handedOut (location : Location) : ¬(State.init : State T).inner.HandedOut location := by
  rintro ⟨⟨len, hlen, -⟩, -⟩
  cases hlen

/-- A bucket whose steps do not wrap the counter around. -/
structure State.Good (build : Build) (s : State T) : Prop where
  guarded : s.Guarded
  inv : s.Inv build

theorem State.Good.init : (State.init : State T).Good build := ⟨.init, .init⟩

theorem State.Good.move (h : s.Good build) (hwrap : ¬s.Wraps e.thread) (hm : Move build s e s') :
    s'.Good build :=
  ⟨h.guarded.move hm, h.inv.move h.guarded hwrap hm⟩

/-- A growth adds a head, or panics and changes nothing. -/
theorem State.Good.blocks (h : s.Good build) (hm : Move build s e s') :
    s'.inner.blocks = s.inner.blocks ∨
      s.control e.thread = .running .expand ∧ s.inner.headSize ≤ s.inner.nextUnusedSlot ∧
        s'.inner.blocks = UInt32.ofNat (2 ^ s.inner.blocks.length) :: s.inner.blocks := by
  rcases hm.blocks_cases with hsame | hc
  · exact Or.inl hsame
  · obtain ⟨hinner, -⟩ := hm.of_expand hc
    have hfull := h.inv.running hc
    have hexp := Inner.expanded h.inv.chain hfull
    rw [hinner]
    generalize s.inner.expand build = r at hexp
    cases hexp with
    | grown hchain hnext hblocks hout => exact Or.inr ⟨hc, hfull, hblocks⟩
    | panicked hbuild hlen => exact Or.inl rfl

/-- Steps that do not wrap the counter around, as a sequence that hands out slots. -/
theorem handouts_of_moves {n : ℕ} {state : ℕ → State T} {event : ℕ → Event T}
    (hinit : state 0 = State.init) (hgood : ∀ k ≤ n, (state k).Good build)
    (hwrap : ∀ k < n, ¬(state k).Wraps (event k).thread)
    (hmove : ∀ k < n, Move build (state k) (event k) (state (k + 1))) :
    Handouts n state fun k => (event k).thread where
  init location := by
    rw [hinit]
    exact init_not_handedOut location
  located k hk := (hgood k hk).inv.located
  step k hk := (hgood k (by omega)).inv.hands (hgood k (by omega)).guarded (hwrap k hk) (hmove k hk)

/-- A slot of the chain that is not in the head has been handed out, and every slot if the head is
full. -/
theorem Inner.handedOut_of_mem {inner : Inner} (hd : Doubling inner.blocks) {location : Location}
    (h : location ∈ inner.locations)
    (hfull : location.block + 1 = inner.blocks.length → inner.headSize ≤ inner.nextUnusedSlot) :
    inner.HandedOut location := by
  have hc := mem_locations.1 h
  refine ⟨hc, fun hb => ?_⟩
  obtain ⟨blocks, n⟩ := inner
  cases blocks with
  | nil => cases hb
  | cons len older =>
    have hblock : location.block = older.length := by simpa using hb
    obtain ⟨len', hlen, hlt⟩ := hc
    rw [hblock, blockLen_head] at hlen
    cases hlen
    obtain ⟨slot, hslot, hp⟩ := physicalSlot_surj (hd.head hlt) hlt
    exact ⟨slot, UInt32.lt_of_lt_of_le hslot (hfull hb), hslot, hp⟩

/-! ## From the carrier to the caller -/

/-- A thread that carries a location inside its call returns it. -/
theorem Move.returns {point : Point} {location : Location} (hm : Move build s e s')
    (hc : s.control e.thread = .running point) (hl : (Control.running point).location = some location) :
    s'.control e.thread = .returned (.location location) := by
  have he := hm.eq_act hc
  rw [he] at hm
  cases hm with
  | lockRead hc' hpoint hfree =>
    rcases hpoint with ⟨rfl, -⟩ | ⟨rfl, -⟩
    · cases hc'.symm.trans hc
      cases hl
    · cases hc'.symm.trans hc
      cases hl
  | @fetch t point' hc' hf =>
    cases hc'.symm.trans hc
    cases point with
    | fetch | slowFetch | refetch => cases hl
    | _ => exact absurd hf not_false
  | @unlockRead t result hc' =>
    cases hc'.symm.trans hc
    rcases result with fault | _ | location'
    · cases hl
    · cases hl
    · cases hl
      exact State.setControl_self ..
  | @unlockWrite t result hc' =>
    cases hc'.symm.trans hc
    rcases result with fault | location'
    · cases hl
    · cases hl
      exact State.setControl_self ..
  | lockWrite hc' | expand hc' | load hc' | compute hc' =>
    cases hc'.symm.trans hc
    cases hl

section Returned

variable {n k : ℕ} {state : ℕ → State T} {event : ℕ → Event T} {location : Location}

omit [DecidableEq T] in
theorem Returned.mono {j : ℕ} (h : Returned state k location) (hkj : k ≤ j) : Returned state j location := by
  obtain ⟨i, hi, t, ht⟩ := h
  exact ⟨i, by omega, t, ht⟩

omit [DecidableEq T] in
theorem Returned.taken (h : Returned state k location) : Taken state k location := by
  obtain ⟨i, hi, t, ht⟩ := h
  exact ⟨i, hi, t, by rw [ht]; rfl⟩

/-- A location that has been taken has been returned, or its thread is still inside the call. -/
theorem returned_of_taken
    (hmove : ∀ k < n, Move build (state k) (event k) (state (k + 1))) (hk : k ≤ n)
    (h : Taken state k location) : Returned state k location ∨
      ∃ t point, (state k).control t = .running point ∧ (Control.running point).location = some location := by
  have hnow : ∀ j t, ((state j).control t).location = some location → Returned state j location ∨
      ∃ t point, (state j).control t = .running point ∧ (Control.running point).location = some location := by
    intro j t ht
    cases hc : (state j).control t with
    | running point =>
      rw [hc] at ht
      exact Or.inr ⟨t, point, hc, ht⟩
    | returned result =>
      rw [hc] at ht
      cases result with
      | location other =>
        cases ht
        exact Or.inl ⟨j, Nat.le_refl _, t, hc⟩
      | capacity touched allocated => cases ht
    | idle | faulted fault =>
      rw [hc] at ht
      cases ht
  induction k with
  | zero =>
    obtain ⟨i, hi, t, ht⟩ := h
    obtain rfl : i = 0 := by omega
    exact hnow 0 t ht
  | succ k ih =>
    obtain ⟨i, hi, t, ht⟩ := h
    rcases Nat.lt_or_ge k i with hlt | hge
    · obtain rfl : i = k + 1 := by omega
      exact hnow (k + 1) t ht
    · rcases ih (by omega) ⟨i, hge, t, ht⟩ with hreturned | ⟨u, point, hc, hl⟩
      · exact Or.inl (hreturned.mono (Nat.le_succ k))
      · have hm := hmove k (by omega)
        by_cases hu : u = (event k).thread
        · subst hu
          exact Or.inl ⟨k + 1, Nat.le_refl _, _, hm.returns hc hl⟩
        · exact Or.inr ⟨u, point, by rw [hm.control_ne hu]; exact hc, hl⟩

end Returned

omit [DecidableEq T] in
/-- A location is carried under the lock. -/
theorem Control.locked_of_location {point : Point} {location : Location}
    (h : (Control.running point).location = some location) :
    (Control.running point).reading = true ∨ (Control.running point).writing = true := by
  cases point with
  | unlockRead => exact Or.inl rfl
  | unlockWrite => exact Or.inr rfl
  | _ => cases h

/-- Nobody carries a location while a thread grows the chain. -/
theorem State.Guarded.no_carrier (h : s.Guarded) {t u : T} {point : Point} {location : Location}
    (ht : s.control t = .running .expand) (hu : s.control u = .running point) :
    (Control.running point).location ≠ some location := by
  intro hl
  have hwriting : (s.control t).writing = true := by rw [ht]; rfl
  rcases Control.locked_of_location hl with hreading | hwriting'
  · rw [← hu, h.not_reading hwriting] at hreading
    cases hreading
  · rw [← hu] at hwriting'
    obtain rfl := h.writer_unique hwriting hwriting'
    rw [ht] at hu
    cases hu
    cases hl

/-! ## How far the counter exceeds the head -/

/-- How often the thread has found the head full since it entered its call. -/
def Control.excess : Control → ℕ
  | .running (.unlockRead (.ok none)) | .running .lockWrite | .running .slowFetch => 1
  | .running .expand => 2
  | _ => 0

variable [Fintype T]

def State.excess (s : State T) : ℕ := tally fun t => (s.control t).excess

theorem State.excess_setControl (s : State T) (t : T) (control : Control) :
    (s.setControl t control).excess + (s.control t).excess = s.excess + control.excess :=
  tally_apply_update Control.excess s.control t control

theorem State.inFlight_setControl (s : State T) (t : T) (control : Control) :
    (s.setControl t control).inFlight + (if (s.control t).inserting then 1 else 0) =
      s.inFlight + (if control.inserting then 1 else 0) :=
  tally_apply_update (fun c : Control => if c.inserting then 1 else 0) s.control t control

omit [DecidableEq T] in
/-- While nobody grows the chain, each call in flight accounts for one at most. -/
theorem State.excess_le (s : State T) (h : ∀ t, s.control t ≠ .running .expand) :
    s.excess ≤ s.inFlight := by
  unfold State.excess State.inFlight tally
  refine Finset.sum_le_sum fun t _ => ?_
  have hne := h t
  cases hc : s.control t with
  | running point =>
    rw [hc] at hne
    cases point with
    | expand => exact absurd rfl hne
    | unlockRead location => rcases location with fault | _ | location <;> simp [Control.excess, Control.inserting]
    | _ => simp [Control.excess, Control.inserting]
  | _ => simp [Control.excess]

/-- A call in flight that accounts for nothing leaves room. -/
theorem State.excess_lt (s : State T) (h : ∀ t, s.control t ≠ .running .expand) {t : T}
    (hin : (s.control t).inserting = true) (hnone : (s.control t).excess = 0) :
    s.excess + 1 ≤ s.inFlight := by
  have hidle := s.excess_setControl t .idle
  have hle := State.excess_le (s.setControl t .idle) fun u => by
    by_cases hu : u = t
    · subst hu
      simp [State.setControl]
    · simpa [State.setControl, hu] using h u
  have hflight := s.inFlight_setControl t .idle
  have hzero : Control.idle.excess = 0 := rfl
  have hout : Control.idle.inserting = false := rfl
  rw [hin, hout] at hflight
  rw [hnone, hzero] at hidle
  simp only [if_true, Bool.false_eq_true, if_false] at hflight
  omega

/-- The counter is at most the head and the calls that have found it full; it is 0 only before the
first block, and under the write lock just after a growth. No growth has failed. -/
structure State.Counted (s : State T) : Prop where
  le : s.inner.nextUnusedSlot.toNat ≤ s.inner.headSize.toNat + s.excess
  pos : s.inner.blocks ≠ [] → s.inner.nextUnusedSlot = 0 → ∃ t, s.control t = .running .refetch
  short : s.inner.blocks.length ≤ 31
  sound : ∀ t fault, s.control t ≠ .running (.unlockWrite (.error fault))

namespace State.Counted

omit [DecidableEq T] in
theorem init : (State.init : State T).Counted where
  le := Nat.zero_le _
  pos h := absurd rfl h
  short := Nat.zero_le _
  sound t fault h := by cases h

omit [DecidableEq T] in
theorem head_toNat (h : s.Counted) (hd : Doubling s.inner.blocks) (hne : s.inner.blocks ≠ []) :
    s.inner.headSize.toNat = 2 ^ (s.inner.blocks.length - 1) := by
  have hshort := h.short
  unfold Inner.headSize
  generalize s.inner.blocks = blocks at hd hne hshort
  cases blocks with
  | nil => exact absurd rfl hne
  | cons len older =>
    rw [List.length_cons] at hshort
    exact Bucket.head_toNat hd (by omega)

/-- With few enough calls in flight the counter is below its maximum when a thread adds to it. -/
theorem not_wraps (h : s.Counted) (hg : s.Good build) (hsmall : s.Small) (t : T) : ¬s.Wraps t := by
  unfold State.Wraps
  intro hw
  cases hc : s.control t with
  | running point =>
    rw [hc] at hw
    obtain ⟨hf, -, hmax⟩ := hw
    have hle := h.le
    rw [hmax] at hle
    have hmax' : (0xFFFFFFFF : UInt32).toNat = 2 ^ 32 - 1 := rfl
    rw [hmax'] at hle
    obtain ⟨hflight, hhead⟩ := hsmall
    have hok := hg.inv.running hc
    cases point with
    | fetch =>
      have hnone : ∀ u, s.control u ≠ .running .expand := by
        intro u hu
        have := hg.guarded.not_reading (t := u) (u := t) (by rw [hu]; rfl)
        rw [hc] at this
        cases this
      have := s.excess_lt hnone (t := t) (by rw [hc]; rfl) (by rw [hc]; rfl)
      omega
    | slowFetch =>
      have hnone : ∀ u, s.control u ≠ .running .expand := by
        intro u hu
        have := hg.guarded.writer_unique (t := t) (u := u) (by rw [hc]; rfl) (by rw [hu]; rfl)
        rw [this, hc] at hu
        cases hu
      have := s.excess_le hnone
      omega
    | refetch =>
      rw [hok.2] at hmax
      cases hmax
    | _ => exact absurd hf not_false
  | _ =>
    rw [hc] at hw
    exact hw

/-- A step that leaves the chain and the counter alone. -/
theorem keep (h : s.Counted) {t : T} {control : Control} (readers : List T) (writer : Option T)
    (hle : (s.control t).excess ≤ control.excess) (hrefetch : s.control t ≠ .running .refetch)
    (hsound : ∀ fault, control ≠ .running (.unlockWrite (.error fault))) :
    ({ s with readers := readers, writer := writer }.setControl t control).Counted where
  le := by
    have hset := State.excess_setControl { s with readers := readers, writer := writer } t control
    have hsame : ({ s with readers := readers, writer := writer } : State T).excess = s.excess := rfl
    have hcontrol : ({ s with readers := readers, writer := writer } : State T).control t = s.control t :=
      rfl
    rw [hsame, hcontrol] at hset
    have := h.le
    show s.inner.nextUnusedSlot.toNat ≤ s.inner.headSize.toNat + _
    omega
  pos hne hzero := by
    obtain ⟨u, hu⟩ := h.pos hne hzero
    refine ⟨u, ?_⟩
    have hut : u ≠ t := by
      rintro rfl
      exact hrefetch hu
    simpa [State.setControl, hut] using hu
  short := h.short
  sound u fault := by
    by_cases hu : u = t
    · subst hu
      simpa [State.setControl] using hsound fault
    · simpa [State.setControl, hu] using h.sound u fault

/-- A step on the counter. -/
theorem count (h : s.Counted) {t : T} {control : Control} {inner : Inner}
    (hblocks : inner.blocks = s.inner.blocks)
    (hle : inner.nextUnusedSlot.toNat ≤ inner.headSize.toNat ∨
      inner.nextUnusedSlot.toNat + (s.control t).excess ≤ s.inner.nextUnusedSlot.toNat + control.excess)
    (hpos : inner.blocks ≠ [] → inner.nextUnusedSlot ≠ 0)
    (hsound : ∀ fault, control ≠ .running (.unlockWrite (.error fault))) :
    ({ s with inner := inner }.setControl t control).Counted where
  le := by
    have hset := State.excess_setControl { s with inner := inner } t control
    have hsame : ({ s with inner := inner } : State T).excess = s.excess := rfl
    have hcontrol : ({ s with inner := inner } : State T).control t = s.control t := rfl
    rw [hsame, hcontrol] at hset
    have hold := h.le
    have hhead : inner.headSize = s.inner.headSize := by
      unfold Inner.headSize
      rw [hblocks]
    show inner.nextUnusedSlot.toNat ≤ inner.headSize.toNat + _
    rw [hhead] at hle ⊢
    omega
  pos hne hzero := absurd hzero (hpos hne)
  short := by
    show inner.blocks.length ≤ 31
    rw [hblocks]
    exact h.short
  sound u fault := by
    by_cases hu : u = t
    · subst hu
      simpa [State.setControl] using hsound fault
    · simpa [State.setControl, hu] using h.sound u fault

end State.Counted

/-- A `fetch_add` on a chain without a head, with room in the head, and with a full head. -/
theorem Inner.nextInsertLocation_cases (build : Build) {inner : Inner} (hd : Doubling inner.blocks) :
    inner.blocks = [] ∧ inner.nextInsertLocation build = (inner, .ok none) ∨
    (inner.blocks ≠ [] ∧ inner.nextUnusedSlot < inner.headSize ∧ ∃ location,
      inner.nextInsertLocation build =
        ({ inner with nextUnusedSlot := inner.nextUnusedSlot + 1 }, .ok (some location))) ∨
    (inner.blocks ≠ [] ∧ inner.headSize ≤ inner.nextUnusedSlot ∧
      inner.nextInsertLocation build =
        ({ inner with nextUnusedSlot := inner.nextUnusedSlot + 1 }, .ok none)) := by
  obtain ⟨blocks, n⟩ := inner
  cases blocks with
  | nil => exact Or.inl ⟨rfl, rfl⟩
  | cons len older =>
    right
    unfold nextInsertLocation
    by_cases hlt : n < len
    · left
      refine ⟨List.cons_ne_nil _ _, hlt, ⟨older.length, physicalSlot len n⟩, ?_⟩
      simp only [if_pos hlt, slotAddress_eq build older.length (hd.head hlt)]
      rfl
    · right
      refine ⟨List.cons_ne_nil _ _, UInt32.not_lt.1 hlt, ?_⟩
      simp only [if_neg hlt]

theorem succ_toNat {n : UInt32} (h : n ≠ 0xFFFFFFFF) : (n + 1).toNat = n.toNat + 1 := by
  have hlt := n.toNat_lt
  have hne : n.toNat ≠ 2 ^ 32 - 1 := fun he => h (UInt32.toNat_inj.1 he)
  rw [UInt32.toNat_add]
  show (n.toNat + 1) % 2 ^ 32 = _
  omega

theorem succ_ne_zero {n : UInt32} (h : n ≠ 0xFFFFFFFF) : n + 1 ≠ 0 := by
  intro he
  have := congrArg UInt32.toNat he
  rw [succ_toNat h] at this
  cases this

theorem State.Counted.fetch (h : s.Counted) (hg : s.Good build) {t : T} {point : Point}
    (hc : s.control t = .running point) (hf : point.Fetches) (hwrap : ¬s.Wraps t) :
    ({ s with inner := (s.inner.nextInsertLocation build).1 }.setControl t
      (point.afterFetch (s.inner.nextInsertLocation build).2)).Counted := by
  have hno : s.inner.blocks ≠ [] → s.inner.nextUnusedSlot ≠ 0xFFFFFFFF := by
    intro hne hmax
    refine hwrap ?_
    unfold State.Wraps
    rw [hc]
    exact ⟨hf, hne, hmax⟩
  have hd := hg.inv.chain.1
  have hok := hg.inv.running hc
  have hhead := h.head_toNat hd
  rcases Inner.nextInsertLocation_cases build hd with
    ⟨hnil, he⟩ | ⟨hne, hlt, location, he⟩ | ⟨hne, hle, he⟩
  · rw [he]
    refine h.count rfl (Or.inr ?_) (fun hb => absurd hnil hb) ?_
    · rw [hc]
      cases point with
      | fetch => exact Nat.add_le_add_left (Nat.zero_le 1) _
      | slowFetch => exact Nat.add_le_add_left (Nat.le_succ 1) _
      | refetch => exact absurd hnil hok.1
      | _ => exact absurd hf not_false
    · intro fault
      cases point with
      | fetch => intro he'; cases he'
      | slowFetch => intro he'; cases he'
      | refetch => exact absurd hnil hok.1
      | _ => exact absurd hf not_false
  · rw [he]
    refine h.count rfl (Or.inl ?_) (fun _ => succ_ne_zero (hno hne)) ?_
    · rw [succ_toNat (hno hne)]
      exact UInt32.lt_iff_toNat_lt.1 hlt
    · intro fault he'
      cases point with
      | fetch => cases he'
      | slowFetch => cases he'
      | refetch => cases he'
      | _ => exact absurd hf not_false
  · rw [he]
    -- after a growth the head has a slot
    have hroom : point ≠ .refetch := by
      rintro rfl
      have hzero := hok.2
      rw [hzero, UInt32.le_iff_toNat_le, hhead hne] at hle
      have := Nat.two_pow_pos (s.inner.blocks.length - 1)
      have hz : (0 : UInt32).toNat = 0 := rfl
      omega
    refine h.count rfl (Or.inr ?_) (fun _ => succ_ne_zero (hno hne)) ?_
    · rw [succ_toNat (hno hne), hc]
      cases point with
      | fetch => show _ + 1 + 0 ≤ _ + 1; omega
      | slowFetch => show _ + 1 + 1 ≤ _ + 2; omega
      | refetch => exact absurd rfl hroom
      | _ => exact absurd hf not_false
    · intro fault he'
      cases point with
      | fetch => cases he'
      | slowFetch => cases he'
      | refetch => exact hroom rfl
      | _ => exact absurd hf not_false

/-- A growth to a head of fewer than `2 ^ 31` slots. -/
theorem State.Counted.expand (h : s.Counted) (hg : s.Good build) {t : T}
    (hc : s.control t = .running .expand)
    (hhead : (s.inner.expand build).1.headSize.toNat < 2 ^ 31) :
    ({ s with inner := (s.inner.expand build).1 }.setControl t
      (afterExpand (s.inner.expand build).2)).Counted := by
  have hshort := h.short
  have hexp := Inner.expanded hg.inv.chain (hg.inv.running hc)
  generalize s.inner.expand build = r at hexp hhead
  cases hexp with
  | panicked hbuild hlen => omega
  | @grown inner' hchain hnext hblocks hout =>
    have hlen : s.inner.blocks.length ≤ 30 := by
      have hsize : inner'.headSize = UInt32.ofNat (2 ^ s.inner.blocks.length) := by
        unfold Inner.headSize
        rw [hblocks]
        rfl
      by_contra hn
      obtain hlen : s.inner.blocks.length = 31 := by omega
      rw [hsize, hlen] at hhead
      revert hhead
      decide
    constructor
    · show inner'.nextUnusedSlot.toNat ≤ _
      rw [hnext]
      exact Nat.zero_le _
    · intro _ _
      exact ⟨t, State.setControl_self ..⟩
    · show inner'.blocks.length ≤ 31
      rw [hblocks, List.length_cons]
      omega
    · intro u fault
      by_cases hu : u = t
      · subst hu
        simp [State.setControl, afterExpand]
      · simpa [State.setControl, hu] using h.sound u fault

theorem afterFetch_sound (location : Checked (Option Location)) (fault : Fault) :
    afterFetch location ≠ .running (.unlockWrite (.error fault)) := by
  intro h
  rcases location with fault' | _ | location <;> cases h

theorem State.Counted.move (h : s.Counted) (hg : s.Good build) (hwrap : ¬s.Wraps e.thread)
    (hm : Move build s e s') (hhead : s'.inner.headSize.toNat < 2 ^ 31) : s'.Counted := by
  cases hm with
  | @call t c hc =>
    refine h.keep s.readers s.writer ?_ (by rw [hc]; intro he; cases he) fun fault he => ?_
    · rw [hc]
      exact Nat.zero_le _
    · cases c <;> cases he
  | lockRead hc hpoint hfree =>
    rcases hpoint with ⟨rfl, rfl⟩ | ⟨rfl, rfl⟩
    · refine h.keep _ s.writer ?_ (by rw [hc]; intro he; cases he) fun fault he => by cases he
      rw [hc]
      exact Nat.zero_le _
    · refine h.keep _ s.writer ?_ (by rw [hc]; intro he; cases he) fun fault he => by cases he
      rw [hc]
      exact Nat.zero_le _
  | fetch hc hf => exact h.fetch hg hc hf hwrap
  | @unlockRead t location hc =>
    have hok := hg.inv.running hc
    refine h.keep _ s.writer ?_ (by rw [hc]; intro he; cases he) (afterFetch_sound location)
    rw [hc]
    rcases location with fault | _ | location
    · exact absurd hok not_false
    · exact le_refl _
    · exact le_refl _
  | lockWrite hc hfree hnone =>
    refine h.keep s.readers _ ?_ (by rw [hc]; intro he; cases he) fun fault he => by cases he
    rw [hc]
    exact le_refl _
  | expand hc => exact h.expand hg hc hhead
  | @unlockWrite t location hc =>
    refine h.keep s.readers _ ?_ (by rw [hc]; intro he; cases he) fun fault he => ?_
    · rw [hc]
      exact Nat.zero_le _
    · rcases location with fault' | location <;> cases he
  | load hc =>
    refine h.keep s.readers s.writer ?_ (by rw [hc]; intro he; cases he) fun fault he => by cases he
    rw [hc]
    exact Nat.zero_le _
  | @compute t headSize used hc =>
    refine h.keep _ s.writer ?_ (by rw [hc]; intro he; cases he) fun fault he => ?_
    · rw [hc]
      exact Nat.zero_le _
    · cases hcap : capacity build headSize used with
      | ok result => rw [hcap] at he; cases he
      | error fault' => rw [hcap] at he; cases he
  | @ret t hc =>
    have hrefetch : s.control t ≠ .running .refetch := by
      rcases hc with ⟨r, hc⟩ | ⟨fault, hc⟩
      · rw [hc]; intro he; cases he
      · rw [hc]; intro he; cases he
    refine h.keep s.readers s.writer ?_ hrefetch fun fault he => by cases he
    rcases hc with ⟨r, hc⟩ | ⟨fault, hc⟩
    · rw [hc]
      exact le_refl _
    · rw [hc]
      exact le_refl _

/-! ## Runs -/

omit [DecidableEq T] [Fintype T] in
/-- What has been taken, as a list. -/
theorem Handouts.ncard_taken {n : ℕ} {state : ℕ → State T} {thread : ℕ → T} (h : Handouts n state thread)
    {k : ℕ} (hk : k ≤ n) (hd : Doubling (state k).inner.blocks) :
    {location | Taken state k location}.ncard = (state k).inner.touched.length := by
  have hset : {location | Taken state k location} = ((state k).inner.touched.toFinset : Set Location) := by
    ext location
    rw [Set.mem_ofPred_eq, h.taken_iff hk, ← mem_touched hd]
    simp
  rw [hset, Set.ncard_coe_finset, List.toFinset_card_of_nodup (nodup_touched hd)]

omit [DecidableEq T] in
/-- With no call in flight the counter is at most the head. -/
theorem State.Counted.le_head (h : s.Counted) (hidle : ∀ t, (s.control t).inserting = false) :
    s.inner.nextUnusedSlot.toNat ≤ s.inner.headSize.toNat := by
  have hzero : s.excess = 0 := by
    have hnone : ∀ t, s.control t ≠ .running .expand := by
      intro t ht
      have := hidle t
      rw [ht] at this
      cases this
    have hle := s.excess_le hnone
    have hflight : s.inFlight = 0 := by
      refine (Transition.tally_eq_zero _).2 fun t => ?_
      rw [hidle t]
      rfl
    omega
  have := h.le
  omega

/-- With no call in flight less than half of the slots are still unused. -/
theorem State.Counted.quiescent (h : s.Counted) (hg : s.Good build)
    (hidle : ∀ t, (s.control t).inserting = false) (hpos : 1 ≤ s.inner.touched.length) :
    1 ≤ s.inner.nextUnusedSlot ∧ s.inner.nextUnusedSlot ≤ s.inner.headSize ∧
      s.inner.allocated < 2 * s.inner.touched.length := by
  have hd := hg.inv.chain.1
  have hle := h.le_head hidle
  have hshort := h.short
  have hzero := h.pos
  have hhead := h.head_toNat hd
  generalize s.inner = inner at hd hle hshort hzero hhead hpos
  obtain ⟨blocks, n⟩ := inner
  cases blocks with
  | nil => cases hpos
  | cons len older =>
    have hne : n ≠ 0 := by
      intro he
      obtain ⟨t, ht⟩ := hzero (List.cons_ne_nil _ _) he
      have := hidle t
      rw [ht] at this
      cases this
    have hn : n.toNat ≠ 0 := fun he => hne (UInt32.toNat_inj.1 he)
    have hlen : len.toNat = 2 ^ older.length := hhead (List.cons_ne_nil _ _)
    have hle' : n.toNat ≤ len.toNat := hle
    have hsum := sum_doubling hd.2 (by rw [List.length_cons] at hshort; omega)
    have htouched : (⟨len :: older, n⟩ : Inner).touched.length = n.toNat + (older.map UInt32.toNat).sum := by
      have hmin : min n len = n := UInt32.toNat_inj.1 (by rw [toNat_min]; exact Nat.min_eq_left hle')
      show (touchedFrom (len :: older) (min n len)).length = _
      rw [hmin, length_touchedFrom]
    refine ⟨?_, UInt32.le_iff_toNat_le.2 hle', ?_⟩
    · rw [UInt32.le_iff_toNat_le]
      show 1 ≤ n.toNat
      omega
    · rw [htouched]
      show len.toNat + (older.map UInt32.toNat).sum < _
      omega

omit [DecidableEq T] [Fintype T] in
/-- The blocks behind the head were full when the head was added. -/
theorem older_returned {n : ℕ} {state : ℕ → State T} (hinit : state 0 = State.init)
    (hfull : ∀ k < n, (state (k + 1)).inner.blocks ≠ (state k).inner.blocks →
      (∃ len, (state (k + 1)).inner.blocks = len :: (state k).inner.blocks) ∧
        ∀ location ∈ (state k).inner.locations, Returned state k location) :
    ∀ k ≤ n, ∀ location ∈ (state k).inner.locations,
      location.block + 1 < (state k).inner.blocks.length → Returned state k location := by
  intro k
  induction k with
  | zero =>
    intro _ location hmem
    rw [hinit] at hmem
    cases hmem
  | succ k ih =>
    intro hk location hmem hold
    by_cases hsame : (state (k + 1)).inner.blocks = (state k).inner.blocks
    · unfold Inner.locations at hmem
      rw [hsame] at hmem hold
      exact (ih (by omega) location hmem hold).mono (Nat.le_succ k)
    · obtain ⟨⟨len, hcons⟩, hreturned⟩ := hfull k hk hsame
      refine (hreturned location ?_).mono (Nat.le_succ k)
      have hcontains := Inner.mem_locations.1 hmem
      rw [hcons, List.length_cons] at hold
      rw [Inner.mem_locations]
      generalize (state (k + 1)).inner = inner' at hcons hcontains
      obtain ⟨blocks, next⟩ := inner'
      obtain rfl : blocks = len :: (state k).inner.blocks := hcons
      refine ((Inner.contains_cons (state k).inner.nextUnusedSlot).1 hcontains).resolve_left fun h => ?_
      have := h.1
      omega

omit [DecidableEq T] [Fintype T] in
theorem Control.inserting_of_location {point : Point} {location : Location}
    (h : (Control.running point).location = some location) : (Control.running point).inserting = true := by
  cases point with
  | unlockRead | unlockWrite => rfl
  | _ => cases h

/-- With fewer than `2 ^ 31` calls in flight and heads of fewer than `2 ^ 31` slots, growth neither
repeats nor skips a slot. -/
theorem growth (build : Build) (T : Type) [DecidableEq T] [Fintype T] (n : ℕ) (state : ℕ → State T)
    (event : ℕ → Event T) (h : (machine build T).Run n state event) (hsmall : ∀ k ≤ n, (state k).Small) :
    Growth n state event := by
  have hmove : ∀ k < n, Move build (state k) (event k) (state (k + 1)) := fun k hk =>
    Move.of_step (h.step k hk).2
  have hinit : state 0 = State.init := h.init
  have hall : ∀ k ≤ n, (state k).Good build ∧ (state k).Counted := by
    intro k
    induction k with
    | zero =>
      intro _
      rw [hinit]
      exact ⟨.init, .init⟩
    | succ k ih =>
      intro hk
      obtain ⟨hg, hcount⟩ := ih (by omega)
      have hwrap := hcount.not_wraps hg (hsmall k (by omega)) (event k).thread
      exact ⟨hg.move hwrap (hmove k hk), hcount.move hg hwrap (hmove k hk) (hsmall (k + 1) hk).2⟩
  have hhand := handouts_of_moves hinit (fun k hk => (hall k hk).1)
    (fun k hk => (hall k (by omega)).2.not_wraps (hall k (by omega)).1 (hsmall k (by omega)) _) hmove
  have hfull : ∀ k < n, (state (k + 1)).inner.blocks ≠ (state k).inner.blocks →
      (∃ len, (state (k + 1)).inner.blocks = len :: (state k).inner.blocks) ∧
        ∀ location ∈ (state k).inner.locations, Returned state k location := by
    intro k hk hne
    have hg := (hall k (by omega)).1
    rcases hg.blocks (hmove k hk) with hsame | ⟨hc, hfull, hcons⟩
    · exact absurd hsame hne
    · refine ⟨⟨_, hcons⟩, fun location hmem => ?_⟩
      have htaken : Taken state k location :=
        (hhand.taken_iff (by omega)).2 (Inner.handedOut_of_mem hg.inv.chain.1 hmem fun _ => hfull)
      -- the write lock keeps out those who have not returned yet
      rcases returned_of_taken hmove (by omega) htaken with hreturned | ⟨u, point, hu, hl⟩
      · exact hreturned
      · exact absurd hl (hg.guarded.no_carrier hc hu)
  constructor
  · intro i j t u location hij hj ht hu
    obtain ⟨rfl, hcarried⟩ := hhand.carried hij hj (by rw [ht]; rfl) u (by rw [hu]; rfl)
    refine ⟨rfl, fun m him hmj he => ?_⟩
    have hidle := (hmove m (by omega)).ret_control he
    have hlater := hcarried (m + 1) (by omega) (by omega)
    rw [hidle] at hlater
    cases hlater
  · exact hfull
  · exact older_returned hinit hfull
  · intro k hk
    exact lengths_of_doubling (hall k hk).1.inv.chain.1 (by have := (hall k hk).2.short; omega)
  · intro k hk t fault
    refine ⟨(hall k hk).2.sound t fault, fun hc => ?_⟩
    exact (hall k hk).1.inv.running hc
  · intro k hk hidle hpos
    obtain ⟨hg, hcount⟩ := hall k hk
    have hsame : {location | Returned state k location} = {location | Taken state k location} := by
      ext location
      refine ⟨Returned.taken, fun htaken => ?_⟩
      rcases returned_of_taken hmove hk htaken with hreturned | ⟨t, point, hc, hl⟩
      · exact hreturned
      · have hnot := hidle t
        rw [hc, Control.inserting_of_location hl] at hnot
        cases hnot
    rw [hsame, hhand.ncard_taken hk hg.inv.chain.1] at hpos ⊢
    exact hcount.quiescent hg hidle hpos

/-- Two threads find the bucket without a block, and the second to grow it finds room. -/
def growTwice : List (Event (Fin 2)) :=
  [.call 0 .nextInsertLocation, .call 1 .nextInsertLocation, .act 0, .act 0, .act 1, .act 1, .act 0, .act 1,
    .act 0, .act 0, .act 0, .act 0, .act 0, .ret 0, .act 1, .act 1, .act 1, .act 1, .act 1, .ret 1]

theorem growth_two_threads :
    Growth 20 (Transition.System.trace (step .debug) (fun _ _ => True) State.init growTwice)
      (growTwice.getD · (.ret 0)) := by
  have hsmall : ∀ k < 21,
      (Transition.System.trace (step .debug) (fun _ _ => True) State.init growTwice k).Small := by
    decide +kernel
  exact growth .debug (Fin 2) 20 _ _ (run_of_replay .debug growTwice (.ret 0) (by decide +kernel))
    fun k hk => hsmall k (by omega)

end ReadWriteStore.Bucket

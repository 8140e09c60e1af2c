import ReadWriteStore.Bucket.Proofs.CallsProofs
import ReadWriteStore.Store.Balance
import ReadWriteStore.Store.Proofs.PartsProofs
import ReadWriteStore.Transition.Cycle
import Mathlib.Dynamics.PeriodicPts.Lemmas

/-!
# The choice of a bucket is balanced

Modulo the number of buckets the generator is a map with one cycle, so the bucket IDs go round. A thread
that does nothing but insert calls a bucket each time it has drawn it.
-/

namespace ReadWriteStore.Store

open Function

/-! ## The generator -/

/-- What `nextGenerator` does to the bucket ID. -/
def nextBucket (bucket : Fin bucketCount) : Fin bucketCount :=
  ⟨(13 * bucket.val + 9) % bucketCount, Nat.mod_lt _ (by decide)⟩

theorem bucketId_next (generator : UInt32) : bucketId (nextGenerator generator) = nextBucket (bucketId generator) := by
  apply Fin.ext
  show (generator * 1103515245 + 12345).toNat % 16 = (13 * (generator.toNat % 16) + 9) % 16
  rw [UInt32.toNat_add, UInt32.toNat_mul]
  show (generator.toNat * 1103515245 % 2 ^ 32 + 12345) % 2 ^ 32 % 16 = _
  omega

theorem bucketId_iterate (n : ℕ) (generator : UInt32) :
    bucketId (nextGenerator^[n] generator) = nextBucket^[n] (bucketId generator) :=
  (show Semiconj bucketId nextGenerator nextBucket from bucketId_next).iterate_right n generator

theorem minimalPeriod_nextBucket (bucket : Fin bucketCount) :
    minimalPeriod nextBucket bucket = bucketCount := by
  have hhalf : ∀ bucket, nextBucket^[2 ^ 3] bucket ≠ bucket := by decide
  have hfull : ∀ bucket, nextBucket^[2 ^ (3 + 1)] bucket = bucket := by decide
  have : Fact (Nat.Prime 2) := ⟨Nat.prime_two⟩
  exact minimalPeriod_eq_prime_pow (hhalf bucket) (hfull bucket)

theorem bucketIds_succ (n : ℕ) (generator : UInt32) : bucketIds (n + 1) generator =
    bucketId (nextGenerator generator) :: bucketIds n (nextGenerator generator) :=
  rfl

theorem bucketIds_eq (n : ℕ) (generator : UInt32) : bucketIds n generator =
    (List.range n).map (nextBucket^[·] (bucketId (nextGenerator generator))) := by
  induction n generalizing generator with
  | zero => rfl
  | succ n ih =>
    rw [bucketIds_succ, ih, bucketId_next (nextGenerator generator), Transition.cons_map_iterate]

theorem count_bucketIds (n : ℕ) (generator : UInt32) (bucket : Fin bucketCount) :
    (bucketIds n generator).count bucket =
      n.count (nextBucket^[·] (bucketId (nextGenerator generator)) = bucket) := by
  rw [bucketIds_eq, List.count, List.countP_map, Nat.count]
  rfl

/-- The next bucket ID comes at the end. -/
theorem count_bucketIds_succ (n : ℕ) (generator : UInt32) (bucket : Fin bucketCount) :
    (bucketIds (n + 1) generator).count bucket = (bucketIds n generator).count bucket +
      if bucketId (nextGenerator^[n + 1] generator) = bucket then 1 else 0 := by
  rw [count_bucketIds, count_bucketIds, Nat.count_succ, iterate_succ_apply, bucketId_iterate]

theorem count_bucketIds_eq (n : ℕ) (generator : UInt32) (bucket : Fin bucketCount) :
    (bucketIds n generator).count bucket = n / bucketCount ∨
      (bucketIds n generator).count bucket = (n + (bucketCount - 1)) / bucketCount := by
  have hperiod : minimalPeriod nextBucket (bucketId (nextGenerator generator)) =
      Fintype.card (Fin bucketCount) := by
    rw [minimalPeriod_nextBucket, Fintype.card_fin]
  have hcount := Transition.count_iterate hperiod bucket n
  rw [Fintype.card_fin] at hcount
  rw [count_bucketIds]
  exact hcount

theorem count_bucketIds_le (n : ℕ) (generator : UInt32) (bucket bucket' : Fin bucketCount) :
    (bucketIds n generator).count bucket ≤ (bucketIds n generator).count bucket' + 1 := by
  have hceil : (n + (bucketCount - 1)) / bucketCount ≤ n / bucketCount + 1 := by
    show (n + 15) / 16 ≤ n / 16 + 1
    omega
  have hfloor : n / bucketCount ≤ (n + (bucketCount - 1)) / bucketCount :=
    Nat.div_le_div_right (Nat.le_add_right _ _)
  rcases count_bucketIds_eq n generator bucket with h | h <;>
    rcases count_bucketIds_eq n generator bucket' with h' | h' <;> omega

/-! ## A thread that inserts -/

variable {T E : Type} [DecidableEq T] {build : Build} {s s' : State T E} {e : Event T E} {t : T}

/-- Inside `insert`, or outside every call. -/
def Control.Inserting : Control E → Prop
  | .idle | .pop _ | .bucket (.insert _ _) | .place _ _ | .header (.occupy _ _) | .returned _
  | .faulted _ => True
  | .bucket (.capacity _ _ _) | .header (.remove _ _) | .header (.removeLocked _ _)
  | .header (.read _ _) | .header (.write _ _) | .header (.dropRead _) | .header (.dropWrite _)
  | .moveOut _ _ _ | .moveOutLocked _ | .push _ _ => False

/-- A thread that draws calls the bucket it has drawn; every other step keeps to the bucket it is in. -/
inductive Draws (s s' : State T E) (t : T) : Prop
  | draw {element : E} (hbefore : s.control t = .pop element)
      (hgenerator : s'.generator t = nextGenerator (s.generator t))
      (hafter : s'.control t = .bucket (.insert (bucketId (s'.generator t)) element))
  | keep (hgenerator : s'.generator t = s.generator t)
      (hframe : ∀ frame, s'.control t = .bucket frame → s.control t = .bucket frame)

/-- What is preserved in a run of a thread that inserts: it stays inside `insert`, there are no erasures,
and it draws the bucket that it calls. -/
structure KeepsInserting (s s' : State T E) (t : T) : Prop where
  control : (s'.control t).Inserting
  erasures : s'.erasures = []
  draws : Draws s s' t

omit [DecidableEq T] in
/-- A step outside the buckets. -/
theorem KeepsInserting.of_quiet {control : Control E} (hgenerator : s'.generator = s.generator)
    (hq : s'.erasures = []) (hc : s'.control t = control) (hi : control.Inserting)
    (hne : ∀ frame, control ≠ .bucket frame) : KeepsInserting s s' t where
  control := by rw [hc]; exact hi
  erasures := hq
  draws := .keep (by rw [hgenerator]) fun frame hframe => absurd (hc.symm.trans hframe) (hne frame)

omit [DecidableEq T] in
theorem Event.Inserts.thread (h : e.Inserts t) : e.thread = t := by
  cases e with
  | call u call =>
    cases call with
    | insert element => exact h
    | _ => exact h.elim
  | elsewhere u => exact h.elim
  | _ => exact h

theorem resume_occupy {storeId : UInt64} {address : SlotAddress} {element : E} {result : Header.Return}
    {control : Checked (Control E)}
    (h : (Frame.occupy address element).resume storeId result = some control) :
    ∃ id, control = .ok (.returned (.insert id)) := by
  cases result with
  | occupy ordinal => cases h; exact ⟨_, rfl⟩
  | _ => cases h

omit [DecidableEq T] in
/-- A thread that inserts is not inside another method. -/
theorem not_inserting {control : Control E} (hc : (s.control t).Inserting) (h : s.control t = control) :
    control.Inserting := by
  rw [← h]
  exact hc

theorem Move.inserting (hm : Move build s e s') (he : e.Inserts t) (hc : (s.control t).Inserting)
    (hq : s.erasures = []) : KeepsInserting s s' t := by
  obtain rfl := he.thread
  cases hm with
  | insert | callFault | ret | retFault | place | located | headerFault =>
    exact .of_quiet rfl hq (State.setControl_self _ _) trivial nofun
  | @enter t call frame header _ hframe =>
    cases call with
    | insert element => cases hframe
    | _ => exact he.elim
  | removeLocked | capacity | elsewhere => exact he.elim
  | look _ hlook => cases hlook <;> exact he.elim
  | replace _ hreplace => cases hreplace <;> exact he.elim
  | reuse _ hq' =>
    rw [hq] at hq'
    cases hq'
  | @draw t _ element generator bucket hc' _ hg =>
    have hgenerator : (({ s with generator := Function.update s.generator t generator }.setBucket
        (bucketId generator) bucket).setControl t
          (.bucket (.insert (bucketId generator) element))).generator t = generator := update_self ..
    refine ⟨?_, hq, .draw hc' (hgenerator.trans hg) ?_⟩
    · exact (State.setControl_self t _).symm ▸ trivial
    · show _ = Control.bucket (.insert (bucketId (State.generator _ t)) element)
      rw [hgenerator]
      exact State.setControl_self _ _
  | bucketStep | headerStep | expire => exact ⟨hc, hq, .keep rfl fun frame h => h⟩
  | addedNext hc' | addedLast hc' | addFault hc' | moveOut hc' | moveOutLocked hc' | push hc' =>
    exact (not_inserting hc hc').elim
  | @bucketFault t _ frame fault state hc' =>
    obtain ⟨unwound, heq⟩ := (s.setBucket frame.bucket state).unwindBucket_eq t fault frame
    rw [heq]
    exact .of_quiet rfl hq (State.setControl_self _ _) trivial nofun
  | @resume t _ frame result header control hc' _ _ hres =>
    cases frame with
    | occupy address element =>
      obtain ⟨id, rfl⟩ := resume_occupy hres
      obtain ⟨issued, heq⟩ := (s.setHeader address header).noteIssued_eq (.occupy address element) result
      show KeepsInserting s (((s.setHeader address header).noteIssued (.occupy address element)
        result).setControl t _) t
      rw [heq]
      exact .of_quiet rfl hq (State.setControl_self _ _) trivial nofun
    | _ => exact (not_inserting hc hc').elim
  | moveFault hc' =>
    rcases hc' with hc' | ⟨method, mayReuse, hc'⟩
    · exact (not_inserting hc hc').elim
    · exact (not_inserting hc hc').elim

/-! ## The buckets it calls -/

/-- Thread `t` has done nothing but insert, and has called every bucket as often as it has drawn it. -/
structure Solo (build : Build) (s : State T E) (t : T) (taken : SlotAddress → Prop) (generator : UInt32)
    (draws : ℕ) : Prop where
  inserting : (s.control t).Inserting
  erasures : s.erasures = []
  drew : s.generator t = nextGenerator^[draws] generator
  /-- It is in the bucket that it has drawn last. -/
  drawn : ∀ frame, s.control t = .bucket frame → 1 ≤ draws ∧ frame.bucket = bucketId (s.generator t)
  alone : ∀ bucket, (s.bucket bucket).Alone build t (fun location => taken ⟨bucket, location⟩)
    ((bucketIds draws generator).count bucket)
  calm : ∀ bucket, (∀ frame, s.control t = .bucket frame → frame.bucket ≠ bucket) →
    (s.bucket bucket).control t = .idle
  others : ∀ u ≠ t, ∀ bucket, (s.bucket bucket).control u = .idle
  carried : ∀ bucket location, ((s.bucket bucket).control t).location = some location →
    taken ⟨bucket, location⟩

namespace Solo

variable {taken taken' : SlotAddress → Prop} {generator : UInt32} {draws : ℕ}

omit [DecidableEq T] in
theorem init (storeId : UInt64) (generator : T → UInt32) (t : T) :
    Solo build (State.init storeId generator : State T E) t (fun _ => False) (generator t) 0 where
  inserting := trivial
  erasures := rfl
  drew := rfl
  drawn _ h := by cases h
  alone _ := .between rfl rfl fun _ => ⟨False.elim, nofun⟩
  calm _ _ := rfl
  others _ _ _ := rfl
  carried _ _ h := by cases h

theorem calm_step (h : Solo build s t taken generator draws) (ht : e.thread = t)
    {bucket : Fin bucketCount} (hpart : BucketPart build s s' e bucket)
    (hnone : ∀ frame, s'.control t = .bucket frame → frame.bucket ≠ bucket) :
    (s'.bucket bucket).control t = .idle := by
  subst ht
  cases hpart with
  | same hbucket hframe =>
    rw [hbucket]
    refine h.calm bucket fun frame hcontrol hb => ?_
    exact hnone frame ((hframe frame hb).2 hcontrol) hb
  | enters hb _ hafter => exact absurd hb (hnone _ hafter)
  | goes hb _ hsame => exact absurd hb (hnone _ hsame)
  | leaves _ _ _ hstep => exact (Bucket.Move.of_step hstep).ret_control rfl

theorem others_step (h : Solo build s t taken generator draws) (ht : e.thread = t)
    {bucket : Fin bucketCount} (hpart : BucketPart build s s' e bucket) {u : T} (hu : u ≠ t) :
    (s'.bucket bucket).control u = .idle := by
  subst ht
  have hidle := h.others u hu bucket
  cases hpart with
  | same hbucket => rw [hbucket]; exact hidle
  | enters _ _ _ hstep | goes _ _ _ hstep | leaves _ _ _ hstep =>
    rw [(Bucket.Move.of_step hstep).control_ne hu]
    exact hidle

/-- The slots taken after a step are those before it, and the one that the thread carries. -/
def Adds (s' : State T E) (t : T) (taken taken' : SlotAddress → Prop) : Prop :=
  ∀ address, taken' address ↔ taken address ∨
    ((s'.bucket address.bucket).control t).location = some address.location

omit [DecidableEq T] in
/-- A bucket that the step leaves alone. -/
theorem alone_same (h : Solo build s t taken generator draws) (hadds : Adds s' t taken taken')
    {bucket : Fin bucketCount} (hbucket : s'.bucket bucket = s.bucket bucket) :
    (s'.bucket bucket).Alone build t (fun location => taken' ⟨bucket, location⟩)
      ((bucketIds draws generator).count bucket) := by
  have hsame : (fun location => taken' ⟨bucket, location⟩) = fun location => taken ⟨bucket, location⟩ := by
    funext location
    refine propext ((hadds _).trans (or_iff_left_of_imp fun hcarried => ?_))
    rw [hbucket] at hcarried
    exact h.carried bucket location hcarried
  rw [hsame, hbucket]
  exact h.alone bucket

/-- A step that draws no bucket. -/
theorem alone_keep (h : Solo build s t taken generator draws) (ht : e.thread = t)
    (hadds : Adds s' t taken taken')
    (hframe : ∀ frame, s'.control t = .bucket frame → s.control t = .bucket frame)
    {bucket : Fin bucketCount} (hpart : BucketPart build s s' e bucket) :
    (s'.bucket bucket).Alone build t (fun location => taken' ⟨bucket, location⟩)
      ((bucketIds draws generator).count bucket) := by
  subst ht
  cases hpart with
  | same hbucket => exact h.alone_same hadds hbucket
  | enters hb hbefore hafter => exact absurd hb (hbefore _ (hframe _ hafter))
  | goes _ _ _ hstep => exact (h.alone bucket).act hstep fun location => hadds ⟨bucket, location⟩
  | leaves _ _ _ hstep =>
    exact (h.alone bucket).ret hstep (h.carried bucket) fun location => hadds ⟨bucket, location⟩

/-- A step that draws a bucket calls it. -/
theorem alone_draw (h : Solo build s t taken generator draws) (ht : e.thread = t)
    (hadds : Adds s' t taken taken') {element : E} (hbefore : s.control t = .pop element)
    (hgenerator : s'.generator t = nextGenerator (s.generator t))
    (hafter : s'.control t = .bucket (.insert (bucketId (s'.generator t)) element))
    {bucket : Fin bucketCount} (hpart : BucketPart build s s' e bucket) :
    (s'.bucket bucket).Alone build t (fun location => taken' ⟨bucket, location⟩)
      ((bucketIds (draws + 1) generator).count bucket) := by
  subst ht
  have hnext : bucketId (nextGenerator^[draws + 1] generator) = bucketId (s'.generator e.thread) := by
    rw [hgenerator, h.drew]
    exact congrArg bucketId (iterate_succ_apply' ..)
  rw [count_bucketIds_succ, hnext]
  cases hpart with
  | same hbucket hframe =>
    have hne : bucketId (s'.generator e.thread) ≠ bucket := by
      intro hb
      cases hbefore.symm.trans ((hframe (.insert _ element) hb).1 hafter)
    rw [if_neg hne]
    exact h.alone_same hadds hbucket
  | enters hb _ hframe hstep =>
    cases hafter.symm.trans hframe
    have hidle : (s.bucket bucket).control e.thread = .idle :=
      h.calm bucket fun frame hcontrol => by cases hbefore.symm.trans hcontrol
    rw [if_pos (show bucketId (s'.generator e.thread) = bucket from hb)]
    exact (h.alone bucket).call hidle hstep fun location => hadds ⟨bucket, location⟩
  | goes _ hcontrol => cases hbefore.symm.trans hcontrol
  | leaves _ hcontrol => cases hbefore.symm.trans hcontrol

/-- One step of a thread that inserts. -/
theorem step (h : Solo build s t taken generator draws) (he : e.Inserts t) (hm : Move build s e s')
    (hadds : Adds s' t taken taken') : ∃ draws', Solo build s' t taken' generator draws' := by
  have hkeeps := hm.inserting he h.inserting h.erasures
  have ht := he.thread
  have hcarried : ∀ bucket location, ((s'.bucket bucket).control t).location = some location →
      taken' ⟨bucket, location⟩ := fun bucket location hl => (hadds ⟨bucket, location⟩).2 (Or.inr hl)
  cases hkeeps.draws with
  | @draw element hbefore hgenerator hafter =>
    refine ⟨draws + 1, hkeeps.control, hkeeps.erasures, ?_, ?_, ?_, ?_, ?_, hcarried⟩
    · rw [hgenerator, h.drew]
      exact (iterate_succ_apply' ..).symm
    · intro frame hframe
      cases hafter.symm.trans hframe
      exact ⟨Nat.succ_pos draws, rfl⟩
    · exact fun bucket => h.alone_draw ht hadds hbefore hgenerator hafter (hm.bucketPart bucket)
    · exact fun bucket => h.calm_step ht (hm.bucketPart bucket)
    · exact fun u hu bucket => h.others_step ht (hm.bucketPart bucket) hu
  | keep hgenerator hframe =>
    refine ⟨draws, hkeeps.control, hkeeps.erasures, ?_, ?_, ?_, ?_, ?_, hcarried⟩
    · rw [hgenerator, h.drew]
    · intro frame hcontrol
      rw [hgenerator]
      exact h.drawn frame (hframe frame hcontrol)
    · exact fun bucket => h.alone_keep ht hadds hframe (hm.bucketPart bucket)
    · exact fun bucket => h.calm_step ht (hm.bucketPart bucket)
    · exact fun u hu bucket => h.others_step ht (hm.bucketPart bucket) hu

omit [DecidableEq T] in
/-- Buckets that are drawn evenly hand out slots evenly. -/
theorem ncard_le (h : Solo build s t taken generator draws) (bucket bucket' : Fin bucketCount) :
    {location | taken ⟨bucket, location⟩}.ncard ≤ {location | taken ⟨bucket', location⟩}.ncard + 1 := by
  by_cases hb : bucket = bucket'
  · subst hb
    exact Nat.le_succ _
  have hle := (h.alone bucket).ncard_le
  by_cases hcontrol : ∃ frame, s.control t = .bucket frame ∧ frame.bucket = bucket'
  · -- the last call of the second bucket is in flight: it does not count yet
    obtain ⟨frame, hframe, rfl⟩ := hcontrol
    obtain ⟨hpos, hdrawn⟩ := h.drawn frame hframe
    obtain ⟨done, rfl⟩ : ∃ done, draws = done + 1 := ⟨draws - 1, by omega⟩
    have halone := h.alone frame.bucket
    rw [count_bucketIds_succ, ← h.drew, if_pos hdrawn.symm] at halone
    rw [count_bucketIds_succ, ← h.drew, if_neg (by rw [← hdrawn]; exact Ne.symm hb)] at hle
    have hge := halone.le_ncard (Or.inr rfl)
    have hcard := Bucket.Inner.card_handouts_le build (count_bucketIds_le done generator bucket frame.bucket)
    exact hle.trans (hcard.trans (Nat.add_le_add_right hge 1))
  · have hidle := h.calm bucket' fun frame hframe hb => hcontrol ⟨frame, hframe, hb⟩
    have hge := (h.alone bucket').le_ncard (Or.inl ⟨rfl, hidle⟩)
    have hcard := Bucket.Inner.card_handouts_le build (count_bucketIds_le draws generator bucket bucket')
    exact hle.trans (hcard.trans (Nat.add_le_add_right hge 1))

end Solo

/-! ## Runs -/

omit [DecidableEq T] in
theorem handedOut_succ {state : ℕ → State T E} {k : ℕ} {address : SlotAddress} :
    HandedOut state (k + 1) address ↔ HandedOut state k address ∨
      ∃ u, (((state (k + 1)).bucket address.bucket).control u).location = some address.location := by
  constructor
  · rintro ⟨i, hi, u, hu⟩
    rcases Nat.lt_or_ge i (k + 1) with hlt | hge
    · exact Or.inl ⟨i, by omega, u, hu⟩
    · obtain rfl : i = k + 1 := by omega
      exact Or.inr ⟨u, hu⟩
  · rintro (⟨i, hi, u, hu⟩ | ⟨u, hu⟩)
    · exact ⟨i, by omega, u, hu⟩
    · exact ⟨k + 1, Nat.le_refl _, u, hu⟩

theorem solo_of_run {n : ℕ} {state : ℕ → State T E} {event : ℕ → Event T E}
    (h : ((machine build T E).restrict fun _ e => e.Inserts t).Run n state event) :
    ∀ k ≤ n, ∃ draws, Solo build (state k) t (HandedOut state k) ((state 0).generator t) draws := by
  obtain ⟨storeId, generator, hinit⟩ := h.init
  intro k
  induction k with
  | zero =>
    intro _
    have hnone : HandedOut state 0 = fun _ => False := by
      funext address
      refine propext ⟨?_, False.elim⟩
      rintro ⟨i, hi, u, hu⟩
      obtain rfl := Nat.le_zero.1 hi
      dsimp only at hu
      rw [hinit] at hu
      cases hu
    rw [hnone, hinit]
    exact ⟨0, Solo.init storeId generator t⟩
  | succ k ih =>
    intro hk
    obtain ⟨draws, hsolo⟩ := ih (by omega)
    obtain ⟨he, -, hstep⟩ := h.step k (by omega)
    have hm := Move.of_step hstep
    refine hsolo.step he hm fun address => handedOut_succ.trans (or_congr_right ?_)
    constructor
    · rintro ⟨u, hu⟩
      by_cases hut : u = t
      · rw [← hut]
        exact hu
      · rw [hsolo.others_step he.thread (hm.bucketPart address.bucket) hut] at hu
        cases hu
    · exact fun hl => ⟨t, hl⟩

theorem ncard_bucket {taken : SlotAddress → Prop} (bucket : Fin bucketCount) :
    {address | address.bucket = bucket ∧ taken address}.ncard =
      {location | taken ⟨bucket, location⟩}.ncard := by
  have himage : {address | address.bucket = bucket ∧ taken address} =
      (fun location => (⟨bucket, location⟩ : SlotAddress)) '' {location | taken ⟨bucket, location⟩} := by
    ext ⟨b, location⟩
    constructor
    · rintro ⟨rfl, h⟩
      exact ⟨location, h, rfl⟩
    · rintro ⟨location', h, heq⟩
      cases heq
      exact ⟨rfl, h⟩
  rw [himage, Set.ncard_image_of_injective _ fun a b heq => (SlotAddress.mk.inj heq).2]

/-- The buckets are drawn evenly, and hand out slots evenly. -/
theorem balanced (build : Build) (T E : Type) [DecidableEq T] : Balanced build T E where
  drawn := count_bucketIds_eq
  slots t n state event hrun bucket bucket' := by
    obtain ⟨draws, hsolo⟩ := solo_of_run hrun n (Nat.le_refl n)
    rw [ncard_bucket, ncard_bucket]
    exact hsolo.ncard_le bucket bucket'

end ReadWriteStore.Store

import ReadWriteStore.Header.Proofs.PackedProofs
import ReadWriteStore.Header.Proofs.TimeoutProofs
import ReadWriteStore.Store.Iteration
import ReadWriteStore.Store.Proofs.FillProofs
import ReadWriteStore.Store.Proofs.IdentityProofs
import ReadWriteStore.Store.Proofs.SizeHintProofs

/-!
# Iteration is exact

The slots that an iterator visits are those handed out, each of them once. In a store that nobody is using
an occupied slot is unlocked and holds an element, so both trackers get through; in the end they have
found every element. A counter that has wrapped around makes the iterators skip the head.
-/

namespace ReadWriteStore.Store

open Header (isOccupied currentId readersFromBits)

variable {T E : Type} [DecidableEq T] {build : Build} {s : State T E}

/-! ## A store that nobody is using -/

/-- What is known of the slots of a store that nobody is using. -/
structure State.Still (s : State T E) : Prop where
  /-- An occupied slot is not locked, and holds an element. -/
  occupied : ∀ address, isOccupied (s.header address).word = true →
    (s.header address).word = Header.occupiedUnlockedBits (currentId (s.header address).word) ∧
      (s.value address).isSome = true
  unoccupied : ∀ address, isOccupied (s.header address).word = false →
    readersFromBits (s.header address).word = 0
  /-- An occupied slot has been handed out. -/
  handedOut : ∀ address, isOccupied (s.header address).word = true →
    (s.bucket address.bucket).inner.HandedOut address.location
  doubling : ∀ bucket, Bucket.Doubling (s.bucket bucket).inner.blocks
  /-- The ID of the element in a slot was returned by an `insert`. -/
  noted : ∀ address, isOccupied (s.header address).word = true → s.idAt address ∈ s.issued

theorem State.Sound.handedOut (h : s.Sound build) {address : SlotAddress}
    (hocc : isOccupied (s.header address).word = true) :
    (s.bucket address.bucket).inner.HandedOut address.location := by
  obtain ⟨class_, hclass⟩ := h.classified
  have hoccupied := (hclass.occupied address).2 hocc
  by_contra hnot
  have hunissued := (hclass.unissued address).2 hnot
  rw [hoccupied] at hunissued
  cases hunissued

theorem State.Sound.still [Fintype T] (h : s.Sound build) (hn : s.Noted) (hquiet : s.Quiet) : s.Still where
  occupied address hocc := by
    have hinv := Header.reachable_inv (h.linked.header address)
    refine ⟨hinv.eq_of_no_locks hocc fun t => (hquiet t).2 address ?_, h.filled.occupied address hocc⟩
    have hlocation : address.location ∈ (s.bucket address.bucket).inner.locations :=
      Bucket.Inner.mem_locations.2 (h.handedOut hocc).1
    exact List.mem_flatMap.2 ⟨address.bucket, List.mem_finRange _,
      List.mem_map.2 ⟨address.location, hlocation, rfl⟩⟩
  unoccupied address hocc := by
    by_contra hne
    have := ((Header.reachable_inv (h.linked.header address)).ledger.occupied_of_readers hne).1
    rw [hocc] at this
    cases this
  handedOut _ hocc := h.handedOut hocc
  doubling bucket := (h.linked.bucket bucket).inv.chain.1
  noted address hocc := by
    have hinv := Header.reachable_inv (h.linked.header address)
    have hissued := hinv.ledger.occupied.1 ((Header.isOccupied_iff _).1 hocc)
    rcases hn.noted address _ hissued with hmem | ⟨t, element, hc, -⟩
    · exact hmem
    · have hidle := (hquiet t).1
      rw [hc] at hidle
      cases hidle

/-! ## The actions of an iterator -/

/-- No block is left before its slots have been visited. -/
def Action.LeavesBehind : Action → Action → Prop
  | .leave bucket block _, .visit address => ¬(address.bucket = bucket ∧ address.location.block = block)
  | _, _ => True

theorem bucket_of_visit {bucket : Fin bucketCount} {chain : List UInt32} {last : UInt32}
    {address : SlotAddress} (hmem : .visit address ∈ chainActions bucket chain last) :
    address.bucket = bucket ∧ address.location ∈ Bucket.touchedFrom chain last := by
  have hvisited : address ∈ (chainActions bucket chain last).filterMap Action.visited :=
    List.mem_filterMap.2 ⟨_, hmem, rfl⟩
  rw [visited_chainActions] at hvisited
  obtain ⟨location, hlocation, rfl⟩ := List.mem_map.1 hvisited
  exact ⟨rfl, hlocation⟩

theorem bucket_of_leave {bucket bucket' : Fin bucketCount} {chain : List UInt32} {last : UInt32}
    {block : ℕ} {len : UInt32} (hmem : .leave bucket' block len ∈ chainActions bucket chain last) :
    bucket' = bucket := by
  induction chain generalizing last with
  | nil => cases hmem
  | cons len' older ih =>
    rcases List.mem_append.1 hmem with hvisit | hrest
    · rw [List.mem_reverse] at hvisit
      obtain ⟨slot, -, he⟩ := List.mem_map.1 hvisit
      cases he
    · rcases List.mem_cons.1 hrest with he | hrest
      · cases he
        rfl
      · exact ih hrest

theorem leavesBehind_chain (bucket : Fin bucketCount) {chain : List UInt32} (hd : Bucket.Doubling chain)
    (last : UInt32) : (chainActions bucket chain last).Pairwise Action.LeavesBehind := by
  induction chain generalizing last with
  | nil => exact .nil
  | cons len older ih =>
    have hvisits : ∀ action ∈ ((List.range last.toNat).map fun slot => Action.visit
        ⟨bucket, older.length, Bucket.physicalSlot len (UInt32.ofNat slot)⟩).reverse,
        ∀ other, action.LeavesBehind other := by
      intro action hmem other
      rw [List.mem_reverse] at hmem
      obtain ⟨slot, -, rfl⟩ := List.mem_map.1 hmem
      trivial
    refine List.pairwise_append.2 ⟨?_, List.pairwise_cons.2 ⟨?_, ih hd.2 _⟩, fun a ha b _ => hvisits a ha b⟩
    · exact List.pairwise_of_forall_mem_list fun a ha b _ => hvisits a ha b
    · intro action hmem
      cases action with
      | leave => trivial
      | visit address =>
        rintro ⟨-, hblock⟩
        have hlt := Bucket.block_lt_of_mem hd.2 (bucket_of_visit hmem).2
        omega

theorem leavesBehind_new {inner : Fin bucketCount → Bucket.Inner}
    (hd : ∀ bucket, Bucket.Doubling (inner bucket).blocks) :
    (GenIter.new inner).actions.Pairwise Action.LeavesBehind := by
  have hactions : (GenIter.new inner).actions = (List.finRange bucketCount).reverse.flatMap fun bucket =>
      (BucketIter.new bucket (inner bucket)).actions := by
    unfold GenIter.actions GenIter.new
    rw [← List.map_reverse, List.flatMap_map]
  rw [hactions, List.pairwise_flatMap]
  refine ⟨fun bucket _ => leavesBehind_chain bucket (hd bucket) _,
    (List.nodup_reverse.2 (List.nodup_finRange bucketCount)).imp ?_⟩
  intro bucket bucket' hne action hmem other hmem'
  cases action with
  | visit => trivial
  | leave =>
    cases other with
    | leave => trivial
    | visit address =>
      rintro ⟨hbucket, -⟩
      rw [(bucket_of_visit hmem').1, bucket_of_leave hmem] at hbucket
      exact hne hbucket.symm

/-! ## What the iterators find -/

/-- The elements present, in the order of the iterators. -/
def State.items (s : State T E) : List (Id × E) :=
  (GenIter.new fun bucket => (s.bucket bucket).inner).actions.filterMap s.item

theorem visit_mem_actions {iter : GenIter} {address : SlotAddress} :
    .visit address ∈ iter.actions ↔ address ∈ iter.pending := by
  unfold GenIter.pending
  rw [List.mem_filterMap]
  constructor
  · exact fun hmem => ⟨_, hmem, rfl⟩
  · rintro ⟨action, hmem, hvisited⟩
    cases action with
    | visit other => cases hvisited; exact hmem
    | leave => cases hvisited

namespace State.Still

omit [DecidableEq T] in
/-- An occupied slot is visited. -/
theorem visited (h : s.Still) {address : SlotAddress} (hocc : isOccupied (s.header address).word = true) :
    .visit address ∈ (GenIter.new fun bucket => (s.bucket bucket).inner).actions := by
  rw [visit_mem_actions, GenIter.mem_pending_new]
  exact (Bucket.mem_touched (h.doubling _)).2 (h.handedOut address hocc)

omit [DecidableEq T] in
theorem item_occupied (h : s.Still) {address : SlotAddress} (hocc : isOccupied (s.header address).word = true) :
    ∃ element, s.value address = some element ∧ s.item (.visit address) = some (s.idAt address, element) := by
  obtain ⟨element, hvalue⟩ := Option.isSome_iff_exists.1 (h.occupied address hocc).2
  exact ⟨element, hvalue, by simp only [State.item, hocc, if_true, hvalue, Option.map_some]⟩

omit [DecidableEq T] in
theorem item_unoccupied {address : SlotAddress} (hocc : isOccupied (s.header address).word = false) :
    s.item (.visit address) = none := by
  simp only [State.item, hocc, Bool.false_eq_true, if_false]

/-! ### Exclusive access -/

omit [DecidableEq T] in
theorem contents (h : s.Still) (address : SlotAddress) :
    (mutTracker build s.storeId).visit address s.slot = .ok (s.item (.visit address), s.slot) := by
  cases hocc : isOccupied (s.header address).word with
  | true =>
    obtain ⟨element, hvalue, hitem⟩ := h.item_occupied hocc
    rw [hitem]
    have hcontents : (s.slot address).contents build = .ok (some (currentId (s.header address).word, element)) := by
      unfold Slot.contents Header.idIfOccupied
      have hocc' : isOccupied (s.slot address).header.word = true := hocc
      have hvalue' : (s.slot address).value = some element := hvalue
      rw [if_pos hocc', hvalue']
      rfl
    show ((s.slot address).contents build >>= _) = _
    rw [hcontents]
    rfl
  | false =>
    rw [item_unoccupied hocc]
    have hcontents : (s.slot address).contents build = .ok none := by
      unfold Slot.contents Header.idIfOccupied
      have hocc' : isOccupied (s.slot address).header.word = false := hocc
      rw [hocc']
      rfl
    show ((s.slot address).contents build >>= _) = _
    rw [hcontents]
    rfl

omit [DecidableEq T] in
theorem act (h : s.Still) (build : Build) (action : Action) (_ : List Action) (slots : SlotAddress → Slot T E)
    (hsame : slots = s.slot) :
    ∃ slots', (mutTracker build s.storeId).act action slots = .ok (s.item action, slots') ∧ slots' = s.slot := by
  subst hsame
  cases action with
  | visit address => exact ⟨s.slot, h.contents address, rfl⟩
  | leave => exact ⟨s.slot, rfl, rfl⟩

omit [DecidableEq T] in
/-- `iter_mut` overflows the stack, or finds as many elements as there are. -/
theorem iterMut (h : s.Still) (build : Build) (stack steps : ℕ) :
    (GenIter.new fun bucket => (s.bucket bucket).inner).take build (mutTracker build s.storeId) stack steps
      s.slot = .error .stackOverflow ∧ stack < s.callDepth ∨
    ∃ iter, (GenIter.new fun bucket => (s.bucket bucket).inner).take build (mutTracker build s.storeId) stack
      steps s.slot = .ok (s.items.take steps, iter, s.slot) := by
  rcases GenIter.take_of_invariant (P := fun _ slots => slots = s.slot) build _ (h.act build) stack steps
    (GenIter.valid_new h.doubling) rfl with hdeep | ⟨iter, slots, htake, -, -, rfl⟩
  · exact Or.inl hdeep
  · exact Or.inr ⟨iter, htake⟩

omit [DecidableEq T] in
theorem exists_overflow (h : s.Still) (build : Build) {stack : ℕ} (hdeep : stack < s.callDepth) :
    ∃ steps, (GenIter.new fun bucket => (s.bucket bucket).inner).take build (mutTracker build s.storeId) stack
      steps s.slot = .error .stackOverflow :=
  GenIter.exists_take_overflow (P := fun _ slots => slots = s.slot) build _ (h.act build)
    (GenIter.valid_new h.doubling) rfl hdeep

/-! ### Owned slots -/

end State.Still

/-- Resetting an unlocked header. -/
theorem reset_unlocked (build : Build) (id : UInt32) :
    Header.reset build (Header.occupiedUnlockedBits id) = .ok (Header.unoccupiedBits id, some id) := by
  have hpacks := Header.occupiedUnlockedBits_packs id
  have hreaders : readersFromBits (Header.occupiedUnlockedBits id) = 0 := by
    rw [← UInt32.toNat_inj, hpacks.readersFromBits]
    rfl
  have hocc : isOccupied (Header.occupiedUnlockedBits id) = true := hpacks.isOccupied_iff.2 (by omega)
  have hblocking : Header.hasThreadBlocking build (Header.occupiedUnlockedBits id) = .ok false :=
    hpacks.hasThreadBlocking (by omega)
  unfold Header.reset
  simp only [hreaders, hocc, if_true, hpacks.idFromBits, beq_self_eq_true, debugAssert_true]
  show (Header.hasThreadBlocking build (Header.occupiedUnlockedBits id) >>= _) = _
  rw [hblocking]
  show (debugAssert build true _ >>= _) = _
  rw [debugAssert_true]
  rfl

theorem unoccupiedBits_clear (id : UInt32) :
    isOccupied (Header.unoccupiedBits id) = false ∧ readersFromBits (Header.unoccupiedBits id) = 0 := by
  have hpacks := Header.unoccupiedBits_packs id
  constructor
  · rw [Bool.eq_false_iff, Ne, hpacks.isOccupied_iff]
    omega
  · rw [← UInt32.toNat_inj, hpacks.readersFromBits]
    rfl

/-- A slot without an element, which nobody has locked. -/
def Slot.Clear (slot : Slot T E) : Prop :=
  isOccupied slot.header.word = false ∧ readersFromBits slot.header.word = 0

omit [DecidableEq T] in
theorem Slot.Clear.drop {slot : Slot T E} (h : slot.Clear) (build : Build) (payloadOffset : ℕ) :
    slot.drop build payloadOffset = .ok none := by
  obtain ⟨hocc, hreaders⟩ := h
  unfold Slot.drop Header.needsDrop
  rw [hocc]
  have hdrop : Header.drop build slot.header.word = .ok () := by
    unfold Header.drop
    simp only [hreaders, hocc, beq_self_eq_true, debugAssert_true, Bool.false_eq_true, and_false, if_false]
    rfl
  show (Header.drop build slot.header.word >>= _) = _
  rw [hdrop]
  rfl

omit [DecidableEq T] in
theorem dropSlots_clear (build : Build) (payloadOffset : ℕ) {addresses : List SlotAddress}
    {remains : Remains T E} (h : ∀ address ∈ addresses, (remains.slot address).Clear) :
    Remains.dropSlots build payloadOffset addresses remains = .ok remains := by
  induction addresses with
  | nil => rfl
  | cons address rest ih =>
    show ((remains.slot address).drop build payloadOffset >>= _) = _
    rw [(h address List.mem_cons_self).drop]
    exact ih fun other hmem => h other (List.mem_cons_of_mem _ hmem)

theorem mem_blockAddresses {bucket : Fin bucketCount} {block : ℕ} {len : UInt32} {address : SlotAddress}
    (h : address ∈ blockAddresses bucket block len) :
    address.bucket = bucket ∧ address.location.block = block := by
  obtain ⟨slot, -, rfl⟩ := List.mem_map.1 h
  exact ⟨rfl, rfl⟩

/-- The memory while an owned iteration has these actions left: the slots to visit are as they were, and
the others are clear. -/
structure Untaken (s : State T E) (actions : List Action) (remains : Remains T E) : Prop where
  same : ∀ address, .visit address ∈ actions → remains.slot address = s.slot address
  clear : ∀ address, .visit address ∉ actions → (remains.slot address).Clear
  once : (actions.filterMap Action.visited).Nodup
  behind : actions.Pairwise Action.LeavesBehind

namespace State.Still

omit [DecidableEq T] in
theorem take (h : s.Still) (build : Build) (address : SlotAddress) :
    ∃ slot : Slot T E, slot.Clear ∧ (s.slot address).take build =
      .ok (slot, (s.item (.visit address)).map fun item => (item.1.ordinal, item.2)) := by
  cases hocc : isOccupied (s.header address).word with
  | true =>
    obtain ⟨element, hvalue, hitem⟩ := h.item_occupied hocc
    have hword := (h.occupied address hocc).1
    generalize hid : currentId (s.header address).word = id at hword
    have hreset : Header.reset build (s.slot address).header.word = .ok (Header.unoccupiedBits id, some id) := by
      rw [show (s.slot address).header.word = _ from hword]
      exact reset_unlocked build id
    have helement : assumeInit build (s.slot address).value = .ok element := by
      rw [show (s.slot address).value = some element from hvalue]
      rfl
    let slot : Slot T E :=
      { s.slot address with header := { (s.slot address).header with word := Header.unoccupiedBits id } }
    have hclear : slot.Clear := unoccupiedBits_clear id
    have htake : (s.slot address).take build = .ok (slot, some (id, element)) := by
      unfold Slot.take
      rw [hreset]
      show (assumeInit build (s.slot address).value >>= _) = _
      rw [helement]
      rfl
    refine ⟨slot, hclear, ?_⟩
    rw [htake, hitem, ← hid]
    rfl
  | false =>
    refine ⟨s.slot address, ⟨hocc, h.unoccupied address hocc⟩, ?_⟩
    have hreset : Header.reset build (s.slot address).header.word = .ok ((s.slot address).header.word, none) := by
      have hreaders : readersFromBits (s.slot address).header.word = 0 := h.unoccupied address hocc
      have hocc' : isOccupied (s.slot address).header.word = false := hocc
      unfold Header.reset
      simp only [hreaders, hocc', beq_self_eq_true, debugAssert_true, Bool.false_eq_true, if_false]
      rfl
    unfold Slot.take
    rw [hreset, item_unoccupied hocc]
    rfl

omit [DecidableEq T] in
theorem visit (h : s.Still) (build : Build) (payloadOffset : ℕ) {address : SlotAddress} {remains : Remains T E}
    (hsame : remains.slot address = s.slot address) :
    ∃ slot : Slot T E, slot.Clear ∧ (ownedTracker build payloadOffset s.storeId).visit address remains =
      .ok (s.item (.visit address), { remains with slot := Function.update remains.slot address slot }) := by
  obtain ⟨slot, hclear, htake⟩ := h.take build address
  refine ⟨slot, hclear, ?_⟩
  show ((remains.slot address).take build >>= _) = _
  rw [hsame, htake]
  cases hocc : isOccupied (s.header address).word with
  | true =>
    obtain ⟨element, -, hitem⟩ := h.item_occupied hocc
    rw [hitem]
    rfl
  | false =>
    rw [item_unoccupied hocc]
    rfl

omit [DecidableEq T] in
/-- One action of an owned iteration. -/
theorem untaken_step (h : s.Still) (build : Build) (payloadOffset : ℕ) (action : Action) (rest : List Action)
    (remains : Remains T E) (hleft : Untaken s (action :: rest) remains) :
    ∃ remains', (ownedTracker build payloadOffset s.storeId).act action remains =
      .ok (s.item action, remains') ∧ Untaken s rest remains' := by
  obtain ⟨hbehind, hpairwise⟩ := List.pairwise_cons.1 hleft.behind
  cases action with
  | visit address =>
    obtain ⟨slot, hclear, hvisit⟩ := h.visit build payloadOffset (hleft.same address List.mem_cons_self)
    have honce : address ∉ rest.filterMap Action.visited ∧ (rest.filterMap Action.visited).Nodup :=
      List.nodup_cons.1 hleft.once
    have hnot : .visit address ∉ rest := fun hmem => honce.1 (List.mem_filterMap.2 ⟨_, hmem, rfl⟩)
    refine ⟨_, hvisit, fun other hmem => ?_, fun other hmem => ?_, honce.2, hpairwise⟩
    · have hne : other ≠ address := by
        rintro rfl
        exact hnot hmem
      show Function.update remains.slot address slot other = _
      rw [Function.update_of_ne hne]
      exact hleft.same other (List.mem_cons_of_mem _ hmem)
    · show (Function.update remains.slot address slot other).Clear
      by_cases he : other = address
      · rw [he, Function.update_self]
        exact hclear
      · rw [Function.update_of_ne he]
        refine hleft.clear other fun hcons => ?_
        rcases List.mem_cons.1 hcons with heq | hrest
        · exact he (Action.visit.inj heq)
        · exact hmem hrest
  | leave bucket block len =>
    have hclear : ∀ address ∈ blockAddresses bucket block len, (remains.slot address).Clear := by
      intro address hmem
      refine hleft.clear address fun hvisit => ?_
      rcases List.mem_cons.1 hvisit with heq | hrest
      · cases heq
      · exact hbehind _ hrest (mem_blockAddresses hmem)
    refine ⟨remains, ?_, fun other hmem => hleft.same other (List.mem_cons_of_mem _ hmem),
      fun other hmem => hleft.clear other fun hcons => ?_, hleft.once, hpairwise⟩
    · show (Remains.dropSlots build payloadOffset (blockAddresses bucket block len) remains >>= _) = _
      rw [dropSlots_clear build payloadOffset hclear]
      rfl
    · rcases List.mem_cons.1 hcons with heq | hrest
      · cases heq
      · exact hmem hrest

omit [DecidableEq T] in
theorem untaken_new (h : s.Still) : Untaken s (GenIter.new fun bucket => (s.bucket bucket).inner).actions
    (⟨s.slot, []⟩ : Remains T E) where
  same _ _ := rfl
  clear address hnot := by
    have hocc : isOccupied (s.header address).word = false := by
      rw [Bool.eq_false_iff]
      exact fun hocc => hnot (h.visited hocc)
    exact ⟨hocc, h.unoccupied address hocc⟩
  once := GenIter.nodup_pending_new h.doubling
  behind := leavesBehind_new h.doubling

omit [DecidableEq T] in
theorem intoIter (h : s.Still) (build : Build) (payloadOffset : ℕ) {stack : ℕ} (hdeep : s.callDepth ≤ stack)
    (steps : ℕ) :
    ∃ iter remains, (GenIter.new fun bucket => (s.bucket bucket).inner).take build
      (ownedTracker build payloadOffset s.storeId) stack steps ⟨s.slot, []⟩ =
        .ok (s.items.take steps, iter, remains) := by
  rcases GenIter.take_of_invariant build _ (h.untaken_step build payloadOffset) stack steps
    (GenIter.valid_new h.doubling) h.untaken_new with ⟨-, hshort⟩ | ⟨iter, remains, htake, -⟩
  · exact absurd hdeep (Nat.not_le.2 hshort)
  · exact ⟨iter, remains, htake⟩

/-! ### The items are the elements -/

omit [DecidableEq T] in
theorem mem_items {id : Id} {element : E} (hmem : (id, element) ∈ s.items) :
    id = s.idAt id.slotAddress ∧ isOccupied (s.header id.slotAddress).word = true ∧
      s.value id.slotAddress = some element := by
  obtain ⟨action, -, hitem⟩ := List.mem_filterMap.1 hmem
  cases action with
  | leave => cases hitem
  | visit address =>
    cases hocc : isOccupied (s.header address).word with
    | false =>
      rw [item_unoccupied hocc] at hitem
      cases hitem
    | true =>
      simp only [State.item, hocc, if_true] at hitem
      obtain ⟨element', hvalue, he⟩ := Option.map_eq_some_iff.1 hitem
      cases he
      exact ⟨rfl, hocc, hvalue⟩

omit [DecidableEq T] in
theorem getExclusive {address : SlotAddress} {element : E} (hvalue : s.value address = some element) :
    (s.slot address).getExclusive build (currentId (s.header address).word) = .ok (some element) := by
  have heq : currentId (s.slot address).header.word = currentId (s.header address).word := rfl
  unfold Slot.getExclusive
  rw [if_pos heq, show (s.slot address).value = some element from hvalue]
  rfl

omit [DecidableEq T] in
theorem nodup_items (h : s.Still) : (s.items.map fun item => item.1.slotAddress).Nodup := by
  have hsub : ∀ actions : List Action, ((actions.filterMap s.item).map fun item => item.1.slotAddress).Sublist
      (actions.filterMap Action.visited) := by
    intro actions
    induction actions with
    | nil => exact .slnil
    | cons action rest ih =>
      cases action with
      | leave => exact ih
      | visit address =>
        have hvisited : (Action.visit address :: rest).filterMap Action.visited =
            address :: rest.filterMap Action.visited := rfl
        rw [hvisited, List.filterMap_cons]
        cases hitem : s.item (.visit address) with
        | none => exact ih.cons address
        | some item =>
          have haddress : item.1.slotAddress = address := by
            cases hocc : isOccupied (s.header address).word with
            | false =>
              rw [item_unoccupied hocc] at hitem
              cases hitem
            | true =>
              simp only [State.item, hocc, if_true] at hitem
              obtain ⟨element, -, rfl⟩ := Option.map_eq_some_iff.1 hitem
              rfl
          show (item.1.slotAddress :: _).Sublist _
          rw [haddress]
          exact ih.cons_cons address
  exact (hsub _).nodup (GenIter.nodup_pending_new h.doubling)

omit [DecidableEq T] in
theorem mem_items_of_occupied (h : s.Still) {address : SlotAddress} {element : E}
    (hocc : isOccupied (s.header address).word = true) (hvalue : s.value address = some element) :
    (s.idAt address, element) ∈ s.items := by
  obtain ⟨element', hvalue', hitem⟩ := h.item_occupied hocc
  rw [hvalue] at hvalue'
  cases hvalue'
  exact List.mem_filterMap.2 ⟨_, h.visited hocc, hitem⟩

omit [DecidableEq T] in
/-- On a stack that is deep enough iteration is exact. -/
theorem yields (h : s.Still) (build : Build) (payloadOffset : ℕ) {stack : ℕ} (hdeep : s.callDepth ≤ stack) :
    Yields build payloadOffset stack s s.items where
  complete address element hocc hvalue := h.mem_items_of_occupied hocc hvalue
  present id element hmem := by
    obtain ⟨hid, hocc, hvalue⟩ := mem_items hmem
    have hordinal : id.ordinal = currentId (s.header id.slotAddress).word := congrArg Id.ordinal hid
    refine ⟨hid, hocc, hvalue, ?_, ?_⟩
    · rw [hid]
      exact h.noted id.slotAddress hocc
    · rw [hordinal]
      exact getExclusive hvalue
  nodup := h.nodup_items
  iterMut steps := (h.iterMut build stack steps).resolve_left fun hover => Nat.not_le.2 hover.2 hdeep
  intoIter := h.intoIter build payloadOffset hdeep

end State.Still

/-- While no counter wraps around, the iterators of a store that nobody is using yield its elements, exactly
if the stack is deep enough for their calls. -/
theorem iterates (build : Build) (T E : Type) [Fintype T] [DecidableEq T] (payloadOffset stack : ℕ)
    (s : State T E) (h : ((machine build T E).restrict State.NoWrap).Reachable s) (hquiet : s.Quiet) :
    (∃ items, Yields build payloadOffset stack s items) ↔ s.callDepth ≤ stack := by
  have hstill := (sound_of_reachable h).still (noted_of_reachable h) hquiet
  constructor
  · rintro ⟨items, hyields⟩
    by_contra hshort
    obtain ⟨steps, hover⟩ := hstill.exists_overflow build (Nat.not_le.1 hshort)
    obtain ⟨iter, htake⟩ := hyields.iterMut steps
    rw [hover] at htake
    cases htake
  · intro hdeep
    exact ⟨s.items, hstill.yields build payloadOffset hdeep⟩

/-- The thread inserts an element, and is done. -/
def insertOne : List (Event (Fin 1) Bool) :=
  wholeCall 0 (.insert true) 13

/-- Four inserts into one bucket fill three blocks, and then the second and the fourth element are removed. -/
def fillBlocks : List (Event (Fin 1) Bool) :=
  List.flatten [insertOne, List.replicate 15 (.elsewhere 0), insertOne, List.replicate 15 (.elsewhere 0),
    wholeCall 0 (.insert false) 8, List.replicate 15 (.elsewhere 0), insertOne,
    wholeCall 0 (.remove ⟨0, ⟨9, ⟨1, 0⟩⟩, 0⟩ .plain) 4, wholeCall 0 (.remove ⟨0, ⟨9, ⟨2, 0⟩⟩, 0⟩ .plain) 4]

/-- Two elements in three blocks with emptied slots: a stack for eleven calls of `next` is deep enough, and
one for ten is not. -/
theorem iterates_three_blocks : ∃ s : State (Fin 1) Bool,
    (s.bucket 9).inner.blocks = [4, 2, 1] ∧ (s.bucket 9).inner.touched.length = 4 ∧ s.erasures.length = 2 ∧
      (∃ items, Yields .debug 0 11 s items) ∧ ¬∃ items, Yields .debug 0 10 s items := by
  obtain ⟨s, hr, hp⟩ := exists_reachable_noWrap .debug 0 (fun _ => 0) fillBlocks
    (fun s => decide (s.Quiet ∧ (s.bucket 9).inner.blocks = [4, 2, 1] ∧ (s.bucket 9).inner.touched.length = 4 ∧
      s.erasures.length = 2 ∧ s.callDepth = 11)) (by decide +kernel)
  obtain ⟨hquiet, hblocks, htouched, herasures, hdepth⟩ := of_decide_eq_true hp
  refine ⟨s, hblocks, htouched, herasures, (iterates .debug (Fin 1) Bool 0 11 s hr hquiet).2 (Nat.le_of_eq hdepth), ?_⟩
  rw [iterates .debug (Fin 1) Bool 0 10 s hr hquiet, hdepth]
  decide

/-! ## After a counter has wrapped around -/

omit [DecidableEq T] in
theorem visit_of_item {storeId : UInt64} {action : Action} {slots slots' : SlotAddress → Slot T E}
    {item : Id × E} (h : (mutTracker build storeId).act action slots = .ok (some item, slots')) :
    action = .visit item.1.slotAddress := by
  cases action with
  | leave => cases h
  | visit address =>
    obtain ⟨contents, -, h⟩ := Checked.bind_eq_ok h
    cases contents with
    | none => cases h
    | some content =>
      cases h
      rfl

omit [DecidableEq T] in
/-- The items of `iter_mut` come from slots that it visits. -/
theorem Yields.visited {payloadOffset stack : ℕ} {items : List (Id × E)}
    (h : Yields build payloadOffset stack s items)
    (hd : ∀ bucket, Bucket.Doubling (s.bucket bucket).inner.blocks) {item : Id × E} (hmem : item ∈ items) :
    item.1.slotAddress.location ∈ (s.bucket item.1.slotAddress.bucket).inner.touched := by
  obtain ⟨iter, htake⟩ := h.iterMut items.length
  rw [List.take_length] at htake
  obtain ⟨hwalks, -⟩ := GenIter.walks_of_take (GenIter.valid_new hd) htake
  obtain ⟨done, hactions, hwalked⟩ := Transition.walks_eq_ok hwalks
  obtain ⟨action, haction, slots, slots', hact⟩ := Transition.mem_of_walkAll hwalked hmem
  have hvisit : .visit item.1.slotAddress ∈ (GenIter.new fun bucket => (s.bucket bucket).inner).actions := by
    rw [hactions, ← visit_of_item hact]
    exact List.mem_append_left _ haction
  exact (GenIter.mem_pending_new _).1 (visit_mem_actions.1 hvisit)

/-- Once the counter of a bucket has wrapped around, iteration misses the elements in its head, however deep
the stack is. -/
theorem iteration_misses_the_head : ∃ s : State (Fin 1) Unit, (machine .debug (Fin 1) Unit).Reachable s ∧
    s.Quiet ∧ ∀ stack, ¬∃ items, Yields .debug 0 stack s items := by
  obtain ⟨s, inner, hr, hrest, hsettled, hlen, hstocked⟩ := exists_wrapped ()
  obtain ⟨inner', location, hdraws, hout⟩ := hsettled.repeats .debug hlen
  have hinner : ∀ bucket, (s.bucket bucket).inner = onlyFirst ⟨inner.blocks, 0⟩ bucket := by
    intro bucket
    rw [hrest.bucket]
    rfl
  refine ⟨s, hr, hstocked.quiet hrest, ?_⟩
  rintro stack ⟨items, hyields⟩
  have hslot := hstocked.occupied location hout
  have hmem : (s.idAt ⟨0, location⟩, ()) ∈ items := by
    refine hyields.complete ⟨0, location⟩ () ?_ ?_
    · unfold State.header
      rw [hslot]
      rfl
    · unfold State.value
      rw [hslot]
  have hdoubling : ∀ bucket, Bucket.Doubling (s.bucket bucket).inner.blocks := by
    intro bucket
    rw [hinner, onlyFirst]
    by_cases hb : bucket = 0
    · rw [if_pos hb]
      exact hsettled.doubling
    · rw [if_neg hb]
      trivial
  have hvisited : location ∈ (s.bucket 0).inner.touched := hyields.visited hdoubling hmem
  rw [hinner, onlyFirst, if_pos rfl] at hvisited
  have hwrapped : Bucket.Doubling (⟨inner.blocks, 0⟩ : Bucket.Inner).blocks := hsettled.doubling
  exact hdraws.fresh ((Bucket.mem_touched hwrapped).1 hvisited)

end ReadWriteStore.Store

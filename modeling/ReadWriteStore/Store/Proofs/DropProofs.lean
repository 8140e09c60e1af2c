import ReadWriteStore.Store.Fate
import ReadWriteStore.Store.Proofs.IterationProofs

/-!
# The end of a store

A drop visits every slot of every block that is left once, and in a store that nobody is using it destroys what
the slots hold. An owned iteration leaves no element behind it, so the items and the elements destroyed are the
elements present.
-/

namespace ReadWriteStore.Store

open Header (isOccupied currentId readersFromBits)

variable {T E : Type} {build : Build} {payloadOffset : ℕ} {s : State T E}

/-! ## The slots of a chain -/

section Chain

theorem mem_blockAddresses_iff {bucket : Fin bucketCount} {block : ℕ} {len : UInt32} {address : SlotAddress} :
    address ∈ blockAddresses bucket block len ↔
      address.bucket = bucket ∧ address.location.block = block ∧ address.location.slot < len := by
  unfold blockAddresses
  rw [List.mem_map]
  constructor
  · rintro ⟨slot, hslot, rfl⟩
    exact ⟨rfl, rfl, Bucket.ofNat_lt (List.mem_range.1 hslot)⟩
  · rintro ⟨rfl, rfl, hslot⟩
    refine ⟨address.location.slot.toNat, List.mem_range.2 (UInt32.lt_iff_toNat_lt.1 hslot), ?_⟩
    rw [UInt32.ofNat_toNat]

theorem nodup_blockAddresses (bucket : Fin bucketCount) (block : ℕ) (len : UInt32) :
    (blockAddresses bucket block len).Nodup := by
  refine List.Nodup.map_on ?_ List.nodup_range
  intro i hi j hj he
  have hnat := congrArg (fun address => address.location.slot.toNat) he
  have := len.toNat_lt
  rw [List.mem_range] at hi hj
  simp only [UInt32.toNat_ofNat'] at hnat
  omega

theorem mem_chainAddresses {bucket : Fin bucketCount} {chain : List UInt32} {address : SlotAddress} :
    address ∈ chainAddresses bucket chain ↔
      address.bucket = bucket ∧ (⟨chain, 0⟩ : Bucket.Inner).Contains address.location := by
  induction chain with
  | nil =>
    unfold chainAddresses Bucket.Inner.Contains Bucket.Inner.blockLen
    simp
  | cons len older ih =>
    rw [chainAddresses, List.mem_append, ih, mem_blockAddresses_iff, Bucket.Inner.contains_cons]
    tauto

theorem nodup_chainAddresses (bucket : Fin bucketCount) (chain : List UInt32) :
    (chainAddresses bucket chain).Nodup := by
  induction chain with
  | nil => exact List.nodup_nil
  | cons len older ih =>
    rw [chainAddresses, List.nodup_append]
    refine ⟨ih, nodup_blockAddresses bucket older.length len, ?_⟩
    rintro address hmem _ hmem' rfl
    obtain ⟨-, len', hlen, -⟩ := mem_chainAddresses.1 hmem
    have hlt := Bucket.Inner.blockLen_lt hlen
    rw [(mem_blockAddresses_iff.1 hmem').2.1] at hlt
    exact Nat.lt_irrefl _ hlt

/-- What an iterator has still to visit is in the blocks that it has not left. -/
theorem BucketIter.pending_subset {iter : BucketIter} (h : iter.Valid) :
    iter.pending ⊆ chainAddresses iter.bucket iter.chain := by
  intro address hmem
  unfold BucketIter.pending BucketIter.actions at hmem
  rw [visited_chainActions] at hmem
  obtain ⟨location, hlocation, rfl⟩ := List.mem_map.1 hmem
  refine mem_chainAddresses.2 ⟨rfl, ?_⟩
  obtain ⟨bucket, last, chain⟩ := iter
  obtain ⟨hd, hle⟩ := h
  cases chain with
  | nil => cases hlocation
  | cons len older =>
    refine (Bucket.mem_touchedFrom_full hd 0).1 ?_
    rw [Bucket.mem_touchedFrom_cons] at hlocation ⊢
    refine hlocation.imp_left fun ⟨hblock, slot, hslot, hp⟩ => ⟨hblock, slot, ?_, hp⟩
    exact UInt32.lt_of_lt_of_le hslot hle

end Chain

/-! ## The blocks that an iterator has not left -/

section Iter

variable {σ α : Type} {tracker : Tracker σ α} {iter iter' : GenIter} {memory memory' : σ} {stack : ℕ}

theorem GenIter.next_buckets {item : Option α} (h : iter.Valid)
    (hnext : iter.next build tracker stack memory = .ok (item, iter', memory')) :
    iter'.map BucketIter.bucket <:+ iter.map BucketIter.bucket := by
  induction stack generalizing iter memory with
  | zero => cases hnext
  | succ stack ih =>
    cases iter with
    | nil =>
      cases hnext
      exact List.suffix_refl _
    | cons current rest =>
      have hwalked := BucketIter.next_walked build tracker stack (h current List.mem_cons_self) memory
      obtain ⟨⟨found, current', memory₁⟩, hcurrent, hnext⟩ := Checked.bind_eq_ok hnext
      rw [hcurrent] at hwalked
      generalize Transition.stackWalk _ tracker.act stack current.actions memory = left at hwalked
      cases hwalked with
      | done hfollow =>
        cases found with
        | some found =>
          cases hnext
          rw [List.map_cons, List.map_cons, hfollow.2.1]
        | none =>
          refine (ih (fun other hmem => h other (List.mem_cons_of_mem _ hmem)) hnext).trans ?_
          rw [List.map_cons]
          exact List.suffix_cons _ _

theorem GenIter.take_buckets {steps : ℕ} {items : List α} (h : iter.Valid)
    (htake : iter.take build tracker stack steps memory = .ok (items, iter', memory')) :
    iter'.map BucketIter.bucket <:+ iter.map BucketIter.bucket := by
  induction steps generalizing iter memory items with
  | zero =>
    cases htake
    exact List.suffix_refl _
  | succ steps ih =>
    obtain ⟨⟨item, iter₁, memory₁⟩, hnext, htake⟩ := Checked.bind_eq_ok htake
    obtain ⟨⟨items₁, iter₂, memory₂⟩, hrest, htake⟩ := Checked.bind_eq_ok htake
    cases htake
    have hwalked := GenIter.next_walked build tracker stack h memory
    rw [hnext] at hwalked
    generalize Transition.stackWalkLists _ tracker.act stack iter.chains memory = left at hwalked
    cases hwalked with
    | done hfollow => exact (ih hfollow.valid hrest).trans (GenIter.next_buckets h hnext)

theorem GenIter.nodup_addresses (h : (iter.map BucketIter.bucket).Nodup) : iter.addresses.Nodup := by
  unfold GenIter.addresses
  rw [List.nodup_flatMap]
  refine ⟨fun current _ => nodup_chainAddresses _ _, ?_⟩
  have hpairwise := List.nodup_reverse.2 h
  rw [← List.map_reverse] at hpairwise
  refine (List.pairwise_map.1 hpairwise).imp fun hne => ?_
  rw [Function.onFun, List.disjoint_left]
  intro address hmem hmem'
  exact hne ((mem_chainAddresses.1 hmem).1.symm.trans (mem_chainAddresses.1 hmem').1)

theorem GenIter.pending_subset (h : iter.Valid) : iter.pending ⊆ iter.addresses := by
  induction iter with
  | nil => exact List.nil_subset _
  | cons current rest ih =>
    have haddresses : GenIter.addresses (current :: rest) =
        GenIter.addresses rest ++ chainAddresses current.bucket current.chain := by
      unfold GenIter.addresses
      rw [List.reverse_cons, List.flatMap_append]
      simp
    rw [GenIter.pending_cons, haddresses]
    refine List.append_subset.2 ⟨fun address hmem => ?_, fun address hmem => ?_⟩
    · exact List.mem_append_right _ (BucketIter.pending_subset (h current List.mem_cons_self) hmem)
    · exact List.mem_append_left _ (ih (fun other hother => h other (List.mem_cons_of_mem _ hother)) hmem)

theorem GenIter.nodup_buckets_new (inner : Fin bucketCount → Bucket.Inner) :
    ((GenIter.new inner).map BucketIter.bucket).Nodup := by
  unfold GenIter.new
  rw [List.map_reverse, List.nodup_reverse, List.map_map]
  exact (List.map_id (List.finRange bucketCount)).symm ▸ List.nodup_finRange bucketCount

end Iter

/-! ## Slots at rest -/

section Slots

/-- The element in a slot. -/
def Slot.stored (slot : Slot T E) : Option E := if isOccupied slot.header.word then slot.value else none

/-- Nobody has locked the slot, and there is an element if the header says so. -/
structure Slot.Settled (slot : Slot T E) : Prop where
  occupied : isOccupied slot.header.word = true →
    slot.header.word = Header.occupiedUnlockedBits (currentId slot.header.word) ∧ slot.value.isSome = true
  unoccupied : isOccupied slot.header.word = false → readersFromBits slot.header.word = 0

theorem Slot.Clear.settled {slot : Slot T E} (h : slot.Clear) : slot.Settled where
  occupied hocc := by
    rw [h.1] at hocc
    cases hocc
  unoccupied _ := h.2

theorem Slot.Clear.stored {slot : Slot T E} (h : slot.Clear) : slot.stored = none := by
  unfold Slot.stored
  rw [h.1]
  rfl

theorem drop_unlocked (build : Build) (id : UInt32) :
    Header.drop build (Header.occupiedUnlockedBits id) = .ok () := by
  have hpacks := Header.occupiedUnlockedBits_packs id
  have hreaders : readersFromBits (Header.occupiedUnlockedBits id) = 0 := by
    rw [← UInt32.toNat_inj, hpacks.readersFromBits]
    rfl
  have hblocking : Header.hasThreadBlocking build (Header.occupiedUnlockedBits id) = .ok false :=
    hpacks.hasThreadBlocking (by omega)
  unfold Header.drop
  simp only [hreaders, beq_self_eq_true, debugAssert_true]
  show (if build = .debug ∧ isOccupied (Header.occupiedUnlockedBits id) = true then _ else _) = _
  split
  · show (Header.hasThreadBlocking build (Header.occupiedUnlockedBits id) >>= _) = _
    rw [hblocking]
    exact debugAssert_true ..
  · rfl

/-- The drop of a slot destroys the element in it. -/
theorem Slot.Settled.drop {slot : Slot T E} (h : slot.Settled)
    (hpayload : isOccupied slot.header.word = true → build = .release ∨ payloadOffset = 0) :
    slot.drop build payloadOffset = .ok slot.stored := by
  cases hocc : isOccupied slot.header.word with
  | false =>
    have hclear : slot.Clear := ⟨hocc, h.unoccupied hocc⟩
    rw [hclear.stored]
    exact hclear.drop build payloadOffset
  | true =>
    obtain ⟨hword, hsome⟩ := h.occupied hocc
    obtain ⟨element, hvalue⟩ := Option.isSome_iff_exists.1 hsome
    have hplace : ¬(build = .debug ∧ payloadOffset ≠ 0) := by
      rintro ⟨rfl, hne⟩
      exact (hpayload hocc).elim nofun hne
    have hdrop : Header.drop build slot.header.word = .ok () := by
      rw [hword]
      exact drop_unlocked build _
    have hin : dropInPlace build payloadOffset (some element) = .ok element := by
      unfold dropInPlace
      rw [if_neg hplace]
    unfold Slot.drop Header.needsDrop Slot.stored
    simp only [hocc, if_true, hvalue, hin]
    show (Header.drop build slot.header.word >>= _) = _
    rw [hdrop]
    rfl

theorem dropSlots_settled {addresses : List SlotAddress} {remains : Remains T E}
    (h : ∀ address ∈ addresses, (remains.slot address).Settled)
    (hpayload : ∀ address ∈ addresses, isOccupied (remains.slot address).header.word = true →
      build = .release ∨ payloadOffset = 0) :
    Remains.dropSlots build payloadOffset addresses remains = .ok { remains with
      destroyed := (addresses.filterMap fun address => (remains.slot address).stored).reverse ++ remains.destroyed } := by
  induction addresses generalizing remains with
  | nil => rfl
  | cons address rest ih =>
    show ((remains.slot address).drop build payloadOffset >>= _) = _
    rw [(h address List.mem_cons_self).drop (hpayload address List.mem_cons_self)]
    have hrest := @ih { remains with destroyed := (remains.slot address).stored.toList ++ remains.destroyed }
      (fun other hmem => h other (List.mem_cons_of_mem _ hmem))
      fun other hmem => hpayload other (List.mem_cons_of_mem _ hmem)
    show Remains.dropSlots build payloadOffset rest _ = _
    rw [hrest, List.filterMap_cons]
    cases hstored : (remains.slot address).stored <;> simp

/-- Where the payload of the `Option` is not at its start, no drop of a slot destroys an element. -/
theorem dropSlots_misplaced (hne : payloadOffset ≠ 0) {addresses : List SlotAddress} {remains remains' : Remains T E}
    (hdrop : Remains.dropSlots .debug payloadOffset addresses remains = .ok remains') :
    remains'.destroyed = remains.destroyed := by
  induction addresses generalizing remains with
  | nil =>
    cases hdrop
    rfl
  | cons address rest ih =>
    obtain ⟨element, hslot, hdrop⟩ := Checked.bind_eq_ok hdrop
    have hnone : element = none := by
      unfold Slot.drop at hslot
      cases hneeds : Header.needsDrop (remains.slot address).header.word with
      | false =>
        simp only [hneeds, Bool.false_eq_true, if_false] at hslot
        obtain ⟨element', hin, hslot⟩ := Checked.bind_eq_ok hslot
        obtain ⟨_, -, hslot⟩ := Checked.bind_eq_ok hslot
        cases hin
        cases hslot
        rfl
      | true =>
        simp only [hneeds, if_true] at hslot
        obtain ⟨element', hin, -⟩ := Checked.bind_eq_ok hslot
        unfold dropInPlace at hin
        rw [if_pos ⟨rfl, hne⟩] at hin
        cases hin
    subst hnone
    exact ih hdrop

/-- Elements that contribute nothing may be left out. -/
theorem perm_filterMap {α β : Type} {f : α → Option β} {l l' : List α} (hl : l.Nodup) (hl' : l'.Nodup)
    (hsub : l ⊆ l') (hnone : ∀ a ∈ l', a ∉ l → f a = none) : (l'.filterMap f).Perm (l.filterMap f) := by
  obtain ⟨l₁, hperm₁, hsublist⟩ := List.subperm_of_subset hl hsub
  obtain ⟨rest, hrest⟩ := hsublist.exists_perm_append
  have hperm := hrest.trans (hperm₁.append_right rest)
  have hdisjoint := (List.nodup_append.1 (hperm.nodup_iff.1 hl')).2.2
  have hnil : rest.filterMap f = [] := by
    rw [List.filterMap_eq_nil_iff]
    intro a ha
    exact hnone a (hperm.mem_iff.2 (List.mem_append_right _ ha)) fun hal => hdisjoint a hal a ha rfl
  have := hperm.filterMap f
  rwa [List.filterMap_append, hnil, List.append_nil] at this

end Slots

/-! ## A store that nobody is using -/

namespace State.Still

theorem settled (h : s.Still) (address : SlotAddress) : (s.slot address).Settled where
  occupied := h.occupied address
  unoccupied := h.unoccupied address

/-- A visit and the drop of a block without elements destroy nothing. -/
theorem act_destroyed {storeId : UInt64} {action : Action} {rest : List Action} {item : Option (Id × E)}
    {remains remains' : Remains T E} (hleft : Untaken s (action :: rest) remains)
    (hact : (ownedTracker build payloadOffset storeId).act action remains = .ok (item, remains')) :
    remains'.destroyed = remains.destroyed := by
  cases action with
  | visit address =>
    obtain ⟨⟨slot, contents⟩, -, hact⟩ := Checked.bind_eq_ok hact
    cases contents <;> cases hact <;> rfl
  | leave bucket block len =>
    have hclear : ∀ address ∈ blockAddresses bucket block len, (remains.slot address).Clear := by
      intro address hmem
      refine hleft.clear address fun hvisit => ?_
      rcases List.mem_cons.1 hvisit with heq | hrest
      · cases heq
      · exact (List.pairwise_cons.1 hleft.behind).1 _ hrest (mem_blockAddresses hmem)
    obtain ⟨remains₁, hdrop, hact⟩ := Checked.bind_eq_ok hact
    have hsame := dropSlots_clear build payloadOffset hclear
    cases hsame.symm.trans hdrop
    cases hact
    rfl

theorem unspent_step (h : s.Still) (build : Build) (payloadOffset : ℕ) (action : Action) (rest : List Action)
    (remains : Remains T E) (hp : Untaken s (action :: rest) remains ∧ remains.destroyed = []) :
    ∃ remains', (ownedTracker build payloadOffset s.storeId).act action remains = .ok (s.item action, remains') ∧
      Untaken s rest remains' ∧ remains'.destroyed = [] := by
  obtain ⟨remains', hact, hleft⟩ := h.untaken_step build payloadOffset action rest remains hp.1
  exact ⟨remains', hact, hleft, (act_destroyed hp.1 hact).trans hp.2⟩

/-- What the iterator has still to visit, and what a drop destroys of it. -/
theorem stored_pending {actions : List Action} {remains : Remains T E}
    (hsame : ∀ address, .visit address ∈ actions → remains.slot address = s.slot address) :
    (actions.filterMap Action.visited).filterMap (fun address => (remains.slot address).stored) =
      (actions.filterMap s.item).map Prod.snd := by
  induction actions with
  | nil => rfl
  | cons action rest ih =>
    have hrest := ih fun address hmem => hsame address (List.mem_cons_of_mem _ hmem)
    cases action with
    | leave => exact hrest
    | visit address =>
      have hstored : (remains.slot address).stored = (s.item (.visit address)).map Prod.snd := by
        rw [hsame address List.mem_cons_self]
        show (if isOccupied (s.header address).word then s.value address else none) = Option.map Prod.snd
          (if isOccupied (s.header address).word then (s.value address).map fun element => (s.idAt address, element)
            else none)
        split
        · cases s.value address <;> rfl
        · rfl
      rw [pending_cons, List.filterMap_append, hrest, List.filterMap_cons (f := s.item)]
      show List.filterMap _ [address] ++ _ = _
      rw [List.filterMap_cons, hstored]
      cases s.item (.visit address) <;> rfl

/-- An iterator that owns the store, and its drop: it overflows the stack, or returns the elements and
destroys those that are left. -/
theorem intoIter_drop (h : s.Still)
    (hpayload : ∀ address, isOccupied (s.header address).word = true → build = .release ∨ payloadOffset = 0)
    (stack steps : ℕ) :
    s.intoIter build payloadOffset stack steps = .error .stackOverflow ∧ stack < s.callDepth ∨
    ∃ destroyed, s.intoIter build payloadOffset stack steps = .ok (s.items.take steps, destroyed) ∧
      destroyed.Perm ((s.items.drop steps).map Prod.snd) := by
  have hvalid := GenIter.valid_new h.doubling
  rcases GenIter.take_of_invariant (P := fun actions remains => Untaken s actions remains ∧ remains.destroyed = [])
    build _ (h.unspent_step build payloadOffset) stack steps hvalid ⟨h.untaken_new, rfl⟩ with ⟨hover, hdeep⟩ | ⟨iter, remains, htake, hfollow, hitems, hleft, hdestroyed⟩
  · refine Or.inl ⟨?_, hdeep⟩
    unfold State.intoIter
    rw [hover]
    rfl
  right
  have hslot : ∀ address ∈ iter.addresses, (remains.slot address).Settled := by
    intro address _
    by_cases hmem : .visit address ∈ iter.actions
    · rw [hleft.same address hmem]
      exact h.settled address
    · exact (hleft.clear address hmem).settled
  have hsound : ∀ address ∈ iter.addresses, isOccupied (remains.slot address).header.word = true →
      build = .release ∨ payloadOffset = 0 := by
    intro address _ hocc
    by_cases hmem : .visit address ∈ iter.actions
    · rw [hleft.same address hmem] at hocc
      exact hpayload address hocc
    · rw [(hleft.clear address hmem).1] at hocc
      cases hocc
  have hdrop := dropSlots_settled hslot hsound
  refine ⟨(iter.addresses.filterMap fun address => (remains.slot address).stored).reverse, ?_, ?_⟩
  · unfold State.intoIter
    rw [htake]
    show (Remains.dropSlots build payloadOffset iter.addresses remains >>= _) = _
    rw [hdrop, hdestroyed, List.append_nil]
    rfl
  · have hnodup : iter.addresses.Nodup := GenIter.nodup_addresses
      ((GenIter.take_buckets hvalid htake).sublist.nodup (GenIter.nodup_buckets_new _))
    have hperm := perm_filterMap (f := fun address => (remains.slot address).stored) hleft.once hnodup
      (GenIter.pending_subset hfollow.valid) fun address _ hnot =>
        (hleft.clear address fun hmem => hnot (visit_mem_actions.1 hmem)).stored
    rw [stored_pending hleft.same, hitems] at hperm
    exact (List.reverse_perm _).trans hperm

/-- On a stack that is not deep enough the iterator overflows it. -/
theorem exists_intoIter_overflow (h : s.Still) (build : Build) (payloadOffset : ℕ) {stack : ℕ}
    (hdeep : stack < s.callDepth) :
    ∃ steps, s.intoIter build payloadOffset stack steps = .error .stackOverflow := by
  obtain ⟨steps, hover⟩ := GenIter.exists_take_overflow
    (P := fun actions remains => Untaken s actions remains ∧ remains.destroyed = []) build _
    (h.unspent_step build payloadOffset) (GenIter.valid_new h.doubling) ⟨h.untaken_new, rfl⟩ hdeep
  refine ⟨steps, ?_⟩
  unfold State.intoIter
  rw [hover]
  rfl

/-- The drop of a store is the drop of an iterator that has not been used. -/
theorem dropStore (h : s.Still)
    (hpayload : ∀ address, isOccupied (s.header address).word = true → build = .release ∨ payloadOffset = 0) :
    ∃ destroyed, s.dropStore build payloadOffset = .ok destroyed ∧ destroyed.Perm (s.items.map Prod.snd) := by
  obtain ⟨destroyed, hinto, hperm⟩ :=
    (h.intoIter_drop hpayload s.callDepth 0).resolve_left fun hover => Nat.lt_irrefl _ hover.2
  refine ⟨destroyed, ?_, hperm⟩
  obtain ⟨⟨items, iter, remains⟩, htake, hinto⟩ := Checked.bind_eq_ok hinto
  cases htake
  obtain ⟨remains', hdrop, hinto⟩ := Checked.bind_eq_ok hinto
  cases hinto
  have haddresses : (GenIter.new fun bucket => (s.bucket bucket).inner).addresses =
      (List.finRange bucketCount).flatMap fun bucket => chainAddresses bucket (s.bucket bucket).inner.blocks := by
    unfold GenIter.addresses GenIter.new
    rw [List.reverse_reverse, List.flatMap_map]
    rfl
  unfold State.dropStore
  rw [← haddresses, hdrop]
  rfl

end State.Still

theorem dropStore_misplaced (hne : payloadOffset ≠ 0) {destroyed : List E}
    (hdrop : s.dropStore .debug payloadOffset = .ok destroyed) : destroyed = [] := by
  obtain ⟨remains, hslots, hdrop⟩ := Checked.bind_eq_ok hdrop
  cases hdrop
  exact dropSlots_misplaced hne hslots

end ReadWriteStore.Store

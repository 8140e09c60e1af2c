import ReadWriteStore.Store.Foreign
import ReadWriteStore.Store.Proofs.MachineProofs

/-!
# A foreign ID or lock is rejected

Stores have different IDs, and every ID a store issues carries its own. So `assert_native_id` fails on
a foreign one before the call has touched anything, and what is left of the argument is dropped by the
unwinding: except by `remove_locked`, which has disarmed its lock by then.
-/

namespace ReadWriteStore.Store

/-! ## The IDs of stores -/

theorem generateStoreIds_get {count : ℕ} {next : UInt64} {k : ℕ} (hk : k < count) :
    (generateStoreIds count next)[k]? = some (next + UInt64.ofNat k) := by
  induction count generalizing next k with
  | zero => omega
  | succ count ih =>
    cases k with
    | zero => simp [generateStoreIds, generateStoreId]
    | succ k =>
      show (generateStoreIds count (next + 1))[k]? = _
      rw [ih (by omega), UInt64.ofNat_add, UInt64.add_assoc, UInt64.add_comm (UInt64.ofNat k)]
      rfl

/-- The first `2 ^ 64` stores of a program have different IDs. -/
theorem generateStoreIds_inj {count : ℕ} (hcount : count ≤ 2 ^ 64) {next : UInt64} {j k : ℕ}
    (hj : j < count) (hk : k < count)
    (h : (generateStoreIds count next)[j]? = (generateStoreIds count next)[k]?) : j = k := by
  rw [generateStoreIds_get hj, generateStoreIds_get hk] at h
  have hofNat : UInt64.ofNat j = UInt64.ofNat k := by
    have := Option.some.inj h
    exact (UInt64.add_right_inj next).1 this
  have hnat := congrArg UInt64.toNat hofNat
  rw [UInt64.toNat_ofNat', UInt64.toNat_ofNat'] at hnat
  omega

/-! ## The IDs of a store -/

section Issued

variable {T E : Type} [DecidableEq T] {build : Build} {s s' : State T E} {e : Event T E}

/-- A step issues no ID, or one of this store. -/
theorem Move.issued_cases (hm : Move build s e s') :
    s'.issued = s.issued ∨ ∃ id, id.storeId = s.storeId ∧ s'.issued = id :: s.issued := by
  cases hm with
  | @resume t _ frame result header control _ _ _ hres =>
    cases frame with
    | occupy address element =>
      cases result with
      | occupy ordinal => exact Or.inr ⟨⟨ordinal, address, s.storeId⟩, rfl, rfl⟩
      | _ => exact Or.inl rfl
    | _ => exact Or.inl rfl
  | @bucketFault t _ frame fault bucket _ _ _ => cases frame <;> exact Or.inl rfl
  | _ => exact Or.inl rfl

theorem issued_storeId (h : (machine build T E).Reachable s) : ∀ id ∈ s.issued, id.storeId = s.storeId := by
  induction h with
  | init hinit =>
    obtain ⟨storeId, generator, rfl⟩ := hinit
    intro id hid
    cases hid
  | step _ hs ih =>
    intro id hid
    have hm := Move.of_step hs.2
    rw [hm.storeId_eq]
    rcases hm.issued_cases with hsame | ⟨id', hid', hnew⟩
    · rw [hsame] at hid
      exact ih id hid
    · rw [hnew] at hid
      rcases List.mem_cons.1 hid with rfl | hid
      · exact hid'
      · exact ih id hid

end Issued

/-! ## Rejection -/

variable {T E : Type} {build : Build} {a b : State T E} {t : T} {call : Call E}

/-- A call that can take a foreign argument looks at its ID with `assert_native_id`. -/
theorem State.Provides.checkedId (h : b.Provides t call) :
    ∃ id, call.checkedId = some id ∧ id ∈ b.issued := by
  cases call with
  | remove id method => exact ⟨id, rfl, h⟩
  | removeLocked id => exact ⟨id, rfl, h.1⟩
  | read id method => exact ⟨id, rfl, h⟩
  | write id method => exact ⟨id, rfl, h⟩
  | getMut id => exact ⟨id, rfl, h⟩
  | replaceMut id element => exact ⟨id, rfl, h⟩
  | _ => exact absurd h not_false

theorem assertNativeId_debug (s : State T E) (id : Id) :
    s.assertNativeId .debug id =
      if id.storeId = s.storeId then .ok () else .error foreignFault := by
  unfold State.assertNativeId debugAssert
  by_cases h : id.storeId = s.storeId
  · simp [h]
  · have h' : ¬s.storeId = id.storeId := fun he => h he.symm
    simp [h, h', foreignFault]

variable [DecidableEq T]

/-- The check comes before anything else that a call does. -/
theorem step_foreign {id : Id} (hc : a.control t = .idle) (hid : call.checkedId = some id)
    (hne : id.storeId ≠ a.storeId) :
    step .debug a (.call t call) = some (a.setControl t (.faulted foreignFault)) := by
  have hcheck : a.assertNativeId .debug id = .error foreignFault := by
    rw [assertNativeId_debug, if_neg hne]
  have hstep : step .debug a (.call t call) = a.start .debug t call := by
    simp only [step, hc]
  rw [hstep]
  cases call with
  | remove id' method => cases hid; simp only [State.start, hcheck, State.checked]
  | removeLocked id' => cases hid; simp only [State.start, hcheck, State.checked]
  | read id' method => cases hid; simp only [State.start, hcheck, State.checked]
  | write id' method => cases hid; simp only [State.start, hcheck, State.checked]
  | getMut id' => cases hid; simp only [State.start, hcheck, State.checked]
  | replaceMut id' element => cases hid; simp only [State.start, hcheck, State.checked]
  | _ => cases hid

/-- On an ID of its own store a call does not fail with this fault. -/
theorem step_native {id : Id} (hid : call.checkedId = some id) (heq : id.storeId = a.storeId) {s : State T E}
    (h : step .debug a (.call t call) = some s) : s.control t ≠ .faulted foreignFault := by
  have hnone : ∀ id', call.checkedId = some id' → a.assertNativeId .debug id' = .ok () := by
    intro id' hid'
    rw [hid] at hid'
    cases hid'
    rw [assertNativeId_debug, if_pos heq]
  intro hs
  cases Move.of_step h with
  | callFault hc hfault =>
    rw [State.setControl_self] at hs
    cases hs
    cases hfault with
    | foreign hid' hfault =>
      rw [hnone _ hid'] at hfault
      cases hfault
    | access haddress hfault =>
      rename_i address
      cases hv : a.value address with
      | some element => rw [hv] at hfault; cases hfault
      | none =>
        rw [hv] at hfault
        exact absurd (Except.error.inj hfault) (by decide)
    | iterMut hfault => cases hid
  | insert hc => cases hid
  | capacity hc hb => cases hid
  | enter hc hframe hh =>
    rw [State.setControl_self] at hs
    cases hs
  | removeLocked hc =>
    rw [State.setControl_self] at hs
    cases hs
  | look hc hlook =>
    rw [State.setControl_self] at hs
    cases hs
  | replace hc hreplace =>
    rw [State.setControl_self] at hs
    cases hs

/-- The drop of a write lock is a call of a header. -/
theorem step_dropWrite {id : Id} {s : State T E} (h : step build a (.call t (.dropWrite id)) = some s) :
    ∃ frame, s.control t = .header frame := by
  cases Move.of_step h with
  | enter hc hframe hh => exact ⟨_, State.setControl_self ..⟩
  | look hc hlook => cases hlook
  | replace hc hreplace => cases hreplace
  | callFault hc hfault =>
    cases hfault with
    | foreign hid hfault => cases hid
    | access haddress hfault => cases haddress

/-- The panic leaves `a` as it was, and drops what is still armed. -/
theorem foreignCall_eq {id : Id} (hc : a.control t = .idle) (hid : call.checkedId = some id)
    (hne : id.storeId ≠ a.storeId) :
    (⟨a, b⟩ : Stores T E).foreignCall .debug t call =
      (b.dropped .debug t call.armed).map fun b => ⟨a.setControl t (.faulted foreignFault), b⟩ := by
  unfold Stores.foreignCall
  rw [step_foreign hc hid hne]
  simp

/-- `remove_locked` leaves the store of its lock as it was, and not as the drop of the lock leaves it. -/
theorem removeLocked_not_rejects {id : Id} (hat : a.control t = .idle) (hbt : b.control t = .idle)
    (hne : id.storeId ≠ a.storeId) : ¬Stores.Rejects .debug ⟨a, b⟩ t (.removeLocked id) := by
  rintro ⟨b', hdrop, hcall⟩
  rw [foreignCall_eq hat rfl hne] at hcall
  have hsame : b = b' := congrArg Stores.b (Option.some.inj hcall)
  subst hsame
  obtain ⟨frame, hframe⟩ := step_dropWrite hdrop
  rw [hframe] at hbt
  cases hbt

/-- In the debug build a call of `a` with an ID or a lock of `b` panics and leaves both stores as they
would be without the call and without the argument, exactly if the two stores have different IDs and the
call is not `remove_locked`. -/
theorem foreign_rejected (T E : Type) [DecidableEq T] (a b : State T E)
    (hb : (machine .debug T E).Reachable b) (t : T) (hat : a.control t = .idle)
    (hbt : b.control t = .idle) (call : Call E) (hcall : b.Provides t call) :
    Stores.Rejects .debug ⟨a, b⟩ t call ↔ a.storeId ≠ b.storeId ∧ call.isRemoveLocked = false := by
  obtain ⟨id, hid, hissued⟩ := hcall.checkedId
  have hown := issued_storeId hb id hissued
  constructor
  · intro hrejects
    have hne : a.storeId ≠ b.storeId := by
      intro he
      obtain ⟨b', -, hcall'⟩ := hrejects
      obtain ⟨a', ha', hrest⟩ := Option.bind_eq_some_iff.1 hcall'
      have hfault : a' = a.setControl t (.faulted foreignFault) := by
        split at hrest
        · obtain ⟨b'', -, heq⟩ := Option.map_eq_some_iff.1 hrest
          exact congrArg Stores.a heq
        · exact congrArg Stores.a (Option.some.inj hrest)
      refine step_native hid (hown.trans he.symm) ha' ?_
      rw [hfault]
      exact State.setControl_self ..
    refine ⟨hne, ?_⟩
    cases call with
    | removeLocked id' =>
      cases hid
      exact absurd hrejects (removeLocked_not_rejects hat hbt (by rw [hown]; exact hne.symm))
    | _ => rfl
  · rintro ⟨hne, hnot⟩
    have hcall' := foreignCall_eq (b := b) hat hid (by rw [hown]; exact hne.symm)
    refine ⟨b, ?_, ?_⟩
    · cases call with
      | removeLocked id' => cases hnot
      | _ => rfl
    · rw [hcall']
      cases call with
      | removeLocked id' => cases hnot
      | _ => rfl

/-- A thread inserts an element and takes its write lock. -/
def insertAndWrite : List (Event (Fin 1) ℕ) :=
  .call 0 (.insert 7) :: List.replicate 13 (.act 0 false) ++
    [.ret 0, .call 0 (.write ⟨0, ⟨0, ⟨0, 0⟩⟩, 1⟩ (.withTimeout .dontBlock)), .act 0 false, .act 0 false,
      .ret 0]

/-- A read with the ID of another store is rejected. -/
theorem foreign_rejected_read :
    ∃ b : State (Fin 1) ℕ, b.Provides 0 (.read ⟨0, ⟨0, ⟨0, 0⟩⟩, 1⟩ .plain) ∧ b.storeId = 1 ∧
      Stores.Rejects .debug ⟨.init 0 fun _ => 5, b⟩ 0 (.read ⟨0, ⟨0, ⟨0, 0⟩⟩, 1⟩ .plain) := by
  obtain ⟨b, hb, hp⟩ := exists_reachable .debug 1 (fun _ => 3) insertAndWrite
    (fun b => decide (b.control 0).isIdle && decide (b.storeId = 1) &&
      decide (b.Provides 0 (.read ⟨0, ⟨0, ⟨0, 0⟩⟩, 1⟩ .plain))) (by decide +kernel)
  simp only [Bool.and_eq_true, decide_eq_true_eq] at hp
  obtain ⟨⟨hidle, hid⟩, hprovides⟩ := hp
  refine ⟨b, hprovides, hid, (foreign_rejected (Fin 1) ℕ _ b hb 0 rfl (Control.isIdle_iff.1 hidle) _
    hprovides).2 ⟨?_, rfl⟩⟩
  rw [hid]
  decide

/-- `remove_locked` with a lock of another store panics and leaves the element write locked, so that the
store of the lock cannot be dropped without another panic. -/
theorem foreign_lock_stays :
    ∃ (b : State (Fin 1) ℕ) (id : Id), (machine .debug (Fin 1) ℕ).Reachable b ∧
      b.Provides 0 (.removeLocked id) ∧ b.storeId ≠ 0 ∧
      (⟨.init 0 fun _ => 5, b⟩ : Stores (Fin 1) ℕ).foreignCall .debug 0 (.removeLocked id) =
        some ⟨(State.init 0 fun _ => 5).setControl 0 (.faulted foreignFault), b⟩ ∧
      b.dropStore .debug 0 = .error (.assertion "header had readers (0x\x7b:x\x7d) when being dropped") ∧
      ¬Stores.Rejects .debug ⟨.init 0 fun _ => 5, b⟩ 0 (.removeLocked id) := by
  obtain ⟨b, hb, hp⟩ := exists_reachable .debug 1 (fun _ => 3) insertAndWrite
    (fun b => decide (b.control 0).isIdle && decide (b.storeId = 1) &&
      decide (b.Provides 0 (.removeLocked ⟨0, ⟨0, ⟨0, 0⟩⟩, 1⟩)) &&
      decide (b.dropStore .debug 0 = .error (.assertion "header had readers (0x\x7b:x\x7d) when being dropped")))
    (by decide +kernel)
  simp only [Bool.and_eq_true, decide_eq_true_eq] at hp
  obtain ⟨⟨⟨hidle, hid⟩, hprovides⟩, hdrop⟩ := hp
  have hforeign : (1 : UInt64) ≠ (State.init 0 fun _ => 5 : State (Fin 1) ℕ).storeId := by decide
  refine ⟨b, _, hb, hprovides, by rw [hid]; decide, foreignCall_eq rfl rfl hforeign, hdrop, ?_⟩
  exact removeLocked_not_rejects rfl (Control.isIdle_iff.1 hidle) hforeign

end ReadWriteStore.Store

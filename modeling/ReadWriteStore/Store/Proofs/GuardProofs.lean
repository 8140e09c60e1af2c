import ReadWriteStore.Store.Guard
import ReadWriteStore.Store.Proofs.LinearizationProofs

/-!
# A lock protects its element

Proved of the map, where an operation is one step: no operation of another thread changes an element that
is locked. What the map does between two moments is what the store does.
-/

namespace ReadWriteStore.Store

open Header (LockKind)
open Transition (Object)
open Transition.Object (Phase Shared)

variable {T E : Type} [DecidableEq T]

/-! ## Exclusion on the map -/

section Entry

variable {entry : Entry T E} {t u : T} {kind kind' : LockKind}

theorem Entry.withLocks_locks (entry : Entry T E) (t : T) (kind : LockKind) (n : ℕ) :
    (entry.withLocks t kind n).locks =
      Function.update entry.locks t (Function.update (entry.locks t) kind n) := rfl

theorem Entry.withLocks_self (entry : Entry T E) (t : T) (kind : LockKind) (n : ℕ) :
    (entry.withLocks t kind n).locks t kind = n := by
  rw [Entry.withLocks_locks, Function.update_self, Function.update_self]

theorem Entry.withLocks_ne (n : ℕ) (hne : u ≠ t ∨ kind' ≠ kind) :
    (entry.withLocks t kind n).locks u kind' = entry.locks u kind' := by
  rw [Entry.withLocks_locks]
  by_cases hu : u = t
  · subst hu
    rw [Function.update_self, Function.update_of_ne (hne.resolve_left fun h => h rfl)]
  · rw [Function.update_of_ne hu]

omit [DecidableEq T] in
theorem Entry.Free.exclusive (h : entry.Free) : entry.Exclusive := by
  intro t ht
  rw [h t .write] at ht
  exact absurd ht (Nat.lt_irrefl 0)

theorem Entry.Readable.lock_exclusive (h : entry.Readable) : (entry.lock t .read).Exclusive := by
  intro u hu
  rw [Entry.lock, Entry.withLocks_ne _ (Or.inr (show LockKind.write ≠ .read from nofun)), h u] at hu
  exact absurd hu (Nat.lt_irrefl 0)

theorem Entry.Free.lock_exclusive (h : entry.Free) : (entry.lock t .write).Exclusive := by
  intro u hu
  have hut : u = t := by
    by_contra hne
    rw [Entry.lock, Entry.withLocks_ne _ (Or.inl hne), h u] at hu
    exact absurd hu (Nat.lt_irrefl 0)
  subst hut
  refine ⟨?_, ?_, fun v hv kind => ?_⟩
  · rw [Entry.lock, Entry.withLocks_self, h u]
  · rw [Entry.lock, Entry.withLocks_ne _ (Or.inr (show LockKind.read ≠ .write from nofun)), h u]
  · rw [Entry.lock, Entry.withLocks_ne _ (Or.inl hv), h v]

theorem Entry.Exclusive.unlock (h : entry.Exclusive) : (entry.unlock t kind).Exclusive := by
  have hle : ∀ u kind', (entry.unlock t kind).locks u kind' ≤ entry.locks u kind' := by
    intro u kind'
    by_cases hne : u ≠ t ∨ kind' ≠ kind
    · rw [Entry.unlock, Entry.withLocks_ne _ hne]
    · obtain ⟨rfl, rfl⟩ : u = t ∧ kind' = kind := by
        push Not at hne
        exact hne
      rw [Entry.unlock, Entry.withLocks_self]
      exact Nat.sub_le _ _
  intro u hu
  obtain ⟨hone, hread, hother⟩ := h u (Nat.lt_of_lt_of_le hu (hle u .write))
  refine ⟨?_, ?_, fun v hv kind' => ?_⟩
  · have := hle u .write
    omega
  · have := hle u .read
    omega
  · have := hle v kind'
    have := hother v hv kind'
    omega

end Entry

namespace Map

variable {m m' : Map T E} {t u : T} {call : Call E} {result : Return E} {id : Id} {kind : LockKind}
  {entry : Entry T E}

omit [DecidableEq T] in
theorem Exclusive.set (h : m.Exclusive) (hsome : (m.entry id).isSome = true) {new : Option (Entry T E)}
    (hnew : ∀ entry, new = some entry → entry.Exclusive) : (m.set id new).Exclusive := by
  obtain ⟨old, hold⟩ := Option.isSome_iff_exists.1 hsome
  constructor
  · intro other entry hentry
    by_cases ho : other = id
    · rw [ho, Map.set_self] at hentry
      exact hnew entry hentry
    · rw [Map.set_ne _ _ ho] at hentry
      exact h.entry other entry hentry
  · intro other entry hentry
    by_cases ho : other = id
    · rw [ho]
      exact h.used id old hold
    · rw [Map.set_ne _ _ ho] at hentry
      exact h.used other entry hentry

/-- Every operation keeps to the exclusion. -/
theorem Effect.exclusive (h : m.Effect t call result m') (hexcl : m.Exclusive) : m'.Exclusive := by
  have hset : ∀ {id entry} {new : Option (Entry T E)}, m.entry id = some entry →
      (∀ entry, new = some entry → entry.Exclusive) → (m.set id new).Exclusive := fun hsome hnew =>
    hexcl.set (by rw [hsome]; rfl) hnew
  cases h with
  | @insert element id hnew =>
    constructor
    · intro other entry hentry
      by_cases ho : other = id
      · rw [ho, Map.insert_self] at hentry
        cases hentry
        exact Entry.Free.exclusive fun _ _ => rfl
      · rw [Map.insert_ne _ _ ho] at hentry
        exact hexcl.entry other entry hentry
    · intro other entry hentry
      by_cases ho : other = id
      · exact Or.inr ho
      · rw [Map.insert_ne _ _ ho] at hentry
        exact Or.inl (hexcl.used other entry hentry)
  | remove hsome hfree => exact hset hsome nofun
  | removeLocked hsome hlock => exact hset hsome nofun
  | read hsome hread =>
    refine hset hsome ?_
    rintro _ ⟨⟩
    exact hread.lock_exclusive
  | write hsome hfree =>
    refine hset hsome ?_
    rintro _ ⟨⟩
    exact hfree.lock_exclusive
  | dropRead hsome hlock | dropWrite hsome hlock =>
    refine hset hsome ?_
    rintro _ ⟨⟩
    exact (hexcl.entry _ _ hsome).unlock
  | replace hsome hlock | replaceMut hsome hlock =>
    refine hset hsome ?_
    rintro _ ⟨⟩
    have hold := hexcl.entry _ _ hsome
    exact fun t => hold t
  | miss | deref | capacity | getMut | iterMut => exact hexcl

omit [DecidableEq T] in
/-- An operation on the entry of one ID. -/
theorem guards_set {other : Id} {new : Option (Entry T E)} {replaced : Prop} (hentry : m.entry id = some entry)
    (hlock : 0 < entry.locks u kind)
    (hsame : other = id → ∃ entry', new = some entry' ∧ 0 < entry'.locks u kind ∧
      (entry'.value = entry.value ∨ replaced)) :
    ∃ entry', (m.set other new).entry id = some entry' ∧ 0 < entry'.locks u kind ∧
      (entry'.value = entry.value ∨ replaced) := by
  by_cases ho : id = other
  · obtain ⟨entry', rfl, hrest⟩ := hsame ho.symm
    exact ⟨entry', by rw [ho, Map.set_self], hrest⟩
  · exact ⟨entry, by rw [Map.set_ne _ _ ho, hentry], hlock, Or.inl rfl⟩

omit [DecidableEq T] in
/-- The owner of a write lock is the owner of every lock. -/
theorem Exclusive.owner (h : m.Exclusive) (hentry : m.entry id = some entry) (hlock : 0 < entry.locks u kind)
    (hwrite : 0 < entry.locks t .write) : t = u ∧ kind = .write := by
  obtain ⟨-, hread, hother⟩ := h.entry id entry hentry t hwrite
  have htu : t = u := by
    by_contra hne
    rw [hother u (fun h => hne h.symm) kind] at hlock
    exact Nat.lt_irrefl 0 hlock
  subst htu
  cases kind with
  | read =>
    rw [hread] at hlock
    exact absurd hlock (Nat.lt_irrefl 0)
  | write => exact ⟨rfl, rfl⟩

/-- An operation that is not its owner's giving it back leaves a lock and its element as they are. -/
theorem Effect.keeps_locked (h : m.Effect t call result m') (hexcl : m.Exclusive) (hentry : m.entry id = some entry)
    (hlock : 0 < entry.locks u kind) (hkeep : t = u → call.releases ≠ some (kind, id)) :
    ∃ entry', m'.entry id = some entry' ∧ 0 < entry'.locks u kind ∧
      (entry'.value = entry.value ∨ kind = .write ∧ t = u ∧ ∃ element, call = .replace id element) := by
  have hnotFree : ∀ {old : Entry T E}, m.entry id = some old → ¬old.Free := by
    intro old hold hfree
    cases hold.symm.trans hentry
    rw [hfree u kind] at hlock
    exact Nat.lt_irrefl 0 hlock
  cases h with
  | @insert element other hnew =>
    have hne : id ≠ other := by
      rintro rfl
      exact hnew (hexcl.used id entry hentry)
    exact ⟨entry, by rw [Map.insert_ne _ _ hne, hentry], hlock, Or.inl rfl⟩
  | remove hsome hfree | write hsome hfree | replaceMut hsome hfree =>
    refine guards_set hentry hlock ?_
    rintro rfl
    exact absurd hfree (hnotFree hsome)
  | removeLocked hsome hwrite =>
    refine guards_set hentry hlock ?_
    rintro rfl
    cases hsome.symm.trans hentry
    obtain ⟨rfl, rfl⟩ := hexcl.owner hentry hlock hwrite
    exact absurd rfl (hkeep rfl)
  | @read other method old hsome hread =>
    refine guards_set hentry hlock ?_
    rintro rfl
    cases hsome.symm.trans hentry
    refine ⟨_, rfl, ?_, Or.inl rfl⟩
    by_cases hself : u = t ∧ kind = .read
    · obtain ⟨rfl, rfl⟩ := hself
      rw [Entry.lock, Entry.withLocks_self]
      exact Nat.succ_pos _
    · rw [Entry.lock, Entry.withLocks_ne _ (not_and_or.1 hself)]
      exact hlock
  | @dropRead other old hsome hheld | @dropWrite other old hsome hheld =>
    refine guards_set hentry hlock ?_
    rintro rfl
    cases hsome.symm.trans hentry
    refine ⟨_, rfl, ?_, Or.inl rfl⟩
    rw [Entry.unlock, Entry.withLocks_ne _ (not_and_or.1 ?_)]
    · exact hlock
    · rintro ⟨rfl, rfl⟩
      exact hkeep rfl rfl
  | @replace other element old hsome hwrite =>
    refine guards_set hentry hlock ?_
    rintro rfl
    cases hsome.symm.trans hentry
    obtain ⟨rfl, rfl⟩ := hexcl.owner hentry hlock hwrite
    exact ⟨_, rfl, hlock, Or.inr ⟨rfl, rfl, element, rfl⟩⟩
  | miss | deref | capacity | getMut | iterMut => exact ⟨entry, hentry, hlock, Or.inl rfl⟩

end Map

/-! ## Between two moments -/

section Path

variable [Fintype T] {a a' : Shared (Map T E) T (Call E) (Return E)} {es : List (Object.Event T (Call E) (Return E))} {t : T}
  {kind : LockKind} {id : Id} {entry : Entry T E}

theorem Map.exclusive_of_reachable (h : (Map.object T E).shared.Reachable a) : a.object.Exclusive := by
  refine Object.shared_invariant (P := Map.Exclusive) ?_ ?_ h
  · rintro _ rfl
    exact ⟨nofun, nofun⟩
  · intro m t call result m' hexcl heffect
    exact heffect.exclusive hexcl

/-- A lock that its owner does not give back. -/
theorem Map.guards_path (hpath : (Map.object T E).shared.Path a es a') (ha : (Map.object T E).shared.Reachable a)
    (hphase : ∀ call seen, a.phase t = .pending call seen → call.releases ≠ some (kind, id))
    (hcalls : ∀ call, .call t call ∈ es.flatMap Object.Event.visible → call.releases ≠ some (kind, id))
    (hentry : a.object.entry id = some entry) (hlock : 0 < entry.locks t kind) :
    ∃ entry', a'.object.entry id = some entry' ∧ 0 < entry'.locks t kind ∧
      (entry'.value = entry.value ∨ kind = .write ∧ ∃ element,
        (∃ seen, a.phase t = .pending (.replace id element) seen) ∨
          .call t (.replace id element) ∈ es.flatMap Object.Event.visible) := by
  induction hpath generalizing entry with
  | nil => exact ⟨entry, hentry, hlock, Or.inl rfl⟩
  | @cons a a₁ a' e es hs _ ih =>
    have hcalled : ∀ call, e = .call t call → .call t call ∈ (e :: es).flatMap Object.Event.visible := by
      rintro call rfl
      exact List.mem_append_left _ (List.mem_singleton.2 rfl)
    obtain ⟨entry₁, hentry₁, hlock₁, hvalue₁⟩ : ∃ entry₁, a₁.object.entry id = some entry₁ ∧
        0 < entry₁.locks t kind ∧ (entry₁.value = entry.value ∨ kind = .write ∧ ∃ element seen,
          a.phase t = .pending (.replace id element) seen) := by
      cases hs with
      | @effect u call seen result object hp heffect =>
        obtain ⟨entry₁, hentry₁, hlock₁, hvalue⟩ := heffect.keeps_locked (Map.exclusive_of_reachable ha) hentry hlock
          (fun hu => hphase call seen (hu ▸ hp))
        refine ⟨entry₁, hentry₁, hlock₁, hvalue.imp_right ?_⟩
        rintro ⟨hkind, rfl, element, rfl⟩
        exact ⟨hkind, element, seen, hp⟩
      | _ => exact ⟨entry, hentry, hlock, Or.inl rfl⟩
    have hphase₁ : ∀ call seen, a₁.phase t = .pending call seen → call.releases ≠ some (kind, id) := by
      intro call seen hp
      rcases hs.pending hp with ⟨seen', hp'⟩ | he
      · exact hphase call seen' hp'
      · exact hcalls call (hcalled call he)
    obtain ⟨entry', hentry', hlock', hvalue'⟩ := ih (ha.step hs) hphase₁
      (fun call hmem => hcalls call (List.mem_append_right _ hmem)) hentry₁ hlock₁
    refine ⟨entry', hentry', hlock', ?_⟩
    rcases hvalue' with hvalue' | ⟨hkind, element, ⟨seen, hp⟩ | hmem⟩
    · rcases hvalue₁ with hvalue₁ | ⟨hkind, element, seen, hp⟩
      · exact Or.inl (hvalue'.trans hvalue₁)
      · exact Or.inr ⟨hkind, element, Or.inl ⟨seen, hp⟩⟩
    · rcases hs.pending hp with ⟨seen', hp'⟩ | he
      · exact Or.inr ⟨hkind, element, Or.inl ⟨seen', hp'⟩⟩
      · exact Or.inr ⟨hkind, element, Or.inr (hcalled _ he)⟩
    · exact Or.inr ⟨hkind, element, Or.inr (List.mem_append_right _ hmem)⟩

end Path

/-! ## Whole runs -/

section Runs

variable [Fintype T] {build : Build} {n : ℕ} {state : ℕ → State T E} {event : ℕ → Event T E}

omit [Fintype T] in
/-- The calls that a caller sees are those that are made. -/
theorem State.mem_shows {s : State T E} {e : Event T E} {t : T} {call : Call E}
    (h : .call t call ∈ s.shows e) : e = .call t call := by
  cases e with
  | call u call' =>
    cases List.mem_singleton.1 h
    rfl
  | ret u =>
    simp only [State.shows] at h
    split at h <;> cases List.mem_singleton.1 h
  | _ => cases h

/-- A lock protects its element for as long as its owner keeps it. -/
theorem guards (build : Build) (T E : Type) [Fintype T] [DecidableEq T] (n : ℕ) (state : ℕ → State T E)
    (event : ℕ → Event T E) (hrun : ((machine build T E).restrict State.NoWrap).Run n state event) (t : T)
    (kind : LockKind) (id : Id) (i j : ℕ) (hij : i ≤ j) (hj : j ≤ n) (hidle : (state i).control t = .idle)
    (hholds : (state i).Holds t kind id)
    (hkeep : ∀ k call, i ≤ k → k < j → event k = .call t call → call.releases ≠ some (kind, id)) :
    Guards state event t kind id i j := by
  have hissued : id ∈ (state j).issued := by
    refine hrun.persist (P := fun s => id ∈ s.issued) (fun s e s' _ hid hs => ?_) hij hj hholds.1
    exact (Move.of_step hs.2.2).issued_subset hid
  obtain ⟨a, ha, hmatch⟩ := (simulates build T E).reachable (hrun.reachable i (by omega))
  obtain ⟨es, a', hpath, hhistory, hmatch'⟩ := (simulates build T E).between hrun hmatch (k := j - i) (by omega)
  rw [show i + (j - i) = j by omega] at hmatch'
  have hcalls : ∀ call, .call t call ∈ es.flatMap Object.Event.visible →
      ∃ k, i ≤ k ∧ k < j ∧ event k = .call t call := by
    intro call hmem
    rw [hhistory, Transition.System.mem_history] at hmem
    obtain ⟨k, hk, hmem⟩ := hmem
    exact ⟨i + k, by omega, by omega, State.mem_shows hmem⟩
  have hphase : a.phase t = .idle := (hmatch.phase t).at hidle
  obtain ⟨value, hvalue, -, hentry, hpos⟩ := (known_of_reachable (hrun.reachable i (by omega))).held hholds
  rw [← hmatch.object] at hentry
  obtain ⟨entry', hentry', hpos', hvalue'⟩ := Map.guards_path hpath ha
    (fun call seen hp => by rw [hphase] at hp; cases hp)
    (fun call hmem => by
      obtain ⟨k, hik, hkj, he⟩ := hcalls call hmem
      exact hkeep k call hik hkj he) hentry hpos
  rw [hmatch'.object] at hentry'
  obtain ⟨hp, -, hvalue'', hlocks⟩ := State.present_of_entry hentry'
  rw [hlocks] at hpos'
  have hlock := Header.State.lockCount_pos.1 hpos'
  refine ⟨⟨hissued, hlock⟩, hp, by rw [hvalue'']; rfl, ?_, ?_⟩
  · rcases hvalue' with hvalue' | ⟨hkind, element, ⟨seen, hp'⟩ | hmem⟩
    · left
      rw [hvalue'', hvalue, hvalue']
    · rw [hphase] at hp'
      cases hp'
    · obtain ⟨k, hik, hkj, he⟩ := hcalls _ hmem
      exact Or.inr ⟨hkind, k, element, hik, hkj, he⟩
  · rintro rfl u hu
    have hknown := known_of_reachable (hrun.reachable j hj)
    exact (Header.reachable_inv (hknown.sound.linked.header id.slotAddress)).sole_writer hlock hu

end Runs

/-- The lock that makes the second thread give up. -/
theorem guards_meets_lock :
    Guards (Transition.System.trace (step .debug) (fun s e => s.NoWrap e ∧ Allowed s e) (.init 0 fun _ => 0) meetsLock)
      (meetsLock.getD · (.ret 0)) 0 .write ⟨0, ⟨9, ⟨0, 0⟩⟩, 0⟩ 19 23 := by
  refine guards .debug (Fin 2) Bool meetsLock.length _ _
    (run_of_replay_restrict .debug State.NoWrap 0 (fun _ => 0) meetsLock (.ret 0) (by decide +kernel))
    0 .write _ 19 23 (by decide) (by decide) rfl (by decide +kernel) ?_
  rintro k call hik hkj he
  obtain rfl | rfl | rfl | rfl : k = 19 ∨ k = 20 ∨ k = 21 ∨ k = 22 := by omega
  all_goals cases he

end ReadWriteStore.Store

import ReadWriteStore.Bucket.Proofs.BlockingProofs
import ReadWriteStore.Header.Proofs.BlockingProofs
import ReadWriteStore.Store.Blocking
import ReadWriteStore.Store.Proofs.LinearizationProofs

/-!
# No deadlock inside the store

A thread inside a call of a header or a bucket goes on as it does there, and the other steps of a method
need nobody.
-/

namespace ReadWriteStore.Store

open Transition (Moves)

variable {T E : Type} [DecidableEq T] {build : Build} {s s' : State T E} {e : Event T E} {t : T}

/-! ## The call of a bucket -/

/-- A thread inside a call of a bucket serves it. -/
def State.ServesBuckets (s : State T E) : Prop :=
  ∀ t frame, s.control t = .bucket frame → ((s.bucket frame.bucket).control t).Serves frame.call

theorem State.ServesBuckets.step (h : s.ServesBuckets) (hm : Move build s e s') (hwrap : s.NoWrap e) :
    s'.ServesBuckets := by
  intro t frame hc
  by_cases ht : t = e.thread
  · subst ht
    cases hm.bucketPart frame.bucket with
    | same hbucket hframe =>
      rw [hbucket]
      exact h _ frame ((hframe frame rfl).1 hc)
    | enters hb hbefore hafter hstep =>
      cases hafter.symm.trans hc
      rw [(Bucket.Move.of_step hstep).call_control rfl]
      exact Bucket.start_serves frame.call
    | goes hb hcontrol hsame hstep =>
      cases hsame.symm.trans hc
      exact (Bucket.Move.of_step hstep).serves (h _ frame hcontrol)
    | leaves hb hbefore hafter hstep => exact absurd rfl (hafter frame hc)
  · rw [hm.control_ne ht] at hc
    rcases (hm.bucketPart frame.bucket).bucketStep hwrap with hsame | ⟨event, hthread, -, hstep⟩
    · rw [hsame]
      exact h t frame hc
    · rw [(Bucket.Move.of_step hstep).control_ne (by rw [hthread]; exact ht)]
      exact h t frame hc

/-! ## One step -/

section GoesOn

theorem State.goesOn_act {control : Control E} (hc : s.control t = control) (hidle : control ≠ .idle)
    (h : (s.act build t false).isSome = true) : s.GoesOn build t :=
  ⟨by rw [hc]; exact hidle, .act t false, rfl, h⟩

theorem State.goesOn_checked {α : Type} (result : Checked α) {next : α → Option (State T E)}
    (h : ∀ value, (next value).isSome = true) : (s.checked t result next).isSome = true := by
  cases result with
  | ok value => exact h value
  | error fault => rfl

theorem enterBucket_isSome {frame : BucketFrame E} (h : (s.bucket frame.bucket).control t = .idle) :
    (s.enterBucket build t frame).isSome = true := by
  simp only [State.enterBucket, Bucket.step, h, Option.map_some, Option.isSome_some]

theorem enterHeader_isSome {frame : Frame E} (h : (s.header frame.address).control t = .idle) :
    (s.enterHeader build t frame).isSome = true := by
  simp only [State.enterHeader, Header.step, h, if_true, Option.map_some, Option.isSome_some]

/-- The result of a call of a header is one that the method expects. -/
theorem resume_isSome {storeId : UInt64} {frame : Frame E} {result : Header.Return}
    (h : (Header.Control.returned result).Serves frame.call) : (frame.resume storeId result).isSome = true := by
  rcases h with h | ⟨attempt, id, timeout, won, hcall, h⟩
  · cases frame with
    | occupy =>
      obtain ⟨ordinal, rfl⟩ := h
      rfl
    | removeLocked | dropRead | dropWrite =>
      obtain rfl := h
      rfl
    | remove | read | write => exact absurd h not_false
  · have hanswer : ∃ answer, result = attempt.answer id answer := by
      rcases h with ⟨-, h⟩ | ⟨-, -, h⟩ | ⟨-, -, -, h⟩ <;> exact ⟨_, h⟩
    obtain ⟨answer, rfl⟩ := hanswer
    cases attempt <;> cases frame <;> cases hcall <;> rfl

theorem State.Linked.goesOn_header (h : s.Linked build) {frame : Frame E} (hc : s.control t = .header frame)
    (hgoes : (s.header frame.address).GoesOn build t) : s.GoesOn build t := by
  obtain ⟨event, hthread, hcall, hstep⟩ := hgoes
  have hserves := h.serves t frame hc
  cases event with
  | call u call =>
    obtain rfl : u = t := hthread
    exact absurd rfl (hcall call)
  | act u spurious =>
    obtain rfl : u = t := hthread
    refine ⟨by rw [hc]; exact nofun, .act u spurious, rfl, ?_⟩
    obtain ⟨header, hheader⟩ := Option.isSome_iff_exists.1 hstep
    obtain ⟨point, hpoint⟩ := header_running (Or.inl ⟨spurious, rfl⟩) hheader
    simp only [Store.step, State.act, hc, State.actHeader, hpoint, hheader, Option.map_some, Option.isSome_some]
  | expire u =>
    obtain rfl : u = t := hthread
    refine ⟨by rw [hc]; exact nofun, .expire u, rfl, ?_⟩
    simp only [Store.step, hc, Option.isSome_map, hstep]
  | ret u =>
    obtain rfl : u = t := hthread
    refine State.goesOn_act hc nofun ?_
    cases hr : (s.header frame.address).control u with
    | idle | running => simp only [Header.step, hr] at hstep; cases hstep
    | returned result =>
      rw [hr] at hserves
      simp only [State.act, hc, State.actHeader, hr, Header.step, Option.bind_some, State.resumeHeader,
        Option.isSome_map]
      exact resume_isSome hserves
    | faulted fault =>
      simp only [State.act, hc, State.actHeader, hr, Header.step, Option.map_some, Option.isSome_some]

theorem State.Linked.goesOn_bucket (h : s.Linked build) (hserves : s.ServesBuckets) {frame : BucketFrame E}
    (hc : s.control t = .bucket frame) (hgoes : (s.bucket frame.bucket).GoesOn build t) : s.GoesOn build t := by
  obtain ⟨event, hthread, hcall, hstep⟩ := hgoes
  have hserves := hserves t frame hc
  refine State.goesOn_act hc (by simp) ?_
  simp only [State.act, hc, State.actBucket]
  cases event with
  | call u call =>
    obtain rfl : u = t := hthread
    exact absurd rfl (hcall call)
  | act u =>
    obtain rfl : u = t := hthread
    cases hr : (s.bucket frame.bucket).control u with
    | running point => simp only [Option.isSome_map, hstep]
    | _ => simp only [Bucket.step, hr] at hstep; cases hstep
  | ret u =>
    obtain rfl : u = t := hthread
    cases hr : (s.bucket frame.bucket).control u with
    | idle | running => simp only [Bucket.step, hr] at hstep; cases hstep
    | faulted fault => simp only [Bucket.step, hr, Option.map_some, Option.isSome_some]
    | returned result =>
      rw [hr] at hserves
      simp only [Bucket.step, hr, Option.bind_some]
      cases frame with
      | insert bucket element =>
        cases result with
        | location location => rfl
        | capacity => cases hserves
      | capacity bucket totalTouched totalAllocated =>
        cases result with
        | location location => cases hserves
        | capacity touched allocated =>
          simp only [State.resumeBucket, State.addCapacity]
          refine State.goesOn_checked _ fun totals => ?_
          split
          · rename_i hlt
            refine enterBucket_isSome ?_
            -- the thread has been in another bucket so far
            have hne : (⟨bucket.val + 1, hlt⟩ : Fin bucketCount) ≠ bucket := fun heq => by
              have := congrArg Fin.val heq
              simp at this
            have hidle := h.calm u ⟨bucket.val + 1, hlt⟩ fun other hother => by
              rw [hc] at hother
              cases hother
              exact hne.symm
            rw [State.setBucket_bucket]
            exact (congrArg (fun state => Bucket.State.control state u) (Function.update_of_ne hne ..)).trans hidle
          · rfl

end GoesOn

/-! ## All threads -/

section Threads

theorem State.Linked.in_header (h : s.Linked build) {address : SlotAddress}
    (hgoes : (s.header address).GoesOn build t) : ∃ frame, s.control t = .header frame ∧ frame.address = address := by
  by_contra hnot
  have hidle := h.idle t address fun frame hc haddress => hnot ⟨frame, hc, haddress⟩
  obtain ⟨event, rfl, hcall, hstep⟩ := hgoes
  cases event with
  | call u call => exact hcall call rfl
  | _ =>
    replace hidle : (s.header address).control _ = .idle := hidle
    simp only [Header.step, Header.Event.thread] at hstep hidle
    rw [hidle] at hstep
    cases hstep

theorem State.Linked.in_bucket (h : s.Linked build) {bucket : Fin bucketCount}
    (hgoes : (s.bucket bucket).GoesOn build t) : ∃ frame, s.control t = .bucket frame ∧ frame.bucket = bucket := by
  by_contra hnot
  have hidle := h.calm t bucket fun frame hc hbucket => hnot ⟨frame, hc, hbucket⟩
  obtain ⟨event, rfl, hcall, hstep⟩ := hgoes
  cases event with
  | call u call => exact hcall call rfl
  | _ =>
    simp only [Bucket.step, Bucket.Event.thread] at hstep hidle
    rw [hidle] at hstep
    cases hstep

variable [Fintype T]

/-- A thread inside a call goes on, waits for one that does, or sleeps on a locked slot. -/
theorem State.Linked.moves (h : s.Linked build) (hserves : s.ServesBuckets) (hc : s.control t ≠ .idle) :
    s.Asleep t ∨ Moves (s.GoesOn build) s.HeldUp t := by
  have hheader : ∀ {frame : Frame E}, (∀ other, s.control t ≠ .header other) →
      (s.header frame.address).control t = .idle := fun hout => h.idle t _ fun other hother => absurd hother (hout other)
  cases hcontrol : s.control t with
  | idle => exact absurd hcontrol hc
  | header frame =>
    have hbusy : (s.header frame.address).control t ≠ .idle := by
      intro hidle
      have hserves := h.serves t frame hcontrol
      rw [hidle] at hserves
      rcases hserves with hserves | ⟨attempt, id, timeout, won, -, hserves⟩
      · cases hcall : frame.call <;> rw [hcall] at hserves <;> exact hserves
      · exact hserves
    rcases Header.moves_of_reachable (h.header frame.address) hbusy with hasleep | hmoves
    · exact Or.inl ⟨frame, hcontrol, hasleep⟩
    · refine Or.inr (hmoves.mono (fun u hgoes => ?_) fun u v hheld => Or.inl ⟨frame.address, hheld⟩)
      obtain ⟨other, hother, haddress⟩ := h.in_header hgoes
      rw [← haddress] at hgoes
      exact h.goesOn_header hother hgoes
  | bucket frame =>
    have hbusy : (s.bucket frame.bucket).control t ≠ .idle := by
      intro hidle
      have hserves := hserves t frame hcontrol
      rw [hidle] at hserves
      exact hserves
    have hmoves : Moves ((s.bucket frame.bucket).GoesOn build) _ t := (h.bucket frame.bucket).guarded.moves hbusy
    refine Or.inr (hmoves.mono (fun u hgoes => ?_) fun u v hheld => Or.inr ⟨frame.bucket, hheld⟩)
    obtain ⟨other, hother, hbucket⟩ := h.in_bucket hgoes
    rw [← hbucket] at hgoes
    exact h.goesOn_bucket hserves hother hgoes
  | pop element =>
    refine Or.inr (.self (State.goesOn_act hcontrol (by simp) ?_))
    simp only [State.act, hcontrol]
    split
    · rfl
    · exact enterBucket_isSome (h.calm t _ fun other hother => by rw [hcontrol] at hother; cases hother)
  | place element address =>
    refine Or.inr (.self (State.goesOn_act hcontrol (by simp) ?_))
    simp only [State.act, hcontrol]
    refine enterHeader_isSome ?_
    rw [State.setValue_header]
    exact hheader (by simp [hcontrol])
  | moveOut id method mayReuse =>
    refine Or.inr (.self (State.goesOn_act hcontrol (by simp) ?_))
    simp only [State.act, hcontrol]
    exact State.goesOn_checked _ fun element => State.goesOn_checked _ fun result => rfl
  | moveOutLocked id =>
    refine Or.inr (.self (State.goesOn_act hcontrol (by simp) ?_))
    simp only [State.act, hcontrol]
    exact State.goesOn_checked _ fun element => enterHeader_isSome (hheader (by simp [hcontrol]))
  | push id result =>
    refine Or.inr (.self (State.goesOn_act hcontrol (by simp) ?_))
    simp only [State.act, hcontrol, Option.isSome_some]
  | returned result | faulted fault =>
    refine Or.inr (.self ⟨by simp [hcontrol], .ret t, rfl, ?_⟩)
    simp only [Store.step, hcontrol, Option.isSome_some]

omit [Fintype T] in
theorem servesBuckets_of_reachable (h : ((machine build T E).restrict State.NoWrap).Reachable s) : s.ServesBuckets := by
  refine h.invariant (P := State.ServesBuckets) ?_ ?_
  · rintro _ ⟨storeId, generator, rfl⟩
    exact nofun
  · intro s e s' hs hstep
    exact hs.step (.of_step hstep.2.2) hstep.1

/-- No run of a store comes to a deadlock of its own making. -/
theorem no_deadlock (build : Build) (T E : Type) [Fintype T] [DecidableEq T] (s : State T E)
    (h : ((machine build T E).restrict State.NoWrap).Reachable s) : s.DeadlockFree build := by
  have hlinked := (known_of_reachable h).sound.linked
  have hserves := servesBuckets_of_reachable h
  refine ⟨fun t hc => hlinked.moves hserves hc, fun hfree t hc => ?_⟩
  rcases hlinked.moves hserves hc with ⟨frame, -, -, -, u, hlock⟩ | hmoves
  · exact absurd (hfree frame.address u) hlock
  · exact hmoves.exists

end Threads

/-- The second thread sleeps on the element that the first one has write locked. -/
def sleepsOnLock : List (Event (Fin 2) Bool) :=
  meetsLock.take 19 ++ beginCall 1 (.read ⟨0, ⟨9, ⟨0, 0⟩⟩, 0⟩ .plain) 5

theorem no_deadlock_sleeper : ∃ s : State (Fin 2) Bool, (s.header ⟨9, ⟨0, 0⟩⟩).queue = [1] ∧
    s.DeadlockFree .debug := by
  obtain ⟨s, hr, hp⟩ := exists_reachable_noWrap .debug 0 (fun _ => 0) sleepsOnLock
    (fun s => decide ((s.header ⟨9, ⟨0, 0⟩⟩).queue = [1])) (by decide +kernel)
  exact ⟨s, of_decide_eq_true hp, no_deadlock .debug (Fin 2) Bool s hr⟩

end ReadWriteStore.Store

import ReadWriteStore.Bucket.Blocking
import ReadWriteStore.Bucket.Proofs.MachineProofs

/-!
# The lock of a bucket is never held for long

A thread that has the lock of a bucket in either mode has a next step, whatever the others do.
-/

namespace ReadWriteStore.Bucket

open Transition (Moves)

variable {T : Type} [DecidableEq T] {build : Build} {s s' : State T} {t u : T}

theorem State.goesOn_act {point : Point} (hc : s.control t = .running point) (h : (s.act build t point).isSome = true) :
    s.GoesOn build t :=
  ⟨.act t, rfl, nofun, by simp only [step, hc, h]⟩

theorem State.goesOn_holder (hc : (s.control t).reading = true ∨ (s.control t).writing = true) : s.GoesOn build t := by
  cases hcontrol : s.control t with
  | running point =>
    rw [hcontrol] at hc
    cases point with
    | lockRead | lockWrite | capacityLockRead => rcases hc with hc | hc <;> cases hc
    | _ => exact State.goesOn_act hcontrol rfl
  | _ =>
    rw [hcontrol] at hc
    rcases hc with hc | hc <;> cases hc

theorem State.Guarded.goesOn (h : s.Guarded) (hu : s.writer = some u ∨ u ∈ s.readers) : s.GoesOn build u := by
  refine State.goesOn_holder ?_
  rcases hu with hwriter | hreader
  · exact Or.inr ((h.writer u).1 hwriter)
  · refine Or.inl ?_
    by_contra hnot
    have hcount := h.readers u
    rw [if_neg hnot] at hcount
    exact List.count_eq_zero.1 hcount hreader

/-- A step that takes the lock. -/
theorem State.Guarded.moves_lock (h : s.Guarded) (hneeds : (s.control t).needsLock = true)
    (hfree : s.writer = none → s.readers = [] → s.GoesOn build t) : Moves (s.GoesOn build) s.HeldUp t := by
  cases hwriter : s.writer with
  | some u => exact .of_waits ⟨hneeds, Or.inl hwriter⟩ (.self (h.goesOn (Or.inl hwriter)))
  | none =>
    cases hreaders : s.readers with
    | nil => exact .self (hfree hwriter hreaders)
    | cons u rest =>
      have hu : u ∈ s.readers := hreaders ▸ List.mem_cons_self
      exact .of_waits ⟨hneeds, Or.inr hu⟩ (.self (h.goesOn (Or.inr hu)))

/-- A thread inside a call of a bucket goes on, or waits for one that does. -/
theorem State.Guarded.moves (h : s.Guarded) (hc : s.control t ≠ .idle) : Moves (s.GoesOn build) s.HeldUp t := by
  cases hcontrol : s.control t with
  | idle => exact absurd hcontrol hc
  | returned | faulted => exact .self ⟨.ret t, rfl, nofun, by simp only [step, hcontrol, Option.isSome_some]⟩
  | running point =>
    cases point with
    | lockRead | lockWrite | capacityLockRead =>
      refine h.moves_lock (by rw [hcontrol]; rfl) fun hwriter hreaders => State.goesOn_act hcontrol ?_
      simp only [State.act, hwriter, hreaders, and_self, if_true, Option.isSome_some]
    | _ => exact .self (State.goesOn_act hcontrol rfl)

/-! ## The call that a thread serves -/

theorem start_serves (c : Call) : (start c).Serves c := by
  cases c <;> rfl

theorem Move.call_control {e : Event T} {c : Call} (hm : Move build s e s') (he : e = .call t c) :
    s'.control t = start c := by
  subst he
  cases hm with
  | call hidle => exact Function.update_self ..

theorem Move.serves {c : Call} (hm : Move build s (.act t) s') (h : (s.control t).Serves c) :
    (s'.control t).Serves c := by
  have hself : ∀ {r : State T} {control : Control}, control.Serves c → ((r.setControl t control).control t).Serves c := by
    intro r control hserves
    rw [show (r.setControl t control).control t = control from Function.update_self ..]
    exact hserves
  cases hm with
  | @lockRead _ point next hc hpoint hfree =>
    rw [hc] at h
    refine hself ?_
    rcases hpoint with ⟨rfl, rfl⟩ | ⟨rfl, rfl⟩ <;> exact h
  | @fetch _ point hc hf =>
    rw [hc] at h
    refine hself ?_
    cases point with
    | fetch => exact h
    | slowFetch | refetch =>
      rcases (s.inner.nextInsertLocation build).2 with fault | _ | location <;> exact h
    | _ => exact absurd hf not_false
  | @unlockRead _ location hc =>
    rw [hc] at h
    refine hself ?_
    rcases location with fault | _ | location
    · trivial
    · exact h
    · exact h.symm
  | lockWrite hc hfree hnone =>
    rw [hc] at h
    exact hself h
  | expand hc =>
    rw [hc] at h
    refine hself ?_
    cases (s.inner.expand build).2 <;> exact h
  | @unlockWrite _ location hc =>
    rw [hc] at h
    refine hself ?_
    cases location with
    | error fault => trivial
    | ok location => exact h.symm
  | load hc =>
    rw [hc] at h
    exact hself h
  | @compute _ headSize used hc =>
    rw [hc] at h
    refine hself ?_
    cases capacity build headSize used with
    | error fault => trivial
    | ok sums => exact h.symm

end ReadWriteStore.Bucket

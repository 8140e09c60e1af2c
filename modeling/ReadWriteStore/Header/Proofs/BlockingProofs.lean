import ReadWriteStore.Header.Blocking
import ReadWriteStore.Header.Proofs.WakeupProofs

/-!
# Nobody waits for nothing

A thread with the lock of the parking queue never waits, and a thread that has to wake the queue waits for
that lock at most. So a thread that waits for neither is asleep, and then the header is locked.
-/

namespace ReadWriteStore.Header

open Transition (Moves)

variable {T : Type} [DecidableEq T] {build : Build} {s : State T} {t : T} {point : Point}

theorem State.goesOn_exec {op : AtomicOp} (hc : s.control t = .running point) (hop : point.op = some op) :
    s.GoesOn build t :=
  ⟨.act t false, rfl, nofun, by simp only [step, hc, hop, Option.isSome_some]⟩

theorem State.goesOn_queue (hc : s.control t = .running point) (hop : point.op = none)
    (hstep : (s.queueStep build t point).isSome = true) : s.GoesOn build t :=
  ⟨.act t false, rfl, nofun, by simp only [step, hc, hop, hstep]⟩

theorem State.goesOn_holder (hc : (s.control t).stage.Holds) : s.GoesOn build t := by
  cases hcontrol : s.control t with
  | running point =>
    rw [hcontrol] at hc
    cases point with
    | closure | markExchange => exact State.goesOn_exec hcontrol rfl
    | enqueue | leave => exact State.goesOn_queue hcontrol rfl rfl
    | _ => rcases hc with hc | hc <;> cases hc
  | _ =>
    rw [hcontrol] at hc
    rcases hc with hc | hc <;> cases hc

/-- A step that needs the lock of the queue. -/
theorem Parking.moves_queue (h : Parking s) (hneeds : (s.control t).needsQueue = true)
    (hfree : s.queueLock = none → s.GoesOn build t) : Moves (s.GoesOn build) s.HeldUp t := by
  cases hlock : s.queueLock with
  | none => exact .self (hfree hlock)
  | some u => exact .of_waits (.queueLock hneeds hlock) (.self (State.goesOn_holder ((h.lock u).1 hlock)))

theorem Parking.moves_unpark (h : Parking s) {result : Return} (hc : s.control t = .running (.unpark result)) :
    Moves (s.GoesOn build) s.HeldUp t := by
  refine h.moves_queue (by rw [hc]; rfl) fun hfree => State.goesOn_queue hc rfl ?_
  simp only [State.queueStep, hfree, if_true, Option.isSome_some]

variable [Fintype T]

/-- A thread in the queue. -/
theorem Parking.moves_asleep (h : Parking s) (hinv : s.Inv) {frame : Frame} {deadline : Option Instant}
    {result : Option ParkResult} (hc : s.control t = .running (.parked frame deadline result)) (hq : t ∈ s.queue) :
    s.Asleep t ∨ Moves (s.GoesOn build) s.HeldUp t := by
  cases deadline with
  | some deadline =>
    refine Or.inr (h.moves_queue (by rw [hc]; rfl) fun hfree => ?_)
    exact ⟨.expire t, rfl, nofun, by simp only [step, hc, hq, hfree, and_self, if_true, Option.isSome_some]⟩
  | none =>
    rcases (h.noLostWakeup hinv).held t hq with ⟨u, lock, hlock⟩ | ⟨u, return_, hunpark⟩
    · exact Or.inl ⟨hq, ⟨frame, result, hc⟩, u, List.ne_nil_of_mem hlock⟩
    · exact Or.inr (.of_waits (.wakeup hq hunpark) (h.moves_unpark hunpark))

/-- A thread inside a call of a header goes on, waits for one that does, or sleeps on a locked header. -/
theorem moves_of_reachable (h : (machine build T).Reachable s) (hc : s.control t ≠ .idle) :
    s.Asleep t ∨ Moves (s.GoesOn build) s.HeldUp t := by
  obtain ⟨hinv, hparking⟩ := reachable_parking h
  cases hcontrol : s.control t with
  | idle => exact absurd hcontrol hc
  | returned | faulted =>
    exact Or.inr (.self ⟨.ret t, rfl, nofun, by simp only [step, hcontrol, Option.isSome_some]⟩)
  | running point =>
    cases point with
    | park frame deadline =>
      refine Or.inr (hparking.moves_queue (by rw [hcontrol]; rfl) fun hfree => State.goesOn_queue hcontrol rfl ?_)
      simp only [State.queueStep, hfree, if_true, Option.isSome_some]
    | enqueue | leave => exact Or.inr (.self (State.goesOn_queue hcontrol rfl rfl))
    | parked frame deadline result =>
      by_cases hq : t ∈ s.queue
      · exact hparking.moves_asleep hinv hcontrol hq
      · refine Or.inr (.self (State.goesOn_queue hcontrol rfl ?_))
        simp only [State.queueStep, hq, if_false, Option.isSome_some]
    | unpark result => exact Or.inr (hparking.moves_unpark hcontrol)
    | _ => exact Or.inr (.self (State.goesOn_exec hcontrol rfl))

end ReadWriteStore.Header

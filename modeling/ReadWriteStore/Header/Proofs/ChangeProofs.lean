import ReadWriteStore.Header.Proofs.InvariantProofs

/-!
# What an operation on the word does

`Change` lists the outcomes of the operation at a thread's point in a state that meets the invariant:
the operation read or failed, it set the waiting mark, or it was the step at which its method takes
effect. Later proofs go through these cases and never through the operations.
-/

namespace ReadWriteStore.Header

open Transition

inductive Change {T : Type} [DecidableEq T] (build : Build) (s : State T) (t : T) :
    Point → State T → Prop
  /-- A load, or a compare exchange that failed. -/
  | stay {point : Point} {reply : Reply}
      (hreply : reply = .value s.word ∨ reply = .err s.word) (heffect : point.effect reply = .none)
      (hself : (Control.ofChecked (point.resume build reply)).Ok s.issued (s.locks t)) :
      Change build s t point (s.setControl t (.ofChecked (point.resume build reply)))
  /-- The waiting mark of a locked header. -/
  | mark {frame : Frame} {deadline : Option Instant} (hframe : frame.Ok s.issued)
      (hr : readersFromBits s.word ≠ 0) (hid : idFromBits s.word = frame.id) :
      Change build s t
        (.markExchange frame deadline s.word (s.word &&& ~~~threadNotificationMask))
        ({ s with word := s.word &&& ~~~threadNotificationMask }.setControl t
          (.running (.enqueue frame deadline (some .waited))))
  | addReader {id : UInt32} {timeout : Timeout} (hmem : id ∈ s.issued) (hid : idFromBits s.word = id)
      (hw : isWriteLocked s.word = false) (hr : readersFromBits s.word ≠ maxConcurrentReads) :
      Change build s t
        (.lockReadExchange id s.word (s.word + ((1 : UInt64) <<< 32)) timeout)
        (({ s with word := s.word + ((1 : UInt64) <<< 32) }.record t (.acquire ⟨.read, id⟩)).setControl t
          (.returned (.lockRead (.ok true))))
  | dropReader {id : UInt32} {new : UInt64} {mustUnpark : Bool} (hlock : ⟨.read, id⟩ ∈ s.locks t)
      (hleave : ReadersLeave s.word new mustUnpark) :
      Change build s t (.unlockReadExchange id s.word new mustUnpark)
        (({ s with word := new }.record t (.release ⟨.read, id⟩)).setControl t
          (if mustUnpark then .running (.unpark .unlockRead) else .returned .unlockRead))
  /-- `transition` succeeds at once. -/
  | transition {timeout : Timeout} {caller : Caller} (hcaller : caller.Ok s.issued)
      (hcur : s.word = occupiedUnlockedBits caller.id) :
      Change build s t (.transitionExchange (occupiedUnlockedBits caller.id) caller.target timeout caller)
        (({ s with word := caller.target }.record t caller.effect).setControl t
          (.returned (caller.finish (.ok true))))
  /-- `transition_slow` succeeds inside its closure. -/
  | transitionSlow {deadline : Option Instant} {caller : Caller} (hcaller : caller.Ok s.issued)
      (hcur : s.word = occupiedUnlockedBits caller.id) :
      Change build s t
        (.closure (.transition (occupiedUnlockedBits caller.id) caller.target caller) deadline)
        (({ s with word := caller.target }.record t caller.effect).setControl t
          (.running (.leave (.transition (occupiedUnlockedBits caller.id) caller.target caller) deadline
            (some (.didntPark (.transitioned true))))))
  | unlockWrite {id : UInt32} (hlock : ⟨.write, id⟩ ∈ s.locks t) :
      Change build s t (.unlockWriteSwap id (occupiedUnlockedBits id))
        (({ s with word := occupiedUnlockedBits id }.record t (.release ⟨.write, id⟩)).setControl t
          (wakeIf s.word .unlockWrite))
  | removeLocked {id : UInt32} (hlock : ⟨.write, id⟩ ∈ s.locks t) :
      Change build s t (.removeLockedSwap id (id + 1) (unoccupiedBits (id + 1)))
        (({ s with word := unoccupiedBits (id + 1) }.record t (.release ⟨.write, id⟩)).setControl t
          (wakeIf s.word (.removeLocked (id + 1 != reservedId))))
  | occupy (hocc : isOccupied s.word = false) (hne : idFromBits s.word ≠ reservedId) :
      Change build s t .occupyFetchOr
        (({ s with word := s.word ||| threadNotificationMask }.record t
          (.issue (idFromBits s.word))).setControl t (.returned (.occupy (idFromBits s.word))))

variable {T : Type} [DecidableEq T] {build : Build} {s s' : State T}

/-- The operation replied without changing anything. -/
theorem exec_stay {t : T} {point : Point} {op : AtomicOp} {spurious : Bool} {reply : Reply}
    (hexec : op.exec spurious s.word = (s.word, reply)) (heffect : point.effect reply = .none) :
    s.exec build t point op spurious = s.setControl t (.ofChecked (point.resume build reply)) := by
  simp only [State.exec, hexec, heffect, State.record]

theorem exec_eq {t : T} {point : Point} {op : AtomicOp} {spurious : Bool} {word : UInt64}
    {reply : Reply} (hexec : op.exec spurious s.word = (word, reply)) :
    s.exec build t point op spurious =
      ({ s with word := word }.record t (point.effect reply)).setControl t
        (.ofChecked (point.resume build reply)) := by
  simp only [State.exec, hexec]

variable [Fintype T]

/-- Every operation on the word is one of the changes. -/
theorem State.Inv.exec_change (h : s.Inv) {t : T} {point : Point} {op : AtomicOp} {spurious : Bool}
    (hc : s.control t = .running point) (hop : point.op = some op)
    (hocc : point = .occupyFetchOr → isOccupied s.word = false ∧ idFromBits s.word ≠ reservedId) :
    Change build s t point (s.exec build t point op spurious) := by
  have hp := h.running hc
  cases point with
  | lockReadLoad id timeout =>
    cases hop
    rw [exec_stay rfl rfl]
    exact .stay (Or.inl rfl) rfl (lockReadWithCurrent_ok hp (h.ne_reserved hp))
  | lockReadExchange id current new timeout =>
    cases hop
    obtain ⟨hmem, hid, hw, hr, rfl⟩ := hp
    rcases compareExchangeWeak_cases current (current + ((1 : UInt64) <<< 32)) spurious s.word with
      ⟨rfl, hexec⟩ | hexec
    · rw [exec_eq hexec]
      exact .addReader hmem hid hw hr
    · rw [exec_stay hexec rfl]
      exact .stay (Or.inr rfl) rfl (lockReadWithCurrent_ok hmem (h.ne_reserved hmem))
  | unlockReadLoad id =>
    cases hop
    obtain ⟨hid, hr, hw, hoc⟩ := h.of_read_lock hp
    obtain ⟨new, mustUnpark, hleave, heq⟩ := unlockReadWithCurrent_eq build hid hr hw hoc
    rw [exec_stay rfl rfl]
    refine .stay (Or.inl rfl) rfl ?_
    rw [Point.resume, Reply.found, heq]
    exact ⟨hp, hleave⟩
  | unlockReadExchange id current new mustUnpark =>
    cases hop
    obtain ⟨hlock, hleave⟩ := hp
    rcases compareExchangeWeak_cases current new spurious s.word with ⟨rfl, hexec⟩ | hexec
    · rw [exec_eq hexec]
      have hchange : Change build s t _ _ := .dropReader hlock hleave
      cases mustUnpark with
      | true => exact hchange
      | false => exact hchange
    · obtain ⟨hid, hr, hw, hoc⟩ := h.of_read_lock hlock
      obtain ⟨new', mustUnpark', hleave', heq⟩ :=
        unlockReadWithCurrent_eq build hid hr hw hoc
      rw [exec_stay hexec rfl]
      refine .stay (Or.inr rfl) rfl ?_
      rw [Point.resume, Reply.found, heq]
      · exact ⟨hlock, hleave'⟩
      · rintro _ ⟨⟩
  | transitionExchange expected new timeout caller =>
    cases hop
    obtain ⟨hcaller, rfl, rfl⟩ := hp
    rcases compareExchangeWeak_cases (occupiedUnlockedBits caller.id) caller.target spurious s.word with
      ⟨hcur, hexec⟩ | hexec
    · rw [exec_eq hexec]
      exact .transition hcaller hcur
    · rw [exec_stay hexec rfl]
      exact .stay (Or.inr rfl) rfl (transitionErr_ok hcaller rfl rfl)
  | closure frame deadline =>
    cases hop
    cases frame with
    | lockRead id timeout =>
      rw [exec_stay rfl rfl]
      refine .stay (Or.inl rfl) rfl (blockResult_ok hp (h.ne_reserved hp) ?_ ?_)
      · intro expectedState hchoice
        rcases Frame.choice_lockRead (.value s.word) id timeout with
          ⟨-, he⟩ | ⟨hid, hw, he⟩ | ⟨-, -, he⟩
        · rw [he] at hchoice; cases hchoice
        · rw [he] at hchoice
          cases hchoice
          exact ⟨readers_of_writeLocked hw, hid⟩
        · rw [he] at hchoice; cases hchoice
      · intro response hchoice
        rcases Frame.choice_lockRead (.value s.word) id timeout with
          ⟨-, he⟩ | ⟨-, -, he⟩ | ⟨hid, hw, he⟩
        · rw [he] at hchoice; cases hchoice; trivial
        · rw [he] at hchoice; cases hchoice
        · rw [he] at hchoice
          cases hchoice
          exact ⟨hid, hw⟩
    | transition expected new caller =>
      obtain ⟨hcaller, rfl, rfl⟩ := hp
      simp only [Frame.op]
      rcases compareExchange_cases (occupiedUnlockedBits caller.id) caller.target spurious s.word with
        ⟨hcur, hexec⟩ | ⟨hcur, hexec⟩
      · rw [exec_eq hexec]
        exact .transitionSlow hcaller hcur
      · rw [exec_stay hexec rfl]
        refine .stay (Or.inr rfl) rfl
          (blockResult_ok ⟨hcaller, rfl, rfl⟩ (h.ne_reserved hcaller.1) ?_ ?_)
        · intro expectedState hchoice
          rcases Frame.choice_transition_err s.word (occupiedUnlockedBits caller.id) caller.target
            caller with ⟨hid, he⟩ | ⟨-, he⟩
          · rw [he] at hchoice
            cases hchoice
            rw [idFromBits_occupiedUnlockedBits] at hid
            refine ⟨fun hr => hcur ?_, hid⟩
            rw [h.ledger.eq_unlocked (by rw [hid]; exact hcaller.1) hr, hid]
          · rw [he] at hchoice; cases hchoice
        · intro response hchoice
          rcases Frame.choice_transition_err s.word (occupiedUnlockedBits caller.id) caller.target
            caller with ⟨-, he⟩ | ⟨-, he⟩
          · rw [he] at hchoice; cases hchoice
          · rw [he] at hchoice; cases hchoice; trivial
  | markExchange frame deadline expectedState newState =>
    cases hop
    obtain ⟨hframe, hr, hid, rfl⟩ := hp
    rcases compareExchange_cases expectedState (expectedState &&& ~~~threadNotificationMask) spurious
      s.word with ⟨rfl, hexec⟩ | ⟨-, hexec⟩
    · rw [exec_eq hexec]
      exact .mark hframe hr hid
    · rw [exec_stay hexec rfl]
      exact .stay (Or.inr rfl) rfl hframe
  | unlockWriteSwap id new =>
    cases hop
    obtain ⟨hlock, rfl⟩ := hp
    obtain ⟨hid, hw, hoc, -, -⟩ := h.of_write_lock hlock
    rw [exec_eq rfl, Point.resume, Reply.found, afterSwap_eq hid hw hoc]
    exact .unlockWrite hlock
  | removeLockedSwap id nextId new =>
    cases hop
    obtain ⟨hlock, rfl, rfl⟩ := hp
    obtain ⟨hid, hw, hoc, -, -⟩ := h.of_write_lock hlock
    rw [exec_eq rfl, Point.resume, Reply.found, afterSwap_eq hid hw hoc]
    exact .removeLocked hlock
  | occupyFetchOr =>
    cases hop
    obtain ⟨hoc, hne⟩ := hocc rfl
    rw [exec_eq rfl, Point.resume, Reply.found, afterFetchOr_eq hoc hne]
    exact .occupy hoc hne
  | _ => cases hop

theorem wakeIf_ok {old : UInt64} {result : Return} {issued : List UInt32} {locks : List Lock} :
    (wakeIf old result).Ok issued locks := by
  unfold wakeIf
  split <;> trivial

/-- Every change preserves the invariant. -/
theorem State.Inv.change (h : s.Inv) {t : T} {point : Point} (hch : Change build s t point s') :
    s'.Inv := by
  cases hch with
  | stay _ _ hself => exact h.keep _ _ hself
  | mark hframe hr hid =>
    obtain ⟨hledger, hsame⟩ := h.ledger.mark hr
    exact h.rewrite hledger (Or.inl hsame) ⟨hframe, rfl⟩
  | addReader hmem hid hw hr =>
    obtain ⟨hledger, hsame, -⟩ := h.ledger.increment (by rw [hid]; exact hmem) hw hr
    exact h.acquire hledger hsame hid.symm fun _ => trivial
  | @dropReader id new mustUnpark hlock hleave =>
    have hpos : s.held .read = s.held .read - 1 + 1 := by
      have := held_pos hlock
      simp only at this
      omega
    have hdec : ∀ reads writes, reads + 1 = s.held .read → writes = s.held .write →
        Ledger new reads writes s.issued ∧ idFromBits new = idFromBits s.word := by
      intro reads writes hreads hwrites
      have hledger := h.ledger
      rw [← hreads, ← hwrites] at hledger
      exact hledger.decrement hleave.1 hleave.2
    refine h.release hlock (fun reads writes hreads hwrites => ?_)
      (Or.inl (hdec _ _ hpos.symm rfl).2) fun _ => ?_
    · exact (hdec reads writes (by simpa using hreads) (by simpa using hwrites)).1
    · cases mustUnpark <;> trivial
  | transition hcaller hcur => exact h.transition hcaller hcur fun _ => trivial
  | transitionSlow hcaller hcur =>
    exact h.transition hcaller hcur fun _ => ⟨⟨hcaller, rfl, rfl⟩, _, rfl, trivial⟩
  | unlockWrite hlock =>
    obtain ⟨hid, hw, hoc, -, -⟩ := h.of_write_lock hlock
    refine h.release hlock ?_ (Or.inr rfl) fun _ => wakeIf_ok
    intro reads writes hreads hwrites
    have hledger := h.ledger
    rw [← hreads, ← hwrites] at hledger
    exact (hledger.unlockWrite hid).1
  | @removeLocked id hlock =>
    obtain ⟨hid, hw, hoc, hone, hzero⟩ := h.of_write_lock hlock
    refine h.release hlock ?_ (Or.inr rfl) fun _ => wakeIf_ok
    intro reads writes hreads hwrites
    have hr0 : reads = 0 := by simp only [reduceCtorEq, if_false] at hreads; omega
    have hw0 : writes = 0 := by simp only [if_true] at hwrites; omega
    subst hr0 hw0
    have hmem : id ∈ s.issued := by
      rw [← hid]
      exact h.ledger.occupied.1 ((isOccupied_iff _).1 hoc)
    exact (h.ledger.retire hmem hid).1
  | occupy hocc hne => exact h.occupy hocc hne fun _ _ => trivial

end ReadWriteStore.Header

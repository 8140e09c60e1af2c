import ReadWriteStore.Store.Fate
import ReadWriteStore.Store.Proofs.BlockingProofs
import ReadWriteStore.Store.Proofs.ReadersProofs
import ReadWriteStore.Store.Reference

/-!
# A store with one thread gives the expected results

A thread alone is the only one to change the map while it is inside a call, so a call takes effect on the map
that it was called on. An `insert` panics only in a bucket that has its largest block, a `read` only on an
element with as many read locks as a header can count.
-/

namespace ReadWriteStore.Bucket

/-- The call of the thread is bound to panic. -/
def Control.Fails : Control → Prop
  | .running (.unlockWrite (.error _)) | .faulted _ => True
  | _ => False

variable {T : Type} [DecidableEq T] {build : Build} {s s' : State T} {e : Event T}

omit [DecidableEq T] in
theorem Inner.headSize_pos {inner : Inner} (hd : Doubling inner.blocks) (hne : inner.blocks ≠ [])
    (hlen : inner.blocks.length ≤ 32) : 0 < inner.headSize := by
  unfold headSize
  generalize inner.blocks = blocks at hd hne hlen
  cases blocks with
  | nil => exact absurd rfl hne
  | cons len older =>
    rw [List.length_cons] at hlen
    show 0 < len
    rw [UInt32.lt_iff_toNat_lt, head_toNat hd (by omega)]
    exact Nat.two_pow_pos _

/-- Only a chain that has its largest block makes `next_insert_location` panic. -/
theorem Move.fails (h : s.Inv build) (hm : Move build s e s')
    (hserves : (s.control e.thread).Serves .nextInsertLocation)
    (hbefore : (s.control e.thread).Fails → 32 ≤ s.inner.blocks.length) (hfails : (s'.control e.thread).Fails) :
    32 ≤ s'.inner.blocks.length := by
  cases hm with
  | call hc =>
    have hnone : Control.idle.Serves .nextInsertLocation := hc ▸ hserves
    exact hnone.elim
  | lockRead hc hpoint hfree =>
    simp only [Event.thread, State.setControl_self] at hfails
    rcases hpoint with ⟨-, rfl⟩ | ⟨-, rfl⟩
    · exact hfails.elim
    · exact hfails.elim
  | @fetch t point hc hf =>
    simp only [Event.thread, State.setControl_self] at hfails
    have hok := h.running hc
    rcases Inner.nextInsertLocation_cases build h.chain.1 with
      ⟨hnil, hfetch⟩ | ⟨-, -, location, hfetch⟩ | ⟨hne, hle, hfetch⟩
    · rw [hfetch] at hfails
      cases point with
      | refetch => exact absurd hnil hok.1
      | fetch | slowFetch => exact hfails.elim
      | _ => exact hf.elim
    · rw [hfetch] at hfails
      cases point with
      | fetch | slowFetch | refetch => exact hfails.elim
      | _ => exact hf.elim
    · rw [hfetch] at hfails ⊢
      cases point with
      | refetch =>
        -- the new head has no slots
        show 32 ≤ s.inner.blocks.length
        by_contra hshort
        have hpos := Inner.headSize_pos h.chain.1 hne (by omega)
        rw [hok.2] at hle
        exact absurd hpos (UInt32.not_lt.2 hle)
      | fetch | slowFetch => exact hfails.elim
      | _ => exact hf.elim
  | @unlockRead t location hc =>
    simp only [Event.thread, State.setControl_self] at hfails
    have hok := h.running hc
    rcases location with fault | (_ | location)
    · exact hok.elim
    · exact hfails.elim
    · exact hfails.elim
  | lockWrite hc hfree hnone =>
    simp only [Event.thread, State.setControl_self] at hfails
    exact hfails.elim
  | expand hc =>
    simp only [Event.thread, State.setControl_self] at hfails
    have hexpanded := Inner.expanded h.chain (h.running hc)
    show 32 ≤ (s.inner.expand build).1.blocks.length
    generalize s.inner.expand build = result at hexpanded hfails
    cases hexpanded with
    | grown => exact hfails.elim
    | panicked hbuild hlen => exact Nat.le_of_eq hlen.symm
  | @unlockWrite t location hc =>
    simp only [Event.thread, State.setControl_self] at hfails
    have hbefore : (s.control t).Fails → 32 ≤ s.inner.blocks.length := hbefore
    rw [hc] at hbefore
    cases location with
    | ok location => exact hfails.elim
    | error fault => exact hbefore trivial
  | load hc =>
    have hother : (Control.running .capacityLoad).Serves .nextInsertLocation := hc ▸ hserves
    cases hother
  | @compute t headSize used hc =>
    have hother : (Control.running (.capacityUnlockRead headSize used)).Serves .nextInsertLocation := hc ▸ hserves
    cases hother
  | ret hc =>
    simp only [Event.thread, State.setControl_self] at hfails
    exact hfails.elim

end ReadWriteStore.Bucket

namespace ReadWriteStore.Store

open Transition (Object)

variable {E : Type} {build : Build}

/-! ## The map of one thread -/

namespace Map

variable {m m' : Map (Fin 1) E} {call : Call E} {result : Return E}

theorem Effect.expects (h : m.Effect 0 call result m') : m.Expects call result m' := by
  cases h with
  | insert hnew => exact ⟨_, hnew, rfl, rfl⟩
  | miss hcall hnone =>
    cases call with
    | read | write | remove | replaceMut =>
      cases hcall
      simp only [Expects, hnone, and_self]
    | getMut =>
      cases hcall
      simp only [Expects, hnone, Option.map_none, and_self]
    | _ => cases hcall
  | remove hsome hfree =>
    simp only [Expects, hsome, hfree 0 .read, hfree 0 .write, and_self, if_true]
  | removeLocked hsome hlock => exact ⟨_, hsome, hlock, rfl, rfl⟩
  | read hsome hread =>
    simp only [Expects, hsome, hread 0, if_true, and_self]
  | write hsome hfree =>
    simp only [Expects, hsome, hfree 0 .read, hfree 0 .write, and_self, if_true]
  | dropRead hsome hlock => exact ⟨_, hsome, hlock, rfl, rfl⟩
  | dropWrite hsome hlock => exact ⟨_, hsome, hlock, rfl, rfl⟩
  | deref hsome hlock =>
    obtain ⟨u, hlock⟩ := hlock
    obtain rfl := Subsingleton.elim u 0
    exact ⟨_, hsome, hlock, rfl, rfl⟩
  | replace hsome hlock => exact ⟨_, hsome, hlock, rfl, rfl⟩
  | capacity => exact ⟨⟨_, _, rfl⟩, rfl⟩
  | getMut hsome hfree =>
    refine ⟨?_, rfl⟩
    rw [hsome]
    rfl
  | replaceMut hsome hfree =>
    simp only [Expects, hsome, and_self]
  | iterMut hfree hitems => exact ⟨_, hitems, rfl, rfl⟩

/-- A call that has to wait gives up. -/
theorem TimesOut.expects (h : TimesOut call result) (hbusy : m.Busy call) : m.Expects call result m := by
  cases h with
  | read =>
    obtain ⟨entry, hsome, hread⟩ := hbusy
    have hwrite : ¬entry.locks 0 .write = 0 := fun hzero => hread fun t => Subsingleton.elim 0 t ▸ hzero
    simp only [Expects, hsome, hwrite, if_false, and_self]
  | write | remove =>
    obtain ⟨entry, hsome, hfree⟩ := hbusy
    have hlocked : ¬(entry.locks 0 .read = 0 ∧ entry.locks 0 .write = 0) := by
      rintro ⟨hread, hwrite⟩
      refine hfree fun t kind => ?_
      obtain rfl := Subsingleton.elim t 0
      cases kind with
      | read => exact hread
      | write => exact hwrite
    simp only [Expects, hsome, hlocked, if_false, and_self]

/-- The calls of one thread on the map are the expected ones. -/
theorem follows_of_serial {actions : List (Object.Action (Fin 1) (Call E) (Return E))}
    (h : (object (Fin 1) E).Serial 0 .init actions m) : Follows Panics actions m := by
  induction h with
  | nil => exact .init
  | @call actions m m' call result _ hanswers ih =>
    cases result with
    | none =>
      obtain ⟨hpanics, rfl⟩ := hanswers
      exact ih.panic hpanics
    | some result =>
      rcases hanswers with heffect | ⟨hbusy, hgives, rfl⟩
      · exact ih.answer heffect.expects
      · exact ih.answer (hgives.expects hbusy)

/-- Only the panics of a history count. -/
theorem Follows.imp {panics panics' : Map (Fin 1) E → Call E → Prop}
    {actions : List (Object.Action (Fin 1) (Call E) (Return E))} (h : Follows panics actions m)
    (himp : ∀ m call, [.call 0 call, .ret 0 none] <:+: actions → panics m call → panics' m call) :
    Follows panics' actions m := by
  induction h with
  | init => exact .init
  | answer _ hexpects ih =>
    exact .answer (ih fun m call hmem => himp m call (hmem.trans (List.prefix_append _ _).isInfix)) hexpects
  | panic _ hpanics ih =>
    exact .panic (ih fun m call hmem => himp m call (hmem.trans (List.prefix_append _ _).isInfix))
      (himp _ _ (List.suffix_append _ _).isInfix hpanics)

/-- Without panics no call returns nothing. -/
theorem Follows.no_panic {actions : List (Object.Action (Fin 1) (Call E) (Return E))}
    (h : Follows (fun _ _ => False) actions m) : .ret 0 none ∉ actions := by
  induction h with
  | init => exact List.not_mem_nil
  | answer _ _ ih =>
    intro hmem
    rcases List.mem_append.1 hmem with hbefore | hlast
    · exact ih hbefore
    · simp at hlast
  | panic _ hpanics => exact hpanics.elim

end Map

/-! ## Runs of one thread -/

/-- An `insert` that is bound to panic is in a bucket that has its largest block. -/
theorem full_of_fails {s : State (Fin 1) E} (h : ((machine build (Fin 1) E).restrict State.NoWrap).Reachable s)
    (bucket : Fin bucketCount) (element : E) (hc : s.control 0 = .bucket (.insert bucket element))
    (hfails : ((s.bucket bucket).control 0).Fails) : 32 ≤ (s.bucket bucket).inner.blocks.length := by
  induction h with
  | @init s hs =>
    obtain ⟨storeId, generator, rfl⟩ := hs
    cases hc
  | @step s s' e hs hstep ih =>
    have hm := Move.of_step hstep.2.2
    have hthread : e.thread = 0 := Subsingleton.elim ..
    cases hm.bucketPart bucket with
    | same hbucket hframe =>
      rw [hbucket] at hfails ⊢
      rw [hthread] at hframe
      exact ih ((hframe _ rfl).1 hc) hfails
    | @enters frame hb hbefore hafter hbucket =>
      rw [hthread, hc] at hafter
      cases hafter
      have hstart := (Bucket.Move.of_step hbucket).call_control rfl
      rw [hthread] at hstart
      rw [hstart] at hfails
      exact hfails.elim
    | @goes frame hb hcontrol hsame hbucket =>
      rw [hthread] at hcontrol hsame hbucket
      cases hc.symm.trans hsame
      exact (Bucket.Move.of_step hbucket).fails ((known_of_reachable hs).sound.linked.bucket bucket).inv
        (servesBuckets_of_reachable hs 0 _ hcontrol) (ih hcontrol) hfails
    | leaves hb hbefore hafter =>
      rw [hthread] at hafter
      exact absurd rfl (hafter _ hc)

/-- The thread is inside an `insert` that goes well so far. -/
def Control.Inserts : Control E → Prop
  | .pop _ | .bucket (.insert _ _) | .place _ _ | .header (.occupy _ _) | .returned (.insert _) => True
  | _ => False

/-- Until it returns, an `insert` goes on or meets a full bucket. -/
theorem inserts_step {s s' : State (Fin 1) E} {e : Event (Fin 1) E}
    (h : ((machine build (Fin 1) E).restrict State.NoWrap).Reachable s) (hm : Move build s e s')
    (hinserts : (s.control 0).Inserts) (hret : e ≠ .ret 0) : (s'.control 0).Inserts ∨ s.Full := by
  have hself : ∀ t : Fin 1, t = 0 := fun t => Subsingleton.elim t 0
  cases hm with
  | @reuse t spurious element address rest hc =>
    obtain rfl := hself t
    exact Or.inl (by rw [State.setControl_self]; trivial)
  | @draw t spurious element generator bucket hc =>
    obtain rfl := hself t
    exact Or.inl (by rw [State.setControl_self]; trivial)
  | @place t spurious element address header hc =>
    obtain rfl := hself t
    exact Or.inl (by rw [State.setControl_self]; trivial)
  | bucketStep | headerStep | expire => exact Or.inl hinserts
  | @located t spurious b element location bucket hc =>
    obtain rfl := hself t
    exact Or.inl (by rw [State.setControl_self]; trivial)
  | @bucketFault t spurious frame fault bucket hc hr =>
    obtain rfl := hself t
    rw [hc] at hinserts
    cases frame with
    | insert b element => exact Or.inr ⟨b, full_of_fails h b element hc (hr ▸ trivial)⟩
    | capacity => exact hinserts.elim
  | @resume t spurious frame result header control hc hr hh hres =>
    obtain rfl := hself t
    rw [hc] at hinserts
    cases frame with
    | occupy address element =>
      left
      rw [State.setControl_self]
      cases result <;> cases hres
      trivial
    | _ => exact hinserts.elim
  | @headerFault t spurious frame fault header hc hr =>
    obtain rfl := hself t
    have hserves := (known_of_reachable h).sound.linked.serves 0 frame hc
    rw [hr] at hserves
    rw [hc] at hinserts
    cases frame with
    | occupy => exact absurd rfl (serves_faulted hserves).1
    | _ => exact hinserts.elim
  | @moveFault t spurious id fault hc =>
    obtain rfl := hself t
    rcases hc with hc | ⟨method, mayReuse, hc⟩
    · rw [hc] at hinserts
      exact hinserts.elim
    · rw [hc] at hinserts
      exact hinserts.elim
  | @ret t result hc | @retFault t fault hc =>
    obtain rfl := hself t
    exact absurd rfl hret
  | @insert t _ hc | @enter t _ _ _ hc | @removeLocked t _ hc | @capacity t _ hc | @look t _ _ hc
  | @replace t _ _ _ _ hc | @callFault t _ _ hc | @addedNext t _ _ _ _ _ _ _ _ _ _ hc
  | @addedLast t _ _ _ _ _ _ _ _ _ hc | @addFault t _ _ _ _ _ _ _ _ hc | @moveOut t _ _ _ _ _ hc
  | @moveOutLocked t _ _ _ _ hc | @push t _ _ _ hc | @elsewhere t hc =>
    obtain rfl := hself t
    rw [hc] at hinserts
    exact hinserts.elim

/-- A call that goes back with nothing is not an `insert` that went well. -/
theorem not_inserts_of_shows {s s' : State (Fin 1) E} {e : Event (Fin 1) E} (hstep : step build s e = some s')
    (hnone : State.shows s e = [.ret 0 none]) : ¬(s.control 0).Inserts := by
  cases e with
  | ret t =>
    obtain rfl := Subsingleton.elim t 0
    cases hc : s.control 0 with
    | returned result => simp [State.shows, hc] at hnone
    | faulted fault => exact not_false
    | _ =>
      simp only [step, hc] at hstep
      cases hstep
  | _ => simp [State.shows] at hnone

theorem call_inserts {s s' : State (Fin 1) E} {element : E}
    (hstep : step build s (.call 0 (.insert element)) = some s') : (s'.control 0).Inserts := by
  simp only [step] at hstep
  split at hstep
  · cases hstep
    rw [State.setControl_self]
    trivial
  · cases hstep

/-- A step shows at most one action. -/
theorem shows_cases (s : State (Fin 1) E) (e : Event (Fin 1) E) :
    (State.shows s e = [] ∧ e ≠ .ret 0) ∨ (∃ call, e = .call 0 call ∧ State.shows s e = [.call 0 call]) ∨
      ∃ result, State.shows s e = [.ret 0 result] := by
  cases e with
  | call t call =>
    obtain rfl := Subsingleton.elim t 0
    exact Or.inr (Or.inl ⟨call, rfl, rfl⟩)
  | ret t =>
    obtain rfl := Subsingleton.elim t 0
    refine Or.inr (Or.inr ?_)
    cases hc : s.control 0 with
    | returned result => exact ⟨some result, by simp only [State.shows, hc]⟩
    | _ => exact ⟨none, by simp only [State.shows, hc]⟩
  | _ => exact Or.inl ⟨rfl, fun he => by cases he⟩

/-- An `insert` that panics has met a full bucket. -/
theorem full_of_panic {n : ℕ} {state : ℕ → State (Fin 1) E} {event : ℕ → Event (Fin 1) E} {element : E}
    (hrun : ((machine build (Fin 1) E).restrict State.NoWrap).Run n state event)
    (hpanic : [.call 0 (.insert element), .ret 0 none] <:+: Transition.System.history State.shows state event n) :
    ∃ k ≤ n, (state k).Full := by
  -- while an `insert` is open it is the last action of the history
  suffices h : ∀ k ≤ n, ∀ element,
      ([.call 0 (.insert element), .ret 0 none] <:+: Transition.System.history State.shows state event k →
        ∃ i ≤ k, (state i).Full) ∧
      ([.call 0 (.insert element)] <:+ Transition.System.history State.shows state event k →
        ((state k).control 0).Inserts ∨ ∃ i ≤ k, (state i).Full) from
    (h n (le_refl n) element).1 hpanic
  intro k
  induction k with
  | zero =>
    intro _ element
    constructor
    · intro hinfix
      cases List.infix_nil.1 hinfix
    · intro hsuffix
      cases List.suffix_nil.1 hsuffix
  | succ k ih =>
    intro hk element
    obtain ⟨hpanics, hopen⟩ := ih (by omega) element
    have hlater : (∃ i ≤ k, (state i).Full) → ∃ i ≤ k + 1, (state i).Full := by
      rintro ⟨i, hi, hfull⟩
      exact ⟨i, by omega, hfull⟩
    have hstep := (hrun.step k hk).2.2
    have hhistory : Transition.System.history State.shows state event (k + 1) =
        Transition.System.history State.shows state event k ++ State.shows (state k) (event k) := rfl
    rw [hhistory]
    rcases shows_cases (state k) (event k) with ⟨hshows, hret⟩ | ⟨call, he, hshows⟩ | ⟨result, hshows⟩
    · rw [hshows, List.append_nil]
      refine ⟨fun hinfix => hlater (hpanics hinfix), fun hsuffix => ?_⟩
      rcases hopen hsuffix with hinserts | hfull
      · rcases inserts_step (hrun.reachable k (by omega)) (Move.of_step hstep) hinserts hret with h | hfull
        · exact Or.inl h
        · exact Or.inr ⟨k, by omega, hfull⟩
      · exact Or.inr (hlater hfull)
    · rw [hshows]
      constructor
      · intro hinfix
        rcases List.infix_concat_iff.1 hinfix with hsuffix | hinfix
        · have hlast := hsuffix.getLast (by simp)
          simp at hlast
        · exact hlater (hpanics hinfix)
      · intro hsuffix
        have hlast := hsuffix.getLast (by simp)
        simp only [List.getLast_singleton, List.getLast_append_singleton, Object.Action.call.injEq, true_and] at hlast
        subst hlast
        rw [he] at hstep
        exact Or.inl (call_inserts hstep)
    · rw [hshows]
      constructor
      · intro hinfix
        rcases List.infix_concat_iff.1 hinfix with hsuffix | hinfix
        · rcases List.suffix_concat_iff.1 hsuffix with hnil | ⟨before, hbefore, hopened⟩
          · cases hnil
          · have hsplit : [.call 0 (Call.insert element)] ++ [.ret 0 none] = before ++ [.ret 0 result] := hbefore
            obtain ⟨rfl, hresult⟩ := List.append_inj' hsplit rfl
            simp only [List.cons.injEq, Object.Action.ret.injEq, true_and, and_true] at hresult
            subst hresult
            rcases hopen hopened with hinserts | hfull
            · exact absurd hinserts (not_inserts_of_shows hstep hshows)
            · exact hlater hfull
        · exact hlater (hpanics hinfix)
      · intro hsuffix
        have hlast := hsuffix.getLast (by simp)
        simp at hlast

/-- A write lock, a `read` that meets it, a change of the element, its removal, and another element in its slot. -/
def usesElement : List (Event (Fin 1) Bool) :=
  List.flatten [wholeCall 0 (.insert true) 13, wholeCall 0 (.write ⟨0, ⟨9, ⟨0, 0⟩⟩, 0⟩ (.withTimeout .dontBlock)) 2,
    wholeCall 0 (.read ⟨0, ⟨9, ⟨0, 0⟩⟩, 0⟩ (.withTimeout .dontBlock)) 2,
    wholeCall 0 (.replace ⟨0, ⟨9, ⟨0, 0⟩⟩, 0⟩ false) 0, wholeCall 0 (.dropWrite ⟨0, ⟨9, ⟨0, 0⟩⟩, 0⟩) 2,
    wholeCall 0 (.remove ⟨0, ⟨9, ⟨0, 0⟩⟩, 0⟩ (.withTimeout .dontBlock)) 4, wholeCall 0 (.insert true) 4,
    wholeCall 0 (.read ⟨0, ⟨9, ⟨0, 0⟩⟩, 0⟩ (.withTimeout .dontBlock)) 2, wholeCall 0 (.iterMut 40 5) 0]

/-- A call that panics goes back with nothing. -/
theorem exists_panic {s : State (Fin 1) E} {fault : Fault}
    (h : (machine build (Fin 1) E).Reachable (s.setControl 0 (.faulted fault))) :
    ∃ n state event, (machine build (Fin 1) E).Run (n + 1) state event ∧
      (state n).control 0 = .faulted fault ∧ (state (n + 1)).control 0 = .idle ∧
      ¬Map.Follows (fun _ _ => False) (Transition.System.history State.shows state event (n + 1))
        (state (n + 1)).map := by
  have hne : Nonempty (Event (Fin 1) E) := ⟨.ret 0⟩
  obtain ⟨n, state, event, hrun, hlast⟩ := h.exists_run
  have hstep : (machine build (Fin 1) E).step (s.setControl 0 (.faulted fault)) (.ret 0) (s.setControl 0 .idle) :=
    ⟨trivial, ret_faulted⟩
  obtain ⟨state', event', hrun', hbefore, hevent, hafter⟩ := hrun.extend hlast hstep
  have hfaulted : (state' n).control 0 = .faulted fault := hbefore ▸ State.setControl_self _ _
  refine ⟨n, state', event', hrun', hfaulted, hafter ▸ State.setControl_self _ _, fun hfollows => ?_⟩
  refine hfollows.no_panic (Transition.System.mem_history.2 ⟨n, Nat.lt_succ_self n, ?_⟩)
  rw [hevent]
  simp only [State.shows, hfaulted, List.mem_singleton]

end ReadWriteStore.Store

import ReadWriteStore.Store.Proofs.CapacityProofs
import ReadWriteStore.Store.Proofs.RefinementProofs

/-!
# Counters with little to count

While fewer than `2 ^ 31` inserts are inside a bucket, and its head has fewer than `2 ^ 31` slots, its counter
does not come around to 0.
-/

namespace ReadWriteStore.Store

variable {T E : Type} [Fintype T] [DecidableEq T] {build : Build} {s s' : State T E} {e : Event T E}

theorem State.Linked.noWrap (h : s.Linked build) (hcounted : ∀ bucket, (s.bucket bucket).Counted)
    (hsmall : ∀ bucket, (s.bucket bucket).Small) : s.NoWrap e := by
  intro hwraps
  unfold State.Wraps at hwraps
  cases hc : s.control e.thread with
  | bucket frame =>
    rw [hc] at hwraps
    exact (hcounted frame.bucket).not_wraps (h.bucket frame.bucket) (hsmall frame.bucket) e.thread hwraps
  | _ =>
    rw [hc] at hwraps
    exact hwraps

theorem State.Sound.counted_step (h : s.Sound build) (hm : Move build s e s') (hwrap : s.NoWrap e)
    {bucket : Fin bucketCount} (hcounted : (s.bucket bucket).Counted) (hsmall : (s'.bucket bucket).Small) :
    (s'.bucket bucket).Counted := by
  rcases (hm.bucketPart bucket).bucketStep hwrap with hsame | ⟨event, -, hnowrap, hstep⟩
  · rw [hsame]
    exact hcounted
  · exact hcounted.move (h.linked.bucket bucket) hnowrap (.of_step hstep) hsmall.2

variable {n : ℕ} {state : ℕ → State T E} {event : ℕ → Event T E}

theorem counted_of_small (hrun : (machine build T E).Run n state event)
    (hsmall : ∀ k ≤ n, (state k).Sound build → ∀ bucket, ((state k).bucket bucket).Small) :
    ∀ k ≤ n, (state k).Sound build ∧ ∀ bucket, ((state k).bucket bucket).Counted := by
  intro k
  induction k with
  | zero =>
    intro _
    obtain ⟨storeId, generator, hinit⟩ := hrun.init
    rw [hinit]
    exact ⟨.init storeId generator, fun bucket => .init⟩
  | succ k ih =>
    intro hk
    obtain ⟨hs, hcounted⟩ := ih (by omega)
    obtain ⟨ha, hstep⟩ := hrun.step k hk
    have hm := Move.of_step hstep
    have hwrap : (state k).NoWrap (event k) := hs.linked.noWrap hcounted (hsmall k (by omega) hs)
    have hs' := hs.step hm ha hwrap
    exact ⟨hs', fun bucket => hs.counted_step hm hwrap (hcounted bucket) (hsmall (k + 1) hk hs' bucket)⟩

/-- No counter of the run wraps around. -/
theorem noWrap_of_small (hrun : (machine build T E).Run n state event)
    (hsmall : ∀ k ≤ n, (state k).Sound build → ∀ bucket, ((state k).bucket bucket).Small) :
    ((machine build T E).restrict State.NoWrap).Run n state event := by
  refine ⟨hrun.init, fun k hk => ⟨?_, hrun.step k hk⟩⟩
  obtain ⟨hs, hcounted⟩ := counted_of_small hrun hsmall k (by omega)
  exact hs.linked.noWrap hcounted (hsmall k (by omega) hs)

end ReadWriteStore.Store

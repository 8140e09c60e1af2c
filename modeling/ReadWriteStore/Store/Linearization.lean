import ReadWriteStore.Header.Proofs.HoldersProofs
import ReadWriteStore.Store.Iteration
import ReadWriteStore.Store.Map

/-!
# A store and its map, side by side

The relation that carries every run of a store over to the map: where a thread is in the code, and where
the same thread is with respect to the map.
-/

namespace ReadWriteStore.Store

open Transition.Object (Phase Shared)

variable {T E : Type}

/-- The method that makes a call of a bucket. -/
def BucketFrame.origin : BucketFrame E → Call E
  | .insert _ element => .insert element
  | .capacity _ _ _ => .capacity

/-- The method that makes a call of a header. -/
def Frame.origin : Frame E → Call E
  | .occupy _ element => .insert element
  | .remove id method => .remove id method
  | .removeLocked id _ => .removeLocked id
  | .read id method => .read id method
  | .write id method => .write id method
  | .dropRead id => .dropRead id
  | .dropWrite id => .dropWrite id

def Frame.id : Frame E → Option Id
  | .occupy _ _ => none
  | .remove id _ | .removeLocked id _ | .read id _ | .write id _ | .dropRead id | .dropWrite id => some id

/-- The calls of a header that may fail or time out. -/
def Frame.attempt : Frame E → Option (Header.Attempt × Id × Method)
  | .remove id method => some (.remove, id, method)
  | .read id method => some (.lockRead, id, method)
  | .write id method => some (.lockWrite, id, method)
  | _ => none

/-- What the method returns once the call of the header has taken effect. -/
def State.outcome [DecidableEq T] (s : State T E) : Frame E → Return E
  | .occupy address _ => .insert (s.idAt address)
  | .remove id _ => .remove (.ok (s.value id.slotAddress))
  | .removeLocked _ element => .removeLocked element
  | .read id _ => .read (.ok (some id))
  | .write id _ => .write (.ok (some id))
  | .dropRead _ => .dropRead
  | .dropWrite _ => .dropWrite

/-- A call of a header that has not taken effect, and has seen the map as it was at several moments. -/
structure State.Underway [Fintype T] (s : State T E) (t : T) (frame : Frame E) (seen : Set (Map T E)) : Prop where
  known : ∀ id, frame.id = some id → id ∈ s.issued
  standing : ∀ attempt id method, frame.attempt = some (attempt, id, method) →
    ((s.header id.slotAddress).control t).Standing attempt id.ordinal method.timeout false
      (¬s.Present id) (∃ m ∈ seen, m.Busy frame.origin)
  taken : ∀ id element, frame = .removeLocked id element → s.value id.slotAddress = some element
  full : ((s.header frame.address).control t).Full → ∃ m ∈ seen, m.Panics frame.origin

/-- Where thread `t` is with respect to the map. -/
def Control.Stands [Fintype T] [DecidableEq T] (s : State T E) (t : T)
    (phase : Phase (Map T E) (Call E) (Return E)) : Control E → Prop
  | .idle => phase = .idle
  | .pop element | .place element _ => ∃ seen, phase = .pending (.insert element) seen
  | .bucket frame => ∃ seen, phase = .pending frame.origin seen
  | .header frame =>
    if ((s.header frame.address).control t).done then phase = .done (s.outcome frame)
    else ∃ seen, phase = .pending frame.origin seen ∧ s.Underway t frame seen
  | .moveOut id _ _ => phase = .done (.remove (.ok (s.value id.slotAddress)))
  | .moveOutLocked id => ∃ seen, phase = .pending (.removeLocked id) seen
  | .push _ result | .returned result => phase = .done result
  | .faulted _ => phase = .failed

/-- The store stands for the map, and every thread is where it should be. -/
structure State.Matches [Fintype T] [DecidableEq T] (s : State T E)
    (a : Shared (Map T E) T (Call E) (Return E)) : Prop where
  object : a.object = s.map
  phase : ∀ t, (s.control t).Stands s t (a.phase t)

end ReadWriteStore.Store

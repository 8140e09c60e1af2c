import Mathlib.Algebra.Order.Group.Multiset
import ReadWriteStore.Store.Iteration
import ReadWriteStore.Store.Linearization

/-!
# What becomes of the elements

Every element that callers give to a store is in one place at a time: on its way in, in the map, on its way
out, back with a caller, or destroyed.
-/

namespace ReadWriteStore.Store

open Transition (tally)
open Transition.Object (Phase)

variable {T E : Type}

/-- The element that a call owns until it takes effect. -/
def Call.owned : Call E → Option E
  | .insert element => some element
  | _ => none

/-- The element that a call puts into the map. -/
def Call.brings : Call E → Return E → Option E
  | .insert element, _ | .replace _ element, _ | .replaceMut _ element, .replaceMut (some _) => some element
  | _, _ => none

def Map.elementAt (m : Map T E) (id : Id) : Multiset E := ((m.entry id).map Entry.value).toList

noncomputable def Map.elements (m : Map T E) : Multiset E := finsum m.elementAt

/-- What a thread has on its way into the map or out of it. -/
def State.carries [DecidableEq T] (s : State T E) (t : T) : Multiset E :=
  match s.control t with
  | .pop element | .place element _ => {element}
  | .bucket frame => frame.origin.owned.toList
  | .header frame =>
    if ((s.header frame.address).control t).done then (s.outcome frame).element.toList
    else frame.origin.owned.toList
  | .moveOut id _ _ => (s.value id.slotAddress).toList
  | .push _ result | .returned result => result.element.toList
  | .idle | .moveOutLocked _ | .faulted _ => 0

/-- The same for a thread that is using the map. -/
def carried {σ : Type*} : Phase σ (Call E) (Return E) → Multiset E
  | .pending call _ => call.owned.toList
  | .done result => result.element.toList
  | .idle | .failed => 0

/-- A step of thread `t`: the elements that callers bring, those that go back to them, and those that are lost
in a panic. -/
structure State.Flow [DecidableEq T] (s s' : State T E) (t : T) (brought back lost : Multiset E) : Prop where
  given : (s'.given : Multiset E) = brought + s.given
  handedBack : (s'.handedBack : Multiset E) = back + s.handedBack
  unwound : (s'.unwound : Multiset E) = lost + s.unwound
  balance : s'.carries t + s'.map.elements + back + lost = s.carries t + s.map.elements + brought

/-- No element has been lost, and none is in two places. -/
def State.Balanced [Fintype T] [DecidableEq T] (s : State T E) : Prop :=
  (s.given : Multiset E) = s.handedBack + s.unwound + tally s.carries + s.map.elements

/-- The end of a store, by a drop or, on a stack for so many calls of `next`, by `into_iter` and a drop of the
iterator after some steps: it goes well, and every element that was given to the store is among those that
have left it, or handed out by the iterator, or destroyed, once. -/
structure State.Settles [DecidableEq T] (build : Build) (payloadOffset stack : ℕ) (s : State T E) (gone : List E) :
    Prop where
  dropStore : ∃ destroyed, s.dropStore build payloadOffset = .ok destroyed ∧ s.given.Perm (gone ++ destroyed)
  intoIter : ∀ steps, ∃ items destroyed, s.intoIter build payloadOffset stack steps = .ok (items, destroyed) ∧
    s.given.Perm (gone ++ items.map Prod.snd ++ destroyed)

/-- The next step of thread `t` is the end of an `insert` that has panicked. -/
def State.unwinds (s : State T E) (t : T) : Bool :=
  match s.control t with
  | .bucket (.insert bucket _) =>
    match (s.bucket bucket).control t with
    | .faulted _ => true
    | _ => false
  | _ => false

def State.Unwinds (s : State T E) (t : T) : Prop := s.unwinds t = true

instance (s : State T E) (t : T) : Decidable (s.Unwinds t) := inferInstanceAs (Decidable (_ = true))

end ReadWriteStore.Store

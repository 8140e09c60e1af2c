import ReadWriteStore.Store.Map

/-!
# What a thread alone may expect

The reference for a thread that has a store to itself: a map from IDs to elements with their locks, and for
every call the one result it has there. An `insert` may choose any ID that has not been in the map, and an
iteration any order.
-/

namespace ReadWriteStore.Store

open Transition (Object)

variable {E : Type}

namespace Map

/-- What a call returns, and the map it leaves. -/
def Expects (m : Map (Fin 1) E) : Call E → Return E → Map (Fin 1) E → Prop
  | .insert element, result, m' => ∃ id, ¬m.used id ∧ result = .insert id ∧ m' = m.insert id element
  | .read id _, result, m' =>
    match m.entry id with
    | none => result = .read (.ok none) ∧ m' = m
    | some entry =>
      if entry.locks 0 .write = 0 then
        result = .read (.ok (some id)) ∧ m' = m.set id (some (entry.lock 0 .read))
      else result = .read (.error .timedOut) ∧ m' = m
  | .write id _, result, m' =>
    match m.entry id with
    | none => result = .write (.ok none) ∧ m' = m
    | some entry =>
      if entry.locks 0 .read = 0 ∧ entry.locks 0 .write = 0 then
        result = .write (.ok (some id)) ∧ m' = m.set id (some (entry.lock 0 .write))
      else result = .write (.error .timedOut) ∧ m' = m
  | .remove id _, result, m' =>
    match m.entry id with
    | none => result = .remove (.ok none) ∧ m' = m
    | some entry =>
      if entry.locks 0 .read = 0 ∧ entry.locks 0 .write = 0 then
        result = .remove (.ok (some entry.value)) ∧ m' = m.set id none
      else result = .remove (.error .timedOut) ∧ m' = m
  | .removeLocked id, result, m' => ∃ entry, m.entry id = some entry ∧ 0 < entry.locks 0 .write ∧
    result = .removeLocked entry.value ∧ m' = m.set id none
  | .dropRead id, result, m' => ∃ entry, m.entry id = some entry ∧ 0 < entry.locks 0 .read ∧
    result = .dropRead ∧ m' = m.set id (some (entry.unlock 0 .read))
  | .dropWrite id, result, m' => ∃ entry, m.entry id = some entry ∧ 0 < entry.locks 0 .write ∧
    result = .dropWrite ∧ m' = m.set id (some (entry.unlock 0 .write))
  | .deref kind id, result, m' => ∃ entry, m.entry id = some entry ∧ 0 < entry.locks 0 kind ∧
    result = .deref entry.value ∧ m' = m
  | .replace id element, result, m' => ∃ entry, m.entry id = some entry ∧ 0 < entry.locks 0 .write ∧
    result = .replace entry.value ∧ m' = m.set id (some { entry with value := element })
  | .capacity, result, m' => (∃ touched allocated, result = .capacity touched allocated) ∧ m' = m
  | .getMut id, result, m' => result = .getMut ((m.entry id).map Entry.value) ∧ m' = m
  | .replaceMut id element, result, m' =>
    match m.entry id with
    | none => result = .replaceMut none ∧ m' = m
    | some entry => result = .replaceMut (some entry.value) ∧ m' = m.set id (some { entry with value := element })
  | .iterMut _ steps, result, m' => ∃ items, m.Enumerates steps items ∧ result = .iterMut items ∧ m' = m

/-- The calls that may panic: an `insert` into a store with a full bucket, and those of other methods that may
panic anyway. -/
def PanicsAlone (full : Prop) (m : Map (Fin 1) E) : Call E → Prop
  | .insert _ => full
  | call => m.Panics call

/-- The histories of whole calls in which every result is the expected one, and the maps they lead to. Calls
that may panic leave the map alone if they do. -/
inductive Follows (panics : Map (Fin 1) E → Call E → Prop) :
    List (Object.Action (Fin 1) (Call E) (Return E)) → Map (Fin 1) E → Prop
  | init : Follows panics [] .init
  | answer {actions : List (Object.Action (Fin 1) (Call E) (Return E))} {m m' : Map (Fin 1) E} {call : Call E}
      {result : Return E} (h : Follows panics actions m) (hexpects : m.Expects call result m') :
      Follows panics (actions ++ [.call 0 call, .ret 0 (some result)]) m'
  | panic {actions : List (Object.Action (Fin 1) (Call E) (Return E))} {m : Map (Fin 1) E} {call : Call E}
      (h : Follows panics actions m) (hpanics : panics m call) :
      Follows panics (actions ++ [.call 0 call, .ret 0 none]) m

end Map

/-- A bucket has its largest block. -/
def State.Full (s : State (Fin 1) E) : Prop :=
  ∃ bucket, 32 ≤ (s.bucket bucket).inner.blocks.length

instance (s : State (Fin 1) E) : Decidable s.Full := inferInstanceAs (Decidable (∃ _, _))

end ReadWriteStore.Store

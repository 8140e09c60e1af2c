import ReadWriteStore.Header.Machine
import Mathlib.Data.Finset.Lattice.Basic

/-!
# What the word of a header publishes

The machine of a header with the writes that threads make to its element under a write lock. The word
is a message cell: next to its value it carries the writes published along its release sequence. The
orderings are those that the code passes to its atomic operations. A thread that is woken up may learn
what the thread that woke it had seen.
-/

namespace ReadWriteStore.Header.Publication

/-- A write to the element, by a thread that holds its write lock. -/
structure Write (T : Type) where
  author : T
  /-- The ID of the lock. -/
  id : UInt32
  deriving DecidableEq, Repr

structure State (T : Type) where
  header : Header.State T
  /-- Every write to the element so far; sets of writes are sets of positions in this list. -/
  writes : List (Write T)
  /-- The writes published with the current value of the word. -/
  published : Finset ℕ
  /-- The writes each thread has learnt of. -/
  seen : T → Finset ℕ
  /-- What the thread that woke it last had seen. -/
  offered : T → Finset ℕ
  /-- How many writes there were when the thread last released a lock. -/
  released : T → ℕ
  /-- The same for the thread that woke it last. -/
  offeredAt : T → ℕ
  /-- The same for the latest of the threads that handed over to it. -/
  wokenAt : T → ℕ

inductive Event (T : Type)
  /-- A step of the header; a wakeup hands over what the waker has seen if `handOver`. -/
  | header (event : Header.Event T) (handOver : Bool)
  /-- A thread writes to the element under its write lock. -/
  | write (thread : T) (id : UInt32)
  deriving DecidableEq, Repr

def Event.thread {T : Type} : Event T → T
  | .header event _ => event.thread
  | .write t _ => t

namespace State

variable {T : Type} [DecidableEq T]

def init : State T where
  header := .init
  writes := []
  published := ∅
  seen _ := ∅
  offered _ := ∅
  released _ := 0
  offeredAt _ := 0
  wokenAt _ := 0

/-- Thread `t` performs `op` on the word, with the given reply: it learns what the word carries if the
ordering acquires, then adds what it has seen to the word if it writes and the ordering releases. -/
def access (s : State T) (t : T) (op : AtomicOp) (reply : Reply) : State T :=
  let seen := if (op.ordering reply).acquires then s.seen t ∪ s.published else s.seen t
  let published :=
    if op.writes reply && (op.ordering reply).releases then s.published ∪ seen else s.published
  { s with seen := Function.update s.seen t seen, published := published }

/-- A step that gives up a lock notes how many writes there were. -/
def noteRelease (s : State T) (t : T) : Effect → State T
  | .release _ => { s with released := Function.update s.released t s.writes.length }
  | _ => s

/-- Thread `t` wakes the queue. -/
def offer (s : State T) (t : T) : State T :=
  { s with
    offered := fun u => if u ∈ s.header.queue then s.seen t else s.offered u
    offeredAt := fun u => if u ∈ s.header.queue then s.released t else s.offeredAt u }

/-- Thread `t`, woken up, learns what its waker had seen. -/
def hear (s : State T) (t : T) : State T :=
  { s with
    seen := Function.update s.seen t (s.seen t ∪ s.offered t)
    wokenAt := Function.update s.wokenAt t (max (s.wokenAt t) (s.offeredAt t)) }

/-- What a step of the header does to the sets, before it changes the header. -/
def memory (s : State T) (handOver : Bool) : Header.Event T → State T
  | .act t spurious =>
    match s.header.control t with
    | .running point =>
      match point.op with
      | some op =>
        let reply := (op.exec spurious s.header.word).2
        (s.access t op reply).noteRelease t (point.effect reply)
      | none =>
        match point with
        | .unpark _ => s.offer t
        | .parked _ _ _ => if handOver then s.hear t else s
        | _ => s
    | _ => s
  | _ => s

/-- Thread `t` writes to the element. -/
def write (s : State T) (t : T) (id : UInt32) : State T :=
  { s with
    writes := s.writes ++ [⟨t, id⟩]
    seen := Function.update s.seen t (insert s.writes.length (s.seen t)) }

end State

variable {T : Type} [DecidableEq T]

def step (build : Build) (s : State T) : Event T → Option (State T)
  | .header e handOver =>
    (Header.step build s.header e).map fun header => { s.memory handOver e with header := header }
  | .write t id =>
    if s.header.control t = .idle ∧ ⟨.write, id⟩ ∈ s.header.locks t then some (s.write t id) else none

/-- The header is used as its protocol demands. -/
def Allowed (s : State T) : Event T → Prop
  | .header e _ => Header.Allowed s.header e
  | .write _ _ => True

instance (s : State T) : (e : Event T) → Decidable (Allowed s e)
  | .header e _ => inferInstanceAs (Decidable (Header.Allowed s.header e))
  | .write _ _ => inferInstanceAs (Decidable True)

def machine (build : Build) (T : Type) [DecidableEq T] : Transition.System (State T) (Event T) :=
  .ofFn (· = State.init) (step build) Allowed

/-! ## Successful calls -/

/-- The ID of the lock or removal that succeeds with this reply. -/
def success (reply : Reply) : Point → Option UInt32
  | .lockReadExchange id _ _ _ => match reply with | .ok _ => some id | _ => none
  | .transitionExchange _ _ _ caller | .closure (.transition _ _ caller) _ =>
    match reply with | .ok _ => some caller.id | _ => none
  | _ => none

/-- The ID with which the thread of an event succeeds in `lock_read`, `lock_write` or `remove`. -/
def State.succeeds (s : State T) : Event T → Option UInt32
  | .header (.act t spurious) _ =>
    match s.header.control t with
    | .running point => point.op.bind fun op => success (op.exec spurious s.header.word).2 point
    | _ => none
  | _ => none

/-- Thread `t` has learnt of every write made under `id`. -/
def State.Learnt (s : State T) (t : T) (id : UInt32) : Prop :=
  ∀ k w, s.writes[k]? = some w → w.id = id → k ∈ s.seen t

/-- Thread `t` made every write under `id` itself, but for those made before the thread that woke it
and handed over to it gave up its lock. -/
def State.Covered (s : State T) (t : T) (id : UInt32) : Prop :=
  ∀ k w, s.writes[k]? = some w → w.id = id → w.author = t ∨ k < s.wokenAt t

instance (s : State T) (t : T) (id : UInt32) : Decidable (s.Covered t id) :=
  decidable_of_iff
    (∀ k : Fin s.writes.length, s.writes[k].id = id → s.writes[k].author = t ∨ k.val < s.wokenAt t) <| by
    constructor
    · intro h k w hk hw
      obtain ⟨hlt, rfl⟩ := List.getElem?_eq_some_iff.1 hk
      exact h ⟨k, hlt⟩ hw
    · intro h k hw
      exact h k.val _ (List.getElem?_eq_getElem k.isLt) hw

/-- A thread succeeds only where it has nothing to learn from the word. -/
def Meets (s : State T) (e : Event T) : Prop :=
  ∀ id, s.succeeds e = some id → s.Covered e.thread id

instance (s : State T) (e : Event T) : Decidable (Meets s e) :=
  decidable_of_iff ((s.succeeds e).all fun id => decide (s.Covered e.thread id)) <| by
    unfold Meets
    cases s.succeeds e with
    | none => simp
    | some id => simp

end ReadWriteStore.Header.Publication

import Mathlib.Data.UInt

/-!
# Checked arithmetic and debug assertions

What `debug_assert!`, the unsigned operators and the helpers of `util/debug_check.rs` do in the two
builds of the crate: the debug build stops at a failed check, the release build goes on.
-/

namespace ReadWriteStore

/-- The two builds: with and without `debug_assertions` and overflow checks. -/
inductive Build
  | debug
  | release
  deriving DecidableEq, Repr

/-- How a call goes wrong. -/
inductive Fault
  /-- The debug build panics: a `debug_assert!` or a debug checked accessor failed. -/
  | assertion (message : String)
  /-- The debug build panics: an operator overflowed. -/
  | overflow (message : String)
  /-- Both builds panic. -/
  | explicit (message : String)
  /-- The release build skips a check of the debug build and breaks an unsafe contract. -/
  | undefined (message : String)
  /-- The call never returns. The machines let the thread go on all the same, as after a panic: they
  show more than can happen. -/
  | hang
  /-- The stack of the thread overflows, and the process aborts. -/
  | stackOverflow
  deriving DecidableEq, Repr

/-- The call panics, and unwinds. -/
def Fault.isPanic : Fault → Bool
  | .assertion _ | .overflow _ | .explicit _ => true
  | .undefined _ | .hang | .stackOverflow => false

/-- A debug-only check has failed, or the release build has broken the contract behind one. -/
def Fault.isBreach : Fault → Bool
  | .assertion _ | .undefined _ => true
  | .overflow _ | .explicit _ | .hang | .stackOverflow => false

/-- Code that may go wrong. -/
abbrev Checked (α : Type) := Except Fault α

/-- There is no process any more. -/
def Checked.aborts {α : Type} : Checked α → Bool
  | .error .stackOverflow => true
  | _ => false

/-- `debug_assert!(condition, message)`. -/
def debugAssert (build : Build) (condition : Bool) (message : String) : Checked Unit :=
  if build = .debug ∧ condition = false then .error (.assertion message) else .ok ()

@[simp] theorem debugAssert_true (build : Build) (message : String) :
    debugAssert build true message = .ok () := by
  simp [debugAssert]

/-- `DebugCheckedMaybeUninit::assume_init` and `Option::unwrap_debug_checked`. -/
def assumeInit {α : Type} (build : Build) : Option α → Checked α
  | some value => .ok value
  | none =>
    match build with
    | .debug => .error (.assertion "called `Option::unwrap()` on a `None` value")
    | .release => .error (.undefined "assumed to be initialised")

/-- An arm that is `unreachable!()` in the debug build and `unreachable_unchecked()` in the release
build. -/
def unreachableChecked {α : Type} (build : Build) : Checked α :=
  match build with
  | .debug => .error (.assertion "internal error: entered unreachable code")
  | .release => .error (.undefined "entered unreachable code")

/-- The check that `get_debug_checked` and `get_debug_checked_mut` make of an index into a slice. -/
def checkIndex (build : Build) (len index : UInt32) : Checked Unit :=
  if index < len then .ok ()
  else
    match build with
    | .debug => .error (.assertion "index out of bounds")
    | .release => .error (.undefined "index out of bounds")

/-- `a + b` on `u32`. -/
def addU32 (build : Build) (a b : UInt32) : Checked UInt32 :=
  if build = .debug ∧ 2 ^ 32 ≤ a.toNat + b.toNat then
    .error (.overflow "attempt to add with overflow")
  else .ok (a + b)

/-- `a - b` on `u32`. -/
def subU32 (build : Build) (a b : UInt32) : Checked UInt32 :=
  if build = .debug ∧ a.toNat < b.toNat then
    .error (.overflow "attempt to subtract with overflow")
  else .ok (a - b)

/-- `a * b` on `u32`. -/
def mulU32 (build : Build) (a b : UInt32) : Checked UInt32 :=
  if build = .debug ∧ 2 ^ 32 ≤ a.toNat * b.toNat then
    .error (.overflow "attempt to multiply with overflow")
  else .ok (a * b)

/-- The two halves of a computation that went well. -/
theorem Checked.bind_eq_ok {α β : Type} {x : Checked α} {f : α → Checked β} {b : β}
    (h : x >>= f = .ok b) : ∃ a, x = .ok a ∧ f a = .ok b := by
  cases x with
  | error fault => cases h
  | ok a => exact ⟨a, rfl, h⟩

/-- Where a computation went wrong. -/
theorem Checked.bind_eq_error {α β : Type} {x : Checked α} {f : α → Checked β} {fault : Fault}
    (h : x >>= f = .error fault) : x = .error fault ∨ ∃ a, x = .ok a ∧ f a = .error fault := by
  cases x with
  | error fault' => cases h; exact Or.inl rfl
  | ok a => exact Or.inr ⟨a, rfl, h⟩

theorem debugAssert_error {build : Build} {condition : Bool} {message : String} {fault : Fault}
    (h : debugAssert build condition message = .error fault) : fault = .assertion message := by
  unfold debugAssert at h
  split at h
  · cases h; rfl
  · cases h

theorem checkIndex_ok (build : Build) {len index : UInt32} (h : index < len) :
    checkIndex build len index = .ok () := by
  simp only [checkIndex, if_pos h]

theorem addU32_ok (build : Build) {a b : UInt32} (h : a.toNat + b.toNat < 2 ^ 32) :
    addU32 build a b = .ok (a + b) := by
  rw [addU32, if_neg (by omega)]

theorem addU32_eq {build : Build} {a b c : UInt32} (h : addU32 build a b = .ok c) : c = a + b := by
  unfold addU32 at h
  split at h
  · cases h
  · cases h; rfl

theorem subU32_ok (build : Build) {a b : UInt32} (h : b.toNat ≤ a.toNat) :
    subU32 build a b = .ok (a - b) := by
  rw [subU32, if_neg (by omega)]

theorem mulU32_ok (build : Build) {a b : UInt32} (h : a.toNat * b.toNat < 2 ^ 32) :
    mulU32 build a b = .ok (a * b) := by
  rw [mulU32, if_neg (by omega)]

end ReadWriteStore

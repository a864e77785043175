import Mathlib.Data.List.Defs

/-! # Results of a Rust computation

A fallible function returns `Ok` or `Err`, and any function may panic. Integer types are
modelled by `ℕ`; operations that can leave the `u32` range go through `u32Sub` and `u32Add`. -/

namespace StrideRunner

/-- `std::io::ErrorKind`, as far as the runner inspects or raises it. -/
inductive ErrorKind where
  | notFound
  | invalidData
  | invalidInput
  | unexpectedEof
  deriving DecidableEq, Repr

/-- `std::io::Error` with its kind and its text. -/
structure IoError where
  kind : ErrorKind
  message : String
  deriving DecidableEq, Repr

/-- How a call ends: with `Ok`, with `Err`, or by unwinding. -/
inductive Outcome (ε α : Type) where
  | ok (value : α)
  | err (error : ε)
  | panic (message : String)
  deriving DecidableEq, Repr

namespace Outcome

variable {ε α β : Type}

/-- The `?` operator: errors and panics leave the enclosing function. -/
def bind : Outcome ε α → (α → Outcome ε β) → Outcome ε β
  | .ok value, next => next value
  | .err error, _ => .err error
  | .panic message, _ => .panic message

instance : Monad (Outcome ε) where
  pure := .ok
  bind := bind

def ofExcept : Except ε α → Outcome ε α
  | .ok value => .ok value
  | .error error => .err error

/-- `map_err` and `with_context`. -/
def mapErr {ε' : Type} (f : ε → ε') : Outcome ε α → Outcome ε' α
  | .ok value => .ok value
  | .err error => .err (f error)
  | .panic message => .panic message

@[simp] theorem pure_eq (value : α) : (pure value : Outcome ε α) = .ok value := rfl

@[simp] theorem ok_bind (value : α) (next : α → Outcome ε β) :
    (Outcome.ok value >>= next) = next value := rfl

@[simp] theorem err_bind (error : ε) (next : α → Outcome ε β) :
    ((Outcome.err error : Outcome ε α) >>= next) = .err error := rfl

@[simp] theorem panic_bind (message : String) (next : α → Outcome ε β) :
    ((Outcome.panic message : Outcome ε α) >>= next) = .panic message := rfl

/-- A sequence succeeds when both of its parts do. -/
theorem bind_eq_ok {x : Outcome ε α} {next : α → Outcome ε β} {result : β} :
    (x >>= next) = .ok result ↔ ∃ value, x = .ok value ∧ next value = .ok result := by
  cases x with
  | ok value => simp
  | err error => simp
  | panic message => simp

/-- A sequence panics only in one of its parts. -/
theorem bind_ne_panic {x : Outcome ε α} {next : α → Outcome ε β}
    (hx : ∀ message, x ≠ .panic message)
    (hnext : ∀ value, x = .ok value → ∀ message, next value ≠ .panic message) (message : String) :
    (x >>= next) ≠ .panic message := by
  cases x with
  | ok value => exact hnext value rfl message
  | err error => simp
  | panic text => exact (hx text rfl).elim

theorem mapErr_eq_ok {ε' : Type} {f : ε → ε'} {x : Outcome ε α} {value : α} :
    x.mapErr f = .ok value ↔ x = .ok value := by
  cases x <;> simp [mapErr]

@[simp] theorem ofExcept_ok (value : α) : (ofExcept (.ok value) : Outcome ε α) = .ok value := rfl

@[simp] theorem ofExcept_error (error : ε) :
    (ofExcept (.error error) : Outcome ε α) = .err error := rfl

end Outcome

/-- Cargo's profiles differ in `debug_assertions` and in overflow checks. -/
inductive BuildProfile where
  | debug
  | release
  deriving DecidableEq, Repr

/-- The number of `u32` values. -/
abbrev U32_SIZE : ℕ := 4294967296

/-- The number of `u64` values. -/
abbrev U64_SIZE : ℕ := 18446744073709551616

/-- `a - b` on `u32`: overflow panics under `debug` and wraps under `release`. -/
def u32Sub {ε : Type} (profile : BuildProfile) (a b : ℕ) : Outcome ε ℕ :=
  if b ≤ a then .ok (a - b)
  else match profile with
    | .debug => .panic "attempt to subtract with overflow"
    | .release => .ok (a + U32_SIZE - b)

/-- `a + b` on `u32`: overflow panics under `debug` and wraps under `release`. -/
def u32Add {ε : Type} (profile : BuildProfile) (a b : ℕ) : Outcome ε ℕ :=
  if a + b < U32_SIZE then .ok (a + b)
  else match profile with
    | .debug => .panic "attempt to add with overflow"
    | .release => .ok ((a + b) % U32_SIZE)

theorem u32Sub_of_le {ε : Type} (profile : BuildProfile) {a b : ℕ} (h : b ≤ a) :
    (u32Sub profile a b : Outcome ε ℕ) = .ok (a - b) := by
  simp [u32Sub, h]

theorem u32Add_of_lt {ε : Type} (profile : BuildProfile) {a b : ℕ} (h : a + b < U32_SIZE) :
    (u32Add profile a b : Outcome ε ℕ) = .ok (a + b) := by
  simp only [u32Add, h, if_true]

end StrideRunner

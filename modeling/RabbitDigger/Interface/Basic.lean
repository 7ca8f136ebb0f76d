import Mathlib.Algebra.Group.Nat.Defs
import Mathlib.Data.List.Basic

/-!
# Errors and configuration values

The vocabulary shared by every module of the model: byte strings, counters, the two error
types of the interface crate (`std::io::Error` as far as the code inspects it,
and the crate's own `Error`), and JSON values (`serde_json::Value`).
-/

namespace RabbitDigger

/-- A byte buffer. -/
abbrev Bytes := List UInt8

/-- Addition of `u64`, for `+=` and `fetch_add`. -/
def addU64 (a b : ℕ) : ℕ := (a + b) % 2 ^ 64

theorem addU64_eq {a b : ℕ} (h : a + b < 2 ^ 64) : addU64 a b = a + b := Nat.mod_eq_of_lt h

/-- The kinds of `std::io::Error` the code creates or compares. -/
inductive ErrorKind where
  | addrNotAvailable
  | addrInUse
  | connectionAborted
  | connectionRefused
  | invalidData
  | invalidInput
  | unexpectedEof
  | writeZero
  | other
deriving Repr, DecidableEq

/-- `std::io::Error`: its kind and the text it carries. -/
structure IoError where
  kind : ErrorKind
  message : String := ""
deriving Repr, DecidableEq

/-- `std::io::Result`. -/
abbrev IoResult (α : Type) := Except IoError α

/-- The errors of a `Context`. -/
inductive ContextError where
  | serde (message : String)
  | nonExist
  | badFormat
deriving Repr, DecidableEq

/-- `rd_interface::Error`. -/
inductive Error where
  | io (error : IoError)
  | notMatched
  | notEnabled
  | notImplemented
  | config (message : String)
  | abortedByUser
  | context (error : ContextError)
  | notFound (what : String)
  | other (message : String)
  | withContext (context : String) (error : Error)
  | timeout
deriving Repr, DecidableEq

/-- `Display for Error`; what the source prints with `{:?}` is printed by `Repr`. -/
def Error.display : Error → String
  | .io e => "IO error: " ++ reprStr e
  | .notMatched => "Not matched"
  | .notEnabled => "Not enabled in config"
  | .notImplemented => "Not implemented"
  | .config message => "Config error: " ++ message
  | .abortedByUser => "Aborted by user"
  | .context e => "Context error: " ++ reprStr e
  | .notFound what => "Not found: " ++ what
  | .other message => reprStr message
  | .withContext text e => text ++ "\nCaused by:\n" ++ e.display
  | .timeout => "Operation timeout: Elapsed(())"

/-- `From<Error> for io::Error`. -/
def Error.toIoError : Error → IoError
  | .io e => e
  | e => { kind := .other, message := e.display }

/-- `serde_json::Value`.  Floating point numbers are kept as their bits: the
code only moves them around. -/
inductive Value where
  | null
  | bool (b : Bool)
  | int (n : Int)
  | float (bits : UInt64)
  | string (s : String)
  | array (items : List Value)
  | object (fields : List (String × Value))
deriving Repr, BEq

instance : Inhabited Value := ⟨.null⟩

/-- `Value::as_str`. -/
def Value.asStr : Value → Option String
  | .string s => some s
  | _ => none

/-- A call with `?` has succeeded, and so has what comes after it. -/
theorem bind_ok {ε α β : Type} {x : Except ε α} {f : α → Except ε β} {b : β} :
    (x >>= f) = .ok b ↔ ∃ a, x = .ok a ∧ f a = .ok b := by
  cases x with
  | error e =>
      constructor
      · intro h
        cases h
      · rintro ⟨a, ha, _⟩
        cases ha
  | ok a =>
      constructor
      · intro h
        exact ⟨a, rfl, h⟩
      · rintro ⟨a', ha, h⟩
        cases ha
        exact h

end RabbitDigger

import Mathlib.Algebra.Order.Ring.Nat
import Mathlib.Data.List.Basic

/-!
# What the wire layer rests on

The failure type of the wire layer, and the pieces of Rust's standard library that it uses: the
bounds of the machine integers, `str::parse` for integers, `split_once` and `splitn`. Rust text
is `String`; functions that walk over it work on its list of characters.
-/

namespace Lightstreamer.Protocol

/-! ## Machine integers -/

/-- The largest `u32`. -/
abbrev u32Max : ℕ := 2 ^ 32 - 1

/-- The largest `u64`. -/
abbrev u64Max : ℕ := 2 ^ 64 - 1

/-- The largest `usize`, on the 64-bit targets. -/
abbrev usizeMax : ℕ := 2 ^ 64 - 1

/-- The largest `isize`, which no string of Rust is longer than. -/
abbrev isizeMax : ℕ := 2 ^ 63 - 1

/-- A `NonZeroU32`. -/
structure NonZeroU32 where
  val : ℕ
  pos : 0 < val
  le : val ≤ u32Max
  deriving DecidableEq

/-- `NonZeroU32::new` on a value that fits `u32`. -/
def NonZeroU32.new? (n : ℕ) : Option NonZeroU32 :=
  if h : 0 < n ∧ n ≤ u32Max then some ⟨n, h.1, h.2⟩ else none

/-- `checked_add` at a width whose largest value is `max`. -/
def checkedAdd (max a b : ℕ) : Option ℕ := if a + b ≤ max then some (a + b) else none

/-- `checked_mul` at a width whose largest value is `max`. -/
def checkedMul (max a b : ℕ) : Option ℕ := if a * b ≤ max then some (a * b) else none

/-- `saturating_add` at a width whose largest value is `max`. -/
def saturatingAdd (max a b : ℕ) : ℕ := min (a + b) max

/-- The value of a non-empty run of decimal digits. -/
def parseDigits : List Char → Option ℕ
  | [] => none
  | c :: cs => (c :: cs).foldl
      (fun acc c => acc.bind fun n => if c.isDigit then some (n * 10 + (c.toNat - 48)) else none)
      (some 0)

/-- A number spelled in decimal digits, any number of zeros in front. -/
def Numeral (text : List Char) (n : ℕ) : Prop :=
  text ≠ [] ∧ (∀ c ∈ text, c.isDigit) ∧ Nat.ofDigitChars 10 text 0 = n

theorem foldl_digits_eq_some_iff {text : List Char} {acc n : ℕ} :
    text.foldl (fun acc c => acc.bind fun n => if c.isDigit then some (n * 10 + (c.toNat - 48))
        else none) (some acc) = some n ↔
      (∀ c ∈ text, c.isDigit) ∧ Nat.ofDigitChars 10 text acc = n := by
  induction text generalizing acc with
  | nil => simp
  | cons c text ih =>
    rw [List.foldl_cons, Option.bind_some]
    by_cases hc : c.isDigit = true
    · rw [if_pos hc, ih, Nat.ofDigitChars_cons, Nat.mul_comm, List.forall_mem_cons]
      exact ⟨fun h => ⟨⟨hc, h.1⟩, h.2⟩, fun h => ⟨h.1.2, h.2⟩⟩
    · have hnone : text.foldl (fun acc c => acc.bind fun n =>
          if c.isDigit then some (n * 10 + (c.toNat - 48)) else none) (none : Option ℕ) = none := by
        clear ih
        induction text with
        | nil => rfl
        | cons d text ih => exact ih
      rw [if_neg hc, hnone]
      exact iff_of_false (by simp) fun h => hc (h.1 c List.mem_cons_self)

theorem parseDigits_eq_some_iff {text : List Char} {n : ℕ} :
    parseDigits text = some n ↔ Numeral text n := by
  cases text with
  | nil => exact iff_of_false (by simp [parseDigits]) fun h => h.1 rfl
  | cons c text =>
    rw [parseDigits, foldl_digits_eq_some_iff]
    exact (and_iff_right (List.cons_ne_nil c text)).symm

/-- `str::parse` at an unsigned width: an optional plus sign, then digits, in range. -/
def parseUnsigned (max : ℕ) (s : List Char) : Option ℕ :=
  let digits := match s with
    | '+' :: rest => rest
    | s => s
  (parseDigits digits).filter (· ≤ max)

/-- `str::parse` at `i64`: an optional sign, then digits, in range. -/
def parseI64 (s : List Char) : Option ℤ :=
  match s with
  | '-' :: rest => (parseDigits rest).bind fun n => if n ≤ 2 ^ 63 then some (-(n : ℤ)) else none
  | '+' :: rest => (parseDigits rest).bind fun n => if n < 2 ^ 63 then some (n : ℤ) else none
  | s => (parseDigits s).bind fun n => if n < 2 ^ 63 then some (n : ℤ) else none

/-! ## Steps that may fail -/

theorem bind_eq_ok {ε : Type*} {α β : Type _} {x : Except ε α} {f : α → Except ε β} {b : β} :
    x >>= f = .ok b ↔ ∃ a, x = .ok a ∧ f a = .ok b := by
  cases x with
  | error e => exact ⟨nofun, nofun⟩
  | ok a => exact ⟨fun h => ⟨a, rfl, h⟩, fun ⟨_, h, h'⟩ => Except.ok.inj h ▸ h'⟩

theorem map_eq_ok {ε : Type*} {α β : Type _} {x : Except ε α} {f : α → β} {b : β} :
    f <$> x = .ok b ↔ ∃ a, x = .ok a ∧ f a = b := by
  cases x with
  | error e => exact ⟨nofun, nofun⟩
  | ok a => exact ⟨fun h => ⟨a, rfl, Except.ok.inj h⟩, fun ⟨_, h, h'⟩ => by cases h; rw [← h']; rfl⟩

/-! ## Cutting text -/

/-- `str::split_once`: the text before and after the first `c`. -/
def splitOnce (c : Char) : List Char → Option (List Char × List Char)
  | [] => none
  | x :: xs => if x = c then some ([], xs) else (splitOnce c xs).map fun p => (x :: p.1, p.2)

/-- The first `c` stands behind a text without one. -/
theorem splitOnce_append {c : Char} {before : List Char} (behind : List Char) (h : c ∉ before) :
    splitOnce c (before ++ c :: behind) = some (before, behind) := by
  induction before with
  | nil => rw [List.nil_append, splitOnce, if_pos rfl]
  | cons x xs ih =>
    rw [List.mem_cons, not_or] at h
    rw [List.cons_append, splitOnce, if_neg (Ne.symm h.1), ih h.2]
    rfl

theorem splitOnce_of_notMem {c : Char} {text : List Char} (h : c ∉ text) :
    splitOnce c text = none := by
  induction text with
  | nil => rfl
  | cons x xs ih =>
    rw [List.mem_cons, not_or] at h
    rw [splitOnce, if_neg (Ne.symm h.1), ih h.2]
    rfl

/-- `str::splitn`: at most `n` pieces, the last of which keeps every further `c`. -/
def splitN (c : Char) : ℕ → List Char → List (List Char)
  | 0, _ => []
  | 1, s => [s]
  | n + 2, s => match splitOnce c s with
    | none => [s]
    | some (piece, rest) => piece :: splitN c (n + 1) rest

/-! ## Failures -/

/-- A failure to encode a request: the request and which parameter was rejected, and why. -/
structure RequestError where
  request : String
  reason : String
  deriving DecidableEq

/-- The `Display` text of a request that could not be encoded. -/
def RequestError.display (e : RequestError) : String :=
  s!"cannot encode `{e.request}` request: {e.reason}"

/-- A failure to encode a request or to interpret a server line. -/
inductive ProtocolError
  /-- A line did not carry the number of arguments its tag requires. -/
  | argumentCount (tag : String) (expected found : ℕ)
  /-- An argument that must be numeric was not. -/
  | notNumeric (tag argument value : String)
  /-- A percent-escape was malformed; the position is a byte offset into the input. -/
  | escaping (position : ℕ) (reason : String)
  /-- The line's tag is not one this client recognizes. -/
  | unknownTag (tag line : String)
  /-- A request could not be encoded. -/
  | request (e : RequestError)
  /-- A field value could not be decoded against the current item state. -/
  | fieldValue (reason : String)
  deriving DecidableEq

/-- The error every field-value failure reports. -/
def fieldValueError (reason : String) : ProtocolError := .fieldValue reason

end Lightstreamer.Protocol

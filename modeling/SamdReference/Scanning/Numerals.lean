import Mathlib.Data.List.Basic

/-!
# Reading decimal numerals

Which characters are digits is a table of the character set. Some digits, such as
superscripts, have no decimal value. On the ten digits of ASCII every table agrees, so a
number that was printed in them is read back, unless it has more digits than a conversion
accepts.
-/

namespace Scanning

/-- A table of digits, and how many of them a conversion accepts if that is limited. -/
structure Numerals where
  isDigit : Char → Bool
  decimal : Char → Option Nat
  maxDigits : Option Nat
  isDigit_of_decimal : ∀ {c : Char} {value : Nat}, decimal c = some value → isDigit c = true
  ascii : ∀ {value : Nat}, value < 10 → decimal value.digitChar = some value

namespace Numerals

variable (N : Numerals)

/-- The text is not empty and all digits. -/
def allDigits (text : List Char) : Bool := !text.isEmpty && text.all N.isDigit

/-- The text has no more digits than a conversion accepts. -/
def accepts (text : List Char) : Bool := N.maxDigits.all (text.length ≤ ·)

/-- The value of a text of digits, if each has a decimal value. -/
def value? (text : List Char) : Option Nat :=
  text.foldlM (fun n c => (N.decimal c).map (10 * n + ·)) 0

/-- The number that a text of digits is converted to. -/
def number? (text : List Char) : Option Nat := if N.accepts text then N.value? text else none

/-- The digits of ASCII alone, and at most 4300 of them. -/
def plain : Numerals where
  isDigit c := c.isDigit
  decimal c := if c.isDigit then some (c.toNat - '0'.toNat) else none
  maxDigits := some 4300
  isDigit_of_decimal := by
    intro c value known
    by_contra other
    simp [other] at known
  ascii := by
    intro value small
    have digit : value.digitChar.isDigit = true := by
      rw [Nat.isDigit_digitChar]
      exact decide_eq_true small
    rw [if_pos digit, Nat.toNat_digitChar_of_lt_ten small]
    simp

theorem value?_concat (text : List Char) (c : Char) :
    N.value? (text ++ [c]) =
      (N.value? text).bind fun n => (N.decimal c).map (10 * n + ·) := by
  simp only [value?, List.foldlM_append, List.foldlM_cons, List.foldlM_nil, bind_pure,
    Option.bind_eq_bind]

/-- A number is printed by printing all but its last digit and then that digit. -/
theorem toDigits_induction {P : Nat → List Char → Prop}
    (digit : ∀ v, v < 10 → P v [v.digitChar])
    (concat : ∀ n v, v < 10 → P n (Nat.toDigits 10 n) →
      P (10 * n + v) (Nat.toDigits 10 n ++ [v.digitChar])) (n : Nat) :
    P n (Nat.toDigits 10 n) := by
  induction n using Nat.strongRecOn with
  | ind n ih =>
      rw [Nat.toDigits_eq_if (by decide)]
      split
      case isTrue small => exact digit n small
      case isFalse large =>
        have shorter : n / 10 < n := by omega
        have last : n % 10 < 10 := by omega
        have whole : 10 * (n / 10) + n % 10 = n := by omega
        have step := concat (n / 10) (n % 10) last (ih (n / 10) shorter)
        rwa [whole] at step

theorem value?_toDigits (n : Nat) : N.value? (Nat.toDigits 10 n) = some n := by
  apply toDigits_induction (P := fun n text => N.value? text = some n)
  · intro v small
    simp [value?, N.ascii small]
  · intro n v small read
    rw [value?_concat, read, N.ascii small]
    rfl

/-- A printed number is read back. -/
theorem number?_toDigits {n : Nat} (short : N.accepts (Nat.toDigits 10 n) = true) :
    N.number? (Nat.toDigits 10 n) = some n := by
  rw [number?, if_pos short, value?_toDigits]

theorem allDigits_toDigits (n : Nat) : N.allDigits (Nat.toDigits 10 n) = true := by
  apply toDigits_induction (P := fun _ text => N.allDigits text = true)
  · intro v small
    simp [allDigits, N.isDigit_of_decimal (N.ascii small)]
  · intro n v small digits
    have last := N.isDigit_of_decimal (N.ascii small)
    simp only [allDigits, Bool.and_eq_true] at digits
    simp [allDigits, digits.2, last]

end Numerals
end Scanning

import ConfigDaemon.Toml.Text
import ConfigDaemon.Text.Decimal

/-! # Numbers

Integers are decimal with an optional sign, or hexadecimal, octal or binary behind a zero and a
letter. Underscores may stand between digits. A float has a fraction or an exponent, or is one of
the names of infinity and of no number. Numbers beyond the range of their kind are refused.
-/

namespace ConfigDaemon.Toml

open Text

/-- The digits of a class without the underscores between them. -/
def digitGroups? (p : Char → Bool) (w : List Char) : Option (List Char) :=
  if (w.splitOn '_').all fun group => !group.isEmpty && group.all p then
    some (w.filter (· ≠ '_'))
  else none

/-- The sign in front of a number and what follows it. -/
def splitSign : List Char → Bool × List Char
  | '-' :: w => (true, w)
  | '+' :: w => (false, w)
  | w => (false, w)

def isOctalDigit (c : Char) : Bool :=
  '0' ≤ c && c ≤ '7'

def isBinaryDigit (c : Char) : Bool :=
  c == '0' || c == '1'

/-- A decimal number without a sign; only zero itself begins with a zero. -/
def decimalDigits? (w : List Char) : Option (List Char) :=
  match digitGroups? isDigit w with
  | none => none
  | some ds => if ds.head? = some '0' ∧ w ≠ ['0'] then none else some ds

/-- Integers are kept in two words of 64 bits, with a sign or without. -/
def isInRange (n : Int) : Bool :=
  -0x80000000000000000000000000000000 ≤ n && n < 0x100000000000000000000000000000000

def unbounded? : List Char → Option Int
  | '0' :: 'x' :: w => (digitGroups? isHexDigit w).map fun ds => (digitsIn 16 ds : Int)
  | '0' :: 'o' :: w => (digitGroups? isOctalDigit w).map fun ds => (digitsIn 8 ds : Int)
  | '0' :: 'b' :: w => (digitGroups? isBinaryDigit w).map fun ds => (digitsIn 2 ds : Int)
  | w =>
    let (negative, w) := splitSign w
    (decimalDigits? w).map fun ds =>
      if negative then -(digitsIn 10 ds : Int) else (digitsIn 10 ds : Int)

def integer? (w : List Char) : Option Int :=
  (unbounded? w).filter isInRange

/-- A decimal fraction `digits · 10 ^ exponent`. -/
structure Fraction where
  digits : Nat
  exponent : Int
  deriving DecidableEq, Repr

namespace Fraction

/-- Halfway from the greatest finite number of double precision to the next power of two. -/
def limit : Nat := Nat.pow 2 1024 - Nat.pow 2 970

/-- Whether the nearest number of double precision is finite. The powers are computed only for
numbers near the limit. -/
def isFinite (f : Fraction) : Bool :=
  let magnitude := f.exponent + (decimal f.digits).length
  if f.digits = 0 ∨ magnitude < 300 then true
  else if 320 < magnitude then false
  else if 0 ≤ f.exponent then f.digits * Nat.pow 10 f.exponent.toNat < limit
  else f.digits < limit * Nat.pow 10 (-f.exponent).toNat

end Fraction

/-- The digits after the point, if there is one. -/
def fractionDigits? : List Char → Option (List Char)
  | [] => some []
  | '.' :: w => digitGroups? isDigit w
  | _ => none

def isExponentMark (c : Char) : Bool :=
  c == 'e' || c == 'E'

def exponent? : List Char → Option Int
  | [] => some 0
  | c :: w =>
    if isExponentMark c then
      let (negative, w) := splitSign w
      (digitGroups? isDigit w).map fun ds =>
        if negative then -(digitsIn 10 ds : Int) else (digitsIn 10 ds : Int)
    else none

/-- A decimal number without a sign that has a fraction or an exponent. -/
def fraction? (w : List Char) : Option Fraction := do
  let front := w.takeWhile (!isExponentMark ·)
  let whole ← decimalDigits? (front.takeWhile (· ≠ '.'))
  let decimals ← fractionDigits? (front.dropWhile (· ≠ '.'))
  let exponent ← exponent? (w.dropWhile (!isExponentMark ·))
  if front.length = w.length ∧ decimals.isEmpty then none
  else some ⟨digitsIn 10 (whole ++ decimals), exponent - decimals.length⟩

def isFloat (w : List Char) : Bool :=
  let (_, w) := splitSign w
  w = "inf".toList ∨ w = "nan".toList ∨ ((fraction? w).map (·.isFinite)).getD false

end ConfigDaemon.Toml

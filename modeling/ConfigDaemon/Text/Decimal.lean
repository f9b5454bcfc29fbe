import ConfigDaemon.Text.Blank

/-! # Decimal numbers

Numbers are written with the fewest digits and read from digits alone, up to a bound.
-/

namespace ConfigDaemon.Text

/-- The decimal digits of a number, without leading zeros. -/
def decimal (n : Nat) : List Char :=
  Nat.toDigits 10 n

def numeral (n : Nat) : String :=
  .ofList (decimal n)

/-- The number that digits below ten spell. -/
def digitsValue (ds : List Char) : Nat :=
  Nat.ofDigitChars 10 ds 0

/-- A number below `bound`, written with at least one digit and nothing else. -/
def readBelow (bound : Nat) (ds : List Char) : Option Nat :=
  if ds ≠ [] ∧ ds.all isDigit ∧ digitsValue ds < bound then some (digitsValue ds) else none

def readUInt32 (ds : List Char) : Option UInt32 :=
  (readBelow UInt32.size ds).map UInt32.ofNat

theorem digitsValue_decimal (n : Nat) : digitsValue (decimal n) = n :=
  Nat.ofDigitChars_toDigits (by decide) (by decide)

theorem decimal_ne_nil (n : Nat) : decimal n ≠ [] :=
  Nat.toDigits_ne_nil

theorem isDigit_decimal {n : Nat} {c : Char} (h : c ∈ decimal n) : isDigit c = true := by
  have hd := Nat.isDigit_of_mem_toDigits (by decide) (by decide) h
  simp only [Char.isDigit, Bool.and_eq_true, decide_eq_true_eq] at hd
  simp only [isDigit, Bool.and_eq_true, decide_eq_true_eq]
  exact hd

theorem readUInt32_decimal (n : UInt32) : readUInt32 (decimal n.toNat) = some n := by
  have hd : (decimal n.toNat).all isDigit = true := List.all_eq_true.mpr fun _ => isDigit_decimal
  have hn : n.toNat < UInt32.size := n.toNat_lt_size
  rw [readUInt32, readBelow, digitsValue_decimal, if_pos ⟨decimal_ne_nil _, hd, hn⟩]
  exact congrArg some UInt32.ofNat_toNat

end ConfigDaemon.Text

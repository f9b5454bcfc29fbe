/-! # Bytes

Byte sequences, and numbers as a fixed count of bytes with the lowest first.
-/

namespace ConfigDaemon

abbrev Bytes := List UInt8

namespace Bytes

/-- The lowest `width` bytes of a number, the lowest of all first. -/
def ofNat : (width n : Nat) → Bytes
  | 0, _ => []
  | width + 1, n => UInt8.ofNat n :: ofNat width (n / 0x100)

def toNat : Bytes → Nat
  | [] => 0
  | b :: rest => b.toNat + 0x100 * toNat rest

/-- How many numbers fit into `width` bytes. -/
def capacity : (width : Nat) → Nat
  | 0 => 1
  | width + 1 => 0x100 * capacity width

/-- `count` bytes of zero. -/
def zeros (count : Nat) : Bytes :=
  List.replicate count 0

@[simp] theorem length_ofNat (width n : Nat) : (ofNat width n).length = width := by
  induction width generalizing n with
  | zero => rfl
  | succ width ih => simp [ofNat, ih]

theorem toNat_ofNat (width n : Nat) : toNat (ofNat width n) = n % capacity width := by
  induction width generalizing n with
  | zero => simp [ofNat, toNat, capacity, Nat.mod_one]
  | succ width ih =>
    rw [ofNat, toNat, ih, capacity, Nat.mod_mul, UInt8.toNat_ofNat']

theorem capacity_pos (width : Nat) : 0 < capacity width := by
  induction width with
  | zero => exact Nat.one_pos
  | succ width ih => exact Nat.mul_pos (by decide) ih

theorem toNat_lt_capacity {bytes : Bytes} {width : Nat} (h : bytes.length ≤ width) :
    toNat bytes < capacity width := by
  induction bytes generalizing width with
  | nil => exact capacity_pos width
  | cons b rest ih =>
    obtain ⟨width, rfl⟩ := Nat.exists_eq_add_of_le' (Nat.le_trans (Nat.succ_pos _) h)
    have hb := b.toNat_lt
    have hrest := ih (Nat.le_of_succ_le_succ h)
    rw [toNat, capacity]
    omega

end Bytes

end ConfigDaemon

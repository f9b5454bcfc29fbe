import ConfigDaemon.Bytes

/-! # UTF-8

Characters as bytes and back. Reading goes byte by byte with the unfinished character as its
state; bytes that belong to no character form broken pieces, each as long as a well-formed
start allows. A strict reading refuses a broken piece, a lenient one shows it as U+FFFD.
-/

namespace ConfigDaemon.Text.Utf8

def encodeChar (c : Char) : Bytes :=
  let n := c.toNat
  if n < 0x80 then [.ofNat n]
  else if n < 0x800 then [.ofNat (0xC0 + n / 0x40), .ofNat (0x80 + n % 0x40)]
  else if n < 0x10000 then
    [.ofNat (0xE0 + n / 0x1000), .ofNat (0x80 + n / 0x40 % 0x40), .ofNat (0x80 + n % 0x40)]
  else
    [.ofNat (0xF0 + n / 0x40000), .ofNat (0x80 + n / 0x1000 % 0x40),
      .ofNat (0x80 + n / 0x40 % 0x40), .ofNat (0x80 + n % 0x40)]

def encode (s : List Char) : Bytes :=
  s.flatMap encodeChar

/-- A character of which some bytes are still owed; the next one lies between `low` and `high`. -/
structure Unfinished where
  value : Nat
  owed : Nat
  low : Nat
  high : Nat
  deriving DecidableEq, Repr

/-- What a byte begins. -/
inductive Start
  | whole (c : Char)
  | lead (u : Unfinished)
  | stray

def start (b : UInt8) : Start :=
  let n := b.toNat
  if n < 0x80 then .whole (Char.ofNat n)
  else if n < 0xC2 then .stray
  else if n < 0xE0 then .lead ⟨n - 0xC0, 1, 0x80, 0xBF⟩
  else if n = 0xE0 then .lead ⟨0, 2, 0xA0, 0xBF⟩
  else if n = 0xED then .lead ⟨0xD, 2, 0x80, 0x9F⟩
  else if n < 0xF0 then .lead ⟨n - 0xE0, 2, 0x80, 0xBF⟩
  else if n = 0xF0 then .lead ⟨0, 3, 0x90, 0xBF⟩
  else if n < 0xF4 then .lead ⟨n - 0xF0, 3, 0x80, 0xBF⟩
  else if n = 0xF4 then .lead ⟨4, 3, 0x80, 0x8F⟩
  else .stray

/-- The pieces found so far, the last one first, and the character that is unfinished, if any. A
piece is a character, or `none` where it is broken. -/
abbrev Progress := List (Option Char) × Option Unfinished

/-- A byte that continues no character. -/
def fresh (done : List (Option Char)) (b : UInt8) : Progress :=
  match start b with
  | .whole c => (some c :: done, none)
  | .lead u => (done, some u)
  | .stray => (none :: done, none)

def step : Progress → UInt8 → Progress
  | (done, none), b => fresh done b
  | (done, some u), b =>
    let n := b.toNat
    if u.low ≤ n ∧ n ≤ u.high then
      let value := u.value * 0x40 + (n - 0x80)
      if u.owed ≤ 1 then (some (Char.ofNat value) :: done, none)
      else (done, some ⟨value, u.owed - 1, 0x80, 0xBF⟩)
    else fresh (none :: done) b

/-- What is unfinished at the end is broken. -/
def finish : Progress → List (Option Char)
  | (done, none) => done.reverse
  | (done, some _) => (none :: done).reverse

/-- The pieces of a byte sequence after the unfinished character `u`. -/
def pieces (u : Option Unfinished) (bytes : Bytes) : List (Option Char) :=
  finish (bytes.foldl step ([], u))

/-- The stand-in for a broken piece. -/
def replacement : Char := '\ufffd'

def decodeLenient (bytes : Bytes) : List Char :=
  (pieces none bytes).map (·.getD replacement)

/-- The characters of `pieces`, when none of them is broken. -/
def allWhole (pieces : List (Option Char)) : Option (List Char) :=
  if none ∈ pieces then none else some (pieces.filterMap id)

def decode (bytes : Bytes) : Option (List Char) :=
  allWhole (pieces none bytes)

theorem encode_append (s t : List Char) : encode (s ++ t) = encode s ++ encode t := by
  simp [encode]

end ConfigDaemon.Text.Utf8

import ConfigDaemon.Bytes
import ConfigDaemon.Text.Utf8

/-! # Archives

An archive is a root of fixed size behind the bytes of the long strings that the root points to.
A shape lists the parts of a root; a row gives each part its value. Writing and reading follow
the shape. The long strings lie in the order of their fields, so reading passes along the end
of the last one as the floor for the next.
-/

namespace ConfigDaemon.Wire

open Text

/-- A part of a root: bytes without meaning, a value below `count` in one byte, a word, or text. -/
inductive Part
  | gap (size : Nat)
  | tag (count : Nat)
  | word
  | longWord
  | text
  | optionalText
  deriving DecidableEq, Repr

namespace Part

def size : Part → Nat
  | .gap n => n
  | .tag _ => 1
  | .word => 4
  | .longWord => 8
  | .text => 8
  | .optionalText => 12

/-- The values that a part can have. -/
abbrev Value : Part → Type
  | .gap _ => Unit
  | .tag count => Fin count
  | .word => UInt32
  | .longWord => UInt64
  | .text => String
  | .optionalText => Option String

end Part

abbrev Shape := List Part

namespace Shape

def size : Shape → Nat
  | [] => 0
  | part :: shape => part.size + size shape

/-- A value for each part. -/
abbrev Row : Shape → Type
  | [] => Unit
  | part :: shape => part.Value × Row shape

end Shape

/-- The largest text that fits into its field. -/
def inlineSize : Nat := 8

def utf8 (s : String) : Bytes :=
  Utf8.encode s.toList

def ofUtf8? (bytes : Bytes) : Option String :=
  (Utf8.decode bytes).map String.ofList

/-- The bytes that a text needs outside its field. -/
def outside (s : String) : Bytes :=
  if (utf8 s).length ≤ inlineSize then [] else utf8 s

def filler : UInt8 := 0xFF

/-- The length of a text outside its field, with the mark that tells it from text inside. -/
def lengthMark (n : Nat) : Bytes :=
  UInt8.ofNat (0x80 + n % 0x40) :: Bytes.ofNat 3 (n / 0x40)

/-- The field at `field` of a text whose outside bytes, if it needs any, begin at `data`. -/
def textField (field data : Nat) (s : String) : Bytes :=
  let bytes := utf8 s
  if bytes.length ≤ inlineSize then bytes ++ List.replicate (inlineSize - bytes.length) filler
  else lengthMark bytes.length ++ Bytes.ofNat 4 (data + 0x100000000 - field)

def Part.outside : (part : Part) → part.Value → Bytes
  | .text, s => Wire.outside s
  | .optionalText, some s => Wire.outside s
  | _, _ => []

/-- The bytes of a part at `field`, with its outside bytes at `data`. -/
def Part.write (field data : Nat) : (part : Part) → part.Value → Bytes
  | .gap n, _ => Bytes.zeros n
  | .tag _, i => [UInt8.ofNat i]
  | .word, n => Bytes.ofNat 4 n.toNat
  | .longWord, n => Bytes.ofNat 8 n.toNat
  | .text, s => textField field data s
  | .optionalText, none => Bytes.zeros 12
  | .optionalText, some s => 1 :: 0 :: 0 :: 0 :: textField (field + 4) data s

namespace Shape

/-- The outside bytes of all texts of a row. -/
def outside : (shape : Shape) → shape.Row → Bytes
  | [], _ => []
  | part :: shape, (v, row) => part.outside v ++ outside shape row

def write (field data : Nat) : (shape : Shape) → shape.Row → Bytes
  | [], _ => []
  | part :: shape, (v, row) =>
    part.write field data v ++
      write (field + part.size) (data + (part.outside v).length) shape row

end Shape

/-- The next multiple of `alignment`. -/
def aligned (n alignment : Nat) : Nat :=
  (n + alignment - 1) / alignment * alignment

/-- The text that the field `bytes` at `field` holds, with the new floor. Bytes outside the field
are more than it could hold and lie between `floor` and `root`. -/
def readText (payload : Bytes) (root floor field : Nat) (bytes : Bytes) :
    Option (String × Nat) :=
  let first := (bytes.headD 0).toNat
  if first / 0x40 = 2 then
    let length := first % 0x40 + 0x40 * Bytes.toNat ((bytes.drop 1).take 3)
    let offset := Bytes.toNat (bytes.drop 4)
    let start : Int :=
      field + (if offset < 0x80000000 then (offset : Int) else offset - 0x100000000)
    if inlineSize < length ∧ (floor : Int) ≤ start ∧ start + length ≤ root then
      (ofUtf8? ((payload.drop start.toNat).take length)).map
        fun s => (s, start.toNat + length)
    else none
  else (ofUtf8? (bytes.takeWhile (· ≠ filler))).map fun s => (s, floor)

/-- The value of the part that `bytes` holds, with the new floor. -/
def Part.read (payload : Bytes) (root floor field : Nat) (bytes : Bytes) :
    (part : Part) → Option (part.Value × Nat)
  | .gap _ => some ((), floor)
  | .tag count =>
    let i := (bytes.headD 0).toNat
    if h : i < count then some (⟨i, h⟩, floor) else none
  | .word => some (UInt32.ofNat (Bytes.toNat bytes), floor)
  | .longWord => some (UInt64.ofNat (Bytes.toNat bytes), floor)
  | .text => readText payload root floor field bytes
  | .optionalText =>
    match (bytes.headD 0).toNat with
    | 0 => some (none, floor)
    | 1 => (readText payload root floor (field + 4) (bytes.drop 4)).map
        fun (s, floor) => (some s, floor)
    | _ => none

/-- The row of a shape that `bytes` holds, the first part at `field`. -/
def Shape.read (payload : Bytes) (root floor field : Nat) (bytes : Bytes) :
    (shape : Shape) → Option shape.Row
  | [] => some ()
  | part :: shape =>
    match part.read payload root floor field (bytes.take part.size) with
    | none => none
    | some (v, floor) =>
      (read payload root floor (field + part.size) (bytes.drop part.size) shape).map (v, ·)

/-- Roots of one kind of message: a tag below `count` in the first byte selects the shape of the
rest. -/
structure Layout (count : Nat) where
  size : Nat
  alignment : Nat
  shape : Fin count → Shape

namespace Layout

variable {count : Nat}

/-- A tag with the row of its shape. -/
abbrev Root (l : Layout count) : Type :=
  (i : Fin count) × (l.shape i).Row

def write (l : Layout count) (r : l.Root) : Bytes :=
  let data := (l.shape r.1).outside r.2
  let root := aligned data.length l.alignment
  data ++ Bytes.zeros (root - data.length) ++
    UInt8.ofNat r.1 :: (l.shape r.1).write (root + 1) 0 r.2

/-- The root at the end of a payload. -/
def read (l : Layout count) (payload : Bytes) : Option l.Root :=
  let root := payload.length - l.size
  if l.size ≤ payload.length ∧ root % l.alignment = 0 then
    match payload.drop root with
    | [] => none
    | tag :: bytes =>
      if h : tag.toNat < count then
        ((l.shape ⟨tag.toNat, h⟩).read payload root 0 (root + 1) bytes).map
          fun row => ⟨⟨tag.toNat, h⟩, row⟩
      else none
  else none

end Layout

end ConfigDaemon.Wire

/-! # Quoted fields

A field stands between double quotes; a quote or a backslash inside it is written after a
backslash. Reading takes any character after a backslash as itself, and stops at the first
quote that no backslash precedes.
-/

namespace ConfigDaemon.Text

/-- Why no quoted field stands at the front of a text. -/
inductive QuoteFault
  | notQuoted
  | unterminated
  deriving DecidableEq, Repr

def QuoteFault.message : QuoteFault → String
  | .notQuoted => "quoted string doesn't begin with a quotation mark"
  | .unterminated => "quoted string doesn't end with a quotation mark"

/-- The inside of a quoted field. -/
def escape : List Char → List Char
  | [] => []
  | c :: s => if c = '"' ∨ c = '\\' then '\\' :: c :: escape s else c :: escape s

def quote (s : List Char) : List Char :=
  '"' :: escape s ++ ['"']

/-- The field up to its closing quote and the text after that quote. -/
def unescape : List Char → Except QuoteFault (List Char × List Char)
  | [] => .error .unterminated
  | ['\\'] => .error .unterminated
  | '\\' :: c :: s => (unescape s).map fun (field, rest) => (c :: field, rest)
  | c :: s =>
    if c = '"' then .ok ([], s)
    else (unescape s).map fun (field, rest) => (c :: field, rest)

/-- The quoted field at the front of a text, with the text after it. -/
def unquote : List Char → Except QuoteFault (List Char × List Char)
  | [] => .error .notQuoted
  | c :: s => if c = '"' then unescape s else .error .notQuoted

theorem unescape_escape (s rest : List Char) :
    unescape (escape s ++ '"' :: rest) = .ok (s, rest) := by
  induction s with
  | nil => simp [escape, unescape]
  | cons c s ih =>
    by_cases h : c = '"' ∨ c = '\\'
    · simp [escape, h, unescape, ih, Except.map]
    · have hb : c ≠ '\\' := fun e => h (.inr e)
      have hq : c ≠ '"' := fun e => h (.inl e)
      simp [escape, unescape, ih, hb, hq, Except.map]

theorem unquote_quote (s rest : List Char) : unquote (quote s ++ rest) = .ok (s, rest) := by
  simp [quote, unquote, unescape_escape]

end ConfigDaemon.Text

import ConfigDaemon.Text.Shown

/-! # Quoted literals

A text between double quotes as diagnostics show it. Characters that are not shown as they are
appear by their code point in hexadecimal.
-/

namespace ConfigDaemon.Text

def codePoint (c : Char) : List Char :=
  "\\u\x7b".toList ++ Nat.toDigits 16 c.toNat ++ ['\x7d']

def literalChar (c : Char) : List Char :=
  if c = '\x00' then ['\\', '0']
  else if c = '\t' then ['\\', 't']
  else if c = '\r' then ['\\', 'r']
  else if c = '\n' then ['\\', 'n']
  else if c = '"' then ['\\', '"']
  else if c = '\\' then ['\\', '\\']
  else if isShown c then [c]
  else codePoint c

def literal (s : String) : String :=
  .ofList ('"' :: s.toList.flatMap literalChar ++ ['"'])

def optionalLiteral : Option String → String
  | none => "None"
  | some s => "Some(" ++ literal s ++ ")"

end ConfigDaemon.Text

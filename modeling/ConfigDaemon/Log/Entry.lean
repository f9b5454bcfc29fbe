import ConfigDaemon.Text.Decimal
import ConfigDaemon.Text.Quoted

/-! # Entries of the recovery log

An entry records that a client or a listener came or went. It has one line: a verb, for a
listener its identifier, and quoted fields. Reading a line skips blanks before each part and
ignores what follows the last field.
-/

namespace ConfigDaemon.Log

open Text

/-- A listener as the log knows it, with the log's name of its database. -/
structure Record where
  id : UInt32
  database : String
  location : String
  client : String
  deriving DecidableEq, Repr

inductive Entry
  | addClient (client : String)
  | removeClient (client : String)
  | addListener (record : Record)
  | removeListener (record : Record)
  deriving DecidableEq, Repr

/-- The quoted fields of an entry. -/
inductive Field
  | database
  | location
  | client
  deriving DecidableEq, Repr

def Field.name : Field → String
  | .database => "database address"
  | .location => "listener location"
  | .client => "client address"

/-- Why a line is not an entry. -/
inductive LineFault
  | unknownVerb (verb : List Char)
  | badId (digits : List Char)
  | zeroId
  | badField (field : Field) (fault : QuoteFault)
  | missingField
  deriving DecidableEq, Repr

def LineFault.message : LineFault → String
  | .unknownVerb verb => "unknown entry type '" ++ .ofList verb ++ "'"
  | .badId digits => "failed to parse connection ID '" ++ .ofList digits ++ "'"
  | .zeroId => "connection ID 0 is not valid"
  | .badField field fault => "failed to unquote " ++ field.name ++ ": " ++ fault.message
  | .missingField => "entry didn't contain all the fields"

namespace Entry

def fieldLine (field : String) : List Char :=
  ' ' :: quote field.toList

def listenerLine (verb : String) (r : Record) : List Char :=
  verb.toList ++ ' ' :: decimal r.id.toNat ++
    fieldLine r.database ++ fieldLine r.location ++ fieldLine r.client

/-- The line of an entry, without its line feed. -/
def line : Entry → List Char
  | .addClient client => "CLIENTADD".toList ++ fieldLine client
  | .removeClient client => "CLIENTREMOVE".toList ++ fieldLine client
  | .addListener r => listenerLine "ADD" r
  | .removeListener r => listenerLine "REMOVE" r

/-- The field at the front of a text; an empty one counts as missing. -/
def readField (field : Field) (s : List Char) : Except LineFault (String × List Char) :=
  match unquote (trimStart s) with
  | .error fault => .error (.badField field fault)
  | .ok ([], _) => .error .missingField
  | .ok (value, rest) => .ok (.ofList value, rest)

def readClient (s : List Char) : Except LineFault String :=
  (readField .client s).map (·.1)

def readId (digits : List Char) : Except LineFault UInt32 :=
  match readUInt32 digits with
  | none => .error (.badId digits)
  | some id => if id = 0 then .error .zeroId else .ok id

def readRecord (s : List Char) : Except LineFault Record := do
  let s := trimStart s
  let id ← readId (s.takeWhile isDigit)
  let (database, s) ← readField .database (s.dropWhile isDigit)
  let (location, s) ← readField .location s
  let (client, _) ← readField .client s
  return { id, database, location, client }

/-- The text after its first word and the blank that ends it. -/
def afterVerb (s : List Char) : List Char :=
  (s.dropWhile (!isAsciiBlank ·)).drop 1

def ofLine (s : List Char) : Except LineFault Entry :=
  let s := trimStart s
  let verb := s.takeWhile (!isAsciiBlank ·)
  let rest := afterVerb s
  if verb = "CLIENTADD".toList then (readClient rest).map .addClient
  else if verb = "CLIENTREMOVE".toList then (readClient rest).map .removeClient
  else if verb = "ADD".toList then (readRecord rest).map .addListener
  else if verb = "REMOVE".toList then (readRecord rest).map .removeListener
  else .error (.unknownVerb verb)

end Entry

end ConfigDaemon.Log

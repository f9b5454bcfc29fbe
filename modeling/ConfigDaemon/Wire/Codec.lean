import ConfigDaemon.Wire.Archive
import ConfigDaemon.Wire.Message

/-! # Messages as archives

Each kind of message has a layout and a correspondence between its messages and the roots of
that layout.
-/

namespace ConfigDaemon

open Wire

namespace Request

def layout : Layout 11 where
  size := 32
  alignment := 4
  shape
    | 0 => [.gap 31]
    | 1 => [.gap 31]
    | 2 => [.gap 31]
    | 3 => [.gap 3, .text, .gap 20]
    | 4 => [.gap 3, .text, .gap 20]
    | 5 => [.gap 3, .text, .gap 20]
    | 6 => [.gap 3, .optionalText, .text, .text]
    | 7 => [.gap 3, .optionalText, .word, .gap 12]
    | 8 => [.gap 3, .optionalText, .text, .text]
    | 9 => [.gap 3, .optionalText, .text, .gap 8]
    | 10 => [.gap 3, .optionalText, .text, .gap 8]

def toRoot : Request → layout.Root
  | .ping => ⟨0, (), ()⟩
  | .shutdown => ⟨1, (), ()⟩
  | .getDefaultDatabase => ⟨2, (), ()⟩
  | .getDatabase address => ⟨3, (), address, (), ()⟩
  | .addClient client => ⟨4, (), client, (), ()⟩
  | .removeClient client => ⟨5, (), client, (), ()⟩
  | .subscribe database location client => ⟨6, (), database, location, client, ()⟩
  | .unsubscribe database id => ⟨7, (), database, id, (), ()⟩
  | .set database key value => ⟨8, (), database, key, value, ()⟩
  | .unset database key => ⟨9, (), database, key, (), ()⟩
  | .lookup database key => ⟨10, (), database, key, (), ()⟩

def ofRoot : layout.Root → Request
  | ⟨0, _⟩ => .ping
  | ⟨1, _⟩ => .shutdown
  | ⟨2, _⟩ => .getDefaultDatabase
  | ⟨3, _, address, _⟩ => .getDatabase address
  | ⟨4, _, client, _⟩ => .addClient client
  | ⟨5, _, client, _⟩ => .removeClient client
  | ⟨6, _, database, location, client, _⟩ => .subscribe database location client
  | ⟨7, _, database, id, _⟩ => .unsubscribe database id
  | ⟨8, _, database, key, value, _⟩ => .set database key value
  | ⟨9, _, database, key, _⟩ => .unset database key
  | ⟨10, _, database, key, _⟩ => .lookup database key

def encode (r : Request) : Bytes :=
  layout.write r.toRoot

def decode? (payload : Bytes) : Option Request :=
  (layout.read payload).map ofRoot

@[simp] theorem ofRoot_toRoot (r : Request) : ofRoot r.toRoot = r := by
  cases r <;> rfl

theorem toRoot_ofRoot (r : layout.Root) : (ofRoot r).toRoot = r := by
  match r with
  | ⟨0, _⟩ | ⟨1, _⟩ | ⟨2, _⟩ | ⟨3, _⟩ | ⟨4, _⟩ | ⟨5, _⟩ | ⟨6, _⟩ | ⟨7, _⟩ | ⟨8, _⟩ | ⟨9, _⟩
  | ⟨10, _⟩ => rfl

end Request

namespace Failure.Kind

/-- The kinds in the order of their codes. -/
def code : Failure.Kind → Fin 5
  | .lockFailed => 0
  | .noServer => 1
  | .failed => 2
  | .inShutdown => 3
  | .badKey => 4

def ofCode : Fin 5 → Failure.Kind
  | 0 => .lockFailed
  | 1 => .noServer
  | 2 => .failed
  | 3 => .inShutdown
  | 4 => .badKey

@[simp] theorem ofCode_code (k : Failure.Kind) : ofCode k.code = k := by
  cases k <;> rfl

@[simp] theorem code_ofCode (i : Fin 5) : (ofCode i).code = i := by
  match i with
  | 0 | 1 | 2 | 3 | 4 => rfl

end Failure.Kind

namespace Response

def layout : Layout 6 where
  size := 24
  alignment := 8
  shape
    | 0 => [.gap 3, .word, .longWord, .text]
    | 1 => [.gap 23]
    | 2 => [.gap 3, .optionalText, .gap 8]
    | 3 => [.gap 3, .word, .gap 16]
    | 4 => [.gap 3, .optionalText, .gap 8]
    | 5 => [.tag 5, .gap 2, .text, .gap 12]

def toRoot : Response → layout.Root
  | .pong pid uptime version => ⟨0, (), pid, uptime, version, ()⟩
  | .ok => ⟨1, (), ()⟩
  | .database address => ⟨2, (), address, (), ()⟩
  | .subscribed id => ⟨3, (), id, (), ()⟩
  | .value v => ⟨4, (), v, (), ()⟩
  | .error kind message => ⟨5, kind.code, (), message, (), ()⟩

def ofRoot : layout.Root → Response
  | ⟨0, _, pid, uptime, version, _⟩ => .pong pid uptime version
  | ⟨1, _⟩ => .ok
  | ⟨2, _, address, _⟩ => .database address
  | ⟨3, _, id, _⟩ => .subscribed id
  | ⟨4, _, v, _⟩ => .value v
  | ⟨5, code, _, message, _⟩ => .error (.ofCode code) message

def encode (r : Response) : Bytes :=
  layout.write r.toRoot

def decode? (payload : Bytes) : Option Response :=
  (layout.read payload).map ofRoot

@[simp] theorem ofRoot_toRoot (r : Response) : ofRoot r.toRoot = r := by
  cases r with
  | error kind message => exact congrArg (Response.error · message) (Failure.Kind.ofCode_code kind)
  | _ => rfl

theorem toRoot_ofRoot (r : layout.Root) : (ofRoot r).toRoot = r := by
  match r with
  | ⟨0, _⟩ | ⟨1, _⟩ | ⟨2, _⟩ | ⟨3, _⟩ | ⟨4, _⟩ => rfl
  | ⟨5, code, _⟩ => rw [ofRoot, toRoot, Failure.Kind.code_ofCode]

end Response

namespace Callback

def layout : Layout 3 where
  size := 40
  alignment := 4
  shape
    | 0 => [.gap 39]
    | 1 => [.gap 3, .optionalText, .word, .text, .optionalText]
    | 2 => [.gap 3, .optionalText, .word, .text, .word, .gap 8]

def toRoot : Callback → layout.Root
  | .ping => ⟨0, (), ()⟩
  | .notify n => ⟨1, (), n.database, n.id, n.key, n.value, ()⟩
  | .rekey k => ⟨2, (), k.database, k.oldId, k.location, k.newId, (), ()⟩

def ofRoot : layout.Root → Callback
  | ⟨0, _⟩ => .ping
  | ⟨1, _, database, id, key, value, _⟩ => .notify ⟨database, id, key, value⟩
  | ⟨2, _, database, oldId, location, newId, _⟩ => .rekey ⟨database, oldId, location, newId⟩

def encode (c : Callback) : Bytes :=
  layout.write c.toRoot

def decode? (payload : Bytes) : Option Callback :=
  (layout.read payload).map ofRoot

@[simp] theorem ofRoot_toRoot (c : Callback) : ofRoot c.toRoot = c := by
  cases c <;> rfl

theorem toRoot_ofRoot (r : layout.Root) : (ofRoot r).toRoot = r := by
  match r with
  | ⟨0, _⟩ | ⟨1, _⟩ | ⟨2, _⟩ => rfl

end Callback

namespace Reply

def layout : Layout 3 where
  size := 12
  alignment := 4
  shape
    | 0 => [.gap 11]
    | 1 => [.gap 11]
    | 2 => [.gap 3, .text]

def toRoot : Reply → layout.Root
  | .pong => ⟨0, (), ()⟩
  | .ok => ⟨1, (), ()⟩
  | .error message => ⟨2, (), message, ()⟩

def ofRoot : layout.Root → Reply
  | ⟨0, _⟩ => .pong
  | ⟨1, _⟩ => .ok
  | ⟨2, _, message, _⟩ => .error message

def encode (r : Reply) : Bytes :=
  layout.write r.toRoot

def decode? (payload : Bytes) : Option Reply :=
  (layout.read payload).map ofRoot

@[simp] theorem ofRoot_toRoot (r : Reply) : ofRoot r.toRoot = r := by
  cases r <;> rfl

theorem toRoot_ofRoot (r : layout.Root) : (ofRoot r).toRoot = r := by
  match r with
  | ⟨0, _⟩ | ⟨1, _⟩ | ⟨2, _⟩ => rfl

end Reply

end ConfigDaemon

import ConfigDaemon.Bytes
import ConfigDaemon.Text.Decimal

/-! # Frames

A frame is a payload behind its length in four bytes. A reader takes one frame off a stream and
refuses a length over the limit before it looks at the payload.
-/

namespace ConfigDaemon.Wire

/-- The largest payload that a reader takes. -/
def frameLimit : Nat := 16 * 1024 * 1024

inductive FrameFault
  | earlyEnd
  | overLimit (length : Nat)
  deriving DecidableEq, Repr

def FrameFault.message : FrameFault → String
  | .earlyEnd => "early eof"
  | .overLimit length =>
    "frame of " ++ Text.numeral length ++ " bytes exceeds limit"

def frame (payload : Bytes) : Bytes :=
  Bytes.ofNat 4 payload.length ++ payload

/-- The payload of the frame at the front of a stream, and the stream after it. -/
def readFrame (stream : Bytes) : Except FrameFault (Bytes × Bytes) :=
  if stream.length < 4 then .error .earlyEnd
  else
    let length := Bytes.toNat (stream.take 4)
    let rest := stream.drop 4
    if length > frameLimit then .error (.overLimit length)
    else if rest.length < length then .error .earlyEnd
    else .ok (rest.take length, rest.drop length)

end ConfigDaemon.Wire

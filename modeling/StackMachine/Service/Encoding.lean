import StackMachine.Http.MediaType

/-!
# Encodings of messages

The media type of a request says how its message is spelled, and whether it stands alone in the body
or in a frame. A frame is a byte of marks, which is zero for a message, the length of the message in
four bytes, and the message.
-/

namespace StackMachine.Rpc

open Text Http

/-- How a message is spelled. Only in `cbor` can the messages of the service be read. -/
inductive Spelling where
  | cbor
  | json
  | proto
  deriving DecidableEq, Repr

/-- How a message stands in a body. -/
inductive Framing where
  | alone
  /-- In a frame. -/
  | framed
  /-- In a frame, and an answer is followed by a frame that reports the outcome. -/
  | reported
  deriving DecidableEq, Repr

/-- An encoding of messages. -/
structure Encoding where
  spelling : Spelling
  framing : Framing
  deriving DecidableEq, Repr

namespace Encoding

/-- The names of spellings. -/
def spellings : List (String × Spelling) := [("cbor", .cbor), ("json", .json), ("proto", .proto)]

/-- What stands before the name of a spelling in a media type. -/
def framings : List (String × Framing) :=
  [("application/", .alone), ("application/grpc+", .framed), ("application/grpc-web+", .reported)]

/-- The media types that can be read, without their parameters. A frame whose spelling is not named
has one of its own. -/
def known : List (String × Encoding) :=
  [("application/grpc", ⟨.proto, .framed⟩), ("application/grpc-web", ⟨.proto, .reported⟩)]
    ++ framings.flatMap fun (start, framing) =>
      spellings.map fun (name, spelling) => (start ++ name, ⟨spelling, framing⟩)

/-- Whether a spelling goes with the parameters of a media type: none, or the character set that
JSON has anyway. -/
def admits (spelling : Spelling) (parameters : List (Bytes × Bytes)) : Bool :=
  match parameters with
  | [] => true
  | [(name, value)] =>
    spelling = .json && name = utf8 "charset" && lowerName value = utf8 "utf-8"
  | _ => false

/-- The encoding that a media type stands for. -/
def ofMediaType? (t : Bytes) : Option Encoding := do
  let m ← MediaType.parse? t
  let (_, e) ← known.find? fun k => utf8 k.1 = m.name
  if admits e.spelling m.parameters then some e else none

end Encoding

/-! ## Frames -/

/-- A text in a frame. -/
def frame (marks : UInt8) (t : Bytes) : Bytes := marks :: bigEndian 4 t.length ++ t

/-- The message in a body that is one frame. -/
def unframe? : Bytes → Option Bytes
  | 0 :: a :: b :: c :: d :: rest =>
    if ofBigEndian [a, b, c, d] = rest.length then some rest else none
  | _ => none

/-- The frame that reports a success. -/
def successReport : Bytes := frame 0x80 (utf8 "grpc-status: 0\r\n")

end StackMachine.Rpc

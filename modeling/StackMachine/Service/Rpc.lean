import StackMachine.Http.Url
import StackMachine.Service.Encoding
import StackMachine.Service.Machine
import StackMachine.Wire.Codec

/-!
# The service over HTTP

Each procedure of the service has a path of its own and takes one message in the body of a POST
request. A client puts a request into bytes, hands it to a server, and reads the answer back; so
what a client sees is what survives both ways.
-/

namespace StackMachine.Rpc

open Text

/-- The procedures of the service. -/
inductive Procedure where
  | run
  | assemble
  | instructions
  | history
  deriving DecidableEq, Repr

/-- All procedures. -/
def Procedure.all : List Procedure := [run, assemble, instructions, history]

/-- The name of a procedure. -/
def Procedure.name : Procedure → String
  | run => "Run"
  | assemble => "Assemble"
  | instructions => "Instructions"
  | history => "History"

/-- The path of a procedure. -/
def Procedure.path (p : Procedure) : Bytes := utf8 "/stackvm.v1.MachineService/" ++ utf8 p.name

/-- The procedure with a path. -/
def Procedure.ofPath? (path : Bytes) : Option Procedure := Procedure.all.find? (·.path = path)

/-- A request as it reaches a server. -/
structure Request where
  method : Bytes
  /-- The path of the URL, with its escapes resolved. -/
  path : Bytes
  contentType : Bytes
  body : Bytes
  deriving DecidableEq, Repr

/-- The request with a method to a URL. There is none if one of them makes no sense. -/
def Request.to? (url method contentType body : Bytes) : Option Request := do
  let path ← Http.requestPath? url
  if Http.isMethod method then some { method, path, contentType, body } else none

/-- What a server answers. -/
inductive Reply where
  /-- A message. -/
  | done (body : Bytes)
  | refused (r : Refusal)
  /-- The request does not reach a procedure: an HTTP status. -/
  | status (code : Nat)
  deriving DecidableEq, Repr

/-- The HTTP status of a reply. -/
def Reply.statusCode : Reply → Nat
  | done _ => 200
  | refused r => r.code.status
  | status code => code

/-! ## The server -/

/-- The message in a body, or the refusal of one that holds none; `role` says whether it is a
request or a response. -/
def receive {β : Type} [Wire.Message β] (role : String) (body : Bytes) : Except Refusal β :=
  match Wire.decode body with
  | .ok m => .ok m
  | .error (.read .nothing) =>
    .error ⟨.unimplemented, utf8 "unary " ++ utf8 role ++ utf8 " has zero messages"⟩
  | .error e =>
    .error ⟨.invalidArgument, utf8 "unmarshal message: " ++ Wire.decodingMessage β e⟩

/-- The reply with an answer. -/
def reply {β : Type} [Wire.Message β] : Except Refusal β → Reply
  | .ok m => .done (Wire.encode m)
  | .error r => .refused r

variable {α : Type}

/-- Carries out a procedure on the message in a body. -/
def call [Action α] (s : Service α) (o : Occasion) (p : Procedure) (body : Bytes) :
    Option (Reply × Service α) :=
  match p with
  | .run =>
    match receive "request" body with
    | .error r => some (.refused r, s)
    | .ok m => (s.run m o).map fun (answer, s) => (reply answer, s)
  | .assemble => some (reply (receive "request" body >>= s.assemble), s)
  | .instructions =>
    some (reply (receive "request" body >>= fun (_ : Wire.InstructionsRequest) =>
      s.instructions), s)
  | .history => some (reply (receive "request" body >>= s.history), s)

/-- The refusal of a body in an encoding that messages do not have. -/
def unsuitable : Refusal := ⟨.invalidArgument, utf8 "unmarshal message"⟩

/-- A reply to a message in a frame. A refusal shows in what follows the body, which is empty. -/
def Reply.inFrame (framing : Framing) : Reply → Reply
  | done body => done (frame 0 body ++ if framing = .reported then successReport else [])
  | _ => done []

/-- Carries out a procedure on the message in a body with an encoding. -/
def callEncoded [Action α] (s : Service α) (o : Occasion) (p : Procedure) (e : Encoding)
    (body : Bytes) : Option (Reply × Service α) :=
  match e with
  | ⟨.cbor, .alone⟩ => call s o p body
  | ⟨_, .alone⟩ => some (.refused unsuitable, s)
  | ⟨.cbor, framing⟩ =>
    match unframe? body with
    | some message => (call s o p message).map fun (answer, s) => (answer.inFrame framing, s)
    | none => some (.done [], s)
  | _ => some (.done [], s)

/-- Answers a request. The path is judged first, then the method, then the media type. A path that
can be written more simply is answered with the hint to do so, unless the method takes paths as they
are. -/
def handle [Action α] (s : Service α) (o : Occasion) (r : Request) : Option (Reply × Service α) :=
  if r.method ≠ utf8 "CONNECT" ∧ Http.canonicalPath r.path ≠ r.path then some (.status 301, s)
  else match Procedure.ofPath? r.path with
    | none => some (.status 404, s)
    | some p =>
      if r.method ≠ utf8 "POST" then some (.status 405, s)
      else match Encoding.ofMediaType? r.contentType with
        | none => some (.status 415, s)
        | some e => callEncoded s o p e r.body

/-! ## The client -/

/-- A client of the server at an address. -/
structure Client where
  baseUrl : Bytes
  deriving DecidableEq, Repr

/-- An address without the slashes at its end. -/
def trimSlashes (url : Bytes) : Bytes := (url.reverse.dropWhile (· == ascii '/')).reverse

/-- The URL of a procedure. -/
def Client.url (c : Client) (p : Procedure) : Bytes := trimSlashes c.baseUrl ++ p.path

/-- Whether a URL says how to reach the host. -/
def namesScheme (url : Bytes) : Bool := 1 < (pieces (ascii ':') (utf8 "//") url).length

/-- The refusal of a text that is not a URL. One that does not say how to reach the host gets a
hint. -/
def badUrl (url : Bytes) (e : Http.UrlError) : Refusal :=
  ⟨.unavailable,
    if namesScheme url then utf8 "parse " ++ quoted url ++ utf8 ": " ++ e.message
    else utf8 "URL " ++ quoted url
      ++ utf8 " missing scheme: use http:// or https:// (unlike grpc-go)"⟩

/-- The refusal that a plain HTTP status stands for. -/
def ofStatus (status : Nat) : Refusal :=
  match status with
  | 301 => ⟨.unknown, utf8 "301 Moved Permanently"⟩
  | 404 => ⟨.unimplemented, utf8 "404 Not Found"⟩
  | 405 => ⟨.unknown, utf8 "405 Method Not Allowed"⟩
  | 415 => ⟨.unknown, utf8 "415 Unsupported Media Type"⟩
  | n => ⟨.unknown, decimal n⟩

/-- Sends a message to a procedure and reads the answer. -/
def Client.send {β γ : Type} [Wire.Message β] [Wire.Message γ] [Action α] (c : Client)
    (p : Procedure) (m : β) (s : Service α) (o : Occasion) :
    Option (Except Refusal γ × Service α) :=
  match Http.Url.parse (c.url p) with
  | .error e => some (.error (badUrl (c.url p) e), s)
  | .ok url => do
    let request : Request :=
      { method := utf8 "POST", path := url.path, contentType := utf8 "application/cbor"
        body := Wire.encode m }
    let (answer, s) ← handle s o request
    match answer with
    | .done body => some (receive "response" body, s)
    | .refused r => some (.error r, s)
    | .status code => some (.error (ofStatus code), s)

/-- Runs a program. -/
def Client.run [Action α] (c : Client) (m : Wire.RunRequest) (s : Service α) (o : Occasion) :
    Option (Except Refusal Wire.RunResponse × Service α) :=
  c.send .run m s o

/-- Checks a program. -/
def Client.assemble [Action α] (c : Client) (m : Wire.AssembleRequest) (s : Service α)
    (o : Occasion) : Option (Except Refusal Wire.AssembleResponse × Service α) :=
  c.send .assemble m s o

/-- Lists the instructions. -/
def Client.instructions [Action α] (c : Client) (s : Service α) (o : Occasion) :
    Option (Except Refusal Wire.InstructionsResponse × Service α) :=
  c.send .instructions ({} : Wire.InstructionsRequest) s o

/-- Shows the newest runs. -/
def Client.history [Action α] (c : Client) (m : Wire.HistoryRequest) (s : Service α)
    (o : Occasion) : Option (Except Refusal Wire.HistoryResponse × Service α) :=
  c.send .history m s o

end StackMachine.Rpc

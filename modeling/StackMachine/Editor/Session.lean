import StackMachine.Editor.Assist
import StackMachine.Service.Worker
import StackMachine.Standard

/-!
# A session with an editor

An editor opens, changes and closes documents and asks about places in them. The session keeps the
text of every open document and publishes what is wrong with it whenever it changes. Nothing is
answered before the session is opened and after it is shut down; a session that was shut down may be
opened again, and knows its documents still, but its worker stays stopped.
-/

namespace StackMachine.Editor

open Text

/-- The version that the server gives when a session is opened. -/
def serverVersion : Bytes := utf8 "0.1.0"

/-- A change of a document. -/
inductive Change where
  /-- The document has a new text. -/
  | whole (text : Bytes)
  /-- A part of the document has a new text. -/
  | part (text : Bytes)
  deriving DecidableEq, Repr

/-- What an editor asks for. -/
inductive Request where
  /-- Opens the session. -/
  | start
  /-- Confirms that the session is open. -/
  | started
  /-- Ends the session. -/
  | shutdown
  /-- Asks for more or fewer traces, of which there are none. -/
  | setTrace
  | opened (uri text : Bytes)
  | changed (uri : Bytes) (changes : List Change)
  | closed (uri : Bytes)
  | completion (uri : Bytes) (p : Position)
  | hover (uri : Bytes) (p : Position)
  deriving DecidableEq, Repr

/-- A message as it arrives: one of another method, one whose parameters make no sense, or a
request. -/
inductive Incoming where
  | otherMethod
  /-- The parameters make no sense; `opening` says whether the method is the one that opens a
  session. -/
  | badParams (opening : Bool)
  | request (r : Request)
  deriving DecidableEq, Repr

/-- Remarks published for a document. -/
structure Notice where
  uri : Bytes
  remarks : List Remark
  deriving DecidableEq, Repr

/-- What a request comes to. -/
inductive Result where
  /-- Nothing to say. -/
  | nothing
  /-- What the server can do. -/
  | capabilities
  | completions (items : List Completion)
  | hover (text : Bytes)
  deriving DecidableEq, Repr

/-- How a message is answered. -/
inductive Answer where
  | done (r : Result) (notice : Option Notice)
  | failed (message : Bytes)
  | invalidMethod
  | invalidParams
  deriving DecidableEq, Repr

/-- A session: the worker, whether the session is open, and the open documents, the latest
first. -/
structure Session (α : Type) where
  worker : Worker α
  isOpen : Bool := false
  documents : List (Bytes × Bytes) := []

namespace Session

variable {α : Type}

/-- A session over the standard instructions. -/
def new : Session Standard := { worker := { registry := .standard } }

/-- The text of an open document. -/
def document? (s : Session α) (uri : Bytes) : Option Bytes := s.documents.lookup uri

/-- Gives a document a text. -/
def keep (s : Session α) (uri text : Bytes) : Session α :=
  { s with documents := (uri, text) :: s.documents.filter (·.1 ≠ uri) }

/-- Forgets a document. -/
def forget (s : Session α) (uri : Bytes) : Session α :=
  { s with documents := s.documents.filter (·.1 ≠ uri) }

/-- The notice of what is wrong with a text; a stopped worker has none. -/
def notice? (s : Session α) (uri text : Bytes) : Option Notice :=
  match s.worker.ask (diagnose · text) with
  | .ok remarks => some ⟨uri, remarks⟩
  | .error _ => none

/-- Takes over a new text of a document and publishes what is wrong with it. -/
def update (s : Session α) (uri text : Bytes) : Answer × Session α :=
  (.done .nothing (s.notice? uri text), s.keep uri text)

/-- The answer of the worker, or its failure. -/
def answerWith (answer : Except WorkerError Result) : Answer :=
  match answer with
  | .ok r => .done r none
  | .error e => .failed e.message

/-- The instructions that could stand at a cursor. Only the first word of a line names one. -/
def completeAt (s : Session α) (uri : Bytes) (p : Position) : Answer :=
  match s.document? uri with
  | none => .done .nothing none
  | some text =>
    let typed := wordBefore text p
    if !atLineStart text p typed.length then .done .nothing none
    else answerWith (s.worker.ask fun r => .completions (complete r typed))

/-- What is shown for the word at a cursor. -/
def hoverAt (s : Session α) (uri : Bytes) (p : Position) : Answer :=
  match s.document? uri with
  | none => .done .nothing none
  | some text =>
    let word := wordAt text p
    if word = [] then .done .nothing none
    else answerWith (s.worker.ask fun r =>
      match hover? r word with
      | some shown => .hover shown
      | none => .nothing)

/-- Answers a request of an open session. Of several changes the last one counts, if it gives
the document a whole new text. -/
def respond (s : Session α) : Request → Answer × Session α
  | .start => (.done .capabilities none, { s with isOpen := true })
  | .started => (.done .nothing none, s)
  | .shutdown => (.done .nothing none, { s with isOpen := false, worker := s.worker.stop })
  | .setTrace => (.done .nothing none, s)
  | .opened uri text => s.update uri text
  | .changed uri changes =>
    match changes.getLast? with
    | some (.whole text) => s.update uri text
    | _ => (.done .nothing none, s)
  | .closed uri => (.done .nothing (some ⟨uri, []⟩), s.forget uri)
  | .completion uri p => (s.completeAt uri p, s)
  | .hover uri p => (s.hoverAt uri p, s)

/-- Whether a message may come before the session is open. -/
def isOpening : Incoming → Bool
  | .badParams opening => opening
  | .request .start => true
  | _ => false

/-- Answers a message. -/
def receive (s : Session α) (m : Incoming) : Answer × Session α :=
  if !s.isOpen && !isOpening m then (.failed (utf8 "server not initialized"), s)
  else match m with
    | .otherMethod => (.invalidMethod, s)
    | .badParams _ => (.invalidParams, s)
    | .request r => s.respond r

end Session

end StackMachine.Editor

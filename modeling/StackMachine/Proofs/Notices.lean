import StackMachine.Editor.Session
import StackMachine.Proofs.Replies
import Mathlib.Data.List.Induction
import Mathlib.Data.List.Perm.Basic
import Mathlib.Logic.Relation

/-!
# Notices on their way to an editor

A session answers every edit of a document with a notice of what is wrong with its text. It does not
wait until the notice has reached the editor before it takes up the next edit, and notices may
overtake one another on their way. So what the editor shows for a document in the end is what the
notice says that came last, which need not be the one that was sent last
(`shown_ne_remarksOn_closed`). Where it is, the editor shows what is wrong with the text the
document has now, and nothing if it is closed (`shown_eq_remarksOn`).

Notices bear the number of the edit they answer, so that two of the same wording can be told apart.
`Accounted` says where the notices are and what the documents have become.
-/

namespace StackMachine.Editor

open Text

/-! ## Edits -/

/-- What an editor tells a session about a document. -/
inductive Edit where
  | opened (uri text : Bytes)
  /-- The last of the changes gives the document a whole new text. -/
  | changed (uri : Bytes) (before : List Change) (text : Bytes)
  | closed (uri : Bytes)

namespace Edit

/-- The document that is edited. -/
def uri : Edit → Bytes
  | opened uri _ | changed uri _ _ | closed uri => uri

/-- The text of the document after the edit, unless it is closed. -/
def text? : Edit → Option Bytes
  | opened _ text | changed _ _ text => some text
  | closed _ => none

/-- The request that tells of the edit. -/
def request : Edit → Request
  | opened uri text => .opened uri text
  | changed uri before text => .changed uri (before ++ [.whole text])
  | closed uri => .closed uri

end Edit

variable {α : Type}

/-- What is wrong with a document that has a text or is closed. -/
def remarksOn (r : Registry α) : Option Bytes → List Remark
  | some text => diagnose r text
  | none => []

/-- The notice that answers an edit. -/
def Edit.notice (r : Registry α) (e : Edit) : Notice := ⟨e.uri, remarksOn r e.text?⟩

namespace Session

/-- The session once it has taken over an edit. -/
def edited (s : Session α) (e : Edit) : Session α :=
  match e.text? with
  | some text => s.keep e.uri text
  | none => s.forget e.uri

/-- An open session with a running worker takes over every edit, and answers it with the notice. -/
theorem receive_edit {s : Session α} (hopen : s.isOpen = true) (hrunning : s.worker.stopped = false)
    (e : Edit) :
    s.receive (.request e.request) =
      (.done .nothing (some (e.notice s.worker.registry)), s.edited e) := by
  have hreceive : ∀ request, s.receive (.request request) = s.respond request := by
    intro request
    simp [receive, hopen]
  have hupdate : ∀ uri text, s.update uri text =
      (.done .nothing (some ⟨uri, diagnose s.worker.registry text⟩), s.keep uri text) := by
    intro uri text
    simp [update, notice?, Worker.ask, hrunning]
  rw [hreceive]
  cases e with
  | opened uri text => exact hupdate uri text
  | changed uri before text =>
    rw [Edit.request, respond, List.getLast?_concat]
    exact hupdate uri text
  | closed uri => rfl

@[simp] theorem worker_edited (s : Session α) (e : Edit) : (s.edited e).worker = s.worker := by
  cases e <;> rfl

@[simp] theorem isOpen_edited (s : Session α) (e : Edit) : (s.edited e).isOpen = s.isOpen := by
  cases e <;> rfl

theorem document?_forget (s : Session α) (uri uri' : Bytes) :
    (s.forget uri).document? uri' = if uri' = uri then none else s.document? uri' := by
  show (s.documents.filter (·.1 ≠ uri)).lookup uri' =
    if uri' = uri then none else s.documents.lookup uri'
  induction s.documents with
  | nil => simp
  | cons d ds ih => grind

theorem document?_keep (s : Session α) (uri text uri' : Bytes) :
    (s.keep uri text).document? uri' = if uri' = uri then some text else s.document? uri' := by
  show ((uri, text) :: (s.forget uri).documents).lookup uri' = _
  rw [List.lookup_cons]
  by_cases huri : uri' = uri
  · rw [if_pos huri, beq_iff_eq.mpr huri]
  · rw [if_neg huri, beq_false_of_ne huri]
    exact (s.document?_forget uri uri').trans (if_neg huri)

/-- An edit changes the document it is about, and no other. -/
theorem document?_edited (s : Session α) (e : Edit) (uri : Bytes) :
    (s.edited e).document? uri = if uri = e.uri then e.text? else s.document? uri := by
  cases e with
  | opened | changed => exact s.document?_keep _ _ _
  | closed => exact s.document?_forget _ _

end Session

/-! ## On the way -/

/-- The notice in an answer. -/
def Answer.notice? : Answer → Option Notice
  | .done _ notice => notice
  | _ => none

/-- A session and an editor: the edits that the session has taken up, the notices that are on their
way and those that the editor has received, in this order. A notice bears the number of the edit
that it answers. -/
structure Traffic (α : Type) where
  session : Session α
  edits : List Edit := []
  inFlight : List (Nat × Notice) := []
  received : List (Nat × Notice) := []

namespace Traffic

/-- The session takes up an edit and sends off the notice, if there is one. -/
def handle (x : Traffic α) (e : Edit) : Traffic α :=
  let (answer, session) := x.session.receive (.request e.request)
  { x with
    session
    edits := x.edits ++ [e]
    inFlight := x.inFlight ++ (answer.notice?.map fun notice => (x.edits.length, notice)).toList }

theorem handle_eq {x : Traffic α} (hopen : x.session.isOpen = true)
    (hrunning : x.session.worker.stopped = false) (e : Edit) :
    x.handle e =
      { x with
        session := x.session.edited e
        edits := x.edits ++ [e]
        inFlight := x.inFlight ++ [(x.edits.length, e.notice x.session.worker.registry)] } := by
  unfold handle
  rw [Session.receive_edit hopen hrunning]
  rfl

/-- One edit is taken up, or one of the notices on their way is delivered. -/
inductive Step : Traffic α → Traffic α → Prop where
  | handled (x : Traffic α) (e : Edit) : Step x (x.handle e)
  | delivered {x : Traffic α} {before after : List (Nat × Notice)} {m : Nat × Notice}
      (hflight : x.inFlight = before ++ m :: after) :
      Step x { x with inFlight := before ++ after, received := x.received ++ [m] }

/-- What can become of a session and an editor that have not exchanged anything yet. -/
def Reachable (s : Session α) (x : Traffic α) : Prop :=
  Relation.ReflTransGen Step { session := s } x

/-- The notices of a document that the editor has received. -/
def receivedFor (x : Traffic α) (uri : Bytes) : List (Nat × Notice) :=
  x.received.filter (·.2.uri = uri)

/-- What the editor shows for a document: the remarks of the notice that came last. -/
def shown? (x : Traffic α) (uri : Bytes) : Option (List Remark) :=
  (x.receivedFor uri).getLast?.map (·.2.remarks)

/-- Of the notices of a document, the one that was sent last came last. -/
def LatestLast (x : Traffic α) (uri : Bytes) : Prop :=
  ∀ last ∈ (x.receivedFor uri).getLast?, ∀ m ∈ x.receivedFor uri, m.1 ≤ last.1

/-! ## Accounts -/

/-- The text that a document has after some edits, if they are about it. -/
def textAfter (edits : List Edit) (uri : Bytes) (text : Option Bytes) : Option Bytes :=
  edits.foldl (fun text e => if uri = e.uri then e.text? else text) text

/-- Where everything has got to: the worker is the same, every edit has its notice on the way or
received, and the documents are what the edits have made of them. -/
structure Accounted (s : Session α) (x : Traffic α) : Prop where
  worker_eq : x.session.worker = s.worker
  isOpen : x.session.isOpen = true
  notices :
    (x.received ++ x.inFlight).Perm
      ((x.edits.map (Edit.notice s.worker.registry)).zipIdx.map Prod.swap)
  document?_eq : ∀ uri, x.session.document? uri = textAfter x.edits uri (s.document? uri)

theorem Accounted.start {s : Session α} (hopen : s.isOpen = true) : Accounted s { session := s } :=
  ⟨rfl, hopen, .refl _, fun _ => rfl⟩

theorem Accounted.step {s : Session α} {x y : Traffic α} (hrunning : s.worker.stopped = false)
    (h : Accounted s x) (hstep : Step x y) : Accounted s y := by
  cases hstep with
  | handled e =>
    rw [handle_eq h.isOpen (h.worker_eq ▸ hrunning), h.worker_eq]
    refine ⟨(Session.worker_edited _ e).trans h.worker_eq,
      (Session.isOpen_edited _ e).trans h.isOpen, ?_, ?_⟩
    · simp only [List.map_append, List.map_cons, List.map_nil, List.zipIdx_append, List.length_map,
        Nat.zero_add, ← List.append_assoc]
      exact h.notices.append_right _
    · intro uri
      rw [Session.document?_edited, h.document?_eq, textAfter, textAfter, List.foldl_append]
      rfl
  | @delivered before after m hflight =>
    refine ⟨h.worker_eq, h.isOpen, ?_, h.document?_eq⟩
    refine List.Perm.trans ?_ h.notices
    show (x.received ++ [m] ++ (before ++ after)).Perm _
    rw [hflight, List.append_assoc, List.singleton_append]
    exact List.Perm.append_left _ List.perm_middle.symm

theorem Reachable.accounted {s : Session α} {x : Traffic α} (hopen : s.isOpen = true)
    (hrunning : s.worker.stopped = false) (h : Reachable s x) : Accounted s x := by
  induction h with
  | refl => exact .start hopen
  | tail _ hstep ih => exact ih.step hrunning hstep

/-- There is one notice for each edit, and no others. -/
theorem Accounted.mem_notices {s : Session α} {x : Traffic α} (h : Accounted s x) {k : Nat}
    {notice : Notice} :
    (k, notice) ∈ x.received ++ x.inFlight ↔
      ∃ e, x.edits[k]? = some e ∧ e.notice s.worker.registry = notice := by
  rw [h.notices.mem_iff, List.mem_map]
  constructor
  · rintro ⟨⟨notice', k'⟩, hmem, heq⟩
    obtain ⟨rfl, rfl⟩ := Prod.mk.inj heq
    rw [List.mk_mem_zipIdx_iff_getElem?, List.getElem?_map] at hmem
    exact Option.map_eq_some_iff.mp hmem
  · intro he
    refine ⟨(notice, k), ?_, rfl⟩
    rw [List.mk_mem_zipIdx_iff_getElem?, List.getElem?_map]
    exact Option.map_eq_some_iff.mpr he

theorem Accounted.mem_received {s : Session α} {x : Traffic α} (h : Accounted s x)
    (hall : x.inFlight = []) {k : Nat} {notice : Notice} :
    (k, notice) ∈ x.received ↔ ∃ e, x.edits[k]? = some e ∧ e.notice s.worker.registry = notice := by
  rw [← h.mem_notices, hall, List.append_nil]

/-- The last edit of a document decides which text it has. -/
theorem textAfter_of_last {before after : List Edit} {e : Edit} {uri : Bytes} (huri : e.uri = uri)
    (hafter : ∀ e' ∈ after, e'.uri ≠ uri) (text : Option Bytes) :
    textAfter (before ++ e :: after) uri text = e.text? := by
  have hkept : ∀ text, textAfter after uri text = text := by
    induction after with
    | nil => exact fun _ => rfl
    | cons e' after ih =>
      intro text
      rw [textAfter, List.foldl_cons, if_neg (Ne.symm (hafter e' List.mem_cons_self))]
      exact ih (fun e'' he'' => hafter e'' (List.mem_cons_of_mem _ he'')) text
  rw [textAfter, List.foldl_append, List.foldl_cons, if_pos huri.symm]
  exact hkept _

/-- Where all notices are delivered, the editor shows the remarks of one of them for every document
that was edited, and it is the one that came last. -/
theorem Accounted.exists_shown {s : Session α} {x : Traffic α} (h : Accounted s x)
    (hall : x.inFlight = []) {uri : Bytes} (htouched : ∃ e ∈ x.edits, e.uri = uri) :
    ∃ k e, x.edits[k]? = some e ∧ e.uri = uri ∧
      (x.receivedFor uri).getLast? = some (k, e.notice s.worker.registry) := by
  have hne : x.receivedFor uri ≠ [] := by
    obtain ⟨e, he, rfl⟩ := htouched
    obtain ⟨k, hk⟩ := List.mem_iff_getElem?.mp he
    have hmem : (k, e.notice s.worker.registry) ∈ x.receivedFor e.uri :=
      List.mem_filter.mpr ⟨(h.mem_received hall).mpr ⟨e, hk, rfl⟩, by simp [Edit.notice]⟩
    exact List.ne_nil_of_mem hmem
  obtain ⟨⟨k, notice⟩, hlast⟩ := Option.ne_none_iff_exists'.mp (mt List.getLast?_eq_none_iff.mp hne)
  obtain ⟨hreceived, huri⟩ := List.mem_filter.mp (List.mem_of_getLast? hlast)
  obtain ⟨e, hk, rfl⟩ := (h.mem_received hall).mp hreceived
  exact ⟨k, e, hk, of_decide_eq_true huri, hlast⟩

/-- Where the notice that came last is the one that was sent last, it answers the edit that the
document owes its text to. -/
theorem Accounted.document?_of_latest {s : Session α} {x : Traffic α} (h : Accounted s x)
    (hall : x.inFlight = []) {k : Nat} {e : Edit} (hk : x.edits[k]? = some e)
    (hlatest : ∀ m ∈ x.receivedFor e.uri, m.1 ≤ k) :
    x.session.document? e.uri = e.text? := by
  obtain ⟨hlt, hget⟩ := List.getElem?_eq_some_iff.mp hk
  have hsplit : x.edits = x.edits.take k ++ e :: x.edits.drop (k + 1) := by
    rw [← hget, ← List.drop_eq_getElem_cons hlt, List.take_append_drop]
  rw [h.document?_eq, hsplit]
  refine textAfter_of_last rfl ?_ _
  intro e' he' huri
  obtain ⟨i, hi⟩ := List.mem_iff_getElem?.mp he'
  rw [List.getElem?_drop] at hi
  have hmem : (k + 1 + i, e'.notice s.worker.registry) ∈ x.receivedFor e.uri :=
    List.mem_filter.mpr ⟨(h.mem_received hall).mpr ⟨e', hi, rfl⟩, decide_eq_true huri⟩
  have hle : k + 1 + i ≤ k := hlatest _ hmem
  omega

/-! ## Any order -/

/-- The notices on their way can be delivered in any order. -/
theorem Reachable.deliver {s : Session α} {x : Traffic α} {order : List (Nat × Notice)}
    (h : x.Reachable s) (horder : x.inFlight.Perm order) :
    Reachable s { x with inFlight := [], received := x.received ++ order } := by
  induction order generalizing x with
  | nil =>
    rw [List.append_nil, ← horder.eq_nil]
    exact h
  | cons m order ih =>
    obtain ⟨before, after, hflight⟩ := List.append_of_mem (horder.mem_iff.mpr List.mem_cons_self)
    have hrest : (before ++ after).Perm order := by
      rw [hflight] at horder
      exact (List.perm_middle.symm.trans horder).cons_inv
    have hnext := ih (h.tail (.delivered hflight)) hrest
    rwa [List.append_assoc, List.singleton_append] at hnext

/-- All edits can be taken up before any notice is delivered. -/
theorem Reachable.exists_undelivered (s : Session α) (edits : List Edit) :
    ∃ x, Reachable s x ∧ x.edits = edits ∧ x.received = [] := by
  induction edits using List.reverseRecOn with
  | nil => exact ⟨_, .refl, rfl, rfl⟩
  | append_singleton edits e ih =>
    obtain ⟨x, hreach, rfl, hreceived⟩ := ih
    exact ⟨x.handle e, hreach.tail (.handled x e), rfl, hreceived⟩

/-- The notice that answers any edit of a document can be the one that comes last. -/
theorem exists_shown_of_edit {s : Session α} (hopen : s.isOpen = true)
    (hrunning : s.worker.stopped = false) {edits : List Edit} {e : Edit} (he : e ∈ edits) :
    ∃ x, Reachable s x ∧ x.edits = edits ∧ x.inFlight = [] ∧
      x.shown? e.uri = some (remarksOn s.worker.registry e.text?) := by
  obtain ⟨x, hreach, rfl, hreceived⟩ := Reachable.exists_undelivered s edits
  obtain ⟨k, hk⟩ := List.mem_iff_getElem?.mp he
  have hmem : (k, e.notice s.worker.registry) ∈ x.inFlight := by
    have hnotice := (hreach.accounted hopen hrunning).mem_notices.mpr ⟨e, hk, rfl⟩
    rwa [hreceived, List.nil_append] at hnotice
  obtain ⟨before, after, hflight⟩ := List.append_of_mem hmem
  have horder : x.inFlight.Perm (before ++ after ++ [(k, e.notice s.worker.registry)]) := by
    rw [hflight, List.append_assoc]
    exact List.Perm.append_left _ (List.perm_append_singleton _ _).symm
  refine ⟨_, hreach.deliver horder, rfl, rfl, ?_⟩
  rw [shown?, receivedFor, ← List.append_assoc, List.filter_append,
    List.filter_cons_of_pos (by simp [Edit.notice]), List.filter_nil, List.getLast?_concat]
  rfl

end Traffic

/-! ## What the editor shows in the end -/

/-- Edits of documents go to an open session with a running worker, and the notices that answer them
are delivered in any order. Once all are delivered, the editor shows for every document that was
edited the remarks of a notice that answered one of its edits. If this is the notice that was sent
last for the document, these are the remarks on the text that the document has now, and none if it
is closed. In another order of delivery the notice could have been that of any other edit of the
document. -/
theorem shown_eq_remarksOn {s : Session α} (hopen : s.isOpen = true)
    (hrunning : s.worker.stopped = false) {x : Traffic α} (h : x.Reachable s)
    (hall : x.inFlight = []) {uri : Bytes} (htouched : ∃ e ∈ x.edits, e.uri = uri) :
    (∃ e ∈ x.edits, e.uri = uri ∧ x.shown? uri = some (remarksOn s.worker.registry e.text?)) ∧
    (x.LatestLast uri →
      x.shown? uri = some (remarksOn s.worker.registry (x.session.document? uri))) ∧
    ∀ e ∈ x.edits, e.uri = uri →
      ∃ y : Traffic α, y.Reachable s ∧ y.edits = x.edits ∧ y.inFlight = [] ∧
      y.shown? uri = some (remarksOn s.worker.registry e.text?) := by
  have haccount := h.accounted hopen hrunning
  obtain ⟨k, e, hk, rfl, hlast⟩ := haccount.exists_shown hall htouched
  have hshown : x.shown? e.uri = some (remarksOn s.worker.registry e.text?) := by
    rw [Traffic.shown?, hlast]
    rfl
  refine ⟨⟨e, List.mem_of_getElem? hk, rfl, hshown⟩, fun hlatest => ?_, fun e' he' huri => ?_⟩
  · rw [hshown, haccount.document?_of_latest hall hk fun m hm => hlatest _ hlast m hm]
  · rw [← huri]
    exact Traffic.exists_shown_of_edit hopen hrunning he'

/-- A session over the standard instructions that was opened. -/
def openedSession : Session Standard := { Session.new with isOpen := true }

/-- A document with a blank line is opened and closed again. -/
def briefly (uri : Bytes) : List Edit := [.opened uri (utf8 "\n"), .closed uri]

/-- There is something wrong with a blank line. -/
theorem diagnose_blank (r : Registry α) : diagnose r (utf8 "\n") ≠ [] := by
  have hvalidate : validate r (utf8 "\n") = [LineError.empty.failure 1] := validate_newlines r 1
  rw [diagnose, hvalidate]
  exact List.cons_ne_nil _ _

/-- The notices of the two edits come in the order in which they were sent, and the editor shows
nothing. -/
theorem shown_eq_remarksOn_inOrder :
    let uri := utf8 "file:///a.svm"
    ∃ x : Traffic Standard, x.Reachable openedSession ∧ x.edits = briefly uri ∧ x.inFlight = [] ∧
      x.session.document? uri = none ∧ x.shown? uri = some [] := by
  intro uri
  let sent : List (Nat × Notice) := [(0, ⟨uri, diagnose .standard (utf8 "\n")⟩), (1, ⟨uri, []⟩)]
  have hreach : Traffic.Reachable openedSession
      { session := openedSession.keep uri (utf8 "\n") |>.forget uri, edits := briefly uri,
        inFlight := sent } :=
    (Relation.ReflTransGen.refl.tail (.handled _ (.opened uri (utf8 "\n")))).tail
      (.handled _ (.closed uri))
  have hdelivered := hreach.deliver (.refl sent)
  have htouched : ∃ e ∈ briefly uri, e.uri = uri := ⟨.closed uri, by simp [briefly], rfl⟩
  obtain ⟨-, hcurrent, -⟩ := shown_eq_remarksOn rfl rfl hdelivered rfl htouched
  refine ⟨_, hdelivered, rfl, rfl, rfl, hcurrent ?_⟩
  have hreceived : Traffic.receivedFor
      { session := openedSession.keep uri (utf8 "\n") |>.forget uri, edits := briefly uri,
        inFlight := [], received := [] ++ sent } uri = sent := rfl
  intro last hlast m hm
  rw [hreceived] at hlast hm
  obtain rfl := Option.some.inj hlast
  rcases List.mem_pair.mp hm with rfl | rfl
  · exact Nat.zero_le 1
  · exact Nat.le_refl 1

/-- The notice that the document was closed can be overtaken by the one before it: then the editor
goes on to show what was wrong with the text of a document that is closed. -/
theorem shown_ne_remarksOn_closed :
    let uri := utf8 "file:///a.svm"
    ∃ x : Traffic Standard, x.Reachable openedSession ∧ x.edits = briefly uri ∧ x.inFlight = [] ∧
      x.session.document? uri = none ∧
      x.shown? uri ≠ some (remarksOn openedSession.worker.registry (x.session.document? uri)) := by
  intro uri
  obtain ⟨x, hreach, hedits, hall, hshown⟩ :=
    Traffic.exists_shown_of_edit (s := openedSession) rfl rfl (List.mem_cons_self : _ ∈ briefly uri)
  have hdocument : x.session.document? uri = none := by
    rw [(hreach.accounted rfl rfl).document?_eq, hedits]
    rfl
  refine ⟨x, hreach, hedits, hall, hdocument, ?_⟩
  rw [hdocument, show x.shown? uri = _ from hshown, ne_eq, Option.some.injEq]
  exact diagnose_blank _

end StackMachine.Editor

import StackMachine.Toml.Statement

/-!
# TOML documents

The statements of a document build its root table one after another. A heading opens a table, and
the assignments that follow define keys in it. A key is defined once, with one exception: a table
that only came into being because something was defined inside it may still be opened by name. An
array that a dotted key leads through counts as such a table, and gives way to it.
-/

namespace StackMachine.Toml

/-- What the statements read so far have built. -/
structure Builder where
  root : Table := []
  /-- The table in which keys are being defined. -/
  context : Key := []
  /-- Tables that nobody has named yet. -/
  implicit : List Key := []
  /-- Keys whose value was last written as an array. -/
  arrays : List Key := []

namespace Builder

/-- The table reached from another one by a key; of tables under one heading, the last counts. -/
def tableAt? : Table → Key → Option Table
  | t, [] => some t
  | t, k :: ks =>
    match t.lookup k with
    | some (.table s) => tableAt? s ks
    | some (.tables ts) => ts.getLast?.bind (tableAt? · ks)
    | _ => none

/-- Changes the table reached from another one by a key. -/
def changeAt? (change : Table → Option Table) : Table → Key → Option Table
  | t, [] => change t
  | t, k :: ks =>
    match t.lookup k with
    | some (.table s) => do some (t.insert k (.table (← changeAt? change s ks)))
    | some (.tables ts) => do
      let last ← ts.getLast?
      some (t.insert k (.tables (ts.dropLast ++ [← changeAt? change last ks])))
    | _ => none

/-- Notes that a table has not been named yet. -/
def mark (b : Builder) (k : Key) : Builder := { b with implicit := k :: b.implicit }

/-- Notes that a table has been named. -/
def unmark (b : Builder) (k : Key) : Builder := { b with implicit := b.implicit.filter (· ≠ k) }

/-- Gives a name in the current table a value. -/
def put? (b : Builder) (name : Bytes) (v : Value) : Option Builder := do
  let root ← changeAt? (fun t => some (t.insert name v)) b.root b.context
  some { b with root }

/-- Defines a name in the current table. -/
def define? (b : Builder) (name : Bytes) (v : Value) : Option Builder := do
  let t ← tableAt? b.root b.context
  let key := b.context ++ [name]
  match t.lookup name with
  | none => b.put? name v
  | some _ =>
    if b.implicit.contains key then
      if b.arrays.contains key then (b.unmark key).put? name v else some (b.unmark key)
    else none

/-- The key that a kind is noted for; a name that is empty stands for the current table. -/
def noted (b : Builder) (name : Bytes) : Key :=
  match b.context ++ (if name = [] then [] else [name]) with
  | [] => [[]]
  | k => k

/-- Notes whether a name was last given an array. -/
def note (b : Builder) (name : Bytes) (isArray : Bool) : Builder :=
  let others := b.arrays.filter (· ≠ b.noted name)
  { b with arrays := if isArray then b.noted name :: others else others }

/-- Makes sure that there are tables along a key, which starts after `above`, and leads into
them. -/
def enter? (b : Builder) (above : Key) : Key → Option Builder
  | [] => some { b with context := above }
  | k :: ks => do
    let t ← tableAt? b.root above
    let here := above ++ [k]
    match t.lookup k with
    | some (.table _) => b.enter? here ks
    | some (.tables _) => b.enter? here ks
    | some _ => none
    | none => do
      let b ← ({ b.mark here with context := above }).put? k (.table [])
      b.enter? here ks

/-- Opens the table with a key. -/
def openTable? (b : Builder) (key : Key) : Option Builder := do
  let name ← key.getLast?
  let b ← b.enter? [] key.dropLast
  let b ← b.define? name (.table [])
  some { b with context := key }

/-- Opens one more of the tables with a key. -/
def openNext? (b : Builder) (key : Key) : Option Builder := do
  let name ← key.getLast?
  let b ← b.enter? [] key.dropLast
  let t ← tableAt? b.root b.context
  let b ← match t.lookup name with
    | none => b.put? name (.tables [[]])
    | some (.tables ts) => b.put? name (.tables (ts ++ [[]]))
    | some _ => none
  some { b with context := key }

/-- Goes from the current table into the tables that the names before the last one of a dotted key
stand for. -/
def enterDotted? (b : Builder) : Key → Option Builder
  | [] => some b
  | k :: ks => do
    let key := b.context ++ [k]
    let b ← (b.mark key).openTable? key
    b.enterDotted? ks

/-- A table with a value under a dotted key. -/
def insertDotted? (v : Value) : Table → Key → Option Table
  | _, [] => none
  | t, [k] => some (t.insert k v)
  | t, k :: ks =>
    match t.lookup k with
    | none => do some (t.insert k (.table (← insertDotted? v [] ks)))
    | some (.table s) => do some (t.insert k (.table (← insertDotted? v s ks)))
    | some _ => none

/-- Whether an expression is an array. -/
def isArray : Expression → Bool
  | .array _ => true
  | _ => false

mutual

/-- The value of an expression that is being given to a name in the current table. The entries of a
table in braces are defined on the way. `nested` tells an item of an array. -/
def value? (name : Bytes) (nested : Bool) (b : Builder) : Expression → Option (Value × Builder)
  | .value v => some (v, b)
  | .array es => do
    let (vs, b) ← items? name (b.note name true) es
    some (.array vs, b)
  | .inlineTable entries => do
    let key := b.context ++ [name]
    let inner ← if nested then (b.mark key).openNext? key else (b.mark key).openTable? key
    let (t, inner) ← entries? inner [] entries
    some (.table t, { inner with context := b.context })

/-- The values of the items of an array. -/
def items? (name : Bytes) (b : Builder) : List Expression → Option (List Value × Builder)
  | [] => some ([], b)
  | e :: es => do
    let (v, b) ← value? name true b e
    let (vs, b) ← items? name b es
    some (v :: vs, b)

/-- Defines the entries of a table in braces, and gives the table they make. -/
def entries? (b : Builder) (t : Table) : List (Key × Expression) → Option (Table × Builder)
  | [] => some (t, b)
  | (key, e) :: rest => do
    let name ← key.getLast?
    let inner ← b.enterDotted? key.dropLast
    let (v, inner) ← value? name false inner e
    let inner ← inner.define? name v
    let inner := inner.note name (isArray e)
    let t ← insertDotted? v t key
    entries? { inner with context := b.context } t rest

end

/-- Gives a key in the current table a value. -/
def assign? (b : Builder) (key : Key) (e : Expression) : Option Builder := do
  let name ← key.getLast?
  let inner ← b.enterDotted? key.dropLast
  let (v, inner) ← value? name false inner e
  let inner ← inner.define? name v
  some { inner.note name (isArray e) with context := b.context }

/-- What a statement does. -/
def step? (b : Builder) : Statement → Option Builder
  | .table key => do some ((← b.openTable? key).note [] false)
  | .nextTable key => do some ((← b.openNext? key).note [] false)
  | .assign key e => b.assign? key e

end Builder

/-- The root table of a document, or nothing when it is malformed. -/
def parse? (document : Bytes) : Option Table := do
  let b ← (← statements? document).foldlM Builder.step? {}
  some b.root

end StackMachine.Toml

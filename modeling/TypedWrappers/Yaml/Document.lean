import TypedWrappers.RecordFormat
import TypedWrappers.Yaml.Node.OfTokens
import TypedWrappers.Yaml.Token.Scan

/-!
# YAML documents

A whole YAML text as a tree of nodes with its labels, and how a typed reader takes the tree apart. A scalar has no type
of its own: the field that is read decides, so a plain `5` is a text where a text is wanted.

- `Document.parse?`: the document of a text; an empty stream is a blank scalar;
- `Reading`: reading nodes, which follows aliases and fails when it has followed too many;
- `Yaml.format`: the shapes of fields, for the readers of records;
- `Document.read?`: a document read as a record.
-/

namespace TypedWrappers.Yaml

/-- A document: its tree and the nodes that aliases stand for. -/
structure Document where
  /-- The outermost node. -/
  root : Node Nat
  /-- The labelled nodes, the last one first. -/
  labelled : List (Nat × Node Nat)
  deriving Repr

/-- The document with a tree. -/
def Document.ofNode? (node : Node String) : Option Document :=
  (node.number? []).map fun (root, _) => ⟨root, root.labelled.reverse⟩

/-- The document of a text. -/
def Document.parse? (s : String) : Option Document := do
  let tokens ← Token.scan? s.toList
  let node ← Node.ofTokens? tokens
  Document.ofNode? (node.getD .blank)

/-- Reading from a document, with a number of aliases that may still be followed. -/
abbrev Reading := ReaderT Document (StateT Nat Option)

namespace Reading

/-- The failure. -/
def fail {α : Type} : Reading α :=
  fun _ _ => none

/-- The node that a node stands for: itself, or the one that an alias means. -/
def follow (node : Node Nat) : Reading (Node Nat) :=
  fun document budget =>
    match node, budget with
    | .aliasOf target, budget + 1 => (document.labelled.lookup target).map fun node => (node, budget)
    | .aliasOf _, 0 => none
    | node, budget => some (node, budget)

/-- Whether a plain text means nothing. -/
def isNullText (text : String) : Bool :=
  ["null", "Null", "NULL", "~"].contains text

/-- The truth value that a plain text means. -/
def truthValue? (text : String) : Option Bool :=
  if ["true", "True", "TRUE"].contains text then some true
  else if ["false", "False", "FALSE"].contains text then some false
  else none

/-- The text of a scalar, whatever its style and tag. -/
def string (node : Node Nat) : Reading String := do
  match ← follow node with
  | .scalar _ _ text _ => pure text
  | _ => fail

/-- The truth value of a plain scalar, or of a literal one with the tag of truth values. -/
def bool (node : Node Nat) : Reading Bool := do
  match ← follow node with
  | .scalar _ tag text style =>
    if style = .plain || (style = .literal && tag = some Tag.boolTag) then
      match truthValue? text with
      | some value => pure value
      | none => fail
    else fail
  | _ => fail

/-- The items of a sequence; a blank plain scalar is a sequence of none. -/
def list {α : Type} (item : Node Nat → Reading α) (node : Node Nat) : Reading (List α) := do
  match ← follow node with
  | .sequence _ _ items => items.mapM item
  | .scalar _ _ "" .plain => pure []
  | _ => fail

/-- Nothing for a plain scalar that is blank or null, without a tag or with that of null; any other node is a value. A
plain scalar with the tag of null must be null. -/
def nullable {α : Type} (value : Node Nat → Reading α) (node : Node Nat) : Reading (Option α) := do
  match ← follow node with
  | .scalar anchor tag text .plain =>
    if tag = some Tag.nullTag then
      if isNullText text then pure none else fail
    else if tag = none && (text = "" || isNullText text) then pure none
    else some <$> value (.scalar anchor tag text .plain)
  | node => some <$> value node

/-- A named alternative: the text of a scalar, or the tag of a plain scalar that is blank or null. -/
def choice {α : Type} (named? : String → Option α) (node : Node Nat) : Reading α := do
  match ← follow node with
  | .scalar _ tag text style =>
    let name :=
      match tag.bind Tag.localName? with
      | some name => if style = Style.plain && (text = "" || isNullText text) then some name else none
      | none => some text
    match name.bind named? with
    | some value => pure value
    | none => fail
  | _ => fail

/-- The values under a key, in the order of the pairs. -/
def under (key : String) (pairs : List (String × Node Nat)) : List (Node Nat) :=
  pairs.filterMap fun (k, v) => if k = key then some v else none

/-- The fields of a mapping, whose keys are scalars: each named field at most once, and any others. A blank plain
scalar is a mapping of none. -/
def record (fields : List String) (node : Node Nat) : Reading (String → Option (Node Nat)) := do
  match ← follow node with
  | .mapping _ _ pairs =>
    let pairs ← pairs.mapM fun (key, value) => do
      let key ← string key
      pure (key, value)
    if fields.all fun field => (under field pairs).length ≤ 1 then pure fun field => (under field pairs).head?
    else fail
  | .scalar _ _ "" .plain => pure fun _ => none
  | _ => fail

end Reading

/-- YAML as a format of records. -/
def format : RecordFormat (Node Nat) Reading where
  string := Reading.string
  bool := Reading.bool
  list := Reading.list
  nullable := Reading.nullable
  choice := Reading.choice
  record := Reading.record
  fail := Reading.fail

/-- Reads a document. It may follow a hundred aliases for each part of its tree. -/
def Document.read? {α : Type} (document : Document) (read : Node Nat → Reading α) : Option α :=
  ((read document.root).run document |>.run (100 * document.root.size)).map (·.1)

end TypedWrappers.Yaml

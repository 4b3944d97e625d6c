import TypedWrappers.Yaml.Token

/-!
# YAML nodes

The tree of a YAML document. Its nodes may have tags and labels, and an alias stands for the node with its label. A
label is an anchor's name in the tree that a text gives, and a number after `Yaml.Node.number?`.

An anchor may be set more than once. It is filed under the number of names set before it, and an alias means the node
filed last under the number its name had at the alias. So a name that is set again shares its number with the next new
name, and aliases of either then mean the node labelled last.
-/

namespace TypedWrappers.Yaml

/-- A node, its labels of type `label`. -/
inductive Node (label : Type)
  | scalar (anchor : Option label) (tag : Option Tag) (text : String) (style : Style)
  | sequence (anchor : Option label) (tag : Option Tag) (items : List (Node label))
  | mapping (anchor : Option label) (tag : Option Tag) (pairs : List (Node label × Node label))
  | aliasOf (target : label)
  deriving Repr

namespace Node

/-- The scalar that stands where nothing is written. -/
def blank {label : Type} : Node label :=
  .scalar none none "" .plain

mutual

/-- The scalars, aliases, starts and ends of a tree. -/
def size {label : Type} : Node label → Nat
  | scalar .. => 1
  | sequence _ _ items => sizeAll items + 2
  | mapping _ _ pairs => sizePairs pairs + 2
  | aliasOf _ => 1

/-- The same of several trees. -/
def sizeAll {label : Type} : List (Node label) → Nat
  | [] => 0
  | node :: rest => size node + sizeAll rest

/-- The same of pairs of trees. -/
def sizePairs {label : Type} : List (Node label × Node label) → Nat
  | [] => 0
  | (key, value) :: rest => size key + size value + sizePairs rest

end

/-! ## Numbering labels -/

/-- The number of each name set so far, one entry for a name. -/
abbrev Numbering := List (String × Nat)

/-- Sets a name. -/
def Numbering.set (name : String) (names : Numbering) : Numbering :=
  (name, names.length) :: names.filter (·.1 ≠ name)

/-- Sets the name of an anchor, if there is one; gives its number too. -/
def Numbering.setAnchor (anchor : Option String) (names : Numbering) : Option Nat × Numbering :=
  match anchor with
  | some name => (some names.length, names.set name)
  | none => (none, names)

mutual

/-- The tree with numbers for names, and the names set in it or in front of it. An alias of a name that is not set in
front of it has no number. -/
def number? (names : Numbering) : Node String → Option (Node Nat × Numbering)
  | scalar anchor tag text style =>
    match names.setAnchor anchor with
    | (anchor, names) => some (.scalar anchor tag text style, names)
  | sequence anchor tag items =>
    match names.setAnchor anchor with
    | (anchor, names) => (numberAll? names items).map fun (items, names) => (.sequence anchor tag items, names)
  | mapping anchor tag pairs =>
    match names.setAnchor anchor with
    | (anchor, names) => (numberPairs? names pairs).map fun (pairs, names) => (.mapping anchor tag pairs, names)
  | aliasOf target => (names.lookup target).map fun n => (.aliasOf n, names)

/-- The same of several trees, one after the other. -/
def numberAll? (names : Numbering) : List (Node String) → Option (List (Node Nat) × Numbering)
  | [] => some ([], names)
  | node :: rest => do
    let (node, names) ← number? names node
    let (rest, names) ← numberAll? names rest
    some (node :: rest, names)

/-- The same of pairs of trees. -/
def numberPairs? (names : Numbering) :
    List (Node String × Node String) → Option (List (Node Nat × Node Nat) × Numbering)
  | [] => some ([], names)
  | (key, value) :: rest => do
    let (key, names) ← number? names key
    let (value, names) ← number? names value
    let (rest, names) ← numberPairs? names rest
    some ((key, value) :: rest, names)

end

mutual

/-- The labelled nodes of a tree, each in front of what is inside it. -/
def labelled {label : Type} : Node label → List (label × Node label)
  | scalar (some a) tag text style => [(a, .scalar (some a) tag text style)]
  | scalar none .. => []
  | sequence (some a) tag items => (a, .sequence (some a) tag items) :: labelledAll items
  | sequence none _ items => labelledAll items
  | mapping (some a) tag pairs => (a, .mapping (some a) tag pairs) :: labelledPairs pairs
  | mapping none _ pairs => labelledPairs pairs
  | aliasOf _ => []

/-- The same of several trees. -/
def labelledAll {label : Type} : List (Node label) → List (label × Node label)
  | [] => []
  | node :: rest => labelled node ++ labelledAll rest

/-- The same of pairs of trees. -/
def labelledPairs {label : Type} : List (Node label × Node label) → List (label × Node label)
  | [] => []
  | (key, value) :: rest => labelled key ++ labelled value ++ labelledPairs rest

end

end Node

end TypedWrappers.Yaml

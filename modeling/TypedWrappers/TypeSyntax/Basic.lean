import TypedWrappers.QualifiedName

/-!
# Type syntax

The structure of a type as it is written in source: a name, type arguments and trailing marks.

- `TypeSyntax`: the tree; `TypeMark`: a nullable or array mark;
- `TypeSyntax.text`: the normal spelling, with a comma and a space between arguments and no other blanks;
- `TypeSyntax.names`: the names in a tree;
- `isTypeName`: which words name a type;
- `TypeSyntax.baseName`, `TypeSyntax.simpleName`: the name without the alias `global::`, and its last part.
-/

namespace TypedWrappers

open Text

/-- A mark after a type: nullable, or an array whose rank is one more than its commas. -/
inductive TypeMark
  | nullable
  | array (commas : Nat)
  deriving Repr, DecidableEq

/-- The spelling of a mark. -/
def TypeMark.text : TypeMark → String
  | nullable => "?"
  | array commas => "[" ++ String.ofList (List.replicate commas ',') ++ "]"

/-- The spelling of a sequence of marks. -/
def TypeMark.textAll (marks : List TypeMark) : String :=
  String.join (marks.map text)

/-- A type as written: its name, its type arguments and its marks. -/
structure TypeSyntax where
  /-- The name, possibly with dots and with the alias in front. -/
  name : String
  /-- The type arguments, none for a plain type. -/
  arguments : List TypeSyntax
  /-- The marks behind the arguments. -/
  marks : List TypeMark
  deriving Repr, BEq, Inhabited

namespace TypeSyntax

/-- The alias of the global namespace, as it stands in front of a name. -/
def globalAlias : String := "global::"

/-- The name without the alias of the global namespace. -/
def baseName (t : TypeSyntax) : String :=
  (afterPrefix? globalAlias t.name).getD t.name

/-- The last part of the name. -/
def simpleName (t : TypeSyntax) : String :=
  TypedWrappers.simpleName t.baseName

/-- Whether the type has arguments. -/
def isGeneric (t : TypeSyntax) : Bool :=
  !t.arguments.isEmpty

/-- The spelling of all marks. -/
def suffix (t : TypeSyntax) : String :=
  TypeMark.textAll t.marks

mutual

/-- The normal spelling of a type. -/
def text : TypeSyntax → String
  | ⟨name, arguments, marks⟩ => name ++ argumentsText arguments ++ TypeMark.textAll marks

/-- The arguments in angle brackets; nothing when there are none. -/
def argumentsText : List TypeSyntax → String
  | [] => ""
  | t :: rest => "<" ++ text t ++ restText rest

/-- The arguments after the first, and the closing bracket. -/
def restText : List TypeSyntax → String
  | [] => ">"
  | t :: rest => ", " ++ text t ++ restText rest

end

mutual

/-- The names in a tree, at any depth. -/
def names : TypeSyntax → List String
  | ⟨name, arguments, _⟩ => name :: allNames arguments

/-- The names in several trees. -/
def allNames : List TypeSyntax → List String
  | [] => []
  | t :: rest => names t ++ allNames rest

end

/-! ## Equality of trees -/

mutual

/-- Decides whether two trees are the same. -/
def decEq : (a b : TypeSyntax) → Decidable (a = b)
  | ⟨name, arguments, marks⟩, ⟨name', arguments', marks'⟩ =>
    if hn : name = name' then
      if hm : marks = marks' then
        match decEqAll arguments arguments' with
        | isTrue ha => isTrue (by rw [hn, hm, ha])
        | isFalse ha => isFalse fun e => ha (TypeSyntax.mk.inj e).2.1
      else isFalse fun e => hm (TypeSyntax.mk.inj e).2.2
    else isFalse fun e => hn (TypeSyntax.mk.inj e).1

/-- Decides whether two lists of trees are the same. -/
def decEqAll : (as bs : List TypeSyntax) → Decidable (as = bs)
  | [], [] => isTrue rfl
  | [], _ :: _ => isFalse nofun
  | _ :: _, [] => isFalse nofun
  | a :: as, b :: bs =>
    match decEq a b, decEqAll as bs with
    | isTrue ha, isTrue hs => isTrue (by rw [ha, hs])
    | isFalse ha, _ => isFalse fun e => ha (List.cons.inj e).1
    | _, isFalse hs => isFalse fun e => hs (List.cons.inj e).2

end

instance : DecidableEq TypeSyntax := decEq

end TypeSyntax

/-! ## Names of types -/

/-- Whether a character may start an identifier: an ASCII letter or an underscore. -/
def isIdentifierStart (c : Char) : Bool :=
  c.isAlpha || c = '_'

/-- Whether a character may continue an identifier: an ASCII letter, a digit or an underscore. -/
def isIdentifierPart (c : Char) : Bool :=
  c.isAlphanum || c = '_'

/-- An identifier of ASCII letters, digits and underscores that does not start with a digit. -/
def isIdentifier : List Char → Bool
  | [] => false
  | c :: cs => isIdentifierStart c && cs.all isIdentifierPart

/-- One part of a type name: an identifier, with or without an at-sign in front. -/
def isNamePart : List Char → Bool
  | '@' :: cs => isIdentifier cs
  | cs => isIdentifier cs

/-- Parts with dots between them. -/
def isDottedName (cs : List Char) : Bool :=
  (segments '.' cs).all isNamePart

/-- A type name: parts with dots between them, with or without the global alias in front. -/
def isTypeName (name : String) : Bool :=
  isDottedName ((stripPrefix? TypeSyntax.globalAlias.toList name.toList).getD name.toList)

end TypedWrappers

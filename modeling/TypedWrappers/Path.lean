import TypedWrappers.Text.Split

/-!
# Paths

A path is kept as it is written, and read as a sequence of components. Empty pieces between slashes do not count, nor
does a dot, except in front of a relative path.

- `Path.components`: the components; `Path.compare`: the order of paths, component by component;
- `Path.join`, `parent?`, `ancestors`: paths from paths;
- `fileName?`, `fileStem?`, `extension?`: the last component and its parts;
- `isPlainFileName`: whether a text is one name and nothing else, so that it stays inside the directory that it is
  joined to.
-/

namespace TypedWrappers

open Text

/-- A path as written. -/
structure Path where
  /-- The text of the path. -/
  text : String
  deriving Repr, DecidableEq, Inhabited

/-- A component of a path. -/
inductive PathComponent
  | root
  | current
  | up
  | named (name : String)
  deriving Repr, DecidableEq

/-- The place of a kind of component in the order. -/
def PathComponent.rank : PathComponent → Nat
  | root => 0
  | current => 1
  | up => 2
  | named _ => 3

/-- The name in a component; empty where there is none. -/
def PathComponent.name : PathComponent → String
  | named name => name
  | _ => ""

/-- The order of components: the root, dots, and then names. -/
def PathComponent.compare : PathComponent → PathComponent → Ordering :=
  compareLex (compareOn rank) (compareOn name)

namespace Path

/-- Whether the path starts at the root. -/
def isAbsolute (p : Path) : Bool :=
  p.text.toList.head? = some '/'

/-- Whether there is a null character in the path, which no file system takes. -/
def hasNull (p : Path) : Bool :=
  p.text.toList.contains '\x00'

/-- The path without slashes at its end. -/
def withoutTrailingSlashes (p : Path) : Path :=
  ⟨String.ofList (p.text.toList.reverse.dropWhile (· = '/')).reverse⟩

/-- The pieces between slashes. -/
def pieces (p : Path) : List (List Char) :=
  segments '/' p.text.toList

/-- The component that a piece is; a dot is one only in front. -/
def componentOf (first : Bool) (piece : List Char) : Option PathComponent :=
  if piece = [] then none
  else if piece = ['.'] then if first then some .current else none
  else if piece = ['.', '.'] then some .up
  else some (.named (String.ofList piece))

/-- The pieces, each with the component that it is. -/
def markedPieces (p : Path) : List (List Char × Option PathComponent) :=
  match p.pieces with
  | [] => []
  | first :: rest => (first, componentOf true first) :: rest.map fun piece => (piece, componentOf false piece)

/-- The components of a path. -/
def components (p : Path) : List PathComponent :=
  (if p.isAbsolute then [.root] else []) ++ p.markedPieces.filterMap Prod.snd

/-- The order of paths, component by component. -/
def compare (a b : Path) : Ordering :=
  List.compareLex PathComponent.compare a.components b.components

/-- A path below another: an absolute one stands alone. -/
def join (base : Path) (path : String) : Path :=
  if (Path.mk path).isAbsolute || base.text = "" then ⟨path⟩
  else if base.text.toList.getLast? = some '/' then ⟨base.text ++ path⟩
  else ⟨base.text ++ "/" ++ path⟩

/-- The path without its last component; none where there is no component to leave out. -/
def parent? (p : Path) : Option Path :=
  match p.markedPieces.reverse.dropWhile (·.2.isNone) with
  | [] => none
  | _ :: before =>
    match (before.dropWhile (·.2.isNone)).reverse with
    | [] => some ⟨if p.isAbsolute then "/" else ""⟩
    | kept => some ⟨String.ofList (['/'].intercalate (kept.map Prod.fst))⟩

/-- The paths from a path up, at most `fuel` of them, without empty ones. -/
def ancestorsWithin : (fuel : Nat) → Path → List Path
  | 0, _ => []
  | fuel + 1, p =>
    if p.text = "" then []
    else
      p :: match p.parent? with
        | some parent => ancestorsWithin fuel parent
        | none => []

/-- The path and those above it, the longest first. -/
def ancestors (p : Path) : List Path :=
  ancestorsWithin (p.components.length + 1) p

/-- The name that the path ends in. -/
def fileName? (p : Path) : Option String :=
  match p.components.getLast? with
  | some (.named name) => some name
  | _ => none

/-- The name without the extension. A dot in front of a name starts no extension. -/
def fileStem? (p : Path) : Option String :=
  p.fileName?.map fun name =>
    match cutLast '.' name.toList with
    | some ([], _) => name
    | some (stem, _) => String.ofList stem
    | none => name

/-- What follows the last dot of the name. A dot in front of a name starts no extension. -/
def extension? (p : Path) : Option String :=
  p.fileName?.bind fun name =>
    match cutLast '.' name.toList with
    | some ([], _) => none
    | some (_, extension) => some (String.ofList extension)
    | none => none

end Path

/-- Whether a text is one name: no dots alone, and no slash of either kind. -/
def isPlainFileName (name : String) : Bool :=
  match (Path.mk name).components with
  | [.named _] => !name.toList.contains '/' && !name.toList.contains '\\'
  | _ => false

end TypedWrappers

import TypedWrappers.NameSet

/-!
# Generated files

A generated file in parts, ready to be written out, and its text: the banner, the imports, and one class in one
namespace, its members apart by empty lines.
-/

namespace TypedWrappers

/-- A generated file: one class in one namespace. -/
structure FileModel where
  /-- The comment at the top. -/
  banner : String
  /-- The imported namespaces. -/
  imports : NameSet
  /-- The namespace of the class. -/
  ns : String
  /-- The attributes above the class, one a line. -/
  classAttributes : List String
  /-- The line that declares the class. -/
  declaration : String
  /-- The members of the class as their lines. -/
  members : List (List String)
  deriving DecidableEq, Inhabited

namespace FileModel

/-- A line with its line break. -/
def line (text : String) : String :=
  text ++ "\n"

/-- The lines that import namespaces, with an empty line behind them if there are any. -/
def importLines (names : List String) : List String :=
  if names = [] then [] else names.map (fun name => "using " ++ name ++ ";") ++ [""]

/-- The lines of members, an empty line between neighbours. -/
def memberLines : List (List String) → List String
  | [] => []
  | [member] => member.map ("        " ++ ·)
  | member :: next :: rest => member.map ("        " ++ ·) ++ "" :: memberLines (next :: rest)

/-- The lines of the file below the banner. -/
def lines (file : FileModel) : List String :=
  importLines file.imports.toList ++ ["namespace " ++ file.ns, "\x7b"] ++ file.classAttributes.map ("    " ++ ·) ++
    ["    " ++ file.declaration, "    \x7b"] ++ memberLines file.members ++ ["    \x7d", "\x7d"]

/-- The text of the file. -/
def text (file : FileModel) : String :=
  file.banner ++ "\n\n" ++ String.join (file.lines.map line)

end FileModel

end TypedWrappers

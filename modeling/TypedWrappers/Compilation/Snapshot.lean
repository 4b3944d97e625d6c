import TypedWrappers.Compilation.Basic
import TypedWrappers.Json.Reader
import TypedWrappers.Yaml.Document

/-!
# Snapshots

The text form of a compilation, in JSON or in YAML.

- `Compilation.read`: the fields of each record and the values they have when they are missing, for any format;
- `Compilation.ofJson?`, `Compilation.toJson`: reading and writing JSON values;
- `Compilation.ofText?`: reading a snapshot's text.
-/

namespace TypedWrappers

/-- The text formats of a snapshot. -/
inductive SnapshotFormat
  | yaml
  | json
  deriving Repr, DecidableEq

/-- The names of the kinds of types. -/
def TypeKind.name : TypeKind → String
  | .classType => "class"
  | .recordType => "record"
  | .structType => "struct"
  | .interfaceType => "interface"

/-- The kind of type with a name. -/
def TypeKind.named? (name : String) : Option TypeKind :=
  [TypeKind.classType, .recordType, .structType, .interfaceType].find? (·.name = name)

/-- The names of the kinds of members. -/
def MemberKind.name : MemberKind → String
  | .method => "method"
  | .constructor => "constructor"
  | .property => "property"

/-- The kind of member with a name. -/
def MemberKind.named? (name : String) : Option MemberKind :=
  [MemberKind.method, .constructor, .property].find? (·.name = name)

/-! ## Reading -/

section Reading

variable {value : Type} {m : Type → Type} [Monad m]

/-- Reads a parameter. -/
def ParameterDecl.read (f : RecordFormat value m) (v : value) : m ParameterDecl := do
  let field ← f.record ["name", "type"] v
  let name ← f.required f.string (field "name")
  let type ← f.required f.string (field "type")
  pure { name, type }

/-- Reads a member: a method without result unless it says otherwise. -/
def MemberDecl.read (f : RecordFormat value m) (v : value) : m MemberDecl := do
  let field ← f.record ["name", "kind", "static", "attributes", "returns", "parameters"] v
  let name ← f.required f.string (field "name")
  let kind ← RecordFormat.optional .method (f.choice MemberKind.named?) (field "kind")
  let isStatic ← RecordFormat.optional false f.bool (field "static")
  let attributes ← RecordFormat.optional [] (f.list f.string) (field "attributes")
  let returns ← RecordFormat.optional "void" f.string (field "returns")
  let parameters ← RecordFormat.optional [] (f.list (ParameterDecl.read f)) (field "parameters")
  pure { name, kind, isStatic, attributes, returns, parameters }

/-- Reads a type: a class unless it says otherwise. -/
def TypeDecl.read (f : RecordFormat value m) (v : value) : m TypeDecl := do
  let field ← f.record ["name", "kind", "static", "attributes", "base_types", "members"] v
  let name ← f.required f.string (field "name")
  let kind ← RecordFormat.optional .classType (f.choice TypeKind.named?) (field "kind")
  let isStatic ← RecordFormat.optional false f.bool (field "static")
  let attributes ← RecordFormat.optional [] (f.list f.string) (field "attributes")
  let baseTypes ← RecordFormat.optional [] (f.list f.string) (field "base_types")
  let members ← RecordFormat.optional [] (f.list (MemberDecl.read f)) (field "members")
  pure { name, kind, isStatic, attributes, baseTypes, members }

/-- Reads a source file, in the global namespace unless it says otherwise. -/
def SourceFile.read (f : RecordFormat value m) (v : value) : m SourceFile := do
  let field ← f.record ["path", "namespace", "usings", "types"] v
  let path ← f.required f.string (field "path")
  let ns ← RecordFormat.optional none (f.nullable f.string) (field "namespace")
  let usings ← RecordFormat.optional [] (f.list f.string) (field "usings")
  let types ← RecordFormat.optional [] (f.list (TypeDecl.read f)) (field "types")
  pure { path, ns, usings, types }

/-- Reads a compilation, every part of which may be missing. -/
def Compilation.read (f : RecordFormat value m) (v : value) : m Compilation := do
  let field ← f.record ["name", "references", "files"] v
  let name ← RecordFormat.optional "" f.string (field "name")
  let references ← RecordFormat.optional [] (f.list f.string) (field "references")
  let files ← RecordFormat.optional [] (f.list (SourceFile.read f)) (field "files")
  pure { name, references, files }

end Reading

/-- The compilation that a JSON value describes. -/
def Compilation.ofJson? (v : Json) : Option Compilation :=
  Compilation.read Json.format v

/-- The compilation that a snapshot describes. -/
def Compilation.ofText? (format : SnapshotFormat) (s : String) : Option Compilation :=
  match format with
  | .json => (Json.parse? s).bind Compilation.ofJson?
  | .yaml => (Yaml.Document.parse? s).bind fun document => document.read? (Compilation.read Yaml.format)

/-! ## Writing -/

/-- A list of texts as a JSON value. -/
def Json.ofStrings (items : List String) : Json :=
  .array (items.map .string)

/-- A text or null as a JSON value. -/
def Json.ofOptional (item : Option String) : Json :=
  (item.map .string).getD .null

/-- A parameter as a JSON value. -/
def ParameterDecl.toJson (p : ParameterDecl) : Json :=
  .object [("name", .string p.name), ("type", .string p.type)]

/-- A member as a JSON value. -/
def MemberDecl.toJson (d : MemberDecl) : Json :=
  .object [("name", .string d.name), ("kind", .string d.kind.name), ("static", .bool d.isStatic),
    ("attributes", .ofStrings d.attributes), ("returns", .string d.returns),
    ("parameters", .array (d.parameters.map ParameterDecl.toJson))]

/-- A type declaration as a JSON value. -/
def TypeDecl.toJson (d : TypeDecl) : Json :=
  .object [("name", .string d.name), ("kind", .string d.kind.name), ("static", .bool d.isStatic),
    ("attributes", .ofStrings d.attributes), ("base_types", .ofStrings d.baseTypes),
    ("members", .array (d.members.map MemberDecl.toJson))]

/-- A source file as a JSON value. -/
def SourceFile.toJson (f : SourceFile) : Json :=
  .object [("path", .string f.path), ("namespace", .ofOptional f.ns), ("usings", .ofStrings f.usings),
    ("types", .array (f.types.map TypeDecl.toJson))]

/-- A compilation as a JSON value, every field of it written. -/
def Compilation.toJson (c : Compilation) : Json :=
  .object [("name", .string c.name), ("references", .ofStrings c.references),
    ("files", .array (c.files.map SourceFile.toJson))]

end TypedWrappers

/-!
# Compilations

A compilation as its host reports it: the full names of library types that it refers to, and source files with the
types and members they declare. All type and attribute texts are kept as written.

- `Compilation`, `SourceFile`, `TypeDecl`, `MemberDecl`, `ParameterDecl`: the tree;
- `Scope`: what decides the meaning of a name in a file, its namespace and its imports.
-/

namespace TypedWrappers

/-- The kind of a type declaration. -/
inductive TypeKind
  | classType
  | recordType
  | structType
  | interfaceType
  deriving Repr, DecidableEq, Inhabited

/-- The kind of a member. -/
inductive MemberKind
  | method
  | constructor
  | property
  deriving Repr, DecidableEq, Inhabited

/-- A parameter of a member. -/
structure ParameterDecl where
  /-- The name of the parameter. -/
  name : String
  /-- The type as written. -/
  type : String
  deriving Repr, DecidableEq, Inhabited

/-- A member of a type. -/
structure MemberDecl where
  /-- The name of the member. -/
  name : String
  /-- Its kind. -/
  kind : MemberKind
  /-- Whether it is declared static. -/
  isStatic : Bool
  /-- The attributes as written. -/
  attributes : List String
  /-- The return type as written. -/
  returns : String
  /-- The parameters in order. -/
  parameters : List ParameterDecl
  deriving Repr, DecidableEq, Inhabited

/-- A type declaration, or one part of a type declared in parts. -/
structure TypeDecl where
  /-- The simple name of the type. -/
  name : String
  /-- Its kind. -/
  kind : TypeKind
  /-- Whether it is declared static. -/
  isStatic : Bool
  /-- The attributes as written. -/
  attributes : List String
  /-- The base types as written. -/
  baseTypes : List String
  /-- The members in order. -/
  members : List MemberDecl
  deriving Repr, DecidableEq, Inhabited

/-- A source file. -/
structure SourceFile where
  /-- The path of the file, which shows whether it is generated. -/
  path : String
  /-- The namespace that the file declares its types in; none for the global one. -/
  ns : Option String
  /-- The namespaces that the file imports. -/
  usings : List String
  /-- The types declared in the file. -/
  types : List TypeDecl
  deriving Repr, DecidableEq, Inhabited

/-- A compilation. -/
structure Compilation where
  /-- The name of the compilation. -/
  name : String
  /-- The full names of library types. -/
  references : List String
  /-- The source files. -/
  files : List SourceFile
  deriving Repr, DecidableEq, Inhabited

/-- A compilation with a name and nothing in it. -/
def Compilation.empty (name : String) : Compilation :=
  ⟨name, [], []⟩

/-- What names mean in a place: the namespace around it and the imports of its file. -/
structure Scope where
  /-- The namespace; none for the global one. -/
  ns : Option String
  /-- The imported namespaces as written. -/
  usings : List String
  deriving Repr, DecidableEq, Inhabited

/-- The scope of the declarations of a file. -/
def SourceFile.scope (file : SourceFile) : Scope :=
  ⟨file.ns, file.usings⟩

end TypedWrappers

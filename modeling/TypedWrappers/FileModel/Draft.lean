import TypedWrappers.FileModel.Basic

/-!
# Drafts of generated files

A file described by its class and the methods and properties in it, and how a draft becomes a file: `FileDraft.build`
checks names and writes declarations out. The first fault counts: a missing namespace, a missing class name, then the
faults of the members in order.

- `MethodDraft`, `PropertyDraft`, `ClassDraft`, `FileDraft`: the parts of a draft;
- `GenerationError`: what can be wrong with a draft, or keep a file from being written.
-/

namespace TypedWrappers

/-- Why a file cannot be generated. -/
inductive GenerationError
  | noNamespace
  | noClassName
  | incompleteMethod (method : String)
  | repeatedParameter (method parameter : String)
  | noPropertyName
  /-- The file could not be written out. -/
  | refused (reason : String)
  deriving Repr, DecidableEq

/-- What is wrong, in words. -/
def GenerationError.message : GenerationError → String
  | noNamespace => "generated files need a namespace"
  | noClassName => "generated classes need a name"
  | incompleteMethod method => "method '" ++ method ++ "' needs a name and a return type"
  | repeatedParameter method parameter => "method '" ++ method ++ "' declares parameter '" ++ parameter ++ "' twice"
  | noPropertyName => "properties need a name"
  | refused reason => reason

/-- A method with its statements. -/
structure MethodDraft where
  /-- The name. -/
  name : String
  /-- The return type. -/
  returns : String
  /-- Whether the method is public. -/
  isPublic : Bool := false
  /-- Whether the method is static. -/
  isStatic : Bool := false
  /-- The attributes with their brackets, one a line. -/
  attributes : List String := []
  /-- The parameters in order, each a type and a name. -/
  parameters : List (String × String) := []
  /-- The statements of the body. -/
  body : List String := []
  deriving Repr, DecidableEq

/-- A property with a getter and an initial value. -/
structure PropertyDraft where
  /-- The name. -/
  name : String
  /-- The type. -/
  type : String
  /-- The expression for the initial value. -/
  initializer : String
  deriving Repr, DecidableEq

/-- A member of a class. -/
inductive MemberDraft
  | method (draft : MethodDraft)
  | property (draft : PropertyDraft)
  deriving Repr, DecidableEq

/-- A class. -/
structure ClassDraft where
  /-- The name. -/
  name : String
  /-- The line that declares the class, where it is not made of the name and the modifiers. -/
  declaration : Option String := none
  /-- Whether the class is public. -/
  isPublic : Bool := false
  /-- Whether the class is static. -/
  isStatic : Bool := false
  /-- Whether the class is partial. -/
  isPartial : Bool := false
  /-- The attributes with their brackets, one a line. -/
  attributes : List String := []
  /-- The members in order. -/
  members : List MemberDraft := []
  deriving Repr, DecidableEq

/-- A file. -/
structure FileDraft where
  /-- The comment at the top. -/
  banner : String := ""
  /-- The namespace of the class. -/
  ns : String
  /-- The namespaces to import, in any order and any number of times. -/
  imports : List String := []
  deriving Repr, DecidableEq

/-! ## Members -/

/-- The earliest name that equals one in front of it or one of `seen`. -/
def firstRepeat? (seen : List String) : List String → Option String
  | [] => none
  | name :: rest => if name ∈ seen then some name else firstRepeat? (name :: seen) rest

/-- The modifier where it is set. -/
def modifier (isSet : Bool) (word : String) : List String :=
  if isSet then [word] else []

namespace MethodDraft

/-- The line with the name and the parameters. -/
def signature (m : MethodDraft) : String :=
  let parameters := ", ".intercalate (m.parameters.map fun (type, name) => type ++ " " ++ name)
  " ".intercalate
    (modifier m.isPublic "public" ++ modifier m.isStatic "static" ++
      [m.returns ++ " " ++ m.name ++ "(" ++ parameters ++ ")"])

/-- The lines of the method. -/
def lines (m : MethodDraft) : Except GenerationError (List String) :=
  if m.name = "" ∨ m.returns = "" then .error (.incompleteMethod m.name)
  else
    match firstRepeat? [] (m.parameters.map Prod.snd) with
    | some name => .error (.repeatedParameter m.name name)
    | none => .ok (m.attributes ++ [m.signature, "\x7b"] ++ m.body.map ("    " ++ ·) ++ ["\x7d"])

end MethodDraft

/-- The line of the property. -/
def PropertyDraft.lines (p : PropertyDraft) : Except GenerationError (List String) :=
  if p.name = "" then .error .noPropertyName
  else .ok ["public " ++ p.type ++ " " ++ p.name ++ " \x7b get; \x7d = " ++ p.initializer ++ ";"]

/-- The lines of a member. -/
def MemberDraft.lines : MemberDraft → Except GenerationError (List String)
  | method m => m.lines
  | property p => p.lines

/-! ## Classes and files -/

/-- The line that declares the class. -/
def ClassDraft.declarationLine (c : ClassDraft) : Except GenerationError String :=
  if c.name = "" then .error .noClassName
  else
    .ok <| c.declaration.getD <| " ".intercalate <|
      modifier c.isPublic "public" ++ modifier c.isStatic "static" ++ modifier c.isPartial "partial" ++
        ["class", c.name]

/-- The imports of the file: those that are named, but not the namespace of the file. -/
def FileDraft.importSet (f : FileDraft) : NameSet :=
  .ofList (f.imports.filter fun name => name ≠ "" && name ≠ f.ns)

/-- The file with its class. -/
def FileDraft.build (f : FileDraft) (c : ClassDraft) : Except GenerationError FileModel := do
  if f.ns = "" then throw .noNamespace
  let declaration ← c.declarationLine
  let members ← c.members.mapM MemberDraft.lines
  pure
    { banner := f.banner, imports := f.importSet, ns := f.ns, classAttributes := c.attributes, declaration, members }

end TypedWrappers

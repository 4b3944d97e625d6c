import TypedWrappers.FileModel.Draft

/-!
# Drafts step by step

A draft starts with the names that it cannot do without and grows by one step at a time.

- `MethodStep`, `ClassStep`, `FileStep`: the steps;
- `MethodDraft.describe`, `ClassDraft.describe`, `FileDraft.describe`: the draft behind a sequence of steps;
- `buildFile`: the file of two such drafts.
-/

namespace TypedWrappers

/-! ## Methods -/

/-- A step in the description of a method. -/
inductive MethodStep
  | makePublic
  | makeStatic
  | addAttribute (text : String)
  | addParameter (type name : String)
  | addStatement (statement : String)
  deriving Repr, DecidableEq

/-- The names of the parameters that a step adds. -/
def MethodStep.parameterNames : MethodStep → List String
  | addParameter _ name => [name]
  | _ => []

/-- The method behind one more step. -/
def MethodDraft.step (m : MethodDraft) : MethodStep → MethodDraft
  | .makePublic => { m with isPublic := true }
  | .makeStatic => { m with isStatic := true }
  | .addAttribute text => { m with attributes := m.attributes ++ [text] }
  | .addParameter type name => { m with parameters := m.parameters ++ [(type, name)] }
  | .addStatement statement => { m with body := m.body ++ [statement] }

/-- The method that steps lead to from its name and its return type. -/
def MethodDraft.describe (name returns : String) (steps : List MethodStep) : MethodDraft :=
  steps.foldl MethodDraft.step { name, returns }

/-! ## Classes -/

/-- A step in the description of a class. -/
inductive ClassStep
  | makePublic
  | makeStatic
  | makePartial
  | addAttribute (text : String)
  | addMethod (name returns : String) (steps : List MethodStep)
  | addProperty (name type initializer : String)
  deriving Repr, DecidableEq

/-- The members that a step adds. -/
def ClassStep.members : ClassStep → List MemberDraft
  | addMethod name returns steps => [.method (.describe name returns steps)]
  | addProperty name type initializer => [.property { name, type, initializer }]
  | _ => []

/-- The class behind one more step. -/
def ClassDraft.step (c : ClassDraft) : ClassStep → ClassDraft
  | .makePublic => { c with isPublic := true }
  | .makeStatic => { c with isStatic := true }
  | .makePartial => { c with isPartial := true }
  | .addAttribute text => { c with attributes := c.attributes ++ [text] }
  | .addMethod name returns steps => { c with members := c.members ++ [.method (.describe name returns steps)] }
  | .addProperty name type initializer => { c with members := c.members ++ [.property { name, type, initializer }] }

/-- The class that steps lead to from its name, and from the line that declares it where that is given. -/
def ClassDraft.describe (name : String) (declaration : Option String) (steps : List ClassStep) : ClassDraft :=
  steps.foldl ClassDraft.step { name, declaration }

/-! ## Files -/

/-- A step in the description of a file. -/
inductive FileStep
  | setBanner (banner : String)
  | addImport (name : String)
  | addImports (names : List String)
  deriving Repr, DecidableEq

/-- The namespaces that a step adds. -/
def FileStep.imports : FileStep → List String
  | setBanner _ => []
  | addImport name => [name]
  | addImports names => names

/-- The file with one more import. An empty name is ignored, and so is the namespace of the file. -/
def FileDraft.addImport (f : FileDraft) (name : String) : FileDraft :=
  if name ≠ "" ∧ name ≠ f.ns then { f with imports := f.imports ++ [name] } else f

/-- The file behind one more step. -/
def FileDraft.step (f : FileDraft) : FileStep → FileDraft
  | .setBanner banner => { f with banner }
  | .addImport name => f.addImport name
  | .addImports names => names.foldl FileDraft.addImport f

/-- The file that steps lead to from its namespace. -/
def FileDraft.describe (ns : String) (steps : List FileStep) : FileDraft :=
  steps.foldl FileDraft.step { ns }

/-- The file with its class, both described step by step. -/
def buildFile (ns : String) (fileSteps : List FileStep) (className : String) (declaration : Option String)
    (classSteps : List ClassStep) : Except GenerationError FileModel :=
  (FileDraft.describe ns fileSteps).build (ClassDraft.describe className declaration classSteps)

end TypedWrappers

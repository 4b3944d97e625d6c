import TypedWrappers.Log
import TypedWrappers.Pass.Basic

/-!
# What a pass tells on the way

The events of a pass, in order: each ambiguous name every time that it is looked up, each declaration that is passed
over, then the findings and a summary. The events are apart from the results: each function here goes the way of the
function whose events it gives and looks up its results there.

- `Pass.events`: the events of a whole pass.
-/

namespace TypedWrappers

open Text

/-- The events of each item, up to the first item that ends the search. -/
def eventsUntil {α : Type} (found : α → Bool) (events : α → List Event) : List α → List Event
  | [] => []
  | a :: rest => events a ++ if found a then [] else eventsUntil found events rest

namespace SymbolTable

/-- A name without dots that no enclosing namespace has and two imports provide is told to be ambiguous. -/
def resolveEvents (table : SymbolTable) (scope : Scope) (written : String) : List Event :=
  let name := trim written
  if (afterPrefix? TypeSyntax.globalAlias name).isSome || isKeyword name || isDotted name then []
  else if ((enclosingCandidates scope name).find? table.contains).isSome then []
  else
    match table.imported scope name with
    | first :: second :: _ => [.debug ("'" ++ name ++ "' is ambiguous between " ++ first ++ " and " ++ second)]
    | _ => []

/-- The events of looking up an attribute under each of its names. -/
def attributeEvents (table : SymbolTable) (scope : Scope) (written : String) : List Event :=
  let name := attributeName written
  if name = "" then []
  else
    let completed :=
      table.resolveEvents scope (name ++ attributeEnding) ++
        if (table.resolve? scope (name ++ attributeEnding)).isSome then [] else table.resolveEvents scope name
    if endsWith name attributeEnding then
      table.resolveEvents scope name ++ if (table.resolve? scope name).isSome then [] else completed
    else completed

/-- The events of looking for an attribute among several. -/
def markerEvents (table : SymbolTable) (scope : Scope) (attributes : List String) (marker : String) : List Event :=
  eventsUntil (table.isMarker scope marker) (table.attributeEvents scope) attributes

mutual

/-- The events of describing a type: those of its arguments first. -/
def describeEvents (table : SymbolTable) (scope : Scope) : TypeSyntax → List Event
  | ⟨name, arguments, marks⟩ =>
    describeAllEvents table scope arguments ++
      if isKeyword (TypeSyntax.baseName ⟨name, arguments, marks⟩) then [] else table.resolveEvents scope name

/-- The events of describing several types. -/
def describeAllEvents (table : SymbolTable) (scope : Scope) : List TypeSyntax → List Event
  | [] => []
  | t :: rest => describeEvents table scope t ++ describeAllEvents table scope rest

end

/-- The events of describing a text. -/
def describeTextEvents (table : SymbolTable) (scope : Scope) (text : String) : List Event :=
  match TypeSyntax.parse? text with
  | some t => table.describeEvents scope t
  | none => []

/-- The events of classifying a return type. -/
def returnEvents (table : SymbolTable) (scope : Scope) (task : TaskType) (text : String) : List Event :=
  match TypeSyntax.parse? text with
  | none => []
  | some t =>
    if t.baseName = "void" ∧ t.marks = [] then []
    else
      (if t.marks = [] then table.resolveEvents scope t.name else []) ++
        if t.marks = [] ∧ table.resolve? scope t.name = some task.fullName then
          match t.arguments with
          | [] => []
          | [result] => table.describeEvents scope result
          | _ => table.describeEvents scope t
        else table.describeEvents scope t

end SymbolTable

/-- The events of describing a method, which may turn out not to be well formed. -/
def Member.describeEvents (table : SymbolTable) (task : TaskType) (method : Member) : List Event :=
  let d := method.description table task
  method.decl.parameters.flatMap (fun p => table.describeTextEvents method.scope p.type) ++
    table.returnEvents method.scope task method.decl.returns ++
    if d.WellFormed then [] else [.debug ("Skipping malformed declaration '" ++ d.typeName ++ "." ++ d.name ++ "'")]

/-- The events of testing whether a member is a method with an attribute. -/
def Member.markedEvents (table : SymbolTable) (marker : String) (m : Member) : List Event :=
  if m.decl.kind = .method then table.markerEvents m.scope m.decl.attributes marker else []

/-- The events of looking for a part with an attribute. -/
def TypePart.markedEvents (table : SymbolTable) (marker : String) (parts : List TypePart) : List Event :=
  eventsUntil (·.isMarked table marker) (fun part => table.markerEvents part.scope part.decl.attributes marker) parts

/-- The events of describing a workflow. -/
def WorkflowTarget.events (target : WorkflowTarget) (task : TaskType) (table : SymbolTable) :
    Declaration → List Event
  | .member _ => []
  | .type part =>
    let parts := partsAround table part
    TypePart.markedEvents table target.marker parts ++
      if !target.isWorkflow table parts then []
      else
        (target.optInMarker.map fun marker => TypePart.markedEvents table marker parts).getD [] ++
          if !target.hasOptedIn table parts then
            [.debug ("Workflow '" ++ part.fullName ++ "' has not opted in, skipping")]
          else
            eventsUntil (·.isMarkedMethod table target.entryMarker) (·.markedEvents table target.entryMarker)
                (parts.flatMap TypePart.members) ++
              match target.entryPoint? table parts with
              | none => [.debug ("Workflow '" ++ part.fullName ++ "' has no entry point, skipping")]
              | some entry => entry.describeEvents table task

/-- The events of describing an activity. -/
def ActivityTarget.events (target : ActivityTarget) (task : TaskType) (table : SymbolTable) :
    Declaration → List Event
  | .type _ => []
  | .member m =>
    table.markerEvents m.scope m.decl.attributes target.marker ++
      if table.hasMarker m.scope m.decl.attributes target.marker then m.describeEvents table task else []

/-- The events of looking for the activities of a class. -/
def MockTarget.activityEvents (table : SymbolTable) (activityMarker : String) (task : TaskType)
    (parts : List TypePart) : List Event :=
  (parts.flatMap TypePart.members).flatMap fun m =>
    m.markedEvents table activityMarker ++
      if m.isMarkedMethod table activityMarker then m.describeEvents table task else []

/-- The events of looking up the class that a double stands for. -/
def MockTarget.targetEvents (target : MockTarget) (table : SymbolTable) (part : TypePart) : List Event :=
  match part.decl.baseTypes.head?.bind TypeSyntax.parse? with
  | none => []
  | some base =>
    table.resolveEvents part.scope base.name ++
      match target.baseArgument? table part with
      | none => []
      | some argument => table.resolveEvents part.scope argument.name

/-- The events of describing a double. -/
def MockTarget.events (target : MockTarget) (activityMarker : String) (task : TaskType) (table : SymbolTable) :
    Declaration → List Event
  | .member _ => []
  | .type part =>
    TypePart.markedEvents table target.marker (table.partsOf part.fullName ++ [part]) ++
      if !target.isDouble table part then []
      else if (namedNamespace? part.file.ns).isNone then
        [.debug ("Mock double '" ++ part.decl.name ++ "' is in the global namespace, skipping")]
      else
        target.targetEvents table part ++
          match target.targetName? table part with
          | none => []
          | some fullName =>
            match table.partsOf fullName with
            | [] =>
              [.debug ("Mock double '" ++ part.fullName ++ "' targets '" ++ fullName ++
                "' which is not declared in this compilation")]
            | parts => activityEvents table activityMarker task parts

namespace Pass

/-- The events of extracting the descriptors of one kind. -/
def extractorEvents {α : Type} (e : Extractor α) (events : Declaration → List Event) (ds : List Declaration) :
    List Event :=
  (ds.filter e.isCandidate).flatMap events

/-- The events of extraction. -/
def extractEvents (config : Config) (c : Compilation) : List Event :=
  let table := symbols config c
  let ds := scanned config c
  let marker := config.activities.marker
  (if table.contains config.workflows.marker then
      extractorEvents (config.workflows.extractor config.task) (config.workflows.events config.task table) ds
    else []) ++
    (if table.contains marker then
      extractorEvents (config.activities.extractor config.task) (config.activities.events config.task table) ds
    else []) ++
    extractorEvents (config.mocks.extractor marker config.task) (config.mocks.events marker config.task table) ds

/-- The summary of a pass. -/
def summary (c : Compilation) (model : ExtractedModel) (output : Output) : Event :=
  let count (found : Option (List Descriptor)) : String := toString ((found.getD []).length)
  .info ("Generated " ++ toString output.artifacts.size ++ " artifacts for '" ++ c.name ++ "' (" ++
    count model.workflows ++ " workflows, " ++ count model.activities ++ " activities, " ++
    toString model.doubles.length ++ " mock doubles)")

/-- The events of a pass. A pass that fails tells nothing after extraction. -/
def events (config : Config) (emit : Emitter) (c : Compilation) : List Event :=
  extractEvents config c ++
    match run config emit c with
    | .error _ => []
    | .ok output => output.diagnostics.map (.warn ·.text) ++ [summary c (extract config c) output]

end Pass

end TypedWrappers

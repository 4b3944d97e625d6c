import TypedWrappers.Compilation.Snapshot
import TypedWrappers.Pass.Basic

/-!
# Reports

What a pass finds and produces as JSON values.

- `Pass.report`: the report on a compilation: what was found, the names of the generated files and the diagnostics.
-/

namespace TypedWrappers

/-- A set of names as a JSON value, in increasing order. -/
def NameSet.toJson (names : NameSet) : Json :=
  .ofStrings names.toList

/-- A type as a JSON value. -/
def TypeReference.toJson (t : TypeReference) : Json :=
  .object [("display", .string t.display), ("qualified", .ofOptional t.qualified), ("namespace", .ofOptional t.ns),
    ("namespaces", t.namespaces.toJson)]

/-- What a method returns as a JSON value. -/
def ReturnShape.toJson : ReturnShape → Json
  | void => .object [("kind", .string "void")]
  | value type => .object [("kind", .string "value"), ("type", type.toJson)]
  | wrapped result =>
    .object [("kind", .string "wrapped"), ("type", (result.map TypeReference.toJson).getD .null)]

/-- A parameter as a JSON value; its namespace is left out where it is that of the class. -/
def Parameter.toJson (ns : Option String) (p : Parameter) : Json :=
  .object [("name", .string p.name), ("type_name", .string p.typeName),
    ("optional_namespace", .ofOptional (p.foreignNamespace? ns)), ("type", p.type.toJson)]

/-- A descriptor as a JSON value. -/
def Descriptor.toJson (d : Descriptor) : Json :=
  .object [("name", .string d.name), ("containing_type_name", .string d.typeName),
    ("containing_namespace", .ofOptional d.ns), ("is_static", .bool d.isStatic),
    ("parameters", .array (d.parameters.map (Parameter.toJson d.ns))), ("return_shape", d.returns.toJson)]

/-- A test double as a JSON value. -/
def DoubleDescriptor.toJson (d : DoubleDescriptor) : Json :=
  .object [("name", .string d.name), ("namespace", .string d.ns), ("target_name", .string d.targetName),
    ("target_namespace", .ofOptional d.targetNamespace), ("activities", .array (d.activities.map Descriptor.toJson))]

/-- What a pass finds as a JSON value. -/
def ExtractedModel.toJson (model : ExtractedModel) : Json :=
  let list (found : Option (List Descriptor)) : Json :=
    (found.map fun ds => Json.array (ds.map Descriptor.toJson)).getD .null
  .object [("workflows", list model.workflows), ("activities", list model.activities),
    ("mocks", .array (model.doubles.map DoubleDescriptor.toJson))]

/-- A diagnostic as a JSON value. -/
def Diagnostic.toJson (d : Diagnostic) : Json :=
  .object [("id", .string d.id), ("severity", .string d.severity.name), ("message", .string d.message)]

/-- The report on a compilation with a given output. -/
def Pass.report (config : Config) (c : Compilation) (output : Output) : Json :=
  .object [("compilation", .string c.name), ("model", (extract config c).toJson),
    ("artifacts", .ofStrings output.artifacts.fileNames),
    ("diagnostics", .array (output.diagnostics.map Diagnostic.toJson))]

end TypedWrappers

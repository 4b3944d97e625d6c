import TypedWrappers.Config
import TypedWrappers.Descriptor

/-!
# Describing methods

- `SymbolTable.returnShape`: what a declared return type says, tasks told apart by the full name of the type;
- `Member.describe?`: the descriptor of a method, if it is well formed;
- `Extractor`: how one kind of descriptor is found, in two steps: a test of the shape of a declaration alone, and the
  description, which needs the meaning of names.
-/

namespace TypedWrappers

/-- What a return type says. A task without arguments or with one is a task; with more, with marks or under another
full name it is a value like any other. -/
def SymbolTable.returnShape (table : SymbolTable) (scope : Scope) (task : TaskType) (text : String) : ReturnShape :=
  match TypeSyntax.parse? text with
  | none => .value (.literal text)
  | some t =>
    if t.baseName = "void" ∧ t.marks = [] then .void
    else if t.marks = [] ∧ table.resolve? scope t.name = some task.fullName then
      match t.arguments with
      | [] => .wrapped none
      | [result] => .wrapped (some (table.describe scope result))
      | _ => .value (table.describe scope t)
    else .value (table.describe scope t)

/-- A namespace, unless it is the global one. -/
def namedNamespace? (ns : Option String) : Option String :=
  ns.filter (· ≠ "")

/-- The global namespace adds nothing to a name, whether it is named or not. -/
theorem qualify_namedNamespace? (ns : Option String) (name : String) :
    qualify (namedNamespace? ns) name = qualify ns name := by
  cases ns with
  | none => rfl
  | some ns => by_cases h : ns = "" <;> simp [namedNamespace?, qualify, Option.filter, h]

/-- The description of a method, well formed or not. -/
def Member.description (table : SymbolTable) (task : TaskType) (method : Member) : Descriptor where
  name := Text.trim method.decl.name
  typeName := Text.trim method.owner.name
  ns := namedNamespace? method.file.ns
  isStatic := method.decl.isStatic || method.owner.isStatic
  parameters := method.decl.parameters.map fun p => ⟨Text.trim p.name, table.describeText method.scope p.type⟩
  returns := table.returnShape method.scope task method.decl.returns

/-- The descriptor of a method, if it is well formed. -/
def Member.describe? (table : SymbolTable) (task : TaskType) (method : Member) : Option Descriptor :=
  let d := method.description table task
  if d.WellFormed then some d else none

theorem Member.describe?_eq_some_iff {table : SymbolTable} {task : TaskType} {method : Member} {d : Descriptor} :
    method.describe? table task = some d ↔ method.description table task = d ∧ d.WellFormed := by
  unfold Member.describe?
  by_cases h : (method.description table task).WellFormed
  · rw [if_pos h, Option.some.injEq]
    exact ⟨fun e => ⟨e, e ▸ h⟩, fun e => e.1⟩
  · rw [if_neg h]
    exact ⟨fun e => (nomatch e), fun ⟨e, w⟩ => absurd (e ▸ w) h⟩

/-- The description of a member names its class, as long as no blank around the name of the class is cut off. -/
theorem TypePart.qualifiedTypeName_description {part : TypePart} {m : Member} (hm : m ∈ part.members)
    (trimmed : Text.trim part.decl.name = part.decl.name) (table : SymbolTable) (task : TaskType) :
    (m.description table task).qualifiedTypeName = part.fullName := by
  obtain ⟨decl, -, rfl⟩ := List.mem_map.1 hm
  rw [Descriptor.qualifiedTypeName, Member.description, trimmed, qualify_namedNamespace?, fullName]

/-- Whether a member is a method with the given attribute. -/
def Member.isMarkedMethod (table : SymbolTable) (marker : String) (m : Member) : Bool :=
  m.decl.kind = .method && table.hasMarker m.scope m.decl.attributes marker

/-- Whether a part of a type has the given attribute. -/
def TypePart.isMarked (table : SymbolTable) (marker : String) (part : TypePart) : Bool :=
  table.hasMarker part.scope part.decl.attributes marker

/-- How descriptors of one kind are found. -/
structure Extractor (α : Type) where
  /-- Whether the shape of a declaration allows a descriptor. -/
  isCandidate : Declaration → Bool
  /-- The descriptor of a declaration, if there is one. -/
  describe? : SymbolTable → Declaration → Option α

/-- The descriptors of all candidates, in order. -/
def Extractor.all {α : Type} (e : Extractor α) (table : SymbolTable) (ds : List Declaration) : List α :=
  (ds.filter e.isCandidate).filterMap (e.describe? table)

theorem Extractor.mem_all {α : Type} {e : Extractor α} {table : SymbolTable} {ds : List Declaration} {a : α} :
    a ∈ e.all table ds ↔ ∃ d ∈ ds, e.isCandidate d = true ∧ e.describe? table d = some a := by
  simp [Extractor.all, and_assoc]

end TypedWrappers

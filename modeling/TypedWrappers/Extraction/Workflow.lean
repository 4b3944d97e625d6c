import TypedWrappers.Extraction.Method

/-!
# Finding workflows

A workflow is a class with the workflow attribute and, where the target asks for one, the attribute by which it opts
in; both may stand on any part of the class. It is described by its entry point: the first method, part by part, with
the entry attribute.
-/

namespace TypedWrappers

namespace WorkflowTarget

/-- The shape of a workflow: a class with attributes. -/
def isCandidate : Declaration → Bool
  | .type part => part.decl.kind = .classType && !part.decl.attributes.isEmpty
  | .member _ => false

theorem isCandidate_type {part : TypePart} :
    isCandidate (.type part) = true ↔ part.decl.kind = .classType ∧ part.decl.attributes ≠ [] := by
  simp [isCandidate]

/-- The parts of a type, or the one that is given where the table has none. -/
def partsAround (table : SymbolTable) (part : TypePart) : List TypePart :=
  match table.partsOf part.fullName with
  | [] => [part]
  | parts => parts

theorem partsAround_of_mem {table : SymbolTable} {part : TypePart} (h : part ∈ table.parts) :
    partsAround table part = table.partsOf part.fullName := by
  have listed : part ∈ table.partsOf part.fullName := SymbolTable.mem_partsOf.2 ⟨h, rfl⟩
  unfold partsAround
  split
  · next none => rw [none] at listed; cases listed
  · rfl

/-- Whether some part has the workflow attribute. -/
def isWorkflow (target : WorkflowTarget) (table : SymbolTable) (parts : List TypePart) : Bool :=
  parts.any (·.isMarked table target.marker)

/-- Whether some part opts in, where that is asked for. -/
def hasOptedIn (target : WorkflowTarget) (table : SymbolTable) (parts : List TypePart) : Bool :=
  target.optInMarker.all fun marker => parts.any (·.isMarked table marker)

/-- The first method, part by part, with the entry attribute. -/
def entryPoint? (target : WorkflowTarget) (table : SymbolTable) (parts : List TypePart) : Option Member :=
  (parts.flatMap TypePart.members).find? (·.isMarkedMethod table target.entryMarker)

/-- The descriptor of the workflow that a declaration is a part of. -/
def describe? (target : WorkflowTarget) (task : TaskType) (table : SymbolTable) : Declaration → Option Descriptor
  | .type part =>
    let parts := partsAround table part
    if target.isWorkflow table parts && target.hasOptedIn table parts then
      (target.entryPoint? table parts).bind (·.describe? table task)
    else none
  | .member _ => none

theorem describe?_type (target : WorkflowTarget) (task : TaskType) (table : SymbolTable) (part : TypePart) :
    target.describe? task table (.type part) =
      if target.isWorkflow table (partsAround table part) && target.hasOptedIn table (partsAround table part) then
        (target.entryPoint? table (partsAround table part)).bind (·.describe? table task)
      else none :=
  rfl

/-- How workflows are found. -/
def extractor (target : WorkflowTarget) (task : TaskType) : Extractor Descriptor where
  isCandidate := isCandidate
  describe? := target.describe? task

end WorkflowTarget

end TypedWrappers

import TypedWrappers.Extraction.Method

/-!
# Finding test doubles

A double is a class in a namespace, with the attribute for doubles on any part of it, whose first base type is the base
class of doubles with one argument. The argument names the class that the double stands for, which must be declared in
the compilation; its activities are those of all its parts.
-/

namespace TypedWrappers

namespace MockTarget

/-- The shape of a double: a class with attributes and base types. -/
def isCandidate : Declaration → Bool
  | .type part => part.decl.kind = .classType && !part.decl.attributes.isEmpty && !part.decl.baseTypes.isEmpty
  | .member _ => false

theorem isCandidate_type {part : TypePart} :
    isCandidate (.type part) = true ↔
      part.decl.kind = .classType ∧ part.decl.attributes ≠ [] ∧ part.decl.baseTypes ≠ [] := by
  simp [isCandidate, and_assoc]

/-- Whether a part of the type, this one included, has the attribute for doubles. -/
def isDouble (target : MockTarget) (table : SymbolTable) (part : TypePart) : Bool :=
  (table.partsOf part.fullName ++ [part]).any (·.isMarked table target.marker)

/-- The type argument of the first base type, if that is the base class of doubles with one argument. -/
def baseArgument? (target : MockTarget) (table : SymbolTable) (part : TypePart) : Option TypeSyntax := do
  let written ← part.decl.baseTypes.head?
  let base ← TypeSyntax.parse? written
  if table.resolve? part.scope base.name = some target.baseType then
    match base.arguments with
    | [argument] => some argument
    | _ => none
  else none

/-- The full name of the class that a double stands for, declared or not. -/
def targetName? (target : MockTarget) (table : SymbolTable) (part : TypePart) : Option String := do
  let argument ← target.baseArgument? table part
  table.resolve? part.scope argument.name

theorem baseArgument?_eq_some_iff {target : MockTarget} {table : SymbolTable} {part : TypePart}
    {argument : TypeSyntax} :
    target.baseArgument? table part = some argument ↔
      ∃ written base, part.decl.baseTypes.head? = some written ∧ TypeSyntax.parse? written = some base ∧
        table.resolve? part.scope base.name = some target.baseType ∧ base.arguments = [argument] := by
  constructor
  · intro h
    obtain ⟨written, first, h⟩ := Option.bind_eq_some_iff.1 h
    obtain ⟨base, read, h⟩ := Option.bind_eq_some_iff.1 h
    split at h
    · next means =>
      split at h
      · next arguments =>
        cases h
        exact ⟨written, base, first, read, means, arguments⟩
      · cases h
    · cases h
  · rintro ⟨written, base, first, read, means, arguments⟩
    simp [baseArgument?, first, read, means, arguments]

theorem targetName?_eq_some_iff {target : MockTarget} {table : SymbolTable} {part : TypePart} {fullName : String} :
    target.targetName? table part = some fullName ↔
      ∃ written base argument, part.decl.baseTypes.head? = some written ∧ TypeSyntax.parse? written = some base ∧
        table.resolve? part.scope base.name = some target.baseType ∧ base.arguments = [argument] ∧
          table.resolve? part.scope argument.name = some fullName := by
  constructor
  · intro h
    obtain ⟨argument, isArgument, means⟩ := Option.bind_eq_some_iff.1 h
    obtain ⟨written, base, first, read, isBase, arguments⟩ := baseArgument?_eq_some_iff.1 isArgument
    exact ⟨written, base, argument, first, read, isBase, arguments, means⟩
  · rintro ⟨written, base, argument, first, read, isBase, arguments, means⟩
    have isArgument := baseArgument?_eq_some_iff.2 ⟨written, base, first, read, isBase, arguments⟩
    exact Option.bind_eq_some_iff.2 ⟨argument, isArgument, means⟩

/-- The activities of all parts of a type. -/
def activitiesOf (table : SymbolTable) (activityMarker : String) (task : TaskType) (parts : List TypePart) :
    List Descriptor :=
  ((parts.flatMap TypePart.members).filter (·.isMarkedMethod table activityMarker)).filterMap
    (·.describe? table task)

/-- The descriptor of the double that a declaration is. -/
def describe? (target : MockTarget) (activityMarker : String) (task : TaskType) (table : SymbolTable) :
    Declaration → Option DoubleDescriptor
  | .type part =>
    if target.isDouble table part then do
      let ns ← namedNamespace? part.file.ns
      let fullName ← target.targetName? table part
      let parts := table.partsOf fullName
      let first ← parts.head?
      some
        { name := part.decl.name
          ns
          targetName := first.decl.name
          targetNamespace := namedNamespace? first.file.ns
          activities := activitiesOf table activityMarker task parts }
    else none
  | .member _ => none

theorem describe?_type (target : MockTarget) (activityMarker : String) (task : TaskType) (table : SymbolTable)
    (part : TypePart) :
    target.describe? activityMarker task table (.type part) =
      if target.isDouble table part then
        (namedNamespace? part.file.ns).bind fun ns =>
          (target.targetName? table part).bind fun fullName =>
            (table.find? fullName).bind fun first =>
              some
                { name := part.decl.name
                  ns
                  targetName := first.decl.name
                  targetNamespace := namedNamespace? first.file.ns
                  activities := activitiesOf table activityMarker task (table.partsOf fullName) }
      else none :=
  rfl

/-- How doubles are found. -/
def extractor (target : MockTarget) (activityMarker : String) (task : TaskType) : Extractor DoubleDescriptor where
  isCandidate := isCandidate
  describe? := target.describe? activityMarker task

end MockTarget

end TypedWrappers

import TypedWrappers.Extraction.Method

/-!
# Finding activities

An activity is a method with the activity attribute, in any type.
-/

namespace TypedWrappers

namespace ActivityTarget

/-- The shape of an activity: a method with attributes. -/
def isCandidate : Declaration → Bool
  | .type _ => false
  | .member m => m.decl.kind = .method && !m.decl.attributes.isEmpty

/-- The descriptor of the activity that a declaration is. -/
def describe? (target : ActivityTarget) (task : TaskType) (table : SymbolTable) : Declaration → Option Descriptor
  | .type _ => none
  | .member m => if table.hasMarker m.scope m.decl.attributes target.marker then m.describe? table task else none

/-- How activities are found. -/
def extractor (target : ActivityTarget) (task : TaskType) : Extractor Descriptor where
  isCandidate := isCandidate
  describe? := target.describe? task

end ActivityTarget

end TypedWrappers

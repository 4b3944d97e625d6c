import TypedWrappers.TypeReference

/-!
# Descriptors

What generation needs to know of a workflow, an activity or a test double, free of the compilation it was found in.

- `ReturnShape`: what a method returns, tasks told apart from other values;
- `Descriptor`: a method with its class; `Descriptor.WellFormed`: its names are there and its parameters are distinct;
- `SortKey`: the order in which descriptors are rendered; `normalize` sorts and drops repeats;
- `DoubleDescriptor`: a test double with the activities of the class it stands for.
-/

namespace TypedWrappers

/-- What a method returns. -/
inductive ReturnShape
  /-- No result. -/
  | void
  /-- A value. -/
  | value (type : TypeReference)
  /-- A task, with or without a result. -/
  | wrapped (result : Option TypeReference)
  deriving DecidableEq, Inhabited

/-- The type of the result that a caller receives in the end. -/
def ReturnShape.result? : ReturnShape → Option TypeReference
  | void => none
  | value type => some type
  | wrapped result => result

/-- A parameter of a described method. -/
structure Parameter where
  /-- The name. -/
  name : String
  /-- The type. -/
  type : TypeReference
  deriving DecidableEq, Inhabited

/-- The full text of the type, or its display where it is not known. -/
def Parameter.typeName (p : Parameter) : String :=
  p.type.typeName

/-- The namespace of the type, unless it is the given one. -/
def Parameter.foreignNamespace? (ns : Option String) (p : Parameter) : Option String :=
  p.type.ns.filter fun own => some own ≠ ns

/-- A described method. -/
structure Descriptor where
  /-- The name of the method. -/
  name : String
  /-- The simple name of the class. -/
  typeName : String
  /-- The namespace of the class; none for the global one. -/
  ns : Option String
  /-- Whether the method is static. -/
  isStatic : Bool
  /-- The parameters in order. -/
  parameters : List Parameter
  /-- What the method returns. -/
  returns : ReturnShape
  deriving DecidableEq, Inhabited

namespace Descriptor

/-- The names of the parameters. -/
def parameterNames (d : Descriptor) : List String :=
  d.parameters.map Parameter.name

/-- The types of the parameters, full where they are known. -/
def signature (d : Descriptor) : List String :=
  d.parameters.map Parameter.typeName

/-- The names are there, and no two parameters share one. -/
structure WellFormed (d : Descriptor) : Prop where
  name_ne : d.name ≠ ""
  typeName_ne : d.typeName ≠ ""
  parameterNames_ne : ∀ name ∈ d.parameterNames, name ≠ ""
  parameterNames_nodup : d.parameterNames.Nodup

instance (d : Descriptor) : Decidable d.WellFormed :=
  decidable_of_iff
    (d.name ≠ "" ∧ d.typeName ≠ "" ∧ (∀ name ∈ d.parameterNames, name ≠ "") ∧ d.parameterNames.Nodup)
    ⟨fun ⟨a, b, c, e⟩ => ⟨a, b, c, e⟩, fun ⟨a, b, c, e⟩ => ⟨a, b, c, e⟩⟩

/-- The full name of the class. -/
def qualifiedTypeName (d : Descriptor) : String :=
  qualify d.ns d.typeName

/-- The full name of the method. -/
def qualifiedName (d : Descriptor) : String :=
  d.qualifiedTypeName ++ "." ++ d.name

/-- The names of the parameters as the arguments of a call. -/
def argumentList (d : Descriptor) : String :=
  ", ".intercalate d.parameterNames

/-- The namespaces that code needs to write the class and the types of the method by their display. -/
def namespaces (d : Descriptor) : NameSet :=
  (NameSet.unions
    (d.parameters.map (·.type.namespaces) ++ (d.returns.result?.map TypeReference.namespaces).toList)).insertAll
    d.ns.toList

end Descriptor

/-! ## Order -/

/-- What descriptors are ordered by. -/
structure SortKey where
  typeName : String
  name : String
  ns : String
  signature : List String
  isStatic : Bool
  deriving Repr, DecidableEq

/-- Class, method, namespace, parameter types, and static methods last. -/
def SortKey.compare : SortKey → SortKey → Ordering :=
  compareLex (compareOn typeName) <| compareLex (compareOn name) <| compareLex (compareOn ns) <|
    compareLex (compareOn signature) (compareOn isStatic)

/-- The key of a descriptor; the global namespace counts as an empty one. -/
def Descriptor.sortKey (d : Descriptor) : SortKey :=
  ⟨d.typeName, d.name, d.ns.getD "", d.signature, d.isStatic⟩

/-- Whether a descriptor may stand in front of another. -/
def Descriptor.precedes (a b : Descriptor) : Bool :=
  (a.sortKey.compare b.sortKey).isLE

/-- The descriptors by key; those with equal keys stay in their order. -/
def sortDescriptors (ds : List Descriptor) : List Descriptor :=
  ds.mergeSort Descriptor.precedes

/-- A list without the items that equal their left neighbour. -/
def dropRepeats {α : Type} [DecidableEq α] : List α → List α
  | [] => []
  | [a] => [a]
  | a :: b :: rest => if a = b then dropRepeats (b :: rest) else a :: dropRepeats (b :: rest)

/-- The descriptors by key, without immediate repeats. -/
def normalize (ds : List Descriptor) : List Descriptor :=
  dropRepeats (sortDescriptors ds)

/-! ## Test doubles -/

/-- A test double. -/
structure DoubleDescriptor where
  /-- The simple name of the double. -/
  name : String
  /-- The namespace of the double. -/
  ns : String
  /-- The simple name of the class that it stands for. -/
  targetName : String
  /-- The namespace of that class; none for the global one. -/
  targetNamespace : Option String
  /-- The activities of that class. -/
  activities : List Descriptor
  deriving DecidableEq, Inhabited

/-- The full name of the double. -/
def DoubleDescriptor.qualifiedName (d : DoubleDescriptor) : String :=
  d.ns ++ "." ++ d.name

end TypedWrappers

import TypedWrappers.Text.Split

/-!
# Qualified names

Names with dots: a namespace and a simple name.

- `qualify`: puts a name into a namespace; the global namespace (`none` or empty) adds nothing;
- `namespaceOf?`, `splitQualified`: the part before the last dot, and both parts;
- `enclosing`: a namespace and the namespaces around it, innermost first;
- `keywordType?`: the library type that a keyword of the language stands for.
-/

namespace TypedWrappers

open Text

/-- The name inside a namespace; the global namespace adds nothing. -/
def qualify (ns : Option String) (name : String) : String :=
  match ns with
  | some ns => if ns = "" then name else ns ++ "." ++ name
  | none => name

/-- The namespace of a full name: what stands before its last dot. -/
def namespaceOf? (fullName : String) : Option String :=
  (cutLast '.' fullName.toList).map fun parts => String.ofList parts.1

/-- The namespace (empty for the global one) and the simple name of a full name. -/
def splitQualified (fullName : String) : String × String :=
  match cutLast '.' fullName.toList with
  | some (ns, name) => (String.ofList ns, String.ofList name)
  | none => ("", fullName)

/-- The part of a name after its last dot. -/
def simpleName (name : String) : String :=
  (splitQualified name).2

/-- A namespace and the namespaces around it, innermost first; none for the global namespace. -/
def enclosing (ns : Option String) : List String :=
  match ns with
  | some ns => if ns = "" then [] else ns :: (leads '.' ns.toList).reverse.map String.ofList
  | none => []

/-- The keyword types and the library types they stand for. -/
def keywordTypes : List (String × String) :=
  [("bool", "System.Boolean"), ("byte", "System.Byte"), ("sbyte", "System.SByte"), ("char", "System.Char"),
    ("decimal", "System.Decimal"), ("double", "System.Double"), ("float", "System.Single"), ("int", "System.Int32"),
    ("uint", "System.UInt32"), ("long", "System.Int64"), ("ulong", "System.UInt64"), ("short", "System.Int16"),
    ("ushort", "System.UInt16"), ("nint", "System.IntPtr"), ("nuint", "System.UIntPtr"), ("object", "System.Object"),
    ("dynamic", "System.Object"), ("string", "System.String"), ("void", "System.Void")]

/-- The library type a keyword stands for. -/
def keywordType? (name : String) : Option String :=
  keywordTypes.lookup name

/-- Whether a name is a keyword type. -/
def isKeyword (name : String) : Bool :=
  (keywordType? name).isSome

/-- Whether a name is written with a dot. -/
def isDotted (name : String) : Bool :=
  name.toList.contains '.'

/-- The namespace of a name put into one is that namespace, as long as the name itself has no dot. -/
theorem cutLast_append_dot {ns name : List Char} (h : '.' ∉ name) :
    cutLast '.' (ns ++ '.' :: name) = some (ns, name) := by
  have none_of_not_mem : ∀ l : List Char, '.' ∉ l → cutLast '.' l = none := by
    intro l hl
    induction l with
    | nil => rfl
    | cons c l ih =>
      simp only [List.mem_cons, not_or] at hl
      simp [cutLast, ih hl.2, Ne.symm hl.1]
  induction ns with
  | nil => simp [cutLast, none_of_not_mem name h]
  | cons c ns ih => simp [cutLast, ih]

/-- A name keeps its last part in every namespace. -/
theorem simpleName_qualified (ns name : String) : simpleName (ns ++ "." ++ name) = simpleName name := by
  have chars : (ns ++ "." ++ name).toList = ns.toList ++ '.' :: name.toList := by simp
  unfold simpleName splitQualified
  rw [chars]
  cases cut : cutLast '.' name.toList with
  | some parts =>
    have atDot : cutLast '.' ('.' :: name.toList) = some ('.' :: parts.1, parts.2) := by rw [cutLast, cut]
    rw [cutLast_append atDot]
  | none =>
    have atDot : cutLast '.' ('.' :: name.toList) = some ([], name.toList) := by rw [cutLast, cut, if_pos rfl]
    rw [cutLast_append atDot]
    exact String.ofList_toList

end TypedWrappers

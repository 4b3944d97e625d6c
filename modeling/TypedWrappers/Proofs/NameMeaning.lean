import TypedWrappers.Extraction.Double

/-!
# What the meaning of names decides

Attributes, type references, return shapes and descriptions look at a symbol table and a scope through the names that
are written alone. Two scopes, each in a table of its own, that give these names the same meaning (`SameMeaningOf`) lead
to the same results.

- `SymbolTable.attributeNames`, `TypeSyntax.namesIn`: the names that the text of an attribute or of a type mentions;
- `MemberDecl.typeNames`, `MemberDecl.names`, `TypeDecl.names`: the names that are written in a declaration;
- `SymbolTable.SameMeaning`: any name means the same, written or not.
-/

namespace TypedWrappers

/-! ## The names that are written -/

/-- The names that an attribute is looked up by: the one that is written, and the same with the ending. -/
def SymbolTable.attributeNames (written : String) : List String :=
  [attributeName written, attributeName written ++ attributeEnding]

/-- The names in the text of a type; none where it is no type syntax. -/
def TypeSyntax.namesIn (text : String) : List String :=
  ((parse? text).map names).getD []

theorem TypeSyntax.namesIn_of_parse? {text : String} {t : TypeSyntax} (h : parse? text = some t) :
    namesIn text = t.names := by
  rw [namesIn, h, Option.map_some, Option.getD_some]

theorem TypeSyntax.names_eq (t : TypeSyntax) : t.names = t.name :: allNames t.arguments := by
  cases t
  rw [names]

theorem TypeSyntax.name_mem_names (t : TypeSyntax) : t.name ∈ t.names := by
  rw [names_eq]
  exact List.mem_cons_self

theorem TypeSyntax.names_subset_allNames {t : TypeSyntax} {ts : List TypeSyntax} (h : t ∈ ts) :
    t.names ⊆ allNames ts := by
  induction ts with
  | nil => cases h
  | cons u rest ih =>
    rw [allNames]
    rcases List.mem_cons.1 h with rfl | h
    · exact List.subset_append_left _ _
    · exact List.subset_append_of_subset_right _ (ih h)

theorem TypeSyntax.names_subset_of_mem_arguments {t argument : TypeSyntax} (h : argument ∈ t.arguments) :
    argument.names ⊆ t.names := by
  rw [names_eq t]
  exact List.subset_cons_of_subset _ (names_subset_allNames h)

/-- The names in the return type and the types of the parameters. -/
def MemberDecl.typeNames (d : MemberDecl) : List String :=
  TypeSyntax.namesIn d.returns ++ d.parameters.flatMap fun p => TypeSyntax.namesIn p.type

/-- The names in the attributes and the types of a member. -/
def MemberDecl.names (d : MemberDecl) : List String :=
  d.attributes.flatMap SymbolTable.attributeNames ++ d.typeNames

/-- The names in the attributes, the base types and the members of a type. -/
def TypeDecl.names (d : TypeDecl) : List String :=
  d.attributes.flatMap SymbolTable.attributeNames ++ d.baseTypes.flatMap TypeSyntax.namesIn ++
    d.members.flatMap MemberDecl.names

/-! ## What they decide -/

namespace SymbolTable

variable {table table' : SymbolTable} {scope scope' : Scope}

/-- The given names mean the same in one scope and table as in the other. -/
def SameMeaningOf (names : List String) (table : SymbolTable) (scope : Scope) (table' : SymbolTable)
    (scope' : Scope) : Prop :=
  ∀ name ∈ names, table.resolve? scope name = table'.resolve? scope' name

/-- Every name means the same in one scope and table as in the other. -/
def SameMeaning (table : SymbolTable) (scope : Scope) (table' : SymbolTable) (scope' : Scope) : Prop :=
  ∀ written, table.resolve? scope written = table'.resolve? scope' written

theorem SameMeaning.of (h : SameMeaning table scope table' scope') (names : List String) :
    SameMeaningOf names table scope table' scope' :=
  fun name _ => h name

theorem SameMeaningOf.mono {names names' : List String} (h : SameMeaningOf names table scope table' scope')
    (sub : names' ⊆ names) : SameMeaningOf names' table scope table' scope' :=
  fun name mem => h name (sub mem)

theorem SameMeaningOf.resolveAttribute? {written : String}
    (h : SameMeaningOf (attributeNames written) table scope table' scope') :
    table.resolveAttribute? scope written = table'.resolveAttribute? scope' written := by
  have bare := h (attributeName written) (by simp [attributeNames])
  have whole := h (attributeName written ++ attributeEnding) (by simp [attributeNames])
  simp only [SymbolTable.resolveAttribute?, bare, whole]

/-- Attributes are looked through in no particular order. -/
theorem SameMeaningOf.hasMarker {attributes attributes' : List String}
    (h : SameMeaningOf (attributes.flatMap attributeNames) table scope table' scope')
    (p : attributes.Perm attributes') (marker : String) :
    table.hasMarker scope attributes marker = table'.hasMarker scope' attributes' marker := by
  have each : ∀ written ∈ attributes, table.isMarker scope marker written = table'.isMarker scope' marker written := by
    intro written mem
    have meaning := h.mono fun _ => List.mem_flatMap_of_mem mem
    rw [SymbolTable.isMarker, SymbolTable.isMarker, meaning.resolveAttribute?]
  unfold SymbolTable.hasMarker
  rw [← p.any_eq, Bool.eq_iff_iff, List.any_eq_true, List.any_eq_true]
  exact exists_congr fun written => and_congr_right fun mem => by rw [each written mem]

mutual

theorem SameMeaningOf.describe : ∀ t : TypeSyntax, SameMeaningOf t.names table scope table' scope' →
    table.describe scope t = table'.describe scope' t
  | ⟨name, arguments, marks⟩, h => by
    have ofName : table.resolve? scope name = table'.resolve? scope' name := h name (TypeSyntax.name_mem_names _)
    have ofArguments := h.mono fun _ => by
      rw [TypeSyntax.names]
      exact List.mem_cons_of_mem name
    rw [SymbolTable.describe, SymbolTable.describe, describeName, describeName, ofName,
      SameMeaningOf.describeAll arguments ofArguments]

theorem SameMeaningOf.describeAll : ∀ ts : List TypeSyntax,
    SameMeaningOf (TypeSyntax.allNames ts) table scope table' scope' →
      table.describeAll scope ts = table'.describeAll scope' ts
  | [], _ => rfl
  | t :: rest, h => by
    rw [TypeSyntax.allNames] at h
    rw [SymbolTable.describeAll, SymbolTable.describeAll,
      SameMeaningOf.describe t (h.mono (List.subset_append_left _ _)),
      SameMeaningOf.describeAll rest (h.mono (List.subset_append_right _ _))]

end

theorem SameMeaningOf.describeText {text : String}
    (h : SameMeaningOf (TypeSyntax.namesIn text) table scope table' scope') :
    table.describeText scope text = table'.describeText scope' text := by
  unfold SymbolTable.describeText
  cases parsed : TypeSyntax.parse? text with
  | none => rfl
  | some t =>
    rw [TypeSyntax.namesIn_of_parse? parsed] at h
    exact SameMeaningOf.describe t h

theorem SameMeaningOf.returnShape {text : String}
    (h : SameMeaningOf (TypeSyntax.namesIn text) table scope table' scope') (task : TaskType) :
    table.returnShape scope task text = table'.returnShape scope' task text := by
  unfold SymbolTable.returnShape
  cases parsed : TypeSyntax.parse? text with
  | none => rfl
  | some t =>
    rw [TypeSyntax.namesIn_of_parse? parsed] at h
    have name := h t.name t.name_mem_names
    have whole := SameMeaningOf.describe t h
    have result : ∀ u ∈ t.arguments, table.describe scope u = table'.describe scope' u :=
      fun u hu => SameMeaningOf.describe u (h.mono (TypeSyntax.names_subset_of_mem_arguments hu))
    simp only [name, whole]
    cases arguments : t.arguments with
    | nil => rfl
    | cons first rest =>
      cases rest with
      | nil => simp only [result first (by rw [arguments]; exact List.mem_cons_self)]
      | cons second rest => rfl

end SymbolTable

/-- Two methods that are declared alike, in places that give the names in their types the same meaning, have one
description. -/
theorem Member.description_congr {table table' : SymbolTable} {method method' : Member} (task : TaskType)
    (meaning : SymbolTable.SameMeaningOf method.decl.typeNames table method.scope table' method'.scope)
    (ns : method.file.ns = method'.file.ns) (ownerName : method.owner.name = method'.owner.name)
    (ownerStatic : method.owner.isStatic = method'.owner.isStatic) (decl : method.decl = method'.decl) :
    method.description table task = method'.description table' task := by
  have returns := (meaning.mono (List.subset_append_left _ _)).returnShape task
  have parameters : ∀ p ∈ method.decl.parameters,
      table.describeText method.scope p.type = table'.describeText method'.scope p.type := fun p hp =>
    (meaning.mono (List.subset_append_of_subset_right _ fun _ => List.mem_flatMap_of_mem hp)).describeText
  unfold Member.description
  rw [← ns, ← ownerName, ← ownerStatic, ← decl, returns]
  congr 1
  exact List.map_congr_left fun p hp => by rw [parameters p hp]

/-! ## One declaration in two tables -/

section Declarations

variable {table table' : SymbolTable}

theorem TypeDecl.attributeNames_subset_names (d : TypeDecl) :
    d.attributes.flatMap SymbolTable.attributeNames ⊆ d.names := by
  rw [names, List.append_assoc]
  exact List.subset_append_left _ _

theorem TypeDecl.namesIn_subset_names {d : TypeDecl} {base : String} (h : base ∈ d.baseTypes) :
    TypeSyntax.namesIn base ⊆ d.names := by
  intro name mem
  rw [names]
  exact List.mem_append_left _ (List.mem_append_right _ (List.mem_flatMap_of_mem h mem))

theorem TypeDecl.memberNames_subset_names {d : TypeDecl} {m : MemberDecl} (h : m ∈ d.members) :
    m.names ⊆ d.names :=
  List.subset_append_of_subset_right _ fun _ => List.mem_flatMap_of_mem h

theorem Member.hasMarker_congr {m : Member}
    (meaning : SymbolTable.SameMeaningOf m.decl.names table m.scope table' m.scope) (marker : String) :
    table.hasMarker m.scope m.decl.attributes marker = table'.hasMarker m.scope m.decl.attributes marker :=
  (meaning.mono (List.subset_append_left _ _)).hasMarker (.refl _) marker

theorem Member.isMarkedMethod_congr {m : Member}
    (meaning : SymbolTable.SameMeaningOf m.decl.names table m.scope table' m.scope) (marker : String) :
    m.isMarkedMethod table marker = m.isMarkedMethod table' marker := by
  rw [isMarkedMethod, isMarkedMethod, hasMarker_congr meaning]

theorem Member.describe?_congr {m : Member}
    (meaning : SymbolTable.SameMeaningOf m.decl.names table m.scope table' m.scope) (task : TaskType) :
    m.describe? table task = m.describe? table' task := by
  have same : m.description table task = m.description table' task :=
    description_congr task (meaning.mono (List.subset_append_right _ _)) rfl rfl rfl rfl
  rw [describe?, describe?, same]

theorem TypePart.isMarked_congr {part : TypePart}
    (meaning : SymbolTable.SameMeaningOf part.decl.names table part.scope table' part.scope) (marker : String) :
    part.isMarked table marker = part.isMarked table' marker :=
  (meaning.mono part.decl.attributeNames_subset_names).hasMarker (.refl _) marker

theorem MockTarget.targetName?_congr {part : TypePart}
    (meaning : SymbolTable.SameMeaningOf part.decl.names table part.scope table' part.scope) (target : MockTarget) :
    target.targetName? table part = target.targetName? table' part := by
  refine Option.ext fun fullName => ?_
  rw [targetName?_eq_some_iff, targetName?_eq_some_iff]
  refine exists₃_congr fun written base argument => and_congr_right fun first => and_congr_right fun parsed => ?_
  have inBase := meaning.mono (TypeDecl.namesIn_subset_names (List.mem_of_mem_head? first))
  rw [TypeSyntax.namesIn_of_parse? parsed] at inBase
  rw [inBase base.name base.name_mem_names]
  refine and_congr_right fun _ => and_congr_right fun arguments => ?_
  have mem : argument ∈ base.arguments := by rw [arguments]; exact List.mem_singleton_self _
  rw [inBase argument.name (TypeSyntax.names_subset_of_mem_arguments mem argument.name_mem_names)]

end Declarations

end TypedWrappers

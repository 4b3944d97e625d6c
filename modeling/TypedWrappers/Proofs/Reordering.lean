import TypedWrappers.Pass.Basic
import TypedWrappers.Proofs.NameMeaning
import TypedWrappers.Proofs.Rearrangement

/-!
# Compilations in another order

Hosts list what they find in no particular order. `Compilation.Reordered` relates two compilations that differ in the
order of the references, the files, the imports and types of a file, and the attributes and members of a type; base
types and parameters have an order that counts.

- `TypePart.Reordered`, `Member.Reordered`, `Declaration.Reordered`: the same for declarations in their files;
- `SymbolTable.Reordered.sameMeaning`: names mean the same in reordered tables and scopes;
- `Compilation.Reordered.symbols`, `Compilation.Reordered.scanned`: what a pass starts from, reordered.
-/

namespace TypedWrappers

/-! ## The relation -/

/-- A type declaration with its attributes and members in another order. -/
structure TypeDecl.Reordered (decl decl' : TypeDecl) : Prop where
  name : decl.name = decl'.name
  kind : decl.kind = decl'.kind
  isStatic : decl.isStatic = decl'.isStatic
  attributes : decl.attributes.Perm decl'.attributes
  baseTypes : decl.baseTypes = decl'.baseTypes
  members : decl.members.Perm decl'.members

/-- A file with its imports and types in another order, each type reordered. -/
structure SourceFile.Reordered (file file' : SourceFile) : Prop where
  path : file.path = file'.path
  ns : file.ns = file'.ns
  usings : file.usings.Perm file'.usings
  types : Rearranged TypeDecl.Reordered file.types file'.types

/-- A compilation with its references and files in another order, each file reordered. -/
structure Compilation.Reordered (c c' : Compilation) : Prop where
  name : c.name = c'.name
  references : c.references.Perm c'.references
  files : Rearranged SourceFile.Reordered c.files c'.files

/-- Two files that a declaration can stand in alike: under one path, in one namespace, with the same imports. -/
structure SourceFile.SamePlace (file file' : SourceFile) : Prop where
  path : file.path = file'.path
  ns : file.ns = file'.ns
  usings : file.usings.Perm file'.usings

/-- A type declaration, reordered, in a like file. -/
structure TypePart.Reordered (part part' : TypePart) : Prop where
  file : part.file.SamePlace part'.file
  decl : part.decl.Reordered part'.decl

/-- A member in a like file and in a type of which it sees as much. -/
structure Member.Reordered (m m' : Member) : Prop where
  file : m.file.SamePlace m'.file
  ownerName : m.owner.name = m'.owner.name
  ownerStatic : m.owner.isStatic = m'.owner.isStatic
  decl : m.decl = m'.decl

/-- A type or a member of one, reordered. -/
inductive Declaration.Reordered : Declaration → Declaration → Prop
  | type {part part' : TypePart} : part.Reordered part' → Declaration.Reordered (.type part) (.type part')
  | member {m m' : Member} : m.Reordered m' → Declaration.Reordered (.member m) (.member m')

/-- Two tables that know the same types and list the parts of types in another order, each part reordered. -/
structure SymbolTable.Reordered (table table' : SymbolTable) : Prop where
  known : table.known = table'.known
  parts : Rearranged TypePart.Reordered table.parts table'.parts

/-! ## Names -/

namespace SymbolTable.Reordered

variable {table table' : SymbolTable} (h : table.Reordered table')

include h

theorem contains (fullName : String) : table.contains fullName = table'.contains fullName := by
  rw [SymbolTable.contains, SymbolTable.contains, h.known]

theorem imported {scope scope' : Scope} (usings : scope.usings.Perm scope'.usings) (name : String) :
    (table.imported scope name).Perm (table'.imported scope' name) := by
  unfold SymbolTable.imported
  rw [funext h.contains]
  exact (usings.map _).filter _

/-- Whether one import provides a name, or several, or none, does not depend on their order. -/
theorem lookupSimple {scope scope' : Scope} (ns : scope.ns = scope'.ns) (usings : scope.usings.Perm scope'.usings)
    (name : String) : table.lookupSimple scope name = table'.lookupSimple scope' name := by
  have p := h.imported usings name
  unfold SymbolTable.lookupSimple SymbolTable.enclosingCandidates
  rw [ns, funext h.contains]
  cases (List.map (fun ns => ns ++ "." ++ name) (enclosing scope'.ns)).find? table'.contains with
  | some found => rfl
  | none =>
    match himp : table.imported scope name, himp' : table'.imported scope' name with
    | [], [] => rfl
    | [found], [found'] =>
      rw [himp, himp'] at p
      have same : found = found' := by simpa using p
      rw [same]
    | _ :: _ :: _, _ :: _ :: _ => rfl
    | [], _ :: _ | [_], [] | [_], _ :: _ :: _ | _ :: _ :: _, [] | _ :: _ :: _, [_] =>
      rw [himp, himp'] at p
      exact absurd p.length_eq (by simp)

theorem lookupDotted {scope scope' : Scope} (ns : scope.ns = scope'.ns) (name : String) :
    table.lookupDotted scope name = table'.lookupDotted scope' name := by
  unfold SymbolTable.lookupDotted SymbolTable.enclosingCandidates
  rw [ns, funext h.contains]

/-- Names mean the same in a reordered table and with the imports in another order. -/
theorem sameMeaning {file file' : SourceFile} (place : file.SamePlace file') :
    SameMeaning table file.scope table' file'.scope := by
  intro written
  have simple (name : String) : table.lookupSimple file.scope name = table'.lookupSimple file'.scope name :=
    h.lookupSimple place.ns place.usings name
  have dotted (name : String) : table.lookupDotted file.scope name = table'.lookupDotted file'.scope name :=
    h.lookupDotted place.ns name
  simp only [SymbolTable.resolve?, h.contains, simple, dotted]

end SymbolTable.Reordered

/-! ## Declarations -/

theorem TypePart.Reordered.fullName {part part' : TypePart} (h : part.Reordered part') :
    part.fullName = part'.fullName := by
  rw [TypePart.fullName, TypePart.fullName, h.file.ns, h.decl.name]

/-- The members of a part in the order of the reordered one. -/
theorem TypePart.Reordered.members {part part' : TypePart} (h : part.Reordered part') :
    Rearranged Member.Reordered part.members part'.members := by
  have same : Rearranged Eq part.decl.members part'.decl.members :=
    ⟨part'.decl.members, h.decl.members, by rw [List.forall₂_eq_eq_eq]⟩
  exact same.map fun m m' e => ⟨h.file, h.decl.name, h.decl.isStatic, e⟩

/-- The members of several parts in the order of the reordered ones. -/
theorem TypePart.members_rearranged {parts parts' : List TypePart} (r : Rearranged TypePart.Reordered parts parts') :
    Rearranged Member.Reordered (parts.flatMap TypePart.members) (parts'.flatMap TypePart.members) :=
  r.flatMap fun _ _ part => part.members

section Meaning

variable {table table' : SymbolTable} (h : table.Reordered table')

include h

theorem SymbolTable.Reordered.partsOf (fullName : String) :
    Rearranged TypePart.Reordered (table.partsOf fullName) (table'.partsOf fullName) :=
  h.parts.filter fun part part' r => by rw [r.fullName]

theorem TypePart.Reordered.isMarked {part part' : TypePart} (r : part.Reordered part') (marker : String) :
    part.isMarked table marker = part'.isMarked table' marker :=
  ((h.sameMeaning r.file).of _).hasMarker r.decl.attributes marker

theorem Member.Reordered.hasMarker {m m' : Member} (r : m.Reordered m') (marker : String) :
    table.hasMarker m.scope m.decl.attributes marker = table'.hasMarker m'.scope m'.decl.attributes marker := by
  rw [← r.decl]
  exact ((h.sameMeaning r.file).of _).hasMarker (.refl _) marker

theorem Member.Reordered.isMarkedMethod {m m' : Member} (r : m.Reordered m') (marker : String) :
    m.isMarkedMethod table marker = m'.isMarkedMethod table' marker := by
  rw [Member.isMarkedMethod, Member.isMarkedMethod, r.hasMarker h, r.decl]

theorem Member.Reordered.describe? {m m' : Member} (r : m.Reordered m') (task : TaskType) :
    m.describe? table task = m'.describe? table' task := by
  have same : m.description table task = m'.description table' task :=
    Member.description_congr task ((h.sameMeaning r.file).of _) r.file.ns r.ownerName r.ownerStatic r.decl
  rw [Member.describe?, Member.describe?, same]

end Meaning

/-! ## What a pass starts from -/

namespace Compilation.Reordered

variable {c c' : Compilation} (h : c.Reordered c')

include h

theorem typeParts : Rearranged TypePart.Reordered c.typeParts c'.typeParts :=
  h.files.flatMap fun _ _ file => file.types.map fun _ _ decl => ⟨⟨file.path, file.ns, file.usings⟩, decl⟩

theorem declarations : Rearranged Declaration.Reordered c.declarations c'.declarations :=
  h.typeParts.flatMap fun part part' r => by
    obtain ⟨m, p, pairs⟩ := r.members.map (S := Declaration.Reordered) fun _ _ => .member
    exact ⟨.type part :: m, p.cons _, .cons (.type r) pairs⟩

/-- The same types are known, and their parts are reordered. -/
theorem symbols (config : Config) : (Pass.symbols config c).Reordered (Pass.symbols config c') where
  known := by
    have names : (c.typeParts.map TypePart.fullName).Perm (c'.typeParts.map TypePart.fullName) :=
      h.typeParts.map_perm fun _ _ r => r.fullName
    have listed := ((h.references.map Text.trim).filter (· ≠ "")).append names
    refine NameSet.eq_of_mem_iff fun x => ?_
    simp only [Pass.symbols, SymbolTable.withTypes, SymbolTable.ofCompilation, NameSet.mem_insertAll,
      NameSet.mem_ofList, listed.mem_iff]
  parts := h.typeParts

/-- The declarations that are scanned are reordered. -/
theorem scanned (config : Config) :
    Rearranged Declaration.Reordered (Pass.scanned config c) (Pass.scanned config c') :=
  h.declarations.filter fun d d' r => by
    cases r with
    | type r => simp only [Declaration.file, SourceFile.isGenerated, r.file.path]
    | member r => simp only [Declaration.file, SourceFile.isGenerated, r.file.path]

end Compilation.Reordered

end TypedWrappers

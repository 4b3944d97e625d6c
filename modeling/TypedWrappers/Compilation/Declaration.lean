import TypedWrappers.Compilation.Basic
import TypedWrappers.QualifiedName

/-!
# Declarations

The types and members of a compilation together with the file and the type they stand in.

- `Compilation.typeParts`, `Compilation.declarations`: all of them, in the order of the source;
- `SourceFile.isGenerated`: whether a file is output of a generator, by the end of its path.
-/

namespace TypedWrappers

/-- A type declaration in its file. -/
structure TypePart where
  /-- The declaring file. -/
  file : SourceFile
  /-- The declaration. -/
  decl : TypeDecl
  deriving Repr, DecidableEq, Inhabited

/-- A member in its type and file. -/
structure Member where
  /-- The declaring file. -/
  file : SourceFile
  /-- The declaring type. -/
  owner : TypeDecl
  /-- The member. -/
  decl : MemberDecl
  deriving Repr, DecidableEq, Inhabited

/-- A type or a member of one. -/
inductive Declaration
  | type (part : TypePart)
  | member (member : Member)
  deriving Repr, DecidableEq

/-- The full name of the declared type. -/
def TypePart.fullName (part : TypePart) : String :=
  qualify part.file.ns part.decl.name

/-- The scope of the declaration. -/
def TypePart.scope (part : TypePart) : Scope :=
  part.file.scope

/-- The members that a part of a type declares. -/
def TypePart.members (part : TypePart) : List Member :=
  part.decl.members.map fun decl => ⟨part.file, part.decl, decl⟩

theorem Member.file_eq_of_mem_members {part : TypePart} {m : Member} (h : m ∈ part.members) : m.file = part.file := by
  obtain ⟨decl, -, rfl⟩ := List.mem_map.1 h
  rfl

/-- The scope of the member. -/
def Member.scope (member : Member) : Scope :=
  member.file.scope

namespace Declaration

/-- The declared name. -/
def name : Declaration → String
  | type part => part.decl.name
  | member m => m.decl.name

/-- The declaring file. -/
def file : Declaration → SourceFile
  | type part => part.file
  | member m => m.file

/-- The attributes as written. -/
def attributes : Declaration → List String
  | type part => part.decl.attributes
  | member m => m.decl.attributes

end Declaration

namespace Compilation

/-- All type declarations, file by file. -/
def typeParts (c : Compilation) : List TypePart :=
  c.files.flatMap fun file => file.types.map fun decl => ⟨file, decl⟩

/-- All declarations, each type in front of its members. -/
def declarations (c : Compilation) : List Declaration :=
  c.typeParts.flatMap fun part => .type part :: part.members.map .member

theorem mem_files_of_mem_typeParts {c : Compilation} {part : TypePart} (h : part ∈ c.typeParts) :
    part.file ∈ c.files := by
  obtain ⟨file, hf, hp⟩ := List.mem_flatMap.1 h
  obtain ⟨decl, -, rfl⟩ := List.mem_map.1 hp
  exact hf

/-- The type declarations among all declarations. -/
theorem type_mem_declarations {c : Compilation} {part : TypePart} :
    .type part ∈ c.declarations ↔ part ∈ c.typeParts := by
  simp [declarations]

/-- The members among all declarations. -/
theorem member_mem_declarations {c : Compilation} {m : Member} :
    .member m ∈ c.declarations ↔ ∃ part ∈ c.typeParts, m ∈ part.members := by
  simp [declarations]

end Compilation

/-- Whether a file is generated: its path ends with the suffix, which is not empty. -/
def SourceFile.isGenerated (suffix : String) (file : SourceFile) : Bool :=
  suffix ≠ "" && Text.endsWith file.path suffix

end TypedWrappers

import Mathlib.Data.List.Basic
import TypedWrappers.Pass.Basic
import TypedWrappers.Proofs.NameMeaning
import TypedWrappers.Proofs.Samples

/-!
# What generated files can change

Declarations of generated files are not scanned. A pass still comes to such declarations through the types that it looks
up by name: the other parts of a class that it scans, and the class that a double stands for.

- `Compilation.AgreeOutsideGenerated`: two compilations that differ within types of generated files only;
- `TypePart.reading`: what a pass makes use of in a part that it looks up;
- `Pass.LooksUp`: the types whose parts a pass looks up;
- `Pass.extract_eq_of_agreeOutsideGenerated`: activities do not depend on generated files, and the rest does only on
  what is read in the parts that are looked up.
-/

namespace TypedWrappers

/-! ## Compilations that differ in generated files -/

/-- A type without its kind, attributes, base types and members. -/
def TypeDecl.outline (decl : TypeDecl) : TypeDecl :=
  { decl with kind := .classType, attributes := [], baseTypes := [], members := [] }

/-- A generated file with the outlines of its types; any other file as it is. -/
def SourceFile.outline (suffix : String) (file : SourceFile) : SourceFile :=
  if file.isGenerated suffix then { file with types := file.types.map TypeDecl.outline } else file

/-- Two compilations have the same references and the same files, up to the kinds, attributes, base types and members of
the types in generated files. -/
structure Compilation.AgreeOutsideGenerated (suffix : String) (c c' : Compilation) : Prop where
  references : c.references = c'.references
  files : c.files.map (SourceFile.outline suffix) = c'.files.map (SourceFile.outline suffix)

namespace SourceFile

variable {suffix : String} {file : SourceFile}

theorem outline_of_isGenerated_eq_false (h : file.isGenerated suffix = false) : file.outline suffix = file := by
  rw [outline, h]
  rfl

theorem isGenerated_outline : (file.outline suffix).isGenerated suffix = file.isGenerated suffix := by
  unfold outline
  split <;> rfl

def typeNames (file : SourceFile) : List String :=
  file.types.map fun decl => qualify file.ns decl.name

theorem typeNames_outline : (file.outline suffix).typeNames = file.typeNames := by
  unfold outline
  split
  · simp only [typeNames, List.map_map]
    rfl
  · rfl

/-- The declarations of a file that are scanned: all, or none if the file is generated. -/
def scanned (suffix : String) (file : SourceFile) : List Declaration :=
  if file.isGenerated suffix then []
  else file.types.flatMap fun decl => .type ⟨file, decl⟩ :: (TypePart.members ⟨file, decl⟩).map .member

theorem scanned_outline : (file.outline suffix).scanned suffix = file.scanned suffix := by
  unfold scanned
  rw [isGenerated_outline]
  split
  · rfl
  · next notGenerated => rw [outline_of_isGenerated_eq_false (Bool.eq_false_iff.2 notGenerated)]

end SourceFile

theorem Compilation.map_fullName_typeParts (c : Compilation) :
    c.typeParts.map TypePart.fullName = c.files.flatMap SourceFile.typeNames := by
  rw [typeParts, List.map_flatMap]
  refine List.flatMap_congr fun file _ => ?_
  rw [List.map_map]
  rfl

/-- What is scanned is scanned file by file. -/
theorem Pass.scanned_eq_flatMap (config : Config) (c : Compilation) :
    scanned config c = c.files.flatMap (SourceFile.scanned config.generatedFileSuffix) := by
  rw [scanned, Compilation.declarations, Compilation.typeParts, List.flatMap_assoc, List.filter_flatMap]
  refine List.flatMap_congr fun file _ => ?_
  rw [List.flatMap_map]
  -- all declarations of the file have it as their file
  have inFile : ∀ d ∈ file.types.flatMap fun decl =>
      .type ⟨file, decl⟩ :: (TypePart.members ⟨file, decl⟩).map Declaration.member, d.file = file := by
    intro d hd
    obtain ⟨decl, -, hd⟩ := List.mem_flatMap.1 hd
    rcases List.mem_cons.1 hd with rfl | hd
    · rfl
    · obtain ⟨m, hm, rfl⟩ := List.mem_map.1 hd
      obtain ⟨member, -, rfl⟩ := List.mem_map.1 hm
      rfl
  unfold SourceFile.scanned
  split
  · next generated =>
    refine List.filter_eq_nil_iff.2 fun d hd => ?_
    rw [inFile d hd, generated]
    decide
  · next notGenerated =>
    refine List.filter_eq_self.2 fun d hd => ?_
    rw [inFile d hd, Bool.eq_false_iff.2 notGenerated]
    rfl

namespace Compilation.AgreeOutsideGenerated

variable {config : Config} {c c' : Compilation} (agree : c.AgreeOutsideGenerated config.generatedFileSuffix c')

include agree

/-- What is made of the files and is the same for their outlines is the same for both. -/
theorem flatMap_files_eq {α : Type} {f : SourceFile → List α}
    (outline : ∀ file, f (file.outline config.generatedFileSuffix) = f file) :
    c.files.flatMap f = c'.files.flatMap f := by
  have viaOutlines (files : List SourceFile) :
      files.flatMap f = (files.map (SourceFile.outline config.generatedFileSuffix)).flatMap f := by
    rw [List.flatMap_map]
    exact (List.flatMap_congr fun file _ => outline file).symm
  rw [viaOutlines c.files, agree.files, ← viaOutlines]

theorem scanned_eq : Pass.scanned config c = Pass.scanned config c' := by
  rw [Pass.scanned_eq_flatMap, Pass.scanned_eq_flatMap]
  exact agree.flatMap_files_eq fun _ => SourceFile.scanned_outline

theorem known_eq : (Pass.symbols config c).known = (Pass.symbols config c').known := by
  have names : c.typeParts.map TypePart.fullName = c'.typeParts.map TypePart.fullName := by
    rw [c.map_fullName_typeParts, c'.map_fullName_typeParts]
    exact agree.flatMap_files_eq fun _ => SourceFile.typeNames_outline
  simp only [Pass.symbols, SymbolTable.withTypes, SymbolTable.ofCompilation, agree.references, names]

end Compilation.AgreeOutsideGenerated

/-! ## What is read of a part -/

/-- Where the declarations of a file stand, without the path and the types. -/
def SourceFile.place (file : SourceFile) : SourceFile :=
  { file with path := "", types := [] }

/-- What a pass makes use of in a part of a type that it looks up: all but the kind, the base types and the path. -/
def TypePart.reading (part : TypePart) : TypePart :=
  ⟨part.file.place, { part.decl with kind := .classType, baseTypes := [] }⟩

/-- The same for a member of such a part. -/
def Member.reading (m : Member) : Member :=
  ⟨m.file.place, { m.owner with kind := .classType, baseTypes := [] }, m.decl⟩

section Reading

variable {table table' : SymbolTable} {parts parts' : List TypePart}

theorem SymbolTable.sameMeaningOf_of_known_eq (known : table.known = table'.known) {names : List String}
    {scope : Scope} : SameMeaningOf names table scope table' scope := by
  intro written _
  have contains : table.contains = table'.contains := by
    funext name
    rw [SymbolTable.contains, SymbolTable.contains, known]
  simp only [resolve?, lookupDotted, lookupSimple, imported, contains]

theorem TypePart.isMarked_reading (table : SymbolTable) (marker : String) (part : TypePart) :
    part.reading.isMarked table marker = part.isMarked table marker :=
  SymbolTable.SameMeaningOf.hasMarker (fun _ _ => rfl) (.refl _) marker

theorem Member.isMarkedMethod_reading (table : SymbolTable) (marker : String) (m : Member) :
    m.reading.isMarkedMethod table marker = m.isMarkedMethod table marker :=
  congrArg (decide (m.decl.kind = .method) && ·)
    (SymbolTable.SameMeaningOf.hasMarker (fun _ _ => rfl) (.refl m.decl.attributes) marker)

theorem Member.describe?_reading (table : SymbolTable) (task : TaskType) (m : Member) :
    m.reading.describe? table task = m.describe? table task := by
  have same : m.reading.description table task = m.description table task :=
    description_congr task (fun _ _ => rfl) rfl rfl rfl rfl
  rw [describe?, describe?, same]

theorem TypePart.flatMap_members_reading (parts : List TypePart) :
    (parts.map reading).flatMap members = (parts.flatMap members).map Member.reading := by
  rw [List.flatMap_map, List.map_flatMap]
  refine List.flatMap_congr fun part _ => ?_
  rw [members, members, List.map_map]
  rfl

theorem map_reading_members_eq (same : parts.map TypePart.reading = parts'.map TypePart.reading) :
    (parts.flatMap TypePart.members).map Member.reading = (parts'.flatMap TypePart.members).map Member.reading := by
  rw [← TypePart.flatMap_members_reading, same, TypePart.flatMap_members_reading]

variable (known : table.known = table'.known) (same : parts.map TypePart.reading = parts'.map TypePart.reading)

include known same

theorem any_isMarked_eq_of_reading_eq (marker : String) :
    parts.any (·.isMarked table marker) = parts'.any (·.isMarked table' marker) := by
  have viaReadings (parts : List TypePart) :
      parts.any (·.isMarked table marker) = (parts.map TypePart.reading).any (·.isMarked table marker) := by
    rw [List.any_map]
    exact congrArg parts.any (funext fun part => (part.isMarked_reading table marker).symm)
  rw [viaReadings, same, ← viaReadings]
  exact congrArg parts'.any
    (funext fun part => TypePart.isMarked_congr (SymbolTable.sameMeaningOf_of_known_eq known) marker)

theorem WorkflowTarget.describe?_entryPoint?_eq (target : WorkflowTarget) (task : TaskType) :
    (target.entryPoint? table parts).bind (·.describe? table task) =
      (target.entryPoint? table' parts').bind (·.describe? table' task) := by
  have viaReadings (parts : List TypePart) :
      (target.entryPoint? table parts).bind (·.describe? table task) =
        (((parts.flatMap TypePart.members).map Member.reading).find?
          (·.isMarkedMethod table target.entryMarker)).bind (·.describe? table task) := by
    rw [List.find?_map, Option.bind_map]
    simp only [Function.comp_def, Member.isMarkedMethod_reading, Member.describe?_reading]
    rfl
  have inOtherTable : target.entryPoint? table parts' = target.entryPoint? table' parts' :=
    congrArg (List.find? · _) (funext fun m =>
      Member.isMarkedMethod_congr (SymbolTable.sameMeaningOf_of_known_eq known) target.entryMarker)
  rw [viaReadings, map_reading_members_eq same, ← viaReadings, inOtherTable]
  exact Option.bind_congr fun m _ => Member.describe?_congr (SymbolTable.sameMeaningOf_of_known_eq known) task

theorem MockTarget.activitiesOf_eq (marker : String) (task : TaskType) :
    activitiesOf table marker task parts = activitiesOf table' marker task parts' := by
  have viaReadings (parts : List TypePart) :
      activitiesOf table marker task parts =
        (((parts.flatMap TypePart.members).map Member.reading).filter (·.isMarkedMethod table marker)).filterMap
          (·.describe? table task) := by
    rw [List.filter_map, List.filterMap_map]
    simp only [Function.comp_def, Member.isMarkedMethod_reading, Member.describe?_reading]
    rfl
  rw [viaReadings, map_reading_members_eq same, ← viaReadings, activitiesOf, activitiesOf,
    funext fun m : Member => Member.isMarkedMethod_congr (SymbolTable.sameMeaningOf_of_known_eq known) marker]
  exact List.filterMap_congr fun m _ => Member.describe?_congr (SymbolTable.sameMeaningOf_of_known_eq known) task

end Reading

/-! ## What a pass finds -/

namespace Pass

/-- The parts of a type as a pass reads them when it looks them up. -/
def readings (c : Compilation) (fullName : String) : List TypePart :=
  (c.typeParts.filter (·.fullName = fullName)).map TypePart.reading

/-- A pass looks up the parts of a type: a class with attributes that it scans is one of them or names the type as the
target of a double. -/
def LooksUp (config : Config) (c : Compilation) (fullName : String) : Prop :=
  ∃ part, .type part ∈ scanned config c ∧ part.decl.kind = .classType ∧ part.decl.attributes ≠ [] ∧
    (part.fullName = fullName ∨ config.mocks.targetName? (symbols config c) part = some fullName)

variable {config : Config} {c c' : Compilation} (agree : c.AgreeOutsideGenerated config.generatedFileSuffix c')

include agree

theorem all_activities_eq :
    (config.activities.extractor config.task).all (symbols config c) (scanned config c) =
      (config.activities.extractor config.task).all (symbols config c') (scanned config c') := by
  rw [← agree.scanned_eq]
  refine List.filterMap_congr fun d _ => ?_
  cases d with
  | type part => rfl
  | member m =>
    show config.activities.describe? config.task (symbols config c) (.member m) =
      config.activities.describe? config.task (symbols config c') (.member m)
    rw [ActivityTarget.describe?, ActivityTarget.describe?,
      Member.hasMarker_congr (SymbolTable.sameMeaningOf_of_known_eq agree.known_eq),
      Member.describe?_congr (SymbolTable.sameMeaningOf_of_known_eq agree.known_eq)]

/-- A part that is scanned is one of the parts of its type in both. -/
theorem listed_of_scanned {part : TypePart} (isScanned : .type part ∈ scanned config c) :
    part ∈ (symbols config c).parts ∧ part ∈ (symbols config c').parts :=
  ⟨(type_mem_scanned.1 isScanned).1, (type_mem_scanned.1 (agree.scanned_eq ▸ isScanned)).1⟩

variable (read : ∀ fullName, LooksUp config c fullName → readings c fullName = readings c' fullName)

include read

theorem all_workflows_eq :
    (config.workflows.extractor config.task).all (symbols config c) (scanned config c) =
      (config.workflows.extractor config.task).all (symbols config c') (scanned config c') := by
  rw [← agree.scanned_eq]
  refine List.filterMap_congr fun d hd => ?_
  cases d with
  | member m => rfl
  | type part =>
    obtain ⟨isScanned, candidate⟩ := List.mem_filter.1 hd
    obtain ⟨isClass, attributes_ne⟩ := WorkflowTarget.isCandidate_type.1 candidate
    obtain ⟨listed, listed'⟩ := listed_of_scanned agree isScanned
    have same : ((symbols config c).partsOf part.fullName).map TypePart.reading =
        ((symbols config c').partsOf part.fullName).map TypePart.reading :=
      read part.fullName ⟨part, isScanned, isClass, attributes_ne, .inl rfl⟩
    have marked := any_isMarked_eq_of_reading_eq agree.known_eq same
    have optedIn : config.workflows.hasOptedIn (symbols config c) ((symbols config c).partsOf part.fullName) =
        config.workflows.hasOptedIn (symbols config c') ((symbols config c').partsOf part.fullName) := by
      unfold WorkflowTarget.hasOptedIn
      simp only [marked]
    show config.workflows.describe? config.task (symbols config c) (.type part) =
      config.workflows.describe? config.task (symbols config c') (.type part)
    rw [WorkflowTarget.describe?_type, WorkflowTarget.describe?_type, WorkflowTarget.partsAround_of_mem listed,
      WorkflowTarget.partsAround_of_mem listed', WorkflowTarget.isWorkflow, WorkflowTarget.isWorkflow, marked, optedIn,
      WorkflowTarget.describe?_entryPoint?_eq agree.known_eq same]

theorem all_doubles_eq :
    (config.mocks.extractor config.activities.marker config.task).all (symbols config c) (scanned config c) =
      (config.mocks.extractor config.activities.marker config.task).all (symbols config c') (scanned config c') := by
  rw [← agree.scanned_eq]
  refine List.filterMap_congr fun d hd => ?_
  cases d with
  | member m => rfl
  | type part =>
    obtain ⟨isScanned, candidate⟩ := List.mem_filter.1 hd
    obtain ⟨isClass, attributes_ne, -⟩ := MockTarget.isCandidate_type.1 candidate
    have own : ((symbols config c).partsOf part.fullName).map TypePart.reading =
        ((symbols config c').partsOf part.fullName).map TypePart.reading :=
      read part.fullName ⟨part, isScanned, isClass, attributes_ne, .inl rfl⟩
    have isDouble : config.mocks.isDouble (symbols config c) part = config.mocks.isDouble (symbols config c') part := by
      rw [MockTarget.isDouble, MockTarget.isDouble, List.any_append, List.any_append,
        any_isMarked_eq_of_reading_eq agree.known_eq own, any_isMarked_eq_of_reading_eq agree.known_eq rfl]
    show config.mocks.describe? config.activities.marker config.task (symbols config c) (.type part) =
      config.mocks.describe? config.activities.marker config.task (symbols config c') (.type part)
    have named : config.mocks.targetName? (symbols config c) part = config.mocks.targetName? (symbols config c') part :=
      MockTarget.targetName?_congr (SymbolTable.sameMeaningOf_of_known_eq agree.known_eq) config.mocks
    rw [MockTarget.describe?_type, MockTarget.describe?_type, isDouble, named]
    split
    · refine Option.bind_congr fun ns _ => Option.bind_congr fun fullName isTarget => ?_
      rw [← named] at isTarget
      have same : ((symbols config c).partsOf fullName).map TypePart.reading =
          ((symbols config c').partsOf fullName).map TypePart.reading :=
        read fullName ⟨part, isScanned, isClass, attributes_ne, .inr isTarget⟩
      have first : ((symbols config c).find? fullName).map TypePart.reading =
          ((symbols config c').find? fullName).map TypePart.reading := by
        rw [SymbolTable.find?, SymbolTable.find?, ← List.head?_map, ← List.head?_map, same]
      rw [MockTarget.activitiesOf_eq agree.known_eq same]
      -- of the first part of the target, the name and the namespace count
      cases found : (symbols config c).find? fullName with
      | none =>
        rw [found, eq_comm, Option.map_none, Option.map_eq_none_iff] at first
        rw [first]
      | some target =>
        rw [found, eq_comm, Option.map_some, Option.map_eq_some_iff] at first
        obtain ⟨target', found', alike⟩ := first
        have name : target'.decl.name = target.decl.name := congrArg (·.decl.name) alike
        have ns : target'.file.ns = target.file.ns := congrArg (·.file.ns) alike
        rw [found', Option.bind_some, Option.bind_some, name, ns]
    · rfl

omit read in
/-- **Generated files are read only where a pass looks up a type**: two compilations that differ within types of
generated files have the same activities, and all that is found is the same as long as the parts of the types that are
looked up read alike. -/
theorem extract_eq_of_agreeOutsideGenerated :
    (extract config c).activities = (extract config c').activities ∧
      ((∀ fullName, LooksUp config c fullName → readings c fullName = readings c' fullName) →
        extract config c = extract config c') := by
  have known (marker : String) : (symbols config c).contains marker = (symbols config c').contains marker := by
    rw [SymbolTable.contains, SymbolTable.contains, agree.known_eq]
  have activities : (extract config c).activities = (extract config c').activities := by
    rw [extract_activities, extract_activities, known, all_activities_eq agree]
  refine ⟨activities, fun read => ?_⟩
  have workflows : (extract config c).workflows = (extract config c').workflows := by
    rw [extract_workflows, extract_workflows, known, all_workflows_eq agree read]
  have doubles : (extract config c).doubles = (extract config c').doubles := by
    rw [extract_doubles, extract_doubles, all_doubles_eq agree read]
  calc extract config c
      = ⟨(extract config c).workflows, (extract config c).activities, (extract config c).doubles⟩ := rfl
    _ = ⟨(extract config c').workflows, (extract config c').activities, (extract config c').doubles⟩ := by
        rw [workflows, activities, doubles]

end Pass

/-! ## An example -/

namespace Sample

/-- A workflow without a method, and two types in a generated file: one of another name, and a part of the workflow with
the given members. -/
def withGenerated (other : TypeDecl) (members : List MemberDecl) : Compilation where
  name := "Generated"
  references := ["W", "R", "A"]
  files :=
    [⟨"a", some "N", [], [classPart "G" ["W", "O"] []]⟩,
      ⟨"a.g.cs", some "N", [], [other, classPart "G" [] members]⟩]

/-- A workflow and an activity at once, were its file scanned. -/
def unscanned : TypeDecl :=
  classPart "H" ["W", "O"] [method "Run" "R" "T", method "Act" "A" "T"]

theorem extract_without_unscanned :
    (withGenerated unscanned []).AgreeOutsideGenerated shortNames.generatedFileSuffix
        (withGenerated (classPart "H" [] []) []) ∧
      Pass.extract shortNames (withGenerated unscanned []) =
        Pass.extract shortNames (withGenerated (classPart "H" [] []) []) := by
  have agree : (withGenerated unscanned []).AgreeOutsideGenerated shortNames.generatedFileSuffix
      (withGenerated (classPart "H" [] []) []) := ⟨by decide +kernel, by decide +kernel⟩
  refine ⟨agree, (Pass.extract_eq_of_agreeOutsideGenerated agree).2 ?_⟩
  rintro fullName ⟨part, isScanned, -, -, lookedUp⟩
  -- the workflow is all that is scanned, and it names no target
  have only : ∀ d ∈ Pass.scanned shortNames (withGenerated unscanned []),
      d = .type ⟨⟨"a", some "N", [], [classPart "G" ["W", "O"] []]⟩, classPart "G" ["W", "O"] []⟩ := by decide +kernel
  obtain rfl := Declaration.type.inj (only _ isScanned)
  rcases lookedUp with rfl | named
  · decide +kernel
  · have none : shortNames.mocks.targetName? (Pass.symbols shortNames (withGenerated unscanned []))
        ⟨⟨"a", some "N", [], [classPart "G" ["W", "O"] []]⟩, classPart "G" ["W", "O"] []⟩ = none := by decide +kernel
    rw [none] at named
    cases named

-- A method in a generated part of a class that is scanned makes the class a workflow.
example : (Pass.extract shortNames (withGenerated unscanned [])).workflows = some [] ∧
    (Pass.extract shortNames (withGenerated unscanned [method "Run" "R" "T"])).workflows ≠ some [] := by
  decide +kernel

end Sample

end TypedWrappers

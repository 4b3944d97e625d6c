import TypedWrappers.Artifact
import TypedWrappers.Diagnostic
import TypedWrappers.Extraction.Activity
import TypedWrappers.Extraction.Double
import TypedWrappers.Extraction.Workflow
import TypedWrappers.Generated.ActivityHelpers
import TypedWrappers.Generated.Double
import TypedWrappers.Generated.Marker
import TypedWrappers.Generated.WorkflowExtensions
import TypedWrappers.LoadError

/-!
# Passes

One generation pass over a compilation.

- `Pass.extract`: what is found, by target; a target whose marker type is not known is left out;
- `Pass.plan`: the files to generate, in the order in which they are written;
- `Pass.run`: the files as text and the diagnostics, or the first error. How a file becomes text is up to the caller.
-/

namespace TypedWrappers

/-- What a pass finds. -/
structure ExtractedModel where
  /-- The workflows, unless their marker type is not known. -/
  workflows : Option (List Descriptor)
  /-- The activities, unless their marker type is not known. -/
  activities : Option (List Descriptor)
  /-- The doubles, in increasing order of their full names. -/
  doubles : List DoubleDescriptor
  deriving DecidableEq, Inhabited

/-- Why a pass fails. -/
inductive PassError
  | duplicateArtifact (fileName : String)
  | template (reason : String)
  | generation (cause : GenerationError)
  | load (error : LoadError)
  deriving Repr, DecidableEq

/-- The failure in words. -/
def PassError.message : PassError → String
  | duplicateArtifact fileName => "artifact '" ++ fileName ++ "' was emitted more than once in the same pass"
  | template reason => "template error: " ++ reason
  | generation cause => "code generation failed: " ++ cause.message
  | load error => error.message

/-- What a pass produces. -/
structure Output where
  /-- The generated files. -/
  artifacts : ArtifactSet
  /-- The findings. -/
  diagnostics : List Diagnostic
  deriving DecidableEq

/-- How a file becomes text, or fails to, with any error that a pass can fail with. -/
abbrev Emitter := FileModel → Except PassError String

/-- Every file becomes its own text. -/
def FileModel.emitter : Emitter :=
  fun file => .ok file.text

/-- Puts a double in its place by full name; the first one under a name stays. -/
def insertDouble (double : DoubleDescriptor) : List DoubleDescriptor → List DoubleDescriptor
  | [] => [double]
  | head :: tail =>
    if double.qualifiedName < head.qualifiedName then double :: head :: tail
    else if head.qualifiedName < double.qualifiedName then head :: insertDouble double tail
    else head :: tail

/-- The first double under each full name, in increasing order. -/
def firstDoubles (doubles : List DoubleDescriptor) : List DoubleDescriptor :=
  doubles.foldl (fun found double => insertDouble double found) []

namespace Pass

/-- The known types of a compilation, those that the generator contributes among them. -/
def symbols (config : Config) (c : Compilation) : SymbolTable :=
  (SymbolTable.ofCompilation c).withTypes (config.markerSources.map MarkerSource.fullName)

/-- The declarations that are scanned: all but those of generated files. -/
def scanned (config : Config) (c : Compilation) : List Declaration :=
  c.declarations.filter fun d => !d.file.isGenerated config.generatedFileSuffix

@[simp] theorem symbols_parts (config : Config) (c : Compilation) : (symbols config c).parts = c.typeParts := rfl

/-- The types that are known are those that the generator contributes and those that the compilation names. -/
theorem contains_symbols_iff {config : Config} {c : Compilation} {fullName : String} :
    (symbols config c).contains fullName = true ↔
      fullName ∈ config.markerSources.map MarkerSource.fullName ∨
        fullName ∈ (c.references.map Text.trim).filter (· ≠ "") ++ c.typeParts.map TypePart.fullName := by
  have listed : fullName ∈ (symbols config c).known ↔
      fullName ∈ config.markerSources.map MarkerSource.fullName ∨ fullName ∈ (SymbolTable.ofCompilation c).known :=
    NameSet.mem_insertAll
  rw [SymbolTable.contains, decide_eq_true_iff, listed, SymbolTable.ofCompilation, NameSet.mem_ofList]

theorem type_mem_scanned {config : Config} {c : Compilation} {part : TypePart} :
    .type part ∈ scanned config c ↔
      part ∈ c.typeParts ∧ part.file.isGenerated config.generatedFileSuffix = false := by
  simp [scanned, Compilation.type_mem_declarations, Declaration.file]

theorem member_mem_scanned {config : Config} {c : Compilation} {m : Member} :
    .member m ∈ scanned config c ↔
      ∃ part ∈ c.typeParts, part.file.isGenerated config.generatedFileSuffix = false ∧ m ∈ part.members := by
  simp only [scanned, List.mem_filter, Compilation.member_mem_declarations, Declaration.file, Bool.not_eq_true']
  constructor
  · rintro ⟨⟨part, listed, hm⟩, notGenerated⟩
    exact ⟨part, listed, Member.file_eq_of_mem_members hm ▸ notGenerated, hm⟩
  · rintro ⟨part, listed, notGenerated, hm⟩
    exact ⟨⟨part, listed, hm⟩, Member.file_eq_of_mem_members hm ▸ notGenerated⟩

/-- What a pass finds in a compilation. -/
def extract (config : Config) (c : Compilation) : ExtractedModel :=
  let table := symbols config c
  let found {α : Type} (e : Extractor α) : List α := e.all table (scanned config c)
  { workflows :=
      if table.contains config.workflows.marker then
        some (normalize (found (config.workflows.extractor config.task)))
      else none
    activities :=
      if table.contains config.activities.marker then
        some (normalize (found (config.activities.extractor config.task)))
      else none
    doubles := firstDoubles (found (config.mocks.extractor config.activities.marker config.task)) }

theorem extract_workflows (config : Config) (c : Compilation) :
    (extract config c).workflows =
      if (symbols config c).contains config.workflows.marker then
        some (normalize ((config.workflows.extractor config.task).all (symbols config c) (scanned config c)))
      else none :=
  rfl

theorem extract_activities (config : Config) (c : Compilation) :
    (extract config c).activities =
      if (symbols config c).contains config.activities.marker then
        some (normalize ((config.activities.extractor config.task).all (symbols config c) (scanned config c)))
      else none :=
  rfl

theorem extract_doubles (config : Config) (c : Compilation) :
    (extract config c).doubles =
      firstDoubles ((config.mocks.extractor config.activities.marker config.task).all (symbols config c)
        (scanned config c)) :=
  rfl

/-- The files to generate, in order: the marker types, the workflow extensions, the activity helpers, the doubles. -/
def plan (config : Config) (model : ExtractedModel) : List (Except GenerationError GeneratedFile) :=
  config.markerSources.map (MarkerSource.render config) ++
    (model.workflows.map (WorkflowTarget.render config)).toList ++
    (model.activities.map (ActivityTarget.render config)).toList ++
    model.doubles.map (MockTarget.render config)

/-- The methods of the workflow extensions, in order. -/
def workflowWrappers (config : Config) (workflows : List Descriptor) : List Wrapper :=
  workflows.flatMap fun w =>
    let (execute, start) := config.workflows.methodNames config.methodSuffix w
    [⟨execute, w⟩, ⟨start, w⟩]

/-- The methods of the activity helpers, in order. -/
def activityWrappers (config : Config) (activities : List Descriptor) : List Wrapper :=
  activities.map fun a => ⟨config.activities.methodName config.methodSuffix a, a⟩

/-- The findings about what a pass found: those of the workflows first. -/
def diagnose (config : Config) (model : ExtractedModel) : List Diagnostic :=
  collisions config.workflows.className (workflowWrappers config (model.workflows.getD [])) ++
    collisions config.activities.className (activityWrappers config (model.activities.getD []))

/-- Writes one planned file and adds it to those written. What keeps the file from becoming text is passed on. -/
def addFile (emit : Emitter) (written : ArtifactSet) (planned : Except GenerationError GeneratedFile) :
    Except PassError ArtifactSet :=
  match planned with
  | .error e => .error (.generation e)
  | .ok file =>
    match emit file.model with
    | .error e => .error e
    | .ok content =>
      match written.insert? ⟨file.fileName, content, file.model.imports⟩ with
      | some written => .ok written
      | none => .error (.duplicateArtifact file.fileName)

/-- Writes planned files in order; the first error counts. -/
def write (emit : Emitter) (files : List (Except GenerationError GeneratedFile)) : Except PassError ArtifactSet :=
  files.foldlM (addFile emit) ∅

/-- A whole pass. -/
def run (config : Config) (emit : Emitter) (c : Compilation) : Except PassError Output :=
  let model := extract config c
  (write emit (plan config model)).map fun artifacts => ⟨artifacts, diagnose config model⟩

end Pass

end TypedWrappers

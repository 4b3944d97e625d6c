import Mathlib.Data.List.Nodup
import TypedWrappers.Pass.Basic
import TypedWrappers.Proofs.DescriptorOrder
import TypedWrappers.Proofs.Samples

/-!
# Workflows over partial classes

The markers, the opt-in and the entry point of a workflow may stand on different parts of one class. `Describes` says
on all parts together what a workflow is and how it is described, without a word on how it is found.

- `describes_iff`: the description that the extractor gives for any part is the one of the class;
- `qualifiedTypeName_of_describes`: the description names the class, so two classes never share one;
- `Pass.extract_workflows_exact`: a pass lists each workflow once and nothing else.
-/

namespace TypedWrappers

/-! ## What a workflow is -/

namespace WorkflowTarget

/-- Some part of a class has an attribute that means the given type. -/
def HasAttribute (table : SymbolTable) (parts : List TypePart) (marker : String) : Prop :=
  ∃ part ∈ parts, ∃ written ∈ part.decl.attributes, table.resolveAttribute? part.scope written = some marker

/-- An ordinary method with the entry attribute. -/
def IsEntry (target : WorkflowTarget) (table : SymbolTable) (m : Member) : Prop :=
  m.decl.kind = .method ∧
    ∃ written ∈ m.decl.attributes, table.resolveAttribute? m.scope written = some target.entryMarker

/-- The class with the given parts is a workflow, described by its entry point. -/
structure Describes (target : WorkflowTarget) (task : TaskType) (table : SymbolTable) (parts : List TypePart)
    (d : Descriptor) : Prop where
  isClass : ∃ part ∈ parts, part.decl.kind = .classType
  marked : HasAttribute table parts target.marker
  optedIn : ∀ marker ∈ target.optInMarker, HasAttribute table parts marker
  /-- Part by part, `entry` is the first method with the entry attribute, and described where it stands. -/
  entry : ∃ before entry after, parts.flatMap TypePart.members = before ++ entry :: after ∧
    (∀ m ∈ before, ¬ target.IsEntry table m) ∧ target.IsEntry table entry ∧ entry.description table task = d
  wellFormed : d.WellFormed

/-! ## What the extractor looks at -/

variable {target : WorkflowTarget} {task : TaskType} {table : SymbolTable} {parts : List TypePart} {d : Descriptor}

theorem any_isMarked_iff {marker : String} :
    parts.any (·.isMarked table marker) = true ↔ HasAttribute table parts marker := by
  simp [HasAttribute, TypePart.isMarked, SymbolTable.hasMarker, SymbolTable.isMarker]

theorem isMarkedMethod_iff {m : Member} :
    m.isMarkedMethod table target.entryMarker = true ↔ target.IsEntry table m := by
  simp [IsEntry, Member.isMarkedMethod, SymbolTable.hasMarker, SymbolTable.isMarker]

theorem hasOptedIn_iff :
    target.hasOptedIn table parts = true ↔ ∀ marker ∈ target.optInMarker, HasAttribute table parts marker := by
  unfold hasOptedIn
  cases target.optInMarker with
  | none => simp
  | some marker => rw [Option.all_some, any_isMarked_iff]; simp

/-- The entry point is the first entry method, with none in front of it. -/
theorem entryPoint?_eq_some_iff {entry : Member} :
    target.entryPoint? table parts = some entry ↔
      ∃ before after, parts.flatMap TypePart.members = before ++ entry :: after ∧
        (∀ m ∈ before, ¬ target.IsEntry table m) ∧ target.IsEntry table entry := by
  rw [entryPoint?, List.find?_eq_some_iff_append, isMarkedMethod_iff]
  constructor
  · rintro ⟨isEntry, before, after, split, none⟩
    exact ⟨before, after, split, fun m hm he => by simpa [isMarkedMethod_iff.2 he] using none m hm, isEntry⟩
  · rintro ⟨before, after, split, none, isEntry⟩
    refine ⟨isEntry, before, after, split, fun m hm => ?_⟩
    rw [Bool.not_eq_true', Bool.eq_false_iff]
    exact fun h => none m hm (isMarkedMethod_iff.1 h)

/-- A class is described exactly as the extractor describes it from its parts. -/
theorem describes_iff :
    target.Describes task table parts d ↔
      (∃ part ∈ parts, part.decl.kind = .classType) ∧ target.isWorkflow table parts = true ∧
        target.hasOptedIn table parts = true ∧
          (target.entryPoint? table parts).bind (·.describe? table task) = some d := by
  rw [isWorkflow, any_isMarked_iff, hasOptedIn_iff, Option.bind_eq_some_iff]
  constructor
  · rintro ⟨isClass, marked, optedIn, ⟨before, entry, after, split, none, isEntry, described⟩, wellFormed⟩
    exact ⟨isClass, marked, optedIn, entry, entryPoint?_eq_some_iff.2 ⟨before, after, split, none, isEntry⟩,
      Member.describe?_eq_some_iff.2 ⟨described, wellFormed⟩⟩
  · rintro ⟨isClass, marked, optedIn, entry, found, described⟩
    obtain ⟨before, after, split, none, isEntry⟩ := entryPoint?_eq_some_iff.1 found
    obtain ⟨described, wellFormed⟩ := Member.describe?_eq_some_iff.1 described
    exact ⟨isClass, marked, optedIn, ⟨before, entry, after, split, none, isEntry, described⟩, wellFormed⟩

/-- A class has one description. -/
theorem Describes.unique {d' : Descriptor} (h : target.Describes task table parts d)
    (h' : target.Describes task table parts d') : d = d' :=
  Option.some.inj ((describes_iff.1 h).2.2.2.symm.trans (describes_iff.1 h').2.2.2)

/-- Descriptions name the class, as long as no blank around a name is cut off. -/
theorem qualifiedTypeName_of_describes (trimmed : ∀ part ∈ table.parts, Text.trim part.decl.name = part.decl.name)
    {fullName : String} (h : target.Describes task table (table.partsOf fullName) d) :
    d.qualifiedTypeName = fullName := by
  obtain ⟨before, entry, after, split, -, -, rfl⟩ := h.entry
  have inParts : entry ∈ (table.partsOf fullName).flatMap TypePart.members := by rw [split]; simp
  obtain ⟨part, hp, hm⟩ := List.mem_flatMap.1 inParts
  obtain ⟨listed, named⟩ := SymbolTable.mem_partsOf.1 hp
  rw [TypePart.qualifiedTypeName_description hm (trimmed part listed), named]

end WorkflowTarget

/-- Descriptors with one key are of one class. -/
theorem Descriptor.qualifiedTypeName_eq_of_sortKey_eq {a b : Descriptor} (h : a.sortKey = b.sortKey) :
    a.qualifiedTypeName = b.qualifiedTypeName := by
  have byKey (d : Descriptor) : d.qualifiedTypeName = qualify (some d.sortKey.ns) d.sortKey.typeName := by
    unfold Descriptor.qualifiedTypeName Descriptor.sortKey
    cases d.ns <;> simp [qualify]
  rw [byKey a, byKey b, h]

/-! ## Workflows of a pass -/

namespace Pass

variable {config : Config} {c : Compilation}

/-- What is found among the workflows of a pass are the descriptions of classes. -/
theorem mem_workflows_iff (noGenerated : ∀ file ∈ c.files, file.isGenerated config.generatedFileSuffix = false)
    (oneKind : ∀ part ∈ c.typeParts, ∀ part' ∈ c.typeParts, part.fullName = part'.fullName →
      part.decl.kind = part'.decl.kind) {d : Descriptor} :
    d ∈ (config.workflows.extractor config.task).all (symbols config c) (scanned config c) ↔
      ∃ fullName, config.workflows.Describes config.task (symbols config c) ((symbols config c).partsOf fullName) d := by
  rw [Extractor.mem_all]
  constructor
  · rintro ⟨decl, isScanned, candidate, described⟩
    cases decl with
    | member m => cases described
    | type part =>
      have listed : part ∈ c.typeParts := (type_mem_scanned.1 isScanned).1
      have isClass : part.decl.kind = .classType := (WorkflowTarget.isCandidate_type.1 candidate).1
      have described : config.workflows.describe? config.task (symbols config c) (.type part) = some d := described
      rw [WorkflowTarget.describe?_type, WorkflowTarget.partsAround_of_mem listed] at described
      split at described
      · next found =>
        obtain ⟨isWorkflow, hasOptedIn⟩ := Bool.and_eq_true_iff.1 found
        have inParts : part ∈ (symbols config c).partsOf part.fullName := SymbolTable.mem_partsOf.2 ⟨listed, rfl⟩
        exact ⟨part.fullName,
          WorkflowTarget.describes_iff.2 ⟨⟨part, inParts, isClass⟩, isWorkflow, hasOptedIn, described⟩⟩
      · cases described
  · rintro ⟨fullName, describes⟩
    -- the part with the attribute is the one that the extractor goes by
    obtain ⟨part, inParts, written, hasAttribute, -⟩ := describes.marked
    obtain ⟨other, inParts', isClass⟩ := describes.isClass
    obtain ⟨listed, named⟩ := SymbolTable.mem_partsOf.1 inParts
    obtain ⟨listed', named'⟩ := SymbolTable.mem_partsOf.1 inParts'
    have isScanned : .type part ∈ scanned config c :=
      type_mem_scanned.2 ⟨listed, noGenerated _ (Compilation.mem_files_of_mem_typeParts listed)⟩
    have kind : part.decl.kind = .classType :=
      (oneKind part listed other listed' (named.trans named'.symm)).trans isClass
    have candidate : WorkflowTarget.isCandidate (.type part) = true :=
      WorkflowTarget.isCandidate_type.2 ⟨kind, List.ne_nil_of_mem hasAttribute⟩
    obtain ⟨-, isWorkflow, hasOptedIn, described⟩ := WorkflowTarget.describes_iff.1 describes
    refine ⟨.type part, isScanned, candidate, ?_⟩
    show config.workflows.describe? config.task (symbols config c) (.type part) = some d
    rw [WorkflowTarget.describe?_type, WorkflowTarget.partsAround_of_mem listed, named, isWorkflow, hasOptedIn]
    exact described

/-- Where names are not cut, the key of a workflow tells its class, and the class has one description. -/
theorem determinedByKey_workflows
    (noGenerated : ∀ file ∈ c.files, file.isGenerated config.generatedFileSuffix = false)
    (trimmed : ∀ part ∈ c.typeParts, Text.trim part.decl.name = part.decl.name)
    (oneKind : ∀ part ∈ c.typeParts, ∀ part' ∈ c.typeParts, part.fullName = part'.fullName →
      part.decl.kind = part'.decl.kind) :
    DeterminedByKey ((config.workflows.extractor config.task).all (symbols config c) (scanned config c)) := by
  intro a ha b hb key
  obtain ⟨fullName, describesA⟩ := (mem_workflows_iff noGenerated oneKind).1 ha
  obtain ⟨fullName', describesB⟩ := (mem_workflows_iff noGenerated oneKind).1 hb
  have same : fullName = fullName' := by
    rw [← WorkflowTarget.qualifiedTypeName_of_describes trimmed describesA,
      ← WorkflowTarget.qualifiedTypeName_of_describes trimmed describesB,
      Descriptor.qualifiedTypeName_eq_of_sortKey_eq key]
  subst same
  exact describesA.unique describesB

/-- **Workflow extraction is exact**: where the marker type is known, a pass lists the description of each class that
is a workflow, one for each, and nothing else. -/
theorem extract_workflows_exact
    (noGenerated : ∀ file ∈ c.files, file.isGenerated config.generatedFileSuffix = false)
    (trimmed : ∀ part ∈ c.typeParts, Text.trim part.decl.name = part.decl.name)
    (oneKind : ∀ part ∈ c.typeParts, ∀ part' ∈ c.typeParts, part.fullName = part'.fullName →
      part.decl.kind = part'.decl.kind)
    (known : (symbols config c).contains config.workflows.marker = true) :
    ∃ workflows, (extract config c).workflows = some workflows ∧
      (∀ d, d ∈ workflows ↔ ∃ fullName, config.workflows.Describes config.task (symbols config c)
        ((symbols config c).partsOf fullName) d) ∧
      (∀ fullName d, config.workflows.Describes config.task (symbols config c) ((symbols config c).partsOf fullName) d →
        d.qualifiedTypeName = fullName) ∧
      (workflows.map Descriptor.qualifiedTypeName).Nodup := by
  have mem (d : Descriptor) : d ∈ normalize ((config.workflows.extractor config.task).all (symbols config c)
      (scanned config c)) ↔ ∃ fullName, config.workflows.Describes config.task (symbols config c)
        ((symbols config c).partsOf fullName) d := by
    rw [mem_normalize, mem_workflows_iff noGenerated oneKind]
  refine ⟨_, by rw [extract_workflows, if_pos known], mem, fun fullName d =>
    WorkflowTarget.qualifiedTypeName_of_describes trimmed, ?_⟩
  refine List.Nodup.map_on (fun a ha b hb names => ?_)
    (nodup_normalize (determinedByKey_workflows noGenerated trimmed oneKind))
  obtain ⟨fullName, describesA⟩ := (mem a).1 ha
  obtain ⟨fullName', describesB⟩ := (mem b).1 hb
  rw [WorkflowTarget.qualifiedTypeName_of_describes trimmed describesA,
    WorkflowTarget.qualifiedTypeName_of_describes trimmed describesB] at names
  subst names
  exact describesA.unique describesB

end Pass

/-! ## An example -/

namespace Sample

/-- A workflow with its marker, its opt-in and two entry methods in three files, and a class that does not opt in. -/
def orders : Compilation where
  name := "Orders"
  references := ["W", "R"]
  files :=
    [⟨"a", some "N", [], [classPart "G" ["O"] []]⟩,
      ⟨"b", some "N", [], [classPart "H" ["W"] [method "Run" "R" "T"],
        classPart "G" [] [method "Run" "R" "T", method "Resume" "R" "T"]]⟩,
      ⟨"c", some "N", [], [classPart "G" ["W"] []]⟩]

theorem orders_workflows :
    (∀ file ∈ orders.files, file.isGenerated shortNames.generatedFileSuffix = false) ∧
      (∀ part ∈ orders.typeParts, Text.trim part.decl.name = part.decl.name) ∧
      (∀ part ∈ orders.typeParts, ∀ part' ∈ orders.typeParts, part.fullName = part'.fullName →
        part.decl.kind = part'.decl.kind) ∧
      (Pass.symbols shortNames orders).contains shortNames.workflows.marker = true ∧
      ∃ workflows, (Pass.extract shortNames orders).workflows = some workflows ∧
        (∃ d ∈ workflows, d.name = "Run" ∧ d.qualifiedTypeName = "N.G") ∧
        (∀ d ∈ workflows, d.qualifiedTypeName ≠ "N.H") ∧ (workflows.map Descriptor.qualifiedTypeName).Nodup := by
  have noGenerated : ∀ file ∈ orders.files, file.isGenerated shortNames.generatedFileSuffix = false := by
    decide +kernel
  have trimmed : ∀ part ∈ orders.typeParts, Text.trim part.decl.name = part.decl.name := by decide +kernel
  have oneKind : ∀ part ∈ orders.typeParts, ∀ part' ∈ orders.typeParts, part.fullName = part'.fullName →
      part.decl.kind = part'.decl.kind := by decide +kernel
  have known : (Pass.symbols shortNames orders).contains shortNames.workflows.marker = true := by decide +kernel
  refine ⟨noGenerated, trimmed, oneKind, known, ?_⟩
  obtain ⟨workflows, found, mem, named, nodup⟩ := Pass.extract_workflows_exact noGenerated trimmed oneKind known
  refine ⟨workflows, found, ?_, ?_, nodup⟩
  · let parts := (Pass.symbols shortNames orders).partsOf "N.G"
    let workflow := (shortNames.workflows.entryPoint? (Pass.symbols shortNames orders) parts).bind
      (·.describe? (Pass.symbols shortNames orders) shortNames.task)
    have described : workflow.any (·.name = "Run") = true := by decide +kernel
    obtain ⟨d, isWorkflow, name⟩ := (Option.any_eq_true _ _).1 described
    have describes : shortNames.workflows.Describes shortNames.task (Pass.symbols shortNames orders) parts d :=
      WorkflowTarget.describes_iff.2 ⟨by decide +kernel, by decide +kernel, by decide +kernel, isWorkflow⟩
    exact ⟨d, (mem d).2 ⟨"N.G", describes⟩, of_decide_eq_true name, named _ _ describes⟩
  · intro d listed name
    obtain ⟨fullName, describes⟩ := (mem d).1 listed
    rw [← named _ _ describes, name] at describes
    have notOptedIn : shortNames.workflows.hasOptedIn (Pass.symbols shortNames orders)
        ((Pass.symbols shortNames orders).partsOf "N.H") = false := by decide +kernel
    rw [WorkflowTarget.hasOptedIn_iff.2 describes.optedIn] at notOptedIn
    cases notOptedIn

end Sample

end TypedWrappers

import TypedWrappers.Proofs.DisplayedTypes
import TypedWrappers.Proofs.FaithfulMethods
import TypedWrappers.Proofs.TaskResults
import TypedWrappers.Proofs.WrittenArtifacts

/-!
# What the workflow extensions mean

The workflow extensions write classes and types by their displays, in a file that imports whatever namespaces any of the
workflows needs. So a name can mean another type there than where it was declared, or none.

- `WorkflowTarget.mem_imports_of_render`: what the file imports;
- `SymbolTable.qualified_display_iff`, `Member.ClassNamed.resolve?_typeName_iff`: what displays mean in it;
- `Pass.run_workflow_names_iff`: a class and the types of its entry method mean in the file what was declared exactly
  when the simple names in them are unrivalled there.
-/

namespace TypedWrappers

open Text

/-! ## What the file imports -/

/-- The file imports the namespaces of the target and whatever the workflows need, but not its own namespace. -/
theorem WorkflowTarget.mem_imports_of_render {config : Config} {workflows : List Descriptor} {file : GeneratedFile}
    (ok : render config workflows = .ok file) {ns : String} :
    ns ∈ file.model.imports ↔
      (ns ∈ config.workflows.imports ∨ ∃ w ∈ workflows, ns = config.task.ns ∨ ns ∈ w.namespaces) ∧ ns ≠ "" ∧
        ns ≠ config.workflows.outputNamespace := by
  obtain ⟨model, built, e⟩ := bind_eq_ok_iff.1 ok
  cases e
  rw [FileDraft.imports_of_build built, FileDraft.mem_importSet]
  refine and_congr_left fun _ => ?_
  simp only [List.mem_append, List.mem_flatMap, List.mem_cons, (sortDescriptors_perm workflows).mem_iff]
  rfl

namespace Descriptor

/-- The types of a method, its result last. -/
def types (d : Descriptor) : List TypeReference :=
  d.parameters.map Parameter.type ++ d.returns.result?.toList

theorem mem_namespaces {d : Descriptor} {ns : String} :
    ns ∈ d.namespaces ↔ d.ns = some ns ∨ ∃ type ∈ d.types, ns ∈ type.namespaces := by
  rw [namespaces, NameSet.mem_insertAll, NameSet.mem_unions, Option.mem_toList]
  refine or_congr_right ?_
  have sets : d.parameters.map (·.type.namespaces) ++ (d.returns.result?.map TypeReference.namespaces).toList =
      d.types.map TypeReference.namespaces := by
    rw [types, List.map_append, List.map_map, Option.toList_map]
    rfl
  rw [sets]
  simp only [List.mem_map, exists_exists_and_eq_and]

end Descriptor

/-! ## The types of a description -/

/-- A type that is described in a scope: one that is written in type syntax, or a text that is kept. -/
def SymbolTable.Describes (table : SymbolTable) (scope : Scope) (type : TypeReference) : Prop :=
  (∃ t : TypeSyntax, t.WellNamed ∧ table.describe scope t = type) ∨ ∃ text, TypeReference.literal text = type

namespace SymbolTable

variable {table : SymbolTable} {scope : Scope}

theorem describes_describeText (text : String) : table.Describes scope (table.describeText scope text) := by
  rw [describeText]
  cases read : TypeSyntax.parse? text with
  | none => exact .inr ⟨text, rfl⟩
  | some t => exact .inl ⟨t, (TypeSyntax.parse?_eq_some_iff.1 read).1, rfl⟩

theorem describes_result (task : TaskType) (text : String) :
    ∀ type ∈ (table.returnShape scope task text).result?, table.Describes scope type := by
  intro type mem
  cases read : TypeSyntax.parse? text with
  | none =>
    rw [returnShape_of_parse?_eq_none read] at mem
    exact .inr ⟨text, Option.some.inj mem⟩
  | some t => exact .inl (exists_describe_of_result? read mem)

end SymbolTable

/-- The types of a description are described in the scope of the method. -/
theorem Member.describes_types (table : SymbolTable) (task : TaskType) (method : Member) :
    ∀ type ∈ (method.description table task).types, table.Describes method.scope type := by
  intro type mem
  rcases List.mem_append.1 mem with mem | mem
  · obtain ⟨parameter, hp, rfl⟩ := List.mem_map.1 mem
    obtain ⟨p, -, rfl⟩ := List.mem_map.1 hp
    exact SymbolTable.describes_describeText p.type
  · exact SymbolTable.describes_result task method.decl.returns type (Option.mem_toList.1 mem)

/-! ## Namespaces that can be written -/

/-- The namespaces that a described type needs can be written. -/
theorem SymbolTable.Describes.isDottedName_of_mem_namespaces {table : SymbolTable} {scope : Scope}
    (wellNamed : table.WellNamed) {type : TypeReference} (describes : table.Describes scope type) {ns : String}
    (mem : ns ∈ type.namespaces) : isDottedName ns.toList = true := by
  obtain ⟨t, named, rfl⟩ | ⟨text, rfl⟩ := describes
  · obtain ⟨name, isIn, simple, full, found, e⟩ := (SymbolTable.mem_namespaces_describe t named).1 mem
    have isName := (TypeSyntax.wellNamed_iff t).1 named name isIn
    rw [SymbolTable.resolve?_of_isSimple isName simple] at found
    exact isDottedName_of_namespaceOf? (wellNamed full (SymbolTable.contains_of_lookupSimple found).1) e
  · exact absurd mem (NameSet.not_mem_empty ns)

/-! ## The class of a method -/

/-- The name of a declared class: it can be written, and it has no dots and is no keyword. -/
structure Member.ClassNamed (table : SymbolTable) (method : Member) : Prop where
  known : table.contains (qualify method.file.ns method.owner.name) = true
  undotted : isDotted method.owner.name = false
  noKeyword : isKeyword method.owner.name = false

namespace Member.ClassNamed

variable {table : SymbolTable} {method : Member}

theorem isDottedName_name (h : method.ClassNamed table) (wellNamed : table.WellNamed) :
    isDottedName method.owner.name.toList = true := by
  have isName := wellNamed _ h.known
  unfold qualify at isName
  split at isName
  · split at isName
    · exact isName
    · exact (isDottedName_qualified.1 isName).2
  · exact isName

theorem typeName_description (h : method.ClassNamed table) (wellNamed : table.WellNamed) (task : TaskType) :
    (method.description table task).typeName = method.owner.name :=
  trim_of_isDottedName (h.isDottedName_name wellNamed)

theorem qualifiedTypeName_description (h : method.ClassNamed table) (wellNamed : table.WellNamed) (task : TaskType) :
    (method.description table task).qualifiedTypeName = qualify method.file.ns method.owner.name := by
  rw [Descriptor.qualifiedTypeName, h.typeName_description wellNamed]
  exact qualify_namedNamespace? _ _

theorem isSimple_name (h : method.ClassNamed table) (wellNamed : table.WellNamed) :
    isSimple method.owner.name = true :=
  isSimple_iff.2 ⟨afterPrefix?_alias_of_isDottedName (h.isDottedName_name wellNamed),
    Option.not_isSome_iff_eq_none.1 (Bool.eq_false_iff.1 h.noKeyword), h.undotted⟩

/-- The namespace of the class can be written, and the full name is the name in that namespace. -/
theorem of_ns (h : method.ClassNamed table) (wellNamed : table.WellNamed) (task : TaskType) {ns : String}
    (own : (method.description table task).ns = some ns) :
    isDottedName ns.toList = true ∧ qualify method.file.ns method.owner.name = ns ++ "." ++ method.owner.name := by
  obtain ⟨declared, ns_ne⟩ := Option.filter_eq_some_iff.1 (show namedNamespace? method.file.ns = some ns from own)
  have full : qualify method.file.ns method.owner.name = ns ++ "." ++ method.owner.name := by
    rw [declared, qualify, if_neg (of_decide_eq_true ns_ne)]
  have isName := wellNamed _ h.known
  rw [full] at isName
  exact ⟨(isDottedName_qualified.1 isName).1, full⟩

end Member.ClassNamed

namespace Pass

variable {config : Config} {c : Compilation}

/-- The class of a declared method has a name that is known. -/
theorem classNamed_of_mem_declarations
    (simple : ∀ part ∈ c.typeParts, isDotted part.decl.name = false ∧ isKeyword part.decl.name = false)
    {method : Member} (declared : .member method ∈ c.declarations) : method.ClassNamed (symbols config c) := by
  obtain ⟨part, listed, isMember⟩ := Compilation.member_mem_declarations.1 declared
  obtain ⟨decl, -, rfl⟩ := List.mem_map.1 isMember
  have known : (symbols config c).contains part.fullName = true := by
    rw [contains_symbols_iff]
    exact .inr (List.mem_append_right _ (List.mem_map_of_mem listed))
  exact ⟨known, (simple part listed).1, (simple part listed).2⟩

/-- The namespaces that a description needs can be written. -/
theorem isDottedName_of_mem_namespaces {table : SymbolTable} {task : TaskType} {method : Member}
    (wellNamed : table.WellNamed) (named : method.ClassNamed table) {ns : String}
    (mem : ns ∈ (method.description table task).namespaces) : isDottedName ns.toList = true := by
  rcases Descriptor.mem_namespaces.1 mem with own | ⟨type, isType, mem⟩
  · exact (named.of_ns wellNamed task own).1
  · exact (method.describes_types table task type isType).isDottedName_of_mem_namespaces wellNamed mem

end Pass

/-! ## Names in the file -/

/-- The scope of the code in the workflow extensions. -/
def WorkflowTarget.outputScope (target : WorkflowTarget) (imports : NameSet) : Scope :=
  ⟨some target.outputNamespace, imports.toList⟩

namespace SymbolTable

variable {table : SymbolTable} {target : WorkflowTarget} {imports : NameSet}

/-- In the file, a simple name means the type that it was declared to mean exactly when that type is unrivalled. -/
theorem resolve?_outputScope_iff (wellNamed : table.WellNamed)
    (trimmed : ∀ ns ∈ imports, trim ns = ns) {name full : String} (isName : isTypeName name = true)
    (simple : isSimple name = true) (known : table.contains full = true)
    (form : full = name ∨ ∃ ns, full = ns ++ "." ++ name ∧ (ns = target.outputNamespace ∨ ns ∈ imports)) :
    table.resolve? (target.outputScope imports) name = some full ↔
      table.Unrivalled (target.outputScope imports) name full := by
  have same : imports.toList.map trim = imports.toList := (List.map_congr_left trimmed).trans (List.map_id _)
  rw [resolve?_of_isSimple isName simple]
  refine lookupSimple_eq_some_iff (nodup_imported ?_) known (reaches_of_contains wellNamed known ?_)
  · rw [WorkflowTarget.outputScope, same]
    exact List.Pairwise.imp String.ne_of_lt imports.sorted
  · refine form.imp_right ?_
    rintro ⟨ns, rfl, own⟩
    exact ⟨ns, rfl, own.imp_left fun e => by rw [WorkflowTarget.outputScope, e]⟩

/-- In the file, a type that is known in a scope goes by its display exactly when the simple names in it are
unrivalled, as long as the namespaces that it needs are in reach. -/
theorem qualified_display_iff (wellNamed : table.WellNamed) (trimmed : ∀ ns ∈ imports, trim ns = ns) {scope : Scope}
    {t : TypeSyntax} (named : t.WellNamed) (resolved : (table.describe scope t).isResolved = true)
    (reached : ∀ ns ∈ (table.describe scope t).namespaces, ns = target.outputNamespace ∨ ns ∈ imports) :
    (table.describeText (target.outputScope imports) (table.describe scope t).display).qualified =
        (table.describe scope t).qualified ↔
      ∀ name ∈ t.names, isSimple name = true → ∀ full, table.resolve? scope name = some full →
        table.Unrivalled (target.outputScope imports) name full := by
  refine (qualified_describeText_display_iff wellNamed named resolved).trans ?_
  refine forall₂_congr fun name mem => forall_congr' fun simple => ?_
  have isName := (TypeSyntax.wellNamed_iff t).1 named name mem
  obtain ⟨full, means, known⟩ := exists_resolve?_of_isResolved named resolved mem simple
  have form : full = name ∨ ∃ ns, full = ns ++ "." ++ name ∧ (ns = target.outputNamespace ∨ ns ∈ imports) := by
    refine (eq_or_exists_namespace named mem simple means).imp_right ?_
    rintro ⟨ns, needed, e⟩
    exact ⟨ns, e, reached ns needed⟩
  rw [means, resolve?_outputScope_iff wellNamed trimmed isName simple known form]
  simp

end SymbolTable

/-- In the file, the name of the class of a method means the class exactly when the class is unrivalled, as long as its
namespace is in reach. -/
theorem Member.ClassNamed.resolve?_typeName_iff {table : SymbolTable} {target : WorkflowTarget} {imports : NameSet}
    {method : Member} {task : TaskType} (named : method.ClassNamed table) (wellNamed : table.WellNamed)
    (trimmed : ∀ ns ∈ imports, trim ns = ns)
    (reached : ∀ ns ∈ (method.description table task).namespaces, ns = target.outputNamespace ∨ ns ∈ imports) :
    table.resolve? (target.outputScope imports) (method.description table task).typeName =
        some (method.description table task).qualifiedTypeName ↔
      table.Unrivalled (target.outputScope imports) (method.description table task).typeName
        (method.description table task).qualifiedTypeName := by
  rw [named.qualifiedTypeName_description wellNamed, named.typeName_description wellNamed]
  refine SymbolTable.resolve?_outputScope_iff wellNamed trimmed
    (isTypeName_of_isDottedName (named.isDottedName_name wellNamed)) (named.isSimple_name wellNamed) named.known ?_
  cases own : (method.description table task).ns with
  | none =>
    have isGlobal : qualify (namedNamespace? method.file.ns) method.owner.name = method.owner.name := by
      rw [show namedNamespace? method.file.ns = none from own]
      rfl
    rw [qualify_namedNamespace?] at isGlobal
    exact .inl isGlobal
  | some ns =>
    exact .inr ⟨ns, (named.of_ns wellNamed _ own).2, reached ns (Descriptor.mem_namespaces.2 (.inl own))⟩

namespace Pass

variable {c : Compilation} {emit : Emitter} {output : Output}

/-- **What the workflow extensions mean**: where known types have names that can be written and declared ones simple
names, the file of a pass that succeeds imports all that a workflow needs. In it, the name of the class means the class
exactly when it is unrivalled, and the display of a known type means that type exactly when the simple names in it are
unrivalled. -/
theorem run_workflow_names_iff (wellNamed : (symbols .temporal c).WellNamed)
    (simple : ∀ part ∈ c.typeParts, isDotted part.decl.name = false ∧ isKeyword part.decl.name = false)
    (ok : run .temporal emit c = .ok output) {workflows : List Descriptor}
    (found : (extract .temporal c).workflows = some workflows) :
    ∃ artifact ∈ output.artifacts.toList, artifact.fileName = "TemporalClientExtensions.g.cs" ∧
      ∀ w ∈ workflows,
        (∀ ns ∈ w.namespaces, ns = "Temporalio.Generators.Workflows" ∨ ns ∈ artifact.imports) ∧
        ((symbols .temporal c).resolve? (Config.temporal.workflows.outputScope artifact.imports) w.typeName =
            some w.qualifiedTypeName ↔
          (symbols .temporal c).Unrivalled (Config.temporal.workflows.outputScope artifact.imports) w.typeName
            w.qualifiedTypeName) ∧
        ∃ method, .member method ∈ c.declarations ∧
          method.description (symbols .temporal c) Config.temporal.task = w ∧
          ∀ type ∈ w.types, type.isResolved = true →
            ∃ t : TypeSyntax, (symbols .temporal c).describe method.scope t = type ∧
              (((symbols .temporal c).describeText (Config.temporal.workflows.outputScope artifact.imports)
                  type.display).qualified = type.qualified ↔
                ∀ name ∈ t.names, isSimple name = true → ∀ full,
                  (symbols .temporal c).resolve? method.scope name = some full →
                    (symbols .temporal c).Unrivalled (Config.temporal.workflows.outputScope artifact.imports) name
                      full) := by
  have planned : WorkflowTarget.render .temporal workflows ∈ plan .temporal (extract .temporal c) := by
    simp [plan, found]
  obtain ⟨file, content, rendered, -, written⟩ :=
    holds_of_mem_plan ok planned fun _ => (WorkflowTarget.isBuild_render .temporal workflows).fileName_eq
  have declaredAs {w : Descriptor} (hw : w ∈ workflows) := exists_member_of_mem_workflows found hw
  have writable {w : Descriptor} (hw : w ∈ workflows) {ns : String} (mem : ns ∈ w.namespaces) :
      isDottedName ns.toList = true := by
    obtain ⟨method, declared, rfl⟩ := declaredAs hw
    exact isDottedName_of_mem_namespaces wellNamed (classNamed_of_mem_declarations simple declared) mem
  have imported {ns : String} : ns ∈ file.model.imports ↔ _ := WorkflowTarget.mem_imports_of_render rendered
  have trimmed : ∀ ns ∈ file.model.imports, trim ns = ns := by
    intro ns mem
    obtain ⟨own | ⟨w, hw, rfl | mem⟩, -⟩ := imported.1 mem
    · have fixed : ∀ ns ∈ Config.temporal.workflows.imports, trim ns = ns := by decide +kernel
      exact fixed ns own
    · decide +kernel
    · exact trim_of_isDottedName (writable hw mem)
  refine ⟨_, written, rfl, fun w hw => ?_⟩
  obtain ⟨method, declared, rfl⟩ := declaredAs hw
  have named : method.ClassNamed (symbols .temporal c) := classNamed_of_mem_declarations simple declared
  have reached : ∀ ns ∈ (method.description (symbols .temporal c) Config.temporal.task).namespaces,
      ns = "Temporalio.Generators.Workflows" ∨ ns ∈ file.model.imports := by
    intro ns mem
    by_cases own : ns = "Temporalio.Generators.Workflows"
    · exact .inl own
    · exact .inr (imported.2 ⟨.inr ⟨_, hw, .inr mem⟩, ne_empty_of_isDottedName (writable hw mem), own⟩)
  refine ⟨reached, ?_, method, declared, rfl, fun type isType resolved => ?_⟩
  · exact named.resolve?_typeName_iff wellNamed trimmed reached
  · obtain ⟨t, wellNamedTree, rfl⟩ | ⟨text, rfl⟩ := method.describes_types _ _ type isType
    · exact ⟨t, rfl, SymbolTable.qualified_display_iff wellNamed trimmed wellNamedTree resolved fun ns mem =>
        reached ns (Descriptor.mem_namespaces.2 (.inr ⟨_, isType, mem⟩))⟩
    · cases resolved

end Pass

/-! ## An example -/

namespace Sample

/-- Two workflows in two namespaces, the second of which has a class with the name of the first workflow. -/
def rivals : Compilation where
  name := "Rivals"
  references := ["Temporalio.Workflows.WorkflowAttribute", "Temporalio.Workflows.WorkflowRunAttribute"]
  files :=
    [⟨"a", some "P", ["Temporalio.Workflows", "Temporalio.Generators.Workflows"],
        [classPart "Greet" ["Workflow", "GenerateWorkflowExtension"] [method "RunAsync" "WorkflowRun" "void"]]⟩,
      ⟨"b", some "Q", ["Temporalio.Workflows", "Temporalio.Generators.Workflows"],
        [classPart "Greet" [] [],
          classPart "Other" ["Workflow", "GenerateWorkflowExtension"] [method "RunAsync" "WorkflowRun" "void"]]⟩]

/-- A workflow without parameters and without a result. -/
def workflow (ns typeName : String) : Descriptor :=
  ⟨"RunAsync", typeName, some ns, false, [], .void⟩

/-- The types that the sample knows. -/
def rivalTypes : List String :=
  Config.temporal.markerSources.map MarkerSource.fullName ++
    ((rivals.references.map Text.trim).filter (· ≠ "") ++ rivals.typeParts.map TypePart.fullName)

theorem contains_rivals_iff {full : String} :
    (Pass.symbols .temporal rivals).contains full = true ↔ full ∈ rivalTypes := by
  simp only [Pass.contains_symbols_iff, rivalTypes, List.mem_append]

/-- Both workflows are found. -/
theorem rivals_workflows :
    (Pass.extract .temporal rivals).workflows = some [workflow "P" "Greet", workflow "Q" "Other"] := by
  have known : (Pass.symbols .temporal rivals).contains Config.temporal.workflows.marker = true :=
    contains_rivals_iff.2 (by decide +kernel)
  have found : (Config.temporal.workflows.extractor Config.temporal.task).all (Pass.symbols .temporal rivals)
      (Pass.scanned .temporal rivals) = [workflow "P" "Greet", workflow "Q" "Other"] := by decide +kernel
  have inOrder : [workflow "P" "Greet", workflow "Q" "Other"].Pairwise fun a b => a.precedes b = true := by
    decide +kernel
  rw [Pass.extract_workflows, if_pos known, found, normalize_eq_of_pairwise inOrder]
  rfl

/-- The pass reports nothing, and yet in its file the name of the first workflow does not mean the workflow. -/
theorem rivals_not_meant :
    ∃ output, Pass.run .temporal FileModel.emitter rivals = .ok output ∧ output.diagnostics = [] ∧
      ∃ artifact ∈ output.artifacts.toList, artifact.fileName = "TemporalClientExtensions.g.cs" ∧
        (Pass.symbols .temporal rivals).resolve? (Config.temporal.workflows.outputScope artifact.imports) "Greet" ≠
          some "P.Greet" := by
  have noDoubles : (Pass.extract .temporal rivals).doubles = [] := by decide +kernel
  obtain ⟨output, ok⟩ := Pass.exists_run_temporal_ok (c := rivals) (by rw [noDoubles]; exact nofun)
  have silent : output.diagnostics = [] := by
    have noActivities : (Pass.extract .temporal rivals).activities = none := by
      rw [Pass.extract_activities, if_neg (mt contains_rivals_iff.1 (by decide +kernel))]
    rw [Pass.diagnostics_eq_nil_iff ok, Pass.workflowMethods_extract, Pass.activityMethods_extract, rivals_workflows,
      noActivities]
    exact ⟨by decide +kernel, List.nodup_nil⟩
  have wellNamed : (Pass.symbols .temporal rivals).WellNamed := by
    have all : ∀ full ∈ rivalTypes, isDottedName full.toList = true := by decide +kernel
    exact fun full known => all full (contains_rivals_iff.1 known)
  have simple : ∀ part ∈ rivals.typeParts, isDotted part.decl.name = false ∧ isKeyword part.decl.name = false := by
    decide +kernel
  obtain ⟨artifact, written, fileName, names⟩ := Pass.run_workflow_names_iff wellNamed simple ok rivals_workflows
  refine ⟨output, ok, silent, artifact, written, fileName, ?_⟩
  obtain ⟨-, ofClass, -⟩ := names (workflow "P" "Greet") (by simp)
  obtain ⟨imports, -⟩ := names (workflow "Q" "Other") (by simp)
  have imported : "Q" ∈ artifact.imports :=
    (imports "Q" (Descriptor.mem_namespaces.2 (.inl rfl))).resolve_left (by decide)
  refine fun meant => ?_
  rcases ofClass.1 meant with inner | ⟨-, others⟩
  · have noCandidate : ∀ candidate ∈ SymbolTable.enclosingCandidates (Config.temporal.workflows.outputScope ∅) "Greet",
        candidate ∉ rivalTypes := by decide +kernel
    exact noCandidate "P.Greet" (List.mem_of_find?_eq_some inner) (by decide +kernel)
  · have rival := others "Q" imported (contains_rivals_iff.2 (by decide +kernel))
    exact absurd rival (by decide +kernel)

end Sample

end TypedWrappers

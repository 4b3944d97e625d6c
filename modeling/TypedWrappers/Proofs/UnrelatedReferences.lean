import Mathlib.Data.List.Basic
import Mathlib.Data.List.Find
import TypedWrappers.Pass.Basic
import TypedWrappers.Proofs.Collisions
import TypedWrappers.Proofs.DisplayedTypes
import TypedWrappers.Proofs.NameMeaning
import TypedWrappers.Proofs.TypeReading

/-!
# References that nothing mentions

A compilation refers to library types. Every lookup tries full names that end in the name that is written, and so a
library type can only count where its last part is that of a name in the compilation.

- `SymbolTable.resolve?_congr`: what a name means depends on the known types with its last part;
- `SymbolTable.ReadsLike`: two tables that give the written names one meaning;
- `Pass.Mentions`: the library types that a pass may look for;
- `Pass.extract_eq_of_agreeOnMentioned`: what a pass finds depends on those alone;
- `Pass.run_insert_reference`: further references change nothing, as long as nothing mentions them.
-/

namespace TypedWrappers

open Text

/-! ## What one name depends on -/

namespace SymbolTable

variable {table table' : SymbolTable} {scope : Scope}

theorem find?_enclosingCandidates_congr {name : String}
    (agree : ∀ full, simpleName full = simpleName name → table.contains full = table'.contains full) :
    (enclosingCandidates scope name).find? table.contains = (enclosingCandidates scope name).find? table'.contains := by
  refine List.find?_congr fun full mem => ?_
  obtain ⟨ns, -, rfl⟩ := List.mem_map.1 mem
  exact agree _ (simpleName_qualified ns name)

theorem lookupDotted_congr {name : String}
    (agree : ∀ full, simpleName full = simpleName name → table.contains full = table'.contains full) :
    table.lookupDotted scope name = table'.lookupDotted scope name := by
  rw [lookupDotted, lookupDotted, agree name rfl, find?_enclosingCandidates_congr agree]

theorem lookupSimple_congr {name : String}
    (agree : ∀ full, simpleName full = simpleName name → table.contains full = table'.contains full) :
    table.lookupSimple scope name = table'.lookupSimple scope name := by
  have imported : table.imported scope name = table'.imported scope name := by
    refine List.filter_congr fun full mem => ?_
    obtain ⟨ns, -, rfl⟩ := List.mem_map.1 mem
    exact agree _ (simpleName_qualified (trim ns) name)
  rw [lookupSimple, lookupSimple, agree name rfl, find?_enclosingCandidates_congr agree, imported]

/-- What a name means depends on the known types with its last part, and on the one behind the alias of the global
namespace. -/
theorem resolve?_congr {written : String}
    (agree : ∀ full, simpleName full = simpleName (trim written) ∨ TypeSyntax.globalAlias ++ full = trim written →
      table.contains full = table'.contains full) :
    table.resolve? scope written = table'.resolve? scope written := by
  have sameEnd := fun full same => agree full (.inl same)
  unfold resolve?
  dsimp only
  cases aliased : afterPrefix? TypeSyntax.globalAlias (trim written) with
  | some full => simp only [agree full (.inr (append_of_afterPrefix? aliased))]
  | none =>
    cases keywordType? (trim written) with
    | some full => rfl
    | none => simp only [lookupDotted_congr sameEnd, lookupSimple_congr sameEnd]

end SymbolTable

/-! ## Names have no blanks around them -/

theorem TypeSyntax.trim_of_mem_namesIn {text name : String} (h : name ∈ namesIn text) : trim name = name := by
  unfold namesIn at h
  cases parsed : parse? text with
  | none =>
    rw [parsed] at h
    cases h
  | some t =>
    rw [parsed] at h
    exact trim_of_isTypeName ((wellNamed_iff t).1 (parse?_eq_some_iff.1 parsed).1 name h)

theorem SymbolTable.trim_of_mem_attributeNames {written name : String} (h : name ∈ attributeNames written) :
    trim name = name := by
  have chars : (attributeName written).toList = trimChars (written.toList.takeWhile (· ≠ '(')) := by
    rw [attributeName, trim, String.toList_ofList, String.toList_ofList]
  have ending : ∀ c ∈ attributeEnding.toList, isBlank c = false := by
    have all : attributeEnding.toList.all (fun c => !isBlank c) = true := by decide
    intro c hc
    simpa using List.all_eq_true.1 all c hc
  rcases List.mem_cons.1 h with rfl | h
  · exact trim_trim _
  · obtain rfl := List.mem_singleton.1 h
    -- each end is that of the name or that of the ending
    refine trim_eq_self (fun c first => ?_) fun c last => ?_
    · rw [String.toList_append, List.head?_append, chars] at first
      rcases Option.or_eq_some_iff.1 first with first | ⟨-, first⟩
      · exact isBlank_of_head?_trimChars first
      · exact ending c (List.mem_of_mem_head? first)
    · rw [String.toList_append, List.getLast?_append, chars] at last
      rcases Option.or_eq_some_iff.1 last with last | ⟨-, last⟩
      · exact ending c (List.mem_of_mem_getLast? last)
      · exact isBlank_of_getLast?_trimChars last

theorem MemberDecl.trim_of_mem_names {d : MemberDecl} {name : String} (h : name ∈ d.names) : trim name = name := by
  simp only [names, typeNames, List.mem_append, List.mem_flatMap] at h
  rcases h with ⟨written, -, mem⟩ | mem | ⟨p, -, mem⟩
  · exact SymbolTable.trim_of_mem_attributeNames mem
  · exact TypeSyntax.trim_of_mem_namesIn mem
  · exact TypeSyntax.trim_of_mem_namesIn mem

theorem TypeDecl.trim_of_mem_names {d : TypeDecl} {name : String} (h : name ∈ d.names) : trim name = name := by
  simp only [names, List.mem_append, List.mem_flatMap] at h
  rcases h with (⟨written, -, mem⟩ | ⟨base, -, mem⟩) | ⟨m, -, mem⟩
  · exact SymbolTable.trim_of_mem_attributeNames mem
  · exact TypeSyntax.trim_of_mem_namesIn mem
  · exact m.trim_of_mem_names mem

/-! ## What the extractors depend on -/

/-- Two tables list the same parts of types, and the names that are written in a part mean the same in both. -/
structure SymbolTable.ReadsLike (table table' : SymbolTable) : Prop where
  parts : table.parts = table'.parts
  meaning : ∀ part ∈ table.parts, SameMeaningOf part.decl.names table part.scope table' part.scope

/-- The table lists a type, or the type that a member stands in. -/
def SymbolTable.Lists (table : SymbolTable) : Declaration → Prop
  | .type part => part ∈ table.parts
  | .member m => ∃ part ∈ table.parts, m ∈ part.members

theorem Pass.lists_of_mem_scanned {config : Config} {c : Compilation} {d : Declaration} (h : d ∈ scanned config c) :
    (symbols config c).Lists d := by
  cases d with
  | type part => exact (type_mem_scanned.1 h).1
  | member m =>
    obtain ⟨part, listed, -, hm⟩ := member_mem_scanned.1 h
    exact ⟨part, listed, hm⟩

theorem Extractor.all_congr {α : Type} {e : Extractor α} {table table' : SymbolTable} {ds : List Declaration}
    (same : ∀ d ∈ ds, e.describe? table d = e.describe? table' d) : e.all table ds = e.all table' ds :=
  List.filterMap_congr fun d hd => same d (List.mem_of_mem_filter hd)

section Extractors

variable {table table' : SymbolTable} (h : table.ReadsLike table')

include h

theorem SymbolTable.ReadsLike.partsOf (fullName : String) : table.partsOf fullName = table'.partsOf fullName := by
  rw [SymbolTable.partsOf, SymbolTable.partsOf, h.parts]

theorem SymbolTable.ReadsLike.member {part : TypePart} (listed : part ∈ table.parts) {m : Member}
    (hm : m ∈ part.members) : SameMeaningOf m.decl.names table m.scope table' m.scope := by
  obtain ⟨decl, mem, rfl⟩ := List.mem_map.1 hm
  exact (h.meaning part listed).mono (TypeDecl.memberNames_subset_names mem)

theorem SymbolTable.ReadsLike.any_isMarked {parts : List TypePart} (listed : ∀ part ∈ parts, part ∈ table.parts)
    (marker : String) : parts.any (·.isMarked table marker) = parts.any (·.isMarked table' marker) := by
  rw [Bool.eq_iff_iff, List.any_eq_true, List.any_eq_true]
  exact exists_congr fun part => and_congr_right fun mem => by
    rw [TypePart.isMarked_congr (h.meaning part (listed part mem))]

theorem WorkflowTarget.describe?_congr {d : Declaration} (listed : table.Lists d) (target : WorkflowTarget)
    (task : TaskType) : target.describe? task table d = target.describe? task table' d := by
  cases d with
  | member m => rfl
  | type part =>
    have ofPart : part ∈ table.parts := listed
    have listedAll : ∀ other ∈ table.partsOf part.fullName, other ∈ table.parts :=
      fun other mem => (SymbolTable.mem_partsOf.1 mem).1
    have entryPoint : target.entryPoint? table (table.partsOf part.fullName) =
        target.entryPoint? table' (table.partsOf part.fullName) := by
      refine List.find?_congr fun m mem => ?_
      obtain ⟨other, ho, hm⟩ := List.mem_flatMap.1 mem
      exact Member.isMarkedMethod_congr (h.member (listedAll other ho) hm) target.entryMarker
    have optedIn : target.hasOptedIn table (table.partsOf part.fullName) =
        target.hasOptedIn table' (table.partsOf part.fullName) := by
      rw [hasOptedIn, hasOptedIn, funext fun marker => h.any_isMarked listedAll marker]
    rw [describe?_type, describe?_type, partsAround_of_mem ofPart, partsAround_of_mem (h.parts ▸ ofPart), ← h.partsOf,
      isWorkflow, isWorkflow, h.any_isMarked listedAll, optedIn, entryPoint]
    split
    · refine Option.bind_congr fun m mem => ?_
      obtain ⟨other, ho, hm⟩ := List.mem_flatMap.1 (List.mem_of_find?_eq_some mem)
      exact Member.describe?_congr (h.member (listedAll other ho) hm) task
    · rfl

theorem ActivityTarget.describe?_congr {d : Declaration} (listed : table.Lists d) (target : ActivityTarget)
    (task : TaskType) : target.describe? task table d = target.describe? task table' d := by
  cases d with
  | type part => rfl
  | member m =>
    obtain ⟨part, ofPart, hm⟩ := listed
    rw [describe?, describe?, Member.hasMarker_congr (h.member ofPart hm), Member.describe?_congr (h.member ofPart hm)]

theorem MockTarget.activitiesOf_congr {parts : List TypePart} (listed : ∀ part ∈ parts, part ∈ table.parts)
    (marker : String) (task : TaskType) :
    activitiesOf table marker task parts = activitiesOf table' marker task parts := by
  have meaning : ∀ m ∈ parts.flatMap TypePart.members,
      SymbolTable.SameMeaningOf m.decl.names table m.scope table' m.scope := by
    intro m mem
    obtain ⟨part, hp, hm⟩ := List.mem_flatMap.1 mem
    exact h.member (listed part hp) hm
  rw [activitiesOf, activitiesOf,
    List.filter_congr fun m mem => Member.isMarkedMethod_congr (meaning m mem) marker]
  exact List.filterMap_congr fun m mem => Member.describe?_congr (meaning m (List.mem_of_mem_filter mem)) task

theorem MockTarget.describe?_congr {d : Declaration} (listed : table.Lists d) (target : MockTarget) (marker : String)
    (task : TaskType) : target.describe? marker task table d = target.describe? marker task table' d := by
  cases d with
  | member m => rfl
  | type part =>
    have listedAll : ∀ fullName, ∀ other ∈ table.partsOf fullName, other ∈ table.parts :=
      fun _ other mem => (SymbolTable.mem_partsOf.1 mem).1
    have isDouble : target.isDouble table part = target.isDouble table' part := by
      rw [MockTarget.isDouble, MockTarget.isDouble, ← h.partsOf]
      refine h.any_isMarked (fun other mem => ?_) target.marker
      rcases List.mem_append.1 mem with mem | mem
      · exact listedAll part.fullName other mem
      · rwa [List.mem_singleton.1 mem]
    have first (fullName : String) : table.find? fullName = table'.find? fullName := by
      rw [SymbolTable.find?, SymbolTable.find?, h.partsOf]
    have activities (fullName : String) : activitiesOf table marker task (table'.partsOf fullName) =
        activitiesOf table' marker task (table'.partsOf fullName) := by
      rw [← h.partsOf]
      exact activitiesOf_congr h (listedAll fullName) marker task
    rw [describe?_type, describe?_type, isDouble, targetName?_congr (h.meaning part listed)]
    simp only [first, h.partsOf, activities]

end Extractors

/-! ## What a pass depends on -/

/-- The full names of the types that a configuration looks for: the marker attributes, the base class of doubles and the
task type. -/
def Config.soughtTypes (config : Config) : List String :=
  [config.workflows.marker, config.workflows.entryMarker, config.activities.marker, config.mocks.marker,
    config.mocks.baseType, config.task.fullName] ++ config.workflows.optInMarker.toList

/-- The names that a compilation writes as attributes or, at any depth, in types of parameters, results and bases. -/
def Compilation.writtenNames (c : Compilation) : List String :=
  c.typeParts.flatMap fun part => part.decl.names

namespace Pass

variable {config : Config} {c c' : Compilation}

/-- The library types that a pass may look for: some name ends like the full name, or is that name behind the alias of
the global namespace. -/
def Mentions (config : Config) (c : Compilation) (full : String) : Prop :=
  (∃ name ∈ config.soughtTypes ++ c.writtenNames, simpleName name = simpleName full) ∨
    TypeSyntax.globalAlias ++ full ∈ c.writtenNames

section Agreement

variable (files : c.files = c'.files)
  (agree : ∀ full, Mentions config c full → (symbols config c).contains full = (symbols config c').contains full)

include files agree

theorem readsLike_of_agreeOnMentioned : (symbols config c).ReadsLike (symbols config c') where
  parts := by rw [symbols_parts, symbols_parts, Compilation.typeParts, Compilation.typeParts, files]
  meaning := by
    intro part listed name mem
    have written : name ∈ c.writtenNames := List.mem_flatMap.2 ⟨part, listed, mem⟩
    refine SymbolTable.resolve?_congr fun full related => agree full ?_
    rw [part.decl.trim_of_mem_names mem] at related
    rcases related with sameEnd | behindAlias
    · exact .inl ⟨name, List.mem_append_right _ written, sameEnd.symm⟩
    · exact .inr (behindAlias ▸ written)

/-- **A pass depends on what is mentioned alone**: it finds the same in the same files, whichever other library types are
known. -/
theorem extract_eq_of_agreeOnMentioned : extract config c = extract config c' := by
  have like := readsLike_of_agreeOnMentioned files agree
  have sought : ∀ name ∈ config.soughtTypes, (symbols config c).contains name = (symbols config c').contains name :=
    fun name mem => agree name (.inl ⟨name, List.mem_append_left _ mem, rfl⟩)
  have scannedAlike : scanned config c = scanned config c' := by
    rw [scanned, scanned, Compilation.declarations, Compilation.declarations, Compilation.typeParts,
      Compilation.typeParts, files]
  have workflows := Extractor.all_congr (e := config.workflows.extractor config.task) fun d hd =>
    config.workflows.describe?_congr like (lists_of_mem_scanned hd) config.task
  have activities := Extractor.all_congr (e := config.activities.extractor config.task) fun d hd =>
    config.activities.describe?_congr like (lists_of_mem_scanned hd) config.task
  have doubles := Extractor.all_congr (e := config.mocks.extractor config.activities.marker config.task) fun d hd =>
    config.mocks.describe?_congr like (lists_of_mem_scanned hd) config.activities.marker config.task
  unfold extract
  dsimp only
  rw [workflows, activities, doubles, ← scannedAlike, sought config.workflows.marker (by simp [Config.soughtTypes]),
    sought config.activities.marker (by simp [Config.soughtTypes])]

end Agreement

/-- **Unrelated references change nothing**: a further reference leaves the files and the diagnostics of a pass as they
are, wherever it is added, if its last part is that of no type that the generator looks for and of no name that the
compilation writes, and if the compilation does not write it behind the alias of the global namespace. -/
theorem run_insert_reference (config : Config) (emit : Emitter) {c : Compilation} {before after : List String}
    {r : String} (references : c.references = before ++ after)
    (unrelated : ∀ name ∈ config.soughtTypes ++ c.writtenNames, simpleName name ≠ simpleName (trim r))
    (notAliased : TypeSyntax.globalAlias ++ trim r ∉ c.writtenNames) :
    run config emit { c with references := before ++ r :: after } = run config emit c := by
  have same : extract config c = extract config { c with references := before ++ r :: after } := by
    refine extract_eq_of_agreeOnMentioned rfl fun full mentioned => ?_
    have other : full ≠ trim r := by
      rintro rfl
      rcases mentioned with ⟨name, mem, sameEnd⟩ | aliased
      · exact unrelated name mem sameEnd
      · exact notAliased aliased
    rw [Bool.eq_iff_iff, contains_symbols_iff, contains_symbols_iff, references]
    simp [other, Compilation.typeParts]
  rw [run, run, same]

end Pass

/-! ## An example -/

namespace Sample

/-- A class with an activity that takes a value of the given type. -/
def runner (name type : String) : TypeDecl :=
  classPart name [] [⟨"Run", .method, false, ["Activity"], "void", [⟨"value", type⟩]⟩]

/-- Two pairs of activities, each with one name and one type of parameter; the one type stands behind the alias of the
global namespace. -/
def runners : Compilation where
  name := "Runners"
  references := ["Temporalio.Activities.ActivityAttribute"]
  files := [⟨"a", some "N", ["Temporalio.Activities"],
    [runner "A" "global::Foo", runner "B" "global::Foo", runner "C" "Goo", runner "D" "Goo"]⟩]

/-- What is found of the runners, where the type behind the alias has the given reference. -/
def foundRunners (aliased : TypeReference) : List Descriptor :=
  [activity "A" "Run" [⟨"value", aliased⟩], activity "B" "Run" [⟨"value", aliased⟩],
    activity "C" "Run" [⟨"value", .literal "Goo"⟩], activity "D" "Run" [⟨"value", .literal "Goo"⟩]]

/-- The finding that two runners share a helper. -/
def sharedRunner (first second : String) : Diagnostic :=
  .duplicateWrapper "Activities" "ExecuteRunAsync" ["N." ++ first ++ ".Run", "N." ++ second ++ ".Run"]

theorem run_insert_bar :
    runners.references = ["Temporalio.Activities.ActivityAttribute"] ++ [] ∧
      (∀ name ∈ Config.temporal.soughtTypes ++ runners.writtenNames, simpleName name ≠ simpleName (trim " N.Bar ")) ∧
      TypeSyntax.globalAlias ++ trim " N.Bar " ∉ runners.writtenNames ∧
      Pass.run .temporal FileModel.emitter
          { runners with references := ["Temporalio.Activities.ActivityAttribute"] ++ " N.Bar " :: [] } =
        Pass.run .temporal FileModel.emitter runners := by
  have unrelated : ∀ name ∈ Config.temporal.soughtTypes ++ runners.writtenNames,
      simpleName name ≠ simpleName (trim " N.Bar ") := by decide +kernel
  have notAliased : TypeSyntax.globalAlias ++ trim " N.Bar " ∉ runners.writtenNames := by decide +kernel
  exact ⟨rfl, unrelated, notAliased, Pass.run_insert_reference .temporal FileModel.emitter rfl unrelated notAliased⟩

/-- What a pass reports where it finds the runners and nothing else. -/
theorem run_of_foundRunners (c : Compilation) (aliased : TypeReference) (findings : List Diagnostic)
    (known : (Pass.symbols .temporal c).contains Config.temporal.activities.marker = true)
    (found : (Pass.extract .temporal c).workflows = none ∧ (Pass.extract .temporal c).doubles = [] ∧
      (Config.temporal.activities.extractor Config.temporal.task).all (Pass.symbols .temporal c)
        (Pass.scanned .temporal c) = foundRunners aliased)
    (inOrder : (foundRunners aliased).Pairwise fun a b => a.precedes b = true)
    (reported : collisions "Activities" (Pass.activityWrappers .temporal (foundRunners aliased)) = findings) :
    ∃ output, Pass.run .temporal FileModel.emitter c = .ok output ∧ output.diagnostics = findings := by
  obtain ⟨output, ok⟩ := Pass.exists_run_temporal_ok (c := c) (by rw [found.2.1]; exact nofun)
  have distinct : dropRepeats (foundRunners aliased) = foundRunners aliased := rfl
  have activities : (Pass.extract .temporal c).activities = some (foundRunners aliased) := by
    rw [Pass.extract_activities_of_pairwise _ known found.2.2 inOrder, distinct]
  have noWorkflow : collisions "TemporalClientExtensions" [] = [] := collisions_eq_of_perm _ [] (.refl []) .nil
  refine ⟨output, ok, ?_⟩
  rw [(Pass.write_eq_ok_of_run ok).2, Pass.diagnose, found.1, activities, ← reported]
  exact congrArg (· ++ _) noWorkflow

/-- A type that is written behind the alias is known by another text once it is a reference, and what a pass reports is
in the order of these texts. -/
theorem run_insert_aliased :
    (∀ name ∈ Config.temporal.soughtTypes ++ runners.writtenNames, simpleName name ≠ simpleName (trim "Foo")) ∧
      Pass.run .temporal FileModel.emitter
          { runners with references := ["Temporalio.Activities.ActivityAttribute"] ++ "Foo" :: [] } ≠
        Pass.run .temporal FileModel.emitter runners := by
  refine ⟨by decide +kernel, fun same => ?_⟩
  obtain ⟨output, ok, reported⟩ := run_of_foundRunners runners (.literal "global::Foo")
    [sharedRunner "C" "D", sharedRunner "A" "B"] (Pass.contains_symbols_iff.2 (.inr (by decide +kernel)))
    (by decide +kernel) (by decide +kernel)
    ((collisions_eq_of_perm "Activities" [⟨"ExecuteRunAsync", ["Goo"]⟩, ⟨"ExecuteRunAsync", ["Goo"]⟩,
      ⟨"ExecuteRunAsync", ["global::Foo"]⟩, ⟨"ExecuteRunAsync", ["global::Foo"]⟩] (by decide +kernel)
      (by decide +kernel)).trans (by decide +kernel))
  obtain ⟨output', ok', reported'⟩ := run_of_foundRunners
    { runners with references := ["Temporalio.Activities.ActivityAttribute"] ++ "Foo" :: [] }
    ⟨"global::Foo", some "Foo", none, ∅⟩ [sharedRunner "A" "B", sharedRunner "C" "D"]
    (Pass.contains_symbols_iff.2 (.inr (by decide +kernel))) (by decide +kernel) (by decide +kernel)
    ((collisions_eq_of_perm "Activities" [⟨"ExecuteRunAsync", ["Foo"]⟩, ⟨"ExecuteRunAsync", ["Foo"]⟩,
      ⟨"ExecuteRunAsync", ["Goo"]⟩, ⟨"ExecuteRunAsync", ["Goo"]⟩] (by decide +kernel) (by decide +kernel)).trans
      (by decide +kernel))
  rw [ok, ok'] at same
  rw [← Except.ok.inj same, reported'] at reported
  exact absurd reported (by decide +kernel)

end Sample

end TypedWrappers

import TypedWrappers.Pass.Basic
import TypedWrappers.Proofs.DescriptorOrder
import TypedWrappers.Proofs.FirstDoubles

/-!
# What a pass finds

- `Pass.wellFormed_of_mem_workflows`, `Pass.wellFormed_of_mem_activities`: descriptors are well formed;
- `Pass.mem_activities_iff`: which methods are listed as activities;
- `Pass.of_mem_doubles`: a double has a namespace and the activities of the class that it names;
- `MockTarget.mem_activitiesOf`: which methods these are.
-/

namespace TypedWrappers

theorem ne_empty_of_namedNamespace? {ns : Option String} {name : String} (h : namedNamespace? ns = some name) :
    name ≠ "" := by
  have kept := (Option.filter_eq_some_iff.1 h).2
  exact of_decide_eq_true kept

theorem WorkflowTarget.wellFormed_of_describe? {target : WorkflowTarget} {task : TaskType} {table : SymbolTable}
    {decl : Declaration} {d : Descriptor} (h : target.describe? task table decl = some d) : d.WellFormed := by
  cases decl with
  | member m => cases h
  | type part =>
    rw [describe?_type] at h
    split at h
    · obtain ⟨entry, -, described⟩ := Option.bind_eq_some_iff.1 h
      exact (Member.describe?_eq_some_iff.1 described).2
    · cases h

/-- Activities are the methods with the attribute that can be described. -/
theorem ActivityTarget.mem_all_extractor {target : ActivityTarget} {task : TaskType} {table : SymbolTable}
    {ds : List Declaration} {a : Descriptor} :
    a ∈ (target.extractor task).all table ds ↔
      ∃ m, .member m ∈ ds ∧ m.isMarkedMethod table target.marker = true ∧ m.description table task = a ∧
        a.WellFormed := by
  rw [Extractor.mem_all]
  constructor
  · rintro ⟨decl, listed, candidate, described⟩
    cases decl with
    | type part => cases described
    | member m =>
      have described : target.describe? task table (.member m) = some a := described
      rw [describe?] at described
      split at described
      · next marked =>
        have isMethod := (Bool.and_eq_true_iff.1 candidate).1
        exact ⟨m, listed, Bool.and_eq_true_iff.2 ⟨isMethod, marked⟩, Member.describe?_eq_some_iff.1 described⟩
      · cases described
  · rintro ⟨m, listed, isMarked, described⟩
    obtain ⟨isMethod, marked⟩ := Bool.and_eq_true_iff.1 isMarked
    -- a method with the attribute has attributes
    have attributes : m.decl.attributes.isEmpty = false := by
      obtain ⟨written, hw, -⟩ := List.any_eq_true.1 marked
      exact List.isEmpty_eq_false_iff.2 (List.ne_nil_of_mem hw)
    refine ⟨.member m, listed, ?_, ?_⟩
    · exact Bool.and_eq_true_iff.2 ⟨isMethod, by rw [attributes]; rfl⟩
    · show target.describe? task table (.member m) = some a
      rw [describe?, if_pos marked]
      exact Member.describe?_eq_some_iff.2 described

namespace MockTarget

/-- The activities of a class are its methods with the attribute, where they can be described. -/
theorem mem_activitiesOf {table : SymbolTable} {marker : String} {task : TaskType} {parts : List TypePart}
    {a : Descriptor} :
    a ∈ activitiesOf table marker task parts ↔
      ∃ m ∈ parts.flatMap TypePart.members, m.isMarkedMethod table marker = true ∧ m.description table task = a ∧
        a.WellFormed := by
  simp only [activitiesOf, List.mem_filterMap, List.mem_filter, Member.describe?_eq_some_iff, and_assoc]

/-- A double has a namespace, and the activities of the class that it names. -/
theorem of_describe? {target : MockTarget} {marker : String} {task : TaskType} {table : SymbolTable}
    {decl : Declaration} {double : DoubleDescriptor} (h : target.describe? marker task table decl = some double) :
    double.ns ≠ "" ∧
      double.activities =
        activitiesOf table marker task (table.partsOf (qualify double.targetNamespace double.targetName)) := by
  cases decl with
  | member m => cases h
  | type part =>
    rw [describe?_type] at h
    split at h
    · obtain ⟨ns, named, h⟩ := Option.bind_eq_some_iff.1 h
      obtain ⟨fullName, -, h⟩ := Option.bind_eq_some_iff.1 h
      obtain ⟨first, found, h⟩ := Option.bind_eq_some_iff.1 h
      cases h
      have listed : first ∈ table.partsOf fullName := List.mem_of_mem_head? found
      have target : qualify (namedNamespace? first.file.ns) first.decl.name = fullName := by
        rw [qualify_namedNamespace?]
        exact (SymbolTable.mem_partsOf.1 listed).2
      exact ⟨ne_empty_of_namedNamespace? named, by rw [target]⟩
    · cases h

end MockTarget

namespace Pass

variable {config : Config} {c : Compilation}

theorem wellFormed_of_mem_workflows {workflows : List Descriptor} (h : (extract config c).workflows = some workflows) :
    ∀ w ∈ workflows, w.WellFormed := by
  rw [extract_workflows] at h
  obtain rfl := eq_normalize_of_optional h
  intro w hw
  obtain ⟨decl, -, -, described⟩ := Extractor.mem_all.1 (mem_normalize.1 hw)
  exact WorkflowTarget.wellFormed_of_describe? described

/-- The activities of a pass are the methods with the attribute among the members that are scanned. -/
theorem mem_activities_iff {activities : List Descriptor} (found : (extract config c).activities = some activities)
    {a : Descriptor} :
    a ∈ activities ↔
      ∃ m, .member m ∈ scanned config c ∧
        m.isMarkedMethod (symbols config c) config.activities.marker = true ∧
          m.description (symbols config c) config.task = a ∧ a.WellFormed := by
  rw [extract_activities] at found
  rw [eq_normalize_of_optional found, mem_normalize, ActivityTarget.mem_all_extractor]

theorem wellFormed_of_mem_activities {activities : List Descriptor}
    (found : (extract config c).activities = some activities) : ∀ a ∈ activities, a.WellFormed := by
  intro a ha
  obtain ⟨-, -, -, -, wellFormed⟩ := (mem_activities_iff found).1 ha
  exact wellFormed

/-- A double has a namespace, and the activities of the class that it names. -/
theorem of_mem_doubles {double : DoubleDescriptor} (h : double ∈ (extract config c).doubles) :
    double.ns ≠ "" ∧
      double.activities = MockTarget.activitiesOf (symbols config c) config.activities.marker config.task
        ((symbols config c).partsOf (qualify double.targetNamespace double.targetName)) := by
  rw [extract_doubles] at h
  obtain ⟨decl, -, -, described⟩ := Extractor.mem_all.1 (mem_of_mem_firstDoubles h)
  exact MockTarget.of_describe? described

theorem wellFormed_of_mem_doubles {double : DoubleDescriptor} (h : double ∈ (extract config c).doubles) :
    ∀ a ∈ double.activities, a.WellFormed := by
  rw [(of_mem_doubles h).2]
  intro a ha
  obtain ⟨m, -, -, -, wellFormed⟩ := MockTarget.mem_activitiesOf.1 ha
  exact wellFormed

end Pass

end TypedWrappers

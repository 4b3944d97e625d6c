import Mathlib.Data.List.Pairwise
import TypedWrappers.Proofs.Collisions

/-!
# Members that a class cannot both have

Two methods of one class may share a name as long as their lists of parameter types differ as they are written; else
members need names of their own. When a pass has nothing to report, the methods of the two static classes differ in
their keys, in which known types stand by their full names. That is less than the rule asks for: the written types may
still agree. And nothing is ever reported of a double.

- `DistinctMembers`: a class can have these members;
- `ToldApart`: methods of one name that look alike take the same types, whatever is written;
- `Pass.run_distinctMembers_iff`: which classes of a pass without findings can have their members.
-/

namespace TypedWrappers

/-! ## The rule -/

def MemberDraft.name : MemberDraft → String
  | method draft => draft.name
  | property draft => draft.name

/-- Two members that one class cannot both have. -/
def MemberDraft.Clashes : MemberDraft → MemberDraft → Prop
  | method a, method b => a.name = b.name ∧ a.parameters.map Prod.fst = b.parameters.map Prod.fst
  | a, b => a.name = b.name

def DistinctMembers (members : List MemberDraft) : Prop :=
  members.Pairwise fun a b => ¬ a.Clashes b

theorem MemberDraft.Clashes.symm {a b : MemberDraft} (h : a.Clashes b) : b.Clashes a := by
  cases a <;> cases b
  case method.method => exact ⟨h.1.symm, h.2.symm⟩
  all_goals exact Eq.symm h

/-! ## Static classes -/

/-- The parameter types as they are written. -/
def Descriptor.displays (d : Descriptor) : List String :=
  d.parameters.map (·.type.display)

/-- Methods of one name for declarations whose parameter types are written alike take the same types. -/
def ToldApart (methods : List RenderedMethod) : Prop :=
  ∀ m ∈ methods, ∀ m' ∈ methods, m.draft.name = m'.draft.name → m.source.displays = m'.source.displays →
    m.source.signature = m'.source.signature

theorem Descriptor.map_fst_parameterDrafts (d : Descriptor) : d.parameterDrafts.map Prod.fst = d.displays := by
  simp [parameterDrafts, displays, Function.comp_def]

theorem WorkflowTarget.types_rendered {config : Config} {workflows : List Descriptor} {m : RenderedMethod}
    (h : m ∈ rendered config workflows) :
    m.draft.parameters.map Prod.fst =
      ("this " ++ config.workflows.clientType) :: (m.source.displays ++ [config.workflows.optionsType]) := by
  obtain ⟨w, -, h⟩ := List.mem_flatMap.1 h
  obtain ⟨draft, isMethod, rfl⟩ := List.mem_map.1 h
  rcases List.mem_pair.1 isMethod with rfl | rfl <;> simp [method, Descriptor.map_fst_parameterDrafts]

theorem ActivityTarget.types_rendered {config : Config} {activities : List Descriptor} {m : RenderedMethod}
    (h : m ∈ rendered config activities) :
    m.draft.parameters.map Prod.fst = m.source.displays ++ [config.activities.optionsType] := by
  obtain ⟨a, -, rfl⟩ := List.mem_map.1 h
  simp [method, Descriptor.map_fst_parameterDrafts]

/-- Methods with keys of their own can be in one class exactly when they are told apart by what is written. -/
theorem RenderedMethod.distinctMembers_iff {methods : List RenderedMethod}
    (keys : (methods.map RenderedMethod.key).Nodup)
    (types : ∀ m ∈ methods, ∀ m' ∈ methods, m.draft.parameters.map Prod.fst = m'.draft.parameters.map Prod.fst ↔
      m.source.displays = m'.source.displays) :
    DistinctMembers (members methods) ↔ ToldApart methods := by
  -- between methods, not between members: overloads may be rendered alike and are still two
  have symm : Std.Symm fun m m' : RenderedMethod => ¬ (MemberDraft.method m.draft).Clashes (.method m'.draft) :=
    ⟨fun _ _ apart clash => apart clash.symm⟩
  rw [DistinctMembers, members, List.pairwise_map]
  constructor
  · intro distinct m hm m' hm' sameName sameDisplays
    by_contra otherTypes
    have apart : ¬ (MemberDraft.method m.draft).Clashes (.method m'.draft) :=
      distinct.forall hm hm' fun same => otherTypes (by rw [same])
    exact apart ⟨sameName, (types m hm m' hm').2 sameDisplays⟩
  · intro toldApart
    refine (List.pairwise_map.1 keys).imp_of_mem fun {m m'} hm hm' otherKey clash => ?_
    have sameTypes := toldApart m hm m' hm' clash.1 ((types m hm m' hm').1 clash.2)
    exact otherKey (congrArg₂ WrapperKey.mk clash.1 sameTypes)

/-- There is nothing to report of methods exactly when each has a key of its own. -/
theorem collisions_map_wrapper_eq_nil_iff {container : String} {methods : List RenderedMethod} :
    collisions container (methods.map RenderedMethod.wrapper) = [] ↔ (methods.map RenderedMethod.key).Nodup := by
  obtain ⟨keys, shared, eq⟩ := collisions_map_wrapper container methods
  have count (key : WrapperKey) :
      (methods.filter (·.key = key)).length = (methods.map RenderedMethod.key).count key := by
    rw [← List.countP_eq_length_filter, List.count, List.countP_map]
    rfl
  rw [eq, List.map_eq_nil_iff, List.eq_nil_iff_forall_not_mem, List.nodup_iff_count_le_one]
  refine forall_congr' fun key => ?_
  rw [shared.mem_iff, count]
  omega

/-! ## Doubles -/

namespace MockTarget

variable {config : Config}

/-- Two activities can have their members in one double: the names are different, and so is the property for each from
the method for the other. -/
def Apart (config : Config) (a b : Descriptor) : Prop :=
  a.name ≠ b.name ∧ config.mocks.propertyName a ≠ b.name ∧ config.mocks.propertyName b ≠ a.name

instance : Std.Symm (Apart config) :=
  ⟨fun _ _ apart => ⟨apart.1.symm, apart.2.2, apart.2.1⟩⟩

theorem forall_not_clashes_iff {a b : Descriptor} :
    (∀ x ∈ membersFor config a, ∀ y ∈ membersFor config b, ¬ x.Clashes y) ↔ Apart config a b := by
  have sameProperty : config.mocks.propertyName a = config.mocks.propertyName b ↔ a.name = b.name := by
    rw [propertyName, propertyName, String.append_right_inj]
  simp only [membersFor, List.forall_mem_cons, List.not_mem_nil, false_implies, implies_true, and_true,
    MemberDraft.Clashes, MemberDraft.name, property, method, sameProperty, Apart]
  constructor
  · rintro ⟨⟨names, mine⟩, yours, -⟩
    exact ⟨names, mine, Ne.symm yours⟩
  · rintro ⟨names, mine, yours⟩
    exact ⟨⟨names, mine⟩, Ne.symm yours, fun clash => names clash.1⟩

/-- A double can have its members exactly when its activities have names of their own, overloads too, and none of them
has the name of a property. -/
theorem distinctMembers_iff {double : DoubleDescriptor} :
    DistinctMembers (members config double) ↔
      (double.activities.map Descriptor.name).Nodup ∧
        ∀ a ∈ double.activities, ∀ b ∈ double.activities, config.mocks.propertyName a ≠ b.name := by
  have sorted := sortDescriptors_perm double.activities
  have pair (a : Descriptor) :
      (membersFor config a).Pairwise (fun x y => ¬ x.Clashes y) ↔ config.mocks.propertyName a ≠ a.name :=
    List.pairwise_pair
  rw [DistinctMembers, members, List.pairwise_flatMap, ← (sorted.map Descriptor.name).nodup_iff, List.Nodup,
    List.pairwise_map]
  simp only [forall_not_clashes_iff, pair, sorted.mem_iff]
  constructor
  · rintro ⟨own, others⟩
    refine ⟨others.imp And.left, fun a ha b hb => ?_⟩
    by_cases same : a = b
    · exact same ▸ own a ha
    · exact (others.forall (sorted.mem_iff.2 ha) (sorted.mem_iff.2 hb) same).2.1
  · rintro ⟨names, free⟩
    refine ⟨fun a ha => free a ha a ha, names.imp_of_mem fun {a b} ha hb ne => ?_⟩
    have ha := sorted.mem_iff.1 ha
    have hb := sorted.mem_iff.1 hb
    exact ⟨ne, free a ha b hb, free b hb a ha⟩

end MockTarget

/-! ## Passes without findings -/

namespace Pass

variable {config : Config} {emit : Emitter} {c : Compilation} {output : Output}

/-- A pass has nothing to report exactly when the methods of each static class have keys of their own. -/
theorem diagnostics_eq_nil_iff (ok : run config emit c = .ok output) :
    output.diagnostics = [] ↔
      ((workflowMethods config (extract config c)).map RenderedMethod.key).Nodup ∧
        ((activityMethods config (extract config c)).map RenderedMethod.key).Nodup := by
  rw [(write_eq_ok_of_run ok).2, diagnose, List.append_eq_nil_iff, ← map_wrapper_workflowMethods,
    ← map_wrapper_activityMethods, collisions_map_wrapper_eq_nil_iff, collisions_map_wrapper_eq_nil_iff]

/-- **What no findings mean**: where a pass succeeds and reports nothing, a static class that it has written can have
its members exactly when they are told apart by the types as written, and a double exactly when no activity is
overloaded or has the name of a property. -/
theorem run_distinctMembers_iff (ok : run config emit c = .ok output) (silent : output.diagnostics = []) :
    ((extract config c).workflows ≠ none →
      output.HasClass emit config.workflows.fileName config.workflows.className
        (RenderedMethod.members (workflowMethods config (extract config c)))) ∧
    (DistinctMembers (RenderedMethod.members (workflowMethods config (extract config c))) ↔
      ToldApart (workflowMethods config (extract config c))) ∧
    ((extract config c).activities ≠ none →
      output.HasClass emit config.activities.fileName config.activities.className
        (RenderedMethod.members (activityMethods config (extract config c)))) ∧
    (DistinctMembers (RenderedMethod.members (activityMethods config (extract config c))) ↔
      ToldApart (activityMethods config (extract config c))) ∧
    ∀ double ∈ (extract config c).doubles,
      output.HasClass emit (double.qualifiedName ++ config.generatedFileSuffix) double.name
        (MockTarget.members config double) ∧
      (DistinctMembers (MockTarget.members config double) ↔
        (double.activities.map Descriptor.name).Nodup ∧
          ∀ a ∈ double.activities, ∀ b ∈ double.activities, config.mocks.propertyName a ≠ b.name) := by
  obtain ⟨workflowKeys, activityKeys⟩ := (diagnostics_eq_nil_iff ok).1 silent
  refine ⟨hasClass_workflows ok, ?_, hasClass_activities ok, ?_, fun double h => ⟨hasClass_double ok h, ?_⟩⟩
  · refine RenderedMethod.distinctMembers_iff workflowKeys fun m hm m' hm' => ?_
    rw [WorkflowTarget.types_rendered hm, WorkflowTarget.types_rendered hm', List.cons_inj_right,
      List.append_left_inj]
  · refine RenderedMethod.distinctMembers_iff activityKeys fun m hm m' hm' => ?_
    rw [ActivityTarget.types_rendered hm, ActivityTarget.types_rendered hm', List.append_left_inj]
  · exact MockTarget.distinctMembers_iff

end Pass

/-! ## An example -/

namespace Sample

/-- An activity with an overload, and a double of their class. -/
def overloads : Compilation where
  name := "Overloads"
  references := ["Temporalio.Activities.ActivityAttribute"]
  files :=
    [⟨"a", some "N", ["Temporalio.Activities", "Temporalio.Generators.Testing"],
      [classPart "Acts" [] [method "Run" "Activity" "void",
          { method "Run" "Activity" "void" with parameters := [⟨"n", "int"⟩] }],
        { classPart "D" ["GenerateNSubstituteMocks"] [] with baseTypes := ["ActivityMockBase<Acts>"] }]⟩]

/-- The two activities, and the double. -/
def overloaded : List Descriptor :=
  [activity "Acts" "Run" [], activity "Acts" "Run" [⟨"n", ⟨"int", some "int", none, .empty⟩⟩]]

def overloadedDouble : DoubleDescriptor :=
  ⟨"D", "N", "Acts", some "N", overloaded⟩

/-- The double is found. -/
theorem doubles_overloads : (Pass.extract .temporal overloads).doubles = [overloadedDouble] := by
  decide +kernel

theorem exists_run_overloads : ∃ output, Pass.run .temporal FileModel.emitter overloads = .ok output := by
  have wellFormed : ∀ a ∈ overloadedDouble.activities, a.WellFormed := by decide +kernel
  have rendered : ∃ file, MockTarget.render .temporal overloadedDouble = .ok file :=
    (MockTarget.render_ok_iff wellFormed).2 ⟨by decide +kernel, by decide +kernel, by decide +kernel⟩
  exact Pass.exists_run_temporal_ok (by rw [doubles_overloads]; simpa using rendered)

theorem overloads_not_distinctMembers :
    ∃ output, Pass.run .temporal FileModel.emitter overloads = .ok output ∧ output.diagnostics = [] ∧
      ∃ members, output.HasClass FileModel.emitter "N.D.g.cs" "D" members ∧ ¬ DistinctMembers members := by
  obtain ⟨output, ok⟩ := exists_run_overloads
  have silent : output.diagnostics = [] := by
    have noWorkflows : (Pass.extract .temporal overloads).workflows = none := by
      rw [Pass.extract_workflows, if_neg (mt Pass.contains_symbols_iff.1 (by decide +kernel))]
    have known : (Pass.symbols .temporal overloads).contains Config.temporal.activities.marker = true :=
      Pass.contains_symbols_iff.2 (.inr (by decide +kernel))
    have activities : (Pass.extract .temporal overloads).activities = some (dropRepeats overloaded) :=
      Pass.extract_activities_of_pairwise overloaded known (by decide +kernel) (by decide +kernel)
    rw [Pass.diagnostics_eq_nil_iff ok, Pass.workflowMethods_extract, Pass.activityMethods_extract, noWorkflows,
      activities]
    exact ⟨List.nodup_nil, by decide +kernel⟩
  obtain ⟨-, -, -, -, ofDouble⟩ := Pass.run_distinctMembers_iff ok silent
  obtain ⟨hasClass, distinct_iff⟩ := ofDouble overloadedDouble (by rw [doubles_overloads]; exact List.mem_singleton_self _)
  have overloaded : ¬ (overloadedDouble.activities.map Descriptor.name).Nodup := by decide +kernel
  exact ⟨output, ok, silent, _, hasClass, fun distinct => overloaded (distinct_iff.1 distinct).1⟩

end Sample

end TypedWrappers

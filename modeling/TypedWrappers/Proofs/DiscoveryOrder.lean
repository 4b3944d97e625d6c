import TypedWrappers.Proofs.DescriptorOrder
import TypedWrappers.Proofs.FirstDoubles
import TypedWrappers.Proofs.Reordering
import TypedWrappers.Proofs.Samples

/-!
# The order of discovery

A pass over a reordered compilation finds the same (`Pass.run_eq_of_reordered`), as long as the compilation leaves
nothing to the order (`Pass.Unambiguous`): one entry point for a class, one descriptor for a key, one name for a type
and one double under a name.

Each extractor gives partners of the same declaration what only differs in order (`Extractor.all_rearranged`). Sorting
forgets the order of descriptors, keeping the first double under each name forgets that of the doubles, and rendering
sorts the activities of a double.
-/

namespace TypedWrappers

open Pass

/-! ## Extractors -/

/-- An extractor that gets related results from partners among the declarations finds related results. -/
theorem Extractor.all_rearranged {α : Type} {S : α → α → Prop} {e : Extractor α} {table table' : SymbolTable}
    {ds ds' : List Declaration} (h : Rearranged Declaration.Reordered ds ds')
    (candidate : ∀ d d', d.Reordered d' → e.isCandidate d = e.isCandidate d')
    (describe : ∀ d ∈ ds, ∀ d', d.Reordered d' → Option.Rel S (e.describe? table d) (e.describe? table' d')) :
    Rearranged S (e.all table ds) (e.all table' ds') := by
  have listed : Rearranged (fun d d' => d ∈ ds ∧ d.Reordered d') (ds.filter e.isCandidate) (ds'.filter e.isCandidate) :=
    (h.and_left fun d hd => hd).filter fun d d' r => candidate d d' r.2
  exact listed.filterMap fun d d' r => describe d r.1 d' r.2

section Extractors

variable {table table' : SymbolTable} (h : table.Reordered table') {d d' : Declaration}

theorem WorkflowTarget.isCandidate_reordered (r : d.Reordered d') :
    WorkflowTarget.isCandidate d = WorkflowTarget.isCandidate d' := by
  cases r with
  | member _ => rfl
  | type r => simp only [WorkflowTarget.isCandidate, r.decl.kind, r.decl.attributes.isEmpty_eq]

theorem ActivityTarget.isCandidate_reordered (r : d.Reordered d') :
    ActivityTarget.isCandidate d = ActivityTarget.isCandidate d' := by
  cases r with
  | type _ => rfl
  | member r => simp only [ActivityTarget.isCandidate, r.decl]

theorem MockTarget.isCandidate_reordered (r : d.Reordered d') :
    MockTarget.isCandidate d = MockTarget.isCandidate d' := by
  cases r with
  | member _ => rfl
  | type r => simp only [MockTarget.isCandidate, r.decl.kind, r.decl.baseTypes, r.decl.attributes.isEmpty_eq]

include h

/-- The parts around a declaration are those around its partner. -/
theorem WorkflowTarget.partsAround_rearranged {part part' : TypePart} (r : part.Reordered part') :
    Rearranged TypePart.Reordered (partsAround table part) (partsAround table' part') := by
  have parts : Rearranged TypePart.Reordered (table.partsOf part.fullName) (table'.partsOf part'.fullName) := by
    rw [← r.fullName]
    exact h.partsOf part.fullName
  unfold partsAround
  split
  · next none =>
    rw [none] at parts
    have none' : table'.partsOf part'.fullName = [] := List.length_eq_zero_iff.1 parts.length_eq.symm
    rw [none']
    exact .of_forall₂ (.cons r .nil)
  · next some =>
    split
    · next none' =>
      rw [none'] at parts
      exact absurd (List.length_eq_zero_iff.1 parts.length_eq) some
    · exact parts

/-- A class with one entry point is described alike, however its parts are listed. -/
theorem WorkflowTarget.describe?_reordered (target : WorkflowTarget) (task : TaskType) (r : d.Reordered d')
    (unique : ∀ part, d = .type part → ((partsAround table part).flatMap TypePart.members).countP
      (·.isMarkedMethod table target.entryMarker) ≤ 1) :
    target.describe? task table d = target.describe? task table' d' := by
  cases r with
  | member _ => rfl
  | @type part part' r =>
    have parts := partsAround_rearranged h r
    have marked (marker : String) : (partsAround table part).any (·.isMarked table marker) =
        (partsAround table' part').any (·.isMarked table' marker) :=
      parts.any_eq fun _ _ r => r.isMarked h marker
    have isWorkflow : target.isWorkflow table (partsAround table part) =
        target.isWorkflow table' (partsAround table' part') :=
      marked target.marker
    have hasOptedIn : target.hasOptedIn table (partsAround table part) =
        target.hasOptedIn table' (partsAround table' part') :=
      congrArg target.optInMarker.all (funext marked)
    have entry : Option.Rel Member.Reordered (target.entryPoint? table (partsAround table part))
        (target.entryPoint? table' (partsAround table' part')) :=
      (TypePart.members_rearranged parts).find?_rel (fun _ _ r => r.isMarkedMethod h target.entryMarker)
        (unique part rfl)
    rw [describe?_type, describe?_type, isWorkflow, hasOptedIn, bind_eq_of_rel entry fun _ _ r => r.describe? h task]

theorem ActivityTarget.describe?_reordered (target : ActivityTarget) (task : TaskType) (r : d.Reordered d') :
    target.describe? task table d = target.describe? task table' d' := by
  cases r with
  | type _ => rfl
  | member r => simp only [ActivityTarget.describe?, r.hasMarker h, r.describe? h]

/-- The base class of a double is seen alike in any part of it. -/
theorem MockTarget.targetName?_reordered (target : MockTarget) {part part' : TypePart} (r : part.Reordered part') :
    target.targetName? table part = target.targetName? table' part' := by
  have meaning := h.sameMeaning r.file
  have argument : target.baseArgument? table part = target.baseArgument? table' part' := by
    unfold MockTarget.baseArgument?
    rw [r.decl.baseTypes]
    simp only [TypePart.scope, meaning _]
    rfl
  unfold MockTarget.targetName?
  rw [argument]
  simp only [TypePart.scope, meaning _]

/-- The activities of a class are found in the order of its parts. -/
theorem MockTarget.activitiesOf_perm (activityMarker : String) (task : TaskType) {parts parts' : List TypePart}
    (r : Rearranged TypePart.Reordered parts parts') :
    (activitiesOf table activityMarker task parts).Perm (activitiesOf table' activityMarker task parts') := by
  have marked := (TypePart.members_rearranged r).filter fun _ _ m => m.isMarkedMethod h activityMarker
  exact (marked.filterMap fun m m' r => rel_of_eq (r.describe? h task)).perm

end Extractors

/-! ## Doubles -/

/-- Every part of a type gives it one simple name and one namespace. -/
def SymbolTable.OneName (table : SymbolTable) : Prop :=
  ∀ part ∈ table.parts, ∀ part' ∈ table.parts, part.fullName = part'.fullName →
    part.decl.name = part'.decl.name ∧ namedNamespace? part.file.ns = namedNamespace? part'.file.ns

instance (table : SymbolTable) : Decidable table.OneName :=
  inferInstanceAs (Decidable (∀ part ∈ table.parts, ∀ part' ∈ table.parts, part.fullName = part'.fullName →
    part.decl.name = part'.decl.name ∧ namedNamespace? part.file.ns = namedNamespace? part'.file.ns))

/-- A double with its activities in another order. -/
structure DoubleDescriptor.Reordered (double double' : DoubleDescriptor) : Prop where
  name : double.name = double'.name
  ns : double.ns = double'.ns
  targetName : double.targetName = double'.targetName
  targetNamespace : double.targetNamespace = double'.targetNamespace
  activities : double.activities.Perm double'.activities

section Doubles

variable {table table' : SymbolTable} (h : table.Reordered table') (oneName : table.OneName)

include h oneName

/-- Whichever part of a type comes first, it has the name and the namespace of the type. -/
theorem SymbolTable.Reordered.find?_rel (fullName : String) :
    Option.Rel (fun part part' => part.decl.name = part'.decl.name ∧
      namedNamespace? part.file.ns = namedNamespace? part'.file.ns) (table.find? fullName) (table'.find? fullName) := by
  have parts := h.partsOf fullName
  unfold SymbolTable.find?
  cases hp : table.partsOf fullName with
  | nil =>
    rw [hp] at parts
    rw [List.length_eq_zero_iff.1 parts.length_eq.symm]
    exact .none
  | cons first rest =>
    cases hp' : table'.partsOf fullName with
    | nil =>
      rw [hp, hp'] at parts
      exact absurd parts.length_eq (by simp)
    | cons first' rest' =>
      obtain ⟨partner, hm, r⟩ := parts.exists_left (show first' ∈ table'.partsOf fullName by rw [hp']; simp)
      have hf : first ∈ table.partsOf fullName := by rw [hp]; simp
      obtain ⟨listed, named⟩ := mem_partsOf.1 hf
      obtain ⟨listed', named'⟩ := mem_partsOf.1 hm
      obtain ⟨name, ns⟩ := oneName first listed partner listed' (named.trans named'.symm)
      exact .some ⟨name.trans r.decl.name, ns.trans (congrArg namedNamespace? r.file.ns)⟩

/-- A double is described alike up to the order of its activities. -/
theorem MockTarget.describe?_reordered (target : MockTarget) (activityMarker : String) (task : TaskType)
    {d d' : Declaration} (r : d.Reordered d') :
    Option.Rel DoubleDescriptor.Reordered (target.describe? activityMarker task table d)
      (target.describe? activityMarker task table' d') := by
  cases r with
  | member _ => exact .none
  | @type part part' r =>
    have isDouble : target.isDouble table part = target.isDouble table' part' := by
      have parts := (h.partsOf part.fullName).append (.of_forall₂ (.cons r .nil))
      rw [MockTarget.isDouble, MockTarget.isDouble, ← r.fullName]
      exact parts.any_eq fun _ _ r => r.isMarked h target.marker
    rw [describe?_type, describe?_type, isDouble, r.file.ns, targetName?_reordered h target r]
    split
    · cases namedNamespace? part'.file.ns with
      | none => exact .none
      | some ns =>
        cases target.targetName? table' part' with
        | none => exact .none
        | some fullName =>
          simp only [Option.bind_some]
          refine bind_rel_of_rel (h.find?_rel oneName fullName) fun first first' same => .some ?_
          exact ⟨r.decl.name, rfl, same.1, same.2, activitiesOf_perm h activityMarker task (h.partsOf fullName)⟩
    · exact .none

end Doubles

/-- The file of a double forgets the order in which its activities were found. -/
theorem MockTarget.render_reordered (config : Config) {double double' : DoubleDescriptor}
    (r : double.Reordered double') (determined : DeterminedByKey double.activities) :
    render config double = render config double' := by
  have sorted : sortDescriptors double.activities = sortDescriptors double'.activities :=
    sortDescriptors_eq_of_perm r.activities determined
  unfold render DoubleDescriptor.qualifiedName
  rw [r.name, r.ns, r.targetNamespace, sorted]

/-! ## Passes -/

/-- The lists of descriptors that are rendered together: the workflows, the activities, those of each double. -/
def ExtractedModel.groups (model : ExtractedModel) : List (List Descriptor) :=
  model.workflows.toList ++ model.activities.toList ++ model.doubles.map (·.activities)

/-- What a pass finds, with the activities of each double in another order. -/
structure ExtractedModel.Reordered (model model' : ExtractedModel) : Prop where
  workflows : model.workflows = model'.workflows
  activities : model.activities = model'.activities
  doubles : List.Forall₂ DoubleDescriptor.Reordered model.doubles model'.doubles

namespace Pass

/-- A compilation in which no choice is left to the order of what is listed. -/
structure Unambiguous (config : Config) (c : Compilation) : Prop where
  /-- A type has at most one entry point, whichever part it stands in. -/
  oneEntry : ∀ part ∈ (symbols config c).parts, (((symbols config c).partsOf part.fullName).flatMap
    TypePart.members).countP (·.isMarkedMethod (symbols config c) config.workflows.entryMarker) ≤ 1
  /-- Descriptors that are rendered together are told apart by their keys. -/
  oneDescriptor : ∀ group ∈ (extract config c).groups, DeterminedByKey group
  /-- The parts of a type agree on its name and its namespace. -/
  oneName : (symbols config c).OneName
  /-- No two declarations are doubles under one full name. -/
  oneDouble : (((config.mocks.extractor config.activities.marker config.task).all (symbols config c)
    (scanned config c)).map DoubleDescriptor.qualifiedName).Nodup

instance (config : Config) (c : Compilation) : Decidable (Unambiguous config c) :=
  decidable_of_iff
    ((∀ part ∈ (symbols config c).parts, (((symbols config c).partsOf part.fullName).flatMap
        TypePart.members).countP (·.isMarkedMethod (symbols config c) config.workflows.entryMarker) ≤ 1) ∧
      (∀ group ∈ (extract config c).groups, DeterminedByKey group) ∧ (symbols config c).OneName ∧
      (((config.mocks.extractor config.activities.marker config.task).all (symbols config c)
        (scanned config c)).map DoubleDescriptor.qualifiedName).Nodup)
    ⟨fun ⟨a, b, c, d⟩ => ⟨a, b, c, d⟩, fun ⟨a, b, c, d⟩ => ⟨a, b, c, d⟩⟩

variable {config : Config} {c c' : Compilation} (h : c.Reordered c')

include h

/-- The same workflows are found, in some order. -/
theorem workflows_perm (oneEntry : ∀ part ∈ (symbols config c).parts, (((symbols config c).partsOf
      part.fullName).flatMap TypePart.members).countP
        (·.isMarkedMethod (symbols config c) config.workflows.entryMarker) ≤ 1) :
    ((config.workflows.extractor config.task).all (symbols config c) (scanned config c)).Perm
      ((config.workflows.extractor config.task).all (symbols config c') (scanned config c')) := by
  refine (Extractor.all_rearranged (h.scanned config)
    (fun _ _ r => WorkflowTarget.isCandidate_reordered r) fun d hd d' r => ?_).perm
  refine rel_of_eq (WorkflowTarget.describe?_reordered (h.symbols config) config.workflows config.task r ?_)
  rintro part rfl
  -- a type that is scanned is one of the parts that the table lists
  have listed : part ∈ (symbols config c).parts := (type_mem_scanned.1 hd).1
  rw [WorkflowTarget.partsAround_of_mem listed]
  exact oneEntry part listed

/-- The same activities are found, in some order. -/
theorem activities_perm :
    ((config.activities.extractor config.task).all (symbols config c) (scanned config c)).Perm
      ((config.activities.extractor config.task).all (symbols config c') (scanned config c')) :=
  (Extractor.all_rearranged (h.scanned config) (fun _ _ r => ActivityTarget.isCandidate_reordered r) fun _ _ _ r =>
    rel_of_eq (ActivityTarget.describe?_reordered (h.symbols config) config.activities config.task r)).perm

/-- Where no two doubles share a full name, they are found in one order, each with its activities in some order. -/
theorem doubles_forall₂ (oneName : (symbols config c).OneName)
    (oneDouble : (((config.mocks.extractor config.activities.marker config.task).all (symbols config c)
      (scanned config c)).map DoubleDescriptor.qualifiedName).Nodup) :
    List.Forall₂ DoubleDescriptor.Reordered (extract config c).doubles (extract config c').doubles := by
  have found : Rearranged DoubleDescriptor.Reordered
      ((config.mocks.extractor config.activities.marker config.task).all (symbols config c) (scanned config c))
      ((config.mocks.extractor config.activities.marker config.task).all (symbols config c') (scanned config c')) :=
    Extractor.all_rearranged (h.scanned config) (fun _ _ r => MockTarget.isCandidate_reordered r) fun _ _ _ r =>
      MockTarget.describe?_reordered (h.symbols config) oneName config.mocks config.activities.marker config.task r
  have names (x y : DoubleDescriptor) (r : x.Reordered y) : x.qualifiedName = y.qualifiedName := by
    rw [DoubleDescriptor.qualifiedName, DoubleDescriptor.qualifiedName, r.ns, r.name]
  have oneDouble' := (found.map_perm names).nodup_iff.1 oneDouble
  have kept : Rearranged DoubleDescriptor.Reordered (extract config c).doubles (extract config c').doubles :=
    (found.of_perm_left (firstDoubles_perm oneDouble)).of_perm_right (firstDoubles_perm oneDouble')
  exact kept.forall₂_of_sorted names (pairwise_firstDoubles _) (pairwise_firstDoubles _)

/-- A pass finds the same in a reordered compilation, but for the order of the activities in a double. -/
theorem extract_reordered (u : Unambiguous config c) : (extract config c).Reordered (extract config c') where
  workflows := by
    have group := fun group mem => u.oneDescriptor group (List.mem_append_left _ (List.mem_append_left _ mem))
    rw [extract_workflows] at group ⊢
    rw [extract_workflows, ← (h.symbols config).contains]
    exact optional_normalize_eq_of_perm (workflows_perm h u.oneEntry) group
  activities := by
    have group := fun group mem => u.oneDescriptor group (List.mem_append_left _ (List.mem_append_right _ mem))
    rw [extract_activities] at group ⊢
    rw [extract_activities, ← (h.symbols config).contains]
    exact optional_normalize_eq_of_perm (activities_perm h) group
  doubles := doubles_forall₂ h u.oneName u.oneDouble

/-- **The order of discovery never matters**: a pass over a reordered compilation writes the same files and reports the
same findings, or fails with the same error. -/
theorem run_eq_of_reordered (emit : Emitter) (u : Unambiguous config c) : run config emit c = run config emit c' := by
  have found := extract_reordered h u
  have doubles : (extract config c).doubles.map (MockTarget.render config) =
      (extract config c').doubles.map (MockTarget.render config) := by
    rw [← List.forall₂_eq_eq_eq, List.forall₂_map_left_iff, List.forall₂_map_right_iff]
    have determined (double : DoubleDescriptor) (hd : double ∈ (extract config c).doubles) :
        DeterminedByKey double.activities :=
      u.oneDescriptor _ (List.mem_append_right _ (List.mem_map_of_mem hd))
    refine ((List.forall₂_and_left _ _).2 ⟨determined, found.doubles⟩).imp fun double double' r => ?_
    exact MockTarget.render_reordered config r.2 r.1
  have planned : plan config (extract config c) = plan config (extract config c') := by
    rw [plan, plan, found.workflows, found.activities, doubles]
  have diagnosed : diagnose config (extract config c) = diagnose config (extract config c') := by
    rw [diagnose, diagnose, found.workflows, found.activities]
  rw [run, run, planned, diagnosed]

end Pass

/-! ## An example -/

namespace Sample

/-- A workflow in two parts, one with an activity, and a double of it, with every list as `arrange` leaves it. -/
def shop (arrange : {α : Type} → List α → List α) : Compilation :=
  let marked := classPart "G" (arrange ["W", "O"]) []
  let methods := arrange [method "Run" "R" "T", method "Ping" "A" "void"]
  let double : TypeDecl := ⟨"D", .classType, false, arrange ["M", "Serializable"], ["B<G>"], []⟩
  { name := "Shop"
    references := arrange ["W", "R", "A"]
    files := arrange
      [⟨"a", some "N", arrange ["P", "Q"], arrange [marked, double]⟩,
        ⟨"b", some "N", arrange ["P", "Q"], [classPart "G" [] methods]⟩] }

theorem shop_reordered : (shop id).Reordered (shop List.reverse) where
  name := rfl
  references := by decide
  files := by
    refine ⟨_, .swap _ _ _, .cons ⟨rfl, rfl, by decide, ?_⟩ (.cons ⟨rfl, rfl, by decide, ?_⟩ .nil)⟩
    · exact .of_forall₂ (.cons ⟨rfl, rfl, rfl, by decide, rfl, by decide⟩ .nil)
    · exact ⟨_, .swap _ _ _, .cons ⟨rfl, rfl, rfl, by decide, rfl, by decide⟩
        (.cons ⟨rfl, rfl, rfl, by decide, rfl, by decide⟩ .nil)⟩

theorem run_shop_reverse : Pass.Unambiguous shortNames (shop id) ∧
    Pass.run shortNames FileModel.emitter (shop id) = Pass.run shortNames FileModel.emitter (shop List.reverse) := by
  have unambiguous : Pass.Unambiguous shortNames (shop id) := by decide +kernel
  exact ⟨unambiguous, Pass.run_eq_of_reordered shop_reordered FileModel.emitter unambiguous⟩

end Sample

end TypedWrappers

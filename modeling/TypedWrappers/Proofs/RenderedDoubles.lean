import TypedWrappers.Proofs.Rendering
import TypedWrappers.Proofs.Samples

/-!
# Doubles as rendered

A double is rendered unless a name or the type of a value is empty. Its class has two members for each activity, which
are told here by what the activity takes and returns alone: the delegate, the signature and the call are made of the
same lists.

- `DoubleDescriptor.Incomplete`: what keeps a double from being rendered;
- `MockTarget.propertyText`, `MockTarget.methodText`: the members for an activity;
- `MockTarget.members_of_render`: a double that is rendered has these members;
- `MockTarget.render_error_iff_incomplete`: a double is incomplete, or it is rendered with these members.
-/

namespace TypedWrappers

/-- The double has no namespace or no name, or the type of a value that an activity returns is empty. -/
def DoubleDescriptor.Incomplete (double : DoubleDescriptor) : Prop :=
  double.ns = "" ∨ double.name = "" ∨ ∃ a ∈ double.activities, ∃ type, a.returns = .value type ∧ type.display = ""

/-! ## Members as text -/

/-- The types of the parameters as they are displayed. -/
def Descriptor.parameterTypes (a : Descriptor) : List String :=
  a.parameters.map (·.type.display)

namespace MockTarget

/-- A delegate for an activity: its parameter types and, where it returns something, its return type. -/
def delegateText (task : TaskType) (a : Descriptor) : String :=
  if a.returns = .void then TypeReference.applied "Action" a.parameterTypes []
  else TypeReference.applied "Func" (a.parameterTypes ++ [declaredReturn task a.returns]) []

/-- The line of the property for an activity. -/
def propertyText (target : MockTarget) (task : TaskType) (a : Descriptor) : List String :=
  ["public " ++ delegateText task a ++ " " ++ target.propertyPrefix ++ a.name ++ " \x7b get; \x7d = " ++
    Text.replaceAll substituteHole (delegateText task a) target.substitute ++ ";"]

/-- The lines of the method for an activity: its parameters, each with its type, and a call of the property with all of
them. -/
def methodText (target : MockTarget) (task : TaskType) (a : Descriptor) : List String :=
  ["[" ++ target.activityAttribute ++ "]",
    "public " ++ declaredReturn task a.returns ++ " " ++ a.name ++ "(" ++
      ", ".intercalate (List.zipWith (fun type name => type ++ " " ++ name) a.parameterTypes a.parameterNames) ++ ")",
    "\x7b",
    "    " ++ (if a.returns = .void then "" else "return ") ++ target.propertyPrefix ++ a.name ++ "(" ++
      ", ".intercalate a.parameterNames ++ ");",
    "\x7d"]

variable {target : MockTarget} {task : TaskType} {a : Descriptor}

/-- The delegate is a type like others, applied to its arguments. -/
theorem delegateType_eq : delegateType task a = delegateText task a := by
  unfold delegateType delegateText TypeReference.applied Descriptor.parameterTypes
  split <;> simp [TypeMark.textAll]

theorem lines_property (name_ne : a.name ≠ "") :
    (target.property task a).lines = .ok (target.propertyText task a) := by
  have named : target.propertyName a ≠ "" := append_ne_empty_of_right name_ne
  rw [PropertyDraft.lines, property, if_neg named, delegateType_eq, propertyText, propertyName]
  simp only [String.append_assoc]

/-- The parameters of a method in order, each behind its type. -/
theorem map_parameterDrafts :
    (a.parameterDrafts.map fun (type, name) => type ++ " " ++ name) =
      List.zipWith (fun type name => type ++ " " ++ name) a.parameterTypes a.parameterNames := by
  rw [Descriptor.parameterDrafts, Descriptor.parameterTypes, Descriptor.parameterNames, List.zipWith_map_left,
    List.zipWith_map_right, List.zipWith_self, List.map_map]
  rfl

theorem signature_method : (target.method task a).signature =
    "public " ++ declaredReturn task a.returns ++ " " ++ a.name ++ "(" ++
      ", ".intercalate (List.zipWith (fun type name => type ++ " " ++ name) a.parameterTypes a.parameterNames) ++
      ")" := by
  rw [MethodDraft.signature, method, map_parameterDrafts]
  simp [modifier, String.append_assoc]

theorem map_body_method : (target.method task a).body.map ("    " ++ ·) =
    ["    " ++ (if a.returns = .void then "" else "return ") ++ target.propertyPrefix ++ a.name ++ "(" ++
      ", ".intercalate a.parameterNames ++ ");"] := by
  rw [method, propertyName, Descriptor.argumentList]
  split <;> simp only [List.map_cons, List.map_nil, String.append_assoc, String.empty_append]

theorem lines_method (wellFormed : a.WellFormed) (returns_ne : declaredReturn task a.returns ≠ "") :
    (target.method task a).lines = .ok (target.methodText task a) := by
  have complete : (target.method task a).Complete :=
    ⟨wellFormed.name_ne, returns_ne, parameterNames_nodup_method wellFormed⟩
  rw [MethodDraft.lines_of_complete complete, signature_method, map_body_method]
  rfl

/-! ## Rendering -/

/-- Only the type of a value can be missing: what returns nothing says so, and tasks have a name. -/
theorem declaredReturn_eq_empty_iff (task_ne : task.name ≠ "") {returns : ReturnShape} :
    declaredReturn task returns = "" ↔ ∃ type, returns = .value type ∧ type.display = "" := by
  cases returns with
  | void =>
    have void_ne : "void" ≠ "" := by decide
    exact ⟨fun h => absurd h void_ne, nofun⟩
  | value type =>
    constructor
    · intro h
      exact ⟨type, rfl, h⟩
    · rintro ⟨type', e, h⟩
      cases e
      exact h
  | wrapped result => exact ⟨fun h => absurd h (TaskType.of_ne_empty task_ne result), nofun⟩

variable {config : Config} {double : DoubleDescriptor}

/-- A double is rendered unless it is incomplete. -/
theorem render_ok_iff_not_incomplete (task_ne : config.task.name ≠ "")
    (wellFormed : ∀ a ∈ double.activities, a.WellFormed) :
    (∃ file, render config double = .ok file) ↔ ¬ double.Incomplete := by
  rw [render_ok_iff wellFormed, DoubleDescriptor.Incomplete, not_or, not_or]
  refine and_congr_right fun _ => and_congr_right fun _ => ?_
  simp only [ne_eq, declaredReturn_eq_empty_iff task_ne]
  exact ⟨fun all ⟨a, ha, missing⟩ => all a ha missing, fun none a ha missing => none ⟨a, ha, missing⟩⟩

/-- The members of a double that is rendered: two for each activity, in the order of their keys. -/
theorem members_of_render (wellFormed : ∀ a ∈ double.activities, a.WellFormed) {file : GeneratedFile}
    (ok : render config double = .ok file) :
    file.model.members = (sortDescriptors double.activities).flatMap fun a =>
      [config.mocks.propertyText config.task a, config.mocks.methodText config.task a] := by
  obtain ⟨-, -, returns_ne⟩ := (render_ok_iff wellFormed).1 ⟨file, ok⟩
  have written : ((sortDescriptors double.activities).flatMap fun a =>
      [.property (config.mocks.property config.task a), .method (config.mocks.method config.task a)]).mapM
      MemberDraft.lines = .ok ((sortDescriptors double.activities).flatMap fun a =>
        [config.mocks.propertyText config.task a, config.mocks.methodText config.task a]) := by
    refine mapM_flatMap_eq_ok fun a listed => ?_
    have ha : a ∈ double.activities := (sortDescriptors_perm double.activities).mem_iff.1 listed
    exact mapM_cons_ok (lines_property (wellFormed a ha).name_ne)
      (mapM_cons_ok (lines_method (wellFormed a ha) (returns_ne a ha)) rfl)
  exact Except.ok.inj (((isBuild_render config double).mapM_lines ok).symm.trans written)

/-- **Rendering a double fails on empty names and empty return types only**: where tasks have a name and the activities
are well-formed, it fails exactly when the double is incomplete. Otherwise the class has the activities in the order of
their keys, with a property and a method for each, made of the same types and names. -/
theorem render_error_iff_incomplete (task_ne : config.task.name ≠ "")
    (wellFormed : ∀ a ∈ double.activities, a.WellFormed) :
    ((∃ e, render config double = .error e) ↔ double.Incomplete) ∧
      (¬ double.Incomplete → ∃ (file : GeneratedFile) (activities : List Descriptor),
        render config double = .ok file ∧ activities.Perm double.activities ∧
        activities.Pairwise (fun a b => a.precedes b = true) ∧
        file.model.members = activities.flatMap fun a =>
          [config.mocks.propertyText config.task a, config.mocks.methodText config.task a]) := by
  have rendered := render_ok_iff_not_incomplete task_ne wellFormed
  constructor
  · cases result : render config double with
    | error e =>
      rw [result] at rendered
      refine ⟨fun _ => ?_, fun _ => ⟨e, rfl⟩⟩
      by_contra complete
      cases (rendered.2 complete).choose_spec
    | ok file => exact ⟨nofun, fun incomplete => absurd incomplete (rendered.1 ⟨file, result⟩)⟩
  · intro complete
    obtain ⟨file, ok⟩ := rendered.2 complete
    exact ⟨file, sortDescriptors double.activities, ok, sortDescriptors_perm _, pairwise_sortDescriptors _,
      members_of_render wellFormed ok⟩

end MockTarget

/-! ## An example -/

namespace Sample

/-- A double of a class with two activities; the second one returns a value of a type. -/
def paintMocks (color : String) : DoubleDescriptor where
  name := "PaintMocks"
  ns := "Shop.Tests"
  targetName := "Paint"
  targetNamespace := some "Shop"
  activities :=
    [⟨"Wash", "Paint", some "Shop", false, [], .void⟩,
      ⟨"Mix", "Paint", some "Shop", false, [⟨"one", .literal "int"⟩, ⟨"other", .literal "Color"⟩],
        .value (.literal color)⟩]

theorem paintMocks_rendered :
    (∃ file, MockTarget.render shortNames (paintMocks "Color") = .ok file ∧
      file.model.members =
        [["public Func<int, Color, Color> MockMix \x7b get; \x7d = Substitute.For<Func<int, Color, Color>>();"],
          ["[Activity]", "public Color Mix(int one, Color other)", "\x7b", "    return MockMix(one, other);", "\x7d"],
          ["public Action MockWash \x7b get; \x7d = Substitute.For<Action>();"],
          ["[Activity]", "public void Wash()", "\x7b", "    MockWash();", "\x7d"]]) ∧
      ∃ e, MockTarget.render shortNames (paintMocks "") = .error e := by
  have task : shortNames.task.name ≠ "" := by decide
  constructor
  · have complete : ¬ (paintMocks "Color").Incomplete := by
      rintro (h | h | ⟨a, ha, type, returns, empty⟩)
      · exact absurd h (by decide)
      · exact absurd h (by decide)
      · rcases List.mem_cons.1 ha with rfl | ha
        · cases returns
        · obtain rfl := List.mem_singleton.1 ha
          cases returns
          exact absurd empty (by decide +kernel)
    obtain ⟨file, activities, ok, perm, inOrder, members⟩ :=
      (MockTarget.render_error_iff_incomplete task (by decide)).2 complete
    have sorted : activities = (paintMocks "Color").activities.reverse := by
      have determined : DeterminedByKey (paintMocks "Color").activities := by decide +kernel
      refine (perm.trans (List.reverse_perm _).symm).eq_of_pairwise (fun a b ha hb hab hba => ?_) inOrder
        (by decide +kernel)
      exact determined a (perm.mem_iff.1 ha) b (List.mem_reverse.1 hb) (Descriptor.sortKey_eq_of_precedes hab hba)
    refine ⟨file, ok, ?_⟩
    rw [members, sorted]
    decide +kernel
  · have incomplete : (paintMocks "").Incomplete :=
      .inr (.inr ⟨_, List.mem_cons_of_mem _ List.mem_cons_self, .literal "", rfl, by decide +kernel⟩)
    exact (MockTarget.render_error_iff_incomplete task (by decide)).1.2 incomplete

end Sample

end TypedWrappers

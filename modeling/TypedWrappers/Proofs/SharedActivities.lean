import TypedWrappers.Proofs.Extracted
import TypedWrappers.Proofs.Samples
import TypedWrappers.Proofs.ScopeLookup

/-!
# Activities of doubles and of helpers

A pass comes to activities in two ways: helpers are made for the activities among all declarations that are scanned, and
a double takes the activities of all parts of the class that it stands for. Both come to the same activities.

- `DoubleDescriptor.targetFullName`: the class that a double stands for;
- `MockTarget.mem_activitiesOf_partsOf_iff`: the activities of a class, looked for among all members;
- `Pass.mem_activities_of_double_iff`: a double has the activities of its class that helpers are made for.
-/

namespace TypedWrappers

/-- The full name of the class that a double stands for. -/
def DoubleDescriptor.targetFullName (double : DoubleDescriptor) : String :=
  qualify double.targetNamespace double.targetName

/-- The activities of a class are those of all members whose descriptions name the class. -/
theorem MockTarget.mem_activitiesOf_partsOf_iff {table : SymbolTable} {marker fullName : String} {task : TaskType}
    (trimmed : ∀ part ∈ table.parts, Text.trim part.decl.name = part.decl.name) {a : Descriptor} :
    a ∈ activitiesOf table marker task (table.partsOf fullName) ↔
      ∃ part ∈ table.parts, ∃ m ∈ part.members, m.isMarkedMethod table marker = true ∧
        m.description table task = a ∧ a.WellFormed ∧ a.qualifiedTypeName = fullName := by
  rw [mem_activitiesOf]
  constructor
  · rintro ⟨m, hm, marked, rfl, wellFormed⟩
    obtain ⟨part, inParts, hm⟩ := List.mem_flatMap.1 hm
    obtain ⟨listed, named⟩ := SymbolTable.mem_partsOf.1 inParts
    have ofClass := TypePart.qualifiedTypeName_description hm (trimmed part listed) table task
    exact ⟨part, listed, m, hm, marked, rfl, wellFormed, ofClass.trans named⟩
  · rintro ⟨part, listed, m, hm, marked, rfl, wellFormed, named⟩
    rw [TypePart.qualifiedTypeName_description hm (trimmed part listed)] at named
    have inParts : part ∈ table.partsOf fullName := SymbolTable.mem_partsOf.2 ⟨listed, named⟩
    exact ⟨m, List.mem_flatMap.2 ⟨part, inParts, hm⟩, marked, rfl, wellFormed⟩

namespace Pass

variable {c : Compilation} {double : DoubleDescriptor}

/-- Where no activities are listed, the attribute of activities is not known, and no method has it. -/
theorem isMarkedMethod_eq_false_of_activities (none : (extract .temporal c).activities = none) (m : Member) :
    m.isMarkedMethod (symbols .temporal c) Config.temporal.activities.marker = false := by
  refine Bool.eq_false_iff.2 fun marked => ?_
  have noKeyword : Config.temporal.activities.marker ∉ keywordTypes.map Prod.snd := by decide
  have known := SymbolTable.contains_of_hasMarker noKeyword (Bool.and_eq_true_iff.1 marked).2
  rw [extract_activities, if_pos known] at none
  cases none

/-- **Doubles and helpers share their activities**: where no blank is cut off the name of a type, a double has those of
the listed activities whose descriptions name the class that it stands for, as long as all parts of this class are
scanned. -/
theorem mem_activities_of_double_iff (trimmed : ∀ part ∈ c.typeParts, Text.trim part.decl.name = part.decl.name)
    (found : double ∈ (extract .temporal c).doubles)
    (isScanned : ∀ part ∈ c.typeParts, part.fullName = double.targetFullName →
      part.file.isGenerated Config.temporal.generatedFileSuffix = false) (a : Descriptor) :
    a ∈ double.activities ↔
      a ∈ (extract .temporal c).activities.getD [] ∧ a.qualifiedTypeName = double.targetFullName := by
  have own : a ∈ double.activities ↔
      ∃ part ∈ c.typeParts, ∃ m ∈ part.members,
        m.isMarkedMethod (symbols .temporal c) Config.temporal.activities.marker = true ∧
          m.description (symbols .temporal c) Config.temporal.task = a ∧ a.WellFormed ∧
            a.qualifiedTypeName = double.targetFullName := by
    rw [(of_mem_doubles found).2]
    exact MockTarget.mem_activitiesOf_partsOf_iff trimmed
  rw [own]
  cases activities : (extract .temporal c).activities with
  | none =>
    have noMarked := isMarkedMethod_eq_false_of_activities activities
    simp [noMarked]
  | some activities =>
    rw [Option.getD_some, mem_activities_iff ‹_›]
    constructor
    · rintro ⟨part, listed, m, hm, marked, rfl, wellFormed, named⟩
      have ofClass := TypePart.qualifiedTypeName_description hm (trimmed part listed) (symbols .temporal c)
        Config.temporal.task
      have notGenerated := isScanned part listed (ofClass.symm.trans named)
      exact ⟨⟨m, member_mem_scanned.2 ⟨part, listed, notGenerated, hm⟩, marked, rfl, wellFormed⟩, named⟩
    · rintro ⟨⟨m, inScanned, marked, described, wellFormed⟩, named⟩
      obtain ⟨part, listed, -, hm⟩ := member_mem_scanned.1 inScanned
      exact ⟨part, listed, m, hm, marked, described, wellFormed, named⟩

end Pass

/-! ## An example -/

namespace Sample

/-- A class with activities in two files, an overload and a method that cannot be described among them, another class
with an activity of the same name, and a double of the first class. -/
def splitActivities : Compilation where
  name := "Split"
  references := ["Temporalio.Activities.ActivityAttribute"]
  files :=
    [⟨"a", some "N", ["Temporalio.Activities"],
      [classPart "Acts" [] [method "Run" "Activity" "void", method " " "Activity" "void"],
        classPart "Other" [] [method "Run" "Activity" "void"]]⟩,
      ⟨"b", some "N", ["Temporalio.Activities"],
        [classPart "Acts" [] [{ method "Run" "Activity" "void" with parameters := [⟨"n", "int"⟩] },
          method "Help" "Other" "void"]]⟩,
      ⟨"c", some "T", ["N", "Temporalio.Generators.Testing"],
        [{ classPart "D" ["GenerateNSubstituteMocks"] [] with baseTypes := ["ActivityMockBase<Acts>"] }]⟩]

/-- The double has the two activities of its class. -/
theorem splitActivities_double :
    (∀ part ∈ splitActivities.typeParts, Text.trim part.decl.name = part.decl.name) ∧
      ∃ double ∈ (Pass.extract .temporal splitActivities).doubles,
        (∀ part ∈ splitActivities.typeParts, part.fullName = double.targetFullName →
          part.file.isGenerated Config.temporal.generatedFileSuffix = false) ∧
        double.targetFullName = "N.Acts" ∧ double.activities.length = 2 ∧
        ∀ a, a ∈ double.activities ↔
          a ∈ (Pass.extract .temporal splitActivities).activities.getD [] ∧ a.qualifiedTypeName = "N.Acts" := by
  have trimmed : ∀ part ∈ splitActivities.typeParts, Text.trim part.decl.name = part.decl.name := by decide +kernel
  have noGenerated : ∀ part ∈ splitActivities.typeParts,
      part.file.isGenerated Config.temporal.generatedFileSuffix = false := by decide +kernel
  obtain ⟨double, found, target, activities⟩ : ∃ double ∈ (Pass.extract .temporal splitActivities).doubles,
      double.targetFullName = "N.Acts" ∧ double.activities.length = 2 := by decide +kernel
  have isScanned : ∀ part ∈ splitActivities.typeParts, part.fullName = double.targetFullName →
      part.file.isGenerated Config.temporal.generatedFileSuffix = false := fun part hp _ => noGenerated part hp
  refine ⟨trimmed, double, found, isScanned, target, activities, fun a => ?_⟩
  rw [← target]
  exact Pass.mem_activities_of_double_iff trimmed found isScanned a

end Sample

end TypedWrappers

import TypedWrappers.FileModel.Steps
import TypedWrappers.Proofs.FileDrafts

/-!
# The first fault of a file

A file is described step by step, and its class and their members with it. Whatever the steps are, it is built unless a
name or a return type is missing or two parameters of a method share a name, and the first such fault counts.

- `ClassStep.Complete`, `ClassStep.Fault`: what a step needs, and what can be wrong with it;
- `FirstFault`: what is wrong with a file first;
- `buildFile_exact`: a file is built, or the first fault is reported, and what it imports does not depend on the order
  of the steps.
-/

namespace TypedWrappers

/-! ## What steps come to -/

section Folds

variable {σ α β : Type} {step : σ → α → σ}

/-- What every step keeps, a sequence of steps keeps. -/
theorem foldl_keeps (field : σ → β) (keeps : ∀ s x, field (step s x) = field s) (s : σ) (steps : List α) :
    field (steps.foldl step s) = field s := by
  induction steps generalizing s with
  | nil => rfl
  | cons x steps ih => rw [List.foldl_cons, ih, keeps]

/-- What every step adds to, a sequence of steps adds to in its order. -/
theorem foldl_gathers (field : σ → List β) (added : α → List β)
    (adds : ∀ s x, field (step s x) = field s ++ added x) (s : σ) (steps : List α) :
    field (steps.foldl step s) = field s ++ steps.flatMap added := by
  induction steps generalizing s with
  | nil => simp
  | cons x steps ih => rw [List.foldl_cons, ih, adds, List.flatMap_cons, List.append_assoc]

end Folds

namespace MethodDraft

theorem name_step (m : MethodDraft) (s : MethodStep) : (m.step s).name = m.name := by
  cases s <;> rfl

theorem returns_step (m : MethodDraft) (s : MethodStep) : (m.step s).returns = m.returns := by
  cases s <;> rfl

theorem parameterNames_step (m : MethodDraft) (s : MethodStep) :
    (m.step s).parameters.map Prod.snd = m.parameters.map Prod.snd ++ s.parameterNames := by
  cases s <;> simp [step, MethodStep.parameterNames]

variable (name returns : String) (steps : List MethodStep)

theorem name_describe : (describe name returns steps).name = name :=
  foldl_keeps MethodDraft.name name_step _ _

theorem returns_describe : (describe name returns steps).returns = returns :=
  foldl_keeps MethodDraft.returns returns_step _ _

/-- The parameters of a method are those that steps add, in their order. -/
theorem parameterNames_describe :
    (describe name returns steps).parameters.map Prod.snd = steps.flatMap MethodStep.parameterNames :=
  foldl_gathers (fun m : MethodDraft => m.parameters.map Prod.snd) MethodStep.parameterNames parameterNames_step _ _

end MethodDraft

namespace ClassDraft

theorem name_step (c : ClassDraft) (s : ClassStep) : (c.step s).name = c.name := by
  cases s <;> rfl

theorem members_step (c : ClassDraft) (s : ClassStep) : (c.step s).members = c.members ++ s.members := by
  cases s <;> simp [step, ClassStep.members]

variable (name : String) (declaration : Option String) (steps : List ClassStep)

theorem name_describe : (describe name declaration steps).name = name :=
  foldl_keeps ClassDraft.name name_step _ _

/-- The members of a class are those that steps add, in their order. -/
theorem members_describe : (describe name declaration steps).members = steps.flatMap ClassStep.members :=
  foldl_gathers ClassDraft.members ClassStep.members members_step _ _

end ClassDraft

namespace FileDraft

theorem ns_addImport (f : FileDraft) (name : String) : (f.addImport name).ns = f.ns := by
  unfold addImport
  split <;> rfl

theorem mem_imports_addImport {f : FileDraft} {name x : String} :
    x ∈ (f.addImport name).imports ↔ x ∈ f.imports ∨ x = name ∧ x ≠ "" ∧ x ≠ f.ns := by
  unfold addImport
  split
  · next accepted =>
    rw [List.mem_append, List.mem_singleton]
    refine or_congr_right ⟨?_, And.left⟩
    rintro rfl
    exact ⟨rfl, accepted⟩
  · next ignored =>
    refine (or_iff_left ?_).symm
    rintro ⟨rfl, accepted⟩
    exact ignored accepted

/-- Steps that add namespaces one after another add all of them, where each step refuses the same ones. -/
theorem mem_imports_foldl {α : Type} {step : FileDraft → α → FileDraft} (added : α → List String)
    (keeps : ∀ f a, (step f a).ns = f.ns)
    (adds : ∀ f a x, x ∈ (step f a).imports ↔ x ∈ f.imports ∨ x ∈ added a ∧ x ≠ "" ∧ x ≠ f.ns)
    {f : FileDraft} {steps : List α} {x : String} :
    x ∈ (steps.foldl step f).imports ↔ x ∈ f.imports ∨ x ∈ steps.flatMap added ∧ x ≠ "" ∧ x ≠ f.ns := by
  induction steps generalizing f with
  | nil => simp
  | cons a steps ih =>
    rw [List.foldl_cons, ih, adds, keeps, List.flatMap_cons, List.mem_append, or_assoc, or_and_right]

theorem ns_step (f : FileDraft) (s : FileStep) : (f.step s).ns = f.ns := by
  cases s with
  | setBanner banner => rfl
  | addImport name => exact f.ns_addImport name
  | addImports names => exact foldl_keeps FileDraft.ns ns_addImport f names

theorem mem_imports_step (f : FileDraft) (s : FileStep) (x : String) :
    x ∈ (f.step s).imports ↔ x ∈ f.imports ∨ x ∈ s.imports ∧ x ≠ "" ∧ x ≠ f.ns := by
  cases s with
  | setBanner banner => simp [step, FileStep.imports]
  | addImport name => simp [step, FileStep.imports, mem_imports_addImport]
  | addImports names =>
    have all : x ∈ (names.foldl addImport f).imports ↔
        x ∈ f.imports ∨ x ∈ names.flatMap (fun name => [name]) ∧ x ≠ "" ∧ x ≠ f.ns :=
      mem_imports_foldl (fun name => [name]) ns_addImport fun f name x => by
        rw [mem_imports_addImport, List.mem_singleton]
    rwa [List.flatMap_singleton'] at all

theorem ns_describe (ns : String) (steps : List FileStep) : (describe ns steps).ns = ns :=
  foldl_keeps FileDraft.ns ns_step _ _

/-- A file imports the namespaces that any of the steps adds, but for those that every step ignores. -/
theorem mem_imports_describe {ns : String} {steps : List FileStep} {x : String} :
    x ∈ (describe ns steps).imports ↔ x ∈ steps.flatMap FileStep.imports ∧ x ≠ "" ∧ x ≠ ns :=
  (mem_imports_foldl FileStep.imports ns_step mem_imports_step).trans (or_iff_right List.not_mem_nil)

/-- What every step ignores, the file would leave out once more. -/
theorem mem_importSet_describe {ns : String} {steps : List FileStep} {x : String} :
    x ∈ (describe ns steps).importSet ↔ x ∈ steps.flatMap FileStep.imports ∧ x ≠ "" ∧ x ≠ ns := by
  rw [mem_importSet, mem_imports_describe, ns_describe]
  exact and_iff_left_of_imp And.right

end FileDraft

/-! ## Faults -/

namespace ClassStep

/-- What a step needs: a method that it adds, a name, a return type, and a name of its own for each parameter; a
property, a name. -/
def Complete : ClassStep → Prop
  | addMethod name returns steps =>
    name ≠ "" ∧ returns ≠ "" ∧ (steps.flatMap MethodStep.parameterNames).Nodup
  | addProperty name _ _ => name ≠ ""
  | _ => True

instance : DecidablePred Complete
  | addMethod name returns steps =>
    inferInstanceAs (Decidable (name ≠ "" ∧ returns ≠ "" ∧ (steps.flatMap MethodStep.parameterNames).Nodup))
  | addProperty name _ _ => inferInstanceAs (Decidable (name ≠ ""))
  | makePublic | makeStatic | makePartial | addAttribute _ => .isTrue trivial

/-- What can be wrong with the member that a step adds. -/
def Fault : ClassStep → GenerationError → Prop
  | addMethod name returns steps, e => MethodFault name returns (steps.flatMap MethodStep.parameterNames) e
  | addProperty name _ _, e => name = "" ∧ e = .noPropertyName
  | _, _ => False

variable {step : ClassStep}

theorem lines_ok_iff : (∃ lines, step.members.mapM MemberDraft.lines = .ok lines) ↔ step.Complete := by
  rw [mapM_ok_iff]
  cases step with
  | addMethod name returns steps =>
    simp only [members, List.mem_singleton, forall_eq, MemberDraft.lines, MethodDraft.lines_ok_iff]
    constructor
    · rintro ⟨name_ne, returns_ne, nodup⟩
      rw [MethodDraft.name_describe] at name_ne
      rw [MethodDraft.returns_describe] at returns_ne
      rw [MethodDraft.parameterNames_describe] at nodup
      exact ⟨name_ne, returns_ne, nodup⟩
    · rintro ⟨name_ne, returns_ne, nodup⟩
      exact
        { name_ne := by rwa [MethodDraft.name_describe]
          returns_ne := by rwa [MethodDraft.returns_describe]
          parameters_nodup := by rwa [MethodDraft.parameterNames_describe] }
  | addProperty name type initializer =>
    simp only [members, List.mem_singleton, forall_eq, MemberDraft.lines, PropertyDraft.lines_ok_iff, Complete]
  | _ => simp [members, Complete]

theorem lines_eq_error_iff {e : GenerationError} :
    step.members.mapM MemberDraft.lines = .error e ↔ step.Fault e := by
  cases step with
  | addMethod name returns steps =>
    rw [members, mapM_cons_eq_error_iff, or_iff_left nofun, MemberDraft.lines, MethodDraft.lines_eq_error_iff,
      MethodDraft.name_describe, MethodDraft.returns_describe, MethodDraft.parameterNames_describe, Fault]
  | addProperty name type initializer =>
    rw [members, mapM_cons_eq_error_iff, or_iff_left nofun, MemberDraft.lines, PropertyDraft.lines_eq_error_iff, Fault]
  | _ => exact ⟨nofun, nofun⟩

end ClassStep

/-- What is wrong with a file first: it has no namespace, or else its class has no name, or else a step adds a member at
fault and none in front of it does. -/
inductive FirstFault (ns className : String) (steps : List ClassStep) : GenerationError → Prop
  | noNamespace : ns = "" → FirstFault ns className steps .noNamespace
  | noClassName : ns ≠ "" → className = "" → FirstFault ns className steps .noClassName
  | member {before after : List ClassStep} {step : ClassStep} {e : GenerationError} :
      ns ≠ "" → className ≠ "" → steps = before ++ step :: after → (∀ earlier ∈ before, earlier.Complete) →
        step.Fault e → FirstFault ns className steps e

section Builds

variable {ns className : String} {declaration : Option String} {fileSteps : List FileStep} {classSteps : List ClassStep}

theorem buildFile_ok_iff :
    (∃ model, buildFile ns fileSteps className declaration classSteps = .ok model) ↔
      ns ≠ "" ∧ className ≠ "" ∧ ∀ step ∈ classSteps, step.Complete := by
  rw [buildFile, FileDraft.build_ok_iff, FileDraft.ns_describe, ClassDraft.name_describe, ClassDraft.members_describe,
    List.forall_mem_flatMap]
  refine and_congr_right fun _ => and_congr_right fun _ => forall₂_congr fun step _ => ?_
  rw [← mapM_ok_iff, ClassStep.lines_ok_iff]

theorem buildFile_eq_error_iff {e : GenerationError} :
    buildFile ns fileSteps className declaration classSteps = .error e ↔ FirstFault ns className classSteps e := by
  rw [buildFile, FileDraft.build_eq_error_iff, FileDraft.ns_describe, ClassDraft.name_describe,
    ClassDraft.members_describe, mapM_flatMap_eq_error_iff]
  simp only [ClassStep.lines_ok_iff, ClassStep.lines_eq_error_iff]
  constructor
  · rintro (⟨ns_eq, rfl⟩ | ⟨ns_ne, ⟨name_eq, rfl⟩ | ⟨name_ne, before, step, after, parts, complete, fault⟩⟩)
    · exact .noNamespace ns_eq
    · exact .noClassName ns_ne name_eq
    · exact .member ns_ne name_ne parts complete fault
  · rintro (ns_eq | ⟨ns_ne, name_eq⟩ | ⟨ns_ne, name_ne, parts, complete, fault⟩)
    · exact .inl ⟨ns_eq, rfl⟩
    · exact .inr ⟨ns_ne, .inl ⟨name_eq, rfl⟩⟩
    · exact .inr ⟨ns_ne, .inr ⟨name_ne, _, _, _, parts, complete, fault⟩⟩

theorem mem_imports_of_buildFile {model : FileModel}
    (built : buildFile ns fileSteps className declaration classSteps = .ok model) {name : String} :
    name ∈ model.imports ↔ name ∈ fileSteps.flatMap FileStep.imports ∧ name ≠ "" ∧ name ≠ ns := by
  rw [FileDraft.imports_of_build built, FileDraft.mem_importSet_describe]

/-- Steps that add the same namespaces lead to files that are alike but for the banner. -/
theorem buildFile_eq_map_of_imports_iff {otherSteps : List FileStep}
    (same : ∀ name, name ∈ otherSteps.flatMap FileStep.imports ↔ name ∈ fileSteps.flatMap FileStep.imports) :
    buildFile ns otherSteps className declaration classSteps =
      (buildFile ns fileSteps className declaration classSteps).map fun model =>
        { model with banner := (FileDraft.describe ns otherSteps).banner } := by
  refine FileDraft.build_eq_map_of_importSet_eq _ ?_ (NameSet.eq_of_mem_iff fun name => ?_)
  · rw [FileDraft.ns_describe, FileDraft.ns_describe]
  · rw [FileDraft.mem_importSet_describe, FileDraft.mem_importSet_describe, same]

end Builds

/-- **The first fault of a file counts, and the order of its imports does not**: whatever the steps are, a file is
built exactly when it has a namespace, its class has a name, and every member has what it needs. Otherwise the first
fault is reported. A file that is built imports the namespaces that were added, but for empty ones and its own; in which
order and how often they were added makes no difference. -/
theorem buildFile_exact (ns : String) (fileSteps : List FileStep) (className : String) (declaration : Option String)
    (classSteps : List ClassStep) :
    ((∃ model, buildFile ns fileSteps className declaration classSteps = .ok model) ↔
        ns ≠ "" ∧ className ≠ "" ∧ ∀ step ∈ classSteps, step.Complete) ∧
      (∀ e, buildFile ns fileSteps className declaration classSteps = .error e ↔
        FirstFault ns className classSteps e) ∧
      (∀ model, buildFile ns fileSteps className declaration classSteps = .ok model →
        ∀ name, name ∈ model.imports ↔ name ∈ fileSteps.flatMap FileStep.imports ∧ name ≠ "" ∧ name ≠ ns) ∧
      ∀ otherSteps : List FileStep,
        (∀ name, name ∈ otherSteps.flatMap FileStep.imports ↔ name ∈ fileSteps.flatMap FileStep.imports) →
          buildFile ns otherSteps className declaration classSteps =
            (buildFile ns fileSteps className declaration classSteps).map fun model =>
              { model with banner := (FileDraft.describe ns otherSteps).banner } :=
  ⟨buildFile_ok_iff, fun _ => buildFile_eq_error_iff, fun _ built _ => mem_imports_of_buildFile built,
    fun _ same => buildFile_eq_map_of_imports_iff same⟩

/-! ## An example -/

/-- A missing return type counts before repeated parameters. -/
example : buildFile "Out" [] "Tools" none [.addMethod "Sort" "" [.addParameter "int" "a", .addParameter "int" "a"]] =
    .error (.incompleteMethod "Sort") :=
  rfl

namespace Sample

/-- A class with two properties and between them a method with four parameters. -/
def toolSteps (parameter property : String) : List ClassStep :=
  [.makePublic, .addProperty "Shelf" "Action" "Make()",
    .addMethod "Sort" "void"
      [.addParameter "int" "a", .makeStatic, .addParameter "int" "b", .addParameter "int" parameter,
        .addStatement "Done();", .addParameter "int" "c"],
    .makePartial, .addProperty property "int" "0"]

/-- Imports in some order. -/
def toolImports : List FileStep :=
  [.addImport "B", .setBanner "// tools", .addImports ["A", "", "Out", "A"]]

theorem tools_firstFault :
    buildFile "Out" toolImports "Tools" none (toolSteps "b" "") = .error (.repeatedParameter "Sort" "b") ∧
      ∃ model, buildFile "Out" toolImports "Tools" none (toolSteps "d" "Size") = .ok model ∧
        (∀ name, name ∈ model.imports ↔ name = "A" ∨ name = "B") ∧
        ∃ other, buildFile "Out" toolImports.reverse "Tools" none (toolSteps "d" "Size") = .ok other ∧
          other.imports = model.imports := by
  constructor
  · -- the property without a name comes too late
    have fault : (toolSteps "b" "")[2].Fault (.repeatedParameter "Sort" "b") :=
      .repeated (by decide) (by decide) (show _ = ["a", "b"] ++ "b" :: ["c"] from rfl) (by decide) (by decide)
    have first : FirstFault "Out" "Tools" (toolSteps "b" "") (.repeatedParameter "Sort" "b") :=
      .member (by decide) (by decide) (show _ = (toolSteps "b" "").take 2 ++ _ :: _ from rfl) (by decide) fault
    exact ((buildFile_exact "Out" toolImports "Tools" none (toolSteps "b" "")).2.1 _).2 first
  · obtain ⟨built, -, imports, order⟩ := buildFile_exact "Out" toolImports "Tools" none (toolSteps "d" "Size")
    obtain ⟨model, ok⟩ := built.2 (by decide)
    have listed : toolImports.flatMap FileStep.imports = ["B", "A", "", "Out", "A"] := rfl
    have listedReverse : toolImports.reverse.flatMap FileStep.imports = ["A", "", "Out", "A", "B"] := rfl
    refine ⟨model, ok, fun name => ?_, ?_⟩
    · rw [imports model ok, listed]
      grind
    · rw [order toolImports.reverse (by rw [listed, listedReverse]; grind), ok]
      exact ⟨_, rfl, rfl⟩

end Sample

end TypedWrappers

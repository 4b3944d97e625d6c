import TypedWrappers.Proofs.PassFailures
import TypedWrappers.Proofs.RenderedClasses
import TypedWrappers.Proofs.Samples

/-!
# Exact diagnostics

Diagnostics are made of wrappers that are computed apart from the files. They say of the two classes of wrappers just
what is so of the methods that were written: which keys, names with lists of parameter types, several methods share.

- `SharedKeys`: the keys that several methods share, each once, in increasing order;
- `collisions_map_wrapper`: one diagnostic for each of them, with the declarations of its methods;
- `Pass.run_diagnostics_exact`: the diagnostics of a whole pass.
-/

namespace TypedWrappers

/-! ## Keys -/

instance : Std.TransCmp WrapperKey.compare := by
  unfold WrapperKey.compare
  infer_instance

theorem WrapperKey.eq_of_compare_eq {a b : WrapperKey} (h : a.compare b = .eq) : a = b := by
  obtain ⟨name, signature⟩ := a
  obtain ⟨name', signature'⟩ := b
  simp only [WrapperKey.compare, compareLex_eq_eq, compareOn, Std.LawfulEqCmp.compare_eq_iff_eq] at h
  obtain ⟨rfl, rfl⟩ := h
  rfl

theorem mem_wrapperKeys {wrappers : List Wrapper} {key : WrapperKey} :
    key ∈ wrapperKeys wrappers ↔ ∃ w ∈ wrappers, w.key = key := by
  rw [wrapperKeys, mem_dropRepeats, List.mem_mergeSort, List.mem_map]

theorem pairwise_mergeSort_keys (keys : List WrapperKey) :
    (keys.mergeSort fun a b => (a.compare b).isLE).Pairwise fun a b => (a.compare b).isLE = true :=
  List.pairwise_mergeSort (fun _ _ _ => Std.TransCmp.isLE_trans) (isLE_or_isLE WrapperKey.compare) keys

/-- The keys of wrappers are what is left of them in order. -/
theorem wrapperKeys_eq_of_perm {wrappers : List Wrapper} {keys : List WrapperKey}
    (p : (wrappers.map Wrapper.key).Perm keys) (inOrder : keys.Pairwise fun a b => (a.compare b).isLE = true) :
    wrapperKeys wrappers = dropRepeats keys := by
  have sorted : ((wrappers.map Wrapper.key).mergeSort fun a b => (a.compare b).isLE) = keys :=
    List.Perm.eq_of_pairwise
      (fun _ _ _ _ hab hba => WrapperKey.eq_of_compare_eq (Std.OrientedCmp.isLE_antisymm hab hba))
      (pairwise_mergeSort_keys _) inOrder ((List.mergeSort_perm _ _).trans p)
  rw [wrapperKeys, sorted]

/-- There is one finding for each key that several wrappers have, in the order of the keys. -/
theorem collisions_eq_of_perm (container : String) {wrappers : List Wrapper} (keys : List WrapperKey)
    (p : (wrappers.map Wrapper.key).Perm keys) (inOrder : keys.Pairwise fun a b => (a.compare b).isLE = true) :
    collisions container wrappers = (dropRepeats keys).filterMap fun key =>
      if 1 < (sourcesOf wrappers key).length then
        some (.duplicateWrapper container key.name (sourcesOf wrappers key))
      else none := by
  rw [collisions, wrapperKeys_eq_of_perm p inOrder]

/-- The keys of wrappers are strictly increasing. -/
theorem pairwise_wrapperKeys (wrappers : List Wrapper) :
    (wrapperKeys wrappers).Pairwise fun a b => a.compare b = .lt := by
  let sorted := (wrappers.map Wrapper.key).mergeSort fun a b => (a.compare b).isLE
  have pairwise := pairwise_mergeSort_keys (wrappers.map Wrapper.key)
  have nodup : (dropRepeats sorted).Nodup := by
    refine nodup_dropRepeats pairwise fun a _ b _ hab hba => ?_
    exact WrapperKey.eq_of_compare_eq (Std.OrientedCmp.isLE_antisymm hab hba)
  refine ((pairwise.sublist (dropRepeats_sublist _)).and nodup).imp ?_
  rintro a b ⟨hab, ne⟩
  cases h : a.compare b with
  | lt => rfl
  | eq => exact absurd (WrapperKey.eq_of_compare_eq h) ne
  | gt => rw [h] at hab; cases hab

/-! ## Findings -/

/-- The keys that several of the methods have, each once and in increasing order. -/
structure SharedKeys (methods : List RenderedMethod) (keys : List WrapperKey) : Prop where
  increasing : keys.Pairwise fun a b => a.compare b = .lt
  mem_iff : ∀ key, key ∈ keys ↔ 2 ≤ (methods.filter (·.key = key)).length

/-- What there is to say of a key that several methods of a class have: a warning that lists the declarations of these
methods, in order. -/
def sharedKeyDiagnostic (container : String) (methods : List RenderedMethod) (key : WrapperKey) : Diagnostic where
  id := "WFG001"
  severity := .warning
  message :=
    "'" ++ container ++ "." ++ key.name ++ "' is generated for more than one declaration: " ++
      ", ".intercalate ((methods.filter (·.key = key)).map (·.source.qualifiedName))

theorem duplicateWrapper_eq (container : String) (methods : List RenderedMethod) (key : WrapperKey) :
    .duplicateWrapper container key.name ((methods.filter (·.key = key)).map (·.source.qualifiedName)) =
      sharedKeyDiagnostic container methods key :=
  rfl

theorem sourcesOf_map_wrapper (methods : List RenderedMethod) (key : WrapperKey) :
    sourcesOf (methods.map RenderedMethod.wrapper) key =
      (methods.filter (·.key = key)).map (·.source.qualifiedName) := by
  rw [sourcesOf, List.filter_map, List.map_map]
  rfl

/-- Each key that several methods share is reported once. -/
theorem collisions_map_wrapper (container : String) (methods : List RenderedMethod) :
    ∃ keys, SharedKeys methods keys ∧
      collisions container (methods.map RenderedMethod.wrapper) = keys.map (sharedKeyDiagnostic container methods) := by
  let wrappers := methods.map RenderedMethod.wrapper
  let shared (key : WrapperKey) : Bool := 1 < (sourcesOf wrappers key).length
  have length_eq (key : WrapperKey) : (sourcesOf wrappers key).length = (methods.filter (·.key = key)).length := by
    rw [sourcesOf_map_wrapper, List.length_map]
  refine ⟨(wrapperKeys wrappers).filter shared, ⟨(pairwise_wrapperKeys wrappers).filter _, fun key => ?_⟩, ?_⟩
  · rw [List.mem_filter, decide_eq_true_iff, length_eq, mem_wrapperKeys]
    refine and_iff_right_of_imp fun several => ?_
    -- a key that several methods have is the key of one of them
    obtain ⟨m, hm⟩ := List.exists_mem_of_length_pos (Nat.lt_of_lt_of_le Nat.zero_lt_two several)
    obtain ⟨mem, isKey⟩ := List.mem_filter.1 hm
    exact ⟨m.wrapper, List.mem_map_of_mem mem, of_decide_eq_true isKey⟩
  · rw [collisions, ← List.filterMap_eq_map (f := sharedKeyDiagnostic container methods), List.filterMap_filter]
    refine congrArg (List.filterMap · _) (funext fun key => ?_)
    simp only [shared, duplicateWrapper_eq, sourcesOf_map_wrapper, wrappers, Function.comp_apply, decide_eq_true_iff]

/-! ## Diagnostics of a pass -/

namespace Pass

variable {config : Config} {emit : Emitter} {c : Compilation} {output : Output}

/-- **Diagnostics are exact**: a pass that succeeds has written the class of workflow extensions and that of activity
helpers, each if its marker type is known, and reports each key that several methods of one class share, once and with
the declarations of all these methods in the order of rendering, as a warning `WFG001`; the workflows come first, and the
keys of each class are in increasing order. -/
theorem run_diagnostics_exact (ok : run config emit c = .ok output) :
    ∃ workflowKeys activityKeys,
      SharedKeys (workflowMethods config (extract config c)) workflowKeys ∧
      SharedKeys (activityMethods config (extract config c)) activityKeys ∧
      output.diagnostics =
        workflowKeys.map (sharedKeyDiagnostic config.workflows.className (workflowMethods config (extract config c))) ++
        activityKeys.map (sharedKeyDiagnostic config.activities.className (activityMethods config (extract config c))) ∧
      ((extract config c).workflows ≠ none →
        output.HasClass emit config.workflows.fileName config.workflows.className
          (RenderedMethod.members (workflowMethods config (extract config c)))) ∧
      ((extract config c).activities ≠ none →
        output.HasClass emit config.activities.fileName config.activities.className
          (RenderedMethod.members (activityMethods config (extract config c)))) := by
  obtain ⟨workflowKeys, workflowShared, workflows⟩ :=
    collisions_map_wrapper config.workflows.className (workflowMethods config (extract config c))
  obtain ⟨activityKeys, activityShared, activities⟩ :=
    collisions_map_wrapper config.activities.className (activityMethods config (extract config c))
  refine ⟨workflowKeys, activityKeys, workflowShared, activityShared, ?_, hasClass_workflows ok,
    hasClass_activities ok⟩
  rw [(write_eq_ok_of_run ok).2, diagnose, ← map_wrapper_workflowMethods, ← map_wrapper_activityMethods, workflows,
    activities]

end Pass

/-! ## An example -/

namespace Sample

/-- Two activities whose helpers go by one name, and a third one with a name of its own. -/
def payments : Compilation where
  name := "Payments"
  references := ["Temporalio.Activities.ActivityAttribute"]
  files :=
    [⟨"a", some "N", ["Temporalio.Activities"],
        [classPart "Card" [] [method "ChargeAsync" "Activity" "void", method "Refund" "Activity" "void"]]⟩,
      ⟨"b", some "N", ["Temporalio.Activities"], [classPart "Wire" [] [method "Charge" "Activity" "void"]]⟩]

/-- An activity without a result. -/
def activity (typeName name : String) (parameters : List Parameter) : Descriptor :=
  ⟨name, typeName, some "N", false, parameters, .void⟩

/-- The method for an activity. -/
def helper (a : Descriptor) : RenderedMethod :=
  ⟨Config.temporal.activities.method Config.temporal.task Config.temporal.methodSuffix a, a⟩

theorem payments_diagnostics :
    ∃ output, Pass.run .temporal FileModel.emitter payments = .ok output ∧
      { id := "WFG001", severity := .warning
        message :=
          "'Activities.ExecuteChargeAsync' is generated for more than one declaration: " ++
            "N.Card.ChargeAsync, N.Wire.Charge" } ∈
        output.diagnostics := by
  have noDoubles : (Pass.extract .temporal payments).doubles = [] := by decide +kernel
  obtain ⟨output, ok⟩ := Pass.exists_run_temporal_ok (c := payments) (by rw [noDoubles]; exact nofun)
  obtain ⟨workflowKeys, activityKeys, -, shared, diagnostics, -⟩ := Pass.run_diagnostics_exact ok
  let helpers := [activity "Card" "ChargeAsync" [], activity "Card" "Refund" [], activity "Wire" "Charge" []]
  have found : (Pass.extract .temporal payments).activities = some helpers := by
    have known : (Pass.symbols .temporal payments).contains Config.temporal.activities.marker = true :=
      Pass.contains_symbols_iff.2 (.inr (by decide +kernel))
    exact Pass.extract_activities_of_pairwise helpers known (by decide +kernel) (by decide +kernel)
  have several : 2 ≤ ((helpers.map helper).filter (·.key = ⟨"ExecuteChargeAsync", []⟩)).length := by decide +kernel
  have finding : sharedKeyDiagnostic "Activities" (helpers.map helper) ⟨"ExecuteChargeAsync", []⟩ =
      { id := "WFG001", severity := .warning
        message :=
          "'Activities.ExecuteChargeAsync' is generated for more than one declaration: " ++
            "N.Card.ChargeAsync, N.Wire.Charge" } := by decide +kernel
  rw [Pass.activityMethods_extract, found] at shared diagnostics
  refine ⟨output, ok, ?_⟩
  rw [diagnostics, ← finding]
  exact List.mem_append_right _ (List.mem_map_of_mem ((shared.mem_iff _).2 several))

end Sample

end TypedWrappers

import TypedWrappers.Extraction.Method
import TypedWrappers.Generated.File
import TypedWrappers.Proofs.TypeArguments

/-!
# Results of tasks

A method that returns a task of a result is wrapped as a method with that result. This goes by the structure of the
text, so a result that cannot be read as a type hides the task: the whole text counts as a value, and the generated
method returns a task of the declared task.

- `returnShape_of_parse?_applied`, `returnShape_of_parse?_eq_none`: both cases;
- `returnShape_task_iff`: when a task of a result is seen as one.
-/

namespace TypedWrappers

open Text TypeSyntax

namespace SymbolTable

/-- Blanks around a name do not change its meaning. -/
theorem resolve?_eq_of_trim_eq (table : SymbolTable) (scope : Scope) {a b : String} (h : trim a = trim b) :
    table.resolve? scope a = table.resolve? scope b := by
  rw [resolve?, resolve?, h]

/-- What is read as a plain name means what the name means. -/
theorem resolve?_of_parse? (table : SymbolTable) (scope : Scope) {text name : String}
    (h : parse? text = some ⟨name, [], []⟩) : table.resolve? scope text = table.resolve? scope name := by
  have scanned : TypeToken.scan text = [.word name] := (parse?_eq_some_iff.1 h).2
  exact table.resolve?_eq_of_trim_eq scope (TypeToken.trim_of_scan_eq_word scanned)

variable {table : SymbolTable} {scope : Scope} {task : TaskType} {name argument : String}

/-- A text that is read as a task with one argument is a task of it, unless the task is the empty type. -/
theorem returnShape_of_parse?_applied {text outer : String} {inner : TypeSyntax}
    (read : parse? text = some ⟨outer, [inner], []⟩) (means : table.resolve? scope outer = some task.fullName) :
    table.returnShape scope task text =
      if TypeSyntax.baseName ⟨outer, [], []⟩ = "void" then .void else .wrapped (some (table.describe scope inner)) := by
  have base : TypeSyntax.baseName ⟨outer, [inner], []⟩ = TypeSyntax.baseName ⟨outer, [], []⟩ := rfl
  rw [returnShape, read]
  dsimp only
  rw [base]
  split
  · next isVoid => rw [if_pos isVoid.1]
  · next notVoid => rw [if_neg fun e => notVoid ⟨e, rfl⟩, if_pos ⟨rfl, means⟩]

theorem returnShape_of_parse?_eq_none {text : String} (h : parse? text = none) :
    table.returnShape scope task text = .value (.literal text) := by
  rw [returnShape, h]

/-- A text that is read as the plain name of a task, other than the empty type, is a task without a result. -/
theorem returnShape_of_parse?_name {text outer : String} (read : parse? text = some ⟨outer, [], []⟩)
    (notVoid : TypeSyntax.baseName ⟨outer, [], []⟩ ≠ "void") (means : table.resolve? scope outer = some task.fullName) :
    table.returnShape scope task text = .wrapped none := by
  rw [returnShape, read]
  dsimp only
  rw [if_neg fun isVoid => notVoid isVoid.1, if_pos ⟨rfl, means⟩]

/-- The result of a method whose return type can be read is described like a type. -/
theorem exists_describe_of_result? {text : String} {t : TypeSyntax} {type : TypeReference}
    (read : parse? text = some t) (result : (table.returnShape scope task text).result? = some type) :
    ∃ u : TypeSyntax, u.WellNamed ∧ table.describe scope u = type := by
  have named : t.WellNamed := (parse?_eq_some_iff.1 read).1
  rw [returnShape, read] at result
  dsimp only at result
  split at result
  · cases result
  · split at result
    · obtain ⟨name, arguments, marks⟩ := t
      dsimp only at result
      split at result
      · cases result
      · exact ⟨_, named.2.1, Option.some.inj result⟩
      · exact ⟨_, named, Option.some.inj result⟩
    · exact ⟨t, named, Option.some.inj result⟩

/-- **A task of a result is seen as one** exactly when the task is written as a plain name, which is not that of the
empty type, and the result can be read as a type. A task of any other result counts as a value, and the method that
stands for it returns a task of that task. -/
theorem returnShape_task_iff (means : table.resolve? scope name = some task.fullName) (one : IsOneArgument argument) :
    ((table.returnShape scope task (name ++ "<" ++ argument ++ ">") =
          .wrapped (some (table.describeText scope argument)) ∧
        task.returning (table.returnShape scope task (name ++ "<" ++ argument ++ ">")) =
          task.name ++ "<" ++ (table.describeText scope argument).display ++ ">") ↔
      (∃ outer, parse? name = some ⟨outer, [], []⟩ ∧ TypeSyntax.baseName ⟨outer, [], []⟩ ≠ "void") ∧
        (parse? argument).isSome = true) ∧
    (parse? argument = none →
      table.returnShape scope task (name ++ "<" ++ argument ++ ">") =
          .value (.literal (name ++ "<" ++ argument ++ ">")) ∧
        task.returning (table.returnShape scope task (name ++ "<" ++ argument ++ ">")) =
          task.name ++ "<" ++ trim (name ++ "<" ++ argument ++ ">") ++ ">") := by
  refine ⟨⟨?_, ?_⟩, ?_⟩
  · rintro ⟨shape, -⟩
    cases read : parse? (name ++ "<" ++ argument ++ ">") with
    | none =>
      rw [returnShape_of_parse?_eq_none read] at shape
      cases shape
    | some t =>
      obtain ⟨outer, inner, readName, readArgument, rfl⟩ := (parse?_applied_eq_some_iff one).1 read
      rw [resolve?_of_parse? table scope readName] at means
      rw [returnShape_of_parse?_applied read means] at shape
      refine ⟨⟨outer, readName, fun isVoid => ?_⟩, by rw [readArgument]; rfl⟩
      rw [if_pos isVoid] at shape
      cases shape
  · rintro ⟨⟨outer, readName, notVoid⟩, isRead⟩
    obtain ⟨inner, readArgument⟩ := Option.isSome_iff_exists.1 isRead
    have read := (parse?_applied_eq_some_iff one).2 ⟨outer, inner, readName, readArgument, rfl⟩
    rw [resolve?_of_parse? table scope readName] at means
    rw [returnShape_of_parse?_applied read means, if_neg notVoid, describeText_of_parse? readArgument]
    exact ⟨rfl, rfl⟩
  · intro unread
    have unreadWhole : parse? (name ++ "<" ++ argument ++ ">") = none := by
      rw [Option.eq_none_iff_forall_ne_some]
      intro t read
      obtain ⟨outer, inner, -, readArgument, -⟩ := (parse?_applied_eq_some_iff one).1 read
      rw [unread] at readArgument
      cases readArgument
    rw [returnShape_of_parse?_eq_none unreadWhole]
    exact ⟨rfl, rfl⟩

end SymbolTable

/-! ## An example -/

namespace Sample

/-- A table that knows a type of tasks. -/
def taskTable : SymbolTable := ⟨.ofList ["N.Task"], []⟩

/-- The type of tasks. -/
def taskType : TaskType := { fullName := "N.Task", ns := "N", name := "Task" }

/-- A file that imports the type of tasks. -/
def taskScope : Scope := { ns := some "P", usings := ["N"] }

/-- A tuple cannot be read as a type, so that a task of one is wrapped in another task. -/
theorem returning_task_of_tuple :
    taskTable.resolve? taskScope "Task" = some taskType.fullName ∧ IsOneArgument "(A, B)" ∧
      taskType.returning (taskTable.returnShape taskScope taskType "Task<(A, B)>") = "Task<Task<(A, B)>>" ∧
      taskTable.returnShape taskScope taskType "Task<(A, B)>" ≠
        .wrapped (some (taskTable.describeText taskScope "(A, B)")) := by
  have means : taskTable.resolve? taskScope "Task" = some taskType.fullName := by decide +kernel
  have one : IsOneArgument "(A, B)" := by decide +kernel
  have unread : parse? "(A, B)" = none := by decide +kernel
  have written : "Task" ++ "<" ++ "(A, B)" ++ ">" = "Task<(A, B)>" := by decide +kernel
  obtain ⟨shape, returning⟩ := (SymbolTable.returnShape_task_iff means one).2 unread
  rw [written] at shape returning
  refine ⟨means, one, ?_, ?_⟩
  · rw [returning]
    decide +kernel
  · rw [shape]
    exact nofun

end Sample

end TypedWrappers

import TypedWrappers.Proofs.PlainNames
import TypedWrappers.Proofs.WrittenOutputs

/-!
# Projects that were just started

A command that starts a project leaves a directory with a settings file, whose text has the name of the project in it
as it is. What the project is loaded with depends on how that text is read.

- `Command.exists_of_startProject`: what starting a project has done when it ends;
- `Command.loadProject_startProject_iff`: the project is loaded with the settings it was started with exactly where its
  name is blank or a plain line.
-/

namespace TypedWrappers

namespace Path

/-- Names that are joined to a path one after the other are joined with a slash between them. -/
theorem join_join {p : Path} {first second : String} (isFirst : isEntryName first = true)
    (isSecond : isEntryName second = true) : (p.join first).join second = p.join (first ++ "/" ++ second) := by
  obtain ⟨nonempty, -, -, noSlash⟩ := isEntryName_iff.1 isFirst
  have lead : (p.join first).lead = p.lead ++ (first.toList ++ ['/']) := by
    have last : (p.join first).text.toList.getLast? ≠ some '/' := by
      rw [toList_join isFirst, List.getLast?_append_of_ne_nil _ nonempty]
      exact fun slash => noSlash (List.mem_of_getLast? slash)
    rw [Path.lead, if_neg (join_ne_empty isFirst), if_neg last, toList_join isFirst, List.append_assoc]
  have relative : (Path.mk (first ++ "/" ++ second)).isAbsolute = false := by
    obtain ⟨c, cs, e⟩ := List.exists_cons_of_ne_nil nonempty
    have noSlash : c ≠ '/' := by
      rintro rfl
      exact noSlash (by rw [e]; exact List.mem_cons_self)
    simp [isAbsolute, e, noSlash]
  have same : ((p.join first).join second).text = (p.join (first ++ "/" ++ second)).text := by
    rw [← String.toList_inj, toList_join isSecond, lead, toList_join_of_relative relative]
    simp
  exact congrArg Path.mk same

end Path

namespace Workspace

variable {w w' : Workspace} {dir : Path}

/-- A directory is loaded with the settings in its settings file. -/
theorem loadProject_eq_ok_iff_of_readFile? {text : String} {settings : Settings}
    (isDirectory : w.isDirectory dir = true) (read : w.readFile? (dir.join Settings.fileName) = some text) :
    w.loadProject dir = .ok ⟨settings, dir⟩ ↔ Settings.ofText? text = some settings ∧ settings.inputs ≠ [] := by
  have file : w.settingsAt dir = (dir.join Settings.fileName, dir) := by rw [settingsAt, if_pos isDirectory]
  rw [loadProject_eq_ok_iff, file, read]
  constructor
  · rintro ⟨_, ⟨⟩, _, ofText, inputs, ⟨⟩⟩
    exact ⟨ofText, inputs⟩
  · rintro ⟨ofText, inputs⟩
    exact ⟨text, rfl, settings, ofText, inputs, rfl⟩

theorem placeOf?_eq_some_iff {p : Path} {place : Location} :
    w.placeOf? p = some place ↔
      w.locate p = .ok place ∧ (w.tree.find? place).isSome = true ∧ admits (absolute place) = true := by
  simp only [placeOf?, locate?, Option.bind_eq_bind, Option.bind_eq_some_iff, Option.ite_none_right_eq_some,
    Bool.and_eq_true]
  cases w.locate p with
  | error e => simp [Except.toOption]
  | ok found =>
    constructor
    · rintro ⟨_, ⟨⟩, there, ⟨⟩⟩
      exact ⟨rfl, there⟩
    · rintro ⟨⟨⟩, there⟩
      exact ⟨_, rfl, there, rfl⟩

/-- What a path led to is the directory that it leads to behind a change that keeps directories. -/
theorem ChangesOnly.placeOf?_eq_some {mayChange : Location → Bool} {place : Location} (h : ChangesOnly mayChange w w')
    (isDirectory : w'.isDirectory dir = true) (leads : w.placeOf? dir = some place) : w'.placeOf? dir = some place := by
  obtain ⟨located, -, admitted⟩ := placeOf?_eq_some_iff.1 leads
  obtain ⟨place', located', found⟩ := isDirectory_eq_true_iff.1 isDirectory
  cases located'.symm.trans (h.locate_eq_ok located)
  exact placeOf?_eq_some_iff.2 ⟨located', by rw [found]; rfl, admitted⟩

end Workspace

namespace Command

variable {s s' : Session} {dir : Path} {name : Option String} {n : String}

/-- The name of a project is the given one, or that of its directory. -/
theorem exists_place_of_projectName (ends : Ends (projectName dir name) s n s') :
    s = s' ∧ ∃ place, s.workspace.placeOf? dir = some place ∧ name.or place.head? = some n := by
  simp only [projectName, ends_bind_iff, ends_look_iff] at ends
  obtain ⟨_, _, ⟨rfl, rfl⟩, ends⟩ := ends
  cases leads : s.workspace.placeOf? dir with
  | none =>
    rw [leads] at ends
    exact absurd ends not_ends_throw
  | some place =>
    rw [leads] at ends
    cases name with
    | some given =>
      obtain ⟨rfl, rfl⟩ := ends_pure_iff.1 ends
      exact ⟨rfl, place, rfl, rfl⟩
    | none =>
      cases place with
      | nil => exact absurd ends not_ends_throw
      | cons own above =>
        obtain ⟨rfl, rfl⟩ := ends_pure_iff.1 ends
        exact ⟨rfl, _, rfl, rfl⟩

/-- What comes behind a step that is not always taken. -/
theorem exists_ends_of_ite {α β : Type} {c : Prop} [Decidable c] {first : Command α} {next : Command β} {b : β}
    (ends : Ends (if c then first >>= fun _ => next else next) s b s') : ∃ s₁, Ends next s₁ b s' := by
  split at ends
  · obtain ⟨_, s₁, -, ends⟩ := ends_bind_iff.1 ends
    exact ⟨s₁, ends⟩
  · exact ⟨s, ends⟩

theorem ends_of_ite_throw {α β : Type} {c : Prop} [Decidable c] {failure : Failure} {next : α → Command β}
    {other : Command β} {b : β} (ends : Ends (if c then throw failure >>= next else other) s b s') :
    Ends other s b s' := by
  split at ends
  · obtain ⟨_, _, thrown, -⟩ := ends_bind_iff.1 ends
    exact absurd thrown not_ends_throw
  · exact ends

/-- Starting a project makes directories, and writes the settings file and a snapshot. -/
theorem exists_of_startProject (ends : Ends (startProject dir name) s () s') :
    ∃ (n : String) (place : Location) (w w₁ w₂ : Workspace), name.or place.head? = some n ∧
      w.placeOf? dir = some place ∧ w.ChangesOnly (fun _ => false) w₁ ∧
      w₁.writeFile? (dir.join Settings.fileName) (Settings.initialText n) = some w₂ ∧
      w₂.writeFile? (dir.join "snapshots/greeting.yaml") sampleSnapshot = some s'.workspace := by
  simp only [startProject, ends_bind_iff, ends_look_iff] at ends
  obtain ⟨_, _, ⟨rfl, rfl⟩, ends⟩ := ends
  obtain ⟨s₁, ends⟩ := exists_ends_of_ite ends
  obtain ⟨n, _, named, ends⟩ := ends_bind_iff.1 ends
  obtain ⟨rfl, place, leads, named⟩ := exists_place_of_projectName named
  simp only [ends_bind_iff, ends_look_iff] at ends
  obtain ⟨_, _, ⟨-, rfl⟩, ends⟩ := ends
  replace ends := ends_of_ite_throw ends
  simp only [ends_bind_iff, ends_tell_iff] at ends
  obtain ⟨_, _, rfl, _, s₂, made, _, s₃, settings, _, s₄, snapshot, told⟩ := ends
  obtain ⟨w₂, written, rfl⟩ := ends_change_iff.1 settings
  obtain ⟨w₃, written', rfl⟩ := ends_change_iff.1 snapshot
  have directories : Workspace.ChangesOnly (fun _ => false) _ _ := changesOnly_of_makeInside made
  rw [workspace_eq_of_forM_tell told]
  exact ⟨n, place, s₁.workspace, s₂.workspace, w₂, named, leads, directories, written, written'⟩

/-- The snapshot that a new project starts with is no settings file. -/
theorem changesOnly_of_writeSnapshot {w w' : Workspace} {content : String}
    (written : w.writeFile? (dir.join "snapshots/greeting.yaml") content = some w') :
    w.ChangesOnly (fun place => decide (place.head? = some "greeting.yaml")) w' := by
  refine Workspace.changesOnly_of_writeFile? written fun place located => ?_
  have text : "snapshots/greeting.yaml" = "snapshots" ++ "/" ++ "greeting.yaml" := by decide +kernel
  rw [text, ← Path.join_join (by decide +kernel) (by decide +kernel),
    Workspace.locate_join_eq_ok_iff (by decide +kernel)] at located
  obtain ⟨-, above, -, -, -, rfl⟩ := located
  rfl

/-- Behind a project that was started there is its directory, with the settings file of its name. -/
theorem readFile?_of_startProject (ends : Ends (startProject dir name) s () s') :
    ∃ n, name.or ((s'.workspace.placeOf? dir).bind List.head?) = some n ∧ s'.workspace.isDirectory dir = true ∧
      s'.workspace.readFile? (dir.join Settings.fileName) = some (Settings.initialText n) := by
  obtain ⟨n, place, w, w₁, w₂, named, leads, made, settings, snapshot⟩ := exists_of_startProject ends
  have nonempty : dir.text ≠ "" :=
    (Workspace.locate_eq_ok_iff.1 (Workspace.placeOf?_eq_some_iff.1 leads).1).2.1
  have isName : isEntryName Settings.fileName = true := by decide +kernel
  obtain ⟨above, located, isDirectory, file, found⟩ := Workspace.exists_of_writeFile?_join isName nonempty settings
  have first : w₁.ChangesOnly (fun _ => true) w₂ := Workspace.changesOnly_of_writeFile? settings fun _ _ => rfl
  have second := changesOnly_of_writeSnapshot snapshot
  have isDirectory₁ : w₁.isDirectory dir = true :=
    Workspace.isDirectory_eq_true_iff.2 ⟨above, located, isDirectory⟩
  have isDirectory₂ := first.isDirectory_eq_true isDirectory₁
  have isDirectory₃ := second.isDirectory_eq_true isDirectory₂
  have leads₁ := made.placeOf?_eq_some isDirectory₁ leads
  have leads₂ := first.placeOf?_eq_some isDirectory₂ leads₁
  have written : w₂.readFile? (dir.join Settings.fileName) = some (Settings.initialText n) :=
    Workspace.readFile?_eq_some_iff.2 ⟨_, first.locate_eq_ok file, by rw [found, if_pos rfl]⟩
  refine ⟨n, ?_, isDirectory₃, second.readFile?_eq_some written ?_⟩
  · rw [second.placeOf?_eq_some isDirectory₃ leads₂, Option.bind_some, named]
  · intro place located
    cases located.symm.trans (first.locate_eq_ok file)
    have other : Settings.fileName ≠ "greeting.yaml" := by decide +kernel
    simpa using other

/-- **A project that was started is loaded with its settings** exactly where its name is blank or a plain line. -/
theorem loadProject_startProject_iff {w : Workspace} (ran : (startProject dir name).run w = (.ok (), s)) :
    ∃ n, name.or ((s.workspace.placeOf? dir).bind List.head?) = some n ∧
      (s.workspace.loadProject dir = .ok ⟨.initial n, dir⟩ ↔ n = "" ∨ Yaml.isPlainLine n.toList = true) := by
  obtain ⟨n, named, isDirectory, read⟩ := readFile?_of_startProject (run_eq_iff.1 ran)
  have inputs : (Settings.initial n).inputs ≠ [] := nofun
  refine ⟨n, named, ?_⟩
  rw [Workspace.loadProject_eq_ok_iff_of_readFile? isDirectory read, ← Settings.ofText?_initialText_iff]
  exact and_iff_left inputs

end Command

/-! ## An example -/

namespace Sample

open Command

/-- No files at all. -/
def blankWorkspace : Workspace :=
  ⟨.empty, []⟩

/-- A name is loaded again, unless there is a colon in front of a blank in it. -/
theorem startProject_colon :
    (∃ s, (startProject ⟨"sales"⟩ (some "Sales")).run blankWorkspace = (.ok (), s) ∧
      s.workspace.loadProject ⟨"sales"⟩ = .ok ⟨.initial "Sales", ⟨"sales"⟩⟩) ∧
    ∃ s, (startProject ⟨"sales"⟩ (some "Sales: EU")).run blankWorkspace = (.ok (), s) ∧
      s.workspace.loadProject ⟨"sales"⟩ ≠ .ok ⟨.initial "Sales: EU", ⟨"sales"⟩⟩ := by
  have succeeds {r : Except Failure Unit × Session} (ok : r.1.toBool = true) : ∃ s, r = (.ok (), s) := by
    obtain ⟨_ | _, s⟩ := r
    · cases ok
    · exact ⟨s, rfl⟩
  have ran : ((startProject ⟨"sales"⟩ (some "Sales")).run blankWorkspace).1.toBool = true := by decide +kernel
  have ran' : ((startProject ⟨"sales"⟩ (some "Sales: EU")).run blankWorkspace).1.toBool = true := by decide +kernel
  have line : Yaml.isPlainLine "Sales".toList = true := by decide +kernel
  have noLine : ¬("Sales: EU" = "" ∨ Yaml.isPlainLine "Sales: EU".toList = true) := by decide +kernel
  obtain ⟨s, ran⟩ := succeeds ran
  obtain ⟨s', ran'⟩ := succeeds ran'
  obtain ⟨n, named, loads⟩ := loadProject_startProject_iff ran
  obtain ⟨n', named', loads'⟩ := loadProject_startProject_iff ran'
  cases named
  cases named'
  exact ⟨⟨s, ran, loads.2 (.inr line)⟩, s', ran', mt loads'.1 noLine⟩

end Sample

end TypedWrappers

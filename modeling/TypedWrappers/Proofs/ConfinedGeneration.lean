import TypedWrappers.Proofs.GenerateCheck

/-!
# Generation stays in its directories

Snapshots are refused as a whole, before anything is written, or what is written and removed lies directly in the
directories of their outputs.

- `Workspace.Refuses`: what is wrong with snapshots that are refused; `Workspace.Generates`: the outputs of the others;
  `Workspace.generateAll_ok_iff`: there is one or the other;
- `Command.OutputStep`: one change to the workspace that writing outputs may make;
  `Workspace.changesOnly_of_outputSteps`: what any number of them leaves as it is, by induction on the steps;
- `Command.takes_writeArtifact`, `takes_removeStale`, `takes_makeInside`, `takes_writeOutput`: no other changes are
  made, however the writing ends;
- `Command.generate_confined`: both for whole runs.
-/

namespace TypedWrappers

open Text

namespace Workspace

variable {w : Workspace} {snapshots : List Path} {outputs : List SnapshotOutput}

/-! ## Snapshots that are refused -/

/-- Something is wrong with snapshots: one of them cannot be loaded, the pass over it fails, its compilation or one of
its generated files has no plain file name, or two of them generate into directories of one name. -/
inductive Refuses (w : Workspace) (snapshots : List Path) : Prop
  | unloadable {p : Path} {e : LoadError} : p ∈ snapshots → w.loadSnapshot p = .error e → Refuses w snapshots
  | failing {p : Path} {c : Compilation} {e : PassError} : p ∈ snapshots → w.loadSnapshot p = .ok c →
      Pass.run .temporal FileModel.emitter c = .error e → Refuses w snapshots
  | badOutputName {p : Path} {c : Compilation} : p ∈ snapshots → w.loadSnapshot p = .ok c →
      isPlainFileName (outputName c p) = false → Refuses w snapshots
  | badFileName {p : Path} {c : Compilation} {output : Output} {a : Artifact} : p ∈ snapshots →
      w.loadSnapshot p = .ok c → Pass.run .temporal FileModel.emitter c = .ok output → a ∈ output.artifacts.toList →
      isPlainFileName a.fileName = false → Refuses w snapshots
  | sharedName {p q : Path} {c d : Compilation} : [p, q].Sublist snapshots → w.loadSnapshot p = .ok c →
      w.loadSnapshot q = .ok d → outputName c p = outputName d q → Refuses w snapshots

/-- Outputs are those of snapshots, one for each and in order. -/
structure Generates (w : Workspace) (snapshots : List Path) (outputs : List SnapshotOutput) : Prop where
  snapshots : outputs.map SnapshotOutput.snapshot = snapshots
  each : ∀ o ∈ outputs, ∃ c, w.loadSnapshot o.snapshot = .ok c ∧
    Pass.run .temporal FileModel.emitter c = .ok o.output ∧ o.name = outputName c o.snapshot

theorem generates_iff : w.Generates snapshots outputs ↔ snapshots.mapM w.generateFrom = .ok outputs := by
  rw [mapM_eq_ok_iff]
  constructor
  · rintro ⟨rfl, each⟩
    rw [List.forall₂_map_left_iff, List.forall₂_same]
    intro o ho
    obtain ⟨c, loaded, ran, name⟩ := each o ho
    exact generateFrom_eq_ok_iff.2 ⟨c, loaded, o.output, ran, by rw [← name]⟩
  · intro generated
    induction generated with
    | nil => exact ⟨rfl, nofun⟩
    | cons first _ rest =>
      obtain ⟨c, loaded, output, ran, rfl⟩ := generateFrom_eq_ok_iff.1 first
      exact ⟨congrArg _ rest.snapshots, List.forall_mem_cons.2 ⟨⟨c, loaded, ran, rfl⟩, rest.each⟩⟩

/-- Every snapshot that is generated has its output. -/
theorem Generates.exists_output (h : w.Generates snapshots outputs) {p : Path} {c : Compilation} (hp : p ∈ snapshots)
    (loaded : w.loadSnapshot p = .ok c) :
    ∃ o ∈ outputs, Pass.run .temporal FileModel.emitter c = .ok o.output ∧ o.name = outputName c p := by
  rw [← h.snapshots] at hp
  obtain ⟨o, ho, rfl⟩ := List.mem_map.1 hp
  obtain ⟨d, loaded', ran, name⟩ := h.each o ho
  cases loaded.symm.trans loaded'
  exact ⟨o, ho, ran, name⟩

/-- Snapshots without anything wrong are generated, each of them. -/
theorem exists_generates (fine : ¬w.Refuses snapshots) : ∃ outputs, w.Generates snapshots outputs := by
  simp only [generates_iff]
  refine mapM_ok_iff.2 fun p hp => ?_
  cases loaded : w.loadSnapshot p with
  | error e => exact absurd (.unloadable hp loaded) fine
  | ok c =>
    cases ran : Pass.run .temporal FileModel.emitter c with
    | error e => exact absurd (.failing hp loaded ran) fine
    | ok output => exact ⟨_, generateFrom_eq_ok_iff.2 ⟨c, loaded, output, ran, rfl⟩⟩

/-- Two snapshots in order are those of two outputs in the same order. -/
theorem Generates.exists_pair (h : w.Generates snapshots outputs) {p q : Path} (pair : [p, q].Sublist snapshots) :
    ∃ o o', [o, o'].Sublist outputs ∧ o.snapshot = p ∧ o'.snapshot = q := by
  rw [← h.snapshots] at pair
  obtain ⟨two, sub, e⟩ := List.sublist_map_iff.1 pair
  match two with
  | [o, o'] =>
    simp only [List.map_cons, List.map_nil, List.cons.injEq, and_true] at e
    exact ⟨o, o', sub, e.1.symm, e.2.symm⟩

/-- Where nothing is wrong with the snapshots, all names in the outputs are plain and no two outputs share one. -/
theorem Generates.names_of_not_refuses (h : w.Generates snapshots outputs) (fine : ¬w.Refuses snapshots) :
    (∀ o ∈ outputs, isPlainFileName o.name = true ∧
      ∀ a ∈ o.output.artifacts.toList, isPlainFileName a.fileName = true) ∧
    (outputs.map SnapshotOutput.name).Nodup := by
  constructor
  · intro o ho
    obtain ⟨c, loaded, ran, name⟩ := h.each o ho
    have hp : o.snapshot ∈ snapshots := h.snapshots ▸ List.mem_map_of_mem ho
    constructor
    · rw [name, ← Bool.not_eq_false]
      exact fun notPlain => fine (.badOutputName hp loaded notPlain)
    · intro a ha
      rw [← Bool.not_eq_false]
      exact fun notPlain => fine (.badFileName hp loaded ran ha notPlain)
  · rw [List.Nodup, List.pairwise_map, List.pairwise_iff_forall_sublist]
    intro o o' pair same
    obtain ⟨c, loaded, -, name⟩ := h.each o (pair.subset (by simp))
    obtain ⟨d, loaded', -, name'⟩ := h.each o' (pair.subset (by simp))
    have pair := pair.map SnapshotOutput.snapshot
    rw [h.snapshots] at pair
    exact fine (.sharedName pair loaded loaded' (name.symm.trans (same.trans name')))

/-- Where all names in the outputs are plain and no two outputs share one, nothing is wrong with the snapshots. -/
theorem Generates.not_refuses (h : w.Generates snapshots outputs)
    (plain : ∀ o ∈ outputs, isPlainFileName o.name = true ∧
      ∀ a ∈ o.output.artifacts.toList, isPlainFileName a.fileName = true)
    (distinct : (outputs.map SnapshotOutput.name).Nodup) : ¬w.Refuses snapshots := by
  intro refused
  cases refused with
  | unloadable hp failed =>
    rw [← h.snapshots] at hp
    obtain ⟨o, ho, rfl⟩ := List.mem_map.1 hp
    obtain ⟨c, loaded, -⟩ := h.each o ho
    cases failed.symm.trans loaded
  | failing hp loaded failed =>
    obtain ⟨o, -, ran, -⟩ := h.exists_output hp loaded
    cases failed.symm.trans ran
  | badOutputName hp loaded notPlain =>
    obtain ⟨o, ho, -, name⟩ := h.exists_output hp loaded
    rw [← name, (plain o ho).1] at notPlain
    cases notPlain
  | badFileName hp loaded ran ha notPlain =>
    obtain ⟨o, ho, ran', -⟩ := h.exists_output hp loaded
    cases ran.symm.trans ran'
    rw [(plain o ho).2 _ ha] at notPlain
    cases notPlain
  | sharedName pair loaded loaded' same =>
    obtain ⟨o, o', both, rfl, rfl⟩ := h.exists_pair pair
    obtain ⟨c, hc, -, name⟩ := h.each o (both.subset List.mem_cons_self)
    obtain ⟨d, hd, -, name'⟩ := h.each o' (both.subset (List.mem_cons_of_mem _ List.mem_cons_self))
    cases loaded.symm.trans hc
    cases loaded'.symm.trans hd
    have apart := (both.map SnapshotOutput.name).nodup distinct
    exact List.pairwise_pair.1 apart (name.trans (same.trans name'.symm))

/-- Snapshots are generated all together, unless something is wrong with them. -/
theorem generateAll_ok_iff : (∃ outputs, w.generateAll snapshots = .ok outputs) ↔ ¬w.Refuses snapshots := by
  simp only [generateAll_eq_ok_iff, ← generates_iff, SnapshotOutput.checkAll_eq_ok_iff]
  constructor
  · rintro ⟨outputs, generated, plain, distinct, -⟩
    exact generated.not_refuses plain distinct
  · intro fine
    obtain ⟨outputs, generated⟩ := exists_generates fine
    obtain ⟨plain, distinct⟩ := generated.names_of_not_refuses fine
    exact ⟨outputs, generated, plain, distinct, nofun⟩

end Workspace

/-! ## Steps -/

/-- The path of a file in the directory of an output leads to the file of that name directly in it, and the directory
itself has the output's name and lies directly in the output directory. -/
def Workspace.LeadsInto (w : Workspace) (outputDir : Path) (o : SnapshotOutput) (fileName : String) : Prop :=
  ∃ above, w.landing outputDir = .ok above ∧ w.locate (outputDir.join o.name) = .ok (o.name :: above) ∧
    w.locate ((outputDir.join o.name).join fileName) = .ok (fileName :: o.name :: above)

namespace Command

/-- One change to a workspace that writing outputs may make: a directory is made on the way to that of an output, a file
of an output is written directly into its directory, or a file is removed from directly there that has the suffix of
generated files and is none of the output's. -/
inductive OutputStep (outputDir : Path) (outputs : List SnapshotOutput) : Workspace → Workspace → Prop
  | makeDirectory {w w' : Workspace} {o : SnapshotOutput} {p : Path} : o ∈ outputs →
      p ∈ (outputDir.join o.name).ancestors → w.makeDirectory? p = some w' → OutputStep outputDir outputs w w'
  | writeFile {w w' : Workspace} {o : SnapshotOutput} {a : Artifact} : o ∈ outputs → a ∈ o.output.artifacts.toList →
      w.LeadsInto outputDir o a.fileName →
      w.writeFile? ((outputDir.join o.name).join a.fileName) a.content = some w' → OutputStep outputDir outputs w w'
  | removeFile {w w' : Workspace} {o : SnapshotOutput} {name : String} : o ∈ outputs →
      (∀ a ∈ o.output.artifacts.toList, a.fileName ≠ name) →
      endsWith name Config.temporal.generatedFileSuffix = true → w.LeadsInto outputDir o name →
      w.isFile ((outputDir.join o.name).join name) = true →
      w.removeFile? ((outputDir.join o.name).join name) = some w' → OutputStep outputDir outputs w w'

end Command

namespace Workspace

variable {w w' : Workspace} {outputDir : Path} {o : SnapshotOutput} {name : String} {place : Location}

/-- A path in the directory of an output that leads anywhere leads directly into the directory. -/
theorem leadsInto_of_locate (isName : isEntryName o.name = true) (isFileName : isEntryName name = true)
    (located : w.locate ((outputDir.join o.name).join name) = .ok place) : w.LeadsInto outputDir o name := by
  obtain ⟨dir, locatedDir, -, rfl⟩ := locate_of_locate_join isFileName (Path.join_ne_empty isName) located
  obtain ⟨-, above, landing, -, -, rfl⟩ := (locate_join_eq_ok_iff isName).1 locatedDir
  exact ⟨above, landing, locatedDir, located⟩

/-- Only files are removed. -/
theorem isFile_of_removeFile? {p : Path} (removed : w.removeFile? p = some w') : w.isFile p = true := by
  obtain ⟨place, tree, located, dropped, -⟩ := removeFile?_eq_some_iff.1 removed
  rw [FileTree.removeFile?] at dropped
  split at dropped
  · next content found =>
    exact Option.isSome_iff_exists.2 ⟨content, readFile?_eq_some_iff.2 ⟨place, located, found⟩⟩
  · cases dropped

/-- The leftover files of a directory, whether it is there or not. -/
theorem exists_name_of_mem_leftoverFiles {dir file : Path} {artifacts : ArtifactSet}
    (h : file ∈ w.leftoverFiles dir Config.temporal.generatedFileSuffix artifacts) :
    ∃ name, isEntryName name = true ∧ endsWith name Config.temporal.generatedFileSuffix = true ∧
      (∀ a ∈ artifacts.toList, a.fileName ≠ name) ∧ file = dir.join name := by
  cases located : w.locate dir with
  | error e => simp [leftoverFiles, filesIn, locate?, located, Except.toOption] at h
  | ok place =>
    obtain ⟨name, content, found, suffix, other, e⟩ := (mem_leftoverFiles_iff located).1 h
    exact ⟨name, FileTree.isEntryName_of_find? found, suffix, other, e⟩

end Workspace

/-! ## What the steps leave as it is -/

/-- Whether a place is directly in the directory of an output, where the output directory leads somewhere. -/
def isOutputPlace (outputs : List SnapshotOutput) (landing : Except PathError Location) (place : Location) : Bool :=
  match landing with
  | .ok above => outputs.any fun o => place.tail = o.name :: above
  | .error _ => false

namespace Workspace

variable {w w' : Workspace} {outputDir : Path} {outputs : List SnapshotOutput}

theorem LeadsInto.isOutputPlace_eq_true {o : SnapshotOutput} {name : String} {place : Location}
    (h : w.LeadsInto outputDir o name) (ho : o ∈ outputs)
    (located : w.locate ((outputDir.join o.name).join name) = .ok place) :
    isOutputPlace outputs (w.landing outputDir) place = true := by
  obtain ⟨above, landing, -, located'⟩ := h
  cases located.symm.trans located'
  rw [landing, isOutputPlace, List.any_eq_true]
  exact ⟨o, ho, decide_eq_true rfl⟩

theorem changesOnly_of_outputStep (step : Command.OutputStep outputDir outputs w w') :
    w.ChangesOnly (isOutputPlace outputs (w.landing outputDir)) w' := by
  cases step with
  | makeDirectory _ _ made => exact changesOnly_of_makeDirectory? made
  | writeFile ho _ leads written =>
    exact changesOnly_of_writeFile? written fun place => leads.isOutputPlace_eq_true ho
  | removeFile ho _ _ leads _ removed =>
    exact changesOnly_of_removeFile? removed fun place => leads.isOutputPlace_eq_true ho

/-- However many steps there are, only files directly in the directories of outputs have changed. -/
theorem changesOnly_of_outputSteps (taken : Relation.ReflTransGen (Command.OutputStep outputDir outputs) w w') :
    w.ChangesOnly (isOutputPlace outputs (w'.landing outputDir)) w' := by
  induction taken with
  | refl => exact .refl _ w
  | tail _ step before =>
    have after := changesOnly_of_outputStep step
    refine (before.trans after).mono fun place isPlace => ?_
    -- Where the output directory has led to a place it still does.
    unfold isOutputPlace at isPlace
    split at isPlace
    · next above landing =>
      rw [after.landing_eq_ok landing]
      exact isPlace
    · cases isPlace

end Workspace

namespace Command

/-! ## What is written takes these steps -/

section Writing

variable {w : Workspace} {outputDir : Path} {outputs : List SnapshotOutput} {o : SnapshotOutput} (ho : o ∈ outputs)
include ho

theorem takes_makeDirectory {step : Option FailedStep} {p : Path} (up : p ∈ (outputDir.join o.name).ancestors) :
    Takes (OutputStep outputDir outputs) (makeDirectory step p) w := by
  refine takes_change fun w' made => ?_
  split at made
  · cases made
    exact .refl
  · exact .single (.makeDirectory ho up made)

theorem takes_makeInside {step : Option FailedStep} {dirs : List Path}
    (up : ∀ p ∈ dirs, p ∈ (outputDir.join o.name).ancestors) :
    Takes (OutputStep outputDir outputs) (makeInside step dirs) w := by
  induction dirs with
  | nil => exact yields_pure.takes
  | cons p above ih =>
    obtain ⟨isUp, up⟩ := List.forall_mem_cons.1 up
    rw [makeInside]
    refine yields_look.bind_takes ?_
    cases w.isCutOff p with
    | false => exact takes_makeDirectory ho isUp
    | true => exact (ih up).bind fun _ _ => takes_makeDirectory ho isUp

theorem takes_writeArtifact {a : Artifact} (ha : a ∈ o.output.artifacts.toList) (isName : isEntryName o.name = true)
    (isFileName : isEntryName a.fileName = true) :
    Takes (OutputStep outputDir outputs) (writeArtifact (outputDir.join o.name) a) w := by
  refine (takes_change fun w' written => .single ?_).bind fun _ _ => yields_tell.takes
  obtain ⟨place, -, located, -⟩ := Workspace.writeFile?_eq_some_iff.1 written
  exact .writeFile ho ha (Workspace.leadsInto_of_locate isName isFileName located) written

theorem takes_removeStale {before : Workspace} {file : Path} (isName : isEntryName o.name = true)
    (leftover :
      file ∈ before.leftoverFiles (outputDir.join o.name) Config.temporal.generatedFileSuffix o.output.artifacts) :
    Takes (OutputStep outputDir outputs) (removeStale file) w := by
  obtain ⟨name, isFileName, suffix, other, rfl⟩ := Workspace.exists_name_of_mem_leftoverFiles leftover
  refine (takes_change fun w' removed => .single ?_).bind fun _ _ => yields_tell.takes
  obtain ⟨place, -, located, -⟩ := Workspace.removeFile?_eq_some_iff.1 removed
  exact .removeFile ho other suffix (Workspace.leadsInto_of_locate isName isFileName located)
    (Workspace.isFile_of_removeFile? removed) removed

theorem takes_writeOutput (wellFormed : o.WellFormed) :
    Takes (OutputStep outputDir outputs) (writeOutput outputDir o) w := by
  refine (takes_makeInside ho fun _ => id).bind fun _ w₁ => ?_
  refine (takes_forM fun a ha w => takes_writeArtifact ho ha wellFormed.name (wellFormed.artifacts a ha).1).bind
    fun _ w₂ => ?_
  refine yields_look.bind_takes ?_
  refine (takes_forM fun file leftover w => takes_removeStale ho wellFormed.name leftover).bind fun _ w₃ => ?_
  exact (yields_forM fun _ _ => yields_tell).bind_takes yields_tell.takes

end Writing

/-! ## Whole runs -/

section Runs

variable {w : Workspace} {path : Path} {inputs : List Path} {project : Project} {snapshots : List Path}
  {outputs : List SnapshotOutput} (loaded : w.loadProject path = .ok project)

section

include loaded

/-- Where the outputs are refused, nothing is written. -/
theorem stops_generate {failure : Failure}
    (failed : w.generateInputs (if inputs = [] then project.inputs else inputs) = .error failure) :
    Stops (generate path inputs) w failure :=
  (yields_project loaded).bind_stops (yields_tell.bind_stops (stops_demand failed).bind)

/-- Where there are outputs, nothing but theirs is written and removed. -/
theorem takes_generate
    (generated : w.generateInputs (if inputs = [] then project.inputs else inputs) = .ok outputs) :
    Takes (OutputStep project.outputDir outputs) (generate path inputs) w := by
  obtain ⟨wellFormed, -⟩ := Workspace.wellFormed_of_generateInputs generated
  refine (yields_project loaded).bind_takes (yields_tell.bind_takes ((yields_demand generated).bind_takes ?_))
  exact (takes_forM fun o ho _ => takes_writeOutput ho (wellFormed o ho)).bind fun _ _ => yields_tell.takes

end

variable (discovered : w.discoverSnapshots (if inputs = [] then project.inputs else inputs) = .ok snapshots)
include loaded discovered

theorem exists_run_of_refuses (refused : w.Refuses snapshots) :
    ∃ failure log, (generate path inputs).run w = (.error failure, ⟨w, log⟩) := by
  obtain ⟨failure, failed⟩ :
      ∃ failure, w.generateInputs (if inputs = [] then project.inputs else inputs) = .error failure := by
    rw [Workspace.generateInputs_of_discoverSnapshots discovered]
    split
    · exact ⟨_, rfl⟩
    · cases all : w.generateAll snapshots with
      | error failure => exact ⟨failure, rfl⟩
      | ok outputs => exact absurd refused (Workspace.generateAll_ok_iff.1 ⟨outputs, all⟩)
  exact ⟨failure, stops_generate loaded failed []⟩

/-- Where all snapshots are generated, a run takes the steps of their outputs; without snapshots it takes none. -/
theorem steps_of_run (all : w.generateAll snapshots = .ok outputs) {result : Except Failure Unit} {s : Session}
    (ran : (generate path inputs).run w = (result, s)) :
    Relation.ReflTransGen (OutputStep project.outputDir outputs) w s.workspace ∧
      (snapshots ≠ [] → ∀ failure, result = .error failure → failure.cause = .refusedByFileSystem) := by
  have generated := Workspace.generateInputs_of_discoverSnapshots discovered
  by_cases noSnapshots : snapshots = []
  · rw [if_pos noSnapshots] at generated
    obtain ⟨log, stopped⟩ := stops_generate loaded generated []
    cases ran.symm.trans stopped
    exact ⟨.refl, fun some => absurd noSnapshots some⟩
  · rw [if_neg noSnapshots, all] at generated
    obtain ⟨taken, refused⟩ := takes_generate loaded generated []
    have result : runFrom (generate path inputs) ⟨w, []⟩ = (result, s) := ran
    rw [result] at taken refused
    exact ⟨taken, fun _ => refused⟩

/-- **Generation stays in its directories**: where something is wrong with the snapshots, a run fails and the workspace
stays as it was. Otherwise the outputs have different names, each of these and of the names of their files is one
component of a path, and however a run ends, every file that it has written or removed was directly in the directory of
an output, and each that it has removed had the suffix of generated files and was none of the output's. If there are
snapshots, only the file system makes such a run fail. -/
theorem generate_confined :
    (w.Refuses snapshots → ∃ failure log, (generate path inputs).run w = (.error failure, ⟨w, log⟩)) ∧
    (¬w.Refuses snapshots → ∃ outputs, w.Generates snapshots outputs ∧ (outputs.map SnapshotOutput.name).Nodup ∧
      (∀ o ∈ outputs, (Path.mk o.name).components = [.named o.name] ∧
        ∀ a ∈ o.output.artifacts.toList, (Path.mk a.fileName).components = [.named a.fileName]) ∧
      ∀ result s, (generate path inputs).run w = (result, s) →
        Relation.ReflTransGen (OutputStep project.outputDir outputs) w s.workspace ∧
        w.ChangesOnly (isOutputPlace outputs (s.workspace.landing project.outputDir)) s.workspace ∧
        (snapshots ≠ [] → ∀ failure, result = .error failure → failure.cause = .refusedByFileSystem)) := by
  refine ⟨exists_run_of_refuses loaded discovered, fun fine => ?_⟩
  obtain ⟨outputs, all⟩ := Workspace.generateAll_ok_iff.2 fine
  obtain ⟨generated, checked⟩ := Workspace.generateAll_eq_ok_iff.1 all
  obtain ⟨plain, distinct, -⟩ := SnapshotOutput.checkAll_eq_ok_iff.1 checked
  have component {name : String} (h : isPlainFileName name = true) : (Path.mk name).components = [.named name] :=
    Path.components_of_isEntryName (isEntryName_of_isPlainFileName h)
  refine ⟨outputs, Workspace.generates_iff.2 generated, distinct, fun o ho => ?_, fun result s ran => ?_⟩
  · exact ⟨component (plain o ho).1, fun a ha => component ((plain o ho).2 a ha)⟩
  · obtain ⟨taken, refused⟩ := steps_of_run loaded discovered all ran
    exact ⟨taken, Workspace.changesOnly_of_outputSteps taken, refused⟩

end Runs

end Command

/-! ## An example -/

namespace Sample

/-- A project with a snapshot whose compilation has a name that leads out of the output directory. -/
def escaping : Workspace where
  tree :=
    { entries :=
        [(["wfgen.yaml"], .file "name: nested\n"), (["escape.yaml", "snapshots"], .file "name: ../../escaped\n"),
          (["snapshots"], .directory)]
      distinct := by decide
      inDirectory := by simp
      named := by decide +kernel }
  here := []

/-- The name is refused, and nothing is changed; in another project a file is removed from where generated files are. -/
theorem escaping_outdated_generate :
    (escaping.Refuses [⟨"/snapshots/escape.yaml"⟩] ∧
      ∃ failure log, (Command.generate ⟨"/"⟩ []).run escaping = (.error failure, ⟨escaping, log⟩)) ∧
    ∃ outputs s, outdated.Generates [⟨"/snapshots/a.yaml"⟩] outputs ∧
      (Command.generate ⟨"/"⟩ []).run outdated = (.ok (), s) ∧
      s.workspace.readFile? ⟨"/generated/A/Old.g.cs"⟩ = none ∧
      Relation.ReflTransGen (Command.OutputStep ⟨"/generated"⟩ outputs) outdated s.workspace := by
  let nested : Project := ⟨⟨"nested", ["snapshots"], "generated"⟩, ⟨"/"⟩⟩
  let p : Project := ⟨⟨"P", ["snapshots"], "generated"⟩, ⟨"/"⟩⟩
  have loaded : escaping.loadProject ⟨"/"⟩ = .ok nested := by decide +kernel
  have discovered : escaping.discoverSnapshots (if ([] : List Path) = [] then nested.inputs else []) =
      .ok [⟨"/snapshots/escape.yaml"⟩] := by decide +kernel
  have snapshot : escaping.loadSnapshot ⟨"/snapshots/escape.yaml"⟩ = .ok ⟨"../../escaped", [], []⟩ := by decide +kernel
  have refused : escaping.Refuses [⟨"/snapshots/escape.yaml"⟩] :=
    .badOutputName List.mem_cons_self snapshot (by decide +kernel)
  have loaded' : outdated.loadProject ⟨"/"⟩ = .ok p := by decide +kernel
  have discovered' : outdated.discoverSnapshots (if ([] : List Path) = [] then p.inputs else []) =
      .ok [⟨"/snapshots/a.yaml"⟩] := by decide +kernel
  obtain ⟨s, ran, removed⟩ := exists_run_outdated
  obtain ⟨stops, confined⟩ := Command.generate_confined loaded' discovered'
  have fine : ¬outdated.Refuses [⟨"/snapshots/a.yaml"⟩] := by
    intro refused
    obtain ⟨failure, log, stopped⟩ := stops refused
    cases ran.symm.trans stopped
  obtain ⟨outputs, generated, -, -, runs⟩ := confined fine
  obtain ⟨taken, -⟩ := runs _ s ran
  have outputDir : p.outputDir = ⟨"/generated"⟩ := by decide +kernel
  rw [outputDir] at taken
  exact ⟨⟨refused, (Command.generate_confined loaded discovered).1 refused⟩, outputs, s, generated, ran, removed, taken⟩

end Sample

end TypedWrappers

import Mathlib.Logic.Relation
import TypedWrappers.Command.Basic

/-!
# Runs of commands

A command that succeeds turns one state into another, one step after the other.

- `Command.Ends`: a command succeeds and leads from one state to another; `ends_bind_iff`, `ends_change_iff` and their
  like say what each step does;
- `Command.Yields`, `Command.Stops`: a command succeeds, or fails, and leaves the workspace as it is, whatever was told
  before; `Yields.bind` and `yields_forM` put such commands together;
- `Command.Takes`: however a command ends, the workspace has gone through steps of some kind, and only the file system
  has made it fail; `Takes.bind` and `takes_forM` put such commands together.
-/

namespace TypedWrappers.Command

variable {α β : Type} {s s' : Session} {w : Workspace}

/-- The result of a command in a state, and the state at its end. -/
def runFrom (command : Command α) (s : Session) : Except Failure α × Session :=
  (ExceptT.run command).run s

/-- The command succeeds with a value and leads from one state to another. -/
def Ends (command : Command α) (s : Session) (value : α) (s' : Session) : Prop :=
  runFrom command s = (.ok value, s')

theorem run_eq_iff {command : Command α} {value : α} :
    command.run w = (.ok value, s') ↔ Ends command ⟨w, []⟩ value s' :=
  Iff.rfl

theorem runFrom_pure {a : α} : runFrom (pure a) s = (.ok a, s) := rfl

/-- The second of two commands is run where the first has ended, unless that failed. -/
theorem runFrom_bind {first : Command α} {next : α → Command β} :
    runFrom (first >>= next) s =
      match runFrom first s with
      | (.error failure, s₁) => (.error failure, s₁)
      | (.ok a, s₁) => runFrom (next a) s₁ := by
  have run : runFrom (first >>= next) s =
      StateT.run (ExceptT.bindCont next (runFrom first s).1) (runFrom first s).2 := rfl
  rw [run]
  obtain ⟨_ | _, s₁⟩ := runFrom first s <;> rfl

theorem runFrom_look {f : Workspace → α} : runFrom (look f) s = (.ok (f s.workspace), s) := rfl

theorem runFrom_tell {event : Event} : runFrom (tell event) s = (.ok (), { s with log := s.log ++ [event] }) := rfl

theorem runFrom_get : runFrom (get : Command Session) s = (.ok s, s) := rfl

theorem runFrom_demand {f : Workspace → Except Failure α} : runFrom (demand f) s = (f s.workspace, s) := by
  simp only [demand, runFrom_bind, runFrom_get]
  cases f s.workspace <;> rfl

theorem runFrom_change {step : Option FailedStep} {f : Workspace → Option Workspace} :
    runFrom (change step f) s =
      match f s.workspace with
      | some workspace => (.ok (), { s with workspace })
      | none => (.error ⟨step, .refusedByFileSystem⟩, s) := by
  simp only [change, runFrom_bind, runFrom_get]
  cases f s.workspace <;> rfl

theorem ends_pure_iff {a b : α} : Ends (pure a) s b s' ↔ a = b ∧ s = s' := by
  simp [Ends, runFrom_pure]

theorem ends_bind_iff {first : Command α} {next : α → Command β} {b : β} :
    Ends (first >>= next) s b s' ↔ ∃ a s₁, Ends first s a s₁ ∧ Ends (next a) s₁ b s' := by
  simp only [Ends]
  rw [runFrom_bind]
  obtain ⟨failure | a, s₁⟩ := runFrom first s
  · simp
  · constructor
    · intro h
      exact ⟨a, s₁, rfl, h⟩
    · rintro ⟨_, _, ⟨⟩, h⟩
      exact h

theorem not_ends_throw {failure : Failure} {a : α} : ¬Ends (throw failure) s a s' := by
  have run : runFrom (throw failure : Command α) s = (.error failure, s) := rfl
  simp [Ends, run]

theorem ends_tell_iff {event : Event} {u : Unit} :
    Ends (tell event) s u s' ↔ s' = { s with log := s.log ++ [event] } := by
  simp [Ends, runFrom_tell, eq_comm]

theorem ends_look_iff {f : Workspace → α} {a : α} : Ends (look f) s a s' ↔ f s.workspace = a ∧ s = s' := by
  simp [Ends, runFrom_look]

theorem ends_demand_iff {f : Workspace → Except Failure α} {a : α} :
    Ends (demand f) s a s' ↔ f s.workspace = .ok a ∧ s = s' := by
  simp [Ends, runFrom_demand]

theorem ends_change_iff {step : Option FailedStep} {f : Workspace → Option Workspace} {u : Unit} :
    Ends (change step f) s u s' ↔ ∃ w, f s.workspace = some w ∧ s' = { s with workspace := w } := by
  rw [Ends, runFrom_change]
  cases f s.workspace <;> simp [eq_comm]

theorem forM_nil_eq {step : α → Command Unit} : [].forM step = pure () := rfl

theorem forM_cons_eq {step : α → Command Unit} {x : α} {xs : List α} :
    (x :: xs).forM step = (step x >>= fun _ => xs.forM step) := rfl

theorem ends_forM_nil_iff {step : α → Command Unit} {u : Unit} : Ends ([].forM step) s u s' ↔ s = s' := by
  rw [forM_nil_eq, ends_pure_iff]
  exact and_iff_right rfl

theorem ends_forM_cons_iff {step : α → Command Unit} {x : α} {xs : List α} {u : Unit} :
    Ends ((x :: xs).forM step) s u s' ↔ ∃ s₁, Ends (step x) s () s₁ ∧ Ends (xs.forM step) s₁ u s' := by
  rw [forM_cons_eq, ends_bind_iff]
  exact ⟨fun ⟨_, s₁, h⟩ => ⟨s₁, h⟩, fun ⟨s₁, h⟩ => ⟨(), s₁, h⟩⟩

/-- Telling events changes nothing else. -/
theorem workspace_eq_of_forM_tell {event : α → Event} {xs : List α} {u : Unit}
    (ends : Ends (xs.forM fun x => tell (event x)) s u s') : s'.workspace = s.workspace := by
  induction xs generalizing s with
  | nil => rw [ends_forM_nil_iff.1 ends]
  | cons x xs ih =>
    obtain ⟨s₁, told, ends⟩ := ends_forM_cons_iff.1 ends
    rw [ih ends, ends_tell_iff.1 told]

/-! ## Commands that change nothing -/

/-- The command succeeds with a value and leaves the workspace as it is, whatever was told before. -/
def Yields (command : Command α) (w : Workspace) (value : α) : Prop :=
  ∀ log, ∃ log', Ends command ⟨w, log⟩ value ⟨w, log'⟩

theorem yields_pure {a : α} : Yields (pure a) w a :=
  fun log => ⟨log, ends_pure_iff.2 ⟨rfl, rfl⟩⟩

/-- A command that changes nothing leads on to the next one. -/
theorem Yields.exists_runFrom_bind {first : Command α} {next : α → Command β} {a : α} (h : Yields first w a)
    (log : List Event) : ∃ log', runFrom (first >>= next) ⟨w, log⟩ = runFrom (next a) ⟨w, log'⟩ := by
  obtain ⟨log', ran⟩ := h log
  rw [Ends] at ran
  exact ⟨log', by rw [runFrom_bind, ran]⟩

theorem Yields.bind {first : Command α} {next : α → Command β} {a : α} {b : β} (hfirst : Yields first w a)
    (hnext : Yields (next a) w b) : Yields (first >>= next) w b := by
  intro log
  obtain ⟨log₁, run⟩ := hfirst.exists_runFrom_bind log
  obtain ⟨log₂, ends⟩ := hnext log₁
  exact ⟨log₂, run.trans ends⟩

theorem yields_tell {event : Event} : Yields (tell event) w () :=
  fun _ => ⟨_, ends_tell_iff.2 rfl⟩

theorem yields_look {f : Workspace → α} : Yields (look f) w (f w) :=
  fun log => ⟨log, ends_look_iff.2 ⟨rfl, rfl⟩⟩

theorem yields_demand {f : Workspace → Except Failure α} {a : α} (found : f w = .ok a) : Yields (demand f) w a :=
  fun log => ⟨log, ends_demand_iff.2 ⟨found, rfl⟩⟩

theorem yields_change {step : Option FailedStep} {f : Workspace → Option Workspace} (same : f w = some w) :
    Yields (change step f) w () :=
  fun log => ⟨log, ends_change_iff.2 ⟨w, same, rfl⟩⟩

theorem yields_forM {step : α → Command Unit} {xs : List α} (h : ∀ x ∈ xs, Yields (step x) w ()) :
    Yields (xs.forM step) w () := by
  induction xs with
  | nil => exact yields_pure
  | cons x xs ih =>
    rw [forM_cons_eq]
    obtain ⟨first, rest⟩ := List.forall_mem_cons.1 h
    exact first.bind (ih rest)

theorem yields_mapM {step : α → Command β} {value : α → β} {xs : List α} (h : ∀ x ∈ xs, Yields (step x) w (value x)) :
    Yields (xs.mapM step) w (xs.map value) := by
  induction xs with
  | nil => exact yields_pure
  | cons x xs ih =>
    rw [List.mapM_cons]
    obtain ⟨first, rest⟩ := List.forall_mem_cons.1 h
    exact first.bind ((ih rest).bind yields_pure)

/-- The command fails and leaves the workspace as it is, whatever was told before. -/
def Stops (command : Command α) (w : Workspace) (failure : Failure) : Prop :=
  ∀ log, ∃ log', runFrom command ⟨w, log⟩ = (.error failure, ⟨w, log'⟩)

theorem Stops.bind {first : Command α} {next : α → Command β} {failure : Failure} (h : Stops first w failure) :
    Stops (first >>= next) w failure := by
  intro log
  obtain ⟨log', ran⟩ := h log
  exact ⟨log', by rw [runFrom_bind, ran]⟩

theorem Yields.bind_stops {first : Command α} {next : α → Command β} {a : α} {failure : Failure}
    (hfirst : Yields first w a) (hnext : Stops (next a) w failure) : Stops (first >>= next) w failure := by
  intro log
  obtain ⟨log₁, run⟩ := hfirst.exists_runFrom_bind log
  obtain ⟨log₂, stopped⟩ := hnext log₁
  exact ⟨log₂, run.trans stopped⟩

theorem stops_demand {f : Workspace → Except Failure α} {failure : Failure} (failed : f w = .error failure) :
    Stops (demand f) w failure :=
  fun log => ⟨log, by rw [runFrom_demand, failed]⟩

/-! ## Commands that take steps -/

/-- However the command ends, the workspace has gone through some steps; and if it fails, the file system has refused
what was asked of it. -/
def Takes (steps : Workspace → Workspace → Prop) (command : Command α) (w : Workspace) : Prop :=
  ∀ log, Relation.ReflTransGen steps w (runFrom command ⟨w, log⟩).2.workspace ∧
    ∀ failure, (runFrom command ⟨w, log⟩).1 = .error failure → failure.cause = .refusedByFileSystem

section Takes

variable {steps : Workspace → Workspace → Prop}

theorem Yields.takes {command : Command α} {a : α} (h : Yields command w a) : Takes steps command w := by
  intro log
  obtain ⟨log', ran⟩ := h log
  rw [Ends] at ran
  rw [ran]
  exact ⟨.refl, nofun⟩

theorem Yields.bind_takes {first : Command α} {next : α → Command β} {a : α} (hfirst : Yields first w a)
    (hnext : Takes steps (next a) w) : Takes steps (first >>= next) w := by
  intro log
  obtain ⟨log', run⟩ := hfirst.exists_runFrom_bind log
  rw [run]
  exact hnext log'

theorem Takes.bind {first : Command α} {next : α → Command β} (hfirst : Takes steps first w)
    (hnext : ∀ a w', Takes steps (next a) w') : Takes steps (first >>= next) w := by
  intro log
  have started := hfirst log
  rw [runFrom_bind]
  generalize runFrom first ⟨w, log⟩ = ran at started ⊢
  obtain ⟨failure | a, s⟩ := ran
  · refine ⟨started.1, fun failure' e => ?_⟩
    cases e
    exact started.2 failure rfl
  · obtain ⟨rest, refused⟩ := hnext a s.workspace s.log
    exact ⟨started.1.trans rest, refused⟩

theorem takes_change {step : Option FailedStep} {f : Workspace → Option Workspace}
    (h : ∀ w', f w = some w' → Relation.ReflTransGen steps w w') : Takes steps (change step f) w := by
  intro log
  rw [runFrom_change]
  cases changed : f w with
  | none =>
    refine ⟨.refl, fun failure e => ?_⟩
    cases e
    rfl
  | some w' => exact ⟨h w' changed, nofun⟩

theorem takes_forM {command : α → Command Unit} {xs : List α} (h : ∀ x ∈ xs, ∀ w, Takes steps (command x) w) :
    Takes steps (xs.forM command) w := by
  induction xs generalizing w with
  | nil => exact yields_pure.takes
  | cons x xs ih =>
    rw [forM_cons_eq]
    obtain ⟨first, rest⟩ := List.forall_mem_cons.1 h
    exact (first w).bind fun _ _ => ih rest

end Takes

end TypedWrappers.Command

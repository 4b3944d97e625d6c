import TypedWrappers.FileModel.Draft
import TypedWrappers.Proofs.Results

/-!
# When drafts become files

A draft becomes a file unless something in it has no name, a method has no return type, or two parameters of a method
share a name.

- `MethodDraft.lines_ok_iff`, `MethodDraft.Complete`: what a method needs;
- `MethodDraft.lines_eq_error_iff`, `MethodFault`: what is wrong with a method;
- `FileDraft.build_ok_iff`, `FileDraft.build_eq_error_iff`: what a file needs, and what is wrong with it first;
- `FileDraft.imports_of_build`: what a file imports.
-/

namespace TypedWrappers

/-! ## Members -/

theorem firstRepeat?_eq_none_iff {seen names : List String} :
    firstRepeat? seen names = none ↔ names.Nodup ∧ ∀ name ∈ names, name ∉ seen := by
  induction names generalizing seen with
  | nil => exact ⟨fun _ => ⟨.nil, nofun⟩, fun _ => rfl⟩
  | cons name rest ih =>
    rw [firstRepeat?, List.nodup_cons, List.forall_mem_cons]
    split
    · next repeated => exact ⟨nofun, fun h => absurd repeated h.2.1⟩
    · next first =>
      rw [ih]
      constructor
      · rintro ⟨nodup, new⟩
        have notSeen (other : String) (h : other ∈ rest) : other ≠ name ∧ other ∉ seen := by
          simpa [not_or] using new other h
        exact ⟨⟨fun h => (notSeen name h).1 rfl, nodup⟩, first, fun other h => (notSeen other h).2⟩
      · rintro ⟨⟨notIn, nodup⟩, -, new⟩
        refine ⟨nodup, fun other h => ?_⟩
        rw [List.mem_cons, not_or]
        exact ⟨fun e => notIn (e ▸ h), new other h⟩

/-- The earliest repetition: what stands in front of it is new. -/
theorem firstRepeat?_eq_some_iff {seen names : List String} {name : String} :
    firstRepeat? seen names = some name ↔
      ∃ before after, names = before ++ name :: after ∧ before.Nodup ∧ (∀ earlier ∈ before, earlier ∉ seen) ∧
        (name ∈ before ∨ name ∈ seen) := by
  induction names generalizing seen with
  | nil =>
    refine ⟨nofun, ?_⟩
    rintro ⟨before, after, none, -⟩
    cases before <;> cases none
  | cons first rest ih =>
    rw [firstRepeat?]
    split
    · next repeated =>
      constructor
      · intro found
        cases found
        exact ⟨[], rest, rfl, .nil, nofun, .inr repeated⟩
      · rintro ⟨before, after, parts, -, new, -⟩
        cases before with
        | nil => cases parts; rfl
        | cons other before => cases parts; exact absurd repeated (new first List.mem_cons_self)
    · next isNew =>
      -- the first name is seen from here on: it is in front of all others
      rw [ih]
      constructor
      · rintro ⟨before, after, rfl, nodup, new, again⟩
        have notFirst : first ∉ before := fun h => new first h List.mem_cons_self
        refine ⟨first :: before, after, rfl, List.nodup_cons.2 ⟨notFirst, nodup⟩, ?_, ?_⟩
        · exact List.forall_mem_cons.2 ⟨isNew, fun earlier h => List.not_mem_of_not_mem_cons (new earlier h)⟩
        · simpa only [List.mem_cons, or_assoc, or_left_comm] using again
      · rintro ⟨before, after, parts, nodup, new, again⟩
        cases before with
        | nil => cases parts; exact absurd (again.resolve_left List.not_mem_nil) isNew
        | cons other before =>
          cases parts
          obtain ⟨notFirst, nodup⟩ := List.nodup_cons.1 nodup
          refine ⟨before, after, rfl, nodup, fun earlier h => ?_, ?_⟩
          · rw [List.mem_cons, not_or]
            exact ⟨fun e => notFirst (e ▸ h), new earlier (List.mem_cons_of_mem _ h)⟩
          · simpa only [List.mem_cons, or_assoc, or_left_comm] using again

theorem firstRepeat?_nil_eq_some_iff {names : List String} {name : String} :
    firstRepeat? [] names = some name ↔
      ∃ before after, names = before ++ name :: after ∧ before.Nodup ∧ name ∈ before := by
  simp [firstRepeat?_eq_some_iff]

/-- What is wrong with a method of a name, a return type and parameters: one of the first two is missing, or else a
parameter has the name of one in front of it, and no earlier one does. -/
inductive MethodFault (name returns : String) (parameters : List String) : GenerationError → Prop
  | incomplete : name = "" ∨ returns = "" → MethodFault name returns parameters (.incompleteMethod name)
  | repeated {before after : List String} {parameter : String} :
      name ≠ "" → returns ≠ "" → parameters = before ++ parameter :: after → before.Nodup → parameter ∈ before →
        MethodFault name returns parameters (.repeatedParameter name parameter)

/-- Where the name and the return type are there, it is the earliest repetition that is wrong. -/
theorem methodFault_iff_of_ne {name returns : String} {parameters : List String} {e : GenerationError}
    (name_ne : name ≠ "") (returns_ne : returns ≠ "") :
    MethodFault name returns parameters e ↔
      ∃ parameter, firstRepeat? [] parameters = some parameter ∧ e = .repeatedParameter name parameter := by
  constructor
  · rintro (missing | ⟨-, -, parts, nodup, again⟩)
    · exact absurd missing (not_or.2 ⟨name_ne, returns_ne⟩)
    · exact ⟨_, firstRepeat?_nil_eq_some_iff.2 ⟨_, _, parts, nodup, again⟩, rfl⟩
  · rintro ⟨parameter, found, rfl⟩
    obtain ⟨before, after, parts, nodup, again⟩ := firstRepeat?_nil_eq_some_iff.1 found
    exact .repeated name_ne returns_ne parts nodup again

namespace MethodDraft

/-- What a method needs: a name, a return type, and a name of its own for each parameter. -/
structure Complete (m : MethodDraft) : Prop where
  name_ne : m.name ≠ ""
  returns_ne : m.returns ≠ ""
  parameters_nodup : (m.parameters.map Prod.snd).Nodup

theorem lines_ok_iff {m : MethodDraft} : (∃ lines, m.lines = .ok lines) ↔ m.Complete := by
  unfold lines
  by_cases incomplete : m.name = "" ∨ m.returns = ""
  · rw [if_pos incomplete]
    exact ⟨nofun, fun h => absurd incomplete (not_or.2 ⟨h.name_ne, h.returns_ne⟩)⟩
  · rw [if_neg incomplete]
    obtain ⟨name_ne, returns_ne⟩ := not_or.1 incomplete
    cases found : firstRepeat? [] (m.parameters.map Prod.snd) with
    | some name =>
      refine ⟨nofun, fun h => ?_⟩
      rw [firstRepeat?_eq_none_iff.2 ⟨h.parameters_nodup, fun _ _ => List.not_mem_nil⟩] at found
      cases found
    | none => exact ⟨fun _ => ⟨name_ne, returns_ne, (firstRepeat?_eq_none_iff.1 found).1⟩, fun _ => ⟨_, rfl⟩⟩

theorem lines_of_complete {m : MethodDraft} (complete : m.Complete) :
    m.lines = .ok (m.attributes ++ [m.signature, "\x7b"] ++ m.body.map ("    " ++ ·) ++ ["\x7d"]) := by
  have named : ¬ (m.name = "" ∨ m.returns = "") := not_or.2 ⟨complete.name_ne, complete.returns_ne⟩
  rw [lines, if_neg named, firstRepeat?_eq_none_iff.2 ⟨complete.parameters_nodup, fun _ _ => List.not_mem_nil⟩]

theorem lines_eq_error_iff {m : MethodDraft} {e : GenerationError} :
    m.lines = .error e ↔ MethodFault m.name m.returns (m.parameters.map Prod.snd) e := by
  unfold lines
  by_cases incomplete : m.name = "" ∨ m.returns = ""
  · rw [if_pos incomplete]
    constructor
    · intro failed
      cases failed
      exact .incomplete incomplete
    · rintro (_ | ⟨name_ne, returns_ne⟩)
      · rfl
      · exact absurd incomplete (not_or.2 ⟨name_ne, returns_ne⟩)
  · rw [if_neg incomplete, methodFault_iff_of_ne (not_or.1 incomplete).1 (not_or.1 incomplete).2]
    cases firstRepeat? [] (m.parameters.map Prod.snd) with
    | some parameter =>
      constructor
      · intro failed
        cases failed
        exact ⟨parameter, rfl, rfl⟩
      · rintro ⟨other, same, rfl⟩
        cases same
        rfl
    | none => exact ⟨nofun, nofun⟩

/-- With a name for each, only the return type can be missing. -/
theorem lines_eq_error {m : MethodDraft} {e : GenerationError} (name_ne : m.name ≠ "")
    (nodup : (m.parameters.map Prod.snd).Nodup) (h : m.lines = .error e) :
    m.returns = "" ∧ e = .incompleteMethod m.name := by
  cases lines_eq_error_iff.1 h with
  | incomplete missing => exact ⟨missing.resolve_left name_ne, rfl⟩
  | repeated _ _ parts _ again =>
    rw [parts, List.nodup_append] at nodup
    exact absurd rfl (nodup.2.2 _ again _ List.mem_cons_self)

end MethodDraft

theorem PropertyDraft.lines_ok_iff {p : PropertyDraft} : (∃ lines, p.lines = .ok lines) ↔ p.name ≠ "" := by
  unfold lines
  split
  · next name_eq => exact ⟨nofun, fun name_ne => absurd name_eq name_ne⟩
  · next name_ne => exact ⟨fun _ => name_ne, fun _ => ⟨_, rfl⟩⟩

theorem PropertyDraft.lines_eq_error_iff {p : PropertyDraft} {e : GenerationError} :
    p.lines = .error e ↔ p.name = "" ∧ e = .noPropertyName := by
  unfold lines
  split
  · next name_eq =>
    constructor
    · intro failed
      cases failed
      exact ⟨name_eq, rfl⟩
    · rintro ⟨-, rfl⟩
      rfl
  · next name_ne => exact ⟨nofun, fun fault => absurd fault.1 name_ne⟩

/-! ## Files -/

namespace FileDraft

theorem build_of_ns_eq {f : FileDraft} (c : ClassDraft) (h : f.ns = "") : f.build c = .error .noNamespace := by
  unfold build
  rw [if_pos h]
  rfl

theorem build_of_name_eq {f : FileDraft} {c : ClassDraft} (ns_ne : f.ns ≠ "") (h : c.name = "") :
    f.build c = .error .noClassName := by
  unfold build ClassDraft.declarationLine
  rw [if_neg ns_ne, if_pos h]
  rfl

/-- With a namespace and a name for the class, the members decide. -/
theorem build_of_ne {f : FileDraft} {c : ClassDraft} (ns_ne : f.ns ≠ "") (name_ne : c.name ≠ "") :
    ∃ declaration, f.build c = (c.members.mapM MemberDraft.lines).map fun members =>
      { banner := f.banner, imports := f.importSet, ns := f.ns, classAttributes := c.attributes, declaration,
        members } := by
  obtain ⟨declaration, declared⟩ : ∃ declaration, c.declarationLine = .ok declaration := ⟨_, if_neg name_ne⟩
  refine ⟨declaration, ?_⟩
  unfold build
  rw [if_neg ns_ne, declared]
  cases c.members.mapM MemberDraft.lines <;> rfl

/-- A file needs a namespace, the name of its class, and members that can be written. -/
theorem build_ok_iff {f : FileDraft} {c : ClassDraft} :
    (∃ model, f.build c = .ok model) ↔
      f.ns ≠ "" ∧ c.name ≠ "" ∧ ∀ member ∈ c.members, ∃ lines, member.lines = .ok lines := by
  by_cases ns_eq : f.ns = ""
  · rw [build_of_ns_eq c ns_eq]
    exact ⟨nofun, fun h => absurd ns_eq h.1⟩
  by_cases name_eq : c.name = ""
  · rw [build_of_name_eq ns_eq name_eq]
    exact ⟨nofun, fun h => absurd name_eq h.2.1⟩
  obtain ⟨declaration, e⟩ := build_of_ne ns_eq name_eq
  rw [e, ← mapM_ok_iff]
  cases c.members.mapM MemberDraft.lines with
  | error e => exact ⟨nofun, nofun⟩
  | ok members => exact ⟨fun _ => ⟨ns_eq, name_eq, members, rfl⟩, fun _ => ⟨_, rfl⟩⟩

/-- The first thing that is wrong with a file: its namespace, the name of its class, or one of the members. -/
theorem build_eq_error_iff {f : FileDraft} {c : ClassDraft} {e : GenerationError} :
    f.build c = .error e ↔
      f.ns = "" ∧ e = .noNamespace ∨
        f.ns ≠ "" ∧ (c.name = "" ∧ e = .noClassName ∨
          c.name ≠ "" ∧ c.members.mapM MemberDraft.lines = .error e) := by
  by_cases ns_eq : f.ns = ""
  · simpa [build_of_ns_eq c ns_eq, ns_eq] using eq_comm
  by_cases name_eq : c.name = ""
  · simpa [build_of_name_eq ns_eq name_eq, ns_eq, name_eq] using eq_comm
  obtain ⟨declaration, built⟩ := build_of_ne ns_eq name_eq
  rw [built]
  cases c.members.mapM MemberDraft.lines <;> simp [Except.map, ns_eq, name_eq]

/-- What is wrong with a file that has a namespace: the name of its class is missing, or a member is at fault. -/
theorem build_eq_error {f : FileDraft} {c : ClassDraft} {e : GenerationError} (ns_ne : f.ns ≠ "")
    (h : f.build c = .error e) : c.name = "" ∧ e = .noClassName ∨ ∃ member ∈ c.members, member.lines = .error e := by
  obtain ⟨ns_eq, -⟩ | ⟨-, noName | ⟨-, failed⟩⟩ := build_eq_error_iff.1 h
  · exact absurd ns_eq ns_ne
  · exact .inl noName
  · exact .inr (mapM_eq_error failed)

/-- What a file that was built takes from its class and from its draft. -/
theorem of_build_eq_ok {f : FileDraft} {c : ClassDraft} {model : FileModel} (built : f.build c = .ok model) :
    c.members.mapM MemberDraft.lines = .ok model.members ∧ model.imports = f.importSet := by
  obtain ⟨ns_ne, name_ne, -⟩ := build_ok_iff.1 ⟨model, built⟩
  obtain ⟨declaration, e⟩ := build_of_ne ns_ne name_ne
  rw [built] at e
  cases texts : c.members.mapM MemberDraft.lines with
  | error e' => rw [texts] at e; cases e
  | ok members => rw [texts] at e; cases e; exact ⟨rfl, rfl⟩

/-- A file that was built has the texts of all members of its class. -/
theorem mapM_lines_of_build {f : FileDraft} {c : ClassDraft} {model : FileModel} (built : f.build c = .ok model) :
    c.members.mapM MemberDraft.lines = .ok model.members :=
  (of_build_eq_ok built).1

/-- A file that was built imports what its draft does. -/
theorem imports_of_build {f : FileDraft} {c : ClassDraft} {model : FileModel} (built : f.build c = .ok model) :
    model.imports = f.importSet :=
  (of_build_eq_ok built).2

theorem mem_importSet {f : FileDraft} {ns : String} : ns ∈ f.importSet ↔ ns ∈ f.imports ∧ ns ≠ "" ∧ ns ≠ f.ns := by
  rw [importSet, NameSet.mem_ofList, List.mem_filter, Bool.and_eq_true, decide_eq_true_eq, decide_eq_true_eq]

/-- Drafts in one namespace that import the same become files that are alike but for the banner. -/
theorem build_eq_map_of_importSet_eq {f f' : FileDraft} (c : ClassDraft) (ns : f'.ns = f.ns)
    (imports : f'.importSet = f.importSet) :
    f'.build c = (f.build c).map fun model => { model with banner := f'.banner } := by
  unfold build
  rw [ns, imports]
  split
  · rfl
  · cases c.declarationLine with
    | error e => rfl
    | ok declaration => cases c.members.mapM MemberDraft.lines <;> rfl

end FileDraft

end TypedWrappers

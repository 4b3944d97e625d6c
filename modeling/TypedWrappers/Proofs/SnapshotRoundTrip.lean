import Mathlib.Logic.Relation
import TypedWrappers.Compilation.Snapshot

/-!
# Snapshots in other words

A snapshot may list the members of an object in another order, have members that mean nothing, and leave out what has
its default. All of these are read alike, and so a compilation is read back from whatever its snapshot is rewritten to.

- `Json.Shape`: which objects in a value are records, and what their fields have as defaults;
- `Json.Rewrites`: one change of these kinds, at any depth;
- `Json.Respects`: reading does not see such a change; `Json.record?_of_rewrites`, `Json.Respects.list`,
  `Json.FieldRewritten.required`, `Json.FieldRewritten.optional`: what the readers of records are made of;
- `Compilation.ofJson?_of_rewrites`: a compilation is read from its snapshot, rewritten any number of times.
-/

namespace TypedWrappers

namespace Json

/-! ## Changes that mean nothing -/

/-- Where there are records in a JSON value. -/
inductive Shape
  /-- No records. -/
  | leaf
  /-- An array of items of one shape. -/
  | list (item : Shape)
  /-- A record: each field by its name, with its default if it may be left out, and its shape. -/
  | record (fields : List (String × Option Json × Shape))

/-- One change to a value of a shape that keeps its meaning. -/
inductive Rewrites : Shape → Json → Json → Prop
  /-- The members of a record are reordered. -/
  | reorder {fields : List (String × Option Json × Shape)} {members members' : List (String × Json)} :
      members.Perm members' → Rewrites (.record fields) (object members) (object members')
  /-- A record gets a member that is no field of it. -/
  | add {fields : List (String × Option Json × Shape)} {key : String} (value : Json)
      (before after : List (String × Json)) : fields.lookup key = none →
      Rewrites (.record fields) (object (before ++ after)) (object (before ++ (key, value) :: after))
  /-- A record loses a field that has its default. -/
  | drop {fields : List (String × Option Json × Shape)} {key : String} {default : Json} {shape : Shape}
      (before after : List (String × Json)) : fields.lookup key = some (some default, shape) →
      Rewrites (.record fields) (object (before ++ (key, default) :: after)) (object (before ++ after))
  /-- A field of a record changes. -/
  | field {fields : List (String × Option Json × Shape)} {key : String} {default : Option Json} {shape : Shape}
      {value value' : Json} (before after : List (String × Json)) : fields.lookup key = some (default, shape) →
      Rewrites shape value value' →
      Rewrites (.record fields) (object (before ++ (key, value) :: after)) (object (before ++ (key, value') :: after))
  /-- An item of an array changes. -/
  | item {shape : Shape} {value value' : Json} (before after : List Json) : Rewrites shape value value' →
      Rewrites (.list shape) (array (before ++ value :: after)) (array (before ++ value' :: after))

/-- What one change does to a field of a record. -/
inductive FieldRewritten : Option Json → Shape → Option Json → Option Json → Prop
  | same {default : Option Json} {shape : Shape} {value : Option Json} : FieldRewritten default shape value value
  | inside {default : Option Json} {shape : Shape} {value value' : Json} : Rewrites shape value value' →
      FieldRewritten default shape (some value) (some value')
  | dropped {default : Json} {shape : Shape} : FieldRewritten (some default) shape (some default) none

/-! ## The members under a key -/

theorem under_append (key : String) (members members' : List (String × Json)) :
    under key (members ++ members') = under key members ++ under key members' :=
  List.filterMap_append

theorem under_cons_self (key : String) (value : Json) (members : List (String × Json)) :
    under key ((key, value) :: members) = value :: under key members := by
  simp [under]

theorem under_cons_of_ne {key other : String} (ne : other ≠ key) (value : Json) (members : List (String × Json)) :
    under key ((other, value) :: members) = under key members := by
  simp [under, ne]

/-- Lists of at most one item have no order. -/
theorem eq_of_perm_of_length_le_one {α : Type} {l l' : List α} (p : l.Perm l') (short : l.length ≤ 1) : l = l' := by
  match l, short with
  | [], _ => exact p.nil_eq
  | [a], _ => exact (List.perm_singleton.1 p.symm).symm

/-- A key that is given once is given nowhere else. -/
theorem under_eq_nil_of_once {key : String} {value : Json} {before after : List (String × Json)}
    (once : (under key (before ++ (key, value) :: after)).length ≤ 1) :
    under key before = [] ∧ under key after = [] := by
  rw [under_append, under_cons_self, List.length_append, List.length_cons] at once
  exact ⟨List.eq_nil_of_length_eq_zero (by omega), List.eq_nil_of_length_eq_zero (by omega)⟩

/-- A change to a record leaves each field given at most once, and does no more to it than `FieldRewritten` says. -/
theorem under_of_rewrites {fields : List (String × Option Json × Shape)} {members members' : List (String × Json)}
    (step : Rewrites (.record fields) (object members) (object members')) {key : String} {default : Option Json}
    {shape : Shape} (isField : fields.lookup key = some (default, shape)) (once : (under key members).length ≤ 1) :
    (under key members').length ≤ 1 ∧
      FieldRewritten default shape (under key members).head? (under key members').head? := by
  cases step with
  | reorder p =>
    have same : under key members = under key members' := eq_of_perm_of_length_le_one (p.filterMap _) once
    exact ⟨same ▸ once, same ▸ .same⟩
  | @add _ other value before after unknown =>
    have ne : other ≠ key := by
      rintro rfl
      rw [isField] at unknown
      cases unknown
    rw [under_append, under_append, under_cons_of_ne ne, ← under_append]
    exact ⟨once, .same⟩
  | @drop _ other value inner before after isOther =>
    by_cases e : other = key
    · subst e
      obtain ⟨rfl, rfl⟩ := Prod.mk.inj (Option.some.inj (isOther.symm.trans isField))
      obtain ⟨noneBefore, noneAfter⟩ := under_eq_nil_of_once once
      rw [under_append, under_append, under_cons_self, noneBefore, noneAfter]
      exact ⟨Nat.zero_le 1, .dropped⟩
    · rw [under_append, under_cons_of_ne e, ← under_append] at once
      rw [under_append key before ((other, value) :: after), under_cons_of_ne e, ← under_append]
      exact ⟨once, .same⟩
  | @field _ other _ inner value value' before after isOther change =>
    by_cases e : other = key
    · subst e
      obtain ⟨rfl, rfl⟩ := Prod.mk.inj (Option.some.inj (isOther.symm.trans isField))
      obtain ⟨noneBefore, noneAfter⟩ := under_eq_nil_of_once once
      rw [under_append, under_append, under_cons_self, under_cons_self, noneBefore, noneAfter]
      exact ⟨Nat.le_refl 1, .inside change⟩
    · rw [under_append, under_cons_of_ne e] at once
      rw [under_append, under_append, under_cons_of_ne e, under_cons_of_ne e]
      exact ⟨once, .same⟩

/-! ## What reading does not see -/

theorem record?_object_eq_some_iff {names : List String} {members : List (String × Json)}
    {field : String → Option Json} :
    record? names (object members) = some field ↔
      (∀ name ∈ names, (under name members).length ≤ 1) ∧ field = fun name => (under name members).head? := by
  have all : (names.all fun name => (under name members).length ≤ 1) = true ↔
      ∀ name ∈ names, (under name members).length ≤ 1 := by
    rw [List.all_eq_true]
    exact forall₂_congr fun _ _ => decide_eq_true_iff
  rw [record?, ← all]
  split
  · next once => rw [and_iff_right once, Option.some.injEq, eq_comm]
  · next several => exact iff_of_false nofun fun h => several h.1

theorem exists_lookup_of_mem {fields : List (String × Option Json × Shape)} {name : String}
    (h : name ∈ fields.map Prod.fst) : ∃ default shape, fields.lookup name = some (default, shape) := by
  induction fields with
  | nil => cases h
  | cons entry rest ih =>
    obtain ⟨key, default, shape⟩ := entry
    by_cases e : name = key
    · exact ⟨default, shape, by rw [List.lookup_cons, e, beq_self_eq_true]⟩
    · obtain ⟨default, shape, found⟩ := ih ((List.mem_cons.1 h).resolve_left e)
      exact ⟨default, shape, by rw [List.lookup_cons, beq_eq_false_iff_ne.2 e, found]⟩

/-- Records are changed as objects. -/
theorem Rewrites.exists_object {fields : List (String × Option Json × Shape)} {value value' : Json}
    (step : Rewrites (.record fields) value value') :
    ∃ members members', value = object members ∧ value' = object members' := by
  cases step with
  | reorder _ => exact ⟨_, _, rfl, rfl⟩
  | add _ _ _ _ => exact ⟨_, _, rfl, rfl⟩
  | drop _ _ _ => exact ⟨_, _, rfl, rfl⟩
  | field _ _ _ _ => exact ⟨_, _, rfl, rfl⟩

/-- A record is read from a changed value as well, with each of its fields changed at most as `FieldRewritten` says. -/
theorem record?_of_rewrites {fields : List (String × Option Json × Shape)} {value value' : Json}
    {field : String → Option Json} (step : Rewrites (.record fields) value value')
    (read : record? (fields.map Prod.fst) value = some field) :
    ∃ field', record? (fields.map Prod.fst) value' = some field' ∧
      ∀ key default shape, fields.lookup key = some (default, shape) →
        FieldRewritten default shape (field key) (field' key) := by
  obtain ⟨members, members', rfl, rfl⟩ := step.exists_object
  obtain ⟨once, rfl⟩ := record?_object_eq_some_iff.1 read
  have onceOf {key : String} {default : Option Json} {shape : Shape}
      (isField : fields.lookup key = some (default, shape)) : (under key members).length ≤ 1 := by
    obtain ⟨before, after, split, -⟩ := List.lookup_eq_some_iff.1 isField
    exact once key (by rw [split]; simp)
  refine ⟨fun name => (under name members').head?, record?_object_eq_some_iff.2 ⟨fun name mem => ?_, rfl⟩,
    fun key default shape isField => (under_of_rewrites step isField (onceOf isField)).2⟩
  obtain ⟨default, shape, isField⟩ := exists_lookup_of_mem mem
  exact (under_of_rewrites step isField (onceOf isField)).1

/-- Reading does not see the changes to values of a shape. -/
def Respects {α : Type} (shape : Shape) (read : Json → Option α) : Prop :=
  ∀ value value', Rewrites shape value value' → ∀ x, read value = some x → read value' = some x

theorem Respects.leaf {α : Type} (read : Json → Option α) : Respects .leaf read :=
  nofun

theorem Respects.list {α : Type} {shape : Shape} {read : Json → Option α} (h : Respects shape read) :
    Respects (.list shape) (list? read) := by
  rintro _ _ (_ | _ | _ | _ | ⟨before, after, change⟩) xs isRead
  simp only [list?, List.mapM_append, List.mapM_cons, Option.bind_eq_bind, Option.bind_eq_some_iff] at isRead ⊢
  obtain ⟨first, readBefore, rest, ⟨x, readItem, last, readAfter, e⟩, e'⟩ := isRead
  exact ⟨first, readBefore, rest, ⟨x, h _ _ change x readItem, last, readAfter, e⟩, e'⟩

section Fields

variable {α : Type} {shape : Shape} {read : Json → Option α} (h : Respects shape read)
  {before after : Option Json} {x : α}

include h

theorem FieldRewritten.required (change : FieldRewritten none shape before after)
    (isRead : format.required read before = some x) : format.required read after = some x := by
  cases change with
  | same => exact isRead
  | inside change => exact h _ _ change x isRead

/-- A field that may be left out has its default there if it is left out. -/
theorem FieldRewritten.optional {default : Json} {value : α} (isDefault : read default = some value)
    (change : FieldRewritten (some default) shape before after)
    (isRead : RecordFormat.optional value read before = some x) : RecordFormat.optional value read after = some x := by
  cases change with
  | same => exact isRead
  | inside change => exact h _ _ change x isRead
  | dropped => exact isDefault.symm.trans isRead

end Fields

end Json

/-! ## Lists that are read back -/

theorem Json.list?_array_map {α : Type} {read : Json → Option α} {write : α → Json}
    (readBack : ∀ x, read (write x) = some x) (xs : List α) : Json.list? read (.array (xs.map write)) = some xs := by
  induction xs with
  | nil => rfl
  | cons x xs ih =>
    rw [Json.list?] at ih ⊢
    rw [List.map_cons, List.mapM_cons, readBack, ih]
    rfl

theorem Json.list?_ofStrings (items : List String) : list? string? (ofStrings items) = some items := by
  have readBack : ∀ text, string? (string text) = some text := fun _ => rfl
  exact list?_array_map readBack items

/-! ## Parameters -/

/-- A parameter, of which nothing may be left out. -/
def ParameterDecl.shape : Json.Shape :=
  .record [("name", none, .leaf), ("type", none, .leaf)]

namespace ParameterDecl

theorem read_eq_some_iff {value : Json} {p : ParameterDecl} :
    read Json.format value = some p ↔
      ∃ field, Json.record? ["name", "type"] value = some field ∧
        Json.format.required Json.string? (field "name") = some p.name ∧
        Json.format.required Json.string? (field "type") = some p.type := by
  simp only [read, Option.bind_eq_bind, Option.bind_eq_some_iff, Option.pure_def, Option.some.injEq]
  constructor
  · rintro ⟨field, fields, name, hn, type, ht, rfl⟩
    exact ⟨field, fields, hn, ht⟩
  · rintro ⟨field, fields, hn, ht⟩
    exact ⟨field, fields, p.name, hn, p.type, ht, rfl⟩

theorem read_toJson (p : ParameterDecl) : read Json.format p.toJson = some p :=
  read_eq_some_iff.2 ⟨_, rfl, rfl, rfl⟩

theorem respects_read : Json.Respects shape (read Json.format) := by
  intro value value' step p isRead
  obtain ⟨field, fields, name, type⟩ := read_eq_some_iff.1 isRead
  obtain ⟨field', fields', change⟩ := Json.record?_of_rewrites step fields
  exact read_eq_some_iff.2 ⟨field', fields', (change "name" _ _ rfl).required (.leaf _) name,
    (change "type" _ _ rfl).required (.leaf _) type⟩

end ParameterDecl

/-! ## Members -/

/-- A member: a method without attributes, parameters or result that is not static, unless it says otherwise. -/
def MemberDecl.shape : Json.Shape :=
  .record [("name", none, .leaf), ("kind", some (.string "method"), .leaf), ("static", some (.bool false), .leaf),
    ("attributes", some (.array []), .list .leaf), ("returns", some (.string "void"), .leaf),
    ("parameters", some (.array []), .list ParameterDecl.shape)]

theorem MemberKind.named?_name (kind : MemberKind) : named? kind.name = some kind := by
  cases kind <;> decide

namespace MemberDecl

theorem read_eq_some_iff {value : Json} {d : MemberDecl} :
    read Json.format value = some d ↔
      ∃ field, Json.record? ["name", "kind", "static", "attributes", "returns", "parameters"] value = some field ∧
        Json.format.required Json.string? (field "name") = some d.name ∧
        RecordFormat.optional .method (Json.choice? MemberKind.named?) (field "kind") = some d.kind ∧
        RecordFormat.optional false Json.bool? (field "static") = some d.isStatic ∧
        RecordFormat.optional [] (Json.list? Json.string?) (field "attributes") = some d.attributes ∧
        RecordFormat.optional "void" Json.string? (field "returns") = some d.returns ∧
        RecordFormat.optional [] (Json.list? (ParameterDecl.read Json.format)) (field "parameters") =
          some d.parameters := by
  simp only [read, Option.bind_eq_bind, Option.bind_eq_some_iff, Option.pure_def, Option.some.injEq]
  constructor
  · rintro ⟨field, fields, name, hn, kind, hk, isStatic, hs, attributes, ha, returns, hr, parameters, hp, rfl⟩
    exact ⟨field, fields, hn, hk, hs, ha, hr, hp⟩
  · rintro ⟨field, fields, hn, hk, hs, ha, hr, hp⟩
    exact ⟨field, fields, d.name, hn, d.kind, hk, d.isStatic, hs, d.attributes, ha, d.returns, hr, d.parameters, hp,
      rfl⟩

theorem read_toJson (d : MemberDecl) : read Json.format d.toJson = some d :=
  read_eq_some_iff.2 ⟨_, rfl, rfl, d.kind.named?_name, rfl, Json.list?_ofStrings d.attributes, rfl,
    Json.list?_array_map ParameterDecl.read_toJson d.parameters⟩

theorem respects_read : Json.Respects shape (read Json.format) := by
  intro value value' step d isRead
  obtain ⟨field, fields, name, kind, isStatic, attributes, returns, parameters⟩ := read_eq_some_iff.1 isRead
  obtain ⟨field', fields', change⟩ := Json.record?_of_rewrites step fields
  exact read_eq_some_iff.2 ⟨field', fields', (change "name" _ _ rfl).required (.leaf _) name,
    (change "kind" _ _ rfl).optional (.leaf _) (by decide) kind,
    (change "static" _ _ rfl).optional (.leaf _) rfl isStatic,
    (change "attributes" _ _ rfl).optional (Json.Respects.leaf _).list rfl attributes,
    (change "returns" _ _ rfl).optional (.leaf _) rfl returns,
    (change "parameters" _ _ rfl).optional ParameterDecl.respects_read.list rfl parameters⟩

end MemberDecl

/-! ## Types -/

/-- A type: a class without attributes, base types or members that is not static, unless it says otherwise. -/
def TypeDecl.shape : Json.Shape :=
  .record [("name", none, .leaf), ("kind", some (.string "class"), .leaf), ("static", some (.bool false), .leaf),
    ("attributes", some (.array []), .list .leaf), ("base_types", some (.array []), .list .leaf),
    ("members", some (.array []), .list MemberDecl.shape)]

theorem TypeKind.named?_name (kind : TypeKind) : named? kind.name = some kind := by
  cases kind <;> decide

namespace TypeDecl

theorem read_eq_some_iff {value : Json} {d : TypeDecl} :
    read Json.format value = some d ↔
      ∃ field, Json.record? ["name", "kind", "static", "attributes", "base_types", "members"] value = some field ∧
        Json.format.required Json.string? (field "name") = some d.name ∧
        RecordFormat.optional .classType (Json.choice? TypeKind.named?) (field "kind") = some d.kind ∧
        RecordFormat.optional false Json.bool? (field "static") = some d.isStatic ∧
        RecordFormat.optional [] (Json.list? Json.string?) (field "attributes") = some d.attributes ∧
        RecordFormat.optional [] (Json.list? Json.string?) (field "base_types") = some d.baseTypes ∧
        RecordFormat.optional [] (Json.list? (MemberDecl.read Json.format)) (field "members") = some d.members := by
  simp only [read, Option.bind_eq_bind, Option.bind_eq_some_iff, Option.pure_def, Option.some.injEq]
  constructor
  · rintro ⟨field, fields, name, hn, kind, hk, isStatic, hs, attributes, ha, baseTypes, hb, members, hm, rfl⟩
    exact ⟨field, fields, hn, hk, hs, ha, hb, hm⟩
  · rintro ⟨field, fields, hn, hk, hs, ha, hb, hm⟩
    exact ⟨field, fields, d.name, hn, d.kind, hk, d.isStatic, hs, d.attributes, ha, d.baseTypes, hb, d.members, hm, rfl⟩

theorem read_toJson (d : TypeDecl) : read Json.format d.toJson = some d :=
  read_eq_some_iff.2 ⟨_, rfl, rfl, d.kind.named?_name, rfl, Json.list?_ofStrings d.attributes,
    Json.list?_ofStrings d.baseTypes, Json.list?_array_map MemberDecl.read_toJson d.members⟩

theorem respects_read : Json.Respects shape (read Json.format) := by
  intro value value' step d isRead
  obtain ⟨field, fields, name, kind, isStatic, attributes, baseTypes, members⟩ := read_eq_some_iff.1 isRead
  obtain ⟨field', fields', change⟩ := Json.record?_of_rewrites step fields
  exact read_eq_some_iff.2 ⟨field', fields', (change "name" _ _ rfl).required (.leaf _) name,
    (change "kind" _ _ rfl).optional (.leaf _) (by decide) kind,
    (change "static" _ _ rfl).optional (.leaf _) rfl isStatic,
    (change "attributes" _ _ rfl).optional (Json.Respects.leaf _).list rfl attributes,
    (change "base_types" _ _ rfl).optional (Json.Respects.leaf _).list rfl baseTypes,
    (change "members" _ _ rfl).optional MemberDecl.respects_read.list rfl members⟩

end TypeDecl

/-! ## Files -/

/-- A source file: in the global namespace, without imports or types, unless it says otherwise. -/
def SourceFile.shape : Json.Shape :=
  .record [("path", none, .leaf), ("namespace", some .null, .leaf), ("usings", some (.array []), .list .leaf),
    ("types", some (.array []), .list TypeDecl.shape)]

namespace SourceFile

theorem read_eq_some_iff {value : Json} {f : SourceFile} :
    read Json.format value = some f ↔
      ∃ field, Json.record? ["path", "namespace", "usings", "types"] value = some field ∧
        Json.format.required Json.string? (field "path") = some f.path ∧
        RecordFormat.optional none (Json.nullable? Json.string?) (field "namespace") = some f.ns ∧
        RecordFormat.optional [] (Json.list? Json.string?) (field "usings") = some f.usings ∧
        RecordFormat.optional [] (Json.list? (TypeDecl.read Json.format)) (field "types") = some f.types := by
  simp only [read, Option.bind_eq_bind, Option.bind_eq_some_iff, Option.pure_def, Option.some.injEq]
  constructor
  · rintro ⟨field, fields, path, hp, ns, hn, usings, hu, types, ht, rfl⟩
    exact ⟨field, fields, hp, hn, hu, ht⟩
  · rintro ⟨field, fields, hp, hn, hu, ht⟩
    exact ⟨field, fields, f.path, hp, f.ns, hn, f.usings, hu, f.types, ht, rfl⟩

theorem read_toJson (f : SourceFile) : read Json.format f.toJson = some f := by
  have ns : Json.nullable? Json.string? (.ofOptional f.ns) = some f.ns := by cases f.ns <;> rfl
  exact read_eq_some_iff.2 ⟨_, rfl, rfl, ns, Json.list?_ofStrings f.usings,
    Json.list?_array_map TypeDecl.read_toJson f.types⟩

theorem respects_read : Json.Respects shape (read Json.format) := by
  intro value value' step f isRead
  obtain ⟨field, fields, path, ns, usings, types⟩ := read_eq_some_iff.1 isRead
  obtain ⟨field', fields', change⟩ := Json.record?_of_rewrites step fields
  exact read_eq_some_iff.2 ⟨field', fields', (change "path" _ _ rfl).required (.leaf _) path,
    (change "namespace" _ _ rfl).optional (.leaf _) rfl ns,
    (change "usings" _ _ rfl).optional (Json.Respects.leaf _).list rfl usings,
    (change "types" _ _ rfl).optional TypeDecl.respects_read.list rfl types⟩

end SourceFile

/-! ## Compilations -/

/-- A compilation: without a name, references or files, unless it says otherwise. -/
def Compilation.shape : Json.Shape :=
  .record [("name", some (.string ""), .leaf), ("references", some (.array []), .list .leaf),
    ("files", some (.array []), .list SourceFile.shape)]

namespace Compilation

theorem read_eq_some_iff {value : Json} {c : Compilation} :
    read Json.format value = some c ↔
      ∃ field, Json.record? ["name", "references", "files"] value = some field ∧
        RecordFormat.optional "" Json.string? (field "name") = some c.name ∧
        RecordFormat.optional [] (Json.list? Json.string?) (field "references") = some c.references ∧
        RecordFormat.optional [] (Json.list? (SourceFile.read Json.format)) (field "files") = some c.files := by
  simp only [read, Option.bind_eq_bind, Option.bind_eq_some_iff, Option.pure_def, Option.some.injEq]
  constructor
  · rintro ⟨field, fields, name, hn, references, hr, files, hf, rfl⟩
    exact ⟨field, fields, hn, hr, hf⟩
  · rintro ⟨field, fields, hn, hr, hf⟩
    exact ⟨field, fields, c.name, hn, c.references, hr, c.files, hf, rfl⟩

theorem read_toJson (c : Compilation) : read Json.format c.toJson = some c :=
  read_eq_some_iff.2 ⟨_, rfl, rfl, Json.list?_ofStrings c.references,
    Json.list?_array_map SourceFile.read_toJson c.files⟩

/-- One change to a snapshot is not seen. -/
theorem respects_read : Json.Respects shape (read Json.format) := by
  intro value value' step c isRead
  obtain ⟨field, fields, name, references, files⟩ := read_eq_some_iff.1 isRead
  obtain ⟨field', fields', change⟩ := Json.record?_of_rewrites step fields
  exact read_eq_some_iff.2 ⟨field', fields', (change "name" _ _ rfl).optional (.leaf _) rfl name,
    (change "references" _ _ rfl).optional (Json.Respects.leaf _).list rfl references,
    (change "files" _ _ rfl).optional SourceFile.respects_read.list rfl files⟩

/-- **Snapshots are read back**: a compilation is read from its own snapshot and from whatever that is rewritten to by
reordering members, adding members that are no fields and leaving out fields that have their defaults, anywhere and any
number of times. -/
theorem ofJson?_of_rewrites (c : Compilation) :
    ofJson? c.toJson = some c ∧
      ∀ value, Relation.ReflTransGen (Json.Rewrites shape) c.toJson value → ofJson? value = some c := by
  refine ⟨c.read_toJson, fun value rewritten => ?_⟩
  induction rewritten with
  | refl => exact c.read_toJson
  | tail _ step ih => exact respects_read _ _ step c ih

end Compilation

/-! ## An example -/

namespace Sample

/-- A class without members in a file of its own. -/
def lone : Compilation :=
  ⟨"", [], [⟨"a", none, [], [⟨"T", .classType, false, [], [], []⟩]⟩]⟩

/-- The class as its snapshot has it, with the kind of the class given first or not at all. -/
def loneClass (kind : List (String × Json)) : Json :=
  .object ([("name", .string "T")] ++ kind ++
    [("static", .bool false), ("attributes", .array []), ("base_types", .array []), ("members", .array [])])

/-- The file of the class, with further members behind its path. -/
def loneFile (further : List (String × Json)) (type : Json) : Json :=
  .object ([("path", .string "a")] ++ further ++
    [("namespace", .null), ("usings", .array []), ("types", .array [type])])

/-- The snapshot with its members in another order, a note in the file and without the kind of the class. -/
def loneRewritten : Json :=
  .object [("files", .array [loneFile [("note", .number "1")] (loneClass [])]), ("name", .string ""),
    ("references", .array [])]

theorem ofJson?_loneRewritten :
    Relation.ReflTransGen (Json.Rewrites Compilation.shape) lone.toJson loneRewritten ∧
      Compilation.ofJson? loneRewritten = some lone := by
  let ends : List (String × Json) := [("name", .string ""), ("references", .array [])]
  let files (file : Json) : List (String × Json) := [("files", .array [file])]
  have inFile {file file' : Json} (step : Json.Rewrites SourceFile.shape file file') :
      Json.Rewrites Compilation.shape (.object (ends ++ files file)) (.object (ends ++ files file')) :=
    .field ends [] rfl (.item [] [] step)
  have dropKind : Json.Rewrites TypeDecl.shape (loneClass [("kind", .string "class")]) (loneClass []) :=
    .drop [("name", .string "T")] _ rfl
  have inClass : Json.Rewrites SourceFile.shape (loneFile [] (loneClass [("kind", .string "class")]))
      (loneFile [] (loneClass [])) :=
    .field [("path", .string "a"), ("namespace", .null), ("usings", .array [])] [] rfl (.item [] [] dropKind)
  have addNote : Json.Rewrites SourceFile.shape (loneFile [] (loneClass []))
      (loneFile [("note", .number "1")] (loneClass [])) :=
    .add (.number "1") [("path", .string "a")] _ rfl
  have filesFirst (file : Json) :
      Json.Rewrites Compilation.shape (.object (ends ++ files file)) (.object (files file ++ ends)) :=
    .reorder List.perm_append_comm
  have rewritten : Relation.ReflTransGen (Json.Rewrites Compilation.shape) lone.toJson loneRewritten :=
    ((Relation.ReflTransGen.single (inFile inClass)).tail (inFile addNote)).tail (filesFirst _)
  exact ⟨rewritten, (Compilation.ofJson?_of_rewrites lone).2 loneRewritten rewritten⟩

end Sample

end TypedWrappers

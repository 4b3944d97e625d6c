import TypedWrappers.Proofs.InitialSettings

/-!
# The name that settings are read with

The settings that a document gives are named by the text of the first value, if its key is that of the name.

- `Yaml.Node.lead?_of_readNode`: a scalar that is read from tokens has the text of the token that leads them, or none;
- `Settings.lead?_of_ofTokens`: so the name is blank or the text of the token that leads the first value;
- `Settings.isPlainLine_of_ofText?`: a new project is loaded with its name only where that is blank or a plain line.
-/

namespace TypedWrappers

namespace Yaml

/-! ## Scalars from tokens -/

namespace Node

variable {handles : List HandleMeaning} {ts rest : List Token} {fuel : Nat}

theorem lead?_of_readProperties {anchor : Option String} {tag : Option Tag} {text : String} {style : Style}
    (read : readProperties handles ts = some (anchor, tag, .scalar text style :: rest)) :
    lead? ts = some (.scalar text style) := by
  unfold readProperties at read
  split at read
  case h_2 | h_5 =>
    cases read
    rfl
  all_goals
    obtain ⟨t, -, e⟩ := Option.map_eq_some_iff.1 read
    cases e
    rfl

/-- The scalar that is read has the text of the scalar that leads, or none. -/
theorem lead?_of_readNode {block indentless : Bool} {anchor : Option String} {tag : Option Tag} {text : String}
    {style : Style} (read : readNode handles fuel block indentless ts = some (.scalar anchor tag text style, rest)) :
    text = "" ∨ lead? ts = some (.scalar text style) := by
  unfold readNode at read
  split at read
  · cases read
  · cases read
  · split at read
    · cases read
    · next properties =>
      split at read
      case h_2 =>
        cases read
        exact .inr (lead?_of_readProperties properties)
      case h_7 =>
        split at read
        · cases read
          exact .inl rfl
        · cases read
      -- a collection is no scalar
      all_goals
        obtain ⟨_, -, e⟩ := Option.map_eq_some_iff.1 read
        cases e

end Node

/-- An unnumbered node that has a text is a scalar: no alias is set in front of it. -/
theorem exists_scalar_of_string {value : Node String} {value' : Node Nat} {names : Node.Numbering} {text : String}
    {document : Document} {budget budget' : Nat} (number : value.number? [] = some (value', names))
    (string : Reading.string value' document budget = some (text, budget')) :
    ∃ anchor tag style, value = .scalar anchor tag text style := by
  cases value with
  | scalar anchor tag text' style =>
    cases number
    cases string
    exact ⟨anchor, tag, style, rfl⟩
  | sequence anchor tag items =>
    obtain ⟨_, -, e⟩ := Option.map_eq_some_iff.1 number
    cases e
    cases string
  | mapping anchor tag pairs =>
    obtain ⟨_, -, e⟩ := Option.map_eq_some_iff.1 number
    cases e
    cases string
  | aliasOf target => cases number

namespace Reading

/-! ## Fields -/

theorem bind_apply {α β : Type} (x : Reading α) (f : α → Reading β) (document : Document) (budget : Nat) :
    (x >>= f) document budget = (x document budget).bind fun (a, budget) => f a document budget :=
  rfl

variable {document : Document} {budget budget' : Nat}

/-- Of the fields of a mapping the one with the name of the first key is the first value. -/
theorem field_of_record {fields : List String} {anchor a : Option Nat} {tag t : Option Tag} {style : Style}
    {key : String} {value : Node Nat} {pairs : List (Node Nat × Node Nat)} {field : String → Option (Node Nat)}
    (read : record fields (.mapping anchor tag ((.scalar a t key style, value) :: pairs)) document budget =
      some (field, budget')) : field key = some value := by
  rw [record, bind_apply, Option.bind_eq_some_iff] at read
  obtain ⟨⟨node, b⟩, follow, read⟩ := read
  cases follow
  simp only [bind_apply, Option.bind_eq_some_iff, Prod.exists] at read
  obtain ⟨named, b, keys, read⟩ := read
  simp only [List.mapM_cons, bind_apply, Option.bind_eq_some_iff, Prod.exists] at keys
  obtain ⟨_, _, _, ⟨_, _, string, first⟩, _, _, -, all⟩ := keys
  cases string
  cases first
  cases all
  split at read
  · cases read
    simp [under]
  · cases read

end Reading

end Yaml

namespace Settings

open Yaml

/-- The name is the text of the first value, if its key says so. -/
theorem string_of_read {anchor a : Option Nat} {tag t : Option Tag} {style : Style} {value : Node Nat}
    {pairs : List (Node Nat × Node Nat)} {settings : Settings} {document : Document} {budget budget' : Nat}
    (read : Settings.read Yaml.format (.mapping anchor tag ((.scalar a t "name" style, value) :: pairs)) document
      budget = some (settings, budget')) : ∃ b b', Reading.string value document b = some (settings.name, b') := by
  simp only [Settings.read, Reading.bind_apply, Option.bind_eq_some_iff, Prod.exists] at read
  obtain ⟨field, b₁, record, name, b₂, string, _, _, -, _, _, -, e⟩ := read
  cases e
  rw [Reading.field_of_record record] at string
  exact ⟨b₁, b₂, string⟩

/-! ## From tokens -/

variable {u : List Token}

/-- A document with these tokens in front is a mapping, the name its first key. -/
theorem exists_value_of_ofTokens {node : Option (Node String)} (read : Node.ofTokens? (front ++ u) = some node) :
    ∃ value pairs, node = some (Node.mapping none none ((.scalar none none "name" .plain, value) :: pairs)) ∧
      (value = .blank ∨ ∃ fuel rest, Node.readNode [] fuel true true u = some (value, rest)) := by
  obtain ⟨fuel, e⟩ : ∃ fuel, Node.nodeFuel (front ++ u) = fuel + 4 :=
    ⟨3 * u.length + 11, by simp [Node.nodeFuel, front]; omega⟩
  have document : Node.readDocument (front ++ u) = Node.readNode [] (fuel + 4) true false (front ++ u) := by
    rw [← e]
    rfl
  have mapping : Node.readNode [] (fuel + 4) true false (front ++ u) =
      (Node.readBlockPairs [] (fuel + 3) (.key :: .scalar "name" .plain :: .value :: u)).map
        fun p => (.mapping none none p.1, p.2) := by
    rfl
  have key : Node.readUnless [] (fuel + 2) Node.endsBlockPart true true (.scalar "name" .plain :: .value :: u) =
      some (.scalar none none "name" .plain, .value :: u) := by
    rfl
  rw [Node.ofTokens?, document, mapping] at read
  simp only [front, List.cons_append, List.nil_append, reduceCtorEq, if_false] at read
  split at read
  · next node' rest readMapping =>
    obtain ⟨⟨pairs, rest'⟩, readPairs, e⟩ := Option.map_eq_some_iff.1 readMapping
    cases e
    rw [Option.ite_none_right_eq_some] at read
    cases read.2
    simp only [Node.readBlockPairs, key, Option.bind_eq_bind, Option.bind_some, Option.bind_eq_some_iff, Prod.exists,
      Option.some.injEq, Prod.mk.injEq] at readPairs
    obtain ⟨value, ts, readValue, pairs', _, -, rfl, -⟩ := readPairs
    refine ⟨value, pairs', rfl, ?_⟩
    unfold Node.readUnless at readValue
    split at readValue
    · cases readValue
      exact .inl rfl
    · exact .inr ⟨_, _, readValue⟩
  · cases read

/-- The name is blank, or the token says it that leads the first value. -/
theorem lead?_of_ofTokens {node : Option (Node String)} {document : Document} {settings : Settings}
    (tokens : Node.ofTokens? (front ++ u) = some node) (number : Document.ofNode? (node.getD .blank) = some document)
    (read : document.read? (Settings.read Yaml.format) = some settings) :
    settings.name = "" ∨ ∃ style, lead? u = some (.scalar settings.name style) := by
  obtain ⟨value, pairs, rfl, readValue⟩ := exists_value_of_ofTokens tokens
  obtain ⟨⟨root, names⟩, numberRoot, rfl⟩ := Option.map_eq_some_iff.1 number
  obtain ⟨⟨pairs', _⟩, numberPairs, e⟩ := Option.map_eq_some_iff.1 numberRoot
  cases e
  simp only [Node.numberPairs?, Option.bind_eq_bind, Option.bind_eq_some_iff, Prod.exists] at numberPairs
  obtain ⟨_, _, numberKey, value', _, numberValue, _, _, -, e⟩ := numberPairs
  cases numberKey
  cases e
  obtain ⟨⟨_, budget⟩, readRoot, e⟩ := Option.map_eq_some_iff.1 read
  cases e
  obtain ⟨_, _, string⟩ := string_of_read readRoot
  obtain ⟨anchor, tag, style, rfl⟩ := exists_scalar_of_string numberValue string
  cases numberValue
  cases string
  rcases readValue with e | ⟨fuel, rest, readNode⟩
  · exact .inl (Node.scalar.inj e).2.2.1
  · exact (Node.lead?_of_readNode readNode).imp id fun lead => ⟨style, lead⟩

/-- A new project is loaded with its own name only where that is blank or a plain line. -/
theorem isPlainLine_of_ofText? {name : String} {settings : Settings} (read : ofText? (initialText name) = some settings)
    (same : settings.name = name) : name = "" ∨ isPlainLine name.toList = true := by
  subst same
  obtain ⟨document, parse, read⟩ := Option.bind_eq_some_iff.1 read
  simp only [Document.parse?, Option.bind_eq_bind, Option.bind_eq_some_iff] at parse
  obtain ⟨ts, scan, node, tokens, number⟩ := parse
  cases line : isPlainLine settings.name.toList with
  | true => exact .inr rfl
  | false =>
    obtain ⟨u, rfl, noLead⟩ := lead?_of_scan? scan line
    exact (lead?_of_ofTokens tokens number read).imp id fun ⟨style, lead⟩ => absurd lead (noLead style)

end Settings

end TypedWrappers

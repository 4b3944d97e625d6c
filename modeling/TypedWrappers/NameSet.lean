/-!
# Sets of names

A finite set of texts, kept as a strictly increasing list, so that equal sets are equal values
(`NameSet.eq_of_mem_iff`) and listing a set needs no sorting. Texts are ordered by code point.

- `insert`, `union`, `ofList`: what they hold is said by `mem_insert`, `mem_union` and `mem_ofList`.
-/

namespace TypedWrappers

/-- A set of texts: its members, strictly increasing. -/
structure NameSet where
  /-- The members in increasing order. -/
  toList : List String
  /-- Each member is below all later ones. -/
  sorted : toList.Pairwise (· < ·)

namespace NameSet

instance : DecidableEq NameSet := fun a b =>
  decidable_of_iff (a.toList = b.toList) <| by cases a; cases b; simp

instance : Membership String NameSet := ⟨fun names name => name ∈ names.toList⟩

instance (name : String) (names : NameSet) : Decidable (name ∈ names) :=
  inferInstanceAs (Decidable (name ∈ names.toList))

/-- No names. -/
def empty : NameSet := ⟨[], .nil⟩

instance : EmptyCollection NameSet := ⟨empty⟩

instance : Inhabited NameSet := ⟨empty⟩

/-- Puts a name in its place in an increasing list; a name that is there is not repeated. -/
def insertSorted (name : String) : List String → List String
  | [] => [name]
  | head :: tail =>
    if name < head then name :: head :: tail
    else if head < name then head :: insertSorted name tail
    else head :: tail

theorem mem_insertSorted {name x : String} {names : List String} :
    x ∈ insertSorted name names ↔ x = name ∨ x ∈ names := by
  induction names with
  | nil => simp [insertSorted]
  | cons head tail ih =>
    rw [insertSorted]
    split
    · simp
    · next above =>
      split
      · simp only [List.mem_cons, ih]
        constructor <;> rintro (h | h | h) <;> simp [h]
      · next below =>
        have e : name = head := String.le_antisymm (String.not_lt.1 below) (String.not_lt.1 above)
        subst e
        simp

theorem sorted_insertSorted {name : String} {names : List String} (h : names.Pairwise (· < ·)) :
    (insertSorted name names).Pairwise (· < ·) := by
  induction names with
  | nil => simp [insertSorted]
  | cons head tail ih =>
    obtain ⟨below, rest⟩ := List.pairwise_cons.1 h
    rw [insertSorted]
    split
    · next lt =>
      refine List.pairwise_cons.2 ⟨fun x hx => ?_, h⟩
      rcases List.mem_cons.1 hx with rfl | hx
      · exact lt
      · exact String.lt_trans lt (below x hx)
    · split
      · next gt =>
        refine List.pairwise_cons.2 ⟨fun x hx => ?_, ih rest⟩
        rcases mem_insertSorted.1 hx with rfl | hx
        · exact gt
        · exact below x hx
      · exact h

/-- The set with one more name. -/
def insert (name : String) (names : NameSet) : NameSet :=
  ⟨insertSorted name names.toList, sorted_insertSorted names.sorted⟩

/-- The set with all names of a list added. -/
def insertAll (added : List String) (names : NameSet) : NameSet :=
  added.foldr insert names

/-- The names of a list, in any order and any number of times. -/
def ofList (names : List String) : NameSet :=
  insertAll names empty

/-- The names of either set. -/
def union (a b : NameSet) : NameSet :=
  insertAll a.toList b

instance : Union NameSet := ⟨union⟩

/-- The names of all sets of a list. -/
def unions (sets : List NameSet) : NameSet :=
  sets.foldr union empty

theorem mem_insert {name x : String} {names : NameSet} : x ∈ insert name names ↔ x = name ∨ x ∈ names :=
  mem_insertSorted

theorem not_mem_empty (x : String) : ¬ x ∈ empty := by
  change ¬ x ∈ ([] : List String)
  simp

theorem mem_insertAll {added : List String} {x : String} {names : NameSet} :
    x ∈ insertAll added names ↔ x ∈ added ∨ x ∈ names := by
  induction added with
  | nil => simp [insertAll]
  | cons head tail ih =>
    rw [insertAll, List.foldr_cons, mem_insert, List.mem_cons, or_assoc]
    exact or_congr Iff.rfl ih

theorem mem_ofList {x : String} {names : List String} : x ∈ ofList names ↔ x ∈ names := by
  simp [ofList, mem_insertAll, not_mem_empty]

theorem mem_union {x : String} {a b : NameSet} : x ∈ union a b ↔ x ∈ a ∨ x ∈ b :=
  mem_insertAll

theorem mem_unions {x : String} {sets : List NameSet} : x ∈ unions sets ↔ ∃ s ∈ sets, x ∈ s := by
  induction sets with
  | nil => simp [unions, not_mem_empty]
  | cons s sets ih =>
    rw [unions, List.foldr_cons, mem_union]
    simp only [List.mem_cons, exists_eq_or_imp]
    exact or_congr Iff.rfl ih

/-- Two increasing lists with the same members are one list. -/
theorem eq_of_sorted_of_mem_iff {a b : List String} (ha : a.Pairwise (· < ·)) (hb : b.Pairwise (· < ·))
    (h : ∀ x, x ∈ a ↔ x ∈ b) : a = b := by
  induction a generalizing b with
  | nil =>
    cases b with
    | nil => rfl
    | cons y b => exact absurd ((h y).2 (by simp)) (by simp)
  | cons x a ih =>
    cases b with
    | nil => exact absurd ((h x).1 (by simp)) (by simp)
    | cons y b =>
      obtain ⟨hxa, sa⟩ := List.pairwise_cons.1 ha
      obtain ⟨hyb, sb⟩ := List.pairwise_cons.1 hb
      have e : x = y := by
        rcases List.mem_cons.1 ((h x).1 (by simp)) with e | hx
        · exact e
        · rcases List.mem_cons.1 ((h y).2 (by simp)) with e | hy
          · exact e.symm
          · exact absurd (String.lt_trans (hyb x hx) (hxa y hy)) (String.lt_irrefl y)
      subst e
      refine congrArg (x :: ·) (ih sa sb fun z => ?_)
      constructor
      · intro hz
        rcases List.mem_cons.1 ((h z).1 (by simp [hz])) with e | hz'
        · exact absurd (e ▸ hxa z hz) (String.lt_irrefl x)
        · exact hz'
      · intro hz
        rcases List.mem_cons.1 ((h z).2 (by simp [hz])) with e | hz'
        · exact absurd (e ▸ hyb z hz) (String.lt_irrefl x)
        · exact hz'

/-- Sets with the same members are equal. -/
theorem eq_of_mem_iff {a b : NameSet} (h : ∀ x, x ∈ a ↔ x ∈ b) : a = b := by
  cases a; cases b
  simp only [NameSet.mk.injEq]
  exact eq_of_sorted_of_mem_iff ‹_› ‹_› h

end NameSet

end TypedWrappers

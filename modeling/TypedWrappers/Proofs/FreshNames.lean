import TypedWrappers.Generated.File

/-!
# Fresh names

Parameters that a generated method adds are named so that no declared parameter has the name.

- `exists_freshName_eq`: the fresh name has the fewest underscores behind it that leave it free;
- `freshName_not_mem`, `freshName_ne`: it is not taken, and names with different first letters stay different;
- `FreshSearch`: the search without a bound on its length, which `freshName_exact` shows to end.
-/

namespace TypedWrappers

/-- A name with underscores behind it. -/
def underscored (name : String) (n : Nat) : String :=
  name ++ String.ofList (List.replicate n '_')

theorem toList_underscored (name : String) (n : Nat) :
    (underscored name n).toList = name.toList ++ List.replicate n '_' := by
  rw [underscored, String.toList_append, String.toList_ofList]

theorem underscored_zero (name : String) : underscored name 0 = name := by
  rw [← String.toList_inj, toList_underscored, List.replicate_zero, List.append_nil]

theorem underscored_underscore (name : String) (n : Nat) : underscored (name ++ "_") n = underscored name (n + 1) := by
  rw [← String.toList_inj, toList_underscored, toList_underscored, String.toList_append, List.replicate_succ,
    List.append_assoc]
  rfl

theorem underscored_injective {name : String} {m n : Nat} (h : underscored name m = underscored name n) : m = n := by
  have lengths := congrArg (List.length ∘ String.toList) h
  simp only [Function.comp_apply, toList_underscored, List.length_append, List.length_replicate] at lengths
  omega

/-- Within a budget, the search stops at the first name that is free, or else where the budget ends. -/
theorem exists_freshNameWithin_eq (taken : List String) (budget : Nat) (name : String) :
    ∃ n ≤ budget, freshNameWithin taken budget name = underscored name n ∧
      (∀ m < n, underscored name m ∈ taken) ∧ (n < budget → underscored name n ∉ taken) := by
  induction budget generalizing name with
  | zero => exact ⟨0, Nat.le_refl _, by rw [freshNameWithin, underscored_zero], nofun, nofun⟩
  | succ budget ih =>
    rw [freshNameWithin]
    by_cases isTaken : name ∈ taken
    · obtain ⟨n, le, found, below, free⟩ := ih (name ++ "_")
      refine ⟨n + 1, by omega, ?_, fun m hm => ?_, fun lt => ?_⟩
      · rw [if_pos isTaken, found, underscored_underscore]
      · cases m with
        | zero => rwa [underscored_zero]
        | succ m =>
          rw [← underscored_underscore]
          exact below m (by omega)
      · rw [← underscored_underscore]
        exact free (by omega)
    · refine ⟨0, Nat.zero_le _, ?_, nofun, fun _ => ?_⟩
      · rw [if_neg isTaken, underscored_zero]
      · rwa [underscored_zero]

/-- The fresh name has the fewest underscores that leave it free, and no more than there are names taken. -/
theorem exists_freshName_eq (preferred : String) (taken : List String) :
    ∃ n ≤ taken.length, freshName preferred taken = underscored preferred n ∧ underscored preferred n ∉ taken ∧
      ∀ m < n, underscored preferred m ∈ taken := by
  obtain ⟨n, le, found, below, free⟩ := exists_freshNameWithin_eq taken taken.length preferred
  refine ⟨n, le, found, fun isTaken => ?_, below⟩
  -- else there are more names with underscores than there are names taken
  have ends : n = taken.length := Nat.le_antisymm le (Nat.not_lt.1 fun lt => free lt isTaken)
  have nodup : ((List.range (n + 1)).map (underscored preferred)).Nodup :=
    List.pairwise_map.2 (List.nodup_range.imp fun ne e => ne (underscored_injective e))
  have subset : (List.range (n + 1)).map (underscored preferred) ⊆ taken := by
    intro name mem
    obtain ⟨m, hm, rfl⟩ := List.mem_map.1 mem
    rcases Nat.lt_succ_iff_lt_or_eq.1 (List.mem_range.1 hm) with lt | rfl
    · exact below m lt
    · exact isTaken
  have lengths := List.Nodup.length_le_of_subset nodup subset
  rw [List.length_map, List.length_range] at lengths
  omega

theorem freshName_not_mem (preferred : String) (taken : List String) : freshName preferred taken ∉ taken := by
  obtain ⟨n, -, found, free, -⟩ := exists_freshName_eq preferred taken
  rwa [found]

/-- Fresh names of names that start differently are different. -/
theorem freshName_ne {a b : String} {c d : Char} (ha : a.toList.head? = some c) (hb : b.toList.head? = some d)
    (ne : c ≠ d) (taken taken' : List String) : freshName a taken ≠ freshName b taken' := by
  obtain ⟨m, -, found, -⟩ := exists_freshName_eq a taken
  obtain ⟨n, -, found', -⟩ := exists_freshName_eq b taken'
  intro e
  rw [found, found'] at e
  have heads := congrArg (List.head? ∘ String.toList) e
  simp only [Function.comp_apply, toList_underscored, List.head?_append, ha, hb, Option.some_or] at heads
  exact ne (Option.some.inj heads)

/-! ## The search -/

/-- The search from a name: a free name ends it, and a name that is taken goes on with one more underscore. The number
counts the underscores up to the end. -/
inductive FreshSearch (taken : List String) : String → Nat → String → Prop
  | free {name : String} : name ∉ taken → FreshSearch taken name 0 name
  | next {name fresh : String} {n : Nat} :
      name ∈ taken → FreshSearch taken (name ++ "_") n fresh → FreshSearch taken name (n + 1) fresh

/-- The search goes through the names that are taken to the first one that is free. -/
theorem freshSearch_underscored {taken : List String} {name : String} {n : Nat}
    (below : ∀ m < n, underscored name m ∈ taken) (free : underscored name n ∉ taken) :
    FreshSearch taken name n (underscored name n) := by
  induction n generalizing name with
  | zero =>
    rw [underscored_zero] at free ⊢
    exact .free free
  | succ n ih =>
    have isTaken : name ∈ taken := by
      have first := below 0 (Nat.zero_lt_succ n)
      rwa [underscored_zero] at first
    rw [← underscored_underscore] at free ⊢
    refine .next isTaken (ih (fun m hm => ?_) free)
    rw [underscored_underscore]
    exact below (m + 1) (Nat.succ_lt_succ hm)

/-- The search has no choice. -/
theorem FreshSearch.unique {taken : List String} {name a b : String} {m n : Nat} (ha : FreshSearch taken name m a)
    (hb : FreshSearch taken name n b) : m = n ∧ a = b := by
  induction ha generalizing n with
  | free free =>
    cases hb with
    | free => exact ⟨rfl, rfl⟩
    | next isTaken => exact absurd isTaken free
  | next isTaken _ ih =>
    cases hb with
    | free free => exact absurd isTaken free
    | next _ hb =>
      obtain ⟨rfl, rfl⟩ := ih hb
      exact ⟨rfl, rfl⟩

/-- **The search for a fresh name ends with the fewest underscores**: whatever the parameters, it ends with the fresh name
after at most as many underscores as there are parameters. The fresh name is the preferred one with these underscores
behind it; no parameter has it, and some parameter has the name with any smaller number of them. -/
theorem freshName_exact (preferred : String) (parameters : List Parameter) :
    ∃ n ≤ parameters.length,
      (∀ m fresh, FreshSearch (parameters.map Parameter.name) preferred m fresh ↔
        m = n ∧ fresh = freshName preferred (parameters.map Parameter.name)) ∧
      freshName preferred (parameters.map Parameter.name) = underscored preferred n ∧
      (∀ parameter ∈ parameters, parameter.name ≠ underscored preferred n) ∧
      ∀ m < n, ∃ parameter ∈ parameters, parameter.name = underscored preferred m := by
  obtain ⟨n, le, fresh_eq, free, below⟩ := exists_freshName_eq preferred (parameters.map Parameter.name)
  have search := freshSearch_underscored below free
  refine ⟨n, by rwa [List.length_map] at le, fun m fresh => ?_, fresh_eq, fun parameter hp same => ?_, fun m hm => ?_⟩
  · rw [fresh_eq]
    constructor
    · exact fun other => other.unique search
    · rintro ⟨rfl, rfl⟩
      exact search
  · exact free (same ▸ List.mem_map_of_mem hp)
  · exact List.mem_map.1 (below m hm)

namespace Sample

/-- Parameters whose names stand in each other's way, one of them twice. -/
def crowdedOptions : List Parameter :=
  ["options__", "options", "client", "options_", "options"].map fun name => ⟨name, .literal "int"⟩

theorem freshSearch_crowdedOptions :
    FreshSearch (crowdedOptions.map Parameter.name) "options" 3 "options___" ∧
      freshName "options" (crowdedOptions.map Parameter.name) = "options___" := by
  obtain ⟨n, -, search, fresh_eq, -⟩ := freshName_exact "options" crowdedOptions
  have fresh : freshName "options" (crowdedOptions.map Parameter.name) = underscored "options" 3 := by decide +kernel
  obtain rfl : n = 3 := underscored_injective (fresh_eq.symm.trans fresh)
  exact ⟨(search 3 _).2 ⟨rfl, fresh.symm⟩, fresh⟩

end Sample

end TypedWrappers

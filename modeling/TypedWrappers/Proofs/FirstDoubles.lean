import TypedWrappers.Pass.Basic

/-!
# The first double under each name

`firstDoubles` goes through the doubles that were found and keeps the first one under each full name.

- `pairwise_firstDoubles`: what is kept is strictly increasing in the full name;
- `mem_of_mem_firstDoubles`: nothing is added;
- `qualifiedName_mem_firstDoubles`: every full name is kept;
- `firstDoubles_perm`: nothing is lost where no two doubles share a full name.
-/

namespace TypedWrappers

theorem mem_of_mem_insertDouble {double x : DoubleDescriptor} :
    ∀ {found : List DoubleDescriptor}, x ∈ insertDouble double found → x = double ∨ x ∈ found
  | [], h => .inl (List.mem_singleton.1 h)
  | head :: tail, h => by
    rw [insertDouble] at h
    split at h
    · exact List.mem_cons.1 h
    · split at h
      · rcases List.mem_cons.1 h with rfl | h
        · exact .inr List.mem_cons_self
        · exact (mem_of_mem_insertDouble h).imp_right (List.mem_cons_of_mem _)
      · exact .inr h

/-- Putting in a double keeps the full names increasing. -/
theorem pairwise_insertDouble {double : DoubleDescriptor} : ∀ {found : List DoubleDescriptor},
    found.Pairwise (·.qualifiedName < ·.qualifiedName) →
      (insertDouble double found).Pairwise (·.qualifiedName < ·.qualifiedName)
  | [], _ => by simp [insertDouble]
  | head :: tail, h => by
    obtain ⟨below, sorted⟩ := List.pairwise_cons.1 h
    rw [insertDouble]
    split
    · next lt =>
      refine List.pairwise_cons.2 ⟨fun x hx => ?_, h⟩
      rcases List.mem_cons.1 hx with rfl | hx
      · exact lt
      · exact String.lt_trans lt (below x hx)
    · split
      · next gt =>
        refine List.pairwise_cons.2 ⟨fun x hx => ?_, pairwise_insertDouble sorted⟩
        rcases mem_of_mem_insertDouble hx with rfl | hx
        · exact gt
        · exact below x hx
      · exact h

/-- A double under a new name is put in and nothing is dropped. -/
theorem insertDouble_perm {double : DoubleDescriptor} : ∀ {found : List DoubleDescriptor},
    double.qualifiedName ∉ found.map DoubleDescriptor.qualifiedName →
      (insertDouble double found).Perm (double :: found)
  | [], _ => .refl _
  | head :: tail, new => by
    simp only [List.map_cons, List.mem_cons, not_or] at new
    rw [insertDouble]
    split
    · exact .refl _
    · next above =>
      split
      · exact ((insertDouble_perm new.2).cons head).trans (.swap double head tail)
      · next below => exact absurd (String.le_antisymm (String.not_lt.1 below) (String.not_lt.1 above)) new.1

/-- The doubles that are kept are strictly increasing in the full name. -/
theorem pairwise_firstDoubles (doubles : List DoubleDescriptor) :
    (firstDoubles doubles).Pairwise (·.qualifiedName < ·.qualifiedName) := by
  suffices keep : ∀ found : List DoubleDescriptor, found.Pairwise (·.qualifiedName < ·.qualifiedName) →
      (doubles.foldl (fun found double => insertDouble double found) found).Pairwise
        (·.qualifiedName < ·.qualifiedName) from
    keep [] .nil
  induction doubles with
  | nil => exact fun _ h => h
  | cons double rest ih => exact fun found h => ih _ (pairwise_insertDouble h)

/-- The doubles that are kept have full names of their own. -/
theorem nodup_firstDoubles (doubles : List DoubleDescriptor) :
    ((firstDoubles doubles).map DoubleDescriptor.qualifiedName).Nodup := by
  refine List.pairwise_map.2 ((pairwise_firstDoubles doubles).imp ?_)
  intro a b lt e
  rw [e] at lt
  exact String.lt_irrefl _ lt

/-- A full name is there after a double is put in if it was, or if it is that of the double. -/
theorem qualifiedName_mem_insertDouble {double : DoubleDescriptor} {fullName : String} :
    ∀ {found : List DoubleDescriptor},
      fullName ∈ (insertDouble double found).map DoubleDescriptor.qualifiedName ↔
        fullName = double.qualifiedName ∨ fullName ∈ found.map DoubleDescriptor.qualifiedName
  | [] => by simp [insertDouble]
  | head :: tail => by
    rw [insertDouble]
    split
    · simp
    · next above =>
      split
      · simp only [List.map_cons, List.mem_cons, qualifiedName_mem_insertDouble]
        exact or_left_comm
      · next below =>
        -- the double gives way to the one that has its name
        have same : double.qualifiedName = head.qualifiedName :=
          String.le_antisymm (String.not_lt.1 below) (String.not_lt.1 above)
        simp [same]

/-- What is kept goes by the full names of what was found. -/
theorem qualifiedName_mem_firstDoubles {doubles : List DoubleDescriptor} {fullName : String} :
    fullName ∈ (firstDoubles doubles).map DoubleDescriptor.qualifiedName ↔
      fullName ∈ doubles.map DoubleDescriptor.qualifiedName := by
  suffices keep : ∀ found : List DoubleDescriptor,
      fullName ∈ (doubles.foldl (fun found double => insertDouble double found) found).map
          DoubleDescriptor.qualifiedName ↔
        fullName ∈ doubles.map DoubleDescriptor.qualifiedName ∨
          fullName ∈ found.map DoubleDescriptor.qualifiedName by
    have all := keep []
    rwa [List.map_nil, or_iff_left List.not_mem_nil] at all
  induction doubles with
  | nil => simp
  | cons double rest ih =>
    intro found
    rw [List.foldl_cons, ih, qualifiedName_mem_insertDouble, List.map_cons, List.mem_cons]
    exact or_left_comm.trans or_assoc.symm

/-- What is kept was found. -/
theorem mem_of_mem_firstDoubles {doubles : List DoubleDescriptor} {x : DoubleDescriptor}
    (h : x ∈ firstDoubles doubles) : x ∈ doubles := by
  suffices keep : ∀ found : List DoubleDescriptor,
      x ∈ doubles.foldl (fun found double => insertDouble double found) found → x ∈ doubles ∨ x ∈ found from
    (keep [] h).resolve_right (by simp)
  clear h
  induction doubles with
  | nil => exact fun _ h => .inr h
  | cons double rest ih =>
    intro found h
    rcases ih _ h with h | h
    · exact .inl (List.mem_cons_of_mem _ h)
    · rcases mem_of_mem_insertDouble h with rfl | h
      · exact .inl List.mem_cons_self
      · exact .inr h

/-- Where no two doubles share a full name, each of them is kept. -/
theorem firstDoubles_perm {doubles : List DoubleDescriptor}
    (distinct : (doubles.map DoubleDescriptor.qualifiedName).Nodup) : (firstDoubles doubles).Perm doubles := by
  suffices keep : ∀ found : List DoubleDescriptor, ((doubles ++ found).map DoubleDescriptor.qualifiedName).Nodup →
      (doubles.foldl (fun found double => insertDouble double found) found).Perm (doubles ++ found) by
    have := keep [] (by rwa [List.append_nil])
    rwa [List.append_nil] at this
  clear distinct
  induction doubles with
  | nil => exact fun found _ => .refl found
  | cons double rest ih =>
    intro found distinct
    have new : double.qualifiedName ∉ found.map DoubleDescriptor.qualifiedName := by
      have absent : double.qualifiedName ∉ (rest ++ found).map DoubleDescriptor.qualifiedName :=
        (List.nodup_cons.1 distinct).1
      rw [List.map_append, List.mem_append, not_or] at absent
      exact absent.2
    -- the double moves from the front of what is to come to its place in what was found
    have moved : (rest ++ insertDouble double found).Perm (double :: (rest ++ found)) :=
      ((insertDouble_perm new).append_left rest).trans List.perm_middle
    exact (ih _ ((moved.map _).nodup_iff.2 distinct)).trans moved

end TypedWrappers

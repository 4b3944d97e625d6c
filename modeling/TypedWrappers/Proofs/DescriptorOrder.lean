import TypedWrappers.Descriptor

/-!
# The order of descriptors

Descriptors are ordered by their keys. Where a key determines its descriptor (`DeterminedByKey`), sorting forgets the
order in which the descriptors were found.

- `sortDescriptors_eq_of_perm`, `normalize_eq_of_perm`: the sorted list depends on what was found alone;
- `mem_normalize`, `nodup_normalize`: normalizing keeps what was found, each descriptor once;
- `sortDescriptors_normalize`: what is normalized is in order.
-/

namespace TypedWrappers

/-! ## Keys -/

theorem isLE_or_isLE {α : Type} (compare : α → α → Ordering) [Std.OrientedCmp compare] (a b : α) :
    ((compare a b).isLE || (compare b a).isLE) = true := by
  have swap : compare b a = (compare a b).swap := Std.OrientedCmp.eq_swap
  rw [swap]
  cases compare a b <;> rfl

instance : Std.TransCmp SortKey.compare := by
  unfold SortKey.compare
  infer_instance

/-- Only equal keys compare equal. -/
theorem SortKey.eq_of_compare_eq {a b : SortKey} (h : a.compare b = .eq) : a = b := by
  obtain ⟨type, name, ns, signature, isStatic⟩ := a
  obtain ⟨type', name', ns', signature', isStatic'⟩ := b
  simp only [SortKey.compare, compareLex_eq_eq, compareOn, Std.LawfulEqCmp.compare_eq_iff_eq] at h
  obtain ⟨rfl, rfl, rfl, rfl, rfl⟩ := h
  rfl

theorem Descriptor.precedes_trans (a b c : Descriptor) (h₁ : a.precedes b = true) (h₂ : b.precedes c = true) :
    a.precedes c = true :=
  Std.TransCmp.isLE_trans h₁ h₂

theorem Descriptor.precedes_total (a b : Descriptor) : (a.precedes b || b.precedes a) = true :=
  isLE_or_isLE SortKey.compare a.sortKey b.sortKey

/-- Two descriptors that may each stand in front of the other have one key. -/
theorem Descriptor.sortKey_eq_of_precedes {a b : Descriptor} (h₁ : a.precedes b = true) (h₂ : b.precedes a = true) :
    a.sortKey = b.sortKey :=
  SortKey.eq_of_compare_eq (Std.OrientedCmp.isLE_antisymm h₁ h₂)

/-- The key of a descriptor tells it apart from the others of a list. -/
def DeterminedByKey (ds : List Descriptor) : Prop :=
  ∀ a ∈ ds, ∀ b ∈ ds, a.sortKey = b.sortKey → a = b

instance (ds : List Descriptor) : Decidable (DeterminedByKey ds) :=
  inferInstanceAs (Decidable (∀ a ∈ ds, ∀ b ∈ ds, a.sortKey = b.sortKey → a = b))

/-! ## Sorting -/

theorem sortDescriptors_perm (ds : List Descriptor) : (sortDescriptors ds).Perm ds :=
  List.mergeSort_perm ds _

theorem pairwise_sortDescriptors (ds : List Descriptor) :
    (sortDescriptors ds).Pairwise fun a b => a.precedes b = true :=
  List.pairwise_mergeSort Descriptor.precedes_trans Descriptor.precedes_total ds

/-- Where keys determine descriptors, sorting forgets the order in which they were found. -/
theorem sortDescriptors_eq_of_perm {ds ds' : List Descriptor} (p : ds.Perm ds') (determined : DeterminedByKey ds) :
    sortDescriptors ds = sortDescriptors ds' := by
  refine List.Perm.eq_of_pairwise ?_ (pairwise_sortDescriptors ds) (pairwise_sortDescriptors ds')
    (((sortDescriptors_perm ds).trans p).trans (sortDescriptors_perm ds').symm)
  intro a b ha hb hab hba
  have ha : a ∈ ds := (sortDescriptors_perm ds).mem_iff.1 ha
  have hb : b ∈ ds := p.mem_iff.2 ((sortDescriptors_perm ds').mem_iff.1 hb)
  exact determined a ha b hb (Descriptor.sortKey_eq_of_precedes hab hba)

/-! ## Dropping repeats -/

section DropRepeats

variable {α : Type} [DecidableEq α]

@[simp] theorem mem_dropRepeats {a : α} {l : List α} : a ∈ dropRepeats l ↔ a ∈ l := by
  fun_induction dropRepeats l with
  | case1 => rfl
  | case2 => rfl
  | case3 b rest ih => simp [ih]
  | case4 b c rest different ih => rw [List.mem_cons, ih, ← List.mem_cons]

theorem dropRepeats_sublist (l : List α) : (dropRepeats l).Sublist l := by
  fun_induction dropRepeats l with
  | case1 => exact .slnil
  | case2 a => exact .refl _
  | case3 b rest ih => exact ih.cons b
  | case4 a b rest different ih => exact ih.cons_cons a

/-- In a list that is sorted by an antisymmetric relation, equal items are neighbours. -/
theorem nodup_dropRepeats {r : α → α → Prop} {l : List α} (sorted : l.Pairwise r)
    (antisymm : ∀ a ∈ l, ∀ b ∈ l, r a b → r b a → a = b) : (dropRepeats l).Nodup := by
  fun_induction dropRepeats l with
  | case1 => exact List.nodup_nil
  | case2 a => exact by simp
  | case3 b rest ih =>
    exact ih (List.pairwise_cons.1 sorted).2 fun x hx y hy =>
      antisymm x (List.mem_cons_of_mem _ hx) y (List.mem_cons_of_mem _ hy)
  | case4 a b rest different ih =>
    obtain ⟨below, sorted'⟩ := List.pairwise_cons.1 sorted
    refine List.nodup_cons.2 ⟨fun h => ?_, ih sorted' fun x hx y hy =>
      antisymm x (List.mem_cons_of_mem _ hx) y (List.mem_cons_of_mem _ hy)⟩
    rcases List.mem_cons.1 (mem_dropRepeats.1 h) with same | h
    · exact different same
    · have ab : r a b := below b List.mem_cons_self
      have ba : r b a := (List.pairwise_cons.1 sorted').1 a h
      exact different (antisymm a List.mem_cons_self b (by simp) ab ba)

end DropRepeats

/-! ## Normalizing -/

/-- Normalizing keeps what was found. -/
@[simp] theorem mem_normalize {d : Descriptor} {ds : List Descriptor} : d ∈ normalize ds ↔ d ∈ ds := by
  rw [normalize, mem_dropRepeats, (sortDescriptors_perm ds).mem_iff]

theorem pairwise_normalize (ds : List Descriptor) : (normalize ds).Pairwise fun a b => a.precedes b = true :=
  (pairwise_sortDescriptors ds).sublist (dropRepeats_sublist _)

/-- What is normalized is in the order in which it is rendered. -/
theorem sortDescriptors_normalize (ds : List Descriptor) : sortDescriptors (normalize ds) = normalize ds :=
  List.mergeSort_of_pairwise (pairwise_normalize ds)

/-- Descriptors that are there only under a condition are there as they are normalized. -/
theorem eq_normalize_of_optional {known : Bool} {ds found : List Descriptor}
    (h : (if known then some (normalize ds) else none) = some found) : found = normalize ds := by
  cases known with
  | false => cases h
  | true => cases h; rfl

theorem normalize_eq_of_pairwise {ds : List Descriptor} (inOrder : ds.Pairwise fun a b => a.precedes b = true) :
    normalize ds = dropRepeats ds := by
  rw [normalize, sortDescriptors, List.mergeSort_of_pairwise inOrder]

theorem DeterminedByKey.of_normalize {ds : List Descriptor} (h : DeterminedByKey (normalize ds)) :
    DeterminedByKey ds :=
  fun a ha b hb => h a (mem_normalize.2 ha) b (mem_normalize.2 hb)

/-- Where keys determine descriptors, normalizing forgets the order in which they were found. -/
theorem normalize_eq_of_perm {ds ds' : List Descriptor} (p : ds.Perm ds') (determined : DeterminedByKey ds) :
    normalize ds = normalize ds' := by
  rw [normalize, normalize, sortDescriptors_eq_of_perm p determined]

/-- The same for descriptors that are there only under a condition. -/
theorem optional_normalize_eq_of_perm {known : Bool} {ds ds' : List Descriptor} (p : ds.Perm ds')
    (determined : ∀ group ∈ (if known then some (normalize ds) else none).toList, DeterminedByKey group) :
    (if known then some (normalize ds) else none) = if known then some (normalize ds') else none := by
  cases known with
  | false => rfl
  | true => exact congrArg some (normalize_eq_of_perm p (determined _ (List.mem_singleton_self _)).of_normalize)

/-- Where keys determine descriptors, normalizing leaves each of them once. -/
theorem nodup_normalize {ds : List Descriptor} (determined : DeterminedByKey ds) : (normalize ds).Nodup := by
  refine nodup_dropRepeats (pairwise_sortDescriptors ds) fun a ha b hb hab hba => ?_
  have mem {d : Descriptor} (h : d ∈ sortDescriptors ds) : d ∈ ds := (sortDescriptors_perm ds).mem_iff.1 h
  exact determined a (mem ha) b (mem hb) (Descriptor.sortKey_eq_of_precedes hab hba)

end TypedWrappers

import Mathlib.Data.List.Nodup
import TypedWrappers.Proofs.DescriptorOrder

/-!
# Descriptors with one key

A key leaves out part of a descriptor: what the method returns, the names of its parameters and how their types are
written. Sorting puts descriptors with one key side by side, in the order in which they were found, and only neighbours
are told to be repeats. So a normalized list depends on the order of what was found, and may hold a descriptor twice,
wherever two descriptors have one key.

- `withKey`: the descriptors of a list that have a given key;
- `withKey_sortDescriptors`, `withKey_normalize`: sorting leaves these as they are, normalizing drops neighbours;
- `eq_of_withKey_eq`: a list in order is known by what it has under each key;
- `determinedByKey_iff_normalize`: normalizing depends on the set of descriptors, and leaves each of them once, exactly
  where keys determine descriptors.
-/

namespace TypedWrappers

/-- The descriptors that have a given key, in their order. -/
def withKey (key : SortKey) (ds : List Descriptor) : List Descriptor :=
  ds.filter fun d => d.sortKey = key

theorem mem_withKey {key : SortKey} {ds : List Descriptor} {d : Descriptor} :
    d ∈ withKey key ds ↔ d ∈ ds ∧ d.sortKey = key := by
  simp [withKey]

theorem withKey_cons_of_eq {key : SortKey} {d : Descriptor} (h : d.sortKey = key) (ds : List Descriptor) :
    withKey key (d :: ds) = d :: withKey key ds :=
  List.filter_cons_of_pos (decide_eq_true h)

theorem withKey_cons_of_ne {key : SortKey} {d : Descriptor} (h : d.sortKey ≠ key) (ds : List Descriptor) :
    withKey key (d :: ds) = withKey key ds :=
  List.filter_cons_of_neg (by simpa using h)

/-! ## Sorting -/

theorem Descriptor.precedes_of_sortKey_eq {a b : Descriptor} (h : a.sortKey = b.sortKey) : a.precedes b = true := by
  have self : b.sortKey.compare b.sortKey = .eq := Std.ReflCmp.compare_self
  rw [precedes, h, self]
  rfl

/-- Sorting is stable: descriptors with one key stay in their order. -/
theorem withKey_sortDescriptors (key : SortKey) (ds : List Descriptor) :
    withKey key (sortDescriptors ds) = withKey key ds := by
  have inOrder : (withKey key ds).Pairwise fun a b => a.precedes b = true :=
    List.pairwise_of_forall_mem_list fun a ha b hb =>
      Descriptor.precedes_of_sortKey_eq ((mem_withKey.1 ha).2.trans (mem_withKey.1 hb).2.symm)
  have kept : (withKey key ds).Sublist (sortDescriptors ds) :=
    List.sublist_mergeSort Descriptor.precedes_trans Descriptor.precedes_total inOrder List.filter_sublist
  have kept' : (withKey key ds).Sublist (withKey key (sortDescriptors ds)) := by
    have filtered := kept.filter fun d => decide (d.sortKey = key)
    simpa only [withKey, List.filter_filter, Bool.and_self] using filtered
  exact (kept'.eq_of_length (((sortDescriptors_perm ds).filter _).length_eq.symm)).symm

/-! ## Normalizing -/

section DropRepeats

variable {α : Type} [DecidableEq α]

theorem head?_dropRepeats (l : List α) : (dropRepeats l).head? = l.head? := by
  fun_induction dropRepeats l with
  | case1 => rfl
  | case2 => rfl
  | case3 b rest ih => exact ih
  | case4 => rfl

theorem dropRepeats_cons_self (a : α) (l : List α) : dropRepeats (a :: a :: l) = dropRepeats (a :: l) := by
  rw [dropRepeats, if_pos rfl]

/-- An item stays in front of one that it does not equal. -/
theorem dropRepeats_cons_of_ne {a : α} {l : List α} (h : ∀ b ∈ l.head?, a ≠ b) :
    dropRepeats (a :: l) = a :: dropRepeats l := by
  cases l with
  | nil => rfl
  | cons b l => rw [dropRepeats, if_neg (h b rfl)]

end DropRepeats

/-- In a list in order, descriptors with one key are neighbours, and so it does not matter whether repeats are dropped
before or after the others. -/
theorem withKey_dropRepeats (key : SortKey) {ds : List Descriptor}
    (inOrder : ds.Pairwise fun a b => a.precedes b = true) :
    withKey key (dropRepeats ds) = dropRepeats (withKey key ds) := by
  fun_induction dropRepeats ds with
  | case1 => rfl
  | case2 a =>
    by_cases has : a.sortKey = key
    · rw [withKey_cons_of_eq has]
      rfl
    · rw [withKey_cons_of_ne has]
      rfl
  | case3 b rest ih =>
    rw [ih (List.pairwise_cons.1 inOrder).2]
    by_cases has : b.sortKey = key
    · rw [withKey_cons_of_eq has (b :: rest), withKey_cons_of_eq has, dropRepeats_cons_self]
    · rw [withKey_cons_of_ne has (b :: rest)]
  | case4 a b rest different ih =>
    obtain ⟨below, inOrder'⟩ := List.pairwise_cons.1 inOrder
    by_cases has : a.sortKey = key
    · rw [withKey_cons_of_eq has, withKey_cons_of_eq has, ih inOrder', dropRepeats_cons_of_ne]
      -- a repeat further on would have the key of what stands between
      rintro _ first rfl
      have further : a ∈ rest := by
        have mem := (mem_withKey.1 (List.mem_of_mem_head? first)).1
        exact (List.mem_cons.1 mem).resolve_left different
      have between : b.sortKey = key := by
        rw [← has]
        exact Descriptor.sortKey_eq_of_precedes ((List.pairwise_cons.1 inOrder').1 a further)
          (below b List.mem_cons_self)
      rw [withKey_cons_of_eq between] at first
      exact different (Option.some.inj first).symm
    · rw [withKey_cons_of_ne has, withKey_cons_of_ne has, ih inOrder']

/-- Normalizing drops neighbours that are equal among the descriptors with one key. -/
theorem withKey_normalize (key : SortKey) (ds : List Descriptor) :
    withKey key (normalize ds) = dropRepeats (withKey key ds) := by
  rw [normalize, withKey_dropRepeats key (pairwise_sortDescriptors ds), withKey_sortDescriptors]

/-- Each descriptor is found under its key. -/
theorem mem_iff_of_withKey_eq {ds ds' : List Descriptor} (same : ∀ key, withKey key ds = withKey key ds')
    {d : Descriptor} : d ∈ ds ↔ d ∈ ds' := by
  have found {ds : List Descriptor} : d ∈ ds ↔ d ∈ withKey d.sortKey ds := by
    rw [mem_withKey, and_iff_left rfl]
  rw [found, same, ← found]

/-- A list in order is known by what it has under each key. -/
theorem eq_of_withKey_eq {ds ds' : List Descriptor} (inOrder : ds.Pairwise fun a b => a.precedes b = true)
    (inOrder' : ds'.Pairwise fun a b => a.precedes b = true) (same : ∀ key, withKey key ds = withKey key ds') :
    ds = ds' := by
  induction ds generalizing ds' with
  | nil =>
    cases ds' with
    | nil => rfl
    | cons b rest' => cases (mem_iff_of_withKey_eq same).2 List.mem_cons_self
  | cons a rest ih =>
    cases ds' with
    | nil => cases (mem_iff_of_withKey_eq same).1 List.mem_cons_self
    | cons b rest' =>
      obtain ⟨below, restInOrder⟩ := List.pairwise_cons.1 inOrder
      obtain ⟨below', restInOrder'⟩ := List.pairwise_cons.1 inOrder'
      -- each of the first two may stand in front of the other
      have oneKey : a.sortKey = b.sortKey := by
        rcases List.mem_cons.1 ((mem_iff_of_withKey_eq same).1 List.mem_cons_self) with rfl | further
        · rfl
        rcases List.mem_cons.1 ((mem_iff_of_withKey_eq same).2 List.mem_cons_self) with rfl | further'
        · rfl
        exact Descriptor.sortKey_eq_of_precedes (below b further') (below' a further)
      have first := same a.sortKey
      rw [withKey_cons_of_eq rfl, withKey_cons_of_eq oneKey.symm] at first
      obtain ⟨rfl, restSame⟩ := List.cons.inj first
      refine congrArg _ (ih restInOrder restInOrder' fun key => ?_)
      by_cases has : a.sortKey = key
      · rw [← has]
        exact restSame
      · have others := same key
        rwa [withKey_cons_of_ne has, withKey_cons_of_ne has] at others

/-- Normalizing gives the same list exactly where it drops the same under each key. -/
theorem normalize_eq_iff {ds ds' : List Descriptor} :
    normalize ds = normalize ds' ↔ ∀ key, dropRepeats (withKey key ds) = dropRepeats (withKey key ds') := by
  simp only [← withKey_normalize]
  exact ⟨fun e key => by rw [e], eq_of_withKey_eq (pairwise_normalize ds) (pairwise_normalize ds')⟩

/-! ## What the set of descriptors decides -/

section Reordered

variable {ds : List Descriptor} {a b : Descriptor}

/-- Where keys determine descriptors, lists with the same descriptors are normalized alike. -/
theorem normalize_eq_of_mem_iff (determined : DeterminedByKey ds) {ds' : List Descriptor}
    (mem : ∀ d, d ∈ ds' ↔ d ∈ ds) : normalize ds' = normalize ds := by
  have determined' : DeterminedByKey ds' := fun a ha b hb => determined a ((mem a).1 ha) b ((mem b).1 hb)
  have perm : (normalize ds').Perm (normalize ds) :=
    (List.perm_ext_iff_of_nodup (nodup_normalize determined') (nodup_normalize determined)).2 fun d => by
      rw [mem_normalize, mem_normalize, mem]
  refine perm.eq_of_pairwise (fun a b ha hb hab hba => ?_) (pairwise_normalize ds') (pairwise_normalize ds)
  exact determined a ((mem a).1 (mem_normalize.1 ha)) b (mem_normalize.1 hb)
    (Descriptor.sortKey_eq_of_precedes hab hba)

/-- What comes first among the descriptors with one key comes first among them still. -/
theorem head?_withKey_normalize (key : SortKey) (ds : List Descriptor) :
    (withKey key (normalize ds)).head? = (withKey key ds).head? := by
  rw [withKey_normalize, head?_dropRepeats]

/-- If normalizing forgets in what order two descriptors with one key are found, they are the same. -/
theorem eq_of_normalize_eq (oneKey : a.sortKey = b.sortKey)
    (h : normalize (a :: b :: ds) = normalize (b :: a :: ds)) : a = b := by
  have heads := congrArg (fun l => (withKey b.sortKey l).head?) h
  simp only [head?_withKey_normalize] at heads
  rw [withKey_cons_of_eq oneKey, withKey_cons_of_eq rfl (a :: ds)] at heads
  exact Option.some.inj heads

/-- If normalizing leaves a descriptor once that is found before and behind another one with its key, they are the
same. -/
theorem eq_of_nodup_normalize (oneKey : a.sortKey = b.sortKey) (h : (normalize (a :: b :: a :: ds)).Nodup) :
    a = b := by
  by_contra ne
  have once : (withKey b.sortKey (normalize (a :: b :: a :: ds))).Nodup := h.filter _
  rw [withKey_normalize, withKey_cons_of_eq oneKey, withKey_cons_of_eq rfl, withKey_cons_of_eq oneKey,
    dropRepeats_cons_of_ne (by simpa using ne), List.nodup_cons, mem_dropRepeats] at once
  exact once.1 (List.mem_cons_of_mem _ List.mem_cons_self)

end Reordered

/-- **When a normalized list forgets the order of discovery**: exactly where keys determine descriptors do all lists
with these descriptors have one normalized list, and only there does each of these lists leave every descriptor once.
Elsewhere two lists have one normalized list when they leave the same under each key, where the descriptors stay in the
order in which they were found, but for repeats among neighbours. A normalized list is in the order in which it is
rendered. -/
theorem determinedByKey_iff_normalize (ds : List Descriptor) :
    (DeterminedByKey ds ↔ ∀ ds', (∀ d, d ∈ ds' ↔ d ∈ ds) → normalize ds' = normalize ds) ∧
      (DeterminedByKey ds ↔ ∀ ds', (∀ d, d ∈ ds' ↔ d ∈ ds) → (normalize ds').Nodup) ∧
      (∀ ds', normalize ds' = normalize ds ↔
        ∀ key, dropRepeats (withKey key ds') = dropRepeats (withKey key ds)) ∧
      (∀ key, withKey key (normalize ds) = dropRepeats (withKey key ds)) ∧
      (∀ d, d ∈ normalize ds ↔ d ∈ ds) ∧
      sortDescriptors (normalize ds) = normalize ds := by
  have known {a : Descriptor} (ha : a ∈ ds) {ds' : List Descriptor} (mem : ∀ d, d ∈ ds' ↔ d ∈ ds) (d : Descriptor) :
      d ∈ a :: ds' ↔ d ∈ ds := by
    rw [List.mem_cons, mem]
    exact ⟨fun h => h.elim (fun e => e ▸ ha) id, .inr⟩
  refine ⟨⟨fun determined ds' mem => normalize_eq_of_mem_iff determined mem, fun all a ha b hb oneKey => ?_⟩,
    ⟨fun determined ds' mem => ?_, fun all a ha b hb oneKey => ?_⟩, fun _ => normalize_eq_iff,
    fun key => withKey_normalize key ds, fun _ => mem_normalize, sortDescriptors_normalize ds⟩
  · have forth : normalize (a :: b :: ds) = normalize ds := all _ (known ha (known hb fun _ => .rfl))
    have back : normalize (b :: a :: ds) = normalize ds := all _ (known hb (known ha fun _ => .rfl))
    exact eq_of_normalize_eq oneKey (forth.trans back.symm)
  · rw [normalize_eq_of_mem_iff determined mem]
    exact nodup_normalize determined
  · exact eq_of_nodup_normalize oneKey (all _ (known ha (known hb (known ha fun _ => .rfl))))

/-! ## An example -/

namespace Sample

/-- An overload that differs from others in the name of its parameter only. -/
def overload (parameter : String) : Descriptor :=
  ⟨"Ping", "Acts", some "P", false, [⟨parameter, .literal "Order"⟩], .void⟩

/-- Overloads with one key stay as they were found, and one that is found again behind another stays twice. -/
example : normalize [overload "order", overload "item", overload "order"] =
    [overload "order", overload "item", overload "order"] := by
  rw [normalize_eq_of_pairwise (by decide +kernel)]
  decide +kernel

end Sample

end TypedWrappers

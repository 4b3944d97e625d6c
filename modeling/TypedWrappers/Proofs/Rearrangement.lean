import Mathlib.Data.List.Perm.Basic

/-!
# Rearranged lists

Two lists are rearrangements of each other along a relation when their items can be paired off, in any order, so that
the relation holds for each pair (`Rearranged`). What is computed from the items alone keeps this: `Rearranged.map`,
`filter`, `filterMap`, `flatMap`. Three results forget the order altogether: a test for any item (`any_eq`), a search
that can find one item only (`find?_rel`), and a list that is sorted by something the relation keeps
(`forall₂_of_sorted`).
-/

namespace TypedWrappers

variable {α β γ δ : Type} {R : α → β → Prop} {S : γ → δ → Prop} {l : List α} {l' : List β}

/-- What is computed alike from partners is computed alike from two options that hold partners. -/
theorem bind_eq_of_rel {o : Option α} {o' : Option β} {f : α → Option γ} {g : β → Option γ} (h : Option.Rel R o o')
    (hf : ∀ a b, R a b → f a = g b) : o.bind f = o'.bind g := by
  cases h with
  | none => rfl
  | some r => exact hf _ _ r

/-- Related results of partners are related results of two options that hold partners. -/
theorem bind_rel_of_rel {o : Option α} {o' : Option β} {f : α → Option γ} {g : β → Option δ} (h : Option.Rel R o o')
    (hf : ∀ a b, R a b → Option.Rel S (f a) (g b)) : Option.Rel S (o.bind f) (o'.bind g) := by
  cases h with
  | none => exact .none
  | some r => exact hf _ _ r

theorem rel_of_eq {o o' : Option α} (h : o = o') : Option.Rel Eq o o' := by
  subst h
  cases o with
  | none => exact .none
  | some a => exact .some rfl

/-- The items of two lists can be paired off, in any order, so that the relation holds for each pair. -/
def Rearranged (R : α → β → Prop) (l : List α) (l' : List β) : Prop :=
  ∃ m, l.Perm m ∧ List.Forall₂ R m l'

namespace Rearranged

theorem of_forall₂ (h : List.Forall₂ R l l') : Rearranged R l l' :=
  ⟨l, .refl l, h⟩

theorem of_perm_left {k : List α} (h : Rearranged R l l') (p : k.Perm l) : Rearranged R k l' := by
  obtain ⟨m, q, f⟩ := h
  exact ⟨m, p.trans q, f⟩

theorem of_perm_right {k : List β} (h : Rearranged R l l') (p : k.Perm l') : Rearranged R l k := by
  obtain ⟨m, q, f⟩ := h
  have both : Relation.Comp List.Perm (List.Forall₂ R) m k := by
    rw [← List.forall₂_comp_perm_eq_perm_comp_forall₂]
    exact ⟨l', f, p.symm⟩
  obtain ⟨n, q', f'⟩ := both
  exact ⟨n, q.trans q', f'⟩

theorem append {k : List α} {k' : List β} (h : Rearranged R l l') (hk : Rearranged R k k') :
    Rearranged R (l ++ k) (l' ++ k') := by
  obtain ⟨m, p, f⟩ := h
  obtain ⟨n, p', f'⟩ := hk
  exact ⟨m ++ n, p.append p', List.rel_append f f'⟩

theorem length_eq (h : Rearranged R l l') : l.length = l'.length := by
  obtain ⟨m, p, f⟩ := h
  rw [p.length_eq, f.length_eq]

theorem isEmpty_eq (h : Rearranged R l l') : l.isEmpty = l'.isEmpty := by
  rw [Bool.eq_iff_iff, List.isEmpty_iff_length_eq_zero, List.isEmpty_iff_length_eq_zero, h.length_eq]

/-- Every item of the second list is the partner of one of the first. -/
theorem exists_left (h : Rearranged R l l') {b : β} (hb : b ∈ l') : ∃ a ∈ l, R a b := by
  obtain ⟨m, p, f⟩ := h
  obtain ⟨i, hi, rfl⟩ := List.getElem_of_mem hb
  have hi' : i < m.length := by rw [f.length_eq]; exact hi
  exact ⟨m[i], p.mem_iff.2 (List.getElem_mem hi'), f.get hi' hi⟩

/-- What holds of every item of the first list can be used for each pair. -/
theorem and_left {p : α → Prop} (h : Rearranged R l l') (hp : ∀ a ∈ l, p a) :
    Rearranged (fun a b => p a ∧ R a b) l l' := by
  obtain ⟨m, perm, pairs⟩ := h
  exact ⟨m, perm, (List.forall₂_and_left m l').2 ⟨fun a ha => hp a (perm.mem_iff.2 ha), pairs⟩⟩

/-! ## What is computed item by item -/

theorem map {f : α → γ} {g : β → δ} (h : Rearranged R l l') (hf : ∀ a b, R a b → S (f a) (g b)) :
    Rearranged S (l.map f) (l'.map g) := by
  obtain ⟨m, p, pairs⟩ := h
  exact ⟨m.map f, p.map f, List.rel_map (fun a b => hf a b) pairs⟩

theorem filter {p : α → Bool} {q : β → Bool} (h : Rearranged R l l') (hp : ∀ a b, R a b → p a = q b) :
    Rearranged R (l.filter p) (l'.filter q) := by
  obtain ⟨m, perm, pairs⟩ := h
  exact ⟨m.filter p, perm.filter p, List.rel_filter (fun a b r => by simp only [hp a b r]) pairs⟩

theorem filterMap {f : α → Option γ} {g : β → Option δ} (h : Rearranged R l l')
    (hf : ∀ a b, R a b → Option.Rel S (f a) (g b)) : Rearranged S (l.filterMap f) (l'.filterMap g) := by
  obtain ⟨m, p, pairs⟩ := h
  exact ⟨m.filterMap f, p.filterMap f, List.rel_filterMap (fun a b => hf a b) pairs⟩

theorem flatMap {f : α → List γ} {g : β → List δ} (h : Rearranged R l l')
    (hf : ∀ a b, R a b → Rearranged S (f a) (g b)) : Rearranged S (l.flatMap f) (l'.flatMap g) := by
  obtain ⟨m, p, pairs⟩ := h
  have paired : Rearranged S (m.flatMap f) (l'.flatMap g) := by
    clear p
    induction pairs with
    | nil => exact of_forall₂ .nil
    | cons r _ ih => exact (hf _ _ r).append ih
  obtain ⟨n, p', pairs'⟩ := paired
  exact ⟨n, (p.flatMap_right f).trans p', pairs'⟩

/-- Where partners are equal, the lists are permutations of each other. -/
theorem perm {l l' : List α} (h : Rearranged Eq l l') : l.Perm l' := by
  obtain ⟨m, p, pairs⟩ := h
  rw [List.forall₂_eq_eq_eq] at pairs
  exact pairs ▸ p

/-- What is the same for partners comes to a permutation. -/
theorem map_perm {f : α → γ} {g : β → γ} (h : Rearranged R l l') (hf : ∀ a b, R a b → f a = g b) :
    (l.map f).Perm (l'.map g) :=
  (h.map hf).perm

/-! ## What forgets the order -/

/-- Whether any item passes a test does not depend on the order. -/
theorem any_eq {p : α → Bool} {q : β → Bool} (h : Rearranged R l l') (hp : ∀ a b, R a b → p a = q b) :
    l.any p = l'.any q := by
  obtain ⟨m, perm, pairs⟩ := h
  rw [perm.any_eq]
  induction pairs generalizing l with
  | nil => rfl
  | cons r _ ih => rw [List.any_cons, List.any_cons, hp _ _ r, ih (.refl _)]

/-- The first items of lists that are paired off in order are partners. -/
theorem head?_rel (h : List.Forall₂ R l l') : Option.Rel R l.head? l'.head? := by
  cases h with
  | nil => exact .none
  | cons r _ => exact .some r

/-- A search that at most one item can pass finds partners. -/
theorem find?_rel {p : α → Bool} {q : β → Bool} (h : Rearranged R l l') (hp : ∀ a b, R a b → p a = q b)
    (unique : l.countP p ≤ 1) : Option.Rel R (l.find? p) (l'.find? q) := by
  obtain ⟨m, perm, pairs⟩ := h.filter hp
  rw [List.countP_eq_length_filter] at unique
  rw [← List.head?_filter, ← List.head?_filter]
  -- a list of at most one item has no other order
  have same : l.filter p = m := by
    cases m with
    | nil => exact List.perm_nil.1 perm
    | cons a rest =>
      have : rest = [] := List.length_eq_zero_iff.1 (by rw [perm.length_eq] at unique; simpa using unique)
      subst this
      exact List.perm_singleton.1 perm
  rw [same]
  exact head?_rel pairs

/-- Two lists that are strictly sorted by something that partners share are paired off in order. -/
theorem forall₂_of_sorted {f : α → String} {g : β → String} (h : Rearranged R l l') (hf : ∀ a b, R a b → f a = g b)
    (sorted : l.Pairwise (f · < f ·)) (sorted' : l'.Pairwise (g · < g ·)) : List.Forall₂ R l l' := by
  obtain ⟨m, perm, pairs⟩ := h
  have sortedM : m.Pairwise (f · < f ·) := by
    have same : m.map f = l'.map g := by
      rw [← List.forall₂_eq_eq_eq, List.forall₂_map_left_iff, List.forall₂_map_right_iff]
      exact pairs.imp hf
    rw [← List.pairwise_map (R := (· < ·)), same, List.pairwise_map]
    exact sorted'
  have same : l = m :=
    perm.eq_of_pairwise (fun a b _ _ ab ba => absurd (String.lt_trans ab ba) (String.lt_irrefl _)) sorted sortedM
  exact same ▸ pairs

end Rearranged

end TypedWrappers

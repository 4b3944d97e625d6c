import Mathlib.Data.List.Forall2

/-!
# Results

Computations that may fail, one after the other and over lists.

- `bind_eq_ok_iff`: two in a row;
- `mapM_eq_ok_iff`, `mapM_ok_iff`, `mapM_eq_error_iff`: over a list.
-/

namespace TypedWrappers

variable {α β ε : Type} {f : α → Except ε β} {xs : List α}

theorem bind_eq_ok_iff {γ : Type} {r : Except ε α} {g : α → Except ε γ} {z : γ} :
    r >>= g = .ok z ↔ ∃ x, r = .ok x ∧ g x = .ok z := by
  cases r with
  | error e => exact ⟨nofun, nofun⟩
  | ok x =>
    constructor
    · intro h
      exact ⟨x, rfl, h⟩
    · rintro ⟨x', e, h⟩
      cases e
      exact h

theorem exists_error_of_not_exists_ok {r : Except ε α} (h : ¬∃ x, r = .ok x) : ∃ e, r = .error e := by
  cases r with
  | error e => exact ⟨e, rfl⟩
  | ok x => exact absurd ⟨x, rfl⟩ h

theorem foldlM_concat_eq_ok_iff {step : β → α → Except ε β} {first last : β} {x : α} :
    (xs ++ [x]).foldlM step first = .ok last ↔ ∃ y, xs.foldlM step first = .ok y ∧ step y x = .ok last := by
  rw [List.foldlM_append, bind_eq_ok_iff]
  simp only [List.foldlM_cons, List.foldlM_nil, bind_pure]

theorem mapM_cons_eq_ok_iff {x : α} {zs : List β} :
    (x :: xs).mapM f = .ok zs ↔ ∃ y ys, f x = .ok y ∧ xs.mapM f = .ok ys ∧ zs = y :: ys := by
  simp only [List.mapM_cons, bind_eq_ok_iff]
  constructor
  · rintro ⟨y, hy, ys, hys, e⟩
    cases e
    exact ⟨y, ys, hy, hys, rfl⟩
  · rintro ⟨y, ys, hy, hys, rfl⟩
    exact ⟨y, hy, ys, hys, rfl⟩

theorem mapM_cons_ok {x : α} {y : β} {ys : List β} (hx : f x = .ok y) (hxs : xs.mapM f = .ok ys) :
    (x :: xs).mapM f = .ok (y :: ys) :=
  mapM_cons_eq_ok_iff.2 ⟨y, ys, hx, hxs, rfl⟩

theorem mapM_concat_eq_ok_iff {x : α} {zs : List β} :
    (xs ++ [x]).mapM f = .ok zs ↔ ∃ ys y, xs.mapM f = .ok ys ∧ f x = .ok y ∧ zs = ys ++ [y] := by
  simp only [List.mapM_append, List.mapM_cons, List.mapM_nil, bind_eq_ok_iff]
  constructor
  · rintro ⟨ys, hys, last, ⟨y, hy, none, hnone, hlast⟩, e⟩
    cases hnone
    cases hlast
    cases e
    exact ⟨ys, y, hys, hy, rfl⟩
  · rintro ⟨ys, y, hys, hy, rfl⟩
    exact ⟨ys, hys, [y], ⟨y, hy, [], rfl, rfl⟩, rfl⟩

/-- The results are those of the items, one by one. -/
theorem mapM_eq_ok_iff {ys : List β} : xs.mapM f = .ok ys ↔ List.Forall₂ (fun x y => f x = .ok y) xs ys := by
  induction xs generalizing ys with
  | nil =>
    rw [List.forall₂_nil_left_iff]
    constructor
    · intro h
      cases h
      rfl
    · rintro rfl
      rfl
  | cons x xs ih =>
    rw [mapM_cons_eq_ok_iff, List.forall₂_cons_left_iff]
    simp only [ih]

/-- The results of several lists are those of each. -/
theorem mapM_flatMap_eq_ok {γ : Type} {cs : List γ} {g : γ → List α} {h : γ → List β}
    (each : ∀ c ∈ cs, (g c).mapM f = .ok (h c)) : (cs.flatMap g).mapM f = .ok (cs.flatMap h) := by
  rw [mapM_eq_ok_iff]
  induction cs with
  | nil => exact .nil
  | cons c cs ih =>
    obtain ⟨first, rest⟩ := List.forall_mem_cons.1 each
    exact List.rel_append (mapM_eq_ok_iff.1 first) (ih rest)

/-- What gives the same results one by one gives the same list. -/
theorem mapM_eq_ok_of_imp {g : α → Except ε β} {ys : List β} (imp : ∀ x ∈ xs, ∀ y ∈ ys, f x = .ok y → g x = .ok y)
    (ok : xs.mapM f = .ok ys) : xs.mapM g = .ok ys := by
  rw [mapM_eq_ok_iff] at ok ⊢
  induction ok with
  | nil => exact .nil
  | @cons x y xs ys hx _ ih =>
    refine .cons (imp x List.mem_cons_self y List.mem_cons_self hx) (ih fun x hx y hy => ?_)
    exact imp x (List.mem_cons_of_mem _ hx) y (List.mem_cons_of_mem _ hy)

/-- A list of results is there when each of them is. -/
theorem mapM_ok_iff : (∃ ys, xs.mapM f = .ok ys) ↔ ∀ x ∈ xs, ∃ y, f x = .ok y := by
  induction xs with
  | nil => exact ⟨fun _ => nofun, fun _ => ⟨[], rfl⟩⟩
  | cons x xs ih =>
    rw [List.forall_mem_cons, ← ih]
    constructor
    · rintro ⟨zs, h⟩
      obtain ⟨y, ys, hx, hxs, -⟩ := mapM_cons_eq_ok_iff.1 h
      exact ⟨⟨y, hx⟩, ys, hxs⟩
    · rintro ⟨⟨y, hx⟩, ys, hxs⟩
      exact ⟨y :: ys, mapM_cons_ok hx hxs⟩

/-- Each item has its result among the results. -/
theorem exists_mem_of_mapM_eq_ok {ys : List β} (h : xs.mapM f = .ok ys) {x : α} (hx : x ∈ xs) :
    ∃ y ∈ ys, f x = .ok y := by
  induction xs generalizing ys with
  | nil => cases hx
  | cons first xs ih =>
    obtain ⟨y, rest, hfirst, hxs, rfl⟩ := mapM_cons_eq_ok_iff.1 h
    rcases List.mem_cons.1 hx with rfl | hx
    · exact ⟨y, List.mem_cons_self, hfirst⟩
    · obtain ⟨y', mem, ok⟩ := ih hxs hx
      exact ⟨y', List.mem_cons_of_mem _ mem, ok⟩

/-- Each result is that of an item. -/
theorem exists_mem_of_mem_results {ys : List β} (h : xs.mapM f = .ok ys) {y : β} (hy : y ∈ ys) :
    ∃ x ∈ xs, f x = .ok y := by
  rw [mapM_eq_ok_iff] at h
  induction h with
  | nil => cases hy
  | @cons x y' xs ys hx _ ih =>
    rcases List.mem_cons.1 hy with rfl | hy
    · exact ⟨x, List.mem_cons_self, hx⟩
    · obtain ⟨x', mem, ok⟩ := ih hy
      exact ⟨x', List.mem_cons_of_mem _ mem, ok⟩

theorem mapM_cons_eq_error_iff {x : α} {e : ε} :
    (x :: xs).mapM f = .error e ↔ f x = .error e ∨ (∃ y, f x = .ok y) ∧ xs.mapM f = .error e := by
  rw [List.mapM_cons]
  cases f x with
  | error e' =>
    constructor
    · intro failed
      cases failed
      exact .inl rfl
    · rintro (failed | ⟨⟨y, ok⟩, -⟩)
      · cases failed
        rfl
      · cases ok
  | ok y =>
    constructor
    · intro failed
      refine .inr ⟨⟨y, rfl⟩, ?_⟩
      cases rest : xs.mapM f with
      | error e' => rw [rest] at failed; cases failed; rfl
      | ok ys => rw [rest] at failed; cases failed
    · rintro (failed | ⟨-, failed⟩)
      · cases failed
      · rw [failed]
        rfl

/-- The first failure counts. -/
theorem mapM_eq_error_iff {e : ε} :
    xs.mapM f = .error e ↔
      ∃ before x after, xs = before ++ x :: after ∧ (∀ earlier ∈ before, ∃ y, f earlier = .ok y) ∧
        f x = .error e := by
  induction xs with
  | nil =>
    refine ⟨nofun, ?_⟩
    rintro ⟨before, x, after, none, -⟩
    cases before <;> cases none
  | cons first rest ih =>
    rw [mapM_cons_eq_error_iff, ih]
    constructor
    · rintro (failed | ⟨ok, before, x, after, rfl, all, failed⟩)
      · exact ⟨[], first, rest, rfl, nofun, failed⟩
      · exact ⟨first :: before, x, after, rfl, List.forall_mem_cons.2 ⟨ok, all⟩, failed⟩
    · rintro ⟨before, x, after, parts, all, failed⟩
      cases before with
      | nil => cases parts; exact .inl failed
      | cons other before =>
        cases parts
        obtain ⟨ok, all⟩ := List.forall_mem_cons.1 all
        exact .inr ⟨ok, before, x, after, rfl, all, failed⟩

theorem mapM_eq_error {e : ε} (h : xs.mapM f = .error e) : ∃ x ∈ xs, f x = .error e := by
  obtain ⟨before, x, after, rfl, -, failed⟩ := mapM_eq_error_iff.1 h
  exact ⟨x, List.mem_append_right before List.mem_cons_self, failed⟩

/-- A list made of several is gone through one by one. -/
theorem mapM_flatMap {γ : Type} {cs : List γ} {g : γ → List α} :
    (cs.flatMap g).mapM f = (cs.mapM fun c => (g c).mapM f).map List.flatten := by
  induction cs with
  | nil => rfl
  | cons c cs ih =>
    rw [List.flatMap_cons, List.mapM_append, List.mapM_cons, ih]
    cases (g c).mapM f with
    | error e => rfl
    | ok ys => cases cs.mapM fun c => (g c).mapM f <;> rfl

/-- The first failure in a list made of several: all of what is made of earlier ones went well. -/
theorem mapM_flatMap_eq_error_iff {γ : Type} {cs : List γ} {g : γ → List α} {e : ε} :
    (cs.flatMap g).mapM f = .error e ↔
      ∃ before c after, cs = before ++ c :: after ∧ (∀ earlier ∈ before, ∃ ys, (g earlier).mapM f = .ok ys) ∧
        (g c).mapM f = .error e := by
  rw [mapM_flatMap, ← mapM_eq_error_iff]
  cases cs.mapM fun c => (g c).mapM f with
  | error e' => simp [Except.map]
  | ok yss => exact ⟨nofun, nofun⟩

end TypedWrappers

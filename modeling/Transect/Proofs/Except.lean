import Mathlib.Tactic

/-!
# Taking computations apart

A computation that can fail gives a result if all of its steps do, and an error if one of them does
and those before it do not.
-/

namespace Transect

variable {ε ε' α β : Type} {x : Except ε α} {f : α → Except ε β} {g : α → β} {k : ε → ε'}

theorem bind_eq_ok {b : β} : x >>= f = .ok b ↔ ∃ a, x = .ok a ∧ f a = .ok b := by
  cases x <;> simp [bind, Except.bind]

theorem bind_eq_error {cause : ε} :
    x >>= f = .error cause ↔ x = .error cause ∨ ∃ a, x = .ok a ∧ f a = .error cause := by
  cases x <;> simp [bind, Except.bind]

theorem pure_eq_ok {a b : α} : (pure a : Except ε α) = .ok b ↔ a = b := by
  simp [pure, Except.pure]

theorem map_eq_ok {b : β} : x.map g = .ok b ↔ ∃ a, x = .ok a ∧ g a = b := by
  cases x <;> simp [Except.map]

theorem map_eq_error {cause : ε} : x.map g = .error cause ↔ x = .error cause := by
  cases x <;> simp [Except.map]

theorem mapError_eq_ok {a : α} : x.mapError k = .ok a ↔ x = .ok a := by
  cases x <;> simp [Except.mapError]

theorem toOption_eq_some {a : α} : x.toOption = some a ↔ x = .ok a := by
  cases x <;> simp [Except.toOption]

/-- The elements are worked on in turn, up to the first failure. -/
theorem mapM_eq_error_iff {xs : List α} {cause : ε} :
    xs.mapM f = .error cause ↔
      ∃ front a back, xs = front ++ a :: back ∧ (∀ b ∈ front, ∃ c, f b = .ok c) ∧
        f a = .error cause := by
  induction xs with
  | nil => simp [pure, Except.pure]
  | cons a xs ih =>
    rw [List.mapM_cons, bind_eq_error]
    constructor
    · rintro (ha | ⟨b, hb, h⟩)
      · exact ⟨[], a, xs, rfl, by simp, ha⟩
      · rcases bind_eq_error.1 h with h | ⟨bs, -, h⟩
        · obtain ⟨front, a', back, rfl, hfront, ha'⟩ := ih.1 h
          exact ⟨a :: front, a', back, rfl, List.forall_mem_cons.2 ⟨⟨b, hb⟩, hfront⟩, ha'⟩
        · cases h
    · rintro ⟨front, a', back, hxs, hfront, ha'⟩
      cases front with
      | nil =>
        cases hxs
        exact .inl ha'
      | cons b front =>
        cases hxs
        obtain ⟨⟨c, hc⟩, hfront⟩ := List.forall_mem_cons.1 hfront
        exact .inr ⟨c, hc, bind_eq_error.2 (.inl (ih.2 ⟨front, a', back, rfl, hfront, ha'⟩))⟩

/-- An error of a fold is the error of one of its steps. -/
theorem exists_of_foldlM_eq_error {f : β → α → Except ε β} {xs : List α} {b : β} {cause : ε}
    (h : xs.foldlM f b = .error cause) : ∃ b', ∃ a ∈ xs, f b' a = .error cause := by
  induction xs generalizing b with
  | nil => cases h
  | cons a xs ih =>
    rcases bind_eq_error.1 h with h | ⟨next, -, h⟩
    · exact ⟨b, a, List.mem_cons_self, h⟩
    · obtain ⟨b', a', ha', hstep⟩ := ih h
      exact ⟨b', a', List.mem_cons_of_mem _ ha', hstep⟩

theorem mapM_eq_ok_iff {xs : List α} {ys : List β} :
    xs.mapM f = .ok ys ↔ List.Forall₂ (fun a b => f a = .ok b) xs ys := by
  induction xs generalizing ys with
  | nil => simp [pure, Except.pure, eq_comm]
  | cons a xs ih =>
    rw [List.mapM_cons, bind_eq_ok, List.forall₂_cons_left_iff]
    constructor
    · rintro ⟨b, hb, h⟩
      obtain ⟨bs, hbs, h⟩ := bind_eq_ok.1 h
      exact ⟨b, bs, hb, ih.1 hbs, (pure_eq_ok.1 h).symm⟩
    · rintro ⟨b, bs, hb, hbs, rfl⟩
      exact ⟨b, hb, bind_eq_ok.2 ⟨bs, ih.2 hbs, rfl⟩⟩

theorem exists_of_mapM_eq_ok {xs : List α} {ys : List β} (h : xs.mapM f = .ok ys) {a : α}
    (ha : a ∈ xs) : ∃ b, f a = .ok b := by
  have hall := mapM_eq_ok_iff.1 h
  clear h
  induction hall with
  | nil => cases ha
  | cons hhead _ ih =>
    rcases List.mem_cons.1 ha with rfl | ha
    · exact ⟨_, hhead⟩
    · exact ih ha

theorem mapM_eq_ok {xs : List α} (h : ∀ a ∈ xs, f a = .ok (g a)) :
    xs.mapM f = .ok (xs.map g) :=
  mapM_eq_ok_iff.2 (List.forall₂_map_right_iff.2 (List.forall₂_same.2 h))

theorem mapM_congr {f' : α → Except ε β} {xs : List α} (h : ∀ a ∈ xs, f a = f' a) :
    xs.mapM f = xs.mapM f' := by
  induction xs with
  | nil => rfl
  | cons a xs ih =>
    obtain ⟨ha, hxs⟩ := List.forall_mem_cons.1 h
    rw [List.mapM_cons, List.mapM_cons, ha, ih hxs]

/-- If something fails, one of the failures is found. -/
theorem mapM_eq_error {xs : List α} (h : ∃ a ∈ xs, ∃ cause, f a = .error cause) :
    ∃ a ∈ xs, ∃ cause, f a = .error cause ∧ xs.mapM f = .error cause := by
  cases hxs : xs.mapM f with
  | ok ys =>
    obtain ⟨a, ha, cause, hcause⟩ := h
    obtain ⟨b, hb⟩ := exists_of_mapM_eq_ok hxs ha
    simp [hcause] at hb
  | error cause =>
    obtain ⟨front, a, back, rfl, -, ha⟩ := mapM_eq_error_iff.1 hxs
    exact ⟨a, by simp, cause, ha, rfl⟩

end Transect

import Mathlib

/-!
# Results that may be errors

When a composed computation gives a value: each of its parts does. When it is an error: one of
its parts is, and those before it give values. The statements are equivalences, so they take an
evaluation apart and put one together.
-/

namespace Except

variable {ε ε' α β : Type}

theorem ok_bind (a : α) (f : α → Except ε β) : (.ok a : Except ε α) >>= f = f a := rfl

theorem bind_eq_ok_iff {r : Except ε α} {f : α → Except ε β} {b : β} :
    r >>= f = .ok b ↔ ∃ a, r = .ok a ∧ f a = .ok b := by
  cases r with
  | error e =>
      constructor
      · intro h
        cases h
      · rintro ⟨a, h, _⟩
        cases h
  | ok a =>
      constructor
      · intro h
        exact ⟨a, rfl, h⟩
      · rintro ⟨a', ha, h⟩
        cases ha
        exact h

theorem bind_eq_error_iff {r : Except ε α} {f : α → Except ε β} {e : ε} :
    r >>= f = .error e ↔ r = .error e ∨ ∃ a, r = .ok a ∧ f a = .error e := by
  cases r with
  | error e' =>
      constructor
      · intro h
        cases h
        exact .inl rfl
      · rintro (h | ⟨a, h, _⟩)
        · cases h
          rfl
        · cases h
  | ok a =>
      constructor
      · intro h
        exact .inr ⟨a, rfl, h⟩
      · rintro (h | ⟨a', ha, h⟩)
        · cases h
        · cases ha
          exact h

theorem map_eq_ok_iff {r : Except ε α} {f : α → β} {b : β} :
    r.map f = .ok b ↔ ∃ a, r = .ok a ∧ f a = b := by
  cases r with
  | error e => simp [Except.map]
  | ok a => simp [Except.map]

theorem map_eq_error_iff {r : Except ε α} {f : α → β} {e : ε} :
    r.map f = .error e ↔ r = .error e := by
  cases r with
  | error e' => simp [Except.map]
  | ok a => simp [Except.map]

theorem map_map {γ : Type} (r : Except ε α) (f : α → β) (g : β → γ) :
    (r.map f).map g = r.map (g ∘ f) := by
  cases r with
  | error e => rfl
  | ok a => rfl

theorem mapError_eq_ok_iff {r : Except ε α} {f : ε → ε'} {a : α} :
    r.mapError f = .ok a ↔ r = .ok a := by
  cases r with
  | error e => simp [Except.mapError]
  | ok a => simp [Except.mapError]

theorem mapError_eq_error_iff {r : Except ε α} {f : ε → ε'} {e : ε'} :
    r.mapError f = .error e ↔ ∃ e', r = .error e' ∧ f e' = e := by
  cases r with
  | error e' => simp [Except.mapError]
  | ok a => simp [Except.mapError]

/-- A list is computed item by item if every item is. -/
theorem mapM_map_eq_ok {f : α → Except ε β} {g : β → α} {ys : List β}
    (h : ∀ y ∈ ys, f (g y) = .ok y) : (ys.map g).mapM f = .ok ys := by
  induction ys with
  | nil => rfl
  | cons y ys ih =>
      rw [List.forall_mem_cons] at h
      rw [List.map_cons, List.mapM_cons]
      exact bind_eq_ok_iff.2 ⟨y, h.1, bind_eq_ok_iff.2 ⟨ys, ih h.2, rfl⟩⟩

/-- A list that was computed item by item has the value of each item at its place. -/
theorem forall₂_of_mapM_eq_ok {f : α → Except ε β} {xs : List α} {ys : List β}
    (h : xs.mapM f = .ok ys) : List.Forall₂ (fun x y => f x = .ok y) xs ys := by
  induction xs generalizing ys with
  | nil =>
      cases h
      exact .nil
  | cons x xs ih =>
      rw [List.mapM_cons] at h
      obtain ⟨z, hz, h⟩ := bind_eq_ok_iff.1 h
      obtain ⟨zs, hzs, h⟩ := bind_eq_ok_iff.1 h
      cases h
      exact .cons hz (ih hzs)

theorem mapM_eq_ok_iff {f : α → Except ε β} {xs : List α} {ys : List β} :
    xs.mapM f = .ok ys ↔ List.Forall₂ (fun x y => f x = .ok y) xs ys := by
  constructor
  · exact forall₂_of_mapM_eq_ok
  · intro h
    induction h with
    | nil => rfl
    | cons hx _ ih =>
        rw [List.mapM_cons]
        exact bind_eq_ok_iff.2 ⟨_, hx, bind_eq_ok_iff.2 ⟨_, ih, rfl⟩⟩

/-- Every item of a list that was computed item by item is the value of an item. -/
theorem exists_mem_of_mapM_eq_ok {f : α → Except ε β} {xs : List α} {ys : List β}
    (h : xs.mapM f = .ok ys) {y : β} (hy : y ∈ ys) : ∃ x ∈ xs, f x = .ok y := by
  obtain ⟨hlength, hzip⟩ := List.forall₂_iff_zip.1 (forall₂_of_mapM_eq_ok h)
  rw [← List.map_snd_zip (Nat.le_of_eq hlength.symm), List.mem_map] at hy
  obtain ⟨⟨x, y⟩, hmem, rfl⟩ := hy
  exact ⟨x, (List.of_mem_zip hmem).1, hzip hmem⟩

/-- Every item of a list that was computed item by item has a value in it. -/
theorem exists_of_mem_of_mapM_eq_ok {f : α → Except ε β} {xs : List α} {ys : List β}
    (h : xs.mapM f = .ok ys) {x : α} (hx : x ∈ xs) : ∃ y ∈ ys, f x = .ok y := by
  obtain ⟨hlength, hzip⟩ := List.forall₂_iff_zip.1 (forall₂_of_mapM_eq_ok h)
  rw [← List.map_fst_zip (Nat.le_of_eq hlength), List.mem_map] at hx
  obtain ⟨⟨x, y⟩, hmem, rfl⟩ := hx
  exact ⟨y, (List.of_mem_zip hmem).2, hzip hmem⟩

/-- A list that was computed item by item fails at one of its items. -/
theorem exists_mem_of_mapM_eq_error {f : α → Except ε β} {xs : List α} {e : ε}
    (h : xs.mapM f = .error e) : ∃ x ∈ xs, f x = .error e := by
  induction xs with
  | nil => cases h
  | cons x xs ih =>
      rw [List.mapM_cons] at h
      rcases bind_eq_error_iff.1 h with h | ⟨y, -, h⟩
      · exact ⟨x, List.mem_cons_self, h⟩
      · rcases bind_eq_error_iff.1 h with h | ⟨ys, -, h⟩
        · obtain ⟨x', hx', hf⟩ := ih h
          exact ⟨x', List.mem_cons_of_mem x hx', hf⟩
        · cases h

/-- A computation that goes through a list fails at one of its items. -/
theorem exists_mem_of_foldlM_eq_error {f : β → α → Except ε β} {xs : List α} {b : β} {e : ε}
    (h : xs.foldlM f b = .error e) : ∃ x ∈ xs, ∃ c, f c x = .error e := by
  induction xs generalizing b with
  | nil => cases h
  | cons x xs ih =>
      rw [List.foldlM_cons] at h
      rcases bind_eq_error_iff.1 h with h | ⟨c, -, h⟩
      · exact ⟨x, List.mem_cons_self, b, h⟩
      · obtain ⟨x', hx', c', hf⟩ := ih h
        exact ⟨x', List.mem_cons_of_mem x hx', c', hf⟩

/-- A computation that goes through a list fails at an item if it gets through the first items
and fails at the next one. -/
theorem foldlM_eq_error_iff {f : β → α → Except ε β} {xs : List α} {b : β} {e : ε} :
    xs.foldlM f b = .error e ↔
      ∃ k x c, (xs.take k).foldlM f b = .ok c ∧ xs[k]? = some x ∧ f c x = .error e := by
  induction xs generalizing b with
  | nil =>
      constructor
      · intro h
        cases h
      · rintro ⟨k, x, c, -, hx, -⟩
        cases hx
  | cons x xs ih =>
      rw [List.foldlM_cons, bind_eq_error_iff]
      constructor
      · rintro (h | ⟨c, hc, h⟩)
        · exact ⟨0, x, b, rfl, rfl, h⟩
        · obtain ⟨k, y, d, hd, hy, h⟩ := ih.1 h
          refine ⟨k + 1, y, d, ?_, hy, h⟩
          rw [List.take_succ_cons, List.foldlM_cons]
          exact bind_eq_ok_iff.2 ⟨c, hc, hd⟩
      · rintro ⟨k, y, d, hd, hy, h⟩
        cases k with
        | zero =>
            cases hd
            cases hy
            exact .inl h
        | succ k =>
            rw [List.take_succ_cons, List.foldlM_cons] at hd
            obtain ⟨c, hc, hd⟩ := bind_eq_ok_iff.1 hd
            exact .inr ⟨c, hc, ih.2 ⟨k, y, d, hd, hy, h⟩⟩

/-- Behind an item at which it fails a computation gets nowhere. -/
theorem le_of_foldlM_take_eq_ok {f : β → α → Except ε β} {xs : List α} {b c c' : β} {x : α} {e : ε}
    {k k' : Nat} (hc : (xs.take k).foldlM f b = .ok c) (hx : xs[k]? = some x)
    (h : f c x = .error e) (hc' : (xs.take k').foldlM f b = .ok c') : k' ≤ k := by
  by_contra! hlt
  have herror : (xs.take k').foldlM f b = .error e := by
    refine foldlM_eq_error_iff.2 ⟨k, x, c, ?_, ?_, h⟩
    · rw [List.take_take, Nat.min_eq_left hlt.le, hc]
    · rw [List.getElem?_take_of_lt hlt, hx]
  cases hc'.symm.trans herror

end Except

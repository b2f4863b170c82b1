import Mathlib.Data.List.Basic

/-!
# Results and lists of results

A step gives a result or an error. Of a list of steps all have to give results, and the first that
does not decides what the error is.
-/
namespace CommandTemplate

section
variable {α β ε : Type} {f : α → Except ε β}

/-! ## One result -/

@[simp] theorem map_ok (g : α → β) (a : α) : (Except.ok a : Except ε α).map g = .ok (g a) := rfl
@[simp] theorem map_error (g : α → β) (e : ε) : (Except.error e).map g = .error e := rfl

@[simp] theorem bind_ok (a : α) : (Except.ok a).bind f = f a := rfl
@[simp] theorem bind_error (e : ε) : (Except.error e).bind f = .error e := rfl

@[simp] theorem ok_bind (a : α) : Except.ok a >>= f = f a := rfl
@[simp] theorem error_bind (e : ε) : Except.error e >>= f = .error e := rfl

@[simp] theorem pure_eq_ok (a : α) : (pure a : Except ε α) = .ok a := rfl

@[simp] theorem bind_self (x : Except ε α) : (x >>= fun a => .ok a) = x := by cases x <;> rfl

theorem map_eq_ok_iff {x : Except ε α} {g : α → β} {b : β} :
    x.map g = .ok b ↔ ∃ a, x = .ok a ∧ g a = b := by
  cases x <;> simp

theorem exists_map_eq_ok_iff {x : Except ε α} {g : α → β} :
    (∃ b, x.map g = .ok b) ↔ ∃ a, x = .ok a := by
  cases x <;> simp

theorem map_eq_error_iff {x : Except ε α} {g : α → β} {e : ε} :
    x.map g = .error e ↔ x = .error e := by
  cases x <;> simp

theorem bind_eq_ok_iff {x : Except ε α} {f : α → Except ε β} {b : β} :
    x >>= f = .ok b ↔ ∃ a, x = .ok a ∧ f a = .ok b := by
  cases x <;> simp

/-! ## The first error of a list -/

/-- A traversal succeeds if every one of its steps does. -/
theorem exists_mapM_eq_ok_iff {xs : List α} :
    (∃ ys, xs.mapM f = .ok ys) ↔ ∀ x ∈ xs, ∃ y, f x = .ok y := by
  induction xs with
  | nil => simp
  | cons x xs ih =>
    rw [List.forall_mem_cons, ← ih, List.mapM_cons]
    cases hx : f x with
    | error e => simp
    | ok y =>
      cases hxs : xs.mapM f with
      | error e => simp
      | ok ys => simp

theorem mem_of_mapM_eq_ok {xs : List α} {ys : List β} (h : xs.mapM f = .ok ys) {y : β}
    (hy : y ∈ ys) : ∃ x ∈ xs, f x = .ok y := by
  induction xs generalizing ys with
  | nil =>
    obtain rfl := Except.ok.inj h
    cases hy
  | cons x xs ih =>
    rw [List.mapM_cons] at h
    obtain ⟨z, hx, hrest⟩ := bind_eq_ok_iff.1 h
    obtain ⟨zs, hzs, hlast⟩ := bind_eq_ok_iff.1 hrest
    obtain rfl := Except.ok.inj hlast
    rcases List.mem_cons.1 hy with rfl | hy
    · exact ⟨x, List.mem_cons_self .., hx⟩
    · obtain ⟨w, hw, hf⟩ := ih hzs hy
      exact ⟨w, List.mem_cons_of_mem _ hw, hf⟩

theorem mapM_eq_ok_map {g : α → β} {xs : List α} (h : ∀ x ∈ xs, f x = .ok (g x)) :
    xs.mapM f = .ok (xs.map g) := by
  induction xs with
  | nil => rfl
  | cons x xs ih =>
    obtain ⟨hx, hxs⟩ := List.forall_mem_cons.1 h
    rw [List.mapM_cons, hx, ih hxs]
    rfl

/-- The first step that fails decides the error. -/
theorem mapM_cons_eq_error_iff {x : α} {xs : List α} {e : ε} :
    (x :: xs).mapM f = .error e ↔ f x = .error e ∨ (∃ y, f x = .ok y) ∧ xs.mapM f = .error e := by
  rw [List.mapM_cons]
  cases f x with
  | error e' => simp
  | ok y => cases xs.mapM f <;> simp

/-- Whatever comes behind the first failing element is not looked at. -/
theorem mapM_eq_error_iff {xs : List α} {e : ε} :
    xs.mapM f = .error e ↔ ∃ before x after, xs = before ++ x :: after ∧
      (∀ y ∈ before, ∃ b, f y = .ok b) ∧ f x = .error e := by
  induction xs with
  | nil => simp
  | cons x xs ih =>
    rw [mapM_cons_eq_error_iff, ih]
    constructor
    · rintro (hx | ⟨hx, before, z, after, rfl, hbefore, hz⟩)
      · exact ⟨[], x, xs, rfl, by simp, hx⟩
      · exact ⟨x :: before, z, after, rfl, List.forall_mem_cons.2 ⟨hx, hbefore⟩, hz⟩
    · rintro ⟨before, z, after, hsplit, hbefore, hz⟩
      cases before with
      | nil =>
        obtain ⟨rfl, -⟩ := List.cons.inj hsplit
        exact .inl hz
      | cons y before =>
        obtain ⟨rfl, rfl⟩ := List.cons.inj hsplit
        obtain ⟨hx, hbefore⟩ := List.forall_mem_cons.1 hbefore
        exact .inr ⟨hx, before, z, after, rfl, hbefore, hz⟩

/-- The same by places. -/
theorem mapM_eq_error_iff_getElem? {xs : List α} {e : ε} :
    xs.mapM f = .error e ↔ ∃ (i : Nat) (x : α), xs[i]? = some x ∧ f x = .error e ∧
      ∀ j < i, ∀ y, xs[j]? = some y → ∃ b, f y = .ok b := by
  induction xs with
  | nil => simp
  | cons x xs ih =>
    rw [mapM_cons_eq_error_iff, ih]
    constructor
    · rintro (hx | ⟨hx, i, z, hz, herror, hbefore⟩)
      · exact ⟨0, x, rfl, hx, by simp⟩
      · refine ⟨i + 1, z, by simpa using hz, herror, fun j hj y hy => ?_⟩
        cases j with
        | zero =>
          obtain rfl : x = y := by simpa using hy
          exact hx
        | succ j => exact hbefore j (Nat.lt_of_succ_lt_succ hj) y (by simpa using hy)
    · rintro ⟨i, z, hz, herror, hbefore⟩
      cases i with
      | zero =>
        obtain rfl : x = z := by simpa using hz
        exact .inl herror
      | succ i =>
        refine .inr ⟨hbefore 0 (Nat.succ_pos i) x rfl, i, z, by simpa using hz, herror, ?_⟩
        exact fun j hj y hy => hbefore (j + 1) (Nat.succ_lt_succ hj) y (by simpa using hy)

theorem mapM_id_eq_ok_iff {xs : List (Except ε α)} {ys : List α} :
    xs.mapM id = .ok ys ↔ xs = ys.map .ok := by
  constructor
  · intro h
    induction xs generalizing ys with
    | nil =>
      obtain rfl := Except.ok.inj h
      rfl
    | cons x xs ih =>
      rw [List.mapM_cons] at h
      obtain ⟨y, rfl, hrest⟩ := bind_eq_ok_iff.1 h
      obtain ⟨zs, hzs, hlast⟩ := bind_eq_ok_iff.1 hrest
      obtain rfl := Except.ok.inj hlast
      rw [ih hzs]
      rfl
  · rintro rfl
    induction ys with
    | nil => rfl
    | cons y ys ih =>
      rw [List.map_cons, List.mapM_cons, ih]
      rfl

theorem forM_eq_mapM (f : α → Except ε Unit) (xs : List α) :
    xs.forM f = (xs.mapM f).map fun _ => () := by
  induction xs with
  | nil => rfl
  | cons x xs ih =>
    rw [List.forM_eq_forM] at ih ⊢
    rw [List.forM_cons, List.mapM_cons, ih]
    cases f x with
    | error e => rfl
    | ok y => cases xs.mapM f <;> rfl

end

end CommandTemplate

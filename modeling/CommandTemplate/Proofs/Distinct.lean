import CommandTemplate.Resolution
import Mathlib.Data.List.Induction
import Mathlib.Data.List.Nodup

/-!
# Each element once

Of equal elements the first is kept, so that what is left is in the order in which the elements
first occur. An element at a time is added unless it is there; repeats that are removed before
make no difference.
-/
namespace CommandTemplate

variable {α : Type} [BEq α]

def keepNew (seen : List α) (x : α) : List α := if seen.contains x then seen else seen ++ [x]

theorem distinct_eq_foldl (xs : List α) : distinct xs = xs.foldl keepNew [] := rfl

theorem distinct_concat (xs : List α) (x : α) : distinct (xs ++ [x]) = keepNew (distinct xs) x := by
  rw [distinct_eq_foldl, List.foldl_append, ← distinct_eq_foldl]
  rfl

/-! ## The order of first occurrences -/

/-- One list has the elements of the other, each once, in the order of their first occurrences. -/
structure FirstOnly (xs ys : List α) : Prop where
  nodup : ys.Nodup
  mem_iff : ∀ x, x ∈ ys ↔ x ∈ xs
  inOrder : ys.Pairwise fun x y => xs.idxOf x < xs.idxOf y

/-- Elements in the order of their first occurrences are there once each. -/
theorem FirstOnly.of_inOrder {xs ys : List α} (hmem : ∀ x, x ∈ ys ↔ x ∈ xs)
    (horder : ys.Pairwise fun x y => xs.idxOf x < xs.idxOf y) : FirstOnly xs ys where
  nodup := by
    refine horder.imp fun {x y} hlt => ?_
    rintro rfl
    exact Nat.lt_irrefl _ hlt
  mem_iff := hmem
  inOrder := horder

/-- There is only one such list. -/
theorem FirstOnly.unique {xs ys zs : List α} (hy : FirstOnly xs ys) (hz : FirstOnly xs zs) :
    ys = zs := by
  have hperm : ys.Perm zs := (List.perm_ext_iff_of_nodup hy.nodup hz.nodup).2 fun x =>
    (hy.mem_iff x).trans (hz.mem_iff x).symm
  refine List.Perm.eq_of_pairwise (fun a b _ _ hab hba => ?_) hy.inOrder hz.inOrder hperm
  exact absurd hab (Nat.lt_asymm hba)

variable [LawfulBEq α]

/-! ## One more element -/

theorem keepNew_of_mem {seen : List α} {x : α} (h : x ∈ seen) : keepNew seen x = seen :=
  if_pos (List.contains_iff_mem.2 h)

theorem keepNew_of_not_mem {seen : List α} {x : α} (h : x ∉ seen) : keepNew seen x = seen ++ [x] :=
  if_neg (mt List.contains_iff_mem.1 h)

theorem mem_keepNew {seen : List α} {a x : α} : a ∈ keepNew seen x ↔ a ∈ seen ∨ a = x := by
  by_cases hx : x ∈ seen
  · rw [keepNew_of_mem hx]
    exact ⟨.inl, fun ha => ha.elim id fun heq => heq ▸ hx⟩
  · rw [keepNew_of_not_mem hx, List.mem_append, List.mem_singleton]

/-- The order is kept: a repeat has its place, and a new element comes last. -/
theorem FirstOnly.append_keepNew {xs ys : List α} (h : FirstOnly xs ys) (x : α) :
    FirstOnly (xs ++ [x]) (keepNew ys x) := by
  have hmem : ∀ a, a ∈ keepNew ys x ↔ a ∈ xs ++ [x] := by
    intro a
    rw [mem_keepNew, h.mem_iff, List.mem_append, List.mem_singleton]
  have hkept : ys.Pairwise fun a b => (xs ++ [x]).idxOf a < (xs ++ [x]).idxOf b := by
    refine h.inOrder.imp_of_mem fun {a b} ha hb hlt => ?_
    rwa [List.idxOf_append_of_mem ((h.mem_iff a).1 ha),
      List.idxOf_append_of_mem ((h.mem_iff b).1 hb)]
  refine .of_inOrder hmem ?_
  by_cases hx : x ∈ ys
  · rwa [keepNew_of_mem hx]
  · have hnew : x ∉ xs := mt (h.mem_iff x).2 hx
    rw [keepNew_of_not_mem hx]
    refine List.pairwise_append.2 ⟨hkept, List.pairwise_singleton .., ?_⟩
    intro a ha b hb
    obtain rfl := List.mem_singleton.1 hb
    have hold := (h.mem_iff a).1 ha
    rw [List.idxOf_append_of_mem hold, List.idxOf_append_of_notMem hnew]
    exact Nat.lt_add_right _ (List.idxOf_lt_length_iff.2 hold)

/-! ## Whole lists -/

/-- Nothing is lost and nothing else comes in. -/
theorem mem_foldl_keepNew {a : α} (xs seen : List α) :
    a ∈ xs.foldl keepNew seen ↔ a ∈ seen ∨ a ∈ xs := by
  induction xs generalizing seen with
  | nil => simp
  | cons x xs ih => rw [List.foldl_cons, ih, mem_keepNew, List.mem_cons, or_assoc]

theorem firstOnly_distinct (xs : List α) : FirstOnly xs (distinct xs) := by
  induction xs using List.reverseRecOn with
  | nil => exact .of_inOrder (fun _ => .rfl) .nil
  | append_singleton xs x ih =>
    rw [distinct_concat]
    exact ih.append_keepNew x

/-- There is one such list, that of the distinct elements. -/
theorem firstOnly_iff {xs ys : List α} : FirstOnly xs ys ↔ ys = distinct xs :=
  ⟨fun h => h.unique (firstOnly_distinct xs), fun h => h ▸ firstOnly_distinct xs⟩

/-- Nothing is lost when each element is kept once. -/
theorem mem_distinct {a : α} {xs : List α} : a ∈ distinct xs ↔ a ∈ xs :=
  (firstOnly_distinct xs).mem_iff a

/-- What is added of a list does not depend on repeats in the list. -/
theorem foldl_keepNew_distinct (seen xs : List α) :
    (distinct xs).foldl keepNew seen = xs.foldl keepNew seen := by
  induction xs using List.reverseRecOn with
  | nil => rfl
  | append_singleton xs x ih =>
    rw [distinct_concat, List.foldl_append]
    by_cases hx : x ∈ xs
    · -- a repeat is dropped on the left, and on the right it has been seen
      have hseen : x ∈ xs.foldl keepNew seen := (mem_foldl_keepNew xs seen).2 (.inr hx)
      rw [keepNew_of_mem (mem_distinct.2 hx), ih]
      exact (keepNew_of_mem hseen).symm
    · rw [keepNew_of_not_mem (mt mem_distinct.1 hx), List.foldl_append, ih]

end CommandTemplate

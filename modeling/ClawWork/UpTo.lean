import Mathlib.Data.List.Basic

/-!
# A list up to the first element of a kind

`upTo p xs` is `xs` up to its first element of the kind `p`, that element included.
-/

namespace UpTo

variable {α : Type*} {p : α → Bool} {xs ys : List α}

def upTo (p : α → Bool) : List α → List α
  | [] => []
  | x :: xs => if p x then [x] else x :: upTo p xs

theorem upTo_append_of_none (h : ∀ x ∈ xs, p x = false) (ys : List α) : upTo p (xs ++ ys) = xs ++ upTo p ys := by
  induction xs with
  | nil => rfl
  | cons x xs ih =>
    rw [List.forall_mem_cons] at h
    rw [List.cons_append, upTo, if_neg (by simp [h.1]), ih h.2, List.cons_append]

theorem upTo_of_none (h : ∀ x ∈ xs, p x = false) : upTo p xs = xs := by
  have happend := upTo_append_of_none h []
  rwa [List.append_nil, upTo, List.append_nil] at happend

/-- Nothing comes after the first element of the kind. -/
theorem upTo_append_of_mem {x : α} (hx : x ∈ xs) (hp : p x = true) : upTo p (xs ++ ys) = upTo p xs := by
  induction xs with
  | nil => cases hx
  | cons y xs ih =>
    rw [List.cons_append, upTo, upTo]
    by_cases hy : p y = true
    · rw [if_pos hy, if_pos hy]
    · rw [if_neg hy, if_neg hy]
      congr 1
      apply ih
      rcases List.mem_cons.mp hx with rfl | hmem
      · exact absurd hp hy
      · exact hmem

theorem upTo_map {β : Type*} (q : β → Bool) (f : α → β) (xs : List α) :
    upTo q (xs.map f) = (upTo (fun x => q (f x)) xs).map f := by
  induction xs with
  | nil => rfl
  | cons x xs ih =>
    rw [List.map_cons, upTo, upTo, ih]
    split <;> rfl

theorem isPrefix_upTo (p : α → Bool) (xs : List α) : upTo p xs <+: xs := by
  induction xs with
  | nil => exact List.prefix_refl _
  | cons x xs ih =>
    rw [upTo]
    split
    · exact ⟨xs, rfl⟩
    · exact List.cons_prefix_cons.mpr ⟨rfl, ih⟩

end UpTo

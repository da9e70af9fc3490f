import Mathlib.Data.List.Basic
import Mathlib.Data.List.TakeDrop

/-!
# Updates of some elements of a list

An operation may change the elements of a list that are its own. `Frames` says that all other
elements are left in the list as they were, in their order. Each way of changing a list has its rule.
-/

namespace ListFrame

variable {α : Type*} {own : α → Prop} {xs ys zs : List α}

section Frames

variable [DecidablePred own]

/-- Every element that is not the operation's own is left as it was. -/
def Frames (own : α → Prop) [DecidablePred own] (xs ys : List α) : Prop :=
  (xs.filter fun x => ¬ own x).Sublist ys

theorem frames_refl (xs : List α) : Frames own xs xs := List.filter_sublist

/-- Nothing is kept of a list of own elements. -/
theorem frames_of_forall (h : ∀ x ∈ xs, own x) (ys : List α) : Frames own xs ys := by
  have hnone : (xs.filter fun x => ¬ own x) = [] := List.filter_eq_nil_iff.mpr fun x hx => by simpa using h x hx
  rw [Frames, hnone]
  exact List.nil_sublist ys

theorem Frames.filter (h : Frames own xs ys) :
    (xs.filter fun x => ¬ own x).Sublist (ys.filter fun x => ¬ own x) := by
  have hfiltered := List.Sublist.filter (fun x => decide (¬ own x)) h
  rwa [List.filter_filter, funext fun x => Bool.and_self (decide (¬ own x))] at hfiltered

theorem Frames.trans (hxy : Frames own xs ys) (hyz : Frames own ys zs) : Frames own xs zs :=
  hxy.filter.trans hyz

/-- Elements are added at the end. -/
theorem frames_append (xs ys : List α) : Frames own xs (xs ++ ys) :=
  List.filter_sublist.trans (List.sublist_append_left xs ys)

/-- Own elements are left out. -/
theorem frames_filter {keep : α → Bool} (h : ∀ x ∈ xs, keep x = false → own x) : Frames own xs
    (xs.filter keep) := by
  have hkept : (xs.filter fun x => ¬ own x) = (xs.filter keep).filter fun x => ¬ own x := by
    rw [List.filter_filter]
    refine List.filter_congr fun x hx => ?_
    cases hkeep : keep x with
    | true => simp
    | false => simp [h x hx hkeep]
  rw [Frames, hkept]
  exact List.filter_sublist

/-- The first element may be changed by an operation that owns it, and by no other. -/
theorem frames_modifyHead_iff {f : α → α} : Frames own xs (xs.modifyHead f) ↔ ∀ x ∈ xs.head?, own x ∨ f x = x := by
  cases xs with
  | nil => simp [Frames]
  | cons x xs =>
    simp only [List.modifyHead_cons, List.head?_cons, Option.mem_some_iff, forall_eq']
    constructor
    · intro h
      by_cases hx : own x
      · exact .inl hx
      · refine .inr ?_
        -- what is left cannot be longer, so the first element has to be there again
        have hfiltered := h.filter
        have hcons : ((x :: xs).filter fun x => ¬ own x) = x :: xs.filter fun x => ¬ own x :=
          List.filter_cons_of_pos (by simpa using hx)
        rw [hcons] at hfiltered
        by_cases hf : own (f x)
        · rw [List.filter_cons_of_neg (by simpa using hf)] at hfiltered
          exact absurd hfiltered.length_le (Nat.not_succ_le_self _)
        · rw [List.filter_cons_of_pos (by simpa using hf)] at hfiltered
          exact (List.cons.inj (hfiltered.eq_of_length rfl)).1.symm
    · rintro (hx | hf)
      · rw [Frames, List.filter_cons_of_neg (by simpa using hx)]
        exact List.filter_sublist.trans (List.sublist_cons_self _ _)
      · rw [hf]
        exact frames_refl _

/-- A new own element in place of the first one with a property, which has to be an own one as well. -/
theorem frames_replace_iff {p : α → Bool} {y : α} (hy : own y) :
    Frames own xs (y :: xs.eraseP p) ↔ ∀ x ∈ xs.find? p, own x := by
  constructor
  · intro h x hx
    by_contra hown
    obtain ⟨before, after, hxs, hbefore⟩ := (List.find?_eq_some_iff_append.mp hx).2
    have hfiltered := (h.filter).length_le
    have herase : xs.eraseP p = before ++ after := by
      rw [hxs, List.eraseP_append_right _ (by simpa using hbefore),
        List.eraseP_cons_of_pos (List.find?_some hx)]
    rw [herase, List.filter_cons_of_neg (by simpa using hy), hxs, List.filter_append, List.filter_append,
      List.filter_cons_of_pos (by simpa using hown)] at hfiltered
    simp only [List.length_append, List.length_cons] at hfiltered
    omega
  · intro h
    have herase : Frames own xs (xs.eraseP p) := by
      cases hfind : xs.find? p with
      | none =>
        rw [List.eraseP_of_forall_not fun x hx => by simpa using List.find?_eq_none.mp hfind x hx]
        exact frames_refl xs
      | some x =>
        obtain ⟨before, after, hxs, hbefore⟩ := (List.find?_eq_some_iff_append.mp hfind).2
        rw [hxs, List.eraseP_append_right _ (by simpa using hbefore),
          List.eraseP_cons_of_pos (List.find?_some hfind), Frames, List.filter_append,
          List.filter_cons_of_neg (by simpa using h x hfind)]
        exact List.filter_sublist.append List.filter_sublist
    exact List.Sublist.cons y herase

end Frames

end ListFrame

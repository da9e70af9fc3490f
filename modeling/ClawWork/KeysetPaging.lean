import Mathlib.Data.List.Basic

/-!
# Paging by the last element

A page holds the first elements of what comes after the last element of the page before it, and
there is a next page as long as something is left over. Over a strictly sorted list the pages are
the list cut into pieces.
-/

namespace KeysetPaging

variable {α : Type*} {before : α → α → Prop} [DecidableRel before] {limit : Nat} {xs rest : List α} {a : α}

/-- What comes after an element, or everything. -/
def after (before : α → α → Prop) [DecidableRel before] (xs : List α) : Option α → List α
  | none => xs
  | some a => xs.filter fun x => before a x

/-- The pages that follow one another from an element on. -/
inductive Pages (before : α → α → Prop) [DecidableRel before] (limit : Nat) (xs : List α) :
    Option α → List (List α) → Prop where
  | last {start : Option α} (hend : (after before xs start).length ≤ limit) :
      Pages before limit xs start [after before xs start]
  | more {start : Option α} {a : α} {pages : List (List α)} (hmore : limit < (after before xs start).length)
      (hlast : ((after before xs start).take limit).getLast? = some a)
      (hpages : Pages before limit xs (some a) pages) :
      Pages before limit xs start ((after before xs start).take limit :: pages)

/-- What comes after an element is the rest of the list. -/
theorem after_mid (hasymm : ∀ a b, before a b → ¬ before b a) {pre : List α}
    (hsorted : (pre ++ a :: rest).Pairwise before) : after before (pre ++ a :: rest) (some a) = rest := by
  obtain ⟨-, hrest, hbetween⟩ := List.pairwise_append.mp hsorted
  have hpre : (pre.filter fun x => before a x) = [] :=
    List.filter_eq_nil_iff.mpr fun x hx => by simpa using hasymm x a (hbetween x hx a List.mem_cons_self)
  have hself : ¬ before a a := fun h => hasymm a a h h
  have hafter : (rest.filter fun x => before a x) = rest :=
    List.filter_eq_self.mpr fun x hx => by simpa using List.rel_of_pairwise_cons hrest hx
  rw [after, List.filter_append, hpre, List.nil_append, List.filter_cons_of_neg (by simpa using hself), hafter]

omit [DecidableRel before] in
/-- What is listed is in the page, or the page is full and ends before it. -/
theorem mem_take_or_before {x : α} (hsorted : xs.Pairwise before) (hlimit : 1 ≤ limit) (h : x ∈ xs) :
    x ∈ xs.take limit ∨ limit < xs.length ∧ ∃ a, (xs.take limit).getLast? = some a ∧ before a x := by
  rw [← List.take_append_drop limit xs, List.mem_append] at h
  refine h.imp_right fun hdrop => ?_
  have hlength : limit < xs.length := by
    have hpos := List.length_pos_of_mem hdrop
    rw [List.length_drop] at hpos
    omega
  have hne : xs.take limit ≠ [] := by
    intro hnil
    have hzero := congrArg List.length hnil
    rw [List.length_take, List.length_nil] at hzero
    omega
  refine ⟨hlength, _, List.getLast?_eq_some_getLast hne, ?_⟩
  rw [← List.take_append_drop limit xs] at hsorted
  exact (List.pairwise_append.mp hsorted).2.2 _ (List.getLast_mem hne) x hdrop

/-- From every place in the list on, there are pages, and they are the rest of the list in full pieces. -/
theorem exists_pages_from (hasymm : ∀ a b, before a b → ¬ before b a) (hlimit : 1 ≤ limit)
    (hsorted : xs.Pairwise before) (pre : List α) (hxs : xs = pre ++ rest) {start : Option α}
    (hstart : after before xs start = rest) :
    ∃ pages, Pages before limit xs start pages ∧ pages.flatten = rest ∧
      ∀ page ∈ pages.dropLast, page.length = limit := by
  induction hlength : rest.length using Nat.strongRecOn generalizing rest pre start with
  | ind n ih =>
    by_cases hend : rest.length ≤ limit
    · refine ⟨[rest], ?_, by simp, fun page hpage => by cases hpage⟩
      rw [← hstart]
      exact .last (by rw [hstart]; exact hend)
    · have hmore : limit < rest.length := Nat.lt_of_not_le hend
      have hne : rest.take limit ≠ [] := by
        intro hnil
        have hlen := congrArg List.length hnil
        rw [List.length_take, Nat.min_eq_left (Nat.le_of_lt hmore)] at hlen
        exact absurd hlen (by simpa using Nat.ne_of_gt hlimit)
      -- the page ends with `a`, and the next one starts after it
      obtain ⟨init, a, hpage⟩ : ∃ init a, rest.take limit = init ++ [a] :=
        ⟨_, _, (List.dropLast_append_getLast hne).symm⟩
      have hsplit : xs = (pre ++ init) ++ a :: rest.drop limit := by
        rw [hxs, List.append_assoc, ← List.singleton_append, ← List.append_assoc init, ← hpage,
          List.take_append_drop]
      have hnext : after before xs (some a) = rest.drop limit := by
        rw [hsplit]
        exact after_mid hasymm (hsplit ▸ hsorted)
      obtain ⟨pages, hpages, hflatten, hfull⟩ := ih (rest.drop limit).length
        (by rw [List.length_drop]; omega) (pre ++ init ++ [a]) (by rw [hsplit]; simp) hnext rfl
      refine ⟨rest.take limit :: pages, ?_, ?_, ?_⟩
      · rw [← hstart] at hmore hpage ⊢
        exact .more hmore (by rw [hpage, List.getLast?_concat]) hpages
      · rw [List.flatten_cons, hflatten, List.take_append_drop]
      · have hpages' : pages ≠ [] := by
          cases hpages <;> exact List.cons_ne_nil _ _
        rw [List.dropLast_cons_of_ne_nil hpages']
        refine List.forall_mem_cons.mpr ⟨?_, hfull⟩
        rw [List.length_take, Nat.min_eq_left (Nat.le_of_lt hmore)]

/-- Over a strictly sorted list the pages are the list in full pieces, the last one apart. -/
theorem exists_pages (hasymm : ∀ a b, before a b → ¬ before b a) (hlimit : 1 ≤ limit)
    (hsorted : xs.Pairwise before) : ∃ pages, Pages before limit xs none pages ∧ pages.flatten = xs ∧
      ∀ page ∈ pages.dropLast, page.length = limit :=
  exists_pages_from hasymm hlimit hsorted [] rfl rfl

end KeysetPaging

import Mathlib.Data.List.Basic

/-!
# Delivery of a numbered log with gaps closed by replay

A producer numbers its items from one on; a consumer takes them in turn, passes
over what it has, and keeps the number `k` of the last one taken. `Feeds` says
that what is on the way to it leaves no gap behind `k`: the consumer then never
takes anything but the next item, whatever it receives twice.
-/

namespace SequencedDelivery

/-- The numbers on the way run on up to `next`, from at most one past `k`. -/
def Feeds (k next : Nat) (ids : List Nat) : Prop :=
  ∃ n ≤ k + 1, n + ids.length = next ∧ ids = List.range' n ids.length

variable {k next i : Nat} {ids : List Nat}

theorem feeds_nil (h : next ≤ k + 1) : Feeds k next [] := ⟨next, h, rfl, rfl⟩

theorem feeds_range' {n m : Nat} (h : n ≤ k + 1) : Feeds k (n + m) (List.range' n m) :=
  ⟨n, h, by rw [List.length_range'], by rw [List.length_range']⟩

theorem Feeds.mono (h : Feeds k next ids) {k' : Nat} (hk : k ≤ k') : Feeds k' next ids := by
  obtain ⟨n, hn, hnext, hids⟩ := h
  exact ⟨n, by omega, hnext, hids⟩

theorem Feeds.head_le (h : Feeds k next (i :: ids)) : i ≤ k + 1 := by
  obtain ⟨n, hn, -, hids⟩ := h
  rw [List.length_cons, List.range'_succ, List.cons.injEq] at hids
  omega

/-- The first item has been looked at: it was there already, or it is the one taken now. -/
theorem Feeds.tail (h : Feeds k next (i :: ids)) : Feeds (max k i) next ids := by
  obtain ⟨n, hn, hnext, hids⟩ := h
  rw [List.length_cons, List.range'_succ, List.cons.injEq] at hids
  obtain ⟨hi, hids⟩ := hids
  rw [List.length_cons] at hnext
  exact ⟨n + 1, by omega, by omega, hids⟩

theorem Feeds.tail_old (h : Feeds k next (i :: ids)) (hi : i ≤ k) : Feeds k next ids := by
  have htail := h.tail
  rwa [Nat.max_eq_left hi] at htail

theorem Feeds.tail_next (h : Feeds k next ((k + 1) :: ids)) : Feeds (k + 1) next ids := by
  have htail := h.tail
  rwa [Nat.max_eq_right (Nat.le_succ k)] at htail

/-- The producer adds the item that comes next. -/
theorem Feeds.push (h : Feeds k next ids) : Feeds k (next + 1) (ids ++ [next]) := by
  obtain ⟨n, hn, hnext, hids⟩ := h
  refine ⟨n, hn, by rw [List.length_append, List.length_singleton]; omega, ?_⟩
  rw [List.length_append, List.length_singleton, List.range'_concat, Nat.one_mul, hnext, ← hids]

theorem filter_range'_of_lt {c n m : Nat} (h : c < n) :
    (List.range' n m).filter (fun i => c < i) = List.range' n m := by
  rw [List.filter_eq_self]
  intro i hi
  rw [List.mem_range'_1] at hi
  exact decide_eq_true (by omega)

/-- A replay after `c` gives what the history holds beyond `c`. -/
theorem feeds_filter (c n m : Nat) (hc : c ≤ k) (hn : n ≤ k + 1) :
    Feeds k (n + m) ((List.range' n m).filter fun i => c < i) := by
  induction m generalizing n with
  | zero => exact feeds_nil hn
  | succ m ih =>
    by_cases hlt : c < n
    · rw [filter_range'_of_lt hlt]
      exact feeds_range' hn
    · have hdrop : (List.range' n (m + 1)).filter (fun i => c < i) =
          (List.range' (n + 1) m).filter fun i => c < i := by
        rw [List.range'_succ, List.filter_cons_of_neg (by simpa using hlt)]
      rw [hdrop, show n + (m + 1) = n + 1 + m by omega]
      exact ih (n + 1) (by omega)

end SequencedDelivery

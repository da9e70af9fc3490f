import Mathlib.Data.List.Count
import Mathlib.Tactic.Ring

/-!
# Fixed windows

Time is cut into windows of one width. What happens at most `limit` times in each of
them happens at most `(m + 1) * limit` times in any stretch as long as `m` windows,
wherever it begins.
-/

namespace FixedWindows

variable {α : Type*} {f : α → Nat} {xs : List α} {limit : Nat}

/-- The stretch of `length` from `t` on. -/
def within (t length x : Nat) : Bool := t ≤ x && x < t + length

/-- The windows from `a` to `a + m`. -/
theorem countP_between_le (h : ∀ b, xs.countP (fun x => f x = b) ≤ limit) (a m : Nat) :
    xs.countP (fun x => a ≤ f x && f x ≤ a + m) ≤ (m + 1) * limit := by
  induction m with
  | zero =>
    have heq : (fun x => decide (a ≤ f x) && decide (f x ≤ a + 0)) = fun x => decide (f x = a) := by
      funext x
      rw [Nat.add_zero, ← Bool.decide_and]
      exact decide_eq_decide.mpr ⟨fun hx => Nat.le_antisymm hx.2 hx.1, fun hx => by omega⟩
    rw [heq, Nat.zero_add, Nat.one_mul]
    exact h a
  | succ m ih =>
    have hsplit : xs.countP (fun x => a ≤ f x && f x ≤ a + (m + 1)) ≤
        xs.countP (fun x => a ≤ f x && f x ≤ a + m) + xs.countP (fun x => f x = a + (m + 1)) := by
      clear ih h
      induction xs with
      | nil => simp
      | cons x xs ih =>
        simp only [List.countP_cons, Bool.and_eq_true, decide_eq_true_eq]
        split <;> split <;> split <;> omega
    have hlast := h (a + (m + 1))
    calc xs.countP (fun x => a ≤ f x && f x ≤ a + (m + 1))
        ≤ (m + 1) * limit + limit := Nat.le_trans hsplit (Nat.add_le_add ih hlast)
      _ = (m + 1 + 1) * limit := by ring

/-- A stretch of `m` windows meets `m + 1` of them at most. -/
theorem countP_within_le {width : Nat} (hwidth : 0 < width)
    (h : ∀ b, xs.countP (fun x => f x / width = b) ≤ limit) (t m : Nat) :
    xs.countP (fun x => within t (m * width) (f x)) ≤ (m + 1) * limit := by
  refine Nat.le_trans (List.countP_mono_left fun x _ hx => ?_) (countP_between_le h (t / width) m)
  simp only [within, Bool.and_eq_true, decide_eq_true_eq] at hx ⊢
  refine ⟨Nat.div_le_div_right hx.1, ?_⟩
  rw [← Nat.add_mul_div_right t m hwidth]
  exact Nat.div_le_div_right (Nat.le_of_lt hx.2)

end FixedWindows

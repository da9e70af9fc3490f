import Mathlib.Data.List.Infix

/-!
# Cumulative snapshots

A text that grows is sent as a sequence of snapshots, each of the whole text so far. The
receiver keeps the snapshot before and reads off what is new. An empty snapshot says nothing
new, but it is kept as well, and the text after it is read as new from its beginning.
-/

namespace Snapshots

variable {α : Type*} {p t : List α} {texts : List (List α)}

/-- What a snapshot adds to the one before. -/
def diff [DecidableEq α] (previous next : List α) : List α :=
  if previous ≠ [] ∧ previous <+: next then next.drop previous.length else next

/-- What each snapshot adds to the one before it. -/
def diffs [DecidableEq α] (previous : List α) : List (List α) → List (List α)
  | [] => []
  | text :: texts => diff previous text :: diffs text texts

/-- The last snapshot that is not empty. -/
def latest (previous : List α) : List (List α) → List α
  | [] => previous
  | text :: texts => latest (if text = [] then previous else text) texts

/-- Every snapshot that is not empty extends the last one before it that is not. -/
def Growing (previous : List α) : List (List α) → Prop
  | [] => True
  | text :: texts => if text = [] then Growing previous texts else previous <+: text ∧ Growing text texts

/-- No empty snapshot stands between two others. -/
def Uninterrupted (texts : List (List α)) : Prop :=
  ∀ before after, texts = before ++ [] :: after → (∀ t ∈ before, t = []) ∨ ∀ t ∈ after, t = []

instance growingDecidable [DecidableEq α] :
    (previous : List α) → (texts : List (List α)) → Decidable (Growing previous texts)
  | _, [] => isTrue trivial
  | previous, text :: texts =>
    have := growingDecidable previous texts
    have := growingDecidable text texts
    inferInstanceAs (Decidable (if text = [] then Growing previous texts else previous <+: text ∧ Growing text texts))

theorem latest_of_empty (h : ∀ t ∈ texts, t = []) : latest p texts = p := by
  induction texts with
  | nil => rfl
  | cons text texts ih =>
    rw [List.forall_mem_cons] at h
    rw [latest, if_pos h.1, ih h.2]

/-- The text before the snapshots does not matter once one of them is not empty. -/
theorem latest_eq_of_nonempty {q : List α} (h : ¬ ∀ t ∈ texts, t = []) : latest p texts = latest q texts := by
  induction texts generalizing p q with
  | nil => simp at h
  | cons text texts ih =>
    rw [latest, latest]
    by_cases ht : text = []
    · rw [if_pos ht, if_pos ht]
      apply ih
      intro hall
      exact h (List.forall_mem_cons.mpr ⟨ht, hall⟩)
    · rw [if_neg ht, if_neg ht]

theorem growing_nil (h : Growing p texts) : Growing [] texts := by
  induction texts generalizing p with
  | nil => trivial
  | cons text texts ih =>
    rw [Growing] at h ⊢
    by_cases ht : text = []
    · rw [if_pos ht] at h ⊢
      exact ih h
    · rw [if_neg ht] at h ⊢
      exact ⟨List.nil_prefix, h.2⟩

section Diffs

variable [DecidableEq α]

theorem append_diff (h : p <+: t) : p ++ diff p t = t := by
  obtain ⟨s, rfl⟩ := h
  by_cases hp : p = []
  · simp [diff, hp]
  · simp [diff, hp]

theorem diff_empty (p : List α) : diff p [] = [] := by
  unfold diff
  split <;> simp

theorem diff_from_empty (t : List α) : diff [] t = t := by simp [diff]

theorem flatten_diffs_of_empty (h : ∀ t ∈ texts, t = []) : (diffs p texts).flatten = [] := by
  induction texts generalizing p with
  | nil => rfl
  | cons text texts ih =>
    rw [List.forall_mem_cons] at h
    rw [diffs, List.flatten_cons, ih h.2, h.1, diff_empty]
    rfl

/-- What is read is never shorter than what was sent. -/
theorem length_latest_le (h : Growing p texts) :
    (latest p texts).length ≤ p.length + (diffs p texts).flatten.length := by
  induction texts generalizing p with
  | nil => simp [latest, diffs]
  | cons text texts ih =>
    unfold Growing at h
    rw [latest, diffs, List.flatten_cons, List.length_append]
    split at h
    · rename_i ht
      rw [if_pos ht, ht, diff_empty]
      by_cases hall : ∀ t ∈ texts, t = []
      · rw [latest_of_empty hall]
        omega
      · have hle := ih (growing_nil h)
        rw [← latest_eq_of_nonempty hall (p := p)] at hle
        simp only [List.length_nil] at hle ⊢
        omega
    · rename_i ht
      have hle := ih h.2
      have hdiff := congrArg List.length (append_diff h.1)
      rw [List.length_append] at hdiff
      rw [if_neg ht]
      omega

/-- After a snapshot that is not empty the text is read correctly if and only if an empty snapshot is
followed by empty ones only. -/
theorem append_flatten_diffs_iff (hp : p ≠ []) (h : Growing p texts) :
    p ++ (diffs p texts).flatten = latest p texts ↔
      ∀ before after, texts = before ++ [] :: after → ∀ t ∈ after, t = [] := by
  induction texts generalizing p with
  | nil => simp [diffs, latest]
  | cons text texts ih =>
    unfold Growing at h
    rw [diffs, latest, List.flatten_cons]
    split at h
    · rename_i ht
      rw [if_pos ht, ht, diff_empty, List.nil_append]
      constructor
      · intro heq
        by_cases hall : ∀ t ∈ texts, t = []
        · intro before after hsplit t htmem
          cases before with
          | nil =>
            cases hsplit
            exact hall t htmem
          | cons first before =>
            cases hsplit
            exact hall t (by simp [htmem])
        · -- the whole text is read again behind what was read before
          have hle := length_latest_le (growing_nil h)
          have hlength := congrArg List.length heq
          have hpos := List.length_pos_iff.mpr hp
          rw [latest_eq_of_nonempty hall (q := []), List.length_append] at hlength
          simp only [List.length_nil] at hle
          omega
      · intro hafter
        have hall := hafter [] texts rfl
        rw [latest_of_empty hall, flatten_diffs_of_empty hall, List.append_nil]
    · rename_i ht
      rw [if_neg ht, ← List.append_assoc, append_diff h.1, ih ht h.2]
      constructor
      · intro hafter before after hsplit
        cases before with
        | nil =>
          cases hsplit
          exact absurd rfl ht
        | cons first before =>
          cases hsplit
          exact hafter before after rfl
      · intro hafter before after hsplit
        exact hafter (text :: before) after (by rw [hsplit]; rfl)

/-- The snapshots are put together again if and only if no empty one stands between two others. -/
theorem flatten_diffs_iff (h : Growing [] texts) :
    (diffs [] texts).flatten = latest [] texts ↔ Uninterrupted texts := by
  induction texts with
  | nil => simp [diffs, latest, Uninterrupted]
  | cons text texts ih =>
    unfold Growing at h
    rw [diffs, latest, List.flatten_cons, diff_from_empty]
    split at h
    · rename_i ht
      rw [if_pos ht, ht, List.nil_append, ih h]
      constructor
      · intro hrest before after hsplit
        cases before with
        | nil => exact .inl (by simp)
        | cons first before =>
          cases hsplit
          rcases hrest before after rfl with hbefore | hafter
          · exact .inl (List.forall_mem_cons.mpr ⟨rfl, hbefore⟩)
          · exact .inr hafter
      · intro hrest before after hsplit
        rcases hrest ([] :: before) after (by rw [hsplit]; rfl) with hbefore | hafter
        · exact .inl (List.forall_mem_cons.mp hbefore).2
        · exact .inr hafter
    · rename_i ht
      rw [if_neg ht, append_flatten_diffs_iff ht h.2]
      constructor
      · intro hafter before after hsplit
        cases before with
        | nil =>
          cases hsplit
          exact absurd rfl ht
        | cons first before =>
          cases hsplit
          exact .inr (hafter before after rfl)
      · intro hrest before after hsplit
        rcases hrest (text :: before) after (by rw [hsplit]; rfl) with hbefore | hafter
        · exact absurd (List.forall_mem_cons.mp hbefore).1 ht
        · exact hafter

end Diffs

end Snapshots

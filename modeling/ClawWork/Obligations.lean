import Mathlib.Data.List.Basic

/-!
# Obligations raised and settled in a log

An entry of a log may raise an obligation, and an entry may settle every obligation
raised before it. `outstanding` lists what is raised and not settled; an entry added
at the end raises its own obligation or settles them all.
-/

namespace Obligations

variable {ε α : Type*} (raises : ε → Option α) (settles : ε → Bool)

/-- What the log raises and does not settle later. -/
def outstanding : List ε → List α
  | [] => []
  | e :: log => if log.any settles then outstanding log else (raises e).toList ++ outstanding log

variable {raises settles} {log : List ε} {e : ε} {a : α}

theorem mem_outstanding : a ∈ outstanding raises settles log ↔
    ∃ before e after, log = before ++ e :: after ∧ raises e = some a ∧ after.any settles = false := by
  induction log with
  | nil =>
    constructor
    · intro h
      cases h
    · rintro ⟨before, e, after, hlog, -⟩
      simp at hlog
  | cons first log ih =>
    rw [outstanding]
    constructor
    · intro h
      split at h
      · obtain ⟨before, e, after, rfl, hraise, hopen⟩ := ih.mp h
        exact ⟨first :: before, e, after, rfl, hraise, hopen⟩
      · rename_i hopen
        rcases List.mem_append.mp h with h | h
        · exact ⟨[], first, log, rfl, Option.mem_toList.mp h, by simpa using hopen⟩
        · obtain ⟨before, e, after, rfl, hraise, hopen⟩ := ih.mp h
          exact ⟨first :: before, e, after, rfl, hraise, hopen⟩
    · rintro ⟨before, e, after, hlog, hraise, hopen⟩
      cases before with
      | nil =>
        obtain ⟨rfl, rfl⟩ := List.cons.inj hlog
        rw [hopen, if_neg Bool.false_ne_true]
        exact List.mem_append_left _ (Option.mem_toList.mpr hraise)
      | cons second before =>
        obtain ⟨rfl, rfl⟩ := List.cons.inj hlog
        have hmem := ih.mpr ⟨before, e, after, rfl, hraise, hopen⟩
        split
        · exact hmem
        · exact List.mem_append_right _ hmem

/-- An entry that settles leaves nothing outstanding. -/
theorem outstanding_settle (hsettle : settles e = true) (hraise : raises e = none) :
    outstanding raises settles (log ++ [e]) = [] := by
  induction log with
  | nil => simp [outstanding, hraise]
  | cons first log ih => simp [outstanding, hsettle, ih]

/-- Any other entry adds what it raises. -/
theorem outstanding_raise (hopen : settles e = false) :
    outstanding raises settles (log ++ [e]) = outstanding raises settles log ++ (raises e).toList := by
  induction log with
  | nil => simp [outstanding]
  | cons first log ih =>
    simp only [List.cons_append, outstanding, List.any_append, List.any_cons, hopen, List.any_nil,
      Bool.or_false, ih]
    split
    · rfl
    · rw [List.append_assoc]

end Obligations

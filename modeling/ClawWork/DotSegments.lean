import Mathlib.Data.List.Basic

/-!
# Dot segments of a path

A path is cut at its slashes. Normalisation takes its segments in turn: `.` is
dropped, `..` takes the segment before it away, and where either ends the path an
empty segment stands in its place. The paths that are left as they are have no such
segment.
-/

namespace DotSegments

def isDot (segment : List Char) : Bool := segment = ['.'] || segment = ['.', '.']

/-- What is kept after a segment; the last segment is the first of the list. -/
def keep (out : List (List Char)) (segment : List Char) : List (List Char) :=
  if segment = ['.', '.'] then out.tail else if segment = ['.'] then out else segment :: out

def remove (out : List (List Char)) : List (List Char) → List (List Char)
  | [] => out.reverse
  | segment :: rest =>
    if isDot segment && rest.isEmpty then ([] :: keep out segment).reverse
    else remove (keep out segment) rest

def normalize (path : List Char) : List Char := ['/'].intercalate (remove [] (path.splitOn '/'))

theorem keep_of_not_dot {segment : List Char} (h : isDot segment = false) (out : List (List Char)) :
    keep out segment = segment :: out := by
  simp only [isDot, Bool.or_eq_false_iff, decide_eq_false_iff_not] at h
  rw [keep, if_neg h.2, if_neg h.1]

theorem mem_keep {out : List (List Char)} {segment kept : List Char} (h : kept ∈ keep out segment) :
    kept ∈ out ∨ (kept = segment ∧ isDot segment = false) := by
  cases hdot : isDot segment with
  | true =>
    refine .inl ?_
    unfold keep at h
    split at h
    · exact List.mem_of_mem_tail h
    · split at h
      · exact h
      · rename_i hdots hone
        simp [isDot, hdots, hone] at hdot
  | false =>
    rw [keep_of_not_dot hdot] at h
    rcases List.mem_cons.mp h with heq | hmem
    · exact .inr ⟨heq, rfl⟩
    · exact .inl hmem

/-- What is left are segments of the path that are no dots, and the empty one. -/
theorem forall_mem_remove {p : List Char → Prop} (hempty : p []) {out segments : List (List Char)}
    (hout : ∀ segment ∈ out, p segment) (hsegments : ∀ segment ∈ segments, isDot segment = false → p segment) :
    ∀ segment ∈ remove out segments, p segment := by
  induction segments generalizing out with
  | nil =>
    intro segment hmem
    exact hout segment (List.mem_reverse.mp hmem)
  | cons first rest ih =>
    obtain ⟨hfirst, hrest⟩ := List.forall_mem_cons.mp hsegments
    have hkeep : ∀ segment ∈ keep out first, p segment := by
      intro segment hmem
      rcases mem_keep hmem with hout' | ⟨rfl, hdot⟩
      · exact hout segment hout'
      · exact hfirst hdot
    rw [remove]
    split
    · intro segment hmem
      rcases List.mem_cons.mp (List.mem_reverse.mp hmem) with rfl | hkept
      · exact hempty
      · exact hkeep segment hkept
    · exact ih hkeep hrest

theorem remove_ne_nil (out : List (List Char)) {segments : List (List Char)} (h : segments ≠ []) :
    remove out segments ≠ [] := by
  induction segments generalizing out with
  | nil => exact absurd rfl h
  | cons first rest ih =>
    rw [remove]
    split
    · simp
    · rename_i hcontinue
      cases rest with
      | nil =>
        have hdot : isDot first = false := by simpa using hcontinue
        rw [keep_of_not_dot hdot, remove]
        simp
      | cons next rest => exact ih _ (by simp)

theorem remove_of_not_dot {segments : List (List Char)} (h : ∀ segment ∈ segments, isDot segment = false)
    (out : List (List Char)) : remove out segments = out.reverse ++ segments := by
  induction segments generalizing out with
  | nil => rw [remove, List.append_nil]
  | cons first rest ih =>
    obtain ⟨hfirst, hrest⟩ := List.forall_mem_cons.mp h
    rw [remove, hfirst, Bool.false_and, if_neg Bool.false_ne_true, keep_of_not_dot hfirst, ih hrest,
      List.reverse_cons, List.append_assoc, List.singleton_append]

/-- Normalisation leaves a path as it is exactly when it has no dot segment. -/
theorem normalize_eq_self_iff {segments : List (List Char)} (hne : segments ≠ [])
    (hslash : ∀ segment ∈ segments, '/' ∉ segment) :
    normalize (['/'].intercalate segments) = ['/'].intercalate segments ↔
      ∀ segment ∈ segments, isDot segment = false := by
  rw [normalize, List.splitOn_intercalate '/' hslash hne]
  constructor
  · intro h
    have hleft : ∀ segment ∈ remove [] segments, '/' ∉ segment :=
      forall_mem_remove (by simp) (by simp) fun segment hmem _ => hslash segment hmem
    have hsame : remove [] segments = segments := by
      rw [← List.splitOn_intercalate '/' hleft (remove_ne_nil [] hne), h, List.splitOn_intercalate '/' hslash hne]
    rw [← hsame]
    exact forall_mem_remove (by decide) (by simp) fun _ _ hdot => hdot
  · intro h
    rw [remove_of_not_dot h, List.reverse_nil, List.nil_append]

/-- The characters of a path are those of its segments, and the slashes. -/
theorem forall_mem_intercalate {p : Char → Prop} (hslash : p '/') (segments : List (List Char)) :
    (∀ c ∈ ['/'].intercalate segments, p c) ↔ ∀ segment ∈ segments, ∀ c ∈ segment, p c := by
  induction segments with
  | nil => simp
  | cons first rest ih =>
    cases rest with
    | nil => simp
    | cons next rest =>
      rw [List.intercalate_cons_cons, List.forall_mem_cons, ← ih]
      simp only [List.mem_append, List.mem_singleton, or_imp, forall_and, forall_eq]
      simp only [hslash, and_true]

end DotSegments

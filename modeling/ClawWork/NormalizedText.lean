import ClawWork.SpreadsheetText

/-!
# Normalised texts

What every text has that `normalizeExtractedText` returns. A text that the limit has
not cut is returned as it is when it is normalised again.
-/

namespace NormalizedText

open CodeUnits SpreadsheetText

structure IsNormalized (limit : Nat) (text : Text) : Prop where
  length_le : text.length ≤ limit
  noReturn : carriageReturn ∉ text
  noNul : nul ∉ text
  noFeedRun : ¬ List.IsInfix [lineFeed, lineFeed, lineFeed] text
  noLeadingSpace : ∀ u, text.head? = some u → isSpaceUnit u = false

theorem ne_of_mem_scan {afterReturn : Bool} {seen : Nat} {text : Text} {u : UInt16}
    (h : u ∈ scan afterReturn seen text) : u ≠ carriageReturn ∧ u ≠ nul := by
  induction text generalizing afterReturn seen with
  | nil => cases h
  | cons v text ih =>
    obtain ⟨head, afterReturn', seen', hscan, hhead⟩ := scan_cons afterReturn seen v
    rw [hscan, List.mem_append] at h
    rcases h with hmem | hmem
    · rcases hhead with ⟨hsolid, rfl⟩ | ⟨-, rfl | rfl⟩
      · obtain rfl := List.mem_singleton.mp hmem
        exact ⟨hsolid.1, hsolid.2.2⟩
      · cases hmem
      · obtain rfl := List.mem_singleton.mp hmem
        decide
    · exact ih hmem

theorem atMostTwoFeeds_suffix {seen : Nat} {text rest : Text} (h : AtMostTwoFeeds seen (text ++ rest)) :
    ∃ seen', AtMostTwoFeeds seen' rest := by
  induction text generalizing seen with
  | nil => exact ⟨seen, h⟩
  | cons u text ih =>
    rw [List.cons_append, AtMostTwoFeeds] at h
    split at h
    · exact ih h.2
    · exact ih h

theorem not_isInfix_of_atMostTwoFeeds {seen : Nat} {text : Text} (h : AtMostTwoFeeds seen text) :
    ¬ List.IsInfix [lineFeed, lineFeed, lineFeed] text := by
  rintro ⟨front, rest, rfl⟩
  rw [List.append_assoc] at h
  obtain ⟨seen', hrun⟩ := atMostTwoFeeds_suffix h
  simp only [List.cons_append, List.nil_append, AtMostTwoFeeds, if_pos] at hrun
  omega

/-- The replacements have nothing to do twice. -/
theorem scan_eq_self {seen : Nat} {text : Text} (hreturn : carriageReturn ∉ text) (hnul : nul ∉ text)
    (hfeeds : AtMostTwoFeeds seen text) : scan false seen text = text := by
  induction text generalizing seen with
  | nil => rfl
  | cons u text ih =>
    simp only [List.mem_cons, not_or] at hreturn hnul
    by_cases hfeed : u = lineFeed
    · subst hfeed
      rw [AtMostTwoFeeds, if_pos rfl] at hfeeds
      rw [scan_feed hfeeds.1, ih hreturn.2 hnul.2 hfeeds.2]
    · rw [AtMostTwoFeeds, if_neg hfeed] at hfeeds
      rw [scan_solid ⟨Ne.symm hreturn.1, hfeed, Ne.symm hnul.1⟩, ih hreturn.2 hnul.2 hfeeds]

theorem trimUnits_trimUnits (text : Text) : trimUnits (trimUnits text) = trimUnits text := by
  have hstart : trimStartUnits (trimUnits text) = trimUnits text := by
    cases htext : trimUnits text with
    | nil => rfl
    | cons u rest =>
      have hu : isSpaceUnit u = false := not_isSpaceUnit_of_head (by rw [htext]; rfl)
      exact List.dropWhile_cons_of_neg (by simp [hu])
  rw [trimUnits, hstart, trimUnits, trimEndUnits, trimEndUnits, List.rdropWhile_idempotent]

/-- The text before the limit cuts it. -/
theorem isNormalized_trimmed (text : Text) :
    IsNormalized (trimUnits (replaced text)).length (trimUnits (replaced text)) ∧
      AtMostTwoFeeds 0 (trimUnits (replaced text)) := by
  have hfeeds : AtMostTwoFeeds 0 (trimUnits (replaced text)) := by
    rw [trimUnits_replaced]
    exact atMostTwoFeeds_collapseFeeds 0 _
  have hmem : ∀ u ∈ trimUnits (replaced text), u ≠ carriageReturn ∧ u ≠ nul := by
    intro u hu
    rw [trimUnits_replaced] at hu
    exact ne_of_mem_scan hu
  refine ⟨⟨Nat.le_refl _, ?_, ?_, not_isInfix_of_atMostTwoFeeds hfeeds, ?_⟩, hfeeds⟩
  · exact fun hreturn => (hmem _ hreturn).1 rfl
  · exact fun hnul => (hmem _ hnul).2 rfl
  · exact fun u hu => not_isSpaceUnit_of_head hu

theorem IsNormalized.take {limit : Nat} {text : Text} (h : IsNormalized limit text) (n : Nat) :
    IsNormalized n (text.take n) where
  length_le := List.length_take_le n text
  noReturn hmem := h.noReturn (List.mem_of_mem_take hmem)
  noNul hmem := h.noNul (List.mem_of_mem_take hmem)
  noFeedRun hrun := h.noFeedRun (hrun.trans (List.take_prefix n text).isInfix)
  noLeadingSpace u hu := by
    cases n with
    | zero => simp at hu
    | succ n =>
      cases text with
      | nil => cases hu
      | cons v rest => exact h.noLeadingSpace u hu

/-- What is returned is normalised, and normalising it again changes nothing unless the limit has cut it. -/
theorem normalizeExtractedText_isNormalized (maxExtractedChars : Option Int) (text : Text) :
    IsNormalized (extractedChars maxExtractedChars) (normalizeExtractedText maxExtractedChars text) ∧
      ((normalizeExtractedText maxExtractedChars text).length < extractedChars maxExtractedChars →
        normalizeExtractedText maxExtractedChars (normalizeExtractedText maxExtractedChars text) =
          normalizeExtractedText maxExtractedChars text) := by
  obtain ⟨htrimmed, hfeeds⟩ := isNormalized_trimmed text
  refine ⟨htrimmed.take _, fun hshort => ?_⟩
  have huncut : normalizeExtractedText maxExtractedChars text = trimUnits (replaced text) := by
    refine List.take_of_length_le ?_
    rw [normalizeExtractedText, List.length_take] at hshort
    omega
  have hreplaced : replaced (trimUnits (replaced text)) = trimUnits (replaced text) :=
    scan_eq_self htrimmed.noReturn htrimmed.noNul hfeeds
  rw [huncut] at hshort ⊢
  rw [normalizeExtractedText, hreplaced, trimUnits_trimUnits]
  exact List.take_of_length_le hshort.le

end NormalizedText

import ClawWork.JavaScript
import Mathlib.Data.List.DropRight

/-!
# Texts of code units

A string of the source as the list of its UTF-16 code units, for the code that may cut
a text between the two units of a character.
-/

namespace CodeUnits

open JavaScript

abbrev Text : Type := List UInt16

def charUnits (c : Char) : Text :=
  if c.toNat < 0x10000 then [UInt16.ofNat c.toNat]
  else
    let offset := c.toNat - 0x10000
    [UInt16.ofNat (0xD800 + offset / 0x400), UInt16.ofNat (0xDC00 + offset % 0x400)]

def units (s : String) : Text := s.toList.flatMap charUnits

theorem length_units (s : String) : (units s).length = utf16Length s := by
  rw [units, utf16Length, List.length_flatMap]
  congr 2
  funext c
  unfold charUnits
  split <;> rfl

/-- No surrogate is a space. -/
def isSpaceUnit (u : UInt16) : Bool := isSpace (Char.ofNat u.toNat)

def trimStartUnits (text : Text) : Text := text.dropWhile isSpaceUnit

def trimEndUnits (text : Text) : Text := text.rdropWhile isSpaceUnit

def trimUnits (text : Text) : Text := trimEndUnits (trimStartUnits text)

theorem not_isSpaceUnit_of_head {text : Text} {u : UInt16} (h : (trimUnits text).head? = some u) :
    isSpaceUnit u = false := by
  obtain ⟨rest, hrest⟩ := List.head?_eq_some_iff.mp h
  obtain ⟨tail, htail⟩ := List.rdropWhile_prefix isSpaceUnit (trimStartUnits text)
  rw [trimUnits, trimEndUnits] at hrest
  rw [hrest, List.cons_append] at htail
  have hnot := List.head?_dropWhile_not isSpaceUnit text
  rw [show text.dropWhile isSpaceUnit = u :: (rest ++ tail) from htail.symm] at hnot
  simpa using hnot

theorem not_isSpaceUnit_of_getLast {text : Text} {u : UInt16} (h : (trimUnits text).getLast? = some u) :
    isSpaceUnit u = false := by
  have hne : (trimStartUnits text).rdropWhile isSpaceUnit ≠ [] := by
    rintro hnil
    rw [trimUnits, trimEndUnits, hnil] at h
    cases h
  have hnot := List.rdropWhile_last_not isSpaceUnit (trimStartUnits text) hne
  rw [(List.getLast_eq_iff_getLast?_eq_some hne).mpr h] at hnot
  simpa using hnot

/-- Trimming removes white space only. -/
theorem count_trimUnits {u : UInt16} (h : isSpaceUnit u = false) (text : Text) :
    (trimUnits text).count u = text.count u := by
  have hdrop : ∀ text : Text, (text.dropWhile isSpaceUnit).count u = text.count u := by
    intro text
    have htake : (text.takeWhile isSpaceUnit).count u = 0 := by
      rw [List.count_eq_zero]
      intro hmem
      have hspace := List.mem_takeWhile_imp hmem
      rw [h] at hspace
      cases hspace
    have hsplit := congrArg (List.count u) (List.takeWhile_append_dropWhile (p := isSpaceUnit) (l := text))
    rw [List.count_append, htake, Nat.zero_add] at hsplit
    exact hsplit
  rw [trimUnits, trimEndUnits, List.rdropWhile, List.count_reverse, hdrop, List.count_reverse, trimStartUnits,
    hdrop]

end CodeUnits

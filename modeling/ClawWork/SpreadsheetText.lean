import ClawWork.CodeUnits
import ClawWork.Csv

/-!
# The text of a sheet

What the parser worker makes of the rows of a sheet: each cell becomes a text that is
quoted where it must be, the rows that show nothing are dropped, and the joined text is
normalised like every extracted text.
-/

namespace SpreadsheetText

open CodeUnits

/-- A value of a cell, with the text that JavaScript converts it to. -/
inductive Cell where
  | null
  | date (isoString : Text)
  | object (json : Text)
  | other (string : Text)

def formatSpreadsheetCell : Cell → Text
  | .null => []
  | .date isoString => isoString
  | .object json => json
  | .other string => string

def nul : UInt16 := 0

def lineFeed : UInt16 := 10

def carriageReturn : UInt16 := 13

/-- Records that end at a line feed. -/
def csv : Csv.Dialect UInt16 where
  comma := 44
  quote := 34
  newline := lineFeed
  comma_ne_quote := by decide
  comma_ne_newline := by decide
  quote_ne_newline := by decide

/-- `/[",\n]/.test(value)`. -/
def needsQuotes (value : Text) : Bool := value.any fun u => u = csv.quote || u = csv.comma || u = lineFeed

/-- `value.replace(/"/g, '""')`. -/
def doubleQuotes (value : Text) : Text := value.flatMap fun u => if u = csv.quote then [u, u] else [u]

def escapeCsvCell (value : Text) : Text :=
  if needsQuotes value then csv.quote :: (doubleQuotes value ++ [csv.quote]) else value

def maxSheetRows : Nat := 10000

def maxRowCells : Nat := 256

def rowText (row : List Cell) : Text :=
  [csv.comma].intercalate ((row.take maxRowCells).map fun cell => escapeCsvCell (formatSpreadsheetCell cell))

/-- The filter of the rows. -/
def isShown (row : Text) : Bool := 0 < (trimUnits (row.filter (· ≠ csv.comma))).length

/-- `/\r\n?/g` becomes a line feed; `afterReturn` after a carriage return. -/
def convertReturns (afterReturn : Bool) : Text → Text
  | [] => []
  | u :: rest =>
    if u = carriageReturn then lineFeed :: convertReturns true rest
    else if u = lineFeed && afterReturn then convertReturns false rest
    else u :: convertReturns false rest

/-- `/\u0000/g` is removed. -/
def removeNuls (text : Text) : Text := text.filter (· ≠ nul)

/-- `/\n{3,}/g` becomes two line feeds, of which the text has `seen`. -/
def collapseFeeds (seen : Nat) : Text → Text
  | [] => []
  | u :: rest =>
    if u = lineFeed then
      if seen < 2 then u :: collapseFeeds (seen + 1) rest else collapseFeeds seen rest
    else u :: collapseFeeds 0 rest

/-- The replacements of `normalizeExtractedText`. -/
def replaced (text : Text) : Text := collapseFeeds 0 (removeNuls (convertReturns false text))

/-- `MAX_EXTRACTED_TEXT_CHARS`, when it is a safe integer. -/
def extractedChars : Option Int → Nat
  | some n => if 0 < n then n.toNat else 1000000
  | none => 1000000

def normalizeExtractedText (maxExtractedChars : Option Int) (text : Text) : Text :=
  (trimUnits (replaced text)).take (extractedChars maxExtractedChars)

/-- The rows of a sheet as one text, before it is normalised. -/
def joinedRows (rows : List (List Cell)) : Text :=
  [lineFeed].intercalate (((rows.take maxSheetRows).map rowText).filter isShown)

/-- The `csv` of a sheet in `parseSpreadsheetFile`. -/
def sheetCsv (maxExtractedChars : Option Int) (rows : List (List Cell)) : Text :=
  normalizeExtractedText maxExtractedChars (joinedRows rows)

/-! ## The replacements as one scan -/

/-- No replacement reaches over such a unit. -/
def IsSolid (u : UInt16) : Prop := u ≠ carriageReturn ∧ u ≠ lineFeed ∧ u ≠ nul

/-- What trimming removes around a text that the replacements have passed. -/
def isIgnorable (u : UInt16) : Bool := isSpaceUnit u || u = nul

/-- The replacements in the middle of a text. -/
def scan (afterReturn : Bool) (seen : Nat) (text : Text) : Text :=
  collapseFeeds seen (removeNuls (convertReturns afterReturn text))

theorem isSpaceUnit_lineFeed : isSpaceUnit lineFeed = true := by decide

theorem isSolid_of_not_ignorable {u : UInt16} (h : isIgnorable u = false) : IsSolid u := by
  refine ⟨?_, ?_, ?_⟩
  · rintro rfl
    revert h
    decide
  · rintro rfl
    revert h
    decide
  · rintro rfl
    revert h
    decide

section Scan

variable {afterReturn : Bool} {seen : Nat} {rest : Text}

@[simp] theorem scan_nil (afterReturn : Bool) (seen : Nat) : scan afterReturn seen [] = [] := rfl

theorem scan_solid {u : UInt16} (h : IsSolid u) : scan afterReturn seen (u :: rest) = u :: scan false 0 rest := by
  obtain ⟨hreturn, hfeed, hnul⟩ := h
  simp [scan, convertReturns, removeNuls, collapseFeeds, hreturn, hfeed, hnul]

theorem scan_nul : scan afterReturn seen (nul :: rest) = scan false seen rest := by
  simp [scan, convertReturns, removeNuls, nul, carriageReturn, lineFeed]

theorem scan_feed (h : seen < 2) : scan false seen (lineFeed :: rest) = lineFeed :: scan false
    (seen + 1) rest := by
  simp [scan, convertReturns, removeNuls, collapseFeeds, nul, carriageReturn, lineFeed, h]

theorem scan_return (h : seen < 2) :
    scan afterReturn seen (carriageReturn :: rest) = lineFeed :: scan true (seen + 1) rest := by
  simp [scan, convertReturns, removeNuls, collapseFeeds, nul, carriageReturn, lineFeed, h]

theorem scan_return_feed : scan true seen (lineFeed :: rest) = scan false seen rest := by
  simp [scan, convertReturns, carriageReturn, lineFeed]

theorem isBreak_of_not_solid {u : UInt16} (hsolid : ¬ IsSolid u) (hnul : u ≠ nul)
    (hskip : ¬ (u = lineFeed ∧ afterReturn = true)) : u = carriageReturn ∨ u = lineFeed ∧ afterReturn = false := by
  unfold IsSolid at hsolid
  cases afterReturn <;> grind

/-- The line break of a carriage return or of a line feed, which a run of them may already have twice. -/
theorem scan_break (u : UInt16) (hbreak : u = carriageReturn ∨ u = lineFeed ∧ afterReturn = false) :
    scan afterReturn seen (u :: rest) =
      if seen < 2 then lineFeed :: scan (u = carriageReturn) (seen + 1) rest
      else scan (u = carriageReturn) seen rest := by
  rcases hbreak with rfl | ⟨rfl, rfl⟩
  · simp [scan, convertReturns, removeNuls, collapseFeeds, nul, lineFeed]
  · simp [scan, convertReturns, removeNuls, collapseFeeds, nul, carriageReturn, lineFeed]

/-- One unit becomes itself, or a line feed or nothing. -/
theorem scan_cons (afterReturn : Bool) (seen : Nat) (u : UInt16) :
    ∃ head afterReturn' seen', (∀ rest, scan afterReturn seen (u :: rest) = head ++ scan afterReturn' seen' rest) ∧
      (IsSolid u ∧ head = [u] ∨ ¬ IsSolid u ∧ (head = [] ∨ head = [lineFeed])) := by
  by_cases hsolid : IsSolid u
  · exact ⟨[u], false, 0, fun rest => scan_solid hsolid, .inl ⟨hsolid, rfl⟩⟩
  by_cases hnul : u = nul
  · subst hnul
    exact ⟨[], false, seen, fun rest => scan_nul, .inr ⟨hsolid, .inl rfl⟩⟩
  by_cases hskip : u = lineFeed ∧ afterReturn = true
  · obtain ⟨rfl, rfl⟩ := hskip
    exact ⟨[], false, seen, fun rest => scan_return_feed, .inr ⟨hsolid, .inl rfl⟩⟩
  have hbreak := isBreak_of_not_solid hsolid hnul hskip
  by_cases hseen : seen < 2
  · refine ⟨[lineFeed], decide (u = carriageReturn), seen + 1, fun rest => ?_, .inr ⟨hsolid, .inr rfl⟩⟩
    rw [scan_break u hbreak, if_pos hseen]
    rfl
  · refine ⟨[], decide (u = carriageReturn), seen, fun rest => ?_, .inr ⟨hsolid, .inl rfl⟩⟩
    rw [scan_break u hbreak, if_neg hseen]
    rfl

/-- Nothing reaches over a solid unit. -/
theorem scan_append_solid {u : UInt16} (h : IsSolid u) (afterReturn : Bool) (seen : Nat) (text rest : Text) :
    scan afterReturn seen (text ++ u :: rest) = scan afterReturn seen text ++ u :: scan false 0 rest := by
  induction text generalizing afterReturn seen with
  | nil => exact scan_solid h
  | cons v text ih =>
    obtain ⟨head, afterReturn', seen', hscan, -⟩ := scan_cons afterReturn seen v
    rw [List.cons_append, hscan, hscan, ih, List.append_assoc]

theorem scan_concat (afterReturn : Bool) (seen : Nat) (text : Text) (u : UInt16) :
    ∃ tail, scan afterReturn seen (text ++ [u]) = scan afterReturn seen text ++ tail ∧
      (IsSolid u ∧ tail = [u] ∨ ¬ IsSolid u ∧ (tail = [] ∨ tail = [lineFeed])) := by
  induction text generalizing afterReturn seen with
  | nil =>
    obtain ⟨head, afterReturn', seen', hscan, hhead⟩ := scan_cons afterReturn seen u
    exact ⟨head, by simp [hscan], hhead⟩
  | cons v text ih =>
    obtain ⟨head, afterReturn', seen', hscan, -⟩ := scan_cons afterReturn seen v
    obtain ⟨tail, htail, hu⟩ := ih afterReturn' seen'
    refine ⟨tail, ?_, hu⟩
    rw [List.cons_append, hscan, hscan, htail, List.append_assoc]

/-- What an ignorable unit becomes is trimmed. -/
theorem isSpaceUnit_of_ignorable {u : UInt16} {piece : Text} (hu : isIgnorable u = true)
    (hpiece : IsSolid u ∧ piece = [u] ∨ ¬ IsSolid u ∧ (piece = [] ∨ piece = [lineFeed])) :
    ∀ v ∈ piece, isSpaceUnit v = true := by
  rcases hpiece with ⟨hsolid, rfl⟩ | ⟨-, rfl | rfl⟩
  · have hspace : isSpaceUnit u = true := by simpa [isIgnorable, hsolid.2.2] using hu
    simpa using hspace
  · simp
  · simpa using isSpaceUnit_lineFeed

theorem trimStartUnits_scan (afterReturn : Bool) (seen : Nat) (text : Text) :
    trimStartUnits (scan afterReturn seen text) = replaced (text.dropWhile isIgnorable) := by
  induction text generalizing afterReturn seen with
  | nil => rfl
  | cons u text ih =>
    cases hu : isIgnorable u with
    | true =>
      obtain ⟨head, afterReturn', seen', hscan, hhead⟩ := scan_cons afterReturn seen u
      rw [List.dropWhile_cons_of_pos hu, ← ih afterReturn' seen', hscan, trimStartUnits, trimStartUnits,
        List.dropWhile_append_of_pos (isSpaceUnit_of_ignorable hu hhead)]
    | false =>
      have hsolid := isSolid_of_not_ignorable hu
      have hspace : isSpaceUnit u = false := by
        simp only [isIgnorable, Bool.or_eq_false_iff] at hu
        exact hu.1
      rw [List.dropWhile_cons_of_neg (by simp [hu]), scan_solid hsolid, trimStartUnits,
        List.dropWhile_cons_of_neg (by simp [hspace])]
      exact (scan_solid hsolid).symm

theorem rdropWhile_append_of_pos {p : UInt16 → Bool} {text tail : Text} (h : ∀ u ∈ tail, p u = true) :
    (text ++ tail).rdropWhile p = text.rdropWhile p := by
  rw [List.rdropWhile, List.rdropWhile, List.reverse_append, List.dropWhile_append_of_pos]
  simpa using h

theorem trimEndUnits_scan (afterReturn : Bool) (seen : Nat) (text : Text) :
    trimEndUnits (scan afterReturn seen text) = scan afterReturn seen (text.rdropWhile isIgnorable) := by
  induction text using List.reverseRecOn with
  | nil => rfl
  | append_singleton text u ih =>
    obtain ⟨tail, htail, hu'⟩ := scan_concat afterReturn seen text u
    cases hu : isIgnorable u with
    | true =>
      rw [List.rdropWhile_concat_pos _ _ _ hu, htail, trimEndUnits,
        rdropWhile_append_of_pos (isSpaceUnit_of_ignorable hu hu')]
      exact ih
    | false =>
      have hspace : isSpaceUnit u = false := by
        simp only [isIgnorable, Bool.or_eq_false_iff] at hu
        exact hu.1
      have hsolid := scan_append_solid (isSolid_of_not_ignorable hu) afterReturn seen text []
      rw [scan_nil] at hsolid
      rw [List.rdropWhile_concat_neg _ _ _ (by simp [hu]), hsolid, trimEndUnits,
        List.rdropWhile_concat_neg _ _ _ (by simp [hspace])]

/-- Trimming can come first, if it takes the NULs too. -/
theorem trimUnits_replaced (text : Text) :
    trimUnits (replaced text) = replaced ((text.dropWhile isIgnorable).rdropWhile isIgnorable) := by
  have hstart : trimStartUnits (replaced text) = replaced (text.dropWhile isIgnorable) :=
    trimStartUnits_scan false 0 text
  rw [trimUnits, hstart]
  exact trimEndUnits_scan false 0 _

theorem count_scan {u : UInt16} (h : IsSolid u) (afterReturn : Bool) (seen : Nat) (text : Text) :
    (scan afterReturn seen text).count u = text.count u := by
  induction text generalizing afterReturn seen with
  | nil => rfl
  | cons v text ih =>
    obtain ⟨head, afterReturn', seen', hscan, hhead⟩ := scan_cons afterReturn seen v
    have hcount : head.count u = [v].count u := by
      rcases hhead with ⟨-, rfl⟩ | ⟨hv, hhead⟩
      · rfl
      · have hne : v ≠ u := fun heq => hv (heq ▸ h)
        rw [List.count_cons_of_ne hne, List.count_nil]
        rcases hhead with rfl | rfl
        · rfl
        · exact List.count_cons_of_ne h.2.1.symm
    rw [hscan, List.count_append, ih, hcount, ← List.count_append, List.singleton_append]

/-- A line break leaves a line feed, unless it only ends the one before. -/
theorem lineFeed_mem_scan {afterReturn : Bool} {seen : Nat} {text : Text} (hseen : seen < 2)
    (h : carriageReturn ∈ text ∨ afterReturn = false ∧ lineFeed ∈ text) :
    lineFeed ∈ scan afterReturn seen text := by
  induction text generalizing afterReturn seen with
  | nil => simp at h
  | cons u text ih =>
    have hrest : u ≠ carriageReturn → u ≠ lineFeed ∨ afterReturn = true →
        carriageReturn ∈ text ∨ false = false ∧ lineFeed ∈ text := by
      intro hreturn hfeed
      simp only [List.mem_cons] at h
      grind
    by_cases hsolid : IsSolid u
    · rw [scan_solid hsolid]
      exact List.mem_cons_of_mem _ (ih (by simp) (hrest hsolid.1 (.inl hsolid.2.1)))
    by_cases hnul : u = nul
    · subst hnul
      rw [scan_nul]
      exact ih hseen (hrest (by decide) (.inl (by decide)))
    by_cases hskip : u = lineFeed ∧ afterReturn = true
    · obtain ⟨rfl, rfl⟩ := hskip
      rw [scan_return_feed]
      exact ih hseen (hrest (by decide) (.inr rfl))
    have hbreak := isBreak_of_not_solid hsolid hnul hskip
    rw [scan_break u hbreak, if_pos hseen]
    exact List.mem_cons_self

/-- A text without line breaks loses its NULs only. -/
theorem scan_append_of_unbroken {text : Text} (h : carriageReturn ∉ text ∧ lineFeed ∉ text) (seen : Nat)
    (rest : Text) : scan false seen (text ++ rest) =
      removeNuls text ++ scan false (if removeNuls text = [] then seen else 0) rest := by
  induction text generalizing seen with
  | nil => simp [removeNuls]
  | cons u text ih =>
    simp only [List.mem_cons, not_or] at h
    have ih := ih ⟨h.1.2, h.2.2⟩
    by_cases hnul : u = nul
    · subst hnul
      rw [List.cons_append, scan_nul, ih]
      rfl
    · have hsolid : IsSolid u := ⟨Ne.symm h.1.1, Ne.symm h.2.1, hnul⟩
      have hremove : removeNuls (u :: text) = u :: removeNuls text := by simp [removeNuls, hnul]
      rw [List.cons_append, scan_solid hsolid, ih, hremove, if_neg (List.cons_ne_nil _ _), ite_self]
      rfl

theorem scan_of_unbroken {text : Text} (h : carriageReturn ∉ text ∧ lineFeed ∉ text) (seen : Nat) :
    scan false seen text = removeNuls text := by
  have hscan := scan_append_of_unbroken h seen []
  rwa [List.append_nil, scan_nil, List.append_nil] at hscan

end Scan

/-- No run of line feeds is longer than two, where `seen` come before the text. -/
def AtMostTwoFeeds (seen : Nat) : Text → Prop
  | [] => True
  | u :: rest => if u = lineFeed then seen < 2 ∧ AtMostTwoFeeds (seen + 1) rest else AtMostTwoFeeds 0 rest

theorem atMostTwoFeeds_collapseFeeds (seen : Nat) (text : Text) : AtMostTwoFeeds seen
    (collapseFeeds seen text) := by
  induction text generalizing seen with
  | nil => trivial
  | cons u text ih =>
    by_cases hfeed : u = lineFeed
    · by_cases hseen : seen < 2
      · simp [collapseFeeds, AtMostTwoFeeds, hfeed, hseen, ih]
      · simp [collapseFeeds, hfeed, hseen, ih]
    · simp [collapseFeeds, AtMostTwoFeeds, hfeed, ih]

theorem AtMostTwoFeeds.of_head {seen : Nat} {text : Text} (h : AtMostTwoFeeds 0 text)
    (hhead : text.head? ≠ some lineFeed) : AtMostTwoFeeds seen text := by
  cases text with
  | nil => trivial
  | cons u rest =>
    have hu : u ≠ lineFeed := by simpa using hhead
    rw [AtMostTwoFeeds, if_neg hu] at h ⊢
    exact h

/-- A unit that is no line feed starts the count again. -/
theorem AtMostTwoFeeds.of_append {seen : Nat} {text rest : Text} {u : UInt16} (hu : u ≠ lineFeed)
    (h : AtMostTwoFeeds seen (text ++ u :: rest)) : AtMostTwoFeeds 0 rest := by
  induction text generalizing seen with
  | nil =>
    rw [List.nil_append, AtMostTwoFeeds, if_neg hu] at h
    exact h
  | cons v text ih =>
    rw [List.cons_append, AtMostTwoFeeds] at h
    split at h
    · exact ih h.2
    · exact ih h

end SpreadsheetText

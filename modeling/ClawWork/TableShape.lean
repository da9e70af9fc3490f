import ClawWork.SpreadsheetText
import Mathlib.Data.List.Chain
import Mathlib.Data.List.Forall2

/-!
# The shape of a table in its text

Whether a reader of comma-separated records finds the rows of a sheet in its text. The
cells are quoted before the text is normalised. A carriage return needs no quotes then
but ends a record afterwards, and a row of NULs is no empty line yet.
-/

namespace TableShape

open CodeUnits SpreadsheetText Csv

/-- How a cell is written. -/
def fieldOf (cell : Cell) : Csv.Field UInt16 :=
  if needsQuotes (formatSpreadsheetCell cell) then .quoted (formatSpreadsheetCell cell)
  else .bare (formatSpreadsheetCell cell)

/-- The rows that the filter keeps. -/
def nonBlankRows (rows : List (List Cell)) : List (List Cell) :=
  rows.filter fun row => isShown (rowText row)

def tableLines (rows : List (List Cell)) : List (Line UInt16) :=
  (nonBlankRows rows).map (·.map fieldOf)

def mapLast {α : Type} (f : α → α) : List α → List α
  | [] => []
  | [a] => [f a]
  | a :: b :: rest => a :: mapLast f (b :: rest)

/-- The text without a carriage return at its end. -/
def dropReturn (text : Text) : Text :=
  if text.getLast? = some carriageReturn then text.dropLast else text

/-- The lines without what is trimmed at the start of the table. -/
def trimTableStart (lines : List (Line UInt16)) : List (Line UInt16) :=
  lines.modifyHead (List.modifyHead (Csv.Field.mapBare (List.dropWhile isIgnorable)))

def trimTableEnd (lines : List (Line UInt16)) : List (Line UInt16) :=
  mapLast (mapLast (Csv.Field.mapBare (List.rdropWhile isIgnorable))) lines

/-- A line without a carriage return at its end, which makes one line break with the line feed after it. -/
def endLine (line : Line UInt16) : Line UInt16 := mapLast (Csv.Field.mapBare dropReturn) line

/-- The cells, as far as they are inside the table. -/
def laidOut (rows : List (List Cell)) : List (Line UInt16) :=
  (trimTableEnd (trimTableStart (tableLines rows))).map endLine

/-- The non-blank rows as a reader should find them: every cell with the replacements in its text. -/
def shownRows (rows : List (List Cell)) : List (List Text) :=
  (laidOut rows).map (·.map fun field => replaced field.text)

/-- A line that the replacements leave empty. -/
def isEmptyLine : Line UInt16 → Bool
  | [.bare text] => text.all (· = nul)
  | _ => false

/-- No cell without quotes breaks its line, and no line is lost as an empty one. -/
structure KeepsLines (lines : List (Line UInt16)) : Prop where
  unbroken : ∀ line ∈ lines, ∀ text, Csv.Field.bare text ∈ line → carriageReturn ∉ text
  first : ∀ line, lines.head? = some line → isEmptyLine line = false
  last : ∀ line, lines.getLast? = some line → isEmptyLine line = false
  apart : lines.IsChain fun line next => ¬ (isEmptyLine line = true ∧ isEmptyLine next = true)

/-! ## The lines of a sheet -/

theorem renderField_fieldOf (cell : Cell) :
    renderField csv (fieldOf cell) = escapeCsvCell (formatSpreadsheetCell cell) := by
  unfold fieldOf escapeCsvCell
  split <;> rfl

theorem renderLine_fieldOf {row : List Cell} (h : row.length ≤ maxRowCells) :
    renderLine csv (row.map fieldOf) = rowText row := by
  rw [rowText, List.take_of_length_le h, ← intercalate_renderField, List.map_map]
  congr 1
  exact List.map_congr_left fun cell _ => renderField_fieldOf cell

theorem joinedRows_eq {rows : List (List Cell)} (hrows : rows.length ≤ maxSheetRows)
    (hcells : ∀ row ∈ rows, row.length ≤ maxRowCells) : joinedRows rows = render csv (tableLines rows) := by
  have hlines : (nonBlankRows rows).map rowText = (tableLines rows).map (renderLine csv) := by
    rw [tableLines, List.map_map]
    refine List.map_congr_left fun row hrow => ?_
    exact (renderLine_fieldOf (hcells row (List.mem_of_mem_filter hrow))).symm
  rw [joinedRows, List.take_of_length_le hrows, List.filter_map, ← intercalate_renderLine]
  exact congrArg _ hlines

theorem isSpecial_csv {u : UInt16} : IsSpecial csv u ↔ u = csv.quote ∨ u = csv.comma ∨ u = lineFeed := by
  unfold IsSpecial
  constructor
  · rintro (h | h | h)
    · exact .inr (.inl h)
    · exact .inl h
    · exact .inr (.inr h)
  · rintro (h | h | h)
    · exact .inr (.inl h)
    · exact .inl h
    · exact .inr (.inr h)

theorem needsQuotes_iff {value : Text} : needsQuotes value = true ↔ ∃ u ∈ value, IsSpecial csv u := by
  simp [needsQuotes, isSpecial_csv, or_assoc]

theorem isWritten_fieldOf (cell : Cell) : IsWritten csv (fieldOf cell) := by
  unfold fieldOf
  split
  · trivial
  · rename_i hquotes
    rw [needsQuotes_iff] at hquotes
    exact fun u hu hspecial => hquotes ⟨u, hu, hspecial⟩

theorem needsQuotes_fieldOf (cell : Cell) : NeedsQuotes csv (fieldOf cell) := by
  unfold fieldOf
  split
  · rename_i hquotes
    exact needsQuotes_iff.mp hquotes
  · trivial

theorem areWritten_tableLines (rows : List (List Cell)) : AreWritten csv (tableLines rows) := by
  intro line hline
  obtain ⟨row, hrow, rfl⟩ := List.mem_map.mp hline
  refine ⟨?_, ?_⟩
  · intro hnil
    obtain rfl := List.map_eq_nil_iff.mp hnil
    have hshown := (List.mem_filter.mp hrow).2
    revert hshown
    decide
  · intro field hfield
    obtain ⟨cell, -, rfl⟩ := List.mem_map.mp hfield
    exact isWritten_fieldOf cell

/-- A field without quotes may lose some of its units. -/
inductive Trims : Csv.Field UInt16 → Csv.Field UInt16 → Prop
  | bare {text text' : Text} (h : text' ⊆ text) : Trims (.bare text) (.bare text')
  | quoted (text : Text) : Trims (.quoted text) (.quoted text)

abbrev TrimsLine : Line UInt16 → Line UInt16 → Prop := List.Forall₂ Trims

abbrev TrimsTable : List (Line UInt16) → List (Line UInt16) → Prop := List.Forall₂ TrimsLine

theorem Trims.refl (field : Csv.Field UInt16) : Trims field field := by
  cases field with
  | bare text => exact .bare (List.Subset.refl _)
  | quoted text => exact .quoted text

theorem trims_mapBare {f : Text → Text} (hf : ∀ text, f text ⊆ text) (field : Csv.Field UInt16) :
    Trims field (field.mapBare f) := by
  cases field with
  | bare text => exact .bare (hf text)
  | quoted text => exact .quoted text

section Ends

variable {α : Type} {R : α → α → Prop} {f : α → α}

theorem forall₂_mapLast (hrefl : ∀ a, R a a) (hf : ∀ a, R a (f a)) (as : List α) : List.Forall₂ R as
    (mapLast f as) := by
  induction as with
  | nil => exact .nil
  | cons a rest ih =>
    cases rest with
    | nil => exact .cons (hf a) .nil
    | cons b rest => exact .cons (hrefl a) ih

theorem forall₂_modifyHead (hrefl : ∀ a, R a a) (hf : ∀ a, R a (f a)) (as : List α) :
    List.Forall₂ R as (as.modifyHead f) := by
  cases as with
  | nil => exact .nil
  | cons a rest => exact .cons (hf a) (List.forall₂_same.mpr fun b _ => hrefl b)

end Ends

theorem TrimsLine.refl (line : Line UInt16) : TrimsLine line line := List.forall₂_same.mpr fun field _ =>
    Trims.refl field

theorem dropReturn_subset (text : Text) : dropReturn text ⊆ text := by
  unfold dropReturn
  split
  · exact (List.dropLast_subset text)
  · exact List.Subset.refl _

theorem trims_start (lines : List (Line UInt16)) : TrimsTable lines (trimTableStart lines) :=
  forall₂_modifyHead TrimsLine.refl
    (forall₂_modifyHead Trims.refl (trims_mapBare fun _ => (List.dropWhile_suffix _).subset)) lines

theorem trims_end (lines : List (Line UInt16)) : TrimsTable lines (trimTableEnd lines) :=
  forall₂_mapLast TrimsLine.refl
    (forall₂_mapLast Trims.refl (trims_mapBare fun _ => (List.rdropWhile_prefix _ _).subset)) lines

theorem trims_endLines (lines : List (Line UInt16)) : TrimsTable lines (lines.map endLine) :=
  List.forall₂_map_right_iff.mpr (List.forall₂_same.mpr fun line _ =>
    forall₂_mapLast Trims.refl (trims_mapBare dropReturn_subset) line)

/-- What quotes a table has, and needs, is not changed by trimming. -/
structure Written (marks : Nat) (lines : List (Line UInt16)) : Prop where
  written : AreWritten csv lines
  needed : ∀ line ∈ lines, ∀ field ∈ line, NeedsQuotes csv field
  marks_eq : tableMarks csv lines = marks

theorem Trims.field {field field' : Csv.Field UInt16} (h : Trims field field') :
    (IsWritten csv field → IsWritten csv field') ∧ (NeedsQuotes csv field → NeedsQuotes csv field') ∧
      marks csv field' = marks csv field := by
  cases h with
  | bare hsubset => exact ⟨fun hwritten u hu => hwritten u (hsubset hu), fun _ => trivial, rfl⟩
  | quoted text => exact ⟨id, id, rfl⟩

theorem TrimsLine.line {line line' : Line UInt16} (h : TrimsLine line line') :
    ((∀ field ∈ line, IsWritten csv field) → ∀ field ∈ line', IsWritten csv field) ∧
      ((∀ field ∈ line, NeedsQuotes csv field) → ∀ field ∈ line', NeedsQuotes csv field) ∧
      lineMarks csv line' = lineMarks csv line := by
  induction h with
  | nil => exact ⟨id, id, rfl⟩
  | cons hfield _ ih =>
    obtain ⟨hwritten, hneeded, hmarks⟩ := hfield.field
    refine ⟨?_, ?_, ?_⟩
    · rw [List.forall_mem_cons, List.forall_mem_cons]
      exact And.imp hwritten ih.1
    · rw [List.forall_mem_cons, List.forall_mem_cons]
      exact And.imp hneeded ih.2.1
    · simp only [lineMarks, List.map_cons, List.sum_cons] at ih ⊢
      rw [hmarks, ih.2.2]

theorem Written.trim {marks : Nat} {lines lines' : List (Line UInt16)} (h : Written marks lines)
    (htrims : TrimsTable lines lines') : Written marks lines' := by
  obtain ⟨hwritten, hneeded, rfl⟩ := h
  induction htrims with
  | nil => exact ⟨hwritten, hneeded, rfl⟩
  | @cons line line' lines lines' hline _ ih =>
    obtain ⟨hwritten, hwritten'⟩ := List.forall_mem_cons.mp hwritten
    obtain ⟨hneeded, hneeded'⟩ := List.forall_mem_cons.mp hneeded
    have hrest := ih hwritten' hneeded'
    obtain ⟨hline_written, hline_needed, hline_marks⟩ := TrimsLine.line hline
    have hne : line' ≠ [] := by
      rintro rfl
      exact hwritten.1 (List.forall₂_nil_right_iff.mp hline)
    refine ⟨List.forall_mem_cons.mpr ⟨⟨hne, hline_written hwritten.2⟩, hrest.written⟩,
      List.forall_mem_cons.mpr ⟨hline_needed hneeded, hrest.needed⟩, ?_⟩
    have hmarks := hrest.marks_eq
    simp only [tableMarks, List.map_cons, List.sum_cons] at hmarks ⊢
    rw [hline_marks, hmarks]

theorem written_tableLines (rows : List (List Cell)) : Written (tableMarks csv (tableLines rows))
    (tableLines rows) where
  written := areWritten_tableLines rows
  needed := by
    intro line hline field hfield
    obtain ⟨row, -, rfl⟩ := List.mem_map.mp hline
    obtain ⟨cell, -, rfl⟩ := List.mem_map.mp hfield
    exact needsQuotes_fieldOf cell
  marks_eq := rfl

theorem written_laidOut (rows : List (List Cell)) : Written (tableMarks csv (tableLines rows)) (laidOut rows) :=
  (((written_tableLines rows).trim (trims_start _)).trim (trims_end _)).trim (trims_endLines _)

/-- The lines as the replacements leave them. -/
def tidied (lines : List (Line UInt16)) : List (Line UInt16) := lines.map (·.map (Csv.Field.map replaced))

theorem isSolid_quote : IsSolid csv.quote := by
  unfold IsSolid
  decide

theorem isSolid_comma : IsSolid csv.comma := by
  unfold IsSolid
  decide

theorem needsQuotes_map_replaced {field : Csv.Field UInt16} (h : NeedsQuotes csv field) :
    NeedsQuotes csv (field.map replaced) := by
  have hsolid : ∀ u text, IsSolid u → u ∈ text → u ∈ replaced text := by
    intro u text hu hmem
    rw [← List.count_pos_iff] at hmem ⊢
    exact (count_scan hu false 0 text).symm ▸ hmem
  cases field with
  | bare text => trivial
  | quoted text =>
    obtain ⟨u, hu, hspecial⟩ := h
    refine ⟨u, ?_, hspecial⟩
    rcases hspecial with rfl | rfl | rfl
    · exact hsolid _ text isSolid_comma hu
    · exact hsolid _ text isSolid_quote hu
    · exact lineFeed_mem_scan (by simp) (.inr ⟨rfl, hu⟩)

theorem marks_map_replaced (field : Csv.Field UInt16) : marks csv (field.map replaced) = marks csv field := by
  cases field with
  | bare text => rfl
  | quoted text =>
    have hcount : (replaced text).count csv.quote = text.count csv.quote := count_scan isSolid_quote false 0 text
    simp [Csv.Field.map, marks, hcount]

theorem lineMarks_map_replaced (line : Line UInt16) :
    lineMarks csv (line.map (Csv.Field.map replaced)) = lineMarks csv line := by
  simp [lineMarks, Function.comp_def, marks_map_replaced]

theorem tableMarks_tidied (lines : List (Line UInt16)) : tableMarks csv (tidied lines) = tableMarks csv lines := by
  simp [tableMarks, tidied, Function.comp_def, lineMarks_map_replaced]

theorem needed_tidied {lines : List (Line UInt16)} (h : ∀ line ∈ lines, ∀ field ∈ line, NeedsQuotes csv field) :
    ∀ line ∈ tidied lines, ∀ field ∈ line, NeedsQuotes csv field := by
  intro line' hline' field' hfield'
  obtain ⟨line, hline, rfl⟩ := List.mem_map.mp hline'
  obtain ⟨field, hfield, rfl⟩ := List.mem_map.mp hfield'
  exact needsQuotes_map_replaced (h line hline field hfield)

theorem map_text_tidied (rows : List (List Cell)) :
    (tidied (laidOut rows)).map (·.map Csv.Field.text) = shownRows rows := by
  simp [tidied, shownRows, Function.comp_def]

/-! ## What reading the shown rows takes -/

/-- A line that is left empty. -/
theorem map_replaced_of_isEmptyLine {line : Line UInt16} (h : isEmptyLine line = true) :
    line.map (Csv.Field.map replaced) = [.bare []] := by
  obtain ⟨text, rfl, hnul⟩ : ∃ text, line = [.bare text] ∧ ∀ u ∈ text, u = nul := by
    unfold isEmptyLine at h
    split at h
    · exact ⟨_, rfl, by simpa using h⟩
    · cases h
  have hunbroken : carriageReturn ∉ text ∧ lineFeed ∉ text :=
    ⟨fun hmem => absurd (hnul _ hmem) (by decide), fun hmem => absurd (hnul _ hmem) (by decide)⟩
  have hreplaced : replaced text = [] := by
    rw [replaced, ← scan, scan_of_unbroken hunbroken, removeNuls, List.filter_eq_nil_iff]
    simpa using hnul
  simp [Csv.Field.map, hreplaced]

/-- Two empty lines in a row take three line feeds. -/
theorem apart_of_atMostTwoFeeds {seen : Nat} {lines : List (Line UInt16)} (hwritten : AreWritten csv lines)
    (hlast : lines.getLast? ≠ some [.bare []]) (hseen : seen = 1 ∨ seen = 2)
    (h : AtMostTwoFeeds seen (render csv lines)) :
    (seen = 2 → lines.head? ≠ some [.bare []]) ∧
      lines.IsChain fun line next => ¬ (line = [.bare []] ∧ next = [.bare []]) := by
  induction lines generalizing seen with
  | nil => simp
  | cons line lines ih =>
    obtain ⟨hline, hlines⟩ := List.forall_mem_cons.mp hwritten
    cases lines with
    | nil => exact ⟨fun _ => by simpa using hlast, List.IsChain.singleton _⟩
    | cons next lines =>
      rw [render_cons_cons] at h
      by_cases hempty : line = [.bare []]
      · subst hempty
        have hfeed : AtMostTwoFeeds seen (lineFeed :: render csv (next :: lines)) := h
        rw [AtMostTwoFeeds, if_pos rfl] at hfeed
        have hone : seen = 1 := by omega
        subst hone
        obtain ⟨hnext, hchain⟩ := ih hlines (by simpa using hlast) (.inr rfl) hfeed.2
        refine ⟨fun htwo => absurd htwo (by decide), List.isChain_cons_cons.mpr ⟨?_, hchain⟩⟩
        rintro ⟨-, rfl⟩
        exact hnext rfl rfl
      · obtain ⟨text, c, htext, hc⟩ := renderLine_eq_concat hline.1 hline.2 hempty
        rw [htext, List.append_assoc] at h
        have hfeed : AtMostTwoFeeds 0 (lineFeed :: render csv (next :: lines)) := h.of_append hc
        rw [AtMostTwoFeeds, if_pos rfl] at hfeed
        obtain ⟨-, hchain⟩ := ih hlines (by simpa using hlast) (.inl rfl) hfeed.2
        refine ⟨fun _ => by simpa using hempty, List.isChain_cons_cons.mpr ⟨fun hboth => hempty hboth.1, hchain⟩⟩

/-- The text of a table that is read as its shown rows is written like them. -/
theorem render_of_read {rows : List (List Cell)}
    (h : read csv (trimUnits (replaced (render csv (tableLines rows)))) = some (shownRows rows)) :
    AreWritten csv (tidied (laidOut rows)) ∧
      render csv (tidied (laidOut rows)) = trimUnits (replaced (render csv (tableLines rows))) ∧
      parse csv (trimUnits (replaced (render csv (tableLines rows)))) = some (tidied (laidOut rows)) := by
  obtain ⟨lines, hparse, htexts⟩ := Option.map_eq_some_iff.mp h
  have hlast : (trimUnits (replaced (render csv (tableLines rows)))).getLast? ≠ some csv.newline := by
    intro hfeed
    exact Bool.false_ne_true ((not_isSpaceUnit_of_getLast hfeed).symm.trans isSpaceUnit_lineFeed)
  obtain ⟨hwritten, hrender⟩ := render_of_parse hparse hlast
  obtain ⟨-, hneeded, hmarks⟩ := written_laidOut rows
  have hquotes : tableMarks csv lines = tableMarks csv (tidied (laidOut rows)) := by
    have hspace : isSpaceUnit csv.quote = false := by decide
    have hcount := congrArg (List.count csv.quote) hrender
    rw [count_render hwritten, count_trimUnits hspace, replaced, ← scan, count_scan isSolid_quote,
      count_render (areWritten_tableLines rows)] at hcount
    rw [hcount, tableMarks_tidied, hmarks]
  have hlines : lines = tidied (laidOut rows) :=
    eq_of_tableMarks_eq hwritten (needed_tidied hneeded) (htexts.trans (map_text_tidied rows).symm) hquotes
  subst hlines
  exact ⟨hwritten, hrender, hparse⟩

theorem keepsLines_of_read {rows : List (List Cell)}
    (h : read csv (trimUnits (replaced (render csv (tableLines rows)))) = some (shownRows rows)) :
    KeepsLines (laidOut rows) := by
  obtain ⟨hwritten, hrender, hparse⟩ := render_of_read h
  have hnil : tidied (laidOut rows) ≠ [[.bare []]] := by
    intro hsingle
    rw [← hrender, hsingle] at hparse
    cases hparse
  have hlast : (tidied (laidOut rows)).getLast? ≠ some [.bare []] := by
    intro hempty
    obtain ⟨front, hfront⟩ := List.getLast?_eq_some_iff.mp hempty
    have hne : front ≠ [] := by
      rintro rfl
      exact hnil hfront
    rw [hfront, render_concat _ hne] at hrender
    have hfeed : (trimUnits (replaced (render csv (tableLines rows)))).getLast? = some lineFeed := by
      rw [← hrender]
      exact List.getLast?_concat
    exact Bool.false_ne_true ((not_isSpaceUnit_of_getLast hfeed).symm.trans isSpaceUnit_lineFeed)
  have hfirst : (tidied (laidOut rows)).head? ≠ some [.bare []] := by
    intro hempty
    obtain ⟨rest, hrest⟩ := List.head?_eq_some_iff.mp hempty
    cases rest with
    | nil => exact hnil hrest
    | cons next rest =>
      rw [hrest, render_cons_cons] at hrender
      have hfeed : (trimUnits (replaced (render csv (tableLines rows)))).head? = some lineFeed := by
        rw [← hrender]
        rfl
      exact Bool.false_ne_true ((not_isSpaceUnit_of_head hfeed).symm.trans isSpaceUnit_lineFeed)
  have hfeeds : AtMostTwoFeeds 0 (render csv (tidied (laidOut rows))) := by
    rw [hrender, trimUnits_replaced]
    exact atMostTwoFeeds_collapseFeeds 0 _
  refine ⟨?_, ?_, ?_, ?_⟩
  · intro line hline text htext hreturn
    have hfield : Csv.Field.bare (replaced text) ∈ line.map (Csv.Field.map replaced) :=
      List.mem_map.mpr ⟨_, htext, rfl⟩
    have hplain := (hwritten _ (List.mem_map.mpr ⟨line, hline, rfl⟩)).2 _ hfield
    exact hplain lineFeed (lineFeed_mem_scan (by simp) (.inl hreturn)) (.inr (.inr rfl))
  · intro line hline
    by_contra hempty
    rw [Bool.not_eq_false] at hempty
    apply hfirst
    rw [tidied, List.head?_map, hline, Option.map_some, map_replaced_of_isEmptyLine hempty]
  · intro line hline
    by_contra hempty
    rw [Bool.not_eq_false] at hempty
    apply hlast
    rw [tidied, List.getLast?_map, hline, Option.map_some, map_replaced_of_isEmptyLine hempty]
  · have hhead : (render csv (tidied (laidOut rows))).head? ≠ some lineFeed := by
      rw [hrender]
      intro hfeed
      exact Bool.false_ne_true ((not_isSpaceUnit_of_head hfeed).symm.trans isSpaceUnit_lineFeed)
    obtain ⟨-, hchain⟩ := apart_of_atMostTwoFeeds hwritten hlast (.inl rfl) (hfeeds.of_head hhead)
    refine ((List.isChain_map _).mp hchain).imp fun line next hnot hboth => hnot ?_
    exact ⟨map_replaced_of_isEmptyLine hboth.1, map_replaced_of_isEmptyLine hboth.2⟩

/-! ## What keeping the lines gives -/

section Lines

variable {seen : Nat} {rest : Text}

/-- What is written between quotes is replaced on its own. -/
theorem scan_double (afterReturn : Bool) (seen : Nat) (text : Text) :
    scan afterReturn seen (double csv text) = double csv (scan afterReturn seen text) := by
  induction text generalizing afterReturn seen with
  | nil => rfl
  | cons u text ih =>
    by_cases hquote : u = csv.quote
    · subst hquote
      rw [double_cons, if_pos rfl, List.cons_append, List.singleton_append, scan_solid isSolid_quote,
        scan_solid isSolid_quote, ih, scan_solid isSolid_quote, double_cons, if_pos rfl]
      rfl
    · obtain ⟨head, afterReturn', seen', hscan, hhead⟩ := scan_cons afterReturn seen u
      have hdouble : double csv head = head := by
        have hfeed : lineFeed ≠ csv.quote := by decide
        rcases hhead with ⟨-, rfl⟩ | ⟨-, rfl | rfl⟩
        · simp [double, hquote]
        · rfl
        · simp [double, hfeed]
      rw [double_cons, if_neg hquote, List.singleton_append, hscan, ih, hscan, double_append, hdouble]

/-- A field before a unit that is not replaced. -/
theorem scan_renderField {field : Csv.Field UInt16} (hwritten : IsWritten csv field)
    (hunbroken : ∀ text, field = .bare text → carriageReturn ∉ text) (seen : Nat) :
    scan false seen (renderField csv field) = renderField csv (field.map replaced) := by
  cases field with
  | bare text =>
    have hplain : carriageReturn ∉ text ∧ lineFeed ∉ text :=
      ⟨hunbroken text rfl, fun hmem => hwritten _ hmem (.inr (.inr rfl))⟩
    exact (scan_of_unbroken hplain seen).trans (scan_of_unbroken hplain 0).symm
  | quoted text =>
    rw [renderField, scan_solid isSolid_quote, scan_append_solid isSolid_quote, scan_double]
    rfl

/-- A carriage return before a line feed makes no line of its own. -/
theorem scan_dropReturn {text : Text} (hplain : carriageReturn ∉ dropReturn text ∧ lineFeed ∉ dropReturn text)
    (hseen : (if removeNuls (dropReturn text) = [] then seen else 0) < 2) :
    scan false seen (text ++ lineFeed :: rest) = removeNuls (dropReturn text) ++
      lineFeed :: scan false ((if removeNuls (dropReturn text) = [] then seen else 0) + 1) rest := by
  by_cases hlast : text.getLast? = some carriageReturn
  · obtain ⟨front, rfl⟩ := List.getLast?_eq_some_iff.mp hlast
    have hdrop : dropReturn (front ++ [carriageReturn]) = front := by simp [dropReturn]
    rw [hdrop] at hplain hseen ⊢
    rw [List.append_assoc, scan_append_of_unbroken hplain, List.singleton_append, scan_return hseen,
      scan_return_feed]
  · have hdrop : dropReturn text = text := if_neg hlast
    rw [hdrop] at hplain hseen ⊢
    rw [scan_append_of_unbroken hplain, scan_feed hseen]

/-- A line before its line feed, with a carriage return at its end or without one. -/
theorem scan_renderLine {line : Line UInt16} (hne : line ≠ []) (hwritten : ∀ field ∈ line, IsWritten csv field)
    (hunbroken : ∀ text, Csv.Field.bare text ∈ endLine line → carriageReturn ∉ text)
    (seen : Nat) (rest : Text) (hseen : seen < 2 ∨ (endLine line).map (Csv.Field.map replaced) ≠ [.bare []]) :
    scan false seen (renderLine csv line ++ lineFeed :: rest) =
      renderLine csv ((endLine line).map (Csv.Field.map replaced)) ++
        lineFeed :: scan false (if (endLine line).map (Csv.Field.map replaced) = [.bare
        []] then seen + 1 else 1) rest := by
  induction line generalizing seen with
  | nil => exact absurd rfl hne
  | cons field fields ih =>
    obtain ⟨hfield, hfields⟩ := List.forall_mem_cons.mp hwritten
    cases fields with
    | cons field' fields =>
      have hmem : ∀ text, Csv.Field.bare text ∈ endLine (field' :: fields) → carriageReturn ∉ text :=
        fun text htext => hunbroken text (List.mem_cons_of_mem _ htext)
      have hhead : ∀ text, field = .bare text → carriageReturn ∉ text :=
        fun text htext => hunbroken text (htext ▸ List.mem_cons_self)
      obtain ⟨next, others, hnext⟩ : ∃ next others, endLine (field' :: fields) = next :: others := by
        cases fields <;> exact ⟨_, _, rfl⟩
      have hends : endLine (field :: field' :: fields) = field :: endLine (field' :: fields) := rfl
      have hrest := ih (by simp) hfields hmem 0 (.inl (by simp))
      rw [ite_self] at hrest
      rw [renderLine_cons_cons, List.append_assoc, List.cons_append, scan_append_solid isSolid_comma,
        scan_renderField hfield hhead, hrest, hends, hnext]
      simp only [List.map_cons, renderLine_cons_cons]
      rw [if_neg (by simp)]
      simp
    | nil =>
      rw [renderLine_singleton]
      cases field with
      | quoted text =>
        have hfeed : scan false 0 (lineFeed :: rest) = lineFeed :: scan false 1 rest := scan_feed (by simp)
        rw [renderField, List.cons_append, List.append_assoc, scan_solid isSolid_quote, List.singleton_append,
          scan_append_solid isSolid_quote, scan_double, hfeed]
        simp [endLine, mapLast, Csv.Field.mapBare, Csv.Field.map, renderField, replaced, scan]
      | bare text =>
        have hlines : (endLine [.bare text]).map (Csv.Field.map replaced) = [.bare (replaced
          (dropReturn text))] := rfl
        rw [hlines] at hseen ⊢
        have hplain : carriageReturn ∉ dropReturn text ∧ lineFeed ∉ dropReturn text := by
          refine ⟨hunbroken _ (by simp [endLine, mapLast, Csv.Field.mapBare]), fun hmem => ?_⟩
          exact hfield _ (dropReturn_subset text hmem) (.inr (.inr rfl))
        have hreplaced : replaced (dropReturn text) = removeNuls (dropReturn text) := scan_of_unbroken hplain 0
        rw [hreplaced] at hseen ⊢
        have hcount : (if removeNuls (dropReturn text) = [] then seen else 0) < 2 := by
          split
          · rename_i hnil
            rw [hnil] at hseen
            simpa using hseen
          · simp
        rw [renderField, scan_dropReturn hplain hcount, renderLine_singleton, renderField]
        congr 3
        by_cases hnil : removeNuls (dropReturn text) = []
        · simp [hnil]
        · simp [hnil]

theorem scan_lastLine {line : Line UInt16} (hwritten : ∀ field ∈ line, IsWritten csv field)
    (hunbroken : ∀ text, Csv.Field.bare text ∈ line → carriageReturn ∉ text) (seen : Nat) :
    scan false seen (renderLine csv line) = renderLine csv (line.map (Csv.Field.map replaced)) := by
  induction line generalizing seen with
  | nil => rfl
  | cons field fields ih =>
    obtain ⟨hfield, hfields⟩ := List.forall_mem_cons.mp hwritten
    have hhead : ∀ text, field = .bare text → carriageReturn ∉ text :=
      fun text htext => hunbroken text (htext ▸ List.mem_cons_self)
    cases fields with
    | nil => simpa using scan_renderField hfield hhead seen
    | cons field' fields =>
      have hrest := ih hfields (fun text htext => hunbroken text (List.mem_cons_of_mem _ htext)) 0
      rw [renderLine_cons_cons, scan_append_solid isSolid_comma, scan_renderField hfield hhead, hrest]
      rfl

/-- The lines of a table, with nothing to trim at its end. -/
theorem scan_render {lines : List (Line UInt16)} (hwritten : AreWritten csv lines)
    (hunbroken : ∀ line ∈ lines.map endLine, ∀ text, Csv.Field.bare text ∈ line → carriageReturn ∉ text)
    (hlast : ∀ line, lines.getLast? = some line → endLine line = line)
    (seen : Nat) (hseen : seen < 2 ∨ (tidied (lines.map endLine)).head? ≠ some [.bare []])
    (hapart : (tidied (lines.map endLine)).IsChain fun line next => ¬ (line = [.bare []] ∧ next = [.bare []])) :
    scan false seen (render csv lines) = render csv (tidied (lines.map endLine)) := by
  induction lines generalizing seen with
  | nil => rfl
  | cons line lines ih =>
    obtain ⟨hline, hlines⟩ := List.forall_mem_cons.mp hwritten
    obtain ⟨hunbroken', hunbroken⟩ := List.forall_mem_cons.mp hunbroken
    cases lines with
    | nil =>
      have hend : endLine line = line := hlast line rfl
      rw [hend] at hunbroken'
      rw [List.map_singleton, hend, render_singleton, scan_lastLine hline.2 hunbroken']
      exact (render_singleton csv _).symm
    | cons next lines =>
      have hhead : seen < 2 ∨ (endLine line).map (Csv.Field.map replaced) ≠ [.bare []] := by
        simpa [tidied] using hseen
      obtain ⟨hboth, hchain⟩ := List.isChain_cons_cons.mp hapart
      have hrest := ih hlines hunbroken (fun line hline => hlast line (by simpa using hline))
        (if (endLine line).map (Csv.Field.map replaced) = [.bare []] then seen + 1 else 1) (by
          split
          · rename_i hempty
            right
            intro hnext
            exact hboth ⟨hempty, by simpa [tidied] using hnext⟩
          · simp) hchain
      calc scan false seen (render csv (line :: next :: lines))
          = renderLine csv ((endLine line).map (Csv.Field.map replaced)) ++ lineFeed ::
              scan false (if (endLine line).map (Csv.Field.map replaced) = [.bare []] then seen + 1 else 1)
                (render csv (next :: lines)) :=
            scan_renderLine hline.1 hline.2 hunbroken' seen (render csv (next :: lines)) hhead
        _ = renderLine csv ((endLine line).map (Csv.Field.map replaced)) ++
              lineFeed :: render csv (tidied ((next :: lines).map endLine)) := by rw [hrest]
        _ = render csv (tidied ((line :: next :: lines).map endLine)) := rfl

end Lines

theorem dropWhile_of_head {text : Text} (h : ∀ u, text.head? = some u → isIgnorable u = false) :
    text.dropWhile isIgnorable = text := by
  cases text with
  | nil => rfl
  | cons u rest => exact List.dropWhile_cons_of_neg (by simp [h u rfl])

theorem isIgnorable_quote : isIgnorable csv.quote = false := by decide

theorem isIgnorable_comma : isIgnorable csv.comma = false := by decide

/-- Trimming a text trims its table, unless it takes the first line. -/
theorem render_trimTableStart {lines : List (Line UInt16)} (hwritten : AreWritten csv lines)
    (hfirst : ∀ next rest, trimTableStart lines ≠ [.bare []] :: next :: rest) :
    render csv (trimTableStart lines) = (render csv lines).dropWhile isIgnorable := by
  cases lines with
  | nil => rfl
  | cons line lines =>
    cases line with
    | nil => exact absurd rfl (hwritten [] List.mem_cons_self).1
    | cons field fields =>
      have hafter : ∀ f, render csv ((f :: fields) :: lines) = renderField csv f ++
          ((fields.flatMap fun g => csv.comma :: renderField csv g) ++
            lines.flatMap fun l => csv.newline :: renderLine csv l) := fun f => List.append_assoc _ _ _
      have hstart : trimTableStart ((field :: fields) :: lines) =
          (field.mapBare (List.dropWhile isIgnorable) :: fields) :: lines := rfl
      rw [hstart] at hfirst ⊢
      rw [hafter, hafter]
      cases field with
      | quoted text =>
        rw [renderField, List.cons_append, List.dropWhile_cons_of_neg (by simp [isIgnorable_quote])]
        rfl
      | bare text =>
        rw [renderField, List.dropWhile_append, Csv.Field.mapBare, renderField]
        split
        · rename_i hnil
          rw [List.isEmpty_iff] at hnil
          rw [hnil, List.nil_append, dropWhile_of_head]
          cases fields with
          | cons field' fields =>
            intro u hu
            obtain rfl := Option.some.inj hu
            exact isIgnorable_comma
          | nil =>
            cases lines with
            | nil => simp
            | cons next rest =>
              rw [Csv.Field.mapBare, hnil] at hfirst
              exact absurd rfl (hfirst next rest)
        · rfl

section Ends

variable {α : Type} {f g : α → α}

theorem mapLast_concat (as : List α) (a : α) : mapLast f (as ++ [a]) = as ++ [f a] := by
  induction as with
  | nil => rfl
  | cons b rest ih =>
    cases rest with
    | nil => rfl
    | cons c rest =>
      change b :: mapLast f (c :: rest ++ [a]) = _
      rw [ih]
      rfl

theorem mapLast_mapLast (as : List α) : mapLast f (mapLast g as) = mapLast (f ∘ g) as := by
  rcases List.eq_nil_or_concat as with rfl | ⟨front, a, rfl⟩
  · rfl
  · rw [List.concat_eq_append, mapLast_concat, mapLast_concat, mapLast_concat]
    rfl

end Ends

/-- What comes before the last field. -/
theorem exists_before (front : List (Line UInt16)) (fields : Line UInt16) :
    ∃ before : Text, (∀ field, render csv (front ++ [fields ++ [field]]) = before ++ renderField csv field) ∧
      (fields = [] ∧ front ≠ [] ∨ before.rdropWhile isIgnorable = before) := by
  obtain ⟨start, hstart⟩ : ∃ start, ∀ line, render csv (front ++ [line]) = start ++ renderLine csv line ∧
      (front = [] → start = []) := by
    by_cases hfront : front = []
    · exact ⟨[], fun line => by simp [hfront]⟩
    · refine ⟨render csv front ++ [lineFeed], fun line => ⟨?_, fun hnil => absurd hnil hfront⟩⟩
      rw [render_concat csv hfront, List.append_assoc]
      rfl
  by_cases hfields : fields = []
  · subst hfields
    refine ⟨start, fun field => by rw [(hstart _).1, List.nil_append, renderLine_singleton], ?_⟩
    by_cases hfront : front = []
    · right
      rw [(hstart []).2 hfront]
      rfl
    · exact .inl ⟨rfl, hfront⟩
  · refine ⟨start ++ renderLine csv fields ++ [csv.comma], fun field => ?_, .inr ?_⟩
    · rw [(hstart _).1, renderLine_concat csv hfields]
      simp
    · exact List.rdropWhile_concat_neg _ _ _ (by simp [isIgnorable_comma])

theorem rdropWhile_append_of_ne_nil {p : UInt16 → Bool} (text : Text) {tail : Text} (h : tail.rdropWhile p ≠ []) :
    (text ++ tail).rdropWhile p = text ++ tail.rdropWhile p := by
  have hdrop : tail.reverse.dropWhile p ≠ [] := by
    intro hnil
    rw [List.rdropWhile, hnil] at h
    exact h rfl
  rw [List.rdropWhile, List.reverse_append, List.dropWhile_append, if_neg (by simpa using hdrop),
    List.reverse_append, List.reverse_reverse]
  rfl

theorem render_trimTableEnd {lines : List (Line UInt16)} (hwritten : AreWritten csv lines)
    (hlast : ∀ front, front ≠ [] → trimTableEnd lines ≠ front ++ [[.bare []]]) :
    render csv (trimTableEnd lines) = (render csv lines).rdropWhile isIgnorable := by
  rcases List.eq_nil_or_concat lines with rfl | ⟨front, line, rfl⟩
  · rfl
  rw [List.concat_eq_append] at hwritten hlast ⊢
  have hne := (hwritten line (by simp)).1
  rcases List.eq_nil_or_concat line with rfl | ⟨fields, field, rfl⟩
  · exact absurd rfl hne
  rw [List.concat_eq_append] at hlast ⊢
  have hend : trimTableEnd (front ++ [fields ++ [field]]) =
      front ++ [fields ++ [field.mapBare (List.rdropWhile isIgnorable)]] := by
    rw [trimTableEnd, mapLast_concat, mapLast_concat]
  rw [hend] at hlast ⊢
  obtain ⟨before, hbefore, hkept⟩ := exists_before front fields
  rw [hbefore, hbefore]
  cases field with
  | quoted text =>
    rw [renderField, List.append_cons, ← List.append_assoc, List.rdropWhile_concat_neg _ _ _
      (by simp [isIgnorable_quote])]
    simp [Csv.Field.mapBare, renderField]
  | bare text =>
    rw [renderField, Csv.Field.mapBare, renderField]
    by_cases hnil : text.rdropWhile isIgnorable = []
    · have hall : ∀ u ∈ text, isIgnorable u = true := List.rdropWhile_eq_nil_iff.mp hnil
      rw [rdropWhile_append_of_pos hall, hnil, List.append_nil]
      rcases hkept with ⟨rfl, hfront⟩ | hkept
      · rw [Csv.Field.mapBare, hnil] at hlast
        exact absurd rfl (hlast front hfront)
      · exact hkept.symm
    · exact (rdropWhile_append_of_ne_nil before hnil).symm

/-- A line that the replacements leave empty, when none of them breaks it. -/
theorem isEmptyLine_of_map_replaced {line : Line UInt16} (hwritten : ∀ field ∈ line, IsWritten csv field)
    (hunbroken : ∀ text, Csv.Field.bare text ∈ line → carriageReturn ∉ text)
    (h : line.map (Csv.Field.map replaced) = [.bare []]) : isEmptyLine line = true := by
  obtain ⟨field, rfl, hfield⟩ := List.map_eq_singleton_iff.mp h
  cases field with
  | quoted text => cases hfield
  | bare text =>
    have hplain : carriageReturn ∉ text ∧ lineFeed ∉ text :=
      ⟨hunbroken text (by simp), fun hmem => hwritten _ List.mem_cons_self _ hmem (.inr (.inr rfl))⟩
    have hremoved : removeNuls text = [] := by
      rw [← scan_of_unbroken hplain 0]
      exact Csv.Field.bare.inj hfield
    rw [removeNuls, List.filter_eq_nil_iff] at hremoved
    rw [isEmptyLine, List.all_eq_true]
    simpa using hremoved

theorem areWritten_tidied {lines : List (Line UInt16)} (hwritten : AreWritten csv lines)
    (hunbroken : ∀ line ∈ lines, ∀ text, Csv.Field.bare text ∈ line → carriageReturn ∉ text) :
    AreWritten csv (tidied lines) := by
  intro line' hline'
  obtain ⟨line, hline, rfl⟩ := List.mem_map.mp hline'
  refine ⟨by simpa using (hwritten line hline).1, fun field' hfield' => ?_⟩
  obtain ⟨field, hfield, rfl⟩ := List.mem_map.mp hfield'
  have hplain := (hwritten line hline).2 field hfield
  cases field with
  | quoted text => trivial
  | bare text =>
    have hreplaced : replaced text = removeNuls text :=
      scan_of_unbroken ⟨hunbroken line hline text hfield, fun hmem => hplain _ hmem (.inr (.inr rfl))⟩ 0
    intro u hu
    rw [hreplaced] at hu
    exact hplain u (List.mem_of_mem_filter hu)

/-- What is trimmed does not end in a carriage return. -/
theorem endLine_trimmed (line : Line UInt16) :
    endLine (mapLast (Csv.Field.mapBare (List.rdropWhile isIgnorable)) line) =
      mapLast (Csv.Field.mapBare (List.rdropWhile isIgnorable)) line := by
  have hdrop : ∀ text : Text, dropReturn (text.rdropWhile isIgnorable) = text.rdropWhile isIgnorable := by
    intro text
    refine if_neg fun hlast => ?_
    have hne : text.rdropWhile isIgnorable ≠ [] := by
      intro hnil
      rw [hnil] at hlast
      cases hlast
    have hnot := List.rdropWhile_last_not isIgnorable text hne
    rw [(List.getLast_eq_iff_getLast?_eq_some hne).mpr hlast] at hnot
    exact hnot (by decide)
  rw [endLine, mapLast_mapLast]
  congr 1
  funext field
  cases field with
  | bare text => exact congrArg Csv.Field.bare (hdrop text)
  | quoted text => rfl

theorem read_of_keepsLines {rows : List (List Cell)} (h : KeepsLines (laidOut rows)) :
    read csv (trimUnits (replaced (render csv (tableLines rows)))) = some (shownRows rows) := by
  have hwritten := areWritten_tableLines rows
  have hstart := (written_tableLines rows).trim (trims_start _)
  have hend := hstart.trim (trims_end _)
  have hlaid := (written_laidOut rows).written
  have hrenderStart := render_trimTableStart hwritten fun next rest hlines => by
    have hhead : (laidOut rows).head? = some [.bare []] := by
      rw [laidOut, hlines]
      rfl
    exact Bool.false_ne_true ((h.first _ hhead).symm.trans rfl)
  have hrenderEnd := render_trimTableEnd hstart.written fun front _ hlines => by
    have hlast : (laidOut rows).getLast? = some [.bare []] := by
      rw [laidOut, hlines, List.map_append]
      exact List.getLast?_concat
    exact Bool.false_ne_true ((h.last _ hlast).symm.trans rfl)
  have hempty : ∀ line ∈ laidOut rows, line.map (Csv.Field.map replaced) = [.bare []] → isEmptyLine line = true :=
    fun line hline => isEmptyLine_of_map_replaced (hlaid line hline).2 (h.unbroken line hline)
  have hscan : scan false 0 (render csv (trimTableEnd (trimTableStart (tableLines rows)))) =
      render csv (tidied (laidOut rows)) := by
    refine scan_render hend.written h.unbroken (fun line hline => ?_) 0 (.inl (by simp)) ?_
    · rcases List.eq_nil_or_concat (trimTableStart (tableLines rows)) with hnil | ⟨front, l, hlines⟩
      · rw [hnil] at hline
        cases hline
      · rw [hlines, List.concat_eq_append, trimTableEnd, mapLast_concat, List.getLast?_concat] at hline
        obtain rfl := Option.some.inj hline
        exact endLine_trimmed l
    · refine (List.isChain_map _).mpr (h.apart.imp_of_mem_imp fun line next hline hnext hnot hboth => hnot ?_)
      exact ⟨hempty line hline hboth.1, hempty next hnext hboth.2⟩
  have htext : trimUnits (replaced (render csv (tableLines rows))) = render csv (tidied (laidOut rows)) := by
    rw [trimUnits_replaced, ← hrenderStart, ← hrenderEnd]
    exact hscan
  have hlast : (tidied (laidOut rows)).getLast? ≠ some [.bare []] := by
    rw [tidied, List.getLast?_map, ne_eq, Option.map_eq_some_iff]
    rintro ⟨line, hline, hnone⟩
    have hline' := hempty line (List.mem_of_getLast? hline) hnone
    rw [h.last line hline] at hline'
    cases hline'
  rw [htext, Csv.read, parse_render (areWritten_tidied hlaid h.unbroken) hlast, Option.map_some, map_text_tidied]

theorem TrimsTable.map_length {lines lines' : List (Line UInt16)} (h : TrimsTable lines lines') :
    lines'.map List.length = lines.map List.length := by
  induction h with
  | nil => rfl
  | cons hline _ ih => rw [List.map_cons, List.map_cons, ih, List.Forall₂.length_eq hline]

/-- The shown rows have the fields of the non-blank rows. -/
theorem map_length_shownRows (rows : List (List Cell)) :
    (shownRows rows).map List.length = (nonBlankRows rows).map List.length := by
  have hlaid : (laidOut rows).map List.length = (tableLines rows).map List.length := by
    rw [laidOut, (trims_endLines _).map_length, (trims_end _).map_length, (trims_start _).map_length]
  rw [shownRows, List.map_map]
  simpa [tableLines, Function.comp_def] using hlaid

/-- The text of a sheet is read as its non-blank rows exactly when no cell breaks its line and no line is lost. -/
theorem read_sheetCsv_iff (maxExtractedChars : Option Int) (rows : List (List Cell))
    (hrows : rows.length ≤ maxSheetRows) (hcells : ∀ row ∈ rows, row.length ≤ maxRowCells)
    (huncut : (trimUnits (replaced (joinedRows rows))).length ≤ extractedChars maxExtractedChars) :
    (shownRows rows).map List.length = (nonBlankRows rows).map List.length ∧
      (read csv (sheetCsv maxExtractedChars rows) = some (shownRows rows) ↔ KeepsLines (laidOut rows)) := by
  refine ⟨map_length_shownRows rows, ?_⟩
  rw [sheetCsv, normalizeExtractedText, List.take_of_length_le huncut, joinedRows_eq hrows hcells]
  exact ⟨keepsLines_of_read, read_of_keepsLines⟩

def reportSheet : List (List Cell) :=
  [[.other (units "Name"), .other (units "Note")], [.null], [.other (units "a,\r\nb"), .null]]

theorem read_sheetCsv_iff_report :
    read csv (sheetCsv (some 100) reportSheet) = some [[units "Name", units "Note"], [units "a,\nb", []]] := by
  have hlaid : laidOut reportSheet =
      [[.bare (units "Name"), .bare (units "Note")], [.quoted (units "a,\r\nb"), .bare []]] := by decide +kernel
  have hname : carriageReturn ∉ units "Name" ∧ carriageReturn ∉ units "Note" := by decide +kernel
  have hlines : KeepsLines (laidOut reportSheet) := by
    rw [hlaid]
    refine ⟨?_, ?_, ?_, ?_⟩
    · simp [hname]
    · simp [isEmptyLine]
    · simp [isEmptyLine]
    · simp [isEmptyLine]
  have hread := ((read_sheetCsv_iff (some 100) reportSheet (by decide +kernel) (by decide +kernel)
    (by decide +kernel)).2).mpr hlines
  rw [hread]
  decide +kernel

def brokenSheet : List (List Cell) := [[.other (units "a\rb")]]

/-- One row of one cell, which is read as two records. -/
theorem carriageReturn_splits :
    (nonBlankRows brokenSheet).length = 1 ∧
      read csv (sheetCsv none brokenSheet) = some [[units "a"], [units "b"]] ∧
      read csv (sheetCsv none brokenSheet) ≠ some (shownRows brokenSheet) := by
  decide +kernel

end TableShape

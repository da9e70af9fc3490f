import Mathlib.Algebra.GroupWithZero.Nat
import Mathlib.Data.List.Basic

/-!
# Comma-separated records

Records of fields in the format of RFC 4180, where a newline ends a record, over any
alphabet with the three special characters. A field is written bare or between quotes,
with its quotes doubled. The reader keeps how a field was written, so that writing is
its inverse on the texts that it accepts.
-/

namespace Csv

structure Dialect (α : Type) where
  comma : α
  quote : α
  newline : α
  comma_ne_quote : comma ≠ quote
  comma_ne_newline : comma ≠ newline
  quote_ne_newline : quote ≠ newline

inductive Field (α : Type) where
  | bare (text : List α)
  | quoted (text : List α)
  deriving DecidableEq

variable {α : Type}

namespace Field

def text : Field α → List α
  | bare text => text
  | quoted text => text

def map (f : List α → List α) : Field α → Field α
  | bare text => bare (f text)
  | quoted text => quoted (f text)

def mapBare (f : List α → List α) : Field α → Field α
  | bare text => bare (f text)
  | quoted text => quoted text

def cons (c : α) : Field α → Field α := map (c :: ·)

@[simp] theorem text_map (f : List α → List α) (field : Field α) : (field.map f).text = f field.text := by
  cases field <;> rfl

end Field

abbrev Line (α : Type) : Type := List (Field α)

/-- What can only be written between quotes. -/
def IsSpecial (d : Dialect α) (c : α) : Prop := c = d.comma ∨ c = d.quote ∨ c = d.newline

instance [DecidableEq α] (d : Dialect α) (c : α) : Decidable (IsSpecial d c) := inferInstanceAs (Decidable (_ ∨
    _ ∨ _))

def IsWritten (d : Dialect α) : Field α → Prop
  | .bare text => ∀ c ∈ text, ¬ IsSpecial d c
  | .quoted _ => True

/-- Every record has a field, and no bare field needs quotes. -/
def AreWritten (d : Dialect α) (lines : List (Line α)) : Prop :=
  ∀ line ∈ lines, line ≠ [] ∧ ∀ field ∈ line, IsWritten d field

/-- Where the reader is: before a record, before another field of one, in a field, or after a quote in one. -/
inductive Mode where
  | record
  | field
  | bare
  | quoted
  | closed
  deriving DecidableEq

/-- The first field of a mode, if it ends there. -/
def ended : Mode → Field α
  | .closed => .quoted []
  | _ => .bare []

@[simp] theorem ended_closed : (ended .closed : Field α) = .quoted [] := rfl

/-- The first field starts with one more character. -/
def prepend (c : α) : List (Line α) → List (Line α)
  | (field :: fields) :: lines => (field.cons c :: fields) :: lines
  | lines => lines

/-- The first record starts with one more field. -/
def addField (field : Field α) : List (Line α) → List (Line α)
  | line :: lines => (field :: line) :: lines
  | [] => [[field]]

theorem addField_foldr_prepend (field : Field α) (text : List α) (lines : List (Line α)) :
    text.foldr prepend (addField field lines) = addField (text.foldr Field.cons field) lines := by
  induction text with
  | nil => rfl
  | cons c cs ih =>
    rw [List.foldr_cons, ih]
    cases lines <;> rfl

theorem foldr_cons_bare (text : List α) : text.foldr Field.cons (.bare []) = .bare text := by
  induction text with
  | nil => rfl
  | cons c cs ih =>
    rw [List.foldr_cons, ih]
    rfl

theorem foldr_cons_quoted (text : List α) : text.foldr Field.cons (.quoted []) = .quoted text := by
  induction text with
  | nil => rfl
  | cons c cs ih =>
    rw [List.foldr_cons, ih]
    rfl

theorem areWritten_cons {d : Dialect α} {field : Field α} {fields : Line α} {rest : List (Line α)} :
    AreWritten d ((field :: fields) :: rest) ↔
      IsWritten d field ∧ (∀ f ∈ fields, IsWritten d f) ∧ AreWritten d rest := by
  simp [AreWritten, and_assoc]

theorem isWritten_ended (d : Dialect α) (mode : Mode) : IsWritten d (ended mode) := by
  cases mode <;> simp [ended, IsWritten]

variable [DecidableEq α] (d : Dialect α)

section Writing

def double (text : List α) : List α := text.flatMap fun c => if c = d.quote then [c, c] else [c]

def renderField : Field α → List α
  | .bare text => text
  | .quoted text => d.quote :: (double d text ++ [d.quote])

def renderLine : Line α → List α
  | [] => []
  | field :: fields => renderField d field ++ fields.flatMap fun f => d.comma :: renderField d f

def render : List (Line α) → List α
  | [] => []
  | line :: lines => renderLine d line ++ lines.flatMap fun l => d.newline :: renderLine d l

@[simp] theorem renderLine_singleton (field : Field α) : renderLine d [field] = renderField d field :=
  List.append_nil _

theorem renderLine_cons_cons (field field' : Field α) (fields : Line α) :
    renderLine d (field :: field' :: fields) =
      renderField d field ++ d.comma :: renderLine d (field' :: fields) := rfl

@[simp] theorem render_singleton (line : Line α) : render d [line] = renderLine d line := List.append_nil _

theorem render_cons_cons (line line' : Line α) (lines : List (Line α)) :
    render d (line :: line' :: lines) = renderLine d line ++ d.newline :: render d (line' :: lines) := rfl

theorem renderLine_concat {line : Line α} (hne : line ≠ []) (field : Field α) :
    renderLine d (line ++ [field]) = renderLine d line ++ d.comma :: renderField d field := by
  cases line with
  | nil => exact absurd rfl hne
  | cons first fields => simp [renderLine]

theorem render_concat {lines : List (Line α)} (hne : lines ≠ []) (line : Line α) :
    render d (lines ++ [line]) = render d lines ++ d.newline :: renderLine d line := by
  cases lines with
  | nil => exact absurd rfl hne
  | cons first lines => simp [render]

theorem intercalate_renderField (line : Line α) :
    [d.comma].intercalate (line.map (renderField d)) = renderLine d line := by
  induction line with
  | nil => rfl
  | cons field fields ih =>
    cases fields with
    | nil => simp
    | cons field' fields =>
      rw [renderLine_cons_cons, ← ih, List.map_cons, List.map_cons, List.intercalate_cons_cons]
      simp

theorem intercalate_renderLine (lines : List (Line α)) :
    [d.newline].intercalate (lines.map (renderLine d)) = render d lines := by
  induction lines with
  | nil => rfl
  | cons line lines ih =>
    cases lines with
    | nil => simp
    | cons line' lines =>
      rw [render_cons_cons, ← ih, List.map_cons, List.map_cons, List.intercalate_cons_cons]
      simp

end Writing

def parseFrom : Mode → List α → Option (List (Line α))
  | .record, [] => some []
  | .quoted, [] => none
  | mode, [] => some [[ended mode]]
  | .quoted, c :: cs => if c = d.quote then parseFrom .closed cs else (parseFrom .quoted cs).map (prepend c)
  | mode, c :: cs =>
    if c = d.quote then
      if mode = .closed then (parseFrom .quoted cs).map (prepend c)
      else if mode = .bare then none
      else parseFrom .quoted cs
    else if c = d.comma then (parseFrom .field cs).map (addField (ended mode))
    else if c = d.newline then (parseFrom .record cs).map ([ended mode] :: ·)
    else if mode = .closed then none
    else (parseFrom .bare cs).map (prepend c)

theorem parseFrom_quoted_cons (c : α) (cs : List α) :
    parseFrom d .quoted (c :: cs) =
      if c = d.quote then parseFrom d .closed cs else (parseFrom d .quoted cs).map (prepend c) := rfl

theorem parseFrom_cons {mode : Mode} (hmode : mode ≠ .quoted) (c : α) (cs : List α) :
    parseFrom d mode (c :: cs) =
      if c = d.quote then
        if mode = .closed then (parseFrom d .quoted cs).map (prepend c)
        else if mode = .bare then none
        else parseFrom d .quoted cs
      else if c = d.comma then (parseFrom d .field cs).map (addField (ended mode))
      else if c = d.newline then (parseFrom d .record cs).map ([ended mode] :: ·)
      else if mode = .closed then none
      else (parseFrom d .bare cs).map (prepend c) := by
  rw [parseFrom]
  exact hmode

def parse (text : List α) : Option (List (Line α)) := parseFrom d .record text

/-- The texts of the fields. -/
def read (text : List α) : Option (List (List (List α))) := (parse d text).map fun lines => lines.map
    (·.map Field.text)

section Reading

variable {d}

theorem parseFrom_record_eq_field {text : List α} (h : text ≠ []) :
    parseFrom d .record text = parseFrom d .field text := by
  cases text with
  | nil => exact absurd rfl h
  | cons c cs => rfl

/-- A character of a field without quotes. -/
theorem parseFrom_bare_cons {mode : Mode} (hmode : mode ≠ .quoted ∧ mode ≠ .closed) {c : α} (hc : ¬ IsSpecial d c)
    (cs : List α) : parseFrom d mode (c :: cs) = (parseFrom d .bare cs).map (prepend c) := by
  simp only [IsSpecial, not_or] at hc
  rw [parseFrom_cons d hmode.1, if_neg hc.2.1, if_neg hc.1, if_neg hc.2.2, if_neg hmode.2]

theorem parseFrom_bare_append {text : List α} (h : ∀ c ∈ text, ¬ IsSpecial d c) (rest : List α) :
    parseFrom d .bare (text ++ rest) = (parseFrom d .bare rest).map (text.foldr prepend ·) := by
  induction text with
  | nil => simp
  | cons c cs ih =>
    obtain ⟨hc, hcs⟩ := List.forall_mem_cons.mp h
    rw [List.cons_append, parseFrom_bare_cons (by simp) hc, ih hcs, Option.map_map]
    rfl

theorem double_cons (c : α) (text : List α) :
    double d (c :: text) = (if c = d.quote then [c, c] else [c]) ++ double d text := rfl

theorem double_append (text text' : List α) : double d (text ++ text') = double d text ++ double d text' :=
  List.flatMap_append

theorem parseFrom_quoted_append (text rest : List α) :
    parseFrom d .quoted (double d text ++ rest) = (parseFrom d .quoted rest).map (text.foldr prepend ·) := by
  induction text with
  | nil => simp [double]
  | cons c cs ih =>
    have hstep : ∀ tail : List α, parseFrom d .quoted ((if c = d.quote then [c, c] else [c]) ++ tail) =
        (parseFrom d .quoted tail).map (prepend c) := by
      intro tail
      split
      · rename_i hc
        rw [List.cons_append, List.singleton_append, parseFrom_quoted_cons, if_pos hc, parseFrom_cons d (by simp),
          if_pos hc, if_pos rfl]
      · rename_i hc
        rw [List.singleton_append, parseFrom_quoted_cons, if_neg hc]
    rw [double_cons, List.append_assoc, hstep, ih, Option.map_map]
    rfl

/-- What follows a field: the end, another field, or another record. -/
def close (d : Dialect α) (field : Field α) : List α → Option (List (Line α))
  | [] => some [[field]]
  | c :: cs =>
    if c = d.comma then (parseFrom d .field cs).map (addField field)
    else if c = d.newline then (parseFrom d .record cs).map ([field] :: ·)
    else none

def IsBreak (d : Dialect α) : List α → Prop
  | [] => True
  | c :: _ => c = d.comma ∨ c = d.newline

omit [DecidableEq α] in
theorem isBreak_comma (rest : List α) : IsBreak d (d.comma :: rest) := .inl rfl

omit [DecidableEq α] in
theorem isBreak_newline (rest : List α) : IsBreak d (d.newline :: rest) := .inr rfl

theorem close_foldr {rest : List α} (field : Field α) (text : List α) :
    (close d field rest).map (text.foldr prepend ·) = close d (text.foldr Field.cons field) rest := by
  have hsingle : ∀ field : Field α, ∀ lines : List (Line α),
      text.foldr prepend ([field] :: lines) = [text.foldr Field.cons field] :: lines := by
    intro field lines
    exact addField_foldr_prepend field text ([] :: lines)
  cases rest with
  | nil => simp [close, hsingle]
  | cons c cs =>
    simp only [close]
    split
    · rw [Option.map_map]
      congr 1
      funext lines
      exact addField_foldr_prepend field text lines
    · split
      · rw [Option.map_map]
        congr 1
        funext lines
        exact hsingle field lines
      · rfl

theorem parseFrom_break {mode : Mode} (hmode : mode ≠ .quoted ∧ mode ≠ .record) {rest : List α}
    (h : IsBreak d rest) : parseFrom d mode rest = close d (ended mode) rest := by
  cases rest with
  | nil =>
    rw [parseFrom]
    · rfl
    · exact hmode.2
    · exact hmode.1
  | cons c cs =>
    have hquote : c ≠ d.quote := by
      rintro rfl
      rcases h with h | h
      · exact d.comma_ne_quote h.symm
      · exact d.quote_ne_newline h
    rw [parseFrom_cons d hmode.1, if_neg hquote, close]
    rcases h with rfl | rfl
    · rw [if_pos rfl, if_pos rfl]
    · rw [if_neg d.comma_ne_newline.symm, if_pos rfl, if_neg d.comma_ne_newline.symm, if_pos rfl]

theorem parseFrom_renderField {field : Field α} (h : IsWritten d field) {rest : List α} (hrest : IsBreak d rest) :
    parseFrom d .field (renderField d field ++ rest) = close d field rest := by
  cases field with
  | bare text =>
    cases text with
    | nil => exact parseFrom_break (by simp) hrest
    | cons c cs =>
      obtain ⟨hc, hcs⟩ := List.forall_mem_cons.mp h
      rw [renderField, List.cons_append, parseFrom_bare_cons (by simp) hc, parseFrom_bare_append hcs,
        parseFrom_break (by simp) hrest, Option.map_map]
      exact (close_foldr (.bare []) (c :: cs)).trans (by rw [foldr_cons_bare])
  | quoted text =>
    rw [renderField, List.cons_append, List.append_assoc, parseFrom_cons d (by simp), if_pos rfl, if_neg (by simp),
      if_neg (by simp), parseFrom_quoted_append, List.singleton_append, parseFrom_quoted_cons, if_pos rfl,
      parseFrom_break (by simp) hrest, close_foldr, ended_closed, foldr_cons_quoted]

theorem renderLine_ne_nil {line : Line α} (hne : line ≠ []) (h : line ≠ [.bare []]) : renderLine d line ≠ [] := by
  cases line with
  | nil => exact absurd rfl hne
  | cons field fields =>
    cases fields with
    | cons field' fields => simp [renderLine_cons_cons]
    | nil =>
      rw [renderLine_singleton]
      cases field with
      | bare text =>
        rintro rfl
        exact h rfl
      | quoted text => exact List.cons_ne_nil _ _

/-- A record does not end like the empty one. -/
theorem renderLine_eq_concat {line : Line α} (hne : line ≠ []) (hwritten : ∀ field ∈ line, IsWritten d field)
    (h : line ≠ [.bare []]) : ∃ text c, renderLine d line = text ++ [c] ∧ c ≠ d.newline := by
  induction line with
  | nil => exact absurd rfl hne
  | cons field fields ih =>
    obtain ⟨hfield, hfields⟩ := List.forall_mem_cons.mp hwritten
    cases fields with
    | nil =>
      rw [renderLine_singleton]
      cases field with
      | quoted text => exact ⟨d.quote :: double d text, d.quote, rfl, d.quote_ne_newline⟩
      | bare text =>
        rcases List.eq_nil_or_concat text with rfl | ⟨text', c, rfl⟩
        · exact absurd rfl h
        · have hc := hfield c (by simp)
          exact ⟨text', c, List.concat_eq_append, fun hnewline => hc (.inr (.inr hnewline))⟩
    | cons field' fields =>
      rw [renderLine_cons_cons]
      by_cases hempty : field' :: fields = [.bare []]
      · rw [hempty, renderLine_singleton]
        exact ⟨renderField d field, d.comma, rfl, d.comma_ne_newline⟩
      · obtain ⟨text, c, htext, hc⟩ := ih (by simp) hfields hempty
        exact ⟨renderField d field ++ d.comma :: text, c, by simp [htext], hc⟩

theorem parseFrom_renderLine {line : Line α} (hne : line ≠ []) (h : ∀ field ∈ line, IsWritten d field) :
    parseFrom d .field (renderLine d line) = some [line] ∧
      ∀ rest, parseFrom d .field (renderLine d line ++ d.newline :: rest) =
        (parseFrom d .record rest).map (line :: ·) := by
  induction line with
  | nil => exact absurd rfl hne
  | cons field fields ih =>
    obtain ⟨hfield, hfields⟩ := List.forall_mem_cons.mp h
    cases fields with
    | nil =>
      rw [renderLine_singleton]
      constructor
      · have hparse := parseFrom_renderField hfield (show IsBreak d [] from trivial)
        rwa [List.append_nil] at hparse
      · intro rest
        rw [parseFrom_renderField hfield (isBreak_newline rest)]
        simp [close, d.comma_ne_newline.symm]
    | cons field' fields =>
      obtain ⟨hlast, hnext⟩ := ih (by simp) hfields
      rw [renderLine_cons_cons]
      constructor
      · rw [parseFrom_renderField hfield (isBreak_comma _)]
        simp [close, hlast, addField]
      · intro rest
        rw [List.append_assoc, List.cons_append, parseFrom_renderField hfield (isBreak_comma _)]
        simp only [close, hnext, if_pos, Option.map_map]
        rfl

/-- What is written is read back; an empty record at the end cannot be told from no record. -/
theorem parse_render {lines : List (Line α)} (h : AreWritten d lines) (hlast : lines.getLast? ≠ some [.bare []]) :
    parse d (render d lines) = some lines := by
  unfold parse
  induction lines with
  | nil => rfl
  | cons line lines ih =>
    obtain ⟨⟨hne, hline⟩, hlines⟩ := List.forall_mem_cons.mp h
    cases lines with
    | nil =>
      rw [render_singleton, parseFrom_record_eq_field]
      · exact (parseFrom_renderLine hne hline).1
      · exact renderLine_ne_nil hne (by simpa using hlast)
    | cons line' lines =>
      rw [render_cons_cons, parseFrom_record_eq_field (by simp), (parseFrom_renderLine hne hline).2,
        ih hlines (by simpa using hlast)]
      rfl

/-- What the reader has already seen of the first field. -/
def opening (d : Dialect α) : Mode → List α
  | .quoted => [d.quote]
  | mode => renderField d (ended mode)

/-- How the first record begins. -/
def Begins : Mode → List (Line α) → Prop
  | .record, _ => True
  | .field, lines => ∃ field fields rest, lines = (field :: fields) :: rest
  | .bare, lines => ∃ text fields rest, lines = (.bare text :: fields) :: rest
  | _, lines => ∃ text fields rest, lines = (.quoted text :: fields) :: rest

/-- What is read in a mode is well written, and writing it gives the text again. -/
structure Sound (d : Dialect α) (mode : Mode) (text : List α) (lines : List (Line α)) : Prop where
  begins : Begins mode lines
  written : AreWritten d lines
  text_eq : opening d mode ++ text = render d lines

namespace Sound

variable {mode : Mode} {c : α} {text : List α} {lines : List (Line α)}

/-- The first field ends, and another one follows. -/
theorem comma (hmode : mode ≠ .quoted) (h : Sound d .field text lines) :
    Sound d mode (d.comma :: text) (addField (ended mode) lines) := by
  obtain ⟨field, fields, rest, rfl⟩ := h.begins
  refine ⟨?_, ?_, ?_⟩
  · cases mode with
    | record => trivial
    | quoted => exact absurd rfl hmode
    | _ => exact ⟨_, _, _, rfl⟩
  · obtain ⟨hfield, hfields, hrest⟩ := areWritten_cons.mp h.written
    exact areWritten_cons.mpr ⟨isWritten_ended d mode, List.forall_mem_cons.mpr ⟨hfield, hfields⟩, hrest⟩
  · have hrender : render d (addField (ended mode) ((field :: fields) :: rest)) =
        renderField d (ended mode) ++ d.comma :: render d ((field :: fields) :: rest) := by
      simp [addField, render, renderLine]
    have htext : text = render d ((field :: fields) :: rest) := h.text_eq
    rw [hrender, ← htext]
    cases mode with
    | quoted => exact absurd rfl hmode
    | _ => rfl

/-- The first field ends, and another record follows. -/
theorem newline (hmode : mode ≠ .quoted) (hne : text ≠ []) (h : Sound d .record text lines) :
    Sound d mode (d.newline :: text) ([ended mode] :: lines) := by
  have htext : text = render d lines := h.text_eq
  refine ⟨?_, ?_, ?_⟩
  · cases mode with
    | record => trivial
    | quoted => exact absurd rfl hmode
    | _ => exact ⟨_, _, _, rfl⟩
  · exact areWritten_cons.mpr ⟨isWritten_ended d mode, by simp, h.written⟩
  · cases lines with
    | nil => exact absurd htext hne
    | cons line lines =>
      rw [render_cons_cons, renderLine_singleton, ← htext]
      cases mode with
      | quoted => exact absurd rfl hmode
      | _ => rfl

/-- A field without quotes goes on, or starts. -/
theorem bare (hmode : mode ≠ .quoted ∧ mode ≠ .closed) (hc : ¬ IsSpecial d c) (h : Sound d .bare text lines) :
    Sound d mode (c :: text) (prepend c lines) := by
  obtain ⟨content, fields, rest, rfl⟩ := h.begins
  refine ⟨?_, ?_, ?_⟩
  · cases mode with
    | record => trivial
    | quoted => exact absurd rfl hmode.1
    | closed => exact absurd rfl hmode.2
    | _ => exact ⟨_, _, _, rfl⟩
  · obtain ⟨hfield, hrest⟩ := areWritten_cons.mp h.written
    exact areWritten_cons.mpr ⟨List.forall_mem_cons.mpr ⟨hc, hfield⟩, hrest⟩
  · have htext : text = render d ((.bare content :: fields) :: rest) := h.text_eq
    have hopening : opening d mode = [] := by
      cases mode with
      | quoted => exact absurd rfl hmode.1
      | closed => exact absurd rfl hmode.2
      | _ => rfl
    rw [hopening, htext]
    rfl

theorem opened (hmode : mode = .record ∨ mode = .field) (h : Sound d .quoted text lines) :
    Sound d mode (d.quote :: text) lines := by
  obtain ⟨content, fields, rest, rfl⟩ := h.begins
  rcases hmode with rfl | rfl
  · exact ⟨trivial, h.written, h.text_eq⟩
  · exact ⟨⟨_, _, _, rfl⟩, h.written, h.text_eq⟩

theorem closed (h : Sound d .closed text lines) : Sound d .quoted (d.quote :: text) lines :=
  ⟨h.begins, h.written, h.text_eq⟩

/-- A character between quotes; a quote there is a doubled one. -/
theorem quoted (hmode : mode = .quoted ∧ c ≠ d.quote ∨ mode = .closed ∧ c = d.quote)
    (h : Sound d .quoted text lines) : Sound d mode (c :: text) (prepend c lines) := by
  obtain ⟨content, fields, rest, rfl⟩ := h.begins
  have hwritten : AreWritten d (prepend c ((.quoted content :: fields) :: rest)) := by
    obtain ⟨-, hrest⟩ := areWritten_cons.mp h.written
    exact areWritten_cons.mpr ⟨trivial, hrest⟩
  have htext : d.quote :: text = render d ((.quoted content :: fields) :: rest) := h.text_eq
  rw [render, renderLine, renderField, List.cons_append, List.cons_append, List.cons.injEq] at htext
  rcases hmode with ⟨rfl, hc⟩ | ⟨rfl, rfl⟩
  · refine ⟨⟨_, _, _, rfl⟩, hwritten, ?_⟩
    simp [prepend, Field.cons, Field.map, render, renderLine, renderField, opening, double, hc, htext.2]
  · refine ⟨⟨_, _, _, rfl⟩, hwritten, ?_⟩
    simp [prepend, Field.cons, Field.map, render, renderLine, renderField, opening, ended, double, htext.2]

end Sound

/-- A text that is accepted and has no newline at its end is the writing of what is read. -/
theorem sound_of_parseFrom {mode : Mode} {text : List α} {lines : List (Line α)}
    (h : parseFrom d mode text = some lines) (hlast : text.getLast? ≠ some d.newline) :
    Sound d mode text lines := by
  induction text generalizing mode lines with
  | nil =>
    cases mode with
    | record =>
      obtain rfl := Option.some.inj h
      exact ⟨trivial, by simp [AreWritten], rfl⟩
    | quoted => cases h
    | _ =>
      obtain rfl := Option.some.inj h
      exact ⟨⟨_, _, _, rfl⟩, by simp [AreWritten, IsWritten, ended], rfl⟩
  | cons c cs ih =>
    have htail : cs.getLast? ≠ some d.newline := by
      cases cs with
      | nil => simp
      | cons c' cs => simpa using hlast
    have hrest : c = d.newline → cs ≠ [] := by
      rintro rfl rfl
      exact hlast rfl
    by_cases hquoted : mode = .quoted
    · subst hquoted
      rw [parseFrom] at h
      split at h
      · rename_i hc
        subst hc
        exact (ih h htail).closed
      · rename_i hc
        obtain ⟨lines', hparse, rfl⟩ := Option.map_eq_some_iff.mp h
        exact (ih hparse htail).quoted (.inl ⟨rfl, hc⟩)
    rw [parseFrom_cons d hquoted] at h
    split at h
    · rename_i hc
      split at h
      · rename_i hclosed
        obtain ⟨lines', hparse, rfl⟩ := Option.map_eq_some_iff.mp h
        exact (ih hparse htail).quoted (.inr ⟨hclosed, hc⟩)
      · rename_i hclosed
        split at h
        · cases h
        · rename_i hbare
          subst hc
          refine (ih h htail).opened ?_
          cases mode with
          | record => exact .inl rfl
          | field => exact .inr rfl
          | bare => exact absurd rfl hbare
          | quoted => exact absurd rfl hquoted
          | closed => exact absurd rfl hclosed
    · rename_i hquote
      split at h
      · rename_i hc
        subst hc
        obtain ⟨lines', hparse, rfl⟩ := Option.map_eq_some_iff.mp h
        exact (ih hparse htail).comma hquoted
      · rename_i hcomma
        split at h
        · rename_i hc
          have hne := hrest hc
          subst hc
          obtain ⟨lines', hparse, rfl⟩ := Option.map_eq_some_iff.mp h
          exact (ih hparse htail).newline hquoted hne
        · rename_i hnewline
          split at h
          · cases h
          · rename_i hclosed
            obtain ⟨lines', hparse, rfl⟩ := Option.map_eq_some_iff.mp h
            have hc : ¬ IsSpecial d c := by simp [IsSpecial, hquote, hcomma, hnewline]
            exact (ih hparse htail).bare ⟨hquoted, hclosed⟩ hc

theorem render_of_parse {text : List α} {lines : List (Line α)} (h : parse d text = some lines)
    (hlast : text.getLast? ≠ some d.newline) : AreWritten d lines ∧ render d lines = text :=
  have hsound := sound_of_parseFrom h hlast
  ⟨hsound.written, hsound.text_eq.symm⟩

end Reading

/-! ## Quotes that are written

A writing that has no more quotes than its texts need puts exactly those fields between
quotes that need them.
-/

section Quotes

variable {d}

/-- The quotes that a field is written with. -/
def marks (d : Dialect α) : Field α → Nat
  | .bare _ => 0
  | .quoted text => 2 * text.count d.quote + 2

def lineMarks (d : Dialect α) (line : Line α) : Nat := (line.map (marks d)).sum

def tableMarks (d : Dialect α) (lines : List (Line α)) : Nat := (lines.map (lineMarks d)).sum

theorem count_double (text : List α) : (double d text).count d.quote = 2 * text.count d.quote := by
  induction text with
  | nil => rfl
  | cons c cs ih =>
    rw [double_cons, List.count_append, ih]
    split
    · rename_i hc
      subst hc
      simp
      omega
    · rename_i hc
      simp [hc]

theorem count_renderField {field : Field α} (h : IsWritten d field) :
    (renderField d field).count d.quote = marks d field := by
  cases field with
  | bare text => exact List.count_eq_zero_of_not_mem fun hmem => h _ hmem (.inr (.inl rfl))
  | quoted text =>
    simp [renderField, marks, count_double]

theorem count_renderLine {line : Line α} (h : ∀ field ∈ line, IsWritten d field) :
    (renderLine d line).count d.quote = lineMarks d line := by
  induction line with
  | nil => rfl
  | cons field fields ih =>
    obtain ⟨hfield, hfields⟩ := List.forall_mem_cons.mp h
    cases fields with
    | nil => simp [lineMarks, count_renderField hfield]
    | cons field' fields =>
      rw [renderLine_cons_cons, List.count_append, count_renderField hfield,
        List.count_cons_of_ne d.comma_ne_quote, ih hfields]
      rfl

theorem count_render {lines : List (Line α)} (h : AreWritten d lines) :
    (render d lines).count d.quote = tableMarks d lines := by
  induction lines with
  | nil => rfl
  | cons line lines ih =>
    obtain ⟨hline, hlines⟩ := List.forall_mem_cons.mp h
    cases lines with
    | nil => simp [tableMarks, count_renderLine hline.2]
    | cons line' lines =>
      rw [render_cons_cons, List.count_append, count_renderLine hline.2,
        List.count_cons_of_ne d.quote_ne_newline.symm, ih hlines]
      rfl

/-- Only a field that needs quotes has them. -/
def NeedsQuotes (d : Dialect α) : Field α → Prop
  | .bare _ => True
  | .quoted text => ∃ c ∈ text, IsSpecial d c

theorem marks_le {field field' : Field α} (hwritten : IsWritten d field) (hneeds : NeedsQuotes d field')
    (htext : field.text = field'.text) :
    marks d field' ≤ marks d field ∧ (marks d field = marks d field' → field = field') := by
  cases field' with
  | bare text' =>
    cases field with
    | bare text =>
      obtain rfl : text = text' := htext
      exact ⟨Nat.le_refl _, fun _ => rfl⟩
    | quoted text => exact ⟨Nat.zero_le _, fun hmarks => absurd hmarks (Nat.succ_ne_zero _)⟩
  | quoted text' =>
    obtain ⟨c, hmem, hc⟩ := hneeds
    cases field with
    | bare text =>
      obtain rfl : text = text' := htext
      exact absurd hc (hwritten c hmem)
    | quoted text =>
      obtain rfl : text = text' := htext
      exact ⟨Nat.le_refl _, fun _ => rfl⟩

theorem lineMarks_le {line line' : Line α} (hwritten : ∀ field ∈ line, IsWritten d field)
    (hneeds : ∀ field ∈ line', NeedsQuotes d field) (htext : line.map Field.text = line'.map Field.text) :
    lineMarks d line' ≤ lineMarks d line ∧ (lineMarks d line = lineMarks d line' → line = line') := by
  induction line generalizing line' with
  | nil =>
    obtain rfl : line' = [] := by simpa using htext.symm
    exact ⟨Nat.le_refl _, fun _ => rfl⟩
  | cons field fields ih =>
    cases line' with
    | nil => simp at htext
    | cons field' fields' =>
      obtain ⟨hfield, hfields⟩ := List.forall_mem_cons.mp hwritten
      obtain ⟨hneed, hneeds'⟩ := List.forall_mem_cons.mp hneeds
      rw [List.map_cons, List.map_cons, List.cons.injEq] at htext
      obtain ⟨hle, heq⟩ := marks_le hfield hneed htext.1
      obtain ⟨hle', heq'⟩ := ih hfields hneeds' htext.2
      simp only [lineMarks, List.map_cons, List.sum_cons] at hle' heq' ⊢
      refine ⟨by omega, fun hmarks => ?_⟩
      rw [heq (by omega), heq' (by omega)]

theorem eq_of_tableMarks_eq {lines lines' : List (Line α)} (hwritten : AreWritten d lines)
    (hneeds : ∀ line ∈ lines', ∀ field ∈ line, NeedsQuotes d field)
    (htext : lines.map (·.map Field.text) = lines'.map (·.map Field.text))
    (hmarks : tableMarks d lines = tableMarks d lines') : lines = lines' := by
  suffices h : tableMarks d lines' ≤ tableMarks d lines ∧
      (tableMarks d lines = tableMarks d lines' → lines = lines') from h.2 hmarks
  clear hmarks
  induction lines generalizing lines' with
  | nil =>
    obtain rfl : lines' = [] := by simpa using htext.symm
    exact ⟨Nat.le_refl _, fun _ => rfl⟩
  | cons line lines ih =>
    cases lines' with
    | nil => simp at htext
    | cons line' lines' =>
      obtain ⟨hline, hlines⟩ := List.forall_mem_cons.mp hwritten
      obtain ⟨hneed, hneeds'⟩ := List.forall_mem_cons.mp hneeds
      rw [List.map_cons, List.map_cons, List.cons.injEq] at htext
      obtain ⟨hle, heq⟩ := lineMarks_le hline.2 hneed htext.1
      obtain ⟨hle', heq'⟩ := ih hlines hneeds' htext.2
      simp only [tableMarks, List.map_cons, List.sum_cons] at hle' heq' ⊢
      refine ⟨by omega, fun hmarks => ?_⟩
      rw [heq (by omega), heq' (by omega)]

end Quotes

end Csv

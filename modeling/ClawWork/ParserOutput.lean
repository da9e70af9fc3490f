import ClawWork.JsonText
import ClawWork.SpreadsheetText

/-!
# The output of the parser child

The child prints its response as JSON, and the server reads the bytes with a limit that
is derived from the limit of the text. The text is counted in UTF-16 code units and may
have unpaired surrogates, which `JSON.stringify` escapes.
-/

namespace ParserOutput

open CodeUnits JsonText SpreadsheetText

def positiveInteger (value : Option Int) (fallback : Nat) : Nat :=
  match value with
  | some n => if 0 < n then n.toNat else fallback
  | none => fallback

/-- The limit of the extracted text; `none` for an option that is no safe integer. -/
def maxExtractedChars (option : Option Int) : Nat := min (positiveInteger option 1000000) 1000000

def maxOutputBytes (option : Option Int) : Nat := maxExtractedChars option * 6 + 4096

def isLead (u : UInt16) : Bool := 0xD800 ≤ u.toNat && u.toNat < 0xDC00

def isTrail (u : UInt16) : Bool := 0xDC00 ≤ u.toNat && u.toNat < 0xE000

/-- A unit on its own; a surrogate is replaced. -/
def character (u : UInt16) : Char := if isLead u || isTrail u then Utf8.replacement else Char.ofNat u.toNat

/-- The characters of a text, as a stream encodes them. -/
def characters : Text → List Char
  | [] => []
  | [u] => [character u]
  | u :: v :: rest =>
    if isLead u && isTrail v then
      Char.ofNat (0x10000 + (u.toNat - 0xD800) * 0x400 + (v.toNat - 0xDC00)) :: characters rest
    else character u :: characters (v :: rest)

/-- The bytes that a stream writes for a text. -/
def utf8 (text : Text) : List UInt8 := Utf8.encode (characters text)

def hexUnit (n : Nat) : UInt16 := UInt16.ofNat (hexDigit n).toNat

/-- `\u` and four hexadecimal digits. -/
def unicodeEscape (u : UInt16) : Text :=
  units "\\u" ++
    [hexUnit (u.toNat / 0x1000), hexUnit (u.toNat / 0x100), hexUnit (u.toNat / 0x10), hexUnit u.toNat]

/-- A unit that is not part of a pair. -/
def escapeUnit (u : UInt16) : Text :=
  if u = 0x22 then units "\\\""
  else if u = 0x5C then units "\\\\"
  else if u = 8 then units "\\b"
  else if u = 9 then units "\\t"
  else if u = 10 then units "\\n"
  else if u = 12 then units "\\f"
  else if u = 13 then units "\\r"
  else if u.toNat < 0x20 || isLead u || isTrail u then unicodeEscape u
  else [u]

def escapeUnits : Text → Text
  | [] => []
  | [u] => escapeUnit u
  | u :: v :: rest =>
    if isLead u && isTrail v then u :: v :: escapeUnits rest
    else escapeUnit u ++ escapeUnits (v :: rest)

/-- `JSON.stringify({ ok: true, text })`. -/
def okResponse (text : Text) : Text :=
  units "\x7b\"ok\":true,\"text\":\"" ++ escapeUnits text ++ units "\"\x7d"

/-- What the server has read of the output of the child. -/
structure Output where
  stdout : List (List UInt8)
  stdoutBytes : Nat
  /-- The child was killed and the promise rejected. -/
  overflowed : Bool

/-- The handler of `data`. -/
def Output.onData (limit : Nat) (output : Output) (chunk : List UInt8) : Output :=
  if output.stdoutBytes + chunk.length > limit then
    { output with stdoutBytes := output.stdoutBytes + chunk.length, overflowed := true }
  else
    { output with stdoutBytes := output.stdoutBytes + chunk.length, stdout := output.stdout ++ [chunk] }

/-- A run over the output of a child, in the chunks in which it arrives. -/
def readOutput (limit : Nat) (chunks : List (List UInt8)) : Output :=
  chunks.foldl (Output.onData limit) ⟨[], 0, false⟩

/-- The server takes the response whole, in whatever chunks it arrives. -/
structure Accepted (option : Option Int) (text : Text) : Prop where
  bytes_le : (utf8 (okResponse text)).length ≤ maxOutputBytes option
  not_overflowed : ∀ chunks : List (List UInt8), chunks.flatten = utf8 (okResponse text) →
    (readOutput (maxOutputBytes option) chunks).overflowed = false
  stdout_eq : ∀ chunks : List (List UInt8), chunks.flatten = utf8 (okResponse text) →
    (readOutput (maxOutputBytes option) chunks).stdout = chunks

/-- A piece without a leading surrogate has its characters on its own. -/
theorem characters_append {piece : Text} (h : ∀ u ∈ piece, isLead u = false) (rest : Text) :
    characters (piece ++ rest) = piece.map character ++ characters rest := by
  induction piece with
  | nil => rfl
  | cons u piece ih =>
    obtain ⟨hu, hpiece⟩ := List.forall_mem_cons.mp h
    have hcons : ∀ tail : Text, characters (u :: tail) = character u :: characters tail := by
      intro tail
      cases tail with
      | nil => rfl
      | cons v tail => simp [characters, hu]
    rw [List.cons_append, hcons, ih hpiece]
    rfl

theorem bytes_character_le (u : UInt16) : bytes [character u] ≤ 4 := by
  simpa [bytes_cons] using (character u).utf8Size_le_four

theorem plain_of_all {text : Text} (h : (text.all fun u => !isLead u) = true) : ∀ u ∈ text, isLead u = false := by
  simpa using h

theorem hexUnit_plain (n : Nat) : isLead (hexUnit n) = false ∧ bytes [character (hexUnit n)] = 1 := by
  have hall : ∀ k < 16, isLead (hexUnit k) = false ∧ bytes [character (hexUnit k)] = 1 := by decide +kernel
  have hmod : hexUnit n = hexUnit (n % 16) := by simp [hexUnit, hexDigit]
  rw [hmod]
  exact hall _ (Nat.mod_lt n (by omega))

theorem unicodeEscape_plain (u : UInt16) :
    (∀ v ∈ unicodeEscape u, isLead v = false) ∧ bytes ((unicodeEscape u).map character) = 6 := by
  have hmark : (∀ v ∈ units "\\u", isLead v = false) ∧ bytes ((units "\\u").map character) = 2 :=
    ⟨plain_of_all (by decide +kernel), by decide +kernel⟩
  constructor
  · intro v hv
    rcases List.mem_append.mp hv with hv | hv
    · exact hmark.1 v hv
    · simp only [List.mem_cons, List.not_mem_nil, or_false] at hv
      rcases hv with rfl | rfl | rfl | rfl <;> exact (hexUnit_plain _).1
  · have hdigit : ∀ (n : Nat) (rest : Text),
        bytes ((hexUnit n :: rest).map character) = 1 + bytes (rest.map character) := by
      intro n rest
      have hone := (hexUnit_plain n).2
      rw [bytes_cons, bytes_nil] at hone
      rw [List.map_cons, bytes_cons]
      omega
    rw [unicodeEscape, List.map_append, bytes_append, hmark.2, hdigit, hdigit, hdigit, hdigit]
    rfl

/-- A unit on its own is written with at most six bytes, and with no lead that could
pair with what follows. -/
theorem escapeUnit_plain (u : UInt16) :
    (∀ v ∈ escapeUnit u, isLead v = false) ∧ bytes ((escapeUnit u).map character) ≤ 6 := by
  unfold escapeUnit
  split_ifs with _ _ _ _ _ _ _ hescape
  iterate 7 exact ⟨plain_of_all (by decide +kernel), by decide +kernel⟩
  · obtain ⟨hlead, hbytes⟩ := unicodeEscape_plain u
    exact ⟨hlead, hbytes.le⟩
  · have hu : isLead u = false := by simp_all
    have hbytes := bytes_character_le u
    exact ⟨by simpa using hu, by simpa using hbytes.trans (by omega)⟩

theorem bytes_escapeUnit_append_le (u : UInt16) (rest : Text) :
    bytes (characters (escapeUnit u ++ rest)) ≤ 6 + bytes (characters rest) := by
  obtain ⟨hlead, hbytes⟩ := escapeUnit_plain u
  rw [characters_append hlead, bytes_append]
  omega

theorem bytes_escapeUnits_le (text : Text) : bytes (characters (escapeUnits text)) ≤ 6 * text.length := by
  induction text using escapeUnits.induct with
  | case1 => simp [escapeUnits, characters]
  | case2 u => simpa [escapeUnits, characters] using bytes_escapeUnit_append_le u []
  | case3 u v rest hpair ih =>
    -- A pair is one character of at most four bytes, and counts as two units.
    rw [escapeUnits, if_pos hpair, characters, if_pos hpair, bytes_cons]
    have hfour := (Char.ofNat (0x10000 + (u.toNat - 0xD800) * 0x400 + (v.toNat - 0xDC00))).utf8Size_le_four
    simp only [List.length_cons]
    omega
  | case4 u v rest hpair ih =>
    rw [escapeUnits, if_neg hpair]
    have hunit := bytes_escapeUnit_append_le u (escapeUnits (v :: rest))
    simp only [List.length_cons] at ih ⊢
    omega

/-- What does not start with a trailing surrogate has its characters on its own. -/
theorem characters_append_cons (text : Text) {u : UInt16} (hu : isTrail u = false) (rest : Text) :
    characters (text ++ u :: rest) = characters text ++ characters (u :: rest) := by
  induction text using characters.induct with
  | case1 => rfl
  | case2 v => simp [characters, hu]
  | case3 v w tail hpair ih => simp [characters, hpair, ih]
  | case4 v w tail hpair ih =>
    rw [List.cons_append, List.cons_append, characters, if_neg hpair, characters, if_neg hpair]
    exact congrArg _ ih

theorem length_utf8_okResponse_le (text : Text) : (utf8 (okResponse text)).length ≤ 6 * text.length + 21 := by
  have hfront : (∀ u ∈ units "\x7b\"ok\":true,\"text\":\"", isLead u = false) ∧
      bytes ((units "\x7b\"ok\":true,\"text\":\"").map character) = 19 :=
    ⟨plain_of_all (by decide +kernel), by decide +kernel⟩
  have hback : bytes (characters (units "\"\x7d")) = 2 := by decide +kernel
  have hquote : units "\"\x7d" = 0x22 :: units "\x7d" := by decide +kernel
  have htext := bytes_escapeUnits_le text
  have hbytes : (utf8 (okResponse text)).length = bytes (characters (okResponse text)) := rfl
  rw [hbytes, okResponse, List.append_assoc, characters_append hfront.1, bytes_append, hfront.2, hquote,
    characters_append_cons _ (by decide), ← hquote, bytes_append, hback]
  omega

theorem foldl_onData_of_le (limit : Nat) (chunks : List (List UInt8)) (output : Output)
    (hfits : output.stdoutBytes + chunks.flatten.length ≤ limit) :
    chunks.foldl (Output.onData limit) output =
      ⟨output.stdout ++ chunks, output.stdoutBytes + chunks.flatten.length, output.overflowed⟩ := by
  induction chunks generalizing output with
  | nil => simp
  | cons chunk chunks ih =>
    rw [List.flatten_cons, List.length_append] at hfits
    have hchunk : ¬ output.stdoutBytes + chunk.length > limit := by omega
    rw [List.foldl_cons, Output.onData, if_neg hchunk, ih _ (by simp only; omega)]
    simp [Nat.add_assoc]

theorem accepted_of_length_le {option : Option Int} {text : Text} (h : text.length ≤ maxExtractedChars option) :
    Accepted option text := by
  have hbytes : (utf8 (okResponse text)).length ≤ maxOutputBytes option := by
    have hresponse := length_utf8_okResponse_le text
    rw [maxOutputBytes]
    omega
  have hread : ∀ chunks : List (List UInt8), chunks.flatten = utf8 (okResponse text) →
      readOutput (maxOutputBytes option) chunks = ⟨chunks, (utf8 (okResponse text)).length, false⟩ := by
    intro chunks hchunks
    have hrun := foldl_onData_of_le (maxOutputBytes option) chunks ⟨[], 0, false⟩ (by simpa [hchunks])
    simpa [readOutput, hchunks] using hrun
  exact ⟨hbytes, fun chunks hchunks => by rw [hread chunks hchunks], fun chunks hchunks =>
    by rw [hread chunks hchunks]⟩

/-- The limit that the child gets in its environment is the one of the server. -/
theorem extractedChars_maxExtractedChars (option : Option Int) :
    extractedChars (some (maxExtractedChars option : Int)) = maxExtractedChars option := by
  have hpositive : 0 < maxExtractedChars option := by
    unfold maxExtractedChars positiveInteger
    split
    · split <;> omega
    · decide
  simp [extractedChars, hpositive]

/-- No response is refused whose text is within the limit, and so none whose text the child has
extracted. -/
theorem response_accepted (option : Option Int) :
    (∀ text : Text, text.length ≤ maxExtractedChars option → Accepted option text) ∧
      ∀ raw : Text, Accepted option (normalizeExtractedText (some (maxExtractedChars option : Int)) raw) := by
  refine ⟨fun text htext => accepted_of_length_le htext, fun raw => accepted_of_length_le ?_⟩
  have htake : (normalizeExtractedText (some (maxExtractedChars option : Int)) raw).length ≤
      extractedChars (some (maxExtractedChars option : Int)) := List.length_take_le _ _
  rwa [extractedChars_maxExtractedChars] at htake

/-- A surrogate that the limit has cut from its pair, a quote and a NUL. -/
theorem response_accepted_cut_pair : Accepted (some 3) [0xD800, 0x22, 0] :=
  (response_accepted (some 3)).1 [0xD800, 0x22, 0] (by decide)

/-- The two escapes take six bytes each, the quote two. -/
example : (utf8 (okResponse [0xD800, 0x22, 0])).length = 21 + 14 := by decide +kernel

end ParserOutput

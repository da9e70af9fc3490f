import ClawWork.JavaScript
import ClawWork.Utf8

/-!
# The text of a JSON value and its size

`JSON.stringify` escapes quotes, backslashes and the control characters; it writes
every other character as it is and puts no white space between the parts. The size
of the text in bytes is bounded part by part.
-/

namespace JsonText

open JavaScript

/-- The decimal text of a number; integers below the exponential notation have their digits. -/
structure NumberFormat where
  print : Rat → List Char
  digits : ∀ n : Nat, n < 10 ^ 21 → print n = Nat.toDigits 10 n

theorem toDigits_num : ∀ n : Nat, n < 10 ^ 21 → Nat.toDigits 10 (n : Rat).num.toNat = Nat.toDigits 10 n :=
  fun _ _ => by simp

def hexDigit (n : Nat) : Char := Nat.digitChar (n % 16)

def escapeChar (c : Char) : List Char :=
  if c = '"' then ['\\', '"']
  else if c = '\\' then ['\\', '\\']
  else if c = '\n' then ['\\', 'n']
  else if c = '\r' then ['\\', 'r']
  else if c = '\t' then ['\\', 't']
  else if c.toNat = 8 then ['\\', 'b']
  else if c.toNat = 12 then ['\\', 'f']
  else if c.toNat < 32 then ['\\', 'u', '0', '0', hexDigit (c.toNat / 16), hexDigit c.toNat]
  else [c]

def quote (s : String) : List Char := '"' :: (s.toList.flatMap escapeChar ++ ['"'])

mutual

/-- `JSON.stringify`. -/
def stringify (format : NumberFormat) : Json → List Char
  | .null => "null".toList
  | .bool b => (toString b).toList
  | .num x => format.print x
  | .str s => quote s
  | .arr items => '[' :: (stringifyItems format items ++ [']'])
  | .obj fields => '\x7b' :: (stringifyFields format fields ++ ['\x7d'])

def stringifyItems (format : NumberFormat) : List Json → List Char
  | [] => []
  | [item] => stringify format item
  | item :: items => stringify format item ++ ',' :: stringifyItems format items

def stringifyFields (format : NumberFormat) : List (String × Json) → List Char
  | [] => []
  | [(key, value)] => quote key ++ ':' :: stringify format value
  | (key, value) :: fields => quote key ++ ':' :: (stringify format value ++ ',' :: stringifyFields format fields)

end

/-- The size of a text in UTF-8. -/
def bytes (text : List Char) : Nat := (Utf8.encode text).length

theorem bytes_cons (c : Char) (text : List Char) : bytes (c :: text) = c.utf8Size + bytes text := by
  simp [bytes, Utf8.encode]

@[simp] theorem bytes_nil : bytes [] = 0 := rfl

@[simp] theorem bytes_append (a b : List Char) : bytes (a ++ b) = bytes a + bytes b := by
  simp [bytes, Utf8.encode]

theorem utf8Size_hexDigit (n : Nat) : (hexDigit n).utf8Size = 1 := by
  have hall : ∀ k < 16, (Nat.digitChar k).utf8Size = 1 := by decide
  exact hall _ (Nat.mod_lt n (by omega))

theorem bytes_escapeChar_le (c : Char) : bytes (escapeChar c) ≤ 6 := by
  have hself : bytes [c] ≤ 4 := by simpa [bytes_cons] using c.utf8Size_le_four
  have hunicode : bytes ['\\', 'u', '0', '0', hexDigit (c.toNat / 16), hexDigit c.toNat] = 6 := by
    simp [bytes_cons, utf8Size_hexDigit, show ('\\').utf8Size = 1 from rfl, show ('u').utf8Size = 1 from rfl,
      show ('0').utf8Size = 1 from rfl]
  unfold escapeChar
  split_ifs
  iterate 7 exact (by decide)
  · omega
  · omega

theorem bytes_flatMap_le {text : List Char} {f : Char → List Char} {n : Nat} (h : ∀ c ∈ text, bytes (f c) ≤ n) :
    bytes (text.flatMap f) ≤ n * text.length := by
  induction text with
  | nil => simp
  | cons c text ih =>
    have hc := h c (by simp)
    have htext := ih fun d hd => h d (by simp [hd])
    rw [List.flatMap_cons, bytes_append, List.length_cons, Nat.mul_succ]
    omega

/-- A quote, what is between, and a quote. -/
theorem bytes_quote (s : String) : bytes (quote s) = bytes (s.toList.flatMap escapeChar) + 2 := by
  have hquote : ('"').utf8Size = 1 := rfl
  rw [quote, bytes_cons, bytes_append, bytes_cons, bytes_nil, hquote]
  omega

theorem bytes_quote_le (s : String) : bytes (quote s) ≤ 6 * s.length + 2 := by
  have hbody : bytes (s.toList.flatMap escapeChar) ≤ 6 * s.toList.length :=
    bytes_flatMap_le fun c _ => bytes_escapeChar_le c
  rw [String.length_toList] at hbody
  rw [bytes_quote]
  omega

/-- A character that is written as one byte. -/
def isPlain (c : Char) : Bool := 32 ≤ c.toNat && c.toNat < 127 && c ≠ '"' && c ≠ '\\'

theorem bytes_escapeChar_plain {c : Char} (h : isPlain c = true) : bytes (escapeChar c) ≤ 1 := by
  simp only [isPlain, Bool.and_eq_true, decide_eq_true_eq] at h
  obtain ⟨⟨⟨hlow, hhigh⟩, hquote⟩, hbackslash⟩ := h
  have hnot : ∀ d : Char, d.toNat < 32 → c ≠ d := by
    rintro d hd rfl
    omega
  have hself : escapeChar c = [c] := by
    rw [escapeChar, if_neg hquote, if_neg hbackslash, if_neg (hnot _ (by decide)), if_neg (hnot _ (by decide)),
      if_neg (hnot _ (by decide)), if_neg (by omega), if_neg (by omega), if_neg (by omega)]
  have hsize : c.utf8Size = 1 :=
    Char.utf8Size_eq_one_iff.mpr (UInt32.le_iff_toNat_le.mpr (Nat.le_of_lt hhigh))
  rw [hself, bytes_cons, hsize, bytes_nil]

theorem bytes_quote_plain {s : String} (h : s.toList.all isPlain = true) : bytes (quote s) ≤ s.length + 2 := by
  have hbody : bytes (s.toList.flatMap escapeChar) ≤ 1 * s.toList.length :=
    bytes_flatMap_le fun c hc => bytes_escapeChar_plain (List.all_eq_true.mp h c hc)
  rw [String.length_toList] at hbody
  rw [bytes_quote]
  omega

theorem bytes_stringifyFields_cons_le (format : NumberFormat) (field : String × Json)
    (fields : List (String × Json)) :
    bytes (stringifyFields format (field :: fields)) ≤
      bytes (quote field.1) + bytes (stringify format field.2) + 2 + bytes (stringifyFields format fields) := by
  have hcolon : (':').utf8Size = 1 := rfl
  have hcomma : (',').utf8Size = 1 := rfl
  cases fields with
  | nil =>
    simp only [stringifyFields, bytes_append, bytes_cons, bytes_nil, hcolon]
    omega
  | cons field fields =>
    rw [stringifyFields, bytes_append, bytes_cons, bytes_append, bytes_cons, hcolon, hcomma]
    · omega
    · simp

theorem bytes_le_length (text : List Char) : bytes text ≤ 4 * text.length := by
  induction text with
  | nil => simp
  | cons c text ih =>
    have hc := c.utf8Size_le_four
    rw [bytes_cons, List.length_cons]
    omega

theorem bytes_stringify_obj_le (format : NumberFormat) (fields : List (String × Json)) :
    bytes (stringify format (.obj fields)) ≤
      (fields.map fun field => bytes (quote field.1) + bytes (stringify format field.2) + 2).sum + 2 := by
  have hfields : bytes (stringifyFields format fields) ≤
      (fields.map fun field => bytes (quote field.1) + bytes (stringify format field.2) + 2).sum := by
    induction fields with
    | nil => simp [stringifyFields]
    | cons field fields ih =>
      have hcons := bytes_stringifyFields_cons_le format field fields
      rw [List.map_cons, List.sum_cons]
      omega
  have hopen : ('\x7b').utf8Size = 1 := rfl
  have hclose : ('\x7d').utf8Size = 1 := rfl
  rw [stringify, bytes_cons, bytes_append, bytes_cons, bytes_nil, hopen, hclose]
  omega

theorem bytes_stringify_arr_le {format : NumberFormat} {items : List Json} {n : Nat}
    (h : ∀ item ∈ items, bytes (stringify format item) ≤ n) :
    bytes (stringify format (.arr items)) ≤ (n + 1) * items.length + 2 := by
  have hcomma : (',').utf8Size = 1 := rfl
  have hitems : bytes (stringifyItems format items) ≤ (n + 1) * items.length := by
    induction items with
    | nil => simp [stringifyItems]
    | cons item items ih =>
      have hitem := h item (by simp)
      have hrest := ih fun other hother => h other (by simp [hother])
      cases items with
      | nil =>
        simp only [stringifyItems, List.length_cons, List.length_nil]
        omega
      | cons other items =>
        rw [stringifyItems, bytes_append, bytes_cons, List.length_cons, Nat.mul_succ, hcomma]
        · omega
        · simp
  have hopen : ('[').utf8Size = 1 := rfl
  have hclose : (']').utf8Size = 1 := rfl
  rw [stringify, bytes_cons, bytes_append, bytes_cons, bytes_nil, hopen, hclose]
  omega

end JsonText

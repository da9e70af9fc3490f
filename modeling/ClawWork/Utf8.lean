import Mathlib.Data.Char
import Mathlib.Tactic.SplitIfs

/-!
# A streaming decoder of UTF-8

The decoder of the encoding standard takes one byte at a time and puts U+FFFD in the
place of a sequence that is not well formed. Text that was encoded is decoded to
itself, however the bytes are cut into chunks.
-/

namespace Utf8

/-- The bytes of a text. -/
def encode (text : List Char) : List UInt8 := text.flatMap String.utf8EncodeChar

/-- The code point so far, how many bytes it still needs, and the bounds of the next of them. -/
structure Decoder where
  codePoint : Nat
  needed : Nat
  lower : Nat
  upper : Nat
  deriving DecidableEq

def Decoder.start : Decoder := ⟨0, 0, 0x80, 0xBF⟩

def replacement : Char := Char.ofNat 0xFFFD

/-- The first byte of a sequence. -/
def lead (b : Nat) : Decoder × List Char :=
  if b < 0x80 then (.start, [Char.ofNat b])
  else if 0xC2 ≤ b ∧ b < 0xE0 then (⟨b - 0xC0, 1, 0x80, 0xBF⟩, [])
  else if 0xE0 ≤ b ∧ b < 0xF0 then
    (⟨b - 0xE0, 2, if b = 0xE0 then 0xA0 else 0x80, if b = 0xED then 0x9F else 0xBF⟩, [])
  else if 0xF0 ≤ b ∧ b < 0xF5 then
    (⟨b - 0xF0, 3, if b = 0xF0 then 0x90 else 0x80, if b = 0xF4 then 0x8F else 0xBF⟩, [])
  else (.start, [replacement])

/-- A byte out of bounds ends the sequence and is looked at again as a first byte. -/
def Decoder.byte (d : Decoder) (b : Nat) : Decoder × List Char :=
  if d.needed = 0 then lead b
  else if b < d.lower ∨ d.upper < b then ((lead b).1, replacement :: (lead b).2)
  else
    let codePoint := d.codePoint * 64 + (b - 0x80)
    if d.needed = 1 then (.start, [Char.ofNat codePoint])
    else (⟨codePoint, d.needed - 1, 0x80, 0xBF⟩, [])

/-- The text of further bytes, as far as it is complete. -/
def Decoder.write (d : Decoder) : List UInt8 → Decoder × List Char
  | [] => (d, [])
  | b :: bytes =>
    let (d', text) := d.byte b.toNat
    ((d'.write bytes).1, text ++ (d'.write bytes).2)

/-- The text of the whole input. -/
def decode (bytes : List UInt8) : List Char :=
  let (d, text) := Decoder.start.write bytes
  if d.needed = 0 then text else text ++ [replacement]

variable {d : Decoder}

theorem write_append (xs ys : List UInt8) :
    d.write (xs ++ ys) = (((d.write xs).1.write ys).1, (d.write xs).2 ++ ((d.write xs).1.write ys).2) := by
  induction xs generalizing d with
  | nil => rfl
  | cons b xs ih => simp only [List.cons_append, Decoder.write, ih, List.append_assoc]

theorem write_cons {d' : Decoder} {n : Nat} {text : List Char} (hn : n < 256) (h : d.byte n = (d', text))
    (bytes : List UInt8) :
    d.write (UInt8.ofNat n :: bytes) = ((d'.write bytes).1, text ++ (d'.write bytes).2) := by
  have hbyte : (UInt8.ofNat n).toNat = n := by rw [UInt8.toNat_ofNat', Nat.mod_eq_of_lt hn]
  rw [Decoder.write, hbyte, h]

theorem byte_one {b : Nat} (h : b < 0x80) : Decoder.start.byte b = (.start, [Char.ofNat b]) := by
  change lead b = _
  rw [lead, if_pos h]

theorem byte_two {b : Nat} (h : 0xC2 ≤ b) (h' : b < 0xE0) :
    Decoder.start.byte b = (⟨b - 0xC0, 1, 0x80, 0xBF⟩, []) := by
  change lead b = _
  rw [lead, if_neg (by omega), if_pos ⟨h, h'⟩]

theorem byte_three {b : Nat} (h : 0xE0 ≤ b) (h' : b < 0xF0) :
    Decoder.start.byte b =
      (⟨b - 0xE0, 2, if b = 0xE0 then 0xA0 else 0x80, if b = 0xED then 0x9F else 0xBF⟩, []) := by
  change lead b = _
  rw [lead, if_neg (by omega), if_neg (by omega), if_pos ⟨h, h'⟩]

theorem byte_four {b : Nat} (h : 0xF0 ≤ b) (h' : b < 0xF5) :
    Decoder.start.byte b =
      (⟨b - 0xF0, 3, if b = 0xF0 then 0x90 else 0x80, if b = 0xF4 then 0x8F else 0xBF⟩, []) := by
  change lead b = _
  rw [lead, if_neg (by omega), if_neg (by omega), if_neg (by omega), if_pos ⟨h, h'⟩]

/-- A byte inside a sequence. -/
theorem byte_next {codePoint needed lower upper b : Nat} (hneeded : 2 ≤ needed) (hlower : lower ≤ b)
    (hupper : b ≤ upper) :
    Decoder.byte ⟨codePoint, needed, lower, upper⟩ b =
      (⟨codePoint * 64 + (b - 0x80), needed - 1, 0x80, 0xBF⟩, []) := by
  rw [Decoder.byte, if_neg (by dsimp only; omega), if_neg (by dsimp only; omega)]
  dsimp only
  rw [if_neg (by omega)]

theorem byte_last {codePoint lower upper b : Nat} (hlower : lower ≤ b) (hupper : b ≤ upper) :
    Decoder.byte ⟨codePoint, 1, lower, upper⟩ b = (.start, [Char.ofNat (codePoint * 64 + (b - 0x80))]) := by
  rw [Decoder.byte, if_neg (by simp), if_neg (by dsimp only; omega)]
  rfl

/-- The encoding of a code point is decoded to it; the bounds keep out nothing but surrogates. -/
theorem write_utf8EncodeChar (c : Char) : Decoder.start.write (String.utf8EncodeChar c) = (.start, [c]) := by
  have hvalid : c.toNat < 0xD800 ∨ 0xDFFF < c.toNat ∧ c.toNat < 0x110000 := c.valid
  have hself : Char.ofNat c.toNat = c := Char.ofNat_toNat c
  have hval : c.val.toNat = c.toNat := rfl
  simp only [String.utf8EncodeChar, hval]
  generalize c.toNat = n at hvalid hself
  subst hself
  split_ifs with h₁ h₂ h₃
  · rw [write_cons (by omega) (byte_one (by omega))]
    rfl
  · have hb : n / 64 % 0x20 + 0xC0 = n / 64 + 0xC0 := by omega
    rw [hb, write_cons (by omega) (byte_two (by omega) (by omega)),
      write_cons (by omega) (byte_last (by omega) (by omega))]
    have hn : (n / 64 + 0xC0 - 0xC0) * 64 + (n % 0x40 + 0x80 - 0x80) = n := by omega
    simp only [Decoder.write, List.nil_append, List.append_nil, hn]
  · have hb : n / 4096 % 0x10 + 0xE0 = n / 4096 + 0xE0 := by omega
    rw [hb, write_cons (by omega) (byte_three (by omega) (by omega)),
      write_cons (by omega) (byte_next (by omega) (by split_ifs <;> omega) (by split_ifs <;> omega)),
      write_cons (by omega) (byte_last (by omega) (by omega))]
    have hn : ((n / 4096 + 0xE0 - 0xE0) * 64 + (n / 64 % 0x40 + 0x80 - 0x80)) * 64 +
        (n % 0x40 + 0x80 - 0x80) = n := by omega
    simp only [Decoder.write, List.nil_append, List.append_nil, hn]
  · have hb : n / 262144 % 0x08 + 0xF0 = n / 262144 + 0xF0 := by omega
    rw [hb, write_cons (by omega) (byte_four (by omega) (by omega)),
      write_cons (by omega) (byte_next (by omega) (by split_ifs <;> omega) (by split_ifs <;> omega)),
      write_cons (by omega) (byte_next (by omega) (by omega) (by omega)),
      write_cons (by omega) (byte_last (by omega) (by omega))]
    have hn : (((n / 262144 + 0xF0 - 0xF0) * 64 + (n / 4096 % 0x40 + 0x80 - 0x80)) * 64 +
        (n / 64 % 0x40 + 0x80 - 0x80)) * 64 + (n % 0x40 + 0x80 - 0x80) = n := by omega
    simp only [Decoder.write, List.nil_append, List.append_nil, hn]

theorem write_encode (text : List Char) : Decoder.start.write (encode text) = (.start, text) := by
  induction text with
  | nil => rfl
  | cons c text ih =>
    have htail : encode (c :: text) = String.utf8EncodeChar c ++ encode text := rfl
    rw [htail, write_append, write_utf8EncodeChar, ih]
    rfl

theorem decode_encode (text : List Char) : decode (encode text) = text := by
  rw [decode, write_encode]
  rfl

/-- `TextDecoder` with the option `stream`: a byte order mark at the beginning is dropped. -/
structure TextDecoder where
  decoder : Decoder
  started : Bool

def TextDecoder.new : TextDecoder := ⟨.start, false⟩

def isByteOrderMark (c : Char) : Bool := c.toNat = 0xFEFF

def TextDecoder.decode (d : TextDecoder) (chunk : List UInt8) : TextDecoder × List Char :=
  let (decoder, text) := d.decoder.write chunk
  if d.started || text.isEmpty then (⟨decoder, d.started⟩, text)
  else (⟨decoder, true⟩, if text.head?.any isByteOrderMark then text.tail else text)

/-- Without a mark the text is that of the decoder. -/
theorem decode_eq_write {d : TextDecoder} {chunk : List UInt8}
    (h : d.started = false → (d.decoder.write chunk).2.head?.any isByteOrderMark = false) :
    ∃ started, (d.started = true → started = true) ∧ ((d.decoder.write chunk).2 ≠ [] → started = true) ∧
      d.decode chunk = (⟨(d.decoder.write chunk).1, started⟩, (d.decoder.write chunk).2) := by
  unfold TextDecoder.decode
  dsimp only
  cases hstarted : d.started with
  | true => exact ⟨true, fun _ => rfl, fun _ => rfl, rfl⟩
  | false =>
    cases htext : (d.decoder.write chunk).2 with
    | nil => exact ⟨false, fun h => h, fun h => absurd rfl h, rfl⟩
    | cons c text =>
      have hmark := h hstarted
      rw [htext] at hmark
      refine ⟨true, fun _ => rfl, fun _ => rfl, ?_⟩
      rw [hmark]
      rfl

end Utf8

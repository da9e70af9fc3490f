import ClawWork.Utf8

/-!
# Base64 for URLs

Three bytes are written as four characters of six bits each, without padding at the end. The
decoder stops at a padding character, passes over characters that are none of the alphabet, and
takes those of the other alphabet as well.
-/

namespace Base64Url

/-- The character of six bits. -/
def digit (n : Nat) : Char :=
  if n < 26 then .ofNat (65 + n)
  else if n < 52 then .ofNat (71 + n)
  else if n < 62 then .ofNat (n - 4)
  else if n = 62 then '-'
  else '_'

def value (c : Char) : Option Nat :=
  let n := c.toNat
  if 65 ≤ n ∧ n ≤ 90 then some (n - 65)
  else if 97 ≤ n ∧ n ≤ 122 then some (n - 71)
  else if 48 ≤ n ∧ n ≤ 57 then some (n + 4)
  else if c = '-' ∨ c = '+' then some 62
  else if c = '_' ∨ c = '/' then some 63
  else none

/-- The groups of six bits; the last one is filled up with zeros. -/
def sextets : List UInt8 → List Nat
  | [] => []
  | [a] => [a.toNat / 4, a.toNat % 4 * 16]
  | [a, b] => [a.toNat / 4, a.toNat % 4 * 16 + b.toNat / 16, b.toNat % 16 * 4]
  | a :: b :: c :: rest =>
    a.toNat / 4 :: (a.toNat % 4 * 16 + b.toNat / 16) :: (b.toNat % 16 * 4 + c.toNat / 64) :: (c.toNat % 64) ::
      sextets rest

/-- The bytes of groups of six bits; what is left over at the end is dropped. -/
def bytes : List Nat → List UInt8
  | a :: b :: c :: d :: rest =>
    .ofNat (a * 4 + b / 16) :: .ofNat (b % 16 * 16 + c / 4) :: .ofNat (c % 4 * 64 + d) :: bytes rest
  | [a, b, c] => [.ofNat (a * 4 + b / 16), .ofNat (b % 16 * 16 + c / 4)]
  | [a, b] => [.ofNat (a * 4 + b / 16)]
  | _ => []

/-- `Buffer.from(text).toString("base64url")`. -/
def encode (text : String) : String := .ofList ((sextets (Utf8.encode text.toList)).map digit)

/-- `Buffer.from(text, "base64url").toString("utf8")`. -/
def decode (text : String) : String :=
  .ofList (Utf8.decode (bytes ((text.toList.takeWhile fun c => c ≠ '=').filterMap value)))

theorem value_digit {n : Nat} (h : n < 64) : value (digit n) = some n ∧ digit n ≠ '=' := by
  have hall : ∀ n < 64, value (digit n) = some n ∧ digit n ≠ '=' := by decide
  exact hall n h

theorem sextets_lt (bs : List UInt8) : ∀ n ∈ sextets bs, n < 64 := by
  fun_induction sextets bs with
  | case1 => simp
  | case2 a =>
    have ha := a.toNat_lt
    simp only [List.forall_mem_cons]
    exact ⟨by omega, by omega, by simp⟩
  | case3 a b =>
    have ha := a.toNat_lt
    have hb := b.toNat_lt
    simp only [List.forall_mem_cons]
    exact ⟨by omega, by omega, by omega, by simp⟩
  | case4 a b c rest ih =>
    have ha := a.toNat_lt
    have hb := b.toNat_lt
    have hc := c.toNat_lt
    simp only [List.forall_mem_cons]
    exact ⟨by omega, by omega, by omega, by omega, ih⟩

/-- A byte that was taken apart. -/
theorem ofNat_eq {a : UInt8} {n : Nat} (h : n = a.toNat) : UInt8.ofNat n = a := by
  rw [h, UInt8.ofNat_toNat]

theorem bytes_sextets (bs : List UInt8) : bytes (sextets bs) = bs := by
  fun_induction sextets bs with
  | case1 => rfl
  | case2 a =>
    rw [bytes, ofNat_eq (a := a) (by omega)]
  | case3 a b =>
    have hb := b.toNat_lt
    rw [bytes, ofNat_eq (a := a) (by omega), ofNat_eq (a := b) (by omega)]
  | case4 a b c rest ih =>
    have hb := b.toNat_lt
    have hc := c.toNat_lt
    rw [bytes, ih, ofNat_eq (a := a) (by omega), ofNat_eq (a := b) (by omega), ofNat_eq (a := c) (by omega)]

/-- Every text is read back. -/
theorem decode_encode (text : String) : decode (encode text) = text := by
  have hdigits : ∀ ns : List Nat, (∀ n ∈ ns, n < 64) →
      ((ns.map digit).takeWhile fun c => c ≠ '=').filterMap value = ns := by
    intro ns hns
    induction ns with
    | nil => rfl
    | cons n ns ih =>
      obtain ⟨hn, hns⟩ := List.forall_mem_cons.mp hns
      obtain ⟨hvalue, hpad⟩ := value_digit hn
      rw [List.map_cons, List.takeWhile_cons_of_pos (by simpa using hpad), List.filterMap_cons_some hvalue, ih hns]
  rw [decode, encode, String.toList_ofList, hdigits _ (sextets_lt _), bytes_sextets, Utf8.decode_encode,
    String.ofList_toList]

example : encode "abc>?~文" = "YWJjPj9-5paH" := by decide +kernel

theorem encode_ne_empty {text : String} (h : text ≠ "") : encode text ≠ "" := by
  intro hempty
  have hback := decode_encode text
  rw [hempty] at hback
  exact h (hback.symm.trans (by decide))

end Base64Url

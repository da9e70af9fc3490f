import Mathlib.Algebra.GroupWithZero.Nat
import Mathlib.Data.List.Basic
import Mathlib.Data.List.DropRight

/-!
# Values of the source language that Lean has no counterpart for

JSON values, the white space that `trim` removes, and promises, which keep the
first outcome they are settled with. Strings are read as lists of characters, so
that every definition here computes.
-/

namespace JavaScript

inductive Json where
  | null
  | bool (value : Bool)
  | num (value : Rat)
  | str (value : String)
  | arr (items : List Json)
  | obj (fields : List (String × Json))
  deriving Inhabited

/-- The member of an object under a key, `none` for `undefined`. -/
def member (fields : List (String × Json)) (key : String) : Option Json :=
  (fields.find? fun f => f.1 = key).map Prod.snd

/-- `value?.key` for a value of any kind. -/
def memberOf (value : Option Json) (key : String) : Option Json :=
  match value with
  | some (.obj fields) => member fields key
  | _ => none

/-- The value in a condition, `none` for `undefined`. -/
def isTruthy : Option Json → Bool
  | none | some .null => false
  | some (.bool b) => b
  | some (.num x) => x ≠ 0
  | some (.str s) => s ≠ ""
  | some (.arr _) | some (.obj _) => true

/-- `s.length`: a character beyond the basic plane counts twice. -/
def utf16Length (s : String) : Nat := (s.toList.map fun c => if c.toNat < 0x10000 then 1 else 2).sum

/-- The `WhiteSpace` and `LineTerminator` code points. -/
def isSpace (c : Char) : Bool :=
  let n := c.toNat
  (9 ≤ n && n ≤ 13) || n = 32 || n = 0xA0 || n = 0x1680 || (0x2000 ≤ n && n ≤ 0x200A) ||
    n = 0x2028 || n = 0x2029 || n = 0x202F || n = 0x205F || n = 0x3000 || n = 0xFEFF

def trimStart (s : String) : String := .ofList (s.toList.dropWhile isSpace)

def trimEnd (s : String) : String := .ofList ((s.toList.reverse.dropWhile isSpace).reverse)

def trim (s : String) : String := trimEnd (trimStart s)

theorem trim_trim (s : String) : trim (trim s) = trim s := by
  have htrim : ∀ s, trim s = .ofList ((s.toList.dropWhile isSpace).rdropWhile isSpace) := by
    intro s
    simp [trim, trimEnd, trimStart, List.rdropWhile]
  have hkept : ((s.toList.dropWhile isSpace).rdropWhile isSpace).dropWhile isSpace =
      (s.toList.dropWhile isSpace).rdropWhile isSpace := by
    have hstart := List.dropWhile_idempotent isSpace s.toList
    generalize s.toList.dropWhile isSpace = text at hstart
    obtain ⟨rest, hrest⟩ := List.rdropWhile_prefix isSpace text
    cases hkeep : text.rdropWhile isSpace with
    | nil => rfl
    | cons c keep =>
      rw [hkeep] at hrest
      rw [← hrest, List.cons_append, List.dropWhile_eq_self_iff] at hstart
      rw [List.dropWhile_eq_self_iff]
      simpa using hstart
  rw [htrim (trim s), htrim s, String.toList_ofList, hkept, List.rdropWhile_idempotent]

def startsWith (s pre : String) : Bool := pre.toList.isPrefixOf s.toList

/-- `s.slice(n)` for a position inside the string. -/
def sliceFrom (s : String) (n : Nat) : String := .ofList (s.toList.drop n)

/-- `s || fallback` on strings. -/
def orElse (s fallback : String) : String := if s = "" then fallback else s

@[simp] theorem orElse_empty (fallback : String) : orElse "" fallback = fallback := rfl

/-- `xs.slice(-n)`; for `n = 0` that is `xs.slice(0)`. -/
def sliceLast {α : Type*} (n : Nat) (xs : List α) : List α :=
  if n = 0 then xs else xs.drop (xs.length - n)

theorem mem_of_mem_sliceLast {α : Type*} {n : Nat} {xs : List α} {x : α} (h : x ∈ sliceLast n xs) :
    x ∈ xs := by
  unfold sliceLast at h
  split at h
  · exact h
  · exact List.mem_of_mem_drop h

/-- `Number` on a string of decimal digits; any other string counts as `NaN` here. -/
def number (text : String) : Option Nat :=
  if text ≠ "" ∧ text.toList.all Char.isDigit then some (Nat.ofDigitChars 10 text.toList 0) else none

def isSafeInteger (n : Nat) : Bool := n < 2 ^ 53

theorem digits_toString (n : Nat) : (toString n).toList = Nat.toDigits 10 n := by
  rw [Nat.toString_eq_repr, Nat.toList_repr]

theorem isDigit_of_mem {n : Nat} {c : Char} (hc : c ∈ Nat.toDigits 10 n) : c.isDigit = true :=
  Nat.isDigit_of_mem_toDigits (by decide) (by decide) hc

theorem notMem_toDigits (n : Nat) {c : Char} (hc : c.isDigit = false) : c ∉ Nat.toDigits 10 n := by
  intro hmem
  rw [isDigit_of_mem hmem] at hc
  cases hc

theorem toString_ne_empty (n : Nat) : toString n ≠ "" := by
  intro h
  have hlist := congrArg String.toList h
  rw [digits_toString] at hlist
  simp at hlist

theorem number_toString (n : Nat) : number (toString n) = some n := by
  have hdigits : (toString n).toList.all Char.isDigit = true := by
    rw [digits_toString, List.all_eq_true]
    exact fun c hc => isDigit_of_mem hc
  rw [number, if_pos ⟨toString_ne_empty n, hdigits⟩, digits_toString, Nat.ofDigitChars_ten_toDigits]

theorem toString_injective {m n : Nat} (h : toString m = toString n) : m = n := by
  have hnumber := congrArg number h
  rw [number_toString, number_toString] at hnumber
  exact Option.some.inj hnumber

inductive Promise (ε α : Type) where
  | pending
  | fulfilled (value : α)
  | rejected (error : ε)
  deriving Inhabited

namespace Promise

variable {ε α : Type}

/-- Only the first call of `resolve` or `reject` has an effect. -/
def resolve (p : Promise ε α) (value : α) : Promise ε α :=
  match p with
  | .pending => .fulfilled value
  | settled => settled

def reject (p : Promise ε α) (error : ε) : Promise ε α :=
  match p with
  | .pending => .rejected error
  | settled => settled

def isFulfilled : Promise ε α → Bool
  | .fulfilled _ => true
  | _ => false

@[simp] theorem isFulfilled_reject (p : Promise ε α) (error : ε) :
    (p.reject error).isFulfilled = p.isFulfilled := by cases p <;> rfl

theorem isFulfilled_resolve {p : Promise ε α} (value : α) (h : ∀ error, p ≠ .rejected error) :
    (p.resolve value).isFulfilled = true := by
  cases p with
  | pending => rfl
  | fulfilled v => rfl
  | rejected e => exact absurd rfl (h e)

theorem resolve_ne_rejected {p : Promise ε α} (value : α) (h : ∀ error, p ≠ .rejected error)
    (error : ε) : p.resolve value ≠ .rejected error := by
  cases p with
  | pending => simp [resolve]
  | fulfilled v => simp [resolve]
  | rejected e => exact absurd rfl (h e)

end Promise

end JavaScript

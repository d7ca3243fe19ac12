import NexaFx.Model.Memos

/-!
# Which memos are accepted

The network takes a text of at most 28 bytes, an unsigned 64-bit integer or 32
bytes as a memo. `validateAndFormatMemo` counts the code units of a text and
not its bytes, asks of an id only that it has digits, and of a hash nothing.
`memo_exact_iff` says on which values it nevertheless accepts exactly the memos
of the network; `memo_inexact` shows one value of each type where it does not.
-/

namespace NexaFx

namespace Memos

open Utf16

/-! ## The memos of the network -/

def digitValue (u : UInt16) : ℕ := u.toNat - 0x30

/-- The number that a string of digits denotes. -/
def numeralValue (value : JsString) : ℕ := Nat.ofDigits 10 (value.reverse.map digitValue)

/-- `value` is a decimal numeral of `n`. -/
def IsNumeral (value : JsString) (n : ℕ) : Prop :=
  value ≠ [] ∧ (∀ u ∈ value, isDigit u = true) ∧ numeralValue value = n

/-- The value of a hexadecimal digit, in either case. -/
def hexDigit (u : UInt16) : Option ℕ :=
  if 0x30 ≤ u.toNat ∧ u.toNat ≤ 0x39 then some (u.toNat - 0x30)
  else if 0x41 ≤ u.toNat ∧ u.toNat ≤ 0x46 then some (u.toNat - 0x37)
  else if 0x61 ≤ u.toNat ∧ u.toNat ≤ 0x66 then some (u.toNat - 0x57)
  else none

/-- `value` is a hexadecimal form of the bytes, two digits for each. -/
inductive HexForm : List UInt8 → JsString → Prop where
  | nil : HexForm [] []
  | cons {high low : UInt16} {x y : ℕ} {bytes : List UInt8} {value : JsString}
      (hhigh : hexDigit high = some x) (hlow : hexDigit low = some y)
      (hrest : HexForm bytes value) :
      HexForm (UInt8.ofNat (16 * x + y) :: bytes) (high :: low :: value)

/-- The valid memos. -/
def IsMemo : MemoType → JsString → Prop
  | .text, value => value ≠ [] ∧ (utf8 value).length ≤ 28
  | .id, value => ∃ n < 2 ^ 64, IsNumeral value n
  | .hash, value => ∃ bytes : List UInt8, bytes.length = 32 ∧ HexForm bytes value

/-- The value is accepted exactly if it is a valid memo; every other is rejected. -/
structure Exact (memoType : MemoType) (value : JsString) : Prop where
  accepts : Accepted memoType value ↔ IsMemo memoType value
  rejects : ¬ IsMemo memoType value → Rejected memoType value

/-! ## Numerals and hexadecimal forms -/

theorem isNumeral_iff {value : JsString} :
    (∃ n < 2 ^ 64, IsNumeral value n) ↔
      value ≠ [] ∧ (∀ u ∈ value, isDigit u = true) ∧ numeralValue value < 2 ^ 64 := by
  constructor
  · rintro ⟨n, hn, hne, hdigits, rfl⟩
    exact ⟨hne, hdigits, hn⟩
  · rintro ⟨hne, hdigits, hn⟩
    exact ⟨_, hn, hne, hdigits, rfl⟩

/-- What is written in hexadecimal digits is a form of bytes when its length is even. -/
theorem hexForm_iff {n : ℕ} {value : JsString} :
    (∃ bytes : List UInt8, bytes.length = n ∧ HexForm bytes value) ↔
      value.length = 2 * n ∧ ∀ u ∈ value, (hexDigit u).isSome = true := by
  constructor
  · rintro ⟨bytes, rfl, hform⟩
    induction hform with
    | nil => exact ⟨rfl, fun u hu => by cases hu⟩
    | cons hhigh hlow _ ih =>
      obtain ⟨hlength, hdigits⟩ := ih
      refine ⟨?_, ?_⟩
      · simp only [List.length_cons, hlength]
        omega
      · rw [List.forall_mem_cons, List.forall_mem_cons, hhigh, hlow]
        exact ⟨rfl, rfl, hdigits⟩
  · rintro ⟨hlength, hdigits⟩
    induction n generalizing value with
    | zero =>
      obtain rfl := List.eq_nil_of_length_eq_zero hlength
      exact ⟨[], rfl, .nil⟩
    | succ n ih =>
      match value with
      | [] => cases hlength
      | [_] =>
        rw [List.length_singleton] at hlength
        omega
      | high :: low :: value =>
        rw [List.forall_mem_cons, List.forall_mem_cons] at hdigits
        obtain ⟨hhigh, hlow, hdigits⟩ := hdigits
        obtain ⟨x, hx⟩ := Option.isSome_iff_exists.mp hhigh
        obtain ⟨y, hy⟩ := Option.isSome_iff_exists.mp hlow
        simp only [List.length_cons] at hlength
        obtain ⟨bytes, hbytes, hform⟩ := ih (by omega) hdigits
        refine ⟨UInt8.ofNat (16 * x + y) :: bytes, ?_, .cons hx hy hform⟩
        rw [List.length_cons, hbytes]

/-! ## Where the validator is exact -/

/-- Neither a short text of more than 28 bytes, nor a numeral that has no place in
64 bits, nor a hash of another form. -/
def Fits : MemoType → JsString → Prop
  | .text, value => 28 < value.length ∨ (utf8 value).length ≤ 28
  | .id, value => (∀ u ∈ value, isDigit u = true) → numeralValue value < 2 ^ 64
  | .hash, value => value = [] ∨ value.length = 64 ∧ ∀ u ∈ value, (hexDigit u).isSome = true

theorem exact_iff_accepts {memoType : MemoType} {value : JsString} :
    Exact memoType value ↔ (Accepted memoType value ↔ IsMemo memoType value) := by
  constructor
  · exact Exact.accepts
  · exact fun h => ⟨h, fun hno => rejected_iff.mpr fun haccepted => hno (h.mp haccepted)⟩

theorem exact_text_iff {value : JsString} : Exact .text value ↔ Fits .text value := by
  have hle := length_le_utf8 value
  have hnil : value = [] → (utf8 value).length = 0 := by
    rintro rfl
    rfl
  rw [exact_iff_accepts, memoAccepted_iff]
  simp only [IsMemo, Fits, reduceCtorEq, false_implies, true_implies, and_true]
  by_cases hempty : value = []
  · rw [hnil hempty]
    simp [hempty]
  · simp only [hempty, not_false_eq_true, true_and, ne_eq]
    omega

theorem exact_id_iff {value : JsString} : Exact .id value ↔ Fits .id value := by
  rw [exact_iff_accepts, memoAccepted_iff]
  simp only [IsMemo, isNumeral_iff, Fits, reduceCtorEq, false_implies, true_implies, true_and]
  constructor
  · intro h hdigits
    by_cases hempty : value = []
    · rw [hempty]
      decide
    · exact (h.mp ⟨hempty, hdigits⟩).2.2
  · intro h
    constructor
    · rintro ⟨hne, hdigits⟩
      exact ⟨hne, hdigits, h hdigits⟩
    · rintro ⟨hne, hdigits, -⟩
      exact ⟨hne, hdigits⟩

theorem exact_hash_iff {value : JsString} : Exact .hash value ↔ Fits .hash value := by
  rw [exact_iff_accepts, memoAccepted_iff]
  simp only [IsMemo, hexForm_iff, Fits, reduceCtorEq, false_implies, and_true]
  constructor
  · intro h
    by_cases hempty : value = []
    · exact Or.inl hempty
    · exact Or.inr (h.mp hempty)
  · rintro (rfl | hform)
    · simp
    · refine iff_of_true ?_ hform
      rintro rfl
      cases hform.1

/-- **Where exactly the valid memos are accepted**, for every type and every string. -/
theorem memo_exact_iff (memoType : MemoType) (value : JsString) :
    Exact memoType value ↔ Fits memoType value := by
  cases memoType with
  | text => exact exact_text_iff
  | id => exact exact_id_iff
  | hash => exact exact_hash_iff

/-- Fifteen letters of two bytes, 2^64, and a letter that is no hexadecimal digit. -/
theorem memo_inexact :
    ¬ Exact .text (jsString "ééééééééééééééé") ∧ ¬ Exact .id (jsString "18446744073709551616") ∧
      ¬ Exact .hash (jsString "x") := by
  refine ⟨fun h => ?_, fun h => ?_, fun h => ?_⟩
  · have hbytes : (utf8 (jsString "ééééééééééééééé")).length = 30 := by decide
    have haccepted : Accepted .text (jsString "ééééééééééééééé") := ⟨_, rfl, rfl⟩
    have hmemo := (h.accepts.mp haccepted).2
    omega
  · have haccepted : Accepted .id (jsString "18446744073709551616") := ⟨_, rfl, rfl⟩
    obtain ⟨n, hn, -, -, rfl⟩ := h.accepts.mp haccepted
    revert hn
    decide
  · have haccepted : Accepted .hash (jsString "x") := ⟨_, rfl, rfl⟩
    obtain ⟨hlength, -⟩ := hexForm_iff.mp (h.accepts.mp haccepted)
    revert hlength
    decide

/-! ## Texts -/

/-- Texts of ASCII characters are judged right, as those of the tests are. -/
theorem exact_ascii {value : JsString} (h : ∀ u ∈ value, u.toNat < 128) : Exact .text value := by
  have hlength := (length_utf8_eq_iff value).mpr h
  refine exact_text_iff.mpr ?_
  show 28 < value.length ∨ _
  omega

example : Accepted .text (jsString "payment-ref-123") := ⟨_, rfl, rfl⟩

/-- A text of Unicode characters, by what they take in the two encodings. -/
theorem exact_text_string (text : String) :
    Exact .text (jsString text) ↔
      28 < (jsString text).length ∨ (text.toList.flatMap String.utf8EncodeChar).length ≤ 28 := by
  rw [exact_text_iff, ← utf8_encode]
  rfl

end Memos

end NexaFx

import NexaFx.Lib.Utf16

/-!
# Memos of payments

`validateAndFormatMemo` of `stellar.service.ts`. The value is any string of
ECMAScript, so it is given by its code units, which `length` counts.
-/

namespace NexaFx

namespace Memos

/-- A string of ECMAScript. -/
abbrev JsString := List UInt16

def jsString (text : String) : JsString := Utf16.encode text.toList

inductive MemoType where
  | text
  | id
  | hash
  deriving DecidableEq, Repr

/-- The string that stands for the type. -/
def MemoType.literal : MemoType → JsString
  | .text => jsString "text"
  | .id => jsString "id"
  | .hash => jsString "hash"

/-- What `validateAndFormatMemo` returns. -/
structure Memo where
  type : MemoType
  value : JsString
  valid : Bool
  deriving DecidableEq, Repr

/-- `\d`. -/
def isDigit (u : UInt16) : Bool := 0x30 ≤ u.toNat && u.toNat ≤ 0x39

/-- `/^\d+$/.test(value)`. -/
def allDigits (value : JsString) : Bool := value ≠ [] && value.all isDigit

def validateAndFormatMemo (memoType : MemoType) (memoValue : JsString) : Except String Memo :=
  if memoType.literal = [] ∨ memoValue = [] then
    .ok { type := memoType, value := memoValue, valid := false }
  else if memoType = .text ∧ 28 < memoValue.length then
    .error "Stellar text memo cannot exceed 28 bytes"
  else if memoType = .id ∧ allDigits memoValue = false then
    .error "Stellar ID memo must be a valid numeric ID"
  else
    .ok { type := memoType, value := memoValue, valid := true }

/-! ## What it does -/

theorem literal_ne_nil (memoType : MemoType) : memoType.literal ≠ [] := by
  cases memoType <;> decide

theorem allDigits_iff {value : JsString} :
    allDigits value = true ↔ value ≠ [] ∧ ∀ u ∈ value, isDigit u = true := by
  rw [allDigits, Bool.and_eq_true, decide_eq_true_iff, List.all_eq_true]

/-- Nothing is formatted: the type and the value come back as they were given. -/
theorem returned_unchanged {memoType : MemoType} {memoValue : JsString} {memo : Memo}
    (h : validateAndFormatMemo memoType memoValue = .ok memo) :
    memo.type = memoType ∧ memo.value = memoValue := by
  unfold validateAndFormatMemo at h
  split at h
  · cases h
    exact ⟨rfl, rfl⟩
  · split at h
    · cases h
    · split at h
      · cases h
      · cases h
        exact ⟨rfl, rfl⟩

/-- It returns `valid = true`. -/
def Accepted (memoType : MemoType) (memoValue : JsString) : Prop :=
  ∃ memo, validateAndFormatMemo memoType memoValue = .ok memo ∧ memo.valid = true

/-- It throws or returns `valid = false`. -/
def Rejected (memoType : MemoType) (memoValue : JsString) : Prop :=
  (∃ message, validateAndFormatMemo memoType memoValue = .error message) ∨
    ∃ memo, validateAndFormatMemo memoType memoValue = .ok memo ∧ memo.valid = false

theorem rejected_iff {memoType : MemoType} {memoValue : JsString} :
    Rejected memoType memoValue ↔ ¬ Accepted memoType memoValue := by
  unfold Rejected Accepted
  cases validateAndFormatMemo memoType memoValue with
  | error message => simp
  | ok memo => simp

/-- **What is accepted**, by the two checks that there are. -/
theorem memoAccepted_iff {memoType : MemoType} {memoValue : JsString} :
    Accepted memoType memoValue ↔ memoValue ≠ [] ∧
      (memoType = .text → memoValue.length ≤ 28) ∧
      (memoType = .id → ∀ u ∈ memoValue, isDigit u = true) := by
  unfold Accepted validateAndFormatMemo
  by_cases hnil : memoValue = []
  · rw [if_pos (Or.inr hnil)]
    simp [hnil]
  · rw [if_neg (not_or.mpr ⟨literal_ne_nil memoType, hnil⟩)]
    by_cases hlong : memoType = .text ∧ 28 < memoValue.length
    · rw [if_pos hlong]
      simp only [reduceCtorEq, false_and, exists_false, false_iff]
      rintro ⟨-, htext, -⟩
      exact absurd (htext hlong.1) (by omega)
    · rw [if_neg hlong]
      by_cases hother : memoType = .id ∧ allDigits memoValue = false
      · rw [if_pos hother]
        simp only [reduceCtorEq, false_and, exists_false, false_iff]
        rintro ⟨hne, -, hid⟩
        rw [allDigits_iff.mpr ⟨hne, hid hother.1⟩] at hother
        cases hother.2
      · rw [if_neg hother]
        refine iff_of_true ⟨_, rfl, rfl⟩ ⟨hnil, fun htext => ?_, fun hid => ?_⟩
        · exact Nat.le_of_not_lt fun hlt => hlong ⟨htext, hlt⟩
        · have hdigits : allDigits memoValue = true := by
            rw [← Bool.not_eq_false]
            exact fun hno => hother ⟨hid, hno⟩
          exact (allDigits_iff.mp hdigits).2

end Memos

end NexaFx

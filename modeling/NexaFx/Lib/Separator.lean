import Mathlib.Tactic

/-!
# Parts of a list between separators

A part without the separator is found again in the whole: up to the first
separator (`split_first`), and behind the last one (`split_last`). A number
printed in decimals has no other characters than digits.
-/

namespace Separator

section Split

variable {α : Type} {sep : α} {a b c d : List α}

/-- The first separator ends the first part. -/
theorem split_first (ha : sep ∉ a) (hc : sep ∉ c) (h : a ++ sep :: b = c ++ sep :: d) :
    a = c ∧ b = d := by
  induction a generalizing c with
  | nil =>
    cases c with
    | nil => exact ⟨rfl, (List.cons.inj h).2⟩
    | cons x c =>
      obtain ⟨rfl, -⟩ := List.cons.inj h
      exact absurd List.mem_cons_self hc
  | cons x a ih =>
    cases c with
    | nil =>
      obtain ⟨rfl, -⟩ := List.cons.inj h
      exact absurd List.mem_cons_self ha
    | cons y c =>
      obtain ⟨rfl, hrest⟩ := List.cons.inj h
      obtain ⟨rfl, hsame⟩ := ih (fun hmem => ha (List.mem_cons_of_mem x hmem))
        (fun hmem => hc (List.mem_cons_of_mem x hmem)) hrest
      exact ⟨rfl, hsame⟩

/-- The last separator begins the last part. -/
theorem split_last (hb : sep ∉ b) (hd : sep ∉ d) (h : a ++ sep :: b = c ++ sep :: d) :
    a = c ∧ b = d := by
  have hreverse := congrArg List.reverse h
  simp only [List.reverse_append, List.reverse_cons, List.append_assoc, List.singleton_append]
    at hreverse
  obtain ⟨hsame, hsame'⟩ := split_first (by simpa using hb) (by simpa using hd) hreverse
  exact ⟨List.reverse_injective hsame', List.reverse_injective hsame⟩

end Split

theorem notMem_toString {sep : Char} (hsep : sep.isDigit = false) (n : ℕ) :
    sep ∉ (toString n).toList := by
  intro hmem
  rw [Nat.toString_eq_ofList_toDigits, String.toList_ofList] at hmem
  rw [Nat.isDigit_of_mem_toDigits (by decide) (le_refl 10) hmem] at hsep
  cases hsep

theorem toString_injective {n m : ℕ} (h : toString n = toString m) : n = m := by
  rw [Nat.toString_eq_ofList_toDigits, Nat.toString_eq_ofList_toDigits, String.ofList_inj] at h
  have hvalue := congrArg (Nat.ofDigitChars 10 · 0) h
  simpa [Nat.ofDigitChars_ten_toDigits] using hvalue

/-- Zeros in front of a numeral do not change its value. -/
theorem leftpad_toDigits_injective {width n m : ℕ}
    (h : List.leftpad width '0' (Nat.toDigits 10 n) = List.leftpad width '0' (Nat.toDigits 10 m)) :
    n = m := by
  have hvalue (k : ℕ) :
      Nat.ofDigitChars 10 (List.leftpad width '0' (Nat.toDigits 10 k)) 0 = k := by
    unfold List.leftpad
    rw [Nat.ofDigitChars_append, Nat.ofDigitChars_replicate_zero, Nat.mul_zero,
      Nat.ofDigitChars_ten_toDigits]
  rw [← hvalue n, h, hvalue]

end Separator

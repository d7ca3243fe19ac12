import Mathlib.Data.List.DropRight
import Mathlib.Tactic

/-!
# NexaFx — errors and currency codes

`currencies/supported-currencies.ts` and the exceptions the services throw.
A currency arrives as an arbitrary string; `normalizeCurrencyCode` trims it
and folds it to upper case, and only four codes are supported. Rows of the
`transactions` table keep the string the client sent, rows of
`wallet_balances` the normalized code.
-/

namespace NexaFx

/-- The exceptions of the services, with their messages; the two violations are
the database's own. `fault` is a rejected database or network operation. -/
inductive Err where
  | badRequest (message : String)
  | unauthorized (message : String)
  | forbidden (message : String)
  | notFound (message : String)
  | conflict (message : String)
  | unprocessable (message : String)
  | unavailable (message : String)
  | limitExceeded (message : String) (limitUsd : ℚ)
  | uniqueViolation
  | foreignKeyViolation
  | fault
  deriving DecidableEq, Repr

/-! ## Strings as JavaScript reads them -/

/-- White space and line terminators, which `trim` strips. -/
def isSpace (c : Char) : Bool :=
  c.toNat ∈ [0x09, 0x0A, 0x0B, 0x0C, 0x0D, 0x20, 0xA0, 0x1680, 0x2028, 0x2029, 0x202F, 0x205F,
    0x3000, 0xFEFF] ||
  (0x2000 ≤ c.toNat && c.toNat ≤ 0x200A)

/-- `String.prototype.trim`. -/
def trim (s : List Char) : List Char :=
  ((s.dropWhile isSpace).reverse.dropWhile isSpace).reverse

/-- `String.prototype.toUpperCase`, one character. Besides the ASCII letters
these are the characters whose upper case is written in ASCII letters; every
other character keeps a character outside ASCII and is left as it is. -/
def upperChar (c : Char) : List Char :=
  match c with
  | 'ß' => ['S', 'S']
  | 'ı' => ['I']
  | 'ſ' => ['S']
  | 'ﬀ' => ['F', 'F']
  | 'ﬁ' => ['F', 'I']
  | 'ﬂ' => ['F', 'L']
  | 'ﬃ' => ['F', 'F', 'I']
  | 'ﬄ' => ['F', 'F', 'L']
  | 'ﬅ' => ['S', 'T']
  | 'ﬆ' => ['S', 'T']
  | c => [c.toUpper]

/-- `String.prototype.toUpperCase`. -/
def toUpperCase (s : List Char) : List Char := s.flatMap upperChar

/-! ## Supported currencies -/

def SUPPORTED_CURRENCY_CODES : List String := ["USD", "EUR", "GBP", "NGN"]

def normalizeCurrencyCode (currency : String) : String :=
  String.ofList (toUpperCase (trim currency.toList))

def isSupportedCurrency (currency : String) : Bool :=
  SUPPORTED_CURRENCY_CODES.contains (normalizeCurrencyCode currency)

/-- `WalletsService.validateCurrency`. -/
def validateCurrency (currency : String) : Except Err String :=
  if isSupportedCurrency (normalizeCurrencyCode currency) then
    .ok (normalizeCurrencyCode currency)
  else .error (.badRequest ("Unsupported currency: " ++ currency))

theorem validateCurrency_ok {currency cur : String} (h : validateCurrency currency = .ok cur) :
    cur = normalizeCurrencyCode currency := by
  unfold validateCurrency at h
  split at h
  · exact (Except.ok.inj h).symm
  · cases h

theorem usd_normalized : normalizeCurrencyCode "USD" = "USD" := by decide

example : validateCurrency " uſd" = .ok "USD" := by decide

/-! ## Normalizing twice -/

theorem toUpper_of_not_lower {c : Char} (h : ¬ (97 ≤ c.toNat ∧ c.toNat ≤ 122)) : c.toUpper = c := by
  delta Char.toUpper
  split
  · rename_i hl
    exact absurd hl h
  · rfl

theorem toUpper_of_lower {c : Char} (h : 97 ≤ c.toNat ∧ c.toNat ≤ 122) :
    65 ≤ c.toUpper.toNat ∧ c.toUpper.toNat ≤ 90 := by
  obtain ⟨n, hn⟩ : ∃ n, c.toNat = n := ⟨_, rfl⟩
  have hc : c = Char.ofNat n := by rw [← hn, Char.ofNat_toNat]
  rw [hn] at h
  subst hc
  obtain ⟨hlo, hhi⟩ := h
  interval_cases n <;> decide

/-- White space has no case. -/
theorem upperChar_of_isSpace {c : Char} (h : isSpace c = true) : upperChar c = [c] := by
  have hc : ¬ (97 ≤ c.toNat ∧ c.toNat ≤ 122) := by
    intro hlow
    simp [isSpace] at h
    omega
  unfold upperChar
  split <;> first | (revert h; decide) | rw [toUpper_of_not_lower hc]

theorem isSpace_of_upper {c : Char} (h : 65 ≤ c.toNat ∧ c.toNat ≤ 90) : isSpace c = false := by
  simp [isSpace]
  omega

/-- Upper case is made of characters that are not white space. -/
theorem isSpace_upperChar {c d : Char} (hc : isSpace c = false) (hd : d ∈ upperChar c) :
    isSpace d = false := by
  -- the expansions are evaluated letter by letter
  have hall : ∀ l : List Char, l.all (fun d => !isSpace d) = true → d ∈ l → isSpace d = false := by
    intro l hl hd
    simpa using List.all_eq_true.mp hl d hd
  unfold upperChar at hd
  split at hd <;> first | exact hall _ (by decide) hd | skip
  rw [List.mem_singleton] at hd
  subst hd
  by_cases hlow : 97 ≤ c.toNat ∧ c.toNat ≤ 122
  · exact isSpace_of_upper (toUpper_of_lower hlow)
  · rwa [toUpper_of_not_lower hlow]

theorem upperChar_ne_nil (c : Char) : upperChar c ≠ [] := by
  unfold upperChar
  split <;> simp

theorem upperChar_of_upper {c : Char} (h : 65 ≤ c.toNat ∧ c.toNat ≤ 90) : upperChar c = [c] := by
  have hlow : ¬ (97 ≤ c.toNat ∧ c.toNat ≤ 122) := by omega
  unfold upperChar
  split <;> first | (revert h; decide) | rw [toUpper_of_not_lower hlow]

/-- Upper case is upper case already. -/
theorem upperChar_upperChar {c d : Char} (hd : d ∈ upperChar c) : upperChar d = [d] := by
  by_cases hlow : 97 ≤ c.toNat ∧ c.toNat ≤ 122
  · have hup : upperChar c = [c.toUpper] := by
      unfold upperChar
      split <;> first | (revert hlow; decide) | rfl
    rw [hup, List.mem_singleton] at hd
    rw [hd]
    exact upperChar_of_upper (toUpper_of_lower hlow)
  · have hc := toUpper_of_not_lower hlow
    have hall : ∀ l : List Char, l.all (fun d => decide (upperChar d = [d])) = true → d ∈ l →
        upperChar d = [d] := by
      intro l hl hd
      exact of_decide_eq_true (List.all_eq_true.mp hl d hd)
    unfold upperChar at hd
    split at hd <;> first | exact hall _ (by decide) hd | skip
    rw [List.mem_singleton, hc] at hd
    subst hd
    unfold upperChar
    split <;> first | exact absurd rfl ‹_› | rw [hc]

theorem toUpperCase_toUpperCase (s : List Char) :
    toUpperCase (toUpperCase s) = toUpperCase s := by
  unfold toUpperCase
  rw [List.flatMap_assoc]
  congr 1
  funext c
  rw [List.flatMap_congr (g := fun d => [d])]
  · simp
  · intro d hd
    exact upperChar_upperChar hd

/-- Stripping white space commutes with a map that neither makes nor removes it. -/
theorem dropWhile_flatMap {f : Char → List Char} (hspace : ∀ c, isSpace c = true → f c = [c])
    (hne : ∀ c, f c ≠ []) (hkeep : ∀ c, isSpace c = false → ∀ d ∈ f c, isSpace d = false)
    (s : List Char) : (s.flatMap f).dropWhile isSpace = (s.dropWhile isSpace).flatMap f := by
  induction s with
  | nil => rfl
  | cons c s ih =>
    cases hc : isSpace c with
    | true =>
      rw [List.flatMap_cons, hspace c hc, List.dropWhile_cons_of_pos hc, List.singleton_append,
        List.dropWhile_cons_of_pos hc, ih]
    | false =>
      obtain ⟨d, ds, hf⟩ := List.exists_cons_of_ne_nil (hne c)
      have hd : isSpace d = false := hkeep c hc d (by rw [hf]; exact List.mem_cons_self ..)
      have hneg : ¬ isSpace c = true := by simp [hc]
      have hneg' : ¬ isSpace d = true := by simp [hd]
      rw [List.dropWhile_cons_of_neg hneg, List.flatMap_cons, hf, List.cons_append,
        List.dropWhile_cons_of_neg hneg']

theorem trim_toUpperCase (s : List Char) : trim (toUpperCase s) = toUpperCase (trim s) := by
  have hkeep : ∀ c, isSpace c = false → ∀ d ∈ (upperChar c).reverse, isSpace d = false :=
    fun c hc d hd => isSpace_upperChar hc (List.mem_reverse.mp hd)
  have hrev : ∀ l : List Char,
      (l.flatMap upperChar).reverse = l.reverse.flatMap fun c => (upperChar c).reverse := by
    intro l
    exact List.reverse_flatMap ..
  have hback : ∀ l : List Char,
      (l.flatMap fun c => (upperChar c).reverse).reverse = l.reverse.flatMap upperChar := by
    intro l
    rw [List.reverse_flatMap]
    congr 1
    funext c
    exact List.reverse_reverse _
  unfold trim toUpperCase
  rw [dropWhile_flatMap (fun c => upperChar_of_isSpace) upperChar_ne_nil
      (fun c hc d hd => isSpace_upperChar hc hd), hrev,
    dropWhile_flatMap (fun c hc => by rw [upperChar_of_isSpace hc]; rfl)
      (fun c => by simpa using upperChar_ne_nil c) hkeep, hback]

/-- What is stripped on both sides starts and ends with something else. -/
theorem trim_trim (s : List Char) : trim (trim s) = trim s := by
  have hright : ∀ l : List Char, (l.reverse.dropWhile isSpace).reverse = l.rdropWhile isSpace :=
    fun _ => rfl
  unfold trim
  simp only [hright]
  have hleft : ((s.dropWhile isSpace).rdropWhile isSpace).dropWhile isSpace =
      (s.dropWhile isSpace).rdropWhile isSpace := by
    cases hb : (s.dropWhile isSpace).rdropWhile isSpace with
    | nil => rfl
    | cons x t =>
      -- the first character left over is the first one of `s` that is not white space
      obtain ⟨u, hu⟩ := List.rdropWhile_prefix isSpace (s.dropWhile isSpace)
      rw [hb] at hu
      have hidem := List.dropWhile_idempotent isSpace s
      rw [← hu, List.cons_append] at hidem
      refine List.dropWhile_cons_of_neg ?_
      intro hx
      rw [List.dropWhile_cons_of_pos hx] at hidem
      have hlen := congrArg List.length hidem
      have hle := (List.dropWhile_sublist isSpace (l := t ++ u)).length_le
      simp only [List.length_cons] at hlen
      omega
  rw [hleft, List.rdropWhile_idempotent]

theorem normalizeCurrencyCode_idem (currency : String) :
    normalizeCurrencyCode (normalizeCurrencyCode currency) = normalizeCurrencyCode currency := by
  unfold normalizeCurrencyCode
  rw [String.toList_ofList, trim_toUpperCase, trim_trim, toUpperCase_toUpperCase]

/-- A code that passes the check is one of the supported ones. -/
theorem validateCurrency_supported {currency cur : String} (h : validateCurrency currency = .ok cur) :
    cur ∈ SUPPORTED_CURRENCY_CODES := by
  obtain rfl := validateCurrency_ok h
  unfold validateCurrency isSupportedCurrency at h
  split at h
  · rename_i hsup
    rw [normalizeCurrencyCode_idem] at hsup
    exact List.contains_iff_mem.mp hsup
  · cases h
end NexaFx

import NexaFx.Lib.JsReaders
import NexaFx.Model.EnvConfig

/-!
# Validated variables and configured numbers

The schema reads a variable by `Number` and checks it, the configuration reads
the same text again by `parseInt` or `parseFloat`, with its own default for an
empty one. `configuration_faithful_iff` says on which accepted environments
both come to the same numbers.
-/

namespace NexaFx

namespace EnvConfig

/-- Every configured number is the validated one, within the bounds. -/
def Faithful (env : Env) : Prop :=
  ∀ setting ∈ configuration, ∀ field ∈ numberFields, field.name = setting.name →
    ∃ x, field.parse env = some x ∧ field.checks.all (·.holds x) = true ∧
      setting.value env = setting.inUnit (.fin x)

/-- The reader of the configuration reads the text as `Number` does. -/
def Reader.Alike : Reader → List Char → Prop
  | .parseInt, text => Js.IntAlike text
  | .parseFloat, text => Js.FloatAlike text

/-- So do all readers, where the variable is there. -/
def SpelledAlike (env : Env) : Prop :=
  ∀ setting ∈ configuration, ∀ text, env setting.name = some text → setting.reader.Alike text

/-! ## The two tables -/

/-- A setting of the second table has its field in the first; the defaults of both are
the same number, which passes the checks, and what is given in megabytes is
between 1 and 100. -/
theorem tables_agree : ∀ setting ∈ configuration,
    setting.reader.read setting.fallback.toList ≠ .fin 0 ∧
    (∃ field ∈ numberFields, field.name = setting.name) ∧
    ∀ field ∈ numberFields, field.name = setting.name →
      (∀ x ∈ field.default, setting.reader.read setting.fallback.toList = .fin x ∧
        field.checks.all (·.holds x) = true) ∧
      (setting.megabytes = true →
        Check.min 1 ∈ field.checks ∧ Check.max 100 ∈ field.checks) := by
  decide +kernel

/-- A number of megabytes can be told from its bytes. -/
theorem inUnit_inj {setting : Setting} {x : ℚ}
    (hsmall : setting.megabytes = true → |x| ≤ 100) (y : Js.Num) :
    setting.inUnit y = setting.inUnit (.fin x) ↔ y = .fin x := by
  unfold Setting.inUnit
  split
  · rename_i hmega
    have hx := hsmall hmega
    have hbound {p : ℚ} (hp : 0 < p) (hle : p ≤ 2 ^ 20) : |x * p| < 2 ^ 1024 := by
      rw [abs_mul, abs_of_pos hp]
      calc |x| * p ≤ 100 * 2 ^ 20 := mul_le_mul hx hle hp.le (by norm_num)
        _ < 2 ^ 27 := by norm_num
        _ ≤ 2 ^ 1024 := pow_le_pow_right₀ (by norm_num) (by norm_num)
    have hlow : |x * 2 ^ 10| < 2 ^ 1024 := hbound (by norm_num) (by norm_num)
    have hhigh : |x * 2 ^ 10 * 2 ^ 10| < 2 ^ 1024 := by
      rw [mul_assoc]
      exact hbound (by norm_num) (by norm_num)
    rw [Js.shiftUp_fin hlow, Js.shiftUp_fin hhigh]
    constructor
    · intro h
      obtain ⟨r, hr, hxr⟩ := Js.shiftUp_eq_fin h
      obtain ⟨q, rfl, rfl⟩ := Js.shiftUp_eq_fin hr
      congr 1
      linarith
    · rintro rfl
      rw [Js.shiftUp_fin hlow, Js.shiftUp_fin hhigh]
  · rfl

theorem parse_present {field : NumberField} {env : Env} {text : List Char} {x : ℚ}
    (htext : env field.name = some text) (h : field.parse env = some x) :
    Js.number text = .fin x ∧ field.checks.all (·.holds x) = true := by
  unfold NumberField.parse at h
  rw [htext] at h
  dsimp only at h
  split at h
  · rename_i y hy
    split at h
    · rename_i hchecks
      cases h
      exact ⟨hy, hchecks⟩
    · cases h
  · cases h

/-- Neither reader reads an empty text as `Number` does. -/
theorem not_alike_nil (reader : Reader) : ¬ reader.Alike [] := by
  cases reader with
  | parseInt => exact fun h => h.1 rfl
  | parseFloat => exact fun h => h rfl

theorem Reader.read_eq_iff (reader : Reader) {text : List Char} {x : ℚ}
    (h : Js.number text = .fin x) : reader.read text = .fin x ↔ reader.Alike text := by
  cases reader with
  | parseInt => exact Js.parseInt_eq_iff h
  | parseFloat => exact Js.parseFloat_eq_iff h

/-- One variable. -/
theorem value_iff {setting : Setting} (hsetting : setting ∈ configuration) {field : NumberField}
    (hfield : field ∈ numberFields) (hname : field.name = setting.name) {env : Env} {x : ℚ}
    (h : field.parse env = some x) :
    setting.value env = setting.inUnit (.fin x) ↔
      ∀ text, env setting.name = some text → setting.reader.Alike text := by
  obtain ⟨hfallback, -, hagree⟩ := tables_agree setting hsetting
  obtain ⟨hdefaults, hmegabytes⟩ := hagree field hfield hname
  cases htext : env setting.name with
  | none =>
    have hdefault : field.default = some x := by
      rw [NumberField.parse, hname, htext] at h
      exact h
    rw [Setting.value, Setting.text, htext, (hdefaults x hdefault).1]
    exact iff_of_true rfl fun text hsome => by cases hsome
  | some text =>
    rw [← hname] at htext
    obtain ⟨hnumber, hchecks⟩ := parse_present htext h
    rw [hname] at htext
    have hsmall : setting.megabytes = true → |x| ≤ 100 := by
      intro hmega
      obtain ⟨hmin, hmax⟩ := hmegabytes hmega
      rw [List.all_eq_true] at hchecks
      have hlow : (1 : ℚ) ≤ x := of_decide_eq_true (hchecks _ hmin)
      have hhigh : x ≤ (100 : ℚ) := of_decide_eq_true (hchecks _ hmax)
      rw [abs_of_nonneg (by linarith)]
      exact hhigh
    rw [Setting.value, inUnit_inj hsmall, Setting.text, htext]
    match text with
    | [] =>
      have hzero : x = 0 := (Js.Num.fin.inj hnumber).symm
      rw [hzero]
      refine iff_of_false hfallback fun hall => ?_
      exact not_alike_nil setting.reader (hall [] rfl)
    | c :: text =>
      rw [setting.reader.read_eq_iff hnumber]
      constructor
      · intro halike text' heq
        rw [← Option.some.inj heq]
        exact halike
      · exact fun hall => hall _ rfl

/-! ## The whole configuration -/

section Schema

variable (isEmail isUrl : List Char → Bool)

theorem parse_of_valid {env : Env} (h : validateEnv isEmail isUrl env = true) {field : NumberField}
    (hfield : field ∈ numberFields) :
    ∃ x, field.parse env = some x := by
  have hall := ((Bool.and_eq_true _ _).mp h).1
  exact Option.isSome_iff_exists.mp (List.all_eq_true.mp hall field hfield)

/-- **On an accepted environment the configuration holds the validated numbers
exactly where every text is read alike.** -/
theorem configuration_faithful_iff (env : Env) (h : validateEnv isEmail isUrl env = true) :
    Faithful env ↔ SpelledAlike env := by
  constructor
  · intro hfaithful setting hsetting
    obtain ⟨-, ⟨field, hfield, hname⟩, -⟩ := tables_agree setting hsetting
    obtain ⟨x, hparse, -, hvalue⟩ := hfaithful setting hsetting field hfield hname
    exact (value_iff hsetting hfield hname hparse).mp hvalue
  · intro halike setting hsetting field hfield hname
    obtain ⟨x, hparse⟩ := parse_of_valid isEmail isUrl h hfield
    refine ⟨x, hparse, ?_, (value_iff hsetting hfield hname hparse).mpr (halike setting hsetting)⟩
    cases htext : env field.name with
    | none =>
      rw [NumberField.parse, htext] at hparse
      obtain ⟨-, -, hagree⟩ := tables_agree setting hsetting
      exact ((hagree field hfield hname).1 x hparse).2
    | some text => exact (parse_present htext hparse).2

end Schema

/-! ## Two environments -/

/-- The variables that must be there, with further ones. -/
def minimalEnv (further : List (String × String)) : Env := fun name =>
  ((further ++ [("DB_HOST", "localhost"), ("DB_PORT", "5432"), ("DB_USER", "postgres"),
    ("DB_PASSWORD", "secret"), ("DB_NAME", "nexafx"),
    ("JWT_SECRET", "aaaaaaaaaaaaaaaaaaaaaaaaaaaaaaaa"),
    ("REFRESH_TOKEN_SECRET", "bbbbbbbbbbbbbbbbbbbbbbbbbbbbbbbb"),
    ("OTP_SECRET", "cccccccccccccccccccccccccccccccc"), ("MAIL_HOST", "smtp.example.com"),
    ("MAIL_PORT", "587"), ("MAIL_USER", "sender@example.com"), ("MAIL_PASSWORD", "mailpass"),
    ("MAIL_FROM", "noreply@example.com"),
    ("WALLET_ENCRYPTION_KEY", "aaaaaaaaaaaaaaaaaaaaaaaaaaaaaaaaaaaaaaaaaaaaaaaaaaaaaaaaaaaaaaaa"),
    ("STELLAR_HOT_WALLET_SECRET", "S")]).lookup name).map String.toList

/-- A text with an `@` between two others. -/
def plainEmail (text : List Char) : Bool :=
  match text.splitOn '@' with
  | [user, host] => user ≠ [] && host ≠ []
  | _ => false

theorem configuration_faithful_iff_minimal :
    validateEnv plainEmail (fun _ => true) (minimalEnv [("PORT", "8080")]) = true ∧
    (Faithful (minimalEnv [("PORT", "8080")]) ↔ SpelledAlike (minimalEnv [("PORT", "8080")])) := by
  have hvalid : validateEnv plainEmail (fun _ => true) (minimalEnv [("PORT", "8080")]) = true := by
    decide +kernel
  exact ⟨hvalid, configuration_faithful_iff plainEmail (fun _ => true) _ hvalid⟩

/-- An hour in scientific notation is validated as 3600 seconds and configured as 36. -/
theorem exponent_dropped :
    validateEnv plainEmail (fun _ => true) (minimalEnv [("JWT_EXPIRY", "36e2")]) = true ∧
    ¬ Faithful (minimalEnv [("JWT_EXPIRY", "36e2")]) := by
  refine ⟨by decide +kernel, fun hfaithful => ?_⟩
  have hsetting : ⟨"jwt.expiry", "JWT_EXPIRY", .parseInt, "3600", false⟩ ∈ configuration := by
    decide +kernel
  have hfield : ⟨"JWT_EXPIRY", [.positive], some 3600⟩ ∈ numberFields := by
    decide +kernel
  obtain ⟨x, hparse, -, hvalue⟩ := hfaithful _ hsetting _ hfield rfl
  have hvalidated : NumberField.parse ⟨"JWT_EXPIRY", [.positive], some 3600⟩
      (minimalEnv [("JWT_EXPIRY", "36e2")]) = some 3600 := by
    decide +kernel
  have hconfigured : Setting.value ⟨"jwt.expiry", "JWT_EXPIRY", .parseInt, "3600", false⟩
      (minimalEnv [("JWT_EXPIRY", "36e2")]) = .fin 36 := by
    decide +kernel
  rw [hvalidated] at hparse
  rw [hconfigured, ← Option.some.inj hparse] at hvalue
  have heq : (36 : ℚ) = 3600 := Js.Num.fin.inj hvalue
  norm_num at heq

end EnvConfig

end NexaFx

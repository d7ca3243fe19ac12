import NexaFx.Model.FeeEngine

/-!
# NexaFx — when promotional fee rules need their code

The default choice is the first eligible rule, whatever its type. So a
promotional rule that sorts first is applied to everyone, and promotions are
gated exactly when no such rule comes first without its code.

Main result: `promotions_gated_iff`.
-/

namespace NexaFx

namespace FeeEngine

variable {db : Database} {amount : ℚ} {currency : String} {promoCode : Option String} {now : ℕ}

/-- The caller has named the code of the rule. -/
def Supplied (promoCode : Option String) (rule : FeeRuleEntity) : Prop :=
  ∃ code, promoCode = some code ∧ rule.promoCode = some code

/-- `rule` may be applied: promotional and its code is supplied, or of the
lowest priority among the eligible rules that are not promotional. -/
def Due (db : Database) (amount : ℚ) (currency : String) (promoCode : Option String) (now : ℕ)
    (rule : FeeRuleEntity) : Prop :=
  (rule.ruleType = PROMOTIONAL ∧ Supplied promoCode rule) ∨
    (rule.ruleType ≠ PROMOTIONAL ∧ ∀ other ∈ db.rules, other.eligible amount currency now = true →
      other.ruleType ≠ PROMOTIONAL → rule.priority ≤ other.priority)

structure Gated (db : Database) (amount : ℚ) (currency : String) (promoCode : Option String)
    (now : ℕ) : Prop where
  applied : ∀ snapshot, evaluate db amount currency promoCode none now = some snapshot →
    ∃ rule ∈ db.rules, rule.eligible amount currency now = true ∧
      snapshot = rule.snapshot amount currency now ∧ Due db amount currency promoCode now rule
  nothing : evaluate db amount currency promoCode none now = none →
    ∀ rule ∈ db.rules, rule.eligible amount currency now = true → rule.ruleType = PROMOTIONAL
  unknown : (∀ rule ∈ db.rules, ¬ Supplied promoCode rule) →
    evaluate db amount currency promoCode none now = evaluate db amount currency none none now

/-- The first eligible rule is not promotional, or its code or the code of
another eligible promotional rule is supplied. -/
def HeadGated (db : Database) (amount : ℚ) (currency : String) (promoCode : Option String)
    (now : ℕ) : Prop :=
  ∀ rule, (db.rulesFor amount currency now).head? = some rule → rule.ruleType = PROMOTIONAL →
    Supplied promoCode rule ∨ promoCode ≠ some "" ∧ ∃ other ∈ db.rules,
      other.eligible amount currency now = true ∧ other.ruleType = PROMOTIONAL ∧
        Supplied promoCode other

theorem mem_rulesFor {rule : FeeRuleEntity} : rule ∈ db.rulesFor amount currency now ↔
    rule ∈ db.rules ∧ rule.eligible amount currency now = true := by
  rw [Database.rulesFor, (db.perm _).mem_iff, List.mem_filter]

/-- The first rule is of the lowest priority. -/
theorem head_le {rule other : FeeRuleEntity}
    (hhead : (db.rulesFor amount currency now).head? = some rule)
    (hmem : other ∈ db.rulesFor amount currency now) : rule.priority ≤ other.priority := by
  have hsorted := db.sorted (db.rules.filter (·.eligible amount currency now))
  rw [Database.rulesFor] at hhead hmem
  cases hrules : db.byPriority (db.rules.filter (·.eligible amount currency now)) with
  | nil =>
    rw [hrules] at hhead
    simp at hhead
  | cons first rest =>
    rw [hrules] at hhead hmem hsorted
    rw [List.head?_cons] at hhead
    obtain rfl := Option.some.inj hhead
    rcases List.mem_cons.mp hmem with rfl | hrest
    · exact le_refl _
    · exact List.rel_of_pairwise_cons hsorted hrest

/-- What a promo code finds. -/
theorem promoRule_some {rules : List FeeRuleEntity} {rule : FeeRuleEntity}
    (h : promoRule rules promoCode = some rule) :
    rule ∈ rules ∧ rule.ruleType = PROMOTIONAL ∧ Supplied promoCode rule := by
  unfold promoRule at h
  split at h
  · simp at h
  · rename_i code
    split at h
    · simp at h
    · have hfound := List.find?_some h
      rw [Bool.and_eq_true, decide_eq_true_eq, decide_eq_true_eq] at hfound
      exact ⟨List.mem_of_find?_eq_some h, hfound.1, code, rfl, hfound.2⟩

/-- When it finds nothing. -/
theorem promoRule_none {rules : List FeeRuleEntity} (h : promoRule rules promoCode = none)
    (hcode : promoCode ≠ some "") {rule : FeeRuleEntity} (hmem : rule ∈ rules)
    (htype : rule.ruleType = PROMOTIONAL) : ¬ Supplied promoCode rule := by
  rintro ⟨code, rfl, hrule⟩
  have hne : code ≠ "" := fun heq => hcode (by rw [heq])
  rw [promoRule, if_neg hne, List.find?_eq_none] at h
  exact h rule hmem (by simp [htype, hrule])

theorem promoRule_eq_none {rules : List FeeRuleEntity}
    (h : ∀ rule ∈ rules, ¬ Supplied promoCode rule) : promoRule rules promoCode = none := by
  cases hfound : promoRule rules promoCode with
  | none => rfl
  | some rule =>
    obtain ⟨hmem, -, hsupplied⟩ := promoRule_some hfound
    exact absurd hsupplied (h rule hmem)

theorem evaluate_rules : evaluate db amount currency promoCode none now =
    (applicableRule (db.rulesFor amount currency now) promoCode).map
      (·.snapshot amount currency now) := rfl

/-- The snapshot tells which rule was applied. -/
theorem snapshot_inj {rule rule' : FeeRuleEntity} (hmem : rule ∈ db.rules) (hmem' : rule' ∈ db.rules)
    (h : rule.snapshot amount currency now = rule'.snapshot amount currency now) : rule = rule' :=
  List.inj_on_of_nodup_map db.ids hmem hmem' (congrArg AppliedFeeSnapshot.ruleId h)

/-- What is applied, in case the default is in order. -/
theorem due_of_headGated (h : HeadGated db amount currency promoCode now) {rule : FeeRuleEntity}
    (hrule : applicableRule (db.rulesFor amount currency now) promoCode = some rule) :
    rule ∈ db.rulesFor amount currency now ∧ Due db amount currency promoCode now rule := by
  unfold applicableRule at hrule
  cases hpromo : promoRule (db.rulesFor amount currency now) promoCode with
  | some found =>
    rw [hpromo, Option.some_or] at hrule
    obtain rfl := Option.some.inj hrule
    obtain ⟨hmem, htype, hsupplied⟩ := promoRule_some hpromo
    exact ⟨hmem, Or.inl ⟨htype, hsupplied⟩⟩
  | none =>
    rw [hpromo, Option.none_or] at hrule
    have hmem := List.mem_of_head? hrule
    by_cases htype : rule.ruleType = PROMOTIONAL
    · rcases h rule hrule htype with
        hsupplied | ⟨hcode, other, hother, heligible, hpromotional, hsupplied⟩
      · exact ⟨hmem, Or.inl ⟨htype, hsupplied⟩⟩
      · have hin := mem_rulesFor.mpr ⟨hother, heligible⟩
        exact absurd hsupplied (promoRule_none hpromo hcode hin hpromotional)
    · refine ⟨hmem, Or.inr ⟨htype, fun other hother heligible _ => ?_⟩⟩
      exact head_le hrule (mem_rulesFor.mpr ⟨hother, heligible⟩)

/-- **Promotions are gated** exactly when no promotional rule leads the eligible
rules without its code. -/
theorem promotions_gated_iff (db : Database) (amount : ℚ) (currency : String)
    (promoCode : Option String) (now : ℕ) :
    Gated db amount currency promoCode now ↔ HeadGated db amount currency promoCode now := by
  constructor
  · intro h rule hhead htype
    cases hpromo : promoRule (db.rulesFor amount currency now) promoCode with
    | some found =>
      obtain ⟨hmem, hpromotional, hsupplied⟩ := promoRule_some hpromo
      obtain ⟨hfound, heligible⟩ := mem_rulesFor.mp hmem
      by_cases hcode : promoCode = some ""
      · simp [promoRule, hcode] at hpromo
      · exact Or.inr ⟨hcode, found, hfound, heligible, hpromotional, hsupplied⟩
    | none =>
      -- the rule is the default, so the claim says of it that its code is supplied
      have happlied : evaluate db amount currency promoCode none now =
          some (rule.snapshot amount currency now) := by
        rw [evaluate_rules, applicableRule, hpromo, Option.none_or, hhead, Option.map_some]
      obtain ⟨rule', hmem', -, hsame, hdue⟩ := h.applied _ happlied
      have hmem := (mem_rulesFor.mp (List.mem_of_head? hhead)).1
      obtain rfl := snapshot_inj hmem hmem' hsame
      rcases hdue with ⟨-, hsupplied⟩ | ⟨hother, -⟩
      · exact Or.inl hsupplied
      · exact absurd htype hother
  · intro h
    constructor
    case applied =>
      intro snapshot happlied
      rw [evaluate_rules, Option.map_eq_some_iff] at happlied
      obtain ⟨rule, hrule, rfl⟩ := happlied
      obtain ⟨hmem, hdue⟩ := due_of_headGated h hrule
      obtain ⟨hrules, heligible⟩ := mem_rulesFor.mp hmem
      exact ⟨rule, hrules, heligible, rfl, hdue⟩
    case nothing =>
      intro hnone rule hmem heligible
      rw [evaluate_rules, Option.map_eq_none_iff, applicableRule, Option.or_eq_none_iff,
        List.head?_eq_none_iff] at hnone
      have hin := mem_rulesFor.mpr ⟨hmem, heligible⟩
      rw [hnone.2] at hin
      exact absurd hin List.not_mem_nil
    case unknown =>
      intro hunknown
      have hnone : promoRule (db.rulesFor amount currency now) promoCode = none :=
        promoRule_eq_none fun rule hmem => hunknown rule (mem_rulesFor.mp hmem).1
      rw [evaluate_rules, evaluate_rules, applicableRule, hnone]
      rfl

/-! ## A leaking promotion -/

/-- A launch offer of 0.1 % for the code `LAUNCH`, before the standard 1 %. -/
def launchRules : List FeeRuleEntity :=
  [⟨1, PROMOTIONAL, some "LAUNCH", "USD", true, 1, none, none, some (1 / 10), none, none⟩,
   ⟨2, "PERCENTAGE", none, "USD", true, 10, none, none, some 1, none, none⟩]

theorem launchRules_sorted (rows : List FeeRuleEntity) :
    (rows.insertionSort fun a b => a.priority ≤ b.priority).Pairwise
      fun a b => a.priority ≤ b.priority :=
  have : Std.Total fun a b : FeeRuleEntity => a.priority ≤ b.priority :=
    ⟨fun a b => le_total a.priority b.priority⟩
  have : IsTrans FeeRuleEntity fun a b => a.priority ≤ b.priority :=
    ⟨fun _ _ _ h h' => le_trans h h'⟩
  List.pairwise_insertionSort _ rows

def launchOffer : Database where
  rules := launchRules
  tiers := []
  ids := by decide
  byPriority := List.insertionSort fun a b => a.priority ≤ b.priority
  perm := List.perm_insertionSort _
  sorted := launchRules_sorted

/-- Without a code, 1000 USD are charged the fee of the offer. -/
theorem launch_leaks :
    (evaluate launchOffer 1000 "USD" none none 0).map AppliedFeeSnapshot.ruleId = some 1 ∧
      ¬ Gated launchOffer 1000 "USD" none 0 := by
  have happlied : (evaluate launchOffer 1000 "USD" none none 0).map AppliedFeeSnapshot.ruleId =
      some 1 := by decide +kernel
  refine ⟨happlied, fun h => ?_⟩
  obtain ⟨snapshot, hsnapshot, hid⟩ := Option.map_eq_some_iff.mp happlied
  obtain ⟨rule, hmem, -, hsame, hdue⟩ := h.applied snapshot hsnapshot
  rw [hsame] at hid
  have hoffer : ∀ r ∈ launchRules, r.id = 1 → r.ruleType = PROMOTIONAL := by decide
  have hrule := hoffer rule hmem hid
  rcases hdue with ⟨-, code, hcode, -⟩ | ⟨hother, -⟩
  · simp at hcode
  · exact hother hrule

end FeeEngine

end NexaFx

import NexaFx.Safety.ReferralLedger

/-!
# NexaFx — which referral codes are accepted

`applyCode` after any calls of the referral service. A code that nobody has
applied is stored as a referral of its referrer to himself, and the checks of
`applyCode` see that row like any other: a user with an unapplied code of their
own counts as referred, and the code itself takes up one of its referrer's
places. A code that has been applied looks like one that has not.

Main result: `accepted_iff`.
-/

namespace NexaFx

open Async

namespace Referrals

-- ---------------------------------------------------------------------------
-- The property
-- ---------------------------------------------------------------------------

/-- Somebody has applied the code. -/
def AppliedIn (h : List ReferralEntry) (code : String) : Prop :=
  ∃ e ∈ h, ∃ refereeId row, e.Applied code refereeId row

/-- The user has been recorded as a referee. -/
def RecordedIn (h : List ReferralEntry) (refereeId : UserId) : Prop :=
  ∃ e ∈ h, ∃ code row, e.Applied code refereeId row

/-- The recorded referees of a referrer. -/
def ReferralDb.referees (st : ReferralDb) (referrerId : UserId) : ℕ :=
  st.referrals.countP fun r => decide (r.referrerId = referrerId ∧ r.referredId ≠ referrerId)

/-- The user may apply the code, with the row `row`, after the calls `h`. -/
structure Acceptable (config : ReferralConfig) (h : List ReferralEntry) (st : ReferralDb)
    (code : String) (refereeId : UserId) (row : Referral) : Prop where
  found : st.findByCode code = some row
  unused : ¬ AppliedIn h code
  notOwn : row.referrerId ≠ refereeId
  never : ¬ RecordedIn h refereeId
  room : st.referees row.referrerId < config.limit

/-- What is asked of a call `e` that applies the code, made after the calls `h`. -/
structure Judged (config : ReferralConfig) (h : List ReferralEntry) (e : ReferralEntry)
    (code : String) (refereeId : UserId) : Prop where
  accepted : (∃ r, e.result = .ok r) ↔ ∃ row, Acceptable config h e.before code refereeId row
  unchanged : (∃ err, e.result = .error err) → e.after = e.before

/-- The user has a code that nobody has applied. -/
def ReferralDb.OwnsUnapplied (st : ReferralDb) (userId : UserId) : Prop :=
  ∃ r ∈ st.referrals, r.referrerId = userId ∧ r.referredId = userId

/-- No row stands for what it is not: whoever may apply a code has none of
their own, and its referrer has a place beside the code's; whoever may not is
named by a row, or the rows of the referrer are as many as they may be. -/
structure Plain (config : ReferralConfig) (h : List ReferralEntry) (st : ReferralDb)
    (code : String) (refereeId : UserId) (row : Referral) : Prop where
  fresh : ¬ AppliedIn h code → ¬ RecordedIn h refereeId → row.referrerId ≠ refereeId →
    st.referees row.referrerId < config.limit →
    st.db.userExists refereeId = true ∧ ¬ st.OwnsUnapplied refereeId ∧
      st.referees row.referrerId + 1 < config.limit
  again : AppliedIn h code ∨ RecordedIn h refereeId → st.db.userExists refereeId = true →
    (∃ r ∈ st.referrals, r.referredId = refereeId) ∨
      config.limit ≤ st.countByReferrer row.referrerId

-- ---------------------------------------------------------------------------
-- The rows and the calls that made them
-- ---------------------------------------------------------------------------

section Rows

variable {n : ℕ} {st : ReferralDb} {row : Referral}

/-- The rows of a referrer, with and without a referee. -/
theorem countByReferrer_eq (st : ReferralDb) (referrerId : UserId) :
    st.countByReferrer referrerId = st.referees referrerId + st.referrals.countP fun r =>
      decide (r.referrerId = referrerId ∧ r.referredId = referrerId) := by
  unfold ReferralDb.countByReferrer ReferralDb.referees
  induction st.referrals with
  | nil => rfl
  | cons r rs ih =>
    simp only [List.countP_cons, ih, decide_eq_true_eq]
    by_cases hmine : r.referrerId = referrerId <;>
      by_cases hself : r.referredId = referrerId <;> simp [hmine, hself] <;> omega

/-- A code that nobody has applied takes up a place. -/
theorem countByReferrer_unapplied (hidx : Indexed n st) (hrow : row ∈ st.referrals)
    (hunapplied : row.referredId = row.referrerId) :
    st.countByReferrer row.referrerId = st.referees row.referrerId + 1 := by
  rw [countByReferrer_eq, Nat.add_left_cancel_iff]
  -- the row is the only one that names its referrer
  calc (st.referrals.countP fun r =>
        decide (r.referrerId = row.referrerId ∧ r.referredId = row.referrerId))
      = st.referrals.countP fun r => decide (r.id = row.id) := by
        refine List.countP_congr fun r hr => ?_
        rw [decide_eq_true_eq, decide_eq_true_eq]
        constructor
        · intro hown
          rw [hidx.referred r hr row hrow (hown.2.trans hunapplied.symm)]
        · intro hid
          have hsame := hidx.referral_of_mem hr
          rw [hid, hidx.referral_of_mem hrow] at hsame
          obtain rfl := Option.some.inj hsame
          exact ⟨rfl, hunapplied⟩
    _ = 1 := by
        rw [List.countP_eq_length_filter,
          Table.filter_key Referral.id hidx.ids (hidx.referral_of_mem hrow)]
        rfl

theorem findByReferred_eq_none {refereeId : UserId} :
    st.findByReferred refereeId = none ↔ ∀ r ∈ st.referrals, r.referredId ≠ refereeId :=
  Table.get_eq_none _

end Rows

section Sequences

variable {short : UserId → String} {config : ReferralConfig} {db : Db}
  {calls : List (Time × ReferralCall)} {earlier later : List ReferralEntry} {e : ReferralEntry}

/-- Whoever a row names beside its referrer has been recorded with its code. -/
theorem recorded_of_row (hsplit : sequence short config 0 (start db) calls = earlier ++ e :: later)
    {row : Referral} (hrow : row ∈ e.before.referrals) (hne : row.referredId ≠ row.referrerId) :
    AppliedIn earlier row.referralCode ∧ RecordedIn earlier row.referredId := by
  rcases recorded_by (indexed_start db) hsplit hrow hne with ⟨old, hold, -⟩ | ⟨e₀, he₀, row₀, happlied⟩
  · cases hold
  · exact ⟨⟨e₀, he₀, _, row₀, happlied⟩, ⟨e₀, he₀, _, row₀, happlied⟩⟩

/-- What a call that applies a code comes to. -/
theorem apply_result (hsplit : sequence short config 0 (start db) calls = earlier ++ e :: later)
    {code : String} {refereeId : UserId} (hcall : e.call = .applyCode code refereeId) :
    ((∃ r, e.result = .ok r) ↔ ∃ row, Applies config e.before code refereeId row) ∧
      ((∃ err, e.result = .error err) → e.after = e.before) := by
  have he : e ∈ sequence short config 0 (start db) calls := by
    rw [hsplit]
    exact List.mem_append_right _ List.mem_cons_self
  have hentered := entered_of_mem (indexed_start db) he
  refine ⟨⟨?_, ?_⟩, ?_⟩
  · rintro ⟨⟨row, reward⟩, hok⟩
    obtain ⟨old, happlies, -⟩ := hentered.applied ⟨hcall, reward, hok⟩
    exact ⟨old, happlies⟩
  · rintro ⟨row, happlies⟩
    obtain ⟨⟨-, reward, hok⟩, -⟩ := hentered.applies hcall happlies
    exact ⟨_, hok⟩
  · rintro ⟨err, herr⟩
    rcases hentered.done with ⟨-, -, hsame⟩ | ⟨m, r, hok, -⟩
    · exact hsame
    · rw [herr] at hok
      cases hok

/-- **Which codes are accepted.** A call that applies a code, with the program
active and after any calls of the service. -/
theorem accepted_iff (hactive : config.programActive = true)
    (hsplit : sequence short config 0 (start db) calls = earlier ++ e :: later)
    {code : String} {refereeId : UserId} (hcall : e.call = .applyCode code refereeId) :
    Judged config earlier e code refereeId ↔
      ∀ row, e.before.findByCode code = some row →
        Plain config earlier e.before code refereeId row := by
  obtain ⟨hresult, hunchanged⟩ := apply_result hsplit hcall
  obtain ⟨m, hidx, -⟩ := (entered_of_mem (indexed_start db) (e := e) (by
    rw [hsplit]
    exact List.mem_append_right _ List.mem_cons_self)).indexed
  constructor
  · intro h row hfound
    obtain ⟨hrow, rfl⟩ := mem_of_findByCode hfound
    have haccepted := hresult.symm.trans h.accepted
    refine ⟨fun hunused hnever hother hroom => ?_, fun hknown huser => ?_⟩
    · obtain ⟨row', happlies⟩ :=
        haccepted.mpr ⟨row, hfound, hunused, hother, hnever, hroom⟩
      have hsame : row' = row := Option.some.inj (happlies.found.symm.trans hfound)
      subst hsame
      have hunapplied : row'.referredId = row'.referrerId := by
        by_contra hne
        exact hunused (recorded_of_row hsplit hrow hne).1
      have hplaces := happlies.room
      rw [countByReferrer_unapplied hidx hrow hunapplied] at hplaces
      refine ⟨happlies.user, ?_, hplaces⟩
      rintro ⟨r, hr, -, hself⟩
      exact findByReferred_eq_none.mp happlies.unreferred r hr hself
    · by_contra hneither
      rw [not_or, not_exists, Nat.not_le] at hneither
      have hunreferred : e.before.findByReferred refereeId = none :=
        findByReferred_eq_none.mpr fun r hr hself => hneither.1 r ⟨hr, hself⟩
      obtain ⟨row', hacceptable⟩ :=
        haccepted.mp ⟨row, hactive, huser, hunreferred, hfound, hneither.2⟩
      exact hknown.elim hacceptable.unused hacceptable.never
  · intro h
    refine ⟨hresult.trans ⟨?_, ?_⟩, hunchanged⟩
    · rintro ⟨row, happlies⟩
      obtain ⟨hrow, rfl⟩ := mem_of_findByCode happlies.found
      have hnone := findByReferred_eq_none.mp happlies.unreferred
      -- a code that has been applied, or a referee that has been recorded, would be turned away
      have hnew : ¬ (AppliedIn earlier row.referralCode ∨ RecordedIn earlier refereeId) := by
        intro hknown
        rcases (h row happlies.found).again hknown happlies.user with ⟨r, hr, hself⟩ | hfull
        · exact hnone r hr hself
        · exact absurd happlies.room (Nat.not_lt.mpr hfull)
      rw [not_or] at hnew
      have hunapplied : row.referredId = row.referrerId := by
        by_contra hne
        exact hnew.1 (recorded_of_row hsplit hrow hne).1
      have hplaces := happlies.room
      rw [countByReferrer_unapplied hidx hrow hunapplied] at hplaces
      exact ⟨row, happlies.found, hnew.1, fun hown => hnone row hrow (hunapplied.trans hown),
        hnew.2, by omega⟩
    · rintro ⟨row, hacceptable⟩
      obtain ⟨hrow, rfl⟩ := mem_of_findByCode hacceptable.found
      obtain ⟨huser, hnone, hroom⟩ := (h row hacceptable.found).fresh hacceptable.unused
        hacceptable.never hacceptable.notOwn hacceptable.room
      have hunapplied : row.referredId = row.referrerId := by
        by_contra hne
        exact hacceptable.unused (recorded_of_row hsplit hrow hne).1
      refine ⟨row, hactive, huser, findByReferred_eq_none.mpr fun r hr hself => ?_,
        hacceptable.found, ?_⟩
      · -- a row that names the user is a code of their own
        by_cases hown : r.referrerId = refereeId
        · exact hnone ⟨r, hr, hown, hself⟩
        · refine hacceptable.never ?_
          rw [← hself]
          exact (recorded_of_row hsplit hr fun heq => hown (heq ▸ hself)).2
      · rw [countByReferrer_unapplied hidx hrow hunapplied]
        exact hroom

end Sequences

-- ---------------------------------------------------------------------------
-- Codes that are judged wrongly
-- ---------------------------------------------------------------------------

/-- The last call, which applies the code of user 1, is judged as it should be. -/
def LastJudged (config : ReferralConfig) (calls : List (Time × ReferralCall))
    (refereeId : UserId) : Prop :=
  ∀ earlier e, sequence head config 0 (start (.deployed [])) calls = earlier ++ [e] →
    Judged config earlier e codeOfAda refereeId

/-- User 2 applies the code of user 1. -/
def firstApplied : List (Time × ReferralCall) :=
  [(1000, .generateCode 1), (2000, .applyCode codeOfAda 2)]

theorem accepted_iff_first : ∃ earlier e,
    sequence head defaults 0 (start (.deployed [])) firstApplied = earlier ++ e :: [] ∧
      (Judged defaults earlier e codeOfAda 2 ↔
        ∀ row, e.before.findByCode codeOfAda = some row →
          Plain defaults earlier e.before codeOfAda 2 row) :=
  ⟨[_], _, rfl, @accepted_iff head defaults (.deployed []) firstApplied _ [] _ rfl rfl codeOfAda 2
    rfl⟩

/-- User 2 has generated a code before. -/
def ownCode : List (Time × ReferralCall) :=
  [(1000, .generateCode 1), (2000, .generateCode 2), (3000, .applyCode codeOfAda 2)]

/-- The row of the code of user 1. -/
def unappliedRow : Referral := ⟨0, 1, 1, codeOfAda, .pending, 1000, none, none⟩

theorem not_appliedIn_of_generated {h : List ReferralEntry}
    (hgenerated : ∀ e ∈ h, ∃ referrerId, e.call = .generateCode referrerId) :
    (∀ code, ¬ AppliedIn h code) ∧ ∀ refereeId, ¬ RecordedIn h refereeId := by
  constructor
  · rintro code ⟨e, he, refereeId, row, hcall, -⟩
    obtain ⟨referrerId, hother⟩ := hgenerated e he
    rw [hcall] at hother
    cases hother
  · rintro refereeId ⟨e, he, code, row, hcall, -⟩
    obtain ⟨referrerId, hother⟩ := hgenerated e he
    rw [hcall] at hother
    cases hother

/-- User 2 is turned away, as one who has been referred. -/
theorem own_code_turned_away : ¬ LastJudged defaults ownCode 2 := by
  intro h
  have hjudged := h [_, _] _ rfl
  obtain ⟨hunused, hnever⟩ := not_appliedIn_of_generated (h := List.take 2 (sequence head defaults 0
    (start (.deployed [])) ownCode)) (by
      intro e he
      rcases List.mem_cons.mp he with rfl | he
      · exact ⟨1, rfl⟩
      · obtain rfl := List.mem_singleton.mp he
        exact ⟨2, rfl⟩)
  obtain ⟨r, hok⟩ := hjudged.accepted.mpr ⟨unappliedRow, by decide +kernel, hunused codeOfAda,
    by decide, hnever 2, by decide +kernel⟩
  have hisOk : _ = true := congrArg Except.isOk hok
  revert hisOk
  decide +kernel

/-- The one place of user 1 is taken up by the code. -/
theorem last_place_turned_away : ¬ LastJudged ⟨true, some 1, none⟩ firstApplied 2 := by
  intro h
  have hjudged := h [_] _ rfl
  obtain ⟨hunused, hnever⟩ := not_appliedIn_of_generated (h := List.take 1 (sequence head
    ⟨true, some 1, none⟩ 0 (start (.deployed [])) firstApplied)) (by
      intro e he
      obtain rfl := List.mem_singleton.mp he
      exact ⟨1, rfl⟩)
  obtain ⟨r, hok⟩ := hjudged.accepted.mpr ⟨unappliedRow, by decide +kernel, hunused codeOfAda,
    by decide, hnever 2, by decide +kernel⟩
  have hisOk : _ = true := congrArg Except.isOk hok
  revert hisOk
  decide +kernel

end Referrals

end NexaFx

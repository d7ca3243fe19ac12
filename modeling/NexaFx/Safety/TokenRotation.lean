import NexaFx.Model.Auth

/-!
# NexaFx — the rotation chain

What sequences of `rotateRefreshToken` calls at nondecreasing times do:

* a token is accepted at most once (`accepted_le_one`), by the set of used
  tokens alone;
* an unused token that is presented before it expires is accepted
  (`accepted_of_presented`).

A rotation chain needs two things that the method does not look at: that the
token presented is a refresh token, and that it is older than the second in
which it is presented. The token that a rotation returns is a function of the
user and of that second; it is the presented token itself when this was issued
in the same second, and then it is already used. Under these two conditions
(`Disciplined`) every sequence is a rotation chain.
-/

namespace NexaFx

namespace Auth

-- ---------------------------------------------------------------------------
-- The property
-- ---------------------------------------------------------------------------

/-- The entry is a successful call on this token. -/
def accepts (token : Token) (e : RotateCall × Except Err TokenPair) : Bool :=
  decide (e.1.refreshToken = some token) && e.2.isOk

/-- How often a token was accepted. -/
def accepted (token : Token) (h : List (RotateCall × Except Err TokenPair)) : ℕ :=
  h.countP (accepts token)

/-- The token carries the type of a refresh token. -/
def IsRefresh : Token → Prop
  | .signed claims => claims.type = some "refresh"
  | .other _ => False

instance : DecidablePred IsRefresh
  | .signed claims => inferInstanceAs (Decidable (claims.type = some "refresh"))
  | .other _ => inferInstanceAs (Decidable False)

structure RotationChain (h : List (RotateCall × Except Err TokenPair)) : Prop where
  /-- A call succeeds only on a refresh token. -/
  typed : ∀ e ∈ h, ∀ token, accepts token e = true → IsRefresh token
  /-- Each token is accepted at most once. -/
  once : ∀ token, accepted token h ≤ 1
  /-- A returned refresh token that is then presented before it expires is
  accepted exactly once. -/
  returned : ∀ before e after pair, h = before ++ e :: after → e.2 = .ok pair →
    ∀ e' ∈ after, e'.1.refreshToken = some pair.refreshToken →
      verify e'.1.now pair.refreshToken ≠ none → accepted pair.refreshToken after = 1

/-- Calls at nondecreasing times. -/
def Ordered (calls : List RotateCall) : Prop :=
  calls.Pairwise fun call call' => call.now ≤ call'.now

/-- The token a call presents, if it is unused and verifies, is a refresh token
issued in an earlier second. -/
def Disciplined (used : List Token) (call : RotateCall) : Prop :=
  ∀ token payload, call.refreshToken = some token → token ∉ used →
    verify call.now token = some payload →
    payload.type = some "refresh" ∧ payload.iat < seconds call.now

/-- Every call of the sequence is disciplined in the state it finds. -/
def AllDisciplined (jwtExpiry : ℕ) : List Token → List RotateCall → Prop
  | _, [] => True
  | used, call :: calls => Disciplined used call ∧
      AllDisciplined jwtExpiry
        (rotateRefreshToken jwtExpiry used call.now call.refreshToken).2 calls

-- ---------------------------------------------------------------------------
-- At most once, at least once
-- ---------------------------------------------------------------------------

section Sequences

variable {jwtExpiry : ℕ} {used : List Token} {calls : List RotateCall} {token : Token}

theorem accepted_cons (e : RotateCall × Except Err TokenPair)
    (h : List (RotateCall × Except Err TokenPair)) :
    accepted token (e :: h) = (if accepts token e then 1 else 0) + accepted token h := by
  unfold accepted
  rw [List.countP_cons, Nat.add_comm]

/-- A successful call on a token found it unused and leaves it used. -/
theorem accepts_rotate {call : RotateCall}
    (h : accepts token (call, (rotateRefreshToken jwtExpiry used call.now call.refreshToken).1) =
      true) :
    token ∉ used ∧ (∃ payload, verify call.now token = some payload) ∧
    call.refreshToken = some token ∧
    (rotateRefreshToken jwtExpiry used call.now call.refreshToken).2 = token :: used := by
  simp only [accepts, Bool.and_eq_true, decide_eq_true_eq] at h
  cases hr : (rotateRefreshToken jwtExpiry used call.now call.refreshToken).1 with
  | error e =>
    rw [hr] at h
    cases h.2
  | ok pair =>
    obtain ⟨t, payload, htoken, hunused, hverify, -, hused⟩ := rotate_ok hr
    rw [h.1] at htoken
    cases htoken
    exact ⟨hunused, ⟨payload, hverify⟩, h.1, hused⟩

/-- The used tokens only grow. -/
theorem mem_used_rotate {call : RotateCall} (h : token ∈ used) :
    token ∈ (rotateRefreshToken jwtExpiry used call.now call.refreshToken).2 := by
  cases hr : (rotateRefreshToken jwtExpiry used call.now call.refreshToken).1 with
  | error e => rwa [rotate_error hr]
  | ok pair =>
    obtain ⟨t, _, -, -, -, -, hused⟩ := rotate_ok hr
    rw [hused]
    exact List.mem_cons_of_mem _ h

/-- A used token is not accepted any more. -/
theorem accepted_of_used (h : token ∈ used) :
    accepted token (outcomes jwtExpiry used calls) = 0 := by
  induction calls generalizing used with
  | nil => rfl
  | cons call calls ih =>
    have hno : ¬ accepts token
        (call, (rotateRefreshToken jwtExpiry used call.now call.refreshToken).1) = true :=
      fun hacc => (accepts_rotate hacc).1 h
    rw [outcomes, accepted_cons, if_neg hno, ih (mem_used_rotate h)]

theorem accepted_le_one (jwtExpiry : ℕ) (used : List Token) (calls : List RotateCall)
    (token : Token) : accepted token (outcomes jwtExpiry used calls) ≤ 1 := by
  induction calls generalizing used with
  | nil => exact Nat.zero_le 1
  | cons call calls ih =>
    rw [outcomes, accepted_cons]
    split
    · rename_i hacc
      obtain ⟨-, -, -, hused⟩ := accepts_rotate hacc
      have hmem : token ∈ (rotateRefreshToken jwtExpiry used call.now call.refreshToken).2 := by
        rw [hused]
        exact List.mem_cons_self ..
      rw [accepted_of_used hmem]
    · rw [zero_add]
      exact ih _

/-- An unused token that is presented before it expires is accepted once. -/
theorem accepted_of_presented (hordered : Ordered calls) (hunused : token ∉ used)
    {call : RotateCall} (hcall : call ∈ calls) (htoken : call.refreshToken = some token)
    (hverify : verify call.now token ≠ none) :
    accepted token (outcomes jwtExpiry used calls) = 1 := by
  induction calls generalizing used with
  | nil => cases hcall
  | cons first calls ih =>
    obtain ⟨hle, hrest⟩ := List.pairwise_cons.mp hordered
    have hcount := accepted_le_one jwtExpiry used (first :: calls) token
    rw [outcomes, accepted_cons] at hcount ⊢
    by_cases hfirst : first.refreshToken = some token
    · -- presented now, and no later than when it still verifies
      have hvalid : ∃ payload, verify first.now token = some payload := by
        obtain ⟨payload, hpayload⟩ := Option.ne_none_iff_exists'.mp hverify
        obtain ⟨rfl, hexp⟩ := verify_some hpayload
        have htime : seconds first.now ≤ seconds call.now := by
          rcases List.mem_cons.mp hcall with rfl | hmem
          · exact le_rfl
          · exact Nat.div_le_div_right (hle call hmem)
        exact ⟨payload, if_pos (htime.trans_lt hexp)⟩
      obtain ⟨payload, hpayload⟩ := hvalid
      have hacc : accepts token
          (first, (rotateRefreshToken jwtExpiry used first.now first.refreshToken).1) = true := by
        rw [hfirst, rotate_accepts jwtExpiry hunused hpayload]
        simp [accepts, hfirst, Except.isOk, Except.toBool]
      rw [if_pos hacc] at hcount ⊢
      omega
    · have hmem : call ∈ calls := by
        rcases List.mem_cons.mp hcall with rfl | hmem
        · exact absurd htoken hfirst
        · exact hmem
      have hno : ¬ accepts token
          (first, (rotateRefreshToken jwtExpiry used first.now first.refreshToken).1) = true :=
        fun hacc => hfirst (accepts_rotate hacc).2.2.1
      have hstill : token ∉
          (rotateRefreshToken jwtExpiry used first.now first.refreshToken).2 := by
        cases hr : (rotateRefreshToken jwtExpiry used first.now first.refreshToken).1 with
        | error e => rwa [rotate_error hr]
        | ok pair =>
          obtain ⟨t, _, ht, -, -, -, hused⟩ := rotate_ok hr
          rw [hused, List.mem_cons, not_or]
          exact ⟨fun heq => hfirst (heq ▸ ht), hunused⟩
      rw [if_neg hno, zero_add]
      exact ih hrest hstill hmem

end Sequences

-- ---------------------------------------------------------------------------
-- Disciplined sequences
-- ---------------------------------------------------------------------------

/-- Every used token was issued before the second of `now`. -/
def UsedBefore (used : List Token) (now : Time) : Prop :=
  ∀ claims, .signed claims ∈ used → claims.iat < seconds now

theorem UsedBefore.mono {used : List Token} {now now' : Time} (h : UsedBefore used now)
    (hle : now ≤ now') : UsedBefore used now' :=
  fun claims hmem => (h claims hmem).trans_le (Nat.div_le_div_right hle)

section Disciplined

variable {jwtExpiry : ℕ} {used : List Token} {call : RotateCall} {calls : List RotateCall}

/-- A disciplined call keeps the used tokens older than the clock. -/
theorem usedBefore_rotate (jwtExpiry : ℕ) (hold : UsedBefore used call.now)
    (hcall : Disciplined used call) :
    UsedBefore (rotateRefreshToken jwtExpiry used call.now call.refreshToken).2 call.now := by
  cases hr : (rotateRefreshToken jwtExpiry used call.now call.refreshToken).1 with
  | error e => rwa [rotate_error hr]
  | ok pair =>
    obtain ⟨token, payload, htoken, hunused, hverify, -, hused⟩ := rotate_ok hr
    rw [hused]
    intro claims hmem
    rcases List.mem_cons.mp hmem with heq | hmem
    · obtain ⟨rfl, -⟩ := verify_some hverify
      cases heq
      exact (hcall _ _ htoken hunused hverify).2
    · exact hold claims hmem

/-- The token that a disciplined call returns is new: it is issued in this very
second, and what is used by now is older. -/
theorem newRefreshToken_not_used (hold : UsedBefore used call.now) (hcall : Disciplined used call)
    {pair : TokenPair}
    (hok : (rotateRefreshToken jwtExpiry used call.now call.refreshToken).1 = .ok pair) :
    pair.refreshToken ∉ (rotateRefreshToken jwtExpiry used call.now call.refreshToken).2 := by
  have hused := usedBefore_rotate jwtExpiry hold hcall
  obtain ⟨token, payload, -, -, -, rfl, -⟩ := rotate_ok hok
  intro hmem
  exact absurd (hused _ hmem) (lt_irrefl _)

theorem accepts_isRefresh (hall : AllDisciplined jwtExpiry used calls)
    {e : RotateCall × Except Err TokenPair} (he : e ∈ outcomes jwtExpiry used calls)
    {token : Token} (hacc : accepts token e = true) : IsRefresh token := by
  induction calls generalizing used with
  | nil => cases he
  | cons call calls ih =>
    rw [outcomes] at he
    rcases List.mem_cons.mp he with rfl | hmem
    · obtain ⟨hunused, ⟨payload, hverify⟩, htoken, -⟩ := accepts_rotate hacc
      have htype := (hall.1 token payload htoken hunused hverify).1
      obtain ⟨rfl, -⟩ := verify_some hverify
      exact htype
    · exact ih hall.2 hmem

/-- A token that a call of the sequence returns is accepted once if it is then
presented in time. The induction is on the calls before the one that returns it. -/
theorem accepted_returned (hordered : Ordered calls) (hall : AllDisciplined jwtExpiry used calls)
    (hold : ∀ call ∈ calls, UsedBefore used call.now)
    {before after : List (RotateCall × Except Err TokenPair)}
    {e : RotateCall × Except Err TokenPair} {pair : TokenPair}
    (hsplit : outcomes jwtExpiry used calls = before ++ e :: after) (hok : e.2 = .ok pair)
    {e' : RotateCall × Except Err TokenPair} (he' : e' ∈ after)
    (htoken : e'.1.refreshToken = some pair.refreshToken)
    (hverify : verify e'.1.now pair.refreshToken ≠ none) :
    accepted pair.refreshToken after = 1 := by
  induction before generalizing used calls with
  | nil =>
    cases calls with
    | nil => cases hsplit
    | cons call calls =>
      rw [outcomes] at hsplit
      obtain ⟨hhead, htail⟩ := List.cons.inj hsplit
      subst hhead
      have hunused := newRefreshToken_not_used (hold call (List.mem_cons_self ..)) hall.1 hok
      have hpresented : e'.1 ∈ calls := by
        rw [← outcomes_map_fst jwtExpiry
          (rotateRefreshToken jwtExpiry used call.now call.refreshToken).2 calls, htail]
        exact List.mem_map_of_mem he'
      rw [← htail]
      exact accepted_of_presented (List.pairwise_cons.mp hordered).2 hunused hpresented htoken
        hverify
  | cons b before ih =>
    cases calls with
    | nil => cases hsplit
    | cons call calls =>
      rw [outcomes] at hsplit
      obtain ⟨-, htail⟩ := List.cons.inj hsplit
      obtain ⟨hle, hrest⟩ := List.pairwise_cons.mp hordered
      have hused := usedBefore_rotate jwtExpiry (hold call (List.mem_cons_self ..)) hall.1
      exact ih hrest hall.2 (fun c hc => hused.mono (hle c hc)) htail

end Disciplined

/-- **Rotation chain.** Every sequence of calls at nondecreasing times in which
only refresh tokens of earlier seconds are accepted. -/
theorem rotation_chain (jwtExpiry : ℕ) {calls : List RotateCall} (hordered : Ordered calls)
    (hall : AllDisciplined jwtExpiry [] calls) : RotationChain (outcomes jwtExpiry [] calls) := by
  constructor
  case typed =>
    intro e he token hacc
    exact accepts_isRefresh hall he hacc
  case once => exact accepted_le_one jwtExpiry [] calls
  case returned =>
    intro before e after pair hsplit hok e' he' htoken hverify
    refine accepted_returned hordered hall ?_ hsplit hok he' htoken hverify
    intro call _ claims hmem
    cases hmem

/-- A refresh token of user 1 issued in the second `iat`. -/
def refreshAt (iat : ℕ) : Token :=
  .signed ⟨1, "ada@example.com", "user", some "refresh", iat, iat + REFRESH_EXPIRES_IN⟩

/-- A token, ten seconds later its successor, and this one again. -/
def threeRotations : List RotateCall :=
  [⟨10000, some (refreshAt 0)⟩, ⟨20000, some (refreshAt 10)⟩, ⟨30000, some (refreshAt 10)⟩]

theorem rotation_chain_three :
    RotationChain (outcomes 3600 [] threeRotations) ∧
    (outcomes 3600 [] threeRotations).map (fun e => e.2.isOk) = [true, true, false] := by
  refine ⟨rotation_chain 3600 ?_ ?_, by decide +kernel⟩
  · unfold Ordered
    decide
  · refine ⟨?_, ?_, ?_, trivial⟩
    all_goals
      intro token payload htoken _ hverify
      obtain ⟨rfl, -⟩ := verify_some hverify
      cases htoken
      exact ⟨rfl, by decide⟩

/-- An access token as `issueToken` signs it. -/
def accessAt (now : Time) : Token := issueToken 3600 now 1 "ada@example.com" "user"

/-- An access token is rotated like any other; and of two rotations in one
second the second returns the very token it was given, which is used. -/
theorem rotation_chain_broken :
    ¬ RotationChain (outcomes 3600 [] [⟨10000, some (accessAt 0)⟩]) ∧
    ¬ RotationChain (outcomes 3600 []
      [⟨10000, some (refreshAt 0)⟩, ⟨10200, some (refreshAt 10)⟩,
        ⟨20000, some (refreshAt 10)⟩]) := by
  constructor
  · intro h
    have htyped := h.typed (⟨10000, some (accessAt 0)⟩,
      .ok ⟨sign 10000 1 "ada@example.com" "user" none 3600, refreshAt 10⟩) (by decide +kernel)
      (accessAt 0) (by decide +kernel)
    exact absurd htyped (by decide)
  · intro h
    -- the second call is given `refreshAt 10` and returns it
    have hcount := h.returned
      [(⟨10000, some (refreshAt 0)⟩,
        .ok ⟨sign 10000 1 "ada@example.com" "user" none 3600, refreshAt 10⟩)]
      (⟨10200, some (refreshAt 10)⟩,
        .ok ⟨sign 10000 1 "ada@example.com" "user" none 3600, refreshAt 10⟩)
      [(⟨20000, some (refreshAt 10)⟩,
        .error (.forbidden "Refresh token has already been used (token rotation policy)"))]
      ⟨sign 10000 1 "ada@example.com" "user" none 3600, refreshAt 10⟩ (by decide +kernel) rfl
      _ (List.mem_cons_self ..) rfl (by decide +kernel)
    exact absurd hcount (by decide +kernel)

end Auth

end NexaFx

import NexaFx.Lib.Serial
import NexaFx.Model.KycTiers

/-!
# NexaFx — tiers only go up

`approve` grants the tier that was asked for without comparing it with the tier
the user has by then. Among calls that do not overlap this is enough: the user
cannot ask for another tier while one request is pending, so that the pending
request is above the user's tier until it is decided.

* `Sound` — the invariant; `approve_wp`, `reject_wp`, `requestUpgrade_wp` keep
  it statement by statement and say what becomes of the tiers;
* `tiers_only_go_up` — in every sequence of calls.
-/

namespace NexaFx

open Async

namespace KycTiers

variable {F : Type}

-- ---------------------------------------------------------------------------
-- What counts of the database
-- ---------------------------------------------------------------------------

structure Tiers where
  upgrades : List KycTierUpgradeEntity
  decisions : List KycTierUpgradeEntity
  /-- `metadata?.kycTier` of the users there are. -/
  tier : UserId → Option (Option String)

def TierDb.tiers (db : TierDb F) : Tiers where
  upgrades := db.upgrades
  decisions := db.decisions
  tier userId := (db.user userId).map UserEntity.kycTier

/-- The level of the user's tier. -/
def Tiers.level (v : Tiers) (userId : UserId) : ℕ :=
  ((v.tier userId).map fun t => KycTiers.level (t.getD "NONE")).getD 0

def pendingOf (userId : UserId) (u : KycTierUpgradeEntity) : Bool :=
  decide (u.userId = userId ∧ u.status = .pending)

structure Sound (v : Tiers) : Prop where
  keyed : (v.upgrades.map KycTierUpgradeEntity.id).Nodup
  onePending : ∀ userId, v.upgrades.countP (pendingOf userId) ≤ 1
  /-- A pending request is above the tier of its user. -/
  above : ∀ u ∈ v.upgrades, u.status = .pending → v.level u.userId < level u.requestedTier
  decided : ∀ d ∈ v.decisions, d ∈ v.upgrades ∧ d.status ≠ .pending
  once : (v.decisions.map KycTierUpgradeEntity.id).Nodup

/-- A decision is saved. -/
def Tiers.decide (v : Tiers) (d : KycTierUpgradeEntity) : Tiers :=
  { v with upgrades := v.upgrades.map d.update, decisions := v.decisions ++ [d] }

/-- A user is saved with the tier `t`. -/
def Tiers.setTier (v : Tiers) (userId : UserId) (t : Option String) : Tiers :=
  { v with tier := fun x => if x = userId then some t else v.tier x }

theorem Tiers.tier_setTier (v : Tiers) (userId : UserId) (t : Option String) (x : UserId) :
    (v.setTier userId t).tier x = if x = userId then some t else v.tier x := rfl

theorem Tiers.setTier_self {v : Tiers} {userId : UserId} {t : Option String}
    (h : v.tier userId = some t) : v.setTier userId t = v := by
  unfold setTier
  have hsame : (fun x => if x = userId then some t else v.tier x) = v.tier := by
    funext x
    split
    · rename_i hx
      rw [hx, h]
    · rfl
  rw [hsame]

theorem TierDb.user_id {db : TierDb F} {userId : UserId} {u : UserEntity F}
    (h : db.user userId = some u) : u.id = userId := by
  simpa using List.find?_some h

theorem TierDb.upgrade_id {db : TierDb F} {id : ℕ} {u : KycTierUpgradeEntity}
    (h : db.upgrade id = some u) : u.id = id := by
  simpa using List.find?_some h

theorem TierDb.user_saveUser (db : TierDb F) (u : UserEntity F) (change : UserChange F)
    (userId : UserId) : (db.saveUser u change).user userId = (db.user userId).map u.update := by
  have hsame : (fun w : UserEntity F => decide (w.id = userId)) ∘ u.update =
      fun w => decide (w.id = userId) := by
    funext w
    show decide ((u.update w).id = userId) = _
    unfold UserEntity.update
    split
    · rename_i h
      rw [h]
    · rfl
  unfold TierDb.user TierDb.saveUser
  rw [List.find?_map, hsame]

/-- The save of a user row that was loaded. -/
theorem TierDb.user_saveUser_self {db : TierDb F} {u w : UserEntity F} (change : UserChange F)
    (h : db.user u.id = some w) (userId : UserId) :
    (db.saveUser u change).user userId = if userId = u.id then some u else db.user userId := by
  rw [TierDb.user_saveUser]
  split
  · rename_i hid
    subst hid
    rw [h, Option.map_some, UserEntity.update, if_pos (TierDb.user_id h)]
  · rename_i hid
    cases hw : db.user userId with
    | none => rfl
    | some w' =>
      have hother : w'.id ≠ u.id := by
        rw [TierDb.user_id hw]
        exact hid
      rw [Option.map_some, UserEntity.update, if_neg hother]

theorem TierDb.tiers_saveUser {db : TierDb F} {u w : UserEntity F} (change : UserChange F)
    (h : db.user u.id = some w) :
    (db.saveUser u change).tiers = db.tiers.setTier u.id u.kycTier := by
  show Tiers.mk _ _ _ = Tiers.mk _ _ _
  congr 1
  funext x
  rw [TierDb.user_saveUser_self change h]
  split <;> rfl

namespace Sound

variable {v : Tiers}

/-- A request that was found pending is decided. -/
theorem decide (h : Sound v) {u d : KycTierUpgradeEntity} (hu : u ∈ v.upgrades)
    (hpending : u.status = .pending) (hid : d.id = u.id) (hdecides : d.status ≠ .pending) :
    Sound (v.decide d) ∧ ∀ x ∈ (v.decide d).upgrades, x.status = .pending → x.userId ≠ u.userId := by
  have hself : ∀ x ∈ v.upgrades, x.id = d.id → x = u := fun x hx hxd =>
    List.inj_on_of_nodup_map h.keyed hx hu (hxd.trans hid)
  -- what is pending now is another request, which was pending before
  have hbefore : ∀ x ∈ (v.decide d).upgrades, x.status = .pending → x ∈ v.upgrades ∧ x.id ≠ d.id := by
    intro x hx hxp
    obtain ⟨y, hy, rfl⟩ := List.mem_map.mp hx
    rw [KycTierUpgradeEntity.update_id]
    unfold KycTierUpgradeEntity.update at hxp ⊢
    split at hxp
    · exact absurd hxp hdecides
    · rename_i hyd
      rw [if_neg hyd]
      exact ⟨hy, hyd⟩
  have hmap : (v.upgrades.map d.update).map KycTierUpgradeEntity.id =
      v.upgrades.map KycTierUpgradeEntity.id := by
    rw [List.map_map]
    exact List.map_congr_left fun row _ => d.update_id row
  refine ⟨⟨?_, fun x => ?_, fun x hx hxp => ?_, fun x hx => ?_, ?_⟩, fun x hx hxp hxu => ?_⟩
  · show ((v.upgrades.map d.update).map _).Nodup
    rw [hmap]
    exact h.keyed
  · show (v.upgrades.map d.update).countP (pendingOf x) ≤ 1
    rw [List.countP_map]
    refine le_trans (List.countP_mono_left fun y _ hy => ?_) (h.onePending x)
    unfold Function.comp KycTierUpgradeEntity.update at hy
    split at hy
    · exact absurd (of_decide_eq_true hy).2 hdecides
    · exact hy
  · exact h.above x (hbefore x hx hxp).1 hxp
  · rcases List.mem_append.mp hx with hold | hnew
    · obtain ⟨hmem, hstatus⟩ := h.decided x hold
      refine ⟨List.mem_map.mpr ⟨x, hmem, if_neg fun hxd => ?_⟩, hstatus⟩
      rw [hself x hmem hxd] at hstatus
      exact hstatus hpending
    · rw [List.mem_singleton.mp hnew]
      exact ⟨List.mem_map.mpr ⟨u, hu, if_pos hid.symm⟩, hdecides⟩
  · show ((v.decisions ++ [d]).map KycTierUpgradeEntity.id).Nodup
    refine Table.nodup_concat KycTierUpgradeEntity.id h.once fun hmem => ?_
    obtain ⟨x, hx, hxd⟩ := List.mem_map.mp hmem
    obtain ⟨hxu, hstatus⟩ := h.decided x hx
    rw [hself x hxu hxd] at hstatus
    exact hstatus hpending
  · -- two pending requests of one user
    obtain ⟨hold, hne⟩ := hbefore x hx hxp
    have hpx : pendingOf u.userId x = true := decide_eq_true ⟨hxu, hxp⟩
    have hpu : pendingOf u.userId u = true := decide_eq_true ⟨rfl, hpending⟩
    have hone := h.onePending u.userId
    rw [List.countP_eq_length_filter] at hone
    obtain ⟨y, hy⟩ : ∃ y, v.upgrades.filter (pendingOf u.userId) = [y] := by
      refine List.length_eq_one_iff.mp (Nat.le_antisymm hone ?_)
      exact List.length_pos_of_mem (List.mem_filter.mpr ⟨hu, hpu⟩)
    have hxy : x ∈ [y] := hy ▸ List.mem_filter.mpr ⟨hold, hpx⟩
    have huy : u ∈ [y] := hy ▸ List.mem_filter.mpr ⟨hu, hpu⟩
    rw [List.mem_singleton] at hxy huy
    rw [hxy, ← huy] at hne
    exact hne hid.symm

/-- The tier of a user without a pending request changes. -/
theorem setTier (h : Sound v) {userId : UserId} (t : Option String)
    (hnone : ∀ x ∈ v.upgrades, x.status = .pending → x.userId ≠ userId) :
    Sound (v.setTier userId t) := by
  refine ⟨h.keyed, h.onePending, fun x hx hxp => ?_, h.decided, h.once⟩
  have hlevel : (v.setTier userId t).level x.userId = v.level x.userId := by
    unfold Tiers.level
    rw [Tiers.tier_setTier, if_neg (hnone x hx hxp)]
  rw [hlevel]
  exact h.above x hx hxp

/-- A request above the tier of a user who has none pending. -/
theorem insert (h : Sound v) {u : KycTierUpgradeEntity}
    (hfresh : u.id ∉ v.upgrades.map KycTierUpgradeEntity.id)
    (hnone : ∀ x ∈ v.upgrades, pendingOf u.userId x = false)
    (habove : v.level u.userId < level u.requestedTier) :
    Sound { v with upgrades := v.upgrades ++ [u] } := by
  refine ⟨Table.nodup_concat KycTierUpgradeEntity.id h.keyed hfresh, fun x => ?_,
    fun x hx hxp => ?_, fun x hx => ?_, h.once⟩
  · show (v.upgrades ++ [u]).countP (pendingOf x) ≤ 1
    rw [List.countP_append, List.countP_singleton]
    by_cases hx : pendingOf x u = true
    · have huser : u.userId = x := (of_decide_eq_true hx).1
      have hzero : v.upgrades.countP (pendingOf x) = 0 := by
        rw [List.countP_eq_zero]
        intro y hy
        rw [← huser, hnone y hy]
        simp
      rw [hzero, if_pos hx]
    · rw [if_neg hx]
      exact h.onePending x
  · rcases List.mem_append.mp hx with hold | hnew
    · exact h.above x hold hxp
    · rw [List.mem_singleton.mp hnew]
      exact habove
  · exact ⟨List.mem_append_left _ (h.decided x hx).1, (h.decided x hx).2⟩

end Sound

-- ---------------------------------------------------------------------------
-- The calls
-- ---------------------------------------------------------------------------

/-- What a call that ended well does to the tiers. -/
def TierCall.Grants (v v' : Tiers) : TierCall F → Prop
  | .approve id _ => ∃ u ∈ v.upgrades, u.id = id ∧ u.status = .pending ∧
      (∀ t, v.tier u.userId = some t → v.level u.userId < v'.level u.userId) ∧
      ((v.tier u.userId).isSome = (v'.tier u.userId).isSome) ∧
      ∀ userId, userId ≠ u.userId → v'.tier userId = v.tier userId
  | _ => v'.tier = v.tier

/-- What a call does to what counts. -/
structure TierCall.Ends (k : TierCall F) (v : Tiers) (failed : Bool) (v' : Tiers) : Prop where
  /-- A request that is decided stays as it is. -/
  final : ∀ u ∈ v.upgrades, u.status ≠ .pending → u ∈ v'.upgrades
  tier : if failed then v'.tier = v.tier else k.Grants v v'

/-- The calls run one after the other; meanwhile time passes, and other services
change what is no part of the tiers. -/
def surroundings (F : Type) : Surroundings (TierCmd F) TierCmd.Reply TierErr (TierDb F) where
  exec := exec
  mayFail := mayFail
  drifts db db' := db'.tiers = db.tiers

def logic (F : Type) : Logic (TierCmd F) TierCmd.Reply TierErr (TierDb F) Tiers where
  exec := exec
  allows _ _ := True
  fails _ _ := True
  view := TierDb.tiers
  frame _ db' := Sound db'.tiers

section Programs

variable {v : Tiers} {α : Type} {k : TierCall F}

/-- A lookup. -/
theorem wp_read {c : TierCmd F} {next : c.Reply → TierProc F α} {post : Except TierErr α → Tiers → Prop}
    (hquiet : ∀ db a db', exec c db = .ok (a, db') → db' = db) (h : Sound v)
    (hok : ∀ db a, db.tiers = v → exec c db = .ok (a, db) → (next a).wp (logic F) post v)
    (herror : ∀ e, post (.error e) v) : ((await c).bind next).wp (logic F) post v := by
  refine Proc.wp_call_bind (fun db a db' hdb _ hexec => ?_) fun _ _ _ e => herror e
  obtain rfl := hquiet db a db' hexec
  have hview : db'.tiers = v := hdb
  show Sound db'.tiers ∧ (next a).wp (logic F) post db'.tiers
  rw [hview]
  exact ⟨h, hok db' a hview hexec⟩

/-- A statement that makes `v'` of `v`. -/
theorem wp_write {c : TierCmd F} {next : c.Reply → TierProc F α} {v' : Tiers}
    {post : Except TierErr α → Tiers → Prop} (h : Sound v')
    (hexec : ∀ db a db', db.tiers = v → exec c db = .ok (a, db') → db'.tiers = v')
    (hok : ∀ a, (next a).wp (logic F) post v') (herror : ∀ e, post (.error e) v) :
    ((await c).bind next).wp (logic F) post v := by
  refine Proc.wp_call_bind (fun db a db' hdb _ hcarried => ?_) fun _ _ _ e => herror e
  show Sound db'.tiers ∧ (next a).wp (logic F) post db'.tiers
  rw [hexec db a db' hdb hcarried]
  exact ⟨h, hok a⟩

/-- Nothing has been written. -/
theorem ends_refl (k : TierCall F) (v : Tiers) : k.Ends v true v := ⟨fun _ hu _ => hu, rfl⟩

/-- Decided requests are kept by the decision on another. -/
theorem mem_decide {u d : KycTierUpgradeEntity} (hkeyed : (v.upgrades.map KycTierUpgradeEntity.id).Nodup)
    (hu : u ∈ v.upgrades) (hpending : u.status = .pending) (hid : d.id = u.id)
    {x : KycTierUpgradeEntity} (hx : x ∈ v.upgrades) (hdecided : x.status ≠ .pending) :
    x ∈ (v.decide d).upgrades := by
  refine List.mem_map.mpr ⟨x, hx, if_neg fun hxd => hdecided ?_⟩
  rw [List.inj_on_of_nodup_map hkeyed hx hu (hxd.trans hid)]
  exact hpending

/-- What is looked up is a row. -/
theorem mem_of_upgrade {db : TierDb F} {id : ℕ} {u : KycTierUpgradeEntity}
    (h : db.upgrade id = some u) : u ∈ db.upgrades := List.mem_of_find?_eq_some h

theorem approve_wp (id : ℕ) (adminId : UserId) (h : Sound v) :
    (approve id adminId).wp (logic F)
      (fun r v' => (TierCall.approve id adminId : TierCall F).Ends v (failed r) v') v := by
  unfold approve
  simp only [Proc.bind_eq]
  refine wp_read (fun db a db' hexec => by cases hexec; rfl) h (fun db found hdb hexec => ?_)
    fun _ => ends_refl _ v
  have hfound : db.upgrade id = found := (Prod.mk.inj (Except.ok.inj hexec)).1
  cases found with
  | none => exact ends_refl _ v
  | some u =>
    have hu : u ∈ v.upgrades := hdb ▸ mem_of_upgrade hfound
    refine Proc.wp_rejectWhen_bind (fun _ => ends_refl _ v) fun hstatus => ?_
    have hpending : u.status = .pending := not_not.mp hstatus
    refine wp_read (fun db a db' hexec => by cases hexec; rfl) h (fun db now _ _ => ?_)
      fun _ => ends_refl _ v
    -- the request is decided
    generalize hd : ({ u with
      status := .approved, reviewedBy := some adminId, reviewedAt := some now } :
        KycTierUpgradeEntity) = d
    have hid : d.id = u.id := by rw [← hd]
    have hdecides : d.status ≠ .pending := by
      rw [← hd]
      simp
    obtain ⟨hsound, hnone⟩ := h.decide hu hpending hid hdecides
    have hfinal : ∀ x ∈ v.upgrades, x.status ≠ .pending → x ∈ (v.decide d).upgrades :=
      fun x hx hx' => mem_decide h.keyed hu hpending hid hx hx'
    refine wp_write hsound (fun db a db' hdb hexec => ?_) (fun saved => ?_) fun _ => ends_refl _ v
    · cases hexec
      rw [← hdb]
      rfl
    -- the tier is granted
    refine wp_read (fun db a db' hexec => by cases hexec; rfl) hsound (fun db found hdb hexec => ?_)
      fun _ => ⟨hfinal, rfl⟩
    have huser : db.user u.userId = found := (Prod.mk.inj (Except.ok.inj hexec)).1
    have htier : v.tier u.userId = found.map UserEntity.kycTier := by
      rw [← huser]
      exact (congrFun (congrArg Tiers.tier hdb) u.userId).symm
    cases found with
    | none =>
      refine ⟨hfinal, u, hu, TierDb.upgrade_id hfound, hpending, fun t ht => ?_, rfl, fun _ _ => rfl⟩
      rw [htier] at ht
      cases ht
    | some user =>
      have hname : user.id = u.userId := TierDb.user_id huser
      refine wp_write (hsound.setTier (some u.requestedTier) hnone) (fun db a db' hdb hexec => ?_)
        (fun _ => ?_) fun _ => ⟨hfinal, rfl⟩
      · cases hexec
        have hrow : (db.user u.userId).map UserEntity.kycTier = some user.kycTier :=
          (congrFun (congrArg Tiers.tier hdb) u.userId).trans htier
        obtain ⟨w, hw, -⟩ := Option.map_eq_some_iff.mp hrow
        rw [TierDb.tiers_saveUser _ (by rwa [hname]), hdb, hname]
      · have hthere : v.tier u.userId = some user.kycTier := htier
        have hnew : ((v.decide d).setTier u.userId (some u.requestedTier)).tier u.userId =
            some (some u.requestedTier) := if_pos rfl
        refine ⟨hfinal, u, hu, TierDb.upgrade_id hfound, hpending, fun t _ => ?_, ?_, fun x hx => if_neg hx⟩
        · have hlevel : ((v.decide d).setTier u.userId (some u.requestedTier)).level u.userId =
              level u.requestedTier := by
            unfold Tiers.level
            rw [hnew]
            rfl
          rw [hlevel]
          exact h.above u hu hpending
        · rw [hthere, hnew]
          rfl

theorem reject_wp (id : ℕ) (adminId : UserId) (reason : Option String) (h : Sound v) :
    (reject id adminId reason).wp (logic F)
      (fun r v' => (TierCall.reject id adminId reason : TierCall F).Ends v (failed r) v') v := by
  unfold reject
  simp only [Proc.bind_eq]
  refine wp_read (fun db a db' hexec => by cases hexec; rfl) h (fun db found hdb hexec => ?_)
    fun _ => ends_refl _ v
  have hfound : db.upgrade id = found := (Prod.mk.inj (Except.ok.inj hexec)).1
  cases found with
  | none => exact ends_refl _ v
  | some u =>
    have hu : u ∈ v.upgrades := hdb ▸ mem_of_upgrade hfound
    refine Proc.wp_rejectWhen_bind (fun _ => ends_refl _ v) fun hstatus => ?_
    have hpending : u.status = .pending := not_not.mp hstatus
    refine wp_read (fun db a db' hexec => by cases hexec; rfl) h (fun db now _ _ => ?_)
      fun _ => ends_refl _ v
    rw [← Proc.bind_return (await _)]
    generalize hd : ({ u with
      status := .rejected, reviewedBy := some adminId, reviewedAt := some now,
      documents := rejectionDocuments u.documents reason } : KycTierUpgradeEntity) = d
    have hid : d.id = u.id := by rw [← hd]
    have hdecides : d.status ≠ .pending := by
      rw [← hd]
      simp
    refine wp_write (h.decide hu hpending hid hdecides).1 (fun db a db' hdb hexec => ?_)
      (fun _ => ⟨fun x hx hx' => mem_decide h.keyed hu hpending hid hx hx', rfl⟩) fun _ => ends_refl _ v
    cases hexec
    rw [← hdb]
    rfl

theorem requestUpgrade_wp (userId : UserId) (dto : RequestKycTierUpgradeDto) (h : Sound v) :
    (requestUpgrade userId dto).wp (logic F)
      (fun r v' => (TierCall.requestUpgrade userId dto : TierCall F).Ends v (failed r) v') v := by
  unfold requestUpgrade
  simp only [Proc.bind_eq]
  refine wp_read (fun db a db' hexec => by cases hexec; rfl) h (fun db found hdb hexec => ?_)
    fun _ => ends_refl _ v
  have huser : db.user userId = found := (Prod.mk.inj (Except.ok.inj hexec)).1
  cases found with
  | none => exact ends_refl _ v
  | some user =>
    have hlevel : v.level userId = level user.currentTier := by
      rw [← hdb]
      show ((db.user userId).map UserEntity.kycTier |>.map _).getD 0 = _
      rw [huser]
      rfl
    cases htier : TIER_LEVELS (upperCase dto.requestedTier) with
    | none => exact ends_refl _ v
    | some requestedLevel =>
      refine Proc.wp_rejectWhen_bind (fun _ => ends_refl _ v) fun habove => ?_
      refine wp_read (fun db a db' hexec => by cases hexec; rfl) h (fun db found hdb hexec => ?_)
        fun _ => ends_refl _ v
      have hpending : (db.pendingOf userId).head? = found := (Prod.mk.inj (Except.ok.inj hexec)).1
      cases found with
      | some u => exact ends_refl _ v
      | none =>
        have hnone : ∀ x ∈ v.upgrades, KycTiers.pendingOf userId x = false := by
          have hempty : v.upgrades.filter (KycTiers.pendingOf userId) = [] := by
            rw [← hdb]
            exact List.head?_eq_none_iff.mp hpending
          intro x hx
          have hx' := List.filter_eq_nil_iff.mp hempty x hx
          exact Bool.not_eq_true _ ▸ hx'
        have hrequested : v.level userId < level (upperCase dto.requestedTier) := by
          rw [level, upperCase_upperCase, htier, hlevel]
          exact Nat.lt_of_not_le habove
        rw [← Proc.bind_return (await _)]
        refine Proc.wp_call_bind (fun db a db' hdb _ hexec => ?_) fun _ _ _ _ => ends_refl _ v
        obtain rfl : db.tiers = v := hdb
        cases hexec
        refine ⟨h.insert (u := db.fresh userId user.currentTier dto) (Table.freshKey_notMem _) hnone
          hrequested, fun x hx _ => List.mem_append_left _ hx, rfl⟩

theorem updateUser_wp (userId : UserId) (f : F → F) (h : Sound v) :
    (updateUser userId f).wp (logic F) (fun r v' => (TierCall.updateUser userId f).Ends v (failed r) v')
      v := by
  unfold updateUser
  simp only [Proc.bind_eq]
  refine wp_read (fun db a db' hexec => by cases hexec; rfl) h (fun db found hdb hexec => ?_)
    fun _ => ends_refl _ v
  have huser : db.user userId = found := (Prod.mk.inj (Except.ok.inj hexec)).1
  cases found with
  | none => exact ⟨fun _ hx _ => hx, rfl⟩
  | some user =>
    have hthere : v.tier user.id = some user.kycTier := by
      rw [← hdb, TierDb.user_id huser]
      exact congrArg (Option.map UserEntity.kycTier) huser
    show Proc.wp _ _ (await _) _
    rw [← Proc.bind_return (await _)]
    refine wp_write h (fun db a db' hdb hexec => ?_) (fun _ => ⟨fun _ hx _ => hx, rfl⟩)
      fun _ => ends_refl _ v
    cases hexec
    rw [← hdb] at hthere
    obtain ⟨w, hw, -⟩ := Option.map_eq_some_iff.mp hthere
    rw [TierDb.tiers_saveUser (u := { user with others := f user.others }) _ hw, ← hdb]
    exact Tiers.setTier_self hthere

/-- **Every call.** -/
theorem prog_wp (k : TierCall F) (h : Sound v) :
    (prog k).wp (logic F) (fun r v' => k.Ends v (failed r) v') v := by
  -- the answer is passed on
  have hpasses : ∀ {β : Type} {p : TierProc F β} {answer : β → TierAnswer},
      p.wp (logic F) (fun r v' => k.Ends v (failed r) v') v →
      (p.bind fun b => .done (.ok (answer b))).wp (logic F) (fun r v' => k.Ends v (failed r) v') v := by
    intro β p answer hp
    rw [Proc.wp_bind]
    refine Proc.wp_mono (fun r v' hr => ?_) hp
    cases r <;> exact hr
  cases k with
  | requestUpgrade userId dto => exact hpasses (requestUpgrade_wp userId dto h)
  | approve id adminId => exact hpasses (approve_wp id adminId h)
  | reject id adminId reason => exact hpasses (reject_wp id adminId reason h)
  | updateUser userId f => exact hpasses (updateUser_wp userId f h)
  | tick ms =>
    refine wp_write h (fun db a db' hdb hexec => ?_) (fun _ => ⟨fun _ hx _ => hx, rfl⟩)
      fun _ => ends_refl _ v
    cases hexec
    exact hdb

end Programs

-- ---------------------------------------------------------------------------
-- Sequences of calls
-- ---------------------------------------------------------------------------

/-- The states that calls one after the other lead to; awaits may fail. -/
abbrev Sequence (db₀ db : TierDb F) : Prop :=
  Serial (surroundings F) (fun _ => prog) (fun _ _ _ => True) (fun _ _ _ _ _ => True) db₀ db

theorem sound_start {db₀ : TierDb F} (hupgrades : db₀.upgrades = []) (hdecisions : db₀.decisions = []) :
    Sound db₀.tiers := by
  have hup : db₀.tiers.upgrades = [] := hupgrades
  have hdec : db₀.tiers.decisions = [] := hdecisions
  refine ⟨?_, fun x => ?_, fun u hu => ?_, fun u hu => ?_, ?_⟩
  · rw [hup]
    exact List.nodup_nil
  · rw [hup]
    exact Nat.zero_le _
  · rw [hup] at hu
    cases hu
  · rw [hdec] at hu
    cases hu
  · rw [hdec]
    exact List.nodup_nil

section Calls

variable {db db' : TierDb F} {k : TierCall F} {r : Except TierErr TierAnswer}

/-- What one call from a sound state does. -/
theorem call_ends (h : Sound db.tiers)
    (hends : (prog k).Ends (surroundings F) (fun _ _ _ => True) db r db') :
    k.Ends db.tiers (failed r) db'.tiers :=
  hends.wp (L := logic F) rfl (fun _ _ hmoved => hmoved) (fun _ _ _ => trivial)
    (fun _ _ _ _ => trivial) (prog_wp k h)

theorem call_within (h : Sound db.tiers)
    (hends : (prog k).Ends (surroundings F) (fun _ _ _ => True) db r db') :
    (prog k).Ends (surroundings F) (fun _ _ x => True ∧ Sound x.tiers) db r db' ∧ Sound db'.tiers :=
  hends.within (L := logic F) rfl (fun _ _ hmoved => hmoved) (fun _ _ => trivial)
    (fun _ _ => trivial) (fun _ _ hframe => hframe) (prog_wp k h) h

end Calls

/-- No user's level falls. -/
theorem TierCall.Ends.level_le {k : TierCall F} {v v' : Tiers} {failed : Bool}
    (h : k.Ends v failed v') (userId : UserId) : v.level userId ≤ v'.level userId := by
  have hsame : v'.tier userId = v.tier userId → v.level userId ≤ v'.level userId := by
    intro heq
    unfold Tiers.level
    rw [heq]
  have htier := h.tier
  split at htier
  · exact hsame (congrFun htier userId)
  · cases k with
    | approve id adminId =>
      obtain ⟨u, -, -, -, hraised, hthere, hothers⟩ := htier
      by_cases hu : userId = u.userId
      · subst hu
        cases ht : v.tier u.userId with
        | some t => exact (hraised t ht).le
        | none =>
          rw [ht, Option.isSome_none] at hthere
          have hnone : v'.tier u.userId = none := by simpa using hthere.symm
          exact hsame (hnone.trans ht.symm)
      · exact hsame (hothers userId hu)
    | _ => exact hsame (congrFun htier userId)

/-- One call among the others. -/
structure TierCall.Rises (k : TierCall F) (db : TierDb F) (r : Except TierErr TierAnswer)
    (db' : TierDb F) : Prop where
  /-- At every await, every user has at most one pending request. -/
  during : (prog k).Ends (surroundings F) (fun _ _ x => ∀ userId, (x.pendingOf userId).length ≤ 1)
    db r db'
  /-- A request was pending that is approved, and the level of its user rises. -/
  approved : ∀ id adminId a, k = .approve id adminId → r = .ok a →
    ∃ u ∈ db.upgrades, u.id = id ∧ u.status = .pending ∧
      (∀ user, db.user u.userId = some user → ∃ user', db'.user u.userId = some user' ∧
        level user.currentTier < level user'.currentTier) ∧
      ∀ userId, userId ≠ u.userId →
        (db'.user userId).map UserEntity.kycTier = (db.user userId).map UserEntity.kycTier
  /-- Whatever fails, and whatever is no approval, leaves the tiers. -/
  unchanged : ((∀ id adminId, k ≠ .approve id adminId) ∨ ∃ e, r = .error e) →
    ∀ userId, (db'.user userId).map UserEntity.kycTier = (db.user userId).map UserEntity.kycTier
  /-- What is decided stays as it is. -/
  decided : ∀ u ∈ db.upgrades, u.status ≠ .pending → u ∈ db'.upgrades

/-- **Tiers only go up.** -/
theorem tiers_only_go_up {db₀ db : TierDb F} (hupgrades : db₀.upgrades = [])
    (hdecisions : db₀.decisions = []) (h : Sequence db₀ db) :
    (∀ userId, (db.pendingOf userId).length ≤ 1) ∧
    (∀ id, (db.decisions.filter fun d => d.id = id).length ≤ 1) ∧
    (∀ userId, db₀.tiers.level userId ≤ db.tiers.level userId) ∧
    ∀ k r db', (prog k).Ends (surroundings F) (fun _ _ _ => True) db r db' → k.Rises db r db' := by
  have hpending : ∀ {x : TierDb F}, Sound x.tiers → ∀ userId, (x.pendingOf userId).length ≤ 1 := by
    intro x hx userId
    refine le_trans (le_of_eq ?_) (hx.onePending userId)
    exact (List.countP_eq_length_filter ..).symm
  obtain ⟨hsound, hlevel⟩ : Sound db.tiers ∧ ∀ userId, db₀.tiers.level userId ≤ db.tiers.level userId := by
    refine h.invariant (I := fun db => Sound db.tiers ∧ ∀ x, db₀.tiers.level x ≤ db.tiers.level x)
      ⟨sound_start hupgrades hdecisions, fun _ => le_rfl⟩ (fun s s' hmoved hs => ?_)
      fun _ k s r s' _ hends hs => ?_
    · rw [show s'.tiers = s.tiers from hmoved]
      exact hs
    · exact ⟨(call_within hs.1 hends).2, fun x =>
        (hs.2 x).trans ((call_ends hs.1 hends).level_le x)⟩
  refine ⟨hpending hsound, fun id => ?_, hlevel, fun k r db' hends => ?_⟩
  · have hcount := List.nodup_iff_count_le_one.mp hsound.once id
    rw [List.count, List.countP_map] at hcount
    rw [← List.countP_eq_length_filter]
    exact hcount
  · have heffect := call_ends hsound hends
    refine ⟨?_, fun id adminId a hk hr => ?_, fun hnot x => ?_, heffect.final⟩
    · refine (call_within hsound hends).1.mono fun c f x hx => hpending hx.2
    · subst hk hr
      obtain ⟨u, hu, hid, hstatus, hraised, hthere, hothers⟩ := heffect.tier
      refine ⟨u, hu, hid, hstatus, fun user huser => ?_, hothers⟩
      have htier : db.tiers.tier u.userId = some user.kycTier :=
        congrArg (Option.map UserEntity.kycTier) huser
      rw [htier, Option.isSome_some] at hthere
      obtain ⟨t', ht'⟩ := Option.isSome_iff_exists.mp hthere.symm
      obtain ⟨user', huser', rfl⟩ := Option.map_eq_some_iff.mp ht'
      refine ⟨user', huser', ?_⟩
      have hrise := hraised _ htier
      unfold Tiers.level at hrise
      rw [htier, ht'] at hrise
      exact hrise
    · have htier := heffect.tier
      cases r with
      | error e => exact congrFun htier x
      | ok a =>
        rcases hnot with hnot | ⟨e, he⟩
        · cases k with
          | approve id adminId => exact absurd rfl (hnot id adminId)
          | _ => exact congrFun htier x
        · cases he

section Example

/-- A user of the first tier asks for the third, and it is granted. -/
def registered : TierDb Unit where
  users := [⟨1, some "BASIC", ()⟩]
  upgrades := []
  keyed := List.nodup_nil
  now := 5
  decisions := []
  changes := []

def asked : TierDb Unit :=
  ((prog (.requestUpgrade 1 ⟨"verified", none⟩)).run exec (fun _ => none) registered).2

def granted : TierDb Unit := ((prog (.approve 1 9)).run exec (fun _ => none) asked).2

theorem granted_reached : Sequence registered granted :=
  .call (.call .start 0 (.requestUpgrade 1 ⟨"verified", none⟩) trivial
    (Proc.ends_run (fun _ => Or.inl rfl) _ _)) 1 (.approve 1 9) trivial
    (Proc.ends_run (fun _ => Or.inl rfl) _ _)

theorem tiers_only_go_up_granted :
    (∀ userId, (granted.pendingOf userId).length ≤ 1) ∧
    (∀ id, (granted.decisions.filter fun d => d.id = id).length ≤ 1) ∧
    (∀ userId, registered.tiers.level userId ≤ granted.tiers.level userId) ∧
    (∀ k r db', (prog k).Ends (surroundings Unit) (fun _ _ _ => True) granted r db' →
      k.Rises granted r db') ∧
    granted.tiers.level 1 = 3 := by
  obtain ⟨hpending, honce, hlevel, hcalls⟩ := tiers_only_go_up rfl rfl granted_reached
  exact ⟨hpending, honce, hlevel, hcalls, by decide +kernel⟩

end Example

end KycTiers

end NexaFx

import NexaFx.Lib.Lru
import NexaFx.Model.RateCache

/-!
# NexaFx — the rate cache is a least-recently-used cache

The cache is `Lru.Spec` over pairs of upper-case codes: its `Map` has their
entries in the order of last use (`Refines`), and a step of the one is a step
of the other (`refines_step`). Two pairs of codes without `:` have one key only
if they are the same (`key_injective`).

Main result: `cache_is_lru`.
-/

namespace NexaFx

namespace RateCache

open Lru

variable (mapping : CaseMapping)

/-! ## Keys -/

/-- The upper case of a code is a code. -/
def upperCode (code : Code) : Code where
  text := ExchangeRatesCache.toUpperCase mapping code.text
  plain := by
    rw [ExchangeRatesCache.toUpperCase, String.toList_ofList, List.mem_flatMap]
    rintro ⟨ch, hmem, hcolon⟩
    exact code.plain (mapping.colon ch hcolon ▸ hmem)

/-- What a lookup is about. -/
abbrev Pair := Code × Code

def pair (fromCode toCode : Code) : Pair := (upperCode mapping fromCode, upperCode mapping toCode)

def key (p : Pair) : String := p.1.text ++ ":" ++ p.2.text

theorem buildKey_eq (fromCode toCode : Code) :
    ExchangeRatesCache.buildKey mapping fromCode.text toCode.text =
      key (pair mapping fromCode toCode) := rfl

theorem key_injective : Function.Injective key := by
  rintro ⟨⟨a, ha⟩, ⟨b, hb⟩⟩ ⟨⟨c, hc⟩, ⟨d, hd⟩⟩ h
  have htext := congrArg String.toList h
  simp only [key, String.toList_append] at htext
  rw [show ":".toList = [':'] from rfl, List.append_assoc, List.append_assoc,
    List.singleton_append, List.singleton_append, List.append_cons_inj_of_notMem ha hb] at htext
  obtain ⟨hac, -, hbd⟩ := htext
  obtain rfl := String.toList_inj.mp hac
  obtain rfl := String.toList_inj.mp hbd
  rfl

/-! ## Refinement -/

/-- Too old to be answered. -/
def Expired (ttlMs : ℚ) (now : Time) (entry : CachedRate) : Prop :=
  ttlMs < (now : ℚ) - entry.cachedAt

theorem expired_mono (ttlMs : ℚ) (t t' : Time) (entry : CachedRate) (hle : t ≤ t')
    (h : Expired ttlMs t entry) : Expired ttlMs t' entry := by
  have hcast : (t : ℚ) ≤ t' := Nat.cast_le.mpr hle
  unfold Expired at h ⊢
  linarith

def RateOp.toLru (now : Time) : RateOp → Op Pair CachedRate
  | .get fromCode toCode => .get (pair mapping fromCode toCode)
  | .set fromCode toCode rate =>
    .set (pair mapping fromCode toCode) ⟨fromCode.text, toCode.text, rate, now⟩
  | .invalidate fromCode toCode => .invalidate (pair mapping fromCode toCode)
  | .clear => .clear

/-- The operations on the specification. -/
def lruEvents (events : List (Time × RateOp)) : List (Time × Op Pair CachedRate) :=
  events.map fun event => (event.1, event.2.toLru mapping event.1)

theorem lruEvents_cons (now : Time) (op : RateOp) (events : List (Time × RateOp)) :
    lruEvents mapping ((now, op) :: events) =
      (now, op.toLru mapping now) :: lruEvents mapping events := rfl

/-- The `Map` has the entries of the specification, in the order of last use. -/
structure Refines (maxSize : ℕ) (ttlMs : ℚ) (c : ExchangeRatesCache) (s : Spec Pair CachedRate) :
    Prop where
  limit : c.maxSize = maxSize
  ttl : c.ttlMs = ttlMs
  entries : ∃ t, c.cache = rename key t ∧ Ordered t s
  bounded : c.size ≤ maxSize

namespace Refines

variable {maxSize : ℕ} {ttlMs : ℚ} {c : ExchangeRatesCache} {s : Spec Pair CachedRate}

theorem find (h : Refines maxSize ttlMs c s) (p : Pair) : c.find (key p) = s.held p := by
  obtain ⟨t, ht, hord⟩ := h.entries
  rw [ExchangeRatesCache.find, ht, get_rename key_injective, hord.held]

theorem size (h : Refines maxSize ttlMs c s) : c.size = s.size := by
  obtain ⟨t, ht, hord⟩ := h.entries
  rw [ExchangeRatesCache.size, ht, hord.size, rename, List.length_map]

theorem delete (h : Refines maxSize ttlMs c s) (p : Pair) :
    Refines maxSize ttlMs (c.delete (key p)) (s.drop p) where
  limit := h.limit
  ttl := h.ttl
  entries := by
    obtain ⟨t, ht, hord⟩ := h.entries
    refine ⟨erase p t, ?_, hord.drop p⟩
    rw [← erase_rename key_injective, ← ht]
    rfl
  bounded := (List.length_filter_le _ _).trans h.bounded

/-- A key that is not there is written, where there is room for it. -/
theorem put (h : Refines maxSize ttlMs c s) {p : Pair} (hp : s.held p = none)
    (hroom : c.size < maxSize) (entry : CachedRate) :
    Refines maxSize ttlMs (c.put (key p) entry) (s.use p entry) := by
  have hput : (c.put (key p) entry).cache = c.cache ++ [(key p, entry)] := by
    have hfind := h.find p
    rw [hp, ExchangeRatesCache.find, Option.map_eq_none_iff] at hfind
    exact Table.put_of_get_none Prod.fst hfind
  refine ⟨h.limit, h.ttl, ?_, ?_⟩
  · obtain ⟨t, ht, hord⟩ := h.entries
    have hget := hord.held p
    rw [hp, Option.map_eq_none_iff] at hget
    have huse := hord.use p entry
    rw [erase_eq_self hget] at huse
    refine ⟨t ++ [(p, entry)], ?_, huse⟩
    rw [hput, ht, rename, rename, List.map_append]
    rfl
  · rw [ExchangeRatesCache.size, hput, List.length_append]
    exact hroom

/-- A full cache loses the entry that was last used before all others. -/
theorem makeRoom (h : Refines maxSize ttlMs c s) (hsize : 1 ≤ maxSize) (hfull : maxSize ≤ c.size) :
    Refines maxSize ttlMs c.makeRoom s.evict ∧ c.makeRoom.size < maxSize := by
  obtain ⟨t, ht, hord⟩ := h.entries
  have hlen : c.size = t.length := by
    rw [ExchangeRatesCache.size, ht, rename, List.length_map]
  cases t with
  | nil =>
    rw [List.length_nil] at hlen
    omega
  | cons e t =>
    have hroom : c.makeRoom = c.delete (key e.1) := by
      rw [ExchangeRatesCache.makeRoom, h.limit, if_pos hfull, ht]
      rfl
    have htail : (c.delete (key e.1)).cache = rename key t := by
      show erase (key e.1) c.cache = _
      rw [ht, erase_rename key_injective, erase, List.filter_cons_of_neg (by simp)]
      congr 1
      rw [List.filter_eq_self]
      intro e' he'
      refine decide_eq_true fun hkey => ?_
      have hnotMem := (List.nodup_cons.mp hord.keys).1
      exact hnotMem (List.mem_map.mpr ⟨e', he', hkey⟩)
    have hlt : (c.delete (key e.1)).size < maxSize := by
      have hbound := h.bounded
      rw [hlen, List.length_cons] at hbound
      rw [ExchangeRatesCache.size, htail, rename, List.length_map]
      omega
    rw [hroom]
    exact ⟨⟨h.limit, h.ttl, ⟨t, htail, hord.evict⟩, hlt.le⟩, hlt⟩

/-- A key that is deleted leaves room for itself. -/
theorem room_delete (h : Refines maxSize ttlMs c s) {p : Pair} (hp : s.held p ≠ none) :
    (c.delete (key p)).size < maxSize := by
  refine lt_of_lt_of_le ?_ h.bounded
  rw [← h.find, ExchangeRatesCache.find, Ne, Option.map_eq_none_iff] at hp
  obtain ⟨e, he⟩ := Option.ne_none_iff_exists'.mp hp
  refine List.length_filter_lt_length_iff_exists.mpr ⟨e, Table.mem_of_get _ he, ?_⟩
  simp [Table.key_of_get _ he]

theorem clear (h : Refines maxSize ttlMs c s) : Refines maxSize ttlMs c.clear s.clear where
  limit := h.limit
  ttl := h.ttl
  entries := by
    obtain ⟨t, ht, hord⟩ := h.entries
    exact ⟨[], rfl, hord.clear⟩
  bounded := Nat.zero_le _

/-- A `get`: where it hits, the key is used. -/
theorem get (h : Refines maxSize ttlMs c s) (now : Time) (fromCode toCode : Code) :
    (c.get mapping now fromCode.text toCode.text).1 =
        (s.step maxSize (Expired ttlMs now) (.get (pair mapping fromCode toCode))).1 ∧
      Refines maxSize ttlMs (c.get mapping now fromCode.text toCode.text).2
        (s.step maxSize (Expired ttlMs now) (.get (pair mapping fromCode toCode))).2 := by
  simp only [ExchangeRatesCache.get, buildKey_eq, h.find, Spec.step, h.ttl]
  cases hheld : s.held (pair mapping fromCode toCode) with
  | none => exact ⟨rfl, h⟩
  | some entry =>
    by_cases hold : Expired ttlMs now entry
    · simp only [if_pos hold, if_pos (show ttlMs < (now : ℚ) - entry.cachedAt from hold)]
      exact ⟨trivial, h.delete _⟩
    · simp only [if_neg hold, if_neg (show ¬ ttlMs < (now : ℚ) - entry.cachedAt from hold)]
      refine ⟨trivial, ?_⟩
      have hroom := h.room_delete (hheld ▸ Option.some_ne_none entry)
      have hput := (h.delete _).put (s.drop_held _) hroom entry
      rwa [Spec.use_drop] at hput

/-- A `set`: an entry is evicted where the pair is new and the cache is full. -/
theorem set (h : Refines maxSize ttlMs c s) (hsize : 1 ≤ maxSize) (now : Time)
    (fromCode toCode : Code) (rate : ℚ) :
    Refines maxSize ttlMs (c.set mapping now fromCode.text toCode.text rate)
      (s.step maxSize (Expired ttlMs now)
        (.set (pair mapping fromCode toCode) ⟨fromCode.text, toCode.text, rate, now⟩)).2 := by
  simp only [ExchangeRatesCache.set, buildKey_eq, Spec.step]
  generalize pair mapping fromCode toCode = p
  by_cases hp : s.held p = none
  · have hsame : c.delete (key p) = c := by
      have hfind := h.find p
      rw [hp, ExchangeRatesCache.find, Option.map_eq_none_iff] at hfind
      have hcache : (c.delete (key p)).cache = c.cache := erase_eq_self hfind
      cases c
      simpa [ExchangeRatesCache.delete] using hcache
    rw [hsame]
    by_cases hfull : maxSize ≤ s.size
    · rw [if_pos ⟨hp, hfull⟩]
      obtain ⟨hroom, hlt⟩ := h.makeRoom hsize (h.size ▸ hfull)
      refine hroom.put ?_ hlt _
      simp only [Spec.evict, hp, ite_self]
    · rw [if_neg fun hboth => hfull hboth.2]
      have hlt : c.size < maxSize := by
        rw [h.size]
        omega
      rw [ExchangeRatesCache.makeRoom, h.limit, if_neg (by omega)]
      exact h.put hp hlt _
  · rw [if_neg fun hboth => hp hboth.1]
    have hroom := h.room_delete hp
    rw [ExchangeRatesCache.makeRoom, if_neg (by rw [(h.delete p).limit]; omega)]
    have hput := (h.delete p).put (s.drop_held p) hroom
      ⟨fromCode.text, toCode.text, rate, now⟩
    rwa [Spec.use_drop] at hput

end Refines

/-- A step of the cache is a step of the specification. -/
theorem refines_step {maxSize : ℕ} {ttlMs : ℚ} {c : ExchangeRatesCache}
    {s : Spec Pair CachedRate} (h : Refines maxSize ttlMs c s) (hsize : 1 ≤ maxSize) (now : Time)
    (op : RateOp) :
    (c.step mapping now op).1 =
        (s.step maxSize (Expired ttlMs now) (op.toLru mapping now)).1 ∧
      Refines maxSize ttlMs (c.step mapping now op).2
        (s.step maxSize (Expired ttlMs now) (op.toLru mapping now)).2 := by
  cases op with
  | get fromCode toCode => exact h.get mapping now fromCode toCode
  | set fromCode toCode rate => exact ⟨rfl, h.set mapping hsize now fromCode toCode rate⟩
  | invalidate fromCode toCode => exact ⟨rfl, h.delete (pair mapping fromCode toCode)⟩
  | clear => exact ⟨rfl, h.clear⟩

theorem refines_run {maxSize : ℕ} {ttlMs : ℚ} {c : ExchangeRatesCache}
    {s : Spec Pair CachedRate} (h : Refines maxSize ttlMs c s) (hsize : 1 ≤ maxSize)
    (events : List (Time × RateOp)) :
    (c.run mapping events).1 =
        (s.run maxSize (Expired ttlMs) (lruEvents mapping events)).1 ∧
      Refines maxSize ttlMs (c.run mapping events).2
        (s.run maxSize (Expired ttlMs) (lruEvents mapping events)).2 := by
  induction events generalizing c s with
  | nil => exact ⟨rfl, h⟩
  | cons event events ih =>
    obtain ⟨now, op⟩ := event
    obtain ⟨hanswer, hstep⟩ := refines_step mapping h hsize now op
    obtain ⟨hanswers, hrest⟩ := ih hstep
    rw [ExchangeRatesCache.run_cons, lruEvents_cons, Spec.run_cons]
    exact ⟨by rw [hanswer, hanswers], hrest⟩

theorem refines_create (maxSize : ℕ) (ttlMs : ℚ) :
    Refines maxSize ttlMs (.create maxSize ttlMs) Spec.empty where
  limit := rfl
  ttl := rfl
  entries := ⟨[], rfl, Ordered.empty⟩
  bounded := Nat.zero_le _

/-! ## The cache -/

/-- After the operations `pre`, none of `post` sets the pair, invalidates it,
clears the cache or evicts the pair. -/
def Kept (maxSize : ℕ) (ttlMs : ℚ) (pre post : List (Time × RateOp)) (p : Pair) : Prop :=
  (Spec.empty.run maxSize (Expired ttlMs) (lruEvents mapping pre)).2.Kept maxSize
    (Expired ttlMs) p (lruEvents mapping post)

theorem toLru_set {now : Time} {op : RateOp} {p : Pair} {entry : CachedRate} :
    op.toLru mapping now = .set p entry ↔ ∃ fromCode toCode rate,
      op = .set fromCode toCode rate ∧ pair mapping fromCode toCode = p ∧
        entry = ⟨fromCode.text, toCode.text, rate, now⟩ := by
  constructor
  · intro h
    cases op with
    | get fromCode toCode => cases h
    | set fromCode toCode rate =>
      obtain ⟨hpair, hentry⟩ := Op.set.inj h
      exact ⟨fromCode, toCode, rate, rfl, hpair, hentry.symm⟩
    | invalidate fromCode toCode => cases h
    | clear => cases h
  · rintro ⟨fromCode, toCode, rate, rfl, rfl, rfl⟩
    rfl

/-- A pair that was set on the specification was set on the cache. -/
theorem lruEvents_split {events : List (Time × RateOp)} {pre post : List (Time × Op Pair CachedRate)}
    {t : Time} {p : Pair} {entry : CachedRate}
    (h : lruEvents mapping events = pre ++ (t, .set p entry) :: post) :
    ∃ pre' fromCode toCode rate post',
      events = pre' ++ (t, .set fromCode toCode rate) :: post' ∧
        pair mapping fromCode toCode = p ∧ entry = ⟨fromCode.text, toCode.text, rate, t⟩ ∧
        pre = lruEvents mapping pre' ∧ post = lruEvents mapping post' := by
  obtain ⟨pre', rest, rfl, hpre, hrest⟩ := List.map_eq_append_iff.mp h
  obtain ⟨⟨t', op⟩, post', rfl, hop, hpost⟩ := List.map_eq_cons_iff.mp hrest
  obtain ⟨rfl, hset⟩ := Prod.mk.inj hop
  obtain ⟨fromCode, toCode, rate, rfl, hpair, hentry⟩ := (toLru_set mapping).mp hset
  exact ⟨pre', fromCode, toCode, rate, post', rfl, hpair, hentry, hpre.symm, hpost.symm⟩

/-- What a `get` answers after the operations. -/
theorem get_iff {maxSize : ℕ} (hsize : 1 ≤ maxSize) (ttlMs : ℚ) (events : List (Time × RateOp))
    {now : Time} (hnow : ∀ event ∈ events, event.1 ≤ now) (fromCode toCode : Code)
    (entry : CachedRate) :
    ((((ExchangeRatesCache.create maxSize ttlMs).run mapping events).2.get mapping now
        fromCode.text toCode.text).1 = some entry) ↔
      ¬ Expired ttlMs now entry ∧ ∃ pre t fromCode' toCode' rate post,
        events = pre ++ (t, .set fromCode' toCode' rate) :: post ∧
        pair mapping fromCode' toCode' = pair mapping fromCode toCode ∧
        entry = ⟨fromCode'.text, toCode'.text, rate, t⟩ ∧
        Kept mapping maxSize ttlMs (pre ++ [(t, .set fromCode' toCode' rate)]) post
          (pair mapping fromCode toCode) := by
  obtain ⟨-, hrun⟩ := refines_run mapping (refines_create maxSize ttlMs) hsize events
  have hlru : ∀ event ∈ lruEvents mapping events, event.1 ≤ now := by
    intro event hevent
    obtain ⟨event', hmem, rfl⟩ := List.mem_map.mp hevent
    exact hnow event' hmem
  rw [(hrun.get mapping now fromCode toCode).1,
    Spec.answer_iff (expired_mono ttlMs) _ hlru (pair mapping fromCode toCode) entry]
  refine and_congr_right fun _ => ?_
  constructor
  · rintro ⟨pre, t, post, hsplit, hkept⟩
    obtain ⟨pre', fromCode', toCode', rate, post', rfl, hpair, hentry, rfl, rfl⟩ :=
      lruEvents_split mapping hsplit
    refine ⟨pre', t, fromCode', toCode', rate, post', rfl, hpair, hentry, ?_⟩
    rw [Kept, lruEvents, List.map_append]
    rw [← hpair, hentry] at hkept
    rw [← hpair]
    exact hkept
  · rintro ⟨pre, t, fromCode', toCode', rate, post, rfl, hpair, rfl, hkept⟩
    refine ⟨lruEvents mapping pre, t, lruEvents mapping post, ?_, ?_⟩
    · rw [lruEvents, List.map_append, List.map_cons, ← hpair]
      rfl
    · rw [Kept, lruEvents, List.map_append, ← hpair] at hkept
      rw [← hpair]
      exact hkept

/-- What a `set` of a new pair makes of a full cache. -/
theorem set_evicts {maxSize : ℕ} {ttlMs : ℚ} {c : ExchangeRatesCache} {s : Spec Pair CachedRate}
    (h : Refines maxSize ttlMs c s) (hsize : 1 ≤ maxSize) (now : Time) (fromCode toCode : Code)
    (rate : ℚ) (hnew : c.find (key (pair mapping fromCode toCode)) = none)
    (hfull : c.size = maxSize) :
    ∃ victim, (c.find (key victim)).isSome ∧
      (∀ p, (c.find (key p)).isSome → p ≠ victim → s.lastUse victim < s.lastUse p) ∧
      ∀ p, (c.set mapping now fromCode.text toCode.text rate).find (key p) =
        if p = pair mapping fromCode toCode then some ⟨fromCode.text, toCode.text, rate, now⟩
        else if p = victim then none else c.find (key p) := by
  obtain ⟨t, ht, hord⟩ := h.entries
  cases t with
  | nil =>
    rw [ExchangeRatesCache.size, ht] at hfull
    rw [rename, List.map_nil, List.length_nil] at hfull
    omega
  | cons e t =>
    refine ⟨e.1, ?_, ?_, ?_⟩
    · rw [h.find]
      exact (hord.isSome_held _).mpr (by simp)
    · intro p hp hne
      rw [h.find] at hp
      exact hord.lastUse_head hp hne
    · intro p
      rw [h.find] at hnew
      rw [(h.set mapping hsize now fromCode toCode rate).find, h.find]
      simp only [Spec.step, Spec.use, hnew, ← h.size, hfull, le_refl, and_self, if_true,
        Spec.evict, hord.oldest]

/-- **The rate cache.** It answers every operation as the least-recently-used
cache of `maxSize` pairs does and never has more entries. A `get` answers with
what was last set for the pair, unless that is older than `ttlMs`, or was
invalidated, cleared or evicted since; a `set` of a new pair evicts from a full
cache the one pair whose last use is the oldest. -/
theorem cache_is_lru (maxSize : ℕ) (hsize : 1 ≤ maxSize) (ttlMs : ℚ)
    (events : List (Time × RateOp)) :
    let cache := (ExchangeRatesCache.create maxSize ttlMs).run mapping events
    let lru := Spec.empty.run maxSize (Expired ttlMs) (lruEvents mapping events)
    cache.1 = lru.1 ∧ cache.2.size ≤ maxSize ∧
      (∀ now fromCode toCode entry, (∀ event ∈ events, event.1 ≤ now) →
        ((cache.2.get mapping now fromCode.text toCode.text).1 = some entry ↔
          ¬ Expired ttlMs now entry ∧ ∃ pre t fromCode' toCode' rate post,
            events = pre ++ (t, .set fromCode' toCode' rate) :: post ∧
            pair mapping fromCode' toCode' = pair mapping fromCode toCode ∧
            entry = ⟨fromCode'.text, toCode'.text, rate, t⟩ ∧
            Kept mapping maxSize ttlMs (pre ++ [(t, .set fromCode' toCode' rate)]) post
              (pair mapping fromCode toCode))) ∧
      ∀ now fromCode toCode rate, cache.2.find (key (pair mapping fromCode toCode)) = none →
        cache.2.size = maxSize →
        ∃ victim, (cache.2.find (key victim)).isSome ∧
          (∀ p, (cache.2.find (key p)).isSome → p ≠ victim →
            lru.2.lastUse victim < lru.2.lastUse p) ∧
          ∀ p, (cache.2.set mapping now fromCode.text toCode.text rate).find (key p) =
            if p = pair mapping fromCode toCode then
              some ⟨fromCode.text, toCode.text, rate, now⟩
            else if p = victim then none else cache.2.find (key p) := by
  intro cache lru
  obtain ⟨hanswers, hrun⟩ := refines_run mapping (refines_create maxSize ttlMs) hsize events
  refine ⟨hanswers, hrun.bounded, ?_, ?_⟩
  · intro now fromCode toCode entry hnow
    exact get_iff mapping hsize ttlMs events hnow fromCode toCode entry
  · intro now fromCode toCode rate hnew hfull
    exact set_evicts mapping hrun hsize now fromCode toCode rate hnew hfull

def usd : Code := ⟨"USD", by decide⟩
def usdLower : Code := ⟨"usd", by decide⟩
def eur : Code := ⟨"EUR", by decide⟩
def gbp : Code := ⟨"GBP", by decide⟩

/-- A cache of one pair: the second one set evicts the first. -/
def twoPairs : List (Time × RateOp) :=
  [(0, .set usd eur 2), (1, .get usdLower eur), (2, .set usd gbp 3), (3, .get usd eur)]

theorem cache_is_lru_two :
    ((ExchangeRatesCache.create 1 1000).run .ascii twoPairs).1 =
        [none, some ⟨"USD", "EUR", 2, 0⟩, none, none] ∧
      ((ExchangeRatesCache.create 1 1000).run .ascii twoPairs).1 =
        (Spec.empty.run 1 (Expired 1000) (lruEvents .ascii twoPairs)).1 :=
  ⟨by decide +kernel, (cache_is_lru .ascii 1 le_rfl 1000 twoPairs).1⟩

end RateCache

end NexaFx

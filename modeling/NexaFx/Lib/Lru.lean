import Mathlib.Data.Set.Card
import NexaFx.Lib.Table

/-!
# Least recently used

A bounded cache that forgets the entry whose last use is the oldest. The
specification (`Spec`) has no order at all: it holds a partial function and the
number of each key's last use. `Ordered` says that a list is such a cache, kept
in the order of last use, and the lemmas about it say what its operations are
on the list: a use moves the key to the end (`Ordered.use`), the head is the
one to forget (`Ordered.evict`).

`Spec.answer_iff` is the other side: what a lookup finds, in terms of what was
done to the cache before.
-/

namespace Lru

variable {κ α : Type}

inductive Op (κ α : Type) where
  | get (k : κ)
  | set (k : κ) (v : α)
  | invalidate (k : κ)
  | clear

/-- A cache, as the keys it holds and when each was last used. -/
structure Spec (κ α : Type) where
  held : κ → Option α
  /-- The number of the last use of the key. -/
  lastUse : κ → ℕ
  /-- The uses so far. -/
  uses : ℕ

namespace Spec

def empty : Spec κ α := ⟨fun _ => none, fun _ => 0, 0⟩

noncomputable def size (s : Spec κ α) : ℕ := Set.ncard {k | (s.held k).isSome}

/-- No other entry was last used before this one. -/
def Oldest (s : Spec κ α) (k : κ) : Prop :=
  (s.held k).isSome ∧ ∀ j, (s.held j).isSome → s.lastUse k ≤ s.lastUse j

open Classical in
noncomputable def evict (s : Spec κ α) : Spec κ α :=
  { s with held := fun k => if s.Oldest k then none else s.held k }

def clear (s : Spec κ α) : Spec κ α := { s with held := fun _ => none }

variable [DecidableEq κ]

def drop (s : Spec κ α) (k : κ) : Spec κ α :=
  { s with held := fun j => if j = k then none else s.held j }

/-- `k` is used, and holds `v` from then on. -/
def use (s : Spec κ α) (k : κ) (v : α) : Spec κ α where
  held := fun j => if j = k then some v else s.held j
  lastUse := fun j => if j = k then s.uses + 1 else s.lastUse j
  uses := s.uses + 1

theorem drop_held (s : Spec κ α) (k : κ) : (s.drop k).held k = none := if_pos rfl

theorem use_drop (s : Spec κ α) (k : κ) (v : α) : (s.drop k).use k v = s.use k v := by
  unfold use drop
  congr 1
  funext j
  by_cases hj : j = k <;> simp [hj]

open Classical in
/-- One operation on a cache of at most `cap` entries: what it answers, and the
cache after it. -/
noncomputable def step (cap : ℕ) (expired : α → Prop) (s : Spec κ α) :
    Op κ α → Option α × Spec κ α
  | .get k =>
    match s.held k with
    | none => (none, s)
    | some v => if expired v then (none, s.drop k) else (some v, s.use k v)
  | .set k v => (none, (if s.held k = none ∧ cap ≤ s.size then s.evict else s).use k v)
  | .invalidate k => (none, s.drop k)
  | .clear => (none, s.clear)

/-- The operations with the time of each, in this order. -/
noncomputable def run (cap : ℕ) (expired : ℕ → α → Prop) (s : Spec κ α) :
    List (ℕ × Op κ α) → List (Option α) × Spec κ α
  | [] => ([], s)
  | (t, op) :: events =>
    let (answer, s') := s.step cap (expired t) op
    let (answers, s'') := s'.run cap expired events
    (answer :: answers, s'')

/-- The operation takes the entry of `k` away, or writes another one over it. -/
def Removes (cap : ℕ) (s : Spec κ α) (k : κ) : Op κ α → Prop
  | .get _ => False
  | .set j _ => j = k ∨ (s.held j = none ∧ cap ≤ s.size ∧ s.Oldest k)
  | .invalidate j => j = k
  | .clear => True

/-- None of the operations does. -/
def Kept (cap : ℕ) (expired : ℕ → α → Prop) (k : κ) : Spec κ α → List (ℕ × Op κ α) → Prop
  | _, [] => True
  | s, (t, op) :: events =>
    ¬ s.Removes cap k op ∧ (s.step cap (expired t) op).2.Kept cap expired k events

-- ---------------------------------------------------------------------------
-- What a lookup finds
-- ---------------------------------------------------------------------------

section Lookup

variable {cap : ℕ} {expired : ℕ → α → Prop}

theorem run_cons (s : Spec κ α) (t : ℕ) (op : Op κ α) (events : List (ℕ × Op κ α)) :
    s.run cap expired ((t, op) :: events) =
      ((s.step cap (expired t) op).1 :: ((s.step cap (expired t) op).2.run cap expired events).1,
        ((s.step cap (expired t) op).2.run cap expired events).2) := rfl

theorem run_append (s : Spec κ α) (events events' : List (ℕ × Op κ α)) :
    s.run cap expired (events ++ events') =
      ((s.run cap expired events).1 ++ ((s.run cap expired events).2.run cap expired events').1,
        ((s.run cap expired events).2.run cap expired events').2) := by
  induction events generalizing s with
  | nil => rfl
  | cons event events ih =>
    obtain ⟨t, op⟩ := event
    simp only [List.cons_append, run_cons, ih]

theorem answer_get (s : Spec κ α) (expired : α → Prop) (k : κ) (v : α) :
    (s.step cap expired (.get k)).1 = some v ↔ s.held k = some v ∧ ¬ expired v := by
  cases hheld : s.held k with
  | none => simp [step, hheld]
  | some w =>
    by_cases hexp : expired w
    · simp only [step, hheld, if_pos hexp, reduceCtorEq, false_iff]
      rintro ⟨h, hfresh⟩
      cases h
      exact hfresh hexp
    · simp only [step, hheld, if_neg hexp, Option.some.injEq]
      constructor
      · rintro rfl
        exact ⟨rfl, hexp⟩
      · exact fun h => h.1

/-- What the cache holds after a step: what was set in it, or what it held and
was neither removed nor found to be expired. -/
theorem held_step (s : Spec κ α) (expired : α → Prop) (op : Op κ α) (k : κ) (v : α) :
    (s.step cap expired op).2.held k = some v ↔
      op = .set k v ∨
        (s.held k = some v ∧ ¬ s.Removes cap k op ∧ (op = .get k → ¬ expired v)) := by
  cases op with
  | get j =>
    simp only [step, Removes, reduceCtorEq, false_or, not_false_eq_true, true_and, Op.get.injEq]
    cases hj : s.held j with
    | none =>
      constructor
      · exact fun h => ⟨h, fun hjk => by rw [hjk, h] at hj; cases hj⟩
      · exact fun h => h.1
    | some w =>
      by_cases hexp : expired w
      · simp only [if_pos hexp, drop]
        by_cases hk : k = j
        · subst hk
          simp only [if_true, reduceCtorEq, false_iff]
          rintro ⟨h, hfresh⟩
          rw [hj] at h
          cases h
          exact hfresh trivial hexp
        · rw [if_neg hk]
          exact ⟨fun h => ⟨h, fun hjk => absurd hjk.symm hk⟩, fun h => h.1⟩
      · simp only [if_neg hexp, use]
        by_cases hk : k = j
        · subst hk
          rw [if_pos rfl, hj]
          refine ⟨fun h => ⟨h, ?_⟩, fun h => h.1⟩
          cases h
          exact fun _ => hexp
        · rw [if_neg hk]
          exact ⟨fun h => ⟨h, fun hjk => absurd hjk.symm hk⟩, fun h => h.1⟩
  | set j w =>
    simp only [step, Removes, use, Op.set.injEq, reduceCtorEq, false_implies, and_true]
    by_cases hk : k = j
    · subst hk
      simp
    · have hjk : ¬ j = k := fun h => hk h.symm
      simp only [if_neg hk, hjk, false_and, false_or]
      split
      · rename_i hfull
        simp only [evict, hfull, true_and]
        split
        · rename_i hold
          simp [hold]
        · rename_i hold
          simp [hold]
      · rename_i hroom
        have hstays : ¬ (s.held j = none ∧ cap ≤ s.size ∧ s.Oldest k) := fun h =>
          hroom ⟨h.1, h.2.1⟩
        simp [hstays]
  | invalidate j =>
    simp only [step, Removes, drop, reduceCtorEq, false_or, false_implies, and_true]
    by_cases hk : k = j
    · simp [hk]
    · have hjk : ¬ j = k := fun h => hk h.symm
      simp [hk, hjk]
  | clear => simp [step, Removes, clear]

/-- What the cache holds and still answers with was in it and was kept, or was
set since and kept. -/
theorem held_run (hmono : ∀ t t' v, t ≤ t' → expired t v → expired t' v) (s : Spec κ α)
    (events : List (ℕ × Op κ α)) {now : ℕ} (hnow : ∀ event ∈ events, event.1 ≤ now)
    {k : κ} {v : α} (hfresh : ¬ expired now v) :
    (s.run cap expired events).2.held k = some v ↔
      (s.held k = some v ∧ s.Kept cap expired k events) ∨
        ∃ pre t post, events = pre ++ (t, .set k v) :: post ∧
          (s.run cap expired (pre ++ [(t, .set k v)])).2.Kept cap expired k post := by
  induction events generalizing s with
  | nil => simp [run, Kept]
  | cons event events ih =>
    obtain ⟨t, op⟩ := event
    have ht : t ≤ now := hnow _ (List.mem_cons_self ..)
    have hstill : ¬ expired t v := fun hexp => hfresh (hmono t now v ht hexp)
    have hrest := ih (s.step cap (expired t) op).2
      fun event hevent => hnow event (List.mem_cons_of_mem _ hevent)
    rw [run_cons, hrest, held_step]
    constructor
    · rintro (⟨rfl | ⟨hheld, hstays, -⟩, hkept⟩ | ⟨pre, t', post, rfl, hkept⟩)
      · exact Or.inr ⟨[], t, events, rfl, hkept⟩
      · exact Or.inl ⟨hheld, hstays, hkept⟩
      · exact Or.inr ⟨(t, op) :: pre, t', post, rfl, hkept⟩
    · rintro (⟨hheld, hstays, hkept⟩ | ⟨pre, t', post, hsplit, hkept⟩)
      · exact Or.inl ⟨Or.inr ⟨hheld, hstays, fun _ => hstill⟩, hkept⟩
      · cases pre with
        | nil =>
          obtain ⟨hhead, rfl⟩ := List.cons.inj hsplit
          cases hhead
          exact Or.inl ⟨Or.inl rfl, hkept⟩
        | cons first pre =>
          obtain ⟨rfl, rfl⟩ := List.cons.inj hsplit
          exact Or.inr ⟨pre, t', post, rfl, hkept⟩

/-- **What a lookup answers.** The value last set, unless it is expired by now
or has been removed since. -/
theorem answer_iff (hmono : ∀ t t' v, t ≤ t' → expired t v → expired t' v)
    (events : List (ℕ × Op κ α)) {now : ℕ} (hnow : ∀ event ∈ events, event.1 ≤ now)
    (k : κ) (v : α) :
    (((empty.run cap expired events).2).step cap (expired now) (.get k)).1 = some v ↔
      ¬ expired now v ∧ ∃ pre t post, events = pre ++ (t, .set k v) :: post ∧
        (empty.run cap expired (pre ++ [(t, .set k v)])).2.Kept cap expired k post := by
  rw [answer_get, and_comm]
  refine and_congr_right fun hfresh => ?_
  rw [held_run hmono empty events hnow hfresh]
  constructor
  · rintro (⟨hheld, -⟩ | hset)
    · cases hheld
    · exact hset
  · exact Or.inr

end Lookup

end Spec

-- ---------------------------------------------------------------------------
-- A list in the order of last use
-- ---------------------------------------------------------------------------

variable [DecidableEq κ]

/-- The list has the entries of the cache, the one used last at its end. -/
structure Ordered (t : List (κ × α)) (s : Spec κ α) : Prop where
  keys : (t.map Prod.fst).Nodup
  held : ∀ k, (Table.get Prod.fst t k).map Prod.snd = s.held k
  order : t.Pairwise fun a b => s.lastUse a.1 < s.lastUse b.1
  past : ∀ k, s.lastUse k ≤ s.uses

/-- The list without the key. -/
def erase (k : κ) (t : List (κ × α)) : List (κ × α) := t.filter fun e => decide (e.1 ≠ k)

theorem get_erase (t : List (κ × α)) (k j : κ) :
    Table.get Prod.fst (erase k t) j = if j = k then none else Table.get Prod.fst t j := by
  have h := Table.get_filter_key Prod.fst t (fun j => decide (j ≠ k)) j
  by_cases hj : j = k
  · rw [if_pos hj]
    simpa [erase, hj] using h
  · rw [if_neg hj]
    simpa [erase, hj] using h

theorem erase_eq_self {t : List (κ × α)} {k : κ} (h : Table.get Prod.fst t k = none) :
    erase k t = t := by
  rw [Table.get_eq_none] at h
  rw [erase, List.filter_eq_self]
  exact fun e he => decide_eq_true (h e he)

/-- A key that is put back goes to the end. -/
theorem put_erase (t : List (κ × α)) (k : κ) (v : α) :
    Table.put Prod.fst (k, v) (erase k t) = erase k t ++ [(k, v)] := by
  rw [Table.put_of_get_none]
  rw [get_erase, if_pos rfl]

section Rename

variable {ι : Type} [DecidableEq ι] {f : κ → ι} (hf : Function.Injective f)

/-- The list under other names for the keys. -/
def rename (f : κ → ι) (t : List (κ × α)) : List (ι × α) := t.map fun e => (f e.1, e.2)

include hf

theorem get_rename (t : List (κ × α)) (k : κ) :
    (Table.get Prod.fst (rename f t) (f k)).map Prod.snd =
      (Table.get Prod.fst t k).map Prod.snd := by
  induction t with
  | nil => rfl
  | cons e t ih =>
    rw [rename, List.map_cons, ← rename, Table.get_cons, Table.get_cons]
    by_cases hk : e.1 = k
    · rw [if_pos (congrArg f hk), if_pos hk]
      rfl
    · rw [if_neg fun h => hk (hf h), if_neg hk, ih]

theorem erase_rename (t : List (κ × α)) (k : κ) :
    erase (f k) (rename f t) = rename f (erase k t) := by
  rw [rename, rename, erase, erase, List.filter_map]
  congr 1
  refine List.filter_congr fun e _ => ?_
  simp [hf.eq_iff]

end Rename

namespace Ordered

variable {t : List (κ × α)} {s : Spec κ α}

theorem empty : Ordered ([] : List (κ × α)) Spec.empty where
  keys := List.nodup_nil
  held _ := rfl
  order := List.Pairwise.nil
  past _ := le_rfl

/-- A key is held when the list has it. -/
theorem isSome_held (h : Ordered t s) (k : κ) :
    (s.held k).isSome ↔ k ∈ t.map Prod.fst := by
  rw [← h.held k, Option.isSome_map]
  constructor
  · intro hsome
    obtain ⟨e, he⟩ := Option.isSome_iff_exists.mp hsome
    exact List.mem_map.mpr ⟨e, Table.mem_of_get _ he, Table.key_of_get _ he⟩
  · intro hmem
    obtain ⟨e, he, rfl⟩ := List.mem_map.mp hmem
    rw [Table.get_of_mem Prod.fst h.keys he]
    rfl

theorem size (h : Ordered t s) : s.size = t.length := by
  have hset : {k | (s.held k).isSome} = ((t.map Prod.fst).toFinset : Set κ) := by
    ext k
    simp [h.isSome_held k]
  rw [Spec.size, hset, Set.ncard_coe_finset, List.toFinset_card_of_nodup h.keys,
    List.length_map]

theorem drop (h : Ordered t s) (k : κ) : Ordered (erase k t) (s.drop k) where
  keys := Table.nodup_filter _ h.keys _
  held j := by
    rw [get_erase]
    by_cases hj : j = k
    · simp [Spec.drop, hj]
    · simp [Spec.drop, hj, h.held j]
  order := h.order.filter _
  past := h.past

/-- The key that is used goes to the end. -/
theorem use (h : Ordered t s) (k : κ) (v : α) : Ordered (erase k t ++ [(k, v)]) (s.use k v) := by
  have hne : ∀ e ∈ erase k t, e.1 ≠ k := fun e he =>
    of_decide_eq_true (List.mem_filter.mp he).2
  have hnew : k ∉ (erase k t).map Prod.fst := by
    intro hmem
    obtain ⟨e, he, hk⟩ := List.mem_map.mp hmem
    exact hne e he hk
  refine ⟨Table.nodup_concat Prod.fst (h.drop k).keys hnew, ?_, ?_, ?_⟩
  · intro j
    rw [Table.get_concat Prod.fst hnew, get_erase]
    by_cases hj : j = k
    · simp [Spec.use, hj]
    · have hkj : ¬ k = j := fun hkj => hj hkj.symm
      simp [Spec.use, hj, hkj, h.held j]
  · rw [List.pairwise_append]
    refine ⟨?_, List.pairwise_singleton _ _, ?_⟩
    · refine (h.drop k).order.imp_of_mem ?_
      intro a b ha hb hab
      simp only [Spec.use, if_neg (hne a ha), if_neg (hne b hb)]
      exact hab
    · intro a ha b hb
      obtain rfl := List.mem_singleton.mp hb
      have hpast := h.past a.1
      simp only [Spec.use, if_neg (hne a ha), if_true]
      omega
  · intro j
    have hpast := h.past j
    simp only [Spec.use]
    split <;> omega

/-- The head of the list was last used before all others. -/
theorem lastUse_head {e : κ × α} (h : Ordered (e :: t) s) {j : κ} (hj : (s.held j).isSome)
    (hne : j ≠ e.1) : s.lastUse e.1 < s.lastUse j := by
  rcases List.mem_cons.mp ((h.isSome_held j).mp hj) with hj | hj
  · exact absurd hj hne
  · obtain ⟨e', he', rfl⟩ := List.mem_map.mp hj
    exact (List.pairwise_cons.mp h.order).1 e' he'

theorem oldest {e : κ × α} (h : Ordered (e :: t) s) (k : κ) : s.Oldest k ↔ k = e.1 := by
  have hhead : (s.held e.1).isSome := (h.isSome_held _).mpr (by simp)
  constructor
  · rintro ⟨hk, hle⟩
    by_contra hne
    have hlt := h.lastUse_head hk hne
    have hke := hle e.1 hhead
    omega
  · rintro rfl
    refine ⟨hhead, fun j hj => ?_⟩
    by_cases hje : j = e.1
    · rw [hje]
    · exact (h.lastUse_head hj hje).le

/-- Forgetting the oldest entry leaves the tail. -/
theorem evict {e : κ × α} (h : Ordered (e :: t) s) : Ordered t s.evict where
  keys := (List.nodup_cons.mp h.keys).2
  held j := by
    have hheld := h.held j
    rw [Table.get_cons] at hheld
    have hnotMem := (List.nodup_cons.mp h.keys).1
    simp only [Spec.evict, h.oldest j]
    by_cases hj : j = e.1
    · subst hj
      rw [if_pos rfl, Option.map_eq_none_iff, Table.get_eq_none]
      exact fun e' he' hkey => hnotMem (List.mem_map.mpr ⟨e', he', hkey⟩)
    · rw [if_neg hj]
      rwa [if_neg (fun hkey => hj hkey.symm)] at hheld
  order := (List.pairwise_cons.mp h.order).2
  past := h.past

theorem clear (h : Ordered t s) : Ordered [] s.clear where
  keys := List.nodup_nil
  held _ := rfl
  order := List.Pairwise.nil
  past := h.past

end Ordered

end Lru

import Mathlib.Tactic

/-!
# Keyed tables

A database table with a primary key, as the list of its rows: `get` looks a
row up by key and `put` is the upsert — replace the row with that key in
place, append it when there is none. Sums over the table (`SELECT SUM ...`)
are list sums, so the one fact an aggregate needs is what a `put` does to
them (`sum_put`).
-/

namespace Table

variable {ρ κ : Type} [DecidableEq κ] (key : ρ → κ)

/-- The row with key `k`. -/
def get (t : List ρ) (k : κ) : Option ρ := t.find? fun r => key r = k

/-- Replace the row with `r`'s key, or append `r`. -/
def put (r : ρ) : List ρ → List ρ
  | [] => [r]
  | x :: xs => if key x = key r then r :: xs else x :: put r xs

/-! ## Lookup after an upsert -/

@[simp] theorem get_nil (k : κ) : get key [] k = none := rfl

theorem get_cons (x : ρ) (xs : List ρ) (k : κ) :
    get key (x :: xs) k = if key x = k then some x else get key xs k := by
  unfold get
  by_cases h : key x = k
  · rw [List.find?_cons_of_pos (by simpa using h), if_pos h]
  · rw [List.find?_cons_of_neg (by simpa using h), if_neg h]

theorem get_put (r : ρ) (t : List ρ) (k : κ) :
    get key (put key r t) k = if key r = k then some r else get key t k := by
  induction t with
  | nil => rw [put, get_cons, get_nil]
  | cons x xs ih =>
    rw [put]
    by_cases hx : key x = key r
    · rw [if_pos hx, get_cons, get_cons, hx]
      split <;> rfl
    · rw [if_neg hx, get_cons, ih, get_cons]
      by_cases hk : key x = k
      · have hr : ¬ key r = k := fun h => hx (hk.trans h.symm)
        rw [if_pos hk, if_neg hr, if_pos hk]
      · rw [if_neg hk, if_neg hk]

@[simp] theorem get_put_self (r : ρ) (t : List ρ) :
    get key (put key r t) (key r) = some r := by
  rw [get_put, if_pos rfl]

theorem get_put_ne {r : ρ} {t : List ρ} {k : κ} (h : key r ≠ k) :
    get key (put key r t) k = get key t k := by
  rw [get_put, if_neg h]

theorem key_of_get {t : List ρ} {k : κ} {r : ρ} (h : get key t k = some r) :
    key r = k := by
  simpa using List.find?_some h

theorem mem_of_get {t : List ρ} {k : κ} {r : ρ} (h : get key t k = some r) : r ∈ t :=
  List.mem_of_find?_eq_some h

theorem get_eq_none {t : List ρ} {k : κ} :
    get key t k = none ↔ ∀ r ∈ t, key r ≠ k := by
  simp [get]

/-- A row that a filter keeps is still found. -/
theorem get_filter {t : List ρ} {k : κ} {r : ρ} {p : ρ → Bool} (h : get key t k = some r)
    (hp : p r = true) : get key (t.filter p) k = some r := by
  induction t with
  | nil => cases h
  | cons x xs ih =>
    rw [get_cons] at h
    split at h
    · rename_i hx
      cases h
      rw [List.filter_cons_of_pos hp, get_cons, if_pos hx]
    · rename_i hx
      cases hpx : p x with
      | true => rw [List.filter_cons_of_pos hpx, get_cons, if_neg hx, ih h]
      | false => rw [List.filter_cons_of_neg (by simp [hpx]), ih h]

/-- A filter that looks at the key only. -/
theorem get_filter_key (t : List ρ) (q : κ → Bool) (k : κ) :
    get key (t.filter fun r => q (key r)) k = if q k = true then get key t k else none := by
  unfold get
  rw [List.find?_filter]
  split
  · rename_i hq
    congr 1
    funext r
    by_cases hr : key r = k <;> simp [hr, hq]
  · rename_i hq
    rw [List.find?_eq_none]
    intro r _
    by_cases hr : key r = k <;> simp [hr, hq]

/-! ## Membership and keys -/

theorem mem_put {r x : ρ} {t : List ρ} (h : x ∈ put key r t) : x = r ∨ x ∈ t := by
  induction t with
  | nil =>
    rw [put, List.mem_singleton] at h
    exact Or.inl h
  | cons y ys ih =>
    rw [put] at h
    split at h
    · rcases List.mem_cons.mp h with rfl | hys
      · exact Or.inl rfl
      · exact Or.inr (List.mem_cons_of_mem _ hys)
    · rcases List.mem_cons.mp h with rfl | hys
      · exact Or.inr (List.mem_cons_self ..)
      · exact (ih hys).imp id (List.mem_cons_of_mem _)

theorem mem_put_self (r : ρ) (t : List ρ) : r ∈ put key r t :=
  mem_of_get key (get_put_self key r t)

/-- Rows with another key stay. -/
theorem mem_put_of_ne {r x : ρ} {t : List ρ} (hx : x ∈ t) (hne : key x ≠ key r) :
    x ∈ put key r t := by
  induction t with
  | nil => cases hx
  | cons y ys ih =>
    rw [put]
    rcases List.mem_cons.mp hx with rfl | hys
    · rw [if_neg hne]
      exact List.mem_cons_self ..
    · split
      · exact List.mem_cons_of_mem _ hys
      · exact List.mem_cons_of_mem _ (ih hys)

/-- A row with a new key goes to the end. -/
theorem put_of_get_none {r : ρ} {t : List ρ} (h : get key t (key r) = none) :
    put key r t = t ++ [r] := by
  induction t with
  | nil => rfl
  | cons x xs ih =>
    rw [get_cons] at h
    split at h
    · cases h
    · rename_i hx
      rw [put, if_neg hx, ih h, List.cons_append]

/-- With a unique key, a row that is there is replaced where it stands. -/
theorem put_eq_map {r x : ρ} {t : List ρ} (hnd : (t.map key).Nodup)
    (h : get key t (key r) = some x) :
    put key r t = t.map fun y => if key y = key r then r else y := by
  induction t with
  | nil => cases h
  | cons y ys ih =>
    rw [List.map_cons, List.nodup_cons] at hnd
    rw [get_cons] at h
    rw [put, List.map_cons]
    split
    · rename_i hy
      have hsame : (ys.map fun z => if key z = key r then r else z) = ys.map id :=
        List.map_congr_left fun z hz =>
          if_neg fun hk => hnd.1 (List.mem_map.mpr ⟨z, hz, hk.trans hy.symm⟩)
      rw [hsame, List.map_id]
    · rename_i hy
      rw [if_neg hy] at h
      rw [ih hnd.2 h]

/-- The primary key stays unique. -/
theorem nodup_put {r : ρ} {t : List ρ} (h : (t.map key).Nodup) :
    ((put key r t).map key).Nodup := by
  induction t with
  | nil => simp [put]
  | cons x xs ih =>
    rw [List.map_cons, List.nodup_cons] at h
    rw [put]
    split
    · rename_i hx
      rw [List.map_cons, List.nodup_cons, ← hx]
      exact h
    · rename_i hx
      rw [List.map_cons, List.nodup_cons]
      refine ⟨?_, ih h.2⟩
      intro hmem
      obtain ⟨y, hy, hkey⟩ := List.mem_map.mp hmem
      rcases mem_put key hy with rfl | hyxs
      · exact hx hkey.symm
      · exact h.1 (List.mem_map.mpr ⟨y, hyxs, hkey⟩)

/-- With a unique key, a member is what its key looks up. -/
theorem get_of_mem {t : List ρ} (hnd : (t.map key).Nodup) {r : ρ} (hr : r ∈ t) :
    get key t (key r) = some r := by
  induction t with
  | nil => simp at hr
  | cons x xs ih =>
    rw [List.map_cons, List.nodup_cons] at hnd
    rw [get_cons]
    rcases List.mem_cons.mp hr with rfl | hxs
    · rw [if_pos rfl]
    · have hne : key x ≠ key r := fun h =>
        hnd.1 (List.mem_map.mpr ⟨r, hxs, h.symm⟩)
      rw [if_neg hne, ih hnd.2 hxs]

/-- With a unique key, what is left beside the new row has other keys. -/
theorem mem_put_cases {r x : ρ} {t : List ρ} (hnd : (t.map key).Nodup) (h : x ∈ put key r t) :
    x = r ∨ (x ∈ t ∧ key x ≠ key r) := by
  have hget := get_of_mem key (nodup_put key hnd) h
  rw [get_put] at hget
  split at hget
  · exact Or.inl (Option.some.inj hget).symm
  · rename_i hne
    exact Or.inr ⟨mem_of_get key hget, Ne.symm hne⟩

omit [DecidableEq κ] in
theorem nodup_filter {t : List ρ} (h : (t.map key).Nodup) (p : ρ → Bool) :
    ((t.filter p).map key).Nodup :=
  h.sublist (List.filter_sublist.map key)

/-- With a unique key, a filter acts on what is found. -/
theorem get_filter_of_nodup {t : List ρ} (h : (t.map key).Nodup) (p : ρ → Bool) (k : κ) :
    get key (t.filter p) k = (get key t k).filter p := by
  cases hget : get key t k with
  | none =>
    rw [get_eq_none] at hget
    rw [Option.filter_none, get_eq_none]
    exact fun r hr => hget r (List.mem_of_mem_filter hr)
  | some r =>
    cases hp : p r with
    | true =>
      rw [get_filter key hget hp]
      exact (if_pos hp).symm
    | false =>
      have hnone : (some r).filter p = none := if_neg (by simp [hp])
      rw [hnone, get_eq_none]
      intro x hx hxk
      obtain ⟨hxt, hpx⟩ := List.mem_filter.mp hx
      have hxget := get_of_mem key h hxt
      rw [hxk, hget] at hxget
      cases hxget
      rw [hp] at hpx
      cases hpx

/-- With a unique key, one row has it. -/
theorem filter_key {t : List ρ} (h : (t.map key).Nodup) {k : κ} {r : ρ}
    (hget : get key t k = some r) : (t.filter fun x => decide (key x = k)) = [r] := by
  induction t with
  | nil => cases hget
  | cons x xs ih =>
    rw [List.map_cons, List.nodup_cons] at h
    rw [get_cons] at hget
    split at hget
    · rename_i hx
      cases hget
      have hrest : (xs.filter fun y => decide (key y = k)) = [] := by
        rw [List.filter_eq_nil_iff]
        intro y hy hyk
        refine h.1 (List.mem_map.mpr ⟨y, hy, ?_⟩)
        rw [of_decide_eq_true hyk, hx]
      rw [List.filter_cons_of_pos (by simpa using hx), hrest]
    · rename_i hx
      rw [List.filter_cons_of_neg (by simpa using hx), ih h.2 hget]

/-! ## Tables under a map -/

section Map

variable {σ κ' : Type} [DecidableEq κ'] (key' : σ → κ') (f : ρ → σ)

/-- A map that tells `k` from the other keys of the table. -/
theorem get_map {t : List ρ} {k : κ} {k' : κ'} (h : ∀ r ∈ t, key' (f r) = k' ↔ key r = k) :
    get key' (t.map f) k' = (get key t k).map f := by
  induction t with
  | nil => rfl
  | cons x xs ih =>
    have hx := h x List.mem_cons_self
    rw [List.map_cons, get_cons, get_cons, ih fun r hr => h r (List.mem_cons_of_mem x hr)]
    by_cases hk : key x = k
    · rw [if_pos hk, if_pos (hx.mpr hk)]
      rfl
    · rw [if_neg hk, if_neg fun hk' => hk (hx.mp hk')]

theorem put_map {t : List ρ} {r : ρ} (h : ∀ x ∈ t, key' (f x) = key' (f r) ↔ key x = key r) :
    put key' (f r) (t.map f) = (put key r t).map f := by
  induction t with
  | nil => rfl
  | cons x xs ih =>
    have hx := h x List.mem_cons_self
    rw [List.map_cons, put, put, ih fun y hy => h y (List.mem_cons_of_mem x hy)]
    by_cases hk : key x = key r
    · rw [if_pos hk, if_pos (hx.mpr hk)]
      rfl
    · rw [if_neg hk, if_neg fun hk' => hk (hx.mp hk')]
      rfl

end Map

/-! ## New rows -/

/-- A key that is not among these. -/
def freshKey (keys : List ℕ) : ℕ := keys.foldr max 0 + 1

theorem le_foldr_max {keys : List ℕ} {k : ℕ} (h : k ∈ keys) : k ≤ keys.foldr max 0 := by
  induction keys with
  | nil => cases h
  | cons k' keys ih =>
    rw [List.foldr_cons, le_max_iff]
    rcases List.mem_cons.mp h with rfl | hmem
    · exact Or.inl le_rfl
    · exact Or.inr (ih hmem)

theorem freshKey_notMem (keys : List ℕ) : freshKey keys ∉ keys := by
  intro h
  have hle := le_foldr_max h
  unfold freshKey at hle
  omega

omit [DecidableEq κ] in
theorem nodup_concat {t : List ρ} {r : ρ} (h : (t.map key).Nodup) (hr : key r ∉ t.map key) :
    ((t ++ [r]).map key).Nodup := by
  rw [List.map_append, List.nodup_append]
  refine ⟨h, List.nodup_singleton _, ?_⟩
  rintro k hk k' hk' rfl
  obtain rfl := List.mem_singleton.mp hk'
  exact hr hk

theorem get_concat {t : List ρ} {r : ρ} (hr : key r ∉ t.map key) (k : κ) :
    get key (t ++ [r]) k = if key r = k then some r else get key t k := by
  unfold get
  rw [List.find?_append]
  split
  · rename_i hk
    have hnone : (t.find? fun x => decide (key x = k)) = none := by
      rw [List.find?_eq_none]
      intro x hx hxk
      exact hr (List.mem_map.mpr ⟨x, hx, by rw [of_decide_eq_true hxk, hk]⟩)
    rw [hnone, List.find?_cons_of_pos (by simpa using hk)]
    rfl
  · rename_i hk
    rw [List.find?_cons_of_neg (by simpa using hk), List.find?_nil, Option.or_none]

/-- A new row of which there is nothing to see yet. -/
theorem get_concat_bind {β : Type} {t : List ρ} {r : ρ} {f : ρ → Option β}
    (hr : key r ∉ t.map key) (hf : f r = none) (k : κ) :
    (get key (t ++ [r]) k).bind f = (get key t k).bind f := by
  rw [get_concat key hr]
  split
  · rename_i hk
    have hnone : get key t k = none := by
      rw [get_eq_none]
      intro x hx hxk
      exact hr (List.mem_map.mpr ⟨x, hx, hxk.trans hk.symm⟩)
    rw [hnone]
    exact hf
  · rfl

/-! ## Aggregates -/

omit [DecidableEq κ] in
/-- Two entries that are counted once are one. -/
theorem eq_of_countP_le_one {t : List ρ} {p : ρ → Bool} (h : t.countP p ≤ 1) {r r' : ρ}
    (hr : r ∈ t) (hp : p r = true) (hr' : r' ∈ t) (hp' : p r' = true) : r = r' := by
  rw [List.countP_eq_length_filter] at h
  have hmem := List.mem_filter.mpr ⟨hr, hp⟩
  have hmem' := List.mem_filter.mpr ⟨hr', hp'⟩
  match hrows : t.filter p with
  | [] =>
    rw [hrows] at hmem
    cases hmem
  | [x] =>
    rw [hrows, List.mem_singleton] at hmem hmem'
    rw [hmem, hmem']
  | x :: y :: rest =>
    rw [hrows] at h
    simp at h

/-- A row with a new key is counted with the others. -/
theorem countP_put_new {r : ρ} {t : List ρ} (p : ρ → Bool) (h : get key t (key r) = none) :
    (put key r t).countP p = t.countP p + if p r then 1 else 0 := by
  induction t with
  | nil => simp [put, List.countP_cons]
  | cons x xs ih =>
    rw [get_cons] at h
    split at h
    · cases h
    · rename_i hx
      rw [put, if_neg hx, List.countP_cons, ih h, List.countP_cons]
      omega

/-- A row that is written over is counted instead of the old one. -/
theorem countP_put_old {r x : ρ} {t : List ρ} (p : ρ → Bool) (h : get key t (key r) = some x) :
    (put key r t).countP p + (if p x then 1 else 0) = t.countP p + if p r then 1 else 0 := by
  induction t with
  | nil => cases h
  | cons y ys ih =>
    rw [get_cons] at h
    split at h
    · rename_i hy
      cases h
      rw [put, if_pos hy, List.countP_cons, List.countP_cons]
      omega
    · rename_i hy
      have hrest := ih h
      rw [put, if_neg hy, List.countP_cons, List.countP_cons]
      omega

/-- **Sums after an upsert.** The new row is added and the row it replaces, if
any, is taken away. -/
theorem sum_put {M : Type} [AddCommGroup M] (f : ρ → M) (r : ρ) (t : List ρ) :
    ((put key r t).map f).sum = (t.map f).sum + f r - ((get key t (key r)).map f).getD 0 := by
  induction t with
  | nil => simp [put]
  | cons x xs ih =>
    rw [put, get_cons]
    by_cases hx : key x = key r
    · rw [if_pos hx, if_pos hx]
      simp only [List.map_cons, List.sum_cons, Option.map_some, Option.getD_some]
      abel
    · rw [if_neg hx, if_neg hx]
      simp only [List.map_cons, List.sum_cons, ih]
      abel

end Table

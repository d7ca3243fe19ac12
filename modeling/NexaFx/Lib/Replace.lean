import Mathlib.Tactic

/-!
# Replacing all matches

A global replacement goes through a text from left to right: each match gives
way to a fixed text, and the search goes on behind it. A pattern is given by the
length of its match at the start of a text, which is not empty.

* `replaceAll_rec` — induction along a replacement;
* `replaceAll_eq_self` — a text without a match stays;
* `unmatched_replaceAll` — a pattern that reads no `b` has no match left, not
  even across the seams, when its matches give way to `b`.
-/

namespace Replace

variable {α : Type}

section Replacement

variable (m : List α → Option ℕ) (repl : List α)

/-- The first `skip` places belong to a match that was replaced. -/
def replaceFrom : ℕ → List α → List α
  | _, [] => []
  | skip + 1, _ :: s => replaceFrom skip s
  | 0, a :: s =>
    match m (a :: s) with
    | some n => repl ++ replaceFrom (n - 1) s
    | none => a :: replaceFrom 0 s

def replaceAll (s : List α) : List α := replaceFrom m repl 0 s

end Replacement

variable {m : List α → Option ℕ} {repl : List α}

@[simp] theorem replaceAll_nil : replaceAll m repl [] = [] := rfl

theorem replaceFrom_eq (skip : ℕ) (s : List α) :
    replaceFrom m repl skip s = replaceAll m repl (s.drop skip) := by
  induction s generalizing skip with
  | nil => cases skip <;> rfl
  | cons a s ih =>
    cases skip with
    | zero => rfl
    | succ skip => exact ih skip

theorem replaceAll_keep {a : α} {s : List α} (h : m (a :: s) = none) :
    replaceAll m repl (a :: s) = a :: replaceAll m repl s := by
  rw [replaceAll, replaceFrom, h]
  rfl

theorem replaceAll_match {a : α} {s : List α} {n : ℕ} (h : m (a :: s) = some n) :
    replaceAll m repl (a :: s) = repl ++ replaceAll m repl (s.drop (n - 1)) := by
  rw [replaceAll, replaceFrom, h]
  dsimp only
  rw [replaceFrom_eq]

variable (m repl) in
/-- Induction along a replacement. -/
theorem replaceAll_rec {P : List α → List α → Prop} (nil : P [] [])
    (keep : ∀ a s, m (a :: s) = none → P s (replaceAll m repl s) →
      P (a :: s) (a :: replaceAll m repl s))
    (matched : ∀ a s n, m (a :: s) = some n →
      P (s.drop (n - 1)) (replaceAll m repl (s.drop (n - 1))) →
      P (a :: s) (repl ++ replaceAll m repl (s.drop (n - 1)))) (s : List α) :
    P s (replaceAll m repl s) := by
  induction h : s.length using Nat.strong_induction_on generalizing s with
  | _ length ih =>
    cases s with
    | nil => exact nil
    | cons a s =>
      rw [List.length_cons] at h
      cases hm : m (a :: s) with
      | none =>
        rw [replaceAll_keep hm]
        exact keep a s hm (ih s.length (by omega) s rfl)
      | some n =>
        rw [replaceAll_match hm]
        have hle := List.length_drop (i := n - 1) (l := s)
        exact matched a s n hm (ih _ (by omega) (s.drop (n - 1)) rfl)

theorem mem_of_mem_replaceAll {x : α} (s : List α) (hx : x ∈ replaceAll m repl s) :
    x ∈ s ∨ x ∈ repl := by
  revert hx
  induction s using replaceAll_rec m repl with
  | nil => exact fun hx => absurd hx List.not_mem_nil
  | keep a s hm ih =>
    intro hx
    rcases List.mem_cons.mp hx with rfl | hx
    · exact Or.inl List.mem_cons_self
    · exact (ih hx).imp_left (List.mem_cons_of_mem a)
  | matched a s n hm ih =>
    intro hx
    rcases List.mem_append.mp hx with hx | hx
    · exact Or.inr hx
    · exact (ih hx).imp_left fun hx => List.mem_cons_of_mem a (List.mem_of_mem_drop hx)

/-- What holds between the places of a text holds in the replaced text, if the
replacement agrees with everything. -/
theorem pairwise_replaceAll {R : α → α → Prop} (hrepl : repl.Pairwise R)
    (hleft : ∀ a ∈ repl, ∀ b, R a b) (hright : ∀ b ∈ repl, ∀ a, R a b) {s : List α}
    (hs : s.Pairwise R) : (replaceAll m repl s).Pairwise R := by
  revert hs
  induction s using replaceAll_rec m repl with
  | nil => exact id
  | keep a s hm ih =>
    intro hs
    obtain ⟨ha, hs⟩ := List.pairwise_cons.mp hs
    refine List.pairwise_cons.mpr ⟨fun b hb => ?_, ih hs⟩
    rcases mem_of_mem_replaceAll s hb with hb | hb
    · exact ha b hb
    · exact hright b hb a
  | matched a s n hm ih =>
    intro hs
    have hrest := (List.pairwise_cons.mp hs).2.sublist (List.drop_sublist (n - 1) s)
    exact List.pairwise_append.mpr ⟨hrepl, ih hrest, fun a ha b _ => hleft a ha b⟩

/-- A text without a match stays as it is. -/
theorem replaceAll_eq_self {s : List α} (h : ∀ t, t <:+ s → m t = none) :
    replaceAll m repl s = s := by
  induction s with
  | nil => rfl
  | cons a s ih =>
    rw [replaceAll_keep (h _ List.suffix_rfl),
      ih fun t ht => h t (ht.trans (List.suffix_cons a s))]

/-- Up to the first replacement, the text is the old one. -/
theorem prefix_of_prefix_replaceAll {b : α} (s u : List α) (hu : u <+: replaceAll m [b] s)
    (hb : b ∉ u) : u <+: s := by
  revert u
  induction s using replaceAll_rec m [b] with
  | nil => exact fun u hu _ => hu
  | keep a s hm ih =>
    intro u hu hb
    cases u with
    | nil => exact List.nil_prefix
    | cons x u =>
      obtain ⟨rfl, hrest⟩ := List.cons_prefix_cons.mp hu
      have hold := ih u hrest fun hmem => hb (List.mem_cons_of_mem x hmem)
      exact List.cons_prefix_cons.mpr ⟨rfl, hold⟩
  | matched a s n hm ih =>
    intro u hu hb
    cases u with
    | nil => exact List.nil_prefix
    | cons x u =>
      obtain ⟨rfl, -⟩ := List.cons_prefix_cons.mp hu
      exact absurd List.mem_cons_self hb

/-- No match is left when matches are recognised by a start of the text without
`b` and give way to `b`. -/
theorem unmatched_replaceAll {b : α} (hread : ∀ t n, m t = some n →
      ∃ x u, (x :: u) <+: t ∧ b ∉ x :: u ∧ ∀ t', (x :: u) <+: t' → m t' ≠ none)
    (s t : List α) (ht : t <:+ replaceAll m [b] s) : m t = none := by
  have hnil : m [] = none := by
    by_contra hsome
    obtain ⟨n, hn⟩ := Option.ne_none_iff_exists'.mp hsome
    obtain ⟨x, u, hu, -⟩ := hread [] n hn
    exact absurd (List.prefix_nil.mp hu) (List.cons_ne_nil x u)
  revert t
  induction s using replaceAll_rec m [b] with
  | nil =>
    intro t ht
    rw [List.suffix_nil.mp ht, hnil]
  | keep a s hm ih =>
    intro t ht
    rcases List.suffix_cons_iff.mp ht with rfl | ht
    · by_contra hsome
      obtain ⟨n, hn⟩ := Option.ne_none_iff_exists'.mp hsome
      obtain ⟨x, u, hu, hb, hmatches⟩ := hread _ n hn
      -- the match would have been there before
      obtain ⟨rfl, hrest⟩ := List.cons_prefix_cons.mp hu
      have hold := prefix_of_prefix_replaceAll s u hrest fun hmem => hb (List.mem_cons_of_mem x hmem)
      exact hmatches _ (List.cons_prefix_cons.mpr ⟨rfl, hold⟩) hm
    · exact ih t ht
  | matched a s n hm ih =>
    intro t ht
    rcases List.suffix_cons_iff.mp ht with rfl | ht
    · by_contra hsome
      obtain ⟨n, hn⟩ := Option.ne_none_iff_exists'.mp hsome
      obtain ⟨x, u, hu, hb, -⟩ := hread _ n hn
      obtain ⟨rfl, -⟩ := List.cons_prefix_cons.mp hu
      exact hb List.mem_cons_self
    · exact ih t ht

end Replace

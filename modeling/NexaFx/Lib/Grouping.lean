import NexaFx.Lib.Table

/-!
# Grouping by key

A list gathered into a map from keys to the elements with that key, the keys
in the order of their first elements (`group`): every key of an element has
one group, the elements with that key in their order (`mem_group`).
-/

namespace Grouping

variable {α κ : Type} [DecidableEq κ] (key : α → κ)

/-- Put `a` behind the elements with its key. -/
def add (groups : List (κ × List α)) (a : α) : List (κ × List α) :=
  Table.put Prod.fst
    (key a, ((Table.get Prod.fst groups (key a)).map Prod.snd).getD [] ++ [a]) groups

def group (l : List α) : List (κ × List α) := l.foldl (add key) []

/-- The elements with key `k`. -/
def withKey (l : List α) (k : κ) : List α := l.filter fun a => decide (key a = k)

theorem mem_withKey {l : List α} {k : κ} {a : α} : a ∈ withKey key l k ↔ a ∈ l ∧ key a = k := by
  simp [withKey]

theorem group_append (l : List α) (a : α) : group key (l ++ [a]) = add key (group key l) a :=
  List.foldl_append

theorem withKey_append (l : List α) (a : α) (k : κ) :
    withKey key (l ++ [a]) k = withKey key l k ++ if key a = k then [a] else [] := by
  unfold withKey
  rw [List.filter_append, List.filter_singleton]
  simp

theorem nodup_group (l : List α) : ((group key l).map Prod.fst).Nodup := by
  induction l using List.reverseRecOn with
  | nil => exact List.nodup_nil
  | append_singleton l a ih =>
    rw [group_append]
    exact Table.nodup_put Prod.fst ih

theorem get_group (l : List α) (k : κ) :
    Table.get Prod.fst (group key l) k =
      if withKey key l k = [] then none else some (k, withKey key l k) := by
  induction l using List.reverseRecOn generalizing k with
  | nil => rfl
  | append_singleton l a ih =>
    rw [group_append, add, Table.get_put, withKey_append]
    by_cases hk : key a = k
    · subst hk
      rw [if_pos rfl, if_pos rfl, if_neg (List.append_ne_nil_of_right_ne_nil _ (by simp)), ih]
      split
      · rename_i h
        rw [h]
        rfl
      · rfl
    · rw [if_neg hk, if_neg hk, List.append_nil, ih]

/-- The groups: each key of an element once, with the elements of that key. -/
theorem mem_group {l : List α} {g : κ × List α} :
    g ∈ group key l ↔ (∃ a ∈ l, key a = g.1) ∧ g.2 = withKey key l g.1 := by
  have hne : withKey key l g.1 ≠ [] ↔ ∃ a ∈ l, key a = g.1 := by
    simp only [← mem_withKey]
    exact ⟨List.exists_mem_of_ne_nil _, fun ⟨_, ha⟩ => List.ne_nil_of_mem ha⟩
  constructor
  · intro hg
    have hget := Table.get_of_mem Prod.fst (nodup_group key l) hg
    rw [get_group] at hget
    split at hget
    · cases hget
    · rename_i h
      exact ⟨hne.mp h, (congrArg Prod.snd (Option.some.inj hget)).symm⟩
  · rintro ⟨hkey, hg⟩
    refine Table.mem_of_get Prod.fst (k := g.1) ?_
    rw [get_group, if_neg (hne.mpr hkey), ← hg]

end Grouping

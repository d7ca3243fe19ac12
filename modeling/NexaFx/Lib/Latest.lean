import Mathlib.Tactic

/-!
# The latest event of a kind

A log that only grows, and the last of its events that satisfy `p`. An append
either leaves it as it is or brings a newer one (`latest_append`); it is the
last event with no other of its kind behind it (`latest_of_split`).
-/

namespace Latest

variable {ε : Type} (p : ε → Bool)

/-- The last event that satisfies `p`. -/
def latest (log : List ε) : Option ε := log.reverse.find? p

@[simp] theorem latest_nil : latest p [] = none := rfl

theorem latest_concat (log : List ε) (e : ε) :
    latest p (log ++ [e]) = if p e = true then some e else latest p log := by
  unfold latest
  rw [List.reverse_append, List.reverse_singleton, List.singleton_append]
  split
  · rename_i h
    exact List.find?_cons_of_pos h
  · rename_i h
    exact List.find?_cons_of_neg h

/-- What is appended brings a newer one, or none. -/
theorem latest_append (log events : List ε) :
    (latest p (log ++ events) = latest p log ∧ ∀ e ∈ events, p e = false) ∨
      ∃ e ∈ events, p e = true ∧ latest p (log ++ events) = some e := by
  induction events using List.reverseRecOn with
  | nil => exact .inl ⟨by rw [List.append_nil], fun e he => absurd he List.not_mem_nil⟩
  | append_singleton events e ih =>
    rw [← List.append_assoc, latest_concat]
    split
    · rename_i h
      exact .inr ⟨e, List.mem_append_right _ (List.mem_singleton_self e), h, rfl⟩
    · rename_i h
      rcases ih with ⟨heq, hnone⟩ | ⟨e', he', hp, heq⟩
      · refine .inl ⟨heq, fun e' he' => ?_⟩
        rcases List.mem_append.mp he' with he' | he'
        · exact hnone e' he'
        · rw [List.mem_singleton.mp he']
          exact Bool.not_eq_true _ ▸ h
      · exact .inr ⟨e', List.mem_append_left _ he', hp, heq⟩

variable {p}

/-- An append of other events. -/
theorem latest_append_of_none {log events : List ε} (h : ∀ e ∈ events, p e = false) :
    latest p (log ++ events) = latest p log := by
  rcases latest_append p log events with ⟨heq, -⟩ | ⟨e, he, hp, -⟩
  · exact heq
  · rw [h e he] at hp
    cases hp

/-- Nothing of its kind is behind it. -/
theorem latest_of_split {before since : List ε} {e : ε} (he : p e = true)
    (hsince : ∀ e' ∈ since, p e' = false) : latest p (before ++ e :: since) = some e := by
  rw [← List.singleton_append, ← List.append_assoc, latest_append_of_none hsince, latest_concat,
    if_pos he]

end Latest

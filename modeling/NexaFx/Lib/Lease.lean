import NexaFx.Lib.Table

/-!
# Locks that expire

A lock is set under a key if none is stored that has not expired, and lasts for
a while; a holder enters its section with the lock and leaves it when it deletes
what is stored under the key, whoever set that.

`Store` keeps with the locks who set each last, who is inside and until when its
own lock lasts, and which releases deleted the lock of somebody else. When a
holder that has outlived its lock deletes nothing that has not expired, at most
one is inside whose lock lasts, and no release deletes what it does not hold
(`Guarded`, kept by `acquire`, `release` and time passing).
-/

namespace Async

namespace Lease

variable {κ ι : Type} [DecidableEq κ] [DecidableEq ι]

structure Store (κ ι : Type) where
  /-- Each key with the time at which the lock expires. -/
  locks : List (κ × ℕ)
  now : ℕ
  owner : κ → Option ι
  /-- A holder that is inside, with the time at which its own lock expires. -/
  inside : List (κ × ι × ℕ)
  stolen : List (κ × ι)

/-- A holder inside whose own lock lasts. -/
def Store.Lasting (s : Store κ ι) (key : κ) (i : ι) (expiry : ℕ) : Prop :=
  (key, i, expiry) ∈ s.inside ∧ s.now < expiry

/-- A lock is stored that has not expired. -/
def Store.locked (s : Store κ ι) (key : κ) : Bool :=
  (Table.get Prod.fst s.locks key).any fun l => decide (s.now < l.2)

namespace Store

/-- What setting the lock for so long leaves. -/
def acquire (s : Store κ ι) (key : κ) (i : ι) (ttl : ℕ) : Store κ ι :=
  { s with
    locks := Table.put Prod.fst (key, s.now + ttl) s.locks
    owner := Function.update s.owner key (some i)
    inside := (key, i, s.now + ttl) :: s.inside }

/-- What deleting the lock leaves. -/
def release (s : Store κ ι) (key : κ) (i : ι) : Store κ ι :=
  { s with
    locks := s.locks.filter fun l => decide (l.1 ≠ key)
    inside := s.inside.filter fun m => !decide (m.1 = key ∧ m.2.1 = i)
    stolen := if s.locked key && decide (s.owner key ≠ some i) then s.stolen ++ [(key, i)]
      else s.stolen }

def pass (s : Store κ ι) (now : ℕ) : Store κ ι := { s with now := now }

end Store

/-- Whoever is inside while its lock lasts has the lock that is stored. -/
structure Guarded (s : Store κ ι) : Prop where
  holds : ∀ key i expiry, s.Lasting key i expiry →
    Table.get Prod.fst s.locks key = some (key, expiry) ∧ s.owner key = some i
  none : s.stolen = []

section Guarded

variable {s : Store κ ι} {key : κ} {i : ι}

omit [DecidableEq ι] in
theorem Guarded.locked (h : Guarded s) {expiry : ℕ} (hlasting : s.Lasting key i expiry) :
    s.locked key = true := by
  rw [Store.locked, (h.holds key i expiry hlasting).1]
  simpa using hlasting.2

omit [DecidableEq ι] in
/-- **At most one.** -/
theorem Guarded.unique (h : Guarded s) {j : ι} {expiry expiry' : ℕ}
    (hi : s.Lasting key i expiry) (hj : s.Lasting key j expiry') : i = j := by
  have howner := (h.holds key i expiry hi).2
  rw [(h.holds key j expiry' hj).2] at howner
  exact (Option.some.inj howner).symm

omit [DecidableEq ι] in
theorem Guarded.acquire (h : Guarded s) (hfree : s.locked key = false) (i : ι) (ttl : ℕ) :
    Guarded (s.acquire key i ttl) := by
  refine ⟨fun key' j expiry hlasting => ?_, h.none⟩
  obtain ⟨hinside, hlasts⟩ := hlasting
  rcases List.mem_cons.mp hinside with hnew | hold
  · cases hnew
    exact ⟨Table.get_put_self Prod.fst _ _, Function.update_self ..⟩
  · -- nobody was inside under the key itself
    have hlasting' : s.Lasting key' j expiry := ⟨hold, hlasts⟩
    have hne : key ≠ key' := by
      rintro rfl
      rw [h.locked hlasting'] at hfree
      cases hfree
    obtain ⟨hlock, howner⟩ := h.holds key' j expiry hlasting'
    refine ⟨(Table.get_put_ne Prod.fst hne).trans hlock, ?_⟩
    exact (Function.update_of_ne (Ne.symm hne) _ _).trans howner

/-- A holder whose lock lasts deletes its own; one that has outlived its lock
deletes nothing that has not expired. -/
theorem Guarded.release (h : Guarded s)
    (hmine : (∃ expiry, s.Lasting key i expiry) ∨ s.locked key = false) :
    Guarded (s.release key i) := by
  refine ⟨fun key' j expiry hlasting => ?_, ?_⟩
  · obtain ⟨hinside, hlasts⟩ := hlasting
    obtain ⟨hold, hother⟩ := List.mem_filter.mp hinside
    have hlasting' : s.Lasting key' j expiry := ⟨hold, hlasts⟩
    have hne : key' ≠ key := by
      rintro rfl
      rcases hmine with ⟨expiry', hi⟩ | hfree
      · obtain rfl := h.unique hi hlasting'
        simp at hother
      · rw [h.locked hlasting'] at hfree
        cases hfree
    obtain ⟨hlock, howner⟩ := h.holds key' j expiry hlasting'
    exact ⟨Table.get_filter Prod.fst hlock (by simpa using hne), howner⟩
  · show (if s.locked key && decide (s.owner key ≠ some i) then s.stolen ++ [(key, i)]
      else s.stolen) = []
    rw [if_neg, h.none]
    rcases hmine with ⟨expiry, hi⟩ | hfree
    · simp [(h.holds key i expiry hi).2]
    · simp [hfree]

omit [DecidableEq ι] in
theorem Guarded.pass (h : Guarded s) {now : ℕ} (hnow : s.now ≤ now) : Guarded (s.pass now) :=
  ⟨fun key i expiry hlasting => h.holds key i expiry ⟨hlasting.1, lt_of_le_of_lt hnow hlasting.2⟩,
    h.none⟩

end Guarded

end Lease

end Async

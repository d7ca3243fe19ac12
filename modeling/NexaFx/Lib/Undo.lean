import Mathlib.Tactic

/-!
# An undo in parts, behind a flag

Many callers may try to undo one thing. Each reads a flag that says whether it
has been undone; one that finds it clear starts the parts of the undo, which
end well or badly, and sets the flag when it finishes.

`Undo.Step` has the steps that keep the three apart from going wrong: callers
do not overlap between the reading of the flag and their end, and the parts of
a caller and its own end all turn out alike. Under these, at most one caller
ever has a part that ended well (`Inv.mover_unique`), and when nothing is under
way the flag is set exactly when all parts of some caller ended well
(`Inv.settled`).
-/

/-- How far a caller is. -/
inductive Phase where
  | idle
  /-- It found the flag clear and has not ended. -/
  | running
  | returned
  | thrown
  deriving DecidableEq

/-- The flag; the callers; and for each caller that has started its parts, how
each of them ended. -/
@[ext]
structure Undo (P : Type) where
  flag : Bool
  phase : ℕ → Phase
  parts : ℕ → Option (P → Option Bool)

namespace Undo

variable {P : Type}

def setPhase (u : Undo P) (i : ℕ) (phase : Phase) : Undo P :=
  { u with phase := Function.update u.phase i phase }

def setParts (u : Undo P) (i : ℕ) (parts : P → Option Bool) : Undo P :=
  { u with parts := Function.update u.parts i (some parts) }

inductive Step [DecidableEq P] : Undo P → Undo P → Prop
  | stutter (u : Undo P) : Step u u
  /-- The flag is found clear while no other caller is running. -/
  | read {u : Undo P} {i : ℕ} (hidle : u.phase i = .idle) (halone : ∀ j, u.phase j ≠ .running)
      (hclear : u.flag = false) : Step u (u.setPhase i .running)
  | refuse {u : Undo P} {i : ℕ} (hidle : u.phase i = .idle) : Step u (u.setPhase i .thrown)
  | start {u : Undo P} {i : ℕ} (hrunning : u.phase i = .running) (hnone : u.parts i = none) :
      Step u (u.setParts i fun _ => none)
  | part {u : Undo P} {i : ℕ} {parts : P → Option Bool} {side : P} {ok : Bool}
      (hparts : u.parts i = some parts) (hopen : parts side = none)
      (halike : ∀ side' ok', parts side' = some ok' → ok' = ok)
      (hreturned : u.phase i = .returned → ok = true)
      (hthrown : u.phase i = .thrown → ok = false) :
      Step u (u.setParts i (Function.update parts side (some ok)))
  | throw {u : Undo P} {i : ℕ} (hrunning : u.phase i = .running)
      (halike : ∀ parts side ok, u.parts i = some parts → parts side = some ok → ok = false) :
      Step u (u.setPhase i .thrown)
  | finish {u : Undo P} {i : ℕ} {parts : P → Option Bool} (hrunning : u.phase i = .running)
      (hparts : u.parts i = some parts)
      (halike : ∀ side ok, parts side = some ok → ok = true) :
      Step u { u.setPhase i .returned with flag := true }

/-- What the steps keep. -/
structure Inv (u : Undo P) : Prop where
  single : ∀ i j, u.phase i = .running → u.phase j = .running → i = j
  clear : ∀ i, u.phase i = .running → u.flag = false
  set : u.flag = true ↔ ∃ i, u.phase i = .returned
  once : ∀ i j, u.phase i = .returned → u.phase j = .returned → i = j
  started : ∀ i, u.phase i = .returned → u.parts i ≠ none
  idle : ∀ i, u.phase i = .idle → u.parts i = none
  alike : ∀ i parts side side' ok ok', u.parts i = some parts → parts side = some ok →
    parts side' = some ok' → ok = ok'
  returned : ∀ i parts side ok, u.phase i = .returned → u.parts i = some parts →
    parts side = some ok → ok = true
  thrown : ∀ i parts side ok, u.phase i = .thrown → u.parts i = some parts →
    parts side = some ok → ok = false

/-- Nobody has tried. -/
theorem inv_start {u : Undo P} (hflag : u.flag = false) (hphase : ∀ i, u.phase i = .idle)
    (hparts : ∀ i, u.parts i = none) : Inv u := by
  constructor <;> simp [hflag, hphase, hparts]

section Steps

variable {u u' : Undo P} {i j : ℕ}

theorem phase_setPhase (u : Undo P) (i j : ℕ) (phase : Phase) :
    (u.setPhase i phase).phase j = if j = i then phase else u.phase j :=
  Function.update_apply ..

theorem setPhase_same {phase : Phase} (h : u.phase i = phase) : u.setPhase i phase = u := by
  subst h
  unfold setPhase
  rw [Function.update_eq_self]

theorem parts_setParts (u : Undo P) (i j : ℕ) (parts : P → Option Bool) :
    (u.setParts i parts).parts j = if j = i then some parts else u.parts j :=
  Function.update_apply ..

/-- A caller is in the phase it has come to, or another one is where it was. -/
theorem setPhase_cases {phase phase' : Phase} (h : (u.setPhase i phase).phase j = phase') :
    (j = i ∧ phase' = phase) ∨ u.phase j = phase' := by
  rw [phase_setPhase] at h
  split at h
  · rename_i hji
    exact Or.inl ⟨hji, h.symm⟩
  · exact Or.inr h

theorem setParts_cases {parts parts' : P → Option Bool}
    (h : (u.setParts i parts).parts j = some parts') :
    (j = i ∧ parts' = parts) ∨ u.parts j = some parts' := by
  rw [parts_setParts] at h
  split at h
  · rename_i hji
    exact Or.inl ⟨hji, (Option.some.inj h).symm⟩
  · exact Or.inr h

/-- A caller of which all parts that ended did so well has returned or will. -/
theorem Inv.active (h : Inv u) {parts : P → Option Bool} {side : P} (hparts : u.parts i = some parts)
    (hside : parts side = some true) : u.phase i = .running ∨ u.phase i = .returned := by
  cases hphase : u.phase i with
  | idle =>
    rw [h.idle i hphase] at hparts
    cases hparts
  | running => exact Or.inl rfl
  | returned => exact Or.inr rfl
  | thrown => cases h.thrown i parts side true hphase hparts hside

/-- **At most one caller undoes anything.** -/
theorem Inv.mover_unique (h : Inv u) {parts parts' : P → Option Bool} {side side' : P}
    (hi : u.parts i = some parts) (hside : parts side = some true)
    (hj : u.parts j = some parts') (hside' : parts' side' = some true) : i = j := by
  -- while a caller is running the flag is clear, so no other has returned
  have hclash : ∀ a b, u.phase a = .running → u.phase b ≠ .returned := by
    intro a b ha hb
    have hset := h.set.mpr ⟨b, hb⟩
    rw [h.clear a ha] at hset
    cases hset
  rcases h.active hi hside with hri | hri <;> rcases h.active hj hside' with hrj | hrj
  · exact h.single i j hri hrj
  · exact absurd hrj (hclash i j hri)
  · exact absurd hri (hclash j i hrj)
  · exact h.once i j hri hrj

/-- **When nothing is under way** the flag says whether there was an undo, and
then all its parts ended well. -/
theorem Inv.settled (h : Inv u) (hended : ∀ i, u.phase i ≠ .running)
    (hparts : ∀ i parts side, u.parts i = some parts → parts side ≠ none) :
    (u.flag = true ∧ ∃ i parts, u.parts i = some parts ∧ ∀ side, parts side = some true) ∨
    (u.flag = false ∧ ∀ i parts side, u.parts i = some parts → parts side = some false) := by
  cases hflag : u.flag with
  | true =>
    obtain ⟨i, hi⟩ := h.set.mp hflag
    obtain ⟨parts, hp⟩ := Option.ne_none_iff_exists'.mp (h.started i hi)
    refine Or.inl ⟨rfl, i, parts, hp, ?_⟩
    intro side
    obtain ⟨ok, hok⟩ := Option.ne_none_iff_exists'.mp (hparts i parts side hp)
    rw [hok, h.returned i parts side ok hi hp hok]
  | false =>
    refine Or.inr ⟨rfl, ?_⟩
    intro i parts side hp
    obtain ⟨ok, hok⟩ := Option.ne_none_iff_exists'.mp (hparts i parts side hp)
    cases ok with
    | false => exact hok
    | true =>
      rcases h.active hp hok with hrun | hret
      · exact absurd hrun (hended i)
      · have hset := h.set.mpr ⟨i, hret⟩
        rw [hflag] at hset
        cases hset

/-- A caller starts its parts, or one of them ends. -/
theorem Inv.setParts (h : Inv u) {parts : P → Option Bool} (hidle : u.phase i ≠ .idle)
    (halike : ∀ side side' ok ok', parts side = some ok → parts side' = some ok' → ok = ok')
    (hreturned : ∀ side ok, u.phase i = .returned → parts side = some ok → ok = true)
    (hthrown : ∀ side ok, u.phase i = .thrown → parts side = some ok → ok = false) :
    Inv (u.setParts i parts) where
  single := h.single
  clear := h.clear
  set := h.set
  once := h.once
  started j hj := by
    rw [parts_setParts]
    split
    · exact Option.some_ne_none _
    · exact h.started j hj
  idle j hj := by
    rw [parts_setParts, if_neg, h.idle j hj]
    rintro rfl
    exact hidle hj
  alike j parts' side side' ok ok' hj hside hside' := by
    rcases setParts_cases hj with ⟨rfl, rfl⟩ | hold
    · exact halike side side' ok ok' hside hside'
    · exact h.alike j parts' side side' ok ok' hold hside hside'
  returned j parts' side ok hphase hj hside := by
    rcases setParts_cases hj with ⟨rfl, rfl⟩ | hold
    · exact hreturned side ok hphase hside
    · exact h.returned j parts' side ok hphase hold hside
  thrown j parts' side ok hphase hj hside := by
    rcases setParts_cases hj with ⟨rfl, rfl⟩ | hold
    · exact hthrown side ok hphase hside
    · exact h.thrown j parts' side ok hphase hold hside

/-- A caller finds the flag clear. -/
theorem Inv.read (h : Inv u) (hidle : u.phase i = .idle) (halone : ∀ j, u.phase j ≠ .running)
    (hclear : u.flag = false) : Inv (u.setPhase i .running) where
  single a b ha hb := by
    rcases setPhase_cases ha with ⟨rfl, -⟩ | ha
    · rcases setPhase_cases hb with ⟨rfl, -⟩ | hb
      · rfl
      · exact absurd hb (halone b)
    · exact absurd ha (halone a)
  clear _ _ := hclear
  set := by
    refine h.set.trans (exists_congr fun a => ?_)
    rw [phase_setPhase]
    split
    · rename_i heq
      rw [heq, hidle]
      simp
    · rfl
  once a b ha hb := by
    have ha := (setPhase_cases ha).resolve_left fun hnew => by cases hnew.2
    have hb := (setPhase_cases hb).resolve_left fun hnew => by cases hnew.2
    exact h.once a b ha hb
  started a ha := h.started a ((setPhase_cases ha).resolve_left fun hnew => by cases hnew.2)
  idle a ha := h.idle a ((setPhase_cases ha).resolve_left fun hnew => by cases hnew.2)
  alike := h.alike
  returned a parts side ok ha :=
    h.returned a parts side ok ((setPhase_cases ha).resolve_left fun hnew => by cases hnew.2)
  thrown a parts side ok ha :=
    h.thrown a parts side ok ((setPhase_cases ha).resolve_left fun hnew => by cases hnew.2)

/-- A caller ends without an undo. -/
theorem Inv.throw (h : Inv u) (hphase : u.phase i = .idle ∨ u.phase i = .running)
    (halike : ∀ parts side ok, u.parts i = some parts → parts side = some ok → ok = false) :
    Inv (u.setPhase i .thrown) where
  single a b ha hb := by
    have ha := (setPhase_cases ha).resolve_left fun hnew => by cases hnew.2
    have hb := (setPhase_cases hb).resolve_left fun hnew => by cases hnew.2
    exact h.single a b ha hb
  clear a ha := h.clear a ((setPhase_cases ha).resolve_left fun hnew => by cases hnew.2)
  set := by
    refine h.set.trans (exists_congr fun a => ?_)
    rw [phase_setPhase]
    split
    · rename_i heq
      rw [heq]
      rcases hphase with hphase | hphase <;> simp [hphase]
    · rfl
  once a b ha hb := by
    have ha := (setPhase_cases ha).resolve_left fun hnew => by cases hnew.2
    have hb := (setPhase_cases hb).resolve_left fun hnew => by cases hnew.2
    exact h.once a b ha hb
  started a ha := h.started a ((setPhase_cases ha).resolve_left fun hnew => by cases hnew.2)
  idle a ha := h.idle a ((setPhase_cases ha).resolve_left fun hnew => by cases hnew.2)
  alike := h.alike
  returned a parts side ok ha :=
    h.returned a parts side ok ((setPhase_cases ha).resolve_left fun hnew => by cases hnew.2)
  thrown a parts side ok ha hparts hside := by
    rcases setPhase_cases ha with ⟨rfl, -⟩ | ha
    · exact halike parts side ok hparts hside
    · exact h.thrown a parts side ok ha hparts hside

/-- A caller finishes and sets the flag. -/
theorem Inv.finish (h : Inv u) {parts : P → Option Bool} (hrunning : u.phase i = .running)
    (hparts : u.parts i = some parts) (halike : ∀ side ok, parts side = some ok → ok = true) :
    Inv { u.setPhase i .returned with flag := true } := by
  have hno : ∀ a, u.phase a ≠ .returned := by
    intro a ha
    have hset := h.set.mpr ⟨a, ha⟩
    rw [h.clear i hrunning] at hset
    cases hset
  have hself : ∀ {a}, (u.setPhase i .returned).phase a = .returned → a = i := by
    intro a ha
    rcases setPhase_cases ha with ⟨rfl, -⟩ | hold
    · rfl
    · exact absurd hold (hno a)
  have hnone : ∀ a, (u.setPhase i .returned).phase a ≠ .running := by
    intro a ha
    rcases setPhase_cases ha with ⟨-, hnew⟩ | hold
    · cases hnew
    · obtain rfl := h.single a i hold hrunning
      rw [phase_setPhase, if_pos rfl] at ha
      cases ha
  constructor
  case single => exact fun a _ ha => absurd ha (hnone a)
  case clear => exact fun a ha => absurd ha (hnone a)
  case set => exact ⟨fun _ => ⟨i, (phase_setPhase ..).trans (if_pos rfl)⟩, fun _ => rfl⟩
  case once => exact fun a b ha hb => (hself ha).trans (hself hb).symm
  case started =>
    intro a ha
    obtain rfl := hself ha
    show u.parts a ≠ none
    rw [hparts]
    exact Option.some_ne_none _
  case idle =>
    exact fun a ha => h.idle a ((setPhase_cases ha).resolve_left fun hnew => by cases hnew.2)
  case alike => exact h.alike
  case returned =>
    intro a parts' side ok ha hp hside
    obtain rfl := hself ha
    obtain rfl : parts = parts' := Option.some.inj (hparts.symm.trans hp)
    exact halike side ok hside
  case thrown =>
    exact fun a parts' side ok ha =>
      h.thrown a parts' side ok ((setPhase_cases ha).resolve_left fun hnew => by cases hnew.2)

/-- **Step lemma.** -/
theorem Inv.step [DecidableEq P] (h : Inv u) (hs : Step u u') : Inv u' := by
  cases hs with
  | stutter => exact h
  | read hidle halone hclear => exact h.read hidle halone hclear
  | @refuse i hidle =>
    refine h.throw (Or.inl hidle) fun parts side ok hparts => ?_
    rw [h.idle i hidle] at hparts
    cases hparts
  | throw hrunning halike => exact h.throw (Or.inr hrunning) halike
  | finish hrunning hparts halike => exact h.finish hrunning hparts halike
  | start hrunning hnone =>
    refine h.setParts (by rw [hrunning]; simp) ?_ ?_ ?_
    · exact fun side side' ok ok' hside => by cases hside
    · exact fun side ok _ hside => by cases hside
    · exact fun side ok _ hside => by cases hside
  | @part i parts side ok hparts hopen halike hreturned hthrown =>
    -- every part that has ended now did so with `ok`
    have hall : ∀ side' ok', Function.update parts side (some ok) side' = some ok' → ok' = ok := by
      intro side' ok' hside'
      rw [Function.update_apply] at hside'
      split at hside'
      · exact (Option.some.inj hside').symm
      · exact halike side' ok' hside'
    refine h.setParts ?_ ?_ ?_ ?_
    · intro hidle
      rw [h.idle i hidle] at hparts
      cases hparts
    · intro a b ok₁ ok₂ ha hb
      rw [hall a ok₁ ha, hall b ok₂ hb]
    · exact fun a ok' hphase ha => (hall a ok' ha).trans (hreturned hphase)
    · exact fun a ok' hphase ha => (hall a ok' ha).trans (hthrown hphase)

end Steps

end Undo

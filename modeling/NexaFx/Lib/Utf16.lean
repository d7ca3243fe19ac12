import Mathlib.Tactic

/-!
# Strings of ECMAScript

A string is a sequence of UTF-16 code units, in which a surrogate may stand
alone. `scalars` reads the Unicode characters off it, with U+FFFD for a lone
surrogate, and `utf8` encodes those. `encode` is the way back (`scalars_encode`).
The UTF-8 encoding has at least as many bytes as the string has code units
(`length_le_utf8`), and as many exactly when all of them are below 128
(`length_utf8_eq_iff`).
-/

namespace Utf16

/-- The first unit of a pair. -/
def isLead (u : UInt16) : Bool := 0xD800 ≤ u.toNat && u.toNat < 0xDC00

/-- The second unit of a pair. -/
def isTrail (u : UInt16) : Bool := 0xDC00 ≤ u.toNat && u.toNat < 0xE000

/-- The character of a unit outside a pair. -/
def ofUnit (u : UInt16) : Char :=
  if isLead u || isTrail u then Char.ofNat 0xFFFD else Char.ofNat u.toNat

/-- The character of a pair. -/
def ofPair (lead trail : UInt16) : Char :=
  Char.ofNat (0x10000 + (lead.toNat - 0xD800) * 0x400 + (trail.toNat - 0xDC00))

def scalars : List UInt16 → List Char
  | [] => []
  | [u] => [ofUnit u]
  | u :: v :: s =>
    if isLead u && isTrail v then ofPair u v :: scalars s else ofUnit u :: scalars (v :: s)

/-- The bytes that a `TextEncoder` makes of a string. -/
def utf8 (s : List UInt16) : List UInt8 := (scalars s).flatMap String.utf8EncodeChar

def encodeChar (c : Char) : List UInt16 :=
  if c.toNat < 0x10000 then [UInt16.ofNat c.toNat]
  else [UInt16.ofNat (0xD800 + (c.toNat - 0x10000) / 0x400),
    UInt16.ofNat (0xDC00 + (c.toNat - 0x10000) % 0x400)]

/-- The code units of characters. -/
def encode (cs : List Char) : List UInt16 := cs.flatMap encodeChar

/-! ## One character -/

theorem toNat_ofNat {n : ℕ} (h : n.isValidChar) : (Char.ofNat n).toNat = n := by
  rw [Char.ofNat, dif_pos h]
  rfl

theorem isLead_iff {u : UInt16} : isLead u = true ↔ 0xD800 ≤ u.toNat ∧ u.toNat < 0xDC00 := by
  rw [isLead, Bool.and_eq_true, decide_eq_true_iff, decide_eq_true_iff]

theorem isTrail_iff {u : UInt16} : isTrail u = true ↔ 0xDC00 ≤ u.toNat ∧ u.toNat < 0xE000 := by
  rw [isTrail, Bool.and_eq_true, decide_eq_true_iff, decide_eq_true_iff]

/-- A surrogate that stands alone is replaced. -/
theorem toNat_ofUnit (u : UInt16) :
    (ofUnit u).toNat =
      if 0xD800 ≤ u.toNat ∧ u.toNat < 0xE000 then 0xFFFD else u.toNat := by
  have hlt := u.toNat_lt
  unfold ofUnit
  by_cases hsurrogate : 0xD800 ≤ u.toNat ∧ u.toNat < 0xE000
  · have halone : (isLead u || isTrail u) = true := by
      rw [Bool.or_eq_true, isLead_iff, isTrail_iff]
      omega
    rw [if_pos halone, if_pos hsurrogate]
    exact toNat_ofNat (by decide)
  · have hown : ¬ (isLead u || isTrail u) = true := by
      rw [Bool.or_eq_true, isLead_iff, isTrail_iff]
      omega
    rw [if_neg hown, if_neg hsurrogate]
    refine toNat_ofNat ?_
    unfold Nat.isValidChar
    omega

theorem toNat_ofPair {lead trail : UInt16} (hlead : isLead lead = true)
    (htrail : isTrail trail = true) :
    (ofPair lead trail).toNat =
      0x10000 + (lead.toNat - 0xD800) * 0x400 + (trail.toNat - 0xDC00) := by
  rw [isLead_iff] at hlead
  rw [isTrail_iff] at htrail
  refine toNat_ofNat ?_
  unfold Nat.isValidChar
  omega

/-- One byte exactly for a unit below 128. -/
theorem utf8Size_ofUnit (u : UInt16) : (ofUnit u).utf8Size = 1 ↔ u.toNat < 128 := by
  rw [Char.utf8Size_eq_one_iff, UInt32.le_iff_toNat_le]
  have hvalue := toNat_ofUnit u
  unfold Char.toNat at hvalue
  rw [hvalue]
  show _ ≤ 127 ↔ _
  split <;> omega

/-- A pair has four bytes. -/
theorem utf8Size_ofPair {lead trail : UInt16} (hlead : isLead lead = true)
    (htrail : isTrail trail = true) : (ofPair lead trail).utf8Size = 4 := by
  rw [Char.utf8Size_eq_four_iff, UInt32.lt_iff_toNat_lt]
  have hvalue := toNat_ofPair hlead htrail
  unfold Char.toNat at hvalue
  rw [hvalue]
  show 65535 < _
  omega

/-! ## Whole strings -/

theorem length_utf8_nil : (utf8 []).length = 0 := rfl

-- the equations of `scalars` are generated here, once
attribute [local simp] scalars in
theorem length_utf8_single (u : UInt16) : (utf8 [u]).length = (ofUnit u).utf8Size := by
  simp [utf8]

theorem length_utf8_pair {u v : UInt16} (h : (isLead u && isTrail v) = true) (s : List UInt16) :
    (utf8 (u :: v :: s)).length = 4 + (utf8 s).length := by
  obtain ⟨hu, hv⟩ := (Bool.and_eq_true _ _).mp h
  simp [utf8, scalars, h, utf8Size_ofPair hu hv]

theorem length_utf8_cons {u v : UInt16} (h : ¬ (isLead u && isTrail v) = true)
    (s : List UInt16) :
    (utf8 (u :: v :: s)).length = (ofUnit u).utf8Size + (utf8 (v :: s)).length := by
  simp only [utf8, scalars, if_neg h, List.flatMap_cons, List.length_append,
    String.length_utf8EncodeChar]

/-- **No string has fewer bytes than code units.** -/
theorem length_le_utf8 (s : List UInt16) : s.length ≤ (utf8 s).length := by
  induction s using scalars.induct with
  | case1 => exact Nat.zero_le _
  | case2 u =>
    rw [length_utf8_single]
    exact Char.utf8Size_pos _
  | case3 u v s hpair ih =>
    rw [length_utf8_pair hpair, List.length_cons, List.length_cons]
    omega
  | case4 u v s hpair ih =>
    have hbyte := (ofUnit u).utf8Size_pos
    rw [length_utf8_cons hpair, List.length_cons]
    omega

/-- It has as many exactly when every unit is below 128. -/
theorem length_utf8_eq_iff (s : List UInt16) :
    (utf8 s).length = s.length ↔ ∀ u ∈ s, u.toNat < 128 := by
  induction s using scalars.induct with
  | case1 => simp [length_utf8_nil]
  | case2 u =>
    rw [length_utf8_single, List.forall_mem_singleton]
    exact utf8Size_ofUnit u
  | case3 u v s hpair ih =>
    have hle := length_le_utf8 s
    have hlead := isLead_iff.mp ((Bool.and_eq_true _ _).mp hpair).1
    rw [length_utf8_pair hpair, List.length_cons, List.length_cons, List.forall_mem_cons]
    constructor
    · intro heq
      omega
    · rintro ⟨hu, -⟩
      omega
  | case4 u v s hpair ih =>
    have hle := length_le_utf8 (v :: s)
    have hbyte := (ofUnit u).utf8Size_pos
    rw [length_utf8_cons hpair, List.length_cons, List.forall_mem_cons, ← ih, ← utf8Size_ofUnit]
    omega

/-! ## There and back -/

/-- A unit that begins no pair is a character of its own. -/
theorem scalars_cons {u : UInt16} (h : isLead u = false) (s : List UInt16) :
    scalars (u :: s) = ofUnit u :: scalars s := by
  cases s with
  | nil => rfl
  | cons v s =>
    rw [scalars, if_neg]
    simp [h]

theorem scalars_encodeChar (c : Char) (s : List UInt16) :
    scalars (encodeChar c ++ s) = c :: scalars s := by
  have hvalid : c.toNat < 0xD800 ∨ 0xDFFF < c.toNat ∧ c.toNat < 0x110000 := c.valid
  unfold encodeChar
  by_cases hsmall : c.toNat < 0x10000
  · have hunit : (UInt16.ofNat c.toNat).toNat = c.toNat := UInt16.toNat_ofNat_of_lt' hsmall
    have hlead : isLead (UInt16.ofNat c.toNat) = false := by
      rw [← Bool.not_eq_true, isLead_iff]
      omega
    have htrail : isTrail (UInt16.ofNat c.toNat) = false := by
      rw [← Bool.not_eq_true, isTrail_iff]
      omega
    rw [if_pos hsmall, List.singleton_append, scalars_cons hlead, ofUnit, hlead, htrail, hunit]
    simp
  · -- the two halves of what is above the first plane
    have hhigh : (UInt16.ofNat (0xD800 + (c.toNat - 0x10000) / 0x400)).toNat =
        0xD800 + (c.toNat - 0x10000) / 0x400 := UInt16.toNat_ofNat_of_lt' (by
      show _ < 65536
      omega)
    have hlow : (UInt16.ofNat (0xDC00 + (c.toNat - 0x10000) % 0x400)).toNat =
        0xDC00 + (c.toNat - 0x10000) % 0x400 := UInt16.toNat_ofNat_of_lt' (by
      show _ < 65536
      omega)
    rw [if_neg hsmall]
    generalize UInt16.ofNat (0xD800 + (c.toNat - 0x10000) / 0x400) = lead at *
    generalize UInt16.ofNat (0xDC00 + (c.toNat - 0x10000) % 0x400) = trail at *
    have hlead : isLead lead = true := isLead_iff.mpr (by omega)
    have htrail : isTrail trail = true := isTrail_iff.mpr (by omega)
    have hpair : (isLead lead && isTrail trail) = true := by rw [hlead, htrail, Bool.and_true]
    have hsum : 0x10000 + (lead.toNat - 0xD800) * 0x400 + (trail.toNat - 0xDC00) = c.toNat := by
      omega
    show scalars (lead :: trail :: s) = _
    rw [scalars, if_pos hpair, ofPair, hsum, Char.ofNat_toNat]

/-- **Reading gives back the characters that were encoded.** -/
theorem scalars_encode (cs : List Char) : scalars (encode cs) = cs := by
  induction cs with
  | nil => rfl
  | cons c cs ih =>
    show scalars (encodeChar c ++ encode cs) = _
    rw [scalars_encodeChar, ih]

/-- The bytes of a string without lone surrogates are those of its characters. -/
theorem utf8_encode (cs : List Char) : utf8 (encode cs) = cs.flatMap String.utf8EncodeChar := by
  rw [utf8, scalars_encode]

end Utf16

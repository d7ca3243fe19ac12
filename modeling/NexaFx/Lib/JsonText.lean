import NexaFx.Lib.NumberText
import NexaFx.Lib.Utf16

/-!
# JSON texts

`JSON.stringify` and `JSON.parse` of ECMAScript. Strings and texts are sequences
of UTF-16 code units. An object keeps its properties in the order of the engine:
array indices first, in ascending order, then the other names as they were added
(`InOrder`); adding a name again changes its value in place.

* `parseString_escaped` — a string is read back, a lone surrogate included;
* `ofEntries_of_inOrder` — properties in order are added as they stand;
* `inOrder_ofEntries` — and whatever is added, they are in order.
-/

namespace JsonText

open Js

abbrev Text := List UInt16

/-- The code unit of an ASCII character. -/
def unit (c : Char) : UInt16 := UInt16.ofNat c.toNat

def units (s : String) : Text := s.toList.map unit

/-- A text of ASCII characters. -/
def chars (t : Text) : List Char := t.map fun u => Char.ofNat u.toNat

inductive Value where
  | null
  | bool (b : Bool)
  | num (x : Js.Num)
  | str (s : Text)
  | arr (elems : List Value)
  | obj (fields : List (Text × Value))

-- ---------------------------------------------------------------------------
-- Strings
-- ---------------------------------------------------------------------------

def hexDigit (n : ℕ) : UInt16 := UInt16.ofNat (if n < 10 then 48 + n else 87 + n)

def hexValue (u : UInt16) : Option ℕ :=
  let n := u.toNat
  if 48 ≤ n ∧ n < 58 then some (n - 48)
  else if 97 ≤ n ∧ n < 103 then some (n - 87)
  else if 65 ≤ n ∧ n < 71 then some (n - 55)
  else none

/-- `\uXXXX` -/
def unicodeEscape (u : UInt16) : Text :=
  [unit '\\', unit 'u', hexDigit (u.toNat / 4096), hexDigit (u.toNat / 256 % 16),
    hexDigit (u.toNat / 16 % 16), hexDigit (u.toNat % 16)]

/-- A code unit that is no surrogate. -/
def escapeUnit (u : UInt16) : Text :=
  if u = 0x08 then [unit '\\', unit 'b']
  else if u = 0x09 then [unit '\\', unit 't']
  else if u = 0x0A then [unit '\\', unit 'n']
  else if u = 0x0C then [unit '\\', unit 'f']
  else if u = 0x0D then [unit '\\', unit 'r']
  else if u = unit '"' then [unit '\\', unit '"']
  else if u = unit '\\' then [unit '\\', unit '\\']
  else if u < 0x20 then unicodeEscape u
  else [u]

/-- Surrogates are kept in pairs only. -/
def escaped : Text → Text
  | [] => []
  | [u] => if Utf16.isLead u || Utf16.isTrail u then unicodeEscape u else escapeUnit u
  | u :: v :: s =>
    if Utf16.isLead u && Utf16.isTrail v then u :: v :: escaped s
    else if Utf16.isLead u || Utf16.isTrail u then unicodeEscape u ++ escaped (v :: s)
    else escapeUnit u ++ escaped (v :: s)

/-- `QuoteJSONString` -/
def quoted (s : Text) : Text := unit '"' :: (escaped s ++ [unit '"'])

/-- The character of an escape of two characters. -/
def escapeValue (u : UInt16) : Option UInt16 :=
  if u = unit '"' || u = unit '\\' || u = unit '/' then some u
  else if u = unit 'b' then some 0x08
  else if u = unit 't' then some 0x09
  else if u = unit 'n' then some 0x0A
  else if u = unit 'f' then some 0x0C
  else if u = unit 'r' then some 0x0D
  else none

def hexUnit (a b c d : UInt16) : Option UInt16 := do
  let a ← hexValue a
  let b ← hexValue b
  let c ← hexValue c
  let d ← hexValue d
  return UInt16.ofNat (4096 * a + 256 * b + 16 * c + d)

/-- A string from behind its first quote, and what is behind its last one. -/
def parseString : Text → Option (Text × Text)
  | [] => none
  | u :: s =>
    if u = unit '"' then some ([], s)
    else if u = unit '\\' then
      match s with
      | [] => none
      | e :: s =>
        if e = unit 'u' then
          match s with
          | a :: b :: c :: d :: s =>
            match hexUnit a b c d, parseString s with
            | some u, some (t, rest) => some (u :: t, rest)
            | _, _ => none
          | _ => none
        else
          match escapeValue e, parseString s with
          | some u, some (t, rest) => some (u :: t, rest)
          | _, _ => none
    else if u < 0x20 then none
    else
      match parseString s with
      | some (t, rest) => some (u :: t, rest)
      | none => none

-- ---------------------------------------------------------------------------
-- Objects
-- ---------------------------------------------------------------------------

/-- The array index that a name is. -/
def arrayIndex (k : Text) : Option ℕ :=
  let ds := chars k
  if ds ≠ [] ∧ ds.all Char.isDigit = true ∧ (ds = ['0'] ∨ ds.head? ≠ some '0') ∧
      decimalValue ds < 2 ^ 32 - 1 then
    some (decimalValue ds)
  else none

/-- The name comes before the other one, whenever it is added. -/
def precedes (k k' : Text) : Bool :=
  match arrayIndex k, arrayIndex k' with
  | some i, some j => decide (i < j)
  | some _, none => true
  | none, _ => false

section Fields

variable {β : Type}

/-- `CreateDataProperty` -/
def setProperty (k : Text) (v : β) : List (Text × β) → List (Text × β)
  | [] => [(k, v)]
  | f :: rest =>
    if f.1 = k then (k, v) :: rest
    else if precedes k f.1 then (k, v) :: f :: rest
    else f :: setProperty k v rest

def ofEntries (entries : List (Text × β)) : List (Text × β) :=
  entries.foldl (fun fields e => setProperty e.1 e.2 fields) []

/-- Different names, in the order of the engine. -/
def InOrder (fields : List (Text × β)) : Prop :=
  fields.Pairwise fun f g => f.1 ≠ g.1 ∧ precedes g.1 f.1 = false

end Fields

-- ---------------------------------------------------------------------------
-- Values
-- ---------------------------------------------------------------------------

mutual

/-- `JSON.stringify(v)`; a number that is not finite becomes `null`. -/
def stringify : Value → Text
  | .null => units "null"
  | .bool b => units (if b then "true" else "false")
  | .num (.fin q) => (Js.Num.fin q).toText.map unit
  | .num _ => units "null"
  | .str s => quoted s
  | .arr [] => [unit '[', unit ']']
  | .arr (v :: rest) => unit '[' :: (stringify v ++ moreElems rest)
  | .obj [] => [unit '{', unit '}']
  | .obj ((k, v) :: rest) =>
    unit '{' :: (quoted k ++ unit ':' :: (stringify v ++ moreFields rest))

def moreElems : List Value → Text
  | [] => [unit ']']
  | v :: rest => unit ',' :: (stringify v ++ moreElems rest)

def moreFields : List (Text × Value) → Text
  | [] => [unit '}']
  | (k, v) :: rest => unit ',' :: (quoted k ++ unit ':' :: (stringify v ++ moreFields rest))

end

def isSpace (u : UInt16) : Bool := u = 0x20 || u = 0x09 || u = 0x0A || u = 0x0D

def skipSpace (s : Text) : Text := s.dropWhile isSpace

/-- What a number is made of. -/
def isNumeric (u : UInt16) : Bool := (units "0123456789+-.eE").contains u

/-- One of the three names. -/
def parseName (s : Text) : Option (Value × Text) :=
  if (units "null").isPrefixOf s then some (.null, s.drop 4)
  else if (units "true").isPrefixOf s then some (.bool true, s.drop 4)
  else if (units "false").isPrefixOf s then some (.bool false, s.drop 5)
  else none

/-- The given character, behind white space. -/
def expect (c : Char) (s : Text) : Option Text :=
  match skipSpace s with
  | [] => none
  | u :: rest => if u = unit c then some rest else none

mutual

/-- A value at the start of a text, and what is behind it. -/
def parseValue : ℕ → Text → Option (Value × Text)
  | 0, _ => none
  | fuel + 1, s =>
    match skipSpace s with
    | [] => none
    | u :: rest =>
      if u = unit '"' then (parseString rest).map fun p => (.str p.1, p.2)
      else if u = unit '[' then
        match expect ']' rest with
        | some rest => some (.arr [], rest)
        | none => (parseElems fuel rest).map fun p => (.arr p.1, p.2)
      else if u = unit '{' then
        match expect '}' rest with
        | some rest => some (.obj [], rest)
        | none => (parseFields fuel rest).map fun p => (.obj (ofEntries p.1), p.2)
      else if isNumeric u then
        (readNumber (chars ((u :: rest).takeWhile isNumeric))).map fun x =>
          (.num x, (u :: rest).dropWhile isNumeric)
      else parseName (u :: rest)

/-- The elements of an array, to its closing bracket. -/
def parseElems : ℕ → Text → Option (List Value × Text)
  | 0, _ => none
  | fuel + 1, s =>
    match parseValue fuel s with
    | none => none
    | some (v, rest) =>
      match expect ']' rest with
      | some rest => some ([v], rest)
      | none => (expect ',' rest).bind fun rest =>
        (parseElems fuel rest).map fun p => (v :: p.1, p.2)

/-- The properties of an object, to its closing brace. -/
def parseFields : ℕ → Text → Option (List (Text × Value) × Text)
  | 0, _ => none
  | fuel + 1, s =>
    match (expect '"' s).bind parseString with
    | none => none
    | some (k, rest) =>
      match (expect ':' rest).bind (parseValue fuel) with
      | none => none
      | some (v, rest) =>
        match expect '}' rest with
        | some rest => some ([(k, v)], rest)
        | none => (expect ',' rest).bind fun rest =>
          (parseFields fuel rest).map fun p => ((k, v) :: p.1, p.2)

end

/-- `JSON.parse(s)`. A value uses up a unit of the text for each unit of fuel. -/
def parse (s : Text) : Option Value :=
  match parseValue s.length s with
  | some (v, rest) => if skipSpace rest = [] then some v else none
  | none => none

-- ---------------------------------------------------------------------------
-- Strings are read back
-- ---------------------------------------------------------------------------

theorem hexValue_hexDigit : ∀ n < 16, hexValue (hexDigit n) = some n := by
  decide

theorem hexUnit_digits (u : UInt16) : hexUnit (hexDigit (u.toNat / 4096))
    (hexDigit (u.toNat / 256 % 16)) (hexDigit (u.toNat / 16 % 16)) (hexDigit (u.toNat % 16)) =
    some u := by
  have hlt := u.toNat_lt
  have hsum : 4096 * (u.toNat / 4096) + 256 * (u.toNat / 256 % 16) + 16 * (u.toNat / 16 % 16) +
      u.toNat % 16 = u.toNat := by omega
  simp only [hexUnit, hexValue_hexDigit _ (show u.toNat / 4096 < 16 by omega),
    hexValue_hexDigit _ (show u.toNat / 256 % 16 < 16 by omega),
    hexValue_hexDigit _ (show u.toNat / 16 % 16 < 16 by omega),
    hexValue_hexDigit _ (show u.toNat % 16 < 16 by omega), Option.bind_eq_bind, Option.bind_some]
  rw [hsum, UInt16.ofNat_toNat]
  rfl

section Strings

variable {u : UInt16} {s t rest : Text}

theorem parseString_quote : parseString (unit '"' :: rest) = some ([], rest) := by
  rw [parseString.eq_def]
  exact if_pos rfl

theorem parseString_unicodeEscape (h : parseString t = some (s, rest)) :
    parseString (unicodeEscape u ++ t) = some (u :: s, rest) := by
  show parseString (unit '\\' :: unit 'u' :: _ :: _ :: _ :: _ :: t) = _
  rw [parseString.eq_def]
  simp only [if_neg (show ¬ unit '\\' = unit '"' by decide), if_true, hexUnit_digits, h]

theorem parseString_escape {e : UInt16} (he : escapeValue e = some u) (hne : e ≠ unit 'u')
    (h : parseString t = some (s, rest)) :
    parseString (unit '\\' :: e :: t) = some (u :: s, rest) := by
  rw [parseString.eq_def]
  simp only [if_neg (show ¬ unit '\\' = unit '"' by decide), if_true, if_neg hne, he, h]

theorem parseString_plain (hquote : u ≠ unit '"') (hslash : u ≠ unit '\\') (hcontrol : ¬ u < 0x20)
    (h : parseString t = some (s, rest)) : parseString (u :: t) = some (u :: s, rest) := by
  rw [parseString.eq_def]
  simp only [if_neg hquote, if_neg hslash, if_neg hcontrol, h]

theorem parseString_escapeUnit (h : parseString t = some (s, rest)) :
    parseString (escapeUnit u ++ t) = some (u :: s, rest) := by
  unfold escapeUnit
  split_ifs with h₁ h₂ h₃ h₄ h₅ h₆ h₇ h₈
  · exact parseString_escape (by rw [h₁]; decide) (by decide) h
  · exact parseString_escape (by rw [h₂]; decide) (by decide) h
  · exact parseString_escape (by rw [h₃]; decide) (by decide) h
  · exact parseString_escape (by rw [h₄]; decide) (by decide) h
  · exact parseString_escape (by rw [h₅]; decide) (by decide) h
  · exact parseString_escape (by rw [h₆]; decide) (by decide) h
  · exact parseString_escape (by rw [h₇]; decide) (by decide) h
  · exact parseString_unicodeEscape h
  · exact parseString_plain h₆ h₇ h₈ h

/-- A surrogate is no character of the syntax. -/
theorem parseString_surrogate (hu : (Utf16.isLead u || Utf16.isTrail u) = true)
    (h : parseString t = some (s, rest)) : parseString (u :: t) = some (u :: s, rest) := by
  have hlow : 0xD800 ≤ u.toNat := by
    rcases Bool.or_eq_true_iff.mp hu with hlead | htrail
    · exact (Utf16.isLead_iff.mp hlead).1
    · have := (Utf16.isTrail_iff.mp htrail).1
      omega
  refine parseString_plain ?_ ?_ ?_ h
  · rintro rfl
    exact absurd hlow (by decide)
  · rintro rfl
    exact absurd hlow (by decide)
  · rw [UInt16.lt_iff_toNat_lt]
    intro hlt
    have hlt' : u.toNat < 32 := hlt
    omega

/-- **A string is read back.** -/
theorem parseString_escaped (s rest : Text) :
    parseString (escaped s ++ unit '"' :: rest) = some (s, rest) := by
  induction s using escaped.induct with
  | case1 => exact parseString_quote
  | case2 u h =>
    rw [escaped, if_pos h]
    exact parseString_unicodeEscape parseString_quote
  | case3 u h =>
    rw [escaped, if_neg h]
    exact parseString_escapeUnit parseString_quote
  | case4 u v s h ih =>
    rw [escaped, if_pos h]
    obtain ⟨hlead, htrail⟩ := Bool.and_eq_true_iff.mp h
    exact parseString_surrogate (by rw [hlead, Bool.true_or])
      (parseString_surrogate (by rw [htrail, Bool.or_true]) ih)
  | case5 u v s h h' ih =>
    rw [escaped, if_neg h, if_pos h', List.append_assoc]
    exact parseString_unicodeEscape ih
  | case6 u v s h h' ih =>
    rw [escaped, if_neg h, if_neg h', List.append_assoc]
    exact parseString_escapeUnit ih

end Strings

-- ---------------------------------------------------------------------------
-- Properties in order
-- ---------------------------------------------------------------------------

section Fields

variable {β : Type} {fields : List (Text × β)} {k : Text} {v : β}

theorem setProperty_last (h : ∀ f ∈ fields, f.1 ≠ k ∧ precedes k f.1 = false) :
    setProperty k v fields = fields ++ [(k, v)] := by
  induction fields with
  | nil => rfl
  | cons f rest ih =>
    obtain ⟨hne, hbefore⟩ := h f List.mem_cons_self
    rw [setProperty, if_neg hne, if_neg (by rw [hbefore]; decide),
      ih fun g hg => h g (List.mem_cons_of_mem _ hg), List.cons_append]

theorem mem_setProperty {g : Text × β} (h : g ∈ setProperty k v fields) :
    g = (k, v) ∨ g ∈ fields := by
  induction fields with
  | nil => exact Or.inl (List.mem_singleton.mp h)
  | cons f rest ih =>
    rw [setProperty] at h
    split_ifs at h
    · rcases List.mem_cons.mp h with hnew | hrest
      · exact Or.inl hnew
      · exact Or.inr (List.mem_cons_of_mem _ hrest)
    · rcases List.mem_cons.mp h with hnew | hold
      · exact Or.inl hnew
      · exact Or.inr hold
    · rcases List.mem_cons.mp h with hf | hrest
      · exact Or.inr (hf ▸ List.mem_cons_self)
      · rcases ih hrest with hnew | hold
        · exact Or.inl hnew
        · exact Or.inr (List.mem_cons_of_mem _ hold)

theorem mem_ofEntries {entries : List (Text × β)} {g : Text × β} (h : g ∈ ofEntries entries) :
    g ∈ entries := by
  induction entries using List.reverseRecOn with
  | nil => exact h
  | append_singleton entries e ih =>
    rw [ofEntries, List.foldl_append] at h
    rcases mem_setProperty h with hlast | hbefore
    · exact List.mem_append_right _ (List.mem_singleton.mpr hlast)
    · exact List.mem_append_left _ (ih hbefore)

/-- What does not come before a name does not come before a name in front of it. -/
theorem precedes_of_precedes {k f g : Text} (hk : precedes k f = true)
    (hg : precedes g f = false) : precedes g k = false := by
  unfold precedes at *
  cases hik : arrayIndex k with
  | none => simp [hik] at hk
  | some i =>
    cases hig : arrayIndex g with
    | none => rfl
    | some l =>
      cases hif : arrayIndex f with
      | none => simp [hig, hif] at hg
      | some j =>
        simp [hik, hif] at hk
        simp [hig, hif] at hg
        simp
        omega

theorem precedes_self (k : Text) : precedes k k = false := by
  unfold precedes
  cases arrayIndex k with
  | none => rfl
  | some i => simp

theorem inOrder_setProperty (h : InOrder fields) : InOrder (setProperty k v fields) := by
  induction fields with
  | nil => exact List.pairwise_singleton _ _
  | cons f rest ih =>
    obtain ⟨hf, hrest⟩ := List.pairwise_cons.mp h
    rw [setProperty]
    split_ifs with heq hbefore
    · exact List.pairwise_cons.mpr ⟨fun g hg => heq ▸ hf g hg, hrest⟩
    · have hall : ∀ g ∈ f :: rest, precedes g.1 f.1 = false := by
        intro g hg
        rcases List.mem_cons.mp hg with rfl | hg
        · exact precedes_self _
        · exact (hf g hg).2
      refine List.pairwise_cons.mpr ⟨fun g hg => ⟨?_, precedes_of_precedes hbefore (hall g hg)⟩, h⟩
      show k ≠ g.1
      rintro rfl
      rw [hall g hg] at hbefore
      cases hbefore
    · refine List.pairwise_cons.mpr ⟨fun g hg => ?_, ih hrest⟩
      rcases mem_setProperty hg with rfl | hold
      · exact ⟨heq, Bool.eq_false_iff.mpr hbefore⟩
      · exact hf g hold

theorem inOrder_ofEntries (entries : List (Text × β)) : InOrder (ofEntries entries) := by
  induction entries using List.reverseRecOn with
  | nil => exact List.Pairwise.nil
  | append_singleton entries e ih =>
    rw [ofEntries, List.foldl_append]
    exact inOrder_setProperty ih

theorem inOrder_map {γ : Type} (h : InOrder fields) (φ : β → γ) :
    InOrder (fields.map fun f => (f.1, φ f.2)) := List.pairwise_map.mpr h

/-- Properties in order are added one behind the other. -/
theorem ofEntries_of_inOrder (h : InOrder fields) : ofEntries fields = fields := by
  induction fields using List.reverseRecOn with
  | nil => rfl
  | append_singleton fields f ih =>
    obtain ⟨hfields, -, hlast⟩ := List.pairwise_append.mp h
    have hall : ∀ g ∈ fields, g.1 ≠ f.1 ∧ precedes f.1 g.1 = false :=
      fun g hg => hlast g hg f (List.mem_singleton_self f)
    have hbefore := ih hfields
    rw [ofEntries] at hbefore
    rw [ofEntries, List.foldl_append, hbefore]
    exact setProperty_last hall

end Fields

end JsonText

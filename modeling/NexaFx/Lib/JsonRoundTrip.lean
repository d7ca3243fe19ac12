import NexaFx.Lib.JsonText

/-!
# What JSON texts keep of a value

* `regular_parse` — `JSON.parse` makes regular values of numbers that are read:
  properties in order, finite doubles and infinities (`1e999`);
* `parse_stringify` — a regular value of finite numbers is read back from its text;
* `parse_stringify_finite` — any value that was read comes back with its infinities
  as `null`;
* `stringify_eq_iff` — so that is what two values with one text have in common.
-/

namespace JsonText

open Js

-- ---------------------------------------------------------------------------
-- Regular values
-- ---------------------------------------------------------------------------

/-- A value of numbers of one kind, with all properties in order. -/
inductive Regular (kind : Js.Num → Prop) : Value → Prop
  | null : Regular kind .null
  | bool (b : Bool) : Regular kind (.bool b)
  | num {x : Js.Num} (h : kind x) : Regular kind (.num x)
  | str (s : Text) : Regular kind (.str s)
  | arr {elems : List Value} (h : ∀ v ∈ elems, Regular kind v) : Regular kind (.arr elems)
  | obj {fields : List (Text × Value)} (horder : InOrder fields)
    (h : ∀ f ∈ fields, Regular kind f.2) : Regular kind (.obj fields)

/-- A number that has a text of its own. -/
def Finite (x : Js.Num) : Prop := ∃ q, x = .fin q ∧ IsDouble q

/-- A number that a text can have. -/
def Read (x : Js.Num) : Prop := x ≠ .nan ∧ ∀ q, x = .fin q → IsDouble q

theorem read_readNumber {t : List Char} {x : Js.Num} (h : readNumber t = some x) : Read x := by
  refine ⟨?_, ?_⟩
  · rintro rfl
    exact readNumber_ne_nan h
  · rintro q rfl
    exact isDouble_readNumber h

-- ---------------------------------------------------------------------------
-- What is read
-- ---------------------------------------------------------------------------

theorem regular_parseName {s rest : Text} {v : Value} (h : parseName s = some (v, rest)) :
    Regular Read v := by
  unfold parseName at h
  split_ifs at h <;> cases h
  · exact .null
  · exact .bool true
  · exact .bool false

/-- What the three functions make with some fuel. -/
structure MakesRegular (fuel : ℕ) : Prop where
  value : ∀ s v rest, parseValue fuel s = some (v, rest) → Regular Read v
  elems : ∀ s vs rest, parseElems fuel s = some (vs, rest) → ∀ v ∈ vs, Regular Read v
  fields : ∀ s fs rest, parseFields fuel s = some (fs, rest) → ∀ f ∈ fs, Regular Read f.2

section Making

variable {fuel : ℕ} {s rest : Text} {v : Value}

theorem MakesRegular.parseValue_succ (h : MakesRegular fuel)
    (hparse : parseValue (fuel + 1) s = some (v, rest)) : Regular Read v := by
  rw [parseValue] at hparse
  split at hparse
  · cases hparse
  split_ifs at hparse
  · obtain ⟨p, -, hp⟩ := Option.map_eq_some_iff.mp hparse
    cases hp
    exact .str p.1
  · split at hparse
    · cases hparse
      exact .arr (by simp)
    · obtain ⟨p, helems, hp⟩ := Option.map_eq_some_iff.mp hparse
      cases hp
      exact .arr (h.elems _ _ _ helems)
  · split at hparse
    · cases hparse
      exact .obj List.Pairwise.nil (by simp)
    · obtain ⟨p, hfields, hp⟩ := Option.map_eq_some_iff.mp hparse
      cases hp
      exact .obj (inOrder_ofEntries p.1) fun f hf => h.fields _ _ _ hfields f (mem_ofEntries hf)
  · obtain ⟨x, hx, hp⟩ := Option.map_eq_some_iff.mp hparse
    cases hp
    exact .num (read_readNumber hx)
  · exact regular_parseName hparse

theorem MakesRegular.parseElems_succ (h : MakesRegular fuel) {vs : List Value}
    (hparse : parseElems (fuel + 1) s = some (vs, rest)) : ∀ v ∈ vs, Regular Read v := by
  rw [parseElems] at hparse
  split at hparse
  · cases hparse
  rename_i w rest' hw
  have hregular := h.value _ _ _ hw
  split at hparse
  · cases hparse
    simpa using hregular
  · obtain ⟨s', -, hmore⟩ := Option.bind_eq_some_iff.mp hparse
    obtain ⟨p, helems, hp⟩ := Option.map_eq_some_iff.mp hmore
    cases hp
    exact List.forall_mem_cons.mpr ⟨hregular, h.elems _ _ _ helems⟩

theorem MakesRegular.parseFields_succ (h : MakesRegular fuel) {fs : List (Text × Value)}
    (hparse : parseFields (fuel + 1) s = some (fs, rest)) : ∀ f ∈ fs, Regular Read f.2 := by
  rw [parseFields] at hparse
  split at hparse
  · cases hparse
  split at hparse
  · cases hparse
  rename_i w rest' hw
  obtain ⟨s', -, hvalue⟩ := Option.bind_eq_some_iff.mp hw
  have hregular := h.value _ _ _ hvalue
  split at hparse
  · cases hparse
    simpa using hregular
  · obtain ⟨s', -, hmore⟩ := Option.bind_eq_some_iff.mp hparse
    obtain ⟨p, hfields, hp⟩ := Option.map_eq_some_iff.mp hmore
    cases hp
    exact List.forall_mem_cons.mpr ⟨hregular, h.fields _ _ _ hfields⟩

theorem makesRegular (fuel : ℕ) : MakesRegular fuel := by
  induction fuel with
  | zero =>
    constructor
    all_goals
      intro s x rest h
      cases h
  | succ fuel ih =>
    exact ⟨fun _ _ _ => ih.parseValue_succ, fun _ _ _ => ih.parseElems_succ,
      fun _ _ _ => ih.parseFields_succ⟩

/-- **What is read is regular.** -/
theorem regular_parse (h : parse s = some v) : Regular Read v := by
  unfold parse at h
  split at h
  · rename_i w rest hw
    split at h
    · cases h
      exact (makesRegular _).value _ _ _ hw
    · cases h
  · cases h

end Making

-- ---------------------------------------------------------------------------
-- Behind and in front of a value
-- ---------------------------------------------------------------------------

/-- What may come behind a number. -/
def NotNumeric (rest : Text) : Prop := ∀ u, rest.head? = some u → isNumeric u = false

/-- The text starts with a character that is neither white space nor a closing bracket. -/
def Opens (t : Text) : Prop := ∃ u rest, t = u :: rest ∧ isSpace u = false ∧ u ≠ unit ']'

section Reading

variable {s t rest : Text} {c : Char} {u : UInt16}

theorem skipSpace_cons (h : isSpace u = false) : skipSpace (u :: rest) = u :: rest := by
  simp [skipSpace, h]

theorem expect_unit (h : isSpace (unit c) = false) : expect c (unit c :: rest) = some rest := by
  rw [expect, skipSpace_cons h]
  exact if_pos rfl

theorem expect_other (h : isSpace u = false) (hne : u ≠ unit c) : expect c (u :: rest) = none := by
  rw [expect, skipSpace_cons h]
  exact if_neg hne

theorem Opens.append (h : Opens t) : Opens (t ++ rest) := by
  obtain ⟨u, t', rfl, hspace, hne⟩ := h
  exact ⟨u, t' ++ rest, rfl, hspace, hne⟩

theorem Opens.expect_bracket (h : Opens t) : expect ']' t = none := by
  obtain ⟨u, t', rfl, hspace, hne⟩ := h
  exact expect_other hspace hne

theorem Opens.length_pos (h : Opens t) : 0 < t.length := by
  obtain ⟨u, t', rfl, -, -⟩ := h
  exact Nat.succ_pos _

theorem opens_unit (hspace : isSpace (unit c) = false) (hne : unit c ≠ unit ']') :
    Opens (unit c :: t) := ⟨_, _, rfl, hspace, hne⟩

theorem opens_quoted (s : Text) : Opens (quoted s) := opens_unit (by decide) (by decide)

theorem quoted_append (k : Text) :
    quoted k ++ rest = unit '"' :: (escaped k ++ unit '"' :: rest) := by
  simp [quoted]

theorem notNumeric_unit (h : isNumeric (unit c) = false) : NotNumeric (unit c :: rest) := by
  intro u hu
  cases hu
  exact h

theorem numeric_ne (hu : isNumeric u = true) (hc : isNumeric (unit c) = false) : u ≠ unit c := by
  rintro rfl
  rw [hu] at hc
  cases hc

theorem isSpace_numeric (hu : isNumeric u = true) : isSpace u = false := by
  have hall : ((units "0123456789+-.eE").all fun u => !isSpace u) = true := by decide
  simpa using List.all_eq_true.mp hall u (List.contains_iff_mem.mp hu)

end Reading

-- ---------------------------------------------------------------------------
-- Numbers are read back
-- ---------------------------------------------------------------------------

section Numbers

theorem isNumeric_unit {c : Char} (h : NumberChar c) : isNumeric (unit c) = true := by
  rcases h with hdigit | hmem
  · obtain ⟨hlow, hhigh⟩ := Char.isDigit_iff_toNat.mp hdigit
    have hall : ∀ n < 10, isNumeric (UInt16.ofNat (48 + n)) = true := by decide
    have hlow' : 48 ≤ c.toNat := hlow
    have hhigh' : c.toNat ≤ 57 := hhigh
    have hspec := hall (c.toNat - 48) (by omega)
    rwa [Nat.add_sub_cancel' hlow'] at hspec
  · have hall : (['+', '-', '.', 'e', 'E'].all fun c => isNumeric (unit c)) = true := by decide
    exact List.all_eq_true.mp hall c hmem

theorem char_of_unit {c : Char} (h : NumberChar c) : Char.ofNat (unit c).toNat = c := by
  have hlt : c.toNat < 128 := by
    rcases h with hdigit | hmem
    · have hhigh : c.toNat ≤ 57 := (Char.isDigit_iff_toNat.mp hdigit).2
      omega
    · have hall : (['+', '-', '.', 'e', 'E'].all fun c => decide (c.toNat < 128)) = true := by
        decide
      simpa using List.all_eq_true.mp hall c hmem
  rw [unit, UInt16.toNat_ofNat_of_lt' (lt_trans hlt (by decide)), Char.ofNat_toNat]

variable {ds : List Char} {rest : Text}

theorem chars_units (h : ∀ c ∈ ds, NumberChar c) : chars (ds.map unit) = ds := by
  rw [chars, List.map_map]
  exact (List.map_congr_left fun c hc => char_of_unit (h c hc)).trans (List.map_id ds)

theorem all_numeric (h : ∀ c ∈ ds, NumberChar c) : ∀ u ∈ ds.map unit, isNumeric u = true := by
  intro u hu
  obtain ⟨c, hc, rfl⟩ := List.mem_map.mp hu
  exact isNumeric_unit (h c hc)

theorem takeWhile_numeric (h : ∀ c ∈ ds, NumberChar c) (hrest : NotNumeric rest) :
    (ds.map unit ++ rest).takeWhile isNumeric = ds.map unit := by
  rw [List.takeWhile_append_of_pos (all_numeric h)]
  cases rest with
  | nil => simp
  | cons u rest => simp [hrest u rfl]

theorem dropWhile_numeric (h : ∀ c ∈ ds, NumberChar c) (hrest : NotNumeric rest) :
    (ds.map unit ++ rest).dropWhile isNumeric = rest := by
  rw [List.dropWhile_append_of_pos (all_numeric h)]
  cases rest with
  | nil => simp
  | cons u rest => simp [hrest u rfl]

end Numbers

-- ---------------------------------------------------------------------------
-- Values are read back
-- ---------------------------------------------------------------------------

/-- The value is read back, in front of what cannot belong to it. -/
structure Reads (v : Value) : Prop where
  opens : Opens (stringify v)
  read : ∀ fuel rest, (stringify v).length ≤ fuel → NotNumeric rest →
    parseValue fuel (stringify v ++ rest) = some (v, rest)

section Values

variable {v : Value} {rest : Text} {fuel : ℕ}

/-- A text that is not empty comes with fuel for a step. -/
theorem Reads.of_succ (hopens : Opens (stringify v))
    (h : ∀ fuel rest, (stringify v).length ≤ fuel + 1 → NotNumeric rest →
      parseValue (fuel + 1) (stringify v ++ rest) = some (v, rest)) : Reads v := by
  refine ⟨hopens, fun fuel rest hfuel hrest => ?_⟩
  have hpos := hopens.length_pos
  obtain ⟨n, rfl⟩ : ∃ n, fuel = n + 1 := ⟨fuel - 1, by omega⟩
  exact h n rest hfuel hrest

/-- A name is read back. -/
theorem parseValue_name {s : Text} {u : UInt16} (hu : isSpace u = false)
    (hother : u ≠ unit '"' ∧ u ≠ unit '[' ∧ u ≠ unit '{') (hnumeric : isNumeric u = false)
    (hname : parseName (u :: s ++ rest) = some (v, rest)) :
    parseValue (fuel + 1) (u :: s ++ rest) = some (v, rest) := by
  rw [List.cons_append, parseValue, skipSpace_cons hu]
  dsimp only
  rw [if_neg hother.1, if_neg hother.2.1, if_neg hother.2.2, if_neg (by rw [hnumeric]; decide)]
  exact hname

theorem reads_null : Reads .null :=
  .of_succ (opens_unit (by decide) (by decide)) fun _ _ _ _ =>
    parseValue_name (by decide) (by decide) (by decide) rfl

theorem reads_bool (b : Bool) : Reads (.bool b) := by
  cases b with
  | true =>
    exact .of_succ (opens_unit (by decide) (by decide)) fun _ _ _ _ =>
      parseValue_name (by decide) (by decide) (by decide) rfl
  | false =>
    exact .of_succ (opens_unit (by decide) (by decide)) fun _ _ _ _ =>
      parseValue_name (by decide) (by decide) (by decide) rfl

theorem reads_num {q : ℚ} (hq : IsDouble q) : Reads (.num (.fin q)) := by
  obtain ⟨hne, hchars⟩ := numberChar_toText hq
  obtain ⟨c, ds, hcons⟩ := List.exists_cons_of_ne_nil hne
  have hc : isNumeric (unit c) = true := isNumeric_unit (hchars c (hcons ▸ List.mem_cons_self))
  have htext : stringify (.num (.fin q)) = unit c :: ds.map unit := by
    rw [stringify, hcons]
    rfl
  refine .of_succ ⟨_, _, htext, isSpace_numeric hc, numeric_ne hc (by decide)⟩
    fun fuel rest _ hrest => ?_
  have htake := takeWhile_numeric hchars hrest
  have hdrop := dropWhile_numeric hchars hrest
  rw [hcons, List.map_cons, List.cons_append] at htake hdrop
  rw [htext, List.cons_append, parseValue, skipSpace_cons (isSpace_numeric hc)]
  dsimp only
  rw [if_neg (numeric_ne hc (by decide)), if_neg (numeric_ne hc (by decide)),
    if_neg (numeric_ne hc (by decide)), if_pos hc, htake, hdrop, ← List.map_cons, ← hcons,
    chars_units hchars, readNumber_toText hq]
  rfl

theorem reads_str (s : Text) : Reads (.str s) := by
  refine .of_succ (opens_quoted s) fun fuel rest _ _ => ?_
  rw [stringify, quoted_append, parseValue, skipSpace_cons (by decide)]
  dsimp only
  rw [if_pos rfl, parseString_escaped]
  rfl

/-- The elements, one after the other. -/
theorem parseElems_stringify {elems : List Value} (hv : Reads v) (helems : ∀ w ∈ elems, Reads w)
    (hfuel : (stringify v).length + (moreElems elems).length ≤ fuel) :
    parseElems fuel (stringify v ++ (moreElems elems ++ rest)) = some (v :: elems, rest) := by
  have hpos := hv.opens.length_pos
  obtain ⟨n, rfl⟩ : ∃ n, fuel = n + 1 := ⟨fuel - 1, by omega⟩
  induction elems generalizing v n with
  | nil =>
    have hlength : (moreElems []).length = 1 := rfl
    have hread := hv.read n (unit ']' :: rest) (by omega) (notNumeric_unit (by decide))
    show parseElems (n + 1) (stringify v ++ unit ']' :: rest) = _
    rw [parseElems, hread]
    dsimp only
    rw [expect_unit (by decide)]
  | cons w elems ih =>
    obtain ⟨hw, hmore⟩ := List.forall_mem_cons.mp helems
    have hwpos := hw.opens.length_pos
    have hlength : (moreElems (w :: elems)).length =
        (stringify w).length + (moreElems elems).length + 1 := by
      simp [moreElems]
    have htext : moreElems (w :: elems) ++ rest =
        unit ',' :: (stringify w ++ (moreElems elems ++ rest)) := by
      simp [moreElems]
    have hread := hv.read n (moreElems (w :: elems) ++ rest) (by omega)
      (htext ▸ notNumeric_unit (by decide))
    obtain ⟨m, rfl⟩ : ∃ m, n = m + 1 := ⟨n - 1, by omega⟩
    rw [parseElems, hread]
    dsimp only
    rw [htext, expect_other (by decide) (by decide), expect_unit (by decide), Option.bind_some,
      ih hw hmore hwpos m (by omega)]
    rfl

theorem reads_arr {elems : List Value} (h : ∀ v ∈ elems, Reads v) : Reads (.arr elems) := by
  cases elems with
  | nil =>
    refine .of_succ (opens_unit (by decide) (by decide)) fun fuel rest _ _ => ?_
    show parseValue (fuel + 1) (unit '[' :: unit ']' :: rest) = _
    rw [parseValue, skipSpace_cons (by decide)]
    dsimp only
    rw [if_neg (by decide), if_pos rfl, expect_unit (by decide)]
  | cons v elems =>
    obtain ⟨hv, hmore⟩ := List.forall_mem_cons.mp h
    refine .of_succ (opens_unit (by decide) (by decide)) fun fuel rest hfuel _ => ?_
    have hlength : (stringify (.arr (v :: elems))).length =
        (stringify v).length + (moreElems elems).length + 1 := by
      simp [stringify]
    have htext : stringify (.arr (v :: elems)) ++ rest =
        unit '[' :: (stringify v ++ (moreElems elems ++ rest)) := by
      simp [stringify]
    rw [htext, parseValue, skipSpace_cons (by decide)]
    dsimp only
    rw [if_neg (by decide), if_pos rfl, hv.opens.append.expect_bracket,
      parseElems_stringify hv hmore (by omega)]
    rfl

/-- The properties, one after the other. -/
theorem parseFields_stringify {fields : List (Text × Value)} {k : Text} (hv : Reads v)
    (hfields : ∀ f ∈ fields, Reads f.2)
    (hfuel : (stringify v).length + (moreFields fields).length < fuel) :
    parseFields fuel (quoted k ++ unit ':' :: (stringify v ++ (moreFields fields ++ rest))) =
      some ((k, v) :: fields, rest) := by
  obtain ⟨n, rfl⟩ : ∃ n, fuel = n + 1 := ⟨fuel - 1, by omega⟩
  induction fields generalizing k v n with
  | nil =>
    have hread := hv.read n (unit '}' :: rest) (by omega) (notNumeric_unit (by decide))
    show parseFields (n + 1) (quoted k ++ unit ':' :: (stringify v ++ unit '}' :: rest)) = _
    rw [parseFields, quoted_append, expect_unit (by decide), Option.bind_some, parseString_escaped]
    dsimp only
    rw [expect_unit (by decide), Option.bind_some, hread]
    dsimp only
    rw [expect_unit (by decide)]
  | cons f fields ih =>
    obtain ⟨k', w⟩ := f
    obtain ⟨hw, hmore⟩ : Reads w ∧ ∀ f ∈ fields, Reads f.2 := List.forall_mem_cons.mp hfields
    have hlength : (stringify w).length + (moreFields fields).length <
        (moreFields ((k', w) :: fields)).length := by
      simp [moreFields]
      omega
    have htext : moreFields ((k', w) :: fields) ++ rest = unit ',' ::
        (quoted k' ++ unit ':' :: (stringify w ++ (moreFields fields ++ rest))) := by
      simp [moreFields]
    have hread := hv.read n (moreFields ((k', w) :: fields) ++ rest) (by omega)
      (htext ▸ notNumeric_unit (by decide))
    obtain ⟨m, rfl⟩ : ∃ m, n = m + 1 := ⟨n - 1, by omega⟩
    rw [parseFields, quoted_append, expect_unit (by decide), Option.bind_some, parseString_escaped]
    dsimp only
    rw [expect_unit (by decide), Option.bind_some, hread]
    dsimp only
    rw [htext, expect_other (by decide) (by decide), expect_unit (by decide), Option.bind_some,
      ih hw hmore m (by omega)]
    rfl

theorem reads_obj {fields : List (Text × Value)} (horder : InOrder fields)
    (h : ∀ f ∈ fields, Reads f.2) : Reads (.obj fields) := by
  cases fields with
  | nil =>
    refine .of_succ (opens_unit (by decide) (by decide)) fun fuel rest _ _ => ?_
    show parseValue (fuel + 1) (unit '{' :: unit '}' :: rest) = _
    rw [parseValue, skipSpace_cons (by decide)]
    dsimp only
    rw [if_neg (by decide), if_neg (by decide), if_pos rfl, expect_unit (by decide)]
  | cons f fields =>
    obtain ⟨k, v⟩ := f
    obtain ⟨hv, hmore⟩ : Reads v ∧ ∀ f ∈ fields, Reads f.2 := List.forall_mem_cons.mp h
    refine .of_succ (opens_unit (by decide) (by decide)) fun fuel rest hfuel _ => ?_
    have hlength : (stringify v).length + (moreFields fields).length + 2 <
        (stringify (.obj ((k, v) :: fields))).length := by
      simp [stringify, quoted]
      omega
    have htext : stringify (.obj ((k, v) :: fields)) ++ rest =
        unit '{' :: (quoted k ++ unit ':' :: (stringify v ++ (moreFields fields ++ rest))) := by
      simp [stringify]
    have hread : parseFields fuel
        (quoted k ++ unit ':' :: (stringify v ++ (moreFields fields ++ rest))) =
        some ((k, v) :: fields, rest) :=
      parseFields_stringify hv hmore (by omega)
    rw [htext, parseValue, skipSpace_cons (by decide)]
    dsimp only
    rw [if_neg (by decide), if_neg (by decide), if_pos rfl, quoted_append,
      expect_other (by decide) (by decide), ← quoted_append, hread, Option.map_some,
      ofEntries_of_inOrder horder]

end Values

/-- **Values are read back.** -/
theorem reads_of_regular {v : Value} (h : Regular Finite v) : Reads v := by
  induction h with
  | null => exact reads_null
  | bool b => exact reads_bool b
  | num h =>
    obtain ⟨q, rfl, hq⟩ := h
    exact reads_num hq
  | str s => exact reads_str s
  | arr _ ih => exact reads_arr ih
  | obj horder _ ih => exact reads_obj horder ih

/-- **`JSON.parse` undoes `JSON.stringify`.** -/
theorem parse_stringify {v : Value} (h : Regular Finite v) : parse (stringify v) = some v := by
  have hread := (reads_of_regular h).read (stringify v).length [] le_rfl fun _ hu => by cases hu
  rw [List.append_nil] at hread
  rw [parse, hread]
  rfl

-- ---------------------------------------------------------------------------
-- Infinities
-- ---------------------------------------------------------------------------

mutual

/-- The value with `null` for the numbers that JSON does not have. -/
def Value.finite : Value → Value
  | .null => .null
  | .bool b => .bool b
  | .num (.fin q) => .num (.fin q)
  | .num _ => .null
  | .str s => .str s
  | .arr elems => .arr (finiteElems elems)
  | .obj fields => .obj (finiteFields fields)

def finiteElems : List Value → List Value
  | [] => []
  | v :: rest => v.finite :: finiteElems rest

def finiteFields : List (Text × Value) → List (Text × Value)
  | [] => []
  | (k, v) :: rest => (k, v.finite) :: finiteFields rest

end

theorem finiteElems_eq (elems : List Value) : finiteElems elems = elems.map Value.finite := by
  induction elems with
  | nil => rfl
  | cons v rest ih => rw [finiteElems, ih, List.map_cons]

theorem finiteFields_eq (fields : List (Text × Value)) :
    finiteFields fields = fields.map fun f => (f.1, f.2.finite) := by
  induction fields with
  | nil => rfl
  | cons f rest ih => rw [finiteFields, ih, List.map_cons]

mutual

theorem stringify_finite : ∀ v : Value, stringify v.finite = stringify v
  | .null => rfl
  | .bool _ => rfl
  | .num (.fin _) => rfl
  | .num .nan => rfl
  | .num (.inf _) => rfl
  | .str _ => rfl
  | .arr [] => rfl
  | .arr (v :: rest) => by
    rw [Value.finite, finiteElems, stringify, stringify, stringify_finite v, moreElems_finite rest]
  | .obj [] => rfl
  | .obj ((k, v) :: rest) => by
    rw [Value.finite, finiteFields, stringify, stringify, stringify_finite v,
      moreFields_finite rest]

theorem moreElems_finite : ∀ elems : List Value, moreElems (finiteElems elems) = moreElems elems
  | [] => rfl
  | v :: rest => by
    rw [finiteElems, moreElems, moreElems, stringify_finite v, moreElems_finite rest]

theorem moreFields_finite :
    ∀ fields : List (Text × Value), moreFields (finiteFields fields) = moreFields fields
  | [] => rfl
  | (k, v) :: rest => by
    rw [finiteFields, moreFields, moreFields, stringify_finite v, moreFields_finite rest]

end

theorem regular_finite {v : Value} (h : Regular Read v) : Regular Finite v.finite := by
  induction h with
  | null => exact .null
  | bool b => exact .bool b
  | @num x h =>
    cases x with
    | nan => exact absurd rfl h.1
    | inf negative => exact .null
    | fin q => exact .num ⟨q, rfl, h.2 q rfl⟩
  | str s => exact .str s
  | arr _ ih =>
    rw [Value.finite, finiteElems_eq]
    exact .arr (List.forall_mem_map.mpr ih)
  | obj horder _ ih =>
    rw [Value.finite, finiteFields_eq]
    exact .obj (inOrder_map horder _) (List.forall_mem_map.mpr ih)

section Texts

variable {v w : Value}

/-- **A value that was read is read back.** -/
theorem parse_stringify_finite (h : Regular Read v) : parse (stringify v) = some v.finite := by
  rw [← stringify_finite v]
  exact parse_stringify (regular_finite h)

/-- **What two values with one text have in common.** -/
theorem stringify_eq_iff (hv : Regular Read v) (hw : Regular Read w) :
    stringify v = stringify w ↔ v.finite = w.finite := by
  constructor
  · intro h
    have hparse := parse_stringify_finite hv
    rw [h, parse_stringify_finite hw] at hparse
    exact (Option.some.inj hparse).symm
  · intro h
    rw [← stringify_finite v, h, stringify_finite w]

end Texts

end JsonText

import Mathlib.Tactic

/-!
# JSON values and the values at given keys

`Json` has objects as the list of their own properties, in order. `fill key x`
puts `x` at every key of a set, at any depth. Two values are equal but for what
stands at these keys when `fill` makes them equal; and `fill` tells whether
there is such a key: it changes nothing when there is none (`fill_of_keyless`),
and depends on `x` when there is one (`fill_injective`).
-/

inductive Json where
  | null
  | bool (b : Bool)
  | num (q : ℚ)
  | str (s : String)
  | arr (elems : List Json)
  | obj (fields : List (String × Json))

namespace Json

/-- Induction over the values. -/
theorem induct {P : Json → Prop} (null : P .null) (bool : ∀ b, P (.bool b)) (num : ∀ q, P (.num q))
    (str : ∀ s, P (.str s)) (arr : ∀ elems, (∀ j ∈ elems, P j) → P (.arr elems))
    (obj : ∀ fields, (∀ f ∈ fields, P f.2) → P (.obj fields)) (j : Json) : P j :=
  match j with
  | .null => null
  | .bool b => bool b
  | .num q => num q
  | .str s => str s
  | .arr elems => arr elems fun j _ => induct null bool num str arr obj j
  | .obj fields => obj fields fun f _ => induct null bool num str arr obj f.2
termination_by sizeOf j
decreasing_by
  · rename_i hj
    have hlt := List.sizeOf_lt_of_mem hj
    simp only [Json.arr.sizeOf_spec]
    omega
  · rename_i hf
    have hlt := List.sizeOf_lt_of_mem hf
    obtain ⟨k, v⟩ := f
    simp only [Json.obj.sizeOf_spec, Prod.mk.sizeOf_spec] at hlt ⊢
    omega

/-- The value of a property. -/
def get (k : String) : Json → Option Json
  | .obj fields => (fields.find? fun f => f.1 = k).map Prod.snd
  | _ => none

/-- `!value` -/
def falsy : Json → Bool
  | .null => true
  | .bool b => !b
  | .num q => q = 0
  | .str s => s = ""
  | _ => false

section Keys

variable (key : String → Bool)

mutual

/-- `x` in place of what stands at the keys. -/
def fill (x : Json) : Json → Json
  | .arr elems => .arr (fillList x elems)
  | .obj fields => .obj (fillFields x fields)
  | j => j

def fillList (x : Json) : List Json → List Json
  | [] => []
  | j :: rest => fill x j :: fillList x rest

def fillFields (x : Json) : List (String × Json) → List (String × Json)
  | [] => []
  | (k, v) :: rest => (k, if key k = true then x else fill x v) :: fillFields x rest

end

mutual

/-- One of the keys occurs, at any depth. -/
def keyed : Json → Bool
  | .arr elems => keyedList elems
  | .obj fields => keyedFields fields
  | _ => false

def keyedList : List Json → Bool
  | [] => false
  | j :: rest => keyed j || keyedList rest

def keyedFields : List (String × Json) → Bool
  | [] => false
  | (k, v) :: rest => key k || keyed v || keyedFields rest

end

variable {key}

theorem fillList_eq_map (x : Json) (elems : List Json) :
    fillList key x elems = elems.map (fill key x) := by
  induction elems with
  | nil => rw [fillList, List.map_nil]
  | cons j rest ih => rw [fillList, ih, List.map_cons]

theorem fillFields_eq_map (x : Json) (fields : List (String × Json)) :
    fillFields key x fields =
      fields.map fun f => (f.1, if key f.1 = true then x else fill key x f.2) := by
  induction fields with
  | nil => rw [fillFields, List.map_nil]
  | cons f rest ih => rw [fillFields, ih, List.map_cons]

@[simp] theorem fill_arr (x : Json) (elems : List Json) :
    fill key x (.arr elems) = .arr (elems.map (fill key x)) := by
  rw [fill, fillList_eq_map]

@[simp] theorem fill_obj (x : Json) (fields : List (String × Json)) :
    fill key x (.obj fields) =
      .obj (fields.map fun f => (f.1, if key f.1 = true then x else fill key x f.2)) := by
  rw [fill, fillFields_eq_map]

theorem keyedList_eq_any (elems : List Json) : keyedList key elems = elems.any (keyed key) := by
  induction elems with
  | nil => rw [keyedList, List.any_nil]
  | cons j rest ih => rw [keyedList, ih, List.any_cons]

theorem keyedFields_eq_any (fields : List (String × Json)) :
    keyedFields key fields = fields.any fun f => key f.1 || keyed key f.2 := by
  induction fields with
  | nil => rw [keyedFields, List.any_nil]
  | cons f rest ih => rw [keyedFields, ih, List.any_cons]

@[simp] theorem keyed_arr (elems : List Json) :
    keyed key (.arr elems) = elems.any (keyed key) := by
  rw [keyed, keyedList_eq_any]

@[simp] theorem keyed_obj (fields : List (String × Json)) :
    keyed key (.obj fields) = fields.any fun f => key f.1 || keyed key f.2 := by
  rw [keyed, keyedFields_eq_any]

/-- The last value filled in is the one that stays. -/
theorem fill_fill (x y : Json) (j : Json) : fill key y (fill key x j) = fill key y j := by
  induction j using induct with
  | null => rfl
  | bool b => rfl
  | num q => rfl
  | str s => rfl
  | arr elems ih =>
    rw [fill_arr, fill_arr, fill_arr, List.map_map]
    exact congrArg _ (List.map_congr_left ih)
  | obj fields ih =>
    rw [fill_obj, fill_obj, fill_obj, List.map_map]
    refine congrArg _ (List.map_congr_left fun f hf => ?_)
    rw [Function.comp_apply]
    split
    · rfl
    · rw [ih f hf]

/-- Where none of the keys occurs there is nothing to fill. -/
theorem fill_of_keyless (x : Json) {j : Json} (h : keyed key j = false) : fill key x j = j := by
  induction j using induct with
  | null => rfl
  | bool b => rfl
  | num q => rfl
  | str s => rfl
  | arr elems ih =>
    rw [keyed_arr, List.any_eq_false] at h
    rw [fill_arr]
    refine congrArg _ ?_
    calc elems.map (fill key x) = elems.map id :=
          List.map_congr_left fun j hj => ih j hj (by simpa using h j hj)
      _ = elems := List.map_id _
  | obj fields ih =>
    rw [keyed_obj, List.any_eq_false] at h
    rw [fill_obj]
    refine congrArg _ ?_
    calc (fields.map fun f => (f.1, if key f.1 = true then x else fill key x f.2)) =
          fields.map id := by
            refine List.map_congr_left fun f hf => ?_
            have hnone := h f hf
            rw [Bool.not_eq_true, Bool.or_eq_false_iff] at hnone
            rw [if_neg (by simp [hnone.1]), ih f hf hnone.2]
            rfl
      _ = fields := List.map_id _

/-- The keys stay. -/
theorem keyed_fill (x : Json) (j : Json) : keyed key (fill key x j) = true ↔ keyed key j = true := by
  induction j using induct with
  | null => rfl
  | bool b => rfl
  | num q => rfl
  | str s => rfl
  | arr elems ih =>
    simp only [fill_arr, keyed_arr, List.any_map, List.any_eq_true, Function.comp_apply]
    exact exists_congr fun j => and_congr_right (ih j)
  | obj fields ih =>
    simp only [fill_obj, keyed_obj, List.any_map, List.any_eq_true, Function.comp_apply,
      Bool.or_eq_true]
    refine exists_congr fun f => and_congr_right fun hf => ?_
    by_cases hkey : key f.1 = true
    · simp [hkey]
    · rw [if_neg hkey]
      exact or_congr_right (ih f hf)

/-- Where one of them occurs, what is filled in shows. -/
theorem fill_injective {x y : Json} (hne : x ≠ y) {j : Json} (h : keyed key j = true) :
    fill key x j ≠ fill key y j := by
  induction j using induct with
  | null => simp [keyed] at h
  | bool b => simp [keyed] at h
  | num q => simp [keyed] at h
  | str s => simp [keyed] at h
  | arr elems ih =>
    rw [keyed_arr, List.any_eq_true] at h
    obtain ⟨j, hj, hkeyed⟩ := h
    rw [fill_arr, fill_arr]
    intro heq
    exact ih j hj hkeyed (List.map_inj_left.mp (Json.arr.inj heq) j hj)
  | obj fields ih =>
    rw [keyed_obj, List.any_eq_true] at h
    obtain ⟨f, hf, hkeyed⟩ := h
    rw [fill_obj, fill_obj]
    intro heq
    have hsame := congrArg Prod.snd (List.map_inj_left.mp (Json.obj.inj heq) f hf)
    dsimp only at hsame
    by_cases hkey : key f.1 = true
    · rw [if_pos hkey, if_pos hkey] at hsame
      exact hne hsame
    · rw [if_neg hkey, if_neg hkey] at hsame
      rw [Bool.or_eq_true] at hkeyed
      exact ih f hf (hkeyed.resolve_left hkey) hsame

/-- Equal but for what stands at the keys, and with none of them: equal. -/
theorem eq_of_fill_eq {x j j' : Json} (hfill : fill key x j = fill key x j')
    (h : keyed key j = false) : j' = j := by
  have h' : keyed key j' = false := by
    rw [← Bool.not_eq_true, ← keyed_fill x, ← hfill, keyed_fill, h]
    exact Bool.false_ne_true
  rw [← fill_of_keyless x h', ← hfill, fill_of_keyless x h]

end Keys

end Json

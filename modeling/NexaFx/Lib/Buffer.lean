import NexaFx.Lib.JsNumber

/-!
# Byte buffers

What Node's `Buffer` does: `subarray` with its negative offsets, and the
encodings `base64`, `hex` and `utf8`. Each writer is undone by its reader
(`fromBase64_toBase64`, `fromUtf8_toUtf8`).
-/

namespace Buffer

abbrev Bytes := List UInt8

/-! ## Slices -/

/-- An offset into `length` bytes; a negative one counts from the end. -/
def offset (length : ℕ) (i : ℤ) : ℕ :=
  if i < 0 then (length + i).toNat else min i.toNat length

/-- The bytes from `start` up to `stop`; none where these cross. -/
def subarray (bytes : Bytes) (start stop : ℤ) : Bytes :=
  (bytes.take (offset bytes.length stop)).drop (offset bytes.length start)

/-- The bytes from `start` on. -/
def subarrayFrom (bytes : Bytes) (start : ℤ) : Bytes :=
  subarray bytes start bytes.length

theorem offset_natCast (length i : ℕ) : offset length i = min i length := by
  rw [offset, if_neg (by omega), Int.toNat_natCast]

/-- `length - k` counts from the end where it is negative. -/
theorem offset_sub (length k : ℕ) :
    offset length (length - k) = if k ≤ length then length - k else 2 * length - k := by
  unfold offset
  split <;> split <;> omega

theorem subarray_natCast (bytes : Bytes) (start stop : ℕ) :
    subarray bytes start stop = (bytes.take stop).drop start := by
  rw [subarray, offset_natCast, offset_natCast, ← List.take_eq_take_min]
  rcases Nat.le_total start bytes.length with h | h
  · rw [Nat.min_eq_left h]
  · have hshort : (bytes.take stop).length ≤ bytes.length := List.length_take_le' _ _
    rw [Nat.min_eq_right h, List.drop_eq_nil_of_le hshort, List.drop_eq_nil_of_le (hshort.trans h)]

theorem subarray_zero (bytes : Bytes) (stop : ℕ) : subarray bytes 0 stop = bytes.take stop :=
  subarray_natCast bytes 0 stop

theorem subarrayFrom_eq (bytes : Bytes) (start : ℤ) :
    subarrayFrom bytes start = bytes.drop (offset bytes.length start) := by
  rw [subarrayFrom, subarray, offset_natCast, Nat.min_self, List.take_length]

theorem subarrayFrom_natCast (bytes : Bytes) (start : ℕ) :
    subarrayFrom bytes start = bytes.drop start := by
  rw [subarrayFrom, subarray_natCast, List.take_length]

/-! ## base64 -/

def base64Alphabet : List Char :=
  "ABCDEFGHIJKLMNOPQRSTUVWXYZabcdefghijklmnopqrstuvwxyz0123456789+/".toList

def base64Char (n : ℕ) : Char := base64Alphabet.getD n 'A'

/-- The value of a character; the reader takes both alphabets. -/
def sextet (char : Char) : Option ℕ :=
  if char = '-' then some 62
  else if char = '_' then some 63
  else base64Alphabet.findIdx? (· = char)

/-- Three bytes as four groups of six bits. -/
def sextetsOf : Bytes → List ℕ
  | a :: b :: c :: rest =>
    a.toNat / 4 :: (a.toNat % 4 * 16 + b.toNat / 16) :: (b.toNat % 16 * 4 + c.toNat / 64) ::
      c.toNat % 64 :: sextetsOf rest
  | [a, b] => [a.toNat / 4, a.toNat % 4 * 16 + b.toNat / 16, b.toNat % 16 * 4]
  | [a] => [a.toNat / 4, a.toNat % 4 * 16]
  | [] => []

/-- Four groups of six bits as three bytes; what is left over gives the bytes
it fills. -/
def bytesOf : List ℕ → Bytes
  | a :: b :: c :: d :: rest =>
    UInt8.ofNat (a * 4 + b / 16) :: UInt8.ofNat (b % 16 * 16 + c / 4) ::
      UInt8.ofNat (c % 4 * 64 + d) :: bytesOf rest
  | [a, b, c] => [UInt8.ofNat (a * 4 + b / 16), UInt8.ofNat (b % 16 * 16 + c / 4)]
  | [a, b] => [UInt8.ofNat (a * 4 + b / 16)]
  | [_] | [] => []

/-- `toString('base64')` -/
def toBase64 (bytes : Bytes) : List Char :=
  (sextetsOf bytes).map base64Char ++ List.replicate ((3 - bytes.length % 3) % 3) '='

/-- `Buffer.from(text, 'base64')`: `=` ends the text, other characters outside
the alphabets are passed over. -/
def fromBase64 (text : List Char) : Bytes :=
  bytesOf ((text.takeWhile (· ≠ '=')).filterMap sextet)

theorem sextetsOf_lt (bytes : Bytes) : ∀ n ∈ sextetsOf bytes, n < 64 := by
  fun_induction sextetsOf bytes with
  | case1 a b c rest ih =>
    have ha := a.toNat_lt
    have hb := b.toNat_lt
    have hc := c.toNat_lt
    simp only [List.forall_mem_cons]
    exact ⟨by omega, by omega, by omega, by omega, ih⟩
  | case2 a b =>
    have ha := a.toNat_lt
    have hb := b.toNat_lt
    simp only [List.forall_mem_cons, List.not_mem_nil, false_implies, implies_true, and_true]
    omega
  | case3 a =>
    have ha := a.toNat_lt
    simp only [List.forall_mem_cons, List.not_mem_nil, false_implies, implies_true, and_true]
    omega
  | case4 => simp

theorem ofNat_eq {n : ℕ} {byte : UInt8} (h : n = byte.toNat) : UInt8.ofNat n = byte := by
  rw [h, UInt8.ofNat_toNat]

theorem bytesOf_sextetsOf (bytes : Bytes) : bytesOf (sextetsOf bytes) = bytes := by
  fun_induction sextetsOf bytes with
  | case1 a b c rest ih =>
    have ha := a.toNat_lt
    have hb := b.toNat_lt
    have hc := c.toNat_lt
    rw [bytesOf, ih, ofNat_eq (by omega : _ = a.toNat), ofNat_eq (by omega : _ = b.toNat),
      ofNat_eq (by omega : _ = c.toNat)]
  | case2 a b =>
    have ha := a.toNat_lt
    have hb := b.toNat_lt
    rw [bytesOf, ofNat_eq (by omega : _ = a.toNat), ofNat_eq (by omega : _ = b.toNat)]
  | case3 a =>
    have ha := a.toNat_lt
    rw [bytesOf, ofNat_eq (by omega : _ = a.toNat)]
  | case4 => rfl

theorem base64Char_spec : ∀ n < 64, sextet (base64Char n) = some n ∧ base64Char n ≠ '=' := by
  decide +kernel

theorem fromBase64_toBase64 (bytes : Bytes) : fromBase64 (toBase64 bytes) = bytes := by
  have hlt := sextetsOf_lt bytes
  have hdigits : (toBase64 bytes).takeWhile (· ≠ '=') = (sextetsOf bytes).map base64Char := by
    rw [toBase64, List.takeWhile_append_of_pos]
    · rw [List.takeWhile_replicate_eq_filter]
      simp
    · intro char hmem
      obtain ⟨n, hn, rfl⟩ := List.mem_map.mp hmem
      simpa using (base64Char_spec n (hlt n hn)).2
  have hvalues (values : List ℕ) (h : ∀ n ∈ values, n < 64) :
      (values.map base64Char).filterMap sextet = values := by
    induction values with
    | nil => rfl
    | cons n rest ih =>
      rw [List.forall_mem_cons] at h
      rw [List.map_cons, List.filterMap_cons, (base64Char_spec n h.1).1]
      simp only [ih h.2]
  rw [fromBase64, hdigits, hvalues _ hlt, bytesOf_sextetsOf]

/-! ## hex -/

/-- `Buffer.from(text, 'hex')`: the text is cut at the first pair that is not
two hexadecimal digits. -/
def fromHex : List Char → Bytes
  | high :: low :: rest =>
    match Js.baseDigit 16 high, Js.baseDigit 16 low with
    | some x, some y => UInt8.ofNat (16 * x + y) :: fromHex rest
    | _, _ => []
  | _ => []

/-- An even number of digits is read whole. -/
theorem length_fromHex {text : List Char} {n : ℕ} (hlen : text.length = 2 * n)
    (hdigits : ∀ char ∈ text, (Js.baseDigit 16 char).isSome) : (fromHex text).length = n := by
  induction n generalizing text with
  | zero =>
    rw [List.length_eq_zero_iff.mp hlen]
    rfl
  | succ n ih =>
    match text, hlen with
    | high :: low :: rest, hlen =>
      simp only [List.forall_mem_cons, Option.isSome_iff_exists] at hdigits
      obtain ⟨⟨x, hx⟩, ⟨y, hy⟩, hrest⟩ := hdigits
      rw [fromHex, hx, hy]
      simp only [List.length_cons] at hlen ⊢
      rw [ih (by omega) (fun char hmem => Option.isSome_iff_exists.mpr (hrest char hmem))]

/-! ## utf8 -/

def toUtf8 (text : List Char) : Bytes := text.flatMap String.utf8EncodeChar

/-- `second` may follow `lead` in a sequence of three or four bytes. -/
def mayFollow (lead second : UInt8) : Bool :=
  let within (low high : UInt8) := low ≤ second && second ≤ high
  if lead = 0xE0 then within 0xA0 0xBF
  else if lead = 0xED then within 0x80 0x9F
  else if lead = 0xF0 then within 0x90 0xBF
  else if lead = 0xF4 then within 0x80 0x8F
  else (0xE0 < lead && lead < 0xF4) && within 0x80 0xBF

/-- How many bytes one replacement character stands for. -/
def maximalSubpart : Bytes → ℕ
  | lead :: second :: rest =>
    if ¬ mayFollow lead second then 1
    else if 0xF0 ≤ lead && rest.head?.any fun third => 0x80 ≤ third && third ≤ 0xBF then 3
    else 2
  | _ => 1

def utf8From : ℕ → Bytes → List Char
  | 0, _ | _ + 1, [] => []
  | fuel + 1, byte :: rest =>
    match (byte :: rest).toByteArray.utf8DecodeChar? 0 with
    | some char => char :: utf8From fuel ((byte :: rest).drop char.utf8Size)
    | none => '\uFFFD' :: utf8From fuel ((byte :: rest).drop (maximalSubpart (byte :: rest)))

/-- `toString('utf8')` -/
def fromUtf8 (bytes : Bytes) : List Char := utf8From bytes.length bytes

theorem utf8From_encode (char : Char) (rest : Bytes) (fuel : ℕ) :
    utf8From (fuel + 1) (String.utf8EncodeChar char ++ rest) = char :: utf8From fuel rest := by
  obtain ⟨byte, tail, hcons⟩ := List.exists_cons_of_ne_nil (String.utf8EncodeChar_ne_nil (c := char))
  have hdecode : (String.utf8EncodeChar char ++ rest).toByteArray.utf8DecodeChar? 0 = some char := by
    rw [List.toByteArray_append, ByteArray.utf8DecodeChar?_utf8EncodeChar_append]
  have hdrop : (String.utf8EncodeChar char ++ rest).drop char.utf8Size = rest := by
    rw [← String.length_utf8EncodeChar, List.drop_left]
  rw [hcons, List.cons_append] at hdecode hdrop ⊢
  rw [utf8From, hdecode]
  simp only [hdrop]

theorem utf8From_toUtf8 (text : List Char) {fuel : ℕ} (hfuel : text.length ≤ fuel) :
    utf8From fuel (toUtf8 text) = text := by
  induction text generalizing fuel with
  | nil => cases fuel <;> rfl
  | cons char rest ih =>
    obtain ⟨fuel, rfl⟩ : ∃ n, fuel = n + 1 := ⟨fuel - 1, by simp at hfuel; omega⟩
    have hrest : rest.length ≤ fuel := by simpa using hfuel
    rw [toUtf8, List.flatMap_cons, utf8From_encode, ← toUtf8, ih hrest]

theorem length_le_toUtf8 (text : List Char) : text.length ≤ (toUtf8 text).length := by
  induction text with
  | nil => simp
  | cons char rest ih =>
    have hpos := char.utf8Size_pos
    rw [toUtf8, List.flatMap_cons, List.length_append, String.length_utf8EncodeChar, ← toUtf8,
      List.length_cons]
    omega

theorem fromUtf8_toUtf8 (text : List Char) : fromUtf8 (toUtf8 text) = text :=
  utf8From_toUtf8 text (length_le_toUtf8 text)

theorem toUtf8_eq_nil {text : List Char} : toUtf8 text = [] ↔ text = [] := by
  rw [← List.length_eq_zero_iff, ← List.length_eq_zero_iff]
  have hle := length_le_toUtf8 text
  refine ⟨fun h => by omega, fun h => ?_⟩
  rw [List.length_eq_zero_iff.mp h]
  rfl

end Buffer

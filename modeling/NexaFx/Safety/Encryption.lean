import NexaFx.Model.Encryption

/-!
# Encryption: round trip and tampering

Slicing undoes the concatenation (`slices_join` of either service), so
decryption returns the plaintext. A changed text is accepted without a forgery
only when it keeps the vector and the ciphertext and shortens the tag
(`Gcm.accepts_not_forged_iff`); the layouts leave room for that when the
ciphertext is empty. `tamper_iff` says exactly when.
-/

open Buffer

namespace NexaFx

theorem createDecipheriv_error_iff {gcm : Gcm} {key : Bytes} {message : Gcm.Message}
    (hkey : key.length = Gcm.KEY_LENGTH) :
    (∃ error, createDecipheriv gcm key message = .error error) ↔ ¬ gcm.Accepts key message := by
  rw [createDecipheriv, if_neg (not_not_intro hkey)]
  by_cases hlen : Gcm.IsTagLength message.tag.length
  · rw [if_neg (not_not_intro hlen)]
    by_cases hacc : gcm.Accepts key message
    · simp [Gcm.decipher, hacc]
    · simp [Gcm.decipher, hacc]
  · rw [if_pos hlen]
    exact ⟨fun _ hacc => hlen hacc.1, fun _ => ⟨_, rfl⟩⟩

theorem createDecipheriv_encipher {gcm : Gcm} {key : Bytes} (hkey : key.length = Gcm.KEY_LENGTH)
    (iv text : Bytes) : createDecipheriv gcm key (gcm.encipher key iv text) = .ok text := by
  have hlen := (gcm.accepts_encipher key iv text).1
  rw [createDecipheriv, if_neg (not_not_intro hkey), if_neg (not_not_intro hlen),
    gcm.decipher_encipher]

theorem createCipheriv_eq {gcm : Gcm} {key : Bytes} (hkey : key.length = Gcm.KEY_LENGTH)
    (iv text : Bytes) : createCipheriv gcm key iv text = .ok (gcm.encipher key iv text) := by
  rw [createCipheriv, if_neg (not_not_intro hkey)]

theorem map_error_iff {α β : Type} {f : α → β} {outcome : Except EncryptionError α} :
    (∃ error, outcome.map f = .error error) ↔ ∃ error, outcome = .error error := by
  cases outcome <;> simp [Except.map]

/-- No other bytes than `sealed` are accepted, forgeries apart. -/
def NothingPasses (gcm : Gcm) (key iv text : Bytes) (slices : Bytes → Gcm.Message)
    (sealed : Bytes) : Prop :=
  ∀ bytes ≠ sealed, ¬ (gcm.Accepts key (slices bytes) ∧
    ¬ gcm.Forged key (gcm.encipher key iv text) (slices bytes))

/-- A service that slices and deciphers rejects what does not pass. -/
theorem tampered_rejected_iff {gcm : Gcm} {key iv text sealed : Bytes} {slices : Bytes → Gcm.Message}
    (hkey : key.length = Gcm.KEY_LENGTH) (hslices : slices sealed = gcm.encipher key iv text) :
    (∀ input, fromBase64 input ≠ sealed →
      ¬ gcm.Forged key (slices sealed) (slices (fromBase64 input)) →
      ∃ error, (createDecipheriv gcm key (slices (fromBase64 input))).map fromUtf8 = .error error) ↔
      NothingPasses gcm key iv text slices sealed := by
  simp only [map_error_iff, createDecipheriv_error_iff hkey, hslices]
  constructor
  · rintro h bytes hne ⟨hacc, hforged⟩
    have hbytes := fromBase64_toBase64 bytes
    refine h (toBase64 bytes) ?_ ?_ ?_
    · rwa [hbytes]
    · rwa [hbytes]
    · rwa [hbytes]
  · exact fun h input hne hforged hacc => h (fromBase64 input) hne ⟨hacc, hforged⟩

/-! ## common/encryption -/

namespace Encryption

/-- Where the tag starts in `length` bytes. -/
def tagStart (length : ℕ) : ℕ := offset length (length - TAG_BYTES)

theorem slices_eq (bytes : Bytes) :
    slices bytes =
      { iv := bytes.take IV_BYTES
        tag := bytes.drop (tagStart bytes.length)
        ciphertext := (bytes.take (tagStart bytes.length)).drop (min IV_BYTES bytes.length) } := by
  rw [slices, subarray_zero, subarrayFrom_eq, subarray, offset_natCast, tagStart]

theorem tagStart_eq (length : ℕ) :
    tagStart length = if 16 ≤ length then length - 16 else 2 * length - 16 :=
  offset_sub length TAG_BYTES

theorem slices_join {iv ciphertext tag : Bytes} (hiv : iv.length = IV_BYTES)
    (htag : tag.length = TAG_BYTES) :
    slices (iv ++ ciphertext ++ tag) = { iv, ciphertext, tag } := by
  have hiv' : iv.length = 12 := hiv
  have htag' : tag.length = 16 := htag
  have hlen : (iv ++ ciphertext ++ tag).length = iv.length + ciphertext.length + tag.length := by
    simp only [List.length_append]
  have hstart : tagStart (iv ++ ciphertext ++ tag).length = (iv ++ ciphertext).length := by
    rw [tagStart_eq, hlen, List.length_append]
    split <;> omega
  have hmin : min IV_BYTES (iv ++ ciphertext ++ tag).length = iv.length := by
    rw [hlen, ← hiv]
    omega
  rw [slices_eq, hstart, hmin, List.drop_left, List.take_left, List.drop_left, List.append_assoc,
    ← hiv, List.take_left]

/-- What the slices can look like when they keep the vector: from 28 bytes on
they part the text, and below the tag overlaps the vector. -/
theorem slices_cases {bytes : Bytes} (hiv : (slices bytes).iv.length = IV_BYTES)
    (htag : Gcm.IsTagLength (slices bytes).tag.length) :
    (slices bytes).tag.length = TAG_BYTES ∧
        bytes = (slices bytes).iv ++ (slices bytes).ciphertext ++ (slices bytes).tag ∨
      (slices bytes).ciphertext = [] ∧ ∃ j, 1 ≤ j ∧ j ≤ 12 ∧ j ≤ (slices bytes).tag.length ∧
        (slices bytes).iv.drop (IV_BYTES - j) = (slices bytes).tag.take j := by
  rw [slices_eq] at hiv htag ⊢
  simp only [List.length_take, List.length_drop, IV_BYTES, TAG_BYTES] at hiv htag ⊢
  have hstart := tagStart_eq bytes.length
  rcases Nat.lt_or_ge bytes.length 28 with hshort | hlong
  · right
    -- of the lengths below 16, only 12 leaves a tag that may be set
    have hlt : tagStart bytes.length < 12 := by
      unfold Gcm.IsTagLength at htag
      split at hstart <;> omega
    refine ⟨List.drop_eq_nil_of_le (by rw [List.length_take]; omega),
      12 - tagStart bytes.length, by omega, by omega, by omega, ?_⟩
    rw [Nat.sub_sub_self hlt.le, List.drop_take]
  · left
    rw [if_pos (by omega)] at hstart
    have hparts : bytes.take (tagStart bytes.length) =
        bytes.take 12 ++ (bytes.take (tagStart bytes.length)).drop 12 := by
      conv_lhs => rw [← List.take_append_drop 12 (bytes.take (tagStart bytes.length))]
      rw [List.take_take, Nat.min_eq_left (by omega)]
    refine ⟨by omega, ?_⟩
    rw [Nat.min_eq_left (by omega : 12 ≤ bytes.length), ← hparts, List.take_append_drop]

/-- A vector that ends as the tag begins gives a text whose tag overlaps it. -/
theorem slices_overlap {iv tag : Bytes} {j : ℕ} (hiv : iv.length = IV_BYTES)
    (htag : tag.length = TAG_BYTES) (hj : 1 ≤ j) (hj' : j ≤ 12)
    (hoverlap : iv.drop (IV_BYTES - j) = tag.take j) :
    slices (iv ++ tag.drop j) = { iv, ciphertext := [], tag } := by
  have hiv' : iv.length = 12 := hiv
  have htag' : tag.length = 16 := htag
  have hlen : (iv ++ tag.drop j).length = 28 - j := by
    rw [List.length_append, List.length_drop]
    omega
  have hstart : tagStart (iv ++ tag.drop j).length = 12 - j := by
    rw [tagStart_eq, hlen, if_pos (by omega)]
    omega
  have hnil : ((iv ++ tag.drop j).take (12 - j)).drop (min IV_BYTES (28 - j)) = [] := by
    refine List.drop_eq_nil_of_le ?_
    rw [List.length_take, IV_BYTES]
    omega
  have htail : (iv ++ tag.drop j).drop (12 - j) = tag := by
    have hoverlap' : iv.drop (12 - j) = tag.take j := hoverlap
    rw [List.drop_append_of_le_length (by omega), hoverlap', List.take_append_drop]
  rw [slices_eq, hstart, hlen, hnil, htail, ← hiv, List.take_left]

/-- The end of the vector is nowhere the beginning of the tag. -/
def NoOverlap (iv tag : Bytes) : Prop :=
  ∀ j, 1 ≤ j → j ≤ 12 → iv.drop (IV_BYTES - j) ≠ tag.take j

theorem nothingPasses_iff {gcm : Gcm} {key iv text : Bytes} (hiv : iv.length = IV_BYTES) :
    NothingPasses gcm key iv text slices
        (iv ++ gcm.mask key iv text ++ gcm.tag key iv (gcm.mask key iv text)) ↔
      text = [] → NoOverlap iv (gcm.tag key iv []) := by
  have htag := gcm.length_tag key iv (gcm.mask key iv text)
  simp only [NothingPasses, Gcm.accepts_not_forged_iff]
  constructor
  · rintro h rfl j hj hj' hoverlap
    have hmask : gcm.mask key iv [] = [] := gcm.mask_eq_nil.mpr rfl
    rw [hmask] at h htag
    have hslices := slices_overlap hiv htag hj hj' hoverlap
    refine h (iv ++ (gcm.tag key iv []).drop j) (fun heq => ?_) ?_
    · have hlen := congrArg List.length heq
      simp only [List.length_append, List.length_drop, List.length_nil, htag] at hlen
      omega
    · rw [hslices]
      refine ⟨rfl, rfl, ?_, List.prefix_refl _⟩
      rw [htag]
      decide
  · rintro h bytes hne ⟨hiv', hct, hlen, hpre⟩
    rcases slices_cases (by rw [hiv', hiv]) hlen with
      ⟨hfull, hparts⟩ | ⟨hnil, j, hj, hj', hjlen, hoverlap⟩
    · rw [hiv', hct, hpre.eq_of_length (by rw [hfull, htag]; rfl)] at hparts
      exact hne hparts
    · have htext : text = [] := gcm.mask_eq_nil.mp (hct.symm.trans hnil)
      obtain ⟨rest, htrue⟩ := hpre
      refine h htext j hj hj' ?_
      rw [← hiv', hoverlap, hiv', ← hnil, hct, ← htrue, List.take_append_of_le_length hjlen]

/-- Decryption gives the plaintext back and throws on every other text that is
no forgery. -/
def Faithful (gcm : Gcm) (service : EncryptionService) (key : Bytes) (iv : RandomBytes IV_BYTES)
    (plaintext : List Char) : Prop :=
  ∃ payload, encrypt gcm service iv plaintext = .ok payload ∧
    decrypt gcm service payload = .ok plaintext ∧
    ∀ input, fromBase64 input ≠ fromBase64 payload.ciphertext →
      ¬ gcm.Forged key (slices (fromBase64 payload.ciphertext)) (slices (fromBase64 input)) →
      ∃ error, decrypt gcm service { payload with ciphertext := input } = .error error

variable {gcm : Gcm} {service : EncryptionService} {key : Bytes}

/-- The bytes of a payload. -/
def sealed (gcm : Gcm) (key : Bytes) (iv : RandomBytes IV_BYTES) (plaintext : List Char) : Bytes :=
  iv ++ gcm.mask key iv (toUtf8 plaintext) ++
    gcm.tag key iv (gcm.mask key iv (toUtf8 plaintext))

theorem encrypt_eq (hkey : service.keys service.currentVersion = some key)
    (hlen : key.length = Gcm.KEY_LENGTH) (iv : RandomBytes IV_BYTES) (plaintext : List Char) :
    encrypt gcm service iv plaintext =
      .ok { ciphertext := toBase64 (sealed gcm key iv plaintext),
            keyVersion := service.currentVersion } := by
  rw [encrypt, hkey]
  simp only [createCipheriv_eq hlen]
  rfl

theorem slices_sealed (iv : RandomBytes IV_BYTES) (plaintext : List Char) :
    slices (sealed gcm key iv plaintext) = gcm.encipher key iv (toUtf8 plaintext) :=
  slices_join iv.2 (gcm.length_tag _ _ _)

/-- A service that has the key reads the payload. -/
theorem decrypt_sealed {version : Js.Num} (hkey : service.keys version = some key)
    (hlen : key.length = Gcm.KEY_LENGTH) (iv : RandomBytes IV_BYTES) (plaintext : List Char) :
    decrypt gcm service
      { ciphertext := toBase64 (sealed gcm key iv plaintext), keyVersion := version } =
      .ok plaintext := by
  rw [decrypt, hkey]
  simp only [fromBase64_toBase64, slices_sealed, createDecipheriv_encipher hlen, Except.map,
    fromUtf8_toUtf8]

theorem faithful_iff (hkey : service.keys service.currentVersion = some key)
    (hlen : key.length = Gcm.KEY_LENGTH) (iv : RandomBytes IV_BYTES) (plaintext : List Char) :
    Faithful gcm service key iv plaintext ↔
      (plaintext = [] → NoOverlap iv (gcm.tag key iv [])) := by
  have hpasses : NothingPasses gcm key iv (toUtf8 plaintext) slices (sealed gcm key iv plaintext) ↔
      (plaintext = [] → NoOverlap iv (gcm.tag key iv [])) := by
    rw [← toUtf8_eq_nil]
    exact nothingPasses_iff iv.2
  rw [← hpasses, ← tampered_rejected_iff hlen (slices_sealed iv plaintext), Faithful,
    encrypt_eq hkey hlen]
  simp only [Except.ok.injEq, exists_eq_left', fromBase64_toBase64]
  rw [decrypt_sealed hkey hlen, eq_self_iff_true, true_and]
  simp only [decrypt, hkey]

end Encryption

/-! ## common/services -/

namespace Services

theorem slices_eq (data : Bytes) :
    slices data =
      { iv := data.take 16, tag := (data.drop 16).take 16, ciphertext := data.drop 32 } := by
  have hsum : (IV_LENGTH : ℤ) + (TAG_LENGTH : ℤ) = ((32 : ℕ) : ℤ) := rfl
  rw [slices, subarray_zero, hsum, subarray_natCast, subarrayFrom_natCast, List.drop_take]
  rfl

/-- The slices undo the concatenation, also where a short tag ends the text. -/
theorem slices_join {iv ciphertext tag : Bytes} (hiv : iv.length = IV_LENGTH)
    (htag : tag.length = TAG_LENGTH ∨ tag.length ≤ TAG_LENGTH ∧ ciphertext = []) :
    slices (iv ++ tag ++ ciphertext) = { iv, ciphertext, tag } := by
  have hiv' : iv.length = 16 := hiv
  rw [slices_eq, List.append_assoc, ← hiv', List.take_left, List.drop_left, hiv']
  rcases htag with htag | ⟨htag, rfl⟩
  · have htag' : tag.length = 16 := htag
    have hdrop : (iv ++ (tag ++ ciphertext)).drop 32 = ciphertext := by
      rw [← List.append_assoc, List.drop_left' (by rw [List.length_append, hiv', htag'])]
    rw [hdrop, ← htag', List.take_left]
  · have htag' : tag.length ≤ 16 := htag
    rw [List.append_nil, List.take_of_length_le htag', List.drop_eq_nil_of_le]
    rw [List.length_append]
    omega

theorem nothingPasses_iff {gcm : Gcm} {key iv text : Bytes} (hiv : iv.length = IV_LENGTH) :
    NothingPasses gcm key iv text slices
        (iv ++ gcm.tag key iv (gcm.mask key iv text) ++ gcm.mask key iv text) ↔
      text ≠ [] := by
  have htag := gcm.length_tag key iv (gcm.mask key iv text)
  simp only [NothingPasses, Gcm.accepts_not_forged_iff]
  constructor
  · rintro h rfl
    -- twelve bytes of the tag are left
    have hmask : gcm.mask key iv [] = [] := gcm.mask_eq_nil.mpr rfl
    rw [hmask] at h htag
    have hshort : ((gcm.tag key iv []).take 12).length = 12 := by
      rw [List.length_take]
      omega
    have hslices : slices (iv ++ (gcm.tag key iv []).take 12 ++ []) =
        { iv, ciphertext := [], tag := (gcm.tag key iv []).take 12 } :=
      slices_join hiv (Or.inr ⟨by rw [hshort]; decide, rfl⟩)
    refine h (iv ++ (gcm.tag key iv []).take 12 ++ []) (fun heq => ?_) ?_
    · have hlen := congrArg List.length heq
      simp only [List.length_append, List.length_nil, hshort, htag] at hlen
      omega
    · rw [hslices]
      refine ⟨rfl, rfl, ?_, List.take_prefix _ _⟩
      rw [hshort]
      decide
  · rintro htext bytes hne ⟨hiv', hct, -, hpre⟩
    rw [slices_eq] at hiv' hct hpre
    dsimp only at hiv' hct hpre
    have hlong : 32 < bytes.length := by
      by_contra hle
      rw [List.drop_eq_nil_of_le (by omega)] at hct
      exact htext (gcm.mask_eq_nil.mp hct.symm)
    have hfull : (bytes.drop 16).take 16 = gcm.tag key iv (gcm.mask key iv text) := by
      refine hpre.eq_of_length ?_
      rw [htag, List.length_take, List.length_drop]
      omega
    have hrest : bytes.drop 32 = (bytes.drop 16).drop 16 := by rw [List.drop_drop]
    apply hne
    rw [← hfull, ← hct, List.append_assoc, hrest, List.take_append_drop, ← hiv',
      List.take_append_drop]

/-- Decryption gives the plaintext back and throws on every other text that is
no forgery. -/
def Faithful (gcm : Gcm) (service : EncryptionService) (iv : RandomBytes IV_LENGTH)
    (plaintext : List Char) : Prop :=
  ∃ ciphertext, encrypt gcm service iv plaintext = .ok ciphertext ∧
    decrypt gcm service ciphertext = .ok plaintext ∧
    ∀ input, fromBase64 input ≠ fromBase64 ciphertext →
      ¬ gcm.Forged service.key (slices (fromBase64 ciphertext)) (slices (fromBase64 input)) →
      ∃ error, decrypt gcm service input = .error error

variable {gcm : Gcm} {service : EncryptionService}

/-- The bytes of a ciphertext. -/
def sealed (gcm : Gcm) (key : Bytes) (iv : RandomBytes IV_LENGTH) (plaintext : List Char) : Bytes :=
  iv ++ gcm.tag key iv (gcm.mask key iv (toUtf8 plaintext)) ++ gcm.mask key iv (toUtf8 plaintext)

theorem slices_sealed (key : Bytes) (iv : RandomBytes IV_LENGTH) (plaintext : List Char) :
    slices (sealed gcm key iv plaintext) = gcm.encipher key iv (toUtf8 plaintext) :=
  slices_join iv.2 (Or.inl (gcm.length_tag _ _ _))

theorem encrypt_eq (iv : RandomBytes IV_LENGTH) (plaintext : List Char) :
    encrypt gcm service iv plaintext = .ok (toBase64 (sealed gcm service.key iv plaintext)) := by
  rw [encrypt, createCipheriv_eq service.key_length]
  rfl

theorem decrypt_sealed (iv : RandomBytes IV_LENGTH) (plaintext : List Char) :
    decrypt gcm service (toBase64 (sealed gcm service.key iv plaintext)) = .ok plaintext := by
  rw [decrypt, fromBase64_toBase64, slices_sealed, createDecipheriv_encipher service.key_length,
    Except.map, fromUtf8_toUtf8]

theorem faithful_iff (iv : RandomBytes IV_LENGTH) (plaintext : List Char) :
    Faithful gcm service iv plaintext ↔ plaintext ≠ [] := by
  have hpasses : NothingPasses gcm service.key iv (toUtf8 plaintext) slices
      (sealed gcm service.key iv plaintext) ↔ plaintext ≠ [] := by
    rw [ne_eq, ← toUtf8_eq_nil]
    exact nothingPasses_iff iv.2
  rw [← hpasses, ← tampered_rejected_iff service.key_length (slices_sealed service.key iv plaintext),
    Faithful, encrypt_eq]
  simp only [Except.ok.injEq, exists_eq_left', fromBase64_toBase64]
  rw [decrypt_sealed, eq_self_iff_true, true_and]
  rfl

end Services

/-- **Either service gives the plaintext back. Other texts are rejected as well
by the first exactly when the plaintext is not empty or the vector does not end
as the tag begins, and by the second exactly when the plaintext is not empty.** -/
theorem tamper_iff (gcm : Gcm) :
    (∀ (service : Encryption.EncryptionService) (key : Bytes),
      service.keys service.currentVersion = some key → key.length = Gcm.KEY_LENGTH →
      ∀ iv plaintext,
        (∃ payload, Encryption.encrypt gcm service iv plaintext = .ok payload ∧
          Encryption.decrypt gcm service payload = .ok plaintext) ∧
        (Encryption.Faithful gcm service key iv plaintext ↔
          (plaintext = [] → Encryption.NoOverlap iv (gcm.tag key iv [])))) ∧
    ∀ (service : Services.EncryptionService) iv plaintext,
      (∃ ciphertext, Services.encrypt gcm service iv plaintext = .ok ciphertext ∧
        Services.decrypt gcm service ciphertext = .ok plaintext) ∧
      (Services.Faithful gcm service iv plaintext ↔ plaintext ≠ []) := by
  refine ⟨fun service key hkey hlen iv plaintext => ⟨⟨_, Encryption.encrypt_eq hkey hlen iv plaintext,
    Encryption.decrypt_sealed hkey hlen iv plaintext⟩, Encryption.faithful_iff hkey hlen iv plaintext⟩,
    fun service iv plaintext => ⟨⟨_, Services.encrypt_eq iv plaintext,
      Services.decrypt_sealed iv plaintext⟩, Services.faithful_iff iv plaintext⟩⟩

/-- The key of 32 bytes `0xaa`. -/
def sampleKey : List Char := List.replicate 64 'a'

/-- The tags of the empty text under the keys `0xaa…` and `0xbb…` and a vector
of 12 zeros, and under the first and one of 16. -/
def sampleGcm : Gcm where
  keystream _ _ _ := 0
  tag key iv _ :=
    if iv.length ≠ 12 then [212, 71, 196, 22, 59, 178, 152, 233, 5, 241, 160, 59, 21, 115, 214, 97]
    else if key.head? = some 0xaa then
      [169, 13, 7, 46, 125, 174, 228, 216, 2, 153, 165, 73, 83, 197, 208, 60]
    else [198, 29, 204, 114, 223, 165, 244, 98, 49, 14, 204, 108, 142, 229, 141, 90]
  length_tag key iv _ := by
    split
    · rfl
    · split <;> rfl

def sampleService : Services.EncryptionService where
  key := fromHex sampleKey
  key_length := by decide +kernel

def sampleVersioned : Encryption.EncryptionService where
  keys version := if version = .fin 1 then some (fromHex sampleKey) else none
  currentVersion := .fin 1

theorem tamper_iff_empty :
    Encryption.Faithful sampleGcm sampleVersioned (fromHex sampleKey)
        ⟨List.replicate 12 0, by decide⟩ [] ↔
      ([] = ([] : List Char) → Encryption.NoOverlap (List.replicate 12 0)
        (sampleGcm.tag (fromHex sampleKey) (List.replicate 12 0) [])) :=
  (((tamper_iff sampleGcm).1 sampleVersioned (fromHex sampleKey) (by decide +kernel)
    (by decide +kernel) ⟨List.replicate 12 0, by decide⟩ [])).2

/-- Without the last byte of its tag the empty text is accepted. -/
theorem truncated_tag_accepted :
    ¬ Services.Faithful sampleGcm sampleService ⟨List.replicate 16 0, by decide⟩ [] := by
  rintro ⟨ciphertext, hencrypt, -, h⟩
  have heq : ciphertext = "AAAAAAAAAAAAAAAAAAAAANRHxBY7spjpBfGgOxVz1mE=".toList := by
    have hrun : Services.encrypt sampleGcm sampleService ⟨List.replicate 16 0, by decide⟩ [] =
        .ok "AAAAAAAAAAAAAAAAAAAAANRHxBY7spjpBfGgOxVz1mE=".toList := by decide +kernel
    exact (Except.ok.inj (hrun.symm.trans hencrypt)).symm
  subst heq
  obtain ⟨error, herror⟩ := h "AAAAAAAAAAAAAAAAAAAAANRHxBY7spjpBfGgOxVz1g==".toList
    (by decide +kernel) (fun hforged => hforged.1 (by decide +kernel))
  have hopen : Services.decrypt sampleGcm sampleService
      "AAAAAAAAAAAAAAAAAAAAANRHxBY7spjpBfGgOxVz1g==".toList = .ok [] := by decide +kernel
  rw [hopen] at herror
  nomatch herror

end NexaFx

import NexaFx.Safety.Encryption

/-!
# Key rotation

After each restart the service has the primary key under its version and the
keys of the variables `_V2` to `_V10` (`keys_deployed`). The first key goes to
`_V1`, which nothing reads: `rotation_iff` says that the payloads of the first
version are lost by the first rotation, and no others by any.
-/

open Buffer

namespace NexaFx

namespace Encryption

/-- 64 hexadecimal digits, as the schema of the environment wants them. -/
def IsHexKey (hex : List Char) : Prop :=
  hex.length = 64 ∧ ∀ char ∈ hex, (Js.baseDigit 16 char).isSome

/-- A first deployment: the version is 1 or not given. -/
structure IsFirst (env : Environment) : Prop where
  version : env.WALLET_ENCRYPTION_KEY_VERSION = none ∨
    env.WALLET_ENCRYPTION_KEY_VERSION = some ['1']
  others : ∀ v, env.WALLET_ENCRYPTION_KEY_V v = none

/-- The environment after `rotations` rotations. `newKey v` is the key that
becomes version `v`. -/
def deployed (first : Environment) (newKey : ℕ → List Char) : ℕ → Environment
  | 0 => first
  | rotations + 1 => (deployed first newKey rotations).rotate (rotations + 1) (newKey (rotations + 2))

/-- The key of version `v`. -/
def keyOf (first : Environment) (newKey : ℕ → List Char) (v : ℕ) : List Char :=
  if v = 1 then first.WALLET_ENCRYPTION_KEY else newKey v

variable {first : Environment} {newKey : ℕ → List Char}

theorem primary_deployed (rotations : ℕ) :
    (deployed first newKey rotations).WALLET_ENCRYPTION_KEY = keyOf first newKey (rotations + 1) := by
  cases rotations with
  | zero => rfl
  | succ n => rfl

theorem versioned_deployed (hfirst : IsFirst first) (rotations v : ℕ) :
    (deployed first newKey rotations).WALLET_ENCRYPTION_KEY_V v =
      if 1 ≤ v ∧ v ≤ rotations then some (keyOf first newKey v) else none := by
  induction rotations with
  | zero => rw [deployed, hfirst.others, if_neg (by omega)]
  | succ n ih =>
    have hstep : (deployed first newKey (n + 1)).WALLET_ENCRYPTION_KEY_V v =
        Function.update (deployed first newKey n).WALLET_ENCRYPTION_KEY_V (n + 1)
          (some (deployed first newKey n).WALLET_ENCRYPTION_KEY) v := rfl
    rw [hstep, Function.update_apply, primary_deployed, ih]
    by_cases hv : v = n + 1
    · subst hv
      rw [if_pos rfl, if_pos (by omega)]
    · rw [if_neg hv]
      have hiff : (1 ≤ v ∧ v ≤ n) ↔ 1 ≤ v ∧ v ≤ n + 1 := by omega
      simp only [hiff]

theorem versionText_spec : ∀ n < 11, (toString n).toList ≠ [] ∧
    (toString n).toList.all Char.isDigit = true ∧ Js.decimalValue (toString n).toList = n := by
  decide +kernel

theorem parseInt_version {n : ℕ} (hn : n < 11) : Js.parseInt (toString n).toList = .fin n := by
  obtain ⟨hne, hdigits, hvalue⟩ := versionText_spec n hn
  rw [Js.parseInt_digits hne (List.all_eq_true.mp hdigits) (by omega), hvalue]

theorem primaryVersion_deployed (hfirst : IsFirst first) {rotations : ℕ} (hle : rotations ≤ 9) :
    Js.parseInt ((deployed first newKey rotations).WALLET_ENCRYPTION_KEY_VERSION.getD ['1']) =
      .fin (rotations + 1 : ℕ) := by
  have hone : Js.parseInt ['1'] = .fin (1 : ℕ) := parseInt_version (by omega : 1 < 11)
  cases rotations with
  | zero =>
    rw [deployed]
    rcases hfirst.version with hnone | hsome
    · rw [hnone]
      exact hone
    · rw [hsome]
      exact hone
  | succ n => exact parseInt_version (by omega : n + 2 < 11)

/-- What is read at a start. -/
theorem resolveKeys_deployed (hfirst : IsFirst first) (hkey : ∀ v, IsHexKey (keyOf first newKey v))
    {rotations : ℕ} (hle : rotations ≤ 9) :
    resolveKeys (deployed first newKey rotations) =
      { version := .fin (rotations + 1 : ℕ), hex := keyOf first newKey (rotations + 1) } ::
        ((List.range' 2 9).filter (· ≤ rotations)).map fun v =>
          { version := .fin v, hex := keyOf first newKey v } := by
  have hne (v : ℕ) : keyOf first newKey v ≠ [] := by
    intro hnil
    have hlen := (hkey v).1
    rw [hnil] at hlen
    simp at hlen
  rw [resolveKeys, primaryVersion_deployed hfirst hle, primary_deployed, ← List.filterMap_eq_map,
    List.filterMap_filter]
  congr 1
  refine List.filterMap_congr (fun v hv => ?_)
  have hlow := (List.mem_range'_1.mp hv).1
  rw [versioned_deployed hfirst]
  by_cases hv' : v ≤ rotations
  · simp [hv', hne, (by omega : 1 ≤ v)]
  · simp [hv']

/-! ## Starting the service -/

/-- Later entries take the place of earlier ones of their version. -/
theorem keys_foldl (entries : List VersionedKey) (version : Js.Num) (hex : List Char)
    (hsame : ∀ entry ∈ entries, entry.version = version → entry.hex = hex)
    (keys : Js.Num → Option Bytes) :
    entries.foldl (fun (keys : Js.Num → Option Bytes) (entry : VersionedKey) =>
        Function.update keys entry.version (some (fromHex entry.hex))) keys version =
      if ∃ entry ∈ entries, entry.version = version then some (fromHex hex) else keys version := by
  induction entries generalizing keys with
  | nil => simp
  | cons entry rest ih =>
    rw [List.forall_mem_cons] at hsame
    rw [List.foldl_cons, ih hsame.2]
    by_cases hrest : ∃ entry ∈ rest, entry.version = version
    · rw [if_pos hrest, if_pos (hrest.imp fun _ h => ⟨List.mem_cons_of_mem _ h.1, h.2⟩)]
    · rw [if_neg hrest]
      by_cases hhead : entry.version = version
      · rw [if_pos ⟨entry, List.mem_cons_self, hhead⟩, ← hhead, Function.update_self,
          hsame.1 hhead]
      · rw [if_neg, Function.update_of_ne (fun h => hhead h.symm)]
        rintro ⟨other, hmem, hversion⟩
        rcases List.mem_cons.mp hmem with rfl | hmem
        · exact hhead hversion
        · exact hrest ⟨other, hmem, hversion⟩

/-- The greatest version is the first where no other is greater. -/
theorem max_foldl {entries : List VersionedKey} {q : ℚ}
    (hle : ∀ entry ∈ entries, ∃ r ≤ q, entry.version = .fin r) :
    entries.foldl (fun (version : Js.Num) (entry : VersionedKey) => version.max entry.version)
      (.fin q) = .fin q := by
  induction entries with
  | nil => rfl
  | cons entry rest ih =>
    rw [List.forall_mem_cons] at hle
    obtain ⟨⟨r, hr, hversion⟩, hrest⟩ := hle
    have hmax : (Js.Num.fin q).max (.fin r) = .fin q := by
      rw [Js.Num.max]
      split
      · rw [le_antisymm ‹q ≤ r› hr]
      · rfl
    rw [List.foldl_cons, hversion, hmax, ih hrest]

/-- The service after `rotations` rotations. -/
def serviceAfter (first : Environment) (newKey : ℕ → List Char) (rotations : ℕ) :
    EncryptionService :=
  EncryptionService.start (deployed first newKey rotations)

variable (hfirst : IsFirst first) (hkey : ∀ v, IsHexKey (keyOf first newKey v))
include hfirst hkey

theorem currentVersion_serviceAfter {rotations : ℕ} (hle : rotations ≤ 9) :
    (serviceAfter first newKey rotations).currentVersion = .fin (rotations + 1 : ℕ) := by
  rw [serviceAfter, EncryptionService.start]
  dsimp only
  rw [resolveKeys_deployed hfirst hkey hle, List.foldl_cons]
  refine max_foldl (fun entry hmem => ?_)
  obtain ⟨v, hv, rfl⟩ := List.mem_map.mp hmem
  have hle : v ≤ rotations := by simpa using (List.mem_filter.mp hv).2
  exact ⟨v, by exact_mod_cast Nat.le_succ_of_le hle, rfl⟩

theorem mem_resolveKeys {rotations : ℕ} (hle : rotations ≤ 9) {entry : VersionedKey} :
    entry ∈ resolveKeys (deployed first newKey rotations) ↔
      ∃ v : ℕ, (v = rotations + 1 ∨ 2 ≤ v ∧ v ≤ rotations) ∧
        entry = { version := .fin v, hex := keyOf first newKey v } := by
  simp only [resolveKeys_deployed hfirst hkey hle, List.mem_cons, List.mem_map, List.mem_filter,
    List.mem_range'_1, decide_eq_true_eq]
  constructor
  · rintro (rfl | ⟨v, hv, rfl⟩)
    · exact ⟨rotations + 1, Or.inl rfl, rfl⟩
    · exact ⟨v, Or.inr (by omega), rfl⟩
  · rintro ⟨v, rfl | hv, rfl⟩
    · exact Or.inl rfl
    · exact Or.inr ⟨v, by omega, rfl⟩

/-- Every version has its own key, but the first is read only as the primary. -/
theorem keys_serviceAfter {rotations : ℕ} (hle : rotations ≤ 9) (v : ℕ) :
    (serviceAfter first newKey rotations).keys (.fin v) =
      if v = rotations + 1 ∨ 2 ≤ v ∧ v ≤ rotations then some (fromHex (keyOf first newKey v))
      else none := by
  have hinj {w : ℕ} : (Js.Num.fin w = .fin v) ↔ w = v := by
    rw [Js.Num.fin.injEq, Nat.cast_inj]
  have hfound : (∃ entry ∈ resolveKeys (deployed first newKey rotations),
      entry.version = .fin v) ↔ v = rotations + 1 ∨ 2 ≤ v ∧ v ≤ rotations := by
    simp only [mem_resolveKeys hfirst hkey hle]
    constructor
    · rintro ⟨entry, ⟨w, hw, rfl⟩, hversion⟩
      rwa [← hinj.mp hversion]
    · exact fun hv => ⟨_, ⟨v, hv, rfl⟩, rfl⟩
  rw [serviceAfter, EncryptionService.start]
  dsimp only
  rw [keys_foldl _ _ (keyOf first newKey v)]
  · simp only [hfound]
  · intro entry hmem hversion
    obtain ⟨w, -, rfl⟩ := (mem_resolveKeys hfirst hkey hle).mp hmem
    rw [hinj.mp hversion]

/-! ## Payloads across rotations -/

/-- The service reads the payload, and makes one of its own version of it that
it reads and leaves alone. -/
def Survives (gcm : Gcm) (service : EncryptionService) (payload : EncryptedPayload)
    (plaintext : List Char) : Prop :=
  decrypt gcm service payload = .ok plaintext ∧
    ∀ iv, ∃ payload', reencrypt gcm service iv payload = .ok payload' ∧
      payload'.keyVersion = service.currentVersion ∧
      decrypt gcm service payload' = .ok plaintext ∧
      ∀ iv', reencrypt gcm service iv' payload' = .ok payload'

omit hfirst in
theorem length_keyOf (v : ℕ) : (fromHex (keyOf first newKey v)).length = Gcm.KEY_LENGTH :=
  length_fromHex (n := 32) (hkey v).1 (hkey v).2

/-- Payloads are made with the newest key. -/
theorem encrypt_serviceAfter (gcm : Gcm) {rotations : ℕ} (hle : rotations ≤ 9)
    (iv : RandomBytes IV_BYTES) (plaintext : List Char) :
    encrypt gcm (serviceAfter first newKey rotations) iv plaintext =
      .ok { ciphertext :=
              toBase64 (sealed gcm (fromHex (keyOf first newKey (rotations + 1))) iv plaintext),
            keyVersion := .fin (rotations + 1 : ℕ) } := by
  have hcurrent := currentVersion_serviceAfter hfirst hkey hle
  rw [encrypt_eq _ (length_keyOf hkey _), hcurrent]
  rw [hcurrent, keys_serviceAfter hfirst hkey hle, if_pos (Or.inl rfl)]

omit hfirst hkey in
theorem reencrypt_current {gcm : Gcm} {service : EncryptionService} {payload : EncryptedPayload}
    {q : ℚ} (hversion : payload.keyVersion = .fin q) (hcurrent : service.currentVersion = .fin q)
    (iv : RandomBytes IV_BYTES) : reencrypt gcm service iv payload = .ok payload := by
  rw [reencrypt, hversion, hcurrent, if_pos (by simp [Js.Num.strictEq])]

/-- What is read survives. -/
theorem survives_iff (gcm : Gcm) {rotations : ℕ} (hle : rotations ≤ 9) (v : ℕ)
    (iv : RandomBytes IV_BYTES) (plaintext : List Char) :
    Survives gcm (serviceAfter first newKey rotations)
        { ciphertext := toBase64 (sealed gcm (fromHex (keyOf first newKey v)) iv plaintext),
          keyVersion := .fin v } plaintext ↔
      v = rotations + 1 ∨ 2 ≤ v ∧ v ≤ rotations := by
  have hcurrent := currentVersion_serviceAfter hfirst hkey hle
  have hkeys := keys_serviceAfter hfirst hkey hle v
  constructor
  · rintro ⟨hdecrypt, -⟩
    by_contra hnot
    rw [if_neg hnot] at hkeys
    rw [decrypt, hkeys] at hdecrypt
    cases hdecrypt
  · intro hv
    rw [if_pos hv] at hkeys
    refine ⟨decrypt_sealed hkeys (length_keyOf hkey v) iv plaintext, fun iv' => ?_⟩
    rcases eq_or_ne v (rotations + 1) with rfl | hne
    · exact ⟨_, reencrypt_current rfl hcurrent iv', hcurrent.symm,
        decrypt_sealed hkeys (length_keyOf hkey _) iv plaintext, reencrypt_current rfl hcurrent⟩
    · have hprimary := keys_serviceAfter hfirst hkey hle (rotations + 1)
      rw [if_pos (Or.inl rfl)] at hprimary
      have hold : (Js.Num.fin v).strictEq (.fin (rotations + 1 : ℕ)) = false := by
        simp only [Js.Num.strictEq, Js.Num.fin.injEq, Nat.cast_inj, hne, decide_false,
          Bool.false_and]
      refine ⟨{ ciphertext := toBase64 (sealed gcm (fromHex (keyOf first newKey (rotations + 1)))
          iv' plaintext), keyVersion := .fin (rotations + 1 : ℕ) }, ?_, hcurrent.symm,
        decrypt_sealed hprimary (length_keyOf hkey _) iv' plaintext, reencrypt_current rfl hcurrent⟩
      rw [reencrypt, hcurrent, hold, if_neg Bool.false_ne_true,
        decrypt_sealed hkeys (length_keyOf hkey v)]
      exact encrypt_serviceAfter hfirst hkey gcm hle iv' plaintext

/-- **Payloads are made with the primary key, and one made after `before`
rotations survives up to `after` exactly when there was no rotation between or
it is not of the first version.** -/
theorem rotation_iff (gcm : Gcm) {before after : ℕ} (hle : before ≤ after) (hafter : after ≤ 9)
    (iv : RandomBytes IV_BYTES) (plaintext : List Char) :
    ∃ payload, encrypt gcm (serviceAfter first newKey before) iv plaintext = .ok payload ∧
      payload.ciphertext = toBase64 (sealed gcm
        (fromHex (deployed first newKey before).WALLET_ENCRYPTION_KEY) iv plaintext) ∧
      payload.keyVersion = (serviceAfter first newKey before).currentVersion ∧
      (Survives gcm (serviceAfter first newKey after) payload plaintext ↔
        before = after ∨ 1 ≤ before) := by
  have hbefore : before ≤ 9 := hle.trans hafter
  refine ⟨_, encrypt_serviceAfter hfirst hkey gcm hbefore iv plaintext, ?_,
    (currentVersion_serviceAfter hfirst hkey hbefore).symm, ?_⟩
  · rw [primary_deployed]
  · rw [survives_iff hfirst hkey gcm hafter]
    omega

omit hfirst hkey

/-- The first deployment with the key `0xaa`. -/
def firstEnvironment : Environment where
  WALLET_ENCRYPTION_KEY := sampleKey
  WALLET_ENCRYPTION_KEY_VERSION := none
  WALLET_ENCRYPTION_KEY_V _ := none

theorem isFirst_firstEnvironment : IsFirst firstEnvironment := ⟨Or.inl rfl, fun _ => rfl⟩

theorem isHexKey_sample (v : ℕ) :
    IsHexKey (keyOf firstEnvironment (fun _ => List.replicate 64 'b') v) := by
  have hreplicate (char : Char) (h : (Js.baseDigit 16 char).isSome) :
      IsHexKey (List.replicate 64 char) :=
    ⟨List.length_replicate, List.forall_mem_replicate.mpr (Or.inr h)⟩
  unfold keyOf
  split
  · exact hreplicate 'a' (by decide)
  · exact hreplicate 'b' (by decide)

theorem rotation_iff_second :
    ∃ payload, encrypt sampleGcm (serviceAfter firstEnvironment (fun _ => List.replicate 64 'b') 1)
        ⟨List.replicate 12 0, by decide⟩ [] = .ok payload ∧
      payload.ciphertext = toBase64 (sealed sampleGcm (fromHex (deployed firstEnvironment
        (fun _ => List.replicate 64 'b') 1).WALLET_ENCRYPTION_KEY) ⟨List.replicate 12 0, by decide⟩ []) ∧
      payload.keyVersion =
        (serviceAfter firstEnvironment (fun _ => List.replicate 64 'b') 1).currentVersion ∧
      (Survives sampleGcm (serviceAfter firstEnvironment (fun _ => List.replicate 64 'b') 2) payload [] ↔
        1 = 2 ∨ 1 ≤ 1) :=
  rotation_iff isFirst_firstEnvironment isHexKey_sample sampleGcm (by decide) (by decide)
    ⟨List.replicate 12 0, by decide⟩ []

/-- The first rotation loses the first key. -/
theorem first_key_lost :
    ∃ payload, encrypt sampleGcm (serviceAfter firstEnvironment (fun _ => List.replicate 64 'b') 0)
        ⟨List.replicate 12 0, by decide⟩ [] = .ok payload ∧
      decrypt sampleGcm (serviceAfter firstEnvironment (fun _ => List.replicate 64 'b') 1) payload =
        .error (.noKey (.fin 1)) := by
  refine ⟨_, encrypt_serviceAfter isFirst_firstEnvironment isHexKey_sample sampleGcm (by decide)
    ⟨List.replicate 12 0, by decide⟩ [], ?_⟩
  have hkeys := keys_serviceAfter isFirst_firstEnvironment isHexKey_sample (by decide : 1 ≤ 9) 1
  rw [if_neg (by decide)] at hkeys
  rw [decrypt, hkeys]
  norm_num

end Encryption

end NexaFx

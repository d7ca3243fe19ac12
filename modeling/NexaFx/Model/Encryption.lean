import NexaFx.Lib.Gcm

/-!
# Encryption services

The two classes named `EncryptionService`: the one of `common/encryption`, with
a key for each version and the layout iv (12) | ciphertext | tag (16), and the
one of `common/services`, with a single key and the layout iv (16) | tag (16) |
ciphertext. Initialisation vectors are arguments; Node's `crypto` is an ideal
`Gcm`, which takes keys of 32 bytes.
-/

open Buffer

namespace NexaFx

inductive EncryptionError where
  /-- `No key available for version ${keyVersion}` -/
  | noKey (keyVersion : Js.Num)
  | invalidKeyLength
  | invalidTagLength
  | unableToAuthenticate
  deriving DecidableEq, Repr

/-- What `randomBytes(n)` returns. -/
abbrev RandomBytes (n : ℕ) := { bytes : Bytes // bytes.length = n }

/-- `createCipheriv`, `update`, `final` and `getAuthTag` -/
def createCipheriv (gcm : Gcm) (key iv text : Bytes) : Except EncryptionError Gcm.Message :=
  if key.length ≠ Gcm.KEY_LENGTH then .error .invalidKeyLength
  else .ok (gcm.encipher key iv text)

/-- `createDecipheriv`, `setAuthTag`, `update` and `final` -/
def createDecipheriv (gcm : Gcm) (key : Bytes) (message : Gcm.Message) :
    Except EncryptionError Bytes :=
  if key.length ≠ Gcm.KEY_LENGTH then .error .invalidKeyLength
  else if ¬ Gcm.IsTagLength message.tag.length then .error .invalidTagLength
  else
    match gcm.decipher key message with
    | none => .error .unableToAuthenticate
    | some text => .ok text

/-! ## common/encryption -/

namespace Encryption

def IV_BYTES : ℕ := 12

def TAG_BYTES : ℕ := 16

structure EncryptedPayload where
  ciphertext : List Char
  keyVersion : Js.Num
  deriving DecidableEq, Repr

/-- The variables that are read, and `WALLET_ENCRYPTION_KEY_V1`. The schema of
the environment requires the first. -/
structure Environment where
  WALLET_ENCRYPTION_KEY : List Char
  WALLET_ENCRYPTION_KEY_VERSION : Option (List Char)
  WALLET_ENCRYPTION_KEY_V : ℕ → Option (List Char)

/-- One rotation by the book: the primary key moves to the variable of its
version, the new one becomes primary with the next version. -/
def Environment.rotate (env : Environment) (version : ℕ) (newKey : List Char) : Environment where
  WALLET_ENCRYPTION_KEY := newKey
  WALLET_ENCRYPTION_KEY_VERSION := some (toString (version + 1)).toList
  WALLET_ENCRYPTION_KEY_V :=
    Function.update env.WALLET_ENCRYPTION_KEY_V version (some env.WALLET_ENCRYPTION_KEY)

structure VersionedKey where
  version : Js.Num
  hex : List Char

def resolveKeys (env : Environment) : List VersionedKey :=
  let primaryVersion := Js.parseInt (env.WALLET_ENCRYPTION_KEY_VERSION.getD ['1'])
  { version := primaryVersion, hex := env.WALLET_ENCRYPTION_KEY } ::
    (List.range' 2 9).filterMap fun v =>
      match env.WALLET_ENCRYPTION_KEY_V v with
      | some hex => if hex ≠ [] then some { version := .fin v, hex } else none
      | none => none

structure EncryptionService where
  keys : Js.Num → Option Bytes
  currentVersion : Js.Num

/-- The constructor. -/
def EncryptionService.start (env : Environment) : EncryptionService :=
  let envKeys := resolveKeys env
  { keys := envKeys.foldl
      (fun keys key => Function.update keys key.version (some (fromHex key.hex))) fun _ => none
    currentVersion := envKeys.foldl (fun version key => version.max key.version) (.inf true) }

def encrypt (gcm : Gcm) (service : EncryptionService) (iv : RandomBytes IV_BYTES)
    (plaintext : List Char) : Except EncryptionError EncryptedPayload :=
  match service.keys service.currentVersion with
  -- `!` in the source: `createCipheriv` refuses `undefined`
  | none => .error .invalidKeyLength
  | some key =>
    match createCipheriv gcm key iv (toUtf8 plaintext) with
    | .error error => .error error
    | .ok message =>
      let combined := message.iv ++ message.ciphertext ++ message.tag
      .ok { ciphertext := toBase64 combined, keyVersion := service.currentVersion }

def slices (combined : Bytes) : Gcm.Message :=
  { iv := subarray combined 0 IV_BYTES
    tag := subarrayFrom combined (combined.length - TAG_BYTES)
    ciphertext := subarray combined IV_BYTES (combined.length - TAG_BYTES) }

def decrypt (gcm : Gcm) (service : EncryptionService) (payload : EncryptedPayload) :
    Except EncryptionError (List Char) :=
  match service.keys payload.keyVersion with
  | none => .error (.noKey payload.keyVersion)
  | some key =>
    let combined := fromBase64 payload.ciphertext
    (createDecipheriv gcm key (slices combined)).map fromUtf8

def reencrypt (gcm : Gcm) (service : EncryptionService) (iv : RandomBytes IV_BYTES)
    (payload : EncryptedPayload) : Except EncryptionError EncryptedPayload :=
  if payload.keyVersion.strictEq service.currentVersion then .ok payload
  else
    match decrypt gcm service payload with
    | .error error => .error error
    | .ok plaintext => encrypt gcm service iv plaintext

end Encryption

/-! ## common/services -/

namespace Services

def IV_LENGTH : ℕ := 16

def TAG_LENGTH : ℕ := 16

structure EncryptionService where
  key : Bytes
  key_length : key.length = 32

def EncryptionService.start (key : List Char) : Except String EncryptionService :=
  if h : (fromHex key).length = 32 then .ok { key := fromHex key, key_length := h }
  else .error "WALLET_ENCRYPTION_KEY must be a 32-byte hex string (64 hex chars)"

def encrypt (gcm : Gcm) (service : EncryptionService) (iv : RandomBytes IV_LENGTH)
    (plaintext : List Char) : Except EncryptionError (List Char) :=
  (createCipheriv gcm service.key iv (toUtf8 plaintext)).map fun message =>
    toBase64 (message.iv ++ message.tag ++ message.ciphertext)

def slices (data : Bytes) : Gcm.Message :=
  { iv := subarray data 0 IV_LENGTH
    tag := subarray data IV_LENGTH (IV_LENGTH + TAG_LENGTH)
    ciphertext := subarrayFrom data (IV_LENGTH + TAG_LENGTH) }

def decrypt (gcm : Gcm) (service : EncryptionService) (ciphertext : List Char) :
    Except EncryptionError (List Char) :=
  (createDecipheriv gcm service.key (slices (fromBase64 ciphertext))).map fromUtf8

end Services

end NexaFx

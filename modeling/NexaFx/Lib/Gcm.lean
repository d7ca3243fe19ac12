import NexaFx.Lib.Buffer

/-!
# AES-256-GCM

An ideal `Gcm` is its keystream and the tag it computes for a key, an
initialisation vector and a ciphertext. `decipher` accepts exactly the
prefixes of the true tag of an allowed length (`decipher_eq_some`). What
deciphers although it is another message is a forgery (`Forged`).
-/

open Buffer

structure Gcm where
  keystream : Bytes → Bytes → ℕ → UInt8
  tag : Bytes → Bytes → Bytes → Bytes
  length_tag : ∀ key iv ciphertext, (tag key iv ciphertext).length = 16

namespace Gcm

variable (gcm : Gcm)

/-- A key of 256 bits. -/
def KEY_LENGTH : ℕ := 32

/-- The text combined with the keystream. -/
def mask (key iv text : Bytes) : Bytes :=
  text.mapIdx fun i byte => byte ^^^ gcm.keystream key iv i

@[simp] theorem length_mask (key iv text : Bytes) : (gcm.mask key iv text).length = text.length := by
  simp [mask]

@[simp] theorem mask_mask (key iv text : Bytes) : gcm.mask key iv (gcm.mask key iv text) = text := by
  rw [mask, mask, List.mapIdx_mapIdx]
  refine List.ext_getElem (by simp) (fun i h h' => ?_)
  simp [UInt8.xor_assoc]

theorem mask_eq_nil {key iv text : Bytes} : gcm.mask key iv text = [] ↔ text = [] := by
  rw [← List.length_eq_zero_iff, length_mask, List.length_eq_zero_iff]

/-- What is enciphered, with its tag. -/
structure Message where
  iv : Bytes
  ciphertext : Bytes
  tag : Bytes
  deriving DecidableEq, Repr

def encipher (key iv text : Bytes) : Message :=
  { iv, ciphertext := gcm.mask key iv text, tag := gcm.tag key iv (gcm.mask key iv text) }

def IsTagLength (n : ℕ) : Prop := n = 4 ∨ n = 8 ∨ 12 ≤ n ∧ n ≤ 16

instance (n : ℕ) : Decidable (IsTagLength n) := by unfold IsTagLength; infer_instance

def Accepts (key : Bytes) (message : Message) : Prop :=
  IsTagLength message.tag.length ∧ message.tag <+: gcm.tag key message.iv message.ciphertext

instance (key : Bytes) (message : Message) : Decidable (gcm.Accepts key message) := by
  unfold Accepts; infer_instance

def decipher (key : Bytes) (message : Message) : Option Bytes :=
  if gcm.Accepts key message then some (gcm.mask key message.iv message.ciphertext) else none

theorem decipher_eq_none {key : Bytes} {message : Message} :
    gcm.decipher key message = none ↔ ¬ gcm.Accepts key message := by
  simp [decipher]

theorem accepts_encipher (key iv text : Bytes) : gcm.Accepts key (gcm.encipher key iv text) := by
  refine ⟨?_, List.prefix_refl _⟩
  have hlen : (gcm.encipher key iv text).tag.length = 16 := gcm.length_tag _ _ _
  unfold IsTagLength
  omega

theorem decipher_encipher (key iv text : Bytes) :
    gcm.decipher key (gcm.encipher key iv text) = some text := by
  rw [decipher, if_pos (gcm.accepts_encipher key iv text)]
  simp [encipher]

/-- A full tag that is accepted is the true one. -/
theorem accepts_full {key : Bytes} {message : Message} (hlen : message.tag.length = 16)
    (h : gcm.Accepts key message) :
    message.tag = gcm.tag key message.iv message.ciphertext :=
  h.2.eq_of_length (by rw [hlen, gcm.length_tag])

/-- `message` carries a tag of a text other than that of `original`. An ideal
cipher lets nobody make one without the key. -/
def Forged (key : Bytes) (original message : Message) : Prop :=
  (message.iv, message.ciphertext) ≠ (original.iv, original.ciphertext) ∧
    gcm.Accepts key message

/-- What is accepted and not forged is the original with a shorter tag. -/
theorem accepts_not_forged_iff {key iv text : Bytes} {message : Message} :
    (gcm.Accepts key message ∧ ¬ gcm.Forged key (gcm.encipher key iv text) message) ↔
      message.iv = iv ∧ message.ciphertext = gcm.mask key iv text ∧
        IsTagLength message.tag.length ∧ message.tag <+: gcm.tag key iv (gcm.mask key iv text) := by
  constructor
  · rintro ⟨hacc, hforged⟩
    obtain ⟨hiv, hct⟩ : message.iv = iv ∧ message.ciphertext = gcm.mask key iv text := by
      by_contra hne
      exact hforged ⟨fun heq => hne (Prod.mk.inj heq), hacc⟩
    have hpre := hacc.2
    rw [hiv, hct] at hpre
    exact ⟨hiv, hct, hacc.1, hpre⟩
  · rintro ⟨hiv, hct, hlen, hpre⟩
    refine ⟨⟨hlen, ?_⟩, fun hforged => hforged.1 ?_⟩
    · rw [hiv, hct]
      exact hpre
    · rw [hiv, hct]
      rfl

end Gcm

import NexaFx.Model.IpAllowlist
import NexaFx.Safety.WebhookUrls

/-!
# What the IP allowlist admits

`Lists` says which entries list an address: its own text, or a network whose
decimal mask leaves it the top bits of the address. The guard reads octets and
masks by `Number`, so that other spellings count as well: an empty octet is 0,
`0xa` is 10, and an empty mask is none. `contains_iff` says which entries admit
an address beyond `Lists`, and `allowlist_iff` when that makes a difference.
-/

namespace NexaFx

namespace IpAllowlist

open WebhookUrls (quadValue Block)

/-! ## Addresses and entries -/

/-- A decimal of at most `bound`. -/
structure IsDecimal (s : List Char) (bound : ℕ) : Prop where
  ne_nil : s ≠ []
  digits : ∀ c ∈ s, c.isDigit = true
  le : Js.decimalValue s ≤ bound

/-- Four decimal octets of value `n`. -/
def IsAddress (address : List Char) (n : ℕ) : Prop :=
  ∃ p q r t, address.splitOn '.' = [p, q, r, t] ∧ (∀ part ∈ [p, q, r, t], IsDecimal part 255) ∧
    n = quadValue (Js.decimalValue p) (Js.decimalValue q) (Js.decimalValue r) (Js.decimalValue t)

/-- The entry is the address, or a network of the address. -/
def Lists (entry ip : List Char) : Prop :=
  match entry.splitOn '/' with
  | [network] => ip = normalizeIp network
  | [network, mask] => IsDecimal mask 32 ∧ ∃ m n, IsAddress (normalizeIp network) m ∧
      IsAddress ip n ∧ (Block.mk m (Js.decimalValue mask)).Contains n
  | _ => False

/-- The guard admits exactly the addresses that are listed. -/
def MatchesExactly (adminAllowedIps : Option (List (List Char))) (ip : Option (List Char)) : Prop :=
  canActivate adminAllowedIps ip = .ok true ↔
    normalizeIp (ip.getD []) ≠ [] ∧
      ∃ entry ∈ allowedIps adminAllowedIps, Lists entry (normalizeIp (ip.getD []))

/-! ## Other spellings -/

/-- `Number` reads an integer of at most `bound`. -/
def Reads (s : List Char) (bound n : ℕ) : Prop := Js.number s = .fin n ∧ n ≤ bound

def ReadsAddress (address : List Char) (n : ℕ) : Prop :=
  ∃ p q r t a b c d, address.splitOn '.' = [p, q, r, t] ∧
    (Reads p 255 a ∧ Reads q 255 b ∧ Reads r 255 c ∧ Reads t 255 d) ∧ n = quadValue a b c d

/-- The entry fits the address in a spelling of its own: a prefix twice, an
empty mask, a second slash, or an octet or mask that is a number but no decimal. -/
def ListsLaxly (entry ip : List Char) : Prop :=
  match entry.splitOn '/' with
  | network :: (c :: mask) :: rest => ∃ m n bits, ReadsAddress (normalizeIp network) m ∧
      ReadsAddress (normalizeIp ip) n ∧ Reads (c :: mask) 32 bits ∧ (Block.mk m bits).Contains n ∧
      ¬ (rest = [] ∧ IsDecimal (c :: mask) 32 ∧ (∃ m, IsAddress (normalizeIp network) m) ∧
        ∃ n, IsAddress ip n)
  | [network] => normalizeIp ip ≠ ip ∧ normalizeIp ip = normalizeIp network
  | network :: _ => normalizeIp ip = normalizeIp network
  | [] => False

/-- Where an entry fits in a spelling of its own, another lists the address; and
a listed address does not carry the prefix twice, unless an entry fits so. -/
def Spelled (adminAllowedIps : Option (List (List Char))) (ip : Option (List Char)) : Prop :=
  let address := normalizeIp (ip.getD [])
  let laxly := ∃ entry ∈ allowedIps adminAllowedIps, ListsLaxly entry address
  let exactly := ∃ entry ∈ allowedIps adminAllowedIps, Lists entry address
  address ≠ [] → (laxly → exactly) ∧ (normalizeIp address ≠ address → exactly → laxly)

/-! ## Octets and masks -/

theorem isInt_iff (q : ℚ) (bound : ℕ) :
    (q.isInt && (0 ≤ q : Bool) && (q ≤ bound : Bool)) = true ↔ ∃ n : ℕ, n ≤ bound ∧ q = n := by
  simp only [Bool.and_eq_true, decide_eq_true_eq]
  constructor
  · rintro ⟨⟨hint, hlow⟩, hhigh⟩
    have hq : q = (q.num : ℚ) := Rat.eq_num_of_isInt hint
    obtain ⟨n, hn⟩ := Int.eq_ofNat_of_zero_le (Rat.num_nonneg.mpr hlow)
    rw [hn] at hq
    refine ⟨n, ?_, by exact_mod_cast hq⟩
    rw [hq] at hhigh
    exact_mod_cast hhigh
  · rintro ⟨n, hn, rfl⟩
    exact ⟨⟨rfl, by positivity⟩, by exact_mod_cast hn⟩

theorem byteOf_of_reads {part : List Char} {n : ℕ} (h : Reads part 255 n) :
    byteOf part = .fin n := by
  have hint := (isInt_iff n 255).mpr ⟨n, h.2, rfl⟩
  rw [byteOf, h.1]
  exact if_pos hint

theorem reads_of_byteOf {part : List Char} (h : byteOf part ≠ .nan) : ∃ n, Reads part 255 n := by
  unfold byteOf at h
  split at h
  · rename_i value hvalue
    split at h
    · rename_i hint
      obtain ⟨n, hn, rfl⟩ := (isInt_iff value 255).mp hint
      exact ⟨n, hvalue, hn⟩
    · exact absurd rfl h
  · exact absurd rfl h

theorem maskLengthOf_iff {text : List Char} {bits : ℕ} :
    maskLengthOf text = some bits ↔ Reads text 32 bits := by
  constructor
  · intro h
    unfold maskLengthOf at h
    split at h
    · rename_i value hvalue
      split at h
      · rename_i hint
        obtain ⟨n, hn, rfl⟩ := (isInt_iff value 32).mp hint
        cases h
        exact ⟨hvalue, hn⟩
      · cases h
    · cases h
  · intro h
    have hint := (isInt_iff bits 32).mpr ⟨bits, h.2, rfl⟩
    rw [maskLengthOf, h.1]
    exact if_pos hint

theorem Reads.unique {s : List Char} {bound m n : ℕ} (h : Reads s bound m) (h' : Reads s bound n) :
    m = n := by
  have heq := h.1.symm.trans h'.1
  exact_mod_cast Js.Num.fin.inj heq

theorem IsDecimal.reads {s : List Char} {bound : ℕ} (h : IsDecimal s bound) (hbound : bound < 2 ^ 53) :
    Reads s bound (Js.decimalValue s) :=
  ⟨Js.number_digits h.ne_nil h.digits (lt_of_le_of_lt h.le hbound), h.le⟩

/-! ## Four octets -/

/-- The octets side by side. -/
theorem toUint32_octets {a b c d : ℕ} (ha : a ≤ 255) (hb : b ≤ 255) (hc : c ≤ 255) (hd : d ≤ 255) :
    Js.toUint32 (Js.addInt (Js.shl (.fin a) 24 + Js.shl (.fin b) 16 + Js.shl (.fin c) 8) (.fin d)) =
      quadValue a b c d := by
  have hshl (n : ℕ) (k : ℕ) : Js.shl (.fin n) k = Int.bmod (n * 2 ^ k) (2 ^ 32) := by
    have hcast : (n : ℚ) = ((n : ℤ) : ℚ) := by norm_cast
    rw [Js.shl, hcast, WebhookUrls.toInt32_intCast, Int.bmod_mul_bmod]
  have hbmod (x : ℤ) : -2147483648 ≤ Int.bmod x (2 ^ 32) ∧ Int.bmod x (2 ^ 32) < 2147483648 ∧
      Int.bmod x (2 ^ 32) % 4294967296 = x % 4294967296 :=
    ⟨Int.le_bmod (by norm_num), Int.bmod_lt (by norm_num), WebhookUrls.bmod_emod32 x⟩
  have hadd (x : ℤ) (hx : |x + d| < 2 ^ 53) : Js.addInt x (.fin d) = .fin (x + d : ℤ) := by
    rw [Js.addInt, ← Js.Num.of_intCast hx]
    push_cast
    rfl
  obtain ⟨hlow, hhigh, hmod⟩ := hbmod (a * 2 ^ 24)
  obtain ⟨hlow', hhigh', hmod'⟩ := hbmod (b * 2 ^ 16)
  obtain ⟨hlow'', hhigh'', hmod''⟩ := hbmod (c * 2 ^ 8)
  rw [hshl, hshl, hshl]
  generalize Int.bmod (a * 2 ^ 24) (2 ^ 32) = x at *
  generalize Int.bmod (b * 2 ^ 16) (2 ^ 32) = y at *
  generalize Int.bmod (c * 2 ^ 8) (2 ^ 32) = z at *
  rw [hadd _ (by rw [abs_lt]; omega), Js.toUint32, WebhookUrls.toInt32_intCast,
    WebhookUrls.bmod_emod32, quadValue]
  omega

theorem ipv4ToNumber_of_reads {address : List Char} {n : ℕ} (h : ReadsAddress address n) :
    ipv4ToNumber address = some (n : ℤ) := by
  obtain ⟨p, q, r, t, a, b, c, d, hsplit, ⟨hp, hq, hr, ht⟩, rfl⟩ := h
  have hbytes : (address.splitOn '.').map byteOf = [.fin a, .fin b, .fin c, .fin d] := by
    rw [hsplit]
    simp only [List.map_cons, List.map_nil, byteOf_of_reads hp, byteOf_of_reads hq,
      byteOf_of_reads hr, byteOf_of_reads ht]
  unfold ipv4ToNumber
  rw [hbytes]
  dsimp only
  rw [if_neg (by simp), toUint32_octets hp.2 hq.2 hr.2 ht.2]

theorem reads_of_ipv4ToNumber {address : List Char} {x : ℤ} (h : ipv4ToNumber address = some x) :
    ∃ n : ℕ, ReadsAddress address n ∧ x = n := by
  unfold ipv4ToNumber at h
  split at h
  · rename_i b0 b1 b2 b3 hbytes
    split at h
    · cases h
    · rename_i hnan
      match hsplit : address.splitOn '.' with
      | [p, q, r, t] =>
        rw [hsplit] at hbytes
        simp only [List.map_cons, List.map_nil, List.cons.injEq, and_true] at hbytes
        obtain ⟨rfl, rfl, rfl, rfl⟩ := hbytes
        simp only [List.any_cons, List.any_nil, Bool.or_false, Bool.or_eq_true,
          decide_eq_true_eq, not_or] at hnan
        obtain ⟨a, ha⟩ := reads_of_byteOf hnan.1
        obtain ⟨b, hb⟩ := reads_of_byteOf hnan.2.1
        obtain ⟨c, hc⟩ := reads_of_byteOf hnan.2.2.1
        obtain ⟨d, hd⟩ := reads_of_byteOf hnan.2.2.2
        have hreads : ReadsAddress address (quadValue a b c d) :=
          ⟨p, q, r, t, a, b, c, d, hsplit, ⟨ha, hb, hc, hd⟩, rfl⟩
        refine ⟨_, hreads, ?_⟩
        rw [byteOf_of_reads ha, byteOf_of_reads hb, byteOf_of_reads hc, byteOf_of_reads hd,
          toUint32_octets ha.2 hb.2 hc.2 hd.2] at h
        exact (Option.some.inj h).symm
      | [] | [_] | [_, _] | [_, _, _] | _ :: _ :: _ :: _ :: _ :: _ =>
        rw [hsplit] at hbytes
        simp at hbytes
  · cases h

theorem ReadsAddress.lt {address : List Char} {n : ℕ} (h : ReadsAddress address n) : n < 2 ^ 32 := by
  obtain ⟨p, q, r, t, a, b, c, d, -, ⟨hp, hq, hr, ht⟩, rfl⟩ := h
  have ha := hp.2
  have hb := hq.2
  have hc := hr.2
  have hd := ht.2
  rw [quadValue]
  omega

theorem ReadsAddress.unique {address : List Char} {m n : ℕ} (h : ReadsAddress address m)
    (h' : ReadsAddress address n) : m = n := by
  have heq := (ipv4ToNumber_of_reads h).symm.trans (ipv4ToNumber_of_reads h')
  exact_mod_cast Option.some.inj heq

theorem IsAddress.reads {address : List Char} {n : ℕ} (h : IsAddress address n) :
    ReadsAddress address n := by
  obtain ⟨p, q, r, t, hsplit, hparts, rfl⟩ := h
  simp only [List.mem_cons, List.not_mem_nil, or_false, forall_eq_or_imp, forall_eq] at hparts
  obtain ⟨hp, hq, hr, ht⟩ := hparts
  exact ⟨p, q, r, t, _, _, _, _, hsplit, ⟨hp.reads (by norm_num), hq.reads (by norm_num),
    hr.reads (by norm_num), ht.reads (by norm_num)⟩, rfl⟩

/-- An address has no prefix. -/
theorem IsAddress.normalizeIp_eq {address : List Char} {n : ℕ} (h : IsAddress address n) :
    normalizeIp address = address := by
  obtain ⟨p, q, r, t, hsplit, hparts, rfl⟩ := h
  have hp := hparts p List.mem_cons_self
  have hjoin : ['.'].intercalate (address.splitOn '.') = address := List.intercalate_splitOn '.'
  rw [hsplit] at hjoin
  unfold normalizeIp
  rw [if_neg]
  rw [List.isPrefixOf_iff_prefix]
  intro hprefix
  match p, hp with
  | c :: p, hp =>
    have hc : c.isDigit = true := hp.digits c List.mem_cons_self
    rw [← hjoin] at hprefix
    obtain ⟨rest, hrest⟩ := hprefix
    have hhead := (List.cons.inj hrest).1
    rw [← hhead] at hc
    exact absurd hc (by decide)
  | [], hp => exact absurd rfl hp.ne_nil

/-! ## Masks -/

theorem ofInt_toInt32 (n : ℤ) : BitVec.ofInt 32 (Js.toInt32 (.fin n)) = BitVec.ofInt 32 n := by
  rw [WebhookUrls.toInt32_intCast]
  refine BitVec.eq_of_toInt_eq ?_
  rw [BitVec.toInt_ofInt, BitVec.toInt_ofInt, Int.bmod_bmod]

theorem ofInt_natCast (n : ℕ) : BitVec.ofInt 32 (Js.toInt32 (.fin n)) = BitVec.ofNat 32 n := by
  have hcast : (n : ℚ) = ((n : ℤ) : ℚ) := by norm_cast
  rw [hcast, ofInt_toInt32, BitVec.ofInt_natCast]

/-- The mask has the top bits set. -/
theorem ofInt_maskOf {bits : ℕ} (hpos : 0 < bits) (hle : bits ≤ 32) :
    BitVec.ofInt 32 (maskOf bits) = BitVec.allOnes 32 <<< (32 - bits) := by
  have hall : ∀ k < 32, BitVec.ofInt 32 (Int.bmod (Int.bmod (0xffffffff : ℤ) (2 ^ 32) * 2 ^ k)
      (2 ^ 32) % 2 ^ 32) = BitVec.allOnes 32 <<< k := by decide +kernel
  have hones : Js.toInt32 (.fin 0xffffffff) = Int.bmod 0xffffffff (2 ^ 32) :=
    WebhookUrls.toInt32_intCast 0xffffffff
  rw [maskOf, if_neg (by omega), Js.toUint32, WebhookUrls.toInt32_intCast,
    WebhookUrls.bmod_emod32, Js.shl, hones]
  exact hall (32 - bits) (by omega)

/-- What is left under the mask is what the top bits are. -/
theorem and_mask_iff (x y : BitVec 32) (k : ℕ) :
    x &&& BitVec.allOnes 32 <<< k = y &&& BitVec.allOnes 32 <<< k ↔
      x.toNat / 2 ^ k = y.toNat / 2 ^ k := by
  have hlow (z : BitVec 32) : (z >>> k <<< k).toNat = z.toNat / 2 ^ k * 2 ^ k := by
    have hlt : z.toNat / 2 ^ k * 2 ^ k < 2 ^ 32 :=
      lt_of_le_of_lt (Nat.div_mul_le_self _ _) z.isLt
    rw [BitVec.toNat_shiftLeft, BitVec.toNat_ushiftRight, Nat.shiftRight_eq_div_pow,
      Nat.shiftLeft_eq, Nat.mod_eq_of_lt hlt]
  rw [← BitVec.shiftLeft_ushiftRight, ← BitVec.shiftLeft_ushiftRight, ← BitVec.toNat_inj, hlow,
    hlow]
  exact Nat.mul_left_inj (by positivity)

theorem masked_eq_iff {m n bits : ℕ} (hm : m < 2 ^ 32) (hn : n < 2 ^ 32) (hbits : bits ≤ 32) :
    Js.bitAnd (.fin m) (.fin (maskOf bits)) = Js.bitAnd (.fin n) (.fin (maskOf bits)) ↔
      (Block.mk m bits).Contains n := by
  unfold Js.bitAnd Block.Contains
  rw [ofInt_natCast, ofInt_natCast, ofInt_toInt32, BitVec.toInt_inj]
  rcases Nat.eq_zero_or_pos bits with rfl | hpos
  · have hzero : BitVec.ofInt 32 (maskOf 0) = 0#32 := rfl
    rw [hzero, BitVec.and_zero, BitVec.and_zero]
    refine iff_of_true rfl ?_
    show n / 2 ^ 32 = m / 2 ^ 32
    rw [Nat.div_eq_of_lt hm, Nat.div_eq_of_lt hn]
  · rw [ofInt_maskOf hpos hbits, and_mask_iff, BitVec.toNat_ofNat,
      BitVec.toNat_ofNat, Nat.mod_eq_of_lt hm, Nat.mod_eq_of_lt hn]
    exact eq_comm

/-! ## What an entry admits -/

theorem cidrContainsIp_mask {entry ip network : List Char} {c : Char} {mask : List Char}
    {rest : List (List Char)} (hsplit : entry.splitOn '/' = network :: (c :: mask) :: rest) :
    cidrContainsIp ip entry = true ↔ ∃ m n bits, ReadsAddress (normalizeIp network) m ∧
      ReadsAddress (normalizeIp ip) n ∧ Reads (c :: mask) 32 bits ∧
      (Block.mk m bits).Contains n := by
  unfold cidrContainsIp
  rw [hsplit]
  dsimp only
  constructor
  · intro h
    split at h
    · rename_i x y bits hx hy hbits
      obtain ⟨m, hm, rfl⟩ := reads_of_ipv4ToNumber hx
      obtain ⟨n, hn, rfl⟩ := reads_of_ipv4ToNumber hy
      have hmask := maskLengthOf_iff.mp hbits
      refine ⟨m, n, bits, hm, hn, hmask, ?_⟩
      exact (masked_eq_iff hm.lt hn.lt hmask.2).mp (by simpa using h)
    · cases h
  · rintro ⟨m, n, bits, hm, hn, hmask, hcontains⟩
    rw [ipv4ToNumber_of_reads hm, ipv4ToNumber_of_reads hn, maskLengthOf_iff.mpr hmask]
    simpa using (masked_eq_iff hm.lt hn.lt hmask.2).mpr hcontains

/-- An entry admits the addresses it lists, but for a second prefix, and those
it fits in a spelling of its own. -/
theorem contains_iff (entry ip : List Char) :
    cidrContainsIp ip entry = true ↔
      (Lists entry ip ∧ normalizeIp ip = ip) ∨ ListsLaxly entry ip := by
  match hsplit : entry.splitOn '/' with
  | [] => exact absurd hsplit (List.splitOn_ne_nil _ _)
  | [network] =>
    simp only [cidrContainsIp, Lists, ListsLaxly, hsplit, decide_eq_true_eq]
    by_cases hip : normalizeIp ip = ip
    · simp [hip]
    · simp [hip]
  | network :: [] :: rest =>
    cases rest with
    | nil =>
      simp only [cidrContainsIp, Lists, ListsLaxly, hsplit, decide_eq_true_eq]
      have hdecimal : ¬ IsDecimal [] 32 := fun h => h.ne_nil rfl
      simp [hdecimal]
    | cons _ _ => simp [cidrContainsIp, Lists, ListsLaxly, hsplit]
  | network :: (c :: mask) :: rest =>
    rw [cidrContainsIp_mask hsplit]
    constructor
    · rintro ⟨m, n, bits, hm, hn, hmask, hcontains⟩
      by_cases hexact : rest = [] ∧ IsDecimal (c :: mask) 32 ∧
          (∃ m, IsAddress (normalizeIp network) m) ∧ ∃ n, IsAddress ip n
      · obtain ⟨rfl, hdecimal, ⟨m', hm'⟩, n', hn'⟩ := hexact
        have hnormal := hn'.normalizeIp_eq
        rw [hnormal] at hn
        obtain rfl := hm.unique hm'.reads
        obtain rfl := hn.unique hn'.reads
        obtain rfl := hmask.unique (hdecimal.reads (by norm_num))
        refine Or.inl ⟨?_, hnormal⟩
        simp only [Lists, hsplit]
        exact ⟨hdecimal, m, n, hm', hn', hcontains⟩
      · right
        simp only [ListsLaxly, hsplit]
        exact ⟨m, n, bits, hm, hn, hmask, hcontains, hexact⟩
    · rintro (⟨hlists, hnormal⟩ | hlax)
      · cases rest with
        | nil =>
          simp only [Lists, hsplit] at hlists
          obtain ⟨hdecimal, m, n, hm, hn, hcontains⟩ := hlists
          rw [hnormal]
          exact ⟨m, n, _, hm.reads, hn.reads, hdecimal.reads (by norm_num), hcontains⟩
        | cons _ _ =>
          simp only [Lists, hsplit] at hlists
      · simp only [ListsLaxly, hsplit] at hlax
        obtain ⟨m, n, bits, hm, hn, hmask, hcontains, -⟩ := hlax
        exact ⟨m, n, bits, hm, hn, hmask, hcontains⟩

/-! ## The guard -/

theorem canActivate_ok {adminAllowedIps : Option (List (List Char))} {ip : Option (List Char)}
    (hne : allowedIps adminAllowedIps ≠ []) :
    canActivate adminAllowedIps ip = .ok true ↔ normalizeIp (ip.getD []) ≠ [] ∧
      ∃ entry ∈ allowedIps adminAllowedIps, cidrContainsIp (normalizeIp (ip.getD [])) entry = true := by
  unfold canActivate
  rw [if_neg hne]
  dsimp only
  split
  · rename_i hrejected
    rw [Bool.or_eq_true, decide_eq_true_eq, Bool.not_eq_true', List.any_eq_false] at hrejected
    refine iff_of_false (fun h => by cases h) ?_
    rintro ⟨haddress, entry, hmem, hcontains⟩
    rcases hrejected with hnil | hnone
    · exact haddress hnil
    · exact hnone entry hmem hcontains
  · rename_i hadmitted
    rw [Bool.or_eq_true, not_or, decide_eq_true_eq, Bool.not_eq_true', Bool.not_eq_false,
      List.any_eq_true] at hadmitted
    exact iff_of_true rfl hadmitted

/-- **The guard admits exactly what is listed, as long as no other spelling makes
the difference.** -/
theorem allowlist_iff (adminAllowedIps : Option (List (List Char))) (ip : Option (List Char))
    (hne : allowedIps adminAllowedIps ≠ []) :
    MatchesExactly adminAllowedIps ip ↔ Spelled adminAllowedIps ip := by
  unfold MatchesExactly Spelled
  rw [canActivate_ok hne]
  generalize normalizeIp (ip.getD []) = address
  simp only [contains_iff]
  constructor
  · intro hexact haddress
    have hsame := and_congr_right_iff.mp hexact haddress
    refine ⟨?_, ?_⟩
    · rintro ⟨entry, hmem, hlax⟩
      exact hsame.mp ⟨entry, hmem, Or.inr hlax⟩
    · intro htwice hlisted
      obtain ⟨entry, hmem, ⟨-, hnormal⟩ | hlax⟩ := hsame.mpr hlisted
      · exact absurd hnormal htwice
      · exact ⟨entry, hmem, hlax⟩
  · intro hspelled
    refine and_congr_right fun haddress => ?_
    obtain ⟨hlaxly, htwice⟩ := hspelled haddress
    constructor
    · rintro ⟨entry, hmem, ⟨hlists, -⟩ | hlax⟩
      · exact ⟨entry, hmem, hlists⟩
      · exact hlaxly ⟨entry, hmem, hlax⟩
    · rintro ⟨entry, hmem, hlists⟩
      by_cases hnormal : normalizeIp address = address
      · exact ⟨entry, hmem, Or.inl ⟨hlists, hnormal⟩⟩
      · obtain ⟨other, hother, hlax⟩ := htwice hnormal ⟨entry, hmem, hlists⟩
        exact ⟨other, hother, Or.inr hlax⟩

theorem allowlist_iff_block : allowedIps (some ["10.0.0.0/8".toList]) ≠ [] ∧
    (MatchesExactly (some ["10.0.0.0/8".toList]) (some "::ffff:10.1.2.3".toList) ↔
      Spelled (some ["10.0.0.0/8".toList]) (some "::ffff:10.1.2.3".toList)) :=
  ⟨by decide, allowlist_iff _ _ (by decide)⟩

/-- A mask of `-0` bits admits everyone. -/
theorem signed_mask_admits :
    ¬ MatchesExactly (some ["10.0.0.0/-0".toList]) (some "8.8.8.8".toList) := by
  intro hexact
  have hadmitted : canActivate (some ["10.0.0.0/-0".toList]) (some "8.8.8.8".toList) = .ok true := by
    decide +kernel
  obtain ⟨-, entry, hmem, hlists⟩ := hexact.mp hadmitted
  have hallowed : allowedIps (some ["10.0.0.0/-0".toList]) = ["10.0.0.0/-0".toList] := by decide
  rw [hallowed, List.mem_singleton] at hmem
  have hsplit : "10.0.0.0/-0".toList.splitOn '/' = ["10.0.0.0".toList, ['-', '0']] := by decide
  rw [hmem] at hlists
  simp only [Lists, hsplit] at hlists
  exact absurd (hlists.1.digits '-' List.mem_cons_self) (by decide)

end IpAllowlist

end NexaFx

import NexaFx.Model.WebhookUrls

/-!
# Webhook URLs and internal addresses

`ip2int` is the big-endian value of a dotted quad (`ip2int_quad`), so the
ranges of `isPrivateIp` are CIDR blocks (`isPrivateIp_iff`). 0.0.0.0/8 is not
one of them: only the literal `0.0.0.0` is rejected, by name. And an IPv6
literal stands between brackets in `hostname`, where `net.isIP` does not see
it, so that it is looked up. `validate_guards_iff` says exactly which accepted
URLs reach an internal address or a literal in this way.
-/

namespace NexaFx

namespace WebhookUrls

/-- `a.b.c.d` -/
def quadText (a b c d : ℕ) : List Char :=
  ['.'].intercalate [octetText a, octetText b, octetText c, octetText d]

/-- The big-endian value of four octets. -/
def quadValue (a b c d : ℕ) : ℕ := a * 2 ^ 24 + b * 2 ^ 16 + c * 2 ^ 8 + d

/-! ## Dotted quads -/

theorem octetText_spec : ∀ n < 256, '.' ∉ octetText n ∧ octetText n ≠ [] ∧
    (octetText n).all Char.isDigit = true ∧ Js.decimalValue (octetText n) = n := by
  decide +kernel

theorem splitOn_quadText {a b c d : ℕ} (ha : a < 256) (hb : b < 256) (hc : c < 256)
    (hd : d < 256) :
    (quadText a b c d).splitOn '.' = [octetText a, octetText b, octetText c, octetText d] := by
  refine List.splitOn_intercalate '.' (fun part hpart => ?_) (List.cons_ne_nil _ _)
  simp only [List.mem_cons, List.not_mem_nil, or_false] at hpart
  rcases hpart with rfl | rfl | rfl | rfl
  · exact (octetText_spec a ha).1
  · exact (octetText_spec b hb).1
  · exact (octetText_spec c hc).1
  · exact (octetText_spec d hd).1

theorem isIPv4_iff {ip : List Char} :
    isIPv4 ip = true ↔
      ∃ a b c d, (a < 256 ∧ b < 256 ∧ c < 256 ∧ d < 256) ∧ ip = quadText a b c d := by
  have hpart {part : List Char} : ((List.range 256).any fun n => decide (part = octetText n)) = true ↔
      ∃ n < 256, part = octetText n := by
    simp
  constructor
  · intro h
    obtain ⟨hlen, hall⟩ := (Bool.and_eq_true _ _).mp h
    rw [List.all_eq_true] at hall
    have hjoin : ['.'].intercalate (ip.splitOn '.') = ip := List.intercalate_splitOn '.'
    match hsplit : ip.splitOn '.' with
    | [p, q, r, t] =>
      rw [hsplit] at hall hjoin
      obtain ⟨a, ha, rfl⟩ := hpart.mp (hall p (by simp))
      obtain ⟨b, hb, rfl⟩ := hpart.mp (hall q (by simp))
      obtain ⟨c, hc, rfl⟩ := hpart.mp (hall r (by simp))
      obtain ⟨d, hd, rfl⟩ := hpart.mp (hall t (by simp))
      exact ⟨a, b, c, d, ⟨ha, hb, hc, hd⟩, hjoin.symm⟩
    | [] | [_] | [_, _] | [_, _, _] | _ :: _ :: _ :: _ :: _ :: _ =>
      simp [hsplit] at hlen
  · rintro ⟨a, b, c, d, ⟨ha, hb, hc, hd⟩, rfl⟩
    rw [isIPv4, splitOn_quadText ha hb hc hd, Bool.and_eq_true, List.all_eq_true]
    refine ⟨rfl, fun part hmem => hpart.mpr ?_⟩
    simp only [List.mem_cons, List.not_mem_nil, or_false] at hmem
    rcases hmem with rfl | rfl | rfl | rfl
    · exact ⟨a, ha, rfl⟩
    · exact ⟨b, hb, rfl⟩
    · exact ⟨c, hc, rfl⟩
    · exact ⟨d, hd, rfl⟩

theorem parseInt_octetText {n : ℕ} (hn : n < 256) : Js.parseInt (octetText n) = .fin n := by
  obtain ⟨-, hne, hdigits, hvalue⟩ := octetText_spec n hn
  rw [Js.parseInt_digits hne (List.all_eq_true.mp hdigits) (by omega), hvalue]

theorem toInt32_intCast (n : ℤ) : Js.toInt32 (.fin n) = Int.bmod n (2 ^ 32) := by
  simp [Js.toInt32]

/-- One octet more, in 32 bits with a sign. -/
theorem addInt_shl (acc : ℤ) {n : ℕ} (hn : n < 256) :
    Js.addInt (Js.shl (.fin acc) 8) (.fin n) = .fin (Int.bmod (acc * 256) (2 ^ 32) + n : ℤ) := by
  have hshl : Js.shl (.fin acc) 8 = Int.bmod (acc * 256) (2 ^ 32) := by
    rw [Js.shl, toInt32_intCast, Int.bmod_mul_bmod]
    norm_num
  have hlow : -(2 ^ 31) ≤ Int.bmod (acc * 256) (2 ^ 32) := Int.le_bmod (by norm_num)
  have hhigh : Int.bmod (acc * 256) (2 ^ 32) < 2 ^ 31 := Int.bmod_lt (by norm_num)
  rw [hshl, Js.addInt, ← Js.Num.of_intCast (n := _ + n)]
  · push_cast
    rfl
  · rw [abs_lt]
    omega

/-- What fits in 31 bits is not wrapped. -/
theorem bmod_small {x : ℤ} (h : 0 ≤ x) (h' : x < 2 ^ 31) : Int.bmod x (2 ^ 32) = x := by
  rw [Int.bmod_def]
  omega

theorem bmod_emod32 (x : ℤ) : Int.bmod x (2 ^ 32) % 2 ^ 32 = x % 2 ^ 32 := by
  exact_mod_cast Int.bmod_emod (x := x) (m := 2 ^ 32)

theorem ip2int_quad {a b c d : ℕ} (ha : a < 256) (hb : b < 256) (hc : c < 256) (hd : d < 256) :
    ip2int (quadText a b c d) = quadValue a b c d := by
  have hzero : (Js.Num.fin 0) = .fin ((0 : ℤ) : ℚ) := by norm_num
  rw [ip2int, splitOn_quadText ha hb hc hd]
  simp only [List.foldl_cons, List.foldl_nil, parseInt_octetText ha, parseInt_octetText hb,
    parseInt_octetText hc, parseInt_octetText hd, hzero, addInt_shl _ ha, addInt_shl _ hb,
    addInt_shl _ hc, addInt_shl _ hd]
  rw [bmod_small (x := 0 * 256) (by omega) (by omega),
    bmod_small (x := (0 * 256 + a) * 256) (by omega) (by omega),
    bmod_small (x := ((0 * 256 + a) * 256 + b) * 256) (by omega) (by omega),
    Js.toUint32, toInt32_intCast, bmod_emod32, Int.add_emod, bmod_emod32, ← Int.add_emod,
    quadValue]
  omega

/-! ## Blocks of addresses -/

/-- A network of `bits` bits. -/
structure Block where
  network : ℕ
  bits : ℕ
  deriving DecidableEq, Repr

/-- The top bits are those of the network. -/
def Block.Contains (block : Block) (address : ℕ) : Prop :=
  address / 2 ^ (32 - block.bits) = block.network / 2 ^ (32 - block.bits)

/-- The text is an address of the block. -/
def Block.Has (block : Block) (ip : List Char) : Prop :=
  ∃ a b c d, (a < 256 ∧ b < 256 ∧ c < 256 ∧ d < 256) ∧ ip = quadText a b c d ∧
    block.Contains (quadValue a b c d)

theorem Block.has_quadText (block : Block) {a b c d : ℕ}
    (h : a < 256 ∧ b < 256 ∧ c < 256 ∧ d < 256) :
    block.Has (quadText a b c d) ↔ block.Contains (quadValue a b c d) := by
  refine ⟨?_, fun hcontains => ⟨a, b, c, d, h, rfl, hcontains⟩⟩
  rintro ⟨a', b', c', d', h', htext, hcontains⟩
  have hvalue : (quadValue a b c d : ℤ) = quadValue a' b' c' d' := by
    rw [← ip2int_quad h.1 h.2.1 h.2.2.1 h.2.2.2, htext,
      ip2int_quad h'.1 h'.2.1 h'.2.2.1 h'.2.2.2]
  rw [Int.natCast_inj.mp hvalue]
  exact hcontains

def zeroBlock : Block := ⟨quadValue 0 0 0 0, 8⟩

/-- The blocks that the code lists. -/
def privateBlocks : List Block :=
  [⟨quadValue 10 0 0 0, 8⟩, ⟨quadValue 172 16 0 0, 12⟩, ⟨quadValue 192 168 0 0, 16⟩,
    ⟨quadValue 127 0 0 0, 8⟩, ⟨quadValue 169 254 0 0, 16⟩, ⟨quadValue 100 64 0 0, 10⟩]

/-- The ranges are the blocks. -/
theorem ranges_iff {n : ℕ} :
    (PRIVATE_CIDR_RANGES.any fun r => r.start ≤ (n : ℤ) && (n : ℤ) ≤ r.end) = true ↔
      ∃ block ∈ privateBlocks, block.Contains n := by
  have hranges : PRIVATE_CIDR_RANGES =
      [⟨167772160, 184549375⟩, ⟨2886729728, 2887778303⟩, ⟨3232235520, 3232301055⟩,
        ⟨2130706432, 2147483647⟩, ⟨2851995648, 2852061183⟩, ⟨1681915904, 1686110207⟩] := by
    decide +kernel
  rw [hranges]
  simp only [List.any_cons, List.any_nil, Bool.or_false, Bool.or_eq_true, Bool.and_eq_true,
    decide_eq_true_iff, privateBlocks, List.mem_cons, List.not_mem_nil, or_false,
    exists_eq_or_imp, exists_eq_left, Block.Contains, quadValue]
  omega

/-- **`isPrivateIp` holds of the addresses of the listed blocks, and of every
text that is no address.** -/
theorem isPrivateIp_iff (ip : List Char) :
    isPrivateIp ip = true ↔ isIPv4 ip = false ∨ ∃ block ∈ privateBlocks, block.Has ip := by
  unfold isPrivateIp
  cases hip : isIPv4 ip with
  | false => simp
  | true =>
    obtain ⟨a, b, c, d, h, rfl⟩ := isIPv4_iff.mp hip
    simp only [not_true_eq_false, if_false, Bool.true_eq_false, false_or, Block.has_quadText _ h]
    rw [ip2int_quad h.1 h.2.1 h.2.2.1 h.2.2.2, ranges_iff]

/-! ## Which URLs are accepted -/

/-- The blocks that no webhook must reach. -/
def internalBlocks : List Block := zeroBlock :: privateBlocks

/-- A host name that is an address literal of another kind. -/
def IsOtherLiteral (platform : Platform) (hostname : List Char) : Prop :=
  platform.isIPv6 hostname = true ∨ hostname.head? = some '['

/-- The addresses a host name denotes: itself, or those of the answer. -/
def denotes (platform : Platform) (hostname : List Char) : List (List Char) :=
  if isIPv4 hostname then [hostname]
  else
    match platform.resolve4 hostname with
    | .ok addresses => addresses
    | .error _ => []

/-- An accepted URL denotes no internal address and is no other literal. -/
def Guards (platform : Platform) (rawUrl : List Char) : Prop :=
  validateWebhookUrl platform rawUrl = .ok () →
    ∀ hostname, platform.hostname rawUrl = some hostname →
      ¬ IsOtherLiteral platform hostname ∧
        ∀ ip ∈ denotes platform hostname, ∀ block ∈ internalBlocks, ¬ block.Has ip

/-- The host is rejected for its name, its kind, a failed lookup or a listed
address, or else it is not between brackets and denotes nothing in 0.0.0.0/8. -/
def ReachesNoGap (platform : Platform) (rawUrl : List Char) : Prop :=
  ∀ hostname, platform.hostname rawUrl = some hostname →
    isLocalName hostname = true ∨
    (isIPv4 hostname = false ∧ (platform.isIPv6 hostname = true ∨
      ∃ error, platform.resolve4 hostname = .error error)) ∨
    (∃ ip ∈ denotes platform hostname, isPrivateIp ip = true) ∨
    hostname.head? ≠ some '[' ∧ ∀ ip ∈ denotes platform hostname, ¬ zeroBlock.Has ip

theorem resolveAndRejectPrivate_ok {platform : Platform} {hostname : List Char} :
    resolveAndRejectPrivate platform hostname = .ok () ↔
      ∃ addresses, platform.resolve4 hostname = .ok addresses ∧
        ∀ ip ∈ addresses, isPrivateIp ip = false := by
  unfold resolveAndRejectPrivate
  cases hanswer : platform.resolve4 hostname with
  | error err => simp
  | ok addresses =>
    cases hfind : addresses.find? isPrivateIp with
    | some ip =>
      have hip := List.find?_some hfind
      have hmem := List.mem_of_find?_eq_some hfind
      simp only [hfind, reduceCtorEq, Except.ok.injEq, exists_eq_left', false_iff]
      exact fun hall => by simp [hall ip hmem] at hip
    | none =>
      simpa [hfind] using List.find?_eq_none.mp hfind

/-- What is not listed is internal only as a part of 0.0.0.0/8. -/
theorem internal_iff {ip : List Char} (h : isPrivateIp ip = false) :
    (∀ block ∈ internalBlocks, ¬ block.Has ip) ↔ ¬ zeroBlock.Has ip := by
  have hnone : ∀ block ∈ privateBlocks, ¬ block.Has ip := by
    intro block hmem hhas
    rw [(isPrivateIp_iff ip).mpr (Or.inr ⟨block, hmem, hhas⟩)] at h
    exact Bool.noConfusion h
  rw [internalBlocks, List.forall_mem_cons]
  exact ⟨And.left, fun hzero => ⟨hzero, hnone⟩⟩

/-- The accepted URLs: the host is not rejected by name, is no IPv6 literal and
denotes no listed address. -/
theorem validateWebhookUrl_ok {platform : Platform} {rawUrl hostname : List Char}
    (hhost : platform.hostname rawUrl = some hostname) :
    validateWebhookUrl platform rawUrl = .ok () ↔
      isLocalName hostname = false ∧
      (isIPv4 hostname = false → platform.isIPv6 hostname = false ∧
        ∃ addresses, platform.resolve4 hostname = .ok addresses) ∧
      ∀ ip ∈ denotes platform hostname, isPrivateIp ip = false := by
  unfold validateWebhookUrl denotes
  rw [hhost]
  dsimp only
  cases isLocalName hostname with
  | true => simp
  | false =>
    cases h4 : isIPv4 hostname with
    | true => cases hprivate : isPrivateIp hostname <;> simp [hprivate]
    | false =>
      have hprivate : isPrivateIp hostname = true := (isPrivateIp_iff _).mpr (Or.inl h4)
      cases platform.isIPv6 hostname with
      | true => simp [hprivate]
      | false =>
        simp only [Bool.false_eq_true, if_false, Bool.or_self, resolveAndRejectPrivate_ok]
        cases platform.resolve4 hostname <;> simp

/-- **Accepted URLs stay outside the internal blocks exactly when no gap is
reached, and `isPrivateIp` holds of the listed blocks and of what is no
address.** -/
theorem validate_guards_iff (platform : Platform) :
    (∀ rawUrl, Guards platform rawUrl ↔ ReachesNoGap platform rawUrl) ∧
      ∀ ip, isPrivateIp ip = true ↔ isIPv4 ip = false ∨ ∃ block ∈ privateBlocks, block.Has ip := by
  refine ⟨fun rawUrl => ⟨fun h hostname hhost => ?_, fun h hok hostname hhost => ?_⟩,
    isPrivateIp_iff⟩
  · by_contra hnot
    simp only [not_or, Bool.not_eq_true, not_exists, not_and] at hnot
    obtain ⟨hlocal, hkind, hlisted, hgap⟩ := hnot
    have hok : validateWebhookUrl platform rawUrl = .ok () := by
      refine (validateWebhookUrl_ok hhost).mpr ⟨hlocal, fun h4 => ?_, hlisted⟩
      obtain ⟨h6, herror⟩ := hkind h4
      refine ⟨h6, ?_⟩
      cases hanswer : platform.resolve4 hostname with
      | ok addresses => exact ⟨addresses, rfl⟩
      | error error => exact absurd hanswer (herror error)
    obtain ⟨hother, houtside⟩ := h hok hostname hhost
    refine hgap (fun hbracket => hother (Or.inr hbracket)) (fun ip hip => ?_)
    exact (internal_iff (hlisted ip hip)).mp (houtside ip hip)
  · obtain ⟨hlocal, hkind, hlisted⟩ := (validateWebhookUrl_ok hhost).mp hok
    rcases h hostname hhost with hname | ⟨h4, hrejected⟩ | ⟨ip, hip, hprivate⟩ | ⟨hbracket, hzero⟩
    · simp [hlocal] at hname
    · obtain ⟨h6, addresses, hanswer⟩ := hkind h4
      rcases hrejected with h6' | ⟨error, herror⟩
      · simp [h6] at h6'
      · simp [hanswer] at herror
    · simp [hlisted ip hip] at hprivate
    · refine ⟨?_, fun ip hip => (internal_iff (hlisted ip hip)).mpr (hzero ip hip)⟩
      rintro (h6 | h')
      · have h4 := platform.isIPv6_only hostname h6
        simp [h6] at hkind
        simp [h4] at hkind
      · exact hbracket h'

/-- A parser that takes what stands after `http://` for the host, no IPv6
literals, and a resolver that knows nothing. -/
def plainPlatform : Platform where
  hostname rawUrl := some ((rawUrl.drop 7).takeWhile fun char => char != '/')
  isIPv6 _ := false
  isIPv6_only _ h := Bool.noConfusion h
  resolve4 _ := .error "ENOTFOUND"

/-- A literal of 0.0.0.0/8 is accepted. -/
theorem zeroBlock_accepted : ¬ Guards plainPlatform "http://0.0.0.1/hook".toList := by
  intro h
  have hhost : plainPlatform.hostname "http://0.0.0.1/hook".toList = some "0.0.0.1".toList := by
    decide +kernel
  have hok : validateWebhookUrl plainPlatform "http://0.0.0.1/hook".toList = .ok () := by
    decide +kernel
  refine (h hok _ hhost).2 "0.0.0.1".toList (by decide +kernel) zeroBlock (by simp [internalBlocks]) ?_
  exact ⟨0, 0, 0, 1, by omega, by decide +kernel, by norm_num [Block.Contains, zeroBlock, quadValue]⟩

end WebhookUrls

end NexaFx

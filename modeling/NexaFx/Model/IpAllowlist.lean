import NexaFx.Lib.JsNumber
import NexaFx.Model.Database

/-!
# The IP allowlist of the admin routes

`IpAllowlistGuard` of `common/guards/ip-allowlist.guard.ts`. `request.ip` and
the configured list may be undefined.
-/

namespace NexaFx

namespace IpAllowlist

def normalizeIp (address : List Char) : List Char :=
  if "::ffff:".toList.isPrefixOf address then address.drop 7 else address

/-- One octet, or NaN. -/
def byteOf (part : List Char) : Js.Num :=
  match Js.number part with
  | .fin value => if value.isInt && 0 ≤ value && value ≤ 255 then .fin value else .nan
  | _ => .nan

def ipv4ToNumber (address : List Char) : Option ℤ :=
  match (address.splitOn '.').map byteOf with
  | [b0, b1, b2, b3] =>
    if [b0, b1, b2, b3].any (· = .nan) then none
    else some (Js.toUint32 (Js.addInt (Js.shl b0 24 + Js.shl b1 16 + Js.shl b2 8) b3))
  | _ => none

/-- The mask of a number of bits. -/
def maskOf (maskLength : ℕ) : ℤ :=
  if maskLength = 0 then 0
  else Js.toUint32 (.fin (Js.shl (.fin 0xffffffff) (32 - maskLength) : ℤ))

/-- `Number(text)`, where it is an integer from 0 to 32. -/
def maskLengthOf (text : List Char) : Option ℕ :=
  match Js.number text with
  | .fin value => if value.isInt && 0 ≤ value && value ≤ 32 then some value.num.toNat else none
  | _ => none

def cidrContainsIp (ip cidr : List Char) : Bool :=
  -- `const [network, maskLengthRaw] = cidr.split('/')`
  match cidr.splitOn '/' with
  | network :: (c :: maskLengthRaw) :: _ =>
    match ipv4ToNumber (normalizeIp network), ipv4ToNumber (normalizeIp ip),
      maskLengthOf (c :: maskLengthRaw) with
    | some networkNumber, some ipNumber, some maskLength =>
      Js.bitAnd (.fin networkNumber) (.fin (maskOf maskLength)) =
        Js.bitAnd (.fin ipNumber) (.fin (maskOf maskLength))
    | _, _, _ => false
  | network :: _ => normalizeIp ip = normalizeIp network
  | [] => false

/-- The entries, trimmed, without the empty ones. -/
def allowedIps (adminAllowedIps : Option (List (List Char))) : List (List Char) :=
  ((adminAllowedIps.getD []).map Js.trim).filter (· ≠ [])

def canActivate (adminAllowedIps : Option (List (List Char))) (ip : Option (List Char)) :
    Except String Bool :=
  if allowedIps adminAllowedIps = [] then .ok true
  else
    let ipAddress := normalizeIp (ip.getD [])
    if ipAddress = [] || !(allowedIps adminAllowedIps).any (cidrContainsIp ipAddress) then
      .error "IP address is not allowlisted for admin access"
    else .ok true

end IpAllowlist

end NexaFx

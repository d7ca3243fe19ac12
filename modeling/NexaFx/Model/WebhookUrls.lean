import NexaFx.Lib.JsNumber
import NexaFx.Model.Database

/-!
# Webhook URLs

`validateWebhookUrl` of `webhooks/webhooks.service.ts` and what it calls. The
URL parser (the `hostname` of a text, or none where `new URL` throws),
`net.isIPv6` and the answer of `dns.resolve4` are parameters (`Platform`);
`net.isIPv4` is its regular expression: four decimal octets without leading
zeros.
-/

namespace NexaFx

namespace WebhookUrls

/-- `n` in decimal. -/
def octetText (n : ℕ) : List Char := (toString n).toList

/-- `net.isIPv4` -/
def isIPv4 (ip : List Char) : Bool :=
  (ip.splitOn '.').length = 4 &&
    (ip.splitOn '.').all fun part => (List.range 256).any fun n => part = octetText n

def ip2int (ip : List Char) : ℤ :=
  Js.toUint32 ((ip.splitOn '.').foldl
    (fun acc octet => Js.addInt (Js.shl acc 8) (Js.parseInt octet)) (.fin 0))

structure CidrRange where
  start : ℤ
  «end» : ℤ
  deriving DecidableEq, Repr

def PRIVATE_CIDR_RANGES : List CidrRange :=
  [ { start := ip2int "10.0.0.0".toList, «end» := ip2int "10.255.255.255".toList },
    { start := ip2int "172.16.0.0".toList, «end» := ip2int "172.31.255.255".toList },
    { start := ip2int "192.168.0.0".toList, «end» := ip2int "192.168.255.255".toList },
    { start := ip2int "127.0.0.0".toList, «end» := ip2int "127.255.255.255".toList },
    { start := ip2int "169.254.0.0".toList, «end» := ip2int "169.254.255.255".toList },
    { start := ip2int "100.64.0.0".toList, «end» := ip2int "100.127.255.255".toList } ]

def isPrivateIp (ip : List Char) : Bool :=
  if ¬ isIPv4 ip then true
  else
    let n := ip2int ip
    PRIVATE_CIDR_RANGES.any fun r => r.start ≤ n && n ≤ r.end

/-- What the runtime answers. `resolve4` is one answer of the resolver for each
name: addresses, or an error. -/
structure Platform where
  hostname : List Char → Option (List Char)
  isIPv6 : List Char → Bool
  isIPv6_only : ∀ ip, isIPv6 ip = true → isIPv4 ip = false
  resolve4 : List Char → Except String (List (List Char))

inductive WebhookError where
  | badRequest (message : String)
  | resolver (error : String)
  deriving DecidableEq, Repr

def resolveAndRejectPrivate (platform : Platform) (hostname : List Char) :
    Except WebhookError Unit :=
  match platform.resolve4 hostname with
  | .error err => .error (.resolver err)
  | .ok addresses =>
    match addresses.find? isPrivateIp with
    | some addr => .error (.badRequest ("Webhook URL resolves to a private/internal IP address (" ++
        String.ofList addr ++ ") — SSRF not permitted"))
    | none => .ok ()

/-- Names that are rejected without a look at addresses. -/
def isLocalName (hostname : List Char) : Bool :=
  hostname = "localhost".toList || hostname = "0.0.0.0".toList ||
    ".local".toList.isSuffixOf hostname

def validateWebhookUrl (platform : Platform) (rawUrl : List Char) : Except WebhookError Unit :=
  match platform.hostname rawUrl with
  | none => .error (.badRequest "Webhook URL is not a valid URL")
  | some hostname =>
    if isLocalName hostname then
      .error (.badRequest "Webhook URL must not target localhost or link-local addresses")
    -- `net.isIP` is 4, 6 or 0
    else if isIPv4 hostname || platform.isIPv6 hostname then
      if isPrivateIp hostname then
        .error (.badRequest "Webhook URL must not target private or internal IP ranges")
      else .ok ()
    else resolveAndRejectPrivate platform hostname

end WebhookUrls

end NexaFx

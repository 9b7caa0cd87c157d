/-
# `SsrfGuard` — `ssrf_guard.py`

The deny lists, the resolution of a host and the validation of a pull URL.
`urllib.parse` and `ipaddress` are a parameter, and so is what the resolver
answers: the code relies on no property of either.

  `is_blocked_ip`      `Stdlib.isBlockedIp`
  `resolve_safely`     `Stdlib.resolveSafely`
  `validate_pull_url`  `Stdlib.validatePullUrl`
  `is_hf_host`         `isHfHost`
-/
import Turbohaul.PyString

namespace Turbohaul.Pull

/-- What `urlparse` gives of a URL that it does not refuse. -/
structure Parsed where
  scheme : String
  hostname : Option String
deriving DecidableEq, Repr

/-- The bits of an address. -/
inductive Bits
  | v4 (bits : BitVec 32)
  | v6 (bits : BitVec 128)
deriving DecidableEq, Repr

/-- An `IPv4Address` or `IPv6Address`: its bits and its `str`. -/
structure IpAddress where
  bits : Bits
  text : String
deriving DecidableEq, Repr

/-- What is used of `urllib.parse` and `ipaddress`; `none` is a `ValueError`. -/
structure Stdlib where
  urlparse : String → Option Parsed
  urljoin : String → String → Option String
  ipAddress : String → Option IpAddress

/-- A network: its first address and the length of its prefix. -/
structure Network (w : Nat) where
  base : BitVec w
  prefixLen : Nat

/-- `ip in net`. -/
def Network.contains {w : Nat} (net : Network w) (ip : BitVec w) : Bool :=
  ip >>> (w - net.prefixLen) = net.base >>> (w - net.prefixLen)

def allowedSchemes : List String := ["https"]

def denyIpv4Networks : List (Network 32) :=
  [ ⟨0x0A000000#32, 8⟩,
    ⟨0xAC100000#32, 12⟩,
    ⟨0xC0A80000#32, 16⟩,
    ⟨0x7F000000#32, 8⟩,
    ⟨0xA9FE0000#32, 16⟩,
    ⟨0x64400000#32, 10⟩,
    ⟨0x00000000#32, 8⟩,
    ⟨0xE0000000#32, 4⟩,
    ⟨0xF0000000#32, 4⟩ ]

def denyIpv6Networks : List (Network 128) :=
  [ ⟨0x00000000000000000000000000000001#128, 128⟩,
    ⟨0xFC000000000000000000000000000000#128, 7⟩,
    ⟨0xFE800000000000000000000000000000#128, 10⟩,
    ⟨0xFF000000000000000000000000000000#128, 8⟩,
    ⟨0x0064FF9B000000000000000000000000#128, 96⟩,
    ⟨0x00000000000000000000000000000000#128, 96⟩,
    ⟨0x00000000000000000000FFFF00000000#128, 96⟩,
    ⟨0x20010DB8000000000000000000000000#128, 32⟩ ]

/-- An address in a denied network. -/
def Bits.denied : Bits → Bool
  | .v4 ip => denyIpv4Networks.any (·.contains ip)
  | .v6 ip => denyIpv6Networks.any (·.contains ip)

/-- `is_blocked_ip`: what does not parse is blocked. -/
def Stdlib.isBlockedIp (L : Stdlib) (ipStr : String) : Bool :=
  match L.ipAddress ipStr with
  | none => true
  | some ip => ip.bits.denied

/-- `UrlSafetyError`, or another `ValueError`. -/
inductive UrlError
  | unsafeUrl (detail : String)
  | valueError
deriving DecidableEq, Repr

/-- What `socket.getaddrinfo` answers: addresses, `gaierror`, or another error. -/
inductive Answer
  | records (ips : List String)
  | gaierror (detail : String)
  | valueError
deriving DecidableEq, Repr

/-- `resolve_safely`. -/
def Stdlib.resolveSafely (L : Stdlib) (host : String) : Answer → Except UrlError String
  | .gaierror e => .error (.unsafeUrl ("DNS resolution failed for " ++ host ++ ": " ++ e))
  | .valueError => .error .valueError
  | .records [] => .error (.unsafeUrl ("no DNS records for " ++ host))
  | .records (ip :: _) =>
    if L.isBlockedIp ip then
      .error (.unsafeUrl ("host " ++ host ++ " resolves to " ++ ip ++
        " which is in a denied network (RFC1918 / link-local / NAT64 / " ++
        "IPv4-compat IPv6 — v0.2 §9.1)"))
    else .ok ip

/-- `validate_pull_url`: the host and the address of a URL, the latter from the
answer the resolver gives if it is asked. -/
def Stdlib.validatePullUrl (L : Stdlib) (url : String) (answer : Answer) :
    Except UrlError (String × String) :=
  match L.urlparse url with
  | none => .error .valueError
  | some parsed =>
    if parsed.scheme ∉ allowedSchemes then
      .error (.unsafeUrl ("scheme " ++ pyRepr parsed.scheme ++
        " not in \x7b'https'\x7d (only https:// allowed)"))
    else match parsed.hostname with
      | none | some "" => .error (.unsafeUrl "URL missing hostname")
      | some hostname =>
        match L.ipAddress hostname with
        | some ipLiteral =>
          if L.isBlockedIp ipLiteral.text then
            .error (.unsafeUrl ("URL host is IP literal " ++ hostname ++ " in denied range"))
          else .ok (hostname, ipLiteral.text)
        | none =>
          match L.resolveSafely hostname answer with
          | .error e => .error e
          | .ok resolved => .ok (hostname, resolved)

/-- `is_hf_host`. -/
def isHfHost (host : String) (allowlist : List String) : Bool :=
  allowlist.any fun allowed =>
    host.toLower = allowed.toLower || host.toLower.endsWith ("." ++ allowed.toLower)

end Turbohaul.Pull

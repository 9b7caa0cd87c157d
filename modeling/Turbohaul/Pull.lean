/-
# `Pull` — the requests of a pull: `api/pull.py`

`_double_resolve_check`, `_stream_with_redirects` and the two routes that
stream.  What the resolver answers and the servers reply is given hop by hop;
a pull is the requests it sends, in order, and how it ends.  The bytes and the
blob store they go to are left out.

  `_double_resolve_check`   `Stdlib.doubleResolveCheck`
  `_stream_with_redirects`  `Stdlib.streamWithRedirects`
  `pull_url`, `pull_hf`     `Stdlib.pullUrl`, `Stdlib.pullHf`
-/
import Turbohaul.SsrfGuard

namespace Turbohaul.Pull

/-- `_double_resolve_check`, on the two answers of the resolver. -/
def Stdlib.doubleResolveCheck (L : Stdlib) (url : String) (first second : Answer) :
    Except UrlError (String × String) :=
  match L.validatePullUrl url first with
  | .error e => .error e
  | .ok (host1, ip1) =>
    match L.validatePullUrl url second with
    | .error e => .error e
    | .ok (host2, ip2) =>
      if host1 ≠ host2 then
        .error (.unsafeUrl ("DNS rebind class detected: validate#1 (" ++ host1 ++ "->" ++ ip1 ++
          ") != validate#2 (" ++ host2 ++ "->" ++ ip2 ++ "). Refusing pull."))
      else .ok (host1, ip1)

abbrev Headers := List (String × String)

/-- A request as `client.stream` sends it. -/
structure Sent where
  url : String
  headers : Headers
deriving DecidableEq, Repr

/-- What a server replies, as far as the loop reads it. -/
structure Reply where
  status : Nat
  location : Option String := none
deriving DecidableEq, Repr

/-- What a hop meets: the two answers of the resolver, and the reply; none where
the transport fails. -/
structure Hop where
  first : Answer
  second : Answer
  reply : Option Reply
deriving DecidableEq, Repr

/-- How a pull ends: with the body of a reply, with an error of the guard or the
loop, with an error of the transport or the status, or refused by a route. -/
inductive Outcome
  | body
  | refused (e : UrlError)
  | httpError
  | rejected (status : Nat) (detail : String)
deriving DecidableEq, Repr

structure Streamed where
  sent : List Sent
  outcome : Outcome
deriving DecidableEq, Repr

/-- `300 <= resp.status_code < 400 and location`. -/
def Reply.redirect (r : Reply) : Option String :=
  match r.location with
  | none | some "" => none
  | some location => if 300 ≤ r.status ∧ r.status < 400 then some location else none

/-- The headers without `Authorization`. -/
def dropAuthorization (headers : Headers) : Headers :=
  headers.filter fun kv => kv.1.toLower ≠ "authorization"

/-- `allowlist_check is not None and not allowlist_check(host)`, negated. -/
def allows (allowlistCheck : Option (String → Bool)) (host : String) : Bool :=
  match allowlistCheck with
  | none => true
  | some check => check host

/-- The headers of the next request. -/
def headersFor (headers : Headers) (prevHost : Option String) (host : String) : Headers :=
  match prevHost with
  | none => headers
  | some prev => if host ≠ prev then dropAuthorization headers else headers

/-- The loop of `_stream_with_redirects`, from hop `hop` on. -/
def Stdlib.streamFrom (L : Stdlib) (allowlistCheck : Option (String → Bool)) (hops : Nat → Hop)
    (url : String) (maxHops : Nat) : Nat → Nat → String → Headers → Option String → Streamed
  | 0, _, _, _, _ =>
    ⟨[], .refused (.unsafeUrl ("too many redirects (>" ++ Nat.repr maxHops ++ ") starting from " ++
      url))⟩
  | left + 1, hop, currentUrl, currentHeaders, prevHost =>
    match L.doubleResolveCheck currentUrl (hops hop).first (hops hop).second with
    | .error e => ⟨[], .refused e⟩
    | .ok (host, _) =>
      if !allows allowlistCheck host then
        ⟨[], .refused (.unsafeUrl ("redirect host " ++ host ++ " not in allowlist (hop=" ++
          Nat.repr hop ++ ")"))⟩
      else
        let headers := headersFor currentHeaders prevHost host
        let request : Sent := ⟨currentUrl, headers⟩
        match (hops hop).reply with
        | none => ⟨[request], .httpError⟩
        | some reply =>
          match reply.redirect with
          | none =>
            ⟨[request], if 200 ≤ reply.status ∧ reply.status < 300 then .body else .httpError⟩
          | some location =>
            match L.urljoin currentUrl location with
            | none => ⟨[request], .refused .valueError⟩
            | some nextUrl =>
              let rest :=
                L.streamFrom allowlistCheck hops url maxHops left (hop + 1) nextUrl headers
                (some host)
              ⟨request :: rest.sent, rest.outcome⟩

/-- `_stream_with_redirects`. -/
def Stdlib.streamWithRedirects (L : Stdlib) (hops : Nat → Hop) (url : String) (headers : Headers)
    (allowlistCheck : Option (String → Bool)) (maxHops : Nat) : Streamed :=
  L.streamFrom allowlistCheck hops url maxHops maxHops 0 url headers none

/-- The default of `max_hops`. -/
def defaultMaxHops : Nat := 5

/-- `pull_url`: a check of its own, with the answers `first` and `second`, and
the stream; `none` where the payload has no URL. -/
def Stdlib.pullUrl (L : Stdlib) (url : Option String) (first second : Answer) (hops : Nat → Hop) :
    Streamed :=
  match url with
  | none | some "" => ⟨[], .rejected 400 "\x60url\x60 required"⟩
  | some url =>
    match L.doubleResolveCheck url first second with
    | .error (.unsafeUrl detail) => ⟨[], .rejected 400 detail⟩
    | .error e => ⟨[], .refused e⟩
    | .ok _ => L.streamWithRedirects hops url [] none defaultMaxHops

/-- The URL `pull_hf` builds. -/
def hfUrl (repoId revision filename : String) : String :=
  "https://huggingface.co/" ++ repoId ++ "/resolve/" ++ revision ++ "/" ++ filename

/-- `pull_hf`, with the fields of the payload as an f-string prints them, none
where a field is missing or falsy; `hfKey` is the key in the environment. -/
def Stdlib.pullHf (L : Stdlib) (allowlist : List String) (hfKey : String)
    (repoId filename : Option String) (revision : String) (first second : Answer)
    (hops : Nat → Hop) : Streamed :=
  match repoId, filename with
  | some repoId, some filename =>
    let url := hfUrl repoId revision filename
    match L.doubleResolveCheck url first second with
    | .error (.unsafeUrl detail) => ⟨[], .rejected 400 detail⟩
    | .error e => ⟨[], .refused e⟩
    | .ok (host, _) =>
      if !isHfHost host allowlist then
        ⟨[], .rejected 403 ("host " ++ host ++ " not in hf_host_allowlist " ++
          "(HF_API_KEY only sent to allowlisted hosts)")⟩
      else
        let headers : Headers := if hfKey = "" then [] else [("Authorization", "Bearer " ++ hfKey)]
        L.streamWithRedirects hops url headers (some fun h => isHfHost h allowlist) defaultMaxHops
  | _, _ => ⟨[], .rejected 400 "\x60repo_id\x60 + \x60filename\x60 required"⟩

end Turbohaul.Pull

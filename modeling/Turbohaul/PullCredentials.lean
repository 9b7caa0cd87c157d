/-
# Where the key of a pull goes

The headers are threaded through the hops: `Authorization` is dropped at the
first hop whose host differs from the one before, and nothing puts it back.  So
a request that carries it comes after requests to one host alone, its own.

  `Carries`       a set of headers has `Authorization`
  `Confined`      what is said of the requests of a pull
-/
import Turbohaul.PullHops

namespace Turbohaul.Pull

variable {L : Stdlib} {allow : Option (String → Bool)} {hops : Nat → Hop}

/-- The headers have `Authorization`, in whatever case. -/
def Carries (headers : Headers) : Prop := ∃ kv ∈ headers, kv.1.toLower = "authorization"

theorem not_carries_dropAuthorization (headers : Headers) :
    ¬ Carries (dropAuthorization headers) := by
  rintro ⟨kv, hm, he⟩
  simp [dropAuthorization, he] at hm

/-- A hop that carries the key got it from the headers before it, and goes to
the host before it. -/
theorem carries_headersFor {headers : Headers} {prev : Option String} {host : String}
    (h : Carries (headersFor headers prev host)) :
    Carries headers ∧ ∀ p, prev = some p → p = host := by
  cases prev with
  | none => exact ⟨h, by simp⟩
  | some p =>
    simp only [headersFor] at h
    split at h
    · exact absurd h (not_carries_dropAuthorization _)
    · rename_i hp
      refine ⟨h, ?_⟩
      rintro _ ⟨⟩
      exact (not_not.mp hp).symm

theorem sent_length_le {start : String} {maxHops left hop : Nat} {url : String} {hs : Headers}
    {prev : Option String} :
    (L.streamFrom allow hops start maxHops left hop url hs prev).sent.length ≤ left := by
  induction left generalizing hop url hs prev with
  | zero => simp [Stdlib.streamFrom]
  | succ left ih =>
    rcases @streamFrom_step L allow hops start url maxHops left hop hs
      prev with ⟨-, he⟩ | ⟨host, ip, -, -, he⟩
    · simp [he]
    · rw [he, List.length_cons, Nat.add_le_add_iff_right]
      split
      · exact Nat.zero_le _
      · exact ih

/-- A request that carries the key comes after requests that all carry it and
all go to one host, the one before the first of them if there is one. -/
theorem confined_from {start : String} {maxHops left hop : Nat} {url : String} {hs : Headers}
    {prev : Option String} {i : Nat} {s : Sent}
    (hi : (L.streamFrom allow hops start maxHops left hop url hs prev).sent[i]? = some s)
    (hc : Carries s.headers) :
    ∃ host, Carries hs ∧ (∀ p, prev = some p → p = host) ∧ L.hostOf url = some host ∧
      ∀ j ≤ i, ∀ t, (L.streamFrom allow hops start maxHops left hop url hs prev).sent[j]? = some t →
        L.hostOf t.url = some host ∧ Carries t.headers := by
  induction left generalizing hop url hs prev i with
  | zero => simp [Stdlib.streamFrom] at hi
  | succ left ih =>
    rcases @streamFrom_step L allow hops start url maxHops left hop hs
      prev with ⟨-, he⟩ | ⟨host, ip, hd, -, he⟩
    · simp [he] at hi
    · have hhost := (https_of_validatePullUrl (doubleResolveCheck_ok.mp hd).1).2
      rw [he] at hi ⊢
      cases i with
      | zero =>
        cases hi
        obtain ⟨hcs, hp⟩ := carries_headersFor hc
        refine ⟨host, hcs, hp, hhost, fun j hj t ht => ?_⟩
        obtain rfl := Nat.le_zero.mp hj
        cases ht
        exact ⟨hhost, hc⟩
      | succ i =>
        rw [List.getElem?_cons_succ] at hi
        cases hn : L.nextUrl url (hops hop) with
        | none => simp [hn] at hi
        | some v =>
          simp only [hn] at hi
          obtain ⟨host', hc', hp', -, hall⟩ := ih hi
          obtain rfl := hp' host rfl
          obtain ⟨hcs, hp⟩ := carries_headersFor hc'
          refine ⟨host, hcs, hp, hhost, fun j hj t ht => ?_⟩
          cases j with
          | zero =>
            cases ht
            exact ⟨hhost, hc'⟩
          | succ j => exact hall j (Nat.le_of_succ_le_succ hj) t (by simpa [hn] using ht)

/-- The requests of a pull: at most `max_hops`; each to an https URL whose host
both validations and the allowlist passed at that very hop; and each that
carries the key comes after requests that carry it, to its own host alone. -/
structure Confined (L : Stdlib) (allow : Option (String → Bool)) (hops : Nat → Hop) (maxHops : Nat)
    (sent : List Sent) : Prop where
  length : sent.length ≤ maxHops
  valid : ∀ (i : Nat) (s : Sent), sent[i]? = some s → ∃ host ip ip',
    (∃ p, L.urlparse s.url = some p ∧ p.scheme = "https" ∧ p.hostname = some host) ∧
    L.validatePullUrl s.url (hops i).first = .ok (host, ip) ∧
    L.validatePullUrl s.url (hops i).second = .ok (host, ip') ∧
    ∀ check, allow = some check → check host = true
  key : ∀ (i : Nat) (s : Sent), sent[i]? = some s → Carries s.headers →
    ∀ j ≤ i, ∀ (t : Sent), sent[j]? = some t → Carries t.headers ∧
      ∀ first : Sent, sent[0]? = some first → L.hostOf t.url = L.hostOf first.url

/-- A stream confines the key it is given. -/
theorem streamWithRedirects_confined (L : Stdlib) (hops : Nat → Hop) (url : String)
    (headers : Headers) (allow : Option (String → Bool)) (maxHops : Nat) :
    Confined L allow hops maxHops (L.streamWithRedirects hops url headers allow maxHops).sent := by
  refine ⟨sent_length_le, fun i s hs => ?_, fun i s hs hc j hj t ht => ?_⟩
  · obtain ⟨-, -, host, ip, hd, ha⟩ := sent_iff.mp ⟨s.headers, hs⟩
    rw [Nat.zero_add] at hd
    obtain ⟨h1, ip', h2⟩ := doubleResolveCheck_ok.mp hd
    obtain ⟨⟨p, hp, hs⟩, hh⟩ := https_of_validatePullUrl h1
    refine ⟨host, ip, ip', ⟨p, hp, hs, by simpa [Stdlib.hostOf, hp] using hh⟩, h1, h2, ?_⟩
    rintro check rfl
    exact ha
  · obtain ⟨host, -, -, -, hall⟩ := confined_from hs hc
    refine ⟨(hall j hj t ht).2, fun first hf => ?_⟩
    rw [(hall j hj t ht).1, (hall 0 (Nat.zero_le i) first hf).1]

theorem confined_nil : Confined L allow hops maxHops [] :=
  ⟨Nat.zero_le _, by simp, by simp⟩

/-- The two routes send what their stream sends, or nothing. -/
theorem pullUrl_confined (L : Stdlib) (url : Option String) (first second : Answer)
    (hops : Nat → Hop) :
    Confined L none hops defaultMaxHops (L.pullUrl url first second hops).sent := by
  simp only [Stdlib.pullUrl]
  split
  · exact confined_nil
  · exact confined_nil
  · split
    · exact confined_nil
    · exact confined_nil
    · exact streamWithRedirects_confined ..

theorem pullHf_confined (L : Stdlib) (allowlist : List String) (hfKey : String)
    (repoId filename : Option String) (revision : String) (first second : Answer)
    (hops : Nat → Hop) :
    Confined L (some fun h => isHfHost h allowlist) hops defaultMaxHops
      (L.pullHf allowlist hfKey repoId filename revision first second hops).sent := by
  simp only [Stdlib.pullHf]
  split
  · split
    · exact confined_nil
    · exact confined_nil
    · split
      · exact confined_nil
      · exact streamWithRedirects_confined ..
  · exact confined_nil

/-- Every stream confines its headers' key, and so does a pull of either route;
that of `pull_hf` checks the allowlist at every hop. -/
theorem pulls_confine_key (L : Stdlib) (hops : Nat → Hop) :
    (∀ url headers allow maxHops,
      Confined L allow hops maxHops (L.streamWithRedirects hops url headers allow maxHops).sent) ∧
    (∀ url first second,
      Confined L none hops defaultMaxHops (L.pullUrl url first second hops).sent) ∧
    ∀ allowlist hfKey repoId filename revision first second,
      Confined L (some fun h => isHfHost h allowlist) hops defaultMaxHops
        (L.pullHf allowlist hfKey repoId filename revision first second hops).sent :=
  ⟨streamWithRedirects_confined L hops, fun url first second => pullUrl_confined L url first second
    hops, fun allowlist hfKey repoId filename revision first second =>
      pullHf_confined L allowlist hfKey repoId filename revision first second hops⟩

end Turbohaul.Pull

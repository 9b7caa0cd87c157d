/-
# The hops of a pull

Which requests a pull sends: the hop-th one goes out where the earlier hops
were admitted and redirected, and this one is admitted.  From it, what the
guard lets through, and where the key goes.

  `Admits`   both validations of a hop succeed, and the allowlist agrees
  `Reaches`  the redirects of admitted hops lead to a URL
  `Vetted`   what the docstring of `_double_resolve_check` asks of a hop
  `Steady`   what it does not check of the resolver's answers
-/
import Turbohaul.Pull

namespace Turbohaul.Pull

variable {L : Stdlib} {allow : Option (String → Bool)} {hops : Nat → Hop}

/-- `parsed.hostname`. -/
def Stdlib.hostOf (L : Stdlib) (url : String) : Option String :=
  (L.urlparse url).bind (·.hostname)

/-- Where the reply of a hop sends the pull next. -/
def Stdlib.nextUrl (L : Stdlib) (url : String) (h : Hop) : Option String :=
  (h.reply.bind (·.redirect)).bind (L.urljoin url)

/-- What a validated URL is. -/
theorem https_of_validatePullUrl {url host ip : String} {a : Answer}
    (h : L.validatePullUrl url a = .ok (host, ip)) :
    (∃ p, L.urlparse url = some p ∧ p.scheme = "https") ∧ L.hostOf url = some host := by
  simp only [Stdlib.validatePullUrl] at h
  split at h
  · cases h
  · rename_i p hp
    split at h
    · cases h
    · rename_i hs
      have hs : p.scheme = "https" := by simpa [allowedSchemes] using hs
      refine ⟨⟨p, hp, hs⟩, ?_⟩
      split at h
      · cases h
      · cases h
      · rename_i hostname _ hh
        have hhost : hostname = host := by
          split at h
          · split at h
            · cases h
            · cases h; rfl
          · split at h
            · cases h
            · cases h; rfl
        simp [Stdlib.hostOf, hp, hh, hhost]

theorem doubleResolveCheck_ok {url host ip : String} {a b : Answer} :
    L.doubleResolveCheck url a b = .ok (host, ip) ↔
      L.validatePullUrl url a = .ok (host, ip) ∧
      ∃ ip', L.validatePullUrl url b = .ok (host, ip') := by
  simp only [Stdlib.doubleResolveCheck]
  constructor
  · intro h
    split at h
    · cases h
    · rename_i ha
      split at h
      · cases h
      · rename_i ip' hb
        split at h
        · cases h
        · rename_i hne
          cases h
          exact ⟨ha, ip', by rw [hb, not_not.mp hne]⟩
  · rintro ⟨ha, ip', hb⟩
    simp [ha, hb]

/-- Both validations of the hop give the host, and the allowlist has it. -/
def Admits (L : Stdlib) (allow : Option (String → Bool)) (url : String) (h : Hop) : Prop :=
  ∃ host ip, L.doubleResolveCheck url h.first h.second = .ok (host, ip) ∧ allows allow host = true

/-- The redirects of admitted hops lead from `url` at hop `k` to `u` at hop `i`. -/
inductive Reaches (L : Stdlib) (allow : Option (String → Bool)) (hops : Nat → Hop) :
    Nat → String → Nat → String → Prop
  | here {k url} : Reaches L allow hops k url k url
  | next {k url v i u} : Admits L allow url (hops k) → L.nextUrl url (hops k) = some v →
      Reaches L allow hops (k + 1) v i u → Reaches L allow hops k url i u

theorem Reaches.le {k i : Nat} {url u : String} (h : Reaches L allow hops k url i u) : k ≤ i := by
  induction h with
  | here => exact Nat.le_refl _
  | next _ _ _ ih => exact Nat.le_of_succ_le ih

/-- Only the URL itself is reached at its own hop. -/
theorem Reaches.self {k : Nat} {url u : String} (h : Reaches L allow hops k url k u) : u = url := by
  cases h with
  | here => rfl
  | next _ _ h => exact absurd h.le (Nat.not_succ_le_self k)

/-- One hop: refused before anything is sent, or admitted, sent, and followed by
the hops its redirect leads to. -/
theorem streamFrom_step (start url : String) (maxHops left hop : Nat) (hs : Headers)
    (prev : Option String) :
    (¬ Admits L allow url (hops hop) ∧
      (L.streamFrom allow hops start maxHops (left + 1) hop url hs prev).sent = []) ∨
    ∃ host ip, L.doubleResolveCheck url (hops hop).first (hops hop).second = .ok (host, ip) ∧
      allows allow host = true ∧
      (L.streamFrom allow hops start maxHops (left + 1) hop url hs prev).sent =
        ⟨url, headersFor hs prev host⟩ ::
          match L.nextUrl url (hops hop) with
          | none => []
          | some v => (L.streamFrom allow hops start maxHops left (hop + 1) v
              (headersFor hs prev host) (some host)).sent := by
  simp only [Stdlib.streamFrom]
  split
  · rename_i e he
    refine .inl ⟨?_, rfl⟩
    rintro ⟨_, _, h, _⟩
    simp [he] at h
  · rename_i host ip hc
    cases ha : allows allow host with
    | false =>
      refine .inl ⟨?_, by simp⟩
      rintro ⟨_, _, h, h'⟩
      rw [hc] at h
      cases h
      simp [ha] at h'
    | true =>
      refine .inr ⟨host, ip, hc, ha, ?_⟩
      simp only [Bool.not_true, Bool.false_eq_true, if_false, Stdlib.nextUrl]
      cases hr : (hops hop).reply with
      | none => simp
      | some reply =>
        cases hl : reply.redirect with
        | none => simp [hl]
        | some location => cases hj : L.urljoin url location <;> simp [hl, hj]

/-- A pull sends the requests its hops reach and admit, one a hop. -/
theorem sent_iff {start : String} {maxHops left hop : Nat} {url u : String} {hs : Headers}
    {prev : Option String} {i : Nat} :
    (∃ hs', (L.streamFrom allow hops start maxHops left hop url hs prev).sent[i]? =
      some ⟨u, hs'⟩) ↔
    i < left ∧ Reaches L allow hops hop url (hop + i) u ∧ Admits L allow u (hops (hop + i)) := by
  induction left generalizing hop url hs prev i with
  | zero => simp [Stdlib.streamFrom]
  | succ left ih =>
    rcases @streamFrom_step L allow hops start url maxHops left hop hs
      prev with ⟨hna, he⟩ | ⟨host, ip, hc, ha, he⟩
    · rw [he]
      simp only [List.getElem?_nil, reduceCtorEq, exists_false, false_iff]
      rintro ⟨-, hr, had⟩
      generalize hop + i = k at hr had
      cases hr with
      | here => exact hna had
      | next h _ _ => exact hna h
    · have had : Admits L allow url (hops hop) := ⟨host, ip, hc, ha⟩
      rw [he]
      cases i with
      | zero =>
        simp only [List.getElem?_cons_zero, Option.some.injEq, Sent.mk.injEq, Nat.add_zero,
          Nat.zero_lt_succ, true_and]
        constructor
        · rintro ⟨_, rfl, -⟩
          exact ⟨.here, had⟩
        · rintro ⟨hr, -⟩
          exact ⟨_, hr.self.symm, rfl⟩
      | succ i =>
        rw [List.getElem?_cons_succ, Nat.add_lt_add_iff_right]
        cases hn : L.nextUrl url (hops hop) with
        | none =>
          simp only [List.getElem?_nil, reduceCtorEq, exists_false, false_iff]
          rintro ⟨-, hr, -⟩
          generalize hk : hop + (i + 1) = k at hr
          cases hr with
          | here => omega
          | next _ h _ => simp [hn] at h
        | some v =>
          simp only
          rw [ih, Nat.add_right_comm hop 1 i, Nat.add_assoc]
          refine and_congr_right fun _ => and_congr_left fun _ => ?_
          constructor
          · exact fun h => .next had hn h
          · intro hr
            generalize hk : hop + (i + 1) = k at hr
            cases hr with
            | here => omega
            | next _ h hr =>
              rw [hn] at h
              cases h
              exact hr

/-! ## What the guard lets through -/

/-- The addresses a URL stands for under an answer: its literal, or the records
of its name. -/
def Stdlib.addresses (L : Stdlib) (url : String) (a : Answer) : List String :=
  match (L.hostOf url).bind L.ipAddress with
  | some ipLiteral => [ipLiteral.text]
  | none =>
    match a with
    | .records ips => ips
    | _ => []

/-- Both resolutions of the hop gave the same host and address, and no address
of either answer is in a denied network. -/
def Vetted (L : Stdlib) (url : String) (h : Hop) : Prop :=
  (∃ host ip, L.validatePullUrl url h.first = .ok (host, ip) ∧
    L.validatePullUrl url h.second = .ok (host, ip)) ∧
  ∀ a ∈ L.addresses url h.first ++ L.addresses url h.second, L.isBlockedIp a = false

/-- Where the host is a name, the first records of the two answers are one
address, and no later record is in a denied network. -/
def Steady (L : Stdlib) (url : String) (h : Hop) : Prop :=
  (L.hostOf url).bind L.ipAddress = none →
  ∀ ip rest ip' rest', h.first = .records (ip :: rest) → h.second = .records (ip' :: rest') →
    ip = ip' ∧ ∀ a ∈ rest ++ rest', L.isBlockedIp a = false

/-- A name resolves to the first record, if that is allowed. -/
theorem resolveSafely_ok {host ip : String} {a : Answer} (h : L.resolveSafely host a = .ok ip) :
    L.isBlockedIp ip = false ∧ ∃ rest, a = .records (ip :: rest) := by
  cases a with
  | gaierror e => cases h
  | valueError => cases h
  | records ips =>
    cases ips with
    | nil => cases h
    | cons ip' rest =>
      simp only [Stdlib.resolveSafely] at h
      split at h
      · cases h
      · rename_i hb
        cases h
        exact ⟨by simpa using hb, rest, rfl⟩

/-- What one validation looks at: the literal, or the first record. -/
theorem validatePullUrl_ok {url host ip : String} {a : Answer}
    (h : L.validatePullUrl url a = .ok (host, ip)) :
    L.isBlockedIp ip = false ∧
    ((∃ l, (L.hostOf url).bind L.ipAddress = some l ∧ l.text = ip) ∨
      (L.hostOf url).bind L.ipAddress = none ∧ ∃ rest, a = .records (ip :: rest)) := by
  have hh := (https_of_validatePullUrl h).2
  simp only [Stdlib.validatePullUrl] at h
  split at h
  · cases h
  · split at h
    · cases h
    · split at h
      · cases h
      · cases h
      · split at h
        · rename_i l hl
          split at h
          · cases h
          · rename_i hb
            cases h
            exact ⟨by simpa using hb, .inl ⟨l, by simp [hh, hl], rfl⟩⟩
        · rename_i hl
          split at h
          · cases h
          · rename_i r hr
            cases h
            obtain ⟨hb, hrest⟩ := resolveSafely_ok hr
            exact ⟨hb, .inr ⟨by simp [hh, hl], hrest⟩⟩

/-- An admitted hop is vetted where the answers are steady, and nowhere else. -/
theorem vetted_iff_steady {url : String} {h : Hop} (ha : Admits L allow url h) :
    Vetted L url h ↔ Steady L url h := by
  obtain ⟨host, ip, hc, -⟩ := ha
  obtain ⟨h1, ip', h2⟩ := doubleResolveCheck_ok.mp hc
  obtain ⟨hb1, hv1⟩ := validatePullUrl_ok h1
  obtain ⟨hb2, hv2⟩ := validatePullUrl_ok h2
  rcases hv1 with ⟨l, hl, rfl⟩ | ⟨hl, rest, hr⟩
  · -- a literal: the resolver is not asked
    obtain rfl : l.text = ip' := by
      rcases hv2 with ⟨l', hl', rfl⟩ | ⟨hl', -⟩
      · rw [hl] at hl'
        cases hl'
        rfl
      · simp [hl] at hl'
    refine ⟨fun _ hn => by simp [hl] at hn, fun _ => ⟨⟨host, _, h1, h2⟩, fun a hm => ?_⟩⟩
    simp only [Stdlib.addresses, hl, List.mem_append, List.mem_singleton, or_self] at hm
    rw [hm, hb1]
  · obtain ⟨rest', hr'⟩ : ∃ rest', h.second = .records (ip' :: rest') := by
      rcases hv2 with ⟨l', hl', -⟩ | ⟨-, h⟩
      · simp [hl] at hl'
      · exact h
    have hadd : L.addresses url h.first ++ L.addresses url h.second =
        (ip :: rest) ++ (ip' :: rest') := by simp [Stdlib.addresses, hl, hr, hr']
    constructor
    · rintro ⟨⟨_, _, e1, e2⟩, hall⟩ - a _ b _ ea eb
      rw [hr] at ea
      rw [hr'] at eb
      cases ea
      cases eb
      rw [h1] at e1
      cases e1
      rw [h2] at e2
      cases e2
      refine ⟨rfl, fun x hx => hall x ?_⟩
      rw [hadd]
      simp only [List.mem_append, List.mem_cons] at hx ⊢
      tauto
    · intro hs
      obtain ⟨rfl, hall⟩ := hs hl ip rest ip' rest' hr hr'
      refine ⟨⟨host, ip, h1, h2⟩, fun x hx => ?_⟩
      rw [hadd] at hx
      simp only [List.mem_append, List.mem_cons] at hx hall
      rcases hx with (rfl | hx) | (rfl | hx)
      · exact hb1
      · exact hall x (.inl hx)
      · exact hb1
      · exact hall x (.inr hx)

/-- Every request of a pull is sent at a vetted hop. -/
def PullVetted (L : Stdlib) (hops : Nat → Hop) (url : String) (headers : Headers)
    (allow : Option (String → Bool)) (maxHops : Nat) : Prop :=
  ∀ i (s : Sent), (L.streamWithRedirects hops url headers allow maxHops).sent[i]? = some s →
    Vetted L s.url (hops i)

/-- A pull is vetted exactly if the resolver is steady at every hop that the
redirects of admitted hops reach. -/
theorem pullVetted_iff_steady (L : Stdlib) (hops : Nat → Hop) (url : String) (headers : Headers)
    (allow : Option (String → Bool)) (maxHops : Nat) :
    PullVetted L hops url headers allow maxHops ↔
    ∀ i < maxHops, ∀ u, Reaches L allow hops 0 url i u → Admits L allow u (hops i) →
      Steady L u (hops i) := by
  constructor
  · intro h i hi u hr ha
    obtain ⟨hs, he⟩ := sent_iff.mpr ⟨hi, by rwa [Nat.zero_add], by rwa [Nat.zero_add]⟩
    exact (vetted_iff_steady ha).mp (h i _ he)
  · rintro h i ⟨u, hs⟩ he
    obtain ⟨hi, hr, ha⟩ := sent_iff.mp ⟨hs, he⟩
    rw [Nat.zero_add] at hr ha
    exact (vetted_iff_steady ha).mpr (h i hi u hr ha)

/-- What `urllib.parse` and `ipaddress` do of URLs `https://host/path` and of four
addresses. -/
def sample : Stdlib where
  urlparse url := some
    { scheme := String.ofList (url.toList.takeWhile (· ≠ ':'))
      hostname := some (String.ofList ((url.toList.drop 8).takeWhile (· ≠ '/'))) }
  urljoin _ location := some location
  ipAddress
    | "203.0.113.5" => some ⟨.v4 0xCB007105#32, "203.0.113.5"⟩
    | "198.51.100.7" => some ⟨.v4 0xC6336407#32, "198.51.100.7"⟩
    | "10.0.0.5" => some ⟨.v4 0x0A000005#32, "10.0.0.5"⟩
    | "169.254.169.254" => some ⟨.v4 0xA9FEA9FE#32, "169.254.169.254"⟩
    | _ => none

/-- The resolver gives one address and then another. -/
def rebound : Hop := ⟨.records ["203.0.113.5"], .records ["198.51.100.7"], some ⟨200, none⟩⟩

/-- The resolver gives an internal address second. -/
def mixed : Hop :=
  ⟨.records ["203.0.113.5", "10.0.0.5"], .records ["203.0.113.5", "10.0.0.5"], some ⟨200, none⟩⟩

/-- The pull goes ahead when the two resolutions differ, and when a later record
is an internal address. -/
theorem pull_sent_unvetted :
    ¬ PullVetted sample (fun _ => rebound) "https://models.example/a.gguf" [] none 5 ∧
    ¬ PullVetted sample (fun _ => mixed) "https://models.example/a.gguf" [] none 5 := by
  constructor
  · intro h
    obtain ⟨⟨host, ip, e1, e2⟩, -⟩ := h 0 ⟨"https://models.example/a.gguf", []⟩ (by decide)
    have h1 : sample.validatePullUrl "https://models.example/a.gguf" rebound.first =
        .ok ("models.example", "203.0.113.5") := by decide
    have h2 : sample.validatePullUrl "https://models.example/a.gguf" rebound.second =
        .ok ("models.example", "198.51.100.7") := by decide
    exact absurd ((h1.symm.trans e1).trans (e2.symm.trans h2)) (by decide)
  · intro h
    obtain ⟨-, hall⟩ := h 0 ⟨"https://models.example/a.gguf", []⟩ (by decide)
    exact absurd (hall "10.0.0.5" (by decide)) (by decide)

end Turbohaul.Pull

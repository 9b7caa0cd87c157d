/-
# `Orphans` — which processes the orphan reapers signal

`singleton.py` walks `/proc` for llama-server processes on the manager's ports
in two ways:

    boot_orphan_reaper           those whose parent is PID 1 or the sub-reaper
    intra_lifetime_orphan_scan   those that no live handle is on

Each teardown calls both, one right after the other.  The first is given an
empty set of known pids: what protects a managed sidecar from it is its parent.
-/
import Turbohaul.SingleSidecar
import Turbohaul.Coop.Total

namespace Turbohaul

open Coop

/-! ## Command lines -/

/-- `needle in text`. -/
def inText (needle : List Char) : List Char → Bool
  | [] => needle.isEmpty
  | c :: cs => needle.isPrefixOf (c :: cs) || inText needle cs

/-- `text.split()`; `tok` is the token read so far, reversed. -/
def splitGo (tok : List Char) : List Char → List (List Char)
  | [] => if tok.isEmpty then [] else [tok.reverse]
  | c :: cs =>
      if c.isWhitespace then
        if tok.isEmpty then splitGo [] cs else tok.reverse :: splitGo [] cs
      else splitGo (c :: tok) cs

def split (text : List Char) : List (List Char) := splitGo [] text

def digit (c : Char) : Nat := c.toNat - 48

/-- The rest of a decimal number; an underscore may stand between two digits. -/
def digitsGo (acc : Nat) : List Char → Option Nat
  | [] => some acc
  | '_' :: c :: cs => if c.isDigit then digitsGo (10 * acc + digit c) cs else none
  | c :: cs => if c.isDigit then digitsGo (10 * acc + digit c) cs else none

def natOf : List Char → Option Nat
  | [] => none
  | c :: cs => if c.isDigit then digitsGo (digit c) cs else none

/-- `int(tok)`, of a token without blanks: `none` on its `ValueError`. -/
def intOf : List Char → Option Int
  | '-' :: cs => (natOf cs).map fun n => -(n : Int)
  | '+' :: cs => (natOf cs).map fun n => (n : Int)
  | cs => (natOf cs).map fun n => (n : Int)

/-- The token after the first `--port` or `-p` that has one. -/
def portToken : List (List Char) → Option Int
  | tok :: next :: rest =>
      if tok = "--port".toList || tok = "-p".toList then intOf next else portToken (next :: rest)
  | _ => none

/-- `--port\s+(\d+)`, matched here. -/
def portHere (text : List Char) : Option Nat :=
  if "--port".toList.isPrefixOf text then
    let rest := text.drop 6
    let number := rest.dropWhile Char.isWhitespace
    if number.length < rest.length then natOf (number.takeWhile Char.isDigit) else none
  else none

/-- `port_re.search(text)`. -/
def portSearch : List Char → Option Nat
  | [] => none
  | c :: cs => (portHere (c :: cs)).or (portSearch cs)

/-! ## Processes -/

/-- A process as `/proc` shows it.  The command line is empty, and the parent
is missing, when they cannot be read. -/
structure ProcEntry where
  pid : Nat
  cmdline : List Char := []
  ppid : Option Nat := none
deriving DecidableEq, Repr

/-- A walk from parent to parent, to the last one before PID 1. -/
def walkParents (parent : Nat → Option Nat) : Nat → List Nat → Nat → Nat
  | 0, _, current => current
  | fuel + 1, seen, current =>
      if current ∈ seen || decide (current ≤ 1) then current
      else
        match parent current with
        | some next =>
            if next ≤ 1 then current else walkParents parent fuel (current :: seen) next
        | none => current

/-- `_detect_subreaper_pid`: the manager's oldest ancestor but PID 1. -/
def detectSubreaperPid (parent : Nat → Option Nat) (getppid : Nat) : Option Nat :=
  if getppid = 1 then none
  else
    let current := walkParents parent 50 [] getppid
    if 1 < current then some current else none

/-- The two calls of a teardown. -/
inductive ReaperCall where
  | bootOrphanReaper
  | intraLifetimeOrphanScan
deriving DecidableEq, Repr

/-- What `os.kill` does: it sends the signal, there is no such process, or it
fails otherwise. -/
inductive KillResult where
  | sent
  | lookupError
  | refused
deriving DecidableEq, Repr

/-- The machine the manager runs on.  `parent` and `getppid` are what it read
at import; `proc` is what each of the two walks of `/proc` shows, and `pidOf`
the pid of each sidecar.  `reap` is what `reap_orphan` makes of a process. -/
structure Machine where
  managerPid : Nat
  getppid : Nat
  parent : Nat → Option Nat
  pidOf : Nat → Nat
  proc : ReaperCall → List ProcEntry
  reap : Nat → Bool × String
  kill : Nat → KillResult

namespace Machine

variable (M : Machine)

/-- `allowed_reapers`. -/
def allowedReapers : List Nat := 1 :: (detectSubreaperPid M.parent M.getppid).toList

/-- The port of an orphan: none, unless the process is an orphaned
llama-server on a port of the range. -/
def orphanPort (portBase portRangeSize : Nat) (e : ProcEntry) : Option Nat :=
  if e.cmdline.isEmpty || !inText "llama-server".toList e.cmdline then none
  else if e.ppid.any fun p => p ∈ M.allowedReapers then
    match portToken (split e.cmdline) with
    | some port =>
        if (portBase : Int) ≤ port && port < portBase + portRangeSize then some port.toNat else none
    | none => none
  else none

/-- `find_orphan_llama_servers`. -/
def findOrphanLlamaServers (portBase : Nat) : List (ProcEntry × Nat) :=
  (M.proc .bootOrphanReaper).filterMap fun e => (M.orphanPort portBase 100 e).map fun p => (e, p)

end Machine

/-- What is done about an orphan. -/
inductive ReapAction where
  | skippedKnown
  | reap (ok : Bool) (status : String)
deriving DecidableEq, Repr

/-- The result of `boot_orphan_reaper`. -/
structure BootReap where
  scanned : Nat := 0
  orphansFound : Nat := 0
  reaped : Nat := 0
  failed : Nat := 0
  details : List (ProcEntry × Nat × ReapAction) := []

/-- The result of `intra_lifetime_orphan_scan`; `signalled` are the processes
that it sends SIGTERM to. -/
structure ScanStats where
  scanned : Nat := 0
  matched : Nat := 0
  reaped : Nat := 0
  errors : Nat := 0
  signalled : List Nat := []

namespace Machine

variable (M : Machine)

/-- `boot_orphan_reaper`. -/
def bootOrphanReaper (portBase : Nat) (known : List Nat) : BootReap :=
  let orphans := M.findOrphanLlamaServers portBase
  let details := orphans.map fun o =>
    (o.1, o.2, if o.1.pid ∈ known then ReapAction.skippedKnown
      else .reap (M.reap o.1.pid).1 (M.reap o.1.pid).2)
  { scanned := orphans.length
    orphansFound := orphans.length
    reaped := (details.filter fun d => d.2.2 matches .reap true _).length
    failed := (details.filter fun d => d.2.2 matches .reap false _).length
    details }

/-- One entry of the walk of `intra_lifetime_orphan_scan`. -/
def scanEntry (portBase portRange : Nat) (known : List Nat) (stats : ScanStats)
    (e : ProcEntry) : ScanStats :=
  let stats := { stats with scanned := stats.scanned + 1 }
  if inText "llama-server".toList e.cmdline then
    match portSearch e.cmdline with
    | some port =>
        if portBase ≤ port && port < portBase + portRange then
          let stats := { stats with matched := stats.matched + 1 }
          if e.pid ∈ known then stats
          else
            let stats := { stats with signalled := stats.signalled ++ [e.pid] }
            match M.kill e.pid with
            | .sent => { stats with reaped := stats.reaped + 1 }
            | .lookupError => stats
            | .refused => { stats with errors := stats.errors + 1 }
        else stats
    | none => stats
  else stats

/-- `intra_lifetime_orphan_scan`. -/
def intraLifetimeOrphanScan (portBase : Nat) (known : List Nat) : ScanStats :=
  (M.proc .intraLifetimeOrphanScan).foldl (M.scanEntry portBase 100 known) {}

/-- The processes a call signals. -/
def signalled (portBase : Nat) (call : ReaperCall) (known : List Nat) : List Nat :=
  match call with
  | .bootOrphanReaper =>
      ((M.bootOrphanReaper portBase known).details.filter fun d =>
        d.2.2 matches .reap _ _).map fun d => d.1.pid
  | .intraLifetimeOrphanScan => (M.intraLifetimeOrphanScan portBase known).signalled

end Machine

/-! ## Whom they signal -/

/-- A llama-server on a port of the manager's range. -/
def ProcEntry.onPorts (portBase : Nat) (e : ProcEntry) : Prop :=
  e.cmdline ≠ [] ∧ inText "llama-server".toList e.cmdline = true ∧
    ∃ port, portToken (split e.cmdline) = some port ∧ (portBase : Int) ≤ port ∧
      port < portBase + 100

theorem orphanPort_isSome {M : Machine} {portBase : Nat} {e : ProcEntry} :
    (M.orphanPort portBase 100 e).isSome ↔
      e.onPorts portBase ∧ ∃ p, e.ppid = some p ∧ p ∈ M.allowedReapers := by
  unfold Machine.orphanPort ProcEntry.onPorts
  by_cases hn : e.cmdline = []
  · simp [hn]
  · cases hs : inText "llama-server".toList e.cmdline with
    | false => simp [hn]
    | true =>
        cases e.ppid with
        | none => simp
        | some p =>
            by_cases hm : p ∈ M.allowedReapers
            · cases portToken (split e.cmdline) with
              | none => simp [hn, hm]
              | some port => simp [hn, hm]
            · simp [hm]

theorem mem_boot_signalled {M : Machine} {portBase pid : Nat} {known : List Nat} :
    pid ∈ M.signalled portBase .bootOrphanReaper known ↔ pid ∉ known ∧
      ∃ e ∈ M.proc .bootOrphanReaper, e.pid = pid ∧ e.onPorts portBase ∧
        ∃ p, e.ppid = some p ∧ p ∈ M.allowedReapers := by
  constructor
  · intro h
    obtain ⟨d, hd, rfl⟩ := List.mem_map.mp h
    obtain ⟨hd, ha⟩ := List.mem_filter.mp hd
    obtain ⟨o, ho, rfl⟩ := List.mem_map.mp hd
    obtain ⟨e, he, hoe⟩ := List.mem_filterMap.mp ho
    obtain ⟨port, hport, rfl⟩ := Option.map_eq_some_iff.mp hoe
    have hk : e.pid ∉ known := by
      intro hk
      simp [hk] at ha
    exact ⟨hk, e, he, rfl, orphanPort_isSome.mp (by simp [hport])⟩
  · rintro ⟨hk, e, he, rfl, ho⟩
    obtain ⟨port, hport⟩ := Option.isSome_iff_exists.mp (orphanPort_isSome.mpr ho)
    refine List.mem_map.mpr ⟨(e, port, .reap (M.reap e.pid).1 (M.reap e.pid).2),
      List.mem_filter.mpr ⟨List.mem_map.mpr ⟨(e, port), ?_, by simp [hk]⟩, rfl⟩, rfl⟩
    exact List.mem_filterMap.mpr ⟨e, he, by simp [hport]⟩

theorem scanEntry_signalled {M : Machine} {portBase n pid : Nat} {known : List Nat}
    {stats : ScanStats} {e : ProcEntry} (h : pid ∈ known) (hs : pid ∉ stats.signalled) :
    pid ∉ (M.scanEntry portBase n known stats e).signalled := by
  have new : e.pid ∉ known → pid ∉ stats.signalled ++ [e.pid] := by
    intro he hm
    rcases List.mem_append.mp hm with hm | hm
    · exact hs hm
    · exact he (List.mem_singleton.mp hm ▸ h)
  unfold Machine.scanEntry
  dsimp only
  split
  · split
    · split
      · split
        · exact hs
        · next he => split <;> exact new he
      · exact hs
    · exact hs
  · exact hs

/-- The scan spares what it is told is known. -/
theorem known_not_scanned {M : Machine} {portBase pid : Nat} {known : List Nat}
    (h : pid ∈ known) : pid ∉ M.signalled portBase .intraLifetimeOrphanScan known := by
  have run : ∀ (es : List ProcEntry) (stats : ScanStats), pid ∉ stats.signalled →
      pid ∉ (es.foldl (M.scanEntry portBase 100 known) stats).signalled := by
    intro es
    induction es with
    | nil => exact fun _ hs => hs
    | cons e es ih => exact fun stats hs => ih _ (scanEntry_signalled h hs)
  exact run _ {} (by rintro ⟨⟩)

/-- The manager is its own sub-reaper only if it is its own ancestor. -/
theorem detectSubreaperPid_ancestor {parent : Nat → Option Nat} {getppid p : Nat}
    (h : detectSubreaperPid parent getppid = some p) :
    Relation.ReflTransGen (fun a b => parent a = some b) getppid p := by
  have walk : ∀ fuel seen current, Relation.ReflTransGen (fun a b => parent a = some b) current
      (walkParents parent fuel seen current) := by
    intro fuel
    induction fuel with
    | zero => exact fun _ _ => .refl
    | succ fuel ih =>
        intro seen current
        unfold walkParents
        split
        · exact .refl
        · split
          · next next hn =>
              split
              · exact .refl
              · exact .head hn (ih _ _)
          · exact .refl
  unfold detectSubreaperPid at h
  split at h
  · cases h
  · dsimp only at h
    split at h
    · exact Option.some.inj h ▸ walk 50 [] getppid
    · cases h

/-! ## The calls of a teardown -/

/-- The calls that a teardown in the world `w` makes, with the pids it passes
and the world at the call.  Nothing else runs between the two. -/
inductive Calls (C : Config) (t : Nat) (w : World) : ReaperCall → List Nat → World → Prop where
  | boot {k : Reply → Prog Unit} (h : (orphanReapers C).run w = .ask (.orphanReap []) k w) :
      Calls C t w .bootOrphanReaper [] w
  | scan {k k' : Reply → Prog Unit} {r : Reply} {known : List Nat} {w' : World}
      (h : (orphanReapers C).run w = .ask (.orphanReap []) k w)
      (ha : allowed t (.orphanReap []) r w = true)
      (h' : (k r).run (answer t (.orphanReap []) r w) = .ask (.orphanReap known) k' w') :
      Calls C t w .intraLifetimeOrphanScan known w'

/-- The scan is told the live pids of the moment. -/
theorem Calls.known {C : Config} {t : Nat} {w w' : World} {known : List Nat}
    (h : Calls C t w .intraLifetimeOrphanScan known w') : known = liveHandlePids C w' := by
  cases h with
  | @scan k k' r _ _ h ha h' =>
      cases h
      cases r <;> first
        | cases ha
        | (cases h'; rfl)

/-- Neither reaper signals a live managed sidecar, unless its parent, the
manager, passes for a reaper of orphans and the sidecar is on a port of the
range. -/
theorem reapers_spare_managed (C : Config) (M : Machine) (t : Nat) (w : World)
    (hp : ∀ p ∈ liveHandlePids C w, ∀ e ∈ M.proc .bootOrphanReaper, e.pid = M.pidOf p →
      e.ppid = some M.managerPid) :
    (∀ call known w', Calls C t w call known w' → ∀ p ∈ liveHandlePids C w',
        M.pidOf p ∉ M.signalled C.defaultPortBase call (known.map M.pidOf)) ↔
      ¬(M.managerPid ∈ M.allowedReapers ∧ ∃ p ∈ liveHandlePids C w,
        ∃ e ∈ M.proc .bootOrphanReaper, e.pid = M.pidOf p ∧ e.onPorts C.defaultPortBase) := by
  constructor
  · rintro h ⟨hm, p, hl, e, he, hpid, hports⟩
    refine h .bootOrphanReaper [] w (.boot rfl) p hl
      (mem_boot_signalled.mpr ⟨(by rintro ⟨⟩), e, he, hpid,
      hports, M.managerPid, hp p hl e he hpid, hm⟩)
  · intro h call known w' hc p hl
    cases call with
    | bootOrphanReaper =>
        cases hc
        intro hs
        obtain ⟨-, e, he, hpid, hports, q, hq, hm⟩ := mem_boot_signalled.mp hs
        cases (hp p hl e he hpid).symm.trans hq
        exact h ⟨hm, p, hl, e, he, hpid, hports⟩
    | intraLifetimeOrphanScan =>
        rw [hc.known]
        exact known_not_scanned (List.mem_map_of_mem hl)

/-- A sidecar on the default port, child of the manager. -/
def sidecarEntry (pid managerPid : Nat) : ProcEntry :=
  { pid, cmdline := "llama-server --port 11500".toList, ppid := some managerPid }

/-- A machine on which sidecar `p` has pid `100 + p`, and sidecar 1 runs. -/
def machine (managerPid getppid : Nat) : Machine :=
  { managerPid
    getppid
    parent := fun _ => none
    pidOf := fun p => 100 + p
    proc := fun _ => [sidecarEntry 101 managerPid]
    reap := fun _ => (true, "sigterm-clean")
    kill := fun _ => .sent }

/-- The boot reaper is called while the sidecar of process 1 is live. -/
def scansBesideLive (c : Loop sig) : Bool :=
  match c.current with
  | some (_, .ask (.orphanReap []) _ w) => decide (liveHandlePids raceConfig w = [1])
  | _ => false

/-- The manager is PID 1 of its container.  The detached teardown of the idle
holder reaps while the sidecar of the next slot loads: it is signalled. -/
theorem reaper_hits_next_sidecar : ∃ (c : Loop sig) (t : Nat) (k : Reply → Prog Unit) (w : World),
    Reachable raceConfig (Admit.any _) c ∧
    c.current = some (t, .ask (Op.orphanReap []) k w) ∧
    Calls raceConfig t w .bootOrphanReaper [] w ∧ liveHandlePids raceConfig w = [1] ∧
    (∀ p ∈ liveHandlePids raceConfig w, ∀ e ∈ (machine 1 0).proc .bootOrphanReaper,
      e.pid = (machine 1 0).pidOf p → e.ppid = some (machine 1 0).managerPid) ∧
    (machine 1 0).pidOf 1 ∈
      (machine 1 0).signalled raceConfig.defaultPortBase .bootOrphanReaper [] := by
  have h : (Loop.exec (Admit.any _) (raced ++
      [.resume 2 .ok, .answer (.manifest {}), .resume 2 .ok]) { world := initial }).any
        scansBesideLive = true := by decide +kernel
  obtain ⟨c, hc, hp⟩ := Loop.reach_of_check h
  unfold scansBesideLive at hp
  split at hp
  · next t k w hcur =>
      have hl := of_decide_eq_true hp
      refine ⟨c, t, k, w, hc, hcur, .boot rfl, hl, ?_, by decide +kernel⟩
      rw [hl]
      decide +kernel
  · cases hp

/-- The same moment, when the manager is a process among others. -/
theorem reapers_spare_managed_child : 7 ∉ (machine 7 1).allowedReapers ∧
    ∀ call known w', Calls raceConfig 0
      { initial with
        procs := { spawned := 2, proc := fun _ => { alive := true } }
        hold := { activeHandle := some 1 } } call known w' →
      ∀ p ∈ liveHandlePids raceConfig w', (machine 7 1).pidOf p ∉
        (machine 7 1).signalled raceConfig.defaultPortBase call (known.map (machine 7 1).pidOf) :=
  have outside : 7 ∉ (machine 7 1).allowedReapers := by decide
  ⟨outside, (reapers_spare_managed raceConfig (machine 7 1) 0 _ (by decide +kernel)).mpr
    fun h => outside h.1⟩

end Turbohaul

/-
# PodmanApi.Inventory.Boot — how the inventory poller notices a reboot.

`checkBoot` of `internal/inventory` compares a host's uptime with the one it saw last: an uptime that
has dropped by more than a tolerance means a reboot, and the host's specs are reconciled. Nothing is
known of the time between the two probes, so a host that has been up long enough since its reboot looks
as if it had never gone down.
-/
import PodmanApi.Data

namespace PodmanApi.Inventory

open GoStd

/-! ## The poller's memory of uptimes -/

def bootJitterTolerance : Duration := 20 * second

/-- `checkBoot`: the uptimes it leaves, and whether it calls `ReconcileSpecsOnHost`. `HostUptime` may
fail, and a podman may not report an uptime. -/
def checkBoot (bootUptime : GoMap Duration) (host : String) (probe : Except Error (Duration × Bool)) :
    GoMap Duration × Bool :=
  match probe with
  | .ok (uptime, true) =>
    match bootUptime.get? host with
    | none => (bootUptime.set host uptime, false)
    | some prev => (bootUptime.set host uptime, !decide (prev - bootJitterTolerance ≤ uptime))
  | .ok (_, false) | .error _ => (bootUptime, false)

/-- `pruneState`, for the uptimes. -/
def pruneState (bootUptime : GoMap Duration) (hosts : List String) : GoMap Duration :=
  bootUptime.filter fun p => hosts.contains p.1

/-- What happens to the uptimes: a probe, or the end of a tick over these hosts. -/
inductive Event where
  | probe (host : String) (answer : Except Error (Duration × Bool))
  | tickEnd (hosts : List String)

def Event.after (bootUptime : GoMap Duration) : Event → GoMap Duration
  | probe host answer => (checkBoot bootUptime host answer).1
  | tickEnd hosts => pruneState bootUptime hosts

def uptimes (events : List Event) : GoMap Duration :=
  events.foldl Event.after []

def Event.samples (host : String) : Event → Bool
  | probe other (.ok (_, true)) => other == host
  | _ => false

def Event.forgets (host : String) : Event → Bool
  | tickEnd hosts => !hosts.contains host
  | _ => false

theorem checkBoot_sample (bootUptime : GoMap Duration) (host : String) (uptime : Duration) :
    (checkBoot bootUptime host (.ok (uptime, true))).1 = bootUptime.set host uptime := by
  simp only [checkBoot]
  split <;> rfl

theorem get?_pruneState (bootUptime : GoMap Duration) (hosts : List String) (host : String) :
    (pruneState bootUptime hosts).get? host = if hosts.contains host then bootUptime.get? host else none := by
  unfold pruneState GoMap.get?
  rw [List.find?_filter]
  have hkey : ∀ p : String × Duration,
      (decide (hosts.contains p.1 = true ∧ (p.1 == host) = true)) = (hosts.contains host && (p.1 == host)) := by
    intro p
    by_cases hp : p.1 = host <;> simp [hp]
  simp only [hkey]
  cases hosts.contains host <;> simp

variable {host : String} {b : GoMap Duration} {e : Event}

theorem get?_after (hquiet : e.samples host = false) :
    (Event.after b e).get? host = if e.forgets host then none else b.get? host := by
  match e, hquiet with
  | .probe _ (.error _), _ | .probe _ (.ok (_, false)), _ => rfl
  | .probe other (.ok (uptime, true)), hquiet =>
    show (checkBoot b other (.ok (uptime, true))).1.get? host = b.get? host
    rw [checkBoot_sample, GoMap.get?_set, if_neg (by simpa [Event.samples] using hquiet)]
  | .tickEnd hosts, _ =>
    show (pruneState b hosts).get? host = _
    rw [get?_pruneState, Event.forgets]
    cases hosts.contains host <;> rfl

/-- While a host is not sampled, its uptime is remembered until a tick goes without the host. -/
theorem get?_foldl_after {between : List Event} (hquiet : ∀ e ∈ between, e.samples host = false) :
    (between.foldl Event.after b).get? host = if between.any (Event.forgets host) then none else b.get? host := by
  induction between generalizing b with
  | nil => rfl
  | cons e between ih =>
    rw [List.forall_mem_cons] at hquiet
    rw [List.foldl_cons, ih hquiet.2, get?_after hquiet.1, List.any_cons]
    cases e.forgets host <;> simp

/-! ## Reboots -/

/-- An exact reading of a host: the clock, and when the host came up. -/
structure Reading where
  clock : Int
  boot : Int

def Reading.uptime (r : Reading) : Duration := r.clock - r.boot

/-- Between two samples of a host there may be failed probes, probes of other hosts and ticks. The second sample
triggers a reconcile exactly if the host rebooted since the first, unless it did and was forgotten or has been up,
since then, nearly as long as before. -/
theorem reboot_noticed_iff (past between : List Event) (host : String) (p q : Reading)
    (hquiet : ∀ e ∈ between, e.samples host = false) (hclock : p.clock ≤ q.clock)
    -- either the host has been up since before the first sample, or it came up after it
    (hboot : q.boot = p.boot ∧ p.boot ≤ p.clock ∨ p.clock < q.boot ∧ q.boot ≤ q.clock) :
    ((checkBoot (uptimes (past ++ .probe host (.ok (p.uptime, true)) :: between)) host
        (.ok (q.uptime, true))).2 = true ↔ p.clock < q.boot) ↔ (p.clock < q.boot →
        between.any (Event.forgets host) = false ∧ q.uptime < p.uptime - bootJitterTolerance) := by
  have hbase : (Event.after (uptimes past) (.probe host (.ok (p.uptime, true)))).get? host = some p.uptime := by
    show (checkBoot _ _ _).1.get? host = _
    rw [checkBoot_sample, GoMap.get?_set, if_pos rfl]
  have hlast : (uptimes (past ++ .probe host (.ok (p.uptime, true)) :: between)).get? host =
      if between.any (Event.forgets host) then none else some p.uptime := by
    rw [uptimes, List.foldl_append, List.foldl_cons, get?_foldl_after hquiet]
    exact congrArg _ hbase
  have htol : 0 ≤ bootJitterTolerance := by decide
  rw [checkBoot, hlast]
  cases between.any (Event.forgets host) with
  | true => simp
  | false =>
    show ((!decide (p.uptime - bootJitterTolerance ≤ q.uptime)) = true ↔ _) ↔ _
    simp only [Reading.uptime]
    grind

/-- A host that was up for a quarter of an hour and came back half a minute ago. -/
theorem reboot_noticed : ∃ p q : Reading, p.clock < q.boot ∧
    (checkBoot (uptimes [.probe "edge" (.ok (p.uptime, true)), .probe "edge" (.error (.text "timeout"))])
      "edge" (.ok (q.uptime, true))).2 = true :=
  ⟨⟨900 * second, 0⟩, ⟨1000 * second, 970 * second⟩, by decide,
    ((reboot_noticed_iff [] [.probe "edge" (.error (.text "timeout"))] "edge" _ _ (by decide) (by decide)
      (by decide)).2 fun _ => by decide).2 (by decide)⟩

/-- A host that went down soon after it came up, and was probed again only later: it has been up longer
than the first time. -/
theorem early_reboot_unnoticed : ∃ p q : Reading, p.boot ≤ p.clock ∧ p.clock < q.boot ∧ q.boot ≤ q.clock ∧
    (checkBoot (uptimes [.probe "edge" (.ok (p.uptime, true))]) "edge" (.ok (q.uptime, true))).2 = false :=
  ⟨⟨100 * second, 0⟩, ⟨300 * second, 150 * second⟩, by decide⟩

end PodmanApi.Inventory

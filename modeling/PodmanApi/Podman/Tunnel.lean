/-
# PodmanApi.Podman.Tunnel — a tunnel closes its SSH client once, and drains first.

`internal/podman/ssh_tunnel.go`. `Close` refuses new forwards and leaves the client to the last one that ends;
`shutdown`, for a client that is dead, waits for nobody. `Close` also arms a timer, and when its grace has
passed `finish` runs whatever is still being forwarded (`grace_cuts_forward`): the only way from a `Close` to a
client closed under a forward (`tunnel_drains`).

Every section under the tunnel's mutex is one step here, and a goroutine is the stage it has come to.
-/
import Mathlib.Data.Multiset.Count

namespace PodmanApi.Podman.Tunnel

/-- The fields of `sshTunnel` that its mutex guards; of the timer, whether it can still fire. -/
structure SSHTunnel where
  active : Nat
  closing : Bool
  closed : Bool
  force : Bool
  deriving DecidableEq, Repr

inductive Stage where
  -- a connection was accepted, and `begin` is called for it
  | accepted
  -- it has begun; when it is done, `end` is called
  | forwarding
  | close
  | shutdown
  -- the function of `time.AfterFunc`, before the timer fires
  | timer
  | finish
  -- the rest of `finish`, without the mutex: the client is closed
  | release
  | returned
  deriving DecidableEq, Repr

/-- One step of a goroutine: the tunnel after it, and the stage the goroutine has come to. -/
def SSHTunnel.step (t : SSHTunnel) : Stage → Option (SSHTunnel × Stage)
  | .accepted =>
    if t.closed || t.closing then some (t, .returned)
    else some ({ t with active := t.active + 1 }, .forwarding)
  | .forwarding =>
    let last := t.closing && t.active - 1 == 0
    some ({ t with active := t.active - 1 }, if last then .finish else .returned)
  | .close =>
    if t.closing || t.closed then some (t, .returned)
    else if t.active = 0 then some ({ t with closing := true }, .finish)
    else some ({ t with closing := true, force := true }, .returned)
  | .shutdown => some ({ t with closing := true }, .finish)
  | .timer => if t.force then some ({ t with force := false }, .finish) else none
  | .finish =>
    if t.closed then some (t, .returned)
    else some ({ t with closed := true, force := false }, .release)
  | .release => some (t, .returned)
  | .returned => none

structure System where
  tunnel : SSHTunnel
  stages : Multiset Stage

/-- An open tunnel, before any of its goroutines has made a step. -/
structure System.Fresh (x : System) : Prop where
  tunnel : x.tunnel = ⟨0, false, false, false⟩
  stages : ∀ stage ∈ x.stages, stage ∈ [.accepted, .close, .shutdown, .timer]

/-- An interleaving up to some point, with the stage that each step was made from. -/
inductive Run (start : System) : List Stage → System → Prop where
  | start : Run start [] start
  | next {t : List Stage} {x : System} {stage : Stage} {tunnel : SSHTunnel} (run : Run start t x)
      (old : Stage) (rest : Multiset Stage) (hx : x.stages = old ::ₘ rest)
      (h : x.tunnel.step old = some (tunnel, stage)) :
      Run start (t ++ [old]) ⟨tunnel, stage ::ₘ rest⟩

/-- The client may be closed: nothing is forwarded, or the tunnel was shut down or its grace has passed. -/
def Licensed (t : List Stage) (x : System) : Prop :=
  .shutdown ∈ t ∨ .timer ∈ t ∨ x.stages.count .forwarding = 0

/-- What holds wherever a run of a fresh tunnel arrives. -/
structure Sound (t : List Stage) (x : System) : Prop where
  active : x.tunnel.active = x.stages.count .forwarding
  called : .close ∈ t ∨ .shutdown ∈ t → x.tunnel.closing = true
  armed : x.tunnel.force = true → x.tunnel.closing = true
  -- whoever is in `finish`, or has been there, was allowed to go there
  licensed : x.tunnel.closed = true ∨ 0 < x.stages.count .finish → x.tunnel.closing = true ∧ Licensed t x
  -- and whoever had to go there has not been forgotten
  finished : x.tunnel.closing = true → .shutdown ∈ t ∨ x.stages.count .forwarding = 0 →
    x.tunnel.closed = true ∨ 0 < x.stages.count .finish
  once : t.count .release + x.stages.count .release = if x.tunnel.closed then 1 else 0

variable {t : List Stage} {x start : System}

theorem Sound.next {old stage : Stage} {rest : Multiset Stage} {tunnel : SSHTunnel} (h : Sound t x)
    (hx : x.stages = old ::ₘ rest) (hstep : x.tunnel.step old = some (tunnel, stage)) :
    Sound (t ++ [old]) ⟨tunnel, stage ::ₘ rest⟩ := by
  obtain ⟨⟨active, closing, closed, force⟩, stages⟩ := x
  obtain rfl : stages = old ::ₘ rest := hx
  obtain ⟨hactive, hcalled, harmed, hlicensed, hfinished, honce⟩ := h
  simp only [Licensed, Multiset.count_cons] at hactive hlicensed hfinished honce
  -- the other fields are linear in the numbers of goroutines at each stage
  cases old with
  | returned => cases hstep
  | accepted | forwarding | close | shutdown | timer | finish | release =>
    simp only [SSHTunnel.step] at hstep
    constructor <;> grind -ring -linarith [Licensed, Multiset.count_cons]

theorem Run.sound (h : Run start t x) (hstart : start.Fresh) : Sound t x := by
  induction h with
  | start =>
    have hnone : ∀ stage, stage ∉ [.accepted, .close, .shutdown, .timer] → start.stages.count stage = 0 :=
      fun stage hstage => Multiset.count_eq_zero.2 fun hmem => hstage (hstart.stages stage hmem)
    have hforwarding := hnone .forwarding (by decide)
    have hfinish := hnone .finish (by decide)
    have hrelease := hnone .release (by decide)
    constructor <;> simp [hstart.tunnel, hforwarding, hfinish, hrelease]
  | next _ _ _ hx hstep ih => exact ih.next hx hstep

/-- Whatever the goroutines of a tunnel do, its client is closed at most once. It has been closed once nobody is
in `finish` any more, if the tunnel was shut down, or was closed and everything begun has ended. It is closed
under a forward only after a `shutdown` or the grace of a `Close`; and after either call no `begin` succeeds. -/
theorem tunnel_drains (start x : System) (t : List Stage) (hstart : start.Fresh) (h : Run start t x) :
    t.count .release ≤ 1 ∧
    (.shutdown ∈ t ∨ .close ∈ t ∧ .forwarding ∉ x.stages → .finish ∉ x.stages → .release ∉ x.stages →
      t.count .release = 1) ∧ (.release ∈ x.stages → .shutdown ∈ t ∨ .timer ∈ t ∨ .forwarding ∉ x.stages) ∧
    (.close ∈ t ∨ .shutdown ∈ t → x.tunnel.step .accepted = some (x.tunnel, .returned)) := by
  have hsound := h.sound hstart
  have honce := hsound.once
  refine ⟨?_, fun hcalled hfinish hrelease => ?_, fun hrelease => ?_, fun hcalled => ?_⟩
  · split at honce <;> omega
  · have hclosing : x.tunnel.closing = true := hsound.called (hcalled.elim .inr fun hclose => .inl hclose.1)
    have hended := hsound.finished hclosing (hcalled.imp_right fun hclose => Multiset.count_eq_zero.2 hclose.2)
    rw [Multiset.count_eq_zero.2 hfinish] at hended
    rw [Multiset.count_eq_zero.2 hrelease, if_pos (hended.resolve_right (by omega))] at honce
    exact honce
  · have hclosed : x.tunnel.closed = true := by
      have hpos := Multiset.count_pos.2 hrelease
      by_contra hopen
      rw [if_neg hopen] at honce
      omega
    simpa only [Licensed, Multiset.count_eq_zero] using (hsound.licensed (.inl hclosed)).2
  · simp [SSHTunnel.step, hsound.called hcalled]

/-- A tunnel with one connection, its `Close` and the timer of that. -/
def busyTunnel : System :=
  ⟨⟨0, false, false, false⟩, {.accepted, .close, .timer}⟩

theorem busyTunnel_fresh : busyTunnel.Fresh :=
  ⟨rfl, by decide⟩

theorem closing_busyTunnel :
    Run busyTunnel [.accepted, .close] ⟨⟨1, true, false, true⟩, {.returned, .forwarding, .timer}⟩ := by
  have hbegin := (.start : Run busyTunnel [] _).next .accepted {.close, .timer} rfl rfl
  exact hbegin.next .close {.forwarding, .timer} (by decide) rfl

/-- The forward ends, and its goroutine closes the client. -/
theorem last_forward_releases : Run busyTunnel [.accepted, .close, .forwarding, .finish, .release]
      ⟨⟨0, true, true, false⟩, {.returned, .returned, .timer}⟩ ∧
    [Stage.accepted, .close, .forwarding, .finish, .release].count .release ≤ 1 := by
  have hend := closing_busyTunnel.next .forwarding {.returned, .timer} (by decide) rfl
  have hfinish := hend.next .finish {.returned, .timer} rfl rfl
  have hrelease := hfinish.next .release {.returned, .timer} rfl rfl
  exact ⟨hrelease, (tunnel_drains _ _ _ busyTunnel_fresh hrelease).1⟩

/-- Without a `shutdown`, the client is closed while a connection is forwarded. -/
theorem grace_cuts_forward : ∃ x, Run busyTunnel [.accepted, .close, .timer, .finish, .release] x ∧
    busyTunnel.Fresh ∧ .forwarding ∈ x.stages := by
  have hexpired := closing_busyTunnel.next .timer {.returned, .forwarding} (by decide) rfl
  have hfinish := hexpired.next .finish {.returned, .forwarding} rfl rfl
  have hrelease := hfinish.next .release {.returned, .forwarding} rfl rfl
  exact ⟨_, hrelease, busyTunnel_fresh, by decide⟩

end PodmanApi.Podman.Tunnel

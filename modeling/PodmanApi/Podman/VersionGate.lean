/-
# PodmanApi.Podman.VersionGate — no operation on a host whose version was not checked.

`ensureVerified` of `real.go`: the first operation on a host asks it for its version, and a flag remembers that
it passed, until `SetHosts` or `invalidateConn` clears it. The flag is set after an unlocked round trip: a slow
query of the old endpoint sets it after the reload has cleared it, and the new endpoint passes unasked. `Steady`
excludes this.
-/
import PodmanApi.Podman.ExecPool

namespace PodmanApi.Podman.VersionGate

open GoStd Calls ExecPool
open Function (update update_self update_of_ne)

/-! ## What has happened -/

/-- The clearings of each id, the version queries that succeeded, with the clearings before them, each thread's
connection, and what it passed the gate with. -/
structure Log (ι : Type) where
  clears : String → Nat
  queries : List (String × Host × Nat)
  given : ι → Option Conn
  passed : ι → Option (String × Conn × Nat)

def Log.empty {ι : Type} : Log ι where
  clears _ := 0
  queries := []
  given _ := none
  passed _ := none

section Log

variable {ι : Type} [DecidableEq ι]

/-- A thread passes the gate of a host with the connection it was given. -/
def Log.pass (log : Log ι) (i : ι) (id : String) : Log ι :=
  { log with
    passed := update log.passed i ((log.given i).map fun e => (id, e, log.clears id)) }

def Log.give (log : Log ι) (i : ι) (e : Conn) : Log ι :=
  { log with given := update log.given i (some e) }

@[simp]
theorem Log.give_given (log : Log ι) (i : ι) (e : Conn) : (log.give i e).given i = some e :=
  update_self _ _ _

@[simp]
theorem Log.pass_passed (log : Log ι) (i : ι) (id : String) :
    (log.pass i id).passed i = (log.given i).map fun e => (id, e, log.clears id) :=
  update_self _ _ _

def Log.after (sv : Semver) (log : Log ι) (i : ι) : (op : Op) → op.Ans → Log ι
  | .lookup _, .hit e => log.give i e
  | .await _, .done (.ok e) => log.give i e
  | .swap _, swapped =>
    { log with
      clears := fun id => if swapped.changed.any (·.1 == id) then log.clears id + 1 else log.clears id }
  | .evict id _, true => { log with clears := update log.clears id (log.clears id + 1) }
  | .probe id e, .ok version =>
    match checkVersion sv id version with
    | .ok _ => { log with queries := (id, e.target.host, log.clears id) :: log.queries }
    | .error _ => log
  | .isVerified id, true => log.pass i id
  | .markVerified id, _ => log.pass i id
  | _, _ => log

def noted (sv : Semver) (log : Log ι) (e : ι × Event clientCalls) : Log ι :=
  log.after sv e.1 e.2.1 e.2.2

/-- A host with these parameters has answered a version query with a version that is high enough, when the
id had been cleared `m` times. -/
def Log.Queried (log : Log ι) (id : String) (h : Host) (m : Nat) : Prop :=
  ∃ asked, (id, asked, m) ∈ log.queries ∧ hostConnEq asked h = true

/-- The condition on a step. A thread reads a set flag and sets the flag only while its connection is the cached
one; and once past the gate it looks for further connections only while the host is configured, and its exec slot
filled, with the parameters of the connection it passed with. -/
def Steady (i : ι) (s : Real × Log ι) : Op → Prop
  | .isVerified id => s.1.verified id = true → ∀ e, s.2.given i = some e → s.1.ctx id = some e
  | .markVerified id => ∀ e, s.2.given i = some e → s.1.ctx id = some e
  | .lookup id => ∀ e m h, s.2.passed i = some (id, e, m) → s.1.hosts.get id = some h →
      hostConnEq e.target.host h = true
  | .resolve id => ∀ e m h, s.2.passed i = some (id, e, m) → s.1.hosts.get id = some h →
      hostConnEq e.target.host h = true
  | .take id => ∀ e m c, s.2.passed i = some (id, e, m) → s.1.execPool id = some c →
      hostConnEq e.target.host c.target.host = true
  | _ => True

end Log

/-! ## What a thread knows -/

/-- What a thread was given, the dial it waits for and its host, its successful query, what it passed the gate
with, the exec dial it waits for or makes, and the dial it makes. -/
structure View where
  given : Option Conn := none
  awaits : Option (Nat × Host) := none
  probed : Option (String × Conn × Nat) := none
  passed : Option (String × Conn × Nat) := none
  execDial : Option (Nat × Target) := none
  dial : Option (Nat × Host) := none

/-- What a thread has passed the gate of a host with has the parameters of this host. -/
def View.Near (v : View) (id : String) (h : Host) : Prop :=
  ∀ e m, v.passed = some (id, e, m) → hostConnEq e.target.host h = true

def viewed (sv : Semver) : Calls.Service clientCalls View := fun a op r b =>
  match op, r with
  | .lookup id, .hit e => b = { a with given := some e } ∧ a.Near id e.target.host
  | .lookup id, .join d => ∃ h, b = { a with awaits := some (d, h) } ∧ a.Near id h
  | .lookup id, .reserved d => ∃ h, b = { a with awaits := some (d, h) } ∧ a.Near id h
  | .await d, .done (.ok e) =>
    b = { a with given := some e } ∧ ∀ h, a.awaits = some (d, h) → hostConnEq h e.target.host = true
  | .isVerified id, true => ∃ m, b = { a with passed := a.given.map fun e => (id, e, m) }
  | .probe id e, .ok version =>
    match checkVersion sv id version with
    | .ok _ => ∃ m, b = { a with probed := some (id, e, m) }
    | .error _ => b = a
  | .markVerified id, _ => ∃ m, b = { a with passed := a.given.map fun e => (id, e, m) }
  | .resolve id, some target => b = a ∧ a.Near id target.host
  | .take id, some c => b = a ∧ a.Near id c.target.host
  | .dial target _, .ok c => b = a ∧ c.target = target
  | .startExecDial _ target, d => b = { a with execDial := some (d, target) }
  | .awaitExec d, .done (.ok c) => b = a ∧ ∀ target, a.execDial = some (d, target) → c.target = target
  | .started, .dial _ target d => b = { a with dial := some (d, target.host) }
  | .started, .execDial _ target d => b = { a with execDial := some (d, target) }
  | _, _ => b = a

/-- What every thread guarantees. It queries over its connection and sets the flag after a successful query; dials
are ended by who makes them; and a libpod call comes after the gate, over a connection with the parameters of the
one it was passed with. -/
def Gates (a : View) : Op → Prop
  | .probe _ e => a.given = some e
  | .markVerified id => ∃ e m, a.given = some e ∧ a.probed = some (id, e, m)
  | .publish _ target d _ => a.dial = some (d, target.host)
  | .settle d e _ => ∃ target, a.execDial = some (d, target) ∧ ∀ c, e = some c → c.target = target
  | .libpod id c => ∃ e m, a.passed = some (id, e, m) ∧ hostConnEq e.target.host c.target.host = true
  | _ => True

abbrev Passes {α : Type} (sv : Semver) (Q : View → α → Prop) (p : Prog clientCalls α) : View → Prop :=
  Ensures (viewed sv) Gates Q p

/-! ## What the client and the log have to do with each other -/

/-- The dial is on record, for a host with these very parameters. -/
def DialFor (s : Real) (d : Nat) (h : Host) : Prop :=
  ∃ call, s.dials d = some call ∧ call.host = h

variable {id : String} {m d : Nat} {e c : Conn} {target : Target}

section Relation

variable {ι : Type}

/-- A set flag speaks for the cached connection, a dial ends with a published connection to the host it was made
for, and dials are on record before they are launched. -/
structure Guarded (s : Real) (log : Log ι) (w : Conn → Tally) : Prop where
  flag : ∀ id, s.verified id = true →
    ∃ c, s.ctx id = some c ∧ log.Queried id c.target.host (log.clears id)
  outcome : ∀ d call c, s.dials d = some call → call.outcome = some (.ok c) →
    hostConnEq call.host c.target.host = true ∧ 0 < (w c).published
  numbered : ∀ d call, s.dials d = some call → d < s.dialed
  launched : ∀ id target d, .dial id target d ∈ s.launched → DialFor s d target.host
  handoffs : Handoffs s

/-- What a thread knows is so. A query over a connection that is still cached was made after the last
clearing. -/
structure Knows (s : Real) (log : Log ι) (w : Conn → Tally) (v : View) : Prop where
  served : ∀ e, v.given = some e → 0 < (w e).published
  asked : ∀ id e m, v.passed = some (id, e, m) → log.Queried id e.target.host m
  awaits : ∀ d h, v.awaits = some (d, h) → ∃ call, s.dials d = some call ∧ hostConnEq h call.host = true
  probed : ∀ id e m, v.probed = some (id, e, m) →
    (id, e.target.host, m) ∈ log.queries ∧ 0 < (w e).published ∧ (s.ctx id = some e → log.clears id = m)
  execDial : ∀ d target, v.execDial = some (d, target) → Recorded s d target
  dial : ∀ d h, v.dial = some (d, h) → DialFor s d h

/-- A thread's view is what the log has of it, and is so. -/
structure Fits (s : Real) (log : Log ι) (w : Conn → Tally) (i : ι) (v : View) : Prop where
  given : v.given = log.given i
  passed : v.passed = log.passed i
  knows : Knows s log w v

/-- What a call of another thread cannot take away. -/
structure Progress (s : Real) (log : Log ι) (w : Conn → Tally) (s' : Real) (log' : Log ι)
    (w' : Conn → Tally) : Prop where
  published : ∀ e, 0 < (w e).published → 0 < (w' e).published
  queries : ∀ q ∈ log.queries, q ∈ log'.queries
  current : ∀ id e, 0 < (w e).published → s'.ctx id = some e → s.ctx id = some e ∧ log'.clears id = log.clears id
  dials : ∀ d call, s.dials d = some call → ∃ call', s'.dials d = some call' ∧ call'.host = call.host
  recorded : ∀ d target, Recorded s d target → Recorded s' d target

variable {s s' : Real} {log log' : Log ι} {w w' : Conn → Tally} {i : ι} {v : View}

theorem Log.Queried.mono {h : Host} (hq : log.Queried id h m)
    (hqueries : ∀ q ∈ log.queries, q ∈ log'.queries) : log'.Queried id h m := by
  obtain ⟨asked, hmem, heq⟩ := hq
  exact ⟨asked, hqueries _ hmem, heq⟩

theorem Knows.mono (h : Knows s log w v) (hp : Progress s log w s' log' w') : Knows s' log' w' v where
  served e he := hp.published e (h.served e he)
  asked id e m he := (h.asked id e m he).mono hp.queries
  awaits d host hd := by
    obtain ⟨call, hcall, heq⟩ := h.awaits d host hd
    obtain ⟨call', hcall', hhost⟩ := hp.dials d call hcall
    exact ⟨call', hcall', hhost ▸ heq⟩
  probed id e m he := by
    obtain ⟨hmem, hpub, hclears⟩ := h.probed id e m he
    refine ⟨hp.queries _ hmem, hp.published e hpub, fun hctx => ?_⟩
    obtain ⟨hold, hsame⟩ := hp.current id e hpub hctx
    exact hsame.trans (hclears hold)
  execDial d target hd := hp.recorded d target (h.execDial d target hd)
  dial d host hd := by
    obtain ⟨call, hcall, rfl⟩ := h.dial d host hd
    obtain ⟨call', hcall', hhost⟩ := hp.dials d call hcall
    exact ⟨call', hcall', hhost⟩

theorem guarded_idle (m : Hosts) (w : Conn → Tally) : Guarded (ι := ι) (.idle m) .empty w where
  flag _ h := by cases h
  outcome _ _ _ h := by cases h
  numbered _ _ h := by cases h
  launched _ _ _ h := by cases h
  handoffs := handoffs_idle m

theorem knows_idle (m : Hosts) (w : Conn → Tally) : Knows (ι := ι) (.idle m) .empty w {} where
  served _ h := by cases h
  asked _ _ _ h := by cases h
  awaits _ _ h := by cases h
  probed _ _ _ h := by cases h
  execDial _ _ h := by cases h
  dial _ _ h := by cases h

end Relation

/-! ## What the other results give at each step -/

section Facts

variable {ι : Type} {s : Real} {w : Conn → Tally} {a : ι → Hands} {i : ι}

theorem cached_published (h : Orderly s w a) (hctx : s.ctx id = some c) : 0 < (w c).published := by
  obtain ⟨l, hl⟩ := h.1.placed c
  obtain ⟨rfl, -⟩ := (hl.cached id).1 hctx
  rw [hl.counted (hl.born nofun).2]
  exact Nat.zero_lt_one

theorem fresh_unpublished (h : Orderly s w a)
    (hg : Careful (a i) (.publish id target d (.ok e))) : (w e).published = 0 := by
  obtain ⟨l, hl⟩ := h.1.placed e
  obtain rfl := (hl.fresh i).1 hg.1
  rw [hl.counted (hl.born nofun).2]
  rfl

theorem after_published (c : Conn) (n : Tally) (op : Op) (r : op.Ans) :
    n.published ≤ (n.after c op r).published := by
  unfold Tally.after
  split <;> first | exact le_rfl | (split <;> first | exact Nat.le_succ _ | exact le_rfl)

theorem any_swap_changed (s : Real) (hosts : Hosts) (id : String) :
    (s.swap hosts).1.changed.any (·.1 == id) = s.repoints id hosts := by
  rw [Bool.eq_iff_iff, List.any_eq_true]
  simp only [Real.swap, List.mem_map, List.mem_filter, beq_iff_eq]
  constructor
  · rintro ⟨_, ⟨h, ⟨-, hhit⟩, rfl⟩, rfl⟩
    exact hhit
  · intro hhit
    obtain ⟨h, hmem, hget⟩ := get_of_repoints hhit
    obtain rfl := Hosts.get_id hget
    exact ⟨_, ⟨h, ⟨hmem, hhit⟩, rfl⟩, rfl⟩

end Facts

/-! ## One call -/

def clearsFlags : Op → Bool
  | .swap _ | .evict .. => true
  | _ => false

section LogSteps

variable {ι : Type} [DecidableEq ι] (sv : Semver) (log : Log ι) (i : ι)

variable {op : Op}

theorem after_queries (r : op.Ans) {q : String × Host × Nat} (hq : q ∈ log.queries) :
    q ∈ (log.after sv i op r).queries := by
  unfold Log.after
  split <;> first | exact hq | (split <;> first | exact List.mem_cons_of_mem _ hq | exact hq)

theorem after_clears (r : op.Ans) (h : clearsFlags op = false) : (log.after sv i op r).clears = log.clears := by
  unfold Log.after
  split <;> first | rfl | (split <;> rfl) | cases h

theorem after_others (r : op.Ans) {j : ι} (hj : j ≠ i) :
    (log.after sv i op r).given j = log.given j ∧ (log.after sv i op r).passed j = log.passed j := by
  unfold Log.after
  split <;> first
    | exact ⟨rfl, rfl⟩
    | exact ⟨update_of_ne hj _ _, rfl⟩
    | exact ⟨rfl, update_of_ne hj _ _⟩
    | (split <;> exact ⟨rfl, rfl⟩)

end LogSteps

section Steps

variable {ι : Type} [DecidableEq ι] {sv : Semver} {s s' : Real} {log : Log ι} {w : Conn → Tally}
  {a : ι → Hands} {i : ι} {op : Op} {r : op.Ans}

/-- A connection published before and cached after a call was cached before it, and its host was not cleared: what
leaves the cache does not come back. -/
theorem current_step (hO : Orderly s w a) (hg : Careful (a i) op) (hr : client s op r s') (hpub : 0 < (w e).published) (hctx : s'.ctx id = some e) :
    s.ctx id = some e ∧ (log.after sv i op r).clears id = log.clears id := by
  cases op with
  | publish id' target d result =>
    refine ⟨?_, congrFun (after_clears sv log i r rfl) id⟩
    cases result with
    | error err =>
      cases hr
      exact hctx
    | ok e' =>
      have hfresh := fresh_unpublished hO hg
      rcases publish_cases hr with ⟨-, ⟨cached, -, -, rfl⟩ | ⟨err, rfl⟩⟩ | ⟨-, -, -, rfl⟩
      · exact hctx
      · exact hctx
      · rcases update_cases hctx with ⟨-, hnew⟩ | ⟨-, hold⟩
        · cases hnew
          omega
        · exact hold
  | swap hosts =>
    obtain ⟨rfl, rfl⟩ := Prod.ext_iff.1 hr
    simp only [Real.swap] at hctx
    simp only [Log.after, any_swap_changed]
    split at hctx
    · cases hctx
    · rename_i hkeep
      exact ⟨hctx, if_neg hkeep⟩
  | evict id' dead =>
    rcases evict_cases hr with ⟨rfl, -, rfl⟩ | ⟨rfl, rfl⟩
    · rcases update_cases hctx with ⟨-, hnone⟩ | ⟨hid, hold⟩
      · cases hnone
      · exact ⟨hold, update_of_ne hid _ _⟩
    · exact ⟨hctx, rfl⟩
  | _ =>
    have hsame : s'.ctx = s.ctx := client_same (f := .ctx) hr rfl
    exact ⟨hsame ▸ hctx, congrFun (after_clears sv log i r rfl) id⟩

variable {call : DialCall} {v : View}

theorem dials_step (hnumbered : ∀ d call, s.dials d = some call → d < s.dialed) (hr : client s op r s') (hd : s.dials d = some call) :
    ∃ call', s'.dials d = some call' ∧ call'.host = call.host := by
  cases op with
  | lookup id =>
    obtain rfl | ⟨host, -, hres⟩ := lookup_effect hr
    · exact ⟨call, hd, rfl⟩
    · cases hres
      have hne : d ≠ s.dialed := (hnumbered d call hd).ne
      exact ⟨call, (update_of_ne hne _ _).trans hd, rfl⟩
  | publish id target d' result =>
    obtain ⟨outcome, hs'⟩ := publish_effect hr
    rw [hs']
    by_cases hdd : d = d'
    · subst hdd
      refine ⟨{ call with outcome := some outcome }, ?_, rfl⟩
      simp [Real.resolve, hd]
    · exact ⟨call, (update_of_ne hdd _ _).trans hd, rfl⟩
  | _ =>
    have hsame : s'.dials = s.dials := client_same (f := .dials) hr rfl
    exact ⟨call, hsame ▸ hd, rfl⟩

theorem progress_step (hO : Orderly s w a) (hg : Careful (a i) op)
    (hnumbered : ∀ d call, s.dials d = some call → d < s.dialed)
    (hrecorded : ∀ d target, Recorded s d target → Recorded s' d target) (hr : client s op r s') :
    Progress s log w s' (log.after sv i op r) fun c => (w c).after c op r where
  published e he := he.trans_le (after_published e (w e) op r)
  queries _ hq := after_queries sv log i r hq
  current _ _ hpub hctx := current_step hO hg hr hpub hctx
  dials _ _ hd := dials_step hnumbered hr hd
  recorded := hrecorded

theorem flag_step (hguard : Guarded s log w) (hfits : Fits s log w i v) (hgate : Gates v op)
    (hsteady : Steady i (s, log) op) (hr : client s op r s') (hset : s'.verified id = true) :
    ∃ c, s'.ctx id = some c ∧ (log.after sv i op r).Queried id c.target.host ((log.after sv i op r).clears id) := by
  -- what was so before the call, for an id whose flag, connection and clearings it leaves alone
  have hkept : s.verified id = true → (∀ c, s.ctx id = some c → s'.ctx id = some c) →
      (log.after sv i op r).clears id = log.clears id → ∃ c, s'.ctx id = some c ∧
        (log.after sv i op r).Queried id c.target.host ((log.after sv i op r).clears id) := by
    intro hold hctx hclears
    obtain ⟨c, hc, hq⟩ := hguard.flag id hold
    rw [hclears]
    exact ⟨c, hctx c hc, hq.mono fun _ => after_queries sv log i r⟩
  cases op with
  | publish id' target d result =>
    have hverified : s'.verified = s.verified := client_same (f := .verified) hr rfl
    refine hkept (hverified ▸ hset) (fun c hc => ?_) (congrFun (after_clears sv log i r rfl) id)
    cases result with
    | error err =>
      cases hr
      exact hc
    | ok e =>
      rcases publish_cases hr with ⟨-, ⟨cached, -, -, rfl⟩ | ⟨err, rfl⟩⟩ | ⟨-, hnone, -, rfl⟩
      · exact hc
      · exact hc
      · have hid : id ≠ id' := by
          rintro rfl
          rw [hnone] at hc
          cases hc
        exact (update_of_ne hid _ _).trans hc
  | swap hosts =>
    obtain ⟨rfl, rfl⟩ := Prod.ext_iff.1 hr
    simp only [Real.swap] at hset
    split at hset
    · cases hset
    · rename_i hkeep
      refine hkept hset (fun c hc => ?_) ?_
      · simp only [Real.swap]
        rw [if_neg hkeep]
        exact hc
      · simp only [Log.after, any_swap_changed]
        exact if_neg hkeep
  | evict id' dead =>
    rcases evict_cases hr with ⟨rfl, -, rfl⟩ | ⟨rfl, rfl⟩
    · rcases update_cases hset with ⟨-, hfalse⟩ | ⟨hid, hold⟩
      · cases hfalse
      · exact hkept hold (fun c hc => (update_of_ne hid _ _).trans hc) (update_of_ne hid _ _)
    · exact hkept hset (fun c hc => hc) rfl
  | markVerified id' =>
    obtain rfl : s' = s.markVerified id' := hr
    rcases update_cases hset with ⟨rfl, -⟩ | ⟨-, hold⟩
    · -- the connection that was queried is still cached, so nothing was cleared since
      obtain ⟨e, m, hgiven, hprobed⟩ := hgate
      have hctx : s.ctx id = some e := hsteady e (hfits.given ▸ hgiven)
      obtain ⟨hmem, -, hclears⟩ := hfits.knows.probed id e m hprobed
      refine ⟨e, hctx, e.target.host, ?_, hostConnEq_refl _⟩
      show (id, e.target.host, log.clears id) ∈ log.queries
      rw [hclears hctx]
      exact hmem
    · exact hkept hold (fun c hc => hc) rfl
  | _ =>
    have hverified : s'.verified = s.verified := client_same (f := .verified) hr rfl
    have hctx : s'.ctx = s.ctx := client_same (f := .ctx) hr rfl
    exact hkept (hverified ▸ hset) (fun c hc => hctx ▸ hc) (congrFun (after_clears sv log i r rfl) id)

omit [DecidableEq ι] in
theorem resolve_outcome (id : String) {d' : Nat} {outcome : Except Error Conn}
    (h : (s.resolve id d' outcome).dials d = some call) : s.dials d = some call ∨
      d = d' ∧ call.outcome = some outcome ∧ ∃ old, s.dials d = some old ∧ call.host = old.host := by
  rcases update_cases h with ⟨rfl, hnew⟩ | ⟨-, hold⟩
  · obtain ⟨old, hold, rfl⟩ := Option.map_eq_some_iff.1 hnew
    exact .inr ⟨rfl, rfl, old, hold, rfl⟩
  · exact .inl hold

omit [DecidableEq ι] in
theorem outcome_step (hO : Orderly s w a) (hg : Careful (a i) op) (hguard : Guarded s log w)
    (hfits : Fits s log w i v) (hgate : Gates v op) (hr : client s op r s') (hd : s'.dials d = some call) (hc : call.outcome = some (.ok c)) :
    hostConnEq call.host c.target.host = true ∧ 0 < ((w c).after c op r).published := by
  have hold : s.dials d = some call →
      hostConnEq call.host c.target.host = true ∧ 0 < ((w c).after c op r).published := by
    intro hd
    obtain ⟨heq, hpub⟩ := hguard.outcome d call c hd hc
    exact ⟨heq, hpub.trans_le (after_published c (w c) op r)⟩
  cases op with
  | lookup id =>
    obtain rfl | ⟨host, -, hres⟩ := lookup_effect hr
    · exact hold hd
    · cases hres
      rcases update_cases hd with ⟨-, hnew⟩ | ⟨-, hkeep⟩
      · cases hnew
        cases hc
      · exact hold hkeep
  | publish id target d' result =>
    obtain ⟨mine, hmine, hhost⟩ := hfits.knows.dial d' target.host hgate
    have hcall : ∀ old, s.dials d' = some old → old.host = target.host := by
      intro old ho
      obtain rfl : mine = old := by simpa [hmine] using ho
      exact hhost
    cases result with
    | error err =>
      cases hr
      rcases resolve_outcome id hd with hkeep | ⟨-, hout, -⟩
      · exact hold hkeep
      · rw [hout] at hc
        cases hc
    | ok e =>
      rcases publish_cases hr with ⟨rfl, ⟨cached, hctx, hmatch, rfl⟩ | ⟨err, rfl⟩⟩ | ⟨rfl, -, -, rfl⟩
      · rcases resolve_outcome id hd with hkeep | ⟨rfl, hout, old, ho, hsame⟩
        · exact hold hkeep
        · -- both the dial and the cached connection match the configuration
          obtain rfl : cached = c := by simpa [hout] using hc
          obtain ⟨cur, hcur, hdialed⟩ := hostStillMatches_iff.1 hmatch
          obtain ⟨cur', hcur', hcached⟩ := hostStillMatches_iff.1 (hO.1.current id cached hctx)
          obtain rfl : cur = cur' := by simpa [hcur] using hcur'
          rw [hsame, hcall old ho]
          refine ⟨hostConnEq_trans (hostConnEq_symm hdialed) hcached, ?_⟩
          exact (cached_published hO hctx).trans_le (after_published _ _ _ _)
      · rcases resolve_outcome id hd with hkeep | ⟨-, hout, -⟩
        · exact hold hkeep
        · rw [hout] at hc
          cases hc
      · rcases resolve_outcome id hd with hkeep | ⟨rfl, hout, old, ho, hsame⟩
        · exact hold hkeep
        · obtain rfl : e = c := by simpa [hout] using hc
          rw [hsame, hcall old ho, ← hg.2.1]
          refine ⟨hostConnEq_refl _, ?_⟩
          simp [Tally.after]
  | _ =>
    have hsame : s'.dials = s.dials := client_same (f := .dials) hr rfl
    exact hold (hsame ▸ hd)

theorem numbered_step (hnumbered : ∀ d call, s.dials d = some call → d < s.dialed) (hr : client s op r s') (hd : s'.dials d = some call) : d < s'.dialed := by
  cases op with
  | lookup id =>
    obtain rfl | ⟨host, -, hres⟩ := lookup_effect hr
    · exact hnumbered d call hd
    · cases hres
      rcases update_cases hd with ⟨rfl, -⟩ | ⟨-, hold⟩
      · exact Nat.lt_succ_self _
      · exact (hnumbered d call hold).trans (Nat.lt_succ_self _)
  | publish id target d' result =>
    obtain ⟨outcome, hs'⟩ := publish_effect hr
    rw [hs'] at hd ⊢
    rcases resolve_outcome id hd with hkeep | ⟨-, -, old, ho, -⟩
    · exact hnumbered d call hkeep
    · exact hnumbered d old ho
  | startExecDial id target =>
    cases hr
    exact (hnumbered d call hd).trans (Nat.lt_succ_self _)
  | _ =>
    have hdialed : s'.dialed = s.dialed := client_same (f := .dialed) hr rfl
    have hsame : s'.dials = s.dials := client_same (f := .dials) hr rfl
    rw [hdialed]
    exact hnumbered d call (hsame ▸ hd)

theorem launched_step (hlaunched : ∀ id target d, .dial id target d ∈ s.launched → DialFor s d target.host)
    (hnumbered : ∀ d call, s.dials d = some call → d < s.dialed) (hr : client s op r s') (hd : .dial id target d ∈ s'.launched) : DialFor s' d target.host := by
  have hold : .dial id target d ∈ s.launched → DialFor s' d target.host := by
    intro hmem
    obtain ⟨call, hcall, hhost⟩ := hlaunched id target d hmem
    obtain ⟨call', hcall', hsame⟩ := dials_step hnumbered hr hcall
    exact ⟨call', hcall', hsame.trans hhost⟩
  cases op with
  | lookup id' =>
    obtain rfl | ⟨host, -, hres⟩ := lookup_effect hr
    · exact hold hd
    · cases hres
      rcases List.mem_append.1 hd with hmem | hnew
      · exact hold hmem
      · cases List.mem_singleton.1 hnew
        exact ⟨_, update_self _ _ _, rfl⟩
  | swap hosts =>
    obtain ⟨-, rfl⟩ := Prod.ext_iff.1 hr
    exact hold (by simpa [Real.swap] using hd)
  | startExecDial id' target' =>
    cases hr
    exact hold (by simpa using hd)
  | started =>
    obtain ⟨-, rfl⟩ := hr
    exact hold (List.mem_of_mem_erase hd)
  | _ =>
    have hsame : s'.launched = s.launched := client_same (f := .launched) hr rfl
    exact hold (hsame ▸ hd)

theorem guarded_step (hO : Orderly s w a) (hg : Careful (a i) op) (hguard : Guarded s log w)
    (hfits : Fits s log w i v) (hgate : Gates v op) (hsteady : Steady i (s, log) op)
    (hhandoffs : Handoffs s') (hr : client s op r s') :
    Guarded s' (log.after sv i op r) fun c => (w c).after c op r where
  flag _ hset := flag_step hguard hfits hgate hsteady hr hset
  outcome _ _ _ hd hc := outcome_step hO hg hguard hfits hgate hr hd hc
  numbered _ _ hd := numbered_step hguard.numbered hr hd
  launched _ _ _ hd := launched_step hguard.launched hguard.numbered hr hd
  handoffs := hhandoffs

theorem view_step (hO : Orderly s w a) (hguard : Guarded s log w)
    (hfits : Fits s log w i v) (hgate : Gates v op) (hsteady : Steady i (s, log) op)
    (hprogress : Progress s log w s' (log.after sv i op r) fun c => (w c).after c op r) (hr : client s op r s') :
    ∃ b, viewed sv v op r b ∧ Fits s' (log.after sv i op r) (fun c => (w c).after c op r) i b := by
  have hknows := hfits.knows.mono hprogress
  have hgiven := hfits.given
  have hpassed := hfits.passed
  cases op with
  | lookup id =>
    rcases lookup_cases hr with ⟨e, rfl, rfl, hctx⟩ | ⟨rfl, rfl, -⟩ | ⟨host, d, call, rfl, rfl, hhost, hcall, heq⟩ |
      ⟨host, hhost, hres⟩
    · -- the cached connection matches the configuration, and so does the one the gate was passed with
      refine ⟨_, ⟨rfl, fun e₀ m he₀ => ?_⟩, (log.give_given i e).symm, hpassed, { hknows with served := ?_ }⟩
      · obtain ⟨cur, hcur, hdialed⟩ := hostStillMatches_iff.1 (hO.1.current id e hctx)
        exact hostConnEq_trans (hsteady e₀ m cur (hpassed ▸ he₀) hcur) hdialed
      · rintro _ ⟨⟩
        exact cached_published hO hctx
    · exact ⟨v, rfl, hgiven, hpassed, hknows⟩
    · refine ⟨_, ⟨host, rfl, fun e₀ m he₀ => ?_⟩, hgiven, hpassed, { hknows with awaits := ?_ }⟩
      · exact hsteady e₀ m host (hpassed ▸ he₀) hhost
      · rintro _ _ ⟨⟩
        exact ⟨call, hcall, hostConnEq_symm heq⟩
    · cases hres
      refine ⟨_, ⟨host, rfl, fun e₀ m he₀ => ?_⟩, hgiven, hpassed, { hknows with awaits := ?_ }⟩
      · exact hsteady e₀ m host (hpassed ▸ he₀) hhost
      · rintro _ _ ⟨⟩
        exact ⟨_, update_self _ _ _, hostConnEq_refl _⟩
  | await d =>
    rcases r with (err | e) | _ | _
    · exact ⟨v, rfl, hgiven, hpassed, hknows⟩
    · obtain ⟨rfl, call, hcall, hdone⟩ := hr
      obtain ⟨heq, hpub⟩ := hguard.outcome d call e hcall hdone
      refine ⟨_, ⟨rfl, fun host hhost => ?_⟩, (log.give_given i e).symm, hpassed, { hknows with served := ?_ }⟩
      · obtain ⟨call', hcall', hsame⟩ := hfits.knows.awaits d host hhost
        obtain rfl : call = call' := by simpa [hcall] using hcall'
        exact hostConnEq_trans hsame heq
      · rintro _ ⟨⟩
        exact hpub
    · exact ⟨v, rfl, hgiven, hpassed, hknows⟩
    · exact ⟨v, rfl, hgiven, hpassed, hknows⟩
  | isVerified id =>
    cases r with
    | false => exact ⟨v, rfl, hgiven, hpassed, hknows⟩
    | true =>
      obtain ⟨hset, rfl⟩ := hr
      refine ⟨_, ⟨log.clears id, rfl⟩, hgiven, ?_, { hknows with asked := ?_ }⟩
      · rw [hgiven]
        exact (log.pass_passed i id).symm
      · intro id' e m he
        obtain ⟨e', he', heq⟩ := Option.map_eq_some_iff.1 he
        cases heq
        have hctx : s'.ctx id = some e := hsteady hset.symm e (hgiven ▸ he')
        obtain ⟨c, hc, hq⟩ := hguard.flag id hset.symm
        obtain rfl : e = c := Option.some.inj (hctx.symm.trans hc)
        exact hq.mono fun _ hq => hq
  | probe id e =>
    cases r with
    | error err => exact ⟨v, rfl, hgiven, hpassed, hknows⟩
    | ok version =>
      unfold viewed Log.after at *
      cases hcheck : checkVersion sv id version with
      | error err =>
        simp only [hcheck] at hknows ⊢
        exact ⟨v, rfl, hgiven, hpassed, hknows⟩
      | ok _ =>
        simp only [hcheck] at hknows ⊢
        refine ⟨_, ⟨log.clears id, rfl⟩, hgiven, hpassed, { hknows with probed := ?_ }⟩
        rintro _ _ _ ⟨⟩
        exact ⟨List.mem_cons_self, hfits.knows.served e hgate, fun _ => rfl⟩
  | markVerified id =>
    obtain ⟨e, m, hgiven', hprobed⟩ := hgate
    refine ⟨_, ⟨log.clears id, rfl⟩, hgiven, ?_, { hknows with asked := ?_ }⟩
    · rw [hgiven]
      exact (log.pass_passed i id).symm
    · intro id' e' m' he
      rw [hgiven'] at he
      cases he
      have hctx : s.ctx id = some e := hsteady e (hgiven ▸ hgiven')
      obtain ⟨hmem, -, hclears⟩ := hfits.knows.probed id e m hprobed
      refine ⟨e.target.host, ?_, hostConnEq_refl _⟩
      rw [hclears hctx]
      exact hmem
  | resolve id =>
    obtain ⟨rfl, rfl⟩ := hr
    cases hhost : s'.hosts.get id with
    | none => exact ⟨v, rfl, hgiven, hpassed, hknows⟩
    | some host =>
      refine ⟨v, ⟨rfl, fun e m he => ?_⟩, hgiven, hpassed, hknows⟩
      exact hsteady e m host (hpassed ▸ he) hhost
  | take id =>
    cases hr
    cases hslot : s.execPool id with
    | none => exact ⟨v, rfl, hgiven, hpassed, hknows⟩
    | some c =>
      refine ⟨v, ⟨rfl, fun e m he => ?_⟩, hgiven, hpassed, hknows⟩
      exact hsteady e m c (hpassed ▸ he) hslot
  | dial target exec =>
    cases r with
    | error err => exact ⟨v, rfl, hgiven, hpassed, hknows⟩
    | ok c => exact ⟨v, ⟨rfl, hr.1.2.1⟩, hgiven, hpassed, hknows⟩
  | startExecDial id target =>
    refine ⟨_, rfl, hgiven, hpassed, { hknows with execDial := ?_ }⟩
    rintro _ _ ⟨⟩
    exact (handoffs_startExecDial hguard.handoffs hr).1
  | awaitExec d =>
    rcases r with (err | c) | _ | _
    · exact ⟨v, rfl, hgiven, hpassed, hknows⟩
    · obtain ⟨rfl, call, hcall, hreads⟩ := hr
      refine ⟨v, ⟨rfl, fun target hd => ?_⟩, hgiven, hpassed, hknows⟩
      exact handoffs_reads hguard.handoffs (hfits.knows.execDial d target hd) hcall hreads
    · exact ⟨v, rfl, hgiven, hpassed, hknows⟩
    · exact ⟨v, rfl, hgiven, hpassed, hknows⟩
  | started =>
    obtain ⟨htask, rfl⟩ := hr
    cases r with
    | close c => exact ⟨v, rfl, hgiven, hpassed, hknows⟩
    | dial id target d =>
      refine ⟨_, rfl, hgiven, hpassed, { hknows with dial := ?_ }⟩
      rintro _ _ ⟨⟩
      exact hguard.launched id target d htask
    | execDial id target d =>
      refine ⟨_, rfl, hgiven, hpassed, { hknows with execDial := ?_ }⟩
      rintro _ _ ⟨⟩
      exact hguard.handoffs.launched id target d htask
  | evict id dead =>
    cases r with
    | false | true => exact ⟨v, rfl, hgiven, hpassed, hknows⟩
  | publish id target d result =>
    cases result <;> exact ⟨v, rfl, hgiven, hpassed, hknows⟩
  | _ => exact ⟨v, rfl, hgiven, hpassed, hknows⟩

/-- The client, the log and the threads' views, after the counts of the connections. -/
structure Watchful (s : Real) (log : Log ι) (w : Conn → Tally) (v : ι → View) : Prop where
  guarded : Guarded s log w
  fits : ∀ i, Fits s log w i (v i)

theorem watchful_step {v : ι → View} (hO : Orderly s w a) (hg : Careful (a i) op) (h : Watchful s log w v)
    (hgate : Gates (v i) op) (hsteady : Steady i (s, log) op) (hr : client s op r s') :
    ∃ b, viewed sv (v i) op r b ∧
      Watchful s' (log.after sv i op r) (fun c => (w c).after c op r) (update v i b) := by
  have hmine := h.fits i
  have hsettle : ∀ d e err, op = .settle d e err →
      ∃ target, Recorded s d target ∧ ∀ c, e = some c → c.target = target := by
    rintro d e err rfl
    obtain ⟨target, hd, he⟩ := hgate
    exact ⟨target, hmine.knows.execDial d target hd, he⟩
  obtain ⟨hhandoffs, hrecorded⟩ := handoffs_step h.guarded.handoffs hsettle hr
  have hprogress : Progress s log w s' (log.after sv i op r) fun c => (w c).after c op r :=
    progress_step hO hg h.guarded.numbered hrecorded hr
  have hguarded : Guarded s' (log.after sv i op r) fun c => (w c).after c op r :=
    guarded_step hO hg h.guarded hmine hgate hsteady hhandoffs hr
  obtain ⟨b, hb, hfits⟩ := view_step hO h.guarded hmine hgate hsteady hprogress hr
  refine ⟨b, hb, hguarded, fun j => ?_⟩
  by_cases hj : j = i
  · subst hj
    rwa [update_self]
  · rw [update_of_ne hj]
    obtain ⟨hgiven, hpassed⟩ := after_others sv log i r hj
    exact ⟨(h.fits j).given.trans hgiven.symm, (h.fits j).passed.trans hpassed.symm,
      (h.fits j).knows.mono hprogress⟩

end Steps

/-! ## What a request does by itself -/

section Local

variable {sv : Semver} {id : String}

/-- The calls that teach a thread nothing and ask nothing of it. -/
def Idle : Op → Prop
  | .close _ | .swap _ | .evict _ _ | .inspect _ _ | .abandon _ | .put _ _ | .now => True
  | _ => False

theorem idle_ensures {α : Type} {p : Prog clientCalls α} (hp : p.Issues Idle) (a : View) :
    Passes sv (fun b _ => b = a) p a := by
  refine hp.ensures (fun b op r b' hop hb hr => ?_) (fun b op hop _ => ?_) rfl
  · cases op <;> first | exact hr.trans hb | cases hop
  · cases op <;> trivial

theorem closeAll_idle (cs : List Conn) : (closeAll cs).Issues Idle := by
  induction cs with
  | nil => exact issues_ret _
  | cons c cs ih => exact (issues_perform.2 trivial).bind fun _ => ih

/-- What `entryFor` returns is what the thread was given; past the gate, it has the parameters of the connection
it passed with. -/
theorem entryFor_ensures (a : View) : Passes sv
      (OnOk fun b e => b.given = some e ∧ b.passed = a.passed ∧ a.Near id e.target.host) (entryFor id).run a := by
  have hawait : ∀ d h, a.Near id h → Passes sv
      (OnOk fun b e => b.given = some e ∧ b.passed = a.passed ∧ a.Near id e.target.host)
      (awaitDial id d).run { a with awaits := some (d, h) } := by
    intro d h hnear
    refine ensures_ask (.await d) trivial fun r b hb => ?_
    rcases r with (err | e) | _ | _
    · exact ensures_ret.2 (onOk_error err)
    · obtain ⟨rfl, heq⟩ := hb
      refine ensures_ret.2 (onOk_ok.2 ⟨rfl, rfl, fun e₀ m he₀ => ?_⟩)
      exact hostConnEq_trans (hnear e₀ m he₀) (heq h rfl)
    · exact ensures_throw_onOk
    · exact ensures_throw_onOk
  refine ensures_ask (.lookup id) trivial fun r b hb => ?_
  cases r with
  | hit e =>
    obtain ⟨rfl, hnear⟩ := hb
    exact ensures_pure_onOk ⟨rfl, rfl, hnear⟩
  | unknown => exact ensures_throw_onOk
  | join d | reserved d =>
    obtain ⟨h, rfl, hnear⟩ := hb
    exact hawait d h hnear

variable {a : View}

theorem markChecked_ensures {version : String} (hgiven : a.given = some e)
    (hprobed : ∀ u, checkVersion sv id version = .ok u → ∃ m, a.probed = some (id, e, m)) :
    Passes sv (OnOk fun b _ => ∃ m, b.passed = some (id, e, m)) (markChecked sv id version).run a := by
  refine .thenOk (P := fun b u => b = a ∧ checkVersion sv id version = .ok u)
    (ensures_ret.2 fun u hu => ⟨rfl, hu⟩) ?_
  rintro _ u ⟨rfl, hu⟩
  obtain ⟨m, hm⟩ := hprobed u hu
  refine ensures_ask (.markVerified id) ⟨e, m, hgiven, hm⟩ fun _ b hb => ?_
  obtain ⟨m', rfl⟩ := hb
  refine ensures_pure_onOk ⟨m', ?_⟩
  simp [hgiven]

theorem probed_of_probe {b : View} {version : String} (hgiven : a.given = some e)
    (hb : viewed sv a (.probe id e) (.ok version) b) : b.given = some e ∧
      ∀ u, checkVersion sv id version = .ok u → ∃ m, b.probed = some (id, e, m) := by
  simp only [viewed] at hb
  split at hb
  · obtain ⟨m, rfl⟩ := hb
    exact ⟨hgiven, fun _ _ => ⟨m, rfl⟩⟩
  · rename_i err hcheck
    subst hb
    refine ⟨hgiven, fun u hu => ?_⟩
    rw [hcheck] at hu
    cases hu

theorem ensureVerified_ensures (hgiven : a.given = some e) :
    Passes sv (OnOk fun b _ => ∃ m, b.passed = some (id, e, m)) (ensureVerified sv e id).run a := by
  refine ensures_ask (.isVerified id) trivial fun ok b hb => ?_
  cases ok with
  | true =>
    obtain ⟨m, rfl⟩ := hb
    refine ensures_pure_onOk ⟨m, ?_⟩
    simp [hgiven]
  | false =>
    obtain rfl : b = a := hb
    refine .thenOk (P := fun a version => a.given = some e ∧
      ∀ u, checkVersion sv id version = .ok u → ∃ m, a.probed = some (id, e, m)) ?_ ?_
    · refine .mapErr_onOk (ensures_issue (Op.probe id e) hgiven fun r b' hb' => ?_)
      cases r with
      | error err => exact onOk_error err
      | ok version => exact onOk_ok.2 (probed_of_probe hgiven hb')
    · rintro a version ⟨hgiven, hprobed⟩
      exact markChecked_ensures hgiven hprobed

theorem libpodCalls_ensures (hpassed : a.passed = some (id, e, m))
    (heq : hostConnEq e.target.host c.target.host = true) (n : Nat) :
    Passes sv (fun b _ => b = a) (libpodCalls id c n).run a := by
  induction n with
  | zero => exact ensures_pure.2 rfl
  | succ n ih =>
    refine .andThen (P := fun b _ => b = a) ?_ (fun b err hb => hb) ?_
    · exact ensures_issue (Op.libpod id c) ⟨e, m, hpassed, heq⟩ fun r b hb => hb
    · rintro _ _ rfl
      exact ih

theorem polls_ensures (hpassed : a.passed = some (id, e, m)) (n : Nat) :
    Passes sv (fun _ _ => True) (polls id n).run a := by
  induction n generalizing a with
  | zero => exact ensures_pure.2 trivial
  | succ n ih =>
    refine (entryFor_ensures a).andThen (fun _ _ _ => trivial) fun b c hb => ?_
    obtain ⟨-, hsame, hnear⟩ := hb c rfl
    have hpassed' : b.passed = some (id, e, m) := hsame.trans hpassed
    refine .andThen (P := fun b' _ => b' = b) ?_ (fun _ _ _ => trivial) ?_
    · exact ensures_issue (Op.libpod id c) ⟨e, m, hpassed', hnear e m hpassed⟩ fun r b' hb' => hb'
    · rintro _ _ rfl
      exact ih hpassed'

theorem execConnFor_ensures : Passes sv (OnOk fun b c => b.passed = a.passed ∧ a.Near id c.target.host)
      (execConnFor id).run a := by
  refine ensures_ask (.resolve id) trivial fun r b hb => ?_
  cases r with
  | none => exact ensures_throw_onOk
  | some target =>
    obtain ⟨rfl, hnear⟩ := hb
    refine ensures_ask .now trivial fun now b' hb => ?_
    obtain rfl : b' = b := hb
    have htake : Passes sv (fun b r => b = b' ∧ ∀ c, r = some c → b'.Near id c.target.host)
        (takeExecConn id now) b' := by
      refine ensures_issue_bind (Op.take id) trivial fun taken b hb => ?_
      cases taken with
      | none =>
        obtain rfl : b = b' := hb
        exact ensures_ret.2 ⟨rfl, nofun⟩
      | some c =>
        obtain ⟨rfl, hc⟩ := hb
        dsimp only
        split
        · refine (idle_ensures (closeAll_idle [c]) b).bind fun b _ hb => ?_
          exact ensures_ret.2 ⟨hb, nofun⟩
        · refine ensures_ret.2 ⟨rfl, fun c' hc' => ?_⟩
          exact Option.some.inj hc' ▸ hc
    refine htake.embedThen ?_
    rintro b taken ⟨rfl, htaken⟩
    cases taken with
    | some c => exact ensures_pure_onOk ⟨rfl, htaken c rfl⟩
    | none =>
      refine ensures_ask (.startExecDial id target) trivial fun d b' hb => ?_
      obtain rfl : b' = { b with execDial := some (d, target) } := hb
      have habandon : ∀ gaveUp, Passes sv
          (OnOk fun b' c => b'.passed = b.passed ∧ b.Near id c.target.host) (abandonExecDial d gaveUp).run
          { b with execDial := some (d, target) } := by
        intro gaveUp
        refine ensures_ask (.abandon d) trivial fun surplus b _ => ?_
        exact (idle_ensures (closeAll_idle _) b).embedThen fun _ _ _ => ensures_throw_onOk
      refine ensures_ask (.awaitExec d) trivial fun r b' hb => ?_
      rcases r with (err | c) | _ | cause
      · exact ensures_ret.2 (onOk_error err)
      · obtain ⟨rfl, htarget⟩ := hb
        refine ensures_ret.2 (onOk_ok.2 ⟨rfl, ?_⟩)
        rw [htarget target rfl]
        exact hnear
      · obtain rfl : b' = { b with execDial := some (d, target) } := hb
        exact habandon _
      · obtain rfl : b' = { b with execDial := some (d, target) } := hb
        exact habandon _

theorem gate_ensures {Q : View → Except Error Unit → Prop} {rest : Conn → Work Unit} (a : View)
    (herr : ∀ b err, Q b (.error err))
    (hrest : ∀ b e m, b.passed = some (id, e, m) → Passes sv Q (rest e).run b) : Passes sv Q (do
      let e ← entryFor id
      ensureVerified sv e id
      rest e : Work Unit).run a := by
  refine (entryFor_ensures a).andThen (fun b err _ => herr b err) fun b e hb => ?_
  refine (ensureVerified_ensures (hb e rfl).1).andThen (fun b err _ => herr b err) fun b u hb => ?_
  obtain ⟨m, hpassed⟩ := hb u rfl
  exact hrest b e m hpassed

theorem containerExec_ensures (a : View) : Passes sv (fun _ _ => True) (containerExec sv id).run a := by
  refine gate_ensures a (fun _ _ => trivial) fun a primary m hpassed => ?_
  refine execConnFor_ensures.andThen (fun _ _ _ => trivial) fun b c hb => ?_
  obtain ⟨hsame, hnear⟩ := hb c rfl
  have hcalls : Passes sv (fun b' _ => b' = b) (libpodCalls id c 3).run b :=
    libpodCalls_ensures (hsame.trans hpassed) (hnear primary m hpassed) 3
  refine hcalls.attemptThen fun b result _ => ?_
  refine ensures_ask .now trivial fun now b _ => ?_
  have hput : (putExecConn id c result.toBool now).Issues Idle := by
    unfold putExecConn
    split
    · exact closeAll_idle _
    · exact (issues_perform.2 trivial).bind fun _ => closeAll_idle _
  exact (idle_ensures hput b).embedThen fun _ _ _ => ensures_ret.2 trivial

theorem runDial_ensures (hdial : a.dial = some (d, target.host)) :
    Passes sv (fun _ _ => True) (runDial id target d) a := by
  refine ensures_issue_bind (Op.dial target false) trivial fun result b hb => ?_
  have hmine : b.dial = some (d, target.host) := by
    cases result with
    | error err => exact (show b = a from hb) ▸ hdial
    | ok c => exact hb.1 ▸ hdial
  refine ensures_issue_bind (Op.publish id target d result) hmine fun surplus b _ => ?_
  exact (idle_ensures (closeAll_idle _) b).imp fun _ _ _ => trivial

theorem runExecDial_ensures (hdial : a.execDial = some (d, target)) :
    Passes sv (fun _ _ => True) (runExecDial id target d) a := by
  refine ensures_issue_bind (Op.dial target true) trivial fun result b hb => ?_
  have hclose : ∀ (surplus : Option Conn) (b : View), Passes sv (fun _ _ => True) (closeAll surplus.toList) b :=
    fun surplus b => (idle_ensures (closeAll_idle _) b).imp fun _ _ _ => trivial
  cases result with
  | error err =>
    obtain rfl : b = a := hb
    refine ensures_issue_bind (Op.settle d none (some (connectError id err))) ?_ fun r b _ => hclose r b
    exact ⟨target, hdial, nofun⟩
  | ok c =>
    obtain ⟨rfl, htarget⟩ := hb
    refine ensures_issue_bind (Op.settle d (some c) none) ?_ fun r b _ => hclose r b
    refine ⟨target, hdial, fun c' hc' => ?_⟩
    exact Option.some.inj hc' ▸ htarget

theorem goroutine_ensures (a : View) : Passes sv (fun _ _ => True) goroutine a := by
  refine ensures_issue_bind Op.started trivial fun task b hb => ?_
  cases task with
  | dial id' target d =>
    obtain rfl : b = { a with dial := some (d, target.host) } := hb
    exact runDial_ensures rfl
  | execDial id' target d =>
    obtain rfl : b = { a with execDial := some (d, target) } := hb
    exact runExecDial_ensures rfl
  | close c => exact (idle_ensures (closeAll_idle [c]) b).imp fun _ _ _ => trivial

theorem preflightHost_ensures (a : View) : Passes sv (fun _ _ => True) (preflightHost sv id).run a := by
  have hprobe : Passes sv (OnOk fun b version => ∃ e, b.given = some e ∧
        ∀ u, checkVersion sv id version = .ok u → ∃ m, b.probed = some (id, e, m))
      (do Act.lift (issue (.probe id (← entryFor id))) : Work String).run a := by
    refine (entryFor_ensures a).thenOk fun b e hb => ?_
    refine ensures_issue (Op.probe id e) hb.1 fun r b' hb' => ?_
    cases r with
    | error err => exact onOk_error err
    | ok version =>
      exact onOk_ok.2 ⟨e, probed_of_probe hb.1 hb'⟩
  refine hprobe.attemptThen fun b r hr => ?_
  cases r with
  | error err => exact ensures_pure.2 trivial
  | ok version =>
    obtain ⟨e, hgiven, hprobed⟩ := hr version rfl
    exact (markChecked_ensures hgiven hprobed).imp fun _ _ _ => trivial

theorem program_ensures (q : Request) (a : View) : Passes sv (fun _ _ => True) (q.program sv) a := by
  have hwork : ∀ (x : Work Unit), Passes sv (fun _ _ => True) x.run a →
      Passes sv (fun _ _ => True) (do pure (.returned (← x.run)) : Prog clientCalls Outcome) a :=
    fun x hx => hx.map fun _ _ _ => trivial
  cases q with
  | operation id calls =>
    refine hwork _ (gate_ensures a (fun _ _ => trivial) fun b e m hpassed => ?_)
    exact (libpodCalls_ensures hpassed (hostConnEq_refl _) calls).imp fun _ _ _ => trivial
  | wait id n => exact hwork _ (gate_ensures a (fun _ _ => trivial) fun b e m hpassed => polls_ensures hpassed n)
  | exec id => exact hwork _ (containerExec_ensures a)
  | diagnose id =>
    refine hwork _ ((entryFor_ensures a).andThen (fun _ _ _ => trivial) fun b e _ => ?_)
    exact ensures_issue (Op.inspect id e) trivial fun _ _ _ => trivial
  | preflight id => exact hwork _ (preflightHost_ensures a)
  | setHosts hosts =>
    refine ensures_bind.2 (ensures_issue_bind (Op.swap hosts) trivial fun swapped b _ => ?_)
    refine (idle_ensures (closeAll_idle _) b).bind fun _ _ _ => ?_
    exact ensures_ret.2 (ensures_ret.2 trivial)
  | invalidate id dead =>
    have hidle : (invalidateConn id dead).Issues Idle := by
      refine (issues_perform.2 trivial).bind fun evicted => ?_
      cases evicted with
      | true => exact closeAll_idle [dead]
      | false => exact issues_ret _
    exact (idle_ensures hidle a).map fun _ _ _ => trivial
  | goroutine => exact (goroutine_ensures a).map fun _ _ _ => trivial

end Local

/-! ## Every run -/

section Main

variable {ι : Type} [DecidableEq ι]

def unopened (sv : Semver) (r : Real) (requests : ι → Request) : Pool clientCalls ι (Real × Log ι) Outcome :=
  ⟨(r, .empty), fun i => (requests i).program sv⟩

/-- A thread about to make a libpod call on a host has passed the host's gate, and a host with the parameters of
its connection has answered a version query, with a high enough version, since the last clearing of the host
before the thread passed. -/
theorem gate_asks (sv : Semver) (hosts : List Host) {r : Real} (hnew : newReal hosts = .ok r)
    (requests : ι → Request) {t : List (ι × Event clientCalls)} {y : Pool clientCalls ι (Real × Log ι) Outcome}
    (hrun : Pool.Run ((logged (noted sv) clients).when Steady) (unopened sv r requests) t y) {i : ι}
    {id : String} {c : Conn} (hcall : (y.left i).next = some (.libpod id c)) :
    ∃ e m, y.state.2.passed i = some (id, e, m) ∧ y.state.2.Queried id c.target.host m := by
  obtain ⟨m, rfl⟩ := newReal_idle hnew
  -- every step is careful, with every connection in its place
  have hcareful := (hrun.logged tallied fun _ => {}).rely_when (T := fun _ => handed) (G := fun _ => Careful)
    (Q := fun _ b _ => b = {}) (R := fun s => Orderly s.1.1 s.2)
    (fun i s a op r s' hR hg hr => hr.2 ▸ orderly_step hR hg hr.1.2.1) (a := fun _ => {})
    ⟨kept_idle m, apart_idle m⟩ (fun i => Podman.program_ensures sv (requests i))
  obtain ⟨v, hwatch, hensures⟩ := hcareful.rely (T := fun _ => viewed sv) (G := fun _ => Gates)
    (Q := fun _ _ _ => True) (R := fun s => Watchful s.1.1 s.1.2 s.2) (fun i s v op r s' hR hg hr => by
      obtain ⟨⟨a, hO, hcare⟩, ⟨hsteady, hr, hlog⟩, hw⟩ := hr
      rw [hlog, hw]
      exact watchful_step hO hcare hR hg hsteady hr) (a := fun _ => {})
    ⟨guarded_idle m _, fun _ => ⟨rfl, rfl, knows_idle m _⟩⟩ (fun i => program_ensures (requests i) {})
  obtain ⟨e, k, hpassed, heq⟩ := (hensures i).next hcall
  have hfits := hwatch.fits i
  obtain ⟨asked, hmem, hasked⟩ := hfits.knows.asked id e k hpassed
  exact ⟨e, k, hfits.passed ▸ hpassed, asked, hmem, hostConnEq_trans hasked heq⟩

end Main

/-! ## A query that is answered too late -/

/-- An operation whose query is slow, a reload, an operation that comes after it, and goroutines. -/
inductive Caller where
  | slow
  | reload
  | quick
  | go (k : Nat)
  deriving DecidableEq

def callers : Caller → Request
  | .slow => .operation "web" 1
  | .reload => .setHosts [movedHost]
  | .quick => .operation "web" 1
  | .go _ => .goroutine

/-- The quick operation has passed after one clearing and is about to call the moved host; only the old socket was
asked, before the clearing. -/
def passesUnasked (y : Pool clientCalls Caller (Real × Log Caller) Outcome) : Bool :=
  match (y.left .quick).next, y.state.2.passed .quick with
  | some (.libpod "web" c), some ("web", _, 1) =>
    c.target.host == movedHost && y.state.2.queries == [("web", webHost, 0)]
  | _, _ => false

theorem passesUnasked_spec {y : Pool clientCalls Caller (Real × Log Caller) Outcome} (h : passesUnasked y = true) :
    ∃ c, (y.left .quick).next = some (.libpod "web" c) ∧
      ¬∃ e m, y.state.2.passed .quick = some ("web", e, m) ∧ y.state.2.Queried "web" c.target.host m := by
  unfold passesUnasked at h
  split at h
  · rename_i c e hnext hpassed
    obtain ⟨-, hqueries⟩ := Bool.and_eq_true_iff.1 h
    refine ⟨c, hnext, ?_⟩
    rintro ⟨e', m, hpassed', asked, hmem, -⟩
    rw [hpassed] at hpassed'
    cases hpassed'
    rw [beq_iff_eq.1 hqueries] at hmem
    simp at hmem
  · cases h

/-- An operation queries the host at its old socket, a reload re-addresses it and clears its flag, and the
operation sets the flag. The next one dials the new socket and passes the gate without a query of it. -/
theorem unasked_endpoint_passes : ∃ t y, Pool.Run (logged (noted anyVersion) clients)
      (unopened anyVersion (.idle (Hosts.empty.set webHost)) callers) t y ∧
    ∃ c, (y.left .quick).next = some (.libpod "web" c) ∧
      ¬∃ e m, y.state.2.passed .quick = some ("web", e, m) ∧ y.state.2.Queried "web" c.target.host m := by
  obtain ⟨t, y, hrun, htest⟩ := Pool.run_of_play (S := logged (noted anyVersion) clients)
    (H := Answers.logged (noted anyVersion) fun _ => Real.reply)
    (x := unopened anyVersion (.idle (Hosts.empty.set webHost)) callers)
    (Answers.logged_shared fun _ _ op r _ => client_reply op r)
    [.slow, .go 0, .go 0, .go 0, .slow, .slow, .slow, .reload, .reload, .slow,
      .quick, .go 1, .go 1, .go 1, .quick, .quick] passesUnasked (by decide +kernel)
  exact ⟨t, y, hrun, passesUnasked_spec htest⟩

def onlyExec : Option Bool → Request
  | none => .exec "web"
  | some _ => .goroutine

section Test

variable {ι : Type}

/-- The parameters of what a thread has passed with, where it has passed, are those of this host. -/
def passedNear (log : Log ι) (i : ι) (id : String) (h : Option Host) : Bool :=
  match log.passed i, h with
  | some (id', e, _), some h => id' != id || hostConnEq e.target.host h
  | _, _ => true

def givenCached (s : Real × Log ι) (i : ι) (id : String) : Bool :=
  match s.2.given i with
  | some e => s.1.ctx id == some e
  | none => true

def steady (i : ι) (s : Real × Log ι) : Op → Bool
  | .isVerified id => !s.1.verified id || givenCached s i id
  | .markVerified id => givenCached s i id
  | .lookup id => passedNear s.2 i id (s.1.hosts.get id)
  | .resolve id => passedNear s.2 i id (s.1.hosts.get id)
  | .take id => passedNear s.2 i id ((s.1.execPool id).map fun c => c.target.host)
  | _ => true

theorem givenCached_spec {s : Real × Log ι} {i : ι} (h : givenCached s i id = true)
    (he : s.2.given i = some e) : s.1.ctx id = some e := by
  simpa [givenCached, he] using h

theorem passedNear_spec {log : Log ι} {i : ι} {h : Host}
    (htest : passedNear log i id (some h) = true) (hpassed : log.passed i = some (id, e, m)) :
    hostConnEq e.target.host h = true := by
  simpa [passedNear, hpassed] using htest

theorem steady_spec (i : ι) (s : Real × Log ι) (op : Op) (h : steady i s op = true) : Steady i s op := by
  cases op with
  | isVerified id =>
    intro hset e he
    exact givenCached_spec (by simpa [steady, hset] using h) he
  | markVerified id => exact fun e he => givenCached_spec h he
  | lookup id | resolve id =>
    intro e m host hpassed hhost
    exact passedNear_spec (by simpa [steady, hhost] using h) hpassed
  | take id =>
    intro e m c hpassed hslot
    exact passedNear_spec (by simpa [steady, hslot] using h) hpassed
  | _ => trivial

end Test

def callsWeb : Option Op → Bool
  | some (.libpod "web" _) => true
  | _ => false

/-- A first exec: the host is asked over the connection of the cache, and called over that of the exec. -/
theorem first_exec_asked : ∃ t y c e m, Pool.Run ((logged (noted anyVersion) clients).when Steady)
      (unopened anyVersion (.idle (Hosts.empty.set webHost)) onlyExec) t y ∧
    (y.left none).next = some (.libpod "web" c) ∧
    y.state.2.passed none = some ("web", e, m) ∧ y.state.2.Queried "web" c.target.host m := by
  obtain ⟨t, y, hrun, htest⟩ := Pool.run_of_play (S := (logged (noted anyVersion) clients).when Steady)
    (H := Answers.only steady (Answers.logged (noted anyVersion) fun _ => Real.reply))
    (x := unopened anyVersion (.idle (Hosts.empty.set webHost)) onlyExec)
    (Answers.only_when (Answers.logged_shared fun _ _ op r _ => client_reply op r) steady_spec)
    [none, some false, some false, some false, none, none, none, none, none, none, none, none,
      some true, some true, some true, none] (fun y => callsWeb (y.left none).next)
    (by decide +kernel)
  unfold callsWeb at htest
  split at htest
  · rename_i c hnext
    obtain ⟨e, m, hpassed, hqueried⟩ := gate_asks anyVersion [webHost] rfl onlyExec hrun hnext
    exact ⟨t, y, c, e, m, hrun, hnext, hpassed, hqueried⟩
  · cases htest

end PodmanApi.Podman.VersionGate

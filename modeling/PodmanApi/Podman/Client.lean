/-
# PodmanApi.Podman.Client — the connections of the podman client.

`internal/podman/real.go` and `exec_pool.go`: one connection per host, dialed on first use by a goroutine that
every caller waits for, and one more for execs, taken out of its slot and put back. A reload (`SetHosts`) drops
what was dialed for hosts that are gone or re-addressed, and a transport failure evicts the one that failed.

Each section under a mutex is one call here, a function of `Real` that follows the source. `go f(x)` records
`f(x)` as launched, and a goroutine thread begins by picking up what was launched. Connections are told apart
by a serial number. A `Target` is the configuration read under the lock, with the number of reconfigurations of
the host before it; no section looks at that number.
-/
import PodmanApi.Calls.Fallible
import PodmanApi.Calls.Pool
import PodmanApi.Data

namespace PodmanApi.Podman

open GoStd Calls
open Function (update)

/-! ## Hosts and connections -/

/-- `config.Host`: what a connection depends on, and `drain` for all the rest. -/
structure Host where
  id : String
  addr : String
  socket : String
  sshKey : String
  drain : Bool := false
  deriving DecidableEq, Repr

def hostConnEq (a b : Host) : Bool :=
  a.addr == b.addr && a.socket == b.socket && a.sshKey == b.sshKey

/-- The URI of `uriForLocked`. -/
def uriFor (h : Host) : String :=
  if h.addr = "unix" then "unix://" ++ h.socket else "ssh://" ++ h.addr ++ h.socket

structure Hosts where
  list : List Host
  nodup : (list.map Host.id).Nodup

namespace Hosts

def empty : Hosts := ⟨[], List.nodup_nil⟩

def get (m : Hosts) (id : String) : Option Host :=
  m.list.find? (·.id == id)

def set (m : Hosts) (h : Host) : Hosts where
  list := m.list.filter (·.id != h.id) ++ [h]
  nodup := by
    rw [List.map_append, List.nodup_append]
    refine ⟨m.nodup.sublist (List.filter_sublist.map Host.id), List.nodup_singleton _, ?_⟩
    rintro id hid _ hlast rfl
    obtain ⟨h', hmem, rfl⟩ := List.mem_map.1 hid
    have hne := (List.mem_filter.1 hmem).2
    rw [List.mem_singleton.1 hlast] at hne
    simp at hne

/-- The map that `SetHosts` builds; a host without an id is left out. -/
def ofList (hosts : List Host) : Hosts :=
  hosts.foldl (fun m h => if h.id = "" then m else m.set h) empty

end Hosts

/-- What a dial is made with: the configuration, its URI, and how many reconfigurations came before. -/
structure Target where
  host : Host
  uri : String
  epoch : Nat
  deriving DecidableEq, Repr

/-- `connEntry`: which one it is, what it was dialed for, and, for an exec's connection, when. -/
structure Conn where
  serial : Nat
  target : Target
  exec : Bool
  execDialedAt : Time
  deriving DecidableEq, Repr

structure DialCall where
  host : Host
  outcome : Option (Except Error Conn)

/-- `execDial`, and what it was started for. -/
structure ExecDial where
  target : Target
  settled : Bool
  abandoned : Bool
  entry : Option Conn
  err : Option Error

/-- What a `go` statement has started. -/
inductive Launched where
  | dial (id : String) (target : Target) (d : Nat)
  | execDial (id : String) (target : Target) (d : Nat)
  | close (conn : Conn)
  deriving DecidableEq, Repr

/-- `Real`. Dials and connections are numbered; `epoch` counts, for each id, how often `SetHosts` has removed or
re-addressed its host. -/
structure Real where
  hosts : Hosts
  ctx : String → Option Conn
  verified : String → Bool
  dialing : String → Option Nat
  dials : Nat → Option DialCall
  execPool : String → Option Conn
  execDials : Nat → Option ExecDial
  launched : List Launched
  dialed : Nat
  made : Nat
  epoch : String → Nat

def Real.idle (hosts : Hosts) : Real where
  hosts := hosts
  ctx _ := none
  verified _ := false
  dialing _ := none
  dials _ := none
  execPool _ := none
  execDials _ := none
  launched := []
  dialed := 0
  made := 0
  epoch _ := 0

def newReal (hosts : List Host) : Except Error Real := do
  let m ← hosts.foldlM (fun m h => do
    if h.id = "" then throw (.text "host with empty id")
    if (m.get h.id).isSome then throw (.text ("duplicate host id " ++ quote h.id))
    pure (m.set h)) Hosts.empty
  pure (.idle m)

/-! ## The sections under a mutex -/

/-- How the section of `connFor` ends. -/
inductive Found where
  | hit (e : Conn)
  | unknown
  | join (d : Nat)
  | reserved (d : Nat)
  deriving DecidableEq, Repr

/-- What the section of `SetHosts` leaves to be done, and the ids it has removed or re-addressed, with the number
of their reconfigurations. -/
structure Swapped where
  dropped : List Conn
  changed : List (String × Nat)
  deriving DecidableEq, Repr

def hostStillMatches (hosts : Hosts) (id : String) (dialed : Host) : Bool :=
  match hosts.get id with
  | none => false
  | some cur => hostConnEq cur dialed

def unknownHost (id : String) : Error :=
  .text ("unknown host " ++ quote id)

/-- The texts that begin `connect to host`. -/
def connectError (id : String) (e : Error) : Error :=
  .wrap ("connect to host " ++ quote id ++ ": ") e ""

def reconfiguredError (id : String) : Error :=
  .text ("connect to host " ++ quote id ++ ": host reconfigured while connecting")

namespace Real

variable (r : Real) (id : String)

def target (h : Host) : Target :=
  ⟨h, uriFor h, r.epoch id⟩

/-- A reservation in `r.dialing`, with its dial started. -/
def reserve (h : Host) : Found × Real :=
  (.reserved r.dialed,
    { r with
      dialing := update r.dialing id (some r.dialed)
      dials := update r.dials r.dialed (some ⟨h, none⟩)
      launched := r.launched ++ [.dial id (r.target id h) r.dialed]
      dialed := r.dialed + 1 })

/-- The dial that a caller may wait for: one in flight, for the configuration as it stands. -/
def joinable (h : Host) : Option Nat :=
  match r.dialing id with
  | none => none
  | some d => (r.dials d).bind fun call => if hostConnEq call.host h then some d else none

/-- The section of `connFor`. -/
def lookup : Found × Real :=
  match r.ctx id with
  | some e => (.hit e, r)
  | none =>
    match r.hosts.get id with
    | none => (.unknown, r)
    | some h =>
      match r.joinable id h with
      | some d => (.join d, r)
      | none => r.reserve id h

/-- The outcome of a dial, and its reservation removed if it is still its own. -/
def resolve (d : Nat) (outcome : Except Error Conn) : Real :=
  { r with
    dialing := if r.dialing id = some d then update r.dialing id none else r.dialing
    dials := update r.dials d ((r.dials d).map fun call => { call with outcome := some outcome }) }

/-- The section of `runDial`, and the connection it is not going to publish. -/
def publish (target : Target) (d : Nat) : Except Error Conn → Option Conn × Real
  | .error e => (none, r.resolve id d (.error (connectError id e)))
  | .ok e =>
    if hostStillMatches r.hosts id target.host then
      match r.ctx id with
      | some cached => (some e, r.resolve id d (.ok cached))
      | none => (none, { r.resolve id d (.ok e) with ctx := update r.ctx id (some e) })
    else (some e, r.resolve id d (.error (reconfiguredError id)))

/-- Whether a reload removes the host of an id or changes its connection parameters. -/
def repoints (hosts : Hosts) : Bool :=
  match r.hosts.get id, hosts.get id with
  | none, _ => false
  | some _, none => true
  | some old, some h => !hostConnEq old h

/-- The section of `SetHosts`. Its loops visit every id once; each is left alone or loses its connection, its
verification and its exec connection. -/
def swap (hosts : Hosts) : Swapped × Real :=
  let hit := r.hosts.list.filter fun h => r.repoints h.id hosts
  (⟨hit.filterMap fun h => r.ctx h.id, hit.map fun h => (h.id, r.epoch h.id + 1)⟩,
    { r with
      hosts := hosts
      ctx := fun id => if r.repoints id hosts then none else r.ctx id
      verified := fun id => if r.repoints id hosts then false else r.verified id
      execPool := fun id => if r.repoints id hosts then none else r.execPool id
      launched := r.launched ++ (hit.filterMap fun h => r.execPool h.id).map .close
      epoch := fun id => if r.repoints id hosts then r.epoch id + 1 else r.epoch id })

/-- The section of `invalidateConn`, and whether it has evicted. -/
def evict (dead : Conn) : Bool × Real :=
  if r.ctx id = some dead then
    (true, { r with ctx := update r.ctx id none, verified := update r.verified id false })
  else (false, r)

def markVerified : Real :=
  { r with verified := update r.verified id true }

/-- The section of `takeExecConn`. -/
def take : Option Conn × Real :=
  (r.execPool id, { r with execPool := update r.execPool id none })

/-- The section of `putExecConn`, and the connection it displaces. -/
def put (conn : Conn) : Option Conn × Real :=
  (r.execPool id, { r with execPool := update r.execPool id (some conn) })

/-- A new `execDial`, with its dial started. -/
def startExecDial (target : Target) : Nat × Real :=
  (r.dialed,
    { r with
      execDials := update r.execDials r.dialed (some ⟨target, false, false, none, none⟩)
      launched := r.launched ++ [.execDial id target r.dialed]
      dialed := r.dialed + 1 })

def setExecDial (d : Nat) (call : ExecDial) : Real :=
  { r with execDials := update r.execDials d (some call) }

/-- `settle`, and the connection that nobody waits for any more. -/
def settle (d : Nat) (e : Option Conn) (err : Option Error) : Option Conn × Real :=
  match r.execDials d with
  | none => (none, r)
  | some call =>
    if call.abandoned then (e, r)
    else (none, r.setExecDial d { call with entry := e, err := err, settled := true })

/-- `abandon`, and the connection that came too late. -/
def abandon (d : Nat) : Option Conn × Real :=
  match r.execDials d with
  | none => (none, r)
  | some call =>
    if call.settled then (call.entry, r.setExecDial d { call with entry := none })
    else (none, r.setExecDial d { call with abandoned := true })

end Real

/-! ## Programs -/

inductive Waited where
  | done (outcome : Except Error Conn)
  | timeout
  | cancelled (cause : Error)

/-- The calls of the client: the sections under a mutex, the waits, what is started, and the world. -/
inductive Op where
  | lookup (id : String)
  | await (d : Nat)
  | dial (target : Target) (exec : Bool)
  | publish (id : String) (target : Target) (d : Nat) (result : Except Error Conn)
  | close (conn : Conn)
  | swap (hosts : List Host)
  | evict (id : String) (dead : Conn)
  | isVerified (id : String)
  | probe (id : String) (conn : Conn)
  | markVerified (id : String)
  | libpod (id : String) (conn : Conn)
  | inspect (id : String) (conn : Conn)
  | resolve (id : String)
  | take (id : String)
  | startExecDial (id : String) (target : Target)
  | awaitExec (d : Nat)
  | settle (d : Nat) (e : Option Conn) (err : Option Error)
  | abandon (d : Nat)
  | put (id : String) (conn : Conn)
  | now
  | started

@[reducible]
def Op.Ans : Op → Type
  | lookup _ => Found
  | await _ => Waited
  | dial _ _ => Except Error Conn
  | publish _ _ _ _ => Option Conn
  | close _ => Unit
  | swap _ => Swapped
  | evict _ _ => Bool
  | isVerified _ => Bool
  | probe _ _ => Except Error String
  | markVerified _ => Unit
  | libpod _ _ => Except Error Unit
  | inspect _ _ => Except Error Unit
  | resolve _ => Option Target
  | take _ => Option Conn
  | startExecDial _ _ => Nat
  | awaitExec _ => Waited
  | settle _ _ _ => Option Conn
  | abandon _ => Option Conn
  | put _ _ => Option Conn
  | now => Time
  | started => Launched

abbrev clientCalls : Sig := ⟨Op, Op.Ans⟩

abbrev Work (α : Type) : Type := Act clientCalls Error α

abbrev issue (op : Op) : Prog clientCalls op.Ans := Prog.perform (Γ := clientCalls) op

abbrev ask (op : Op) : Work op.Ans := Act.ask (Γ := clientCalls) op

/-- `closeIdleConns`, of one connection after the other. -/
def closeAll : List Conn → Prog clientCalls Unit
  | [] => pure ()
  | conn :: rest => do
    let _ ← issue (.close conn)
    closeAll rest

def connDialTimeout : Duration := 30 * second

/-- The error of a wait that lasted `connDialTimeout`. -/
def timeoutError (id : String) : Error :=
  .wrap ("connect to host " ++ quote id ++ ": dial did not complete within " ++
    showDuration connDialTimeout ++ ": ") (.text "context deadline exceeded") ""

def awaitDial (id : String) (d : Nat) : Work Conn := do
  match ← ask (.await d) with
  | .done outcome => Act.lift (.ret outcome)
  | .timeout => throw (timeoutError id)
  | .cancelled cause => throw (connectError id cause)

/-- `entryFor`, that is `connFor` on the primary cache. -/
def entryFor (id : String) : Work Conn := do
  match ← ask (.lookup id) with
  | .hit e => pure e
  | .unknown => throw (unknownHost id)
  | .join d => awaitDial id d
  | .reserved d => awaitDial id d

def runDial (id : String) (target : Target) (d : Nat) : Prog clientCalls Unit := do
  let result ← issue (.dial target false)
  let surplus ← issue (.publish id target d result)
  closeAll surplus.toList

/-- `SetHosts`, with the ids it has removed or re-addressed. -/
def setHosts (hosts : List Host) : Prog clientCalls (List (String × Nat)) := do
  let swapped ← issue (.swap hosts)
  closeAll swapped.dropped
  pure swapped.changed

def invalidateConn (id : String) (dead : Conn) : Prog clientCalls Unit := do
  if ← issue (.evict id dead) then closeAll [dead] else pure ()

def minPodmanVersion : String := "5.6.0"

/-- What the semver package makes of a version: whether it can be parsed, and whether it is below the
floor. -/
structure Semver where
  parses : String → Bool
  belowFloor : String → Bool

/-- `checkVersion`; its errors end with `ErrHostVersionUnsupported`, which nothing here asks for. -/
def checkVersion (sv : Semver) (hostID version : String) : Except Error Unit :=
  if !sv.parses version then
    .error (.text ("host " ++ quote hostID ++ ": cannot parse podman version " ++ quote version ++ " (floor " ++
      minPodmanVersion ++ " unconfirmed): host podman version unsupported"))
  else if sv.belowFloor version then
    .error (.text ("host " ++ quote hostID ++ ": podman " ++ version ++ " < minimum " ++ minPodmanVersion ++
      " (floor for the volume export/import API): host podman version unsupported"))
  else .ok ()

/-- A version that was reported is checked, and the host is marked if it passes. -/
def markChecked (sv : Semver) (id version : String) : Work Unit := do
  Act.lift (.ret (checkVersion sv id version))
  let _ ← ask (.markVerified id)
  pure ()

def ensureVerified (sv : Semver) (e : Conn) (id : String) : Work Unit := do
  if ← ask (.isVerified id) then pure ()
  else
    let version ← Act.mapErr (.wrap ("verify host " ++ quote id ++ " podman version: ") · "")
      (Act.lift (issue (.probe id e)))
    markChecked sv id version

def libpodCalls (id : String) (conn : Conn) : Nat → Work Unit
  | 0 => pure ()
  | n + 1 => do
    let _ ← Act.lift (issue (.libpod id conn))
    libpodCalls id conn n

/-- An operation through `opCtx`. -/
def operation (sv : Semver) (id : String) (calls : Nat) : Work Unit := do
  let e ← entryFor id
  ensureVerified sv e id
  libpodCalls id e calls

/-- The polls of `WaitForPodCompletion`, each over the connection of the moment. -/
def polls (id : String) : Nat → Work Unit
  | 0 => pure ()
  | n + 1 => do
    let e ← entryFor id
    let _ ← Act.lift (issue (.libpod id e))
    polls id n

def waitForPodCompletion (sv : Semver) (id : String) (n : Nat) : Work Unit := do
  let e ← entryFor id
  ensureVerified sv e id
  polls id n

def execConnMaxAge : Duration := 120 * second

def takeExecConn (id : String) (now : Time) : Prog clientCalls (Option Conn) := do
  match ← issue (.take id) with
  | none => pure none
  | some conn =>
    if execConnMaxAge ≤ now.sub conn.execDialedAt then
      closeAll [conn]
      pure none
    else pure (some conn)

def putExecConn (id : String) (conn : Conn) (keep : Bool) (now : Time) : Prog clientCalls Unit := do
  if !keep || decide (execConnMaxAge ≤ now.sub conn.execDialedAt) then closeAll [conn]
  else
    let displaced ← issue (.put id conn)
    closeAll displaced.toList

def runExecDial (id : String) (target : Target) (d : Nat) : Prog clientCalls Unit := do
  let result ← issue (.dial target true)
  let surplus ← match result with
    | .error e => issue (.settle d none (some (connectError id e)))
    | .ok e => issue (.settle d (some e) none)
  closeAll surplus.toList

/-- The end of `awaitExecDial` for a caller that has given up. -/
def abandonExecDial (d : Nat) (gaveUp : Error) : Work Conn := do
  let surplus ← ask (.abandon d)
  Act.embed (closeAll surplus.toList)
  throw gaveUp

def awaitExecDial (id : String) (d : Nat) : Work Conn := do
  match ← ask (.awaitExec d) with
  | .done outcome => Act.lift (.ret outcome)
  | .timeout => abandonExecDial d (timeoutError id)
  | .cancelled cause => abandonExecDial d (connectError id cause)

def execConnFor (id : String) : Work Conn := do
  match ← ask (.resolve id) with
  | none => throw (unknownHost id)
  | some target =>
    let now ← ask .now
    match ← Act.embed (takeExecConn id now) with
    | some conn => pure conn
    | none =>
      let d ← ask (.startExecDial id target)
      awaitExecDial id d

/-- `ContainerExec`: the gate over the primary connection, then create, attach and inspect over the exec's
own, which is released whatever happens. -/
def containerExec (sv : Semver) (id : String) : Work Unit := do
  let primary ← entryFor id
  ensureVerified sv primary id
  let conn ← execConnFor id
  let result ← Act.attempt (libpodCalls id conn 3)
  let now ← ask .now
  Act.embed (putExecConn id conn result.toBool now)
  Act.lift (.ret result)

/-- `Ping`, `Version` and `HostInfo`, which skip the gate. -/
def diagnose (id : String) : Work Unit := do
  let e ← entryFor id
  Act.lift (issue (.inspect id e))

/-- `preflightHost`. A host that does not answer in time is one whose probe fails. -/
def preflightHost (sv : Semver) (id : String) : Work Unit := do
  match ← Act.attempt (do Act.lift (issue (.probe id (← entryFor id)))) with
  | .error _ => pure ()
  | .ok version => markChecked sv id version

def goroutine : Prog clientCalls Unit := do
  match ← issue .started with
  | .dial id target d => runDial id target d
  | .execDial id target d => runExecDial id target d
  | .close conn => closeAll [conn]

/-- A call on the client, or a goroutine of it. An eviction that a transport or a call's deadline asks for is a
request like the others. -/
inductive Request where
  | operation (id : String) (calls : Nat)
  | wait (id : String) (polls : Nat)
  | exec (id : String)
  | diagnose (id : String)
  | preflight (id : String)
  | setHosts (hosts : List Host)
  | invalidate (id : String) (dead : Conn)
  | goroutine
  deriving DecidableEq, Repr

inductive Outcome where
  | returned (result : Except Error Unit)
  | reconfigured (changed : List (String × Nat))

def Request.program (sv : Semver) : Request → Prog clientCalls Outcome
  | operation id calls => do pure (.returned (← (Podman.operation sv id calls).run))
  | wait id n => do pure (.returned (← (waitForPodCompletion sv id n).run))
  | exec id => do pure (.returned (← (containerExec sv id).run))
  | diagnose id => do pure (.returned (← (Podman.diagnose id).run))
  | preflight id => do pure (.returned (← (preflightHost sv id).run))
  | setHosts hosts => do pure (.reconfigured (← Podman.setHosts hosts))
  | invalidate id dead => do
    invalidateConn id dead
    pure (.returned (.ok ()))
  | goroutine => do
    Podman.goroutine
    pure (.returned (.ok ()))

/-! ## What the calls do -/

/-- The outcome that the waiter of a settled exec dial reads. -/
def ExecDial.reads (call : ExecDial) : Except Error Conn → Prop
  | .error e => call.settled = true ∧ call.err = some e
  | .ok conn => call.settled = true ∧ call.err = none ∧ call.entry = some conn

/-- The client's sections follow `Real`; a wait may be given up at any time, and a dial, a probe or a libpod
call may fail. -/
def client : Calls.Service clientCalls Real := fun s op r s' =>
  match op, r with
  | .lookup id, r => s.lookup id = (r, s')
  | .await d, .done outcome => s' = s ∧ ∃ call, s.dials d = some call ∧ call.outcome = some outcome
  | .await _, _ => s' = s
  | .dial target exec, .ok conn =>
    (conn.serial = s.made ∧ conn.target = target ∧ conn.exec = exec) ∧ s' = { s with made := s.made + 1 }
  | .dial _ _, .error _ => s' = s
  | .publish id target d result, r => s.publish id target d result = (r, s')
  | .close _, _ => s' = s
  | .swap hosts, r => s.swap (.ofList hosts) = (r, s')
  | .evict id dead, r => s.evict id dead = (r, s')
  | .isVerified id, r => r = s.verified id ∧ s' = s
  | .probe _ _, _ => s' = s
  | .markVerified id, _ => s' = s.markVerified id
  | .libpod _ _, _ => s' = s
  | .inspect _ _, _ => s' = s
  | .resolve id, r => r = (s.hosts.get id).map (s.target id) ∧ s' = s
  | .take id, r => s.take id = (r, s')
  | .startExecDial id target, r => s.startExecDial id target = (r, s')
  | .awaitExec d, .done outcome => s' = s ∧ ∃ call, s.execDials d = some call ∧ call.reads outcome
  | .awaitExec _, _ => s' = s
  | .settle d e err, r => s.settle d e err = (r, s')
  | .abandon d, r => s.abandon d = (r, s')
  | .put id conn, r => s.put id conn = (r, s')
  | .now, _ => s' = s
  | .started, task => task ∈ s.launched ∧ s' = { s with launched := s.launched.erase task }

def clients {ι : Type} : Shared clientCalls ι Real :=
  fun _ => client

def waiting {ι : Type} (sv : Semver) (r : Real) (requests : ι → Request) : Pool clientCalls ι Real Outcome :=
  ⟨r, fun i => (requests i).program sv⟩

/-! ## The rules for one call, with the call given -/

section Rules

variable {σ α : Type} {S : Calls.Service clientCalls σ} {G : σ → Op → Prop} {s : σ}

theorem ensures_ask (op : Op) {f : op.Ans → Work α} {Q : σ → Except Error α → Prop} (hG : G s op)
    (hQ : ∀ r s', S s op r s' → Ensures S G Q (f r).run s') : Ensures S G Q (ask op >>= f).run s :=
  ensures_ask_bind (Γ := clientCalls)  hG hQ

theorem issues_ask_bind (op : Op) {U : Op → Prop} {f : op.Ans → Work α} (h : U op)
    (hf : ∀ r, (f r).run.Issues U) : (ask op >>= f).run.Issues U :=
  (issues_ask (Γ := clientCalls) h).andThen hf

end Rules

/-! ## Which calls a method issues -/

variable {r : Option Conn} {d : Nat} {e : Conn}

section Footprints

variable {U : Op → Prop} {id : String}

theorem awaitDial_issues (hawait : U (.await d)) : (awaitDial id d).run.Issues U := by
  refine issues_ask_bind (.await d) hawait fun r => ?_
  cases r with
  | done | timeout | cancelled => exact issues_ret _

theorem entryFor_issues (hlookup : U (.lookup id)) (hawait : ∀ d, U (.await d)) : (entryFor id).run.Issues U := by
  refine issues_ask_bind (.lookup id) hlookup fun r => ?_
  cases r with
  | hit | unknown => exact issues_ret _
  | join d | reserved d => exact awaitDial_issues (hawait d)

variable {sv : Semver}

theorem markChecked_issues {version : String} (hmark : U (.markVerified id)) :
    (markChecked sv id version).run.Issues U := by
  refine .andThen (issues_ret _) fun _ => ?_
  exact issues_ask_bind (.markVerified id) hmark fun _ => issues_pure

theorem ensureVerified_issues (hread : U (.isVerified id)) (hprobe : U (.probe id e))
    (hmark : U (.markVerified id)) : (ensureVerified sv e id).run.Issues U := by
  refine issues_ask_bind (.isVerified id) hread fun ok => ?_
  cases ok with
  | true => exact issues_pure
  | false =>
    refine .andThen (.mapErr ?_) fun version => markChecked_issues hmark
    exact issues_perform.2 hprobe

theorem libpodCalls_issues (n : Nat) (hcall : U (.libpod id e)) : (libpodCalls id e n).run.Issues U := by
  induction n with
  | zero => exact issues_pure
  | succ n ih => exact .andThen (issues_perform.2 hcall) fun _ => ih

theorem polls_issues (n : Nat) (hlookup : U (.lookup id)) (hawait : ∀ d, U (.await d))
    (hcall : ∀ e, U (.libpod id e)) : (polls id n).run.Issues U := by
  induction n with
  | zero => exact issues_pure
  | succ n ih =>
    refine (entryFor_issues hlookup hawait).andThen fun e => ?_
    exact .andThen (issues_perform.2 (hcall e)) fun _ => ih

theorem preflightHost_issues (hlookup : U (.lookup id)) (hawait : ∀ d, U (.await d))
    (hprobe : ∀ e, U (.probe id e)) (hmark : U (.markVerified id)) : (preflightHost sv id).run.Issues U := by
  refine .andThen (.attempt ?_) fun r => ?_
  · exact (entryFor_issues hlookup hawait).andThen fun e => issues_perform.2 (hprobe e)
  · cases r with
    | error err => exact issues_pure
    | ok version => exact markChecked_issues hmark

end Footprints

/-! ## What one section can do -/

section Sections

variable {s s' : Real} {id : String}

variable {m hosts : Hosts} {h a b : Host}

theorem Hosts.get_id (hget : m.get id = some h) : h.id = id := by
  simpa using List.find?_some hget

theorem Hosts.mem_of_get (hget : m.get id = some h) : h ∈ m.list :=
  List.mem_of_find?_eq_some hget

theorem newReal_idle {hosts : List Host} {r : Real} (h : newReal hosts = .ok r) : ∃ m, r = .idle m := by
  obtain ⟨m, -, hm⟩ := bind_eq_ok.1 h
  exact ⟨m, (Except.ok.inj hm).symm⟩

theorem hostConnEq_iff : hostConnEq a b = true ↔ a.addr = b.addr ∧ a.socket = b.socket ∧ a.sshKey = b.sshKey := by
  simp [hostConnEq, and_assoc]

theorem hostConnEq_refl (a : Host) : hostConnEq a a = true :=
  hostConnEq_iff.2 ⟨rfl, rfl, rfl⟩

theorem hostConnEq_symm (h : hostConnEq a b = true) : hostConnEq b a = true := by
  obtain ⟨h₁, h₂, h₃⟩ := hostConnEq_iff.1 h
  exact hostConnEq_iff.2 ⟨h₁.symm, h₂.symm, h₃.symm⟩

theorem hostConnEq_trans {c : Host} (h : hostConnEq a b = true) (h' : hostConnEq b c = true) :
    hostConnEq a c = true := by
  obtain ⟨h₁, h₂, h₃⟩ := hostConnEq_iff.1 h
  obtain ⟨h₁', h₂', h₃'⟩ := hostConnEq_iff.1 h'
  exact hostConnEq_iff.2 ⟨h₁.trans h₁', h₂.trans h₂', h₃.trans h₃'⟩

theorem hostStillMatches_iff {dialed : Host} :
    hostStillMatches m id dialed = true ↔ ∃ h, m.get id = some h ∧ hostConnEq h dialed = true := by
  unfold hostStillMatches
  cases m.get id with
  | none | some => simp

theorem lookup_cases {r : Found} (h : s.lookup id = (r, s')) : (∃ e, r = .hit e ∧ s' = s ∧ s.ctx id = some e) ∨
    (r = .unknown ∧ s' = s ∧ s.hosts.get id = none) ∨
    (∃ h d call, r = .join d ∧ s' = s ∧ s.hosts.get id = some h ∧ s.dials d = some call ∧
      hostConnEq call.host h = true) ∨ (∃ h, s.hosts.get id = some h ∧ s.reserve id h = (r, s')) := by
  unfold Real.lookup at h
  split at h
  · rename_i e hctx
    cases h
    exact .inl ⟨e, rfl, rfl, hctx⟩
  · split at h
    · rename_i hhost
      cases h
      exact .inr (.inl ⟨rfl, rfl, hhost⟩)
    · rename_i host hhost
      split at h
      · rename_i d hjoin
        cases h
        unfold Real.joinable at hjoin
        split at hjoin
        · cases hjoin
        · obtain ⟨call, hcall, hif⟩ := Option.bind_eq_some_iff.1 hjoin
          split at hif
          · rename_i heq
            cases hif
            exact .inr (.inr (.inl ⟨host, d, call, rfl, rfl, hhost, hcall, heq⟩))
          · cases hif
      · exact .inr (.inr (.inr ⟨host, hhost, h⟩))

theorem lookup_effect {r : Found} (h : s.lookup id = (r, s')) :
    s' = s ∨ ∃ host, s.hosts.get id = some host ∧ s.reserve id host = (r, s') := by
  rcases lookup_cases h with ⟨_, -, hsame, -⟩ | ⟨-, hsame, -⟩ | ⟨_, _, _, -, hsame, -⟩ | hres
  · exact .inl hsame
  · exact .inl hsame
  · exact .inl hsame
  · exact .inr hres

theorem lookup_dialed {r : Found} (h : s.lookup id = (r, s')) : s.dialed ≤ s'.dialed := by
  obtain rfl | ⟨host, -, hres⟩ := lookup_effect h
  · exact le_rfl
  · cases hres
    exact Nat.le_succ _

theorem publish_cases {target : Target} (h : s.publish id target d (.ok e) = (r, s')) :
    (r = some e ∧ ((∃ cached, s.ctx id = some cached ∧ hostStillMatches s.hosts id target.host = true ∧
        s' = s.resolve id d (.ok cached)) ∨ ∃ err, s' = s.resolve id d (.error err))) ∨
    (r = none ∧ s.ctx id = none ∧ hostStillMatches s.hosts id target.host = true ∧
      s' = { s.resolve id d (.ok e) with ctx := update s.ctx id (some e) }) := by
  unfold Real.publish at h
  dsimp only at h
  split at h
  · rename_i hmatch
    split at h
    · rename_i cached hctx
      cases h
      exact .inl ⟨rfl, .inl ⟨cached, hctx, hmatch, rfl⟩⟩
    · rename_i hctx
      cases h
      exact .inr ⟨rfl, hctx, hmatch, rfl⟩
  · cases h
    exact .inl ⟨rfl, .inr ⟨_, rfl⟩⟩

theorem publish_effect {target : Target} {result : Except Error Conn} (h : s.publish id target d result = (r, s')) :
    ∃ outcome, s' = { s.resolve id d outcome with ctx := s'.ctx } := by
  cases result with
  | error err =>
    cases h
    exact ⟨_, rfl⟩
  | ok e =>
    rcases publish_cases h with ⟨-, ⟨_, -, -, rfl⟩ | ⟨_, rfl⟩⟩ | ⟨-, -, -, rfl⟩
    · exact ⟨_, rfl⟩
    · exact ⟨_, rfl⟩
    · exact ⟨_, rfl⟩

theorem evict_cases {dead : Conn} {r : Bool} (h : s.evict id dead = (r, s')) :
    (r = true ∧ s.ctx id = some dead ∧ s' = { s with
      ctx := update s.ctx id none, verified := update s.verified id false }) ∨
    (r = false ∧ s' = s) := by
  unfold Real.evict at h
  split at h
  · rename_i hctx
    cases h
    exact .inl ⟨rfl, hctx, rfl⟩
  · cases h
    exact .inr ⟨rfl, rfl⟩

theorem get_of_not_repoints (hget : s.hosts.get id = some h)
    (hsame : s.repoints id hosts = false) : ∃ h', hosts.get id = some h' ∧ hostConnEq h h' = true := by
  unfold Real.repoints at hsame
  rw [hget] at hsame
  cases hnew : hosts.get id with
  | none => simp [hnew] at hsame
  | some h' => exact ⟨h', rfl, by simpa [hnew] using hsame⟩

theorem get_of_repoints (h : s.repoints id hosts = true) : ∃ host ∈ s.hosts.list, s.hosts.get id = some host := by
  unfold Real.repoints at h
  cases hget : s.hosts.get id with
  | none => simp [hget] at h
  | some host => exact ⟨host, Hosts.mem_of_get hget, rfl⟩

theorem mem_swap_dropped {c : Conn} :
    c ∈ (s.swap hosts).1.dropped ↔ ∃ id, s.repoints id hosts = true ∧ s.ctx id = some c := by
  unfold Real.swap
  simp only [List.mem_filterMap, List.mem_filter]
  constructor
  · rintro ⟨h, ⟨-, hhit⟩, hctx⟩
    exact ⟨h.id, hhit, hctx⟩
  · rintro ⟨id, hhit, hctx⟩
    obtain ⟨h, hmem, hget⟩ := get_of_repoints hhit
    obtain rfl := Hosts.get_id hget
    exact ⟨h, ⟨hmem, hhit⟩, hctx⟩

end Sections

/-! ## What a call leaves alone -/

/-- The parts of `Real`. -/
inductive Field where
  | hosts
  | ctx
  | verified
  | dialing
  | dials
  | execPool
  | execDials
  | launched
  | dialed
  | made
  | epoch
  deriving DecidableEq

def Field.Same (s s' : Real) : Field → Prop
  | hosts => s'.hosts = s.hosts
  | ctx => s'.ctx = s.ctx
  | verified => s'.verified = s.verified
  | dialing => s'.dialing = s.dialing
  | dials => s'.dials = s.dials
  | execPool => s'.execPool = s.execPool
  | execDials => s'.execDials = s.execDials
  | launched => s'.launched = s.launched
  | dialed => s'.dialed = s.dialed
  | made => s'.made = s.made
  | epoch => s'.epoch = s.epoch

def Op.writes : Op → List Field
  | .lookup _ => [.dialing, .dials, .launched, .dialed]
  | .dial _ _ => [.made]
  | .publish _ _ _ _ => [.ctx, .dialing, .dials]
  | .swap _ => [.hosts, .ctx, .verified, .execPool, .launched, .epoch]
  | .evict _ _ => [.ctx, .verified]
  | .markVerified _ => [.verified]
  | .take _ => [.execPool]
  | .put _ _ => [.execPool]
  | .startExecDial _ _ => [.execDials, .launched, .dialed]
  | .settle _ _ _ => [.execDials]
  | .abandon _ => [.execDials]
  | .started => [.launched]
  | _ => []

section Frame

variable {s s' : Real}

theorem Field.same_refl (f : Field) : f.Same s s := by
  cases f <;> rfl

variable {f : Field}

theorem lookup_same {id : String} {r : Found} (hr : s.lookup id = (r, s'))
    (hf : [Field.dialing, .dials, .launched, .dialed].contains f = false) : f.Same s s' := by
  obtain rfl | ⟨host, -, hres⟩ := lookup_effect hr
  · exact f.same_refl
  · cases hres
    cases f <;> first | rfl | cases hf

theorem publish_same {id : String} {target : Target} {result : Except Error Conn} (hr : s.publish id target d result = (r, s')) (hf : [Field.ctx, .dialing, .dials].contains f = false) :
    f.Same s s' := by
  obtain ⟨outcome, hs'⟩ := publish_effect hr
  rw [hs']
  cases f <;> first | rfl | cases hf

theorem settle_same {e : Option Conn} {err : Option Error}
    (hr : s.settle d e err = (r, s')) (hf : [Field.execDials].contains f = false) : f.Same s s' := by
  unfold Real.settle at hr
  split at hr
  · cases hr
    exact f.same_refl
  · split at hr
    · cases hr
      exact f.same_refl
    · cases hr
      cases f <;> first | rfl | cases hf

theorem abandon_same (hr : s.abandon d = (r, s')) (hf : [Field.execDials].contains f = false) : f.Same s s' := by
  unfold Real.abandon at hr
  split at hr
  · cases hr
    exact f.same_refl
  · split at hr
    · cases hr
      cases f <;> first | rfl | cases hf
    · cases hr
      cases f <;> first | rfl | cases hf

theorem client_same {op : Op} {r : op.Ans} (hr : client s op r s') (hf : op.writes.contains f = false) :
    f.Same s s' := by
  cases op with
  | lookup id => exact lookup_same hr hf
  | await d | awaitExec d =>
    cases r with
    | done outcome => exact hr.1 ▸ f.same_refl
    | timeout | cancelled => exact hr ▸ f.same_refl
  | dial target exec =>
    cases r with
    | error err => exact hr ▸ f.same_refl
    | ok e =>
      obtain ⟨-, rfl⟩ := hr
      cases f <;> first | rfl | cases hf
  | publish id target d result => exact publish_same hr hf
  | swap hosts =>
    obtain ⟨-, rfl⟩ := Prod.ext_iff.1 hr
    cases f <;> first | rfl | cases hf
  | evict id dead =>
    rcases evict_cases hr with ⟨-, -, rfl⟩ | ⟨-, rfl⟩
    · cases f <;> first | rfl | cases hf
    · exact f.same_refl
  | isVerified id | resolve id => exact hr.2 ▸ f.same_refl
  | markVerified id =>
    obtain rfl : s' = s.markVerified id := hr
    cases f <;> first | rfl | cases hf
  | take id | put id conn | startExecDial id target =>
    cases hr
    cases f <;> first | rfl | cases hf
  | settle d e err => exact settle_same hr hf
  | abandon d => exact abandon_same hr hf
  | started =>
    obtain ⟨-, rfl⟩ := hr
    cases f <;> first | rfl | cases hf
  | _ => exact hr ▸ f.same_refl

end Frame

/-! ## A world that answers -/

/-- What the waiter of an exec dial reads once it is settled. -/
def ExecDial.read (call : ExecDial) : Option (Except Error Conn) :=
  if call.settled then
    match call.err with
    | some e => some (.error e)
    | none => call.entry.map .ok
  else none

/-- The client over hosts that answer every dial, probe and call; a wait is not given up, and goroutines are
picked up in the order they were started. -/
def Real.reply (s : Real) : (op : Op) → Option (op.Ans × Real)
  | .lookup id => some (s.lookup id)
  | .await d => (s.dials d).bind fun call => call.outcome.map fun outcome => (.done outcome, s)
  | .dial target exec => some (.ok ⟨s.made, target, exec, ⟨0⟩⟩, { s with made := s.made + 1 })
  | .publish id target d result => some (s.publish id target d result)
  | .close _ => some ((), s)
  | .swap hosts => some (s.swap (.ofList hosts))
  | .evict id dead => some (s.evict id dead)
  | .isVerified id => some (s.verified id, s)
  | .probe _ _ => some (.ok minPodmanVersion, s)
  | .markVerified id => some ((), s.markVerified id)
  | .libpod _ _ => some (.ok (), s)
  | .inspect _ _ => some (.ok (), s)
  | .resolve id => some ((s.hosts.get id).map (s.target id), s)
  | .take id => some (s.take id)
  | .startExecDial id target => some (s.startExecDial id target)
  | .awaitExec d => (s.execDials d).bind fun call => call.read.map fun outcome => (.done outcome, s)
  | .settle d e err => some (s.settle d e err)
  | .abandon d => some (s.abandon d)
  | .put id conn => some (s.put id conn)
  | .now => some (⟨0⟩, s)
  | .started => s.launched.head?.map fun task => (task, { s with launched := s.launched.erase task })

theorem ExecDial.reads_of_read {call : ExecDial} {outcome : Except Error Conn}
    (h : call.read = some outcome) : call.reads outcome := by
  unfold ExecDial.read at h
  split at h
  · rename_i hsettled
    split at h
    · rename_i e herr
      cases h
      exact ⟨hsettled, herr⟩
    · rename_i herr
      obtain ⟨conn, hentry, rfl⟩ := Option.map_eq_some_iff.1 h
      exact ⟨hsettled, herr, hentry⟩
  · cases h

theorem client_reply {s s' : Real} (op : Op) (r : op.Ans) (h : s.reply op = some (r, s')) : client s op r s' := by
  cases op with
  | await d =>
    obtain ⟨call, hcall, houtcome⟩ := Option.bind_eq_some_iff.1 h
    obtain ⟨outcome, hdone, heq⟩ := Option.map_eq_some_iff.1 houtcome
    cases heq
    exact ⟨rfl, call, hcall, hdone⟩
  | awaitExec d =>
    obtain ⟨call, hcall, houtcome⟩ := Option.bind_eq_some_iff.1 h
    obtain ⟨outcome, hdone, heq⟩ := Option.map_eq_some_iff.1 houtcome
    cases heq
    exact ⟨rfl, call, hcall, ExecDial.reads_of_read hdone⟩
  | dial target exec =>
    cases h
    exact ⟨⟨rfl, rfl, rfl⟩, rfl⟩
  | started =>
    obtain ⟨task, htask, heq⟩ := Option.map_eq_some_iff.1 h
    cases heq
    exact ⟨List.mem_of_head? htask, rfl⟩
  | isVerified id | resolve id =>
    cases h
    exact ⟨rfl, rfl⟩
  | lookup | publish | swap | evict | take | startExecDial | settle | abandon | put => exact Option.some.inj h
  | _ =>
    cases h
    rfl

end PodmanApi.Podman

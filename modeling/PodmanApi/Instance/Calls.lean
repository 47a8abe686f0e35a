/-
# PodmanApi.Instance.Calls — the calls the instance service makes, and what it is configured with.

`internal/instance` drives podman hosts, a state store, a blob store and an ingress controller.

  * A mutex is taken and released by calls of its own, keyed as the source keys its lock maps; `Calls.Pool`
    gives them their exclusion.
  * The clock and the context are calls too, so a deadline and a cancellation are answers of the outside world.
  * What third-party code computes (templates, YAML, tar, gzip, JSON, sha256) is a field of `Service` or of
    `Codec`; every theorem holds for every value of these fields.
-/
import PodmanApi.Calls.Prog
import PodmanApi.Render

namespace PodmanApi.Instance

open GoStd Calls

/-! ## What the calls exchange -/

/-- `podman.Container`, as far as the service reads it. -/
structure Container where
  name : String
  image : String
  status : String
  health : String
  healthStartPeriod : Duration
  healthInterval : Duration
  startedAt : Time
  deriving DecidableEq, Repr

/-- `podman.Pod`, as far as the service reads it. -/
structure Pod where
  status : String
  containers : List Container
  deriving DecidableEq, Repr

/-- `podman.Volume`. -/
structure HostVolume where
  name : String
  sizeBytes : Int
  deriving DecidableEq, Repr

/-- `podman.PortMapping`, as far as the service reads it. -/
structure PortMapping where
  hostPort : Int
  protocol : String
  pod : String
  deriving DecidableEq, Repr

structure PortSpec where
  port : Int
  protocol : String
  deriving DecidableEq, Repr

structure ExecResult where
  exitCode : Int
  output : String
  deriving DecidableEq, Repr

structure RestoreIntent where
  timestamp : String
  volumes : List String
  deriving DecidableEq, Repr

structure SidecarInjection where
  yaml : String
  secrets : List InjectorSecret
  deriving DecidableEq, Repr

/-- The mutexes of `Service`: an entry of `locks`, or an entry of `hostLocks`. -/
inductive Mutex where
  | locks (key : String)
  | hostLocks (host : String)
  deriving DecidableEq, Repr

inductive Op where
  -- the state store
  | listSpecKeys (host : String)
  | listSpecNetworks (host : String)
  | getSpec (host template slug : String)
  | putSpec (sp : Spec)
  | deleteSpec (host template slug : String)
  | getTemplate (id : String)
  | putTemplate (t : Template)
  | deleteTemplate (id : String)
  | getHostSecret (host name : String)
  | putHostSecret (host name value : String)
  | getBackup (id : String)
  | createBackup (b : Backup)
  | completeBackup (id : String) (volumes : List BackupVolume)
  | failBackup (id : String)
  | deleteBackup (id : String)
  | listBackups (host template slug : String)
  -- podman
  | playKube (host yaml : String) (replace : Bool) (networks : List String)
  | podInspect (host name : String)
  | podStart (host name : String)
  | podStop (host name : String)
  | podRemove (host name : String) (force : Bool)
  | secretCreate (host name value : String)
  | secretInspect (host name : String)
  | secretRemove (host name : String)
  | volumeInspect (host name : String)
  | volumeCreate (host name : String)
  | volumeRemove (host name : String) (force : Bool)
  | volumeExport (host name : String)
  | volumeImport (host name : String) (content : Bytes)
  | networkEnsure (host name : String)
  | containerExec (host container : String) (cmd : List String)
  | containerCopyOut (host container path : String)
  | containerCopyIn (host container path : String) (content : Bytes)
  | imagePull (host ref : String)
  | usedHostPorts (host : String)
  | hostBoundPorts (host protocol : String)
  -- the blob store
  | blobGet (key : String)
  | blobPut (key : String)
  | blobCommit (key : String) (content : Bytes)
  | blobAbort (key : String)
  | blobDeleteAll (under : String)
  -- the ingress controller and the sidecar injector
  | reconcile (host : String)
  | injectSidecars (yaml : String) (metadata : Meta) (params : GoMap Value) (host slug : String)
      (intent : Option RestoreIntent)
  | requiredHostPorts (params : GoMap Value)
  -- the clock, the context and the mutexes
  | now
  | tick
  | ctxErr
  | lock (m : Mutex)
  | unlock (m : Mutex)
  | rlockTemplates
  | runlockTemplates
  | lockTemplates
  | unlockTemplates
  deriving DecidableEq, Repr

/-- What each call answers. `tick` waits for the ticker and answers the context's error when the
context ends first; `ctxErr` is `ctx.Err()`. -/
@[reducible]
def Op.Ans : Op → Type
  | listSpecKeys _ => Except Error (List SpecKey)
  | listSpecNetworks _ => Except Error (List SpecNetworks)
  | getSpec _ _ _ => Except Error Spec
  | putSpec _ => Except Error Unit
  | deleteSpec _ _ _ => Except Error Unit
  | getTemplate _ => Except Error Template
  | putTemplate _ => Except Error Unit
  | deleteTemplate _ => Except Error Unit
  | getHostSecret _ _ => Except Error String
  | putHostSecret _ _ _ => Except Error Unit
  | getBackup _ => Except Error Backup
  | createBackup _ => Except Error Unit
  | completeBackup _ _ => Except Error Bool
  | failBackup _ => Except Error Bool
  | deleteBackup _ => Except Error Unit
  | listBackups _ _ _ => Except Error (List Backup)
  | playKube _ _ _ _ => Except Error Unit
  | podInspect _ _ => Except Error Pod
  | podStart _ _ => Except Error Unit
  | podStop _ _ => Except Error Unit
  | podRemove _ _ _ => Except Error Unit
  | secretCreate _ _ _ => Except Error Unit
  | secretInspect _ _ => Except Error Unit
  | secretRemove _ _ => Except Error Unit
  | volumeInspect _ _ => Except Error HostVolume
  | volumeCreate _ _ => Except Error Unit
  | volumeRemove _ _ _ => Except Error Unit
  | volumeExport _ _ => Except Error Bytes
  | volumeImport _ _ _ => Except Error Unit
  | networkEnsure _ _ => Except Error Unit
  | containerExec _ _ _ => Except Error ExecResult
  | containerCopyOut _ _ _ => Except Error Bytes
  | containerCopyIn _ _ _ _ => Except Error Unit
  | imagePull _ _ => Except Error Unit
  | usedHostPorts _ => Except Error (List PortMapping)
  | hostBoundPorts _ _ => Except Error (List Int)
  | blobGet _ => Except Error Bytes
  | blobPut _ => Except Error Unit
  | blobCommit _ _ => Except Error Unit
  | blobAbort _ => Except Error Unit
  | blobDeleteAll _ => Except Error Unit
  | reconcile _ => Except Error Unit
  | injectSidecars _ _ _ _ _ _ => Except Error SidecarInjection
  | requiredHostPorts _ => Except Error (List PortSpec)
  | now => Time
  | tick => Except Error Unit
  | ctxErr => Except Error Unit
  | lock _ => Unit
  | unlock _ => Unit
  | rlockTemplates => Unit
  | runlockTemplates => Unit
  | lockTemplates => Unit
  | unlockTemplates => Unit

/-- One answer for every call: an empty store, an idle and healthy host, a clock that stands still. -/
def Op.plain : (op : Op) → op.Ans
  | listSpecKeys _ | listSpecNetworks _ | listBackups _ _ _ | usedHostPorts _ | hostBoundPorts _ _
  | requiredHostPorts _ => .ok []
  | getSpec _ _ _ | getTemplate _ | getBackup _ | getHostSecret _ _ => .error (.sentinel .storeNotFound)
  | blobGet _ => .error (.sentinel .fileNotExist)
  | podInspect _ _ => .ok ⟨"Running", []⟩
  | volumeInspect _ name => .ok ⟨name, 0⟩
  | volumeExport _ _ | containerCopyOut _ _ _ => .ok []
  | containerExec _ _ _ => .ok ⟨0, ""⟩
  | injectSidecars yaml _ _ _ _ _ => .ok ⟨yaml, []⟩
  | completeBackup _ _ | failBackup _ => .ok true
  | putSpec _ | deleteSpec _ _ _ | putHostSecret _ _ _ | createBackup _ | deleteBackup _ => .ok ()
  | putTemplate _ | deleteTemplate _ => .ok ()
  | playKube _ _ _ _ | podStart _ _ | podStop _ _ | podRemove _ _ _ => .ok ()
  | secretCreate _ _ _ | secretInspect _ _ | secretRemove _ _ => .ok ()
  | volumeCreate _ _ | volumeRemove _ _ _ | volumeImport _ _ _ | networkEnsure _ _ => .ok ()
  | containerCopyIn _ _ _ _ | imagePull _ _ | reconcile _ => .ok ()
  | blobPut _ | blobCommit _ _ | blobAbort _ | blobDeleteAll _ => .ok ()
  | now => ⟨0⟩
  | tick | ctxErr => .ok ()
  | lock _ | unlock _ | rlockTemplates | runlockTemplates | lockTemplates | unlockTemplates => ()

abbrev calls : Sig := ⟨Op, Op.Ans⟩

abbrev History : Type := List (Event calls)

/-- An operation of the service: a program of calls that returns a value or an error. -/
abbrev Task (α : Type) : Type := Act calls Error α

abbrev issue (op : Op) : Prog calls op.Ans := Prog.perform (Γ := calls) op

/-- Issue one call and hand its answer, error or not, to the rest. -/
abbrev ask (op : Op) : Task op.Ans := Act.ask (Γ := calls) op

/-! ## Manifests -/

/-- `fileInfo`: the fingerprint of one tar entry. -/
structure FileInfo where
  typ : UInt8
  size : Int
  sha256 : String
  link : String
  deriving DecidableEq, Repr

/-- `Manifest`: a volume's fingerprints by cleaned path. -/
abbrev Manifest : Type := GoMap FileInfo

/-- `Manifest.firstDiff`: the first path on which two manifests differ, if any. -/
def Manifest.firstDiff (m other : Manifest) : Option String :=
  (sortStrings (GoMap.keys m ++ GoMap.keys other).dedup).find? fun k =>
    decide (GoMap.get? m k ≠ GoMap.get? other k)

def excludePath (name : String) : Bool :=
  (index name "-litestream/").isSome || hasSuffix name "-litestream"

structure DropStats where
  patterns : List String
  entries : Int
  bytes : Int
  deriving DecidableEq, Repr

/-- Tar, JSON, gzip, sha256 and base64, as the service uses them. -/
structure Codec where
  /-- `buildManifest` -/
  buildManifest : Bytes → Except Error Manifest
  /-- `filterTar`: the re-encoded tar, its manifest and what was dropped -/
  filterTar : Bytes → List String → Except Error (Bytes × Manifest × DropStats)
  marshal : Manifest → Except Error Bytes
  unmarshal : Bytes → Except Error Manifest
  gzip : Bytes → Bytes
  gunzip : Bytes → Except Error Bytes
  sha256 : Bytes → String
  base64 : String → String

/-! ## The service -/

/-- `config.Host`, as far as the service reads it. -/
structure Host where
  drain : Bool
  ingressManaged : Option Bool
  deriving DecidableEq, Repr

/-- `Service`, without its caches: what an operation finds wired and configured. The setters ignore
values that are not positive, which the `_pos` fields record. -/
structure Service where
  hosts : GoMap Host
  /-- the shared ingress network; empty when ingress is disabled -/
  ingressNet : String
  /-- whether a blob store is wired -/
  blobs : Bool
  /-- the registered injector, if any, and whether it also is a `HostPortRequirer` -/
  sidecar : Option Bool
  /-- `store.SecretsEnabled()` -/
  secretsEnabled : Bool
  verifyVolumes : Bool
  verifyTimeout : Duration
  verifyTimeout_pos : 0 < verifyTimeout
  verifyStableCount : Nat
  verifyStableCount_pos : 0 < verifyStableCount
  deployVerifyTimeout : Duration
  deployVerifyTimeout_pos : 0 < deployVerifyTimeout
  deployVerifyStableCount : Nat
  deployVerifyStableCount_pos : 0 < deployVerifyStableCount
  /-- how many polls a readiness wait is unrolled to; its real bound is the clock -/
  polls : Nat
  unicode : Unicode
  engine : Render.Engine
  /-- `render.RenderBody` -/
  renderBody : String → GoMap Value → Except Error String
  /-- `render.ContainerNames`: the literal container names of a body -/
  containerNames : String → Meta → Except Error (List String)
  /-- the host ports `requiredHostPorts` decodes from a rendered manifest -/
  hostPorts : String → List Int
  codec : Codec

def plainCodec : Codec where
  buildManifest _ := .ok []
  filterTar content _ := .ok (content, [], ⟨[], 0, 0⟩)
  marshal _ := .ok []
  unmarshal _ := .ok []
  gzip raw := raw
  gunzip zipped := .ok zipped
  sha256 _ := ""
  base64 text := text

def exampleService : Service where
  hosts := [("engine-1", ⟨false, none⟩), ("engine-2", ⟨false, none⟩)]
  ingressNet := "ingress"
  blobs := true
  sidecar := none
  secretsEnabled := true
  verifyVolumes := false
  verifyTimeout := second
  verifyTimeout_pos := by decide
  verifyStableCount := 1
  verifyStableCount_pos := by decide
  deployVerifyTimeout := second
  deployVerifyTimeout_pos := by decide
  deployVerifyStableCount := 1
  deployVerifyStableCount_pos := by decide
  polls := 2
  unicode := .ascii
  engine := ⟨fun body _ => .ok body, fun _ => []⟩
  renderBody body _ := .ok body
  containerNames _ _ := .ok []
  hostPorts _ := []
  codec := plainCodec

def exampleTemplate : Template where
  metadata := ⟨"web", [], ["token"], [], [], none, [], none, some []⟩
  body := "kind: Pod"

def exampleRow : Spec where
  host := "engine-1"
  template := "web"
  slug := "shop"
  parameters := []
  secrets := [("token", "s3cret")]
  injectorSecrets := []
  domains := []
  appliedVolumes := some []
  appliedVolumeMeta := some []
  appliedNetworks := []

def podName (tmpl slug : String) : String :=
  tmpl ++ "-" ++ slug

/-- `volumeNamePrefix` -/
def volumeNameStem (tmpl slug : String) : String :=
  podName tmpl slug ++ "-"

def volumeName (tmpl slug short : String) : String :=
  volumeNameStem tmpl slug ++ short

theorem volumeName_inj {tmpl slug a b : String} : volumeName tmpl slug a = volumeName tmpl slug b ↔ a = b :=
  String.append_right_inj _

def instanceSecretName (tmpl slug name : String) : String :=
  tmpl ++ "-" ++ slug ++ "-" ++ name

/-- `render.ValidName`: `^[a-z0-9][a-z0-9-]{0,38}[a-z0-9]$` -/
def validName (s : String) : Bool :=
  let edge := fun c : Char => c.isLower || c.isDigit
  match s.toList with
  | [] => false
  | c :: cs =>
    edge c && (cs.getLast?.any edge) && (cs.dropLast.all fun d => edge d || d == '-') &&
      decide (cs.length ≤ 39)

namespace Service

variable (s : Service)

def ingressEnabled : Bool :=
  s.ingressNet != ""

def host (id : String) : Option Host :=
  GoMap.get? s.hosts id

def lookup (host tmpl : String) : Task Template := do
  Act.require (s.host host).isSome (.sentinel .unknownHost)
  match ← ask (.getTemplate tmpl) with
  | .ok t => pure t
  | .error e =>
    throw (if e.is .storeNotFound then .sentinel .unknownTemplate
      else .wrap ("lookup template " ++ quote tmpl ++ ": ") e "")

end Service

/-! ## Mutexes -/

def instanceLock (host tmpl slug : String) : Mutex :=
  .locks (host ++ "|" ++ tmpl ++ "|" ++ slug)

/-- `migrateLock`: no host id is the sentinel, so no instance lock is this mutex. -/
def migrateLock (tmpl slug : String) : Mutex :=
  instanceLock "\x00migrate" tmpl slug

/-- `lock.Lock(); defer lock.Unlock()` around the rest of a function. -/
def locked {α : Type} (m : Mutex) (p : Prog calls α) : Prog calls α := do
  let _ ← issue (.lock m)
  let a ← p
  let _ ← issue (.unlock m)
  pure a

/-- `locked` for a program with an error result; the mutex is released on the error path too. -/
def withLock {α : Type} (m : Mutex) (x : Task α) : Task α :=
  Act.lift (locked m x.run)

section Rules

variable {α : Type} {U : Op → Prop} {m : Mutex}

variable {p : Prog calls α} {x : Task α} {t : History}

theorem ensures_lock {σ : Type} {S : Calls.Service calls σ} {G : σ → Op → Prop} {x : σ}
    {Q : σ → α → Prop} (hl : G x (.lock m)) (hp : ∀ y, S x (.lock m) () y →
      Ensures S G (fun z a => G z (.unlock m) ∧ ∀ u, S z (.unlock m) () u → Q u a) p y) :
    Ensures S G Q (locked m p) x := by
  refine ensures_issue_bind (Op.lock m) hl fun _ y hy => ?_
  refine (hp y hy).bind fun z a hz => ?_
  exact ensures_issue_bind (Op.unlock m) hz.1 fun _ u hu => ensures_ret.2 (hz.2 u hu)

theorem issues_locked (hl : U (.lock m)) (hu : U (.unlock m)) (hp : p.Issues U) : (locked m p).Issues U := by
  refine .bind (issues_perform.2 hl) fun _ => hp.bind fun a => ?_
  exact .bind (issues_perform.2 hu) fun _ => issues_ret a

theorem issues_withLock (hl : U (.lock m)) (hu : U (.unlock m)) (hx : x.run.Issues U) :
    (withLock m x).run.Issues U :=
  issues_locked hl hu hx

theorem returns_locked {a : α} : Returns (locked m p) t a ↔
      ∃ t', Returns p t' a ∧ t = ⟨.lock m, ()⟩ :: (t' ++ [⟨.unlock m, ()⟩]) := by
  unfold locked
  rw [Prog.perform_bind, returns_call]
  constructor
  · rintro ⟨_, t₁, rfl, h⟩
    obtain ⟨t', t₂, b, hp, hrest, rfl⟩ := returns_bind.1 h
    rw [Prog.perform_bind, returns_call] at hrest
    obtain ⟨_, t₃, rfl, hret⟩ := hrest
    obtain ⟨rfl, rfl⟩ := returns_ret.1 hret
    exact ⟨t', hp, rfl⟩
  · rintro ⟨t', hp, rfl⟩
    refine ⟨(), _, rfl, returns_bind.2 ⟨t', _, a, hp, ?_, rfl⟩⟩
    rw [Prog.perform_bind, returns_call]
    exact ⟨(), [], rfl, returns_ret.2 ⟨rfl, rfl⟩⟩

theorem returns_withLock {r : Except Error α} : Returns (withLock m x).run t r ↔
      ∃ t', Returns x.run t' r ∧ t = ⟨.lock m, ()⟩ :: (t' ++ [⟨.unlock m, ()⟩]) :=
  returns_locked

theorem withLock_asked {A : (op : Op) → op.Ans} {op : Op} (h : op ∈ x.run.asked A) :
    op ∈ (withLock m x).run.asked A := by
  show op ∈ (locked m x.run).asked A
  unfold locked
  rw [Prog.asked_bind]
  exact List.mem_append_right _ (Prog.asked_bind_left h)

theorem given_withLock {A : (op : Op) → op.Ans} : (withLock m x).run.given A = x.run.given A := by
  show (locked m x.run).given A = _
  unfold locked
  rw [Prog.given_bind, Prog.given_bind]
  rfl

theorem issues_lookup {s : Service} {host tmpl : String} (h : U (.getTemplate tmpl)) :
    (s.lookup host tmpl).run.Issues U :=
  issues_require.andThen fun _ => (issues_ask h).cases (fun _ => issues_ret _) fun _ => issues_ret _

def lookupError (tmpl : String) (e : Error) : Error :=
  if e.is .storeNotFound then .sentinel .unknownTemplate
  else .wrap ("lookup template " ++ quote tmpl ++ ": ") e ""

section Lookup

variable {σ : Type} {S : Calls.Service calls σ} {G : σ → Op → Prop} {x : σ} {s : Service} {host tmpl : String}

theorem ensures_lookup {Q : σ → Except Error Template → Prop}
    (hunknown : (s.host host).isSome = false → Q x (.error (.sentinel .unknownHost))) (hG : G x (.getTemplate tmpl))
    (hok : (s.host host).isSome = true → ∀ t y, S x (.getTemplate tmpl) (.ok t) y → Q y (.ok t))
    (herr : ∀ e y, S x (.getTemplate tmpl) (.error e) y → Q y (.error (lookupError tmpl e))) :
    Ensures S G Q (s.lookup host tmpl).run x := by
  refine ensures_require_bind hunknown fun hhost => ?_
  refine ensures_ask_bind hG fun r y hr => ?_
  cases r with
  | ok t => exact ensures_pure.2 (hok hhost t y hr)
  | error e => exact ensures_throw.2 (herr e y hr)

theorem ensures_lookup_onOk {P : σ → Template → Prop} (hG : G x (.getTemplate tmpl))
    (hok : (s.host host).isSome = true → ∀ t y, S x (.getTemplate tmpl) (.ok t) y → P y t) :
    Ensures S G (OnOk P) (s.lookup host tmpl).run x :=
  ensures_lookup (fun _ => onOk_error _) hG (fun hhost t y hr => onOk_ok.2 (hok hhost t y hr))
    fun _ _ _ => onOk_error _

theorem lookup_host : Ends S (OnOk fun _ _ => (s.host host).isSome = true) (s.lookup host tmpl).run x :=
  ensures_lookup_onOk trivial fun hhost _ _ _ => hhost

theorem given_lookup {A : (op : Op) → op.Ans} {t : Template} (hhost : (s.host host).isSome = true)
    (ht : A (.getTemplate tmpl) = .ok t) : (s.lookup host tmpl).run.given A = .ok t := by
  unfold Service.lookup
  rw [Act.given_bind_of_ok (Act.given_require_ok.2 hhost), Act.given_bind_of_ok (Act.given_ask _), ht]
  rfl

theorem lookup_returns {found : Template}
    (h : Returns (s.lookup host tmpl).run t (.ok found)) : t = [⟨.getTemplate tmpl, .ok found⟩] := by
  obtain ⟨-, h₁⟩ := h.required
  obtain ⟨_, _, r, hask, h₂, rfl⟩ := returns_bind_ok.1 h₁
  obtain rfl := returns_ask.1 hask
  cases r with
  | error e => exact (not_returns_throw h₂).elim
  | ok tm =>
    obtain ⟨rfl, rfl⟩ := returns_pure.1 h₂
    rfl

end Lookup

end Rules

end PodmanApi.Instance

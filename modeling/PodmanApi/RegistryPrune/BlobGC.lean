/-
# PodmanApi.RegistryPrune.BlobGC — stop the registry, collect its blobs, start it again.

`internal/registryprune/blobgc.go`: `garbage-collect` never runs against a live registry. The restart is
deferred, so every exit passes through it; `collect` is the body of `Reclaim` and `restore` the deferred function.
On some exits the restart comes BEFORE the removal of the collector.
-/
import PodmanApi.RegistryPrune.Policy

namespace PodmanApi.RegistryPrune

open GoStd Calls

structure Payload where
  policy : Policy
  dryRun : Bool
  skipBlobGC : Bool

/-! ## Configuration -/

/-- `BlobGC`. `hasPodman` says whether the client is set. -/
structure BlobGC where
  hasPodman : Bool
  hostID : String
  registryPod : String
  registryContainer : String
  storagePath : String
  mountPath : String
  sizePath : String
  configPath : String
  image : String
  podName : String
  timeout : Duration
  deriving DecidableEq, Repr

def orDefault (value fallback : String) : String :=
  if value = "" then fallback else value

namespace BlobGC

variable (g : BlobGC)

/-- `BlobGC.mountPath` -/
def mountPathOrDefault : String := orDefault g.mountPath "/var/lib/registry"

/-- `BlobGC.sizePath` -/
def sizePathOrDefault : String := orDefault g.sizePath "/var/lib/registry"

/-- `BlobGC.configPath` -/
def configPathOrDefault : String := orDefault g.configPath "/etc/docker/registry/config.yml"

/-- `BlobGC.image` -/
def imageOrDefault : String := orDefault g.image "registry:2"

/-- `BlobGC.podName` -/
def podNameOrDefault : String := orDefault g.podName "registry-blob-gc"

/-- `BlobGC.timeout` -/
def timeoutOrDefault : Duration := if 0 < g.timeout then g.timeout else 30 * 60 * second

def validate (u : Unicode) : Except Error Unit :=
  if !g.hasPodman then .error (.text "blob GC has no podman client")
  else if g.hostID = "" then .error (.text "blob GC has no host")
  else if g.registryPod = "" then
    .error (.text "blob GC has no registry pod name (it cannot stop what it cannot name)")
  else if g.storagePath = "" || !hasPrefix g.storagePath "/" then
    .error (.text ("blob GC storage path " ++ quote g.storagePath ++ " must be an absolute host path"))
  else if u.equalFold (trimSpace g.podNameOrDefault) (trimSpace g.registryPod) then
    .error (.text ("blob GC pod name " ++ quote g.podNameOrDefault ++ " is the registry's own pod name " ++
      quote g.registryPod ++ ": playing it would replace and then destroy the registry instance"))
  else .ok ()

end BlobGC

/-! ## The collector pod -/

structure GcContainer where
  name : String
  image : String
  args : List String
  volumeMounts : List (String × String)
  deriving DecidableEq, Repr

structure GcHostVolume where
  name : String
  path : String
  type : String
  deriving DecidableEq, Repr

/-- `gcPod`, with its spec. -/
structure GcPod where
  apiVersion : String
  kind : String
  name : String
  restartPolicy : String
  containers : List GcContainer
  volumes : List GcHostVolume
  deriving DecidableEq, Repr

/-- The pod `BlobGC.manifest` describes. -/
def BlobGC.pod (g : BlobGC) : GcPod where
  apiVersion := "v1"
  kind := "Pod"
  name := g.podNameOrDefault
  restartPolicy := "Never"
  containers :=
    [{ name := "gc"
       image := g.imageOrDefault
       args := ["garbage-collect", "--delete-untagged", g.configPathOrDefault]
       volumeMounts := [("registry-storage", g.mountPathOrDefault)] }]
  volumes := [⟨"registry-storage", g.storagePath, "Directory"⟩]

variable (u : Unicode)
  -- `yaml.Marshal` of the pod
  (marshal : GcPod → Except Error String)

def BlobGC.manifest (g : BlobGC) : Except Error String :=
  match marshal g.pod with
  | .ok out => .ok out
  | .error e => .error (.wrap "marshal blob-GC pod manifest: " e "")

/-! ## The stage -/

structure Result where
  before : Int := 0
  after : Int := 0
  reclaimed : Int := 0
  measured : Bool := false
  deriving DecidableEq, Repr

/-- `strconv.ParseInt(s, 10, 64)` -/
def parseInt64 (s : List Char) : Option Int :=
  let (sign, digits) := match s with
    | '-' :: ds => (-1, ds)
    | '+' :: ds => (1, ds)
    | ds => (1, ds)
  if digits.isEmpty || !digits.all Char.isDigit then none
  else
    let n : Int := sign * digits.foldl (fun acc d => acc * 10 + (d.toNat - '0'.toNat : Nat)) 0
    if minInt64 ≤ n ∧ n ≤ maxInt64 then some n else none

/-- `storageBytes`, from the answer of `du -sk`. -/
def parseSize : Except Error ExecResult → Option Int
  | .error _ => none
  | .ok res =>
    if res.exitCode ≠ 0 then none
    else match (res.output.toList.splitOnP isSpace).filter (!·.isEmpty) with
      | [] => none
      | field :: _ =>
        match parseInt64 field with
        | some kib => if kib < 0 then none else some (wrap64 (kib * 1024))
        | none => none

variable (g : BlobGC)

def storageBytes : Prog calls (Option Int) :=
  if g.registryContainer = "" then pure none
  else do
    let r ← issue (.containerExec g.hostID g.registryContainer ["du", "-sk", g.sizePathOrDefault])
    pure (parseSize r)

def restartAttempts : Nat := 3

/-- `BlobGC.startRegistry`, with the attempts that are left. -/
def startRegistry : Nat → Prog calls (Except Error Unit)
  | 0 => pure (.ok ())
  | 1 => issue (.podStart g.hostID g.registryPod)
  | n + 2 => do
    match ← issue (.podStart g.hostID g.registryPod) with
    | .ok () => pure (.ok ())
    | .error _ => startRegistry (n + 1)

/-- The body of `Reclaim` after the deferral: whether the collector was played, and the error. -/
def collect : Prog calls (Bool × Option Error) := do
  match ← issue (.podStop g.hostID g.registryPod) with
  | .error e =>
    pure (false, some (.wrap ("stop registry " ++ g.registryPod ++ " on " ++ g.hostID ++
      " before blob GC: ") e ""))
  | .ok () =>
    match g.manifest marshal with
    | .error e => pure (false, some e)
    | .ok yaml =>
      match ← issue (.playKube g.hostID yaml true) with
      | .error e =>
        pure (true, some (.wrap ("play blob-GC pod " ++ g.podNameOrDefault ++ " on " ++ g.hostID ++
          ": ") e ""))
      | .ok () =>
        match ← issue (.waitForPodCompletion g.hostID g.podNameOrDefault g.timeoutOrDefault) with
        | .error e =>
          pure (true, some (.wrap ("await blob-GC pod " ++ g.podNameOrDefault ++ " on " ++ g.hostID ++
            ": ") e ""))
        | .ok code =>
          pure (true, if code = 0 then none
            else some (.text ("blob GC pod " ++ g.podNameOrDefault ++ " on " ++ g.hostID ++ " exited " ++
              toString code)))

/-- The outcome of a run whose registry came back, once the second size is known. -/
def measure (before after : Option Int) : Result :=
  match before, after with
  | some b, some a => ⟨b, a, max 0 (wrap64 (b - a)), true⟩
  | some b, none => { before := b }
  | none, some a => { after := a }
  | none, none => {}

/-- The end of the deferred function: a registry that did not start is an error of the run, and one
that did is measured. -/
def settle (before : Option Int) (err : Option Error) (started : Except Error Unit) :
    Prog calls (Result × Option Error) :=
  match started with
  | .error e =>
    pure (measure before none, err.or (some (.wrap ("restart registry " ++ g.registryPod ++ " on " ++
      g.hostID ++ " after blob GC: ") e "")))
  | .ok () => do
    let after ← storageBytes g
    pure (measure before after, err)

/-- The deferred function of `Reclaim`: start the registry, then remove the collector. -/
def restore (before : Option Int) (played : Bool) (err : Option Error) : Prog calls (Result × Option Error) := do
  let started ← startRegistry g restartAttempts
  if played then
    let _ ← issue (.podRemove g.hostID g.podNameOrDefault true)
  settle g before err started

def reclaim (p : Payload) : Prog calls (Result × Option Error) :=
  if p.dryRun then pure ({}, none)
  else if p.skipBlobGC then pure ({}, none)
  else match g.validate u with
    | .error e => pure ({}, some e)
    | .ok () => do
      let before ← storageBytes g
      let (played, err) ← collect marshal g
      restore g before played err

/-! ## Which calls the parts make -/

variable {u marshal g}

def IsSizing (op : Op) : Prop :=
  ∃ host container cmd, op = .containerExec host container cmd

theorem storageBytes_issues : (storageBytes g).Issues IsSizing := by
  unfold storageBytes
  split
  · exact issues_ret _
  · have hexec : (issue (.containerExec g.hostID g.registryContainer
        ["du", "-sk", g.sizePathOrDefault])).Issues IsSizing :=
      issues_perform.2 ⟨_, _, _, rfl⟩
    exact hexec.bind fun _ => issues_ret _

variable {t past : History}

theorem startRegistry_trace {n : Nat} {r : Except Error Unit} (h : Returns (startRegistry g (n + 1)) t r) :
    t ≠ [] ∧ (∀ e ∈ t, e.1 = .podStart g.hostID g.registryPod) ∧
      (r = .ok () → ⟨.podStart g.hostID g.registryPod, .ok ()⟩ ∈ t) := by
  induction n generalizing t with
  | zero =>
    obtain rfl := returns_perform.1 h
    simp +contextual
  | succ n ih =>
    obtain ⟨t₁, t₂, ans, h₁, h₂, rfl⟩ := returns_bind.1 h
    obtain rfl := returns_perform.1 h₁
    cases ans with
    | ok _ =>
      obtain ⟨rfl, -⟩ := returns_ret.1 h₂
      simp
    | error _ =>
      obtain ⟨-, hall, hok⟩ := ih h₂
      exact ⟨by simp, by simpa using hall, fun hr => List.mem_cons_of_mem _ (hok hr)⟩

theorem settle_issues (before : Option Int) (err : Option Error) (started : Except Error Unit) :
    (settle g before err started).Issues IsSizing := by
  cases started with
  | error e => exact issues_ret _
  | ok _ => exact storageBytes_issues.bind fun _ => issues_ret _

theorem settle_none {before : Option Int} {err : Option Error} {started : Except Error Unit}
    {r : Result × Option Error} (h : Returns (settle g before err started) t r) (hr : r.2 = none) :
    err = none ∧ started = .ok () := by
  cases started with
  | error e =>
    obtain ⟨-, rfl⟩ := returns_ret.1 h
    cases err <;> cases hr
  | ok _ =>
    obtain ⟨after, -, rfl⟩ := returns_bind_ret.1 h
    exact ⟨hr, rfl⟩

theorem restore_trace {before : Option Int} {played : Bool} {err : Option Error}
    {r : Result × Option Error} (h : Returns (restore g before played err) t r) :
    ∃ ts tr, t = ts ++ tr ∧ ts ≠ [] ∧ (∀ e ∈ ts, e.1 = .podStart g.hostID g.registryPod) ∧
      (∀ e ∈ tr, e.1 = .podRemove g.hostID g.podNameOrDefault true ∨ IsSizing e.1) ∧
      (r.2 = none → err = none ∧ ⟨.podStart g.hostID g.registryPod, .ok ()⟩ ∈ ts) := by
  obtain ⟨ts, tr, started, hstart, hrest, rfl⟩ := returns_bind.1 h
  obtain ⟨hne, hall, hok⟩ := startRegistry_trace hstart
  refine ⟨ts, tr, rfl, hne, hall, ?_⟩
  have hsizing : (settle g before err started).Issues
      fun op : Op => op = .podRemove g.hostID g.podNameOrDefault true ∨ IsSizing op :=
    (settle_issues ..).mono fun _ => .inr
  cases played with
  | true =>
    obtain ⟨_, tr, _, hremove, hsettle, rfl⟩ := returns_bind.1 hrest
    obtain rfl := returns_perform.1 hremove
    exact ⟨List.forall_mem_cons.2 ⟨.inl rfl, hsettle.issued hsizing⟩, fun hr => (settle_none hsettle hr).imp_right hok⟩
  | false => exact ⟨hrest.issued hsizing, fun hr => (settle_none hrest hr).imp_right hok⟩

/-- The ways the body of the stage ends, with the calls it has made by then. -/
inductive Collected (g : BlobGC) : History → Prop where
  | notStopped (e : Error) : Collected g [⟨.podStop g.hostID g.registryPod, .error e⟩]
  | notMarshalled : Collected g [⟨.podStop g.hostID g.registryPod, .ok ()⟩]
  | notPlayed (yaml : String) (e : Error) :
      Collected g [⟨.podStop g.hostID g.registryPod, .ok ()⟩,
        ⟨.playKube g.hostID yaml true, .error e⟩]
  | notWaited (yaml : String) (e : Error) :
      Collected g [⟨.podStop g.hostID g.registryPod, .ok ()⟩,
        ⟨.playKube g.hostID yaml true, .ok ()⟩,
        ⟨.waitForPodCompletion g.hostID g.podNameOrDefault g.timeoutOrDefault, .error e⟩]
  | exited (yaml : String) (code : Int) :
      Collected g [⟨.podStop g.hostID g.registryPod, .ok ()⟩,
        ⟨.playKube g.hostID yaml true, .ok ()⟩,
        ⟨.waitForPodCompletion g.hostID g.podNameOrDefault g.timeoutOrDefault, .ok code⟩]

theorem collect_trace {out : Bool × Option Error} (h : Returns (collect marshal g) t out) : Collected g t ∧
      (∀ host yaml replace r, ⟨.playKube host yaml replace, r⟩ ∈ t → marshal g.pod = .ok yaml) ∧ (out.2 = none →
        ⟨.waitForPodCompletion g.hostID g.podNameOrDefault g.timeoutOrDefault, .ok 0⟩ ∈ t) := by
  obtain ⟨_, t₁, stopped, hstop, h₁, rfl⟩ := returns_bind.1 h
  obtain rfl := returns_perform.1 hstop
  cases stopped with
  | error e =>
    obtain ⟨rfl, rfl⟩ := returns_ret.1 h₁
    exact ⟨.notStopped e, by simp, nofun⟩
  | ok _ =>
    dsimp only at h₁
    split at h₁
    · obtain ⟨rfl, rfl⟩ := returns_ret.1 h₁
      exact ⟨.notMarshalled, by simp, nofun⟩
    rename_i yaml hyaml
    have hmarshal : marshal g.pod = .ok yaml := by
      unfold BlobGC.manifest at hyaml
      split at hyaml <;> cases hyaml
      assumption
    obtain ⟨_, t₂, played, hplay, h₂, rfl⟩ := returns_bind.1 h₁
    obtain rfl := returns_perform.1 hplay
    cases played with
    | error e =>
      obtain ⟨rfl, rfl⟩ := returns_ret.1 h₂
      exact ⟨.notPlayed yaml e, by simp +contextual [hmarshal], nofun⟩
    | ok _ =>
      obtain ⟨_, t₃, waited, hwait, h₃, rfl⟩ := returns_bind.1 h₂
      obtain rfl := returns_perform.1 hwait
      cases waited with
      | error e =>
        obtain ⟨rfl, rfl⟩ := returns_ret.1 h₃
        exact ⟨.notWaited yaml e, by simp +contextual [hmarshal], nofun⟩
      | ok code =>
        obtain ⟨rfl, rfl⟩ := returns_ret.1 h₃
        exact ⟨.exited yaml code, by simp +contextual [hmarshal], by simp +contextual⟩

/-! ## The order of collection and restart -/

/-- A removal that leaves no pod behind: it succeeded, or there was no pod. -/
def leavesNoPod : Except Error Unit → Bool
  | .ok _ => true
  | .error e => e.is .podmanNotFound

/-- Whether the collector may be running, after one more answered call: asking for the pod may start
it, whatever the answer; an exit code, or the removal of the pod, ends that. -/
def collectorStep (g : BlobGC) (running : Bool) : Event calls → Bool
  | ⟨.playKube _ _ _, _⟩ => true
  | ⟨.waitForPodCompletion host pod _, .ok _⟩ =>
    running && !(host == g.hostID && pod == g.podNameOrDefault)
  | ⟨.podRemove host pod _, r⟩ =>
    running && !(host == g.hostID && pod == g.podNameOrDefault && leavesNoPod r)
  | _ => running

/-- Whether the collector may be running after a history. -/
def collectorMayRun (g : BlobGC) (past : History) : Bool :=
  past.foldl (collectorStep g) false

/-- The answers after which the stage does not know what became of the collector. -/
def losesCollector : Event calls → Bool
  | ⟨.playKube _ _ _, .error _⟩ => true
  | ⟨.waitForPodCompletion _ _ _, .error _⟩ => true
  | _ => false

/-- The start of the registry is issued with the collector known to be gone. -/
def StartsAlone (g : BlobGC) (past : History) (e : Event calls) : Prop :=
  e.1 = .podStart g.hostID g.registryPod → collectorMayRun g past = false

theorem collectorMayRun_append (past t : History) :
    collectorMayRun g (past ++ t) = t.foldl (collectorStep g) (collectorMayRun g past) :=
  List.foldl_append

theorem collectorMayRun_starts (h : ∀ e ∈ t, e.1 = .podStart g.hostID g.registryPod) :
    collectorMayRun g (past ++ t) = collectorMayRun g past := by
  rw [collectorMayRun_append]
  generalize collectorMayRun g past = running
  induction t with
  | nil => rfl
  | cons e t ih =>
    obtain ⟨op, r⟩ := e
    obtain rfl : op = .podStart g.hostID g.registryPod := h _ List.mem_cons_self
    exact ih fun e he => h e (List.mem_cons_of_mem _ he)

theorem collectorMayRun_sizing (h : ∀ e ∈ t, IsSizing e.1) : collectorMayRun g t = false := by
  induction t with
  | nil => rfl
  | cons e t ih =>
    obtain ⟨op, r⟩ := e
    obtain ⟨host, container, cmd, hop⟩ := h _ List.mem_cons_self
    cases hop
    exact ih fun e he => h e (List.mem_cons_of_mem _ he)

/-- A non-empty burst of starts happens alone exactly if its first start does. -/
theorem along_starts {ts : History} (hne : ts ≠ []) (hall : ∀ e ∈ ts, e.1 = .podStart g.hostID g.registryPod) :
    Along (StartsAlone g) past ts ↔ collectorMayRun g past = false := by
  rw [along_iff_split]
  constructor
  · intro h
    obtain ⟨e, ts', rfl⟩ := List.exists_cons_of_ne_nil hne
    have hfirst := h [] e ts' rfl (hall e List.mem_cons_self)
    rwa [List.append_nil] at hfirst
  · intro hgone t₁ e t₂ hts _
    have hbefore : ∀ e ∈ t₁, e.1 = .podStart g.hostID g.registryPod := by
      intro e he
      exact hall e (by rw [hts]; exact List.mem_append_left _ he)
    rw [collectorMayRun_starts hbefore, hgone]

theorem along_no_start (h : ∀ e ∈ t, e.1 ≠ .podStart g.hostID g.registryPod) : Along (StartsAlone g) past t := by
  rw [along_iff_split]
  intro t₁ e t₂ ht hstart
  exact absurd hstart (h e (by rw [ht]; simp))

theorem Collected.mayRun_iff {before : History} (hbefore : collectorMayRun g before = false) (h : Collected g t) :
    collectorMayRun g (before ++ t) = false ↔ ∀ e ∈ t, losesCollector e = false := by
  rw [collectorMayRun_append, hbefore]
  cases h <;> simp [collectorStep, losesCollector]

theorem Collected.no_start (h : Collected g t) : ∀ e ∈ t, e.1 ≠ .podStart g.hostID g.registryPod := by
  cases h <;> simp

/-- In a run of the stage, every start of the registry comes after the
collector is known to be gone if and only if neither creating nor awaiting the collector failed. -/
theorem start_after_exit_iff (u : Unicode) (marshal : GcPod → Except Error String) (g : BlobGC)
    (p : Payload) (t : History) (out : Result × Option Error) (h : Returns (reclaim u marshal g p) t out) :
    (∀ t₁ ans t₂, t = t₁ ++ ⟨.podStart g.hostID g.registryPod, ans⟩ :: t₂ →
      collectorMayRun g t₁ = false) ↔ ∀ e ∈ t, losesCollector e = false := by
  have hquiet : t = [] → ((∀ t₁ ans t₂, t = t₁ ++ ⟨.podStart g.hostID g.registryPod, ans⟩ :: t₂ →
      collectorMayRun g t₁ = false) ↔ ∀ e ∈ t, losesCollector e = false) := by
    rintro rfl
    simp
  unfold reclaim at h
  split at h
  · exact hquiet (returns_ret.1 h).1
  split at h
  · exact hquiet (returns_ret.1 h).1
  split at h
  · exact hquiet (returns_ret.1 h).1
  obtain ⟨tb, _, before, hsize, h₁, rfl⟩ := returns_bind.1 h
  obtain ⟨tc, _, ⟨played, err⟩, hcollect, h₂, rfl⟩ := returns_bind.1 h₁
  obtain ⟨ts, tr, rfl, hne, hstarts, hteardown, -⟩ := restore_trace h₂
  have hsizing := hsize.issued storageBytes_issues
  obtain ⟨hcollected, -⟩ := collect_trace hcollect
  -- the four parts of the run; only the third has a start in it
  have hsplit : (∀ t₁ ans t₂, tb ++ (tc ++ (ts ++ tr)) =
        t₁ ++ ⟨.podStart g.hostID g.registryPod, ans⟩ :: t₂ → collectorMayRun g t₁ = false) ↔
      Along (StartsAlone g) [] (tb ++ (tc ++ (ts ++ tr))) := by
    rw [along_iff_split]
    constructor
    · rintro hall t₁ ⟨op, ans⟩ t₂ ht hop
      cases hop
      exact hall t₁ ans t₂ ht
    · intro hall t₁ ans t₂ ht
      exact hall t₁ _ t₂ ht rfl
  have htb : Along (StartsAlone g) [] tb := along_no_start fun e he => by
    obtain ⟨_, _, _, hop⟩ := hsizing e he
    simp [hop]
  have htc : Along (StartsAlone g) tb tc := along_no_start hcollected.no_start
  have htr : Along (StartsAlone g) (tb ++ tc ++ ts) tr := along_no_start fun e he => by
    rcases hteardown e he with hop | ⟨_, _, _, hop⟩ <;> simp [hop]
  have hlost : (∀ e ∈ tb ++ (tc ++ (ts ++ tr)), losesCollector e = false) ↔
      ∀ e ∈ tc, losesCollector e = false := by
    refine ⟨fun hall e he => hall e (by simp [he]), fun htc e he => ?_⟩
    obtain ⟨op, r⟩ := e
    simp only [List.mem_append] at he
    rcases he with he | he | he | he
    · obtain ⟨_, _, _, hop⟩ := hsizing _ he
      cases hop
      rfl
    · exact htc _ he
    · cases hstarts _ he
      rfl
    · rcases hteardown _ he with hop | ⟨_, _, _, hop⟩ <;> cases hop <;> rfl
  rw [hsplit, hlost, along_append, along_append, along_append, List.nil_append,
    ← hcollected.mayRun_iff (collectorMayRun_sizing hsizing), ← along_starts hne hstarts]
  exact ⟨fun hall => hall.2.2.1, fun halone => ⟨htb, htc, halone, htr⟩⟩

def exampleGC : BlobGC where
  hasPodman := true
  hostID := "engine-1"
  registryPod := "registry-main"
  registryContainer := ""
  storagePath := "/srv/registry"
  mountPath := ""
  sizePath := ""
  configPath := ""
  image := ""
  podName := ""
  timeout := 0

def exampleMarshal (pod : GcPod) : Except Error String :=
  .ok ("apiVersion: " ++ pod.apiVersion ++ "\nkind: " ++ pod.kind ++ "\nmetadata:\n  name: " ++ pod.name ++
    "\nspec:\n  restartPolicy: " ++ pod.restartPolicy ++ "\n  containers:\n" ++
    join (pod.containers.map fun c => "  - name: " ++ c.name ++ "\n    args: " ++ showList c.args) "\n")

/-- A host that does what it is asked, and reports `waited` for the collector. -/
def examplePodman (waited : Except Error Int) : Handler calls Unit
  | _, .podStop _ _ => (.ok (), ())
  | _, .podStart _ _ => (.ok (), ())
  | _, .podRemove _ _ _ => (.ok (), ())
  | _, .playKube _ _ _ => (.ok (), ())
  | _, .waitForPodCompletion _ _ _ => (waited, ())
  | _, op => (op.unavailable, ())

def exampleReclaim (waited : Except Error Int) : (Result × Option Error) × History × Unit :=
  (reclaim .ascii exampleMarshal exampleGC ⟨defaultPolicy, false, false⟩).eval (examplePodman waited) ()

/-- The collector exits, so the registry comes back alone. -/
theorem start_after_exit_example : collectorMayRun exampleGC ((exampleReclaim (.ok 0)).2.1.take 3) = false :=
  (start_after_exit_iff .ascii exampleMarshal exampleGC ⟨defaultPolicy, false, false⟩
    (exampleReclaim (.ok 0)).2.1 _ (exec_eval _ _ _).returns).2 (by decide +kernel) _ (.ok ())
    ((exampleReclaim (.ok 0)).2.1.drop 4) (by decide +kernel)

/-- The wait for the collector times out: the registry is started while it may still be running. -/
theorem start_beside_collector :
    ∃ t out t₁ t₂, Returns (reclaim .ascii exampleMarshal exampleGC ⟨defaultPolicy, false, false⟩) t out ∧
      t = t₁ ++ ⟨.podStart exampleGC.hostID exampleGC.registryPod, .ok ()⟩ :: t₂ ∧
      collectorMayRun exampleGC t₁ = true := by
  refine ⟨(exampleReclaim (.error (.sentinel .podmanWaitTimeout))).2.1, _,
    (exampleReclaim (.error (.sentinel .podmanWaitTimeout))).2.1.take 3,
    (exampleReclaim (.error (.sentinel .podmanWaitTimeout))).2.1.drop 4, (exec_eval _ _ _).returns, ?_, ?_⟩
  · decide +kernel
  · decide +kernel

/-! ## A run of the stage, call by call -/

/-- Every stop of the registry is followed by a start of it. -/
def StartsAgain (g : BlobGC) (past : History) : Prop :=
  ∀ t₁ ans t₂, past = t₁ ++ ⟨.podStop g.hostID g.registryPod, ans⟩ :: t₂ →
    ∃ ans', ⟨.podStart g.hostID g.registryPod, ans'⟩ ∈ t₂

/-- The collector is played after a stop that succeeded; neither it nor a removal is about the registry's pod. -/
def Guarded (marshal : GcPod → Except Error String) (g : BlobGC) (past : History) (e : Event calls) : Prop :=
  match e.1 with
  | .playKube _ yaml _ => ⟨.podStop g.hostID g.registryPod, .ok ()⟩ ∈ past ∧
      ∃ pod, marshal pod = .ok yaml ∧ pod.name ≠ g.registryPod
  | .podRemove _ pod _ => pod ≠ g.registryPod
  | _ => True

theorem startsAgain_of_suffix {front back : History} (hstop : ∀ e ∈ back, e.1 ≠ .podStop g.hostID g.registryPod)
    (hstart : ∃ ans, ⟨.podStart g.hostID g.registryPod, ans⟩ ∈ back) : StartsAgain g (front ++ back) := by
  intro t₁ ans t₂ ht
  rcases List.append_eq_append_iff.1 ht with ⟨mid, rfl, hback⟩ | ⟨mid, hfront, hmid⟩
  · exact absurd rfl (hstop ⟨_, ans⟩ (by simp [hback]))
  · cases mid with
    | nil =>
      cases hmid
      exact absurd rfl (hstop ⟨_, ans⟩ List.mem_cons_self)
    | cons e mid =>
      obtain ⟨rfl, rfl⟩ := List.cons.inj hmid
      exact hstart.imp fun _ h => List.mem_append_right _ h

theorem validate_ok {u : Unicode} (h : g.validate u = .ok ()) : g.podNameOrDefault ≠ g.registryPod := by
  intro hsame
  have hfold : u.equalFold (trimSpace g.registryPod) (trimSpace g.registryPod) = true := by
    simp only [Unicode.equalFold, beq_self_eq_true, Bool.true_and, List.all_eq_true]
    intro p hp
    obtain ⟨c, -, rfl⟩ : ∃ c ∈ (trimSpace g.registryPod).toList, (c, c) = p := by
      simpa [List.zip, List.zipWith_self] using hp
    simp [Unicode.foldRune]
  unfold BlobGC.validate at h
  rw [hsame, hfold] at h
  split_ifs at h with _ _ _ _ hne
  exact hne rfl

/-- A run that is dry, skips the stage or is misconfigured makes no call. In any other, every stop of the registry
is followed by a start, the collector is played only after a stop that succeeded, nothing is played or removed
under the registry's name, and no error is returned only if the collector exited with zero and a start was
accepted. -/
theorem reclaim_orderly (u : Unicode) (marshal : GcPod → Except Error String) (g : BlobGC) (p : Payload)
    (t : History) (out : Result × Option Error) (h : Returns (reclaim u marshal g p) t out) :
    (p.dryRun = true ∨ p.skipBlobGC = true ∨ g.validate u ≠ .ok () → t = []) ∧ StartsAgain g t ∧
    (∀ t₁ e t₂, t = t₁ ++ e :: t₂ → Guarded marshal g t₁ e) ∧
    (p.dryRun = false → p.skipBlobGC = false → out.2 = none →
      ⟨.waitForPodCompletion g.hostID g.podNameOrDefault g.timeoutOrDefault, .ok 0⟩ ∈ t ∧
      ⟨.podStart g.hostID g.registryPod, .ok ()⟩ ∈ t) := by
  unfold reclaim at h
  split at h
  · obtain ⟨rfl, -⟩ := returns_ret.1 h
    simp_all [StartsAgain]
  split at h
  · obtain ⟨rfl, -⟩ := returns_ret.1 h
    simp_all [StartsAgain]
  split at h
  · obtain ⟨rfl, rfl⟩ := returns_ret.1 h
    simp [StartsAgain]
  rename_i hvalid
  have hname := validate_ok hvalid
  obtain ⟨tb, _, before, hsize, h₁, rfl⟩ := returns_bind.1 h
  obtain ⟨tc, _, ⟨played, err⟩, hcollect, h₂, rfl⟩ := returns_bind.1 h₁
  obtain ⟨ts, tr, rfl, hne, hstarts, hteardown, hnone⟩ := restore_trace h₂
  obtain ⟨hcollected, hmarshal, hexited⟩ := collect_trace hcollect
  -- outside of the body only the removal is under a guard
  have hfree : ∀ t past, (∀ e ∈ t, e.1 = .podStart g.hostID g.registryPod ∨
      e.1 = .podRemove g.hostID g.podNameOrDefault true ∨ IsSizing e.1) → Along (Guarded marshal g) past t := by
    refine fun t past ht => along_iff_split.2 fun t₁ e t₂ hsplit => ?_
    rcases ht e (by simp [hsplit]) with hop | hop | ⟨_, _, _, hop⟩ <;> simp [Guarded, hop, hname]
  have hbody : Along (Guarded marshal g) tb tc := by
    cases hcollected with
    | notStopped | notMarshalled => simp [Guarded]
    | notPlayed | notWaited | exited =>
      simpa [Guarded] using ⟨g.pod, hmarshal _ _ _ _ (.tail _ (.head _)), hname⟩
  refine ⟨?_, ?_, ?_, fun _ _ hout => ?_⟩
  · simp_all
  · rw [← List.append_assoc]
    refine startsAgain_of_suffix (fun e he => ?_) ?_
    · rcases List.mem_append.1 he with he | he
      · simp [hstarts e he]
      · rcases hteardown e he with hop | ⟨_, _, _, hop⟩ <;> simp [hop]
    · obtain ⟨⟨op, ans⟩, he⟩ := List.exists_mem_of_ne_nil ts hne
      obtain rfl : op = _ := hstarts _ he
      exact ⟨ans, List.mem_append_left _ he⟩
  · refine along_iff_split.1 (along_append.2 ⟨hfree tb [] ?_, along_append.2 ⟨hbody, along_append.2 ⟨hfree ts _ ?_, hfree tr _ ?_⟩⟩⟩)
    · exact fun e he => .inr (.inr (hsize.issued storageBytes_issues e he))
    · exact fun e he => .inl (hstarts e he)
    · exact fun e he => .inr (hteardown e he)
  · obtain ⟨rfl, hstart⟩ := hnone hout
    exact ⟨by simp [hexited rfl], by simp [hstart]⟩

/-- The collector exits with zero, and the registry is started. -/
theorem reclaim_example : ⟨.podStart "engine-1" "registry-main", .ok ()⟩ ∈ (exampleReclaim (.ok 0)).2.1 :=
  ((reclaim_orderly .ascii exampleMarshal exampleGC ⟨defaultPolicy, false, false⟩ (exampleReclaim (.ok 0)).2.1 _
    (exec_eval _ _ _).returns).2.2.2 rfl rfl (by decide +kernel)).2

end PodmanApi.RegistryPrune

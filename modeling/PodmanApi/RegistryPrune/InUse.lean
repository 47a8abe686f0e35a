/-
# PodmanApi.RegistryPrune.InUse — which digests a prune must never delete.

`BuildInUseSet` of `internal/registryprune/inuse.go`, with its loops over hosts, containers and stored specs, and
every exit that refuses to prune. `Sweep` is what the source keeps in five local variables; a Go `map` used as a
set is a list without order or multiplicity.
-/
import PodmanApi.Calls.Prog
import PodmanApi.RegistryPrune.Refs

namespace PodmanApi.RegistryPrune

open GoStd Calls

/-! ## What the job reads -/

/-- `instance.ObservedContainer`, as far as the sweep reads it. -/
structure ObservedContainer where
  name : String
  image : String
  imageTag : String
  isInfra : Bool
  deriving DecidableEq, Repr

/-- `instance.Observed`, as far as the sweep reads it. -/
structure Observed where
  slug : String
  containers : List ObservedContainer
  deriving DecidableEq, Repr

structure Freshness where
  fetchedAt : Time
  reachable : Bool
  hasData : Bool
  deriving DecidableEq, Repr

/-- `imgregistry.TagGroup`, without the size no rule reads. -/
structure TagGroup where
  digest : String
  tags : List String
  created : Time
  deriving DecidableEq, Repr

structure DroppedTag where
  tag : String
  vanished : Bool
  err : Error
  deriving DecidableEq, Repr

structure TagListing where
  groups : List TagGroup
  dropped : List DroppedTag
  deriving DecidableEq, Repr

structure ExecResult where
  exitCode : Int
  output : String
  deriving DecidableEq, Repr

/-- The calls of the registry-prune job: inventory and specs, the clock, the registry, the job's context, and
podman for the blob collection. -/
inductive Op where
  | hosts
  | listAllInstancesWithMeta (host : String)
  | now
  | listSpecKeys (host : String)
  | getSpec (host template slug : String)
  | catalog
  | manifest (repo ref : String)
  | resolveTags (repo : String)
  | delete (repo digest : String)
  | ctxErr
  | playKube (host yaml : String) (replace : Bool)
  | waitForPodCompletion (host pod : String) (timeout : Duration)
  | podStop (host pod : String)
  | podStart (host pod : String)
  | podRemove (host pod : String) (force : Bool)
  | containerExec (host container : String) (cmd : List String)
  deriving DecidableEq, Repr

/-- What each call answers. `manifest` answers the digest of the manifest, the one field read. -/
@[reducible]
def Op.Ans : Op → Type
  | hosts => List String
  | listAllInstancesWithMeta _ => Except Error (List Observed × Freshness)
  | now => Time
  | listSpecKeys _ => Except Error (List SpecKey)
  | getSpec _ _ _ => Except Error Spec
  | catalog => Except Error (List String)
  | manifest _ _ => Except Error String
  | resolveTags _ => Except Error TagListing
  | delete _ _ => Except Error Unit
  | ctxErr => Except Error Unit
  | playKube _ _ _ => Except Error Unit
  | waitForPodCompletion _ _ _ => Except Error Int
  | podStop _ _ => Except Error Unit
  | podStart _ _ => Except Error Unit
  | podRemove _ _ _ => Except Error Unit
  | containerExec _ _ _ => Except Error ExecResult

def Op.unavailable : (op : Op) → op.Ans
  | hosts => []
  | now => ⟨0⟩
  | listAllInstancesWithMeta _ => .error (.text "unavailable")
  | listSpecKeys _ => .error (.text "unavailable")
  | getSpec _ _ _ => .error (.text "unavailable")
  | catalog => .error (.text "unavailable")
  | manifest _ _ => .error (.text "unavailable")
  | resolveTags _ => .error (.text "unavailable")
  | delete _ _ => .error (.text "unavailable")
  | ctxErr => .ok ()
  | playKube _ _ _ => .error (.text "unavailable")
  | waitForPodCompletion _ _ _ => .error (.text "unavailable")
  | podStop _ _ => .error (.text "unavailable")
  | podStart _ _ => .error (.text "unavailable")
  | podRemove _ _ _ => .error (.text "unavailable")
  | containerExec _ _ _ => .error (.text "unavailable")

abbrev calls : Sig := ⟨Op, Op.Ans⟩

instance decEqAns : (op : Op) → DecidableEq op.Ans
  | .hosts => inferInstanceAs (DecidableEq (List String))
  | .listAllInstancesWithMeta _ =>
    inferInstanceAs (DecidableEq (Except Error (List Observed × Freshness)))
  | .now => inferInstanceAs (DecidableEq Time)
  | .listSpecKeys _ => inferInstanceAs (DecidableEq (Except Error (List SpecKey)))
  | .getSpec _ _ _ => inferInstanceAs (DecidableEq (Except Error Spec))
  | .catalog => inferInstanceAs (DecidableEq (Except Error (List String)))
  | .manifest _ _ => inferInstanceAs (DecidableEq (Except Error String))
  | .resolveTags _ => inferInstanceAs (DecidableEq (Except Error TagListing))
  | .delete _ _ => inferInstanceAs (DecidableEq (Except Error Unit))
  | .ctxErr => inferInstanceAs (DecidableEq (Except Error Unit))
  | .playKube _ _ _ => inferInstanceAs (DecidableEq (Except Error Unit))
  | .waitForPodCompletion _ _ _ => inferInstanceAs (DecidableEq (Except Error Int))
  | .podStop _ _ => inferInstanceAs (DecidableEq (Except Error Unit))
  | .podStart _ _ => inferInstanceAs (DecidableEq (Except Error Unit))
  | .podRemove _ _ _ => inferInstanceAs (DecidableEq (Except Error Unit))
  | .containerExec _ _ _ => inferInstanceAs (DecidableEq (Except Error ExecResult))

instance : DecidableEq (Event calls) :=
  inferInstanceAs (DecidableEq ((op : Op) × op.Ans))

abbrev History : Type := List (Event calls)

abbrev Job (α : Type) : Type := Act calls Error α

abbrev issue (op : Op) : Prog calls (Op.Ans op) := Prog.perform (Γ := calls) op

/-! ## The set and the sweep that builds it -/

structure InUseSet where
  valid : Bool := false
  digests : List String := []
  nonDigestObserved : List String := []
  foreignSkipped : List String := []
  deriving DecidableEq, Repr

structure Config where
  registryHosts : List String
  maxSnapshotAge : Duration
  deriving DecidableEq, Repr

structure RefOutcome where
  digest : String := ""
  covered : Bool := false
  foreign : Bool := false
  qualified : Bool := false
  hostMatched : Bool := false
  deriving DecidableEq, Repr

structure Sweep where
  digests : List String := []
  nonDigest : List String := []
  foreign : List String := []
  qualifiedSeen : Nat := 0
  qualifiedMatched : Nat := 0
  deriving DecidableEq, Repr

/-- `countQualified`, then the digest and the foreign reference of one outcome. -/
def Sweep.record (acc : Sweep) (got : RefOutcome) (ref : String) : Sweep where
  digests := if got.digest = "" then acc.digests else acc.digests.insert got.digest
  nonDigest := acc.nonDigest
  foreign := if got.foreign then acc.foreign.insert (trimSpace ref) else acc.foreign
  qualifiedSeen := acc.qualifiedSeen + if got.qualified then 1 else 0
  qualifiedMatched := acc.qualifiedMatched + if got.qualified && got.hostMatched then 1 else 0

/-- Note a running container whose image is not a manifest digest. -/
def Sweep.flag (acc : Sweep) (msg : String) : Sweep :=
  { acc with nonDigest := acc.nonDigest ++ [msg] }

/-- `fmt.Errorf("%w: …", ErrUnsafeToPrune, …)` -/
def refuse (why : String) : Error :=
  .wrap "" (.sentinel .unsafeToPrune) (": " ++ why)

@[simp]
theorem refuse_is (why : String) : (refuse why).is .unsafeToPrune = true := rfl

variable (u : Unicode)

def InUseSet.has (s : InUseSet) (digest : String) : Bool :=
  s.digests.contains (u.lower (trimSpace digest))

/-- The host component's tally: `Qualified` and `HostMatched` of a parsed name. -/
def qualify (name : String) (registryHosts : List String) : RefOutcome :=
  let h := hostComponent name
  if h == "" || publicRegistryHosts.contains (u.lower h) then {}
  else { qualified := true, hostMatched := isOurHost u h registryHosts }

/-- `resolveRef` past the bare forms: the reference has a name, and a tag or a digest. -/
def resolveNamed (known registryHosts : List String) (ref : String) : Job RefOutcome :=
  let parts := splitRef u ref
  let out := qualify u parts.name registryHosts
  if parts.digest ≠ "" then
    if isDigestRef parts.digest then pure { out with digest := parts.digest, covered := true }
    else throw (.text ("malformed digest in reference " ++ quote ref))
  else
    let owner := repoFromName u parts.name registryHosts
    if owner.2 = false then pure { out with covered := true, foreign := true }
    else if owner.1 = "" then
      throw (.text ("cannot derive a repository from reference " ++ quote ref))
    else if known.contains owner.1 = false then
      pure { out with covered := true, foreign := true }
    else
      let tag := parts.tagOrLatest
      if validRef tag && validRepoName owner.1 then do
        let digest ← Act.mapErr (fun e => .wrap ("resolving " ++ owner.1 ++ ":" ++ tag ++ ": ") e "")
          (Act.lift (issue (.manifest owner.1 tag)))
        if digest = "" then
          throw (.text ("registry returned no digest for " ++ owner.1 ++ ":" ++ tag))
        else if isDigestRef (u.lower digest) then
          pure { out with digest := u.lower digest, covered := true }
        else
          throw (.text ("registry returned a malformed digest " ++ quote digest ++ " for " ++
            owner.1 ++ ":" ++ tag))
      else throw (.text ("invalid repository/tag in reference " ++ quote ref))

def resolveRef (known registryHosts : List String) (rawRef : String) : Job RefOutcome :=
  let ref := trimSpace rawRef
  if ref = "" then throw (.text "image reference is empty")
  else if isBareImageID (u.lower ref) then pure { digest := "sha256:" ++ u.lower ref }
  else match classifyBareDigest (u.lower ref) with
    | .trustedBareDigest => pure { digest := u.lower ref, covered := true }
    | .suspectBareDigest =>
      throw (.text ("reference " ++ quote ref ++ " is digest-shaped but is not a digest any " ++
        "registered algorithm (sha256/sha384/sha512) produces"))
    | .notBareDigest => resolveNamed u known registryHosts ref

def sweepContainer (known ourHosts : List String) (host slug : String) (acc : Sweep)
    (c : ObservedContainer) : Job Sweep :=
  if c.isInfra then pure acc
  else do
    let id := host ++ "/" ++ slug ++ "/" ++ c.name
    let got ← Act.mapErr (fun e => refuse ("running container " ++ id ++ ": " ++ e.string))
      (resolveRef u known ourHosts c.image)
    let acc := acc.record got c.image
    let msg := id ++ ": observed image " ++ quote c.image ++
      " is an image ID, not a manifest digest"
    match ← Act.attempt (resolveRef u known ourHosts c.imageTag) with
    | .ok gotTag =>
      let acc := acc.record gotTag c.imageTag
      pure (if got.covered then acc else acc.flag msg)
    | .error terr =>
      if terr.is .registryUnreachable then
        throw (refuse ("resolving image tag of " ++ id ++ ": " ++ terr.string))
      -- any other failure of the tag adds nothing; it is tolerated only because a container whose
      -- own image is not a digest is recorded here and aborts the run after the sweep
      else pure (if got.covered then acc else acc.flag (msg ++ "; its tag " ++ quote c.imageTag ++
        " did not resolve either (" ++ terr.string ++ ")"))

def sweepInstance (known ourHosts : List String) (host : String) (acc : Sweep) (o : Observed) : Job Sweep :=
  o.containers.foldlM (sweepContainer u known ourHosts host o.slug) acc

def sweepParam (known ourHosts : List String) (host : String) (k : SpecKey) (acc : Sweep)
    (param : String × Value) : Job Sweep :=
  let which := "spec " ++ host ++ "/" ++ k.template ++ "/" ++ k.slug ++ " parameter " ++
    quote param.1
  if !isImageParam u param.1 then pure acc
  else match param.2 with
    | .string s =>
      if trimSpace s = "" then pure acc
      else do
        let got ← Act.mapErr (fun e => refuse (which ++ ": " ++ e.string))
          (resolveRef u known ourHosts s)
        pure (acc.record got s)
    | v => throw (refuse (which ++ " is " ++ v.typeName ++ ", not an image reference"))

def sweepSpec (known ourHosts : List String) (host : String) (acc : Sweep) (k : SpecKey) : Job Sweep := do
  let sp ← Act.mapErr (fun e => refuse ("reading spec " ++ host ++ "/" ++ k.template ++ "/" ++
    k.slug ++ ": " ++ e.string)) (Act.lift (issue (.getSpec host k.template k.slug)))
  sp.parameters.foldlM (sweepParam u known ourHosts host k) acc

def usableSnapshot (maxAge : Duration) (host : String) : Job (List Observed) := do
  let (obs, fresh) ← Act.mapErr
    (fun e => refuse ("inventory for host " ++ quote host ++ ": " ++ e.string))
    (Act.lift (issue (.listAllInstancesWithMeta host)))
  Act.require fresh.reachable
    (refuse ("host " ++ quote host ++ " unreachable; its snapshot under-reports what is in use"))
  Act.require fresh.hasData (refuse ("host " ++ quote host ++ " has no inventory snapshot"))
  let stale := refuse ("host " ++ quote host ++ " snapshot is older than " ++ showDuration maxAge)
  Act.require (!fresh.fetchedAt.isZero) stale
  let now ← Act.ask (Γ := calls) .now
  Act.require (now.sub fresh.fetchedAt ≤ maxAge) stale
  pure obs

def sweepHost (known ourHosts : List String) (maxAge : Duration) (acc : Sweep) (host : String) : Job Sweep := do
  let obs ← usableSnapshot maxAge host
  let acc ← obs.foldlM (sweepInstance u known ourHosts host) acc
  let keys ← Act.mapErr (fun e => refuse ("listing specs on host " ++ quote host ++ ": " ++ e.string))
    (Act.lift (issue (.listSpecKeys host)))
  keys.foldlM (sweepSpec u known ourHosts host) acc

def normalizeHosts (raws : List String) : Except Error (List String) :=
  raws.mapM fun raw => match normalizeRegistryHost u raw with
    | .ok h => .ok h
    | .error why => .error (refuse ("registry host " ++ quote raw ++ ": " ++ why))

def concludeSweep (cfg : Config) (acc : Sweep) : InUseSet × Option Error :=
  if acc.nonDigest ≠ [] then
    ({ nonDigestObserved := acc.nonDigest },
      some (refuse (toString acc.nonDigest.length ++ " running container(s) report an image ID " ++
        "rather than a manifest digest: " ++ join acc.nonDigest "; ")))
  else if 0 < acc.qualifiedSeen ∧ acc.qualifiedMatched = 0 then
    ({}, some (refuse ("no host-qualified image reference matched a configured registry host " ++
      showList cfg.registryHosts ++ ", out of " ++ toString acc.qualifiedSeen ++
      " qualified references seen")))
  else if acc.digests = [] then
    ({}, some (refuse "fleet-wide in-use digest count is zero"))
  else
    ({ valid := true, digests := acc.digests, nonDigestObserved := acc.nonDigest,
       foreignSkipped := sortStrings acc.foreign }, none)

/-- The listing method of the registry's own client. -/
def registryCatalog : Job (List String) :=
  Act.lift (issue .catalog)

/-- Everything of `BuildInUseSet` up to the checks after the sweep. `catalog` is the listing method
of the resolver it is handed. -/
def sweepFleet (catalog : Job (List String)) (cfg : Config) : Job Sweep := do
  Act.require (0 < cfg.maxSnapshotAge) (refuse "max snapshot age is not configured")
  Act.require (!cfg.registryHosts.isEmpty) (refuse ("no registry host is configured, so a foreign " ++
    "image reference cannot be told from one of ours"))
  let ourHosts ← Act.lift (.ret (normalizeHosts u cfg.registryHosts))
  let hosts ← Act.ask (Γ := calls) .hosts
  let repos ← Act.mapErr (fun e => refuse ("registry catalog: " ++ e.string)) catalog
  hosts.foldlM (sweepHost u repos ourHosts cfg.maxSnapshotAge) {}

def buildInUseSet (catalog : Job (List String)) (cfg : Config) : Prog calls (InUseSet × Option Error) := do
  match ← (sweepFleet u catalog cfg).run with
  | .error e => pure ({}, some e)
  | .ok acc => pure (concludeSweep cfg acc)

end PodmanApi.RegistryPrune

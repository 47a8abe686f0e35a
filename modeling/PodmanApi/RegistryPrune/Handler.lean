/-
# PodmanApi.RegistryPrune.Handler — one prune, from the payload to the last delete.

`internal/registryprune/handler.go`: `prepare` is everything up to the first delete (payload, catalog, in-use set,
classification, tripwires, in-use set again), `finish` the rest. Job steps, log lines and metrics are left out;
nothing is decided from them.
-/
import PodmanApi.RegistryPrune.BlobGC
import PodmanApi.RegistryPrune.InUseSpec

namespace PodmanApi.RegistryPrune

open GoStd Calls

/-! ## The plan -/

structure Candidate where
  digest : String
  tags : List String
  cls : Class
  deriving DecidableEq, Repr

structure RepoPlan where
  repo : String
  candidates : List Candidate
  deriving DecidableEq, Repr

/-- `Handler`, with the fields it passes on. -/
structure PruneHandler where
  config : Config
  blobGC : Option BlobGC

def maxListedInStep : Nat := 20

def listSample (items : List String) : String :=
  if items.length ≤ maxListedInStep then join items ", "
  else join (items.take maxListedInStep) ", " ++ ", … and " ++
    toString (items.length - maxListedInStep) ++ " more"

def describeDrops (repo : String) (dropped : List DroppedTag) : String :=
  "registry listing for " ++ repo ++ " is incomplete: " ++ toString dropped.length ++
    " tag(s) could not be resolved and are absent from it: " ++
    listSample (dropped.map fun d => d.tag ++ " (" ++ Error.string d.err ++ ")") ++
    "; refusing to classify from a partial view"

def validatePolicy (p : Policy) : Except Error Unit :=
  if p.protectedExact.isEmpty && p.calVer.isNone then
    .error (.text ("policy protects no tag names; refusing to run (a zero Policy is a wiring bug, " ++
      "not a permissive configuration)"))
  else if p.maxDeletesPerRepo ≤ 0 then
    .error (.text "policy has no per-repo tripwire (MaxDeletesPerRepo must be positive)")
  else .ok ()

/-- The two maps the first pass of `classifyAll` fills. -/
structure Listings where
  groups : GoMap (List TagGroup) := []
  protectedDigests : List String := []
  deriving DecidableEq, Repr

/-- The body of the first loop of `classifyAll`: list one repository. -/
def listRepo (pol : Policy) (acc : Listings) (repo : String) : Job Listings := do
  Act.lift (issue .ctxErr)
  let listing ← Act.mapErr
    (fun e => .wrap ("list tags for " ++ repo ++ " (aborting before any delete): ") e "")
    (Act.lift (issue (.resolveTags repo)))
  let hard := listing.dropped.filter (!·.vanished)
  Act.require hard.isEmpty (refuse (describeDrops repo hard))
  pure
    { groups := GoMap.set acc.groups repo listing.groups
      protectedDigests := acc.protectedDigests ++
        (listing.groups.filter (nameProtected repo · pol)).map TagGroup.digest }

variable (u : Unicode)

/-- What the second loop of `classifyAll` makes of one group: a candidate if its class is deletable, but no stale
feature tag of unknown creation time. -/
def candidateOf (repo : String) (inUse : InUseSet) (protectedDigests : List String) (pol : Policy)
    (tg : TagGroup) (now : Time) : Option Candidate :=
  let c := classify u repo tg inUse protectedDigests pol now
  if c = .featStale ∧ tg.created.isZero = true then none
  else if deletable c pol then some ⟨tg.digest, tg.tags, c⟩
  else none

/-- The body of the inner second loop of `classifyAll`; the clock is read for every group. -/
def classifyGroup (repo : String) (inUse : InUseSet) (protectedDigests : List String) (pol : Policy)
    (acc : List Candidate) (tg : TagGroup) : Job (List Candidate) := do
  let now ← Act.ask (Γ := calls) .now
  pure (acc ++ (candidateOf u repo inUse protectedDigests pol tg now).toList)

/-- The body of the second loop of `classifyAll`. -/
def classifyRepo (inUse : InUseSet) (listings : Listings) (pol : Policy) (plan : List RepoPlan)
    (repo : String) : Job (List RepoPlan) := do
  let groups := (GoMap.get? listings.groups repo).getD []
  let candidates ← groups.foldlM
    (classifyGroup u repo inUse listings.protectedDigests pol) []
  pure (plan ++ [⟨repo, candidates⟩])

def classifyAll (repos : List String) (inUse : InUseSet) (pol : Policy) : Job (List RepoPlan × List String) := do
  let listings ← repos.foldlM (listRepo pol) {}
  let plan ← repos.foldlM (classifyRepo u inUse listings pol) []
  pure (plan, listings.protectedDigests)

/-- The per-repository tripwire of `Handler.Run`. -/
def tripwire (pol : Policy) (plan : List RepoPlan) : List RepoPlan :=
  plan.filter fun rp => ¬ pol.maxDeletesPerRepo < rp.candidates.length

/-! ## The run -/

/-- What a run has settled before its first delete. -/
structure Prepared where
  payload : Payload
  repos : List String
  inUse : InUseSet
  fresh : InUseSet
  protectedDigests : List String
  kept : List RepoPlan

variable
  -- `yaml.Marshal` of the collector pod
  (marshal : GcPod → Except Error String)
  -- `json.Unmarshal` of the job's arguments
  (unmarshal : String → Except Error Payload)
  (h : PruneHandler)

/-- `Handler.inUseSet`: the frozen catalog stands in for the registry's. -/
def inUseSet (repos : List String) : Prog calls (InUseSet × Option Error) :=
  buildInUseSet u (pure repos) h.config

/-- An in-use set that `Handler.Run` goes on with: no error, and valid. -/
def validInUseSet (repos : List String) (invalid : String) : Job InUseSet := do
  let (set, err) ← Act.lift ((inUseSet u h repos).bind fun out => .ret (.ok out))
  match err with
  | some e => throw e
  | none =>
    Act.require set.valid (refuse invalid)
    pure set

def recheck (p : Payload) (repos : List String) (inUse : InUseSet) : Job InUseSet :=
  if p.dryRun then pure inUse
  else validInUseSet u h repos "re-derived in-use set is not valid"

/-- `Handler.Run` up to the call of `finish`. -/
def prepare (args : String) : Job Prepared := do
  let p ← Act.mapErr (fun e => .wrap "decode registry-prune args: " e "")
    (Act.lift (.ret (unmarshal args)))
  Act.mapErr (fun e => .wrap "registry-prune policy: " e "")
    (Act.lift (.ret (validatePolicy p.policy)))
  let listed ← Act.mapErr (fun e => .wrap "registry catalog: " e "") registryCatalog
  let repos := sortStrings listed
  let inUse ← validInUseSet u h repos "in-use set is not valid"
  let (plan, protectedDigests) ← classifyAll u repos inUse p.policy
  let fresh ← recheck u h p repos inUse
  pure ⟨p, repos, inUse, fresh, protectedDigests, tripwire p.policy plan⟩

/-- The local variables of `deletePass`. -/
structure DeleteState where
  total : Nat := 0
  seen : List String := []
  firstErr : Option Error := none
  registryDown : Bool := false
  deriving DecidableEq, Repr

/-- What `deletePass` makes of the answer to one delete. -/
def DeleteState.answered (st : DeleteState) (repo digest : String) (r : Except Error Unit) : DeleteState :=
  match r with
  | .ok () => { st with total := st.total + 1 }
  | .error e =>
    if e.is .registryNotFound then st
    else
      { st with
        firstErr := st.firstErr.or (some (.wrap ("delete " ++ repo ++ "@" ++ digest ++ ": ") e ""))
        registryDown := e.is .registryUnreachable }

/-- The backstop of `deletePass`: whether a candidate may be deleted after all. -/
def mayDelete (p : Prepared) (repo digest : String) : Bool :=
  p.repos.contains repo && !(p.inUse.has u digest || p.fresh.has u digest) &&
    !p.protectedDigests.contains digest

/-- The body of the loop of `deletePass` over the candidates of one repository. Once the registry is down both
loops are left: nothing more is done. -/
def deleteCandidate (p : Prepared) (repo : String) (st : DeleteState) (c : Candidate) : Job DeleteState :=
  if st.registryDown then pure st
  else do
    Act.lift (issue .ctxErr)
    let key := repo ++ "@" ++ c.digest
    if st.seen.contains key then pure st
    else
      let st := { st with seen := key :: st.seen }
      if !mayDelete u p repo c.digest then pure st
      else if p.payload.dryRun then pure { st with total := st.total + 1 }
      else
        let r ← Act.ask (Γ := calls) (.delete repo c.digest)
        pure (st.answered repo c.digest r)

/-- The body of the loop of `deletePass` over the repositories. -/
def deleteRepo (p : Prepared) (st : DeleteState) (rp : RepoPlan) : Job DeleteState :=
  rp.candidates.foldlM (deleteCandidate u p rp.repo) st

/-- `Handler.deletePass`; the count is read only when there was no error. -/
def deletePass (p : Prepared) : Job Nat := do
  let st ← p.kept.foldlM (deleteRepo u p) {}
  match st.firstErr with
  | some e => throw e
  | none => pure st.total

/-- Stage B as `Handler.finish` runs it: only the error of the collection is read. -/
def reclaimBlobs (g : BlobGC) (p : Payload) : Job Unit :=
  Act.lift ((reclaim u marshal g p).bind fun out =>
    .ret (match out.2 with
      | some e => .error e
      | none => .ok ()))

def finish (p : Prepared) : Job Unit := do
  let _ ← deletePass u p
  if p.payload.dryRun then pure ()
  else match h.blobGC with
    | none => pure ()
    | some g => reclaimBlobs u marshal g p.payload

def run (args : String) : Job Unit := do
  let p ← prepare u unmarshal h args
  finish u marshal h p

end PodmanApi.RegistryPrune

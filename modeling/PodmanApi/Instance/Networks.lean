/-
# PodmanApi.Instance.Networks — the host-wide names an instance claims.

An instance claims names beyond its own: the DNS names its pod answers to on shared networks, and its
ingress domains. This file has the checks that keep two instances of one host from claiming the same
name, `validateNetworkAliases` and `validateIngress`, and the join list a pod is played with.
-/
import PodmanApi.Instance.Calls

namespace PodmanApi.Instance

open GoStd Calls

/-! ## Requests -/

structure ApplyOptions where
  replace : Bool
  skipPull : Bool := false
  allowMissingSecrets : Bool := false
  restoreIntent : Option RestoreIntent := none
  supersededSlug : String := ""
  deriving DecidableEq, Repr

structure ApplyRequest where
  template : String
  slug : String
  parameters : GoMap Value
  secrets : GoMap String
  domains : List String
  networks : List Network
  deriving DecidableEq, Repr

/-! ## The networks a pod joins -/

def metaWithNetworks (m : Meta) (extra : List Network) : Meta :=
  { m with networks := m.networks ++ extra }

def mergeAliases (known more : List String) : List String :=
  more.foldl (fun known a => if known.contains a then known else known ++ [a]) known

/-- Add one membership to a join list: a new network at its end, a known one by its new aliases. -/
def addJoin (joins : List Network) (n : Network) : List Network :=
  if joins.any (·.name == n.name) then
    joins.map fun j =>
      if j.name == n.name then ⟨j.name, mergeAliases j.aliases n.aliases⟩ else j
  else joins ++ [n]

def networkArg (n : Network) : String :=
  if n.aliases.isEmpty then n.name else n.name ++ ":alias=" ++ join n.aliases ",alias="

def aliasProblem (subject name : String) : List String → List String → Option String
  | _, [] => none
  | seen, a :: rest =>
    if trimSpace a = "" then some (subject ++ ": " ++ quote name ++ ": aliases entries must not be empty")
    else if !validName a then
      some (subject ++ ": " ++ quote name ++ ": " ++ quote a ++ " is not a valid alias")
    else if seen.contains a then
      some (subject ++ ": " ++ quote name ++ ": alias " ++ quote a ++ " declared twice")
    else aliasProblem subject name (a :: seen) rest

/-- The first complaint `render.ValidateNetworkList` has. -/
def networkListProblem (subject : String) : List String → List Network → Option String
  | _, [] => none
  | seen, n :: rest =>
    if trimSpace n.name = "" then some (subject ++ ": entries must not be empty")
    else if !validName n.name then
      some (subject ++ ": " ++ quote n.name ++ " is not a valid network name")
    else if seen.contains n.name then some (subject ++ ": " ++ quote n.name ++ " declared twice")
    else (aliasProblem subject n.name [] n.aliases).or
      (networkListProblem subject (n.name :: seen) rest)

def validateNetworkList (nets : List Network) (subject : String) : Except Error Unit :=
  match networkListProblem subject [] nets with
  | none => .ok ()
  | some msg => .error (.text msg)

namespace Service

variable (s : Service)

def joinNetworks (m : Meta) : List Network :=
  ((if s.ingressEnabled && m.ingress.isSome then [Network.mk s.ingressNet []] else []) ++
    m.networks).foldl addJoin []

/-- One round of `ensureNetworks`. -/
def ensureNetwork (host : String) (out : List String) (j : Network) : Task (List String) := do
  Act.mapErr (fun e => .wrap ("ensure network " ++ quote j.name ++ " on " ++ host ++ ": ") e "")
    (Act.lift (issue (.networkEnsure host j.name)))
  pure (out ++ [networkArg j])

def ensureNetworks (host : String) (m : Meta) : Task (List String) :=
  (s.joinNetworks m).foldlM (ensureNetwork host) []

/-- `metaWithContainerNames`: a template stored before the field existed has its names extracted. -/
def metaWithContainerNames (t : Template) : Meta :=
  if t.metadata.containerNames.isSome || t.body == "" then t.metadata
  else
    match s.containerNames t.body t.metadata with
    | .ok literal => { t.metadata with containerNames := some literal }
    | .error _ => t.metadata

end Service

/-! ## Claims on shared-network DNS names -/

structure NetClaim where
  template : String
  slug : String
  joins : List Network
  containers : List String
  ingressNet : String
  deriving DecidableEq, Repr

inductive ClaimKind where
  | podName
  | declared
  | container
  deriving DecidableEq, Repr

/-- The texts of `kindPodName`, `kindAlias` and `kindContainer`. -/
def ClaimKind.string : ClaimKind → String
  | podName => "pod DNS name"
  | declared => "declared alias"
  | container => "container name"

structure ClaimName where
  name : String
  kind : ClaimKind
  deriving DecidableEq, Repr

/-- `claimedNames`: container names count everywhere but on the ingress network. -/
def NetClaim.claimedNames (c : NetClaim) (net : String) : Option (List ClaimName) :=
  (c.joins.find? (·.name == net)).map fun j =>
    ⟨podName c.template c.slug, .podName⟩ :: j.aliases.map (⟨·, .declared⟩) ++
      (if net != c.ingressNet then c.containers.map (⟨·, .container⟩) else [])

/-- The error that names both claimants of a DNS name. -/
def conflictError (subject peer : NetClaim) (net : String) (mine : ClaimKind) (n : ClaimName) : Error :=
  let err : Error := .wrap "" (.sentinel .networkNameConflict)
    (": networks: DNS name " ++ quote n.name ++ " on network " ++ quote net ++
      " is claimed by both " ++ subject.template ++ "/" ++ subject.slug ++ " (" ++ mine.string ++
      ") and " ++ peer.template ++ "/" ++ peer.slug ++ " (" ++ n.kind.string ++ ")")
  if mine == .container || n.kind == .container then
    .wrap "" err ("; podman registers every container name in a pod as an alias on each network it " ++
      "joins, so give the container a per-instance name (e.g. `name: " ++ n.name ++
      "-\x7b\x7b.slug\x7d\x7d`) or keep the two instances off this network")
  else err

def firstNameConflictFor (subject : NetClaim) (peers : List NetClaim) : Option Error :=
  subject.joins.findSome? fun j =>
    let mine := (subject.claimedNames j.name).getD []
    peers.findSome? fun p =>
      ((p.claimedNames j.name).getD []).findSome? fun n =>
        (mine.find? (·.name == n.name)).map fun own => conflictError subject p j.name own.kind n

def excluding (claims : List NetClaim) (tmpl : String) (slugs : List String) : List NetClaim :=
  claims.filter fun c => !(c.template == tmpl && slugs.contains c.slug)

namespace Service

variable (s : Service)

def newClaim (tmpl slug : String) (m : Meta) : NetClaim where
  template := tmpl
  slug := slug
  joins := s.joinNetworks m
  containers := m.containerNames.getD []
  ingressNet := s.ingressNet

/-- What the loop of `hostClaims` carries: the template cache and the claims so far. -/
structure ClaimScan where
  cache : GoMap Meta
  claims : List NetClaim

/-- One round of `hostClaims`. -/
def hostClaim (scan : ClaimScan) (k : SpecNetworks) : Task ClaimScan :=
  match GoMap.get? scan.cache k.template with
  | some m =>
    pure { scan with claims :=
      scan.claims ++ [s.newClaim k.template k.slug (metaWithNetworks m k.networks)] }
  | none => do
    match ← ask (.getTemplate k.template) with
    | .ok t =>
      let m := s.metaWithContainerNames t
      pure ⟨GoMap.set scan.cache k.template m,
        scan.claims ++ [s.newClaim k.template k.slug (metaWithNetworks m k.networks)]⟩
    | .error e =>
      -- an instance whose template is gone claims nothing
      if e.is .storeNotFound then pure scan else throw e

def hostClaims (host : String) (metaFor : GoMap Meta) : Task (List NetClaim) := do
  let keys ← Act.lift (issue (.listSpecNetworks host))
  let scan ← keys.foldlM s.hostClaim ⟨metaFor, []⟩
  pure scan.claims

def validateNetworkAliases (host : String) (req : ApplyRequest) (tmpl : Template)
    (opts : ApplyOptions) : Task Unit :=
  let own := s.metaWithContainerNames tmpl
  let mine := s.newClaim req.template req.slug (metaWithNetworks own req.networks)
  if mine.joins.isEmpty then pure ()
  else do
    let peers ← Act.mapErr
      (fun e => .wrap ("networks: check alias uniqueness on " ++ host ++ ": ") e "")
      (s.hostClaims host [(req.template, own)])
    match firstNameConflictFor mine
        (excluding peers req.template [req.slug, opts.supersededSlug]) with
    | none => pure ()
    | some e => throw (.wrap "" e (" on " ++ host))

/-! ## Claims on ingress domains -/

/-- One round of the uniqueness scan of `validateIngress`. -/
def checkDomains (host : String) (req : ApplyRequest) (opts : ApplyOptions) (k : SpecKey) : Task PUnit :=
  -- the instance being applied, or the one it supersedes, holds no domain against it
  if k.template == req.template && (k.slug == req.slug || k.slug == opts.supersededSlug) then
    pure ⟨⟩
  else do
    let other ← Act.mapErr
      (fun e => .wrap ("ingress: check domain uniqueness on " ++ host ++ ": ") e "")
      (Act.lift (issue (.getSpec host k.template k.slug)))
    match other.domains.find? fun d => req.domains.contains d with
    | none => pure ⟨⟩
    | some d => throw (.text ("ingress: domain " ++ quote d ++ " already claimed by " ++ k.template ++
        "/" ++ k.slug ++ " on " ++ host))

def ingressUnmanaged (host : String) : Bool :=
  match s.host host with
  | some h => h.ingressManaged == some false
  | none => false

def validateIngress (host : String) (req : ApplyRequest) (tmpl : Template) (opts : ApplyOptions) : Task Unit :=
  if req.domains.isEmpty then pure ()
  else do
    let who := "instance " ++ req.template ++ "/" ++ req.slug
    Act.require s.ingressEnabled (.text (who ++ " declares domains but ingress is disabled"))
    Act.require tmpl.metadata.ingress.isSome
      (.text (who ++ " declares domains but template " ++ quote req.template ++ " has no ingress"))
    Act.require (!s.ingressUnmanaged host)
      (.text (who ++ " declares domains but host " ++ host ++
        " is not ingress-managed (ingress_managed: false) -- its :443 belongs to a foreign Caddy" ++
        " config that will never route this domain"))
    let keys ← Act.mapErr
      (fun e => .wrap ("ingress: check domain uniqueness on " ++ host ++ ": ") e "")
      (Act.lift (issue (.listSpecKeys host)))
    forM keys (checkDomains host req opts)

end Service

end PodmanApi.Instance

/-
# PodmanApi.Instance.Apply — creating or replacing one instance.

`Apply` and `applyLocked` of `internal/instance/service.go`, cut where its effects change: `applyChecks`, after
which nothing has changed; the push of the template's secrets; and `applyCommit`, from the injector secrets to
the ingress routes.

Before the last the source overwrites every value of `req.Secrets` with the empty string IN PLACE, and with it
the caller's map. `applyLocked` therefore also returns what the caller's map holds afterwards.
-/
import PodmanApi.Instance.Networks

namespace PodmanApi.Instance

open GoStd Calls

/-! ## Secrets on a host -/

def wrapAsKubeSecret (c : Codec) (name key value : String) : String :=
  "apiVersion: v1\nkind: Secret\ntype: Opaque\nmetadata:\n  name: " ++ name ++ "\ndata:\n  " ++ key ++
    ": " ++ c.base64 value ++ "\n"

def dropSecret (host word name : String) : Task Unit := do
  match ← ask (.secretInspect host name) with
  | .ok _ =>
    Act.mapErr (fun e => .wrap ("remove existing " ++ word ++ " " ++ quote name ++ ": ") e "")
      (Act.lift (issue (.secretRemove host name)))
  | .error _ => pure ()

/-- Replace one secret: an existing one is removed first. Both push loops of `applyLocked` are this,
with their own word for the secret. -/
def replaceSecret (c : Codec) (host word name key value : String) : Task PUnit := do
  dropSecret host word name
  Act.mapErr (fun e => .wrap ("create " ++ word ++ " " ++ quote name ++ ": ") e "")
    (Act.lift (issue (.secretCreate host name (wrapAsKubeSecret c name key value))))

/-- One round of the loop over `req.Secrets`. -/
def pushSecret (c : Codec) (host tmpl slug : String) (p : String × String) : Task PUnit :=
  let name := instanceSecretName tmpl slug p.1
  replaceSecret c host "secret" name name p.2

def pushInjectorSecret (c : Codec) (host tmpl slug : String) (sec : InjectorSecret) : Task PUnit :=
  replaceSecret c host "injector secret" (instanceSecretName tmpl slug sec.name) sec.key sec.value

/-- What `req.Secrets[k] = ""`, for every key, leaves in the map. -/
def zeroed (secrets : GoMap String) : GoMap String :=
  secrets.map fun p => (p.1, "")

/-! ## The checks -/

def appliedVolumeNames (vols : List Volume) : List String :=
  vols.map (·.name)

def appliedVolumeMeta (vols : List Volume) : GoMap AppliedVolumeMarker :=
  vols.foldl (fun m v => GoMap.set m v.name ⟨v.backup, v.exclude⟩) []

def checkHostSecret (host name : String) : Task PUnit := do
  match ← ask (.secretInspect host name) with
  | .ok _ => pure ⟨⟩
  | .error e =>
    throw (if e.is .podmanNotFound then .wrap "" (.sentinel .hostSecretMissing) (": " ++ name)
      else .wrap ("inspect host secret " ++ quote name ++ ": ") e "")

/-- Whether the instance's pod exists; an inconclusive inspect is an error. -/
def podExists (host tmpl slug : String) : Task Bool := do
  match ← ask (.podInspect host (podName tmpl slug)) with
  | .ok _ => pure true
  | .error e => if e.is .podmanNotFound then pure false else throw (.wrap "inspect pod: " e "")

def portKey (protocol : String) (port : Int) : String :=
  protocol ++ "/" ++ toString port

/-- One round of the loop that collects the ports bound outside podman, one call per protocol. -/
def boundPorts (host : String) (bound : GoMap (List Int)) (p : PortSpec) : Task (GoMap (List Int)) :=
  if GoMap.has bound p.protocol then pure bound
  else do
    let ports ← Act.mapErr (fun e => .wrap ("host bound ports (" ++ p.protocol ++ "): ") e "")
      (Act.lift (issue (.hostBoundPorts host p.protocol)))
    pure (GoMap.set bound p.protocol ports)

/-- The first required port that is taken, with the error that says by whom. -/
def portConflict (selfPod : String) (used : List PortMapping) (bound : GoMap (List Int))
    (want : List PortSpec) : Option Error :=
  let busy := (used.filter (·.pod != selfPod)).map fun u => portKey u.protocol u.hostPort
  want.findSome? fun p =>
    let key := portKey p.protocol p.port
    if busy.contains key then
      some (.wrap "" (.sentinel .portConflict)
        (": " ++ key ++ " (bound by a podman-managed container)"))
    else if ((GoMap.get? bound p.protocol).getD []).contains p.port then
      some (.wrap "" (.sentinel .portConflict) (": " ++ key ++ " (bound on the host outside podman)"))
    else none

/-- The check of the host ports a `HostPortRequirer` asks for. -/
def checkRequiredPorts (host selfPod : String) (params : GoMap Value) : Task Unit := do
  let want ← Act.mapErr (fun e => .wrap "sidecar required host ports: " e "")
    (Act.lift (issue (.requiredHostPorts params)))
  if want.isEmpty then pure ()
  else do
    let used ← Act.mapErr (fun e => .wrap "ports in use: " e "")
      (Act.lift (issue (.usedHostPorts host)))
    let bound ← want.foldlM (boundPorts host) []
    match portConflict selfPod used bound want with
    | none => pure ()
    | some e => throw e

def pullImage (host ref : String) : Task PUnit :=
  Act.mapErr (fun e => .wrap "" (.sentinel .imagePull) (": " ++ ref ++ ": " ++ Error.string e))
    (Act.lift (issue (.imagePull host ref)))

/-- What the checks hand to the rest of `applyLocked`. -/
structure Prepared where
  tmpl : Template
  params : GoMap Value
  yaml : String
  injectorSecrets : List InjectorSecret
  deriving DecidableEq, Repr

namespace Service

variable (s : Service) (host : String)

def inject (req : ApplyRequest) (opts : ApplyOptions) (tmpl : Template)
    (params : GoMap Value) (yaml : String) : Task SidecarInjection :=
  if s.sidecar.isSome then
    Act.mapErr (fun e => .wrap "sidecar inject: " e "")
      (Act.lift (issue (.injectSidecars yaml tmpl.metadata params host req.slug opts.restoreIntent)))
  else pure ⟨yaml, []⟩

def checkRequest (req : ApplyRequest) (opts : ApplyOptions) : Task (Template × GoMap Value) := do
  let tmpl ← s.lookup host req.template
  let params := Render.pinSlug req.slug (Render.applyDefaults tmpl.metadata req.parameters)
  Act.mapErr (fun e => .wrap "validate: " e "")
    (Act.lift (pure (Render.validate tmpl.metadata params req.secrets opts.allowMissingSecrets)))
  Act.require (req.secrets.isEmpty || s.secretsEnabled) (.sentinel .secretsNeedKey)
  Act.mapErr (fun e => .wrap "validate: " e "")
    (Act.lift (pure (validateNetworkList req.networks "networks")))
  s.validateIngress host req tmpl opts
  s.validateNetworkAliases host req tmpl opts
  pure (tmpl, params)

def checkHost (req : ApplyRequest) (opts : ApplyOptions) (tmpl : Template) : Task Unit := do
  forM tmpl.metadata.perHostReferenced (checkHostSecret host)
  let found ← podExists host req.template req.slug
  Act.require (found || !((s.host host).map (·.drain)).getD false) (.sentinel .hostDraining)
  Act.require (opts.replace || !found) (.sentinel .instanceExists)

/-- The port check, for an injector that is a `HostPortRequirer`. -/
def checkSidecarPorts (req : ApplyRequest) (params : GoMap Value) : Task Unit :=
  if s.sidecar == some true then
    checkRequiredPorts host (podName req.template req.slug) params
  else pure ()

def pullImages (opts : ApplyOptions) (yaml : String) : Task Unit :=
  if opts.skipPull then pure ()
  else forM (Render.containerImages s.engine yaml) (pullImage host)

/-- Everything `applyLocked` does before its first mutation. -/
def applyChecks (req : ApplyRequest) (opts : ApplyOptions) : Task Prepared := do
  let (tmpl, params) ← s.checkRequest host req opts
  s.checkHost host req opts tmpl
  let yaml ← Act.mapErr (fun e => .wrap "render: " e "")
    (Act.lift (pure (s.engine.render tmpl.body params)))
  let inj ← s.inject host req opts tmpl params yaml
  s.checkSidecarPorts host req params
  Act.require (inj.secrets.isEmpty || s.secretsEnabled) (.sentinel .secretsNeedKey)
  s.pullImages host opts inj.yaml
  pure ⟨tmpl, params, inj.yaml, inj.secrets⟩

/-! ## The commit -/

def appliedSpec (req : ApplyRequest) (prep : Prepared) : Spec where
  host := host
  template := req.template
  slug := req.slug
  parameters := prep.params
  secrets := req.secrets
  injectorSecrets := prep.injectorSecrets
  domains := req.domains
  appliedVolumes := some (appliedVolumeNames prep.tmpl.metadata.volumes)
  appliedVolumeMeta := some (appliedVolumeMeta prep.tmpl.metadata.volumes)
  appliedNetworks := req.networks

/-- The recheck of the template and the write of the row, under the template read lock. -/
def persistSpec (sp : Spec) : Task Unit := do
  let _ ← ask .rlockTemplates
  match ← ask (.getTemplate sp.template) with
  | .error e =>
    let _ ← ask .runlockTemplates
    throw (if e.is .storeNotFound then .sentinel .unknownTemplate
      else .wrap "recheck template: " e "")
  | .ok _ =>
    let wrote ← ask (.putSpec sp)
    let _ ← ask .runlockTemplates
    Act.mapErr (fun e => .wrap "persist spec: " e "") (Act.lift (pure wrote))

/-- The ingress reconcile that ends an apply, a delete and a rename. -/
def refreshIngress : Task Unit :=
  if s.ingressEnabled then
    Act.mapErr (fun e => .wrap "" (.sentinel .ingressReconcileFailed) (": " ++ Error.string e))
      (Act.lift (issue (.reconcile host)))
  else pure ()

/-- Everything `applyLocked` does once the template's secrets are pushed. -/
def applyCommit (req : ApplyRequest) (opts : ApplyOptions) (prep : Prepared) : Task Unit := do
  forM prep.injectorSecrets (pushInjectorSecret s.codec host req.template req.slug)
  let networks ← s.ensureNetworks host (metaWithNetworks prep.tmpl.metadata req.networks)
  Act.mapErr (fun e => .wrap "play kube: " e "")
    (Act.lift (issue (.playKube host prep.yaml opts.replace networks)))
  persistSpec (appliedSpec host req prep)
  s.refreshIngress host

/-- The part of `applyLocked` that leaves the caller's secrets alone. -/
def applyPush (req : ApplyRequest) (opts : ApplyOptions) : Task Prepared := do
  let prep ← s.applyChecks host req opts
  forM req.secrets (pushSecret s.codec host req.template req.slug)
  pure prep

/-- `applyLocked`, with the secrets its caller's map holds on return. -/
def applyLocked (req : ApplyRequest) (opts : ApplyOptions) : Prog calls (Except Error Unit × GoMap String) := do
  match ← (s.applyPush host req opts).run with
  | .error e => pure (.error e, req.secrets)
  | .ok prep =>
    let r ← (s.applyCommit host req opts prep).run
    pure (r, zeroed req.secrets)

/-- `Apply`: the host lock only for a request that can create a host-wide claim. -/
def apply (req : ApplyRequest) (opts : ApplyOptions) : Prog calls (Except Error Unit × GoMap String) :=
  let body := locked (instanceLock host req.template req.slug) (s.applyLocked host req opts)
  if req.domains.isEmpty && req.networks.isEmpty then body else locked (.hostLocks host) body

end Service

/-! ## Footprints -/

inductive Checking : Op → Prop where
  | getTemplate (id : String) : Checking (.getTemplate id)
  | getSpec (host template slug : String) : Checking (.getSpec host template slug)
  | listSpecKeys (host : String) : Checking (.listSpecKeys host)
  | listSpecNetworks (host : String) : Checking (.listSpecNetworks host)
  | secretInspect (host name : String) : Checking (.secretInspect host name)
  | podInspect (host name : String) : Checking (.podInspect host name)
  | injectSidecars (yaml : String) (m : Meta) (params : GoMap Value) (host slug : String)
      (intent : Option RestoreIntent) : Checking (.injectSidecars yaml m params host slug intent)
  | requiredHostPorts (params : GoMap Value) : Checking (.requiredHostPorts params)
  | usedHostPorts (host : String) : Checking (.usedHostPorts host)
  | hostBoundPorts (host protocol : String) : Checking (.hostBoundPorts host protocol)
  | imagePull (host ref : String) : Checking (.imagePull host ref)

inductive Pushing (host : String) : Op → Prop where
  | secretInspect (name : String) : Pushing host (.secretInspect host name)
  | secretRemove (name : String) : Pushing host (.secretRemove host name)
  | secretCreate (name value : String) : Pushing host (.secretCreate host name value)

inductive Persisting (sp : Spec) : Op → Prop where
  | rlock : Persisting sp .rlockTemplates
  | getTemplate : Persisting sp (.getTemplate sp.template)
  | putSpec : Persisting sp (.putSpec sp)
  | runlock : Persisting sp .runlockTemplates

inductive Committing (host tmpl slug : String) : Op → Prop where
  | pushing {op : Op} (h : Pushing host op) : Committing host tmpl slug op
  | networkEnsure (name : String) : Committing host tmpl slug (.networkEnsure host name)
  | playKube (yaml : String) (replace : Bool) (networks : List String) :
      Committing host tmpl slug (.playKube host yaml replace networks)
  | rlock : Committing host tmpl slug .rlockTemplates
  | getTemplate (id : String) : Committing host tmpl slug (.getTemplate id)
  | putSpec (sp : Spec) (hhost : sp.host = host) (htmpl : sp.template = tmpl)
      (hslug : sp.slug = slug) : Committing host tmpl slug (.putSpec sp)
  | runlock : Committing host tmpl slug .runlockTemplates
  | reconcile : Committing host tmpl slug (.reconcile host)

inductive Applying (host tmpl slug : String) : Op → Prop where
  | checking {op : Op} (h : Checking op) : Applying host tmpl slug op
  | committing {op : Op} (h : Committing host tmpl slug op) : Applying host tmpl slug op
  | lock (m : Mutex) : Applying host tmpl slug (.lock m)
  | unlock (m : Mutex) : Applying host tmpl slug (.unlock m)

section Footprints

variable {s : Service} {host tmpl slug : String} {req : ApplyRequest} {opts : ApplyOptions} {U : Op → Prop}

theorem issues_lift_pure {α : Type} {r : Except Error α} : (Act.lift (pure r) : Task α).run.Issues U :=
  issues_ret r

theorem dropSecret_issues {name : String} (word : String) (hi : U (.secretInspect host name))
    (hr : U (.secretRemove host name)) : (dropSecret host word name).run.Issues U :=
  (issues_ask hi).cases (fun _ => .mapErr (issues_perform.2 hr)) fun _ => issues_pure

theorem replaceSecret_issues (c : Codec) (word name key value : String) :
    (replaceSecret c host word name key value).run.Issues (Pushing host) := by
  refine (dropSecret_issues word (.secretInspect name) (.secretRemove name)).andThen fun _ => ?_
  exact .mapErr (issues_perform.2 (.secretCreate name _))

theorem checkHostSecret_issues (name : String) : (checkHostSecret host name).run.Issues Checking :=
  (issues_ask (.secretInspect host name)).cases (fun _ => issues_ret _) fun _ => issues_ret _

theorem podExists_issues : (podExists host tmpl slug).run.Issues Checking :=
  (issues_ask (.podInspect host _)).cases (fun _ => issues_pure) fun _ => issues_pure_or_throw

theorem checkRequiredPorts_issues (selfPod : String) (params : GoMap Value) :
    (checkRequiredPorts host selfPod params).run.Issues Checking := by
  refine .andThen (.mapErr (issues_perform.2 (.requiredHostPorts params))) fun want => ?_
  split
  · exact issues_pure
  refine .andThen (.mapErr (issues_perform.2 (.usedHostPorts host))) fun used => ?_
  refine (issues_foldlM want (fun bound p _ => ?_) _).andThen fun bound => ?_
  · unfold boundPorts
    split
    · exact issues_pure
    · exact .andThen (.mapErr (issues_perform.2 (.hostBoundPorts host _))) fun _ => issues_pure
  · split <;> exact issues_ret _

theorem hostClaims_issues (metaFor : GoMap Meta) : (s.hostClaims host metaFor).run.Issues Checking := by
  refine .andThen (issues_perform.2 (.listSpecNetworks host)) fun keys => ?_
  refine (issues_foldlM keys (fun scan k _ => ?_) _).andThen fun _ => issues_pure
  unfold Service.hostClaim
  split
  · exact issues_pure
  exact (issues_ask (.getTemplate k.template)).cases (fun _ => issues_pure) fun _ => issues_pure_or_throw

theorem validateNetworkAliases_issues (t : Template) :
    (s.validateNetworkAliases host req t opts).run.Issues Checking := by
  unfold Service.validateNetworkAliases
  dsimp only
  split
  · exact issues_pure
  refine (hostClaims_issues _).mapErr.andThen fun peers => ?_
  split <;> exact issues_ret _

theorem validateIngress_issues (t : Template) : (s.validateIngress host req t opts).run.Issues Checking := by
  unfold Service.validateIngress
  split
  · exact issues_pure
  refine issues_require.andThen fun _ => issues_require.andThen fun _ =>
    issues_require.andThen fun _ => ?_
  refine .andThen (.mapErr (issues_perform.2 (.listSpecKeys host))) fun keys => ?_
  refine issues_forM keys fun k _ => ?_
  unfold Service.checkDomains
  split
  · exact issues_pure
  refine .andThen (.mapErr (issues_perform.2 (.getSpec host _ _))) fun other => ?_
  split <;> exact issues_ret _

theorem checkRequest_issues : (s.checkRequest host req opts).run.Issues Checking := by
  refine (issues_lookup (.getTemplate _)).andThen fun t => ?_
  refine issues_lift_pure.mapErr.andThen fun _ => issues_require.andThen fun _ => ?_
  refine issues_lift_pure.mapErr.andThen fun _ => ?_
  exact (validateIngress_issues t).andThen fun _ => (validateNetworkAliases_issues t).andThen
    fun _ => issues_pure

theorem checkHost_issues (t : Template) : (s.checkHost host req opts t).run.Issues Checking := by
  refine (issues_forM _ fun name _ => checkHostSecret_issues name).andThen fun _ => ?_
  exact podExists_issues.andThen fun _ => issues_require.andThen fun _ => issues_require

theorem checkSidecarPorts_issues (params : GoMap Value) :
    (s.checkSidecarPorts host req params).run.Issues Checking := by
  unfold Service.checkSidecarPorts
  split
  · exact checkRequiredPorts_issues _ params
  · exact issues_pure

theorem pullImages_issues (yaml : String) : (s.pullImages host opts yaml).run.Issues Checking := by
  unfold Service.pullImages
  split
  · exact issues_pure
  · exact issues_forM _ fun ref _ =>
      .mapErr (issues_perform.2 (.imagePull host ref))

theorem inject_issues {t : Template} {params : GoMap Value} {yaml : String} :
    (s.inject host req opts t params yaml).run.Issues Checking := by
  unfold Service.inject
  split
  · exact .mapErr (issues_perform.2 (.injectSidecars _ _ _ _ _ _))
  · exact issues_pure

theorem applyChecks_issues : (s.applyChecks host req opts).run.Issues Checking := by
  refine checkRequest_issues.andThen fun ⟨t, params⟩ => ?_
  refine (checkHost_issues t).andThen fun _ => issues_lift_pure.mapErr.andThen fun yaml => ?_
  refine inject_issues.andThen fun inj => (checkSidecarPorts_issues params).andThen fun _ => ?_
  refine issues_require.andThen fun _ => ?_
  exact (pullImages_issues inj.yaml).andThen fun _ => issues_pure

theorem ensureNetworks_issues (m : Meta) (h : ∀ name, U (.networkEnsure host name)) :
    (s.ensureNetworks host m).run.Issues U := by
  refine issues_foldlM _ (fun out j _ => ?_) _
  exact .andThen (.mapErr (issues_perform.2 (h j.name))) fun _ => issues_pure

theorem persistSpec_issues (sp : Spec) : (Service.persistSpec sp).run.Issues (Persisting sp) := by
  refine (issues_ask .rlock).andThen fun _ => ?_
  refine (issues_ask .getTemplate).andThen fun r => ?_
  cases r with
  | error e => exact (issues_ask .runlock).andThen fun _ => issues_throw
  | ok t =>
    refine (issues_ask .putSpec).andThen fun wrote => ?_
    exact (issues_ask .runlock).andThen fun _ => issues_lift_pure.mapErr

theorem Persisting.committing {sp : Spec} {op : Op} (h : Persisting sp op) :
    Committing sp.host sp.template sp.slug op := by
  cases h with
  | rlock => exact .rlock
  | getTemplate => exact .getTemplate _
  | putSpec => exact .putSpec sp rfl rfl rfl
  | runlock => exact .runlock

theorem refreshIngress_issues (h : U (.reconcile host)) : (s.refreshIngress host).run.Issues U := by
  unfold Service.refreshIngress
  split
  · exact .mapErr (issues_perform.2 h)
  · exact issues_pure

theorem applyCommit_issues (prep : Prepared) :
    (s.applyCommit host req opts prep).run.Issues (Committing host req.template req.slug) := by
  refine (issues_forM _ fun sec _ => ?_).andThen fun _ => ?_
  · exact (replaceSecret_issues _ _ _ _ _).mono fun op h => .pushing h
  refine (ensureNetworks_issues _ .networkEnsure).andThen fun networks => ?_
  refine .andThen (.mapErr (issues_perform.2 (.playKube _ _ _))) fun _ => ?_
  exact ((persistSpec_issues (Service.appliedSpec host req prep)).mono fun op h => h.committing).andThen
    fun _ => refreshIngress_issues .reconcile

theorem applyPush_issues (hcheck : ∀ op, Checking op → U op) (hpush : ∀ op, Pushing host op → U op) :
    (s.applyPush host req opts).run.Issues U := by
  refine (applyChecks_issues.mono hcheck).andThen fun prep => ?_
  refine (issues_forM _ fun p _ => ?_).andThen fun _ => issues_pure
  exact (replaceSecret_issues _ _ _ _ _).mono hpush

theorem apply_issues : (s.apply host req opts).Issues (Applying host req.template req.slug) := by
  have hlocked : (s.applyLocked host req opts).Issues (Applying host req.template req.slug) := by
    refine (applyPush_issues (fun _ => .checking) fun _ h => .committing (.pushing h)).bind fun r => ?_
    cases r with
    | error e => exact issues_ret _
    | ok prep =>
      exact ((applyCommit_issues prep).mono fun op h => .committing h).bind fun r => issues_ret _
  unfold Service.apply
  split
  · exact issues_locked (.lock _) (.unlock _) hlocked
  · exact issues_locked (.lock _) (.unlock _) (issues_locked (.lock _) (.unlock _) hlocked)

theorem applyPush_prepares {σ : Type} {S : Calls.Service calls σ} {x : σ} {T : σ → Template → Prop}
    (hkeep : ∀ t x op r y, S x op r y → T x t → T y t)
    (hlookup : Ends S (OnOk T) (s.lookup host req.template).run x) : Ends S (OnOk fun y prep => T y prep.tmpl ∧
      prep.params = Render.pinSlug req.slug (Render.applyDefaults prep.tmpl.metadata req.parameters))
      (s.applyPush host req opts).run x := by
  have hrequest : Ends S (OnOk fun y p => T y p.1 ∧
      p.2 = Render.pinSlug req.slug (Render.applyDefaults p.1.metadata req.parameters))
      (s.checkRequest host req opts).run x := by
    refine hlookup.thenOk fun y t ht => ?_
    refine ensures_keep_onOk (hkeep t) ht fun _ _ ht => ensures_keep_onOk (hkeep t) ht fun _ _ ht => ?_
    refine ensures_keep_onOk (hkeep t) ht fun _ _ ht => ensures_keep_onOk (hkeep t) ht fun _ _ ht => ?_
    exact ensures_keep_onOk (hkeep t) ht fun _ _ ht => ensures_pure_onOk ⟨ht, rfl⟩
  refine .thenOk (P := fun y prep => T y prep.tmpl ∧
      prep.params = Render.pinSlug req.slug (Render.applyDefaults prep.tmpl.metadata req.parameters))
    (hrequest.thenOk fun y p hp => ?_) fun y prep hprep =>
      ensures_keep_onOk (hkeep prep.tmpl) hprep.1 fun _ _ ht => ensures_pure_onOk ⟨ht, hprep.2⟩
  obtain ⟨t, params⟩ := p
  obtain ⟨ht, hparams⟩ := hp
  refine ensures_keep_onOk (hkeep t) ht fun _ _ ht => ensures_keep_onOk (hkeep t) ht fun _ _ ht => ?_
  refine ensures_keep_onOk (hkeep t) ht fun _ _ ht => ensures_keep_onOk (hkeep t) ht fun _ _ ht => ?_
  refine ensures_keep_onOk (hkeep t) ht fun _ _ ht => ensures_keep_onOk (hkeep t) ht fun _ _ ht => ?_
  exact ensures_pure_onOk ⟨ht, hparams⟩

theorem applyPush_host {σ : Type} {S : Calls.Service calls σ} {x : σ} :
    Ends S (OnOk fun _ _ => (s.host host).isSome = true) (s.applyPush host req opts).run x :=
  (applyPush_prepares (fun _ _ _ _ _ _ h => h) lookup_host).imp fun _ _ h prep hprep => (h prep hprep).1

end Footprints

end PodmanApi.Instance

/-
# PodmanApi.Instance.Rename — moving an instance to another slug of the same host.

`CheckRenameable` and `Rename` of `internal/instance/rename.go`. The new slug is deployed while the
old row is still stored, so that a failed deploy can fall back to a registered instance; only after
the new pod has become ready is the old row deleted.
-/
import PodmanApi.Instance.Lifecycle

namespace PodmanApi.Instance

open GoStd Calls

/-- `RenameRequest`. A nil `Domains` is `none`. -/
structure RenameRequest where
  newSlug : String
  domains : Option (List String)
  keepOldStandby : Bool
  deriving DecidableEq, Repr

/-- The domains of the renamed instance: those requested, or else those it has. -/
def RenameRequest.effectiveDomains (req : RenameRequest) (spec : Spec) : List String :=
  req.domains.getD spec.domains

/-- A row that must exist; its absence is an absent instance. -/
def requireSpec (host tmpl slug : String) : Task Unit := do
  let _ ← Act.mapErr (fun e => if e.is .storeNotFound then .sentinel .instanceNotFound else e)
    (Act.lift (issue (.getSpec host tmpl slug)))
  pure ()

def requireNoPod (host tmpl slug : String) : Task Unit := do
  match ← ask (.podInspect host (podName tmpl slug)) with
  | .ok _ => throw (.wrap "" (.sentinel .instanceExists)
      (": instance " ++ tmpl ++ "/" ++ slug ++ " already exists on " ++ host))
  | .error e => if e.is .podmanNotFound then pure () else throw (.wrap "inspect new slug pod: " e "")

def requireNoSpec (host tmpl slug : String) : Task Unit := do
  match ← ask (.getSpec host tmpl slug) with
  | .ok _ => throw (.wrap "" (.sentinel .instanceExists)
      (": instance " ++ tmpl ++ "/" ++ slug ++ " already has a stored spec"))
  | .error e => if e.is .storeNotFound then pure () else throw (.wrap "check new slug spec: " e "")

def forgetOldSpec (host tmpl slug : String) : Task Unit := do
  match ← ask (.deleteSpec host tmpl slug) with
  | .ok _ => pure ()
  | .error e => if e.is .storeNotFound then pure () else throw (.wrap "delete old spec: " e "")

def compareManifests (name : String) (src dst : Manifest) : Task Unit :=
  match Manifest.firstDiff src dst with
  | none => pure ()
  | some diff => throw (.wrap "" (.sentinel .volumeIntegrity)
      (": volume " ++ quote name ++ " differs at " ++ quote diff))

namespace Service

variable (s : Service) (host tmpl slug : String)

def checkRenameable (req : RenameRequest) : Task Unit := do
  Act.require (req.newSlug != "") (.text "new_slug is required")
  Act.require (req.newSlug != slug) (.sentinel .newSlugSameAsOld)
  Act.require (validName req.newSlug)
    (.text ("new_slug " ++ quote req.newSlug ++
      " is invalid: must match ^[a-z0-9][a-z0-9-]\x7b0,38\x7d[a-z0-9]$"))
  let _ ← s.lookup host tmpl
  requireSpec host tmpl slug
  requireNoPod host tmpl req.newSlug
  requireNoSpec host tmpl req.newSlug

def verifyRenamed (host newName : String) (src : Manifest) : Task Unit :=
  if s.verifyVolumes then do
    let dst ← Act.mapErr (fun e => .wrap ("verify volume " ++ quote newName ++ ": re-export: ") e "")
      (s.volumeManifest host newName)
    compareManifests newName src dst
  else pure ()

/-- One round of the volume loop of `Rename`. The short name is what follows the stem of the volume
the host has listed. -/
def renameVolume (host tmpl slug newSlug : String) (v : HostVolume) : Task PUnit := do
  let short := sliceFrom v.name (volumeNameStem tmpl slug).toList.length
  let newName := volumeName tmpl newSlug short
  Act.mapErr (fun e => .wrap ("create volume " ++ quote newName ++ ": ") e "")
    (Act.lift (issue (.volumeCreate host newName)))
  let src ← Act.mapErr
    (fun e => .wrap ("copy volume " ++ quote v.name ++ " -> " ++ quote newName ++ ": ") e "")
    (s.copyVolumeAs host host v.name newName)
  s.verifyRenamed host newName src

def renameApply (tmpl : String) (req : RenameRequest) (spec : Spec) : ApplyRequest where
  template := tmpl
  slug := req.newSlug
  parameters := GoMap.set spec.parameters "slug" (.string req.newSlug)
  secrets := spec.secrets
  domains := req.effectiveDomains spec
  networks := spec.appliedNetworks

def renameOptions (slug : String) : ApplyOptions where
  replace := false
  supersededSlug := slug

def renameRollback (host tmpl slug newSlug : String) : Task Unit := do
  let _ ← Act.attempt (s.start host tmpl slug)
  let _ ← Act.attempt (s.delete host tmpl newSlug { pruneVolumes := true, pruneSecrets := true })
  pure ()

/-- A step of a rename whose failure is compensated and then reported under `what`. -/
def renameOrRollback (host tmpl slug newSlug what : String) (step : Task Unit) : Task Unit := do
  match ← Act.attempt step with
  | .ok _ => pure ()
  | .error e =>
    s.renameRollback host tmpl slug newSlug
    throw (.wrap what e "")

def renameSpecs (req : RenameRequest) (spec : Spec) : Task Unit := do
  forgetOldSpec host tmpl slug
  let applied ← Act.mapErr (fun e => .wrap "reload new spec: " e "")
    (Act.lift (issue (.getSpec host tmpl req.newSlug)))
  Act.mapErr (fun e => .wrap "persist new spec: " e "")
    (Act.lift (issue (.putSpec { applied with domains := req.effectiveDomains spec })))

def renameReap (req : RenameRequest) : Task Unit :=
  if req.keepOldStandby then pure ()
  else Act.mapErr (fun e => .wrap "reap old instance: " e "")
    (s.delete host tmpl slug { pruneVolumes := true, pruneSecrets := true })

/-- `Rename`, under the migrate lock. -/
def renameLocked (req : RenameRequest) : Task Unit := do
  s.checkRenameable host tmpl slug req
  let spec ← Act.lift (issue (.getSpec host tmpl slug))
  Act.mapErr (fun e => .wrap "stop instance: " e "") (s.stop host tmpl slug)
  let vols ← Act.mapErr (fun e => .wrap "list volumes: " e "") (s.instanceVolumes host tmpl slug)
  forM vols (s.renameVolume host tmpl slug req.newSlug)
  s.renameOrRollback host tmpl slug req.newSlug "apply new slug: "
    (Act.lift (s.apply host (renameApply tmpl req spec) (renameOptions slug) >>= fun out => pure out.1))
  s.renameOrRollback host tmpl slug req.newSlug "verify new slug: "
    (s.waitRunning host tmpl req.newSlug)
  renameSpecs host tmpl slug req spec
  s.refreshIngress host
  s.renameReap host tmpl slug req

def rename (req : RenameRequest) : Task Unit :=
  withLock (migrateLock tmpl slug) (s.renameLocked host tmpl slug req)

end Service

theorem sliceFrom_volumeName (tmpl slug short : String) :
    sliceFrom (volumeName tmpl slug short) (volumeNameStem tmpl slug).toList.length = short := by
  unfold sliceFrom volumeName
  rw [String.toList_append, List.drop_left, String.ofList_toList]

/-! ## Footprints -/

section Footprints

variable {s : Service} {host tmpl slug : String} {req : RenameRequest} {U : Op → Prop}

theorem requireNoPod_issues (h : U (.podInspect host (podName tmpl slug))) :
    (requireNoPod host tmpl slug).run.Issues U :=
  (issues_ask h).cases (fun _ => issues_throw) fun _ => issues_pure_or_throw

theorem requireNoSpec_issues (h : U (.getSpec host tmpl slug)) : (requireNoSpec host tmpl slug).run.Issues U :=
  (issues_ask h).cases (fun _ => issues_throw) fun _ => issues_pure_or_throw

theorem checkRenameable_issues (ht : U (.getTemplate tmpl)) (hs : ∀ slug, U (.getSpec host tmpl slug))
    (hp : U (.podInspect host (podName tmpl req.newSlug))) :
    (s.checkRenameable host tmpl slug req).run.Issues U := by
  refine issues_require.andThen fun _ => issues_require.andThen fun _ =>
    issues_require.andThen fun _ => (issues_lookup ht).andThen fun _ => ?_
  refine .andThen ?_ fun _ => (requireNoPod_issues hp).andThen fun _ =>
    requireNoSpec_issues (hs _)
  exact .andThen (.mapErr (issues_perform.2 (hs _))) fun _ => issues_pure

theorem forgetOldSpec_issues (h : U (.deleteSpec host tmpl slug)) :
    (forgetOldSpec host tmpl slug).run.Issues U :=
  (issues_ask h).cases (fun _ => issues_pure) fun _ => issues_pure_or_throw

theorem renameVolume_issues {newSlug : String} {v : HostVolume} (hcreate : ∀ name, U (.volumeCreate host name))
    (hexport : ∀ name, U (.volumeExport host name)) (himport : ∀ name content, U (.volumeImport host name content)) :
    (s.renameVolume host tmpl slug newSlug v).run.Issues U := by
  refine .andThen (.mapErr (issues_perform.2 (hcreate _))) fun _ => ?_
  refine (copyStream_issues (hexport _) (himport _)).mapErr.andThen fun src => ?_
  unfold Service.verifyRenamed
  split
  · refine (volumeManifest_issues (hexport _)).mapErr.andThen fun dst => ?_
    unfold compareManifests
    split <;> exact issues_ret _
  · exact issues_pure

theorem checkRenameable_host {σ : Type} {S : Calls.Service calls σ} {x : σ} :
    Ends S (OnOk fun _ _ => (s.host host).isSome = true) (s.checkRenameable host tmpl slug req).run x := by
  refine ensures_skip_onOk fun _ _ => ensures_skip_onOk fun _ _ => ensures_skip_onOk fun _ _ => ?_
  exact lookup_host.thenOk fun _ _ hhost => (ensures_any _).imp fun _ _ _ _ _ => hhost

end Footprints

end PodmanApi.Instance

/-
# PodmanApi.Instance.Restore — putting a backup back in place of a running instance.

`CheckRestorable`, `Restore`, `restoreVolume`, `loadManifest` and `liveRestore` of `internal/instance/backup.go`. A
snapshot restore reads the stored row, tears the instance down with `Delete`, recreates the volumes and
re-applies what it has read. When a later step fails it writes the row back from its own copy, whose secrets map
it has handed to `Apply`.
-/
import PodmanApi.Instance.Lifecycle

namespace PodmanApi.Instance

open GoStd Calls

/-! ## Blobs -/

def backupBlobKey (host tmpl slug id volume : String) : String :=
  host ++ "/" ++ tmpl ++ "/" ++ slug ++ "/" ++ id ++ "/" ++ volume ++ ".tar"

def manifestBlobKey (host tmpl slug id volume : String) : String :=
  host ++ "/" ++ tmpl ++ "/" ++ slug ++ "/" ++ id ++ "/" ++ volume ++ ".manifest.json.gz"

variable {id : String}

theorem manifestBlobKey_ne {host tmpl slug v w : String} :
    manifestBlobKey host tmpl slug id v ≠ backupBlobKey host tmpl slug id w := by
  have hlast : ∀ a b : String, a ++ ".manifest.json.gz" ≠ b ++ ".tar" := by
    intro a b h
    have hchar := congrArg (fun k => k.toList.getLast?) h
    simp [List.getLast?_append] at hchar
  exact hlast _ _

def tarKey (b : Backup) (bv : BackupVolume) : String :=
  backupBlobKey b.host b.template b.slug b.id bv.name

/-- Open a volume's tar; `opening` is the caller's text for a failure other than absence. -/
def openTar (b : Backup) (bv : BackupVolume) (opening : String) : Task Bytes :=
  Act.mapErr (fun e =>
      if e.is .fileNotExist then
        .wrap "" (.sentinel .backupNotRestorable) (": blob for volume " ++ quote bv.name ++ " missing")
      else .wrap opening e "")
    (Act.lift (issue (.blobGet (tarKey b bv))))

/-- One round of `preflightBlobs`. -/
def preflightBlob (b : Backup) (bv : BackupVolume) : Task PUnit := do
  let _ ← openTar b bv ("open blob for volume " ++ quote bv.name ++ ": ")
  pure ⟨⟩

def preflightBlobs (b : Backup) : Task Unit :=
  forM b.volumes (preflightBlob b)

/-- `loadManifest`: inline in an old row, in a blob checked against the row's digest in a new one. -/
def loadManifest (c : Codec) (b : Backup) (bv : BackupVolume) : Task Manifest :=
  if bv.manifest.isEmpty then
    if bv.manifestSHA256 == "" then
      throw (.text ("no manifest recorded for volume " ++ quote bv.name ++
        " (neither inline nor blob reference)"))
    else do
      let zipped ← Act.mapErr (fun e => .wrap "open manifest blob: " e "")
        (Act.lift (issue (.blobGet (manifestBlobKey b.host b.template b.slug b.id bv.name))))
      let raw ← Act.lift (pure (c.gunzip zipped))
      Act.require (c.sha256 raw == bv.manifestSHA256)
        (.text ("manifest blob for volume " ++ quote bv.name ++
          " does not match recorded sha256 (want " ++ bv.manifestSHA256 ++ ", got " ++
          c.sha256 raw ++ ")"))
      Act.mapErr (fun e => .wrap "manifest blob corrupt: " e "") (Act.lift (pure (c.unmarshal raw)))
  else
    Act.mapErr (fun e => .wrap "stored manifest corrupt: " e "")
      (Act.lift (pure (c.unmarshal bv.manifest)))

/-- The removal before a volume is recreated; a volume that is not there is ordinary. -/
def clearVolume (host name : String) : Task Unit := do
  match ← ask (.volumeRemove host name true) with
  | .ok _ => pure ()
  | .error e => if e.is .podmanNotFound then pure () else throw (.wrap "remove before restore: " e "")

namespace Service

variable (s : Service) (b : Backup)

/-- `restoreVolume`: the tar is opened before anything is destroyed. -/
def restoreVolume (bv : BackupVolume) : Task Unit := do
  let tar ← openTar b bv "open blob: "
  clearVolume b.host bv.name
  Act.mapErr (fun e => .wrap "create: " e "") (Act.lift (issue (.volumeCreate b.host bv.name)))
  Act.mapErr (fun e => .wrap "import: " e "") (Act.lift (issue (.volumeImport b.host bv.name tar)))
  let want ← Act.mapErr (fun e => .wrap "load manifest: " e "") (loadManifest s.codec b bv)
  let got ← Act.mapErr (fun e => .wrap "re-export for verify: " e "") (s.volumeManifest b.host bv.name)
  match Manifest.firstDiff (want.filter fun p => !excludePath p.1) got with
  | none => pure ()
  | some diff => throw (.wrap "" (.sentinel .volumeIntegrity)
      (": volume " ++ quote bv.name ++ " differs at " ++ quote diff))

/-- One round of the volume loop of `restorePostTeardown`. -/
def restoreVolumeNamed (bv : BackupVolume) : Task PUnit :=
  Act.mapErr (fun e => .wrap ("restore volume " ++ quote bv.name ++ ": ") e "") (s.restoreVolume b bv)

/-! ## Admission -/

def getBackup (id : String) : Task Backup :=
  Act.mapErr (fun e =>
      if e.is .storeNotFound then .wrap "" (.sentinel .backupNotFound) (": " ++ id) else e)
    (Act.lift (issue (.getBackup id)))

def checkRestorable (id : String) : Task Backup := do
  Act.require s.blobs (.sentinel .backupsDisabled)
  let b ← getBackup id
  Act.require (b.state == .complete)
    (.wrap "" (.sentinel .backupNotRestorable) (": state " ++ b.state.string))
  Act.require (s.host b.host).isSome (.sentinel .unknownHost)
  Act.require (!((s.host b.host).map (·.drain)).getD false) (.sentinel .hostDraining)
  let _ ← Act.mapErr (fun e => if e.is .storeNotFound then .sentinel .instanceNotFound else e)
    (Act.lift (issue (.getSpec b.host b.template b.slug)))
  preflightBlobs b
  pure b

/-! ## Restoring into a running container -/

/-- The argv of a live restore: the staged path first, then the instance's parameters. -/
def renderRestoreArgv (lb : LiveBackup) (params : GoMap Value) (argv : List String) :
    Except Error (List String) :=
  argv.mapM fun a =>
    (s.renderBody (a.replace "\x7bstaged_path\x7d" lb.restoreStagePath) params).mapError fun e =>
      .wrap "render live_backup argv: " e ""

/-- `runExecStep`; an empty argv is no step. -/
def runExecStep (host container step : String) (argv : Except Error (List String)) : Task Unit :=
  match argv with
  | .error e => throw e
  | .ok [] => pure ()
  | .ok cmd => do
    let res ← Act.mapErr (fun e => .wrap (step ++ ": exec in " ++ container ++ ": ") e "")
      (Act.lift (issue (.containerExec host container cmd)))
    Act.require (res.exitCode == 0)
      (.text (step ++ ": command exited " ++ toString res.exitCode ++ " in " ++ container ++ ": " ++
        res.output))

/-- The `live_backup` declaration of the volume a live backup covers. -/
def liveDeclaration (bv : BackupVolume) (t : Template) : Option LiveBackup :=
  (t.metadata.volumes.find? fun v => volumeName b.template b.slug v.name == bv.name).bind (·.liveBackup)

/-- The staging and the three exec steps of `liveRestore`. -/
def liveRestoreInto (bv : BackupVolume) (spec : Spec) (lb : LiveBackup) : Task Unit := do
  let container := podName b.template b.slug ++ "-" ++ lb.container
  let run := fun step argv =>
    runExecStep b.host container step (s.renderRestoreArgv lb spec.parameters argv)
  let tar ← Act.mapErr (fun e => .wrap "fetch backup blob: " e "")
    (Act.lift (issue (.blobGet (tarKey b bv))))
  run "live-restore-pre-exec" lb.restorePreExec
  Act.mapErr (fun e => .wrap ("stage backup into " ++ lb.restoreStagePath ++ ": ") e "")
    (Act.lift (issue (.containerCopyIn b.host container lb.restoreStagePath tar)))
  Act.mapErr (fun e => .wrap ("RECOVERY REQUIRED: live restore of " ++ b.template ++ "/" ++ b.slug ++
      " failed after staging — the target may be partially restored and its scheduler/maintenance" ++
      " state has NOT been resumed: ") e "")
    (run "live-restore-exec" lb.restoreExec)
  Act.mapErr (fun e => .wrap ("restore_exec succeeded but restore_post_exec failed — the restore data" ++
      " is in place but the app may still be paused: ") e "")
    (run "live-restore-post-exec" lb.restorePostExec)

def liveRestore : Task Unit :=
  match b.volumes with
  | [bv] => do
    let t ← s.lookup b.host b.template
    let spec ← Act.lift (issue (.getSpec b.host b.template b.slug))
    let obs ← s.get b.host b.template b.slug
    Act.require (obs.status == "Running" || obs.status == "Degraded")
      (.text ("live-mode restore requires " ++ b.template ++ "/" ++ b.slug ++ " to be running on " ++
        b.host ++ " (it is " ++ quote obs.status ++
        ") — this mode restores into a live instance, never onto an empty one"))
    match liveDeclaration b bv t with
    | none => throw (.text ("template " ++ b.template ++
        " no longer declares live_backup for the volume this backup covers"))
    | some lb => s.liveRestoreInto b bv spec lb
  | _ => throw (.text ("live-mode backup " ++ b.id ++ " does not have exactly one volume"))

/-! ## Restoring from a snapshot -/

def restoreRequest (spec : Spec) : ApplyRequest where
  template := b.template
  slug := b.slug
  parameters := spec.parameters
  secrets := spec.secrets
  domains := spec.domains
  networks := spec.appliedNetworks

/-- `restorePostTeardown`, with the secrets that `spec.Secrets` holds afterwards. -/
def restorePostTeardown (spec : Spec) : Prog calls (Except Error Unit × GoMap String) := do
  match ← (forM b.volumes (s.restoreVolumeNamed b) : Task PUnit).run with
  | .error e => pure (.error e, spec.secrets)
  | .ok _ =>
    let out ← s.apply b.host (restoreRequest b spec) { replace := false }
    match out.1 with
    | .error e => pure (.error (.wrap "apply: " e ""), out.2)
    | .ok _ =>
      let r ← (Act.mapErr (fun e => .wrap "verify: " e "")
        (s.waitRunning b.host b.template b.slug)).run
      pure (r, out.2)

/-- The teardown: a `Delete` that keeps volumes and secrets and tolerates an absent pod. -/
def teardown : Task Unit := do
  match ← Act.attempt (s.delete b.host b.template b.slug {}) with
  | .ok _ => pure ()
  | .error e => if e.is .instanceNotFound then pure () else throw (.wrap "teardown: " e "")

/-- A snapshot restore, once the backup is admitted under the lock. -/
def snapshotRestore : Task Unit := do
  let spec ← Act.lift (issue (.getSpec b.host b.template b.slug))
  s.teardown b
  let out ← Act.embed (s.restorePostTeardown b spec)
  match out.1 with
  | .ok _ => pure ()
  | .error e =>
    -- the map behind `spec.Secrets` is the one `Apply` was given
    let _ ← ask (.putSpec { spec with secrets := out.2 })
    throw e

/-- `Restore`, under the migrate lock. -/
def restoreLocked (id : String) : Task Unit := do
  let b ← s.checkRestorable id
  if b.mode == "live" then s.liveRestore b else s.snapshotRestore b

def restore (id : String) : Task Unit := do
  let b ← s.checkRestorable id
  withLock (migrateLock b.template b.slug) (s.restoreLocked id)

end Service

def exampleBackup : Backup where
  id := "b1"
  host := "engine-1"
  template := "web"
  slug := "shop"
  state := .complete
  volumes := []
  image := ""
  mode := "snapshot"

/-! ## Footprints -/

/-- An entry whose manifest is an object of its own, next to the tar. -/
def Sidecar (bv : BackupVolume) : Prop :=
  bv.manifest.isEmpty = true ∧ bv.manifestSHA256 ≠ ""

inductive Restoring (b : Backup) (bv : BackupVolume) : Op → Prop where
  | tar : Restoring b bv (.blobGet (tarKey b bv))
  | sidecar (h : Sidecar bv) : Restoring b bv (.blobGet (manifestBlobKey b.host b.template b.slug b.id bv.name))
  | volumeRemove : Restoring b bv (.volumeRemove b.host bv.name true)
  | volumeCreate : Restoring b bv (.volumeCreate b.host bv.name)
  | volumeImport (content : Bytes) : Restoring b bv (.volumeImport b.host bv.name content)
  | volumeExport : Restoring b bv (.volumeExport b.host bv.name)

inductive LiveRestoring (b : Backup) : Op → Prop where
  | reading {op : Op} (h : Reading b.host b.template b.slug op) : LiveRestoring b op
  | blobGet (key : String) : LiveRestoring b (.blobGet key)
  | containerExec (container : String) (cmd : List String) :
      LiveRestoring b (.containerExec b.host container cmd)
  | containerCopyIn (container path : String) (content : Bytes) :
      LiveRestoring b (.containerCopyIn b.host container path content)

section Footprints

variable {s : Service} {b : Backup} {bv : BackupVolume} {host : String} {U : Op → Prop}

theorem runExecStep_issues {container step : String} {argv : Except Error (List String)}
    (h : ∀ cmd, U (.containerExec host container cmd)) :
    (Service.runExecStep host container step argv).run.Issues U := by
  unfold Service.runExecStep
  split
  · exact issues_throw
  · exact issues_pure
  · exact .andThen (.mapErr (issues_perform.2 (h _))) fun _ => issues_require

theorem openTar_issues {opening : String} (h : U (.blobGet (tarKey b bv))) : (openTar b bv opening).run.Issues U :=
  .mapErr (issues_perform.2 h)

theorem preflightBlobs_issues (h : ∀ key, U (.blobGet key)) : (preflightBlobs b).run.Issues U := by
  refine issues_forM _ fun bv _ => ?_
  exact (openTar_issues (h _)).andThen fun _ => issues_pure

theorem checkRestorable_issues (hbackup : U (.getBackup id))
    (hspec : ∀ host tmpl slug, U (.getSpec host tmpl slug)) (hblob : ∀ key, U (.blobGet key)) :
    (s.checkRestorable id).run.Issues U := by
  refine issues_require.andThen fun _ => ?_
  refine .andThen (.mapErr (issues_perform.2 hbackup)) fun b => ?_
  refine issues_require.andThen fun _ => issues_require.andThen fun _ =>
    issues_require.andThen fun _ => ?_
  refine .andThen (.mapErr (issues_perform.2 (hspec _ _ _))) fun _ => ?_
  exact (preflightBlobs_issues hblob).andThen fun _ => issues_pure

theorem loadManifest_issues {c : Codec}
    (h : Sidecar bv → U (.blobGet (manifestBlobKey b.host b.template b.slug b.id bv.name))) :
    (loadManifest c b bv).run.Issues U := by
  unfold loadManifest
  split
  · rename_i hrow
    split
    · exact issues_throw
    · rename_i hsum
      have hside : Sidecar bv := ⟨hrow, by simpa using hsum⟩
      refine .andThen (.mapErr (issues_perform.2 (h hside))) fun zipped => ?_
      refine issues_lift_pure.andThen fun raw => issues_require.andThen fun _ => ?_
      exact issues_lift_pure.mapErr
  · exact issues_lift_pure.mapErr

theorem restoreVolume_issues : (s.restoreVolume b bv).run.Issues (Restoring b bv) := by
  refine (openTar_issues .tar).andThen fun tar => .andThen ?_ fun _ => ?_
  · refine (issues_ask .volumeRemove).andThen fun r => ?_
    cases r with
    | ok _ => exact issues_pure
    | error e => exact issues_pure_or_throw
  refine .andThen (.mapErr (issues_perform.2 .volumeCreate)) fun _ => ?_
  refine .andThen (.mapErr (issues_perform.2 (.volumeImport _))) fun _ => ?_
  refine (loadManifest_issues .sidecar).mapErr.andThen fun want => ?_
  refine (volumeManifest_issues .volumeExport).mapErr.andThen fun got => ?_
  split <;> exact issues_ret _

theorem restoreVolumeNamed_issues : (s.restoreVolumeNamed b bv).run.Issues (Restoring b bv) :=
  restoreVolume_issues.mapErr

theorem liveRestore_issues : (s.liveRestore b).run.Issues (LiveRestoring b) := by
  unfold Service.liveRestore
  split
  · refine (issues_lookup (.reading .getTemplate)).andThen fun t => ?_
    refine .andThen (issues_perform.2 (.reading .getSpec)) fun spec => ?_
    refine (get_issues.mono fun op h => .reading h).andThen fun obs => ?_
    refine issues_require.andThen fun _ => ?_
    split
    · exact issues_throw
    refine .andThen (.mapErr (issues_perform.2 (.blobGet _))) fun tar => ?_
    refine (runExecStep_issues (.containerExec _)).andThen fun _ => ?_
    refine .andThen (.mapErr (issues_perform.2 (.containerCopyIn _ _ _))) fun _ => ?_
    exact (runExecStep_issues (.containerExec _)).mapErr.andThen fun _ =>
      (runExecStep_issues (.containerExec _)).mapErr
  · exact issues_throw

theorem teardown_issues : (s.teardown b).run.Issues (Deleting b.host b.template b.slug) :=
  (delete_issues _).attempt.cases (fun _ => issues_pure) fun _ => issues_pure_or_throw

theorem checkRestorable_host {σ : Type} {S : Calls.Service calls σ} {x : σ} :
    Ends S (OnOk fun _ b => (s.host b.host).isSome = true) (s.checkRestorable id).run x := by
  refine ensures_skip_onOk fun _ _ => ensures_skip_onOk fun b _ => ensures_skip_onOk fun _ _ => ?_
  refine ensures_require_thenOk fun hhost => ?_
  refine ensures_skip_onOk fun _ _ => ensures_skip_onOk fun _ _ => ensures_skip_onOk fun _ _ => ?_
  exact ensures_pure_onOk hhost

end Footprints

end PodmanApi.Instance

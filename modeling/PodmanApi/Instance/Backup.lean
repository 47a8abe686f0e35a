/-
# PodmanApi.Instance.Backup — capturing the volumes of an instance.

`checkBackupable`, `Backup`, `liveBackup` and `backupVolumeFromReader` of `internal/instance/backup.go`. A snapshot
stops the pod and exports volumes whole: those the template declares and, when the row says so, those under
names the template has dropped since. A live backup runs a declared command in the running container and copies
out the path the declaration names.
-/
import PodmanApi.Instance.Restore

namespace PodmanApi.Instance

open GoStd Calls
open Render (isBackupMarkerNone)

/-! ## Requests and markers -/

structure BackupRequest where
  backupID : String
  host : String
  template : String
  slug : String
  volumes : List String
  mode : String
  deriving DecidableEq, Repr

structure VolMeta where
  marker : String
  exclude : List String
  deriving DecidableEq, Repr

/-- `backupBlobPrefix` -/
def backupBlobStem (host tmpl slug id : String) : String :=
  host ++ "/" ++ tmpl ++ "/" ++ slug ++ "/" ++ id

/-- The map `declared` of `checkBackupable`; a later declaration of a name replaces an earlier one. -/
def declaredMarkers (vols : List Volume) : GoMap String :=
  vols.foldl (fun m v => GoMap.set m v.name v.backup) []

/-- The map `meta` of `checkBackupable`, by full name. -/
def declaredMeta (tmpl slug : String) (vols : List Volume) : GoMap VolMeta :=
  vols.foldl (fun m v => GoMap.set m (volumeName tmpl slug v.name) ⟨v.backup, v.exclude⟩) []

def anyExportableVolume (u : Unicode) (declared : GoMap String) (sp : Spec) : Bool :=
  (declared.any fun p => !isBackupMarkerNone u p.2) ||
    (sp.appliedVolumes.getD []).any fun short => !GoMap.has declared short &&
      !(GoMap.get? (sp.appliedVolumeMeta.getD []) short).any fun m => isBackupMarkerNone u m.backup

/-! ## The applied volumes -/

structure AppliedLoss where
  materialized : Nat
  lost : List String
  recovered : List HostVolume
  recoveredMeta : GoMap VolMeta
  deriving DecidableEq, Repr

def inspectApplied (host full : String) (marker : Option AppliedVolumeMarker) (acc : AppliedLoss)
    (short : String) : Task AppliedLoss := do
  match ← ask (.volumeInspect host full) with
  | .ok v =>
    pure { acc with
      materialized := acc.materialized + 1
      recovered := acc.recovered ++ [v]
      recoveredMeta := match marker with
        | some m => GoMap.set acc.recoveredMeta full ⟨m.backup, m.exclude⟩
        | none => acc.recoveredMeta }
  | .error e =>
    if e.is .podmanNotFound then pure { acc with lost := acc.lost ++ [short] }
    else throw (.wrap ("inspect volume " ++ quote full ++ ": ") e "")

/-- One round of `appliedVolumeLoss`. -/
def classifyApplied (host tmpl slug : String) (appliedMeta : GoMap AppliedVolumeMarker)
    (present currentlyDeclared : List String) (acc : AppliedLoss) (short : String) : Task AppliedLoss :=
  let full := volumeName tmpl slug short
  if present.contains full then pure { acc with materialized := acc.materialized + 1 }
  else if currentlyDeclared.contains full then pure { acc with lost := acc.lost ++ [short] }
  else inspectApplied host full (GoMap.get? appliedMeta short) acc short

structure VolumeClassification where
  vols : List HostVolume
  present : List String
  metas : GoMap VolMeta
  materialized : Nat
  lost : List String
  recovered : List HostVolume
  deriving DecidableEq, Repr

def VolumeClassification.totalLoss (c : VolumeClassification) : Bool :=
  c.materialized == 0 && !c.lost.isEmpty && c.vols.isEmpty

/-- The merge of `recoveredMeta` into the declared metadata, which it never replaces. -/
def mergeMeta (metas recovered : GoMap VolMeta) : GoMap VolMeta :=
  recovered.foldl (fun m p => if GoMap.has m p.1 then m else GoMap.set m p.1 p.2) metas

/-- One round of `appliedLossCorroborated` over the volumes of the complete backups. -/
def corroborate (short : GoMap String) (out : List String) (v : BackupVolume) : List String :=
  match GoMap.get? short v.name with
  | some name => if out.contains name then out else out ++ [name]
  | none => out

def appliedLossCorroborated (host tmpl slug : String) (lost : List String) : Task (List String) := do
  let backups ← Act.mapErr
    (fun e => .wrap ("list backups of " ++ tmpl ++ "/" ++ slug ++ " on " ++ host ++ ": ") e "")
    (Act.lift (issue (.listBackups host tmpl slug)))
  let short := lost.foldl (fun m name => GoMap.set m (volumeName tmpl slug name) name) []
  let captured := (backups.filter (·.state == .complete)).flatMap (·.volumes)
  pure (sortStrings (captured.foldl (corroborate short) []))

/-! ## Refusals -/

/-- `ErrInvalidBackupScope` with its explanation. -/
def invalidScope (text : String) : Error :=
  .wrap "" (.sentinel .invalidBackupScope) (": " ++ text)

/-- One round of the scope check of `checkBackupable`. -/
def checkScopeName (u : Unicode) (tmpl : String) (declared : GoMap String) (name : String) : Task PUnit :=
  match GoMap.get? declared name with
  | none => throw (invalidScope (quote name ++ " is not declared by template " ++ tmpl))
  | some marker => do
    Act.require (!isBackupMarkerNone u marker)
      (invalidScope (quote name ++ " is marked `backup: none`"))
    pure ⟨⟩

/-- The refusal of a run that would walk past every volume there is. -/
def everyVolumeVetoed (u : Unicode) (host tmpl slug : String) (declared : GoMap String)
    (c : VolumeClassification) : Error :=
  let vetoed := sortStrings (c.vols.map (·.name))
  let absent := sortStrings ((declared.filter fun p =>
    !isBackupMarkerNone u p.2 && !c.present.contains (volumeName tmpl slug p.1)).map (·.1))
  let detail := if absent.isEmpty then "" else
    "; the exportable volume(s) " ++ join absent " " ++ " are declared but do not exist on " ++ host ++
      " — if the instance has not created them yet, this resolves itself once it does"
  invalidScope ("every volume of " ++ tmpl ++ "/" ++ slug ++ " present on " ++ host ++
    " is marked `backup: none` (" ++ join vetoed " " ++
    "), so this backup would stop the pod and capture nothing" ++ detail)

/-- The refusal of a run over volumes that an earlier backup captured and that are all gone. -/
def refuseTotalLoss (host tmpl slug : String) (c : VolumeClassification) : Task Unit :=
  if c.totalLoss then do
    let corroborated ← appliedLossCorroborated host tmpl slug c.lost
    Act.require corroborated.isEmpty (invalidScope ("volume(s) " ++ join corroborated " " ++ " of " ++
      tmpl ++ "/" ++ slug ++
      " were applied and captured by an earlier backup but no longer exist on " ++ host ++
      " (a host rebuild, `podman volume prune`, or an evacuation that did not complete) — this" ++
      " backup would silently miss them"))
  else pure ()

namespace Service

variable (s : Service)

/-! ## Admission -/

def classifyVolumes (host tmpl slug : String) (declared : GoMap String) (metas : GoMap VolMeta)
    (sp : Spec) : Task VolumeClassification := do
  let vols ← Act.mapErr (fun e => .wrap ("list volumes on " ++ host ++ ": ") e "")
    (s.instanceVolumes host tmpl slug)
  let present := vols.map (·.name)
  match sp.appliedVolumes with
  | none => pure ⟨vols, present, metas, 0, [], []⟩
  | some applied =>
    let current := (GoMap.keys declared).map (volumeName tmpl slug)
    let loss ← applied.foldlM
      (classifyApplied host tmpl slug (sp.appliedVolumeMeta.getD []) present current) ⟨0, [], [], []⟩
    pure ⟨vols ++ loss.recovered, present ++ loss.recovered.map (·.name),
      mergeMeta metas loss.recoveredMeta, loss.materialized, loss.lost, loss.recovered⟩

def checkMaterialized (host tmpl slug : String) (declared : GoMap String) (metas : GoMap VolMeta)
    (sp : Spec) : Task (List HostVolume × GoMap VolMeta) := do
  let c ← s.classifyVolumes host tmpl slug declared metas sp
  refuseTotalLoss host tmpl slug c
  if declared.isEmpty then do
    Act.require (c.materialized == 0) (invalidScope ("template " ++ tmpl ++
      " no longer declares any volumes, but " ++ tmpl ++ "/" ++ slug ++
      " was applied with volume(s) that still exist on " ++ host ++
      " — an unscoped backup would capture nothing while real data remains on the host"))
    pure ([], c.metas)
  else do
    let vetoed := fun v : HostVolume =>
      isBackupMarkerNone s.unicode ((GoMap.get? c.metas v.name).getD ⟨"", []⟩).marker
    Act.require (c.vols.isEmpty || !c.vols.all vetoed)
      (everyVolumeVetoed s.unicode host tmpl slug declared c)
    pure (c.vols, c.metas)

/-- `checkBackupable` for a request without a scope. -/
def checkUnscoped (host tmpl slug : String) (declared : GoMap String) (metas : GoMap VolMeta)
    (sp : Spec) (declaredOnly : Bool) : Task (List HostVolume × GoMap VolMeta) :=
  if declared.isEmpty && (sp.appliedVolumes.getD []).isEmpty then pure ([], metas)
  else do
    Act.require (declared.isEmpty || anyExportableVolume s.unicode declared sp)
      (invalidScope ("template " ++ tmpl ++
        " declares volumes but every one of them is marked `backup: none`"))
    if declaredOnly then pure ([], metas)
    else s.checkMaterialized host tmpl slug declared metas sp

/-- `checkBackupable` for a request with a scope. -/
def checkScoped (host tmpl slug : String) (volumes : List String) (declared : GoMap String)
    (metas : GoMap VolMeta) (declaredOnly : Bool) : Task (List HostVolume × GoMap VolMeta) := do
  forM volumes (checkScopeName s.unicode tmpl declared)
  if declaredOnly then pure ([], metas)
  else do
    let vols ← Act.mapErr (fun e => .wrap ("list volumes on " ++ host ++ ": ") e "")
      (s.instanceVolumes host tmpl slug)
    let missing := volumes.filter fun name =>
      !(vols.map (·.name)).contains (volumeName tmpl slug name)
    Act.require missing.isEmpty (invalidScope ("requested volumes " ++ showList missing ++
      " are declared by template " ++ tmpl ++ " but do not exist on " ++ host ++
      " (the instance predates the declaration — re-apply it first)"))
    pure (vols, metas)

def checkBackupable (host tmpl slug : String) (volumes : List String) (declaredOnly : Bool) :
    Task (List HostVolume × GoMap VolMeta) := do
  Act.require s.blobs (.sentinel .backupsDisabled)
  let t ← s.lookup host tmpl
  let sp ← Act.mapErr (fun e => if e.is .storeNotFound then .sentinel .instanceNotFound else e)
    (Act.lift (issue (.getSpec host tmpl slug)))
  let declared := declaredMarkers t.metadata.volumes
  let metas := declaredMeta tmpl slug t.metadata.volumes
  if volumes.isEmpty then s.checkUnscoped host tmpl slug declared metas sp declaredOnly
  else s.checkScoped host tmpl slug volumes declared metas declaredOnly

/-! ## Blobs -/

/-- The manifest of a tar, the bytes to keep of it, and what a filter dropped. -/
def readTar (content : Bytes) (patterns : List String) : Except Error (Bytes × Manifest × Option ExcludedPaths) :=
  if patterns.isEmpty then (s.codec.buildManifest content).map fun m => (content, m, none)
  else (s.codec.filterTar content patterns).map fun out =>
    (out.1, out.2.1, some ⟨out.2.2.patterns, out.2.2.entries, out.2.2.bytes⟩)

def writeManifestBlob (host tmpl slug id volume : String) (raw : Bytes) : Task Unit := do
  let key := manifestBlobKey host tmpl slug id volume
  Act.mapErr (fun e => .wrap "open blob: " e "") (Act.lift (issue (.blobPut key)))
  Act.mapErr (fun e => .wrap "commit: " e "") (Act.lift (issue (.blobCommit key (s.codec.gzip raw))))

/-- The copy of a tar into an open blob; a tar that cannot be read aborts the blob. -/
def copyTar (key : String) (content : Bytes) (patterns : List String) :
    Task (Bytes × Manifest × Option ExcludedPaths) :=
  match s.readTar content patterns with
  | .ok out => pure out
  | .error e => do
    let _ ← ask (.blobAbort key)
    throw (.wrap "read tar: " e "")

def backupVolumeFromReader (req : BackupRequest) (name : String) (content : Bytes)
    (patterns : List String) : Task BackupVolume := do
  let key := backupBlobKey req.host req.template req.slug req.backupID name
  Act.mapErr (fun e => .wrap "open blob: " e "") (Act.lift (issue (.blobPut key)))
  let (kept, manifest, excluded) ← s.copyTar key content patterns
  Act.mapErr (fun e => .wrap "commit blob: " e "") (Act.lift (issue (.blobCommit key kept)))
  let raw ← Act.mapErr (fun e => .wrap "marshal manifest: " e "")
    (Act.lift (pure (s.codec.marshal manifest)))
  Act.mapErr (fun e => .wrap "write manifest blob: " e "")
    (s.writeManifestBlob req.host req.template req.slug req.backupID name raw)
  pure ⟨name, kept.length, [], s.codec.sha256 raw, excluded⟩

def backupVolume (req : BackupRequest) (name : String) (patterns : List String) : Task BackupVolume := do
  let content ← Act.mapErr (fun e => .wrap "export: " e "")
    (Act.lift (issue (.volumeExport req.host name)))
  s.backupVolumeFromReader req name content patterns

end Service

/-- The compensation `fail` of a backup; neither step is reported. -/
def abandonBackup (req : BackupRequest) : Task Unit := do
  let _ ← ask (.failBackup req.backupID)
  let _ ← ask (.blobDeleteAll (backupBlobStem req.host req.template req.slug req.backupID))
  pure ()

/-- A step whose error is returned once the compensation is done. -/
def orAfter {α : Type} (compensation : Task Unit) (x : Task α) : Task α := do
  match ← Act.attempt x with
  | .ok a => pure a
  | .error e =>
    compensation
    throw e

def completeBackup (req : BackupRequest) (bvols : List BackupVolume) : Task Unit := do
  let done ← Act.mapErr (fun e => .wrap "complete backup: " e "")
    (Act.lift (issue (.completeBackup req.backupID bvols)))
  Act.require done (.text ("backup " ++ req.backupID ++ " no longer in creating state"))

namespace Service

variable (s : Service) (req : BackupRequest)

/-! ## Snapshots -/

def runPreBackup : Task Unit := do
  let t ← Act.mapErr (fun e => .wrap "pre-backup: get template: " e "")
    (Act.lift (issue (.getTemplate req.template)))
  match t.metadata.preBackup with
  | none => pure ()
  | some pre =>
    if pre.command == "" then pure ()
    else do
      let spec ← Act.mapErr (fun e => .wrap "pre-backup: get spec: " e "")
        (Act.lift (issue (.getSpec req.host req.template req.slug)))
      let cmd ← Act.mapErr (fun e => .wrap "pre-backup: render command: " e "")
        (Act.lift (pure (s.renderBody pre.command spec.parameters)))
      let container := podName req.template req.slug ++ "-" ++ pre.container
      let res ← Act.mapErr (fun e => .wrap ("pre-backup: exec in " ++ container ++ ": ") e "")
        (Act.lift (issue (.containerExec req.host container ["/bin/sh", "-lc", cmd])))
      Act.require (res.exitCode == 0)
        (.text ("pre-backup: command exited " ++ toString res.exitCode ++ " in " ++ container ++ ": " ++
          res.output))

def restartAfter (wasRunning : Bool) : Task Unit :=
  if wasRunning then do
    let _ ← Act.attempt (s.start req.host req.template req.slug)
    pure ()
  else pure ()

def exportVolume (metas : GoMap VolMeta) (bvols : List BackupVolume)
    (v : HostVolume) : Task (List BackupVolume) :=
  let m := (GoMap.get? metas v.name).getD ⟨"", []⟩
  let scope := req.volumes.map (volumeName req.template req.slug)
  if isBackupMarkerNone s.unicode m.marker then pure bvols
  else if !scope.isEmpty && !scope.contains v.name then pure bvols
  else do
    let bv ← Act.mapErr (fun e => .wrap ("backup volume " ++ quote v.name ++ ": ") e "")
      (s.backupVolume req v.name m.exclude)
    pure (bvols ++ [bv])

/-- The exports and the row. What has been exported is what the rows name. -/
def captureVolumes (vols : List HostVolume) (metas : GoMap VolMeta) : Task Unit := do
  let bvols ← vols.foldlM (s.exportVolume req metas) []
  let missing := req.volumes.filter fun short =>
    !(bvols.map (·.name)).contains (volumeName req.template req.slug short)
  Act.require missing.isEmpty (invalidScope ("requested volumes " ++ showList missing ++
    " were not captured (they disappeared from " ++ req.host ++ " during the backup)"))
  completeBackup req bvols

def creatingBackup (image mode : String) : Backup :=
  ⟨req.backupID, req.host, req.template, req.slug, .creating, [], image, mode⟩

/-- What follows the row of a snapshot: the command, the stop, the exports, the restart. -/
def snapshotVolumes (wasRunning : Bool) (vols : List HostVolume) (metas : GoMap VolMeta) : Task Unit := do
  orAfter (abandonBackup req) (s.runPreBackup req)
  orAfter (abandonBackup req)
    (Act.mapErr (fun e => .wrap "stop instance: " e "") (s.stop req.host req.template req.slug))
  orAfter (do s.restartAfter req wasRunning; abandonBackup req) (s.captureVolumes req vols metas)
  s.restartAfter req wasRunning

/-- `Backup` in snapshot mode, under the migrate lock. -/
def snapshotBackup : Task Unit := do
  let (vols, metas) ← s.checkBackupable req.host req.template req.slug req.volumes false
  let obs ← s.get req.host req.template req.slug
  Act.mapErr (fun e => .wrap "record backup: " e "")
    (Act.lift (issue (.createBackup (creatingBackup req (obs.images.headD "") ""))))
  s.snapshotVolumes req (obs.status == "Running" || obs.status == "Degraded") vols metas

/-! ## Live backups -/

def renderBackupArgv (params : GoMap Value) (argv : List String) : Except Error (List String) :=
  argv.mapM fun a => (s.renderBody a params).mapError fun e => .wrap "render live_backup argv: " e ""

/-- The error of a dump: that of the command, with that of the clean-up command appended. -/
def dumpError : Except Error Unit → Except Error Unit → Except Error Unit
  | .error e, .error post =>
    .error (.wrap "" e (" (additionally, post_exec failed: " ++ Error.string post ++ ")"))
  | .error e, .ok _ => .error e
  | .ok _, r => r

/-- The three exec steps of `liveBackup`; the last runs also when the second has failed. -/
def liveDump (params : GoMap Value) (lb : LiveBackup) : Task Unit := do
  let container := podName req.template req.slug ++ "-" ++ lb.container
  let run := fun step argv => runExecStep req.host container step (s.renderBackupArgv params argv)
  run "live-pre-exec" lb.preExec
  let dumped ← Act.attempt (run "live-backup-exec" lb.backupExec)
  let post ← Act.attempt (run "live-post-exec" lb.postExec)
  Act.lift (pure (dumpError dumped post))

/-- The copy of a live backup's output into the blob store, filed under the volume's name. -/
def liveCopy (short : String) (lb : LiveBackup) : Task Unit := do
  let container := podName req.template req.slug ++ "-" ++ lb.container
  let content ← Act.mapErr
    (fun e => .wrap ("copy out " ++ lb.outputPath ++ " from " ++ container ++ ": ") e
      " (backup_exec may have exited 0 without producing this path)")
    (Act.lift (issue (.containerCopyOut req.host container lb.outputPath)))
  let bv ← Act.mapErr (fun e => .wrap ("copy-out volume " ++ quote short ++ ": ") e "")
    (s.backupVolumeFromReader req (volumeName req.template req.slug short) content [])
  completeBackup req [bv]

def liveCapture (short : String) (params : GoMap Value) (lb : LiveBackup) : Task Unit := do
  Act.mapErr (fun e => .wrap "record backup: " e "")
    (Act.lift (issue (.createBackup (creatingBackup req "" "live"))))
  orAfter (abandonBackup req) (s.liveDump req params lb)
  orAfter (abandonBackup req) (s.liveCopy req short lb)

/-- `liveBackup`, under the migrate lock. The marker of the volume is not read. -/
def liveBackupLocked (short : String) : Task Unit := do
  Act.require s.blobs (.sentinel .backupsDisabled)
  let t ← s.lookup req.host req.template
  let spec ← Act.mapErr (fun e => if e.is .storeNotFound then .sentinel .instanceNotFound else e)
    (Act.lift (issue (.getSpec req.host req.template req.slug)))
  match (t.metadata.volumes.find? (·.name == short)).bind (·.liveBackup) with
  | none => throw (invalidScope ("volume " ++ quote short ++ " declares no live_backup"))
  | some lb => s.liveCapture req short spec.parameters lb

def liveBackup : Task Unit :=
  match req.volumes with
  | [short] => withLock (migrateLock req.template req.slug) (s.liveBackupLocked req short)
  | vols => throw (invalidScope ("live mode requires exactly one volume in scope, got " ++
      toString vols.length))

def backup : Task Unit :=
  if req.mode == "live" then s.liveBackup req
  else withLock (migrateLock req.template req.slug) (s.snapshotBackup req)

/-- `DeleteBackup`: the blobs, then the row. -/
def deleteBackup (id : String) : Task Unit := do
  Act.require s.blobs (.sentinel .backupsDisabled)
  let b ← getBackup id
  Act.mapErr (fun e => .wrap "delete blobs: " e "")
    (Act.lift (issue (.blobDeleteAll (backupBlobStem b.host b.template b.slug b.id))))
  match ← ask (.deleteBackup id) with
  | .ok _ => pure ()
  | .error e => if e.is .storeNotFound then pure () else throw e

/-! ## After a crash -/

def restartInterrupted : Task Unit := do
  match ← Act.attempt (s.start req.host req.template req.slug) with
  | .ok _ => pure ()
  | .error e =>
    if e.is .instanceNotFound || e.is .podmanNotFound then pure ()
    else throw (.wrap "restart instance: " e "")

/-- `ReconcileBackup` of a row that is not complete. -/
def failInterrupted : Task (Bool × String) := do
  let _ ← Act.lift (issue (.failBackup req.backupID))
  let _ ← ask (.blobDeleteAll (backupBlobStem req.host req.template req.slug req.backupID))
  if (s.host req.host).isNone then
    pure (false, "host " ++ req.host ++ " is no longer configured; manual cleanup may be required")
  else do
    s.restartInterrupted req
    pure (false, "backup interrupted by daemon restart; instance restarted")

/-- `ReconcileBackup`: whether the backup is complete, and a message. It leaves the job unresolved just when
it returns an error. -/
def reconcileBackup : Task (Bool × String) :=
  withLock (migrateLock req.template req.slug) do
    match ← ask (.getBackup req.backupID) with
    | .error e =>
      if e.is .storeNotFound then pure (false, "interrupted before the backup row was created") else throw e
    | .ok b => if b.state == .complete then pure (true, "") else s.failInterrupted req

end Service

/-! ## Footprints -/

section Footprints

variable {s : Service} {req : BackupRequest} {host tmpl slug : String} {U : Op → Prop}

theorem checkScopeName_issues {u : Unicode} {declared : GoMap String} {name : String} :
    (checkScopeName u tmpl declared name).run.Issues U := by
  unfold checkScopeName
  split
  · exact issues_throw
  · exact issues_require.andThen fun _ => issues_pure

theorem refuseTotalLoss_issues {c : VolumeClassification} (h : U (.listBackups host tmpl slug)) :
    (refuseTotalLoss host tmpl slug c).run.Issues U := by
  unfold refuseTotalLoss
  split
  · refine .andThen ?_ fun _ => issues_require
    exact .andThen (.mapErr (issues_perform.2 h)) fun _ => issues_pure
  · exact issues_pure

theorem checkBackupable_issues {volumes : List String} {declaredOnly : Bool}
    (hread : ∀ op, Reading host tmpl slug op → U op) (hlist : U (.listBackups host tmpl slug)) :
    (s.checkBackupable host tmpl slug volumes declaredOnly).run.Issues U := by
  have hvolumes : (s.instanceVolumes host tmpl slug).run.Issues U := instanceVolumes_issues.mono hread
  refine issues_require.andThen fun _ => (issues_lookup (hread _ .getTemplate)).andThen fun t => ?_
  refine .andThen (.mapErr (issues_perform.2 (hread _ .getSpec))) fun sp => ?_
  dsimp only
  split
  · unfold Service.checkUnscoped
    split
    · exact issues_pure
    refine issues_require.andThen fun _ => ?_
    split
    · exact issues_pure
    refine .andThen ?_ fun c => (refuseTotalLoss_issues hlist).andThen fun _ => ?_
    · refine hvolumes.mapErr.andThen fun vols => ?_
      split
      · exact issues_pure
      · refine .andThen (issues_foldlM _ (fun acc short _ => ?_) _) fun _ => issues_pure
        unfold classifyApplied
        dsimp only
        split
        · exact issues_pure
        split
        · exact issues_pure
        refine (issues_ask (hread _ (.volumeInspect _))).andThen fun r => ?_
        split
        · exact issues_pure
        · exact issues_pure_or_throw
    · split
      · exact issues_require.andThen fun _ => issues_pure
      · exact issues_require.andThen fun _ => issues_pure
  · refine (issues_forM volumes fun name _ => checkScopeName_issues).andThen fun _ => ?_
    split
    · exact issues_pure
    · exact hvolumes.mapErr.andThen fun vols => issues_require.andThen fun _ => issues_pure

theorem abandonBackup_issues (hf : U (.failBackup req.backupID)) (hd : ∀ key, U (.blobDeleteAll key)) :
    (abandonBackup req).run.Issues U := by
  refine (issues_ask hf).andThen fun _ => ?_
  exact (issues_ask (hd _)).andThen fun _ => issues_pure

theorem completeBackup_issues {bvols : List BackupVolume}
    (h : U (.completeBackup req.backupID bvols)) : (completeBackup req bvols).run.Issues U := by
  exact .andThen (.mapErr (issues_perform.2 h)) fun _ => issues_require

theorem restartAfter_issues {wasRunning : Bool} (h : ∀ op, Starting req.host req.template req.slug op → U op) :
    (s.restartAfter req wasRunning).run.Issues U := by
  unfold Service.restartAfter
  split
  · exact ((start_issues.mono h).attempt).andThen fun _ => issues_pure
  · exact issues_pure

theorem runPreBackup_issues (ht : U (.getTemplate req.template)) (hs : U (.getSpec req.host req.template req.slug))
    (he : ∀ container cmd, U (.containerExec req.host container cmd)) : (s.runPreBackup req).run.Issues U := by
  refine .andThen (.mapErr (issues_perform.2 ht)) fun found => ?_
  split
  · exact issues_pure
  split
  · exact issues_pure
  refine .andThen (.mapErr (issues_perform.2 hs)) fun row => ?_
  refine issues_lift_pure.mapErr.andThen fun cmd => ?_
  exact .andThen (.mapErr (issues_perform.2 (he _ _))) fun _ => issues_require

theorem backupVolumeFromReader_issues {name : String} {content : Bytes} {patterns : List String}
    (hput : U (.blobPut (backupBlobKey req.host req.template req.slug req.backupID name)))
    (hcommit : ∀ kept, U (.blobCommit (backupBlobKey req.host req.template req.slug req.backupID name) kept))
    (habort : U (.blobAbort (backupBlobKey req.host req.template req.slug req.backupID name)))
    (hputm : U (.blobPut (manifestBlobKey req.host req.template req.slug req.backupID name)))
    (hcommitm : ∀ raw, U (.blobCommit (manifestBlobKey req.host req.template req.slug req.backupID name) raw)) :
    (s.backupVolumeFromReader req name content patterns).run.Issues U := by
  refine .andThen (.mapErr (issues_perform.2 hput)) fun _ => ?_
  refine .andThen ?_ fun out => ?_
  · unfold Service.copyTar
    split
    · exact issues_pure
    · exact (issues_ask habort).andThen fun _ => issues_throw
  refine .andThen (.mapErr (issues_perform.2 (hcommit out.1))) fun _ => ?_
  refine issues_lift_pure.mapErr.andThen fun raw => ?_
  refine .andThen (.mapErr ?_) fun _ => issues_pure
  exact .andThen (.mapErr (issues_perform.2 hputm)) fun _ =>
    .mapErr (issues_perform.2 (hcommitm _))

theorem captureVolumes_issues {vols : List HostVolume} {metas : GoMap VolMeta}
    (hexport : ∀ name, U (.volumeExport req.host name)) (hput : ∀ key, U (.blobPut key))
    (hcommit : ∀ key content, U (.blobCommit key content)) (habort : ∀ key, U (.blobAbort key))
    (hcomplete : ∀ bvols, U (.completeBackup req.backupID bvols)) :
    (s.captureVolumes req vols metas).run.Issues U := by
  refine .andThen (issues_foldlM _ (fun bvols v _ => ?_) _) fun bvols => ?_
  · unfold Service.exportVolume
    dsimp only
    split
    · exact issues_pure
    split
    · exact issues_pure
    refine .andThen (.mapErr ?_) fun _ => issues_pure
    refine .andThen (.mapErr (issues_perform.2 (hexport _))) fun content => ?_
    exact backupVolumeFromReader_issues (hput _) (hcommit _) (habort _) (hput _) (hcommit _)
  · exact issues_require.andThen fun _ => completeBackup_issues (hcomplete _)

theorem liveDump_issues {params : GoMap Value} {lb : LiveBackup}
    (h : ∀ container cmd, U (.containerExec req.host container cmd)) : (s.liveDump req params lb).run.Issues U := by
  refine (runExecStep_issues (h _)).andThen fun _ => ?_
  refine (runExecStep_issues (h _)).attempt.andThen fun _ => ?_
  exact (runExecStep_issues (h _)).attempt.andThen fun _ => issues_lift_pure

theorem orAfter_issues {α : Type} {compensation : Task Unit} {x : Task α} (hx : x.run.Issues U)
    (hcomp : compensation.run.Issues U) : (orAfter compensation x).run.Issues U :=
  hx.attempt.cases (fun _ => issues_pure) fun _ => hcomp.andThen fun _ => issues_throw

/-- The rule for a compensated step: the step's own specification, and what the compensation makes of its error
exits. -/
theorem ensures_orAfter {α σ : Type} {S : Calls.Service calls σ} {G : σ → Op → Prop} {x : σ}
    {P Q : σ → Except Error α → Prop} {compensation : Task Unit} {step : Task α}
    (hstep : Ensures S G P step.run x) (hok : ∀ y a, P y (.ok a) → Q y (.ok a))
    (herr : ∀ y e, P y (.error e) → Ensures S G (fun z _ => ∀ e', Q z (.error e')) compensation.run y) :
    Ensures S G Q (orAfter compensation step).run x := by
  refine hstep.attemptThen fun y r hr => ?_
  cases r with
  | ok a => exact ensures_pure.2 (hok y a hr)
  | error e =>
    exact (herr y e hr).andThen (fun _ e' h => h e') fun _ _ h => ensures_throw.2 (h e)

end Footprints

end PodmanApi.Instance

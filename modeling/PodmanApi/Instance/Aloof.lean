/-
# PodmanApi.Instance.Aloof — the calls around the writes of a row.

An aloof call writes no row, removes no template and leaves the read side of the template lock alone. Every
footprint of the long operations is aloof but for the commit of an apply, the row a failed restore puts back and
the second write of a rename.
-/
import PodmanApi.Instance.Migrate
import PodmanApi.Instance.Rename
import PodmanApi.Instance.Restore
import PodmanApi.Instance.Templates

namespace PodmanApi.Instance

open GoStd Calls

/-- The calls that neither write a row, nor remove a template, nor touch the read lock. -/
def Aloof : Op → Prop
  | .putSpec _ | .deleteTemplate _ | .rlockTemplates | .runlockTemplates => False
  | _ => True

section Footprints

variable {host tmpl slug name : String} {req : MigrateRequest} {op : Op}

theorem Checking.aloof (h : Checking op) : Aloof op := by
  cases h <;> trivial

theorem Pushing.aloof (h : Pushing host op) : Aloof op := by
  cases h <;> trivial

theorem Waiting.aloof (h : Waiting host name op) : Aloof op := by
  cases h <;> trivial

theorem Reading.aloof (h : Reading host tmpl slug op) : Aloof op := by
  cases h <;> trivial

theorem Stopping.aloof (h : Stopping host tmpl slug op) : Aloof op := by
  cases h <;> trivial

theorem Starting.aloof (h : Starting host tmpl slug op) : Aloof op := by
  cases h with
  | waiting h => exact h.aloof
  | reading h => exact h.aloof
  | lock | podStart | unlock => trivial

theorem Deleting.aloof (h : Deleting host tmpl slug op) : Aloof op := by
  cases h with
  | pruning h => cases h <;> trivial
  | _ => trivial

theorem Preflighting.aloof (h : Preflighting req op) : Aloof op := by
  cases h <;> trivial

theorem Provisioning.aloof (h : Provisioning req op) : Aloof op := by
  cases h <;> trivial

theorem Copying.aloof {fromHost toHost : String} (h : Copying fromHost toHost op) : Aloof op := by
  cases h <;> trivial

theorem Observing.aloof (h : Observing req op) : Aloof op := by
  cases h with
  | waiting h => exact h.aloof
  | _ => trivial

theorem Restoring.aloof {b : Backup} {bv : BackupVolume} (h : Restoring b bv op) : Aloof op := by
  cases h <;> trivial

theorem LiveRestoring.aloof {b : Backup} (h : LiveRestoring b op) : Aloof op := by
  cases h with
  | reading h => exact h.aloof
  | _ => trivial

end Footprints

/-! ## Whole operations -/

section Operations

variable {σ : Type} {S : Calls.Service calls σ} {G : σ → Op → Prop} {I : σ → Prop} {s : Service}

variable {host : String}

theorem applyPush_aloof {req : ApplyRequest} {opts : ApplyOptions} : (s.applyPush host req opts).run.Issues Aloof :=
  applyPush_issues (fun _ h => h.aloof) fun _ h => h.aloof

variable (haloof : ∀ {β : Type} {q : Prog calls β}, q.Issues Aloof → q.Keeps S G I)

include haloof

theorem locked_keeps {α : Type} {m : Mutex} {p : Prog calls α} (hp : p.Keeps S G I) : (locked m p).Keeps S G I := by
  have hissue : ∀ op, Aloof op → (issue op).Keeps S G I := fun op hop =>
    haloof (issues_perform.2 hop)
  refine (hissue (.lock m) trivial).bind fun _ => hp.bind fun a => ?_
  exact (hissue (.unlock m) trivial).bind fun _ => keeps_ret a

theorem applyCommit_keeps {req : ApplyRequest} {opts : ApplyOptions} {prep : Prepared}
    (hpersist : (Service.persistSpec (Service.appliedSpec host req prep)).run.Keeps S G I) :
    (s.applyCommit host req opts prep).run.Keeps S G I := by
  refine (haloof (issues_forM _ fun sec _ =>
    (replaceSecret_issues _ _ _ _ _).mono fun op h => h.aloof)).andThen fun _ => ?_
  refine (haloof (ensureNetworks_issues _ fun _ => trivial)).andThen fun networks => ?_
  refine (haloof (.mapErr (issues_perform.2 trivial))).andThen fun _ => ?_
  exact hpersist.andThen fun _ => haloof (refreshIngress_issues trivial)

theorem apply_keeps_after {req : ApplyRequest} {opts : ApplyOptions}
    (hpush : ∀ x, I x → Ensures S G (fun y r => I y ∧ ∀ prep, r = .ok prep →
      (Service.persistSpec (Service.appliedSpec host req prep)).run.Keeps S G I) (s.applyPush host req opts).run x) :
    (s.apply host req opts).Keeps S G I := by
  have hlocked : (s.applyLocked host req opts).Keeps S G I := by
    intro x hx
    refine (hpush x hx).bind fun y r hy => ?_
    cases r with
    | error e => exact ensures_ret.2 hy.1
    | ok prep => exact ((applyCommit_keeps haloof (hy.2 prep rfl)).bind fun r => keeps_ret _) y hy.1
  unfold Service.apply
  split
  · exact locked_keeps haloof hlocked
  · exact locked_keeps haloof (locked_keeps haloof hlocked)

/-- Only a push that succeeded, so one on a configured host, goes on to the commit. -/
theorem apply_keeps {req : ApplyRequest} {opts : ApplyOptions} (hpersist : (s.host host).isSome = true → ∀ prep,
      (Service.persistSpec (Service.appliedSpec host req prep)).run.Keeps S G I) :
    (s.apply host req opts).Keeps S G I :=
  apply_keeps_after haloof fun x hx => ((haloof applyPush_aloof x hx).also applyPush_host).imp fun _ _ h =>
    ⟨h.1, fun prep hprep => hpersist (h.2 prep hprep) prep⟩

theorem migratePostStop_keeps {req : MigrateRequest} {t : Template} {spec : Spec}
    (happly : ∀ opts, (s.apply req.toHost (Service.migrateApply req spec) opts).Keeps S G I) :
    (s.migratePostStop req t spec).Keeps S G I := by
  have hdeploy : (s.migrateDeploy req spec).run.Keeps S G I := by
    refine Prog.Keeps.andThen (Prog.Keeps.mapErr ?_) fun _ =>
      haloof (waitRunning_issues.mono fun op h => h.aloof).mapErr
    exact (happly _).bind fun out => keeps_ret _
  refine (haloof (migratePrepare_issues (fun op h => h.aloof) fun _ op h => h.aloof)).bind fun r => ?_
  cases r with
  | error e => exact keeps_ret _
  | ok stopped =>
    refine Prog.Keeps.bind (Prog.Keeps.andThen (haloof ?_) fun _ => hdeploy) fun r => keeps_ret _
    exact migrateVolumes_issues (fun op h => h.aloof) fun op h => h.aloof

theorem migrate_keeps {req : MigrateRequest}
    (happly : ∀ host areq opts, (s.apply host areq opts).Keeps S G I) : (s.migrate req).run.Keeps S G I := by
  refine locked_keeps haloof ?_
  refine (haloof issues_require).andThen fun _ => (haloof issues_require).andThen fun _ => ?_
  refine (haloof (issues_lookup trivial)).andThen fun t => ?_
  refine Prog.Keeps.andThen (haloof (issues_perform.2 trivial)) fun spec => ?_
  refine (haloof ((preflightDest_issues t _).mono fun op h => h.aloof)).andThen fun _ => ?_
  refine (haloof (stop_issues.mono fun op h => h.aloof).mapErr).andThen fun _ => ?_
  refine (migratePostStop_keeps haloof fun _ => happly _ _ _).embed.andThen fun out => haloof ?_
  exact migrateFinish_issues (fun _ _ op h => h.aloof) fun _ op h => h.aloof

theorem rename_keeps {tmpl slug : String} {req : RenameRequest}
    (happly : ∀ areq opts, (s.apply host areq opts).Keeps S G I) (hspecs : (s.host host).isSome = true → ∀ spec,
      (Service.renameSpecs host tmpl slug req spec).run.Keeps S G I) :
    (s.rename host tmpl slug req).run.Keeps S G I := by
  have horRollback : ∀ what (step : Task Unit), step.run.Keeps S G I →
      (s.renameOrRollback host tmpl slug req.newSlug what step).run.Keeps S G I := by
    intro what step hstep
    refine hstep.attempt.andThen fun r => ?_
    cases r with
    | ok _ => exact keeps_ret _
    | error e =>
      refine Prog.Keeps.andThen (haloof ?_) fun _ => keeps_ret _
      refine (start_issues.mono fun op h => h.aloof).attempt.andThen fun _ => ?_
      exact ((delete_issues _).mono fun op h => h.aloof).attempt.andThen fun _ => issues_pure
  have hcheck : (s.checkRenameable host tmpl slug req).run.Keeps S G I :=
    haloof (checkRenameable_issues trivial (fun _ => trivial) trivial)
  refine locked_keeps haloof fun x hx => ?_
  refine ((hcheck x hx).also checkRenameable_host).andThen (fun _ _ h => h.1) fun y _ hy => ?_
  have hhost := hy.2 _ rfl
  refine Prog.Keeps.andThen (haloof (issues_perform.2 trivial)) (fun spec => ?_) y hy.1
  refine (haloof (stop_issues.mono fun op h => h.aloof).mapErr).andThen fun _ => ?_
  refine (haloof (instanceVolumes_issues.mono fun op h => h.aloof).mapErr).andThen fun vols => ?_
  refine (haloof (issues_forM _ fun v _ =>
    renameVolume_issues (fun _ => trivial) (fun _ => trivial) fun _ _ => trivial)).andThen fun _ => ?_
  refine (horRollback _ _ ((happly _ _).bind fun out => keeps_ret _)).andThen fun _ => ?_
  refine (horRollback _ _ (haloof (waitRunning_issues.mono fun op h => h.aloof))).andThen fun _ => ?_
  refine (hspecs hhost spec).andThen fun _ => (haloof (refreshIngress_issues trivial)).andThen fun _ => ?_
  unfold Service.renameReap
  split
  · exact keeps_ret _
  · exact haloof ((delete_issues _).mono fun op h => h.aloof).mapErr

theorem restore_keeps {id : String} (hsnapshot : ∀ b, (s.host b.host).isSome = true → (s.snapshotRestore b).run.Keeps S G I) :
    (s.restore id).run.Keeps S G I := by
  have hcheck : (s.checkRestorable id).run.Keeps S G I :=
    haloof (checkRestorable_issues trivial (fun _ _ _ => trivial) fun _ => trivial)
  refine hcheck.andThen fun b => locked_keeps haloof fun x hx => ?_
  refine ((hcheck x hx).also checkRestorable_host).andThen (fun _ _ h => h.1)
    fun y b hy => ?_
  split
  · exact haloof (liveRestore_issues.mono fun op h => h.aloof) y hy.1
  · exact hsnapshot b (hy.2 b rfl) y hy.1

end Operations

end PodmanApi.Instance

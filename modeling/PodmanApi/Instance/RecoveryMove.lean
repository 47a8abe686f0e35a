/-
# PodmanApi.Instance.RecoveryMove — the move itself, call by call.

Each stage of `Migrate` keeps `Sound`: until the deploy the destination has no pod, from then on every listed
volume has been copied, and the source is deleted only behind a row and a ready pod.
-/
import PodmanApi.Instance.Recovery

namespace PodmanApi.Instance

open GoStd Calls

/-! ## The move -/

variable {op : Op} {req : MigrateRequest} {host name tmpl slug : String}

section Histories

variable {s : Service} {req : MigrateRequest} {host tmpl slug : String} {t : History}

theorem pollReady_returns {u : Unicode} {o : ReadyOpts} {w : Wait}
    (h : Returns (pollReady u host name o w).run t (.ok none)) :
    ∃ p, ⟨.podInspect host name, .ok p⟩ ∈ t ∧ podReady u p = true := by
  obtain ⟨t₁, t₂, r, hask, hrest, rfl⟩ := returns_bind_ok.1 h
  rw [returns_ask.1 hask]
  cases r with
  | error e => exact nomatch (returns_pure.1 hrest).2
  | ok p =>
    dsimp only at hrest
    split at hrest
    · rename_i hready
      exact ⟨p, List.mem_append_left t₂ List.mem_cons_self, hready⟩
    · obtain ⟨t₃, t₄, w', -, hpure, -⟩ := returns_bind_ok.1 hrest
      exact nomatch (returns_pure.1 hpure).2

theorem waitLoop_returns {u : Unicode} {o : ReadyOpts} {w : Wait} {n : Nat}
    (h : Returns (waitLoop u host name o n w).run t (.ok ())) :
    ∃ p, ⟨.podInspect host name, .ok p⟩ ∈ t ∧ podReady u p = true := by
  induction n generalizing w t with
  | zero => exact (not_returns_throw h).elim
  | succ n ih =>
    obtain ⟨t₁, t₂, r, hpoll, hrest, rfl⟩ := returns_bind_ok.1 h
    cases r with
    | none =>
      obtain ⟨p, hmem, hready⟩ := pollReady_returns hpoll
      exact ⟨p, List.mem_append_left t₂ hmem, hready⟩
    | some w =>
      obtain ⟨t₃, t₄, now, -, hnext, rfl⟩ := returns_bind_ok.1 hrest
      split at hnext
      · exact (not_returns_throw hnext).elim
      · obtain ⟨t₅, t₆, _, -, hloop, rfl⟩ := returns_bind_ok.1 hnext
        obtain ⟨p, hmem, hready⟩ := ih hloop
        refine ⟨p, ?_, hready⟩
        exact List.mem_append_right _ (List.mem_append_right _ (List.mem_append_right _ hmem))

theorem waitRunning_returns (h : Returns (s.waitRunning req.toHost req.template req.slug).run t (.ok ())) :
    SeenReady s req t := by
  have h := returns_mapErr_ok.1 h
  unfold Service.waitReady at h
  rw [if_neg (ne_of_gt s.verifyTimeout_pos)] at h
  obtain ⟨t₁, t₂, now, -, hloop, rfl⟩ := returns_bind_ok.1 h
  obtain ⟨p, hmem, hready⟩ := waitLoop_returns hloop
  exact ⟨p, List.mem_append_right t₁ hmem, hready⟩

theorem migrateVolume_returns {v : HostVolume}
    (h : Returns (s.migrateVolume req.fromHost req.toHost v).run t (.ok ⟨⟩)) : Copied req v.name t := by
  obtain ⟨t₁, t₂, _, -, hrest, rfl⟩ := returns_bind_ok.1 h
  obtain ⟨t₃, t₄, src, hmapped, -, rfl⟩ := returns_bind_ok.1 hrest
  have hcopy := returns_mapErr_ok.1 hmapped
  obtain ⟨t₅, t₆, content, hout, hin, rfl⟩ := returns_bind_ok.1 hcopy
  obtain ⟨t₇, t₈, _, hput, -, rfl⟩ := returns_bind_ok.1 hin
  have hexport := returns_perform.1 (returns_mapErr_ok.1 hout)
  have himport := returns_perform.1 (returns_mapErr_ok.1 hput)
  refine ⟨content, ?_, ?_⟩
  · rw [hexport]
    simp
  · rw [himport]
    simp

theorem migrateVolumes_returns (h : Returns (s.migrateVolumes req).run t (.ok ())) : Transferred s req t := by
  obtain ⟨t₁, t₂, vols, hlist, hcopies, rfl⟩ := returns_bind_ok.1 h
  refine ⟨[], t₁, t₂, vols, rfl, returns_mapErr_ok.1 hlist, fun v hv => ?_⟩
  obtain ⟨u₁, u₂, u₃, rfl, hbody⟩ := returns_forM_ok hcopies v hv
  obtain ⟨content, hexport, himport⟩ := migrateVolume_returns hbody
  refine ⟨content, ?_, ?_⟩
  · exact List.mem_append_left u₃ (List.mem_append_right u₁ hexport)
  · exact List.mem_append_left u₃ (List.mem_append_right u₁ himport)

theorem Transferred.after {past : History} (h : Transferred s req t) : Transferred s req (past ++ t) := by
  obtain ⟨before, listing, after, vols, rfl, hlist, hcopied⟩ := h
  refine ⟨past ++ before, listing, after, vols, ?_, hlist, hcopied⟩
  simp only [List.append_assoc]

end Histories

theorem Checking.gentle (h : Checking op) : Gentle op := by
  cases h <;> trivial

theorem Waiting.gentle (h : Waiting host name op) : Gentle op := by
  cases h <;> trivial

theorem Reading.gentle (h : Reading host tmpl slug op) : Gentle op := by
  cases h <;> trivial

theorem Starting.gentle (h : Starting host tmpl slug op) : Gentle op := by
  cases h with
  | waiting h => exact h.gentle
  | reading h => exact h.gentle
  | _ => trivial

theorem Stopping.gentle (h : Stopping host tmpl slug op) : Gentle op := by
  cases h <;> trivial

theorem Preflighting.gentle (h : Preflighting req op) : Gentle op := by
  cases h <;> trivial

theorem Provisioning.gentle (h : Provisioning req op) : Gentle op := by
  cases h <;> trivial

theorem Copying.gentle {fromHost toHost : String} (h : Copying fromHost toHost op) : Gentle op := by
  cases h <;> trivial

theorem Observing.gentle (h : Observing req op) : Gentle op := by
  cases h with
  | waiting h => exact h.gentle
  | _ => trivial

/-- Before the deploy: the destination has no pod, and nothing has been pruned. -/
structure Early (req : MigrateRequest) (x : Fleet × History) : Prop where
  apart : req.fromHost ≠ req.toHost
  absent : x.1.pods req.toHost req.pod = false
  source : Unpruned req.fromHost x.2
  dest : Unpruned req.toHost x.2

/-- From the deploy on: the volumes have been copied, and nothing has been pruned. -/
structure Deployed (s : Service) (req : MigrateRequest) (x : Fleet × History) : Prop where
  apart : req.fromHost ≠ req.toHost
  transferred : Transferred s req x.2
  source : Unpruned req.fromHost x.2
  dest : Unpruned req.toHost x.2

section Move

variable {s : Service} {req : MigrateRequest} {x y : Fleet × History}

theorem Early.sound (h : Early req x) : Sound s req x := by
  refine ⟨fun hpod => ?_, .inl h.source, .inl h.source⟩
  rw [h.absent] at hpod
  cases hpod

theorem Deployed.sound (h : Deployed s req x) : Sound s req x :=
  ⟨fun _ => ⟨h.apart, h.transferred, h.dest⟩, .inl h.source, .inl h.source⟩

theorem Early.reverted (h : Early req x) : Reverted s req x :=
  ⟨h.sound, h.apart, h.source⟩

theorem Deployed.reverted (h : Deployed s req x) : Reverted s req x :=
  ⟨h.sound, h.apart, h.source⟩

theorem Still.early (h : Still req x y) (hx : Early req x) : Early req y :=
  ⟨hx.apart, h.absent hx.absent, h.unpruned hx.source, h.unpruned hx.dest⟩

theorem Still.deployed (h : Still req x y) (hx : Deployed s req x) : Deployed s req y :=
  ⟨hx.apart, h.transferred hx.transferred, h.unpruned hx.source, h.unpruned hx.dest⟩

variable {α : Type} {p : Prog calls α}

theorem sound_ensures (hp : p.Issues Gentle) (hx : Sound s req x) : Guards s req (fun y _ => Sound s req y) p x :=
  (gentle_ensures hp hx).imp fun _ _ hy => hy.sound hx

theorem early_ensures (hp : p.Issues Gentle) (hx : Early req x) : Guards s req (fun y _ => Early req y) p x :=
  (gentle_ensures hp hx.sound).imp fun _ _ hy => hy.early hx

theorem ensures_locked_still {m : Mutex} {Q : Fleet × History → α → Prop} (hx : Sound s req x)
    (hQ : ∀ y z a, Still req y z → Q y a → Q z a) (hsound : ∀ y a, Q y a → Sound s req y)
    (hp : ∀ y, Still req x y → Guards s req Q p y) : Guards s req Q (locked m p) x := by
  refine ensures_lock (gentle_guarded (by trivial) hx) fun y hy => ?_
  refine (hp y (mild_step (by trivial) hy)).imp fun z a hz => ?_
  exact ⟨gentle_guarded (by trivial) (hsound z a hz), fun u hu => hQ z u a (mild_step (by trivial) hu) hz⟩

theorem deploy_step {r : op.Ans} (hop : Applying req.toHost req.template req.slug op)
    (hx : Deployed s req x) (h : traced fleet x op r y) : Deployed s req y := by
  have hmild : ∀ {op : Op} {r : op.Ans}, traced fleet x op r y → Mild op → Deployed s req y := by
    intro op r h hop
    have hstill : Still req x y := mild_step hop h
    exact hstill.deployed hx
  cases hop with
  | checking hop => exact hmild h hop.gentle.mild
  | lock | unlock => exact hmild h trivial
  | committing hop =>
    cases hop with
    | playKube yaml replace networks =>
      obtain ⟨-, hpast⟩ := h
      refine ⟨hx.apart, hpast ▸ hx.transferred.mono, ?_, ?_⟩
      · rw [hpast]
        exact unpruned_append.2 ⟨hx.source, unpruned_call nofun⟩
      · rw [hpast]
        exact unpruned_append.2 ⟨hx.dest, unpruned_call nofun⟩
    | pushing hop => cases hop <;> exact hmild h trivial
    | _ => exact hmild h trivial

theorem deploy_guarded (hop : Applying req.toHost req.template req.slug op)
    (hx : Deployed s req x) : Guarded s req x op := by
  cases hop with
  | checking hop => exact gentle_guarded hop.gentle hx.sound
  | lock | unlock => exact gentle_guarded (by trivial) hx.sound
  | committing hop =>
    cases hop with
    | playKube => exact ⟨hx.sound, nofun, nofun⟩
    | pushing hop => cases hop <;> exact gentle_guarded (by trivial) hx.sound
    | _ => exact gentle_guarded (by trivial) hx.sound

theorem deploy_ensures (hp : p.Issues (Applying req.toHost req.template req.slug)) (hx : Deployed s req x) :
    Guards s req (fun y _ => Deployed s req y) p x :=
  hp.ensures (fun _ _ _ _ hop hy h => deploy_step hop hy h)
    (fun _ _ hop hy => deploy_guarded hop hy) hx

/-- What an apply on the destination leaves: a success has stored the row. -/
def Stored (s : Service) (req : MigrateRequest) (x : Fleet × History) (r : Except Error Unit) : Prop :=
  Deployed s req x ∧ (r = .ok () → (x.1.rows.get req.dest).isSome = true)

theorem persistSpec_stores {sp : Spec} (hid : sp.id = req.dest) (hx : Deployed s req x) :
    Guards s req (Stored s req) (Service.persistSpec sp).run x := by
  have hgentle : ∀ {y : Fleet × History} {op : Op}, Deployed s req y → Gentle op →
      Guarded s req y op := fun hy hop => gentle_guarded hop hy.sound
  refine ensures_ask_bind (hgentle hx trivial) fun _ y hy => ?_
  have hlocked : Deployed s req y := Still.deployed (mild_step (by trivial) hy) hx
  refine ensures_ask_bind (hgentle hlocked trivial) fun found z hz => ?_
  have hfound : Deployed s req z := Still.deployed (mild_step (by trivial) hz) hlocked
  cases found with
  | error e =>
    refine ensures_ask_bind (hgentle hfound trivial) fun _ u hu => ?_
    exact ensures_throw.2 ⟨Still.deployed (mild_step (by trivial) hu) hfound, nofun⟩
  | ok t =>
    refine ensures_ask_bind (hgentle hfound trivial) fun wrote u hu => ?_
    have hwrote : Deployed s req u := Still.deployed (mild_step (by trivial) hu) hfound
    have hrow : wrote = .ok () → (u.1.rows.get req.dest).isSome = true := by
      intro hok
      rcases hu.1.2 with hput | ⟨-, hbad⟩
      · rw [hput, Rows.get_put, if_pos hid.symm]
        rfl
      · exact (hbad hok).elim
    refine ensures_ask_bind (hgentle hwrote trivial) fun _ v hv => ?_
    have hstill : Still req u v := mild_step (by trivial) hv
    refine ensures_ret.2 ⟨hstill.deployed hwrote, fun ha => hstill.row (hrow ?_)⟩
    cases wrote with
    | ok _ => rfl
    | error e => cases ha

theorem applyLocked_stores {areq : ApplyRequest} {opts : ApplyOptions}
    (htmpl : areq.template = req.template) (hslug : areq.slug = req.slug) (hx : Deployed s req x) :
    Guards s req (fun y out => Stored s req y out.1) (s.applyLocked req.toHost areq opts) x := by
  have hpush : (s.applyPush req.toHost areq opts).run.Issues (Applying req.toHost areq.template areq.slug) :=
    applyPush_issues (fun _ => .checking) fun _ h => .committing (.pushing h)
  rw [htmpl, hslug] at hpush
  refine (deploy_ensures hpush hx).bind fun y r hy => ?_
  cases r with
  | error e => exact ensures_ret.2 ⟨hy, nofun⟩
  | ok prep =>
    have hcommit : Guards s req (Stored s req) (s.applyCommit req.toHost areq opts prep).run y := by
      refine (deploy_ensures (issues_forM _ fun sec _ => ?_) hy).andThen
        (fun _ _ h => ⟨h, nofun⟩) fun z _ hz => ?_
      · exact (replaceSecret_issues _ _ _ _ _).mono fun op h => .committing (.pushing h)
      refine (deploy_ensures (ensureNetworks_issues _ fun n => .committing (.networkEnsure n))
        hz).andThen (fun _ _ h => ⟨h, nofun⟩) fun u networks hu => ?_
      refine (deploy_ensures (.mapErr (issues_perform.2
        (.committing (.playKube _ _ _)))) hu).andThen (fun _ _ h => ⟨h, nofun⟩) fun v _ hv => ?_
      have hid : (Service.appliedSpec req.toHost areq prep).id = req.dest := by
        show (⟨req.toHost, areq.template, areq.slug⟩ : SpecId) = req.dest
        rw [htmpl, hslug]
        rfl
      refine (persistSpec_stores hid hv).andThen (fun _ _ h => ⟨h.1, nofun⟩) fun v' _ hv' => ?_
      refine (gentle_ensures (refreshIngress_issues trivial) hv'.1.sound).imp fun a r ha => ?_
      exact ⟨ha.deployed hv'.1, fun _ => ha.row (hv'.2 rfl)⟩
    exact hcommit.map fun z r hz => hz

theorem apply_stores {areq : ApplyRequest} {opts : ApplyOptions}
    (htmpl : areq.template = req.template) (hslug : areq.slug = req.slug) (hx : Deployed s req x) :
    Guards s req (fun y out => Stored s req y out.1) (s.apply req.toHost areq opts) x := by
  have hlocked : ∀ {m : Mutex} {y : Fleet × History}
      {p : Prog calls (Except Error Unit × GoMap String)}, Deployed s req y →
      (∀ z, Deployed s req z → Guards s req (fun y out => Stored s req y out.1) p z) →
      Guards s req (fun y out => Stored s req y out.1) (locked m p) y := by
    intro m y p hy hp
    refine ensures_locked_still hy.sound ?_ (fun _ _ h => h.1.sound) fun z hz => hp z (hz.deployed hy)
    exact fun _ _ _ hstill h => ⟨hstill.deployed h.1, fun hok => hstill.row (h.2 hok)⟩
  unfold Service.apply
  split
  · exact hlocked hx fun z hz => applyLocked_stores htmpl hslug hz
  · exact hlocked hx fun z hz => hlocked hz fun u hu => applyLocked_stores htmpl hslug hu

theorem migratePostStop_ensures (tmpl : Template) (spec : Spec) (hx : Early req x) : Guards s req
      (fun y out => Reverted s req y ∧ (out.2 = .ok () → Committed s req y))
      (s.migratePostStop req tmpl spec) x := by
  have hprepare : (s.migratePrepare req tmpl).run.Issues Gentle :=
    migratePrepare_issues (fun op h => h.gentle) fun ps op h => h.gentle
  have hvolumes : (s.migrateVolumes req).run.Issues Gentle :=
    migrateVolumes_issues (fun op h => h.gentle) fun op h => h.gentle
  refine (early_ensures hprepare hx).bind fun y r hy => ?_
  cases r with
  | error e => exact ensures_ret.2 ⟨hy.reverted, nofun⟩
  | ok stopped =>
    refine .map (P := fun z r => Reverted s req z ∧
      (r = .ok () → Committed s req z)) ?_ fun z r hz => hz
    refine (early_ensures hvolumes hy).returned.andThen (fun z e hz => ⟨hz.1.reverted, nofun⟩) fun z _ hz => ?_
    obtain ⟨hearly, t, hpast, hret⟩ := hz
    have hdeployed : Deployed s req z := by
      refine ⟨hearly.apart, ?_, hearly.source, hearly.dest⟩
      rw [hpast]
      exact (migrateVolumes_returns hret).after
    have happly : Guards s req (Stored s req) (Act.mapErr (fun e => .wrap "apply on dest: " e "")
          (Act.lift (s.apply req.toHost (Service.migrateApply req spec)
            { replace := false, allowMissingSecrets := true } >>= fun out => pure out.1)) :
          Task Unit).run z := by
      refine ensures_mapErr.2 (ensures_bind.2 ?_)
      refine (apply_stores rfl rfl hdeployed).imp fun u out hu => ensures_ret.2 ?_
      refine ⟨hu.1, fun ha => hu.2 ?_⟩
      cases hout : out.1 with
      | ok _ => rfl
      | error e =>
        rw [hout] at ha
        cases ha
    refine happly.andThen (fun u e hu => ⟨hu.1.reverted, nofun⟩) fun u _ hu => ?_
    rw [ensures_mapErr]
    refine (gentle_ensures (waitRunning_issues.mono fun op h => h.gentle) hu.1.sound).returned.imp
      fun v r hv => ?_
    obtain ⟨hstill, t', hpast', hwait⟩ := hv
    have hv := hstill.deployed hu.1
    refine ⟨hv.reverted, fun hok => ?_⟩
    cases r with
    | error e => cases hok
    | ok _ =>
      refine ⟨hv.sound, ⟨hv.transferred, hstill.row (hu.2 rfl), ?_⟩, hv.apart, hv.dest⟩
      obtain ⟨p, hmem, hready⟩ := waitRunning_returns hwait
      exact ⟨p, hpast' ▸ List.mem_append_right _ hmem, hready⟩

theorem startPaired_gentle (host : String) (stopped : List PairedInstanceRef) :
    (forM stopped (s.startPaired host)).run.Issues Gentle :=
  startPaired_issues fun _ _ h => h.gentle

theorem migrateFinish_ensures {out : List PairedInstanceRef × Except Error Unit}
    (hback : Reverted s req x) (hforth : out.2 = .ok () → Committed s req x) :
    Guards s req (fun y _ => Sound s req y) (s.migrateFinish req out).run x := by
  obtain ⟨stopped, r⟩ := out
  cases r with
  | ok _ =>
    show Ensures _ _ _ (s.migrateCommit req stopped).run x
    refine ensures_run_bind.2 ?_
    rw [ensures_mapErr]
    refine ((source_deletable s req).delete _ (hforth rfl)).imp fun y r hy => ⟨fun _ _ => ?_, fun _ _ => hy.sound⟩
    exact sound_ensures (startPaired_gentle _ stopped) hy.sound
  | error e =>
    show Ensures _ _ _ (s.migrateRollback req stopped >>= fun _ => throw e : Task Unit).run x
    refine .andThen (P := fun y _ => Sound s req y) ?_ (fun _ _ h => h) fun y _ hy =>
      ensures_throw.2 hy
    refine (gentle_ensures (start_issues.mono fun op h => h.gentle) hback.sound).attemptThen fun y r hy => ?_
    refine ((dest_deletable s req).delete _ (hy.reverted hback)).attemptThen fun z r hz => ?_
    exact sound_ensures (startPaired_gentle _ stopped) hz.sound

theorem migrate_ensures (hfree : x.1.pods req.toHost req.pod = false) (hfrom : Unpruned req.fromHost x.2)
    (hto : Unpruned req.toHost x.2) : Guards s req (fun y _ => Sound s req y) (s.migrate req).run x := by
  have hsound : Sound s req x := by
    refine ⟨fun hpod => ?_, .inl hfrom, .inl hfrom⟩
    rw [hfree] at hpod
    cases hpod
  refine ensures_locked_still hsound (fun _ _ _ h hy => h.sound hy) (fun _ _ h => h) fun y hy => ?_
  refine ensures_require_bind (fun _ => hy.sound hsound) fun hne => ?_
  have hearly : Early req y :=
    hy.early ⟨by simpa using hne, hfree, hfrom, hto⟩
  refine ensures_require_bind (fun _ => hearly.sound) fun _ => ?_
  refine (early_ensures (issues_lookup trivial) hearly).andThen (fun _ _ h => h.sound) fun z tmpl hz => ?_
  refine .andThen (early_ensures (issues_perform.2 trivial) hz) (fun _ _ h => h.sound)
    fun u spec hu => ?_
  refine (early_ensures ((preflightDest_issues tmpl _).mono fun op h => h.gentle) hu).andThen
    (fun _ _ h => h.sound) fun v _ hv => ?_
  refine (early_ensures (stop_issues.mono fun op h => h.gentle).mapErr hv).andThen (fun _ _ h => h.sound)
    fun a _ ha => ?_
  refine (migratePostStop_ensures tmpl spec ha).embedThen fun b out hb => ?_
  exact migrateFinish_ensures hb.1 hb.2

end Move

end PodmanApi.Instance

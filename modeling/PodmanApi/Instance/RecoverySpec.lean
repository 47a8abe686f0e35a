/-
# PodmanApi.Instance.RecoverySpec — recovery passes, and whole runs.

A pass looks at both hosts and then settles on a direction. What it has seen is all it needs: a
source pod says that nothing of the source has been pruned, a healthy destination that the volumes
have been copied. `recovery_safe` puts the move and any number of passes together.
-/
import PodmanApi.Instance.RecoveryMove

namespace PodmanApi.Instance

open GoStd Calls

/-! ## A recovery pass -/

/-- What the observation of a healthy destination is worth. -/
structure Witnessed (s : Service) (req : MigrateRequest) (x : Fleet × History) : Prop where
  apart : req.fromHost ≠ req.toHost
  transferred : Transferred s req x.2
  kept : Unpruned req.toHost x.2
  ready : SeenReady s req x.2

structure Seen (s : Service) (req : MigrateRequest) (srcPresent : Bool) (ds : DestStatus)
    (x : Fleet × History) : Prop where
  sound : Sound s req x
  present : srcPresent = true → Reverted s req x
  absent : srcPresent = false → x.1.pods req.fromHost req.pod = false
  healthy : ds = .healthy → Witnessed s req x

variable {α : Type} {op : Op}

section Pass

variable {s : Service} {req : MigrateRequest} {x y : Fleet × History}

theorem Still.witnessed (h : Still req x y) (hx : Witnessed s req x) : Witnessed s req y :=
  ⟨hx.apart, h.transferred hx.transferred, h.unpruned hx.kept, h.ready hx.ready⟩

variable {ds : DestStatus} {src : Bool}

theorem Still.seen {srcPresent : Bool} (h : Still req x y)
    (hx : Seen s req srcPresent ds x) : Seen s req srcPresent ds y :=
  ⟨h.sound hx.sound, fun hsrc => h.reverted (hx.present hsrc), fun hsrc => h.absent (hx.absent hsrc),
    fun hds => h.witnessed (hx.healthy hds)⟩

theorem Sound.reverted (h : Sound s req x) (hpod : x.1.pods req.fromHost req.pod = true) : Reverted s req x := by
  refine ⟨h, fun hsame => ?_, ?_⟩
  · rw [hsame] at hpod
    exact (h.dest hpod).1 hsame
  · rcases h.gone with hkept | hgone
    · exact hkept
    · rw [hgone] at hpod
      cases hpod

theorem sourcePresent_ensures (hx : Sound s req x) : Guards s req
      (fun y out => Sound s req y ∧ (out.1 = true → Reverted s req y) ∧
        (out = (false, true) → y.1.pods req.fromHost req.pod = false))
      (sourcePresent req.fromHost req.template req.slug) x := by
  refine ensures_issue_bind (Op.podInspect req.fromHost req.pod)
    (gentle_guarded (by trivial) hx) fun r y hy => ?_
  have hstill : Still req x y := mild_step (by trivial) hy
  have hsound := hstill.sound hx
  obtain ⟨⟨hsame, hthere, hmissing⟩, -⟩ := hy
  cases r with
  | ok p =>
    refine ensures_ret.2 ⟨hsound, fun _ => hsound.reverted ?_, nofun⟩
    rw [hsame]
    exact hthere p rfl
  | error e =>
    refine ensures_ret.2 ⟨hsound, nofun, fun hout => ?_⟩
    rw [hsame]
    exact hmissing e rfl (congrArg Prod.snd hout)

theorem destState_ensures (hx : Sound s req x) : Guards s req
      (fun y ds => Still req x y ∧ (ds = .healthy → Witnessed s req y))
      (s.destState req.toHost req.template req.slug) x := by
  refine ensures_issue_bind (Op.podInspect req.toHost req.pod) (gentle_guarded (by trivial) hx) fun r y hy => ?_
  have hstill : Still req x y := mild_step (by trivial) hy
  have hsound := hstill.sound hx
  obtain ⟨⟨hsame, hthere, -⟩, -⟩ := hy
  cases r with
  | error e =>
    refine ensures_ret.2 ⟨hstill, fun hds => ?_⟩
    split at hds <;> cases hds
  | ok p =>
    have hpod : y.1.pods req.toHost req.pod = true := by
      rw [hsame]
      exact hthere p rfl
    obtain ⟨hne, htrans, hkept⟩ := hsound.dest hpod
    refine (gentle_ensures (waitRunning_issues.mono fun op h => h.gentle)
      hsound).returned.bind fun z r hz => ?_
    obtain ⟨hwait, t, hpast, hret⟩ := hz
    cases r with
    | ok _ =>
      refine ensures_ret.2 ⟨hstill.trans hwait, fun _ => ⟨hne, hwait.transferred htrans,
        hwait.unpruned hkept, ?_⟩⟩
      obtain ⟨q, hmem, hready⟩ := waitRunning_returns hret
      exact ⟨q, hpast ▸ List.mem_append_right _ hmem, hready⟩
    | error e =>
      refine ensures_issue_bind (Op.podInspect req.toHost req.pod)
        (gentle_guarded (by trivial) (hwait.sound hsound)) fun r u hu => ?_
      have hlast : Still req z u := mild_step (by trivial) hu
      cases r with
      | ok q => exact ensures_ret.2 ⟨(hstill.trans hwait).trans hlast, fun h => by cases h⟩
      | error e =>
        refine ensures_ret.2 ⟨(hstill.trans hwait).trans hlast, fun hds => ?_⟩
        split at hds <;> cases hds

theorem observeHosts_ensures (hx : Sound s req x) : Guards s req
      (fun y r => Sound s req y ∧ ∀ src ds, r = .ok (src, ds) → Seen s req src ds y)
      (s.observeHosts req).run x := by
  refine ensures_require_bind (fun _ => ⟨hx, nofun⟩) fun _ => ?_
  refine ensures_require_bind (fun _ => ⟨hx, nofun⟩) fun _ => ?_
  refine (sound_ensures (requireTemplate_issues trivial) hx).andThen (fun _ _ h => ⟨h, nofun⟩) fun y _ hy => ?_
  refine (sourcePresent_ensures hy).embedThen fun z out hz => ?_
  obtain ⟨src, reachable⟩ := out
  obtain ⟨hsound, hpresent, habsent⟩ := hz
  refine ensures_require_bind (fun _ => ⟨hsound, nofun⟩) fun hreach => ?_
  have hsrc : src = false → z.1.pods req.fromHost req.pod = false := by
    intro h
    exact habsent (by rw [h, hreach])
  refine (destState_ensures hsound).embedThen fun u ds hu => ?_
  obtain ⟨hstill, hhealthy⟩ := hu
  have hseen : Seen s req src ds u :=
    ⟨hstill.sound hsound, fun h => hstill.reverted (hpresent h), fun h => hstill.absent (hsrc h),
      hhealthy⟩
  refine ensures_require_bind (fun _ => ⟨hseen.sound, nofun⟩) fun _ => ?_
  refine (gentle_ensures (requireContext_issues trivial) hseen.sound).andThen (fun _ _ h => ⟨h.sound hseen.sound, nofun⟩)
    fun v _ hv => ?_
  refine ensures_pure.2 ⟨hv.sound hseen.sound, fun src' ds' hok => ?_⟩
  obtain ⟨rfl, rfl⟩ := Prod.mk.inj (Except.ok.inj hok)
  exact hv.seen hseen

theorem destSpecState_ensures {σ : Type} {S : Calls.Service calls σ} {G : σ → Op → Prop} {y : σ}
    (hG : G y (Op.getSpec host tmpl slug)) :
    Ensures S G (fun z st => ∃ r, S y (Op.getSpec host tmpl slug) r z ∧ (st = .persisted → ∃ sp, r = .ok sp))
      (destSpecState host tmpl slug) y := by
  refine ensures_issue_bind (Op.getSpec host tmpl slug) hG fun r z hz => ?_
  cases r with
  | ok sp => exact ensures_ret.2 ⟨_, hz, fun _ => ⟨sp, rfl⟩⟩
  | error e =>
    refine ensures_ret.2 ⟨_, hz, fun hst => ?_⟩
    split at hst
    · cases hst
    · split at hst
      · cases hst
      · split at hst <;> cases hst

theorem destCommitted_ensures (hx : Seen s req src ds x) : Guards s req
      (fun y r => Seen s req src ds y ∧ (r = .ok true → Committed s req y))
      (Service.destCommitted req ds).run x := by
  unfold Service.destCommitted
  split
  · rename_i hds
    have hds : ds = .healthy := by simpa using hds
    refine (destSpecState_ensures (gentle_guarded (by trivial) hx.sound)).embedThen fun y st ⟨r, hy, hst⟩ => ?_
    have hstill : Still req x y := mild_step (by trivial) hy
    have hseen := hstill.seen hx
    obtain ⟨⟨hsame, hrow⟩, -⟩ := hy
    cases st with
    | persisted =>
      obtain ⟨sp, rfl⟩ := hst rfl
      have hhealthy := hseen.healthy hds
      refine ensures_pure.2 ⟨hseen, fun _ => ⟨hseen.sound, ⟨hhealthy.transferred, ?_,
        hhealthy.ready⟩, hhealthy.apart, hhealthy.kept⟩⟩
      have hget : y.1.rows.get req.dest = some sp := by
        rw [hsame]
        exact hrow sp rfl
      rw [hget]
      rfl
    | absent => exact ensures_pure.2 ⟨hseen, nofun⟩
    | corrupt | inconclusive | needsKey => exact ensures_throw.2 ⟨hseen, nofun⟩
  · exact ensures_pure.2 ⟨hx, nofun⟩

theorem orInconclusive_ensures {t : Task α} {P : Fleet × History → Prop}
    (h : Guards s req (fun y _ => P y) t.run x) : Guards s req (fun y _ => P y) (orInconclusive t).run x :=
  h.map fun _ _ hy => hy

theorem reapSource_ensures (hx : Seen s req src ds x) (hcommitted : Committed s req x) :
    Guards s req (fun y _ => Sound s req y) (s.reapSource req src).run x := by
  have hdel := source_deletable s req
  unfold Service.reapSource
  split
  · exact (orInconclusive_ensures (hdel.delete _ hcommitted)).imp fun _ _ h => h.sound
  · rename_i hsrc
    have hgone := hx.absent (by simpa using hsrc)
    exact (hdel.reap reapOrphan_issues ⟨hcommitted, hgone⟩).imp fun _ _ h => h.sound

theorem settle_ensures {done : Bool} (hx : Seen s req src ds x) (hdone : done = true → Committed s req x) :
    Guards s req (fun y _ => Sound s req y) (s.settle req src ds done).run x := by
  unfold Service.settle
  split
  · rename_i hd
    refine (gentle_ensures (orInconclusive_issues (refreshIngress_issues trivial)) hx.sound).andThen
      (fun _ _ h => h.sound hx.sound) fun y _ hy => ?_
    refine (reapSource_ensures (hy.seen hx) (hy.committed (hdone hd))).andThen (fun _ _ h => h)
      fun z _ hz => ?_
    refine (sound_ensures (restorePaired_issues fun _ _ h => h.gentle) hz).andThen (fun _ _ h => h) fun u _ hu => ?_
    exact ensures_pure.2 hu
  · split
    · rename_i hsrc
      have hback := hx.present hsrc
      refine (gentle_ensures (orInconclusive_issues (start_issues.mono fun op h => h.gentle))
        hx.sound).andThen (fun _ _ h => h.sound hx.sound) fun y _ hy => ?_
      refine (gentle_ensures (restorePaired_issues fun _ _ h => h.gentle) (hy.sound hx.sound)).andThen
        (fun _ _ h => h.sound (hy.sound hx.sound)) fun z _ hz => ?_
      have hdel := (dest_deletable s req).delete { pruneVolumes := true, pruneSecrets := true }
        (hz.reverted (hy.reverted hback))
      refine (orInconclusive_ensures hdel).andThen (fun _ _ h => h.sound) fun u _ hu => ?_
      exact ensures_pure.2 hu.sound
    · exact ensures_pure.2 hx.sound

theorem reconcileMigrate_ensures (hx : Sound s req x) :
    Guards s req (fun y _ => Sound s req y) (s.reconcileMigrate req) x := by
  refine ensures_locked_still hx (fun _ _ _ h hy => h.sound hy) (fun _ _ h => h) fun y hy => ?_
  refine .map (P := fun z _ => Sound s req z) ?_ fun z _ hz => hz
  refine (observeHosts_ensures (hy.sound hx)).andThen (fun _ _ h => h.1) fun z out hz => ?_
  obtain ⟨src, ds⟩ := out
  refine (destCommitted_ensures (hz.2 src ds rfl)).andThen (fun _ _ h => h.1.sound) fun u done hu => ?_
  exact settle_ensures hu.1 fun hdone => hu.2 (by rw [hdone])

end Pass

/-! ## A pass removes nothing of the destination before the source is up -/

section Restart

variable {s : Service} {req : MigrateRequest} {past t : History}

theorem Restarted.mono (h : Restarted s req past) : Restarted s req (past ++ t) := by
  obtain ⟨before, start, after, o, rfl, hstart⟩ := h
  exact ⟨before, start, after ++ t, o, by rw [List.append_assoc (before ++ start)], hstart⟩

def Ordered (s : Service) (req : MigrateRequest) (past : History) (op : Op) : Prop :=
  RemovesDest req op → Restarted s req past

theorem sparing_ensures {p : Prog calls α} (hp : p.Issues fun op => ¬RemovesDest req op) :
    Ensures (anything calls) (Ordered s req) (fun past' a => ∃ t, past' = past ++ t ∧ Returns p t a) p past :=
  hp.ensures_returns (fun _ _ hop hrem => (hop hrem).elim) past

theorem restarted_ensures {p : Prog calls α} (h : Restarted s req past) :
    Ensures (anything calls) (Ordered s req) (fun past' _ => Restarted s req past') p past :=
  (issues_true p).ensures (fun _ _ _ _ _ hy hstep => hstep ▸ hy.mono) (fun _ _ _ hy _ => hy) h

theorem Gentle.sparing (hop : Gentle op) : ¬RemovesDest req op := by
  cases op with
  | podRemove | volumeRemove | deleteSpec => exact hop.elim
  | _ => exact id

theorem Deleting.sparing (hne : req.fromHost ≠ req.toHost)
    (hop : Deleting req.fromHost req.template req.slug op) : ¬RemovesDest req op := by
  cases hop with
  | pruning hop =>
    cases hop with
    | volumeRemove => exact hne
    | _ => exact id
  | podRemove | deleteSpec => exact fun h => hne h.1
  | _ => exact id

theorem rollForward_sparing (hne : req.fromHost ≠ req.toHost) (src : Bool) :
    (s.rollForward req src).run.Issues fun op => ¬RemovesDest req op := by
  have hdeleting : ∀ {α : Type} {p : Prog calls α}, p.Issues (Deleting req.fromHost req.template req.slug) →
      p.Issues fun op => ¬RemovesDest req op := fun hp => hp.mono fun op h => h.sparing hne
  refine (orInconclusive_issues (refreshIngress_issues id)).andThen fun _ => ?_
  refine .andThen ?_ fun _ => (restorePaired_issues fun _ _ h => h.gentle.sparing).andThen
    fun _ => issues_pure
  unfold Service.reapSource
  split
  · exact orInconclusive_issues (hdeleting (delete_issues _))
  · exact hdeleting reapOrphan_issues

theorem reconcileMigrate_ordered (hne : req.fromHost ≠ req.toHost) :
    Ensures (anything calls) (Ordered s req) (fun _ _ => True) (s.reconcileMigrate req) [] := by
  have hback : ∀ past, Ensures (anything calls) (Ordered s req) (fun _ _ => True)
      (s.rollBack req).run past := by
    intro past
    have hstart : Ensures (anything calls) (Ordered s req)
        (fun past' r => ∀ o, r = .ok o → Restarted s req past')
        (orInconclusive (s.start req.fromHost req.template req.slug)).run past := by
      refine (sparing_ensures (start_issues.mono fun op h => h.gentle.sparing)).map
        fun past' r hr => fun o ho => ?_
      obtain ⟨t, rfl, hret⟩ := hr
      cases r with
      | error e => cases ho
      | ok o' => exact ⟨past, t, [], o', (List.append_nil _).symm, hret⟩
    refine hstart.andThen (fun _ _ _ => trivial) fun past' o ho => ?_
    exact (restarted_ensures (ho o rfl)).imp fun _ _ _ => trivial
  refine ensures_lock (fun h => h.elim) fun past hpast => ?_
  refine .bind (P := fun _ _ => True) ?_ fun past' r _ =>
    ensures_ret.2 ⟨fun h => h.elim, fun _ _ => trivial⟩
  refine (sparing_ensures (observeHosts_issues.mono fun op h => h.gentle.sparing)).andThen
    (fun _ _ _ => trivial) fun past₁ out _ => ?_
  obtain ⟨src, ds⟩ := out
  refine (sparing_ensures ((destCommitted_issues ds).mono fun op h => h.gentle.sparing)).andThen
    (fun _ _ _ => trivial) fun past₂ done _ => ?_
  unfold Service.settle
  split
  · exact (sparing_ensures (rollForward_sparing hne src)).imp fun _ _ _ => trivial
  · split
    · exact hback past₂
    · exact ensures_pure.2 trivial

end Restart

/-! ## Whole runs -/

section Runs

variable {s : Service} {req : MigrateRequest} {w w' : Fleet} {ts : List History} {waiting : Option Op}

/-- At every point of a run the history is sound, and the call that waits there is guarded. -/
theorem recovery_guarded (hfree : w.pods req.toHost req.pod = false) (h : Recovery s req w ts w' waiting) :
    Sound s req (w', ts.flatten) ∧ ∀ op, waiting = some op → Guarded s req (w', ts.flatten) op := by
  have hpoint : ∀ {α : Type} {q : Prog calls α} {x : Fleet × History},
      Guards s req (fun y _ => Sound s req y) q x →
      Sound s req x ∧ ∀ op, q.next = some op → Guarded s req x op := by
    intro α q x hq
    cases q with
    | ret a => exact ⟨(ensures_ret (Q := fun y _ => Sound s req y)).1 hq, nofun⟩
    | call op k =>
      have hguard := (ensures_call.1 hq).1
      exact ⟨hguard.1, fun op' hop => Option.some.inj hop ▸ hguard⟩
  induction h with
  | @migrate t w' q hrun =>
    have hstart : Guards s req (fun y _ => Sound s req y)
        (s.migrate req).run (w, []) :=
      migrate_ensures hfree (unpruned_nil _) (unpruned_nil _)
    have hq := hpoint (hstart.exec (hrun.traced []))
    simpa using hq
  | @pass ts w' w'' waiting t q before hrun ih =>
    have hq := hpoint ((reconcileMigrate_ensures ih.1).exec (hrun.traced ts.flatten))
    simpa using hq

/-- A move to a host that has no pod of the instance and recovery passes after it, each stopped anywhere: the
source loses a volume or its row only when every volume of `InstanceVolumes` has been copied, the destination has
its row and its pod has been seen ready; a pass removes something of the destination only after its own start of
the source has succeeded; and no volume is removed on both hosts. -/
theorem recovery_safe (hfree : w.pods req.toHost req.pod = false) (h : Recovery s req w ts w' waiting) :
    (∀ op, waiting = some op → RemovesSource req op →
      Transferred s req ts.flatten ∧ (w'.rows.get req.dest).isSome = true ∧ SeenReady s req ts.flatten) ∧
    (∀ past t op, past ≠ [] → ts = past ++ [t] → waiting = some op → RemovesDest req op → Restarted s req t) ∧
    ∀ name, ¬(Pruned req.fromHost name ts.flatten ∧ Pruned req.toHost name ts.flatten) := by
  obtain ⟨hsound, hguard⟩ := recovery_guarded hfree h
  refine ⟨fun op hop hrem => ?_, fun past t op hpast hts hop hrem => ?_, fun name hboth => ?_⟩
  · have hhanded := (hguard op hop).2.1 hrem
    exact ⟨hhanded.transferred, hhanded.row, hhanded.ready⟩
  · have hne := (hguard op hop).2.2 hrem
    cases h with
    | migrate hrun =>
      have hlen := congrArg List.length hts
      rw [List.length_append, List.length_singleton, List.length_singleton] at hlen
      have hempty : past.length = 0 := by omega
      exact (hpast (List.length_eq_zero_iff.1 hempty)).elim
    | @pass ts w' _ _ t' q before hrun =>
      obtain ⟨-, htt⟩ := List.append_inj' hts rfl
      obtain rfl : t' = t := by simpa using htt
      have hq := (reconcileMigrate_ordered (s := s) hne).exec (hrun.forget [])
      cases q with
      | ret a => cases hop
      | call op' k =>
        obtain rfl : op' = op := Option.some.inj hop
        exact (ensures_call.1 hq).1 hrem
  · rcases hsound.apart with hun | hun
    · exact hun name hboth.1
    · exact hun name hboth.2

end Runs

/-! ## A destination that had a pod of its own -/

def volumeTemplate : Template where
  metadata := { exampleTemplate.metadata with
    parameters := [⟨"slug", true, none⟩], volumes := [⟨"data", "", [], none⟩] }
  body := exampleTemplate.body

def reachableHosts : Handler calls Fleet
  | w, .podInspect host name =>
    (if w.pods host name then .ok ⟨"Running", []⟩ else .error (.sentinel .podmanNotFound), w)
  | w, .playKube host _ _ _ =>
    (.ok (), { w with pods := fun h n => w.pods h n || h == host && n == "web-shop" })
  | w, .podRemove host name _ =>
    if w.pods host name then
      (.ok (), { w with pods := fun h n => w.pods h n && !(h == host && n == name) })
    else (.error (.sentinel .podmanNotFound), w)
  | w, .getSpec host tmpl slug => (found .storeNotFound (w.rows.get ⟨host, tmpl, slug⟩), w)
  | w, .putSpec sp => (.ok (), { w with rows := w.rows.put sp })
  | w, .deleteSpec host tmpl slug => (.ok (), { w with rows := w.rows.erase ⟨host, tmpl, slug⟩ })
  | w, .getTemplate _ => (.ok volumeTemplate, w)
  | w, op => (op.plain, w)

theorem reachableHosts_fleet {w w' : Fleet} {r : op.Ans}
    (h : reachableHosts.service w op r w') : fleet w op r w' := by
  obtain ⟨hans, hnext⟩ := Handler.answered h
  cases op with
  | podInspect host name =>
    refine ⟨hnext.symm, fun p hp => ?_, fun e he hmissing => ?_⟩
    · simp only [reachableHosts] at hans
      split at hans
      · assumption
      · rw [← hans] at hp
        cases hp
    · simp only [reachableHosts] at hans
      split at hans
      · rw [← hans] at he
        cases he
      · simpa using ‹¬w.pods host name = true›
  | playKube host =>
    rw [← hnext]
    refine ⟨rfl, fun h hne => ?_⟩
    funext n
    simp [reachableHosts, hne]
  | podRemove host name force =>
    simp only [reachableHosts] at hans hnext
    by_cases hpod : w.pods host name = true
    · rw [if_pos hpod] at hans hnext
      rw [← hnext, ← hans]
      refine ⟨rfl, fun h n hn => ?_, fun h n hne => ?_, fun _ => by simp, nofun⟩
      · have := hn
        simp only [Bool.and_eq_true] at this
        exact this.1
      · have hout : (h == host && n == name) = false := by simpa using hne
        show (w.pods h n && !(h == host && n == name)) = w.pods h n
        rw [hout]
        simp
    · rw [if_neg hpod] at hans hnext
      rw [← hnext, ← hans]
      refine ⟨rfl, fun _ _ => id, fun _ _ _ => rfl, nofun, fun _ _ _ => ?_⟩
      simpa using hpod
  | getSpec host tmpl slug =>
    refine ⟨hnext.symm, fun sp hsp => ?_⟩
    exact found_eq_ok.1 (hans.trans hsp)
  | putSpec sp | deleteSpec host tmpl slug =>
    rw [← hnext]
    exact ⟨rfl, .inl rfl⟩
  | _ => exact hnext.symm

/-- The instance runs on `engine-1`; `twin` says whether `engine-2` has one of the same name. -/
def twinFleet (twin : Bool) : Fleet where
  pods host name := name == "web-shop" && (host == "engine-1" || twin && host == "engine-2")
  rows := ⟨if twin then [exampleRow, { exampleRow with host := "engine-2" }] else [exampleRow],
    by cases twin <;> decide⟩

def twinMove : MigrateRequest :=
  ⟨"engine-1", "engine-2", "web", "shop", [], []⟩

@[irreducible]
def twinRun (twin : Bool) (n : Nat) : Prog calls (Except Error Unit) × History × Fleet :=
  (exampleService.migrate twinMove).run.evalFor reachableHosts n (twinFleet twin)

@[irreducible]
def twinPass (twin : Bool) (n m : Nat) : Prog calls Verdict × History × Fleet :=
  (exampleService.reconcileMigrate twinMove).evalFor reachableHosts m (twinRun twin n).2.2

theorem twinRun_exec (twin : Bool) (n : Nat) :
    Exec fleet (twinFleet twin) (exampleService.migrate twinMove).run (twinRun twin n).2.1
      (twinRun twin n).2.2 (twinRun twin n).1 := by
  exact (Prog.exec_of_evalFor (twinRun.eq_def ..)).mono fun _ _ _ _ h => reachableHosts_fleet h

theorem twinPass_exec (twin : Bool) (n m : Nat) :
    Exec fleet (twinRun twin n).2.2 (exampleService.reconcileMigrate twinMove)
      (twinPass twin n m).2.1 (twinPass twin n m).2.2 (twinPass twin n m).1 := by
  exact (Prog.exec_of_evalFor (twinPass.eq_def ..)).mono fun _ _ _ _ h => reachableHosts_fleet h

/-- A move to a free host that is about to remove the volume of its source has copied it, has stored
the new row and has seen the new pod ready. -/
theorem recovery_safe_example : (twinRun false 35).1.next = some (.volumeRemove "engine-1" "web-shop-data" true) ∧
      Transferred exampleService twinMove (twinRun false 35).2.1 ∧
      ((twinRun false 35).2.2.rows.get twinMove.dest).isSome = true ∧
      SeenReady exampleService twinMove (twinRun false 35).2.1 := by
  have hnext : (twinRun false 35).1.next = some (.volumeRemove "engine-1" "web-shop-data" true) := by
    decide +kernel
  have hsafe := (recovery_safe (by decide) (.migrate (twinRun_exec false 35))).1 _ hnext rfl
  simp only [List.flatten_cons, List.flatten_nil, List.append_nil] at hsafe
  exact ⟨hnext, hsafe⟩

theorem instanceVolumes_inspects {s : Service} {host tmpl slug : String} {t : History}
    {vols : List HostVolume} (h : Returns (s.instanceVolumes host tmpl slug).run t (.ok vols)) :
    ∃ found, ⟨.getTemplate tmpl, .ok found⟩ ∈ t ∧
      (found.metadata.volumes ≠ [] → ∃ name r, ⟨.volumeInspect host name, r⟩ ∈ t) := by
  obtain ⟨t₁, t₂, found, hlookup, hloop, rfl⟩ := returns_bind_ok.1 h
  obtain rfl := lookup_returns hlookup
  refine ⟨found, by simp, fun hne => ?_⟩
  obtain ⟨v, vs, hvs⟩ := List.exists_cons_of_ne_nil hne
  rw [hvs] at hloop
  obtain ⟨t₃, t₄, out, hround, -, rfl⟩ := returns_bind_ok.1 hloop
  obtain ⟨t₅, t₆, r, hinspect, -, rfl⟩ := returns_bind_ok.1 hround
  obtain rfl := returns_ask.1 hinspect
  exact ⟨volumeName tmpl slug v.name, r, by simp⟩

def showsListing : Event calls → Bool
  | ⟨.getTemplate _, .ok found⟩ => found.metadata.volumes.isEmpty
  | ⟨.volumeInspect _ _, _⟩ => true
  | _ => false

theorem not_transferred {s : Service} {req : MigrateRequest} {past : History}
    (h : past.any showsListing = false) : ¬Transferred s req past := by
  rintro ⟨before, listing, after, vols, rfl, hlist, -⟩
  have hnone : ∀ e ∈ listing, showsListing e = false := by
    intro e he
    rw [List.any_eq_false] at h
    simpa using h e (List.mem_append_left _ (List.mem_append_right _ he))
  obtain ⟨found, hfound, hinspect⟩ := instanceVolumes_inspects hlist
  have hvolumes : found.metadata.volumes ≠ [] := by
    intro hempty
    have := hnone _ hfound
    simp [showsListing, hempty] at this
  obtain ⟨name, r, hmem⟩ := hinspect hvolumes
  exact nomatch hnone _ hmem

/-- The destination runs an instance of the same name. The move is refused before it lists a volume; a pass takes
the stranger for its result and removes the source's volume. -/
theorem recovery_removes_uncopied : ∃ ts w', Recovery exampleService twinMove (twinFleet true) ts w'
        (some (.volumeRemove "engine-1" "web-shop-data" true)) ∧
      ¬Transferred exampleService twinMove ts.flatten := by
  have hnext : (twinPass true 100 16).1.next =
      some (.volumeRemove "engine-1" "web-shop-data" true) := by decide +kernel
  have hrun := Recovery.pass (.migrate (twinRun_exec true 100)) (twinPass_exec true 100 16)
  rw [hnext] at hrun
  refine ⟨_, _, hrun, not_transferred ?_⟩
  decide +kernel

end PodmanApi.Instance

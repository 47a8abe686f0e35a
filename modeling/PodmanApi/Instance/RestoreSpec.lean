/-
# PodmanApi.Instance.RestoreSpec — what a failed or interrupted restore leaves of the stored row.

A restore deletes the row in the middle of its work and writes it back later. When it FAILS, the row is as it
was, unless an ingress refresh fails while the row is gone, or the secrets were all pushed: the error path has a
map that `Apply` has blanked. When it is INTERRUPTED, see `interrupted_restore_accepted_iff`.
-/
import PodmanApi.Calls.Fallible
import PodmanApi.Instance.Durable

namespace PodmanApi.Instance

open GoStd Calls

/-! ## Quiet programs -/

variable {op : Op} {host tmpl slug : String} {c : Codec}

theorem Checking.quiet (h : Checking op) : Quiet op := by
  cases h <;> trivial

theorem Waiting.quiet {name : String} (h : Waiting host name op) : Quiet op := by
  cases h <;> trivial

theorem Pruning.quiet (h : Pruning host tmpl op) : Quiet op := by
  cases h <;> trivial

section Quiet

variable {unreliable : Prop} {J : Durable × Noted → Prop} {α β : Type} {x : Durable × Noted}

theorem quiet_ensures {p : Prog calls α} (hp : p.Issues Quiet) (hJ : J x) :
    Ensures (noting unreliable) (fun y _ => J y) (fun y _ => y = x) p x := by
  refine hp.ensures (fun y op r y' hq hy hstep => ?_) (fun y _ _ hy => ?_) rfl
  · rw [quiet_step hstep hq, hy]
  · rw [hy]
    exact hJ

theorem quiet_andThen {t : Task α} {f : α → Task β} {Q : Durable × Noted → Except Error β → Prop}
    (ht : t.run.Issues Quiet) (hJ : J x) (herr : ∀ e, Q x (.error e))
    (hf : ∀ a, Ensures (noting unreliable) (fun y _ => J y) Q (f a).run x) :
    Ensures (noting unreliable) (fun y _ => J y) Q (t >>= f).run x := by
  refine (quiet_ensures ht hJ).andThen (fun y e hy => ?_) (fun y a hy => ?_)
  · rw [hy]
    exact herr e
  · rw [hy]
    exact hf a

theorem ensures_locked {m : Mutex} {p : Prog calls α} {Q : Durable × Noted → α → Prop} (hJ : J x)
    (h : Ensures (noting unreliable) (fun y _ => J y) Q p x) (hQ : ∀ y a, Q y a → J y) :
    Ensures (noting unreliable) (fun y _ => J y) Q (locked m p) x := by
  refine ensures_lock hJ fun y hlock => ?_
  rw [lock_step hlock]
  refine h.imp fun y a hy => ⟨hQ y a hy, fun z hunlock => ?_⟩
  rw [unlock_step hunlock]
  exact hy

theorem ensures_withLock {m : Mutex} {t : Task α} {Q : Durable × Noted → Except Error α → Prop}
    (hJ : J x) (h : Ensures (noting unreliable) (fun y _ => J y) Q t.run x) (hQ : ∀ y r, Q y r → J y) :
    Ensures (noting unreliable) (fun y _ => J y) Q (withLock m t).run x :=
  ensures_locked hJ h hQ

end Quiet

theorem Restoring.quiet {b : Backup} {bv : BackupVolume} (h : Restoring b bv op) : Quiet op := by
  cases h <;> trivial

/-! ## The way into a restore -/

section Admission

variable {s : Service} {id : String} {b : Backup} {unreliable : Prop} {J : Durable × Noted → Prop}
  {x : Durable × Noted}

theorem checkRestorable_ensures (hJ : J x) : Ensures (noting unreliable) (fun y _ => J y)
      (fun y r => y = x ∧ ∀ b, r = .ok b → x.1.backups id = some b) (s.checkRestorable id).run x := by
  have hget : Ensures (noting unreliable) (fun y _ => J y)
      (fun y r => y = x ∧ ∀ b, r = .ok b → x.1.backups id = some b) (Service.getBackup id).run x := by
    refine ensures_mapErr.2 (ensures_issue (Op.getBackup id) hJ fun r y hr => ?_)
    obtain ⟨hy, hb⟩ := getBackup_step hr
    refine ⟨hy, fun b hok => ?_⟩
    cases r with
    | ok b' => exact hb b hok
    | error e => cases hok
  refine quiet_andThen issues_require hJ (fun e => ⟨rfl, nofun⟩) fun _ => ?_
  refine hget.andThen (fun y e hy => ⟨hy.1, nofun⟩) fun y b hy => ?_
  obtain ⟨rfl, hb⟩ := hy
  refine quiet_andThen issues_require hJ (fun e => ⟨rfl, nofun⟩) fun _ => ?_
  refine quiet_andThen issues_require hJ (fun e => ⟨rfl, nofun⟩) fun _ => ?_
  refine quiet_andThen issues_require hJ (fun e => ⟨rfl, nofun⟩) fun _ => ?_
  refine quiet_andThen (.mapErr (issues_perform.2 trivial)) hJ (fun e => ⟨rfl, nofun⟩) fun _ => ?_
  refine quiet_andThen (preflightBlobs_issues fun _ => trivial) hJ (fun e => ⟨rfl, nofun⟩) fun _ => ?_
  exact ensures_pure.2 ⟨rfl, fun b' hb' => Except.ok.inj hb' ▸ hb b rfl⟩

/-- A restore of a snapshot is its admission, twice, and then `snapshotRestore` of the stored
backup. -/
theorem restore_ensures {Q : Durable × Noted → Except Error Unit → Prop}
    (hb : x.1.backups id = some b) (hmode : b.mode ≠ "live") (hJ : J x) (hQ : ∀ y r, Q y r → J y)
    (herr : ∀ e, Q x (.error e))
    (hsnap : Ensures (noting unreliable) (fun y _ => J y) Q (s.snapshotRestore b).run x) :
    Ensures (noting unreliable) (fun y _ => J y) Q (s.restore id).run x := by
  refine (checkRestorable_ensures hJ).andThen (fun y e hy => hy.1 ▸ herr e) fun y b' hy => ?_
  obtain ⟨rfl, -⟩ := hy
  refine ensures_withLock hJ ?_ hQ
  refine (checkRestorable_ensures hJ).andThen (fun z e hz => hz.1 ▸ herr e) fun z b'' hz => ?_
  obtain ⟨rfl, hsame⟩ := hz
  obtain rfl : b = b'' := Option.some.inj (hb.symm.trans (hsame b'' rfl))
  rw [if_neg (by simpa using hmode)]
  exact hsnap

end Admission

/-! ## The secrets a restore hands to `Apply` -/

/-- The name and the payload under which a secret of the template is created. -/
def pushed (c : Codec) (tmpl slug : String) (p : String × String) : String × String :=
  (instanceSecretName tmpl slug p.1,
    wrapAsKubeSecret c (instanceSecretName tmpl slug p.1) (instanceSecretName tmpl slug p.1) p.2)

theorem instanceSecretName_inj {k k' : String}
    (h : instanceSecretName tmpl slug k = instanceSecretName tmpl slug k') : k = k' := by
  have hlist := congrArg String.toList h
  simp only [instanceSecretName, String.toList_append] at hlist
  exact String.toList_inj.1 (List.append_cancel_left hlist)

theorem zeroed_eq_iff (m : GoMap String) : zeroed m = m ↔ ∀ p ∈ m, p.2 = "" := by
  induction m with
  | nil => simp [zeroed]
  | cons p m ih =>
    have hhead : ((p.1, "") : String × String) = p ↔ p.2 = "" :=
      ⟨fun h => by rw [← h], fun h => by rw [← h]⟩
    rw [List.forall_mem_cons, ← ih, ← hhead]
    exact List.cons_eq_cons

def Pushed (c : Codec) (tmpl slug : String) (secrets : GoMap String) (n : Noted) : Prop :=
  ∀ p ∈ secrets, pushed c tmpl slug p ∈ n.created

/-- Blanking the map would lose nothing, or has not happened yet: some secret is not created. -/
def Unpushed (c : Codec) (tmpl slug : String) (secrets : GoMap String) (n : Noted) : Prop :=
  (∀ p ∈ secrets, p.2 = "") ∨ ∃ p ∈ secrets, pushed c tmpl slug p ∉ n.created

instance (c : Codec) (tmpl slug : String) (secrets : GoMap String) (n : Noted) :
    Decidable (Unpushed c tmpl slug secrets n) :=
  inferInstanceAs (Decidable (_ ∨ _))

theorem unpushed_of_created_nil {secrets : GoMap String} {n : Noted}
    (h : n.created = []) : Unpushed c tmpl slug secrets n := by
  by_cases hblank : ∀ p ∈ secrets, p.2 = ""
  · exact .inl hblank
  · push Not at hblank
    obtain ⟨p, hp, -⟩ := hblank
    exact .inr ⟨p, hp, by rw [h]; exact List.not_mem_nil⟩

section Push

variable {s : Service} {unreliable : Prop} {x : Durable × Noted} {host tmpl slug : String}
  {secrets : GoMap String}

theorem replaceSecret_ensures (c : Codec) (word name key value : String) : Ends (noting unreliable)
      (fun y r => r = .ok ⟨⟩ ∧ y.2.stranded = x.2.stranded ∧
          y.2.created = x.2.created ++ [(name, wrapAsKubeSecret c name key value)] ∨ Failed r ∧ y = x)
      (replaceSecret c host word name key value).run x := by
  refine quiet_andThen (dropSecret_issues word trivial trivial) trivial
    (fun e => .inr ⟨⟨e, rfl⟩, rfl⟩) fun _ => ?_
  refine ensures_mapErr.2 (ensures_issue (Op.secretCreate host name _) trivial fun r y hr => ?_)
  rcases secretCreate_step hr with ⟨rfl, rfl⟩ | ⟨⟨e, rfl⟩, rfl⟩
  · exact .inl ⟨rfl, rfl, rfl⟩
  · exact .inr ⟨⟨_, rfl⟩, rfl⟩

theorem pushSecrets_ensures (c : Codec) (hkeys : (GoMap.keys secrets).Nodup)
    (hfresh : x.2.created = []) (hcalm : x.2.stranded = false) : Ends (noting unreliable)
      (fun y r => y.2.stranded = false ∧ (r = .ok ⟨⟩ → Pushed c tmpl slug secrets y.2) ∧
        ∀ e, r = .error e → Unpushed c tmpl slug secrets y.2)
      (forM secrets (pushSecret c host tmpl slug) : Task PUnit).run x := by
  -- the secrets processed so far are exactly the created ones
  refine ensures_forM (fun done y => y.2.stranded = false ∧
    y.2.created = done.map (pushed c tmpl slug)) secrets ?_ ?_ ⟨hcalm, hfresh⟩
  · intro done p rest hsplit y ⟨hy, hdone⟩
    refine (replaceSecret_ensures c "secret" _ _ p.2).imp fun z r hz => ?_
    rcases hz with ⟨rfl, hz, hcreated⟩ | ⟨⟨e, rfl⟩, rfl⟩
    · refine ⟨fun _ => ⟨hz.trans hy, ?_⟩, nofun⟩
      rw [hcreated, hdone, List.map_append]
      rfl
    · refine ⟨nofun, fun e' he' => ⟨hy, nofun, fun _ _ => .inr ⟨p, ?_, ?_⟩⟩⟩
      · rw [hsplit]
        exact List.mem_append_right done List.mem_cons_self
      · rw [hdone]
        intro hmem
        obtain ⟨q, hq, hname⟩ := List.mem_map.1 hmem
        have hkey : q.1 = p.1 := instanceSecretName_inj (congrArg Prod.fst hname)
        rw [hsplit] at hkeys
        simp only [GoMap.keys, List.map_append] at hkeys
        have hdisj := List.disjoint_of_nodup_append hkeys
        exact hdisj (List.mem_map_of_mem hq) (by rw [hkey]; exact List.mem_cons_self)
  · intro y ⟨hy, hdone⟩
    refine ⟨hy, fun _ p hp => ?_, nofun⟩
    rw [hdone]
    exact List.mem_map_of_mem hp

/-- Secrets stay created and no ingress refresh has failed on a missing row. -/
def Calm (c : Codec) (tmpl slug : String) (secrets : GoMap String) (x : Durable × Noted) : Prop :=
  x.2.stranded = false ∧ Pushed c tmpl slug secrets x.2

theorem replaceSecret_calm (c c' : Codec) (word name key value : String) (hx : Calm c tmpl slug secrets x) :
    Ends (noting unreliable) (fun y _ => Calm c tmpl slug secrets y)
      (replaceSecret c' host word name key value).run x := by
  refine (replaceSecret_ensures c' word name key value).imp fun y r hy => ?_
  rcases hy with ⟨-, hs, hcreated⟩ | ⟨-, rfl⟩
  · refine ⟨hs.trans hx.1, fun p hp => ?_⟩
    rw [hcreated]
    exact List.mem_append_left _ (hx.2 p hp)
  · exact hx

theorem persistSpec_calm (c : Codec) (sp : Spec) (hx : Calm c tmpl slug secrets x) : Ends (noting unreliable)
      (fun y r => Calm c tmpl slug secrets y ∧ (r = .ok () → y.2.torn = false)) (Service.persistSpec sp).run x := by
  refine quiet_andThen (issues_ask trivial) trivial (fun e => ⟨hx, nofun⟩) fun _ => ?_
  refine quiet_andThen (issues_ask trivial) trivial (fun e => ⟨hx, nofun⟩) fun found => ?_
  cases found with
  | error e =>
    refine quiet_andThen (issues_ask trivial) trivial (fun e => ⟨hx, nofun⟩) fun _ => ?_
    exact ensures_throw.2 ⟨hx, nofun⟩
  | ok t =>
    refine ensures_ask_bind trivial fun wrote y hwrote => ?_
    have hy : Calm c tmpl slug secrets y ∧ (wrote = .ok () → y.2.torn = false) := by
      rcases putSpec_step hwrote with ⟨-, rfl⟩ | ⟨rfl, -, e, rfl⟩
      · exact ⟨hx, fun _ => rfl⟩
      · exact ⟨hx, nofun⟩
    refine quiet_andThen (issues_ask trivial) trivial (fun e => ⟨hy.1, nofun⟩) fun _ => ?_
    refine ensures_ret.2 ⟨hy.1, fun hok => hy.2 ?_⟩
    cases wrote with
    | ok _ => rfl
    | error e => cases hok

theorem refreshIngress_calm (c : Codec) (hx : Calm c tmpl slug secrets x) (hrow : x.2.torn = false) :
    Ends (noting unreliable) (fun y _ => Calm c tmpl slug secrets y) (s.refreshIngress host).run x := by
  unfold Service.refreshIngress
  split
  · refine ensures_mapErr.2 (ensures_issue (Op.reconcile host) trivial fun r y hr => ?_)
    rcases reconcile_step hr with ⟨-, rfl⟩ | ⟨-, rfl⟩
    · exact hx
    · refine ⟨?_, hx.2⟩
      rw [hx.1, hrow]
      rfl
  · exact ensures_pure.2 hx

variable {req : ApplyRequest} {opts : ApplyOptions}

/-- Once the secrets are pushed nothing that `Apply` still does takes them away, and its ingress
refresh comes after the row is written. -/
theorem applyCommit_calm {prep : Prepared} (hx : Calm s.codec tmpl slug secrets x) :
    Ends (noting unreliable) (fun y _ => Calm s.codec tmpl slug secrets y)
      (s.applyCommit host req opts prep).run x := by
  have hinj : Ends (noting unreliable) (fun y _ => Calm s.codec tmpl slug secrets y)
      (forM prep.injectorSecrets (pushInjectorSecret s.codec host req.template req.slug) :
        Task PUnit).run x := by
    refine ensures_forM (fun _ y => Calm s.codec tmpl slug secrets y) _ ?_ (fun _ hy => hy) hx
    intro done sec rest hsplit y hy
    refine (replaceSecret_calm _ _ _ _ _ _ hy).imp fun z r hz => ?_
    exact ⟨fun _ => hz, fun _ _ => hz⟩
  refine hinj.andThen (fun y e hy => hy) fun y _ hy => ?_
  refine quiet_andThen (ensureNetworks_issues _ fun _ => trivial) trivial (fun e => hy)
    fun networks => ?_
  refine quiet_andThen (.mapErr (issues_perform.2 trivial)) trivial (fun e => hy)
    fun _ => ?_
  refine (persistSpec_calm _ _ hy).andThen (fun z e hz => hz.1) fun z _ hz => ?_
  exact refreshIngress_calm _ hz.1 (hz.2 rfl)

/-- What the secrets map of the caller can hold after an apply. -/
def Handed (c : Codec) (tmpl slug : String) (secrets left : GoMap String) (n : Noted) : Prop :=
  n.stranded = false ∧
    (left = secrets ∧ Unpushed c tmpl slug secrets n ∨
      left = zeroed secrets ∧ Pushed c tmpl slug secrets n)

theorem applyLocked_hands (hkeys : (GoMap.keys req.secrets).Nodup) (hfresh : x.2.created = [])
    (hcalm : x.2.stranded = false) : Ends (noting unreliable)
      (fun y out => Handed s.codec req.template req.slug req.secrets out.2 y.2)
      (s.applyLocked host req opts) x := by
  have hpush : Ends (noting unreliable) (fun y r => y.2.stranded = false ∧
        (∀ prep, r = .ok prep → Pushed s.codec req.template req.slug req.secrets y.2) ∧
        ∀ e, r = .error e → Unpushed s.codec req.template req.slug req.secrets y.2)
      (s.applyPush host req opts).run x := by
    refine quiet_andThen (applyChecks_issues.mono fun op h => h.quiet) trivial
      (fun e => ⟨hcalm, nofun, fun _ _ => unpushed_of_created_nil hfresh⟩) fun prep => ?_
    refine (pushSecrets_ensures s.codec hkeys hfresh hcalm).andThen
      (fun y e hy => ⟨hy.1, nofun, fun _ _ => hy.2.2 e rfl⟩) fun y _ hy => ?_
    exact ensures_pure.2 ⟨hy.1, fun _ _ => hy.2.1 rfl, nofun⟩
  refine hpush.bind fun y r ⟨hy, hok, herr⟩ => ?_
  cases r with
  | error e => exact ensures_ret.2 ⟨hy, .inl ⟨rfl, herr e rfl⟩⟩
  | ok prep =>
    rw [ensures_bind]
    refine (applyCommit_calm ⟨hy, hok prep rfl⟩).imp fun z r hz => ?_
    exact ensures_ret.2 ⟨hz.1, .inr ⟨rfl, hz.2⟩⟩

theorem apply_hands (hkeys : (GoMap.keys req.secrets).Nodup) (hfresh : x.2.created = [])
    (hcalm : x.2.stranded = false) : Ends (noting unreliable)
      (fun y out => Handed s.codec req.template req.slug req.secrets out.2 y.2) (s.apply host req opts) x := by
  unfold Service.apply
  split
  · exact ensures_locked trivial (applyLocked_hands hkeys hfresh hcalm) fun _ _ _ => trivial
  · refine ensures_locked trivial ?_ fun _ _ _ => trivial
    exact ensures_locked trivial (applyLocked_hands hkeys hfresh hcalm) fun _ _ _ => trivial

theorem restorePostTeardown_hands {b : Backup} {sp : Spec}
    (hkeys : (GoMap.keys sp.secrets).Nodup) (hfresh : x.2.created = []) (hcalm : x.2.stranded = false) :
    Ends (noting unreliable) (fun y out => Handed s.codec b.template b.slug sp.secrets out.2 y.2)
      (s.restorePostTeardown b sp) x := by
  refine (quiet_ensures (issues_forM _ fun bv _ =>
    restoreVolumeNamed_issues.mono fun op h => h.quiet) trivial).bind fun y r hy => ?_
  subst hy
  cases r with
  | error e => exact ensures_ret.2 ⟨hcalm, .inl ⟨rfl, unpushed_of_created_nil hfresh⟩⟩
  | ok _ =>
    rw [ensures_bind]
    refine (apply_hands hkeys hfresh hcalm).imp fun z out hz => ?_
    rcases out with ⟨r, left⟩
    cases r with
    | error e => exact ensures_ret.2 hz
    | ok _ =>
      rw [ensures_bind]
      refine (quiet_ensures (.mapErr (waitRunning_issues.mono fun op h => h.quiet))
        trivial).imp fun u r hu => ?_
      rw [hu]
      exact ensures_ret.2 hz

end Push

/-! ## A failed restore -/

section Failure

variable {s : Service} {b : Backup} {sp : Spec} {w : Durable} {x : Durable × Noted}

def tornDown (b : Backup) (x : Durable × Noted) : Durable × Noted :=
  (x.1.erase b.target, { x.2 with torn := true })

/-- The state once the ingress refresh of the teardown has failed. -/
def strandedBy (b : Backup) (x : Durable × Noted) : Durable × Noted :=
  (x.1.erase b.target, { x.2 with torn := true, stranded := true })

theorem delete_ends (hrow : x.1.rows.get b.target = some sp) : Ends (noting False) (fun y r => y = x ∧ Failed r ∨
        y = tornDown b x ∧ (∀ e, r = .error e → e.is .instanceNotFound = true) ∨
        y = strandedBy b x ∧ ∃ e, r = .error e ∧ e.is .instanceNotFound = false)
      (s.delete b.host b.template b.slug {}).run x := by
  have hstop : ∀ (e : Error) (P : Prop), x = x ∧ Failed (.error e : Except Error Unit) ∨ P :=
    fun e P => .inl ⟨rfl, e, rfl⟩
  refine quiet_andThen (issues_lookup trivial) trivial (fun e => hstop e _) fun _ => ?_
  refine ensures_withLock trivial ?_ fun _ _ _ => trivial
  refine quiet_andThen (removePod_issues trivial) trivial (fun e => hstop e _) fun existed => ?_
  refine quiet_andThen (storedInjectorSecrets_issues trivial) trivial (fun e => hstop e _)
    fun inj => ?_
  refine quiet_andThen ((pruneInstanceResources_issues _ _ inj).mono fun op h => h.quiet) trivial
    (fun e => hstop e _) fun _ => ?_
  have hforget : Ends (noting False) (fun y r => y = tornDown b x ∧ r = .ok ())
      (forgetSpec b.host b.template b.slug).run x := by
    refine ensures_ask_bind trivial fun r y hr => ?_
    rcases deleteSpec_step hr with ⟨rfl, -, rfl⟩ | ⟨-, ⟨-, hnone⟩ | ⟨hfalse, -⟩⟩
    · exact ensures_pure.2 ⟨rfl, rfl⟩
    · cases hnone.symm.trans hrow
    · exact hfalse.elim
  refine hforget.andThen (fun y e hy => nomatch hy.2) fun y _ hy => ?_
  obtain ⟨rfl, -⟩ := hy
  have hrefresh : Ends (noting False) (fun y r => y = tornDown b x ∧ r = .ok () ∨
        y = strandedBy b x ∧ ∃ e, r = .error e ∧ e.is .instanceNotFound = false)
      (s.refreshIngress b.host).run (tornDown b x) := by
    unfold Service.refreshIngress
    split
    · refine ensures_mapErr.2 (ensures_issue (Op.reconcile b.host) trivial fun r y hr => ?_)
      rcases reconcile_step hr with ⟨rfl, rfl⟩ | ⟨⟨e, rfl⟩, rfl⟩
      · exact .inl ⟨rfl, rfl⟩
      · refine .inr ⟨?_, _, rfl, rfl⟩
        simp [tornDown, strandedBy]
    · exact ensures_pure.2 (.inl ⟨rfl, rfl⟩)
  refine hrefresh.andThen (fun y e hy => ?_) fun y _ hy => ?_
  · rcases hy with ⟨-, hok⟩ | hy
    · cases hok
    · exact .inr (.inr hy)
  · rcases hy with ⟨rfl, -⟩ | ⟨-, e, he, -⟩
    · refine ensures_require.2 ⟨fun _ => .inr (.inl ⟨rfl, nofun⟩), fun _ => ?_⟩
      exact .inr (.inl ⟨rfl, fun e he => Except.error.inj he ▸ rfl⟩)
    · cases he

/-- The row of the instance is there, with the parameters, secrets and domains of `sp`. -/
def Durable.Keeps (w : Durable) (k : SpecId) (sp : Spec) : Prop :=
  ∃ row, w.rows.get k = some row ∧ row.parameters = sp.parameters ∧ row.secrets = sp.secrets ∧
    row.domains = sp.domains

/-- The failures that spare the row: no ingress refresh failed while the row was gone, and the
secrets of the row are blank or were not all created. -/
def Spared (c : Codec) (b : Backup) (sp : Spec) (n : Noted) : Prop :=
  n.stranded = false ∧ Unpushed c b.template b.slug sp.secrets n

instance (c : Codec) (b : Backup) (sp : Spec) (n : Noted) : Decidable (Spared c b sp n) :=
  inferInstanceAs (Decidable (_ ∧ _))

theorem keeps_iff_unnoted (hrow : x.1.rows.get b.target = some sp) (hx : x.2 = {}) :
    x.1.Keeps b.target sp ↔ Spared c b sp x.2 := by
  rw [hx]
  exact ⟨fun _ => ⟨rfl, unpushed_of_created_nil rfl⟩, fun _ => ⟨sp, hrow, rfl, rfl, rfl⟩⟩

theorem teardown_ends (hrow : x.1.rows.get b.target = some sp) (hx : x.2 = {}) : Ends (noting False)
      (fun y r => (r = .ok () → y.2.stranded = false ∧ y.2.created = []) ∧
        ∀ e, r = .error e → (y.1.Keeps b.target sp ↔ Spared s.codec b sp y.2)) (s.teardown b).run x := by
  have hstranded : (strandedBy b x).1.Keeps b.target sp ↔ Spared s.codec b sp (strandedBy b x).2 := by
    constructor
    · rintro ⟨row, hget, -⟩
      simp [strandedBy, Durable.erase] at hget
    · rintro ⟨hfalse, -⟩
      cases hfalse
  refine (delete_ends hrow).attemptThen fun y r hy => ?_
  rcases hy with ⟨rfl, e, rfl⟩ | ⟨rfl, hgone⟩ | ⟨rfl, e, rfl, hne⟩
  · dsimp only
    split
    · exact ensures_pure.2 ⟨fun _ => by rw [hx]; exact ⟨rfl, rfl⟩, nofun⟩
    · exact ensures_throw.2 ⟨nofun, fun _ _ => keeps_iff_unnoted hrow hx⟩
  · have hcalm : (tornDown b x).2.stranded = false ∧ (tornDown b x).2.created = [] := by
      simp [tornDown, hx]
    cases r with
    | ok _ => exact ensures_pure.2 ⟨fun _ => hcalm, nofun⟩
    | error e =>
      dsimp only
      rw [if_pos (hgone e rfl)]
      exact ensures_pure.2 ⟨fun _ => hcalm, nofun⟩
  · dsimp only
    rw [hne]
    exact ensures_throw.2 ⟨nofun, fun _ _ => hstranded⟩

theorem keeps_put_iff {left : GoMap String} (hkey : sp.id = b.target) :
    (w.put { sp with secrets := left }).Keeps b.target sp ↔ left = sp.secrets := by
  have hget : (w.put { sp with secrets := left }).rows.get b.target = some { sp with secrets := left } := by
    rw [← hkey]
    exact (Rows.get_put _ _).trans (if_pos rfl)
  constructor
  · rintro ⟨row, hrow, -, hsecrets, -⟩
    obtain rfl := Option.some.inj (hget.symm.trans hrow)
    exact hsecrets
  · intro hleft
    exact ⟨_, hget, rfl, hleft, rfl⟩

theorem Handed.keeps_iff {left : GoMap String} {n : Noted} (hkey : sp.id = b.target)
    (h : Handed c b.template b.slug sp.secrets left n) :
    (w.put { sp with secrets := left }).Keeps b.target sp ↔ Spared c b sp n := by
  rw [keeps_put_iff hkey]
  rcases h with ⟨hcalm, ⟨hleft, hun⟩ | ⟨rfl, hpushed⟩⟩
  · exact ⟨fun _ => ⟨hcalm, hun⟩, fun _ => hleft⟩
  · rw [zeroed_eq_iff]
    constructor
    · intro hblank
      exact ⟨hcalm, .inl hblank⟩
    · rintro ⟨-, hblank | ⟨p, hp, hnot⟩⟩
      · exact hblank
      · exact (hnot (hpushed p hp)).elim

theorem snapshotRestore_ends (hrow : x.1.rows.get b.target = some sp) (hx : x.2 = {})
    (hkeys : (GoMap.keys sp.secrets).Nodup) : Ends (noting False)
      (fun y r => ∀ e, r = .error e → (y.1.Keeps b.target sp ↔ Spared s.codec b sp y.2))
      (s.snapshotRestore b).run x := by
  have hread : Ends (noting False) (fun y r => y = x ∧ ∀ sp', r = .ok sp' → sp' = sp)
      (issue (.getSpec b.host b.template b.slug)) x := by
    refine ensures_issue (Op.getSpec b.host b.template b.slug) trivial fun r y hr => ?_
    obtain ⟨hy, hsp⟩ := getSpec_step hr
    exact ⟨hy, fun sp' hok => Option.some.inj ((hsp sp' hok).symm.trans hrow)⟩
  refine .andThen hread (fun y e hy _ _ => hy.1 ▸ keeps_iff_unnoted hrow hx) fun y sp' hy => ?_
  obtain ⟨rfl, hsame⟩ := hy
  obtain rfl := hsame sp' rfl
  refine (teardown_ends hrow hx).andThen (fun z e hz _ _ => hz.2 e rfl) fun z _ hz => ?_
  obtain ⟨hcalm, hfresh⟩ := hz.1 rfl
  refine (restorePostTeardown_hands hkeys hfresh hcalm).embedThen fun u out hu => ?_
  rcases out with ⟨r, left⟩
  cases r with
  | ok _ => exact ensures_pure.2 nofun
  | error e =>
    refine ensures_ask_bind trivial fun wrote v hwrote => ?_
    rcases putSpec_step hwrote with ⟨-, rfl⟩ | ⟨-, hfalse, -⟩
    · exact ensures_throw.2 fun _ _ => hu.keeps_iff (Rows.keyed hrow)
    · exact hfalse.elim

/-- A snapshot restore that returns an error, whatever podman, the
blob store and the ingress did, has kept the stored row exactly when the failures were sparing. -/
theorem failed_restore_keeps_iff {id : String} {w' : Durable} {t : History} {e : Error}
    (hb : w.backups id = some b) (hmode : b.mode ≠ "live") (hrow : w.rows.get b.target = some sp)
    (hkeys : (GoMap.keys sp.secrets).Nodup)
    (hrun : Exec (stored False) w (s.restore id).run t w' (.ret (.error e))) :
    w'.Keeps b.target sp ↔ Spared s.codec b sp (t.foldl note {}) := by
  have hsnap := snapshotRestore_ends (s := s) (x := (w, {})) hrow rfl hkeys
  have hspec := restore_ensures hb hmode trivial (fun _ _ _ => trivial)
    (fun _ _ _ => keeps_iff_unnoted hrow rfl) hsnap
  exact hspec.post (hrun.folded ({} : Noted)) e rfl

end Failure

/-! ### A fleet of one instance -/

inductive Outage where
  | ingress
  | kube
  | secret
  deriving DecidableEq, Repr

def exampleDurable : Durable where
  rows := ⟨[exampleRow], by decide⟩
  backups id := if id = "b1" then some exampleBackup else none
  blobs _ := none

def exampleHost (o : Outage) : Handler calls Durable
  | w, .getSpec host tmpl slug => (found .storeNotFound (w.rows.get ⟨host, tmpl, slug⟩), w)
  | w, .putSpec sp => (.ok (), w.put sp)
  | w, .deleteSpec host tmpl slug =>
    if (w.rows.get ⟨host, tmpl, slug⟩).isSome then (.ok (), w.erase ⟨host, tmpl, slug⟩)
    else (.error (.sentinel .storeNotFound), w)
  | w, .getBackup id => (found .storeNotFound (w.backups id), w)
  | w, .blobGet key => (found .fileNotExist (w.blobs key), w)
  | w, .getTemplate _ => (.ok exampleTemplate, w)
  | w, .podInspect _ _ => (.error (.sentinel .podmanNotFound), w)
  | w, .reconcile _ => (if o = .ingress then .error (.text "connection refused") else .ok (), w)
  | w, .playKube _ _ _ _ => (if o = .kube then .error (.text "no space left") else .ok (), w)
  | w, .secretCreate _ _ _ => (if o = .secret then .error (.text "no space left") else .ok (), w)
  | w, op => (op.plain, w)

theorem exampleHost_stored {o : Outage} {w w' : Durable} {r : op.Ans} {unreliable : Prop}
    (h : (exampleHost o).service w op r w') : stored unreliable w op r w' := by
  obtain ⟨hans, hnext⟩ := Handler.answered h
  cases op with
  | getSpec | getBackup | blobGet => exact ⟨hnext.symm, .inl hans.symm⟩
  | putSpec => exact .inl ⟨hans.symm, hnext.symm⟩
  | deleteSpec host tmpl slug =>
    simp only [exampleHost] at hans hnext
    by_cases hrow : (w.rows.get ⟨host, tmpl, slug⟩).isSome = true
    · rw [if_pos hrow] at hans hnext
      exact .inl ⟨hans.symm, hrow, hnext.symm⟩
    · rw [if_neg hrow] at hans hnext
      exact .inr ⟨hnext.symm, .inl ⟨hans.symm, by simpa using hrow⟩⟩
  | _ => exact hnext.symm

@[irreducible]
def exampleRestore (o : Outage) : Except Error Unit × History × Durable :=
  (exampleService.restore "b1").run.eval (exampleHost o) exampleDurable

theorem exampleRestore_exec (o : Outage) :
    Exec (stored False) exampleDurable (exampleService.restore "b1").run (exampleRestore o).2.1
      (exampleRestore o).2.2 (.ret (exampleRestore o).1) := by
  exact (exec_of_eval (exampleRestore.eq_def ..)).mono fun _ _ _ _ h => exampleHost_stored h

/-- A secret that cannot be created fails the restore before its row's secrets are blanked. -/
theorem failed_restore_keeps_example : (exampleRestore .secret).2.2.Keeps exampleBackup.target exampleRow := by
  have hfail : (exampleRestore .secret).1 = .error
      (.wrap "apply: " (.wrap "create secret \"web-shop-token\": " (.text "no space left") "") "") := by
    decide +kernel
  have hrun := exampleRestore_exec .secret
  rw [hfail] at hrun
  refine (failed_restore_keeps_iff rfl (by decide) rfl (by decide) hrun).2 ?_
  decide +kernel

/-- An unreachable ingress during the teardown loses the row. A pod that cannot be played leaves the
row with its secrets blanked. -/
theorem failed_restore_loses_row :
    (∃ t w' e, Exec (stored False) exampleDurable (exampleService.restore "b1").run t w'
        (.ret (.error e)) ∧ w'.rows.get exampleBackup.target = none) ∧
      ∃ t w' e, Exec (stored False) exampleDurable (exampleService.restore "b1").run t w' (.ret (.error e)) ∧
        w'.rows.get exampleBackup.target = some { exampleRow with secrets := [("token", "")] } := by
  have hingress : (exampleRestore .ingress).1 = .error (.wrap "teardown: "
      (.wrap "" (.sentinel .ingressReconcileFailed) ": connection refused") "") := by
    decide +kernel
  have hkube : (exampleRestore .kube).1 = .error
      (.wrap "apply: " (.wrap "play kube: " (.text "no space left") "") "") := by
    decide +kernel
  have hrun := exampleRestore_exec .ingress
  have hrun' := exampleRestore_exec .kube
  rw [hingress] at hrun
  rw [hkube] at hrun'
  exact ⟨⟨_, _, _, hrun, by decide +kernel⟩, _, _, _, hrun', by decide +kernel⟩

/-! ## An interrupted restore -/

/-- Backups and blobs are those of `w`, and the row is there exactly when it is not torn down. -/
def Intact (k : SpecId) (w : Durable) (x : Durable × Noted) : Prop :=
  x.1.backups = w.backups ∧ x.1.blobs = w.blobs ∧ (x.1.rows.get k).isSome = !x.2.torn

/-- The calls that concern no row but the one under `k`. -/
inductive Touching (k : SpecId) : Op → Prop where
  | quiet {op : Op} (h : Quiet op) : Touching k op
  | reconcile (host : String) : Touching k (.reconcile host)
  | secretCreate (host name value : String) : Touching k (.secretCreate host name value)
  | putSpec (sp : Spec) (hkey : sp.id = k) : Touching k (.putSpec sp)
  | deleteSpec : Touching k (.deleteSpec k.host k.template k.slug)

section Interruption

variable {s : Service} {b : Backup} {w : Durable} {x x' : Durable × Noted} {k : SpecId} {unreliable : Prop}

theorem intact_step {r : op.Ans} (hop : Touching k op) (hx : Intact k w x)
    (h : noting unreliable x op r x') : Intact k w x' := by
  cases hop with
  | quiet hq =>
    rw [quiet_step h hq]
    exact hx
  | reconcile host =>
    rcases reconcile_step h with ⟨-, rfl⟩ | ⟨-, rfl⟩
    · exact hx
    · exact hx
  | secretCreate host name value =>
    rcases secretCreate_step h with ⟨-, rfl⟩ | ⟨-, rfl⟩
    · exact hx
    · exact hx
  | putSpec sp hkey =>
    rcases putSpec_step h with ⟨-, rfl⟩ | ⟨rfl, -⟩
    · refine ⟨hx.1, hx.2.1, ?_⟩
      simp [Durable.put, hkey]
    · exact hx
  | deleteSpec =>
    rcases deleteSpec_step h with ⟨-, -, rfl⟩ | ⟨rfl, -⟩
    · refine ⟨hx.1, hx.2.1, ?_⟩
      simp [Durable.erase]
    · exact hx

theorem touching_ensures {α : Type} {p : Prog calls α} (hp : p.Issues (Touching k)) (hx : Intact k w x) :
    Ensures (noting unreliable) (fun y _ => Intact k w y) (fun y _ => Intact k w y) p x :=
  hp.ensures (fun _ _ _ _ hop hy h => intact_step hop hy h) (fun _ _ _ hy => hy) hx

theorem Deleting.touching (h : Deleting host tmpl slug op) : Touching ⟨host, tmpl, slug⟩ op := by
  cases h with
  | pruning h => exact .quiet h.quiet
  | lock | podRemove | getSpec | unlock => exact .quiet trivial
  | deleteSpec => exact .deleteSpec
  | reconcile => exact .reconcile host

theorem Pushing.touching (h : Pushing host op) : Touching k op := by
  cases h with
  | secretInspect | secretRemove => exact .quiet trivial
  | secretCreate name value => exact .secretCreate host name value

theorem Committing.touching (h : Committing host tmpl slug op) : Touching ⟨host, tmpl, slug⟩ op := by
  cases h with
  | pushing h => exact h.touching
  | networkEnsure | playKube | rlock | getTemplate | runlock => exact .quiet trivial
  | putSpec sp hhost htmpl hslug => exact .putSpec sp (by rw [Spec.id, hhost, htmpl, hslug])
  | reconcile => exact .reconcile host

theorem teardown_touches : (s.teardown b).run.Issues (Touching b.target) := by
  exact ((delete_issues {}).mono fun op h => h.touching).attempt.cases (fun _ => issues_pure)
    fun _ => issues_pure_or_throw

theorem apply_touches (host : String) (req : ApplyRequest) (opts : ApplyOptions) :
    (s.apply host req opts).Issues (Touching ⟨host, req.template, req.slug⟩) := by
  refine apply_issues.mono fun op h => ?_
  cases h with
  | checking h => exact .quiet h.quiet
  | committing h => exact h.touching
  | lock | unlock => exact .quiet trivial

theorem restorePostTeardown_touches (sp : Spec) : (s.restorePostTeardown b sp).Issues (Touching b.target) := by
  have happly : (s.apply b.host (Service.restoreRequest b sp) { replace := false }).Issues
      (Touching b.target) := apply_touches b.host (Service.restoreRequest b sp) _
  refine .bind (issues_forM _ fun bv _ =>
    restoreVolumeNamed_issues.mono fun op h => .quiet h.quiet) fun r => ?_
  cases r with
  | error e => exact issues_ret _
  | ok _ =>
    refine happly.bind fun out => ?_
    rcases out with ⟨r, left⟩
    cases r with
    | error e => exact issues_ret _
    | ok _ =>
      exact .bind (.mapErr (waitRunning_issues.mono fun op h => .quiet h.quiet))
        fun r => issues_ret _

/-- Along a snapshot restore the row is there exactly when it is not torn down. The row its error path writes is
the one it has read, so under the same key. -/
theorem snapshotRestore_intact (hx : Intact b.target w x) :
    Ensures (noting unreliable) (fun y _ => Intact b.target w y) (fun y _ => Intact b.target w y)
      (s.snapshotRestore b).run x := by
  have hread : Ensures (noting unreliable) (fun y _ => Intact b.target w y)
      (fun y r => Intact b.target w y ∧ ∀ sp, r = .ok sp → sp.id = b.target)
      (issue (.getSpec b.host b.template b.slug)) x := by
    refine ensures_issue (Op.getSpec b.host b.template b.slug) hx fun r y hr => ?_
    obtain ⟨rfl, hsp⟩ := getSpec_step hr
    exact ⟨hx, fun sp hok => Rows.keyed (hsp sp hok)⟩
  refine .andThen hread (fun y e hy => hy.1) fun y sp hy => ?_
  refine (touching_ensures teardown_touches hy.1).andThen (fun z e hz => hz) fun z _ hz => ?_
  refine (touching_ensures (restorePostTeardown_touches sp) hz).embedThen fun u out hu => ?_
  rcases out with ⟨r, left⟩
  cases r with
  | ok _ => exact ensures_pure.2 hu
  | error e =>
    have hkey : ({ sp with secrets := left } : Spec).id = b.target := hy.2 sp rfl
    refine ensures_ask_bind hu fun wrote v hwrote => ?_
    exact ensures_throw.2 (intact_step (.putSpec _ hkey) hu hwrote)

def Durable.answer (w : Durable) : (op : Op) → op.Ans
  | .getSpec host tmpl slug => found .storeNotFound (w.rows.get ⟨host, tmpl, slug⟩)
  | .getBackup id => found .storeNotFound (w.backups id)
  | .blobGet key => found .fileNotExist (w.blobs key)
  | op => op.plain

theorem getBackup_given {id : String} :
    (Service.getBackup id).run.given w.answer = .ok b ↔ w.backups id = some b := by
  unfold Service.getBackup
  rw [Act.given_mapErr, mapError_eq_ok]
  exact found_eq_ok

theorem preflightBlobs_given : (preflightBlobs b).run.given w.answer = .ok () ↔
      ∀ bv ∈ b.volumes, (w.blobs (tarKey b bv)).isSome = true := by
  unfold preflightBlobs
  rw [Act.given_forM_ok]
  refine forall_congr' fun bv => imp_congr_right fun _ => ?_
  unfold preflightBlob openTar
  rw [Act.given_bind_ok, Option.isSome_iff_exists]
  refine exists_congr fun tar => ?_
  rw [Act.given_mapErr, mapError_eq_ok]
  exact ⟨fun h => found_eq_ok.1 h.1, fun h => ⟨found_eq_ok.2 h, rfl⟩⟩

theorem accepts_iff {id : String} : (s.checkRestorable id).run.given w.answer = .ok b ↔
      s.blobs = true ∧ w.backups id = some b ∧ b.state = .complete ∧ (s.host b.host).isSome = true ∧
        ((s.host b.host).map (·.drain)).getD false = false ∧ (w.rows.get b.target).isSome = true ∧
        ∀ bv ∈ b.volumes, (w.blobs (tarKey b bv)).isSome = true := by
  have hspec : ∀ sp, (Act.mapErr (fun e => if e.is .storeNotFound then .sentinel .instanceNotFound else e)
      (Act.lift (issue (.getSpec b.host b.template b.slug))) : Task Spec).run.given w.answer = .ok sp ↔
      w.rows.get b.target = some sp := by
    intro sp
    rw [Act.given_mapErr, mapError_eq_ok]
    exact found_eq_ok
  constructor
  · intro h
    obtain ⟨_, hblobs, h⟩ := Act.given_bind_ok.1 h
    obtain ⟨b', hb, h⟩ := Act.given_bind_ok.1 h
    obtain ⟨_, hstate, h⟩ := Act.given_bind_ok.1 h
    obtain ⟨_, hhost, h⟩ := Act.given_bind_ok.1 h
    obtain ⟨_, hdrain, h⟩ := Act.given_bind_ok.1 h
    obtain ⟨sp, hsp, h⟩ := Act.given_bind_ok.1 h
    obtain ⟨_, htars, h⟩ := Act.given_bind_ok.1 h
    obtain rfl : b' = b := Except.ok.inj h
    refine ⟨Act.given_require_ok.1 hblobs, getBackup_given.1 hb, ?_, Act.given_require_ok.1 hhost, ?_,
      Option.isSome_iff_exists.2 ⟨sp, (hspec sp).1 hsp⟩, preflightBlobs_given.1 htars⟩
    · simpa using Act.given_require_ok.1 hstate
    · simpa using Act.given_require_ok.1 hdrain
  · rintro ⟨hblobs, hb, hstate, hhost, hdrain, hrow, htars⟩
    obtain ⟨sp, hsp⟩ := Option.isSome_iff_exists.1 hrow
    refine Act.given_bind_ok.2 ⟨(), Act.given_require_ok.2 hblobs, ?_⟩
    refine Act.given_bind_ok.2 ⟨b, getBackup_given.2 hb, ?_⟩
    refine Act.given_bind_ok.2 ⟨(), Act.given_require_ok.2 (by simpa using hstate), ?_⟩
    refine Act.given_bind_ok.2 ⟨(), Act.given_require_ok.2 hhost, ?_⟩
    refine Act.given_bind_ok.2 ⟨(), Act.given_require_ok.2 (by simpa using hdrain), ?_⟩
    refine Act.given_bind_ok.2 ⟨sp, (hspec sp).2 hsp, ?_⟩
    exact Act.given_bind_ok.2 ⟨(), preflightBlobs_given.2 htars, rfl⟩

/-- Wherever a restore of an admitted snapshot is stopped, the same backup is admitted again exactly when the stop
is not between the deletion of the row and its next write. -/
theorem interrupted_restore_accepted_iff {id : String} {w' : Durable} {t : History}
    {q : Prog calls (Except Error Unit)} (hmode : b.mode ≠ "live")
    (hacc : (s.checkRestorable id).run.given w.answer = .ok b)
    (hrun : Exec (stored True) w (s.restore id).run t w' q) :
    (∃ b', (s.checkRestorable id).run.given w'.answer = .ok b') ↔ (t.foldl note {}).torn = false := by
  obtain ⟨hblobs, hb, hstate, hhost, hdrain, hrow, htars⟩ := accepts_iff.1 hacc
  have hstart : Intact b.target w (w, {}) := ⟨rfl, rfl, hrow⟩
  have hspec : Ensures (noting True) (fun y _ => Intact b.target w y) (fun y _ => Intact b.target w y)
      (s.restore id).run (w, {}) :=
    restore_ensures hb hmode hstart (fun _ _ hy => hy) (fun _ => hstart) (snapshotRestore_intact hstart)
  obtain ⟨hbackups, hsame, hthere⟩ := hspec.reached (hrun.folded ({} : Noted))
  have htorn : (t.foldl note {}).torn = false ↔ (w'.rows.get b.target).isSome = true := by
    rw [hthere]
    simp
  rw [htorn]
  constructor
  · rintro ⟨b', hb'⟩
    obtain ⟨-, hb₂, -, -, -, hrow', -⟩ := accepts_iff.1 hb'
    obtain rfl : b = b' := Option.some.inj (hb.symm.trans (hbackups ▸ hb₂))
    exact hrow'
  · intro hrow'
    refine ⟨b, accepts_iff.2 ⟨hblobs, ?_, hstate, hhost, hdrain, hrow', ?_⟩⟩
    · rw [hbackups]
      exact hb
    · rw [hsame]
      exact htars

end Interruption

/-- The example restore, stopped after `n` calls. -/
@[irreducible]
def interruptedRestore (n : Nat) : Prog calls (Except Error Unit) × History × Durable :=
  (exampleService.restore "b1").run.evalFor (exampleHost .kube) n exampleDurable

theorem interruptedRestore_exec (n : Nat) :
    Exec (stored True) exampleDurable (exampleService.restore "b1").run (interruptedRestore n).2.1
      (interruptedRestore n).2.2 (interruptedRestore n).1 := by
  exact (Prog.exec_of_evalFor (interruptedRestore.eq_def ..)).mono fun _ _ _ _ h => exampleHost_stored h

/-- Stopped before its teardown, the restore is admitted again. -/
theorem interrupted_restore_accepted_example :
    ∃ b, (exampleService.checkRestorable "b1").run.given (interruptedRestore 6).2.2.answer = .ok b := by
  have hacc : (exampleService.checkRestorable "b1").run.given exampleDurable.answer =
      .ok exampleBackup := by decide +kernel
  refine (interrupted_restore_accepted_iff (by decide) hacc (interruptedRestore_exec 6)).2 ?_
  decide +kernel

/-- Stopped right after the deletion of the row, an admitted restore is not admitted again: the
instance no longer exists. -/
theorem interrupted_restore_rejected :
    (exampleService.checkRestorable "b1").run.given exampleDurable.answer = .ok exampleBackup ∧
      ∃ t w' q, Exec (stored True) exampleDurable (exampleService.restore "b1").run t w' q ∧
        (exampleService.checkRestorable "b1").run.given w'.answer = .error (.sentinel .instanceNotFound) :=
  ⟨by decide +kernel, _, _, _, interruptedRestore_exec 12, by decide +kernel⟩

end PodmanApi.Instance

/-
# PodmanApi.Instance.BackupRestart — the instance a backup has stopped.

A snapshot of a running instance stops it, exports its volumes and starts it again. Every exit after the exports
have begun passes the restart, but a stop that reports an error fails the backup at once, and such a stop may
have taken effect all the same.
-/
import PodmanApi.Instance.BackupRecovery

namespace PodmanApi.Instance

open GoStd Calls

def stopCall (req : BackupRequest) : Op :=
  .podStop req.host (podName req.template req.slug)

/-- The pod was running, or degraded, whenever the history shows it. -/
def SeenRunning (req : BackupRequest) (t : History) : Prop :=
  ∀ pod, ⟨.podInspect req.host (podName req.template req.slug), .ok pod⟩ ∈ t →
    pod.status = "Running" ∨ pod.status = "Degraded"

/-- The history holds a `Start` of the instance, whatever it came to. -/
def StartIssued (s : Service) (req : BackupRequest) (t : History) : Prop :=
  ∃ before start after r, t = before ++ start ++ after ∧
    Returns (s.start req.host req.template req.slug).run start r

/-- In a history with one stop, the instance is started after it exactly when the stop was answered without an
error. -/
def Restarts (s : Service) (req : BackupRequest) (t : History) : Prop :=
  ∀ before ans after, t = before ++ ⟨stopCall req, ans⟩ :: after → SeenRunning req before →
    (StartIssued s req after ↔ ans = .ok ())

section Restart

variable {s : Service} {req : BackupRequest} {t past : History} {α β : Type}

def Unstopped (req : BackupRequest) (op : Op) : Prop :=
  op ≠ stopCall req

theorem restarts_of_unstopped (h : ∀ e ∈ t, Unstopped req e.1) : Restarts s req t := by
  intro before ans after ht
  exact (h ⟨stopCall req, ans⟩ (by simp [ht]) rfl).elim

theorem restarts_of_split {before after : History} {ans : Except Error Unit}
    (hbefore : ∀ e ∈ before, Unstopped req e.1) (hafter : ∀ e ∈ after, Unstopped req e.1)
    (h : SeenRunning req before → (StartIssued s req after ↔ ans = .ok ())) :
    Restarts s req (before ++ ⟨stopCall req, ans⟩ :: after) := by
  intro before' ans' after' ht hseen
  obtain ⟨rfl, hans, rfl⟩ := split_at_unique (P := fun e : Event calls => e.1 = stopCall req) ht hbefore hafter rfl
  obtain rfl : ans = ans' := eq_of_heq (Sigma.mk.inj hans).2
  exact h hseen

theorem start_reads {host tmpl slug : String} (hhost : (s.host host).isSome = true) {r : Except Error Observed}
    (h : Returns (s.start host tmpl slug).run t r) : ∃ found, ⟨.getTemplate tmpl, found⟩ ∈ t := by
  have hfirst : ∃ k, (s.start host tmpl slug).run = .call (.getTemplate tmpl) k := by
    unfold Service.start Service.lifecycle Service.lookup
    rw [hhost]
    exact ⟨_, rfl⟩
  obtain ⟨k, hk⟩ := hfirst
  rw [hk] at h
  obtain ⟨found, t', rfl, -⟩ := returns_call.1 h
  exact ⟨found, List.mem_cons_self⟩

/-- Where a backup may stand when it returns: it has stopped nothing; its stop was refused and it has read no
template since, so not begun a start; or its stop was accepted and it has started what was running. -/
inductive Accounted (s : Service) (req : BackupRequest) : History → Prop where
  | idle {t : History} (h : ∀ e ∈ t, Unstopped req e.1) : Accounted s req t
  | refused {before after : History} {e : Error} (hhost : (s.host req.host).isSome = true)
      (hbefore : ∀ e ∈ before, Unstopped req e.1)
      (hafter : ∀ e ∈ after, Unstopped req e.1 ∧ e.1 ≠ .getTemplate req.template) :
      Accounted s req (before ++ ⟨stopCall req, .error e⟩ :: after)
  | restarted {before after : History} (hbefore : ∀ e ∈ before, Unstopped req e.1)
      (hafter : ∀ e ∈ after, Unstopped req e.1) (hstart : SeenRunning req before → StartIssued s req after) :
      Accounted s req (before ++ ⟨stopCall req, .ok ()⟩ :: after)

theorem StartIssued.append (h : StartIssued s req t) (more : History) : StartIssued s req (t ++ more) := by
  obtain ⟨before, start, after, r, rfl, hret⟩ := h
  exact ⟨before, start, after ++ more, r, by simp, hret⟩

theorem Accounted.restarts (h : Accounted s req t) : Restarts s req t := by
  cases h with
  | idle h => exact restarts_of_unstopped h
  | refused hhost hbefore hafter =>
    refine restarts_of_split hbefore (fun e he => (hafter e he).1) fun _ => ⟨?_, nofun⟩
    rintro ⟨l, start, m, r, rfl, hret⟩
    obtain ⟨found, hfound⟩ := start_reads hhost hret
    exact ((hafter ⟨.getTemplate req.template, found⟩ (by simp [hfound])).2 rfl).elim
  | restarted hbefore hafter hstart =>
    exact restarts_of_split hbefore hafter fun hseen => ⟨fun _ => rfl, fun _ => hstart hseen⟩

/-- Calls that neither stop the instance nor could be the first of a start. -/
def Closing (req : BackupRequest) (op : Op) : Prop :=
  Unstopped req op ∧ op ≠ .getTemplate req.template

theorem Accounted.append (h : Accounted s req t) {e : Event calls} (he : Closing req e.1) :
    Accounted s req (t ++ [e]) := by
  have hmem : ∀ {P : Event calls → Prop} {l : History}, (∀ x ∈ l, P x) → P e → ∀ x ∈ l ++ [e], P x :=
    fun hl hlast x hx => (List.mem_append.1 hx).elim (hl x) fun hx => List.mem_singleton.1 hx ▸ hlast
  cases h with
  | idle h => exact .idle (hmem h he.1)
  | refused hhost hbefore hafter =>
    rw [List.append_assoc]
    exact .refused hhost hbefore (hmem hafter he)
  | restarted hbefore hafter hstart =>
    rw [List.append_assoc]
    exact .restarted hbefore (hmem hafter he.1) fun hseen => (hstart hseen).append [e]

theorem closing_ensures {p : Prog calls α} (hp : p.Issues (Closing req)) (h : Accounted s req past) :
    Ends (anything calls) (fun past' _ => Accounted s req past') p past :=
  hp.ensures (fun _ op r _ hop hacc hr => hr ▸ hacc.append (e := ⟨op, r⟩) hop) (fun _ _ _ _ => trivial) h

theorem abandon_closing : (abandonBackup req).run.Issues (Closing req) :=
  abandonBackup_issues ⟨nofun, nofun⟩ fun _ => ⟨nofun, nofun⟩

theorem stop_ensures (f : Error → Error) (hpast : ∀ e ∈ past, Unstopped req e.1) : Ends (anything calls)
      (fun past' r => (∀ e ∈ past', Unstopped req e.1) ∧ (∃ e, r = .error e) ∨
        ∃ before ans, past' = before ++ [⟨stopCall req, ans⟩,
            ⟨.unlock (instanceLock req.host req.template req.slug), ()⟩] ∧
          (∀ e ∈ before, Unstopped req e.1) ∧ past ⊆ before ∧ (s.host req.host).isSome = true ∧
          (r = .ok () ∧ ans = .ok () ∨ ∃ e e', r = .error e ∧ ans = .error e'))
      (Act.mapErr f (s.stop req.host req.template req.slug)).run past := by
  refine ensures_mapErr.2 ?_
  have hlook : (s.lookup req.host req.template).run.Issues (Unstopped req) := issues_lookup nofun
  have hread := (hlook.ensures_past hpast).mono (fun _ _ _ => trivial) fun _ _ h => h
  refine (hread.also lookup_host).andThen (fun past₁ e h => .inl ⟨h.1.1, f e, rfl⟩) fun past₁ found hfound => ?_
  obtain ⟨⟨hfree, hsub⟩, hhost⟩ := hfound
  refine ensures_lock trivial fun past₂ hpast₂ => ?_
  have hfree₂ : ∀ e ∈ past₂, Unstopped req e.1 := by
    intro e he
    rw [hpast₂] at he
    rcases List.mem_append.1 he with he | he
    · exact hfree e he
    · rw [List.mem_singleton.1 he]
      exact nofun
  have hsub₂ : past ⊆ past₂ := fun e he => hpast₂ ▸ List.mem_append_left _ (hsub he)
  refine ensures_mapErr.2 (ensures_issue (Op.podStop _ _) trivial fun ans past₃ hans => ⟨trivial, fun past₄ hunlock => ?_⟩)
  refine .inr ⟨past₂, ans, ?_, hfree₂, hsub₂, hhost found rfl, ?_⟩
  · rw [hunlock, hans, List.append_assoc]
    rfl
  · cases ans with
    | ok u => exact .inl ⟨rfl, rfl⟩
    | error e => exact .inr ⟨_, e, rfl, rfl⟩

theorem restartAfter_ensures {before after : History} {wasRunning : Bool}
    (hbefore : ∀ e ∈ before, Unstopped req e.1) (hafter : ∀ e ∈ after, Unstopped req e.1)
    (hseen : SeenRunning req before → wasRunning = true) :
    Ends (anything calls) (fun past' _ => Accounted s req past')
      (s.restartAfter req wasRunning).run (before ++ ⟨stopCall req, .ok ()⟩ :: after) := by
  cases wasRunning with
  | false =>
    have hdown : ¬SeenRunning req before := fun h => nomatch hseen h
    exact ensures_pure.2 (.restarted hbefore hafter fun h => (hdown h).elim)
  | true =>
    have hstart : (s.start req.host req.template req.slug).run.Issues (Unstopped req) :=
      start_issues.mono fun op hop => by
        cases hop with
        | waiting h | reading h => cases h <;> exact nofun
        | _ => exact nofun
    refine (hstart.ensures_returns (G := fun _ _ => True) (fun _ _ _ => trivial) _).attemptThen
      fun past' r hr => ensures_pure.2 ?_
    obtain ⟨t, rfl, hret⟩ := hr
    rw [List.append_assoc]
    refine .restarted hbefore (fun e he => ?_) fun _ => ⟨after, t, [], r, by simp, hret⟩
    rcases List.mem_append.1 he with he | he
    · exact hafter e he
    · exact hret.issued hstart e he

theorem snapshotVolumes_accounted {wasRunning : Bool} {vols : List HostVolume} {metas : GoMap VolMeta}
    (hpast : ∀ e ∈ past, Unstopped req e.1)
    (hseen : ∀ before, past ⊆ before → SeenRunning req before → wasRunning = true) :
    Ends (anything calls) (fun past' _ => Accounted s req past')
      (s.snapshotVolumes req wasRunning vols metas).run past := by
  have hprepare : (s.runPreBackup req).run.Issues (Unstopped req) := runPreBackup_issues nofun nofun fun _ _ => nofun
  have hcapture : (s.captureVolumes req vols metas).run.Issues (Unstopped req) :=
    captureVolumes_issues (fun _ => nofun) (fun _ => nofun) (fun _ _ => nofun) (fun _ => nofun) fun _ => nofun
  refine .andThen (P := fun past' r => (∀ e, r = .error e → Accounted s req past') ∧
      (∀ u, r = .ok u → (∀ e ∈ past', Unstopped req e.1) ∧ past ⊆ past')) ?_ (fun _ e h => h.1 e rfl) ?_
  · refine ensures_orAfter ((hprepare.ensures_past hpast).mono (fun _ _ _ => trivial) fun _ _ h => h)
      (fun _ _ h => ⟨nofun, fun _ _ => h⟩) fun past' e h => ?_
    exact (closing_ensures abandon_closing (.idle h.1)).imp fun _ _ hacc _ => ⟨fun _ _ => hacc, nofun⟩
  intro past₁ _ h₁
  obtain ⟨hfree₁, hsub₁⟩ := h₁.2 _ rfl
  refine .andThen (P := fun past' r => (∀ e, r = .error e → Accounted s req past') ∧
      (∀ u, r = .ok u → ∃ before after, past' = before ++ ⟨stopCall req, .ok ()⟩ :: after ∧
        (∀ e ∈ before, Unstopped req e.1) ∧ (∀ e ∈ after, Unstopped req e.1) ∧ past ⊆ before))
    ?_ (fun _ e h => h.1 e rfl) ?_
  · refine ensures_orAfter (stop_ensures _ hfree₁) (fun past' u h => ⟨nofun, fun _ _ => ?_⟩)
      fun past' e h => ?_
    · rcases h with ⟨-, e, he⟩ | ⟨before, ans, rfl, hbefore, hsub, -, ⟨-, rfl⟩ | ⟨e, e', he, -⟩⟩
      · cases he
      · refine ⟨before, _, rfl, hbefore, fun e he => ?_, List.Subset.trans hsub₁ hsub⟩
        rw [List.mem_singleton.1 he]
        exact nofun
      · cases he
    · have hacc : Accounted s req past' := by
        rcases h with ⟨hfree, -⟩ | ⟨before, ans, rfl, hbefore, -, hhost, ⟨hok, -⟩ | ⟨e, e', -, rfl⟩⟩
        · exact .idle hfree
        · cases hok
        · refine .refused hhost hbefore fun e he => ?_
          rw [List.mem_singleton.1 he]
          exact ⟨nofun, nofun⟩
      exact (closing_ensures abandon_closing hacc).imp fun _ _ hacc _ => ⟨fun _ _ => hacc, nofun⟩
  intro past₂ _ h₂
  obtain ⟨before, after, rfl, hbefore, hafter, hsub⟩ := h₂.2 _ rfl
  -- from here on the stop was accepted: the exports only add to what came after it
  have hgrow : ∀ {p : Prog calls (Except Error Unit)}, p.Issues (Unstopped req) →
      Ends (anything calls) (fun past' _ => ∃ after',
        past' = before ++ ⟨stopCall req, .ok ()⟩ :: after' ∧ ∀ e ∈ after', Unstopped req e.1) p
        (before ++ ⟨stopCall req, .ok ()⟩ :: after) := by
    intro p hp
    refine (hp.ensures_returns (G := fun _ _ => True) (fun _ _ _ => trivial) _).imp fun past' r hr => ?_
    obtain ⟨t, rfl, hret⟩ := hr
    refine ⟨after ++ t, by simp, fun e he => ?_⟩
    rcases List.mem_append.1 he with he | he
    · exact hafter e he
    · exact hret.issued hp e he
  refine .andThen (P := fun past' r => (∀ e, r = .error e → Accounted s req past') ∧
      (∀ u, r = .ok u → ∃ after', past' = before ++ ⟨stopCall req, .ok ()⟩ :: after' ∧
        ∀ e ∈ after', Unstopped req e.1)) ?_ (fun _ e h => h.1 e rfl) ?_
  · refine ensures_orAfter (hgrow hcapture) (fun _ _ h => ⟨nofun, fun _ _ => h⟩) fun past' e h => ?_
    obtain ⟨after', rfl, hafter'⟩ := h
    refine (restartAfter_ensures hbefore hafter' (hseen before hsub)).andThen
      (fun _ e hacc e' => ⟨fun _ _ => hacc, nofun⟩) fun past'' _ hacc => ?_
    exact (closing_ensures abandon_closing hacc).imp fun _ _ hacc _ => ⟨fun _ _ => hacc, nofun⟩
  · intro past₃ _ h₃
    obtain ⟨after', rfl, hafter'⟩ := h₃.2 _ rfl
    exact restartAfter_ensures hbefore hafter' (hseen before hsub)

theorem get_seen {host tmpl slug : String} : Ends (anything calls)
      (OnOk fun past' obs => ∃ pod, ⟨.podInspect host (podName tmpl slug), .ok pod⟩ ∈ past' ∧ obs.status = pod.status)
      (s.get host tmpl slug).run past := by
  refine ensures_skip_onOk fun t past₁ => ensures_ask_bind trivial fun r past₂ hr => ?_
  cases r with
  | error e => exact ensures_throw_onOk
  | ok pod =>
    have hmem : ⟨.podInspect host (podName tmpl slug), .ok pod⟩ ∈ past₂ := by rw [hr]; simp
    have hvols : (t.metadata.volumes.foldlM (observeVolume host tmpl slug) [] : Task _).run.Issues fun _ => True :=
      issues_true _
    refine ((hvols.ensures_past fun _ _ => trivial).imp fun past₃ _ h a _ => h.2 hmem).thenOk fun past₃ vols hmem₃ => ?_
    refine ensures_ask_bind trivial fun row past₄ hrow => ensures_pure_onOk ⟨pod, ?_, rfl⟩
    rw [hrow]
    exact List.mem_append_left _ hmem₃

end Restart

/-! ## A stop that is refused -/

def refusingHost (refuses : Bool) : Handler calls Unit
  | _, .getTemplate _ => (.ok snapshotTemplate, ())
  | _, .getSpec _ _ _ => (.ok exampleRow, ())
  | _, .podStop _ _ => (if refuses then .error (.text "deadline exceeded") else .ok (), ())
  | _, op => (op.plain, ())

@[irreducible]
def refusedBackup (refuses : Bool) : Except Error Unit × History × Unit :=
  (exampleService.backup snapshotRequest).run.eval (refusingHost refuses) ()

theorem refusedBackup_exec (refuses : Bool) : Exec (refusingHost refuses).service ()
    (exampleService.backup snapshotRequest).run (refusedBackup refuses).2.1 (refusedBackup refuses).2.2
      (.ret (refusedBackup refuses).1) := by
  exact exec_of_eval (refusedBackup.eq_def ..)

def callsAfterStop (refuses : Bool) : List Op :=
  (((refusedBackup refuses).2.1.map (·.1)).dropWhile (· ≠ stopCall snapshotRequest)).tail

theorem refusedBackup_split (refuses : Bool) : ∃ before after, Returns (exampleService.backup snapshotRequest).run
        (before ++ ⟨stopCall snapshotRequest, if refuses then .error (.text "deadline exceeded") else .ok ()⟩ :: after)
        (refusedBackup refuses).1 ∧
      SeenRunning snapshotRequest before ∧ after.map (·.1) = callsAfterStop refuses := by
  have hrun := refusedBackup_exec refuses
  have hanswered := hrun.answered (A := fun op r => r = (refusingHost refuses () op).1)
    fun _ op r _ h => (congrArg Prod.fst h).symm
  have hmem : stopCall snapshotRequest ∈ (refusedBackup refuses).2.1.map (·.1) := by
    cases refuses <;> decide +kernel
  obtain ⟨⟨op, ans⟩, hevent, hop⟩ := List.mem_map.1 hmem
  obtain rfl : op = stopCall snapshotRequest := hop
  obtain ⟨before, after, hsplit⟩ := List.append_of_mem hevent
  obtain rfl : ans = if refuses then .error (.text "deadline exceeded") else .ok () := hanswered _ hevent
  refine ⟨before, after, hsplit ▸ hrun.returns, fun pod hpod => .inl ?_, ?_⟩
  · have hplain := hanswered _ (hsplit ▸ List.mem_append_left _ hpod)
    rw [Except.ok.inj hplain]
  · have hcalls : (refusedBackup refuses).2.1.map (·.1) =
        ((refusedBackup refuses).2.1.map (·.1)).takeWhile (· ≠ stopCall snapshotRequest) ++
          stopCall snapshotRequest :: callsAfterStop refuses ∧
        stopCall snapshotRequest ∉ callsAfterStop refuses := by
      cases refuses <;> decide +kernel
    have hmap := congrArg (List.map (·.1)) hsplit
    rw [hcalls.1, List.map_append] at hmap
    refine (split_at_unique (P := (· = stopCall snapshotRequest)) hmap (fun op hop => ?_) (fun op hop heq => ?_)
      rfl).2.2.symm
    · simpa using List.mem_takeWhile_imp hop
    · exact hcalls.2 (heq ▸ hop)

end PodmanApi.Instance

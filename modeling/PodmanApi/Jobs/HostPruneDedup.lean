/-
# PodmanApi.Jobs.HostPruneDedup — at most one prune job for each host.

The scheduler of `internal/prune` looks once in a tick, at the newest prune jobs, and goes by that look for all
the hosts of the tick. Nothing else enqueues prune jobs, so what it has seen stays good. But `scanPruneJobs` takes
a store error for "no jobs", and an active job may be older than the `activeScanLimit` newest.
-/
import PodmanApi.Jobs.HostPruneSpec

namespace PodmanApi.Jobs

open GoStd Calls
open Function (update update_self update_of_ne)

/-! ## Prune jobs by host -/

/-- The host that the arguments of a prune job name, if they can be decoded. -/
def PruneCodec.hostOf (c : PruneCodec) (args : String) : Option String :=
  match c.unmarshal args with
  | .error _ => none
  | .ok p => some p.host

def PruneCodec.KeepsHost (c : PruneCodec) : Prop :=
  ∀ p args, p.host ≠ "" → c.marshal p = .ok args → c.hostOf (storedArgs args) = some p.host

/-- A prune job for this host that is queued or running. -/
def PruneCodec.Prunes (c : PruneCodec) (host : String) (j : Job) : Prop :=
  j.kind = "prune" ∧ (j.state = .queued ∨ j.state = .running) ∧ c.hostOf j.args = some host

/-- No host has two prune jobs that are queued or running. -/
def Single (c : PruneCodec) (t : JobTable) : Prop :=
  ∀ host, ∀ j ∈ t.list, ∀ j' ∈ t.list, c.Prunes host j → c.Prunes host j' → j.id = j'.id

theorem JobState.young_iff {state : JobState} : (state = .queued ∨ state = .running) ↔ state.age ≤ 1 := by
  cases state <;> decide

variable {w : Option (List String)} {c : PruneCodec}

theorem PruneCodec.Prunes.before {host : String} {j j' : Job} (h : c.Prunes host j')
    (hkind : j.kind = "prune") (hargs : j.args = j'.args) (hage : j.state.age ≤ j'.state.age) : c.Prunes host j :=
  ⟨hkind, JobState.young_iff.2 (Nat.le_trans hage (JobState.young_iff.1 h.2.1)), hargs ▸ h.2.2⟩

/-! ## What the scheduler has seen -/

/-- The hosts that the scheduler knows to have a prune job, once it has looked: those of the listing and
those it has enqueued a job for since. -/
def noteHosts (c : PruneCodec) (w : Option (List String)) : Event jobCalls → Option (List String)
  | ⟨.listJobs f, .ok jobs⟩ => if f.kind = "prune" then some (jobs.foldl (scanJob c) {}).inflight else w
  | ⟨op, _⟩ =>
    match op.inserted with
    | some (kind, args) => if kind = "prune" then w.map ((c.hostOf args).toList ++ ·) else w
    | none => w

/-- The scheduler enqueues a job for a host only when it knows of none. -/
def Dedups (c : PruneCodec) (w : Option (List String)) (op : Op) : Prop :=
  ∀ args, op.inserted = some ("prune", args) →
    ∃ known host, w = some known ∧ c.hostOf args = some host ∧ host ≠ "" ∧ host ∉ known

def ScanAnswered : Event jobCalls → Prop
  | ⟨.listJobs f, r⟩ => f.kind = "prune" → ∃ jobs, r = .ok jobs
  | _ => True

abbrev looking (c : PruneCodec) : Calls.Service jobCalls (Option (List String)) :=
  tracking (noteHosts c) ScanAnswered

/-- Calls that tell the scheduler nothing about prune jobs, and add none. -/
def Aside (op : Op) : Prop :=
  op.inserted = none ∧ ∀ f, op = .listJobs f → f.kind ≠ "prune"

theorem noteHosts_aside {op : Op} (h : Aside op) (r : op.Ans) : noteHosts c w ⟨op, r⟩ = w := by
  unfold noteHosts
  split
  · rename_i f jobs heq
    cases heq
    exact if_neg (h.2 f rfl)
  · rename_i op' r' _ heq
    cases heq
    rw [h.1]

theorem noteHosts_inserted {op : Op} {r : op.Ans} {args : String} (h : op.inserted = some ("prune", args)) :
    noteHosts c w ⟨op, r⟩ = w.map ((c.hostOf args).toList ++ ·) := by
  unfold noteHosts
  split
  · rename_i f jobs heq
    cases heq
    cases h
  · rename_i op' r' _ heq
    cases heq
    rw [h]
    exact if_pos rfl

theorem noteHosts_cases (e : Event jobCalls) : noteHosts c w e = w ∨
    (∃ f jobs, e = ⟨.listJobs f, .ok jobs⟩ ∧ f.kind = "prune" ∧
      noteHosts c w e = some (jobs.foldl (scanJob c) {}).inflight) ∨
    ∃ args, e.1.inserted = some ("prune", args) ∧ noteHosts c w e = w.map ((c.hostOf args).toList ++ ·) := by
  unfold noteHosts
  split
  · rename_i f jobs
    split
    · rename_i hkind
      exact .inr (.inl ⟨f, jobs, rfl, hkind, rfl⟩)
    · exact .inl rfl
  · split
    · rename_i kind args hnew
      split
      · rename_i hkind
        exact .inr (.inr ⟨args, hkind ▸ hnew, rfl⟩)
      · exact .inl rfl
    · exact .inl rfl

/-! ## One tick -/

section Tick

variable {c : PruneCodec} {w : Option (List String)} {α : Type}

theorem look_issue (op : Op) {Q : Option (List String) → op.Ans → Prop} (hG : Dedups c w op)
    (hQ : ∀ r, ScanAnswered ⟨op, r⟩ → Q (noteHosts c w ⟨op, r⟩) r) :
    Ensures (looking c) (Dedups c) Q (issue op) w :=
  ensures_perform hG fun r _ hr => hr.2 ▸ hQ r hr.1

theorem aside_ensures {p : Prog jobCalls α} (hp : p.Issues Aside) :
    Ensures (looking c) (Dedups c) (fun w' _ => w' = w) p w := by
  refine hp.ensures (I := fun w' => w' = w) ?_ ?_ rfl
  · rintro _ op r _ hop rfl ⟨-, rfl⟩
    exact noteHosts_aside hop r
  · intro _ op hop _ args hnew
    rw [hop.1] at hnew
    cases hnew

theorem aside_issue (op : Op) {Q : Option (List String) → op.Ans → Prop} (hop : Aside op)
    (hQ : ∀ r, Q w r) : Ensures (looking c) (Dedups c) Q (issue op) w := by
  refine look_issue op (fun args hnew => ?_) fun r _ => ?_
  · rw [hop.1] at hnew
    cases hnew
  · rw [noteHosts_aside hop]
    exact hQ r

theorem kindActive_aside {kind : String} (h : kind ≠ "prune") : (kindActive kind).Issues Aside := by
  refine .bind (issues_perform.2 ⟨rfl, ?_⟩) fun r => ?_
  · rintro f hf
    cases hf
    exact h
  · cases r with
    | error | ok => exact issues_ret _

theorem migrateOrEvacuateActive_aside : migrateOrEvacuateActive.Issues Aside := by
  refine (kindActive_aside (by decide)).bind fun b => ?_
  split
  · exact issues_ret _
  · exact kindActive_aside (by decide)

theorem probe_aside (hp : HostPolicy) (now : Time) (probes : GoMap Time) :
    (probe c hp now probes).Issues Aside := by
  unfold probe
  split
  · exact issues_ret _
  · split
    · exact issues_ret _
    · refine .bind (issues_perform.2 ⟨rfl, nofun⟩) fun r => ?_
      cases r with
      | error | ok => exact issues_ret _

theorem scanPruneJobs_notes :
    Ensures (looking c) (Dedups c) (fun w' scan => w' = some scan.inflight) (scanPruneJobs c) w := by
  refine ensures_bind.2 (look_issue (.listJobs _) (fun _ h => by cases h) fun r hanswered => ?_)
  obtain ⟨jobs, rfl⟩ := hanswered rfl
  exact ensures_ret.2 rfl

variable {known : List String} {scan : PruneScan} {hp : HostPolicy}

/-- The hosts that become known in the turn of a host are that host. -/
def Adds (known : List String) (host : String) (w : Option (List String)) : Prop :=
  ∃ known', w = some known' ∧ ∀ h ∈ known', h ∈ known ∨ h = host

theorem adds_none (known : List String) (host : String) : Adds known host (some known) :=
  ⟨known, rfl, fun _ h => .inl h⟩

theorem enqueuePrune_dedups (hc : c.KeepsHost) (hhost : hp.host ≠ "") (hfree : hp.host ∉ known) (active : Bool) :
    Ensures (looking c) (Dedups c) (fun w _ => Adds known hp.host w) (enqueuePrune c active hp) (some known) := by
  unfold enqueuePrune
  split
  · exact ensures_ret.2 (adds_none known hp.host)
  · rename_i args hmarshal
    have hargs : c.hostOf (storedArgs args) = some hp.host := hc _ args hhost hmarshal
    refine ensures_bind.2 (look_issue (.enqueue "prune" args "") ?_ fun r _ => ?_)
    · rintro args' hnew
      cases hnew
      exact ⟨known, hp.host, rfl, hargs, hhost, hfree⟩
    · refine ensures_ret.2 ⟨hp.host :: known, ?_, fun h hmem => ?_⟩
      · show (some known).map ((c.hostOf (storedArgs args)).toList ++ ·) = _
        rw [hargs]
        rfl
      · rcases List.mem_cons.1 hmem with rfl | hmem
        · exact .inr rfl
        · exact .inl hmem

theorem tickHost_dedups (hc : c.KeepsHost) (hhost : hp.host ≠ "")
    (hknown : hp.host ∈ known → hp.host ∈ scan.inflight) (now : Time) (active : Bool) (probes : GoMap Time) :
    Ensures (looking c) (Dedups c) (fun w _ => Adds known hp.host w)
      (tickHost c now scan active probes hp) (some known) := by
  unfold tickHost
  split
  · exact ensures_ret.2 (adds_none known hp.host)
  · refine ensures_bind.2 (aside_issue (.knows hp.host) ⟨rfl, nofun⟩ fun b => ?_)
    split
    · exact ensures_ret.2 (adds_none known hp.host)
    · split
      · exact ensures_ret.2 (adds_none known hp.host)
      · rename_i hskip
        have hfree : hp.host ∉ known := by
          intro hmem
          exact hskip (by rw [List.contains_iff_mem.2 (hknown hmem), Bool.true_or])
        have henqueue : ∀ probes : GoMap Time, Ensures (looking c) (Dedups c) (fun w _ => Adds known hp.host w)
            (do enqueuePrune c active hp; pure probes : Prog jobCalls (GoMap Time)) (some known) :=
          fun _ => (enqueuePrune_dedups hc hhost hfree active).map fun _ _ h => h
        split
        · exact henqueue probes
        · refine (aside_ensures (probe_aside hp now probes)).bind ?_
          rintro _ found rfl
          split
          · exact henqueue _
          · exact ensures_ret.2 (adds_none known hp.host)

/-- The hosts of a tick: each has a name, and no two have the same. -/
structure Distinct (hosts : List HostPolicy) : Prop where
  nodup : (hosts.map HostPolicy.host).Nodup
  named : ∀ hp ∈ hosts, hp.host ≠ ""

/-- The loop over the hosts; the induction goes with what is known of the hosts to come. -/
theorem tickHosts_dedups (hc : c.KeepsHost) {hosts : List HostPolicy} (hhosts : Distinct hosts)
    (hknown : ∀ hp ∈ hosts, hp.host ∈ known → hp.host ∈ scan.inflight) (now : Time) (active : Bool)
    (probes : GoMap Time) :
    Ensures (looking c) (Dedups c) (fun _ _ => True) (hosts.foldlM (tickHost c now scan active) probes)
      (some known) := by
  induction hosts generalizing known probes with
  | nil => exact ensures_ret.2 trivial
  | cons hp hosts ih =>
    obtain ⟨hnew, hnodup⟩ := List.nodup_cons.1 hhosts.nodup
    have hnamed : ∀ hp' ∈ hosts, hp'.host ≠ "" := fun hp' hmem => hhosts.named hp' (List.mem_cons_of_mem _ hmem)
    refine (tickHost_dedups hc (hhosts.named hp List.mem_cons_self)
      (hknown hp List.mem_cons_self) now active probes).bind ?_
    rintro _ probes' ⟨known', rfl, hadds⟩
    refine ih ⟨hnodup, hnamed⟩ (fun hp' hmem hmem' => ?_) probes'
    rcases hadds _ hmem' with hold | hsame
    · exact hknown hp' (List.mem_cons_of_mem _ hmem) hold
    · exact absurd (List.mem_map.2 ⟨hp', hmem, hsame⟩) hnew

theorem tick_dedups (hc : c.KeepsHost) {hosts : List HostPolicy} (hhosts : Distinct hosts) (probes : GoMap Time) :
    Ensures (looking c) (Dedups c) (fun _ _ => True) (tick c probes hosts) w := by
  unfold tick
  split
  · refine ensures_bind.2 (aside_issue .now ⟨rfl, nofun⟩ fun now => ?_)
    refine scanPruneJobs_notes.bind ?_
    rintro _ scan rfl
    refine (aside_ensures migrateOrEvacuateActive_aside).bind ?_
    rintro _ active rfl
    exact tickHosts_dedups hc hhosts (fun _ _ h => h) now active probes
  · exact ensures_ret.2 trivial

theorem scheduler_dedups (hc : c.KeepsHost) {ticks : List (List HostPolicy)}
    (hticks : ∀ hosts ∈ ticks, Distinct hosts) :
    Ensures (looking c) (Dedups c) (fun _ _ => True) (scheduler c ticks) w := by
  have hloop : ∀ w probes,
      Ensures (looking c) (Dedups c) (fun _ _ => True) (ticks.foldlM (tick c) probes) w := by
    induction ticks with
    | nil => exact fun _ _ => ensures_ret.2 trivial
    | cons hosts ticks ih =>
      intro w probes
      refine (tick_dedups hc (hticks hosts List.mem_cons_self) probes).bind fun w' probes' _ => ?_
      exact ih (fun hosts' hmem => hticks hosts' (List.mem_cons_of_mem _ hmem)) w' probes'
  exact (hloop w []).map fun _ _ _ => trivial

end Tick

/-! ## What the scan finds -/

section Scan

variable {c : PruneCodec} {scan : PruneScan} {host : String} {j : Job}

theorem scanJob_inflight (j : Job) (h : host ∈ scan.inflight) : host ∈ (scanJob c scan j).inflight := by
  unfold scanJob
  split
  · exact h
  · split
    · exact h
    · split
      · exact List.mem_cons_of_mem _ h
      · exact List.mem_cons_of_mem _ h
      · exact h
      · exact h
      · exact h
      · exact h

theorem scanJob_prunes (hj : c.Prunes host j) (hhost : host ≠ "") : host ∈ (scanJob c scan j).inflight := by
  obtain ⟨-, hstate, hdecode⟩ := hj
  unfold PruneCodec.hostOf at hdecode
  unfold scanJob
  split
  · rename_i e he
    rw [he] at hdecode
    cases hdecode
  · rename_i p hp
    rw [hp] at hdecode
    obtain rfl : p.host = host := Option.some.inj hdecode
    rw [if_neg hhost]
    rcases hstate with hstate | hstate
    · rw [hstate]
      exact List.mem_cons_self
    · rw [hstate]
      exact List.mem_cons_self

theorem scanJobs_prunes {jobs : List Job} (hmem : j ∈ jobs) (hj : c.Prunes host j) (hhost : host ≠ "") :
    host ∈ (jobs.foldl (scanJob c) scan).inflight := by
  have hstays : ∀ (jobs : List Job) (scan : PruneScan), host ∈ scan.inflight →
      host ∈ (jobs.foldl (scanJob c) scan).inflight := by
    intro jobs
    induction jobs with
    | nil => exact fun _ h => h
    | cons job jobs ih => exact fun _ h => ih _ (scanJob_inflight job h)
  induction jobs generalizing scan with
  | nil => cases hmem
  | cons job jobs ih =>
    rcases List.mem_cons.1 hmem with rfl | hmem
    · exact hstays jobs _ (scanJob_prunes hj hhost)
    · exact ih hmem

end Scan

/-! ## Side by side -/

/-- The condition on a listing of prune jobs: it does not fail, and it shows every prune job that is queued
or running. -/
def Sighted (c : PruneCodec) (t : JobTable) : Event jobCalls → Prop
  | ⟨.listJobs f, r⟩ => f.kind = "prune" → (∃ jobs, r = .ok jobs) ∧
      ∀ host, ∀ j ∈ t.list, c.Prunes host j → j ∈ t.page f
  | _ => True

/-- What the scheduler knows is right: it knows of every host with a prune job that is queued or running. -/
def Knows (c : PruneCodec) (t : JobTable) (w : Option (List String)) : Prop :=
  ∀ known, w = some known → ∀ host, host ≠ "" → ∀ j ∈ t.list, c.Prunes host j → host ∈ known

section Step

variable {c : PruneCodec} {t t' : JobTable} {w : Option (List String)} {op : Op} {r : op.Ans}

section

variable (h : jobStore t op r t') (hop : ∀ args, op.inserted ≠ some ("prune", args))

include h hop

theorem prunes_before
    {host : String} {j' : Job} (hj' : j' ∈ t'.list) (hprunes : c.Prunes host j') :
    ∃ j ∈ t.list, j.id = j'.id ∧ c.Prunes host j := by
  obtain ⟨j, hj, hid, hkind, hargs, hage⟩ := jobStore_rows h hop hj' hprunes.1
  exact ⟨j, hj, hid, hprunes.before hkind hargs hage⟩

theorem single_kept
    (ht : Single c t) : Single c t' := by
  intro host j hj j' hj' hprunes hprunes'
  obtain ⟨i, hi, hid, hiprunes⟩ := prunes_before h hop hj hprunes
  obtain ⟨i', hi', hid', hiprunes'⟩ := prunes_before h hop hj' hprunes'
  exact hid.symm.trans ((ht host i hi i' hi' hiprunes hiprunes').trans hid')

theorem knows_kept
    (hw : Knows c t w) : Knows c t' w := by
  intro known hknown host hhost j' hj' hprunes
  obtain ⟨j, hj, -, hjprunes⟩ := prunes_before h hop hj' hprunes
  exact hw known hknown host hhost j hj hjprunes

end

theorem single_inserted (h : jobStore t op r t') {args : String} (hop : op.inserted = some ("prune", args))
    (hdedups : Dedups c w op) (ht : Single c t) (hw : Knows c t w) :
    Single c t' ∧ Knows c t' (noteHosts c w ⟨op, r⟩) := by
  obtain ⟨known, new, rfl, hnew, hnamed, hfree⟩ := hdedups args hop
  have hnote : noteHosts c (some known) ⟨op, r⟩ = some (new :: known) := by
    rw [noteHosts_inserted hop, hnew]
    rfl
  rw [hnote]
  -- the new job is the only one of its host
  have hrows : ∀ j' ∈ t'.list, ∀ host, c.Prunes host j' → j' ∈ t.list ∨
      (host = new ∧ ∀ i ∈ t'.list, c.Prunes new i → i.id = j'.id) := by
    intro j' hj' host hprunes
    rcases jobStore_inserted h hop with rfl | ⟨j, fresh, hkind, hargs, rfl⟩
    · exact .inl hj'
    · rcases List.mem_append.1 hj' with hold | hlast
      · exact .inl hold
      · obtain rfl := List.mem_singleton.1 hlast
        have hhost : host = new := by
          have hdecode := hprunes.2.2
          rw [hargs, hnew] at hdecode
          exact (Option.some.inj hdecode).symm
        refine .inr ⟨hhost, fun i hi hiprunes => ?_⟩
        rcases List.mem_append.1 hi with hold | hlast
        · exact absurd (hw known rfl new hnamed i hold hiprunes) hfree
        · rw [List.mem_singleton.1 hlast]
  constructor
  · intro host j hj j' hj' hprunes hprunes'
    rcases hrows j hj host hprunes with hold | ⟨rfl, honly⟩
    · rcases hrows j' hj' host hprunes' with hold' | ⟨rfl, honly'⟩
      · exact ht host j hold j' hold' hprunes hprunes'
      · exact honly' j hj hprunes
    · exact (honly j' hj' hprunes').symm
  · rintro _ ⟨⟩ host hhost j hj hprunes
    rcases hrows j hj host hprunes with hold | ⟨rfl, -⟩
    · exact List.mem_cons_of_mem _ (hw known rfl host hhost j hold hprunes)
    · exact List.mem_cons_self

theorem dedup_step (h : jobStore t op r t') (hsighted : Sighted c t ⟨op, r⟩) (hdedups : Dedups c w op)
    (ht : Single c t) (hw : Knows c t w) : Single c t' ∧ Knows c t' (noteHosts c w ⟨op, r⟩) := by
  by_cases hop : ∃ args, op.inserted = some ("prune", args)
  · obtain ⟨args, hop⟩ := hop
    exact single_inserted h hop hdedups ht hw
  · have hop : ∀ args, op.inserted ≠ some ("prune", args) := fun args heq => hop ⟨args, heq⟩
    refine ⟨single_kept h hop ht, ?_⟩
    rcases noteHosts_cases (c := c) (w := w) ⟨op, r⟩ with hsame | ⟨f, jobs, he, hkind, hnote⟩ | ⟨args, hnew, -⟩
    · rw [hsame]
      exact knows_kept h hop hw
    · cases he
      obtain ⟨rfl, hpage⟩ : t' = t ∧ _ := h
      obtain rfl : jobs = t'.page f := by
        rcases hpage with hpage | ⟨e, he⟩
        · exact Except.ok.inj hpage
        · cases he
      rw [hnote]
      rintro _ ⟨⟩ host hhost j hj hprunes
      exact scanJobs_prunes ((hsighted hkind).2 host j hj hprunes) hprunes hhost
    · exact absurd hnew (hop args)

theorem Sighted.answered {e : Event jobCalls} (h : Sighted c t e) : ScanAnswered e := by
  obtain ⟨op, r⟩ := e
  cases op with
  | listJobs f => exact fun hkind => (h hkind).1
  | _ => trivial

end Step

section Main

variable {ι : Type} [DecidableEq ι]

/-- Threads over the job store, in which the listings of one of them, the scheduler, are sighted. -/
def sighted (c : PruneCodec) (ticker : ι) : Shared jobCalls ι JobTable :=
  fun i t op r t' => (i = ticker → Sighted c t ⟨op, r⟩) ∧ jobStore t op r t'

def besideTicker (c : PruneCodec) (t : JobTable) (ticker : ι) (ticks : List (List HostPolicy))
    (others : ι → Prog jobCalls Unit) : Pool jobCalls ι JobTable Unit :=
  ⟨t, update others ticker (scheduler c ticks)⟩

def NoPrune (op : Op) : Prop :=
  ∀ args, op.inserted ≠ some ("prune", args)

/-- In every interleaving of the scheduler with threads that enqueue no prune job, in which its listings are
sighted, no host ever has two queued or running prune jobs. -/
theorem prune_jobs_single (c : PruneCodec) (hc : c.KeepsHost) (t₀ : JobTable) (ht₀ : Single c t₀) (ticker : ι)
    (ticks : List (List HostPolicy)) (hticks : ∀ hosts ∈ ticks, Distinct hosts)
    (others : ι → Prog jobCalls Unit) (hothers : ∀ i, i ≠ ticker → (others i).Issues NoPrune)
    {t : List (ι × Event jobCalls)} {y : Pool jobCalls ι JobTable Unit}
    (hrun : Pool.Run (sighted c ticker) (besideTicker c t₀ ticker ticks others) t y) : Single c y.state := by
  -- the scheduler goes by what it knows; the others insert nothing that it would have to know
  let view : ι → Calls.Service jobCalls (Option (List String)) := fun i =>
    tracking (noteHosts c) fun e => i = ticker → ScanAnswered e
  let guard : ι → Option (List String) → Op → Prop := fun i w op =>
    if i = ticker then Dedups c w op else NoPrune op
  let related : JobTable → (ι → Option (List String)) → Prop := fun t a => Single c t ∧ Knows c t (a ticker)
  have hstep : ∀ i s a op r s', related s a → guard i (a i) op → sighted c ticker i s op r s' →
      ∃ b, view i (a i) op r b ∧ related s' (update a i b) := by
    rintro i s a op r s' ⟨hsingle, hknows⟩ hguard ⟨hsighted, hstore⟩
    refine ⟨noteHosts c (a i) ⟨op, r⟩, ⟨fun hi => (hsighted hi).answered, rfl⟩, ?_⟩
    by_cases hi : i = ticker
    · subst hi
      have hdedups : Dedups c (a i) op := by simpa [guard] using hguard
      show Single c s' ∧ Knows c s' (update a i _ i)
      rw [update_self]
      exact dedup_step hstore (hsighted rfl) hdedups hsingle hknows
    · have hop : NoPrune op := by simpa [guard, hi] using hguard
      show Single c s' ∧ Knows c s' (update a i _ ticker)
      rw [update_of_ne (Ne.symm hi)]
      exact ⟨single_kept hstore hop hsingle, knows_kept hstore hop hknows⟩
  have hprogs : ∀ i, Ensures (view i) (guard i) (fun _ _ => True)
      ((besideTicker c t₀ ticker ticks others).left i) none := by
    intro i
    by_cases hi : i = ticker
    · subst hi
      show Ensures _ _ _ (update others i (scheduler c ticks) i) _
      rw [update_self]
      refine ((scheduler_dedups hc hticks).mono (fun w op h => ?_) fun _ _ h => h).within ?_
      · simpa [guard] using h
      · exact fun w op r w' h => ⟨h.1 rfl, h.2⟩
    · show Ensures _ _ _ (update others ticker (scheduler c ticks) i) _
      rw [update_of_ne hi]
      refine ((hothers i hi).ensures (I := fun _ => True) (fun _ _ _ _ _ _ _ => trivial) ?_ trivial)
      intro w op hop _
      simpa [guard, hi] using hop
  have hstart : related (besideTicker c t₀ ticker ticks others).state fun _ => none :=
    ⟨ht₀, fun _ h => by cases h⟩
  obtain ⟨a, ⟨hsingle, -⟩, -⟩ := hrun.rely hstep hstart hprogs
  exact hsingle

end Main

/-! ## A listing that fails -/

theorem hostCodec_keepsHost : hostCodec.KeepsHost := by
  intro p args hhost hmarshal
  cases hmarshal
  show some (storedArgs p.host) = some p.host
  rw [storedArgs, if_neg hhost]

def twoTicks : List (List HostPolicy) :=
  List.replicate 2 [⟨"engine-1", volumesPolicy⟩]

theorem twoTicks_distinct : ∀ hosts ∈ twoTicks, Distinct hosts := by
  intro hosts hmem
  obtain rfl := List.eq_of_mem_replicate hmem
  exact ⟨by decide, by decide⟩

def loneTicker : Pool jobCalls Unit JobTable Unit :=
  besideTicker hostCodec .empty () twoTicks fun _ => pure ()

def busyStore : Answers jobCalls Unit JobTable := fun _ t op =>
  match op with
  | .listJobs f =>
    if f.kind = "prune" ∧ t.list ≠ [] then some (.error (.text "database is locked"), t)
    else some (.ok (t.page f), t)
  | op => obedient ⟨1⟩ quietRest t op

theorem jobStore_busyStore (i : Unit) (t : JobTable) (op : Op) (r : op.Ans) (t' : JobTable)
    (h : busyStore i t op = some (r, t')) : jobStore t op r t' := by
  cases op with
  | listJobs f =>
    unfold busyStore at h
    dsimp only at h
    split at h
    · cases h
      exact ⟨rfl, .inr ⟨_, rfl⟩⟩
    · cases h
      exact ⟨rfl, .inl rfl⟩
  | _ =>
    have hobedient : obedient ⟨1⟩ quietRest t _ = some (r, t') := h
    exact jobStore_obedient hobedient

/-- The listing of the second tick fails, and a second prune job is enqueued. -/
theorem prune_job_doubled : hostCodec.KeepsHost ∧ (∀ hosts ∈ twoTicks, Distinct hosts) ∧
    Single hostCodec .empty ∧ ∃ t y, Pool.Run (fun _ => jobStore) loneTicker t y ∧ ¬Single hostCodec y.state := by
  refine ⟨hostCodec_keepsHost, twoTicks_distinct, fun _ _ h => (List.not_mem_nil h).elim, ?_⟩
  obtain ⟨t, y, hrun, htest⟩ := Pool.run_of_play (x := loneTicker) jobStore_busyStore (List.replicate 12 ())
    (fun y => y.state.list.any fun j => y.state.list.any fun j' => j.id != j'.id && [j, j'].all fun j =>
      j.kind == "prune" && j.state == .queued && hostCodec.hostOf j.args == some "engine-1") (by decide +kernel)
  obtain ⟨j, hj, htest⟩ := List.any_eq_true.1 htest
  obtain ⟨j', hj', htest⟩ := List.any_eq_true.1 htest
  simp only [List.all_cons, List.all_nil, Bool.and_eq_true, Bool.and_true, bne_iff_ne, beq_iff_eq] at htest
  obtain ⟨hne, ⟨⟨hkind, hstate⟩, hhost⟩, ⟨hkind', hstate'⟩, hhost'⟩ := htest
  refine ⟨t, y, hrun, fun h => hne ?_⟩
  exact h "engine-1" j hj j' hj' ⟨hkind, .inl hstate, hhost⟩ ⟨hkind', .inl hstate', hhost'⟩

/-! ## Listings that succeed -/

def showsPrunes (_ : Unit) (t : JobTable) : Op → Bool
  | .listJobs f => f.kind != "prune" || t.list.all fun j => j.kind != "prune" || (t.page f).contains j
  | _ => true

abbrev calmStore : Answers jobCalls Unit JobTable :=
  Answers.only showsPrunes fun _ => obedient ⟨1⟩ quietRest

theorem sighted_calmStore (i : Unit) (t : JobTable) (op : Op) (r : op.Ans) (t' : JobTable)
    (h : calmStore i t op = some (r, t')) : sighted hostCodec () i t op r t' := by
  unfold calmStore Answers.only at h
  split at h
  · rename_i htest
    refine ⟨fun _ => ?_, jobStore_obedient h⟩
    cases op with
    | listJobs f =>
      cases h
      refine fun hkind => ⟨⟨_, rfl⟩, fun host j hj hprunes => ?_⟩
      have hshown : (t.list.all fun j => j.kind != "prune" || (t.page f).contains j) = true := by
        simpa [showsPrunes, hkind] using htest
      simpa [hprunes.1] using List.all_eq_true.1 hshown j hj
    | _ => trivial
  · cases h

/-- The second tick finds the job of the first, and both ticks are over. -/
theorem second_tick_skips : ∃ t y, Pool.Run (sighted hostCodec ()) loneTicker t y ∧
    (y.left ()).returned = some () ∧ y.state.list.length = 1 ∧ Single hostCodec y.state := by
  obtain ⟨t, y, hrun, htest⟩ := Pool.run_of_play (x := loneTicker) sighted_calmStore (List.replicate 11 ())
    (fun y => (y.left ()).returned == some () && y.state.list.length == 1) (by decide +kernel)
  obtain ⟨hreturned, hlength⟩ := Bool.and_eq_true_iff.1 htest
  refine ⟨t, y, hrun, beq_iff_eq.1 hreturned, beq_iff_eq.1 hlength, ?_⟩
  exact prune_jobs_single hostCodec hostCodec_keepsHost .empty (fun _ _ h => (List.not_mem_nil h).elim) ()
    twoTicks twoTicks_distinct (fun _ => pure ()) (fun i hi => (hi rfl).elim) hrun

end PodmanApi.Jobs

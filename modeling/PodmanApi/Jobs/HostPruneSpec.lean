/-
# PodmanApi.Jobs.HostPruneSpec — when a volume prune meets a move.

While a migrate, evacuate or restore job is active its volumes may be attached to nothing. Nothing is locked
against a prune: the handler lists the migrate and the evacuate jobs and goes ahead when it sees none active.

A `Watch` is the job a thread runs and the kinds it has just listed without finding an active job. What its looks
are worth depends on the other threads, and `Calm` is what they must not do.
-/
import PodmanApi.Instance.Restore
import PodmanApi.Jobs.HostPrune

namespace PodmanApi.Jobs

open GoStd Calls

/-! ## What a thread has seen -/

/-- The job a thread runs, and the kinds of which its last calls have listed no active job. -/
structure Watch where
  job : Option Job := none
  cleared : List String := []

def Watch.after (w : Watch) : Event jobCalls → Watch
  | ⟨.claim _, .ok (some job)⟩ => ⟨some job, []⟩
  | ⟨.listJobs f, .ok jobs⟩ =>
    if jobs.any (·.state.active) then ⟨w.job, []⟩ else ⟨w.job, f.kind :: w.cleared⟩
  | _ => ⟨w.job, []⟩

def Pruning (c : PruneCodec) (w : Watch) (host : String) : Prop :=
  ∃ job p, w.job = some job ∧ job.kind = "prune" ∧ c.unmarshal job.args = .ok p ∧ p.host = host

/-- A volume prune is asked for by a prune job of the host, right after both listings. -/
def Looked (c : PruneCodec) (w : Watch) (op : Op) : Prop :=
  ∀ host filters, op = .volumePrune host filters →
    Pruning c w host ∧ "migrate" ∈ w.cleared ∧ "evacuate" ∈ w.cleared

def Harmless : Op → Prop
  | .volumePrune _ _ => False
  | _ => True

/-- A harmless call that does not take a new job. -/
def Tame : Op → Prop
  | .volumePrune _ _ => False
  | .claim _ => False
  | _ => True

variable {w : Watch} {op : Op}

theorem Tame.harmless (h : Tame op) : Harmless op := by
  cases op <;> first | exact h | trivial

theorem Harmless.looked {c : PruneCodec} (h : Harmless op) : Looked c w op := by
  rintro host filters rfl
  cases h

theorem after_job (op : Op) (h : Tame op) (r : op.Ans) : (w.after ⟨op, r⟩).job = w.job := by
  cases op with
  | claim scope => cases h
  | listJobs f =>
    cases r with
    | error e => rfl
    | ok jobs =>
      unfold Watch.after
      dsimp only
      split <;> rfl
  | _ => rfl

theorem after_cases (w : Watch) (e : Event jobCalls) : (w.after e).cleared = [] ∨
    ∃ f jobs, e = ⟨.listJobs f, .ok jobs⟩ ∧ jobs.any (·.state.active) = false ∧
      w.after e = ⟨w.job, f.kind :: w.cleared⟩ := by
  unfold Watch.after
  split
  · exact .inl rfl
  · rename_i f jobs
    split
    · exact .inl rfl
    · rename_i hnone
      exact .inr ⟨f, jobs, rfl, by simpa using hnone, rfl⟩
  · exact .inl rfl

abbrev watching : Calls.Service jobCalls Watch :=
  tracking Watch.after fun _ => True

abbrev Looks {α : Type} (c : PruneCodec) (Q : Watch → α → Prop) (p : Prog jobCalls α) : Watch → Prop :=
  Ensures watching (Looked c) Q p

section Program

variable {c : PruneCodec} {w : Watch} {job : Job} {α : Type}

theorem harmless_ensures {p : Prog jobCalls α} (h : p.Issues Harmless) : Looks c (fun _ _ => True) p w :=
  h.ensures (I := fun _ => True) (fun _ _ _ _ _ _ _ => trivial) (fun _ _ (hop : Harmless _) _ => hop.looked) trivial

theorem tame_ensures {p : Prog jobCalls α} (h : p.Issues Tame) (hw : w.job = some job) :
    Looks c (fun w _ => w.job = some job) p w := by
  refine h.ensures (I := fun w : Watch => w.job = some job) ?_ (fun _ _ (hop : Tame _) _ => hop.harmless.looked) hw
  rintro w op r _ hop hjob ⟨-, rfl⟩
  exact (after_job op hop r).trans hjob

theorem ensures_ask_job (op : Op) {Q : Watch → op.Ans → Prop} (hG : Looked c w op)
    (hQ : ∀ r, Q (w.after ⟨op, r⟩) r) : Looks c Q (issue op) w :=
  ensures_perform hG fun r _ hr => hr.2 ▸ hQ r

theorem kindActive_clears (kind : String) (hw : w.job = some job) : Looks c (fun w' b => w'.job = some job ∧
      (b = false → w'.cleared = kind :: w.cleared)) (kindActive kind) w := by
  refine ensures_bind.2 (ensures_ask_job (.listJobs _) (Harmless.looked trivial) fun r => ?_)
  cases r with
  | error e => exact ensures_ret.2 ⟨hw, nofun⟩
  | ok jobs =>
    refine ensures_ret.2 ⟨(after_job (.listJobs _) trivial (.ok jobs)).trans hw, fun hnone => ?_⟩
    show (if jobs.any (·.state.active) then _ else _ : Watch).cleared = _
    rw [hnone]
    rfl

theorem guard_clears (hw : w.job = some job) : Looks c (fun w b => w.job = some job ∧
      (b = false → "migrate" ∈ w.cleared ∧ "evacuate" ∈ w.cleared)) migrateOrEvacuateActive w := by
  refine (kindActive_clears "migrate" hw).bind fun w₁ b hb => ?_
  cases b with
  | true => exact ensures_ret.2 ⟨hb.1, nofun⟩
  | false =>
    refine (kindActive_clears "evacuate" hb.1).imp fun w₂ b hb₂ => ⟨hb₂.1, fun hfalse => ?_⟩
    rw [hb₂.2 hfalse, hb.2 rfl]
    exact ⟨List.mem_cons_of_mem _ List.mem_cons_self, List.mem_cons_self⟩

theorem jobStep_tame (id step detail : String) : (jobStep id step detail).run.Issues Tame := by
  exact (issues_ask trivial).andThen fun _ => issues_pure

theorem recordStep_tame (scope : String) (firstErr : Option Error) (r : Except Error PruneReport) :
    (recordStep job scope firstErr r).run.Issues Tame := by
  cases r with
  | error | ok => exact (jobStep_tame _ _ _).andThen fun _ => issues_pure

variable {p : Payload} {s : PruneStep}

theorem mem_scopeStep {scope : String} {guarded : Bool}
    {run : Prog jobCalls (Except Error PruneReport)} (h : s ∈ scopeStep p scope guarded run) :
    s = ⟨scope, guarded, run⟩ := by
  unfold scopeStep at h
  split at h
  · exact List.mem_singleton.1 h
  · cases h

theorem mem_imageSteps (h : s ∈ imageSteps p) : s.run.Issues Tame := by
  unfold imageSteps at h
  split at h
  · rw [List.mem_singleton.1 h]
    exact issues_perform.2 trivial
  · split at h
    · rw [List.mem_singleton.1 h]
      exact issues_perform.2 trivial
    · cases h

theorem mem_pruneSteps (h : s ∈ pruneSteps p) :
    s.run.Issues Tame ∨ s = ⟨scopeVolumes, true, issue (.volumePrune p.host volumeFilters)⟩ := by
  unfold pruneSteps plainSteps at h
  simp only [List.mem_append] at h
  obtain ((h | h) | h) | h := h
  · exact .inl (mem_imageSteps h)
  · rw [mem_scopeStep h]
    exact .inl (issues_perform.2 trivial)
  · rw [mem_scopeStep h]
    exact .inl (issues_perform.2 trivial)
  · exact .inr (mem_scopeStep h)

theorem ctxErr_tame : (Act.lift (issue .ctxErr) : Work Unit).run.Issues Tame :=
  issues_perform.2 trivial

theorem volumeStep_looks (hkind : job.kind = "prune")
    (hdecode : c.unmarshal job.args = .ok p) (hw : w.job = some job)
    (hlooked : "migrate" ∈ w.cleared ∧ "evacuate" ∈ w.cleared) : Looks c (fun w _ => w.job = some job)
      (issue (.volumePrune p.host volumeFilters)) w := by
  refine ensures_ask_job (.volumePrune p.host volumeFilters) ?_ fun _ => hw
  rintro host filters hop
  cases hop
  exact ⟨⟨job, p, hw, hkind, hdecode, rfl⟩, hlooked⟩

theorem runStep_looks (hs : s ∈ pruneSteps p) (firstErr : Option Error)
    (hkind : job.kind = "prune") (hdecode : c.unmarshal job.args = .ok p) (hw : w.job = some job) :
    Looks c (fun w _ => w.job = some job) (runStep true job firstErr s).run w := by
  have hskip : ∀ w : Watch, w.job = some job → Looks c (fun w b => w.job = some job ∧
      (b = false → Looks c (fun w _ => w.job = some job) s.run w)) (s.skip true) w := by
    intro w hw
    obtain htame | rfl := mem_pruneSteps hs
    · unfold PruneStep.skip
      split
      · exact (guard_clears hw).imp fun w b hb => ⟨hb.1, fun _ => tame_ensures htame hb.1⟩
      · exact ensures_ret.2 ⟨hw, fun _ => tame_ensures htame hw⟩
    · exact (guard_clears hw).imp fun w b hb =>
        ⟨hb.1, fun hfalse => volumeStep_looks hkind hdecode hb.1 (hb.2 hfalse)⟩
  refine (tame_ensures ctxErr_tame hw).andThen (fun _ _ h => h) fun w _ hw => ?_
  refine (hskip w hw).embedThen fun w b hb => ?_
  cases b with
  | true => exact tame_ensures ((jobStep_tame _ _ _).andThen fun _ => issues_pure) hb.1
  | false =>
    exact (hb.2 rfl).embedThen fun w r hw => tame_ensures (recordStep_tame _ _ _) hw

theorem dryRun_tame (p : Payload) : (dryRun job p).run.Issues Tame := by
  refine ctxErr_tame.andThen fun _ => ?_
  refine .andThen (.mapErr (issues_perform.2 trivial)) fun info => ?_
  exact jobStep_tame _ _ _

theorem handler_looks (hkind : job.kind = "prune") (hw : w.job = some job) :
    Looks c (fun w _ => w.job = some job) (c.handler true job).run w := by
  unfold PruneCodec.handler
  split
  · exact ensures_throw.2 hw
  · rename_i p hdecode
    split
    · exact tame_ensures (dryRun_tame p) hw
    · have hloop : Looks c (fun w _ => w.job = some job)
          ((pruneSteps p).foldlM (runStep true job) none).run w := by
        refine ensures_foldlM (fun _ _ w => w.job = some job) _ ?_ (fun _ _ h => h) hw
        intro done s rest hsplit firstErr w hw
        have hs : s ∈ pruneSteps p := hsplit ▸ List.mem_append_right _ List.mem_cons_self
        exact (runStep_looks hs firstErr hkind hdecode hw).imp fun w r h => ⟨fun _ _ => h, fun _ _ => h⟩
      refine hloop.andThen (fun _ _ h => h) fun w firstErr hw => ?_
      cases firstErr with
      | none => exact ensures_pure.2 hw
      | some e => exact ensures_throw.2 hw

theorem finish_harmless (id : String) (state : JobState) (msg : String) :
    (finish id state msg).Issues Harmless := by
  exact .bind (issues_perform.2 trivial) fun _ => issues_ret _

theorem record_harmless (canceled : Bool) (result : Except Error Unit) :
    (record job canceled result).Issues Harmless := by
  unfold record
  split
  · exact finish_harmless _ _ _
  · split
    · exact finish_harmless _ _ _
    · exact finish_harmless _ _ _

theorem claimEach_takes (kinds : List String) : Looks c
    (fun w r => ∀ job, r = .ok (some job) → w.job = some job) (claimEach kinds).run w := by
  induction kinds generalizing w with
  | nil => exact ensures_pure.2 nofun
  | cons kind kinds ih =>
    refine ensures_run_bind.2 (ensures_ask_job (.claim _) (Harmless.looked trivial) fun r => ?_)
    refine ⟨fun found hfound => ?_, nofun⟩
    subst hfound
    cases found with
    | none => exact ih
    | some job =>
      refine ensures_ask_bind (Harmless.looked trivial) fun _ w hw => ?_
      rw [hw.2]
      exact ensures_pure.2 fun job' hjob' => Option.some.inj (Except.ok.inj hjob') ▸ rfl

theorem claimOne_takes (scope : ClaimScope) : Looks c (fun w r => ∀ job, r = .ok (some job) → w.job = some job)
    (Act.lift (issue (.claim scope)) : Work (Option Job)).run w := by
  refine ensures_ask_job (.claim scope) (Harmless.looked trivial) fun r => ?_
  rintro job rfl
  rfl

theorem claim_takes (r : Runner) (kinds : Option (List String)) (exclude : Bool) :
    Looks c (fun w r => ∀ job, r = .ok (some job) → w.job = some job) (r.claim kinds exclude).run w := by
  unfold Runner.claim
  split
  · exact claimOne_takes _
  · cases kinds with
    | none => exact claimOne_takes _
    | some kinds =>
      show Ensures _ _ _ (r.claimRotating kinds).run w
      unfold Runner.claimRotating
      split
      · exact ensures_ask_bind (Harmless.looked trivial) fun order w _ => claimEach_takes order
      · exact claimOne_takes _

end Program

/-- The registry has this package's handler for prune jobs, and no other handler asks for a volume
prune. -/
structure Registered (r : Runner) (c : PruneCodec) : Prop where
  prune : r.handlers "prune" = some (c.handler true)
  others : ∀ kind h, kind ≠ "prune" → r.handlers kind = some h → ∀ job, (h job).run.Issues Harmless

section Worker

variable {r : Runner} {c : PruneCodec}

theorem run_looks (hr : Registered r c) {job : Job} (hw : w.job = some job) :
    Looks c (fun _ _ => True) (r.run job) w := by
  unfold Runner.run
  split
  · exact harmless_ensures (finish_harmless _ _ _)
  · rename_i h hh
    refine ensures_bind.2 (ensures_ask_job (.enter job.id) (Harmless.looked trivial) fun _ => ?_)
    have hwork : Looks c (fun _ _ => True) (h job).run ⟨w.job, []⟩ := by
      by_cases hkind : job.kind = "prune"
      · rw [hkind, hr.prune] at hh
        cases hh
        exact (handler_looks (w := ⟨w.job, []⟩) hkind hw).imp fun _ _ _ => trivial
      · exact harmless_ensures (hr.others job.kind h hkind hh job)
    refine hwork.bind fun w result _ => ?_
    refine ensures_bind.2 (ensures_ask_job (.leave job.id) (Harmless.looked trivial) fun canceled => ?_)
    exact harmless_ensures (record_harmless canceled result)

theorem worker_looks (hr : Registered r c) (kinds : Option (List String)) (exclude : Bool) (rounds : Nat)
    (w : Watch) : Looks c (fun _ _ => True) (r.worker kinds exclude rounds) w := by
  induction rounds generalizing w with
  | zero => exact ensures_ret.2 trivial
  | succ rounds ih =>
    refine ensures_bind.2 (ensures_ask_job .ctxErr (Harmless.looked trivial) fun result => ?_)
    cases result with
    | error e => exact ensures_ret.2 trivial
    | ok _ =>
      have hround : Looks c (fun _ _ => True) (r.round kinds exclude) ⟨w.job, []⟩ := by
        refine (claim_takes r kinds exclude).bind fun w result htaken => ?_
        split
        · exact run_looks hr (htaken _ rfl)
        · exact ensures_ret.2 trivial
      exact hround.bind fun w _ _ => ih w

theorem kindActive_harmless (kind : String) : (kindActive kind).Issues Harmless := by
  refine .bind (issues_perform.2 trivial) fun r => ?_
  cases r with
  | error | ok => exact issues_ret _

theorem scanPruneJobs_harmless : (scanPruneJobs c).Issues Harmless := by
  refine .bind (issues_perform.2 trivial) fun r => ?_
  cases r with
  | error | ok => exact issues_ret _

theorem enqueuePrune_harmless (active : Bool) (hp : HostPolicy) : (enqueuePrune c active hp).Issues Harmless := by
  unfold enqueuePrune
  split
  · exact issues_ret _
  · exact .bind (issues_perform.2 trivial) fun _ => issues_ret _

theorem probe_harmless (hp : HostPolicy) (now : Time) (probes : GoMap Time) :
    (probe c hp now probes).Issues Harmless := by
  unfold probe
  split
  · exact issues_ret _
  · split
    · exact issues_ret _
    · refine .bind (issues_perform.2 trivial) fun r => ?_
      cases r with
      | error | ok => exact issues_ret _

theorem tickHost_harmless (now : Time) (scan : PruneScan) (active : Bool) (probes : GoMap Time)
    (hp : HostPolicy) : (tickHost c now scan active probes hp).Issues Harmless := by
  have henqueue : ∀ probes : GoMap Time,
      (do enqueuePrune c active hp; pure probes : Prog jobCalls _).Issues Harmless :=
    fun _ => (enqueuePrune_harmless active hp).bind fun _ => issues_ret _
  unfold tickHost
  split
  · exact issues_ret _
  · refine .bind (issues_perform.2 trivial) fun known => ?_
    split
    · exact issues_ret _
    · split
      · exact issues_ret _
      · split
        · exact henqueue probes
        · refine (probe_harmless hp now probes).bind fun found => ?_
          split
          · exact henqueue _
          · exact issues_ret _

theorem tick_harmless (probes : GoMap Time) (hosts : List HostPolicy) : (tick c probes hosts).Issues Harmless := by
  unfold tick
  split
  · refine .bind (issues_perform.2 trivial) fun now => ?_
    refine scanPruneJobs_harmless.bind fun scan => ?_
    have hguard : migrateOrEvacuateActive.Issues Harmless := by
      refine (kindActive_harmless "migrate").bind fun b => ?_
      split
      · exact issues_ret _
      · exact kindActive_harmless "evacuate"
    refine hguard.bind fun active => ?_
    exact issues_foldlM_plain hosts (fun probes hp _ => tickHost_harmless now scan active probes hp) probes
  · exact issues_ret _

theorem scheduler_harmless (ticks : List (List HostPolicy)) : (scheduler c ticks).Issues Harmless := by
  refine .bind ?_ fun _ => issues_ret _
  exact issues_foldlM_plain ticks (fun probes hosts _ => tick_harmless probes hosts) []

end Worker

/-! ## Side by side -/

/-- The kinds of jobs that leave volumes unattached. -/
def movers : List String := ["migrate", "evacuate", "restore"]

/-- The listing after which the guard no longer notices a new job of a kind; restores it never lists,
and it ends with the evacuate jobs. -/
def lastLook (kind : String) : String :=
  if kind = "restore" then "evacuate" else kind

/-- The threads of the daemon: workers, the prune scheduler, and anything that asks for no volume prune,
such as the API's requests. -/
inductive Process (r : Runner) (c : PruneCodec) : Prog jobCalls Unit → Prop where
  | worker (kinds : Option (List String)) (exclude : Bool) (rounds : Nat) :
      Process r c (r.worker kinds exclude rounds)
  | scheduler (ticks : List (List HostPolicy)) : Process r c (scheduler c ticks)
  | other {p : Prog jobCalls Unit} (h : p.Issues Harmless) : Process r c p

theorem Process.looks {r : Runner} {c : PruneCodec} {p : Prog jobCalls Unit} (h : Process r c p)
    (hr : Registered r c) (w : Watch) : Looks c (fun _ _ => True) p w := by
  cases h with
  | worker kinds exclude rounds => exact worker_looks hr kinds exclude rounds w
  | scheduler ticks => exact harmless_ensures (scheduler_harmless ticks)
  | other h => exact harmless_ensures h

section Pool

variable {ι : Type} (c : PruneCodec) (involved : String → String → List String)

/-- The condition on a step: no job that involves a host is inserted between the last look of its guard for that
kind and the volume prune; and what is active at that look can be seen by it, being of the listed kind and behind
an active job on the page. -/
structure Calm (i : ι) (s : JobTable × (ι → Watch)) (op : Op) : Prop where
  insert : ∀ kind args, op.inserted = some (kind, args) → kind ∈ movers → ∀ j host,
    Pruning c (s.2 j) host → lastLook kind ∈ (s.2 j).cleared → host ∉ involved kind args
  look : ∀ f, op = .listJobs f → ∀ host, Pruning c (s.2 i) host → ∀ kind ∈ movers,
    lastLook kind = f.kind → ∀ args, s.1.Active kind args → host ∈ involved kind args →
      kind = f.kind ∧ ∃ job ∈ s.1.page f, job.state.active = true

def Clear (t : JobTable) (w : Watch) : Prop :=
  ∀ host, Pruning c w host → ∀ kind ∈ movers, lastLook kind ∈ w.cleared →
    ∀ args, t.Active kind args → host ∉ involved kind args

/-- The daemon's threads over the job store, each watched, with calm steps only. -/
def calmly [DecidableEq ι] : Shared jobCalls ι (JobTable × (ι → Watch)) :=
  (watched Watch.after fun _ => jobStore).when (Calm c involved)

end Pool

section Clear

variable {ι : Type} [DecidableEq ι] {c : PruneCodec} {involved : String → String → List String}
  {s s' : JobTable × (ι → Watch)}

/-- The looks of the other threads stay good: nothing they would have to see is inserted. -/
theorem clear_other {i j : ι} {r : op.Ans} (hstep : calmly c involved i s op r s')
    (hclear : Clear c involved s.1 (s.2 j)) : Clear c involved s'.1 (s.2 j) := by
  obtain ⟨hcalm, hstore, -⟩ := hstep
  intro host hpruning kind hkind hlook args hactive
  obtain hold | hnew := jobStore_active hstore hactive
  · exact hclear host hpruning kind hkind hlook args hold
  · exact hcalm.insert kind args hnew hkind j host hpruning hlook

theorem clear_self {i : ι} {r : op.Ans} (hstep : calmly c involved i s op r s')
    (hclear : Clear c involved s.1 (s.2 i)) : Clear c involved s'.1 ((s.2 i).after ⟨op, r⟩) := by
  obtain ⟨hcalm, hstore, -⟩ := hstep
  intro host hpruning kind hkind hlook args hactive hinvolved
  obtain hnone | ⟨f, jobs, he, hnone, hafter⟩ := after_cases (s.2 i) ⟨op, r⟩
  · rw [hnone] at hlook
    cases hlook
  · cases he
    rw [hafter] at hpruning hlook
    obtain ⟨htable, hpage⟩ : s'.1 = s.1 ∧ _ := hstore
    obtain rfl : jobs = s.1.page f := by
      obtain hpage | ⟨e, he⟩ := hpage
      · exact Except.ok.inj hpage
      · cases he
    rw [htable] at hactive
    obtain hlast | hearlier := List.mem_cons.1 hlook
    · obtain ⟨-, job, hjob, hstate⟩ := hcalm.look f rfl host hpruning kind hkind hlast args hactive hinvolved
      exact absurd (List.any_eq_true.2 ⟨job, hjob, hstate⟩) (by rw [hnone]; nofun)
    · exact hclear host hpruning kind hkind hearlier args hactive hinvolved

theorem clear_step {α : Type} {y z : Pool jobCalls ι (JobTable × (ι → Watch)) α} {e : ι × Event jobCalls}
    (hy : ∀ j, Clear c involved y.state.1 (y.state.2 j)) (h : Pool.Step (calmly c involved) y e z) (j : ι) :
    Clear c involved z.state.1 (z.state.2 j) := by
  cases h with
  | @answer i op k r s hnext hr =>
    rw [hr.2.2]
    by_cases hij : j = i
    · subst hij
      rw [Function.update_self]
      exact clear_self hr (hy j)
    · rw [Function.update_of_ne hij]
      exact clear_other hr (hy j)

end Clear

section Main

variable {ι : Type} [DecidableEq ι]

def daemon (jobs : JobTable) (left : ι → Prog jobCalls Unit) : Pool jobCalls ι (JobTable × (ι → Watch)) Unit :=
  ⟨(jobs, fun _ => {}), left⟩

/-- No thread is about to ask for a volume prune of a host that an active move or restore involves. -/
def SparesMoves (involved : String → String → List String)
    (y : Pool jobCalls ι (JobTable × (ι → Watch)) Unit) : Prop :=
  ∀ i host filters, (y.left i).next = some (.volumePrune host filters) →
    ∀ job ∈ y.state.1.list, job.state.active = true → job.kind ∈ movers →
      host ∉ involved job.kind job.args

theorem lastLook_cleared (hm : "migrate" ∈ w.cleared) (he : "evacuate" ∈ w.cleared)
    {kind : String} (h : kind ∈ movers) : lastLook kind ∈ w.cleared := by
  simp only [movers, List.mem_cons, List.not_mem_nil, or_false] at h
  obtain rfl | rfl | rfl := h
  · exact hm
  · exact he
  · exact he

/-- In every interleaving of calm steps, of any number of threads and
jobs. -/
theorem volumePrune_spares_moves (r : Runner) (c : PruneCodec)
    (involved : String → String → List String) (hr : Registered r c) (jobs : JobTable)
    (left : ι → Prog jobCalls Unit) (hleft : ∀ i, Process r c (left i))
    (t : List (ι × Event jobCalls)) (y : Pool jobCalls ι (JobTable × (ι → Watch)) Unit)
    (hrun : Pool.Run (calmly c involved) (daemon jobs left) t y) : SparesMoves involved y := by
  have hlooks : ∀ i, Looks c (fun _ _ => True) (y.left i) (y.state.2 i) := by
    refine hrun.ensures (G := fun _ => Looked c) (Q := fun _ _ _ => True) (watches_watched _).when ?_
    exact fun i => (hleft i).looks hr {}
  have hclear : ∀ i, Clear c involved y.state.1 (y.state.2 i) := by
    refine hrun.invariant (fun y => ∀ i, Clear c involved y.state.1 (y.state.2 i)) ?_ ?_
    · intro i host _ kind _ hlook
      cases hlook
    · exact fun _ _ _ hy hstep => clear_step hy hstep
  intro i host filters hnext job hjob hactive hmover
  have hlook := hlooks i
  cases hprog : y.left i with
  | ret a =>
    rw [hprog] at hnext
    cases hnext
  | call op k =>
    rw [hprog] at hnext hlook
    obtain ⟨hpruning, hm, he⟩ := (ensures_call.1 hlook).1 host filters (Option.some.inj hnext)
    exact hclear i host hpruning job.kind hmover (lastLook_cleared hm he hmover) job.args
      ⟨job, hjob, hactive, rfl, rfl⟩

end Main

/-! ## A restore that the guard does not see -/

def volumesPolicy : Policy := ⟨true, hour, 0, [scopeVolumes], false⟩

def hostCodec : PruneCodec where
  marshal p := .ok p.host
  unmarshal args := .ok ⟨args, volumesPolicy⟩
  overThreshold _ _ := false

def nightlyRunner : Runner where
  handlers kind :=
    if kind = "prune" then some (hostCodec.handler true)
    else if kind = "restore" then some (delegate "restore" .ok fun id => Instance.exampleService.restore id)
    else none
  rotates := false

theorem nightlyRunner_registered : Registered nightlyRunner hostCodec where
  prune := rfl
  others kind h hkind hh job := by
    unfold nightlyRunner at hh
    dsimp only at hh
    rw [if_neg hkind] at hh
    split at hh
    · cases hh
      exact issues_via (fun _ => trivial) (Instance.exampleService.restore job.args).run
    · cases hh

/-- A request that enqueues a restore, the worker that takes it, the scheduler, and the worker that takes
the prune job. -/
inductive Nightly where
  | api
  | restorer
  | ticker
  | pruner
  deriving DecidableEq

/-- What they do: the backup `b1` is of an instance on `engine-1`, which is due for pruning. -/
def nightlyThreads : Nightly → Prog jobCalls Unit
  | .api => do
    let _ ← issue (.enqueue "restore" "b1" "")
    pure ()
  | .restorer => nightlyRunner.worker none false 1
  | .ticker => scheduler hostCodec [[⟨"engine-1", volumesPolicy⟩]]
  | .pruner => nightlyRunner.worker none false 1

def quietRest : (op : Op) → Option op.Ans
  | .knows _ => some true
  | .enter _ => some ()
  | .now => some ⟨1⟩
  | .ctxErr => some (.ok ())
  | _ => none

/-- The restore job is taken before the scheduler wakes up, and still runs when the prune job has been
taken and its guard has looked. -/
def nightlyTurns : List Nightly :=
  .api :: List.replicate 3 .restorer ++ List.replicate 6 .ticker ++ List.replicate 6 .pruner

def backupHost (kind args : String) : List String :=
  if kind = "restore" then (if args = "b1" then ["engine-1"] else ["engine-2"]) else []

theorem nightlyThreads_process (i : Nightly) : Process nightlyRunner hostCodec (nightlyThreads i) := by
  cases i with
  | api => exact .other (.bind (issues_perform.2 trivial) fun _ => issues_ret _)
  | restorer | pruner => exact .worker none false 1
  | ticker => exact .scheduler _

def watchedAnswers (ι : Type) [DecidableEq ι] : Answers jobCalls ι (JobTable × (ι → Watch)) :=
  Answers.watched Watch.after fun _ => obedient ⟨1⟩ quietRest

theorem watchedAnswers_shared {ι : Type} [DecidableEq ι] (i : ι) (s : JobTable × (ι → Watch)) (op : Op)
    (r : op.Ans) (s' : JobTable × (ι → Watch)) (h : watchedAnswers ι i s op = some (r, s')) :
    watched Watch.after (fun _ => jobStore) i s op r s' :=
  Answers.watched_shared (Γ := jobCalls) (f := Watch.after) (fun _ _ _ _ _ h => jobStore_obedient h)
    i s op r s' h

/-- A thread is about to ask for a volume prune of `engine-1`. -/
def PrunesNext {ι : Type} (y : Pool jobCalls ι (JobTable × (ι → Watch)) Unit) (i : ι) : Prop :=
  (y.left i).next = some (.volumePrune "engine-1" volumeFilters)

instance {ι : Type} (y : Pool jobCalls ι (JobTable × (ι → Watch)) Unit) (i : ι) : Decidable (PrunesNext y i) :=
  inferInstanceAs (Decidable (_ = _))

/-- The next call of the second worker removes the volumes of the host
whose instance the first worker is restoring. -/
theorem volumePrune_meets_restore : Registered nightlyRunner hostCodec ∧
    (∀ i, Process nightlyRunner hostCodec (nightlyThreads i)) ∧
    ∃ t y, Pool.Run (watched Watch.after fun _ => jobStore) (daemon JobTable.empty nightlyThreads) t y ∧
      ¬ SparesMoves backupHost y := by
  refine ⟨nightlyRunner_registered, nightlyThreads_process, ?_⟩
  obtain ⟨t, y, hrun, htest⟩ := Pool.run_of_play (x := daemon JobTable.empty nightlyThreads)
    watchedAnswers_shared nightlyTurns
    (fun y => PrunesNext y .pruner ∧ ∃ job ∈ y.state.1.list, job.state.active = true ∧
      job.kind ∈ movers ∧ "engine-1" ∈ backupHost job.kind job.args) (by decide +kernel)
  obtain ⟨hnext, job, hjob, hactive, hmover, hhost⟩ := of_decide_eq_true htest
  exact ⟨t, y, hrun, fun h => h .pruner "engine-1" volumeFilters hnext job hjob hactive hmover hhost⟩

/-! ## A calm night -/

/-- The prune job of `engine-1` is queued while an instance of `engine-2` is restored. -/
def calmJobs : JobTable where
  list := [newJob "0" "restore" "b2" "" .running ⟨1⟩, newJob "1" "prune" "engine-1" "" .queued ⟨1⟩]
  nodup := by decide

def calmTest (i : Unit) (s : JobTable × (Unit → Watch)) (op : Op) : Bool :=
  op.inserted.isNone && (s.2 i).job.all (·.args == "engine-1") &&
    s.1.list.all fun job => !movers.contains job.kind || !(backupHost job.kind job.args).contains "engine-1"

theorem calm_of_calmTest (i : Unit) (s : JobTable × (Unit → Watch)) (op : Op)
    (h : calmTest i s op = true) : Calm hostCodec backupHost i s op := by
  simp only [calmTest, Bool.and_eq_true, Option.isNone_iff_eq_none] at h
  obtain ⟨⟨hinsert, hjob⟩, hjobs⟩ := h
  refine ⟨fun kind args hnew => ?_, ?_⟩
  · rw [hinsert] at hnew
    cases hnew
  rintro f - host ⟨job, p, hw, -, hdecode, rfl⟩ kind hkind - args ⟨mover, hmover, -, rfl, rfl⟩ hhost
  cases hdecode
  have hargs : job.args = "engine-1" := by simpa [hw] using hjob
  have hspared := List.all_eq_true.1 hjobs mover hmover
  simp [hkind, ← hargs, hhost] at hspared

def calmThreads (_ : Unit) : Prog jobCalls Unit :=
  nightlyRunner.worker none false 1

/-- The volume prune of `engine-1` comes next, and the restore on `engine-2` still runs. -/
theorem calmNight_spares_moves : ∃ t y,
    Pool.Run (calmly hostCodec backupHost) (daemon calmJobs calmThreads) t y ∧ PrunesNext y () ∧
      calmJobs.Active "restore" "b2" ∧ SparesMoves backupHost y := by
  obtain ⟨t, y, hrun, htest⟩ := Pool.run_of_play (x := daemon calmJobs calmThreads)
    (Answers.only_when watchedAnswers_shared calm_of_calmTest) (List.replicate 6 ())
    (fun y => PrunesNext y ()) (by decide +kernel)
  refine ⟨t, y, hrun, of_decide_eq_true htest, ⟨_, List.mem_cons_self, rfl, rfl, rfl⟩, ?_⟩
  exact volumePrune_spares_moves nightlyRunner hostCodec backupHost nightlyRunner_registered calmJobs
    calmThreads (fun _ => .worker none false 1) t y hrun

end PodmanApi.Jobs

/-
# PodmanApi.Jobs.Course — the states a job goes through.

Most of it is enforced by compare and swap in the store, but `Finish` sets a final state whatever the state
was. It is right because only the thread that claimed the job, or started it as a child, finishes it, and nobody
else touches a running job but the `Start` of the next daemon. `Stage` is what one thread is about, and `Course`
relates the stages of all threads to the system.

The cancellation of a running job is only a flag in memory, and a daemon that dies before the job is finished
takes it along (`accepted_cancel_is_lost`).
-/
import PodmanApi.Jobs.Recovery

namespace PodmanApi.Jobs

open GoStd Calls
open Function (update update_self update_of_ne update_eq_self)

/-! ## The threads -/

inductive Role where
  | start
  | worker (kinds : Option (List String)) (exclude : Bool) (rounds : Nat)
  | reconcileLoop (sweeps : Nat)
  | goroutine
  | retention (cutoffs : List Time)
  | cancelJob (id : String)
  | runChild (args : Except Error String) (parentID : String) (mig : String → Work Unit)
  | other (p : Prog jobCalls Unit)

/-- What a thread does. Only a cancellation is answered. -/
def Role.program (r : Runner) : Role → Prog jobCalls (Option CancelReply)
  | start => do
    r.start
    pure none
  | worker kinds exclude rounds => do
    r.worker kinds exclude rounds
    pure none
  | reconcileLoop sweeps => do
    r.reconcileLoop sweeps
    pure none
  | goroutine => do
    r.goroutine
    pure none
  | retention cutoffs => do
    Jobs.retention cutoffs
    pure none
  | cancelJob id => do
    let reply ← Jobs.cancelJob id
    pure (some reply)
  | runChild args parentID mig => do
    let _ ← (Jobs.runChild args parentID mig).run
    pure none
  | other p => do
    p
    pure none

/-- The calls of handlers, reconcilers, requests and schedulers: they enqueue and look at jobs, but change no
states and nothing the runner keeps in memory. -/
def Op.Quiet : Op → Prop
  | enqueue _ _ _ | getJob _ | listJobs _ | appendStep _ _ _ => True
  | knows _ | hostInfo _ | imagePrune _ _ | containerPrune _ | buildCachePrune _ | volumePrune _ _ => True
  | now | ctxErr | service _ => True
  | _ => False

/-- What handlers and reconcilers are taken to be. The moves that an evacuation makes on the side are threads
of their own. -/
structure Runner.Quiet (r : Runner) : Prop where
  handlers : ∀ kind h, r.handlers kind = some h → ∀ job, (h job).run.Issues Op.Quiet
  reconcilers : ∀ kind h, GoMap.get? r.reconcilers kind = some h → ∀ job, (h job).run.Issues Op.Quiet

def Role.Quiet : Role → Prop
  | runChild _ _ mig => ∀ id, (mig id).run.Issues Op.Quiet
  | other p => p.Issues Op.Quiet
  | _ => True

/-! ## What one thread is about -/

/-- Nothing, or starting the daemon; a job it has claimed, registered, or taken out again with the answer whether
it was canceled; a child job; the jobs of its sweep, and the one it was launched with and has registered; a job it
saw queued or running, and one whose cancellation it was granted. -/
inductive Stage where
  | idle
  | booting
  | claimed (id : String)
  | inside (id : String)
  | left (id : String) (canceled : Bool)
  | child (id : String)
  | lists (ids : List String)
  | takes (id : String)
  | reconciles (id : String)
  | saw (id : String)
  | granted (id : String)
  deriving DecidableEq

def Stage.holds : Stage → Option String
  | claimed id | inside id | left id _ | child id => some id
  | _ => none

def Stage.Recovers (id : String) : Stage → Prop
  | lists ids => id ∈ ids
  | takes id' | reconciles id' => id' = id
  | _ => False

def Stage.Entered (id : String) (a : Stage) : Prop :=
  a = .inside id ∨ a = .reconciles id

def Stage.Unburdened (id : String) (a : Stage) : Prop :=
  a.holds ≠ some id ∧ ¬a.Recovers id ∧ a ≠ .saw id

theorem Stage.not_entered {a : Stage} (hinside : ∀ id, a ≠ .inside id) (hreconciles : ∀ id, a ≠ .reconciles id)
    (id : String) : ¬a.Entered id :=
  not_or.2 ⟨hinside id, hreconciles id⟩

def Stage.listing (jobs : List Job) : Stage → Stage
  | idle | lists _ => lists ((jobs.filter (·.state == .reconciling)).map Job.id)
  | a => a

def Stage.looking (id : String) (state : JobState) : Stage → Stage
  | idle => if state = .queued ∨ state = .running then saw id else idle
  | a => a

def Stage.entering (id : String) : Stage → Stage
  | claimed _ => inside id
  | _ => reconciles id

def Stage.leaving (id : String) (canceled : Bool) : Stage → Stage
  | inside _ => left id canceled
  | _ => idle

def Stage.after (a : Stage) : (op : Op) → op.Ans → Stage
  | .boot, _ => .booting
  | .ready, _ => .idle
  | .claim _, .ok (some job) => .claimed job.id
  | .startChild _ _ _, .ok job => .child job.id
  | .finish _ _ _, _ => .idle
  | .enter id, _ => a.entering id
  | .leave id, canceled => a.leaving id canceled
  | .listJobs _, .ok jobs => a.listing jobs
  | .getJob id, .ok job => a.looking id job.state
  | .started, job => .takes job.id
  | .cancel id, true => .granted id
  | .cancelQueued id, .ok true => .granted id
  | .cancelReconciling id, .ok true => .granted id
  | _, _ => a

def Allowed (a : Stage) : Op → Prop
  | .boot | .claim _ | .startChild _ _ _ | .started => a = .idle
  | .ready | .markReconciling _ | .failRunning _ => a = .booting
  | .enter id => a = .claimed id ∨ a = .takes id
  | .leave id => a.Entered id
  | .finish id state _ => a = .claimed id ∨ a = .child id ∨
      ∃ canceled, a = .left id canceled ∧ (canceled = true → state = .canceled)
  | .cancel id => a = .saw id ∨ a = .granted id
  | .cancelQueued _ | .cancelReconciling _ => a.holds = none ∧ a ≠ .booting ∧ ∀ id, ¬a.Entered id
  | .launch job => a.Recovers job.id
  | _ => True

/-- A listing shows jobs that its filter accepts. -/
def Answered : (op : Op) → op.Ans → Prop
  | .listJobs f, .ok jobs => ∀ j ∈ jobs, f.accepts j = true
  | _, _ => True

def staged : Calls.Service jobCalls Stage := fun a op r b =>
  Answered op r ∧ b = a.after op r

abbrev Staged {α : Type} (Q : Stage → α → Prop) (p : Prog jobCalls α) : Stage → Prop :=
  Ensures staged Allowed Q p

/-! ## The stages and the system -/

def Op.memory : Op → Bool
  | boot | ready | enter _ | leave _ | cancel _ | launch _ | started | reconcile _ | ended | join => true
  | _ => false

def Op.finished : Op → Option String
  | finish id _ _ => some id
  | _ => none

variable {id : String} {b : Stage} {r : Runner} {K : Prop}

section Course

variable {ι : Type}

/-- The stages of the threads, in a system whose present daemon was started when exactly `recs` were reconciling.
Only threads of that daemon count; those of later ones have not begun. -/
structure Course (life : ι → Nat) (s : System ι) (a : ι → Stage) (recs : String → Prop) : Prop where
  later : ∀ i, s.life < life i → a i = .idle
  waits : s.serving = false → ∀ i, life i = s.life → a i = .idle ∨ a i = .booting
  empty : s.serving = false → s.launched = []
  booted : s.serving = true → ∀ i, life i = s.life → a i ≠ .booting
  sole : ∀ i j, life i = s.life → life j = s.life → a i = .booting → a j = .booting → i = j
  runs : ∀ i id, life i = s.life → (a i).holds = some id → s.table.stateOf id = some .running
  alone : ∀ i j id, life i = s.life → life j = s.life → (a i).holds = some id → (a j).holds = some id → i = j
  pending : ∀ id, recs id → s.table.stateOf id ≠ some .queued ∧ s.table.stateOf id ≠ some .running
  others : s.serving = true → ∀ id, s.table.stateOf id = some .reconciling → recs id
  known : ∀ id, recs id → id ∈ s.used
  taken : ∀ i id, life i = s.life → (a i).Recovers id → recs id
  launched : ∀ job ∈ s.launched, recs job.id
  seen : ∀ i id, life i = s.life → a i = .saw id → ¬recs id
  entered : ∀ id i, s.inflight id = some i → life i = s.life ∧ (a i).Entered id
  ids : ∀ id, s.table.stateOf id ≠ none → id ∈ s.used

/-- What a call of the job store does to the stage of the thread that makes it. -/
structure Turn (t : JobTable) (op : Op) (a b : Stage) (t' : JobTable) : Prop where
  early : op.early = true → a = .booting ∧ b = a
  finishes : ∀ id, op.finished = some id → a.holds = some id ∧ b = .idle
  holds : ∀ id, b.holds = some id → b = a ∨ (t.stateOf id ≠ some .running ∧ t'.stateOf id = some .running)
  recovers : ∀ id, b.Recovers id → b = a ∨ t.stateOf id = some .reconciling
  saw : ∀ id, b = .saw id → b = a ∨ t.stateOf id = some .queued ∨ t.stateOf id = some .running
  booting : b = .booting → b = a
  entered : ∀ id, a.Entered id → b = a
  keeps : ∀ id, a.holds = some id → b = a ∨ op.finished = some id

variable {life : ι → Nat} {s : System ι} {a : ι → Stage} {recs : String → Prop} {t' : JobTable}

theorem fresh_state (hfresh : s.Fresh t') (hnone : s.table.stateOf id = none)
    (hnew : t'.stateOf id ≠ none) : id ∉ s.used := by
  intro hused
  have hmem : id ∈ t'.list.map Job.id := by
    by_contra hmem
    exact hnew (t'.stateOf_eq_none.2 hmem)
  obtain ⟨j, hj, rfl⟩ := List.mem_map.1 hmem
  exact s.table.stateOf_eq_none.1 hnone (hfresh j hj hused)

theorem mem_withTable_used (h : t'.stateOf id ≠ none) : id ∈ (s.withTable t').used := by
  refine List.mem_append_left _ ?_
  by_contra hmem
  exact h (t'.stateOf_eq_none.2 hmem)

variable {i : ι}

theorem Course.down (h : Course life s a recs) (hi : life i = s.life) (hboot : a i = .booting) :
    s.serving = false := by
  by_contra hne
  exact h.booted (by simpa using hne) i hi hboot

theorem Course.holds_booting (h : Course life s a recs) {j : ι} (hi : life i = s.life)
    (hboot : a i = .booting) (hj : life j = s.life) : (a j).holds ≠ some id := by
  rcases h.waits (h.down hi hboot) j hj with hidle | hidle <;> simp [hidle, Stage.holds]

theorem early_of_down {op : Op} (hserving : op.early = false → s.serving = true) (hdown : s.serving = false) :
    op.early = true := by
  by_contra hne
  exact absurd (hdown.symm.trans (hserving (by simpa using hne))) nofun

theorem Course.update_later [DecidableEq ι] (h : Course life s a recs) (hi : life i = s.life) (b : Stage) {j : ι}
    (hj : s.life < life j) : update a i b j = .idle := by
  rw [update_of_ne (by rintro rfl; exact absurd hi (Nat.ne_of_gt hj))]
  exact h.later j hj

section Store

variable {op : Op} {r : op.Ans} {i : ι} {b : Stage}

theorem Course.still_runs (h : Course life s a recs) (hi : life i = s.life)
    (hop : jobStore s.table op r t') (hturn : Turn s.table op (a i) b t') {j : ι}
    (hj : life j = s.life) (hholds : (a j).holds = some id) (hother : j ≠ i ∨ b = a i) :
    t'.stateOf id = some .running := by
  have hruns := h.runs j id hj hholds
  rcases jobStore_state hop id with hsame | halters
  · exact hsame.trans hruns
  rw [hruns] at halters
  rcases alters_from_running halters with hearly | ⟨state, msg, hfinish, -⟩
  · exact absurd hholds (h.holds_booting hi (hturn.early hearly).1 hj)
  · obtain ⟨hheld, hidle⟩ := hturn.finishes id (by rw [hfinish]; rfl)
    rcases hother with hne | hsame
    · exact absurd (h.alone j i id hj hi hholds hheld) hne
    · rw [← hsame, hidle] at hheld
      cases hheld

theorem Course.still_pending (h : Course life s a recs) (hop : jobStore s.table op r t')
    (hfresh : s.Fresh t') (hid : recs id) : t'.stateOf id ≠ some .queued ∧ t'.stateOf id ≠ some .running := by
  obtain ⟨hqueued, hrunning⟩ := h.pending id hid
  rcases jobStore_state hop id with hsame | halters
  · rw [hsame]
    exact ⟨hqueued, hrunning⟩
  constructor
  · intro hnew
    rw [hnew] at halters
    exact fresh_state hfresh (alters_to_queued halters) (by rw [hnew]; nofun) (h.known id hid)
  · intro hnew
    rw [hnew] at halters
    rcases (alters_to_running halters).1 with hnone | hold
    · exact fresh_state hfresh hnone (by rw [hnew]; nofun) (h.known id hid)
    · exact hqueued hold

variable [DecidableEq ι]

theorem Course.store (h : Course life s a recs) (hi : life i = s.life)
    (hserving : op.early = false → s.serving = true) (hop : jobStore s.table op r t') (hfresh : s.Fresh t')
    (hturn : Turn s.table op (a i) b t') : Course life (s.withTable t') (update a i b) recs where
  later _ hj := h.update_later hi b hj
  waits hdown j hj := by
    have hearly := early_of_down hserving hdown
    by_cases hji : j = i
    · subst hji
      rw [update_self, (hturn.early hearly).2]
      exact h.waits hdown j hj
    · rw [update_of_ne hji]
      exact h.waits hdown j hj
  empty := h.empty
  booted hup j hj hboot := by
    rcases update_cases hboot with ⟨rfl, hb⟩ | ⟨-, hb⟩
    · exact h.booted hup j hj (hturn.booting hb ▸ hb)
    · exact h.booted hup j hj hb
  sole j k hj hk hboot hboot' := by
    have hold : ∀ j, update a i b j = .booting → a j = .booting := by
      intro j hboot
      rcases update_cases hboot with ⟨rfl, hb⟩ | ⟨-, hb⟩
      · exact hturn.booting hb ▸ hb
      · exact hb
    exact h.sole j k hj hk (hold j hboot) (hold k hboot')
  runs j id hj hholds := by
    by_cases hji : j = i
    · subst hji
      rw [update_self] at hholds
      rcases hturn.holds id hholds with hsame | ⟨-, hnew⟩
      · exact h.still_runs hi hop hturn hj (hsame ▸ hholds) (.inr hsame)
      · exact hnew
    · rw [update_of_ne hji] at hholds
      exact h.still_runs hi hop hturn hj hholds (.inl hji)
  alone j k id hj hk hholds hholds' := by
    -- a job that the thread has just come to hold was not running, so nobody else holds it
    have hnew : ∀ k, life k = s.life → k ≠ i → b.holds = some id → (a k).holds = some id → i = k := by
      intro k hk hki hb hak
      rcases hturn.holds id hb with hsame | ⟨hnot, -⟩
      · exact h.alone i k id hi hk (hsame ▸ hb) hak
      · exact absurd (h.runs k id hk hak) hnot
    by_cases hji : j = i <;> by_cases hki : k = i
    · rw [hji, hki]
    · subst hji
      rw [update_self] at hholds
      rw [update_of_ne hki] at hholds'
      exact hnew k hk hki hholds hholds'
    · subst hki
      rw [update_self] at hholds'
      rw [update_of_ne hji] at hholds
      exact (hnew j hj hji hholds' hholds).symm
    · rw [update_of_ne hji] at hholds
      rw [update_of_ne hki] at hholds'
      exact h.alone j k id hj hk hholds hholds'
  pending id hid := h.still_pending hop hfresh hid
  others hup id hrec := by
    rcases jobStore_state hop id with hsame | halters
    · exact h.others hup id (hsame ▸ hrec)
    · rw [show t'.stateOf id = _ from hrec] at halters
      obtain ⟨-, hearly⟩ := alters_to_reconciling halters
      exact absurd (hturn.early hearly).1 (h.booted hup i hi)
  known id hid := List.mem_append_right _ (h.known id hid)
  taken j id hj hrec := by
    by_cases hji : j = i
    · subst hji
      rw [update_self] at hrec
      by_cases hsame : b = a j
      · exact h.taken j id hj (hsame ▸ hrec)
      · have hlate : op.early = false := by
          by_contra hne
          exact hsame (hturn.early (by simpa using hne)).2
        exact h.others (hserving hlate) id ((hturn.recovers id hrec).resolve_left hsame)
    · rw [update_of_ne hji] at hrec
      exact h.taken j id hj hrec
  launched := h.launched
  seen j id hj hsaw hid := by
    rcases update_cases hsaw with ⟨rfl, hb⟩ | ⟨-, hb⟩
    · rcases hturn.saw id hb with hsame | hqueued | hrunning
      · exact h.seen j id hj (hsame ▸ hb) hid
      · exact (h.pending id hid).1 hqueued
      · exact (h.pending id hid).2 hrunning
    · exact h.seen j id hj hb hid
  entered id j hin := by
    obtain ⟨hj, henter⟩ := h.entered id j hin
    refine ⟨hj, ?_⟩
    by_cases hji : j = i
    · subst hji
      rw [update_self, hturn.entered id henter]
      exact henter
    · rw [update_of_ne hji]
      exact henter
  ids id hid := mem_withTable_used hid

end Store

variable [DecidableEq ι]

theorem Course.remember {s' : System ι} (h : Course life s a recs) (hi : life i = s.life)
    (hserving : s.serving = true) (htable : s'.table = s.table) (hused : s'.used = s.used)
    (hlife : s'.life = s.life) (hserving' : s'.serving = s.serving) (hboot : b ≠ .booting)
    (hholds : ∀ id, b.holds = some id → (a i).holds = some id) (hrec : ∀ id, b.Recovers id → recs id)
    (hsaw : ∀ id, b = .saw id → a i = .saw id) (hlaunched : ∀ job ∈ s'.launched, recs job.id)
    (hinflight : ∀ id j, s'.inflight id = some j → (j = i ∧ b.Entered id) ∨ (j ≠ i ∧ s.inflight id = some j)) :
    Course life s' (update a i b) recs where
  later _ hj := h.update_later hi b (hlife ▸ hj)
  waits hdown := absurd (hserving.symm.trans (hserving'.symm.trans hdown)) nofun
  empty hdown := absurd (hserving.symm.trans (hserving'.symm.trans hdown)) nofun
  booted _ j hj hb := by
    rcases update_cases hb with ⟨-, hb⟩ | ⟨-, hb⟩
    · exact hboot hb
    · exact h.booted hserving j (hlife ▸ hj) hb
  sole j _ hj _ hb _ := by
    rcases update_cases hb with ⟨-, hb⟩ | ⟨-, hb⟩
    · exact absurd hb hboot
    · exact absurd hb (h.booted hserving j (hlife ▸ hj))
  runs j id hj hid := by
    rw [htable]
    by_cases hji : j = i
    · subst hji
      rw [update_self] at hid
      exact h.runs j id hi (hholds id hid)
    · rw [update_of_ne hji] at hid
      exact h.runs j id (hlife ▸ hj) hid
  alone j k id hj hk hid hid' := by
    have hold : ∀ j, (update a i b j).holds = some id → (a j).holds = some id := by
      intro j hid
      by_cases hji : j = i
      · subst hji
        rw [update_self] at hid
        exact hholds id hid
      · rwa [update_of_ne hji] at hid
    exact h.alone j k id (hlife ▸ hj) (hlife ▸ hk) (hold j hid) (hold k hid')
  pending id hid := htable ▸ h.pending id hid
  others _ id hstate := h.others hserving id (htable ▸ hstate)
  known id hid := hused ▸ h.known id hid
  taken j id hj hid := by
    by_cases hji : j = i
    · subst hji
      rw [update_self] at hid
      exact hrec id hid
    · rw [update_of_ne hji] at hid
      exact h.taken j id (hlife ▸ hj) hid
  launched := hlaunched
  seen j id hj hs := by
    rcases update_cases hs with ⟨rfl, hb⟩ | ⟨-, hb⟩
    · exact h.seen j id hi (hsaw id hb)
    · exact h.seen j id (hlife ▸ hj) hb
  entered id j hin := by
    rcases hinflight id j hin with ⟨rfl, hb⟩ | ⟨hji, hold⟩
    · rw [update_self, hlife]
      exact ⟨hi, hb⟩
    · rw [update_of_ne hji, hlife]
      exact h.entered id j hold
  ids id hid := by
    rw [htable] at hid
    exact hused ▸ h.ids id hid

theorem Course.boot (h : Course life s a recs) (hi : life i = s.life + 1) :
    Course life s.boot (update a i .booting) fun _ => False := by
  have hstage : ∀ j, life j = s.life + 1 → update a i .booting j = .idle ∨
      (j = i ∧ update a i .booting j = .booting) := by
    intro j hj
    by_cases hji : j = i
    · subst hji
      exact .inr ⟨rfl, update_self j _ _⟩
    · rw [update_of_ne hji]
      exact .inl (h.later j (by omega))
  have hidle : ∀ j id, life j = s.life + 1 → (update a i .booting j).Unburdened id := by
    intro j id hj
    rcases hstage j hj with hb | ⟨-, hb⟩ <;> rw [hb] <;> exact ⟨nofun, nofun, nofun⟩
  exact {
    later := fun j hj => by
      have hj : s.life + 1 < life j := hj
      rw [update_of_ne (by rintro rfl; omega)]
      exact h.later j (by omega)
    waits := fun _ j hj => (hstage j hj).imp_right And.right
    empty := fun _ => rfl
    booted := nofun
    sole := fun j k hj hk hb hb' => by
      rcases hstage j hj with hj | ⟨rfl, -⟩
      · rw [hj] at hb
        cases hb
      · rcases hstage k hk with hk | ⟨rfl, -⟩
        · rw [hk] at hb'
          cases hb'
        · rfl
    runs := fun j id hj hid => absurd hid (hidle j id hj).1
    alone := fun j _ id hj _ hid _ => absurd hid (hidle j id hj).1
    pending := nofun
    others := nofun
    known := nofun
    taken := fun j id hj hid => absurd hid (hidle j id hj).2.1
    launched := nofun
    seen := fun j id hj hid => absurd hid (hidle j id hj).2.2
    entered := nofun
    ids := h.ids }

/-- `Start` returns: the jobs that are reconciling now are those the sweeps will ever see. -/
theorem Course.ready (h : Course life s a recs) (hi : life i = s.life) (hboot : a i = .booting) :
    Course life { s with serving := true } (update a i .idle)
      fun id => s.table.stateOf id = some .reconciling := by
  have hdown := h.down hi hboot
  have hstage : ∀ j, life j = s.life → update a i .idle j = .idle := by
    intro j hj
    by_cases hji : j = i
    · subst hji
      exact update_self j _ _
    · rw [update_of_ne hji]
      exact (h.waits hdown j hj).resolve_right fun hb => hji (h.sole j i hj hi hb hboot)
  have hidle : ∀ j id, life j = s.life → (update a i .idle j).Unburdened id := by
    intro j id hj
    rw [hstage j hj]
    exact ⟨nofun, nofun, nofun⟩
  exact {
    later := fun _ hj => h.update_later hi _ hj
    waits := nofun
    empty := nofun
    booted := fun _ j hj => by
      rw [hstage j hj]
      nofun
    sole := fun j _ hj _ hb _ => by
      rw [hstage j hj] at hb
      cases hb
    runs := fun j id hj hid => absurd hid (hidle j id hj).1
    alone := fun j _ id hj _ hid _ => absurd hid (hidle j id hj).1
    pending := fun id hid => by
      constructor <;> rw [hid] <;> nofun
    others := fun _ _ hid => hid
    known := fun id hid => h.ids id (by rw [hid]; nofun)
    taken := fun j id hj hid => absurd hid (hidle j id hj).2.1
    launched := fun job hjob => by
      rw [show s.launched = [] from h.empty hdown] at hjob
      cases hjob
    seen := fun j id hj hid => absurd hid (hidle j id hj).2.2
    entered := fun id j hin => by
      obtain ⟨hj, henter⟩ := h.entered id j hin
      rcases h.waits hdown j hj with hb | hb <;> rw [hb] at henter <;> rcases henter with henter | henter <;>
        cases henter
    ids := h.ids }

end Course

/-! ## Every call of the job store is a turn -/

section Turn

variable {t t' : JobTable} {op : Op} {a : Stage}

theorem turn_same (hearly : op.early = false ∨ a = .booting) (hfinish : op.finished = none) : Turn t op a a t' where
  early h := ⟨hearly.resolve_left fun hlate => absurd (hlate.symm.trans h) nofun, rfl⟩
  finishes _ h := absurd (hfinish.symm.trans h) nofun
  holds _ _ := .inl rfl
  recovers _ _ := .inl rfl
  saw _ _ := .inl rfl
  booting _ := rfl
  entered _ _ := rfl
  keeps _ _ := .inl rfl

theorem turn_holds (hearly : op.early = false) (hfinish : op.finished = none)
    (ha : a = .idle) (hb : b = .claimed id ∨ b = .child id) (hbefore : t.stateOf id ≠ some .running)
    (hafter : t'.stateOf id = some .running) : Turn t op a b t' where
  early h := absurd (hearly.symm.trans h) nofun
  finishes _ h := absurd (hfinish.symm.trans h) nofun
  holds id' hid := by
    obtain rfl : id = id' := by
      rcases hb with rfl | rfl <;> exact Option.some.inj hid
    exact .inr ⟨hbefore, hafter⟩
  recovers id' hrec := by rcases hb with rfl | rfl <;> cases hrec
  saw id' hsaw := by rcases hb with rfl | rfl <;> cases hsaw
  booting hboot := by rcases hb with rfl | rfl <;> cases hboot
  entered _ h := by
    subst ha
    rcases h with h | h <;> cases h
  keeps _ h := by
    subst ha
    cases h

theorem turn_learns (hearly : op.early = false) (hfinish : op.finished = none) (hb : b.holds = none)
    (hboot : b ≠ .booting) (hrec : ∀ id, b.Recovers id → b = a ∨ t.stateOf id = some .reconciling)
    (hsaw : ∀ id, b = .saw id → b = a ∨ t.stateOf id = some .queued ∨ t.stateOf id = some .running)
    (ha : a.holds = none) (hentered : ∀ id, ¬a.Entered id) : Turn t op a b t' where
  early h := absurd (hearly.symm.trans h) nofun
  finishes _ h := absurd (hfinish.symm.trans h) nofun
  holds _ hid := absurd (hb.symm.trans hid) nofun
  recovers := hrec
  saw := hsaw
  booting h := absurd h hboot
  entered id h := absurd h (hentered id)
  keeps _ hid := absurd (ha.symm.trans hid) nofun

theorem turn_listing {f : JobFilter} {jobs : List Job} (hr : jobStore t (.listJobs f) (.ok jobs) t') :
    Turn t (.listJobs f) a (a.listing jobs) t' := by
  have hlists : ∀ ids id, (Stage.lists ids).Recovers id → ids = (jobs.filter (·.state == .reconciling)).map Job.id →
      t.stateOf id = some .reconciling := by
    rintro _ id hid rfl
    obtain ⟨j, hj, rfl⟩ := List.mem_map.1 hid
    obtain ⟨hj, hstate⟩ := List.mem_filter.1 hj
    rw [t.stateOf_of_mem (listJobs_answer hr j hj).1, beq_state hstate]
  cases a with
  | idle | lists ids =>
    exact turn_learns rfl rfl rfl nofun (fun id hid => .inr (hlists _ id hid rfl)) nofun rfl
      (Stage.not_entered nofun nofun)
  | _ => exact turn_same (.inl rfl) rfl

theorem turn_looking {j : Job} (hr : jobStore t (.getJob id) (.ok j) t') :
    Turn t (.getJob id) a (a.looking id j.state) t' := by
  cases a with
  | idle =>
    unfold Stage.looking
    dsimp only
    split
    · rename_i hstate
      refine turn_learns rfl rfl rfl nofun nofun (fun _ hid => .inr ?_) rfl (Stage.not_entered nofun nofun)
      cases hid
      rw [getJob_answer hr]
      simpa using hstate
    · exact turn_same (.inl rfl) rfl
  | _ => exact turn_same (.inl rfl) rfl

theorem turn_of_allowed {r : op.Ans} (hmem : op.memory = false) (hallowed : Allowed a op)
    (hr : jobStore t op r t') : Turn t op a (a.after op r) t' := by
  cases op with
  | claim scope =>
    cases r with
    | error e => exact turn_same (.inl rfl) rfl
    | ok job =>
      cases job with
      | none => exact turn_same (.inl rfl) rfl
      | some job =>
        obtain ⟨hqueued, hrunning⟩ := claim_answer hr
        exact turn_holds rfl rfl hallowed (.inl rfl) (by rw [hqueued]; nofun) hrunning
  | startChild kind args parentID =>
    cases r with
    | error e => exact turn_same (.inl rfl) rfl
    | ok job =>
      obtain ⟨hnone, hrunning⟩ := startChild_answer hr
      exact turn_holds rfl rfl hallowed (.inr rfl) (by rw [hnone]; nofun) hrunning
  | finish id state msg =>
    have hheld : a.holds = some id ∧ ∀ id', ¬a.Entered id' := by
      rcases hallowed with rfl | rfl | ⟨canceled, rfl, -⟩ <;>
        exact ⟨rfl, Stage.not_entered nofun nofun⟩
    exact {
      early := nofun
      finishes := fun id' h => ⟨hheld.1.trans h, rfl⟩
      holds := nofun
      recovers := fun _ h => False.elim h
      saw := nofun
      booting := nofun
      entered := fun id' h => absurd h (hheld.2 id')
      keeps := fun id' h => .inr (hheld.1.symm.trans h) }
  | listJobs f =>
    cases r with
    | error e => exact turn_same (.inl rfl) rfl
    | ok jobs => exact turn_listing hr
  | getJob id =>
    cases r with
    | error e => exact turn_same (.inl rfl) rfl
    | ok job => exact turn_looking hr
  | cancelQueued id | cancelReconciling id =>
    rcases r with e | granted | granted
    · exact turn_same (.inl rfl) rfl
    · exact turn_same (.inl rfl) rfl
    · exact turn_learns rfl rfl rfl nofun (fun _ h => False.elim h) nofun hallowed.1 hallowed.2.2
  | markReconciling | failRunning => exact turn_same (.inr hallowed) rfl
  | boot | ready | enter _ | leave _ | cancel _ | launch _ | started | reconcile _ | ended | join => cases hmem
  | _ => exact turn_same (.inl rfl) rfl

end Turn

/-! ## Cancellations that were granted -/

section Granted

variable {ι : Type}

/-- The ids whose cancellation a call has granted. -/
def grants (log : List String) (e : ι × Event jobCalls) : List String :=
  match e.2 with
  | ⟨.cancel id, true⟩ => id :: log
  | ⟨.cancelQueued id, .ok true⟩ => id :: log
  | ⟨.cancelReconciling id, .ok true⟩ => id :: log
  | _ => log

/-- A thread has this job in hand and knows, or is going to find out, that it was canceled. -/
def Doomed (s : System ι) (i : ι) (a : Stage) (id : String) : Prop :=
  (a = .inside id ∧ s.canceled i = true) ∨ a = .left id true

/-- What has become of a job whose cancellation was granted. -/
def Spent (life : ι → Nat) (s : System ι) (a : ι → Stage) (id : String) : Prop :=
  s.table.stateOf id = none ∨ s.table.stateOf id = some .canceled ∨
    (s.table.stateOf id = some .running ∧ ∀ i, life i = s.life → (a i).holds = some id → Doomed s i (a i) id)

/-- Where no daemon was started too early, the granted cancellations are kept. -/
structure Sealed (life : ι → Nat) (s : System ι) (a : ι → Stage) (log : List String) : Prop where
  used : ∀ id ∈ log, id ∈ s.used
  spent : ∀ id ∈ log, Spent life s a id
  down : s.serving = false → ∀ id ∈ log, s.table.stateOf id ≠ some .running
  granted : ∀ i id, a i = .granted id → id ∈ log

/-- The condition: no daemon is started while a job whose cancellation was granted still runs. -/
def Unhurried (_ : ι) (s : System ι × List String) (op : Op) : Prop :=
  op = .boot → ∀ id ∈ s.2, s.1.table.stateOf id ≠ some .running

variable {life : ι → Nat} {s s' : System ι} {a : ι → Stage} {recs : String → Prop} {log log' : List String}
  {t' : JobTable} {op : Op} {r : op.Ans} {i : ι} {b : Stage}

theorem finish_doomed (hdoomed : Doomed s i b id) (hallowed : Allowed b op)
    (hfinish : op.finished = some id) : ∃ msg, op = .finish id .canceled msg := by
  cases op with
  | finish id' state msg =>
    refine ⟨msg, ?_⟩
    rcases hdoomed with ⟨rfl, -⟩ | rfl
    · rcases hallowed with h | h | ⟨canceled, h, -⟩ <;> cases h
    · rcases hallowed with h | h | ⟨canceled, h, hstate⟩
      · cases h
      · cases h
      · cases h
        rw [hstate rfl]
  | _ => cases hfinish

theorem mem_grants (h : id ∈ log) (e : ι × Event jobCalls) : id ∈ grants log e := by
  unfold grants
  split <;> first | exact h | exact List.mem_cons_of_mem _ h

theorem not_doomed {c : Stage} (hin : ∀ id, c ≠ .inside id) (hleft : ∀ id, c ≠ .left id true) :
    ¬Doomed s i c id := by
  rintro (⟨h, -⟩ | h)
  · exact hin id h
  · exact hleft id h

theorem grants_store (hmem : op.memory = false) (hop : jobStore s.table op r t')
    (hid : id ∈ grants log (i, ⟨op, r⟩)) : id ∈ log ∨ t'.stateOf id = some .canceled := by
  cases op with
  | cancelQueued id' | cancelReconciling id' =>
    rcases r with e | granted | granted
    · exact .inl hid
    · exact .inl hid
    · rcases List.mem_cons.1 hid with rfl | hold
      · exact .inr (by first | exact (cancelQueued_answer hop).2 | exact (cancelReconciling_answer hop).2)
      · exact .inl hold
  | cancel id' => cases hmem
  | _ => exact .inl hid

theorem granted_after {c : Stage} (hmem : op.memory = false)
    (h : c.after op r = .granted id) : c.after op r = c ∨ id ∈ grants log (i, ⟨op, r⟩) := by
  cases op with
  | cancelQueued id' | cancelReconciling id' =>
    rcases r with e | granted | granted
    · exact .inl rfl
    · exact .inl rfl
    · cases h
      exact .inr List.mem_cons_self
  | claim scope =>
    rcases r with e | job | job
    · exact .inl rfl
    · exact .inl rfl
    · cases h
  | startChild kind args parentID =>
    rcases r with e | job
    · exact .inl rfl
    · cases h
  | finish id' state msg => cases h
  | listJobs f =>
    rcases r with e | jobs
    · exact .inl rfl
    · cases c with
      | idle | lists => cases h
      | _ => exact .inl rfl
  | getJob id' =>
    rcases r with e | job
    · exact .inl rfl
    · cases c with
      | idle =>
        unfold Stage.after Stage.looking at h
        dsimp only at h
        split at h <;> cases h
      | _ => exact .inl rfl
  | boot | ready | enter _ | leave _ | cancel _ | launch _ | started | reconcile _ | ended | join => cases hmem
  | _ => exact .inl rfl

theorem answered_of_store (hop : jobStore s.table op r t') : Answered op r := by
  cases op with
  | listJobs f =>
    rcases r with e | jobs
    · trivial
    · exact fun j hj => (listJobs_answer hop j hj).2
  | _ => trivial

variable [DecidableEq ι]

theorem Spent.store (h : Spent life s a id) (hused : id ∈ s.used)
    (hdown : s.serving = false → s.table.stateOf id ≠ some .running) (hcourse : Course life s a recs)
    (hi : life i = s.life) (hallowed : Allowed (a i) op) (hop : jobStore s.table op r t') (hfresh : s.Fresh t')
    (hturn : Turn s.table op (a i) b t') : Spent life (s.withTable t') (update a i b) id := by
  rcases h with hnone | hcanceled | ⟨hrunning, hholders⟩
  · refine .inl ?_
    by_contra hnew
    exact fresh_state hfresh hnone hnew hused
  · rcases jobStore_state hop id with hsame | halters
    · exact .inr (.inl (hsame.trans hcanceled))
    · rw [hcanceled] at halters
      rcases alters_from_final rfl halters with hnone | ⟨state, msg, rfl⟩
      · exact .inl hnone
      · have hruns := hcourse.runs i id hi (hturn.finishes id rfl).1
        rw [hcanceled] at hruns
        cases hruns
  · rcases jobStore_state hop id with hsame | halters
    · refine .inr (.inr ⟨hsame.trans hrunning, fun j hj hholds => ?_⟩)
      by_cases hji : j = i
      · subst hji
        rw [update_self] at hholds ⊢
        rcases hturn.holds id hholds with hb | ⟨hnot, -⟩
        · subst hb
          exact hholders j hj hholds
        · exact absurd hrunning hnot
      · rw [update_of_ne hji] at hholds ⊢
        exact hholders j hj hholds
    · rw [hrunning] at halters
      rcases alters_from_running halters with hearly | ⟨state, msg, hfinish, hstate⟩
      · exact absurd hrunning (hdown (hcourse.down hi (hturn.early hearly).1))
      · -- only the doomed thread can finish the job, and it does so as canceled
        have hfinished : op.finished = some id := by rw [hfinish]; rfl
        obtain ⟨msg', hop'⟩ := finish_doomed (hholders i hi (hturn.finishes id hfinished).1) hallowed hfinished
        rw [hop'] at hfinish
        cases hfinish
        exact .inr (.inl hstate)

theorem Sealed.store (h : Sealed life s a log) (hcourse : Course life s a recs) (hi : life i = s.life)
    (hserving : op.early = false → s.serving = true) (hallowed : Allowed (a i) op)
    (hop : jobStore s.table op r t') (hfresh : s.Fresh t') (hturn : Turn s.table op (a i) b t')
    (hlog : ∀ id ∈ log, id ∈ log') (hlog' : ∀ id ∈ log', id ∈ log ∨ t'.stateOf id = some .canceled)
    (hgranted : ∀ id, b = .granted id → b = a i ∨ id ∈ log') :
    Sealed life (s.withTable t') (update a i b) log' where
  used id hid := by
    rcases hlog' id hid with hold | hnew
    · exact List.mem_append_right _ (h.used id hold)
    · exact mem_withTable_used (by rw [hnew]; nofun)
  spent id hid := by
    rcases hlog' id hid with hold | hnew
    · exact (h.spent id hold).store (h.used id hold) (fun hd => h.down hd id hold) hcourse hi hallowed hop hfresh
        hturn
    · exact .inr (.inl hnew)
  down hdown id hid hrunning := by
    have hearly := early_of_down hserving hdown
    rcases hlog' id hid with hold | hnew
    · rcases jobStore_state hop id with hsame | halters
      · exact h.down hdown id hold (hsame ▸ hrunning)
      · rw [show t'.stateOf id = _ from hrunning] at halters
        exact absurd ((alters_to_running halters).2.symm.trans hearly) nofun
    · rw [show t'.stateOf id = _ from hrunning] at hnew
      cases hnew
  granted j id hj := by
    rcases update_cases hj with ⟨rfl, hb⟩ | ⟨-, hb⟩
    · rcases hgranted id hb with hsame | hnew
      · exact hlog id (h.granted j id (hsame ▸ hb))
      · exact hnew
    · exact hlog id (h.granted j id hb)

theorem Sealed.remember (h : Sealed life s a log) (htable : s'.table = s.table) (hused : s'.used = s.used)
    (hlife : s'.life = s.life) (hserving : s'.serving = true)
    (hflags : ∀ j, j ≠ i → s.canceled j = true → s'.canceled j = true)
    (hdoomed : ∀ id, b.holds = some id → (a i).holds = some id ∧ (Doomed s i (a i) id → Doomed s' i b id))
    (hlog : ∀ id ∈ log, id ∈ log')
    (hlog' : ∀ id ∈ log', id ∈ log ∨ (id ∈ s'.used ∧ Spent life s' (update a i b) id))
    (hgranted : ∀ id, b = .granted id → id ∈ log') : Sealed life s' (update a i b) log' where
  used id hid := by
    rcases hlog' id hid with hold | hnew
    · exact hused ▸ h.used id hold
    · exact hnew.1
  spent id hid := by
    rcases hlog' id hid with hold | hnew
    · unfold Spent
      rw [htable, hlife]
      refine (h.spent id hold).imp_right (Or.imp_right (And.imp_right fun hholders j hj hholds => ?_))
      by_cases hji : j = i
      · subst hji
        rw [update_self] at hholds ⊢
        obtain ⟨hold, hkeep⟩ := hdoomed id hholds
        exact hkeep (hholders j hj hold)
      · rw [update_of_ne hji] at hholds ⊢
        exact (hholders j hj hholds).imp_left (And.imp_right (hflags j hji))
    · exact hnew.2
  down hdown := absurd (hserving.symm.trans hdown) nofun
  granted j id hj := by
    rcases update_cases hj with ⟨-, hb⟩ | ⟨-, hb⟩
    · exact hgranted id hb
    · exact hlog id (h.granted j id hb)

theorem Sealed.boot (h : Sealed life s a log) (hcond : ∀ id ∈ log, s.table.stateOf id ≠ some .running) :
    Sealed life s.boot (update a i .booting) log where
  used := h.used
  spent id hid := by
    rcases h.spent id hid with hnone | hcanceled | ⟨hrunning, -⟩
    · exact .inl hnone
    · exact .inr (.inl hcanceled)
    · exact absurd hrunning (hcond id hid)
  down _ := hcond
  granted j id hj := by
    rcases update_cases hj with ⟨-, hb⟩ | ⟨-, hb⟩
    · cases hb
    · exact h.granted j id hb

/-! ## One call -/

/-- The course of the jobs; and, where `K` holds, of the granted cancellations. -/
def Lawful (K : Prop) (life : ι → Nat) (s : System ι) (log : List String) (a : ι → Stage) : Prop :=
  (∃ recs, Course life s a recs) ∧ (K → Sealed life s a log)

section

variable (h : Lawful K life s log a) (hi : life i = s.life) (hserving : s.serving = true)

include h hi hserving

theorem lawful_enter (hallowed : Allowed (a i) (.enter id)) :
    Lawful K life (s.enter i id) log (update a i ((a i).entering id)) := by
  obtain ⟨⟨recs, hcourse⟩, hsealed⟩ := h
  have hout : ∀ id', ¬(a i).Entered id' := by
    rcases hallowed with ha | ha <;> rw [ha] <;> exact Stage.not_entered nofun nofun
  have hinflight : ∀ id' j, (s.enter i id).inflight id' = some j →
      (j = i ∧ ((a i).entering id).Entered id') ∨ (j ≠ i ∧ s.inflight id' = some j) := by
    intro id' j hin
    rcases update_cases hin with ⟨rfl, hj⟩ | ⟨-, hold⟩
    · obtain rfl := Option.some.inj hj
      refine .inl ⟨rfl, ?_⟩
      rcases hallowed with ha | ha <;> rw [ha]
      · exact .inl rfl
      · exact .inr rfl
    · refine .inr ⟨?_, hold⟩
      rintro rfl
      exact hout id' (hcourse.entered id' j hold).2
  refine ⟨⟨recs, ?_⟩, fun hK => ?_⟩
  · rcases hallowed with ha | ha <;> rw [ha] at hinflight ⊢
    · exact hcourse.remember hi hserving rfl rfl rfl rfl nofun (fun _ h => by rw [ha]; exact h) nofun nofun
        hcourse.launched hinflight
    · exact hcourse.remember hi hserving rfl rfl rfl rfl nofun nofun
        (fun id' hid => hcourse.taken i id' hi (by rw [ha]; exact hid)) nofun hcourse.launched hinflight
  · have hflags : ∀ j, j ≠ i → s.canceled j = true → (s.enter i id).canceled j = true := by
      intro j hji hj
      exact (update_of_ne hji _ _).trans hj
    refine (hsealed hK).remember rfl rfl rfl hserving hflags (fun id' hid => ?_) (fun _ h => h)
      (fun _ h => .inl h) fun id' hid => ?_
    · rcases hallowed with ha | ha <;> rw [ha] at hid ⊢
      · exact ⟨hid, fun hd => absurd hd (not_doomed nofun nofun)⟩
      · cases hid
    · rcases hallowed with ha | ha <;> rw [ha] at hid <;> cases hid

theorem lawful_leave (hallowed : Allowed (a i) (.leave id)) :
    Lawful K life (s.leave id) log (update a i ((a i).leaving id (s.canceled i))) := by
  obtain ⟨⟨recs, hcourse⟩, hsealed⟩ := h
  have hinflight : ∀ id' j, (s.leave id).inflight id' = some j →
      (j = i ∧ ((a i).leaving id (s.canceled i)).Entered id') ∨ (j ≠ i ∧ s.inflight id' = some j) := by
    intro id' j hin
    rcases update_cases hin with ⟨-, hj⟩ | ⟨hne, hold⟩
    · cases hj
    · refine .inr ⟨?_, hold⟩
      rintro rfl
      -- a thread has one job in the table
      rcases hallowed with ha | ha <;> rcases (hcourse.entered id' j hold).2 with ha' | ha' <;> rw [ha] at ha' <;>
        cases ha' <;> exact hne rfl
  refine ⟨⟨recs, ?_⟩, fun hK => ?_⟩
  · rcases hallowed with ha | ha <;> rw [ha] at hinflight ⊢
    · exact hcourse.remember hi hserving rfl rfl rfl rfl nofun (fun _ h => by rw [ha]; exact h) nofun nofun
        hcourse.launched hinflight
    · exact hcourse.remember hi hserving rfl rfl rfl rfl nofun nofun nofun nofun hcourse.launched hinflight
  · refine (hsealed hK).remember rfl rfl rfl hserving (fun _ _ h => h) (fun id' hid => ?_) (fun _ h => h)
      (fun _ h => .inl h) fun id' hid => ?_
    · rcases hallowed with ha | ha <;> rw [ha] at hid ⊢
      · refine ⟨hid, fun hd => ?_⟩
        rcases hd with ⟨heq, hflag⟩ | hd
        · cases heq
          exact .inr (by rw [hflag]; rfl)
        · cases hd
      · cases hid
    · rcases hallowed with ha | ha <;> rw [ha] at hid <;> cases hid

/-- `Cancel`: a job in flight that was seen running is in the hands of a worker. -/
theorem lawful_cancel {known : Bool} (hallowed : Allowed (a i) (.cancel id))
    (hr : (known, s') = s.cancel id) : Lawful K life s' (grants log (i, ⟨Op.cancel id, known⟩))
      (update a i ((a i).after (.cancel id) known)) := by
  obtain ⟨⟨recs, hcourse⟩, hsealed⟩ := h
  unfold System.cancel at hr
  split at hr
  · cases hr
    rw [show (a i).after (.cancel id) false = a i from rfl, update_eq_self]
    exact ⟨⟨recs, hcourse⟩, hsealed⟩
  · rename_i j hin
    cases hr
    obtain ⟨hj, hentered⟩ := hcourse.entered id j hin
    have hout : ∀ id', ¬(a i).Entered id' := by
      rcases hallowed with ha | ha <;> rw [ha] <;> exact Stage.not_entered nofun nofun
    refine ⟨⟨recs, ?_⟩, fun hK => ?_⟩
    · refine hcourse.remember hi hserving rfl rfl rfl rfl nofun nofun nofun nofun hcourse.launched
        fun id' k hin' => .inr ⟨?_, hin'⟩
      rintro rfl
      exact hout id' (hcourse.entered id' k hin').2
    · have hflags : ∀ k, k ≠ i → s.canceled k = true → update s.canceled j true k = true := by
        intro k _ hk
        by_cases hkj : k = j
        · rw [hkj, update_self]
        · rw [update_of_ne hkj, hk]
      refine (hsealed hK).remember rfl rfl rfl hserving hflags nofun (fun _ h => mem_grants h _)
        (fun id' hid => ?_) fun id' hid => ?_
      · rcases List.mem_cons.1 hid with rfl | hold
        · rcases hallowed with ha | ha
          · -- the entry is a worker's, since a job that was seen running is not up for reconciling
            have hinside : a j = .inside id' := by
              refine hentered.resolve_right fun hrec => ?_
              exact hcourse.seen i id' hi ha (hcourse.taken j id' hj (by rw [hrec]; exact rfl))
            have hruns := hcourse.runs j id' hj (by rw [hinside]; rfl)
            refine .inr ⟨hcourse.ids id' (by rw [hruns]; nofun), .inr (.inr ⟨hruns, fun k hk hholds => ?_⟩)⟩
            have hki : k ≠ i := by
              rintro rfl
              rw [update_self] at hholds
              cases hholds
            rw [update_of_ne hki] at hholds ⊢
            obtain rfl := hcourse.alone k j id' hk hj hholds (by rw [hinside]; rfl)
            exact .inl ⟨hinside, update_self _ _ _⟩
          · exact .inl ((hsealed hK).granted i id' ha)
        · exact .inl hold
      · cases hid
        exact List.mem_cons_self

theorem lawful_launches (htable : s'.table = s.table) (hused : s'.used = s.used)
    (hlife : s'.life = s.life) (hserving' : s'.serving = s.serving) (hinflight : s'.inflight = s.inflight)
    (hcanceled : s'.canceled = s.canceled)
    (hlaunched : ∀ job ∈ s'.launched, job ∈ s.launched ∨ (a i).Recovers job.id)
    (hb : b = a i ∨ (a i = .idle ∧ ∃ job ∈ s.launched, b = .takes job.id)) :
    Lawful K life s' log (update a i b) := by
  obtain ⟨⟨recs, hcourse⟩, hsealed⟩ := h
  have hlaunched' : ∀ job ∈ s'.launched, recs job.id := by
    intro job hjob
    rcases hlaunched job hjob with hold | hnew
    · exact hcourse.launched job hold
    · exact hcourse.taken i job.id hi hnew
  rcases hb with rfl | ⟨ha, job, hjob, rfl⟩
  · refine ⟨⟨recs, ?_⟩, fun hK => ?_⟩
    · refine hcourse.remember hi hserving htable hused hlife hserving' (hcourse.booted hserving i hi)
        (fun _ h => h) (fun id hid => hcourse.taken i id hi hid) (fun _ h => h) hlaunched' fun id j hin => ?_
      rw [hinflight] at hin
      by_cases hji : j = i
      · subst hji
        exact .inl ⟨rfl, (hcourse.entered id j hin).2⟩
      · exact .inr ⟨hji, hin⟩
    · refine (hsealed hK).remember htable hused hlife (hserving'.trans hserving) ?_ ?_ (fun _ h => h)
        (fun _ h => .inl h) fun id hid => (hsealed hK).granted i id hid
      · exact fun j _ hj => hcanceled ▸ hj
      · exact fun id hid => ⟨hid, Or.imp_left (And.imp_right fun hflag => hcanceled ▸ hflag)⟩
  · refine ⟨⟨recs, ?_⟩, fun hK => ?_⟩
    · refine hcourse.remember hi hserving htable hused hlife hserving' nofun nofun
        (fun id hid => ?_) nofun hlaunched' fun id j hin => ?_
      · obtain rfl : job.id = id := hid
        exact hcourse.launched job hjob
      · rw [hinflight] at hin
        refine .inr ⟨?_, hin⟩
        rintro rfl
        have henter := (hcourse.entered id j hin).2
        rw [ha] at henter
        rcases henter with henter | henter <;> cases henter
    · exact (hsealed hK).remember htable hused hlife (hserving'.trans hserving)
        (fun j _ hj => hcanceled ▸ hj) nofun (fun _ h => h) (fun _ h => .inl h) nofun

end

theorem system_store {workers : Nat} (hmem : op.memory = false) (h : system workers life i s op r s') :
    life i = s.life ∧ (op.early = false → s.serving = true) ∧
      ∃ t, jobStore s.table op r t ∧ s.Fresh t ∧ s' = s.withTable t := by
  cases op <;> first | exact h | cases hmem

theorem lawful_step {workers : Nat} (h : Lawful K life s log a) (hallowed : Allowed (a i) op)
    (hK : K → Unhurried i (s, log) op) (hr : system workers life i s op r s') :
    ∃ b, staged (a i) op r b ∧ Lawful K life s' (grants log (i, ⟨op, r⟩)) (update a i b) := by
  by_cases hmem : op.memory = false
  · obtain ⟨hi, hserving, t, hop, hfresh, rfl⟩ := system_store hmem hr
    have hturn := turn_of_allowed hmem hallowed hop
    obtain ⟨⟨recs, hcourse⟩, hsealed⟩ := h
    exact ⟨_, ⟨answered_of_store hop, rfl⟩, ⟨recs, hcourse.store hi hserving hop hfresh hturn⟩, fun hk =>
      (hsealed hk).store hcourse hi hserving hallowed hop hfresh hturn (fun _ hid => mem_grants hid _)
        (fun _ hid => grants_store hmem hop hid) fun _ hb => granted_after hmem hb⟩
  · refine ⟨(a i).after op r, ⟨?_, rfl⟩, ?_⟩
    · cases op <;> trivial
    cases op with
    | boot =>
      obtain ⟨hi, rfl⟩ := hr
      obtain ⟨⟨recs, hcourse⟩, hsealed⟩ := h
      exact ⟨⟨_, hcourse.boot hi⟩, fun hk => (hsealed hk).boot (hK hk rfl)⟩
    | ready =>
      obtain ⟨hi, rfl⟩ := hr
      obtain ⟨⟨recs, hcourse⟩, hsealed⟩ := h
      exact ⟨⟨_, hcourse.ready hi hallowed⟩, fun hk => (hsealed hk).remember rfl rfl rfl rfl (fun _ _ h => h)
        nofun (fun _ h => h) (fun _ h => .inl h) nofun⟩
    | enter id =>
      obtain ⟨hi, hserving, rfl⟩ := hr
      exact lawful_enter h hi hserving hallowed
    | leave id =>
      obtain ⟨hi, hserving, rfl, rfl⟩ := hr
      exact lawful_leave h hi hserving hallowed
    | cancel id =>
      obtain ⟨hi, hserving, hr⟩ := hr
      exact lawful_cancel h hi hserving hallowed hr
    | launch job =>
      cases r with
      | false =>
        obtain ⟨hi, hserving, rfl⟩ := hr
        exact lawful_launches h hi hserving rfl rfl rfl rfl rfl rfl (fun _ h => .inl h) (.inl rfl)
      | true =>
        obtain ⟨hi, hserving, -, rfl⟩ := hr
        refine lawful_launches h hi hserving rfl rfl rfl rfl rfl rfl (fun job' hjob => ?_) (.inl rfl)
        rcases List.mem_append.1 hjob with hold | hnew
        · exact .inl hold
        · rw [List.mem_singleton.1 hnew]
          exact .inr hallowed
    | started =>
      obtain ⟨hi, hserving, hjob, rfl⟩ := hr
      exact lawful_launches h hi hserving rfl rfl rfl rfl rfl rfl (fun _ h => .inl (List.mem_of_mem_erase h))
        (.inr ⟨hallowed, r, hjob, rfl⟩)
    | reconcile id | ended =>
      obtain ⟨hi, hserving, rfl⟩ := hr
      exact lawful_launches h hi hserving rfl rfl rfl rfl rfl rfl (fun _ h => .inl h) (.inl rfl)
    | join =>
      obtain ⟨hi, hserving, -, rfl⟩ := hr
      exact lawful_launches h hi hserving rfl rfl rfl rfl rfl rfl (fun _ h => .inl h) (.inl rfl)
    | _ => exact absurd rfl hmem

end Granted

/-! ## What each thread does -/

section Programs

variable {a : Stage} {α β : Type}

theorem staged_issue (op : Op) {Q : Stage → op.Ans → Prop} (hG : Allowed a op)
    (hQ : ∀ r, Answered op r → Q (a.after op r) r) : Staged Q (issue op) a :=
  ensures_perform hG fun r _ hr => hr.2 ▸ hQ r hr.1

theorem staged_then (op : Op) {k : op.Ans → Prog jobCalls β} {Q : Stage → β → Prop} (hG : Allowed a op)
    (hQ : ∀ r, Answered op r → Staged Q (k r) (a.after op r)) : Staged Q (issue op >>= k) a :=
  ensures_bind.2 (staged_issue op hG hQ)

theorem staged_ask (op : Op) {f : op.Ans → Work β} {Q : Stage → Except Error β → Prop} (hG : Allowed a op)
    (hQ : ∀ r, Answered op r → Staged Q (f r).run (a.after op r)) : Staged Q (ask op >>= f).run a :=
  ensures_ask_bind hG fun r _ hr => hr.2 ▸ hQ r hr.1

/-- A stage that looking around does not change. -/
def Stage.Engaged : Stage → Prop
  | inside _ | reconciles _ | child _ => True
  | _ => False

theorem Op.Quiet.allowed {op : Op} (h : op.Quiet) : Allowed a op := by
  cases op <;> trivial

theorem Op.Quiet.after {op : Op} (h : op.Quiet) (ha : a.Engaged) (r : op.Ans) : a.after op r = a := by
  cases op with
  | listJobs f =>
    rcases r with e | jobs
    · rfl
    · cases a <;> first | rfl | cases ha
  | getJob id =>
    rcases r with e | job
    · rfl
    · cases a <;> first | rfl | cases ha
  | _ => first | rfl | cases h

theorem quiet_ensures {p : Prog jobCalls α} (hp : p.Issues Op.Quiet) (ha : a.Engaged) :
    Staged (fun b _ => b = a) p a := by
  refine hp.ensures (I := (· = a)) ?_ (fun _ _ (hop : Op.Quiet _) _ => hop.allowed) rfl
  rintro _ op r _ hop rfl ⟨-, rfl⟩
  exact hop.after ha r

def Claimed (b : Stage) : Except Error (Option Job) → Prop
  | .ok (some job) => b = .claimed job.id
  | _ => b = .idle

theorem claim_staged (scope : ClaimScope) :
    Staged Claimed (Act.lift (issue (.claim scope)) : Work (Option Job)).run .idle := by
  refine staged_issue (.claim scope) rfl fun r _ => ?_
  rcases r with e | job | job <;> rfl

theorem claimEach_staged (kinds : List String) : Staged Claimed (claimEach kinds).run .idle := by
  induction kinds with
  | nil => exact ensures_ret.2 rfl
  | cons kind kinds ih =>
    refine (claim_staged (.matching [kind])).andThen (fun _ _ hb => hb) fun b job hb => ?_
    cases job with
    | none => exact hb ▸ ih
    | some job => exact staged_ask (.served kind) trivial fun _ _ => ensures_ret.2 hb

theorem runner_claim_staged (r : Runner) (kinds : Option (List String)) (exclude : Bool) :
    Staged Claimed (r.claim kinds exclude).run .idle := by
  unfold Runner.claim
  split
  · exact claim_staged _
  · split
    · exact claim_staged _
    · unfold Runner.claimRotating
      split
      · exact staged_ask (.rotation _) trivial fun order _ => claimEach_staged order
      · exact claim_staged _

abbrev Free (α : Type) (b : Stage) (_ : α) : Prop :=
  b = .idle

theorem finish_staged {state : JobState} (msg : String) (h : Allowed a (.finish id state msg)) :
    Staged (Free Unit) (finish id state msg) a :=
  staged_then (.finish id state msg) h fun _ _ => ensures_ret.2 rfl

theorem record_staged (job : Job) (canceled : Bool) (result : Except Error Unit) :
    Staged (Free Unit) (record job canceled result) (.left job.id canceled) := by
  unfold record
  split
  · exact finish_staged _ (.inr (.inr ⟨canceled, rfl, fun _ => rfl⟩))
  · rename_i hnot
    split
    · exact finish_staged _ (.inr (.inr ⟨canceled, rfl, fun h => absurd h hnot⟩))
    · exact finish_staged _ (.inr (.inr ⟨canceled, rfl, fun h => absurd h hnot⟩))

theorem run_staged (hr : r.Quiet) (job : Job) : Staged (Free Unit) (r.run job) (.claimed job.id) := by
  unfold Runner.run
  split
  · exact finish_staged _ (.inl rfl)
  · rename_i h hh
    refine staged_then (.enter job.id) (.inl rfl) fun _ _ => ?_
    refine (quiet_ensures (a := .inside job.id) (hr.handlers _ h hh job) trivial).bind ?_
    rintro _ result rfl
    exact staged_then (.leave job.id) (.inl rfl) fun canceled _ => record_staged job canceled result

theorem worker_staged (hr : r.Quiet) (kinds : Option (List String)) (exclude : Bool)
    (rounds : Nat) : Staged (Free Unit) (r.worker kinds exclude rounds) .idle := by
  induction rounds with
  | zero => exact ensures_ret.2 rfl
  | succ rounds ih =>
    refine staged_then .ctxErr trivial fun err _ => ?_
    cases err with
    | error e => exact ensures_ret.2 rfl
    | ok _ =>
      refine .bind (P := Free Unit) ?_ fun b _ hb => hb ▸ ih
      refine (runner_claim_staged r kinds exclude).bind ?_
      rintro b (e | job | job) hb
      · exact ensures_ret.2 hb
      · exact ensures_ret.2 hb
      · exact hb ▸ run_staged hr job

theorem start_staged (r : Runner) : Staged (Free Unit) r.start .idle := by
  refine staged_then .boot rfl fun _ _ => ?_
  refine .bind (P := fun b _ => b = .booting) ?_ ?_
  · refine staged_then (.markReconciling _) rfl fun _ _ => ?_
    exact staged_then (.failRunning _) rfl fun _ _ => ensures_ret.2 rfl
  · rintro b _ rfl
    exact staged_issue .ready rfl fun _ _ => rfl

theorem goroutine_staged (hr : r.Quiet) : Staged (fun _ _ => True) r.goroutine .idle := by
  refine staged_then .started rfl fun job _ => ?_
  split
  · exact ensures_ret.2 trivial
  · rename_i reconciler hrec
    refine .bind (P := Free Unit) ?_ fun b _ hb => ?_
    · refine staged_then (.enter job.id) (.inr rfl) fun _ _ => ?_
      refine staged_then (.reconcile job.id) trivial fun _ _ => ?_
      refine (quiet_ensures (a := .reconciles job.id) (hr.reconcilers _ reconciler hrec job) trivial).bind ?_
      rintro _ result rfl
      refine staged_then (.leave job.id) (.inr rfl) fun _ _ => ?_
      unfold Runner.settle
      split
      · exact staged_then (.resolveReconciling _ _ _) trivial fun _ _ => ensures_ret.2 rfl
      · exact ensures_ret.2 rfl
    · exact staged_issue .ended trivial fun _ _ => trivial

theorem sweepFilter_state {j : Job} (h : Runner.sweepFilter.accepts j = true) : j.state = .reconciling := by
  simp only [JobFilter.accepts, Bool.and_eq_true] at h
  exact (beq_iff_eq.1 h.1.1.1).symm

theorem launchEach_staged (r : Runner) {ids : List String} (jobs : List Job) (hjobs : ∀ j ∈ jobs, j.id ∈ ids) :
    Staged (fun b _ => b = .lists ids) (r.launchEach jobs) (.lists ids) := by
  induction jobs with
  | nil => exact staged_issue .join trivial fun _ _ => rfl
  | cons job jobs ih =>
    have ih := ih fun j hj => hjobs j (List.mem_cons_of_mem _ hj)
    unfold Runner.launchEach
    split
    · refine staged_then (.launch job) (hjobs job List.mem_cons_self) fun launched _ => ?_
      cases launched with
      | false => exact staged_issue .join trivial fun _ _ => rfl
      | true => exact ih
    · exact ih

theorem reconcileLoop_staged (r : Runner) (sweeps : Nat) (ha : a = .idle ∨ ∃ ids, a = .lists ids) :
    Staged (fun _ _ => True) (r.reconcileLoop sweeps) a := by
  induction sweeps generalizing a with
  | zero => exact ensures_ret.2 trivial
  | succ sweeps ih =>
    refine .bind (P := fun b _ => b = .idle ∨ ∃ ids, b = .lists ids) ?_ fun b _ hb => ih hb
    refine staged_then .ctxErr trivial fun err _ => ?_
    cases err with
    | error e => exact ensures_ret.2 ha
    | ok _ =>
      refine staged_then (.listJobs _) trivial fun listed hlisted => ?_
      cases listed with
      | error e => exact ensures_ret.2 ha
      | ok jobs =>
        have hafter : a.after (.listJobs Runner.sweepFilter) (.ok jobs) = .lists (jobs.map Job.id) := by
          have hall : jobs.filter (·.state == .reconciling) = jobs :=
            List.filter_eq_self.2 fun j hj => beq_iff_eq.2 (sweepFilter_state (hlisted j hj))
          rcases ha with rfl | ⟨ids, rfl⟩
          · exact congrArg (fun js => Stage.lists (js.map Job.id)) hall
          · exact congrArg (fun js => Stage.lists (js.map Job.id)) hall
        show Ensures _ _ _ (r.launchEach jobs) (a.after (.listJobs Runner.sweepFilter) (.ok jobs))
        rw [hafter]
        exact (launchEach_staged r jobs fun j hj => List.mem_map_of_mem hj).imp fun b _ hb => .inr ⟨_, hb⟩

theorem writeCancelConflict_staged (id : String) :
    Staged (fun _ reply => ∀ job, reply ≠ .accepted job) (writeCancelConflict id) a := by
  refine staged_then (.getJob id) trivial fun found _ => ?_
  cases found with
  | error e => exact ensures_ret.2 nofun
  | ok job =>
    dsimp only
    split
    · exact ensures_ret.2 nofun
    · exact ensures_ret.2 nofun

def Accepts (id : String) (b : Stage) (reply : CancelReply) : Prop :=
  ∀ job, reply = .accepted job → b = .granted id

theorem writeAcceptedJob_staged (id : String) : Staged (Accepts id) (writeAcceptedJob id) (.granted id) := by
  refine staged_then (.getJob id) trivial fun found _ => ?_
  cases found with
  | error e => exact ensures_ret.2 nofun
  | ok job => exact ensures_ret.2 fun _ _ => rfl

theorem conflict_accepts (id : String) : Staged (Accepts id) (writeCancelConflict id) a :=
  (writeCancelConflict_staged id).imp fun _ _ hnot job hjob => absurd hjob (hnot job)

theorem cancelInflight_staged (id : String) : Staged (Accepts id) (cancelInflight id) (.saw id) := by
  refine staged_then (.cancel id) (.inl rfl) fun known _ => ?_
  cases known with
  | false => exact conflict_accepts id
  | true => exact writeAcceptedJob_staged id

theorem cancelJob_staged (id : String) : Staged (Accepts id) (cancelJob id) .idle := by
  have hfree : ∀ b : Stage, b = .idle ∨ b = .saw id → b.holds = none ∧ b ≠ .booting ∧ ∀ id, ¬b.Entered id := by
    rintro b (rfl | rfl) <;> exact ⟨rfl, nofun, Stage.not_entered nofun nofun⟩
  refine staged_then (.getJob id) trivial fun found _ => ?_
  cases found with
  | error e => exact ensures_ret.2 nofun
  | ok job =>
    show Staged _ _ (Stage.looking id job.state .idle)
    dsimp only
    cases hstate : job.state with
    | succeeded | failed | canceled => exact ensures_ret.2 nofun
    | running => exact cancelInflight_staged id
    | reconciling =>
      refine staged_then (.cancelReconciling id) (hfree _ (.inl rfl)) fun granted _ => ?_
      rcases granted with e | granted | granted
      · exact ensures_ret.2 nofun
      · exact conflict_accepts id
      · refine staged_then (.cancel id) (.inr rfl) fun known _ => ?_
        cases known <;> exact writeAcceptedJob_staged id
    | queued =>
      refine staged_then (.cancelQueued id) (hfree _ (.inr rfl)) fun granted _ => ?_
      rcases granted with e | granted | granted
      · exact ensures_ret.2 nofun
      · exact cancelInflight_staged id
      · exact writeAcceptedJob_staged id

theorem runChild_staged (args : Except Error String) (parentID : String) {mig : String → Work Unit}
    (hmig : ∀ id, (mig id).run.Issues Op.Quiet) :
    Staged (fun _ _ => True) (runChild args parentID mig).run .idle := by
  cases args with
  | error e => exact ensures_ret.2 trivial
  | ok args =>
    refine .andThen (P := fun b r => ∀ job, r = .ok job → b = .child job.id)
      (ensures_mapErr.2 (staged_issue (.startChild "migrate" args parentID) rfl fun r _ => ?_))
      (fun _ _ _ => trivial) fun b job hb => ?_
    · rcases r with e | job
      · exact nofun
      · rintro _ ⟨⟩
        rfl
    obtain rfl := hb job rfl
    refine (quiet_ensures (a := .child job.id) (hmig job.id) trivial).attemptThen ?_
    rintro _ (e | u) rfl
    · exact staged_ask (.finish job.id (childState e) (Error.string e)) (.inr (.inl rfl)) fun _ _ =>
        ensures_ret.2 trivial
    · exact ensures_mapErr.2 (staged_issue (.finish job.id .succeeded "") (.inr (.inl rfl)) fun _ _ => trivial)

theorem retention_staged (cutoffs : List Time) : Staged (fun _ _ => True) (retention cutoffs) a := by
  have hissues : (retention cutoffs).Issues (Γ := jobCalls) fun op => ∃ cutoff, op = Op.pruneJobs cutoff :=
    issues_foldlM_plain cutoffs (fun _ cutoff _ =>
      Prog.Issues.bind (issues_perform.2 ⟨cutoff, rfl⟩) fun _ => issues_ret _) ()
  refine hissues.ensures (I := fun _ => True) (fun _ _ _ _ _ _ _ => trivial) ?_ trivial
  rintro _ _ ⟨cutoff, rfl⟩ _
  trivial

/-- What every thread ensures by itself: it keeps to its stage, and accepts only what was granted. -/
theorem program_staged (hr : r.Quiet) {role : Role} (hrole : role.Quiet) :
    Staged (fun b out => ∀ id job, role = .cancelJob id → out = some (.accepted job) →
      b = .granted id) (role.program r) .idle := by
  cases role with
  | start => exact (start_staged r).map fun _ _ _ => nofun
  | worker kinds exclude rounds =>
    exact (worker_staged hr kinds exclude rounds).map fun _ _ _ => nofun
  | reconcileLoop sweeps =>
    exact (reconcileLoop_staged r sweeps (.inl rfl)).map fun _ _ _ => nofun
  | goroutine => exact (goroutine_staged hr).map fun _ _ _ => nofun
  | retention cutoffs => exact (retention_staged cutoffs).map fun _ _ _ => nofun
  | cancelJob id =>
    refine (cancelJob_staged id).map fun b reply hreply => ?_
    intro id' job hid hjob
    cases hid
    exact hreply job (Option.some.inj hjob)
  | runChild args parentID mig =>
    exact (runChild_staged args parentID hrole).map fun _ _ _ => nofun
  | other p =>
    have hp : Staged (fun _ _ => True) p .idle :=
      Prog.Issues.ensures (I := fun _ => True) hrole (fun _ _ _ _ _ _ _ => trivial)
        (fun _ _ hop _ => Op.Quiet.allowed hop) trivial
    exact hp.map fun _ _ _ => nofun

end Programs

/-! ## Whole runs -/

def Edge : JobState → JobState → Prop
  | .queued, .running | .queued, .canceled => True
  | .running, .succeeded | .running, .failed | .running, .canceled | .running, .reconciling => True
  | .reconciling, .succeeded | .reconciling, .failed | .reconciling, .canceled => True
  | _, _ => False

section Main

variable {ι : Type} [DecidableEq ι] {life : ι → Nat} {s s' : System ι} {a : ι → Stage}
  {recs : String → Prop} {op : Op} {r : op.Ans} {i : ι} {workers : Nat}

variable {x y : JobState}

theorem edge_final (hx : x = .running ∨ x = .reconciling) (hy : y.active = false) : Edge x y := by
  rcases hx with rfl | rfl <;> cases y <;> trivial

/-- Every alteration that is not a `Finish` goes along an edge; so does a `Finish` of a running job. -/
theorem alters_edge (h : op.Alters id (some x) (some y))
    (hrunning : op.finished = some id → x = .running) : Edge x y := by
  unfold Op.Alters at h
  split at h <;> simp_all [Op.finished] <;>
    first
    | trivial
    | exact edge_final (.inl rfl) h.2.2
    | exact edge_final (.inr rfl) (by rcases h.2.2 with h | h <;> rw [h] <;> rfl)

theorem system_memory (hmem : op.memory = true) (h : system workers life i s op r s') :
    s'.table = s.table ∧ s'.used = s.used := by
  cases op with
  | boot | ready => exact h.2 ▸ ⟨rfl, rfl⟩
  | enter id | reconcile | ended => exact h.2.2 ▸ ⟨rfl, rfl⟩
  | leave id | started | join => exact h.2.2.2 ▸ ⟨rfl, rfl⟩
  | cancel id =>
    obtain ⟨-, -, h⟩ := h
    unfold System.cancel at h
    split at h <;> cases h <;> exact ⟨rfl, rfl⟩
  | launch job =>
    cases r with
    | false => exact h.2.2 ▸ ⟨rfl, rfl⟩
    | true => exact h.2.2.2 ▸ ⟨rfl, rfl⟩
  | _ => cases hmem

theorem edge_step (hcourse : Course life s a recs) (hallowed : Allowed (a i) op)
    (hr : system workers life i s op r s')
    (hx : s.table.stateOf id = some x) (hy : s'.table.stateOf id = some y) : x = y ∨ Edge x y := by
  cases hmem : op.memory with
  | true =>
    rw [(system_memory hmem hr).1, hx] at hy
    exact .inl (Option.some.inj hy)
  | false =>
    obtain ⟨hi, -, t, hop, -, rfl⟩ := system_store hmem hr
    rcases jobStore_state hop id with hsame | halters
    · rw [show t.stateOf id = _ from hy, hx] at hsame
      exact .inl (Option.some.inj hsame).symm
    · rw [hx, show t.stateOf id = _ from hy] at halters
      refine .inr (alters_edge halters fun hfinish => ?_)
      have hruns := hcourse.runs i id hi ((turn_of_allowed hmem hallowed hop).finishes id hfinish).1
      exact Option.some.inj (hx.symm.trans hruns)

theorem queued_once (hr : system workers life i s op r s') (h : id ∈ s.used ∧ s.table.stateOf id ≠ some .queued) :
    id ∈ s'.used ∧ s'.table.stateOf id ≠ some .queued := by
  cases hmem : op.memory with
  | true =>
    obtain ⟨htable, hused⟩ := system_memory hmem hr
    rw [htable, hused]
    exact h
  | false =>
    obtain ⟨-, -, t, hop, hfresh, rfl⟩ := system_store hmem hr
    refine ⟨List.mem_append_right _ h.1, fun hqueued => ?_⟩
    have hqueued : t.stateOf id = some .queued := hqueued
    rcases jobStore_state hop id with hsame | halters
    · exact h.2 (hsame ▸ hqueued)
    · rw [hqueued] at halters
      exact fresh_state hfresh (alters_to_queued halters) (by rw [hqueued]; nofun) h.1

def daemons (r : Runner) (roles : ι → Role) (t : JobTable) : Pool jobCalls ι (System ι) (Option CancelReply) :=
  ⟨.down t, fun i => (roles i).program r⟩

def Claims (s s' : System ι) (id : String) : Prop :=
  s.table.stateOf id = some .queued ∧ s'.table.stateOf id = some .running

omit [DecidableEq ι] in
theorem course_down (t : JobTable) : Course life (.down t) (fun _ => .idle) fun _ => False where
  later _ _ := rfl
  waits _ _ _ := .inl rfl
  empty _ := rfl
  booted := nofun
  sole := nofun
  runs := nofun
  alone := nofun
  pending := nofun
  others := nofun
  known := nofun
  taken := fun _ _ _ h => h
  launched := nofun
  seen := nofun
  entered := nofun
  ids id hid := by
    by_contra hmem
    exact hid (t.stateOf_eq_none.2 hmem)

theorem lawful_run {roles : ι → Role} {r : Runner}
    {x y : Pool jobCalls ι (System ι × List String) (Option CancelReply)} {t : List (ι × Event jobCalls)}
    (hrun : Pool.Run ((logged grants (system r.workers life)).when fun i s op => K → Unhurried i s op) x t y)
    (a : ι → Stage) (hx : Lawful K life x.state.1 x.state.2 a)
    (hp : ∀ i, Staged (fun b out => ∀ id job, roles i = .cancelJob id →
      out = some (.accepted job) → b = .granted id) (x.left i) (a i)) :
    ∃ a', Lawful K life y.state.1 y.state.2 a' ∧ ∀ i, Staged (fun b out => ∀ id job,
      roles i = .cancelJob id → out = some (.accepted job) → b = .granted id) (y.left i) (a' i) := by
  refine hrun.rely (T := fun _ => staged) (G := fun _ => Allowed)
    (R := fun s a => Lawful K life s.1 s.2 a) ?_ hx hp
  rintro i s a op r s' hlawful hallowed ⟨hcond, hstep, hlog⟩
  obtain ⟨b, hb, hnext⟩ := lawful_step hlawful hallowed hcond hstep
  exact ⟨b, hb, hlog ▸ hnext⟩

/-- In every run, each step moves every job along an edge, and no job is claimed twice. In every run that is never
hurried, a job whose cancellation a request has accepted is never afterwards recorded as succeeded or failed. -/
theorem jobs_keep_course (r : Runner) (hr : r.Quiet) (life : ι → Nat) (roles : ι → Role)
    (hroles : ∀ i, (roles i).Quiet) (t₀ : JobTable) :
    (∀ t y e z, Pool.Run (system r.workers life) (daemons r roles t₀) t y →
      Pool.Step (system r.workers life) y e z →
      (∀ id a b, y.state.table.stateOf id = some a → z.state.table.stateOf id = some b → a = b ∨ Edge a b) ∧
      ∀ id, Claims y.state z.state id → ∀ t' y' e' z', Pool.Run (system r.workers life) z t' y' →
        Pool.Step (system r.workers life) y' e' z' → ¬Claims y'.state z'.state id) ∧ ∀ t y t' z i id job,
      Pool.Run ((logged grants (system r.workers life)).when Unhurried)
        ⟨(.down t₀, []), fun i => (roles i).program r⟩ t y →
      roles i = .cancelJob id → y.left i = .ret (some (.accepted job)) →
      Pool.Run ((logged grants (system r.workers life)).when Unhurried) y t' z →
      z.state.1.table.stateOf id ≠ some .succeeded ∧ z.state.1.table.stateOf id ≠ some .failed := by
  have hprograms : ∀ i, Staged (fun b out => ∀ id job, roles i = .cancelJob id →
      out = some (.accepted job) → b = .granted id) ((roles i).program r) .idle :=
    fun i => program_staged hr (hroles i)
  constructor
  · intro t y e z hrun hstep
    -- without the condition, only the course of the jobs is kept
    have hlogged : Pool.Run ((logged grants (system r.workers life)).when
        fun i s op => False → Unhurried i s op) _ t _ :=
      (hrun.logged grants []).mono fun _ _ _ _ _ h => ⟨nofun, h⟩
    obtain ⟨a, ⟨⟨recs, hcourse⟩, -⟩, hensures⟩ :=
      lawful_run hlogged (fun _ => .idle) ⟨⟨_, course_down t₀⟩, nofun⟩ hprograms
    cases hstep with
    | @answer i op k ans s hnext hans =>
      have hcall := hensures i
      rw [show y.left i = _ from hnext] at hcall
      refine ⟨fun id x z hx hz => edge_step hcourse (ensures_call.1 hcall).1 hans hx hz, ?_⟩
      rintro id ⟨hqueued, hrunning⟩ t' y' e' z' hrun' hstep' ⟨hagain, -⟩
      have hused : id ∈ s.used := by
        cases hmem : op.memory with
        | true =>
          rw [(system_memory hmem hans).1, hqueued] at hrunning
          cases hrunning
        | false =>
          obtain ⟨-, -, table, -, -, rfl⟩ := system_store hmem hans
          exact mem_withTable_used (by rw [show table.stateOf id = _ from hrunning]; nofun)
      have hnever := hrun'.invariant (fun y => id ∈ y.state.used ∧ y.state.table.stateOf id ≠ some .queued)
        ⟨hused, by rw [hrunning]; nofun⟩ (by
          rintro _ _ _ hinv ⟨-, hans⟩
          exact queued_once hans hinv)
      exact hnever.2 hagain
  · intro t y t' z i id job hrun hrole hreply hrun'
    have hcond : ∀ i s op ans s', ((logged grants (system r.workers life)).when Unhurried) i s op ans s' →
        ((logged grants (system r.workers life)).when fun i s op => True → Unhurried i s op) i s op ans s' :=
      fun _ _ _ _ _ h => ⟨fun _ => h.1, h.2⟩
    obtain ⟨a, hlawful, hensures⟩ := lawful_run (x := ⟨(.down t₀, []), _⟩) (hrun.mono hcond)
      (fun _ => .idle) ⟨⟨_, course_down t₀⟩, fun _ => ⟨nofun, nofun, nofun, nofun⟩⟩ hprograms
    have hgranted : a i = .granted id := by
      have hret := hensures i
      rw [hreply] at hret
      exact ensures_ret.1 hret id job hrole rfl
    have hlog : id ∈ z.state.2 := hrun'.invariant (fun y => id ∈ y.state.2)
      ((hlawful.2 trivial).granted i id hgranted) (by
        rintro _ _ _ hid ⟨-, -, -, hlog⟩
        exact hlog ▸ mem_grants hid _)
    obtain ⟨a', hlawful', -⟩ := lawful_run (hrun'.mono hcond) a hlawful hensures
    rcases (hlawful'.2 trivial).spent id hlog with h | h | ⟨h, -⟩ <;> rw [h] <;> exact ⟨nofun, nofun⟩

end Main

/-! ## A cancellation and a crash -/

def clockRunner : Runner where
  handlers _ := some fun _ => do
    let _ ← ask .now
    pure ()
  rotates := false

theorem clockRunner_quiet : clockRunner.Quiet where
  handlers _ _ hh _ := by
    cases hh
    exact (issues_ask trivial).andThen fun _ => issues_pure
  reconcilers := nofun

inductive Shift where
  | start
  | worker
  | operator
  | restart
  deriving DecidableEq

def shiftLife : Shift → Nat
  | .start | .worker | .operator => 1
  | .restart => 2

def shiftRole : Shift → Role
  | .start | .restart => .start
  | .worker => .worker none false 1
  | .operator => .cancelJob "0"

theorem shiftRole_quiet (i : Shift) : (shiftRole i).Quiet := by
  cases i <;> trivial

def oneQueued : JobTable where
  list := [newJob "0" "migrate" "" "" .queued ⟨1⟩]
  nodup := by decide

def clockRest : (op : Op) → Option op.Ans
  | .now => some ⟨1⟩
  | .ctxErr => some (.ok ())
  | _ => none

abbrev shiftReply : Answers jobCalls Shift (System Shift) :=
  System.reply clockRunner.workers shiftLife ⟨1⟩ clockRest

def operatorAccepted {σ : Type} (y : Pool jobCalls Shift σ (Option CancelReply)) : Bool :=
  match y.left .operator with
  | .ret (some (.accepted _)) => true
  | _ => false

theorem operatorAccepted_spec {σ : Type} {y : Pool jobCalls Shift σ (Option CancelReply)}
    (h : operatorAccepted y = true) : ∃ job, y.left .operator = .ret (some (.accepted job)) := by
  unfold operatorAccepted at h
  split at h
  · rename_i job hret
    exact ⟨job, hret⟩
  · cases h

/-- The worker has the job in flight when it is canceled. -/
def acceptedTurns : List Shift :=
  [.start, .start, .start, .start, .worker, .worker, .worker, .operator, .operator, .operator]

/-- The cancellation of a running job is accepted; the daemon dies before the
job's handler has returned, and the next one records the job as failed. -/
theorem accepted_cancel_is_lost : clockRunner.Quiet ∧ (∀ i, (shiftRole i).Quiet) ∧ ∃ t y t' z job,
    Pool.Run (system clockRunner.workers shiftLife) (daemons clockRunner shiftRole oneQueued) t y ∧
    shiftRole .operator = .cancelJob "0" ∧ y.left .operator = .ret (some (.accepted job)) ∧
    Pool.Run (system clockRunner.workers shiftLife) y t' z ∧ z.state.table.stateOf "0" = some .failed := by
  refine ⟨clockRunner_quiet, shiftRole_quiet, ?_⟩
  obtain ⟨t, y, t', z, hrun, haccepted, -, hrun', hfailed⟩ := Pool.run_of_plays
    (H := shiftReply) (x := daemons clockRunner shiftRole oneQueued) system_reply acceptedTurns
    [.restart, .restart, .restart] operatorAccepted
    (fun z => z.state.table.stateOf "0" == some .failed) (by decide +kernel)
  obtain ⟨job, hjob⟩ := operatorAccepted_spec haccepted
  exact ⟨t, y, t', z, job, hrun, rfl, hjob, hrun', beq_iff_eq.1 hfailed⟩

def unhurried (_ : Shift) (s : System Shift × List String) : Op → Bool
  | .boot => s.2.all fun id => s.1.table.stateOf id != some .running
  | _ => true

theorem unhurried_spec (i : Shift) (s : System Shift × List String) (op : Op) (h : unhurried i s op = true) :
    Unhurried i s op := by
  rintro rfl id hid
  simpa using List.all_eq_true.1 h id hid

/-- The same job is finished before the next daemon is started. -/
theorem accepted_cancel_is_kept : clockRunner.Quiet ∧ (∀ i, (shiftRole i).Quiet) ∧ ∃ t y t' z job,
    Pool.Run ((logged grants (system clockRunner.workers shiftLife)).when Unhurried)
      ⟨(.down oneQueued, []), fun i => (shiftRole i).program clockRunner⟩ t y ∧
    y.left .operator = .ret (some (.accepted job)) ∧
    Pool.Run ((logged grants (system clockRunner.workers shiftLife)).when Unhurried) y t' z ∧
    z.state.1.life = 2 ∧ z.state.1.table.stateOf "0" ≠ some .succeeded ∧
    z.state.1.table.stateOf "0" ≠ some .failed := by
  refine ⟨clockRunner_quiet, shiftRole_quiet, ?_⟩
  obtain ⟨t, y, t', z, hrun, haccepted, -, hrun', hlife⟩ := Pool.run_of_plays
    (S := (logged grants (system clockRunner.workers shiftLife)).when Unhurried)
    (H := Answers.only unhurried (Answers.logged grants shiftReply))
    (x := ⟨(.down oneQueued, []), fun i => (shiftRole i).program clockRunner⟩)
    (Answers.only_when (Answers.logged_shared system_reply) unhurried_spec) acceptedTurns
    [.worker, .worker, .worker, .restart, .restart, .restart] operatorAccepted
    (fun z => z.state.1.life == 2) (by decide +kernel)
  obtain ⟨job, hjob⟩ := operatorAccepted_spec haccepted
  have hkept := (jobs_keep_course clockRunner clockRunner_quiet shiftLife shiftRole shiftRole_quiet oneQueued).2
    t y t' z .operator "0" job hrun rfl hjob hrun'
  exact ⟨t, y, t', z, job, hrun, hjob, hrun', beq_iff_eq.1 hlife, hkept⟩

end PodmanApi.Jobs

/-
# PodmanApi.Podman.ExecPool — the exec connection that is reused.

`internal/podman/exec_pool.go`. An exec takes the connection of its host's slot, or dials one, and puts it back.
`SetHosts` empties the slot of a host that it removes or re-addresses, but an exec that is running meanwhile
puts its connection to the old endpoint into the slot afterwards.

A `Target` carries the number of reconfigurations before it, and `SetHosts` returns the number each id has now
had; "dialed with the old parameters" is an inequality between the two.
-/
import PodmanApi.Podman.Connections

namespace PodmanApi.Podman

open GoStd Calls
open Function (update update_self update_of_ne)

namespace ExecPool

/-! ## What a thread holds -/

/-- What a thread has taken note of: the exec dial it waits for, the one it makes, or a reload it made. -/
inductive Hold where
  | nothing
  | awaiting (d : Nat) (target : Target)
  | dialing (d : Nat) (target : Target)
  | reloaded (changed : List (String × Nat))

/-- The client as one thread sees it, when `id` has been reconfigured `n` times. -/
def seen (id : String) (n : Nat) : Calls.Service clientCalls Hold := fun a op r b =>
  match op, r with
  | .resolve id', r => b = a ∧ ∀ target, r = some target → id' = id → n ≤ target.epoch
  | .take id', r => b = a ∧ ∀ c, r = some c → id' = id → n ≤ c.target.epoch
  | .dial target _, r => b = a ∧ ∀ c, r = .ok c → c.target = target
  | .startExecDial _ target, d => b = .awaiting d target
  | .awaitExec d, r => b = a ∧ ∀ target c, a = .awaiting d target → r = .done (.ok c) → c.target = target
  | .started, .execDial _ target d => b = .dialing d target
  | .swap _, swapped => b = .reloaded swapped.changed
  | _, _ => b = a

/-- What every thread guarantees: an exec dial is settled by the thread that makes it, with a connection to
what it was started for. -/
def Honest (a : Hold) : Op → Prop
  | .settle d e _ => ∃ target, a = .dialing d target ∧ ∀ c, e = some c → c.target = target
  | _ => True

/-- The exec dial is on record, for this target. -/
def Recorded (s : Real) (d : Nat) (target : Target) : Prop :=
  ∃ call, s.execDials d = some call ∧ call.target = target

/-- What a thread holds is as the client has it. -/
def Fits (s : Real) : Hold → Prop
  | .nothing => True
  | .awaiting d target => Recorded s d target
  | .dialing d target => Recorded s d target
  | .reloaded changed => ∀ p ∈ changed, p.2 ≤ s.epoch p.1

/-- A handoff holds a connection dialed for what it was started for; its dial is on record before it is
launched. -/
structure Handoffs (s : Real) : Prop where
  entry : ∀ d call c, s.execDials d = some call → call.entry = some c → c.target = call.target
  numbered : ∀ d call, s.execDials d = some call → d < s.dialed
  launched : ∀ id target d, .execDial id target d ∈ s.launched → Recorded s d target

/-- A slot offers a connection dialed for the configuration as it stands. -/
def Offers (s : Real) : Prop :=
  ∀ id c, s.execPool id = some c → c.target.epoch = s.epoch id

variable {op : Op} {r : op.Ans}

section Handoffs

variable {s s' : Real} {id : String}

theorem Fits.mono {a : Hold} (h : Fits s a) (hepoch : ∀ id, s.epoch id ≤ s'.epoch id)
    (hrecorded : ∀ d target, Recorded s d target → Recorded s' d target) : Fits s' a := by
  cases a with
  | nothing => trivial
  | awaiting d target | dialing d target => exact hrecorded d target h
  | reloaded changed => exact fun p hp => (h p hp).trans (hepoch p.1)

theorem handoffs_idle (m : Hosts) : Handoffs (.idle m) where
  entry _ _ _ h := by cases h
  numbered _ _ h := by cases h
  launched _ _ _ h := by cases h

theorem Handoffs.frame (h : Handoffs s) (hdials : s'.execDials = s.execDials) (hdialed : s.dialed ≤ s'.dialed)
    (hlaunched : ∀ id target d, .execDial id target d ∈ s'.launched → .execDial id target d ∈ s.launched) :
    Handoffs s' ∧ ∀ d target, Recorded s d target → Recorded s' d target := by
  have hrecorded : ∀ d target, Recorded s d target → Recorded s' d target := by
    intro d target hd
    unfold Recorded
    rw [hdials]
    exact hd
  refine ⟨⟨?_, ?_, ?_⟩, hrecorded⟩
  · rw [hdials]
    exact h.entry
  · intro d call hd
    rw [hdials] at hd
    exact (h.numbered d call hd).trans_le hdialed
  · intro id target d hd
    exact hrecorded d target (h.launched id target d (hlaunched id target d hd))

variable {d : Nat} {target : Target}

theorem handoffs_setExecDial {call call' : ExecDial} (h : Handoffs s)
    (hcall : s.execDials d = some call) (htarget : call'.target = call.target)
    (hentry : ∀ c, call'.entry = some c → c.target = call.target) : Handoffs (s.setExecDial d call') ∧
      ∀ d' target, Recorded s d' target → Recorded (s.setExecDial d call') d' target := by
  have hrecorded : ∀ d' target, Recorded s d' target → Recorded (s.setExecDial d call') d' target := by
    rintro d' target ⟨old, hold, rfl⟩
    by_cases hd : d' = d
    · subst hd
      obtain rfl : call = old := by simpa [hcall] using hold
      exact ⟨call', update_self _ _ _, htarget⟩
    · exact ⟨old, (update_of_ne hd _ _).trans hold, rfl⟩
  refine ⟨⟨?_, ?_, ?_⟩, hrecorded⟩
  · intro d' new c hd hc
    rcases update_cases hd with ⟨-, hnew⟩ | ⟨-, hold⟩
    · cases hnew
      rw [htarget]
      exact hentry c hc
    · exact h.entry d' new c hold hc
  · intro d' new hd
    rcases update_cases hd with ⟨rfl, -⟩ | ⟨-, hold⟩
    · exact h.numbered d' call hcall
    · exact h.numbered d' new hold
  · intro id target d' hd
    exact hrecorded d' target (h.launched id target d' hd)

theorem handoffs_settle {e : Option Conn} {err : Option Error} {r : Option Conn}
    (h : Handoffs s) (hd : Recorded s d target) (he : ∀ c, e = some c → c.target = target)
    (hr : s.settle d e err = (r, s')) : Handoffs s' ∧ ∀ d target, Recorded s d target → Recorded s' d target := by
  obtain ⟨call, hcall, rfl⟩ := hd
  simp only [Real.settle, hcall] at hr
  split at hr
  · cases hr
    exact ⟨h, fun _ _ hd => hd⟩
  · cases hr
    exact handoffs_setExecDial h hcall rfl he

theorem handoffs_abandon {r : Option Conn} (h : Handoffs s) (hr : s.abandon d = (r, s')) :
    Handoffs s' ∧ ∀ d target, Recorded s d target → Recorded s' d target := by
  unfold Real.abandon at hr
  split at hr
  · cases hr
    exact ⟨h, fun _ _ hd => hd⟩
  · rename_i call hcall
    split at hr
    · cases hr
      exact handoffs_setExecDial h hcall rfl nofun
    · cases hr
      exact handoffs_setExecDial h hcall rfl fun c hc => h.entry d call c hcall hc

theorem handoffs_startExecDial (h : Handoffs s) (hr : s.startExecDial id target = (d, s')) :
    Recorded s' d target ∧ Handoffs s' ∧ ∀ d target, Recorded s d target → Recorded s' d target := by
  cases hr
  have hrecorded : ∀ d target', Recorded s d target' → Recorded (s.startExecDial id target).2 d target' := by
    rintro d target' ⟨call, hcall, rfl⟩
    have hd : d ≠ s.dialed := (h.numbered d call hcall).ne
    exact ⟨call, (update_of_ne hd _ _).trans hcall, rfl⟩
  have hnew : Recorded (s.startExecDial id target).2 s.dialed target :=
    ⟨_, update_self _ _ _, rfl⟩
  refine ⟨hnew, ⟨?_, ?_, ?_⟩, hrecorded⟩
  · intro d call c hd hc
    rcases update_cases hd with ⟨-, hcall⟩ | ⟨-, hold⟩
    · cases hcall
      cases hc
    · exact h.entry d call c hold hc
  · intro d call hd
    rcases update_cases hd with ⟨rfl, -⟩ | ⟨-, hold⟩
    · exact Nat.lt_succ_self _
    · exact (h.numbered d call hold).trans (Nat.lt_succ_self _)
  · intro id' target' d hd
    rcases List.mem_append.1 hd with hold | hlast
    · exact hrecorded d target' (h.launched id' target' d hold)
    · cases List.mem_singleton.1 hlast
      exact hnew

theorem handoffs_step (h : Handoffs s) (hsettle : ∀ d e err, op = .settle d e err →
      ∃ target, Recorded s d target ∧ ∀ c, e = some c → c.target = target)
    (hr : client s op r s') : Handoffs s' ∧ ∀ d target, Recorded s d target → Recorded s' d target := by
  -- a call that leaves exec dials alone, and launches none
  have hframe : op.writes.contains .execDials = false →
      (∀ id target d, .execDial id target d ∈ s'.launched → .execDial id target d ∈ s.launched) →
      s.dialed ≤ s'.dialed → Handoffs s' ∧ ∀ d target, Recorded s d target → Recorded s' d target :=
    fun hdials hlaunched hdialed => h.frame (client_same hr hdials) hdialed hlaunched
  cases op with
  | lookup id =>
    refine hframe rfl ?_ ?_
    · intro id' target d hd
      obtain rfl | ⟨host, -, hres⟩ := lookup_effect hr
      · exact hd
      · cases hres
        simpa using hd
    · exact lookup_dialed hr
  | swap hosts =>
    obtain ⟨-, rfl⟩ := Prod.ext_iff.1 hr
    refine hframe rfl (fun id target d hd => ?_) le_rfl
    simpa [Real.swap] using hd
  | startExecDial id target => exact (handoffs_startExecDial h hr).2
  | settle d e err =>
    obtain ⟨target, hd, he⟩ := hsettle d e err rfl
    exact handoffs_settle h hd he hr
  | abandon d => exact handoffs_abandon h hr
  | started =>
    obtain ⟨-, rfl⟩ := hr
    exact h.frame rfl le_rfl fun _ _ _ hl => List.mem_of_mem_erase hl
  | _ =>
    have hlaunched : s'.launched = s.launched := client_same (f := .launched) hr rfl
    have hdialed : s'.dialed = s.dialed := client_same (f := .dialed) hr rfl
    refine hframe rfl (fun id target d hd => ?_) hdialed.ge
    rwa [hlaunched] at hd

theorem handoffs_reads {call : ExecDial} {c : Conn} (h : Handoffs s)
    (hd : Recorded s d target) (hcall : s.execDials d = some call) (hreads : call.reads (.ok c)) :
    c.target = target := by
  obtain ⟨call', hcall', rfl⟩ := hd
  obtain rfl : call = call' := by simpa [hcall] using hcall'
  exact h.entry d call c hcall hreads.2.2

end Handoffs

section Offers

variable {s s' : Real}

theorem offers_idle (m : Hosts) : Offers (.idle m) := by
  intro id c hc
  cases hc

theorem offers_step (h : Offers s)
    (hput : ∀ id c, op = .put id c → c.target.epoch = s.epoch id) (hr : client s op r s') :
    Offers s' ∧ ∀ id, s.epoch id ≤ s'.epoch id := by
  cases op with
  | swap hosts =>
    obtain ⟨-, rfl⟩ := Prod.ext_iff.1 hr
    refine ⟨fun id c hc => ?_, fun id => ?_⟩
    · simp only [Real.swap] at hc ⊢
      split at hc
      · cases hc
      · rename_i hkeep
        rw [if_neg hkeep]
        exact h id c hc
    · show s.epoch id ≤ if s.repoints id (.ofList hosts) then s.epoch id + 1 else s.epoch id
      split <;> omega
  | take id =>
    cases hr
    refine ⟨fun id' c hc => ?_, fun _ => le_rfl⟩
    rcases update_cases hc with ⟨-, hnone⟩ | ⟨-, hold⟩
    · cases hnone
    · exact h id' c hold
  | put id c =>
    cases hr
    refine ⟨fun id' c' hc => ?_, fun _ => le_rfl⟩
    rcases update_cases hc with ⟨rfl, hnew⟩ | ⟨-, hold⟩
    · exact Option.some.inj hnew ▸ hput id' c rfl
    · exact h id' c' hold
  | _ =>
    have hpool : s'.execPool = s.execPool := client_same (f := .execPool) hr rfl
    have hepoch : s'.epoch = s.epoch := client_same (f := .epoch) hr rfl
    refine ⟨?_, fun id => (congrFun hepoch id).ge⟩
    unfold Offers
    rw [hpool, hepoch]
    exact h

theorem swap_changed {hosts : Hosts} {p : String × Nat} (hp : p ∈ (s.swap hosts).1.changed) :
    p.2 ≤ (s.swap hosts).2.epoch p.1 := by
  simp only [Real.swap, List.mem_map, List.mem_filter] at hp
  obtain ⟨h, ⟨-, hhit⟩, rfl⟩ := hp
  simp [Real.swap, hhit]

end Offers

/-! ## Side by side -/

section Run

variable {ι : Type} [DecidableEq ι] {s s' : Real} {id : String} {n : Nat}

/-- The condition on a step: a connection that is put back was dialed for a configuration that has not been
removed or re-addressed since. -/
def PutsCurrent (_ : ι) (s : Real) (op : Op) : Prop :=
  ∀ id c, op = .put id c → c.target.epoch = s.epoch id

/-- Handoffs and slots are in order, `id` has been reconfigured `n` times, and what the threads hold fits. -/
structure Agrees (id : String) (n : Nat) (s : Real) (a : ι → Hold) : Prop where
  handoffs : Handoffs s
  offers : Offers s
  reached : n ≤ s.epoch id
  fits : ∀ i, Fits s (a i)

/-- One call of a thread, as the thread sees it and as the client and the other threads are left. -/
theorem agrees_step {i : ι} {a : ι → Hold} (hR : Agrees id n s a)
    (hg : Honest (a i) op) (h : (clients.when PutsCurrent) i s op r s') :
    ∃ b, seen id n (a i) op r b ∧ Agrees id n s' (update a i b) := by
  obtain ⟨hput, hr⟩ := h
  have hsettle : ∀ d e err, op = .settle d e err →
      ∃ target, Recorded s d target ∧ ∀ c, e = some c → c.target = target := by
    rintro d e err rfl
    obtain ⟨target, hhold, he⟩ := hg
    have hfits := hR.fits i
    rw [hhold] at hfits
    exact ⟨target, hfits, he⟩
  obtain ⟨hhandoffs, hrecorded⟩ := handoffs_step hR.handoffs hsettle hr
  obtain ⟨hoffers, hepoch⟩ := offers_step hR.offers hput hr
  have hagrees : ∀ b, Fits s' b → Agrees id n s' (update a i b) := by
    intro b hb
    refine ⟨hhandoffs, hoffers, hR.reached.trans (hepoch id), fun j => ?_⟩
    by_cases hj : j = i
    · subst hj
      rwa [update_self]
    · rw [update_of_ne hj]
      exact (hR.fits j).mono hepoch hrecorded
  have hsame := hagrees (a i) ((hR.fits i).mono hepoch hrecorded)
  cases op with
  | resolve id' =>
    obtain ⟨rfl, rfl⟩ := hr
    refine ⟨a i, ⟨rfl, fun target htarget => ?_⟩, hsame⟩
    rintro rfl
    obtain ⟨host, -, rfl⟩ := Option.map_eq_some_iff.1 htarget
    exact hR.reached
  | take id' =>
    cases hr
    refine ⟨a i, ⟨rfl, fun c hc => ?_⟩, hsame⟩
    rintro rfl
    exact (hR.offers id' c hc).symm ▸ hR.reached
  | dial target exec =>
    refine ⟨a i, ⟨rfl, fun c hc => ?_⟩, hsame⟩
    subst hc
    exact hr.1.2.1
  | startExecDial id' target =>
    exact ⟨.awaiting r target, rfl, hagrees _ (handoffs_startExecDial hR.handoffs hr).1⟩
  | awaitExec d =>
    refine ⟨a i, ⟨rfl, fun target c hhold hdone => ?_⟩, hsame⟩
    subst hdone
    obtain ⟨rfl, call, hcall, hreads⟩ := hr
    have hfits := hR.fits i
    rw [hhold] at hfits
    exact handoffs_reads hR.handoffs hfits hcall hreads
  | started =>
    cases r with
    | dial | close => exact ⟨a i, rfl, hsame⟩
    | execDial id' target d =>
      refine ⟨.dialing d target, rfl, hagrees _ ?_⟩
      exact hrecorded d target (hR.handoffs.launched id' target d hr.1)
  | swap hosts =>
    obtain ⟨rfl, rfl⟩ := Prod.ext_iff.1 hr
    exact ⟨.reloaded _, rfl, hagrees _ fun p hp => swap_changed hp⟩
  | _ => exact ⟨a i, rfl, hsame⟩

end Run

/-! ## What a request does by itself -/

section Local

variable {id : String} {n : Nat} {L : Op → Prop}

/-- Honesty, and a further obligation on each call. -/
def Honestly (L : Op → Prop) (a : Hold) (op : Op) : Prop :=
  Honest a op ∧ L op

/-- The calls that tell a thread nothing it takes note of. -/
def Calm : Op → Prop
  | .lookup _ | .await _ | .publish _ _ _ _ | .close _ | .evict _ _ | .isVerified _ | .probe _ _
  | .markVerified _ | .libpod _ _ | .inspect _ _ | .abandon _ | .put _ _ | .now => True
  | _ => False

theorem calm_ensures {α : Type} {p : Prog clientCalls α} (hp : p.Issues fun op => Calm op ∧ L op) (a : Hold) :
    Ensures (seen id n) (Honestly L) (fun b _ => b = a) p a := by
  refine hp.ensures (fun b op r b' hop hb hr => ?_) (fun b op hop _ => ?_) rfl
  · obtain ⟨hcalm, -⟩ := hop
    cases op <;> first | exact hr.trans hb | cases hcalm
  · obtain ⟨hcalm, hL⟩ := hop
    refine ⟨?_, hL⟩
    cases op <;> trivial

theorem closeAll_calm (hL : ∀ c, L (.close c)) (cs : List Conn) :
    (closeAll cs).Issues fun op => Calm op ∧ L op := by
  induction cs with
  | nil => exact issues_ret _
  | cons c cs ih => exact (issues_perform.2 ⟨trivial, hL c⟩).bind fun _ => ih

theorem runExecDial_ensures (hL : ∀ op, L op) (id' : String) (target : Target) (d : Nat) :
    Ensures (seen id n) (Honestly L) (fun _ _ => True) (runExecDial id' target d) (.dialing d target) := by
  refine ensures_issue_bind (Op.dial target true) ⟨trivial, hL _⟩ fun result b hb => ?_
  obtain ⟨rfl, htarget⟩ := hb
  have hclose : ∀ (surplus : Option Conn) (b : Hold),
      Ensures (seen id n) (Honestly L) (fun _ _ => True) (closeAll surplus.toList) b :=
    fun surplus b => (calm_ensures (closeAll_calm (fun _ => hL _) _) b).imp fun _ _ _ => trivial
  cases result with
  | error err =>
    refine ensures_issue_bind (Op.settle d none (some (connectError id' err))) ⟨?_, hL _⟩ fun r b _ => hclose r b
    exact ⟨target, rfl, nofun⟩
  | ok e =>
    refine ensures_issue_bind (Op.settle d (some e) none) ⟨?_, hL _⟩ fun r b _ => hclose r b
    refine ⟨target, rfl, fun c hc => ?_⟩
    exact Option.some.inj hc ▸ htarget e rfl

theorem runDial_ensures (hL : ∀ op, L op) (id' : String) (target : Target) (d : Nat) (a : Hold) :
    Ensures (seen id n) (Honestly L) (fun _ _ => True) (runDial id' target d) a := by
  refine ensures_issue_bind (Op.dial target false) ⟨trivial, hL _⟩ fun result b _ => ?_
  have hcalm : (do
      let surplus ← issue (.publish id' target d result)
      closeAll surplus.toList : Prog clientCalls Unit).Issues fun op => Calm op ∧ L op :=
    (issues_perform.2 ⟨trivial, hL _⟩).bind fun _ => closeAll_calm (fun _ => hL _) _
  exact (calm_ensures hcalm b).imp fun _ _ _ => trivial

theorem execConnFor_ensures (hL : ∀ op, (∀ id c, op ≠ .libpod id c) → L op) (id' : String) (a : Hold) :
    Ensures (seen id n) (Honestly L) (fun _ r => ∀ c, r = .ok c → id' = id → n ≤ c.target.epoch)
      (execConnFor id').run a := by
  refine ensures_ask (.resolve id') ⟨trivial, hL _ nofun⟩ fun r b hb => ?_
  obtain ⟨rfl, hresolved⟩ := hb
  cases r with
  | none => exact ensures_throw.2 nofun
  | some target =>
    refine ensures_ask .now ⟨trivial, hL _ nofun⟩ fun now b' hb => ?_
    -- the slot's connection is recent enough by the state of the slot
    have htake : Ensures (seen id n) (Honestly L)
        (fun _ r => ∀ c, r = some c → id' = id → n ≤ c.target.epoch) (takeExecConn id' now) b' := by
      refine ensures_issue_bind (Op.take id') ⟨trivial, hL _ nofun⟩ fun taken b hb => ?_
      obtain ⟨rfl, htaken⟩ := hb
      cases taken with
      | none => exact ensures_ret.2 nofun
      | some c =>
        dsimp only
        split
        · refine (calm_ensures (closeAll_calm (fun _ => hL _ nofun) [c]) b).bind ?_
          exact fun _ _ _ => ensures_ret.2 nofun
        · exact ensures_ret.2 htaken
    refine htake.embedThen fun b taken htaken => ?_
    cases taken with
    | some c =>
      refine ensures_pure.2 fun c' hc' => ?_
      exact htaken c' (congrArg some (Except.ok.inj hc'))
    | none =>
      -- a connection dialed for this exec is one to the configuration it has read
      refine ensures_ask (.startExecDial id' target) ⟨trivial, hL _ nofun⟩ fun d b hb => ?_
      obtain rfl : b = .awaiting d target := hb
      have habandon : ∀ gaveUp, Ensures (seen id n) (Honestly L)
          (fun _ r => ∀ c, r = .ok c → id' = id → n ≤ c.target.epoch) (abandonExecDial d gaveUp).run
          (.awaiting d target) := by
        intro gaveUp
        refine ensures_ask (.abandon d) ⟨trivial, hL _ nofun⟩ fun surplus b _ => ?_
        refine (calm_ensures (closeAll_calm (fun _ => hL _ nofun) _) b).embedThen fun _ _ _ => ?_
        exact ensures_throw.2 nofun
      refine ensures_ask (.awaitExec d) ⟨trivial, hL _ nofun⟩ fun r b hb => ?_
      obtain ⟨rfl, hdone⟩ := hb
      cases r with
      | done outcome =>
        refine ensures_ret.2 fun c hc hid => ?_
        rw [hdone target c rfl (congrArg Waited.done hc)]
        exact hresolved target rfl hid
      | timeout | cancelled => exact habandon _

theorem containerExec_ensures (hL : ∀ op, (∀ id c, op ≠ .libpod id c) → L op) {id' : String}
    (hcall : ∀ c, (id' = id → n ≤ c.target.epoch) → L (.libpod id' c)) (sv : Semver) (a : Hold) :
    Ensures (seen id n) (Honestly L) (fun _ _ => True) (containerExec sv id').run a := by
  have hentry : (entryFor id').run.Issues fun op => Calm op ∧ L op :=
    entryFor_issues ⟨trivial, hL _ nofun⟩ fun _ => ⟨trivial, hL _ nofun⟩
  refine (calm_ensures hentry a).andThen (fun _ _ _ => trivial) fun a primary _ => ?_
  have hgate : (ensureVerified sv primary id').run.Issues fun op => Calm op ∧ L op :=
    ensureVerified_issues ⟨trivial, hL _ nofun⟩ ⟨trivial, hL _ nofun⟩ ⟨trivial, hL _ nofun⟩
  refine (calm_ensures hgate a).andThen (fun _ _ _ => trivial) fun a _ _ => ?_
  refine (execConnFor_ensures hL id' a).andThen (fun _ _ _ => trivial) fun a conn hconn => ?_
  have hcalls : (libpodCalls id' conn 3).run.Issues fun op => Calm op ∧ L op :=
    libpodCalls_issues 3 ⟨trivial, hcall conn (hconn conn rfl)⟩
  refine (calm_ensures hcalls a).attemptThen fun a result _ => ?_
  refine ensures_ask .now ⟨trivial, hL _ nofun⟩ fun now a _ => ?_
  have hput : (putExecConn id' conn result.toBool now).Issues fun op => Calm op ∧ L op := by
    unfold putExecConn
    split
    · exact closeAll_calm (fun _ => hL _ nofun) _
    · exact (issues_perform.2 ⟨trivial, hL _ nofun⟩).bind fun _ => closeAll_calm (fun _ => hL _ nofun) _
  refine (calm_ensures hput a).embedThen fun _ _ _ => ?_
  exact ensures_ret.2 trivial

/-- What a request that has returned tells: a reload remembers which hosts it reconfigured. -/
def Told (a : Hold) : Outcome → Prop
  | .reconfigured changed => a = .reloaded changed
  | .returned _ => True

theorem program_ensures (sv : Semver) (q : Request) (a : Hold) :
    Ensures (seen id n) (Honestly fun _ => True) Told (q.program sv) a := by
  have hcalm : ∀ (x : Work Unit), (x.run.Issues fun op => Calm op ∧ True) →
      Ensures (seen id n) (Honestly fun _ => True) Told (do pure (.returned (← x.run))) a :=
    fun x hx => (calm_ensures hx a).map fun _ _ _ => trivial
  have hentry : ∀ id', (entryFor id').run.Issues fun op => Calm op ∧ True :=
    fun id' => entryFor_issues ⟨trivial, trivial⟩ fun _ => ⟨trivial, trivial⟩
  have hgate : ∀ e id', (ensureVerified sv e id').run.Issues fun op => Calm op ∧ True :=
    fun e id' => ensureVerified_issues ⟨trivial, trivial⟩ ⟨trivial, trivial⟩ ⟨trivial, trivial⟩
  cases q with
  | operation id' calls =>
    refine hcalm _ ((hentry id').andThen fun e => (hgate e id').andThen fun _ => ?_)
    exact libpodCalls_issues calls ⟨trivial, trivial⟩
  | wait id' k =>
    refine hcalm _ ((hentry id').andThen fun e => (hgate e id').andThen fun _ => ?_)
    exact polls_issues k ⟨trivial, trivial⟩ (fun _ => ⟨trivial, trivial⟩) fun _ => ⟨trivial, trivial⟩
  | exec id' =>
    have hexec : Ensures (seen id n) (Honestly fun _ => True) (fun _ _ => True) (containerExec sv id').run a :=
      containerExec_ensures (fun _ _ => trivial) (fun _ _ => trivial) sv a
    exact hexec.map fun _ _ _ => trivial
  | diagnose id' =>
    exact hcalm _ ((hentry id').andThen fun e => issues_perform.2 ⟨trivial, trivial⟩)
  | preflight id' =>
    exact hcalm _ (preflightHost_issues ⟨trivial, trivial⟩ (fun _ => ⟨trivial, trivial⟩)
      (fun _ => ⟨trivial, trivial⟩) ⟨trivial, trivial⟩)
  | setHosts hosts =>
    refine ensures_bind.2 (ensures_issue_bind (Op.swap hosts) ⟨trivial, trivial⟩ fun swapped b hb => ?_)
    obtain rfl : b = .reloaded swapped.changed := hb
    refine (calm_ensures (closeAll_calm (fun _ => trivial) _) _).bind fun b _ hb => ?_
    exact ensures_ret.2 (ensures_ret.2 hb)
  | invalidate id' dead =>
    refine ensures_bind.2 (ensures_issue_bind (Op.evict id' dead) ⟨trivial, trivial⟩ fun evicted b _ => ?_)
    cases evicted with
    | true =>
      exact (calm_ensures (closeAll_calm (fun _ => trivial) [dead]) b).imp fun _ _ _ => ensures_ret.2 trivial
    | false => exact ensures_ret.2 (ensures_ret.2 trivial)
  | goroutine =>
    refine ensures_bind.2 (ensures_issue_bind Op.started ⟨trivial, trivial⟩ fun task b hb => ?_)
    cases task with
    | dial id' target d =>
      exact (runDial_ensures (fun _ => trivial) id' target d b).imp fun _ _ _ => ensures_ret.2 trivial
    | execDial id' target d =>
      obtain rfl : b = .dialing d target := hb
      exact (runExecDial_ensures (fun _ => trivial) id' target d).imp fun _ _ _ => ensures_ret.2 trivial
    | close c =>
      exact (calm_ensures (closeAll_calm (fun _ => trivial) [c]) b).imp fun _ _ _ => ensures_ret.2 trivial

theorem seen_zero {a : Hold} {b : Hold} (h : seen id n a op r b) : seen id 0 a op r b := by
  cases op with
  | resolve | take => exact ⟨h.1, fun _ _ _ => Nat.zero_le _⟩
  | started => cases r <;> exact h
  | _ => exact h

end Local

section Main

variable {ι : Type} [DecidableEq ι]

/-- Once a `SetHosts` that removed or re-addressed a host has returned, the host's slot offers no connection
dialed for an older configuration, and every libpod call of a later exec runs over one dialed for a configuration
that is not older. -/
theorem exec_follows_setHosts (sv : Semver) (hosts : List Host) {r : Real} (hnew : newReal hosts = .ok r)
    (requests : ι → Request) {t t' : List (ι × Event clientCalls)} {y z : Pool clientCalls ι Real Outcome}
    (hrun : Pool.Run (clients.when PutsCurrent) (waiting sv r requests) t y)
    (hlater : Pool.Run (clients.when PutsCurrent) y t' z) {id : String} {n : Nat} {d : ι}
    {changed : List (String × Nat)} (hdone : y.left d = .ret (.reconfigured changed))
    (hchanged : (id, n) ∈ changed) : (∀ c, z.state.execPool id = some c → n ≤ c.target.epoch) ∧
    ∀ q, requests q = .exec id → y.left q = (requests q).program sv →
      ∀ c, (z.left q).next = some (.libpod id c) → n ≤ c.target.epoch := by
  obtain ⟨m, rfl⟩ := newReal_idle hnew
  -- up to `y`: the reload is part of the host's count
  obtain ⟨a, hagrees, hensures⟩ := hrun.rely (T := fun _ => seen id 0) (G := fun _ => Honestly fun _ => True)
    (Q := fun _ => Told) (R := Agrees id 0) (fun i s a op r s' hR hg => agrees_step hR hg.1)
    (a := fun _ => .nothing) ⟨handoffs_idle m, offers_idle m, Nat.zero_le _, fun _ => trivial⟩
    (fun i => program_ensures sv (requests i) .nothing)
  have hreached : n ≤ y.state.epoch id := by
    have htold := hensures d
    rw [hdone, ensures_ret] at htold
    have hfits := hagrees.fits d
    rw [show a d = .reloaded changed from htold] at hfits
    exact hfits (id, n) hchanged
  have hagrees' : Agrees id n y.state a := ⟨hagrees.handoffs, hagrees.offers, hreached, hagrees.fits⟩
  -- from `y` on, every thread sees the host after `n` reconfigurations
  have hlocal : ∀ i, Ensures (seen id n) (Honestly fun _ => True) (fun _ _ => True) (y.left i) (a i) := by
    intro i
    exact ((hensures i).within fun _ _ _ _ => seen_zero).imp fun _ _ _ => trivial
  constructor
  · intro c hc
    obtain ⟨_, hz, -⟩ := hlater.rely (T := fun _ => seen id n) (G := fun _ => Honestly fun _ => True)
      (Q := fun _ _ _ => True) (R := Agrees id n) (fun i s a op r s' hR hg => agrees_step hR hg.1) hagrees' hlocal
    rw [hz.offers id c hc]
    exact hz.reached
  · intro q hq hstart c hcall
    -- the late exec also meets the obligation on its libpod calls
    have hlocal' : ∀ i, Ensures (seen id n)
        (Honestly fun op => i = q → ∀ c, op = .libpod id c → n ≤ c.target.epoch) (fun _ _ => True)
        (y.left i) (a i) := by
      intro i
      by_cases hi : i = q
      · subst hi
        rw [hstart, hq]
        refine (containerExec_ensures ?_ ?_ sv (a i)).map fun _ _ _ => trivial
        · intro op hop _ c hc
          exact absurd hc (hop id c)
        · intro c hlate _ c' hc'
          cases hc'
          exact hlate rfl
      · exact (hlocal i).mono (fun _ _ hg => ⟨hg.1, fun h => absurd h hi⟩) fun _ _ h => h
    obtain ⟨_, -, hensures'⟩ := hlater.rely (T := fun _ => seen id n)
      (G := fun i => Honestly fun op => i = q → ∀ c, op = .libpod id c → n ≤ c.target.epoch)
      (Q := fun _ _ _ => True) (R := Agrees id n) (fun i s a op r s' hR hg => agrees_step hR hg.1) hagrees' hlocal'
    exact ((hensures' q).next hcall).2 rfl c rfl

end Main

/-! ## A connection that is put back too late -/

def movedHost : Host :=
  { webHost with socket := "/run/moved.sock" }

inductive Caller where
  | early
  | reload
  | late
  | go (k : Nat)
  deriving DecidableEq

def callers : Caller → Request
  | .early => .exec "web"
  | .reload => .setHosts [movedHost]
  | .late => .exec "web"
  | .go _ => .goroutine

def unused : Pool clientCalls Caller Real Outcome :=
  waiting anyVersion (.idle (Hosts.empty.set webHost)) callers

/-- The early exec, up to its last libpod call, with a dial for the cache and one for itself. -/
def earlyTurns : List Caller :=
  [.early, .go 0, .go 0, .go 0, .early, .early, .early, .early, .early, .early, .early, .early,
    .go 1, .go 1, .go 1, .early, .early, .early, .early]

/-- The late exec, up to its first libpod call, over a connection that it finds in the slot. -/
def reusing : List Caller :=
  [.late, .go 2, .go 2, .go 2, .late, .late, .late, .late, .late, .late, .late]

/-- The late exec, up to its first libpod call, over a connection that it dials. -/
def dialing : List Caller :=
  [.go 3, .go 3] ++ reusing ++ [.late, .go 4, .go 4, .go 4, .late]

def reloaded (y : Pool clientCalls Caller Real Outcome) : Bool :=
  match (y.left .reload).returned with
  | some (.reconfigured changed) => changed == [("web", 1)]
  | _ => false

def runsOver (h : Host) (epoch : Nat) (y : Pool clientCalls Caller Real Outcome) : Bool :=
  match (y.left .late).next with
  | some (.libpod "web" c) => c.target == ⟨h, uriFor h, epoch⟩
  | _ => false

theorem reloaded_spec {y : Pool clientCalls Caller Real Outcome} (h : reloaded y = true) :
    y.left .reload = .ret (.reconfigured [("web", 1)]) := by
  unfold reloaded at h
  split at h
  · rename_i changed hret
    rw [Prog.returned_eq_some.1 hret, beq_iff_eq.1 h]
  · cases h

theorem runsOver_spec {h : Host} {epoch : Nat} {y : Pool clientCalls Caller Real Outcome}
    (htest : runsOver h epoch y = true) :
    ∃ c, (y.left .late).next = some (.libpod "web" c) ∧ c.target = ⟨h, uriFor h, epoch⟩ := by
  unfold runsOver at htest
  split at htest
  · rename_i c hnext
    exact ⟨c, hnext, beq_iff_eq.1 htest⟩
  · cases htest

/-- An exec runs while its host is re-addressed, and puts its connection back afterwards. All calls in flight at
the reload have returned, the slot holds a connection to the old socket, and a new exec runs over it. -/
theorem exec_over_stale_connection : ∃ t y t' z, Pool.Run clients unused t y ∧ Pool.Run clients y t' z ∧
    y.left .reload = .ret (.reconfigured [("web", 1)]) ∧
    (∀ i ∈ [Caller.early, .go 0, .go 1], (y.left i).returned.isSome = true) ∧
    (∃ c, y.state.execPool "web" = some c ∧ c.target.epoch < 1) ∧
    y.left .late = (callers .late).program anyVersion ∧
    ∃ c, (z.left .late).next = some (.libpod "web" c) ∧ c.target.epoch < 1 ∧
      hostConnEq c.target.host movedHost = false := by
  obtain ⟨t, y, t', z, hrun, hy, hwaits, hlater, hz⟩ := Pool.run_of_plays (S := clients)
    (fun _ _ op r _ => client_reply op r) (x := unused) (H := fun _ => Real.reply)
    (earlyTurns ++ [.reload, .reload, .early, .early]) reusing
    (fun y => reloaded y && [Caller.early, .go 0, .go 1].all (fun i => (y.left i).returned.isSome) &&
      (y.state.execPool "web").any fun c => c.target.epoch < 1)
    (runsOver webHost 0) (by decide +kernel)
  rw [Bool.and_eq_true, Bool.and_eq_true] at hy
  obtain ⟨⟨hreload, hreturned⟩, hslot⟩ := hy
  obtain ⟨slot, hslot, hold⟩ := (Option.any_eq_true _ _).1 hslot
  obtain ⟨c, hnext, htarget⟩ := runsOver_spec hz
  refine ⟨t, y, t', z, hrun, hlater, reloaded_spec hreload, List.all_eq_true.1 hreturned,
    ⟨slot, hslot, of_decide_eq_true hold⟩, hwaits .late (by decide), c, hnext, ?_, ?_⟩
  · rw [htarget]
    exact Nat.zero_lt_one
  · rw [htarget]
    decide

def putsCurrent (_ : Caller) (s : Real) : Op → Bool
  | .put id c => c.target.epoch == s.epoch id
  | _ => true

theorem putsCurrent_spec (i : Caller) (s : Real) (op : Op) (h : putsCurrent i s op = true) :
    PutsCurrent i s op := by
  rintro id c rfl
  exact beq_iff_eq.1 h

/-- The early exec is done before the reload; the late one dials the new socket. -/
theorem timely_exec_follows_setHosts : ∃ t y t' z c,
    Pool.Run (clients.when PutsCurrent) unused t y ∧ Pool.Run (clients.when PutsCurrent) y t' z ∧
    y.left .reload = .ret (.reconfigured [("web", 1)]) ∧
    (z.left .late).next = some (.libpod "web" c) ∧ 1 ≤ c.target.epoch := by
  obtain ⟨t, y, t', z, hrun, hy, hwaits, hlater, hz⟩ := Pool.run_of_plays
    (S := clients.when PutsCurrent) (x := unused) (H := Answers.only putsCurrent fun _ => Real.reply)
    (Answers.only_when (fun _ _ op r _ => client_reply op r) putsCurrent_spec)
    (earlyTurns ++ [.early, .early, .reload, .reload]) dialing reloaded (runsOver movedHost 1)
    (by decide +kernel)
  obtain ⟨c, hnext, -⟩ := runsOver_spec hz
  have hfollows := exec_follows_setHosts anyVersion [webHost] rfl callers hrun hlater (reloaded_spec hy)
    (List.mem_singleton_self _)
  exact ⟨t, y, t', z, c, hrun, hlater, reloaded_spec hy, hnext,
    hfollows.2 .late rfl (hwaits .late (by decide)) c hnext⟩

end ExecPool

end PodmanApi.Podman

/-
# PodmanApi.Podman.Connections — no connection is served after its host was re-addressed, and none is lost.

A dial of `real.go` ends after any number of reloads and evictions; `runDial` then publishes its connection or
closes it, and whoever removes a published one closes it too. `tallies` counts how often a connection was
dialed, published, removed and closed, and each thread answers for what it has in hand. `Kept` ties the cache,
the counts and the hands together, and every program empties its hands before it returns.
-/
import PodmanApi.Podman.Client

namespace PodmanApi.Podman

open GoStd Calls
open Function (update update_self update_of_ne update_eq_self)

/-! ## Counting what happens to a connection -/

/-- How often a connection was dialed, put into the cache, taken out of it and closed. -/
structure Tally where
  dialed : Nat := 0
  published : Nat := 0
  removed : Nat := 0
  closed : Nat := 0
  deriving DecidableEq, Repr

def Tally.after (c : Conn) (n : Tally) : (op : Op) → op.Ans → Tally
  | .dial _ _, .ok e => if e = c then { n with dialed := n.dialed + 1 } else n
  | .publish _ _ _ (.ok e), none => if e = c then { n with published := n.published + 1 } else n
  | .swap _, swapped => { n with removed := n.removed + swapped.dropped.count c }
  | .evict _ e, true => if e = c then { n with removed := n.removed + 1 } else n
  | .close e, _ => if e = c then { n with closed := n.closed + 1 } else n
  | _, _ => n

section Count

variable {ι : Type}

def tallied (w : Conn → Tally) (e : ι × Event clientCalls) : Conn → Tally :=
  fun c => (w c).after c e.2.1 e.2.2

def tallies (t : List (ι × Event clientCalls)) : Conn → Tally :=
  t.foldl tallied fun _ => {}

end Count

/-- Where a connection is, and in whose hands. -/
inductive Life (ι : Type) where
  | unborn
  | fresh (i : ι)
  | surplus (i : ι)
  | cached
  | dropped (i : ι)
  | discarded
  | retired

def Life.tally {ι : Type} : Life ι → Tally
  | unborn => {}
  | fresh _ => { dialed := 1 }
  | surplus _ => { dialed := 1 }
  | cached => { dialed := 1, published := 1 }
  | dropped _ => { dialed := 1, published := 1, removed := 1 }
  | discarded => { dialed := 1, closed := 1 }
  | retired => { dialed := 1, published := 1, removed := 1, closed := 1 }

/-! ## What a thread has in hand -/

/-- A connection that a thread has dialed, and those it has yet to close. -/
structure Hands where
  fresh : Option Conn := none
  closing : List Conn := []

def Hands.after (a : Hands) : (op : Op) → op.Ans → Hands
  | .dial _ false, .ok e => { a with fresh := some e }
  | .publish _ _ _ (.ok _), none => { a with fresh := none }
  | .publish _ _ _ (.ok e), some _ => { fresh := none, closing := e :: a.closing }
  | .swap _, swapped => { a with closing := swapped.dropped ++ a.closing }
  | .evict _ dead, true => { a with closing := dead :: a.closing }
  | .close e, _ => { a with closing := a.closing.erase e }
  | _, _ => a

def Plausible : (op : Op) → op.Ans → Prop
  | .dial target exec, .ok e => e.target = target ∧ e.exec = exec
  | .publish _ _ _ (.ok e), r => r = none ∨ r = some e
  | .publish _ _ _ (.error _), r => r = none
  | .awaitExec _, .done (.ok e) => e.exec = true
  | .take _, r => ∀ e, r = some e → e.exec = true
  | .settle _ _ _, r => ∀ e, r = some e → e.exec = true
  | .abandon _, r => ∀ e, r = some e → e.exec = true
  | .put _ _, r => ∀ e, r = some e → e.exec = true
  | .started, .close e => e.exec = true
  | .started, .dial id target _ => target.host.id = id
  | _, _ => True

def handed : Calls.Service clientCalls Hands := fun a op r b =>
  b = a.after op r ∧ Plausible op r

/-- What every thread guarantees: it publishes only the connection it has just dialed for that target, and closes
only what is in its hands or an exec's. -/
def Careful (a : Hands) : Op → Prop
  | .dial _ false => a.fresh = none
  | .publish id target _ (.ok e) => a.fresh = some e ∧ e.target = target ∧ target.host.id = id
  | .close e => e.exec = true ∨ e ∈ a.closing
  | .settle _ e _ => ∀ c, e = some c → c.exec = true
  | .put _ e => e.exec = true
  | _ => True

abbrev Handles {α : Type} (Q : Hands → α → Prop) (p : Prog clientCalls α) : Hands → Prop :=
  Ensures handed Careful Q p

/-! ## What the cache, the counts and the hands have to do with each other -/

variable {r : Option Conn} {d : Nat} {op : Op} {e : Conn} {id : String} {s s' : Real}

section Kept

variable {ι : Type}

/-- A connection is where its life says: its counts, the hands and the cache agree on it. -/
structure Placed (s : Real) (w : Conn → Tally) (a : ι → Hands) (c : Conn) (l : Life ι) : Prop where
  born : l ≠ .unborn → c.serial < s.made ∧ c.exec = false
  counted : c.exec = false → w c = l.tally
  fresh : ∀ i, (a i).fresh = some c ↔ l = .fresh i
  closing : ∀ i, c ∈ (a i).closing ↔ l = .surplus i ∨ l = .dropped i
  cached : ∀ id, s.ctx id = some c ↔ l = .cached ∧ c.target.host.id = id

/-- Every connection has its place, and those in the cache were dialed for the configuration as it stands. -/
structure Kept (s : Real) (w : Conn → Tally) (a : ι → Hands) : Prop where
  placed : ∀ c, ∃ l, Placed s w a c l
  nodup : ∀ i, (a i).closing.Nodup
  current : ∀ id c, s.ctx id = some c → hostStillMatches s.hosts id c.target.host = true

/-- Exec connections are kept apart, and a dial is started for the host it is named after. -/
structure Apart (s : Real) : Prop where
  slot : ∀ id c, s.execPool id = some c → c.exec = true
  handoff : ∀ d call c, s.execDials d = some call → call.entry = some c → c.exec = true
  closes : ∀ c, .close c ∈ s.launched → c.exec = true
  dials : ∀ id target d, .dial id target d ∈ s.launched → target.host.id = id

variable {s s' : Real} {w w' : Conn → Tally} {a : ι → Hands} {i : ι}

theorem kept_idle (m : Hosts) : Kept (ι := ι) (.idle m) (fun _ => {}) fun _ => {} where
  placed _ := ⟨.unborn, absurd rfl, fun _ => rfl, fun _ => ⟨nofun, nofun⟩, fun _ => ⟨nofun, fun h => h.elim nofun nofun⟩,
    fun _ => ⟨nofun, fun h => nomatch h.1⟩⟩
  nodup _ := List.nodup_nil
  current _ _ := nofun

theorem Kept.frame (h : Kept s w a) (hmade : s.made ≤ s'.made) (hctx : s'.ctx = s.ctx)
    (hhosts : s'.hosts = s.hosts) (hw : ∀ c, c.exec = false → w' c = w c) : Kept s' w' a where
  placed c := by
    obtain ⟨l, hl⟩ := h.placed c
    refine ⟨l, fun hborn => ?_, fun hc => (hw c hc).trans (hl.counted hc), hl.fresh, hl.closing, ?_⟩
    · exact ⟨(hl.born hborn).1.trans_le hmade, (hl.born hborn).2⟩
    · rw [hctx]
      exact hl.cached
  nodup := h.nodup
  current id c := by
    rw [hctx, hhosts]
    exact h.current id c

theorem nodup_swap_dropped (h : Kept s w a) (hosts : Hosts) : (s.swap hosts).1.dropped.Nodup := by
  let hit := s.hosts.list.filter fun h => s.repoints h.id hosts
  have hids : (hit.map Host.id).Nodup := s.hosts.nodup.sublist (List.filter_sublist.map Host.id)
  have hdropped : (s.swap hosts).1.dropped = (hit.map Host.id).filterMap s.ctx := by
    rw [List.filterMap_map, Real.swap]
    rfl
  rw [hdropped]
  refine hids.filterMap ?_
  intro id₁ id₂ c hc₁ hc₂
  obtain ⟨l, hl⟩ := h.placed c
  rw [← ((hl.cached id₁).1 hc₁).2, ((hl.cached id₂).1 hc₂).2]

variable [DecidableEq ι]

theorem kept_dial (h : Kept s w a) (hfresh : (a i).fresh = none) (hserial : e.serial = s.made)
    (hexec : e.exec = false) :
    Kept { s with made := s.made + 1 } (fun c => if e = c then { w c with dialed := (w c).dialed + 1 } else w c)
      (update a i { a i with fresh := some e }) := by
  have hunborn : ∀ l, Placed s w a e l → l = .unborn := by
    intro l hl
    by_contra hborn
    have := (hl.born hborn).1
    omega
  refine ⟨fun c => ?_, fun j => ?_, h.current⟩
  · obtain ⟨l, hl⟩ := h.placed c
    by_cases hce : e = c
    · subst hce
      obtain rfl := hunborn l hl
      refine ⟨.fresh i, ?_⟩
      constructor <;> grind [Placed, Life.tally]
    · refine ⟨l, ?_⟩
      constructor <;> grind [Placed]
  · have := h.nodup j
    grind

theorem kept_publish (h : Kept s w a) (hfresh : (a i).fresh = some e)
    (hid : e.target.host.id = id) (hctx : s.ctx id = none)
    (hmatch : hostStillMatches s.hosts id e.target.host = true) (hmade : s'.made = s.made)
    (hhosts : s'.hosts = s.hosts) (hctx' : s'.ctx = update s.ctx id (some e)) :
    Kept s' (fun c => if e = c then { w c with published := (w c).published + 1 } else w c)
      (update a i { a i with fresh := none }) := by
  have hctxAt := congrFun hctx'
  refine ⟨fun c => ?_, fun j => ?_, fun id' c hc => ?_⟩
  · obtain ⟨l, hl⟩ := h.placed c
    by_cases hce : e = c
    · subst hce
      obtain rfl : l = .fresh i := (hl.fresh i).1 hfresh
      refine ⟨.cached, ?_⟩
      constructor <;> grind [Placed, Life.tally]
    · refine ⟨l, ?_⟩
      constructor <;> grind [Placed]
  · have := h.nodup j
    grind
  · rw [hctx'] at hc
    rw [hhosts]
    rcases update_cases hc with ⟨rfl, hnew⟩ | ⟨-, hold⟩
    · exact Option.some.inj hnew ▸ hmatch
    · exact h.current id' c hold

theorem kept_surplus (h : Kept s w a) (hfresh : (a i).fresh = some e) :
    Kept s w (update a i { fresh := none, closing := e :: (a i).closing }) := by
  have hnew : e ∉ (a i).closing := by
    intro hmem
    obtain ⟨l, hl⟩ := h.placed e
    rw [(hl.fresh i).1 hfresh] at hl
    have := (hl.closing i).1 hmem
    simp at this
  refine ⟨fun c => ?_, fun j => ?_, h.current⟩
  · obtain ⟨l, hl⟩ := h.placed c
    by_cases hce : e = c
    · subst hce
      obtain rfl : l = .fresh i := (hl.fresh i).1 hfresh
      refine ⟨.surplus i, ?_⟩
      constructor <;> grind [Placed, Life.tally]
    · refine ⟨l, ?_⟩
      constructor <;> grind [Placed]
  · have := h.nodup j
    grind

theorem kept_close (h : Kept s w a) (hmem : e ∈ (a i).closing) :
    Kept s (fun c => if e = c then { w c with closed := (w c).closed + 1 } else w c)
      (update a i { a i with closing := (a i).closing.erase e }) := by
  have hgone : e ∉ (a i).closing.erase e := (h.nodup i).not_mem_erase
  refine ⟨fun c => ?_, fun j => ?_, h.current⟩
  · obtain ⟨l, hl⟩ := h.placed c
    by_cases hce : e = c
    · subst hce
      rcases (hl.closing i).1 hmem with rfl | rfl
      · refine ⟨.discarded, ?_⟩
        constructor <;> grind [Placed, Life.tally]
      · refine ⟨.retired, ?_⟩
        constructor <;> grind [Placed, Life.tally]
    · refine ⟨l, ?_⟩
      constructor <;> grind [Placed]
  · by_cases hj : j = i
    · subst hj
      rw [update_self]
      exact (h.nodup j).erase e
    · rw [update_of_ne hj]
      exact h.nodup j

theorem kept_drop (gone : String → Bool) {ds : List Conn} (h : Kept s w a) (hnodup : ds.Nodup)
    (hds : ∀ c, c ∈ ds ↔ ∃ id, gone id = true ∧ s.ctx id = some c) (hmade : s'.made = s.made)
    (hctx : s'.ctx = fun id => if gone id then none else s.ctx id)
    (hmatch : ∀ id c, gone id = false → s.ctx id = some c → hostStillMatches s'.hosts id c.target.host = true) :
    Kept s' (fun c => { w c with removed := (w c).removed + ds.count c })
      (update a i { a i with closing := ds ++ (a i).closing }) := by
  have hctxAt := congrFun hctx
  have hcached : ∀ c ∈ ds, Placed s w a c .cached ∧ gone c.target.host.id = true := by
    intro c hc
    obtain ⟨id, hgone, hid⟩ := (hds c).1 hc
    obtain ⟨l, hl⟩ := h.placed c
    obtain ⟨rfl, rfl⟩ := (hl.cached id).1 hid
    exact ⟨hl, hgone⟩
  refine ⟨fun c => ?_, fun j => ?_, fun id c hc => ?_⟩
  · by_cases hc : c ∈ ds
    · obtain ⟨hl, hgone⟩ := hcached c hc
      have hcount : ds.count c = 1 := List.count_eq_one_of_mem hnodup hc
      refine ⟨.dropped i, ?_⟩
      constructor <;> grind [Placed, Life.tally]
    · obtain ⟨l, hl⟩ := h.placed c
      have hcount : { w c with removed := (w c).removed + ds.count c } = w c := by
        rw [List.count_eq_zero_of_not_mem hc]
        rfl
      have hkept : ∀ id, gone id = true → s.ctx id ≠ some c := by
        intro id hgone hid
        exact hc ((hds c).2 ⟨id, hgone, hid⟩)
      refine ⟨l, ?_⟩
      constructor <;> grind [Placed]
  · by_cases hj : j = i
    · subst hj
      rw [update_self]
      refine List.nodup_append.2 ⟨hnodup, h.nodup j, ?_⟩
      rintro c hc _ hclosing rfl
      have := ((hcached c hc).1.closing j).1 hclosing
      simp at this
    · rw [update_of_ne hj]
      exact h.nodup j
  · rw [hctx] at hc
    dsimp only at hc
    split at hc
    · cases hc
    · rename_i hkeep
      exact hmatch id c (by simpa using hkeep) hc

theorem kept_swap {hosts : Hosts} (h : Kept s w a) :
    Kept (s.swap hosts).2 (fun c => { w c with removed := (w c).removed + (s.swap hosts).1.dropped.count c })
      (update a i { a i with closing := (s.swap hosts).1.dropped ++ (a i).closing }) := by
  refine kept_drop (fun id => s.repoints id hosts) h (nodup_swap_dropped h hosts)
    (fun c => mem_swap_dropped) rfl rfl ?_
  -- a host that is not re-addressed keeps the parameters its connection was dialed with
  intro id c hkeep hctx
  obtain ⟨cur, hcur, hdialed⟩ := hostStillMatches_iff.1 (h.current id c hctx)
  obtain ⟨new, hnew, hsame⟩ := get_of_not_repoints hcur hkeep
  exact hostStillMatches_iff.2 ⟨new, hnew, hostConnEq_trans (hostConnEq_symm hsame) hdialed⟩

theorem kept_evict {dead : Conn} (h : Kept s w a) (hctx : s.ctx id = some dead)
    (hmade : s'.made = s.made) (hhosts : s'.hosts = s.hosts) (hctx' : s'.ctx = update s.ctx id none) :
    Kept s' (fun c => if dead = c then { w c with removed := (w c).removed + 1 } else w c)
      (update a i { a i with closing := dead :: (a i).closing }) := by
  have hdrop : Kept s' (fun c => { w c with removed := (w c).removed + [dead].count c })
      (update a i { a i with closing := [dead] ++ (a i).closing }) := by
    refine kept_drop (fun id' => id' == id) h (List.nodup_singleton dead) ?_ hmade ?_ ?_
    · intro c
      simp only [List.mem_singleton, beq_iff_eq, exists_eq_left, hctx, Option.some.injEq]
      exact eq_comm
    · rw [hctx']
      funext id'
      by_cases hid : id' = id <;> simp [hid]
    · intro id' c _ hc
      rw [hhosts]
      exact h.current id' c hc
  have hcount : (fun c => { w c with removed := (w c).removed + [dead].count c }) =
      fun c => if dead = c then { w c with removed := (w c).removed + 1 } else w c := by
    funext c
    by_cases hc : dead = c <;> simp [hc]
  rwa [hcount] at hdrop

end Kept

section Apart

variable {s s' : Real} {id : String}

theorem apart_idle (m : Hosts) : Apart (.idle m) where
  slot _ _ h := by cases h
  handoff _ _ _ h := by cases h
  closes _ h := by cases h
  dials _ _ _ h := by cases h

theorem apart_lookup {r : Found} (h : Apart s) (hr : s.lookup id = (r, s')) : Apart s' := by
  obtain rfl | ⟨host, hhost, hres⟩ := lookup_effect hr
  · exact h
  · cases hres
    refine ⟨h.slot, h.handoff, fun c hc => ?_, fun id' target d hd => ?_⟩
    · exact h.closes c (by simpa using hc)
    · rcases List.mem_append.1 hd with hold | hnew
      · exact h.dials id' target d hold
      · cases List.mem_singleton.1 hnew
        exact Hosts.get_id hhost

theorem apart_swap {hosts : Hosts} (h : Apart s) : Apart (s.swap hosts).2 := by
  refine ⟨fun id c hc => ?_, h.handoff, fun c hc => ?_, fun id target d hd => ?_⟩
  · simp only [Real.swap] at hc
    split at hc
    · cases hc
    · exact h.slot id c hc
  · simp only [Real.swap, List.mem_append, List.mem_map, List.mem_filterMap] at hc
    rcases hc with hold | ⟨e, ⟨host, -, he⟩, hec⟩
    · exact h.closes c hold
    · cases hec
      exact h.slot host.id c he
  · simp only [Real.swap, List.mem_append, List.mem_map] at hd
    rcases hd with hold | ⟨e, -, he⟩
    · exact h.dials id target d hold
    · cases he

theorem apart_setExecDial {call : ExecDial} (h : Apart s)
    (hcall : ∀ c, call.entry = some c → c.exec = true) : Apart (s.setExecDial d call) := by
  refine ⟨h.slot, fun d' call' c hd hc => ?_, h.closes, h.dials⟩
  rcases update_cases hd with ⟨-, hnew⟩ | ⟨-, hold⟩
  · cases hnew
    exact hcall c hc
  · exact h.handoff d' call' c hold hc

theorem apart_settle {e : Option Conn} {err : Option Error} (h : Apart s)
    (he : ∀ c, e = some c → c.exec = true) (hr : s.settle d e err = (r, s')) :
    (∀ c, r = some c → c.exec = true) ∧ Apart s' := by
  unfold Real.settle at hr
  split at hr
  · cases hr
    exact ⟨nofun, h⟩
  · split at hr
    · cases hr
      exact ⟨he, h⟩
    · cases hr
      exact ⟨nofun, apart_setExecDial h he⟩

theorem apart_abandon (h : Apart s) (hr : s.abandon d = (r, s')) :
    (∀ c, r = some c → c.exec = true) ∧ Apart s' := by
  unfold Real.abandon at hr
  split at hr
  · cases hr
    exact ⟨nofun, h⟩
  · rename_i call hcall
    split at hr
    · cases hr
      exact ⟨fun c hc => h.handoff d call c hcall hc, apart_setExecDial h nofun⟩
    · cases hr
      exact ⟨nofun, apart_setExecDial h fun c hc => h.handoff d call c hcall hc⟩

theorem apart_step {a : Hands} {r : op.Ans} (h : Apart s) (hg : Careful a op)
    (hr : client s op r s') : Apart s' := by
  cases op with
  | lookup id => exact apart_lookup h hr
  | swap hosts =>
    obtain ⟨-, rfl⟩ := Prod.ext_iff.1 hr
    exact apart_swap h
  | take id =>
    cases hr
    refine ⟨fun id' c hc => ?_, h.handoff, h.closes, h.dials⟩
    rcases update_cases hc with ⟨-, hnone⟩ | ⟨-, hold⟩
    · cases hnone
    · exact h.slot id' c hold
  | put id e =>
    cases hr
    refine ⟨fun id' c hc => ?_, h.handoff, h.closes, h.dials⟩
    rcases update_cases hc with ⟨-, hnew⟩ | ⟨-, hold⟩
    · exact Option.some.inj hnew ▸ hg
    · exact h.slot id' c hold
  | startExecDial id target =>
    cases hr
    refine ⟨h.slot, fun d call c hd hc => ?_, fun c hc => ?_, fun id' target' d hd => ?_⟩
    · rcases update_cases hd with ⟨-, hnew⟩ | ⟨-, hold⟩
      · cases hnew
        cases hc
      · exact h.handoff d call c hold hc
    · exact h.closes c (by simpa using hc)
    · exact h.dials id' target' d (by simpa using hd)
  | settle d e err => exact (apart_settle h hg hr).2
  | abandon d => exact (apart_abandon h hr).2
  | started =>
    obtain ⟨-, rfl⟩ := hr
    refine ⟨h.slot, h.handoff, fun c hc => ?_, fun id target d hd => ?_⟩
    · exact h.closes c (List.mem_of_mem_erase hc)
    · exact h.dials id target d (List.mem_of_mem_erase hd)
  | _ =>
    have hpool : s'.execPool = s.execPool := client_same (f := .execPool) hr rfl
    have hdials : s'.execDials = s.execDials := client_same (f := .execDials) hr rfl
    have hlaunched : s'.launched = s.launched := client_same (f := .launched) hr rfl
    refine ⟨?_, ?_, ?_, ?_⟩
    · rw [hpool]
      exact h.slot
    · rw [hdials]
      exact h.handoff
    · rw [hlaunched]
      exact h.closes
    · rw [hlaunched]
      exact h.dials

end Apart

theorem plausible_step {a : Hands} {r : op.Ans} (h : Apart s) (hg : Careful a op)
    (hr : client s op r s') : Plausible op r := by
  cases op with
  | dial target exec =>
    cases r with
    | error err => trivial
    | ok e => exact ⟨hr.1.2.1, hr.1.2.2⟩
  | publish id target d result =>
    cases result with
    | error err =>
      cases hr
      rfl
    | ok e =>
      rcases publish_cases hr with ⟨rfl, -⟩ | ⟨rfl, -⟩
      · exact .inr rfl
      · exact .inl rfl
  | take id | put id e =>
    cases hr
    exact h.slot id
  | awaitExec d =>
    rcases r with (err | e) | _ | _
    · trivial
    · obtain ⟨-, call, hcall, hreads⟩ := hr
      exact h.handoff d call e hcall hreads.2.2
    · trivial
    · trivial
  | settle d e err => exact (apart_settle h hg hr).1
  | abandon d => exact (apart_abandon h hr).1
  | started =>
    cases r with
    | dial id target d => exact h.dials id target d hr.1
    | execDial id target d => trivial
    | close e => exact h.closes e hr.1
  | _ => trivial

section Step

variable {ι : Type} [DecidableEq ι] {a : ι → Hands} {i : ι}

variable {w : Conn → Tally}

theorem kept_runDial {target : Target} {result : Except Error Conn} (h : Kept s w a)
    (hg : Careful (a i) (.publish id target d result)) (hr : s.publish id target d result = (r, s')) :
    Kept s' (fun c => (w c).after c (.publish id target d result) r)
      (update a i ((a i).after (.publish id target d result) r)) := by
  cases result with
  | error err =>
    cases hr
    have hsame : (a i).after (.publish id target d (.error err)) none = a i := rfl
    rw [hsame, update_eq_self]
    exact h.frame le_rfl rfl rfl fun _ _ => rfl
  | ok e =>
    obtain ⟨hfresh, rfl, hid⟩ := hg
    rcases publish_cases hr with ⟨rfl, hs'⟩ | ⟨rfl, hctx, hmatch, rfl⟩
    · have hframe : s'.made = s.made ∧ s'.ctx = s.ctx ∧ s'.hosts = s.hosts := by
        rcases hs' with ⟨cached, -, -, rfl⟩ | ⟨err, rfl⟩ <;> exact ⟨rfl, rfl, rfl⟩
      exact (kept_surplus h hfresh).frame hframe.1.ge hframe.2.1 hframe.2.2 fun _ _ => rfl
    · exact kept_publish h hfresh hid hctx hmatch rfl rfl rfl

theorem kept_step {r : op.Ans} (hkept : Kept s w a) (hg : Careful (a i) op) (hr : client s op r s') :
    Kept s' (fun c => (w c).after c op r) (update a i ((a i).after op r)) := by
  -- a call that moves no connection
  have hquiet : (a i).after op r = a i → s.made ≤ s'.made → op.writes.contains .ctx = false → op.writes.contains .hosts = false →
      (∀ c, c.exec = false → (w c).after c op r = w c) →
      Kept s' (fun c => (w c).after c op r) (update a i ((a i).after op r)) := by
    intro hands hmade hctx hhosts hw
    rw [hands, update_eq_self]
    exact hkept.frame hmade (client_same hr hctx) (client_same hr hhosts) hw
  have hmade : op.writes.contains .made = false → s.made ≤ s'.made := fun h => (client_same hr h).ge
  cases op with
  | dial target exec =>
    cases r with
    | error err =>
      obtain rfl : s' = s := hr
      refine hquiet ?_ le_rfl rfl rfl fun _ _ => rfl
      cases exec <;> rfl
    | ok e =>
      obtain ⟨⟨hserial, rfl, rfl⟩, rfl⟩ := hr
      cases hexec : e.exec with
      | false =>
        rw [hexec] at hg
        exact kept_dial hkept hg hserial hexec
      | true =>
        rw [hexec] at hquiet
        refine hquiet rfl (Nat.le_succ _) rfl rfl ?_
        intro c hc
        have hne : e ≠ c := by
          rintro rfl
          rw [hexec] at hc
          cases hc
        exact if_neg hne
  | publish id target d result => exact kept_runDial hkept hg hr
  | close e =>
    by_cases hmem : e ∈ (a i).closing
    · obtain rfl : s' = s := hr
      exact kept_close hkept hmem
    · have hexec : e.exec = true := hg.resolve_right hmem
      refine hquiet ?_ (hmade rfl) rfl rfl ?_
      · show { a i with closing := (a i).closing.erase e } = a i
        rw [List.erase_of_not_mem hmem]
      · intro c hc
        have hne : e ≠ c := by
          rintro rfl
          rw [hexec] at hc
          cases hc
        exact if_neg hne
  | swap hosts =>
    obtain ⟨rfl, rfl⟩ := Prod.ext_iff.1 hr
    exact kept_swap hkept
  | evict id dead =>
    rcases evict_cases hr with ⟨rfl, hctx, rfl⟩ | ⟨rfl, rfl⟩
    · exact kept_evict hkept hctx rfl rfl rfl
    · have hsame : update a i ((a i).after (.evict id dead) false) = a := update_eq_self i a
      rw [hsame]
      exact hkept
  | _ => exact hquiet rfl (hmade rfl) rfl rfl fun _ _ => rfl

/-- The cache, the counts and the hands agree, and exec connections are apart. -/
def Orderly (s : Real) (w : Conn → Tally) (a : ι → Hands) : Prop :=
  Kept s w a ∧ Apart s

theorem orderly_step {r : op.Ans} (h : Orderly s w a) (hg : Careful (a i) op) (hr : client s op r s') :
    ∃ b, handed (a i) op r b ∧ Orderly s' (tallied w (i, ⟨op, r⟩)) (update a i b) := by
  exact ⟨_, ⟨rfl, plausible_step h.2 hg hr⟩, kept_step h.1 hg hr, apart_step h.2 hg hr⟩

end Step

/-! ## Every program empties its hands -/

section Local

/-- The calls that leave a thread's hands alone whatever they are answered. -/
def Still : Op → Prop
  | .lookup _ | .await _ | .isVerified _ | .probe _ _ | .markVerified _ | .libpod _ _ | .inspect _ _ | .now => True
  | _ => False

theorem still_ensures {α : Type} {p : Prog clientCalls α} (hp : p.Issues Still) (a : Hands) :
    Handles (fun b _ => b = a) p a := by
  refine hp.ensures (fun b op r b' hop hb hr => ?_) (fun b op hop _ => ?_) rfl
  · obtain ⟨rfl, -⟩ := hr
    subst hb
    cases op <;> first | rfl | cases hop
  · cases op <;> trivial

theorem entryFor_still (id : String) : (entryFor id).run.Issues Still :=
  entryFor_issues trivial fun _ => trivial

theorem ensureVerified_still (sv : Semver) (e : Conn) (id : String) : (ensureVerified sv e id).run.Issues Still :=
  ensureVerified_issues trivial trivial trivial

theorem libpodCalls_still (id : String) (e : Conn) (n : Nat) : (libpodCalls id e n).run.Issues Still :=
  libpodCalls_issues n trivial

theorem closeAll_held (cs : List Conn) : Handles (fun b _ => b = {}) (closeAll cs) { closing := cs } := by
  induction cs with
  | nil => exact ensures_ret.2 rfl
  | cons c cs ih =>
    refine ensures_issue_bind (Op.close c) (.inr List.mem_cons_self) fun _ b hb => ?_
    obtain rfl : b = { closing := cs } := by
      rw [hb.1]
      simp [Hands.after]
    exact ih

theorem closeAll_exec (cs : List Conn) (hcs : ∀ c ∈ cs, c.exec = true) :
    Handles (fun b _ => b = {}) (closeAll cs) {} := by
  induction cs with
  | nil => exact ensures_ret.2 rfl
  | cons c cs ih =>
    refine ensures_issue_bind (Op.close c) (.inl (hcs c List.mem_cons_self)) fun _ b hb => ?_
    obtain rfl : b = {} := hb.1
    exact ih fun c' hc' => hcs c' (List.mem_cons_of_mem c hc')

theorem closeAll_option (r : Option Conn) (hr : ∀ c, r = some c → c.exec = true) :
    Handles (fun b _ => b = {}) (closeAll r.toList) {} :=
  closeAll_exec r.toList fun c hc => hr c (by simpa using hc)

theorem runDial_ensures {target : Target} (d : Nat) (hid : target.host.id = id) :
    Handles (fun b _ => b = {}) (runDial id target d) {} := by
  refine ensures_issue_bind (Op.dial target false) rfl fun result b hb => ?_
  obtain ⟨rfl, hplausible⟩ := hb
  cases result with
  | error err =>
    refine ensures_issue_bind (Op.publish id target d (.error err)) trivial fun r b hb => ?_
    obtain ⟨rfl, rfl⟩ := hb
    exact ensures_ret.2 rfl
  | ok e =>
    refine ensures_issue_bind (Op.publish id target d (.ok e)) ⟨rfl, hplausible.1, hid⟩ fun r b hb => ?_
    obtain ⟨rfl, rfl | rfl⟩ := hb
    · exact ensures_ret.2 rfl
    · exact closeAll_held [e]

theorem runExecDial_ensures (id : String) (target : Target) (d : Nat) :
    Handles (fun b _ => b = {}) (runExecDial id target d) {} := by
  refine ensures_issue_bind (Op.dial target true) trivial fun result b hb => ?_
  cases result with
  | error err =>
    obtain rfl : b = {} := hb.1
    refine ensures_issue_bind (Op.settle d none (some (connectError id err))) nofun fun r b hb => ?_
    obtain ⟨rfl, hr⟩ := hb
    exact closeAll_option r hr
  | ok e =>
    obtain ⟨rfl, -, hexec⟩ := hb
    refine ensures_issue_bind (Op.settle d (some e) none) ?_ fun r b hb => ?_
    · intro c hc
      exact Option.some.inj hc ▸ hexec
    · obtain ⟨rfl, hr⟩ := hb
      exact closeAll_option r hr

theorem abandonExecDial_ensures (d : Nat) (gaveUp : Error) :
    Handles (fun b r => b = {} ∧ ∀ e, r = .ok e → e.exec = true) (abandonExecDial d gaveUp).run {} := by
  refine ensures_ask (.abandon d) trivial fun surplus b hb => ?_
  obtain ⟨rfl, hsurplus⟩ := hb
  refine (closeAll_option surplus hsurplus).embedThen fun b _ hb => ?_
  exact ensures_throw.2 ⟨hb, nofun⟩

theorem awaitExecDial_ensures (id : String) (d : Nat) : Handles (fun b r => b = {} ∧ ∀ e, r = .ok e → e.exec = true)
      (awaitExecDial id d).run {} := by
  refine ensures_ask (.awaitExec d) trivial fun r b hb => ?_
  obtain ⟨rfl, hplausible⟩ := hb
  cases r with
  | done outcome =>
    refine ensures_ret.2 ⟨rfl, ?_⟩
    rintro e rfl
    exact hplausible
  | timeout | cancelled => exact abandonExecDial_ensures d _

theorem takeExecConn_ensures (id : String) (now : Time) :
    Handles (fun b r => b = {} ∧ ∀ e, r = some e → e.exec = true) (takeExecConn id now) {} := by
  refine ensures_issue_bind (Op.take id) trivial fun r b hb => ?_
  obtain ⟨rfl, hr⟩ := hb
  cases r with
  | none => exact ensures_ret.2 ⟨rfl, nofun⟩
  | some e =>
    dsimp only
    split
    · refine (closeAll_exec [e] ?_).bind fun b _ hb => ?_
      · simpa using hr e rfl
      · exact ensures_ret.2 ⟨hb, nofun⟩
    · exact ensures_ret.2 ⟨rfl, hr⟩

theorem execConnFor_ensures (id : String) :
    Handles (fun b r => b = {} ∧ ∀ e, r = .ok e → e.exec = true) (execConnFor id).run {} := by
  refine ensures_ask (.resolve id) trivial fun r b hb => ?_
  obtain ⟨rfl, -⟩ := hb
  cases r with
  | none => exact ensures_throw.2 ⟨rfl, nofun⟩
  | some target =>
    refine ensures_ask .now trivial fun now b hb => ?_
    obtain ⟨rfl, -⟩ := hb
    refine (takeExecConn_ensures id now).embedThen ?_
    rintro b taken ⟨rfl, htaken⟩
    cases taken with
    | some e =>
      refine ensures_pure.2 ⟨rfl, fun e' he => ?_⟩
      exact htaken e' (congrArg some (Except.ok.inj he))
    | none =>
      refine ensures_ask (.startExecDial id target) trivial fun d b hb => ?_
      obtain ⟨rfl, -⟩ := hb
      exact awaitExecDial_ensures id d

theorem putExecConn_ensures (id : String) (keep : Bool) (now : Time) (he : e.exec = true) :
    Handles (fun b _ => b = {}) (putExecConn id e keep now) {} := by
  unfold putExecConn
  split
  · exact closeAll_exec [e] (by simpa using he)
  · refine ensures_issue_bind (Op.put id e) he fun displaced b hb => ?_
    obtain ⟨rfl, hdisplaced⟩ := hb
    exact closeAll_option displaced hdisplaced

theorem containerExec_ensures (sv : Semver) (id : String) :
    Handles (fun b _ => b = {}) (containerExec sv id).run {} := by
  refine (still_ensures (entryFor_still id) {}).andThen (fun _ _ hb => hb) ?_
  rintro _ primary rfl
  refine (still_ensures (ensureVerified_still sv primary id) {}).andThen (fun _ _ hb => hb) ?_
  rintro _ _ rfl
  refine (execConnFor_ensures id).andThen (fun _ _ hb => hb.1) ?_
  rintro _ conn ⟨rfl, hexec⟩
  refine (still_ensures (libpodCalls_still id conn 3) {}).attemptThen ?_
  rintro _ result rfl
  refine ensures_ask .now trivial fun now b hb => ?_
  obtain ⟨rfl, -⟩ := hb
  refine (putExecConn_ensures id result.toBool now (hexec conn rfl)).embedThen ?_
  rintro _ _ rfl
  exact ensures_ret.2 rfl

theorem goroutine_ensures : Handles (fun b _ => b = {}) goroutine {} := by
  refine ensures_issue_bind Op.started trivial fun task b hb => ?_
  obtain ⟨rfl, hplausible⟩ := hb
  cases task with
  | dial id target d => exact runDial_ensures d hplausible
  | execDial id target d => exact runExecDial_ensures id target d
  | close e => exact closeAll_exec [e] (List.forall_mem_singleton.2 hplausible)

theorem setHosts_ensures (hosts : List Host) : Handles (fun b _ => b = {}) (setHosts hosts) {} := by
  refine ensures_issue_bind (Op.swap hosts) trivial fun swapped b hb => ?_
  obtain ⟨rfl, -⟩ := hb
  refine ensures_bind.2 ?_
  show Handles _ (closeAll swapped.dropped) { closing := swapped.dropped ++ [] }
  rw [List.append_nil]
  exact (closeAll_held swapped.dropped).imp fun _ _ hb => ensures_ret.2 hb

theorem invalidateConn_ensures (id : String) (dead : Conn) :
    Handles (fun b _ => b = {}) (invalidateConn id dead) {} := by
  refine ensures_issue_bind (Op.evict id dead) trivial fun evicted b hb => ?_
  obtain ⟨rfl, -⟩ := hb
  cases evicted with
  | true => exact closeAll_held [dead]
  | false => exact ensures_ret.2 rfl

theorem program_ensures (sv : Semver) (q : Request) : Handles (fun b _ => b = {}) (q.program sv) {} := by
  cases q with
  | operation id calls =>
    have hstill : (operation sv id calls).run.Issues Still :=
      (entryFor_still id).andThen fun e => (ensureVerified_still sv e id).andThen fun _ =>
        libpodCalls_still id e calls
    exact (still_ensures hstill {}).map fun _ _ hb => hb
  | wait id n =>
    have hstill : (waitForPodCompletion sv id n).run.Issues Still :=
      (entryFor_still id).andThen fun e => (ensureVerified_still sv e id).andThen fun _ =>
        polls_issues n trivial (fun _ => trivial) fun _ => trivial
    exact (still_ensures hstill {}).map fun _ _ hb => hb
  | exec id => exact (containerExec_ensures sv id).map fun _ _ hb => hb
  | diagnose id =>
    have hstill : (diagnose id).run.Issues Still :=
      (entryFor_still id).andThen fun e => issues_perform.2 trivial
    exact (still_ensures hstill {}).map fun _ _ hb => hb
  | preflight id =>
    have hstill : (preflightHost sv id).run.Issues Still :=
      preflightHost_issues trivial (fun _ => trivial) (fun _ => trivial) trivial
    exact (still_ensures hstill {}).map fun _ _ hb => hb
  | setHosts hosts => exact (setHosts_ensures hosts).map fun _ _ hb => hb
  | invalidate id dead =>
    exact (invalidateConn_ensures id dead).map fun _ _ hb => hb
  | goroutine => exact goroutine_ensures.map fun _ _ hb => hb

end Local

section Main

variable {ι : Type} [DecidableEq ι]

/-- Where a dialed connection is: in the cache for its host, closed after it was taken out, closed without ever
having been in it, or on its way. -/
inductive Whereabouts (y : Pool clientCalls ι Real Outcome) (c : Conn) : Tally → Prop where
  | serving (hctx : y.state.ctx c.target.host.id = some c) :
      Whereabouts y c { dialed := 1, published := 1 }
  | retired : Whereabouts y c { dialed := 1, published := 1, removed := 1, closed := 1 }
  | discarded : Whereabouts y c { dialed := 1, closed := 1 }
  | dropped {i : ι} (hbusy : (y.left i).returned = none) :
      Whereabouts y c { dialed := 1, published := 1, removed := 1 }
  | dialed {i : ι} (hbusy : (y.left i).returned = none) : Whereabouts y c { dialed := 1 }

/-- In every state of every interleaving, what the cache has for a host was dialed with its configured parameters,
was published once and has not been removed or closed; and every connection dialed for the cache is served by it,
or is closed once, or a thread that has not returned is about to see to it. -/
theorem connections_kept (sv : Semver) (requests : ι → Request) (hosts : List Host) {r : Real}
    (hnew : newReal hosts = .ok r) {t : List (ι × Event clientCalls)} {y : Pool clientCalls ι Real Outcome}
    (hrun : Pool.Run clients (waiting sv r requests) t y) :
    (∀ id c, y.state.ctx id = some c → hostStillMatches y.state.hosts id c.target.host = true ∧
      tallies t c = { dialed := 1, published := 1 }) ∧
    ∀ c, c.exec = false → 0 < (tallies t c).dialed → Whereabouts y c (tallies t c) := by
  obtain ⟨m, rfl⟩ := newReal_idle hnew
  have hlogged := hrun.logged tallied fun _ => {}
  obtain ⟨a, ⟨hkept, -⟩, hensures⟩ := hlogged.rely (T := fun _ => handed) (G := fun _ => Careful)
    (Q := fun _ b _ => b = {}) (R := fun s => Orderly s.1 s.2)
    (fun i s a op r s' hR hg hr => hr.2 ▸ orderly_step hR hg hr.1) (a := fun _ => {})
    ⟨kept_idle m, apart_idle m⟩ (fun i => program_ensures sv (requests i))
  -- a thread with something in hand has not returned
  have hbusy : ∀ i, a i ≠ {} → (y.left i).returned = none := by
    intro i hhands
    by_contra hret
    obtain ⟨o, ho⟩ := Option.ne_none_iff_exists'.1 hret
    have hend := hensures i
    rw [Prog.returned_eq_some.1 ho, ensures_ret] at hend
    exact hhands hend
  constructor
  · intro id c hctx
    obtain ⟨l, hl⟩ := hkept.placed c
    obtain ⟨rfl, -⟩ := (hl.cached id).1 hctx
    exact ⟨hkept.current id c hctx, hl.counted (hl.born nofun).2⟩
  · intro c hprimary hdialed
    obtain ⟨l, hl⟩ := hkept.placed c
    have hcount : tallies t c = l.tally := hl.counted hprimary
    rw [hcount] at hdialed ⊢
    cases l with
    | unborn => cases hdialed
    | cached => exact .serving ((hl.cached _).2 ⟨rfl, rfl⟩)
    | discarded => exact .discarded
    | retired => exact .retired
    | fresh i =>
      refine .dialed (hbusy i fun hempty => ?_)
      have := (hl.fresh i).2 rfl
      rw [hempty] at this
      cases this
    | surplus i =>
      refine .dialed (hbusy i fun hempty => ?_)
      have := (hl.closing i).2 (.inl rfl)
      rw [hempty] at this
      cases this
    | dropped i =>
      refine .dropped (hbusy i fun hempty => ?_)
      have := (hl.closing i).2 (.inr rfl)
      rw [hempty] at this
      cases this

end Main

def webHost : Host :=
  ⟨"web", "unix", "/run/podman.sock", "", false⟩

def anyVersion : Semver :=
  ⟨fun _ => true, fun _ => false⟩

def firstUse : Bool → Request
  | false => .operation "web" 1
  | true => .goroutine

/-- The connection that a first use leaves in the cache. -/
theorem first_use_kept : ∃ t y c,
    Pool.Run clients (waiting anyVersion (.idle (Hosts.empty.set webHost)) firstUse) t y ∧
    y.state.ctx "web" = some c ∧ hostStillMatches y.state.hosts "web" c.target.host = true ∧
    tallies t c = { dialed := 1, published := 1 } := by
  obtain ⟨t, y, hrun, htest⟩ := Pool.run_of_play (S := clients) (fun _ _ op r _ => client_reply op r)
    [false, true, true, true, false] (fun y => (y.state.ctx "web").isSome)
    (x := waiting anyVersion (.idle (Hosts.empty.set webHost)) firstUse) (H := fun _ => Real.reply)
    (by decide +kernel)
  obtain ⟨c, hc⟩ := Option.isSome_iff_exists.1 htest
  have hkept := (connections_kept anyVersion firstUse [webHost] rfl hrun).1 "web" c hc
  exact ⟨t, y, c, hrun, hc, hkept⟩

end PodmanApi.Podman

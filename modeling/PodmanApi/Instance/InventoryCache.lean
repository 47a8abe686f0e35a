/-
# PodmanApi.Instance.InventoryCache — the cached inventory of each host.

`internal/instance/instancecache.go`, and `RefreshHost` of `service.go`. The result of a live sweep is kept per
host: for a time, or in warm mode until a background refresh. A mutation drops the entry and raises the host's
generation, and a sweep stores its result only under the generation it started with. Its beginning and its end
are two calls, and `Fetched` carries the generation of the host when it began.

The generation protects the entry (`entry_follows_invalidate`), not the sharing: a read that begins after
`invalidate` may join a sweep that began before it (`joined_sweep_is_stale`).
-/
import PodmanApi.Calls.Pool
import PodmanApi.RegistryPrune.InUse

namespace PodmanApi.InstanceCache

open GoStd Calls RegistryPrune
open Function (update update_self update_of_ne)

/-! ## The cache -/

/-- What a sweep of a host returned, and the host's generation when it began. -/
structure Fetched where
  obs : List Observed
  began : Nat
  deriving DecidableEq, Repr

structure InstEntry where
  obs : Fetched
  fetchedAt : Time
  reachable : Bool
  hasData : Bool
  deriving DecidableEq, Repr

/-- What `getWithMeta` returns, and what an `instCall` holds once it is done. -/
abbrev Answered : Type := Except Error Fetched × Freshness

/-- `instanceCache`. A call is known by its number; `made` calls there are so far, and `taken` is the
generation that the maker of each captured. -/
structure Cache where
  data : String → Option InstEntry
  inflight : String → Option Nat
  gen : String → Nat
  calls : Nat → Option Answered
  made : Nat
  taken : Nat → Nat

def Cache.new : Cache where
  data _ := none
  inflight _ := none
  gen _ := 0
  calls _ := none
  made := 0
  taken _ := 0

/-- How the first section of `getWithMeta` ends. -/
inductive Lookup where
  | hit (e : InstEntry)
  | join (call : Nat)
  | lead (call gen : Nat)
  deriving DecidableEq, Repr

namespace Cache

variable (c : Cache) (host : String)

def servable (warm : Bool) (ttl : Duration) (now : Time) : Option InstEntry :=
  match c.data host with
  | none => none
  | some e => if warm || (decide (0 < ttl) && decide (now.sub e.fetchedAt < ttl)) then some e else none

/-- The first section of `getWithMeta` under the lock. -/
def lookup (warm : Bool) (ttl : Duration) (now : Time) : Lookup × Cache :=
  match c.servable host warm ttl now with
  | some e => (.hit e, c)
  | none =>
    match c.inflight host with
    | some call => (.join call, c)
    | none =>
      (.lead c.made (c.gen host),
        { c with
          inflight := update c.inflight host (some c.made)
          made := c.made + 1
          taken := update c.taken c.made (c.gen host) })

def store (gen : Nat) (obs : Fetched) (now : Time) : String → Option InstEntry :=
  if c.gen host = gen then update c.data host (some ⟨obs, now, true, true⟩) else c.data

/-- The second section of `getWithMeta` under the lock, for the call that made the sweep. -/
def complete (call gen : Nat) (result : Except Error Fetched) (now : Time) : Answered × Cache :=
  let answered : Answered :=
    match result with
    | .ok _ => (result, ⟨now, true, true⟩)
    | .error _ => (result, ⟨⟨0⟩, false, false⟩)
  (answered,
    { c with
      inflight := update c.inflight host none
      data := match result with
        | .ok obs => c.store host gen obs now
        | .error _ => c.data
      calls := update c.calls call (some answered) })

def put (gen : Nat) (obs : Fetched) (time : Time) : Cache :=
  { c with data := c.store host gen obs time }

def markUnreachable (gen : Nat) : Cache :=
  match c.data host with
  | none => c
  | some e =>
    if c.gen host = gen then { c with data := update c.data host (some { e with reachable := false }) }
    else c

def invalidate : Cache :=
  { c with data := update c.data host none, gen := update c.gen host (c.gen host + 1) }

end Cache

/-! ## Programs -/

/-- The calls of readers, refreshers and mutators: the sections under the cache's lock, the wait for a call,
the two ends of a sweep, and the clock. -/
inductive Op where
  | lookup (host : String)
  | wait (call : Nat)
  | beginFetch (host : String)
  | endFetch (host : String) (began : Nat)
  | complete (host : String) (call gen : Nat) (result : Except Error Fetched)
  | beginRefresh (host : String)
  | put (host : String) (gen : Nat) (obs : Fetched) (time : Time)
  | markUnreachable (host : String) (gen : Nat)
  | invalidate (host : String)
  | now
  deriving DecidableEq

/-- What each call answers; an invalidation, the generation it has begun. -/
@[reducible]
def Op.Ans : Op → Type
  | lookup _ => Lookup
  | wait _ => Answered
  | beginFetch _ => Nat
  | endFetch _ _ => Except Error Fetched
  | complete _ _ _ _ => Answered
  | beginRefresh _ => Nat
  | put _ _ _ _ => Unit
  | markUnreachable _ _ => Unit
  | invalidate _ => Nat
  | now => Time

abbrev cacheCalls : Sig := ⟨Op, Op.Ans⟩

abbrev issue (op : Op) : Prog cacheCalls op.Ans := Prog.perform (Γ := cacheCalls) op

/-- `getWithMeta`, with the live sweep as its fetch. -/
def getWithMeta (host : String) : Prog cacheCalls Answered := do
  match ← issue (.lookup host) with
  | .hit e => pure (.ok e.obs, ⟨e.fetchedAt, e.reachable, e.hasData⟩)
  | .join call => issue (.wait call)
  | .lead call gen =>
    let began ← issue (.beginFetch host)
    let result ← issue (.endFetch host began)
    issue (.complete host call gen result)

def refreshHost (host : String) : Prog cacheCalls (Except Error Unit) := do
  let gen ← issue (.beginRefresh host)
  let began ← issue (.beginFetch host)
  match ← issue (.endFetch host began) with
  | .error e =>
    let _ ← issue (.markUnreachable host gen)
    pure (.error e)
  | .ok obs =>
    let now ← issue .now
    let _ ← issue (.put host gen obs now)
    pure (.ok ())

/-- What the calls do. A sweep may fail, and the clock shows anything. -/
def inventory (warm : Bool) (ttl : Duration) : Calls.Service cacheCalls Cache := fun c op r c' =>
  match op, r with
  | .lookup host, r => ∃ now, c.lookup host warm ttl now = (r, c')
  | .wait call, r => c.calls call = some r ∧ c' = c
  | .beginFetch host, r => r = c.gen host ∧ c' = c
  | .endFetch _ began, r => c' = c ∧ ∀ f, r = .ok f → f.began = began
  | .complete host call gen result, r => ∃ now, c.complete host call gen result now = (r, c')
  | .beginRefresh host, r => r = c.gen host ∧ c' = c
  | .put host gen obs time, _ => c' = c.put host gen obs time
  | .markUnreachable host gen, _ => c' = c.markUnreachable host gen
  | .invalidate host, r => r = c.gen host + 1 ∧ c' = c.invalidate host
  | .now, _ => c' = c

inductive Request where
  | get (host : String)
  | refresh (host : String)
  | invalidate (host : String)

inductive Outcome where
  | got (r : Answered)
  | refreshed (r : Except Error Unit)
  | invalidated (gen : Nat)
  deriving DecidableEq

def Request.program : Request → Prog cacheCalls Outcome
  | get host => do pure (.got (← getWithMeta host))
  | refresh host => do pure (.refreshed (← refreshHost host))
  | invalidate host => do pure (.invalidated (← issue (.invalidate host)))

/-! ## What one call can do -/

variable {now : Time} {gen : Nat} {op : Op} {r : op.Ans} {a : Hold}

section Steps

variable {c c' : Cache} {host : String} {warm : Bool} {ttl : Duration}

theorem lookup_cases {r : Lookup} (h : c.lookup host warm ttl now = (r, c')) :
    (∃ e, r = .hit e ∧ c' = c ∧ c.data host = some e) ∨
    (∃ call, r = .join call ∧ c' = c ∧ c.inflight host = some call ∧ (warm = true → c.data host = none)) ∨
    (r = .lead c.made (c.gen host) ∧ c' = { c with
      inflight := update c.inflight host (some c.made)
      made := c.made + 1
      taken := update c.taken c.made (c.gen host) }) := by
  unfold Cache.lookup at h
  cases hserved : c.servable host warm ttl now with
  | some e =>
    rw [hserved] at h
    cases h
    refine .inl ⟨e, rfl, rfl, ?_⟩
    unfold Cache.servable at hserved
    split at hserved
    · cases hserved
    · rename_i e' hdata
      split at hserved
      · rw [hdata, hserved]
      · cases hserved
  | none =>
    rw [hserved] at h
    dsimp only at h
    split at h
    · rename_i call hcall
      cases h
      refine .inr (.inl ⟨call, rfl, rfl, hcall, ?_⟩)
      rintro rfl
      unfold Cache.servable at hserved
      split at hserved
      · assumption
      · cases hserved
    · cases h
      exact .inr (.inr ⟨rfl, rfl⟩)

/-- Generations rise, calls are added, and what a call was made with stays. -/
structure Grows (c c' : Cache) : Prop where
  gen : ∀ host, c.gen host ≤ c'.gen host
  made : c.made ≤ c'.made
  taken : ∀ call, call < c.made → c'.taken call = c.taken call

theorem grows_refl : Grows c c :=
  ⟨fun _ => le_rfl, le_rfl, fun _ _ => rfl⟩

theorem grows_lookup {r : Lookup} (h : c.lookup host warm ttl now = (r, c')) : Grows c c' := by
  obtain ⟨e, -, rfl, -⟩ | ⟨call, -, rfl, -⟩ | ⟨-, rfl⟩ := lookup_cases h
  · exact grows_refl
  · exact grows_refl
  · exact ⟨fun _ => le_rfl, Nat.le_succ _, fun call hcall => update_of_ne hcall.ne _ _⟩

theorem grows_invalidate : Grows c (c.invalidate host) := by
  refine ⟨fun host' => ?_, le_rfl, fun _ _ => rfl⟩
  show c.gen host' ≤ update c.gen host (c.gen host + 1) host'
  by_cases hhost : host' = host
  · subst hhost
    simp
  · rw [update_of_ne hhost]

theorem grows_markUnreachable : Grows c (c.markUnreachable host gen) := by
  unfold Cache.markUnreachable
  split
  · exact grows_refl
  · split
    · exact ⟨fun _ => le_rfl, le_rfl, fun _ _ => rfl⟩
    · exact grows_refl

theorem inventory_grows (h : inventory warm ttl c op r c') : Grows c c' := by
  cases op with
  | lookup host =>
    obtain ⟨now, h⟩ := h
    exact grows_lookup h
  | wait | beginFetch | beginRefresh host => exact h.2 ▸ grows_refl
  | endFetch host began => exact h.1 ▸ grows_refl
  | complete host call gen result =>
    obtain ⟨now, h⟩ := h
    cases h
    exact ⟨fun _ => le_rfl, le_rfl, fun _ _ => rfl⟩
  | put host gen obs time => exact h ▸ ⟨fun _ => le_rfl, le_rfl, fun _ _ => rfl⟩
  | markUnreachable host gen => exact h ▸ grows_markUnreachable
  | invalidate host => exact h.2 ▸ grows_invalidate
  | now => exact h ▸ grows_refl

theorem store_cases {obs : Fetched} {host' : String} {e : InstEntry} (h : c.store host gen obs now host' = some e) :
    c.data host' = some e ∨ (host' = host ∧ c.gen host = gen ∧ e.obs = obs) := by
  unfold Cache.store at h
  split at h
  · rename_i hgen
    obtain ⟨rfl, hnew⟩ | ⟨-, hold⟩ := update_cases h
    · cases hnew
      exact .inr ⟨rfl, hgen, rfl⟩
    · exact .inl hold
  · exact .inl h

end Steps

/-! ## What a thread holds -/

/-- What a thread has taken from the cache: a call it leads or has joined, or a generation. -/
inductive Hold where
  | nothing
  | leading (host : String) (call gen : Nat)
  | refreshing (host : String) (gen : Nat)
  | joined (call gen : Nat)
  | bumped (host : String) (gen : Nat)

/-- The thread sweeps this host and has captured this generation of it. -/
def Hold.captured (host : String) (gen : Nat) : Hold → Prop
  | leading host' _ gen' => host' = host ∧ gen' = gen
  | refreshing host' gen' => host' = host ∧ gen' = gen
  | _ => False

/-- The cache as one thread sees it, when the generation of `host` is at least `n`. -/
def seen (host : String) (n : Nat) : Calls.Service cacheCalls Hold := fun a op r b =>
  match op, r with
  | .lookup host', .hit e => b = a ∧ (host' = host → n ≤ e.obs.began)
  | .lookup host', .join call => ∃ gen, b = .joined call gen ∧ (host' = host → n ≤ gen)
  | .lookup host', .lead call gen => b = .leading host' call gen
  | .beginRefresh host', gen => b = .refreshing host' gen
  | .beginFetch host', began =>
    b = a ∧ (host' = host → n ≤ began) ∧ ∀ gen, a.captured host' gen → gen ≤ began
  | .endFetch _ began, r => b = a ∧ ∀ f, r = .ok f → f.began = began
  | .complete _ _ _ result, r => b = .nothing ∧ r.1 = result
  | .wait call, r => b = a ∧ ∀ gen, a = .joined call gen → ∀ f, r.1 = .ok f → gen ≤ f.began
  | .invalidate host', gen => b = .bumped host' gen
  | _, _ => b = a

/-- What every thread guarantees: a call is completed by its leader, and nothing is stored under a generation
later than the beginning of its sweep. -/
def Guarantee (a : Hold) : Op → Prop
  | .complete host call gen result =>
    a = .leading host call gen ∧ ∀ f, result = .ok f → gen ≤ f.began
  | .put _ gen f _ => gen ≤ f.began
  | _ => True

/-- What a thread holds is as the cache has it. -/
def Fits (c : Cache) : Hold → Prop
  | .nothing => True
  | .leading host call gen => c.taken call = gen ∧ gen ≤ c.gen host ∧ call < c.made
  | .refreshing host gen => gen ≤ c.gen host
  | .joined call gen => gen ≤ c.taken call ∧ call < c.made
  | .bumped host gen => gen ≤ c.gen host

theorem Fits.mono {c c' : Cache} (h : Fits c a) (hgrows : Grows c c') : Fits c' a := by
  cases a with
  | nothing => trivial
  | leading host call gen =>
    exact ⟨(hgrows.taken call h.2.2).trans h.1, h.2.1.trans (hgrows.gen host), h.2.2.trans_le hgrows.made⟩
  | refreshing host gen | bumped host gen => exact le_trans h (hgrows.gen host)
  | joined call gen => exact ⟨(hgrows.taken call h.2).symm ▸ h.1, h.2.trans_le hgrows.made⟩

/-- An entry was swept under its host's generation, a call's result not before the call was made, and calls
are numbered as they are made. -/
structure Sound (c : Cache) : Prop where
  entry : ∀ host e, c.data host = some e → c.gen host ≤ e.obs.began
  result : ∀ call f fresh, c.calls call = some (.ok f, fresh) → c.taken call ≤ f.began
  flying : ∀ host call, c.inflight host = some call → call < c.made
  done : ∀ call r, c.calls call = some r → call < c.made

theorem sound_new : Sound Cache.new :=
  ⟨nofun, nofun, nofun, nofun⟩

section Sound

variable {c c' : Cache} {host : String} {warm : Bool} {ttl : Duration}

theorem sound_lookup {r : Lookup} (hs : Sound c) (h : c.lookup host warm ttl now = (r, c')) : Sound c' := by
  obtain ⟨e, -, rfl, -⟩ | ⟨call, -, rfl, -⟩ | ⟨-, rfl⟩ := lookup_cases h
  · exact hs
  · exact hs
  · refine ⟨hs.entry, fun call f fresh hcall => ?_, fun host' call hcall => ?_, fun call r hcall => ?_⟩
    · show update c.taken c.made (c.gen host) call ≤ f.began
      rw [update_of_ne (hs.done call _ hcall).ne]
      exact hs.result call f fresh hcall
    · obtain ⟨-, hnew⟩ | ⟨-, hold⟩ := update_cases hcall
      · exact Option.some.inj hnew ▸ Nat.lt_succ_self _
      · exact (hs.flying host' call hold).trans (Nat.lt_succ_self _)
    · exact (hs.done call r hcall).trans (Nat.lt_succ_self _)

theorem sound_store (hs : Sound c) {obs : Fetched} {host' : String} {e : InstEntry}
    (hobs : gen ≤ obs.began) (h : c.store host gen obs now host' = some e) : c.gen host' ≤ e.obs.began := by
  obtain hold | ⟨rfl, rfl, rfl⟩ := store_cases h
  · exact hs.entry host' e hold
  · exact hobs

theorem sound_complete {call : Nat} {result : Except Error Fetched} {r : Answered}
    (hs : Sound c) (hfits : Fits c (.leading host call gen)) (hresult : ∀ f, result = .ok f → gen ≤ f.began)
    (h : c.complete host call gen result now = (r, c')) : Sound c' := by
  cases h
  refine ⟨fun host' e he => ?_, fun call' f fresh hcall => ?_, fun host' call' hcall => ?_, fun call' r hcall => ?_⟩
  · cases result with
    | error err => exact hs.entry host' e he
    | ok f => exact sound_store hs (hresult f rfl) he
  · obtain ⟨rfl, hnew⟩ | ⟨-, hold⟩ := update_cases hcall
    · cases result with
      | error err => cases hnew
      | ok f' =>
        cases hnew
        exact hfits.1.trans_le (hresult f rfl)
    · exact hs.result call' f fresh hold
  · obtain ⟨-, hnone⟩ | ⟨-, hold⟩ := update_cases hcall
    · cases hnone
    · exact hs.flying host' call' hold
  · obtain ⟨rfl, -⟩ | ⟨-, hold⟩ := update_cases hcall
    · exact hfits.2.2
    · exact hs.done call' r hold

theorem sound_markUnreachable (hs : Sound c) : Sound (c.markUnreachable host gen) := by
  unfold Cache.markUnreachable
  split
  · exact hs
  · rename_i e hdata
    split
    · refine ⟨fun host' e' he => ?_, hs.result, hs.flying, hs.done⟩
      obtain ⟨rfl, hnew⟩ | ⟨-, hold⟩ := update_cases he
      · cases hnew
        exact hs.entry host' e hdata
      · exact hs.entry host' e' hold
    · exact hs

theorem sound_invalidate (hs : Sound c) : Sound (c.invalidate host) := by
  refine ⟨fun host' e he => ?_, hs.result, hs.flying, hs.done⟩
  obtain ⟨-, hnone⟩ | ⟨hhost, hold⟩ := update_cases he
  · cases hnone
  · show update c.gen host (c.gen host + 1) host' ≤ e.obs.began
    rw [update_of_ne hhost]
    exact hs.entry host' e hold

theorem sound_step (hs : Sound c) (hfits : Fits c a) (hg : Guarantee a op)
    (h : inventory warm ttl c op r c') : Sound c' := by
  cases op with
  | lookup host =>
    obtain ⟨now, h⟩ := h
    exact sound_lookup hs h
  | wait | beginFetch => exact h.2 ▸ hs
  | beginRefresh host => exact h.2 ▸ hs
  | endFetch host began => exact h.1 ▸ hs
  | complete host call gen result =>
    obtain ⟨now, h⟩ := h
    exact sound_complete hs (hg.1 ▸ hfits) hg.2 h
  | put host gen obs time =>
    obtain rfl : c' = c.put host gen obs time := h
    exact ⟨fun host' e he => sound_store hs hg he, hs.result, hs.flying, hs.done⟩
  | markUnreachable host gen => exact h ▸ sound_markUnreachable hs
  | invalidate host => exact h.2 ▸ sound_invalidate hs
  | now => exact h ▸ hs

end Sound

/-! ## Side by side -/

section Run

variable {ι : Type} [DecidableEq ι] {c c' : Cache} {host : String} {n : Nat} {warm : Bool} {ttl : Duration}

/-- The condition on a step: a read that may miss the cache finds no call in flight for its host, or one made
under the host's present generation. -/
def Current (warm : Bool) (_ : ι) (c : Cache) (op : Op) : Prop :=
  ∀ host, op = .lookup host → (warm = true → c.data host = none) →
    ∀ call, c.inflight host = some call → c.taken call = c.gen host

def readers (warm : Bool) (ttl : Duration) : Shared cacheCalls ι Cache :=
  fun _ => inventory warm ttl

/-- The cache is sound, `host` has reached the generation `n`, and what the threads hold fits. -/
structure Agrees (host : String) (n : Nat) (c : Cache) (a : ι → Hold) : Prop where
  sound : Sound c
  reached : n ≤ c.gen host
  fits : ∀ i, Fits c (a i)

/-- One call of a thread, as the thread sees it and as the cache and the other threads are left. -/
theorem agrees_step {i : ι} {a : ι → Hold} (hR : Agrees host n c a)
    (hg : Guarantee (a i) op) (h : ((readers warm ttl).when (Current warm)) i c op r c') :
    ∃ b, seen host n (a i) op r b ∧ Agrees host n c' (update a i b) := by
  obtain ⟨hcurrent, h⟩ := h
  have hgrows := inventory_grows h
  have hsound := sound_step hR.sound (hR.fits i) hg h
  -- the other threads' holds only need the cache to have grown
  have hagrees : ∀ b, Fits c' b → Agrees host n c' (update a i b) := by
    refine fun b hb => ⟨hsound, hR.reached.trans (hgrows.gen host), fun j => ?_⟩
    by_cases hj : j = i
    · subst hj
      rwa [update_self]
    · rw [update_of_ne hj]
      exact (hR.fits j).mono hgrows
  have hsame := hagrees (a i) ((hR.fits i).mono hgrows)
  cases op with
  | lookup host' =>
    obtain ⟨now, h⟩ := h
    obtain ⟨e, rfl, rfl, hdata⟩ | ⟨call, rfl, rfl, hcall, hwarm⟩ | ⟨rfl, rfl⟩ := lookup_cases h
    · refine ⟨a i, ⟨rfl, ?_⟩, hsame⟩
      rintro rfl
      exact hR.reached.trans (hR.sound.entry host' e hdata)
    · have htaken := hcurrent host' rfl hwarm call hcall
      refine ⟨.joined call (c'.gen host'), ⟨_, rfl, ?_⟩, hagrees _ ⟨htaken.ge, hR.sound.flying host' call hcall⟩⟩
      rintro rfl
      exact hR.reached
    · refine ⟨.leading host' c.made (c.gen host'), rfl, hagrees _ ⟨?_, le_rfl, Nat.lt_succ_self _⟩⟩
      exact update_self _ _ _
  | wait call =>
    obtain ⟨hcall, rfl⟩ := h
    refine ⟨a i, ⟨rfl, fun gen hgen f hf => ?_⟩, hsame⟩
    have hfits := hR.fits i
    rw [hgen] at hfits
    refine hfits.1.trans (hR.sound.result call f r.2 ?_)
    rw [hcall, ← hf]
  | beginFetch host' =>
    obtain ⟨rfl, rfl⟩ := h
    refine ⟨a i, ⟨rfl, ?_, fun gen hgen => ?_⟩, hsame⟩
    · rintro rfl
      exact hR.reached
    · have hfits := hR.fits i
      cases hhold : a i with
      | leading host'' call gen' =>
        rw [hhold] at hgen hfits
        obtain ⟨rfl, rfl⟩ := hgen
        exact hfits.2.1
      | refreshing host'' gen' =>
        rw [hhold] at hgen hfits
        obtain ⟨rfl, rfl⟩ := hgen
        exact hfits
      | _ =>
        rw [hhold] at hgen
        cases hgen
  | endFetch host' began => exact ⟨a i, ⟨rfl, h.2⟩, hsame⟩
  | complete host' call gen result =>
    obtain ⟨now, h⟩ := h
    refine ⟨.nothing, ⟨rfl, ?_⟩, hagrees _ trivial⟩
    cases h
    cases result with
    | error | ok => rfl
  | beginRefresh host' =>
    obtain ⟨rfl, rfl⟩ := h
    exact ⟨.refreshing host' (c'.gen host'), rfl, hagrees _ le_rfl⟩
  | invalidate host' =>
    obtain ⟨rfl, rfl⟩ := h
    refine ⟨.bumped host' (c.gen host' + 1), rfl, hagrees _ ?_⟩
    show c.gen host' + 1 ≤ (c.invalidate host').gen host'
    simp [Cache.invalidate]
  | _ => exact ⟨a i, rfl, hsame⟩

/-- A step under any schedule. A read that joins a sweep made before an invalidation is told nothing of its age. -/
theorem agrees_step_zero {i : ι} {a : ι → Hold} (hR : Agrees host 0 c a) (hg : Guarantee (a i) op)
    (h : readers warm ttl i c op r c') : ∃ b, seen host 0 (a i) op r b ∧ Agrees host 0 c' (update a i b) := by
  by_cases hcurrent : Current warm i c op
  · exact agrees_step hR hg ⟨hcurrent, h⟩
  · simp only [Current, not_forall] at hcurrent
    obtain ⟨host', rfl, -, call, hcall, -⟩ := hcurrent
    obtain ⟨now, h⟩ := h
    simp only [Cache.lookup, hcall] at h
    split at h <;> cases h
    · exact ⟨a i, ⟨rfl, fun _ => Nat.zero_le _⟩, by rwa [Function.update_eq_self]⟩
    · refine ⟨.joined call 0, ⟨0, rfl, fun _ => le_rfl⟩, hR.sound, hR.reached, ?_⟩
      refine (Function.forall_update_iff a fun _ => Fits c).2 ⟨⟨Nat.zero_le _, ?_⟩, fun j _ => hR.fits j⟩
      exact hR.sound.flying host' call hcall

end Run

/-! ## What a request does by itself -/

section Local

variable {host : String} {n : Nat}

theorem getWithMeta_ensures (host' : String) (a : Hold) : Ensures (seen host n) Guarantee
    (fun _ r => host' = host → ∀ f, r.1 = .ok f → n ≤ f.began) (getWithMeta host') a := by
  refine ensures_issue_bind (Op.lookup host') trivial fun r b hr => ?_
  cases r with
  | hit e =>
    refine ensures_ret.2 fun hhost f hf => ?_
    cases hf
    exact hr.2 hhost
  | join call =>
    obtain ⟨gen, rfl, hgen⟩ := hr
    refine ensures_issue (Op.wait call) trivial fun r _ hr hhost f hf => ?_
    exact (hgen hhost).trans (hr.2 gen rfl f hf)
  | lead call gen =>
    obtain rfl : b = .leading host' call gen := hr
    refine ensures_issue_bind (Op.beginFetch host') trivial fun began _ hbegan => ?_
    obtain ⟨rfl, hlate, hcaptured⟩ := hbegan
    refine ensures_issue_bind (Op.endFetch host' began) trivial fun result _ hresult => ?_
    obtain ⟨rfl, hresult⟩ := hresult
    refine ensures_issue (Op.complete host' call gen result) ⟨rfl, fun f hf => ?_⟩ fun r _ hr hhost f hf => ?_
    · rw [hresult f hf]
      exact hcaptured gen ⟨rfl, rfl⟩
    · rw [hresult f (hr.2 ▸ hf)]
      exact hlate hhost

theorem refreshHost_ensures (host' : String) (a : Hold) : Ensures (seen host n) Guarantee
    (fun _ _ => True) (refreshHost host') a := by
  refine ensures_issue_bind (Op.beginRefresh host') trivial fun gen _ hgen => ?_
  obtain rfl := hgen
  refine ensures_issue_bind (Op.beginFetch host') trivial fun began _ hbegan => ?_
  obtain ⟨rfl, -, hcaptured⟩ := hbegan
  refine ensures_issue_bind (Op.endFetch host' began) trivial fun result _ hresult => ?_
  obtain ⟨rfl, hresult⟩ := hresult
  cases result with
  | error e =>
    exact ensures_issue_bind (Op.markUnreachable host' gen) trivial fun _ _ _ => ensures_ret.2 trivial
  | ok obs =>
    refine ensures_issue_bind Op.now trivial fun now _ _ => ?_
    refine ensures_issue_bind (Op.put host' gen obs now) ?_ fun _ _ _ => ensures_ret.2 trivial
    show gen ≤ obs.began
    rw [hresult obs rfl]
    exact hcaptured gen ⟨rfl, rfl⟩

/-- What a request that has returned tells: a read's sweep is no older than `n`, and an invalidation is
remembered with its generation. -/
def Told (host : String) (n : Nat) : Request → Hold → Outcome → Prop
  | .get host', _, .got r => host' = host → ∀ f, r.1 = .ok f → n ≤ f.began
  | .invalidate host', a, .invalidated gen => a = .bumped host' gen
  | _, _, _ => True

theorem program_ensures (q : Request) (a : Hold) : Ensures (seen host n) Guarantee (Told host n q) q.program a := by
  cases q with
  | get host' => exact (getWithMeta_ensures host' a).map fun _ _ h => h
  | refresh host' =>
    exact (refreshHost_ensures host' a).map fun _ _ _ => trivial
  | invalidate host' =>
    exact ensures_issue_bind (Op.invalidate host') trivial fun _ _ hb => ensures_ret.2 hb

theorem seen_zero {b : Hold} (h : seen host n a op r b) : seen host 0 a op r b := by
  cases op with
  | lookup host' =>
    cases r with
    | hit e => exact ⟨h.1, fun _ => Nat.zero_le _⟩
    | join call =>
      obtain ⟨gen, hb, -⟩ := h
      exact ⟨gen, hb, fun _ => Nat.zero_le _⟩
    | lead call gen => exact h
  | beginFetch host' => exact ⟨h.1, fun _ => Nat.zero_le _, h.2.2⟩
  | _ => exact h

end Local

section Main

variable {ι : Type} [DecidableEq ι] {warm : Bool} {ttl : Duration}

def waiting (requests : ι → Request) : Pool cacheCalls ι Cache Outcome :=
  ⟨Cache.new, fun i => (requests i).program⟩

/-- A read that begins after an `invalidate` of the host has returned is
answered from a sweep that began after it. -/
theorem read_follows_invalidate (warm : Bool) (ttl : Duration) (requests : ι → Request)
    {t t' : List (ι × Event cacheCalls)} {y z : Pool cacheCalls ι Cache Outcome}
    (hrun : Pool.Run ((readers warm ttl).when (Current warm)) (waiting requests) t y)
    (hlater : Pool.Run ((readers warm ttl).when (Current warm)) y t' z) {host : String} {d q : ι} {n : Nat}
    (hd : requests d = .invalidate host) (hdone : y.left d = .ret (.invalidated n))
    (hq : requests q = .get host) (hstart : y.left q = (requests q).program)
    {f : Fetched} {fresh : Freshness} (hret : z.left q = .ret (.got (.ok f, fresh))) : n ≤ f.began := by
  -- up to `y`: the invalidation is part of the host's generation
  obtain ⟨a, hagrees, hensures⟩ := hrun.rely (T := fun _ => seen host 0) (G := fun _ => Guarantee)
    (Q := fun i => Told host 0 (requests i)) (R := Agrees host 0) (fun i c a op r c' => agrees_step)
    (a := fun _ => .nothing) ⟨sound_new, Nat.zero_le _, fun _ => trivial⟩
    (fun i => program_ensures (requests i) .nothing)
  have hreached : n ≤ y.state.gen host := by
    have hbumped := hensures d
    rw [hdone, ensures_ret, hd] at hbumped
    have hfits := hagrees.fits d
    rwa [hbumped] at hfits
  -- from `y` on: every thread sees sweeps of generation `n` or later, and `q` starts here
  have hlocal : ∀ i, Ensures (seen host n) Guarantee (fun b o => i = q → Told host n (requests i) b o)
      (y.left i) (a i) := by
    intro i
    by_cases hi : i = q
    · subst hi
      rw [hstart]
      exact (program_ensures (requests i) (a i)).imp fun _ _ h _ => h
    · exact ((hensures i).within fun _ _ _ _ => seen_zero).imp fun _ _ _ h => absurd h hi
  obtain ⟨_, -, hensures'⟩ := hlater.rely (T := fun _ => seen host n) (G := fun _ => Guarantee)
    (Q := fun i b o => i = q → Told host n (requests i) b o) (R := Agrees host n)
    (fun i c a op r c' => agrees_step) ⟨hagrees.sound, hreached, hagrees.fits⟩ hlocal
  have htold := hensures' q
  rw [hret, ensures_ret, hq] at htold
  exact htold rfl rfl f rfl

/-- Under any schedule, what the cache keeps for a host is from a sweep that began after every invalidation of it.
A sweep that one overtakes leaves no entry. -/
theorem entry_follows_invalidate (warm : Bool) (ttl : Duration) (requests : ι → Request)
    {t : List (ι × Event cacheCalls)} {y : Pool cacheCalls ι Cache Outcome}
    (hrun : Pool.Run (readers warm ttl) (waiting requests) t y) {host : String} {e : InstEntry}
    (hentry : y.state.data host = some e) : y.state.gen host ≤ e.obs.began ∧
      ∀ d n, requests d = .invalidate host → y.left d = .ret (.invalidated n) → n ≤ e.obs.began := by
  obtain ⟨a, hagrees, hensures⟩ := hrun.rely (T := fun _ => seen host 0) (G := fun _ => Guarantee)
    (Q := fun i => Told host 0 (requests i)) (R := Agrees host 0) (fun i c a op r c' => agrees_step_zero)
    (a := fun _ => .nothing) ⟨sound_new, Nat.zero_le _, fun _ => trivial⟩
    (fun i => program_ensures (requests i) .nothing)
  have hsound := hagrees.sound.entry host e hentry
  refine ⟨hsound, fun d n hd hdone => ?_⟩
  have hbumped := hensures d
  rw [hdone, ensures_ret, hd] at hbumped
  have hfits := hagrees.fits d
  rw [hbumped] at hfits
  exact le_trans hfits hsound

end Main

/-! ## A sweep that is shared too long -/

inductive Visitor where
  | early
  | mutator
  | late
  deriving DecidableEq

def visits : Visitor → Request
  | .early => .get "engine-1"
  | .mutator => .invalidate "engine-1"
  | .late => .get "engine-1"

def shopPod : Observed := ⟨"shop", []⟩

/-- The answers of a host that has the instance `shop` until the mutation; time stands still. -/
def engineAnswers (warm : Bool) (ttl : Duration) (c : Cache) : (op : Op) → Option (op.Ans × Cache)
  | .lookup host => some (c.lookup host warm ttl ⟨1⟩)
  | .wait call => (c.calls call).map fun r => (r, c)
  | .beginFetch host => some (c.gen host, c)
  | .endFetch _ began => some (.ok ⟨if began = 0 then [shopPod] else [], began⟩, c)
  | .complete host call gen result => some (c.complete host call gen result ⟨1⟩)
  | .beginRefresh host => some (c.gen host, c)
  | .put host gen obs time => some ((), c.put host gen obs time)
  | .markUnreachable host gen => some ((), c.markUnreachable host gen)
  | .invalidate host => some (c.gen host + 1, c.invalidate host)
  | .now => some (⟨1⟩, c)

theorem readers_engineAnswers {warm : Bool} {ttl : Duration} (i : Visitor) (c : Cache) (op : Op) (r : op.Ans)
    (c' : Cache) (h : engineAnswers warm ttl c op = some (r, c')) : readers warm ttl i c op r c' := by
  cases op with
  | lookup host | complete host call gen result => exact ⟨⟨1⟩, Option.some.inj h⟩
  | wait call =>
    obtain ⟨r', hcall, heq⟩ := Option.map_eq_some_iff.1 h
    cases heq
    exact ⟨hcall, rfl⟩
  | endFetch host began =>
    cases h
    exact ⟨rfl, fun f hf => by cases hf; rfl⟩
  | beginFetch host | beginRefresh host | invalidate host =>
    cases h
    exact ⟨rfl, rfl⟩
  | _ =>
    cases h
    rfl

/-- The mutation is made and its invalidation has returned; the read that begins then joins the sweep in flight,
and shows the host as it was before. -/
theorem joined_sweep_is_stale : ∃ t y t' z,
    Pool.Run (readers true hour) (waiting visits) t y ∧ Pool.Run (readers true hour) y t' z ∧
      y.left .mutator = .ret (.invalidated 1) ∧ y.left .late = (visits .late).program ∧
      z.left .late = .ret (.got (.ok ⟨[shopPod], 0⟩, ⟨⟨1⟩, true, true⟩)) := by
  obtain ⟨t, y, t', z, hrun, hy, hlate, hrun', hz⟩ := Pool.run_of_plays (x := waiting visits)
    (H := fun _ => engineAnswers true hour) readers_engineAnswers [.early, .early, .mutator]
    [.late, .early, .early, .late] (fun y => (y.left .mutator).returned = some (.invalidated 1))
    (fun z => (z.left .late).returned = some (.got (.ok ⟨[shopPod], 0⟩, ⟨⟨1⟩, true, true⟩)))
    (by decide +kernel)
  exact ⟨t, y, t', z, hrun, hrun', Prog.returned_eq_some.1 (of_decide_eq_true hy), hlate .late (by decide),
    Prog.returned_eq_some.1 (of_decide_eq_true hz)⟩

def currentTest (warm : Bool) (_ : Visitor) (c : Cache) : Op → Bool
  | .lookup host => (warm && (c.data host).isSome) || (c.inflight host).all fun call => c.taken call == c.gen host
  | _ => true

theorem current_of_currentTest (warm : Bool) (i : Visitor) (c : Cache) (op : Op)
    (h : currentTest warm i c op = true) : Current warm i c op := by
  rintro host rfl hwarm call hcall
  simp only [currentTest, Bool.or_eq_true, Bool.and_eq_true] at h
  obtain ⟨hw, hdata⟩ | hall := h
  · rw [hwarm hw] at hdata
    cases hdata
  · simpa [hcall] using hall

/-- The early read is over before the mutation; the late one sweeps for itself. -/
theorem own_sweep_follows_invalidate : ∃ t y t' z,
    Pool.Run ((readers true hour).when (Current true)) (waiting visits) t y ∧
      Pool.Run ((readers true hour).when (Current true)) y t' z ∧ y.left .mutator = .ret (.invalidated 1) ∧
      z.left .late = .ret (.got (.ok ⟨[], 1⟩, ⟨⟨1⟩, true, true⟩)) ∧ 1 ≤ (⟨[], 1⟩ : Fetched).began := by
  obtain ⟨t, y, t', z, hrun, hy, hlate, hrun', hz⟩ := Pool.run_of_plays (x := waiting visits)
    (Answers.only_when (H := fun _ => engineAnswers true hour) readers_engineAnswers
      (current_of_currentTest true)) [.early, .early, .early, .early, .mutator] [.late, .late, .late, .late]
    (fun y => (y.left .mutator).returned = some (.invalidated 1))
    (fun z => (z.left .late).returned = some (.got (.ok ⟨[], 1⟩, ⟨⟨1⟩, true, true⟩))) (by decide +kernel)
  have hdone := Prog.returned_eq_some.1 (of_decide_eq_true hy)
  have hret := Prog.returned_eq_some.1 (of_decide_eq_true hz)
  exact ⟨t, y, t', z, hrun, hrun', hdone, hret, read_follows_invalidate true hour visits hrun hrun'
    (d := .mutator) (q := .late) rfl hdone rfl (hlate .late (by decide)) hret⟩

theorem own_entry_follows : ∃ t y e, Pool.Run (readers true hour) (waiting visits) t y ∧
    y.state.data "engine-1" = some e ∧ 1 ≤ e.obs.began := by
  obtain ⟨t, y, hrun, htest⟩ := Pool.run_of_play (x := waiting visits) (H := fun _ => engineAnswers true hour)
    readers_engineAnswers [.early, .early, .mutator, .early, .early, .late, .late, .late, .late]
    (fun y => y.state.gen "engine-1" == 1 && (y.state.data "engine-1").isSome) (by decide +kernel)
  obtain ⟨hgen, hdata⟩ := Bool.and_eq_true_iff.1 htest
  obtain ⟨e, he⟩ := Option.isSome_iff_exists.1 hdata
  exact ⟨t, y, e, hrun, he, (beq_iff_eq.1 hgen).ge.trans (entry_follows_invalidate true hour visits hrun he).1⟩

end PodmanApi.InstanceCache

/-
# PodmanApi.ImgRegistry.TagsCache — the cached listings of a registry's repositories.

`CachingClient` of `internal/imgregistry/cache.go`. A listing is read without any lock and stored afterwards
under one; `Delete` removes the image and then drops the cached listing. A read carries how many deletions of
its repository had taken effect when it began, and a deletion is answered with its own number; the code looks at
neither.

A listing read before a deletion may be stored after it (`stale_listing_after_delete`). `Timely` excludes that.
-/
import PodmanApi.Calls.Pool
import PodmanApi.RegistryPrune.InUse

namespace PodmanApi.ImgRegistry

open GoStd Calls RegistryPrune
open Function (update update_self update_of_ne)

/-! ## The client -/

/-- What a read of a repository returned, and how many deletions had taken effect when it began. -/
structure Read (α : Type) where
  value : α
  began : Nat
  deriving DecidableEq, Repr

structure TagsCacheEntry where
  listing : Read TagListing
  expires : Time
  deriving DecidableEq, Repr

/-- The calls of a `CachingClient`: the sections under its lock, the inner client's, and the clock. -/
inductive Op where
  | cached (repo : String)
  | store (repo : String) (listing : Read TagListing) (ttl : Duration)
  | drop (repo : String)
  | beginResolve (repo : String)
  | endResolve (repo : String) (began : Nat)
  | delete (repo digest : String)
  | now
  deriving DecidableEq, Repr

/-- What each call answers; a deletion that succeeds, its number among those of the repository. -/
@[reducible]
def Op.Ans : Op → Type
  | cached _ => Option TagsCacheEntry
  | store _ _ _ => Unit
  | drop _ => Unit
  | beginResolve _ => Nat
  | endResolve _ _ => Except Error (Read TagListing)
  | delete _ _ => Except Error Nat
  | now => Time

abbrev cacheCalls : Sig := ⟨Op, Op.Ans⟩

abbrev issue (op : Op) : Prog cacheCalls op.Ans := Prog.perform (Γ := cacheCalls) op

/-- `ResolveTags` after a miss: the inner client reads, and a listing is stored. -/
def resolveMiss (ttl : Duration) (repo : String) : Prog cacheCalls (Except Error (Read TagListing)) := do
  let began ← issue (.beginResolve repo)
  match ← issue (.endResolve repo began) with
  | .error e => pure (.error e)
  | .ok listing =>
    let _ ← issue (.store repo listing ttl)
    pure (.ok listing)

def resolveTags (ttl : Duration) (repo : String) : Prog cacheCalls (Except Error (Read TagListing)) := do
  match ← issue (.cached repo) with
  | none => resolveMiss ttl repo
  | some entry =>
    let now ← issue .now
    if now.ns < entry.expires.ns then pure (.ok entry.listing) else resolveMiss ttl repo

def tags (ttl : Duration) (repo : String) : Prog cacheCalls (Except Error (Read (List TagGroup))) := do
  match ← resolveTags ttl repo with
  | .error e => pure (.error e)
  | .ok listing => pure (.ok ⟨listing.value.groups, listing.began⟩)

def delete (repo digest : String) : Prog cacheCalls (Except Error Nat) := do
  match ← issue (.delete repo digest) with
  | .error e => pure (.error e)
  | .ok n =>
    let _ ← issue (.drop repo)
    pure (.ok n)

/-! ## The cache and the registry -/

/-- The cached listings, and how many deletions of each repository have taken effect. -/
structure Shelf where
  cache : String → Option TagsCacheEntry
  deletions : String → Nat

def Shelf.put (s : Shelf) (repo : String) (entry : Option TagsCacheEntry) : Shelf :=
  { s with cache := update s.cache repo entry }

def Shelf.deleted (s : Shelf) (repo : String) : Shelf :=
  { s with deletions := update s.deletions repo (s.deletions repo + 1) }

/-- What the calls do. The registry may fail, also after a deletion has taken effect; the clock shows
anything. -/
def registry : Calls.Service cacheCalls Shelf := fun s op r s' =>
  match op, r with
  | .cached repo, r => r = s.cache repo ∧ s' = s
  | .store repo listing ttl, _ => ∃ now : Time, s' = s.put repo (some ⟨listing, ⟨now.ns + ttl⟩⟩)
  | .drop repo, _ => s' = s.put repo none
  | .beginResolve repo, r => r = s.deletions repo ∧ s' = s
  | .endResolve _ began, r => s' = s ∧ ∀ listing, r = .ok listing → listing.began = began
  | .delete repo _, .ok n => n = s.deletions repo + 1 ∧ s' = s.deleted repo
  | .delete repo _, .error _ => s' = s ∨ s' = s.deleted repo
  | .now, _ => s' = s

/-! ## Requests -/

inductive Request where
  | resolveTags (repo : String)
  | tags (repo : String)
  | delete (repo digest : String)

inductive Outcome where
  | listing (r : Except Error (Read TagListing))
  | groups (r : Except Error (Read (List TagGroup)))
  | deleted (r : Except Error Nat)
  deriving DecidableEq

def Request.program (ttl : Duration) : Request → Prog cacheCalls Outcome
  | resolveTags repo => do pure (.listing (← ImgRegistry.resolveTags ttl repo))
  | tags repo => do pure (.groups (← ImgRegistry.tags ttl repo))
  | delete repo digest => do pure (.deleted (← ImgRegistry.delete repo digest))

def Request.reads : Request → Option String
  | resolveTags repo | tags repo => some repo
  | delete _ _ => none

/-- When the read began from which a request was answered. -/
def Outcome.began : Outcome → Option Nat
  | listing (.ok l) => some l.began
  | groups (.ok g) => some g.began
  | _ => none

/-! ## What a request has deleted -/

/-- A deletion of a repository, before and after the cached listing is dropped. -/
inductive Progress where
  | idle
  | deleted (repo : String) (n : Nat)
  | dropped (repo : String) (n : Nat)

def Progress.after (w : Progress) : Event cacheCalls → Progress
  | ⟨.delete repo _, .ok n⟩ => .deleted repo n
  | ⟨.drop repo, _⟩ =>
    match w with
    | .deleted repo' n => if repo' = repo then .dropped repo n else w
    | _ => w
  | _ => w

section Steps

variable {s s' : Shelf} {op : Op} {r : op.Ans} {repo : String}

theorem registry_cache (h : registry s op r s') {entry : TagsCacheEntry} (he : s'.cache repo = some entry) :
    (s.cache repo = some entry ∧ op ≠ .drop repo) ∨ ∃ ttl, op = .store repo entry.listing ttl := by
  have hsame : s'.cache = s.cache → op ≠ .drop repo →
      (s.cache repo = some entry ∧ op ≠ .drop repo) ∨ ∃ ttl, op = .store repo entry.listing ttl :=
    fun heq hop => .inl ⟨heq ▸ he, hop⟩
  cases op with
  | store repo' listing ttl =>
    obtain ⟨now, rfl⟩ := h
    by_cases hrepo : repo = repo'
    · subst hrepo
      simp only [Shelf.put, update_self, Option.some.injEq] at he
      exact .inr ⟨ttl, by rw [← he]⟩
    · simp only [Shelf.put, update_of_ne hrepo] at he
      exact .inl ⟨he, nofun⟩
  | drop repo' =>
    obtain rfl : s' = s.put repo' none := h
    by_cases hrepo : repo = repo'
    · subst hrepo
      simp [Shelf.put] at he
    · simp only [Shelf.put, update_of_ne hrepo] at he
      exact .inl ⟨he, fun hop => hrepo (Op.drop.inj hop).symm⟩
  | cached | beginResolve => exact hsame (h.2 ▸ rfl) nofun
  | endResolve repo' began => exact hsame (h.1 ▸ rfl) nofun
  | delete repo' digest =>
    cases r with
    | ok n => exact hsame (h.2 ▸ rfl) nofun
    | error e =>
      obtain rfl | rfl := h
      · exact hsame rfl nofun
      · exact hsame rfl nofun
  | now =>
    obtain rfl : s' = s := h
    exact hsame rfl nofun

theorem le_deleted (s : Shelf) (repo' : String) : s.deletions repo ≤ (s.deleted repo').deletions repo := by
  unfold Shelf.deleted
  by_cases hrepo : repo = repo'
  · subst hrepo
    simp
  · simp [update_of_ne hrepo]

theorem registry_deletions (h : registry s op r s') : s.deletions repo ≤ s'.deletions repo := by
  cases op with
  | store repo' listing ttl =>
    obtain ⟨now, rfl⟩ := h
    exact le_rfl
  | drop repo' =>
    obtain rfl : s' = s.put repo' none := h
    exact le_rfl
  | cached | beginResolve => exact h.2 ▸ le_rfl
  | endResolve repo' began => exact h.1 ▸ le_rfl
  | delete repo' digest =>
    cases r with
    | ok n => exact h.2 ▸ le_deleted s repo'
    | error e =>
      obtain rfl | rfl := h
      · exact le_rfl
      · exact le_deleted s repo'
  | now =>
    obtain rfl : s' = s := h
    exact le_rfl

end Steps

variable {op : Op} {r : op.Ans}

theorem after_deleted {w : Progress} {repo : String} {n : Nat} (h : w.after ⟨op, r⟩ = .deleted repo n) :
    w = .deleted repo n ∨ ∃ digest, (⟨op, r⟩ : Event cacheCalls) = ⟨.delete repo digest, .ok n⟩ := by
  unfold Progress.after at h
  split at h
  · rename_i repo' digest n' heq
    cases h
    exact .inr ⟨digest, heq⟩
  · split at h
    · split at h
      · cases h
      · exact .inl h
    · exact .inl h
  · exact .inl h

theorem after_dropped {w : Progress} {repo : String} {n : Nat} (h : w.after ⟨op, r⟩ = .dropped repo n) :
    w = .dropped repo n ∨ (w = .deleted repo n ∧ op = .drop repo) := by
  unfold Progress.after at h
  split at h
  · cases h
  · rename_i repo' u heq
    split at h
    · split at h
      · rename_i hrepo
        cases h
        cases heq
        exact .inr ⟨by rw [hrepo], rfl⟩
      · exact .inl h
    · exact .inl h
  · exact .inl h

/-! ## Side by side -/

section Run

variable {ι : Type} [DecidableEq ι]

/-- The condition on a step: a listing is stored only if no `Delete` that took effect after its read began has
already dropped the cached one. -/
def Timely (_ : ι) (s : Shelf × (ι → Progress)) (op : Op) : Prop :=
  ∀ repo listing ttl, op = .store repo listing ttl →
    ∀ j n, s.2 j = .dropped repo n → n ≤ listing.began

abbrev clients : Shared cacheCalls ι (Shelf × (ι → Progress)) :=
  watched Progress.after fun _ => registry

def waiting (ttl : Duration) (shelf : Shelf) (requests : ι → Request) :
    Pool cacheCalls ι (Shelf × (ι → Progress)) Outcome :=
  ⟨(shelf, fun _ => .idle), fun i => (requests i).program ttl⟩

/-- No deletion is numbered beyond those that took effect, and no cached listing was read before a
deletion that has dropped the cached one. -/
structure Sound (s : Shelf × (ι → Progress)) : Prop where
  counted : ∀ j repo n, (s.2 j = .deleted repo n ∨ s.2 j = .dropped repo n) → n ≤ s.1.deletions repo
  fresh : ∀ repo entry, s.1.cache repo = some entry → ∀ j n, s.2 j = .dropped repo n → n ≤ entry.listing.began

theorem sound_step {i : ι} {s s' : Shelf × (ι → Progress)} (hs : Sound s)
    (h : (clients.when Timely) i s op r s') : Sound s' := by
  obtain ⟨htimely, hreg, hwatch⟩ := h
  have hself : s'.2 i = (s.2 i).after ⟨op, r⟩ := by rw [hwatch, update_self]
  have hother : ∀ j, j ≠ i → s'.2 j = s.2 j := fun j hj => by rw [hwatch, update_of_ne hj]
  refine ⟨fun j repo n hj => ?_, fun repo entry hentry j n hj => ?_⟩
  · by_cases hij : j = i
    · subst hij
      rw [hself] at hj
      obtain hj | hj := hj
      · obtain hold | ⟨digest, hev⟩ := after_deleted hj
        · exact (hs.counted j repo n (.inl hold)).trans (registry_deletions hreg)
        · cases hev
          obtain ⟨rfl, hs'⟩ := hreg
          rw [hs']
          simp [Shelf.deleted]
      · obtain hold | ⟨hold, -⟩ := after_dropped hj
        · exact (hs.counted j repo n (.inr hold)).trans (registry_deletions hreg)
        · exact (hs.counted j repo n (.inl hold)).trans (registry_deletions hreg)
    · rw [hother j hij] at hj
      exact (hs.counted j repo n hj).trans (registry_deletions hreg)
  · obtain ⟨hcached, hkept⟩ | ⟨ttl, hstore⟩ := registry_cache hreg hentry
    · -- the thread that drops the listing leaves none behind, so `j` had dropped before
      refine hs.fresh repo entry hcached j n ?_
      by_cases hij : j = i
      · subst hij
        rw [hself] at hj
        exact (after_dropped hj).resolve_right fun hnew => hkept hnew.2
      · rwa [hother j hij] at hj
    · refine htimely repo entry.listing ttl hstore j n ?_
      by_cases hij : j = i
      · subst hij
        rw [hself] at hj
        refine (after_dropped hj).resolve_right fun hnew => ?_
        rw [hstore] at hnew
        exact nomatch hnew.2
      · rwa [hother j hij] at hj

theorem sound_run {ttl : Duration} {shelf : Shelf} {requests : ι → Request} {t : List (ι × Event cacheCalls)}
    {y : Pool cacheCalls ι (Shelf × (ι → Progress)) Outcome}
    (h : Pool.Run (clients.when Timely) (waiting ttl shelf requests) t y) : Sound y.state := by
  refine h.invariant (fun y => Sound y.state) ⟨fun _ _ _ hj => hj.elim nofun nofun, fun _ _ _ _ _ => nofun⟩ ?_
  intro y e z hy hstep
  cases hstep with
  | answer hnext hr => exact sound_step hy hr

end Run

/-! ## What a request does by itself -/

section Local

variable {ttl : Duration} {repo digest : String} {n : Nat}

theorem delete_drops (w : Progress) : Ends (tracking Progress.after fun _ => True)
    (fun w r => ∀ n, r = .ok n → w = .dropped repo n) (delete repo digest) w := by
  refine ensures_issue_bind (Op.delete repo digest) trivial fun r w hr => ?_
  obtain ⟨-, rfl⟩ := hr
  cases r with
  | error e => exact ensures_ret.2 nofun
  | ok n =>
    refine ensures_issue_bind (Op.drop repo) trivial fun _ w hw => ?_
    obtain ⟨-, rfl⟩ := hw
    refine ensures_ret.2 fun n' hn' => ?_
    cases hn'
    simp [Progress.after]

/-- The answers a request can receive once the deletion `n` of `repo` has dropped the cached listing. -/
def sinceDrop (repo : String) (n : Nat) : Calls.Service cacheCalls Unit := fun _ op r _ =>
  match op, r with
  | .cached repo', r => repo' = repo → ∀ entry, r = some entry → n ≤ entry.listing.began
  | .beginResolve repo', r => repo' = repo → n ≤ r
  | .endResolve _ began, r => ∀ listing, r = .ok listing → listing.began = began
  | _, _ => True

theorem resolveMiss_since : Ends (sinceDrop repo n)
    (fun _ r => ∀ listing, r = .ok listing → n ≤ listing.began) (resolveMiss ttl repo) () := by
  refine ensures_issue_bind (Op.beginResolve repo) trivial fun began _ hbegan => ?_
  refine ensures_issue_bind (Op.endResolve repo began) trivial fun r _ hr => ?_
  cases r with
  | error e => exact ensures_ret.2 nofun
  | ok listing =>
    refine ensures_issue_bind (Op.store repo listing ttl) trivial fun _ _ _ => ?_
    refine ensures_ret.2 fun l hl => ?_
    cases hl
    rw [hr listing rfl]
    exact hbegan rfl

theorem resolveTags_since : Ends (sinceDrop repo n)
    (fun _ r => ∀ listing, r = .ok listing → n ≤ listing.began) (resolveTags ttl repo) () := by
  refine ensures_issue_bind (Op.cached repo) trivial fun r _ hr => ?_
  cases r with
  | none => exact resolveMiss_since
  | some entry =>
    refine ensures_issue_bind Op.now trivial fun now _ _ => ?_
    split
    · refine ensures_ret.2 fun l hl => ?_
      cases hl
      exact hr rfl entry rfl
    · exact resolveMiss_since

theorem tags_since : Ends (sinceDrop repo n)
    (fun _ r => ∀ groups, r = .ok groups → n ≤ groups.began) (tags ttl repo) () := by
  refine resolveTags_since.bind fun _ r hr => ?_
  cases r with
  | error e => exact ensures_ret.2 nofun
  | ok listing =>
    refine ensures_ret.2 fun g hg => ?_
    cases hg
    exact hr listing rfl

theorem program_since {q : Request} (hq : q.reads = some repo) : Ends (sinceDrop repo n)
    (fun _ o => ∀ b, o.began = some b → n ≤ b) (q.program ttl) () := by
  cases q with
  | resolveTags repo' =>
    cases hq
    refine resolveTags_since.map fun _ r hr => fun b hb => ?_
    cases r with
    | error e => cases hb
    | ok listing => exact Option.some.inj hb ▸ hr listing rfl
  | tags repo' =>
    cases hq
    refine tags_since.map fun _ r hr => fun b hb => ?_
    cases r with
    | error e => cases hb
    | ok groups => exact Option.some.inj hb ▸ hr groups rfl
  | delete repo' digest => cases hq

end Local

section Main

variable {ι : Type} [DecidableEq ι] {ttl : Duration} {repo : String} {n : Nat}
  {s s' : Shelf × (ι → Progress)} {op : Op} {r : op.Ans}

theorem sinceDrop_of_sound {i d : ι} (hs : Sound s) (hd : s.2 d = .dropped repo n)
    (h : (clients.when Timely) i s op r s') : sinceDrop repo n () op r () := by
  obtain ⟨-, hreg, -⟩ := h
  cases op with
  | cached repo' =>
    rintro rfl entry rfl
    exact hs.fresh repo' entry hreg.1.symm d n hd
  | beginResolve repo' =>
    rintro rfl
    exact hreg.1 ▸ hs.counted d repo' n (.inr hd)
  | endResolve repo' began => exact hreg.2
  | _ => trivial

theorem dropped_of_returned {shelf : Shelf} {requests : ι → Request} {t : List (ι × Event cacheCalls)}
    {y : Pool cacheCalls ι (Shelf × (ι → Progress)) Outcome}
    (hrun : Pool.Run (clients.when Timely) (waiting ttl shelf requests) t y) {d : ι} {digest : String}
    (hd : requests d = .delete repo digest) (hdone : y.left d = .ret (.deleted (.ok n))) :
    y.state.2 d = .dropped repo n := by
  have hlocal : ∀ i, Ends (tracking Progress.after fun _ => True)
      (fun w o => i = d → ∀ n, o = .deleted (.ok n) → w = .dropped repo n) (y.left i) (y.state.2 i) := by
    refine hrun.ensures (G := fun _ _ _ => True)
      (Q := fun i w o => i = d → ∀ n, o = .deleted (.ok n) → w = .dropped repo n) (watches_watched _).when ?_
    intro i
    by_cases hi : i = d
    · subst hi
      show Ensures _ _ _ ((requests i).program ttl) _
      rw [hd]
      refine (delete_drops _).map fun w r hr => fun _ n hn => hr n ?_
      exact Outcome.deleted.inj hn
    · exact (ensures_any _).imp fun _ _ _ h => absurd h hi
  have hret := hlocal d
  rw [hdone] at hret
  exact ensures_ret.1 hret rfl n rfl

/-- A request that begins after a `Delete` of the repository has returned
nil is answered from a read that began after that deletion. -/
theorem listing_follows_delete (ttl : Duration) (shelf : Shelf) (requests : ι → Request)
    {t t' : List (ι × Event cacheCalls)} {y z : Pool cacheCalls ι (Shelf × (ι → Progress)) Outcome}
    (hrun : Pool.Run (clients.when Timely) (waiting ttl shelf requests) t y)
    (hlater : Pool.Run (clients.when Timely) y t' z) {d : ι} {digest : String}
    (hd : requests d = .delete repo digest) (hdone : y.left d = .ret (.deleted (.ok n))) {q : ι}
    (hreads : (requests q).reads = some repo) (hstart : y.left q = (requests q).program ttl)
    {o : Outcome} (hret : z.left q = .ret o) {b : Nat} (hb : o.began = some b) : n ≤ b := by
  obtain ⟨-, hwithout⟩ := hlater.without hdone
  have hstep : ∀ i s op r s', (Sound s ∧ s.2 d = .dropped repo n) →
      ((clients.when Timely).when fun i _ _ => i ≠ d) i s op r s' → Sound s' ∧ s'.2 d = .dropped repo n := by
    rintro i s op r s' ⟨hs, hdropped⟩ ⟨hi, h⟩
    refine ⟨sound_step hs h, ?_⟩
    rw [h.2.2, update_of_ne (Ne.symm hi)]
    exact hdropped
  have hlocal : ∀ i, Ensures (sinceDrop repo n) (fun _ _ => True)
      (fun _ o => i = q → ∀ b, o.began = some b → n ≤ b) (y.left i) () := by
    intro i
    by_cases hi : i = q
    · subst hi
      rw [hstart]
      exact (program_since hreads).imp fun _ _ h _ => h
    · exact (ensures_any _).imp fun _ _ _ h => absurd h hi
  obtain ⟨_, -, hensures⟩ := hwithout.rely (T := fun _ => sinceDrop repo n) (G := fun _ _ _ => True)
    (R := fun s (_ : ι → Unit) => Sound s ∧ s.2 d = .dropped repo n)
    (Q := fun i _ o => i = q → ∀ b, o.began = some b → n ≤ b)
    (fun i s _ op r s' hs _ h => ⟨(), sinceDrop_of_sound hs.1 hs.2 h.2, hstep i s op r s' hs h⟩)
    ⟨sound_run hrun, dropped_of_returned hrun hd hdone⟩ hlocal
  have hq := hensures q
  rw [hret, ensures_ret] at hq
  exact hq rfl b hb

end Main

/-! ## A listing that outlives the deletion -/

inductive Visitor where
  | slow
  | cleaner
  | late
  deriving DecidableEq

/-- They all mean the repository `engine`, which has one image. -/
def visits : Visitor → Request
  | .slow => .resolveTags "engine"
  | .cleaner => .delete "engine" "sha256:a"
  | .late => .tags "engine"

def engineImage : TagGroup := ⟨"sha256:a", ["v1"], ⟨1⟩⟩

def engineAnswers (s : Shelf) : (op : Op) → Option (op.Ans × Shelf)
  | .cached repo => some (s.cache repo, s)
  | .store repo listing ttl => some ((), s.put repo (some ⟨listing, ⟨0 + ttl⟩⟩))
  | .drop repo => some ((), s.put repo none)
  | .beginResolve repo => some (s.deletions repo, s)
  | .endResolve _ began => some (.ok ⟨⟨if began = 0 then [engineImage] else [], []⟩, began⟩, s)
  | .delete repo _ => some (.ok (s.deletions repo + 1), s.deleted repo)
  | .now => some (⟨0⟩, s)

theorem registry_engineAnswers {s s' : Shelf} (h : engineAnswers s op = some (r, s')) : registry s op r s' := by
  cases op with
  | store repo listing ttl =>
    cases h
    exact ⟨⟨0⟩, rfl⟩
  | endResolve repo began =>
    cases h
    exact ⟨rfl, fun l hl => by cases hl; rfl⟩
  | drop repo =>
    cases h
    rfl
  | now =>
    cases h
    rfl
  | _ =>
    cases h
    exact ⟨rfl, rfl⟩

def visitorAnswers : Answers cacheCalls Visitor (Shelf × (Visitor → Progress)) :=
  Answers.watched Progress.after fun _ => engineAnswers

theorem visitorAnswers_shared (i : Visitor) (s : Shelf × (Visitor → Progress)) (op : Op) (r : op.Ans)
    (s' : Shelf × (Visitor → Progress)) (h : visitorAnswers i s op = some (r, s')) : clients i s op r s' :=
  Answers.watched_shared (Γ := cacheCalls) (f := Progress.after)
    (fun _ _ _ _ _ h => registry_engineAnswers h) i s op r s' h

def visitorsWaiting : Pool cacheCalls Visitor (Shelf × (Visitor → Progress)) Outcome :=
  waiting hour ⟨fun _ => none, fun _ => 0⟩ visits

/-- The slow request has read before the deletion and stores after it;
the late one is told of an image that is gone. -/
theorem stale_listing_after_delete : ∃ t y t' z, Pool.Run clients visitorsWaiting t y ∧ Pool.Run clients y t' z ∧
      y.left .cleaner = .ret (.deleted (.ok 1)) ∧ y.left .late = (visits .late).program hour ∧
      z.left .late = .ret (.groups (.ok ⟨[engineImage], 0⟩)) := by
  obtain ⟨t, y, t', z, hrun, hy, hlate, hrun', hz⟩ := Pool.run_of_plays (x := visitorsWaiting)
    visitorAnswers_shared [.slow, .slow, .slow, .cleaner, .cleaner, .slow] [.late, .late]
    (fun y => (y.left .cleaner).returned = some (.deleted (.ok 1)))
    (fun z => (z.left .late).returned = some (.groups (.ok ⟨[engineImage], 0⟩))) (by decide +kernel)
  exact ⟨t, y, t', z, hrun, hrun', Prog.returned_eq_some.1 (of_decide_eq_true hy), hlate .late (by decide),
    Prog.returned_eq_some.1 (of_decide_eq_true hz)⟩

/-! ## A listing stored in time -/

def timelyTest (_ : Visitor) (s : Shelf × (Visitor → Progress)) : Op → Bool
  | .store repo listing _ => [Visitor.slow, .cleaner, .late].all fun j =>
      match s.2 j with
      | .dropped repo' n => repo' != repo || n ≤ listing.began
      | _ => true
  | _ => true

theorem timely_of_timelyTest (i : Visitor) (s : Shelf × (Visitor → Progress)) (op : Op)
    (h : timelyTest i s op = true) : Timely i s op := by
  rintro repo listing ttl rfl j n hj
  have hmem : j ∈ [Visitor.slow, .cleaner, .late] := by cases j <;> decide
  have hj' := List.all_eq_true.1 h j hmem
  simpa [hj] using hj'

/-- The slow request stores before the deletion, the late one after it, and what the late one sees was read
after it. -/
theorem timely_listing_follows_delete : ∃ t y t' z,
    Pool.Run (clients.when Timely) visitorsWaiting t y ∧ Pool.Run (clients.when Timely) y t' z ∧
      y.left .cleaner = .ret (.deleted (.ok 1)) ∧ z.left .late = .ret (.groups (.ok ⟨[], 1⟩)) ∧ 1 ≤ 1 := by
  obtain ⟨t, y, t', z, hrun, hy, hlate, hrun', hz⟩ := Pool.run_of_plays (x := visitorsWaiting)
    (Answers.only_when visitorAnswers_shared timely_of_timelyTest)
    [.slow, .slow, .slow, .slow, .cleaner, .cleaner] [.late, .late, .late, .late]
    (fun y => (y.left .cleaner).returned = some (.deleted (.ok 1)))
    (fun z => (z.left .late).returned = some (.groups (.ok ⟨[], 1⟩))) (by decide +kernel)
  have hdone := Prog.returned_eq_some.1 (of_decide_eq_true hy)
  have hret := Prog.returned_eq_some.1 (of_decide_eq_true hz)
  refine ⟨t, y, t', z, hrun, hrun', hdone, hret, ?_⟩
  exact listing_follows_delete hour ⟨fun _ => none, fun _ => 0⟩ visits hrun hrun' (d := .cleaner) rfl hdone
    (q := .late) rfl (hlate .late (by decide)) hret rfl

end PodmanApi.ImgRegistry

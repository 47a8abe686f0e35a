/-
# PodmanApi.Instance.TemplateInUse — rows, and the templates they name.

A deletion that is not forced holds the template lock, lists the rows of every configured host and gives up when
one of them names the template. An apply holds the read side of that lock while it reads the template once more
and writes its row, so one of the two sees the other.

Two writes go around this: a failed restore writes the row back without the lock, and so does the second write
of a rename. Rows of hosts that are no longer configured are not listed at all.
-/
import PodmanApi.Calls.Pool
import PodmanApi.Instance.Aloof
import PodmanApi.Store

namespace PodmanApi.Instance

open GoStd Calls
open Function (update update_self update_of_ne update_apply update_eq_self)

/-! ## The shared state -/

/-- The ids of the stored templates, the rows, who holds which lock; and the templates removed by a deletion and
not created anew since. -/
structure Registry (ι : Type) where
  ids : List String
  rows : Rows
  readers : ι → Bool
  writer : Option ι
  held : Mutex → Option ι
  removed : List String

section Registry

variable {ι : Type} [DecidableEq ι]

/-- The store and the locks. A failed call of the store changes nothing; all other answers are free. -/
def registry : Shared calls ι (Registry ι) := fun i w op r w' =>
  match op, r with
  | .getTemplate id, r => (∀ t, r = .ok t → id ∈ w.ids) ∧ w' = w
  | .putTemplate t, .ok _ =>
    w' = { w with ids := t.metadata.id :: w.ids, removed := w.removed.filter (· ≠ t.metadata.id) }
  | .deleteTemplate id, .ok _ => w' = { w with ids := w.ids.filter (· ≠ id), removed := id :: w.removed }
  | .getSpec h t sl, r => (∀ sp, r = .ok sp → w.rows.get ⟨h, t, sl⟩ = some sp) ∧ w' = w
  | .putSpec sp, .ok _ => w' = { w with rows := w.rows.put sp }
  | .deleteSpec h t sl, .ok _ => w' = { w with rows := w.rows.erase ⟨h, t, sl⟩ }
  | .listSpecKeys h, r => (∀ keys, r = .ok keys → keys = w.rows.keys h) ∧ w' = w
  | .lock m, _ => w.held m = none ∧ w' = { w with held := update w.held m (some i) }
  | .unlock m, _ => w.held m = some i ∧ w' = { w with held := update w.held m none }
  | .rlockTemplates, _ => w.writer = none ∧ w' = { w with readers := update w.readers i true }
  | .runlockTemplates, _ => w.readers i = true ∧ w' = { w with readers := update w.readers i false }
  | .lockTemplates, _ =>
    w.writer = none ∧ (∀ j, w.readers j = false) ∧ w' = { w with writer := some i }
  | .unlockTemplates, _ => w.writer = some i ∧ w' = { w with writer := none }
  | _, _ => w' = w

/-- A write of a row by a thread without the read lock happens while the template is stored and no thread
holds the template lock. -/
def Vouched (i : ι) (w : Registry ι) : Op → Prop
  | .putSpec sp => w.readers i = false → sp.template ∈ w.ids ∧ w.writer = none
  | _ => True

end Registry

inductive Operation where
  | apply (host : String) (req : ApplyRequest) (opts : ApplyOptions)
  | delete (host tmpl slug : String) (opts : DeleteOptions)
  | restore (backup : String)
  | rename (host tmpl slug : String) (req : RenameRequest)
  | migrate (req : MigrateRequest)
  | createTemplate (t : Template)
  | cloneTemplate (srcID newID : String)
  | deleteTemplate (id : String)

/-- The program of an operation; a deletion of a template is not forced. -/
def Operation.prog (s : Service) (a : Authoring) : Operation → Prog calls (Except Error Unit)
  | .apply host req opts => s.apply host req opts >>= fun out => pure out.1
  | .delete host tmpl slug opts => (s.delete host tmpl slug opts).run
  | .restore backup => (s.restore backup).run
  | .rename host tmpl slug req => (s.rename host tmpl slug req).run
  | .migrate req => (s.migrate req).run
  | .createTemplate t => (s.createTemplate a t).run
  | .cloneTemplate srcID newID => (s.cloneTemplate a srcID newID).run >>= fun r => pure (r.map fun _ => ())
  | .deleteTemplate id => (s.deleteTemplate id false).run

/-! ## What one operation keeps to -/

/-- What an operation knows: whether it holds the read lock and which templates it has read since; whether it
holds the template lock and what it has listed since. -/
structure Stage where
  reading : Bool := false
  seen : List String := []
  writing : Bool := false
  scanned : List (String × List SpecKey) := []

namespace Stage

def note (x : Stage) : Event calls → Stage
  | ⟨.rlockTemplates, _⟩ => { x with reading := true, seen := [] }
  | ⟨.runlockTemplates, _⟩ => { x with reading := false, seen := [] }
  | ⟨.lockTemplates, _⟩ => { x with writing := true, scanned := [] }
  | ⟨.unlockTemplates, _⟩ => { x with writing := false, scanned := [] }
  | ⟨.getTemplate id, .ok _⟩ => if x.reading then { x with seen := id :: x.seen } else x
  | ⟨.listSpecKeys h, .ok keys⟩ => if x.writing then { x with scanned := (h, keys) :: x.scanned } else x
  | _ => x

end Stage

/-- A row that is read by its key has that key. -/
def Keyed : Event calls → Prop
  | ⟨.getSpec h t sl, .ok sp⟩ => sp.id = ⟨h, t, sl⟩
  | _ => True

abbrev staging : Calls.Service calls Stage :=
  tracking Stage.note Keyed

/-- What an operation keeps to. A row is one of a configured host, and under the read lock its template has been
read; a template is deleted under the lock, after every configured host was listed and no row names it. -/
def Orderly (s : Service) (x : Stage) : Op → Prop
  | .putSpec sp => (s.host sp.host).isSome = true ∧ (x.reading = true → sp.template ∈ x.seen)
  | .deleteTemplate id => x.writing = true ∧
      ∀ h ∈ GoMap.keys s.hosts, ∃ keys, (h, keys) ∈ x.scanned ∧ ∀ k ∈ keys, k.template ≠ id
  | _ => True

/-! ## Each operation by itself -/

def Stage.Rest (x : Stage) : Prop :=
  x.reading = false

variable {host id : String} {sp : Spec} {op : Op}

section Programs

variable {s : Service} {x : Stage} {op : Op}

theorem Aloof.rest (hop : Aloof op) (r : op.Ans) (hx : x.Rest) : (x.note ⟨op, r⟩).Rest := by
  cases op with
  | rlockTemplates | runlockTemplates => cases hop
  | getTemplate id =>
    cases r with
    | error e => exact hx
    | ok t =>
      show (if x.reading then { x with seen := id :: x.seen } else x).reading = false
      split <;> exact hx
  | listSpecKeys h =>
    cases r with
    | error e => exact hx
    | ok keys =>
      show (if x.writing then { x with scanned := (h, keys) :: x.scanned } else x).reading = false
      split <;> exact hx
  | _ => exact hx

theorem Aloof.orderly (hop : Aloof op) : Orderly s x op := by
  cases op with
  | putSpec | deleteTemplate => cases hop
  | _ => trivial

theorem aloof_keeps {α : Type} {p : Prog calls α} (hp : p.Issues Aloof) : p.Keeps staging (Orderly s) Stage.Rest :=
  hp.keeps (fun _ _ r _ hop hx hstep => hstep.2 ▸ hop.rest r hx) fun _ _ hop _ => hop.orderly

theorem persistSpec_keeps (hhost : (s.host sp.host).isSome = true) :
    (Service.persistSpec sp).run.Keeps staging (Orderly s) Stage.Rest := by
  intro x _
  refine ensures_ask_bind trivial fun _ y hy => ?_
  obtain ⟨-, rfl⟩ := hy
  refine ensures_ask_bind trivial fun r y hy => ?_
  obtain ⟨-, rfl⟩ := hy
  cases r with
  | error e =>
    refine ensures_ask_bind trivial fun _ y hy => ?_
    obtain ⟨-, rfl⟩ := hy
    exact ensures_throw.2 rfl
  | ok t =>
    refine ensures_ask_bind ⟨hhost, fun _ => List.mem_cons_self⟩ fun wrote y hy => ?_
    refine ensures_ask_bind trivial fun _ y hy => ?_
    obtain ⟨-, rfl⟩ := hy
    exact ensures_mapErr.2 (ensures_ret.2 rfl)

theorem apply_orderly {req : ApplyRequest} {opts : ApplyOptions} :
    (s.apply host req opts).Keeps staging (Orderly s) Stage.Rest :=
  apply_keeps aloof_keeps fun hhost _ => persistSpec_keeps hhost

theorem putSpec_orderly (hhost : (s.host sp.host).isSome = true) :
    (issue (.putSpec sp)).Keeps staging (Orderly s) Stage.Rest := by
  intro x hx
  refine ensures_issue (Op.putSpec sp) ⟨hhost, fun hreading => ?_⟩ fun r y hy => ?_
  · exact absurd hreading (by rw [show x.reading = false from hx]; decide)
  · obtain ⟨-, rfl⟩ := hy
    exact hx

theorem getSpec_orderly {tmpl slug : String} (hx : x.Rest) :
    Ensures staging (Orderly s) (fun y r => y.Rest ∧ ∀ sp, r = .ok sp → sp.host = host)
      (issue (.getSpec host tmpl slug)) x := by
  refine ensures_issue (Op.getSpec host tmpl slug) trivial fun r y hy => ?_
  obtain ⟨hkeyed, rfl⟩ := hy
  refine ⟨hx, fun sp hsp => ?_⟩
  subst hsp
  exact congrArg SpecId.host (show sp.id = ⟨host, tmpl, slug⟩ from hkeyed)

theorem renameSpecs_orderly {tmpl slug : String} {req : RenameRequest} {spec : Spec}
    (hhost : (s.host host).isSome = true) :
    (Service.renameSpecs host tmpl slug req spec).run.Keeps staging (Orderly s) Stage.Rest := by
  refine Prog.Keeps.andThen (aloof_keeps ?_) fun _ x hx => ?_
  · exact forgetOldSpec_issues trivial
  · refine .andThen (P := fun y r => y.Rest ∧ ∀ sp, r = .ok sp → sp.host = host) ?_ (fun _ _ h => h.1)
      fun y applied hy => ?_
    · refine ensures_mapErr.2 ((getSpec_orderly hx).imp fun y r hy => ⟨hy.1, fun sp hsp => hy.2 sp ?_⟩)
      cases r with
      | ok sp' => exact hsp
      | error e => cases hsp
    · refine Prog.Keeps.mapErr (putSpec_orderly ?_) y hy.1
      exact (hy.2 applied rfl).symm ▸ hhost

theorem restorePostTeardown_orderly {b : Backup} {spec : Spec} :
    (s.restorePostTeardown b spec).Keeps staging (Orderly s) Stage.Rest := by
  refine Prog.Keeps.bind (aloof_keeps (issues_forM _ fun bv _ =>
    restoreVolumeNamed_issues.mono fun op h => h.aloof)) fun r => ?_
  cases r with
  | error e => exact keeps_ret _
  | ok _ =>
    refine apply_orderly.bind fun out => ?_
    split
    · exact keeps_ret _
    · exact (aloof_keeps (waitRunning_issues.mono fun op h => h.aloof).mapErr).bind fun r => keeps_ret _

theorem snapshotRestore_orderly {b : Backup} (hhost : (s.host b.host).isSome = true) :
    (s.snapshotRestore b).run.Keeps staging (Orderly s) Stage.Rest := by
  intro x hx
  refine .andThen (getSpec_orderly hx) (fun _ _ h => h.1) fun y spec hy => ?_
  have hrow : (s.host spec.host).isSome = true := (hy.2 spec rfl).symm ▸ hhost
  refine Prog.Keeps.andThen (aloof_keeps ?_) (fun _ => ?_) y hy.1
  · exact teardown_issues.mono fun op h => h.aloof
  refine restorePostTeardown_orderly.embed.andThen fun out => ?_
  split
  · exact keeps_ret _
  · -- the row goes back as it was read, but for its secrets
    refine fun y hy => ensures_ask_bind ⟨hrow, fun hreading => ?_⟩ fun _ z hz => ?_
    · exact absurd hreading (by rw [show y.reading = false from hy]; decide)
    · obtain ⟨-, rfl⟩ := hz
      exact ensures_throw.2 hy

/-- What a deletion knows while it scans: the hosts listed so far have no row of the template. -/
def Stage.Scanned (id : String) (done : List String) (x : Stage) : Prop :=
  x.Rest ∧ x.writing = true ∧ ∀ h ∈ done, ∃ keys, (h, keys) ∈ x.scanned ∧ ∀ k ∈ keys, k.template ≠ id

theorem requireUnused_scans {done : List String} (hx : x.Scanned id done) : Ensures staging (Orderly s)
      (fun y r => (r = .ok ⟨⟩ → y.Scanned id (done ++ [host])) ∧ ∀ e, r = .error e → y.Rest)
      (requireUnused id host).run x := by
  obtain ⟨hrest, hwriting, hdone⟩ := hx
  refine .andThen (P := fun y r => y.Rest ∧ ∀ keys, r = .ok keys →
    y = { x with scanned := (host, keys) :: x.scanned }) ?_ (fun y e hy => ⟨nofun, fun _ _ => hy.1⟩)
    fun y keys hy => ?_
  · refine ensures_issue (Op.listSpecKeys host) trivial fun r y hy => ?_
    obtain ⟨-, rfl⟩ := hy
    refine ⟨(show Aloof (.listSpecKeys host) from trivial).rest r hrest, fun keys hkeys => ?_⟩
    subst hkeys
    exact if_pos hwriting
  · obtain rfl := hy.2 keys rfl
    split
    · exact ensures_throw.2 ⟨nofun, fun _ _ => hrest⟩
    · rename_i hnone
      refine ensures_pure.2 ⟨fun _ => ⟨hrest, hwriting, fun h hh => ?_⟩, nofun⟩
      rcases List.mem_append.1 hh with hh | hh
      · obtain ⟨keys', hmem, hkeys'⟩ := hdone h hh
        exact ⟨keys', List.mem_cons_of_mem _ hmem, hkeys'⟩
      · obtain rfl := List.mem_singleton.1 hh
        refine ⟨keys, List.mem_cons_self, fun k hk htmpl => ?_⟩
        exact List.find?_eq_none.1 hnone k hk (by simpa using htmpl)

theorem deleteTemplate_orderly : (s.deleteTemplate id false).run.Keeps staging (Orderly s) Stage.Rest := by
  intro x hx
  -- the lock is released on every path, so it is enough that the body ends outside of the read section
  have hbody : ∀ y : Stage, y.Rest → y.writing = true → Ensures staging (Orderly s) (fun z _ => z.Rest)
      (do
        let _ ← getTemplate id
        s.requireReleased id false
        Act.lift (issue (.deleteTemplate id)) : Task Unit).run y := by
    intro y hy hwriting
    refine .andThen (P := fun z _ => z.Rest ∧ z.writing = true) ?_ (fun _ _ h => h.1) fun z _ hz => ?_
    · refine ensures_ask_bind trivial fun r z hz => ?_
      obtain ⟨-, rfl⟩ := hz
      cases r with
      | error e => exact ensures_throw.2 ⟨hy, hwriting⟩
      | ok t =>
        have hsame : y.note ⟨.getTemplate id, .ok t⟩ = y :=
          if_neg (by rw [show y.reading = false from hy]; decide)
        rw [hsame]
        exact ensures_pure.2 ⟨hy, hwriting⟩
    have hscan : Ensures staging (Orderly s)
        (fun u r => (r = .ok ⟨⟩ → u.Scanned id (GoMap.keys s.hosts)) ∧ ∀ e, r = .error e → u.Rest)
        (s.requireReleased id false).run z := by
      show Ensures _ _ _ (forM (GoMap.keys s.hosts) (requireUnused id)).run z
      refine ensures_forM (fun done u => u.Scanned id done) _ (fun done h rest _ u hu => ?_)
        (fun u hu => ⟨fun _ => hu, nofun⟩) ⟨hz.1, hz.2, nofun⟩
      exact (requireUnused_scans hu).imp fun v r hv => ⟨hv.1, fun e he => ⟨nofun, fun _ _ => hv.2 e he⟩⟩
    refine hscan.andThen (fun u e hu => hu.2 e rfl) fun u _ hu => ?_
    obtain ⟨hrest, hlocked, hclear⟩ := hu.1 rfl
    refine ensures_issue (Op.deleteTemplate id) ⟨hlocked, hclear⟩ fun r v hv => ?_
    obtain ⟨-, rfl⟩ := hv
    exact hrest
  refine ensures_issue_bind Op.lockTemplates trivial fun _ y hy => ?_
  obtain ⟨-, rfl⟩ := hy
  refine (hbody (x.note ⟨.lockTemplates, ()⟩) hx rfl).bind fun z r hz => ?_
  refine ensures_issue_bind Op.unlockTemplates trivial fun _ u hu => ?_
  obtain ⟨-, rfl⟩ := hu
  exact ensures_ret.2 hz

theorem operation_orderly {a : Authoring} (o : Operation) : (o.prog s a).Keeps staging (Orderly s) Stage.Rest := by
  cases o with
  | apply host req opts => exact apply_orderly.bind fun out => keeps_ret _
  | delete host tmpl slug opts => exact aloof_keeps ((delete_issues opts).mono fun op h => h.aloof)
  | restore backup => exact restore_keeps aloof_keeps fun b => snapshotRestore_orderly
  | rename host tmpl slug req =>
    exact rename_keeps aloof_keeps (fun _ _ => apply_orderly) fun hhost _ => renameSpecs_orderly hhost
  | migrate req => exact migrate_keeps aloof_keeps fun _ _ _ => apply_orderly
  | createTemplate t => exact aloof_keeps (createTemplate_issues trivial trivial (fun _ => trivial) fun _ _ => trivial)
  | cloneTemplate srcID newID =>
    have hclone : (s.cloneTemplate a srcID newID).run.Issues Aloof :=
      cloneTemplate_issues trivial trivial (fun _ => trivial) fun _ _ => trivial
    exact (aloof_keeps hclone).bind fun r => keeps_ret _
  | deleteTemplate id => exact deleteTemplate_orderly

end Programs

/-! ## Side by side -/

/-- What the store and the locks say of the stage of one operation. The rows it has listed under the template lock
are still all there are. -/
structure Sees {ι : Type} (w : Registry ι) (i : ι) (x : Stage) : Prop where
  reading : x.reading = w.readers i
  writing : x.writing = true → w.writer = some i
  seen : ∀ id ∈ x.seen, w.readers i = true ∧ id ∈ w.ids
  scanned : ∀ e ∈ x.scanned, w.writer = some i ∧
    ∀ sp ∈ w.rows.list, sp.host = e.1 → ⟨sp.template, sp.slug⟩ ∈ e.2

structure Registry.Sound {ι : Type} (s : Service) (w : Registry ι) : Prop where
  exclusive : ∀ i j, w.writer = some i → w.readers j = false
  hosts : ∀ sp ∈ w.rows.list, (s.host sp.host).isSome = true
  gone : ∀ id ∈ w.removed, id ∉ w.ids
  released : ∀ sp ∈ w.rows.list, sp.template ∉ w.removed

/-- The store, the locks and the stages of all operations. -/
def Consistent {ι : Type} (s : Service) (w : Registry ι) (a : ι → Stage) : Prop :=
  w.Sound s ∧ ∀ i, Sees w i (a i)

section Interleaved

variable {ι : Type} {s : Service} {w : Registry ι} {a : ι → Stage} {i : ι}

theorem Sees.readers [DecidableEq ι] {j : ι} {x : Stage} (h : Sees w j x) (hj : j ≠ i) (held : Bool) :
    Sees { w with readers := update w.readers i held } j x := by
  have hsame : update w.readers i held j = w.readers j := update_of_ne hj _ _
  exact ⟨h.reading.trans hsame.symm, h.writing, fun id hid => ⟨hsame.trans (h.seen id hid).1, (h.seen id hid).2⟩,
    h.scanned⟩

section Step

variable (h : Consistent s w a)

include h

theorem Consistent.held (held : Mutex → Option ι) : Consistent s { w with held := held } a :=
  ⟨⟨h.1.exclusive, h.1.hosts, h.1.gone, h.1.released⟩,
    fun j => ⟨(h.2 j).reading, (h.2 j).writing, (h.2 j).seen, (h.2 j).scanned⟩⟩

theorem Consistent.putSpec (horderly : Orderly s (a i) (.putSpec sp))
    (hvouched : Vouched i w (.putSpec sp)) : Consistent s { w with rows := w.rows.put sp } a := by
  obtain ⟨hsound, hsees⟩ := h
  obtain ⟨hhost, hseen⟩ := horderly
  -- under the read lock the template has been read there; without it the write is vouched for
  have hwrite : sp.template ∈ w.ids ∧ w.writer = none := by
    by_cases hreading : w.readers i = true
    · refine ⟨((hsees i).seen _ (hseen ((hsees i).reading.trans hreading))).2, ?_⟩
      refine Option.eq_none_iff_forall_ne_some.2 fun j hj => ?_
      rw [hsound.exclusive j i hj] at hreading
      cases hreading
    · exact hvouched (by simpa using hreading)
  obtain ⟨hstored, hfree⟩ := hwrite
  refine ⟨⟨hsound.exclusive, fun other hother => ?_, hsound.gone, fun other hother => ?_⟩, fun j => ?_⟩
  · rcases Rows.mem_put.1 hother with rfl | hother
    · exact hhost
    · exact hsound.hosts other hother.1
  · rcases Rows.mem_put.1 hother with rfl | hother
    · exact fun hgone => hsound.gone _ hgone hstored
    · exact hsound.released other hother.1
  · refine ⟨(hsees j).reading, (hsees j).writing, (hsees j).seen, fun e he => ?_⟩
    have howner := ((hsees j).scanned e he).1
    rw [hfree] at howner
    cases howner

theorem Consistent.deleteSpec (k : SpecId) : Consistent s { w with rows := w.rows.erase k } a := by
  obtain ⟨hsound, hsees⟩ := h
  have hsub : ∀ sp ∈ (w.rows.erase k).list, sp ∈ w.rows.list := fun sp hsp => (Rows.mem_erase.1 hsp).1
  refine ⟨⟨hsound.exclusive, fun sp hsp => hsound.hosts sp (hsub sp hsp), hsound.gone,
    fun sp hsp => hsound.released sp (hsub sp hsp)⟩, fun j => ?_⟩
  refine ⟨(hsees j).reading, (hsees j).writing, (hsees j).seen, fun e he => ?_⟩
  obtain ⟨howner, hrows⟩ := (hsees j).scanned e he
  exact ⟨howner, fun sp hsp => hrows sp (hsub sp hsp)⟩

theorem Consistent.putTemplate (id : String) :
    Consistent s { w with ids := id :: w.ids, removed := w.removed.filter (· ≠ id) } a := by
  obtain ⟨hsound, hsees⟩ := h
  refine ⟨⟨hsound.exclusive, hsound.hosts, fun other hother => ?_, fun sp hsp hgone => ?_⟩, fun j => ?_⟩
  · obtain ⟨hgone, hne⟩ := List.mem_filter.1 hother
    simpa using ⟨of_decide_eq_true hne, hsound.gone other hgone⟩
  · exact hsound.released sp hsp (List.mem_filter.1 hgone).1
  · refine ⟨(hsees j).reading, (hsees j).writing, fun other hother => ?_, (hsees j).scanned⟩
    obtain ⟨hreading, hmem⟩ := (hsees j).seen other hother
    exact ⟨hreading, List.mem_cons_of_mem _ hmem⟩

theorem Consistent.deleteTemplate (horderly : Orderly s (a i) (.deleteTemplate id)) :
    Consistent s { w with ids := w.ids.filter (· ≠ id), removed := id :: w.removed } a := by
  obtain ⟨hsound, hsees⟩ := h
  obtain ⟨hwriting, hscanned⟩ := horderly
  have howner := (hsees i).writing hwriting
  -- every row is one of a configured host, so it was listed, and what was listed does not name the template
  have hunused : ∀ sp ∈ w.rows.list, sp.template ≠ id := by
    intro sp hsp
    obtain ⟨keys, hmem, hkeys⟩ := hscanned sp.host (GoMap.mem_keys_of_get? (hsound.hosts sp hsp))
    exact hkeys _ (((hsees i).scanned _ hmem).2 sp hsp rfl)
  refine ⟨⟨hsound.exclusive, hsound.hosts, fun other hother hmem => ?_, fun sp hsp hgone => ?_⟩, fun j => ?_⟩
  · obtain ⟨hmem, hne⟩ := List.mem_filter.1 hmem
    rcases List.mem_cons.1 hother with rfl | hother
    · exact of_decide_eq_true hne rfl
    · exact hsound.gone other hother hmem
  · rcases List.mem_cons.1 hgone with heq | hgone
    · exact hunused sp hsp heq
    · exact hsound.released sp hsp hgone
  · refine ⟨(hsees j).reading, (hsees j).writing, fun other hother => ?_, (hsees j).scanned⟩
    -- nobody reads while the lock is held
    have hreading := ((hsees j).seen other hother).1
    rw [hsound.exclusive i j howner] at hreading
    cases hreading

variable [DecidableEq ι]

theorem Consistent.idle {x : Stage} (hx : x = a i) : Consistent s w (update a i x) := by
  subst hx
  rwa [update_eq_self]

/-- The read lock is taken, when nobody writes, or given back. -/
theorem Consistent.reading {held : Bool} (hfree : held = true → w.writer = none) :
    Consistent s { w with readers := update w.readers i held }
      (update a i { a i with reading := held, seen := [] }) := by
  obtain ⟨hsound, hsees⟩ := h
  refine ⟨⟨fun j k hj => ?_, hsound.hosts, hsound.gone, hsound.released⟩,
    Function.forall_update_iff a (p := fun j x => Sees _ j x) |>.2 ⟨?_, fun j hj => ?_⟩⟩
  · show update w.readers i held k = false
    rw [update_apply]
    split
    · exact Bool.eq_false_iff.2 fun hheld => absurd (hj.symm.trans (hfree hheld)) nofun
    · exact hsound.exclusive j k hj
  · exact ⟨(update_self i held w.readers).symm, (hsees i).writing, nofun, (hsees i).scanned⟩
  · exact (hsees j).readers hj held

theorem Consistent.lockTemplates (hfree : w.writer = none) (hreaders : ∀ j, w.readers j = false) :
    Consistent s { w with writer := some i } (update a i ((a i).note ⟨.lockTemplates, ()⟩)) := by
  obtain ⟨hsound, hsees⟩ := h
  refine ⟨⟨fun j k _ => hreaders k, hsound.hosts, hsound.gone, hsound.released⟩,
    Function.forall_update_iff a (p := fun j x => Sees _ j x) |>.2 ⟨?_, fun j _ => ?_⟩⟩
  · exact ⟨(hsees i).reading, fun _ => rfl, (hsees i).seen, nofun⟩
  · refine ⟨(hsees j).reading, fun hwriting => ?_, (hsees j).seen, fun e he => ?_⟩
    · have howner := (hsees j).writing hwriting
      rw [hfree] at howner
      cases howner
    · have howner := ((hsees j).scanned e he).1
      rw [hfree] at howner
      cases howner

theorem Consistent.unlockTemplates (howner : w.writer = some i) :
    Consistent s { w with writer := none } (update a i ((a i).note ⟨.unlockTemplates, ()⟩)) := by
  obtain ⟨hsound, hsees⟩ := h
  refine ⟨⟨nofun, hsound.hosts, hsound.gone, hsound.released⟩,
    Function.forall_update_iff a (p := fun j x => Sees _ j x) |>.2 ⟨?_, fun j hj => ?_⟩⟩
  · exact ⟨(hsees i).reading, nofun, (hsees i).seen, nofun⟩
  · have hother : w.writer ≠ some j := fun h => hj (Option.some.inj (h.symm.trans howner))
    exact ⟨(hsees j).reading, fun hwriting => absurd ((hsees j).writing hwriting) hother, (hsees j).seen,
      fun e he => absurd ((hsees j).scanned e he).1 hother⟩

theorem Consistent.learn {x : Stage} (hx : Sees w i x) : Consistent s w (update a i x) :=
  ⟨h.1, Function.forall_update_iff a (p := fun j x => Sees w j x) |>.2 ⟨hx, fun j _ => h.2 j⟩⟩

theorem Consistent.getTemplate {r : Except Error Template} (hr : ∀ t, r = .ok t → id ∈ w.ids) :
    Consistent s w (update a i ((a i).note ⟨.getTemplate id, r⟩)) := by
  have hself := h.2 i
  cases r with
  | error e => exact h.idle rfl
  | ok t =>
    refine h.learn ?_
    show Sees w i (if (a i).reading then { a i with seen := id :: (a i).seen } else a i)
    split
    · rename_i hreading
      refine ⟨hself.reading, hself.writing, fun other hother => ?_, hself.scanned⟩
      rcases List.mem_cons.1 hother with rfl | hother
      · exact ⟨hself.reading.symm.trans hreading, hr t rfl⟩
      · exact hself.seen other hother
    · exact hself

theorem Consistent.listSpecKeys {r : Except Error (List SpecKey)}
    (hr : ∀ keys, r = .ok keys → keys = w.rows.keys host) :
    Consistent s w (update a i ((a i).note ⟨.listSpecKeys host, r⟩)) := by
  have hself := h.2 i
  cases r with
  | error e => exact h.idle rfl
  | ok keys =>
    refine h.learn ?_
    show Sees w i (if (a i).writing then { a i with scanned := (host, keys) :: (a i).scanned } else a i)
    split
    · rename_i hwriting
      refine ⟨hself.reading, hself.writing, hself.seen, fun e he => ?_⟩
      rcases List.mem_cons.1 he with rfl | he
      · refine ⟨hself.writing hwriting, fun sp hsp hhost => ?_⟩
        rw [hr keys rfl]
        exact List.mem_map.2 ⟨sp, List.mem_filter.2 ⟨hsp, decide_eq_true hhost⟩, rfl⟩
      · exact hself.scanned e he
    · exact hself

theorem Consistent.step {r : op.Ans} {w' : Registry ι} (horderly : Orderly s (a i) op)
    (hstep : registry.when Vouched i w op r w') :
    Keyed ⟨op, r⟩ ∧ Consistent s w' (update a i ((a i).note ⟨op, r⟩)) := by
  obtain ⟨hvouched, hstep⟩ := hstep
  cases op with
  | getTemplate id =>
    obtain ⟨hr, rfl⟩ := hstep
    exact ⟨trivial, h.getTemplate hr⟩
  | listSpecKeys host =>
    obtain ⟨hr, rfl⟩ := hstep
    exact ⟨trivial, h.listSpecKeys hr⟩
  | getSpec host tmpl slug =>
    obtain ⟨hr, rfl⟩ := hstep
    cases r with
    | error e => exact ⟨trivial, h.idle rfl⟩
    | ok sp => exact ⟨Rows.keyed (hr sp rfl), h.idle rfl⟩
  | putTemplate t =>
    cases r with
    | error e => exact ⟨trivial, (show w' = w from hstep) ▸ h.idle rfl⟩
    | ok _ =>
      obtain rfl := show w' = _ from hstep
      exact ⟨trivial, (h.putTemplate _).idle rfl⟩
  | deleteTemplate id =>
    cases r with
    | error e => exact ⟨trivial, (show w' = w from hstep) ▸ h.idle rfl⟩
    | ok _ =>
      obtain rfl := show w' = _ from hstep
      exact ⟨trivial, (h.deleteTemplate horderly).idle rfl⟩
  | putSpec sp =>
    cases r with
    | error e => exact ⟨trivial, (show w' = w from hstep) ▸ h.idle rfl⟩
    | ok _ =>
      obtain rfl := show w' = _ from hstep
      exact ⟨trivial, (h.putSpec horderly hvouched).idle rfl⟩
  | deleteSpec host tmpl slug =>
    cases r with
    | error e => exact ⟨trivial, (show w' = w from hstep) ▸ h.idle rfl⟩
    | ok _ =>
      obtain rfl := show w' = _ from hstep
      exact ⟨trivial, (h.deleteSpec _).idle rfl⟩
  | rlockTemplates =>
    obtain ⟨hfree, rfl⟩ := hstep
    exact ⟨trivial, h.reading fun _ => hfree⟩
  | runlockTemplates =>
    obtain ⟨-, rfl⟩ := hstep
    exact ⟨trivial, h.reading nofun⟩
  | lockTemplates =>
    obtain ⟨hfree, hreaders, rfl⟩ := hstep
    exact ⟨trivial, h.lockTemplates hfree hreaders⟩
  | unlockTemplates =>
    obtain ⟨howner, rfl⟩ := hstep
    exact ⟨trivial, h.unlockTemplates howner⟩
  | lock m | unlock m =>
    obtain ⟨-, rfl⟩ := hstep
    exact ⟨trivial, Consistent.idle (h.held _) rfl⟩
  | _ => exact ⟨trivial, (show w' = w from hstep) ▸ h.idle rfl⟩

end Step

variable [DecidableEq ι]

/-- **Deleted templates are unused.**  Operations run side by side, from a store whose rows are those of
configured hosts. As long as rows written without the template lock are vouched for, no row names a template that
a deletion has removed. -/
theorem deleted_templates_unused {aut : Authoring} {ops : ι → Operation} {start : Registry ι}
    (hreaders : ∀ i, start.readers i = false) (hremoved : start.removed = [])
    (hhosts : ∀ sp ∈ start.rows.list, (s.host sp.host).isSome = true) {t : List (ι × Event calls)}
    {y : Pool calls ι (Registry ι) (Except Error Unit)}
    (hrun : Pool.Run (registry.when Vouched) ⟨start, fun i => (ops i).prog s aut⟩ t y) :
    ∀ sp ∈ y.state.rows.list, sp.template ∉ y.state.removed := by
  have hstart : Consistent s start fun _ => {} := by
    refine ⟨⟨fun i j hi => ?_, hhosts, ?_, ?_⟩, fun i => ⟨(hreaders i).symm, nofun, nofun, nofun⟩⟩
    · exact hreaders j
    · rw [hremoved]
      exact nofun
    · rw [hremoved]
      exact fun _ _ => nofun
  have hstep : ∀ (i : ι) (w : Registry ι) a op r w', Consistent s w a → Orderly s (a i) op → registry.when Vouched i w op r w' →
      ∃ x, staging (a i) op r x ∧ Consistent s w' (update a i x) := by
    intro i w a op r w' hcons horderly hstep
    obtain ⟨hkeyed, hnext⟩ := hcons.step horderly hstep
    exact ⟨_, ⟨hkeyed, rfl⟩, hnext⟩
  obtain ⟨a, hcons, -⟩ := hrun.rely (T := fun _ => staging) (G := fun _ => Orderly s)
    (Q := fun _ x _ => x.Rest) hstep hstart fun i => operation_orderly (ops i) {} rfl
  exact hcons.1.released

end Interleaved

/-! ## A restore and a deletion -/

def registryAnswers : Calls.Answers calls Bool (Registry Bool) := fun i w op =>
  match op with
  | .getTemplate id => some (if id ∈ w.ids then .ok exampleTemplate else .error (.sentinel .storeNotFound), w)
  | .putTemplate t =>
    some (.ok (), { w with ids := t.metadata.id :: w.ids, removed := w.removed.filter (· ≠ t.metadata.id) })
  | .deleteTemplate id => some (.ok (), { w with ids := w.ids.filter (· ≠ id), removed := id :: w.removed })
  | .getSpec h t sl => some (found .storeNotFound (w.rows.get ⟨h, t, sl⟩), w)
  | .putSpec sp => some (.ok (), { w with rows := w.rows.put sp })
  | .deleteSpec h t sl => some (.ok (), { w with rows := w.rows.erase ⟨h, t, sl⟩ })
  | .listSpecKeys h => some (.ok (w.rows.keys h), w)
  | .getBackup _ => some (.ok exampleBackup, w)
  | .lock m => if w.held m = none then some ((), { w with held := update w.held m (some i) }) else none
  | .unlock m => if w.held m = some i then some ((), { w with held := update w.held m none }) else none
  | .rlockTemplates =>
    if w.writer = none then some ((), { w with readers := update w.readers i true }) else none
  | .runlockTemplates =>
    if w.readers i then some ((), { w with readers := update w.readers i false }) else none
  | .lockTemplates =>
    if w.writer = none ∧ ∀ j, w.readers j = false then some ((), { w with writer := some i }) else none
  | .unlockTemplates => if w.writer = some i then some ((), { w with writer := none }) else none
  | op => some (op.plain, w)

def vouches (i : Bool) (w : Registry Bool) : Op → Bool
  | .putSpec sp => w.readers i || (decide (sp.template ∈ w.ids) && w.writer.isNone)
  | _ => true

theorem vouches_vouched {i : Bool} {w : Registry Bool} (h : vouches i w op = true) : Vouched i w op := by
  cases op with
  | putSpec sp =>
    intro hreading
    simpa [vouches, hreading] using h
  | _ => trivial

theorem nodup_exampleRow : ([exampleRow].map Spec.id).Nodup := by decide

def exampleRegistry : Registry Bool where
  ids := ["web", "spare"]
  rows := ⟨[exampleRow], nodup_exampleRow⟩
  readers _ := false
  writer := none
  held _ := none
  removed := []

def restoreBeside (id : String) : Pool calls Bool (Registry Bool) (Except Error Unit) :=
  ⟨exampleRegistry, fun i => (if i then Operation.deleteTemplate id else .restore "b1").prog exampleService
    plainAuthoring⟩

theorem registryAnswers_registry {i : Bool} {w w' : Registry Bool} {r : op.Ans}
    (h : registryAnswers i w op = some (r, w')) : registry i w op r w' := by
  cases op with
  | getTemplate id =>
    cases h
    refine ⟨fun t ht => ?_, rfl⟩
    by_contra hid
    rw [if_neg hid] at ht
    cases ht
  | getSpec host tmpl slug =>
    cases h
    exact ⟨fun sp hsp => found_eq_ok.1 hsp, rfl⟩
  | listSpecKeys host =>
    cases h
    exact ⟨fun keys hkeys => (Except.ok.inj hkeys).symm, rfl⟩
  | lock m | unlock m | rlockTemplates | runlockTemplates | unlockTemplates =>
    dsimp only [registryAnswers] at h
    split at h
    · rename_i hc
      cases h
      exact ⟨hc, rfl⟩
    · cases h
  | lockTemplates =>
    dsimp only [registryAnswers] at h
    split at h
    · rename_i hc
      cases h
      exact ⟨hc.1, hc.2, rfl⟩
    · cases h
  | _ =>
    cases h
    rfl

/-- The restore up to the end of its teardown, then all of the deletion, then the rest of the restore. -/
def aroundTeardown (rest : Nat) : List Bool :=
  List.replicate 14 false ++ List.replicate 6 true ++ List.replicate rest false

/-- Both have returned, the deletion with success, and what the rows and the removed templates are. -/
def endsWith (names removed : List String) (y : Pool calls Bool (Registry Bool) (Except Error Unit)) : Bool :=
  (y.left false).returned.isSome && (y.left true).returned == some (.ok ()) &&
    y.state.rows.list.map (·.template) == names && y.state.removed == removed

/-- While a restore has deleted the row, the template is unused and a deletion goes through; the restore then
fails and puts the row back. -/
theorem restore_revives_unused : (∀ sp ∈ exampleRegistry.rows.list, (exampleService.host sp.host).isSome = true) ∧
    ∃ t y, Pool.Run registry (restoreBeside "web") t y ∧ (y.left false).returned.isSome = true ∧
      (y.left true).returned = some (.ok ()) ∧ ∃ sp ∈ y.state.rows.list, sp.template ∈ y.state.removed := by
  refine ⟨by decide, ?_⟩
  obtain ⟨t, y, hrun, htest⟩ := Pool.run_of_play (S := registry) (fun _ _ _ _ _ => registryAnswers_registry)
    (x := restoreBeside "web") (aroundTeardown 5) (endsWith ["web"] ["web"]) (by decide +kernel)
  simp only [endsWith, Bool.and_eq_true, beq_iff_eq] at htest
  obtain ⟨⟨⟨hrestore, hdelete⟩, hrows⟩, hremoved⟩ := htest
  obtain ⟨sp, hsp, htmpl⟩ := List.mem_map.1 (hrows ▸ List.mem_cons_self : "web" ∈ y.state.rows.list.map (·.template))
  exact ⟨t, y, hrun, hrestore, hdelete, sp, hsp, by rw [htmpl, hremoved]; exact List.mem_cons_self⟩

/-- The same restore beside a deletion of another template puts its row back while its own is stored. -/
theorem deleted_spare_unused : ∃ t y, Pool.Run (registry.when Vouched) (restoreBeside "spare") t y ∧
    y.state.rows.list.map (·.template) = ["web"] ∧ y.state.removed = ["spare"] ∧
      ∀ sp ∈ y.state.rows.list, sp.template ∉ y.state.removed := by
  obtain ⟨t, y, hrun, htest⟩ := Pool.run_of_play (S := registry.when Vouched)
    (Answers.only_when (H := registryAnswers) (C := Vouched) (fun _ _ _ _ _ => registryAnswers_registry)
      fun i w op => vouches_vouched)
    (x := restoreBeside "spare") (aroundTeardown 6) (endsWith ["web"] ["spare"]) (by decide +kernel)
  simp only [endsWith, Bool.and_eq_true, beq_iff_eq] at htest
  obtain ⟨⟨-, hrows⟩, hremoved⟩ := htest
  exact ⟨t, y, hrun, hrows, hremoved, deleted_templates_unused (fun _ => rfl) rfl (by decide) hrun⟩

end PodmanApi.Instance

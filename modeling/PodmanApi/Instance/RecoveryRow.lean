/-
# PodmanApi.Instance.RecoveryRow — which row a recovered move leaves.

A recovery pass takes a ready pod and a row for the result of the move, and does not look into the row. The row
can come from the move, whose apply writes it last, or it was there before.

`shelf` is the table of rows under a move and its passes. The destination's row is gone, or the one the move has
written, or, if the move has written none, the one from before (`OnShelf`).
-/
import PodmanApi.Instance.Aloof
import PodmanApi.Instance.RecoverySpec

namespace PodmanApi.Instance

open GoStd Calls

/-! ## The table -/

/-- The table of rows, and the template of the moved instance. A write that fails changes nothing; a delete
that finds nothing says so. -/
def shelf (req : MigrateRequest) (tmpl : Template) : Calls.Service calls Rows := fun w op r w' =>
  match op, r with
  | .getTemplate id, r => (id = req.template → ∀ t, r = .ok t → t = tmpl) ∧ w' = w
  | .getSpec h t sl, r => (∀ sp, r = .ok sp → w.get ⟨h, t, sl⟩ = some sp) ∧ w' = w
  | .putSpec sp, .ok _ => w' = w.put sp
  | .deleteSpec h t sl, .ok _ => w' = w.erase ⟨h, t, sl⟩
  | .deleteSpec h t sl, .error e => (e.is .storeNotFound = true → w.get ⟨h, t, sl⟩ = none) ∧ w' = w
  | _, _ => w' = w

def MigrateRequest.source (req : MigrateRequest) : SpecId :=
  ⟨req.fromHost, req.template, req.slug⟩

/-- A row with the secrets, domains and networks of the source's, and with its parameters, the request's over them
and the slug over both. -/
def Inherits (req : MigrateRequest) (spec row : Spec) : Prop :=
  row.secrets = spec.secrets ∧ row.domains = spec.domains ∧ row.appliedNetworks = spec.appliedNetworks ∧
    row.parameters = req.effective spec

def Wrote (req : MigrateRequest) (past : History) : Prop :=
  ∃ sp, sp.id = req.dest ∧ (⟨.putSpec sp, .ok ()⟩ : Event calls) ∈ past

/-- A row as the move's apply builds it from the source's and the template. -/
structure Fresh (req : MigrateRequest) (tmpl : Template) (spec row : Spec) : Prop where
  secrets : row.secrets = spec.secrets
  domains : row.domains = spec.domains
  networks : row.appliedNetworks = spec.appliedNetworks
  parameters : row.parameters =
    Render.pinSlug req.slug (Render.applyDefaults tmpl.metadata (req.effective spec))

/-- What can stand under the destination's key, `before` being the table before the move. -/
def OnShelf (req : MigrateRequest) (tmpl : Template) (spec : Spec) (before : Rows) (x : Rows × History) : Prop :=
  x.1.get req.dest = none ∨ (¬Wrote req x.2 ∧ x.1.get req.dest = before.get req.dest) ∨
    Wrote req x.2 ∧ ∃ row, x.1.get req.dest = some row ∧ Fresh req tmpl spec row

/-- The calls of a move that has read `spec`: a row written for the destination is built from it. -/
def Honest (req : MigrateRequest) (tmpl : Template) (spec : Spec) : Op → Prop
  | .putSpec sp => sp.id = req.dest → Fresh req tmpl spec sp
  | _ => True

section Footprints

variable {req : MigrateRequest} {op : Op}

theorem Aloof.honest {t : Template} {spec : Spec} (h : Aloof op) : Honest req t spec op := by
  cases op with
  | putSpec sp => cases h
  | _ => trivial

end Footprints

/-! ## What stays under the destination's key -/

variable {host : String} {α : Type} {p : Prog calls α} {op : Op} {t : History}

section Held

variable {s : Service} {req : MigrateRequest} {tmpl : Template} {spec : Spec} {before w w' : Rows}
  {x y : Rows × History}

theorem wrote_append {past : History} {r : op.Ans} : Wrote req (past ++ [⟨op, r⟩]) ↔
      Wrote req past ∨ ∃ sp, sp.id = req.dest ∧ (⟨.putSpec sp, .ok ()⟩ : Event calls) = ⟨op, r⟩ := by
  unfold Wrote
  simp only [List.mem_append, List.mem_singleton]
  constructor
  · rintro ⟨sp, hid, hmem | heq⟩
    · exact .inl ⟨sp, hid, hmem⟩
    · exact .inr ⟨sp, hid, heq⟩
  · rintro (⟨sp, hid, hmem⟩ | ⟨sp, hid, heq⟩)
    · exact ⟨sp, hid, .inl hmem⟩
    · exact ⟨sp, hid, .inr heq⟩

theorem shelf_kept {r : op.Ans} (h : shelf req tmpl w op r w')
    (hop : ∀ sp, (⟨op, r⟩ : Event calls) = ⟨.putSpec sp, .ok ()⟩ → sp.id ≠ req.dest) :
    w'.get req.dest = w.get req.dest ∨ w'.get req.dest = none := by
  cases op with
  | getTemplate | getSpec => exact .inl (by rw [h.2])
  | putSpec sp =>
    cases r with
    | ok _ =>
      obtain rfl : w' = w.put sp := h
      rw [Rows.get_put, if_neg (Ne.symm (hop sp rfl))]
      exact .inl rfl
    | error e => exact .inl (congrArg (Rows.get · req.dest) h)
  | deleteSpec h' t sl =>
    cases r with
    | ok _ =>
      obtain rfl : w' = w.erase _ := h
      rw [Rows.get_erase]
      split
      · exact .inr rfl
      · exact .inl rfl
    | error e => exact .inl (by rw [h.2])
  | _ => exact .inl (congrArg (Rows.get · req.dest) h)

theorem held_step (op : Op) {r : op.Ans} (hop : Honest req tmpl spec op) (hx : OnShelf req tmpl spec before x)
    (h : traced (shelf req tmpl) x op r y) : OnShelf req tmpl spec before y := by
  obtain ⟨hstep, hpast⟩ := h
  by_cases hput : ∃ sp, sp.id = req.dest ∧ (⟨.putSpec sp, .ok ()⟩ : Event calls) = ⟨op, r⟩
  · -- the move writes the row
    have hwrote : Wrote req y.2 := by
      rw [hpast]
      exact wrote_append.2 (.inr hput)
    obtain ⟨sp, hid, heq⟩ := hput
    cases heq
    have hrows : y.1 = x.1.put sp := hstep
    refine .inr (.inr ⟨hwrote, sp, ?_, hop hid⟩)
    rw [hrows, Rows.get_put, if_pos hid.symm]
  · have hsame : Wrote req y.2 ↔ Wrote req x.2 := by
      rw [hpast, wrote_append]
      exact or_iff_left hput
    rcases shelf_kept hstep fun sp heq hid => hput ⟨sp, hid, heq.symm⟩ with hrow | hrow
    · unfold OnShelf
      rw [hrow, hsame]
      exact hx
    · exact .inl hrow

abbrev Holds (req : MigrateRequest) (tmpl : Template) (spec : Spec) (before : Rows) (p : Prog calls α) : Prop :=
  p.Keeps (traced (shelf req tmpl)) (fun y _ => OnShelf req tmpl spec before y) (OnShelf req tmpl spec before)

theorem honest_holds (hp : p.Issues (Honest req tmpl spec)) : Holds req tmpl spec before p :=
  hp.keeps (fun _ _ _ _ hop hy h => held_step _ hop hy h) fun _ _ _ hy => hy

theorem aloof_holds {β : Type} {q : Prog calls β} (hq : q.Issues Aloof) : Holds req tmpl spec before q :=
  honest_holds (hq.mono fun _ h => h.honest)

/-! ## The move -/

theorem lookup_shelf : Ends (traced (shelf req tmpl))
      (fun y r => y.1 = x.1 ∧ ∀ t, r = .ok t → t = tmpl) (s.lookup host req.template).run x := by
  refine ensures_lookup (fun _ => ⟨rfl, nofun⟩) trivial (fun _ t y hy => ?_) fun e y hy => ⟨hy.1.2, nofun⟩
  exact ⟨hy.1.2, fun _ ht => Except.ok.inj ht ▸ hy.1.1 rfl t rfl⟩

theorem apply_held {opts : ApplyOptions} :
    Holds req tmpl spec before (s.apply req.toHost (Service.migrateApply req spec) opts) := by
  refine apply_keeps_after aloof_holds fun x hx => ?_
  refine ((aloof_holds applyPush_aloof x hx).also (applyPush_prepares (T := fun _ t => t = tmpl)
    (fun _ _ _ _ _ _ h => h) (lookup_shelf.imp fun _ _ h => h.2))).imp fun y r hy => ⟨hy.1, fun prep hprep => ?_⟩
  obtain ⟨rfl, hparams⟩ := hy.2 prep hprep
  refine honest_holds ((persistSpec_issues _).mono fun op h => ?_)
  cases h with
  | putSpec => exact fun _ => ⟨rfl, rfl, rfl, hparams⟩
  | rlock | getTemplate | runlock => trivial

/-- **The move**, wherever it is stopped, leaves under the destination's key what `OnShelf` says. -/
theorem migrate_held (hsource : before.get req.source = some spec) :
    Ensures (traced (shelf req tmpl)) (fun y _ => OnShelf req tmpl spec before y)
      (fun y _ => OnShelf req tmpl spec before y) (s.migrate req).run (before, []) := by
  have hempty : OnShelf req tmpl spec before (before, []) := by
    refine .inr (.inl ⟨?_, rfl⟩)
    rintro ⟨sp, -, hmem⟩
    exact nomatch hmem
  refine ensures_lock hempty fun x hx => ?_
  have hlocked := held_step (.lock _) trivial hempty hx
  have hsame : x.1 = before := hx.1
  refine .imp (Q := fun y _ => OnShelf req tmpl spec before y) ?_ fun y r hy =>
    ⟨hy, fun z hz => held_step (.unlock _) trivial hy hz⟩
  refine ensures_require_bind (fun _ => hlocked) fun _ => ?_
  refine ensures_require_bind (fun _ => hlocked) fun _ => ?_
  refine ((aloof_holds (issues_lookup trivial) _ hlocked).also lookup_shelf).andThen
    (fun _ _ h => h.1) fun y t hy => ?_
  refine .andThen (P := fun z r => OnShelf req tmpl spec before z ∧ ∀ sp, r = .ok sp → sp = spec) ?_
    (fun _ _ h => h.1) fun z sp hz => ?_
  · refine ensures_issue (Op.getSpec req.fromHost req.template req.slug) hy.1 fun r z hz => ?_
    refine ⟨held_step (.getSpec _ _ _) trivial hy.1 hz, fun sp hsp => ?_⟩
    -- nothing has happened to the table so far
    have hread : y.1.get req.source = some sp := hz.1.1 sp hsp
    rw [hy.2.1, hsame, hsource] at hread
    exact (Option.some.inj hread).symm
  obtain rfl := hz.2 sp rfl
  refine Prog.Keeps.andThen (I := OnShelf req tmpl sp before) (aloof_holds ((preflightDest_issues t _).mono
    fun op h => h.aloof)) (fun _ => ?_) z hz.1
  refine (aloof_holds (stop_issues.mono fun op h => h.aloof).mapErr).andThen fun _ => ?_
  refine (migratePostStop_keeps aloof_holds fun _ => apply_held).embed.andThen fun out => aloof_holds ?_
  exact migrateFinish_issues (fun _ _ op h => h.aloof) fun _ op h => h.aloof

end Held

/-! ## A pass -/

section Pass

variable {s : Service} {req : MigrateRequest} {tmpl : Template} {w w' : Rows}

theorem reapSource_issues (src : Bool) :
    (s.reapSource req src).run.Issues (Deleting req.fromHost req.template req.slug) := by
  unfold Service.reapSource
  split
  · exact orInconclusive_issues (delete_issues _)
  · exact reapOrphan_issues

theorem rollForward_aloof (src : Bool) : (s.rollForward req src).run.Issues Aloof := by
  refine (orInconclusive_issues (refreshIngress_issues trivial)).andThen fun _ => ?_
  refine ((reapSource_issues src).mono fun op h => h.aloof).andThen fun _ => ?_
  exact (restorePaired_issues fun _ _ h => h.aloof).andThen fun _ => issues_pure

theorem settle_aloof (src done : Bool) (ds : DestStatus) : (s.settle req src ds done).run.Issues Aloof := by
  unfold Service.settle
  split
  · exact rollForward_aloof src
  split
  · refine (orInconclusive_issues (start_issues.mono fun op h => h.aloof)).andThen fun _ => ?_
    refine (restorePaired_issues fun _ _ h => h.aloof).andThen fun _ => ?_
    exact (orInconclusive_issues ((delete_issues _).mono fun op h => h.aloof)).andThen
      fun _ => issues_pure
  · exact issues_pure

theorem reconcileMigrate_aloof : (s.reconcileMigrate req).Issues Aloof := by
  refine issues_locked trivial trivial (.bind ?_ fun r => issues_ret _)
  refine (observeHosts_issues.mono fun op h => h.aloof).andThen fun ⟨src, ds⟩ => ?_
  refine ((destCommitted_issues ds).mono fun op h => h.aloof).andThen fun done => ?_
  exact settle_aloof src done ds

theorem pass_kept {q : Prog calls Verdict} (h : Exec (shelf req tmpl) w (s.reconcileMigrate req) t w' q) :
    w'.get req.dest = w.get req.dest ∨ w'.get req.dest = none := by
  have hpass : Ensures (shelf req tmpl) (fun y _ => y.get req.dest = w.get req.dest ∨ y.get req.dest = none)
      (fun y _ => y.get req.dest = w.get req.dest ∨ y.get req.dest = none) (s.reconcileMigrate req) w := by
    refine reconcileMigrate_aloof.ensures (fun y op r z hop hy hstep => ?_) (fun _ _ _ hy => hy) (.inl rfl)
    have hnot : ∀ sp, (⟨op, r⟩ : Event calls) = ⟨.putSpec sp, .ok ()⟩ → sp.id ≠ req.dest := by
      intro sp heq
      cases heq
      exact hop.elim
    rcases shelf_kept hstep hnot with hsame | hgone
    · rw [hsame]
      exact hy
    · exact .inr hgone
  exact hpass.reached h

theorem observing_step {r : op.Ans} (hop : Observing req op) (h : shelf req tmpl w op r w') : w' = w := by
  cases hop with
  | getTemplate | getSpec => exact h.2
  | source | ctxErr => exact h
  | waiting hop => cases hop <;> exact h

theorem spared_step {r : op.Ans} (hop : Aloof op ∧ ¬RemovesDest req op)
    (h : shelf req tmpl w op r w') : w'.get req.dest = w.get req.dest := by
  cases op with
  | getTemplate | getSpec => rw [h.2]
  | putSpec sp => exact hop.1.elim
  | deleteSpec h' t sl =>
    cases r with
    | error e => rw [h.2]
    | ok _ =>
      obtain rfl : w' = w.erase ⟨h', t, sl⟩ := h
      rw [Rows.get_erase, if_neg]
      intro hkey
      cases hkey
      exact hop.2 ⟨rfl, rfl, rfl⟩
  | _ => exact congrArg (Rows.get · req.dest) h

/-- An early return of a pass is never a success. -/
def Unsuccessful (v : Verdict) : Prop :=
  v.succeeded = false

theorem failed_unsuccessful (message : String) : Unsuccessful (.failed message) := rfl

theorem inconclusive_unsuccessful : Unsuccessful .inconclusive := rfl

theorem orInconclusive_fails (x : Task α) : FailsOnly Unsuccessful (orInconclusive x) := by
  intro t e h
  obtain ⟨t₁, t₂, r, -, hret, -⟩ := returns_bind.1 h
  have hr : Except.mapError (fun _ => Verdict.inconclusive) r = .error e := (returns_ret.1 hret).2.symm
  cases r with
  | ok a => cases hr
  | error e' =>
    cases hr
    rfl

theorem restorePaired_fails {pairs : List PairedInstanceRef} :
    FailsOnly Unsuccessful (forM pairs (s.restorePaired host)) := by
  refine failsOnly_forM _ fun ps _ => ?_
  refine (failsOnly_embed _).andThen fun r => ?_
  cases r with
  | ok _ => exact failsOnly_pure _
  | error e =>
    dsimp only
    split
    · exact failsOnly_pure _
    · exact failsOnly_throw rfl

theorem reapSource_fails (src : Bool) : FailsOnly Unsuccessful (s.reapSource req src) := by
  unfold Service.reapSource
  split
  · exact orInconclusive_fails _
  · refine (orInconclusive_fails _).andThen fun _ => (failsOnly_embed _).andThen fun _ => ?_
    exact (orInconclusive_fails _).andThen fun _ => failsOnly_embed _

theorem rollForward_fails (src : Bool) : FailsOnly Unsuccessful (s.rollForward req src) := by
  refine (orInconclusive_fails _).andThen fun _ => (reapSource_fails src).andThen fun _ => ?_
  exact restorePaired_fails.andThen fun _ => failsOnly_pure _

theorem observeHosts_fails : FailsOnly Unsuccessful (s.observeHosts req) := by
  refine (failsOnly_require (failed_unsuccessful _)).andThen fun _ =>
    (failsOnly_require (failed_unsuccessful _)).andThen fun _ => ?_
  refine FailsOnly.andThen ?_ fun _ => (failsOnly_embed _).andThen fun ⟨src, reachable⟩ => ?_
  · refine (failsOnly_ask _).andThen fun r => ?_
    cases r with
    | ok _ => exact failsOnly_pure _
    | error e =>
      refine failsOnly_throw ?_
      split <;> rfl
  refine (failsOnly_require inconclusive_unsuccessful).andThen fun _ => (failsOnly_embed _).andThen fun ds => ?_
  refine (failsOnly_require inconclusive_unsuccessful).andThen fun _ => FailsOnly.andThen ?_ fun _ => failsOnly_pure _
  refine (failsOnly_ask _).andThen fun r => ?_
  cases r with
  | ok _ => exact failsOnly_pure _
  | error e => exact failsOnly_throw rfl

theorem destCommitted_fails (ds : DestStatus) : FailsOnly Unsuccessful (Service.destCommitted req ds) := by
  unfold Service.destCommitted
  split
  · refine (failsOnly_embed _).andThen fun st => ?_
    cases st with
    | persisted | absent => exact failsOnly_pure _
    | corrupt | inconclusive | needsKey => exact failsOnly_throw rfl
  · exact failsOnly_pure _

theorem destCommitted_row (ds : DestStatus) :
    Ends (shelf req tmpl) (OnOk fun y done => y = w ∧ (done = true → (y.get req.dest).isSome = true))
      (Service.destCommitted req ds).run w := by
  unfold Service.destCommitted
  split
  · refine (destSpecState_ensures trivial).embedThen fun y st ⟨r, hy, hst⟩ => ?_
    obtain ⟨hrow, rfl⟩ := hy
    cases st with
    | persisted =>
      obtain ⟨sp, rfl⟩ := hst rfl
      refine ensures_pure_onOk ⟨rfl, fun _ => ?_⟩
      have hget : y.get req.dest = some sp := hrow sp rfl
      rw [hget]
      rfl
    | absent => exact ensures_pure_onOk ⟨rfl, nofun⟩
    | corrupt | inconclusive | needsKey => exact ensures_throw_onOk
  · exact ensures_pure_onOk ⟨rfl, nofun⟩

theorem forgetSpec_row : Ends (shelf req tmpl) (OnOk fun y _ => y.get ⟨host, req.template, req.slug⟩ = none)
      (forgetSpec host req.template req.slug).run w := by
  refine ensures_ask_bind trivial fun r y hy => ?_
  cases r with
  | ok _ =>
    obtain rfl : y = w.erase _ := hy
    refine ensures_pure_onOk ?_
    rw [Rows.get_erase, if_pos rfl]
  | error e =>
    obtain ⟨habsent, rfl⟩ := hy
    dsimp only
    split
    · rename_i hmissing
      exact ensures_pure_onOk (habsent hmissing)
    · exact ensures_throw_onOk

theorem gone_ensures {k : SpecId} (hp : p.Issues Aloof) (hw : w.get k = none) :
    Ends (shelf req tmpl) (fun y _ => y.get k = none) p w := by
  refine hp.ensures (fun y op r z hop hy hstep => ?_) (fun _ _ _ _ => trivial) hw
  cases op with
  | getTemplate | getSpec => rw [hstep.2, hy]
  | putSpec sp => exact hop.elim
  | deleteSpec h' t sl =>
    cases r with
    | error e => rw [hstep.2, hy]
    | ok _ =>
      obtain rfl : z = y.erase _ := hstep
      rw [Rows.get_erase, hy]
      exact ite_self _
  | _ =>
    obtain rfl : z = y := hstep
    exact hy

theorem reapSource_row (src : Bool) : Ends (shelf req tmpl) (OnOk fun y _ => y.get req.source = none)
      (s.reapSource req src).run w := by
  have hconclusive : ∀ {α : Type} {x : Task α} {P : Rows → Prop} {y : Rows},
      Ends (shelf req tmpl) (OnOk fun z _ => P z) x.run y →
      Ends (shelf req tmpl) (OnOk fun z _ => P z) (orInconclusive x).run y := by
    intro α x P y hx
    refine hx.map fun z r hz => fun a ha => ?_
    cases r with
    | error e => cases ha
    | ok b => exact hz b rfl
  unfold Service.reapSource
  split
  · refine hconclusive ?_
    refine ensures_skip_onOk fun _ y => ensures_lock trivial fun z _ => ?_
    have hbody : Ends (shelf req tmpl) (OnOk fun u _ => u.get req.source = none)
        (s.deleteLocked req.fromHost req.template req.slug { pruneVolumes := true, pruneSecrets := true }).run z := by
      refine ensures_skip_onOk fun _ _ => ensures_skip_onOk fun _ _ => ensures_skip_onOk fun _ _ => ?_
      refine forgetSpec_row.thenOk fun u _ hu => ?_
      refine .imp (gone_ensures ?_ hu) fun _ _ h _ _ => h
      exact (refreshIngress_issues trivial).andThen fun _ => issues_require
    refine hbody.imp fun u r hu => ⟨trivial, fun v hv a ha => ?_⟩
    obtain rfl : v = u := hv
    exact hu a ha
  · refine ensures_skip_onOk fun _ _ => ensures_skip_onOk fun _ _ => ?_
    refine (hconclusive forgetSpec_row).thenOk fun y _ hy => ?_
    exact (gone_ensures (bestEffort_issues (refreshIngress_issues trivial)) hy).imp fun _ _ h _ _ => h

theorem rollForward_row (src : Bool) : Ends (shelf req tmpl)
      (OnOk fun y _ => (req.fromHost ≠ req.toHost → y.get req.dest = w.get req.dest) ∧
        (req.fromHost = req.toHost → y.get req.dest = none)) (s.rollForward req src).run w := by
  by_cases hne : req.fromHost = req.toHost
  · have hkey : req.source = req.dest := by
      show (⟨req.fromHost, _, _⟩ : SpecId) = ⟨req.toHost, _, _⟩
      rw [hne]
    refine ensures_skip_onOk fun _ _ => (reapSource_row src).thenOk fun y _ hy => ?_
    refine .imp (gone_ensures (k := req.dest) ?_ (hkey ▸ hy)) fun z r hz a _ => ⟨fun h => (h hne).elim, fun _ => hz⟩
    exact (restorePaired_issues fun _ _ h => h.aloof).andThen fun _ => issues_pure
  · have hspared : Ends (shelf req tmpl) (fun y _ => y.get req.dest = w.get req.dest)
        (s.rollForward req src).run w :=
      ((rollForward_aloof src).and (rollForward_sparing hne src)).ensures
        (fun y op r z hop hy hstep => (spared_step hop hstep).trans hy) (fun _ _ _ _ => trivial) rfl
    exact hspared.imp fun y r hy a _ => ⟨fun _ => hy, fun h => (hne h).elim⟩

/-- What a success of a pass that started with the table `w` says. -/
def Adopted (req : MigrateRequest) (w y : Rows) (v : Verdict) : Prop :=
  v.succeeded = true →
    (req.fromHost ≠ req.toHost → y.get req.dest = w.get req.dest ∧ (w.get req.dest).isSome = true) ∧
    (req.fromHost = req.toHost → y.get req.dest = none)

theorem Adopted.of_unsuccessful {v : Verdict} (h : Unsuccessful v) : Adopted req w w' v := by
  intro hv
  cases h.symm.trans hv

theorem settle_fails (src done : Bool) (ds : DestStatus) : FailsOnly Unsuccessful (s.settle req src ds done) := by
  unfold Service.settle
  split
  · exact rollForward_fails src
  split
  · refine (orInconclusive_fails _).andThen fun _ => restorePaired_fails.andThen fun _ => ?_
    exact (orInconclusive_fails _).andThen fun _ => failsOnly_pure _
  · exact failsOnly_pure _

theorem reconcileMigrateLocked_fails : FailsOnly Unsuccessful (s.reconcileMigrateLocked req) := by
  refine observeHosts_fails.andThen fun ⟨src, ds⟩ => (destCommitted_fails ds).andThen fun done => ?_
  exact settle_fails src done ds

theorem reconcileMigrateLocked_row :
    Ends (shelf req tmpl) (OnOk (Adopted req w)) (s.reconcileMigrateLocked req).run w := by
  have hsame : Ends (shelf req tmpl) (fun y _ => y = w) (s.observeHosts req).run w :=
    observeHosts_issues.ensures (fun y op r z hop hy hstep => (observing_step hop hstep).trans hy)
      (fun _ _ _ _ => trivial) rfl
  refine hsame.andThen (fun _ _ _ => onOk_error _) fun y out hy => ?_
  obtain ⟨src, ds⟩ := out
  subst hy
  refine (destCommitted_row ds).thenOk fun z done hz => ?_
  obtain ⟨rfl, hrow⟩ := hz
  unfold Service.settle
  split
  · rename_i hdone
    refine (rollForward_row src).imp fun u r hu v hv _ => ?_
    exact ⟨fun hne => ⟨(hu v hv).1 hne, hrow hdone⟩, (hu v hv).2⟩
  split
  · refine ensures_skip_onOk fun _ _ => ensures_skip_onOk fun _ _ => ensures_skip_onOk fun _ _ => ?_
    exact ensures_pure_onOk (.of_unsuccessful (failed_unsuccessful _))
  · refine ensures_pure_onOk (.of_unsuccessful ?_)
    unfold Service.orphaned
    split <;> rfl

/-- **A pass that succeeds** has seen a row under the destination's key and left it there; only when both hosts
are the same has it removed that row. -/
theorem reconcileMigrate_row : Ends (shelf req tmpl) (Adopted req w) (s.reconcileMigrate req) w := by
  refine ensures_lock trivial fun x hx => ?_
  obtain rfl : x = w := hx
  refine (reconcileMigrateLocked_row.and reconcileMigrateLocked_fails.ensures).bind fun y r hy =>
    ensures_ret.2 ⟨trivial, fun z hz => ?_⟩
  obtain rfl : z = y := hz
  cases r with
  | ok v => exact hy.1 v rfl
  | error v => exact .of_unsuccessful (hy.2 v rfl)

end Pass

/-! ## Whole runs -/

section Runs

variable {s : Service} {req : MigrateRequest} {tmpl : Template} {spec : Spec} {w w₁ w₂ w₃ : Rows}

def Passes (s : Service) (req : MigrateRequest) (tmpl : Template) (w w' : Rows) : Prop :=
  ∃ (t : History) (q : Prog calls Verdict), Exec (shelf req tmpl) w (s.reconcileMigrate req) t w' q

theorem passes_kept (h : Relation.ReflTransGen (Passes s req tmpl) w w₁) :
    w₁.get req.dest = w.get req.dest ∨ w₁.get req.dest = none := by
  induction h with
  | refl => exact .inl rfl
  | tail _ hpass ih =>
    obtain ⟨t, q, hrun⟩ := hpass
    rcases pass_kept hrun with hsame | hgone
    · rw [hsame]
      exact ih
    · exact .inr hgone

theorem Fresh.inherits_iff {row : Spec} (h : Fresh req tmpl spec row) :
    Inherits req spec row ↔ ∀ p ∈ tmpl.metadata.parameters, p.default.isSome = true →
      GoMap.has (req.effective spec) p.name = true := by
  have hparams : row.parameters = req.effective spec ↔ ∀ p ∈ tmpl.metadata.parameters,
      p.default.isSome = true → GoMap.has (req.effective spec) p.name = true := by
    rw [h.parameters]
    exact Render.applied_params_iff tmpl.metadata req.slug (mergeParams spec.parameters req.parameters)
  refine ⟨fun hrow => hparams.1 hrow.2.2.2, fun hgiven => ?_⟩
  exact ⟨h.secrets, h.domains, h.networks, hparams.2 hgiven⟩

theorem recovered_row {t' : History} {q : Prog calls (Except Error Unit)} {message : String}
    (hsource : w.get req.source = some spec) (hmove : Exec (shelf req tmpl) w (s.migrate req).run t w₁ q)
    (hpasses : Relation.ReflTransGen (Passes s req tmpl) w₁ w₂)
    (hlast : Exec (shelf req tmpl) w₂ (s.reconcileMigrate req) t' w₃ (.ret ⟨true, true, message⟩))
    (hne : req.fromHost ≠ req.toHost) :
    ∃ row, w₃.get req.dest = some row ∧ (¬Wrote req t → w.get req.dest = some row) ∧
      (Wrote req t → Fresh req tmpl spec row) := by
  obtain ⟨hsame, hsome⟩ := (reconcileMigrate_row.post hlast rfl).1 hne
  obtain ⟨row, hrow⟩ := Option.isSome_iff_exists.1 hsome
  have hmoved : w₁.get req.dest = some row := by
    rcases passes_kept hpasses with hkept | hgone
    · rw [← hkept, hrow]
    · rw [hgone] at hrow
      cases hrow
  have hheld : OnShelf req tmpl spec w (w₁, [] ++ t) := (migrate_held hsource).reached (hmove.traced [])
  refine ⟨row, hsame.trans hrow, ?_⟩
  rcases hheld with hnone | ⟨hnot, hbefore⟩ | ⟨hwrote, fresh, hfresh, hrowfresh⟩
  · cases hnone.symm.trans hmoved
  · exact ⟨fun _ => hbefore.symm.trans hmoved, fun h => (hnot h).elim⟩
  · obtain rfl : fresh = row := Option.some.inj (hfresh.symm.trans hmoved)
    exact ⟨fun h => (h hwrote).elim, fun _ => hrowfresh⟩

end Runs

/-- A move and recovery passes, each stopped anywhere, and a last pass that reports a success. The destination's
row then has what the source's row had, the request's parameters over its own, exactly when the hosts differ and
either the move had written its row and the template had no default to add, or it had not and the row the
destination held before was already such a row. -/
theorem recovered_row_iff (s : Service) (req : MigrateRequest) (tmpl : Template) {spec : Spec}
    {w w₁ w₂ w₃ : Rows} {t t' : History} {q : Prog calls (Except Error Unit)} {message : String}
    (hsource : w.get req.source = some spec) (hmove : Exec (shelf req tmpl) w (s.migrate req).run t w₁ q)
    (hpasses : Relation.ReflTransGen (Passes s req tmpl) w₁ w₂)
    (hlast : Exec (shelf req tmpl) w₂ (s.reconcileMigrate req) t' w₃ (.ret ⟨true, true, message⟩)) :
    (∃ row, w₃.get req.dest = some row ∧ Inherits req spec row) ↔ req.fromHost ≠ req.toHost ∧
      (Wrote req t → ∀ p ∈ tmpl.metadata.parameters, p.default.isSome = true →
        GoMap.has (req.effective spec) p.name = true) ∧
      (¬Wrote req t → ∃ row, w.get req.dest = some row ∧ Inherits req spec row) := by
  by_cases hne : req.fromHost = req.toHost
  · -- the last pass has just removed the row, as that of the source
    have hgone := (reconcileMigrate_row.post hlast rfl).2 hne
    refine ⟨fun ⟨row, hrow, _⟩ => ?_, fun h => (h.1 hne).elim⟩
    cases hgone.symm.trans hrow
  obtain ⟨row, hrow, hbefore, hfresh⟩ := recovered_row hsource hmove hpasses hlast hne
  have hgoal : (∃ row, w₃.get req.dest = some row ∧ Inherits req spec row) ↔ Inherits req spec row := by
    refine ⟨fun ⟨row', hrow', h⟩ => ?_, fun h => ⟨row, hrow, h⟩⟩
    obtain rfl : row' = row := Option.some.inj (hrow'.symm.trans hrow)
    exact h
  rw [hgoal]
  by_cases hwrote : Wrote req t
  · rw [(hfresh hwrote).inherits_iff]
    exact ⟨fun h => ⟨hne, fun _ => h, fun hnot => (hnot hwrote).elim⟩, fun h => h.2.1 hwrote⟩
  · refine ⟨fun h => ⟨hne, fun hw => (hwrote hw).elim, fun _ => ⟨row, hbefore hwrote, h⟩⟩, fun h => ?_⟩
    obtain ⟨row', hrow', hinherits⟩ := h.2.2 hwrote
    obtain rfl : row' = row := Option.some.inj (hrow'.symm.trans (hbefore hwrote))
    exact hinherits

/-! ## A row from before -/

theorem reachableHosts_shelf {w w' : Fleet} {r : op.Ans} (h : reachableHosts.service w op r w') :
    shelf twinMove volumeTemplate w.rows op r w'.rows := by
  obtain ⟨hans, hnext⟩ := Handler.answered h
  subst hnext
  cases op with
  | getTemplate id =>
    subst hans
    exact ⟨fun _ t ht => (Except.ok.inj ht).symm, rfl⟩
  | getSpec host tmpl slug => exact ⟨fun sp hsp => found_eq_ok.1 (hans.trans hsp), rfl⟩
  | putSpec | deleteSpec => subst hans; rfl
  | podRemove host name force =>
    show (reachableHosts w (.podRemove host name force)).2.rows = w.rows
    simp only [reachableHosts]
    split <;> rfl
  | _ => rfl

/-- The instance runs on `engine-1`, and the store has a row of the same name for `engine-2`: with `stale`, an
old one with another token. -/
def staleFleet (stale : Bool) : Fleet where
  pods host name := name == "web-shop" && host == "engine-1"
  rows := ⟨if stale then [exampleRow, { exampleRow with host := "engine-2", secrets := [("token", "old")] }]
    else [exampleRow], by cases stale <;> decide⟩

@[irreducible]
def staleRun (stale : Bool) (n : Nat) : Prog calls (Except Error Unit) × History × Fleet :=
  (exampleService.migrate twinMove).run.evalFor reachableHosts n (staleFleet stale)

@[irreducible]
def stalePass (stale : Bool) (n : Nat) : Verdict × History × Fleet :=
  (exampleService.reconcileMigrate twinMove).eval reachableHosts (staleRun stale n).2.2

theorem staleRun_exec (stale : Bool) (n : Nat) : Exec (shelf twinMove volumeTemplate) (staleFleet stale).rows
    (exampleService.migrate twinMove).run (staleRun stale n).2.1 (staleRun stale n).2.2.rows
    (staleRun stale n).1 := by
  exact (Prog.exec_of_evalFor (staleRun.eq_def ..)).view Fleet.rows fun _ _ _ _ h => reachableHosts_shelf h

theorem stalePass_exec {stale : Bool} {n : Nat} (h : (stalePass stale n).1 = ⟨true, true, ""⟩) :
    Exec (shelf twinMove volumeTemplate) (staleRun stale n).2.2.rows (exampleService.reconcileMigrate twinMove)
      (stalePass stale n).2.1 (stalePass stale n).2.2.rows (.ret ⟨true, true, ""⟩) := by
  rw [← h]
  exact (exec_of_eval (stalePass.eq_def ..)).view Fleet.rows fun _ _ _ _ h => reachableHosts_shelf h

def isWrite (req : MigrateRequest) : Event calls → Bool
  | ⟨.putSpec sp, .ok _⟩ => sp.id = req.dest
  | _ => false

theorem wrote_of_any {req : MigrateRequest} (h : t.any (isWrite req) = true) : Wrote req t := by
  obtain ⟨⟨op, r⟩, hmem, hwrite⟩ := List.any_eq_true.1 h
  cases op with
  | putSpec sp =>
    cases r with
    | ok _ => exact ⟨sp, of_decide_eq_true hwrite, hmem⟩
    | error e => cases hwrite
  | _ => cases hwrite

/-- The store has an old row for the destination. The move is stopped when it has played the pod and not written
its row; the first pass finds a ready pod and a row, deletes the source and reports a success: the row of the
instance is the old one. -/
theorem recovery_adopts_stale_row : ∃ t w₁ q t' w₂, Exec (shelf twinMove volumeTemplate) (staleFleet true).rows
        (exampleService.migrate twinMove).run t w₁ q ∧
      Exec (shelf twinMove volumeTemplate) w₁ (exampleService.reconcileMigrate twinMove) t' w₂
        (.ret ⟨true, true, ""⟩) ∧ (staleFleet true).rows.get twinMove.source = some exampleRow ∧
      (w₂.get twinMove.dest).map (·.secrets) = some [("token", "old")] ∧ w₂.get twinMove.source = none ∧
      ¬∃ row, w₂.get twinMove.dest = some row ∧ Inherits twinMove exampleRow row := by
  have hstale : ((stalePass true 22).2.2.rows.get twinMove.dest).map (·.secrets) = some [("token", "old")] := by
    decide +kernel
  refine ⟨_, _, _, _, _, staleRun_exec true 22, stalePass_exec (by decide +kernel), by decide +kernel, hstale,
    by decide +kernel, ?_⟩
  rintro ⟨row, hrow, hinherits⟩
  rw [hrow, Option.map_some, hinherits.1] at hstale
  exact absurd hstale (by decide)

/-- Without the old row, and stopped one call later, the row is the source's. -/
theorem recovery_keeps_written_row :
    ∃ row, (stalePass false 23).2.2.rows.get twinMove.dest = some row ∧ Inherits twinMove exampleRow row := by
  refine (recovered_row_iff exampleService twinMove volumeTemplate (by decide +kernel) (staleRun_exec false 23)
    .refl (stalePass_exec (by decide +kernel))).2 ⟨by decide, fun _ => by decide +kernel, fun hnot => ?_⟩
  exact (hnot (wrote_of_any (by decide +kernel))).elim

end PodmanApi.Instance

/-
# PodmanApi.Instance.RenameSpec — a rename that keeps its domains.

`Rename` deploys the new slug while the old row is still stored, and every apply ends with an ingress reconcile.
Here the store answers the service and the ingress controller from the same rows. `validateIngress` exempts the
superseded slug from the uniqueness of domains; `deriveRoutes` knows no such exemption.
-/
import PodmanApi.Ingress.Routes
import PodmanApi.Instance.Rename

namespace PodmanApi.Instance

open GoStd Calls

/-! ## The service and the controller over one store -/

/-- The world of the service: a store that never fails, the ingress controller over it, and `podman` and `admin`
for everything else. -/
def hostWorld {τ : Type} (ctl : Ingress.Controller) (templates : String → Option Template)
    (podman : Calls.Service calls τ) (admin : Calls.Service Ingress.calls τ) : Calls.Service calls (Rows × τ)
  | x, .listSpecKeys host, r, x' => x' = x ∧ ∃ ks, r = .ok ks ∧ ks.Perm (x.1.keys host)
  | x, .listSpecNetworks host, r, x' => x' = x ∧ ∃ ns, r = .ok ns ∧ ns.Perm (x.1.networks host)
  | x, .getSpec host tmpl slug, r, x' =>
    x' = x ∧ r = found .storeNotFound (x.1.get ⟨host, tmpl, slug⟩)
  | x, .putSpec sp, r, x' => x' = (x.1.put sp, x.2) ∧ r = .ok ()
  | x, .deleteSpec host tmpl slug, r, x' =>
    x' = (x.1.erase ⟨host, tmpl, slug⟩, x.2) ∧
      r = (found .storeNotFound (x.1.get ⟨host, tmpl, slug⟩)).map fun _ => ()
  | x, .getTemplate id, r, x' => x' = x ∧ r = found .storeNotFound (templates id)
  | x, .reconcile host, r, x' =>
    ∃ t, Exec (Ingress.storeWorld templates admin) x (ctl.reconcile host).run t x' (.ret r)
  | x, op, r, x' => x'.1 = x.1 ∧ podman x.2 op r x'.2

/-- The same world under deterministic `podman` and `admin`. -/
def hostHandler {τ : Type} (ctl : Ingress.Controller) (templates : String → Option Template)
    (podman : Handler calls τ) (admin : Handler Ingress.calls τ) : Handler calls (Rows × τ)
  | x, .listSpecKeys host => (.ok (x.1.keys host), x)
  | x, .listSpecNetworks host => (.ok (x.1.networks host), x)
  | x, .getSpec host tmpl slug => (found .storeNotFound (x.1.get ⟨host, tmpl, slug⟩), x)
  | x, .putSpec sp => (.ok (), (x.1.put sp, x.2))
  | x, .deleteSpec host tmpl slug =>
    ((found .storeNotFound (x.1.get ⟨host, tmpl, slug⟩)).map fun _ => (),
      (x.1.erase ⟨host, tmpl, slug⟩, x.2))
  | x, .getTemplate id => (found .storeNotFound (templates id), x)
  | x, .reconcile host =>
    let out := (ctl.reconcile host).run.eval (Ingress.storeHandler templates admin) x
    (out.1, out.2.2)
  | x, op => ((podman x.2 op).1, (x.1, (podman x.2 op).2))

def Keeping : Op → Prop
  | .putSpec _ | .deleteSpec _ _ _ => False
  | _ => True

variable {op : Op} {host : String}

section World

variable {τ : Type} {ctl : Ingress.Controller} {templates : String → Option Template}
  {podman : Calls.Service calls τ} {admin : Calls.Service Ingress.calls τ} {x x' : Rows × τ}

theorem hostHandler_hostWorld {P : Handler calls τ} {A : Handler Ingress.calls τ}
    {r : op.Ans} (h : (hostHandler ctl templates P A).service x op r x') :
    hostWorld ctl templates P.service A.service x op r x' := by
  obtain ⟨hans, hnext⟩ := Handler.answered h
  cases op with
  | listSpecKeys | listSpecNetworks => exact ⟨hnext.symm, _, hans.symm, .refl _⟩
  | getSpec | putSpec | deleteSpec | getTemplate => exact ⟨hnext.symm, hans.symm⟩
  | reconcile host =>
    rw [← hnext, ← hans]
    exact ⟨_, (exec_eval _ _ _).mono fun _ _ _ _ h => Ingress.storeHandler_storeWorld h⟩
  | _ =>
    rw [← hnext, ← hans]
    exact ⟨rfl, rfl⟩

theorem hostWorld_total (hpodman : podman.Total) (hadmin : admin.Total) :
    (hostWorld ctl templates podman admin).Total := by
  intro x op
  cases op with
  | listSpecKeys | listSpecNetworks => exact ⟨_, x, rfl, _, rfl, .refl _⟩
  | getSpec | getTemplate => exact ⟨_, x, rfl, rfl⟩
  | putSpec | deleteSpec => exact ⟨_, _, rfl, rfl⟩
  | reconcile host =>
    obtain ⟨t, x', r, hrun⟩ := (Ingress.storeWorld_total hadmin).exec (ctl.reconcile host).run x
    exact ⟨r, x', t, hrun⟩
  | _ =>
    obtain ⟨r, y, hr⟩ := hpodman x.2 _
    exact ⟨r, (x.1, y), rfl, hr⟩

theorem hostWorld_rows {r : op.Ans} (hop : Keeping op)
    (h : hostWorld ctl templates podman admin x op r x') : x'.1 = x.1 := by
  cases op with
  | putSpec | deleteSpec => exact hop.elim
  | listSpecKeys | listSpecNetworks | getSpec | getTemplate => rw [h.1]
  | reconcile host =>
    obtain ⟨t, hrun⟩ := h
    have hkeep : Ends (Ingress.storeWorld templates admin) (fun y _ => y.1 = x.1) (ctl.reconcile host).run x :=
      (issues_true _).ensures (fun _ _ _ _ _ hy h => (Ingress.storeWorld_rows h).trans hy)
        (fun _ _ _ _ => trivial) rfl
    exact hkeep.post hrun
  | _ => exact h.1

theorem keeping_ensures {α : Type} {p : Prog calls α} {rows : Rows} (hp : p.Issues Keeping)
    (hx : x.1 = rows) : Ends (hostWorld ctl templates podman admin) (fun y _ => y.1 = rows) p x :=
  hp.ensures (fun _ _ _ _ hop hy h => (hostWorld_rows hop h).trans hy) (fun _ _ _ _ => trivial) hx

end World

/-! ## Which steps leave the rows alone -/

theorem Checking.keeping (h : Checking op) : Keeping op := by
  cases h <;> trivial

theorem Pushing.keeping (h : Pushing host op) : Keeping op := by
  cases h <;> trivial

theorem Reading.keeping {tmpl slug : String} (h : Reading host tmpl slug op) : Keeping op := by
  cases h <;> trivial

theorem Stopping.keeping {tmpl slug : String} (h : Stopping host tmpl slug op) : Keeping op := by
  cases h <;> trivial

section Steps

variable {s : Service} {host tmpl slug : String} {req : RenameRequest}

theorem checkRenameable_keeping : (s.checkRenameable host tmpl slug req).run.Issues Keeping :=
  checkRenameable_issues trivial (fun _ => trivial) trivial

theorem renameVolume_keeping (newSlug : String) (v : HostVolume) :
    (s.renameVolume host tmpl slug newSlug v).run.Issues Keeping :=
  renameVolume_issues (fun _ => trivial) (fun _ => trivial) fun _ _ => trivial

theorem applyPush_keeping (areq : ApplyRequest) (opts : ApplyOptions) :
    (s.applyPush host areq opts).run.Issues Keeping :=
  applyPush_issues (fun _ h => h.keeping) fun _ h => h.keeping

end Steps

/-! ## The nested apply -/

section Contested

variable {τ : Type} {s : Service} {ctl : Ingress.Controller}
  {templates : String → Option Template} {podman : Calls.Service calls τ}
  {admin : Calls.Service Ingress.calls τ} {x : Rows × τ} {host tmpl slug d : String}
  {req : ApplyRequest} {opts : ApplyOptions} {sp : Spec} {t : Template} {ing : Ingress}

abbrev Fails {σ α : Type} (_ : σ) (r : Except Error α) : Prop :=
  ∃ e, r = .error e

theorem fails_bind {σ α β : Type} {S : Calls.Service calls σ} {G : σ → Op → Prop} {x : Task α} {f : α → Task β}
    {P : σ → Except Error α → Prop} {w : σ} (hx : Ensures S G P x.run w)
    (hf : ∀ w a, P w (.ok a) → Ensures S G Fails (f a).run w) : Ensures S G Fails (x >>= f).run w :=
  hx.andThen (fun _ e _ => ⟨e, rfl⟩) hf

theorem validateIngress_unmanaged (hdomains : req.domains ≠ []) (hunmanaged : s.ingressUnmanaged host = true) :
    Ends (hostWorld ctl templates podman admin) Fails (s.validateIngress host req t opts).run x := by
  unfold Service.validateIngress
  rw [if_neg (by simpa using hdomains)]
  refine ensures_require_bind (fun _ => ⟨_, rfl⟩) fun _ => ?_
  refine ensures_require_bind (fun _ => ⟨_, rfl⟩) fun _ => ?_
  refine ensures_require_bind (fun _ => ⟨_, rfl⟩) fun h => ?_
  rw [hunmanaged] at h
  cases h

theorem applyPush_unmanaged (hdomains : req.domains ≠ []) (hunmanaged : s.ingressUnmanaged host = true) :
    Ends (hostWorld ctl templates podman admin) Fails (s.applyPush host req opts).run x := by
  refine fails_bind (P := Fails) ?_ fun _ _ h => nomatch h
  refine fails_bind (P := Fails) ?_ fun _ _ h => nomatch h
  refine fails_bind (ensures_any _) fun _ t _ => ?_
  refine fails_bind (ensures_any _) fun _ _ _ => ?_
  refine fails_bind (ensures_any _) fun _ _ _ => ?_
  refine fails_bind (ensures_any _) fun _ _ _ => ?_
  exact fails_bind (validateIngress_unmanaged hdomains hunmanaged) fun _ _ h => nomatch h

theorem persistSpec_ensures (row : Spec) : Ends (hostWorld ctl templates podman admin)
      (fun y r => ∀ u, r = .ok u → y.1 = x.1.put row) (Service.persistSpec row).run x := by
  refine ensures_ask_bind trivial fun _ y hy => ?_
  have hrlock : y.1 = x.1 := hy.1
  refine ensures_ask_bind trivial fun found z hz => ?_
  obtain ⟨rfl, -⟩ := hz
  cases found with
  | error e => exact ensures_ask_bind trivial fun _ u _ => ensures_throw.2 nofun
  | ok t =>
    refine ensures_ask_bind trivial fun wrote u hu => ?_
    obtain ⟨rfl, -⟩ := hu
    refine ensures_ask_bind trivial fun _ v hv => ?_
    have hrunlock : v.1 = z.1.put row := hv.1
    exact ensures_ret.2 fun _ _ => by rw [hrunlock, hrlock]

/-- While two rows of a managed host route one domain, the reconcile of an apply fails. -/
theorem refreshIngress_contested {j k : SpecKey} (hon : s.ingressEnabled = true)
    (hmanaged : ctl.isUnmanaged host = false) (hj : Ingress.Routed x.1 templates host d j)
    (hk : Ingress.Routed x.1 templates host d k) (hne : j ≠ k) : Ends (hostWorld ctl templates podman admin) Fails
      (s.refreshIngress host).run x := by
  unfold Service.refreshIngress
  rw [if_pos hon]
  refine ensures_mapErr.2 (ensures_issue (Op.reconcile host) trivial fun r y hr => ?_)
  obtain ⟨hist, hrun⟩ := hr
  obtain ⟨-, e, rfl⟩ := (Ingress.reconcile_contested hmanaged hj hk hne).post hrun
  exact ⟨_, rfl⟩

/-- An apply of a second instance with a domain that a stored row of its host routes: the row it
persists contests the domain. -/
theorem applyCommit_contested {prep : Prepared} (hon : s.ingressEnabled = true)
    (hmanaged : ctl.isUnmanaged host = false) (hrow : x.1.get ⟨host, tmpl, slug⟩ = some sp)
    (hd : d ∈ sp.domains) (ht : templates tmpl = some t) (hing : t.metadata.ingress = some ing)
    (htmpl : req.template = tmpl) (hslug : req.slug ≠ slug) (hreq : d ∈ req.domains) :
    Ends (hostWorld ctl templates podman admin) Fails (s.applyCommit host req opts prep).run x := by
  refine fails_bind (keeping_ensures (issues_forM _ fun sec _ => ?_) rfl) fun y _ hy => ?_
  · exact (replaceSecret_issues _ _ _ _ _).mono fun op h => h.keeping
  refine fails_bind (keeping_ensures (ensureNetworks_issues _ fun _ => trivial) hy) fun z networks hz => ?_
  refine fails_bind (keeping_ensures (.mapErr (issues_perform.2 trivial)) hz) fun u _ hu => ?_
  refine fails_bind (persistSpec_ensures _) fun v _ hv => ?_
  have hrows := hv () rfl
  rw [hu] at hrows
  have hne : SpecId.mk host tmpl slug ≠ (Service.appliedSpec host req prep).id := by
    intro h
    exact hslug (congrArg SpecId.slug h).symm
  refine refreshIngress_contested (d := d) (j := ⟨tmpl, slug⟩) (k := ⟨req.template, req.slug⟩) hon
    hmanaged ⟨sp, t, ing, ?_, hd, ht, hing⟩ ⟨Service.appliedSpec host req prep, t, ing, ?_, hreq, htmpl ▸ ht, hing⟩ ?_
  · rw [hrows, Rows.get_put]
    exact (if_neg hne).trans hrow
  · rw [hrows, Rows.get_put]
    exact if_pos rfl
  · intro h
    exact hslug (congrArg SpecKey.slug h).symm

end Contested

/-! ## The rename -/

section Rename

variable {τ : Type} {s : Service} {ctl : Ingress.Controller}
  {templates : String → Option Template} {podman : Calls.Service calls τ}
  {admin : Calls.Service Ingress.calls τ} {x : Rows × τ} {host tmpl slug d : String} {sp : Spec}
  {t : Template} {ing : Ingress}

theorem ensures_locked_rows {α : Type} {m : Mutex} {p : Prog calls α} {Q : Rows × τ → α → Prop}
    (hQ : ∀ y z a, Q y a → Q z a) (hp : ∀ y : Rows × τ, y.1 = x.1 →
      Ends (hostWorld ctl templates podman admin) Q p y) :
    Ends (hostWorld ctl templates podman admin) Q (locked m p) x := by
  refine ensures_lock trivial fun y hy => ?_
  exact (hp y hy.1).imp fun z a hz => ⟨trivial, fun u _ => hQ z u a hz⟩

section

variable (hon : s.ingressEnabled = true) (hagree : ctl.isUnmanaged host = s.ingressUnmanaged host)
  (hrow : x.1.get ⟨host, tmpl, slug⟩ = some sp) (hd : d ∈ sp.domains) (ht : templates tmpl = some t)
  (hing : t.metadata.ingress = some ing)

include hon hagree hrow hd ht hing

theorem apply_contested {req : ApplyRequest} {opts : ApplyOptions}
    (htmpl : req.template = tmpl) (hslug : req.slug ≠ slug) (hreq : d ∈ req.domains) :
    Ends (hostWorld ctl templates podman admin) (fun y out => Fails y out.1) (s.apply host req opts) x := by
  have hlocked : ∀ y : Rows × τ, y.1 = x.1 → Ends (hostWorld ctl templates podman admin) (fun y out => Fails y out.1) (s.applyLocked host req opts) y := by
    intro y hy
    refine ensures_bind.2 ?_
    by_cases hmanaged : s.ingressUnmanaged host = true
    · refine (applyPush_unmanaged (List.ne_nil_of_mem hreq) hmanaged).imp fun z r hz => ?_
      obtain ⟨e, rfl⟩ := hz
      exact ensures_ret.2 ⟨e, rfl⟩
    · refine (keeping_ensures (applyPush_keeping req opts) hy).imp fun z r hz => ?_
      cases r with
      | error e => exact ensures_ret.2 ⟨e, rfl⟩
      | ok prep =>
        have hrow' : z.1.get ⟨host, tmpl, slug⟩ = some sp := by rw [hz]; exact hrow
        refine (applyCommit_contested hon ?_ hrow' hd ht hing htmpl hslug hreq).map fun u r hu => hu
        rw [hagree]
        simpa using hmanaged
  unfold Service.apply
  split
  · exact ensures_locked_rows (fun _ _ _ h => h) hlocked
  · exact ensures_locked_rows (fun _ _ _ h => h) fun y hy =>
      ensures_locked_rows (fun _ _ _ h => h) fun z hz => hlocked z (hz.trans hy)

theorem renameLocked_contested {req : RenameRequest}
    (hslug : req.newSlug ≠ slug) (hkeep : d ∈ req.effectiveDomains sp) :
    Ends (hostWorld ctl templates podman admin) Fails (s.renameLocked host tmpl slug req).run x := by
  refine fails_bind (keeping_ensures checkRenameable_keeping rfl) fun y _ hy => ?_
  have hread : Ends (hostWorld ctl templates podman admin)
      (fun z r => z.1 = x.1 ∧ ∀ spec, r = .ok spec → spec = sp) (issue (.getSpec host tmpl slug)) y := by
    refine ensures_issue (Op.getSpec host tmpl slug) trivial fun r z hr => ?_
    obtain ⟨rfl, rfl⟩ := hr
    refine ⟨hy, fun spec hok => ?_⟩
    rw [hy, hrow] at hok
    exact (Except.ok.inj hok).symm
  refine fails_bind hread fun z spec hz => ?_
  obtain rfl := hz.2 spec rfl
  refine fails_bind (keeping_ensures (stop_issues.mono fun op h => h.keeping).mapErr hz.1) fun u _ hu => ?_
  refine fails_bind (keeping_ensures (instanceVolumes_issues.mono fun op h => h.keeping).mapErr hu) fun v vols hv => ?_
  refine fails_bind (keeping_ensures (issues_forM vols fun vol _ => renameVolume_keeping req.newSlug vol) hv) fun w _ hw => ?_
  refine fails_bind (P := Fails) ?_ fun _ _ h => nomatch h
  -- the deploy of the new slug fails, and its compensation ends in that error
  unfold Service.renameOrRollback
  refine .attemptThen (P := Fails) ?_ fun a r hr => ?_
  · have hrow' : w.1.get ⟨host, tmpl, slug⟩ = some spec := by rw [hw]; exact hrow
    exact (apply_contested hon hagree hrow' hd ht hing rfl hslug hkeep).map fun b out hout => hout
  · obtain ⟨e, rfl⟩ := hr
    exact fails_bind (ensures_any _) fun _ _ _ => ensures_throw.2 ⟨_, rfl⟩

end

/-- With ingress enabled, a rename of an instance with domains and an ingress template to a free slug, keeping its
domains, never succeeds: there are runs, and all end in an error, whatever podman and Caddy answer. -/
theorem rename_keeping_domains_fails {req : RenameRequest} (hpodman : podman.Total)
    (hadmin : admin.Total) (hon : s.ingressEnabled = true) (hagree : ctl.isUnmanaged host = s.ingressUnmanaged host)
    (hrow : x.1.get ⟨host, tmpl, slug⟩ = some sp) (hdomains : sp.domains ≠ [])
    (ht : templates tmpl = some t) (hing : t.metadata.ingress = some ing)
    (hfree : x.1.get ⟨host, tmpl, req.newSlug⟩ = none) (hkeep : req.effectiveDomains sp = sp.domains) :
    (∃ h x' r, Exec (hostWorld ctl templates podman admin) x (s.rename host tmpl slug req).run h x' (.ret r)) ∧
      ∀ h x' r, Exec (hostWorld ctl templates podman admin) x (s.rename host tmpl slug req).run h x'
        (.ret r) → ∃ e, r = .error e := by
  refine ⟨(hostWorld_total hpodman hadmin).exec _ x, fun h x' r hrun => ?_⟩
  obtain ⟨d, hd⟩ := List.exists_mem_of_ne_nil _ hdomains
  have hslug : req.newSlug ≠ slug := by
    rintro rfl
    rw [hfree] at hrow
    cases hrow
  have hspec : Ensures (hostWorld ctl templates podman admin) (fun _ _ => True) Fails
      (s.rename host tmpl slug req).run x :=
    ensures_locked_rows (fun _ _ _ h => h) fun y hy =>
      renameLocked_contested hon hagree (hy ▸ hrow) hd ht hing hslug (hkeep ▸ hd)
  exact hspec.post hrun

end Rename

/-! ## A rename in which every call succeeds -/

def routedTemplate : Template where
  metadata := { exampleTemplate.metadata with
    parameters := [⟨"slug", true, none⟩], ingress := some ⟨"web", 80⟩ }
  body := exampleTemplate.body

def routedStart : Rows × List String :=
  (⟨[{ exampleRow with domains := ["shop.example"] }], by decide⟩, ["web-shop"])

def healthyHost : Handler calls (List String)
  | pods, .podInspect _ name =>
    (if name ∈ pods then .ok ⟨"Running", []⟩ else .error (.sentinel .podmanNotFound), pods)
  | pods, .playKube _ _ _ _ => (.ok (), "web-blog" :: pods)
  | pods, .podRemove _ name _ => (.ok (), pods.filter (· ≠ name))
  | pods, op => (op.plain, pods)

def healthyCaddy : Handler Ingress.calls (List String)
  | pods, .adminDo _ _ _ _ => (.ok (200, ""), pods)
  | pods, .listSpecKeys _ => (.ok [], pods)
  | pods, .getSpec _ _ _ | pods, .getTemplate _ => (.error (.sentinel .storeNotFound), pods)
  | pods, .pause => (.ok (), pods)
  | pods, .lock _ | pods, .unlock _ => ((), pods)

def exampleController : Ingress.Controller where
  adminAddr := "http://caddy:2019"
  hostAdmins := []
  unmanagedHosts := []
  marshal _ := .ok ""

def routedTemplates (id : String) : Option Template :=
  if id = "web" then some routedTemplate else none

@[irreducible]
def routedRename : Except Error Unit × History × (Rows × List String) :=
  (exampleService.rename "engine-1" "web" "shop" ⟨"blog", none, false⟩).run.eval
    (hostHandler exampleController routedTemplates healthyHost healthyCaddy) routedStart

theorem routedRename_exec :
    Exec (hostWorld exampleController routedTemplates healthyHost.service healthyCaddy.service)
      routedStart (exampleService.rename "engine-1" "web" "shop" ⟨"blog", none, false⟩).run
      routedRename.2.1 routedRename.2.2 (.ret routedRename.1) := by
  exact (exec_of_eval (routedRename.eq_def ..)).mono fun _ _ _ _ h => hostHandler_hostWorld h

/-- The example instance cannot be renamed. -/
theorem rename_keeping_domains_fails_example : (∃ h x' r, Exec
      (hostWorld exampleController routedTemplates healthyHost.service healthyCaddy.service)
      routedStart (exampleService.rename "engine-1" "web" "shop" ⟨"blog", none, false⟩).run h x' (.ret r)) ∧
    ∀ h x' r, Exec (hostWorld exampleController routedTemplates healthyHost.service healthyCaddy.service)
      routedStart (exampleService.rename "engine-1" "web" "shop" ⟨"blog", none, false⟩).run h x'
      (.ret r) → ∃ e, r = .error e :=
  have hrow : routedStart.1.get ⟨"engine-1", "web", "shop"⟩ =
      some { exampleRow with domains := ["shop.example"] } := by decide
  have hing : routedTemplate.metadata.ingress = some ⟨"web", 80⟩ := by decide
  rename_keeping_domains_fails (Handler.service_total _) (Handler.service_total _) (by decide)
    (by decide) hrow (by decide) rfl hing (by decide) (by decide)

/-- The only instance of a host, with one domain, is renamed to a free slug, and every call is accepted. The
rename reports that both slugs claim the domain, and the new slug has no row. -/
theorem rename_keeping_domains_rejected : validName "blog" = true ∧ ∃ t x' e, Exec
      (hostWorld exampleController routedTemplates healthyHost.service healthyCaddy.service)
      routedStart (exampleService.rename "engine-1" "web" "shop" ⟨"blog", none, false⟩).run t x' (.ret (.error e)) ∧
    Error.string e = "apply new slug: ingress reconcile failed: ingress: domain \"shop.example\" " ++
      "claimed by both web/blog and web/shop" ∧ x'.1.get ⟨"engine-1", "web", "blog"⟩ = none := by
  have hret : routedRename.1 = .error (.wrap "apply new slug: " (.wrap "" (.sentinel .ingressReconcileFailed)
        ": ingress: domain \"shop.example\" claimed by both web/blog and web/shop") "") := by
    decide +kernel
  have hexec := routedRename_exec
  rw [hret] at hexec
  exact ⟨by decide, _, _, _, hexec, by decide +kernel, by decide +kernel⟩

end PodmanApi.Instance

/-
# PodmanApi.Ingress.Routes — the routes a host's Caddy is given.

`internal/ingress`: the controller reads every row of a host, derives the routes of those that have
domains and an ingress template, and replaces its own server in Caddy's configuration through the
admin API. A domain may have one owner only; a second claim fails the whole derivation.
-/
import Mathlib.Data.List.Pairwise
import PodmanApi.Calls.Prog
import PodmanApi.Store

namespace PodmanApi.Ingress

open GoStd Calls

/-! ## Calls -/

inductive Method where
  | get
  | put
  | delete
  deriving DecidableEq, Repr

/-- The calls of the controller. `pause` waits for the poll interval and answers the context's error
when the context ends first. -/
inductive Op where
  | listSpecKeys (host : String)
  | getSpec (host template slug : String)
  | getTemplate (id : String)
  | adminDo (addr : String) (method : Method) (path body : String)
  | pause
  | lock (host : String)
  | unlock (host : String)
  deriving DecidableEq, Repr

/-- What each call answers; the admin API answers a status and a body. -/
@[reducible]
def Op.Ans : Op → Type
  | listSpecKeys _ => Except Error (List SpecKey)
  | getSpec _ _ _ => Except Error Spec
  | getTemplate _ => Except Error Template
  | adminDo _ _ _ _ => Except Error (Int × String)
  | pause => Except Error Unit
  | lock _ => Unit
  | unlock _ => Unit

abbrev calls : Sig := ⟨Op, Op.Ans⟩

abbrev Task (α : Type) : Type := Act calls Error α

abbrev issue (op : Op) : Prog calls op.Ans := Prog.perform (Γ := calls) op

abbrev ask (op : Op) : Task op.Ans := Act.ask (Γ := calls) op

/-! ## Routes and Caddy's configuration -/

structure Route where
  domain : String
  backend : String
  deriving DecidableEq, Repr

/-- `caddyHandler`, with the dial addresses of its upstreams. -/
structure CaddyHandler where
  handler : String
  upstreams : List String
  deriving DecidableEq, Repr

/-- `caddyRoute`, with the hosts of each matcher. -/
structure CaddyRoute where
  matchers : List (List String)
  handle : List CaddyHandler
  terminal : Bool
  deriving DecidableEq, Repr

structure CaddyServer where
  listen : List String
  routes : List CaddyRoute
  deriving DecidableEq, Repr

def routesToCaddyJSON (routes : List Route) : List CaddyRoute :=
  routes.map fun r => ⟨[[r.domain]], [⟨"reverse_proxy", [r.backend]⟩], true⟩

/-- `CaddyController`: its configuration, and `json.Marshal` of the server. -/
structure Controller where
  adminAddr : String
  hostAdmins : GoMap String
  unmanagedHosts : GoMap Bool
  marshal : CaddyServer → Except Error String

/-- The path of the controller's own server in Caddy's configuration. -/
def serverPath : String :=
  "/config/apps/http/servers/podman_api"

/-! ## Deriving the routes -/

/-- What the loop of `deriveRoutes` carries. -/
structure Derived where
  owner : GoMap String
  routes : List Route
  deriving DecidableEq, Repr

def claimDomain (who backend : String) (acc : Derived) (d : String) : Except Error Derived :=
  match GoMap.get? acc.owner d with
  | some prev => .error (.text ("ingress: domain " ++ quote d ++ " claimed by both " ++ prev ++
      " and " ++ who))
  | none => .ok ⟨GoMap.set acc.owner d who, acc.routes ++ [⟨d, backend⟩]⟩

/-- The inner loop of `deriveRoutes`, over the domains of one row. -/
def claimDomains (who backend : String) (acc : Derived) (domains : List String) : Except Error Derived :=
  domains.foldlM (claimDomain who backend) acc

/-- The claims of a row whose template has been read; a template without ingress has no routes. -/
def claimRow (k : SpecKey) (acc : Derived) (sp : Spec) (t : Template) : Except Error Derived :=
  match t.metadata.ingress with
  | none => .ok acc
  | some ing => claimDomains (k.template ++ "/" ++ k.slug)
      (k.template ++ "-" ++ k.slug ++ ":" ++ toString ing.port) acc sp.domains

/-- One round of `deriveRoutes`. -/
def deriveRoute (host : String) (acc : Derived) (k : SpecKey) : Task Derived := do
  let sp ← Act.mapErr
    (fun e => .wrap ("ingress: get spec " ++ k.template ++ "/" ++ k.slug ++ ": ") e "")
    (Act.lift (issue (.getSpec host k.template k.slug)))
  if sp.domains.isEmpty then pure acc
  else do
    match ← ask (.getTemplate k.template) with
    | .ok t => Act.lift (pure (claimRow k acc sp t))
    | .error e =>
      -- a stale row, whose template is gone, fails nothing
      if e.is .storeNotFound then pure acc
      else throw (.wrap ("ingress: get template for " ++ k.template ++ "/" ++ k.slug ++ ": ") e "")

def deriveRoutes (host : String) : Task (List Route) := do
  let keys ← Act.mapErr (fun e => .wrap ("ingress: list specs for " ++ host ++ ": ") e "")
    (Act.lift (issue (.listSpecKeys host)))
  let acc ← keys.foldlM (deriveRoute host) ⟨[], []⟩
  pure (acc.routes.insertionSort fun a b => a.domain ≤ b.domain)

/-! ## Pushing them -/

def adminReady : Except Error (Int × String) → Bool
  | .ok (code, _) => code == 200
  | .error _ => false

/-- The loop of `waitForAdmin`, with the error of the attempt before. -/
def waitForAdminLoop (addr : String) : Nat → Option Error → Task Unit
  | 0, some e => throw (.wrap ("ingress: admin API at " ++ addr ++ " not ready: ") e "")
  | 0, none => throw (.text ("ingress: admin API at " ++ addr ++ " not ready after 20 attempts"))
  | n + 1, _ => do
    let r ← ask (.adminDo addr .get "/config/" "")
    if adminReady r then pure ()
    else do
      Act.mapErr (fun e => .wrap ("ingress: admin API at " ++ addr ++ " not ready: ") e "")
        (Act.lift (issue .pause))
      waitForAdminLoop addr n (match r with | .ok _ => none | .error e => some e)

def waitForAdmin (addr : String) : Task Unit :=
  waitForAdminLoop addr 20 none

def deleteServer (addr : String) : Task Unit := do
  let (code, body) ← Act.mapErr (fun e => .wrap "ingress: admin DELETE server: " e "")
    (Act.lift (issue (.adminDo addr .delete serverPath "")))
  Act.require (code < 300 || code == 404)
    (.text ("ingress: admin DELETE server: status " ++ toString code ++ ": " ++ body))

namespace Controller

variable (c : Controller)

def isUnmanaged (host : String) : Bool :=
  (GoMap.get? c.unmanagedHosts host).getD false

def resolveAdminAddr (host : String) : String :=
  match GoMap.get? c.hostAdmins host with
  | some addr => if addr != "" then addr else c.adminAddr
  | none => c.adminAddr

def pushRoutes (addr : String) (routes : List Route) : Task Unit := do
  let json ← Act.mapErr (fun e => .wrap "ingress: marshal server config: " e "")
    (Act.lift (pure (c.marshal ⟨[":80", ":443"], routesToCaddyJSON routes⟩)))
  let (code, body) ← Act.mapErr (fun e => .wrap "ingress: admin PUT server: " e "")
    (Act.lift (issue (.adminDo addr .put serverPath json)))
  Act.require (code < 300)
    (.text ("ingress: admin PUT server: status " ++ toString code ++ ": " ++ body))

/-- What `Reconcile` does with the derived routes; without any, the cleanup is best effort. -/
def serveRoutes (addr : String) (routes : List Route) : Task Unit :=
  if routes.isEmpty then do
    let _ ← Act.attempt (deleteServer addr)
    pure ()
  else do
    waitForAdmin addr
    c.pushRoutes addr routes

/-- `Reconcile`, under the host's mutex. -/
def reconcileLocked (host : String) : Task Unit := do
  let routes ← deriveRoutes host
  c.serveRoutes (c.resolveAdminAddr host) routes

def reconcile (host : String) : Task Unit :=
  if c.isUnmanaged host then pure ()
  else do
    let _ ← ask (.lock host)
    let r ← Act.attempt (c.reconcileLocked host)
    let _ ← ask (.unlock host)
    Act.lift (pure r)

end Controller

/-! ## The store behind the controller -/

/-- The controller's world: the store answers from its rows and templates, and `admin` says how the
admin API, the clock and the mutexes behave. -/
def storeWorld {τ : Type} (templates : String → Option Template) (admin : Service calls τ) :
    Service calls (Rows × τ)
  | x, .listSpecKeys host, r, x' => x' = x ∧ ∃ ks, r = .ok ks ∧ ks.Perm (x.1.keys host)
  | x, .getSpec host tmpl slug, r, x' =>
    x' = x ∧ r = found .storeNotFound (x.1.get ⟨host, tmpl, slug⟩)
  | x, .getTemplate id, r, x' => x' = x ∧ r = found .storeNotFound (templates id)
  | x, op, r, x' => x'.1 = x.1 ∧ admin x.2 op r x'.2

/-- The controller's world under a deterministic admin API. -/
def storeHandler {τ : Type} (templates : String → Option Template) (admin : Handler calls τ) :
    Handler calls (Rows × τ)
  | x, .listSpecKeys host => (.ok (x.1.keys host), x)
  | x, .getSpec host tmpl slug => (found .storeNotFound (x.1.get ⟨host, tmpl, slug⟩), x)
  | x, .getTemplate id => (found .storeNotFound (templates id), x)
  | x, op => ((admin x.2 op).1, (x.1, (admin x.2 op).2))

section World

variable {τ : Type} {templates : String → Option Template} {x x' : Rows × τ}

theorem storeHandler_storeWorld {admin : Handler calls τ} {op : Op} {r : op.Ans}
    (h : (storeHandler templates admin).service x op r x') : storeWorld templates admin.service x op r x' := by
  obtain ⟨hans, hnext⟩ := Handler.answered h
  cases op with
  | listSpecKeys host => exact ⟨hnext.symm, _, hans.symm, .refl _⟩
  | getSpec | getTemplate => exact ⟨hnext.symm, hans.symm⟩
  | adminDo | pause | lock | unlock =>
    rw [← hnext, ← hans]
    exact ⟨rfl, rfl⟩

theorem storeWorld_total {admin : Service calls τ} (h : admin.Total) : (storeWorld templates admin).Total := by
  intro x op
  cases op with
  | listSpecKeys host => exact ⟨_, x, rfl, _, rfl, .refl _⟩
  | getSpec | getTemplate => exact ⟨_, x, rfl, rfl⟩
  | adminDo addr method path body =>
    obtain ⟨r, y, hr⟩ := h x.2 (.adminDo addr method path body)
    exact ⟨r, (x.1, y), rfl, hr⟩
  | pause =>
    obtain ⟨r, y, hr⟩ := h x.2 .pause
    exact ⟨r, (x.1, y), rfl, hr⟩
  | lock host =>
    obtain ⟨r, y, hr⟩ := h x.2 (.lock host)
    exact ⟨r, (x.1, y), rfl, hr⟩
  | unlock host =>
    obtain ⟨r, y, hr⟩ := h x.2 (.unlock host)
    exact ⟨r, (x.1, y), rfl, hr⟩

theorem storeWorld_rows {admin : Service calls τ} {op : Op} {r : op.Ans}
    (h : storeWorld templates admin x op r x') : x'.1 = x.1 := by
  cases op with
  | listSpecKeys | getSpec | getTemplate => rw [h.1]
  | adminDo | pause | lock | unlock => exact h.1

end World

def Routed (rows : Rows) (templates : String → Option Template) (host d : String) (k : SpecKey) : Prop :=
  ∃ sp t ing, rows.get ⟨host, k.template, k.slug⟩ = some sp ∧ d ∈ sp.domains ∧
    templates k.template = some t ∧ t.metadata.ingress = some ing

def Derived.Owned (acc : Derived) (d : String) : Prop :=
  (GoMap.get? acc.owner d).isSome = true

variable {acc acc' : Derived}

theorem claimDomain_ok {who backend d : String} (h : claimDomain who backend acc d = .ok acc') :
    ¬acc.Owned d ∧ ∀ d', acc'.Owned d' ↔ d' = d ∨ acc.Owned d' := by
  unfold claimDomain at h
  split at h
  · cases h
  · rename_i hnone
    obtain rfl := Except.ok.inj h
    refine ⟨by simp [Derived.Owned, hnone], fun d' => ?_⟩
    unfold Derived.Owned
    rw [GoMap.get?_set]
    by_cases hd : d = d'
    · simp [hd]
    · simp [hd, Ne.symm hd]

theorem claimDomains_ok {who backend : String} {domains : List String}
    (h : claimDomains who backend acc domains = .ok acc') :
    (∀ d ∈ domains, ¬acc.Owned d) ∧ ∀ d, acc'.Owned d ↔ d ∈ domains ∨ acc.Owned d := by
  induction domains generalizing acc with
  | nil =>
    obtain rfl := Except.ok.inj h
    simp
  | cons d ds ih =>
    unfold claimDomains at h
    rw [List.foldlM_cons] at h
    cases hd : claimDomain who backend acc d with
    | error e => rw [hd] at h; cases h
    | ok mid =>
      rw [hd] at h
      obtain ⟨hfree, howned⟩ := claimDomain_ok hd
      obtain ⟨hrest, hall⟩ := ih h
      constructor
      · intro d' hd'
        rcases List.mem_cons.1 hd' with rfl | hmem
        · exact hfree
        · exact fun hacc => hrest d' hmem ((howned d').2 (.inr hacc))
      · intro d'
        rw [hall d', howned d', List.mem_cons]
        tauto

/-- Whatever a row does, no domain loses its owner; a row with ingress takes domains that were free. -/
theorem claimRow_ok {k : SpecKey} {sp : Spec} {t : Template} (h : claimRow k acc sp t = .ok acc') :
    (∀ d, acc.Owned d → acc'.Owned d) ∧
      (t.metadata.ingress.isSome = true → ∀ d ∈ sp.domains, ¬acc.Owned d ∧ acc'.Owned d) := by
  unfold claimRow at h
  split at h
  · rename_i hnone
    obtain rfl := Except.ok.inj h
    refine ⟨fun d hd => hd, fun hsome => ?_⟩
    rw [hnone] at hsome
    cases hsome
  · obtain ⟨hfree, howned⟩ := claimDomains_ok h
    exact ⟨fun d hd => (howned d).2 (.inr hd),
      fun _ d hd => ⟨hfree d hd, (howned d).2 (.inl hd)⟩⟩

section Contested

variable {τ : Type} {templates : String → Option Template} {admin : Service calls τ}
  {x : Rows × τ} {host : String}

theorem deriveRoute_ensures (acc : Derived) (k : SpecKey) : Ends (storeWorld templates admin)
      (fun y r => y = x ∧ ∀ acc', r = .ok acc' → (∀ d, acc.Owned d → acc'.Owned d) ∧
        ∀ d, Routed x.1 templates host d k → ¬acc.Owned d ∧ acc'.Owned d) (deriveRoute host acc k).run x := by
  have hread : Ends (storeWorld templates admin)
      (fun y r => y = x ∧ ∀ sp, r = .ok sp → x.1.get ⟨host, k.template, k.slug⟩ = some sp)
      (Act.mapErr (fun e => .wrap ("ingress: get spec " ++ k.template ++ "/" ++ k.slug ++ ": ") e "")
        (Act.lift (issue (.getSpec host k.template k.slug))) : Task Spec).run x := by
    refine ensures_mapErr.2 (ensures_issue (Op.getSpec host k.template k.slug) trivial fun r y hr => ?_)
    obtain ⟨hy, rfl⟩ := hr
    refine ⟨hy, fun sp hok => ?_⟩
    cases hrow : x.1.get ⟨host, k.template, k.slug⟩ with
    | none => rw [hrow] at hok; cases hok
    | some row => rw [hrow] at hok; exact congrArg some (Except.ok.inj hok)
  -- a round that keeps the accumulator is right when its row routes nothing
  have hskip : (∀ d, ¬Routed x.1 templates host d k) → ∀ acc', (.ok acc : Except Error Derived) =
      .ok acc' → (∀ d, acc.Owned d → acc'.Owned d) ∧
        ∀ d, Routed x.1 templates host d k → ¬acc.Owned d ∧ acc'.Owned d := by
    intro hnone acc' hacc
    obtain rfl := Except.ok.inj hacc
    exact ⟨fun d hd => hd, fun d hd => (hnone d hd).elim⟩
  refine hread.andThen (fun y e hy => ⟨hy.1, nofun⟩) fun y sp hy => ?_
  obtain ⟨rfl, hrow⟩ := hy
  have hget := hrow sp rfl
  split
  · rename_i hempty
    refine ensures_pure.2 ⟨rfl, hskip fun d hd => ?_⟩
    obtain ⟨sp', t, ing, hsp', hmem, -⟩ := hd
    obtain rfl := Option.some.inj (hget.symm.trans hsp')
    rw [List.isEmpty_iff.1 hempty] at hmem
    cases hmem
  · refine ensures_ask_bind trivial fun found z hz => ?_
    obtain ⟨rfl, rfl⟩ := hz
    cases htmpl : templates k.template with
    | none =>
      refine ensures_pure.2 ⟨rfl, hskip fun d hd => ?_⟩
      obtain ⟨sp', t, ing, -, -, ht, -⟩ := hd
      rw [htmpl] at ht
      cases ht
    | some t =>
      refine ensures_ret.2 ⟨rfl, fun acc' hok => ?_⟩
      obtain ⟨hkeep, htake⟩ := claimRow_ok hok
      refine ⟨hkeep, fun d hd => ?_⟩
      obtain ⟨sp', t', ing, hsp', hmem, ht', hing⟩ := hd
      obtain rfl := Option.some.inj (hget.symm.trans hsp')
      obtain rfl := Option.some.inj (htmpl.symm.trans ht')
      exact htake (by rw [hing]; rfl) d hmem

theorem deriveRoutes_ensures : Ends (storeWorld templates admin)
      (fun y r => y = x ∧ ∀ routes, r = .ok routes → ∀ j ∈ x.1.keys host, ∀ k ∈ x.1.keys host,
        j ≠ k → ∀ d, Routed x.1 templates host d j → ¬Routed x.1 templates host d k) (deriveRoutes host).run x := by
  have hlist : Ends (storeWorld templates admin) (fun y r => y = x ∧ ∀ ks, r = .ok ks → ks.Perm (x.1.keys host))
      (Act.mapErr (fun e => .wrap ("ingress: list specs for " ++ host ++ ": ") e "")
        (Act.lift (issue (.listSpecKeys host))) : Task (List SpecKey)).run x := by
    refine ensures_mapErr.2 (ensures_issue (Op.listSpecKeys host) trivial fun r y hr => ?_)
    obtain ⟨hy, ks, rfl, hperm⟩ := hr
    exact ⟨hy, fun ks' hok => Except.ok.inj hok ▸ hperm⟩
  refine hlist.andThen (fun y e hy => ⟨hy.1, nofun⟩) fun y ks hy => ?_
  obtain ⟨rfl, hperm⟩ := hy
  -- after some keys: their domains are owned, and no two of them share one
  have hloop : Ends (storeWorld templates admin) (fun z r => z = y ∧ ∀ acc, r = .ok acc →
        ks.Pairwise fun j k => ∀ d, Routed y.1 templates host d j → ¬Routed y.1 templates host d k)
      (ks.foldlM (deriveRoute host) ⟨[], []⟩).run y := by
    refine ensures_foldlM (fun done acc z => z = y ∧
      (∀ j ∈ done, ∀ d, Routed y.1 templates host d j → acc.Owned d) ∧
      done.Pairwise fun j k => ∀ d, Routed y.1 templates host d j → ¬Routed y.1 templates host d k)
      ks ?_ (fun acc z hz => ⟨hz.1, fun _ _ => hz.2.2⟩) ⟨rfl, by simp, .nil⟩
    rintro done k rest - acc z ⟨rfl, howned, hpair⟩
    refine (deriveRoute_ensures acc k).imp fun u r hu => ⟨fun acc' hok => ?_, fun e _ => ⟨hu.1, nofun⟩⟩
    obtain ⟨hkeep, htake⟩ := hu.2 acc' hok
    refine ⟨hu.1, fun j hj d hd => ?_, ?_⟩
    · rcases List.mem_append.1 hj with hj | hj
      · exact hkeep d (howned j hj d hd)
      · obtain rfl := List.mem_singleton.1 hj
        exact (htake d hd).2
    · refine List.pairwise_append.2 ⟨hpair, List.pairwise_singleton _ _, fun j hj k' hk' d hd hd' => ?_⟩
      obtain rfl := List.mem_singleton.1 hk'
      exact (htake d hd').1 (howned j hj d hd)
  refine hloop.andThen (fun z e hz => ⟨hz.1, nofun⟩) fun z acc hz => ?_
  refine ensures_pure.2 ⟨hz.1, fun _ _ j hj k hk hne d hd hd' => ?_⟩
  have hsymm : Std.Symm fun j k : SpecKey =>
      ∀ d, Routed y.1 templates host d j → ¬Routed y.1 templates host d k :=
    ⟨fun _ _ h d hd hd' => h d hd' hd⟩
  exact (hz.2 acc rfl).forall ((hperm ks rfl).mem_iff.2 hj) ((hperm ks rfl).mem_iff.2 hk) hne d hd hd'

/-- While two rows of a managed host route one domain, no reconcile of
that host succeeds. -/
theorem reconcile_contested {c : Controller} {j k : SpecKey} {d : String}
    (hmanaged : c.isUnmanaged host = false) (hj : Routed x.1 templates host d j)
    (hk : Routed x.1 templates host d k) (hne : j ≠ k) : Ends (storeWorld templates admin)
      (fun y r => y.1 = x.1 ∧ ∃ e, r = .error e) (c.reconcile host).run x := by
  obtain ⟨spj, -, -, hrowj, -⟩ := id hj
  obtain ⟨spk, -, -, hrowk, -⟩ := id hk
  have hlocked : ∀ y : Rows × τ, y.1 = x.1 → Ends (storeWorld templates admin)
        (fun z r => z.1 = x.1 ∧ ∃ e, r = .error e) (c.reconcileLocked host).run y := by
    intro y hy
    refine deriveRoutes_ensures.andThen (fun z e hz => ⟨hz.1 ▸ hy, e, rfl⟩) fun z routes hz => ?_
    rw [hy] at hz
    exact (hz.2 routes rfl j (Rows.mem_keys hrowj) k (Rows.mem_keys hrowk) hne d hj hk).elim
  unfold Controller.reconcile
  rw [if_neg (by rw [hmanaged]; decide)]
  refine ensures_ask_bind trivial fun _ y hlock => ensures_run_bind.2 ?_
  rw [ensures_attempt]
  refine (hlocked y hlock.1).imp fun z r hz => ⟨fun r' hr' => ?_, nofun⟩
  obtain rfl := Except.ok.inj hr'
  refine ensures_ask_bind trivial fun _ u hunlock => ?_
  exact ensures_ret.2 ⟨hunlock.1.trans hz.1, hz.2⟩

end Contested

end PodmanApi.Ingress

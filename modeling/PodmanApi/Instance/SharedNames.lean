/-
# PodmanApi.Instance.SharedNames — DNS names on shared networks.

Two pods of one host that answer to the same name on a network are resolved arbitrarily, so an apply is
checked against the other rows of the host, and an edit of a template against the rows of every configured
host. The checks do not see all of the ways in which a template comes to stand behind a row:

  * a forced deletion leaves rows that claim nothing until a template of that id is created or cloned again;
  * an edit is checked only when its networks or container names change, not when it begins to declare ingress;
  * rows of hosts that are not configured are not looked at;
  * an apply is not checked against the instance it supersedes.
-/
import PodmanApi.Instance.Lifecycle
import PodmanApi.Instance.Templates
import PodmanApi.Store

namespace PodmanApi.Instance

open GoStd Calls
open Function (update update_self update_of_ne update_apply)

/-! ## The names of a claim -/

/-- The names a claim registers on a network; none when it does not join it. -/
def NetClaim.names (c : NetClaim) (net : String) : List String :=
  ((c.claimedNames net).getD []).map (·.name)

/-- Two claims that share no name on any network. -/
def NetClaim.Apart (c d : NetClaim) : Prop :=
  ∀ net, List.Disjoint (c.names net) (d.names net)

variable {tmpl slug host id net x : String} {α : Type} {p : Prog calls α} {sp : Spec} {w : Catalog} {c : NetClaim}

theorem NetClaim.Apart.symm {d : NetClaim} (h : c.Apart d) : d.Apart c :=
  fun net _ hd hc => h net hc hd

theorem NetClaim.joins_of_names (h : x ∈ c.names net) : ∃ j ∈ c.joins, j.name = net := by
  unfold NetClaim.names NetClaim.claimedNames at h
  cases hj : c.joins.find? (·.name == net) with
  | none =>
    rw [hj] at h
    cases h
  | some j => exact ⟨j, List.mem_of_find?_eq_some hj, by simpa using List.find?_some hj⟩

theorem firstNameConflictFor_eq_none {peers : List NetClaim} :
    firstNameConflictFor c peers = none ↔ ∀ p ∈ peers, c.Apart p := by
  have hround : ∀ (j : Network) (p : NetClaim), (((p.claimedNames j.name).getD []).findSome? fun n =>
        (((c.claimedNames j.name).getD []).find? (·.name == n.name)).map fun own =>
          conflictError c p j.name own.kind n) = none ↔ List.Disjoint (c.names j.name) (p.names j.name) := by
    intro j p
    rw [List.findSome?_eq_none_iff]
    unfold NetClaim.names List.Disjoint
    simp only [Option.map_eq_none_iff, List.find?_eq_none, beq_iff_eq, List.mem_map, forall_exists_index, and_imp]
    constructor
    · rintro h x n hn rfl m hm hmn
      exact h m hm n hn hmn.symm
    · intro h m hm n hn hnm
      exact h n hn hnm m hm rfl
  unfold firstNameConflictFor
  rw [List.findSome?_eq_none_iff]
  constructor
  · intro h p hp net x hx
    obtain ⟨j, hj, rfl⟩ := NetClaim.joins_of_names hx
    exact (hround j p).1 (List.findSome?_eq_none_iff.1 (h j hj) p hp) hx
  · intro h j _
    exact List.findSome?_eq_none_iff.2 fun p hp => (hround j p).2 (h p hp j.name)

/-! ## What a pod joins -/

def aliasesOn (joins : List Network) (net : String) : Option (List String) :=
  (joins.find? (·.name == net)).map (·.aliases)

theorem mem_mergeAliases {known more : List String} : x ∈ mergeAliases known more ↔ x ∈ known ∨ x ∈ more := by
  unfold mergeAliases
  induction more generalizing known with
  | nil => simp
  | cons a more ih =>
    rw [List.foldl_cons, ih]
    split
    · rename_i ha
      have ha : a ∈ known := by simpa using ha
      constructor
      · rintro (h | h)
        · exact .inl h
        · exact .inr (List.mem_cons_of_mem _ h)
      · rintro (h | h)
        · exact .inl h
        · rcases List.mem_cons.1 h with rfl | h
          · exact .inl ha
          · exact .inr h
    · rw [List.mem_append, List.mem_singleton, List.mem_cons, or_assoc]

theorem aliasesOn_addJoin (joins : List Network) (n : Network) (net : String) :
    aliasesOn (addJoin joins n) net = if n.name = net
      then some ((aliasesOn joins net).elim n.aliases (mergeAliases · n.aliases)) else aliasesOn joins net := by
  unfold addJoin
  by_cases hany : joins.any (·.name == n.name) = true
  · rw [if_pos hany]
    have hmap : ∀ js : List Network, aliasesOn (js.map fun j =>
        if j.name == n.name then ⟨j.name, mergeAliases j.aliases n.aliases⟩ else j) net =
          if n.name = net then (aliasesOn js net).map (mergeAliases · n.aliases) else aliasesOn js net := by
      intro js
      induction js with
      | nil => simp [aliasesOn]
      | cons j js ih =>
        unfold aliasesOn at ih ⊢
        by_cases hj : j.name = net
        · by_cases hn : n.name = net
          · simp [hj, hn]
          · simp [hj, hn, Ne.symm hn]
        · by_cases hn : j.name = n.name
          · have hnet : n.name ≠ net := fun h => hj (hn.trans h)
            simpa [hn, hnet] using ih
          · simpa [hn, hj] using ih
    rw [hmap]
    split
    · rename_i hnet
      subst hnet
      obtain ⟨j, hj, hname⟩ := List.any_eq_true.1 hany
      have hsome : (joins.find? (·.name == n.name)).isSome = true := List.find?_isSome.2 ⟨j, hj, hname⟩
      obtain ⟨k, hk⟩ := Option.isSome_iff_exists.1 hsome
      simp [aliasesOn, hk]
    · rfl
  · rw [if_neg hany]
    have hnone : joins.find? (·.name == n.name) = none := by
      refine List.find?_eq_none.2 fun j hj hname => hany (List.any_eq_true.2 ⟨j, hj, hname⟩)
    unfold aliasesOn
    rw [List.find?_append]
    by_cases hn : n.name = net
    · subst hn
      simp [hnone]
    · simp [hn]

theorem joined_foldl (nets joins : List Network) (net : String) :
    (aliasesOn (nets.foldl addJoin joins) net).isSome = true ↔
      (aliasesOn joins net).isSome = true ∨ ∃ n ∈ nets, n.name = net := by
  induction nets generalizing joins with
  | nil => simp
  | cons n nets ih =>
    rw [List.foldl_cons, ih, aliasesOn_addJoin]
    by_cases hn : n.name = net <;> simp [hn]

theorem mem_aliases_foldl (nets joins : List Network) (net x : String) :
    x ∈ (aliasesOn (nets.foldl addJoin joins) net).getD [] ↔
      x ∈ (aliasesOn joins net).getD [] ∨ ∃ n ∈ nets, n.name = net ∧ x ∈ n.aliases := by
  induction nets generalizing joins with
  | nil => simp
  | cons n nets ih =>
    rw [List.foldl_cons, ih, aliasesOn_addJoin]
    by_cases hn : n.name = net
    · cases haliases : aliasesOn joins net with
      | none => simp [hn]
      | some known => simp [hn, mem_mergeAliases, or_assoc]
    · simp [hn]

namespace Service

variable (s : Service)

/-- The memberships behind a join list: the ingress network's, then the declared ones. -/
def memberships (m : Meta) : List Network :=
  (if s.ingressEnabled && m.ingress.isSome then [Network.mk s.ingressNet []] else []) ++ m.networks

variable {s}

theorem mem_names_newClaim {m : Meta} :
    x ∈ (s.newClaim tmpl slug m).names net ↔ (∃ n ∈ s.memberships m, n.name = net) ∧
      (x = podName tmpl slug ∨ (∃ n ∈ s.memberships m, n.name = net ∧ x ∈ n.aliases) ∨
        net ≠ s.ingressNet ∧ x ∈ m.containerNames.getD []) := by
  have hjoined := joined_foldl (s.memberships m) [] net
  have haliases := mem_aliases_foldl (s.memberships m) [] net x
  simp only [show aliasesOn [] net = none from rfl, Option.isSome_none, Bool.false_eq_true, false_or,
    Option.getD_none, List.not_mem_nil] at hjoined haliases
  rw [← hjoined, ← haliases]
  have hjoins : (s.newClaim tmpl slug m).joins = (s.memberships m).foldl addJoin [] := rfl
  unfold NetClaim.names NetClaim.claimedNames aliasesOn
  rw [hjoins]
  cases (s.memberships m).foldl addJoin [] |>.find? (·.name == net) with
  | none => simp
  | some j =>
    by_cases hnet : net = s.ingressNet
    · simp [newClaim, hnet]
    · simp [newClaim, hnet]

theorem names_newClaim_mono {m m' : Meta}
    (hnets : ∀ n' ∈ s.memberships m', ∃ n ∈ s.memberships m, n.name = n'.name ∧ n'.aliases ⊆ n.aliases)
    (hcontainers : m'.containerNames.getD [] = m.containerNames.getD []) :
    (s.newClaim tmpl slug m').names net ⊆ (s.newClaim tmpl slug m).names net := by
  intro x hx
  obtain ⟨⟨n', hn', hname⟩, hx⟩ := mem_names_newClaim.1 hx
  obtain ⟨n, hn, hsame, -⟩ := hnets n' hn'
  refine mem_names_newClaim.2 ⟨⟨n, hn, hsame.trans hname⟩, ?_⟩
  rcases hx with hx | ⟨k', hk', hkname, hmem⟩ | ⟨hnet, hmem⟩
  · exact .inl hx
  · obtain ⟨k, hk, hksame, hsub⟩ := hnets k' hk'
    exact .inr (.inl ⟨k, hk, hksame.trans hkname, hsub hmem⟩)
  · exact .inr (.inr ⟨hnet, hcontainers ▸ hmem⟩)

end Service

/-! ## The store -/

structure Catalog where
  templates : String → Option Template
  rows : Rows

def Fetched (stored : Option Template) (r : Except Error Template) : Prop :=
  (∀ t, r = .ok t → stored = some t) ∧ ∀ e, r = .error e → e.is .storeNotFound = true → stored = none

/-- The store. A call that fails changes nothing; all other answers are free. -/
def catalog : Calls.Service calls Catalog := fun w op r w' =>
  match op, r with
  | .getTemplate id, r => Fetched (w.templates id) r ∧ w' = w
  | .putTemplate t, .ok _ => w' = { w with templates := update w.templates t.metadata.id (some t) }
  | .deleteTemplate id, .ok _ => w' = { w with templates := update w.templates id none }
  | .getSpec h t sl, r => (∀ sp, r = .ok sp → w.rows.get ⟨h, t, sl⟩ = some sp) ∧ w' = w
  | .putSpec sp, .ok _ => w' = { w with rows := w.rows.put sp }
  | .deleteSpec h t sl, .ok _ => w' = { w with rows := w.rows.erase ⟨h, t, sl⟩ }
  | .listSpecKeys h, r => (∀ keys, r = .ok keys → keys = w.rows.keys h) ∧ w' = w
  | .listSpecNetworks h, r => (∀ keys, r = .ok keys → keys = w.rows.networks h) ∧ w' = w
  | _, _ => w' = w

def Static : Op → Prop
  | .putTemplate _ | .deleteTemplate _ | .putSpec _ | .deleteSpec _ _ _ => False
  | _ => True

/-- The claim of a row, under the template that stands behind it. -/
def Catalog.claim (s : Service) (w : Catalog) (sp : Spec) : Option NetClaim :=
  (w.templates sp.template).map fun t =>
    s.newClaim sp.template sp.slug (metaWithNetworks (s.metaWithContainerNames t) sp.appliedNetworks)

/-- No two instances of one host claim a common name on a network both join. -/
def Catalog.ConflictFree (s : Service) (w : Catalog) : Prop :=
  ∀ sp ∈ w.rows.list, ∀ other ∈ w.rows.list, sp.host = other.host → sp.id ≠ other.id →
    ∀ c d, w.claim s sp = some c → w.claim s other = some d → c.Apart d

/-- Free of conflicts, and every row is one of a configured host. -/
structure Catalog.Tidy (s : Service) (w : Catalog) : Prop where
  hosts : ∀ sp ∈ w.rows.list, (s.host sp.host).isSome = true
  apart : w.ConflictFree s

section Store

variable {s : Service} {w w' : Catalog} {op : Op} {r : op.Ans}

theorem Static.same (hop : Static op) (h : catalog w op r w') : w' = w := by
  cases op with
  | putTemplate | deleteTemplate | putSpec | deleteSpec => cases hop
  | getTemplate | getSpec | listSpecKeys | listSpecNetworks => exact h.2
  | _ => exact h

theorem Checking.static (h : Checking op) : Static op := by
  cases h <;> trivial

theorem Pushing.static (h : Pushing host op) : Static op := by
  cases h <;> trivial

theorem static_ensures (hp : p.Issues Static) : Ends catalog (fun w' _ => w' = w) p w :=
  hp.ensures (I := fun w' => w' = w) (fun _ _ _ _ hop hw h => (hop.same h).trans hw) (fun _ _ _ _ => trivial) rfl

theorem static_thenOk {β : Type} {x : Task α} {f : α → Task β} {Q : Catalog → β → Prop}
    (hx : x.run.Issues Static) (hf : ∀ a, Ends catalog (OnOk Q) (f a).run w) :
    Ends catalog (OnOk Q) (x >>= f).run w :=
  (static_ensures hx).andThen (fun _ e _ => onOk_error e) fun _ a h => h ▸ hf a

theorem Catalog.Tidy.shrink (h : w.Tidy s) (hrows : ∀ sp ∈ w'.rows.list, sp ∈ w.rows.list)
    (htemplates : ∀ id t, w'.templates id = some t → w.templates id = some t) : w'.Tidy s := by
  have hclaim : ∀ sp c, w'.claim s sp = some c → w.claim s sp = some c := by
    intro sp c hc
    obtain ⟨t, ht, rfl⟩ := Option.map_eq_some_iff.1 hc
    exact Option.map_eq_some_iff.2 ⟨t, htemplates _ t ht, rfl⟩
  refine ⟨fun sp hsp => h.hosts sp (hrows sp hsp), fun sp hsp other hother hhost hid c d hc hd => ?_⟩
  exact h.apart sp (hrows sp hsp) other (hrows other hother) hhost hid c d (hclaim sp c hc) (hclaim other d hd)

theorem Catalog.Tidy.put (h : w.Tidy s) (hhost : (s.host sp.host).isSome = true)
    (hclear : ∀ other ∈ w.rows.list, other.host = sp.host → other.id ≠ sp.id →
      ∀ c d, w.claim s sp = some c → w.claim s other = some d → c.Apart d) :
    Catalog.Tidy s { w with rows := w.rows.put sp } := by
  refine ⟨fun other hother => ?_, fun sp₁ h₁ sp₂ h₂ hsame hid c d hc hd => ?_⟩
  · rcases Rows.mem_put.1 hother with rfl | hother
    · exact hhost
    · exact h.hosts other hother.1
  · rcases Rows.mem_put.1 h₁ with rfl | ⟨hold₁, hne₁⟩
    · rcases Rows.mem_put.1 h₂ with rfl | ⟨hold₂, hne₂⟩
      · exact absurd rfl hid
      · exact hclear sp₂ hold₂ hsame.symm hne₂ c d hc hd
    · rcases Rows.mem_put.1 h₂ with rfl | ⟨hold₂, hne₂⟩
      · exact (hclear sp₁ hold₁ hsame hne₁ d c hd hc).symm
      · exact h.apart sp₁ hold₁ sp₂ hold₂ hsame hid c d hc hd

theorem Catalog.claim_update_of_ne {t : Option Template} (h : sp.template ≠ id) :
    Catalog.claim s { w with templates := update w.templates id t } sp = w.claim s sp := by
  show (update w.templates id t sp.template).map _ = _
  rw [update_of_ne h]
  rfl

theorem Catalog.Tidy.edit (h : w.Tidy s) {t : Template}
    (hw' : w' = { w with templates := update w.templates id (some t) })
    (hclear : ∀ sp ∈ w.rows.list, sp.template = id → ∀ other ∈ w.rows.list, sp.host = other.host →
      sp.id ≠ other.id → ∀ c d, w'.claim s sp = some c → w'.claim s other = some d → c.Apart d) : w'.Tidy s := by
  subst hw'
  refine ⟨h.hosts, fun sp hsp other hother hhost hid c d hc hd => ?_⟩
  by_cases hsame : sp.template = id
  · exact hclear sp hsp hsame other hother hhost hid c d hc hd
  by_cases hsame' : other.template = id
  · exact (hclear other hother hsame' sp hsp hhost.symm hid.symm d c hd hc).symm
  -- neither row names the template, so their claims are what they were
  · rw [Catalog.claim_update_of_ne hsame] at hc
    rw [Catalog.claim_update_of_ne hsame'] at hd
    exact h.apart sp hsp other hother hhost hid c d hc hd

end Store

/-! ## The claims of a host -/

section Claims

variable {s : Service} {w : Catalog}

/-- The metadata with which a scan reads a template: the substituted one, or the stored one. -/
def Catalog.scanned (s : Service) (w : Catalog) (metaFor : GoMap Meta) (id : String) : Option Meta :=
  (GoMap.get? metaFor id).or ((w.templates id).map s.metaWithContainerNames)

/-- What the loop of a scan has established: its cache is right, and the rows seen so far have their claims. -/
def ScanOk (s : Service) (w : Catalog) (metaFor : GoMap Meta) (done : List SpecNetworks) (scan : Service.ClaimScan) :
    Prop :=
  (∀ id m, GoMap.get? scan.cache id = some m → w.scanned s metaFor id = some m) ∧
  (∀ id m, GoMap.get? metaFor id = some m → GoMap.get? scan.cache id = some m) ∧
  ∀ k ∈ done, ∀ m, w.scanned s metaFor k.template = some m →
    s.newClaim k.template k.slug (metaWithNetworks m k.networks) ∈ scan.claims

theorem hostClaims_complete {metaFor : GoMap Meta} : Ends catalog
      (OnOk fun w' claims => w' = w ∧ ∀ sp ∈ w.rows.list, sp.host = host → ∀ m,
        w.scanned s metaFor sp.template = some m →
          s.newClaim sp.template sp.slug (metaWithNetworks m sp.appliedNetworks) ∈ claims)
      (s.hostClaims host metaFor).run w := by
  have hround : ∀ (done : List SpecNetworks) (k : SpecNetworks) (scan : Service.ClaimScan),
      ScanOk s w metaFor done scan → Ends catalog
        (OnOk fun w' scan' => w' = w ∧ ScanOk s w metaFor (done ++ [k]) scan') (s.hostClaim scan k).run w := by
    intro done k scan hscan
    obtain ⟨hcache, hgiven, hdone⟩ := hscan
    -- the claim of the new row is the last one, the others are still there
    have hnext : ∀ m, w.scanned s metaFor k.template = some m → ∀ k' ∈ done ++ [k], ∀ m',
        w.scanned s metaFor k'.template = some m' →
          s.newClaim k'.template k'.slug (metaWithNetworks m' k'.networks) ∈
            scan.claims ++ [s.newClaim k.template k.slug (metaWithNetworks m k.networks)] := by
      intro m hm k' hk' m' hm'
      rcases List.mem_append.1 hk' with hk' | hk'
      · exact List.mem_append_left _ (hdone k' hk' m' hm')
      · obtain rfl := List.mem_singleton.1 hk'
        obtain rfl := Option.some.inj (hm.symm.trans hm')
        exact List.mem_append_right _ (List.mem_singleton.2 rfl)
    unfold Service.hostClaim
    cases hget : GoMap.get? scan.cache k.template with
    | some m => exact ensures_pure_onOk ⟨rfl, hcache, hgiven, hnext m (hcache _ m hget)⟩
    | none =>
      have hfresh : GoMap.get? metaFor k.template = none := by
        cases hmeta : GoMap.get? metaFor k.template with
        | none => rfl
        | some m => rw [hgiven _ m hmeta] at hget; cases hget
      refine ensures_ask_bind trivial fun r w' hr => ?_
      obtain ⟨⟨hok, hmissing⟩, rfl⟩ := hr
      cases r with
      | ok t =>
        have hscanned : w'.scanned s metaFor k.template = some (s.metaWithContainerNames t) := by
          simp [Catalog.scanned, hfresh, hok t rfl]
        refine ensures_pure_onOk ⟨rfl, fun id m hm => ?_, fun id m hm => ?_, hnext _ hscanned⟩
        · rw [GoMap.get?_set] at hm
          split at hm
          · rename_i hid
            exact hid ▸ hscanned.trans hm
          · exact hcache id m hm
        · rw [GoMap.get?_set]
          split
          · rename_i hid
            rw [← hid, hfresh] at hm
            cases hm
          · exact hgiven id m hm
      | error e =>
        dsimp only
        split
        · rename_i hnotFound
          refine ensures_pure_onOk ⟨rfl, hcache, hgiven, fun k' hk' m' hm' => ?_⟩
          rcases List.mem_append.1 hk' with hk' | hk'
          · exact hdone k' hk' m' hm'
          · obtain rfl := List.mem_singleton.1 hk'
            simp [Catalog.scanned, hfresh, hmissing e rfl hnotFound] at hm'
        · exact ensures_throw_onOk
  refine .thenOk (P := fun w' keys => w' = w ∧ keys = w.rows.networks host) ?_ fun w' keys hkeys => ?_
  · refine ensures_issue (Op.listSpecNetworks host) trivial fun r w' hr => ?_
    exact fun keys hkeys => ⟨hr.2, hr.1 keys hkeys⟩
  obtain ⟨rfl, rfl⟩ := hkeys
  refine .thenOk (P := fun w₁ scan => w₁ = w' ∧ ScanOk s w' metaFor (w'.rows.networks host) scan) ?_
    fun w₁ scan hscan => ?_
  · refine ensures_foldlM (fun done scan w₁ => w₁ = w' ∧ ScanOk s w' metaFor done scan) _
      (fun done k rest _ scan w₁ hscan => ?_) (fun scan w₁ hscan => onOk_ok.2 hscan)
      ⟨rfl, fun id m hm => ?_, fun _ _ hm => hm, nofun⟩
    · obtain ⟨rfl, hscan⟩ := hscan
      exact (hround done k scan hscan).imp fun _ r hr => ⟨hr, fun e _ => onOk_error e⟩
    · simp [Catalog.scanned, show GoMap.get? metaFor id = some m from hm]
  · obtain ⟨rfl, -, -, hdone⟩ := hscan
    refine ensures_pure_onOk ⟨rfl, fun sp hsp hhost m hm => ?_⟩
    exact hdone ⟨sp.template, sp.slug, sp.appliedNetworks⟩
      (List.mem_map.2 ⟨sp, List.mem_filter.2 ⟨hsp, decide_eq_true hhost⟩, rfl⟩) m hm

end Claims

/-! ## An apply -/

section Apply

variable {s : Service} {w : Catalog} {host : String} {req : ApplyRequest} {opts : ApplyOptions} {t : Template}

theorem scanned_single (id : String) : w.scanned s [(t.metadata.id, s.metaWithContainerNames t)] id =
      (update w.templates t.metadata.id (some t) id).map s.metaWithContainerNames := by
  unfold Catalog.scanned
  rw [GoMap.get?_cons, GoMap.get?_nil]
  by_cases hid : id = t.metadata.id
  · subst hid
    simp
  · simp [hid, Ne.symm hid]

def Service.appliedClaim (s : Service) (req : ApplyRequest) (t : Template) : NetClaim :=
  s.newClaim req.template req.slug (metaWithNetworks (s.metaWithContainerNames t) req.networks)

/-- What the check of an apply clears: every row of the host but the instance itself and the one it supersedes. -/
def Catalog.Clear (s : Service) (w : Catalog) (host : String) (req : ApplyRequest) (opts : ApplyOptions)
    (t : Template) : Prop :=
  ∀ other ∈ w.rows.list, other.host = host →
    ¬(other.template = req.template ∧ (other.slug = req.slug ∨ other.slug = opts.supersededSlug)) →
      ∀ d, w.claim s other = some d → (s.appliedClaim req t).Apart d

theorem validateNetworkAliases_clears (ht : w.templates req.template = some t) :
    Ends catalog (OnOk fun w' _ => w' = w ∧ w.Clear s host req opts t)
      (s.validateNetworkAliases host req t opts).run w := by
  unfold Service.validateNetworkAliases
  dsimp only
  split
  · rename_i hjoins
    refine ensures_pure_onOk ⟨rfl, fun other _ _ _ d _ net x hx => ?_⟩
    -- a pod that joins nothing answers to nothing
    obtain ⟨j, hj, -⟩ := NetClaim.joins_of_names hx
    exact absurd hj (by simp [Service.appliedClaim, List.isEmpty_iff.1 hjoins])
  · refine (Ensures.mapErr_onOk hostClaims_complete).thenOk fun w' peers hpeers => ?_
    obtain ⟨rfl, hpeers⟩ := hpeers
    split
    · rename_i hnone
      refine ensures_pure_onOk ⟨rfl, fun other hother hhost hexempt d hd => ?_⟩
      obtain ⟨u, hu, rfl⟩ := Option.map_eq_some_iff.1 hd
      -- the substituted template is the stored one
      have hread : w'.scanned s [(req.template, s.metaWithContainerNames t)] other.template =
          some (s.metaWithContainerNames u) := by
        unfold Catalog.scanned
        rw [GoMap.get?_cons, GoMap.get?_nil]
        by_cases hsame : req.template = other.template
        · rw [hsame, hu] at ht
          simp [hsame, Option.some.inj ht]
        · simp [hsame, hu]
      apply firstNameConflictFor_eq_none.1 hnone
      refine List.mem_filter.2 ⟨hpeers other hother hhost _ hread, ?_⟩
      simpa [Service.newClaim, imp_iff_not_or] using hexempt
    · exact ensures_throw_onOk

theorem lookup_fetches : Ends catalog (OnOk fun w' t => w' = w ∧ (s.host host).isSome = true ∧
      w.templates tmpl = some t) (s.lookup host tmpl).run w :=
  ensures_lookup_onOk trivial fun hhost t _ hr => ⟨hr.2, hhost, hr.1.1 t rfl⟩

theorem applyPush_clears : Ends catalog (OnOk fun _ prep => (s.host host).isSome = true ∧
      w.templates req.template = some prep.tmpl ∧ w.Clear s host req opts prep.tmpl)
      (s.applyPush host req opts).run w := by
  have hrequest : Ends catalog (OnOk fun _ (p : Template × GoMap Value) => (s.host host).isSome = true ∧
      w.templates req.template = some p.1 ∧ w.Clear s host req opts p.1) (s.checkRequest host req opts).run w := by
    refine lookup_fetches.thenOk fun w₁ t h₁ => ?_
    obtain ⟨rfl, hhost, ht⟩ := h₁
    refine static_thenOk issues_lift_pure.mapErr fun _ => ensures_require_thenOk fun _ => ?_
    refine static_thenOk issues_lift_pure.mapErr fun _ => ?_
    refine static_thenOk ((validateIngress_issues t).mono fun op h => h.static) fun _ => ?_
    exact (validateNetworkAliases_clears ht).thenOk fun _ _ h => ensures_pure_onOk ⟨hhost, ht, h.2⟩
  refine .thenOk (hrequest.thenOk fun _ p hfacts => ?_) fun _ prep hfacts =>
    ensures_skip_onOk fun _ _ => ensures_pure_onOk hfacts
  -- the other checks go on with the template of the request
  refine ensures_skip_onOk fun _ _ => ensures_skip_onOk fun _ _ => ensures_skip_onOk fun _ _ => ?_
  refine ensures_skip_onOk fun _ _ => ensures_skip_onOk fun _ _ => ensures_skip_onOk fun _ _ => ?_
  exact ensures_pure_onOk hfacts

theorem persistSpec_tidy (hw : w.Tidy s) (hput : Catalog.Tidy s { w with rows := w.rows.put sp }) :
    Ends catalog (fun w' _ => w'.Tidy s) (Service.persistSpec sp).run w := by
  refine ensures_ask_bind trivial fun _ w₁ h₁ => ?_
  obtain rfl := show w₁ = w from h₁
  refine ensures_ask_bind trivial fun r w₂ h₂ => ?_
  obtain ⟨-, rfl⟩ := h₂
  cases r with
  | error e => exact ensures_ask_bind trivial fun _ w₃ h₃ => ensures_throw.2 ((show w₃ = _ from h₃) ▸ hw)
  | ok _ =>
    refine ensures_ask_bind trivial fun wrote w₃ h₃ => ?_
    have hwrote : w₃.Tidy s := by
      cases wrote with
      | error e => exact (show w₃ = _ from h₃) ▸ hw
      | ok _ => exact (show w₃ = _ from h₃) ▸ hput
    refine ensures_ask_bind trivial fun _ w₄ h₄ => ?_
    exact ensures_mapErr.2 (ensures_ret.2 ((show w₄ = w₃ from h₄) ▸ hwrote))

/-- The slug that an apply supersedes is free on the host, or its own. -/
def Catalog.Unsuperseded (w : Catalog) (host : String) (req : ApplyRequest) (opts : ApplyOptions) : Prop :=
  ∀ sp ∈ w.rows.list, sp.host = host → sp.template = req.template → sp.slug = opts.supersededSlug →
    sp.slug = req.slug

theorem Catalog.Tidy.applied (hw : w.Tidy s) {prep : Prepared} (hhost : (s.host host).isSome = true)
    (htmpl : w.templates req.template = some prep.tmpl) (hclear : w.Clear s host req opts prep.tmpl)
    (hsuper : w.Unsuperseded host req opts) :
    Catalog.Tidy s { w with rows := w.rows.put (Service.appliedSpec host req prep) } := by
  refine hw.put hhost fun other hother hsame hid c d hc hd => ?_
  obtain ⟨u, hu, rfl⟩ := Option.map_eq_some_iff.1 hc
  obtain rfl := Option.some.inj (htmpl.symm.trans hu)
  refine hclear other hother hsame (fun hexempt => ?_) d hd
  obtain ⟨ht, hslug⟩ := hexempt
  have hslug : other.slug = req.slug := hslug.elim id (hsuper other hother hsame ht)
  apply hid
  rw [Spec.id, hsame, ht, hslug]
  rfl

theorem applyCommit_tidy {prep : Prepared} (hw : w.Tidy s)
    (hput : Catalog.Tidy s { w with rows := w.rows.put (Service.appliedSpec host req prep) }) :
    Ends catalog (fun w' _ => w'.Tidy s) (s.applyCommit host req opts prep).run w := by
  refine (static_ensures (issues_forM _ fun sec _ =>
    (replaceSecret_issues _ _ _ _ _).mono fun op h => h.static)).andThen (fun _ _ h => h ▸ hw) fun w₁ _ h₁ => ?_
  subst h₁
  refine (static_ensures (ensureNetworks_issues _ fun _ => trivial)).andThen (fun _ _ h => h ▸ hw)
    fun w₂ networks h₂ => ?_
  subst h₂
  refine (static_ensures (.mapErr (issues_perform.2 trivial))).andThen (fun _ _ h => h ▸ hw)
    fun w₃ _ h₃ => ?_
  subst h₃
  refine (persistSpec_tidy hw hput).andThen (fun _ _ h => h) fun w₄ _ h₄ => ?_
  exact (static_ensures (refreshIngress_issues trivial)).imp fun _ _ h => h ▸ h₄

theorem apply_tidy (hw : w.Tidy s) (hsuper : w.Unsuperseded host req opts) :
    Ends catalog (fun w' _ => w'.Tidy s) (s.apply host req opts) w := by
  have hpush : (s.applyPush host req opts).run.Issues Static :=
    applyPush_issues (fun _ h => h.static) fun _ h => h.static
  have hlocked : Ends catalog (fun w' _ => w'.Tidy s) (s.applyLocked host req opts) w := by
    refine ((static_ensures hpush).and applyPush_clears).bind fun w₁ r hr => ?_
    obtain ⟨rfl, hok⟩ := hr
    cases r with
    | error e => exact ensures_ret.2 hw
    | ok prep =>
      obtain ⟨hhost, htmpl, hclear⟩ := hok prep rfl
      have hput := hw.applied hhost htmpl hclear hsuper
      exact (applyCommit_tidy hw hput).map fun _ _ h => h
  have hlock : ∀ {m : Mutex} {p : Prog calls (Except Error Unit × GoMap String)},
      Ends catalog (fun w' _ => w'.Tidy s) p w →
        Ends catalog (fun w' _ => w'.Tidy s) (locked m p) w := by
    intro m p hp
    refine ensures_lock trivial fun w₁ h₁ => ?_
    obtain rfl := show w₁ = w from h₁
    exact hp.imp fun w₂ _ h₂ => ⟨trivial, fun w₃ h₃ => (show w₃ = w₂ from h₃) ▸ h₂⟩
  unfold Service.apply
  split
  · exact hlock hlocked
  · exact hlock (hlock hlocked)

end Apply

/-! ## An edit -/

section Edit

variable {s : Service} {w : Catalog} {existing t : Template}

abbrev Catalog.edited (w : Catalog) (t : Template) : Catalog :=
  { w with templates := update w.templates t.metadata.id (some t) }

/-- What the check of an edit clears on one host: the rows of the template against all others. -/
def Catalog.EditClear (s : Service) (w : Catalog) (t : Template) (host : String) : Prop :=
  ∀ sp ∈ w.rows.list, sp.host = host → sp.template = t.metadata.id → ∀ other ∈ w.rows.list, other.host = host →
    sp.id ≠ other.id → ∀ c d, (w.edited t).claim s sp = some c → (w.edited t).claim s other = some d → c.Apart d

theorem checkHostConflicts_clears : Ends catalog (OnOk fun w' _ => w' = w ∧ w.EditClear s t host)
      (s.checkHostConflicts t host).run w := by
  refine (Ensures.mapErr_onOk hostClaims_complete).thenOk fun w' claims hclaims => ?_
  obtain ⟨rfl, hclaims⟩ := hclaims
  -- every row of the host has its claim under the edited template among those of the scan
  have hlisted : ∀ sp ∈ w'.rows.list, sp.host = host → ∀ c, (w'.edited t).claim s sp = some c → c ∈ claims := by
    intro sp hsp hhost c hc
    obtain ⟨u, hu, rfl⟩ := Option.map_eq_some_iff.1 hc
    refine hclaims sp hsp hhost _ ?_
    rw [scanned_single]
    exact Option.map_eq_some_iff.2 ⟨u, hu, rfl⟩
  split
  · rename_i hnone
    refine ensures_pure_onOk ⟨rfl, fun sp hsp hhost htmpl other hother hhost' hid c d hc hd => ?_⟩
    have hmine := hlisted sp hsp hhost c hc
    have htheirs := hlisted other hother hhost' d hd
    obtain ⟨u, -, rfl⟩ := Option.map_eq_some_iff.1 hc
    obtain ⟨v, -, rfl⟩ := Option.map_eq_some_iff.1 hd
    have hsubject := List.findSome?_eq_none_iff.1 hnone _
      (List.mem_filter.2 ⟨hmine, by simpa [Service.newClaim] using htmpl⟩)
    apply firstNameConflictFor_eq_none.1 hsubject
    refine List.mem_filter.2 ⟨htheirs, ?_⟩
    have hother : ¬(other.template = sp.template ∧ other.slug = sp.slug) := by
      rintro ⟨ht, hslug⟩
      exact hid (by rw [Spec.id, Spec.id, hhost, hhost', ht, hslug])
    simpa [Service.newClaim, imp_iff_not_or] using hother
  · exact ensures_throw_onOk

theorem checkTemplateNetworkConflicts_clears : Ends catalog
      (OnOk fun w' _ => w' = w ∧ ∀ host, (s.host host).isSome = true → w.EditClear s t host)
      (s.checkTemplateNetworkConflicts t).run w := by
  refine ensures_forM (fun done w' => w' = w ∧ ∀ host ∈ done, w.EditClear s t host) _
    (fun done host rest _ w' hw' => ?_) (fun w' hw' => ?_) ⟨rfl, nofun⟩
  · obtain ⟨rfl, hdone⟩ := hw'
    refine checkHostConflicts_clears.imp fun w₁ r hr => ⟨fun hok => ?_, fun e _ => onOk_error e⟩
    obtain ⟨rfl, hclear⟩ := hr ⟨⟩ hok
    refine ⟨rfl, fun h hh => ?_⟩
    rcases List.mem_append.1 hh with hh | hh
    · exact hdone h hh
    · exact List.mem_singleton.1 hh ▸ hclear
  · obtain ⟨rfl, hall⟩ := hw'
    exact onOk_ok.2 ⟨rfl, fun host hhost => hall host (GoMap.mem_keys_of_get? hhost)⟩

/-- `render.ContainerNames` reads the parameters of a template and nothing else of its metadata. -/
def Service.ReadsParameters (s : Service) : Prop :=
  ∀ body (m m' : Meta), m.parameters = m'.parameters → s.containerNames body m = s.containerNames body m'

theorem containerNames_setContainerNames (hs : s.ReadsParameters) (t : Template) :
    (s.metaWithContainerNames (s.setContainerNames t)).containerNames =
      (s.setContainerNames t).metadata.containerNames := by
  unfold Service.metaWithContainerNames
  split
  · rfl
  · rename_i hunset
    cases hnames : s.containerNames t.body t.metadata with
    | ok literal => simp [Service.setContainerNames, hnames, Except.toOption] at hunset
    | error e =>
      have hagain : s.containerNames (s.setContainerNames t).body (s.setContainerNames t).metadata = .error e :=
        (hs t.body (s.setContainerNames t).metadata t.metadata rfl).trans hnames
      rw [hagain]

theorem networks_setContainerNames (t : Template) : (s.metaWithContainerNames t).networks = t.metadata.networks ∧
      (s.metaWithContainerNames t).ingress = t.metadata.ingress := by
  unfold Service.metaWithContainerNames
  split
  · exact ⟨rfl, rfl⟩
  · split <;> exact ⟨rfl, rfl⟩

theorem mem_of_not_networksChanged {old new : List Network} (h : networksChanged old new = false) {n : Network}
    (hn : n ∈ new) : ∃ o ∈ old, o.name = n.name ∧ n.aliases ⊆ o.aliases := by
  unfold networksChanged at h
  split at h
  · cases h
  have hround := List.any_eq_false.1 h n hn
  rw [GoMap.get?_fill Network.name Network.aliases] at hround
  cases hfound : old.reverse.find? (·.name == n.name) with
  | none => simp [hfound] at hround
  | some o =>
    refine ⟨o, List.mem_reverse.1 (List.mem_of_find?_eq_some hfound), by simpa using List.find?_some hfound, ?_⟩
    intro a ha
    simp only [hfound, Option.map_some, Bool.or_eq_true, not_or, bne_iff_ne, ne_eq, not_not, List.any_eq_true,
      not_exists, not_and] at hround
    simpa using hround.2 a ha

theorem names_of_unchecked {extra : List Network} (hs : s.ReadsParameters)
    (hsame : s.rechecksNames existing (s.setContainerNames t) = false)
    (hingress : s.ingressEnabled = true → t.metadata.ingress.isSome = true → existing.metadata.ingress.isSome = true) :
    (s.newClaim tmpl slug (metaWithNetworks (s.metaWithContainerNames (s.setContainerNames t)) extra)).names net ⊆
      (s.newClaim tmpl slug (metaWithNetworks (s.metaWithContainerNames existing) extra)).names net := by
  obtain ⟨hnets, hcontainers⟩ := Bool.or_eq_false_iff.1 hsame
  obtain ⟨hold, holdIngress⟩ := networks_setContainerNames (s := s) existing
  obtain ⟨hnew, hnewIngress⟩ := networks_setContainerNames (s := s) (s.setContainerNames t)
  apply Service.names_newClaim_mono
  · intro n hn
    simp only [Service.memberships, metaWithNetworks, hnew, hnewIngress, List.mem_append] at hn
    simp only [Service.memberships, metaWithNetworks, hold, holdIngress, List.mem_append]
    rcases hn with hn | hn | hn
    · -- the ingress network was joined before
      split at hn
      · rename_i hjoins
        obtain ⟨henabled, hdeclares⟩ := Bool.and_eq_true_iff.1 hjoins
        rw [if_pos (Bool.and_eq_true_iff.2 ⟨henabled, hingress henabled hdeclares⟩)]
        exact ⟨n, .inl hn, rfl, fun _ h => h⟩
      · cases hn
    · obtain ⟨o, ho, hname, hsub⟩ := mem_of_not_networksChanged hnets hn
      exact ⟨o, .inr (.inl ho), hname, hsub⟩
    · exact ⟨n, .inr (.inr hn), rfl, fun _ h => h⟩
  · show (s.metaWithContainerNames (s.setContainerNames t)).containerNames.getD [] =
      (s.metaWithContainerNames existing).containerNames.getD []
    rw [containerNames_setContainerNames hs]
    simpa using (bne_eq_false_iff_eq.1 hcontainers).symm

/-- An edit that begins to declare ingress also changes its networks, and so is checked. -/
def Catalog.Declared (s : Service) (w : Catalog) (t : Template) : Prop :=
  ∀ existing, w.templates t.metadata.id = some existing → s.ingressEnabled = true →
    t.metadata.ingress.isSome = true → existing.metadata.ingress.isSome = true ∨
      networksChanged existing.metadata.networks t.metadata.networks = true

theorem Catalog.Tidy.edited (hs : s.ReadsParameters) (hw : w.Tidy s)
    (hexisting : w.templates t.metadata.id = some existing) (hdeclared : w.Declared s t)
    (hchecked : s.rechecksNames existing (s.setContainerNames t) = true →
      ∀ host, (s.host host).isSome = true → w.EditClear s (s.setContainerNames t) host) :
    (w.edited (s.setContainerNames t)).Tidy s := by
  refine hw.edit rfl fun sp hsp htmpl other hother hhost hid c d hc hd => ?_
  by_cases hcheck : s.rechecksNames existing (s.setContainerNames t) = true
  · exact hchecked hcheck sp.host (hw.hosts sp hsp) sp hsp rfl htmpl other hother hhost.symm hid c d hc hd
  have hsame : s.rechecksNames existing (s.setContainerNames t) = false := by simpa using hcheck
  have hingress : s.ingressEnabled = true → t.metadata.ingress.isSome = true →
      existing.metadata.ingress.isSome = true := by
    intro henabled hdeclares
    refine (hdeclared existing hexisting henabled hdeclares).resolve_right fun hchanged => ?_
    obtain ⟨hnets, -⟩ := Bool.or_eq_false_iff.1 hsame
    exact absurd (hchanged.symm.trans hnets) (by decide)
  -- every claim under the edited template has a counterpart before the edit with at least its names
  have hbefore : ∀ row c, (w.edited (s.setContainerNames t)).claim s row = some c →
      ∃ old, w.claim s row = some old ∧ ∀ net, c.names net ⊆ old.names net := by
    intro row c hc
    by_cases hrow : row.template = t.metadata.id
    · have hnow : (w.edited (s.setContainerNames t)).templates row.template = some (s.setContainerNames t) := by
        rw [hrow]
        exact update_self ..
      have hthen : w.templates row.template = some existing := hrow ▸ hexisting
      obtain ⟨u, hu, rfl⟩ := Option.map_eq_some_iff.1 hc
      have hu : u = s.setContainerNames t := Option.some.inj (hu.symm.trans hnow)
      subst hu
      refine ⟨_, by rw [Catalog.claim, hthen, Option.map_some], fun net => ?_⟩
      exact names_of_unchecked hs hsame hingress
    · exact ⟨c, (Catalog.claim_update_of_ne hrow).symm.trans hc, fun _ _ h => h⟩
  obtain ⟨c₀, hc₀, hsub⟩ := hbefore sp c hc
  obtain ⟨d₀, hd₀, hsub'⟩ := hbefore other d hd
  intro net x hx hx'
  exact hw.apart sp hsp other hother hhost hid c₀ d₀ hc₀ hd₀ net (hsub net hx) (hsub' net hx')

theorem withTemplates_tidy {x : Task α} (hx : Ends catalog (fun w' _ => w'.Tidy s) x.run w) :
    Ends catalog (fun w' _ => w'.Tidy s) (withTemplates x).run w := by
  refine ensures_issue_bind Op.lockTemplates trivial fun _ w₁ h₁ => ?_
  obtain rfl := show w₁ = w from h₁
  refine hx.bind fun w₂ r h₂ => ?_
  refine ensures_issue_bind Op.unlockTemplates trivial fun _ w₃ h₃ => ?_
  exact ensures_ret.2 ((show w₃ = w₂ from h₃) ▸ h₂)

theorem updateTemplate_tidy {a : Authoring} (hs : s.ReadsParameters) (hw : w.Tidy s) (hdeclared : w.Declared s t) :
    Ends catalog (fun w' _ => w'.Tidy s) (s.updateTemplate a t).run w := by
  have hreplace : ∀ existing, w.templates t.metadata.id = some existing → Ends catalog (fun w' _ => w'.Tidy s)
        (s.replaceTemplate existing (s.setContainerNames t)).run w := by
    intro existing hexisting
    refine .andThen (P := fun w' r => w' = w ∧ ∀ u, r = .ok u →
        (s.rechecksNames existing (s.setContainerNames t) = true → ∀ host, (s.host host).isSome = true →
          w.EditClear s (s.setContainerNames t) host)) ?_ (fun _ _ h => h.1 ▸ hw) fun w₁ u h₁ => ?_
    · unfold Service.recheckNames
      split
      · refine ensures_mapErr.2 (((static_ensures (checkTemplateNetworkConflicts_issues.mono fun op h =>
          h.static)).and checkTemplateNetworkConflicts_clears).imp fun w₁ r hr => ⟨hr.1, fun u hu _ => ?_⟩)
        cases r with
        | ok v => exact (hr.2 v rfl).2
        | error e => cases hu
      · rename_i hunchecked
        exact ensures_pure.2 ⟨rfl, fun _ _ hcheck => absurd hcheck hunchecked⟩
    · obtain ⟨rfl, hclear⟩ := h₁
      refine ensures_issue (Op.putTemplate (s.setContainerNames t)) trivial fun r w₂ h₂ => ?_
      cases r with
      | error e => exact (show w₂ = w₁ from h₂) ▸ hw
      | ok _ => exact (show w₂ = _ from h₂) ▸ hw.edited hs hexisting hdeclared (hclear u rfl)
  refine withTemplates_tidy ?_
  refine (static_ensures issues_lift_pure.mapErr).andThen (fun _ _ h => h ▸ hw) fun w₁ _ h₁ => ?_
  subst h₁
  have hget : Ends catalog (fun w' r => w' = w₁ ∧ ∀ existing, r = .ok existing →
      w₁.templates t.metadata.id = some existing) (getTemplate t.metadata.id).run w₁ := by
    refine ensures_ask_bind trivial fun r w₂ h₂ => ?_
    obtain ⟨⟨hok, -⟩, rfl⟩ := h₂
    cases r with
    | ok existing => exact ensures_pure.2 ⟨rfl, fun u hu => hok u hu⟩
    | error e => exact ensures_throw.2 ⟨rfl, nofun⟩
  refine hget.attemptThen fun w₂ r h₂ => ?_
  obtain ⟨rfl, hexisting⟩ := h₂
  cases r with
  | ok existing =>
    refine (static_ensures issues_lift_pure).andThen (fun _ _ h => h ▸ hw) fun w₃ _ h₃ => ?_
    subst h₃
    exact hreplace existing (hexisting existing rfl)
  | error e =>
    refine (static_ensures issues_require).andThen (fun _ _ h => h ▸ hw) fun w₃ _ h₃ => ?_
    subst h₃
    refine (static_ensures issues_lift_pure).andThen (fun _ _ h => h ▸ hw) fun w₄ _ h₄ => ?_
    exact ensures_throw.2 (h₄ ▸ hw)

end Edit

/-! ## Series of calls -/

inductive CatalogCall where
  | apply (host : String) (req : ApplyRequest) (opts : ApplyOptions)
  | delete (host tmpl slug : String) (opts : DeleteOptions)
  | createTemplate (t : Template)
  | updateTemplate (t : Template)
  | cloneTemplate (srcID newID : String)
  | deleteTemplate (id : String) (force : Bool)

def CatalogCall.prog (s : Service) (a : Authoring) : CatalogCall → Prog calls (Except Error Unit)
  | .apply host req opts => s.apply host req opts >>= fun out => pure out.1
  | .delete host tmpl slug opts => (s.delete host tmpl slug opts).run
  | .createTemplate t => (s.createTemplate a t).run
  | .updateTemplate t => (s.updateTemplate a t).run
  | .cloneTemplate srcID newID => (s.cloneTemplate a srcID newID).run >>= fun r => pure (r.map fun _ => ())
  | .deleteTemplate id force => (s.deleteTemplate id force).run

/-- What a call must not do for the names to stay apart: supersede another instance, bring a template back behind
its rows, or begin to declare ingress without a change of networks. -/
def CatalogCall.Sound (s : Service) (w : Catalog) : CatalogCall → Prop
  | .apply host req opts => w.Unsuperseded host req opts
  | .createTemplate t => ∀ sp ∈ w.rows.list, sp.template ≠ t.metadata.id
  | .updateTemplate t => w.Declared s t
  | .cloneTemplate _ newID => ∀ sp ∈ w.rows.list, sp.template ≠ newID
  | _ => True

/-- A series of calls, each of which returns before the next begins; every call meets the condition where it
begins. -/
inductive Series (s : Service) (a : Authoring) (C : Catalog → CatalogCall → Prop) (w : Catalog) : Catalog → Prop where
  | nil : Series s a C w w
  | call {w₁ w₂ : Catalog} (before : Series s a C w w₁) (q : CatalogCall) (hq : C w₁ q) {t : History}
      {r : Except Error Unit} (hrun : Exec catalog w₁ (q.prog s a) t w₂ (.ret r)) : Series s a C w w₂

/-- The calls that write no template but one of the given id. -/
def Introducing (id : String) (op : Op) : Prop :=
  Static op ∨ ∃ t : Template, t.metadata.id = id ∧ op = .putTemplate t

/-- The calls that take rows and templates away. -/
def Shrinking (op : Op) : Prop :=
  Static op ∨ (∃ host tmpl slug, op = .deleteSpec host tmpl slug) ∨ ∃ id, op = .deleteTemplate id

section Series

variable {s : Service} {a : Authoring} {w w' : Catalog}

theorem introducing_tidy
    (hp : p.Issues (Introducing id)) (hw : w.Tidy s) (hfresh : ∀ sp ∈ w.rows.list, sp.template ≠ id) :
    Ends catalog (fun w' _ => w'.Tidy s) p w := by
  refine .imp (hp.ensures (I := fun w' => w'.Tidy s ∧ ∀ sp ∈ w'.rows.list, sp.template ≠ id) ?_
    (fun _ _ _ _ => trivial) ⟨hw, hfresh⟩) fun _ _ h => h.1
  intro w₁ op r w₂ hop hw₁ hstep
  rcases hop with hop | ⟨t, rfl, rfl⟩
  · exact (hop.same hstep) ▸ hw₁
  · cases r with
    | error e => exact (show w₂ = w₁ from hstep) ▸ hw₁
    | ok _ =>
      obtain rfl := show w₂ = _ from hstep
      refine ⟨hw₁.1.edit rfl fun sp hsp htmpl => ?_, hw₁.2⟩
      exact absurd htmpl (hw₁.2 sp hsp)

theorem shrinking_tidy (hp : p.Issues Shrinking) (hw : w.Tidy s) : Ends catalog (fun w' _ => w'.Tidy s) p w := by
  refine hp.ensures (fun w₁ op r w₂ hop hw₁ hstep => ?_) (fun _ _ _ _ => trivial) hw
  rcases hop with hop | ⟨host, tmpl, slug, rfl⟩ | ⟨id, rfl⟩
  · exact (hop.same hstep) ▸ hw₁
  · cases r with
    | error e => exact (show w₂ = w₁ from hstep) ▸ hw₁
    | ok _ =>
      obtain rfl := show w₂ = _ from hstep
      exact hw₁.shrink (fun sp hsp => (Rows.mem_erase.1 hsp).1) fun _ _ h => h
  · cases r with
    | error e => exact (show w₂ = w₁ from hstep) ▸ hw₁
    | ok _ =>
      obtain rfl := show w₂ = _ from hstep
      refine hw₁.shrink (fun _ h => h) fun other t (ht : update w₁.templates id none other = some t) => ?_
      rw [update_apply] at ht
      split at ht
      · cases ht
      · exact ht

theorem Deleting.shrinking {op : Op} (h : Deleting host tmpl slug op) : Shrinking op := by
  cases h with
  | pruning h => exact .inl (by cases h <;> trivial)
  | deleteSpec => exact .inr (.inl ⟨_, _, _, rfl⟩)
  | _ => exact .inl trivial

theorem request_tidy (hs : s.ReadsParameters) (hw : w.Tidy s) {q : CatalogCall} (hq : q.Sound s w) :
    Ends catalog (fun w' _ => w'.Tidy s) (q.prog s a) w := by
  cases q with
  | apply host req opts => exact (apply_tidy hw hq).map fun _ _ h => h
  | delete host tmpl slug opts => exact shrinking_tidy ((delete_issues opts).mono fun op h => h.shrinking) hw
  | createTemplate t =>
    refine introducing_tidy (createTemplate_issues (.inl trivial) (.inl trivial) (fun _ => .inl trivial) ?_) hw hq
    exact fun new hnew => .inr ⟨new, hnew, rfl⟩
  | updateTemplate t => exact updateTemplate_tidy hs hw hq
  | cloneTemplate srcID newID =>
    refine (introducing_tidy (cloneTemplate_issues (.inl trivial) (.inl trivial) (fun _ => .inl trivial) ?_)
      hw hq).map fun _ _ h => h
    exact fun new hnew => .inr ⟨new, hnew, rfl⟩
  | deleteTemplate id force =>
    exact shrinking_tidy (deleteTemplate_issues (.inl trivial) (.inl trivial) (.inl trivial) (fun _ => .inl trivial)
      (.inr (.inr ⟨id, rfl⟩))) hw

/-- **Names stay apart.**  From a store without conflicts whose rows are those of configured hosts, a series of
calls that meet the condition leads to stores without conflicts only. -/
theorem names_stay_apart (hs : s.ReadsParameters) (hhosts : ∀ sp ∈ w.rows.list, (s.host sp.host).isSome = true)
    (hfree : w.ConflictFree s) (hseries : Series s a (fun w q => q.Sound s w) w w') : w'.ConflictFree s := by
  suffices h : w'.Tidy s from h.apart
  induction hseries with
  | nil => exact ⟨hhosts, hfree⟩
  | call _ q hq hrun ih => exact (request_tidy hs ih hq).post hrun

end Series

/-! ## Two series -/

def catalogHandler : Handler calls Catalog
  | w, .getTemplate id => (found .storeNotFound (w.templates id), w)
  | w, .putTemplate t => (.ok (), w.edited t)
  | w, .deleteTemplate id => (.ok (), { w with templates := update w.templates id none })
  | w, .getSpec h t sl => (found .storeNotFound (w.rows.get ⟨h, t, sl⟩), w)
  | w, .putSpec sp => (.ok (), { w with rows := w.rows.put sp })
  | w, .deleteSpec h t sl => (.ok (), { w with rows := w.rows.erase ⟨h, t, sl⟩ })
  | w, .listSpecKeys h => (.ok (w.rows.keys h), w)
  | w, .listSpecNetworks h => (.ok (w.rows.networks h), w)
  | w, op => (op.plain, w)

theorem catalogHandler_catalog {w' : Catalog} {op : Op} {r : op.Ans} (h : catalogHandler w op = (r, w')) :
    catalog w op r w' := by
  cases op with
  | getTemplate id =>
    cases h
    refine ⟨⟨fun t ht => found_eq_ok.1 ht, fun e he _ => ?_⟩, rfl⟩
    cases hstored : w.templates id with
    | none => rfl
    | some t => rw [hstored] at he; cases he
  | getSpec host tmpl slug =>
    cases h
    exact ⟨fun sp hsp => found_eq_ok.1 hsp, rfl⟩
  | listSpecKeys host | listSpecNetworks host =>
    cases h
    exact ⟨fun keys hkeys => (Except.ok.inj hkeys).symm, rfl⟩
  | _ =>
    cases h
    rfl

def served (q : CatalogCall) (w : Catalog) : Catalog :=
  ((q.prog exampleService plainAuthoring).eval catalogHandler w).2.2

theorem Series.served {C : Catalog → CatalogCall → Prop} {w₁ : Catalog}
    (h : Series exampleService plainAuthoring C w w₁) (q : CatalogCall) (hq : C w₁ q) :
    Series exampleService plainAuthoring C w (served q w₁) :=
  h.call q hq ((exec_eval catalogHandler _ w₁).mono fun _ _ _ _ h => catalogHandler_catalog h)

def twoInstances : Catalog where
  templates id := if id = "web" then some exampleTemplate else none
  rows := ⟨[exampleRow, { exampleRow with slug := "blog" }], by decide⟩

def sharedTemplate (id : String) : Template :=
  { exampleTemplate with metadata := { exampleTemplate.metadata with id := id, networks := [⟨"backend", ["db"]⟩] } }

theorem not_conflictFree (sp other : Spec) (net x : String) (xs ys : List String)
    (hsp : sp ∈ w.rows.list) (hother : other ∈ w.rows.list) (hhost : sp.host = other.host) (hid : sp.id ≠ other.id)
    (hmine : (w.claim exampleService sp).map (·.names net) = some xs)
    (htheirs : (w.claim exampleService other).map (·.names net) = some ys) (hx : x ∈ xs) (hy : x ∈ ys) :
    ¬w.ConflictFree exampleService := by
  intro h
  obtain ⟨c, hc, rfl⟩ := Option.map_eq_some_iff.1 hmine
  obtain ⟨d, hd, rfl⟩ := Option.map_eq_some_iff.1 htheirs
  exact h sp hsp other hother hhost hid c d hc hd net hx hy

theorem conflictFree_of_joins {s : Service} (h : ∀ sp ∈ w.rows.list, ∀ other ∈ w.rows.list, sp.id ≠ other.id →
      ((w.claim s sp).all (·.joins == []) || (w.claim s other).all (·.joins == [])) = true) : w.ConflictFree s := by
  intro sp hsp other hother _ hid c d hc hd net x hx hx'
  obtain ⟨j, hj, -⟩ := NetClaim.joins_of_names hx
  obtain ⟨j', hj', -⟩ := NetClaim.joins_of_names hx'
  have hempty := h sp hsp other hother hid
  simp only [hc, hd, Option.all_some, Bool.or_eq_true, beq_iff_eq] at hempty
  rcases hempty with hempty | hempty
  · rw [hempty] at hj
    cases hj
  · rw [hempty] at hj'
    cases hj'

/-- The template of the two instances is deleted by force and created again with an alias on a shared network:
both instances answer to the alias. -/
theorem recreated_template_conflicts :
    (∀ sp ∈ twoInstances.rows.list, (exampleService.host sp.host).isSome = true) ∧
      twoInstances.ConflictFree exampleService ∧
      ∃ w', Series exampleService plainAuthoring (fun _ _ => True) twoInstances w' ∧
        ¬w'.ConflictFree exampleService := by
  refine ⟨by decide, conflictFree_of_joins (by decide +kernel), served (.createTemplate (sharedTemplate "web"))
    (served (.deleteTemplate "web" true) twoInstances), ?_, ?_⟩
  · exact (Series.nil.served _ trivial).served _ trivial
  · apply not_conflictFree exampleRow { exampleRow with slug := "blog" } "backend" "db" ["web-shop", "db"]
      ["web-blog", "db"]
    all_goals decide +kernel

def databaseRequest : ApplyRequest :=
  ⟨"db", "main", [], [("token", "s3cret")], [], []⟩

theorem new_names_stay_apart : ∃ w', Series exampleService plainAuthoring (fun w q => q.Sound exampleService w)
    twoInstances w' ∧ w'.rows.list.length = 3 ∧ w'.ConflictFree exampleService := by
  have hseries : Series exampleService plainAuthoring (fun w q => q.Sound exampleService w) twoInstances
      (served (.apply "engine-1" databaseRequest { replace := true })
        (served (.createTemplate (sharedTemplate "db")) twoInstances)) := by
    refine Series.served (Series.nil.served _ ?_) _ ?_
    · show ∀ sp ∈ twoInstances.rows.list, sp.template ≠ "db"
      decide
    · unfold CatalogCall.Sound Catalog.Unsuperseded
      decide +kernel
  refine ⟨_, hseries, by decide +kernel, ?_⟩
  exact names_stay_apart (fun _ _ _ _ => rfl) (by decide) (conflictFree_of_joins (by decide +kernel)) hseries

end PodmanApi.Instance

/-
# PodmanApi.Instance.SpecReconcile — boot converge.

`ReconcileSpecsOnHost` and `reconcileOneSpec` of `internal/instance/spec_reconcile.go`: after a reboot the stored
rows of a host are played again, with the CURRENT template and the stored parameters; what the row records of
the last apply is kept. The injector is asked anew, and what it answers is appended to the injector secrets.

A rename of a volume that would leave its data behind is refused (`pendingRenames`). The warning about contended
DNS names only logs and is left out.
-/
import PodmanApi.Instance.Lifecycle

namespace PodmanApi.Instance

open GoStd Calls

/-! ## Renamed volumes -/

def commonFront : List UInt8 → List UInt8 → Nat
  | a :: as, b :: bs => if a = b then commonFront as bs + 1 else 0
  | _, _ => 0

/-- `commonAffix`, in bytes. -/
def commonAffix (a b : String) : Nat :=
  let a := a.toUTF8.toList
  let b := b.toUTF8.toList
  max (commonFront a b) (commonFront a.reverse b.reverse)

def plausibleRename (u : Unicode) (old new : String) : Bool :=
  let a := u.lower old
  let b := u.lower new
  if a = "" ∨ b = "" then false
  else (index a b).isSome || (index b a).isSome || decide (3 ≤ commonAffix a b)

/-- `pendingRenames`: the applied names that a replay could fork, and the other ones. -/
def pendingRenames (u : Unicode) (renamed targets : List String) : List String × List String :=
  if targets.isEmpty then ([], [])
  else
    let matched := renamed.filter fun r => targets.any (plausibleRename u r)
    let unmatched := renamed.filter fun r => !targets.any (plausibleRename u r)
    if targets.length > matched.length then (sortStrings renamed, [])
    else (sortStrings matched, sortStrings unmatched)

/-- One round of the scan for applied names that the template has dropped: those still on the host. -/
def stillThere (host tmpl slug : String) (renamed : List String) (short : String) : Task (List String) := do
  match ← ask (.volumeInspect host (volumeName tmpl slug short)) with
  | .ok _ => pure (renamed ++ [short])
  | .error _ => pure renamed

/-- One round of `renameTargets`: a declared name that is not there yet. -/
def notYetThere (host tmpl slug : String) (targets : List String) (short : String) : Task (List String) := do
  match ← ask (.volumeInspect host (volumeName tmpl slug short)) with
  | .ok _ => pure targets
  | .error e => if e.is .podmanNotFound then pure (targets ++ [short]) else pure targets

def renameTargets (host tmpl slug : String) (declared applied : List String) : Task (List String) := do
  let targets ← (declared.filter fun v => !applied.contains v).foldlM (notYetThere host tmpl slug) []
  pure (sortStrings targets)

/-- Step 3.5 of `reconcileOneSpec`; the ambiguous names are only logged. -/
def refuseRename (u : Unicode) (host tmpl slug : String) (declared applied : List String) : Task Unit := do
  let renamed ← (applied.filter fun v => !declared.contains v).foldlM (stillThere host tmpl slug) []
  if renamed.isEmpty then pure ()
  else do
    let targets ← renameTargets host tmpl slug declared applied
    let blocked := (pendingRenames u (sortStrings renamed) targets).1
    Act.require blocked.isEmpty (.wrap "" (.sentinel .volumeRenamePending) (": applied volume(s) " ++
      join blocked ", " ++ " no longer declared by template " ++ quote tmpl ++ " but still exist on " ++
      host ++ " (newly declared, not-yet-created volume(s) " ++ join targets ", " ++
      " look like the rename target)"))

/-! ## The replay -/

def dropQuietly (host name : String) : Task Unit := do
  match ← ask (.secretInspect host name) with
  | .ok _ => do
    let _ ← ask (.secretRemove host name)
    pure ()
  | .error _ => pure ()

def recreateSecret (c : Codec) (host word name key value : String) : Task PUnit := do
  dropQuietly host name
  Act.mapErr (fun e => .wrap ("create " ++ word ++ " " ++ quote name ++ ": ") e "")
    (Act.lift (issue (.secretCreate host name (wrapAsKubeSecret c name key value))))

def unreadableSpec (e : Error) : Error :=
  if e.is .specCorrupt then .wrap "spec corrupt (malformed): " e ""
  else if e.is .secretsUndecryptable || e.is .secretsNeedKey then
    .wrap "spec secrets unreadable (wrong/missing -spec-key-file): " e ""
  else .wrap "get spec: " e ""

namespace Service

variable (s : Service)

/-- The injector's pass of a replay: the manifest, and the injector secrets of the row with the new ones. -/
def reinject (host slug : String) (t : Template) (params : GoMap Value) (yaml : String)
    (known : List InjectorSecret) : Task (String × List InjectorSecret) :=
  if s.sidecar.isSome then do
    let inj ← Act.mapErr (fun e => .wrap "sidecar inject: " e "")
      (Act.lift (issue (.injectSidecars yaml t.metadata params host slug none)))
    pure (inj.yaml, known ++ inj.secrets)
  else pure (yaml, known)

/-- Steps 4 to 9 of `reconcileOneSpec`. A row that cannot be written back is logged only. -/
def replay (host tmpl slug : String) (t : Template) (spec : Spec) (podMissing : Bool) : Task Unit := do
  let params := Render.applyDefaults t.metadata spec.parameters
  Act.mapErr (fun e => .wrap "validate: " e "")
    (Act.lift (pure (Render.validate t.metadata params spec.secrets true)))
  let yaml ← Act.mapErr (fun e => .wrap "render: " e "") (Act.lift (pure (s.engine.render t.body params)))
  let (yaml, injectorSecrets) ← s.reinject host slug t params yaml spec.injectorSecrets
  forM spec.secrets fun p => recreateSecret s.codec host "secret" (instanceSecretName tmpl slug p.1)
    (instanceSecretName tmpl slug p.1) p.2
  forM injectorSecrets fun sec => recreateSecret s.codec host "injector secret"
    (instanceSecretName tmpl slug sec.name) sec.key sec.value
  let networks ← s.ensureNetworks host (metaWithNetworks t.metadata spec.appliedNetworks)
  Act.mapErr (fun e => .wrap "play kube: " e "")
    (Act.lift (issue (.playKube host yaml (!podMissing) networks)))
  let _ ← ask (.putSpec { spec with
    host := host, template := tmpl, slug := slug, injectorSecrets := injectorSecrets })
  pure ()

/-- Steps 2 and 3 of `reconcileOneSpec`, for a pod that is not running. -/
def converge (host tmpl slug : String) (podMissing : Bool) : Task Bool := do
  match ← ask (.getSpec host tmpl slug) with
  | .error e => if e.is .storeNotFound then pure false else throw (unreadableSpec e)
  | .ok spec =>
    match ← ask (.getTemplate tmpl) with
    | .error e =>
      throw (if e.is .storeNotFound then .sentinel .templateSkipped
        else .wrap ("get template " ++ quote tmpl ++ ": ") e "")
    | .ok t =>
      refuseRename s.unicode host tmpl slug (t.metadata.volumes.map (·.name)) (spec.appliedVolumes.getD [])
      s.replay host tmpl slug t spec podMissing
      pure true

/-- `reconcileOneSpec`: whether the pod was played again. -/
def reconcileOneSpec (host tmpl slug : String) : Task Bool :=
  withLock (instanceLock host tmpl slug) do
    match ← ask (.podInspect host (podName tmpl slug)) with
    | .ok pod => if pod.status == "Running" then pure false else s.converge host tmpl slug false
    | .error e =>
      if e.is .podmanNotFound then s.converge host tmpl slug true
      else throw (.wrap "inspect pod: " e "")

def reconcileNext (host : String) (reconverged : Bool) (k : SpecKey) : Task Bool := do
  match ← Act.attempt (s.reconcileOneSpec host k.template k.slug) with
  | .ok reconciled => pure (reconverged || reconciled)
  | .error _ => pure reconverged

def reconcileSpecsOnHost (host : String) : Task Unit := do
  match ← ask (.listSpecKeys host) with
  | .error _ => pure ()
  | .ok keys =>
    let reconverged ← keys.foldlM (s.reconcileNext host) false
    if reconverged && s.ingressEnabled then do
      let _ ← ask (.reconcile host)
      pure ()
    else pure ()

end Service

/-! ## Footprints -/

section Footprints

variable {s : Service} {host tmpl slug : String} {U : Op → Prop}

theorem refuseRename_issues {u : Unicode} {declared applied : List String}
    (h : ∀ name, U (.volumeInspect host name)) : (refuseRename u host tmpl slug declared applied).run.Issues U := by
  refine (issues_foldlM _ (fun renamed short _ => ?_) _).andThen fun renamed => ?_
  · refine (issues_ask (h _)).andThen fun r => ?_
    cases r <;> exact issues_pure
  split
  · exact issues_pure
  refine .andThen ?_ fun targets => issues_require
  refine (issues_foldlM _ (fun targets short _ => ?_) _).andThen fun _ => issues_pure
  refine (issues_ask (h _)).andThen fun r => ?_
  cases r with
  | ok v => exact issues_pure
  | error e =>
    dsimp only
    split <;> exact issues_ret _

theorem reinject_issues {t : Template} {params : GoMap Value} {yaml : String} {known : List InjectorSecret}
    (h : ∀ yaml m params intent, U (.injectSidecars yaml m params host slug intent)) :
    (s.reinject host slug t params yaml known).run.Issues U := by
  unfold Service.reinject
  split
  · exact .andThen (.mapErr (issues_perform.2 (h _ _ _ _))) fun _ => issues_pure
  · exact issues_pure

end Footprints

def Looking : Op → Prop
  | .lock _ | .unlock _ | .podInspect _ _ | .getSpec _ _ _ | .getTemplate _ => True
  | _ => False

theorem reconcileOneSpec_keeps {σ : Type} {S : Calls.Service calls σ} {G : σ → Op → Prop} {I : σ → Prop}
    {s : Service} {host tmpl slug : String} {P : Spec → Template → Prop}
    (hlook : ∀ x op, Looking op → I x → G x op ∧ ∀ r y, S x op r y → I y)
    (hread : ∀ x spec y t z, I x → S x (.getSpec host tmpl slug) (.ok spec) y → S y (.getTemplate tmpl) (.ok t) z →
      P spec t)
    (hreplay : ∀ spec t podMissing, P spec t → (do
      refuseRename s.unicode host tmpl slug (t.metadata.volumes.map (·.name)) (spec.appliedVolumes.getD [])
      s.replay host tmpl slug t spec podMissing
      pure true : Task Bool).run.Keeps S G I) :
    (s.reconcileOneSpec host tmpl slug).run.Keeps S G I := by
  have hconverge : ∀ podMissing, (s.converge host tmpl slug podMissing).run.Keeps S G I := by
    intro podMissing x hx
    obtain ⟨hG, hstep⟩ := hlook x (.getSpec host tmpl slug) trivial hx
    refine ensures_ask_bind hG fun r y hr => ?_
    have hy := hstep r y hr
    cases r with
    | error e =>
      dsimp only
      split
      · exact ensures_pure.2 hy
      · exact ensures_throw.2 hy
    | ok spec =>
      obtain ⟨hG, hstep⟩ := hlook y (.getTemplate tmpl) trivial hy
      refine ensures_ask_bind hG fun r z hr' => ?_
      have hz := hstep r z hr'
      cases r with
      | error e => exact ensures_throw.2 hz
      | ok t => exact hreplay spec t podMissing (hread x spec y t z hx hr hr') z hz
  intro x hx
  refine ensures_lock (hlook x (.lock _) trivial hx).1 fun y hy => ?_
  have hy := (hlook x (.lock _) trivial hx).2 _ y hy
  refine .imp (Q := fun z _ => I z) ?_ fun z _ hz => hlook z (.unlock _) trivial hz |>.imp_right fun h => h ()
  obtain ⟨hG, hstep⟩ := hlook y (.podInspect host (podName tmpl slug)) trivial hy
  refine ensures_ask_bind hG fun r z hr => ?_
  have hz := hstep r z hr
  cases r with
  | ok pod =>
    dsimp only
    split
    · exact ensures_pure.2 hz
    · exact hconverge false z hz
  | error e =>
    dsimp only
    split
    · exact hconverge true z hz
    · exact ensures_throw.2 hz

/-! ## Data that a replay would fork -/

theorem perm_sortStrings (l : List String) : (sortStrings l).Perm l :=
  List.perm_insertionSort _ l

@[simp]
theorem sortStrings_eq_nil {l : List String} : sortStrings l = [] ↔ l = [] := by
  rw [← List.perm_nil, ← List.perm_nil, (perm_sortStrings l).congr_left]

section Blocked

variable {u : Unicode} {renamed targets : List String}

theorem pendingRenames_blocked : (pendingRenames u renamed targets).1 ≠ [] ↔ renamed ≠ [] ∧ targets ≠ [] := by
  unfold pendingRenames
  by_cases htargets : targets = []
  · simp [htargets]
  dsimp only
  rw [if_neg (by simpa using htargets)]
  split
  · simp [htargets]
  · -- every target is claimed, so some name is matched
    rename_i hclaimed
    have hmatched : renamed.filter (fun r => targets.any (plausibleRename u r)) ≠ [] := by
      intro hnil
      rw [hnil] at hclaimed
      exact hclaimed (List.length_pos_of_ne_nil htargets)
    have hrenamed : renamed ≠ [] := by
      rintro rfl
      exact hmatched rfl
    exact ⟨fun _ => ⟨hrenamed, htargets⟩, fun _ h => hmatched (sortStrings_eq_nil.1 h)⟩

theorem pendingRenames_perm (htargets : targets ≠ []) :
    ((pendingRenames u renamed targets).1 ++ (pendingRenames u renamed targets).2).Perm renamed := by
  unfold pendingRenames
  dsimp only
  rw [if_neg (by simpa using htargets)]
  split
  · exact (List.append_nil _).symm ▸ perm_sortStrings renamed
  · exact ((perm_sortStrings _).append (perm_sortStrings _)).trans (List.filter_append_perm _ renamed)

end Blocked

/-- The store and the host as a pass over one row sees them: `present` are the host's volumes, and an inspect is
conclusive. Other calls may fail. -/
def surveyed (spec : Spec) (t : Template) (present : String → Prop) : Calls.Service calls Unit :=
  fun _ op r _ => match op, r with
    | .getSpec _ _ _, r => ∀ sp, r = .ok sp → sp = spec
    | .getTemplate _, r => ∀ t', r = .ok t' → t' = t
    | .volumeInspect _ name, r => (present name ∧ ∃ v, r = .ok v) ∨
        ¬present name ∧ ∃ e, r = .error e ∧ e.is .podmanNotFound = true
    | _, _ => True

def Unplayed (_ : Unit) : Op → Prop
  | .playKube _ _ _ _ => False
  | _ => True

section Guard

variable {s : Service} {host tmpl slug : String} {spec : Spec} {t : Template} {present : String → Prop}
  {declared applied : List String}

theorem scan_finds {P : String → Prop} {names : List String} {scan : List String → String → Task (List String)}
    (hscan : ∀ found name, Ensures (surveyed spec t present) Unplayed
      (OnOk fun _ found' => P name ∨ found ≠ [] → found' ≠ []) (scan found name).run ())
    (h : ∃ name ∈ names, P name) :
    Ensures (surveyed spec t present) Unplayed (OnOk fun _ found => found ≠ []) (names.foldlM scan []).run () := by
  refine ensures_foldlM (fun done found _ => (∃ name ∈ done, P name) → found ≠ []) names ?_ ?_ nofun
  · intro done name rest _ found _ hfound
    refine (hscan found name).imp fun _ r hr => ⟨fun found' hr' => ?_, nofun⟩
    rintro ⟨n, hn, hP⟩
    refine hr found' hr' ((List.mem_append.1 hn).symm.imp (fun hn => ?_) fun hn => hfound ⟨n, hn, hP⟩)
    rwa [← List.mem_singleton.1 hn]
  · intro found _ hfound found' hr
    obtain rfl := Except.ok.inj hr
    exact hfound h

theorem refuseRename_blocks (hold : ∃ v ∈ applied, v ∉ declared ∧ present (volumeName tmpl slug v))
    (hnew : ∃ v ∈ declared, v ∉ applied ∧ ¬present (volumeName tmpl slug v)) :
    Ensures (surveyed spec t present) Unplayed (OnOk fun _ _ => False)
      (refuseRename s.unicode host tmpl slug declared applied).run () := by
  obtain ⟨old, hold, hdropped, hthere⟩ := hold
  obtain ⟨new, hnew, hfresh, hmissing⟩ := hnew
  refine (scan_finds (P := fun v => present (volumeName tmpl slug v)) (fun found name => ?_)
    ⟨old, by simp [hold, hdropped], hthere⟩).thenOk fun _ renamed hrenamed => ?_
  · refine ensures_ask_bind trivial fun r _ hr => ?_
    rcases hr with ⟨-, v, rfl⟩ | ⟨hnot, e, rfl, -⟩
    · exact ensures_pure_onOk fun _ => by simp
    · exact ensures_pure_onOk fun h => h.resolve_left hnot
  rw [if_neg (by simpa using hrenamed)]
  refine Ensures.thenOk (P := fun _ targets => targets ≠ []) ?_ fun _ targets htargets => ?_
  · refine (scan_finds (P := fun v => ¬present (volumeName tmpl slug v)) (fun found name => ?_)
      ⟨new, by simp [hnew, hfresh], hmissing⟩).thenOk fun _ targets htargets => ?_
    · refine ensures_ask_bind trivial fun r _ hr => ?_
      rcases hr with ⟨hthere, v, rfl⟩ | ⟨-, e, rfl, he⟩
      · exact ensures_pure_onOk fun h => h.resolve_left fun hnot => hnot hthere
      · dsimp only
        rw [if_pos he]
        exact ensures_pure_onOk fun _ => by simp
    · exact ensures_pure_onOk fun h => htargets (sortStrings_eq_nil.1 h)
  · have hblocked := pendingRenames_blocked (u := s.unicode).2
      ⟨fun h => hrenamed (sortStrings_eq_nil.1 h), htargets⟩
    exact ensures_require_onOk fun h => hblocked (List.isEmpty_iff.1 h)

end Guard

/-- With conclusive inspects, a pass never plays the pod while an applied volume
that the template no longer declares is still on the host and a declared one that was never applied is not;
the names are blocked exactly when there are some and a target is missing, and both lists share them out. -/
theorem pending_rename_unplayed (s : Service) (host tmpl slug : String) (spec : Spec) (t : Template)
    (present : String → Prop) : ((∃ v ∈ spec.appliedVolumes.getD [], v ∉ t.metadata.volumes.map (·.name) ∧
        present (volumeName tmpl slug v)) →
      (∃ v ∈ t.metadata.volumes.map (·.name), v ∉ spec.appliedVolumes.getD [] ∧ ¬present (volumeName tmpl slug v)) →
      ∀ h q, Exec (surveyed spec t present) () (s.reconcileOneSpec host tmpl slug).run h () q →
        ∀ yaml replace networks, q.next ≠ some (.playKube host yaml replace networks)) ∧ ∀ renamed targets,
      ((pendingRenames s.unicode renamed targets).1 ≠ [] ↔ renamed ≠ [] ∧ targets ≠ []) ∧
      ((pendingRenames s.unicode renamed targets).1 ≠ [] → ((pendingRenames s.unicode renamed targets).1 ++
          (pendingRenames s.unicode renamed targets).2).Perm renamed) := by
  refine ⟨fun hold hnew h q hrun yaml replace networks hnext => ?_, fun renamed targets =>
    ⟨pendingRenames_blocked, fun hb => pendingRenames_perm (pendingRenames_blocked.1 hb).2⟩⟩
  suffices hunplayed : Ensures (surveyed spec t present) Unplayed (fun _ _ => True)
      (s.reconcileOneSpec host tmpl slug).run () from (hunplayed.exec hrun).next hnext
  refine reconcileOneSpec_keeps (I := fun _ => True) (P := fun sp t' => sp = spec ∧ t' = t) ?_ ?_ ?_ () trivial
  · intro _ op hop _
    cases op <;> first | exact ⟨trivial, fun _ _ _ => trivial⟩ | cases hop
  · exact fun _ sp _ t' _ _ hsp ht => ⟨hsp sp rfl, ht t' rfl⟩
  · rintro _ _ _ ⟨rfl, rfl⟩ _ -
    exact (refuseRename_blocks hold hnew).andThen (fun _ _ _ => trivial) fun _ _ h => (h _ rfl).elim

/-! ## The row after a pass -/

/-- The store and the injector as the passes over one row see them: the row is the state, `t` its template,
`answers` what the injector may answer. A failed write changes nothing. Every call may fail, and every other
answer is free. -/
def replaying (t : Template) (answers : SidecarInjection → Prop) : Calls.Service calls Spec :=
  fun sp op r sp' => match op, r with
    | .getSpec _ _ _, r => (∀ got, r = .ok got → got = sp) ∧ sp' = sp
    | .getTemplate _, r => (∀ got, r = .ok got → got = t) ∧ sp' = sp
    | .injectSidecars _ _ _ _ _ _, r => (∀ inj, r = .ok inj → answers inj) ∧ sp' = sp
    | .putSpec new, .ok _ => sp' = new
    | _, _ => sp' = sp

def Service.Pass (s : Service) (t : Template) (answers : SidecarInjection → Prop) (sp sp' : Spec) : Prop :=
  ∃ h r, Exec (replaying t answers) sp (s.reconcileOneSpec sp.host sp.template sp.slug).run h sp' (.ret r)

/-- A replay of the row comes to the injector. -/
def Service.Injects (s : Service) (t : Template) (sp : Spec) : Prop :=
  s.sidecar.isSome = true ∧
  Render.validate t.metadata (Render.applyDefaults t.metadata sp.parameters) sp.secrets true = .ok () ∧
  ∃ yaml, s.engine.render t.body (Render.applyDefaults t.metadata sp.parameters) = .ok yaml

def Unwriting : Op → Prop
  | .putSpec _ => False
  | _ => True

def bootAnswers (t : Template) (inj : SidecarInjection) (sp : Spec) : (op : Op) → op.Ans
  | .podInspect _ _ | .volumeInspect _ _ => .error (.sentinel .podmanNotFound)
  | .getSpec _ _ _ => .ok sp
  | .getTemplate _ => .ok t
  | .injectSidecars _ _ _ _ _ _ => .ok inj
  | .putSpec _ => .error (.sentinel .storeNotFound)
  | op => op.plain

section Row

variable {s : Service} {t : Template} {answers : SidecarInjection → Prop} {inj : SidecarInjection} {sp sp' : Spec}
  {α : Type} {p : Prog calls α}

theorem unwriting_keeps (hp : p.Issues Unwriting) : p.Keeps (replaying t answers) (fun _ _ => True) (· = sp) := by
  refine hp.keeps (fun y op r z hop hy hstep => ?_) fun _ _ _ _ => trivial
  cases op
  case putSpec => exact hop.elim
  case getSpec | getTemplate | injectSidecars => exact hstep.2.trans hy
  all_goals exact Eq.trans hstep hy

theorem keepingRow {β : Type} {x : Task α} {f : α → Task β} {F : α → Prop}
    (hkeeps : x.run.Issues Unwriting) (hx : Ends (replaying t answers) (OnOk fun _ => F) x.run sp)
    (hf : ∀ a, F a → Ends (replaying t answers) (fun y _ => y = sp) (f a).run sp) :
    Ends (replaying t answers) (fun y _ => y = sp) (x >>= f).run sp :=
  ((unwriting_keeps hkeeps sp rfl).and hx).andThen (fun _ _ h => h.1) fun _ a h => h.1 ▸ hf a (h.2 a rfl)

theorem reinject_adds {params : GoMap Value} {yaml : String} :
    Ends (replaying t answers) (OnOk fun _ out => out.2 = sp.injectorSecrets ∨
      s.sidecar.isSome = true ∧ ∃ inj, answers inj ∧ out.2 = sp.injectorSecrets ++ inj.secrets)
      (s.reinject sp.host sp.slug t params yaml sp.injectorSecrets).run sp := by
  unfold Service.reinject
  split
  · rename_i hsidecar
    refine Ensures.thenOk (P := fun _ inj => answers inj) (.mapErr_onOk ?_) fun y inj hinj => ?_
    · exact ensures_issue (Op.injectSidecars ..) trivial fun _ _ hr => hr.1
    · exact ensures_pure_onOk (.inr ⟨hsidecar, inj, hinj, rfl⟩)
  · exact ensures_pure_onOk (.inl rfl)

/-- A replay writes back the row it has read where the injector has nothing to add. -/
theorem replay_keeps_row {podMissing : Bool} (hnone : s.Injects t sp → ∀ inj, answers inj → inj.secrets = []) :
    Ends (replaying t answers) (fun y _ => y = sp)
      (s.replay sp.host sp.template sp.slug t sp podMissing).run sp := by
  have hsecret : ∀ word name key value,
      (recreateSecret s.codec sp.host word name key value).run.Issues Unwriting := by
    intro word name key value
    refine Prog.Issues.andThen ?_ fun _ => .mapErr (issues_perform.2 trivial)
    exact (issues_ask trivial).cases (fun _ => (issues_ask trivial).andThen fun _ => issues_pure) fun _ => issues_pure
  refine keepingRow issues_lift_pure.mapErr (.mapErr_onOk (ensures_ret.2 fun _ h => h)) fun _ hvalid => ?_
  refine keepingRow issues_lift_pure.mapErr (.mapErr_onOk (ensures_ret.2 fun _ h => h)) fun yaml hyaml => ?_
  refine keepingRow (reinject_issues fun _ _ _ _ => trivial) reinject_adds fun out hout => ?_
  have hsame : out.2 = sp.injectorSecrets := by
    rcases hout with h | ⟨hsidecar, inj, hinj, h⟩
    · exact h
    · rw [h, hnone ⟨hsidecar, hvalid, yaml, hyaml⟩ inj hinj, List.append_nil]
  refine Prog.Keeps.andThen (I := (· = sp)) (unwriting_keeps (issues_forM _ fun _ _ => hsecret _ _ _ _))
    (fun _ => ?_) sp rfl
  refine (unwriting_keeps (issues_forM _ fun _ _ => hsecret _ _ _ _)).andThen fun _ => ?_
  refine (unwriting_keeps (ensureNetworks_issues _ fun _ => trivial)).andThen fun networks => ?_
  refine (unwriting_keeps (.mapErr (issues_perform.2 trivial))).andThen fun _ y hy => ?_
  refine ensures_ask_bind trivial fun r z hz => ?_
  cases r with
  | ok _ => exact ensures_pure.2 (hz.trans (by rw [hsame]))
  | error e => exact ensures_pure.2 (hz.trans hy)

theorem reconcileOneSpec_keeps_row (hnone : s.Injects t sp → ∀ inj, answers inj → inj.secrets = []) :
    Ends (replaying t answers) (fun y _ => y = sp) (s.reconcileOneSpec sp.host sp.template sp.slug).run sp := by
  refine reconcileOneSpec_keeps (I := (· = sp)) (P := fun row t' => row = sp ∧ t' = t) ?_ ?_ ?_ sp rfl
  · intro x op hop hx
    refine ⟨trivial, fun r y h => ?_⟩
    cases op
    case getSpec | getTemplate => exact h.2.trans hx
    case lock | unlock | podInspect => exact Eq.trans h hx
    all_goals cases hop
  · rintro _ row y t' z rfl hrow ht
    exact ⟨hrow.1 row rfl, ht.1 t' rfl⟩
  · rintro _ _ podMissing ⟨rfl, rfl⟩ _ rfl
    refine (unwriting_keeps (refuseRename_issues fun _ => trivial) _ rfl).andThen (fun _ _ h => h) fun _ _ h => ?_
    subst h
    exact (replay_keeps_row hnone).andThen (fun _ _ h => h) fun _ _ h => ensures_pure.2 h

theorem pass_appends (inj : SidecarInjection) (hinjects : s.Injects t sp) (hinj : answers inj) :
    s.Pass t answers sp { sp with injectorSecrets := sp.injectorSecrets ++ inj.secrets } := by
  obtain ⟨hsidecar, hvalid, yaml, hyaml⟩ := hinjects
  have hstill : ∀ row op, replaying t answers row op (bootAnswers t inj row op) row := by
    intro row op
    cases op
    case getSpec | getTemplate => exact ⟨fun got h => (Except.ok.inj h).symm, rfl⟩
    case injectSidecars => exact ⟨fun got h => Except.ok.inj h ▸ hinj, rfl⟩
    all_goals rfl
  have hasked : .putSpec { sp with injectorSecrets := sp.injectorSecrets ++ inj.secrets } ∈
      (s.reconcileOneSpec sp.host sp.template sp.slug).run.asked (bootAnswers t inj sp) := by
    refine withLock_asked (Act.asked_right (a := Except.error (.sentinel .podmanNotFound)) rfl ?_)
    show _ ∈ (s.converge sp.host sp.template sp.slug true).run.asked _
    refine Act.asked_right (a := Except.ok sp) rfl (Act.asked_right (a := Except.ok t) rfl ?_)
    refine Act.asked_right (a := ()) ?_ (Act.asked_left ?_)
    · refine Act.given_bind_ok.2 ⟨[], ?_, rfl⟩
      refine (Act.given_foldlM_ok (f := fun renamed _ => renamed) _ fun _ _ _ => rfl).trans ?_
      rw [List.foldl_fixed]
    refine Act.asked_right (a := ()) ?_ (Act.asked_right (a := yaml) ?_ ?_)
    · rw [hvalid]; rfl
    · rw [hyaml]; rfl
    refine Act.asked_right (a := (inj.yaml, sp.injectorSecrets ++ inj.secrets)) ?_ ?_
    · unfold Service.reinject
      rw [if_pos hsidecar]
      rfl
    refine Act.asked_right (a := ⟨⟩) ?_ (Act.asked_right (a := ⟨⟩) ?_ ?_)
    · exact (Act.given_forM_ok _).2 fun _ _ => rfl
    · exact (Act.given_forM_ok _).2 fun _ _ => rfl
    refine Act.asked_right (Act.given_foldlM_ok (f := fun out j => out ++ [networkArg j]) _ fun _ _ _ => rfl) ?_
    exact Act.asked_right (a := ()) rfl (Act.asked_left Act.mem_asked_ask)
  obtain ⟨h, q, hrun, hnext⟩ := Prog.exec_of_asked (hstill sp) hasked
  cases q with
  | ret r => cases hnext
  | call op k =>
    obtain rfl := Option.some.inj hnext
    -- the write succeeds, and what is left of the pass leaves the row
    obtain ⟨h', hrest⟩ := Prog.exec_still (hstill { sp with injectorSecrets := sp.injectorSecrets ++ inj.secrets })
      (k (Except.ok ()))
    exact ⟨_, _, hrun.trans (.step (show replaying _ _ _ _ (Except.ok ()) _ from rfl) hrest)⟩

end Row

/-- Any number of passes leave the row as it is, exactly when no replay of it comes to
the injector, or the injector never answers with a secret. -/
theorem passes_keep_row_iff (s : Service) (t : Template) (answers : SidecarInjection → Prop) (sp : Spec) :
    (∀ sp', Relation.ReflTransGen (s.Pass t answers) sp sp' → sp' = sp) ↔
      (s.Injects t sp → ∀ inj, answers inj → inj.secrets = []) := by
  constructor
  · intro hkeeps hinjects inj hinj
    have hsame := congrArg Spec.injectorSecrets (hkeeps _ (.single (pass_appends inj hinjects hinj)))
    exact List.append_right_eq_self.1 hsame
  · intro hnone sp' hpasses
    induction hpasses with
    | refl => rfl
    | tail _ hpass ih =>
      subst ih
      obtain ⟨h, r, hrun⟩ := hpass
      exact (reconcileOneSpec_keeps_row hnone).post hrun

def proxyInjection : SidecarInjection :=
  ⟨"kind: Pod", [⟨"proxy", "token", "t0"⟩]⟩

/-- After two boots the row lists the injector's secret twice. -/
theorem row_grows_at_boot : Relation.ReflTransGen
      (Service.Pass { exampleService with sidecar := some true } exampleTemplate (· = proxyInjection))
      exampleRow { exampleRow with injectorSecrets := proxyInjection.secrets ++ proxyInjection.secrets } := by
  refine .tail (.single (pass_appends proxyInjection ⟨rfl, ?_, _, rfl⟩ rfl))
    (pass_appends proxyInjection ⟨rfl, ?_, _, rfl⟩ rfl)
  · decide +kernel
  · decide +kernel

/-! ## Every row gets its turn -/

/-- The pods that have been inspected, on a host with these rows. -/
def inspecting (keys : List SpecKey) : Calls.Service calls (List String) :=
  fun pods op r pods' => match op, r with
    | .listSpecKeys _, r => r = .ok keys ∧ pods' = pods
    | .podInspect _ name, _ => pods' = name :: pods
    | _, _ => pods' = pods

def Inspected (keys : List SpecKey) (pods : List String) : Prop :=
  ∀ k ∈ keys, podName k.template k.slug ∈ pods

/-- A boot pass comes to every row of its host, whatever happens to the others. -/
theorem boot_inspects_all (s : Service) (host : String) (keys : List SpecKey) :
    Ends (inspecting keys) (fun pods _ => Inspected keys pods) (s.reconcileSpecsOnHost host).run [] := by
  have hkeeps : ∀ {α} (p : Prog calls α) pods, Ends (inspecting keys) (fun pods' _ => pods ⊆ pods') p pods := by
    refine fun p pods => (issues_true p).ensures (fun _ op r _ _ hpods h => ?_) (fun _ _ _ _ => trivial) (.refl _)
    unfold inspecting at h
    split at h <;> grind
  refine ensures_ask_bind trivial fun r pods hr => ?_
  obtain ⟨rfl, rfl⟩ := hr
  refine .andThen (P := fun pods _ => Inspected keys pods) ?_ (fun _ _ h => h) fun pods _ h =>
    (hkeeps _ pods).imp fun _ _ hpods k hk => hpods (h k hk)
  refine ensures_foldlM (fun done _ pods => Inspected done pods) keys ?_ (fun _ _ h => h) nofun
  intro done k rest _ reconverged pods hdone
  refine .attemptThen (P := fun pods' _ => podName k.template k.slug :: pods ⊆ pods')
    (ensures_lock trivial fun _ hlock => ?_) fun pods' r hpods => ?_
  · obtain rfl := hlock
    refine ensures_ask_bind trivial fun r _ hr => ?_
    obtain rfl := hr
    refine (hkeeps _ _).imp fun pods' r hpods => ⟨trivial, fun _ hunlock => ?_⟩
    obtain rfl := hunlock
    exact hpods
  · have hall : Inspected (done ++ [k]) pods' := by grind [Inspected]
    cases r <;> exact ensures_pure.2 ⟨fun _ _ => hall, nofun⟩

end PodmanApi.Instance

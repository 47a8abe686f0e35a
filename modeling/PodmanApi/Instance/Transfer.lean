/-
# PodmanApi.Instance.Transfer — where the volumes of a moved instance end up.

A migrate and a rename copy the volumes that the *current* template declares. After an edit of the template, a
volume that is applied but no longer declared is not copied. What is copied is unpacked over whatever its
destination already holds.
-/
import Mathlib.Logic.Function.Basic
import PodmanApi.Instance.Migrate
import PodmanApi.Instance.Rename

namespace PodmanApi.Instance

open GoStd Calls
open Function (update update_self update_of_ne)

/-! ## Contents -/

structure Place where
  host : String
  name : String
  deriving DecidableEq, Repr

/-- The volumes that exist, each with its content as an export returns it. -/
abbrev Contents : Type := Place → Option Bytes

/-- How a tar is unpacked over the content of a volume. -/
structure Archive where
  empty : Bytes
  unpack : Bytes → Bytes → Bytes
  unpack_empty : ∀ c, unpack empty c = c
  unpack_again : ∀ d c, unpack (unpack d c) c = unpack d c

section Carry

variable {A : Archive} {src dst : String → Place} {V : Contents}

/-- The content of one short name unpacked over its destination. -/
def carry (A : Archive) (src dst : String → Place) (V : Contents) (short : String) : Contents :=
  update V (dst short) ((V (src short)).map (A.unpack ((V (dst short)).getD A.empty)))

theorem carry_foldl_of_ne {l : Place} (shorts : List String) (h : ∀ v ∈ shorts, l ≠ dst v) :
    shorts.foldl (carry A src dst) V l = V l := by
  induction shorts generalizing V with
  | nil => rfl
  | cons v rest ih =>
    rw [List.foldl_cons, ih fun w hw => h w (List.mem_cons_of_mem _ hw)]
    exact update_of_ne (h v List.mem_cons_self) _ _

/-- Copies whose destinations are no sources bring each source over its destination. A short name may
be copied more than once. -/
theorem carry_foldl_of_mem {v : String} (hdst : Function.Injective dst) (shorts : List String)
    (hapart : ∀ w ∈ shorts, dst w ≠ src v) (hv : v ∈ shorts) : shorts.foldl (carry A src dst) V (dst v) =
      (V (src v)).map (A.unpack ((V (dst v)).getD A.empty)) := by
  induction shorts generalizing V with
  | nil => cases hv
  | cons w rest ih =>
    have hrest : ∀ u ∈ rest, dst u ≠ src v := fun u hu => hapart u (List.mem_cons_of_mem _ hu)
    have hsrc : carry A src dst V w (src v) = V (src v) :=
      update_of_ne (hapart w List.mem_cons_self).symm _ _
    rw [List.foldl_cons]
    by_cases hmem : v ∈ rest
    · rw [ih hrest hmem, hsrc]
      by_cases hwv : w = v
      · -- the second copy of one name unpacks the same tar again
        subst hwv
        have hdstw : carry A src dst V w (dst w) =
            (V (src w)).map (A.unpack ((V (dst w)).getD A.empty)) := update_self _ _ _
        rw [hdstw]
        cases V (src w) with
        | none => rfl
        | some c => exact congrArg some (A.unpack_again _ c)
      · have hdstv : carry A src dst V w (dst v) = V (dst v) :=
          update_of_ne (fun h => hwv (hdst h).symm) _ _
        rw [hdstv]
    · obtain rfl : v = w := (List.mem_cons.1 hv).resolve_right hmem
      rw [carry_foldl_of_ne rest fun u hu h => hmem (by rwa [hdst h])]
      exact update_self _ _ _

end Carry

/-! ## The world of a transfer -/

/-- An instance about to be moved: its template, its row, and the place each short name of a volume has
before and after. -/
structure Transfer where
  id : SpecId
  template : Template
  row : Spec
  src : String → Place
  dst : String → Place

namespace Transfer

variable (m : Transfer)

def declared : List String :=
  m.template.metadata.volumes.map (·.name)

def applied : List String :=
  m.row.appliedVolumes.getD []

/-- What is there once the declared volumes that exist have been copied. -/
def copied (A : Archive) (V : Contents) : Contents :=
  (m.declared.filter fun short => (V (m.src short)).isSome).foldl (carry A m.src m.dst) V

/-- The places where no claim is created: those with a volume, and those no declaration names. -/
def Unclaimed (V : Contents) (l : Place) : Prop :=
  (V l).isSome = true ∨ ∀ short ∈ m.declared, l ≠ m.dst short

/-- No destination of a volume is the old place of a declared volume or of a secret. -/
def Apart : Prop :=
  ∀ a ∈ m.declared ++ m.applied, ∀ b ∈ m.declared ++
    (m.template.metadata.perInstance ++ m.row.injectorSecrets.map (·.name)), m.dst a ≠ m.src b

def ofMigrate (req : MigrateRequest) (t : Template) (row : Spec) : Transfer where
  id := ⟨req.fromHost, req.template, req.slug⟩
  template := t
  row := row
  src short := ⟨req.fromHost, volumeName req.template req.slug short⟩
  dst short := ⟨req.toHost, volumeName req.template req.slug short⟩

def ofRename (host tmpl slug newSlug : String) (t : Template) (row : Spec) : Transfer where
  id := ⟨host, tmpl, slug⟩
  template := t
  row := row
  src short := ⟨host, volumeName tmpl slug short⟩
  dst short := ⟨host, volumeName tmpl newSlug short⟩

end Transfer

/-- Podman and the store during a move. The store answers with the one template and row, or fails. Creating a
volume keeps one that exists, an import unpacks into it, a removal that failed may have happened, and playing a
manifest creates claims of declared volumes that do not exist. Nothing else writes to a volume. -/
def transferring (A : Archive) (m : Transfer) : Calls.Service calls Contents
  | V, .getTemplate id, r, V' => V' = V ∧ (id = m.id.template → ∀ t, r = .ok t → t = m.template)
  | V, .getSpec host tmpl slug, r, V' =>
    V' = V ∧ (⟨host, tmpl, slug⟩ = m.id → ∀ row, r = .ok row → row = m.row)
  | V, .volumeInspect host name, r, V' =>
    V' = V ∧ (∀ v, r = .ok v → v.name = name ∧ (V ⟨host, name⟩).isSome = true) ∧
      ∀ e, r = .error e → e.is .podmanNotFound = true → V ⟨host, name⟩ = none
  | V, .volumeCreate host name, r, V' =>
    (∀ l, l ≠ ⟨host, name⟩ → V' l = V l) ∧
      (r = .ok () → V' ⟨host, name⟩ = some ((V ⟨host, name⟩).getD A.empty))
  | V, .volumeImport host name c, r, V' =>
    (∀ l, l ≠ ⟨host, name⟩ → V' l = V l) ∧
      (r = .ok () → V' ⟨host, name⟩ = some (A.unpack ((V ⟨host, name⟩).getD A.empty) c))
  | V, .volumeExport host name, r, V' => V' = V ∧ ∀ c, r = .ok c → V ⟨host, name⟩ = some c
  | V, .volumeRemove host name _, r, V' =>
    (∀ l, l ≠ ⟨host, name⟩ → V' l = V l) ∧ (r = .ok () → V' ⟨host, name⟩ = none)
  | V, .playKube _ _ _ _, _, V' =>
    ∀ l, V' l = V l ∨ V l = none ∧ ∃ short ∈ m.declared, l = m.dst short
  | V, _, _, V' => V' = V

def Agree (K : Place → Prop) (V V' : Contents) : Prop :=
  ∀ l, K l → V' l = V l

def Clear (K : Place → Prop) : Op → Prop
  | .volumeCreate host name | .volumeRemove host name _ | .volumeImport host name _ =>
    ¬K ⟨host, name⟩
  | .playKube _ _ _ _ => False
  | _ => True

def Resting : Op → Prop
  | .volumeCreate _ _ | .volumeRemove _ _ _ | .volumeImport _ _ _ | .playKube _ _ _ _ => False
  | _ => True

variable {host tmpl slug : String} {t : Template} {op : Op} {r : op.Ans}

section Effects

variable {A : Archive} {m : Transfer} {V V' W : Contents} {K : Place → Prop}

theorem Agree.trans (h : Agree K V V') (h' : Agree K V' W) : Agree K V W :=
  fun l hl => (h' l hl).trans (h l hl)

theorem transferring_resting (hop : Resting op) (h : transferring A m V op r V') : V' = V := by
  cases op
  case volumeCreate | volumeRemove | volumeImport | playKube => exact hop.elim
  case getTemplate | getSpec | volumeInspect | volumeExport => exact h.1
  all_goals exact h

theorem transferring_agree (hop : Clear K op) (h : transferring A m V op r V') : Agree K V V' := by
  have houtside : ∀ p : Place, ¬K p → (∀ l, l ≠ p → V' l = V l) → Agree K V V' :=
    fun p hp hV l hl => hV l fun heq => hp (heq ▸ hl)
  have hresting : Resting op → Agree K V V' := fun hs l _ => congrFun (transferring_resting hs h) l
  cases op
  case playKube => exact hop.elim
  case volumeCreate | volumeRemove | volumeImport => exact houtside _ hop h.1
  all_goals exact hresting trivial

variable {α : Type} {x : Task α}

theorem resting_ensures {p : Prog calls α} (hp : p.Issues Resting) :
    Ends (transferring A m) (fun V' _ => V' = V) p V :=
  hp.ensures (fun _ _ _ _ hop hV h => (transferring_resting hop h).trans hV) (fun _ _ _ _ => trivial) rfl

theorem resting_onOk (hx : x.run.Issues Resting) : Ends (transferring A m) (OnOk fun V' _ => V' = V) x.run V :=
  (resting_ensures hx).imp fun _ _ h _ _ => h

theorem withLock_onOk {mu : Mutex} {Q : Contents → α → Prop} (hx : Ends (transferring A m) (OnOk Q) x.run V) :
    Ends (transferring A m) (OnOk Q) (withLock mu x).run V := by
  refine ensures_lock trivial fun V' hV' => ?_
  obtain rfl : V' = V := hV'
  refine hx.imp fun W r hr => ⟨trivial, fun W' hW' => ?_⟩
  obtain rfl : W' = W := hW'
  exact hr

end Effects

/-! ## What the steps leave -/

theorem Checking.resting (h : Checking op) : Resting op := by
  cases h <;> trivial

theorem Stopping.resting (h : Stopping host tmpl slug op) : Resting op := by
  cases h <;> trivial

theorem Waiting.resting {name : String} (h : Waiting host name op) : Resting op := by
  cases h <;> trivial

theorem Starting.resting (h : Starting host tmpl slug op) : Resting op := by
  cases h with
  | waiting h => exact h.resting
  | reading h => cases h <;> trivial
  | lock | podStart | unlock => trivial

section Steps

variable {A : Archive} {m : Transfer} {V W : Contents} {s : Service} {host tmpl slug : String}

theorem lookup_transfers (htmpl : tmpl = m.id.template) :
    Ends (transferring A m) (OnOk fun V' t => V' = V ∧ t = m.template) (s.lookup host tmpl).run V :=
  ensures_lookup_onOk trivial fun _ t _ hr => ⟨hr.1, hr.2 htmpl t rfl⟩

theorem instanceVolumes_lists (htmpl : tmpl = m.id.template)
    (hsrc : ∀ short, m.src short = ⟨host, volumeName tmpl slug short⟩) : Ends (transferring A m)
      (OnOk fun V' vols => V' = V ∧ vols.map (·.name) =
        (m.declared.filter fun short => (V (m.src short)).isSome).map (volumeName tmpl slug))
      (s.instanceVolumes host tmpl slug).run V := by
  refine (lookup_transfers htmpl).thenOk fun V' t ht => ?_
  obtain ⟨rfl, rfl⟩ := ht
  refine ensures_foldlM (fun done out W => W = V' ∧ out.map (·.name) =
    ((done.map (·.name)).filter fun short => (V' (m.src short)).isSome).map (volumeName tmpl slug))
    m.template.metadata.volumes ?_ (fun out W h => onOk_ok.2 h) ⟨rfl, rfl⟩
  rintro done v rest - out W ⟨rfl, hout⟩
  refine ensures_ask_bind trivial fun r W' hr => ?_
  obtain ⟨rfl, hok, herr⟩ := hr
  rw [List.map_append, List.filter_append, List.map_append, ← hout]
  cases r with
  | ok vv =>
    obtain ⟨hname, hsome⟩ := hok vv rfl
    refine ensures_pure_step ⟨rfl, ?_⟩
    simp [hsrc, hsome, hname]
  | error e =>
    dsimp only
    split
    · rename_i hgone
      refine ensures_pure_step ⟨rfl, ?_⟩
      simp [hsrc, herr e rfl hgone]
    · exact ensures_throw.2 ⟨fun _ h => (by cases h), fun _ _ => onOk_error _⟩

theorem copy_carries {fromHost toHost fromName toName label short : String} {f g : Error → Error}
    {verify : Manifest → Task Unit} (hsrc : m.src short = ⟨fromHost, fromName⟩)
    (hdst : m.dst short = ⟨toHost, toName⟩) (hne : m.dst short ≠ m.src short)
    (hverify : ∀ src, (verify src).run.Issues Resting) :
    Ends (transferring A m) (OnOk fun V' _ => V' = carry A m.src m.dst V short) (do
        Act.mapErr f (Act.lift (issue (.volumeCreate toHost toName)))
        let src ← Act.mapErr g (s.copyStream fromHost toHost fromName toName label)
        verify src : Task Unit).run V := by
  refine .thenOk (P := fun V' _ => V' = update V (m.dst short)
    (some ((V (m.dst short)).getD A.empty))) (.mapErr_onOk ?_) fun V₁ _ hV₁ => ?_
  · refine ensures_issue (Op.volumeCreate toHost toName) trivial fun r V' hr u hu => ?_
    rw [hdst]
    exact Function.eq_update_iff.2 ⟨hr.2 hu, hr.1⟩
  refine .thenOk (P := fun V' _ => V' = carry A m.src m.dst V short) (.mapErr_onOk ?_)
    fun V₂ src hV₂ => hV₂ ▸ resting_onOk (hverify src)
  have hsource : V₁ (m.src short) = V (m.src short) := by
    rw [hV₁]
    exact update_of_ne hne.symm _ _
  have htarget : (V₁ (m.dst short)).getD A.empty = (V (m.dst short)).getD A.empty := by
    rw [hV₁, update_self]
    rfl
  refine .thenOk (P := fun V' c => V' = V₁ ∧ V (m.src short) = some c)
    (.mapErr_onOk ?_) fun V₂ content hexport => ?_
  · refine ensures_issue (Op.volumeExport fromHost fromName) trivial fun r V' hr c hc => ⟨hr.1, ?_⟩
    rw [← hsource, hsrc]
    exact hr.2 c hc
  obtain ⟨rfl, hcontent⟩ := hexport
  refine .thenOk (P := fun V' _ => V' = carry A m.src m.dst V short) (.mapErr_onOk ?_)
    fun V₃ _ hV₃ => hV₃ ▸ resting_onOk (.mapErr (issues_ret _))
  refine ensures_issue (Op.volumeImport toHost toName content) trivial fun r V' hr u hu => ?_
  unfold carry
  rw [hcontent]
  refine Function.eq_update_iff.2 ⟨?_, fun l hl => ?_⟩
  · rw [hdst, hr.2 hu, ← hdst, htarget]
    rfl
  · rw [hr.1 l (hdst ▸ hl), hV₁]
    exact update_of_ne hl _ _

theorem copies_carry {body : HostVolume → Task PUnit} {full : String → String} (shorts : List String)
    (hbody : ∀ v short, short ∈ shorts → v.name = full short → ∀ V, Ends (transferring A m)
        (OnOk fun V' _ => V' = carry A m.src m.dst V short) (body v).run V)
    {vols : List HostVolume} (hvols : vols.map (·.name) = shorts.map full) : Ends (transferring A m)
      (OnOk fun V' _ => V' = shorts.foldl (carry A m.src m.dst) V) (forM vols body).run V := by
  induction shorts generalizing vols V with
  | nil =>
    obtain rfl := List.map_eq_nil_iff.1 hvols
    exact ensures_pure_onOk rfl
  | cons short rest ih =>
    cases vols with
    | nil => cases hvols
    | cons v vols =>
      obtain ⟨hname, hrest⟩ := List.cons.inj hvols
      refine (hbody v short List.mem_cons_self hname V).thenOk fun V' _ hV' => ?_
      rw [List.foldl_cons, ← hV']
      exact ih (fun w u hu => hbody w u (List.mem_cons_of_mem _ hu)) hrest

theorem apply_agrees {req : ApplyRequest} {opts : ApplyOptions} : Ends (transferring A m)
      (OnOk fun V' _ => Agree (m.Unclaimed V) V V')
      (Act.lift (s.apply host req opts >>= fun out => pure out.1) : Task Unit).run V := by
  refine .imp (ensures_bind.2 ?_) fun _ _ h _ _ => h
  refine .imp (Prog.Issues.ensures (I := Agree _ V) apply_issues ?_ (fun _ _ _ _ => trivial)
    fun _ _ => rfl) fun _ _ h => ensures_ret.2 h
  intro W op r W' hop hW h
  have hresting : Resting op → Agree (m.Unclaimed V) V W' := fun hs => transferring_resting hs h ▸ hW
  cases hop with
  | checking hc => exact hresting hc.resting
  | lock | unlock => exact hresting trivial
  | committing hc =>
    cases hc with
    | playKube yaml replace networks =>
      intro l hl
      obtain hsame | ⟨hnone, short, hmem, hdst⟩ := h l
      · exact hsame.trans (hW l hl)
      · -- a place that held a volume, or that no claim names, is not created
        rw [hW l hl] at hnone
        cases hl with
        | inl hsome => rw [hnone] at hsome; cases hsome
        | inr hother => exact absurd hdst (hother short hmem)
    | pushing hp => cases hp <;> exact hresting trivial
    | networkEnsure | rlock | getTemplate | putSpec | runlock | reconcile => exact hresting trivial

theorem delete_agrees {K : Place → Prop} {opts : DeleteOptions} (hid : m.id = ⟨host, tmpl, slug⟩)
    (hvolumes : ∀ short ∈ m.declared, ¬K ⟨host, volumeName tmpl slug short⟩)
    (hsecrets : ∀ name ∈ m.template.metadata.perInstance ++ m.row.injectorSecrets.map (·.name),
      ¬K ⟨host, instanceSecretName tmpl slug name⟩) (hW : Agree K W V) :
    Ends (transferring A m) (OnOk fun V' _ => Agree K W V') (s.delete host tmpl slug opts).run V := by
  refine Ensures.mono (Ensures.invariant (U := Clear K) (I := Agree K W) (Q := OnOk fun _ _ => True) ?_
    (fun _ _ _ _ hop hV h => hV.trans (transferring_agree hop h)) hW) (fun _ _ _ => trivial) fun _ _ h _ _ => h
  refine delete_draws (N := (· ∈ m.template.metadata.perInstance ++ m.row.injectorSecrets.map (·.name)))
    (V := (· ∈ m.declared)) trivial trivial trivial trivial trivial trivial trivial (fun _ t _ hr => ?_)
    (fun _ row _ hr i hi => ?_) (fun _ n hn => ⟨trivial, hsecrets n hn⟩) fun _ v hv => hvolumes v hv
  · obtain rfl := hr.2 (by rw [hid]) t rfl
    exact ⟨fun v hv => List.mem_map_of_mem hv, fun n hn => List.mem_append_left _ hn⟩
  · obtain rfl := hr.2 hid.symm row rfl
    exact List.mem_append_right _ (List.mem_map_of_mem hi)

end Steps

/-! ## The moves -/

/-- What a successful move leaves: each declared volume that existed is unpacked over its destination, and that of
an applied volume that is not declared is as it was. -/
structure Settled (A : Archive) (m : Transfer) (V V' : Contents) : Prop where
  declared : ∀ short ∈ m.declared, ∀ c, V (m.src short) = some c →
    V' (m.dst short) = some (A.unpack ((V (m.dst short)).getD A.empty) c)
  undeclared : ∀ short ∈ m.applied, short ∉ m.declared → V' (m.dst short) = V (m.dst short)

section Moves

variable {A : Archive} {m : Transfer} {V V₁ V' : Contents} {s : Service}

theorem settled_of_copied {W : Contents} {K : Place → Prop} (hdst : Function.Injective m.dst)
    (hapart : ∀ v ∈ m.declared, ∀ w ∈ m.declared, m.dst v ≠ m.src w)
    (hdeploy : Agree (m.Unclaimed (m.copied A V)) (m.copied A V) W) (hreap : Agree K W V')
    (hK : ∀ short ∈ m.declared ++ m.applied, K (m.dst short)) : Settled A m V V' := by
  constructor
  · intro short hshort c hc
    have hcopied : m.copied A V (m.dst short) = some (A.unpack ((V (m.dst short)).getD A.empty) c) := by
      unfold Transfer.copied
      rw [carry_foldl_of_mem hdst, hc]
      · rfl
      · exact fun w hw => hapart w (List.mem_filter.1 hw).1 short hshort
      · exact List.mem_filter.2 ⟨hshort, by rw [hc]; rfl⟩
    rw [hreap _ (hK short (List.mem_append_left _ hshort)), hdeploy _ (.inl (by rw [hcopied]; rfl)), hcopied]
  · intro short hshort hnot
    have hother : ∀ v ∈ m.declared, m.dst short ≠ m.dst v := by
      intro v hv h
      rw [hdst h] at hnot
      exact hnot hv
    rw [hreap _ (hK short (List.mem_append_right _ hshort)), hdeploy _ (.inr hother)]
    exact carry_foldl_of_ne _ fun v hv => hother v (List.mem_filter.1 hv).1

variable {req : MigrateRequest} {row : Spec}

theorem migratePrepare_resting : (s.migratePrepare req t).run.Issues Resting :=
  migratePrepare_issues (fun op h => by cases h <;> trivial) fun ps op h => h.resting

theorem verifyCopied_resting {toHost name : String} {src : Manifest} :
    (s.verifyCopied toHost name src).run.Issues Resting := by
  unfold Service.verifyCopied
  split
  · refine (volumeManifest_issues trivial).mapErr.andThen fun dst => ?_
    split <;> exact issues_ret _
  · exact issues_pure

theorem migrateMove_agrees {spec : Spec} (hhosts : req.fromHost ≠ req.toHost) (hm : m = .ofMigrate req t row) :
    Ends (transferring A m) (OnOk fun V' _ => Agree (m.Unclaimed (m.copied A V)) (m.copied A V) V')
      (do s.migrateVolumes req; s.migrateDeploy req spec : Task Unit).run V := by
  subst hm
  refine .thenOk (P := fun V' _ => V' = (Transfer.ofMigrate req t row).copied A V) ?_
    fun V₁ _ hV₁ => ?_
  · refine (Ensures.mapErr_onOk (instanceVolumes_lists rfl fun _ => rfl)).thenOk fun V' vols hvols => ?_
    obtain ⟨rfl, hnames⟩ := hvols
    refine copies_carry _ (fun v short _ hname V => ?_) hnames
    unfold Service.migrateVolume
    rw [hname]
    refine copy_carries rfl rfl ?_ fun src => verifyCopied_resting
    exact fun h => hhosts (congrArg Place.host h).symm
  · rw [← hV₁]
    refine (Ensures.mapErr_onOk apply_agrees).thenOk fun W _ hW => ?_
    refine (resting_onOk (waitRunning_issues.mono fun op h => h.resting).mapErr).imp
      fun W' _ h u hu => ?_
    rw [h u hu]
    exact hW

theorem migrate_settles (hm : m = .ofMigrate req t row) : Ends (transferring A m)
      (OnOk fun V' _ => Settled A m V V') (s.migrate req).run V := by
  refine withLock_onOk ?_
  refine ensures_require_thenOk fun hhosts => ensures_require_thenOk fun _ => ?_
  have hhosts : req.fromHost ≠ req.toHost := by simpa using hhosts
  refine (resting_onOk (issues_lookup trivial)).thenOk fun _ tmpl h => ?_
  subst h
  refine (resting_onOk (issues_perform.2 trivial)).thenOk fun _ spec h => ?_
  subst h
  refine (resting_onOk ((preflightDest_issues tmpl _).mono fun op h => by cases h <;> trivial)).thenOk
    fun _ _ h => ?_
  subst h
  refine (resting_onOk (stop_issues.mono fun op h => h.resting).mapErr).thenOk fun V _ h => ?_
  subst h
  refine ensures_run_bind.2 (ensures_embed.2 ?_)
  refine .bind (resting_ensures migratePrepare_resting) fun W r hW => ?_
  subst hW
  -- a failure, here or in the move itself, is rolled back and reported
  have hrollback : ∀ stopped e W', Ends (transferring A m)
      (OnOk fun V' _ => Settled A m W V') (s.migrateFinish req (stopped, .error e)).run W' :=
    fun _ _ _ => (ensures_any _).andThen (fun _ e _ => onOk_error e) fun _ _ _ => ensures_throw_onOk
  cases r with
  | error e =>
    refine ensures_ret.2 ⟨fun out hout => ?_, nofun⟩
    rw [← Except.ok.inj hout]
    exact hrollback [] e W
  | ok stopped =>
    refine (migrateMove_agrees hhosts hm).bind fun W' r hr =>
      ensures_ret.2 ⟨fun out hout => ?_, nofun⟩
    rw [← Except.ok.inj hout]
    cases r with
    | error e => exact hrollback stopped e W'
    | ok u =>
      have hdeploy := hr u rfl
      subst hm
      refine (Ensures.mapErr_onOk (delete_agrees (K := fun l => l.host = req.toHost) rfl
        (fun _ _ h => hhosts h) (fun _ _ h => hhosts h) fun _ _ => rfl)).thenOk fun W'' _ hW'' => ?_
      refine (resting_onOk (startPaired_issues fun ps op h => h.resting)).imp
        fun W₃ _ h u hu => ?_
      rw [h u hu]
      exact settled_of_copied (fun a b h => volumeName_inj.1 (congrArg Place.name h))
        (fun _ _ _ _ h => hhosts (congrArg Place.host h).symm) hdeploy hW'' fun _ _ => rfl

theorem verifyRenamed_resting {newName : String} {src : Manifest} :
    (s.verifyRenamed host newName src).run.Issues Resting := by
  unfold Service.verifyRenamed compareManifests
  split
  · refine (volumeManifest_issues trivial).mapErr.andThen fun dst => ?_
    split <;> exact issues_ret _
  · exact issues_pure

theorem renameOrRollback_onOk {newSlug what : String} {step : Task Unit} {Q : Contents → Unit → Prop}
    (h : Ends (transferring A m) (OnOk Q) step.run V) : Ends (transferring A m) (OnOk Q)
      (s.renameOrRollback host tmpl slug newSlug what step).run V := by
  refine h.attemptThen fun W r hr => ?_
  cases r with
  | ok u => exact ensures_pure_onOk (hr u rfl)
  | error e =>
    exact (ensures_any _).andThen (fun _ e _ => onOk_error e) fun _ _ _ => ensures_throw_onOk

theorem renameSpecs_resting {req : RenameRequest} {spec : Spec} :
    (Service.renameSpecs host tmpl slug req spec).run.Issues Resting := by
  refine .andThen ?_ fun _ => ?_
  · refine (issues_ask trivial).andThen fun r => ?_
    cases r with
    | ok _ => exact issues_pure
    | error e => exact issues_pure_or_throw
  · refine .andThen (.mapErr (issues_perform.2 trivial)) fun applied => ?_
    exact .mapErr (issues_perform.2 trivial)

theorem rename_settles {req : RenameRequest}
    (hm : m = .ofRename host tmpl slug req.newSlug t row) (hapart : m.Apart) :
    Ends (transferring A m) (OnOk fun V' _ => Settled A m V V') (s.rename host tmpl slug req).run V := by
  refine withLock_onOk ?_
  refine (resting_onOk (checkRenameable_issues trivial (fun _ => trivial) trivial)).thenOk
    fun _ _ h => ?_
  subst h
  refine (resting_onOk (issues_perform.2 trivial)).thenOk fun _ spec h => ?_
  subst h
  refine (resting_onOk (stop_issues.mono fun op h => h.resting).mapErr).thenOk fun V _ h => ?_
  subst h
  have hsources : ∀ v ∈ m.declared, ∀ w ∈ m.declared, m.dst v ≠ m.src w := fun v hv w hw =>
    hapart v (List.mem_append_left _ hv) w (List.mem_append_left _ hw)
  have hlist : Ends (transferring A m) (OnOk fun V' vols => V' = V ∧ vols.map (·.name) =
        (m.declared.filter fun short => (V (m.src short)).isSome).map (volumeName tmpl slug))
      (s.instanceVolumes host tmpl slug).run V := by
    subst hm
    exact instanceVolumes_lists rfl fun _ => rfl
  refine (Ensures.mapErr_onOk hlist).thenOk fun V' vols hvols => ?_
  obtain ⟨rfl, hnames⟩ := hvols
  have hcopy : Ends (transferring A m) (OnOk fun V₁ _ => V₁ = m.copied A V')
      (forM vols (s.renameVolume host tmpl slug req.newSlug)).run V' := by
    refine copies_carry _ (fun v short hshort hname V => ?_) hnames
    have hne := hsources short (List.mem_filter.1 hshort).1 short (List.mem_filter.1 hshort).1
    unfold Service.renameVolume
    rw [hname, sliceFrom_volumeName]
    subst hm
    exact copy_carries rfl rfl hne fun src => verifyRenamed_resting
  refine hcopy.thenOk fun V₁ _ hV₁ => ?_
  refine (renameOrRollback_onOk apply_agrees).thenOk fun W _ hdeploy => ?_
  refine (renameOrRollback_onOk (resting_onOk
    (waitRunning_issues.mono fun op h => h.resting))).thenOk fun _ _ h => ?_
  subst h
  refine (resting_onOk renameSpecs_resting).thenOk fun _ _ h => ?_
  subst h
  refine (resting_onOk (refreshIngress_issues trivial)).thenOk fun W _ h => ?_
  subst h
  have hreap : Ends (transferring A m)
      (OnOk fun W' _ => Agree (fun l => ∃ a ∈ m.declared ++ m.applied, l = m.dst a) W W')
      (s.renameReap host tmpl slug req).run W := by
    unfold Service.renameReap
    split
    · exact ensures_pure_onOk fun _ _ => rfl
    · refine .mapErr_onOk (delete_agrees (by rw [hm]; rfl) ?_ ?_ fun _ _ => rfl)
      · rintro v hv ⟨a, ha, h⟩
        refine hapart a ha v (List.mem_append_left _ hv) ?_
        rw [← h, hm]
        rfl
      · rintro n hn ⟨a, ha, h⟩
        refine hapart a ha n (List.mem_append_right _ hn) ?_
        rw [← h, hm]
        rfl
  refine hreap.imp fun W' _ hW' u hu => ?_
  rw [hV₁] at hdeploy
  refine settled_of_copied ?_ hsources hdeploy (hW' u hu) fun a ha => ⟨a, ha, rfl⟩
  subst hm
  exact fun a b h => volumeName_inj.1 (congrArg Place.name h)

end Moves

/-! ## When every applied volume arrives -/

/-- Every applied volume that existed is at its destination, with the content it had. -/
def Arrives (m : Transfer) (V V' : Contents) : Prop :=
  ∀ short ∈ m.applied, ∀ c, V (m.src short) = some c → V' (m.dst short) = some c

/-- Every applied volume that exists is declared and leaves no trace of what its destination held, or is not
declared and its destination has the same content already. -/
def Transferable (A : Archive) (m : Transfer) (V : Contents) : Prop :=
  ∀ short ∈ m.applied, ∀ c, V (m.src short) = some c →
    if short ∈ m.declared then A.unpack ((V (m.dst short)).getD A.empty) c = c
    else V (m.dst short) = some c

theorem Settled.arrives_iff {A : Archive} {m : Transfer} {V V' : Contents} (h : Settled A m V V') :
    Arrives m V V' ↔ Transferable A m V := by
  refine forall₂_congr fun short hshort => forall₂_congr fun c hc => ?_
  split
  · rename_i hdeclared
    rw [h.declared short hdeclared c hc, Option.some.injEq]
  · rename_i hnot
    rw [h.undeclared short hshort hnot]

/-- Whatever the template, the row and the contents, after a migrate that returns nil every applied volume is at
the destination with its content exactly when it was `Transferable`; and so after a rename whose new volume names
are no old names of the instance. -/
theorem transfer_arrives_iff (s : Service) (A : Archive) :
    (∀ (req : MigrateRequest) (t : Template) (row : Spec) (V V' : Contents) (h : History),
      Exec (transferring A (.ofMigrate req t row)) V (s.migrate req).run h V' (.ret (.ok ())) →
      (Arrives (.ofMigrate req t row) V V' ↔ Transferable A (.ofMigrate req t row) V)) ∧
    ∀ (host tmpl slug : String) (req : RenameRequest) (t : Template) (row : Spec) (V V' : Contents)
      (h : History), (Transfer.ofRename host tmpl slug req.newSlug t row).Apart →
      Exec (transferring A (.ofRename host tmpl slug req.newSlug t row)) V
        (s.rename host tmpl slug req).run h V' (.ret (.ok ())) →
      (Arrives (.ofRename host tmpl slug req.newSlug t row) V V' ↔
        Transferable A (.ofRename host tmpl slug req.newSlug t row) V) := by
  constructor
  · intro req t row V V' h hrun
    exact ((migrate_settles rfl).post hrun () rfl).arrives_iff
  · intro host tmpl slug req t row V V' h hapart hrun
    exact ((rename_settles rfl hapart).post hrun () rfl).arrives_iff

/-! ## A volume that is no longer declared -/

def mergingArchive : Archive where
  empty := []
  unpack d c := c ++ d.filter (· ∉ c)
  unpack_empty c := by simp
  unpack_again d c := by simp [List.filter_append, List.filter_filter]

def storageTemplate (volumes : List String) : Template where
  metadata := ⟨"web", [⟨"slug", true, none⟩], [], [], volumes.map (⟨·, "", [], none⟩), none, [], none,
    some []⟩
  body := "kind: Pod"

/-- The row of an instance that was applied with the volume `data`. -/
def storageRow : Spec where
  host := "engine-1"
  template := "web"
  slug := "shop"
  parameters := []
  secrets := []
  injectorSecrets := []
  domains := []
  appliedVolumes := some ["data"]
  appliedVolumeMeta := some []
  appliedNetworks := []

def storageStart : Contents × List Place :=
  (update (fun _ => none) ⟨"engine-1", "web-shop-data"⟩ (some [1]), [⟨"engine-1", "web-shop"⟩])

/-- Two hosts on which everything succeeds. A manifest that is played runs `pod`, and a row is stored as
long as its pod exists. -/
def storageHosts (t : Template) (pod : Place) : Handler calls (Contents × List Place)
  | x, .getTemplate _ => (.ok t, x)
  | x, .getSpec host tmpl slug =>
    (if ⟨host, podName tmpl slug⟩ ∈ x.2 then
      .ok { storageRow with host := host, template := tmpl, slug := slug }
    else .error (.sentinel .storeNotFound), x)
  | x, .podInspect host name =>
    (if ⟨host, name⟩ ∈ x.2 then .ok ⟨"Running", []⟩ else .error (.sentinel .podmanNotFound), x)
  | x, .playKube _ _ _ _ => (.ok (), (x.1, pod :: x.2))
  | x, .podRemove host name _ => (.ok (), (x.1, x.2.filter (· ≠ ⟨host, name⟩)))
  | x, .volumeInspect host name =>
    (if (x.1 ⟨host, name⟩).isSome then .ok ⟨name, 0⟩ else .error (.sentinel .podmanNotFound), x)
  | x, .volumeCreate host name =>
    (.ok (), (update x.1 ⟨host, name⟩ (some ((x.1 ⟨host, name⟩).getD [])), x.2))
  | x, .volumeImport host name c => (.ok (), (update x.1 ⟨host, name⟩
      (some (mergingArchive.unpack ((x.1 ⟨host, name⟩).getD []) c)), x.2))
  | x, .volumeExport host name =>
    ((x.1 ⟨host, name⟩).elim (.error (.sentinel .podmanNotFound)) .ok, x)
  | x, .volumeRemove host name _ => (.ok (), (update x.1 ⟨host, name⟩ none, x.2))
  | x, op => (op.plain, x)

theorem storageHosts_transferring {pod : Place} {m : Transfer}
    (hid : m.id = ⟨"engine-1", "web", "shop"⟩) (ht : m.template = t) (hrow : m.row = storageRow)
    {x y : Contents × List Place}
    (h : (storageHosts t pod).service x op r y) : transferring mergingArchive m x.1 op r y.1 := by
  obtain ⟨hr, hy⟩ := Handler.answered h
  subst hr hy
  cases op
  case getTemplate => exact ⟨rfl, fun _ t' ht' => (ht.trans (Except.ok.inj ht')).symm⟩
  case getSpec host tmpl slug =>
    refine ⟨rfl, fun heq row hrow' => ?_⟩
    rw [hid] at heq
    obtain ⟨rfl, rfl, rfl⟩ := SpecId.mk.inj heq
    simp only [storageHosts] at hrow'
    split at hrow'
    · rw [← Except.ok.inj hrow', hrow]
      rfl
    · cases hrow'
  case volumeInspect host name =>
    refine ⟨rfl, fun v hv => ?_, fun e he _ => ?_⟩
    · simp only [storageHosts] at hv
      split at hv
      · rename_i hsome
        exact ⟨by rw [← Except.ok.inj hv], hsome⟩
      · cases hv
    · simp only [storageHosts] at he
      split at he
      · cases he
      · rename_i hnone
        simpa using hnone
  case volumeExport host name =>
    refine ⟨rfl, fun c hc => ?_⟩
    simp only [storageHosts] at hc
    cases hx : x.1 ⟨host, name⟩ with
    | none => rw [hx] at hc; cases hc
    | some d => rw [hx] at hc; exact congrArg some (Except.ok.inj hc)
  case volumeCreate | volumeImport | volumeRemove =>
    exact ⟨fun l hl => update_of_ne hl _ _, fun _ => update_self _ _ _⟩
  case playKube => exact fun l => .inl rfl
  all_goals rfl

def storageMove : MigrateRequest :=
  ⟨"engine-1", "engine-2", "web", "shop", [], []⟩

@[irreducible]
def storageMigrate (volumes : List String) : Except Error Unit × History × (Contents × List Place) :=
  (exampleService.migrate storageMove).run.eval
    (storageHosts (storageTemplate volumes) ⟨"engine-2", "web-shop"⟩) storageStart

@[irreducible]
def storageRename (volumes : List String) : Except Error Unit × History × (Contents × List Place) :=
  (exampleService.rename "engine-1" "web" "shop" ⟨"blog", none, false⟩).run.eval
    (storageHosts (storageTemplate volumes) ⟨"engine-1", "web-blog"⟩) storageStart

theorem storageMigrate_exec (volumes : List String) :
    Exec (transferring mergingArchive (.ofMigrate storageMove (storageTemplate volumes) storageRow))
      storageStart.1 (exampleService.migrate storageMove).run (storageMigrate volumes).2.1
      (storageMigrate volumes).2.2.1 (.ret (storageMigrate volumes).1) := by
  exact (exec_of_eval (storageMigrate.eq_def ..)).view Prod.fst fun _ _ _ _ h => storageHosts_transferring rfl rfl rfl h

theorem storageRename_exec (volumes : List String) : Exec (transferring mergingArchive
        (.ofRename "engine-1" "web" "shop" "blog" (storageTemplate volumes) storageRow))
      storageStart.1 (exampleService.rename "engine-1" "web" "shop" ⟨"blog", none, false⟩).run
      (storageRename volumes).2.1 (storageRename volumes).2.2.1 (.ret (storageRename volumes).1) := by
  exact (exec_of_eval (storageRename.eq_def ..)).view Prod.fst fun _ _ _ _ h => storageHosts_transferring rfl rfl rfl h

/-- While the volume is declared, it arrives. -/
theorem transfer_arrives_declared :
    Arrives (.ofMigrate storageMove (storageTemplate ["data"]) storageRow) storageStart.1
      (storageMigrate ["data"]).2.2.1 ∧
    Arrives (.ofRename "engine-1" "web" "shop" "blog" (storageTemplate ["data"]) storageRow)
      storageStart.1 (storageRename ["data"]).2.2.1 := by
  have happlied : ∀ {P : String → Prop}, P "data" → ∀ short ∈ storageRow.appliedVolumes.getD [],
      P short := fun h short hshort => List.mem_singleton.1 hshort ▸ h
  have hmigrated : (storageMigrate ["data"]).1 = .ok () := by decide +kernel
  have hrenamed : (storageRename ["data"]).1 = .ok () := by decide +kernel
  have hmigrate := storageMigrate_exec ["data"]
  have hrename := storageRename_exec ["data"]
  rw [hmigrated] at hmigrate
  rw [hrenamed] at hrename
  have hapart : (Transfer.ofRename "engine-1" "web" "shop" "blog" (storageTemplate ["data"])
      storageRow).Apart := by
    unfold Transfer.Apart
    decide +kernel
  constructor
  · refine ((transfer_arrives_iff exampleService mergingArchive).1 storageMove _ _ _ _ _ hmigrate).2
      (happlied fun c hc => ?_)
    obtain rfl : [1] = c := Option.some.inj hc
    decide +kernel
  · refine ((transfer_arrives_iff exampleService mergingArchive).2 "engine-1" "web" "shop"
      ⟨"blog", none, false⟩ _ _ _ _ _ hapart hrename).2 (happlied fun c hc => ?_)
    obtain rfl : [1] = c := Option.some.inj hc
    decide +kernel

/-- After a template edit that drops the volume, a migrate and a rename succeed, and the volume the instance was
applied with is neither on the destination nor under the new slug. -/
theorem transfer_strands_undeclared : "data" ∈ storageRow.appliedVolumes.getD [] ∧
    storageStart.1 ⟨"engine-1", "web-shop-data"⟩ = some [1] ∧
    (∃ h V', Exec (transferring mergingArchive (.ofMigrate storageMove (storageTemplate []) storageRow))
        storageStart.1 (exampleService.migrate storageMove).run h V' (.ret (.ok ())) ∧
      V' ⟨"engine-2", "web-shop-data"⟩ = none) ∧ ∃ h V', Exec (transferring mergingArchive
          (.ofRename "engine-1" "web" "shop" "blog" (storageTemplate []) storageRow)) storageStart.1
        (exampleService.rename "engine-1" "web" "shop" ⟨"blog", none, false⟩).run h V' (.ret (.ok ())) ∧
      V' ⟨"engine-1", "web-blog-data"⟩ = none := by
  have hmigrated : (storageMigrate []).1 = .ok () := by decide +kernel
  have hrenamed : (storageRename []).1 = .ok () := by decide +kernel
  have hmigrate := storageMigrate_exec []
  have hrename := storageRename_exec []
  rw [hmigrated] at hmigrate
  rw [hrenamed] at hrename
  exact ⟨by decide, by decide, ⟨_, _, hmigrate, by decide +kernel⟩, _, _, hrename, by decide +kernel⟩

end PodmanApi.Instance

/-
# PodmanApi.Instance.Recovery — an interrupted move and its recovery passes.

A move may stop anywhere, and so may each pass after it. `Recovery` is the set of such runs over `fleet`, the
pods and rows that the two hosts and the store really hold.

A pass takes a ready pod of the destination with a stored row for the result of the move. When the destination
had no such pod before, only the move's own apply can have created it, after every volume had been copied; this
is `Sound`. When it had one, a pass deletes a source of which nothing was ever copied.
-/
import PodmanApi.Store
import PodmanApi.Instance.Migrate

namespace PodmanApi.Instance

open GoStd Calls

/-! ## Hosts that may be out of reach -/

structure Fleet where
  pods : String → String → Bool
  rows : Rows

/-- What the hosts and the store do. A call may be answered with any error; one that says that something does not
exist is true. A failed change of a pod may have happened. -/
def fleet : Calls.Service calls Fleet
  | w, .podInspect host name, r, w' =>
    w' = w ∧ (∀ p, r = .ok p → w.pods host name = true) ∧
      ∀ e, r = .error e → e.is .podmanNotFound = true → w.pods host name = false
  | w, .playKube host _ _ _, _, w' =>
    w'.rows = w.rows ∧ ∀ h, h ≠ host → w'.pods h = w.pods h
  | w, .podRemove host name _, r, w' =>
    w'.rows = w.rows ∧ (∀ h n, w'.pods h n = true → w.pods h n = true) ∧
      (∀ h n, ¬(h = host ∧ n = name) → w'.pods h n = w.pods h n) ∧
      (r = .ok () → w'.pods host name = false) ∧
      ∀ e, r = .error e → e.is .podmanNotFound = true → w'.pods host name = false
  | w, .getSpec host tmpl slug, r, w' =>
    w' = w ∧ ∀ sp, r = .ok sp → w.rows.get ⟨host, tmpl, slug⟩ = some sp
  | w, .putSpec sp, r, w' =>
    w'.pods = w.pods ∧ (w'.rows = w.rows.put sp ∨ w'.rows = w.rows ∧ r ≠ .ok ())
  | w, .deleteSpec host tmpl slug, r, w' =>
    w'.pods = w.pods ∧
      (w'.rows = w.rows.erase ⟨host, tmpl, slug⟩ ∨ w'.rows = w.rows ∧ r ≠ .ok ())
  | w, _, _, w' => w' = w

/-! ## Runs -/

/-- A move and recovery passes, each stopped anywhere: the answered calls of each, the state they lead to, and the
call that waits there. -/
inductive Recovery (s : Service) (req : MigrateRequest) (w : Fleet) :
    List History → Fleet → Option Op → Prop where
  | migrate {t : History} {w' : Fleet} {q : Prog calls (Except Error Unit)}
      (h : Exec fleet w (s.migrate req).run t w' q) : Recovery s req w [t] w' q.next
  | pass {ts : List History} {w' w'' : Fleet} {waiting : Option Op} {t : History}
      {q : Prog calls Verdict} (before : Recovery s req w ts w' waiting)
      (h : Exec fleet w' (s.reconcileMigrate req) t w'' q) : Recovery s req w (ts ++ [t]) w'' q.next

section Properties

variable (s : Service) (req : MigrateRequest)

def MigrateRequest.dest (req : MigrateRequest) : SpecId :=
  ⟨req.toHost, req.template, req.slug⟩

def RemovesSource : Op → Prop
  | .volumeRemove host _ _ => host = req.fromHost
  | .deleteSpec host tmpl slug => host = req.fromHost ∧ tmpl = req.template ∧ slug = req.slug
  | _ => False

/-- The calls that remove the pod, a volume or the row of the destination. -/
def RemovesDest : Op → Prop
  | .podRemove host name _ => host = req.toHost ∧ name = req.pod
  | .volumeRemove host _ _ => host = req.toHost
  | .deleteSpec host tmpl slug => host = req.toHost ∧ tmpl = req.template ∧ slug = req.slug
  | _ => False

/-- A volume has been exported from the source, and what was exported imported at the destination. -/
def Copied (name : String) (past : History) : Prop :=
  ∃ content, ⟨.volumeExport req.fromHost name, .ok content⟩ ∈ past ∧
    ⟨.volumeImport req.toHost name content, .ok ()⟩ ∈ past

/-- `InstanceVolumes` has returned on the source, and each volume it returned has been copied since. -/
def Transferred (past : History) : Prop :=
  ∃ before listing after vols, past = before ++ listing ++ after ∧
    Returns (s.instanceVolumes req.fromHost req.template req.slug).run listing (.ok vols) ∧
    ∀ v ∈ vols, Copied req v.name after

def SeenReady (past : History) : Prop :=
  ∃ p, ⟨.podInspect req.toHost req.pod, .ok p⟩ ∈ past ∧ podReady s.unicode p = true

def Restarted (past : History) : Prop :=
  ∃ before start after o, past = before ++ start ++ after ∧
    Returns (s.start req.fromHost req.template req.slug).run start (.ok o)

def Pruned (host name : String) (past : History) : Prop :=
  ∃ force r, ⟨.volumeRemove host name force, r⟩ ∈ past

end Properties

section Histories

variable {s : Service} {req : MigrateRequest} {past t : History} {host name : String}

theorem Copied.mono (h : Copied req name past) : Copied req name (past ++ t) := by
  obtain ⟨content, hexport, himport⟩ := h
  exact ⟨content, List.mem_append_left t hexport, List.mem_append_left t himport⟩

theorem Transferred.mono (h : Transferred s req past) : Transferred s req (past ++ t) := by
  obtain ⟨before, listing, after, vols, rfl, hlist, hcopied⟩ := h
  refine ⟨before, listing, after ++ t, vols, ?_, hlist, fun v hv => (hcopied v hv).mono⟩
  rw [List.append_assoc (before ++ listing)]

theorem SeenReady.mono (h : SeenReady s req past) : SeenReady s req (past ++ t) := by
  obtain ⟨p, hmem, hready⟩ := h
  exact ⟨p, List.mem_append_left t hmem, hready⟩

def Unpruned (host : String) (past : History) : Prop :=
  ∀ name, ¬Pruned host name past

theorem unpruned_append : Unpruned host (past ++ t) ↔ Unpruned host past ∧ Unpruned host t := by
  unfold Unpruned Pruned
  simp only [List.mem_append]
  constructor
  · intro h
    exact ⟨fun n ⟨f, r, hmem⟩ => h n ⟨f, r, .inl hmem⟩, fun n ⟨f, r, hmem⟩ => h n ⟨f, r, .inr hmem⟩⟩
  · rintro ⟨hpast, ht⟩ n ⟨f, r, hmem | hmem⟩
    · exact hpast n ⟨f, r, hmem⟩
    · exact ht n ⟨f, r, hmem⟩

theorem unpruned_nil (host : String) : Unpruned host [] := by
  rintro n ⟨f, r, hmem⟩
  exact List.not_mem_nil hmem

theorem unpruned_of_calls (h : ∀ e ∈ t, ∀ n f, e.1 ≠ .volumeRemove host n f) : Unpruned host t := by
  rintro n ⟨f, r, hmem⟩
  exact h _ hmem n f rfl

end Histories

/-! ## What every call keeps -/

/-- The destination's pod is the move's own, and volumes are pruned on one host only. -/
structure Sound (s : Service) (req : MigrateRequest) (x : Fleet × History) : Prop where
  dest : x.1.pods req.toHost req.pod = true →
    req.fromHost ≠ req.toHost ∧ Transferred s req x.2 ∧ Unpruned req.toHost x.2
  gone : Unpruned req.fromHost x.2 ∨ x.1.pods req.fromHost req.pod = false
  apart : Unpruned req.fromHost x.2 ∨ Unpruned req.toHost x.2

structure HandedOver (s : Service) (req : MigrateRequest) (x : Fleet × History) : Prop where
  transferred : Transferred s req x.2
  row : (x.1.rows.get req.dest).isSome = true
  ready : SeenReady s req x.2

def Guarded (s : Service) (req : MigrateRequest) (x : Fleet × History) (op : Op) : Prop :=
  Sound s req x ∧ (RemovesSource req op → HandedOver s req x) ∧
    (RemovesDest req op → req.fromHost ≠ req.toHost)

abbrev Guards {α : Type} (s : Service) (req : MigrateRequest) (Q : Fleet × History → α → Prop)
    (p : Prog calls α) : Fleet × History → Prop :=
  Ensures (traced fleet) (Guarded s req) Q p

/-- The calls that create no pod and remove no volume and no row. -/
def Mild : Op → Prop
  | .playKube _ _ _ _ | .volumeRemove _ _ _ | .deleteSpec _ _ _ => False
  | _ => True

def Gentle : Op → Prop
  | .playKube _ _ _ _ | .podRemove _ _ _ | .volumeRemove _ _ _ | .deleteSpec _ _ _ => False
  | _ => True

/-- What mild calls keep: no pod appears, the destination's row stays, no volume is pruned. -/
structure Still (req : MigrateRequest) (x y : Fleet × History) : Prop where
  pods : ∀ host name, y.1.pods host name = true → x.1.pods host name = true
  row : (x.1.rows.get req.dest).isSome = true → (y.1.rows.get req.dest).isSome = true
  past : ∃ t, y.2 = x.2 ++ t ∧ ∀ host, Unpruned host t

variable {op : Op}

section Mild

variable {s : Service} {req : MigrateRequest} {x y z : Fleet × History} {host name : String}

theorem Still.refl (req : MigrateRequest) (x : Fleet × History) : Still req x x :=
  ⟨fun _ _ => id, id, [], (List.append_nil _).symm, unpruned_nil⟩

section

variable (h : Still req x y)

include h

theorem Still.trans (h' : Still req y z) : Still req x z := by
  obtain ⟨t, ht, hun⟩ := h.past
  obtain ⟨t', ht', hun'⟩ := h'.past
  refine ⟨fun host name hz => h.pods host name (h'.pods host name hz),
    fun hrow => h'.row (h.row hrow), t ++ t', ?_, fun host => ?_⟩
  · rw [ht', ht, List.append_assoc]
  · exact unpruned_append.2 ⟨hun host, hun' host⟩

theorem Still.absent (hx : x.1.pods host name = false) : y.1.pods host name = false := by
  by_contra hy
  have hpod := h.pods host name (by simpa using hy)
  rw [hx] at hpod
  cases hpod

theorem Still.unpruned (hx : Unpruned host x.2) : Unpruned host y.2 := by
  obtain ⟨t, ht, hun⟩ := h.past
  rw [ht]
  exact unpruned_append.2 ⟨hx, hun host⟩

theorem Still.transferred (hx : Transferred s req x.2) : Transferred s req y.2 := by
  obtain ⟨t, ht, -⟩ := h.past
  rw [ht]
  exact hx.mono

theorem Still.ready (hx : SeenReady s req x.2) : SeenReady s req y.2 := by
  obtain ⟨t, ht, -⟩ := h.past
  rw [ht]
  exact hx.mono

theorem Still.sound (hx : Sound s req x) : Sound s req y := by
  refine ⟨fun hpod => ?_, hx.gone.imp h.unpruned h.absent, hx.apart.imp h.unpruned h.unpruned⟩
  obtain ⟨hne, htrans, hun⟩ := hx.dest (h.pods _ _ hpod)
  exact ⟨hne, h.transferred htrans, h.unpruned hun⟩

theorem Still.handed (hx : HandedOver s req x) : HandedOver s req y :=
  ⟨h.transferred hx.transferred, h.row hx.row, h.ready hx.ready⟩

end

theorem unpruned_call {r : op.Ans} (hop : ∀ n f, op ≠ .volumeRemove host n f) :
    Unpruned host [(⟨op, r⟩ : Event calls)] := by
  refine unpruned_of_calls fun e he n f heq => ?_
  rw [List.mem_singleton.1 he] at heq
  exact hop n f heq

theorem mild_step {r : op.Ans} (hop : Mild op) (h : traced fleet x op r y) : Still req x y := by
  obtain ⟨hstep, hpast⟩ := h
  have hun : ∀ host, Unpruned host [(⟨op, r⟩ : Event calls)] := by
    intro host
    refine unpruned_call fun n f heq => ?_
    rw [heq] at hop
    exact hop
  have hkept : (∀ host name, y.1.pods host name = true → x.1.pods host name = true) ∧
      ((x.1.rows.get req.dest).isSome = true → (y.1.rows.get req.dest).isSome = true) := by
    cases op with
    | playKube | volumeRemove | deleteSpec => exact hop.elim
    | podRemove =>
      obtain ⟨hrows, hshrink, -⟩ := hstep
      rw [hrows]
      exact ⟨hshrink, id⟩
    | podInspect | getSpec =>
      rw [hstep.1]
      exact ⟨fun _ _ => id, id⟩
    | putSpec sp =>
      obtain ⟨hpods, hrows⟩ := hstep
      rw [hpods]
      refine ⟨fun _ _ => id, fun hrow => ?_⟩
      rcases hrows with hput | ⟨hsame, -⟩
      · rw [hput, Rows.get_put]
        split
        · rfl
        · exact hrow
      · rw [hsame]
        exact hrow
    | _ =>
      have hsame : y.1 = x.1 := hstep
      rw [hsame]
      exact ⟨fun _ _ => id, id⟩
  exact ⟨hkept.1, hkept.2, [⟨op, r⟩], hpast, hun⟩

theorem Gentle.mild (hop : Gentle op) : Mild op := by
  cases op with
  | playKube | podRemove | volumeRemove | deleteSpec => exact hop.elim
  | _ => trivial

theorem gentle_guarded (hop : Gentle op) (hx : Sound s req x) : Guarded s req x op := by
  refine ⟨hx, fun hsrc => ?_, fun hdst => ?_⟩
  · cases op with
    | volumeRemove | deleteSpec => exact hop.elim
    | _ => exact hsrc.elim
  · cases op with
    | podRemove | volumeRemove | deleteSpec => exact hop.elim
    | _ => exact hdst.elim

theorem gentle_ensures {α : Type} {p : Prog calls α} (hp : p.Issues Gentle) (hx : Sound s req x) :
    Guards s req (fun y _ => Still req x y) p x :=
  hp.ensures (fun _ _ _ _ hop hy h => hy.trans (mild_step hop.mild h))
    (fun _ _ hop hy => gentle_guarded hop (hy.sound hx)) (Still.refl req x)

end Mild

/-! ## Deleting one side -/

/-- The destination is the truth: what must hold for the source to be deleted. -/
structure Committed (s : Service) (req : MigrateRequest) (x : Fleet × History) : Prop where
  sound : Sound s req x
  handed : HandedOver s req x
  apart : req.fromHost ≠ req.toHost
  kept : Unpruned req.toHost x.2

/-- The source is the truth: what must hold for the destination to be deleted. -/
structure Reverted (s : Service) (req : MigrateRequest) (x : Fleet × History) : Prop where
  sound : Sound s req x
  apart : req.fromHost ≠ req.toHost
  kept : Unpruned req.fromHost x.2

section Deleting

variable {s : Service} {req : MigrateRequest} {x y : Fleet × History}

theorem Still.committed (h : Still req x y) (hx : Committed s req x) : Committed s req y :=
  ⟨h.sound hx.sound, h.handed hx.handed, hx.apart, h.unpruned hx.kept⟩

theorem Still.reverted (h : Still req x y) (hx : Reverted s req x) : Reverted s req y :=
  ⟨h.sound hx.sound, hx.apart, h.unpruned hx.kept⟩

variable {r : Except Error Unit} {name : String} {force : Bool}

theorem volumeRemove_fleet {host : String} (h : traced fleet x (.volumeRemove host name force) r y) :
    y.1 = x.1 ∧ (∃ t, y.2 = x.2 ++ t) ∧ ∀ other, other ≠ host → Unpruned other x.2 → Unpruned other y.2 := by
  obtain ⟨hsame, hpast⟩ := h
  refine ⟨hsame, ⟨_, hpast⟩, fun other hne hx => ?_⟩
  rw [hpast]
  refine unpruned_append.2 ⟨hx, unpruned_call fun n f heq => ?_⟩
  exact hne (Op.volumeRemove.inj heq).1.symm

theorem volumeRemove_committed (hx : Committed s req x) (hgone : x.1.pods req.fromHost req.pod = false)
    (h : traced fleet x (.volumeRemove req.fromHost name force) r y) : Committed s req y := by
  obtain ⟨hfleet, ⟨t, hpast⟩, hother⟩ := volumeRemove_fleet h
  have hkept : Unpruned req.toHost y.2 := hother _ hx.apart.symm hx.kept
  have htrans : Transferred s req y.2 := hpast ▸ hx.handed.transferred.mono
  have hsound : Sound s req y :=
    ⟨fun _ => ⟨hx.apart, htrans, hkept⟩, .inr (hfleet ▸ hgone), .inr hkept⟩
  have hready : SeenReady s req y.2 := hpast ▸ hx.handed.ready.mono
  exact ⟨hsound, ⟨htrans, hfleet ▸ hx.handed.row, hready⟩, hx.apart, hkept⟩

theorem volumeRemove_reverted (hx : Reverted s req x) (hgone : x.1.pods req.toHost req.pod = false)
    (h : traced fleet x (.volumeRemove req.toHost name force) r y) : Reverted s req y := by
  obtain ⟨hfleet, -, hother⟩ := volumeRemove_fleet h
  have hkept : Unpruned req.fromHost y.2 := hother _ hx.apart hx.kept
  refine ⟨⟨fun hpod => ?_, .inl hkept, .inl hkept⟩, hx.apart, hkept⟩
  rw [hfleet, hgone] at hpod
  cases hpod

theorem deleteSpec_fleet {host tmpl slug : String} (h : traced fleet x (.deleteSpec host tmpl slug) r y) :
    y.1.pods = x.1.pods ∧ ∃ t, y.2 = x.2 ++ t ∧ ∀ host, Unpruned host t :=
  ⟨h.1.1, _, h.2, fun _ => unpruned_call nofun⟩

theorem deleteSpec_committed (hx : Committed s req x)
    (h : traced fleet x (.deleteSpec req.fromHost req.template req.slug) r y) : Committed s req y := by
  obtain ⟨hpods, hpast⟩ := deleteSpec_fleet h
  refine Still.committed ⟨fun host name hy => hpods ▸ hy, fun hrow => ?_, hpast⟩ hx
  rcases h.1.2 with herase | ⟨hsame, -⟩
  · have hne : req.dest ≠ ⟨req.fromHost, req.template, req.slug⟩ := by
      intro heq
      exact hx.apart (congrArg SpecId.host heq).symm
    rw [herase, Rows.get_erase, if_neg hne]
    exact hrow
  · rw [hsame]
    exact hrow

theorem deleteSpec_reverted (hx : Reverted s req x)
    (h : traced fleet x (.deleteSpec req.toHost req.template req.slug) r y) : Reverted s req y := by
  obtain ⟨hpods, t, hpast, hun⟩ := deleteSpec_fleet h
  have hgrow : ∀ {host}, Unpruned host x.2 → Unpruned host y.2 := by
    intro host hx
    rw [hpast]
    exact unpruned_append.2 ⟨hx, hun host⟩
  refine ⟨⟨fun hpod => ?_, .inl (hgrow hx.kept), .inl (hgrow hx.kept)⟩, hx.apart, hgrow hx.kept⟩
  rw [hpods] at hpod
  obtain ⟨hne, htrans, hkept⟩ := hx.sound.dest hpod
  exact ⟨hne, hpast ▸ htrans.mono, hgrow hkept⟩

end Deleting

/-- A side that may be deleted: what keeps the right to delete it, call by call. -/
structure Deletable (s : Service) (req : MigrateRequest) (host : String) (P : Fleet × History → Prop) : Prop where
  sound : ∀ x, P x → Sound s req x
  still : ∀ x y, Still req x y → P x → P y
  guarded : ∀ x op, Deleting host req.template req.slug op → P x → Guarded s req x op
  prune : ∀ x y name r, P x → x.1.pods host req.pod = false →
    traced fleet x (.volumeRemove host name true) r y → P y
  forget : ∀ x y r, P x → traced fleet x (.deleteSpec host req.template req.slug) r y → P y

theorem source_deletable (s : Service) (req : MigrateRequest) : Deletable s req req.fromHost (Committed s req) where
  sound _ hx := hx.sound
  still _ _ h hx := h.committed hx
  guarded _ _ _ hx := ⟨hx.sound, fun _ => hx.handed, fun _ => hx.apart⟩
  prune _ _ _ _ hx hgone h := volumeRemove_committed hx hgone h
  forget _ _ _ hx h := deleteSpec_committed hx h

theorem dest_deletable (s : Service) (req : MigrateRequest) : Deletable s req req.toHost (Reverted s req) where
  sound _ hx := hx.sound
  still _ _ h hx := h.reverted hx
  guarded x op hop hx := by
    refine ⟨hx.sound, fun hsrc => ?_, fun _ => hx.apart⟩
    -- the calls of this deletion go to the destination
    cases hop with
    | pruning hop =>
      cases hop with
      | volumeRemove => exact (hx.apart hsrc.symm).elim
      | _ => exact hsrc.elim
    | deleteSpec => exact (hx.apart hsrc.1.symm).elim
    | _ => exact hsrc.elim
  prune _ _ _ _ hx hgone h := volumeRemove_reverted hx hgone h
  forget _ _ _ hx h := deleteSpec_reverted hx h

section Delete

variable {s : Service} {req : MigrateRequest} {host : String} {P : Fleet × History → Prop} {x y : Fleet × History}

theorem Deletable.step (h : Deletable s req host P) {r : op.Ans} (hop : Deleting host req.template req.slug op)
    (hx : P x ∧ x.1.pods host req.pod = false) (hstep : traced fleet x op r y) :
    P y ∧ y.1.pods host req.pod = false := by
  have hmild : ∀ {op : Op} {r : op.Ans}, traced fleet x op r y → Mild op →
      P y ∧ y.1.pods host req.pod = false := by
    intro op r hstep hop
    have hstill : Still req x y := mild_step hop hstep
    exact ⟨h.still x y hstill hx.1, hstill.absent hx.2⟩
  cases hop with
  | pruning hop =>
    cases hop with
    | getTemplate | secretRemove => exact hmild hstep trivial
    | volumeRemove name =>
      refine ⟨h.prune x y name r hx.1 hx.2 hstep, ?_⟩
      rw [(volumeRemove_fleet hstep).1]
      exact hx.2
  | deleteSpec =>
    refine ⟨h.forget x y r hx.1 hstep, ?_⟩
    rw [(deleteSpec_fleet hstep).1]
    exact hx.2
  | lock | podRemove | getSpec | reconcile | unlock => exact hmild hstep trivial

theorem Deletable.reap (h : Deletable s req host P) {α : Type} {p : Prog calls α}
    (hp : p.Issues (Deleting host req.template req.slug))
    (hx : P x ∧ x.1.pods host req.pod = false) : Guards s req (fun y _ => P y) p x :=
  (hp.ensures (fun _ _ _ _ hop hy hstep => h.step hop hy hstep)
    (fun y op hop hy => h.guarded y op hop hy.1) hx).imp fun _ _ hy => hy.1

theorem Deletable.delete (h : Deletable s req host P) (opts : DeleteOptions) (hx : P x) :
    Guards s req (fun y _ => P y) (s.delete host req.template req.slug opts).run x := by
  have hgentle : ∀ {α : Type} {p : Prog calls α} {y : Fleet × History}, p.Issues Gentle → P y →
      Guards s req (fun z _ => P z) p y := by
    intro α p y hp hy
    exact (gentle_ensures hp (h.sound y hy)).imp fun z _ hz => h.still y z hz hy
  have hremove : ∀ y, P y → Guards s req
      (fun z r => P z ∧ ∀ existed, r = .ok existed → z.1.pods host req.pod = false)
      (removePod host req.template req.slug).run y := by
    intro y hy
    refine ensures_ask_bind (h.guarded y _ .podRemove hy) fun r z hz => ?_
    have hP : P z := h.still y z (mild_step (by trivial) hz) hy
    obtain ⟨⟨-, -, -, hok, hmissing⟩, -⟩ := hz
    cases r with
    | ok _ => exact ensures_pure.2 ⟨hP, fun _ _ => hok rfl⟩
    | error e =>
      dsimp only
      split
      · rename_i hfound
        exact ensures_pure.2 ⟨hP, fun _ _ => hmissing e rfl hfound⟩
      · exact ensures_throw.2 ⟨hP, fun _ h => by cases h⟩
  refine (hgentle (issues_lookup trivial) hx).andThen (fun _ _ hy => hy) fun y _ hy => ?_
  refine ensures_lock (h.guarded y _ .lock hy) fun z hz => ?_
  have hPz : P z := h.still y z (mild_step (by trivial) hz) hy
  have hbody : Guards s req (fun u _ => P u)
      (s.deleteLocked host req.template req.slug opts).run z := by
    refine (hremove z hPz).andThen (fun _ _ hu => hu.1) fun u existed hu => ?_
    refine h.reap ?_ ⟨hu.1, hu.2 existed rfl⟩
    refine (storedInjectorSecrets_issues .getSpec).andThen fun inj => ?_
    refine ((pruneInstanceResources_issues _ _ inj).mono fun op h => .pruning h).andThen fun _ => ?_
    refine (forgetSpec_issues .deleteSpec).andThen fun _ => ?_
    exact (refreshIngress_issues .reconcile).andThen fun _ => issues_require
  refine hbody.imp fun u r hu => ⟨h.guarded u _ .unlock hu, fun v hv => ?_⟩
  exact h.still u v (mild_step (by trivial) hv) hu

end Delete

end PodmanApi.Instance

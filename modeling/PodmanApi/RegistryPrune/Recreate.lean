/-
# PodmanApi.RegistryPrune.Recreate — does a prune leave a stopped instance re-creatable?

Two independent pieces of code decide which images an instance needs. The deploy path renders the
template body and pulls every image it finds there; the prune path never renders anything and looks
at the names of stored parameters. This file relates the two, over a fleet that holds still.
-/
import PodmanApi.RegistryPrune.InUseSpec
import PodmanApi.Render

namespace PodmanApi.RegistryPrune

open GoStd Calls Render

namespace Fleet

variable (F : Fleet) (u : Unicode) (repos ourHosts : List String)

/-- What a reference resolves to in this fleet's registry. -/
def resolve (ref : String) : Except Error RefOutcome :=
  ((resolveRef u repos ourHosts ref).run.eval (F.handler ⟨0⟩) ()).1

/-- The references of the fleet that a sweep looks at: image and tag of every container but infra containers, and
every non-blank string parameter with an image name. -/
inductive Reference (ref : String) : Prop where
  | container (host : String) (obs : List Observed) (fresh : Freshness) (o : Observed)
      (c : ObservedContainer) (hhost : host ∈ F.hosts) (hinv : F.inventory host = .ok (obs, fresh))
      (ho : o ∈ obs) (hc : c ∈ o.containers) (href : ContainerRef c ref)
  | param (host : String) (keys : List SpecKey) (k : SpecKey) (sp : Spec) (p : String × Value)
      (hhost : host ∈ F.hosts) (hkeys : F.specKeys host = .ok keys) (hk : k ∈ keys)
      (hsp : F.spec host k = .ok sp) (hp : p ∈ sp.parameters) (href : ParamRef u p ref)

/-- Some reference that a sweep looks at resolves to `d`. -/
def Names (d : String) : Prop :=
  ∃ ref out, F.Reference u ref ∧ F.resolve u repos ourHosts ref = .ok out ∧ out.digest = d ∧ d ≠ ""

variable {F u repos ourHosts} {α : Type} {p q : Prog calls α} {t : History}

variable {ref : String}

section

variable (h : Exec F.service () p t () q)

include h

/-- A resolution seen during a run of the fleet is the fleet's resolution: its registry holds still,
and a resolution reads nothing else. -/
theorem resolve_of_returns {t' : History}
    {r : Except Error RefOutcome} (hsub : t' ⊆ t)
    (hrun : Returns (resolveRef u repos ourHosts ref).run t' r) : F.resolve u repos ourHosts ref = r := by
  refine hrun.eval (fun _ => rfl) fun e he => ?_
  obtain ⟨repo, tag, hop⟩ := hrun.issued (resolveRef_issues u repos ourHosts ref) e he
  obtain ⟨now, hans⟩ := answered h e (hsub he)
  obtain ⟨op, r⟩ := e
  cases hop
  exact hans.symm

theorem resolve_of_resolves {out : RefOutcome}
    (hres : Resolves u repos ourHosts t ref out) : F.resolve u repos ourHosts ref = .ok out := by
  obtain ⟨t', hsub, hrun⟩ := hres
  exact resolve_of_returns h hsub hrun

theorem reference_of_refers {host : String}
    (hhost : host ∈ F.hosts) (href : Refers u host t ref) : F.Reference u ref := by
  cases href with
  | container obs fresh o c hlist ho hc href =>
    obtain ⟨_, hans⟩ := answered h _ hlist
    exact .container host obs fresh o c hhost hans.symm ho hc href
  | param keys k hkeys hk href =>
    obtain ⟨_, hans⟩ := answered h _ hkeys
    obtain ⟨sp, hread, p, hp, href⟩ := href
    obtain ⟨_, hspec⟩ := answered h _ hread
    exact .param host keys k sp p hhost hans.symm hk hspec.symm hp href

/-- A reference of a swept host that resolves is recorded: of the two ways to fail, one stops the sweep and the
other contradicts that it resolves. -/
theorem recorded_of_reference {acc : Sweep} {maxAge : Duration}
    (hswept : ∀ host ∈ F.hosts, ∃ obs fresh now keys,
      HostSwept u repos ourHosts maxAge host t acc obs fresh now keys) {out : RefOutcome} (href : F.Reference u ref)
    (hres : F.resolve u repos ourHosts ref = .ok out) : Recorded acc out := by
  cases href with
  | container host obs fresh o c hhost hinv ho hc href =>
    obtain ⟨obs', fresh', now, keys, hs⟩ := hswept host hhost
    obtain ⟨_, hans⟩ := answered h _ hs.listed
    cases hinv.symm.trans hans.symm
    obtain ⟨hinfra, rfl | rfl⟩ := href
    · obtain ⟨out', hres', hrec, -⟩ := (hs.images o ho c hc).image hinfra
      cases hres.symm.trans (resolve_of_resolves h hres')
      exact hrec
    · obtain ⟨t', r, hsub, hrun, hrec⟩ := (hs.images o ho c hc).tag hinfra
      exact hrec out ((resolve_of_returns h hsub hrun).symm.trans hres)
  | param host keys k sp p hhost hkeys hk hsp hp href =>
    obtain ⟨obs, fresh, now, keys', hs⟩ := hswept host hhost
    obtain ⟨_, hans⟩ := answered h _ hs.specs
    cases hkeys.symm.trans hans.symm
    obtain ⟨sp', hread, hdone⟩ := hs.params k hk
    obtain ⟨_, hspec⟩ := answered h _ hread
    cases hsp.symm.trans hspec.symm
    obtain ⟨himage, hval, hblank⟩ := href
    obtain ⟨s, hs', hout⟩ := hdone p hp himage
    cases hval.symm.trans hs'
    obtain ⟨out', hres', hrec⟩ := hout hblank
    cases hres.symm.trans (resolve_of_resolves h hres')
    exact hrec

end

theorem mem_digests_iff {cfg : Config} {set : InUseSet}
    (h : Exec F.service () (buildInUseSet u registryCatalog cfg) t () (.ret (set, none)))
    (hnorm : normalizeHosts u cfg.registryHosts = .ok ourHosts) (hcat : F.catalog = .ok repos)
    (d : String) : d ∈ set.digests ↔ F.Names u repos ourHosts d := by
  rcases buildInUseSet_cases h.returns with ⟨-, -, acc, hsweep, -, -, hset⟩ | ⟨-, -, _, hnone, -⟩
  swap
  · cases hnone
  obtain ⟨ourHosts', hosts, repos', tcat, hnorm', hhosts, hlist, hsub, hadds, hswept⟩ :=
    sweepFleet_ok hsweep
  cases hnorm.symm.trans hnorm'
  obtain ⟨_, hans⟩ := answered h _ hhosts
  cases hans
  obtain rfl := returns_perform.1 hlist
  obtain ⟨_, hrepos⟩ := answered h _ (hsub List.mem_cons_self)
  cases hcat.symm.trans hrepos.symm
  rw [hset]
  constructor
  · intro hd
    rcases hadds.origin d hd with hd | ⟨ref, out, ⟨host, hhost, href⟩, hres, hout, hne⟩
    · cases hd
    · exact ⟨ref, out, reference_of_refers h hhost href, resolve_of_resolves h hres, hout, hne⟩
  · rintro ⟨ref, out, href, hres, rfl, hne⟩
    exact recorded_of_reference h hswept href hres hne

end Fleet

/-! ## What a deploy pulls -/

section Recreate

variable (F : Fleet) (u : Unicode) (repos ourHosts : List String)

/-- Re-applying the spec stored on `host` under `k` pulls `ref`: its template exists, the body renders with the
spec's parameters and the defaults, and `ref` is one of its images. -/
def Repulls (eng : Engine) (templates : String → Option Template) (host : String) (k : SpecKey)
    (ref : String) : Prop :=
  host ∈ F.hosts ∧ ∃ keys sp tmpl images, F.specKeys host = .ok keys ∧ k ∈ keys ∧
    F.spec host k = .ok sp ∧ templates k.template = some tmpl ∧
    reapplyImages eng tmpl sp = .ok images ∧ ref ∈ images

/-- `ref` names a tag of a catalog repository under one of our hosts, and the tag points at `d`. -/
structure PointsAt (ref d : String) : Prop where
  tagged : (splitRef u ref).digest = ""
  ours : isOurHost u (hostComponent (splitRef u ref).name) ourHosts = true
  listed : (repoFromName u (splitRef u ref).name ourHosts).1 ∈ repos
  points : F.manifest (repoFromName u (splitRef u ref).name ourHosts).1
    (splitRef u ref).tagOrLatest = .ok d

/-- The set protects what re-applying a stored spec pulls from this registry if and only if each such digest is
also named by a container of the fleet or an image-named parameter of a stored spec: the template body counts for
nothing. -/
theorem recreatable_iff (F : Fleet) (u : Unicode) (repos ourHosts : List String) (eng : Engine)
    (templates : String → Option Template) (cfg : Config) (t : History) (set : InUseSet)
    (host : String) (k : SpecKey)
    (h : Exec F.service () (buildInUseSet u registryCatalog cfg) t () (.ret (set, none)))
    (hnorm : normalizeHosts u cfg.registryHosts = .ok ourHosts) (hcat : F.catalog = .ok repos) :
    (∀ ref d, Repulls F eng templates host k ref → PointsAt F u repos ourHosts ref d → set.has u d = true) ↔
    ∀ ref d, Repulls F eng templates host k ref → PointsAt F u repos ourHosts ref d →
      F.Names u repos ourHosts (u.lower (trimSpace d)) := by
  have hhas : ∀ d, set.has u d = true ↔ F.Names u repos ourHosts (u.lower (trimSpace d)) := by
    intro d
    unfold InUseSet.has
    rw [List.contains_iff_mem, Fleet.mem_digests_iff h hnorm hcat]
  simp only [hhas]

def exampleBody : String :=
  "apiVersion: v1\nkind: Pod\nspec:\n  containers:\n  - name: web\n" ++
    "    image: reg.example:5000/engine:1\n"

def exampleEngine : Engine where
  render body _ := .ok body
  yamlDocs body :=
    if body = exampleBody then
      [[("apiVersion", .str "v1"), ("kind", .str "Pod"), ("spec", .map [("containers", .seq
        [.map [("name", .str "web"), ("image", .str "reg.example:5000/engine:1")]])])]]
    else []

def exampleTemplate : Template where
  body := exampleBody
  metadata :=
    { id := "basic-web"
      parameters := [⟨"image", false, none⟩]
      perInstance := []
      perHostReferenced := []
      volumes := []
      ingress := none
      networks := []
      preBackup := none
      containerNames := some ["web"] }

/-- Whatever its image parameter says, re-applying the example spec pulls the image of the body. -/
theorem example_repulls (image repo : String) :
    Repulls (exampleFleet image repo) exampleEngine (fun _ => some exampleTemplate) "engine-1"
      ⟨"basic-web", "shop"⟩ "reg.example:5000/engine:1" := by
  refine ⟨List.mem_cons_self, _, _, _, ["reg.example:5000/engine:1"], rfl, List.mem_cons_self, rfl,
    rfl, ?_, List.mem_cons_self⟩
  have hrender : reapplyImages exampleEngine exampleTemplate (exampleSpec image) =
      .ok (containerImages exampleEngine exampleBody) := rfl
  rw [hrender]
  exact congrArg _ (by decide +kernel)

theorem example_pointsAt (image : String) :
    PointsAt (exampleFleet image "engine") .ascii ["engine"] ["reg.example:5000"]
      "reg.example:5000/engine:1" exampleTagDigest where
  tagged := by decide +kernel
  ours := by decide +kernel
  listed := by decide +kernel
  points := rfl

theorem example_normalizeHosts : normalizeHosts .ascii exampleConfig.registryHosts = .ok ["reg.example:5000"] := by
  decide +kernel

/-- A spec whose image parameter names the tag its template pulls keeps that tag's digest. -/
theorem recreatable_iff_example : (exampleRun "engine:1" "engine").1.1.has .ascii exampleTagDigest = true := by
  have hnone : (exampleRun "engine:1" "engine").1.2 = none := by decide +kernel
  have hrun := exampleRun_exec "engine:1" "engine"
  rw [hnone] at hrun
  refine (recreatable_iff (exampleFleet "engine:1" "engine") .ascii ["engine"] ["reg.example:5000"]
    exampleEngine (fun _ => some exampleTemplate) exampleConfig _ _ "engine-1"
    ⟨"basic-web", "shop"⟩ hrun example_normalizeHosts rfl).2 ?_ _ _
    (example_repulls "engine:1" "engine") (example_pointsAt "engine:1")
  rintro ref d - hd
  obtain rfl : exampleTagDigest = d := Except.ok.inj hd.points
  refine ⟨"engine:1", { digest := exampleTagDigest, covered := true }, ?_, ?_, ?_, ?_⟩
  · exact .param "engine-1" _ ⟨"basic-web", "shop"⟩ _ ("image", .string "engine:1")
      List.mem_cons_self rfl List.mem_cons_self rfl List.mem_cons_self
      ⟨by decide +kernel, rfl, by decide +kernel⟩
  · decide +kernel
  · decide +kernel
  · decide +kernel

/-- The image is written in the template body and no parameter names it: the set is valid, and the
digest that re-applying the spec needs is not in it. -/
theorem literal_image_unprotected : ∃ t set, Exec (exampleFleet examplePinned "engine").service ()
        (buildInUseSet .ascii registryCatalog exampleConfig) t () (.ret (set, none)) ∧ set.valid = true ∧
      Repulls (exampleFleet examplePinned "engine") exampleEngine (fun _ => some exampleTemplate)
        "engine-1" ⟨"basic-web", "shop"⟩ "reg.example:5000/engine:1" ∧
      PointsAt (exampleFleet examplePinned "engine") .ascii ["engine"] ["reg.example:5000"]
        "reg.example:5000/engine:1" exampleTagDigest ∧ set.has .ascii exampleTagDigest = false := by
  obtain ⟨hvalid, hnone, hhas⟩ : (exampleRun examplePinned "engine").1.1.valid = true ∧
      (exampleRun examplePinned "engine").1.2 = none ∧
      (exampleRun examplePinned "engine").1.1.has .ascii exampleTagDigest = false := by
    decide +kernel
  have hrun := exampleRun_exec examplePinned "engine"
  rw [hnone] at hrun
  exact ⟨_, _, hrun, hvalid, example_repulls _ _, example_pointsAt _, hhas⟩

end Recreate

end PodmanApi.RegistryPrune

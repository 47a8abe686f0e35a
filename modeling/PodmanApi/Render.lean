/-
# PodmanApi.Render — from a stored spec to the images a deploy pulls.

The pure functions of `internal/render` and `internal/instance/images.go` on the way from a template and its
parameters to a pod, and the check of a template's volume declarations. Executing a Go template and decoding
YAML are third-party code; every theorem over `Engine` holds for every template language and decoder.
-/
import PodmanApi.Data

namespace PodmanApi.Render

open GoStd

/-- A decoded YAML node, as far as anything inspects it. -/
inductive Yaml where
  | str (s : String)
  | seq (items : List Yaml)
  | map (fields : List (String × Yaml))
  | other

structure Engine where
  /-- `render.RenderAndValidate`: execute the body with the parameters, or fail -/
  render : String → GoMap Value → Except Error String
  /-- the documents `yaml.Decoder` yields before its first error -/
  yamlDocs : String → List (GoMap Yaml)

/-! ## Parameters -/

def applyDefaults (m : Meta) (params : GoMap Value) : GoMap Value :=
  m.parameters.foldl (fun out p =>
    match p.default with
    | some v => if GoMap.has out p.name then out else out ++ [(p.name, v)]
    | none => out) params

/-- The pin of `applyLocked`: a `slug` parameter always is the instance's slug. -/
def pinSlug (slug : String) (params : GoMap Value) : GoMap Value :=
  if GoMap.has params "slug" then GoMap.set params "slug" (.string slug) else params

def fillDefault (out : GoMap Value) (p : ParamDef) : GoMap Value :=
  match p.default with
  | some v => if GoMap.has out p.name then out else out ++ [(p.name, v)]
  | none => out

theorem applyDefaults_eq (m : Meta) (params : GoMap Value) :
    applyDefaults m params = m.parameters.foldl fillDefault params := rfl

theorem fillDefault_cases (params : GoMap Value) (p : ParamDef) :
    (fillDefault params p = params ∧ (p.default.isSome = true → GoMap.has params p.name = true)) ∨
      params.length < (fillDefault params p).length := by
  unfold fillDefault
  cases p.default with
  | none => exact .inl ⟨rfl, nofun⟩
  | some v =>
    dsimp only
    split
    · rename_i h
      exact .inl ⟨rfl, fun _ => h⟩
    · exact .inr (by simp)

theorem length_fillDefaults (ps : List ParamDef) (params : GoMap Value) :
    params.length ≤ (ps.foldl fillDefault params).length := by
  induction ps generalizing params with
  | nil => exact Nat.le_refl _
  | cons p ps ih =>
    have hrest := ih (fillDefault params p)
    rw [List.foldl_cons]
    rcases fillDefault_cases params p with ⟨hsame, -⟩ | hlonger
    · rwa [hsame] at hrest ⊢
    · omega

theorem fillDefaults_same {ps : List ParamDef} {params : GoMap Value}
    (h : (ps.foldl fillDefault params).length = params.length) : ps.foldl fillDefault params = params ∧
      ∀ p ∈ ps, p.default.isSome = true → GoMap.has params p.name = true := by
  induction ps with
  | nil => exact ⟨rfl, nofun⟩
  | cons p ps ih =>
    rw [List.foldl_cons] at h ⊢
    rcases fillDefault_cases params p with ⟨hsame, hgiven⟩ | hlonger
    · rw [hsame] at h ⊢
      obtain ⟨heq, hrest⟩ := ih h
      refine ⟨heq, fun q hq => ?_⟩
      rcases List.mem_cons.1 hq with rfl | hq
      · exact hgiven
      · exact hrest q hq
    · have hmore := length_fillDefaults ps (fillDefault params p)
      omega

theorem fillDefaults_given {ps : List ParamDef} {params : GoMap Value}
    (h : ∀ p ∈ ps, p.default.isSome = true → GoMap.has params p.name = true) :
    ps.foldl fillDefault params = params := by
  induction ps with
  | nil => rfl
  | cons p ps ih =>
    have hfirst : fillDefault params p = params := by
      unfold fillDefault
      cases hdefault : p.default with
      | none => rfl
      | some v =>
        dsimp only
        rw [if_pos (h p List.mem_cons_self (by rw [hdefault]; rfl))]
    rw [List.foldl_cons, hfirst]
    exact ih fun q hq => h q (List.mem_cons_of_mem _ hq)

theorem length_pinSlug (slug : String) (params : GoMap Value) : (pinSlug slug params).length = params.length := by
  unfold pinSlug
  split
  · rename_i h
    exact GoMap.length_set _ h
  · rfl

theorem applied_params_iff (m : Meta) (slug : String) (params : GoMap Value) :
    pinSlug slug (applyDefaults m (GoMap.set params "slug" (.string slug))) =
        GoMap.set params "slug" (.string slug) ↔ ∀ p ∈ m.parameters, p.default.isSome = true →
        GoMap.has (GoMap.set params "slug" (.string slug)) p.name = true := by
  have hpinned : pinSlug slug (GoMap.set params "slug" (.string slug)) =
      GoMap.set params "slug" (.string slug) := by
    unfold pinSlug
    rw [if_pos (GoMap.has_set _ _ _), GoMap.set_set]
  rw [applyDefaults_eq]
  constructor
  · intro h
    have hlength := congrArg List.length h
    rw [length_pinSlug] at hlength
    exact (fillDefaults_same hlength).2
  · intro h
    rw [fillDefaults_given h, hpinned]

/-- The problems `render.Validate` collects, before it sorts them. -/
def contractProblems (m : Meta) (params : GoMap Value) (secrets : GoMap String)
    (allowMissingSecrets : Bool) : List String :=
  ((m.parameters.filter fun p => p.required && !GoMap.has params p.name).map fun p =>
      "missing required parameter " ++ quote p.name) ++
    ((GoMap.keys params).filter fun k => !m.parameters.any fun p => p.name == k).map
      (fun k => "unknown parameter " ++ quote k) ++
    (if allowMissingSecrets then []
      else (m.perInstance.filter fun k => !GoMap.has secrets k).map fun k =>
        "missing required secret " ++ quote k) ++
    ((GoMap.keys secrets).filter fun k => !m.perInstance.contains k).map
      (fun k => "unknown secret " ++ quote k)

def validate (m : Meta) (params : GoMap Value) (secrets : GoMap String)
    (allowMissingSecrets : Bool) : Except Error Unit :=
  match contractProblems m params secrets allowMissingSecrets with
  | [] => .ok ()
  | problems => .error (.wrap "" (.sentinel .invalidParameters)
      (": " ++ join (sortStrings problems) "; "))

/-! ## Images -/

/-- The `image` of one container node; a missing, empty or non-string one counts for nothing. -/
def containerImage : Yaml → Option String
  | .map fields =>
    match GoMap.get? fields "image" with
    | some (.str img) => if img = "" then none else some img
    | _ => none
  | _ => none

/-- The images of one document, if it is a Pod. -/
def podImages (doc : GoMap Yaml) : List String :=
  match GoMap.get? doc "kind", GoMap.get? doc "spec" with
  | some (.str "Pod"), some (.map spec) =>
    ["containers", "initContainers"].flatMap fun key =>
      match GoMap.get? spec key with
      | some (.seq cs) => cs.filterMap containerImage
      | _ => []
  | _, _ => []

/-- `containerImages`: each image once, in first-seen order. -/
def containerImages (eng : Engine) (body : String) : List String :=
  ((eng.yamlDocs body).flatMap podImages).eraseDups

/-- The images a deploy of `sp` from `tmpl` pulls, when its body renders. -/
def reapplyImages (eng : Engine) (tmpl : Template) (sp : Spec) : Except Error (List String) :=
  (eng.render tmpl.body (pinSlug sp.slug (applyDefaults tmpl.metadata sp.parameters))).map
    (containerImages eng)

/-! ## Volume declarations -/

def isBackupMarkerNone (u : Unicode) (marker : String) : Bool :=
  u.equalFold (trimSpace marker) "none"

def validateLiveBackup : Option LiveBackup → Except Error Unit
  | none => .ok ()
  | some lb =>
    if lb.container == "" then .error (.text "live_backup: container is required")
    else if lb.backupExec.isEmpty then .error (.text "live_backup: backup_exec is required")
    else if lb.outputPath == "" then .error (.text "live_backup: output_path is required")
    else if lb.restoreExec.isEmpty then .error (.text "live_backup: restore_exec is required")
    else if lb.restoreStagePath == "" then .error (.text "live_backup: restore_stage_path is required")
    else if (lb.preExec ++ lb.backupExec ++ lb.postExec ++ lb.restoreExec ++ lb.restorePreExec ++
        lb.restorePostExec).contains "" then
      .error (.text "live_backup: exec argv contains an empty element")
    else .ok ()

/-- The stem of a `/**` pattern that matches everything the pattern matches. -/
def swallowingStem (p : String) : Option String :=
  (cutSuffix p "/**").filter fun stem =>
    (split stem '/').contains "**" && ["*", "**"].contains ((split stem '/').getLastD "")

/-- The checks of one exclude pattern; `valid` is `doublestar.ValidatePattern`. -/
def validateExclude (valid : String → Bool) (volume p : String) : Except Error Unit :=
  let complain := fun text => Except.error (Err.text ("template-meta: volume " ++ quote volume ++ ": " ++
    text))
  if trimSpace p == "" then complain "exclude pattern must not be empty"
  else if hasPrefix p "/" then
    complain ("exclude pattern " ++ quote p ++ " must be relative to the volume root")
  else if (split p '/').contains ".." then
    complain ("exclude pattern " ++ quote p ++ " must not contain a \"..\" segment")
  else if pathClean p != p then
    complain ("exclude pattern " ++ quote p ++ " is not clean (did you mean " ++ quote (pathClean p) ++
      "?); it would never match a path.Clean'ed tar entry name")
  else match swallowingStem p with
    | some stem => complain ("exclude pattern " ++ quote p ++ ": the \"/**\"-stripped prefix " ++
        quote stem ++ " matches everything the pattern matches, so the zero-segment rescue swallows" ++
        " the whole pattern and it never drops anything")
    | none => if valid p then .ok () else complain ("invalid pattern " ++ quote p)

/-- The checks of one volume. `stored` is the marker the row being edited has for it, if any. -/
def validateVolume (u : Unicode) (valid : String → Bool) (stored : Option String) (v : Volume) :
    Except Error Unit := do
  if isBackupMarkerNone u v.backup && v.backup != "none" && stored.getD "" != v.backup then
    throw (.text ("template-meta: volume " ++ quote v.name ++ ": backup marker " ++ quote v.backup ++
      " is not the veto literal — it must be exactly \"none\" (lowercase, no surrounding whitespace);" ++
      " as written it is still read as the veto, but only because every consumer folds case, and the" ++
      " stored text says something the marker grammar does not define"))
  v.exclude.forM (validateExclude valid v.name)
  (validateLiveBackup v.liveBackup).mapError fun e =>
    .wrap ("template-meta: volume " ++ quote v.name ++ ": ") e ""

def validateVolumes (u : Unicode) (valid : String → Bool) (m : Meta) (stored : Option Meta) : Except Error Unit :=
  let markers := ((stored.map (·.volumes)).getD []).foldl
    (fun out v => GoMap.set out v.name v.backup) []
  m.volumes.forM fun v => validateVolume u valid (GoMap.get? markers v.name) v

end PodmanApi.Render

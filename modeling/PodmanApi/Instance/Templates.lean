/-
# PodmanApi.Instance.Templates — the catalog of templates.

`CreateTemplate`, `UpdateTemplate`, `CloneTemplate` and `DeleteTemplate` of `internal/instance/templates.go`. The
four differ in what they look at: an edit scans the claims of the instances when its own networks or container
names change, an unforced deletion scans the rows, and a new template is looked at alone.

What registration reads of the parameters and of a rendered body is left to `Authoring`. The counts of
references that only feed a log line are left out.
-/
import PodmanApi.Instance.Apply

namespace PodmanApi.Instance

open GoStd Calls

/-! ## Validation -/

/-- What registration asks of a template beyond the fields modelled here. -/
structure Authoring where
  /-- `render.NormalizeParams`: the type of every parameter is known -/
  normalizeParams : Meta → Except Error Unit
  /-- `render.ValidateParamDefs` -/
  validateParamDefs : Meta → Except Error Unit
  /-- whether an exclude pattern compiles -/
  validPattern : String → Bool
  /-- `dummyParams` -/
  dummyParams : Meta → GoMap Value
  /-- `checkIngressContainer`: the rendered pod has a container of this name -/
  checkIngressContainer : String → String → Except Error Unit

def plainAuthoring : Authoring where
  normalizeParams _ := .ok ()
  validateParamDefs _ := .ok ()
  validPattern _ := true
  dummyParams _ := []
  checkIngressContainer _ _ := .ok ()

/-- `ErrInvalidTemplate` with what is wrong. -/
def invalidTemplate (e : Error) : Error :=
  .wrap "" (.sentinel .invalidTemplate) (": " ++ Error.string e)

def validateIngressMeta : Option Ingress → Except Error Unit
  | none => .ok ()
  | some ing =>
    if ing.container = "" then .error (.text "template-meta: ingress.container is required")
    else if ing.port ≤ 0 ∨ 65535 < ing.port then
      .error (.text ("template-meta: ingress.port " ++ toString ing.port ++ " out of range"))
    else .ok ()

/-- The complaint of `render.ValidateAliasesAgainstContainerNames`: an alias that repeats a container name. -/
def redundantAlias (m : Meta) (containers : List String) : Option Error :=
  m.networks.findSome? fun n => (n.aliases.find? fun a => containers.contains a).map fun a =>
    .text ("template-meta: networks: " ++ quote n.name ++ ": alias " ++ quote a ++
      " is already a container name in this template — podman registers every container name as an alias" ++
      " on each joined network, so the declaration is redundant and the pod answers to " ++ quote a ++
      " with or without it")

/-- `networksChanged`; the order of networks and of aliases does not count. -/
def networksChanged (old new : List Network) : Bool :=
  if old.length != new.length then true
  else
    let set := old.foldl (fun m n => GoMap.set m n.name n.aliases) []
    new.any fun n =>
      match GoMap.get? set n.name with
      | none => true
      | some was => was.length != n.aliases.length || n.aliases.any fun a => !was.contains a

def zeroTemplate : Template where
  metadata := ⟨"", [], [], [], [], none, [], none, none⟩
  body := ""

def withTemplates {α : Type} (x : Task α) : Task α :=
  Act.lift (do
    let _ ← issue .lockTemplates
    let r ← x.run
    let _ ← issue .unlockTemplates
    pure r)

namespace Service

variable (s : Service)

/-- `setContainerNames`: the names are derived from the body, whatever the submission says. -/
def setContainerNames (t : Template) : Template :=
  { t with metadata := { t.metadata with containerNames := (s.containerNames t.body t.metadata).toOption } }

/-- `validateTemplate`; `stored` is the row that an edit replaces. -/
def validateTemplate (a : Authoring) (t : Template) (stored : Option Template) : Except Error Unit := do
  if !validName t.metadata.id then
    throw (.wrap "" (.sentinel .invalidTemplate) (": id " ++ quote t.metadata.id ++
      " must match ^[a-z0-9][a-z0-9-]\x7b0,38\x7d[a-z0-9]$"))
  (a.validateParamDefs t.metadata).mapError invalidTemplate
  (validateIngressMeta t.metadata.ingress).mapError invalidTemplate
  (validateNetworkList t.metadata.networks "template-meta: networks").mapError invalidTemplate
  (Render.validateVolumes s.unicode a.validPattern t.metadata (stored.map (·.metadata))).mapError
    invalidTemplate
  let rendered ← (s.renderBody t.body (a.dummyParams t.metadata)).mapError fun e =>
    .wrap "" (.sentinel .invalidTemplate) (": body: " ++ Error.string e)
  match t.metadata.ingress with
  | some ing => (a.checkIngressContainer rendered ing.container).mapError invalidTemplate
  | none => pure ()
  match s.containerNames t.body t.metadata with
  | .ok literal =>
    match redundantAlias t.metadata literal with
    | some e => throw (invalidTemplate e)
    | none => pure ()
  -- a body that cannot be read has no names to repeat
  | .error _ => pure ()

/-! ## The conflict check of an edit -/

/-- The first clash of an instance of the edited template with another one of its host. -/
def templateConflict (id : String) (claims : List NetClaim) : Option Error :=
  (claims.filter (·.template == id)).findSome? fun c =>
    firstNameConflictFor c (excluding claims c.template [c.slug])

/-- One round of `checkTemplateNetworkConflicts`. -/
def checkHostConflicts (t : Template) (host : String) : Task PUnit := do
  let claims ← Act.mapErr
    (fun e => .wrap ("networks: check alias uniqueness on " ++ host ++ ": ") e "")
    (s.hostClaims host [(t.metadata.id, s.metaWithContainerNames t)])
  match templateConflict t.metadata.id claims with
  | none => pure ⟨⟩
  | some e => throw (.wrap "" e (" on " ++ host))

/-- `checkTemplateNetworkConflicts`: every host that is configured. -/
def checkTemplateNetworkConflicts (t : Template) : Task PUnit :=
  forM (GoMap.keys s.hosts) (s.checkHostConflicts t)

end Service

/-! ## The operations -/

def getTemplate (id : String) : Task Template := do
  match ← ask (.getTemplate id) with
  | .ok t => pure t
  | .error e =>
    throw (if e.is .storeNotFound then .sentinel .unknownTemplate
      else .wrap ("get template " ++ quote id ++ ": ") e "")

def requireFreeId (id : String) : Task Unit := do
  match ← Act.attempt (getTemplate id) with
  | .ok _ => throw (.wrap "" (.sentinel .templateExists) (": " ++ id))
  | .error e => if e.is .unknownTemplate then pure () else throw e

def requireUnused (id host : String) : Task PUnit := do
  let keys ← Act.lift (issue (.listSpecKeys host))
  match keys.find? (·.template == id) with
  | some k => throw (.wrap "" (.sentinel .templateInUse) (": " ++ id ++ "/" ++ k.slug ++ " on " ++ host))
  | none => pure ⟨⟩

namespace Service

variable (s : Service) (a : Authoring)

/-- `CreateTemplate`. The rows that name the id already are not looked at. -/
def createTemplate (t : Template) : Task Unit :=
  withTemplates do
    Act.mapErr invalidTemplate (Act.lift (pure (a.normalizeParams t.metadata)))
    let t := s.setContainerNames t
    Act.lift (pure (s.validateTemplate a t none))
    requireFreeId t.metadata.id
    Act.lift (issue (.putTemplate t))

/-- Whether an edit is checked for conflicts: its networks or its container names change. -/
def rechecksNames (existing t : Template) : Bool :=
  networksChanged existing.metadata.networks t.metadata.networks ||
    (s.metaWithContainerNames existing).containerNames.getD [] != t.metadata.containerNames.getD []

def recheckNames (existing t : Template) : Task PUnit :=
  if s.rechecksNames existing t then Act.mapErr invalidTemplate (s.checkTemplateNetworkConflicts t)
  else pure ⟨⟩

/-- `UpdateTemplate` of a row that has been read. -/
def replaceTemplate (existing t : Template) : Task Unit := do
  s.recheckNames existing t
  Act.lift (issue (.putTemplate t))

/-- `UpdateTemplate`. A missing row is reported after what is wrong with the submission. -/
def updateTemplate (t : Template) : Task Unit :=
  withTemplates do
    Act.mapErr invalidTemplate (Act.lift (pure (a.normalizeParams t.metadata)))
    let t := s.setContainerNames t
    match ← Act.attempt (getTemplate t.metadata.id) with
    | .ok existing =>
      Act.lift (pure (s.validateTemplate a t (some existing)))
      s.replaceTemplate existing t
    | .error e =>
      Act.require (e.is .unknownTemplate) e
      Act.lift (pure (s.validateTemplate a t (some zeroTemplate)))
      throw e

def cloneTemplate (srcID newID : String) : Task Template :=
  withTemplates do
    let src ← getTemplate srcID
    let cl : Template := { src with metadata := { src.metadata with id := newID } }
    Act.mapErr invalidTemplate (Act.lift (pure (a.normalizeParams cl.metadata)))
    Act.lift (pure (s.validateTemplate a cl (some src)))
    requireFreeId newID
    Act.lift (issue (.putTemplate (s.setContainerNames cl)))
    getTemplate newID

def requireReleased (id : String) (force : Bool) : Task PUnit :=
  if force then pure ⟨⟩ else forM (GoMap.keys s.hosts) (requireUnused id)

def deleteTemplate (id : String) (force : Bool) : Task Unit :=
  withTemplates do
    let _ ← getTemplate id
    s.requireReleased id force
    Act.lift (issue (.deleteTemplate id))

end Service

/-! ## Footprints -/

inductive Cataloging : Op → Prop where
  | checking {op : Op} (h : Checking op) : Cataloging op
  | putTemplate (t : Template) : Cataloging (.putTemplate t)
  | lock : Cataloging .lockTemplates
  | unlock : Cataloging .unlockTemplates

section Footprints

variable {s : Service} {a : Authoring} {U : Op → Prop}

theorem issues_withTemplates {α : Type} {x : Task α} (hl : U .lockTemplates) (hu : U .unlockTemplates)
    (hx : x.run.Issues U) : (withTemplates x).run.Issues U := by
  refine .bind (issues_perform.2 hl) fun _ => hx.bind fun r => ?_
  exact .bind (issues_perform.2 hu) fun _ => issues_ret r

variable {t : Template} {id : String}

theorem getTemplate_issues (h : U (.getTemplate id)) : (getTemplate id).run.Issues U :=
  (issues_ask h).cases (fun _ => issues_ret _) fun _ => issues_ret _

theorem requireFreeId_issues (h : U (.getTemplate id)) : (requireFreeId id).run.Issues U :=
  (getTemplate_issues h).attempt.cases (fun _ => issues_throw) fun _ => issues_pure_or_throw

section

variable (hl : U .lockTemplates) (hu : U .unlockTemplates)

include hl hu

theorem createTemplate_issues
    (hget : ∀ id, U (.getTemplate id)) (hput : ∀ new : Template, new.metadata.id = t.metadata.id → U (.putTemplate new)) :
    (s.createTemplate a t).run.Issues U := by
  refine issues_withTemplates hl hu ?_
  refine issues_lift_pure.mapErr.andThen fun _ => issues_lift_pure.andThen fun _ => ?_
  exact (requireFreeId_issues (hget _)).andThen fun _ => issues_perform.2 (hput _ rfl)

theorem cloneTemplate_issues {srcID newID : String}
    (hget : ∀ id, U (.getTemplate id)) (hput : ∀ new : Template, new.metadata.id = newID → U (.putTemplate new)) :
    (s.cloneTemplate a srcID newID).run.Issues U := by
  refine issues_withTemplates hl hu ?_
  refine (getTemplate_issues (hget _)).andThen fun src => ?_
  refine issues_lift_pure.mapErr.andThen fun _ => issues_lift_pure.andThen fun _ => ?_
  refine (requireFreeId_issues (hget _)).andThen fun _ => ?_
  exact .andThen (issues_perform.2 (hput _ rfl)) fun _ => getTemplate_issues (hget _)

theorem deleteTemplate_issues {force : Bool}
    (hget : U (.getTemplate id)) (hlist : ∀ host, U (.listSpecKeys host)) (hdelete : U (.deleteTemplate id)) :
    (s.deleteTemplate id force).run.Issues U := by
  refine issues_withTemplates hl hu ((getTemplate_issues hget).andThen fun _ => .andThen ?_ fun _ => ?_)
  · unfold Service.requireReleased
    split
    · exact issues_pure
    · refine issues_forM _ fun host _ => ?_
      refine .andThen (issues_perform.2 (hlist host)) fun keys => ?_
      split <;> exact issues_ret _
  · exact issues_perform.2 hdelete

end

theorem checkTemplateNetworkConflicts_issues : (s.checkTemplateNetworkConflicts t).run.Issues Checking := by
  refine issues_forM _ fun host _ => ?_
  refine (hostClaims_issues _).mapErr.andThen fun claims => ?_
  split <;> exact issues_ret _

theorem replaceTemplate_issues {existing : Template} : (s.replaceTemplate existing t).run.Issues Cataloging := by
  refine .andThen ?_ fun _ => issues_perform.2 (.putTemplate t)
  unfold Service.recheckNames
  split
  · exact (checkTemplateNetworkConflicts_issues.mono fun _ h => .checking h).mapErr
  · exact issues_pure

theorem updateTemplate_issues : (s.updateTemplate a t).run.Issues Cataloging := by
  refine issues_withTemplates .lock .unlock ?_
  refine issues_lift_pure.mapErr.andThen fun _ => ?_
  refine (getTemplate_issues (.checking (.getTemplate _))).attempt.andThen fun found => ?_
  split
  · exact issues_lift_pure.andThen fun _ => replaceTemplate_issues
  · exact issues_require.andThen fun _ => issues_lift_pure.andThen fun _ => issues_throw

end Footprints

end PodmanApi.Instance

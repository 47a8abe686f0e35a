/-
# PodmanApi.Instance.Durable — what survives a crash of the service.

`stored` keeps the rows of the state store and the blobs of the blob store: a write that reports an error has
changed nothing, since each is one SQL statement, and everything the store does not decide may answer anything.
`note` folds the answered calls of a run into the three facts that decide what a failed or interrupted
operation leaves behind.
-/
import PodmanApi.Store
import PodmanApi.Instance.Restore

namespace PodmanApi.Instance

open GoStd Calls

/-! ## The durable state -/

structure Durable where
  rows : Rows
  backups : String → Option Backup
  blobs : String → Option Bytes

namespace Durable

def put (w : Durable) (sp : Spec) : Durable :=
  { w with rows := w.rows.put sp }

def erase (w : Durable) (k : SpecId) : Durable :=
  { w with rows := w.rows.erase k }

end Durable

def Failed {α : Type} (r : Except Error α) : Prop :=
  ∃ e, r = .error e

/-- The durable state as a service. `unreliable` says whether a call on a spec row may fail. -/
def stored (unreliable : Prop) : Calls.Service calls Durable
  | w, .getSpec host tmpl slug, r, w' =>
    w' = w ∧ (r = found .storeNotFound (w.rows.get ⟨host, tmpl, slug⟩) ∨ unreliable ∧ Failed r)
  | w, .putSpec sp, r, w' =>
    r = .ok () ∧ w' = w.put sp ∨ w' = w ∧ unreliable ∧ Failed r
  | w, .deleteSpec host tmpl slug, r, w' =>
    r = .ok () ∧ (w.rows.get ⟨host, tmpl, slug⟩).isSome = true ∧ w' = w.erase ⟨host, tmpl, slug⟩ ∨
      w' = w ∧ (r = .error (.sentinel .storeNotFound) ∧ w.rows.get ⟨host, tmpl, slug⟩ = none ∨
        unreliable ∧ Failed r)
  | w, .getBackup id, r, w' => w' = w ∧ (r = found .storeNotFound (w.backups id) ∨ Failed r)
  | w, .blobGet key, r, w' => w' = w ∧ (r = found .fileNotExist (w.blobs key) ∨ Failed r)
  | w, _, _, w' => w' = w

/-! ## What a history says about the row -/

/-- What the answered calls of a run amount to, for one instance. -/
structure Noted where
  /-- the row has been deleted and not written again -/
  torn : Bool := false
  /-- an ingress refresh failed while the row was gone -/
  stranded : Bool := false
  /-- the secrets created so far, name and payload -/
  created : List (String × String) := []
  deriving DecidableEq, Repr

def note (n : Noted) : Event calls → Noted
  | ⟨.deleteSpec _ _ _, .ok _⟩ => { n with torn := true }
  | ⟨.putSpec _, .ok _⟩ => { n with torn := false }
  | ⟨.reconcile _, .error _⟩ => { n with stranded := n.stranded || n.torn }
  | ⟨.secretCreate _ name value, .ok _⟩ => { n with created := n.created ++ [(name, value)] }
  | _ => n

/-- The calls that neither change the durable state nor are noted. -/
def Quiet : Op → Prop
  | .putSpec _ | .deleteSpec _ _ _ | .reconcile _ | .secretCreate _ _ _ => False
  | _ => True

/-- The durable state together with what is noted of the run. -/
abbrev noting (unreliable : Prop) : Calls.Service calls (Durable × Noted) :=
  folded (stored unreliable) note

section Steps

variable {unreliable : Prop} {x x' : Durable × Noted}

theorem quiet_step {op : Op} {r : op.Ans} (h : noting unreliable x op r x') (hq : Quiet op) : x' = x := by
  obtain ⟨hw, hn⟩ := h
  cases op with
  | putSpec | deleteSpec | reconcile | secretCreate => exact hq.elim
  | getSpec | getBackup | blobGet => exact Prod.ext hw.1 hn
  | _ => exact Prod.ext hw hn

theorem lock_step {m : Mutex} {r : Unit} (h : noting unreliable x (.lock m) r x') : x' = x :=
  quiet_step h trivial

theorem unlock_step {m : Mutex} {r : Unit} (h : noting unreliable x (.unlock m) r x') : x' = x :=
  quiet_step h trivial

variable {r : Except Error Unit} {host : String}

theorem getSpec_step {tmpl slug : String} {r : Except Error Spec}
    (h : noting unreliable x (.getSpec host tmpl slug) r x') :
    x' = x ∧ ∀ sp, r = .ok sp → x.1.rows.get ⟨host, tmpl, slug⟩ = some sp := by
  refine ⟨quiet_step h trivial, fun sp hr => ?_⟩
  subst hr
  obtain ⟨⟨-, hsp | ⟨-, e, he⟩⟩, -⟩ := h
  · exact found_eq_ok.1 hsp.symm
  · cases he

theorem getBackup_step {id : String} {r : Except Error Backup} (h : noting unreliable x (.getBackup id) r x') :
    x' = x ∧ ∀ b, r = .ok b → x.1.backups id = some b := by
  refine ⟨quiet_step h trivial, fun b hr => ?_⟩
  subst hr
  obtain ⟨⟨-, hb | ⟨e, he⟩⟩, -⟩ := h
  · exact found_eq_ok.1 hb.symm
  · cases he

theorem putSpec_step {sp : Spec} (h : noting unreliable x (.putSpec sp) r x') :
    r = .ok () ∧ x' = (x.1.put sp, { x.2 with torn := false }) ∨ x' = x ∧ unreliable ∧ Failed r := by
  obtain ⟨⟨rfl, hw⟩ | ⟨hw, hu, e, rfl⟩, hn⟩ := h
  · exact .inl ⟨rfl, Prod.ext hw hn⟩
  · exact .inr ⟨Prod.ext hw hn, hu, e, rfl⟩

theorem deleteSpec_step {tmpl slug : String} (h : noting unreliable x (.deleteSpec host tmpl slug) r x') :
    r = .ok () ∧ (x.1.rows.get ⟨host, tmpl, slug⟩).isSome = true ∧
        x' = (x.1.erase ⟨host, tmpl, slug⟩, { x.2 with torn := true }) ∨
      x' = x ∧ (r = .error (.sentinel .storeNotFound) ∧ x.1.rows.get ⟨host, tmpl, slug⟩ = none ∨
        unreliable ∧ Failed r) := by
  obtain ⟨⟨rfl, hrow, hw⟩ | ⟨hw, ⟨rfl, hrow⟩ | ⟨hu, e, rfl⟩⟩, hn⟩ := h
  · exact .inl ⟨rfl, hrow, Prod.ext hw hn⟩
  · exact .inr ⟨Prod.ext hw hn, .inl ⟨rfl, hrow⟩⟩
  · exact .inr ⟨Prod.ext hw hn, .inr ⟨hu, e, rfl⟩⟩

theorem reconcile_step (h : noting unreliable x (.reconcile host) r x') : r = .ok () ∧ x' = x ∨
      Failed r ∧ x' = (x.1, { x.2 with stranded := x.2.stranded || x.2.torn }) := by
  obtain ⟨hw, hn⟩ := h
  cases r with
  | ok a => exact .inl ⟨rfl, Prod.ext hw hn⟩
  | error e => exact .inr ⟨⟨e, rfl⟩, Prod.ext hw hn⟩

theorem secretCreate_step {name value : String} (h : noting unreliable x (.secretCreate host name value) r x') :
    r = .ok () ∧ x' = (x.1, { x.2 with created := x.2.created ++ [(name, value)] }) ∨
      Failed r ∧ x' = x := by
  obtain ⟨hw, hn⟩ := h
  cases r with
  | ok a => exact .inl ⟨rfl, Prod.ext hw hn⟩
  | error e => exact .inr ⟨⟨e, rfl⟩, Prod.ext hw hn⟩

end Steps

end PodmanApi.Instance

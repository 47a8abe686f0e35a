/-
# PodmanApi.Store — the table of spec rows.

`internal/store` keeps one row per (host, template, slug). The table is a list of rows whose keys are
distinct; the list order is the order a listing happens to return.
-/
import PodmanApi.Data

namespace PodmanApi

structure Rows where
  list : List Spec
  nodup : (list.map Spec.id).Nodup

namespace Rows

variable (rows : Rows)

def get (k : SpecId) : Option Spec :=
  rows.list.find? (·.id = k)

def erase (k : SpecId) : Rows where
  list := rows.list.filter (·.id ≠ k)
  nodup := rows.nodup.sublist (List.filter_sublist.map Spec.id)

def put (sp : Spec) : Rows where
  list := sp :: (rows.erase sp.id).list
  nodup := by
    rw [List.map_cons, List.nodup_cons]
    refine ⟨fun hmem => ?_, (rows.erase sp.id).nodup⟩
    obtain ⟨other, hother, hid⟩ := List.mem_map.1 hmem
    simp [erase, hid] at hother

def keys (host : String) : List SpecKey :=
  (rows.list.filter (·.host = host)).map fun sp => ⟨sp.template, sp.slug⟩

def networks (host : String) : List SpecNetworks :=
  (rows.list.filter (·.host = host)).map fun sp => ⟨sp.template, sp.slug, sp.appliedNetworks⟩

variable {rows}

variable {sp : Spec} {k : SpecId}

theorem keyed (h : rows.get k = some sp) : sp.id = k := by
  simpa using List.find?_some h

theorem mem_of_get (h : rows.get k = some sp) : sp ∈ rows.list :=
  List.mem_of_find?_eq_some h

@[simp]
theorem get_erase (k j : SpecId) : (rows.erase k).get j = if j = k then none else rows.get j := by
  unfold get erase
  rw [List.find?_filter]
  by_cases hj : j = k
  · subst hj
    rw [if_pos rfl, List.find?_eq_none]
    intro sp _ hsp
    simp at hsp
  · rw [if_neg hj]
    congr 1
    funext sp
    by_cases hsp : sp.id = j
    · simp [hsp, hj]
    · simp [hsp]

@[simp]
theorem get_put (sp : Spec) (k : SpecId) : (rows.put sp).get k = if k = sp.id then some sp else rows.get k := by
  by_cases hk : k = sp.id
  · subst hk
    rw [if_pos rfl]
    exact List.find?_cons_of_pos (by simp)
  · rw [if_neg hk]
    have htail : (rows.put sp).get k = (rows.erase sp.id).get k :=
      List.find?_cons_of_neg (by simpa using Ne.symm hk)
    rw [htail, get_erase, if_neg hk]

@[simp]
theorem mem_erase : sp ∈ (rows.erase k).list ↔ sp ∈ rows.list ∧ sp.id ≠ k := by
  simp [erase]

@[simp]
theorem mem_put {other : Spec} :
    other ∈ (rows.put sp).list ↔ other = sp ∨ other ∈ rows.list ∧ other.id ≠ sp.id := by
  rw [put, List.mem_cons, mem_erase]

theorem mem_keys {host tmpl slug : String} (h : rows.get ⟨host, tmpl, slug⟩ = some sp) :
    ⟨tmpl, slug⟩ ∈ rows.keys host := by
  have hid := keyed h
  simp only [Spec.id, SpecId.mk.injEq] at hid
  obtain ⟨hhost, htmpl, hslug⟩ := hid
  refine List.mem_map.2 ⟨sp, List.mem_filter.2 ⟨mem_of_get h, by simpa using hhost⟩, ?_⟩
  rw [htmpl, hslug]

end Rows

/-- A read by key: the value, or the store's word for its absence. -/
def found {α : Type} (missing : Sentinel) : Option α → Except Error α
  | some a => .ok a
  | none => .error (.sentinel missing)

theorem found_eq_ok {α : Type} {missing : Sentinel} {o : Option α} {a : α} :
    found missing o = .ok a ↔ o = some a := by
  cases o with
  | none | some => simp [found]

end PodmanApi

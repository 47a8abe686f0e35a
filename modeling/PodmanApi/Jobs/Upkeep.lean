/-
# PodmanApi.Jobs.Upkeep — reading the table of jobs page by page, and pruning it.

A client pages through `ListJobs` with the last id it was shown as the next cursor, while jobs come and
go. `Paged` is what holds after any number of pages, and `paging_complete` what the pages have shown
when one is empty.

`PruneJobs` exists twice, as two deletions over the table and as two loops over a slice.
-/
import PodmanApi.Jobs.Table

namespace PodmanApi.Jobs.JobTable

open GoStd

/-! ## Pages -/

section Page

variable {t : JobTable} {f : JobFilter} {j : Job}

theorem clampJobLimit_pos (n : Int) : 0 < clampJobLimit n := by
  unfold clampJobLimit
  split
  · decide
  · split
    · decide
    · omega

theorem mem_page (h : j ∈ t.page f) : j ∈ t.list ∧ f.accepts j = true :=
  List.mem_filter.1 ((List.mem_insertionSort _).1 (List.mem_of_mem_take h))

theorem sorted_strict (t : JobTable) (f : JobFilter) :
    ((t.list.filter f.accepts).insertionSort fun a b => b.id ≤ a.id).Pairwise fun a b => b.id < a.id := by
  have hperm := List.perm_insertionSort (fun a b : Job => b.id ≤ a.id) (t.list.filter f.accepts)
  have hids : ((t.list.filter f.accepts).map Job.id).Nodup :=
    t.nodup.sublist (List.filter_sublist.map Job.id)
  have hne := List.pairwise_map.1 ((hperm.map Job.id).nodup_iff.2 hids)
  refine (List.pairwise_insertionSort (fun a b : Job => b.id ≤ a.id) _).imp₂ ?_ hne
  exact fun a b hle hne => lt_of_le_of_ne hle (Ne.symm hne)

theorem page_rest (hj : j ∈ t.list) (haccepts : f.accepts j = true) :
    j ∈ t.page f ∨ ∃ last, (t.page f).getLast? = some last ∧ j.id < last.id := by
  have hmem := (List.mem_insertionSort fun a b : Job => b.id ≤ a.id).2 (List.mem_filter.2 ⟨hj, haccepts⟩)
  have hstrict := sorted_strict t f
  set sorted := (t.list.filter f.accepts).insertionSort fun a b => b.id ≤ a.id
  set n := clampJobLimit f.limit with hn
  rw [← List.take_append_drop n sorted] at hmem hstrict
  obtain htake | hdrop := List.mem_append.1 hmem
  · exact .inl htake
  · have hne : sorted.take n ≠ [] := by
      intro hnil
      obtain hzero | hempty := List.take_eq_nil_iff.1 hnil
      · exact (clampJobLimit_pos f.limit).ne' hzero
      · rw [hempty, List.drop_nil] at hdrop
        cases hdrop
    exact .inr ⟨_, List.getLast?_eq_some_getLast hne,
      (List.pairwise_append.1 hstrict).2.2 _ (List.getLast_mem hne) j hdrop⟩

end Page

section Paging

variable (tables : Nat → JobTable) (f : JobFilter)

/-- The filter of each request: its cursor is the last id of the page before. -/
def request : Nat → JobFilter
  | 0 => f
  | k + 1 => { f with before := (((tables k).page (request k)).getLast?.map Job.id).getD "" }

def pageAt (k : Nat) : List Job :=
  (tables k).page (request tables f k)

/-- All that the first `n` pages show. -/
def visited (n : Nat) : List Job :=
  (List.range n).flatMap (pageAt tables f)

/-- What is known after `k` non-empty pages: they were in order, what the next request accepts comes after them,
and it accepts what has matched so far and was not shown. They show old jobs only, so they end. -/
structure Paged (k : Nat) : Prop where
  sorted : (visited tables f k).Pairwise fun a b => b.id < a.id
  after : ∀ a ∈ visited tables f k, ∀ j, (request tables f k).accepts j = true → j.id < a.id
  unseen : ∀ j, f.accepts j = true →
    (∀ i < k, ∃ row ∈ (tables i).list, row.id = j.id ∧ f.accepts row = true) →
    j.id ∈ (visited tables f k).map Job.id ∨ (request tables f k).accepts j = true
  old : ∀ a ∈ visited tables f k, a.id ∈ (tables 0).list.map Job.id
  length : k ≤ (visited tables f k).length

variable {tables f} {k : Nat}

theorem visited_succ (k : Nat) : visited tables f (k + 1) = visited tables f k ++ pageAt tables f k := by
  simp [visited, List.range_succ]

theorem accepts_before {c : String} {j : Job} (hc : c ≠ "") :
    ({ f with before := c } : JobFilter).accepts j = true ↔
      ({ f with before := "" } : JobFilter).accepts j = true ∧ j.id < c := by
  simp [JobFilter.accepts, hc]

theorem accepts_unbounded {j : Job} (h : f.accepts j = true) :
    ({ f with before := "" } : JobFilter).accepts j = true := by
  simp only [JobFilter.accepts, Bool.and_eq_true] at h ⊢
  exact ⟨h.1, rfl⟩

theorem Paged.next (h : Paged tables f k) (hne : pageAt tables f k ≠ []) (hids : ∀ j ∈ (tables k).list, j.id ≠ "")
    (hnew : ∀ j ∈ (tables k).list, j.id ∈ (tables 0).list.map Job.id ∨ ∀ i ∈ (tables 0).list, i.id < j.id) :
    Paged tables f (k + 1) := by
  obtain ⟨last, hlast⟩ : ∃ last, (pageAt tables f k).getLast? = some last :=
    ⟨_, List.getLast?_eq_some_getLast hne⟩
  have hmem := List.mem_of_getLast? hlast
  have hrequest : request tables f (k + 1) = { f with before := last.id } := by
    rw [request, show ((tables k).page (request tables f k)).getLast? = _ from hlast]
    rfl
  have hcursor := fun j => accepts_before (f := f) (j := j) (hids last (mem_page hmem).1)
  have hstrict : (pageAt tables f k).Pairwise fun a b => b.id < a.id :=
    (sorted_strict _ _).sublist (List.take_sublist _ _)
  -- the last job of a page comes after all others
  have hleast : ∀ a ∈ pageAt tables f k, last.id ≤ a.id := by
    obtain ⟨front, hfront⟩ := List.getLast?_eq_some_iff.1 hlast
    rw [hfront] at hstrict ⊢
    intro a ha
    obtain ha | ha := List.mem_append.1 ha
    · exact ((List.pairwise_append.1 hstrict).2.2 a ha last (List.mem_singleton_self _)).le
    · rw [List.mem_singleton.1 ha]
  have hold : ∀ a ∈ pageAt tables f k, a.id ∈ (tables 0).list.map Job.id := by
    intro a ha
    obtain ⟨hrow, haccepts⟩ := mem_page ha
    obtain hold | hlarger := hnew a hrow
    · exact hold
    · cases hseen : visited tables f k with
      | nil =>
        obtain rfl : k = 0 := Nat.le_zero.1 (by simpa [hseen] using h.length)
        exact List.mem_map_of_mem hrow
      | cons v _ =>
        have hv : v ∈ visited tables f k := hseen ▸ List.mem_cons_self
        obtain ⟨i, hi, hiv⟩ := List.mem_map.1 (h.old v hv)
        exact absurd (hiv ▸ hlarger i hi) (h.after v hv a haccepts).not_gt
  constructor
  · rw [visited_succ, List.pairwise_append]
    exact ⟨h.sorted, hstrict, fun a ha b hb => h.after a ha b (mem_page hb).2⟩
  · rw [visited_succ, hrequest]
    intro a ha j hj
    have hjlast := ((hcursor j).1 hj).2
    obtain ha | ha := List.mem_append.1 ha
    · exact hjlast.trans (h.after a ha last (mem_page hmem).2)
    · exact hjlast.trans_le (hleast a ha)
  · rw [visited_succ, hrequest, List.map_append]
    intro j hj hmatched
    obtain ⟨row, hrow, hid, haccepts⟩ := hmatched k (by omega)
    rw [← hid] at hmatched ⊢
    obtain hseen | hnext := h.unseen row haccepts fun i hi => hmatched i (by omega)
    · exact .inl (List.mem_append_left _ hseen)
    obtain hshown | ⟨last', hlast', hlt⟩ := page_rest hrow hnext
    · exact .inl (List.mem_append_right _ (List.mem_map_of_mem hshown))
    · obtain rfl := Option.some.inj (hlast.symm.trans hlast')
      exact .inr ((hcursor j).2 ⟨accepts_unbounded hj, hid ▸ hlt⟩)
  · rw [visited_succ]
    intro a ha
    exact (List.mem_append.1 ha).elim (h.old a) (hold a)
  · rw [visited_succ, List.length_append]
    have hpos := List.length_pos_iff.2 hne
    have hlen := h.length
    omega

theorem paged (hids : ∀ k, ∀ j ∈ (tables k).list, j.id ≠ "") (hnew : ∀ k, ∀ j ∈ (tables k).list,
      j.id ∈ (tables 0).list.map Job.id ∨ ∀ i ∈ (tables 0).list, i.id < j.id)
    (hpages : ∀ i < k, pageAt tables f i ≠ []) : Paged tables f k := by
  induction k with
  | zero => exact ⟨.nil, nofun, fun _ hj _ => .inr hj, nofun, Nat.le_refl _⟩
  | succ k ih => exact (ih fun i hi => hpages i (by omega)).next (hpages k (by omega)) (hids k) (hnew k)

theorem Paged.nodup (h : Paged tables f k) : ((visited tables f k).map Job.id).Nodup :=
  List.pairwise_map.2 (h.sorted.imp fun hlt => hlt.ne')

/-- A client asks for page after page, each from the last id of the one before, while the table may change; jobs
that come in have larger ids. There is an empty page in the end. The pages before it are in strictly descending
order of ids, and show every job once that has matched the filter throughout. -/
theorem paging_complete (tables : Nat → JobTable) (f : JobFilter) (hids : ∀ k, ∀ j ∈ (tables k).list, j.id ≠ "")
    (hnew : ∀ k, ∀ j ∈ (tables k).list, j.id ∈ (tables 0).list.map Job.id ∨ ∀ i ∈ (tables 0).list, i.id < j.id) :
    ∃ n, pageAt tables f n = [] ∧ (∀ k < n, pageAt tables f k ≠ []) ∧
      (visited tables f n).Pairwise (fun a b => b.id < a.id) ∧
      ∀ id, (∀ k ≤ n, ∃ row ∈ (tables k).list, row.id = id ∧ f.accepts row = true) →
        ((visited tables f n).map Job.id).count id = 1 := by
  have hends : ∃ n, pageAt tables f n = [] := by
    by_contra hnone
    have h : Paged tables f ((tables 0).list.length + 1) := paged hids hnew fun i _ hi => hnone ⟨i, hi⟩
    have hsubset : (visited tables f ((tables 0).list.length + 1)).map Job.id ⊆ (tables 0).list.map Job.id := by
      intro id hid
      obtain ⟨a, ha, rfl⟩ := List.mem_map.1 hid
      exact h.old a ha
    have hle := (List.subperm_of_subset h.nodup hsubset).length_le
    rw [List.length_map, List.length_map] at hle
    exact absurd (h.length.trans hle) (by omega)
  have hbefore : ∀ k < Nat.find hends, pageAt tables f k ≠ [] := fun _ hk => Nat.find_min hends hk
  have h := paged hids hnew hbefore
  refine ⟨Nat.find hends, Nat.find_spec hends, hbefore, h.sorted, fun id hmatched => ?_⟩
  refine List.count_eq_one_of_mem h.nodup ?_
  obtain ⟨row, hrow, rfl, haccepts⟩ := hmatched _ (Nat.le_refl _)
  obtain hseen | hnext := h.unseen row haccepts fun i hi => hmatched i hi.le
  · exact hseen
  -- a job that the last request accepts would be on its page
  · have hrest := page_rest hrow hnext
    rw [show (tables _).page (request tables f _) = [] from Nat.find_spec hends] at hrest
    simp at hrest

end Paging

def growing (k : Nat) : JobTable :=
  if k = 0 then ⟨[⟨"1", "backup", "", .queued, "", "", ⟨0⟩, ⟨0⟩, ⟨0⟩⟩], by decide⟩
  else ⟨[⟨"1", "backup", "", .queued, "", "", ⟨0⟩, ⟨0⟩, ⟨0⟩⟩,
    ⟨"2", "backup", "", .queued, "", "", ⟨0⟩, ⟨0⟩, ⟨0⟩⟩], by decide⟩

theorem growing_paged : ∃ n, pageAt growing {} n = [] ∧ ((visited growing {} n).map Job.id).count "1" = 1 := by
  obtain ⟨n, hempty, -, -, hvisited⟩ := paging_complete growing {}
    (by intro k; unfold growing; split <;> decide) (by intro k; unfold growing; split <;> decide)
  refine ⟨n, hempty, hvisited "1" fun k _ => ?_⟩
  unfold growing
  split <;> decide

/-! ## Pruning -/

section Prune

variable (t : JobTable) (cutoff : Time)

/-- A child that the first deletion of `PruneJobs` takes. -/
def expiredChild (j : Job) : Bool :=
  j.parentID != "" && expired cutoff j

/-- The number that `SQLite.PruneJobs` returns: the rows that its deletions affect. -/
def pruneCount : Nat :=
  let rest := t.remove (expiredChild cutoff)
  t.list.countP (expiredChild cutoff) + rest.list.countP fun j => expired cutoff j && !rest.list.any (·.childOf j)

/-- One round of a loop of `Memory.PruneJobs`: what is kept, and how many are not. -/
def keepOrCount (gone : Job → Bool) (acc : List Job × Nat) (j : Job) : List Job × Nat :=
  if gone j then (acc.1, acc.2 + 1) else (acc.1 ++ [j], acc.2)

def memoryPruneJobs (jobs : List Job) : List Job × Nat :=
  let (kept, deleted) := jobs.foldl (keepOrCount (expiredChild cutoff)) ([], 0)
  let referenced := (kept.filter (·.parentID != "")).map Job.parentID
  kept.foldl (keepOrCount fun j => expired cutoff j && !referenced.contains j.id) ([], deleted)

theorem foldl_keepOrCount (gone : Job → Bool) (jobs kept : List Job) (n : Nat) :
    jobs.foldl (keepOrCount gone) (kept, n) = (kept ++ jobs.filter (!gone ·), n + jobs.countP gone) := by
  induction jobs generalizing kept n with
  | nil => simp
  | cons j jobs ih =>
    rw [List.foldl_cons, keepOrCount]
    by_cases hgone : gone j = true
    · rw [if_pos hgone, ih]
      simp [hgone]
      omega
    · rw [if_neg hgone, ih]
      simp [hgone]

variable {t cutoff} {j : Job}

theorem mem_pruneJobs : j ∈ (t.pruneJobs cutoff).list ↔ j ∈ (t.remove (expiredChild cutoff)).list ∧
    (expired cutoff j = true → ∃ c ∈ (t.remove (expiredChild cutoff)).list, c.childOf j = true) := by
  show j ∈ List.filter (fun j => !(expired cutoff j && !(t.remove (expiredChild cutoff)).list.any (·.childOf j)))
    (t.remove (expiredChild cutoff)).list ↔ _
  cases hexpired : expired cutoff j <;> simp [hexpired]

theorem pruneCount_add (t : JobTable) (cutoff : Time) :
    t.pruneCount cutoff + (t.pruneJobs cutoff).list.length = t.list.length := by
  have hlength : ∀ (u : JobTable) gone, u.list.length = u.list.countP gone + (u.remove gone).list.length := by
    intro u gone
    rw [List.length_eq_countP_add_countP gone, List.countP_eq_length_filter (p := fun a => decide _)]
    simp [remove]
  rw [hlength t (expiredChild cutoff), hlength (t.remove (expiredChild cutoff)) _, ← Nat.add_assoc]
  rfl

/-- Where no child has children, pruning removes expired jobs only, never the parent of a job that stays, and
every expired job that is no such parent. Both stores come to the same table, and count what they have removed. -/
theorem pruneJobs_exact (t : JobTable) (cutoff : Time)
    (hflat : ∀ child ∈ t.list, child.parentID ≠ "" → ∀ j ∈ t.list, j.childOf child = false) :
    (∀ j ∈ t.list, j ∉ (t.pruneJobs cutoff).list → expired cutoff j = true) ∧
    (∀ j ∈ (t.pruneJobs cutoff).list, ∀ p ∈ t.list, j.childOf p = true → p ∈ (t.pruneJobs cutoff).list) ∧
    (∀ j ∈ t.list, expired cutoff j = true → (∀ c ∈ (t.pruneJobs cutoff).list, c.childOf j = false) →
      j ∉ (t.pruneJobs cutoff).list) ∧ (t.pruneJobs cutoff).list.Sublist t.list ∧
    t.pruneCount cutoff = t.list.length - (t.pruneJobs cutoff).list.length ∧
    memoryPruneJobs cutoff t.list = ((t.pruneJobs cutoff).list, t.pruneCount cutoff) := by
  have hrest : ∀ j, j ∈ (t.remove (expiredChild cutoff)).list ↔ j ∈ t.list ∧ expiredChild cutoff j = false := by
    intro j
    show j ∈ t.list.filter _ ↔ _
    simp
  refine ⟨fun j hj hgone => ?_, fun j hj p hp hchild => ?_, fun j _ hexpired hnone hkept => ?_,
    List.filter_sublist.trans List.filter_sublist, ?_, ?_⟩
  · by_contra hfresh
    exact hgone (mem_pruneJobs.2 ⟨(hrest j).2 ⟨hj, by simp [expiredChild, hfresh]⟩, (absurd · hfresh)⟩)
  · obtain ⟨hj, -⟩ := mem_pruneJobs.1 hj
    refine mem_pruneJobs.2 ⟨(hrest p).2 ⟨hp, ?_⟩, fun _ => ⟨j, hj, hchild⟩⟩
    -- a parent is no child
    have htop : p.parentID = "" := by
      by_contra hne
      rw [hflat p hp hne j ((hrest j).1 hj).1] at hchild
      cases hchild
    simp [expiredChild, htop]
  · obtain ⟨c, hc, hchild⟩ := (mem_pruneJobs.1 hkept).2 hexpired
    -- a child that the first deletion has left is not expired
    have hstays : expired cutoff c = false := by
      have hleft := ((hrest c).1 hc).2
      simp only [Job.childOf, Bool.and_eq_true] at hchild
      simpa [expiredChild, hchild.1] using hleft
    rw [hnone c (mem_pruneJobs.2 ⟨hc, by simp [hstays]⟩)] at hchild
    cases hchild
  · have hadd := pruneCount_add t cutoff
    omega
  · have hreferenced : ∀ (kept : List Job) id, ((kept.filter (·.parentID != "")).map Job.parentID).contains id =
        kept.any fun c => c.parentID != "" && c.parentID == id := by
      intro kept id
      rw [List.contains_eq_any_beq, List.any_map, List.any_filter]
      exact congrArg kept.any (funext fun c => by simp [Bool.beq_comm])
    simp only [memoryPruneJobs, foldl_keepOrCount, hreferenced, List.nil_append, Nat.zero_add]
    rfl

/-- A parent and its child, both long finished, are pruned together. -/
theorem family_pruned : ∃ t : JobTable, t.list.length = 2 ∧ memoryPruneJobs ⟨9⟩ t.list = ([], 2) := by
  refine ⟨⟨[⟨"1", "evacuate", "", .failed, "", "", ⟨1⟩, ⟨1⟩, ⟨2⟩⟩,
    ⟨"2", "migrate", "", .failed, "1", "", ⟨1⟩, ⟨1⟩, ⟨2⟩⟩], by decide⟩, rfl, ?_⟩
  rw [(pruneJobs_exact _ ⟨9⟩ (by decide)).2.2.2.2.2]
  decide

theorem pruneJobs_pruneJobs {earlier : Time} (hle : earlier.ns ≤ cutoff.ns) :
    (t.pruneJobs earlier).pruneJobs cutoff = t.pruneJobs cutoff := by
  have hexpired : ∀ j, expired earlier j = true → expired cutoff j = true := by
    grind [expired]
  refine JobTable.ext ?_
  simp only [pruneJobs, remove, List.filter_filter]
  refine List.filter_congr fun j hj => Bool.eq_iff_iff.2 ?_
  -- a child that the second sweep leaves was not expired in the first, so neither took its parent
  simp only [Bool.and_eq_true, Bool.not_eq_true', Bool.and_eq_false_iff, Bool.not_eq_false', List.any_eq_true,
    List.mem_filter, Job.childOf]
  grind

/-- Sweep after sweep, the last leaves what it would have left alone: one that is missed is made up for. -/
theorem sweeps_eq_last (t : JobTable) (cutoffs : List Time) (last : Time) (hlast : ∀ c ∈ cutoffs, c.ns ≤ last.ns) :
    (cutoffs.foldl pruneJobs t).pruneJobs last = t.pruneJobs last := by
  induction cutoffs generalizing t with
  | nil => rfl
  | cons c cutoffs ih =>
    obtain ⟨hc, hlast⟩ := List.forall_mem_cons.1 hlast
    rw [List.foldl_cons, ih _ hlast, pruneJobs_pruneJobs hc]

theorem three_sweeps : ∃ t : JobTable, t.list ≠ [] ∧ (([⟨5⟩, ⟨3⟩].foldl pruneJobs t).pruneJobs ⟨9⟩).list = [] := by
  refine ⟨⟨[⟨"1", "backup", "", .failed, "", "", ⟨1⟩, ⟨1⟩, ⟨7⟩⟩], by decide⟩, List.cons_ne_nil _ _, ?_⟩
  rw [sweeps_eq_last _ _ _ (by decide)]
  rfl

end Prune

end PodmanApi.Jobs.JobTable

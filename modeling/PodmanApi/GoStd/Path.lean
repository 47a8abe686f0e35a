/-
# PodmanApi.GoStd.Path — `path.Clean` is idempotent.

A cleaned path is its kept segments joined by slashes. No kept segment is empty, is a dot or has a slash
in it, and a double dot is kept at the front only, and never after a root. Splitting and stepping
through such a path changes nothing.
-/
import PodmanApi.GoStd

namespace PodmanApi.GoStd

/-! ## Splitting -/

variable {kept : List String} {rooted : Bool} {s : List Char} {c : Char}

theorem splitAt_of_notMem (h : c ∉ s) : splitAt c s = [s] := by
  induction s with
  | nil => rfl
  | cons d ds ih =>
    rw [List.mem_cons, not_or] at h
    simp only [splitAt, ih h.2]
    rw [if_neg (by simpa using fun hd => h.1 hd.symm)]

theorem splitAt_append_cons {t : List Char} (h : c ∉ s) : splitAt c (s ++ c :: t) = s :: splitAt c t := by
  have hne : ∀ u, splitAt c u ≠ [] := by
    intro u hu
    cases u with
    | nil => cases hu
    | cons d ds =>
      simp only [splitAt] at hu
      split at hu
      · cases hu
      · split at hu <;> cases hu
  induction s with
  | nil =>
    obtain ⟨part, parts, hsplit⟩ := List.exists_cons_of_ne_nil (hne t)
    simp [splitAt, hsplit]
  | cons d ds ih =>
    rw [List.mem_cons, not_or] at h
    rw [List.cons_append]
    simp only [splitAt, ih h.2]
    rw [if_neg (by simpa using fun hd => h.1 hd.symm)]

theorem notMem_of_mem_splitAt {part : List Char} (h : part ∈ splitAt c s) : c ∉ part := by
  induction s generalizing part with
  | nil =>
    obtain rfl := List.mem_singleton.1 h
    exact List.not_mem_nil
  | cons d ds ih =>
    simp only [splitAt] at h
    split at h
    · obtain rfl := List.mem_singleton.1 h
      exact List.not_mem_nil
    · rename_i first parts hsplit
      have htail : ∀ p ∈ first :: parts, c ∉ p := fun p hp => ih (hsplit ▸ hp)
      split at h
      · obtain rfl | hmem := List.mem_cons.1 h
        · exact List.not_mem_nil
        · exact htail part hmem
      · rename_i hd
        obtain rfl | hmem := List.mem_cons.1 h
        · rw [List.mem_cons, not_or]
          exact ⟨fun hcd => hd (by rw [hcd]; exact beq_self_eq_true d), htail first List.mem_cons_self⟩
        · exact htail part (List.mem_cons_of_mem _ hmem)

theorem toList_join_cons (first : String) (rest : List String) (h : rest ≠ []) :
    (join (first :: rest) "/").toList = first.toList ++ '/' :: (join rest "/").toList := by
  unfold join
  rw [String.intercalate_cons_of_ne_nil h]
  simp

theorem split_join {segs : List String} (hne : segs ≠ []) (h : ∀ seg ∈ segs, '/' ∉ seg.toList) :
    split (join segs "/") '/' = segs := by
  have hsplit : splitAt '/' (join segs "/").toList = segs.map String.toList := by
    induction segs with
    | nil => exact absurd rfl hne
    | cons first rest ih =>
      have hfirst := h first List.mem_cons_self
      by_cases hrest : rest = []
      · subst hrest
        have hjoin : join [first] "/" = first := by simp [join]
        rw [hjoin, splitAt_of_notMem hfirst]
        rfl
      · rw [toList_join_cons first rest hrest, splitAt_append_cons hfirst,
          ih hrest fun seg hseg => h seg (List.mem_cons_of_mem _ hseg)]
        rfl
  unfold split
  rw [hsplit]
  simp

/-! ## Kept segments -/

/-- A segment that a cleaned path can have. -/
def PathSeg (seg : String) : Prop :=
  seg ≠ "" ∧ seg ≠ "." ∧ '/' ∉ seg.toList

/-- What stepping through a path keeps, last segment first: segments, no double dot in front of anything
else, and none at all after a root. -/
structure PathKept (rooted : Bool) (kept : List String) : Prop where
  segs : ∀ seg ∈ kept, PathSeg seg
  up : kept.Pairwise fun later earlier => later = ".." → earlier = ".."
  root : rooted = true → ".." ∉ kept

theorem PathKept.nil : PathKept rooted [] :=
  ⟨nofun, .nil, fun _ => List.not_mem_nil⟩

theorem PathKept.tail {last : String} {rest : List String}
    (h : PathKept rooted (last :: rest)) : PathKept rooted rest :=
  ⟨fun seg hseg => h.segs seg (List.mem_cons_of_mem _ hseg), (List.pairwise_cons.1 h.up).2,
    fun hr hmem => h.root hr (List.mem_cons_of_mem _ hmem)⟩

theorem PathKept.step {seg : String} (h : PathKept rooted kept)
    (hseg : '/' ∉ seg.toList) : PathKept rooted (pathStep rooted kept seg) := by
  unfold pathStep
  split
  · exact h
  rename_i hplain
  rw [Bool.or_eq_true, beq_iff_eq, beq_iff_eq, not_or] at hplain
  have hkeep : PathSeg seg := ⟨hplain.1, hplain.2, hseg⟩
  split
  · rename_i hup
    obtain rfl : seg = ".." := beq_iff_eq.1 hup
    cases kept with
    | nil =>
      dsimp only
      split
      · exact .nil
      · rename_i hroot
        refine ⟨fun s hs => List.mem_singleton.1 hs ▸ hkeep, List.pairwise_singleton _ _, ?_⟩
        exact fun hr => absurd hr hroot
    | cons last rest =>
      dsimp only
      split
      · rename_i hlast
        rw [beq_iff_eq] at hlast
        subst hlast
        refine ⟨?_, ?_, fun hr _ => h.root hr List.mem_cons_self⟩
        · exact List.forall_mem_cons.2 ⟨hkeep, h.segs⟩
        · refine List.pairwise_cons.2 ⟨fun earlier hmem _ => ?_, h.up⟩
          obtain rfl | hmem := List.mem_cons.1 hmem
          · rfl
          · exact (List.pairwise_cons.1 h.up).1 earlier hmem rfl
      · exact h.tail
  · rename_i hup
    have hne : seg ≠ ".." := fun heq => hup (by rw [heq]; rfl)
    refine ⟨List.forall_mem_cons.2 ⟨hkeep, h.segs⟩, ?_, fun hr hmem => ?_⟩
    · exact List.pairwise_cons.2 ⟨fun _ _ heq => absurd heq hne, h.up⟩
    · obtain heq | hmem := List.mem_cons.1 hmem
      · exact hne heq.symm
      · exact h.root hr hmem

theorem PathKept.foldl (segs : List String) (h : PathKept rooted kept) (hsegs : ∀ seg ∈ segs, '/' ∉ seg.toList) :
    PathKept rooted (segs.foldl (pathStep rooted) kept) := by
  induction segs generalizing kept with
  | nil => exact h
  | cons seg rest ih =>
    exact ih (h.step (hsegs seg List.mem_cons_self)) fun s hs => hsegs s (List.mem_cons_of_mem _ hs)

theorem PathKept.foldl_reverse (h : PathKept rooted kept) : kept.reverse.foldl (pathStep rooted) [] = kept := by
  induction kept with
  | nil => rfl
  | cons last rest ih =>
    rw [List.reverse_cons, List.foldl_append, ih h.tail]
    have hlast := h.segs last List.mem_cons_self
    show pathStep rooted rest last = last :: rest
    unfold pathStep
    rw [if_neg (by simp [hlast.1, hlast.2.1])]
    split
    · rename_i hup
      obtain rfl : last = ".." := beq_iff_eq.1 hup
      cases rest with
      | nil =>
        have hroot : rooted = false := by
          cases rooted with
          | false => rfl
          | true => exact absurd List.mem_cons_self (h.root rfl)
        rw [hroot]
        rfl
      | cons earlier rest =>
        obtain rfl := (List.pairwise_cons.1 h.up).1 earlier List.mem_cons_self rfl
        rfl
    · rfl

/-! ## The cleaned path -/

/-- The path of kept segments. -/
def pathOf (rooted : Bool) (kept : List String) : String :=
  let text := join kept.reverse "/"
  if rooted then "/" ++ text else if text == "" then "." else text

theorem pathClean_eq (p : String) : pathClean p =
    pathOf (hasPrefix p "/") ((split p '/').foldl (pathStep (hasPrefix p "/")) []) := rfl

/-- A path that starts with a segment is not rooted and not empty. -/
theorem hasPrefix_join {segs : List String} (hne : segs ≠ []) (h : ∀ seg ∈ segs, PathSeg seg) :
    hasPrefix (join segs "/") "/" = false ∧ join segs "/" ≠ "" := by
  obtain ⟨first, rest, rfl⟩ := List.exists_cons_of_ne_nil hne
  obtain ⟨hempty, -, hslash⟩ := h first List.mem_cons_self
  have hchars : first.toList ≠ [] := fun hnil => hempty (String.toList_inj.1 hnil)
  obtain ⟨c, cs, hc⟩ := List.exists_cons_of_ne_nil hchars
  have hcslash : '/' ≠ c := by
    rintro rfl
    exact hslash (by rw [hc]; exact List.mem_cons_self)
  have hstart : ∃ tail, (join (first :: rest) "/").toList = c :: tail := by
    by_cases hrest : rest = []
    · subst hrest
      exact ⟨cs, by rw [← hc]; simp [join]⟩
    · exact ⟨_, by rw [toList_join_cons first rest hrest, hc]; rfl⟩
  obtain ⟨tail, htail⟩ := hstart
  constructor
  · unfold hasPrefix
    rw [htail]
    show ('/' == c && _) = false
    rw [beq_eq_false_iff_ne.2 hcslash, Bool.false_and]
  · intro heq
    rw [heq] at htail
    cases htail

theorem pathClean_pathOf (h : PathKept rooted kept) : pathClean (pathOf rooted kept) = pathOf rooted kept := by
  have hsegs : ∀ seg ∈ kept.reverse, PathSeg seg := fun seg hseg => h.segs seg (List.mem_reverse.1 hseg)
  have hsplit : kept ≠ [] → split (join kept.reverse "/") '/' = kept.reverse := fun hne =>
    split_join (by simpa using hne) fun seg hseg => (hsegs seg hseg).2.2
  cases rooted with
  | true =>
    have hstarts : hasPrefix (pathOf true kept) "/" = true := by
      simp [hasPrefix, pathOf]
    have hroot : split (pathOf true kept) '/' = "" :: split (join kept.reverse "/") '/' := by
      unfold split pathOf
      have hslash : ("/" ++ join kept.reverse "/").toList = [] ++ '/' :: (join kept.reverse "/").toList := by
        simp
      rw [if_pos rfl, hslash, splitAt_append_cons List.not_mem_nil]
      rfl
    rw [pathClean_eq, hstarts, hroot]
    congr 1
    show (split (join kept.reverse "/") '/').foldl (pathStep true) [] = kept
    by_cases hne : kept = []
    · subst hne
      rfl
    · rw [hsplit hne, h.foldl_reverse]
  | false =>
    by_cases hne : kept = []
    · subst hne
      decide
    · obtain ⟨hstarts, hempty⟩ := hasPrefix_join (by simpa using hne) hsegs
      have htext : pathOf false kept = join kept.reverse "/" := by
        simp [pathOf, hempty]
      rw [pathClean_eq, htext, hstarts, hsplit hne, h.foldl_reverse, htext]

theorem pathClean_idem (p : String) : pathClean (pathClean p) = pathClean p := by
  refine pathClean_pathOf (PathKept.foldl _ .nil fun seg hseg => ?_)
  obtain ⟨part, hpart, rfl⟩ := List.mem_map.1 hseg
  rw [String.toList_ofList]
  exact notMem_of_mem_splitAt hpart

end PodmanApi.GoStd

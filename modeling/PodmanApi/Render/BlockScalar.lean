/-
# PodmanApi.Render.BlockScalar — multi-line parameters in a rendered template.

`RenderAndValidate` of `internal/render/template.go`. Executing the template indents only the first line of a
parameter's text, so `validateRendered` asks every other line to be indented as far as the reference and the
first line together. It asks this once for a parameter, at the smallest column of all its references.
-/
import PodmanApi.GoStd.Path
import PodmanApi.Data

namespace PodmanApi.Render

open GoStd

/-! ## References in a template body -/

/-- A match of `paramRefPattern`: the name, whether it comes without trim markers, and the number of bytes
before it on its line. -/
structure ParamRef where
  name : String
  bare : Bool
  column : Nat
  deriving DecidableEq

/-- `\s` in a Go regular expression. -/
def isBlank (c : Char) : Bool :=
  c == ' ' || c == '\t' || c == '\n' || c == '\x0c' || c == '\r'

/-- `\w` in a Go regular expression. -/
def isWord (c : Char) : Bool :=
  c.isAlphanum || c == '_'

/-- `-?`, and what follows it. -/
def cutMarker : List Char → Bool × List Char
  | '-' :: cs => (true, cs)
  | cs => (false, cs)

/-- `paramRefPattern` at the front of a text: the name, whether it is bare, and the rest. No two neighbouring
pieces of the pattern match the same character, so it matches in one way only. -/
def matchParamRef : List Char → Option (String × Bool × List Char)
  | '{' :: '{' :: cs =>
    let (before, cs) := cutMarker cs
    match cs.dropWhile isBlank with
    | '.' :: cs =>
      let (after, rest) := cutMarker ((cs.dropWhile isWord).dropWhile isBlank)
      match cs.takeWhile isWord, rest with
      | c :: word, '}' :: '}' :: rest => some (String.ofList (c :: word), !before && !after, rest)
      | _, _ => none
    | _ => none
  | _ => none

/-- `FindAllStringSubmatchIndex`, from a column on, with so many characters of a match still to skip. -/
def paramRefsFrom (skip column : Nat) : List Char → List ParamRef
  | [] => []
  | c :: cs =>
    let next := if c = '\n' then 0 else column + c.utf8Size
    match skip, matchParamRef (c :: cs) with
    | skip + 1, _ => paramRefsFrom skip next cs
    | 0, some (name, bare, rest) => ⟨name, bare, column⟩ :: paramRefsFrom (cs.length - rest.length) next cs
    | 0, none => paramRefsFrom 0 next cs

def paramRefs (body : String) : List ParamRef :=
  paramRefsFrom 0 0 body.toList

/-- One round of the loop in `paramRefIndent`. -/
def leastColumn (name : String) (best : Option Nat) (r : ParamRef) : Option Nat :=
  if r.name ≠ name then best
  else match best with
    | some b => if r.column < b then some r.column else best
    | none => some r.column

/-- The smallest column of a reference to the parameter; `none` stands for the `-1` of the source. -/
def paramRefIndent (body name : String) : Option Nat :=
  (paramRefs body).foldl (leastColumn name) none

/-! ## The check of multi-line parameters -/

def leadingWhitespace (s : String) : Nat :=
  (s.toList.takeWhile (· == ' ')).length

def errRenderInvalid : Error := .text "rendered template is invalid"

/-- The complaint about one continuation line, which has the given index among them. -/
def lineProblem (name : String) (baseline : Nat) (line : String × Nat) : Option Error :=
  if trimSpace line.1 = "" then none
  else if leadingWhitespace line.1 < baseline then
    some (.wrap "" errRenderInvalid (": parameter " ++ quote name ++ " line " ++ toString (line.2 + 2) ++
      " has indentation " ++ toString (leadingWhitespace line.1) ++ ", need at least " ++ toString baseline ++
      " to produce valid YAML (indent the param value or use the | indent template function with the " ++
      "\x7b\x7b.name\x7d\x7d reference moved to column 0)"))
  else none

/-- One round of the loop over the parameters. -/
def paramProblem (body : String) : String × Value → Option Error
  | (name, .string s) =>
    if '\n' ∉ s.toList then none
    else match paramRefIndent body name, split s '\n' with
      | some got, first :: rest =>
        rest.zipIdx.findSome? (lineProblem name (got + leadingWhitespace first))
      | _, _ => none
  | _ => none

def validateRendered (body : String) (params : GoMap Value) : Option Error :=
  params.findSome? (paramProblem body)

section RenderAndValidate

-- executing a Go template is third-party code
variable (renderBody : String → GoMap Value → Except Error String)

def renderAndValidate (body : String) (params : GoMap Value) : Except Error String := do
  let rendered ← renderBody body params
  match validateRendered body params with
  | some err => throw err
  | none => return rendered

theorem renderAndValidate_ok_iff {body : String} {params : GoMap Value} :
    (∃ out, renderAndValidate renderBody body params = .ok out) ↔
      (∃ out, renderBody body params = .ok out) ∧ ∀ p ∈ params, paramProblem body p = none := by
  rw [← List.findSome?_eq_none_iff]
  unfold renderAndValidate validateRendered
  cases renderBody body params with
  | error err => exact ⟨nofun, fun h => nomatch h.1⟩
  | ok out =>
    cases params.findSome? (paramProblem body) with
    | some err => exact ⟨nofun, fun h => nomatch h.2⟩
    | none => exact ⟨fun _ => ⟨⟨out, rfl⟩, rfl⟩, fun _ => ⟨out, rfl⟩⟩

end RenderAndValidate

/-! ## What the check is worth -/

section Aligned

variable {body name text : String} {params : GoMap Value}

theorem foldl_leastColumn_le {refs : List ParamRef} {best : Option Nat} {column : Nat}
    (h : (∃ b, best = some b ∧ b ≤ column) ∨ ∃ r ∈ refs, r.name = name ∧ r.column = column) :
    ∃ b, refs.foldl (leastColumn name) best = some b ∧ b ≤ column := by
  induction refs generalizing best with
  | nil => exact h.resolve_right (fun ⟨_, hr, _⟩ => nomatch hr)
  | cons r refs ih =>
    refine ih ?_
    rcases h with ⟨b, rfl, hb⟩ | ⟨q, hq, hname, hcolumn⟩
    · refine .inl ?_
      unfold leastColumn
      dsimp only
      split_ifs <;> exact ⟨_, rfl, by omega⟩
    · rcases List.mem_cons.1 hq with rfl | hq
      · refine .inl ?_
        unfold leastColumn
        rw [if_neg (not_not.2 hname)]
        cases best with
        | none => exact ⟨_, rfl, hcolumn.le⟩
        | some b =>
          dsimp only
          split_ifs <;> exact ⟨_, rfl, by omega⟩
      · exact .inr ⟨q, hq, hname, hcolumn⟩

theorem paramRefIndent_le {r : ParamRef} (hr : r ∈ paramRefs body) (hname : r.name = name) :
    ∃ b, paramRefIndent body name = some b ∧ b ≤ r.column :=
  foldl_leastColumn_le (.inr ⟨r, hr, hname, rfl⟩)

/-- The text stays inside the block scalar at every bare reference to the parameter. -/
def Contained (body name text : String) : Prop :=
  ∀ r ∈ paramRefs body, r.name = name → r.bare = true →
    ∀ first rest, split text '\n' = first :: rest → ∀ line ∈ rest, trimSpace line ≠ "" →
      r.column + leadingWhitespace first ≤ leadingWhitespace line

/-- Every bare reference to the parameter stands at the smallest column of its references. -/
def Aligned (body name : String) : Prop :=
  ∀ r ∈ paramRefs body, r.name = name → r.bare = true → paramRefIndent body name = some r.column

instance : Decidable (Aligned body name) :=
  inferInstanceAs (Decidable (∀ r ∈ paramRefs body, _))

theorem lineProblem_eq_none {baseline : Nat} {line : String × Nat} :
    lineProblem name baseline line = none ↔ trimSpace line.1 = "" ∨ baseline ≤ leadingWhitespace line.1 := by
  unfold lineProblem
  split
  · rename_i hblank
    exact ⟨fun _ => .inl hblank, fun _ => rfl⟩
  · rename_i hblank
    split
    · rename_i hless
      exact ⟨nofun, fun h => absurd h (not_or.2 ⟨hblank, by omega⟩)⟩
    · rename_i hless
      exact ⟨fun _ => .inr (by omega), fun _ => rfl⟩

theorem Aligned.contained (h : Aligned body name) (hlines : '\n' ∈ text.toList)
    (hnone : paramProblem body (name, .string text) = none) : Contained body name text := by
  intro r hr hname hbare first rest hsplit line hline hblank
  have hgot := h r hr hname hbare
  simp only [paramProblem, hlines, not_true, hgot, hsplit] at hnone
  obtain ⟨i, hi⟩ : ∃ i, (line, i) ∈ rest.zipIdx := by
    obtain ⟨i, hi, rfl⟩ := List.getElem_of_mem hline
    exact ⟨i, List.mem_zipIdx_iff_getElem?.2 (List.getElem?_eq_getElem hi)⟩
  exact (lineProblem_eq_none.1 (List.findSome?_eq_none_iff.1 hnone _ hi)).resolve_left hblank

/-- A text with one continuation line, indented by so many spaces. -/
def indentedBy (n : Nat) : String :=
  String.ofList ('\n' :: (List.replicate n ' ' ++ ['x']))

theorem split_indentedBy (n : Nat) :
    split (indentedBy n) '\n' = ["", String.ofList (List.replicate n ' ' ++ ['x'])] := by
  have hline : '\n' ∉ List.replicate n ' ' ++ ['x'] := by simp
  unfold split indentedBy
  rw [String.toList_ofList, ← List.nil_append ('\n' :: _), splitAt_append_cons (by simp),
    splitAt_of_notMem hline]
  rfl

theorem leadingWhitespace_line (n : Nat) :
    leadingWhitespace (String.ofList (List.replicate n ' ' ++ ['x'])) = n := by
  unfold leadingWhitespace
  rw [String.toList_ofList, List.takeWhile_append_of_pos (by simp)]
  simp

theorem trimSpace_line (n : Nat) : trimSpace (String.ofList (List.replicate n ' ' ++ ['x'])) ≠ "" := by
  have hspace : ∀ c ∈ List.replicate n ' ', isSpace c = true := by simp [isSpace]
  unfold trimSpace
  rw [String.toList_ofList, List.dropWhile_append_of_pos hspace]
  decide

theorem paramProblem_indentedBy {n : Nat} (h : paramRefIndent body name = some n) :
    paramProblem body (name, .string (indentedBy n)) = none := by
  have hlines : '\n' ∈ (indentedBy n).toList := by simp [indentedBy]
  simp only [paramProblem, hlines, not_true, if_false, h, split_indentedBy]
  refine List.findSome?_eq_none_iff.2 fun line hline => lineProblem_eq_none.2 (.inr ?_)
  rw [List.mem_singleton.1 hline]
  exact (leadingWhitespace_line n).ge

theorem not_contained_indentedBy {n : Nat} {r : ParamRef} (hr : r ∈ paramRefs body) (hname : r.name = name)
    (hbare : r.bare = true) (hless : n < r.column) : ¬Contained body name (indentedBy n) := by
  intro h
  have hcolumn := h r hr hname hbare _ _ (split_indentedBy n) _ List.mem_cons_self (trimSpace_line n)
  rw [leadingWhitespace_line] at hcolumn
  omega

/-- A map that renders whatever text the parameter has, and whose other parameters are not refused. -/
structure Open (renderBody : String → GoMap Value → Except Error String) (body name : String)
    (params : GoMap Value) : Prop where
  renders : ∀ text, ∃ out, renderBody body (GoMap.set params name (.string text)) = .ok out
  others : ∀ p ∈ params, p.1 ≠ name → paramProblem body p = none

/-- Under the condition on the body, an accepted multi-line text stays inside the block scalar at each bare
reference, whatever the map; without it, every map that renders for any text has a multi-line text that is
accepted and leaves the block scalar. -/
theorem contained_iff_aligned (renderBody : String → GoMap Value → Except Error String) (body name : String) :
    (Aligned body name → ∀ params out text, renderAndValidate renderBody body params = .ok out →
      GoMap.get? params name = some (.string text) → '\n' ∈ text.toList → Contained body name text) ∧
    (¬Aligned body name → ∀ params, Open renderBody body name params → ∃ text out, '\n' ∈ text.toList ∧
        renderAndValidate renderBody body (GoMap.set params name (.string text)) = .ok out ∧
        ¬Contained body name text) := by
  constructor
  · intro haligned params out text hok hget hlines
    obtain ⟨-, hnone⟩ := (renderAndValidate_ok_iff renderBody).1 ⟨out, hok⟩
    exact haligned.contained hlines (hnone _ (GoMap.mem_of_get? hget))
  · intro hnot params hopen
    obtain ⟨r, hr, hname, hbare, hcolumn⟩ :
        ∃ r ∈ paramRefs body, r.name = name ∧ r.bare = true ∧ paramRefIndent body name ≠ some r.column := by
      unfold Aligned at hnot
      push Not at hnot
      exact hnot
    obtain ⟨n, hn, hle⟩ := paramRefIndent_le hr hname
    have hless : n < r.column := Nat.lt_of_le_of_ne hle fun h => hcolumn (h ▸ hn)
    obtain ⟨out, hout⟩ := (renderAndValidate_ok_iff renderBody).2 ⟨hopen.renders (indentedBy n), fun p hp => by
      rcases GoMap.mem_set hp with rfl | ⟨hk, hp⟩
      · exact paramProblem_indentedBy hn
      · exact hopen.others p hp hk⟩
    exact ⟨indentedBy n, out, by simp [indentedBy], hout, not_contained_indentedBy hr hname hbare hless⟩

theorem aligned_text_contained : Contained "  \x7b\x7b.a\x7d\x7d\n" "a" "x\n  y" :=
  (contained_iff_aligned (fun _ _ => .ok "") "  \x7b\x7b.a\x7d\x7d\n" "a").1 (by decide +kernel)
    [("a", .string "x\n  y")] "" "x\n  y" (by decide +kernel) (by decide +kernel) (by decide +kernel)

/-- A reference in column 0, for instance in a comment, lets a text pass that falls out of the block scalar at
the other reference. -/
theorem second_reference_escapes :
    ∃ text, renderAndValidate (fun _ _ => .ok "") "\x7b\x7b.a\x7d\x7d\nb: |\n  \x7b\x7b.a\x7d\x7d\n"
        [("a", .string text)] = .ok "" ∧ '\n' ∈ text.toList ∧
      ¬Contained "\x7b\x7b.a\x7d\x7d\nb: |\n  \x7b\x7b.a\x7d\x7d\n" "a" text :=
  ⟨indentedBy 0, by decide +kernel, by decide +kernel,
    not_contained_indentedBy (r := ⟨"a", true, 2⟩) (by decide +kernel) rfl rfl (by decide)⟩

end Aligned

end PodmanApi.Render

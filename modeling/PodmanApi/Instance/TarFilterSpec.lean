/-
# PodmanApi.Instance.TarFilterSpec — what a filtered backup contains.

`filterTar` fingerprints, filters and re-emits a stream in one pass. Over it stands a pure function on
entries, `sift`: the filter's state and what it lets through. When the pass succeeds, the
archive it wrote holds exactly what was sifted through (`filterTar_sifts`).
-/
import PodmanApi.Calls.Fallible
import PodmanApi.GoStd.Path
import PodmanApi.Instance.TarFilter

namespace PodmanApi.Instance

open GoStd Calls

/-! ## Sifting -/

namespace TarTools

variable {β : Type} (tools : TarTools β)

/-- The filter after one entry, and the entry it lets through. -/
def sift (drop : Option DropFilter) (e : TarEntry) : Option DropFilter × Option TarEntry :=
  match drop with
  | none => (none, some e)
  | some f =>
    let (f, d) := f.decideEntry tools e.header e.path
    if d.drop then (some (if d.needsBuffer then f.storeBody e.path e.body else f), none)
    else (some f, some ⟨d.header, d.promotedBody.getD e.body⟩)

def siftNext (acc : Option DropFilter × List TarEntry) (e : TarEntry) : Option DropFilter × List TarEntry :=
  ((tools.sift acc.1 e).1, acc.2 ++ (tools.sift acc.1 e).2.toList)

/-- The filter after these entries, and what it has let through. -/
def sifted (drop : Option DropFilter) (es : List TarEntry) : Option DropFilter × List TarEntry :=
  es.foldl tools.siftNext (drop, [])

def record (m : Manifest) (e : TarEntry) : Manifest :=
  if excludePath e.path then m else GoMap.set m e.path (tools.fileInfo e.header e.body)

end TarTools

variable {e o t : TarEntry} {out : DropFilter × Decision}

section Pass

variable {β : Type} {tools : TarTools β}

variable {w : TarWriter} {st st' : TarPass} {hdr : TarHeader}

theorem fileInfo_of_ne (h : hdr.typeflag ≠ typeReg) (content content' : Bytes) :
    tools.fileInfo hdr content = tools.fileInfo hdr content' := by
  have hreg : (hdr.typeflag == typeReg) = false := beq_eq_false_iff_ne.2 h
  unfold TarTools.fileInfo
  rw [hreg]
  rfl

/-- What the emission of an entry does to the writer and the manifest. -/
structure Emits (tools : TarTools β) (st st' : TarPass) (w : TarWriter) (hdr : TarHeader)
    (body : Bytes) : Prop where
  drop : st'.drop = st.drop
  flushed : w.missing = 0
  accepted : tools.refuse hdr = none
  written : ∃ w' e, st'.w = some w' ∧ w'.entries = w.entries ++ [e] ∧ e.header = hdr ∧
    st'.manifest = tools.record st.manifest e ∧
    if hdr.typeflag = typeReg then e.body = body ∧ w'.missing + body.length = hdr.size.toNat
    else e.body = [] ∧ w'.missing = if headerOnly hdr.typeflag then 0 else hdr.size.toNat

variable {drop : Option DropFilter} {w' : Option TarWriter} {patterns : List String} {content : Bytes} {src : β}

theorem emitHeader_ok (h : tools.emitHeader (some w) hdr = .ok w') : w.missing = 0 ∧ tools.refuse hdr = none ∧
      w' = some ⟨w.entries ++ [⟨hdr, []⟩], if headerOnly hdr.typeflag then 0 else hdr.size.toNat⟩ := by
  obtain ⟨w₁, hhead, hsome⟩ := bind_eq_ok.1 h
  obtain ⟨_, hflush, hrest⟩ := bind_eq_ok.1 hhead
  have hmissing : w.missing = 0 := by
    by_contra hne
    rw [TarWriter.flush, if_neg hne] at hflush
    cases hflush
  cases hrefuse : tools.refuse hdr with
  | some e =>
    rw [hrefuse] at hrest
    cases hrest
  | none =>
    rw [hrefuse] at hrest
    refine ⟨hmissing, rfl, ?_⟩
    rw [← Except.ok.inj hsome, ← Except.ok.inj hrest]

theorem emitBody_ok {rest : List TarEntry} (hw : w.entries = rest ++ [e])
    (h : TarTools.emitBody (some w) content = .ok w') :
    ∃ w₁, w' = some w₁ ∧ w₁.entries = rest ++ [{ e with body := e.body ++ content }] ∧
      w₁.missing + content.length = w.missing := by
  obtain ⟨w₁, hput, hsome⟩ := bind_eq_ok.1 h
  refine ⟨w₁, (Except.ok.inj hsome).symm, ?_⟩
  unfold TarWriter.writeBody at hput
  split at hput
  · cases hput
  · obtain rfl := Except.ok.inj hput
    refine ⟨?_, by dsimp only; omega⟩
    simp [hw]

theorem fingerprint_manifest (st : TarPass) (w : Option TarWriter) (e : TarEntry) :
    (tools.fingerprint st w e.header e.path e.body).manifest = tools.record st.manifest e := rfl

theorem emit_ok {promotedBody : Option Bytes} (hw : st.w = some w)
    (h : tools.emit st hdr (pathClean hdr.name) promotedBody (.ok content) = .ok st') :
    Emits tools st st' w hdr (promotedBody.getD content) := by
  obtain ⟨w₁, hhead, hrest⟩ := bind_eq_ok.1 h
  rw [hw] at hhead
  obtain ⟨hflushed, haccepted, rfl⟩ := emitHeader_ok hhead
  by_cases hreg : hdr.typeflag = typeReg
  · rw [if_pos (beq_iff_eq.2 hreg)] at hrest
    obtain ⟨content', hcontent, hrest⟩ := bind_eq_ok.1 hrest
    have hbody : promotedBody.getD content = content' := by
      cases promotedBody <;> exact Except.ok.inj hcontent
    obtain ⟨w₂, hput, hret⟩ := bind_eq_ok.1 hrest
    obtain ⟨w₃, rfl, hentries, hmissing⟩ := emitBody_ok (rfl : _ = w.entries ++ [_]) hput
    obtain rfl := Except.ok.inj hret
    refine ⟨rfl, hflushed, haccepted, w₃, ⟨hdr, content'⟩, rfl, hentries, rfl,
      fingerprint_manifest st _ ⟨hdr, content'⟩, ?_⟩
    rw [if_pos hreg, hbody]
    refine ⟨rfl, hmissing.trans ?_⟩
    rw [hreg]
    rfl
  · rw [if_neg (fun hbeq => hreg (beq_iff_eq.1 hbeq))] at hrest
    obtain rfl := Except.ok.inj hrest
    refine ⟨rfl, hflushed, haccepted, _, ⟨hdr, []⟩, rfl, rfl, rfl, fingerprint_manifest st _ ⟨hdr, []⟩, ?_⟩
    rw [if_neg hreg]
    exact ⟨rfl, rfl⟩

theorem Emits.complete (hfits : o.Fits) (h : Emits tools st st' w o.header o.body) :
    ∃ w' o', st'.w = some w' ∧ w'.entries = w.entries ++ [o'] ∧ tools.refuse o'.header = none ∧
      st'.manifest = tools.record st.manifest o' ∧ (w'.missing = 0 → o' = o) := by
  obtain ⟨w', o', hw', hentries, hheader, hmanifest, hbody⟩ := h.written
  refine ⟨w', o', hw', hentries, hheader ▸ h.accepted, hmanifest, fun hmissing => ?_⟩
  have hsame : o'.body = o.body → o' = o := by
    intro hb
    cases o'
    cases o
    simp_all
  refine hsame ?_
  unfold TarEntry.Fits at hfits
  by_cases hreg : o.header.typeflag = typeReg
  · rw [if_pos hreg] at hbody
    exact hbody.1
  · rw [if_neg hreg] at hbody
    rw [hbody.1]
    by_cases hhead : headerOnly o.header.typeflag = true
    · rw [if_pos hhead] at hfits
      exact hfits.symm
    · -- a body of another kind is never copied, so it was empty
      rw [if_neg hhead] at hfits
      rw [if_neg hhead, hmissing, hfits] at hbody
      exact (List.length_eq_zero_iff.1 hbody.2.symm).symm

/-! ## What the filter decides -/

/-- The cases of `decide`, each with the filter and the decision it ends in. -/
inductive Decides (tools : TarTools β) (f : DropFilter) (hdr : TarHeader) (cleaned : String) :
    DropFilter × Decision → Prop where
  | named (h : f.matchesEntry tools cleaned hdr.typeflag = true) :
      Decides tools f hdr cleaned (f.discard tools hdr cleaned)
  | kept (h : f.matchesEntry tools cleaned hdr.typeflag = false)
      (hlink : hdr.typeflag = typeLink → GoMap.get? f.promoted (pathClean hdr.linkname) = none ∧
        pathClean hdr.linkname ∉ f.dropped) :
      Decides tools f hdr cleaned (f, ⟨hdr, false, false, none⟩)
  | redirected (h : f.matchesEntry tools cleaned hdr.typeflag = false) (hlink : hdr.typeflag = typeLink)
      {promotedPath : String}
      (hpromoted : GoMap.get? f.promoted (pathClean hdr.linkname) = some promotedPath) :
      Decides tools f hdr cleaned (f, ⟨{ hdr with linkname := promotedPath }, false, false, none⟩)
  | promoted (h : f.matchesEntry tools cleaned hdr.typeflag = false) (hlink : hdr.typeflag = typeLink)
      (hfirst : GoMap.get? f.promoted (pathClean hdr.linkname) = none)
      (hdropped : pathClean hdr.linkname ∈ f.dropped) {body : Bytes}
      (hbody : GoMap.get? f.bodies (pathClean hdr.linkname) = some body) :
      Decides tools f hdr cleaned
        ({ f with
            promoted := GoMap.set f.promoted (pathClean hdr.linkname) cleaned
            bodies := GoMap.erase f.bodies (pathClean hdr.linkname)
            buffered := f.buffered - body.length },
          ⟨{ hdr with typeflag := typeReg, linkname := "", size := body.length }, false, false, some body⟩)
  | unbuffered (h : f.matchesEntry tools cleaned hdr.typeflag = false) (hlink : hdr.typeflag = typeLink)
      (hfirst : GoMap.get? f.promoted (pathClean hdr.linkname) = none)
      (hdropped : pathClean hdr.linkname ∈ f.dropped)
      (hbody : GoMap.get? f.bodies (pathClean hdr.linkname) = none) :
      Decides tools f hdr cleaned (f.discard tools hdr cleaned)

theorem decideEntry_decides (f : DropFilter) (hdr : TarHeader) (cleaned : String) :
    Decides tools f hdr cleaned (f.decideEntry tools hdr cleaned) := by
  unfold DropFilter.decideEntry
  split
  · rename_i h
    exact .named h
  rename_i hmatch
  have h : f.matchesEntry tools cleaned hdr.typeflag = false := by simpa using hmatch
  split
  · rename_i hlink
    rw [beq_iff_eq] at hlink
    unfold DropFilter.redirect
    dsimp only
    split
    · rename_i promotedPath hpromoted
      exact .redirected h hlink hpromoted
    rename_i hfirst
    split
    · rename_i hcontains
      have hdropped : pathClean hdr.linkname ∈ f.dropped := by simpa using hcontains
      split
      · rename_i body hbody
        exact .promoted h hlink hfirst hdropped hbody
      · rename_i hbody
        exact .unbuffered h hlink hfirst hdropped hbody
    · rename_i hcontains
      exact .kept h fun _ => ⟨hfirst, by simpa using hcontains⟩
  · rename_i hlink
    exact .kept h fun heq => absurd (beq_iff_eq.2 heq) hlink

theorem Decides.fits {f : DropFilter}
    (h : Decides tools f e.header e.path out) (hfits : e.Fits) (hkept : out.2.drop = false) :
    out.2.header.name = e.header.name ∧ (⟨out.2.header, out.2.promotedBody.getD e.body⟩ : TarEntry).Fits := by
  cases h with
  | named | unbuffered => cases hkept
  | kept | redirected => exact ⟨rfl, hfits⟩
  | promoted => exact ⟨rfl, rfl⟩

theorem parseEntry_sifts (hw : st.w = some w)
    (hfits : e.Fits) (h : tools.parseEntry st e.header (.ok e.body) = .ok st') :
    st'.drop = (tools.sift st.drop e).1 ∧
      (((tools.sift st.drop e).2 = none ∧ st'.w = some w ∧ st'.manifest = st.manifest) ∨
        ∃ o, (tools.sift st.drop e).2 = some o ∧ o.Fits ∧ w.missing = 0 ∧
          ∃ w' o', st'.w = some w' ∧ w'.entries = w.entries ++ [o'] ∧ tools.refuse o'.header = none ∧
            st'.manifest = tools.record st.manifest o' ∧ (w'.missing = 0 → o' = o)) := by
  unfold TarTools.parseEntry at h
  unfold TarTools.sift
  cases hdrop : st.drop with
  | none =>
    rw [hdrop] at h
    have hemits := emit_ok hw h
    exact ⟨hemits.drop.trans hdrop, .inr ⟨e, rfl, hfits, hemits.flushed, hemits.complete hfits⟩⟩
  | some f =>
    rw [hdrop] at h
    have hdecides : Decides tools f e.header e.path (f.decideEntry tools e.header e.path) :=
      decideEntry_decides f e.header e.path
    have hpath : pathClean e.header.name = e.path := rfl
    dsimp only at h ⊢
    rw [hpath] at h
    generalize f.decideEntry tools e.header e.path = out at h hdecides ⊢
    by_cases hd : out.2.drop = true
    · rw [if_pos hd] at h ⊢
      obtain rfl := Except.ok.inj h
      exact ⟨rfl, .inl ⟨rfl, hw, rfl⟩⟩
    · rw [if_neg hd] at h ⊢
      obtain ⟨hname, hofits⟩ := hdecides.fits hfits (by simpa using hd)
      have hcleaned : e.path = pathClean out.2.header.name := by
        rw [hname]
        rfl
      rw [hcleaned] at h
      have hemits := emit_ok (w := w) (by exact hw) h
      have hcomplete := Emits.complete hofits hemits
      exact ⟨hemits.drop, .inr ⟨_, rfl, hofits, hemits.flushed, hcomplete⟩⟩

/-- What the pass has done so far: the writer holds what was sifted through, unless the body of its last entry is
still missing, and the manifest is that of its entries. -/
structure Passed (tools : TarTools β) (drop : Option DropFilter) (done : List TarEntry) (st : TarPass) :
    Prop where
  filter : st.drop = (tools.sifted drop done).1
  written : ∃ w, st.w = some w ∧ st.manifest = w.entries.foldl tools.record [] ∧
    (∀ o ∈ w.entries, tools.refuse o.header = none) ∧
    (w.missing = 0 → w.entries = (tools.sifted drop done).2 ∧ ∀ o ∈ w.entries, o.Fits)

theorem sifted_append_single (drop : Option DropFilter) (es : List TarEntry) (e : TarEntry) :
    tools.sifted drop (es ++ [e]) = tools.siftNext (tools.sifted drop es) e := by
  unfold TarTools.sifted
  rw [List.foldl_append]
  rfl

theorem Passed.next {done : List TarEntry} (hpassed : Passed tools drop done st) (hfits : e.Fits)
    (h : tools.parseEntry st e.header (.ok e.body) = .ok st') : Passed tools drop (done ++ [e]) st' := by
  obtain ⟨w, hw, hmanifest, haccepted, hsettled⟩ := hpassed.written
  obtain ⟨hdrop, hstep⟩ := parseEntry_sifts hw hfits h
  rw [hpassed.filter] at hdrop hstep
  constructor
  · rw [sifted_append_single, hdrop]
    rfl
  · rw [sifted_append_single]
    unfold TarTools.siftNext
    obtain ⟨hnone, hw', hm⟩ | ⟨o, hsome, hofits, hflushed, w', o', hw', hentries, haccept, hm, hcomplete⟩ :=
      hstep
    · rw [hnone]
      refine ⟨w, hw', hm.trans hmanifest, haccepted, fun hmissing => ?_⟩
      rw [Option.toList_none, List.append_nil]
      exact hsettled hmissing
    · obtain ⟨hsame, hfit⟩ := hsettled hflushed
      rw [hsome, Option.toList_some]
      refine ⟨w', hw', ?_, ?_, fun hmissing => ?_⟩
      · rw [hm, hmanifest, hentries, List.foldl_append]
        rfl
      · rw [hentries]
        simpa [or_imp, forall_and] using ⟨haccepted, haccept⟩
      · obtain rfl := hcomplete hmissing
        rw [hentries]
        refine ⟨by rw [hsame], ?_⟩
        simpa [or_imp, forall_and] using ⟨hfit, hofits⟩

theorem parseTar_ok {stream : TarStream} (h : tools.parseTar stream st = .ok st') :
    stream.entries.foldlM (fun st e => tools.parseEntry st e.header (.ok e.body)) st = .ok st' := by
  obtain ⟨st₁, hloop, hstop⟩ := bind_eq_ok.1 h
  split at hstop
  · rwa [← Except.ok.inj hstop]
  · cases hstop
  · obtain ⟨_, _, hthrow⟩ := bind_eq_ok.1 hstop
    cases hthrow

theorem buildManifest_eq (hstop : (tools.read src).stop = .eof) :
    tools.buildManifest src = .ok ((tools.read src).entries.foldl tools.record []) := by
  have hentry : ∀ (m : Manifest) (e : TarEntry), tools.parseEntry ⟨m, none, none, none⟩ e.header (.ok e.body) =
        .ok ⟨tools.record m e, none, none, none⟩ := by
    intro m e
    unfold TarTools.parseEntry TarTools.emit
    by_cases hreg : e.header.typeflag = typeReg
    · rw [hreg]
      rfl
    · have hbeq : (e.header.typeflag == typeReg) = false := beq_eq_false_iff_ne.2 hreg
      rw [hbeq]
      show Except.ok (tools.fingerprint ⟨m, none, none, none⟩ none e.header e.path []) = _
      unfold TarTools.fingerprint TarTools.record
      rw [fileInfo_of_ne hreg [] e.body]
  have hloop : ∀ (es : List TarEntry) (m : Manifest),
      es.foldlM (fun st e => tools.parseEntry st e.header (.ok e.body)) ⟨m, none, none, none⟩ =
        .ok ⟨es.foldl tools.record m, none, none, none⟩ := by
    intro es
    induction es with
    | nil => exact fun m => rfl
    | cons e es ih =>
      intro m
      rw [List.foldlM_cons, hentry]
      exact ih (tools.record m e)
  unfold TarTools.buildManifest TarTools.parseTar
  rw [hloop, hstop]
  rfl

def startFilter (patterns : List String) : Option DropFilter :=
  if patterns.isEmpty then none else some ⟨patterns, [], [], [], 0⟩

theorem newDropper_ok {valid : String → Bool}
    (h : newDropper valid patterns = .ok drop) : drop = startFilter patterns := by
  unfold newDropper at h
  unfold startFilter
  split at h
  · rename_i hempty
    rw [if_pos hempty]
    exact (Except.ok.inj h).symm
  · rename_i hempty
    rw [if_neg hempty]
    split at h
    · cases h
    · exact (Except.ok.inj h).symm

theorem filterTar_sifts {dst : β} {m : Manifest} {stats : DropStats}
    (h : tools.filterTar src patterns = .ok (dst, m, stats)) :
    (tools.read dst).entries = (tools.sifted (startFilter patterns) (tools.read src).entries).2 ∧
      (tools.read dst).stop = .eof ∧ m = (tools.read dst).entries.foldl tools.record [] := by
  obtain ⟨drop, hdrop, hrest⟩ := bind_eq_ok.1 h
  obtain rfl := newDropper_ok hdrop
  obtain ⟨st, hparse, hrest⟩ := bind_eq_ok.1 hrest
  obtain ⟨dst', hclose, hret⟩ := bind_eq_ok.1 hrest
  have hpassed : Passed tools (startFilter patterns) (tools.read src).entries st := by
    refine foldlM_eq_ok (Passed tools (startFilter patterns)) _ ?_ ?_ (parseTar_ok hparse)
    · intro done e st₁ st₂ he hI hstep
      exact hI.next ((tools.read src).fits e he) hstep
    · refine ⟨rfl, ⟨[], 0⟩, rfl, rfl, ?_, fun _ => ⟨rfl, ?_⟩⟩
      · exact fun o ho => absurd ho List.not_mem_nil
      · exact fun o ho => absurd ho List.not_mem_nil
  obtain ⟨w, hw, hmanifest, haccepted, hsettled⟩ := hpassed.written
  rw [hw] at hclose
  obtain ⟨_, hflush, hwrite⟩ := bind_eq_ok.1 hclose
  have hmissing : w.missing = 0 := by
    by_contra hne
    rw [Option.getD_some, TarWriter.flush, if_neg hne] at hflush
    cases hflush
  obtain ⟨hentries, hfits⟩ := hsettled hmissing
  obtain ⟨hread, hstop⟩ := tools.read_write w.entries fun o ho => ⟨hfits o ho, haccepted o ho⟩
  obtain ⟨hdst, hm, -⟩ : dst' = dst ∧ st.manifest = m ∧ _ := by
    simpa using Except.ok.inj hret
  obtain rfl : tools.write w.entries = dst := (Except.ok.inj hwrite).trans hdst
  rw [hread]
  exact ⟨hentries, hstop, hm.symm.trans hmanifest⟩

/-- The manifest of a filtered archive is what reading it back gives. -/
theorem filterTar_manifest (tools : TarTools β) (src dst : β) (patterns : List String) (m : Manifest)
    (stats : DropStats) (h : tools.filterTar src patterns = .ok (dst, m, stats)) :
    tools.buildManifest dst = .ok m := by
  obtain ⟨-, hstop, hm⟩ := filterTar_sifts h
  rw [buildManifest_eq hstop, hm]

end Pass

def plainTools : TarTools TarStream where
  read := id
  refuse := fun _ => none
  write := fun es => if h : ∀ e ∈ es, e.Fits then ⟨es, h, .eof⟩ else ⟨[], nofun, .eof⟩
  read_write := by
    intro es h
    have hfits : ∀ e ∈ es, e.Fits := fun e he => (h e he).1
    rw [dif_pos hfits]
    exact ⟨rfl, rfl⟩
  validPattern := fun _ => true
  globMatch := fun p name => p == name
  sha256 := fun content => toString content
  maxTotalBufferedBytes := 4096

def logVolume : TarStream where
  entries := [⟨⟨"data/", typeDir, "", 0⟩, []⟩, ⟨⟨"data/log", typeReg, "", 2⟩, [7, 9]⟩,
    ⟨⟨"./data/first", typeLink, "data/log", 0⟩, []⟩, ⟨⟨"data/second", typeLink, "data/log", 0⟩, []⟩,
    ⟨⟨"data/pg", typeReg, "", 1⟩, [5]⟩]
  fits := by decide
  stop := .eof

def logless : List TarEntry :=
  [⟨⟨"data/", typeDir, "", 0⟩, []⟩, ⟨⟨"./data/first", typeReg, "", 2⟩, [7, 9]⟩,
    ⟨⟨"data/second", typeLink, "data/first", 0⟩, []⟩, ⟨⟨"data/pg", typeReg, "", 1⟩, [5]⟩]

theorem logVolume_filtered : ∃ dst stats, plainTools.filterTar logVolume ["data/log"] =
      .ok (dst, logless.foldl plainTools.record [], stats) ∧ dst.entries = logless := by
  have hrun : (plainTools.filterTar logVolume ["data/log"]).toOption.map
      (fun r => (r.1.entries, r.2.1)) = some (logless, logless.foldl plainTools.record []) := by
    decide +kernel
  cases hfilter : plainTools.filterTar logVolume ["data/log"] with
  | error e =>
    rw [hfilter] at hrun
    cases hrun
  | ok r =>
    rw [hfilter] at hrun
    obtain ⟨hentries, hmanifest⟩ := Prod.mk.inj (Option.some.inj hrun)
    exact ⟨r.1, r.2.2, by rw [← hmanifest], hentries⟩

theorem logVolume_manifest : ∃ dst, plainTools.buildManifest dst = .ok (logless.foldl plainTools.record []) ∧
      dst.entries = logless := by
  obtain ⟨dst, stats, hfilter, hentries⟩ := logVolume_filtered
  exact ⟨dst, filterTar_manifest plainTools logVolume dst ["data/log"] _ stats hfilter, hentries⟩

/-! ## Contents -/

/-- What an entry that is no hardlink stands for. -/
structure TarContent where
  typeflag : UInt8
  link : String
  body : Bytes
  deriving DecidableEq, Repr

namespace TarEntry

variable (e : TarEntry)

def IsLink : Prop := e.header.typeflag = typeLink

instance : Decidable e.IsLink := by
  unfold IsLink
  infer_instance

def target : String := pathClean e.header.linkname

def content : TarContent where
  typeflag := e.header.typeflag
  link := if e.header.typeflag = typeSymlink then e.header.linkname else ""
  body := e.body

/-- The content an entry of an archive resolves to: its own, or that of the entry it links to. -/
def resolve (es : List TarEntry) : Option TarContent :=
  if e.IsLink then (es.find? fun t => t.path == e.target).map content else some e.content

end TarEntry

def LinksBack (es : List TarEntry) : Prop :=
  ∀ pre e post, es = pre ++ e :: post → e.IsLink → ∃ t ∈ pre, t.path = e.target

/-- Cleaned names are distinct, and every hardlink names an earlier entry that is none. -/
structure WellLinked (es : List TarEntry) : Prop where
  distinct : (es.map (·.path)).Nodup
  back : ∀ pre e post, es = pre ++ e :: post → e.IsLink → ∃ t ∈ pre, ¬t.IsLink ∧ t.path = e.target

section Contents

variable {es : List TarEntry}

theorem WellLinked.eq_of_path {a b : TarEntry} (h : WellLinked es) (ha : a ∈ es) (hb : b ∈ es)
    (hpath : a.path = b.path) : a = b :=
  List.inj_on_of_nodup_map h.distinct ha hb hpath

theorem find?_path (h : (es.map (·.path)).Nodup) (ht : t ∈ es) : es.find? (fun e => e.path == t.path) = some t := by
  cases hfind : es.find? fun e => e.path == t.path with
  | none => exact absurd (beq_self_eq_true t.path) (List.find?_eq_none.1 hfind t ht)
  | some e =>
    have hfound := List.find?_some hfind
    have hpath : e.path = t.path := by simpa using hfound
    exact congrArg some (List.inj_on_of_nodup_map h (List.mem_of_find?_eq_some hfind) ht hpath)

theorem resolve_link (h : (es.map (·.path)).Nodup) (hlink : e.IsLink) (ht : t ∈ es)
    (hpath : t.path = e.target) : e.resolve es = some t.content := by
  unfold TarEntry.resolve
  rw [if_pos hlink, ← hpath, find?_path h ht]
  rfl

theorem LinksBack.snoc (h : LinksBack es)
    (he : e.IsLink → ∃ t ∈ es, t.path = e.target) : LinksBack (es ++ [e]) := by
  intro pre x post hsplit hlink
  obtain rfl | ⟨post, last, rfl⟩ := post.eq_nil_or_concat
  · obtain ⟨rfl, hx⟩ := List.append_inj' hsplit rfl
    obtain rfl := List.singleton_inj.1 hx
    exact he hlink
  · have hes : es = pre ++ x :: post := by
      rw [List.concat_eq_append, ← List.cons_append, ← List.append_assoc] at hsplit
      exact (List.append_inj' hsplit rfl).1
    exact h pre x post hes hlink

end Contents

/-! ## What the sifting keeps -/

section Sifting

variable {β : Type} (tools : TarTools β) (patterns : List String) (es : List TarEntry)

def Named (e : TarEntry) : Prop :=
  patterns.any (patternDrops tools.globMatch e.path e.header.typeflag) = true

def held (pre : List TarEntry) : Int :=
  ((tools.sifted (startFilter patterns) pre).1.map (·.buffered)).getD 0

/-- The content of an entry is buffered when it is dropped: it is a regular file, and neither it alone
nor all that is held with it is too large. -/
def Buffers (t : TarEntry) : Prop :=
  t.header.typeflag = typeReg ∧ t.header.size ≤ maxPromotableLinkTarget ∧
    ∀ pre post, es = pre ++ t :: post →
      held tools patterns pre + t.header.size ≤ tools.maxTotalBufferedBytes

/-- A link whose target was dropped without its content being buffered. -/
def Lost (e : TarEntry) : Prop :=
  e.IsLink ∧ ∃ t ∈ es, t.path = e.target ∧ Named tools patterns t ∧ ¬Buffers tools patterns es t

/-- An entry of an archive with the content of `t`, in itself or by a link to an entry that has it. -/
def Bears (outs : List TarEntry) (o t : TarEntry) : Prop :=
  (¬o.IsLink ∧ o.content = t.content) ∨
    (o.IsLink ∧ ∃ p ∈ outs, p.path = o.target ∧ ¬p.IsLink ∧ p.content = t.content)

/-- The content of a dropped file is held, or has been let through under another name. -/
def Available (f : DropFilter) (outs : List TarEntry) (t : TarEntry) : Prop :=
  (GoMap.get? f.bodies t.path = some t.body ∧ GoMap.get? f.promoted t.path = none) ∨
    ∃ o ∈ outs, GoMap.get? f.promoted t.path = some o.path ∧ ¬o.IsLink ∧ o.content = t.content

/-- The content of a dropped file is neither held nor let through. -/
def Gone (f : DropFilter) (t : TarEntry) : Prop :=
  GoMap.get? f.bodies t.path = none ∧ GoMap.get? f.promoted t.path = none

/-- The state of the filter after some entries of `es`, and what it has let through. -/
structure Sifts (pre : List TarEntry) (f : DropFilter) (outs : List TarEntry) : Prop where
  patterns_eq : f.patterns = patterns
  seen : ∀ k, k ∈ f.dropped ∨ GoMap.get? f.promoted k ≠ none ∨ GoMap.get? f.bodies k ≠ none →
    ∃ e ∈ pre, e.path = k
  named : ∀ t ∈ pre, Named tools patterns t → t.path ∈ f.dropped ∧
    (Buffers tools patterns es t → Available f outs t) ∧ (¬Buffers tools patterns es t → Gone f t)
  kept : ∀ e ∈ pre, ¬Named tools patterns e → ¬e.IsLink →
    e ∈ outs ∧ e.path ∉ f.dropped ∧ GoMap.get? f.promoted e.path = none
  links : ∀ e ∈ pre, ¬Named tools patterns e → e.IsLink → Lost tools patterns es e ∨
    ∃ o ∈ outs, o.header.name = e.header.name ∧ ∃ t ∈ pre, t.path = e.target ∧ Bears outs o t
  origin : ∀ o ∈ outs, ∃ e ∈ pre, ¬Named tools patterns e ∧ o.header.name = e.header.name
  distinct : (outs.map (·.path)).Nodup
  back : LinksBack outs

end Sifting

section Keeping

variable {β : Type} {tools : TarTools β} {patterns : List String} {es pre rest outs : List TarEntry}
  {f : DropFilter} {e : TarEntry}

variable {more : List TarEntry}

theorem Bears.mono (h : Bears outs o t) : Bears (outs ++ more) o t := by
  obtain h | ⟨hlink, p, hp, hrest⟩ := h
  · exact .inl h
  · exact .inr ⟨hlink, p, List.mem_append_left _ hp, hrest⟩

theorem Available.mono (h : Available f outs t) : Available f (outs ++ more) t := by
  obtain h | ⟨o, ho, hrest⟩ := h
  · exact .inl h
  · exact .inr ⟨o, List.mem_append_left _ ho, hrest⟩

theorem buffers_iff (hes : WellLinked es) (hsplit : es = pre ++ e :: rest)
    (hf : (tools.sifted (startFilter patterns) pre).1 = some f) :
    Buffers tools patterns es e ↔ (f.discard tools e.header e.path).2.needsBuffer = true := by
  have hheld : held tools patterns pre = f.buffered := by
    unfold held
    rw [hf]
    rfl
  have hunique : ∀ pre' post', es = pre' ++ e :: post' → pre' = pre := by
    intro pre' post' hsplit'
    have hnodup := hes.distinct.of_map
    have hnotin : ∀ {a b : List TarEntry}, es = a ++ e :: b → e ∉ a := by
      intro a b hab hmem
      rw [hab, List.nodup_append] at hnodup
      exact hnodup.2.2 e hmem e List.mem_cons_self rfl
    obtain hlong | hlong := List.append_eq_append_iff.1 (hsplit'.symm.trans hsplit)
    · obtain ⟨middle, hpre, hrest⟩ := hlong
      cases middle with
      | nil => rw [hpre, List.append_nil]
      | cons x middle =>
        obtain rfl := (List.cons.inj hrest).1
        exact absurd (hpre ▸ List.mem_append_right _ List.mem_cons_self) (hnotin hsplit)
    · obtain ⟨middle, hpre, hrest⟩ := hlong
      cases middle with
      | nil => rw [hpre, List.append_nil]
      | cons x middle =>
        obtain rfl := (List.cons.inj hrest).1
        exact absurd (hpre ▸ List.mem_append_right _ List.mem_cons_self) (hnotin hsplit')
  unfold DropFilter.discard
  simp only [Bool.and_eq_true, beq_iff_eq, decide_eq_true_eq, and_assoc]
  refine and_congr_right fun _ => and_congr_right fun _ => ?_
  rw [← hheld]
  constructor
  · exact fun h => h pre rest hsplit
  · intro h pre' post' hsplit'
    rw [hunique pre' post' hsplit']
    exact h

theorem fresh_of_split (hes : WellLinked es) (hsplit : es = pre ++ e :: rest) : ∀ x ∈ pre, x.path ≠ e.path := by
  have hnodup := hes.distinct
  rw [hsplit, List.map_append, List.nodup_append] at hnodup
  exact fun x hx => hnodup.2.2 x.path (List.mem_map_of_mem hx) e.path (by simp)

theorem mem_of_split (hsplit : es = pre ++ e :: rest) : ∀ x ∈ pre ++ [e], x ∈ es := by
  intro x hx
  rw [hsplit]
  obtain hx | hx := List.mem_append.1 hx
  · exact List.mem_append_left _ hx
  · rw [List.mem_singleton.1 hx]
    exact List.mem_append_right _ List.mem_cons_self

theorem siftNext_dropped (hout : f.decideEntry tools e.header e.path = out) (hdrop : out.2.drop = true) :
    tools.siftNext (some f, outs) e =
      (some (if out.2.needsBuffer then out.1.storeBody e.path e.body else out.1), outs) := by
  unfold TarTools.siftNext TarTools.sift
  dsimp only
  rw [hout, if_pos hdrop, Option.toList_none, List.append_nil]

theorem siftNext_passed (hout : f.decideEntry tools e.header e.path = out) (hdrop : out.2.drop = false) :
    tools.siftNext (some f, outs) e = (some out.1, outs ++ [⟨out.2.header, out.2.promotedBody.getD e.body⟩]) := by
  unfold TarTools.siftNext TarTools.sift
  dsimp only
  rw [hout, if_neg (by rw [hdrop]; nofun), Option.toList_some]

section Step

variable (h : Sifts tools patterns es pre f outs)

include h

theorem Sifts.fresh (hfresh : ∀ x ∈ pre, x.path ≠ e.path) :
    e.path ∉ f.dropped ∧ GoMap.get? f.promoted e.path = none ∧ GoMap.get? f.bodies e.path = none ∧
      ∀ o ∈ outs, o.path ≠ e.path := by
  have hunseen : ¬∃ x ∈ pre, x.path = e.path := fun ⟨x, hx, hpath⟩ => hfresh x hx hpath
  refine ⟨fun hk => hunseen (h.seen _ (.inl hk)), ?_, ?_, fun o ho hpath => ?_⟩
  · by_contra hne
    exact hunseen (h.seen _ (.inr (.inl hne)))
  · by_contra hne
    exact hunseen (h.seen _ (.inr (.inr hne)))
  · obtain ⟨x, hx, -, hname⟩ := h.origin o ho
    have hsame : x.path = o.path := by
      unfold TarEntry.path
      rw [hname]
    exact hfresh x hx (hsame.trans hpath)

theorem Sifts.pass (hfresh : ∀ x ∈ pre, x.path ≠ e.path) (hnamed : ¬Named tools patterns e)
    (hname : o.header.name = e.header.name) (hself : ¬e.IsLink → o = e)
    (hlink : e.IsLink → ∃ t ∈ pre, t.path = e.target ∧ Bears outs o t)
    (hback : o.IsLink → ∃ t ∈ outs, t.path = o.target) : Sifts tools patterns es (pre ++ [e]) f (outs ++ [o]) := by
  obtain ⟨hdropped, hpromoted, -, houts⟩ := h.fresh hfresh
  have hopath : o.path = e.path := by
    unfold TarEntry.path
    rw [hname]
  refine ⟨h.patterns_eq, ?_, ?_, ?_, ?_, ?_, ?_, h.back.snoc hback⟩
  · intro k hk
    obtain ⟨x, hx, hpath⟩ := h.seen k hk
    exact ⟨x, List.mem_append_left _ hx, hpath⟩
  · intro t ht htn
    obtain ht | ht := List.mem_append.1 ht
    · obtain ⟨hd, ha, hg⟩ := h.named t ht htn
      exact ⟨hd, fun hb => (ha hb).mono, hg⟩
    · exact absurd (List.mem_singleton.1 ht ▸ htn) hnamed
  · intro x hx hxn hxl
    obtain hx | hx := List.mem_append.1 hx
    · obtain ⟨ho, hrest⟩ := h.kept x hx hxn hxl
      exact ⟨List.mem_append_left _ ho, hrest⟩
    · obtain rfl := List.mem_singleton.1 hx
      rw [hself hxl]
      exact ⟨List.mem_append_right _ List.mem_cons_self, hdropped, hpromoted⟩
  · intro x hx hxn hxl
    obtain hx | hx := List.mem_append.1 hx
    · obtain hlost | ⟨o', ho', hn, t, ht, htp, hc⟩ := h.links x hx hxn hxl
      · exact .inl hlost
      · exact .inr ⟨o', List.mem_append_left _ ho', hn, t, List.mem_append_left _ ht, htp, hc.mono⟩
    · obtain rfl := List.mem_singleton.1 hx
      obtain ⟨t, ht, htp, hc⟩ := hlink hxl
      exact .inr ⟨o, List.mem_append_right _ List.mem_cons_self, hname, t, List.mem_append_left _ ht,
        htp, hc.mono⟩
  · intro o' ho'
    obtain ho' | ho' := List.mem_append.1 ho'
    · obtain ⟨x, hx, hrest⟩ := h.origin o' ho'
      exact ⟨x, List.mem_append_left _ hx, hrest⟩
    · rw [List.mem_singleton.1 ho']
      exact ⟨e, List.mem_append_right _ List.mem_cons_self, hnamed, hname⟩
  · rw [List.map_append, List.map_singleton, List.nodup_append]
    refine ⟨h.distinct, List.nodup_singleton _, ?_⟩
    intro a ha b hb
    obtain ⟨o', ho', rfl⟩ := List.mem_map.1 ha
    rw [List.mem_singleton.1 hb, hopath]
    exact houts o' ho'

theorem Sifts.leave {f' : DropFilter} (hfresh : ∀ x ∈ pre, x.path ≠ e.path) (hpatterns : f'.patterns = f.patterns)
    (hdropped : f'.dropped = e.path :: f.dropped) (hpromoted : f'.promoted = f.promoted)
    (hbodies : ∀ k, k ≠ e.path → GoMap.get? f'.bodies k = GoMap.get? f.bodies k) (hheld : Named tools patterns e →
      (Buffers tools patterns es e → GoMap.get? f'.bodies e.path = some e.body) ∧
      (¬Buffers tools patterns es e → GoMap.get? f'.bodies e.path = none))
    (hlost : ¬Named tools patterns e → e.IsLink ∧ Lost tools patterns es e) :
    Sifts tools patterns es (pre ++ [e]) f' outs := by
  obtain ⟨-, hunpromoted, -, -⟩ := h.fresh hfresh
  refine ⟨hpatterns.trans h.patterns_eq, ?_, ?_, ?_, ?_, ?_, h.distinct, h.back⟩
  · intro k hk
    by_cases hke : k = e.path
    · exact ⟨e, List.mem_append_right _ List.mem_cons_self, hke.symm⟩
    · rw [hdropped, hpromoted, hbodies k hke] at hk
      obtain ⟨x, hx, hpath⟩ := h.seen k (hk.imp_left fun hmem => (List.mem_cons.1 hmem).resolve_left hke)
      exact ⟨x, List.mem_append_left _ hx, hpath⟩
  · intro t ht htn
    rw [hdropped]
    obtain ht | ht := List.mem_append.1 ht
    · obtain ⟨hd, ha, hg⟩ := h.named t ht htn
      unfold Available Gone at *
      rw [hpromoted, hbodies t.path (hfresh t ht)]
      exact ⟨List.mem_cons_of_mem _ hd, ha, hg⟩
    · obtain rfl := List.mem_singleton.1 ht
      refine ⟨List.mem_cons_self, fun hb => .inl ⟨(hheld htn).1 hb, ?_⟩, fun hb =>
        ⟨(hheld htn).2 hb, ?_⟩⟩
      · rw [hpromoted, hunpromoted]
      · rw [hpromoted, hunpromoted]
  · intro x hx hxn hxl
    obtain hx | hx := List.mem_append.1 hx
    · obtain ⟨ho, hd, hp⟩ := h.kept x hx hxn hxl
      rw [hdropped, hpromoted, List.mem_cons, not_or]
      exact ⟨ho, ⟨hfresh x hx, hd⟩, hp⟩
    · obtain rfl := List.mem_singleton.1 hx
      exact absurd (hlost hxn).1 hxl
  · intro x hx hxn hxl
    obtain hx | hx := List.mem_append.1 hx
    · obtain hlost | ⟨o, ho, hn, t, ht, hrest⟩ := h.links x hx hxn hxl
      · exact .inl hlost
      · exact .inr ⟨o, ho, hn, t, List.mem_append_left _ ht, hrest⟩
    · obtain rfl := List.mem_singleton.1 hx
      exact .inl (hlost hxn).2
  · intro o ho
    obtain ⟨x, hx, hrest⟩ := h.origin o ho
    exact ⟨x, List.mem_append_left _ hx, hrest⟩

/-- The filter learns that the content of a dropped file has been let through. -/
theorem Sifts.learn {n : Int} (hes : WellLinked es) (hpre : ∀ x ∈ pre, x ∈ es)
    (ht : t ∈ pre) (htn : Named tools patterns t)
    (htb : Buffers tools patterns es t) (ho : o ∈ outs) (hlink : ¬o.IsLink) (hcontent : o.content = t.content) :
    Sifts tools patterns es pre { f with
      promoted := GoMap.set f.promoted t.path o.path
      bodies := GoMap.erase f.bodies t.path
      buffered := n } outs := by
  have hother : ∀ x ∈ pre, x ≠ t → t.path ≠ x.path := fun x hx hne hpath =>
    hne (hes.eq_of_path (hpre x hx) (hpre t ht) hpath.symm)
  refine ⟨h.patterns_eq, ?_, ?_, ?_, h.links, h.origin, h.distinct, h.back⟩
  · intro k hk
    by_cases hkt : t.path = k
    · exact ⟨t, ht, hkt⟩
    · rw [GoMap.get?_set, GoMap.get?_erase, if_neg hkt, if_neg hkt] at hk
      exact h.seen k hk
  · intro x hx hxn
    obtain ⟨hd, ha, hg⟩ := h.named x hx hxn
    refine ⟨hd, ?_⟩
    unfold Available Gone at *
    rw [GoMap.get?_set, GoMap.get?_erase]
    by_cases hxt : x = t
    · subst hxt
      rw [if_pos rfl, if_pos rfl]
      exact ⟨fun _ => .inr ⟨o, ho, rfl, hlink, hcontent⟩, fun hb => absurd htb hb⟩
    · rw [if_neg (hother x hx hxt), if_neg (hother x hx hxt)]
      exact ⟨ha, hg⟩
  · intro x hx hxn hxl
    obtain ⟨hxo, hd, hp⟩ := h.kept x hx hxn hxl
    have hxt : x ≠ t := fun heq => hxn (heq ▸ htn)
    rw [GoMap.get?_set, if_neg (hother x hx hxt)]
    exact ⟨hxo, hd, hp⟩

theorem matchesEntry_iff : f.matchesEntry tools e.path e.header.typeflag = true ↔ Named tools patterns e := by
  unfold DropFilter.matchesEntry Named
  rw [h.patterns_eq]

theorem not_named (hmatch : f.matchesEntry tools e.path e.header.typeflag = false) : ¬Named tools patterns e := by
  intro hnamed
  rw [(matchesEntry_iff h).2 hnamed] at hmatch
  cases hmatch

theorem Sifts.named_of_known (ht : t ∈ pre) (htl : ¬t.IsLink)
    (hknown : t.path ∈ f.dropped ∨ GoMap.get? f.promoted t.path ≠ none) : Named tools patterns t := by
  by_contra htn
  obtain ⟨-, hd, hp⟩ := h.kept t ht htn htl
  exact hknown.elim hd fun hne => hne hp

variable (hes : WellLinked es) (hsplit : es = pre ++ e :: rest)

include hes hsplit

theorem Sifts.stepNamed (hf : (tools.sifted (startFilter patterns) pre).1 = some f)
    (hnamed : Named tools patterns e) : Sifts tools patterns es (pre ++ [e])
      (if (f.discard tools e.header e.path).2.needsBuffer then
        (f.discard tools e.header e.path).1.storeBody e.path e.body
      else (f.discard tools e.header e.path).1) outs := by
  have hfresh := fresh_of_split hes hsplit
  have hbuffers := buffers_iff hes hsplit hf
  obtain ⟨-, -, hunheld, -⟩ := h.fresh hfresh
  by_cases hbuf : Buffers tools patterns es e
  · rw [if_pos (hbuffers.1 hbuf)]
    refine h.leave hfresh rfl rfl rfl (fun k hk => ?_) (fun _ => ⟨fun _ => ?_, absurd hbuf⟩)
      (absurd hnamed)
    · exact (GoMap.get?_set _ _ _ _).trans (if_neg hk.symm)
    · exact (GoMap.get?_set _ _ _ _).trans (if_pos rfl)
  · rw [if_neg fun hneeds => hbuf (hbuffers.2 hneeds)]
    refine h.leave hfresh rfl rfl rfl (fun _ _ => rfl) (fun _ => ⟨fun hb => absurd hb hbuf, ?_⟩)
      (absurd hnamed)
    exact fun _ => hunheld

section

variable (hnamed : ¬Named tools patterns e)

include hnamed

theorem Sifts.stepUnbuffered (hlink : e.IsLink)
    (hfirst : GoMap.get? f.promoted e.target = none) (hdropped : e.target ∈ f.dropped)
    (hbody : GoMap.get? f.bodies e.target = none) :
    Sifts tools patterns es (pre ++ [e]) (f.discard tools e.header e.path).1 outs := by
  obtain ⟨t, ht, htl, htp⟩ := hes.back pre e rest hsplit hlink
  rw [← htp] at hfirst hdropped hbody
  have htn := h.named_of_known ht htl (.inl hdropped)
  have hnobuf : ¬Buffers tools patterns es t := by
    intro hb
    obtain ⟨hheld, -⟩ | ⟨o, -, hpromoted, -⟩ := (h.named t ht htn).2.1 hb
    · rw [hbody] at hheld
      cases hheld
    · rw [hfirst] at hpromoted
      cases hpromoted
  have htes : t ∈ es := mem_of_split hsplit t (List.mem_append_left _ ht)
  exact h.leave (fresh_of_split hes hsplit) rfl rfl rfl (fun _ _ => rfl) (fun hn => absurd hn hnamed)
    fun _ => ⟨hlink, hlink, t, htes, htp, htn, hnobuf⟩

theorem Sifts.stepKept (hunknown : e.IsLink → e.target ∉ f.dropped) :
    Sifts tools patterns es (pre ++ [e]) f (outs ++ [e]) := by
  have hsource : e.IsLink → ∃ t ∈ pre, ¬t.IsLink ∧ t.path = e.target ∧ t ∈ outs := by
    intro hlink
    obtain ⟨t, ht, htl, htp⟩ := hes.back pre e rest hsplit hlink
    have htn : ¬Named tools patterns t := by
      intro hn
      refine hunknown hlink ?_
      rw [← htp]
      exact (h.named t ht hn).1
    exact ⟨t, ht, htl, htp, (h.kept t ht htn htl).1⟩
  refine h.pass (fresh_of_split hes hsplit) hnamed rfl (fun _ => rfl) (fun hlink => ?_) fun hlink => ?_
  · obtain ⟨t, ht, htl, htp, hout⟩ := hsource hlink
    exact ⟨t, ht, htp, .inr ⟨hlink, t, hout, htp, htl, rfl⟩⟩
  · obtain ⟨t, -, -, htp, hout⟩ := hsource hlink
    exact ⟨t, hout, htp⟩

/-- A link to a dropped file whose content has been let through already. -/
theorem Sifts.stepRedirected (hlink : e.IsLink)
    {promotedPath : String} (hpromoted : GoMap.get? f.promoted e.target = some promotedPath) :
    Sifts tools patterns es (pre ++ [e]) f (outs ++ [⟨{ e.header with linkname := promotedPath }, e.body⟩]) := by
  obtain ⟨t, ht, htl, htp⟩ := hes.back pre e rest hsplit hlink
  rw [← htp] at hpromoted
  have htn := h.named_of_known ht htl (.inr (by rw [hpromoted]; nofun))
  obtain ⟨-, ha, hg⟩ := h.named t ht htn
  have htb : Buffers tools patterns es t := by
    by_contra hb
    rw [(hg hb).2] at hpromoted
    cases hpromoted
  obtain ⟨-, hnone⟩ | ⟨o, ho, hpath, hol, hoc⟩ := ha htb
  · rw [hnone] at hpromoted
    cases hpromoted
  · obtain rfl : o.path = promotedPath := Option.some.inj (hpath.symm.trans hpromoted)
    -- the promoted path is a cleaned one, so the redirected link names it
    have hnames : o.path = pathClean o.path := (pathClean_idem _).symm
    refine h.pass (fresh_of_split hes hsplit) hnamed rfl (absurd hlink) (fun _ => ?_)
      fun _ => ⟨o, ho, hnames⟩
    exact ⟨t, ht, htp, .inr ⟨hlink, o, ho, hnames, hol, hoc⟩⟩

theorem Sifts.stepPromoted (hlink : e.IsLink)
    (hfirst : GoMap.get? f.promoted e.target = none) (hdropped : e.target ∈ f.dropped) {body : Bytes}
    (hbody : GoMap.get? f.bodies e.target = some body) : Sifts tools patterns es (pre ++ [e]) { f with
        promoted := GoMap.set f.promoted e.target e.path
        bodies := GoMap.erase f.bodies e.target
        buffered := f.buffered - body.length }
      (outs ++ [⟨{ e.header with typeflag := typeReg, linkname := "", size := body.length }, body⟩]) := by
  obtain ⟨t, ht, htl, htp⟩ := hes.back pre e rest hsplit hlink
  rw [← htp] at hfirst hdropped hbody ⊢
  have htn := h.named_of_known ht htl (.inl hdropped)
  obtain ⟨-, ha, hg⟩ := h.named t ht htn
  have htb : Buffers tools patterns es t := by
    by_contra hb
    rw [(hg hb).1] at hbody
    cases hbody
  have hheld : t.body = body := by
    obtain ⟨hheld, -⟩ | ⟨o, -, hpath, -⟩ := ha htb
    · exact Option.some.inj (hheld.symm.trans hbody)
    · rw [hfirst] at hpath
      cases hpath
  subst hheld
  let o : TarEntry :=
    ⟨{ e.header with typeflag := typeReg, linkname := "", size := t.body.length }, t.body⟩
  have hcontent : o.content = t.content := by
    unfold TarEntry.content
    rw [htb.1]
    rfl
  have hplain : ¬o.IsLink := by
    show ¬typeReg = typeLink
    decide
  have hpass : Sifts tools patterns es (pre ++ [e]) f (outs ++ [o]) :=
    h.pass (fresh_of_split hes hsplit) hnamed rfl (absurd hlink)
      (fun _ => ⟨t, ht, htp, .inl ⟨hplain, hcontent⟩⟩) fun hl => absurd hl hplain
  exact hpass.learn (o := o) hes (mem_of_split hsplit) (List.mem_append_left _ ht) htn htb
    (List.mem_append_right _ List.mem_cons_self) hplain hcontent

end

theorem Sifts.next (hf : (tools.sifted (startFilter patterns) pre).1 = some f) :
    ∃ f' outs', tools.siftNext (some f, outs) e = (some f', outs') ∧
      Sifts tools patterns es (pre ++ [e]) f' outs' := by
  have hdecides := (decideEntry_decides f e.header e.path : Decides tools f _ _ _)
  generalize hout : f.decideEntry tools e.header e.path = out at hdecides
  cases hdecides with
  | named hmatch =>
    exact ⟨_, _, siftNext_dropped hout rfl, h.stepNamed hes hsplit hf ((matchesEntry_iff h).1 hmatch)⟩
  | unbuffered hmatch hlink hfirst hdropped hbody =>
    have hsmall : (f.discard tools e.header e.path).2.needsBuffer = false := by
      unfold DropFilter.discard
      rw [hlink]
      rfl
    refine ⟨_, _, siftNext_dropped hout rfl, ?_⟩
    rw [hsmall]
    exact h.stepUnbuffered hes hsplit (not_named h hmatch) hlink hfirst hdropped hbody
  | kept hmatch hunknown =>
    exact ⟨_, _, siftNext_passed hout rfl,
      h.stepKept hes hsplit (not_named h hmatch) fun hlink => (hunknown hlink).2⟩
  | redirected hmatch hlink hpromoted =>
    exact ⟨_, _, siftNext_passed hout rfl, h.stepRedirected hes hsplit (not_named h hmatch) hlink hpromoted⟩
  | promoted hmatch hlink hfirst hdropped hbody =>
    exact ⟨_, _, siftNext_passed hout rfl,
      h.stepPromoted hes hsplit (not_named h hmatch) hlink hfirst hdropped hbody⟩

end Step

theorem sifts_sifted (hes : WellLinked es) (hstart : startFilter patterns = some ⟨patterns, [], [], [], 0⟩) :
    ∀ rest, es = pre ++ rest → ∃ f' outs, tools.sifted (startFilter patterns) pre = (some f', outs) ∧
      Sifts tools patterns es pre f' outs := by
  -- entries are sifted front to back, so the induction takes them off the end
  induction pre using List.reverseRecOn with
  | nil =>
    intro _ _
    refine ⟨⟨patterns, [], [], [], 0⟩, [], ?_, ?_⟩
    · rw [hstart]
      rfl
    · refine ⟨rfl, ?_, nofun, nofun, nofun, nofun, List.nodup_nil, ?_⟩
      · intro k hk
        simp [GoMap.get?_nil] at hk
      · intro pre e post hsplit
        exact absurd hsplit.symm (by simp)
  | append_singleton done e ih =>
    intro rest hsplit
    rw [List.append_assoc] at hsplit
    obtain ⟨f', outs, hsifted, hsifts⟩ := ih (e :: rest) hsplit
    rw [sifted_append_single, hsifted]
    exact hsifts.next hes hsplit (by rw [hsifted])

/-- What `filterTar` promises about an archive and what it made of it. -/
structure Keeps (tools : TarTools β) (patterns : List String) (es outs : List TarEntry) : Prop where
  present : ∀ e ∈ es, ¬Named tools patterns e → Lost tools patterns es e ∨
    ∃ o ∈ outs, o.header.name = e.header.name ∧ o.resolve outs = e.resolve es
  back : LinksBack outs
  directories : ∀ e ∈ es, e.header.typeflag = typeDir → e ∈ outs
  absent : ∀ e ∈ es, Named tools patterns e → ∀ o ∈ outs, o.path ≠ e.path

theorem not_named_of_dir (hdir : e.header.typeflag = typeDir) : ¬Named tools patterns e := by
  intro hnamed
  obtain ⟨p, -, hp⟩ := List.any_eq_true.1 hnamed
  unfold patternDrops at hp
  rw [hdir] at hp
  simp at hp

theorem not_link_of_dir (hdir : e.header.typeflag = typeDir) : ¬e.IsLink := by
  unfold TarEntry.IsLink
  rw [hdir]
  decide

theorem Sifts.keeps (hes : WellLinked es) (h : Sifts tools patterns es es f outs) :
    Keeps tools patterns es outs := by
  refine ⟨?_, h.back, ?_, ?_⟩
  · intro e he hnamed
    by_cases hlink : e.IsLink
    · obtain hlost | ⟨o, ho, hname, t, ht, htp, hbears⟩ := h.links e he hnamed hlink
      · exact .inl hlost
      · refine .inr ⟨o, ho, hname, ?_⟩
        rw [resolve_link hes.distinct hlink ht htp]
        obtain ⟨hplain, hcontent⟩ | ⟨holink, p, hp, hpath, -, hcontent⟩ := hbears
        · rw [TarEntry.resolve, if_neg hplain, hcontent]
        · rw [resolve_link h.distinct holink hp hpath, hcontent]
    · refine .inr ⟨e, (h.kept e he hnamed hlink).1, rfl, ?_⟩
      unfold TarEntry.resolve
      rw [if_neg hlink, if_neg hlink]
  · intro e he hdir
    exact (h.kept e he (not_named_of_dir hdir) (not_link_of_dir hdir)).1
  · intro e he hnamed o ho hpath
    obtain ⟨x, hx, hxn, hname⟩ := h.origin o ho
    have hsame : x.path = o.path := by
      unfold TarEntry.path
      rw [hname]
    exact hxn (hes.eq_of_path hx he (hsame.trans hpath) ▸ hnamed)

theorem sifted_none (es : List TarEntry) : tools.sifted none es = (none, es) := by
  induction es using List.reverseRecOn with
  | nil => rfl
  | append_singleton done e ih =>
    rw [sifted_append_single, ih]
    rfl

theorem keeps_nil (hes : WellLinked es) : Keeps tools [] es es where
  present := fun e he _ => .inr ⟨e, he, rfl, rfl⟩
  back := fun pre e post hsplit hlink =>
    let ⟨t, ht, _, hpath⟩ := hes.back pre e post hsplit hlink
    ⟨t, ht, hpath⟩
  directories := fun _ he _ => he
  absent := fun _ _ hnamed => absurd hnamed Bool.false_ne_true

end Keeping

theorem logVolume_wellLinked : WellLinked logVolume.entries where
  distinct := by decide +kernel
  back := by
    have hlinks : ∀ i (hi : i < logVolume.entries.length), (logVolume.entries[i]).IsLink →
        ∃ t ∈ logVolume.entries.take i, ¬t.IsLink ∧ t.path = (logVolume.entries[i]).target := by
      decide +kernel
    intro pre e post hsplit hlink
    have hlen : pre.length < logVolume.entries.length := by
      rw [hsplit, List.length_append, List.length_cons]
      omega
    have hat : logVolume.entries[pre.length] = e := by
      simp [hsplit]
    have hbefore : logVolume.entries.take pre.length = pre := by
      rw [hsplit, List.take_left]
    have hfound := hlinks pre.length hlen
    rw [hat, hbefore] at hfound
    exact hfound hlink

/-- Some proper ancestor of a cleaned relative path matches a pattern. -/
def UnderMatch (glob : String → String → Bool) (stem name : String) : Prop :=
  ∃ dir rest, name = dir ++ "/" ++ rest ∧ glob stem dir = true

theorem cutSuffix_append (s suf : String) : cutSuffix (s ++ suf) suf = some s := by
  have hsuffix : hasSuffix (s ++ suf) suf = true := by simp [hasSuffix]
  rw [cutSuffix, if_pos hsuffix]
  simp [sliceTo]

/-- A pattern that ends in a globstar names what lies under a match of its stem. The rescue for a globstar of no
segment spares more: an entry whose own name matches the stem is kept even where an ancestor matches it too. -/
theorem globstar_drops_iff {β : Type} (tools : TarTools β) (stem name : String) (typ : UInt8) (f : DropFilter)
    (hf : newDropper tools.validPattern [stem ++ "/**"] = .ok (some f)) (htyp : typ ≠ typeDir)
    -- a final globstar stands for any number of segments, none included
    (hglob : tools.globMatch (stem ++ "/**") name = true ↔
      tools.globMatch stem name = true ∨ UnderMatch tools.globMatch stem name) :
    (f.matchesEntry tools name typ = true ↔ UnderMatch tools.globMatch stem name) ↔
      ¬(tools.globMatch stem name = true ∧ UnderMatch tools.globMatch stem name) := by
  obtain rfl : f = ⟨[stem ++ "/**"], [], [], [], 0⟩ := Option.some.inj (newDropper_ok hf)
  have hdrops : DropFilter.matchesEntry tools ⟨[stem ++ "/**"], [], [], [], 0⟩ name typ = true ↔
      tools.globMatch (stem ++ "/**") name = true ∧ ¬tools.globMatch stem name = true := by
    simp [DropFilter.matchesEntry, patternDrops, cutSuffix_append, htyp]
  tauto

/-- A match of segment lists: a globstar stands for any number of segments, a star for one. -/
def segmentsMatch : List String → List String → Bool
  | [], names => names.isEmpty
  | p :: ps, names =>
    if p = "**" then names.tails.any (segmentsMatch ps)
    else match names with
      | [] => false
      | n :: ns => (p == "*" || p == n) && segmentsMatch ps ns

def segmentTools : TarTools TarStream :=
  { plainTools with globMatch := fun p name => segmentsMatch (split p '/') (split name '/') }

theorem logs_globstar_drops : ∃ f, newDropper segmentTools.validPattern ["logs" ++ "/**"] = .ok (some f) ∧
    (f.matchesEntry segmentTools "logs/app.log" typeReg = true ↔
      UnderMatch segmentTools.globMatch "logs" "logs/app.log") := by
  have hunder : UnderMatch segmentTools.globMatch "logs" "logs/app.log" :=
    ⟨"logs", "app.log", by decide +kernel, by decide +kernel⟩
  refine ⟨_, rfl, (globstar_drops_iff segmentTools "logs" "logs/app.log" typeReg _ rfl (by decide) ?_).2 ?_⟩
  · exact iff_of_true (by decide +kernel) (.inr hunder)
  · exact fun h => absurd h.1 (by decide +kernel)

/-- An accepted pattern, and a file in a directory that its stem matches: the file is kept. -/
theorem nested_globstar_spares : Render.validateExclude segmentTools.validPattern "data" "**/a/**" = .ok () ∧
    pathClean "a/a" = "a/a" ∧ segmentTools.globMatch "**/a/**" "a/a" = true ∧
    UnderMatch segmentTools.globMatch "**/a" "a/a" ∧
    ∃ f, newDropper segmentTools.validPattern ["**/a/**"] = .ok (some f) ∧
      f.matchesEntry segmentTools "a/a" typeReg = false :=
  ⟨by decide +kernel, by decide +kernel, by decide +kernel, ⟨"a", "a", by decide +kernel, by decide +kernel⟩,
    _, rfl, by decide +kernel⟩

end PodmanApi.Instance

/-
# PodmanApi.Instance.TarFilter — fingerprints of a volume, and backups that leave files out.

`parseTar` of `internal/instance/manifest.go` fingerprints every entry of a tar; with a writer it also re-emits
them; with a `dropFilter` (`tarfilter.go`) it leaves out what an exclude pattern matches. The first surviving
link to a file that was left out is promoted to a file, and later ones are redirected to it.

`archive/tar` and `doublestar` are parameters. A stream is what `tar.Reader` makes of it.
-/
import PodmanApi.Instance.Calls

namespace PodmanApi.Instance

open GoStd

/-! ## Tar streams -/

def typeReg : UInt8 := 0x30

def typeLink : UInt8 := 0x31

def typeSymlink : UInt8 := 0x32

def typeDir : UInt8 := 0x35

/-- `isHeaderOnlyType` of `archive/tar`: links, devices, directories and pipes have no body. -/
def headerOnly (typeflag : UInt8) : Bool :=
  [typeLink, typeSymlink, 0x33, 0x34, typeDir, 0x36].contains typeflag

/-- `tar.Header`, as far as it is read. -/
structure TarHeader where
  name : String
  typeflag : UInt8
  linkname : String
  size : Int
  deriving DecidableEq, Repr

structure TarEntry where
  header : TarHeader
  body : Bytes
  deriving DecidableEq, Repr

namespace TarEntry

variable (e : TarEntry)

def path : String := pathClean e.header.name

def Fits : Prop :=
  if headerOnly e.header.typeflag then e.body = [] else e.header.size = e.body.length

instance : Decidable e.Fits := by
  unfold Fits
  infer_instance

end TarEntry

/-- How a stream ends: after its last entry, with an error of `Next`, or inside the body of one more
entry. -/
inductive TarEnd where
  | eof
  | failed (e : Error)
  | cut (hdr : TarHeader) (e : Error)
  deriving DecidableEq, Repr

/-- What `tar.Reader` makes of a stream. -/
structure TarStream where
  entries : List TarEntry
  fits : ∀ e ∈ entries, e.Fits
  stop : TarEnd

/-- `archive/tar`, `doublestar` and sha256 over streams of type `β`. What has been written is read
back. -/
structure TarTools (β : Type) where
  read : β → TarStream
  /-- the error of `Writer.WriteHeader` for a header it cannot encode -/
  refuse : TarHeader → Option Error
  /-- the closed archive of these entries -/
  write : List TarEntry → β
  read_write : ∀ es, (∀ e ∈ es, e.Fits ∧ refuse e.header = none) →
    (read (write es)).entries = es ∧ (read (write es)).stop = .eof
  /-- `doublestar.ValidatePattern` -/
  validPattern : String → Bool
  /-- the first result of `doublestar.Match` -/
  globMatch : String → String → Bool
  /-- the hex sha256 of a content -/
  sha256 : Bytes → String
  /-- `maxTotalBufferedBytes` -/
  maxTotalBufferedBytes : Int

/-- `tar.Writer`: the entries begun so far, and how much of the last one's body is missing. -/
structure TarWriter where
  entries : List TarEntry
  missing : Nat
  deriving DecidableEq, Repr

namespace TarWriter

variable {β : Type} (tools : TarTools β)

/-- `Flush`, which every new header and `Close` begin with. -/
def flush (w : TarWriter) : Except Error Unit :=
  if w.missing = 0 then .ok ()
  else .error (.text ("archive/tar: missed writing " ++ toString w.missing ++ " bytes"))

def writeHeader (w : TarWriter) (hdr : TarHeader) : Except Error TarWriter := do
  w.flush
  match tools.refuse hdr with
  | some e => throw e
  | none => pure ⟨w.entries ++ [⟨hdr, []⟩], if headerOnly hdr.typeflag then 0 else hdr.size.toNat⟩

/-- `Write`, for the whole content of an entry. -/
def writeBody (w : TarWriter) (content : Bytes) : Except Error TarWriter :=
  if w.missing < content.length then .error (.text "archive/tar: write too long")
  else .ok ⟨w.entries.dropLast ++ w.entries.getLast?.toList.map fun e => { e with body := e.body ++ content },
    w.missing - content.length⟩

def close (w : TarWriter) : Except Error β := do
  w.flush
  pure (tools.write w.entries)

end TarWriter

/-! ## What is left out -/

def maxPromotableLinkTarget : Int := 64 * 1024 * 1024

structure DropFilter where
  patterns : List String
  dropped : List String
  promoted : GoMap String
  bodies : GoMap Bytes
  buffered : Int
  deriving DecidableEq, Repr

/-- What `decide` says about an entry, with the header as it leaves it. -/
structure Decision where
  header : TarHeader
  drop : Bool
  needsBuffer : Bool
  promotedBody : Option Bytes
  deriving DecidableEq, Repr

/-- Whether one pattern drops an entry. One that ends in a globstar means the contents of a directory and not the
directory, and no directory is ever dropped. -/
def patternDrops (glob : String → String → Bool) (cleaned : String) (typ : UInt8) (p : String) : Bool :=
  glob p cleaned && !((cutSuffix p "/**").any fun stem => glob stem cleaned) && typ != typeDir

def newDropper (valid : String → Bool) (patterns : List String) : Except Error (Option DropFilter) :=
  if patterns.isEmpty then .ok none
  else match patterns.find? fun p => !valid p with
    | some p => .error (.text ("invalid exclude pattern " ++ quote p))
    | none => .ok (some ⟨patterns, [], [], [], 0⟩)

namespace DropFilter

variable {β : Type} (tools : TarTools β)

/-- `matches` -/
def matchesEntry (f : DropFilter) (cleaned : String) (typ : UInt8) : Bool :=
  f.patterns.any (patternDrops tools.globMatch cleaned typ)

/-- The last part of `decide`, for an entry that is dropped. -/
def discard (f : DropFilter) (hdr : TarHeader) (cleaned : String) : DropFilter × Decision :=
  ({ f with dropped := cleaned :: f.dropped },
    ⟨hdr, true, hdr.typeflag == typeReg && decide (hdr.size ≤ maxPromotableLinkTarget) &&
      decide (f.buffered + hdr.size ≤ tools.maxTotalBufferedBytes), none⟩)

/-- The middle part of `decide`, for a link that no pattern matches. -/
def redirect (f : DropFilter) (hdr : TarHeader) (cleaned : String) : DropFilter × Decision :=
  let target := pathClean hdr.linkname
  match GoMap.get? f.promoted target with
  | some promotedPath => (f, ⟨{ hdr with linkname := promotedPath }, false, false, none⟩)
  | none =>
    if f.dropped.contains target then
      match GoMap.get? f.bodies target with
      | some body =>
        ({ f with
            promoted := GoMap.set f.promoted target cleaned
            bodies := GoMap.erase f.bodies target
            buffered := f.buffered - body.length },
          ⟨{ hdr with typeflag := typeReg, linkname := "", size := body.length }, false, false, some body⟩)
      | none => f.discard tools hdr cleaned
    else (f, ⟨hdr, false, false, none⟩)

/-- `decide` -/
def decideEntry (f : DropFilter) (hdr : TarHeader) (cleaned : String) : DropFilter × Decision :=
  if f.matchesEntry tools cleaned hdr.typeflag then f.discard tools hdr cleaned
  else if hdr.typeflag == typeLink then f.redirect tools hdr cleaned
  else (f, ⟨hdr, false, false, none⟩)

def storeBody (f : DropFilter) (cleaned : String) (body : Bytes) : DropFilter :=
  { f with bodies := GoMap.set f.bodies cleaned body, buffered := f.buffered + body.length }

end DropFilter

/-! ## One pass over a stream -/

/-- `tarOpts`, and the manifest that the pass fills. -/
structure TarPass where
  manifest : Manifest
  w : Option TarWriter
  drop : Option DropFilter
  stats : Option DropStats
  deriving DecidableEq, Repr

namespace TarTools

variable {β : Type} (tools : TarTools β)

/-- The fingerprint of an entry; only a regular file has content. -/
def fileInfo (hdr : TarHeader) (content : Bytes) : FileInfo :=
  if hdr.typeflag == typeReg then ⟨typeReg, content.length, tools.sha256 content, ""⟩
  else ⟨hdr.typeflag, 0, "", if hdr.typeflag == typeSymlink || hdr.typeflag == typeLink then hdr.linkname
    else ""⟩

/-- `opt.w.WriteHeader`, when there is a writer. -/
def emitHeader (w : Option TarWriter) (hdr : TarHeader) : Except Error (Option TarWriter) :=
  match w with
  | none => .ok none
  | some w => do
    let w ← w.writeHeader tools hdr
    pure (some w)

/-- The copy of a content into the writer, or into `io.Discard`. -/
def emitBody (w : Option TarWriter) (content : Bytes) : Except Error (Option TarWriter) :=
  match w with
  | none => .ok none
  | some w => do
    let w ← w.writeBody content
    pure (some w)

/-- The end of the loop body: the fingerprint is recorded unless the path is excluded from comparison. -/
def fingerprint (st : TarPass) (w : Option TarWriter) (hdr : TarHeader) (cleaned : String)
    (content : Bytes) : TarPass :=
  { st with
    w := w
    manifest := if excludePath cleaned then st.manifest
      else GoMap.set st.manifest cleaned (tools.fileInfo hdr content) }

/-- The second half of the loop body of `parseTar`, for an entry that is kept. A regular file's content comes from
the stream, a promoted link's from the buffer. -/
def emit (st : TarPass) (hdr : TarHeader) (cleaned : String) (promotedBody : Option Bytes)
    (body : Except Error Bytes) : Except Error TarPass := do
  let w ← tools.emitHeader st.w hdr
  if hdr.typeflag == typeReg then do
    let content ← promotedBody.elim body .ok
    let w ← emitBody w content
    pure (tools.fingerprint st w hdr cleaned content)
  else pure (tools.fingerprint st w hdr cleaned [])

/-- One round of the loop of `parseTar`; `body` is what reading the entry's body gives. -/
def parseEntry (st : TarPass) (hdr : TarHeader) (body : Except Error Bytes) : Except Error TarPass :=
  let cleaned := pathClean hdr.name
  match st.drop with
  | none => tools.emit st hdr cleaned none body
  | some f =>
    let (f, d) := f.decideEntry tools hdr cleaned
    let stats := st.stats.map fun stats => match d.promotedBody with
      -- the bytes of a promoted target ship after all
      | some b => { stats with entries := stats.entries - 1, bytes := stats.bytes - b.length }
      | none => stats
    if d.drop then do
      let content ← body
      pure { st with
        drop := some (if d.needsBuffer then f.storeBody cleaned content else f)
        stats := stats.map fun stats =>
          { stats with entries := stats.entries + 1, bytes := stats.bytes + content.length } }
    else tools.emit { st with drop := some f, stats := stats } d.header cleaned d.promotedBody body

def parseTar (stream : TarStream) (st : TarPass) : Except Error TarPass := do
  let st ← stream.entries.foldlM (fun st e => tools.parseEntry st e.header (.ok e.body)) st
  match stream.stop with
  | .eof => pure st
  | .failed e => throw e
  | .cut hdr e =>
    let _ ← tools.parseEntry st hdr (.error e)
    throw e

def buildManifest (src : β) : Except Error Manifest := do
  let st ← tools.parseTar (tools.read src) ⟨[], none, none, none⟩
  pure st.manifest

/-- `filterTar`: the archive written, its manifest and what was dropped. -/
def filterTar (src : β) (patterns : List String) : Except Error (β × Manifest × DropStats) := do
  let drop ← newDropper tools.validPattern patterns
  let st ← tools.parseTar (tools.read src) ⟨[], some ⟨[], 0⟩, drop, some ⟨patterns, 0, 0⟩⟩
  let dst ← (st.w.getD ⟨[], 0⟩).close tools
  pure (dst, st.manifest, st.stats.getD ⟨patterns, 0, 0⟩)

end TarTools

def Codec.withTar (c : Codec) (tools : TarTools Bytes) : Codec :=
  { c with buildManifest := tools.buildManifest, filterTar := tools.filterTar }

end PodmanApi.Instance

/-
# PodmanApi.GoStd — the parts of Go's standard library that the modelled code computes with.

  * Text is a list of code points. What `unicode.ToLower` and the fold orbits do OUTSIDE ASCII is the parameter
    `Unicode`, so every theorem over it holds for every version of those tables.
  * An error is a sentinel, a plain message, or a `fmt.Errorf` around other errors. `Err.is` walks the chain
    where the code wrote `%w`.
  * A time is an instant in nanoseconds; `Time.sub` saturates as Go's `Time.Sub` does.
-/
import Mathlib.Algebra.Group.Int.Defs
import Mathlib.Algebra.Group.Nat.Defs
import Mathlib.Data.List.Basic
import Mathlib.Data.List.DropRight
import Mathlib.Data.List.Sort

namespace PodmanApi.GoStd

/-! ## Text -/

def isSpace (c : Char) : Bool :=
  let n := c.toNat
  (9 ≤ n && n ≤ 13) || n == 0x20 || n == 0x85 || n == 0xA0 || n == 0x1680 ||
    (0x2000 ≤ n && n ≤ 0x200A) || n == 0x2028 || n == 0x2029 || n == 0x202F || n == 0x205F ||
    n == 0x3000

def trimSpace (s : String) : String :=
  String.ofList ((s.toList.dropWhile isSpace).rdropWhile isSpace)

/-- `strings.TrimRight` with a one-character cutset. -/
def trimRight (s : String) (c : Char) : String :=
  String.ofList (s.toList.rdropWhile (· == c))

def hasPrefix (s pre : String) : Bool :=
  pre.toList.isPrefixOf s.toList

def hasSuffix (s suf : String) : Bool :=
  suf.toList.isSuffixOf s.toList

def containsAny (s chars : String) : Bool :=
  s.toList.any fun c => chars.toList.contains c

def join (parts : List String) (sep : String) : String :=
  String.intercalate sep parts

/-- `strings.Index` on code points: where the first occurrence of `sub` starts. -/
def indexFrom (sub : List Char) : List Char → Option Nat
  | [] => if sub.isEmpty then some 0 else none
  | c :: cs => if sub.isPrefixOf (c :: cs) then some 0 else (indexFrom sub cs).map (· + 1)

def index (s sub : String) : Option Nat :=
  indexFrom sub.toList s.toList

/-- `strings.LastIndex` of a one-character string. -/
def lastIndex (s : String) (c : Char) : Option Nat :=
  (s.toList.reverse.findIdx? (· == c)).map fun i => s.toList.length - 1 - i

/-- `s[:i]`. -/
def sliceTo (s : String) (i : Nat) : String :=
  String.ofList (s.toList.take i)

/-- `s[i:]`. -/
def sliceFrom (s : String) (i : Nat) : String :=
  String.ofList (s.toList.drop i)

/-- `strings.Cut` around one character, on code points: what precedes its first occurrence and what
follows it. -/
def cutAt (c : Char) : List Char → Option (List Char × List Char)
  | [] => none
  | d :: ds => if d == c then some ([], ds) else (cutAt c ds).map fun p => (d :: p.1, p.2)

theorem cutAt_eq_some {c : Char} {s l r : List Char} (h : cutAt c s = some (l, r)) : s = l ++ c :: r := by
  induction s generalizing l with
  | nil => cases h
  | cons d ds ih =>
    simp only [cutAt] at h
    split at h
    · rename_i hd
      rw [beq_iff_eq] at hd
      cases h
      rw [hd]
      rfl
    · obtain ⟨⟨l', r'⟩, hp, hlr⟩ := Option.map_eq_some_iff.1 h
      cases hlr
      rw [ih hp]
      rfl

/-- `strings.Split` around one character, on code points. -/
def splitAt (c : Char) : List Char → List (List Char)
  | [] => [[]]
  | d :: ds =>
    match splitAt c ds with
    | [] => [[]]
    | part :: parts => if d == c then [] :: part :: parts else (d :: part) :: parts

/-- `strings.Split` with a one-character separator. -/
def split (s : String) (c : Char) : List String :=
  (splitAt c s.toList).map String.ofList

/-- One segment of a path, added to the segments kept so far, last first. -/
def pathStep (rooted : Bool) (kept : List String) (seg : String) : List String :=
  if seg == "" || seg == "." then kept
  else if seg == ".." then
    match kept with
    | last :: rest => if last == ".." then ".." :: kept else rest
    | [] => if rooted then [] else [".."]
  else seg :: kept

def pathClean (p : String) : String :=
  let rooted := hasPrefix p "/"
  let kept := join ((split p '/').foldl (pathStep rooted) []).reverse "/"
  if rooted then "/" ++ kept else if kept == "" then "." else kept

def cutSuffix (s suf : String) : Option String :=
  if hasSuffix s suf then some (sliceTo s (s.toList.length - suf.toList.length)) else none

def sortStrings (l : List String) : List String :=
  l.insertionSort (· ≤ ·)

@[simp]
theorem mem_sortStrings {l : List String} {s : String} : s ∈ sortStrings l ↔ s ∈ l :=
  List.mem_insertionSort _

/-- What `%v` prints for a slice of strings. -/
def showList (l : List String) : String :=
  "[" ++ join l " " ++ "]"

/-- What `%q` prints for a string of printable characters. -/
def quote (s : String) : String :=
  "\"" ++ String.ofList (s.toList.flatMap fun c =>
    if c == '"' || c == '\\' then ['\\', c] else [c]) ++ "\""

/-- The Unicode case tables outside ASCII: the lower-case mapping and the fold orbits. -/
structure Unicode where
  toLower : Char → Char
  foldEq : Char → Char → Bool

namespace Unicode

variable (u : Unicode)

def lowerRune (c : Char) : Char :=
  if c.toNat < 0x80 then c.toLower else u.toLower c

def lower (s : String) : String :=
  String.ofList (s.toList.map u.lowerRune)

theorem lower_ne_empty {s : String} (h : s ≠ "") : u.lower s ≠ "" := by
  intro hl
  apply h
  simpa [lower] using hl

/-- Whether two code points are equal under simple case folding. -/
def foldRune (c d : Char) : Bool :=
  c == d || (if c.toNat < 0x80 && d.toNat < 0x80 then c.toLower == d.toLower else u.foldEq c d)

def equalFold (s t : String) : Bool :=
  s.toList.length == t.toList.length &&
    (s.toList.zip t.toList).all fun p => u.foldRune p.1 p.2

/-- The case tables restricted to ASCII: every other code point folds to itself. -/
def ascii : Unicode where
  toLower c := c
  foldEq c d := c == d

end Unicode

/-! ## Errors -/

/-- An error value over the sentinels `κ` of a program. -/
inductive Err (κ : Type) where
  /-- a package-level `errors.New` that callers compare with `errors.Is` -/
  | sentinel (k : κ)
  /-- any other error, known by its message only -/
  | text (msg : String)
  /-- `fmt.Errorf` with one `%w`: the text before it, the wrapped error, the text after it -/
  | wrap (pre : String) (cause : Err κ) (post : String)
  /-- `fmt.Errorf` with two `%w`, a text before the first and a text between them -/
  | wrap2 (pre : String) (first : Err κ) (mid : String) (second : Err κ)
  deriving DecidableEq, Repr

namespace Err

variable {κ : Type} [DecidableEq κ]

/-- `errors.Is` against a sentinel. -/
def is : Err κ → κ → Bool
  | sentinel j, k => decide (j = k)
  | text _, _ => false
  | wrap _ e _, k => e.is k
  | wrap2 _ e _ f, k => e.is k || f.is k

/-- `err.Error()`, given the sentinels' own messages. -/
def message (name : κ → String) : Err κ → String
  | sentinel k => name k
  | text msg => msg
  | wrap pre e post => pre ++ e.message name ++ post
  | wrap2 pre e mid f => pre ++ e.message name ++ mid ++ f.message name

end Err

/-! ## Times and durations -/

/-- An `int64` count of nanoseconds. -/
abbrev Duration : Type := Int

/-- The least and greatest `int64`. -/
def minInt64 : Int := -(2 ^ 63)

def maxInt64 : Int := 2 ^ 63 - 1

/-- `int64` arithmetic: the value modulo `2 ^ 64`, read as a signed number. -/
def wrap64 (n : Int) : Int :=
  Int.bmod n (2 ^ 64)

def second : Duration := 1000000000

def hour : Duration := 3600 * second

/-- A fraction of a second in nanoseconds, as `Duration.String` writes it: without trailing zeros,
and with nothing at all for zero. -/
def showFraction (ns : Nat) : String :=
  if ns = 0 then ""
  else
    let digits := (toString (1000000000 + ns)).toList.drop 1
    "." ++ String.ofList (digits.rdropWhile (· == '0'))

/-- `Duration.String`, for durations of at least a second. -/
def showDuration (d : Duration) : String :=
  let ns := d.natAbs
  let secs := ns / 1000000000
  let tail := toString (secs % 60) ++ showFraction (ns % 1000000000) ++ "s"
  (if d < 0 then "-" else "") ++
    (if secs < 60 then tail
    else if secs < 3600 then toString (secs / 60) ++ "m" ++ tail
    else toString (secs / 3600) ++ "h" ++ toString (secs / 60 % 60) ++ "m" ++ tail)

/-- An instant, in nanoseconds after the zero `time.Time`. -/
structure Time where
  ns : Int
  deriving DecidableEq, Repr

namespace Time

def isZero (t : Time) : Bool :=
  t.ns == 0

/-- `Time.Sub`: the elapsed duration, saturated at the `int64` bounds. -/
def sub (t v : Time) : Duration :=
  max minInt64 (min maxInt64 (t.ns - v.ns))

end Time

end PodmanApi.GoStd

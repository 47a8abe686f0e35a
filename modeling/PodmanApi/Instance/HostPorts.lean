/-
# PodmanApi.Instance.HostPorts — the ports a rendered manifest binds.

`requiredHostPorts` of `internal/instance/migrate.go` asks a YAML stream decoder for one document after another,
and leaves its loop at the end of the stream only. A document of the wrong shape is behind the decoder then, but a
syntax error is reported again and again (`Decoder.sticky`), and nothing parses the text before.
-/
import Mathlib.Order.Basic

namespace PodmanApi.Instance

/-- A document, as far as `requiredHostPorts` decodes it: the `hostPort`s container by container. -/
structure PortsDoc where
  kind : String
  containers : List (List Int)

/-- What one `Decode` gives. -/
inductive Decoded where
  | eof
  | doc (d : PortsDoc)
  /-- a document that does not fit the struct; the decoder is past it -/
  | mismatch
  | malformed (message : String)

/-- The answers after which the decoder does not move. -/
def Decoded.Last : Decoded → Prop
  | .eof | .malformed _ => True
  | .doc _ | .mismatch => False

/-- The stream decoder of `yaml.v3`: the answer to each `Decode` call over a text, counted from 0. -/
structure Decoder where
  decode : String → Nat → Decoded
  /-- the end of the stream and a syntax error are the answer to every later call -/
  sticky : ∀ {text n m}, (decode text n).Last → n ≤ m → decode text m = decode text n
  /-- a text has finitely many documents -/
  ends : ∀ text, ∃ n, (decode text n).Last

def PortsDoc.hostPorts (d : PortsDoc) : List Int :=
  if d.kind = "Pod" then d.containers.flatten.filter (0 < ·) else []

/-- The loop of `requiredHostPorts` from the `n`-th `Decode` on, for at most `fuel` rounds. -/
def requiredHostPorts (y : Decoder) (rendered : String) : Nat → Nat → List Int → Option (List Int)
  | 0, _, _ => none
  | fuel + 1, n, ports =>
    match y.decode rendered n with
    | .eof => some ports
    | .doc d => requiredHostPorts y rendered fuel (n + 1) (ports ++ d.hostPorts)
    | .mismatch | .malformed _ => requiredHostPorts y rendered fuel (n + 1) ports

variable {y : Decoder} {rendered : String} {n : Nat}

theorem eof_of_requiredHostPorts {fuel : Nat} {ports out : List Int}
    (h : requiredHostPorts y rendered fuel n ports = some out) : ∃ m, y.decode rendered m = .eof := by
  induction fuel generalizing n ports with
  | zero => cases h
  | succ fuel ih =>
    unfold requiredHostPorts at h
    split at h
    next heof => exact ⟨n, heof⟩
    all_goals exact ih h

/-- With the end of the stream `k` calls ahead, `k + 1` rounds are enough. -/
theorem requiredHostPorts_of_eof {k : Nat} (h : y.decode rendered (n + k) = .eof) (ports : List Int) :
    ∃ out, requiredHostPorts y rendered (k + 1) n ports = some out := by
  induction k generalizing n ports with
  | zero =>
    refine ⟨ports, ?_⟩
    unfold requiredHostPorts
    rw [show y.decode rendered n = .eof from h]
  | succ k ih =>
    have hnext : y.decode rendered (n + 1 + k) = .eof := by
      rw [show n + 1 + k = n + (k + 1) by omega]
      exact h
    unfold requiredHostPorts
    split
    -- the stream may have ended earlier
    · exact ⟨ports, rfl⟩
    all_goals exact ih hnext _

theorem Decoder.eof_iff : (∃ n, y.decode rendered n = .eof) ↔ ∀ n e, y.decode rendered n ≠ .malformed e := by
  constructor
  · rintro ⟨n, heof⟩ m e hbad
    obtain hle | hle := Nat.le_total n m
    · rw [y.sticky (by rw [heof]; trivial) hle, heof] at hbad
      cases hbad
    · rw [y.sticky (by rw [hbad]; trivial) hle, hbad] at heof
      cases heof
  · intro hgood
    obtain ⟨n, hlast⟩ := y.ends rendered
    cases hd : y.decode rendered n with
    | eof => exact ⟨n, hd⟩
    | malformed e => exact absurd hd (hgood n e)
    | doc | mismatch => rw [hd] at hlast; exact hlast.elim

/-- `requiredHostPorts` returns if and only if the decoder never reports a syntax error. -/
theorem requiredHostPorts_returns_iff (y : Decoder) (rendered : String) :
    (∃ fuel ports, requiredHostPorts y rendered fuel 0 [] = some ports) ↔
      ∀ n e, y.decode rendered n ≠ .malformed e := by
  rw [← Decoder.eof_iff]
  constructor
  · rintro ⟨fuel, ports, h⟩
    exact eof_of_requiredHostPorts h
  · rintro ⟨n, heof⟩
    exact ⟨n + 1, requiredHostPorts_of_eof (by rwa [Nat.zero_add]) []⟩

/-- A decoder that finds a pod in every text, and an open bracket behind it in `"kind: Pod\n---\na: ["`. -/
def bracketDecoder : Decoder where
  decode text n :=
    if n = 0 then .doc ⟨"Pod", [[8080]]⟩
    else if text = "kind: Pod\n---\na: [" then .malformed "yaml: line 3: did not find expected node content"
    else .eof
  sticky := by
    intro text n m hlast hle
    rcases Nat.eq_zero_or_pos n with rfl | hn
    · exact hlast.elim
    · rw [if_neg (by omega : ¬m = 0), if_neg (by omega : ¬n = 0)]
  ends text := ⟨1, by rw [if_neg (by decide)]; split <;> trivial⟩

theorem open_bracket_never_returns :
    ¬∃ fuel ports, requiredHostPorts bracketDecoder "kind: Pod\n---\na: [" fuel 0 [] = some ports := by
  rintro ⟨fuel, ports, h⟩
  obtain ⟨m, heof⟩ := eof_of_requiredHostPorts h
  exact absurd rfl (Decoder.eof_iff.1 ⟨m, heof⟩ 1 "yaml: line 3: did not find expected node content")

end PodmanApi.Instance

import PathOptions.Text.Basic
/-!
Pathname matching in the POSIX dialect: glob and candidate are cut at every slash, and a glob
matches if it has as many segments as the candidate and each one matches its name. What the
wildcards of a segment mean is left open.
-/

namespace PathOptions.Glob

/-- Whether a segment of a glob matches a name that is not empty. -/
abbrev Wildcards := (segment name : Text) → Bool

namespace Pathname

def onFirst (lead : Text) : List Text → List Text
  | [] => [lead]
  | first :: rest => (lead ++ first) :: rest

/-- Cuts a glob at every slash, escaped or not; the backslash before a slash is dropped with it. -/
def segments : Text → List Text
  | [] => [[]]
  | c :: cs =>
    if c = '\\' then
      match cs with
      | [] => [[c]]
      | d :: rest => if d = '/' then [] :: segments rest else onFirst [c, d] (segments rest)
    else if c = '/' then [] :: segments cs
    else onFirst [c] (segments cs)

theorem segments_slash (rest : Text) : segments ('/' :: rest) = [] :: segments rest := by
  rw [segments.eq_def]
  exact if_neg (by decide)

theorem segments_cons {c : Char} (hback : c ≠ '\\') (hslash : c ≠ '/') (rest : Text) :
    segments (c :: rest) = onFirst [c] (segments rest) := by
  rw [segments.eq_def]
  simp [hback, hslash]

theorem segments_escaped {c : Char} (h : c ≠ '/') (rest : Text) :
    segments ('\\' :: c :: rest) = onFirst ['\\', c] (segments rest) := if_neg h

/-- Whether a segment matches a name. The empty name is matched by asterisks only. -/
def matchOne (wildcards : Wildcards) (segment name : Text) : Bool :=
  if name.isEmpty then segment.all (· == '*') else wildcards segment name

def matchAll (wildcards : Wildcards) : List Text → List Text → Bool
  | [], [] => true
  | segment :: segments, name :: names =>
    matchOne wildcards segment name && matchAll wildcards segments names
  | _, _ => false

def isMatch (wildcards : Wildcards) (glob candidate : Text) : Bool :=
  matchAll wildcards (segments glob) (Text.pieces '/' candidate)

end Pathname

end PathOptions.Glob

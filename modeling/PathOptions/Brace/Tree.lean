import PathOptions.Text.Basic
/-!
Expansion trees: what a brace pattern says, apart from how it is written. A tree has a list of
results, in which the leftmost choice varies slowest.
-/

namespace PathOptions.Brace

/-- A literal text, or a choice between trees with a text before it and a tree after it. -/
inductive Tree where
  | text (t : Text)
  | group (lead : Text) (choices : List Tree) (tail : Tree)
  deriving Repr

namespace Tree

mutual

def results : Tree → List Text
  | .text t => [t]
  | .group lead choices tail =>
    (resultsOfAny choices).flatMap fun item =>
      (results tail).map fun suffix => lead ++ item ++ suffix

def resultsOfAny : List Tree → List Text
  | [] => []
  | tree :: rest => results tree ++ resultsOfAny rest

end

mutual

/-- More than the number of steps that it takes to walk through all results. -/
def weight : Tree → Nat
  | .text _ => 2
  | .group _ choices tail => 1 + weightOfAny choices * weight tail

def weightOfAny : List Tree → Nat
  | [] => 0
  | tree :: rest => weight tree + weightOfAny rest

end

end Tree

end PathOptions.Brace

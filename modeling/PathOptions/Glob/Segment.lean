import PathOptions.Glob.Bracket
/-!
The wildcards of one segment of a pathname. A backslash protects any character; a bracket that
nothing closes is an ordinary character, and so are those after it.
-/

namespace PathOptions.Glob.Segment

/-- The steps of a segment; once a bracket has stayed open, the brackets after it are ordinary
characters. A backslash at the very end is ignored. -/
def stepsFrom (brackets : Bool) : Text → List Step
  | [] => []
  | c :: cs =>
    if c = '\\' then
      match cs with
      | [] => []
      | d :: rest => .one (.only d) :: stepsFrom brackets rest
    else if c = '*' then .run .all :: stepsFrom brackets cs
    else if c = '?' then .one .all :: stepsFrom brackets cs
    else if c = '[' && brackets then
      match _h : Bracket.read cs with
      | some (bracket, rest) => bracket.steps ++ stepsFrom brackets rest
      | none => .one (.only c) :: stepsFrom false cs
    else .one (.only c) :: stepsFrom brackets cs
termination_by t => t.length
decreasing_by
  · simp only [List.length_cons]
    omega
  · simp
  · simp
  · have := Bracket.length_read _h
    simp only [List.length_cons]
    omega
  · simp
  · simp

def steps (segment : Text) : List Step := stepsFrom true segment

def isMatch (segment name : Text) : Bool := decideSteps (steps segment) name

end PathOptions.Glob.Segment

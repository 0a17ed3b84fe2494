import PathOptions.Glob.CharSet
/-!
Wildcard matching: a pattern is a sequence of steps, each of which takes one character of a set or
a run of them, and it accepts a text if the steps can take all of it. `accepts` says what that
means, and tries every run; `decideSteps` gives the same answer (`decideSteps_eq`) in time that
grows with the number of steps times the length of the text, from a row of answers for each step.
-/

namespace PathOptions.Glob

inductive Step where
  /-- Takes one character of the set. -/
  | one (set : CharSet)
  /-- Takes any number of characters of the set. -/
  | run (set : CharSet)
  deriving DecidableEq, Repr

/-- Takes characters of a set, none at first, and goes on when the rest is accepted. -/
def acceptsRun (set : CharSet) (rest : Text → Bool) : Text → Bool
  | [] => rest []
  | c :: cs => rest (c :: cs) || (set.has c && acceptsRun set rest cs)

/-- Whether the steps can take the whole text. -/
def accepts : List Step → Text → Bool
  | [], t => t.isEmpty
  | .one set :: rest, t =>
    match t with
    | [] => false
    | c :: cs => set.has c && accepts rest cs
  | .run set :: rest, t => acceptsRun set (accepts rest) t

/-! ## Rows of answers -/

/-- The answers of a test for a text and every shorter end of it, the longest first. -/
def answers (test : Text → Bool) : Text → List Bool
  | [] => [test []]
  | c :: cs => test (c :: cs) :: answers test cs

/-- The row of a step that takes one character, from the row of the steps after it. -/
def oneRow (set : CharSet) : Text → List Bool → List Bool
  | c :: cs, _ :: later => (set.has c && later.headD false) :: oneRow set cs later
  | _, _ => [false]

/-- The row of a step that takes a run, from the row of the steps after it. -/
def runRow (set : CharSet) : Text → List Bool → List Bool
  | c :: cs, here :: later =>
    let row := runRow set cs later
    (here || (set.has c && row.headD false)) :: row
  | _, later => later

def stepsRow : List Step → Text → List Bool
  | [], t => answers List.isEmpty t
  | .one set :: rest, t => oneRow set t (stepsRow rest t)
  | .run set :: rest, t => runRow set t (stepsRow rest t)

/-- Whether the steps can take the whole text; rows are made from the first run on. -/
def decideSteps : List Step → Text → Bool
  | .one set :: rest, t =>
    match t with
    | [] => false
    | c :: cs => set.has c && decideSteps rest cs
  | steps, t => (stepsRow steps t).headD false

@[simp] theorem head?_answers (test : Text → Bool) (t : Text) :
    (answers test t).head? = some (test t) := by
  cases t <;> rfl

theorem oneRow_answers (set : CharSet) (steps : List Step) (t : Text) :
    oneRow set t (answers (accepts steps) t) = answers (accepts (.one set :: steps)) t := by
  induction t with
  | nil => rfl
  | cons c cs ih => simp [answers, oneRow, accepts, ih]

theorem runRow_answers (set : CharSet) (steps : List Step) (t : Text) :
    runRow set t (answers (accepts steps) t) = answers (accepts (.run set :: steps)) t := by
  induction t with
  | nil => rfl
  | cons c cs ih => simp [answers, runRow, accepts, acceptsRun, ih]

/-- A row holds the answers for every end of the text. -/
theorem stepsRow_eq_answers (steps : List Step) (t : Text) :
    stepsRow steps t = answers (accepts steps) t := by
  induction steps with
  | nil =>
    have h : accepts [] = List.isEmpty := by
      funext s
      rfl
    rw [h]
    rfl
  | cons step rest ih =>
    cases step with
    | one set => rw [stepsRow, ih, oneRow_answers]
    | run set => rw [stepsRow, ih, runRow_answers]

/-- The rows decide what the steps accept. -/
theorem decideSteps_eq (steps : List Step) (t : Text) : decideSteps steps t = accepts steps t := by
  fun_induction decideSteps steps t with
  | case1 set rest => rfl
  | case2 set rest c cs ih => simp [accepts, ih]
  | case3 steps t h => simp [stepsRow_eq_answers]

end PathOptions.Glob

import PathOptions.Glob.Step
/-!
Bracket expressions of the POSIX dialect. The characters between the brackets become marks of a
set in which a dash, a circumflex and an opening bracket may be escaped, so that they stand for
themselves; the set is made of the marks afterwards.

A dash makes a range unless fewer than two characters were read since the last one that did, or a
named class stands before it. The character after it is the upper end; a range whose ends are in
the wrong order is taken back, with its lower end. A named class is no end of a range: the dash
before it stands for itself, but an upper end is still expected, and the character after the class
is compared with what stands before the class.
-/

namespace PathOptions.Glob

inductive Mark where
  /-- It may have a meaning: a dash makes a range. -/
  | plain (c : Char)
  /-- It stands behind a backslash. -/
  | escaped (c : Char)
  deriving DecidableEq, Repr

namespace Mark

def char : Mark → Char
  | plain c => c
  | escaped c => c

/-- The character that a mark stands for; behind a backslash, a zero and the first letter are the
control characters with these names. -/
def meant : Mark → Char
  | plain c => c
  | escaped '0' => '\x00'
  | escaped 'a' => '\x07'
  | escaped c => c

/-- A mark between the brackets of a set. -/
def item : Mark → BracketItem
  | plain c => ⟨c, c == '-', true⟩
  | escaped c => ⟨(escaped c).meant, false, true⟩

/-- A mark outside brackets, where a full stop is any character. -/
def step : Mark → Step
  | plain '.' => .one .all
  | mark => .one (.only mark.meant)

/-- The mark of a character behind a backslash, which letters and digits do not need. -/
def ofEscape (c : Char) : Mark := if c.isAlphanum then plain c else escaped c

end Mark

/-- The named classes of characters, and the marks that stand for them in a set. -/
def namedClasses : List (Text × Text) := [
  ("alnum".toList, "0-9A-Za-z".toList),
  ("alpha".toList, "A-Za-z".toList),
  ("ascii".toList, ['\x00', '-', '\x7f']),
  ("blank".toList, ['\t', ' ']),
  ("cntrl".toList, ['\x00', '-', '\x1f', '\x7f']),
  ("digit".toList, "0-9".toList),
  ("graph".toList, "!-~".toList),
  ("lower".toList, "a-z".toList),
  ("print".toList, " -~".toList),
  ("punct".toList, "!-/:-@[-\x60\x7b-~".toList),
  ("space".toList, ['\t', '-', '\r', ' ']),
  ("upper".toList, "A-Z".toList),
  ("word".toList, "0-9A-Z_a-z".toList),
  ("xdigit".toList, "0-9A-Fa-f".toList)]

/-- The class whose name in colons and the closing bracket begin the text, with the number of
characters that they take. -/
def namedClass? (t : Text) : Option (List Mark × Nat) :=
  (namedClasses.find? fun (name, _) => (':' :: name ++ [':', ']']).isPrefixOf t).map
    fun (name, marks) => (marks.map .plain, name.length + 3)

/-- A bracket expression as far as it is read. -/
structure Bracket where
  /-- The marks in groups, the last group first; a class is one group. -/
  groups : List (List Mark)
  /-- Whether the last group is a class. -/
  afterClass : Bool
  /-- The number of characters that must come before a dash can make a range. -/
  distance : Nat
  /-- Whether the upper end of a range is expected. -/
  expectsEnd : Bool
  deriving DecidableEq, Repr

namespace Bracket

def start : Bracket := ⟨[[.plain '[']], false, 0, false⟩

def push (bracket : Bracket) (group : List Mark) : Bracket :=
  { bracket with groups := group :: bracket.groups }

/-- The character by which a group is the lower end of a range: the second one of a class. -/
def lowerEnd : List Mark → Char
  | .plain _ :: second :: _ => second.char
  | first :: _ => first.char
  | [] => '\x00'

/-- Adds the upper end of a range or, if it comes before the lower end, takes the range back. -/
def endRange (bracket : Bracket) (mark : Mark) : Bracket :=
  let groups :=
    match bracket.groups with
    | dash :: lower :: before =>
      if mark.char.toNat < (lowerEnd lower).toNat then before
      else [mark] :: dash :: lower :: before
    | groups => [mark] :: groups
  { bracket with groups, expectsEnd := false }

/-- Notes that some characters were read that are no class. -/
def advance (bracket : Bracket) (count : Nat) : Bracket :=
  { bracket with afterClass := false, distance := bracket.distance - count }

/-- Adds a mark that takes some characters and cannot make a range. -/
def addMark (bracket : Bracket) (mark : Mark) (count : Nat) : Bracket :=
  let advanced := bracket.advance count
  if bracket.expectsEnd then advanced.endRange mark else advanced.push [mark]

def addDash (bracket : Bracket) : Bracket :=
  if bracket.afterClass then (bracket.advance 1).push [.escaped '-']
  else if bracket.distance = 0 then
    { bracket.push [.plain '-'] with distance := 2, expectsEnd := true }
  else bracket.addMark (.escaped '-') 1

def escapeGroup : List Mark → List Mark
  | .plain c :: rest => .escaped c :: rest
  | .escaped c :: rest => .escaped '\\' :: .plain c :: rest
  | [] => []

def addClass (bracket : Bracket) (marks : List Mark) (count : Nat) : Bracket :=
  let groups :=
    match bracket.groups with
    | last :: before => if bracket.expectsEnd then escapeGroup last :: before else bracket.groups
    | [] => []
  { bracket with
    groups := marks :: groups
    afterClass := true
    distance := bracket.distance - count }

/-- The steps that a bracket expression stands for. Where the opening bracket itself was taken
back, the rest stands outside brackets, with the closing one at its end. -/
def steps (bracket : Bracket) : List Step :=
  match bracket.groups.reverse.flatten with
  | .plain '[' :: .plain '^' :: marks => [.one ⟨true, membersOf (marks.map Mark.item)⟩]
  | .plain '[' :: marks => [.one ⟨false, membersOf (marks.map Mark.item)⟩]
  | marks => marks.map Mark.step ++ [.one (.only ']')]

/-! ## Reading -/

def readComplement : Text → Bracket × Text
  | '!' :: cs | '^' :: cs => (start.push [.plain '^'], cs)
  | t => (start, t)

/-- Reads what has no meaning in first place: a dash, a bracket that opens no class, and a closing
bracket. -/
def readFirst (bracket : Bracket) : Text → Bracket × Text
  | '[' :: cs =>
    match namedClass? cs with
    | some (marks, size) => (bracket.addClass marks (size + 1), cs.drop size)
    | none => (bracket.push [.escaped '['], cs)
  | '-' :: cs => (bracket.push [.escaped '-'], cs)
  | ']' :: cs => (bracket.push [.escaped ']'], cs)
  | t => (bracket, t)

/-- Reads up to the closing bracket; `none` if no bracket closes. -/
def readRest (bracket : Bracket) : Text → Option (Bracket × Text)
  | [] => none
  | c :: cs =>
    if c = ']' then some (bracket, cs)
    else if c = '-' then readRest bracket.addDash cs
    else if c = '\\' then
      match cs with
      | [] => none
      | d :: rest => readRest (bracket.addMark (.ofEscape d) 2) rest
    else
      match if c = '[' then namedClass? cs else none with
      | some (marks, size) => readRest (bracket.addClass marks (size + 1)) (cs.drop size)
      | none => readRest (bracket.addMark (.plain c) 1) cs
termination_by t => t.length
decreasing_by all_goals (simp only [List.length_cons, List.length_drop]; omega)

/-- The bracket expression that begins a text after its opening bracket, and the text behind it. -/
def read (t : Text) : Option (Bracket × Text) :=
  let (bracket, t) := readComplement t
  let (bracket, t) := readFirst bracket t
  readRest bracket t

theorem length_readComplement (t : Text) : (readComplement t).2.length ≤ t.length := by
  unfold readComplement
  split <;> simp

theorem length_readFirst (bracket : Bracket) (t : Text) :
    (readFirst bracket t).2.length ≤ t.length := by
  unfold readFirst
  split
  · split
    · simp only [List.length_cons, List.length_drop]
      omega
    · simp
  all_goals simp

/-- A reading takes the closing bracket at least. -/
theorem length_readRest {bracket found : Bracket} {t rest : Text}
    (h : readRest bracket t = some (found, rest)) : rest.length < t.length := by
  fun_induction readRest bracket t with
  | case1 => simp at h
  | case2 =>
    simp only [Option.some.injEq, Prod.mk.injEq] at h
    simp [h.2]
  | case3 bracket cs _ ih =>
    have := ih h
    simp only [List.length_cons]
    omega
  | case4 => simp at h
  | case5 bracket d tail _ _ ih =>
    have := ih h
    simp only [List.length_cons]
    omega
  | case6 bracket c cs _ _ _ marks size _ ih =>
    have := ih h
    simp only [List.length_cons, List.length_drop] at this ⊢
    omega
  | case7 bracket c cs _ _ _ _ ih =>
    have := ih h
    simp only [List.length_cons]
    omega

theorem length_read {t rest : Text} {bracket : Bracket} (h : read t = some (bracket, rest)) :
    rest.length < t.length :=
  Nat.lt_of_lt_of_le (length_readRest h)
    (Nat.le_trans (length_readFirst _ _) (length_readComplement _))

end Bracket

end PathOptions.Glob

import PathOptions.Text.Basic
/-!
Sets of characters as bracket expressions describe them, and the members that the items between
the brackets form. A dash between two characters that may bound a range makes a range of them;
a range whose ends are in the wrong order holds nothing.
-/

namespace PathOptions.Glob

inductive Member where
  | single (c : Char)
  | range (lo hi : Char)
  deriving DecidableEq, Repr

def Member.has : Member → Char → Bool
  | .single d, c => c == d
  | .range lo hi, c => lo.toNat ≤ c.toNat && c.toNat ≤ hi.toNat

/-- The characters that some member covers or, complemented, the characters that none covers. -/
structure CharSet where
  complement : Bool
  members : List Member
  deriving DecidableEq, Repr

namespace CharSet

def has (set : CharSet) (c : Char) : Bool := set.members.any (·.has c) != set.complement

def only (c : Char) : CharSet := ⟨false, [.single c]⟩

def allBut (c : Char) : CharSet := ⟨true, [.single c]⟩

def all : CharSet := ⟨true, []⟩

@[simp] theorem has_only (c d : Char) : (only c).has d = (d == c) := by
  simp [only, has, Member.has]

@[simp] theorem has_allBut (c d : Char) : (allBut c).has d = (d != c) := by
  simp [allBut, has, Member.has, bne]

@[simp] theorem has_all (d : Char) : all.has d = true := by
  simp [all, has]

end CharSet

structure BracketItem where
  char : Char
  /-- Whether it is a dash that may stand between the ends of a range. -/
  dash : Bool
  /-- Whether it may be an end of a range. -/
  bound : Bool
  deriving DecidableEq, Repr

/-- The range of two ends, or nothing if they are in the wrong order. -/
def rangeOf (lo hi : Char) : List Member :=
  if lo.toNat ≤ hi.toNat then [.range lo hi] else []

/-- Forms ranges from left to right; what is left stands for itself. -/
def membersOf : List BracketItem → List Member
  | lo :: dash :: hi :: rest =>
    if lo.bound && dash.dash && hi.bound then rangeOf lo.char hi.char ++ membersOf rest
    else .single lo.char :: membersOf (dash :: hi :: rest)
  | items => items.map (.single ·.char)

end PathOptions.Glob

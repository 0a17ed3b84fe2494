import PathOptions.Glob.CharSet
/-!
Regular expressions of the kind to which globs are converted: their written form, read without
knowing where it came from, and what they match. The reader is strict. Outside sets only letters,
digits, the low line and the space may stand unprotected; in a set every character that could mean
something there has to be protected; a protected letter or digit, a range in the wrong order, an
empty set and a star behind anything but a set of all characters but one are refused.
-/

namespace PathOptions.Regex

open Glob

inductive Part where
  /-- Holds where the text begins. -/
  | start
  /-- Holds where the text ends, and before a newline that ends it. -/
  | finish
  /-- Takes one character of the set. -/
  | one (set : CharSet)
  /-- Takes any number of characters of the set. -/
  | many (set : CharSet)
  /-- Holds nowhere. -/
  | never
  deriving DecidableEq, Repr

/-! ## What a regular expression matches -/

/-- The parts can take all of a text, a number of characters before it being taken already. -/
inductive Takes : Nat → List Part → Text → Prop
  | done {n : Nat} : Takes n [] []
  | start {rest : List Part} {t : Text} : Takes 0 rest t → Takes 0 (.start :: rest) t
  | finish {n : Nat} {rest : List Part} {t : Text} :
      t = [] ∨ t = ['\n'] → Takes n rest t → Takes n (.finish :: rest) t
  | one {n : Nat} {set : CharSet} {c : Char} {rest : List Part} {t : Text} :
      set.has c = true → Takes (n + 1) rest t → Takes n (.one set :: rest) (c :: t)
  | stop {n : Nat} {set : CharSet} {rest : List Part} {t : Text} :
      Takes n rest t → Takes n (.many set :: rest) t
  | more {n : Nat} {set : CharSet} {c : Char} {rest : List Part} {t : Text} :
      set.has c = true → Takes (n + 1) (.many set :: rest) t →
      Takes n (.many set :: rest) (c :: t)

/-- The parts match the whole text from its beginning to its end. -/
def FullMatch (parts : List Part) (t : Text) : Prop := Takes 0 parts t

theorem takes_one_iff {n : Nat} {set : CharSet} {rest : List Part} {t : Text} :
    Takes n (.one set :: rest) t ↔
      ∃ c after, t = c :: after ∧ set.has c = true ∧ Takes (n + 1) rest after := by
  constructor
  · intro h
    cases h with
    | one hc h => exact ⟨_, _, rfl, hc, h⟩
  · intro htaken
    obtain ⟨c, after, rfl, hc, h⟩ := htaken
    exact .one hc h

theorem takes_many_iff {n : Nat} {set : CharSet} {rest : List Part} {t : Text} :
    Takes n (.many set :: rest) t ↔
      ∃ run after, t = run ++ after ∧ (∀ c ∈ run, set.has c = true) ∧
        Takes (n + run.length) rest after := by
  constructor
  · intro h
    generalize hparts : Part.many set :: rest = parts at h
    induction h with
    | done | start | finish | one => cases hparts
    | @stop n set' rest' t h _ =>
      cases hparts
      exact ⟨[], t, rfl, by simp, h⟩
    | @more n set' c rest' t hc _ ih =>
      obtain ⟨run, after, rfl, hrun, h⟩ := ih hparts
      cases hparts
      refine ⟨c :: run, after, rfl, by simpa using ⟨hc, hrun⟩, ?_⟩
      rwa [List.length_cons, Nat.add_comm run.length, ← Nat.add_assoc]
  · intro htaken
    obtain ⟨run, after, rfl, hrun, h⟩ := htaken
    induction run generalizing n with
    | nil => exact .stop h
    | cons c run ih =>
      refine .more (hrun c (by simp)) (ih (fun d hd => hrun d (by simp [hd])) ?_)
      rwa [Nat.add_assoc, Nat.add_comm 1]

/-! ## Reading -/

def isPlain (c : Char) : Bool := c.isAlphanum || c = '_' || c = ' '

def hasMeaning (c : Char) : Bool := "[]\\^-&~|".toList.contains c

/-- Reads the character behind a backslash; a letter or digit there would be something else. -/
def readProtected : Text → Option (Char × Text)
  | [] => none
  | c :: cs => if c.isAlphanum then none else some (c, cs)

def readMember : Text → Option (Char × Text)
  | [] => none
  | c :: cs =>
    if c = '\\' then readProtected cs else if hasMeaning c then none else some (c, cs)

theorem length_readProtected {t rest : Text} {c : Char}
    (h : readProtected t = some (c, rest)) : rest.length < t.length := by
  cases t with
  | nil => cases h
  | cons d cs =>
    rw [readProtected] at h
    split at h
    · cases h
    · cases h
      simp

theorem length_readMember {t rest : Text} {c : Char} (h : readMember t = some (c, rest)) :
    rest.length < t.length := by
  cases t with
  | nil => cases h
  | cons d cs =>
    rw [readMember] at h
    split at h
    · have := length_readProtected h
      simp only [List.length_cons]
      omega
    · split at h
      · cases h
      · cases h
        simp

def readMembers : Text → Option (List Member × Text)
  | [] => none
  | c :: cs =>
    if c = ']' then some ([], cs)
    else
      match _h : readMember (c :: cs) with
      | none => none
      | some (lo, '-' :: after) =>
        match _hhi : readMember after with
        | none => none
        | some (hi, rest) =>
          if lo.toNat ≤ hi.toNat then
            (readMembers rest).map fun (members, rest) => (.range lo hi :: members, rest)
          else none
      | some (d, rest) =>
        (readMembers rest).map fun (members, rest) => (.single d :: members, rest)
termination_by t => t.length
decreasing_by
  · have hfirst := length_readMember _h
    have hsecond := length_readMember _hhi
    simp only [List.length_cons] at *
    omega
  · exact length_readMember _h

/-- The set of some members, of which there must be one. -/
def setOf (complement : Bool) : Option (List Member × Text) → Option (CharSet × Text)
  | some (member :: members, rest) => some (⟨complement, member :: members⟩, rest)
  | _ => none

def readSet : Text → Option (CharSet × Text)
  | '^' :: t => setOf true (readMembers t)
  | t => setOf false (readMembers t)

def isAllBut : CharSet → Bool
  | ⟨true, [.single _]⟩ => true
  | _ => false

theorem length_readMembers {t rest : Text} {members : List Member}
    (h : readMembers t = some (members, rest)) : rest.length < t.length := by
  fun_induction readMembers t generalizing members with
  | case1 => cases h
  | case2 cs =>
    cases h
    simp
  | case3 | case4 | case6 => cases h
  | case5 c cs _ lo after hlo hi rest' hhi _ ih =>
    obtain ⟨⟨found, last⟩, hread, heq⟩ := Option.map_eq_some_iff.1 h
    cases heq
    have hfirst := length_readMember hlo
    have hsecond := length_readMember hhi
    have := ih hread
    simp only [List.length_cons] at *
    omega
  | case7 c cs _ d rest' _ hd ih =>
    obtain ⟨⟨found, last⟩, hread, heq⟩ := Option.map_eq_some_iff.1 h
    cases heq
    exact Nat.lt_trans (ih hread) (length_readMember hd)

theorem length_setOf {complement : Bool} {t rest : Text} {set : CharSet}
    (h : setOf complement (readMembers t) = some (set, rest)) : rest.length < t.length := by
  unfold setOf at h
  split at h
  · rename_i hread
    cases h
    exact length_readMembers hread
  · cases h

theorem length_readSet {t rest : Text} {set : CharSet} (h : readSet t = some (set, rest)) :
    rest.length < t.length := by
  unfold readSet at h
  split at h
  · exact Nat.lt_succ_of_lt (length_setOf h)
  · exact length_setOf h

/-- Reads parts up to the anchor at the end. -/
def readParts : Text → Option (List Part)
  | [] => none
  | ['$'] => some [.finish]
  | '(' :: '?' :: '!' :: ')' :: rest => (readParts rest).map (.never :: ·)
  | '(' :: '?' :: 's' :: ':' :: '.' :: ')' :: rest => (readParts rest).map (.one .all :: ·)
  | '\\' :: cs =>
    match _h : readProtected cs with
    | none => none
    | some (c, rest) => (readParts rest).map (.one (.only c) :: ·)
  | '[' :: cs =>
    match _h : readSet cs with
    | none => none
    | some (set, '*' :: rest) =>
      if isAllBut set then (readParts rest).map (.many set :: ·) else none
    | some (set, rest) => (readParts rest).map (.one set :: ·)
  | c :: cs => if isPlain c then (readParts cs).map (.one (.only c) :: ·) else none
termination_by t => t.length
decreasing_by
  · simp
    omega
  · simp
    omega
  · have := length_readProtected _h
    simp only [List.length_cons]
    omega
  · have := length_readSet _h
    simp only [List.length_cons] at *
    omega
  · have := length_readSet _h
    simp only [List.length_cons]
    omega
  · simp

def read : Text → Option (List Part)
  | '^' :: rest => (readParts rest).map (.start :: ·)
  | _ => none

end PathOptions.Regex

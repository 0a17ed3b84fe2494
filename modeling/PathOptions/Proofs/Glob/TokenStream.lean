import PathOptions.Glob.Element
/-!
The shape of the tokens of a glob. Outside brackets stand characters and wildcards; a bracket
expression is opened and closed, it is complemented at most once, right at its beginning, and
nothing but members stands in it. The first unprotected closing bracket closes it. Whatever reads
tokens may rely on that shape: `elementsFrom` meets no other.
-/

namespace PathOptions.Glob

def Token.member? : Token → Option Char
  | .literal c | .escaped c => some c
  | .dash => some '-'
  | _ => none

/-- The tokens between brackets, a mark of complementation apart. -/
def IsBody (body : List Token) : Prop := ∀ token ∈ body, token.member?.isSome

/-- A bracket expression and the tokens behind it. -/
def bracketTokens (complement : Bool) (body rest : List Token) : List Token :=
  .classStart :: ((if complement then [.complement] else []) ++ body ++ .classEnd :: rest)

/-- Tokens outside brackets, with whole bracket expressions between them. -/
inductive Stream : List Token → Prop
  | done : Stream []
  | literal {c : Char} {rest : List Token} : Stream rest → Stream (.literal c :: rest)
  | escaped {c : Char} {rest : List Token} : Stream rest → Stream (.escaped c :: rest)
  | anyChar {rest : List Token} : Stream rest → Stream (.anyChar :: rest)
  | anyString {rest : List Token} : Stream rest → Stream (.anyString :: rest)
  | bracket {complement : Bool} {body rest : List Token} :
      IsBody body → Stream rest → Stream (bracketTokens complement body rest)

theorem isBody_nil : IsBody [] := by
  intro token h
  simp at h

theorem isBody_cons {token : Token} {body : List Token} :
    IsBody (token :: body) ↔ token.member?.isSome ∧ IsBody body := by
  simp [IsBody]

/-! ## Between brackets -/

@[simp] theorem member?_insideToken (s : Symbol) :
    (s.insideToken false).member? = some s.char := by
  unfold Symbol.insideToken
  split
  · rfl
  · split
    · simp_all
    · split
      · rename_i h
        rw [h]
        rfl
      · rfl

/-- In first place there may be a mark of complementation; what is none is a member. -/
theorem insideToken_first (s : Symbol) :
    s.insideToken true = .complement ∨ s.insideToken true = s.insideToken false := by
  unfold Symbol.insideToken
  split
  · exact .inr rfl
  · split
    · exact .inl rfl
    · exact .inr (by simp)

theorem isBody_map_insideToken (body : List Symbol) :
    IsBody (body.map (·.insideToken false)) := by
  intro token h
  obtain ⟨s, _, rfl⟩ := List.mem_map.1 h
  simp

/-- A text that holds a closing bracket has a first one. -/
theorem exists_first_close {symbols : List Symbol} (h : symbols.any Symbol.isClose = true) :
    ∃ body close rest, symbols = body ++ close :: rest ∧ close.isClose = true ∧
      ∀ s ∈ body, s.isClose = false := by
  induction symbols with
  | nil => simp at h
  | cons s rest ih =>
    by_cases hs : s.isClose = true
    · exact ⟨[], s, rest, rfl, hs, by simp⟩
    · rw [List.any_cons, Bool.or_eq_true] at h
      obtain ⟨body, close, after, heq, hclose, hbody⟩ := ih (h.resolve_left hs)
      refine ⟨s :: body, close, after, by rw [heq, List.cons_append], hclose, ?_⟩
      intro other hother
      rcases List.mem_cons.1 hother with rfl | hother
      · exact Bool.eq_false_iff.2 hs
      · exact hbody other hother

/-- The first closing bracket ends the members. -/
theorem tokensFrom_inside {body : List Symbol} {close : Symbol} (rest : List Symbol)
    (hbody : ∀ s ∈ body, s.isClose = false) (hclose : close.isClose = true) :
    tokensFrom .inside (body ++ close :: rest) =
      body.map (·.insideToken false) ++ .classEnd :: tokensFrom .outside rest := by
  induction body with
  | nil => simp [tokensFrom, hclose]
  | cons s body ih =>
    have hs : s.isClose = false := hbody s (by simp)
    have hrest := ih (fun other h => hbody other (by simp [h]))
    simp [tokensFrom, hs, hrest]

/-- After an opening bracket come a mark of complementation or none, members and the closing
bracket. -/
theorem tokensFrom_first {body : List Symbol} {close : Symbol} (rest : List Symbol)
    (hbody : ∀ s ∈ body, s.isClose = false) (hclose : close.isClose = true) :
    ∃ complement members, IsBody members ∧
      .classStart :: tokensFrom .first (body ++ close :: rest) =
        bracketTokens complement members (tokensFrom .outside rest) := by
  cases body with
  | nil => exact ⟨false, [], isBody_nil, by simp [tokensFrom, hclose, bracketTokens]⟩
  | cons s body =>
    have hs : s.isClose = false := hbody s (by simp)
    have htail : ∀ other ∈ body, other.isClose = false := fun other h => hbody other (by simp [h])
    have hrest := tokensFrom_inside rest htail hclose
    have hmembers := isBody_map_insideToken body
    rcases insideToken_first s with hfirst | hfirst
    · exact ⟨true, _, hmembers, by simp [tokensFrom, hs, hrest, hfirst, bracketTokens]⟩
    · refine ⟨false, s.insideToken false :: body.map (·.insideToken false), ?_, ?_⟩
      · exact isBody_cons.2 ⟨by simp, hmembers⟩
      · simp [tokensFrom, hs, hrest, hfirst, bracketTokens]

/-! ## The whole stream -/

theorem stream_outsideToken (s : Symbol) {rest : List Token} (h : Stream rest) :
    Stream (s.outsideToken :: rest) := by
  unfold Symbol.outsideToken
  split
  · exact .escaped h
  · split
    · exact .anyString h
    · split
      · exact .anyChar h
      · exact .literal h

/-- A reading that begins outside brackets ends outside brackets. -/
theorem stream_tokensFrom (symbols : List Symbol) : Stream (tokensFrom .outside symbols) := by
  -- a bracket expression takes many symbols at once, so the induction is on the length
  induction hn : symbols.length using Nat.strongRecOn generalizing symbols with
  | ind n ih =>
    subst hn
    cases symbols with
    | nil => exact .done
    | cons s rest =>
      rw [tokensFrom]
      split
      · rename_i h
        rw [Bool.and_eq_true] at h
        obtain ⟨body, close, after, rfl, hclose, hbody⟩ := exists_first_close h.2
        obtain ⟨complement, members, hmembers, heq⟩ := tokensFrom_first after hbody hclose
        rw [heq]
        refine .bracket hmembers (ih _ ?_ after rfl)
        simp only [List.length_cons, List.length_append]
        omega
      · exact stream_outsideToken s (ih _ (by simp) rest rfl)

/-- Every glob has tokens of the expected shape. -/
theorem stream_tokenize (glob : Text) : Stream (tokenize glob) := stream_tokensFrom _

/-! ## Elements -/

/-- The character of a token that may be an end of a range. -/
def Token.bound? : Token → Option Char
  | .literal c => some c
  | .dash => some '-'
  | _ => none

/-- A token between brackets as an item: it is a dash of a range if it is a dash, and an end of a
range if it may be one. -/
theorem bracketItem_of_member {token : Token} {c : Char} (h : token.member? = some c) :
    token.bracketItem = some ⟨c, token == .dash, token.bound?.isSome⟩ := by
  cases token with
  | literal d | escaped d | dash =>
    obtain rfl := Option.some.inj h
    rfl
  | anyChar | anyString | classStart | complement | classEnd => cases h

def bodyItems (body : List Token) : List BracketItem := body.filterMap Token.bracketItem

theorem bodyItems_cons {token : Token} {body : List Token} {c : Char}
    (h : token.member? = some c) :
    bodyItems (token :: body) = ⟨c, token == .dash, token.bound?.isSome⟩ :: bodyItems body := by
  simp [bodyItems, bracketItem_of_member h]

/-- A member is added to an open bracket expression. -/
theorem elementsFrom_member {token : Token} {c : Char} (rest : List Token)
    (bracket : OpenBracket) (h : token.member? = some c) :
    elementsFrom (some bracket) (token :: rest) =
      elementsFrom (some { bracket with
        reversed := ⟨c, token == .dash, token.bound?.isSome⟩ :: bracket.reversed }) rest := by
  cases token with
  | literal d | escaped d | dash =>
    obtain rfl := Option.some.inj h
    rfl
  | anyChar | anyString | classStart | complement | classEnd => cases h

theorem elementsFrom_open (body rest : List Token) (hbody : IsBody body) (bracket : OpenBracket) :
    elementsFrom (some bracket) (body ++ .classEnd :: rest) =
      .bracket ⟨bracket.complement, membersOf (bracket.reversed.reverse ++ bodyItems body)⟩ ::
        elementsFrom none rest := by
  induction body generalizing bracket with
  | nil => simp [elementsFrom, OpenBracket.close, bodyItems]
  | cons token body ih =>
    obtain ⟨htoken, htail⟩ := isBody_cons.1 hbody
    obtain ⟨c, hc⟩ := Option.isSome_iff_exists.1 htoken
    rw [List.cons_append, elementsFrom_member _ bracket hc, ih htail, bodyItems_cons hc]
    simp

/-- A bracket expression is one element, with the members that its items form. -/
theorem elementsFrom_bracket (complement : Bool) {body : List Token} (rest : List Token)
    (hbody : IsBody body) :
    elementsFrom none (bracketTokens complement body rest) =
      .bracket ⟨complement, membersOf (bodyItems body)⟩ :: elementsFrom none rest := by
  cases complement <;> simp [bracketTokens, elementsFrom, elementsFrom_open body rest hbody]

end PathOptions.Glob

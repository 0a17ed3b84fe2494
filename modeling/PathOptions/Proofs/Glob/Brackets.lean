import PathOptions.Proofs.Glob.Spelling
import PathOptions.Proofs.Glob.TokenStream
/-!
Tokens lose nothing of a glob: there is one for each symbol, and the symbol can be read back from
it. Only which mark of complementation was used, and whether a wildcard between brackets was
protected, is not told. An opening bracket outside bracket expressions is ordinary if nothing closes
it, and otherwise the first closing bracket does.
-/

namespace PathOptions.Glob

/-! ## Reading back -/

/-- A token is read back as a symbol: as its character, which is protected exactly if the token says
so. Wildcards between brackets alone are called escaped whether a backslash protects them or not. -/
def Token.ReadsAs : Token → Symbol → Prop
  | .literal c, s => s = ⟨c, false⟩
  | .escaped c, s => s.char = c ∧ (s.escaped = true ∨ c = '?' ∨ c = '*')
  | .anyChar, s => s = ⟨'?', false⟩
  | .anyString, s => s = ⟨'*', false⟩
  | .dash, s => s = ⟨'-', false⟩
  | .classStart, s => s = ⟨'[', false⟩
  | .classEnd, s => s = ⟨']', false⟩
  | .complement, s => s = ⟨'!', false⟩ ∨ s = ⟨'^', false⟩

theorem readsAs_outsideToken (s : Symbol) : s.outsideToken.ReadsAs s := by
  obtain ⟨c, escaped⟩ := s
  cases escaped with
  | true => exact ⟨rfl, .inl rfl⟩
  | false =>
    simp only [Symbol.outsideToken, Bool.false_eq_true, if_false]
    split
    · rename_i h
      rw [h]
      rfl
    · split
      · rename_i h
        rw [h]
        rfl
      · rfl

theorem readsAs_insideToken (s : Symbol) (first : Bool) : (s.insideToken first).ReadsAs s := by
  obtain ⟨c, escaped⟩ := s
  cases escaped with
  | true => exact ⟨rfl, .inl rfl⟩
  | false =>
    simp only [Symbol.insideToken, Bool.false_or, Bool.or_eq_true, Bool.and_eq_true,
      decide_eq_true_eq]
    split
    · rename_i hwildcard
      exact ⟨rfl, .inr hwildcard⟩
    · split
      · rename_i hmark
        rcases hmark.2 with rfl | rfl
        · exact .inl rfl
        · exact .inr rfl
      · split
        · rename_i h
          rw [h]
          rfl
        · rfl

theorem eq_of_isClose {s : Symbol} (h : s.isClose = true) : s = ⟨']', false⟩ := by
  obtain ⟨c, escaped⟩ := s
  simpa [Symbol.isClose] using h

/-! ## Steps -/

def Position.depth : Position → Nat
  | .outside => 0
  | .first | .inside => 1

/-- Every bracket expression that tokens open is closed by them. -/
def IsOutside (tokens : List Token) : Prop := tokens.count .classStart = tokens.count .classEnd

instance (tokens : List Token) : Decidable (IsOutside tokens) := inferInstanceAs (Decidable (_ = _))

theorem outsideToken_ne (s : Symbol) :
    s.outsideToken ≠ .classStart ∧ s.outsideToken ≠ .classEnd := by
  unfold Symbol.outsideToken
  split
  · simp
  · split
    · simp
    · split <;> simp

theorem insideToken_ne (s : Symbol) (first : Bool) :
    s.insideToken first ≠ .classStart ∧ s.insideToken first ≠ .classEnd := by
  unfold Symbol.insideToken
  split
  · simp
  · split
    · simp
    · split <;> simp

/-- A symbol gives one token that is read back as that symbol, and as many bracket expressions are
open behind it as the token leaves open. -/
theorem tokensFrom_step (position : Position) (s : Symbol) (rest : List Symbol) :
    ∃ token next, tokensFrom position (s :: rest) = token :: tokensFrom next rest ∧
      token.ReadsAs s ∧
      [token].count .classStart + position.depth = [token].count .classEnd + next.depth := by
  -- right behind the opening bracket and further on, a bracket expression is read in the same way
  -- but for the mark of complementation
  have hinside : ∀ first, ∃ token next,
      (if s.isClose then .classEnd :: tokensFrom .outside rest
        else s.insideToken first :: tokensFrom .inside rest) = token :: tokensFrom next rest ∧
      token.ReadsAs s ∧ [token].count .classStart + 1 = [token].count .classEnd + next.depth := by
    intro first
    obtain ⟨hstart, hend⟩ := insideToken_ne s first
    split
    · rename_i hclose
      exact ⟨.classEnd, .outside, rfl, eq_of_isClose hclose, rfl⟩
    · refine ⟨_, .inside, rfl, readsAs_insideToken s first, ?_⟩
      simp [hstart, hend, Position.depth]
  cases position with
  | outside =>
    obtain ⟨hstart, hend⟩ := outsideToken_ne s
    rw [tokensFrom]
    split
    · rename_i hopen
      have hbracket : s = ⟨'[', false⟩ := by
        obtain ⟨c, escaped⟩ := s
        rw [Bool.and_eq_true] at hopen
        simpa using hopen.1
      exact ⟨.classStart, .first, rfl, hbracket, rfl⟩
    · refine ⟨_, .outside, rfl, readsAs_outsideToken s, ?_⟩
      simp [hstart, hend]
  | first =>
    rw [tokensFrom]
    exact hinside true
  | inside =>
    rw [tokensFrom]
    exact hinside false

/-- There is one token for each symbol, and it is read back as that symbol. -/
theorem readsAs_tokensFrom (position : Position) (symbols : List Symbol) :
    List.Forall₂ Token.ReadsAs (tokensFrom position symbols) symbols := by
  induction symbols generalizing position with
  | nil =>
    rw [tokensFrom]
    exact .nil
  | cons s rest ih =>
    obtain ⟨token, next, heq, hreads, -⟩ := tokensFrom_step position s rest
    rw [heq]
    exact .cons hreads (ih next)

theorem length_tokensFrom (position : Position) (symbols : List Symbol) :
    (tokensFrom position symbols).length = symbols.length :=
  (readsAs_tokensFrom position symbols).length_eq

/-- The symbols behind some others are read from a position that the tokens of these tell. -/
theorem tokensFrom_append (position : Position) (before after : List Symbol) :
    ∃ lead next, tokensFrom position (before ++ after) = lead ++ tokensFrom next after ∧
      lead.length = before.length ∧
      lead.count .classStart + position.depth = lead.count .classEnd + next.depth := by
  induction before generalizing position with
  | nil => exact ⟨[], position, rfl, rfl, rfl⟩
  | cons s rest ih =>
    obtain ⟨token, middle, heq, -, hstep⟩ := tokensFrom_step position s (rest ++ after)
    obtain ⟨lead, next, hrest, hlength, hrun⟩ := ih middle
    refine ⟨token :: lead, next, ?_, ?_, ?_⟩
    · rw [List.cons_append, heq, hrest, List.cons_append]
    · rw [List.length_cons, List.length_cons, hlength]
    · rw [← List.singleton_append, List.count_append, List.count_append]
      omega

/-- Outside bracket expressions, reading begins anew. -/
theorem drop_tokensFrom_of_isOutside {before after : List Symbol}
    (h : IsOutside ((tokensFrom .outside (before ++ after)).take before.length)) :
    (tokensFrom .outside (before ++ after)).drop before.length = tokensFrom .outside after := by
  obtain ⟨lead, next, heq, hlength, hrun⟩ := tokensFrom_append .outside before after
  rw [heq, ← hlength, List.take_left] at h
  rw [heq, ← hlength, List.drop_left]
  have hnext : next.depth = 0 := by
    rw [h] at hrun
    exact (Nat.add_left_cancel hrun).symm
  cases next with
  | outside => rfl
  | first | inside => cases hnext

/-! ## Opening brackets -/

/-- How an opening bracket before some symbols is read: it is ordinary exactly if none of them
closes a bracket expression, and otherwise the first one that does ends the expression that the
bracket begins. -/
structure ReadsBracket (after : List Symbol) (tokens : List Token) : Prop where
  literal_iff : tokens.head? = some (.literal '[') ↔ ∀ s ∈ after, s.isClose = false
  closed : ∀ body close rest, after = body ++ close :: rest → close.isClose = true →
    (∀ s ∈ body, s.isClose = false) →
      ∃ inner outer, tokens = .classStart :: (inner ++ .classEnd :: outer) ∧
        inner.length = body.length ∧ .classEnd ∉ inner

theorem classEnd_not_mem_of_isBody {body : List Token} (h : IsBody body) : .classEnd ∉ body := by
  intro hmem
  cases h _ hmem

/-- A bracket that something closes begins a bracket expression. -/
theorem tokensFrom_closed {after : List Symbol} (h : after.any Symbol.isClose = true) :
    tokensFrom .outside (⟨'[', false⟩ :: after) = .classStart :: tokensFrom .first after := by
  rw [tokensFrom]
  exact if_pos (by simpa using h)

theorem tokensFrom_unclosed {after : List Symbol} (h : after.any Symbol.isClose = false) :
    tokensFrom .outside (⟨'[', false⟩ :: after) = .literal '[' :: tokensFrom .outside after := by
  rw [tokensFrom]
  exact if_neg (by simpa using h)

theorem readsBracket_tokensFrom (after : List Symbol) :
    ReadsBracket after (tokensFrom .outside (⟨'[', false⟩ :: after)) where
  literal_iff := by
    have hnone : (∀ s ∈ after, s.isClose = false) ↔ after.any Symbol.isClose = false := by
      simp [List.any_eq_false]
    rw [hnone]
    cases hclose : after.any Symbol.isClose with
    | true => simp [tokensFrom_closed hclose]
    | false => simp [tokensFrom_unclosed hclose]
  closed := by
    intro body close rest heq hclose hbody
    have hany : after.any Symbol.isClose = true :=
      List.any_eq_true.2 ⟨close, by simp [heq], hclose⟩
    obtain ⟨complement, members, hmembers, htokens⟩ := tokensFrom_first rest hbody hclose
    rw [← heq, ← tokensFrom_closed hany] at htokens
    refine ⟨(if complement then [Token.complement] else []) ++ members, tokensFrom .outside rest,
      htokens, ?_, ?_⟩
    · -- each symbol has its token, so what is between the brackets is as long as in the glob
      have hlength := congrArg List.length htokens
      simp only [length_tokensFrom, heq, bracketTokens, List.length_cons, List.length_append]
        at hlength ⊢
      omega
    · have hnone := classEnd_not_mem_of_isBody hmembers
      cases complement <;> simpa using hnone

/-- The tokens of a glob are one for each symbol, each read back as that symbol, and the symbols are
spelled one after the other in the glob. Bracket expressions are whole. An opening
bracket outside of them is ordinary exactly if nothing closes it, and otherwise the first
unprotected closing bracket behind it does. -/
theorem tokenize_wellBracketed (glob : Text) :
    (spellings glob).flatten = glob ∧
    List.Forall₂ Symbol.Spelled (spellings glob) (symbols glob) ∧
    List.Forall₂ Token.ReadsAs (tokenize glob) (symbols glob) ∧
    Stream (tokenize glob) ∧
    ∀ before after, symbols glob = before ++ ⟨'[', false⟩ :: after →
      IsOutside ((tokenize glob).take before.length) →
        ReadsBracket after ((tokenize glob).drop before.length) := by
  refine ⟨flatten_spellings glob, spelled_symbols glob, readsAs_tokensFrom .outside _,
    stream_tokenize glob, ?_⟩
  intro before after heq houtside
  rw [tokenize, heq] at houtside ⊢
  rw [drop_tokensFrom_of_isOutside houtside]
  exact readsBracket_tokensFrom after

/-- Behind a bracket expression, an opening bracket that nothing closes. -/
theorem tokenize_wellBracketed_unclosed :
    let glob : Text := ['[', '[', '!', ']', '*', '[', 'y']
    let before : List Symbol := ['[', '[', '!', ']', '*'].map (⟨·, false⟩)
    let after : List Symbol := [⟨'y', false⟩]
    symbols glob = before ++ ⟨'[', false⟩ :: after ∧
      IsOutside ((tokenize glob).take before.length) ∧
      ReadsBracket after ((tokenize glob).drop before.length) := by
  intro glob before after
  have hsymbols : symbols glob = before ++ ⟨'[', false⟩ :: after := by decide
  have houtside : IsOutside ((tokenize glob).take before.length) := by decide
  obtain ⟨-, -, -, -, hbracket⟩ := tokenize_wellBracketed glob
  exact ⟨hsymbols, houtside, hbracket before after hsymbols houtside⟩

end PathOptions.Glob

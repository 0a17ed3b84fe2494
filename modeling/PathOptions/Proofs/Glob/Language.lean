import PathOptions.Proofs.Glob.TokenStream
/-!
What a stream of tokens means, said without any matching: a character stands for itself, a wildcard
for characters other than the separator, and a bracket expression for one character among those
that its members cover or, complemented, among the others. Matching a glob decides membership in
that language (`isMatch_iff_language`).
-/

namespace PathOptions.Glob

/-! ## The language -/

/-- A range begins the tokens: a dash between two tokens that may be its ends. -/
def BeginsRange : List Token → Prop
  | lo :: .dash :: hi :: _ => lo.bound?.isSome ∧ hi.bound?.isSome
  | _ => False

/-- A character is covered by the members between brackets. Ranges are formed from left to right,
and a range whose ends are in the wrong order covers nothing. -/
inductive Covers : List Token → Char → Prop
  | inRange {lo hi : Token} {a b c : Char} {rest : List Token} :
      lo.bound? = some a → hi.bound? = some b → a.toNat ≤ c.toNat → c.toNat ≤ b.toNat →
      Covers (lo :: .dash :: hi :: rest) c
  | behindRange {lo hi : Token} {c : Char} {rest : List Token} :
      BeginsRange (lo :: .dash :: hi :: rest) → Covers rest c →
      Covers (lo :: .dash :: hi :: rest) c
  | single {token : Token} {c : Char} {rest : List Token} :
      ¬ BeginsRange (token :: rest) → token.member? = some c → Covers (token :: rest) c
  | behindSingle {token : Token} {c : Char} {rest : List Token} :
      ¬ BeginsRange (token :: rest) → Covers rest c → Covers (token :: rest) c

/-- The texts for which tokens stand. -/
inductive Language (sep : Char) : List Token → Text → Prop
  | done : Language sep [] []
  | literal {c : Char} {rest : List Token} {t : Text} :
      Language sep rest t → Language sep (.literal c :: rest) (c :: t)
  | escaped {c : Char} {rest : List Token} {t : Text} :
      Language sep rest t → Language sep (.escaped c :: rest) (c :: t)
  | anyChar {c : Char} {rest : List Token} {t : Text} :
      c ≠ sep → Language sep rest t → Language sep (.anyChar :: rest) (c :: t)
  | anyString {run : Text} {rest : List Token} {t : Text} :
      sep ∉ run → Language sep rest t → Language sep (.anyString :: rest) (run ++ t)
  | bracket {complement : Bool} {body rest : List Token} {c : Char} {t : Text} :
      IsBody body → (Covers body c ↔ complement = false) → Language sep rest t →
      Language sep (bracketTokens complement body rest) (c :: t)

/-! ## Steps -/

theorem accepts_one_iff {set : CharSet} {rest : List Step} {t : Text} :
    accepts (.one set :: rest) t = true ↔
      ∃ c after, t = c :: after ∧ set.has c = true ∧ accepts rest after = true := by
  cases t with
  | nil => simp [accepts]
  | cons c cs =>
    rw [accepts, Bool.and_eq_true]
    constructor
    · intro htaken
      obtain ⟨hc, h⟩ := htaken
      exact ⟨c, cs, rfl, hc, h⟩
    · intro htaken
      obtain ⟨d, after, heq, hd, h⟩ := htaken
      obtain ⟨rfl, rfl⟩ := List.cons.inj heq
      exact ⟨hd, h⟩

theorem accepts_run_iff {set : CharSet} {rest : List Step} {t : Text} :
    accepts (.run set :: rest) t = true ↔
      ∃ run after, t = run ++ after ∧ (∀ c ∈ run, set.has c = true) ∧
        accepts rest after = true := by
  induction t with
  | nil =>
    constructor
    · intro h
      exact ⟨[], [], rfl, by simp, h⟩
    · intro htaken
      obtain ⟨run, after, heq, -, h⟩ := htaken
      obtain ⟨-, rfl⟩ := List.append_eq_nil_iff.1 heq.symm
      exact h
  | cons c cs ih =>
    have hstep : accepts (.run set :: rest) (c :: cs) =
        (accepts rest (c :: cs) || (set.has c && accepts (.run set :: rest) cs)) := rfl
    rw [hstep, Bool.or_eq_true, Bool.and_eq_true, ih]
    constructor
    · intro hcases
      rcases hcases with h | ⟨hc, run, after, rfl, hrun, h⟩
      · exact ⟨[], c :: cs, rfl, by simp, h⟩
      · exact ⟨c :: run, after, rfl, by simpa using ⟨hc, hrun⟩, h⟩
    · intro htaken
      obtain ⟨run, after, heq, hrun, h⟩ := htaken
      cases run with
      | nil =>
        rw [List.nil_append] at heq
        exact .inl (heq ▸ h)
      | cons d run =>
        obtain ⟨rfl, rfl⟩ := List.cons.inj heq
        exact .inr ⟨hrun c (by simp), run, after, rfl, fun d hd => hrun d (by simp [hd]), h⟩

/-! ## Members -/

theorem membersOf_range {lo dash hi : BracketItem} (rest : List BracketItem)
    (hlo : lo.bound = true) (hdash : dash.dash = true) (hhi : hi.bound = true) :
    membersOf (lo :: dash :: hi :: rest) = rangeOf lo.char hi.char ++ membersOf rest := by
  simp [membersOf, hlo, hdash, hhi]

theorem membersOf_single {item : BracketItem} {items : List BracketItem}
    (h : ∀ dash hi rest, items = dash :: hi :: rest →
      ¬ (item.bound = true ∧ dash.dash = true ∧ hi.bound = true)) :
    membersOf (item :: items) = .single item.char :: membersOf items := by
  match items with
  | [] => rfl
  | [_] => rfl
  | dash :: hi :: rest =>
    have hnot := h dash hi rest rfl
    rw [membersOf, if_neg (by simpa [and_assoc] using hnot)]

theorem has_rangeOf (lo hi c : Char) :
    (rangeOf lo hi).any (·.has c) = true ↔ lo.toNat ≤ c.toNat ∧ c.toNat ≤ hi.toNat := by
  unfold rangeOf
  split
  · simp [Member.has]
  · simp only [List.any_nil, Bool.false_eq_true, false_iff]
    omega

theorem member?_of_bound? {token : Token} {c : Char} (h : token.bound? = some c) :
    token.member? = some c := by
  cases token with
  | literal d | dash => exact h
  | escaped d | anyChar | anyString | classStart | complement | classEnd => cases h

/-- Where no range begins, the first item stands for itself. -/
theorem membersOf_bodyItems_single {token : Token} {body : List Token} {c : Char}
    (hbody : IsBody body) (htoken : token.member? = some c)
    (hrange : ¬ BeginsRange (token :: body)) :
    membersOf (bodyItems (token :: body)) = .single c :: membersOf (bodyItems body) := by
  rw [bodyItems_cons htoken]
  refine membersOf_single ?_
  rintro dash hi rest heq ⟨hlo, hdash, hhi⟩
  match body, hbody with
  | [], _ => simp [bodyItems] at heq
  | [second], hbody =>
    obtain ⟨d, hd⟩ := Option.isSome_iff_exists.1 (hbody second (by simp))
    rw [bodyItems_cons hd] at heq
    cases heq
  | second :: third :: after, hbody =>
    obtain ⟨d, hd⟩ := Option.isSome_iff_exists.1 (hbody second (by simp))
    obtain ⟨e, he⟩ := Option.isSome_iff_exists.1 (hbody third (by simp))
    rw [bodyItems_cons hd, bodyItems_cons he] at heq
    obtain ⟨rfl, hrest⟩ := List.cons.inj heq
    obtain ⟨rfl, -⟩ := List.cons.inj hrest
    obtain rfl : second = .dash := by simpa using hdash
    exact hrange ⟨hlo, hhi⟩

theorem exists_of_beginsRange {tokens : List Token} (h : BeginsRange tokens) :
    ∃ lo hi rest, tokens = lo :: .dash :: hi :: rest ∧ lo.bound?.isSome ∧ hi.bound?.isSome := by
  unfold BeginsRange at h
  split at h
  · exact ⟨_, _, _, rfl, h⟩
  · exact h.elim

/-- The members of a bracket expression hold the characters that its tokens cover. -/
theorem has_membersOf_iff_covers (c : Char) (body : List Token) (hbody : IsBody body) :
    (membersOf (bodyItems body)).any (·.has c) = true ↔ Covers body c := by
  -- a range takes three tokens at once, so the induction is on the length
  induction hn : body.length using Nat.strongRecOn generalizing body with
  | ind n ih =>
    subst hn
    cases body with
    | nil =>
      refine iff_of_false (by simp [bodyItems, membersOf]) ?_
      intro h
      cases h
    | cons token body =>
      obtain ⟨htoken, htail⟩ := isBody_cons.1 hbody
      obtain ⟨d, hd⟩ := Option.isSome_iff_exists.1 htoken
      by_cases hrange : BeginsRange (token :: body)
      · obtain ⟨lo, hi, rest, heq, hlo, hhi⟩ := exists_of_beginsRange hrange
        obtain ⟨rfl, rfl⟩ := List.cons.inj heq
        obtain ⟨a, ha⟩ := Option.isSome_iff_exists.1 hlo
        obtain ⟨b, hb⟩ := Option.isSome_iff_exists.1 hhi
        have hrest : IsBody rest := (isBody_cons.1 (isBody_cons.1 htail).2).2
        have hshorter : rest.length < (token :: .dash :: hi :: rest).length := by
          simp only [List.length_cons]
          omega
        rw [bodyItems_cons (member?_of_bound? ha), bodyItems_cons rfl,
          bodyItems_cons (member?_of_bound? hb), membersOf_range _ hlo (by decide) hhi,
          List.any_append, Bool.or_eq_true, has_rangeOf, ih _ hshorter rest hrest rfl]
        constructor
        · intro hcases
          rcases hcases with ⟨hle, hge⟩ | h
          · exact .inRange ha hb hle hge
          · exact .behindRange hrange h
        · intro h
          cases h with
          | inRange ha' hb' hle hge =>
            obtain rfl := Option.some.inj (ha.symm.trans ha')
            obtain rfl := Option.some.inj (hb.symm.trans hb')
            exact .inl ⟨hle, hge⟩
          | behindRange _ h => exact .inr h
          | single hnot _ => exact absurd hrange hnot
          | behindSingle hnot _ => exact absurd hrange hnot
      · rw [membersOf_bodyItems_single htail hd hrange, List.any_cons, Bool.or_eq_true,
          ih _ (Nat.lt_succ_self _) body htail rfl]
        constructor
        · intro hcases
          rcases hcases with h | h
          · refine .single hrange ?_
            rw [hd, show c = d by simpa [Member.has] using h]
          · exact .behindSingle hrange h
        · intro h
          cases h with
          | inRange ha hb _ _ => exact absurd ⟨by rw [ha]; rfl, by rw [hb]; rfl⟩ hrange
          | behindRange h _ => exact absurd h hrange
          | single _ h =>
            rw [hd] at h
            exact .inl (by simp [Member.has, Option.some.inj h])
          | behindSingle _ h => exact .inr h

/-- A bracket expression holds the characters that it should. -/
theorem has_bracket_iff (complement : Bool) {body : List Token} (hbody : IsBody body) (c : Char) :
    (CharSet.mk complement (membersOf (bodyItems body))).has c = true ↔
      (Covers body c ↔ complement = false) := by
  have h := has_membersOf_iff_covers c body hbody
  rw [CharSet.has, ← h]
  cases complement <;> simp

/-! ## Matching -/

def tokenSteps (sep : Char) (tokens : List Token) : List Step :=
  (elementsFrom none tokens).map (·.step sep)

theorem tokenSteps_bracket (sep : Char) (complement : Bool) {body : List Token}
    (rest : List Token) (hbody : IsBody body) :
    tokenSteps sep (bracketTokens complement body rest) =
      .one ⟨complement, membersOf (bodyItems body)⟩ :: tokenSteps sep rest := by
  simp [tokenSteps, elementsFrom_bracket complement rest hbody, Element.step]

theorem accepts_of_language {sep : Char} {tokens : List Token} {t : Text}
    (h : Language sep tokens t) : accepts (tokenSteps sep tokens) t = true := by
  induction h with
  | done => rfl
  | @literal c rest t _ ih | @escaped c rest t _ ih =>
    exact accepts_one_iff.2 ⟨c, t, rfl, by simp, ih⟩
  | @anyChar c rest t hc _ ih => exact accepts_one_iff.2 ⟨c, t, rfl, by simpa using hc, ih⟩
  | @anyString run rest t hrun _ ih =>
    refine accepts_run_iff.2 ⟨run, t, rfl, ?_, ih⟩
    intro c hc
    have hne : c ≠ sep := fun heq => hrun (heq ▸ hc)
    simpa using hne
  | @bracket complement body rest c t hbody hcover _ ih =>
    rw [tokenSteps_bracket sep complement rest hbody]
    exact accepts_one_iff.2 ⟨c, t, rfl, (has_bracket_iff complement hbody c).2 hcover, ih⟩

theorem language_of_accepts {sep : Char} {tokens : List Token} (hstream : Stream tokens) :
    ∀ t, accepts (tokenSteps sep tokens) t = true → Language sep tokens t := by
  induction hstream with
  | done =>
    intro t h
    obtain rfl : t = [] := by simpa [tokenSteps, elementsFrom, accepts] using h
    exact .done
  | @literal c rest _ ih =>
    intro t h
    obtain ⟨d, after, rfl, hd, hafter⟩ := accepts_one_iff.1 h
    obtain rfl : d = c := by simpa using hd
    exact .literal (ih after hafter)
  | @escaped c rest _ ih =>
    intro t h
    obtain ⟨d, after, rfl, hd, hafter⟩ := accepts_one_iff.1 h
    obtain rfl : d = c := by simpa using hd
    exact .escaped (ih after hafter)
  | @anyChar rest _ ih =>
    intro t h
    obtain ⟨c, after, rfl, hc, h⟩ := accepts_one_iff.1 h
    exact .anyChar (by simpa using hc) (ih after h)
  | @anyString rest _ ih =>
    intro t h
    obtain ⟨run, after, rfl, hrun, h⟩ := accepts_run_iff.1 h
    refine .anyString ?_ (ih after h)
    intro hsep
    have := hrun sep hsep
    simp at this
  | @bracket complement body rest hbody _ ih =>
    intro t h
    rw [tokenSteps_bracket sep complement rest hbody] at h
    obtain ⟨c, after, rfl, hc, h⟩ := accepts_one_iff.1 h
    exact .bracket hbody ((has_bracket_iff complement hbody c).1 hc) (ih after h)

/-- Matching a glob decides the language of its tokens. -/
theorem isMatch_iff_language (sep : Char) (glob candidate : Text) :
    isMatch sep glob candidate = true ↔ Language sep (tokenize glob) candidate := by
  rw [isMatch, decideSteps_eq]
  constructor
  · exact language_of_accepts (stream_tokenize glob) candidate
  · exact accepts_of_language

end PathOptions.Glob

import PathOptions.Glob.Pathname
import PathOptions.Proofs.Glob.Language
/-!
The globs that both dialects read alike. Outside brackets they are made of ordinary characters,
wildcards and escapes; between brackets stand single characters and ranges, and none of the
characters to which one of the dialects gives a meaning of its own. The grammar is a type, so every
value of it is a glob of that kind. The simplified dialect reads its text part by part
(`elements_text`); that wildcards give the segments of such a glob the same meaning is a property of
theirs (`ReadCommonSegments`).
-/

namespace PathOptions.Glob

/-! ## The grammar -/

def IsCommon (c : Char) : Prop := c ∉ ['[', ']', '\\', '/', '-', '!', '^']

instance (c : Char) : Decidable (IsCommon c) := inferInstanceAs (Decidable (c ∉ _))

def IsCommonEnd (c : Char) : Prop := IsCommon c ∧ c ≠ '?' ∧ c ≠ '*'

instance (c : Char) : Decidable (IsCommonEnd c) := inferInstanceAs (Decidable (_ ∧ _))

/-- What may be listed between brackets. The ends of a range may be in the wrong order. -/
inductive CommonMember where
  | single (c : Char) (h : IsCommon c)
  | range (lo hi : Char) (hlo : IsCommonEnd lo) (hhi : IsCommonEnd hi)

namespace CommonMember

def text : CommonMember → Text
  | single c _ => [c]
  | range lo hi _ _ => [lo, '-', hi]

def members : CommonMember → List Member
  | single c _ => [.single c]
  | range lo hi _ _ => rangeOf lo hi

@[simp] theorem text_single (c : Char) (h : IsCommon c) : (single c h).text = [c] := rfl

@[simp] theorem text_range (lo hi : Char) (hlo : IsCommonEnd lo) (hhi : IsCommonEnd hi) :
    (range lo hi hlo hhi).text = [lo, '-', hi] := rfl

@[simp] theorem members_single (c : Char) (h : IsCommon c) :
    (single c h).members = [.single c] := rfl

@[simp] theorem members_range (lo hi : Char) (hlo : IsCommonEnd lo) (hhi : IsCommonEnd hi) :
    (range lo hi hlo hhi).members = rangeOf lo hi := rfl

end CommonMember

/-- A part of a common glob. A bracket expression lists at least one member. -/
inductive CommonPart where
  | char (c : Char) (h : c ∉ ['\\', '[', '*', '?'])
  | anyString
  | anyChar
  | escaped (c : Char)
  | bracket (mark : Option Char) (hmark : ∀ c ∈ mark, c = '!' ∨ c = '^') (first : CommonMember)
    (others : List CommonMember)

namespace CommonPart

def text : CommonPart → Text
  | char c _ => [c]
  | anyString => ['*']
  | anyChar => ['?']
  | escaped c => ['\\', c]
  | bracket mark _ first others =>
    '[' :: (mark.toList ++ (first :: others).flatMap (·.text) ++ [']'])

/-- The element that a part is in the simplified dialect. -/
def element : CommonPart → Element
  | char c _ => .char c
  | anyString => .anyString
  | anyChar => .anyChar
  | escaped c => .char c
  | bracket mark _ first others => .bracket ⟨mark.isSome, (first :: others).flatMap (·.members)⟩

/-- The step that a part is in a segment of the POSIX dialect. -/
def segmentStep : CommonPart → Step
  | char c _ => .one (.only c)
  | anyString => .run .all
  | anyChar => .one .all
  | escaped c => .one (.only c)
  | bracket mark _ first others => .one ⟨mark.isSome, (first :: others).flatMap (·.members)⟩

def isSlash : CommonPart → Bool
  | char c _ => c == '/'
  | escaped c => c == '/'
  | _ => false

end CommonPart

/-- A glob that both dialects read alike. -/
abbrev CommonGlob := List CommonPart

def CommonGlob.text (glob : CommonGlob) : Text := glob.flatMap (·.text)

@[simp] theorem CommonGlob.text_nil : CommonGlob.text [] = [] := rfl

@[simp] theorem CommonGlob.text_cons (part : CommonPart) (rest : CommonGlob) :
    CommonGlob.text (part :: rest) = part.text ++ CommonGlob.text rest := rfl

theorem CommonGlob.text_append (first rest : CommonGlob) :
    CommonGlob.text (first ++ rest) = first.text ++ rest.text := List.flatMap_append

/-- The wildcards of a segment that is a common glob mean what its parts do. -/
def Wildcards.ReadCommonSegments (wildcards : Wildcards) : Prop :=
  ∀ (segment : CommonGlob) (name : Text), (∀ part ∈ segment, part.isSlash = false) →
    name ≠ [] → '/' ∉ name →
      wildcards segment.text name = accepts (segment.map (·.segmentStep)) name

/-! ## Characters between brackets -/

theorem not_mem_text_of_isCommon {member : CommonMember} {c : Char} (h : ¬ IsCommon c)
    (hdash : c ≠ '-') : c ∉ member.text := by
  cases member with
  | single d hd =>
    intro hfirst
    rcases hfirst with _ | ⟨_, hmem⟩
    · exact h hd
    · cases hmem
  | range lo hi hlo hhi =>
    intro hmem
    simp only [CommonMember.text, List.mem_cons, List.not_mem_nil, or_false] at hmem
    rcases hmem with rfl | rfl | rfl
    · exact h hlo.1
    · exact hdash rfl
    · exact h hhi.1

/-- Whatever is written between brackets, it is none of the characters that end the expression or
protect others, and no slash. -/
theorem not_mem_bracket_text {mark : Option Char} (hmark : ∀ c ∈ mark, c = '!' ∨ c = '^')
    (members : List CommonMember) (c : Char) (hc : c = ']' ∨ c = '\\' ∨ c = '/') :
    c ∉ mark.toList ++ members.flatMap (·.text) := by
  rw [List.mem_append, List.mem_flatMap]
  intro hcases
  rcases hcases with hmem | ⟨member, _, hmem⟩
  · rcases hmark c (by simpa using hmem) with rfl | rfl <;> simp at hc
  · refine not_mem_text_of_isCommon ?_ ?_ hmem
    · rcases hc with rfl | rfl | rfl <;> simp [IsCommon]
    · rcases hc with rfl | rfl | rfl <;> decide

/-- A bracket expression is written without backslashes and slashes. -/
theorem plain_of_mem_bracket {mark : Option Char} (hmark : ∀ c ∈ mark, c = '!' ∨ c = '^')
    (first : CommonMember) (others : List CommonMember) :
    ∀ c ∈ (CommonPart.bracket mark hmark first others).text, c ≠ '\\' ∧ c ≠ '/' := by
  intro c hc
  rw [CommonPart.text, List.mem_cons, List.mem_append, List.mem_singleton] at hc
  have hplain : ∀ d : Char, d = '\\' ∨ d = '/' → c ≠ d := by
    rintro d hd rfl
    rcases hc with rfl | hc | rfl
    · rcases hd with hd | hd <;> cases hd
    · exact not_mem_bracket_text hmark (first :: others) c (.inr hd) hc
    · rcases hd with hd | hd <;> cases hd
  exact ⟨hplain _ (.inl rfl), hplain _ (.inr rfl)⟩

/-- The first character of a member. -/
theorem text_eq_cons (member : CommonMember) : ∃ c rest, member.text = c :: rest ∧ IsCommon c := by
  cases member with
  | single c h => exact ⟨c, [], rfl, h⟩
  | range lo hi hlo hhi => exact ⟨lo, ['-', hi], rfl, hlo.1⟩

/-- Where characters become items in such a way that a dash is one that makes ranges and that ends
of ranges may be such, members are the ones that are written. -/
theorem membersOf_text (item : Char → BracketItem) (hchar : ∀ c, (item c).char = c)
    (hdash : ∀ c, (item c).dash = (c == '-')) (hbound : ∀ c, IsCommonEnd c → (item c).bound = true)
    (members : List CommonMember) :
    membersOf ((members.flatMap (·.text)).map item) = members.flatMap (·.members) := by
  induction members with
  | nil => rfl
  | cons member rest ih =>
    cases member with
    | single c h =>
      simp only [List.flatMap_cons, CommonMember.text_single, CommonMember.members_single,
        List.cons_append, List.nil_append, List.map_cons]
      rw [membersOf_single, hchar, ih]
      -- no member begins with a dash
      rintro dash hi after heq ⟨-, hd, -⟩
      cases rest with
      | nil => cases heq
      | cons next rest =>
        obtain ⟨d, tail, htext, hcommon⟩ := text_eq_cons next
        rw [List.flatMap_cons, htext] at heq
        obtain ⟨rfl, -⟩ := List.cons.inj heq
        rw [hdash, beq_iff_eq] at hd
        subst hd
        exact hcommon (by simp)
    | range lo hi hlo hhi =>
      simp only [List.flatMap_cons, CommonMember.text_range, CommonMember.members_range,
        List.cons_append, List.nil_append, List.map_cons]
      rw [membersOf_range _ (hbound lo hlo) (by rw [hdash]; rfl) (hbound hi hhi), hchar, hchar, ih]

/-! ## The simplified dialect -/

theorem symbols_append_of_no_backslash {t : Text} (h : '\\' ∉ t) (rest : Text) :
    symbols (t ++ rest) = t.map (⟨·, false⟩) ++ symbols rest := by
  induction t with
  | nil => rfl
  | cons c cs ih =>
    have hc : c ≠ '\\' := fun heq => h (heq ▸ .head _)
    rw [List.cons_append, symbols_cons hc, ih fun hmem => h (.tail _ hmem)]
    rfl

def commonToken (c : Char) : Token := (Symbol.mk c false).insideToken false

theorem bracketItem_commonToken (c : Char) :
    (commonToken c).bracketItem = some ⟨c, c == '-', c != '?' && c != '*'⟩ := by
  by_cases hq : c = '?'
  · subst hq
    rfl
  · by_cases hs : c = '*'
    · subst hs
      rfl
    · by_cases hd : c = '-'
      · subst hd
        rfl
      · have htoken : commonToken c = .literal c := by
          simp [commonToken, Symbol.insideToken, hq, hs, hd]
        have hdash : (c == '-') = false := beq_eq_false_iff_ne.2 hd
        have hbound : (c != '?' && c != '*') = true := by simp [hq, hs]
        rw [htoken, hdash, hbound]
        rfl

theorem bodyItems_map_commonToken (t : Text) :
    bodyItems (t.map commonToken) = t.map fun c => ⟨c, c == '-', c != '?' && c != '*'⟩ := by
  rw [bodyItems, List.filterMap_map]
  have hcomp : Token.bracketItem ∘ commonToken =
      fun c => some ⟨c, c == '-', c != '?' && c != '*'⟩ := funext bracketItem_commonToken
  rw [hcomp, List.filterMap_eq_map']

theorem outsideToken_escape (c : Char) :
    (Symbol.mk c (!c.isAlphanum)).outsideToken = .escaped c ∨
      (Symbol.mk c (!c.isAlphanum)).outsideToken = .literal c := by
  cases hc : c.isAlphanum with
  | false => exact .inl rfl
  | true =>
    -- a letter or a digit is no wildcard
    have hstar : c ≠ '*' := by
      rintro rfl
      simp at hc
    have hmark : c ≠ '?' := by
      rintro rfl
      simp at hc
    exact .inr (by simp [Symbol.outsideToken, hstar, hmark])

theorem isClose_of_ne {c : Char} (h : c ≠ ']') : (Symbol.mk c false).isClose = false := by
  simp [Symbol.isClose, h]

/-- In first place, what may be listed between brackets is a member as it is elsewhere. -/
theorem insideToken_first_of_isCommon {c : Char} (h : IsCommon c) :
    (Symbol.mk c false).insideToken true = commonToken c := by
  have hne : c ≠ '!' ∧ c ≠ '^' := by
    constructor <;> rintro rfl <;> exact h (by simp)
  simp [commonToken, Symbol.insideToken, hne]

/-- A bracket expression is read up to its own closing bracket. -/
theorem tokensFrom_bracket {mark : Option Char} (hmark : ∀ c ∈ mark, c = '!' ∨ c = '^')
    (first : CommonMember) (others : List CommonMember) (rest : List Symbol) :
    tokensFrom .outside (⟨'[', false⟩ ::
        ((mark.toList ++ (first :: others).flatMap (·.text)).map (⟨·, false⟩) ++
          ⟨']', false⟩ :: rest)) =
      bracketTokens mark.isSome (((first :: others).flatMap (·.text)).map commonToken)
        (tokensFrom .outside rest) := by
  have hclose : ∀ body : Text, ']' ∉ body →
      ∀ s ∈ body.map (⟨·, false⟩ : Char → Symbol), s.isClose = false := by
    intro body hbody s hs
    obtain ⟨c, hc, rfl⟩ := List.mem_map.1 hs
    exact isClose_of_ne fun heq => hbody (heq ▸ hc)
  have hmembers := hclose _ fun h =>
    not_mem_bracket_text hmark (first :: others) ']' (.inl rfl) (List.mem_append_right _ h)
  rw [tokensFrom, if_pos (by simp [Symbol.isClose])]
  cases mark with
  | some c =>
    have hc : (Symbol.mk c false).isClose = false ∧
        (Symbol.mk c false).insideToken true = .complement := by
      rcases hmark c rfl with rfl | rfl <;> exact ⟨rfl, rfl⟩
    simp only [Option.toList_some, List.cons_append, List.nil_append, List.map_cons]
    rw [tokensFrom, if_neg (by simp [hc.1]), hc.2, tokensFrom_inside rest hmembers rfl,
      List.map_map]
    rfl
  | none =>
    obtain ⟨c, tail, htext, hc⟩ := text_eq_cons first
    have hbody : (first :: others).flatMap (·.text) = c :: (tail ++ others.flatMap (·.text)) := by
      rw [List.flatMap_cons, htext, List.cons_append]
    rw [hbody] at hmembers ⊢
    have hfirst := hmembers ⟨c, false⟩ (.head _)
    have htail : ∀ s ∈ (tail ++ others.flatMap (·.text)).map (⟨·, false⟩ : Char → Symbol),
        s.isClose = false := fun s hs => hmembers s (.tail _ hs)
    simp only [Option.toList_none, List.nil_append, List.map_cons, List.cons_append]
    rw [tokensFrom, if_neg (by simp [hfirst]), insideToken_first_of_isCommon hc,
      tokensFrom_inside rest htail rfl, List.map_map]
    rfl

/-- The elements of a part and of what follows. -/
theorem elementsFrom_part (part : CommonPart) (rest : Text) :
    elements (part.text ++ rest) = part.element :: elements rest := by
  unfold elements tokenize
  cases part with
  | char c h =>
    simp only [List.mem_cons, List.not_mem_nil, or_false, not_or] at h
    obtain ⟨hback, hopen, hstar, hmark⟩ := h
    simp [CommonPart.text, symbols_cons hback, tokensFrom, hopen, Symbol.outsideToken, hstar, hmark,
      elementsFrom, CommonPart.element]
  | anyString | anyChar =>
    rw [CommonPart.text, List.singleton_append, symbols_cons (by decide)]
    rfl
  | escaped c =>
    have hopen : ¬ (c = '[' ∧ c.isAlphanum = true) := by
      intro hboth
      obtain ⟨rfl, h⟩ := hboth
      cases h
    rw [CommonPart.text, List.cons_append, List.singleton_append, symbols_backslash, tokensFrom,
      if_neg (by simpa [and_assoc] using fun hc h => absurd ⟨hc, h⟩ hopen)]
    rcases outsideToken_escape c with h | h <;> (rw [h]; rfl)
  | bracket mark hmark first others =>
    have hback := not_mem_bracket_text hmark (first :: others) '\\' (by decide)
    have hbody : IsBody (((first :: others).flatMap (·.text)).map commonToken) := by
      intro token h
      obtain ⟨c, _, rfl⟩ := List.mem_map.1 h
      exact Option.isSome_iff_exists.2 ⟨c, member?_insideToken ⟨c, false⟩⟩
    have hmembers := membersOf_text (fun c => ⟨c, c == '-', c != '?' && c != '*'⟩)
      (fun _ => rfl) (fun _ => rfl) (fun c hc => by simp [hc.2]) (first :: others)
    rw [CommonPart.text, List.cons_append, List.append_assoc, symbols_cons (by decide),
      symbols_append_of_no_backslash hback, List.singleton_append, symbols_cons (by decide),
      tokensFrom_bracket hmark, elementsFrom_bracket _ _ hbody, bodyItems_map_commonToken, hmembers]
    rfl

/-- The elements of a common glob in the simplified dialect. -/
theorem elements_text (glob : CommonGlob) : elements glob.text = glob.map (·.element) := by
  induction glob with
  | nil => rfl
  | cons part rest ih => rw [CommonGlob.text_cons, elementsFrom_part, ih, List.map_cons]

end PathOptions.Glob

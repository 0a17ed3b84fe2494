import PathOptions.Glob.Segment
import PathOptions.Proofs.Glob.Common
/-!
How the POSIX dialect reads a common glob: it is cut at the parts that stand for a slash
(`segments_append`, `segments_slash`), and every part of a segment is the step that it should be
(`readCommonSegments_isMatch`). Between brackets the reader is right after a member again and again;
there it expects no end of a range, no class stands before it, and a dash makes a range as soon as
one more character is read.
-/

namespace PathOptions.Glob

/-! ## Between brackets -/

/-- The marks that a member leaves; a range whose ends are in the wrong order leaves none. -/
def CommonMember.marks : CommonMember → List Mark
  | single c _ => [.plain c]
  | range lo hi _ _ =>
    if hi.toNat < lo.toNat then [] else [.plain lo, .plain '-', .plain hi]

theorem not_mem_marks (member : CommonMember) : .plain '^' ∉ member.marks := by
  cases member with
  | single c h =>
    intro hfirst
    rcases hfirst with _ | ⟨_, hmem⟩
    · exact h (by simp)
    · cases hmem
  | range lo hi hlo hhi =>
    rw [CommonMember.marks]
    split
    · simp
    · intro hmem
      simp only [List.mem_cons, Mark.plain.injEq, List.not_mem_nil, or_false] at hmem
      rcases hmem with rfl | hmem | rfl
      · exact hlo.1 (by simp)
      · exact absurd hmem (by decide)
      · exact hhi.1 (by simp)

/-- The marks that members leave are those of the members that hold something. -/
theorem exists_kept (members : List CommonMember) :
    ∃ kept : List CommonMember,
      members.flatMap (·.marks) = (kept.flatMap (·.text)).map .plain ∧
        members.flatMap (·.members) = kept.flatMap (·.members) := by
  induction members with
  | nil => exact ⟨[], rfl, rfl⟩
  | cons member rest ih =>
    obtain ⟨kept, hmarks, hmembers⟩ := ih
    rw [List.flatMap_cons, List.flatMap_cons, hmarks, hmembers]
    cases member with
    | single c h => exact ⟨.single c h :: kept, rfl, rfl⟩
    | range lo hi hlo hhi =>
      by_cases horder : hi.toNat < lo.toNat
      · refine ⟨kept, by simp [CommonMember.marks, horder], ?_⟩
        rw [CommonMember.members_range, rangeOf, if_neg (by omega), List.nil_append]
      · exact ⟨.range lo hi hlo hhi :: kept, by simp [CommonMember.marks, horder], rfl⟩

theorem membersOf_marks (members : List CommonMember) :
    membersOf ((members.flatMap (·.marks)).map Mark.item) = members.flatMap (·.members) := by
  obtain ⟨kept, hmarks, hmembers⟩ := exists_kept members
  rw [hmarks, hmembers, List.map_map]
  exact membersOf_text (Mark.item ∘ .plain) (fun _ => rfl) (fun _ => rfl) (fun _ _ => rfl) kept

namespace Bracket

def marks (bracket : Bracket) : List Mark := bracket.groups.reverse.flatten

/-- A bracket expression that is read up to the end of a member. -/
structure AtMember (bracket : Bracket) : Prop where
  afterClass : bracket.afterClass = false
  distance : bracket.distance ≤ 1
  expectsEnd : bracket.expectsEnd = false

theorem readRest_close (bracket : Bracket) (rest : Text) :
    readRest bracket (']' :: rest) = some (bracket, rest) := by
  rw [readRest.eq_def]
  rfl

theorem readRest_dash (bracket : Bracket) (rest : Text) :
    readRest bracket ('-' :: rest) = readRest bracket.addDash rest := by
  rw [readRest.eq_def]
  rfl

theorem readRest_common (bracket : Bracket) {c : Char} (h : IsCommon c) (rest : Text) :
    readRest bracket (c :: rest) = readRest (bracket.addMark (.plain c) 1) rest := by
  simp only [IsCommon, List.mem_cons, List.not_mem_nil, or_false, not_or] at h
  rw [readRest.eq_def]
  simp [h]

/-- A member is read, with its marks. -/
theorem readRest_member (member : CommonMember) (rest : Text) {bracket : Bracket}
    (h : bracket.AtMember) :
    ∃ next : Bracket, next.AtMember ∧ next.marks = bracket.marks ++ member.marks ∧
      readRest bracket (member.text ++ rest) = readRest next rest := by
  obtain ⟨groups, afterClass, distance, expectsEnd⟩ := bracket
  obtain ⟨rfl, hdistance, rfl⟩ := h
  have hnear : distance - 1 = 0 := by
    simp only at hdistance
    omega
  cases member with
  | single c hc =>
    refine ⟨⟨[.plain c] :: groups, false, 0, false⟩, ⟨rfl, by simp, rfl⟩, ?_, ?_⟩
    · simp [marks, CommonMember.marks]
    · rw [CommonMember.text_single, List.singleton_append, readRest_common _ hc]
      simp [addMark, advance, push, hnear]
  | range lo hi hlo hhi =>
    rw [CommonMember.text_range, List.cons_append, List.cons_append, List.singleton_append,
      readRest_common _ hlo.1, readRest_dash, readRest_common _ hhi.1]
    by_cases horder : hi.toNat < lo.toNat
    · refine ⟨⟨groups, false, 1, false⟩, ⟨rfl, by simp, rfl⟩, ?_, ?_⟩
      · simp [marks, CommonMember.marks, horder]
      · simp [addMark, advance, push, addDash, hnear, endRange, lowerEnd, Mark.char, horder]
    · refine ⟨⟨[.plain hi] :: [.plain '-'] :: [.plain lo] :: groups, false, 1, false⟩,
        ⟨rfl, by simp, rfl⟩, ?_, ?_⟩
      · simp [marks, CommonMember.marks, horder]
      · simp [addMark, advance, push, addDash, hnear, endRange, lowerEnd, Mark.char, horder]

/-- Members are read one after the other, up to the closing bracket. -/
theorem readRest_members (members : List CommonMember) (rest : Text) {bracket : Bracket}
    (h : bracket.AtMember) :
    ∃ final : Bracket, final.marks = bracket.marks ++ members.flatMap (·.marks) ∧
      readRest bracket (members.flatMap (·.text) ++ ']' :: rest) = some (final, rest) := by
  induction members generalizing bracket with
  | nil => exact ⟨bracket, by simp, readRest_close bracket rest⟩
  | cons member others ih =>
    obtain ⟨next, hnext, hmarks, hread⟩ :=
      readRest_member member (others.flatMap (·.text) ++ ']' :: rest) h
    obtain ⟨final, hfinal, hrest⟩ := ih hnext
    refine ⟨final, ?_, ?_⟩
    · rw [hfinal, hmarks, List.flatMap_cons, List.append_assoc]
    · rw [List.flatMap_cons, List.append_assoc, hread, hrest]

/-- A mark of complementation stands first; no member begins with one. -/
theorem readComplement_mark {mark : Option Char} (hmark : ∀ c ∈ mark, c = '!' ∨ c = '^')
    {c : Char} (hc : IsCommon c) (rest : Text) :
    readComplement (mark.toList ++ c :: rest) =
      (⟨mark.toList.map (fun _ => [.plain '^']) ++ [[.plain '[']], false, 0, false⟩,
        c :: rest) := by
  cases mark with
  | some d => rcases hmark d rfl with rfl | rfl <;> rfl
  | none =>
    simp only [IsCommon, List.mem_cons, List.not_mem_nil, or_false, not_or] at hc
    simp only [Option.toList_none, List.nil_append, List.map_nil]
    unfold readComplement
    split
    · simp_all
    · simp_all
    · rfl

/-- What may be listed between brackets has no meaning of its own in first place. -/
theorem readFirst_common (bracket : Bracket) {c : Char} (hc : IsCommon c) (rest : Text) :
    readFirst bracket (c :: rest) = (bracket, c :: rest) := by
  simp only [IsCommon, List.mem_cons, List.not_mem_nil, or_false, not_or] at hc
  unfold readFirst
  split
  · simp_all
  · simp_all
  · simp_all
  · rfl

/-- A bracket expression is read up to its own closing bracket. -/
theorem read_members {mark : Option Char} (hmark : ∀ c ∈ mark, c = '!' ∨ c = '^')
    (first : CommonMember) (others : List CommonMember) (rest : Text) :
    ∃ final : Bracket,
      final.marks = .plain '[' :: mark.toList.map (fun _ => .plain '^') ++
        (first :: others).flatMap (·.marks) ∧
      read (mark.toList ++ (first :: others).flatMap (·.text) ++ ']' :: rest) =
        some (final, rest) := by
  obtain ⟨c, tail, htext, hc⟩ := text_eq_cons first
  have hstart : AtMember
      ⟨mark.toList.map (fun _ => [.plain '^']) ++ [[.plain '[']], false, 0, false⟩ :=
    ⟨rfl, by simp, rfl⟩
  obtain ⟨final, hmarks, hread⟩ := readRest_members (first :: others) rest hstart
  refine ⟨final, ?_, ?_⟩
  · rw [hmarks]
    cases mark <;> rfl
  · have hbody : (first :: others).flatMap (·.text) ++ ']' :: rest =
        c :: (tail ++ others.flatMap (·.text) ++ ']' :: rest) := by
      rw [List.flatMap_cons, htext, List.cons_append, List.cons_append]
    rw [List.append_assoc]
    rw [hbody] at hread ⊢
    simp only [read, readComplement_mark hmark hc, readFirst_common _ hc, hread]

/-- A bracket expression of members is one step. -/
theorem steps_of_marks {mark : Option Char} {members : List CommonMember} {bracket : Bracket}
    (h : bracket.marks = .plain '[' :: mark.toList.map (fun _ => .plain '^') ++
      members.flatMap (·.marks)) :
    bracket.steps = [.one ⟨mark.isSome, members.flatMap (·.members)⟩] := by
  unfold marks at h
  rw [← membersOf_marks members, steps, h]
  cases mark with
  | some c => rfl
  | none =>
    simp only [Option.toList_none, List.map_nil, List.cons_append, List.nil_append]
    split
    · rename_i heq
      have hmem : Mark.plain '^' ∈ members.flatMap (·.marks) := by simp_all
      obtain ⟨member, _, hmem⟩ := List.mem_flatMap.1 hmem
      exact absurd hmem (not_mem_marks member)
    · simp_all
    · simp_all

end Bracket

/-! ## Segments -/

namespace Segment

/-- A part is one step of a segment. -/
theorem stepsFrom_part (part : CommonPart) (rest : Text) :
    stepsFrom true (part.text ++ rest) = part.segmentStep :: stepsFrom true rest := by
  cases part with
  | char c h =>
    simp only [List.mem_cons, List.not_mem_nil, or_false, not_or] at h
    rw [CommonPart.text, List.singleton_append, stepsFrom.eq_def]
    simp [h, CommonPart.segmentStep]
  | anyString | anyChar =>
    rw [CommonPart.text, List.singleton_append, stepsFrom.eq_def]
    rfl
  | escaped c =>
    rw [CommonPart.text, List.cons_append, List.singleton_append, stepsFrom.eq_def]
    rfl
  | bracket mark hmark first others =>
    obtain ⟨final, hmarks, hread⟩ := Bracket.read_members hmark first others rest
    rw [CommonPart.text, List.cons_append, List.append_assoc, List.singleton_append,
      stepsFrom.eq_def]
    simp only [show ¬ '[' = '\\' by decide, show ¬ '[' = '*' by decide, show ¬ '[' = '?' by decide,
      decide_true, Bool.and_true, if_true, if_false]
    split
    · rename_i bracket after heq
      rw [hread] at heq
      obtain ⟨rfl, rfl⟩ := Prod.mk.inj (Option.some.inj heq)
      rw [Bracket.steps_of_marks hmarks]
      rfl
    · rename_i heq
      rw [hread] at heq
      cases heq

/-- The steps of a segment that is a common glob. -/
theorem steps_text (glob : CommonGlob) : steps glob.text = glob.map (·.segmentStep) := by
  unfold steps
  induction glob with
  | nil =>
    rw [CommonGlob.text_nil, stepsFrom.eq_def]
    rfl
  | cons part rest ih => rw [CommonGlob.text_cons, stepsFrom_part, ih, List.map_cons]

theorem readCommonSegments_isMatch : Wildcards.ReadCommonSegments isMatch := by
  intro segment name _ _ _
  rw [isMatch, decideSteps_eq, steps_text]

end Segment

namespace Pathname

theorem segments_ne_nil (glob : Text) : segments glob ≠ [] := by
  have honFirst : ∀ (lead : Text) (rest : List Text), onFirst lead rest ≠ [] := by
    intro lead rest
    cases rest <;> simp [onFirst]
  unfold segments
  split
  · simp
  · split
    · split
      · simp
      · split
        · simp
        · exact honFirst _ _
    · split
      · simp
      · exact honFirst _ _

theorem onFirst_onFirst (lead more : Text) (rest : List Text) :
    onFirst lead (onFirst more rest) = onFirst (lead ++ more) rest := by
  cases rest <;> simp [onFirst]

theorem onFirst_nil {rest : List Text} (h : rest ≠ []) : onFirst [] rest = rest := by
  cases rest with
  | nil => exact absurd rfl h
  | cons first rest => rfl

/-- Characters without a backslash and a slash belong to the first segment. -/
theorem segments_append_of_plain {t : Text} (h : ∀ c ∈ t, c ≠ '\\' ∧ c ≠ '/') (rest : Text) :
    segments (t ++ rest) = onFirst t (segments rest) := by
  induction t with
  | nil => exact (onFirst_nil (segments_ne_nil rest)).symm
  | cons c cs ih =>
    obtain ⟨hback, hslash⟩ := h c (.head _)
    rw [List.cons_append, segments_cons hback hslash, ih fun d hd => h d (.tail _ hd),
      onFirst_onFirst]
    rfl

/-- A part either ends the first segment or belongs to it. -/
theorem segments_part (part : CommonPart) (rest : Text) :
    segments (part.text ++ rest) =
      if part.isSlash then [] :: segments rest else onFirst part.text (segments rest) := by
  cases part with
  | char c h =>
    simp only [List.mem_cons, List.not_mem_nil, or_false, not_or] at h
    rw [CommonPart.text, List.singleton_append, segments.eq_def]
    simp [h, CommonPart.isSlash]
  | anyString | anyChar =>
    exact segments_append_of_plain (by simp [CommonPart.text]) rest
  | escaped c =>
    rw [CommonPart.text, List.cons_append, List.singleton_append, segments.eq_def]
    simp [CommonPart.isSlash]
  | bracket mark hmark first others =>
    exact segments_append_of_plain (plain_of_mem_bracket hmark first others) rest

/-- Parts that stand for no slash belong to the first segment. -/
theorem segments_append {segment : CommonGlob} (h : ∀ part ∈ segment, part.isSlash = false)
    (rest : Text) :
    segments (segment.text ++ rest) = onFirst segment.text (segments rest) := by
  induction segment with
  | nil => exact (onFirst_nil (segments_ne_nil rest)).symm
  | cons part others ih =>
    rw [CommonGlob.text_cons, List.append_assoc, segments_part, h part (.head _),
      ih fun other hother => h other (.tail _ hother)]
    exact onFirst_onFirst _ _ _

end Pathname

end PathOptions.Glob

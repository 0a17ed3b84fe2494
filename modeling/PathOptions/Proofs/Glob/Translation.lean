import PathOptions.Proofs.Glob.Language
import PathOptions.Proofs.Glob.Regex
/-!
The regular expression of a glob says what the glob says. Reading it back part by part gives one
part for each element of the glob (`read_translate`): every character that could mean something
else is protected, no range is in the wrong order, and no set is empty. The parts match the texts
that the steps of the glob accept, and these are the language of its tokens.
-/

namespace PathOptions.Glob

open Regex

/-! ## Characters -/

theorem regexChar_plain {c : Char} (h : isPlain c = true) : regexChar c = [c] := if_pos h

theorem regexChar_protected {c : Char} (h : isPlain c = false) : regexChar c = ['\\', c] :=
  if_neg (by rw [isPlain] at h; simp [h])

theorem isAlphanum_of_not_plain {c : Char} (h : isPlain c = false) : c.isAlphanum = false := by
  simp only [isPlain, Bool.or_eq_false_iff] at h
  exact h.1.1

theorem not_plain_of_hasMeaning {c : Char} (h : hasMeaning c = true) : isPlain c = false := by
  simp only [hasMeaning, List.contains_iff_mem] at h
  have hall : "[]\\^-&~|".toList.all (fun d => !isPlain d) = true := by decide
  simpa using List.all_eq_true.1 hall c h

/-- The text of a character begins with the character or a backslash. -/
theorem head?_regexChar (c : Char) (t : Text) {d : Char}
    (h : (regexChar c ++ t).head? = some d) : d = '\\' ∨ isPlain d = true := by
  by_cases hc : isPlain c = true
  · rw [regexChar_plain hc] at h
    obtain rfl := Option.some.inj h
    exact .inr hc
  · rw [regexChar_protected (Bool.eq_false_iff.2 hc)] at h
    exact .inl (Option.some.inj h).symm

theorem readMember_regexChar (c : Char) (t : Text) :
    readMember (regexChar c ++ t) = some (c, t) := by
  by_cases hc : isPlain c = true
  · have hslash : c ≠ '\\' := by
      rintro rfl
      exact absurd hc (by decide)
    have hmeaning : hasMeaning c = false := by
      rw [Bool.eq_false_iff]
      intro h
      rw [not_plain_of_hasMeaning h] at hc
      cases hc
    simp [regexChar_plain hc, readMember, hslash, hmeaning]
  · have hc := Bool.eq_false_iff.2 hc
    simp [regexChar_protected hc, readMember, readProtected, isAlphanum_of_not_plain hc]

theorem readMember_regexSeparator (sep : Char) (t : Text) :
    readMember (regexSeparator sep ++ t) = some (sep, t) := by
  unfold regexSeparator
  split
  · rename_i h
    have hall : "()[]\x7b\x7d?*+-|^$\\.&~# \t\n\r\x0b\x0c".toList.all
        (fun d => !d.isAlphanum) = true := by decide
    have hsep : sep.isAlphanum = false := by
      simpa using List.all_eq_true.1 hall sep (List.contains_iff_mem.1 h)
    simp [readMember, readProtected, hsep]
  · rename_i h
    have hslash : sep ≠ '\\' := by
      rintro rfl
      exact h (by decide)
    have hmeaning : hasMeaning sep = false := by
      rw [Bool.eq_false_iff]
      intro hm
      simp only [hasMeaning, List.contains_iff_mem] at hm
      have hall : "[]\\^-&~|".toList.all
          "()[]\x7b\x7d?*+-|^$\\.&~# \t\n\r\x0b\x0c".toList.contains = true := by decide
      exact h (List.all_eq_true.1 hall sep hm)
    simp [readMember, hslash, hmeaning]

/-! ## Sets -/

def Member.IsOrdered : Member → Prop
  | .single _ => True
  | .range lo hi => lo.toNat ≤ hi.toNat

theorem isOrdered_rangeOf {lo hi : Char} {member : Member} (h : member ∈ rangeOf lo hi) :
    member.IsOrdered := by
  unfold rangeOf at h
  split at h
  · obtain rfl := List.mem_singleton.1 h
    assumption
  · cases h

theorem isOrdered_membersOf {items : List BracketItem} {member : Member}
    (h : member ∈ membersOf items) : member.IsOrdered := by
  fun_induction membersOf items with
  | case1 lo dash hi rest _ ih =>
    rcases List.mem_append.1 h with h | h
    · exact isOrdered_rangeOf h
    · exact ih h
  | case2 lo dash hi rest _ ih =>
    rcases List.mem_cons.1 h with rfl | h
    · trivial
    · exact ih h
  | case3 items =>
    obtain ⟨item, _, rfl⟩ := List.mem_map.1 h
    trivial

theorem readMembers_of_readMember {t rest : Text} {c : Char} (h : readMember t = some (c, rest))
    (hrest : rest.head? ≠ some '-') :
    readMembers t = (readMembers rest).map fun (members, rest) => (.single c :: members, rest) := by
  cases t with
  | nil => cases h
  | cons d cs =>
    have hclose : d ≠ ']' := by
      rintro rfl
      cases h
    rw [readMembers, if_neg hclose]
    split <;> grind

theorem readMembers_of_range {t after rest : Text} {lo hi : Char}
    (hlo : readMember t = some (lo, '-' :: after)) (hhi : readMember after = some (hi, rest))
    (hle : lo.toNat ≤ hi.toNat) :
    readMembers t =
      (readMembers rest).map fun (members, rest) => (.range lo hi :: members, rest) := by
  cases t with
  | nil => cases hlo
  | cons d cs =>
    have hclose : d ≠ ']' := by
      rintro rfl
      cases hlo
    rw [readMembers, if_neg hclose]
    split
    · grind
    · split <;> grind
    · grind

theorem readMembers_regex {member : Member} {t : Text} (hmember : member.IsOrdered)
    (ht : t.head? ≠ some '-') :
    readMembers (member.regex ++ t) =
      (readMembers t).map fun (members, rest) => (member :: members, rest) := by
  cases member with
  | single c => exact readMembers_of_readMember (readMember_regexChar c t) ht
  | range lo hi =>
    have hlo := readMember_regexChar lo ('-' :: (regexChar hi ++ t))
    rw [Member.regex, List.append_assoc, List.cons_append]
    exact readMembers_of_range hlo (readMember_regexChar hi t) hmember

theorem head?_member (member : Member) (t : Text) {d : Char}
    (h : (member.regex ++ t).head? = some d) : d = '\\' ∨ isPlain d = true := by
  cases member with
  | single c => exact head?_regexChar c t h
  | range lo hi =>
    rw [Member.regex, List.append_assoc] at h
    exact head?_regexChar lo _ h

/-- What follows a member in a set is no dash, which would make a range. -/
theorem head?_members_ne_dash (members : List Member) (t : Text) :
    (members.flatMap Member.regex ++ ']' :: t).head? ≠ some '-' := by
  cases members with
  | nil => simp
  | cons member rest =>
    intro h
    rw [List.flatMap_cons, List.append_assoc] at h
    exact absurd (head?_member member _ h) (by decide)

/-- Members are read back one by one. -/
theorem readMembers_flatMap {members : List Member} (t : Text)
    (h : ∀ member ∈ members, member.IsOrdered) :
    readMembers (members.flatMap Member.regex ++ ']' :: t) = some (members, t) := by
  induction members with
  | nil => simp [readMembers]
  | cons member rest ih =>
    have hrest := ih (fun other hother => h other (by simp [hother]))
    rw [List.flatMap_cons, List.append_assoc,
      readMembers_regex (h member (by simp)) (head?_members_ne_dash rest t), hrest]
    rfl

/-- A set is read back unless it has no members. -/
theorem readSet_regex (complement : Bool) {member : Member} {members : List Member} (t : Text)
    (h : ∀ other ∈ member :: members, other.IsOrdered) :
    readSet ((if complement then ['^'] else []) ++ (member :: members).flatMap Member.regex ++
      ']' :: t) = some (⟨complement, member :: members⟩, t) := by
  have hread := readMembers_flatMap t h
  cases complement with
  | true =>
    change setOf true (readMembers ((member :: members).flatMap Member.regex ++ ']' :: t)) = _
    rw [hread]
    rfl
  | false =>
    change readSet ((member :: members).flatMap Member.regex ++ ']' :: t) = _
    rw [readSet.eq_2, hread]
    · rfl
    · intro rest heq
      rw [List.flatMap_cons, List.append_assoc] at heq
      exact absurd (head?_member member _ (congrArg List.head? heq)) (by decide)

theorem readSet_regexSeparator (sep : Char) (t : Text) :
    readSet ('^' :: regexSeparator sep ++ ']' :: t) = some (.allBut sep, t) := by
  have hclose : readMembers (']' :: t) = some ([], t) := by simp [readMembers]
  have hread := readMembers_of_readMember (readMember_regexSeparator sep (']' :: t)) (by simp)
  change setOf true (readMembers (regexSeparator sep ++ ']' :: t)) = _
  rw [hread, hclose]
  rfl

/-! ## Elements -/

def Element.part (sep : Char) : Element → Part
  | .char c => .one (.only c)
  | .anyChar => .one (.allBut sep)
  | .anyString => .many (.allBut sep)
  | .bracket ⟨true, []⟩ => .one .all
  | .bracket ⟨false, []⟩ => .never
  | .bracket set => .one set

def Element.IsOrdered : Element → Prop
  | .bracket set => ∀ member ∈ set.members, member.IsOrdered
  | _ => True

theorem isOrdered_elementsFrom {state : Option OpenBracket} {tokens : List Token}
    {element : Element} (h : element ∈ elementsFrom state tokens) : element.IsOrdered := by
  induction tokens generalizing state with
  | nil => cases state <;> cases h
  | cons token rest ih =>
    cases state with
    | none =>
      cases token with
      | classStart | complement | dash | classEnd => exact ih h
      | literal c | escaped c | anyChar | anyString =>
        rcases List.mem_cons.1 h with rfl | h
        · trivial
        · exact ih h
    | some bracket =>
      cases token with
      | classEnd =>
        rcases List.mem_cons.1 h with rfl | h
        · exact fun member hmember => isOrdered_membersOf hmember
        · exact ih h
      | literal c | escaped c | anyChar | anyString | classStart | complement | dash =>
        exact ih h

/-! ## Parts -/

theorem readParts_plain {c : Char} (t : Text) (h : isPlain c = true) :
    readParts (c :: t) = (readParts t).map (.one (.only c) :: ·) := by
  have hne : ∀ d, isPlain d = false → c ≠ d := by
    rintro d hd rfl
    rw [h] at hd
    cases hd
  rw [readParts.eq_7 c t (fun heq => absurd heq (hne _ (by decide)))
    (fun _ heq => absurd heq (hne _ (by decide))) (fun _ heq => absurd heq (hne _ (by decide)))
    (hne _ (by decide)) (hne _ (by decide)), if_pos h]

theorem readParts_protected {c : Char} (t : Text) (h : c.isAlphanum = false) :
    readParts ('\\' :: c :: t) = (readParts t).map (.one (.only c) :: ·) := by
  have hread : readProtected (c :: t) = some (c, t) := by simp [readProtected, h]
  rw [readParts]
  split <;> simp_all

theorem readParts_regexChar (c : Char) (t : Text) :
    readParts (regexChar c ++ t) = (readParts t).map (.one (.only c) :: ·) := by
  by_cases hc : isPlain c = true
  · rw [regexChar_plain hc]
    exact readParts_plain t hc
  · have hc := Bool.eq_false_iff.2 hc
    rw [regexChar_protected hc]
    exact readParts_protected t (isAlphanum_of_not_plain hc)

theorem readParts_set {t rest : Text} {set : CharSet} (h : readSet t = some (set, rest))
    (hrest : rest.head? ≠ some '*') :
    readParts ('[' :: t) = (readParts rest).map (.one set :: ·) := by
  rw [readParts]
  split <;> grind

theorem readParts_many {t rest : Text} {sep : Char}
    (h : readSet t = some (.allBut sep, '*' :: rest)) :
    readParts ('[' :: t) = (readParts rest).map (.many (.allBut sep) :: ·) := by
  rw [readParts]
  split <;> simp_all [isAllBut, CharSet.allBut]

/-- An element is read back as its part, unless a star follows. -/
theorem readParts_regex (sep : Char) {element : Element} {t : Text} (helement : element.IsOrdered)
    (ht : t.head? ≠ some '*') :
    readParts (element.regex sep ++ t) = (readParts t).map (element.part sep :: ·) := by
  cases element with
  | char c => exact readParts_regexChar c t
  | anyChar =>
    have hread := readSet_regexSeparator sep t
    simp only [Element.regex, List.cons_append, List.append_assoc, List.nil_append]
    exact readParts_set hread ht
  | anyString =>
    have hread := readSet_regexSeparator sep ('*' :: t)
    simp only [Element.regex, List.cons_append, List.append_assoc, List.nil_append]
    exact readParts_many hread
  | bracket set =>
    match set, helement with
    | ⟨true, []⟩, _ => exact readParts.eq_4 t
    | ⟨false, []⟩, _ => exact readParts.eq_3 t
    | ⟨complement, member :: members⟩, helement =>
      have hread := readSet_regex complement t helement
      have hregex : (Element.bracket ⟨complement, member :: members⟩).regex sep ++ t =
          '[' :: ((if complement then ['^'] else []) ++
            (member :: members).flatMap Member.regex ++ ']' :: t) := by
        simp [Element.regex, CharSet.regex]
      rw [hregex, readParts_set hread ht]
      cases complement <;> rfl

/-- The text of an element does not begin with a star. -/
theorem head?_element (sep : Char) (element : Element) (t : Text) :
    (element.regex sep ++ t).head? ≠ some '*' := by
  intro h
  cases element with
  | char c => exact absurd (head?_regexChar c t h) (by decide)
  | anyChar | anyString => cases h
  | bracket set =>
    match set with
    | ⟨true, []⟩ | ⟨false, []⟩ => cases h
    | ⟨complement, member :: members⟩ =>
      simp [Element.regex, CharSet.regex] at h

/-- Elements are read back one by one. -/
theorem readParts_flatMap (sep : Char) {elements : List Element}
    (h : ∀ element ∈ elements, element.IsOrdered) :
    readParts (elements.flatMap (·.regex sep) ++ ['$']) =
      some (elements.map (·.part sep) ++ [.finish]) := by
  induction elements with
  | nil => exact readParts.eq_2
  | cons element rest ih =>
    have hhead : (rest.flatMap (·.regex sep) ++ ['$']).head? ≠ some '*' := by
      cases rest with
      | nil => simp
      | cons next rest =>
        rw [List.flatMap_cons, List.append_assoc]
        exact head?_element sep next _
    rw [List.flatMap_cons, List.append_assoc, readParts_regex sep (h element (by simp)) hhead,
      ih (fun other hother => h other (by simp [hother]))]
    rfl

/-- The regular expression of a glob has one part for each element of it, between its anchors. -/
theorem read_translate (sep : Char) (glob : Text) :
    Regex.read (translate sep glob) =
      some (.start :: ((elements glob).map (·.part sep) ++ [.finish])) := by
  have hordered : ∀ element ∈ elements glob, element.IsOrdered :=
    fun _ h => isOrdered_elementsFrom h
  change (readParts ((elements glob).flatMap (·.regex sep) ++ ['$'])).map _ = _
  rw [readParts_flatMap sep hordered]
  rfl

/-! ## Matching -/

theorem takes_finish_iff {n : Nat} {t : Text} : Takes n [.finish] t ↔ t = [] := by
  constructor
  · intro h
    cases h with
    | finish _ h =>
      cases h
      rfl
  · rintro rfl
    exact .finish (.inl rfl) .done

/-- Whether a part takes one character of a set does not depend on how the set is written. -/
theorem takes_bracket_iff (sep : Char) (set : CharSet) (n : Nat) (rest : List Part) (t : Text) :
    Takes n ((Element.bracket set).part sep :: rest) t ↔
      ∃ c after, t = c :: after ∧ set.has c = true ∧ Takes (n + 1) rest after := by
  match set with
  | ⟨false, []⟩ =>
    constructor
    · intro h
      cases h
    · intro htaken
      obtain ⟨c, after, rfl, hc, _⟩ := htaken
      cases hc
  | ⟨true, []⟩ => exact takes_one_iff
  | ⟨true, _ :: _⟩ | ⟨false, _ :: _⟩ => exact takes_one_iff

/-- The parts of elements match what their steps accept. -/
theorem takes_parts_iff (sep : Char) (elements : List Element) (n : Nat) (t : Text) :
    Takes n (elements.map (·.part sep) ++ [.finish]) t ↔
      accepts (elements.map (·.step sep)) t = true := by
  induction elements generalizing n t with
  | nil =>
    rw [List.map_nil, List.nil_append, takes_finish_iff]
    cases t <;> simp [accepts]
  | cons element rest ih =>
    rw [List.map_cons, List.map_cons, List.cons_append]
    cases element with
    | char c =>
      change Takes n (.one (.only c) :: _) t ↔ accepts (.one (.only c) :: _) t = true
      simp only [takes_one_iff, accepts_one_iff, ih]
    | anyChar =>
      change Takes n (.one (.allBut sep) :: _) t ↔ accepts (.one (.allBut sep) :: _) t = true
      simp only [takes_one_iff, accepts_one_iff, ih]
    | anyString =>
      change Takes n (.many (.allBut sep) :: _) t ↔ accepts (.run (.allBut sep) :: _) t = true
      simp only [takes_many_iff, accepts_run_iff, ih]
    | bracket set =>
      change _ ↔ accepts (.one set :: _) t = true
      simp only [takes_bracket_iff, accepts_one_iff, ih]

/-- The regular expression of a glob can be read, and it matches the whole of a candidate exactly
if the candidate is in the language of the tokens of the glob; matching the glob says the same. -/
theorem translate_denotes_language (sep : Char) (glob : Text) :
    ∃ parts, Regex.read (translate sep glob) = some parts ∧
      ∀ candidate,
        (Regex.FullMatch parts candidate ↔ Language sep (tokenize glob) candidate) ∧
        (isMatch sep glob candidate = true ↔ Language sep (tokenize glob) candidate) := by
  refine ⟨_, read_translate sep glob, fun candidate =>
    ⟨?_, isMatch_iff_language sep glob candidate⟩⟩
  rw [← isMatch_iff_language, isMatch, decideSteps_eq, ← takes_parts_iff sep _ 0]
  constructor
  · intro h
    cases h with
    | start h => exact h
  · exact .start

end PathOptions.Glob

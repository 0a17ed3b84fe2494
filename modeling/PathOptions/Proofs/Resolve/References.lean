import PathOptions.Proofs.Path.Folder
import PathOptions.Proofs.Text.Replacement
import PathOptions.Resolve.Property
/-!
References to properties in option values. The properties are replaced one after the other, each in
the text that the others left. A value that consists of references and of text without dollar signs
stays of this form as long as the texts of the properties have no dollar signs either, because every
reference begins with one. So no text becomes a reference, and the value comes out as if all
references were replaced at once, in whatever order the properties are listed
(`substitute_at_once`).
-/

namespace PathOptions

namespace Property

/-! ## Values with references -/

/-- A part of a value: text without dollar signs, or the reference to a name. -/
inductive Part where
  | plain (text : Text) (free : '$' ∉ text)
  | reference (name : Text) (free : '$' ∉ name) (closed : '\x7d' ∉ name)

namespace Part

def text : Part → Text
  | plain text _ => text
  | reference name _ _ => Property.reference name

def value (parts : List Part) : Text := parts.flatMap text

theorem value_cons (part : Part) (parts : List Part) :
    value (part :: parts) = part.text ++ value parts :=
  List.flatMap_cons

/-- What a part comes to: the text of the property that it refers to, and itself if there is no such
property or it is no reference. -/
def filled (properties : List Assignment) : Part → Text
  | plain text _ => text
  | reference name _ _ => (properties.lookup name).getD (Property.reference name)

/-- The part that is left when one property is replaced. -/
def replaced (name text : Text) (free : '$' ∉ text) : Part → Part
  | plain other hother => plain other hother
  | reference other hother hclosed =>
    if other = name then plain text free else reference other hother hclosed

end Part

/-- Properties whose names fit between the braces of a reference and whose texts have no dollar
signs. -/
def IsClean (properties : List Assignment) : Prop :=
  ∀ property ∈ properties, '\x7d' ∉ property.1 ∧ '$' ∉ property.2

section

variable {name other rest text : Text} {properties : List Assignment}

def referenceTail (name : Text) : Text :=
  ['\x7b', 't', 'r', 'e', 'e', '-', 'p', 'r', 'o', 'f', 'i', 'l', 'e', 's', '-'] ++ name
    ++ ['\x7d']

theorem reference_eq (name : Text) : reference name = '$' :: referenceTail name := rfl

theorem not_mem_referenceTail (h : '$' ∉ name) : '$' ∉ referenceTail name := by
  simp [referenceTail, h]

/-- No reference is the beginning of another one. -/
theorem eq_of_reference_begins (hname : '\x7d' ∉ name) (hother : '\x7d' ∉ other)
    (h : reference name <+: reference other ++ rest) : name = other := by
  obtain ⟨after, hafter⟩ := h
  simp only [reference, List.append_assoc] at hafter
  have hnames := List.append_cancel_left hafter
  exact (Text.eq_of_append_sep hnames hname hother).1

/-- Replacing one property replaces a part that refers to it and passes over every other part,
whatever follows. -/
theorem replaceAll_part (hname : '\x7d' ∉ name) (htext : '$' ∉ text) (part : Part) (rest : Text) :
    Text.replaceAll (reference name) text (part.text ++ rest) =
      (part.replaced name text htext).text ++ Text.replaceAll (reference name) text rest := by
  cases part with
  | plain t hfree => exact Text.replaceAll_append_of_not_mem hfree _ _ _
  | reference other hfree hclosed =>
    by_cases hsame : other = name
    · subst hsame
      rw [Part.replaced, if_pos rfl]
      exact Text.replaceAll_occurrence (List.cons_ne_nil _ _) _ _
    · have hnot : ¬ reference name <+: reference other ++ rest := by
        intro h
        exact hsame (eq_of_reference_begins hname hclosed h).symm
      rw [Part.replaced, if_neg hsame]
      -- no occurrence begins at the dollar sign, and none behind it
      calc Text.replaceAll (reference name) text (reference other ++ rest)
          = '$' :: Text.replaceAll (reference name) text (referenceTail other ++ rest) :=
            Text.replaceAll_cons hnot text
        _ = '$' :: (referenceTail other ++ Text.replaceAll (reference name) text rest) := by
            rw [reference_eq name,
              Text.replaceAll_append_of_not_mem (not_mem_referenceTail hfree)]
        _ = reference other ++ Text.replaceAll (reference name) text rest := rfl

theorem replaceAll_value (hname : '\x7d' ∉ name) (htext : '$' ∉ text) (parts : List Part) :
    Text.replaceAll (reference name) text (Part.value parts) =
      Part.value (parts.map (Part.replaced name text htext)) := by
  induction parts with
  | nil => rfl
  | cons part parts ih =>
    rw [List.map_cons, Part.value_cons, Part.value_cons, replaceAll_part hname htext, ih]

theorem filled_replaced (htext : '$' ∉ text) (part : Part) :
    (part.replaced name text htext).filled properties =
      part.filled ((name, text) :: properties) := by
  cases part with
  | plain t _ => rfl
  | reference other _ _ =>
    by_cases hsame : other = name
    · simp [Part.replaced, Part.filled, hsame]
    · have hnot : (other == name) = false := beq_false_of_ne hsame
      simp [Part.replaced, Part.filled, hsame, List.lookup_cons, hnot]

theorem substitute_value (h : IsClean properties) (parts : List Part) :
    substitute properties (Part.value parts) = parts.flatMap (Part.filled properties) := by
  induction properties generalizing parts with
  | nil =>
    have hfilled : Part.filled [] = Part.text := by
      funext part
      cases part <;> rfl
    rw [hfilled]
    rfl
  | cons property properties ih =>
    obtain ⟨⟨hname, htext⟩, hrest⟩ := List.forall_mem_cons.1 h
    have hstep : substitute (property :: properties) (Part.value parts) =
        substitute properties
          (Text.replaceAll (reference property.1) property.2 (Part.value parts)) := rfl
    rw [hstep, replaceAll_value hname htext, ih hrest, List.flatMap_map]
    congr 1
    funext part
    exact filled_replaced htext part

/-- Of properties with different names, the order does not matter for looking one up. -/
theorem lookup_perm {properties others : List Assignment} (h : others.Perm properties)
    (hnames : (others.map (·.1)).Nodup) (name : Text) :
    others.lookup name = properties.lookup name := by
  induction h with
  | nil => rfl
  | cons property _ ih =>
    rw [List.lookup_cons, List.lookup_cons, ih (List.nodup_cons.1 hnames).2]
  | swap first second rest =>
    have hne : first.1 ≠ second.1 := by
      intro heq
      simp [heq] at hnames
    rw [List.lookup_cons, List.lookup_cons, List.lookup_cons, List.lookup_cons]
    cases hfirst : name == first.1 with
    | false => rfl
    | true =>
      have hsecond : (name == second.1) = false :=
        beq_false_of_ne fun heq => hne ((beq_iff_eq.1 hfirst).symm.trans heq)
      rw [hsecond]
  | trans hfirst _ ihfirst ihsecond =>
    rw [ihfirst hnames, ihsecond ((hfirst.map _).nodup_iff.1 hnames)]

/-! ## The properties of a file -/

/-- A dollar sign can only come from the name of the parent or from the path of the file. -/
theorem isClean_ofChild {sep parent child : Text} (hparent : '$' ∉ parent) (hchild : '$' ∉ child) :
    IsClean (ofChild sep parent child) := by
  intro property hproperty
  simp only [ofChild, List.mem_cons, List.not_mem_nil, or_false] at hproperty
  rcases hproperty with rfl | rfl | rfl
  · exact ⟨(by decide : '\x7d' ∉ "parent".toList), hparent⟩
  · exact ⟨(by decide : '\x7d' ∉ "path".toList), hchild⟩
  · refine ⟨(by decide : '\x7d' ∉ "directory".toList), ?_⟩
    intro hdollar
    rcases Path.mem_directory hdollar with h | h
    · exact hchild h
    · cases h

end

/-- A value of clean parts comes out as if all references to known properties were replaced at once
and all else were left, and it does so for every order of the properties. -/
theorem substitute_at_once {properties : List Assignment} (hclean : IsClean properties)
    (hnames : (properties.map (·.1)).Nodup) (parts : List Part) :
    substitute properties (Part.value parts) = parts.flatMap (Part.filled properties) ∧
      ∀ others, others.Perm properties →
        substitute others (Part.value parts) = substitute properties (Part.value parts) := by
  have hvalue := substitute_value hclean parts
  refine ⟨hvalue, ?_⟩
  intro others hperm
  have hothers : IsClean others := fun property h => hclean property (hperm.mem_iff.1 h)
  have hfilled : Part.filled others = Part.filled properties := by
    have hnames' : (others.map (·.1)).Nodup := (hperm.map _).nodup_iff.2 hnames
    funext part
    cases part with
    | plain t _ => rfl
    | reference name _ _ => rw [Part.filled, Part.filled, lookup_perm hperm hnames' name]
  rw [substitute_value hothers, hvalue, hfilled]

/-- The texts look like pieces of references, and a name that is not known begins with one that
is. -/
theorem substitute_at_once_pieces :
    let properties := ofChild ['/'] "a\x7d\x7bb".toList "\x7btree-profiles-path\x7d/f".toList
    let parts : List Part :=
      [.plain "\x7b".toList (by decide), .reference "parent".toList (by decide) (by decide),
       .reference "paths".toList (by decide) (by decide),
       .reference "directory".toList (by decide) (by decide)]
    let result :=
      "\x7ba\x7d\x7bb$\x7btree-profiles-paths\x7d\x7btree-profiles-path\x7d".toList
    IsClean properties ∧ (properties.map (·.1)).Nodup ∧
      substitute properties (Part.value parts) = result ∧
      substitute properties.reverse (Part.value parts) = result := by
  intro properties parts result
  have hclean : IsClean properties := isClean_ofChild (by decide) (by decide)
  have hnames : (properties.map (·.1)).Nodup := by decide
  obtain ⟨hvalue, horder⟩ := substitute_at_once hclean hnames parts
  have hresult : parts.flatMap (Part.filled properties) = result := by decide
  exact ⟨hclean, hnames, hvalue.trans hresult,
    (horder _ (List.reverse_perm properties)).trans (hvalue.trans hresult)⟩

end Property

end PathOptions

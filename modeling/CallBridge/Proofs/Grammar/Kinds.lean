import CallBridge.Proofs.Scanning
import CallBridge.Proofs.Spelling

/-!
# The grammar of kinds

Which texts are kinds, and what is wrong with those that are none. A kind is given by its trimmed
text, part by part from the outside (`Kind.Spelled`). A text that is no kind is wrong in one place,
the innermost part that is none (`Kind.Misspelled`). Every text is one or the other, and reading
finds which (`Kind.ofChars_eq_ok_iff`, `Kind.ofChars_eq_error_iff`).
-/

namespace CallBridge

open Text

/-- The text that is quoted as no kind. -/
def TextFault.quoted : TextFault → String
  | unknownType text => text
  | valueTypeSize text => text

namespace Primitive

theorem ofKeyword?_eq_none_iff {text : List Char} :
    ofKeyword? text = none ↔ ∀ p : Primitive, text ≠ p.keyword := by
  constructor
  · rintro h p rfl
    cases p.ofKeyword?_keyword.symm.trans h
  · intro h
    refine Option.eq_none_iff_forall_not_mem.mpr fun p hp => ?_
    exact h p (keyword_of_ofKeyword? hp).symm

end Primitive

namespace Kind

/-- A text spells a kind: without the blanks around it, it is a keyword, a mark with a part that
spells a kind, or a size in its marks. -/
inductive Spelled : Kind → List Char → Prop
  | primitive {p : Primitive} {text : List Char} (h : trim text = p.keyword) :
      Spelled (.primitive p) text
  | byRef {target : Kind} {text part : List Char} (h : trim text = '&' :: part)
      (hpart : Spelled target part) : Spelled (.byRef target) text
  | enum {base : Kind} {text part : List Char} (h : trim text = "enum(".toList ++ (part ++ [')']))
      (hpart : Spelled base part) : Spelled (.enum base) text
  | valueType {size : BitVec 32} {text part : List Char}
      (h : trim text = "vt(".toList ++ (part ++ [')'])) (hpart : Numeral size (trim part)) :
      Spelled (.valueType size) text

/-- A text spells no kind, and `fault` is what is wrong with it: the innermost part that has neither
the marks of a kind nor a keyword, or a size that is no numeral. -/
inductive Misspelled : List Char → TextFault → Prop
  | byRef {text part : List Char} {fault : TextFault} (h : trim text = '&' :: part)
      (hpart : Misspelled part fault) : Misspelled text fault
  | enum {text part : List Char} {fault : TextFault}
      (h : trim text = "enum(".toList ++ (part ++ [')'])) (hpart : Misspelled part fault) :
      Misspelled text fault
  | valueType {text part : List Char} (h : trim text = "vt(".toList ++ (part ++ [')']))
      (hpart : ∀ size, ¬Numeral size (trim part)) :
      Misspelled text (.valueTypeSize (String.ofList (trim text)))
  | unknown {text : List Char} (hbyRef : ∀ part, trim text ≠ '&' :: part)
      (henum : ∀ part, trim text ≠ "enum(".toList ++ (part ++ [')']))
      (hvalueType : ∀ part, trim text ≠ "vt(".toList ++ (part ++ [')']))
      (hkeyword : ∀ p : Primitive, trim text ≠ p.keyword) :
      Misspelled text (.unknownType (String.ofList (trim text)))

variable {text text' part : List Char} {k : Kind} {fault : TextFault}

/-! ## The outermost part -/

theorem Shape.of_eq_valueType (h : Shape.of text = .valueType part) :
    text = "vt(".toList ++ (part ++ [')']) := by
  unfold Shape.of at h
  repeat' split at h
  all_goals cases h
  rename_i hbetween
  exact between?_eq_some_iff.mp hbetween

/-- A text has no marks on its outside exactly if it is none of the marked forms. -/
theorem Shape.of_eq_bare_iff : Shape.of text = .bare ↔ (∀ part, text ≠ '&' :: part) ∧
    (∀ part, text ≠ "enum(".toList ++ (part ++ [')'])) ∧
    (∀ part, text ≠ "vt(".toList ++ (part ++ [')'])) := by
  constructor
  · refine fun h => ⟨?_, ?_, ?_⟩
    all_goals
      rintro part rfl
    · cases (Shape.of_byRef part).symm.trans h
    · cases (Shape.of_enum part).symm.trans h
    · cases (Shape.of_valueType part).symm.trans h
  · rintro ⟨hbyRef, henum, hvalueType⟩
    cases h : Shape.of text with
    | byRef part => exact absurd (Shape.of_eq_byRef h) (hbyRef part)
    | enum part => exact absurd (Shape.of_eq_enum h) (henum part)
    | valueType part => exact absurd (Shape.of_eq_valueType h) (hvalueType part)
    | bare => rfl

theorem ofChars_of_no_numeral (h : Shape.of (trim text) = .valueType part)
    (hsize : unsigned? (trim part) = none) :
    ofChars text = .error (.valueTypeSize (String.ofList (trim text))) := by
  rw [ofChars]
  split
  all_goals simp_all

theorem ofChars_of_no_keyword (h : Shape.of (trim text) = .bare)
    (hp : Primitive.ofKeyword? (trim text) = none) :
    ofChars text = .error (.unknownType (String.ofList (trim text))) := by
  rw [ofChars]
  split
  all_goals simp_all

/-! ## Reading -/

/-- Any text spells a kind, or something is wrong with it. -/
theorem spelled_or_misspelled (text : List Char) :
    (∃ k : Kind, k.Spelled text) ∨ ∃ fault, Misspelled text fault := by
  induction hlength : text.length using Nat.strongRecOn generalizing text with
  | ind length ih =>
      have hle := length_trim_le text
      cases h : Shape.of (trim text) with
      | byRef part =>
          have htext := Shape.of_eq_byRef h
          rw [htext, List.length_cons] at hle
          rcases ih part.length (by omega) part rfl with ⟨k, hpart⟩ | ⟨fault, hpart⟩
          · exact .inl ⟨_, .byRef htext hpart⟩
          · exact .inr ⟨_, .byRef htext hpart⟩
      | enum part =>
          have htext := Shape.of_eq_enum h
          rw [htext, List.length_append, List.length_append, List.length_singleton] at hle
          rcases ih part.length (by omega) part rfl with ⟨k, hpart⟩ | ⟨fault, hpart⟩
          · exact .inl ⟨_, .enum htext hpart⟩
          · exact .inr ⟨_, .enum htext hpart⟩
      | valueType part =>
          have htext := Shape.of_eq_valueType h
          by_cases hsize : ∃ size, Numeral size (trim part)
          · obtain ⟨size, hnumeral⟩ := hsize
            exact .inl ⟨_, .valueType htext hnumeral⟩
          · exact .inr ⟨_, .valueType htext (not_exists.mp hsize)⟩
      | bare =>
          obtain ⟨hbyRef, henum, hvalueType⟩ := Shape.of_eq_bare_iff.mp h
          by_cases hkeyword : ∃ p : Primitive, trim text = p.keyword
          · obtain ⟨p, hp⟩ := hkeyword
            exact .inl ⟨_, .primitive hp⟩
          · exact .inr ⟨_, .unknown hbyRef henum hvalueType (not_exists.mp hkeyword)⟩

theorem Spelled.ofChars_eq (h : k.Spelled text) : ofChars text = .ok k := by
  induction h with
  | @primitive p text h =>
      refine ofChars_of_keyword (p := p) ?_ ?_
      · rw [h, Shape.of_keyword]
      · rw [h, p.ofKeyword?_keyword]
  | byRef h hpart ih =>
      rw [ofChars_of_byRef (h ▸ Shape.of_byRef _), ih]
      rfl
  | enum h hpart ih =>
      rw [ofChars_of_enum (h ▸ Shape.of_enum _), ih]
      rfl
  | valueType h hpart =>
      exact ofChars_of_valueType (h ▸ Shape.of_valueType _) (unsigned?_eq_some_iff.mpr hpart)

theorem Misspelled.ofChars_eq (h : Misspelled text fault) : ofChars text = .error fault := by
  induction h with
  | byRef h hpart ih =>
      rw [ofChars_of_byRef (h ▸ Shape.of_byRef _), ih]
      rfl
  | enum h hpart ih =>
      rw [ofChars_of_enum (h ▸ Shape.of_enum _), ih]
      rfl
  | valueType h hpart =>
      refine ofChars_of_no_numeral (h ▸ Shape.of_valueType _) ?_
      refine Option.eq_none_iff_forall_not_mem.mpr fun size hsize => ?_
      exact hpart size (unsigned?_eq_some_iff.mp hsize)
  | unknown hbyRef henum hvalueType hkeyword =>
      exact ofChars_of_no_keyword (Shape.of_eq_bare_iff.mpr ⟨hbyRef, henum, hvalueType⟩)
        (Primitive.ofKeyword?_eq_none_iff.mpr hkeyword)

theorem ofChars_eq_ok_iff : ofChars text = .ok k ↔ k.Spelled text := by
  refine ⟨fun h => ?_, Spelled.ofChars_eq⟩
  rcases spelled_or_misspelled text with ⟨k', hspelled⟩ | ⟨fault, hmis⟩
  · obtain rfl := Except.ok.inj (hspelled.ofChars_eq.symm.trans h)
    exact hspelled
  · cases hmis.ofChars_eq.symm.trans h

theorem ofChars_eq_error_iff : ofChars text = .error fault ↔ Misspelled text fault := by
  refine ⟨fun h => ?_, Misspelled.ofChars_eq⟩
  rcases spelled_or_misspelled text with ⟨k, hspelled⟩ | ⟨fault', hmis⟩
  · cases hspelled.ofChars_eq.symm.trans h
  · obtain rfl := Except.error.inj (hmis.ofChars_eq.symm.trans h)
    exact hmis

/-- What is quoted has no blanks around it, is wrong in itself, and so spells no kind. -/
theorem Misspelled.quoted (h : Misspelled text fault) :
    trim fault.quoted.toList = fault.quoted.toList ∧ Misspelled fault.quoted.toList fault := by
  induction h with
  | byRef _ _ ih | enum _ _ ih => exact ih
  | @valueType text part h hpart =>
      rw [TextFault.quoted, String.toList_ofList]
      refine ⟨trim_trim text, ?_⟩
      have hmis := Misspelled.valueType ((trim_trim text).trans h) hpart
      rwa [trim_trim] at hmis
  | @unknown text hbyRef henum hvalueType hkeyword =>
      rw [TextFault.quoted, String.toList_ofList]
      refine ⟨trim_trim text, ?_⟩
      rw [← trim_trim text] at hbyRef henum hvalueType hkeyword
      have hmis := Misspelled.unknown hbyRef henum hvalueType hkeyword
      rwa [trim_trim] at hmis

theorem Misspelled.not_spelled (h : Misspelled text fault) : ¬k.Spelled text := fun hspelled => by
  cases h.ofChars_eq.symm.trans hspelled.ofChars_eq

/-! ## What a text that spells a kind is made of -/

namespace Spelled

theorem trim_ne_nil (h : k.Spelled text) : trim text ≠ [] := by
  intro hnil
  cases h with
  | @primitive p _ h => exact p.isWord_keyword.1 (h.symm.trans hnil)
  | byRef h | enum h | valueType h => cases h.symm.trans hnil

theorem ne_nil (h : k.Spelled text) : text ≠ [] := by
  rintro rfl
  exact h.trim_ne_nil rfl

theorem head?_ne (h : k.Spelled text) : text.head? ≠ some 't' := by
  intro hhead
  obtain ⟨rest, rfl⟩ := List.head?_eq_some_iff.mp hhead
  have htrim : (trim ('t' :: rest)).head? = some 't' := head?_trim (by decide) rest
  cases h with
  | @primitive p _ h => exact p.head?_keyword_ne (h ▸ htrim)
  | byRef h | enum h | valueType h =>
      rw [h] at htrim
      cases htrim

/-- The marks between the parts of a signature are in no kind. -/
theorem mark_notMem {c : Char} (hc : c = ',' ∨ c = '-') (h : k.Spelled text) : c ∉ text := by
  have hblank : isBlank c = false := by rcases hc with rfl | rfl <;> rfl
  have hbyRef : c ≠ '&' := by rcases hc with rfl | rfl <;> decide
  have henum : c ∉ "enum(".toList := by rcases hc with rfl | rfl <;> decide
  have hvalueType : c ∉ "vt(".toList := by rcases hc with rfl | rfl <;> decide
  have hclosing : c ∉ [')'] := by rcases hc with rfl | rfl <;> decide
  induction h with
  | @primitive p text h =>
      refine notMem_of_trim hblank fun hmem => ?_
      obtain ⟨-, hcomma, hdash⟩ := p.isWord_keyword.isPlain (h ▸ hmem)
      exact hc.elim hcomma hdash
  | byRef h hpart ih =>
      refine notMem_of_trim hblank ?_
      rw [h, List.mem_cons]
      exact not_or.mpr ⟨hbyRef, ih⟩
  | enum h hpart ih =>
      refine notMem_of_trim hblank ?_
      rw [h, List.mem_append, List.mem_append]
      exact not_or.mpr ⟨henum, not_or.mpr ⟨ih, hclosing⟩⟩
  | @valueType size text part h hpart =>
      have hsize : c ∉ part := notMem_of_trim hblank fun hmem => by
        rcases hpart.eq_plus_or_isDigit hmem with hplus | hdigit
        · rcases hc with rfl | rfl <;> cases hplus
        · rcases hc with rfl | rfl <;> cases hdigit
      refine notMem_of_trim hblank ?_
      rw [h, List.mem_append, List.mem_append]
      exact not_or.mpr ⟨hvalueType, not_or.mpr ⟨hsize, hclosing⟩⟩

/-- A text that spells a kind is one piece of a list. -/
theorem comma_notMem (h : k.Spelled text) : ',' ∉ text :=
  h.mark_notMem (.inl rfl)

theorem dash_notMem (h : k.Spelled text) : '-' ∉ text :=
  h.mark_notMem (.inr rfl)

theorem congr (h : k.Spelled text) (htrim : trim text' = trim text) : k.Spelled text' := by
  cases h with
  | primitive h => exact .primitive (htrim.trans h)
  | byRef h hpart => exact .byRef (htrim.trans h) hpart
  | enum h hpart => exact .enum (htrim.trans h) hpart
  | valueType h hpart => exact .valueType (htrim.trans h) hpart

/-- Spaces in front of a text that spells a kind are not needed. -/
theorem dropWhile (h : k.Spelled text) :
    k.Spelled (text.dropWhile Signature.separatesReceiver) := by
  have hblank : (text.takeWhile Signature.separatesReceiver).all isBlank = true := by
    refine List.all_eq_true.mpr fun c hc => ?_
    have hsep := List.mem_takeWhile_imp hc
    rw [Signature.separatesReceiver, Bool.or_eq_true, decide_eq_true_eq, decide_eq_true_eq] at hsep
    rcases hsep with rfl | rfl
    · rfl
    · exact absurd ((List.takeWhile_prefix _).subset hc) h.comma_notMem
  refine h.congr ?_
  conv => rhs; rw [← List.takeWhile_append_dropWhile (p := Signature.separatesReceiver) (l := text)]
  exact (trim_append_left hblank).symm

end Spelled

/-! ## Lists -/

/-- The texts of a comma-separated list spell kinds, one for one. -/
inductive Listed (kinds : List Kind) : List Char → Prop
  | intro {texts : List (List Char)} (h : List.Forall₂ Spelled kinds texts) :
      Listed kinds ([','].intercalate texts)

/-- A comma-separated list has a text that spells no kind, and the first one has this fault. -/
inductive FirstMisspelled (fault : TextFault) : List Char → Prop
  | intro {before after : List (List Char)} {text : List Char}
      (hcomma : ∀ other ∈ before ++ text :: after, ',' ∉ other)
      (hbefore : ∀ other ∈ before, ∃ k : Kind, k.Spelled other) (h : Misspelled text fault) :
      FirstMisspelled fault ([','].intercalate (before ++ text :: after))

variable {kinds : List Kind} {list : List Char} {texts : List (List Char)}

theorem mark_notMem_of_forall₂ {c : Char} (hc : c = ',' ∨ c = '-')
    (h : List.Forall₂ Spelled kinds texts) : ∀ text ∈ texts, c ∉ text := by
  induction h with
  | nil => exact List.forall_mem_nil _
  | cons htext _ ih => exact List.forall_mem_cons.mpr ⟨htext.mark_notMem hc, ih⟩

theorem Listed.kinds_eq_nil (h : Listed kinds []) : kinds = [] := by
  generalize hlist : ([] : List Char) = list at h
  obtain ⟨h⟩ := h
  cases h with
  | nil => rfl
  | @cons k text _ texts htext _ =>
      exact absurd hlist.symm (intercalate_ne_nil htext.ne_nil _ _)

theorem Listed.list_eq_nil (h : Listed [] list) : list = [] := by
  obtain ⟨h⟩ := h
  cases h
  rfl

theorem Listed.head?_ne (h : Listed kinds list) : list.head? ≠ some 't' := by
  obtain ⟨h⟩ := h
  cases h with
  | nil => nofun
  | @cons k text _ texts htext _ =>
      rw [head?_intercalate htext.ne_nil]
      exact htext.head?_ne

theorem Listed.dropWhile (h : Listed kinds list) :
    Listed kinds (list.dropWhile Signature.separatesReceiver) := by
  obtain ⟨h⟩ := h
  cases h with
  | nil => exact .intro .nil
  | @cons k text kinds texts htext htexts =>
      have hfirst := htext.dropWhile
      have hne : (text.dropWhile Signature.separatesReceiver).isEmpty = false :=
        List.isEmpty_eq_false_iff.mpr hfirst.ne_nil
      rw [intercalate_cons, List.dropWhile_append, if_neg (Bool.eq_false_iff.mp hne),
        append_intercalate, List.append_nil]
      exact .intro (.cons hfirst htexts)

theorem mapM_ofChars_eq_ok_iff :
    (pieces ',' list).mapM ofChars = .ok kinds ↔ kinds ≠ [] ∧ Listed kinds list := by
  rw [mapM_eq_ok_iff]
  constructor
  · intro h
    refine ⟨?_, ?_⟩
    · rintro rfl
      exact pieces_ne_nil ',' list (List.forall₂_nil_right_iff.mp h)
    · have hspelled : List.Forall₂ Spelled kinds (pieces ',' list) :=
        h.flip.imp fun _ _ => ofChars_eq_ok_iff.mp
      rw [← intercalate_pieces ',' list]
      exact .intro hspelled
  · rintro ⟨hne, @⟨texts, h⟩⟩
    have htexts : texts ≠ [] := by
      rintro rfl
      exact hne (List.forall₂_nil_right_iff.mp h)
    rw [(pieces_eq_iff htexts).mpr ⟨rfl, mark_notMem_of_forall₂ (.inl rfl) h⟩]
    exact h.flip.imp fun _ _ => Spelled.ofChars_eq

theorem mapM_ofChars_eq_error_iff :
    (pieces ',' list).mapM ofChars = .error fault ↔ FirstMisspelled fault list := by
  rw [mapM_eq_error_iff]
  constructor
  · rintro ⟨before, text, after, hpieces, hbefore, htext⟩
    obtain ⟨rfl, hcomma⟩ := (pieces_eq_iff (by simp)).mp hpieces
    refine .intro hcomma (fun other hother => ?_) (ofChars_eq_error_iff.mp htext)
    obtain ⟨k, hk⟩ := hbefore other hother
    exact ⟨k, ofChars_eq_ok_iff.mp hk⟩
  · rintro ⟨hcomma, hbefore, h⟩
    refine ⟨_, _, _, (pieces_eq_iff (by simp)).mpr ⟨rfl, hcomma⟩, fun other hother => ?_,
      h.ofChars_eq⟩
    obtain ⟨k, hk⟩ := hbefore other hother
    exact ⟨k, hk.ofChars_eq⟩

end Kind

end CallBridge

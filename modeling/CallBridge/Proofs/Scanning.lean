import CallBridge.Proofs.Text

/-!
# What is found in a text

What trimming, cutting, splitting and reading a number find in any text at all: trimming takes off
blanks and nothing else (`exists_trim`), a cut is made at the first mark (`cutAt?_eq_some_iff`), the
pieces are the texts between the separators (`pieces_eq_iff`), and a number is read from its
numerals alone (`unsigned?_eq_some_iff`).
-/

namespace CallBridge.Text

variable {text left right mark : List Char} {c : Char}

/-! ## Trimming -/

theorem exists_trimEnd (text : List Char) :
    ∃ right, right.all isBlank = true ∧ text = trimEnd text ++ right := by
  refine ⟨(text.reverse.takeWhile isBlank).reverse, ?_, ?_⟩
  · rw [List.all_reverse]
    exact List.all_takeWhile
  · rw [trimEnd, trimStart, ← List.reverse_append, List.takeWhile_append_dropWhile,
      List.reverse_reverse]

/-- Trimming takes off the blanks around a text. -/
theorem exists_trim (text : List Char) : ∃ left right, left.all isBlank = true ∧
    right.all isBlank = true ∧ text = left ++ (trim text ++ right) := by
  obtain ⟨right, hright, htext⟩ := exists_trimEnd (trimStart text)
  refine ⟨text.takeWhile isBlank, right, List.all_takeWhile, hright, ?_⟩
  rw [trim, ← htext, trimStart, List.takeWhile_append_dropWhile]

theorem trim_trim (text : List Char) : trim (trim text) = trim text := by
  obtain ⟨left, right, hleft, hright, htext⟩ := exists_trim text
  conv => rhs; rw [htext, trim_append_left hleft, trim_append_right hright]

theorem trim_eq_nil_iff : trim text = [] ↔ text.all isBlank = true := by
  constructor
  · intro h
    obtain ⟨left, right, hleft, hright, htext⟩ := exists_trim text
    rw [htext, h, List.nil_append, List.all_append, hleft, hright]
    rfl
  · intro h
    have hnil : trim (text ++ []) = trim [] := trim_append_left h
    rwa [List.append_nil] at hnil

/-- A trimmed text does not end with blanks. -/
theorem eq_nil_of_trim_append (h : trim (left ++ right) = left ++ right)
    (hright : trim right = []) :
    right = [] := by
  have hle := length_trim_le left
  rw [← trim_append_right (trim_eq_nil_iff.mp hright), h, List.length_append] at hle
  exact List.eq_nil_of_length_eq_zero (by omega)

/-- Trimming leaves a first character that is no blank. -/
theorem head?_trim (hc : isBlank c = false) (text : List Char) :
    (trim (c :: text)).head? = some c := by
  obtain ⟨right, hright, htext⟩ := exists_trimEnd (c :: text)
  have htrim : trim (c :: text) = trimEnd (c :: text) := by
    rw [trim, trimStart, List.dropWhile_cons_of_neg (by simp [hc])]
  rw [htrim]
  cases hend : trimEnd (c :: text) with
  | nil =>
      rw [hend, List.nil_append] at htext
      rw [← htext, List.all_cons, hc] at hright
      cases hright
  | cons d rest =>
      rw [hend] at htext
      rw [List.head?_cons, (List.cons.inj htext).1]

/-- What is no blank and not in a trimmed text is not in the text. -/
theorem notMem_of_trim (hc : isBlank c = false) (h : c ∉ trim text) : c ∉ text := by
  obtain ⟨left, right, hleft, hright, htext⟩ := exists_trim text
  have hblanks : ∀ {blanks : List Char}, blanks.all isBlank = true → c ∉ blanks := by
    intro blanks hall hmem
    rw [List.all_eq_true.mp hall c hmem] at hc
    cases hc
  rw [htext, List.mem_append, List.mem_append, not_or, not_or]
  exact ⟨hblanks hleft, h, hblanks hright⟩

theorem eq_false_of_mem_head?_dropWhile {p : Char → Bool} (h : c ∈ (text.dropWhile p).head?) :
    p c = false := by
  have hhead := List.head?_dropWhile_not p text
  rwa [Option.mem_def.mp h] at hhead

/-! ## The first mark -/

/-- A text is cut where a mark stands for the first time. -/
structure FirstCut (mark text left right : List Char) : Prop where
  eq : text = left ++ (mark ++ right)
  first : ∀ left' right', text = left' ++ (mark ++ right') → left.length ≤ left'.length

theorem cutAt?_of_after? {rest : List Char} (h : after? mark text = some rest) :
    cutAt? mark text = some ([], rest) := by
  rw [cutAt?.eq_def, h]

theorem cutAt?_cons (h : after? mark (c :: text) = none) :
    cutAt? mark (c :: text) = (cutAt? mark text).map fun cut => (c :: cut.1, cut.2) := by
  rw [cutAt?.eq_def, h]

theorem firstCut_of_after? {rest : List Char} (hafter : after? mark text = some rest)
    (h : cutAt? mark text = some (left, right)) : FirstCut mark text left right := by
  obtain ⟨rfl, rfl⟩ := Prod.mk.inj (Option.some.inj ((cutAt?_of_after? hafter).symm.trans h))
  have htext := after?_eq_some_iff.mp hafter
  exact ⟨htext, fun _ _ _ => Nat.zero_le _⟩

theorem firstCut_of_cutAt? (h : cutAt? mark text = some (left, right)) :
    FirstCut mark text left right := by
  induction text generalizing left with
  | nil =>
      cases hafter : after? mark [] with
      | some rest => exact firstCut_of_after? hafter h
      | none =>
          rw [cutAt?.eq_def, hafter] at h
          cases h
  | cons c text ih =>
      cases hafter : after? mark (c :: text) with
      | some rest => exact firstCut_of_after? hafter h
      | none =>
          rw [cutAt?_cons hafter] at h
          obtain ⟨⟨left', right'⟩, hcut, heq⟩ := Option.map_eq_some_iff.mp h
          obtain ⟨rfl, rfl⟩ := Prod.mk.inj heq
          obtain ⟨rfl, hfirst⟩ := ih hcut
          refine ⟨rfl, ?_⟩
          rintro (_ | ⟨d, other⟩) rest heq
          · cases hafter.symm.trans (after?_eq_some_iff.mpr heq)
          · exact Nat.succ_le_succ (hfirst other rest (List.cons.inj heq).2)

theorem cutAt?_ne_none (left right : List Char) : cutAt? mark (left ++ (mark ++ right)) ≠ none := by
  intro h
  induction left with
  | nil =>
      have hafter : after? mark ([] ++ (mark ++ right)) = some right := after?_eq_some_iff.mpr rfl
      cases (cutAt?_of_after? hafter).symm.trans h
  | cons c left ih =>
      rw [List.cons_append] at h
      cases hafter : after? mark (c :: (left ++ (mark ++ right))) with
      | some rest => cases (cutAt?_of_after? hafter).symm.trans h
      | none =>
          rw [cutAt?_cons hafter, Option.map_eq_none_iff] at h
          exact ih h

theorem FirstCut.eq_and_eq {left' right' : List Char} (h : FirstCut mark text left right)
    (h' : FirstCut mark text left' right') : left = left' ∧ right = right' := by
  have hlength : left.length = left'.length :=
    Nat.le_antisymm (h.first _ _ h'.eq) (h'.first _ _ h.eq)
  obtain ⟨hleft, hrest⟩ := List.append_inj (h.eq.symm.trans h'.eq) hlength
  exact ⟨hleft, List.append_cancel_left hrest⟩

theorem cutAt?_eq_some_iff :
    cutAt? mark text = some (left, right) ↔ FirstCut mark text left right := by
  refine ⟨firstCut_of_cutAt?, fun h => ?_⟩
  cases hcut : cutAt? mark text with
  | none => exact absurd (h.eq ▸ hcut) (cutAt?_ne_none left right)
  | some cut =>
      obtain ⟨hleft, hright⟩ := (firstCut_of_cutAt? hcut).eq_and_eq h
      rw [← hleft, ← hright]

theorem cutAt?_eq_none_iff :
    cutAt? mark text = none ↔ ∀ left right, text ≠ left ++ (mark ++ right) := by
  constructor
  · rintro h left right rfl
    exact cutAt?_ne_none left right h
  · intro h
    refine Option.eq_none_iff_forall_not_mem.mpr ?_
    rintro ⟨left, right⟩ hcut
    exact h left right (firstCut_of_cutAt? hcut).eq

/-! ## Pieces -/

section

variable {separator : Char} {parts : List (List Char)}

theorem intercalate_pieces (separator : Char) (text : List Char) :
    [separator].intercalate (pieces separator text) = text := by
  rw [pieces_eq_splitOn, List.intercalate_splitOn]

theorem notMem_of_mem_pieces {piece : List Char} (h : piece ∈ pieces separator text) :
    separator ∉ piece := by
  induction text generalizing piece with
  | nil =>
      rw [List.mem_singleton.mp h]
      exact List.not_mem_nil
  | cons c text ih =>
      rw [pieces_eq_splitOn, List.splitOn_cons_eq_if_modifyHead, ← pieces_eq_splitOn] at h
      split at h
      · rcases List.mem_cons.mp h with rfl | h
        · exact List.not_mem_nil
        · exact ih h
      · rename_i hc
        cases hpieces : pieces separator text with
        | nil => exact absurd hpieces (pieces_ne_nil separator text)
        | cons first rest =>
            rw [hpieces] at h ih
            rcases List.mem_cons.mp h with rfl | h
            · refine fun hmem => (List.mem_cons.mp hmem).elim ?_ (ih List.mem_cons_self)
              exact fun heq => hc (by rw [heq, beq_self_eq_true])
            · exact ih (List.mem_cons_of_mem first h)

theorem pieces_eq_iff (hne : parts ≠ []) : pieces separator text = parts ↔
    text = [separator].intercalate parts ∧ ∀ part ∈ parts, separator ∉ part := by
  constructor
  · rintro rfl
    exact ⟨(intercalate_pieces separator text).symm, fun _ => notMem_of_mem_pieces⟩
  · rintro ⟨rfl, hparts⟩
    cases parts with
    | nil => exact absurd rfl hne
    | cons part parts =>
        rw [pieces_intercalate List.not_mem_nil hparts]
        simp only [List.nil_append, List.map_id']

end

/-! ## Numbers -/

/-- A decimal numeral of a 32-bit number: digits, with a plus sign in front of them or not. -/
inductive Numeral (size : BitVec 32) : List Char → Prop
  | intro {sign digits : List Char} (hsign : sign = [] ∨ sign = ['+']) (hdigits : digits ≠ [])
      (hall : digits.all Char.isDigit = true)
      (hvalue : Nat.ofDigitChars 10 digits 0 = size.toNat) : Numeral size (sign ++ digits)

theorem Numeral.eq_plus_or_isDigit {size : BitVec 32} (h : Numeral size text) (hc : c ∈ text) :
    c = '+' ∨ c.isDigit = true := by
  obtain ⟨hsign, -, hall, -⟩ := h
  rcases List.mem_append.mp hc with hc | hc
  · rcases hsign with rfl | rfl
    · exact absurd hc List.not_mem_nil
    · exact .inl (List.mem_singleton.mp hc)
  · exact .inr (List.all_eq_true.mp hall c hc)

theorem bind_decimal?_eq_some_iff {digits : List Char} {size : BitVec 32} :
    ((decimal? digits).bind fun value =>
      if value ≤ 0xffffffff then some (BitVec.ofNat 32 value) else none) = some size ↔
      digits ≠ [] ∧ digits.all Char.isDigit = true ∧
        Nat.ofDigitChars 10 digits 0 = size.toNat := by
  have hfits (value : Nat) :
      (if value ≤ 0xffffffff then some (BitVec.ofNat 32 value) else none) = some size ↔
        value = size.toNat := by
    have hsize := size.isLt
    split
    · rw [Option.some.injEq, ← BitVec.toNat_inj, BitVec.toNat_ofNat]
      omega
    · simp only [reduceCtorEq, false_iff]
      omega
  rw [decimal?]
  split
  · rename_i hdigits
    rw [Option.bind_some, hfits]
    tauto
  · rename_i hdigits
    simp only [Option.bind_none, reduceCtorEq, false_iff]
    tauto

theorem unsigned?_eq_some_iff {size : BitVec 32} :
    unsigned? text = some size ↔ Numeral size text := by
  unfold unsigned?
  constructor
  · intro h
    cases hplus : after? ['+'] text with
    | some digits =>
        rw [hplus] at h
        obtain ⟨hne, hall, hvalue⟩ := bind_decimal?_eq_some_iff.mp h
        rw [after?_eq_some_iff.mp hplus]
        exact .intro (.inr rfl) hne hall hvalue
    | none =>
        rw [hplus] at h
        obtain ⟨hne, hall, hvalue⟩ := bind_decimal?_eq_some_iff.mp h
        exact .intro (.inl rfl) hne hall hvalue
  · rintro ⟨rfl | rfl, hne, hall, hvalue⟩
    · rename_i digits
      have hplus : after? ['+'] digits = none :=
        after?_eq_none_of_head fun c hc => by
          rintro rfl
          exact absurd (List.all_eq_true.mp hall _ (List.mem_of_mem_head? hc)) (by decide)
      rw [List.nil_append, hplus]
      exact bind_decimal?_eq_some_iff.mpr ⟨hne, hall, hvalue⟩
    · rename_i digits
      have hplus : after? ['+'] (['+'] ++ digits) = some digits := after?_eq_some_iff.mpr rfl
      rw [hplus]
      exact bind_decimal?_eq_some_iff.mpr ⟨hne, hall, hvalue⟩

end CallBridge.Text

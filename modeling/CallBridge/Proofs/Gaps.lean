import CallBridge.Proofs.Scanning

/-!
# Gaps

A gap is a run of spaces. Squeezing makes every gap one space wide and touches nothing else: it
works on the two sides of any other character apart (`squeeze_append_cons`), and what stands around
such a character in a squeezed text has been squeezed on its own (`exists_of_squeeze_append_cons`).
So two texts that are the same when squeezed can be taken apart side by side. Joining the words of a
text squeezes it, but for the blanks around it (`trim_intercalate_words`).
-/

namespace CallBridge.Text

/-- The text with one space in place of each run of spaces. -/
def squeeze : List Char → List Char
  | [] => []
  | c :: text => if c = ' ' ∧ text.head? = some ' ' then squeeze text else c :: squeeze text

/-- The texts between runs of spaces. -/
def words (text : List Char) : List (List Char) :=
  (pieces ' ' text).filter (· ≠ [])

variable {text left right : List Char} {c d : Char}

/-! ## Squeezing -/

theorem squeeze_cons_of_ne (hc : c ≠ ' ') (text : List Char) :
    squeeze (c :: text) = c :: squeeze text :=
  if_neg fun h => hc h.1

/-- No run of spaces goes past another character. -/
theorem squeeze_append_cons (hc : c ≠ ' ') (left right : List Char) :
    squeeze (left ++ c :: right) = squeeze left ++ c :: squeeze right := by
  induction left with
  | nil => exact squeeze_cons_of_ne hc right
  | cons d left ih =>
      have hhead : (left ++ c :: right).head? = some ' ' ↔ left.head? = some ' ' := by
        cases left <;> simp [hc]
      rw [List.cons_append, squeeze, squeeze, ih]
      simp only [hhead]
      split <;> rfl

theorem squeeze_append_of_head (h : ∀ c ∈ right.head?, c ≠ ' ') :
    squeeze (left ++ right) = squeeze left ++ squeeze right := by
  cases right with
  | nil => simp [squeeze]
  | cons c right => rw [squeeze_append_cons (h c rfl), squeeze_cons_of_ne (h c rfl)]

theorem squeeze_append_of_getLast (h : ∀ c ∈ left.getLast?, c ≠ ' ') :
    squeeze (left ++ right) = squeeze left ++ squeeze right := by
  rcases List.eq_nil_or_concat' left with rfl | ⟨left, c, rfl⟩
  · rfl
  · have hc : c ≠ ' ' := h c (by simp)
    rw [List.append_assoc, List.singleton_append, squeeze_append_cons hc, squeeze_append_cons hc,
      List.append_assoc]
    rfl

theorem squeeze_eq_self (h : ' ' ∉ text) : squeeze text = text := by
  induction text with
  | nil => rfl
  | cons c text ih =>
      obtain ⟨hc, htext⟩ := not_or.mp (mt List.mem_cons.mpr h)
      rw [squeeze_cons_of_ne (Ne.symm hc), ih htext]

theorem squeeze_append_left (h : ' ' ∉ left) (right : List Char) :
    squeeze (left ++ right) = left ++ squeeze right := by
  have hlast : ∀ c ∈ left.getLast?, c ≠ ' ' := by
    rintro c hc rfl
    exact h (List.mem_of_mem_getLast? hc)
  rw [squeeze_append_of_getLast hlast, squeeze_eq_self h]

/-- Squeezing leaves no character out altogether. -/
theorem mem_squeeze : c ∈ squeeze text ↔ c ∈ text := by
  induction text with
  | nil => rfl
  | cons d text ih =>
      rw [squeeze]
      split
      · rename_i h
        rw [ih, List.mem_cons, h.1]
        refine ⟨.inr, ?_⟩
        rintro (rfl | hmem)
        · exact List.mem_of_mem_head? h.2
        · exact hmem
      · rw [List.mem_cons, List.mem_cons, ih]

theorem all_squeeze {p : Char → Bool} : (squeeze text).all p = text.all p := by
  rw [Bool.eq_iff_iff, List.all_eq_true, List.all_eq_true]
  simp only [mem_squeeze]

theorem head?_squeeze (text : List Char) : (squeeze text).head? = text.head? := by
  induction text with
  | nil => rfl
  | cons c text ih =>
      rw [squeeze]
      split
      · rename_i h
        rw [ih, h.2, h.1, List.head?_cons]
      · rfl

theorem getLast?_squeeze (text : List Char) : (squeeze text).getLast? = text.getLast? := by
  induction text with
  | nil => rfl
  | cons c text ih =>
      rw [squeeze]
      split
      · rename_i h
        rw [ih, List.getLast?_cons, h.1]
        cases text with
        | nil => cases h.2
        | cons d text => rfl
      · rw [List.getLast?_cons, List.getLast?_cons, ih]

theorem squeeze_eq_nil_iff : squeeze text = [] ↔ text = [] := by
  rw [← List.head?_eq_none_iff, head?_squeeze, List.head?_eq_none_iff]

theorem head?_trim_ne_blank (h : c ∈ (trim text).head?) : isBlank c = false := by
  obtain ⟨right, -, htext⟩ := exists_trimEnd (trimStart text)
  have hhead : c ∈ (trimStart text).head? := by
    rw [htext]
    exact List.mem_head?_append_of_mem_head? h
  exact eq_false_of_mem_head?_dropWhile hhead

theorem getLast?_trim_ne_blank (h : c ∈ (trim text).getLast?) : isBlank c = false := by
  rw [trim, trimEnd, List.getLast?_reverse] at h
  exact eq_false_of_mem_head?_dropWhile h

theorem ne_space_of_not_blank (h : isBlank c = false) : c ≠ ' ' := by
  rintro rfl
  cases h

/-- Squeezing a text leaves blanks around it that trimming takes off. -/
theorem trim_squeeze (text : List Char) : trim (squeeze text) = squeeze (trim text) := by
  obtain ⟨left, right, hleft, hright, htext⟩ := exists_trim text
  by_cases hnil : trim text = []
  · rw [hnil]
    exact trim_eq_nil_iff.mpr (all_squeeze.trans (trim_eq_nil_iff.mp hnil))
  · have hhead : ∀ c ∈ (trim text ++ right).head?, c ≠ ' ' := fun c hc =>
      ne_space_of_not_blank (head?_trim_ne_blank (List.head?_append_of_ne_nil _ hnil ▸ hc))
    have hlast : ∀ c ∈ (trim text).getLast?, c ≠ ' ' := fun c hc =>
      ne_space_of_not_blank (getLast?_trim_ne_blank hc)
    have hsqueezed : squeeze text = squeeze left ++ (squeeze (trim text) ++ squeeze right) := by
      conv => lhs; rw [htext, squeeze_append_of_head hhead, squeeze_append_of_getLast hlast]
    rw [hsqueezed, trim_append_left (all_squeeze.trans hleft),
      trim_append_right (all_squeeze.trans hright)]
    exact trim_eq_self (fun c hc => head?_trim_ne_blank (head?_squeeze (trim text) ▸ hc))
      fun c hc => getLast?_trim_ne_blank (getLast?_squeeze (trim text) ▸ hc)

theorem squeeze_trim_congr {text' : List Char} (h : squeeze text' = squeeze text) :
    squeeze (trim text') = squeeze (trim text) := by
  rw [← trim_squeeze, h, trim_squeeze]

theorem squeeze_squeeze (text : List Char) : squeeze (squeeze text) = squeeze text := by
  induction text with
  | nil => rfl
  | cons c text ih =>
      by_cases h : c = ' ' ∧ text.head? = some ' '
      · rw [squeeze, if_pos h, ih]
      · rw [squeeze, if_neg h, squeeze, head?_squeeze, if_neg h, ih]

/-! ## What was squeezed -/

/-- Any other character than a space is found again where it was. -/
theorem exists_of_squeeze_append_cons (hc : c ≠ ' ') (h : squeeze text = left ++ c :: right) :
    ∃ left' right', text = left' ++ c :: right' ∧ squeeze left' = left ∧
      squeeze right' = right := by
  induction text generalizing left with
  | nil => cases left <;> cases h
  | cons d text ih =>
      by_cases hdouble : d = ' ' ∧ text.head? = some ' '
      · rw [squeeze, if_pos hdouble] at h
        obtain ⟨left', right', rfl, hleft, hright⟩ := ih h
        refine ⟨d :: left', right', rfl, ?_, hright⟩
        have hhead : left'.head? = some ' ' := by
          cases left' with
          | nil => exact absurd (Option.some.inj hdouble.2) hc
          | cons e left' => exact hdouble.2
        rw [squeeze, if_pos ⟨hdouble.1, hhead⟩, hleft]
      · rw [squeeze, if_neg hdouble] at h
        cases left with
        | nil =>
            obtain ⟨rfl, rfl⟩ := List.cons.inj h
            exact ⟨[], text, rfl, rfl, rfl⟩
        | cons e left =>
            obtain ⟨rfl, hrest⟩ := List.cons.inj h
            obtain ⟨left', right', rfl, hleft, hright⟩ := ih hrest
            refine ⟨d :: left', right', rfl, ?_, hright⟩
            rw [squeeze, if_neg, hleft]
            rintro ⟨hd, hhead⟩
            exact hdouble ⟨hd, by rw [List.head?_append, hhead]; rfl⟩

theorem exists_of_squeeze_append_left (hleft : ' ' ∉ left) (h : squeeze text = left ++ right) :
    ∃ right', text = left ++ right' ∧ squeeze right' = right := by
  induction left generalizing text with
  | nil => exact ⟨text, rfl, h⟩
  | cons c left ih =>
      obtain ⟨hc, hleft⟩ := not_or.mp (mt List.mem_cons.mpr hleft)
      rw [← List.nil_append (c :: left ++ right)] at h
      obtain ⟨none, rest, rfl, hnone, hrest⟩ := exists_of_squeeze_append_cons (Ne.symm hc) h
      obtain rfl := squeeze_eq_nil_iff.mp hnone
      obtain ⟨right', rfl, hright⟩ := ih hleft hrest
      exact ⟨right', rfl, hright⟩

theorem eq_of_squeeze_eq {text' : List Char} (htext : ' ' ∉ text)
    (h : squeeze text' = squeeze text) :
    text' = text := by
  rw [squeeze_eq_self htext, ← List.append_nil text] at h
  obtain ⟨none, rfl, hnone⟩ := exists_of_squeeze_append_left htext h
  rw [squeeze_eq_nil_iff.mp hnone, List.append_nil]

theorem exists_of_squeeze_between {opening part : List Char} (hopening : ' ' ∉ opening)
    (hc : c ≠ ' ') (h : squeeze text = squeeze (opening ++ (part ++ [c]))) :
    ∃ part', text = opening ++ (part' ++ [c]) ∧ squeeze part' = squeeze part := by
  rw [squeeze_append_left hopening, squeeze_append_cons hc] at h
  obtain ⟨rest, rfl, hrest⟩ := exists_of_squeeze_append_left hopening h
  obtain ⟨part', none, rfl, hpart, hnone⟩ := exists_of_squeeze_append_cons hc hrest
  obtain rfl := squeeze_eq_nil_iff.mp hnone
  exact ⟨part', rfl, hpart⟩

theorem exists_of_squeeze_append (hright : ∀ c ∈ right.head?, c ≠ ' ')
    (h : squeeze text = squeeze (left ++ right)) : ∃ left' right', text = left' ++ right' ∧
      squeeze left' = squeeze left ∧ squeeze right' = squeeze right := by
  cases right with
  | nil => exact ⟨text, [], (List.append_nil text).symm, by rw [h, List.append_nil], rfl⟩
  | cons c right =>
      have hc : c ≠ ' ' := hright c rfl
      rw [squeeze_append_cons hc] at h
      obtain ⟨left', right', rfl, hleft, hright⟩ := exists_of_squeeze_append_cons hc h
      exact ⟨left', c :: right', rfl, hleft, by
        rw [squeeze_cons_of_ne hc, squeeze_cons_of_ne hc, hright]⟩

/-! ## Blanks at one end -/

theorem trimStart_append_of_head (h : ∀ c ∈ right.head?, isBlank c = false) :
    trimStart (left ++ right) = trimStart left ++ right := by
  rw [trimStart, List.dropWhile_append, dropWhile_eq_self h]
  split
  · rename_i hempty
    rw [trimStart, List.isEmpty_iff.mp hempty, List.nil_append]
  · rfl

theorem trimEnd_append_of_getLast (h : ∀ c ∈ left.getLast?, isBlank c = false) :
    trimEnd (left ++ right) = left ++ trimEnd right := by
  rw [← List.head?_reverse] at h
  rw [trimEnd, List.reverse_append, trimStart_append_of_head h, List.reverse_append,
    List.reverse_reverse, trimEnd]

theorem trim_trimStart (text : List Char) : trim (trimStart text) = trim text := by
  have hblank : (text.takeWhile isBlank).all isBlank = true := List.all_takeWhile
  conv => rhs; rw [← List.takeWhile_append_dropWhile (p := isBlank) (l := text)]
  exact (trim_append_left hblank).symm

theorem trim_trimEnd (text : List Char) : trim (trimEnd text) = trim text := by
  obtain ⟨right, hright, htext⟩ := exists_trimEnd text
  conv => rhs; rw [htext, trim_append_right hright]

/-! ## Words -/

theorem words_cons_space (text : List Char) : words (' ' :: text) = words text := by
  rw [words, pieces, if_pos rfl, List.filter_cons_of_neg (by simp), words]

/-- A character with a gap behind it is a word. -/
theorem words_cons_of_gap (hc : c ≠ ' ') (h : ∀ d ∈ text.head?, d = ' ') :
    words (c :: text) = [c] :: words text := by
  cases text with
  | nil => simp [words, pieces, hc]
  | cons d text =>
      obtain rfl : d = ' ' := h d rfl
      rw [words_cons_space, words, pieces, if_neg hc, pieces, if_pos rfl]
      exact List.filter_cons_of_pos (by simp)

/-- Any other character belongs to the word behind it. -/
theorem words_cons_of_ne (hc : c ≠ ' ') (hd : d ≠ ' ') (text : List Char) : ∃ word rest,
    words (d :: text) = word :: rest ∧ words (c :: d :: text) = (c :: word) :: rest := by
  obtain ⟨piece, rest, hpieces⟩ := List.exists_cons_of_ne_nil (pieces_ne_nil ' ' text)
  have hnext : pieces ' ' (d :: text) = (d :: piece) :: rest := by
    rw [pieces, if_neg hd, hpieces]
  refine ⟨d :: piece, rest.filter (· ≠ []), ?_, ?_⟩
  · rw [words, hnext, List.filter_cons_of_pos (by simp)]
  · rw [words, pieces, if_neg hc, hnext]
    exact List.filter_cons_of_pos (by simp)

/-- A squeezed text is its words with one space between them, and perhaps one at either end. -/
theorem squeeze_eq (text : List Char) : ∃ right, right.all isBlank = true ∧
    squeeze text = (if text.head? = some ' ' then [' '] else []) ++
      ([' '].intercalate (words text) ++ right) := by
  induction text with
  | nil => exact ⟨[], rfl, rfl⟩
  | cons c text ih =>
      obtain ⟨right, hright, hsqueeze⟩ := ih
      by_cases hc : c = ' '
      · subst hc
        refine ⟨right, hright, ?_⟩
        rw [words_cons_space, List.head?_cons, if_pos rfl, squeeze]
        split
        · rename_i h
          rw [hsqueeze, if_pos h.2]
        · rename_i h
          rw [hsqueeze, if_neg fun hhead => h ⟨rfl, hhead⟩]
          rfl
      · have hhead : ¬(c :: text).head? = some ' ' := by simpa using hc
        rw [squeeze_cons_of_ne hc, hsqueeze, if_neg hhead]
        cases text with
        | nil => exact ⟨right, hright, by simp [words, pieces, hc]⟩
        | cons d text =>
            by_cases hd : d = ' '
            · subst hd
              rw [words_cons_of_gap hc (by simp), if_pos List.head?_cons]
              cases words (' ' :: text) with
              | nil => exact ⟨' ' :: right, by simpa [isBlank, blanks] using hright, rfl⟩
              | cons word rest => exact ⟨right, hright, by simp [List.intercalate_cons_cons]⟩
            · obtain ⟨word, rest, hwords, hwords'⟩ := words_cons_of_ne hc hd text
              have hnext : ¬(d :: text).head? = some ' ' := by simpa using hd
              rw [hwords, hwords', if_neg hnext]
              refine ⟨right, hright, ?_⟩
              rw [intercalate_cons, intercalate_cons [' '] (c :: word)]
              rfl

/-- Joining its words squeezes a text, but for the blanks around it. -/
theorem trim_intercalate_words (text : List Char) :
    trim ([' '].intercalate (words text)) = trim (squeeze text) := by
  obtain ⟨right, hright, hsqueeze⟩ := squeeze_eq text
  have hleft : (if text.head? = some ' ' then [' '] else []).all isBlank = true := by
    split <;> rfl
  rw [hsqueeze, trim_append_left hleft, trim_append_right hright]

theorem exists_mem_words (hc : c ≠ ' ') (h : c ∈ text) : ∃ word ∈ words text, c ∈ word := by
  rw [← intercalate_pieces ' ' text] at h
  rcases mem_intercalate h with h | ⟨piece, hpiece, h⟩
  · exact absurd (List.mem_singleton.mp h) hc
  · refine ⟨piece, List.mem_filter.mpr ⟨hpiece, decide_eq_true ?_⟩, h⟩
    rintro rfl
    cases h

theorem sublist_of_mem_words {word : List Char} (h : word ∈ words text) : word.Sublist text := by
  have hpiece : word ∈ pieces ' ' text := (List.mem_filter.mp h).1
  have hsub : word.Sublist ([' '].intercalate (pieces ' ' text)) := sublist_intercalate hpiece
  rwa [intercalate_pieces] at hsub

end CallBridge.Text

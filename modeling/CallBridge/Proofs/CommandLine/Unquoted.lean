import CallBridge.Proofs.CommandLine.Outcomes
import CallBridge.Proofs.Grammar.Spacing

/-!
# Unquoted signatures

A signature may be given as one argument or word by word. The program joins the words by single
spaces, and gaps make no difference to what is read. That the words get there at all is because a
text that spells a signature has one dash at most: every flag, and the separator, has two
(`Ordinary.of_count`).
-/

namespace CallBridge

namespace CommandLine

/-- The argument is neither a flag nor the separator, so it is a word of the signature wherever it
stands. -/
def Ordinary (arg : String) : Prop :=
  arg ≠ separator ∧ ∀ flag : Flag, arg ≠ flag.name

/-- The words of a text as arguments. -/
def wordsOf (text : String) : List String :=
  (Text.words text.toList).map String.ofList

variable {text : String} {sig : Signature} {words words' : List String}

theorem Ordinary.of_count {arg : String} (h : arg.toList.count '-' ≤ 1) : Ordinary arg := by
  constructor
  · rintro rfl
    exact absurd h (by decide)
  · rintro flag rfl
    cases flag <;> exact absurd h (by decide)

theorem ordinary_of_ofText (h : Signature.ofText text = .ok sig) : Ordinary text :=
  .of_count (Signature.ofChars_eq_ok_iff.mp h).count_dash_le

theorem ordinary_of_mem_wordsOf (h : Signature.ofText text = .ok sig) {word : String}
    (hword : word ∈ wordsOf text) : Ordinary word := by
  obtain ⟨chars, hchars, rfl⟩ := List.mem_map.mp hword
  refine .of_count ?_
  rw [String.toList_ofList]
  exact ((Text.sublist_of_mem_words hchars).count_le '-').trans
    (Signature.ofChars_eq_ok_iff.mp h).count_dash_le

theorem toList_intercalate_wordsOf (text : String) :
    (" ".intercalate (wordsOf text)).toList = [' '].intercalate (Text.words text.toList) := by
  rw [String.toList_intercalate, wordsOf, List.map_map]
  congr 1
  simp

theorem ofText_wordsOf_iff :
    Signature.ofText (" ".intercalate (wordsOf text)) = .ok sig ↔
      Signature.ofText text = .ok sig := by
  rw [Signature.ofText, Signature.ofText, Signature.ofChars_eq_ok_iff,
    Signature.ofChars_eq_ok_iff, toList_intercalate_wordsOf, Signature.spelled_words_iff]

theorem ofText_squeeze_iff :
    Signature.ofText (String.ofList (Text.squeeze text.toList)) = .ok sig ↔
      Signature.ofText text = .ok sig := by
  rw [Signature.ofText, Signature.ofText, Signature.ofChars_eq_ok_iff,
    Signature.ofChars_eq_ok_iff, String.toList_ofList, Signature.spelled_squeeze_iff]

/-! ## Flags in front of words -/

theorem divided_flags_words (flags : List Flag) (h : ∀ word ∈ words, Ordinary word) :
    Divided (flags.map Flag.name ++ words) (flags.map Flag.name ++ words) [] := by
  refine .whole fun hmem => ?_
  rcases List.mem_append.mp hmem with hmem | hmem
  · obtain ⟨flag, -, hflag⟩ := List.mem_map.mp hmem
    exact flag.name_ne_separator hflag
  · exact (h separator hmem).1 rfl

theorem plain_flags_words (flags : List Flag) (h : ∀ word ∈ words, Ordinary word) :
    plain (flags.map Flag.name ++ words) = words := by
  have hwords : plain words = words := by
    refine List.filter_eq_self.mpr fun word hword => decide_eq_true fun hmem => ?_
    obtain ⟨flag, -, hflag⟩ := List.mem_map.mp hmem
    exact (h word hword).2 flag hflag.symm
  induction flags with
  | nil => exact hwords
  | cons flag flags ih => rw [List.map_cons, List.cons_append, plain_cons_name, ih]

theorem name_mem_flags_words (flag : Flag) (flags : List Flag) (h : ∀ word ∈ words, Ordinary word) :
    flag.name ∈ flags.map Flag.name ++ words ↔ flag.name ∈ flags.map Flag.name := by
  rw [List.mem_append]
  exact or_iff_left fun hmem => (h flag.name hmem).2 flag rfl

/-- After the same flags, words count only by what they are read as together. -/
theorem run_words_congr (host : Host) (flags : List Flag) (h : ∀ word ∈ words, Ordinary word)
    (h' : ∀ word ∈ words', Ordinary word) (hne : words ≠ []) (hne' : words' ≠ [])
    (hread : Signature.ofText (" ".intercalate words) = Signature.ofText (" ".intercalate words')) :
    run host (flags.map Flag.name ++ words) = run host (flags.map Flag.name ++ words') := by
  have hdivided := divided_flags_words flags h
  have hdivided' := divided_flags_words flags h'
  have hperform : perform host (Options.ofArgs (flags.map Flag.name ++ words)) =
      perform host (Options.ofArgs (flags.map Flag.name ++ words')) := by
    refine perform_congr host (fun flag => ?_) ?_
    · rw [Bool.eq_iff_iff, hdivided.has_iff, hdivided'.has_iff, name_mem_flags_words flag flags h,
        name_mem_flags_words flag flags h']
    · rw [hdivided.text_eq, hdivided'.text_eq, textOf, textOf, plain_flags_words flags h,
        plain_flags_words flags h', List.append_nil, List.append_nil, hread]
  rw [run, run, hperform, if_neg (List.append_ne_nil_of_right_ne_nil _ hne),
    if_neg (List.append_ne_nil_of_right_ne_nil _ hne')]

/-- A signature means the same unquoted. Making its gaps single spaces, or joining its words by
them, changes nothing in what a text is read as. None of the words of a text that is accepted is a
flag or the separator. So on any host and after any flags the words as separate arguments come to
what the whole text comes to as one. -/
theorem unquoted_means_same :
    (∀ (text : String) (sig : Signature),
      (Signature.ofText (String.ofList (Text.squeeze text.toList)) = .ok sig ↔
        Signature.ofText text = .ok sig) ∧
      (Signature.ofText (" ".intercalate (wordsOf text)) = .ok sig ↔
        Signature.ofText text = .ok sig)) ∧
    ∀ (text : String) (sig : Signature), Signature.ofText text = .ok sig →
      (∀ word ∈ wordsOf text, word ≠ separator ∧ ∀ flag : Flag, word ≠ flag.name) ∧
      ((∃ c ∈ text.toList, c ≠ ' ') → ∀ (host : Host) (flags : List Flag),
        run host (flags.map Flag.name ++ wordsOf text) =
          run host (flags.map Flag.name ++ [text])) := by
  refine ⟨fun text sig => ⟨ofText_squeeze_iff, ofText_wordsOf_iff⟩, fun text sig h =>
    ⟨fun word hword => ordinary_of_mem_wordsOf h hword, ?_⟩⟩
  rintro ⟨c, hmem, hc⟩ host flags
  have hne : wordsOf text ≠ [] := by
    obtain ⟨word, hword, -⟩ := Text.exists_mem_words hc hmem
    exact List.ne_nil_of_mem (List.mem_map_of_mem hword)
  have hsingle : ∀ word ∈ [text], Ordinary word :=
    List.forall_mem_singleton.mpr (ordinary_of_ofText h)
  refine run_words_congr host flags (fun word hword => ordinary_of_mem_wordsOf h hword) hsingle hne
    (List.cons_ne_nil text []) ?_
  rw [ofText_wordsOf_iff.mpr h, String.intercalate_singleton, h]

/-- Gaps around every mark, inside a size and on both sides of the whole. -/
def spacedText : String :=
  "  this ,  & enum(  i4 ) , &  vt(  8 ) ->   bool "

def spacedSignature : Signature :=
  .ofKinds true [.byRef (.enum (.primitive .int32)), .byRef (.valueType 8)] (.primitive .boolean)

/-- A thunk is built from the words as from the text, listed and reported. -/
theorem unquoted_means_same_spaced :
    Signature.ofText "this , & enum( i4 ) , & vt( 8 ) -> bool" = .ok spacedSignature ∧
    (∀ word ∈ ["this", ",", "&", "enum(", "i4", ")", ",", "&", "vt(", "8", ")", "->", "bool"],
      word ≠ separator) ∧
    run .program ["--print-code", "--bytes", "--thunk", "this", ",", "&", "enum(", "i4", ")", ",",
      "&", "vt(", "8", ")", "->", "bool"] =
        run .program ["--print-code", "--bytes", "--thunk", spacedText] ∧
    ∃ lines, run .program ["--print-code", "--bytes", "--thunk", spacedText] =
      ⟨0, unlines (lines ++ ["200 bytes of code, 192 byte frame"]), ""⟩ := by
  have hwords : wordsOf spacedText =
      ["this", ",", "&", "enum(", "i4", ")", ",", "&", "vt(", "8", ")", "->", "bool"] := by
    decide +kernel
  have hread : Signature.ofText spacedText = .ok spacedSignature := by
    decide +kernel
  obtain ⟨hsame, hmeans⟩ := unquoted_means_same
  obtain ⟨hordinary, hrun⟩ := hmeans spacedText _ hread
  have hjoined := (hsame spacedText _).2.mpr hread
  have hspaced := hrun ⟨'t', by decide, by decide⟩ .program [.printCode, .bytes, .thunk]
  rw [hwords] at hordinary hjoined hspaced
  have hreport : (selected ["--print-code", "--bytes", "--thunk", spacedText]
      spacedSignature).map report = .ok "200 bytes of code, 192 byte frame" := by
    decide +kernel
  obtain ⟨stub, hstub, hlast⟩ := map_eq_ok_iff.mp hreport
  have hdivided : Divided ["--print-code", "--bytes", "--thunk", spacedText] _ [] :=
    .whole (by decide)
  obtain ⟨lines, hlines⟩ :=
    run_of_built works_program (List.cons_ne_nil _ _) hdivided hread hstub
  rw [hlast] at hlines
  exact ⟨hjoined, fun word hword => (hordinary word hword).1, hspaced, lines, hlines⟩

end CommandLine

end CallBridge

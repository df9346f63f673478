import CallBridge.Proofs.Operands
import CallBridge.Proofs.Text
import CallBridge.Signature.Text

/-!
# Signatures read back from their own text

The text of a kind has no blank and none of the marks of a signature, whatever it is made of
(`Kind.isWord_chars`), so the marks in the text of a signature are the ones that were written
between its parts. Kinds come back from their text as they were (`Kind.ofChars_of_trim`, by
induction on the kind), and signatures up to what their text leaves out (`Signature.ofChars_chars`).
-/

namespace CallBridge

open Text

/-- A character that is no part of the marks around kinds: no blank, no comma and no dash. -/
def isPlain (c : Char) : Bool :=
  !isBlank c && c ≠ ',' && c ≠ '-'

theorem isPlain_iff {c : Char} : isPlain c = true ↔ isBlank c = false ∧ c ≠ ',' ∧ c ≠ '-' := by
  simp [isPlain, and_assoc]

theorem isPlain_of_isDigit {c : Char} (h : c.isDigit = true) : isPlain c = true := by
  refine isPlain_iff.mpr ⟨isBlank_of_isDigit h, ?_, ?_⟩
  all_goals
    rintro rfl
    cases h

/-- The text of one part of a signature: not empty, and no mark in it. -/
def IsWord (text : List Char) : Prop :=
  text ≠ [] ∧ text.all isPlain = true

theorem IsWord.isPlain {text : List Char} {c : Char} (h : IsWord text) (hc : c ∈ text) :
    isBlank c = false ∧ c ≠ ',' ∧ c ≠ '-' :=
  isPlain_iff.mp (List.all_eq_true.mp h.2 c hc)

/-! ## Kinds -/

namespace Primitive

theorem isWord_keyword (p : Primitive) : IsWord p.keyword := by
  cases p <;> exact ⟨List.cons_ne_nil _ _, rfl⟩

theorem head?_keyword_ne (p : Primitive) : p.keyword.head? ≠ some 't' := by
  cases p <;> decide

end Primitive

namespace Kind

theorem isWord_chars (k : Kind) : IsWord k.chars := by
  induction k with
  | primitive p => exact p.isWord_keyword
  | byRef target ih => exact ⟨List.cons_ne_nil _ _, ih.2⟩
  | enum base ih =>
      refine ⟨List.cons_ne_nil _ _, ?_⟩
      rw [chars, List.all_append, List.all_append, ih.2]
      rfl
  | valueType size =>
      have hdigits : (decimal size.toNat).all isPlain = true :=
        List.all_eq_true.mpr fun c hc => isPlain_of_isDigit (isDigit_of_mem_decimal hc)
      refine ⟨List.cons_ne_nil _ _, ?_⟩
      rw [chars, List.all_append, List.all_append, hdigits]
      rfl

/-- No kind begins as the receiver's word does. -/
theorem head?_chars_ne (k : Kind) : k.chars.head? ≠ some 't' := by
  cases k with
  | primitive p => exact p.head?_keyword_ne
  | _ => exact fun h => by cases h

theorem trim_chars (k : Kind) : trim k.chars = k.chars :=
  trim_eq_self_of_forall fun _ hc => (k.isWord_chars.isPlain hc).1

/-! ### The outermost part -/

theorem Shape.of_byRef (target : List Char) : Shape.of ('&' :: target) = .byRef target := rfl

theorem Shape.of_enum (base : List Char) :
    Shape.of ("enum(".toList ++ (base ++ [')'])) = .enum base := by
  have hand : after? ['&'] ("enum(".toList ++ (base ++ [')'])) = none := rfl
  rw [Shape.of, hand, between?_eq_some_iff.mpr rfl]

theorem Shape.of_valueType (size : List Char) :
    Shape.of ("vt(".toList ++ (size ++ [')'])) = .valueType size := by
  have hand : after? ['&'] ("vt(".toList ++ (size ++ [')'])) = none := rfl
  have henum : between? "enum(".toList [')'] ("vt(".toList ++ (size ++ [')'])) = none := rfl
  rw [Shape.of, hand, henum, between?_eq_some_iff.mpr rfl]

theorem Shape.of_keyword (p : Primitive) : Shape.of p.keyword = .bare := by
  cases p <;> rfl

/-- What the text of a kind says on its outside. -/
def shape : Kind → Shape
  | primitive _ => .bare
  | byRef target => .byRef target.chars
  | enum base => .enum base.chars
  | valueType size => .valueType (decimal size.toNat)

theorem shape_of_trim {k : Kind} {text : List Char} (h : trim text = k.chars) :
    Shape.of (trim text) = k.shape := by
  rw [h]
  cases k with
  | primitive p => exact Shape.of_keyword p
  | byRef target => exact Shape.of_byRef target.chars
  | enum base => exact Shape.of_enum base.chars
  | valueType size => exact Shape.of_valueType (decimal size.toNat)

/-! ### Reading -/

section

variable {text part : List Char}

theorem ofChars_of_byRef (h : Shape.of (trim text) = .byRef part) :
    ofChars text = (ofChars part).map byRef := by
  rw [ofChars]
  split
  all_goals simp_all

theorem ofChars_of_enum (h : Shape.of (trim text) = .enum part) :
    ofChars text = (ofChars part).map enum := by
  rw [ofChars]
  split
  all_goals simp_all

theorem ofChars_of_valueType {size : BitVec 32} (h : Shape.of (trim text) = .valueType part)
    (hsize : unsigned? (trim part) = some size) : ofChars text = .ok (valueType size) := by
  rw [ofChars]
  split
  all_goals simp_all

theorem ofChars_of_keyword {p : Primitive} (h : Shape.of (trim text) = .bare)
    (hp : Primitive.ofKeyword? (trim text) = some p) : ofChars text = .ok (primitive p) := by
  rw [ofChars]
  split
  all_goals simp_all

end

/-- A kind is read from its own text, whatever blanks stand around it. -/
theorem ofChars_of_trim (k : Kind) {text : List Char} (h : trim text = k.chars) :
    ofChars text = .ok k := by
  induction k generalizing text with
  | primitive p =>
      have hp : Primitive.ofKeyword? (trim text) = some p := by
        rw [h]
        exact p.ofKeyword?_keyword
      exact ofChars_of_keyword (shape_of_trim h) hp
  | byRef target ih =>
      rw [ofChars_of_byRef (shape_of_trim h), ih target.trim_chars]
      rfl
  | enum base ih =>
      rw [ofChars_of_enum (shape_of_trim h), ih base.trim_chars]
      rfl
  | valueType size =>
      have hsize : unsigned? (trim (decimal size.toNat)) = some size := by
        rw [trim_eq_self_of_forall fun c hc => isBlank_of_isDigit (isDigit_of_mem_decimal hc)]
        exact unsigned?_decimal size
      exact ofChars_of_valueType (shape_of_trim h) hsize

end Kind

/-! ## Signatures -/

namespace Signature

/-- Texts put together as the parts of a signature are. -/
def joined (parts : List (List Char)) : List Char :=
  ", ".toList.intercalate parts

/-- What stands before the arrow in the text of a signature. -/
def parts (receiver : Bool) (kinds : List Kind) : List (List Char) :=
  if receiver then receiverWord :: kinds.map Kind.chars else kinds.map Kind.chars

theorem chars_eq (sig : Signature) :
    sig.chars = joined (parts sig.receiver (sig.params.map Parameter.kind)) ++ [' '] ++
      (arrow ++ ' ' :: sig.ret.chars) := by
  unfold chars joined parts
  rw [List.map_map]
  cases sig.receiver with
  | true => simp [arrow, Function.comp_def]
  | false => simp [arrow, Function.comp_def]

theorem isWord_of_mem_map_chars {kinds : List Kind} :
    ∀ word ∈ kinds.map Kind.chars, IsWord word := by
  intro word hword
  obtain ⟨k, -, rfl⟩ := List.mem_map.mp hword
  exact k.isWord_chars

theorem isWord_of_mem_parts (receiver : Bool) (kinds : List Kind) :
    ∀ word ∈ parts receiver kinds, IsWord word := by
  cases receiver with
  | true =>
      exact List.forall_mem_cons.mpr ⟨⟨List.cons_ne_nil _ _, rfl⟩, isWord_of_mem_map_chars⟩
  | false => exact isWord_of_mem_map_chars

variable {words : List (List Char)}

theorem dash_notMem_joined (h : ∀ word ∈ words, IsWord word) : '-' ∉ joined words := by
  intro hdash
  rcases mem_intercalate hdash with hdash | ⟨word, hword, hdash⟩
  · exact absurd hdash (by decide)
  · exact ((h word hword).isPlain hdash).2.2 rfl

theorem isPlain_of_head?_joined (h : ∀ word ∈ words, IsWord word) {c : Char}
    (hc : c ∈ (joined words).head?) : isBlank c = false ∧ c ≠ ',' ∧ c ≠ '-' := by
  cases words with
  | nil => cases hc
  | cons word words =>
      have hword := h word List.mem_cons_self
      rw [joined, head?_intercalate hword.1] at hc
      exact hword.isPlain (List.mem_of_mem_head? hc)

theorem trim_joined (h : ∀ word ∈ words, IsWord word) : trim (joined words) = joined words := by
  refine trim_eq_self (fun c hc => (isPlain_of_head?_joined h hc).1) fun c hc => ?_
  obtain ⟨word, hword, hc⟩ := exists_getLast?_of_intercalate (fun word hword => (h word hword).1) hc
  exact ((h word hword).isPlain (List.mem_of_mem_getLast? hc)).1

/-! ### The parts before the arrow -/

theorem separatesReceiver_eq_false {c : Char} (hblank : isBlank c = false) (hcomma : c ≠ ',') :
    separatesReceiver c = false := by
  have hspace : c ≠ ' ' := by
    rintro rfl
    cases hblank
  rw [separatesReceiver, decide_eq_false hspace, decide_eq_false hcomma]
  rfl

/-- After the receiver come the kinds, with the comma in front of them skipped. -/
theorem cutReceiver_receiver (h : ∀ word ∈ words, IsWord word) :
    cutReceiver (joined (receiverWord :: words)) = (true, joined words) := by
  have hafter : after? receiverWord (joined (receiverWord :: words)) =
      some (joined ([] :: words)) :=
    after?_eq_some_iff.mpr (intercalate_cons ..)
  rw [cutReceiver, hafter]
  cases words with
  | nil => rfl
  | cons word words =>
      have hrest : joined ([] :: word :: words) = ',' :: ' ' :: joined (word :: words) := by
        rw [joined, List.intercalate_cons_cons]
        rfl
      -- Skipping ends at the first word, which begins with neither a space nor a comma.
      have hkept : (joined (word :: words)).dropWhile separatesReceiver =
          joined (word :: words) := by
        refine dropWhile_eq_self fun c hc => ?_
        obtain ⟨hblank, hcomma, -⟩ := isPlain_of_head?_joined h hc
        exact separatesReceiver_eq_false hblank hcomma
      rw [hrest]
      exact congrArg (Prod.mk true) hkept

theorem cutReceiver_joined (receiver : Bool) (kinds : List Kind) :
    cutReceiver (joined (parts receiver kinds)) = (receiver, joined (kinds.map Kind.chars)) := by
  cases receiver with
  | true => exact cutReceiver_receiver isWord_of_mem_map_chars
  | false =>
      have hafter : after? receiverWord (joined (kinds.map Kind.chars)) = none := by
        cases kinds with
        | nil => rfl
        | cons k kinds =>
            refine after?_eq_none_of_head fun c hc => ?_
            rw [List.map_cons, joined, head?_intercalate k.isWord_chars.1] at hc
            rintro rfl
            exact k.head?_chars_ne hc
      show cutReceiver (joined (kinds.map Kind.chars)) = _
      rw [cutReceiver, hafter]

theorem kindsOfChars_joined (kinds : List Kind) :
    kindsOfChars (joined (kinds.map Kind.chars)) = .ok kinds := by
  have hwords : ∀ word ∈ kinds.map Kind.chars, IsWord word := isWord_of_mem_map_chars
  cases kinds with
  | nil => rfl
  | cons k kinds =>
      have hne : trim (joined ((k :: kinds).map Kind.chars)) ≠ [] := by
        rw [trim_joined hwords]
        exact intercalate_ne_nil k.isWord_chars.1 _ _
      have hpieces : pieces ',' (joined ((k :: kinds).map Kind.chars)) =
          k.chars :: (kinds.map Kind.chars).map ([' '] ++ ·) :=
        pieces_intercalate (by decide) fun word hword hcomma =>
          ((hwords word hword).isPlain hcomma).2.1 rfl
      rw [kindsOfChars, if_neg hne, hpieces, mapM_eq_ok_iff]
      refine .cons (k.ofChars_of_trim k.trim_chars) ?_
      rw [List.map_map, List.forall₂_map_left_iff, List.forall₂_same]
      intro other _
      refine other.ofChars_of_trim ?_
      rw [Function.comp_apply, trim_append_left rfl, other.trim_chars]

/-! ### The whole text -/

/-- The signature with a given text before the arrow and a given result. -/
def ofParts (list : List Char) (ret : Kind) : Except TextFault Signature := do
  let kinds ← kindsOfChars (cutReceiver (trim list)).2
  return ofKinds (cutReceiver (trim list)).1 kinds ret

theorem ofChars_of_cut {text list ret : List Char} (h : cutAt? arrow text = some (list, ret)) :
    ofChars text = Kind.ofChars ret >>= ofParts list := by
  rw [ofChars, h]
  dsimp only
  cases Kind.ofChars ret with
  | error fault => rfl
  | ok kind => rfl

theorem ofChars_of_no_cut {text : List Char} (h : cutAt? arrow text = none) :
    ofChars text = ofParts text (.primitive .void) := by
  rw [ofChars, h]
  rfl

/-- A signature is read from its own text, but for the descriptors and the choice of sizes. -/
theorem ofChars_chars (sig : Signature) :
    ofChars sig.chars = .ok (ofKinds sig.receiver (sig.params.map Parameter.kind) sig.ret) := by
  have hwords := isWord_of_mem_parts sig.receiver (sig.params.map Parameter.kind)
  have hcut : cutAt? arrow sig.chars =
      some (joined (parts sig.receiver (sig.params.map Parameter.kind)) ++ [' '],
        ' ' :: sig.ret.chars) := by
    rw [chars_eq]
    refine cutAt?_append fun hdash => ?_
    exact (List.mem_append.mp hdash).elim (dash_notMem_joined hwords) (by decide)
  have hret : Kind.ofChars (' ' :: sig.ret.chars) = .ok sig.ret := by
    refine sig.ret.ofChars_of_trim ?_
    rw [← List.singleton_append, trim_append_left rfl, sig.ret.trim_chars]
  rw [ofChars_of_cut hcut, hret, ok_bind, ofParts, trim_append_right rfl,
    trim_joined hwords, cutReceiver_joined, kindsOfChars_joined, ok_bind]
  rfl

theorem kinds_ofKinds (receiver : Bool) (kinds : List Kind) (ret : Kind) :
    (ofKinds receiver kinds ret).params.map Parameter.kind = kinds := by
  rw [ofKinds, List.map_map]
  exact List.map_id kinds

theorem ofKinds_inj {receiver receiver' : Bool} {kinds kinds' : List Kind} {ret ret' : Kind} :
    ofKinds receiver kinds ret = ofKinds receiver' kinds' ret' ↔
      ret = ret' ∧ receiver = receiver' ∧ kinds = kinds' := by
  constructor
  · intro h
    have hkinds := congrArg (fun sig : Signature => sig.params.map Parameter.kind) h
    simp only [kinds_ofKinds] at hkinds
    exact ⟨(congrArg Signature.ret h :), (congrArg Signature.receiver h :), hkinds⟩
  · rintro ⟨rfl, rfl, rfl⟩
    rfl

theorem eq_ofKinds_of_ofParts {list : List Char} {ret : Kind} {sig : Signature}
    (h : ofParts list ret = .ok sig) :
    sig = ofKinds sig.receiver (sig.params.map Parameter.kind) sig.ret := by
  obtain ⟨kinds, -, hsig⟩ := bind_eq_ok_iff.mp h
  obtain rfl := Except.ok.inj hsig
  rw [kinds_ofKinds]
  rfl

/-- What is read has no descriptors and interpreter sizes. -/
theorem eq_ofKinds_of_ofChars {text : List Char} {sig : Signature} (h : ofChars text = .ok sig) :
    sig = ofKinds sig.receiver (sig.params.map Parameter.kind) sig.ret := by
  cases hcut : cutAt? arrow text with
  | none =>
      rw [ofChars_of_no_cut hcut] at h
      exact eq_ofKinds_of_ofParts h
  | some cut =>
      rw [ofChars_of_cut hcut] at h
      obtain ⟨ret, -, hparts⟩ := bind_eq_ok_iff.mp h
      exact eq_ofKinds_of_ofParts hparts

theorem ofText_text (sig : Signature) :
    ofText sig.text = .ok (ofKinds sig.receiver (sig.params.map Parameter.kind) sig.ret) := by
  rw [ofText, text, String.toList_ofList, ofChars_chars]

/-- Kinds come back from their text, and signatures but for the descriptors and the choice of sizes,
which are not written. So the text tells apart whatever differs in the result, the receiver or the
kinds of the parameters, and writing what was read from any text loses nothing. -/
theorem text_round_trip :
    (∀ k : Kind, Kind.ofText k.text = .ok k) ∧
    (∀ sig : Signature, ofText sig.text = .ok { sig with
      params := sig.params.map fun p => { p with descriptor := 0 }
      pinvoke := false }) ∧
    (∀ sig sig' : Signature, sig.text = sig'.text ↔
      sig.ret = sig'.ret ∧ sig.receiver = sig'.receiver ∧
        sig.params.map Parameter.kind = sig'.params.map Parameter.kind) ∧
    ∀ (s : String) (sig : Signature), ofText s = .ok sig → ofText sig.text = .ok sig := by
  refine ⟨fun k => ?_, fun sig => ?_, fun sig sig' => ⟨fun h => ?_, ?_⟩, fun s sig h => ?_⟩
  · rw [Kind.ofText, Kind.text, String.toList_ofList]
    exact k.ofChars_of_trim k.trim_chars
  · rw [ofText_text, ofKinds, List.map_map]
    rfl
  · refine ofKinds_inj.mp (Except.ok.inj (ε := TextFault) ?_)
    rw [← ofText_text, h, ofText_text]
  · rintro ⟨hret, hreceiver, hkinds⟩
    rw [text, text, chars_eq, chars_eq, hret, hreceiver, hkinds]
  · rw [ofText_text, ← eq_ofKinds_of_ofChars h]

/-- A signature with a part of each form. -/
def spelledSignature : Signature :=
  ofKinds true [.byRef (.enum (.primitive .int32)), .valueType 8] (.primitive .boolean)

theorem text_round_trip_spelled :
    ofText "this ,, &enum( i4 ),vt( +008 )->bool " = .ok spelledSignature ∧
    ofText spelledSignature.text = .ok spelledSignature := by
  have hread : ofText "this ,, &enum( i4 ),vt( +008 )->bool " = .ok spelledSignature := by
    decide +kernel
  exact ⟨hread, text_round_trip.2.2.2 _ _ hread⟩

end Signature

end CallBridge

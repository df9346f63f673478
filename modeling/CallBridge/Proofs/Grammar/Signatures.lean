import CallBridge.Error
import CallBridge.Proofs.Grammar.Kinds

/-!
# The grammar of signatures

A signature is cut at its first arrow, and what stands before the arrow is a list of kinds, with the
receiver's word in front of it or not (`Signature.Spelled`). Much can be wrong with a text that is
no signature: the result counts first, although it is written last, and then the leftmost parameter
(`Signature.Misspelled`). Reading accepts and refuses as these relations say
(`Signature.reads_exactly_grammar`).
-/

namespace CallBridge

open Text

namespace Signature

/-- The text of a signature is a list of parameters, an arrow, and the text of the result after the
first arrow. Without an arrow all of it is the list, and the result is `void`. -/
inductive Divided (text : List Char) : List Char → Kind → Prop
  | arrow {list ret : List Char} {k : Kind} (hcut : FirstCut arrow text list ret)
      (hret : k.Spelled ret) : Divided text list k
  | noArrow (h : ∀ left right, text ≠ left ++ (arrow ++ right)) :
      Divided text text (.primitive .void)

/-- A trimmed list spells parameters, with the receiver's word in front of them or not. The word
stands alone, or a run of spaces and commas comes after it. -/
inductive ListSpelled : Bool → List Kind → List Char → Prop
  | params {kinds : List Kind} {list : List Char} (h : Kind.Listed kinds list) :
      ListSpelled false kinds list
  | receiver : ListSpelled true [] receiverWord
  | receiverParams {kinds : List Kind} {run list : List Char} (hne : run ≠ [])
      (hrun : run.all separatesReceiver = true) (h : Kind.Listed kinds list) :
      ListSpelled true kinds (receiverWord ++ (run ++ list))

/-- A text spells a signature, which then has neither descriptors nor native sizes. -/
inductive Spelled : Signature → List Char → Prop
  | intro {text list : List Char} {receiver : Bool} {kinds : List Kind} {ret : Kind}
      (hdivided : Divided text list ret) (hlist : ListSpelled receiver kinds (trim list)) :
      Spelled (ofKinds receiver kinds ret) text

/-- What is left of a trimmed list after the receiver and all spaces and commas behind it. -/
inductive Opened : Bool → List Char → List Char → Prop
  | receiver {run params : List Char} (hrun : run.all separatesReceiver = true)
      (hnone : run = [] → params = []) (hparams : ∀ c ∈ params.head?, separatesReceiver c = false) :
      Opened true params (receiverWord ++ (run ++ params))
  | noReceiver {list : List Char} (h : ∀ rest, list = receiverWord ++ rest →
      ∃ c ∈ rest.head?, separatesReceiver c = false) : Opened false list list

/-- A text spells no signature, and `fault` is what is wrong with it: with its result, or else with
the leftmost of its parameters that spells no kind. -/
inductive Misspelled (text : List Char) (fault : TextFault) : Prop
  | result {list ret : List Char} (hcut : FirstCut arrow text list ret)
      (hret : Kind.Misspelled ret fault) : Misspelled text fault
  | parameter {list params : List Char} {receiver : Bool} {ret : Kind}
      (hdivided : Divided text list ret) (hopened : Opened receiver params (trim list))
      (hne : params ≠ []) (hparams : Kind.FirstMisspelled fault params) : Misspelled text fault

variable {text list params : List Char} {receiver : Bool} {kinds : List Kind} {ret : Kind}
  {sig : Signature} {fault : TextFault}

/-! ## The receiver -/

theorem Opened.cutReceiver_eq (h : Opened receiver params list) :
    cutReceiver list = (receiver, params) := by
  cases h with
  | @receiver run _ hrun hnone hparams =>
      have hafter : after? receiverWord (receiverWord ++ (run ++ params)) = some (run ++ params) :=
        after?_eq_some_iff.mpr rfl
      have hdrop : (run ++ params).dropWhile separatesReceiver = params := by
        rw [List.dropWhile_append_of_pos (List.all_eq_true.mp hrun), dropWhile_eq_self hparams]
      have hnext : (run ++ params).head?.all separatesReceiver = true := by
        cases run with
        | nil => rw [hnone rfl]; rfl
        | cons c run => exact List.all_eq_true.mp hrun c List.mem_cons_self
      rw [cutReceiver, hafter]
      dsimp only
      rw [if_pos hnext, hdrop]
  | noReceiver h =>
      rw [cutReceiver]
      split
      · rename_i rest hafter
        obtain ⟨c, hc, hsep⟩ := h rest (after?_eq_some_iff.mp hafter)
        rw [Option.mem_def.mp hc, Option.all_some, if_neg (by simp [hsep])]
      · rfl

theorem opened_cutReceiver (list : List Char) :
    Opened (cutReceiver list).1 (cutReceiver list).2 list := by
  rw [cutReceiver]
  split
  · rename_i rest hafter
    have hlist := after?_eq_some_iff.mp hafter
    split
    · rename_i hnext
      have hnone : rest.takeWhile separatesReceiver = [] →
          rest.dropWhile separatesReceiver = [] := by
        intro hrun
        cases rest with
        | nil => rfl
        | cons c rest =>
            have hc : separatesReceiver c = true := hnext
            rw [List.takeWhile_cons_of_pos hc] at hrun
            cases hrun
      have hopened := Opened.receiver List.all_takeWhile hnone fun _ =>
        eq_false_of_mem_head?_dropWhile
      rwa [List.takeWhile_append_dropWhile, ← hlist] at hopened
    · rename_i hnext
      refine .noReceiver fun rest' hlist' => ?_
      obtain rfl := List.append_cancel_left (hlist.symm.trans hlist')
      rw [Option.all_eq_true] at hnext
      push Not at hnext
      obtain ⟨c, hc, hsep⟩ := hnext
      exact ⟨c, hc, Bool.eq_false_iff.mpr hsep⟩
  · rename_i hafter
    refine .noReceiver fun rest hlist => ?_
    cases hafter.symm.trans (after?_eq_some_iff.mpr hlist)

theorem cutReceiver_eq_iff :
    cutReceiver list = (receiver, params) ↔ Opened receiver params list := by
  refine ⟨fun h => ?_, Opened.cutReceiver_eq⟩
  have hopened := opened_cutReceiver list
  rwa [h] at hopened

/-- Trimming has taken off the blanks that could be left of a list without parameters. -/
theorem Opened.eq_nil (h : Opened receiver params (trim list)) (hnil : trim params = []) :
    params = [] := by
  have htrim := trim_trim list
  generalize trim list = trimmed at h htrim
  cases h with
  | @receiver run _ hrun hnone hparams =>
      rw [← List.append_assoc] at htrim
      exact eq_nil_of_trim_append htrim hnil
  | noReceiver h => exact htrim.symm.trans hnil

/-! ## Reading the list -/

theorem listSpelled_iff : ListSpelled receiver kinds list ↔
    ∃ params, Opened receiver params list ∧ Kind.Listed kinds params := by
  constructor
  · intro h
    cases h with
    | params h =>
        refine ⟨list, .noReceiver fun rest hlist => ?_, h⟩
        exact absurd (by rw [hlist]; rfl) h.head?_ne
    | receiver =>
        have hopened : Opened true [] (receiverWord ++ ([] ++ [])) :=
          .receiver rfl (fun _ => rfl) nofun
        exact ⟨[], hopened, .intro .nil⟩
    | @receiverParams _ run list hne hrun h =>
        -- The spaces in front of the first kind are skipped with the run.
        have hall : (run ++ list.takeWhile separatesReceiver).all separatesReceiver = true := by
          rw [List.all_append, hrun, List.all_takeWhile]
          rfl
        have hopened : Opened true (list.dropWhile separatesReceiver) _ := .receiver hall
          (fun hnil => absurd (List.append_eq_nil_iff.mp hnil).1 hne)
          fun _ => eq_false_of_mem_head?_dropWhile
        rw [List.append_assoc, List.takeWhile_append_dropWhile] at hopened
        exact ⟨_, hopened, h.dropWhile⟩
  · rintro ⟨params, hopened, hlisted⟩
    cases hopened with
    | noReceiver => exact .params hlisted
    | @receiver run _ hrun hnone hparams =>
        cases run with
        | nil =>
            obtain rfl := hnone rfl
            obtain rfl := hlisted.kinds_eq_nil
            exact .receiver
        | cons c run => exact .receiverParams (List.cons_ne_nil c run) hrun hlisted

theorem kindsOfChars_eq_ok_iff (h : trim params = [] → params = []) :
    kindsOfChars params = .ok kinds ↔ Kind.Listed kinds params := by
  rw [kindsOfChars]
  split
  · rename_i hnil
    obtain rfl := h hnil
    constructor
    · intro hkinds
      obtain rfl := Except.ok.inj hkinds
      exact .intro .nil
    · intro hlisted
      rw [hlisted.kinds_eq_nil]
  · rename_i hne
    rw [Kind.mapM_ofChars_eq_ok_iff]
    refine ⟨fun hlisted => hlisted.2, fun hlisted => ⟨?_, hlisted⟩⟩
    rintro rfl
    obtain rfl := hlisted.list_eq_nil
    exact hne rfl

theorem kindsOfChars_eq_error_iff (h : trim params = [] → params = []) :
    kindsOfChars params = .error fault ↔ params ≠ [] ∧ Kind.FirstMisspelled fault params := by
  rw [kindsOfChars]
  split
  · rename_i hnil
    obtain rfl := h hnil
    constructor
    · intro hkinds
      cases hkinds
    · exact fun hfault => absurd rfl hfault.1
  · rename_i hne
    have hparams : params ≠ [] := by
      rintro rfl
      exact hne rfl
    rw [Kind.mapM_ofChars_eq_error_iff, and_iff_right hparams]

theorem ofParts_eq_ok_iff : ofParts list ret = .ok sig ↔
    ∃ receiver kinds, ListSpelled receiver kinds (trim list) ∧
      ofKinds receiver kinds ret = sig := by
  have hopened := opened_cutReceiver (trim list)
  rw [ofParts, bind_eq_ok_iff]
  constructor
  · rintro ⟨kinds, hkinds, hsig⟩
    have hlisted := (kindsOfChars_eq_ok_iff hopened.eq_nil).mp hkinds
    exact ⟨_, kinds, listSpelled_iff.mpr ⟨_, hopened, hlisted⟩, Except.ok.inj hsig⟩
  · rintro ⟨receiver, kinds, hlist, rfl⟩
    obtain ⟨params, hopened', hlisted⟩ := listSpelled_iff.mp hlist
    rw [hopened'.cutReceiver_eq]
    exact ⟨kinds, (kindsOfChars_eq_ok_iff hopened'.eq_nil).mpr hlisted, rfl⟩

theorem ofParts_eq_error_iff : ofParts list ret = .error fault ↔
    ∃ receiver params, Opened receiver params (trim list) ∧ params ≠ [] ∧
      Kind.FirstMisspelled fault params := by
  have hopened := opened_cutReceiver (trim list)
  rw [ofParts, bind_eq_error_iff]
  constructor
  · rintro (hkinds | ⟨kinds, -, hsig⟩)
    · exact ⟨_, _, hopened, (kindsOfChars_eq_error_iff hopened.eq_nil).mp hkinds⟩
    · cases hsig
  · rintro ⟨receiver, params, hopened', hfault⟩
    rw [hopened'.cutReceiver_eq]
    exact .inl ((kindsOfChars_eq_error_iff hopened'.eq_nil).mpr hfault)

/-! ## Reading the whole text -/

theorem Divided.ofChars_eq (h : Divided text list ret) : ofChars text = ofParts list ret := by
  cases h with
  | arrow hcut hret => rw [ofChars_of_cut (cutAt?_eq_some_iff.mpr hcut), hret.ofChars_eq, ok_bind]
  | noArrow h => exact ofChars_of_no_cut (cutAt?_eq_none_iff.mpr h)

/-- A text is divided, or its result is wrong and that is what reading it finds. -/
theorem divided_or_misspelled (text : List Char) :
    (∃ list ret, Divided text list ret) ∨ ∃ list ret fault,
      FirstCut arrow text list ret ∧ Kind.Misspelled ret fault := by
  cases h : cutAt? arrow text with
  | none => exact .inl ⟨text, _, .noArrow (cutAt?_eq_none_iff.mp h)⟩
  | some cut =>
      have hcut : FirstCut arrow text cut.1 cut.2 := firstCut_of_cutAt? h
      rcases Kind.spelled_or_misspelled cut.2 with ⟨k, hret⟩ | ⟨fault, hret⟩
      · exact .inl ⟨_, k, .arrow hcut hret⟩
      · exact .inr ⟨_, _, fault, hcut, hret⟩

theorem ofChars_eq_error_of_result {result : List Char} (hcut : FirstCut arrow text list result)
    (hret : Kind.Misspelled result fault) : ofChars text = .error fault := by
  rw [ofChars_of_cut (cutAt?_eq_some_iff.mpr hcut), hret.ofChars_eq]
  rfl

theorem ofChars_eq_ok_iff : ofChars text = .ok sig ↔ sig.Spelled text := by
  constructor
  · intro h
    rcases divided_or_misspelled text with ⟨list, ret, hdivided⟩ | ⟨_, _, fault, hcut, hret⟩
    · rw [hdivided.ofChars_eq] at h
      obtain ⟨receiver, kinds, hlist, rfl⟩ := ofParts_eq_ok_iff.mp h
      exact .intro hdivided hlist
    · cases (ofChars_eq_error_of_result hcut hret).symm.trans h
  · rintro ⟨hdivided, hlist⟩
    rw [hdivided.ofChars_eq]
    exact ofParts_eq_ok_iff.mpr ⟨_, _, hlist, rfl⟩

theorem ofChars_eq_error_iff : ofChars text = .error fault ↔ Misspelled text fault := by
  constructor
  · intro h
    rcases divided_or_misspelled text with ⟨list, ret, hdivided⟩ | ⟨_, _, fault', hcut, hret⟩
    · rw [hdivided.ofChars_eq] at h
      obtain ⟨receiver, params, hopened, hne, hparams⟩ := ofParts_eq_error_iff.mp h
      exact .parameter hdivided hopened hne hparams
    · obtain rfl := Except.error.inj ((ofChars_eq_error_of_result hcut hret).symm.trans h)
      exact .result hcut hret
  · intro h
    cases h with
    | result hcut hret => exact ofChars_eq_error_of_result hcut hret
    | parameter hdivided hopened hne hparams =>
        rw [hdivided.ofChars_eq]
        exact ofParts_eq_error_iff.mpr ⟨_, _, hopened, hne, hparams⟩

theorem Misspelled.exists_text (h : Misspelled text fault) :
    ∃ part, Kind.Misspelled part fault := by
  cases h with
  | result _ hret => exact ⟨_, hret⟩
  | parameter _ _ _ hparams =>
      obtain ⟨-, -, hpart⟩ := hparams
      exact ⟨_, hpart⟩

/-- Reading accepts the grammar and nothing else. A text is read as a kind or a signature exactly if
it spells that kind or that signature, and it is refused exactly for the fault that the grammar
finds in it. The message quotes that part of the text, without blanks around it, and it spells no
kind. -/
theorem reads_exactly_grammar :
    (∀ (text : String) (k : Kind), Kind.ofText text = .ok k ↔ k.Spelled text.toList) ∧
    (∀ (text : String) (fault : TextFault),
      Kind.ofText text = .error fault ↔ Kind.Misspelled text.toList fault) ∧
    (∀ (text : String) (sig : Signature), ofText text = .ok sig ↔ sig.Spelled text.toList) ∧
    (∀ (text : String) (fault : TextFault),
      ofText text = .error fault ↔ Misspelled text.toList fault) ∧
    ∀ (text : String) (fault : TextFault), ofText text = .error fault →
      (∃ what ∈ ["unknown type", "invalid value type size in"], (Error.malformed fault).message =
        "signature syntax error: " ++ (what ++ " '" ++ fault.quoted ++ "'")) ∧
      trim fault.quoted.toList = fault.quoted.toList ∧
      ∀ k : Kind, ¬k.Spelled fault.quoted.toList := by
  refine ⟨fun _ _ => Kind.ofChars_eq_ok_iff, fun _ _ => Kind.ofChars_eq_error_iff,
    fun _ _ => ofChars_eq_ok_iff, fun _ _ => ofChars_eq_error_iff, fun text fault h => ?_⟩
  obtain ⟨part, hpart⟩ := (ofChars_eq_error_iff.mp h).exists_text
  obtain ⟨htrim, hquoted⟩ := hpart.quoted
  refine ⟨?_, htrim, fun k => hquoted.not_spelled⟩
  cases fault with
  | unknownType quoted => exact ⟨"unknown type", by decide, rfl⟩
  | valueTypeSize quoted => exact ⟨"invalid value type size in", by decide, rfl⟩

theorem reads_exactly_grammar_receiver :
    ofText "this ,, &enum( i4 ),vt( +008 )->bool " =
      .ok (ofKinds true [.byRef (.enum (.primitive .int32)), .valueType 8] (.primitive .boolean)) ∧
    ofText "this q9, vt(x) -> i4" = .error (.unknownType "q9") ∧
    ∀ k : Kind, ¬k.Spelled "q9".toList := by
  have hread : ofText "this ,, &enum( i4 ),vt( +008 )->bool " = .ok
      (ofKinds true [.byRef (.enum (.primitive .int32)), .valueType 8] (.primitive .boolean)) := by
    have hint : Kind.Spelled (.primitive .int32) " i4 ".toList := .primitive rfl
    have hbyRef : Kind.Spelled (.byRef (.enum (.primitive .int32))) " &enum( i4 )".toList :=
      .byRef rfl (@Kind.Spelled.enum _ _ " i4 ".toList rfl hint)
    have hsize : Numeral 8 "+008".toList :=
      @Numeral.intro 8 ['+'] "008".toList (.inr rfl) (by decide) rfl rfl
    have hvalueType : Kind.Spelled (.valueType 8) "vt( +008 )".toList :=
      @Kind.Spelled.valueType 8 _ " +008 ".toList rfl hsize
    have hlist : ListSpelled true [.byRef (.enum (.primitive .int32)), .valueType 8]
        (receiverWord ++ (" ,,".toList ++
          [','].intercalate [" &enum( i4 )".toList, "vt( +008 )".toList])) :=
      .receiverParams (by decide) rfl (.intro (.cons hbyRef (.cons hvalueType .nil)))
    have hdivided : Divided "this ,, &enum( i4 ),vt( +008 )->bool ".toList
        "this ,, &enum( i4 ),vt( +008 )".toList (.primitive .boolean) :=
      .arrow (cutAt?_eq_some_iff.mp rfl) (.primitive rfl)
    exact (reads_exactly_grammar.2.2.1 _ _).mpr (.intro hdivided hlist)
  have hfault : ofText "this q9, vt(x) -> i4" = .error (.unknownType "q9") := by
    have hdivided : Divided "this q9, vt(x) -> i4".toList "this q9, vt(x) ".toList
        (.primitive .int32) :=
      .arrow (cutAt?_eq_some_iff.mp rfl) (.primitive rfl)
    have hopened : Opened true "q9, vt(x)".toList (trim "this q9, vt(x) ".toList) :=
      cutReceiver_eq_iff.mp rfl
    have hq9 : Kind.Misspelled "q9".toList (.unknownType "q9") :=
      .unknown nofun nofun nofun fun p => by cases p <;> decide
    have hparams : Kind.FirstMisspelled (.unknownType "q9")
        ([','].intercalate ([] ++ "q9".toList :: [" vt(x)".toList])) :=
      .intro (by decide) nofun hq9
    exact (reads_exactly_grammar.2.2.2.1 _ _).mpr (.parameter hdivided hopened (by decide) hparams)
  exact ⟨hread, hfault, (reads_exactly_grammar.2.2.2.2 _ _ hfault).2.2⟩

end Signature

end CallBridge

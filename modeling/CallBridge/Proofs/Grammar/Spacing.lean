import CallBridge.Proofs.Gaps
import CallBridge.Proofs.Grammar.Signatures

/-!
# Gaps in signatures

What a text spells does not depend on how wide its gaps are (`Signature.Spelled.respace`), for the
spaces inside a kind are trimmed off one of its parts, those inside a list belong to one of its
kinds or follow the receiver, and none can stand within a mark or a keyword. The blanks around the
whole text are trimmed off its list and its result (`Signature.Spelled.congr`). So a text and its
words put together again spell the same signature, if they spell any
(`Signature.spelled_words_iff`).
-/

namespace CallBridge

open Text

/-! ## Kinds -/

namespace Kind

variable {k : Kind} {kinds : List Kind} {text text' list list' : List Char}

theorem space_notMem_keyword (p : Primitive) : ' ' ∉ p.keyword := fun hmem => by
  cases (p.isWord_keyword.isPlain hmem).1

/-- How wide the gaps in a text are makes no difference to the kind that it spells. -/
theorem Spelled.respace (h : k.Spelled text) (hgaps : squeeze text' = squeeze text) :
    k.Spelled text' := by
  induction h generalizing text' with
  | @primitive p text h =>
      have htrim := squeeze_trim_congr hgaps
      rw [h] at htrim
      exact .primitive (eq_of_squeeze_eq (space_notMem_keyword p) htrim)
  | byRef h hpart ih =>
      have htrim := squeeze_trim_congr hgaps
      rw [h, squeeze_cons_of_ne (by decide), ← List.singleton_append] at htrim
      obtain ⟨part', hpart', hsame⟩ := exists_of_squeeze_append_left (by decide) htrim
      exact .byRef hpart' (ih hsame)
  | enum h hpart ih =>
      have htrim := squeeze_trim_congr hgaps
      rw [h] at htrim
      obtain ⟨part', hpart', hsame⟩ := exists_of_squeeze_between (by decide) (by decide) htrim
      exact .enum hpart' (ih hsame)
  | @valueType size text part h hpart =>
      have htrim := squeeze_trim_congr hgaps
      rw [h] at htrim
      obtain ⟨part', hpart', hsame⟩ := exists_of_squeeze_between (by decide) (by decide) htrim
      have hspace : ' ' ∉ trim part := fun hmem => by
        rcases hpart.eq_plus_or_isDigit hmem with hplus | hdigit
        · cases hplus
        · cases hdigit
      refine .valueType hpart' ?_
      rwa [eq_of_squeeze_eq hspace (squeeze_trim_congr hsame)]

theorem exists_texts_of_squeeze {texts : List (List Char)} (h : List.Forall₂ Spelled kinds texts)
    (hgaps : squeeze list = squeeze ([','].intercalate texts)) :
    ∃ texts', list = [','].intercalate texts' ∧ List.Forall₂ Spelled kinds texts' := by
  induction h generalizing list with
  | nil => exact ⟨[], squeeze_eq_nil_iff.mp hgaps, .nil⟩
  | cons htext htexts ih =>
      cases htexts with
      | nil =>
          rw [List.intercalate_singleton] at hgaps
          exact ⟨[list], List.intercalate_singleton.symm, .cons (htext.respace hgaps) .nil⟩
      | cons hnext htexts =>
          rw [List.intercalate_cons_cons, List.append_assoc, List.singleton_append,
            squeeze_append_cons (by decide)] at hgaps
          obtain ⟨text', rest, rfl, htext', hrest⟩ :=
            exists_of_squeeze_append_cons (by decide) hgaps
          obtain ⟨texts', rfl, htexts'⟩ := ih hrest
          cases htexts' with
          | cons hnext' htexts' =>
              refine ⟨text' :: _ :: _, ?_, .cons (htext.respace htext') (.cons hnext' htexts')⟩
              rw [List.intercalate_cons_cons, List.append_assoc, List.singleton_append]

theorem Listed.respace (h : Listed kinds list) (hgaps : squeeze list' = squeeze list) :
    Listed kinds list' := by
  obtain ⟨h⟩ := h
  obtain ⟨texts', rfl, h'⟩ := exists_texts_of_squeeze h hgaps
  exact .intro h'

theorem Listed.dash_notMem (h : Listed kinds list) : '-' ∉ list := by
  obtain ⟨h⟩ := h
  intro hmem
  rcases mem_intercalate hmem with hmem | ⟨text, htext, hmem⟩
  · exact absurd hmem (by decide)
  · exact mark_notMem_of_forall₂ (.inr rfl) h text htext hmem

end Kind

/-! ## Signatures -/

namespace Signature

/-- A text of a signature, put together from its list and its result. That the arrow is the first
one in the text need not be said, for it is the only dash. -/
inductive Written : Signature → List Char → Prop
  | arrow {list text : List Char} {receiver : Bool} {kinds : List Kind} {ret : Kind}
      (hlist : ListSpelled receiver kinds (trim list)) (hret : ret.Spelled text) :
      Written (ofKinds receiver kinds ret) (list ++ (Signature.arrow ++ text))
  | noArrow {list : List Char} {receiver : Bool} {kinds : List Kind}
      (hlist : ListSpelled receiver kinds (trim list)) :
      Written (ofKinds receiver kinds (.primitive .void)) list

variable {sig : Signature} {text text' list list' : List Char} {receiver : Bool} {kinds : List Kind}

theorem ListSpelled.dash_notMem (h : ListSpelled receiver kinds list) : '-' ∉ list := by
  cases h with
  | params h => exact h.dash_notMem
  | receiver => decide
  | @receiverParams _ run list hne hrun h =>
      rw [List.mem_append, List.mem_append]
      refine not_or.mpr ⟨by decide, not_or.mpr ⟨fun hmem => ?_, h.dash_notMem⟩⟩
      cases List.all_eq_true.mp hrun '-' hmem

theorem dash_notMem_of_trim (h : ListSpelled receiver kinds (trim list)) : '-' ∉ list :=
  notMem_of_trim (by decide) h.dash_notMem

theorem firstCut_arrow (h : '-' ∉ list) (text : List Char) :
    FirstCut Signature.arrow (list ++ (Signature.arrow ++ text)) list text :=
  cutAt?_eq_some_iff.mp (cutAt?_append h)

theorem spelled_iff_written : sig.Spelled text ↔ sig.Written text := by
  constructor
  · rintro ⟨hdivided, hlist⟩
    cases hdivided with
    | arrow hcut hret =>
        rw [hcut.eq]
        exact .arrow hlist hret
    | noArrow _ => exact .noArrow hlist
  · intro h
    cases h with
    | arrow hlist hret =>
        exact .intro (.arrow (firstCut_arrow (dash_notMem_of_trim hlist) _) hret) hlist
    | noArrow hlist =>
        refine .intro (.noArrow fun left right heq => dash_notMem_of_trim hlist ?_) hlist
        rw [heq]
        exact List.mem_append_right left (List.mem_append_left right (by decide))

/-- The arrow is the only dash in a text that spells a signature. -/
theorem Spelled.count_dash_le (h : sig.Spelled text) : text.count '-' ≤ 1 := by
  cases spelled_iff_written.mp h with
  | @arrow list _ _ _ _ hlist hret =>
      have hcount : Signature.arrow.count '-' = 1 := by decide
      rw [List.count_append, List.count_append, hcount,
        List.count_eq_zero_of_not_mem (dash_notMem_of_trim hlist),
        List.count_eq_zero_of_not_mem hret.dash_notMem]
  | noArrow hlist =>
      rw [List.count_eq_zero_of_not_mem (dash_notMem_of_trim hlist)]
      exact Nat.zero_le 1

/-! ## Gaps in a signature -/

/-- The run behind the receiver's word is taken up to the first parameter, so no gap belongs to both
of them. -/
theorem ListSpelled.respace (h : ListSpelled receiver kinds list)
    (hgaps : squeeze list' = squeeze list) : ListSpelled receiver kinds list' := by
  obtain ⟨params, hopened, hlisted⟩ := listSpelled_iff.mp h
  cases hopened with
  | noReceiver _ => exact .params (hlisted.respace hgaps)
  | @receiver run _ hrun hnone hparams =>
      have hhead : ∀ c ∈ params.head?, c ≠ ' ' := by
        rintro c hc rfl
        cases hparams ' ' hc
      rw [squeeze_append_left (by decide)] at hgaps
      obtain ⟨rest, rfl, hrest⟩ := exists_of_squeeze_append_left (by decide) hgaps
      obtain ⟨run', params', rfl, hrun', hparams'⟩ := exists_of_squeeze_append hhead hrest
      refine listSpelled_iff.mpr ⟨params', .receiver ?_ (fun hnil => ?_) ?_,
        hlisted.respace hparams'⟩
      · rw [← all_squeeze, hrun', all_squeeze, hrun]
      · rw [hnil, eq_comm, squeeze, squeeze_eq_nil_iff] at hrun'
        rw [hnone hrun'] at hparams'
        exact squeeze_eq_nil_iff.mp hparams'
      · rwa [← head?_squeeze, hparams', head?_squeeze]

theorem Spelled.respace (h : sig.Spelled text) (hgaps : squeeze text' = squeeze text) :
    sig.Spelled text' := by
  refine spelled_iff_written.mpr ?_
  cases spelled_iff_written.mp h with
  | @arrow list text _ _ _ hlist hret =>
      have hhead : ∀ c ∈ (Signature.arrow ++ text).head?, c ≠ ' ' := by
        intro c hc
        cases hc
        decide
      obtain ⟨list', rest, rfl, hlist', hrest⟩ := exists_of_squeeze_append hhead hgaps
      rw [squeeze_append_left (by decide)] at hrest
      obtain ⟨ret', rfl, hret'⟩ := exists_of_squeeze_append_left (by decide) hrest
      exact .arrow (hlist.respace (squeeze_trim_congr hlist')) (hret.respace hret')
  | noArrow hlist => exact .noArrow (hlist.respace (squeeze_trim_congr hgaps))

/-! ## Blanks around a signature -/

theorem Written.pad {left right : List Char} (hleft : left.all isBlank = true)
    (hright : right.all isBlank = true) (h : sig.Written text) :
    sig.Written (left ++ (text ++ right)) := by
  cases h with
  | @arrow list text _ _ _ hlist hret =>
      rw [List.append_assoc, List.append_assoc, ← List.append_assoc]
      refine .arrow ?_ (hret.congr (trim_append_right hright))
      rwa [trim_append_left hleft]
  | noArrow hlist =>
      refine .noArrow ?_
      rwa [trim_append_left hleft, trim_append_right hright]

theorem Written.trim (h : sig.Written text) : sig.Written (trim text) := by
  cases h with
  | noArrow hlist =>
      refine .noArrow ?_
      rwa [trim_trim]
  | @arrow list text _ _ _ hlist hret =>
      have htrim : Text.trim (list ++ (Signature.arrow ++ text)) =
          trimStart list ++ (Signature.arrow ++ trimEnd text) := by
        rw [Text.trim, trimStart_append_of_head (by rintro c hc; cases hc; rfl),
          ← List.append_assoc, trimEnd_append_of_getLast, List.append_assoc]
        intro c hc
        rw [List.getLast?_append_of_ne_nil _ (by decide)] at hc
        cases hc
        rfl
      rw [htrim]
      refine .arrow ?_ (hret.congr (trim_trimEnd text))
      rwa [trim_trimStart]

theorem Spelled.congr (h : sig.Spelled text) (htrim : trim text' = trim text) :
    sig.Spelled text' := by
  obtain ⟨left, right, hleft, hright, htext'⟩ := exists_trim text'
  rw [htext', htrim]
  exact spelled_iff_written.mpr ((spelled_iff_written.mp h).trim.pad hleft hright)

/-- A text means the same when its gaps are single spaces. -/
theorem spelled_squeeze_iff : sig.Spelled (squeeze text) ↔ sig.Spelled text :=
  ⟨fun h => h.respace (squeeze_squeeze text).symm, fun h => h.respace (squeeze_squeeze text)⟩

/-- A text means the same when it is put together from its words. -/
theorem spelled_words_iff : sig.Spelled ([' '].intercalate (words text)) ↔ sig.Spelled text := by
  constructor
  · intro h
    exact spelled_squeeze_iff.mp (h.congr (trim_intercalate_words text).symm)
  · intro h
    exact (spelled_squeeze_iff.mpr h).congr (trim_intercalate_words text)

end Signature

end CallBridge

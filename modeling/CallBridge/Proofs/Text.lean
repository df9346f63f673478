import CallBridge.Text.Blank
import CallBridge.Text.Numeral
import Mathlib.Data.List.Basic
import Mathlib.Data.List.TakeWhile

/-!
# Texts put together and taken apart

What trimming, cutting and splitting do to a text that was put together from known parts: trimming
sees only the blanks on the outside, a cut is made at the first place where the mark can stand, and
the pieces of joined texts are those texts. A number is read back from its own digits.
-/

namespace CallBridge.Text

variable {text left right : List Char} {separator : Char}

/-! ## Blanks on the outside -/

theorem trim_append_left (h : left.all isBlank = true) : trim (left ++ text) = trim text := by
  rw [trim, trim, trimStart, trimStart, List.dropWhile_append_of_pos (List.all_eq_true.mp h)]

theorem trimEnd_append (h : right.all isBlank = true) : trimEnd (text ++ right) = trimEnd text := by
  rw [← List.all_reverse] at h
  rw [trimEnd, trimEnd, trimStart, trimStart, List.reverse_append,
    List.dropWhile_append_of_pos (List.all_eq_true.mp h)]

theorem trim_append_right (h : right.all isBlank = true) : trim (text ++ right) = trim text := by
  rw [trim, trim, trimStart, trimStart, List.dropWhile_append]
  split
  · rename_i hempty
    rw [List.isEmpty_iff.mp hempty, List.dropWhile_eq_nil_iff.mpr (List.all_eq_true.mp h)]
  · exact trimEnd_append h

theorem dropWhile_eq_self {p : Char → Bool} (h : ∀ c ∈ text.head?, p c = false) :
    text.dropWhile p = text := by
  cases text with
  | nil => rfl
  | cons c text => exact List.dropWhile_cons_of_neg (Bool.eq_false_iff.mp (h c rfl))

/-- Blanks inside a text are its own. -/
theorem trim_eq_self (hhead : ∀ c ∈ text.head?, isBlank c = false)
    (hlast : ∀ c ∈ text.getLast?, isBlank c = false) : trim text = text := by
  rw [← List.head?_reverse] at hlast
  rw [trim, trimStart, dropWhile_eq_self hhead, trimEnd, trimStart, dropWhile_eq_self hlast,
    List.reverse_reverse]

theorem trim_eq_self_of_forall (h : ∀ c ∈ text, isBlank c = false) : trim text = text :=
  trim_eq_self (fun c hc => h c (List.mem_of_mem_head? hc))
    (fun c hc => h c (List.mem_of_mem_getLast? hc))

/-! ## Cutting and splitting -/

theorem after?_eq_none_of_head {c : Char} {lead : List Char} (h : ∀ d ∈ text.head?, d ≠ c) :
    after? (c :: lead) text = none := by
  refine Option.eq_none_iff_forall_not_mem.mpr fun rest hrest => ?_
  have htext := after?_eq_some_iff.mp hrest
  exact h c (by rw [htext]; rfl) rfl

/-- The mark is found where it stands, if what comes before has nothing of it. -/
theorem cutAt?_append {c : Char} {mark : List Char} (h : c ∉ left) :
    cutAt? (c :: mark) (left ++ (c :: mark ++ right)) = some (left, right) := by
  induction left with
  | nil =>
      have hafter : after? (c :: mark) (c :: mark ++ right) = some right :=
        after?_eq_some_iff.mpr rfl
      rw [List.nil_append, cutAt?.eq_def, hafter]
  | cons d left ih =>
      obtain ⟨hd, hleft⟩ := not_or.mp (mt List.mem_cons.mpr h)
      have hafter : after? (c :: mark) (d :: (left ++ (c :: mark ++ right))) = none := by
        refine after?_eq_none_of_head fun e he => ?_
        cases he
        exact Ne.symm hd
      rw [List.cons_append, cutAt?.eq_def, hafter]
      dsimp only
      rw [ih hleft]
      rfl

theorem pieces_eq_splitOn (separator : Char) (text : List Char) :
    pieces separator text = text.splitOn separator := by
  induction text with
  | nil => rfl
  | cons c text ih =>
      rw [pieces, ih, List.splitOn_cons_eq_if_modifyHead]
      cases hsplit : text.splitOn separator with
      | nil => exact absurd hsplit (List.splitOn_ne_nil _ _)
      | cons piece rest => simp only [List.modifyHead_cons, beq_iff_eq]

/-! ## Texts joined -/

section

variable {c : Char} {lead part : List Char} {parts : List (List Char)}

theorem intercalate_cons (lead part : List Char) (parts : List (List Char)) :
    lead.intercalate (part :: parts) = part ++ lead.intercalate ([] :: parts) := by
  cases parts with
  | nil => rw [List.intercalate_singleton, List.intercalate_singleton, List.append_nil]
  | cons next parts =>
      simp only [List.intercalate_cons_cons, List.append_assoc, List.nil_append]

theorem append_intercalate (front lead part : List Char) (parts : List (List Char)) :
    front ++ lead.intercalate (part :: parts) = lead.intercalate ((front ++ part) :: parts) := by
  rw [intercalate_cons, intercalate_cons lead (front ++ part), List.append_assoc]

theorem intercalate_ne_nil (hne : part ≠ []) (lead : List Char) (parts : List (List Char)) :
    lead.intercalate (part :: parts) ≠ [] := by
  rw [intercalate_cons]
  exact List.append_ne_nil_of_left_ne_nil hne _

theorem mem_intercalate (h : c ∈ lead.intercalate parts) :
    c ∈ lead ∨ ∃ part ∈ parts, c ∈ part := by
  induction parts with
  | nil => cases h
  | cons part parts ih =>
      cases parts with
      | nil =>
          rw [List.intercalate_singleton] at h
          exact .inr ⟨part, List.mem_singleton_self part, h⟩
      | cons next parts =>
          rw [List.intercalate_cons_cons, List.mem_append, List.mem_append] at h
          rcases h with (h | h) | h
          · exact .inr ⟨part, List.mem_cons_self, h⟩
          · exact .inl h
          · exact (ih h).imp_right fun ⟨other, hother, hc⟩ =>
              ⟨other, List.mem_cons_of_mem part hother, hc⟩

theorem sublist_intercalate (h : part ∈ parts) : part.Sublist (lead.intercalate parts) := by
  induction parts with
  | nil => cases h
  | cons first parts ih =>
      rw [intercalate_cons]
      rcases List.mem_cons.mp h with rfl | h
      · exact List.sublist_append_left _ _
      · cases parts with
        | nil => cases h
        | cons next parts =>
            rw [List.intercalate_cons_cons, List.nil_append]
            exact ((ih h).trans (List.sublist_append_right _ _)).trans
              (List.sublist_append_right _ _)

/-- Joined texts begin as the first of them does. -/
theorem head?_intercalate (hne : part ≠ []) (lead : List Char) (parts : List (List Char)) :
    (lead.intercalate (part :: parts)).head? = part.head? := by
  rw [intercalate_cons, List.head?_append_of_ne_nil part hne]

/-- Joined texts end as the last of them does. -/
theorem exists_getLast?_of_intercalate {lead : List Char} : ∀ {parts : List (List Char)},
    (∀ part ∈ parts, part ≠ []) → c ∈ (lead.intercalate parts).getLast? →
      ∃ part ∈ parts, c ∈ part.getLast?
  | [], _, h => by cases h
  | [part], _, h => by
      rw [List.intercalate_singleton] at h
      exact ⟨part, List.mem_singleton_self part, h⟩
  | part :: next :: parts, hne, h => by
      have hrest := (List.forall_mem_cons.mp hne).2
      have hjoined := intercalate_ne_nil (hrest next List.mem_cons_self) lead parts
      rw [List.intercalate_cons_cons, List.getLast?_append_of_ne_nil _ hjoined] at h
      obtain ⟨last, hlast, hc⟩ := exists_getLast?_of_intercalate hrest h
      exact ⟨last, List.mem_cons_of_mem part hlast, hc⟩

/-- The pieces of texts that were joined by a separator with more after it: each of the texts, with
what follows the separator in front of all but the first. -/
theorem pieces_intercalate (hlead : separator ∉ lead)
    (h : ∀ p ∈ part :: parts, separator ∉ p) :
    pieces separator ((separator :: lead).intercalate (part :: parts)) =
      part :: parts.map (lead ++ ·) := by
  induction parts generalizing part with
  | nil =>
      rw [List.intercalate_singleton, pieces_eq_splitOn,
        List.splitOn_eq_singleton (h part List.mem_cons_self)]
      rfl
  | cons next parts ih =>
      obtain ⟨hpart, hrest⟩ := List.forall_mem_cons.mp h
      obtain ⟨hnext, hparts⟩ := List.forall_mem_cons.mp hrest
      have hlater : ∀ p ∈ (lead ++ next) :: parts, separator ∉ p :=
        List.forall_mem_cons.mpr ⟨fun hmem => (List.mem_append.mp hmem).elim hlead hnext, hparts⟩
      calc pieces separator ((separator :: lead).intercalate (part :: next :: parts))
          = (part ++ separator :: (lead ++ (separator :: lead).intercalate (next :: parts))).splitOn
              separator := by
            rw [pieces_eq_splitOn, List.intercalate_cons_cons, List.append_assoc]
            rfl
        _ = part :: pieces separator
              ((separator :: lead).intercalate ((lead ++ next) :: parts)) := by
            rw [List.splitOn_append_cons_self_of_not_mem hpart, append_intercalate,
              pieces_eq_splitOn]
        _ = part :: (next :: parts).map (lead ++ ·) := by
            rw [ih hlater]
            rfl

end

/-! ## Numbers -/

theorem isDigit_of_mem_decimal {n : Nat} {c : Char} (h : c ∈ decimal n) : c.isDigit = true :=
  Nat.isDigit_of_mem_toDigits (by decide) (by decide) h

theorem toList_toString (n : Nat) : (toString n).toList = decimal n := by
  rw [Nat.toString_eq_repr, Nat.repr_eq_ofList_toDigits, String.toList_ofList]
  rfl

theorem isBlank_of_isDigit {c : Char} (h : c.isDigit = true) : isBlank c = false := by
  have hblanks : blanks.all (fun b => !b.isDigit) = true := by decide
  rw [isBlank, List.contains_eq_mem, decide_eq_false_iff_not]
  intro hmem
  have hc := List.all_eq_true.mp hblanks c hmem
  rw [h] at hc
  cases hc

theorem unsigned?_decimal (size : BitVec 32) : unsigned? (decimal size.toNat) = some size := by
  have hplus : after? ['+'] (decimal size.toNat) = none :=
    after?_eq_none_of_head fun c hc => by
      rintro rfl
      exact absurd (isDigit_of_mem_decimal (List.mem_of_mem_head? hc)) (by decide)
  have hsize : size.toNat ≤ 0xffffffff := Nat.le_of_lt_succ size.isLt
  rw [unsigned?, hplus]
  dsimp only [Option.getD_none]
  rw [decimal?_decimal, Option.bind_some, if_pos hsize, BitVec.ofNat_toNat, BitVec.setWidth_eq]

/-- A hexadecimal number is made of digits alone. -/
theorem notMem_hexadecimal {c : Char} (hc : ∀ d, Nat.digitChar d ≠ c) (width n : Nat) :
    c ∉ hexadecimal width n := by
  have hdigits : c ∉ Nat.toDigits 16 n := by
    induction n using Nat.strongRecOn with
    | ind n ih =>
        rw [Nat.toDigits_eq_if (by decide)]
        split
        · simpa using (hc n).symm
        · simpa using ⟨ih (n / 16) (by omega), (hc (n % 16)).symm⟩
  rw [hexadecimal, List.leftpad, List.mem_append, not_or]
  exact ⟨fun hpad => hc 0 (List.eq_of_mem_replicate hpad).symm, hdigits⟩

theorem hexadecimal_ne_nil (width n : Nat) : hexadecimal width n ≠ [] :=
  List.append_ne_nil_of_right_ne_nil _ Nat.toDigits_ne_nil

end CallBridge.Text

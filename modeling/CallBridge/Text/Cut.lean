/-!
# Cutting texts

Taking a known text off the start or the end, cutting at the first occurrence of a mark, and the
pieces between separators. The first two lose nothing: `after?` and `between?` succeed exactly on
the texts that are put together from the known parts and their result.
-/

namespace CallBridge.Text

/-- What follows `lead` in a text that begins with it. -/
def after? : (lead text : List Char) → Option (List Char)
  | [], text => some text
  | a :: lead, b :: text => if a = b then after? lead text else none
  | _ :: _, [] => none

/-- What comes before `tail` in a text that ends with it. -/
def before? (tail text : List Char) : Option (List Char) :=
  (after? tail.reverse text.reverse).map List.reverse

/-- What stands between `opening` and `closing` in a text that begins and ends with them. -/
def between? (opening closing text : List Char) : Option (List Char) :=
  (after? opening text).bind (before? closing)

/-- What stands on either side of the first occurrence of `mark`. -/
def cutAt? (mark : List Char) (text : List Char) : Option (List Char × List Char) :=
  match after? mark text with
  | some right => some ([], right)
  | none =>
    match text with
    | [] => none
    | c :: text => (cutAt? mark text).map fun (left, right) => (c :: left, right)

/-- The pieces between the separators; a text without one is a single piece. -/
def pieces (separator : Char) : List Char → List (List Char)
  | [] => [[]]
  | c :: text =>
    if c = separator then
      [] :: pieces separator text
    else
      match pieces separator text with
      | [] => [[c]]
      | piece :: rest => (c :: piece) :: rest

/-! ## Nothing is lost -/

theorem after?_eq_some_iff {lead text rest : List Char} :
    after? lead text = some rest ↔ text = lead ++ rest := by
  fun_induction after? lead text with
  | case1 text => simp [eq_comm]
  | case2 lead b text ih => simpa using ih
  | case3 a lead b text h => simp [Ne.symm h]
  | case4 a lead => simp

theorem before?_eq_some_iff {tail text rest : List Char} :
    before? tail text = some rest ↔ text = rest ++ tail := by
  constructor
  · intro h
    obtain ⟨r, hr, rfl⟩ := Option.map_eq_some_iff.1 h
    have := congrArg List.reverse (after?_eq_some_iff.1 hr)
    simpa using this
  · rintro rfl
    exact Option.map_eq_some_iff.2
      ⟨rest.reverse, after?_eq_some_iff.2 (by simp), List.reverse_reverse rest⟩

theorem between?_eq_some_iff {opening closing text inner : List Char} :
    between? opening closing text = some inner ↔ text = opening ++ (inner ++ closing) := by
  simp [between?, Option.bind_eq_some_iff, after?_eq_some_iff, before?_eq_some_iff]

theorem pieces_ne_nil (separator : Char) (text : List Char) : pieces separator text ≠ [] := by
  cases text with
  | nil => simp [pieces]
  | cons c text => rw [pieces]; split <;> (try split) <;> simp

end CallBridge.Text

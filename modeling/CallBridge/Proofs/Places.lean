import CallBridge.Placement
import CallBridge.Proofs.Operands

/-!
# Where arguments lie

The rule of placement as a relation, with one case for each kind of place: `c.Puts param c'` for one
argument and `c.Places params c'` for a list of them. Cursors only move on, and an argument lies
between the cursor before it and the cursor after it (`Puts.within`), so arguments never share a
place.
-/

namespace CallBridge

/-! ## One argument -/

namespace Cursor

/-- An argument is put at its place, and the cursor moves on. -/
inductive Puts (c : Cursor) : PlacedArg → Cursor → Prop
  | general {size : Nat} (hfree : c.general < generalSlots) :
      Puts c ⟨.word size, .general c.general⟩ { c with general := c.general + 1 }
  | stack {size : Nat} (hfull : generalSlots ≤ c.general) :
      Puts c ⟨.word size, .stack c.stack⟩ { c with stack := c.stack + 4 }
  | pair {first : Nat} (hfirst : c.general ≤ first) (hfree : first + 1 < generalSlots) :
      Puts c ⟨.wide, .pair first⟩ { c with general := first + 2 }
  | single (hfree : c.float < usableFloatSlots) :
      Puts c ⟨.single, .float c.float⟩ { c with float := c.float + 1 }
  | double (hfree : c.float < usableFloatSlots) :
      Puts c ⟨.double, .float c.float⟩ { c with float := c.float + 1 }

/-- One cursor is not before another. -/
structure Le (c c' : Cursor) : Prop where
  general : c.general ≤ c'.general
  float : c.float ≤ c'.float
  stack : c.stack ≤ c'.stack

/-- A cursor has given out no slot beyond the last one. -/
structure Bounded (c : Cursor) : Prop where
  general : c.general ≤ generalSlots
  float : c.float ≤ usableFloatSlots

end Cursor

/-- A place was given out between two cursors. -/
def Location.Within (c c' : Cursor) : Location → Prop
  | general slot => c.general ≤ slot ∧ slot < c'.general
  | pair first => c.general ≤ first ∧ first + 1 < c'.general
  | float slot => c.float ≤ slot ∧ slot < c'.float
  | stack offset => c.stack ≤ offset ∧ offset + 4 ≤ c'.stack

/-- The place is a word of the caller's stack. -/
def Location.isStack : Location → Bool
  | stack _ => true
  | general _ | pair _ | float _ => false

namespace Cursor

variable {c c₁ c' c'' : Cursor} {param : PlacedArg} {params : List PlacedArg}

theorem Le.refl (c : Cursor) : c.Le c :=
  ⟨Nat.le_refl _, Nat.le_refl _, Nat.le_refl _⟩

theorem Le.trans (h : c.Le c') (h' : c'.Le c'') : c.Le c'' :=
  ⟨Nat.le_trans h.1 h'.1, Nat.le_trans h.2 h'.2, Nat.le_trans h.3 h'.3⟩

theorem start_bounded (receiver : Bool) : (start receiver).Bounded := by
  cases receiver <;> exact ⟨by decide, by decide⟩

theorem puts_of_place {position : Nat} {argClass : ArgClass} {location : Location}
    (h : c.place position argClass = .ok (location, c')) : c.Puts ⟨argClass, location⟩ c' := by
  cases argClass with
  | word size =>
      by_cases hfree : c.general < generalSlots
      · rw [place, if_pos hfree] at h
        cases h
        exact .general hfree
      · rw [place, if_neg hfree] at h
        cases h
        exact .stack (Nat.le_of_not_lt hfree)
  | wide =>
      by_cases hfree : (c.general + 1) / 2 * 2 + 1 < generalSlots
      · simp only [place, if_pos hfree] at h
        cases h
        exact .pair (by omega) hfree
      · simp [place, if_neg hfree] at h
  | single =>
      by_cases hfree : c.float < usableFloatSlots
      · rw [place, if_pos hfree] at h
        cases h
        exact .single hfree
      · simp [place, if_neg hfree] at h
  | double =>
      by_cases hfree : c.float < usableFloatSlots
      · rw [place, if_pos hfree] at h
        cases h
        exact .double hfree
      · simp [place, if_neg hfree] at h

theorem Puts.le (h : c.Puts param c') : c.Le c' := by
  cases h with
  | general | stack | single | double => exact ⟨by simp, by simp, by simp⟩
  | pair hfirst => exact ⟨by simp; omega, by simp, by simp⟩

theorem Puts.bounded (h : c.Puts param c') (hc : c.Bounded) : c'.Bounded := by
  obtain ⟨hgeneral, hfloat⟩ := hc
  cases h with
  | stack => exact ⟨hgeneral, hfloat⟩
  | general hfree => exact ⟨hfree, hfloat⟩
  | pair _ hfree => exact ⟨hfree, hfloat⟩
  | single hfree | double hfree => exact ⟨hgeneral, hfree⟩

theorem Puts.within (h : c.Puts param c') : param.location.Within c c' := by
  cases h <;> simp_all [Location.Within]

theorem Puts.stack_eq (h : c.Puts param c') :
    c'.stack = c.stack + if param.location.isStack then 4 else 0 := by
  cases h <;> rfl

/-! ## All arguments -/

inductive Places : Cursor → List PlacedArg → Cursor → Prop
  | nil (c : Cursor) : Places c [] c
  | cons {c c₁ c' : Cursor} {param : PlacedArg} {rest : List PlacedArg}
      (hput : c.Puts param c₁) (hrest : Places c₁ rest c') : Places c (param :: rest) c'

theorem Places.le (h : c.Places params c') : c.Le c' := by
  induction h with
  | nil c => exact .refl c
  | cons hput _ ih => exact hput.le.trans ih

theorem Places.bounded (h : c.Places params c') (hc : c.Bounded) : c'.Bounded := by
  induction h with
  | nil c => exact hc
  | cons hput _ ih => exact ih (hput.bounded hc)

/-- A cursor counts the stack words that it gave out, in bytes. -/
theorem Places.stack_eq (h : c.Places params c') :
    c'.stack = c.stack + 4 * params.countP (·.location.isStack) := by
  induction h with
  | nil c => rfl
  | cons hput _ ih =>
      rw [ih, hput.stack_eq, List.countP_cons]
      split <;> omega

/-- Where stack words were given out, the last of them is an argument's. -/
theorem Places.exists_stack (h : c.Places params c') (hmoved : c.stack < c'.stack) :
    ∃ param ∈ params, param.location = .stack (c'.stack - 4) := by
  induction h with
  | nil c => exact absurd hmoved (Nat.lt_irrefl _)
  | @cons c c₁ c' param rest hput hrest ih =>
      by_cases hlater : c₁.stack < c'.stack
      · obtain ⟨last, hlast, hlocation⟩ := ih hlater
        exact ⟨last, List.mem_cons_of_mem _ hlast, hlocation⟩
      · have hstack : c₁.stack = c'.stack :=
          Nat.le_antisymm hrest.le.stack (Nat.le_of_not_lt hlater)
        refine ⟨param, List.mem_cons_self, ?_⟩
        cases hput with
        | stack => rw [← hstack, Nat.add_sub_cancel]
        | general | pair | single | double => exact absurd (hstack ▸ hmoved) (Nat.lt_irrefl _)

end Cursor

/-- Every argument was put at some moment between the first cursor and the last. -/
theorem Cursor.Places.exists_puts {c c' : Cursor} {params : List PlacedArg}
    (h : c.Places params c') :
    ∀ param ∈ params, ∃ c₀ c₁, c.Le c₀ ∧ c₀.Puts param c₁ ∧ c₁.Le c' := by
  induction h with
  | nil c => simp
  | @cons c c₁ c' param rest hput hrest ih =>
      rw [List.forall_mem_cons]
      refine ⟨⟨c, c₁, .refl c, hput, hrest.le⟩, fun other hother => ?_⟩
      obtain ⟨c₀, c₂, hle, hother, hle'⟩ := ih other hother
      exact ⟨c₀, c₂, hput.le.trans hle, hother, hle'⟩

theorem Location.Within.mono {c c₀ c₁ c' : Cursor} {location : Location} (hle : c.Le c₀)
    (hle' : c₁.Le c') (h : location.Within c₀ c₁) : location.Within c c' := by
  cases location with
  | general slot =>
      exact ⟨Nat.le_trans hle.general h.1, Nat.lt_of_lt_of_le h.2 hle'.general⟩
  | pair first =>
      exact ⟨Nat.le_trans hle.general h.1, Nat.lt_of_lt_of_le h.2 hle'.general⟩
  | float slot => exact ⟨Nat.le_trans hle.float h.1, Nat.lt_of_lt_of_le h.2 hle'.float⟩
  | stack offset => exact ⟨Nat.le_trans hle.stack h.1, Nat.le_trans h.2 hle'.stack⟩

theorem Cursor.Places.within {c c' : Cursor} {params : List PlacedArg} (h : c.Places params c') :
    ∀ param ∈ params, param.location.Within c c' := by
  intro param hparam
  obtain ⟨c₀, c₁, hle, hput, hle'⟩ := h.exists_puts param hparam
  exact hput.within.mono hle hle'

/-! ## Classified parameters -/

/-- A word holds a value of one, two or four bytes. -/
def ArgClass.Native : ArgClass → Prop
  | word size => size = 1 ∨ size = 2 ∨ size = 4
  | _ => True

theorem ArgClass.native_ofKind {position : Nat} {kind : Kind} {argClass : ArgClass}
    (h : ArgClass.ofKind position kind = .ok argClass) : argClass.Native := by
  cases argClass with
  | wide | single | double => trivial
  | word size =>
      cases kind with
      | byRef target =>
          cases h
          exact .inr (.inr rfl)
      | primitive _ | enum _ | valueType _ =>
          obtain ⟨core, -, hcore⟩ := bind_eq_ok_iff.mp h
          cases core with
          | primitive p =>
              cases hclass : p.argClass? with
              | none => simp [hclass] at hcore
              | some found =>
                  simp only [hclass, Except.ok.injEq] at hcore
                  exact Primitive.size_of_argClass? (hclass.trans (congrArg some hcore))
          | _ => cases hcore

theorem places_of_placeFrom {c c' : Cursor} {position : Nat} {params : List Parameter}
    {placed : List PlacedArg} (h : placeFrom c position params = .ok (placed, c')) :
    c.Places placed c' ∧ placed.length = params.length ∧
      ∀ param ∈ placed, param.argClass.Native := by
  induction params generalizing c position placed with
  | nil =>
      cases h
      exact ⟨.nil _, rfl, by simp⟩
  | cons p params ih =>
      obtain ⟨argClass, hclass, h⟩ := bind_eq_ok_iff.mp h
      obtain ⟨⟨location, c₁⟩, hplace, h⟩ := bind_eq_ok_iff.mp h
      obtain ⟨⟨rest, c₂⟩, hrest, h⟩ := bind_eq_ok_iff.mp h
      cases h
      obtain ⟨hplaces, hlength, hnative⟩ := ih hrest
      refine ⟨.cons (Cursor.puts_of_place hplace) hplaces, by simpa using hlength, ?_⟩
      rw [List.forall_mem_cons]
      exact ⟨ArgClass.native_ofKind hclass, hnative⟩

end CallBridge

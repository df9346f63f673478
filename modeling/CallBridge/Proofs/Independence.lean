import CallBridge.Proofs.Operands
import CallBridge.Placement

/-!
# Floats and other arguments side by side

A cursor counts two things that have nothing to do with each other: the float slots, and the general
slots with the stack words. Placing an argument moves one of them and looks at no other
(`Cursor.place_float`, `Cursor.place_general`). So the run over a list of parameters is the run over
its floats beside the run over the others, in whatever order the two are mixed
(`placeFrom_split`, `placeFrom_mixed`).
-/

namespace CallBridge

/-! ## Two kinds of arguments -/

/-- The class takes a float slot. -/
def ArgClass.isFloat : ArgClass → Bool
  | single | double => true
  | word _ | wide => false

/-- The parameter has a class that takes a float slot. -/
def Parameter.isFloat (p : Parameter) : Bool :=
  (ArgClass.ofKind 0 p.kind).toOption.any ArgClass.isFloat

/-- The class of a kind is the same at every position; only refusals name the position. -/
theorem ArgClass.ofKind_ok {position : Nat} {kind : Kind} {argClass : ArgClass}
    (h : ofKind position kind = .ok argClass) (position' : Nat) :
    ofKind position' kind = .ok argClass := by
  cases kind with
  | byRef target => exact h
  | primitive _ | enum _ | valueType _ =>
      obtain ⟨core, hcore, h⟩ := bind_eq_ok_iff.mp h
      refine bind_eq_ok_iff.mpr ⟨core, hcore, ?_⟩
      split at h
      · split at h
        · exact h
        · cases h
      · cases h
      · cases h

theorem Parameter.isFloat_eq {p : Parameter} {position : Nat} {argClass : ArgClass}
    (h : ArgClass.ofKind position p.kind = .ok argClass) : p.isFloat = argClass.isFloat := by
  rw [isFloat, ArgClass.ofKind_ok h 0]
  rfl

/-! ## One argument -/

/-- The general slots and the stack words of one cursor beside the float slots of another. -/
def Cursor.beside (general float : Cursor) : Cursor :=
  ⟨general.general, float.float, general.stack⟩

variable {c c' d d' e : Cursor} {position position₁ position₂ : Nat} {argClass : ArgClass}
  {location : Location} {p : Parameter} {params : List Parameter}
  {placed generals floats : List PlacedArg}

namespace Cursor

/-- A word or a pair moves the general slots and the stack, and looks at nothing else. -/
theorem place_general (h : argClass.isFloat = false) (position position₁ : Nat) :
    (c.beside d).place position argClass = .ok (location, e) ↔
      ∃ c', c.place position₁ argClass = .ok (location, c') ∧ e = c'.beside d := by
  cases argClass with
  | word size => by_cases hfree : c.general < generalSlots <;> simp [place, beside, hfree, eq_comm]
  | wide =>
      by_cases hfree : (c.general + 1) / 2 * 2 + 1 < generalSlots <;>
        simp [place, beside, hfree, eq_comm]
  | single | double => cases h

/-- A float moves the float slots, and looks at nothing else. -/
theorem place_float (h : argClass.isFloat = true) (position position₂ : Nat) :
    (c.beside d).place position argClass = .ok (location, e) ↔
      ∃ d', d.place position₂ argClass = .ok (location, d') ∧ e = c.beside d' := by
  cases argClass with
  | word | wide => cases h
  | single | double =>
      by_cases hfree : d.float < usableFloatSlots <;> simp [place, beside, hfree, eq_comm]

end Cursor

/-! ## All arguments -/

theorem placeFrom_cons : placeFrom c position (p :: params) = .ok (placed, c') ↔
    ∃ argClass location c₁ rest, ArgClass.ofKind position p.kind = .ok argClass ∧
      c.place position argClass = .ok (location, c₁) ∧
      placeFrom c₁ (position + 1) params = .ok (rest, c') ∧
        placed = ⟨argClass, location⟩ :: rest := by
  rw [placeFrom]
  simp only [bind_eq_ok_iff, Prod.exists, pure, Except.pure, Except.ok.injEq, Prod.mk.injEq]
  constructor
  · rintro ⟨argClass, hclass, location, c₁, hplace, rest, c₂, hrest, rfl, rfl⟩
    exact ⟨argClass, location, c₁, rest, hclass, hplace, hrest, rfl⟩
  · rintro ⟨argClass, location, c₁, rest, hclass, hplace, hrest, rfl⟩
    exact ⟨argClass, hclass, location, c₁, hplace, rest, c', hrest, rfl, rfl⟩

/-- A run gives every kind of argument what it gets in a run of its own kind alone. -/
theorem placeFrom_split (position₁ position₂ : Nat)
    (h : placeFrom (c.beside d) position params = .ok (placed, e)) :
    (∃ generals c', placeFrom c position₁ (params.filter (!·.isFloat)) = .ok (generals, c') ∧
      c'.general = e.general ∧ c'.stack = e.stack ∧
      (params.filter (!·.isFloat)).zip generals = (params.zip placed).filter (!·.1.isFloat)) ∧
    ∃ floats d', placeFrom d position₂ (params.filter (·.isFloat)) = .ok (floats, d') ∧
      d'.float = e.float ∧
      (params.filter (·.isFloat)).zip floats = (params.zip placed).filter (·.1.isFloat) := by
  induction params generalizing c d position position₁ position₂ placed with
  | nil =>
      cases h
      exact ⟨⟨[], c, rfl, rfl, rfl, rfl⟩, [], d, rfl, rfl, rfl⟩
  | cons p params ih =>
      obtain ⟨argClass, location, e₁, rest, hclass, hplace, hrest, rfl⟩ := placeFrom_cons.mp h
      have hkind := Parameter.isFloat_eq hclass
      cases hfloat : p.isFloat with
      | false =>
          obtain ⟨c₁, hput, rfl⟩ :=
            (Cursor.place_general (hkind.symm.trans hfloat) position position₁).mp hplace
          obtain ⟨⟨generals, c', hgenerals, hgeneral, hstack, hzip⟩,
            floats, d', hfloats, hcount, hzip'⟩ := ih (position₁ + 1) position₂ hrest
          refine ⟨⟨⟨argClass, location⟩ :: generals, c', ?_, hgeneral, hstack, ?_⟩,
            floats, d', ?_, hcount, ?_⟩
          · rw [List.filter_cons_of_pos (by simp [hfloat])]
            exact placeFrom_cons.mpr ⟨argClass, location, c₁, generals,
              ArgClass.ofKind_ok hclass _, hput, hgenerals, rfl⟩
          · simp [hfloat, hzip]
          · rwa [List.filter_cons_of_neg (by simp [hfloat])]
          · simp [hfloat, hzip']
      | true =>
          obtain ⟨d₁, hput, rfl⟩ :=
            (Cursor.place_float (hkind.symm.trans hfloat) position position₂).mp hplace
          obtain ⟨⟨generals, c', hgenerals, hgeneral, hstack, hzip⟩,
            floats, d', hfloats, hcount, hzip'⟩ := ih position₁ (position₂ + 1) hrest
          refine ⟨⟨generals, c', ?_, hgeneral, hstack, ?_⟩,
            ⟨argClass, location⟩ :: floats, d', ?_, hcount, ?_⟩
          · rwa [List.filter_cons_of_neg (by simp [hfloat])]
          · simp [hfloat, hzip]
          · rw [List.filter_cons_of_pos (by simp [hfloat])]
            exact placeFrom_cons.mpr ⟨argClass, location, d₁, floats,
              ArgClass.ofKind_ok hclass _, hput, hfloats, rfl⟩
          · simp [hfloat, hzip']

/-- Runs over the floats and over the others make a run over both, however they are mixed. -/
theorem placeFrom_mixed (position : Nat)
    (hgenerals : placeFrom c position₁ (params.filter (!·.isFloat)) = .ok (generals, c'))
    (hfloats : placeFrom d position₂ (params.filter (·.isFloat)) = .ok (floats, d')) :
    ∃ placed, placeFrom (c.beside d) position params = .ok (placed, c'.beside d') ∧
      (params.zip placed).filter (!·.1.isFloat) = (params.filter (!·.isFloat)).zip generals ∧
      (params.zip placed).filter (·.1.isFloat) = (params.filter (·.isFloat)).zip floats := by
  induction params generalizing c d position position₁ position₂ generals floats with
  | nil =>
      cases hgenerals
      cases hfloats
      exact ⟨[], rfl, rfl, rfl⟩
  | cons p params ih =>
      cases hfloat : p.isFloat with
      | false =>
          rw [List.filter_cons_of_pos (by simp [hfloat])] at hgenerals
          rw [List.filter_cons_of_neg (by simp [hfloat])] at hfloats
          obtain ⟨argClass, location, c₁, rest, hclass, hplace, hrest, rfl⟩ :=
            placeFrom_cons.mp hgenerals
          have hkind : argClass.isFloat = false := (Parameter.isFloat_eq hclass).symm.trans hfloat
          obtain ⟨placed, hplaced, hzip, hzip'⟩ := ih (position + 1) hrest hfloats
          refine ⟨⟨argClass, location⟩ :: placed, placeFrom_cons.mpr ⟨argClass, location,
            c₁.beside d, placed, ArgClass.ofKind_ok hclass _, ?_, hplaced, rfl⟩, ?_, ?_⟩
          · exact (Cursor.place_general hkind position position₁).mpr ⟨c₁, hplace, rfl⟩
          · simp [hfloat, hzip]
          · simp [hfloat, hzip']
      | true =>
          rw [List.filter_cons_of_neg (by simp [hfloat])] at hgenerals
          rw [List.filter_cons_of_pos (by simp [hfloat])] at hfloats
          obtain ⟨argClass, location, d₁, rest, hclass, hplace, hrest, rfl⟩ :=
            placeFrom_cons.mp hfloats
          have hkind : argClass.isFloat = true := (Parameter.isFloat_eq hclass).symm.trans hfloat
          obtain ⟨placed, hplaced, hzip, hzip'⟩ := ih (position + 1) hgenerals hrest
          refine ⟨⟨argClass, location⟩ :: placed, placeFrom_cons.mpr ⟨argClass, location,
            c.beside d₁, placed, ArgClass.ofKind_ok hclass _, ?_, hplaced, rfl⟩, ?_, ?_⟩
          · exact (Cursor.place_float hkind position position₂).mpr ⟨d₁, hplace, rfl⟩
          · simp [hfloat, hzip]
          · simp [hfloat, hzip']

/-! ## Mixing two lists -/

/-- The last list is made of the first two, each in its own order. -/
inductive Interleaves {α : Type} : List α → List α → List α → Prop
  | nil : Interleaves [] [] []
  | left {a : α} {left right mixed : List α} (h : Interleaves left right mixed) :
      Interleaves (a :: left) right (a :: mixed)
  | right {a : α} {left right mixed : List α} (h : Interleaves left right mixed) :
      Interleaves left (a :: right) (a :: mixed)

/-- Where the members of the first list can be told from those of the second, both are got back. -/
theorem Interleaves.filter_eq {α : Type} {select : α → Bool} {left right mixed : List α}
    (h : Interleaves left right mixed) (hleft : ∀ a ∈ left, select a = true)
    (hright : ∀ a ∈ right, select a = false) :
    mixed.filter select = left ∧ mixed.filter (!select ·) = right := by
  induction h with
  | nil => exact ⟨rfl, rfl⟩
  | left _ ih =>
      obtain ⟨ha, hleft⟩ := List.forall_mem_cons.mp hleft
      obtain ⟨ihleft, ihright⟩ := ih hleft hright
      simp [ha, ihleft, ihright]
  | right _ ih =>
      obtain ⟨ha, hright⟩ := List.forall_mem_cons.mp hright
      obtain ⟨ihleft, ihright⟩ := ih hleft hright
      simp [ha, ihleft, ihright]

/-! ## Signatures -/

theorem Cursor.start_beside (receiver : Bool) :
    (start receiver).beside (start false) = start receiver := rfl

/-- The floats of a signature and its other parameters are placed as if the others were not there.
Without its floats a signature that has places has them still, the same ones, and uses as many
general slots and stack words; and with its floats alone, without the receiver, these have the same
places and use as many float slots. The other way round, floats that have places and parameters of
other kinds that have places have the same ones when they are mixed, in whatever way. -/
theorem floats_and_generals_apart :
    (∀ (sig : Signature) placed c, sig.placement = .ok (placed, c) →
      (∃ kept c', { sig with params := sig.params.filter (!·.isFloat) }.placement =
          .ok (kept, c') ∧ c'.general = c.general ∧ c'.stack = c.stack ∧
        (sig.params.filter (!·.isFloat)).zip kept =
          (sig.params.zip placed).filter (!·.1.isFloat)) ∧
      ∃ kept c', { sig with params := sig.params.filter (·.isFloat), receiver := false }.placement =
          .ok (kept, c') ∧ c'.float = c.float ∧
        (sig.params.filter (·.isFloat)).zip kept = (sig.params.zip placed).filter (·.1.isFloat)) ∧
    ∀ (sig : Signature) floats generals placedFloats placedGenerals d c,
      Interleaves floats generals sig.params → (∀ p ∈ floats, p.isFloat = true) →
      (∀ p ∈ generals, p.isFloat = false) →
      { sig with params := floats, receiver := false }.placement = .ok (placedFloats, d) →
      { sig with params := generals }.placement = .ok (placedGenerals, c) →
      ∃ placed, sig.placement = .ok (placed, ⟨c.general, d.float, c.stack⟩) ∧
        (sig.params.zip placed).filter (·.1.isFloat) = floats.zip placedFloats ∧
        (sig.params.zip placed).filter (!·.1.isFloat) = generals.zip placedGenerals := by
  constructor
  · intro sig placed c h
    rw [Signature.placement, ← Cursor.start_beside] at h
    exact placeFrom_split 0 0 h
  · intro sig floats generals placedFloats placedGenerals d c hmixed hfloats hgenerals hd hc
    obtain ⟨rfl, rfl⟩ := hmixed.filter_eq hfloats hgenerals
    obtain ⟨placed, hplaced, hzip, hzip'⟩ := placeFrom_mixed 0 hc hd
    exact ⟨placed, hplaced, hzip', hzip⟩

/-- Pairs that skip a slot, words that spill and floats between them. -/
def interleavedSignature : Signature where
  params := [.int32, .float64, .int64, .float32, .int64, .int64, .int8, .float64].map fun p =>
    { kind := .primitive p }
  receiver := true
  ret := .primitive .void
  pinvoke := false

theorem floats_and_generals_apart_interleaved :
    (∃ kept c, { interleavedSignature with
        params := interleavedSignature.params.filter (!·.isFloat) }.placement = .ok (kept, c) ∧
      c.general = 8 ∧ c.stack = 4) ∧
    (∃ kept c, { interleavedSignature with
        params := interleavedSignature.params.filter (·.isFloat), receiver := false }.placement =
      .ok (kept, c) ∧ c.float = 3) ∧
    ∃ placed, { interleavedSignature with
        params := [⟨.primitive .float32, 0⟩, ⟨.enum (.primitive .int32), 0⟩,
          ⟨.primitive .float64, 0⟩] }.placement = .ok (placed, ⟨2, 2, 0⟩) := by
  have hplaced : ∃ placed, interleavedSignature.placement = .ok (placed, ⟨8, 3, 4⟩) := ⟨_, rfl⟩
  obtain ⟨placed, hplaced⟩ := hplaced
  obtain ⟨⟨kept, c, hkept, hgeneral, hstack, -⟩, kept', c', hkept', hfloat, -⟩ :=
    floats_and_generals_apart.1 interleavedSignature placed ⟨8, 3, 4⟩ hplaced
  obtain ⟨mixed, hmixed, -⟩ := floats_and_generals_apart.2
    { interleavedSignature with
      params := [⟨.primitive .float32, 0⟩, ⟨.enum (.primitive .int32), 0⟩,
        ⟨.primitive .float64, 0⟩] }
    [⟨.primitive .float32, 0⟩, ⟨.primitive .float64, 0⟩] [⟨.enum (.primitive .int32), 0⟩]
    [⟨.single, .float 0⟩, ⟨.double, .float 1⟩] [⟨.word 4, .general 1⟩] ⟨0, 2, 0⟩ ⟨2, 0, 0⟩
    (.left (.right (.left .nil))) (by decide) (by decide) rfl rfl
  exact ⟨⟨kept, c, hkept, hgeneral, hstack⟩, ⟨kept', c', hkept', hfloat⟩, mixed, hmixed⟩

end CallBridge

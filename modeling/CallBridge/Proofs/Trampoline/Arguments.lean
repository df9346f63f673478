import CallBridge.Proofs.Framing
import CallBridge.Proofs.Places
import CallBridge.Stub.Trampoline

/-!
# Loading the arguments of a call

A trampoline loads one argument after another from the array in r12. An argument goes to a place
between the cursor before it and the cursor after it, and nothing but these places and r11 changes
(`LoadsOnly`), so that no argument is lost when later ones are loaded.
-/

namespace CallBridge

open Machine

namespace Trampoline

variable {kept : Set Nat} {m m₁ m' : Machine} {c c₀ c₁ c' : Cursor} {array : Nat}

/-- The tagged value at `slot` has come to the place of an argument: its first word to a general
register or a stack word, its first two words to a pair, its double word to a float register. -/
def Delivered (mem : Memory) (slot : Nat) (m : Machine) : Location → Prop
  | .general s => m.r (3 + s) = mem.word slot
  | .pair first => m.r (3 + first) = mem.word slot ∧ m.r (3 + first + 1) = mem.word (slot + 4)
  | .float s => m.f (1 + s) = mem.doubleWord slot
  | .stack offset => m.memory.word (m.sp + 8 + offset) = mem.word slot

def argArea (m : Machine) (c c' : Cursor) : Set Nat :=
  Set.Ico (m.sp + 8 + c.stack) (m.sp + 8 + c'.stack)

/-- Nothing but r11 and the places between two cursors changes. -/
structure LoadsOnly (c c' : Cursor) (m m' : Machine) : Prop where
  lr : m'.lr = m.lr
  general : ∀ n, n % 32 ≠ 11 → ¬(3 + c.general ≤ n % 32 ∧ n % 32 < 3 + c'.general) →
    m'.r n = m.r n
  float : ∀ n, ¬(1 + c.float ≤ n % 32 ∧ n % 32 < 1 + c'.float) → m'.f n = m.f n
  memory : Set.EqOn m'.memory.byte m.memory.byte (argArea m c c')ᶜ

/-- The registers that are neither argument registers nor scratch do not change. -/
theorem LoadsOnly.r_eq (h : LoadsOnly c c' m m') (hc : c'.Bounded) {n : Nat}
    (hn : n % 32 < 3 ∨ 11 < n % 32) : m'.r n = m.r n := by
  have hgeneral := hc.general
  simp only [generalSlots] at hgeneral
  exact h.general n (by omega) (by omega)

theorem LoadsOnly.sp (h : LoadsOnly c c' m m') : m'.sp = m.sp :=
  congrArg BitVec.toNat (h.general 1 (by decide) (by omega))

theorem LoadsOnly.refl (c : Cursor) (m : Machine) : LoadsOnly c c m m :=
  ⟨rfl, fun _ _ _ => rfl, fun _ _ => rfl, Set.eqOn_refl _ _⟩

theorem LoadsOnly.trans (hle : c.Le c₁) (hle' : c₁.Le c') (h : LoadsOnly c c₁ m m₁)
    (h' : LoadsOnly c₁ c' m₁ m') : LoadsOnly c c' m m' := by
  obtain ⟨hgeneral, hfloat, hstack⟩ := hle
  obtain ⟨hgeneral', hfloat', hstack'⟩ := hle'
  have harea : argArea m c c₁ ⊆ argArea m c c' := Set.Ico_subset_Ico_right (by omega)
  have harea' : argArea m₁ c₁ c' ⊆ argArea m c c' := by
    rw [argArea, h.sp]
    exact Set.Ico_subset_Ico_left (by omega)
  refine ⟨h'.lr.trans h.lr, ?_, ?_, ?_⟩
  · intro n hn hout
    exact (h'.general n hn (by omega)).trans (h.general n hn (by omega))
  · intro n hout
    exact (h'.float n (by omega)).trans (h.float n (by omega))
  · exact (h'.memory.mono (Set.compl_subset_compl.mpr harea')).trans
      (h.memory.mono (Set.compl_subset_compl.mpr harea))

/-- An argument stays in its place when later ones are loaded. -/
theorem Delivered.keep {mem : Memory} {slot : Nat} {location : Location}
    (h : Delivered mem slot m location) (hwithin : location.Within c₀ c) (hc : c.Bounded)
    (hloads : LoadsOnly c c' m m') : Delivered mem slot m' location := by
  obtain ⟨hgeneral, hfloat⟩ := hc
  simp only [generalSlots, usableFloatSlots] at hgeneral hfloat
  cases location with
  | general s =>
      have hs := hwithin.2
      exact (hloads.general _ (by omega) (by omega)).trans h
  | pair first =>
      have hfirst := hwithin.2
      exact ⟨(hloads.general _ (by omega) (by omega)).trans h.1,
        (hloads.general _ (by omega) (by omega)).trans h.2⟩
  | float s =>
      have hs := hwithin.2
      exact (hloads.float _ (by omega)).trans h
  | stack offset =>
      have hoffset := hwithin.2
      have hsub : Set.Ico (m.sp + 8 + offset) (m.sp + 8 + offset + 4) ⊆ (argArea m c c')ᶜ := by
        rintro x ⟨hlo, hhi⟩ ⟨hlo', hhi'⟩
        omega
      rw [Delivered, hloads.sp, Memory.word_eq_of_eqOn (hloads.memory.mono hsub)]
      exact h

/-- Only the eight bytes of data of the tagged value count. -/
theorem Delivered.congr {mem mem' : Memory} {slot : Nat} {location : Location}
    (h : Delivered mem slot m location)
    (heq : Set.EqOn mem.byte mem'.byte (Set.Ico slot (slot + 8))) :
    Delivered mem' slot m location := by
  have hword : mem.word slot = mem'.word slot :=
    Memory.word_eq_of_eqOn (heq.mono (Set.Ico_subset_Ico_right (by omega)))
  have hnext : mem.word (slot + 4) = mem'.word (slot + 4) :=
    Memory.word_eq_of_eqOn (heq.mono (Set.Ico_subset_Ico (by omega) (by omega)))
  cases location with
  | general | stack => exact h.trans hword
  | pair => exact ⟨h.1.trans hword, h.2.trans hnext⟩
  | float => exact h.trans (Memory.doubleWord_eq_of_eqOn heq)

/-! ## One argument -/

theorem performs_loadArg {param : PlacedArg} (offset : Nat) (hput : c.Puts param c')
    (hbase : (m.r 12).toNat = array)
    (hslot : Set.Ico (array + offset) (array + offset + 8) ⊆ addresses)
    (harea : argArea m c c' ⊆ addresses) (hkept : Disjoint kept (argArea m c c')) :
    ∃ m', Performs kept (loadArg offset param.location) m m' ∧ LoadsOnly c c' m m' ∧
      Delivered m.memory (array + offset) m' param.location := by
  obtain ⟨hstart, hstop⟩ := bounds_of_subset (by omega) hslot
  have hfirst : m.Addresses offset 12 (array + offset) 4 :=
    ⟨by decide, by simp [hbase], hstart, by omega⟩
  cases hput with
  | general hfree =>
      simp only [generalSlots] at hfree
      refine ⟨_, performs_lwz _ hfirst, ⟨by simp, ?_, by simp, Set.eqOn_refl _ _⟩, ?_⟩
      · intro n hn hout
        simp only [r_setR, r_goto, firstGeneral] at hout ⊢
        grind
      · simp [Delivered, firstGeneral]
  | stack hfull =>
      have hlt := m.sp_lt
      obtain ⟨hstart', hstop'⟩ := bounds_of_subset (by simp) harea
      refine ⟨_, (performs_lwz 11 hfirst).cons <|
        performs_stw 11 (a := m.sp + 8 + c.stack) ?_ hkept, ⟨by simp, ?_, by simp, ?_⟩, ?_⟩
      · exact ⟨by decide, by simp [stackPointer, paramArea, sp]; omega, hstart', hstop'⟩
      · intro n hn hout
        simp only [r_put, r_goto, r_setR]
        grind
      · rw [memory_put]
        exact Memory.eqOn_store (by rw [length_bytesOf]; exact disjoint_compl_left)
      · simp [Delivered, sp, stackPointer, Memory.word_store]
  | @pair first hle hfree =>
      simp only [generalSlots] at hfree
      refine ⟨_, (performs_lwz _ hfirst).cons <| performs_lwz _ (a := array + offset + 4) ?_,
        ⟨by simp, ?_, by simp, Set.eqOn_refl _ _⟩, ?_⟩
      -- The first load leaves the base alone: a pair ends below r11.
      · have hne : (firstGeneral + first) % 32 ≠ 12 := by
          simp only [firstGeneral]
          omega
        exact ⟨by decide, by simp [hne, hbase]; omega, by omega, by omega⟩
      · intro n hn hout
        simp only [r_setR, r_goto, firstGeneral] at hout ⊢
        grind
      · have hne : (3 + first + 1) % 32 ≠ (3 + first) % 32 := by omega
        simp [Delivered, firstGeneral, hne]
  | single hfree | double hfree =>
      simp only [usableFloatSlots] at hfree
      refine ⟨_, performs_lfd _ (a := array + offset) ?_,
        ⟨by simp, by simp, ?_, Set.eqOn_refl _ _⟩, ?_⟩
      · exact ⟨by decide, by simp [hbase], hstart, hstop⟩
      · intro n hout
        simp only [f_setF, f_goto, firstFloat] at hout ⊢
        grind
      · simp [Delivered, firstFloat]

/-! ## All arguments -/

/-- The code that loads the arguments from index `k` on. -/
def loadArgsFrom (k : Nat) (params : List PlacedArg) : List Statement :=
  (params.zipIdx k).flatMap fun arg => loadArg (arg.2 * taggedSize) arg.1.location

theorem loadArgs_eq (params : List PlacedArg) : loadArgs params = loadArgsFrom 0 params := rfl

theorem loadArgsFrom_cons (k : Nat) (param : PlacedArg) (rest : List PlacedArg) :
    loadArgsFrom k (param :: rest) =
      loadArg (k * taggedSize) param.location ++ loadArgsFrom (k + 1) rest := rfl

/-- The arguments from index `k` on are loaded from their slots, each to its place. -/
theorem performs_loadArgs_from {params : List PlacedArg} (hplaces : c.Places params c')
    (hc : c.Bounded) (k : Nat) (hbase : (m.r 12).toNat = array)
    (hslots : Set.Ico array (array + (k + params.length) * taggedSize) ⊆ addresses)
    (harea : argArea m c c' ⊆ addresses) (hkept : Disjoint kept (argArea m c c'))
    (hapart : Disjoint (Set.Ico array (array + (k + params.length) * taggedSize))
      (argArea m c c')) :
    ∃ m', Performs kept (loadArgsFrom k params) m m' ∧ LoadsOnly c c' m m' ∧
      ∀ i (hi : i < params.length),
        Delivered m.memory (array + (k + i) * taggedSize) m' params[i].location := by
  induction hplaces generalizing m k with
  | nil c => exact ⟨m, .nil m, .refl c m, by simp⟩
  | @cons c c₁ c' param rest hput hrest ih =>
      rw [List.length_cons] at hslots hapart
      simp only [taggedSize] at hslots hapart ⊢
      have hle := hput.le
      have hle' := hrest.le
      have hfirst : argArea m c c₁ ⊆ argArea m c c' :=
        Set.Ico_subset_Ico_right (Nat.add_le_add_left hle'.stack _)
      obtain ⟨m₁, hperforms, hloads, hdelivered⟩ := performs_loadArg (k * 16) hput hbase
        ((Set.Ico_subset_Ico (by omega) (by omega)).trans hslots) (hfirst.trans harea)
        (hkept.mono_right hfirst)
      have hlater : argArea m₁ c₁ c' ⊆ argArea m c c' := by
        rw [argArea, hloads.sp]
        exact Set.Ico_subset_Ico_left (Nat.add_le_add_left hle.stack _)
      have hspan : array + (k + 1 + rest.length) * 16 = array + (k + (rest.length + 1)) * 16 := by
        omega
      have hbase₁ : (m₁.r 12).toNat = array := by
        rwa [hloads.r_eq (hput.bounded hc) (.inr (by decide))]
      obtain ⟨m', hperforms', hloads', hdelivered'⟩ := ih (hput.bounded hc) (k + 1) hbase₁
        (by simpa only [taggedSize, hspan] using hslots) (hlater.trans harea)
        (hkept.mono_right hlater) (by simpa only [taggedSize, hspan] using hapart.mono_right hlater)
      refine ⟨m', hperforms.append hperforms', .trans hle hle' hloads hloads', ?_⟩
      rintro (_ | i) hi
      · exact hdelivered.keep hput.within (hput.bounded hc) hloads'
      · have hslot : Set.Ico (array + (k + 1 + i) * 16) (array + (k + 1 + i) * 16 + 8) ⊆
            (argArea m c c₁)ᶜ := by
          rw [List.length_cons] at hi
          refine Set.Subset.trans ?_ (hapart.mono_right hfirst).subset_compl_right
          exact Set.Ico_subset_Ico (by omega) (by omega)
        have hindex : k + 1 + i = k + (i + 1) := by omega
        have hgot := (hdelivered' i (Nat.lt_of_succ_lt_succ hi)).congr (hloads.memory.mono hslot)
        rwa [taggedSize, hindex] at hgot

theorem performs_loadArgs {params : List PlacedArg} (hplaces : c.Places params c')
    (hc : c.Bounded) (hbase : (m.r 12).toNat = array)
    (hslots : Set.Ico array (array + params.length * taggedSize) ⊆ addresses)
    (harea : argArea m c c' ⊆ addresses) (hkept : Disjoint kept (argArea m c c'))
    (hapart : Disjoint (Set.Ico array (array + params.length * taggedSize)) (argArea m c c')) :
    ∃ m', Performs kept (loadArgs params) m m' ∧ LoadsOnly c c' m m' ∧
      ∀ i (hi : i < params.length),
        Delivered m.memory (array + i * taggedSize) m' params[i].location := by
  rw [loadArgs_eq]
  simpa using performs_loadArgs_from hplaces hc 0 hbase (by simpa using hslots) harea
    hkept (by simpa using hapart)

end Trampoline

end CallBridge

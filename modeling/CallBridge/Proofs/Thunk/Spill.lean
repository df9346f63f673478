import CallBridge.Proofs.Thunk.Activation

/-!
# Spilling the argument registers

Conversions spoil the argument registers, so a thunk stores every argument that came in registers in
its frame first. An argument that is put between two cursors is stored between the spill slots of
these cursors (`Activation.spillArea`), so none is overwritten by a later one, and what a conversion
is told to read are the bytes of the native argument (`Activation.Sourced`).
-/

namespace CallBridge

open Machine

namespace Thunk

variable {kept : Set Nat} {a : Activation} {m m₁ m' : Machine} {mem mem' : Memory}
  {c c₀ c₁ c' : Cursor} {param : PlacedArg}

namespace Activation

/-- The spill slots between two cursors. -/
def spillArea (a : Activation) (c c' : Cursor) : Set Nat :=
  Set.Ico (a.frame + a.layout.generalSpill + c.general * 4)
      (a.frame + a.layout.generalSpill + c'.general * 4) ∪
    Set.Ico (a.frame + a.layout.floatSpill + c.float * 8)
      (a.frame + a.layout.floatSpill + c'.float * 8)

theorem spillArea_mono (hle : c.Le c₀) (hle' : c₁.Le c') :
    a.spillArea c₀ c₁ ⊆ a.spillArea c c' := by
  have hgeneral := hle.general
  have hfloat := hle.float
  have hgeneral' := hle'.general
  have hfloat' := hle'.float
  exact Set.union_subset_union (Set.Ico_subset_Ico (by omega) (by omega))
    (Set.Ico_subset_Ico (by omega) (by omega))

theorem spillArea_subset (hspill : a.layout.floatSpill = a.layout.generalSpill + 32)
    (hc : c'.Bounded) : a.spillArea c c' ⊆ a.spillSpan := by
  have hgeneral := hc.general
  have hfloat := hc.float
  simp only [generalSlots, usableFloatSlots] at hgeneral hfloat
  rintro x (⟨hlo, hhi⟩ | ⟨hlo, hhi⟩)
  · exact ⟨by omega, by omega⟩
  · exact ⟨by omega, by omega⟩

end Activation

/-! ## What stays as it is -/

/-- The machine that spills has the registers as received, and so is the memory that the frame does
not take. -/
structure Spilling (a : Activation) (m : Machine) : Prop where
  base : (m.r framePointer).toNat = a.frame
  general : ∀ n, 3 ≤ n → n ≤ 10 → m.r n = a.entry.r n
  float : ∀ n, m.f n = a.entry.f n
  memory : Set.EqOn m.memory.byte a.entry.memory.byte (Set.Ici (a.entry.sp + 8))

/-- Spilling between two cursors changes nothing but their spill slots. -/
structure SpillsOnly (a : Activation) (c c' : Cursor) (m m' : Machine) : Prop where
  lr : m'.lr = m.lr
  general : ∀ n, m'.r n = m.r n
  float : ∀ n, m'.f n = m.f n
  memory : Set.EqOn m'.memory.byte m.memory.byte (a.spillArea c c')ᶜ

theorem SpillsOnly.refl (c : Cursor) (m : Machine) : SpillsOnly a c c m m :=
  ⟨rfl, fun _ => rfl, fun _ => rfl, Set.eqOn_refl _ _⟩

theorem SpillsOnly.again (h : SpillsOnly a c c' m m₁) (h' : SpillsOnly a c c' m₁ m') :
    SpillsOnly a c c' m m' :=
  ⟨h'.lr.trans h.lr, fun n => (h'.general n).trans (h.general n),
    fun n => (h'.float n).trans (h.float n), h'.memory.trans h.memory⟩

theorem SpillsOnly.mono (hle : c.Le c₀) (hle' : c₁.Le c') (h : SpillsOnly a c₀ c₁ m m') :
    SpillsOnly a c c' m m' :=
  ⟨h.lr, h.general, h.float,
    h.memory.mono (Set.compl_subset_compl.mpr (Activation.spillArea_mono hle hle'))⟩

theorem SpillsOnly.trans (hle : c.Le c₁) (hle' : c₁.Le c') (h : SpillsOnly a c c₁ m m₁)
    (h' : SpillsOnly a c₁ c' m₁ m') : SpillsOnly a c c' m m' :=
  (h.mono (.refl c) hle').again (h'.mono hle (.refl c'))

theorem SpillsOnly.same (h : SpillsOnly a c c' m m') : SameRegisters [] m m' :=
  ⟨h.lr, h.float, fun n _ => h.general n⟩

/-- The machine may go on spilling as long as what it spills from stays as it is. -/
theorem Spilling.congr (h : Spilling a m) (hsame : SameRegisters [0] m m')
    (hmem : Set.EqOn m'.memory.byte m.memory.byte (Set.Ici (a.entry.sp + 8))) : Spilling a m' where
  base := by rw [hsame.general _ (by decide), h.base]
  general n hlo hhi := by
    have hn : n % 32 ∉ [0] := by simp; omega
    exact (hsame.general n hn).trans (h.general n hlo hhi)
  float n := (hsame.float n).trans (h.float n)
  memory := hmem.trans h.memory

theorem Ici_subset_compl {A : Set Nat} {top : Nat} (h : A ⊆ Set.Iio top) : Set.Ici top ⊆ Aᶜ :=
  Set.subset_compl_comm.mp (by rwa [Set.compl_Ici])

theorem Spilling.keep (h : Spilling a m) (hspills : SpillsOnly a c c' m m')
    (harea : a.spillArea c c' ⊆ Set.Iio (a.entry.sp + 8)) : Spilling a m' :=
  h.congr (hspills.same.mono (List.nil_subset _)) (hspills.memory.mono (Ici_subset_compl harea))

/-! ## One argument -/

/-- The bytes of an argument that is put between two cursors lie in its spill slots or among the
caller's stack words. -/
theorem nativeSpan_subset (hput : c.Puts param c₁) (hnative : param.argClass.Native) :
    a.nativeSpan param ⊆ a.spillArea c c₁ ∪
      Set.Ico (a.frame + a.layout.frameSize + 8 + c.stack)
        (a.frame + a.layout.frameSize + 8 + c₁.stack) := by
  rintro x ⟨hlo, hhi⟩
  cases hput with
  | @general size =>
      have hsize : size ≤ 4 := by rcases hnative with h | h | h <;> omega
      simp only [ThunkLayout.source, ThunkLayout.home, ArgClass.width] at hlo hhi
      exact .inl (.inl ⟨by omega, by dsimp only; omega⟩)
  | @stack size =>
      have hsize : size ≤ 4 := by rcases hnative with h | h | h <;> omega
      simp only [ThunkLayout.source, ThunkLayout.home, ArgClass.width, paramArea] at hlo hhi
      exact .inr ⟨by omega, by dsimp only; omega⟩
  | pair hfirst =>
      simp only [ThunkLayout.source, ThunkLayout.home, ArgClass.width] at hlo hhi
      exact .inl (.inl ⟨by omega, by dsimp only; omega⟩)
  | single | double =>
      simp only [ThunkLayout.source, ThunkLayout.home, ArgClass.width] at hlo hhi
      exact .inl (.inr ⟨by omega, by dsimp only; omega⟩)

section

variable (hbase : (m.r framePointer).toNat = a.frame) (harea : a.spillArea c c' ⊆ addresses)
  (hkept : Disjoint kept (a.spillArea c c'))

include hbase harea hkept

theorem performs_spillAt (op : Transfer) (reg offset : Nat) {width : Nat} {disp : Int}
    (hop : op ≠ .lwz ∧ op ≠ .lfd ∧ op ≠ .stwu) (hdisp : disp = offset)
    (hwidth : (m.storedBytes reg op).length = width) (hpos : 0 < width)
    (hslot : Set.Ico (a.frame + offset) (a.frame + offset + width) ⊆ a.spillArea c c') :
    ∃ m', Performs kept [.transfer op reg disp framePointer] m m' ∧ SpillsOnly a c c' m m' ∧
      m'.memory = m.memory.store (a.frame + offset) (m.storedBytes reg op) := by
  subst hwidth
  obtain ⟨hstart, hstop⟩ := bounds_of_subset (by omega) (hslot.trans harea)
  refine ⟨_, performs_store hop ⟨by decide, ?_, hstart, hstop⟩ (hkept.mono_right hslot),
    ⟨by simp, by simp, by simp, ?_⟩, by simp⟩
  · rw [hbase, hdisp]
    omega
  · rw [memory_put, memory_goto]
    exact Memory.eqOn_store (disjoint_compl_left.mono_right hslot)

theorem performs_spillGeneral (slot : Nat) (hlo : c.general ≤ slot) (hhi : slot < c'.general) :
    ∃ m', Performs kept [.transfer .stw (firstGeneral + slot)
        (a.layout.generalSpill + slot * 4) framePointer] m m' ∧ SpillsOnly a c c' m m' ∧
      m'.memory = m.memory.store (a.frame + (a.layout.generalSpill + slot * 4))
        (bytesOf 4 (m.r (3 + slot)).toNat) :=
  performs_spillAt hbase harea hkept .stw (firstGeneral + slot) (a.layout.generalSpill + slot * 4)
    (by decide) (by push_cast; rfl) (length_bytesOf ..) (by decide)
    fun x hx => .inl ⟨by have := hx.1; omega, by have := hx.2; omega⟩

theorem performs_spillFloat (op : Transfer) (slot : Nat) {width : Nat}
    (hop : op ≠ .lwz ∧ op ≠ .lfd ∧ op ≠ .stwu)
    (hwidth : (m.storedBytes (firstFloat + slot) op).length = width) (hpos : 0 < width)
    (hle : width ≤ 8) (hlo : c.float ≤ slot) (hhi : slot < c'.float) :
    ∃ m', Performs kept [.transfer op (firstFloat + slot)
        (a.layout.floatSpill + slot * 8) framePointer] m m' ∧ SpillsOnly a c c' m m' ∧
      m'.memory = m.memory.store (a.frame + (a.layout.floatSpill + slot * 8))
        (m.storedBytes (firstFloat + slot) op) :=
  performs_spillAt hbase harea hkept op (firstFloat + slot) (a.layout.floatSpill + slot * 8)
    hop (by push_cast; rfl) hwidth hpos
    fun x hx => .inr ⟨by have := hx.1; omega, by have := hx.2; omega⟩

end

/-- The registers of an argument are stored, and then its bytes are where a conversion is told to
read them. -/
theorem performs_spillArg (hput : c.Puts param c₁) (hnative : param.argClass.Native)
    (hsp : a.entry.sp = a.frame + a.layout.frameSize) (hspilling : Spilling a m)
    (harea : a.spillArea c c₁ ⊆ addresses) (hkept : Disjoint kept (a.spillArea c c₁)) :
    ∃ m', Performs kept (spillArg a.layout param) m m' ∧ SpillsOnly a c c₁ m m' ∧
      a.Sourced m'.memory param := by
  obtain ⟨hbase, hgeneral, hfloat, hmemory⟩ := hspilling
  cases hput with
  | @general size hfree =>
      simp only [generalSlots] at hfree
      have hsize : size ≤ 4 := by rcases hnative with h | h | h <;> omega
      obtain ⟨m', hperforms, hspills, hmem⟩ := performs_spillGeneral hbase harea hkept c.general
        (Nat.le_refl _) (Nat.lt_succ_self _)
      refine ⟨m', hperforms, hspills, ?_⟩
      have hsource : a.frame + a.layout.source ⟨.word size, .general c.general⟩ =
          a.frame + (a.layout.generalSpill + c.general * 4) + (4 - size) := by
        simp only [ThunkLayout.source, ThunkLayout.home]
        omega
      rw [Activation.Sourced, hsource, hmem]
      show Memory.load _ _ size = bytesOf size _
      rw [Memory.load_low _ _ hsize, Memory.word_store, hgeneral _ (by omega) (by omega)]
  | @stack size hfull =>
      have hsize : size ≤ 4 := by rcases hnative with h | h | h <;> omega
      refine ⟨m, .nil m, ⟨rfl, fun _ => rfl, fun _ => rfl, Set.eqOn_refl _ _⟩, ?_⟩
      have hsource : a.frame + a.layout.source ⟨.word size, .stack c.stack⟩ =
          a.entry.sp + 8 + c.stack + (4 - size) := by
        simp only [ThunkLayout.source, ThunkLayout.home, paramArea]
        omega
      have hword : m.memory.word (a.entry.sp + 8 + c.stack) =
          a.entry.memory.word (a.entry.sp + 8 + c.stack) :=
        Memory.word_eq_of_eqOn (hmemory.mono fun x hx => (Nat.le_add_right _ _).trans hx.1)
      rw [Activation.Sourced, hsource]
      show Memory.load _ _ size = bytesOf size _
      rw [Memory.load_low _ _ hsize, hword]
  | @pair first hle hfree =>
      simp only [generalSlots] at hfree
      obtain ⟨m₁, hperforms, hspills, hmem⟩ := performs_spillGeneral hbase harea hkept first hle
        (Nat.lt_add_of_pos_right (by decide))
      obtain ⟨m₂, hperforms', hspills', hmem'⟩ := performs_spillGeneral
        ((congrArg BitVec.toNat (hspills.general _)).trans hbase) harea hkept (first + 1)
        (Nat.le_succ_of_le hle) (Nat.lt_succ_self _)
      refine ⟨m₂, hperforms.cons hperforms', hspills.again hspills', ?_⟩
      have hnext : a.frame + (a.layout.generalSpill + (first + 1) * 4) =
          a.frame + (a.layout.generalSpill + first * 4) +
            (bytesOf 4 (a.entry.r (3 + first)).toNat).length := by
        rw [length_bytesOf]
        omega
      rw [Activation.Sourced, hmem', hmem, hspills.general, hgeneral _ (by omega) (by omega),
        hgeneral _ (by omega) (by omega), hnext, ← Memory.store_append]
      exact Memory.load_store _ _ (bytesOf 4 _ ++ bytesOf 4 _)
  | single hfree =>
      obtain ⟨m', hperforms, hspills, hmem⟩ := performs_spillFloat hbase harea hkept .stfs c.float
        (by decide) (length_bytesOf ..) (by decide) (by decide) (Nat.le_refl _) (Nat.lt_succ_self _)
      refine ⟨m', hperforms, hspills, ?_⟩
      rw [Activation.Sourced, hmem, storedBytes, hfloat]
      exact Memory.load_store _ _ (bytesOf 4 _)
  | double hfree =>
      obtain ⟨m', hperforms, hspills, hmem⟩ := performs_spillFloat hbase harea hkept .stfd c.float
        (by decide) (length_bytesOf ..) (by decide) (by decide) (Nat.le_refl _) (Nat.lt_succ_self _)
      refine ⟨m', hperforms, hspills, ?_⟩
      rw [Activation.Sourced, hmem, storedBytes, hfloat]
      exact Memory.load_store _ _ (bytesOf 8 _)

/-! ## All arguments -/

theorem Activation.Sourced.congr (h : a.Sourced mem param)
    (heq : Set.EqOn mem'.byte mem.byte (a.nativeSpan param)) : a.Sourced mem' param := by
  rw [Activation.Sourced, Memory.load_eq_of_eqOn heq]
  exact h

/-- Later spills are apart from the bytes of an argument. -/
theorem disjoint_spillArea (hspill : a.layout.floatSpill = a.layout.generalSpill + 32)
    (hc : c'.Bounded) (hle : c₁.Le c') (hput : c.Puts param c₁) (hnative : param.argClass.Native)
    (hbelow : a.spillArea c₁ c' ⊆ Set.Iio (a.frame + a.layout.frameSize + 8)) :
    Disjoint (a.nativeSpan param) (a.spillArea c₁ c') := by
  have hgeneral := hc.general
  have hgeneral' := hle.general
  simp only [generalSlots] at hgeneral
  rw [Set.disjoint_left]
  intro x hx hin
  have hlow : x < a.frame + a.layout.frameSize + 8 := hbelow hin
  rcases nativeSpan_subset hput hnative hx with (⟨hlo, hhi⟩ | ⟨hlo, hhi⟩) | ⟨hlo, hhi⟩ <;>
    rcases hin with ⟨hlo', hhi'⟩ | ⟨hlo', hhi'⟩ <;> omega

/-- After all registers are spilled, the bytes of every argument are where its conversion is told to
read them. -/
theorem performs_spillArgs {params : List PlacedArg} (hplaces : c.Places params c')
    (hc : c.Bounded) (hnative : ∀ param ∈ params, param.argClass.Native)
    (hspill : a.layout.floatSpill = a.layout.generalSpill + 32)
    (hsp : a.entry.sp = a.frame + a.layout.frameSize) (hspilling : Spilling a m)
    (harea : a.spillArea c c' ⊆ addresses) (hkept : Disjoint kept (a.spillArea c c'))
    (hbelow : a.spillArea c c' ⊆ Set.Iio (a.entry.sp + 8)) :
    ∃ m', Performs kept (params.flatMap (spillArg a.layout)) m m' ∧ SpillsOnly a c c' m m' ∧
      ∀ param ∈ params, a.Sourced m'.memory param := by
  induction hplaces generalizing m with
  | nil c => exact ⟨m, .nil m, .refl c m, by simp⟩
  | @cons c c₁ c' param rest hput hrest ih =>
      have hle := hput.le
      have hle' := hrest.le
      have hc₁ := hput.bounded hc
      have hfirst := Activation.spillArea_mono (a := a) (.refl c) hle'
      have hlater := Activation.spillArea_mono (a := a) hle (.refl c')
      obtain ⟨m₁, hperforms, hspills, hsourced⟩ := performs_spillArg hput
        (hnative _ List.mem_cons_self) hsp hspilling (hfirst.trans harea) (hkept.mono_right hfirst)
      obtain ⟨m₂, hperforms', hspills', hsourced'⟩ := ih hc₁
        (fun other hother => hnative other (List.mem_cons_of_mem _ hother))
        (hspilling.keep hspills (hfirst.trans hbelow)) (hlater.trans harea)
        (hkept.mono_right hlater) (hlater.trans hbelow)
      refine ⟨m₂, hperforms.append hperforms', .trans hle hle' hspills hspills', ?_⟩
      rw [List.forall_mem_cons]
      refine ⟨hsourced.congr (hspills'.memory.mono ?_), hsourced'⟩
      refine (disjoint_spillArea hspill (hrest.bounded hc₁) hle' hput
        (hnative _ List.mem_cons_self) ?_).subset_compl_right
      rw [← hsp]
      exact hlater.trans hbelow

end Thunk

end CallBridge

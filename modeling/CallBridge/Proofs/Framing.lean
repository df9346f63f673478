import CallBridge.Proofs.Straight

/-!
# Setting a frame up and leaving it

A stub with a frame of `S` bytes changes three words of the stack before anything else: the back
chain at the bottom of the frame, the saved r31 at its top, and the saved link register in the
caller's frame. As long as these words and the stack pointer are what they were then (`InFrame`),
leaving the frame brings the caller's stack pointer, r31 and link register back.
-/

namespace CallBridge

namespace Machine

def sp (m : Machine) : Nat :=
  (m.r stackPointer).toNat

/-- There is room for a frame of `S` bytes below the stack pointer, and the caller's back chain and
link register word lie above it in memory. -/
structure Room (m : Machine) (S : Nat) : Prop where
  size : 16 ≤ S
  start : memoryStart + S ≤ m.sp
  stop : m.sp + 8 ≤ memoryEnd

/-- The stack that a stub uses: its frame, and the caller's two words above it. -/
def stackSpan (m : Machine) (S : Nat) : Set Nat :=
  Set.Ico (m.sp - S) (m.sp + 8)

/-- The bytes that a stub may write: its frame and the caller's link register word. -/
def ownSpan (m : Machine) (S : Nat) : Set Nat :=
  Set.Ico (m.sp - S) m.sp ∪ Set.Ico (m.sp + 4) (m.sp + 8)

/-- The frame of `S` bytes that was set up from `m₀` is in place in `m`. -/
structure InFrame (S : Nat) (m₀ m : Machine) : Prop where
  sp : m.sp = m₀.sp - S
  backChain : m.memory.word (m₀.sp - S) = m₀.r stackPointer
  savedPointer : m.memory.word (m₀.sp - 4) = m₀.r framePointer
  savedLink : m.memory.word (m₀.sp + 4) = m₀.lr

variable {kept : Set Nat} {S : Nat} {m₀ m m' : Machine}

theorem ownSpan_subset_stackSpan (m : Machine) (S : Nat) : m.ownSpan S ⊆ m.stackSpan S := by
  rintro x (⟨hlo, hhi⟩ | ⟨hlo, hhi⟩)
  · exact ⟨hlo, by omega⟩
  · exact ⟨by omega, hhi⟩

/-- A word in the frame, or the caller's link register word, may be written. -/
theorem word_subset_ownSpan {a : Nat} (h : m.sp - S ≤ a ∧ a + 4 ≤ m.sp ∨ a = m.sp + 4) :
    Set.Ico a (a + 4) ⊆ m.ownSpan S := by
  rintro x ⟨hlo, hhi⟩
  rcases h with ⟨hstart, hstop⟩ | rfl
  · exact .inl ⟨by omega, by omega⟩
  · exact .inr ⟨hlo, by omega⟩

theorem sp_lt (m : Machine) : m.sp < 4294967296 :=
  (m.r stackPointer).isLt

/-- The three saved words are all that the frame rests on. -/
theorem InFrame.congr (h : InFrame S m₀ m) (hsp : m'.sp = m.sp)
    (hback : Set.EqOn m'.memory.byte m.memory.byte (Set.Ico (m₀.sp - S) (m₀.sp - S + 4)))
    (hpointer : Set.EqOn m'.memory.byte m.memory.byte (Set.Ico (m₀.sp - 4) (m₀.sp - 4 + 4)))
    (hlink : Set.EqOn m'.memory.byte m.memory.byte (Set.Ico (m₀.sp + 4) (m₀.sp + 4 + 4))) :
    InFrame S m₀ m' where
  sp := hsp.trans h.sp
  backChain := (Memory.word_eq_of_eqOn hback).trans h.backChain
  savedPointer := (Memory.word_eq_of_eqOn hpointer).trans h.savedPointer
  savedLink := (Memory.word_eq_of_eqOn hlink).trans h.savedLink

/-! ## Setting up -/

/-- The memory after a frame of `S` bytes is set up: the back chain, the saved r31 and the saved
link register are stored, in this order. -/
def framedMemory (m : Machine) (S : Nat) : Memory :=
  ((m.memory.store (m.sp - S) (bytesOf 4 (m.r stackPointer).toNat)).store (m.sp - 4)
    (bytesOf 4 (m.r framePointer).toNat)).store (m.sp + 4) (bytesOf 4 m.lr.toNat)

theorem performs_frameStores (hroom : m.Room S) (hkept : Disjoint kept (m.ownSpan S)) :
    ∃ m', Performs kept (frameEntry S) m m' ∧ m'.memory = m.framedMemory S ∧ m'.lr = m.lr ∧
      (∀ n, m'.f n = m.f n) ∧
      ∀ n, m'.r n = if n % 32 = 1 ∨ n % 32 = 31 then BitVec.ofNat 32 (m.sp - S)
        else if n % 32 = 0 then m.lr else m.r n := by
  obtain ⟨hsize, hstart, hstop⟩ := hroom
  have hlt := m.sp_lt
  have hsp : (m.r 1).toNat = m.sp := rfl
  have hfree {a : Nat} (ha : m.sp - S ≤ a ∧ a + 4 ≤ m.sp ∨ a = m.sp + 4) :
      Disjoint kept (Set.Ico a (a + 4)) :=
    hkept.mono_right (word_subset_ownSpan ha)
  refine ⟨_, (performs_stwu 1 (a := m.sp - S) ?_ ?_).cons <| (performs_mflr 0).cons <|
    (performs_stw 31 (a := m.sp - 4) ?_ ?_).cons <| (performs_stw 0 (a := m.sp + 4) ?_ ?_).cons <|
    performs_mr 31 1, ?_, ?_, ?_, ?_⟩
  · exact ⟨by decide, by simp [stackPointer, hsp]; omega, by omega, by omega⟩
  · exact hfree (by omega)
  · exact ⟨by decide, by simp [stackPointer, savedFramePointer]; omega, by omega, by omega⟩
  · exact hfree (by omega)
  · exact ⟨by decide, by simp [stackPointer]; omega, by omega, by omega⟩
  · exact hfree (by omega)
  · simp [framedMemory, stackPointer, framePointer]
  · simp
  · simp
  · intro n
    simp only [r_setR, r_put, r_goto, lr_goto, lr_put, lr_setR, stackPointer]
    grind

/-- The words that setting a frame up stores are in place, and nothing else changes. -/
theorem framedMemory_spec (hroom : m.Room S) :
    (m.framedMemory S).word (m.sp - S) = m.r stackPointer ∧
      (m.framedMemory S).word (m.sp - 4) = m.r framePointer ∧
      (m.framedMemory S).word (m.sp + 4) = m.lr ∧
      Set.EqOn (m.framedMemory S).byte m.memory.byte (m.ownSpan S)ᶜ := by
  obtain ⟨hsize, hstart, hstop⟩ := hroom
  have hother {a b : Nat} {mem : Memory} {w : Word} (h : a + 4 ≤ b ∨ b + 4 ≤ a) :
      (mem.store b (bytesOf 4 w.toNat)).word a = mem.word a :=
    Memory.word_store_of_disjoint (by rwa [length_bytesOf])
  refine ⟨?_, ?_, Memory.word_store _ _ _, ?_⟩
  · rw [framedMemory, hother (by omega), hother (by omega), Memory.word_store]
  · rw [framedMemory, hother (by omega), Memory.word_store]
  · have hstored {a : Nat} {mem : Memory} {w : Word}
        (h : Set.Ico a (a + 4) ⊆ m.ownSpan S) :
        Set.EqOn (mem.store a (bytesOf 4 w.toNat)).byte mem.byte (m.ownSpan S)ᶜ :=
      Memory.eqOn_store (by rw [length_bytesOf]; exact disjoint_compl_left.mono_right h)
    refine (hstored ?_).trans ((hstored ?_).trans (hstored ?_)) <;>
      exact word_subset_ownSpan (by omega)

theorem inFrame_of_framedMemory (hroom : m.Room S) (hmem : m'.memory = m.framedMemory S)
    (hsp : m'.r stackPointer = BitVec.ofNat 32 (m.sp - S)) : InFrame S m m' := by
  obtain ⟨hback, hpointer, hlink, -⟩ := framedMemory_spec hroom
  have hlt := m.sp_lt
  rw [← hmem] at hback hpointer hlink
  refine ⟨?_, hback, hpointer, hlink⟩
  rw [sp, hsp, BitVec.toNat_ofNat]
  omega

/-- After a frame is set up it is in place and r31 points to it as r1 does. No other register than
r0 has changed, and of the memory nothing but what the stub may write. -/
theorem performs_frameEntry (hroom : m.Room S) (hkept : Disjoint kept (m.ownSpan S)) :
    ∃ m', Performs kept (frameEntry S) m m' ∧ InFrame S m m' ∧
      m'.r framePointer = m'.r stackPointer ∧
      Set.EqOn m'.memory.byte m.memory.byte (m.ownSpan S)ᶜ ∧ (∀ n, m'.f n = m.f n) ∧
      ∀ n, n % 32 ∉ [0, 1, 31] → m'.r n = m.r n := by
  obtain ⟨m', hstores, hmem, -, hf, hr⟩ := performs_frameStores hroom hkept
  refine ⟨m', hstores, inFrame_of_framedMemory hroom hmem (by simp [hr, stackPointer]), ?_, ?_, hf,
    fun n hn => ?_⟩
  · simp [hr, framePointer, stackPointer]
  · rw [hmem]
    exact (framedMemory_spec hroom).2.2.2
  · simp only [List.mem_cons, not_or] at hn
    rw [hr, if_neg (by omega), if_neg hn.1]

/-! ## Leaving -/

/-- What comes before the jump that ends a stub. -/
def restoreCaller : List Statement :=
  [ .transfer .lwz 11 0 stackPointer,
    .transfer .lwz 0 4 11,
    .mtlr 0,
    .transfer .lwz framePointer savedFramePointer 11,
    .mr stackPointer 11 ]

theorem frameReturn_eq : frameReturn = restoreCaller ++ [.blr] := rfl

/-- Leaving the frame gives the stack pointer, r31 and the link register back, writes nothing to
memory and changes no other register than r0 and r11. -/
theorem performs_restoreCaller (kept : Set Nat) (hroom : m₀.Room S) (hin : InFrame S m₀ m) :
    ∃ m', Performs kept restoreCaller m m' ∧ m'.memory = m.memory ∧ m'.lr = m₀.lr ∧
      m'.r stackPointer = m₀.r stackPointer ∧ m'.r framePointer = m₀.r framePointer ∧
      (∀ n, m'.f n = m.f n) ∧ ∀ n, n % 32 ∉ [0, 1, 11, 31] → m'.r n = m.r n := by
  obtain ⟨hsize, hstart, hstop⟩ := hroom
  obtain ⟨hspm, hback, hpointer, hlink⟩ := hin
  have hsp₀ : (m₀.r 1).toNat = m₀.sp := rfl
  have hsp : (m.r 1).toNat = m₀.sp - S := hspm
  have hback' : m.memory.word (m₀.sp - S) = m₀.r 1 := hback
  have hpointer' : m.memory.word (m₀.sp - 4) = m₀.r 31 := hpointer
  refine ⟨_, (performs_lwz 11 (a := m₀.sp - S) ?_).cons <|
    (performs_lwz 0 (a := m₀.sp + 4) ?_).cons <| (performs_mtlr 0).cons <|
    (performs_lwz 31 (a := m₀.sp - 4) ?_).cons <| performs_mr 1 11,
    ?_, ?_, ?_, ?_, ?_, ?_⟩
  · exact ⟨by decide, by simp [stackPointer, hsp], by omega, by omega⟩
  · exact ⟨by decide, by simp [hback', hsp₀], by omega, by omega⟩
  · exact ⟨by decide, by simp [hback', hsp₀, savedFramePointer]; omega, by omega, by omega⟩
  · simp
  · simp [hlink]
  · simp [hback', stackPointer]
  · simp [hpointer', framePointer]
  · simp
  · intro n hn
    simp only [List.mem_cons, not_or] at hn
    simp only [r_setR, r_setLink, r_goto]
    grind

end Machine

end CallBridge

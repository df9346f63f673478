import CallBridge.Proofs.Thunk.Entry

/-!
# Conversion calls

One call of the conversion function for every argument, in order. The registers of a call name the
descriptor, the native bytes, the tagged slot and the choice of sizes (`Converting`). What the thunk
needs from the function is that it comes back and changes, of a set of kept bytes, none but those of
the slot; what is said of the calls takes as the kept bytes what its callers grant, and the code
is always among them.
-/

namespace CallBridge

open Machine

namespace Thunk

variable {σ : Type} {hooks : Hooks σ} {state : σ} {kept : Set Nat} {a : Activation}
  {m m' : Machine} {cursor : Cursor} {arg : Parameter × PlacedArg}

/-! ## One call -/

/-- The conversion function is entered for the argument with index `i`. -/
structure Converting (a : Activation) (i : Nat) (arg : Parameter × PlacedArg) (m : Machine) :
    Prop where
  pc : m.pc = a.entryPoints.convert
  sp : m.sp = a.frame
  framePointer : m.r framePointer = m.r stackPointer
  descriptor : m.r 3 = arg.1.descriptor
  source : (m.r 4).toNat = a.frame + a.layout.source arg.2
  slot : (m.r 5).toNat = a.frame + ThunkLayout.argSlot i
  sizes : m.r 6 = if a.method.signature.pinvoke then 1 else 0

/-- The conversion function comes back from every call that a thunk makes, and of the kept bytes it
changes none but those of the slot. -/
def ConvertContract (a : Activation) (convert : Hook σ) (kept : Set Nat) : Prop :=
  ∀ i arg state m, a.args[i]? = some arg → Converting a i arg m →
    ∃ state' m', convert state m = .ok (state', m') ∧ m.Preserves (kept \ a.slots i (i + 1)) m'

/-- The code of a conversion up to the jump. -/
def convertSetup (a : Activation) (i : Nat) (arg : Parameter × PlacedArg) : List Statement :=
  [ .loadWord 3 arg.1.descriptor,
    .addi 4 framePointer (a.layout.source arg.2),
    .addi 5 framePointer (ThunkLayout.argSlot i),
    .li 6 a.method.signature.pinvoke.toNat,
    .loadWord 0 a.entryPoints.convert,
    .mtlr 0 ]

/-- The registers are set for a conversion, and the function is in the link register. -/
theorem performs_convertSetup (kept : Set Nat) (i : Nat) (hbase : m.sp = a.frame)
    (hfp : m.r framePointer = m.r stackPointer)
    (hsource : a.frame + a.layout.source arg.2 < 4294967296)
    (hslot : a.frame + ThunkLayout.argSlot i < 4294967296) :
    ∃ m', Performs kept (convertSetup a i arg) m m' ∧ m'.lr = a.entryPoints.convert ∧
      m'.memory = m.memory ∧
      Converting a i arg ((m'.setLink (m'.pc + 4)).goto m'.lr) := by
  have hfp' : (m.r 31).toNat = a.frame := (congrArg BitVec.toNat hfp).trans hbase
  refine ⟨_, (performs_loadWord 3 _).cons <|
    (performs_addi_address (a := a.frame) (by decide) ?_).cons <|
    (performs_addi_address (a := a.frame) (by decide) ?_).cons <| (performs_li 6 _).cons <|
    (performs_loadWord 0 _).cons <| performs_mtlr 0, ?_, ?_, ?_⟩
  · simpa [framePointer] using hfp'
  · simpa [framePointer] using hfp'
  · simp
  · simp
  · refine ⟨?_, ?_, ?_, ?_, ?_, ?_, ?_⟩
    · simp
    · simpa [sp, stackPointer] using hbase
    · simpa [framePointer, stackPointer] using hfp
    · simp
    · simpa using hsource
    · simpa using hslot
    · cases a.method.signature.pinvoke <;> simp

/-! ## All calls -/

namespace Activation

theorem slots_mono {i j i' j' : Nat} (hi : i' ≤ i) (hj : j ≤ j') : a.slots i j ⊆ a.slots i' j' := by
  simp only [slots, ThunkLayout.argSlot, taggedSize]
  exact Set.Ico_subset_Ico (by omega) (by omega)

theorem disjoint_slots {i j k l : Nat} (h : j ≤ k) : Disjoint (a.slots i j) (a.slots k l) := by
  refine disjoint_ranges (.inl ?_)
  simp only [ThunkLayout.argSlot, taggedSize]
  omega

end Activation

/-- A call of the conversion function as part of a run of calls that starts at index `first`. It is
entered with memory as before the run, but for the slots of earlier calls, and after the run its
slot is as it left it. -/
structure Converted (a : Activation) (convert : Hook σ) (kept : Set Nat) (first : Nat)
    (before after : Memory) (i : Nat) (arg : Parameter × PlacedArg) (call : NativeCall) : Prop where
  converting : Converting a i arg call.entered
  calls : ∃ state state', convert state call.entered = .ok (state', call.returned)
  before : Set.EqOn call.entered.memory.byte before.byte (kept \ a.slots first i)
  after : Set.EqOn after.byte call.returned.memory.byte (kept ∩ a.slots i (i + 1))

/-- A call that comes later in a run is one of the run that starts one argument earlier, too. -/
theorem Converted.earlier {convert : Hook σ} {first i : Nat} {before mid after : Memory}
    {call : NativeCall} (h : Converted a convert kept (first + 1) mid after i arg call)
    (hi : first + 1 ≤ i)
    (hsame : Set.EqOn mid.byte before.byte (kept \ a.slots first (first + 1))) :
    Converted a convert kept first before after i arg call := by
  refine ⟨h.converting, h.calls, ?_, h.after⟩
  have hlater : kept \ a.slots first i ⊆ kept \ a.slots (first + 1) i :=
    Set.sdiff_subset_sdiff_right (Activation.slots_mono (Nat.le_succ _) (Nat.le_refl _))
  have hfirst : kept \ a.slots first i ⊆ kept \ a.slots first (first + 1) :=
    Set.sdiff_subset_sdiff_right (Activation.slots_mono (Nat.le_refl _) hi)
  exact (h.before.mono hlater).trans (hsame.mono hfirst)

def convertCode (a : Activation) (k : Nat) (args : List (Parameter × PlacedArg)) : List Statement :=
  (args.zipIdx k).flatMap fun (arg, i) => convertSetup a i arg ++ [.blrl]

theorem convertCode_cons (k : Nat) (args : List (Parameter × PlacedArg)) :
    convertCode a k (arg :: args) =
      convertSetup a k arg ++ .blrl :: convertCode a (k + 1) args := by
  simp [convertCode]

section

variable {convert : Hook σ} {own : Set Nat} {base : Nat} {code todo : List Statement}
  (hhook : hooks a.entryPoints.convert = some convert)
  (hexit : a.entryPoints.convert ≠ exitAddress) (hcontract : ConvertContract a convert kept)
  (hcode : codeSpan base (code.flatMap Statement.unchecked) ⊆ kept)
  (hreach : ∀ i arg, a.args[i]? = some arg →
    a.frame + a.layout.source arg.2 < 4294967296 ∧ a.frame + ThunkLayout.argSlot i < 4294967296)

include hhook hexit hcontract hcode hreach

/-- One conversion is called and comes back. Of the kept bytes none but those of its slot changes,
and the thunk itself writes nothing. -/
theorem confined_convert {i : Nat} (hget : a.args[i]? = some arg)
    (hapart : Disjoint (codeSpan base (code.flatMap Statement.unchecked)) (a.slots i (i + 1)))
    (hreached : Reached hooks base code (convertSetup a i arg ++ .blrl :: todo) m)
    (hsp : m.sp = a.frame) (hfp : m.r framePointer = m.r stackPointer) (state : σ) :
    ∃ call state', Confined hooks own 10 [call] state m state' call.returned.leave ∧
      Reached hooks base code todo call.returned.leave ∧ call.returned.leave.sp = a.frame ∧
      call.returned.leave.r framePointer = call.returned.leave.r stackPointer ∧
      Converting a i arg call.entered ∧ call.entered.memory = m.memory ∧
      convert state call.entered = .ok (state', call.returned) ∧
      Set.EqOn call.returned.memory.byte m.memory.byte (kept \ a.slots i (i + 1)) := by
  obtain ⟨hsource, hslot⟩ := hreach i arg hget
  obtain ⟨m₁, hsetup, hlr, hmem, hconverting⟩ :=
    performs_convertSetup Set.univ i hsp hfp hsource hslot
  obtain ⟨hconfined, hcall⟩ :=
    hreached.confined state hsetup (Set.subset_univ _) (Set.subset_univ ownᶜ)
  obtain ⟨state', m₂, hok, hpreserves⟩ := hcontract i arg state _ hget hconverting
  have hfree : codeSpan base (code.flatMap Statement.unchecked) ⊆ kept \ a.slots i (i + 1) :=
    Set.subset_sdiff.mpr ⟨hcode, hapart⟩
  obtain ⟨hconfined', hrest⟩ := hcall.confined_native own (by rwa [hlr]) (by rwa [hlr]) hok
    (by simpa using hpreserves.lr) (hpreserves.memory.mono hfree)
  refine ⟨⟨_, m₂⟩, state', hconfined.trans hconfined', hrest,
    (sp_leave hpreserves).trans hconverting.sp,
    framePointer_leave hpreserves hconverting.framePointer, hconverting, hmem, hok, ?_⟩
  rw [← hmem]
  exact hpreserves.memory

/-- The conversions from index `k` on are called in order. -/
theorem confined_convertCode
    (hapart : Disjoint (codeSpan base (code.flatMap Statement.unchecked))
      (a.slots 0 a.args.length))
    (done args : List (Parameter × PlacedArg)) (hargs : a.args = done ++ args)
    (hreached : Reached hooks base code (convertCode a done.length args ++ todo) m)
    (hsp : m.sp = a.frame) (hfp : m.r framePointer = m.r stackPointer) (state : σ) :
    ∃ calls state' m', Confined hooks own (10 * args.length) calls state m state' m' ∧
      Reached hooks base code todo m' ∧ m'.sp = a.frame ∧
      m'.r framePointer = m'.r stackPointer ∧
      Set.EqOn m'.memory.byte m.memory.byte (kept \ a.slots done.length a.args.length) ∧
      calls.length = args.length ∧
      ∀ j call arg, calls[j]? = some call → args[j]? = some arg →
        Converted a convert kept done.length m.memory m'.memory (done.length + j) arg call := by
  induction args generalizing done m state with
  | nil => exact ⟨[], state, m, .refl _ _, hreached, hsp, hfp, Set.eqOn_refl _ _, rfl, by simp⟩
  | cons arg rest ih =>
      have hlen : done.length + 1 ≤ a.args.length := by simp [hargs]
      rw [convertCode_cons, List.append_assoc, List.cons_append] at hreached
      obtain ⟨call, state₁, hconfined, hrest, hsp₁, hfp₁, hconverting, hentered, hok, hsame⟩ :=
        confined_convert hhook hexit hcontract hcode hreach (by simp [hargs])
          (hapart.mono_right (Activation.slots_mono (Nat.zero_le _) hlen)) hreached hsp hfp state
      obtain ⟨calls, state', m', hrun, hreached', hsp', hfp', hsame', hcount, hcalls⟩ :=
        ih (done ++ [arg]) (by simp [hargs]) (by simpa using hrest) hsp₁ hfp₁ state₁
      rw [List.length_append, List.length_singleton, memory_leave] at hsame' hcalls
      refine ⟨call :: calls, state', m', ?_, hreached', hsp', hfp', ?_, ?_, ?_⟩
      · have hturns : 10 * (arg :: rest).length = 10 + 10 * rest.length := by
          rw [List.length_cons]
          omega
        rw [hturns]
        exact hconfined.trans hrun
      · have hlater : kept \ a.slots done.length a.args.length ⊆
            kept \ a.slots (done.length + 1) a.args.length :=
          Set.sdiff_subset_sdiff_right (Activation.slots_mono (Nat.le_succ _) (Nat.le_refl _))
        have hfirst : kept \ a.slots done.length a.args.length ⊆
            kept \ a.slots done.length (done.length + 1) :=
          Set.sdiff_subset_sdiff_right (Activation.slots_mono (Nat.le_refl _) hlen)
        exact (hsame'.mono hlater).trans (hsame.mono hfirst)
      · rw [List.length_cons, List.length_cons, hcount]
      · rintro (_ | j) other arg' hcall harg
        -- The slot of this call is apart from those of the later ones.
        · rw [List.getElem?_cons_zero, Option.some.injEq] at hcall harg
          subst hcall harg
          refine ⟨hconverting, ⟨state, state₁, hok⟩, ?_, hsame'.mono ?_⟩
          · rw [hentered]
            exact Set.eqOn_refl _ _
          · exact Set.subset_sdiff.mpr ⟨Set.inter_subset_left,
              (Activation.disjoint_slots (Nat.le_refl _)).mono_left Set.inter_subset_right⟩
        · have hindex : done.length + 1 + j = done.length + (j + 1) := by omega
          rw [List.getElem?_cons_succ] at hcall harg
          have hconverted := hcalls j other arg' hcall harg
          rw [hindex] at hconverted
          exact hconverted.earlier (by omega) hsame

end

end Thunk

end CallBridge

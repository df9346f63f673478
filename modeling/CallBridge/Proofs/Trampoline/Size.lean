import CallBridge.Proofs.Reach
import Mathlib.Order.Bounds.Basic

/-!
# The size of a trampoline

The code of a trampoline has the size that its layout says (`length_unchecked_statements`), so a
trampoline is built wherever its layout is accepted (`build_of_ofSignature`), and both sizes of a
layout can be read off the places of the arguments (`code_fits_layout`). Every signature that has a
thunk has a trampoline: the thunk's frame is the larger one, and its reach bounds both the frame and
the array of the trampoline (`exists_layout_of_thunk`).
-/

namespace CallBridge

namespace Trampoline

open TrampolineLayout

variable {sig : Signature} {stringCtor : Bool} {layout : TrampolineLayout} {cursor : Cursor}

/-! ## Code -/

theorem length_unchecked_loadArg (offset : Nat) (location : Location) :
    ((loadArg offset location).flatMap Statement.unchecked).length = argInsns location := by
  cases location <;> rfl

theorem length_unchecked_loadArgs (params : List PlacedArg) :
    ((loadArgs params).flatMap Statement.unchecked).length = argsInsns params := by
  have hfrom (k : Nat) :
      ((loadArgsFrom k params).flatMap Statement.unchecked).length = argsInsns params := by
    induction params generalizing k with
    | nil => rfl
    | cons param rest ih =>
        rw [loadArgsFrom_cons, List.flatMap_append, List.length_append, ih,
          length_unchecked_loadArg, argsInsns]
  exact hfrom 0

theorem length_unchecked_storeResult (layout : TrampolineLayout) :
    ((storeResult layout).flatMap Statement.unchecked).length = returnInsns layout.ret := by
  unfold storeResult
  cases layout.ret <;> rfl

theorem length_unchecked_statements (layout : TrampolineLayout) :
    ((statements layout).flatMap Statement.unchecked).length =
      fixedInsns + layout.receiver.toNat + argsInsns layout.params + returnInsns layout.ret := by
  have hreceiver : ((loadReceiver layout).flatMap Statement.unchecked).length =
      layout.receiver.toNat := by
    unfold loadReceiver
    cases layout.receiver <;> rfl
  have hentry : ((frameEntry layout.frameSize).flatMap Statement.unchecked).length = 5 := rfl
  have hsave : ((saveOperands layout).flatMap Statement.unchecked).length = 3 := rfl
  have hcall : ([Statement.mtlr 0, .blrl].flatMap Statement.unchecked).length = 2 := rfl
  have hreturn : (frameReturn.flatMap Statement.unchecked).length = 6 := rfl
  simp only [statements, List.flatMap_append, List.length_append, hentry, hsave, hreceiver,
    length_unchecked_loadArgs, hcall, length_unchecked_storeResult, hreturn, fixedInsns]
  omega

theorem codeSize_of_ofSignature (h : ofSignature sig stringCtor = .ok layout) :
    layout.codeSize = codeSizeOf layout.receiver layout.params layout.ret := by
  obtain ⟨⟨params, cursor⟩, -, h⟩ := bind_eq_ok_iff.mp h
  obtain ⟨ret, -, h⟩ := bind_eq_ok_iff.mp h
  dsimp only at h
  split at h
  · cases h
  · cases h
    rfl

theorem length_code_of_ofSignature (h : ofSignature sig stringCtor = .ok layout) :
    (Stub.code ⟨(statements layout).flatMap Statement.unchecked, layout.frameSize⟩).length =
      layout.codeSize := by
  rw [Stub.code, length_codeOf, length_unchecked_statements, codeSize_of_ofSignature h,
    codeSizeOf, insnSize, Nat.mul_comm]

/-- A trampoline is built where its layout is accepted: all operands fit, and the code has the size
that was reckoned for it. -/
theorem build_of_ofSignature (h : ofSignature sig stringCtor = .ok layout) :
    build sig stringCtor =
      .ok ⟨(statements layout).flatMap Statement.unchecked, layout.frameSize⟩ := by
  obtain ⟨cursor, hlaid⟩ := laid_of_ofSignature h
  have hsize := length_code_of_ofSignature h
  rw [build, h, mapError_ok, ok_bind, ofStatements_of_valid hlaid.valid, ok_bind]
  simp only [hsize, ne_eq, not_true, if_false]
  rfl

/-! ## Sizes by places -/

/-- The place is one register. -/
def inRegister : Location → Bool
  | .general _ | .float _ => true
  | .pair _ | .stack _ => false

theorem argsInsns_eq (params : List PlacedArg) :
    argsInsns params = params.countP (inRegister ·.location) +
      2 * params.countP (!inRegister ·.location) := by
  induction params with
  | nil => rfl
  | cons param rest ih =>
      rw [argsInsns, ih, List.countP_cons, List.countP_cons]
      cases param.location with
      | general | float => simp only [argInsns, inRegister]; grind
      | pair | stack => simp only [argInsns, inRegister]; grind

theorem isLeast_align16 (n : Nat) : IsLeast {size | 16 ∣ size ∧ n ≤ size} (align16 n) :=
  ⟨⟨dvd_align16 n, le_align16 n⟩, fun _ hsize => align16_le hsize.1 hsize.2⟩

theorem returnInsns_eq (ret : ReturnClass) : returnInsns ret * insnSize =
    if ret = .void then 0 else if ret = .wide then 12 else 8 := by
  cases ret <;> rfl

/-- A layout and the code made for it agree: the code has just as many bytes as the layout says, so
no trampoline fails for its size. That size counts the receiver, the arguments by the kind of their
places and the result, and the frame is the least aligned one with room for the stack arguments. -/
theorem code_fits_layout (sig : Signature) (stringCtor : Bool) :
    (∀ layout, ofSignature sig stringCtor = .ok layout →
      (∃ cursor, sig.placement = .ok (layout.params, cursor)) ∧
      ReturnClass.ofKind stringCtor sig.ret = .ok layout.ret ∧
      (∃ stub, Stub.ofStatements (statements layout) layout.frameSize = .ok stub ∧
        stub.code.length = layout.codeSize ∧ build sig stringCtor = .ok stub) ∧
      layout.codeSize = 64 + (if sig.receiver then 4 else 0) +
        4 * layout.params.countP (inRegister ·.location) +
        8 * layout.params.countP (!inRegister ·.location) +
        (if layout.ret = .void then 0 else if layout.ret = .wide then 12 else 8) ∧
      IsLeast {size | 16 ∣ size ∧ 20 + 4 * layout.params.countP (·.location.isStack) ≤ size}
        layout.frameSize) ∧
    ∀ what computed emitted,
      build sig stringCtor ≠ .error (.layoutInconsistency what computed emitted) := by
  constructor
  · intro layout hlayout
    obtain ⟨cursor, hlaid⟩ := laid_of_ofSignature hlayout
    have hbuild := build_of_ofSignature hlayout
    refine ⟨⟨cursor, hlaid.placement⟩, hlaid.ret,
      ⟨_, ofStatements_of_valid hlaid.valid layout.frameSize,
        length_code_of_ofSignature hlayout, hbuild⟩, ?_, ?_⟩
    · have hreceiver : sig.receiver.toNat * insnSize = if sig.receiver then 4 else 0 := by
        cases sig.receiver <;> rfl
      rw [codeSize_of_ofSignature hlayout, codeSizeOf, Nat.add_mul, Nat.add_mul, Nat.add_mul,
        returnInsns_eq, argsInsns_eq, hlaid.receiver, hreceiver, fixedInsns, insnSize]
      omega
    · have hstack : cursor.stack = 4 * layout.params.countP (·.location.isStack) :=
        hlaid.places.1.stack_eq.trans (Nat.zero_add _)
      rw [hlaid.frameSize, hstack]
      exact isLeast_align16 _
  · intro what computed emitted h
    cases hlayout : ofSignature sig stringCtor with
    | error cause =>
        rw [build, hlayout, mapError_error] at h
        cases h
    | ok layout =>
        rw [build_of_ofSignature hlayout] at h
        cases h

/-- A receiver, three pairs, a word and a float in registers, a word on the stack and a wide
result. -/
theorem code_fits_layout_mixed : ∃ stub, build mixedSignature false = .ok stub ∧
    stub.code.length = 64 + 4 + 4 * 2 + 8 * 4 + 12 ∧
    IsLeast {size | 16 ∣ size ∧ 20 + 4 * 1 ≤ size} stub.frameSize := by
  obtain ⟨layout, hlayout⟩ := exists_of_isOk
    (show (ofSignature mixedSignature false).isOk = true by decide +kernel)
  obtain ⟨⟨cursor, hplacement⟩, hret, ⟨stub, hstub, hlength, hbuild⟩, hcode, hframe⟩ :=
    (code_fits_layout mixedSignature false).1 layout hlayout
  obtain ⟨hparams, -⟩ := Prod.mk.inj (Except.ok.inj (hplacement.symm.trans
    (show mixedSignature.placement = .ok ([⟨.word 4, .general 1⟩, ⟨.wide, .pair 2⟩,
      ⟨.wide, .pair 4⟩, ⟨.wide, .pair 6⟩, ⟨.word 1, .stack 0⟩, ⟨.double, .float 0⟩],
      ⟨8, 1, 4⟩) by decide)))
  have hwide : layout.ret = .wide := Except.ok.inj (hret.symm.trans (by decide))
  obtain ⟨-, rfl⟩ := ofStatements_eq_ok_iff.mp hstub
  refine ⟨_, hbuild, ?_, ?_⟩
  · rw [hlength, hcode, hparams, hwide]
    rfl
  · rw [hparams] at hframe
    exact hframe

/-! ## Signatures with a thunk -/

/-- Where the layout of a thunk is accepted that of a trampoline is, too, and the arguments and the
result have the same places. -/
theorem exists_layout_of_thunk {layout : ThunkLayout} (h : Thunk.Laid sig layout cursor) :
    ∃ layout' : TrampolineLayout, ofSignature sig false = .ok layout' ∧
      layout'.params = layout.params ∧ layout'.ret = layout.ret := by
  obtain ⟨hretval, hgeneral, hfloat, hsize⟩ := h.sizes
  have hreach := h.reach
  have hlength := h.places.2.1
  have halign : align16 (fixedFrame + cursor.stack) ≤ 32752 :=
    align16_le (by decide) (by rw [fixedFrame]; omega)
  have hfits : ¬maxDisplacement < reachOf (align16 (fixedFrame + cursor.stack))
      layout.params.length := by
    rw [reachOf, maxDisplacement, taggedSize]
    omega
  refine ⟨⟨align16 (fixedFrame + cursor.stack),
    codeSizeOf sig.receiver layout.params layout.ret, sig.receiver, layout.params, layout.ret⟩,
    ?_, rfl, rfl⟩
  simp only [ofSignature, h.placement, h.ret, bind, Except.bind, if_neg hfits]
  rfl

end Trampoline

end CallBridge

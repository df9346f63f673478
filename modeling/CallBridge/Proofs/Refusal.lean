import CallBridge.Proofs.Acceptance
import CallBridge.Proofs.Assembler
import CallBridge.Proofs.EnumChains

/-!
# Refused for reach

A layout reaches to the end of what its code uses, and is refused if that end lies beyond the
largest displacement. The code itself never goes to the end, but to the start of the last word or
tagged value before it. So a signature whose layout reaches just one byte too far is refused
although every displacement of its stub would fit, and this is the only such case
(`refused_for_reach`).
-/

namespace CallBridge

/-! ## Code out of reach -/

/-- A displacement or signed immediate of the code does not fit. -/
def Overreaches (code : List Statement) : Prop :=
  ∃ s ∈ code, ∃ d ∈ s.displacements, ¬Statement.InRange d

theorem Statement.Valid.inRange {s : Statement} (h : s.Valid) :
    ∀ d ∈ s.displacements, InRange d := by
  cases s with
  | addi | transfer => exact List.forall_mem_singleton.mpr h.2.2
  | li => exact List.forall_mem_singleton.mpr h.2
  | _ => exact List.forall_mem_nil _

theorem not_overreaches {code : List Statement} (h : ∀ s ∈ code, s.Valid) : ¬Overreaches code := by
  rintro ⟨s, hs, d, hd, hout⟩
  exact hout ((h s hs).inRange d hd)

theorem Overreaches.append_left {code : List Statement} (h : Overreaches code)
    (rest : List Statement) : Overreaches (code ++ rest) := by
  obtain ⟨s, hs, hout⟩ := h
  exact ⟨s, List.mem_append_left rest hs, hout⟩

/-- The link register word above the frame is too far away. -/
theorem overreaches_frameEntry {S : Nat} (h : 32767 < S + 4) : Overreaches (frameEntry S) := by
  refine ⟨.transfer .stw 0 (S + 4) stackPointer, by simp [frameEntry], S + 4,
    List.mem_singleton_self _, ?_⟩
  rintro ⟨-, hhigh⟩
  omega

/-! ## Layouts, however far they reach -/

/-- The layout of a trampoline, without the check of its reach. -/
def TrampolineLayout.planned (receiver : Bool) (p : Passing) : TrampolineLayout where
  frameSize := align16 (fixedFrame + p.cursor.stack)
  codeSize := codeSizeOf receiver p.params p.ret
  receiver
  params := p.params
  ret := p.ret

/-- The layout of a thunk, without the check of its reach. -/
def ThunkLayout.planned (p : Passing) : ThunkLayout :=
  let retval := argSlot p.params.length
  let generalSpill := retval + taggedSize
  let floatSpill := generalSpill + generalSlots * 4
  { frameSize := align16 (floatSpill + floatSlots * 8 + 4), retval, generalSpill, floatSpill,
    params := p.params, ret := p.ret }

def TrampolineLayout.reach (layout : TrampolineLayout) : Nat :=
  reachOf layout.frameSize layout.params.length

def ThunkLayout.reach (layout : ThunkLayout) (cursor : Cursor) : Nat :=
  layout.frameSize + paramArea + cursor.stack

theorem TrampolineLayout.ofPassing_eq (receiver : Bool) (p : Passing) :
    ofPassing receiver p =
      if maxDisplacement < (planned receiver p).reach then
        .error (.frameTooLarge (planned receiver p).reach)
      else .ok (planned receiver p) := rfl

theorem ThunkLayout.ofPassing_eq (p : Passing) :
    ofPassing p =
      if maxDisplacement < (planned p).reach p.cursor then
        .error (.frameTooLarge ((planned p).reach p.cursor))
      else .ok (planned p) := rfl

variable {sig : Signature} {stringCtor : Bool} {p : Passing} {cursor : Cursor} {size : Nat}

theorem Signature.passing_eq_ok_iff :
    sig.passing stringCtor = .ok p ↔ sig.placement = .ok (p.params, p.cursor) ∧
      ReturnClass.ofKind stringCtor sig.ret = .ok p.ret := by
  rw [passing, bind_eq_ok_iff]
  constructor
  · rintro ⟨⟨params, cursor⟩, hplacement, h⟩
    obtain ⟨ret, hret, h⟩ := bind_eq_ok_iff.mp h
    cases h
    exact ⟨hplacement, hret⟩
  · rintro ⟨hplacement, hret⟩
    exact ⟨_, hplacement, bind_eq_ok_iff.mpr ⟨_, hret, rfl⟩⟩

/-! ## Trampolines -/

namespace Trampoline

variable {layout : TrampolineLayout}

theorem planned_of_passing (h : sig.passing stringCtor = .ok p) :
    Planned sig stringCtor (TrampolineLayout.planned sig.receiver p) p.cursor := by
  obtain ⟨hplacement, hret⟩ := Signature.passing_eq_ok_iff.mp h
  exact ⟨hplacement, hret, rfl, rfl⟩

/-- The code that loads an argument goes to its offset in the array. -/
theorem overreaches_loadArg {offset : Nat} (h : 32767 < offset) (location : Location) :
    Overreaches (loadArg offset location) := by
  have hout : ¬Statement.InRange offset := by
    rintro ⟨-, hhigh⟩
    omega
  cases location <;>
    exact ⟨_, List.mem_cons_self, offset, List.mem_singleton_self _, hout⟩

theorem overreaches_loadArgs {params : List PlacedArg} (h : 32768 < params.length * taggedSize) :
    Overreaches (loadArgs params) := by
  rw [taggedSize] at h
  have hlast : params.length - 1 < params.length := by omega
  obtain ⟨s, hs, hout⟩ := overreaches_loadArg
    (show 32767 < (params.length - 1) * taggedSize by rw [taggedSize]; omega)
    params[params.length - 1].location
  refine ⟨s, List.mem_flatMap.mpr ⟨(params[params.length - 1], params.length - 1), ?_, hs⟩, hout⟩
  exact List.mem_zipIdx_iff_getElem?.mpr (List.getElem?_eq_getElem hlast)

/-- The frame is aligned, so that the link register word above it is never just out of reach, and
the last argument is loaded from the start of its tagged value. -/
theorem Planned.overreaches_iff (h : Planned sig stringCtor layout cursor) :
    Overreaches (statements layout) ↔ maxDisplacement + 1 < layout.reach := by
  have halign : 16 ∣ layout.frameSize := by
    rw [h.frameSize]
    exact dvd_align16 _
  rw [TrampolineLayout.reach, TrampolineLayout.reachOf, maxDisplacement]
  constructor
  · intro hout
    by_contra hreach
    exact not_overreaches (h.valid (by omega) (by omega)) hout
  · intro hreach
    by_cases hframe : 32767 < layout.frameSize + 4
    · simp only [statements, List.append_assoc]
      exact (overreaches_frameEntry hframe).append_left _
    · have harray : 32768 < layout.params.length * taggedSize := by omega
      obtain ⟨s, hs, hout⟩ := overreaches_loadArgs harray
      refine ⟨s, ?_, hout⟩
      simp only [statements, List.mem_append]
      tauto

end Trampoline

/-! ## Thunks -/

namespace Thunk

variable {layout : ThunkLayout} {method : Method} {param : PlacedArg}

theorem planned_of_passing (h : sig.passing false = .ok p) :
    Planned sig (ThunkLayout.planned p) p.cursor := by
  obtain ⟨hplacement, hret⟩ := Signature.passing_eq_ok_iff.mp h
  have hlength := (places_of_placeFrom hplacement).2.1
  exact ⟨hplacement, hret, congrArg ThunkLayout.argSlot hlength, rfl, rfl, rfl⟩

theorem home_le_source (layout : ThunkLayout) (param : PlacedArg) :
    layout.home param.location ≤ layout.source param := by
  unfold ThunkLayout.source
  split <;> omega

/-- The code that converts the arguments goes to the home of each. -/
theorem overreaches_convertArgs (hlength : layout.params.length = sig.params.length)
    (hparam : param ∈ layout.params) (h : 32767 < layout.home param.location) (convert : Word) :
    Overreaches (convertArgs layout convert sig) := by
  have hsource := home_le_source layout param
  obtain ⟨i, hi, rfl⟩ := List.getElem_of_mem hparam
  have hi' : i < (sig.params.zip layout.params).length := by
    rw [List.length_zip]
    omega
  refine ⟨.addi 4 framePointer (layout.source layout.params[i]), ?_, layout.source layout.params[i],
    List.mem_singleton_self _, ?_⟩
  · refine List.mem_flatMap.mpr ⟨((sig.params.zip layout.params)[i], i),
      List.mem_zipIdx_iff_getElem?.mpr (List.getElem?_eq_getElem hi'), ?_⟩
    simp [convertArg]
  · rintro ⟨-, hhigh⟩
    omega

/-- Beyond the frame and the link register word the code goes to the start of the last stack
word. -/
theorem Planned.overreaches_iff (h : Planned method.signature layout cursor)
    (entryPoints : EntryPoints) :
    Overreaches (statements method entryPoints layout) ↔
      maxDisplacement + 1 < layout.reach cursor := by
  have halign : 16 ∣ layout.frameSize := by
    rw [h.frameSize]
    exact dvd_align16 _
  have hwords : cursor.stack = 4 * layout.params.countP (·.location.isStack) :=
    h.places.1.stack_eq.trans (Nat.zero_add _)
  rw [ThunkLayout.reach, maxDisplacement, paramArea]
  constructor
  · intro hout
    by_contra hreach
    exact not_overreaches (h.valid (by omega) entryPoints) hout
  · intro hreach
    by_cases hframe : 32767 < layout.frameSize + 4
    · simp only [statements, List.append_assoc]
      exact (overreaches_frameEntry hframe).append_left _
    · have hmoved : 0 < cursor.stack := by omega
      obtain ⟨param, hparam, hlocation⟩ := h.places.1.exists_stack hmoved
      have hhome : 32767 < layout.home param.location := by
        rw [hlocation, ThunkLayout.home, paramArea]
        omega
      obtain ⟨s, hs, hout⟩ :=
        overreaches_convertArgs h.places.2.1 hparam hhome entryPoints.convert
      refine ⟨s, ?_, hout⟩
      simp only [statements, List.mem_append]
      tauto

end Thunk

/-! ## Who refuses for reach -/

theorem Kind.underlying_ne_frameTooLarge (k : Kind) :
    k.underlying ≠ .error (.frameTooLarge size) := by
  rw [underlying_eq]
  split_ifs <;> nofun

theorem ArgClass.ofKind_ne_frameTooLarge (position : Nat) (kind : Kind) :
    ofKind position kind ≠ .error (.frameTooLarge size) := by
  intro h
  cases kind with
  | byRef target => cases h
  | primitive _ | enum _ | valueType _ =>
      obtain h | ⟨core, -, h⟩ := bind_eq_error_iff.mp h
      · exact Kind.underlying_ne_frameTooLarge _ h
      · split at h
        · split at h <;> cases h
        · cases h
        · cases h

theorem ReturnClass.ofKind_ne_frameTooLarge (stringCtor : Bool) (kind : Kind) :
    ofKind stringCtor kind ≠ .error (.frameTooLarge size) := by
  intro h
  unfold ofKind at h
  split at h
  · cases h
  · split at h
    · cases h
    · obtain h | ⟨core, -, h⟩ := bind_eq_error_iff.mp h
      · exact Kind.underlying_ne_frameTooLarge _ h
      · split at h <;> cases h

theorem Cursor.place_ne_frameTooLarge (c : Cursor) (position : Nat) (argClass : ArgClass) :
    c.place position argClass ≠ .error (.frameTooLarge size) := by
  cases argClass <;> unfold place <;> dsimp only <;> split <;> nofun

theorem placeFrom_ne_frameTooLarge (c : Cursor) (position : Nat) (params : List Parameter) :
    placeFrom c position params ≠ .error (.frameTooLarge size) := by
  induction params generalizing c position with
  | nil => nofun
  | cons param params ih =>
      intro h
      obtain h | ⟨argClass, -, h⟩ := bind_eq_error_iff.mp h
      · exact ArgClass.ofKind_ne_frameTooLarge _ _ h
      obtain h | ⟨⟨location, c₁⟩, -, h⟩ := bind_eq_error_iff.mp h
      · exact Cursor.place_ne_frameTooLarge _ _ _ h
      obtain h | ⟨⟨rest, c₂⟩, -, h⟩ := bind_eq_error_iff.mp h
      · exact ih _ _ h
      · cases h

/-- Placing and classifying never fail for reach, so a layout that does was planned. -/
theorem Signature.exists_passing {α : Type} {check : Passing → Except Unsupported α}
    (h : sig.passing stringCtor >>= check = .error (.frameTooLarge size)) :
    ∃ p, sig.passing stringCtor = .ok p ∧ check p = .error (.frameTooLarge size) := by
  obtain h | h := bind_eq_error_iff.mp h
  · obtain h | ⟨placed, -, h⟩ := bind_eq_error_iff.mp h
    · exact absurd h (placeFrom_ne_frameTooLarge _ _ _)
    obtain h | ⟨ret, -, h⟩ := bind_eq_error_iff.mp h
    · exact absurd h (ReturnClass.ofKind_ne_frameTooLarge _ _)
    · cases h
  · exact h

theorem check_eq_frameTooLarge {α : Type} {reach : Nat} {layout : α}
    (h : (if maxDisplacement < reach then .error (.frameTooLarge reach) else .ok layout :
      Except Unsupported α) = .error (.frameTooLarge size)) :
    maxDisplacement < size ∧ reach = size := by
  split at h
  · cases h
    exact ⟨‹_›, rfl⟩
  · cases h

/-- A signature is refused for the reach of its stub where a displacement or an immediate of that
stub's code would not fit, and in one case more: where the layout reaches just a byte beyond the
largest displacement, everything would fit. -/
theorem refused_for_reach (sig : Signature) :
    (∀ stringCtor size,
      TrampolineLayout.ofSignature sig stringCtor = .error (.frameTooLarge size) →
        maxDisplacement < size ∧ ∃ p, sig.passing stringCtor = .ok p ∧
          (Overreaches (Trampoline.statements (TrampolineLayout.planned sig.receiver p)) ↔
            size ≠ maxDisplacement + 1)) ∧
    ∀ size, ThunkLayout.ofSignature sig = .error (.frameTooLarge size) →
      maxDisplacement < size ∧ ∃ p, sig.passing false = .ok p ∧
        ∀ handle entryPoints,
          (Overreaches (Thunk.statements ⟨handle, sig⟩ entryPoints (ThunkLayout.planned p)) ↔
            size ≠ maxDisplacement + 1) := by
  constructor
  · intro stringCtor size h
    rw [TrampolineLayout.ofSignature_eq] at h
    obtain ⟨p, hpassing, h⟩ := Signature.exists_passing h
    rw [TrampolineLayout.ofPassing_eq] at h
    obtain ⟨hsize, hreach⟩ := check_eq_frameTooLarge h
    refine ⟨hsize, p, hpassing, ?_⟩
    rw [(Trampoline.planned_of_passing hpassing).overreaches_iff, hreach]
    omega
  · intro size h
    rw [ThunkLayout.ofSignature_eq] at h
    obtain ⟨p, hpassing, h⟩ := Signature.exists_passing h
    rw [ThunkLayout.ofPassing_eq] at h
    obtain ⟨hsize, hreach⟩ := check_eq_frameTooLarge h
    refine ⟨hsize, p, hpassing, fun handle entryPoints => ?_⟩
    have hplanned : Thunk.Planned (Method.mk handle sig).signature _ p.cursor :=
      Thunk.planned_of_passing hpassing
    rw [hplanned.overreaches_iff, hreach]
    omega

/-- So many words and no result. -/
def wordsSignature (count : Nat) : Signature where
  params := List.replicate count { kind := .primitive .int32 }
  receiver := false
  ret := .primitive .void
  pinvoke := false

/-- The caller's stack arguments end just beyond the largest displacement of a thunk. -/
def stackSignature : Signature where
  params := List.replicate 2 { kind := .primitive .float64 } ++
    List.replicate 1630 { kind := .primitive .int32 }
  receiver := false
  ret := .primitive .void
  pinvoke := false

/-- With 2048 words the array of tagged arguments ends just beyond the largest displacement. -/
theorem refused_for_reach_by_one :
    (TrampolineLayout.ofSignature (wordsSignature 2048) false = .error (.frameTooLarge 32768) ∧
      ∃ p, (wordsSignature 2048).passing false = .ok p ∧
        ¬Overreaches (Trampoline.statements (TrampolineLayout.planned false p))) ∧
    (ThunkLayout.ofSignature stackSignature = .error (.frameTooLarge 32768) ∧
      ∃ p, stackSignature.passing false = .ok p ∧ ∀ handle entryPoints,
        ¬Overreaches (Thunk.statements ⟨handle, stackSignature⟩ entryPoints
          (ThunkLayout.planned p))) ∧
    TrampolineLayout.ofSignature (wordsSignature 2049) false = .error (.frameTooLarge 32784) ∧
      ∃ p, (wordsSignature 2049).passing false = .ok p ∧
        Overreaches (Trampoline.statements (TrampolineLayout.planned false p)) := by
  have harray : TrampolineLayout.ofSignature (wordsSignature 2048) false =
      .error (.frameTooLarge 32768) := by decide +kernel
  have hstack : ThunkLayout.ofSignature stackSignature = .error (.frameTooLarge 32768) := by
    decide +kernel
  have hfar : TrampolineLayout.ofSignature (wordsSignature 2049) false =
      .error (.frameTooLarge 32784) := by decide +kernel
  obtain ⟨-, p, hpassing, hiff⟩ := (refused_for_reach (wordsSignature 2048)).1 false 32768 harray
  obtain ⟨-, p', hpassing', hiff'⟩ := (refused_for_reach stackSignature).2 32768 hstack
  obtain ⟨-, p'', hpassing'', hiff''⟩ :=
    (refused_for_reach (wordsSignature 2049)).1 false 32784 hfar
  exact ⟨⟨harray, p, hpassing, fun hout => hiff.mp hout rfl⟩,
    ⟨hstack, p', hpassing', fun handle entryPoints hout =>
      (hiff' handle entryPoints).mp hout rfl⟩,
    hfar, p'', hpassing'', hiff''.mpr (by decide)⟩

end CallBridge

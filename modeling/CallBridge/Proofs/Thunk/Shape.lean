import CallBridge.Proofs.Independence
import CallBridge.Proofs.Reduction

/-!
# The shape of a thunk

A thunk's code is made of what the receiver and the classes of its arguments and its result ask for,
and of constants that are burned into it: the handle, the descriptors, the functions that it calls
and the choice of sizes. Every constant has its place whatever its value is, so thunks of one shape
are the same but for the immediates that load constants (`code_shaped_by_classes`). That is said of
the statements first, piece by piece (`Thunk.LoadsAlike`), and carried over to the words of the code
once (`Thunk.LoadsAlike.unchecked`).
-/

namespace CallBridge

/-! ## Signatures of one shape -/

/-- The class of a parameter, if it has one. It is the same at every position. -/
def Parameter.argClass? (p : Parameter) : Option ArgClass :=
  (ArgClass.ofKind 0 p.kind).toOption

/-- The receiver and all classes are the same, or missing in the same places. -/
structure Signature.SameShape (sig sig' : Signature) : Prop where
  receiver : sig.receiver = sig'.receiver
  params : sig.params.map Parameter.argClass? = sig'.params.map Parameter.argClass?
  ret : (ReturnClass.ofKind false sig.ret).toOption = (ReturnClass.ofKind false sig'.ret).toOption

theorem Parameter.argClass?_eq_some_iff {p : Parameter} {argClass : ArgClass} (position : Nat) :
    p.argClass? = some argClass ↔ ArgClass.ofKind position p.kind = .ok argClass := by
  rw [argClass?, toOption_eq_some_iff]
  exact ⟨fun h => ArgClass.ofKind_ok h position, fun h => ArgClass.ofKind_ok h 0⟩

theorem Signature.SameShape.symm {sig sig' : Signature} (h : sig.SameShape sig') :
    sig'.SameShape sig :=
  ⟨h.receiver.symm, h.params.symm, h.ret.symm⟩

theorem placeFrom_of_classes {params params' : List Parameter} {c c' : Cursor} {position : Nat}
    {placed : List PlacedArg}
    (hclasses : params.map Parameter.argClass? = params'.map Parameter.argClass?)
    (h : placeFrom c position params = .ok (placed, c')) :
    placeFrom c position params' = .ok (placed, c') := by
  induction params generalizing c position placed params' with
  | nil =>
      obtain rfl := List.map_eq_nil_iff.mp hclasses.symm
      exact h
  | cons p params ih =>
      obtain ⟨p', params', rfl, hclass, hrest⟩ := List.map_eq_cons_iff.mp hclasses.symm
      obtain ⟨argClass, location, c₁, rest, hp, hplace, hplaced, rfl⟩ := placeFrom_cons.mp h
      have hp' : ArgClass.ofKind position p'.kind = .ok argClass :=
        (Parameter.argClass?_eq_some_iff position).mp
          (hclass.trans ((Parameter.argClass?_eq_some_iff position).mpr hp))
      exact placeFrom_cons.mpr
        ⟨argClass, location, c₁, rest, hp', hplace, ih hrest.symm hplaced, rfl⟩

/-- A signature's layout is that of every other signature of the same shape. -/
theorem Signature.SameShape.layout {sig sig' : Signature} (h : sig.SameShape sig')
    {layout : ThunkLayout} (hlayout : ThunkLayout.ofSignature sig = .ok layout) :
    ThunkLayout.ofSignature sig' = .ok layout := by
  rw [ThunkLayout.ofSignature_eq] at hlayout ⊢
  obtain ⟨p, hpassing, hlaid⟩ := bind_eq_ok_iff.mp hlayout
  obtain ⟨⟨placed, c⟩, hplacement, hpassing⟩ := bind_eq_ok_iff.mp hpassing
  obtain ⟨ret, hret, hp⟩ := bind_eq_ok_iff.mp hpassing
  have hplacement' : sig'.placement = .ok (placed, c) := by
    rw [placement, ← h.receiver]
    exact placeFrom_of_classes h.params hplacement
  have hret' : ReturnClass.ofKind false sig'.ret = .ok ret :=
    toOption_eq_some_iff.mp (h.ret.symm.trans (toOption_eq_some_iff.mpr hret))
  refine bind_eq_ok_iff.mpr ⟨p, bind_eq_ok_iff.mpr ⟨_, hplacement', ?_⟩, hlaid⟩
  exact bind_eq_ok_iff.mpr ⟨ret, hret', hp⟩

namespace Thunk

/-! ## Constants -/

/-- The words that are burned into a thunk. -/
inductive Constant
  | handle
  /-- The descriptor of a parameter. -/
  | descriptor (index : Nat)
  | convert
  | interpret

/-- All that is burned into a thunk. -/
structure Constants where
  word : Constant → Word
  pinvoke : Bool

def constants (method : Method) (entryPoints : EntryPoints) : Constants where
  word
    | .handle => method.handle
    | .descriptor index => (method.signature.params.map Parameter.descriptor).getD index 0
    | .convert => entryPoints.convert
    | .interpret => entryPoints.interpret
  pinvoke := method.signature.pinvoke

/-- Two words of code are the same, or they load the same half of the same constant into the same
register, or they load the choice of sizes. -/
inductive WordsAlike (v v' : Constants) : Insn → Insn → Prop
  | same (i : Insn) : WordsAlike v v' i i
  | high (rd : Reg) (c : Constant) : WordsAlike v v'
      (.addis rd r0 ((v.word c).extractLsb' 16 16)) (.addis rd r0 ((v'.word c).extractLsb' 16 16))
  | low (rd : Reg) (c : Constant) : WordsAlike v v'
      (.ori rd rd ((v.word c).extractLsb' 0 16)) (.ori rd rd ((v'.word c).extractLsb' 0 16))
  | pinvoke : WordsAlike v v' (.addi r6 r0 (BitVec.ofNat 16 v.pinvoke.toNat))
      (.addi r6 r0 (BitVec.ofNat 16 v'.pinvoke.toNat))

/-- Two statements are the same or load the same constant into the same register. -/
inductive LoadsAlike (v v' : Constants) : Statement → Statement → Prop
  | same (s : Statement) : LoadsAlike v v' s s
  | word (rd : Nat) (c : Constant) :
      LoadsAlike v v' (.loadWord rd (v.word c)) (.loadWord rd (v'.word c))
  | pinvoke : LoadsAlike v v' (.li 6 v.pinvoke.toNat) (.li 6 v'.pinvoke.toNat)

variable {v v' : Constants}

/-- A constant takes as many words as any other. -/
theorem LoadsAlike.unchecked {s s' : Statement} (h : LoadsAlike v v' s s') :
    List.Forall₂ (WordsAlike v v') s.unchecked s'.unchecked := by
  cases h with
  | same s => exact List.forall₂_same.mpr fun i _ => .same i
  | word rd c => exact .cons (.high _ c) (.cons (.low _ c) .nil)
  | pinvoke => exact .cons .pinvoke .nil

theorem loadsAlike_refl (code : List Statement) : List.Forall₂ (LoadsAlike v v') code code :=
  List.forall₂_same.mpr fun s _ => .same s

/-! ## Pieces of the code -/

variable {layout : ThunkLayout} {method method' : Method} {entryPoints entryPoints' : EntryPoints}

theorem loadsAlike_call (c : Constant) :
    List.Forall₂ (LoadsAlike v v') (call (v.word c)) (call (v'.word c)) :=
  .cons (.word 0 c) (loadsAlike_refl _)

theorem loadsAlike_fillRecord (layout : ThunkLayout) (c : Constant) :
    List.Forall₂ (LoadsAlike v v') (fillRecord layout (v.word c)) (fillRecord layout (v'.word c)) :=
  .cons (.word 0 c) (loadsAlike_refl _)

theorem loadsAlike_convertArg (layout : ThunkLayout) (index : Nat) (param : PlacedArg)
    (function descriptor : Constant) :
    List.Forall₂ (LoadsAlike v v')
      (convertArg layout (v.word function) v.pinvoke index (v.word descriptor) param)
      (convertArg layout (v'.word function) v'.pinvoke index (v'.word descriptor) param) :=
  .cons (.word 3 descriptor) (.cons (.same _) (.cons (.same _) (.cons .pinvoke
    (loadsAlike_call function))))

variable (entryPoints entryPoints') in
/-- The conversion calls go to the same function with the same offsets, each for its own
descriptor. -/
theorem loadsAlike_convertArgs (layout : ThunkLayout)
    (hlength : method.signature.params.length = method'.signature.params.length) :
    List.Forall₂ (LoadsAlike (constants method entryPoints) (constants method' entryPoints'))
      (convertArgs layout entryPoints.convert method.signature)
      (convertArgs layout entryPoints'.convert method'.signature) := by
  rw [convertArgs_eq, convertArgs_eq]
  refine List.rel_flatMap (R := fun arg arg' => ∃ i placed,
    arg = (((constants method entryPoints).word (.descriptor i), placed), i) ∧
    arg' = (((constants method' entryPoints').word (.descriptor i), placed), i)) ?_ ?_
  · refine List.forall₂_iff_get.mpr ⟨by simp [hlength], fun i hi hi' => ?_⟩
    simp only [List.length_zipIdx, List.length_zip, List.length_map, lt_min_iff] at hi hi'
    refine ⟨i, layout.params[i], ?_, ?_⟩
    · simp [constants, hi.1]
    · simp [constants, hi'.1]
  · rintro _ _ ⟨i, placed, rfl, rfl⟩
    exact loadsAlike_convertArg layout i placed .convert (.descriptor i)

variable (entryPoints entryPoints') in
theorem loadsAlike_statements (layout : ThunkLayout)
    (h : method.signature.SameShape method'.signature) :
    List.Forall₂ (LoadsAlike (constants method entryPoints) (constants method' entryPoints'))
      (statements method entryPoints layout) (statements method' entryPoints' layout) := by
  have hlength : method.signature.params.length = method'.signature.params.length := by
    simpa using congrArg List.length h.params
  rw [statements, statements, h.receiver]
  refine List.rel_append (List.rel_append (List.rel_append (List.rel_append (List.rel_append
    (List.rel_append (loadsAlike_refl _) ?fill) ?convert) (loadsAlike_refl _)) ?interpret)
    (loadsAlike_refl _)) (loadsAlike_refl _)
  case fill => exact loadsAlike_fillRecord layout .handle
  case convert => exact loadsAlike_convertArgs entryPoints entryPoints' layout hlength
  case interpret => exact loadsAlike_call .interpret

/-! ## Words -/

theorem WordsAlike.eq {i i' : Insn} (h : WordsAlike v v i i') : i = i' := by
  cases h <;> rfl

/-- The upper half of a word holds no part of a constant. -/
theorem WordsAlike.upper_eq {i i' : Insn} (h : WordsAlike v v' i i') :
    i.encode.toNat / 65536 = i'.encode.toNat / 65536 := by
  have hupper {opcode : Nat} {first second : Reg} (ho : opcode < 64) (imm : Immediate) :
      (wordOf opcode first second imm.toNat).toNat / 65536 =
        (opcode * 32 + first.val) * 32 + second.val := by
    have := imm.isLt
    rw [toNat_wordOf ho this]
    omega
  cases h with
  | same i => rfl
  | high rd c | low rd c | pinvoke => simp only [Insn.encode, hupper, Nat.reduceLT]

theorem getElem?_bytes_congr {w w' : Word} (h : w.toNat / 65536 = w'.toNat / 65536) {n : Nat}
    (hn : n < 2) : w.bytes[n]? = w'.bytes[n]? := by
  have hfirst : w.toNat / 16777216 = w'.toNat / 16777216 := by omega
  match n, hn with
  | 0, _ => simp [Word.bytes, bytesOf, byteRange, hfirst]
  | 1, _ => simp [Word.bytes, bytesOf, byteRange, h]

theorem getElem?_codeOf_congr {l l' : List Insn} (h : List.Forall₂ (WordsAlike v v') l l') {n : Nat}
    (hn : n % 4 < 2) : (codeOf l)[n]? = (codeOf l')[n]? := by
  induction h generalizing n with
  | nil => rfl
  | cons hword _ ih =>
      rw [codeOf, codeOf, List.flatMap_cons, List.flatMap_cons]
      by_cases hlt : n < 4
      · rw [List.getElem?_append_left (by simpa [Word.bytes] using hlt),
          List.getElem?_append_left (by simpa [Word.bytes] using hlt)]
        exact getElem?_bytes_congr hword.upper_eq (by omega)
      · rw [List.getElem?_append_right (by simpa [Word.bytes] using hlt),
          List.getElem?_append_right (by simpa [Word.bytes] using hlt)]
        simp only [Word.bytes, length_bytesOf]
        exact ih (by omega)

/-! ## Thunks -/

theorem build_eq_ok_iff {thunk : Stub} : build method entryPoints = .ok thunk ↔
    ∃ layout, ThunkLayout.ofSignature method.signature = .ok layout ∧
      thunk = ⟨(statements method entryPoints layout).flatMap Statement.unchecked,
        layout.frameSize⟩ := by
  rw [build_eq, map_eq_ok_iff]
  simp only [mapError_eq_ok_iff, eq_comm (a := thunk)]

theorem exists_build_of_sameShape (h : method.signature.SameShape method'.signature)
    (hbuilt : ∃ thunk, build method entryPoints = .ok thunk) :
    ∃ thunk, build method' entryPoints' = .ok thunk := by
  obtain ⟨thunk, hbuild⟩ := hbuilt
  obtain ⟨layout, hlayout, -⟩ := build_eq_ok_iff.mp hbuild
  exact ⟨_, build_eq_ok_iff.mpr ⟨layout, h.layout hlayout, rfl⟩⟩

/-- Thunks of one shape have one frame, and their words are the same but for constants. -/
theorem wordsAlike_of_sameShape (h : method.signature.SameShape method'.signature)
    {thunk thunk' : Stub} (hbuild : build method entryPoints = .ok thunk)
    (hbuild' : build method' entryPoints' = .ok thunk') : thunk.frameSize = thunk'.frameSize ∧
      List.Forall₂ (WordsAlike (constants method entryPoints) (constants method' entryPoints'))
        thunk.insns thunk'.insns := by
  obtain ⟨layout, hlayout, rfl⟩ := build_eq_ok_iff.mp hbuild
  obtain ⟨layout', hlayout', rfl⟩ := build_eq_ok_iff.mp hbuild'
  obtain rfl := Except.ok.inj ((h.layout hlayout).symm.trans hlayout')
  refine ⟨rfl, ?_⟩
  exact List.rel_flatMap (loadsAlike_statements entryPoints entryPoints' layout h) fun _ _ halike =>
    halike.unchecked

end Thunk

/-- Methods whose receivers and classes agree have thunks of one shape, whatever is burned into
them: both have one or neither has, the codes are equally long, the frames equally large, and the
words are the same but for the immediates of those that load the handle, a descriptor, a function or
the choice of sizes. In each word the first two bytes are always the same, and where the constants
agree too the whole thunks are. A trampoline does not depend on descriptors or on the choice of
sizes. -/
theorem code_shaped_by_classes :
    (∀ (method method' : Method) (entryPoints entryPoints' : EntryPoints),
      method.signature.SameShape method'.signature →
      ((∃ thunk, Thunk.build method entryPoints = .ok thunk) ↔
        ∃ thunk, Thunk.build method' entryPoints' = .ok thunk) ∧
      ∀ thunk thunk', Thunk.build method entryPoints = .ok thunk →
        Thunk.build method' entryPoints' = .ok thunk' →
        thunk.code.length = thunk'.code.length ∧ thunk.frameSize = thunk'.frameSize ∧
        List.Forall₂ (Thunk.WordsAlike (Thunk.constants method entryPoints)
          (Thunk.constants method' entryPoints')) thunk.insns thunk'.insns ∧
        (∀ n, n % 4 < 2 → thunk.code[n]? = thunk'.code[n]?) ∧
        (method.handle = method'.handle →
          method.signature.params.map Parameter.descriptor =
            method'.signature.params.map Parameter.descriptor →
          method.signature.pinvoke = method'.signature.pinvoke → entryPoints = entryPoints' →
          thunk = thunk')) ∧
    ∀ (sig sig' : Signature) (stringCtor : Bool), sig.receiver = sig'.receiver →
      sig.params.map Parameter.kind = sig'.params.map Parameter.kind → sig.ret = sig'.ret →
      Trampoline.build sig stringCtor = Trampoline.build sig' stringCtor := by
  constructor
  · intro method method' entryPoints entryPoints' hshape
    refine ⟨⟨Thunk.exists_build_of_sameShape hshape, Thunk.exists_build_of_sameShape hshape.symm⟩,
      ?_⟩
    intro thunk thunk' hbuild hbuild'
    obtain ⟨hframe, hwords⟩ := Thunk.wordsAlike_of_sameShape hshape hbuild hbuild'
    refine ⟨?_, hframe, hwords, fun n hn => Thunk.getElem?_codeOf_congr hwords hn, ?_⟩
    · rw [Stub.code, Stub.code, length_codeOf, length_codeOf, hwords.length_eq]
    · intro hhandle hdescriptors hpinvoke hentry
      have hconstants : Thunk.constants method entryPoints =
          Thunk.constants method' entryPoints' := by
        simp only [Thunk.constants, hhandle, hdescriptors, hpinvoke, hentry]
      rw [hconstants] at hwords
      have hinsns : thunk.insns = thunk'.insns :=
        List.forall₂_eq_eq_eq ▸ hwords.imp fun _ _ => Thunk.WordsAlike.eq
      cases thunk
      cases thunk'
      exact (Stub.mk.injEq ..).mpr ⟨hinsns, hframe⟩
  · intro sig sig' stringCtor hreceiver hparams hret
    have halike : List.Forall₂ Parameter.Alike sig.params sig'.params := by
      rw [← List.forall₂_eq_eq_eq, List.forall₂_map_left_iff, List.forall₂_map_right_iff] at hparams
      exact hparams.imp fun p p' hkind position => by rw [hkind]
    exact Trampoline.build_congr hreceiver (Signature.passing_congr hreceiver halike (by rw [hret]))

/-- The classes of `plainSignature`, from other kinds and with extreme descriptors. -/
def disguisedSignature : Signature where
  params := [⟨.enum (.primitive .int64), 0⟩, ⟨.byRef (.primitive .int8), 0xffffffff⟩,
    ⟨.enum (.primitive .int16), 0x8000⟩]
  receiver := true
  ret := .primitive .boolean
  pinvoke := false

theorem code_shaped_by_classes_disguised : ∃ thunk thunk',
    Thunk.build ⟨0x1234, plainSignature⟩ ⟨0x20000000, 0x20001000⟩ = .ok thunk ∧
    Thunk.build ⟨0x1234, layeredSignature⟩ ⟨0x20000000, 0x20001000⟩ = .ok thunk ∧
    Thunk.build ⟨0, disguisedSignature⟩ ⟨0xffffffff, 0xffff8000⟩ = .ok thunk' ∧
    thunk ≠ thunk' ∧ thunk.code.length = thunk'.code.length ∧ thunk.frameSize = thunk'.frameSize ∧
    Trampoline.build plainSignature false =
      Trampoline.build { plainSignature with
        params := [⟨.primitive .int64, 0⟩, ⟨.byRef (.primitive .void), 1⟩, ⟨.primitive .char, 2⟩]
        pinvoke := false } false := by
  obtain ⟨hthunks, htrampolines⟩ := code_shaped_by_classes
  obtain ⟨thunk, hbuild⟩ := exists_of_isOk
    (show (Thunk.build ⟨0x1234, plainSignature⟩ ⟨0x20000000, 0x20001000⟩).isOk = true by
      decide +kernel)
  -- The same constants with other kinds of the same classes.
  obtain ⟨hbuilds, hshaped⟩ := hthunks ⟨0x1234, plainSignature⟩ ⟨0x1234, layeredSignature⟩
    ⟨0x20000000, 0x20001000⟩ ⟨0x20000000, 0x20001000⟩ ⟨rfl, rfl, rfl⟩
  obtain ⟨layered, hlayered⟩ := hbuilds.mp ⟨thunk, hbuild⟩
  obtain ⟨-, -, -, -, hsame⟩ := hshaped thunk layered hbuild hlayered
  obtain rfl := hsame rfl rfl rfl rfl
  -- Other constants.
  obtain ⟨hbuilds', hshaped'⟩ := hthunks ⟨0x1234, plainSignature⟩ ⟨0, disguisedSignature⟩
    ⟨0x20000000, 0x20001000⟩ ⟨0xffffffff, 0xffff8000⟩ ⟨rfl, rfl, rfl⟩
  obtain ⟨thunk', hbuild'⟩ := hbuilds'.mp ⟨thunk, hbuild⟩
  obtain ⟨hlength, hframe, -⟩ := hshaped' thunk thunk' hbuild hbuild'
  have hne : Thunk.build ⟨0x1234, plainSignature⟩ ⟨0x20000000, 0x20001000⟩ ≠
      Thunk.build ⟨0, disguisedSignature⟩ ⟨0xffffffff, 0xffff8000⟩ := by
    decide +kernel
  refine ⟨thunk, thunk', hbuild, hlayered, hbuild', ?_, hlength, hframe, ?_⟩
  · rintro rfl
    exact hne (hbuild.trans hbuild'.symm)
  · exact htrampolines _ _ false rfl rfl rfl

end CallBridge

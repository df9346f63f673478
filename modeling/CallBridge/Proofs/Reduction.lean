import CallBridge.Proofs.Acceptance
import CallBridge.Proofs.EnumChains

/-!
# What stubs see of a kind

Of a reference nothing is looked at behind it, and of any other kind only the one that it rests on
(`ArgClass.ofKind_congr`, `ReturnClass.ofKind_congr`). So kinds can be replaced by others that come
to the same, and neither the classes nor the places nor any byte of the stubs change
(`code_depends_on_underlying`).
-/

namespace CallBridge

/-! ## Classes -/

namespace Kind

/-- What a kind may be replaced by: a reference by a reference to anything, and any other kind by
the one that it rests on. -/
inductive Reduces : Kind → Kind → Prop
  | byRef (target other : Kind) : Reduces (.byRef target) (.byRef other)
  | underlying {k core : Kind} (hkind : ∀ target, k ≠ .byRef target)
      (h : k.underlying = .ok core) : Reduces k core

variable {k core : Kind}

theorem eq_enumCore_of_underlying (h : k.underlying = .ok core) :
    core = k.enumCore ∧ (k.enumDepth = 0 ∨ core.isInteger) := by
  rw [underlying_eq] at h
  split_ifs at h with _ hcore
  obtain rfl := Except.ok.inj h
  exact ⟨rfl, hcore⟩

/-- What a kind rests on rests on itself. -/
theorem underlying_underlying (h : k.underlying = .ok core) : core.underlying = .ok core := by
  obtain ⟨rfl, -⟩ := eq_enumCore_of_underlying h
  exact (underlying_iterate_enum 0 (isCore_enumCore k)).1 rfl

/-- No enum rests on a reference. -/
theorem underlying_ne_byRef (hkind : ∀ target, k ≠ byRef target) (h : k.underlying = .ok core)
    (target : Kind) : core ≠ byRef target := by
  obtain ⟨hcore, hdepth | hinteger⟩ := eq_enumCore_of_underlying h
  · rw [hcore, enumCore_eq_self hdepth]
    exact hkind target
  · rintro rfl
    cases hinteger

end Kind

variable {k k' : Kind} {position : Nat} {stringCtor : Bool}

/-- Two kinds that are no references have the same class if they rest on the same kind. -/
theorem ArgClass.ofKind_congr (hkind : ∀ target, k ≠ .byRef target)
    (hkind' : ∀ target, k' ≠ .byRef target) (h : k.underlying = k'.underlying) (position : Nat) :
    ofKind position k = ofKind position k' := by
  unfold ofKind
  split
  · exact absurd rfl (hkind _)
  · rw [h]

theorem ReturnClass.ofKind_congr (hkind : ∀ target, k ≠ .byRef target)
    (hkind' : ∀ target, k' ≠ .byRef target) (h : k.underlying = k'.underlying)
    (stringCtor : Bool) : ofKind stringCtor k = ofKind stringCtor k' := by
  unfold ofKind
  split
  · rfl
  · split
    · exact absurd rfl (hkind _)
    · rw [h]

theorem Kind.Reduces.argClass_eq (h : k.Reduces k') (position : Nat) :
    ArgClass.ofKind position k = ArgClass.ofKind position k' := by
  cases h with
  | byRef => rfl
  | underlying hkind hcore =>
      exact ArgClass.ofKind_congr hkind (underlying_ne_byRef hkind hcore)
        (hcore.trans (underlying_underlying hcore).symm) position

theorem Kind.Reduces.returnClass_eq (h : k.Reduces k') (stringCtor : Bool) :
    ReturnClass.ofKind stringCtor k = ReturnClass.ofKind stringCtor k' := by
  cases h with
  | byRef => rfl
  | underlying hkind hcore =>
      exact ReturnClass.ofKind_congr hkind (underlying_ne_byRef hkind hcore)
        (hcore.trans (underlying_underlying hcore).symm) stringCtor

/-! ## Places -/

/-- Parameters that have the same class, or are refused for the same cause, at every position. -/
def Parameter.Alike (p p' : Parameter) : Prop :=
  ∀ position, ArgClass.ofKind position p.kind = ArgClass.ofKind position p'.kind

theorem placeFrom_congr {params params' : List Parameter}
    (h : List.Forall₂ Parameter.Alike params params') (c : Cursor) (position : Nat) :
    placeFrom c position params = placeFrom c position params' := by
  induction h generalizing c position with
  | nil => rfl
  | cons hparam _ ih =>
      rw [placeFrom, placeFrom, hparam position]
      simp only [ih]

variable {sig sig' : Signature} {method method' : Method}

theorem Signature.passing_congr {stringCtor' : Bool} (hreceiver : sig.receiver = sig'.receiver)
    (hparams : List.Forall₂ Parameter.Alike sig.params sig'.params)
    (hret : ReturnClass.ofKind stringCtor sig.ret = ReturnClass.ofKind stringCtor' sig'.ret) :
    sig.passing stringCtor = sig'.passing stringCtor' := by
  rw [passing, passing, placement, placement, hreceiver, placeFrom_congr hparams, hret]

/-! ## Code -/

theorem Trampoline.build_congr {stringCtor' : Bool} (hreceiver : sig.receiver = sig'.receiver)
    (h : sig.passing stringCtor = sig'.passing stringCtor') :
    build sig stringCtor = build sig' stringCtor' := by
  rw [build_eq, build_eq, TrampolineLayout.ofSignature_eq, TrampolineLayout.ofSignature_eq, h,
    hreceiver]

/-- Of the parameters only the descriptors get into the conversion calls. -/
theorem Thunk.convertArgs_eq (layout : ThunkLayout) (convert : Word) (sig : Signature) :
    convertArgs layout convert sig =
      ((sig.params.map Parameter.descriptor).zip layout.params).zipIdx.flatMap fun arg =>
        convertArg layout convert sig.pinvoke arg.2 arg.1.1 arg.1.2 := by
  rw [List.zip_map_left, List.zipIdx_map, List.flatMap_map]
  rfl

theorem Thunk.build_congr (hhandle : method.handle = method'.handle)
    (hreceiver : method.signature.receiver = method'.signature.receiver)
    (hpinvoke : method.signature.pinvoke = method'.signature.pinvoke)
    (hdescriptors : method.signature.params.map Parameter.descriptor =
      method'.signature.params.map Parameter.descriptor)
    (h : method.signature.passing false = method'.signature.passing false)
    (entryPoints : EntryPoints) : build method entryPoints = build method' entryPoints := by
  have hstatements (layout : ThunkLayout) :
      statements method entryPoints layout = statements method' entryPoints layout := by
    rw [statements, statements, convertArgs_eq, convertArgs_eq, hhandle, hreceiver, hpinvoke,
      hdescriptors]
  rw [build_eq, build_eq, ThunkLayout.ofSignature_eq, ThunkLayout.ofSignature_eq, h]
  simp only [hstatements]

/-! ## Reduced signatures -/

/-- The kinds of one signature are replaced in another by what they come to. -/
structure Signature.Reduces (sig sig' : Signature) : Prop where
  receiver : sig.receiver = sig'.receiver
  pinvoke : sig.pinvoke = sig'.pinvoke
  params : List.Forall₂ (fun p p' : Parameter => p.descriptor = p'.descriptor ∧
    p.kind.Reduces p'.kind) sig.params sig'.params
  ret : sig.ret.Reduces sig'.ret

theorem Signature.Reduces.alike (h : sig.Reduces sig') :
    List.Forall₂ Parameter.Alike sig.params sig'.params :=
  h.params.imp fun _ _ hparam => hparam.2.argClass_eq

theorem Signature.Reduces.descriptors_eq (h : sig.Reduces sig') :
    sig.params.map Parameter.descriptor = sig'.params.map Parameter.descriptor := by
  rw [← List.forall₂_eq_eq_eq, List.forall₂_map_left_iff, List.forall₂_map_right_iff]
  exact h.params.imp fun _ _ hparam => hparam.1

/-- Kinds matter to stubs only by what they come to. Where every kind of a signature is replaced by
the one that it rests on, and what a reference points to by anything, both kinds of stub are built
as before, to the byte, or are refused for the same cause. And a string constructor's trampoline is
that of a function that returns a reference, whatever its own result is. -/
theorem code_depends_on_underlying :
    (∀ sig sig' : Signature, sig.Reduces sig' →
      (∀ stringCtor, Trampoline.build sig stringCtor = Trampoline.build sig' stringCtor) ∧
      ∀ handle entryPoints,
        Thunk.build ⟨handle, sig⟩ entryPoints = Thunk.build ⟨handle, sig'⟩ entryPoints) ∧
    ∀ (sig : Signature) (target : Kind),
      Trampoline.build sig true = Trampoline.build { sig with ret := .byRef target } false := by
  refine ⟨fun sig sig' h => ⟨fun stringCtor => ?_, fun handle entryPoints => ?_⟩, ?_⟩
  · exact Trampoline.build_congr h.receiver
      (Signature.passing_congr h.receiver h.alike (h.ret.returnClass_eq stringCtor))
  · have hpassing : sig.passing false = sig'.passing false :=
      Signature.passing_congr h.receiver h.alike (h.ret.returnClass_eq false)
    apply Thunk.build_congr
    exacts [rfl, h.receiver, h.pinvoke, h.descriptors_eq, hpassing]
  · intro sig target
    refine Trampoline.build_congr rfl (Signature.passing_congr rfl ?_ rfl)
    exact List.forall₂_same.mpr fun p _ position => rfl

/-- Enums in a row and around a half word, a reference to a value type, and a bare value type. -/
def layeredSignature : Signature where
  params := [⟨.enum (.enum (.primitive .int64)), 7⟩, ⟨.byRef (.valueType 24), 8⟩,
    ⟨.enum (.primitive .char), 9⟩]
  receiver := true
  ret := .enum (.primitive .uint8)
  pinvoke := true

def plainSignature : Signature where
  params := [⟨.primitive .int64, 7⟩, ⟨.byRef (.primitive .void), 8⟩, ⟨.primitive .char, 9⟩]
  receiver := true
  ret := .primitive .uint8
  pinvoke := true

theorem code_depends_on_underlying_layered :
    layeredSignature.Reduces plainSignature ∧
    Trampoline.build layeredSignature false = Trampoline.build plainSignature false ∧
    Thunk.build ⟨0x1234, layeredSignature⟩ ⟨0x20000000, 0x20001000⟩ =
      Thunk.build ⟨0x1234, plainSignature⟩ ⟨0x20000000, 0x20001000⟩ ∧
    (∃ thunk, Thunk.build ⟨0x1234, plainSignature⟩ ⟨0x20000000, 0x20001000⟩ = .ok thunk) := by
  have hreduces : layeredSignature.Reduces plainSignature := by
    refine ⟨rfl, rfl, .cons ⟨rfl, ?_⟩ (.cons ⟨rfl, .byRef _ _⟩ (.cons ⟨rfl, ?_⟩ .nil)), ?_⟩
    · exact .underlying nofun rfl
    · exact .underlying nofun rfl
    · exact .underlying nofun rfl
  have hbuilt := exists_of_isOk
    (show (Thunk.build ⟨0x1234, plainSignature⟩ ⟨0x20000000, 0x20001000⟩).isOk = true by
      decide +kernel)
  obtain ⟨htrampoline, hthunk⟩ := code_depends_on_underlying.1 _ _ hreduces
  exact ⟨hreduces, htrampoline false, hthunk 0x1234 _, hbuilt⟩

end CallBridge

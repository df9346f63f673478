import CallBridge.Proofs.Trampoline.Size

/-!
# Which signatures have stubs

Both kinds of stub ask the same of a signature and in the same order: that its arguments have places
and that its result has a class (`Signature.passing`). Only then does each hold its own frame to
the reach of a displacement. So what is refused for another reason is refused by both for that same
reason, and the trampoline, which reaches less far, is there whenever the thunk is
(`stubs_accept_alike`).
-/

namespace CallBridge

/-! ## What both kinds of stub ask -/

/-- How the arguments and the result of a signature travel. -/
structure Passing where
  params : List PlacedArg
  /-- The cursor after the arguments. -/
  cursor : Cursor
  ret : ReturnClass

def Signature.passing (sig : Signature) (stringCtor : Bool) : Except Unsupported Passing := do
  let (params, cursor) ← sig.placement
  let ret ← ReturnClass.ofKind stringCtor sig.ret
  return { params, cursor, ret }

/-- The layout of a trampoline, if the frame and the array of tagged arguments are within reach. -/
def TrampolineLayout.ofPassing (receiver : Bool) (p : Passing) :
    Except Unsupported TrampolineLayout :=
  let frameSize := align16 (fixedFrame + p.cursor.stack)
  let reach := reachOf frameSize p.params.length
  if maxDisplacement < reach then
    .error (.frameTooLarge reach)
  else
    .ok {
      frameSize
      codeSize := codeSizeOf receiver p.params p.ret
      receiver
      params := p.params
      ret := p.ret
    }

/-- The layout of a thunk, if the caller's stack arguments above its frame are within reach. -/
def ThunkLayout.ofPassing (p : Passing) : Except Unsupported ThunkLayout :=
  let retval := argSlot p.params.length
  let generalSpill := retval + taggedSize
  let floatSpill := generalSpill + generalSlots * 4
  let frameSize := align16 (floatSpill + floatSlots * 8 + 4)
  let reach := frameSize + paramArea + p.cursor.stack
  if maxDisplacement < reach then
    .error (.frameTooLarge reach)
  else
    .ok { frameSize, retval, generalSpill, floatSpill, params := p.params, ret := p.ret }

variable {sig : Signature} {stringCtor : Bool} {cause : Unsupported}

theorem TrampolineLayout.ofSignature_eq (sig : Signature) (stringCtor : Bool) :
    ofSignature sig stringCtor = sig.passing stringCtor >>= ofPassing sig.receiver := by
  unfold ofSignature Signature.passing
  cases sig.placement with
  | error cause => rfl
  | ok placed =>
      cases ReturnClass.ofKind stringCtor sig.ret with
      | error cause => rfl
      | ok ret =>
          simp only [ok_bind, pure, Except.pure, ofPassing]
          split <;> rfl

theorem ThunkLayout.ofSignature_eq (sig : Signature) :
    ofSignature sig = sig.passing false >>= ofPassing := by
  unfold ofSignature Signature.passing
  cases sig.placement with
  | error cause => rfl
  | ok placed =>
      cases ReturnClass.ofKind false sig.ret with
      | error cause => rfl
      | ok ret =>
          simp only [ok_bind, pure, Except.pure, ofPassing]
          split <;> rfl

/-! ## What is built -/

theorem Trampoline.build_eq (sig : Signature) (stringCtor : Bool) :
    build sig stringCtor = ((TrampolineLayout.ofSignature sig stringCtor).mapError .unsupported).map
      fun layout => ⟨(statements layout).flatMap Statement.unchecked, layout.frameSize⟩ := by
  cases hlayout : TrampolineLayout.ofSignature sig stringCtor with
  | error cause =>
      rw [build, hlayout, mapError_error]
      rfl
  | ok layout =>
      rw [build_of_ofSignature hlayout]
      rfl

theorem Thunk.build_eq (method : Method) (entryPoints : EntryPoints) :
    build method entryPoints =
      ((ThunkLayout.ofSignature method.signature).mapError .unsupported).map fun layout =>
        ⟨(statements method entryPoints layout).flatMap Statement.unchecked, layout.frameSize⟩ := by
  cases hlayout : ThunkLayout.ofSignature method.signature with
  | error cause =>
      rw [build, hlayout, mapError_error]
      rfl
  | ok layout =>
      obtain ⟨cursor, hlaid⟩ := laid_of_ofSignature hlayout
      rw [build, hlayout, mapError_ok, ok_bind, ofStatements_of_valid (hlaid.valid entryPoints)]
      rfl

theorem Trampoline.build_of_refused (h : sig.passing stringCtor = .error cause) :
    build sig stringCtor = .error (.unsupported cause) := by
  rw [build_eq, TrampolineLayout.ofSignature_eq, h]
  rfl

theorem Thunk.build_of_refused {method : Method} (h : method.signature.passing false = .error cause)
    (entryPoints : EntryPoints) : build method entryPoints = .error (.unsupported cause) := by
  rw [build_eq, ThunkLayout.ofSignature_eq, h]
  rfl

/-- Where everything has its place, only the reach can stand in the way of a trampoline. -/
theorem Trampoline.build_of_passing {p : Passing} (h : sig.passing stringCtor = .ok p) :
    (∃ trampoline, build sig stringCtor = .ok trampoline) ∨
      ∃ size, build sig stringCtor = .error (.unsupported (.frameTooLarge size)) := by
  rw [build_eq, TrampolineLayout.ofSignature_eq, h, ok_bind, TrampolineLayout.ofPassing]
  split
  · exact .inr ⟨_, rfl⟩
  · exact .inl ⟨_, rfl⟩

theorem Thunk.build_of_passing {method : Method} {p : Passing}
    (h : method.signature.passing false = .ok p) (entryPoints : EntryPoints) :
    (∃ thunk, build method entryPoints = .ok thunk) ∨
      ∃ size, build method entryPoints = .error (.unsupported (.frameTooLarge size)) := by
  rw [build_eq, ThunkLayout.ofSignature_eq, h, ok_bind, ThunkLayout.ofPassing]
  split
  · exact .inr ⟨_, rfl⟩
  · exact .inl ⟨_, rfl⟩

/-! ## Both kinds together -/

/-- A method that has a thunk has a trampoline for its signature. The other way round only the reach
of the thunk can fail, and a signature that is refused for anything else is refused by both kinds of
stub for the very same cause. -/
theorem stubs_accept_alike (method : Method) (entryPoints : EntryPoints) :
    ((∃ thunk, Thunk.build method entryPoints = .ok thunk) →
      ∃ trampoline, Trampoline.build method.signature false = .ok trampoline) ∧
    ((∃ trampoline, Trampoline.build method.signature false = .ok trampoline) →
      (∃ thunk, Thunk.build method entryPoints = .ok thunk) ∨
        ∃ size, Thunk.build method entryPoints = .error (.unsupported (.frameTooLarge size))) ∧
    ∀ cause, (∀ size, cause ≠ .frameTooLarge size) →
      (Thunk.build method entryPoints = .error (.unsupported cause) ↔
        Trampoline.build method.signature false = .error (.unsupported cause)) := by
  refine ⟨?_, ?_, ?_⟩
  · rintro ⟨thunk, hbuild⟩
    obtain ⟨layout, hlayout, -⟩ := bind_eq_ok_iff.mp hbuild
    obtain ⟨cursor, hlaid⟩ := Thunk.laid_of_ofSignature (mapError_eq_ok_iff.mp hlayout)
    obtain ⟨layout', hlayout', -⟩ := Trampoline.exists_layout_of_thunk hlaid
    exact ⟨_, Trampoline.build_of_ofSignature hlayout'⟩
  · rintro ⟨trampoline, hbuild⟩
    cases hpassing : method.signature.passing false with
    | ok p => exact Thunk.build_of_passing hpassing entryPoints
    | error cause =>
        rw [Trampoline.build_of_refused hpassing] at hbuild
        cases hbuild
  · intro cause hcause
    cases hpassing : method.signature.passing false with
    | error first =>
        rw [Trampoline.build_of_refused hpassing, Thunk.build_of_refused hpassing]
    | ok p =>
        -- Neither kind fails for anything but its reach.
        have hne {size : Nat} {α : Type} :
            (.error (.unsupported (.frameTooLarge size)) : Except Error α) ≠
              .error (.unsupported cause) := by
          intro h
          cases h
          exact hcause size rfl
        constructor
        · intro hbuild
          rcases Thunk.build_of_passing hpassing entryPoints with ⟨thunk, h⟩ | ⟨size, h⟩
          · rw [h] at hbuild
            cases hbuild
          · exact absurd (h.symm.trans hbuild) hne
        · intro hbuild
          rcases Trampoline.build_of_passing hpassing with ⟨trampoline, h⟩ | ⟨size, h⟩
          · rw [h] at hbuild
            cases hbuild
          · exact absurd (h.symm.trans hbuild) hne

/-- So many words that the array of tagged arguments is just within the reach of a trampoline. -/
def longSignature : Signature where
  params := List.replicate 2047 { kind := .primitive .int32 }
  receiver := false
  ret := .primitive .void
  pinvoke := false

/-- One double too many for the float slots. -/
def floatSignature : Signature where
  params := List.replicate 8 { kind := .primitive .float64 }
  receiver := false
  ret := .primitive .void
  pinvoke := false

theorem stubs_accept_alike_long :
    (∃ trampoline, Trampoline.build Trampoline.mixedSignature false = .ok trampoline) ∧
    (∃ trampoline, Trampoline.build longSignature false = .ok trampoline) ∧
    ((∃ thunk, Thunk.build ⟨0, longSignature⟩ ⟨0x20000000, 0x20001000⟩ = .ok thunk) ∨
      ∃ size, Thunk.build ⟨0, longSignature⟩ ⟨0x20000000, 0x20001000⟩ =
        .error (.unsupported (.frameTooLarge size))) ∧
    Trampoline.build floatSignature false = .error (.unsupported (.placement 7 .float)) := by
  have hmixed := exists_of_isOk
    (show (Thunk.build ⟨0, Trampoline.mixedSignature⟩ ⟨0x20000000, 0x20001000⟩).isOk = true by
      decide +kernel)
  obtain ⟨layout, hlayout⟩ := exists_of_isOk
    (show (TrampolineLayout.ofSignature longSignature false).isOk = true by decide +kernel)
  have hlong : ∃ trampoline, Trampoline.build longSignature false = .ok trampoline :=
    ⟨_, Trampoline.build_of_ofSignature hlayout⟩
  have hfloat : Thunk.build ⟨0, floatSignature⟩ ⟨0x20000000, 0x20001000⟩ =
      .error (.unsupported (.placement 7 .float)) := by decide
  exact ⟨(stubs_accept_alike ⟨0, Trampoline.mixedSignature⟩ _).1 hmixed, hlong,
    (stubs_accept_alike ⟨0, longSignature⟩ _).2.1 hlong,
    ((stubs_accept_alike ⟨0, floatSignature⟩ _).2.2 _ (by simp)).mp hfloat⟩

end CallBridge

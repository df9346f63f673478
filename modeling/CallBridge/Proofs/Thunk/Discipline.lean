import CallBridge.Proofs.Thunk.Return

/-!
# The frame discipline of a thunk

The conversion function and the interpreter may do to memory what they like, as long as they keep
the code and the three words that the frame rests on. That is enough for a thunk to come back to its
caller with the result of the interpreter, and its own instructions write nothing but its frame and
the caller's link register word (`returns_to_caller`).
-/

namespace CallBridge

open Machine

namespace Thunk

variable {σ : Type} {hooks : Hooks σ} {kept : Set Nat} {a : Activation} {stub : Stub}

/-- The caller's stack words lie above all that a thunk may write. -/
theorem disjoint_Ici_ownSpan (m : Machine) (S : Nat) :
    Disjoint (Set.Ici (m.sp + 8)) (m.ownSpan S) := by
  rw [Set.disjoint_left]
  rintro x hx (⟨hlo, hhi⟩ | ⟨hlo, hhi⟩)
  · have hx : m.sp + 8 ≤ x := hx
    omega
  · have hx : m.sp + 8 ≤ x := hx
    omega

/-- A thunk returns to its caller. After one conversion for every parameter and one call of the
interpreter, control, r1 and r31 are with the caller again, and the result registers hold the result
as the interpreter left it. The thunk itself writes its frame and the link register word above it
only, so the caller's stack words change by the hands of the functions that it calls or not at all.
-/
theorem returns_to_caller {convert interpret : Hook σ}
    (hlayout : ThunkLayout.ofSignature a.method.signature = .ok a.layout)
    (hbuild : build a.method a.entryPoints = .ok stub) (hstanding : stub.Standing hooks a.entry)
    (hconvert : hooks a.entryPoints.convert = some convert)
    (hconvertExit : a.entryPoints.convert ≠ exitAddress)
    (hinterpret : hooks a.entryPoints.interpret = some interpret)
    (hinterpretExit : a.entryPoints.interpret ≠ exitAddress)
    (hkept : stub.span a.entry ∪ a.restSpan ⊆ kept) (hconverts : ConvertContract a convert kept)
    (hinterprets : InterpretContract a interpret kept) (state : σ) :
    ∃ n calls last state' m,
      Confined hooks (a.entry.ownSpan a.layout.frameSize) n (calls ++ [last]) state a.entry
        state' m ∧
      n < stepLimit ∧ calls.length = a.method.signature.params.length ∧
      Interpreting a last.entered ∧
      (∃ before, interpret before last.entered = .ok (state', last.returned)) ∧
      Finished a last.returned.leave m ∧
      ((∀ call ∈ calls ++ [last], Set.EqOn call.returned.memory.byte call.entered.memory.byte
          (Set.Ici (a.entry.sp + 8))) →
        Set.EqOn m.memory.byte a.entry.memory.byte (Set.Ici (a.entry.sp + 8))) ∧
      (a.entry.lr = exitAddress → a.entry.run hooks stepLimit state = .ok (state', m)) := by
  obtain ⟨cursor, hlaid⟩ := laid_of_ofSignature hlayout
  have hstub := stub_of_build hlayout hbuild
  obtain ⟨hcode, hrest⟩ := Set.union_subset_iff.mp hkept
  obtain ⟨ready, n, calls, state₁, m₁, hconfined, hn, harrived, hreached⟩ :=
    confined_to_interpreter hlaid hstub hstanding hconvert hconvertExit hconverts hcode state
  obtain ⟨-, rfl⟩ := ofStatements_eq_ok_iff.mp hstub
  have hroom : a.entry.Room a.layout.frameSize := hstanding.room
  have happart := hstanding.apart.mono_right (hlaid.slots_subset_own hroom)
  obtain ⟨n', m₂, state₂, m₃, hconfined', hn', hok, hfinished⟩ := confined_from_interpreter hlaid
    hroom harrived hreached hinterpret hinterpretExit hinterprets hcode happart hrest
    (a.entry.ownSpan a.layout.frameSize) state₁
  have hwhole := hconfined.trans hconfined'
  have hlimit : n + n' < stepLimit := by
    have hparams := hlaid.length_params_le
    rw [stepLimit]
    omega
  refine ⟨n + n', calls, _, state₂, m₃, hwhole, hlimit, harrived.count.trans hlaid.length_args,
    harrived.interpreting, ⟨state₁, hok⟩, hfinished, hwhole.eqOn (disjoint_Ici_ownSpan _ _), ?_⟩
  intro hexit
  exact hwhole.trace.run_of_exit (hfinished.pc.trans hexit) hlimit

theorem returns_to_caller_mixed : ∃ layout stub state' m, ∃ last : NativeCall,
    build mixedMethod runtime = .ok stub ∧
      stub.machine.run runtimeHooks stepLimit () = .ok (state', m) ∧
      Interpreting (mixedActivation layout stub) last.entered ∧
      Finished (mixedActivation layout stub) last.returned.leave m := by
  obtain ⟨layout, hlayout⟩ := exists_of_isOk
    (show (ThunkLayout.ofSignature mixedMethod.signature).isOk = true by decide +kernel)
  obtain ⟨stub, hbuild⟩ := exists_of_isOk
    (show (build mixedMethod runtime).isOk = true by decide +kernel)
  obtain ⟨cursor, hlaid⟩ := laid_of_ofSignature hlayout
  have hentered := entered_machine (a := mixedActivation layout stub) hlayout hbuild
    runtimeHooks_low
  have hsize := frameSize_ge (a := mixedActivation layout stub) hlaid (stub_of_build hlayout hbuild)
  obtain ⟨n, calls, last, state', m, -, -, -, hinterpreting, -, hfinished, -, hrun⟩ :=
    returns_to_caller (a := mixedActivation layout stub) hlayout hbuild (hentered.standing hsize)
      rfl (show runtime.convert ≠ exitAddress by decide) rfl
      (show runtime.interpret ≠ exitAddress by decide) (Set.Subset.refl _)
      (convertContract_clearing _ _)
      (fun _ m _ _ => ⟨(), m, rfl, rfl, rfl, rfl, Set.eqOn_refl _ _⟩) ()
  exact ⟨layout, stub, state', m, last, hbuild, hrun rfl, hinterpreting, hfinished⟩

end Thunk

end CallBridge

import CallBridge.Proofs.NativeTypes
import CallBridge.Proofs.Thunk.Return
import CallBridge.Scenario.Thunk

/-!
# The tagged arguments of a described method

When the descriptors of a method name the native types of its parameters, the conversion function
that goes by descriptors keeps to its contract (`convertContract_convert`), and every tagged slot
holds the value that the caller's argument stands for when the interpreter is entered
(`Arrived.tagged`).
-/

namespace CallBridge

open Machine

namespace Thunk

variable {kept : Set Nat} {a : Activation} {m : Machine} {cursor : Cursor}

/-- The descriptor of every parameter names its native type. -/
def Described (sig : Signature) : Prop :=
  ∀ p ∈ sig.params, p.descriptor = (NativeType.ofKind p.kind).descriptor

/-! ## One conversion -/

theorem NativeType.width_argClass (type : NativeType) : type.argClass.width = type.bytes := by
  cases type <;> rfl

/-- The conversion function writes the tagged value to the slot and changes nothing else. -/
theorem convert_eq_ok {type : NativeType} (log : Log) (hdescriptor : m.r 3 = type.descriptor)
    (hsource : Set.Ico (m.r 4).toNat ((m.r 4).toNat + type.bytes) ⊆ addresses)
    (hslot : Set.Ico (m.r 5).toNat ((m.r 5).toNat + taggedSize) ⊆ addresses) :
    ∃ log', ThunkCall.convert log m = .ok (log', m.put (m.r 5).toNat
      (type.toTagged (valueOf (m.memory.load (m.r 4).toNat type.bytes))).bytes) := by
  have hpos : 0 < type.bytes := by cases type <;> decide
  obtain ⟨hstart, hstop⟩ := bounds_of_subset (by omega) hsource
  obtain ⟨hstart', hstop'⟩ := bounds_of_subset (by rw [taggedSize]; omega) hslot
  have htype : NativeType.ofDescriptor? (m.general r3) = some type :=
    (congrArg NativeType.ofDescriptor? hdescriptor).trans (NativeType.ofDescriptor?_descriptor type)
  have hread : m.readValue (m.general r4) type.bytes =
      .ok (valueOf (m.memory.load (m.r 4).toNat type.bytes)) :=
    congrArg (Except.map valueOf) (readBytes_of_inMemory ⟨hstart, hstop⟩)
  have hwrite (v : Tagged) : m.writeBytes (m.general r5) v.bytes =
      .ok (m.put (m.r 5).toNat v.bytes) :=
    writeBytes_of_inMemory ⟨hstart', by rwa [Tagged.length_bytes]⟩
  refine ⟨log.push (.conversion (m.r 3) (m.r 4) (m.r 5) (m.r 6)), ?_⟩
  simp only [ThunkCall.convert, htype, hread, hwrite, bind, Except.bind, pure, Except.pure]
  rfl

/-! ## The conversions of a method -/

/-- The slot of an argument. -/
theorem Activation.slot_eq (a : Activation) (i : Nat) : a.slots i (i + 1) =
    Set.Ico (a.frame + ThunkLayout.argSlot i) (a.frame + ThunkLayout.argSlot i + taggedSize) := by
  simp only [slots, ThunkLayout.argSlot, taggedSize]
  congr 1
  omega

theorem frameSpan_subset_addresses (hroom : a.entry.Room a.layout.frameSize) :
    a.frameSpan ⊆ addresses := by
  have hsp := sp_eq hroom
  obtain ⟨hsize, hstart, hstop⟩ := hroom
  exact Set.Ico_subset_Ico (by omega) (by omega)

section

variable (hlaid : Laid a.method.signature a.layout cursor)
  (hroom : a.entry.Room a.layout.frameSize)

include hlaid

/-- A described argument has the descriptor and the class of its type. -/
theorem Laid.described (hdescribed : Described a.method.signature) {i : Nat}
    {arg : Parameter × PlacedArg} (harg : a.args[i]? = some arg) :
    arg.1.descriptor = (NativeType.ofKind arg.1.kind).descriptor ∧
      arg.2.argClass = (NativeType.ofKind arg.1.kind).argClass := by
  have hmem := List.mem_of_getElem? harg
  exact ⟨hdescribed _ (List.of_mem_zip hmem).1, argClass_of_placeFrom hlaid.placement arg hmem⟩

include hroom

theorem slot_subset_frameSpan {i : Nat} {arg : Parameter × PlacedArg}
    (harg : a.args[i]? = some arg) : a.slots i (i + 1) ⊆ a.frameSpan := by
  have hi : i < a.args.length := (List.getElem?_eq_some_iff.mp harg).1
  exact (Activation.slots_mono (Nat.zero_le i) (by omega)).trans (hlaid.slots_subset_frame hroom)

/-- The conversion of an argument puts the tagged value of its native bytes into its slot. -/
theorem Converting.convert_eq_ok (hdescribed : Described a.method.signature)
    (hcaller : a.callerSpan cursor ⊆ addresses) {i : Nat} {arg : Parameter × PlacedArg}
    (harg : a.args[i]? = some arg) (h : Converting a i arg m) (log : Log) :
    ∃ log', ThunkCall.convert log m = .ok (log', m.put (a.frame + ThunkLayout.argSlot i)
      ((NativeType.ofKind arg.1.kind).toTagged (valueOf
        (m.memory.load (a.frame + a.layout.source arg.2) arg.2.argClass.width))).bytes) := by
  obtain ⟨hdescriptor, hclass⟩ := hlaid.described hdescribed harg
  have hparam : arg.2 ∈ a.layout.params := (List.of_mem_zip (List.mem_of_getElem? harg)).2
  have hwidth : arg.2.argClass.width = (NativeType.ofKind arg.1.kind).bytes := by
    rw [hclass, NativeType.width_argClass]
  have hframe := frameSpan_subset_addresses hroom
  have hnative : a.nativeSpan arg.2 ⊆ addresses :=
    (nativeSpan_subset_stack hlaid hroom hparam).trans (Set.union_subset hframe hcaller)
  have hslot := (slot_subset_frameSpan hlaid hroom harg).trans hframe
  rw [Activation.nativeSpan, hwidth, ← h.source] at hnative
  rw [Activation.slot_eq, ← h.slot] at hslot
  rw [hwidth, ← h.source, ← h.slot]
  exact Thunk.convert_eq_ok log (h.descriptor.trans hdescriptor) hnative hslot

theorem convertContract_convert (hdescribed : Described a.method.signature)
    (hcaller : a.callerSpan cursor ⊆ addresses) (kept : Set Nat) :
    ConvertContract a ThunkCall.convert kept := by
  intro i arg log m harg hconverting
  obtain ⟨log', hok⟩ := hconverting.convert_eq_ok hlaid hroom hdescribed hcaller harg log
  refine ⟨log', _, hok, by simp, by simp, by simp, ?_⟩
  rw [memory_put]
  refine Memory.eqOn_store ?_
  rw [Tagged.length_bytes, ← Activation.slot_eq]
  exact Set.disjoint_sdiff_left

/-- When the interpreter is entered, every slot holds the tagged value of the native argument as the
thunk received it. -/
theorem Arrived.tagged {ready : Machine} {calls : List NativeCall}
    (harrived : Arrived a ThunkCall.convert kept ready calls m)
    (hdescribed : Described a.method.signature) (hcaller : a.callerSpan cursor ⊆ addresses)
    (hkept : a.frameSpan ∪ a.callerSpan cursor ⊆ kept) {i : Nat} {arg : Parameter × PlacedArg}
    (harg : a.args[i]? = some arg) :
    m.memory.load (a.frame + ThunkLayout.argSlot i) taggedSize =
      ((NativeType.ofKind arg.1.kind).toTagged (valueOf (a.incoming arg.2))).bytes := by
  have hi : i < calls.length := by
    rw [harrived.count]
    exact (List.getElem?_eq_some_iff.mp harg).1
  have hcall := List.getElem?_eq_getElem hi
  have hconverted := harrived.converted i calls[i] arg hcall harg
  have hparam : arg.2 ∈ a.layout.params := (List.of_mem_zip (List.mem_of_getElem? harg)).2
  have hsourced : calls[i].entered.memory.load (a.frame + a.layout.source arg.2)
      arg.2.argClass.width = a.incoming arg.2 :=
    harrived.sourced hlaid hroom hcall harg
      ((nativeSpan_subset_stack hlaid hroom hparam).trans hkept)
  obtain ⟨log, log', hok⟩ := hconverted.calls
  obtain ⟨log₁, hok₁⟩ :=
    hconverted.converting.convert_eq_ok hlaid hroom hdescribed hcaller harg log
  obtain ⟨-, hreturned⟩ := Prod.mk.inj (Except.ok.inj (hok.symm.trans hok₁))
  have hslot : a.slots i (i + 1) ⊆ kept ∩ a.slots i (i + 1) :=
    Set.subset_inter ((slot_subset_frameSpan hlaid hroom harg).trans
      (Set.subset_union_left.trans hkept)) (Set.Subset.refl _)
  have hafter := hconverted.after.mono hslot
  rw [Activation.slot_eq] at hafter
  rw [Memory.load_eq_of_eqOn hafter, hreturned, memory_put, hsourced]
  exact Memory.load_store _ _ (Tagged.bytes _)

end

end Thunk

end CallBridge

import CallBridge.Proofs.Thunk.TaggedArgs

/-!
# An interpreter that answers

The interpreter knows a call by the record in r3 and what the record names: the tagged arguments and
the result slot. One that answers puts a tagged value into the result slot and changes no other byte
(`Answers`). The interpreter entry of the scenarios does so (`answers_interpret`), and one that does
keeps to its contract with every thunk (`interpretContract_of_answers`), so the thunk brings its
answer back to the caller (`returns_answer`).
-/

namespace CallBridge

open Machine

/-! ## Records -/

/-- A field of the record in r3. -/
def Machine.field (m : Machine) (field : RecordField) : Word :=
  m.memory.word ((m.r 3).toNat + field.offset)

/-- The slot that the record names for the result. -/
def Machine.answerSpan (m : Machine) : Set Nat :=
  Set.Ico (m.field .retval).toNat ((m.field .retval).toNat + taggedSize)

/-- The record, and what it names for a call with this many arguments, lie in memory. -/
structure Machine.RecordIn (count : Nat) (m : Machine) : Prop where
  record : Set.Ico (m.r 3).toNat ((m.r 3).toNat + recordSize) ⊆ addresses
  args : Set.Ico (m.field .stackArgs).toNat ((m.field .stackArgs).toNat + count * taggedSize) ⊆
    addresses
  answer : m.answerSpan ⊆ addresses

/-- The interpreter puts a tagged value into the result slot of every call and comes back, and it
changes no other byte. -/
def Answers (count : Nat) (v : Tagged) (interpret : Hook Log) : Prop :=
  ∀ log m, m.RecordIn count → ∃ log' m', interpret log m = .ok (log', m') ∧
    m.Preserves m.answerSpanᶜ m' ∧ m'.memory.load (m.field .retval).toNat taggedSize = v.bytes

/-! ## The interpreter entry of the scenarios -/

section

variable {m : Machine} {count : Nat}

/-- An address counted from the start of a range in memory. -/
theorem toNat_offsetBy {base : Word} {size offset : Nat} (hoffset : offset < size)
    (h : Set.Ico base.toNat (base.toNat + size) ⊆ addresses) :
    (ThunkCall.offsetBy base offset).toNat = base.toNat + offset := by
  obtain ⟨hstart, hstop⟩ := bounds_of_subset (by omega) h
  have hend := memoryEnd_lt
  rw [ThunkCall.offsetBy, BitVec.toNat_add, BitVec.toNat_ofNat]
  omega

theorem inMemory_offsetBy {base : Word} {size offset width : Nat} (hwidth : 0 < width)
    (hoffset : offset + width ≤ size) (h : Set.Ico base.toNat (base.toNat + size) ⊆ addresses) :
    InMemory (ThunkCall.offsetBy base offset) width := by
  obtain ⟨hstart, hstop⟩ := bounds_of_subset (by omega) h
  rw [InMemory, toNat_offsetBy (by omega) h]
  omega

theorem readWord_field (h : m.RecordIn count) (field : RecordField) :
    m.readWord (ThunkCall.offsetBy (m.r 3) field.offset) = .ok (m.field field) := by
  have hoffset : field.offset + 4 ≤ recordSize := by cases field <;> decide
  rw [readWord_of_inMemory (inMemory_offsetBy (by decide) hoffset h.record),
    toNat_offsetBy (by omega) h.record, Machine.field]

theorem exists_readTagged (h : m.RecordIn count) :
    ∃ args, (List.range count).mapM (fun i =>
      ThunkCall.readTagged m (ThunkCall.offsetBy (m.field .stackArgs) (i * taggedSize))) =
        .ok args := by
  refine exists_mapM_ok fun i hi => ?_
  have hi : i < count := List.mem_range.mp hi
  have hoffset : i * taggedSize + taggedSize ≤ count * taggedSize := by
    rw [taggedSize]
    omega
  have hin := inMemory_offsetBy (by decide) hoffset h.args
  exact ⟨_, congrArg (Except.map Tagged.ofBytes) (readBytes_of_inMemory hin)⟩

theorem writeBytes_answer (h : m.RecordIn count) (v : Tagged) :
    m.writeBytes (m.field .retval) v.bytes = .ok (m.put (m.field .retval).toNat v.bytes) := by
  obtain ⟨hstart, hstop⟩ := bounds_of_subset (by rw [taggedSize]; omega) h.answer
  exact writeBytes_of_inMemory ⟨hstart, by rwa [Tagged.length_bytes]⟩

theorem answers_interpret (count : Nat) (v : Tagged) :
    Answers count v (ThunkCall.interpret count (.value v)) := by
  intro log m h
  obtain ⟨words, hwords⟩ := exists_mapM_ok (l := RecordField.all)
    fun field _ => ⟨_, readWord_field h field⟩
  obtain ⟨args, hargs⟩ := exists_readTagged h
  have hr3 : m.general r3 = m.r 3 := rfl
  have hslots := readWord_field h .stackArgs
  have hretval := readWord_field h .retval
  refine ⟨log.push (.interpretation (m.r 3) words (args.map Tagged.bytes)),
    m.put (m.field .retval).toNat v.bytes, ?_, ⟨lr_put .., r_put .., r_put .., ?_⟩, ?_⟩
  · rw [ThunkCall.interpret, hr3]
    dsimp only
    rw [hwords, ok_bind, hslots, ok_bind, hretval, ok_bind, hargs, ok_bind, writeBytes_answer h,
      ok_bind]
    rfl
  · rw [memory_put]
    refine Memory.eqOn_store ?_
    rw [Tagged.length_bytes]
    exact disjoint_compl_left
  · rw [memory_put, ← Tagged.length_bytes v]
    exact Memory.load_store _ _ _

end

namespace Thunk

variable {kept : Set Nat} {a : Activation} {m m' : Machine} {cursor : Cursor} {v : Tagged}
  {interpret : Hook Log}

/-! ## The record of a thunk -/

theorem Interpreting.field_eq (h : Interpreting a m) (hrecorded : a.Recorded m.memory)
    (field : RecordField) : m.field field = a.fieldValue field := by
  rw [Machine.field, h.record]
  exact hrecorded field

section

variable (hlaid : Laid a.method.signature a.layout cursor)
  (hroom : a.entry.Room a.layout.frameSize) (hinterpreting : Interpreting a m)
  (hrecorded : a.Recorded m.memory)

include hlaid hroom hinterpreting hrecorded

theorem Interpreting.toNat_stackArgs :
    (m.field .stackArgs).toNat = a.frame + ThunkLayout.argSlot 0 := by
  obtain ⟨hretval, hgeneral, hfloat, hsize⟩ := hlaid.sizes
  have hsp := sp_eq hroom
  have hlt := a.entry.sp_lt
  rw [hinterpreting.field_eq hrecorded, Activation.fieldValue, BitVec.toNat_ofNat]
  simp only [ThunkLayout.argSlot, ThunkLayout.args, ThunkLayout.record, paramArea, recordSize]
  omega

theorem Interpreting.toNat_retval : (m.field .retval).toNat = a.resultSlot := by
  obtain ⟨hretval, hgeneral, hfloat, hsize⟩ := hlaid.sizes
  have hsp := sp_eq hroom
  have hlt := a.entry.sp_lt
  rw [hinterpreting.field_eq hrecorded, Activation.fieldValue, BitVec.toNat_ofNat,
    ← hlaid.retval, Activation.resultSlot]
  omega

theorem Interpreting.answerSpan_eq :
    m.answerSpan = a.slots a.args.length (a.args.length + 1) := by
  rw [Machine.answerSpan, hinterpreting.toNat_retval hlaid hroom hrecorded, Activation.slot_eq,
    hlaid.length_args, Activation.resultSlot, hlaid.retval]

theorem Interpreting.recordIn : m.RecordIn a.method.signature.params.length := by
  have hframe := frameSpan_subset_addresses hroom
  have hslots := (hlaid.slots_subset_frame hroom).trans hframe
  refine ⟨?_, ?_, ?_⟩
  · rw [hinterpreting.record]
    exact (hlaid.record_subset_frame hroom).trans hframe
  · rw [hinterpreting.toNat_stackArgs hlaid hroom hrecorded]
    refine Set.Subset.trans (Set.Ico_subset_Ico_right ?_) hslots
    rw [hlaid.length_args]
    simp only [ThunkLayout.argSlot, taggedSize]
    omega
  · rw [hinterpreting.answerSpan_eq hlaid hroom hrecorded]
    exact (Activation.slots_mono (Nat.zero_le _) (Nat.le_refl _)).trans hslots

end

/-- An interpreter that answers keeps to its contract. -/
theorem interpretContract_of_answers (hlaid : Laid a.method.signature a.layout cursor)
    (hroom : a.entry.Room a.layout.frameSize) (hrecord : a.recordSpan ⊆ kept)
    (hanswers : Answers a.method.signature.params.length v interpret) :
    InterpretContract a interpret kept := by
  intro log m hinterpreting hrecorded
  have hrecorded := hrecorded hrecord
  obtain ⟨log', m', hok, ⟨hlr, hsp, hfp, hmemory⟩, -⟩ :=
    hanswers log m (hinterpreting.recordIn hlaid hroom hrecorded)
  refine ⟨log', m', hok, hlr, hsp, hfp, hmemory.mono ?_⟩
  rw [hinterpreting.answerSpan_eq hlaid hroom hrecorded]
  exact fun x hx hslot =>
    hx.2 (Activation.slots_mono (Nat.zero_le _) (Nat.le_refl _) hslot)

/-! ## The whole call -/

/-- A call of a thunk ends in `m`. All the tagged arguments were there when the interpreter was
entered, its answer is in the result registers, and the thunk's own part of the stack is all of
memory that has changed. -/
structure Answered (a : Activation) (v : Tagged) (calls : List NativeCall) (last : NativeCall)
    (m : Machine) : Prop where
  count : calls.length = a.method.signature.params.length
  conversions : ∀ call ∈ calls, call.entered.pc = a.entryPoints.convert
  interpreting : Interpreting a last.entered
  recorded : a.Recorded last.entered.memory
  tagged : ∀ (i : Nat) (arg : Parameter × PlacedArg), a.args[i]? = some arg →
    last.entered.memory.load (a.frame + ThunkLayout.argSlot i) taggedSize =
      ((NativeType.ofKind arg.1.kind).toTagged (valueOf (a.incoming arg.2))).bytes
  finished : Finished a last.returned.leave m
  answer : last.returned.memory.load a.resultSlot taggedSize = v.bytes
  unchanged : Set.EqOn m.memory.byte a.entry.memory.byte (a.entry.ownSpan a.layout.frameSize)ᶜ

theorem Arrived.conversions {convert : Hook Log} {ready : Machine} {calls : List NativeCall}
    (h : Arrived a convert kept ready calls m) :
    ∀ call ∈ calls, call.entered.pc = a.entryPoints.convert := by
  intro call hcall
  obtain ⟨i, hi, rfl⟩ := List.getElem_of_mem hcall
  have harg : i < a.args.length := h.count ▸ hi
  exact (h.converted i calls[i] a.args[i] (List.getElem?_eq_getElem hi)
    (List.getElem?_eq_getElem harg)).converting.pc

/-- With the conversion function that goes by descriptors, and an interpreter that answers, a thunk
comes back to its caller with the answer. -/
theorem returns_answer {hooks : Hooks Log} {stub : Stub}
    (hlaid : Laid a.method.signature a.layout cursor)
    (hstub : Stub.ofStatements a.code a.layout.frameSize = .ok stub)
    (hstanding : stub.Standing hooks a.entry) (hdescribed : Described a.method.signature)
    (hcaller : a.callerSpan cursor ⊆ addresses)
    (hconvert : hooks a.entryPoints.convert = some ThunkCall.convert)
    (hconvertExit : a.entryPoints.convert ≠ exitAddress)
    (hinterpret : hooks a.entryPoints.interpret = some interpret)
    (hinterpretExit : a.entryPoints.interpret ≠ exitAddress)
    (hanswers : Answers a.method.signature.params.length v interpret) (log : Log) :
    ∃ n calls last log' m, Trace hooks n (calls ++ [last]) log a.entry log' m ∧
      n ≤ 14 * a.layout.params.length + 55 ∧ Answered a v calls last m := by
  have hroom : a.entry.Room a.layout.frameSize := by
    obtain ⟨-, rfl⟩ := ofStatements_eq_ok_iff.mp hstub
    exact hstanding.room
  -- Neither function is asked to keep less than it keeps, so everything may count as kept.
  obtain ⟨ready, n, calls, log₁, m₁, hconfined, hn, harrived, hreached⟩ := confined_to_interpreter
    hlaid hstub hstanding hconvert hconvertExit
    (convertContract_convert hlaid hroom hdescribed hcaller Set.univ) (Set.subset_univ _) log
  obtain ⟨-, rfl⟩ := ofStatements_eq_ok_iff.mp hstub
  have hslots := hlaid.slots_subset_own hroom
  obtain ⟨n', m₂, log₂, m₃, hconfined', hn', hok, hfinished⟩ := confined_from_interpreter hlaid
    hroom harrived hreached hinterpret hinterpretExit
    (interpretContract_of_answers hlaid hroom (Set.subset_univ _) hanswers) (Set.subset_univ _)
    (hstanding.apart.mono_right hslots) (Set.subset_univ _) (a.entry.ownSpan a.layout.frameSize)
    log₁
  have hrecorded := harrived.recorded hlaid (Set.subset_univ _)
  obtain ⟨log', m', hok', hpreserves, hload⟩ :=
    hanswers log₁ m₁ (harrived.interpreting.recordIn hlaid hroom hrecorded)
  obtain ⟨rfl, rfl⟩ := Prod.mk.inj (Except.ok.inj (hok.symm.trans hok'))
  rw [harrived.interpreting.toNat_retval hlaid hroom hrecorded] at hload
  refine ⟨n + n', calls, ⟨m₁, m₂⟩, log₂, m₃, (hconfined.trans hconfined').trace, by omega,
    harrived.count.trans hlaid.length_args, harrived.conversions, harrived.interpreting, hrecorded,
    fun i arg harg => harrived.tagged hlaid hroom hdescribed hcaller (Set.subset_univ _) harg,
    hfinished, hload, ?_⟩
  have hown : Disjoint (a.entry.ownSpan a.layout.frameSize)ᶜ (a.slots 0 (a.args.length + 1)) :=
    disjoint_compl_left.mono_right hslots
  have hanswer : (a.entry.ownSpan a.layout.frameSize)ᶜ ⊆ m₁.answerSpanᶜ := by
    rw [harrived.interpreting.answerSpan_eq hlaid hroom hrecorded]
    exact (hown.mono_right
      (Activation.slots_mono (Nat.zero_le _) (Nat.le_refl _))).subset_compl_right
  rw [hfinished.memory, memory_leave]
  exact (hpreserves.memory.mono hanswer).trans
    ((harrived.eqOn (Set.subset_univ _) hown).trans harrived.start.unchanged)

end Thunk

end CallBridge

import CallBridge.Insn.Listing
import CallBridge.Proofs.Operands
import Mathlib.Data.List.Basic
import Mathlib.Tactic.SplitIfs

/-!
# The assembler and the decoder

An assembler call is refused for its first operand out of range and then adds nothing to the code,
or it adds the words of its instructions (`SourceLine.bytes_eq`). What all calls together add is
therefore known line by line, and read back word by word it gives the accepted instructions
(`decoding_inverts_assembly`). The other way round, most words that decode are what one call emits;
the exceptions are instructions that no statement stands for (`Insn.HasStatement`).
-/

namespace CallBridge

/-! ## Calls -/

namespace Statement

/-- The registers that a statement names, in the order in which they are checked. -/
def registers : Statement → List Nat
  | addi rd ra _ => [rd, ra]
  | li rd _ | lis rd _ | loadWord rd _ | mflr rd => [rd]
  | ori ra rs _ => [rs, ra]
  | mr ra rs => [ra, rs]
  | transfer _ reg _ base => [reg, base]
  | frsp frd frb => [frd, frb]
  | mtlr rs => [rs]
  | blr | blrl => []

/-- The displacement or signed immediate of a statement, if it has one; it is checked after the
registers. -/
def displacements : Statement → List Int
  | addi _ _ value | li _ value => [value]
  | transfer _ _ disp _ => [disp]
  | _ => []

/-- A register does not exist, or a displacement does not fit sixteen bits. -/
def Rejected (s : Statement) : Prop :=
  (∃ r ∈ s.registers, 32 ≤ r) ∨ ∃ d ∈ s.displacements, d < -32768 ∨ 32767 < d

instance (s : Statement) : Decidable s.Rejected :=
  inferInstanceAs (Decidable (_ ∨ _))

/-- The operands out of range, in the order in which they are checked. -/
def faults (s : Statement) : List OperandFault :=
  (s.registers.filter (32 ≤ ·)).map .register ++
    (s.displacements.filter fun d => d < -32768 ∨ 32767 < d).map .displacement

/-- The bytes of code that a statement stands for; a word is always loaded in two instructions. -/
def size : Statement → Nat
  | loadWord _ _ => 8
  | _ => 4

theorem bind_register {α : Type} (n : Nat) (f : Reg → Except OperandFault α) :
    (register n >>= f) = if 32 ≤ n then .error (.register n) else f (Reg.ofNat n) := by
  by_cases h : 32 ≤ n
  · rw [register, dif_neg (Nat.not_lt.mpr h), if_pos h]
    rfl
  · rw [register_eq_ok_iff.mpr ⟨Nat.lt_of_not_le h, rfl⟩, if_neg h]
    rfl

theorem bind_displacement {α : Type} (d : Int) (f : Immediate → Except OperandFault α) :
    (displacement d >>= f) =
      if d < -32768 ∨ 32767 < d then .error (.displacement d) else f (BitVec.ofInt 16 d) := by
  by_cases h : d < -32768 ∨ 32767 < d
  · rw [displacement, if_neg (by omega), if_pos h]
    rfl
  · rw [displacement_eq_ok_iff.mpr ⟨by unfold InRange; omega, rfl⟩, if_neg h]
    rfl

/-- A call is refused for its first bad operand. -/
theorem insns_eq (s : Statement) :
    s.insns = match s.faults.head? with
      | some fault => .error fault
      | none => .ok s.unchecked := by
  cases s with
  | blr | blrl => rfl
  | _ =>
      simp only [insns, bind_register, bind_displacement, faults, registers, displacements,
        unchecked, List.filter_cons, List.filter_nil, decide_eq_true_eq]
      split_ifs <;> rfl

theorem head?_faults_eq_none_iff {s : Statement} : s.faults.head? = none ↔ ¬s.Rejected := by
  simp only [faults, Rejected, List.head?_eq_none_iff, List.append_eq_nil_iff, List.map_eq_nil_iff,
    List.filter_eq_nil_iff, decide_eq_true_eq, not_or, not_exists, not_and]

theorem length_codeOf_unchecked (s : Statement) : (codeOf s.unchecked).length = s.size := by
  rw [length_codeOf]
  cases s <;> rfl

end Statement

namespace SourceLine

def Rejected : SourceLine → Prop
  | statement s => s.Rejected
  | word _ => False

instance (line : SourceLine) : Decidable line.Rejected :=
  match line with
  | statement s => inferInstanceAs (Decidable s.Rejected)
  | word _ => inferInstanceAs (Decidable False)

/-- What a line is refused for. -/
def fault? : SourceLine → Option OperandFault
  | statement s => s.faults.head?
  | word _ => none

def size : SourceLine → Nat
  | statement s => s.size
  | word _ => 4

/-- The words of a line whose operands are in range. -/
def words : SourceLine → List Word
  | statement s => s.unchecked.map Insn.encode
  | word w => [w]

/-- What these words read as. -/
def decoded : SourceLine → List (Option Insn)
  | statement s => s.unchecked.map some
  | word w => [Insn.decode? w]

theorem fault?_eq_none_iff {line : SourceLine} : line.fault? = none ↔ ¬line.Rejected := by
  cases line with
  | statement s => exact Statement.head?_faults_eq_none_iff
  | word w => simp [fault?, Rejected]

theorem decode?_words (line : SourceLine) : line.words.map Insn.decode? = line.decoded := by
  cases line with
  | word w => rfl
  | statement s =>
      rw [words, decoded, List.map_map]
      exact List.map_congr_left fun i _ => Insn.decode?_encode i

theorem bytes_eq (line : SourceLine) :
    line.bytes = match line.fault? with
      | some fault => .error fault
      | none => .ok (line.words.flatMap Word.bytes) := by
  cases line with
  | word w => simp [bytes, fault?, words]
  | statement s =>
      rw [bytes, Statement.insns_eq, fault?, words, List.flatMap_map]
      cases s.faults.head? <;> rfl

theorem length_words (line : SourceLine) :
    (line.words.flatMap Word.bytes).length = line.size := by
  cases line with
  | word w => simp [words, size, Word.bytes]
  | statement s =>
      rw [words, List.flatMap_map]
      exact s.length_codeOf_unchecked

end SourceLine

/-! ## Sequences of calls -/

/-- Calls after other calls add to their results and to their code. -/
theorem assembleSource_append (size : Nat) (first second : List SourceLine) :
    assembleSource size (first ++ second) =
      ((assembleSource size first).1 ++
          (assembleSource (size + (assembleSource size first).2.length) second).1,
        (assembleSource size first).2 ++
          (assembleSource (size + (assembleSource size first).2.length) second).2) := by
  induction first generalizing size with
  | nil => rfl
  | cons line rest ih =>
      rw [List.cons_append, assembleSource, assembleSource]
      cases line.bytes with
      | ok bytes => simp [ih, Nat.add_assoc]
      | error fault => simp [ih]

theorem assembleSource_rejected {line : SourceLine} (h : line.Rejected) (size : Nat) :
    ∃ fault, line.fault? = some fault ∧ assembleSource size [line] = ([.error fault], []) := by
  cases hfault : line.fault? with
  | none => exact absurd h (SourceLine.fault?_eq_none_iff.mp hfault)
  | some fault =>
      refine ⟨fault, rfl, ?_⟩
      rw [assembleSource, line.bytes_eq, hfault]
      rfl

theorem assembleSource_accepted {line : SourceLine} (h : ¬line.Rejected) (size : Nat) :
    assembleSource size [line] =
      ([.ok (size + line.size)], line.words.flatMap Word.bytes) := by
  rw [assembleSource, line.bytes_eq, SourceLine.fault?_eq_none_iff.mpr h, ← line.length_words]
  simp [assembleSource]

/-- The code of all calls together is that of the accepted ones. -/
theorem code_assembleSource (size : Nat) (source : List SourceLine) :
    (assembleSource size source).2 =
      ((source.filter fun line => ¬line.Rejected).flatMap SourceLine.words).flatMap
        Word.bytes := by
  induction source generalizing size with
  | nil => rfl
  | cons line rest ih =>
      rw [← List.singleton_append, assembleSource_append, ih, List.filter_append,
        List.flatMap_append, List.flatMap_append]
      by_cases h : line.Rejected
      · obtain ⟨fault, -, hline⟩ := assembleSource_rejected h size
        simp [hline, h]
      · simp [assembleSource_accepted h, h]

/-! ## Reading code back -/

namespace Listing

theorem chunks_flatMap_bytes (words : List Word) :
    chunks (words.flatMap Word.bytes) = words.map Word.bytes := by
  induction words with
  | nil => rfl
  | cons w rest ih =>
      rw [List.flatMap_cons, List.map_cons, ← ih]
      rfl

theorem insn?_bytes (w : Word) : insn? w.bytes = Insn.decode? w := by
  have hlength : w.bytes.length = 4 := length_bytesOf ..
  have hrange : w.toNat < byteRange 4 := w.isLt
  rw [insn?, if_pos hlength, Word.bytes, valueOf_bytesOf, Nat.mod_eq_of_lt hrange,
    BitVec.ofNat_toNat, BitVec.setWidth_eq]

end Listing

/-- Read word by word, the code of all calls is what the accepted ones say. -/
theorem insn?_assembleSource (size : Nat) (source : List SourceLine) :
    (Listing.chunks (assembleSource size source).2).map Listing.insn? =
      (source.filter fun line => ¬line.Rejected).flatMap SourceLine.decoded := by
  rw [code_assembleSource, Listing.chunks_flatMap_bytes, List.map_map]
  have hword : Listing.insn? ∘ Word.bytes = Insn.decode? := by
    funext w
    rw [Function.comp_apply, Listing.insn?_bytes]
  rw [hword, List.map_flatMap]
  exact List.flatMap_congr fun line _ => line.decode?_words

/-- Without bare words among the calls, that is the instructions of the accepted ones. -/
theorem insn?_assembleSource_statements (size : Nat) (calls : List Statement) :
    (Listing.chunks (assembleSource size (calls.map .statement)).2).map Listing.insn? =
      ((calls.filter fun s => ¬s.Rejected).flatMap Statement.unchecked).map some := by
  rw [insn?_assembleSource, List.filter_map, List.flatMap_map, List.map_flatMap]
  rfl

/-! ## Words that one call emits -/

namespace Insn

/-- There is a statement for the instruction: a base is added to an upper half only where it is
zero, and the sources of `or` are one register. -/
def HasStatement : Insn → Prop
  | addis _ ra _ => ra = r0
  | or _ rs rb => rs = rb
  | _ => True

/-- The statement for an instruction that has one. -/
def statement : Insn → Statement
  | addi rd ra imm => .addi rd ra imm.toInt
  | addis rd _ imm => .lis rd imm
  | ori ra rs imm => .ori ra rs imm
  | or ra rs _ => .mr ra rs
  | transfer op reg disp base => .transfer op reg disp.toInt base
  | frsp frd frb => .frsp frd frb
  | mflr rd => .mflr rd
  | mtlr rs => .mtlr rs
  | blr => .blr
  | blrl => .blrl

theorem not_rejected_statement (i : Insn) : ¬i.statement.Rejected := by
  have hregister (r : Reg) : ¬32 ≤ r.val := Nat.not_le.mpr r.isLt
  have hrange (imm : Immediate) : ¬(imm.toInt < -32768 ∨ 32767 < imm.toInt) := by
    have hlow := imm.le_toInt
    have hhigh := imm.toInt_lt
    omega
  cases i <;>
    simp [statement, Statement.Rejected, Statement.registers, Statement.displacements, hregister,
      hrange]

theorem unchecked_statement {i : Insn} (h : i.HasStatement) : i.statement.unchecked = [i] := by
  cases i with
  | addis rd ra imm =>
      obtain rfl : ra = r0 := h
      simp [statement, Statement.unchecked]
  | or ra rs rb =>
      obtain rfl : rs = rb := h
      simp [statement, Statement.unchecked]
  | _ => simp [statement, Statement.unchecked]

end Insn

theorem assembleSource_of_decode? {w : Word} {i : Insn} (hdecode : Insn.decode? w = some i)
    (hstatement : i.HasStatement) (size : Nat) :
    assembleSource size [.statement i.statement] = ([.ok (size + 4)], w.bytes) := by
  have hwords : (SourceLine.statement i.statement).words = [w] := by
    rw [SourceLine.words, Insn.unchecked_statement hstatement, List.map_singleton,
      Insn.encode_of_decode? hdecode]
  have hsize := (SourceLine.statement i.statement).length_words
  have haccepted : ¬(SourceLine.statement i.statement).Rejected := i.not_rejected_statement
  rw [assembleSource_accepted haccepted, ← hsize, hwords, List.flatMap_singleton]
  rfl

/-- The assembler and the decoder undo each other. A call is refused exactly when an operand is out
of range, and then the code stays as it is; any other call adds its four or eight bytes. The code of
all calls reads, word by word, as the instructions of the accepted ones, in order and with their
operands; bare words read as what they are. And where a word reads as an instruction that has a
statement, that statement emits just this word. -/
theorem decoding_inverts_assembly :
    (∀ source steps code (line : SourceLine), assembleSource 0 source = (steps, code) →
      (line.Rejected → ∃ fault, line.fault? = some fault ∧
        assembleSource 0 (source ++ [line]) = (steps ++ [.error fault], code)) ∧
      (¬line.Rejected → ∃ bytes : List Byte, bytes.length = line.size ∧
        assembleSource 0 (source ++ [line]) =
          (steps ++ [.ok (code.length + line.size)], code ++ bytes))) ∧
    (∀ source : List SourceLine, (Listing.chunks (assembleSource 0 source).2).map Listing.insn? =
      (source.filter fun line => ¬line.Rejected).flatMap SourceLine.decoded) ∧
    (∀ calls : List Statement,
      (Listing.chunks (assembleSource 0 (calls.map .statement)).2).map Listing.insn? =
        ((calls.filter fun s => ¬s.Rejected).flatMap Statement.unchecked).map some) ∧
    ∀ w i, Insn.decode? w = some i → i.HasStatement →
      assembleSource 0 [.statement i.statement] = ([.ok 4], w.bytes) := by
  refine ⟨fun source steps code line hsource => ⟨fun h => ?_, fun h => ?_⟩,
    insn?_assembleSource 0, insn?_assembleSource_statements 0, fun w i hdecode hstatement =>
      assembleSource_of_decode? hdecode hstatement 0⟩
  · obtain ⟨fault, hfault, hline⟩ := assembleSource_rejected h (0 + code.length)
    refine ⟨fault, hfault, ?_⟩
    rw [assembleSource_append, hsource, hline, List.append_nil]
  · refine ⟨_, line.length_words, ?_⟩
    rw [assembleSource_append, hsource, assembleSource_accepted h, Nat.zero_add]

/-- A refused call, a call of two words, a bare word that is no instruction, and a move. -/
def mixedSource : List SourceLine :=
  [ .statement (.transfer .stwu 1 (-48) 32), .statement (.loadWord 0 0x80001234), .word 0,
    .statement (.mr 12 6) ]

theorem decoding_inverts_assembly_mixed : ∃ steps code,
    assembleSource 0 mixedSource = (steps, code) ∧
    assembleSource 0 (mixedSource ++ [.statement (.transfer .lwz 3 0x8000 12)]) =
      (steps ++ [.error (.displacement 0x8000)], code) ∧
    (∃ bytes : List Byte, bytes.length = 8 ∧
      assembleSource 0 (mixedSource ++ [.statement (.loadWord 3 0xdeadbeef)]) =
        (steps ++ [.ok (code.length + 8)], code ++ bytes)) ∧
    (Listing.chunks code).map Listing.insn? =
      [some (.addis r0 r0 0x8000), some (.ori r0 r0 0x1234), none,
        some (.or (Reg.ofNat 12) r6 r6)] ∧
    assembleSource 0 [.statement (.lis 0 0x8000)] = ([.ok 4], Word.bytes 0x3c008000) := by
  obtain ⟨hcall, hread, -, hword⟩ := decoding_inverts_assembly
  obtain ⟨hrefused, -⟩ := hcall mixedSource _ _ (.statement (.transfer .lwz 3 0x8000 12)) rfl
  obtain ⟨-, haccepted⟩ := hcall mixedSource _ _ (.statement (.loadWord 3 0xdeadbeef)) rfl
  obtain ⟨fault, hfault, hrefused⟩ := hrefused (by decide)
  obtain rfl : fault = .displacement 0x8000 := (Option.some.inj hfault).symm
  refine ⟨_, _, rfl, hrefused, haccepted (by decide), (hread mixedSource).trans (by decide), ?_⟩
  exact hword 0x3c008000 (.addis r0 r0 0x8000) (by decide) rfl

end CallBridge

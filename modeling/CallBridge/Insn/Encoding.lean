import CallBridge.Insn

/-!
# Instruction words

An instruction word is made of an opcode of six bits, two register fields of five bits each and
sixteen low bits. `Insn.encode` writes an instruction as a word and `Insn.decode?` reads it back:
`decode?_encode` says that nothing is lost, and `encode_of_decode?` that every word which reads as
an instruction is that instruction's only word.
-/

namespace CallBridge

/-! ## Fields -/

def wordOf (opcode : Nat) (first second : Reg) (low : Nat) : Word :=
  BitVec.ofNat 32 (((opcode * 32 + first.val) * 32 + second.val) * 65536 + low)

namespace Word

def opcode (w : Word) : Nat := w.toNat >>> 26

def first (w : Word) : Reg := Reg.ofNat (w.toNat >>> 21)

def second (w : Word) : Reg := Reg.ofNat (w.toNat >>> 16)

def low (w : Word) : Nat := w.toNat % 65536

/-- The third register field, the upper part of the low bits. -/
def third (w : Word) : Reg := Reg.ofNat (w.low / 2048)

/-- The bits below the third register field. -/
def function (w : Word) : Nat := w.low % 2048

end Word

namespace Transfer

def opcode : Transfer → Nat
  | lwz => 32
  | stw => 36
  | stwu => 37
  | stb => 38
  | sth => 44
  | lfd => 50
  | stfs => 52
  | stfd => 54

def ofOpcode? : Nat → Option Transfer
  | 32 => some lwz
  | 36 => some stw
  | 37 => some stwu
  | 38 => some stb
  | 44 => some sth
  | 50 => some lfd
  | 52 => some stfs
  | 54 => some stfd
  | _ => none

theorem opcode_of_ofOpcode? {n : Nat} {op : Transfer} (h : ofOpcode? n = some op) :
    op.opcode = n := by
  unfold ofOpcode? at h
  split at h <;> cases h <;> rfl

end Transfer

namespace Insn

/-- The low bits of a move between a general register and the link register. -/
def fromLink : Nat := 0x2a6

def toLink : Nat := 0x3a6

/-- The second register field of these moves: half of the link register's number. -/
def linkField : Reg := Reg.ofNat 8

def encode : Insn → Word
  | addi rd ra imm => wordOf 14 rd ra imm.toNat
  | addis rd ra imm => wordOf 15 rd ra imm.toNat
  | ori ra rs imm => wordOf 24 rs ra imm.toNat
  | or ra rs rb => wordOf 31 rs ra (rb.val * 2048 + 888)
  | transfer op reg disp base => wordOf op.opcode reg base disp.toNat
  | frsp frd frb => wordOf 63 frd r0 (frb.val * 2048 + 24)
  | mflr rd => wordOf 31 rd linkField fromLink
  | mtlr rs => wordOf 31 rs linkField toLink
  | blr => wordOf 19 (Reg.ofNat 20) r0 32
  | blrl => wordOf 19 (Reg.ofNat 20) r0 33

def decode? (w : Word) : Option Insn :=
  let imm := BitVec.ofNat 16 w.low
  match w.opcode with
  | 14 => some (addi w.first w.second imm)
  | 15 => some (addis w.first w.second imm)
  | 24 => some (ori w.second w.first imm)
  | 19 =>
    if w = encode blr then some blr
    else if w = encode blrl then some blrl
    else none
  | 31 =>
    if w.function = 888 then some (or w.second w.first w.third)
    else if w.second = linkField ∧ w.low = fromLink then some (mflr w.first)
    else if w.second = linkField ∧ w.low = toLink then some (mtlr w.first)
    else none
  | 63 =>
    if w.function = 24 ∧ w.second = r0 then some (frsp w.first w.third) else none
  | opcode => (Transfer.ofOpcode? opcode).map fun op => transfer op w.first imm w.second

end Insn

/-! ## Reading fields back -/

section

variable {opcode low : Nat} {first second : Reg}

theorem toNat_wordOf (ho : opcode < 64) (hl : low < 65536) :
    (wordOf opcode first second low).toNat =
      ((opcode * 32 + first.val) * 32 + second.val) * 65536 + low := by
  rw [wordOf, BitVec.toNat_ofNat]
  omega

theorem opcode_wordOf (ho : opcode < 64) (hl : low < 65536) :
    (wordOf opcode first second low).opcode = opcode := by
  rw [Word.opcode, toNat_wordOf ho hl]
  omega

theorem first_wordOf (ho : opcode < 64) (hl : low < 65536) :
    (wordOf opcode first second low).first = first := by
  apply Fin.ext
  rw [Word.first, toNat_wordOf ho hl, Reg.val_ofNat]
  omega

theorem second_wordOf (ho : opcode < 64) (hl : low < 65536) :
    (wordOf opcode first second low).second = second := by
  apply Fin.ext
  rw [Word.second, toNat_wordOf ho hl, Reg.val_ofNat]
  omega

theorem low_wordOf (ho : opcode < 64) (hl : low < 65536) :
    (wordOf opcode first second low).low = low := by
  rw [Word.low, toNat_wordOf ho hl]
  omega

theorem wordOf_fields (w : Word) : wordOf w.opcode w.first w.second w.low = w := by
  apply BitVec.eq_of_toNat_eq
  have := w.isLt
  rw [toNat_wordOf (by unfold Word.opcode; omega) (by unfold Word.low; omega)]
  simp only [Word.opcode, Word.first, Word.second, Word.low, Reg.val_ofNat]
  omega

end

namespace Insn

/-! ## Reading instructions back -/

theorem decode?_encode (i : Insn) : decode? i.encode = some i := by
  cases i with
  | transfer op reg disp base =>
    have hl : disp.toNat < 65536 := disp.isLt
    cases op <;>
      simp [encode, decode?, opcode_wordOf, first_wordOf, second_wordOf, low_wordOf, hl,
        Transfer.opcode, Transfer.ofOpcode?]
  | addi rd ra imm =>
    have hl : imm.toNat < 65536 := imm.isLt
    simp [encode, decode?, opcode_wordOf, first_wordOf, second_wordOf, low_wordOf, hl]
  | addis rd ra imm =>
    have hl : imm.toNat < 65536 := imm.isLt
    simp [encode, decode?, opcode_wordOf, first_wordOf, second_wordOf, low_wordOf, hl]
  | ori ra rs imm =>
    have hl : imm.toNat < 65536 := imm.isLt
    simp [encode, decode?, opcode_wordOf, first_wordOf, second_wordOf, low_wordOf, hl]
  | or ra rs rb =>
    have hl : rb.val * 2048 + 888 < 65536 := by omega
    have hf : (rb.val * 2048 + 888) % 2048 = 888 := by omega
    have ht : (rb.val * 2048 + 888) / 2048 = rb.val := by omega
    simp [encode, decode?, Word.function, Word.third, opcode_wordOf, first_wordOf, second_wordOf,
      low_wordOf, hl, hf, ht]
  | frsp frd frb =>
    have hl : frb.val * 2048 + 24 < 65536 := by omega
    have hf : (frb.val * 2048 + 24) % 2048 = 24 := by omega
    have ht : (frb.val * 2048 + 24) / 2048 = frb.val := by omega
    simp [encode, decode?, Word.function, Word.third, opcode_wordOf, first_wordOf, second_wordOf,
      low_wordOf, hl, hf, ht]
  | mflr rd =>
    simp [encode, decode?, Word.function, opcode_wordOf, first_wordOf, second_wordOf, low_wordOf,
      fromLink]
  | mtlr rs =>
    simp [encode, decode?, Word.function, opcode_wordOf, first_wordOf, second_wordOf, low_wordOf,
      fromLink, toLink]
  | blr => rfl
  | blrl => rfl

theorem encode_of_decode? {w : Word} {i : Insn} (h : decode? w = some i) : i.encode = w := by
  have fields := wordOf_fields w
  have low : (BitVec.ofNat 16 w.low).toNat = w.low := by
    rw [BitVec.toNat_ofNat, Word.low]
    omega
  have split : w.third.val * 2048 + w.function = w.low := by
    simp only [Word.third, Word.function, Word.low, Reg.val_ofNat]
    omega
  unfold decode? at h
  split at h
  · rename_i op
    cases h
    rwa [op, ← low] at fields
  · rename_i op
    cases h
    rwa [op, ← low] at fields
  · rename_i op
    cases h
    rwa [op, ← low] at fields
  · split at h
    · cases h; exact Eq.symm ‹_›
    · split at h
      · cases h; exact Eq.symm ‹_›
      · cases h
  · rename_i op
    split at h
    · rename_i hf
      cases h
      rwa [op, ← split, hf] at fields
    · split at h
      · rename_i hf
        cases h
        rwa [op, hf.1, hf.2] at fields
      · split at h
        · rename_i hf
          cases h
          rwa [op, hf.1, hf.2] at fields
        · cases h
  · rename_i op
    split at h
    · rename_i hf
      cases h
      rwa [op, ← split, hf.1, hf.2] at fields
    · cases h
  · obtain ⟨op, hop, rfl⟩ := Option.map_eq_some_iff.1 h
    rwa [← Transfer.opcode_of_ofOpcode? hop, ← low] at fields

end Insn

end CallBridge

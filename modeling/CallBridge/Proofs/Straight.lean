import CallBridge.Machine.Step
import CallBridge.Proofs.Memory
import CallBridge.Proofs.Operands
import CallBridge.Proofs.Registers

/-!
# Straight-line code

What code without jumps does, said apart from where it lies. `Executes` runs instructions one after
another and demands of each that it leave a given set of bytes alone; with the code itself in that
set, the run is one that a machine really makes (`Trace`). `Performs` says the same of statements,
and for every kind of statement there is one rule.
-/

namespace CallBridge

namespace Machine

/-- Instructions executed one after another take one machine to another, and none of them changes
a byte that is kept. -/
inductive Executes (kept : Set Nat) : List Insn → Machine → Machine → Prop
  | nil (m : Machine) : Executes kept [] m m
  | cons {i : Insn} {rest : List Insn} {m m₁ m' : Machine}
      (hexec : (m.goto (m.pc + 4)).execute i = .ok m₁) (hpc : m₁.pc = m.pc + 4)
      (hkept : Set.EqOn m₁.memory.byte m.memory.byte kept)
      (hrest : Executes kept rest m₁ m') : Executes kept (i :: rest) m m'

/-- What a sequence of statements with fitting operands does. -/
def Performs (kept : Set Nat) (code : List Statement) (m m' : Machine) : Prop :=
  (∀ s ∈ code, s.Valid) → Executes kept (code.flatMap Statement.unchecked) m m'

variable {kept : Set Nat} {m m₁ m' : Machine}

theorem Executes.append {l l' : List Insn} (h : Executes kept l m m₁)
    (h' : Executes kept l' m₁ m') : Executes kept (l ++ l') m m' := by
  induction h with
  | nil _ => exact h'
  | cons hexec hpc hkept _ ih => exact .cons hexec hpc hkept (ih h')

theorem Executes.pc_eq {l : List Insn} (h : Executes kept l m m') :
    m'.pc = m.pc + BitVec.ofNat 32 (4 * l.length) := by
  induction h with
  | nil m => simp
  | @cons i rest m m₁ m' _ hpc _ _ ih =>
      have hsum : 4 * (i :: rest).length = 4 + 4 * rest.length := by
        rw [List.length_cons]
        omega
      rw [ih, hpc, hsum, BitVec.ofNat_add, BitVec.add_assoc]
      rfl

theorem Executes.eqOn {l : List Insn} (h : Executes kept l m m') :
    Set.EqOn m'.memory.byte m.memory.byte kept := by
  induction h with
  | nil _ => exact Set.eqOn_refl _ _
  | cons _ _ hkept _ ih => exact ih.trans hkept

theorem Performs.nil (m : Machine) : Performs kept [] m m :=
  fun _ => .nil m

theorem Performs.append {code code' : List Statement} (h : Performs kept code m m₁)
    (h' : Performs kept code' m₁ m') : Performs kept (code ++ code') m m' := by
  intro hvalid
  rw [List.flatMap_append]
  exact (h fun s hs => hvalid s (List.mem_append_left _ hs)).append
    (h' fun s hs => hvalid s (List.mem_append_right _ hs))

theorem Performs.cons {s : Statement} {rest : List Statement} (h : Performs kept [s] m m₁)
    (h' : Performs kept rest m₁ m') : Performs kept (s :: rest) m m' :=
  h.append h'

/-- A statement of one instruction, which changes no byte that is kept. -/
theorem performs_insn {s : Statement} {i : Insn} (hs : s.unchecked = [i])
    (hexec : s.Valid → (m.goto (m.pc + 4)).execute i = .ok m') (hpc : m'.pc = m.pc + 4)
    (hkept : Set.EqOn m'.memory.byte m.memory.byte kept) : Performs kept [s] m m' := by
  intro hvalid
  rw [List.flatMap_singleton, hs]
  exact .cons (hexec (hvalid s (List.mem_singleton_self s))) hpc hkept (.nil m')

/-! ## Registers -/

theorem base_eq_r {n : Nat} (h : n % 32 ≠ 0) (m : Machine) : m.base (Reg.ofNat n) = m.r n := by
  have hne : Reg.ofNat n ≠ r0 := fun heq => h (congrArg Fin.val heq)
  rw [base, if_neg hne, r]

theorem base_r0 (m : Machine) : m.base r0 = 0#32 :=
  if_pos rfl

theorem signExtend_ofInt {v : Int} (h : Statement.InRange v) :
    (BitVec.ofInt 16 v).signExtend 32 = BitVec.ofInt 32 v := by
  obtain ⟨hlo, hhi⟩ := h
  rw [BitVec.signExtend, BitVec.toInt_ofInt_eq_self (by decide) (by simpa using hlo)
    (by simp; omega)]

theorem performs_mr (ra rs : Nat) :
    Performs kept [.mr ra rs] m ((m.goto (m.pc + 4)).setR ra (m.r rs)) := by
  refine performs_insn rfl (fun _ => ?_) rfl (Set.eqOn_refl _ _)
  rw [execute, BitVec.or_self]
  rfl

theorem performs_addi {rd ra : Nat} {v : Int} (h : ra % 32 ≠ 0) :
    Performs kept [.addi rd ra v] m
      ((m.goto (m.pc + 4)).setR rd (m.r ra + BitVec.ofInt 32 v)) := by
  refine performs_insn rfl (fun hvalid => ?_) rfl (Set.eqOn_refl _ _)
  rw [execute, base_eq_r h, signExtend_ofInt hvalid.2.2]
  rfl

/-- The address `disp` bytes after the one in a register. -/
theorem performs_addi_address {rd ra disp a : Nat} (h : ra % 32 ≠ 0) (ha : (m.r ra).toNat = a) :
    Performs kept [.addi rd ra disp] m
      ((m.goto (m.pc + 4)).setR rd (BitVec.ofNat 32 (a + disp))) := by
  have hsum : m.r ra + BitVec.ofInt 32 disp = BitVec.ofNat 32 (a + disp) := by
    apply BitVec.eq_of_toNat_eq
    rw [BitVec.toNat_add, ha, BitVec.toNat_ofInt, BitVec.toNat_ofNat]
    omega
  rw [← hsum]
  exact performs_addi h

theorem performs_li (rd : Nat) (v : Int) :
    Performs kept [.li rd v] m ((m.goto (m.pc + 4)).setR rd (BitVec.ofInt 32 v)) := by
  refine performs_insn rfl (fun hvalid => ?_) rfl (Set.eqOn_refl _ _)
  rw [execute, base_r0, signExtend_ofInt hvalid.2, BitVec.zero_add]
  rfl

theorem performs_mflr (rd : Nat) :
    Performs kept [.mflr rd] m ((m.goto (m.pc + 4)).setR rd m.lr) :=
  performs_insn rfl (fun _ => rfl) rfl (Set.eqOn_refl _ _)

theorem performs_mtlr (rs : Nat) :
    Performs kept [.mtlr rs] m ((m.goto (m.pc + 4)).setLink (m.r rs)) :=
  performs_insn rfl (fun _ => rfl) rfl (Set.eqOn_refl _ _)

theorem performs_frsp (frd frb : Nat) :
    Performs kept [.frsp frd frb] m
      ((m.goto (m.pc + 4)).setF frd (SinglePrecision.round (m.f frb))) :=
  performs_insn rfl (fun _ => rfl) rfl (Set.eqOn_refl _ _)

/-- The halves of a word, put together again as `lis` and `ori` do. -/
theorem halves_or (v : Word) :
    (v.extractLsb' 16 16 ++ (0 : Immediate) : BitVec (16 + 16)) |||
      (v.extractLsb' 0 16).setWidth 32 = v := by
  apply BitVec.eq_of_getLsbD_eq
  intro i hi
  rw [BitVec.getLsbD_or, BitVec.getLsbD_append, BitVec.getLsbD_setWidth,
    BitVec.getLsbD_extractLsb', BitVec.getLsbD_extractLsb']
  by_cases hlow : i < 16
  · simp [hlow, hi]
  · have hback : 16 + (i - 16) = i := by omega
    have hhigh : i - 16 < 16 := by omega
    simp [hlow, hhigh, hback]

theorem performs_loadWord (rd : Nat) (v : Word) :
    Performs kept [.loadWord rd v] m ((m.goto (m.pc + 4 + 4)).setR rd v) := by
  intro _
  rw [List.flatMap_singleton, Statement.unchecked]
  have hhigh : (m.goto (m.pc + 4)).execute (.addis (Reg.ofNat rd) r0 (v.extractLsb' 16 16)) =
      .ok ((m.goto (m.pc + 4)).setR rd (v.extractLsb' 16 16 ++ (0 : Immediate))) := by
    rw [execute, base_r0, BitVec.zero_add]
    rfl
  refine .cons hhigh rfl (Set.eqOn_refl _ _) ?_
  generalize hm₁ : (m.goto (m.pc + 4)).setR rd (v.extractLsb' 16 16 ++ (0 : Immediate)) = m₁
  have hlow : (m₁.goto (m₁.pc + 4)).execute (.ori (Reg.ofNat rd) (Reg.ofNat rd)
      (v.extractLsb' 0 16)) = .ok ((m₁.goto (m₁.pc + 4)).setR rd v) := by
    have hself : m₁.r rd = v.extractLsb' 16 16 ++ (0 : Immediate) := by simp [← hm₁]
    show Except.ok ((m₁.goto (m₁.pc + 4)).setR rd (m₁.r rd ||| _)) = _
    rw [hself, halves_or]
  have hresult : (m₁.goto (m₁.pc + 4)).setR rd v = (m.goto (m.pc + 4 + 4)).setR rd v := by
    simp [← hm₁, setR, setGeneral, goto]
  rw [← hresult]
  exact .cons hlow rfl (Set.eqOn_refl _ _) (.nil _)

/-! ## Memory -/

/-- The `count` bytes from `a` on lie in memory, and `a` is the address of a transfer. -/
structure Addresses (m : Machine) (disp : Int) (base a count : Nat) : Prop where
  nonzero : base % 32 ≠ 0
  eq : ((m.r base).toNat : Int) + disp = a
  start : memoryStart ≤ a
  stop : a + count ≤ memoryEnd

section

variable {disp : Int} {reg base a count : Nat} {bytes : List Byte}

theorem Addresses.target (h : m.Addresses disp base a count) (hr : Statement.InRange disp) :
    (m.goto (m.pc + 4)).target (BitVec.ofInt 16 disp) (Reg.ofNat base) = BitVec.ofNat 32 a := by
  rw [Machine.target, base_eq_r h.nonzero, signExtend_ofInt hr, r_goto]
  have heq := h.eq
  have hlt := (m.r base).isLt
  obtain ⟨hlo, hhi⟩ := hr
  apply BitVec.eq_of_toNat_eq
  rw [BitVec.toNat_add, BitVec.toNat_ofInt, BitVec.toNat_ofNat]
  omega

theorem Addresses.toNat (h : m.Addresses disp base a count) : (BitVec.ofNat 32 a).toNat = a := by
  have hstop := h.stop
  have hend := memoryEnd_lt
  rw [BitVec.toNat_ofNat]
  omega

theorem Addresses.inMemory (h : m.Addresses disp base a count) :
    InMemory (BitVec.ofNat 32 a) count := by
  rw [InMemory, h.toNat]
  exact ⟨h.start, h.stop⟩

theorem readBytes_of_inMemory {address : Word} (h : InMemory address count) :
    m.readBytes address count = .ok (m.memory.load address.toNat count) :=
  if_pos h

theorem writeBytes_of_inMemory {address : Word} (h : InMemory address bytes.length) :
    m.writeBytes address bytes = .ok (m.put address.toNat bytes) :=
  if_pos h

theorem readWord_of_inMemory {address : Word} (h : InMemory address 4) :
    m.readWord address = .ok (m.memory.word address.toNat) := by
  rw [readWord, readValue, readBytes_of_inMemory h]
  rfl

theorem readDouble_of_inMemory {address : Word} (h : InMemory address 8) :
    m.readDouble address = .ok (m.memory.doubleWord address.toNat) := by
  rw [readDouble, readValue, readBytes_of_inMemory h]
  rfl

theorem performs_lwz (reg : Nat) (h : m.Addresses disp base a 4) :
    Performs kept [.transfer .lwz reg disp base] m
      ((m.goto (m.pc + 4)).setR reg (m.memory.word a)) := by
  refine performs_insn rfl (fun hvalid => ?_) rfl (Set.eqOn_refl _ _)
  simp only [execute, h.target hvalid.2.2, transfer, readWord_of_inMemory h.inMemory, h.toNat]
  rfl

theorem performs_lfd (reg : Nat) (h : m.Addresses disp base a 8) :
    Performs kept [.transfer .lfd reg disp base] m
      ((m.goto (m.pc + 4)).setF reg (m.memory.doubleWord a)) := by
  refine performs_insn rfl (fun hvalid => ?_) rfl (Set.eqOn_refl _ _)
  simp only [execute, h.target hvalid.2.2, transfer, readDouble_of_inMemory h.inMemory, h.toNat]
  rfl

/-- The bytes that a store puts into memory; a load puts none. -/
def storedBytes (m : Machine) (reg : Nat) : Transfer → List Byte
  | .stw | .stwu => bytesOf 4 (m.r reg).toNat
  | .sth => bytesOf 2 (m.r reg).toNat
  | .stb => bytesOf 1 (m.r reg).toNat
  | .stfd => bytesOf 8 (m.f reg).toNat
  | .stfs => bytesOf 4 (SinglePrecision.narrow (m.f reg)).toNat
  | .lwz | .lfd => []

theorem storedBytes_goto (m : Machine) (pc : Word) (reg : Nat) (op : Transfer) :
    (m.goto pc).storedBytes reg op = m.storedBytes reg op := by
  cases op <;> rfl

theorem transfer_store {op : Transfer} (hop : op ≠ .lwz ∧ op ≠ .lfd) {address : Word}
    (h : InMemory address (m.storedBytes reg op).length) :
    m.transfer op (Reg.ofNat reg) address = .ok (m.put address.toNat (m.storedBytes reg op)) := by
  have hwrite := writeBytes_of_inMemory (m := m) h
  cases op with
  | lwz => exact absurd rfl hop.1
  | lfd => exact absurd rfl hop.2
  | _ => exact hwrite

/-- A store other than `stwu` puts its bytes into memory and changes no register. -/
theorem performs_store {op : Transfer} (hop : op ≠ .lwz ∧ op ≠ .lfd ∧ op ≠ .stwu)
    (h : m.Addresses disp base a (m.storedBytes reg op).length)
    (hkept : Disjoint kept (Set.Ico a (a + (m.storedBytes reg op).length))) :
    Performs kept [.transfer op reg disp base] m
      ((m.goto (m.pc + 4)).put a (m.storedBytes reg op)) := by
  refine performs_insn rfl (fun hvalid => ?_) rfl (Memory.eqOn_store hkept)
  have hin : InMemory (BitVec.ofNat 32 a) ((m.goto (m.pc + 4)).storedBytes reg op).length := by
    rw [storedBytes_goto]
    exact h.inMemory
  have hstore := transfer_store ⟨hop.1, hop.2.1⟩ hin
  rw [storedBytes_goto, h.toNat] at hstore
  simp only [execute, h.target hvalid.2.2, hstore, if_neg hop.2.2]
  rfl

theorem performs_stw (reg : Nat) (h : m.Addresses disp base a 4)
    (hkept : Disjoint kept (Set.Ico a (a + 4))) :
    Performs kept [.transfer .stw reg disp base] m
      ((m.goto (m.pc + 4)).put a (bytesOf 4 (m.r reg).toNat)) := by
  have hlen : (m.storedBytes reg .stw).length = 4 := length_bytesOf ..
  exact performs_store (by decide) (by rwa [hlen]) (by rwa [hlen])

theorem performs_stwu (reg : Nat) (h : m.Addresses disp base a 4)
    (hkept : Disjoint kept (Set.Ico a (a + 4))) :
    Performs kept [.transfer .stwu reg disp base] m
      (((m.goto (m.pc + 4)).put a (bytesOf 4 (m.r reg).toNat)).setR base (BitVec.ofNat 32 a)) := by
  refine performs_insn rfl (fun hvalid => ?_) rfl (Memory.eqOn_store (by rwa [length_bytesOf]))
  have hin : InMemory (BitVec.ofNat 32 a) ((m.goto (m.pc + 4)).storedBytes reg .stwu).length := by
    rw [storedBytes, length_bytesOf]
    exact h.inMemory
  have hstore := transfer_store (by decide) hin
  rw [storedBytes_goto, h.toNat, storedBytes] at hstore
  simp only [execute, h.target hvalid.2.2, hstore, if_pos]
  rfl

end

end Machine

end CallBridge

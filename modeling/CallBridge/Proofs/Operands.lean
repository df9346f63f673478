import CallBridge.Stub
import Mathlib.Data.List.Forall2

/-!
# Statements whose operands fit

Assembling succeeds exactly when every operand of every statement fits its field, and then each
statement gives the same instructions as without any check (`assemble_eq_ok_iff`). So what a built
stub does can be said of its statements, and every one of them may be taken to be in range.
-/

namespace CallBridge

theorem bind_eq_ok_iff {ε α β : Type} {x : Except ε α} {f : α → Except ε β} {b : β} :
    (x >>= f) = .ok b ↔ ∃ a, x = .ok a ∧ f a = .ok b := by
  cases x with
  | error e => simp [bind, Except.bind]
  | ok a => simp [bind, Except.bind]

theorem bind_eq_error_iff {ε α β : Type} {x : Except ε α} {f : α → Except ε β} {e : ε} :
    (x >>= f) = .error e ↔ x = .error e ∨ ∃ a, x = .ok a ∧ f a = .error e := by
  cases x with
  | error e' => simp [bind, Except.bind]
  | ok a => simp [bind, Except.bind]

theorem exists_of_isOk {ε α : Type} {x : Except ε α} (h : x.isOk = true) : ∃ a, x = .ok a := by
  cases x with
  | error e => cases h
  | ok a => exact ⟨a, rfl⟩

theorem toOption_eq_some_iff {ε α : Type} {x : Except ε α} {a : α} :
    x.toOption = some a ↔ x = .ok a := by
  cases x <;> simp [Except.toOption]

theorem mapError_eq_ok_iff {ε ε' α : Type} {x : Except ε α} {f : ε → ε'} {a : α} :
    x.mapError f = .ok a ↔ x = .ok a := by
  cases x with
  | error e => constructor <;> intro h <;> cases h
  | ok b => constructor <;> intro h <;> cases h <;> rfl

theorem map_eq_ok_iff {ε α β : Type} {x : Except ε α} {f : α → β} {b : β} :
    x.map f = .ok b ↔ ∃ a, x = .ok a ∧ f a = b := by
  cases x <;> simp [Except.map]

theorem mapError_ok {ε ε' α : Type} (f : ε → ε') (a : α) :
    (.ok a : Except ε α).mapError f = .ok a := rfl

theorem mapError_error {ε ε' α : Type} (f : ε → ε') (e : ε) :
    (.error e : Except ε α).mapError f = .error (f e) := rfl

theorem ok_bind {ε α β : Type} (a : α) (f : α → Except ε β) : (.ok a >>= f) = f a := rfl

theorem exists_mapM_ok {ε α β : Type} {f : α → Except ε β} : ∀ {l : List α},
    (∀ a ∈ l, ∃ b, f a = .ok b) → ∃ bs, l.mapM f = .ok bs
  | [], _ => ⟨[], rfl⟩
  | a :: l, h => by
      obtain ⟨⟨b, hb⟩, hl⟩ := List.forall_mem_cons.mp h
      obtain ⟨bs, hbs⟩ := exists_mapM_ok hl
      refine ⟨b :: bs, ?_⟩
      rw [List.mapM_cons, hb, ok_bind, hbs, ok_bind]
      rfl

theorem mapM_eq_ok_iff {ε α β : Type} {f : α → Except ε β} {l : List α} {bs : List β} :
    l.mapM f = .ok bs ↔ List.Forall₂ (fun a b => f a = .ok b) l bs := by
  induction l generalizing bs with
  | nil =>
      rw [List.mapM_nil, List.forall₂_nil_left_iff]
      exact ⟨fun h => (Except.ok.inj h).symm, fun h => h ▸ rfl⟩
  | cons a l ih =>
      rw [List.mapM_cons, bind_eq_ok_iff, List.forall₂_cons_left_iff]
      refine exists_congr fun b => ?_
      rw [bind_eq_ok_iff, exists_and_left]
      refine and_congr_right fun _ => exists_congr fun rest => ?_
      rw [ih]
      exact and_congr_right fun _ => ⟨fun h => (Except.ok.inj h).symm, fun h => h ▸ rfl⟩

theorem mapM_eq_error_iff {ε α β : Type} {f : α → Except ε β} {l : List α} {e : ε} :
    l.mapM f = .error e ↔ ∃ before a after, l = before ++ a :: after ∧
      (∀ b ∈ before, ∃ v, f b = .ok v) ∧ f a = .error e := by
  induction l with
  | nil =>
      constructor
      · intro h
        cases h
      · rintro ⟨before, a, after, hl, -, -⟩
        exact absurd hl.symm (List.append_ne_nil_of_right_ne_nil _ (List.cons_ne_nil _ _))
  | cons x l ih =>
      rw [List.mapM_cons, bind_eq_error_iff]
      constructor
      · rintro (hx | ⟨v, hx, h⟩)
        · exact ⟨[], x, l, rfl, List.forall_mem_nil _, hx⟩
        · rcases bind_eq_error_iff.mp h with h | ⟨rest, -, h⟩
          · obtain ⟨before, a, after, rfl, hbefore, ha⟩ := ih.mp h
            exact ⟨x :: before, a, after, rfl, List.forall_mem_cons.mpr ⟨⟨v, hx⟩, hbefore⟩, ha⟩
          · cases h
      · rintro ⟨_ | ⟨b, before⟩, a, after, hl, hbefore, ha⟩
        · obtain ⟨rfl, rfl⟩ := List.cons.inj hl
          exact .inl ha
        · obtain ⟨rfl, rfl⟩ := List.cons.inj hl
          obtain ⟨⟨v, hv⟩, hbefore⟩ := List.forall_mem_cons.mp hbefore
          exact .inr ⟨v, hv, bind_eq_error_iff.mpr (.inl (ih.mpr ⟨_, _, _, rfl, hbefore, ha⟩))⟩

namespace Statement

/-- A displacement or a signed immediate fits sixteen bits. -/
def InRange (value : Int) : Prop :=
  -32768 ≤ value ∧ value ≤ 32767

def Valid : Statement → Prop
  | addi rd ra value => rd < 32 ∧ ra < 32 ∧ InRange value
  | li rd value => rd < 32 ∧ InRange value
  | lis rd _ => rd < 32
  | ori ra rs _ => ra < 32 ∧ rs < 32
  | loadWord rd _ => rd < 32
  | mr ra rs => ra < 32 ∧ rs < 32
  | transfer _ reg disp base => reg < 32 ∧ base < 32 ∧ InRange disp
  | frsp frd frb => frd < 32 ∧ frb < 32
  | mflr rd => rd < 32
  | mtlr rs => rs < 32
  | blr => True
  | blrl => True

/-- The instructions of a statement, its operands taken to fit. -/
def unchecked : Statement → List Insn
  | addi rd ra value => [.addi (Reg.ofNat rd) (Reg.ofNat ra) (BitVec.ofInt 16 value)]
  | li rd value => [.addi (Reg.ofNat rd) r0 (BitVec.ofInt 16 value)]
  | lis rd value => [.addis (Reg.ofNat rd) r0 value]
  | ori ra rs value => [.ori (Reg.ofNat ra) (Reg.ofNat rs) value]
  | loadWord rd value =>
    [ .addis (Reg.ofNat rd) r0 (value.extractLsb' 16 16),
      .ori (Reg.ofNat rd) (Reg.ofNat rd) (value.extractLsb' 0 16) ]
  | mr ra rs => [.or (Reg.ofNat ra) (Reg.ofNat rs) (Reg.ofNat rs)]
  | transfer op reg disp base =>
    [.transfer op (Reg.ofNat reg) (BitVec.ofInt 16 disp) (Reg.ofNat base)]
  | frsp frd frb => [.frsp (Reg.ofNat frd) (Reg.ofNat frb)]
  | mflr rd => [.mflr (Reg.ofNat rd)]
  | mtlr rs => [.mtlr (Reg.ofNat rs)]
  | blr => [.blr]
  | blrl => [.blrl]

theorem register_eq_ok_iff {n : Nat} {x : Reg} :
    register n = .ok x ↔ n < 32 ∧ x = Reg.ofNat n := by
  unfold register
  split
  · rename_i h
    have hx : (⟨n, h⟩ : Reg) = Reg.ofNat n := Fin.ext (Nat.mod_eq_of_lt h).symm
    simp [h, hx, eq_comm]
  · rename_i h
    simp [h]

theorem displacement_eq_ok_iff {value : Int} {imm : Immediate} :
    displacement value = .ok imm ↔ InRange value ∧ imm = BitVec.ofInt 16 value := by
  unfold displacement InRange
  split
  · rename_i h
    simp [h, eq_comm]
  · rename_i h
    simp only [reduceCtorEq, false_iff, not_and]
    exact fun hle => absurd hle h

theorem insns_eq_ok_iff {s : Statement} {insns : List Insn} :
    s.insns = .ok insns ↔ s.Valid ∧ insns = s.unchecked := by
  cases s <;>
    simp only [Statement.insns, bind_eq_ok_iff, register_eq_ok_iff, displacement_eq_ok_iff, Valid,
      unchecked, pure, Except.pure, Except.ok.injEq] <;>
    grind

end Statement

/-- Statements assemble exactly when all their operands fit. -/
theorem assemble_eq_ok_iff {code : List Statement} {insns : List Insn} :
    assemble code = .ok insns ↔
      (∀ s ∈ code, s.Valid) ∧ insns = code.flatMap Statement.unchecked := by
  induction code generalizing insns with
  | nil => simp [assemble, eq_comm]
  | cons s rest ih =>
      simp only [assemble, bind_eq_ok_iff, Statement.insns_eq_ok_iff, ih, List.forall_mem_cons,
        List.flatMap_cons, pure, Except.pure, Except.ok.injEq]
      grind

/-- What a built stub is: its statements fit and its instructions are theirs. -/
theorem ofStatements_eq_ok_iff {code : List Statement} {frameSize : Nat} {stub : Stub} :
    Stub.ofStatements code frameSize = .ok stub ↔
      (∀ s ∈ code, s.Valid) ∧ stub = ⟨code.flatMap Statement.unchecked, frameSize⟩ := by
  simp only [Stub.ofStatements, map_eq_ok_iff, mapError_eq_ok_iff, assemble_eq_ok_iff]
  grind

/-! ## Sizes -/

theorem Statement.length_unchecked_le (s : Statement) : s.unchecked.length ≤ 2 := by
  cases s <;> simp [unchecked]

theorem length_unchecked_le (code : List Statement) :
    (code.flatMap Statement.unchecked).length ≤ 2 * code.length := by
  induction code with
  | nil => simp
  | cons s rest ih =>
      have hs := s.length_unchecked_le
      rw [List.flatMap_cons, List.length_append, List.length_cons]
      omega

theorem length_codeOf (insns : List Insn) : (codeOf insns).length = 4 * insns.length := by
  induction insns with
  | nil => rfl
  | cons i rest ih =>
      rw [codeOf, List.flatMap_cons, List.length_append, ← codeOf, ih, Word.bytes, length_bytesOf,
        List.length_cons]
      omega

end CallBridge

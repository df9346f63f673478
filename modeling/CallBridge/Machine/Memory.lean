import CallBridge.Bytes
import Std.Data.TreeMap

/-!
# Memory

Bytes by address. A byte that was never written is zero. `byte` is the view of a memory: what each
operation does is said through it, by `byte_set` and `byte_store`.
-/

namespace CallBridge

/-- The bytes that were written, by address. -/
structure Memory where
  written : Std.TreeMap Nat Byte

namespace Memory

def empty : Memory := ⟨∅⟩

/-- The byte at an address. -/
def byte (m : Memory) (address : Nat) : Byte :=
  m.written.getD address 0

def set (m : Memory) (address : Nat) (b : Byte) : Memory :=
  ⟨m.written.insert address b⟩

/-- The bytes from an address on. -/
def load (m : Memory) (address : Nat) : (count : Nat) → List Byte
  | 0 => []
  | count + 1 => m.byte address :: m.load (address + 1) count

/-- Puts bytes from an address on. -/
def store (m : Memory) (address : Nat) : List Byte → Memory
  | [] => m
  | b :: bytes => (m.set address b).store (address + 1) bytes

/-! ## Laws -/

@[simp]
theorem byte_empty (address : Nat) : empty.byte address = 0 :=
  Std.TreeMap.getD_emptyc

theorem byte_set (m : Memory) (address : Nat) (b : Byte) (x : Nat) :
    (m.set address b).byte x = if address = x then b else m.byte x := by
  simp only [byte, set, Std.TreeMap.getD_insert, Nat.compare_eq_eq]

@[simp]
theorem length_load (m : Memory) (address count : Nat) : (m.load address count).length = count := by
  induction count generalizing address with
  | zero => rfl
  | succ count ih => simp [load, ih]

theorem getElem_load {m : Memory} {address count i : Nat} (h : i < (m.load address count).length) :
    (m.load address count)[i] = m.byte (address + i) := by
  induction count generalizing address i with
  | zero => simp [load] at h
  | succ count ih =>
    cases i with
    | zero => rfl
    | succ i => simp only [load, List.getElem_cons_succ, ih, Nat.add_assoc, Nat.add_comm 1]

theorem byte_store (m : Memory) (address : Nat) (bytes : List Byte) (x : Nat) :
    (m.store address bytes).byte x =
      if address ≤ x then bytes[x - address]?.getD (m.byte x) else m.byte x := by
  induction bytes generalizing m address with
  | nil => simp [store]
  | cons b bytes ih =>
    rw [store, ih, byte_set]
    by_cases later : address < x
    · have split : x - address = x - (address + 1) + 1 := by omega
      have here : address ≠ x := by omega
      rw [if_pos (show address + 1 ≤ x from later), if_pos (Nat.le_of_lt later), if_neg here,
        split, List.getElem?_cons_succ]
    · rw [if_neg (show ¬address + 1 ≤ x from later)]
      by_cases here : address = x
      · subst here
        simp
      · have before : ¬address ≤ x := by omega
        rw [if_neg here, if_neg before]

/-- Loading depends on the bytes loaded only. -/
theorem load_congr {m m' : Memory} {address count : Nat}
    (h : ∀ x, address ≤ x → x < address + count → m.byte x = m'.byte x) :
    m.load address count = m'.load address count := by
  induction count generalizing address with
  | zero => rfl
  | succ count ih =>
    rw [load, load, h address (Nat.le_refl _) (by omega)]
    congr 1
    exact ih fun x hx hx' => h x (by omega) (by omega)

/-- What was stored is loaded again. -/
theorem load_store (m : Memory) (address : Nat) (bytes : List Byte) :
    (m.store address bytes).load address bytes.length = bytes := by
  apply List.ext_getElem (length_load ..)
  intro i _ hi
  rw [getElem_load, byte_store, if_pos (Nat.le_add_right ..), Nat.add_sub_cancel_left,
    List.getElem?_eq_getElem hi, Option.getD_some]

/-- Storing leaves the bytes elsewhere alone. -/
theorem load_store_of_disjoint (m : Memory) {address : Nat} {bytes : List Byte} {other count : Nat}
    (h : other + count ≤ address ∨ address + bytes.length ≤ other) :
    (m.store address bytes).load other count = m.load other count := by
  refine load_congr fun x hx hx' => ?_
  rw [byte_store]
  split
  · rw [List.getElem?_eq_none (by omega), Option.getD_none]
  · rfl

end Memory

end CallBridge

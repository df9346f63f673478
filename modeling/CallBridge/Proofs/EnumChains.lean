import CallBridge.Kind.Passing
import Mathlib.Logic.Function.Iterate

/-!
# Enum chains

What an enum chain of any length comes to. Every kind is a number of enum layers around a kind that
is no enum (`eq_iterate_enum`). Each layer takes one look and so does the kind inside of them, so
the looks run out on a chain of `enumDepthLimit` layers already, and the kind inside is judged only
where there are fewer (`underlying_iterate_enum`).
-/

namespace CallBridge

namespace Kind

/-- The kind is no enum, so that an enum chain ends with it. -/
def IsCore (k : Kind) : Prop :=
  ∀ base, k ≠ enum base

/-! ## Layers -/

theorem isCore_enumCore (k : Kind) : k.enumCore.IsCore :=
  enumCore_ne_enum k

/-- Every kind is an enum chain around its core. -/
theorem eq_iterate_enum (k : Kind) : k = enum^[k.enumDepth] k.enumCore := by
  induction k with
  | enum base ih =>
      rw [enumDepth, enumCore, Function.iterate_succ_apply', ← ih]
  | primitive p | byRef target | valueType size => rfl

/-! ## Looks -/

variable {k : Kind}

/-- Where a chain ends, its kind is judged: inside of an enum it must be an integer. -/
theorem IsCore.unwrap (hk : k.IsCore) (looks : Nat) (inEnum : Bool) :
    k.unwrap (looks + 1) inEnum =
      if inEnum ∧ ¬k.isInteger then .error (.enumBase k) else .ok k := by
  cases k with
  | enum base => exact absurd rfl (hk base)
  | primitive p | byRef target | valueType size => rfl

/-- Every layer takes one look, and what is inside of a layer is inside of an enum. -/
theorem unwrap_iterate_enum (k : Kind) (layers looks : Nat) (inEnum : Bool) :
    (enum^[layers] k).unwrap (layers + looks) inEnum =
      k.unwrap looks (inEnum || decide (0 < layers)) := by
  induction layers generalizing inEnum with
  | zero => simp
  | succ layers ih =>
      rw [Function.iterate_succ_apply', Nat.add_right_comm, Kind.unwrap, ih]
      simp

/-- The looks run out where there are as many layers, whatever is inside of them. -/
theorem unwrap_of_le {layers looks : Nat} (h : looks ≤ layers) (k : Kind) (inEnum : Bool) :
    (enum^[layers] k).unwrap looks inEnum = .error .enumTooDeep := by
  obtain ⟨more, rfl⟩ := Nat.exists_eq_add_of_le h
  have hlast := unwrap_iterate_enum (enum^[more] k) looks 0 inEnum
  rw [Nat.add_zero, ← Function.iterate_add_apply] at hlast
  exact hlast

/-! ## Every chain -/

theorem underlying_of_le {layers : Nat} (h : enumDepthLimit ≤ layers) (k : Kind) :
    (enum^[layers] k).underlying = .error .enumTooDeep :=
  unwrap_of_le h k false

theorem IsCore.underlying_of_lt (hk : k.IsCore) {layers : Nat} (h : layers < enumDepthLimit) :
    (enum^[layers] k).underlying =
      if 0 < layers ∧ ¬k.isInteger then .error (.enumBase k) else .ok k := by
  obtain ⟨looks, hlooks⟩ := Nat.exists_eq_add_of_lt h
  rw [underlying, hlooks, Nat.add_assoc, unwrap_iterate_enum, hk.unwrap]
  simp

/-- A kind of any shape rests on its core, where its layers leave a look for it. -/
theorem underlying_eq (k : Kind) :
    k.underlying =
      if enumDepthLimit ≤ k.enumDepth then .error .enumTooDeep
      else if k.enumDepth = 0 ∨ k.enumCore.isInteger then .ok k.enumCore
      else .error (.enumBase k.enumCore) := by
  rw [congrArg underlying (eq_iterate_enum k)]
  split
  · rename_i hle
    exact underlying_of_le hle _
  · rename_i hlt
    rw [(isCore_enumCore k).underlying_of_lt (Nat.lt_of_not_le hlt)]
    split <;> split <;> grind

/-- What a chain around a kind that is no enum comes to. With no layer it is that kind as it is;
with fewer layers than there are looks it is that kind if it is an integer, and is refused for it
otherwise; and it is too deep exactly when the layers take all looks, whatever the kind. -/
theorem underlying_iterate_enum (layers : Nat) {k : Kind} (hk : k.IsCore) :
    (layers = 0 → (enum^[layers] k).underlying = .ok k) ∧
    (1 ≤ layers → layers < enumDepthLimit → k.isInteger →
      (enum^[layers] k).underlying = .ok k) ∧
    (1 ≤ layers → layers < enumDepthLimit → ¬k.isInteger →
      (enum^[layers] k).underlying = .error (.enumBase k)) ∧
    ((enum^[layers] k).underlying = .error .enumTooDeep ↔ enumDepthLimit ≤ layers) := by
  refine ⟨?_, ?_, ?_, ?_⟩
  · rintro rfl
    rw [hk.underlying_of_lt (by decide)]
    simp
  · intro _ hlt hinteger
    rw [hk.underlying_of_lt hlt]
    simp [hinteger]
  · intro hpos hlt hinteger
    rw [hk.underlying_of_lt hlt, if_pos ⟨hpos, hinteger⟩]
  · refine ⟨fun htoo => ?_, fun hle => underlying_of_le hle k⟩
    by_contra hlt
    rw [hk.underlying_of_lt (Nat.lt_of_not_le hlt)] at htoo
    split at htoo <;> cases htoo

/-- Fifteen layers around an integer and around a float, and sixteen around either. -/
theorem underlying_iterate_enum_fifteen :
    (enum^[15] (primitive .int32)).underlying = .ok (primitive .int32) ∧
    (enum^[15] (primitive .float64)).underlying = .error (.enumBase (primitive .float64)) ∧
    (enum^[16] (primitive .float64)).underlying = .error .enumTooDeep ∧
    (enum^[0] (primitive .float64)).underlying = .ok (primitive .float64) := by
  have hint : (primitive .int32).IsCore := nofun
  have hfloat : (primitive .float64).IsCore := nofun
  exact ⟨(underlying_iterate_enum 15 hint).2.1 (by decide) (by decide) rfl,
    (underlying_iterate_enum 15 hfloat).2.2.1 (by decide) (by decide) (by decide),
    (underlying_iterate_enum 16 hfloat).2.2.2.mpr (Nat.le_refl _),
    (underlying_iterate_enum 0 hfloat).1 rfl⟩

/-- A chain that is just as deep as the limit rests on an integer and is refused all the same. -/
theorem underlying_sixteen_layers :
    (enum^[enumDepthLimit] (primitive .int32)).underlying ≠ .ok (primitive .int32) := by
  rw [underlying_of_le (Nat.le_refl _)]
  nofun

end Kind

end CallBridge

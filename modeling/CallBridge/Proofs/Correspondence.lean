import CallBridge.Proofs.Reduction

/-!
# One kind as argument and as result

A kind that can be passed can also be returned, and travels alike both ways (`classes_agree`). What
the two tables say of a kind is one of four pairs of answers (`Kind.Treated`), and every kind gets
one of them (`Kind.treated`): outside of references and value types both tables look at the kind
that it rests on, which is primitive, so that only their entries for primitive kinds are compared.
-/

namespace CallBridge

/-- A result of the second class is held as an argument of the first: in registers of the same sort
and with the same native width. -/
inductive Corresponds : ArgClass → ReturnClass → Prop
  | byte : Corresponds (.word 1) .byte
  | half : Corresponds (.word 2) .half
  | word : Corresponds (.word 4) .word
  | pointer : Corresponds (.word 4) .pointer
  | wide : Corresponds .wide .wide
  | single : Corresponds .single .single
  | double : Corresponds .double .double

theorem Corresponds.ne_void {argClass : ArgClass} {ret : ReturnClass}
    (h : Corresponds argClass ret) : ret ≠ .void := by
  cases h <;> nofun

/-! ## Primitive kinds -/

namespace Primitive

variable {p : Primitive}

theorem eq_void_of_argClass? (h : p.argClass? = none) : p = .void := by
  cases p with
  | void => rfl
  | _ => cases h

theorem corresponds {argClass : ArgClass} (h : p.argClass? = some argClass) :
    Corresponds argClass p.returnClass := by
  cases p <;> cases h <;> constructor

/-- A pointer is the result of a reference only. -/
theorem returnClass_ne_pointer (p : Primitive) : p.returnClass ≠ .pointer := by
  cases p <;> nofun

end Primitive

/-! ## What a kind rests on -/

variable {k : Kind} {p : Primitive} {cause : Unsupported}

theorem ArgClass.ofKind_of_underlying {core : Kind} (hkind : ∀ target, k ≠ .byRef target)
    (h : k.underlying = .ok core) (position : Nat) : ofKind position k = ofKind position core :=
  ofKind_congr hkind (Kind.underlying_ne_byRef hkind h)
    (h.trans (Kind.underlying_underlying h).symm) position

theorem ReturnClass.ofKind_of_underlying {core : Kind} (hkind : ∀ target, k ≠ .byRef target)
    (h : k.underlying = .ok core) (stringCtor : Bool) :
    ofKind stringCtor k = ofKind stringCtor core :=
  ofKind_congr hkind (Kind.underlying_ne_byRef hkind h)
    (h.trans (Kind.underlying_underlying h).symm) stringCtor

theorem ArgClass.ofKind_of_refused (hkind : ∀ target, k ≠ .byRef target)
    (h : k.underlying = .error cause) (position : Nat) : ofKind position k = .error cause := by
  unfold ofKind
  split
  · exact absurd rfl (hkind _)
  · rw [h]
    rfl

theorem ReturnClass.ofKind_of_refused (hkind : ∀ target, k ≠ .byRef target)
    (h : k.underlying = .error cause) : ofKind false k = .error cause := by
  unfold ofKind
  split
  · rename_i hfalse
    cases hfalse
  · split
    · exact absurd rfl (hkind _)
    · rw [h]
      rfl

namespace Kind

/-- The causes to refuse an enum chain, whatever it is used for. -/
def RefusesChain (cause : Unsupported) : Prop :=
  cause = .enumTooDeep ∨ ∃ base, cause = .enumBase base

theorem refusesChain_of_underlying (h : k.underlying = .error cause) : RefusesChain cause := by
  rw [underlying_eq] at h
  split_ifs at h
  · exact .inl (Except.error.inj h).symm
  · exact .inr ⟨_, (Except.error.inj h).symm⟩

/-- An enum that rests on anything rests on an integer, which is primitive. -/
theorem exists_primitive_of_underlying {base core : Kind} (h : (enum base).underlying = .ok core) :
    ∃ p, p ≠ .void ∧ core = .primitive p := by
  obtain ⟨-, hdepth | hinteger⟩ := eq_enumCore_of_underlying h
  · cases hdepth
  · cases core with
    | primitive p =>
        refine ⟨p, ?_, rfl⟩
        rintro rfl
        cases hinteger
    | byRef | enum | valueType => cases hinteger

/-! ## Both tables -/

/-- What the tables say of a kind, as the argument at a position and as a result. -/
inductive Treated (position : Nat) :
    Kind → Except Unsupported ArgClass → Except Unsupported ReturnClass → Prop
  | alike {k : Kind} {argClass : ArgClass} {ret : ReturnClass} (h : Corresponds argClass ret)
      (hpointer : ret = .pointer ↔ ∃ target, k = .byRef target) :
      Treated position k (.ok argClass) (.ok ret)
  | void : Treated position (.primitive .void) (.error (.argument position (.primitive .void)))
      (.ok .void)
  | valueType (size : BitVec 32) : Treated position (.valueType size)
      (.error (.valueTypeArgument position size)) (.error (.valueTypeResult size))
  | refused {k : Kind} {cause : Unsupported} (h : RefusesChain cause) :
      Treated position k (.error cause) (.error cause)

theorem treated_of_primitive (hkind : ∀ target, k ≠ .byRef target)
    {argClass : ArgClass} (h : p.argClass? = some argClass) (position : Nat) :
    Treated position k (ArgClass.ofKind position (.primitive p))
      (ReturnClass.ofKind false (.primitive p)) := by
  have hargument : ArgClass.ofKind position (.primitive p) = .ok argClass := by
    cases p <;> cases h <;> rfl
  have hpointer : p.returnClass = .pointer ↔ ∃ target, k = .byRef target :=
    iff_of_false p.returnClass_ne_pointer (not_exists.mpr hkind)
  rw [hargument]
  exact .alike (Primitive.corresponds h) hpointer

theorem treated (k : Kind) (position : Nat) :
    Treated position k (ArgClass.ofKind position k) (ReturnClass.ofKind false k) := by
  cases k with
  | byRef target => exact .alike .pointer (iff_of_true rfl ⟨target, rfl⟩)
  | valueType size => exact .valueType size
  | primitive p =>
      have hkind : ∀ target, primitive p ≠ byRef target := nofun
      cases h : p.argClass? with
      | some argClass => exact treated_of_primitive hkind h position
      | none =>
          obtain rfl := Primitive.eq_void_of_argClass? h
          exact .void
  | enum base =>
      have hkind : ∀ target, enum base ≠ byRef target := nofun
      cases hunderlying : (enum base).underlying with
      | error cause =>
          rw [ArgClass.ofKind_of_refused hkind hunderlying,
            ReturnClass.ofKind_of_refused hkind hunderlying]
          exact .refused (refusesChain_of_underlying hunderlying)
      | ok core =>
          obtain ⟨p, hvoid, rfl⟩ := exists_primitive_of_underlying hunderlying
          rw [ArgClass.ofKind_of_underlying hkind hunderlying,
            ReturnClass.ofKind_of_underlying hkind hunderlying]
          cases h : p.argClass? with
          | some argClass => exact treated_of_primitive hkind h position
          | none => exact absurd (Primitive.eq_void_of_argClass? h) hvoid

namespace Treated

variable {position : Nat} {argument : Except Unsupported ArgClass}
  {result : Except Unsupported ReturnClass} {argClass : ArgClass} {ret : ReturnClass}
  {size : BitVec 32}

theorem passed_iff (h : Treated position k argument result) :
    (∃ ret, result = .ok ret ∧ ret ≠ .void) ↔ ∃ argClass, argument = .ok argClass := by
  cases h with
  | @alike _ argClass ret h => exact iff_of_true ⟨ret, rfl, h.ne_void⟩ ⟨argClass, rfl⟩
  | void | valueType | refused => simp

theorem corresponds (h : Treated position k (.ok argClass) (.ok ret)) :
    Corresponds argClass ret ∧ (ret = .pointer ↔ ∃ target, k = .byRef target) := by
  cases h with
  | alike h hpointer => exact ⟨h, hpointer⟩

/-- Only for an enum chain is the cause the same in both places. -/
theorem refused_iff (h : Treated position k argument result) (hcause : RefusesChain cause) :
    argument = .error cause ↔ result = .error cause := by
  cases h with
  | alike => simp
  | void | valueType => rcases hcause with rfl | ⟨base, rfl⟩ <;> simp
  | refused => simp

theorem eq_valueType_of_argument
    (h : Treated position k (.error (.valueTypeArgument position size)) result) :
    k = .valueType size := by
  cases h with
  | valueType => rfl
  | refused hcause => rcases hcause with hcause | ⟨base, hcause⟩ <;> cases hcause

theorem eq_valueType_of_result
    (h : Treated position k argument (.error (.valueTypeResult size))) : k = .valueType size := by
  cases h with
  | valueType => rfl
  | refused hcause => rcases hcause with hcause | ⟨base, hcause⟩ <;> cases hcause

theorem eq_void (h : Treated position k (.error cause) (.ok ret)) : k = .primitive .void := by
  cases h
  rfl

end Treated

end Kind

/-- The tables of classes agree. A kind can be passed exactly if it can be returned as something,
and then its two classes correspond, where a pointer is returned for references and for nothing
else. An enum chain that rests on nothing is refused for the same cause in both places, a value type
is refused in both with its size, and only `void` can be returned and not passed. -/
theorem classes_agree (k : Kind) (position : Nat) :
    ((∃ ret, ReturnClass.ofKind false k = .ok ret ∧ ret ≠ .void) ↔
      ∃ argClass, ArgClass.ofKind position k = .ok argClass) ∧
    (∀ argClass ret, ArgClass.ofKind position k = .ok argClass →
      ReturnClass.ofKind false k = .ok ret →
      Corresponds argClass ret ∧ (ret = .pointer ↔ ∃ target, k = .byRef target)) ∧
    (∀ cause, (cause = .enumTooDeep ∨ ∃ base, cause = .enumBase base) →
      (ArgClass.ofKind position k = .error cause ↔ ReturnClass.ofKind false k = .error cause)) ∧
    (∀ size, (ArgClass.ofKind position k = .error (.valueTypeArgument position size) ↔
        k = .valueType size) ∧
      (ReturnClass.ofKind false k = .error (.valueTypeResult size) ↔ k = .valueType size)) ∧
    (((∃ cause, ArgClass.ofKind position k = .error cause) ∧
      ∃ ret, ReturnClass.ofKind false k = .ok ret) ↔ k = .primitive .void) := by
  have htreated := k.treated position
  refine ⟨htreated.passed_iff, fun argClass ret hargument hresult => ?_,
    fun cause => htreated.refused_iff,
    fun size => ⟨⟨fun hargument => ?_, ?_⟩, fun hresult => ?_, ?_⟩,
    ?_, ?_⟩
  · rw [hargument, hresult] at htreated
    exact htreated.corresponds
  · rw [hargument] at htreated
    exact htreated.eq_valueType_of_argument
  · rintro rfl
    rfl
  · rw [hresult] at htreated
    exact htreated.eq_valueType_of_result
  · rintro rfl
    rfl
  · rintro ⟨⟨cause, hargument⟩, ret, hresult⟩
    rw [hargument, hresult] at htreated
    exact htreated.eq_void
  · rintro rfl
    exact ⟨⟨_, rfl⟩, _, rfl⟩

/-- Two layers around a half word, one around a float, and a reference to that. -/
theorem classes_agree_layered :
    (ArgClass.ofKind 3 (.enum (.enum (.primitive .char))) = .ok (.word 2) ∧
      ReturnClass.ofKind false (.enum (.enum (.primitive .char))) = .ok .half ∧
      Corresponds (.word 2) .half) ∧
    (ArgClass.ofKind 3 (.enum (.primitive .float64)) = .error (.enumBase (.primitive .float64)) ∧
      ReturnClass.ofKind false (.enum (.primitive .float64)) =
        .error (.enumBase (.primitive .float64))) ∧
    ReturnClass.ofKind false (.byRef (.enum (.primitive .float64))) = .ok .pointer ∧
    ∃ argClass, ArgClass.ofKind 3 (.byRef (.enum (.primitive .float64))) = .ok argClass := by
  obtain ⟨-, hlayered, -⟩ := classes_agree (.enum (.enum (.primitive .char))) 3
  obtain ⟨-, -, hfloat, -⟩ := classes_agree (.enum (.primitive .float64)) 3
  obtain ⟨hpassed, -⟩ := classes_agree (.byRef (.enum (.primitive .float64))) 3
  exact ⟨⟨rfl, rfl, (hlayered _ _ rfl rfl).1⟩, ⟨rfl, (hfloat _ (.inr ⟨_, rfl⟩)).mp rfl⟩, rfl,
    hpassed.mp ⟨_, rfl, nofun⟩⟩

end CallBridge

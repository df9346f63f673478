import CallBridge.Proofs.Refusal
import Mathlib.Data.Set.Basic
import Mathlib.Order.Bounds.Basic

/-!
# Which problem is reported

Much can be wrong with a signature at once, and it is refused for one thing. The parameters come
first, from left to right: a parameter is looked at only when all before it have their places, and
its kind before its place (`Signature.Objection`). The result comes after all parameters, and the
reach of the stub after that. So the first objection from the left decides, whatever comes after it
(`first_problem_reported`).
-/

namespace CallBridge

/-! ## What stands against a parameter -/

namespace Signature

/-- The first `count` parameters have classes and places, and `c` is the cursor after them. -/
inductive Placed (sig : Signature) : (count : Nat) → Cursor → Prop
  | start : Placed sig 0 (Cursor.start sig.receiver)
  | next {count : Nat} {c c' : Cursor} {param : Parameter} {argClass : ArgClass}
      {location : Location} (hbefore : Placed sig count c)
      (hparam : sig.params[count]? = some param)
      (hclass : ArgClass.ofKind count param.kind = .ok argClass)
      (hplace : c.place count argClass = .ok (location, c')) : Placed sig (count + 1) c'

/-- Why the parameter at a position is refused: its kind has no class, or it has one and there is no
place for it after all parameters before it. -/
inductive Objection (sig : Signature) (position : Nat) : Unsupported → Prop
  | kind {param : Parameter} {cause : Unsupported} (hparam : sig.params[position]? = some param)
      (hclass : ArgClass.ofKind position param.kind = .error cause) : Objection sig position cause
  | place {param : Parameter} {argClass : ArgClass} {c : Cursor} {cause : Unsupported}
      (hparam : sig.params[position]? = some param)
      (hclass : ArgClass.ofKind position param.kind = .ok argClass)
      (hbefore : sig.Placed position c) (hplace : c.place position argClass = .error cause) :
      Objection sig position cause

/-- The positions of the parameters that something stands against. -/
def objections (sig : Signature) : Set Nat :=
  {position | ∃ cause, sig.Objection position cause}

variable {sig sig' : Signature} {count position position' : Nat} {c c' : Cursor}
  {cause cause' : Unsupported} {stringCtor stringCtor' : Bool}

theorem Placed.le_length (h : sig.Placed count c) : count ≤ sig.params.length := by
  cases h with
  | start => exact Nat.zero_le _
  | next _ hparam => exact (List.getElem?_eq_some_iff.mp hparam).1

theorem Objection.lt_length (h : sig.Objection position cause) :
    position < sig.params.length := by
  cases h with
  | kind hparam | place hparam => exact (List.getElem?_eq_some_iff.mp hparam).1

/-- There is one cursor after so many parameters. -/
theorem Placed.cursor_eq (h : sig.Placed count c) (h' : sig.Placed count c') : c = c' := by
  induction h generalizing c' with
  | start =>
      cases h'
      rfl
  | next _ hparam hclass hplace ih =>
      cases h' with
      | next hbefore' hparam' hclass' hplace' =>
          obtain rfl := ih hbefore'
          obtain rfl := Option.some.inj (hparam.symm.trans hparam')
          obtain rfl := Except.ok.inj (hclass.symm.trans hclass')
          cases hplace.symm.trans hplace'
          rfl

/-- Nothing stands against a parameter that has its place. -/
theorem Placed.no_objection (h : sig.Placed count c) (hlt : position < count) :
    ¬sig.Objection position cause := by
  induction h with
  | start => exact absurd hlt (Nat.not_lt_zero _)
  | next hbefore hparam hclass hplace ih =>
      rcases Nat.lt_succ_iff_lt_or_eq.mp hlt with hlt | rfl
      · exact ih hlt
      rintro (⟨hparam', hclass'⟩ | ⟨hparam', hclass', hbefore', hplace'⟩)
      · obtain rfl := Option.some.inj (hparam.symm.trans hparam')
        cases hclass.symm.trans hclass'
      · obtain rfl := Option.some.inj (hparam.symm.trans hparam')
        obtain rfl := Except.ok.inj (hclass.symm.trans hclass')
        obtain rfl := hbefore.cursor_eq hbefore'
        cases hplace.symm.trans hplace'

/-- One thing at most stands against a parameter. -/
theorem Objection.cause_eq (h : sig.Objection position cause) (h' : sig.Objection position cause') :
    cause = cause' := by
  rcases h with ⟨hparam, hclass⟩ | ⟨hparam, hclass, hbefore, hplace⟩ <;>
  rcases h' with ⟨hparam', hclass'⟩ | ⟨hparam', hclass', hbefore', hplace'⟩ <;>
  obtain rfl := Option.some.inj (hparam.symm.trans hparam')
  · exact Except.error.inj (hclass.symm.trans hclass')
  · cases hclass.symm.trans hclass'
  · cases hclass.symm.trans hclass'
  · obtain rfl := Except.ok.inj (hclass.symm.trans hclass')
    obtain rfl := hbefore.cursor_eq hbefore'
    exact Except.error.inj (hplace.symm.trans hplace')

/-! ## Placing stops at the first objection -/

/-- From any parameter on, all that follow get their places, or one of them is the first that does
not. -/
theorem placeFrom_cases {params : List Parameter} (hbefore : sig.Placed count c)
    (hparams : sig.params.drop count = params) :
    (∃ placed c', placeFrom c count params = .ok (placed, c') ∧
      sig.Placed sig.params.length c') ∨
    ∃ cause position c', placeFrom c count params = .error cause ∧
      sig.Placed position c' ∧ sig.Objection position cause := by
  induction params generalizing count c with
  | nil =>
      have hend : count = sig.params.length :=
        Nat.le_antisymm hbefore.le_length (List.drop_eq_nil_iff.mp hparams)
      exact .inl ⟨[], c, rfl, hend ▸ hbefore⟩
  | cons param params ih =>
      have hparam : sig.params[count]? = some param := by
        rw [← List.head?_drop, hparams, List.head?_cons]
      have hrest : sig.params.drop (count + 1) = params := by
        rw [← List.tail_drop, hparams, List.tail_cons]
      cases hclass : ArgClass.ofKind count param.kind with
      | error cause =>
          refine .inr ⟨cause, count, c, ?_, hbefore, .kind hparam hclass⟩
          exact bind_eq_error_iff.mpr (.inl hclass)
      | ok argClass =>
          cases hplace : c.place count argClass with
          | error cause =>
              refine .inr ⟨cause, count, c, ?_, hbefore, .place hparam hclass hbefore hplace⟩
              rw [placeFrom, hclass, ok_bind, hplace]
              rfl
          | ok put =>
              obtain ⟨location, c₁⟩ := put
              have hstep : placeFrom c count (param :: params) =
                  placeFrom c₁ (count + 1) params >>= fun later =>
                    .ok (⟨argClass, location⟩ :: later.1, later.2) := by
                rw [placeFrom, hclass, ok_bind, hplace]
                rfl
              rw [hstep]
              rcases ih (.next hbefore hparam hclass hplace) hrest with
                ⟨placed, c', hlater, hall⟩ | ⟨cause, position, c', hlater, hplaced, hobjection⟩
              · exact .inl ⟨_, c', by rw [hlater, ok_bind], hall⟩
              · exact .inr ⟨cause, position, c', by rw [hlater]; rfl, hplaced, hobjection⟩

theorem Placed.objections_eq_empty (h : sig.Placed sig.params.length c) : sig.objections = ∅ := by
  refine Set.eq_empty_iff_forall_notMem.mpr ?_
  rintro position ⟨cause, hobjection⟩
  exact h.no_objection hobjection.lt_length hobjection

theorem Placed.isLeast (h : sig.Placed position c) (hobjection : sig.Objection position cause) :
    IsLeast sig.objections position := by
  refine ⟨⟨cause, hobjection⟩, ?_⟩
  rintro earlier ⟨cause', hearlier⟩
  by_contra hlt
  exact h.no_objection (Nat.lt_of_not_le hlt) hearlier

theorem placement_eq_ok_iff :
    (∃ placed, sig.placement = .ok (placed, c)) ↔ sig.Placed sig.params.length c := by
  rcases placeFrom_cases (.start : sig.Placed 0 _) List.drop_zero with
    ⟨placed, c', hok, hall⟩ | ⟨cause, position, c', herror, -, hobjection⟩
  · constructor
    · rintro ⟨placed', hok'⟩
      cases hok.symm.trans hok'
      exact hall
    · intro h
      obtain rfl := hall.cursor_eq h
      exact ⟨placed, hok⟩
  · constructor
    · rintro ⟨placed', hok'⟩
      cases herror.symm.trans hok'
    · exact fun h => absurd hobjection (h.no_objection hobjection.lt_length)

theorem placement_eq_error_iff : sig.placement = .error cause ↔
    ∃ position, IsLeast sig.objections position ∧ sig.Objection position cause := by
  rcases placeFrom_cases (.start : sig.Placed 0 _) List.drop_zero with
    ⟨placed, c', hok, hall⟩ | ⟨first, position, c', herror, hplaced, hobjection⟩
  · constructor
    · exact fun h => nomatch hok.symm.trans h
    · rintro ⟨position, -, hobjection⟩
      exact absurd hobjection (hall.no_objection hobjection.lt_length)
  · have hleast := hplaced.isLeast hobjection
    constructor
    · intro h
      obtain rfl := Except.error.inj (herror.symm.trans h)
      exact ⟨position, hleast, hobjection⟩
    · rintro ⟨position', hleast', hobjection'⟩
      obtain rfl := hleast.unique hleast'
      obtain rfl := hobjection.cause_eq hobjection'
      exact herror

theorem exists_placed (h : sig.objections = ∅) : ∃ c, sig.Placed sig.params.length c := by
  cases hplacement : sig.placement with
  | ok placed => exact ⟨placed.2, placement_eq_ok_iff.mp ⟨placed.1, hplacement⟩⟩
  | error cause =>
      obtain ⟨position, ⟨hmem, -⟩, -⟩ := placement_eq_error_iff.mp hplacement
      exact absurd (h ▸ hmem) (Set.notMem_empty position)

/-! ## Nothing after an objection counts -/

theorem Placed.congr (hreceiver : sig.receiver = sig'.receiver) (h : sig.Placed count c)
    (hparams : ∀ i < count, sig.params[i]? = sig'.params[i]?) : sig'.Placed count c := by
  induction h with
  | start => exact hreceiver ▸ .start
  | next _ hparam hclass hplace ih =>
      exact .next (ih fun i hi => hparams i (Nat.lt_succ_of_lt hi))
        ((hparams _ (Nat.lt_succ_self _)).symm.trans hparam) hclass hplace

theorem Objection.congr (hreceiver : sig.receiver = sig'.receiver)
    (h : sig.Objection position cause)
    (hparams : ∀ i ≤ position, sig.params[i]? = sig'.params[i]?) :
    sig'.Objection position cause := by
  have hsame := (hparams position (Nat.le_refl _)).symm
  cases h with
  | kind hparam hclass => exact .kind (hsame.trans hparam) hclass
  | place hparam hclass hbefore hplace =>
      exact .place (hsame.trans hparam) hclass
        (hbefore.congr hreceiver fun i hi => hparams i (Nat.le_of_lt hi)) hplace

theorem isLeast_objections_congr (hreceiver : sig.receiver = sig'.receiver)
    (hparams : ∀ i ≤ position, sig.params[i]? = sig'.params[i]?)
    (h : IsLeast sig.objections position) : IsLeast sig'.objections position := by
  obtain ⟨⟨cause, hobjection⟩, hleast⟩ := h
  refine ⟨⟨cause, hobjection.congr hreceiver hparams⟩, ?_⟩
  rintro earlier ⟨cause', hearlier⟩
  by_contra hlt
  have hbefore : ∀ i ≤ earlier, sig'.params[i]? = sig.params[i]? :=
    fun i hi => (hparams i (by omega)).symm
  exact hlt (hleast ⟨cause', hearlier.congr hreceiver.symm hbefore⟩)

end Signature

/-! ## Positions in causes -/

/-- The position that a cause names, if it names one. -/
def Unsupported.position? : Unsupported → Option Nat
  | valueTypeArgument position _ | placement position _ | argument position _ => some position
  | result _ | valueTypeResult _ | enumBase _ | enumTooDeep | frameTooLarge _ => none

section

variable {position : Nat} {cause : Unsupported}

theorem Kind.position?_underlying {k : Kind} (h : k.underlying = .error cause) :
    cause.position? = none := by
  rw [underlying_eq] at h
  split_ifs at h <;> cases h <;> rfl

theorem ArgClass.position?_ofKind {kind : Kind} (h : ofKind position kind = .error cause) :
    ∀ named ∈ cause.position?, named = position := by
  cases kind with
  | byRef target => cases h
  | primitive _ | enum _ | valueType _ =>
      obtain h | ⟨core, -, h⟩ := bind_eq_error_iff.mp h
      · simp [Kind.position?_underlying h]
      · split at h
        · split at h <;> cases h
          simp [Unsupported.position?]
        · cases h
          simp [Unsupported.position?]
        · cases h
          simp [Unsupported.position?]

theorem ReturnClass.position?_ofKind {stringCtor : Bool} {kind : Kind}
    (h : ofKind stringCtor kind = .error cause) : cause.position? = none := by
  unfold ofKind at h
  split at h
  · cases h
  · split at h
    · cases h
    · obtain h | ⟨core, -, h⟩ := bind_eq_error_iff.mp h
      · exact Kind.position?_underlying h
      · split at h <;> cases h <;> rfl

theorem Cursor.position?_place {c : Cursor} {argClass : ArgClass}
    (h : c.place position argClass = .error cause) : cause.position? = some position := by
  cases argClass <;> unfold place at h <;> dsimp only at h <;> split at h <;> cases h <;> rfl

theorem Signature.Objection.position?_eq {sig : Signature} (h : sig.Objection position cause) :
    ∀ named ∈ cause.position?, named = position := by
  cases h with
  | kind _ hclass => exact ArgClass.position?_ofKind hclass
  | place _ _ _ hplace => simp [Cursor.position?_place hplace]

end

/-! ## The problem of a signature -/

/-- What a trampoline for a signature is refused for: the first objection to a parameter; where
there is none, the kind of the result; and where that has a class too, a frame or an array of tagged
arguments that is out of reach. -/
inductive Signature.FirstProblem (sig : Signature) (stringCtor : Bool) : Unsupported → Prop
  | parameter {position : Nat} {cause : Unsupported} (hfirst : IsLeast sig.objections position)
      (hobjection : sig.Objection position cause) : FirstProblem sig stringCtor cause
  | result {cause : Unsupported} (hnone : sig.objections = ∅) (hctor : stringCtor = false)
      (hret : ReturnClass.ofKind false sig.ret = .error cause) : FirstProblem sig stringCtor cause
  | reach {c : Cursor} {ret : ReturnClass} {frameSize : Nat}
      (hplaced : sig.Placed sig.params.length c)
      (hret : ReturnClass.ofKind stringCtor sig.ret = .ok ret)
      (hframe : frameSize = align16 (TrampolineLayout.fixedFrame + c.stack))
      (hfar : ¬(frameSize + 4 ≤ 32767 ∧ 16 * sig.params.length ≤ 32767)) :
      FirstProblem sig stringCtor (.frameTooLarge (max (frameSize + 4) (16 * sig.params.length)))

section

variable {sig sig' : Signature} {stringCtor : Bool} {cause : Unsupported} {c : Cursor}
  {ret : ReturnClass}

theorem TrampolineLayout.ofSignature_of_placement (h : sig.placement = .error cause) :
    ofSignature sig stringCtor = .error cause :=
  bind_eq_error_iff.mpr (.inl h)

theorem TrampolineLayout.ofSignature_of_result (hplaced : sig.Placed sig.params.length c)
    (h : ReturnClass.ofKind stringCtor sig.ret = .error cause) :
    ofSignature sig stringCtor = .error cause := by
  obtain ⟨placed, hplacement⟩ := Signature.placement_eq_ok_iff.mpr hplaced
  rw [ofSignature, hplacement, ok_bind, h]
  rfl

/-- Where all parameters have their places and the result has a class, the reach decides. -/
theorem TrampolineLayout.ofSignature_of_placed (hplaced : sig.Placed sig.params.length c)
    (hret : ReturnClass.ofKind stringCtor sig.ret = .ok ret) :
    ∃ layout : TrampolineLayout, layout.frameSize = align16 (fixedFrame + c.stack) ∧
      ofSignature sig stringCtor =
        if layout.frameSize + 4 ≤ 32767 ∧ 16 * sig.params.length ≤ 32767 then .ok layout
        else .error (.frameTooLarge (max (layout.frameSize + 4) (16 * sig.params.length))) := by
  obtain ⟨placed, hplacement⟩ := Signature.placement_eq_ok_iff.mpr hplaced
  have hlength : placed.length = sig.params.length := (places_of_placeFrom hplacement).2.1
  have hpassing : sig.passing stringCtor = .ok ⟨placed, c, ret⟩ :=
    Signature.passing_eq_ok_iff.mpr ⟨hplacement, hret⟩
  have hreach : (planned sig.receiver ⟨placed, c, ret⟩).reach =
      max ((planned sig.receiver ⟨placed, c, ret⟩).frameSize + 4) (16 * sig.params.length) := by
    rw [← hlength, Nat.mul_comm]
    rfl
  refine ⟨planned sig.receiver ⟨placed, c, ret⟩, rfl, ?_⟩
  rw [ofSignature_eq, hpassing, ok_bind, ofPassing_eq, hreach, maxDisplacement, ← ite_not]
  exact if_congr (by omega) rfl rfl

namespace Signature

theorem FirstProblem.ofSignature_eq (h : sig.FirstProblem stringCtor cause) :
    TrampolineLayout.ofSignature sig stringCtor = .error cause := by
  cases h with
  | parameter hfirst hobjection =>
      exact TrampolineLayout.ofSignature_of_placement
        (placement_eq_error_iff.mpr ⟨_, hfirst, hobjection⟩)
  | result hnone hctor hret =>
      obtain ⟨c, hplaced⟩ := exists_placed hnone
      obtain rfl := hctor
      exact TrampolineLayout.ofSignature_of_result hplaced hret
  | reach hplaced hret hframe hfar =>
      obtain ⟨layout, hsize, heq⟩ := TrampolineLayout.ofSignature_of_placed hplaced hret
      obtain rfl := hframe.trans hsize.symm
      rw [heq, if_neg hfar]

/-- Where the result of a signature is refused, no string constructor was asked for. -/
theorem FirstProblem.of_result (hnone : sig.objections = ∅)
    (hret : ReturnClass.ofKind stringCtor sig.ret = .error cause) :
    sig.FirstProblem stringCtor cause := by
  cases stringCtor with
  | false => exact .result hnone rfl hret
  | true => cases hret

theorem firstProblem_of_error (h : TrampolineLayout.ofSignature sig stringCtor = .error cause) :
    sig.FirstProblem stringCtor cause := by
  by_cases hnone : sig.objections = ∅
  · obtain ⟨c, hplaced⟩ := exists_placed hnone
    cases hret : ReturnClass.ofKind stringCtor sig.ret with
    | error cause' =>
        rw [TrampolineLayout.ofSignature_of_result hplaced hret] at h
        obtain rfl := Except.error.inj h
        exact .of_result hnone hret
    | ok ret =>
        obtain ⟨layout, hsize, heq⟩ := TrampolineLayout.ofSignature_of_placed hplaced hret
        rw [heq] at h
        split at h
        · cases h
        · obtain rfl := Except.error.inj h
          exact .reach hplaced hret hsize ‹_›
  · cases hplacement : sig.placement with
    | ok placed =>
        exact absurd (placement_eq_ok_iff.mp ⟨placed.1, hplacement⟩).objections_eq_empty hnone
    | error cause' =>
        rw [TrampolineLayout.ofSignature_of_placement hplacement] at h
        obtain rfl := Except.error.inj h
        obtain ⟨position, hfirst, hobjection⟩ := placement_eq_error_iff.mp hplacement
        exact .parameter hfirst hobjection

theorem FirstProblem.isLeast_position (h : sig.FirstProblem stringCtor cause) :
    ∀ named ∈ cause.position?, IsLeast sig.objections named := by
  intro named hnamed
  cases h with
  | parameter hfirst hobjection =>
      obtain rfl := hobjection.position?_eq named hnamed
      exact hfirst
  | result _ _ hret =>
      rw [ReturnClass.position?_ofKind hret] at hnamed
      cases hnamed
  | reach => cases hnamed

theorem getElem?_eq_of_take {position : Nat}
    (h : sig'.params.take (position + 1) = sig.params.take (position + 1)) :
    ∀ i ≤ position, sig.params[i]? = sig'.params[i]? := by
  intro i hi
  rw [← List.getElem?_take_of_lt (Nat.lt_succ_of_le hi), ← h,
    List.getElem?_take_of_lt (Nat.lt_succ_of_le hi)]

/-- A signature is refused for its first problem and for nothing else: for the objection to the
first parameter that has one; else for its result, if no string constructor was asked for; else for
its reach. A position in the cause is that of the first objection. There is a trampoline exactly
where none of this arises, and whatever follows the first objection, all signatures that begin alike
up to it are refused in the same way. -/
theorem first_problem_reported (sig : Signature) (stringCtor : Bool) :
    (∀ cause, TrampolineLayout.ofSignature sig stringCtor = .error cause ↔
      sig.FirstProblem stringCtor cause) ∧
    (∀ cause, TrampolineLayout.ofSignature sig stringCtor = .error cause →
      ∀ named ∈ cause.position?, IsLeast sig.objections named) ∧
    (∀ frameSize, (∃ layout, TrampolineLayout.ofSignature sig stringCtor = .ok layout ∧
        layout.frameSize = frameSize) ↔
      sig.objections = ∅ ∧ (∃ ret, ReturnClass.ofKind stringCtor sig.ret = .ok ret) ∧
        ∃ c, sig.Placed sig.params.length c ∧
          frameSize = align16 (TrampolineLayout.fixedFrame + c.stack) ∧
          frameSize + 4 ≤ 32767 ∧ 16 * sig.params.length ≤ 32767) ∧
    ∀ position cause, IsLeast sig.objections position → sig.Objection position cause →
      ∀ (sig' : Signature) stringCtor', sig'.receiver = sig.receiver →
        sig'.params.take (position + 1) = sig.params.take (position + 1) →
        TrampolineLayout.ofSignature sig' stringCtor' = .error cause := by
  refine ⟨fun cause => ⟨firstProblem_of_error, FirstProblem.ofSignature_eq⟩,
    fun cause h => (firstProblem_of_error h).isLeast_position, fun frameSize => ⟨?_, ?_⟩, ?_⟩
  · rintro ⟨layout, hok, rfl⟩
    rw [TrampolineLayout.ofSignature_eq] at hok
    obtain ⟨p, hpassing, -⟩ := bind_eq_ok_iff.mp hok
    obtain ⟨hplacement, hret⟩ := passing_eq_ok_iff.mp hpassing
    have hplaced := placement_eq_ok_iff.mp ⟨_, hplacement⟩
    obtain ⟨layout', hsize, heq⟩ := TrampolineLayout.ofSignature_of_placed hplaced hret
    rw [← TrampolineLayout.ofSignature_eq, heq] at hok
    split at hok
    · rename_i hfits
      cases hok
      exact ⟨hplaced.objections_eq_empty, ⟨_, hret⟩, _, hplaced, hsize, hfits⟩
    · cases hok
  · rintro ⟨-, ⟨ret, hret⟩, c, hplaced, rfl, hfits⟩
    obtain ⟨layout, hsize, heq⟩ := TrampolineLayout.ofSignature_of_placed hplaced hret
    rw [← hsize] at hfits
    exact ⟨layout, by rw [heq, if_pos hfits], hsize⟩
  · intro position cause hfirst hobjection sig' stringCtor' hreceiver htake
    have hparams := getElem?_eq_of_take htake
    exact (FirstProblem.parameter (isLeast_objections_congr hreceiver.symm hparams hfirst)
      (hobjection.congr hreceiver.symm hparams)).ofSignature_eq

/-- A pair that has its place, two kinds that no argument can have, and a result that is none. -/
def severalProblems : Signature where
  params := [{ kind := .primitive .int64 }, { kind := .primitive .void }, { kind := .valueType 8 }]
  receiver := true
  ret := .valueType 4
  pinvoke := false

theorem first_problem_reported_several :
    severalProblems.FirstProblem false (.argument 1 (.primitive .void)) ∧
    IsLeast severalProblems.objections 1 ∧
    TrampolineLayout.ofSignature
        { severalProblems with params := severalProblems.params.take 2, ret := .primitive .void }
        true = .error (.argument 1 (.primitive .void)) ∧
    { severalProblems with params := severalProblems.params.take 1 }.objections = ∅ := by
  have hrefused : TrampolineLayout.ofSignature severalProblems false =
      .error (.argument 1 (.primitive .void)) := by decide
  have hbuilt : ∃ layout, TrampolineLayout.ofSignature
      { severalProblems with params := severalProblems.params.take 1 } true = .ok layout ∧
        layout.frameSize = 32 := ⟨_, rfl, rfl⟩
  obtain ⟨hproblem, hposition, -, hbegin⟩ := first_problem_reported severalProblems false
  have hfirst : IsLeast severalProblems.objections 1 := hposition _ hrefused 1 rfl
  have hobjection : severalProblems.Objection 1 (.argument 1 (.primitive .void)) := .kind rfl rfl
  exact ⟨(hproblem _).mp hrefused, hfirst, hbegin 1 _ hfirst hobjection _ true rfl rfl,
    (((first_problem_reported _ true).2.2.1 32).mp hbuilt).1⟩

end Signature

end

end CallBridge

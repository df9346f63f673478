import CallBridge.Proofs.Places
import Mathlib.Algebra.Group.Nat.Even
import Mathlib.Data.List.Nodup
import Mathlib.Order.Bounds.Basic
import Mathlib.Order.Interval.Set.Defs

/-!
# First fit

The rule of placement said without a cursor, by the places that were handed out before: an argument
gets the lowest slot of its kind above all slots in use, and nothing is filled in later. A cursor
knows all that this needs of the past (`Cursor.Tracks`), so a run of it is a run of first fit, also
past arguments that find no place (`placeEach_firstFit`).
-/

namespace CallBridge

/-! ## What was handed out -/

namespace Location

/-- The general slots of a place; a pair has two. -/
def generals : Location → List Nat
  | general slot => [slot]
  | pair first => [first, first + 1]
  | float _ | stack _ => []

def floats : Location → List Nat
  | float slot => [slot]
  | general _ | pair _ | stack _ => []

def offsets : Location → List Nat
  | stack offset => [offset]
  | general _ | pair _ | float _ => []

end Location

/-- The general slots in use, the receiver's included. -/
def generalsInUse (receiver : Bool) (given : List Location) : List Nat :=
  List.range receiver.toNat ++ given.flatMap Location.generals

/-- The general slots above all that are in use. -/
def generalsAbove (receiver : Bool) (given : List Location) : Set Nat :=
  {s | ∀ used ∈ generalsInUse receiver given, used < s}

/-- The place of an argument, or the refusal of it, by the places that were handed out before. -/
inductive FirstFit (receiver : Bool) (given : List Location) (position : Nat) :
    ArgClass → Except Unsupported Location → Prop
  | general {size slot : Nat} (hslot : IsLeast (generalsAbove receiver given) slot)
      (hfree : slot < generalSlots) :
      FirstFit receiver given position (.word size) (.ok (.general slot))
  | stack {size slot : Nat} (hslot : IsLeast (generalsAbove receiver given) slot)
      (hfull : generalSlots ≤ slot) :
      FirstFit receiver given position (.word size)
        (.ok (.stack (4 * (given.flatMap Location.offsets).length)))
  | pair {first : Nat} (hfirst : IsLeast {s ∈ generalsAbove receiver given | Even s} first)
      (hfree : first + 1 < generalSlots) :
      FirstFit receiver given position .wide (.ok (.pair first))
  | noPair {first : Nat} (hfirst : IsLeast {s ∈ generalsAbove receiver given | Even s} first)
      (hfull : generalSlots ≤ first + 1) :
      FirstFit receiver given position .wide (.error (.placement position .pair))
  | float {argClass : ArgClass} (hclass : argClass = .single ∨ argClass = .double)
      (hfree : (given.flatMap Location.floats).length < usableFloatSlots) :
      FirstFit receiver given position argClass
        (.ok (.float (given.flatMap Location.floats).length))
  | noFloat {argClass : ArgClass} (hclass : argClass = .single ∨ argClass = .double)
      (hfull : usableFloatSlots ≤ (given.flatMap Location.floats).length) :
      FirstFit receiver given position argClass (.error (.placement position .float))

/-! ## What a cursor knows of the past -/

/-- The cursor stands where these places leave it: at the lowest slot above all general slots in
use, and after the float slots and stack words, which were handed out in order. -/
structure Cursor.Tracks (receiver : Bool) (given : List Location) (c : Cursor) : Prop where
  above : generalsAbove receiver given = Set.Ici c.general
  distinct : (generalsInUse receiver given).Nodup
  floats : given.flatMap Location.floats = List.range c.float
  stack : ∃ words, c.stack = 4 * words ∧
    given.flatMap Location.offsets = (List.range words).map (4 * ·)
  bounded : c.Bounded
  even : ∀ first, .pair first ∈ given → Even first

variable {receiver : Bool} {given : List Location} {c c' : Cursor} {location : Location}
  {argClass : ArgClass} {position : Nat}

theorem generalsInUse_append (receiver : Bool) (given : List Location) (location : Location) :
    generalsInUse receiver (given ++ [location]) =
      generalsInUse receiver given ++ location.generals := by
  simp [generalsInUse]

theorem generalsAbove_append (receiver : Bool) (given : List Location) (location : Location) :
    generalsAbove receiver (given ++ [location]) =
      {s ∈ generalsAbove receiver given | ∀ used ∈ location.generals, used < s} := by
  ext s
  simp only [generalsAbove, generalsInUse_append, List.forall_mem_append, Set.mem_ofPred_eq]

/-- Slots above all that are in use are new. -/
theorem nodup_generalsInUse_append (hdistinct : (generalsInUse receiver given).Nodup)
    (hnew : location.generals.Nodup)
    (habove : ∀ s ∈ location.generals, s ∈ generalsAbove receiver given) :
    (generalsInUse receiver (given ++ [location])).Nodup := by
  rw [generalsInUse_append]
  refine hdistinct.append hnew ?_
  intro s hused hs
  exact Nat.lt_irrefl s (habove s hs s hused)

namespace Cursor

theorem tracks_start (receiver : Bool) : Tracks receiver [] (start receiver) where
  above := by
    ext s
    simp only [generalsAbove, generalsInUse, List.flatMap_nil, List.append_nil, List.mem_range,
      Set.mem_ofPred_eq, Set.mem_Ici, start]
    constructor
    · intro h
      by_contra hlt
      exact Nat.lt_irrefl s (h s (Nat.lt_of_not_le hlt))
    · intro hle used hused
      exact hused.trans_le hle
  distinct := by simpa [generalsInUse] using List.nodup_range
  floats := rfl
  stack := ⟨0, rfl, rfl⟩
  bounded := start_bounded receiver
  even := by simp

theorem Tracks.isLeast (h : c.Tracks receiver given) :
    IsLeast (generalsAbove receiver given) c.general := by
  rw [h.above]
  exact isLeast_Ici

theorem Tracks.isLeast_even (h : c.Tracks receiver given) :
    IsLeast {s ∈ generalsAbove receiver given | Even s} ((c.general + 1) / 2 * 2) := by
  rw [h.above]
  constructor
  · exact ⟨Set.mem_Ici.mpr (by omega), ⟨_, Nat.mul_two _⟩⟩
  · rintro s ⟨hle, k, rfl⟩
    have hle : c.general ≤ k + k := hle
    omega

/-! ## One argument -/

theorem Tracks.general (h : c.Tracks receiver given) (hfree : c.general < generalSlots) :
    Tracks receiver (given ++ [.general c.general]) { c with general := c.general + 1 } where
  above := by
    ext s
    simp [generalsAbove_append, h.above, Location.generals]
    omega
  distinct := by
    refine nodup_generalsInUse_append h.distinct (List.nodup_singleton _) ?_
    intro s hs
    rw [h.above, List.mem_singleton.mp hs]
    exact Set.self_mem_Ici
  floats := by simpa [Location.floats] using h.floats
  stack := by simpa [Location.offsets] using h.stack
  bounded := ⟨hfree, h.bounded.float⟩
  even := by simpa using h.even

theorem Tracks.spilled (h : c.Tracks receiver given) :
    Tracks receiver (given ++ [.stack c.stack]) { c with stack := c.stack + 4 } where
  above := by simpa [generalsAbove_append, Location.generals] using h.above
  distinct := by simpa [generalsInUse_append, Location.generals] using h.distinct
  floats := by simpa [Location.floats] using h.floats
  stack := by
    obtain ⟨words, hstack, hoffsets⟩ := h.stack
    refine ⟨words + 1, by rw [hstack, Nat.mul_succ], ?_⟩
    simp [hoffsets, Location.offsets, List.range_succ, hstack]
  bounded := ⟨h.bounded.general, h.bounded.float⟩
  even := by simpa using h.even

theorem Tracks.pair (h : c.Tracks receiver given) {first : Nat} (hfirst : c.general ≤ first)
    (heven : Even first) (hfree : first + 1 < generalSlots) :
    Tracks receiver (given ++ [.pair first]) { c with general := first + 2 } where
  above := by
    ext s
    simp [generalsAbove_append, h.above, Location.generals]
    omega
  distinct := by
    refine nodup_generalsInUse_append h.distinct ?_ ?_
    · simp [Location.generals]
    · intro s hs
      rw [h.above]
      rcases List.mem_pair.mp hs with rfl | rfl
      · exact hfirst
      · exact hfirst.trans (Nat.le_succ first)
  floats := by simpa [Location.floats] using h.floats
  stack := by simpa [Location.offsets] using h.stack
  bounded := ⟨hfree, h.bounded.float⟩
  even := by
    intro p hp
    rcases List.mem_append.mp hp with hp | hp
    · exact h.even p hp
    · cases List.mem_singleton.mp hp
      exact heven

theorem Tracks.float (h : c.Tracks receiver given) (hfree : c.float < usableFloatSlots) :
    Tracks receiver (given ++ [.float c.float]) { c with float := c.float + 1 } where
  above := by simpa [generalsAbove_append, Location.generals] using h.above
  distinct := by simpa [generalsInUse_append, Location.generals] using h.distinct
  floats := by simp [h.floats, Location.floats, List.range_succ]
  stack := by simpa [Location.offsets] using h.stack
  bounded := ⟨h.bounded.general, hfree⟩
  even := by simpa using h.even

/-- An argument that finds a place has it by first fit, and the cursor goes on from there. -/
theorem Tracks.place_ok (h : c.Tracks receiver given)
    (hplace : c.place position argClass = .ok (location, c')) :
    FirstFit receiver given position argClass (.ok location) ∧
      c'.Tracks receiver (given ++ [location]) := by
  have hfloats : (given.flatMap Location.floats).length = c.float := by
    rw [h.floats, List.length_range]
  cases argClass with
  | word size =>
      by_cases hfree : c.general < generalSlots
      · rw [place, if_pos hfree] at hplace
        cases hplace
        exact ⟨.general h.isLeast hfree, h.general hfree⟩
      · rw [place, if_neg hfree] at hplace
        cases hplace
        refine ⟨?_, h.spilled⟩
        obtain ⟨words, hstack, hoffsets⟩ := h.stack
        have hnext : FirstFit receiver given position (.word size)
            (.ok (.stack (4 * (given.flatMap Location.offsets).length))) :=
          .stack h.isLeast (Nat.le_of_not_lt hfree)
        rwa [hoffsets, List.length_map, List.length_range, ← hstack] at hnext
  | wide =>
      by_cases hfree : (c.general + 1) / 2 * 2 + 1 < generalSlots
      · simp only [place, if_pos hfree] at hplace
        cases hplace
        obtain ⟨⟨habove, heven⟩, -⟩ := h.isLeast_even
        rw [h.above] at habove
        exact ⟨.pair h.isLeast_even hfree, h.pair habove heven hfree⟩
      · simp [place, if_neg hfree] at hplace
  | single | double =>
      by_cases hfree : c.float < usableFloatSlots
      · rw [place, if_pos hfree] at hplace
        cases hplace
        refine ⟨?_, h.float hfree⟩
        rw [← hfloats] at hfree ⊢
        exact .float (by simp) hfree
      · simp [place, if_neg hfree] at hplace

theorem Tracks.place_error (h : c.Tracks receiver given) {cause : Unsupported}
    (hplace : c.place position argClass = .error cause) :
    FirstFit receiver given position argClass (.error cause) := by
  have hfloats : (given.flatMap Location.floats).length = c.float := by
    rw [h.floats, List.length_range]
  cases argClass with
  | word size =>
      by_cases hfree : c.general < generalSlots
      · simp [place, if_pos hfree] at hplace
      · simp [place, if_neg hfree] at hplace
  | wide =>
      by_cases hfree : (c.general + 1) / 2 * 2 + 1 < generalSlots
      · simp [place, if_pos hfree] at hplace
      · simp only [place, if_neg hfree] at hplace
        cases hplace
        exact .noPair h.isLeast_even (Nat.le_of_not_lt hfree)
  | single | double =>
      by_cases hfree : c.float < usableFloatSlots
      · simp [place, if_pos hfree] at hplace
      · rw [place, if_neg hfree] at hplace
        cases hplace
        exact .noFloat (by simp) (hfloats ▸ Nat.le_of_not_lt hfree)

/-! ## All arguments -/

end Cursor

/-- The places among the results of a run, in order. -/
def handedOut (results : List (Except Unsupported (Location × Cursor))) : List Location :=
  results.filterMap fun result => result.toOption.map Prod.fst

namespace Cursor

theorem length_placeEach : ∀ (c : Cursor) (position : Nat) (classes : List ArgClass),
    (c.placeEach position classes).length = classes.length
  | _, _, [] => rfl
  | c, position, argClass :: rest => by
      rw [placeEach, List.length_cons, List.length_cons, length_placeEach]

/-- One argument, whether it finds a place or not. -/
theorem Tracks.advance (h : c.Tracks receiver given) (position : Nat) (argClass : ArgClass) :
    FirstFit receiver given position argClass ((c.place position argClass).map Prod.fst) ∧
      (c.advance position argClass).Tracks receiver
        (given ++ handedOut [c.place position argClass]) := by
  unfold Cursor.advance
  cases hplace : c.place position argClass with
  | ok placed =>
      obtain ⟨location, c'⟩ := placed
      exact h.place_ok hplace
  | error cause => exact ⟨h.place_error hplace, by simpa [handedOut, Except.toOption] using h⟩

/-- Every argument of a run is placed by first fit, by all that was handed out before the run and
earlier in it. -/
theorem Tracks.placeEach : ∀ (classes : List ArgClass) {c : Cursor} {given : List Location}
    (position : Nat), c.Tracks receiver given →
    (∀ (i : Nat) argClass result, classes[i]? = some argClass →
      (c.placeEach position classes)[i]? = some result →
      FirstFit receiver (given ++ handedOut ((c.placeEach position classes).take i)) (position + i)
        argClass (result.map Prod.fst)) ∧
    (c.advanceAll position classes).Tracks receiver
      (given ++ handedOut (c.placeEach position classes))
  | [], _, _, _, h => ⟨by simp, by simpa [handedOut, advanceAll, Cursor.placeEach] using h⟩
  | argClass :: rest, c, given, position, h => by
      obtain ⟨hfirst, hnext⟩ := h.advance position argClass
      obtain ⟨hrest, hlast⟩ := placeEach rest (position + 1) hnext
      have hsplit (results : List (Except Unsupported (Location × Cursor))) :
          handedOut (c.place position argClass :: results) =
            handedOut [c.place position argClass] ++ handedOut results :=
        List.filterMap_append (l := [_])
      constructor
      · rintro (_ | i) other result hclass hresult
        · cases hclass
          cases hresult
          simpa [handedOut] using hfirst
        · have hfit := hrest i other result hclass hresult
          rw [List.append_assoc, ← hsplit, Nat.add_right_comm] at hfit
          exact hfit
      · rw [List.append_assoc, ← hsplit] at hlast
        exact hlast

end Cursor

/-! ## Signatures -/

/-- The classes of parameters, up to the first that has none. -/
def classesFrom (position : Nat) : List Parameter → Except Unsupported (List ArgClass)
  | [] => .ok []
  | p :: params => do
    let argClass ← ArgClass.ofKind position p.kind
    return argClass :: (← classesFrom (position + 1) params)

/-- Where all arguments find places, a signature has those of the run. -/
theorem placeFrom_ok : ∀ {params : List Parameter} {classes : List ArgClass} {c c' : Cursor}
    {position : Nat} {placed : List PlacedArg}, classesFrom position params = .ok classes →
    placeFrom c position params = .ok (placed, c') →
    placed.map PlacedArg.argClass = classes ∧ c.advanceAll position classes = c' ∧
      (c.placeEach position classes).map (Except.map Prod.fst) =
        placed.map fun param => .ok param.location
  | [], classes, c, c', position, placed, hclasses, hplaced => by
      cases hclasses
      cases hplaced
      exact ⟨rfl, rfl, rfl⟩
  | p :: params, classes, c, c', position, placed, hclasses, hplaced => by
      obtain ⟨argClass, hclass, hclasses⟩ := bind_eq_ok_iff.mp hclasses
      obtain ⟨rest, hrest, hclasses⟩ := bind_eq_ok_iff.mp hclasses
      cases hclasses
      obtain ⟨same, hsame, hplaced⟩ := bind_eq_ok_iff.mp hplaced
      obtain rfl : argClass = same := Except.ok.inj (hclass.symm.trans hsame)
      obtain ⟨⟨location, c₁⟩, hplace, hplaced⟩ := bind_eq_ok_iff.mp hplaced
      obtain ⟨⟨later, c₂⟩, hlater, hplaced⟩ := bind_eq_ok_iff.mp hplaced
      cases hplaced
      obtain ⟨hmap, hcursor, hresults⟩ := placeFrom_ok hrest hlater
      have hadvance : c.advance position argClass = c₁ := by rw [Cursor.advance, hplace]
      refine ⟨by rw [List.map_cons, hmap], ?_, ?_⟩
      · rw [Cursor.advanceAll, hadvance, hcursor]
      · rw [Cursor.placeEach, hadvance, List.map_cons, hresults, hplace]
        rfl

/-- A signature is refused for the first argument of the run that finds no place. -/
theorem placeFrom_error : ∀ {params : List Parameter} {classes : List ArgClass} {c : Cursor}
    {position : Nat} {cause : Unsupported}, classesFrom position params = .ok classes →
    placeFrom c position params = .error cause →
    ∃ i : Nat, (c.placeEach position classes)[i]? = some (.error cause) ∧
      ∀ j < i, ∃ placed, (c.placeEach position classes)[j]? = some (.ok placed)
  | [], _, _, _, _, _, hplaced => by cases hplaced
  | p :: params, classes, c, position, cause, hclasses, hplaced => by
      obtain ⟨argClass, hclass, hclasses⟩ := bind_eq_ok_iff.mp hclasses
      obtain ⟨rest, hrest, hclasses⟩ := bind_eq_ok_iff.mp hclasses
      cases hclasses
      rw [placeFrom, hclass] at hplaced
      cases hplace : c.place position argClass with
      | error first =>
          simp only [hplace, bind, Except.bind] at hplaced
          cases hplaced
          exact ⟨0, by simp [Cursor.placeEach, hplace], by simp⟩
      | ok placed =>
          obtain ⟨location, c₁⟩ := placed
          have hadvance : c.advance position argClass = c₁ := by rw [Cursor.advance, hplace]
          simp only [hplace, bind, Except.bind] at hplaced
          cases hlater : placeFrom c₁ (position + 1) params with
          | ok later =>
              simp only [hlater] at hplaced
              cases hplaced
          | error later =>
              simp only [hlater] at hplaced
              cases hplaced
              obtain ⟨i, hi, hbefore⟩ := placeFrom_error hrest hlater
              rw [Cursor.placeEach, hadvance, hplace]
              refine ⟨i + 1, hi, ?_⟩
              rintro (_ | j) hj
              · exact ⟨_, rfl⟩
              · exact hbefore j (Nat.lt_of_succ_lt_succ hj)

/-! ## Every sequence of arguments -/

/-- No place is handed out twice or out of range. -/
structure NoneTwice (receiver : Bool) (given : List Location) : Prop where
  generals : (given.flatMap Location.generals).Nodup
  floats : (given.flatMap Location.floats).Nodup
  generals_lt : ∀ s ∈ given.flatMap Location.generals, s < generalSlots
  floats_lt : ∀ s ∈ given.flatMap Location.floats, s < usableFloatSlots
  receiver : receiver → 0 ∉ given.flatMap Location.generals
  even : ∀ first, .pair first ∈ given → Even first
  offsets : given.flatMap Location.offsets =
    (List.range (given.flatMap Location.offsets).length).map (4 * ·)

theorem Cursor.Tracks.noneTwice (h : c.Tracks receiver given) : NoneTwice receiver given := by
  have hdistinct := List.nodup_append.mp h.distinct
  obtain ⟨words, -, hoffsets⟩ := h.stack
  refine ⟨hdistinct.2.1, ?_, ?_, ?_, ?_, h.even, ?_⟩
  · rw [h.floats]
    exact List.nodup_range
  · intro s hs
    have hlt : s < c.general := h.isLeast.1 s (List.mem_append_right _ hs)
    exact hlt.trans_le h.bounded.general
  · intro s hs
    rw [h.floats, List.mem_range] at hs
    exact hs.trans_le h.bounded.float
  · rintro rfl hzero
    exact hdistinct.2.2 0 (by simp) 0 hzero rfl
  · rw [hoffsets, List.length_map, List.length_range]

/-- Arguments are placed by first fit, whatever comes after what: each gets the lowest place above
all that were handed out before, or is refused at its position when that is out of range, and then
the next one goes on as if it had not been there. A signature has these places, up to the first
refusal. -/
theorem placeEach_firstFit (receiver : Bool) (classes : List ArgClass) :
    ((Cursor.start receiver).placeEach 0 classes).length = classes.length ∧
    (∀ (i : Nat) argClass result, classes[i]? = some argClass →
      ((Cursor.start receiver).placeEach 0 classes)[i]? = some result →
      FirstFit receiver (handedOut (((Cursor.start receiver).placeEach 0 classes).take i)) i
        argClass (result.map Prod.fst)) ∧
    NoneTwice receiver (handedOut ((Cursor.start receiver).placeEach 0 classes)) ∧
    ((Cursor.start receiver).advanceAll 0 classes).stack = 4 *
      ((handedOut ((Cursor.start receiver).placeEach 0 classes)).flatMap Location.offsets).length ∧
    ∀ sig : Signature, sig.receiver = receiver → classesFrom 0 sig.params = .ok classes →
      (∀ placed c, sig.placement = .ok (placed, c) →
        c = (Cursor.start receiver).advanceAll 0 classes ∧
          ((Cursor.start receiver).placeEach 0 classes).map (Except.map Prod.fst) =
            placed.map fun param => .ok param.location) ∧
      ∀ cause, sig.placement = .error cause →
        ∃ i : Nat, ((Cursor.start receiver).placeEach 0 classes)[i]? = some (.error cause) ∧
          ∀ j < i, ∃ placed,
            ((Cursor.start receiver).placeEach 0 classes)[j]? = some (.ok placed) := by
  obtain ⟨hfits, htracks⟩ :=
    Cursor.Tracks.placeEach classes 0 (Cursor.tracks_start receiver)
  rw [List.nil_append] at htracks
  refine ⟨Cursor.length_placeEach _ _ _, ?_, htracks.noneTwice, ?_, ?_⟩
  · intro i argClass result hclass hresult
    simpa using hfits i argClass result hclass hresult
  · obtain ⟨words, hstack, hoffsets⟩ := htracks.stack
    rw [hstack, hoffsets, List.length_map, List.length_range]
  · rintro sig rfl hclasses
    refine ⟨fun placed c hplaced => ?_, fun cause hcause => placeFrom_error hclasses hcause⟩
    obtain ⟨-, hcursor, hresults⟩ := placeFrom_ok hclasses hplaced
    exact ⟨hcursor.symm, hresults⟩

/-- The first parameters of a list: pairs that skip a slot, one that finds no place, and words that
spill after it. -/
def skippingSignature (count : Nat) : Signature where
  params := ([.int64, .int32, .int64, .int64, .int8, .int16, .float64].take count).map fun p =>
    { kind := .primitive p }
  receiver := true
  ret := .primitive .int64
  pinvoke := false

def skippingClasses : List ArgClass :=
  [.wide, .word 4, .wide, .wide, .word 1, .word 2, .double]

theorem placeEach_firstFit_skipping :
    handedOut ((Cursor.start true).placeEach 0 skippingClasses) =
        [.pair 2, .general 4, .pair 6, .stack 0, .stack 4, .float 0] ∧
      NoneTwice true [.pair 2, .general 4, .pair 6, .stack 0, .stack 4, .float 0] ∧
      FirstFit true [.pair 2, .general 4, .pair 6] 3 .wide (.error (.placement 3 .pair)) ∧
      FirstFit true [.pair 2, .general 4, .pair 6, .stack 0] 5 (.word 2) (.ok (.stack 4)) ∧
      (skippingSignature 7).placement = .error (.placement 3 .pair) ∧
      (∃ i : Nat, ((Cursor.start true).placeEach 0 skippingClasses)[i]? =
        some (.error (.placement 3 .pair))) ∧
      ∃ placed, (skippingSignature 3).placement =
        .ok (placed, (Cursor.start true).advanceAll 0 (skippingClasses.take 3)) := by
  have hgiven : handedOut ((Cursor.start true).placeEach 0 skippingClasses) =
      [.pair 2, .general 4, .pair 6, .stack 0, .stack 4, .float 0] := by decide
  have hrefused : (skippingSignature 7).placement = .error (.placement 3 .pair) := by decide
  have hplaced : (skippingSignature 3).placement =
      .ok ([⟨.wide, .pair 2⟩, ⟨.word 4, .general 4⟩, ⟨.wide, .pair 6⟩], ⟨8, 0, 0⟩) := by decide
  obtain ⟨-, hfits, hnone, -, hsignature⟩ := placeEach_firstFit true skippingClasses
  obtain ⟨-, -, -, -, hsignature'⟩ := placeEach_firstFit true (skippingClasses.take 3)
  obtain ⟨i, hi, -⟩ := (hsignature (skippingSignature 7) rfl rfl).2 _ hrefused
  obtain ⟨hcursor, -⟩ := (hsignature' (skippingSignature 3) rfl rfl).1 _ _ hplaced
  exact ⟨hgiven, hgiven ▸ hnone, hfits 3 .wide _ rfl rfl, hfits 5 (.word 2) _ rfl rfl, hrefused,
    ⟨i, hi⟩, _, hcursor ▸ hplaced⟩

end CallBridge

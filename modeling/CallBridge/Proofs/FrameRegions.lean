import CallBridge.Proofs.Regions
import CallBridge.Proofs.Thunk.Activation
import CallBridge.Proofs.Trampoline.Delivery

/-!
# The parts of a frame

The parts of a stub's frame are apart from each other and fill nothing beyond it: in a thunk's frame
the header, the invocation record, the tagged slots, the two spill areas and the saved r31
(`ThunkLayout.Separated`), in a trampoline's the header, the stack arguments and the two saved words
(`TrampolineLayout.Separated`). The native values that a thunk converts lie each in the spill slots
or the stack word of their own argument, and so are apart as well: an argument lies between two
cursors, and what comes later lies after the second of them.
-/

namespace CallBridge

/-- The back chain and the link register word, at the bottom of every frame. -/
def Region.header : List Region :=
  [⟨0, 4⟩, ⟨4, 4⟩]

theorem Region.stacked_header : Region.Stacked 0 paramArea Region.header :=
  ⟨Nat.le_refl _, Nat.le_refl _, Nat.le_refl _⟩

/-- A word that is addressed from the top of a frame. -/
def Region.topWord (frameSize : Nat) (offset : Int) : Region :=
  ⟨(frameSize + offset).toNat, 4⟩

/-! ## Trampolines -/

/-- The word of the parameter area that an argument on the stack takes. -/
def Location.stackWord? : Location → Option Region
  | stack offset => some ⟨paramArea + offset, 4⟩
  | general _ | pair _ | float _ => none

/-- Arguments on the stack take the words from the cursor on, one after the other. -/
theorem Cursor.Places.stackWords_eq {c c' : Cursor} {params : List PlacedArg}
    (h : c.Places params c') :
    params.filterMap (·.location.stackWord?) =
      Region.row (paramArea + c.stack) 4 (params.countP (·.location.isStack)) := by
  induction h with
  | nil c => rfl
  | @cons c c₁ c' param rest hput hrest ih =>
      rw [List.countP_cons, List.filterMap_cons, ih]
      cases hput with
      | general | pair | single | double => rfl
      | stack => exact (Region.row_succ ..).symm

namespace TrampolineLayout

/-- The stack arguments, in the order of the parameters. -/
def stackWords (layout : TrampolineLayout) : List Region :=
  layout.params.filterMap (·.location.stackWord?)

/-- The parts of a trampoline's frame, from the stack pointer up. -/
def parts (layout : TrampolineLayout) : List Region :=
  Region.header ++ (layout.stackWords ++
    [.topWord layout.frameSize savedReturnSlot, .topWord layout.frameSize savedFramePointer])

/-- The parts of a trampoline's frame are apart, and its stack arguments are all words from the
start of the parameter area on. -/
structure Separated (layout : TrampolineLayout) : Prop where
  aligned : 16 ∣ layout.frameSize
  words : layout.stackWords = Region.row paramArea 4 layout.stackWords.length
  apart : layout.parts.Pairwise Region.Apart
  inside : ∀ part ∈ layout.parts, part.Inside ⟨0, layout.frameSize⟩

end TrampolineLayout

namespace Trampoline

variable {sig : Signature} {stringCtor : Bool} {layout : TrampolineLayout} {cursor : Cursor}

theorem Planned.stackWords_eq (h : Planned sig stringCtor layout cursor) :
    layout.stackWords = Region.row paramArea 4 (layout.params.countP (·.location.isStack)) :=
  h.places.1.stackWords_eq

/-- From the header up to the saved words, each part begins where the one before it has ended. -/
theorem Planned.stacked (h : Planned sig stringCtor layout cursor) :
    Region.Stacked 0 layout.frameSize layout.parts := by
  have hroom := h.stack_le
  have hstack : cursor.stack = 0 + 4 * layout.params.countP (·.location.isStack) :=
    h.places.1.stack_eq
  refine Region.stacked_header.append ?_
  rw [h.stackWords_eq]
  refine (Region.stacked_row ..).append ⟨?_, ?_, ?_⟩ <;>
    simp only [Region.stop, Region.topWord, Region.Stacked, paramArea, savedReturnSlot,
      savedFramePointer] <;> omega

theorem Planned.separated (h : Planned sig stringCtor layout cursor) : layout.Separated where
  aligned := by
    rw [h.frameSize]
    exact dvd_align16 _
  words := by
    rw [h.stackWords_eq, Region.length_row]
  apart := h.stacked.pairwise
  inside := h.stacked.inside_zero

end Trampoline

/-! ## Thunks -/

namespace ThunkLayout

def generalArea (layout : ThunkLayout) : Region :=
  ⟨layout.generalSpill, generalSlots * 4⟩

def floatArea (layout : ThunkLayout) : Region :=
  ⟨layout.floatSpill, floatSlots * 8⟩

/-- The tagged slots of the arguments. -/
def argSlots (layout : ThunkLayout) : List Region :=
  (List.range layout.params.length).map fun i => ⟨argSlot i, taggedSize⟩

/-- The parts of a thunk's frame, from the stack pointer up. -/
def parts (layout : ThunkLayout) : List Region :=
  Region.header ++ (⟨record, recordSize⟩ :: layout.argSlots ++
    [⟨layout.retval, taggedSize⟩, layout.generalArea, layout.floatArea,
      .topWord layout.frameSize savedFramePointer])

/-- The bytes of a native argument, in its native width. -/
def native (layout : ThunkLayout) (param : PlacedArg) : Region :=
  ⟨layout.source param, param.argClass.width⟩

/-- The registers of an argument have this part of the spill areas to themselves. An argument on the
stack has its word in the caller's parameter area, above the caller's back chain and link register
word. -/
def ownRegion (layout : ThunkLayout) : Location → Region
  | .general slot => ⟨layout.generalSpill + slot * 4, 4⟩
  | .pair first => ⟨layout.generalSpill + first * 4, 8⟩
  | .float slot => ⟨layout.floatSpill + slot * 8, 8⟩
  | .stack offset => ⟨layout.frameSize + paramArea + offset, 4⟩

/-- Where an argument's own region must lie. -/
def InArea (layout : ThunkLayout) : Location → Prop
  | .general slot => (layout.ownRegion (.general slot)).Inside layout.generalArea
  | .pair first => (layout.ownRegion (.pair first)).Inside layout.generalArea
  | .float slot => (layout.ownRegion (.float slot)).Inside layout.floatArea
  | .stack offset => layout.frameSize + paramArea ≤ (layout.ownRegion (.stack offset)).start

/-- The parts of a thunk's frame are apart, its slots and float spills are aligned for doubles, and
every native argument lies in a region of its own. -/
structure Separated (layout : ThunkLayout) : Prop where
  aligned : 16 ∣ layout.frameSize
  apart : layout.parts.Pairwise Region.Apart
  inside : ∀ part ∈ layout.parts, part.Inside ⟨0, layout.frameSize⟩
  slotsAligned : ∀ slot ∈ layout.argSlots, 8 ∣ slot.start
  resultAligned : 8 ∣ layout.retval
  floatsAligned : ∀ slot, 8 ∣ layout.floatSpill + slot * 8
  owned : ∀ param ∈ layout.params, (layout.native param).Inside (layout.ownRegion param.location) ∧
    layout.InArea param.location
  nativesApart : layout.params.Pairwise fun param other =>
    (layout.native param).Apart (layout.native other)

end ThunkLayout

/-- Of two arguments the later one is put where the cursor after the earlier one has come to. -/
theorem Cursor.Places.pairwise_within {c c' : Cursor} {params : List PlacedArg}
    (h : c.Places params c') :
    params.Pairwise fun param other =>
      ∃ c₁, param.location.Within c c₁ ∧ other.location.Within c₁ c' := by
  induction h with
  | nil c => exact .nil
  | @cons c c₁ c' param rest hput hrest ih =>
      refine .cons (fun other hother => ⟨c₁, hput.within, hrest.within other hother⟩) ?_
      refine ih.imp fun {earlier later} ⟨c₂, hearlier, hlater⟩ => ⟨c₂, ?_, hlater⟩
      exact hearlier.mono hput.le (.refl c₂)

namespace Thunk

variable {sig : Signature} {layout : ThunkLayout} {cursor c c₁ c' : Cursor} {param : PlacedArg}

theorem native_inside (hput : c.Puts param c₁) (hnative : param.argClass.Native) :
    (layout.native param).Inside (layout.ownRegion param.location) := by
  cases hput with
  | @general size | @stack size =>
      have hsize : size ≤ 4 := by rcases hnative with h | h | h <;> omega
      constructor <;>
        simp only [ThunkLayout.native, ThunkLayout.ownRegion, ThunkLayout.source, ThunkLayout.home,
          ArgClass.width, Region.stop] <;> omega
  | pair | single | double =>
      constructor <;>
        simp [ThunkLayout.native, ThunkLayout.ownRegion, ThunkLayout.source, ThunkLayout.home,
          ArgClass.width, Region.stop]

theorem inArea_of_within {location : Location} (h : location.Within c c') (hc : c'.Bounded) :
    layout.InArea location := by
  have hgeneral := hc.general
  have hfloat := hc.float
  simp only [generalSlots, usableFloatSlots] at hgeneral hfloat
  cases location <;>
    simp only [Location.Within, ThunkLayout.InArea, Region.Inside, ThunkLayout.ownRegion,
      ThunkLayout.generalArea, ThunkLayout.floatArea, Region.stop, generalSlots, floatSlots]
      at h ⊢ <;>
    omega

/-- Of two arguments that are put one after the other, each has a region to itself. -/
theorem ownRegion_apart (hplanned : Planned sig layout cursor) {location other : Location}
    (hearlier : location.Within c c₁) (hlater : other.Within c₁ c')
    (hin : layout.InArea location) (hin' : layout.InArea other) :
    (layout.ownRegion location).Apart (layout.ownRegion other) := by
  obtain ⟨-, -, hfloat, hframe⟩ := hplanned.sizes
  apply Region.apart_of_le
  -- Two places of one kind are told apart by the cursor between them, all others by their areas.
  cases location <;> cases other <;>
    simp only [Location.Within, ThunkLayout.InArea, Region.Inside, ThunkLayout.ownRegion,
      ThunkLayout.generalArea, ThunkLayout.floatArea, Region.stop, generalSlots, floatSlots]
      at hearlier hlater hin hin' ⊢ <;>
    omega

/-- From the header up to the saved r31, each part begins where the one before it has ended. -/
theorem Planned.stacked (h : Planned sig layout cursor) :
    Region.Stacked 0 layout.frameSize layout.parts := by
  obtain ⟨hretval, hgeneral, hfloat, hframe⟩ := h.sizes
  have hslots : layout.argSlots = Region.row ThunkLayout.args taggedSize layout.params.length := rfl
  have hlength := h.places.2.1
  refine Region.stacked_header.append ⟨Nat.le_refl _, ?_⟩
  rw [hslots]
  refine (Region.stacked_row ..).append ⟨?_, ?_, ?_, ?_, ?_⟩ <;>
    simp only [Region.stop, Region.topWord, Region.Stacked, ThunkLayout.generalArea,
      ThunkLayout.floatArea, ThunkLayout.record, recordSize, paramArea, taggedSize, generalSlots,
      floatSlots, savedFramePointer] <;> omega

theorem Planned.separated (h : Planned sig layout cursor) : layout.Separated := by
  obtain ⟨hretval, hgeneral, hfloat, hframe⟩ := h.sizes
  obtain ⟨hplaces, -, hnative⟩ := h.places
  have hin (param) (hparam : param ∈ layout.params) : layout.InArea param.location :=
    inArea_of_within (hplaces.within param hparam) h.bounded
  have hinside (param) (hparam : param ∈ layout.params) :
      (layout.native param).Inside (layout.ownRegion param.location) := by
    obtain ⟨c₀, c₁, -, hput, -⟩ := hplaces.exists_puts param hparam
    exact native_inside hput (hnative param hparam)
  refine {
    aligned := ?_
    apart := h.stacked.pairwise
    inside := h.stacked.inside_zero
    slotsAligned := fun slot hslot => ?_
    resultAligned := by omega
    floatsAligned := fun slot => by omega
    owned := fun param hparam => ⟨hinside param hparam, hin param hparam⟩
    nativesApart := ?_ }
  · rw [h.frameSize]
    exact dvd_align16 _
  · obtain ⟨i, -, rfl⟩ := List.mem_map.mp hslot
    simp only [ThunkLayout.argSlot, ThunkLayout.args, ThunkLayout.record, recordSize, paramArea,
      taggedSize]
    omega
  · refine hplaces.pairwise_within.imp_of_mem fun {param other} hparam hother hwithin => ?_
    obtain ⟨c₁, hearlier, hlater⟩ := hwithin
    exact (ownRegion_apart h hearlier hlater (hin param hparam) (hin other hother)).mono
      (hinside param hparam) (hinside other hother)

end Thunk

/-! ## Every frame -/

/-- Nothing in a frame overlaps. In the frame of every thunk the header, the invocation record, a
tagged slot for each parameter and one for the result, the spill areas and the saved r31 are apart
and inside of the frame, and each native argument lies in the spill slots of its own registers or in
its own word of the caller's, apart from all others; in the frame of every trampoline the header,
the stack arguments and the two saved words are apart and inside of the frame. -/
theorem frame_regions_apart (sig : Signature) :
    (∀ layout, ThunkLayout.ofSignature sig = .ok layout →
      layout.params.length = sig.params.length ∧ layout.Separated) ∧
    ∀ stringCtor layout, TrampolineLayout.ofSignature sig stringCtor = .ok layout →
      layout.params.length = sig.params.length ∧ layout.Separated := by
  constructor
  · intro layout hlayout
    obtain ⟨cursor, hlaid⟩ := Thunk.laid_of_ofSignature hlayout
    exact ⟨hlaid.places.2.1, hlaid.toPlanned.separated⟩
  · intro stringCtor layout hlayout
    obtain ⟨cursor, hlaid⟩ := Trampoline.laid_of_ofSignature hlayout
    exact ⟨hlaid.places.2, hlaid.toPlanned.separated⟩

/-- A byte is the last of its word on the stack, and the other arguments have their registers'
slots. -/
theorem frame_regions_apart_mixed :
    (∃ layout, ThunkLayout.ofSignature Trampoline.mixedSignature = .ok layout ∧
      layout.frameSize = 256 ∧ layout.params.map layout.native =
        [⟨156, 4⟩, ⟨160, 8⟩, ⟨168, 8⟩, ⟨176, 8⟩, ⟨267, 1⟩, ⟨184, 8⟩] ∧ layout.Separated) ∧
    ∃ layout, TrampolineLayout.ofSignature Trampoline.mixedSignature false = .ok layout ∧
      layout.parts = [⟨0, 4⟩, ⟨4, 4⟩, ⟨8, 4⟩, ⟨20, 4⟩, ⟨28, 4⟩] ∧ layout.Separated := by
  obtain ⟨hthunk, htrampoline⟩ := frame_regions_apart Trampoline.mixedSignature
  exact ⟨⟨_, rfl, rfl, rfl, (hthunk _ rfl).2⟩, _, rfl, rfl, (htrampoline false _ rfl).2⟩

end CallBridge

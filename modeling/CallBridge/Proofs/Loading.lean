import CallBridge.Proofs.Operands
import CallBridge.Proofs.Regions

/-!
# Handing out memory

A machine under test hands out its memory from two areas, one for code and one for data, each from
its start on. What it has handed out is all that lies below the next free addresses
(`Machine.handedOut`). One step takes a region that nothing was handed out of before, and changes no
byte outside of it (`Machine.Grants`); so over a whole run regions never overlap, and code stays as
it was loaded.
-/

namespace CallBridge

/-- What memory is asked for: room for code, with the code, or for data of a size. -/
inductive Demand
  | code (bytes : List Byte)
  | data (size : Nat)
deriving DecidableEq, Repr

namespace Demand

def size : Demand → Nat
  | code bytes => bytes.length
  | data size => size

/-- The bounds of the area that a demand is served from. -/
def areaStart : Demand → Nat
  | code _ => memoryStart
  | data _ => dataStart

def areaEnd : Demand → Nat
  | code _ => dataStart
  | data _ => dataEnd

/-- A region serves a demand: it has the size asked for, starts at a multiple of sixteen and lies in
the area for demands of its kind. -/
structure ServedBy (demand : Demand) (region : Region) : Prop where
  size : region.size = demand.size
  aligned : 16 ∣ region.start
  above : demand.areaStart ≤ region.start
  below : region.stop < demand.areaEnd

/-- Where code was asked for, a region holds it. -/
def HeldIn (mem : Memory) : Demand → Region → Prop
  | code bytes, region => mem.load region.start bytes.length = bytes
  | data _, _ => True

theorem HeldIn.congr {mem mem' : Memory} {demand : Demand} {region : Region}
    (h : demand.HeldIn mem region) (hsize : region.size = demand.size)
    (heq : Set.EqOn mem'.byte mem.byte region.bytes) : demand.HeldIn mem' region := by
  cases demand with
  | data size => trivial
  | code bytes =>
      rw [Region.bytes, Region.stop, hsize] at heq
      exact (Memory.load_eq_of_eqOn heq).trans h

end Demand

namespace Machine

/-- Serves a demand with a region. -/
def grant (m : Machine) : Demand → Except Fault (Region × Machine)
  | .code bytes => (m.loadCode bytes).map fun given => (⟨given.1.toNat, bytes.length⟩, given.2)
  | .data size => (m.allocate size).map fun given => (⟨given.1.toNat, size⟩, given.2)

/-- Serves demands one after the other, up to the first fault. -/
def grantAll (m : Machine) : List Demand → Except Fault (List Region × Machine)
  | [] => .ok ([], m)
  | demand :: rest => do
    let first ← m.grant demand
    let others ← first.2.grantAll rest
    return (first.1 :: others.1, others.2)

/-! ## One demand -/

/-- The next free addresses are multiples of sixteen, in their areas. -/
structure Ready (m : Machine) : Prop where
  codeAligned : 16 ∣ m.nextCode
  codeAbove : memoryStart ≤ m.nextCode
  codeBelow : m.nextCode < dataStart
  dataAligned : 16 ∣ m.nextData
  dataAbove : dataStart ≤ m.nextData
  dataBelow : m.nextData < dataEnd

/-- What lies below the next free addresses. -/
def handedOut (m : Machine) : Set Nat :=
  Set.Ico memoryStart m.nextCode ∪ Set.Ico dataStart m.nextData

/-- A demand is served by a region out of what was not handed out before, and memory changes nowhere
else. -/
structure Grants (m : Machine) (demand : Demand) (region : Region) (m' : Machine) : Prop where
  served : demand.ServedBy region
  fresh : Disjoint region.bytes m.handedOut
  taken : region.bytes ⊆ m'.handedOut
  grows : m.handedOut ⊆ m'.handedOut
  held : demand.HeldIn m'.memory region
  kept : Set.EqOn m'.memory.byte m.memory.byte region.bytesᶜ

variable {m m₁ m' : Machine} {demand : Demand} {demands : List Demand} {region : Region}
  {regions : List Region} {bytes : List Byte} {address : Word} {size : Nat}

theorem ready_fresh : fresh.Ready := by
  constructor <;> decide

theorem Ready.toNat_nextCode (hm : m.Ready) : (BitVec.ofNat 32 m.nextCode).toNat = m.nextCode :=
  (BitVec.toNat_ofNat ..).trans (Nat.mod_eq_of_lt (hm.codeBelow.trans (by decide)))

theorem Ready.toNat_nextData (hm : m.Ready) : (BitVec.ofNat 32 m.nextData).toNat = m.nextData :=
  (BitVec.toNat_ofNat ..).trans (Nat.mod_eq_of_lt (hm.dataBelow.trans (by decide)))

theorem loadCode_eq_ok (hm : m.Ready) (h : m.loadCode bytes = .ok (address, m')) :
    address.toNat = m.nextCode ∧ align16 (m.nextCode + bytes.length) < dataStart ∧
      m' = { m with
        memory := m.memory.store m.nextCode bytes
        nextCode := align16 (m.nextCode + bytes.length) } := by
  obtain ⟨m₁, hwrite, h⟩ := bind_eq_ok_iff.mp h
  rw [writeBytes, hm.toNat_nextCode] at hwrite
  split at hwrite
  · cases hwrite
    dsimp only at h
    split at h
    · rename_i hroom
      cases h
      exact ⟨hm.toNat_nextCode, hroom, rfl⟩
    · cases h
  · cases hwrite

/-- The check that a sum is an address refuses nothing that the check for the end of the area would
let pass. -/
theorem allocate_eq_ok_iff :
    m.allocate size = .ok (address, m') ↔ address = BitVec.ofNat 32 m.nextData ∧
      align16 (m.nextData + size) < dataEnd ∧
      m' = { m with nextData := align16 (m.nextData + size) } := by
  have hstop := le_align16 (m.nextData + size)
  simp only [allocate]
  constructor
  · intro h
    split at h
    · cases h
    · split at h
      · rename_i hroom
        cases h
        exact ⟨rfl, hroom, rfl⟩
      · cases h
  · rintro ⟨rfl, hroom, rfl⟩
    -- The area ends far enough below the last address for the rounding.
    have hsum : ¬addressRange ≤ m.nextData + size + 15 := by
      have hend : dataEnd + 15 < addressRange := by decide
      omega
    rw [if_neg hsum, if_pos hroom]

theorem grants_loadCode (hm : m.Ready) (h : m.loadCode bytes = .ok (address, m')) :
    m.Grants (.code bytes) ⟨address.toNat, bytes.length⟩ m' ∧ m'.Ready := by
  obtain ⟨haddress, hroom, rfl⟩ := loadCode_eq_ok hm h
  obtain ⟨haligned, habove, -, hdataAligned, hdataAbove, hdataBelow⟩ := hm
  have hstop := le_align16 (m.nextCode + bytes.length)
  have hnext : m.nextCode ≤ align16 (m.nextCode + bytes.length) := by omega
  have hbelow : m.nextCode + bytes.length < dataStart := Nat.lt_of_le_of_lt hstop hroom
  rw [haddress]
  refine ⟨{
    served := ⟨rfl, haligned, habove, hbelow⟩
    fresh := Set.disjoint_union_right.mpr
      ⟨disjoint_ranges (.inr (Nat.le_refl _)), disjoint_ranges (.inl (Nat.le_of_lt hbelow))⟩
    taken := (Set.Ico_subset_Ico habove hstop).trans Set.subset_union_left
    grows := Set.union_subset_union_left _ (Set.Ico_subset_Ico_right hnext)
    held := Memory.load_store ..
    kept := Memory.eqOn_store disjoint_compl_left }, ?_⟩
  exact ⟨dvd_align16 _, habove.trans hnext, hroom, hdataAligned, hdataAbove, hdataBelow⟩

theorem grants_allocate (hm : m.Ready) (h : m.allocate size = .ok (address, m')) :
    m.Grants (.data size) ⟨address.toNat, size⟩ m' ∧ m'.Ready := by
  obtain ⟨rfl, hroom, rfl⟩ := allocate_eq_ok_iff.mp h
  rw [hm.toNat_nextData]
  obtain ⟨hcodeAligned, hcodeAbove, hcodeBelow, haligned, habove, -⟩ := hm
  have hstop := le_align16 (m.nextData + size)
  have hnext : m.nextData ≤ align16 (m.nextData + size) := by omega
  have hcode : m.nextCode ≤ m.nextData := (Nat.le_of_lt hcodeBelow).trans habove
  refine ⟨{
    served := ⟨rfl, haligned, habove, Nat.lt_of_le_of_lt hstop hroom⟩
    fresh := Set.disjoint_union_right.mpr
      ⟨disjoint_ranges (.inr hcode), disjoint_ranges (.inr (Nat.le_refl _))⟩
    taken := (Set.Ico_subset_Ico habove hstop).trans Set.subset_union_right
    grows := Set.union_subset_union_right _ (Set.Ico_subset_Ico_right hnext)
    held := trivial
    kept := Set.eqOn_refl _ _ }, ?_⟩
  exact ⟨hcodeAligned, hcodeAbove, hcodeBelow, dvd_align16 _, habove.trans hnext, hroom⟩

theorem grants_of_grant (hm : m.Ready) (h : m.grant demand = .ok (region, m')) :
    m.Grants demand region m' ∧ m'.Ready := by
  cases demand with
  | code bytes =>
      obtain ⟨given, hgiven, hregion⟩ := map_eq_ok_iff.mp h
      cases hregion
      exact grants_loadCode hm hgiven
  | data size =>
      obtain ⟨given, hgiven, hregion⟩ := map_eq_ok_iff.mp h
      cases hregion
      exact grants_allocate hm hgiven

/-! ## Many demands -/

/-- Every demand is served in its turn. -/
inductive Serves : Machine → List Demand → List Region → Machine → Prop
  | nil (m : Machine) : Serves m [] [] m
  | cons {m m₁ m' : Machine} {demand : Demand} {demands : List Demand} {region : Region}
      {regions : List Region} (hfirst : m.Grants demand region m₁)
      (hrest : Serves m₁ demands regions m') : Serves m (demand :: demands) (region :: regions) m'

theorem serves_of_grantAll (hm : m.Ready) (h : m.grantAll demands = .ok (regions, m')) :
    m.Serves demands regions m' ∧ m'.Ready := by
  induction demands generalizing m regions with
  | nil =>
      cases h
      exact ⟨.nil _, hm⟩
  | cons demand rest ih =>
      obtain ⟨⟨region, m₁⟩, hfirst, h⟩ := bind_eq_ok_iff.mp h
      obtain ⟨⟨others, m₂⟩, hothers, h⟩ := bind_eq_ok_iff.mp h
      cases h
      obtain ⟨hgrants, hm₁⟩ := grants_of_grant hm hfirst
      obtain ⟨hserves, hm'⟩ := ih hm₁ hothers
      exact ⟨.cons hgrants hserves, hm'⟩

/-- What was handed out stays handed out, and what is handed out in a run was not before. -/
theorem Serves.handedOut (h : m.Serves demands regions m') :
    m.handedOut ⊆ m'.handedOut ∧
      ∀ region ∈ regions, region.bytes ⊆ m'.handedOut ∧ Disjoint region.bytes m.handedOut := by
  induction h with
  | nil m => exact ⟨Set.Subset.rfl, List.forall_mem_nil _⟩
  | @cons m m₁ m' demand demands region regions hfirst hrest ih =>
      obtain ⟨htaken, hregions⟩ := ih
      refine ⟨hfirst.grows.trans htaken, ?_⟩
      rw [List.forall_mem_cons]
      refine ⟨⟨hfirst.taken.trans htaken, hfirst.fresh⟩, fun other hother => ?_⟩
      obtain ⟨hother, hfresh⟩ := hregions other hother
      exact ⟨hother, hfresh.mono_right hfirst.grows⟩

theorem Grants.eqOn_handedOut (h : m.Grants demand region m') :
    Set.EqOn m'.memory.byte m.memory.byte m.handedOut :=
  h.kept.mono h.fresh.symm.subset_compl_right

/-- A run changes nothing in what was handed out before it. -/
theorem Serves.eqOn_handedOut (h : m.Serves demands regions m') :
    Set.EqOn m'.memory.byte m.memory.byte m.handedOut := by
  induction h with
  | nil m => exact Set.eqOn_refl _ _
  | cons hfirst hrest ih =>
      exact (ih.mono hfirst.grows).trans hfirst.eqOn_handedOut

theorem Serves.apart (h : m.Serves demands regions m') : regions.Pairwise Region.Apart := by
  induction h with
  | nil m => exact .nil
  | cons hfirst hrest ih =>
      -- The later regions come out of what the first demand has left.
      refine .cons (fun other hother => ?_) ih
      have hfresh := (hrest.handedOut.2 other hother).2
      exact (hfresh.mono_right hfirst.taken).symm

theorem Serves.served (h : m.Serves demands regions m') :
    List.Forall₂ Demand.ServedBy demands regions := by
  induction h with
  | nil m => exact .nil
  | cons hfirst _ ih => exact .cons hfirst.served ih

/-- After a run all code that was loaded in it is still there. -/
theorem Serves.held (h : m.Serves demands regions m') :
    List.Forall₂ (Demand.HeldIn m'.memory) demands regions := by
  induction h with
  | nil m => exact .nil
  | cons hfirst hrest ih =>
      refine .cons (hfirst.held.congr hfirst.served.size ?_) ih
      exact hrest.eqOn_handedOut.mono hfirst.taken

/-- A run is a run up to one of its demands, that demand, and a run from there on. -/
theorem exists_of_grantAll_append {before after : List Demand}
    (h : m.grantAll (before ++ demand :: after) = .ok (regions, m')) :
    ∃ earlier later m₁ region m₂, m.grantAll before = .ok (earlier, m₁) ∧
      m₁.grant demand = .ok (region, m₂) ∧ regions = earlier ++ region :: later := by
  induction before generalizing m regions with
  | nil =>
      obtain ⟨⟨region, m₂⟩, hgrant, h⟩ := bind_eq_ok_iff.mp h
      obtain ⟨⟨later, m₃⟩, -, h⟩ := bind_eq_ok_iff.mp h
      cases h
      exact ⟨[], later, m, region, m₂, rfl, hgrant, rfl⟩
  | cons first before ih =>
      obtain ⟨⟨one, m₀⟩, hfirst, h⟩ := bind_eq_ok_iff.mp h
      obtain ⟨⟨others, m₃⟩, hothers, h⟩ := bind_eq_ok_iff.mp h
      cases h
      obtain ⟨earlier, later, m₁, region, m₂, hbefore, hgrant, rfl⟩ := ih hothers
      refine ⟨one :: earlier, later, m₁, region, m₂, ?_, hgrant, rfl⟩
      rw [grantAll, hfirst, ok_bind, hbefore, ok_bind]
      rfl

/-- Memory that a machine hands out never overlaps. The regions for any demands are apart, have the
sizes asked for, start at multiples of sixteen and lie in the areas for code and for data. Loading
code changes the bytes of its own region and no others, so none of a region that was handed out
earlier; in its region it leaves the code, which is still there after the last demand. -/
theorem handed_out_apart (h : fresh.grantAll demands = .ok (regions, m)) :
    regions.Pairwise Region.Apart ∧
    List.Forall₂ Demand.ServedBy demands regions ∧
    List.Forall₂ (Demand.HeldIn m.memory) demands regions ∧
    ∀ before bytes after, demands = before ++ .code bytes :: after →
      ∃ earlier later m₁ address m₂, fresh.grantAll before = .ok (earlier, m₁) ∧
        m₁.loadCode bytes = .ok (address, m₂) ∧
        regions = earlier ++ ⟨address.toNat, bytes.length⟩ :: later ∧
        m₂.memory.load address.toNat bytes.length = bytes ∧
        Set.EqOn m₂.memory.byte m₁.memory.byte (Region.bytes ⟨address.toNat, bytes.length⟩)ᶜ ∧
        ∀ region ∈ earlier, Set.EqOn m₂.memory.byte m₁.memory.byte region.bytes := by
  obtain ⟨hserves, -⟩ := serves_of_grantAll ready_fresh h
  refine ⟨hserves.apart, hserves.served, hserves.held, fun before bytes after hdemands => ?_⟩
  subst hdemands
  obtain ⟨earlier, later, m₁, region, m₂, hbefore, hgrant, rfl⟩ := exists_of_grantAll_append h
  obtain ⟨⟨address, m₂⟩, hload, hregion⟩ := map_eq_ok_iff.mp hgrant
  cases hregion
  obtain ⟨hearlier, hm₁⟩ := serves_of_grantAll ready_fresh hbefore
  obtain ⟨hgrants, -⟩ := grants_loadCode hm₁ hload
  refine ⟨earlier, later, m₁, address, m₂, hbefore, hload, rfl, hgrants.held, hgrants.kept,
    fun region hregion => ?_⟩
  exact hgrants.eqOn_handedOut.mono (hearlier.handedOut.2 region hregion).1

/-- Code, data, no data at all, code that does not fill its last 16 bytes, and code after that. -/
def mixedDemands : List Demand :=
  [.code (List.replicate 16 0x60), .data 20, .data 0, .code [1, 2, 3], .data 16, .code [4]]

def mixedRegions : List Region :=
  [⟨0x10000000, 16⟩, ⟨0x10080000, 20⟩, ⟨0x10080020, 0⟩, ⟨0x10000010, 3⟩, ⟨0x10080020, 16⟩,
    ⟨0x10000020, 1⟩]

theorem handed_out_apart_mixed : ∃ m, fresh.grantAll mixedDemands = .ok (mixedRegions, m) ∧
    mixedRegions.Pairwise Region.Apart ∧ m.memory.load 0x10000010 3 = [1, 2, 3] := by
  obtain ⟨⟨regions, m⟩, h⟩ := exists_of_isOk
    (show (fresh.grantAll mixedDemands).isOk = true by decide +kernel)
  have hregions : (fresh.grantAll mixedDemands).map Prod.fst = .ok mixedRegions := by decide +kernel
  rw [h] at hregions
  cases hregions
  obtain ⟨hapart, -, hheld, -⟩ := handed_out_apart h
  exact ⟨m, h, hapart, hheld.get (i := 3) (by decide) (by decide)⟩

end Machine

end CallBridge

import CallBridge.Proofs.Memory

/-!
# Regions

A region is a run of bytes: where it starts and how many there are. Regions that lie one after the
other between two bounds (`Stacked`) are apart from each other and inside of the bounds, and stacks
are put together like the lists of their regions, so a layout is checked piece by piece.
-/

namespace CallBridge

structure Region where
  start : Nat
  size : Nat
deriving DecidableEq, Repr

namespace Region

variable {lo mid hi : Nat} {r s : Region} {regions regions' : List Region}

def stop (r : Region) : Nat :=
  r.start + r.size

def bytes (r : Region) : Set Nat :=
  Set.Ico r.start r.stop

/-- Two regions have no byte in common. -/
def Apart (r s : Region) : Prop :=
  Disjoint r.bytes s.bytes

/-- All of one region lies between the bounds of another. -/
def Inside (r s : Region) : Prop :=
  s.start ≤ r.start ∧ r.stop ≤ s.stop

instance (r s : Region) : Decidable (r.Inside s) :=
  inferInstanceAs (Decidable (_ ∧ _))

theorem start_le_stop (r : Region) : r.start ≤ r.stop :=
  Nat.le_add_right _ _

theorem apart_of_le (h : r.stop ≤ s.start ∨ s.stop ≤ r.start) : r.Apart s :=
  disjoint_ranges h

theorem Apart.symm (h : r.Apart s) : s.Apart r :=
  Disjoint.symm h

theorem Inside.bytes_subset (h : r.Inside s) : r.bytes ⊆ s.bytes :=
  Set.Ico_subset_Ico h.1 h.2

theorem Apart.mono {r' s' : Region} (h : r.Apart s) (hr : r'.Inside r) (hs : s'.Inside s) :
    r'.Apart s' :=
  Disjoint.mono hr.bytes_subset hs.bytes_subset h

/-! ## One after the other -/

/-- The regions lie between the bounds, each of them after those before it. -/
def Stacked (lo hi : Nat) : List Region → Prop
  | [] => lo ≤ hi
  | r :: rest => lo ≤ r.start ∧ Stacked r.stop hi rest

theorem Stacked.le (h : Stacked lo hi regions) : lo ≤ hi := by
  induction regions generalizing lo with
  | nil => exact h
  | cons r rest ih => exact (h.1.trans r.start_le_stop).trans (ih h.2)

theorem Stacked.inside (h : Stacked lo hi regions) :
    ∀ r ∈ regions, lo ≤ r.start ∧ r.stop ≤ hi := by
  induction regions generalizing lo with
  | nil => exact List.forall_mem_nil _
  | cons r rest ih =>
      refine List.forall_mem_cons.mpr ⟨⟨h.1, h.2.le⟩, fun s hs => ?_⟩
      obtain ⟨hstart, hstop⟩ := ih h.2 s hs
      exact ⟨(h.1.trans r.start_le_stop).trans hstart, hstop⟩

theorem Stacked.inside_zero {size : Nat} (h : Stacked 0 size regions) :
    ∀ r ∈ regions, r.Inside ⟨0, size⟩ := by
  intro r hr
  refine ⟨Nat.zero_le _, (h.inside r hr).2.trans ?_⟩
  rw [stop, Nat.zero_add]

theorem Stacked.pairwise (h : Stacked lo hi regions) : regions.Pairwise Apart := by
  induction regions generalizing lo with
  | nil => exact .nil
  | cons r rest ih =>
      exact .cons (fun s hs => apart_of_le (.inl (h.2.inside s hs).1)) (ih h.2)

theorem Stacked.append (h : Stacked lo mid regions) (h' : Stacked mid hi regions') :
    Stacked lo hi (regions ++ regions') := by
  induction regions generalizing lo with
  | nil =>
      cases regions' with
      | nil => exact Nat.le_trans h h'
      | cons r rest => exact ⟨Nat.le_trans h h'.1, h'.2⟩
  | cons r rest ih => exact ⟨h.1, ih h.2⟩

/-- A row of regions of one size, without gaps. -/
def row (start size count : Nat) : List Region :=
  (List.range count).map fun i => ⟨start + i * size, size⟩

@[simp]
theorem length_row (start size count : Nat) : (row start size count).length = count := by
  simp [row]

theorem row_succ (start size count : Nat) :
    row start size (count + 1) = ⟨start, size⟩ :: row (start + size) size count := by
  have hnext (i : Nat) : start + (i + 1) * size = start + size + i * size := by
    rw [Nat.succ_mul, Nat.add_assoc, Nat.add_comm size]
  simp [row, List.range_succ_eq_map, hnext]

theorem stacked_row (start size count : Nat) :
    Stacked start (start + count * size) (row start size count) := by
  induction count generalizing start with
  | zero => exact Nat.le_add_right _ _
  | succ count ih =>
      have hend : start + (count + 1) * size = start + size + count * size := by
        rw [Nat.succ_mul, Nat.add_assoc, Nat.add_comm size]
      rw [row_succ, hend]
      exact ⟨Nat.le_refl _, ih (start + size)⟩

end Region

end CallBridge

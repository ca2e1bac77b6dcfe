import Mathlib.Data.List.GetD
import NetworkAnalyser.RadiotapReads

/-! The arguments of a radiotap header where its sender has put them, each padded to its natural
alignment, against the walk of the iterator, which moves the index on instead of the pointer. -/
namespace NetworkAnalyser.Server

/-- Alignment and length of the arguments of types 0 to 13, as radiotap defines them. -/
def argumentSizes : List (Nat × Nat) :=
  [ (8, 8), -- TSFT: a time of 64 bits
    (1, 1), -- FLAGS
    (1, 1), -- RATE
    (2, 4), -- CHANNEL: frequency and flags, of 16 bits each
    (2, 2), -- FHSS: hop set and pattern
    (1, 1), -- DBM_ANTSIGNAL
    (1, 1), -- DBM_ANTNOISE
    (2, 2), -- LOCK_QUALITY
    (2, 2), -- TX_ATTENUATION
    (2, 2), -- DB_TX_ATTENUATION
    (1, 1), -- DBM_TX_POWER
    (1, 1), -- ANTENNA
    (1, 1), -- DB_ANTSIGNAL
    (1, 1)] -- DB_ANTNOISE

def argumentAlign (type : Nat) : Nat := (argumentSizes.getD type (0, 0)).1
def argumentLength (type : Nat) : Nat := (argumentSizes.getD type (0, 0)).2

theorem rtSizes_eq (i : Nat) : rtAlign i = argumentAlign i ∧ rtLength i = argumentLength i := by
  have htable : ∀ j < 14, rtAlign j = argumentAlign j ∧ rtLength j = argumentLength j := by decide
  by_cases hi : i < 14
  · exact htable i hi
  · have hsource : rtSizes.getD i 0 = 0 := List.getD_eq_default _ _ (Nat.not_lt.mp hi)
    have hdefined : argumentSizes.getD i (0, 0) = (0, 0) :=
      List.getD_eq_default _ _ (Nat.not_lt.mp hi)
    rw [rtAlign, rtLength, argumentAlign, argumentLength, hsource, hdefined]
    decide

theorem argumentAlign_eq (i : Nat) : argumentAlign i = rtAlign i := (rtSizes_eq i).1.symm

theorem argumentLength_eq (i : Nat) : argumentLength i = rtLength i := (rtSizes_eq i).2.symm

def alignUp (align off : Nat) : Nat :=
  if off % align = 0 then off else off + (align - off % align)

/-- The arguments from type `i` on, the first of them padded from `off`. -/
def paddedLayout : Nat → Nat → Nat → Nat → List Field
  | 0, _, _, _ => []
  | n + 1, i, bits, off =>
    if bits &&& 1 = 0 then paddedLayout n (i + 1) (bits >>> 1) off
    else (i, alignUp (argumentAlign i) off) ::
      paddedLayout n (i + 1) (bits >>> 1) (alignUp (argumentAlign i) off + argumentLength i)

/-- The arguments of types 0 to 13, by the first presence word. -/
def argumentsOf (present start : Nat) : List Field := paddedLayout 14 0 present start

theorem le_alignUp (align off : Nat) : off ≤ alignUp align off := by
  unfold alignUp
  split <;> omega

theorem rtSkew_eq_mod {i : Nat} (h : i < 14) (off : Nat) : rtSkew i off = off % rtAlign i := by
  have htable : ∀ j < 14, rtAlign j = 1 ∨ rtAlign j = 2 ∨ rtAlign j = 8 := by decide
  rcases htable i h with ha | ha | ha
  · rw [rtSkew, ha, Nat.mod_one, Nat.sub_self, Nat.and_zero]
  · rw [rtSkew, ha, Nat.and_one_is_mod]
  · rw [rtSkew, ha]
    exact Nat.and_two_pow_sub_one_eq_mod off 3

theorem adjustIndex_aligned {i off : Nat} (h : i < 14) (ha : off % rtAlign i = 0) :
    adjustIndex i off = i := by
  rw [adjustIndex, rtSkew_eq_mod h, ha]
  rfl

theorem adjustIndex_skewed {i off : Nat} (h : i < 14) (ha : off % rtAlign i ≠ 0) :
    adjustIndex i off = i + (rtAlign i - off % rtAlign i) := by
  rw [adjustIndex, rtSkew_eq_mod h, if_pos ha]

/-- How far the walk, once it is off by some types, may come up with the layout again in front of
type `i`. -/
def slack (i : Nat) : Nat := [4, 4, 3, 2, 2, 2, 1].getD i 0

theorem layout_fits_behind {limit n i j bits off off' : Nat} (hn : i + n = 14) (hij : i < j)
    (hj : 5 ≤ j) (hoff : off + slack i ≤ off')
    (h : Fits limit (paddedLayout n i bits off')) : Fits limit (layout n j bits off) := by
  induction n generalizing i j bits off off' with
  | zero => exact h
  | succ n ih =>
    have hslack : ∀ k < 14, slack (k + 1) ≤ slack k := by decide
    have htable : ∀ k < 14, ∀ l < 14, k < l → 5 ≤ l →
        rtLength l + slack (k + 1) ≤ slack k + rtLength k := by decide
    rw [layout]
    rw [paddedLayout, argumentAlign_eq, argumentLength_eq] at h
    split
    · exact fun f hf => absurd hf List.not_mem_nil
    · rename_i hend
      by_cases hbit : bits &&& 1 = 0
      · rw [if_pos hbit] at h ⊢
        have := hslack i (by omega)
        exact ih (by omega) (by omega) (by omega) (by omega) h
      · rw [if_neg hbit] at h ⊢
        obtain ⟨hhere, hrest⟩ := fits_cons.mp h
        obtain ⟨hle, hlt⟩ := adjustIndex_le (Nat.not_le.mp hend) off
        have hup := le_alignUp (rtAlign i) off'
        have hlen := htable i (by omega) (adjustIndex j off) hlt (by omega) (by omega)
        simp only at hhere
        exact fits_cons.mpr ⟨by simp only; omega,
          ih (by omega) (by omega) (by omega) (by omega) hrest⟩

theorem skewed_length {i off : Nat} (h : i < 14) (hoff : i = 0 → off % 4 = 0)
    (ha : off % rtAlign i ≠ 0) : ∃ pad, rtAlign i - off % rtAlign i = pad ∧ 0 < pad ∧
      4 ≤ i + pad ∧ rtLength (i + pad) + slack (i + 1) ≤ pad + rtLength i := by
  have htable : ∀ k < 14, rtAlign k = 1 ∨ (k = 0 ∧ rtAlign k = 8) ∨
      (rtAlign k = 2 ∧ 4 ≤ k + 1 ∧ rtLength (k + 1) + slack (k + 1) ≤ 1 + rtLength k) := by
    decide
  rcases htable i h with halign | ⟨rfl, halign⟩ | ⟨halign, hfour, hlen⟩
  · rw [halign] at ha
    exact absurd (Nat.mod_one off) ha
  · rw [halign] at ha ⊢
    have hfour := hoff rfl
    exact ⟨4, by omega, by decide, by decide, by decide⟩
  · rw [halign] at ha ⊢
    exact ⟨1, by omega, by decide, hfour, hlen⟩

/-- The walk needs no more room than the arguments. The first of them may start at a multiple of
four bytes. -/
theorem layout_fits {limit n i bits off : Nat} (hn : i + n = 14) (hoff : i = 0 → off % 4 = 0)
    (h : Fits limit (paddedLayout n i bits off)) : Fits limit (layout n i bits off) := by
  induction n generalizing i bits off with
  | zero => exact h
  | succ n ih =>
    have hlt : i < 14 := by omega
    rw [layout, if_neg (Nat.not_le.mpr hlt)]
    rw [paddedLayout, argumentAlign_eq, argumentLength_eq] at h
    by_cases hbit : bits &&& 1 = 0
    · rw [if_pos hbit] at h ⊢
      exact ih (by omega) (fun h => by omega) h
    · rw [if_neg hbit] at h ⊢
      obtain ⟨hhere, hrest⟩ := fits_cons.mp h
      by_cases ha : off % rtAlign i = 0
      · rw [alignUp, if_pos ha] at hhere hrest
        rw [adjustIndex_aligned hlt ha]
        exact fits_cons.mpr ⟨hhere, ih (by omega) (fun h => by omega) hrest⟩
      · obtain ⟨pad, hpad, hpos, hfour, hlen⟩ := skewed_length hlt hoff ha
        rw [alignUp, if_neg ha, hpad] at hhere hrest
        rw [adjustIndex_skewed hlt ha, hpad]
        simp only at hhere
        exact fits_cons.mpr ⟨by simp only; omega,
          layout_fits_behind (by omega) (by omega) (by omega) (by omega) hrest⟩

theorem layout_sorted (n i bits off : Nat) :
    (layout n i bits off).Pairwise (fun f g => f.1 < g.1) ∧ ∀ f ∈ layout n i bits off, i ≤ f.1 := by
  induction n generalizing i bits off with
  | zero => exact ⟨List.Pairwise.nil, fun f hf => absurd hf List.not_mem_nil⟩
  | succ n ih =>
    rw [layout]
    split
    · exact ⟨List.Pairwise.nil, fun f hf => absurd hf List.not_mem_nil⟩
    · rename_i hend
      split
      · obtain ⟨hsorted, hle⟩ := ih (i + 1) (bits >>> 1) off
        exact ⟨hsorted, fun f hf => Nat.le_of_succ_le (hle f hf)⟩
      · obtain ⟨hsorted, hle⟩ := ih (adjustIndex i off + 1) (bits >>> 1)
          (off + rtLength (adjustIndex i off))
        obtain ⟨hadj, _⟩ := adjustIndex_le (Nat.not_le.mp hend) off
        refine ⟨List.pairwise_cons.mpr ⟨fun f hf => hle f hf, hsorted⟩, fun f hf => ?_⟩
        cases List.mem_cons.mp hf with
        | inl h => exact h ▸ hadj
        | inr h => exact Nat.le_trans (Nat.le_succ_of_le hadj) (hle f h)

def packedLayout : Nat → Nat → Nat → Nat → List Field
  | 0, _, _, _ => []
  | n + 1, i, bits, off =>
    if bits &&& 1 = 0 then packedLayout n (i + 1) (bits >>> 1) off
    else (i, off) :: packedLayout n (i + 1) (bits >>> 1) (off + argumentLength i)

/-- No argument of types 0 to 13 needs padding. -/
def Unpadded (present start : Nat) : Prop :=
  ∀ f ∈ packedLayout 14 0 present start, f.2 % argumentAlign f.1 = 0

theorem layout_of_unpadded {n i bits off : Nat} (hn : i + n = 14)
    (h : ∀ f ∈ packedLayout n i bits off, f.2 % argumentAlign f.1 = 0) :
    layout n i bits off = paddedLayout n i bits off := by
  induction n generalizing i bits off with
  | zero => rfl
  | succ n ih =>
    have hlt : i < 14 := by omega
    rw [packedLayout, argumentLength_eq] at h
    rw [layout, paddedLayout, if_neg (Nat.not_le.mpr hlt), argumentAlign_eq, argumentLength_eq]
    by_cases hbit : bits &&& 1 = 0
    · rw [if_pos hbit] at h
      rw [if_pos hbit, if_pos hbit, ih (by omega) h]
    · rw [if_neg hbit] at h
      obtain ⟨ha, hrest⟩ := List.forall_mem_cons.mp h
      rw [argumentAlign_eq] at ha
      rw [if_neg hbit, if_neg hbit, adjustIndex_aligned hlt ha, alignUp, if_pos ha,
        ih (by omega) hrest]

def ArgumentsEnd (limit : Nat) (args : List Field) : Prop :=
  ∀ f ∈ args, f.2 + argumentLength f.1 ≤ limit

instance (limit : Nat) (args : List Field) : Decidable (ArgumentsEnd limit args) :=
  inferInstanceAs (Decidable (∀ f ∈ args, _))

theorem argumentsEnd_iff {limit : Nat} {args : List Field} :
    ArgumentsEnd limit args ↔ Fits limit args := by
  simp only [ArgumentsEnd, Fits, argumentLength_eq]

theorem fieldsOf_of_unpadded {present start : Nat} (h : Unpadded present start) :
    fieldsOf present start = argumentsOf present start :=
  layout_of_unpadded rfl h

end NetworkAnalyser.Server

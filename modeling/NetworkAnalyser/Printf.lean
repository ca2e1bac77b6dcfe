import Mathlib.Data.Nat.Digits.Lemmas
import NetworkAnalyser.CString

/-! The texts of the `printf` conversions `%x`, `%i` and of literal format text. -/
namespace NetworkAnalyser.Printf
open NetworkAnalyser.CString

def ascii (s : String) : Bytes := s.toList.map fun c => c.toNat.toUInt8

def digitByte (d : Nat) : UInt8 := (if d < 10 then 48 + d else 87 + d).toUInt8

/-- An unsigned number in base `b`, most significant digit first. -/
def unsigned (b n : Nat) : Bytes :=
  if n = 0 then [48] else (Nat.digits b n).reverse.map digitByte

def percentX (n : Nat) : Bytes := unsigned 16 n

def percentI (i : Int) : Bytes :=
  if i < 0 then 45 :: unsigned 10 i.natAbs else unsigned 10 i.natAbs

def IsDigit (c : UInt8) : Prop := (48 ≤ c ∧ c ≤ 57) ∨ (97 ≤ c ∧ c ≤ 102)

theorem digitByte_isDigit {d : Nat} (h : d < 16) : IsDigit (digitByte d) := by
  unfold IsDigit
  interval_cases d <;> decide

def digitValue (c : UInt8) : Nat := if c < 58 then c.toNat - 48 else c.toNat - 87

theorem digitValue_digitByte {d : Nat} (h : d < 16) : digitValue (digitByte d) = d := by
  interval_cases d <;> decide

section
variable {b : Nat} (hb : 1 < b) (hb' : b ≤ 16)
include hb hb'

theorem unsigned_isDigit (n : Nat) : ∀ c ∈ unsigned b n, IsDigit c := by
  intro c hc
  unfold unsigned at hc
  split at hc
  · obtain rfl : c = 48 := by simpa using hc
    exact Or.inl (by decide)
  · obtain ⟨d, hd, rfl⟩ := List.mem_map.mp hc
    have := Nat.digits_lt_base hb (List.mem_reverse.mp hd)
    exact digitByte_isDigit (by omega)

theorem ofDigits_unsigned (n : Nat) :
    Nat.ofDigits b ((unsigned b n).reverse.map digitValue) = n := by
  unfold unsigned
  split
  · rename_i h
    simp [h, digitValue]
  · have hid : (Nat.digits b n).map (digitValue ∘ digitByte) = Nat.digits b n := by
      refine (List.map_congr_left fun d hd => ?_).trans (List.map_id _)
      have := Nat.digits_lt_base hb hd
      exact digitValue_digitByte (by omega)
    rw [← List.map_reverse, List.reverse_reverse, List.map_map, hid, Nat.ofDigits_digits]

theorem unsigned_inj {m n : Nat} (h : unsigned b m = unsigned b n) : m = n := by
  rw [← ofDigits_unsigned hb hb' m, h, ofDigits_unsigned hb hb' n]

omit hb' in
theorem unsigned_length_le {n k : Nat} (hk : 0 < k) (h : n < b ^ k) :
    (unsigned b n).length ≤ k := by
  unfold unsigned
  split
  · exact hk
  · simpa using (Nat.digits_length_le_iff hb n).mpr h

end

theorem percentX_isDigit (n : Nat) : ∀ c ∈ percentX n, IsDigit c :=
  unsigned_isDigit (by decide) (by decide) n

theorem percentX_inj {m n : Nat} (h : percentX m = percentX n) : m = n :=
  unsigned_inj (by decide) (by decide) h

theorem percentI_isDigit (i : Int) : ∀ c ∈ percentI i, c = 45 ∨ IsDigit c := by
  intro c hc
  have hdig := unsigned_isDigit (b := 10) (by decide) (by decide) i.natAbs
  unfold percentI at hc
  split at hc
  · rcases List.mem_cons.mp hc with rfl | hc
    · exact Or.inl rfl
    · exact Or.inr (hdig c hc)
  · exact Or.inr (hdig c hc)

end NetworkAnalyser.Printf

import Mathlib.Data.List.Basic
import Mathlib.Data.List.TakeWhile
import Mathlib.Tactic.Common

/-! C strings and character arrays of a fixed size. -/
namespace NetworkAnalyser.CString

abbrev Bytes := List UInt8

/-- The C string a run of bytes starts with: everything before the first NUL. -/
def cstr (bytes : Bytes) : Bytes := bytes.takeWhile (· ≠ 0)

@[simp] theorem cstr_nil : cstr [] = [] := rfl
@[simp] theorem cstr_nul (s : Bytes) : cstr (0 :: s) = [] := rfl

theorem cstr_cons {c : UInt8} (h : c ≠ 0) (s : Bytes) : cstr (c :: s) = c :: cstr s := by
  simp [cstr, h]

theorem nul_notMem_cstr (s : Bytes) : 0 ∉ cstr s := by
  intro h
  simpa using List.mem_takeWhile_imp h

theorem cstr_eq_self {s : Bytes} (h : 0 ∉ s) : cstr s = s :=
  List.takeWhile_eq_self_iff.mpr fun c hc => by
    have : c ≠ 0 := fun he => h (he ▸ hc)
    simpa using this

theorem cstr_append_nul (s rest : Bytes) : cstr (s ++ 0 :: rest) = cstr s := by
  induction s with
  | nil => rfl
  | cons c s ih =>
    by_cases hc : c = 0
    · simp [hc]
    · simp [cstr_cons hc, ih]

/-- The string at the start of a memory that holds `text` and a NUL, seen through a window. -/
theorem cstr_window {memory : Nat → UInt8} {text : Bytes}
    (htext : ∀ i (h : i < text.length), memory i = text[i]) (hnul : memory text.length = 0)
    (hno : 0 ∉ text) (n : Nat) : cstr ((List.range n).map memory) = text.take n := by
  by_cases hn : n ≤ text.length
  · have hfront : (List.range n).map memory = text.take n := by
      apply List.ext_getElem
      · simp [hn]
      · intro i hi _
        have hlt : i < n := by simpa using hi
        rw [List.getElem_map, List.getElem_range, List.getElem_take, htext i (by omega)]
    rw [hfront, cstr_eq_self fun h => hno (List.mem_of_mem_take h)]
  · have hfront : (List.range text.length).map memory = text := by
      apply List.ext_getElem
      · simp
      · intro i hi _
        rw [List.getElem_map, List.getElem_range, htext]
    obtain ⟨k, rfl⟩ : ∃ k, n = text.length + (k + 1) := ⟨n - text.length - 1, by omega⟩
    rw [List.range_add, List.range_succ_eq_map, List.map_append, hfront, List.map_cons,
      List.map_cons, Nat.add_zero, hnul, cstr_append_nul, cstr_eq_self hno,
      List.take_of_length_le (by omega)]

def strcmp : Bytes → Bytes → Int
  | [], [] => 0
  | [], b :: _ => -(b.toNat : Int)
  | a :: _, [] => a.toNat
  | a :: as, b :: bs =>
    if a = b then if a = 0 then 0 else strcmp as bs else (a.toNat : Int) - b.toNat

private theorem toNat_eq_zero {c : UInt8} : c.toNat = 0 ↔ c = 0 :=
  ⟨fun h => UInt8.toNat_inj.mp (by simpa using h), fun h => by simp [h]⟩

theorem strcmp_eq_zero (a b : Bytes) : strcmp a b = 0 ↔ cstr a = cstr b := by
  induction a generalizing b with
  | nil =>
    cases b with
    | nil => simp [strcmp]
    | cons y b =>
      by_cases hy : y = 0
      · simp [strcmp, hy]
      · have : y.toNat ≠ 0 := fun h => hy (toNat_eq_zero.mp h)
        simp [strcmp, cstr_cons hy, this]
  | cons x a ih =>
    cases b with
    | nil =>
      by_cases hx : x = 0
      · simp [strcmp, hx]
      · have : x.toNat ≠ 0 := fun h => hx (toNat_eq_zero.mp h)
        simp [strcmp, cstr_cons hx, this]
    | cons y b =>
      by_cases hxy : x = y
      · subst y
        by_cases hx : x = 0
        · simp [strcmp, hx]
        · simp [strcmp, hx, cstr_cons hx, ih]
      · have hne : ¬ ((x.toNat : Int) - y.toNat = 0) := fun h =>
          hxy (UInt8.toNat_inj.mp (by omega))
        simp only [strcmp, hxy, if_false, hne, false_iff]
        intro h
        by_cases hx : x = 0 <;> by_cases hy : y = 0
        · exact hxy (hx.trans hy.symm)
        · simp [hx, cstr_cons hy] at h
        · simp [hy, cstr_cons hx] at h
        · rw [cstr_cons hx, cstr_cons hy] at h
          exact hxy (List.cons.inj h).1

@[ext] structure CharArray (n : Nat) where
  bytes : Bytes
  size_eq : bytes.length = n
  deriving DecidableEq

namespace CharArray
variable {n : Nat}

def zero (n : Nat) : CharArray n := ⟨List.replicate n 0, List.length_replicate⟩

def set (a : CharArray n) (i : Nat) (c : UInt8) : CharArray n :=
  ⟨a.bytes.set i c, by rw [List.length_set, a.size_eq]⟩

@[simp] theorem set_bytes (a : CharArray n) (i : Nat) (c : UInt8) :
    (a.set i c).bytes = a.bytes.set i c := rfl

def str (a : CharArray n) : Bytes := cstr a.bytes

@[simp] theorem zero_str (n : Nat) : (zero n).str = [] := by
  cases n <;> rfl

/-- `for (i = 0; i < count; i++) a[i] = src[i];` -/
def copyFrom (src : Nat → UInt8) : Nat → CharArray n → CharArray n
  | 0, a => a
  | count + 1, a => (copyFrom src count a).set count (src count)

theorem copyFrom_bytes (src : Nat → UInt8) (count : Nat) (a : CharArray n) (h : count ≤ n) :
    (a.copyFrom src count).bytes = (List.range count).map src ++ a.bytes.drop count := by
  induction count with
  | zero => simp [copyFrom]
  | succ count ih =>
    have hlt : count < a.bytes.length := by rw [a.size_eq]; omega
    rw [copyFrom, set_bytes, ih (by omega), List.range_succ, List.map_append,
      List.set_append_right _ _ (by simp), List.drop_eq_getElem_cons hlt]
    simp only [List.length_map, List.length_range, Nat.sub_self, List.set_cons_zero,
      List.map_cons, List.map_nil, List.append_assoc, List.cons_append, List.nil_append]

end CharArray
end NetworkAnalyser.CString

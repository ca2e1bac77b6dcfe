import Mathlib.Algebra.GroupWithZero.Nat
import NetworkAnalyser.JsonGrammar
import NetworkAnalyser.Utf8

/-! How many bytes of UTF-8 a JSON text for a value takes at least, and what follows when it
takes no more. -/
namespace NetworkAnalyser.Json
open NetworkAnalyser.Utf8

/-- The bytes of a unit in UTF-8; a pair of surrogates is two and two. -/
def unitSize (u : UInt16) : Nat :=
  if u < 0x80 then 1 else if u < 0x800 then 2 else if 0xD800 ≤ u ∧ u < 0xE000 then 2 else 3

def JString.size (s : JString) : Nat := (s.map unitSize).sum

mutual

def Value.size : Value → Nat
  | .null => 4
  | .bool true => 4
  | .bool false => 5
  | .num t => textSize t
  | .str s => s.size + 2
  | .arr [] => 2
  | .arr (v :: vs) => 1 + elementsSize (v :: vs)
  | .obj [] => 2
  | .obj (m :: ms) => 1 + membersSize (m :: ms)

def elementsSize : List Value → Nat
  | [] => 0
  | v :: vs => v.size + 1 + elementsSize vs

def membersSize : List (JString × Value) → Nat
  | [] => 0
  | (k, v) :: ms => k.size + 3 + v.size + 1 + membersSize ms

end

def Item.size : Item → Nat
  | .value v => v.size
  | .elements vs => elementsSize vs
  | .elementsTail vs => 1 + elementsSize vs
  | .members ms => membersSize ms
  | .membersTail ms => 1 + membersSize ms

def PlainUnit (u : UInt16) : Prop := 0x20 ≤ u ∧ u ≠ 0x22 ∧ u ≠ 0x5C

def JString.Plain (s : JString) : Prop := ∀ u ∈ s, PlainUnit u

mutual

def Value.Plain : Value → Prop
  | .null => True
  | .bool _ => True
  | .num _ => True
  | .str s => s.Plain
  | .arr vs => ElementsPlain vs
  | .obj ms => MembersPlain ms

def ElementsPlain : List Value → Prop
  | [] => True
  | v :: vs => v.Plain ∧ ElementsPlain vs

def MembersPlain : List (JString × Value) → Prop
  | [] => True
  | (k, v) :: ms => k.Plain ∧ v.Plain ∧ MembersPlain ms

end

def Item.Plain : Item → Prop
  | .value v => v.Plain
  | .elements vs => ElementsPlain vs
  | .elementsTail vs => ElementsPlain vs
  | .members ms => MembersPlain ms
  | .membersTail ms => MembersPlain ms

@[simp] theorem size_nil : JString.size [] = 0 := rfl

@[simp] theorem size_cons (u : UInt16) (s : JString) :
    JString.size (u :: s) = unitSize u + JString.size s := rfl

@[simp] theorem size_append (s t : JString) :
    JString.size (s ++ t) = JString.size s + JString.size t := by
  simp [JString.size]

theorem unitSize_le (u : UInt16) : unitSize u ≤ 3 := by
  unfold unitSize
  split
  · decide
  · split
    · decide
    · split <;> decide

theorem utf8Size_eq (c : Char) : c.utf8Size =
    if c.toNat < 0x80 then 1 else if c.toNat < 0x800 then 2 else if c.toNat < 0x10000 then 3
    else 4 := by
  have hone : c.val ≤ 0x7F ↔ c.toNat < 0x80 := by
    rw [UInt32.le_iff_toNat_le, Char.toNat]
    exact Nat.lt_succ_iff.symm
  have htwo : c.val ≤ 0x7FF ↔ c.toNat < 0x800 := by
    rw [UInt32.le_iff_toNat_le, Char.toNat]
    exact Nat.lt_succ_iff.symm
  have hthree : c.val ≤ 0xFFFF ↔ c.toNat < 0x10000 := by
    rw [UInt32.le_iff_toNat_le, Char.toNat]
    exact Nat.lt_succ_iff.symm
  change (if c.val ≤ 0x7F then 1 else if c.val ≤ 0x7FF then 2 else if c.val ≤ 0xFFFF then 3
    else 4) = _
  simp only [hone, htwo, hthree]

theorem toNat_toUInt16 {n : Nat} (h : n < 0x10000) : n.toUInt16.toNat = n := Nat.mod_eq_of_lt h

theorem unitSize_toUInt16 {n : Nat} (h : n < 0x10000) : unitSize n.toUInt16 =
    if n < 0x80 then 1 else if n < 0x800 then 2 else if 0xD800 ≤ n ∧ n < 0xE000 then 2 else 3 := by
  simp only [unitSize, UInt16.lt_iff_toNat_lt, UInt16.le_iff_toNat_le, toNat_toUInt16 h]
  rfl

theorem char_scalar (c : Char) : c.toNat < 0xD800 ∨ 0xE000 ≤ c.toNat ∧ c.toNat < 0x110000 := c.valid

theorem size_utf16 (c : Char) : JString.size (utf16 c) = c.utf8Size := by
  rw [utf8Size_eq, utf16]
  have hscalar := char_scalar c
  by_cases hplane : c.toNat < 0x10000
  · rw [if_pos hplane, size_cons, size_nil, unitSize_toUInt16 hplane, Nat.add_zero]
    split
    · rfl
    · split
      · rfl
      · rw [if_neg (by omega)]
  · rw [if_neg hplane, size_cons, size_cons, size_nil, unitSize_toUInt16 (by omega),
      unitSize_toUInt16 (by omega)]
    rw [if_neg (by omega), if_neg (by omega), if_pos (by omega), if_neg (by omega),
      if_neg (by omega), if_pos (by omega), if_neg (by omega), if_neg (by omega),
      if_neg hplane]

theorem plainUnit_toUInt16 {n : Nat} (h : n < 0x10000) :
    PlainUnit n.toUInt16 ↔ 0x20 ≤ n ∧ n ≠ 0x22 ∧ n ≠ 0x5C := by
  simp only [PlainUnit, UInt16.le_iff_toNat_le, ne_eq, ← UInt16.toNat_inj, toNat_toUInt16 h]
  exact Iff.rfl

theorem plain_utf16_iff (c : Char) : JString.Plain (utf16 c) ↔ Unescaped c := by
  have hquote : c = '"' ↔ c.toNat = 0x22 := by
    rw [← Char.toNat_inj]; exact Iff.rfl
  have hslash : c = '\\' ↔ c.toNat = 0x5C := by
    rw [← Char.toNat_inj]; exact Iff.rfl
  have hscalar := char_scalar c
  rw [Unescaped, ne_eq, ne_eq, hquote, hslash, utf16]
  by_cases hplane : c.toNat < 0x10000
  · rw [if_pos hplane, JString.Plain, List.forall_mem_singleton, plainUnit_toUInt16 hplane]
  · rw [if_neg hplane, JString.Plain, List.forall_mem_cons, List.forall_mem_singleton,
      plainUnit_toUInt16 (by omega), plainUnit_toUInt16 (by omega)]
    omega

theorem escapeUnit_size {c : Char} {u : UInt16} (h : escapeUnit c = some u) : unitSize u = 1 := by
  have hall : ([0x22, 0x5C, 0x2F, 8, 12, 10, 13, 9] : List UInt16).all
      (fun v => decide (unitSize v = 1)) = true := by
    decide
  refine of_decide_eq_true (List.all_eq_true.mp hall u ?_)
  unfold escapeUnit at h
  grind

theorem hexUnit_text_size (a b c d : Char) (t : List Char) :
    6 + textSize t ≤ textSize ('\\' :: 'u' :: a :: b :: c :: d :: t) := by
  have ha := a.utf8Size_pos
  have hb := b.utf8Size_pos
  have hc := c.utf8Size_pos
  have hd := d.utf8Size_pos
  have hslash : '\\'.utf8Size = 1 := by decide
  have hu : 'u'.utf8Size = 1 := by decide
  simp only [textSize_cons, hslash, hu]
  omega

theorem StringText.size_le {s : JString} {t : List Char} (h : StringText s t) :
    s.size + 1 ≤ textSize t := by
  induction h with
  | close => decide
  | @char c s t h hs ih =>
    rw [size_append, size_utf16, textSize_cons]
    omega
  | @escape c u s t h hs ih =>
    have hpos := c.utf8Size_pos
    have hslash := '\\'.utf8Size_pos
    simp only [size_cons, textSize_cons, escapeUnit_size h]
    omega
  | @unicode a b c d u s t h hs ih =>
    have hle := unitSize_le u
    have htext := hexUnit_text_size a b c d t
    rw [size_cons]
    omega

/-- Only characters that stand for themselves take no more room than the string. -/
theorem StringText.plain {s : JString} {t : List Char} (h : StringText s t)
    (heq : textSize t = s.size + 1) : s.Plain := by
  induction h with
  | close => exact fun u hu => absurd hu List.not_mem_nil
  | @char c s t h hs ih =>
    rw [size_append, size_utf16, textSize_cons] at heq
    intro u hu
    cases List.mem_append.mp hu with
    | inl hu => exact (plain_utf16_iff c).mpr h u hu
    | inr hu => exact ih (by omega) u hu
  | @escape c u s t h hs ih =>
    have hle := hs.size_le
    have hpos := c.utf8Size_pos
    have hslash := '\\'.utf8Size_pos
    simp only [size_cons, textSize_cons, escapeUnit_size h] at heq
    omega
  | @unicode a b c d u s t h hs ih =>
    have hle := hs.size_le
    have hunit := unitSize_le u
    have htext := hexUnit_text_size a b c d t
    rw [size_cons] at heq
    omega

theorem member_text_size (t w t' t'' : List Char) :
    textSize ('"' :: (t ++ (w ++ ':' :: (t' ++ t'')))) =
      textSize t + textSize w + textSize t' + textSize t'' + 2 := by
  have hquote : '"'.utf8Size = 1 := by decide
  have hcolon : ':'.utf8Size = 1 := by decide
  simp only [textSize_cons, textSize_append, hquote, hcolon]
  omega

theorem Derives.size_le {i : Item} {t : List Char} (h : Derives i t) : i.size ≤ textSize t := by
  induction h with
  | @ws c i t h ht ih =>
    rw [textSize_cons]
    omega
  | null => decide
  | boolTrue => decide
  | boolFalse => decide
  | num hne hchars hvalid => exact Nat.le_refl _
  | @str s t h =>
    have hle := h.size_le
    have hquote : '"'.utf8Size = 1 := by decide
    rw [textSize_cons, hquote]
    change s.size + 2 ≤ _
    omega
  | arrEmpty hw =>
    have hopen : '['.utf8Size = 1 := by decide
    have hclose : textSize [']'] = 1 := by decide
    rw [textSize_cons, textSize_append, hopen, hclose]
    change 2 ≤ _
    omega
  | @arr v vs t h ih =>
    have hopen : '['.utf8Size = 1 := by decide
    rw [textSize_cons, hopen]
    exact Nat.add_le_add_left ih 1
  | @elements v vs t t' hv hvs ihv ihvs =>
    rw [textSize_append]
    change v.size + 1 + elementsSize vs ≤ _
    change v.size ≤ _ at ihv
    change 1 + elementsSize vs ≤ _ at ihvs
    omega
  | elementsEnd => decide
  | @elementsMore vs t h ih =>
    have hcomma : ','.utf8Size = 1 := by decide
    rw [textSize_cons, hcomma]
    exact Nat.add_le_add_left ih 1
  | objEmpty hw =>
    have hopen : '\x7b'.utf8Size = 1 := by decide
    have hclose : textSize ['\x7d'] = 1 := by decide
    rw [textSize_cons, textSize_append, hopen, hclose]
    change 2 ≤ _
    omega
  | @obj m ms t h ih =>
    have hopen : '\x7b'.utf8Size = 1 := by decide
    rw [textSize_cons, hopen]
    exact Nat.add_le_add_left ih 1
  | @members k v ms t w t' t'' hk hw hv hms ihv ihms =>
    have hle := hk.size_le
    change v.size ≤ _ at ihv
    change 1 + membersSize ms ≤ _ at ihms
    rw [member_text_size]
    change k.size + 3 + v.size + 1 + membersSize ms ≤ _
    omega
  | membersEnd => decide
  | @membersMore ms t h ih =>
    have hcomma : ','.utf8Size = 1 := by decide
    rw [textSize_cons, hcomma]
    exact Nat.add_le_add_left ih 1

theorem Derives.plain {i : Item} {t : List Char} (h : Derives i t)
    (heq : textSize t = i.size) : i.Plain := by
  induction h with
  | @ws c i t h ht ih =>
    have hle := ht.size_le
    have hpos := c.utf8Size_pos
    rw [textSize_cons] at heq
    omega
  | null => trivial
  | boolTrue => trivial
  | boolFalse => trivial
  | num hne hchars hvalid => trivial
  | @str s t h =>
    have hquote : '"'.utf8Size = 1 := by decide
    rw [textSize_cons, hquote] at heq
    change _ = s.size + 2 at heq
    exact h.plain (by omega)
  | arrEmpty hw => trivial
  | @arr v vs t h ih =>
    have hopen : '['.utf8Size = 1 := by decide
    rw [textSize_cons, hopen] at heq
    exact ih (Nat.add_left_cancel heq)
  | @elements v vs t t' hv hvs ihv ihvs =>
    have hlev : v.size ≤ textSize t := hv.size_le
    have hlevs : 1 + elementsSize vs ≤ textSize t' := hvs.size_le
    rw [textSize_append] at heq
    change _ = v.size + 1 + elementsSize vs at heq
    refine ⟨ihv ?_, ihvs ?_⟩
    · change _ = v.size
      omega
    · change _ = 1 + elementsSize vs
      omega
  | elementsEnd => trivial
  | @elementsMore vs t h ih =>
    have hcomma : ','.utf8Size = 1 := by decide
    rw [textSize_cons, hcomma] at heq
    exact ih (Nat.add_left_cancel heq)
  | objEmpty hw => trivial
  | @obj m ms t h ih =>
    have hopen : '\x7b'.utf8Size = 1 := by decide
    rw [textSize_cons, hopen] at heq
    exact ih (Nat.add_left_cancel heq)
  | @members k v ms t w t' t'' hk hw hv hms ihv ihms =>
    have hlek := hk.size_le
    have hlev : v.size ≤ textSize t' := hv.size_le
    have hlems : 1 + membersSize ms ≤ textSize t'' := hms.size_le
    rw [member_text_size] at heq
    change _ = k.size + 3 + v.size + 1 + membersSize ms at heq
    refine ⟨hk.plain (by omega), ihv ?_, ihms ?_⟩
    · change _ = v.size
      omega
    · change _ = 1 + membersSize ms
      omega
  | membersEnd => trivial
  | @membersMore ms t h ih =>
    have hcomma : ','.utf8Size = 1 := by decide
    rw [textSize_cons, hcomma] at heq
    exact ih (Nat.add_left_cancel heq)

end NetworkAnalyser.Json

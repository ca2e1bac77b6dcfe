import NetworkAnalyser.CString

/-! Base64: three bytes as four letters of six bits each, the last of them padded. -/
namespace NetworkAnalyser.Base64
open NetworkAnalyser.CString

def letter (n : Nat) : UInt8 :=
  (if n < 26 then 65 + n else if n < 52 then 71 + n else if n < 62 then n - 4
    else if n = 62 then 43 else 47).toUInt8

def letterValue (c : UInt8) : Option Nat :=
  if 65 ≤ c ∧ c ≤ 90 then some (c.toNat - 65)
  else if 97 ≤ c ∧ c ≤ 122 then some (c.toNat - 71)
  else if 48 ≤ c ∧ c ≤ 57 then some (c.toNat + 4)
  else if c = 43 then some 62
  else if c = 47 then some 63
  else none

def pad : UInt8 := 61

def encode : Bytes → Bytes
  | [] => []
  | [a] => [letter (a.toNat / 4), letter (a.toNat % 4 * 16), pad, pad]
  | [a, b] => [letter (a.toNat / 4), letter (a.toNat % 4 * 16 + b.toNat / 16),
      letter (b.toNat % 16 * 4), pad]
  | a :: b :: c :: rest => letter (a.toNat / 4) :: letter (a.toNat % 4 * 16 + b.toNat / 16) ::
      letter (b.toNat % 16 * 4 + c.toNat / 64) :: letter (c.toNat % 64) :: encode rest

def decodeQuad (p q r s : UInt8) : Option Bytes := do
  let w ← letterValue p
  let x ← letterValue q
  if r = pad ∧ s = pad then
    return [(w * 4 + x / 16).toUInt8]
  let y ← letterValue r
  if s = pad then
    return [(w * 4 + x / 16).toUInt8, (x % 16 * 16 + y / 4).toUInt8]
  let z ← letterValue s
  return [(w * 4 + x / 16).toUInt8, (x % 16 * 16 + y / 4).toUInt8, (y % 4 * 64 + z).toUInt8]

def decode : Bytes → Option Bytes
  | [] => some []
  | p :: q :: r :: s :: rest =>
    if s = pad ∧ rest ≠ [] then none
    else do
      let b ← decodeQuad p q r s
      let bs ← decode rest
      return b ++ bs
  | _ => none

theorem letterValue_letter {n : Nat} (h : n < 64) : letterValue (letter n) = some n := by
  have hall : ∀ m : Fin 64, letterValue (letter m.val) = some m.val := by decide
  exact hall ⟨n, h⟩

theorem letter_ne_pad {n : Nat} (h : n < 64) : letter n ≠ pad := by
  have hall : ∀ m : Fin 64, letter m.val ≠ pad := by decide
  exact hall ⟨n, h⟩

theorem toUInt8_eq {n : Nat} {a : UInt8} (h : n = a.toNat) : n.toUInt8 = a := by
  rw [h]
  exact UInt8.ofNat_toNat

section quads
variable (a b c : UInt8)

theorem decodeQuad_one :
    decodeQuad (letter (a.toNat / 4)) (letter (a.toNat % 4 * 16)) pad pad = some [a] := by
  have ha := a.toNat_lt
  have hp := letterValue_letter (n := a.toNat / 4) (by omega)
  have hq := letterValue_letter (n := a.toNat % 4 * 16) (by omega)
  have hfirst : (a.toNat / 4 * 4 + a.toNat % 4 * 16 / 16).toUInt8 = a := toUInt8_eq (by omega)
  simp only [decodeQuad, hp, hq, Option.bind_eq_bind, Option.bind_some, and_self, if_true, hfirst]
  rfl

theorem decodeQuad_two : decodeQuad (letter (a.toNat / 4))
    (letter (a.toNat % 4 * 16 + b.toNat / 16)) (letter (b.toNat % 16 * 4)) pad = some [a, b] := by
  have ha := a.toNat_lt
  have hb := b.toNat_lt
  have hp := letterValue_letter (n := a.toNat / 4) (by omega)
  have hq := letterValue_letter (n := a.toNat % 4 * 16 + b.toNat / 16) (by omega)
  have hr := letterValue_letter (n := b.toNat % 16 * 4) (by omega)
  have hpad : letter (b.toNat % 16 * 4) ≠ pad := letter_ne_pad (by omega)
  have hfirst : (a.toNat / 4 * 4 + (a.toNat % 4 * 16 + b.toNat / 16) / 16).toUInt8 = a :=
    toUInt8_eq (by omega)
  have hsecond : ((a.toNat % 4 * 16 + b.toNat / 16) % 16 * 16 + b.toNat % 16 * 4 / 4).toUInt8 = b :=
    toUInt8_eq (by omega)
  simp only [decodeQuad, hp, hq, hr, hpad, Option.bind_eq_bind, Option.bind_some, false_and,
    if_false, if_true, hfirst, hsecond]
  rfl

theorem decodeQuad_three : decodeQuad (letter (a.toNat / 4))
    (letter (a.toNat % 4 * 16 + b.toNat / 16)) (letter (b.toNat % 16 * 4 + c.toNat / 64))
    (letter (c.toNat % 64)) = some [a, b, c] := by
  have ha := a.toNat_lt
  have hb := b.toNat_lt
  have hc := c.toNat_lt
  have hp := letterValue_letter (n := a.toNat / 4) (by omega)
  have hq := letterValue_letter (n := a.toNat % 4 * 16 + b.toNat / 16) (by omega)
  have hr := letterValue_letter (n := b.toNat % 16 * 4 + c.toNat / 64) (by omega)
  have hs := letterValue_letter (n := c.toNat % 64) (by omega)
  have hpad : letter (c.toNat % 64) ≠ pad := letter_ne_pad (by omega)
  have hfirst : (a.toNat / 4 * 4 + (a.toNat % 4 * 16 + b.toNat / 16) / 16).toUInt8 = a :=
    toUInt8_eq (by omega)
  have hsecond : ((a.toNat % 4 * 16 + b.toNat / 16) % 16 * 16 +
      (b.toNat % 16 * 4 + c.toNat / 64) / 4).toUInt8 = b := toUInt8_eq (by omega)
  have hthird : ((b.toNat % 16 * 4 + c.toNat / 64) % 4 * 64 + c.toNat % 64).toUInt8 = c :=
    toUInt8_eq (by omega)
  simp only [decodeQuad, hp, hq, hr, hs, hpad, Option.bind_eq_bind, Option.bind_some, and_false,
    if_false, hfirst, hsecond, hthird]
  rfl

end quads

theorem decode_encode (b : Bytes) : decode (encode b) = some b := by
  induction b using encode.induct with
  | case1 => rfl
  | case2 a =>
    rw [encode, decode, if_neg (fun h => h.2 rfl), decodeQuad_one]
    rfl
  | case3 a b =>
    rw [encode, decode, if_neg (fun h => h.2 rfl), decodeQuad_two]
    rfl
  | case4 a b c rest ih =>
    have hlast : letter (c.toNat % 64) ≠ pad := letter_ne_pad (by omega)
    rw [encode, decode, if_neg (fun h => hlast h.1), decodeQuad_three, ih]
    rfl

def IsBase64 (c : UInt8) : Prop := c = pad ∨ ∃ n < 64, c = letter n

theorem encode_letters (b : Bytes) : ∀ c ∈ encode b, IsBase64 c := by
  have hletter : ∀ n < 64, IsBase64 (letter n) := fun n hn => Or.inr ⟨n, hn, rfl⟩
  have hfour : ∀ p q r s : UInt8, IsBase64 p → IsBase64 q → IsBase64 r → IsBase64 s →
      ∀ rest : Bytes, (∀ c ∈ rest, IsBase64 c) → ∀ c ∈ p :: q :: r :: s :: rest, IsBase64 c := by
    intro p q r s hp hq hr hs rest hrest c hc
    simp only [List.mem_cons] at hc
    rcases hc with rfl | rfl | rfl | rfl | hc
    exacts [hp, hq, hr, hs, hrest c hc]
  induction b using encode.induct with
  | case1 => exact fun c hc => absurd hc List.not_mem_nil
  | case2 a =>
    have ha := a.toNat_lt
    exact hfour _ _ _ _ (hletter _ (by omega)) (hletter _ (by omega)) (.inl rfl) (.inl rfl) []
      (fun c hc => by cases hc)
  | case3 a b =>
    have ha := a.toNat_lt
    have hb := b.toNat_lt
    exact hfour _ _ _ _ (hletter _ (by omega)) (hletter _ (by omega)) (hletter _ (by omega))
      (.inl rfl) [] (fun c hc => by cases hc)
  | case4 a b c rest ih =>
    have ha := a.toNat_lt
    have hb := b.toNat_lt
    have hc := c.toNat_lt
    exact hfour _ _ _ _ (hletter _ (by omega)) (hletter _ (by omega)) (hletter _ (by omega))
      (hletter _ (by omega)) _ ih

end NetworkAnalyser.Base64

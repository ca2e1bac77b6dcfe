import Mathlib.Algebra.BigOperators.Group.List.Basic
import Mathlib.Algebra.GroupWithZero.Nat
import NetworkAnalyser.CString

/-! Characters and their bytes in UTF-8. -/
namespace NetworkAnalyser.Utf8
open NetworkAnalyser.CString

def encode (cs : List Char) : Bytes := cs.flatMap String.utf8EncodeChar

def decode (b : Bytes) : Option (List Char) := b.toByteArray.utf8Decode?.map Array.toList

theorem decode_encode (cs : List Char) : decode (encode cs) = some cs := by
  have h : (encode cs).toByteArray.utf8Decode? = some cs.toArray := List.utf8Decode?_utf8Encode
  rw [decode, h]
  rfl

theorem decode_eq_some_iff {b : Bytes} {cs : List Char} :
    decode b = some cs ↔ b = encode cs := by
  constructor
  · intro h
    obtain ⟨a, ha, rfl⟩ := Option.map_eq_some_iff.mp h
    have hsome : b.toByteArray.utf8Decode?.isSome := by rw [ha]; rfl
    have henc := @ByteArray.utf8Encode_get_utf8Decode? b.toByteArray hsome
    rw [Option.get_of_eq_some hsome ha] at henc
    exact (List.toByteArray_inj.mp henc).symm
  · rintro rfl
    exact decode_encode cs

@[simp] theorem encode_nil : encode [] = [] := rfl

@[simp] theorem encode_append (cs ds : List Char) :
    encode (cs ++ ds) = encode cs ++ encode ds :=
  List.flatMap_append

def textSize (t : List Char) : Nat := (t.map Char.utf8Size).sum

@[simp] theorem textSize_nil : textSize [] = 0 := rfl

@[simp] theorem textSize_cons (c : Char) (t : List Char) :
    textSize (c :: t) = c.utf8Size + textSize t := rfl

@[simp] theorem textSize_append (t t' : List Char) :
    textSize (t ++ t') = textSize t + textSize t' := by
  simp [textSize]

theorem encode_length (cs : List Char) : (encode cs).length = textSize cs := by
  rw [encode, List.length_flatMap]
  apply congrArg List.sum
  exact List.map_congr_left fun c _ => String.length_utf8EncodeChar c

theorem encode_ne_nil {cs : List Char} (h : 0 < cs.length) : encode cs ≠ [] := by
  intro hnil
  have hempty : decode [] = some [] := decode_encode []
  rw [← hnil, decode_encode] at hempty
  rw [Option.some.inj hempty] at h
  exact Nat.lt_irrefl 0 h

theorem encode_intercalate (sep : List Char) (ts : List (List Char)) :
    encode (sep.intercalate ts) = (encode sep).intercalate (ts.map encode) := by
  induction ts with
  | nil => rfl
  | cons t ts ih =>
    cases ts with
    | nil => simp
    | cons u ts =>
      rw [List.intercalate_cons_cons, encode_append, encode_append, ih, List.map_cons,
        List.map_cons, List.map_cons, List.intercalate_cons_cons]

theorem encode_ascii {cs : List Char} (h : ∀ c ∈ cs, c.toNat < 0x80) :
    encode cs = cs.map fun c => c.toNat.toUInt8 := by
  induction cs with
  | nil => rfl
  | cons c cs ih =>
    have hc : c.val.toNat ≤ 0x7F := Nat.le_of_lt_succ (h c List.mem_cons_self)
    have hone : String.utf8EncodeChar c = [c.toNat.toUInt8] := by
      rw [String.utf8EncodeChar]
      exact if_pos hc
    rw [encode, List.flatMap_cons, hone]
    exact congrArg (_ :: ·) (ih fun d hd => h d (List.mem_cons_of_mem _ hd))

theorem decode_encode_append (cs : List Char) (b : Bytes) :
    decode (encode cs ++ b) = (decode b).map (cs ++ ·) := by
  induction cs with
  | nil => simp
  | cons c cs ih =>
    have hone : decode (String.utf8EncodeChar c ++ (encode cs ++ b)) =
        (decode (encode cs ++ b)).map (c :: ·) := by
      have h := @ByteArray.utf8Decode?_utf8Encode_singleton_append (encode cs ++ b).toByteArray c
      rw [List.utf8Encode_singleton, ← List.toByteArray_append] at h
      rw [decode, decode, h, Option.map_map, Option.map_map]
      exact congrArg (Option.map · _) (funext fun a => by simp)
    rw [encode, List.flatMap_cons, List.append_assoc]
    change decode (_ ++ (encode cs ++ b)) = _
    rw [hone, ih, Option.map_map]
    rfl

theorem eq_nul_of_zero_mem {c : Char} (h : 0 ∈ String.utf8EncodeChar c) : c = '\x00' := by
  have hbyte : ∀ {n : Nat}, 0 < n → n < 256 → UInt8.ofNat n ≠ 0 := by
    intro n hpos hlt he
    have := congrArg UInt8.toNat he
    rw [UInt8.toNat_ofNat_of_lt' hlt] at this
    exact Nat.ne_of_gt hpos this
  have hlast : ∀ n : Nat, 0 ≠ UInt8.ofNat (n % 64 + 128) := fun n =>
    (hbyte (by omega) (by omega)).symm
  rw [String.utf8EncodeChar] at h
  split at h
  · rename_i hlow
    by_contra hne
    have hpos : 0 < c.val.toNat := Nat.pos_of_ne_zero fun h0 => hne (Char.toNat_inj.mp h0)
    exact hbyte hpos (by omega) (List.mem_singleton.mp h).symm
  · split at h
    · have hfirst : 0 ≠ UInt8.ofNat (c.val.toNat / 64 % 32 + 192) :=
        (hbyte (by omega) (by omega)).symm
      simp only [List.mem_cons, List.not_mem_nil, hfirst, hlast, or_self] at h
    · split at h
      · have hfirst : 0 ≠ UInt8.ofNat (c.val.toNat / 4096 % 16 + 224) :=
          (hbyte (by omega) (by omega)).symm
        simp only [List.mem_cons, List.not_mem_nil, hfirst, hlast, or_self] at h
      · have hfirst : 0 ≠ UInt8.ofNat (c.val.toNat / 262144 % 8 + 240) :=
          (hbyte (by omega) (by omega)).symm
        simp only [List.mem_cons, List.not_mem_nil, hfirst, hlast, or_self] at h

theorem zero_notMem_encode {cs : List Char} (h : '\x00' ∉ cs) : 0 ∉ encode cs := by
  intro hzero
  obtain ⟨c, hc, hmem⟩ := List.mem_flatMap.mp hzero
  exact h (eq_nul_of_zero_mem hmem ▸ hc)

theorem encode_replicate_nul (n : Nat) :
    encode (List.replicate n '\x00') = List.replicate n 0 := by
  rw [encode_ascii]
  · exact List.map_replicate
  · intro c hc
    rw [List.eq_of_mem_replicate hc]
    decide

/-- Zeros behind the bytes do not make more of a text that has none. -/
theorem prefix_of_append_zeros {a b : Bytes} {n : Nat} (h : a <+: b ++ List.replicate n 0)
    (hzero : 0 ∉ a) : a <+: b := by
  cases List.prefix_or_prefix_of_prefix h (List.prefix_append b _) with
  | inl hab => exact hab
  | inr hba =>
    obtain ⟨more, rfl⟩ := hba
    have hmore := (List.prefix_append_right_inj b).mp h
    cases more with
    | nil => exact ⟨[], by simp⟩
    | cons c more =>
      obtain rfl := List.eq_of_mem_replicate (hmore.subset List.mem_cons_self)
      exact absurd (List.mem_append_right b List.mem_cons_self) hzero

end NetworkAnalyser.Utf8

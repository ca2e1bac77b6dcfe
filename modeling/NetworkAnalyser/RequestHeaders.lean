import NetworkAnalyser.Base64
import NetworkAnalyser.RpiService

/-! The headers of the requests `RpiServiceImpl` makes of the web server. -/
namespace NetworkAnalyser.Client
open NetworkAnalyser.CString NetworkAnalyser.Json

def isHigh (u : UInt16) : Bool := 0xD800 ≤ u.toNat && u.toNat < 0xDC00
def isLow (u : UInt16) : Bool := 0xDC00 ≤ u.toNat && u.toNat < 0xE000

/-- `getBytes` in US-ASCII: any other character becomes one question mark, and so does half a
surrogate pair. -/
def asciiBytes : JString → Bytes
  | [] => []
  | u :: us =>
    if u < 0x80 then u.toUInt8 :: asciiBytes us
    else if isHigh u then
      match us with
      | [] => [63]
      | v :: vs => if isLow v then 63 :: asciiBytes vs else 63 :: asciiBytes (v :: vs)
    else 63 :: asciiBytes us

def asciiText (b : Bytes) : JString := b.map UInt8.toUInt16

/-- Header names are compared without their case. -/
def lowerCase (name : JString) : JString := name.map fun u => if 65 ≤ u ∧ u ≤ 90 then u + 32 else u

/-- What is used of the class of the headers. -/
structure HttpHeaders (H : Type) where
  empty : H
  set : H → JString → JString → H
  add : H → JString → JString → H
  get : H → JString → List JString

structure HttpHeaders.Laws {H : Type} (m : HttpHeaders H) : Prop where
  get_set : ∀ h name value, m.get (m.set h name value) name = [value]
  get_add : ∀ h name name' value, lowerCase name ≠ lowerCase name' →
    m.get (m.add h name' value) name = m.get h name

def authHeader (username password : JString) : JString :=
  let auth := username ++ javaString ":" ++ password
  let encodedAuth := Base64.encode (asciiBytes auth)
  javaString "Basic " ++ asciiText encodedAuth

def createHeaders {H : Type} (m : HttpHeaders H) (username password : JString) : H :=
  let headers := m.set m.empty (javaString "Authorization") (authHeader username password)
  m.add (m.add headers (javaString "Content-Type") (javaString "application/json"))
    (javaString "Accept") (javaString "application/json")

/-- Name and password up to and behind the first colon, as a server takes them. -/
def basicCredentials (header : JString) : Option (Bytes × Bytes) :=
  if header.take 6 = javaString "Basic " then
    (Base64.decode (asciiBytes (header.drop 6))).bind fun b =>
      if 58 ∈ b then some (b.takeWhile (· ≠ 58), (b.dropWhile (· ≠ 58)).tail) else none
  else none

section ascii
variable {u : UInt16}

theorem asciiBytes_low (h : u < 0x80) (us : JString) :
    asciiBytes (u :: us) = u.toUInt8 :: asciiBytes us := by
  conv_lhs => unfold asciiBytes
  rw [if_pos h]

theorem asciiBytes_other (h : ¬ u < 0x80) (hhigh : isHigh u = false) (us : JString) :
    asciiBytes (u :: us) = 63 :: asciiBytes us := by
  conv_lhs => unfold asciiBytes
  rw [if_neg h, hhigh]
  rfl

theorem asciiBytes_pair {v : UInt16} (h : ¬ u < 0x80) (hu : isHigh u = true)
    (hv : isLow v = true) (us : JString) : asciiBytes (u :: v :: us) = 63 :: asciiBytes us := by
  conv_lhs => unfold asciiBytes
  rw [if_neg h, if_pos hu]
  simp only [hv, if_true]

theorem asciiBytes_half (h : ¬ u < 0x80) (hu : isHigh u = true) {us : JString}
    (hus : ∀ v ∈ us.head?, isLow v = false) : asciiBytes (u :: us) = 63 :: asciiBytes us := by
  conv_lhs => unfold asciiBytes
  rw [if_neg h, if_pos hu]
  cases us with
  | nil => rfl
  | cons v vs => simp only [hus v rfl, Bool.false_eq_true, if_false]

theorem asciiBytes_half_cons {v : UInt16} (h : ¬ u < 0x80) (hu : isHigh u = true)
    (hv : ¬ isLow v = true) (vs : JString) :
    asciiBytes (u :: v :: vs) = 63 :: asciiBytes (v :: vs) := by
  refine asciiBytes_half h hu fun w hw => ?_
  obtain rfl := Option.some.inj hw
  exact (Bool.not_eq_true _).mp hv

end ascii

theorem asciiBytes_append {t : JString} (ht : ∀ v ∈ t.head?, isLow v = false) (s : JString) :
    asciiBytes (s ++ t) = asciiBytes s ++ asciiBytes t := by
  induction s using asciiBytes.induct with
  | case1 => rfl
  | case2 u us h ih =>
    rw [List.cons_append, asciiBytes_low h, asciiBytes_low h, ih]
    rfl
  | case3 u h hhigh =>
    rw [List.singleton_append, asciiBytes_half h hhigh ht,
      asciiBytes_half h hhigh (fun w hw => by cases hw)]
    rfl
  | case4 u h hhigh v vs hlow ih =>
    rw [List.cons_append, List.cons_append, asciiBytes_pair h hhigh hlow,
      asciiBytes_pair h hhigh hlow, ih]
    rfl
  | case5 u h hhigh v vs hlow ih =>
    rw [List.cons_append] at ih
    rw [List.cons_append, List.cons_append, asciiBytes_half_cons h hhigh hlow,
      asciiBytes_half_cons h hhigh hlow, ih]
    rfl
  | case6 u us h hhigh ih =>
    rw [Bool.not_eq_true] at hhigh
    rw [List.cons_append, asciiBytes_other h hhigh, asciiBytes_other h hhigh, ih]
    rfl

theorem mem_asciiBytes {c : UInt8} (hc : c ≠ 63) {s : JString} (h : c ∈ asciiBytes s) :
    c.toUInt16 ∈ s := by
  induction s using asciiBytes.induct with
  | case1 => cases h
  | case2 u us hlt ih =>
    rw [asciiBytes_low hlt] at h
    cases List.mem_cons.mp h with
    | inl heq =>
      have hu : u.toUInt8.toUInt16 = u := by
        rw [UInt16.lt_iff_toNat_lt] at hlt
        rw [← UInt16.toNat_inj, UInt8.toNat_toUInt16, UInt16.toNat_toUInt8]
        exact Nat.mod_eq_of_lt (hlt.trans (by decide))
      rw [heq, hu]
      exact List.mem_cons_self
    | inr hmem => exact List.mem_cons_of_mem u (ih hmem)
  | case3 u hlt hhigh =>
    rw [asciiBytes_half hlt hhigh (fun w hw => by cases hw)] at h
    exact absurd (List.mem_singleton.mp h) hc
  | case4 u hlt hhigh v vs hlow ih =>
    rw [asciiBytes_pair hlt hhigh hlow] at h
    exact List.mem_cons_of_mem u (List.mem_cons_of_mem v
      (ih ((List.mem_cons.mp h).resolve_left hc)))
  | case5 u hlt hhigh v vs hlow ih =>
    rw [asciiBytes_half_cons hlt hhigh hlow] at h
    exact List.mem_cons_of_mem u (ih ((List.mem_cons.mp h).resolve_left hc))
  | case6 u us hlt hhigh ih =>
    rw [Bool.not_eq_true] at hhigh
    rw [asciiBytes_other hlt hhigh] at h
    exact List.mem_cons_of_mem u (ih ((List.mem_cons.mp h).resolve_left hc))

theorem base64_lt {c : UInt8} (h : Base64.IsBase64 c) : c < 0x80 := by
  have hall : ∀ n : Fin 64, Base64.letter n.val < 0x80 := by decide
  rcases h with rfl | ⟨n, hn, rfl⟩
  · decide
  · exact hall ⟨n, hn⟩

theorem asciiBytes_asciiText {b : Bytes} (h : ∀ c ∈ b, c < 0x80) :
    asciiBytes (asciiText b) = b := by
  induction b with
  | nil => rfl
  | cons c b ih =>
    have hlt := h c List.mem_cons_self
    have hunit : c.toUInt16 < 0x80 := by
      rw [UInt8.lt_iff_toNat_lt] at hlt
      rw [UInt16.lt_iff_toNat_lt, UInt8.toNat_toUInt16]
      exact hlt
    have htext : asciiText (c :: b) = c.toUInt16 :: asciiText b := rfl
    rw [htext, asciiBytes_low hunit, ih fun d hd => h d (List.mem_cons_of_mem c hd),
      UInt8.toUInt8_toUInt16]

theorem takeWhile_colon {a b : Bytes} (h : 58 ∉ a) :
    (a ++ 58 :: b).takeWhile (· ≠ 58) = a ∧ (a ++ 58 :: b).dropWhile (· ≠ 58) = 58 :: b := by
  induction a with
  | nil => exact ⟨rfl, rfl⟩
  | cons c a ih =>
    obtain ⟨hc, ha⟩ := not_or.mp (fun hm => h (List.mem_cons.mpr hm))
    obtain ⟨htake, hdrop⟩ := ih ha
    have hne : decide (c ≠ 58) = true := decide_eq_true (Ne.symm hc)
    rw [List.cons_append, List.takeWhile_cons, List.dropWhile_cons, hne]
    exact ⟨congrArg (c :: ·) htake, hdrop⟩

/-- Whatever name and password contain, the header is `Basic` and letters of Base64, and the
server takes from it their forms in ASCII, if the name has no colon. -/
theorem createHeaders_credentials {H : Type} {m : HttpHeaders H} (hm : m.Laws)
    {username : JString} (h : 58 ∉ username) (password : JString) :
    ∃ header, m.get (createHeaders m username password) (javaString "Authorization") = [header] ∧
      (∀ u ∈ header.drop 6, ∃ c, Base64.IsBase64 c ∧ u = c.toUInt16) ∧
      basicCredentials header = some (asciiBytes username, asciiBytes password) := by
  refine ⟨authHeader username password, ?_, ?_, ?_⟩
  · rw [createHeaders, hm.get_add _ _ _ _ (by decide), hm.get_add _ _ _ _ (by decide), hm.get_set]
  · intro u hu
    obtain ⟨c, hc, rfl⟩ := List.mem_map.mp (show u ∈ asciiText _ from hu)
    exact ⟨c, Base64.encode_letters _ c hc, rfl⟩
  · have hname : 58 ∉ asciiBytes username := fun hm => h (mem_asciiBytes (by decide) hm)
    have hauth : asciiBytes (username ++ javaString ":" ++ password) =
        asciiBytes username ++ 58 :: asciiBytes password := by
      have hcolon : javaString ":" = [58] := rfl
      rw [hcolon, List.append_assoc, List.singleton_append]
      rw [asciiBytes_append (fun v hv => by obtain rfl := Option.some.inj hv; rfl),
        asciiBytes_low (by decide)]
      rfl
    have htext : (authHeader username password).drop 6 =
        asciiText (Base64.encode (asciiBytes (username ++ javaString ":" ++ password))) := rfl
    have hbasic : (authHeader username password).take 6 = javaString "Basic " := rfl
    obtain ⟨htake, hdrop⟩ := @takeWhile_colon _ (asciiBytes password) hname
    rw [basicCredentials, if_pos hbasic, htext,
      asciiBytes_asciiText fun c hc => base64_lt (Base64.encode_letters _ c hc),
      Base64.decode_encode, Option.bind_some, hauth, if_pos (by simp), htake, hdrop]
    rfl

def headersByName : HttpHeaders (JString → List JString) where
  empty := fun _ => []
  set h name value := Function.update h (lowerCase name) [value]
  add h name value := Function.update h (lowerCase name) (h (lowerCase name) ++ [value])
  get h name := h (lowerCase name)

theorem headersByName_laws : headersByName.Laws where
  get_set _ _ _ := Function.update_self ..
  get_add _ _ _ _ hname := Function.update_of_ne hname ..

theorem standardHeaders_credentials : ∃ header,
    headersByName.get (createHeaders headersByName (javaString "richa123") (javaString "password"))
      (javaString "Authorization") = [header] ∧
      basicCredentials header = some (asciiBytes (javaString "richa123"),
        asciiBytes (javaString "password")) := by
  obtain ⟨header, hget, _, hcredentials⟩ := @createHeaders_credentials _ _ headersByName_laws
    (javaString "richa123") (by decide) (javaString "password")
  exact ⟨header, hget, hcredentials⟩

end NetworkAnalyser.Client

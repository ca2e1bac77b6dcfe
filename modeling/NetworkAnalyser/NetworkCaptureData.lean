import NetworkAnalyser.JsonText

/-! The classes the client reads a capture into. -/
namespace NetworkAnalyser.Client
open NetworkAnalyser.CString NetworkAnalyser.Json

def javaString (s : String) : JString := .ofChars s.toList

def javaText (b : Bytes) : Option JString := (Utf8.decode b).map JString.ofChars

structure Packet_ where
  datarate : JString
  antenna : JString
  channel : JString
  power : JString
  ssid : JString
  src : JString
  dst : JString
  bssid : JString

structure Packet where
  packet : Packet_

structure NetworkCaptureData where
  devId : Option JString
  packets : List Packet

def textMember (name : String) (v : Value) : Option JString := do
  let x ← v.member (javaString name)
  x.text

def Packet_.ofValue (v : Value) : Option Packet_ := do
  let datarate ← textMember "datarate" v
  let antenna ← textMember "antenna" v
  let channel ← textMember "channel" v
  let power ← textMember "power" v
  let ssid ← textMember "ssid" v
  let src ← textMember "src" v
  let dst ← textMember "dst" v
  let bssid ← textMember "bssid" v
  return { datarate, antenna, channel, power, ssid, src, dst, bssid }

def Packet.ofValue (v : Value) : Option Packet := do
  let x ← v.member (javaString "packet")
  let packet ← Packet_.ofValue x
  return { packet }

def NetworkCaptureData.ofValue (v : Value) : Option NetworkCaptureData := do
  let x ← v.member (javaString "packets")
  let vs ← x.elements
  let packets ← vs.mapM Packet.ofValue
  return { devId := textMember "devId" v, packets }

/-- The typed reading of a document: all members of each packet, as texts. Others are allowed. -/
def readCapture (b : Bytes) : Option NetworkCaptureData := do
  let s ← Utf8.decode b
  let v ← parseDocument s
  NetworkCaptureData.ofValue v

def memberNames : List String :=
  ["datarate", "antenna", "channel", "power", "ssid", "src", "dst", "bssid"]

namespace Packet_

def values (p : Packet_) : List JString :=
  [p.datarate, p.antenna, p.channel, p.power, p.ssid, p.src, p.dst, p.bssid]

def named (p : Packet_) : List (String × JString) := memberNames.zip p.values

def members (p : Packet_) : List (JString × Value) :=
  p.named.map fun m => (javaString m.1, .str m.2)

def toValue (p : Packet_) : Value := .obj p.members

theorem mem_members {p : Packet_} {m : String × JString} (h : m ∈ p.named) :
    (javaString m.1, Value.str m.2) ∈ p.members := by
  rw [members]
  exact List.mem_map.mpr ⟨m, h, rfl⟩

theorem members_nodup (p : Packet_) : (p.members.map Prod.fst).Nodup := by
  have hnames : p.members.map Prod.fst = memberNames.map javaString := by
    simp [members, named, memberNames, values]
  rw [hnames]
  decide

theorem ofValue_eq_some_iff {v : Value} {p : Packet_} :
    ofValue v = some p ↔ ∀ m ∈ p.named, textMember m.1 v = some m.2 := by
  constructor
  · intro h
    obtain ⟨datarate, h₁, h⟩ := Option.bind_eq_some_iff.mp h
    obtain ⟨antenna, h₂, h⟩ := Option.bind_eq_some_iff.mp h
    obtain ⟨channel, h₃, h⟩ := Option.bind_eq_some_iff.mp h
    obtain ⟨power, h₄, h⟩ := Option.bind_eq_some_iff.mp h
    obtain ⟨ssid, h₅, h⟩ := Option.bind_eq_some_iff.mp h
    obtain ⟨src, h₆, h⟩ := Option.bind_eq_some_iff.mp h
    obtain ⟨dst, h₇, h⟩ := Option.bind_eq_some_iff.mp h
    obtain ⟨bssid, h₈, h⟩ := Option.bind_eq_some_iff.mp h
    obtain rfl := Option.some.inj h
    simp [named, memberNames, values, h₁, h₂, h₃, h₄, h₅, h₆, h₇, h₈]
  · intro h
    simp only [named, memberNames, values, List.zip_cons_cons, List.zip_nil_right,
      List.forall_mem_cons] at h
    obtain ⟨h₁, h₂, h₃, h₄, h₅, h₆, h₇, h₈, _⟩ := h
    simp only [ofValue, h₁, h₂, h₃, h₄, h₅, h₆, h₇, h₈, Option.bind_eq_bind, Option.bind_some,
      Option.pure_def]

end Packet_

theorem textMember_mem {name : String} {v : Value} {s : JString}
    (h : textMember name v = some s) : ∃ ms, v = .obj ms ∧ (javaString name, Value.str s) ∈ ms := by
  obtain ⟨x, hx, htext⟩ := Option.bind_eq_some_iff.mp h
  obtain ⟨ms, hv, hmem⟩ := member_mem hx
  cases x with
  | str s' =>
    obtain rfl := Option.some.inj htext
    exact ⟨ms, hv, hmem⟩
  | null => cases htext
  | bool b => cases htext
  | num t => cases htext
  | arr vs => cases htext
  | obj ms => cases htext

theorem Packet_.ofValue_toValue (p : Packet_) : ofValue p.toValue = some p := by
  refine ofValue_eq_some_iff.mpr fun m hm => ?_
  rw [textMember, toValue, member_of_mem p.members_nodup (mem_members hm)]
  rfl

theorem Packet_.ofValue_members {v : Value} {p : Packet_} (h : ofValue v = some p) :
    ∃ ms, v = .obj ms ∧ p.members ⊆ ms := by
  have hall := ofValue_eq_some_iff.mp h
  obtain ⟨ms, rfl, _⟩ := textMember_mem (hall ("datarate", p.datarate) List.mem_cons_self)
  refine ⟨ms, rfl, fun m hm => ?_⟩
  obtain ⟨n, hn, rfl⟩ := List.mem_map.mp hm
  obtain ⟨ms', heq, hmem⟩ := textMember_mem (hall n hn)
  cases heq
  exact hmem

def Packet.toValue (p : Packet) : Value := .obj [(javaString "packet", p.packet.toValue)]

def packetsValue (ps : List Packet) : Value :=
  .obj [(javaString "packets", .arr (ps.map Packet.toValue))]

theorem Packet.ofValue_toValue (p : Packet) : ofValue p.toValue = some p := by
  rw [ofValue, toValue, member_singleton, Option.bind_eq_bind, Option.bind_some,
    Packet_.ofValue_toValue]
  rfl

theorem mapM_ofValue_toValue (ps : List Packet) :
    (ps.map Packet.toValue).mapM Packet.ofValue = some ps := by
  induction ps with
  | nil => rfl
  | cons p ps ih => simp [Packet.ofValue_toValue, ih]

theorem NetworkCaptureData.ofValue_packetsValue (ps : List Packet) :
    ofValue (packetsValue ps) = some ⟨none, ps⟩ := by
  have hid : textMember "devId" (packetsValue ps) = none := by
    have hname : javaString "packets" ≠ javaString "devId" := by decide
    simp [textMember, packetsValue, Value.member, hname]
  rw [ofValue, hid, packetsValue, member_singleton, Option.bind_eq_bind, Option.bind_some]
  change ((ps.map Packet.toValue).mapM Packet.ofValue).bind _ = _
  rw [mapM_ofValue_toValue]
  rfl

theorem Packet_.size_toValue (p : Packet_) :
    p.toValue.size = 91 + (p.values.map JString.size).sum := by
  have hnames : memberNames.map (fun n => (javaString n).size) = [8, 7, 7, 5, 4, 3, 3, 5] := by
    decide
  simp only [memberNames, List.map_cons, List.map_nil, List.cons.injEq, and_true] at hnames
  obtain ⟨h₁, h₂, h₃, h₄, h₅, h₆, h₇, h₈⟩ := hnames
  simp only [toValue, members, named, memberNames, values, List.zip_cons_cons, List.zip_nil_right,
    List.map_cons, List.map_nil, Value.size, membersSize, List.sum_cons, List.sum_nil,
    h₁, h₂, h₃, h₄, h₅, h₆, h₇, h₈]
  omega

theorem Packet.size_toValue (p : Packet) :
    p.toValue.size = 102 + (p.packet.values.map JString.size).sum := by
  have hname : (javaString "packet").size = 6 := by decide
  rw [toValue, size_singleton, hname, p.packet.size_toValue]
  omega

theorem size_packetsValue (ps : List Packet) : (packetsValue ps).size =
    14 + (ps.map fun p => 102 + (p.packet.values.map JString.size).sum).sum +
      (ps.length - 1) := by
  have hname : (javaString "packets").size = 7 := by decide
  have hsum : elementsSize (ps.map Packet.toValue) =
      (ps.map fun p => 102 + (p.packet.values.map JString.size).sum).sum + ps.length := by
    induction ps with
    | nil => rfl
    | cons p ps ih =>
      rw [List.map_cons, elementsSize, ih, p.size_toValue, List.map_cons, List.sum_cons,
        List.length_cons]
      omega
  rw [packetsValue, size_singleton, hname]
  cases ps with
  | nil => rfl
  | cons p ps =>
    rw [List.map_cons] at hsum ⊢
    rw [Value.size, hsum, List.length_cons]
    omega

theorem Packet_.room {v : Value} {p : Packet_} (h : ofValue v = some p) :
    p.toValue.size ≤ v.size ∧ (v.Plain → ∀ s ∈ p.values, s.Plain) := by
  obtain ⟨ms, rfl, hsub⟩ := ofValue_members h
  have hne : p.members ≠ [] := by simp [members, named, memberNames, values]
  refine ⟨size_obj_le hne p.members_nodup hsub, fun hplain s hs => ?_⟩
  have hvalues : p.named.map Prod.snd = p.values := rfl
  rw [← hvalues] at hs
  obtain ⟨m, hm, rfl⟩ := List.mem_map.mp hs
  exact ((membersPlain_iff ms).mp hplain _ (hsub (mem_members hm))).2

theorem Packet.room {v : Value} {p : Packet} (h : ofValue v = some p) :
    p.toValue.size ≤ v.size ∧ (v.Plain → ∀ s ∈ p.packet.values, s.Plain) := by
  obtain ⟨x, hx, h⟩ := Option.bind_eq_some_iff.mp h
  obtain ⟨packet, hp, h⟩ := Option.bind_eq_some_iff.mp h
  obtain rfl := Option.some.inj h
  obtain ⟨ms, rfl, hmem⟩ := member_mem hx
  obtain ⟨hsize, hplain⟩ := Packet_.room hp
  have hobj := size_singleton_le hmem
  have hroom : (Packet.mk packet).toValue.size ≤
      (Value.obj [(javaString "packet", x)]).size := by
    rw [Packet.toValue, size_singleton, size_singleton]
    exact Nat.add_le_add_right (Nat.add_le_add_left hsize _) 5
  exact ⟨hroom.trans hobj, fun h => hplain ((membersPlain_iff ms).mp h _ hmem).2⟩

theorem mapM_room {vs : List Value} {ps : List Packet} (h : vs.mapM Packet.ofValue = some ps) :
    elementsSize (ps.map Packet.toValue) ≤ elementsSize vs ∧ ps.length = vs.length ∧
      (ElementsPlain vs → ∀ p ∈ ps, ∀ s ∈ p.packet.values, s.Plain) := by
  induction vs generalizing ps with
  | nil =>
    obtain rfl : ps = [] := (Option.some.inj h).symm
    exact ⟨Nat.le_refl _, rfl, fun _ p hp => absurd hp List.not_mem_nil⟩
  | cons v vs ih =>
    rw [List.mapM_cons] at h
    obtain ⟨p, hp, h⟩ := Option.bind_eq_some_iff.mp h
    obtain ⟨ps', hps, h⟩ := Option.bind_eq_some_iff.mp h
    obtain rfl := Option.some.inj h
    obtain ⟨hsize, hlen, hplain⟩ := ih hps
    obtain ⟨hsize', hplain'⟩ := Packet.room hp
    refine ⟨?_, congrArg (· + 1) hlen, fun h q hq => ?_⟩
    · simp only [List.map_cons, elementsSize]
      omega
    · cases List.mem_cons.mp hq with
      | inl hq => exact hq ▸ hplain' h.1
      | inr hq => exact hplain h.2 q hq

theorem NetworkCaptureData.room {v : Value} {data : NetworkCaptureData}
    (h : ofValue v = some data) : (packetsValue data.packets).size ≤ v.size ∧
      (v.Plain → ∀ p ∈ data.packets, ∀ s ∈ p.packet.values, s.Plain) := by
  obtain ⟨x, hx, h⟩ := Option.bind_eq_some_iff.mp h
  obtain ⟨vs, hvs, h⟩ := Option.bind_eq_some_iff.mp h
  obtain ⟨ps, hps, h⟩ := Option.bind_eq_some_iff.mp h
  obtain rfl := Option.some.inj h
  obtain ⟨ms, rfl, hmem⟩ := member_mem hx
  obtain ⟨hsize, hlen, hplain⟩ := mapM_room hps
  obtain rfl : x = .arr vs := by
    cases x with
    | arr vs' => exact congrArg Value.arr (Option.some.inj hvs)
    | null => cases hvs
    | bool b => cases hvs
    | num t => cases hvs
    | str s => cases hvs
    | obj ms => cases hvs
  have hobj := size_singleton_le hmem
  have harr : (Value.arr (ps.map Packet.toValue)).size ≤ (Value.arr vs).size := by
    cases vs with
    | nil =>
      obtain rfl := List.length_eq_zero_iff.mp hlen
      exact Nat.le_refl _
    | cons v vs =>
      cases ps with
      | nil => cases hlen
      | cons p ps => exact Nat.add_le_add_left hsize 1
  have hroom : (packetsValue ps).size ≤ (Value.obj [(javaString "packets", .arr vs)]).size := by
    rw [packetsValue, size_singleton, size_singleton]
    omega
  exact ⟨hroom.trans hobj, fun h => hplain ((membersPlain_iff ms).mp h _ hmem).2⟩

end NetworkAnalyser.Client

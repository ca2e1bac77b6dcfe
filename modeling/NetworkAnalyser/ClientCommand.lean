import NetworkAnalyser.CaptureOutput
import NetworkAnalyser.CaptureStatistics

/-! The loop of `main`: one command a connection, and the text written back on it, which outlives
the connection it was made for. -/
namespace NetworkAnalyser.Server
open NetworkAnalyser.Exec NetworkAnalyser.CString NetworkAnalyser.Printf

abbrev bufsize : Nat := 1024

/- What is read overwrites the front of a buffer of zeros. -/
def clientCmdBuf (command : Bytes) : Bytes :=
  command ++ List.replicate (bufsize - command.length) 0

/-- A call of `process_client_command` ends the process, or it returns, or neither. -/
inductive CommandResult where
  | exited
  | hung
  | returned (g : Globals)

def processClientCommand (fuel : Nat) (signedChar : Bool) (cmdBuf : Bytes) (g : Globals)
    (ds : List Delivery) : CommandResult :=
  if strcmp cmdBuf (ascii "exit\r\n") = 0 then .exited
  else if strcmp cmdBuf (ascii "exit") = 0 then .exited
  else if strcmp cmdBuf (ascii "capture\r\n") = 0 then
    (captureCommand fuel signedChar g ds).elim .hung .returned
  else if strcmp cmdBuf (ascii "capture") = 0 then
    (captureCommand fuel signedChar g ds).elim .hung .returned
  else .returned g

/-- The bytes of the `write`. Without a NUL in the buffer, `strlen` runs out of it. -/
def sentText (g : Globals) : Option Bytes :=
  if 0 ∈ (List.range maxOutputBufferSize).map g.outputBuff then some (outputText g) else none

def Exits (cmdBuf : Bytes) : Prop :=
  strcmp cmdBuf (ascii "exit\r\n") = 0 ∨ strcmp cmdBuf (ascii "exit") = 0

def Captures (cmdBuf : Bytes) : Prop :=
  strcmp cmdBuf (ascii "capture\r\n") = 0 ∨ strcmp cmdBuf (ascii "capture") = 0

instance (cmdBuf : Bytes) : Decidable (Exits cmdBuf) := inferInstanceAs (Decidable (_ ∨ _))
instance (cmdBuf : Bytes) : Decidable (Captures cmdBuf) := inferInstanceAs (Decidable (_ ∨ _))

/-- A connection: the command read from it and the packets captured if the command asks for it. -/
structure Connection where
  command : Bytes
  packets : List Delivery
  short : command.length < bufsize
  stays : ¬ Exits (clientCmdBuf command)

def Connection.Captures (c : Connection) : Prop := Server.Captures (clientCmdBuf c.command)

instance (c : Connection) : Decidable c.Captures :=
  inferInstanceAs (Decidable (Server.Captures _))

section serve
variable (fuel : Nat) (signedChar : Bool)

/-- One pass of the loop: the globals after it and what was written back. -/
def serveClient (g : Globals) (c : Connection) : Option (Globals × Option Bytes) :=
  match processClientCommand fuel signedChar (clientCmdBuf c.command) g c.packets with
  | .returned g' => some (g', sentText g')
  | .exited => none
  | .hung => none

def serveAll (cs : List Connection) : Option Globals :=
  runOver (fun g c => (serveClient fuel signedChar g c).map Prod.fst) .initial cs

end serve

section step
variable {fuel : Nat} {signedChar : Bool} {g : Globals} {c : Connection}

theorem serveClient_capture (h : c.Captures) : serveClient fuel signedChar g c =
    (captureCommand fuel signedChar g c.packets).map fun g' => (g', sentText g') := by
  obtain ⟨hcrlf, hbare⟩ := not_or.mp c.stays
  have hrun : processClientCommand fuel signedChar (clientCmdBuf c.command) g c.packets =
      (captureCommand fuel signedChar g c.packets).elim .hung .returned := by
    rw [processClientCommand, if_neg hcrlf, if_neg hbare]
    rcases h with h | h
    · exact if_pos h
    · rw [if_pos h, ite_self]
  rw [serveClient, hrun]
  cases captureCommand fuel signedChar g c.packets <;> rfl

theorem serveClient_other (h : ¬ c.Captures) :
    serveClient fuel signedChar g c = some (g, sentText g) := by
  obtain ⟨hexit, hexit'⟩ := not_or.mp c.stays
  obtain ⟨hcapture, hcapture'⟩ := not_or.mp h
  rw [serveClient, processClientCommand, if_neg hexit, if_neg hexit', if_neg hcapture,
    if_neg hcapture']

theorem sentText_generateJson {w : World}
    (h : generateJson signedChar (World.start g) = (.done (), w)) : sentText w.globals =
      if (documentOf (storedTexts signedChar g)).length < maxOutputBufferSize then
        some (documentOf (storedTexts signedChar g)) else none := by
  have hsent := outputText_generateJson signedChar h
  obtain ⟨w', hw, hprinted⟩ := generateJson_apply signedChar (World.start g)
  obtain rfl : w = w' := (Prod.mk.inj (h.symm.trans hw)).2
  change Printed _ w (document signedChar (storedRecords g)) at hprinted
  rw [document_eq] at hprinted
  by_cases hfits : (documentOf (storedTexts signedChar g)).length < maxOutputBufferSize
  · have hnul : w.globals.outputBuff (documentOf (storedTexts signedChar g)).length = 0 := by
      have := hprinted.nul
      rwa [hprinted.ptr, Nat.zero_add] at this
    have hmem : 0 ∈ (List.range maxOutputBufferSize).map w.globals.outputBuff :=
      List.mem_map.mpr ⟨_, List.mem_range.mpr hfits, hnul⟩
    rw [sentText, if_pos hmem, if_pos hfits, hsent, List.take_of_length_le (Nat.le_of_lt hfits)]
  · have hmem : 0 ∉ (List.range maxOutputBufferSize).map w.globals.outputBuff := by
      intro hmem
      obtain ⟨i, hi, hzero⟩ := List.mem_map.mp hmem
      have hlt : i < (documentOf (storedTexts signedChar g)).length :=
        Nat.lt_of_lt_of_le (List.mem_range.mp hi) (Nat.not_lt.mp hfits)
      have htext := hprinted.text i hlt
      rw [Nat.zero_add, hzero] at htext
      exact nul_notMem_document signedChar g (htext ▸ List.getElem_mem hlt)
    rw [sentText, if_neg hmem, if_neg hfits]

theorem serveClient_captured (h : c.Captures) {u : Globals}
    (hu : capturePackets fuel g c.packets = some u) :
    ∃ g', serveClient fuel signedChar g c = some (g', sentText g') ∧ sentText g' =
      if (documentOf (storedTexts signedChar u)).length < maxOutputBufferSize then
        some (documentOf (storedTexts signedChar u)) else none := by
  obtain ⟨w, hw, _⟩ := generateJson_apply signedChar (World.start u)
  refine ⟨w.globals, ?_, sentText_generateJson hw⟩
  rw [serveClient_capture h, captureCommand, hu, Option.bind_some, hw]
  rfl

theorem sentText_initial : sentText .initial = some [] := by
  have hnul : (0 : UInt8) ∈ (List.range maxOutputBufferSize).map Globals.initial.outputBuff :=
    List.mem_map.mpr ⟨0, List.mem_range.mpr (by decide), rfl⟩
  have hrange : List.range maxOutputBufferSize =
      0 :: (List.range (maxOutputBufferSize - 1)).map Nat.succ := List.range_succ_eq_map
  rw [sentText, if_pos hnul, outputText, hrange]
  rfl

end step

section run
variable (fuel : Nat) (signedChar : Bool)

def CapturedIn (cs : List Connection) (u : Globals) : Prop :=
  ∃ seen c g, seen ++ [c] <+: cs ∧ serveAll fuel signedChar seen = some g ∧ c.Captures ∧
    capturePackets fuel g c.packets = some u

/-- What a reply can carry of a capture: the document and the object of each packet. -/
def captureData (u : Globals) : List Bytes :=
  documentOf (storedTexts signedChar u) :: (storedTexts signedChar u).map PacketTexts.object

/-- A capture is answered with its own document, another command with nothing of an earlier
connection's capture. -/
structure RepliesOwn (cs : List Connection) : Prop where
  capture : ∀ seen c g u, seen ++ [c] <+: cs → serveAll fuel signedChar seen = some g →
    c.Captures → capturePackets fuel g c.packets = some u →
    ∃ g', serveClient fuel signedChar g c =
      some (g', some (documentOf (storedTexts signedChar u)))
  other : ∀ seen c g g' reply, seen ++ [c] <+: cs → serveAll fuel signedChar seen = some g →
    ¬ c.Captures → serveClient fuel signedChar g c = some (g', some reply) →
    ∀ u, CapturedIn fuel signedChar seen u → ∀ data ∈ captureData signedChar u, ¬ data <:+: reply

/-- Every document fits into the buffer, and no other command comes after a capture. -/
structure CapturesLast (cs : List Connection) : Prop where
  fits : ∀ u, CapturedIn fuel signedChar cs u → OutputFits signedChar u
  last : ∀ seen c g, seen ++ [c] <+: cs → serveAll fuel signedChar seen = some g →
    ¬ c.Captures → ∀ b ∈ seen, ¬ b.Captures

/-- The buffer is untouched, or it holds the text of a capture made. -/
def Buffered (seen : List Connection) (g : Globals) : Prop :=
  ((∀ c ∈ seen, ¬ c.Captures) ∧ g = .initial) ∨
    ∃ u, CapturedIn fuel signedChar seen u ∧ sentText g =
      if (documentOf (storedTexts signedChar u)).length < maxOutputBufferSize then
        some (documentOf (storedTexts signedChar u)) else none

variable {fuel : Nat} {signedChar : Bool}

theorem CapturedIn.mono {seen cs : List Connection} {u : Globals}
    (h : CapturedIn fuel signedChar seen u) (hp : seen <+: cs) : CapturedIn fuel signedChar cs u := by
  obtain ⟨s, c, g, hs, hrest⟩ := h
  exact ⟨s, c, g, hs.trans hp, hrest⟩

theorem CapturedIn.exists_capture {seen : List Connection} {u : Globals}
    (h : CapturedIn fuel signedChar seen u) : ∃ c ∈ seen, c.Captures := by
  obtain ⟨s, c, g, hp, _, hc, _⟩ := h
  exact ⟨c, hp.subset (by simp), hc⟩

theorem serveAll_buffered {cs : List Connection} {g : Globals}
    (h : serveAll fuel signedChar cs = some g) : Buffered fuel signedChar cs g := by
  refine runOver_history (Buffered fuel signedChar)
    (Or.inl ⟨fun c hc => absurd hc List.not_mem_nil, rfl⟩) ?_ h
  intro seen c u v _ hu hbuffered hstep
  by_cases hc : c.Captures
  · obtain ⟨w, hw⟩ : ∃ w, capturePackets fuel u c.packets = some w := by
      rw [serveClient_capture hc] at hstep
      cases hcapture : capturePackets fuel u c.packets with
      | none => simp [captureCommand, hcapture] at hstep
      | some w => exact ⟨w, rfl⟩
    obtain ⟨g', hserve, hsent⟩ := @serveClient_captured fuel signedChar u c hc w hw
    rw [hserve] at hstep
    obtain rfl := Option.some.inj hstep
    exact Or.inr ⟨w, ⟨seen, c, u, List.prefix_refl _, hu, hc, hw⟩, hsent⟩
  · rw [serveClient_other hc] at hstep
    obtain rfl := Option.some.inj hstep
    rcases hbuffered with ⟨hnone, hg⟩ | ⟨w, hw, hsent⟩
    · refine Or.inl ⟨fun b hb => ?_, hg⟩
      cases List.mem_append.mp hb with
      | inl hb => exact hnone b hb
      | inr hb => exact List.mem_singleton.mp hb ▸ hc
    · exact Or.inr ⟨w, hw.mono (List.prefix_append seen [c]), hsent⟩

theorem serveClient_before_capture {seen : List Connection} {g : Globals} {c : Connection}
    (h : serveAll fuel signedChar seen = some g) (hnone : ∀ b ∈ seen, ¬ b.Captures)
    (hc : ¬ c.Captures) : serveClient fuel signedChar g c = some (g, some []) := by
  rcases serveAll_buffered h with ⟨_, rfl⟩ | ⟨u, hu, _⟩
  · rw [serveClient_other hc, sentText_initial]
  · obtain ⟨b, hb, hcapture⟩ := hu.exists_capture
    exact absurd hcapture (hnone b hb)

theorem CapturesLast.repliesOwn {cs : List Connection} (h : CapturesLast fuel signedChar cs) :
    RepliesOwn fuel signedChar cs where
  capture seen c g u hp hg hc hu := by
    have hfits := h.fits u ⟨seen, c, g, hp, hg, hc, hu⟩
    obtain ⟨g', hserve, hsent⟩ := @serveClient_captured fuel signedChar g c hc u hu
    rw [hsent, if_pos ((outputFits_iff_length signedChar u).mp hfits)] at hserve
    exact ⟨g', hserve⟩
  other seen c g g' reply hp hg hc _ u hu := by
    obtain ⟨b, hb, hcapture⟩ := hu.exists_capture
    exact absurd hcapture (h.last seen c g hp hg hc b hb)

theorem RepliesOwn.capturesLast {cs : List Connection} (h : RepliesOwn fuel signedChar cs) :
    CapturesLast fuel signedChar cs := by
  have hfits : ∀ u, CapturedIn fuel signedChar cs u → OutputFits signedChar u := by
    rintro u ⟨seen, c, g, hp, hg, hc, hu⟩
    obtain ⟨g', hreply⟩ := h.capture seen c g u hp hg hc hu
    obtain ⟨g'', hserve, hsent⟩ := @serveClient_captured fuel signedChar g c hc u hu
    have htext := (Prod.mk.inj (Option.some.inj (hserve.symm.trans hreply))).2
    refine (outputFits_iff_length signedChar u).mpr ?_
    by_contra hlong
    rw [hsent, if_neg hlong] at htext
    cases htext
  refine ⟨hfits, fun seen c g hp hg hc b hb hcapture => ?_⟩
  -- the last capture's document is still in the buffer
  rcases serveAll_buffered hg with ⟨hnone, _⟩ | ⟨u, hu, hsent⟩
  · exact hnone b hb hcapture
  · have hlong := hfits u (hu.mono ((List.prefix_append seen [c]).trans hp))
    rw [if_pos ((outputFits_iff_length signedChar u).mp hlong)] at hsent
    have hserve := @serveClient_other fuel signedChar g c hc
    rw [hsent] at hserve
    exact h.other seen c g g _ hp hg hc hserve u hu _ List.mem_cons_self (List.infix_refl _)

end run

/-- Each connection gets its own reply exactly when every document fits into the buffer and no
other command comes after a capture. -/
theorem replies_own_iff (fuel : Nat) (signedChar : Bool) (cs : List Connection) :
    RepliesOwn fuel signedChar cs ↔ CapturesLast fuel signedChar cs :=
  ⟨RepliesOwn.capturesLast, CapturesLast.repliesOwn⟩

def captureHome : Connection := ⟨ascii "capture", [.of homeBeacon], by decide, by decide⟩

def statusQuery : Connection := ⟨ascii "status", [], by decide, by decide⟩

theorem captureHome_then_statusQuery_stale :
    ¬ RepliesOwn 15 false [captureHome, statusQuery] := by
  intro h
  have hssid : ∀ d ∈ [Delivery.of homeBeacon], d.packet.frameType = beaconType →
      d.packet.tagLen < maxSsidCharCount := by decide
  obtain ⟨u, hu⟩ : ∃ u, capturePackets 15 .initial captureHome.packets = some u := by
    refine capture_returns hssid fun seen d g hp _ => ?_
    obtain ⟨rfl, rfl⟩ := eq_of_snoc_prefix_singleton hp
    exact (typicalHeader_full homeBeacon (by decide)).returns g
  have hcapture : captureHome.Captures := by decide
  have hstatus : ¬ statusQuery.Captures := by decide
  obtain ⟨g, hserve, _⟩ := @serveClient_captured 15 false .initial captureHome hcapture u hu
  have hg : serveAll 15 false [captureHome] = some g := by
    rw [serveAll, runOver, hserve]
    rfl
  exact h.capturesLast.last [captureHome] statusQuery g (List.prefix_refl _) hg hstatus
    captureHome List.mem_cons_self hcapture

end NetworkAnalyser.Server

import NetworkAnalyser.ClientCommand
import NetworkAnalyser.DocumentBound
import NetworkAnalyser.SocketLifetime

/-! One exchange of the capture task with the capture server, from the command that is sent to
the data that is posted, however the network cuts the two texts. -/
namespace NetworkAnalyser.Client
open NetworkAnalyser.JavaExec

/-- The argument of `postCapturedDataToServer`, if the run comes that far. -/
def Attempt.handed (a : Attempt) (s : Exchange) : Option NetworkCaptureData :=
  (getNetworkInfoFromClient a.mapper a.calls s).1.toOption

section attempt
variable {s : Exchange}

theorem getNetworkInfo_result (mapper : Mapper) (c : Calls) (s : Exchange) :
    (∃ e, e.isRuntime = true ∧ (getNetworkInfoFromClient mapper c s).1 = .error e) ∨
      ∃ data, (exchange mapper c { s with data := none }).2.data = some data ∧
        (getNetworkInfoFromClient mapper c s).1 = .ok (data.setDevId rpiId) := by
  obtain ⟨r, t, hrun, hends⟩ := getNetworkInfo_cases mapper c s
  rw [hrun]
  cases hends with
  | inl hthrown =>
    obtain ⟨e, he, hthrown⟩ := hthrown
    exact .inl ⟨e, he, congrArg Prod.fst hthrown⟩
  | inr hcaught =>
    rw [hcaught]
    cases t.data with
    | none => exact .inl ⟨.nullPointer, rfl, rfl⟩
    | some data => exact .inr ⟨data, rfl, rfl⟩

theorem captureAndSend_result (a : Attempt) (s : Exchange) :
    (a.handed s = none ∧ ∃ e, e.isRuntime = true ∧ (captureAndSendNetworkData a s).1 = .error e) ∨
      ((a.handed s).isSome ∧ (captureAndSendNetworkData a s).1 = a.posted) := by
  rw [Attempt.handed, captureAndSendNetworkData]
  have hresult := getNetworkInfo_result a.mapper a.calls s
  cases h : getNetworkInfoFromClient a.mapper a.calls s with
  | mk r t =>
    rw [h] at hresult
    cases r with
    | ok data =>
      rw [bind_ok h]
      exact .inr ⟨rfl, by cases a.posted <;> rfl⟩
    | error e =>
      rw [bind_error h]
      cases hresult with
      | inl hthrown =>
        obtain ⟨e', he', heq⟩ := hthrown
        obtain rfl := Except.error.inj heq
        exact .inl ⟨rfl, e, he', rfl⟩
      | inr hok =>
        obtain ⟨data, _, hok⟩ := hok
        cases hok

/-- A run of the task ends without an exception, so that the thread of its timer lives on, unless
there is data to post and the post throws what is no runtime exception. -/
theorem Attempt.run_returns_iff (a : Attempt) (s : Exchange) : (a.run s).1 = .ok () ↔
    a.handed s = none ∨ ∀ e, a.posted = .error e → e.isRuntime = true := by
  have hresult := captureAndSend_result a s
  rw [Attempt.run]
  cases hrun : captureAndSendNetworkData a s with
  | mk r t =>
    rw [hrun] at hresult
    cases hresult with
    | inl hthrown =>
      obtain ⟨hnone, e, hruntime, rfl⟩ := hthrown
      rw [tryCatch_error hrun, if_pos hruntime]
      exact iff_of_true rfl (.inl hnone)
    | inr hposted =>
      obtain ⟨hsome, rfl⟩ := hposted
      have hdata : ¬ a.handed s = none := fun hnone => by
        rw [hnone] at hsome
        cases hsome
      rw [or_iff_right hdata]
      cases hpost : a.posted with
      | ok u =>
        rw [hpost] at hrun
        rw [tryCatch_ok hrun]
        exact iff_of_true rfl fun e he => by cases he
      | error e =>
        rw [hpost] at hrun
        rw [tryCatch_error hrun]
        by_cases hruntime : e.isRuntime = true
        · rw [if_pos hruntime]
          exact iff_of_true rfl fun e' he' => Except.error.inj he' ▸ hruntime
        · rw [if_neg hruntime]
          exact iff_of_false (fun hok => by cases hok) fun hall => hruntime (hall e rfl)

theorem getNetworkInfo_silent (mapper : Mapper) (s : Exchange) :
    (getNetworkInfoFromClient mapper (.delivering []) s).1 = .error .nullPointer := rfl

theorem handed_refused {a : Attempt} {e : JavaException} (h : a.calls.connect = some e) :
    a.handed s = none := by
  have hopen : exchange a.mapper a.calls { s with data := none } =
      (.error e, { s with data := none }) := by
    have hcall : openSocket a.calls { s with data := none } =
        (.error e, { s with data := none }) := by
      rw [openSocket, h]
      rfl
    rw [exchange, bind_error hcall]
  rw [Attempt.handed]
  cases getNetworkInfo_result a.mapper a.calls s with
  | inl hthrown =>
    obtain ⟨e', _, heq⟩ := hthrown
    rw [heq]
    rfl
  | inr hok =>
    obtain ⟨data, hdata, _⟩ := hok
    rw [hopen] at hdata
    cases hdata

end attempt

end NetworkAnalyser.Client

namespace NetworkAnalyser.Server
open NetworkAnalyser.CString NetworkAnalyser.Printf NetworkAnalyser.FirstOffers

theorem cstr_clientCmdBuf (command : Bytes) : cstr (clientCmdBuf command) = cstr command := by
  rw [clientCmdBuf]
  cases bufsize - command.length with
  | zero => rw [List.replicate_zero, List.append_nil]
  | succ n => exact cstr_append_nul command _

theorem exits_iff (command : Bytes) : Exits (clientCmdBuf command) ↔
    cstr command = ascii "exit\r\n" ∨ cstr command = ascii "exit" := by
  have hcrlf : cstr (ascii "exit\r\n") = ascii "exit\r\n" := by decide
  have hbare : cstr (ascii "exit") = ascii "exit" := by decide
  rw [Exits, strcmp_eq_zero, strcmp_eq_zero, cstr_clientCmdBuf, hcrlf, hbare]

theorem captures_iff (command : Bytes) : Captures (clientCmdBuf command) ↔
    cstr command = ascii "capture\r\n" ∨ cstr command = ascii "capture" := by
  have hcrlf : cstr (ascii "capture\r\n") = ascii "capture\r\n" := by decide
  have hbare : cstr (ascii "capture") = ascii "capture" := by decide
  rw [Captures, strcmp_eq_zero, strcmp_eq_zero, cstr_clientCmdBuf, hcrlf, hbare]

theorem capture_part {command : Bytes} (h : command <+: ascii "capture") :
    ¬ Exits (clientCmdBuf command) ∧
      (Captures (clientCmdBuf command) ↔ command = ascii "capture") := by
  have hparts : ∀ k ≤ 7, (cstr ((ascii "capture").take k) ≠ ascii "exit\r\n" ∧
      cstr ((ascii "capture").take k) ≠ ascii "exit") ∧
      ((cstr ((ascii "capture").take k) = ascii "capture\r\n" ∨
        cstr ((ascii "capture").take k) = ascii "capture") ↔
          (ascii "capture").take k = ascii "capture") := by decide
  obtain ⟨⟨hcrlf, hbare⟩, hcaptures⟩ := hparts command.length h.length_le
  rw [← List.prefix_iff_eq_take.mp h] at hcrlf hbare hcaptures
  rw [exits_iff, captures_iff]
  exact ⟨not_or.mpr ⟨hcrlf, hbare⟩, hcaptures⟩

theorem Beacon.report_plain {signedChar : Bool} {b : Beacon} (h : PlainText (cstr b.ssid)) :
    ∀ v ∈ (b.report signedChar).values, PlainText v := by
  have haddr : ∀ a : Address, PlainText (etherText a.octets) := fun a =>
    (addressText_etherText a.octets).plainText
  intro v hv
  simp only [PacketTexts.values, PacketTexts.members, report, List.map_cons, List.map_nil,
    List.mem_cons, List.not_mem_nil, or_false] at hv
  rcases hv with rfl | rfl | rfl | rfl | rfl | rfl | rfl | rfl
  · exact plainText_percentI _
  · exact plainText_percentI _
  · exact plainText_percentI _
  · exact plainText_percentI _
  · exact h
  · exact haddr b.src
  · exact haddr b.dst
  · exact haddr b.bss

theorem homeStation_plain : PlainText (cstr homeStation.ssid) := by
  have hname : cstr homeStation.ssid = [104, 111, 109, 101] := by decide
  rw [hname]
  refine plainText_of_ascii fun c hc => ?_
  simp only [List.mem_cons, List.not_mem_nil, or_false] at hc
  rcases hc with rfl | rfl | rfl | rfl <;> decide

end NetworkAnalyser.Server

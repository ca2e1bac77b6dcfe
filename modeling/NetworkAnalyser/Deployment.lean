import NetworkAnalyser.CaptureExchange
import NetworkAnalyser.ScheduleChanges

/-! The Raspberry Pi as a whole: the synchronisation job with its timers, the capture task that
a timer starts, and the capture server, to which others connect as well. Each event runs to its
end before the next one begins. -/
namespace NetworkAnalyser.Deployment
open NetworkAnalyser.Exec NetworkAnalyser.CString NetworkAnalyser.Printf NetworkAnalyser.JavaTimer
open NetworkAnalyser.Server NetworkAnalyser.Client

/-- A connection that hands over what is written in pieces, one a read. -/
structure Transport where
  pieces : Bytes → List Bytes
  whole : ∀ b, (pieces b).flatten = b
  nonempty : ∀ b, ∀ c ∈ pieces b, c ≠ []

def Transport.first (t : Transport) (b : Bytes) : Bytes := (t.pieces b).headD []

theorem Transport.first_part (t : Transport) (b : Bytes) : t.first b <+: b := by
  have hwhole := t.whole b
  rw [first]
  cases hpieces : t.pieces b with
  | nil => exact List.nil_prefix
  | cons c cs =>
    rw [hpieces, List.flatten_cons] at hwhole
    exact ⟨cs.flatten, hwhole⟩

theorem Transport.pieces_nil (t : Transport) : t.pieces [] = [] := by
  cases hpieces : t.pieces [] with
  | nil => rfl
  | cons c cs =>
    have hc := t.nonempty [] c (hpieces ▸ List.mem_cons_self)
    have hwhole := t.whole []
    rw [hpieces, List.flatten_cons, List.append_eq_nil_iff] at hwhole
    exact absurd hwhole.1 hc

/-- A run of the capture task: both directions of its connection, the beacons received if the
server captures for it, and how the post ends. -/
structure TaskRun where
  request : Transport
  receptions : List Reception
  reply : Transport
  posted : Except JavaException Unit

def TaskRun.command (r : TaskRun) : Bytes := r.request.first clientCaptureCommand

def TaskRun.connection (r : TaskRun) : Connection where
  command := r.command
  packets := r.receptions.map Reception.delivery
  short := Nat.lt_of_le_of_lt (r.request.first_part clientCaptureCommand).length_le (by decide)
  stays := (capture_part (r.request.first_part clientCaptureCommand)).1

def TaskRun.attempt (mapper : Mapper) (r : TaskRun) (reply : Bytes) : Attempt where
  mapper := mapper
  calls := .delivering (r.reply.pieces reply)
  posted := r.posted

/-- Somebody else's connection, with any command but `exit`. -/
structure Visit where
  command : Bytes
  receptions : List Reception
  short : command.length < bufsize
  stays : ¬ Exits (clientCmdBuf command)

def Visit.connection (v : Visit) : Connection :=
  ⟨v.command, v.receptions.map Reception.delivery, v.short, v.stays⟩

/- `refused` is a run of the task whose connection fails. -/
inductive Event where
  | sync (x : Start)
  | task (timer : Nat) (r : TaskRun)
  | refused (timer : Nat) (e : JavaException)
  | visit (v : Visit)

structure State where
  job : ConfigSyncJob
  service : Exchange
  server : Globals
  /-- What has been handed to `postCapturedDataToServer`. -/
  posted : List NetworkCaptureData

def State.initial : State := ⟨.initial, .initial, .initial, []⟩

/-- The timer has a task to run. -/
def fires (job : ConfigSyncJob) (timer : Nat) : Bool :=
  job.timers[timer]?.any fun t => !t.cancelled && !t.tasks.isEmpty

section step
variable (mapper : Mapper) (signedChar : Bool)

def serve (g : Globals) (c : Connection) : Option (Globals × Bytes) :=
  (serveClient 15 signedChar g c).bind fun p => p.2.map fun reply => (p.1, reply)

def State.attempted (s : State) (a : Attempt) : State :=
  { s with service := (a.run s.service).2, posted := s.posted ++ (a.handed s.service).toList }

def refusedAttempt (e : JavaException) : Attempt where
  mapper := mapper
  calls := { Calls.delivering [] with connect := some e }
  posted := .ok ()

/- There is no step where a timer does not fire, or where the server leaves its buffer. -/
def step (s : State) : Event → Option State
  | .sync x => some { s with job := (start x s.job).2 }
  | .task timer r =>
    if fires s.job timer then
      (serve signedChar s.server r.connection).map fun p =>
        { s with server := p.1 }.attempted (r.attempt mapper p.2)
    else none
  | .refused timer e =>
    if fires s.job timer then some (s.attempted (refusedAttempt mapper e)) else none
  | .visit v => (serve signedChar s.server v.connection).map fun p => { s with server := p.1 }

def run (es : List Event) : Option State := runOver (step mapper signedChar) .initial es

end step

/-- The surveys captured last and posted so far. -/
structure Ledger where
  heard : Option (List Beacon)
  posts : List (List Beacon)

def surveyOf (rs : List Reception) : List Beacon := survey (rs.map (·.beacon))

/-- The survey made by the event, if a command to capture reaches the server. -/
def Event.captured : Event → Option (List Beacon)
  | .sync _ => none
  | .task _ r => if r.command = clientCaptureCommand then some (surveyOf r.receptions) else none
  | .refused _ _ => none
  | .visit v => if v.connection.Captures then some (surveyOf v.receptions) else none

section ledger
variable (signedChar : Bool)

def documentFor (bs : List Beacon) : Bytes := documentOf (bs.map (Beacon.report signedChar))

def TaskRun.Arrives (r : TaskRun) (bs : List Beacon) : Prop :=
  r.reply.pieces (documentFor signedChar bs) = [documentFor signedChar bs]

instance arrivesDecidable (r : TaskRun) (bs : List Beacon) : Decidable (r.Arrives signedChar bs) :=
  inferInstanceAs (Decidable (_ = _))

def Event.post (heard : Option (List Beacon)) : Event → Option (List Beacon)
  | .sync _ => none
  | .task _ r => heard.filter fun bs => r.Arrives signedChar bs
  | .refused _ _ => none
  | .visit _ => none

def Ledger.step (l : Ledger) (e : Event) : Ledger where
  heard := e.captured.or l.heard
  posts := l.posts ++ (e.post signedChar (e.captured.or l.heard)).toList

def ledger (es : List Event) : Ledger := es.foldl (Ledger.step signedChar) ⟨none, []⟩

def dataFor (bs : List Beacon) : NetworkCaptureData :=
  ⟨some rpiId, bs.map fun b => (b.report signedChar).packet⟩

end ledger

section connection
variable {signedChar : Bool} {g g' : Globals} {c : Connection} {rs : List Reception} {reply : Bytes}

theorem serve_spec (hc : c.packets = rs.map Reception.delivery)
    (h : serve signedChar g c = some (g', reply)) : sentText g' = some reply ∧
      (c.Captures → reply = documentFor signedChar (surveyOf rs) ∧
        reply.length < maxOutputBufferSize) ∧ (¬ c.Captures → g' = g) := by
  obtain ⟨⟨u, sent⟩, hserve, hreply⟩ := Option.bind_eq_some_iff.mp h
  obtain ⟨reply', rfl, heq⟩ := Option.map_eq_some_iff.mp hreply
  obtain ⟨rfl, rfl⟩ := Prod.mk.inj heq
  by_cases hcaptures : c.Captures
  · obtain ⟨v, hv, htexts⟩ := capture_texts g rs
    obtain ⟨u', hu', hsent⟩ := serveClient_captured hcaptures (hc ▸ hv)
    obtain ⟨rfl, hu⟩ := Prod.mk.inj (Option.some.inj (hserve.symm.trans hu'))
    rw [htexts] at hsent
    by_cases hfits : (documentFor signedChar (surveyOf rs)).length < maxOutputBufferSize
    · have hdoc := hsent.trans (if_pos hfits)
      obtain rfl := Option.some.inj (hu.trans hdoc)
      exact ⟨hu.symm, fun _ => ⟨rfl, hfits⟩, fun hother => absurd hcaptures hother⟩
    · exact absurd (hu.trans (hsent.trans (if_neg hfits))) (by simp)
  · rw [serveClient_other hcaptures] at hserve
    obtain ⟨rfl, hu⟩ := Prod.mk.inj (Option.some.inj hserve)
    exact ⟨hu, fun hself => absurd hself hcaptures, fun _ => rfl⟩

theorem documentFor_fits (hfew : (surveyOf rs).length ≤ alwaysFitting signedChar) :
    (documentFor signedChar (surveyOf rs)).length < maxOutputBufferSize := by
  obtain ⟨u, hu, htexts⟩ := capture_texts .initial rs
  have hcount := storedTexts_length signedChar u
  rw [htexts, List.length_map] at hcount
  have hfits := outputFits_of_few ⟨15, _, .initial, .start, hu⟩ (hcount ▸ hfew)
  rw [outputFits_iff_length, htexts] at hfits
  exact hfits

theorem serve_total {sent : Bytes} (hc : c.packets = rs.map Reception.delivery)
    (hsent : sentText g = some sent)
    (hfew : c.Captures → (surveyOf rs).length ≤ alwaysFitting signedChar) :
    ∃ p, serve signedChar g c = some p := by
  by_cases hcaptures : c.Captures
  · obtain ⟨v, hv, htexts⟩ := capture_texts g rs
    obtain ⟨u, hu, hdoc⟩ := @serveClient_captured 15 signedChar g c hcaptures v (hc ▸ hv)
    rw [htexts] at hdoc
    have hdoc := hdoc.trans (if_pos (documentFor_fits (hfew hcaptures)))
    exact ⟨(u, _), by rw [serve, hu, Option.bind_some, hdoc]; rfl⟩
  · exact ⟨(g, sent), by rw [serve, serveClient_other hcaptures, Option.bind_some, hsent]; rfl⟩

end connection

def Event.receptions : Event → List Reception
  | .sync _ => []
  | .task _ r => r.receptions
  | .refused _ _ => []
  | .visit v => v.receptions

def Event.Plain (e : Event) : Prop := ∀ r ∈ e.receptions, PlainText (cstr r.beacon.ssid)

structure Follows (signedChar : Bool) (s : State) (l : Ledger) : Prop where
  sent : sentText s.server = some (l.heard.elim [] (documentFor signedChar))
  fits : ∀ bs ∈ l.heard, (documentFor signedChar bs).length < maxOutputBufferSize
  plain : ∀ bs ∈ l.heard, ∀ b ∈ bs, PlainText (cstr b.ssid)
  posted : s.posted = l.posts.map (dataFor signedChar)

section follows
variable {bind : Json.Value → Option NetworkCaptureData} {mapper : Mapper} {signedChar : Bool}
  {s s' : State} {l : Ledger} {e : Event}

theorem Event.Plain.captured (h : e.Plain) :
    ∀ bs ∈ e.captured, ∀ b ∈ bs, PlainText (cstr b.ssid) := by
  have hsurvey : ∀ rs : List Reception, (∀ r ∈ rs, PlainText (cstr r.beacon.ssid)) →
      ∀ b ∈ surveyOf rs, PlainText (cstr b.ssid) := by
    intro rs hrs b hb
    obtain ⟨r, hr, rfl⟩ := List.mem_map.mp ((survey_sublist _).subset hb)
    exact hrs r hr
  intro bs hbs
  cases e with
  | sync x => cases hbs
  | task timer r =>
    obtain ⟨_, rfl⟩ : _ ∧ surveyOf r.receptions = bs := by simpa [captured] using hbs
    exact hsurvey _ h
  | refused timer e => cases hbs
  | visit v =>
    obtain ⟨_, rfl⟩ : _ ∧ surveyOf v.receptions = bs := by simpa [captured] using hbs
    exact hsurvey _ h

theorem Follows.serve (h : Follows signedChar s l) {c : Connection} {rs : List Reception}
    {g : Globals} {reply : Bytes} (hc : c.packets = rs.map Reception.delivery)
    (hserve : Deployment.serve signedChar s.server c = some (g, reply))
    {heard : Option (List Beacon)}
    (hheard : heard = if c.Captures then some (surveyOf rs) else none)
    (hplain : ∀ bs ∈ heard, ∀ b ∈ bs, PlainText (cstr b.ssid)) :
    sentText g = some reply ∧ reply = (heard.or l.heard).elim [] (documentFor signedChar) ∧
      (∀ bs ∈ heard.or l.heard, (documentFor signedChar bs).length < maxOutputBufferSize) ∧
      ∀ bs ∈ heard.or l.heard, ∀ b ∈ bs, PlainText (cstr b.ssid) := by
  obtain ⟨hsent, hcapture, hother⟩ := serve_spec hc hserve
  by_cases hcaptures : c.Captures
  · rw [if_pos hcaptures] at hheard
    subst hheard
    obtain ⟨rfl, hfits⟩ := hcapture hcaptures
    refine ⟨hsent, rfl, fun bs hbs => ?_, hplain⟩
    obtain rfl := Option.some.inj hbs
    exact hfits
  · rw [if_neg hcaptures] at hheard
    subst hheard
    rw [hother hcaptures, h.sent] at hsent
    rw [hother hcaptures, h.sent]
    exact ⟨hsent, (Option.some.inj hsent).symm, h.fits, h.plain⟩

theorem handed_reply (hreads : ReadsCaptures bind mapper) (r : TaskRun)
    {heard : Option (List Beacon)}
    (hfits : ∀ bs ∈ heard, (documentFor signedChar bs).length < maxOutputBufferSize)
    (hplain : ∀ bs ∈ heard, ∀ b ∈ bs, PlainText (cstr b.ssid)) (x : Exchange) :
    (r.attempt mapper (heard.elim [] (documentFor signedChar))).handed x =
      (heard.filter fun bs => r.Arrives signedChar bs).map (dataFor signedChar) := by
  cases heard with
  | none =>
    have hnone := getNetworkInfo_silent mapper x
    rw [← r.reply.pieces_nil] at hnone
    exact congrArg Except.toOption hnone
  | some bs =>
    have hreports : ∀ t ∈ bs.map (Beacon.report signedChar), ∀ v ∈ t.values, PlainText v := by
      intro t ht
      obtain ⟨b, hb, rfl⟩ := List.mem_map.mp ht
      exact Beacon.report_plain (hplain bs rfl b hb)
    have hresult := getNetworkInfo_document hreads hreports (Nat.le_of_lt (hfits bs rfl))
      (r.reply.nonempty (documentFor signedChar bs)) (r.reply.whole _) x
    by_cases harrives : r.Arrives signedChar bs
    · rw [Option.filter_some_pos (by simpa using harrives), Option.map_some, dataFor]
      refine (congrArg Except.toOption (hresult.trans (if_pos harrives))).trans ?_
      rw [List.map_map]
      rfl
    · rw [Option.filter_some_neg (by simpa using harrives)]
      exact congrArg Except.toOption (hresult.trans (if_neg harrives))

theorem Follows.step (hreads : ReadsCaptures bind mapper) (h : Follows signedChar s l)
    (hplain : e.Plain) (hs : Deployment.step mapper signedChar s e = some s') :
    Follows signedChar s' (l.step signedChar e) := by
  cases e with
  | sync x =>
    obtain rfl := Option.some.inj hs
    exact ⟨h.sent, h.fits, h.plain, by simp [Ledger.step, Event.post, h.posted]⟩
  | task timer r =>
    rw [Deployment.step] at hs
    split at hs
    · obtain ⟨⟨g, reply⟩, hserve, rfl⟩ := Option.map_eq_some_iff.mp hs
      have hcaptures : r.connection.Captures ↔ r.command = clientCaptureCommand :=
        (capture_part (r.request.first_part clientCaptureCommand)).2
      have hheard : (Event.task timer r).captured =
          if r.connection.Captures then some (surveyOf r.receptions) else none := by
        simp only [Event.captured, hcaptures]
      obtain ⟨hsent, rfl, hfits, hplains⟩ := h.serve rfl hserve hheard hplain.captured
      refine ⟨hsent, hfits, hplains, ?_⟩
      change s.posted ++ _ = _
      rw [handed_reply hreads r hfits hplains, h.posted, Option.toList_map, Ledger.step,
        List.map_append, Event.post]
    · cases hs
  | refused timer e =>
    rw [Deployment.step] at hs
    split at hs
    · obtain rfl := Option.some.inj hs
      refine ⟨h.sent, h.fits, h.plain, ?_⟩
      change s.posted ++ _ = _
      rw [@handed_refused _ (refusedAttempt mapper e) e rfl, h.posted]
      simp [Ledger.step, Event.post]
    · cases hs
  | visit v =>
    obtain ⟨⟨g, reply⟩, hserve, rfl⟩ := Option.map_eq_some_iff.mp hs
    have hheard : (Event.visit v).captured =
        if v.connection.Captures then some (surveyOf v.receptions) else none := rfl
    obtain ⟨hsent, rfl, hfits, hplains⟩ := h.serve rfl hserve hheard hplain.captured
    exact ⟨hsent, hfits, hplains, by simp [Ledger.step, Event.post, h.posted]⟩

end follows

end NetworkAnalyser.Deployment

import NetworkAnalyser.Deployment

/-! What is posted over whole runs of the Raspberry Pi, in any order of events, and which timers
start the runs of the task. -/
namespace NetworkAnalyser.Deployment
open NetworkAnalyser.Exec NetworkAnalyser.CString NetworkAnalyser.JavaTimer
open NetworkAnalyser.Json NetworkAnalyser.Server NetworkAnalyser.Client

section posts
variable {bind : Value → Option NetworkCaptureData} {mapper : Mapper} {signedChar : Bool}
  {es : List Event}

theorem ledger_concat (es : List Event) (e : Event) :
    ledger signedChar (es ++ [e]) = (ledger signedChar es).step signedChar e := by
  rw [ledger, List.foldl_append]
  rfl

theorem follows_initial : Follows signedChar .initial (ledger signedChar []) where
  sent := sentText_initial
  fits _ h := by cases h
  plain _ h := by cases h
  posted := rfl

theorem run_follows (hreads : ReadsCaptures bind mapper) (hplain : ∀ e ∈ es, e.Plain) {s : State}
    (h : run mapper signedChar es = some s) : Follows signedChar s (ledger signedChar es) := by
  refine runOver_history (fun seen s => Follows signedChar s (ledger signedChar seen))
    follows_initial ?_ h
  intro seen e u v hp _ hu hs
  rw [ledger_concat]
  exact hu.step hreads (hplain e (hp.subset (by simp))) hs

def latest (es : List Event) : Option (List Beacon) := (es.filterMap Event.captured).getLast?

theorem latest_concat (es : List Event) (e : Event) :
    latest (es ++ [e]) = e.captured.or (latest es) := by
  rw [latest, List.filterMap_append, latest]
  cases hcaptured : e.captured with
  | none => simp [hcaptured]
  | some bs => simp [hcaptured]

theorem ledger_heard (es : List Event) : (ledger signedChar es).heard = latest es := by
  induction es using List.reverseRecOn with
  | nil => rfl
  | append_singleton es e ih =>
    rw [ledger_concat, latest_concat, ← ih]
    rfl

end posts

def Event.start : Event → Option Start
  | .sync x => some x
  | .task _ _ => none
  | .refused _ _ => none
  | .visit _ => none

def syncs (es : List Event) : List Start := es.filterMap Event.start

def Event.timer : Event → Option Nat
  | .sync _ => none
  | .task timer _ => some timer
  | .refused timer _ => some timer
  | .visit _ => none

section job
variable {mapper : Mapper} {signedChar : Bool} {es : List Event}

theorem step_job {s s' : State} {e : Event} (h : step mapper signedChar s e = some s') :
    s'.job = (syncs [e]).foldl (fun s x => (start x s).2) s.job := by
  cases e with
  | sync x =>
    obtain rfl := Option.some.inj h
    rfl
  | task timer r =>
    rw [step] at h
    split at h
    · obtain ⟨p, _, rfl⟩ := Option.map_eq_some_iff.mp h
      rfl
    · cases h
  | refused timer e =>
    rw [step] at h
    split at h
    · obtain rfl := Option.some.inj h
      rfl
    · cases h
  | visit v =>
    obtain ⟨p, _, rfl⟩ := Option.map_eq_some_iff.mp h
    rfl

theorem run_job {s : State} (h : run mapper signedChar es = some s) : s.job = after (syncs es) := by
  refine runOver_history (fun seen s => s.job = after (syncs seen)) rfl ?_ h
  intro seen e u v _ _ hu hs
  rw [step_job hs, hu, syncs, syncs, syncs, List.filterMap_append, after, after, List.foldl_append]

end job

section orderly
variable (signedChar : Bool)

/-- Every task is started by a timer that fires, and no capture hears of too many networks or of
one whose name is not a plain text. -/
structure Orderly (es : List Event) : Prop where
  plain : ∀ e ∈ es, e.Plain
  few : ∀ e ∈ es, ∀ bs ∈ e.captured, bs.length ≤ alwaysFitting signedChar
  fires : ∀ pre e timer, pre ++ [e] <+: es → e.timer = some timer →
    fires (after (syncs pre)) timer

def Event.own : Event → Option (List Beacon)
  | .sync _ => none
  | .task _ r => some (surveyOf r.receptions)
  | .refused _ _ => none
  | .visit _ => none

variable {signedChar} {bind : Value → Option NetworkCaptureData} {mapper : Mapper} {es : List Event}

theorem Orderly.goes_through (hreads : ReadsCaptures bind mapper) (h : Orderly signedChar es) :
    ∃ s, run mapper signedChar es = some s := by
  refine runOver_total fun seen e u hp hu => ?_
  have hmem : ∀ e' ∈ seen ++ [e], e' ∈ es := fun _ he' => hp.subset he'
  have hfollows := run_follows hreads
    (fun e' he' => h.plain e' (hmem e' (List.mem_append_left _ he'))) hu
  have hfew := h.few e (hmem e (by simp))
  have hfires := h.fires seen e
  rw [← run_job hu] at hfires
  cases e with
  | sync x => exact ⟨_, rfl⟩
  | task timer r =>
    have hcaptures := (capture_part (r.request.first_part clientCaptureCommand)).2
    obtain ⟨p, hserve⟩ := @serve_total signedChar u.server r.connection r.receptions _ rfl
      hfollows.sent fun hc => hfew _ (if_pos (hcaptures.mp hc))
    exact ⟨_, by rw [step, if_pos (hfires timer hp rfl), hserve]; rfl⟩
  | refused timer e => exact ⟨_, by rw [step, if_pos (hfires timer hp rfl)]⟩
  | visit v =>
    obtain ⟨p, hserve⟩ := @serve_total signedChar u.server v.connection v.receptions _ rfl
      hfollows.sent fun hc => hfew _ (if_pos hc)
    exact ⟨_, by rw [step, hserve]; rfl⟩

end orderly

def directTransport : Transport where
  pieces b := if b = [] then [] else [b]
  whole b := by by_cases h : b = [] <;> simp [h]
  nonempty b c hc := by
    by_cases h : b = []
    · simp [h] at hc
    · obtain rfl : c = b := by simpa [h] using hc
      exact h

def homeTask : TaskRun where
  request := directTransport
  receptions := [.of homeStation]
  reply := directTransport
  posted := .ok ()

def homeStart : Start := ⟨.ok (some ⟨3000, 60000, 50⟩), false, 1500000000000⟩

def homeEvents : List Event := [.sync homeStart, .task 0 homeTask]

theorem homeEvents_orderly (signedChar : Bool) : Orderly signedChar homeEvents where
  plain e he r hr := by
    obtain rfl | rfl : e = .sync homeStart ∨ e = .task 0 homeTask := by simpa [homeEvents] using he
    · cases hr
    · obtain rfl : r = .of homeStation := List.mem_singleton.mp hr
      exact homeStation_plain
  few e he bs hbs := by
    obtain rfl | rfl : e = .sync homeStart ∨ e = .task 0 homeTask := by simpa [homeEvents] using he
    · cases hbs
    · obtain ⟨_, rfl⟩ : _ ∧ surveyOf homeTask.receptions = bs := by
        simpa [Event.captured] using hbs
      exact (survey_sublist _).length_le.trans (by cases signedChar <;> decide)
  fires pre e timer hp htimer := by
    cases pre with
    | nil =>
      obtain rfl : e = .sync homeStart := by simpa [homeEvents] using hp
      cases htimer
    | cons e₀ rest =>
      obtain ⟨rfl, hrest⟩ := List.cons_prefix_cons.mp hp
      obtain rfl : rest = [] := by
        cases rest with
        | nil => rfl
        | cons e₁ rest => simpa using hrest.length_le
      obtain rfl : e = .task 0 homeTask := by simpa using hrest
      obtain rfl := Option.some.inj htimer
      decide

theorem homeEvents_goes_through : ∃ s, run captureMapper false homeEvents = some s :=
  (homeEvents_orderly false).goes_through captureMapper_readsCaptures

section posted
variable {bind : Value → Option NetworkCaptureData} {mapper : Mapper} {signedChar : Bool}
  {es : List Event}

/-- A run of the task posts the survey of the last capture up to its own, if the reply comes in
one piece; before the first capture nothing is posted. -/
theorem task_posts_latest (hreads : ReadsCaptures bind mapper) {pre : List Event} {timer : Nat}
    {r : TaskRun} {s : State} (hplain : ∀ e ∈ pre ++ [.task timer r], e.Plain)
    (h : run mapper signedChar (pre ++ [.task timer r]) = some s) :
    ∃ t, run mapper signedChar pre = some t ∧ s.posted = t.posted ++
      (((latest (pre ++ [.task timer r])).filter fun bs => r.Arrives signedChar bs).map
        (dataFor signedChar)).toList := by
  obtain ⟨t, ht, _⟩ := runOver_snoc h
  have hbefore := run_follows hreads (fun e he => hplain e (List.mem_append_left _ he)) ht
  have hafter := run_follows hreads hplain h
  refine ⟨t, ht, ?_⟩
  rw [hafter.posted, hbefore.posted, ledger_concat, Ledger.step, List.map_append, ← ledger_heard,
    ledger_concat, Option.toList_map]
  rfl

theorem homeEvents_latest : ∃ s t, run captureMapper false homeEvents = some s ∧
    run captureMapper false [.sync homeStart] = some t ∧ s.posted = t.posted ++
      (((latest homeEvents).filter fun bs => homeTask.Arrives false bs).map
        (dataFor false)).toList := by
  obtain ⟨s, hs⟩ := homeEvents_goes_through
  obtain ⟨t, ht, hposted⟩ :=
    @task_posts_latest _ _ false captureMapper_readsCaptures [.sync homeStart] 0 homeTask s
      (homeEvents_orderly false).plain hs
  exact ⟨s, t, hs, ht, hposted⟩

theorem ledger_captured (es : List Event) :
    (∀ bs ∈ (ledger signedChar es).heard, ∃ e ∈ es, bs ∈ e.captured) ∧
      ∀ bs ∈ (ledger signedChar es).posts, ∃ e ∈ es, bs ∈ e.captured := by
  induction es using List.reverseRecOn with
  | nil => exact ⟨fun _ h => (by cases h), fun _ h => (by cases h)⟩
  | append_singleton es e ih =>
    obtain ⟨hheard, hposts⟩ := ih
    have hearlier : ∀ bs : List Beacon, (∃ e ∈ es, bs ∈ e.captured) →
        ∃ e' ∈ es ++ [e], bs ∈ e'.captured :=
      fun bs ⟨e', he', hbs⟩ => ⟨e', List.mem_append_left _ he', hbs⟩
    have hlatest : ∀ bs ∈ e.captured.or (ledger signedChar es).heard,
        ∃ e' ∈ es ++ [e], bs ∈ e'.captured := by
      intro bs hbs
      cases Option.or_eq_some_iff.mp hbs with
      | inl hcaptured => exact ⟨e, by simp, hcaptured⟩
      | inr hbefore => exact hearlier bs (hheard bs hbefore.2)
    rw [ledger_concat]
    refine ⟨hlatest, fun bs hbs => ?_⟩
    cases List.mem_append.mp hbs with
    | inl hbefore => exact hearlier bs (hposts bs hbefore)
    | inr hpost =>
      have hbs := Option.mem_toList.mp hpost
      cases e with
      | sync x => cases hbs
      | task timer r => exact hlatest bs (Option.mem_filter_iff.mp hbs).1
      | refused timer e => cases hbs
      | visit v => cases hbs

/-- In every run nothing is posted but surveys of captures of the run, whole. -/
theorem posts_are_surveys (hreads : ReadsCaptures bind mapper) {s : State}
    (hplain : ∀ e ∈ es, e.Plain) (h : run mapper signedChar es = some s) :
    ∀ data ∈ s.posted, ∃ e ∈ es, ∃ bs ∈ e.captured, data = dataFor signedChar bs := by
  intro data hdata
  rw [(run_follows hreads hplain h).posted] at hdata
  obtain ⟨bs, hbs, rfl⟩ := List.mem_map.mp hdata
  obtain ⟨e, he, hcaptured⟩ := (ledger_captured es).2 bs hbs
  exact ⟨e, he, bs, hcaptured, rfl⟩

theorem homeEvents_surveys : ∃ s, run captureMapper false homeEvents = some s ∧
    ∀ data ∈ s.posted, ∃ e ∈ homeEvents, ∃ bs ∈ e.captured, data = dataFor false bs := by
  obtain ⟨s, hs⟩ := homeEvents_goes_through
  exact ⟨s, hs, posts_are_surveys captureMapper_readsCaptures (homeEvents_orderly false).plain hs⟩

end posted

section timers
variable {mapper : Mapper} {signedChar : Bool} {es : List Event}

theorem after_scheduled (xs : List Start) (t : Timer) (h : (after xs).held = some t) :
    t.tasks = [] ∨ ∃ c, (after xs).curRpiConfig = some c ∧ t = ⟨false, [c.schedule]⟩ := by
  induction xs using List.reverseRecOn with
  | nil => cases h
  | append_singleton xs x ih =>
    have hran := ran_after xs x
    revert h hran
    generalize after (xs ++ [x]) = s'
    generalize (synchronize x (after xs)).1 = result
    intro h hran
    cases hran with
    | failed => exact ih h
    | same => exact ih h
    | scheduled hf hcur haccepted =>
      rw [renewed_held] at h
      obtain rfl := Option.some.inj h
      exact Or.inr ⟨_, rfl, rfl⟩
    | refused hf hcur hrefused =>
      rw [renewed_held] at h
      obtain rfl := Option.some.inj h
      exact Or.inl rfl

theorem fires_current {xs : List Start} {timer : Nat} (h : fires (after xs) timer) :
    ∃ c, lastFetched xs = some c ∧ (after xs).timer = some timer ∧
      (after xs).timers[timer]? = some ⟨false, [c.schedule]⟩ := by
  obtain ⟨t, ht, hcancelled, htasks⟩ : ∃ t, (after xs).timers[timer]? = some t ∧
      t.cancelled = false ∧ t.tasks ≠ [] := by
    rw [fires] at h
    cases ht : (after xs).timers[timer]? with
    | none =>
      rw [ht] at h
      cases h
    | some t =>
      rw [ht] at h
      exact ⟨t, rfl, by simpa using h⟩
  have htimer : (after xs).timer = some timer := by
    by_contra hother
    rw [after_othersCancelled xs timer t ht hother] at hcancelled
    cases hcancelled
  have hheld : (after xs).held = some t := by
    rw [ConfigSyncJob.held, htimer]
    exact ht
  cases after_scheduled xs t hheld with
  | inl hnone => exact absurd hnone htasks
  | inr hcurrent =>
    obtain ⟨c, hc, rfl⟩ := hcurrent
    exact ⟨c, (after_curRpiConfig xs).symm.trans hc, htimer, ht⟩

/-- No run of the task is started but by the timer in the field of the job, on the schedule of
the configuration fetched last. -/
theorem tasks_by_current_config {s : State} (h : run mapper signedChar es = some s) :
    ∀ pre e timer, pre ++ [e] <+: es → e.timer = some timer → ∃ t c,
      run mapper signedChar pre = some t ∧ lastFetched (syncs pre) = some c ∧
      t.job.timer = some timer ∧ t.job.timers[timer]? = some ⟨false, [c.schedule]⟩ := by
  intro pre e timer hp htimer
  obtain ⟨u, hu⟩ := runOver_prefix hp h
  obtain ⟨t, ht, hstep⟩ := runOver_snoc hu
  have hjob := run_job ht
  have hfires : fires t.job timer = true := by
    cases e with
    | sync x => cases htimer
    | task timer' r =>
      obtain rfl := Option.some.inj htimer
      by_contra hidle
      rw [step, if_neg hidle] at hstep
      cases hstep
    | refused timer' e =>
      obtain rfl := Option.some.inj htimer
      by_contra hidle
      rw [step, if_neg hidle] at hstep
      cases hstep
    | visit v => cases htimer
  rw [hjob] at hfires
  obtain ⟨c, hc, hheld, hschedule⟩ := fires_current hfires
  exact ⟨t, c, ht, hc, hjob ▸ hheld, hjob ▸ hschedule⟩

theorem homeEvents_current : ∃ t c, run captureMapper false [.sync homeStart] = some t ∧
    lastFetched (syncs [.sync homeStart]) = some c ∧
    t.job.timer = some 0 ∧ t.job.timers[0]? = some ⟨false, [c.schedule]⟩ := by
  obtain ⟨s, hs⟩ := homeEvents_goes_through
  exact tasks_by_current_config hs [.sync homeStart] (.task 0 homeTask) 0 (List.prefix_refl _) rfl

end timers

theorem not_fires_of_held {xs : List Start} {t : Timer} (hheld : (after xs).held = some t)
    (htasks : t.tasks = []) (timer : Nat) : fires (after xs) timer = false := by
  by_contra hfires
  obtain ⟨c, _, htimer, ht⟩ := fires_current (Bool.not_eq_false _ ▸ hfires)
  rw [ConfigSyncJob.held, htimer, Option.bind_some, ht] at hheld
  obtain rfl := Option.some.inj hheld
  cases htasks

theorem after_same {xs ys : List Start} {c : RpiConfig} (hc : lastFetched xs = some c)
    (hys : ∀ y ∈ ys, ∀ c', y.fetched = some c' → c' = c) : after (xs ++ ys) = after xs := by
  induction ys using List.reverseRecOn with
  | nil => rw [List.append_nil]
  | append_singleton ys y ih =>
    have hbefore := ih fun z hz => hys z (List.mem_append_left _ hz)
    have hidle : attempted y (after (xs ++ ys)) = none := by
      cases hgoes : attempted y (after (xs ++ ys)) with
      | none => rfl
      | some c' =>
        obtain ⟨hf, hcur⟩ := attempted_eq_some_iff.mp hgoes
        rw [hbefore, after_curRpiConfig, hc, hys y (by simp) c' hf] at hcur
        exact absurd rfl hcur
    rw [← List.append_assoc, (ran_after (xs ++ ys) y).idle hidle, hbefore]

/-- A configuration the timer refuses ends the captures until the configuration changes, however
often it is fetched. -/
theorem silent_until_change {xs ys : List Start} {x : Start} {c : RpiConfig}
    (hfetched : x.fetched = some c) (hchanged : lastFetched xs ≠ some c)
    (hrefused : ¬ c.schedule.Accepted x.now)
    (hys : ∀ y ∈ ys, ∀ c', y.fetched = some c' → c' = c) (timer : Nat) :
    fires (after (xs ++ [x] ++ ys)) timer = false := by
  have hlast : lastFetched (xs ++ [x]) = some c := by
    rw [lastFetched_concat, hfetched]
    rfl
  have hheld : (after (xs ++ [x])).held = some .fresh := by
    have hran := ran_after xs x
    have hcur : (after xs).curRpiConfig ≠ some c := after_curRpiConfig xs ▸ hchanged
    revert hran
    generalize after (xs ++ [x]) = s'
    generalize (synchronize x (after xs)).1 = result
    intro hran
    cases hran with
    | failed h => rw [hfetched] at h; cases h
    | same h hsame => exact absurd (hsame.trans (h.symm.trans hfetched)) hcur
    | scheduled h _ haccepted =>
      obtain rfl := Option.some.inj (h.symm.trans hfetched)
      exact absurd haccepted hrefused
    | refused => exact renewed_held _ _ _
  rw [after_same hlast hys]
  exact not_fires_of_held hheld rfl timer

theorem zeroConfig_silent :
    fires (after [⟨.ok (some ⟨0, 0, 0⟩), false, 1500000000000⟩]) 0 = false :=
  @silent_until_change [] [] _ ⟨0, 0, 0⟩ rfl (by decide) (by decide) (fun _ hy => by cases hy) 0

end NetworkAnalyser.Deployment

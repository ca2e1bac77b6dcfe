import Mathlib.Tactic.IntervalCases
import NetworkAnalyser.Exec
import NetworkAnalyser.ScheduleChanges

/-! Runs of the job that overlap: the scheduler starts a run while others sleep between their two
parts, and each part is one step. -/
namespace NetworkAnalyser.Client
open NetworkAnalyser.Exec NetworkAnalyser.JavaExec NetworkAnalyser.JavaTimer

/-- The job, and the configurations of the runs that are asleep. -/
structure Overlap where
  job : ConfigSyncJob
  asleep : List RpiConfig
  deriving DecidableEq

def Overlap.initial : Overlap := ⟨.initial, []⟩

/-- A run from its fetch to the sleep, or what a sleeping run does when it wakes. -/
inductive Block where
  | first (response : Except JavaException (Option RpiConfig))
  | second (i : Nat) (now : Int64)

def Overlap.step (s : Overlap) : Block → Option Overlap
  | .first response =>
    match fetchAndCancel response s.job with
    | (.ok (some c), job) => some ⟨job, s.asleep ++ [c]⟩
    | (.ok none, job) => some ⟨job, s.asleep⟩
    | (.error _, job) => some ⟨job, s.asleep⟩
  | .second i now =>
    (s.asleep[i]?).map fun c => ⟨(reschedule now c s.job).2, s.asleep.eraseIdx i⟩

def runBlocks (bs : List Block) : Option Overlap := runOver Overlap.step .initial bs

def Running (t : Timer) : Prop := t.cancelled = false ∧ t.tasks ≠ []

/-- At most the timer of the field runs a task. -/
def OneLive (s : ConfigSyncJob) : Prop :=
  ∀ i t, s.timers[i]? = some t → Running t → s.timer = some i

theorem step_alone {x : Start} {s : ConfigSyncJob} (h : attempted x s ≠ none) :
    runOver Overlap.step ⟨s, []⟩ [.first x.response, .second 0 x.now] =
      some ⟨(synchronize x s).2, []⟩ := by
  obtain ⟨c, hc⟩ := Option.ne_none_iff_exists'.mp h
  cases hfetch : fetchAndCancel x.response s with
  | mk r t =>
    have hr : r = .ok (some c) := by
      rw [attempted, hfetch] at hc
      cases r with
      | error e => cases hc
      | ok o => exact congrArg Except.ok hc
    subst hr
    have hrun : synchronize x s = reschedule x.now c t := by
      rw [synchronize_eq, bind_ok hfetch]
      exact bind_ok (waitForCleanup_apply x.interrupted) _
    simp [runOver, Overlap.step, hfetch, hrun]

inductive Stepped (s : Overlap) : Block → Overlap → Prop
  | failed {response : Except JavaException (Option RpiConfig)}
      (h : ∀ c, response ≠ .ok (some c)) : Stepped s (.first response) s
  | same {c : RpiConfig} (hcur : s.job.curRpiConfig = some c) :
      Stepped s (.first (.ok (some c))) s
  | changed {c : RpiConfig} (hcur : s.job.curRpiConfig ≠ some c) :
      Stepped s (.first (.ok (some c)))
        ⟨{ s.job with curRpiConfig := some c, timers := s.job.cancelled }, s.asleep ++ [c]⟩
  | woken {i : Nat} {now : Int64} {c : RpiConfig} (hasleep : s.asleep[i]? = some c) :
      Stepped s (.second i now)
        ⟨{ s.job with
            timer := some s.job.timers.length
            timers := s.job.timers ++ [⟨false, [c.schedule]⟩] }, s.asleep.eraseIdx i⟩

theorem stepped {s s' : Overlap} {b : Block}
    (hvalid : ∀ i now c, b = .second i now → s.asleep[i]? = some c → c.schedule.Accepted now)
    (h : s.step b = some s') : Stepped s b s' := by
  cases b with
  | first response =>
    have hfetched := fetched response s.job
    rw [Overlap.step] at h
    generalize fetchAndCancel response s.job = result at h hfetched
    obtain ⟨r, job⟩ := result
    cases hfetched with
    | failed hnone =>
      obtain rfl := Option.some.inj h
      exact .failed hnone
    | same heq hcur =>
      obtain rfl := Option.some.inj h
      exact heq ▸ .same hcur
    | changed heq hcur =>
      obtain rfl := Option.some.inj h
      exact heq ▸ .changed hcur
  | second i now =>
    obtain ⟨c, hc, rfl⟩ := Option.map_eq_some_iff.mp h
    rw [reschedule_accepted (hvalid i now c rfl hc)]
    exact .woken hc

/-- The configuration fetched last, and whether a timer has been created since a fetch last
changed it. -/
structure History where
  last : Option RpiConfig
  armed : Bool

def History.step (h : History) : Block → History
  | .first (.ok (some c)) => if h.last = some c then h else ⟨some c, false⟩
  | .first (.ok none) => h
  | .first (.error _) => h
  | .second _ _ => { h with armed := true }

def history (bs : List Block) : History := bs.foldl History.step ⟨none, false⟩

theorem history_concat (bs : List Block) (b : Block) :
    history (bs ++ [b]) = (history bs).step b := by
  rw [history, List.foldl_append]
  rfl

/-- What the history says of the state. -/
structure Tracks (h : History) (s : ConfigSyncJob) : Prop where
  last : s.curRpiConfig = h.last
  armed : h.armed = true → ∃ t, s.held = some t ∧ Running t
  idle : h.armed = false → ∀ t, s.held = some t → ¬ Running t

theorem not_running_cancel (t : Timer) : ¬ Running t.cancel := fun h => Bool.noConfusion h.1

theorem held_cancelled (s : ConfigSyncJob) :
    (s.timer.bind fun j => s.cancelled[j]?) = s.held.map Timer.cancel := by
  rw [ConfigSyncJob.held, ConfigSyncJob.cancelled]
  cases s.timer with
  | none => rfl
  | some j => simp [List.getElem?_modify]

theorem Tracks.step {h : History} {s s' : Overlap} {b : Block} (ht : Tracks h s.job)
    (hs : Stepped s b s') : Tracks (h.step b) s'.job := by
  cases hs with
  | @failed response hnone =>
    have hkeep : h.step (.first response) = h := by
      cases response with
      | error e => rfl
      | ok rpiConfig =>
        cases rpiConfig with
        | none => rfl
        | some c => exact absurd rfl (hnone c)
    rw [hkeep]
    exact ht
  | same hcur =>
    rw [History.step, if_pos (ht.last.symm.trans hcur)]
    exact ht
  | @changed c hcur =>
    have hlast : h.last ≠ some c := fun hl => hcur (ht.last.trans hl)
    rw [History.step, if_neg hlast]
    refine ⟨rfl, fun harmed => Bool.noConfusion harmed, fun _ t hheld => ?_⟩
    have hmap : s.job.held.map Timer.cancel = some t := (held_cancelled s.job).symm.trans hheld
    obtain ⟨u, _, rfl⟩ := Option.map_eq_some_iff.mp hmap
    exact not_running_cancel u
  | @woken i now c _ =>
    refine ⟨ht.last, fun _ => ⟨⟨false, [c.schedule]⟩, ?_, rfl, List.cons_ne_nil _ _⟩,
      fun hidle => Bool.noConfusion hidle⟩
    simp [ConfigSyncJob.held]

section live
variable {s s' : Overlap} {b : Block}

theorem OneLive.cancelled {s : ConfigSyncJob} (h : OneLive s) :
    ∀ t ∈ s.cancelled, ¬ Running t := by
  intro t ht hrun
  obtain ⟨u, rfl⟩ | ⟨i, hi, hne⟩ := mem_cancelled ht
  · exact not_running_cancel u hrun
  · exact hne (h i t hi hrun)

theorem OneLive.first {response : Except JavaException (Option RpiConfig)} (h : OneLive s.job)
    (hs : Stepped s (.first response) s') : OneLive s'.job := by
  cases hs with
  | failed => exact h
  | same => exact h
  | changed => exact fun i t ht hrun => absurd hrun (h.cancelled t (List.mem_of_getElem? ht))

theorem oneLive_second_iff {i : Nat} {now : Int64} {hist : History} (h : OneLive s.job)
    (ht : Tracks hist s.job) (hs : Stepped s (.second i now) s') :
    OneLive s'.job ↔ hist.armed = false := by
  cases hs with
  | @woken _ _ c hasleep =>
    constructor
    · intro hlive
      by_contra harmed
      obtain ⟨t, hheld, hrun⟩ := ht.armed (by simpa using harmed)
      obtain ⟨j, _, hj⟩ := Option.bind_eq_some_iff.mp hheld
      have hlt : j < s.job.timers.length := (List.getElem?_eq_some_iff.mp hj).1
      have hfield := hlive j t ((List.getElem?_append_left hlt).trans hj) hrun
      exact Nat.ne_of_gt hlt (Option.some.inj hfield)
    · intro hidle j t hj hrun
      by_cases hlt : j < s.job.timers.length
      · have hold : s.job.timers[j]? = some t := (List.getElem?_append_left hlt).symm.trans hj
        have hheld : s.job.held = some t := by
          rw [ConfigSyncJob.held, h j t hold hrun]
          exact hold
        exact absurd hrun (ht.idle hidle t hheld)
      · have hle : j < (s.job.timers ++ [(⟨false, [c.schedule]⟩ : Timer)]).length :=
          (List.getElem?_eq_some_iff.mp hj).1
        rw [List.length_append, List.length_singleton] at hle
        exact congrArg some (by omega)

end live

def AllAccepted (bs : List Block) : Prop :=
  ∀ pre i now s c, pre ++ [.second i now] <+: bs → runBlocks pre = some s →
    s.asleep[i]? = some c → c.schedule.Accepted now

def AlwaysOneLive (bs : List Block) : Prop :=
  ∀ pre s, pre <+: bs → runBlocks pre = some s → OneLive s.job

section run
variable {bs : List Block}

theorem AllAccepted.stepped (hvalid : AllAccepted bs) {pre : List Block} {b : Block}
    {s s' : Overlap} (hp : pre ++ [b] <+: bs) (hs : runBlocks pre = some s)
    (hstep : s.step b = some s') : Stepped s b s' :=
  Client.stepped (fun i now c hb hc => hvalid pre i now s c (hb ▸ hp) hs hc) hstep

theorem runBlocks_tracks (hvalid : AllAccepted bs) {pre : List Block} {s : Overlap}
    (hp : pre <+: bs) (hs : runBlocks pre = some s) : Tracks (history pre) s.job := by
  refine runOver_history (fun seen s => Tracks (history seen) s.job)
    ⟨rfl, fun h => Bool.noConfusion h, fun _ t ht => by cases ht⟩ ?_ hs
  intro seen b u v hseen hu htracks hstep
  rw [history_concat]
  exact htracks.step (hvalid.stepped (hseen.trans hp) hu hstep)

/-- One live timer at most, in every state of every interleaving, exactly when each new timer is
made after a fetch that changed the configuration since the timer before it was. -/
theorem one_live_timer_iff (bs : List Block) (hvalid : AllAccepted bs) : AlwaysOneLive bs ↔
    ∀ pre i now s, pre ++ [.second i now] <+: bs → runBlocks (pre ++ [.second i now]) = some s →
      (history pre).armed = false := by
  constructor
  · intro h pre i now s' hp hs'
    obtain ⟨s, hs, hstep⟩ := runOver_snoc hs'
    have hpre : pre <+: bs := (List.prefix_append pre _).trans hp
    exact (oneLive_second_iff (h pre s hpre hs) (runBlocks_tracks hvalid hpre hs)
      (hvalid.stepped hp hs hstep)).mp (h _ s' hp hs')
  · intro h pre s hp hs
    refine runOver_history (fun seen s => OneLive s.job) ?_ ?_ hs
    · intro i t ht
      simp [Overlap.initial, ConfigSyncJob.initial] at ht
    · intro seen b u v hseen hu hlive hstep
      have hstepped := hvalid.stepped (hseen.trans hp) hu hstep
      cases b with
      | first response => exact hlive.first hstepped
      | second i now =>
        have hv : runBlocks (seen ++ [.second i now]) = some v := by
          rw [runBlocks, runOver_append, hu]
          simpa [runOver] using hstep
        exact (oneLive_second_iff hlive (runBlocks_tracks hvalid
          ((List.prefix_append seen _).trans (hseen.trans hp)) hu) hstepped).mpr
          (h seen i now v (hseen.trans hp) hv)

end run

theorem step_asleep {s s' : Overlap} {b : Block} (h : s.step b = some s') :
    ∀ c ∈ s'.asleep, c ∈ s.asleep ∨ b = .first (.ok (some c)) := by
  cases b with
  | first response =>
    have hfetched := fetched response s.job
    rw [Overlap.step] at h
    generalize fetchAndCancel response s.job = result at h hfetched
    obtain ⟨r, job⟩ := result
    cases hfetched with
    | failed =>
      obtain rfl := Option.some.inj h
      exact fun c hc => Or.inl hc
    | same =>
      obtain rfl := Option.some.inj h
      exact fun c hc => Or.inl hc
    | changed heq =>
      obtain rfl := Option.some.inj h
      intro c hc
      cases List.mem_append.mp hc with
      | inl hc => exact Or.inl hc
      | inr hc =>
        rw [List.mem_singleton.mp hc]
        exact Or.inr (congrArg Block.first heq)
  | second i now =>
    obtain ⟨_, _, rfl⟩ := Option.map_eq_some_iff.mp h
    exact fun c hc => Or.inl (List.mem_of_mem_eraseIdx hc)

theorem asleep_fetched {bs : List Block} {s : Overlap} (h : runBlocks bs = some s) :
    ∀ c ∈ s.asleep, .first (.ok (some c)) ∈ bs := by
  refine runOver_history (fun seen s => ∀ c ∈ s.asleep, Block.first (.ok (some c)) ∈ seen)
    (fun c hc => absurd hc List.not_mem_nil) ?_ h
  intro seen b u v _ _ hu hstep c hc
  cases step_asleep hstep c hc with
  | inl hc => exact List.mem_append_left _ (hu c hc)
  | inr hb => exact List.mem_append_right _ (List.mem_singleton.mpr hb.symm)

def Block.fetched : Block → Option RpiConfig
  | .first (.ok rpiConfig) => rpiConfig
  | .first (.error _) => none
  | .second _ _ => none

def Block.wakesAt : Block → Option Int64
  | .first _ => none
  | .second _ now => some now

theorem allAccepted_of_fetched {bs : List Block} (h : ∀ c ∈ bs.filterMap Block.fetched,
    ∀ now ∈ bs.filterMap Block.wakesAt, c.schedule.Accepted now) : AllAccepted bs := by
  intro pre i now s c hp hs hc
  have hpre : pre <+: bs := (List.prefix_append pre _).trans hp
  have hfetched : .first (.ok (some c)) ∈ bs :=
    hpre.subset (asleep_fetched hs c (List.mem_of_getElem? hc))
  have hwakes : .second i now ∈ bs := hp.subset (by simp)
  exact h c (List.mem_filterMap.mpr ⟨_, hfetched, rfl⟩) now (List.mem_filterMap.mpr ⟨_, hwakes, rfl⟩)

def soleRun : List Block :=
  [.first (.ok (some ⟨3000, 60000, 50⟩)), .second 0 1500000005000]

theorem soleRun_one_live_timer : AlwaysOneLive soleRun := by
  have hvalid : AllAccepted soleRun := by
    refine allAccepted_of_fetched fun c hc now hnow => ?_
    obtain rfl : c = ⟨3000, 60000, 50⟩ := List.mem_singleton.mp hc
    obtain rfl : now = 1500000005000 := List.mem_singleton.mp hnow
    decide
  refine (one_live_timer_iff soleRun hvalid).mpr fun pre i now s hp _ => ?_
  have hlen : pre.length ≤ 1 := by simpa [soleRun] using hp.length_le
  have htake := List.prefix_iff_eq_take.mp ((List.prefix_append pre _).trans hp)
  rw [htake]
  interval_cases pre.length <;> rfl

/-- The second run fetches another configuration while the first is asleep. -/
def twoChanges : List Block :=
  [.first (.ok (some ⟨3000, 60000, 50⟩)), .first (.ok (some ⟨3000, 30000, 50⟩)),
    .second 0 1500000005000, .second 0 1500000009000]

theorem twoChanges_two_live_timers : AllAccepted twoChanges ∧ ¬ AlwaysOneLive twoChanges := by
  constructor
  · have hfetched : twoChanges.filterMap Block.fetched =
        [⟨3000, 60000, 50⟩, ⟨3000, 30000, 50⟩] := rfl
    have hwakes : twoChanges.filterMap Block.wakesAt = [1500000005000, 1500000009000] := rfl
    refine allAccepted_of_fetched ?_
    simp only [hfetched, hwakes, List.mem_cons, List.not_mem_nil, or_false, forall_eq_or_imp,
      forall_eq]
    exact ⟨⟨by decide, by decide⟩, by decide, by decide⟩
  · intro h
    have hlive := h twoChanges _ (List.prefix_refl _) rfl 0 ⟨false, [⟨3000, 60000⟩]⟩ (by decide)
      ⟨rfl, List.cons_ne_nil _ _⟩
    exact absurd hlive (by decide)

end NetworkAnalyser.Client

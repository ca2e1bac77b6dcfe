import NetworkAnalyser.ConfigSyncJob

/-! The schedule of the capture task against the saved configuration, over runs of the job that
do not overlap. -/
namespace NetworkAnalyser.Client
open NetworkAnalyser.JavaExec NetworkAnalyser.JavaTimer

def ConfigSyncJob.held (s : ConfigSyncJob) : Option Timer := s.timer.bind fun t => s.timers[t]?

/-- The saved configuration is the one the capture task runs by. -/
def Live (s : ConfigSyncJob) : Prop :=
  ∀ c, s.curRpiConfig = some c → s.held = some ⟨false, [c.schedule]⟩

def Kept (s s' : ConfigSyncJob) : Prop :=
  s'.curRpiConfig = s.curRpiConfig ∧ s'.held = s.held

def after (xs : List Start) : ConfigSyncJob := xs.foldl (fun s x => (start x s).2) .initial

/-- After each run the schedule is that of the saved configuration, and a run that ends in the
`catch` block changes neither. -/
def Synchronized (xs : List Start) : Prop :=
  ∀ pre x, pre ++ [x] <+: xs → Live (after (pre ++ [x])) ∧
    ∀ e, (synchronize x (after pre)).1 = .error e → Kept (after pre) (after (pre ++ [x]))

def lastFetched (xs : List Start) : Option RpiConfig := (xs.filterMap Start.fetched).getLast?

theorem after_concat (xs : List Start) (x : Start) :
    after (xs ++ [x]) = (synchronize x (after xs)).2 := by
  rw [after, List.foldl_append]
  change (start x (after xs)).2 = _
  rw [start_apply]

theorem ran_after (xs : List Start) (x : Start) :
    Ran x (after xs) (synchronize x (after xs)).1 (after (xs ++ [x])) := by
  rw [after_concat]
  exact ran x (after xs)

theorem lastFetched_concat (xs : List Start) (x : Start) :
    lastFetched (xs ++ [x]) = x.fetched.or (lastFetched xs) := by
  rw [lastFetched, List.filterMap_append, List.getLast?_append]
  cases h : x.fetched with
  | none => simp [h, lastFetched]
  | some c => simp [h]

theorem Ran.curRpiConfig {x : Start} {s s' : ConfigSyncJob} {r : Except JavaException Unit}
    (h : Ran x s r s') : s'.curRpiConfig = x.fetched.or s.curRpiConfig := by
  cases h with
  | failed h => rw [h, Option.none_or]
  | same h hcur => rw [h, hcur, Option.some_or]
  | scheduled h => rw [h]; rfl
  | refused h => rw [h]; rfl

theorem after_curRpiConfig (xs : List Start) : (after xs).curRpiConfig = lastFetched xs := by
  induction xs using List.reverseRecOn with
  | nil => rfl
  | append_singleton xs x ih => rw [(ran_after xs x).curRpiConfig, ih, lastFetched_concat]

theorem renewed_held (s : ConfigSyncJob) (c : RpiConfig) (t : Timer) :
    (s.renewed c t).held = some t := by
  simp [ConfigSyncJob.held, ConfigSyncJob.renewed]

section run
variable {x : Start} {s s' : ConfigSyncJob} {r : Except JavaException Unit}

theorem Ran.live (h : Ran x s r s') (hs : Live s)
    (haccepted : ∀ c, x.fetched = some c → s.curRpiConfig ≠ some c → c.schedule.Accepted x.now) :
    Live s' := by
  cases h with
  | failed => exact hs
  | same => exact hs
  | scheduled h hcur =>
    intro c' hc'
    rw [renewed_held, ← Option.some.inj hc']
  | refused h hcur hrefused => exact absurd (haccepted _ h hcur) hrefused

theorem Ran.kept {e : JavaException} (h : Ran x s (.error e) s')
    (haccepted : ∀ c, x.fetched = some c → s.curRpiConfig ≠ some c → c.schedule.Accepted x.now) :
    Kept s s' := by
  cases h with
  | failed => exact ⟨rfl, rfl⟩
  | refused h hcur hrefused => exact absurd (haccepted _ h hcur) hrefused

theorem Ran.accepted {c : RpiConfig} (h : Ran x s r s') (hfetched : x.fetched = some c)
    (hcur : s.curRpiConfig ≠ some c) (hlive : Live s') : c.schedule.Accepted x.now := by
  cases h with
  | failed h => rw [hfetched] at h; cases h
  | same h hsame => exact absurd (hsame.trans (h.symm.trans hfetched)) hcur
  | scheduled h _ haccepted =>
    obtain rfl := Option.some.inj (h.symm.trans hfetched)
    exact haccepted
  | refused h =>
    have hheld := hlive _ rfl
    rw [renewed_held] at hheld
    cases hheld

end run

/-- The schedule follows the configuration exactly when the timer accepts, at the time, every
configuration that differs from the one fetched last before. -/
theorem synchronized_iff (xs : List Start) : Synchronized xs ↔
    ∀ pre x, pre ++ [x] <+: xs → ∀ c, x.fetched = some c → lastFetched pre ≠ some c →
      c.schedule.Accepted x.now := by
  constructor
  · intro h pre x hpre c hfetched hlast
    rw [← after_curRpiConfig] at hlast
    exact (ran_after pre x).accepted hfetched hlast (h pre x hpre).1
  · intro h
    have hstep : ∀ pre x, pre ++ [x] <+: xs → ∀ c, x.fetched = some c →
        (after pre).curRpiConfig ≠ some c → c.schedule.Accepted x.now := by
      intro pre x hpre
      rw [after_curRpiConfig]
      exact h pre x hpre
    have hlive : ∀ pre, pre <+: xs → Live (after pre) := by
      intro pre
      induction pre using List.reverseRecOn with
      | nil => exact fun _ c hc => by cases hc
      | append_singleton pre x ih =>
        intro hpre
        exact (ran_after pre x).live (ih ((List.prefix_append pre [x]).trans hpre))
          (hstep pre x hpre)
    intro pre x hpre
    refine ⟨hlive _ hpre, fun e he => ?_⟩
    have hran := ran_after pre x
    rw [he] at hran
    exact hran.kept (hstep pre x hpre)

def emptyConfigRuns : List Start :=
  [⟨.ok (some ⟨3000, 60000, 50⟩), false, 1500000000000⟩,
    ⟨.ok (some ⟨0, 0, 0⟩), false, 1500000015000⟩]

theorem emptyConfig_not_synchronized : ¬ Synchronized emptyConfigRuns := by
  intro h
  have hlive := (h [_] _ (List.prefix_refl emptyConfigRuns)).1 ⟨0, 0, 0⟩ (by decide)
  exact absurd hlive (by decide)

end NetworkAnalyser.Client

import Mathlib.Init

/-! Timers as `java.util.Timer` specifies them. -/
namespace NetworkAnalyser.JavaTimer

structure Schedule where
  delay : Int64
  period : Int64
  deriving DecidableEq

structure Timer where
  cancelled : Bool
  tasks : List Schedule
  deriving DecidableEq

/-- The timers created so far; a reference is a position. -/
abbrev Timers := List Timer

inductive Refusal where
  | illegalArgument
  | illegalState
  deriving DecidableEq

def Timer.fresh : Timer := ⟨false, []⟩

/-- No task of a cancelled timer runs again. -/
def Timer.cancel (_ : Timer) : Timer := ⟨true, []⟩

def Timer.scheduleAtFixedRate (now : Int64) (t : Timer) (s : Schedule) : Except Refusal Timer :=
  if s.delay < 0 then .error .illegalArgument
  else if s.period ≤ 0 then .error .illegalArgument
  else if now + s.delay < 0 then .error .illegalArgument
  else if t.cancelled then .error .illegalState
  else .ok { t with tasks := t.tasks ++ [s] }

/-- The arguments are accepted at this time. -/
def Schedule.Accepted (now : Int64) (s : Schedule) : Prop :=
  ¬ s.delay < 0 ∧ ¬ s.period ≤ 0 ∧ ¬ now + s.delay < 0

instance (now : Int64) (s : Schedule) : Decidable (s.Accepted now) :=
  inferInstanceAs (Decidable (_ ∧ _))

variable {now : Int64} {s : Schedule}

theorem schedule_fresh (h : s.Accepted now) :
    Timer.fresh.scheduleAtFixedRate now s = .ok ⟨false, [s]⟩ := by
  obtain ⟨hdelay, hperiod, htime⟩ := h
  rw [Timer.scheduleAtFixedRate, if_neg hdelay, if_neg hperiod, if_neg htime]
  rfl

theorem schedule_refused (h : ¬ s.Accepted now) (t : Timer) :
    t.scheduleAtFixedRate now s = .error .illegalArgument := by
  rw [Timer.scheduleAtFixedRate]
  by_cases hdelay : s.delay < 0
  · rw [if_pos hdelay]
  by_cases hperiod : s.period ≤ 0
  · rw [if_neg hdelay, if_pos hperiod]
  by_cases htime : now + s.delay < 0
  · rw [if_neg hdelay, if_neg hperiod, if_pos htime]
  · exact absurd ⟨hdelay, hperiod, htime⟩ h

end NetworkAnalyser.JavaTimer

import FdsPaxos.RadixPairs
import FdsPaxos.RingConfigValidity

set_option autoImplicit false

/-!
`timers.c` on the intervals that `config_parser.c` lets through.  `timer_set_timeout`
carries at most one second, and the validator only asks for a positive total.
-/

namespace FdsPaxos.RingTimeouts
open RadixPairs TextScan RingConfigParser RingConfigValidity

/-- `timer_set_timeout`; the sum of the microseconds is stored in an `int`. -/
def timerSetTimeout (currentTime interval : Timeval) : Timeval :=
  let totUsec := toInt32 (currentTime.tvUsec + interval.tvUsec)
  if 1000000 ≤ totUsec then ⟨currentTime.tvSec + interval.tvSec + 1, totUsec % 1000000⟩
  else ⟨currentTime.tvSec + interval.tvSec, totUsec⟩

def timerIsExpired (deadlineTime currTime : Timeval) : Prop :=
  deadlineTime.tvSec < currTime.tvSec ∨
    (deadlineTime.tvSec = currTime.tvSec ∧ deadlineTime.tvUsec < currTime.tvUsec)

instance (deadlineTime currTime : Timeval) : Decidable (timerIsExpired deadlineTime currTime) :=
  inferInstanceAs (Decidable (_ ∨ _))

def Normalised (t : Timeval) : Prop := IsDigit 1000000 t.tvUsec

instance (t : Timeval) : Decidable (Normalised t) := inferInstanceAs (Decidable (_ ∧ _))

/-- The deadline that is set at `now` is the moment `interval` after it. -/
structure Honoured (now interval : Timeval) : Prop where
  normalised : Normalised (timerSetTimeout now interval)
  sum : (timerSetTimeout now interval).total = now.total + interval.total
  expires : ∀ t, Normalised t →
    (timerIsExpired (timerSetTimeout now interval) t ↔ now.total + interval.total < t.total)

theorem timerIsExpired_iff {deadline t : Timeval} (h : Normalised deadline) (h' : Normalised t) :
    timerIsExpired deadline t ↔ deadline.total < t.total :=
  lexicographic_iff h h'

variable {now interval : Timeval}

theorem timerSetTimeout_single (low : 0 ≤ now.tvUsec + interval.tvUsec)
    (high : now.tvUsec + interval.tvUsec < 2000000) :
    Normalised (timerSetTimeout now interval) ∧
      (timerSetTimeout now interval).total = now.total + interval.total := by
  have whole : toInt32 (now.tvUsec + interval.tvUsec) = now.tvUsec + interval.tvUsec :=
    toInt32_of_lt low (by omega)
  simp only [timerSetTimeout, whole]
  split_ifs with carry
  · simp only [Normalised, IsDigit, Timeval.total]
    omega
  · simp only [Normalised, IsDigit, Timeval.total]
    omega

theorem carry_bounds (normalised : Normalised (timerSetTimeout now interval))
    (sum : (timerSetTimeout now interval).total = now.total + interval.total) :
    0 ≤ now.tvUsec + interval.tvUsec ∧ now.tvUsec + interval.tvUsec < 2000000 := by
  revert normalised sum
  simp only [timerSetTimeout]
  split_ifs with carry
  · simp only [Normalised, IsDigit, Timeval.total]
    omega
  · simp only [Normalised, IsDigit, Timeval.total]
    omega

theorem honoured_iff : Honoured now interval ↔
    0 ≤ now.tvUsec + interval.tvUsec ∧ now.tvUsec + interval.tvUsec < 2000000 := by
  constructor
  · intro h
    exact carry_bounds h.normalised h.sum
  · rintro ⟨low, high⟩
    obtain ⟨normalised, sum⟩ := timerSetTimeout_single low high
    refine ⟨normalised, sum, fun t ht => ?_⟩
    rw [timerIsExpired_iff normalised ht, sum]

theorem always_honoured_iff : (∀ now, Normalised now → Honoured now interval) ↔
    0 ≤ interval.tvUsec ∧ interval.tvUsec ≤ 1000000 := by
  constructor
  · intro all
    have first := honoured_iff.mp (all ⟨0, 0⟩ (by decide))
    have last := honoured_iff.mp (all ⟨0, 999999⟩ (by decide))
    simp only at first last
    omega
  · intro bounds now ⟨low, high⟩
    exact honoured_iff.mpr (by omega)

theorem timerSetTimeout_protocol (low : 0 ≤ now.tvUsec ∧ 0 ≤ interval.tvUsec)
    (secs : 0 ≤ now.tvSec ∧ 0 ≤ interval.tvSec)
    (int : now.tvUsec + interval.tvUsec < 2 ^ 31) :
    protocolTimeval (timerSetTimeout now interval) =
      RingConfig.timerSetTimeout (protocolTimeval now) (protocolTimeval interval) := by
  have whole : toInt32 (now.tvUsec + interval.tvUsec) = now.tvUsec + interval.tvUsec :=
    toInt32_of_lt (by omega) int
  by_cases carry : 1000000 ≤ now.tvUsec + interval.tvUsec
  · have carry' : 1000000 ≤ (protocolTimeval now).tvUsec + (protocolTimeval interval).tvUsec := by
      simp only [protocolTimeval]
      omega
    simp only [timerSetTimeout, whole, if_pos carry, RingConfig.timerSetTimeout, if_pos carry']
    simp only [protocolTimeval]
    congr 1 <;> omega
  · have carry' : ¬ 1000000 ≤ (protocolTimeval now).tvUsec + (protocolTimeval interval).tvUsec := by
      simp only [protocolTimeval]
      omega
    simp only [timerSetTimeout, whole, if_neg carry, RingConfig.timerSetTimeout, if_neg carry']
    simp only [protocolTimeval]
    congr 1 <;> omega

/-- The intervals that reach the timers. -/
def timeoutIntervals (cm : ConfigMngr) : List Timeval :=
  [cm.p1Interval, cm.p2Interval, cm.retransmitRequestInterval]

section Accepted

variable {sys : Platform} {cfg cfg' : ConfigMngr}

theorem timevalNonzeroOrDefault_total_pos (t : Timeval) {sec usec : ℤ}
    (h : 0 < sec * 1000000 + usec) : 0 < (timevalNonzeroOrDefault t sec usec).total := by
  unfold timevalNonzeroOrDefault
  split_ifs with unset
  · exact h
  · omega

theorem validateIntervals_positive (h : validateIntervals sys cfg = .ok cfg') :
    ∀ interval ∈ timeoutIntervals cfg', 0 < interval.total := by
  unfold validateIntervals at h
  obtain ⟨_, _, h⟩ := bind_eq_ok h
  obtain ⟨_, _, h⟩ := bind_eq_ok h
  obtain ⟨_, p1, h⟩ := bind_eq_ok h
  obtain ⟨_, p2, h⟩ := bind_eq_ok h
  obtain ⟨_, _, h⟩ := bind_eq_ok h
  obtain ⟨_, _, h⟩ := bind_eq_ok h
  obtain ⟨_, _, h⟩ := bind_eq_ok h
  cases h
  have retransmit : 0 < (timevalNonzeroOrDefault cfg.retransmitRequestInterval 1 0).total :=
    timevalNonzeroOrDefault_total_pos _ (by decide)
  simpa [timeoutIntervals] using ⟨ensure_eq_ok p1, ensure_eq_ok p2, retransmit⟩

theorem validateConfig_positive (h : validateConfig sys cfg = .ok cfg') :
    ∀ interval ∈ timeoutIntervals cfg', 0 < interval.total := by
  unfold validateConfig at h
  obtain ⟨timed, intervals, h⟩ := bind_eq_ok h
  obtain ⟨_, _, h⟩ := bind_eq_ok h
  obtain ⟨_, _, h⟩ := bind_eq_ok h
  obtain ⟨_, _, h⟩ := bind_eq_ok h
  obtain ⟨_, _, h⟩ := bind_eq_ok h
  obtain ⟨_, _, h⟩ := bind_eq_ok h
  cases h
  simpa [timeoutIntervals, withDefaults] using validateIntervals_positive intervals

theorem accepted_positive {acceptorId : ℕ} {text : List Char}
    (h : configMngrInit sys acceptorId text = .ok cfg) :
    ∀ interval ∈ timeoutIntervals cfg, 0 < interval.total := by
  unfold configMngrInit at h
  obtain ⟨parsed, _, h⟩ := bind_eq_ok h
  exact validateConfig_positive h

end Accepted

theorem accepted_interval_honoured_iff (sys : Platform) (acceptorId : ℕ) (text : List Char)
    (cm : ConfigMngr) (accepted : configMngrInit sys acceptorId text = .ok cm)
    (interval : Timeval) (mem : interval ∈ timeoutIntervals cm) (now : Timeval) :
    0 < interval.total ∧ (Honoured now interval ↔
      0 ≤ now.tvUsec + interval.tvUsec ∧ now.tvUsec + interval.tvUsec < 2000000) :=
  ⟨accepted_positive accepted interval mem, honoured_iff⟩

/-- One second and two seconds, each written in microseconds alone. -/
def microsecondIntervals : List Char :=
  ("multicast 239.0.0.1 6000\np1_interval 0 2000000\np2_interval 0 1000000\nquorum_size 1\n" ++
    "acceptor 1 10.0.0.1 7001 7002\n").toList

theorem accepted_interval_honoured_iff_one_second : ∃ cm, ∃ interval ∈ timeoutIntervals cm,
    configMngrInit plainPlatform 1 microsecondIntervals = .ok cm ∧
      0 < interval.total ∧ (Honoured ⟨5, 999999⟩ interval ↔
        0 ≤ 999999 + interval.tvUsec ∧ 999999 + interval.tvUsec < 2000000) := by
  obtain ⟨cm, accepted⟩ := ok_of_isOk
    (show (configMngrInit plainPlatform 1 microsecondIntervals).isOk = true by decide +kernel)
  have mem : cm.p2Interval ∈ timeoutIntervals cm := by simp [timeoutIntervals]
  exact ⟨cm, cm.p2Interval, mem, accepted, accepted_interval_honoured_iff plainPlatform 1
    microsecondIntervals cm accepted cm.p2Interval mem ⟨5, 999999⟩⟩

theorem two_seconds_not_honoured :
    ¬ ∀ (sys : Platform) (acceptorId : ℕ) (text : List Char) (cm : ConfigMngr),
      configMngrInit sys acceptorId text = .ok cm →
        ∀ interval ∈ timeoutIntervals cm, ∀ now, Normalised now → Honoured now interval := by
  intro all
  obtain ⟨cm, accepted⟩ := ok_of_isOk
    (show (configMngrInit plainPlatform 1 microsecondIntervals).isOk = true by decide +kernel)
  have honoured := all plainPlatform 1 microsecondIntervals cm accepted cm.p1Interval
    (by simp [timeoutIntervals]) ⟨0, 0⟩ (by decide)
  have written : (configMngrInit plainPlatform 1 microsecondIntervals).map ConfigMngr.p1Interval =
      .ok ⟨0, 2000000⟩ := by decide +kernel
  rw [accepted] at written
  have first : cm.p1Interval = ⟨0, 2000000⟩ := Except.ok.inj written
  have bounds := honoured_iff.mp honoured
  rw [first] at bounds
  exact absurd bounds (by decide)

end FdsPaxos.RingTimeouts

import TlsClient.Engine.Timeout
import TlsClient.Python.Doubles

/-!
# The defensive timer

Embeds `_defensive_timeout_seconds` of `src/tls_client/_core.py`, in doubles. "The defensive timer is 2× the Go
timeout + 2 s grace, clamped to [60, 600] seconds": it fires after the engine's own timeout as long as that is
below the upper clamp (`defensive_exceeds_iff`).
-/

namespace TlsClient.Async

open TlsClient.Python TlsClient.Engine

/-- `go_timeout`; `None` and 0 are false. -/
def goTimeout (timeoutSeconds timeoutMilliseconds : Option ℤ) : Except PyError ℚ := do
  if timeoutMilliseconds.getD 0 > 0 then
    let milliseconds ← toDouble (timeoutMilliseconds.getD 0)
    return Binary64.round (milliseconds / 1000)
  else if timeoutSeconds.getD 0 > 0 then
    toDouble (timeoutSeconds.getD 0)
  else
    return 30

/-- `max(60.0, min(go_timeout * 2.0 + 2.0, 600.0))`. -/
def clampTimeout (timeout : ℚ) : ℚ :=
  max 60 (min (Binary64.round (Binary64.round (timeout * 2) + 2)) 600)

/-- `_defensive_timeout_seconds`. -/
def defensiveTimeoutSeconds (timeoutSeconds timeoutMilliseconds : Option ℤ) : Except PyError ℚ := do
  let timeout ← goTimeout timeoutSeconds timeoutMilliseconds
  return clampTimeout timeout

theorem clampTimeout_le (timeout : ℚ) : clampTimeout timeout ≤ 600 :=
  max_le (by norm_num) (min_le_right _ _)

/-- Twice a timeout is more than the timeout, also where it was rounded down to whole seconds. -/
theorem lt_clampTimeout {seconds timeout : ℚ} (hseconds : 0 ≤ seconds) (hlt : seconds < 600)
    (htimeout : (⌊seconds⌋₊ : ℚ) ≤ timeout) : seconds < clampTimeout timeout := by
  have hsucc : seconds < ⌊seconds⌋₊ + 1 := Nat.lt_floor_add_one seconds
  have hfloor : ⌊seconds⌋₊ < 600 := (Nat.floor_lt hseconds).mpr (by exact_mod_cast hlt)
  have hfloor_nonneg : (0 : ℚ) ≤ ⌊seconds⌋₊ := Nat.cast_nonneg _
  have hdouble : ((⌊seconds⌋₊ * 2 : ℕ) : ℚ) ≤ Binary64.round (timeout * 2) := by
    rw [← Binary64.round_natCast (n := ⌊seconds⌋₊ * 2) (by omega)]
    refine Binary64.round_mono (Nat.cast_nonneg _) ?_
    push_cast
    linarith
  have hgrace : ((⌊seconds⌋₊ * 2 + 2 : ℕ) : ℚ) ≤ Binary64.round (Binary64.round (timeout * 2) + 2) := by
    rw [← Binary64.round_natCast (n := ⌊seconds⌋₊ * 2 + 2) (by omega)]
    refine Binary64.round_mono (Nat.cast_nonneg _) ?_
    push_cast at hdouble ⊢
    linarith
  push_cast at hgrace
  refine lt_max_of_lt_right (lt_min ?_ hlt)
  linarith

/-! ## Against the engine's timeout -/

/-- The engine's timeout in seconds. -/
def selectSeconds (timeoutSeconds timeoutMilliseconds : ℤ) : ℚ :=
  selectTimeout timeoutSeconds timeoutMilliseconds / second

/-- Milliseconds go before seconds, and 30 seconds are the default. -/
theorem selectSeconds_eq (timeoutSeconds timeoutMilliseconds : ℤ) :
    selectSeconds timeoutSeconds timeoutMilliseconds =
      if timeoutMilliseconds > 0 then (timeoutMilliseconds : ℚ) / 1000
      else if timeoutSeconds > 0 then (timeoutSeconds : ℚ) else 30 := by
  rw [selectSeconds, selectTimeout, millisecond, second]
  split_ifs
  · push_cast
    ring
  · push_cast
    ring
  · norm_num

/-- Below the upper clamp, Python's copy of the engine's timeout loses less than a second. -/
theorem goTimeout_of_lt {timeoutSeconds timeoutMilliseconds : ℤ}
    (hlt : selectSeconds timeoutSeconds timeoutMilliseconds < 600) :
    ∃ timeout, goTimeout (some timeoutSeconds) (some timeoutMilliseconds) = .ok timeout ∧
      (⌊selectSeconds timeoutSeconds timeoutMilliseconds⌋₊ : ℚ) ≤ timeout := by
  rw [selectSeconds_eq] at hlt ⊢
  rw [goTimeout, Option.getD_some, Option.getD_some]
  split_ifs at hlt ⊢ with hms hs
  · have hbound : timeoutMilliseconds < 600000 := by
      rw [div_lt_iff₀ (by norm_num)] at hlt
      norm_num at hlt
      exact_mod_cast hlt
    have hnonneg : (0 : ℚ) ≤ timeoutMilliseconds / 1000 := by positivity
    refine ⟨Binary64.round (timeoutMilliseconds / 1000), ?_, ?_⟩
    · rw [toDouble_of_lt hms (by omega)]
      rfl
    · have hfloor : ⌊(timeoutMilliseconds : ℚ) / 1000⌋₊ < 600 :=
        (Nat.floor_lt hnonneg).mpr (by exact_mod_cast hlt)
      rw [← Binary64.round_natCast (n := ⌊(timeoutMilliseconds : ℚ) / 1000⌋₊) (by omega)]
      exact Binary64.round_mono (Nat.cast_nonneg _) (Nat.floor_le hnonneg)
  · have hbound : timeoutSeconds < 600 := by exact_mod_cast hlt
    exact ⟨timeoutSeconds, toDouble_of_lt hs (by omega), Nat.floor_le (by positivity)⟩
  · exact ⟨30, rfl, Nat.floor_le (by norm_num)⟩

/-- The defensive timer is longer than the timeout that the engine selects, exactly if that is below the upper
clamp. -/
theorem defensive_exceeds_iff (timeoutSeconds timeoutMilliseconds : ℤ) :
    (∃ timer, defensiveTimeoutSeconds (some timeoutSeconds) (some timeoutMilliseconds) = .ok timer ∧
        selectSeconds timeoutSeconds timeoutMilliseconds < timer) ↔
      selectSeconds timeoutSeconds timeoutMilliseconds < 600 := by
  constructor
  · rintro ⟨timer, htimer, hlt⟩
    obtain ⟨timeout, -, hclamp⟩ := Fallible.bind_eq_ok_iff.mp htimer
    obtain rfl := Except.ok.inj hclamp
    exact hlt.trans_le (clampTimeout_le timeout)
  · intro hlt
    obtain ⟨timeout, htimeout, hfloor⟩ := goTimeout_of_lt hlt
    refine ⟨clampTimeout timeout, ?_, lt_clampTimeout ?_ hlt hfloor⟩
    · rw [defensiveTimeoutSeconds, htimeout]
      rfl
    · have hpos := selectTimeout_pos timeoutSeconds timeoutMilliseconds
      rw [selectSeconds, second]
      positivity

/-- With a timeout of ten minutes the timer does not outlast the engine. -/
theorem defensive_clamped :
    ¬ ∀ timeoutSeconds timeoutMilliseconds : ℤ,
      ∃ timer, defensiveTimeoutSeconds (some timeoutSeconds) (some timeoutMilliseconds) = .ok timer ∧
        selectSeconds timeoutSeconds timeoutMilliseconds < timer := by
  intro hall
  obtain ⟨timer, htimer, hlt⟩ := hall 600 0
  obtain ⟨timeout, -, hclamp⟩ := Fallible.bind_eq_ok_iff.mp htimer
  obtain rfl := Except.ok.inj hclamp
  have hselected : selectSeconds 600 0 = 600 := by
    rw [selectSeconds_eq]
    norm_num
  rw [hselected] at hlt
  exact absurd (clampTimeout_le timeout) (not_le.mpr hlt)

end TlsClient.Async

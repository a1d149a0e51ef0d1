import Sshdt.Lib.Timespec
import Sshdt.Config.Basic

/-
  The deadline of a setup attempt (`attempt` in
  `src/devtunnel/host.rs`).

  The host task of an enabled tunnel makes one attempt after
  the other. Each of them starts by adding the configured
  timeout to the current time, and the addition panics when
  the sum is out of range. A panic ends the task: the SSH
  server goes on without its tunnel. Timeouts are read and
  validated as unsigned 64-bit numbers.

  Key definitions include:
    * `setupDeadline`
    * `HostTask`
    * `HostTask.attempts`

  Key theorems include:
    * `isSome_setupDeadline`
    * `HostTask.attempts_looping_iff`
    * `setupDeadline_iff`
-/

------------------------------------------------------------
-- Deadlines
------------------------------------------------------------

namespace Sshdt

namespace DevTunnel

/-
  `Instant::now() + Duration::from_secs(timeout_secs)`; the
  addition panics where there is no sum.
-/
def setupDeadline
    (now : Timespec)
    (timeoutSecs : UInt64) : Option Timespec :=
  now.checkedAdd (.fromSecs timeoutSecs)

/- The time that a timeout needs is there. -/
def HasRoom
    (now : Timespec)
    (timeoutSecs : UInt64) : Prop :=
  timeoutSecs.toNat < secsLimit - now.secs

theorem isSome_setupDeadline
    (now : Timespec)
    (timeoutSecs : UInt64) :
    (setupDeadline now timeoutSecs).isSome = true ↔
      HasRoom now timeoutSecs := by
  rw [setupDeadline, Timespec.isSome_checkedAdd_fromSecs,
    HasRoom]
  omega

/- The host task, in its loop or after a panic in it. -/
inductive HostTask where
  | looping
  | panicked
  deriving DecidableEq, Repr

namespace HostTask

/- One attempt, begun at a time. -/
def attempt
    (config : DevTunnelConfig)
    (task : HostTask)
    (now : Timespec) : HostTask :=
  match task with
  | .panicked => .panicked
  | .looping =>
      match setupDeadline now config.timeoutSecs with
      | some _ => .looping
      | none => .panicked

/- The attempts of a task, with the times they begin at. -/
def attempts
    (config : DevTunnelConfig)
    (times : List Timespec) : HostTask :=
  times.foldl (attempt config) .looping

theorem attempt_looping_iff
    (config : DevTunnelConfig)
    (task : HostTask)
    (now : Timespec) :
    attempt config task now = .looping ↔
      task = .looping ∧ HasRoom now config.timeoutSecs := by
  rw [← isSome_setupDeadline]
  cases task with
  | panicked => simp [attempt]
  | looping =>
      cases hDeadline :
          setupDeadline now config.timeoutSecs with
      | none => simp [attempt, hDeadline]
      | some deadline => simp [attempt, hDeadline]

/- A task goes on as long as every attempt has room. -/
theorem attempts_looping_iff
    (config : DevTunnelConfig)
    (times : List Timespec) :
    attempts config times = .looping ↔
      ∀ now ∈ times, HasRoom now config.timeoutSecs := by
  have hFrom :
      ∀ task,
        times.foldl (attempt config) task = .looping ↔
          task = .looping ∧
            ∀ now ∈ times,
              HasRoom now config.timeoutSecs := by
    induction times with
    | nil => simp
    | cons now times ih =>
        intro task
        rw [List.foldl_cons, ih, attempt_looping_iff,
          List.forall_mem_cons, and_assoc]
  rw [attempts, hFrom]
  simp

end HostTask

end DevTunnel

end Sshdt

------------------------------------------------------------
-- Accepted Timeouts
------------------------------------------------------------

namespace Sshdt

namespace DevTunnel

/-
  An accepted timeout can be used exactly when it ends before
  the time does: for every accepted text at every time, and
  for every validated configuration in every run of attempts.
-/
theorem setupDeadline_iff
    (text : Text)
    (timeoutSecs : UInt64)
    (now : Timespec)
    (config : Config)
    (times : List Timespec) :
    (parseTunnelTimeout text = some timeoutSecs →
      ((setupDeadline now timeoutSecs).isSome = true ↔
        timeoutSecs.toNat < secsLimit - now.secs)) ∧
    (config.validateDevTunnel = .ok () →
      (HostTask.attempts config.devTunnel times ≠
          .panicked ↔
        ∀ now ∈ times,
          config.devTunnel.timeoutSecs.toNat <
            secsLimit - now.secs)) := by
  refine ⟨?_, ?_⟩
  · intro _
    exact isSome_setupDeadline now timeoutSecs
  · intro _
    have hLooping :=
      HostTask.attempts_looping_iff config.devTunnel times
    have hTwo :
        HostTask.attempts config.devTunnel times ≠
            .panicked ↔
          HostTask.attempts config.devTunnel times =
            .looping := by
      cases HostTask.attempts config.devTunnel times with
      | looping => simp
      | panicked => simp
    rw [hTwo, hLooping]
    rfl

theorem neg_secsLimit_le_one :
    -secsLimit ≤ 1 := by
  unfold secsLimit
  omega

theorem one_lt_secsLimit :
    1 < secsLimit := by
  unfold secsLimit
  omega

theorem nanosPerSec_pos :
    0 < nanosPerSec := by
  unfold nanosPerSec
  omega

/- One second after the clock started. -/
def firstSecond : Timespec where
  secs := 1
  nanos := 0
  secs_ge := neg_secsLimit_le_one
  secs_lt := one_lt_secsLimit
  nanos_lt := nanosPerSec_pos

/- The default timeout, from a text and from the default. -/
theorem halfMinute_usable :
    (setupDeadline firstSecond 30).isSome = true ∧
      HostTask.attempts Config.default.devTunnel
          [firstSecond] ≠ .panicked := by
  have hParsed :
      parseTunnelTimeout ['3', '0', 's'] = some 30 := by
    decide +kernel
  have hUsable := setupDeadline_iff ['3', '0', 's'] 30
    firstSecond Config.default [firstSecond]
  refine ⟨(hUsable.1 hParsed).mpr (by decide +kernel),
    (hUsable.2 Config.validateDevTunnel_default).mpr ?_⟩
  intro now hNow
  rw [List.mem_singleton.mp hNow]
  decide +kernel

/- The largest timeout, as it may stand in the file. -/
def longestTimeout : Text :=
  ['1', '8', '4', '4', '6', '7', '4', '4', '0', '7', '3', '7',
    '0', '9', '5', '5', '1', '6', '1', '5']

/- A configuration that hosts a tunnel with that timeout. -/
def longestConfig : Config :=
  { Config.default with
    devTunnel :=
      { DevTunnelConfig.default with
        enabled := true
        id := some ['a', 'b', 'c']
        timeoutSecs := 18446744073709551615 } }

theorem longestTimeout_panics :
    parseTunnelTimeout longestTimeout =
        some longestConfig.devTunnel.timeoutSecs ∧
      longestConfig.validateDevTunnel = .ok () ∧
      setupDeadline firstSecond
          longestConfig.devTunnel.timeoutSecs = none ∧
      HostTask.attempts longestConfig.devTunnel
          [firstSecond] = .panicked := by
  refine ⟨by decide +kernel, by decide +kernel,
    by decide +kernel, by decide +kernel⟩

end DevTunnel

end Sshdt

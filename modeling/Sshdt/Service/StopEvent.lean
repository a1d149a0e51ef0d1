import Sshdt.Lib.Machine
import Sshdt.Lib.NamedEvents

/-
  Starting and stopping the Windows service
  (`src/service.rs`).

  A server instance holds three named events while it runs
  (`RunGuard`). Controllers (`service start`, `service stop`,
  `service restart`) find the instance through the names:
  they probe the running event, signal the stop event and
  wait for the running event to disappear.

  Every process is an automaton over labels. A label is one
  call with its outcome, so that an interleaving of the
  processes is a list of labelled steps.

  Key definitions include:
    * `Server.step`
    * `Controller.step`
    * `system`
    * `signaledWhileHeld`
    * `FreshStop`

  Key theorems include:
    * `stopped_signaled`
    * `staleStop_stops_other`
-/

------------------------------------------------------------
-- Labels
------------------------------------------------------------

namespace Sshdt

namespace Service

/- `EventNames`. -/
inductive EventName where
  | running
  | stop
  | ready
  deriving DecidableEq, Repr

/-
  `Action`, as far as it touches the events. Uninstalling
  stops the service first, as `stop` does.
-/
inductive Action where
  | start
  | stop
  | restart
  | status
  deriving DecidableEq, Repr

/- One step of a process, with what it finds out. -/
inductive Label where
  | invoke (action : Action)
  | call (c : EventCall EventName)
  | isConfigured (answer : Bool)
  | deadline (passed : Bool)
  | spawn (child : Option Nat)
  | tryWait (child : Nat) (exited : Bool)
  | kill (child : Nat) (order : List EventName)
  | fail
  | shutdown
  | terminate (order : List EventName)
  deriving DecidableEq, Repr

end Service

end Sshdt

------------------------------------------------------------
-- Server Instances
------------------------------------------------------------

namespace Sshdt

namespace Service

/-
  Where a server instance is in `run_server`, in service
  mode. The last three handles are those of its `RunGuard`.
-/
inductive Server where
  | notStarted
  | starting
  | refusing
  | hasRunning
  | hasStop
  | held
  | waiting
  | stopped
  | dropping (rest : List EventName)
  | exited
  deriving DecidableEq, Repr

namespace Server

/- The events to which an instance has a handle. -/
def handles : Server → List EventName
| notStarted | starting | exited => []
| refusing | hasRunning => [.running]
| hasStop => [.running, .stop]
| held | waiting | stopped => [.running, .stop, .ready]
| dropping rest => rest

/- Close handles one after another, then exit. -/
def drop : List EventName → Server
| [] => exited
| name :: rest => dropping (name :: rest)

/- A process that has begun and has not ended. -/
def alive : Server → Bool
| notStarted | exited => false
| _ => true

/-
  An instance whose guard has its stop event: the guard is
  complete or `acquire` is about to complete it, and it has
  not been dropped.
-/
def holdsGuard : Server → Bool
| hasStop | held | waiting | stopped => true
| _ => false

/-
  One step of an instance: `RunGuard::acquire`, the startup
  of the server with `mark_ready`, `wait_for_stop`, and the
  drop of the guard in the order of its fields.
-/
def step : Server → Label → Option Server
| starting, .call (.createEvent .running true outcome) =>
    match outcome with
    | .created => some hasRunning
    | .alreadyExists => some refusing
    | .failed => some exited
| starting, .fail => some exited
| refusing, .fail => some (drop [.running])
| hasRunning, .call (.createEvent .stop false outcome) =>
    match outcome with
    | .failed => some (drop [.running])
    | _ => some hasStop
| hasStop, .call (.createEvent .ready false outcome) =>
    match outcome with
    | .failed => some (drop [.stop, .running])
    | _ => some held
-- Logging, configuration or the listener may fail.
| held, .fail => some (drop [.running, .stop, .ready])
| held, .call (.setEvent .ready ok) =>
    if ok then
      some waiting
    else
      some (drop [.running, .stop, .ready])
| waiting, .call (.waitForSingleObject .stop signaled) =>
    if signaled then some stopped else some waiting
| waiting, .fail => some (drop [.running, .stop, .ready])
| stopped, .shutdown =>
    some (drop [.running, .stop, .ready])
| dropping (name :: rest), .call (.closeHandle name') =>
    if name' = name then some (drop rest) else none
| _, _ => none

/- The end of a process from outside, at any point. -/
def terminate
    (server : Server)
    (order : List EventName) : Option Server :=
  if server.alive && order.isPerm server.handles then
    some (drop order)
  else
    none

end Server

end Service

end Sshdt

------------------------------------------------------------
-- Controllers
------------------------------------------------------------

namespace Sshdt

namespace Service

/- The places at which a controller calls `is_running`. -/
inductive Probe where
  | stopEvent (restart : Bool)
  | stopEnsure (restart : Bool)
  | waitUntilStopped (restart : Bool)
  | start
  | waitForReady (child : Nat) (observed : Bool)
  | status
  deriving DecidableEq, Repr

/- Where a controller is in `manage`. -/
inductive Controller where
  | idle
  | stopEvent (restart : Bool)
  | stopEventDeadline (restart : Bool)
  | signalStop (restart : Bool)
  | waitDeadline (restart : Bool)
  | closeStop (restart : Bool) (ok : Bool)
  | probe (site : Probe)
  | probed (site : Probe)
  | start
  | spawn
  | waitForReady (child : Nat) (observed : Bool)
  | readyOpened (child : Nat) (observed : Bool)
  | readyClose (child : Nat) (observed : Bool)
      (ready : Bool)
  | readyChild (child : Nat) (observed : Bool)
  | readyDeadline (child : Nat) (observed : Bool)
  | cleanup (child : Nat) (stopRequested : Bool)
  | cleanupOpen (child : Nat)
  | cleanupSignal (child : Nat)
  | cleanupClose (child : Nat) (ok : Bool)
  | cleanupDeadline (child : Nat) (stopRequested : Bool)
  | cleanupKill (child : Nat)
  | cleanupForce (child : Nat)
  | dropping (rest : List EventName)
  | finished
  deriving DecidableEq, Repr

namespace Controller

/- The events to which a controller has a handle. -/
def handles : Controller → List EventName
| signalStop _ | waitDeadline _ | closeStop _ _ => [.stop]
| probe (.waitUntilStopped _) => [.stop]
| probed (.waitUntilStopped _) => [.running, .stop]
| probed _ => [.running]
| readyOpened _ _ | readyClose _ _ _ => [.ready]
| cleanupSignal _ | cleanupClose _ _ => [.stop]
| dropping rest => rest
| _ => []

/- Close handles one after another, then exit. -/
def drop : List EventName → Controller
| [] => finished
| name :: rest => dropping (name :: rest)

/- What follows `stop`: the start of a restart, or nothing. -/
def afterStop
    (restart : Bool) : Controller :=
  if restart then start else finished

/- `is_running` returned false. -/
def absent : Probe → Controller
| .stopEvent restart => probe (.stopEnsure restart)
| .stopEnsure restart => afterStop restart
| .waitUntilStopped restart => closeStop restart true
| .start => spawn
| .waitForReady child observed =>
    if observed then
      cleanup child false
    else
      readyChild child observed
| .status => finished

/- `is_running` returned true. -/
def present : Probe → Controller
| .stopEvent restart => stopEventDeadline restart
| .stopEnsure _ => finished
| .waitUntilStopped restart => waitDeadline restart
| .start => finished
| .waitForReady child _ => readyChild child true
| .status => finished

/- `is_running` failed. -/
def failed : Probe → Controller
| .waitUntilStopped restart => closeStop restart false
| .waitForReady child _ => cleanup child false
| _ => finished

/-
  One step of a controller: `stop_event`, `stop` and
  `wait_until_stopped`; `start`, `wait_for_ready` and
  `cleanup_failed_start`.
-/
def step : Controller → Label → Option Controller
| idle, .invoke action =>
    match action with
    | .stop => some (stopEvent false)
    | .restart => some (stopEvent true)
    | .start => some start
    | .status => some (probe .status)
| stopEvent restart, .call (.openEvent .stop outcome) =>
    match outcome with
    | .opened => some (signalStop restart)
    | .fileNotFound => some (probe (.stopEvent restart))
    | .failed => some finished
| stopEventDeadline restart, .deadline passed =>
    if passed then
      some (probe (.stopEnsure restart))
    else
      some (stopEvent restart)
| signalStop restart, .call (.setEvent .stop ok) =>
    if ok then
      some (probe (.waitUntilStopped restart))
    else
      some (closeStop restart false)
| waitDeadline restart, .deadline passed =>
    if passed then
      some (closeStop restart false)
    else
      some (probe (.waitUntilStopped restart))
-- The handle to the stop event lives until `stop` returns.
| closeStop restart ok, .call (.closeHandle .stop) =>
    if ok then some (afterStop restart) else some finished
| probe site, .call (.openEvent .running outcome) =>
    match outcome with
    | .opened => some (probed site)
    | .fileNotFound => some (absent site)
    | .failed => some (failed site)
| probed site, .call (.closeHandle .running) =>
    some (present site)
| start, .isConfigured answer =>
    if answer then some (probe .start) else some finished
| spawn, .spawn child =>
    match child with
    | some child => some (waitForReady child false)
    | none => some finished
| waitForReady child observed,
    .call (.openEvent .ready outcome) =>
    match outcome with
    | .opened => some (readyOpened child observed)
    | .fileNotFound =>
        some (probe (.waitForReady child observed))
    | .failed => some (cleanup child false)
| readyOpened child observed,
    .call (.waitForSingleObject .ready signaled) =>
    some (readyClose child observed signaled)
| readyClose child observed ready,
    .call (.closeHandle .ready) =>
    if ready then
      some finished
    else
      some (probe (.waitForReady child observed))
| readyChild child observed, .tryWait child' exited =>
    if child' ≠ child then
      none
    else if exited then
      some (cleanup child false)
    else
      some (readyDeadline child observed)
| readyDeadline child observed, .deadline passed =>
    if passed then
      some (cleanup child false)
    else
      some (waitForReady child observed)
| cleanup child stopRequested, .tryWait child' exited =>
    if child' ≠ child then
      none
    else if exited then
      some finished
    else if stopRequested then
      some (cleanupDeadline child true)
    else
      some (cleanupOpen child)
| cleanupOpen child, .call (.openEvent .stop outcome) =>
    match outcome with
    | .opened => some (cleanupSignal child)
    | .fileNotFound => some (cleanupDeadline child false)
    | .failed => some (cleanupKill child)
| cleanupSignal child, .call (.setEvent .stop ok) =>
    some (cleanupClose child ok)
| cleanupClose child ok, .call (.closeHandle .stop) =>
    if ok then
      some (cleanupDeadline child true)
    else
      some (cleanupKill child)
| cleanupDeadline child stopRequested, .deadline passed =>
    if passed then
      some (cleanupKill child)
    else
      some (cleanup child stopRequested)
| cleanupKill child, .tryWait child' exited =>
    if child' ≠ child then
      none
    else if exited then
      some finished
    else
      some (cleanupForce child)
| cleanupForce child, .kill child' _ =>
    if child' = child then some finished else none
| cleanupForce _, .fail => some finished
| dropping (name :: rest), .call (.closeHandle name') =>
    if name' = name then some (drop rest) else none
-- A controller may be ended from outside at any point.
| controller, .terminate order =>
    if order.isPerm controller.handles then
      some (drop order)
    else
      none
| _, _ => none

end Controller

end Service

end Sshdt

------------------------------------------------------------
-- The System
------------------------------------------------------------

namespace Sshdt

namespace Service

/- A process of the current user. -/
inductive Process where
  | server (i : Nat)
  | controller (c : Nat)
  deriving DecidableEq, Repr

/- All processes and the events they share. -/
structure Processes where
  events : EventName → NamedEvent Process
  servers : Nat → Server
  controllers : Nat → Controller

/-
  A step of the system: an instance launched at login, a
  step of an instance, or a step of a controller.
-/
inductive Event where
  | launch (i : Nat)
  | server (i : Nat) (label : Label)
  | controller (c : Nat) (label : Label)
  deriving DecidableEq, Repr

namespace Processes

/- The state in which nothing runs and no event exists. -/
def init : Processes where
  events := fun _ => NamedEvent.absent
  servers := fun _ => .notStarted
  controllers := fun _ => .idle

/- A new instance. -/
def launch
    (s : Processes)
    (i : Nat) : Option Processes :=
  if s.servers i = .notStarted then
    some { s with
      servers := Function.update s.servers i .starting }
  else
    none

/-
  What a label does to the events and to the instances, for
  the process that takes it.
-/
def effect
    (s : Processes)
    (p : Process) : Label → Option Processes
| .call c =>
    (c.apply s.events p).map fun events =>
      { s with events }
| .spawn (some child) => s.launch child
| .tryWait child exited =>
    if decide (s.servers child = .exited) = exited then
      some s
    else
      none
| .kill child order =>
    ((s.servers child).terminate order).map fun server =>
      { s with
        servers :=
          Function.update s.servers child server }
| _ => some s

/- One step of the system. -/
def step
    (s : Processes) : Event → Option Processes
| .launch i => s.launch i
| .server i (.terminate order) =>
    ((s.servers i).terminate order).map fun server =>
      { s with
        servers := Function.update s.servers i server }
| .server i label => do
    let s' ← s.effect (.server i) label
    let server ← (s.servers i).step label
    some { s' with
      servers := Function.update s'.servers i server }
| .controller c label => do
    let s' ← s.effect (.controller c) label
    let controller ← (s.controllers c).step label
    some { s' with
      controllers :=
        Function.update s'.controllers c controller }

end Processes

/- The service with any number of processes. -/
def system : Machine Processes Event where
  init := .init
  step := Processes.step

end Service

end Sshdt

------------------------------------------------------------
-- Stop Requests
------------------------------------------------------------

namespace Sshdt

namespace Service

/- A controller signals the stop event. -/
def signalsStop : Event → Bool
| .controller _ (.call (.setEvent .stop true)) => true
| _ => false

/-
  Some step of a run signals the stop event in a state in
  which the instance holds its guard.
-/
def signaledWhileHeld
    (i : Nat) :
    Processes → List Event → Bool
| _, [] => false
| s, e :: es =>
    signalsStop e && (s.servers i).holdsGuard ||
      match s.step e with
      | none => false
      | some t => signaledWhileHeld i t es

/-
  An instance creates its stop event only while no signaled
  object of that name exists.
-/
def freshStop
    (s : Processes) : Event → Bool
| .server _ (.call (.createEvent .stop _ _)) =>
    !((s.events .stop).exists? &&
      (s.events .stop).signaled)
| _ => true

/- The condition on a step of a run. -/
abbrev FreshStop
    (s : Processes)
    (e : Event) : Prop :=
  freshStop s e = true

theorem signaledWhileHeld_append
    {i : Nat}
    {s t : Processes}
    {es : List Event}
    {e : Event}
    (hExec : system.exec s es = some t) :
    signaledWhileHeld i s (es ++ [e]) =
      (signaledWhileHeld i s es ||
        signalsStop e && (t.servers i).holdsGuard) := by
  induction es generalizing s with
  | nil =>
      simp only [Machine.exec, Option.some.injEq] at hExec
      subst hExec
      simp only [List.nil_append, signaledWhileHeld,
        Bool.false_or]
      cases s.step e <;> simp
  | cons e' es ih =>
      rcases Machine.exec_cons.mp hExec with
        ⟨u, hStep, hRest⟩
      change s.step e' = some u at hStep
      simp only [List.cons_append, signaledWhileHeld, hStep,
        ih hRest, Bool.or_assoc]

end Service

end Sshdt

------------------------------------------------------------
-- What One Step Can Do
------------------------------------------------------------

namespace Sshdt

namespace Service

theorem Server.holdsGuard_drop
    (order : List EventName) :
    (Server.drop order).holdsGuard = false := by
  cases order <;> rfl

theorem Server.holdsGuard_terminate
    {server server' : Server}
    {order : List EventName}
    (hTerminate : server.terminate order = some server') :
    server'.holdsGuard = false := by
  unfold Server.terminate at hTerminate
  split at hTerminate <;> cases hTerminate
  exact Server.holdsGuard_drop order

/- An instance comes to hold a guard with its stop event. -/
theorem Server.holdsGuard_of_step
    {server server' : Server}
    {label : Label}
    (hStep : server.step label = some server')
    (hHolds : server'.holdsGuard = true) :
    server.holdsGuard = true ∨
      ∃ outcome, outcome ≠ .failed ∧
        label = .call (.createEvent .stop false outcome) := by
  fun_cases Server.step server label
  all_goals
    simp only [Server.step, Option.some.injEq, reduceCtorEq,
      if_true, if_false, *] at hStep
  all_goals subst hStep
  all_goals
    first
    | (rw [Server.holdsGuard_drop] at hHolds
       cases hHolds)
    | simp_all [Server.holdsGuard]

/- An instance stops after it has seen its stop event. -/
theorem Server.waiting_of_stopped
    {server : Server}
    {label : Label}
    (hStep : server.step label = some .stopped) :
    server = .waiting ∧
      label = .call (.waitForSingleObject .stop true) := by
  fun_cases Server.step server label
  all_goals
    simp_all [Server.step, Server.drop]
  split at hStep <;> cases hStep

/- An instance never signals its stop event itself. -/
theorem Server.call_of_step
    {server server' : Server}
    {label : Label}
    (hStep : server.step label = some server') :
    label ≠ .call (.setEvent .stop true) ∧
      label ≠ .call (.createEvent .stop true .created) := by
  fun_cases Server.step server label
  all_goals simp_all [Server.step]

theorem Controller.call_of_step
    {controller controller' : Controller}
    {label : Label}
    (hStep : controller.step label = some controller') :
    label ≠ .call (.createEvent .stop true .created) := by
  intro hLabel
  subst hLabel
  cases controller with
  | dropping rest => cases rest <;> cases hStep
  | _ => cases hStep

variable {s t : Processes}

/- Effects of labels on the instances. -/
theorem Processes.server_of_effect
    {p : Process}
    {label : Label}
    {i : Nat}
    (hEffect : s.effect p label = some t)
    (hHolds : (t.servers i).holdsGuard = true) :
    t.servers i = s.servers i := by
  have hUpdate :
      ∀ {j : Nat} {server : Server},
        server.holdsGuard = false →
        (Function.update s.servers j server i).holdsGuard =
            true →
          Function.update s.servers j server i =
            s.servers i := by
    intro j server hServer hHolds
    by_cases hSame : i = j
    · subst hSame
      rw [Function.update_self, hServer] at hHolds
      cases hHolds
    · rw [Function.update_of_ne hSame]
  cases label with
  | call c =>
      simp only [Processes.effect,
        Option.map_eq_some_iff] at hEffect
      rcases hEffect with ⟨events, _, rfl⟩
      rfl
  | spawn child =>
      cases child with
      | none =>
          cases hEffect
          rfl
      | some child =>
          simp only [Processes.effect,
            Processes.launch] at hEffect
          split at hEffect <;> cases hEffect
          exact hUpdate rfl hHolds
  | tryWait child exited =>
      simp only [Processes.effect] at hEffect
      split at hEffect <;> cases hEffect
      rfl
  | kill child order =>
      simp only [Processes.effect,
        Option.map_eq_some_iff] at hEffect
      rcases hEffect with ⟨server, hTerminate, rfl⟩
      exact hUpdate
        (Server.holdsGuard_terminate hTerminate) hHolds
  | _ =>
      cases hEffect
      rfl

/- Effects of labels on the stop event. -/
theorem Processes.signaled_of_effect
    {p : Process}
    {label : Label}
    (hEffect : s.effect p label = some t)
    (hSignaled : (t.events .stop).signaled = true) :
    (s.events .stop).signaled = true ∨
      label = .call (.setEvent .stop true) ∨
      label = .call (.createEvent .stop true .created) := by
  cases label with
  | call c =>
      simp only [Processes.effect,
        Option.map_eq_some_iff] at hEffect
      rcases hEffect with ⟨events, hApply, rfl⟩
      rcases EventCall.signaled_of_apply hApply hSignaled with
        hOld | rfl | rfl
      · exact Or.inl hOld
      · exact Or.inr (Or.inl rfl)
      · exact Or.inr (Or.inr rfl)
  | spawn child =>
      cases child with
      | none =>
          cases hEffect
          exact Or.inl hSignaled
      | some child =>
          simp only [Processes.effect,
            Processes.launch] at hEffect
          split at hEffect <;> cases hEffect
          exact Or.inl hSignaled
  | tryWait child exited =>
      simp only [Processes.effect] at hEffect
      split at hEffect <;> cases hEffect
      exact Or.inl hSignaled
  | kill child order =>
      simp only [Processes.effect,
        Option.map_eq_some_iff] at hEffect
      rcases hEffect with ⟨server, _, rfl⟩
      exact Or.inl hSignaled
  | _ =>
      cases hEffect
      exact Or.inl hSignaled

end Service

end Sshdt

------------------------------------------------------------
-- What A Run Can Do
------------------------------------------------------------

namespace Sshdt

namespace Service

variable {s t : Processes}

/-
  A stop event that an instance with a guard sees signaled
  was signaled while it held that guard.
-/
def Answered
    (es : List Event)
    (s : Processes) : Prop :=
  ∀ i,
    (s.servers i).holdsGuard = true →
      (s.events .stop).signaled = true ∨
          s.servers i = .stopped →
        signaledWhileHeld i system.init es = true

/- What is already answered stays so in a longer run. -/
theorem Answered.mono
    {es : List Event}
    {e : Event}
    {i : Nat}
    (hExec : system.exec system.init es = some s)
    (hAnswered : Answered es s)
    (hHolds : (s.servers i).holdsGuard = true)
    (hSeen :
      (s.events .stop).signaled = true ∨
        s.servers i = .stopped) :
    signaledWhileHeld i system.init (es ++ [e]) = true := by
  rw [signaledWhileHeld_append hExec,
    hAnswered i hHolds hSeen, Bool.true_or]

/- Steps of one instance. -/
theorem Answered.server
    {es : List Event}
    {j : Nat}
    {label : Label}
    (hExec : system.exec system.init es = some s)
    (hAnswered : Answered es s)
    (hFresh : FreshStop s (.server j label))
    (hEffect : s.effect (.server j) label = some t)
    {server : Server}
    (hServer : (s.servers j).step label = some server) :
    Answered (es ++ [.server j label])
      { t with
        servers := Function.update t.servers j server } := by
  intro i hHolds hSeen
  have hSignal :
      (t.events .stop).signaled = true →
        (s.events .stop).signaled = true := by
    intro hSignaled
    rcases Processes.signaled_of_effect hEffect hSignaled
      with hOld | hLabel | hLabel
    · exact hOld
    · exact absurd hLabel (Server.call_of_step hServer).1
    · exact absurd hLabel (Server.call_of_step hServer).2
  by_cases hSame : i = j
  · subst hSame
    simp only [Function.update_self] at hHolds hSeen
    rcases Server.holdsGuard_of_step hServer hHolds with
      hOld | ⟨outcome, hOutcome, hLabel⟩
    · apply Answered.mono hExec hAnswered hOld
      rcases hSeen with hSignaled | hStopped
      · exact Or.inl (hSignal hSignaled)
      · -- It has just left `wait_for_stop`.
        subst hStopped
        have hWait := (Server.waiting_of_stopped hServer).2
        subst hWait
        simp only [Processes.effect,
          Option.map_eq_some_iff] at hEffect
        rcases hEffect with ⟨events, hApply, _⟩
        exact Or.inl (EventCall.signaled_of_wait hApply)
    · -- It has just created its stop event.
      subst hLabel
      simp only [Processes.effect,
        Option.map_eq_some_iff] at hEffect
      rcases hEffect with ⟨events, hApply, rfl⟩
      rcases hSeen with hSignaled | hStopped
      · have hStale := EventCall.signaled_of_create hApply
          hOutcome hSignaled
        simp [FreshStop, freshStop, hStale.1,
          hStale.2] at hFresh
      · subst hStopped
        have hWait := (Server.waiting_of_stopped hServer).2
        cases hWait
  · simp only [Function.update_of_ne hSame] at hHolds hSeen
    have hKeep := Processes.server_of_effect hEffect hHolds
    rw [hKeep] at hHolds hSeen
    apply Answered.mono hExec hAnswered hHolds
    exact hSeen.imp_left hSignal

/- Steps of one controller. -/
theorem Answered.controller
    {es : List Event}
    {c : Nat}
    {label : Label}
    (hExec : system.exec system.init es = some s)
    (hAnswered : Answered es s)
    (hEffect : s.effect (.controller c) label = some t)
    {controller : Controller}
    (hController :
      (s.controllers c).step label = some controller) :
    Answered (es ++ [.controller c label])
      { t with
        controllers :=
          Function.update t.controllers c controller } := by
  intro i hHolds hSeen
  simp only at hHolds hSeen
  have hKeep := Processes.server_of_effect hEffect hHolds
  rw [hKeep] at hHolds hSeen
  rcases hSeen with hSignaled | hStopped
  · rcases Processes.signaled_of_effect hEffect hSignaled
      with hOld | hLabel | hLabel
    · exact Answered.mono hExec hAnswered hHolds
        (Or.inl hOld)
    · -- This very step is the request.
      subst hLabel
      rw [signaledWhileHeld_append hExec, hHolds]
      simp [signalsStop]
    · exact absurd hLabel
        (Controller.call_of_step hController)
  · exact Answered.mono hExec hAnswered hHolds
      (Or.inr hStopped)

/- An instance that begins or is ended holds no guard. -/
theorem Answered.update
    {es : List Event}
    {e : Event}
    {j : Nat}
    {server : Server}
    (hExec : system.exec system.init es = some s)
    (hAnswered : Answered es s)
    (hServer : server.holdsGuard = false) :
    Answered (es ++ [e])
      { s with
        servers := Function.update s.servers j server } := by
  intro i hHolds hSeen
  by_cases hSame : i = j
  · subst hSame
    simp only [Function.update_self, hServer] at hHolds
    cases hHolds
  · simp only [Function.update_of_ne hSame] at hHolds hSeen
    exact Answered.mono hExec hAnswered hHolds hSeen

theorem Answered.step
    {es : List Event}
    {e : Event}
    (hExec : system.exec system.init es = some s)
    (hAnswered : Answered es s)
    (hFresh : FreshStop s e)
    (hStep : s.step e = some t) :
    Answered (es ++ [e]) t := by
  unfold Processes.step at hStep
  split at hStep
  · simp only [Processes.launch] at hStep
    split at hStep <;> cases hStep
    exact Answered.update hExec hAnswered rfl
  · rcases Option.map_eq_some_iff.mp hStep with
      ⟨server, hTerminate, rfl⟩
    exact Answered.update hExec hAnswered
      (Server.holdsGuard_terminate hTerminate)
  · rcases Option.bind_eq_some_iff.mp hStep with
      ⟨u, hEffect, hStep⟩
    rcases Option.bind_eq_some_iff.mp hStep with
      ⟨server, hServer, hStep⟩
    cases hStep
    exact Answered.server hExec hAnswered hFresh hEffect
      hServer
  · rcases Option.bind_eq_some_iff.mp hStep with
      ⟨u, hEffect, hStep⟩
    rcases Option.bind_eq_some_iff.mp hStep with
      ⟨controller, hController, hStep⟩
    cases hStep
    exact Answered.controller hExec hAnswered hEffect
      hController

/-
  In a run in which no instance takes over a signaled stop
  event, an instance that leaves `wait_for_stop` with success
  was asked to: some controller signaled the stop event while
  this instance held its guard.
-/
theorem stopped_signaled
    {es : List Event}
    {i : Nat}
    (hExec : system.exec system.init es = some s)
    (hFresh : system.MeetsAll FreshStop system.init es)
    (hStopped : s.servers i = .stopped) :
    signaledWhileHeld i system.init es = true := by
  have hAnswered : Answered es s := by
    apply Machine.exec_history_meets hExec hFresh
    · intro i hHolds
      cases hHolds
    · intro es s e t hPre hAnswered hOk hStep
      exact Answered.step hPre hAnswered hOk hStep
  apply hAnswered i
  · rw [hStopped]
    rfl
  · exact Or.inr hStopped

/- An instance is started at login and becomes ready. -/
def startRun
    (i : Nat)
    (outcome : CreateOutcome) : List Event :=
  [.launch i,
    .server i (.call (.createEvent .running true .created)),
    .server i (.call (.createEvent .stop false outcome)),
    .server i (.call (.createEvent .ready false .created)),
    .server i (.call (.setEvent .ready true))]

/- A controller signals the stop event; the server sees it. -/
def stopRun : List Event :=
  [.controller 0 (.invoke .stop),
    .controller 0 (.call (.openEvent .stop .opened)),
    .controller 0 (.call (.setEvent .stop true)),
    .server 0 (.call (.waitForSingleObject .stop true))]

/- One instance, stopped by one controller. -/
theorem stopRun_signaled :
    signaledWhileHeld 0 system.init
      (startRun 0 .created ++ stopRun) = true :=
  stopped_signaled (i := 0)
    (Option.some_get (by decide :
      (system.exec system.init
        (startRun 0 .created ++ stopRun)).isSome =
          true)).symm
    (by decide) (by decide)

/-
  While the first controller still waits with its handle to
  the stop event, the first instance exits and a second one
  starts. It takes over the signaled event and stops at
  once.
-/
def staleRun : List Event :=
  startRun 0 .created ++ stopRun ++
    [.server 0 .shutdown,
      .server 0 (.call (.closeHandle .running)),
      .server 0 (.call (.closeHandle .stop)),
      .server 0 (.call (.closeHandle .ready))] ++
    startRun 1 .alreadyExists ++
    [.server 1 (.call (.waitForSingleObject .stop true))]

theorem staleStop_stops_other :
    ((system.exec system.init staleRun).map fun s =>
        s.servers 1) = some .stopped ∧
      signaledWhileHeld 1 system.init staleRun = false := by
  decide

end Service

end Sshdt

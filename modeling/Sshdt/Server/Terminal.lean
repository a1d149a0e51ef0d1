import Sshdt.Server.Channel

/-
  The size of the terminal of a session (`pty_request` and
  `window_change_request` in `src/handler.rs`, `run_pty` in
  `src/session.rs`).

  The handler keeps the size of the last `pty-req` and hands
  it to the session task, which spawns the PTY with it. From
  then on window changes go to the task through an unbounded
  channel. A window change before the start finds no such
  channel and is dropped. Sizes arrive in 32 bits and are
  narrowed to 16 before the task looks at them, and the task
  replaces a zero by one.

  The task runs next to the handler: it may spawn the PTY and
  take resizes at any time after the start.

  Key definitions include:
    * `Terminal`
    * `Terminal.step`
    * `SizeRequests`
    * `SizeRequests.ReachesTerminal`

  Key theorems include:
    * `Terminal.step_inv`
    * `Terminal.exec_slot`
    * `SizeRequests.exec_size`
    * `SizeRequests.size_iff`
-/

------------------------------------------------------------
-- The Task Of A PTY Session
------------------------------------------------------------

namespace Sshdt

variable {PublicKey : Type}

/- Columns and rows as the task sees them. -/
abbrev TerminalSize := UInt16 × UInt16

/- `u16::max` with one. -/
def atLeastOne
    (v : UInt16) : UInt16 :=
  if v < 1 then 1 else v

/- The size that is set on the PTY. -/
def TerminalSize.inForce
    (size : TerminalSize) : TerminalSize :=
  (atLeastOne size.1, atLeastOne size.2)

/- The PTY that a runner was started with. -/
def Runner.pty : Runner → Option PtyRequest
| .session request _ _ _ => request.pty
| .sftp _ => none

/- The PTY of the session on a channel. -/
def Slot.sessionPty
    (slot : Slot) : Option PtyRequest :=
  slot.runners.head?.bind Runner.pty

/-
  A channel and the PTY of its session: the size in force
  once the PTY is spawned, and how many resizes the task has
  taken.
-/
structure Terminal where
  slot : Slot
  size : Option TerminalSize
  taken : Nat
  deriving DecidableEq, Repr

/- A request of the client, or a step of the task. -/
inductive TerminalEvent where
  | client (event : ChannelEvent)
  | spawn
  | resize
  deriving DecidableEq, Repr

namespace Terminal

/- A channel that has not been opened. -/
def fresh : Terminal where
  slot := .fresh
  size := none
  taken := 0

/- The start of `run_pty`. -/
def spawn
    (t : Terminal) : Option Terminal :=
  match t.size, t.slot.sessionPty with
  | none, some pty =>
      some { t with
        size := some
          (TerminalSize.inForce (pty.cols, pty.rows)) }
  | _, _ => none

/- The task takes the next resize and sets it. -/
def resize
    (t : Terminal) : Option Terminal :=
  match t.size, t.slot.resizes[t.taken]? with
  | some _, some size =>
      some { t with
        size := some (TerminalSize.inForce size)
        taken := t.taken + 1 }
  | _, _ => none

def step
    (inner : ServerInner PublicKey)
    (t : Terminal) : TerminalEvent → Option Terminal
| .client event =>
    (t.slot.step inner event).map fun slot =>
      { t with slot }
| .spawn => t.spawn
| .resize => t.resize

def machine
    (inner : ServerInner PublicKey) :
    Machine Terminal TerminalEvent where
  init := fresh
  step := step inner

/- The PTY is spawned and every resize is taken. -/
def Processed
    (t : Terminal) : Prop :=
  t.size.isSome = true ∧ t.taken = t.slot.resizes.length

end Terminal

end Sshdt

------------------------------------------------------------
-- The Size In Force
------------------------------------------------------------

namespace Sshdt

variable {PublicKey : Type}

namespace Slot

/- A runner that goes on keeps its PTY. -/
theorem map_pty_prefix
    {runners : List Runner}
    {i : Nat}
    {runner runner' : Runner}
    (hRunner : runners[i]? = some runner)
    (hPty : runner'.pty = runner.pty) :
    runners.map Runner.pty <+:
      (runners.set i runner').map Runner.pty := by
  rcases List.getElem?_eq_some_iff.mp hRunner with
    ⟨hLength, hGet⟩
  have hSame :
      (runners.set i runner').map Runner.pty =
        runners.map Runner.pty := by
    apply List.ext_getElem?
    intro j
    rw [List.map_set, List.getElem?_set, List.getElem?_map]
    by_cases hIndex : i = j
    · subst hIndex
      simp [hGet, hPty, hLength]
    · simp [hIndex]
  rw [hSame]

/-
  A step adds resizes and runners at the end and takes none
  away.
-/
theorem step_grows
    {inner : ServerInner PublicKey}
    {slot slot' : Slot}
    {e : ChannelEvent}
    (hStep : slot.step inner e = some slot') :
    slot.resizes <+: slot'.resizes ∧
      slot.runners.map Runner.pty <+:
        slot'.runners.map Runner.pty := by
  have hSame :
      slot.resizes <+: slot.resizes ∧
        slot.runners.map Runner.pty <+:
          slot.runners.map Runner.pty :=
    ⟨List.prefix_rfl, List.prefix_rfl⟩
  have hRunner :
      ∀ runner,
        slot.resizes <+: slot.resizes ∧
          slot.runners.map Runner.pty <+:
            (slot.runners ++ [runner]).map Runner.pty := by
    intro runner
    rw [List.map_append]
    exact ⟨List.prefix_rfl, List.prefix_append ..⟩
  cases e with
  | opens =>
      simp only [step] at hStep
      split at hStep <;> [cases hStep; skip]
      cases hStep
      exact hSame
  | ptyReq term cols rows pixelWidth pixelHeight =>
      cases hStep
      exact hSame
  | env name value =>
      cases hStep
      unfold envRequest
      split <;> exact hSame
  | windowChange cols rows =>
      cases hStep
      unfold windowChangeRequest
      split
      · exact ⟨List.prefix_append .., List.prefix_rfl⟩
      · exact hSame
  | shell | exec =>
      cases hStep
      unfold startSession
      split
      · exact hSame
      · split
        · exact hRunner _
        · exact hSame
  | subsystem name =>
      cases hStep
      unfold subsystemRequest
      split
      · split
        · exact hSame
        · split
          · exact hRunner _
          · exact hSame
      · exact hSame
  | eof =>
      cases hStep
      unfold channelEof
      split <;> exact hSame
  | close =>
      cases hStep
      exact hSame
  | runEnds runner code =>
      simp only [step, runEnds] at hStep
      split at hStep <;> [rename_i hGet; cases hStep]
      cases hStep
      exact ⟨List.prefix_rfl, map_pty_prefix hGet rfl⟩
  | finish runner delivered =>
      simp only [step, finishChannel] at hStep
      split at hStep <;> [rename_i hGet; cases hStep]
      split at hStep <;> [skip; cases hStep]
      cases hStep
      exact ⟨List.prefix_rfl, map_pty_prefix hGet rfl⟩

theorem sessionPty_eq
    (slot : Slot) :
    slot.sessionPty =
      (slot.runners.map Runner.pty).head?.bind id := by
  rw [sessionPty, List.head?_map]
  cases slot.runners.head? with
  | none => rfl
  | some runner => rfl

/- The PTY of a session that was started stays. -/
theorem step_sessionPty
    {inner : ServerInner PublicKey}
    {slot slot' : Slot}
    {e : ChannelEvent}
    {pty : PtyRequest}
    (hPty : slot.sessionPty = some pty)
    (hStep : slot.step inner e = some slot') :
    slot'.sessionPty = some pty := by
  rw [sessionPty_eq] at hPty ⊢
  rcases (step_grows hStep).2 with ⟨added, hAdded⟩
  rw [← hAdded]
  cases hRunners : slot.runners.map Runner.pty with
  | nil => simp [hRunners] at hPty
  | cons first others =>
      rw [hRunners] at hPty
      exact hPty

end Slot

namespace Terminal

/- The last of some sizes, or another one. -/
def lastSize
    (spawned : TerminalSize)
    (resizes : List TerminalSize) : TerminalSize :=
  (resizes.getLast?.getD spawned).inForce

/-
  The size in force is that of the last resize taken, or the
  one that the PTY was spawned with.
-/
structure Inv
    (t : Terminal) : Prop where
  taken_le : t.taken ≤ t.slot.resizes.length
  size :
    ∀ size, t.size = some size →
      ∃ pty, t.slot.sessionPty = some pty ∧
        size =
          lastSize (pty.cols, pty.rows)
            (t.slot.resizes.take t.taken)
  unspawned : t.size = none → t.taken = 0

theorem client_inv
    {inner : ServerInner PublicKey}
    {t : Terminal}
    {slot : Slot}
    {e : ChannelEvent}
    (hInv : t.Inv)
    (hSlot : t.slot.step inner e = some slot) :
    Inv { t with slot } := by
  rcases (Slot.step_grows hSlot).1 with ⟨added, hAdded⟩
  refine ⟨?_, ?_, hInv.unspawned⟩
  · have hLe := hInv.taken_le
    simp only
    rw [← hAdded, List.length_append]
    omega
  · intro size hSize
    rcases hInv.size size hSize with ⟨pty, hPty, hLast⟩
    refine ⟨pty, Slot.step_sessionPty hPty hSlot, ?_⟩
    simp only
    rw [← hAdded, List.take_append_of_le_length hInv.taken_le]
    exact hLast

theorem spawn_inv
    {t t' : Terminal}
    (hInv : t.Inv)
    (hSpawn : t.spawn = some t') :
    t'.Inv := by
  unfold spawn at hSpawn
  split at hSpawn <;> [rename_i pty hSize hPty; cases hSpawn]
  cases hSpawn
  have hTaken := hInv.unspawned hSize
  refine ⟨hInv.taken_le, ?_, ?_⟩
  · intro size hSpawned
    cases hSpawned
    refine ⟨pty, hPty, ?_⟩
    simp only
    rw [hTaken]
    rfl
  · intro hNone
    cases hNone

theorem resize_inv
    {t t' : Terminal}
    (hInv : t.Inv)
    (hResize : t.resize = some t') :
    t'.Inv := by
  unfold resize at hResize
  split at hResize <;> [rename_i before size hSize hNext;
    cases hResize]
  cases hResize
  rcases hInv.size before hSize with ⟨pty, hPty, _⟩
  have hLess := (List.getElem?_eq_some_iff.mp hNext).1
  refine ⟨hLess, ?_, ?_⟩
  · intro after hAfter
    cases hAfter
    refine ⟨pty, hPty, ?_⟩
    simp only [lastSize]
    rw [List.take_add_one, hNext]
    simp
  · intro hNone
    cases hNone

theorem step_inv
    {inner : ServerInner PublicKey}
    {t t' : Terminal}
    {e : TerminalEvent}
    (hInv : t.Inv)
    (hStep : t.step inner e = some t') :
    t'.Inv := by
  cases e with
  | client event =>
      rcases Option.map_eq_some_iff.mp hStep with
        ⟨slot, hSlot, rfl⟩
      exact client_inv hInv hSlot
  | spawn => exact spawn_inv hInv hStep
  | resize => exact resize_inv hInv hStep

/- In every run: the size when all resizes are taken. -/
theorem reachable_size
    {inner : ServerInner PublicKey}
    {t : Terminal}
    (hReachable : (machine inner).Reachable t)
    (hProcessed : t.Processed) :
    ∃ pty, t.slot.sessionPty = some pty ∧
      t.size =
        some (lastSize (pty.cols, pty.rows)
          t.slot.resizes) := by
  have hInv : t.Inv := by
    refine hReachable.invariant ?_
      (fun _ _ _ hInv _ hStep => step_inv hInv hStep)
    refine ⟨Nat.le_refl _, ?_, fun _ => rfl⟩
    intro size hSize
    cases hSize
  rcases Option.isSome_iff_exists.mp hProcessed.1 with
    ⟨size, hSize⟩
  rcases hInv.size size hSize with ⟨pty, hPty, hLast⟩
  refine ⟨pty, hPty, ?_⟩
  rw [hSize, hLast, hProcessed.2, List.take_length]

/- The requests of a run, without the steps of the task. -/
def requests
    (events : List TerminalEvent) : List ChannelEvent :=
  events.filterMap fun
    | .client event => some event
    | .spawn | .resize => none

/- The channel depends on the requests only. -/
theorem exec_slot
    {inner : ServerInner PublicKey}
    {events : List TerminalEvent}
    {t t' : Terminal}
    (hRun : (machine inner).exec t events = some t') :
    (requests events).foldlM (Slot.step inner) t.slot =
      some t'.slot := by
  induction events generalizing t with
  | nil =>
      cases hRun
      rfl
  | cons e events ih =>
      rw [Machine.exec] at hRun
      cases hStep : (machine inner).step t e with
      | none =>
          rw [hStep] at hRun
          cases hRun
      | some u =>
          rw [hStep] at hRun
          have hRest := ih hRun
          cases e with
          | client event =>
              rcases Option.map_eq_some_iff.mp hStep with
                ⟨slot, hSlot, rfl⟩
              simp only [requests, List.filterMap_cons,
                List.foldlM_cons, hSlot]
              exact hRest
          | spawn =>
              have hSlot : u.slot = t.slot := by
                simp only [machine, step, spawn] at hStep
                split at hStep <;> [skip; cases hStep]
                cases hStep
                rfl
              rw [hSlot] at hRest
              exact hRest
          | resize =>
              have hSlot : u.slot = t.slot := by
                simp only [machine, step, resize] at hStep
                split at hStep <;> [skip; cases hStep]
                cases hStep
                rfl
              rw [hSlot] at hRest
              exact hRest

end Terminal

end Sshdt

------------------------------------------------------------
-- Requests With A Size
------------------------------------------------------------

namespace Sshdt

variable {PublicKey : Type}

/- The fields of a `pty-req`. -/
structure PtyReq where
  term : Text
  cols : UInt32
  rows : UInt32
  pixelWidth : UInt32
  pixelHeight : UInt32
  deriving DecidableEq, Repr

/- A request that asks for a size. -/
inductive SizeRequest where
  | ptyReq (req : PtyReq)
  | windowChange (cols rows : UInt32)
  deriving DecidableEq, Repr

namespace SizeRequest

def event : SizeRequest → ChannelEvent
| .ptyReq req =>
    .ptyReq req.term req.cols req.rows req.pixelWidth
      req.pixelHeight
| .windowChange cols rows => .windowChange cols rows

/- The size that is asked for. -/
def asked : SizeRequest → UInt32 × UInt32
| .ptyReq req => (req.cols, req.rows)
| .windowChange cols rows => (cols, rows)

/- The PTY request in force after another request. -/
def ptyAfter
    (pty : PtyReq) : SizeRequest → PtyReq
| .ptyReq req => req
| .windowChange _ _ => pty

end SizeRequest

/-
  The requests on a channel: a `pty-req`, more requests with
  a size, the start of the session, and window changes.
-/
structure SizeRequests where
  first : PtyReq
  before : List SizeRequest
  kind : SessionKindReq
  after : List (UInt32 × UInt32)

/- The request that starts a session of a kind. -/
def SessionKindReq.startEvent : SessionKindReq → ChannelEvent
| .shell => .shell
| .exec command => .exec command

namespace SizeRequests

def events
    (r : SizeRequests) : List ChannelEvent :=
  [.opens, (SizeRequest.ptyReq r.first).event] ++
    r.before.map SizeRequest.event ++ [r.kind.startEvent] ++
    r.after.map fun size => .windowChange size.1 size.2

/- The last `pty-req` before the start. -/
def lastPty
    (r : SizeRequests) : PtyReq :=
  r.before.foldl SizeRequest.ptyAfter r.first

/- The size that was asked for last. -/
def lastAsked
    (r : SizeRequests) : UInt32 × UInt32 :=
  r.after.getLast?.getD
    ((r.before.getLast?.map SizeRequest.asked).getD
      (r.first.cols, r.first.rows))

/- The last size that gets to the task. -/
def lastReached
    (r : SizeRequests) : UInt32 × UInt32 :=
  r.after.getLast?.getD (r.lastPty.cols, r.lastPty.rows)

/- A number clamped to the range of terminal sizes. -/
def clamped
    (v : UInt32) : UInt16 :=
  UInt16.ofNat (max 1 (min v.toNat 65535))

/- The size that the terminal should have. -/
def wanted
    (r : SizeRequests) : TerminalSize :=
  (clamped r.lastAsked.1, clamped r.lastAsked.2)

end SizeRequests

/- The handler narrows a size to 16 bits. -/
def narrowed
    (size : UInt32 × UInt32) : TerminalSize :=
  (size.1.toUInt16, size.2.toUInt16)

/- What the handler keeps of a `pty-req`. -/
def PtyReq.kept
    (req : PtyReq) : PtyRequest where
  term := req.term
  cols := req.cols.toUInt16
  rows := req.rows.toUInt16
  pixelWidth := req.pixelWidth.toUInt16
  pixelHeight := req.pixelHeight.toUInt16

namespace Slot

/- A channel on which no session has been started. -/
structure Waiting
    (slot : Slot)
    (pty : PtyReq) : Prop where
  state :
    ∃ st, slot.state = some st ∧ st.channel = true ∧
      st.resize = false ∧ st.pty = some pty.kept
  runners : slot.runners = []
  resizes : slot.resizes = []

/- Before the start, the last `pty-req` is all that counts. -/
theorem step_waiting
    {inner : ServerInner PublicKey}
    {slot : Slot}
    {pty : PtyReq}
    (hWaiting : slot.Waiting pty)
    (request : SizeRequest) :
    ∃ slot',
      slot.step inner request.event = some slot' ∧
        slot'.Waiting (request.ptyAfter pty) := by
  rcases hWaiting with
    ⟨⟨st, hState, hChannel, hResize, hPty⟩, hRunners,
      hResizes⟩
  cases request with
  | ptyReq req =>
      refine ⟨_, rfl, ⟨⟨{ st with pty := some req.kept }, ?_,
        hChannel, hResize, rfl⟩, hRunners, hResizes⟩⟩
      simp only [ptyRequest, reply, hState, Option.map_some]
      rfl
  | windowChange cols rows =>
      refine ⟨slot, ?_, ⟨⟨st, hState, hChannel, hResize,
        hPty⟩, hRunners, hResizes⟩⟩
      simp only [SizeRequest.event, step,
        windowChangeRequest, hState]
      simp [hResize]

theorem foldlM_waiting
    {inner : ServerInner PublicKey}
    {slot : Slot}
    {pty : PtyReq}
    (hWaiting : slot.Waiting pty)
    (requests : List SizeRequest) :
    ∃ slot',
      (requests.map SizeRequest.event).foldlM
          (Slot.step inner) slot = some slot' ∧
        slot'.Waiting
          (requests.foldl SizeRequest.ptyAfter pty) := by
  induction requests generalizing slot pty with
  | nil => exact ⟨slot, rfl, hWaiting⟩
  | cons request requests ih =>
      rcases step_waiting hWaiting request with
        ⟨next, hStep, hNext⟩
      rcases ih hNext with ⟨slot', hRest, hWaiting'⟩
      refine ⟨slot', ?_, hWaiting'⟩
      rw [List.map_cons, List.foldlM_cons, hStep]
      exact hRest

/- A channel whose session takes resizes. -/
structure Started
    (slot : Slot)
    (pty : PtyReq)
    (sizes : List (UInt32 × UInt32)) : Prop where
  state : slot.state.any ChannelState.resize = true
  sessionPty : slot.sessionPty = some pty.kept
  resizes : slot.resizes = sizes.map narrowed

theorem step_start
    {inner : ServerInner PublicKey}
    {slot : Slot}
    {pty : PtyReq}
    (hWaiting : slot.Waiting pty)
    (kind : SessionKindReq) :
    ∃ slot',
      slot.step inner kind.startEvent = some slot' ∧
        slot'.Started pty [] := by
  rcases hWaiting with
    ⟨⟨st, hState, hChannel, _, hPty⟩, hRunners, hResizes⟩
  have hStart :
      (slot.startSession inner kind).Started pty [] := by
    simp only [startSession, hState, hChannel, if_true]
    refine ⟨rfl, ?_, hResizes⟩
    simp only [sessionPty, hRunners, List.nil_append,
      List.head?_cons, Option.bind_some, Runner.pty]
    cases kind with
    | shell => exact hPty
    | exec command => exact hPty
  cases kind with
  | shell => exact ⟨_, rfl, hStart⟩
  | exec command => exact ⟨_, rfl, hStart⟩

/- After the start, every window change is a resize. -/
theorem foldlM_started
    {inner : ServerInner PublicKey}
    {slot : Slot}
    {pty : PtyReq}
    {sizes : List (UInt32 × UInt32)}
    (hStarted : slot.Started pty sizes)
    (after : List (UInt32 × UInt32)) :
    ∃ slot',
      (after.map fun size =>
          ChannelEvent.windowChange size.1 size.2).foldlM
          (Slot.step inner) slot = some slot' ∧
        slot'.Started pty (sizes ++ after) := by
  induction after generalizing slot sizes with
  | nil =>
      refine ⟨slot, rfl, ?_⟩
      rw [List.append_nil]
      exact hStarted
  | cons size after ih =>
      have hNext :
          (slot.windowChangeRequest size.1 size.2).Started
            pty (sizes ++ [size]) := by
        rw [windowChangeRequest, if_pos hStarted.state]
        refine ⟨hStarted.state, hStarted.sessionPty, ?_⟩
        simp only
        rw [hStarted.resizes, List.map_append]
        rfl
      rcases ih hNext with ⟨slot', hRest, hStarted'⟩
      refine ⟨slot', hRest, ?_⟩
      rwa [List.append_assoc, List.singleton_append]
        at hStarted'

end Slot

end Sshdt

------------------------------------------------------------
-- The Size That Was Asked For
------------------------------------------------------------

namespace Sshdt

variable {PublicKey : Type}

namespace SizeRequests

/- The channel after all requests. -/
theorem foldlM_events
    (inner : ServerInner PublicKey)
    (r : SizeRequests) :
    ∃ slot,
      r.events.foldlM (Slot.step inner) Slot.fresh =
          some slot ∧
        slot.Started r.lastPty r.after := by
  have hFirst :
      ((Slot.fresh.channelOpenSession).ptyRequest r.first.term
        r.first.cols r.first.rows r.first.pixelWidth
        r.first.pixelHeight).Waiting r.first :=
    ⟨⟨_, rfl, rfl, rfl, rfl⟩, rfl, rfl⟩
  rcases @Slot.foldlM_waiting _ inner _ _ hFirst r.before with
    ⟨waiting, hBefore, hWaiting⟩
  rcases @Slot.step_start _ inner _ _ hWaiting r.kind with
    ⟨started, hStart, hStarted⟩
  rcases @Slot.foldlM_started _ inner _ _ _ hStarted r.after
    with ⟨slot, hAfter, hAll⟩
  have hOpen :
      [ChannelEvent.opens,
          (SizeRequest.ptyReq r.first).event].foldlM
          (Slot.step inner) Slot.fresh =
        some ((Slot.fresh.channelOpenSession).ptyRequest
          r.first.term r.first.cols r.first.rows
          r.first.pixelWidth r.first.pixelHeight) := by
    rfl
  refine ⟨slot, ?_, hAll⟩
  simp only [events, List.foldlM_append, List.foldlM_cons,
    List.foldlM_nil] at hOpen ⊢
  rw [hOpen]
  simp only [Option.bind_eq_bind, Option.bind_some, hBefore,
    hStart, Option.pure_def, hAfter]

/- The size in force is the last one that got to the task. -/
theorem exec_size
    {inner : ServerInner PublicKey}
    {r : SizeRequests}
    {run : List TerminalEvent}
    {t : Terminal}
    (hRun :
      (Terminal.machine inner).exec
          (Terminal.machine inner).init run = some t)
    (hRequests : Terminal.requests run = r.events)
    (hProcessed : t.Processed) :
    t.size =
      some (TerminalSize.inForce (narrowed r.lastReached)) := by
  have hReachable : (Terminal.machine inner).Reachable t :=
    Machine.Reaches.exec .init
      (Machine.meetsAll_true _ run) hRun
  rcases Terminal.reachable_size hReachable hProcessed with
    ⟨pty, hPty, hSize⟩
  have hSlot := Terminal.exec_slot hRun
  rcases foldlM_events inner r with ⟨slot, hEvents, hStarted⟩
  rw [hRequests] at hSlot
  have hSame : t.slot = slot :=
    Option.some.inj (hSlot.symm.trans hEvents)
  subst hSame
  rw [hStarted.sessionPty] at hPty
  cases hPty
  rw [hSize, Terminal.lastSize, hStarted.resizes,
    lastReached, List.getLast?_map]
  cases r.after.getLast? with
  | none => rfl
  | some size => rfl

/- The task can always catch up with its resizes. -/
theorem exec_resizes
    {inner : ServerInner PublicKey}
    {t : Terminal}
    {n : Nat}
    (hSize : t.size.isSome = true)
    (hLeft : t.taken + n = t.slot.resizes.length) :
    ∃ t',
      (Terminal.machine inner).exec t
          (List.replicate n .resize) = some t' ∧
        t'.Processed := by
  induction n generalizing t with
  | zero => exact ⟨t, rfl, hSize, hLeft⟩
  | succ n ih =>
      rcases Option.isSome_iff_exists.mp hSize with
        ⟨before, hBefore⟩
      have hLess : t.taken < t.slot.resizes.length := by
        omega
      have hNext :=
        List.getElem?_eq_getElem hLess
      have hStep :
          (Terminal.machine inner).step t .resize =
            some { t with
              size := some
                (TerminalSize.inForce t.slot.resizes[t.taken])
              taken := t.taken + 1 } := by
        simp only [Terminal.machine, Terminal.step,
          Terminal.resize, hBefore, hNext]
      rcases @ih
        { t with
          size := some
            (TerminalSize.inForce t.slot.resizes[t.taken])
          taken := t.taken + 1 } rfl (by simp; omega) with
        ⟨t', hRest, hProcessed⟩
      refine ⟨t', ?_, hProcessed⟩
      rw [List.replicate_succ, Machine.exec_cons]
      exact ⟨_, hStep, hRest⟩

theorem exec_clients
    {inner : ServerInner PublicKey}
    {events : List ChannelEvent}
    {t : Terminal}
    {slot : Slot}
    (hEvents :
      events.foldlM (Slot.step inner) t.slot = some slot) :
    (Terminal.machine inner).exec t (events.map .client) =
      some { t with slot } := by
  induction events generalizing t with
  | nil =>
      cases hEvents
      rfl
  | cons e events ih =>
      rw [List.foldlM_cons] at hEvents
      rcases Option.bind_eq_some_iff.mp hEvents with
        ⟨next, hStep, hRest⟩
      rw [List.map_cons, Machine.exec_cons]
      refine ⟨{ t with slot := next }, ?_, ?_⟩
      · simp only [Terminal.machine, Terminal.step, hStep,
          Option.map_some]
      · exact @ih { t with slot := next } hRest

/- Every such list of requests has runs that process it. -/
theorem exists_processed
    (inner : ServerInner PublicKey)
    (r : SizeRequests) :
    ∃ run t,
      (Terminal.machine inner).exec
          (Terminal.machine inner).init run = some t ∧
        Terminal.requests run = r.events ∧ t.Processed := by
  rcases foldlM_events inner r with ⟨slot, hEvents, hStarted⟩
  have hClients :=
    @exec_clients _ inner r.events Terminal.fresh slot hEvents
  have hSpawn :
      (Terminal.machine inner).step
          { Terminal.fresh with slot } .spawn =
        some
          { slot
            size := some (TerminalSize.inForce
              (r.lastPty.kept.cols, r.lastPty.kept.rows))
            taken := 0 } := by
    simp only [Terminal.machine, Terminal.step,
      Terminal.spawn, Terminal.fresh, hStarted.sessionPty]
  rcases @exec_resizes _ inner
    { slot
      size := some (TerminalSize.inForce
        (r.lastPty.kept.cols, r.lastPty.kept.rows))
      taken := 0 } slot.resizes.length rfl (Nat.zero_add _)
    with ⟨t, hResizes, hProcessed⟩
  refine ⟨r.events.map .client ++ .spawn ::
    List.replicate slot.resizes.length .resize, t, ?_, ?_,
    hProcessed⟩
  · rw [Machine.exec_append]
    refine ⟨_, hClients, ?_⟩
    rw [Machine.exec_cons]
    exact ⟨_, hSpawn, hResizes⟩
  · simp [Terminal.requests, List.filterMap_append,
      List.filterMap_map]

/- The number got is the number wanted, clamped. -/
def Agrees
    (got wanted : UInt32) : Prop :=
  max 1 (got.toNat % 65536) = max 1 (min wanted.toNat 65535)

/- A number whose low 16 bits do for it. -/
def Fits
    (v : UInt32) : Prop :=
  v.toNat ≤ 65535 ∨ v.toNat % 65536 = 65535

theorem agrees_self_iff
    (v : UInt32) :
    Agrees v v ↔ Fits v := by
  unfold Agrees Fits
  omega

theorem toNat_atLeastOne
    (v : UInt16) :
    (atLeastOne v).toNat = max 1 v.toNat := by
  unfold atLeastOne
  split
  · rename_i hZero
    rw [UInt16.lt_iff_toNat_lt] at hZero
    have hOne : (1 : UInt16).toNat = 1 := rfl
    omega
  · rename_i hSome
    rw [UInt16.lt_iff_toNat_lt] at hSome
    have hOne : (1 : UInt16).toNat = 1 := rfl
    omega

theorem atLeastOne_eq_clamped_iff
    (got wanted : UInt32) :
    atLeastOne got.toUInt16 = clamped wanted ↔
      Agrees got wanted := by
  have hClamped :
      (clamped wanted).toNat =
        max 1 (min wanted.toNat 65535) := by
    rw [clamped, UInt16.toNat_ofNat_of_lt']
    have hSize : UInt16.size = 65536 := rfl
    omega
  rw [← UInt16.toNat_inj, toNat_atLeastOne, hClamped,
    UInt32.toNat_toUInt16]
  rfl

/-
  When the terminal has the size that was asked for last. The
  numbers of the request that the task gets last do with
  their low 16 bits; or that request is the last `pty-req`,
  a window change before the start came after it, and the two
  come to the same size.
-/
def ReachesTerminal
    (r : SizeRequests) : Prop :=
  match r.after.getLast?, r.before.getLast? with
  | some size, _ => Fits size.1 ∧ Fits size.2
  | none, some (.windowChange cols rows) =>
      Agrees r.lastPty.cols cols ∧
        Agrees r.lastPty.rows rows
  | none, some (.ptyReq req) => Fits req.cols ∧ Fits req.rows
  | none, none => Fits r.first.cols ∧ Fits r.first.rows

theorem lastPty_of_ptyReq
    {r : SizeRequests}
    {req : PtyReq}
    (hLast : r.before.getLast? = some (.ptyReq req)) :
    r.lastPty = req := by
  rcases List.getLast?_eq_some_iff.mp hLast with
    ⟨earlier, hBefore⟩
  rw [lastPty, hBefore, List.foldl_append]
  rfl

theorem reachesTerminal_iff
    (r : SizeRequests) :
    r.ReachesTerminal ↔
      Agrees r.lastReached.1 r.lastAsked.1 ∧
        Agrees r.lastReached.2 r.lastAsked.2 := by
  unfold ReachesTerminal lastReached lastAsked
  cases hAfter : r.after.getLast? with
  | some size =>
      simp only [Option.getD_some]
      rw [agrees_self_iff, agrees_self_iff]
  | none =>
      cases hBefore : r.before.getLast? with
      | none =>
          have hEmpty := List.getLast?_eq_none_iff.mp hBefore
          have hPty : r.lastPty = r.first := by
            rw [lastPty, hEmpty]
            rfl
          simp only [Option.getD_none, Option.map_none, hPty]
          rw [agrees_self_iff, agrees_self_iff]
      | some request =>
          cases request with
          | ptyReq req =>
              simp only [Option.getD_none, Option.map_some,
                Option.getD_some, SizeRequest.asked,
                lastPty_of_ptyReq hBefore]
              rw [agrees_self_iff, agrees_self_iff]
          | windowChange cols rows => rfl

/-
  In every run with these requests, once the PTY is spawned
  and all resizes are taken, the size in force is the one
  asked for last exactly when that request gets through.
-/
theorem size_iff
    {inner : ServerInner PublicKey}
    {r : SizeRequests}
    {run : List TerminalEvent}
    {t : Terminal}
    (hRun :
      (Terminal.machine inner).exec
          (Terminal.machine inner).init run = some t)
    (hRequests : Terminal.requests run = r.events)
    (hProcessed : t.Processed) :
    t.size = some r.wanted ↔ r.ReachesTerminal := by
  rw [exec_size hRun hRequests hProcessed,
    reachesTerminal_iff, Option.some.injEq]
  simp only [TerminalSize.inForce, narrowed, wanted,
    Prod.mk.injEq, atLeastOne_eq_clamped_iff]

/- A window change that comes before the shell. -/
def earlyChange : SizeRequests where
  first :=
    { term := "xterm".toList, cols := 80, rows := 24
      pixelWidth := 0, pixelHeight := 0 }
  before := [.windowChange 100 30]
  kind := .shell
  after := []

/- A terminal of 65616 columns, which is 80 in 16 bits. -/
def wideTerminal : SizeRequests where
  first :=
    { term := "xterm".toList, cols := 65616, rows := 24
      pixelWidth := 0, pixelHeight := 0 }
  before := []
  kind := .shell
  after := []

/- The requests one after the other, then the spawn. -/
def spawnedLast
    (r : SizeRequests) : List TerminalEvent :=
  r.events.map .client ++ [.spawn]

theorem size_not_wanted :
    (∃ t,
      (Terminal.machine Channels.shellServer).exec
          (Terminal.machine Channels.shellServer).init
          earlyChange.spawnedLast = some t ∧
        Terminal.requests earlyChange.spawnedLast =
          earlyChange.events ∧
        t.Processed ∧ t.size = some (80, 24) ∧
        earlyChange.wanted = (100, 30)) ∧
      ∃ t,
        (Terminal.machine Channels.shellServer).exec
            (Terminal.machine Channels.shellServer).init
            wideTerminal.spawnedLast = some t ∧
          Terminal.requests wideTerminal.spawnedLast =
            wideTerminal.events ∧
          t.Processed ∧ t.size = some (80, 24) ∧
          wideTerminal.wanted = (65535, 24) := by
  refine ⟨⟨_, rfl, rfl, ⟨rfl, rfl⟩, rfl, ?_⟩, _, rfl, rfl,
    ⟨rfl, rfl⟩, rfl, ?_⟩
  · decide
  · decide

/- A resize after the start, as the shell sees it. -/
def lateChange : SizeRequests where
  first :=
    { term := "xterm".toList, cols := 80, rows := 24
      pixelWidth := 0, pixelHeight := 0 }
  before := []
  kind := .shell
  after := [(120, 40)]

theorem lateChange_size :
    ∃ t,
      (Terminal.machine Channels.shellServer).exec
          (Terminal.machine Channels.shellServer).init
          (lateChange.spawnedLast ++ [.resize]) = some t ∧
        t.Processed ∧
        (t.size = some lateChange.wanted ↔
          lateChange.ReachesTerminal) ∧
        lateChange.ReachesTerminal := by
  have hFits : lateChange.ReachesTerminal :=
    ⟨Or.inl (by decide), Or.inl (by decide)⟩
  refine ⟨_, rfl, ⟨rfl, rfl⟩, ?_, hFits⟩
  exact @size_iff Unit Channels.shellServer lateChange
    (lateChange.spawnedLast ++ [.resize]) _ rfl rfl
    ⟨rfl, rfl⟩

end SizeRequests

end Sshdt

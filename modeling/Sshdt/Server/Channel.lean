import Sshdt.Server.Builder

/-
  Session channels (`src/handler.rs`) and the closing
  messages of their runners (`finish_channel` in
  `src/session.rs`).

  A channel is followed from its opening on: the state that
  the handler keeps for it, the runners that were started on
  it and every message that the server sent on it. The
  channels of a connection are a function from their ids.

  Key definitions include:
    * `ChannelState`
    * `Slot`
    * `Slot.startSession`
    * `Slot.subsystemRequest`
    * `Slot.channelEof`
    * `Slot.step`
    * `Channels.machine`
    * `Slot.WellBehaved`
    * `Slot.EofAllowed`

  Key theorems include:
    * `Slot.step_answer`
    * `Slot.step_inv`
    * `Channels.channel_lifecycle`
-/

------------------------------------------------------------
-- Channel State
------------------------------------------------------------

namespace Sshdt

/- `ChannelState`; a sent channel leaves `false` behind. -/
structure ChannelState where
  channel : Bool
  pty : Option PtyRequest
  env : List (Text × Text)
  resize : Bool
  sftp : Bool
  deriving DecidableEq, Repr

/- The state of a channel that has just been opened. -/
def ChannelState.opened : ChannelState where
  channel := true
  pty := none
  env := []
  resize := false
  sftp := false

/- `SessionKindReq`. -/
inductive SessionKindReq where
  | shell
  | exec (command : Text)
  deriving DecidableEq, Repr

/- The session request of a kind. -/
def SessionKindReq.request
    (pty : Option PtyRequest) :
    SessionKindReq → SessionRequest
  | .shell => .shell pty
  | .exec command => .exec command pty

/-
  How far a session task is: its run goes on, or it has
  ended with a code and so many closing messages were sent.
-/
inductive Progress where
  | running
  | ended (code : UInt32) (sent : Nat)
  deriving DecidableEq, Repr

/- A task that was started on a channel. -/
inductive Runner where
  | session
      (request : SessionRequest)
      (command : SessionCommand)
      (env : List (Text × Text))
      (progress : Progress)
  | sftp (root : Option PathBuf)
  deriving DecidableEq, Repr

/- What the server sends on a channel. -/
inductive Reply where
  | success
  | failure
  | exitStatus (code : UInt32)
  | eof
  | close
  deriving DecidableEq, Repr

/- The messages that end a channel. -/
def Reply.isClosing : Reply → Bool
  | .exitStatus _ | .eof | .close => true
  | .success | .failure => false

/- The messages of `finish_channel`, in their order. -/
def closingMessages
    (code : UInt32) : List Reply :=
  [.exitStatus code, .eof, .close]

/- A channel with what was started and sent on it. -/
structure Slot where
  opened : Bool
  state : Option ChannelState
  runners : List Runner
  replies : List Reply
  resizes : List (UInt16 × UInt16)
  deriving DecidableEq, Repr

namespace Slot

/- A channel that has not been opened. -/
def fresh : Slot where
  opened := false
  state := none
  runners := []
  replies := []
  resizes := []

/- The closing messages sent so far. -/
def closing
    (slot : Slot) : List Reply :=
  slot.replies.filter Reply.isClosing

/- The channel with further messages sent. -/
def reply
    (slot : Slot)
    (replies : List Reply) : Slot :=
  { slot with replies := slot.replies ++ replies }

end Slot

end Sshdt

------------------------------------------------------------
-- Requests
------------------------------------------------------------

namespace Sshdt

variable {PublicKey : Type}

/- `env_allowed`. -/
def envAllowed
    (name : Text)
    (allowlist : List Text) : Bool :=
  allowlist.any fun pattern =>
    if pattern.getLast? = some '*' then
      pattern.dropLast.isPrefixOf name
    else
      name = pattern

namespace Slot

/- `channel_open_session`. -/
def channelOpenSession
    (slot : Slot) : Slot :=
  { slot with opened := true, state := some .opened }

/- `pty_request`. -/
def ptyRequest
    (slot : Slot)
    (term : Text)
    (colWidth rowHeight pixWidth pixHeight : UInt32) : Slot :=
  let pty : PtyRequest :=
    { term
      cols := colWidth.toUInt16
      rows := rowHeight.toUInt16
      pixelWidth := pixWidth.toUInt16
      pixelHeight := pixHeight.toUInt16 }
  { slot.reply [.success] with
    state := slot.state.map fun st =>
      { st with pty := some pty } }

/- `env_request`. -/
def envRequest
    (inner : ServerInner PublicKey)
    (slot : Slot)
    (name value : Text) : Slot :=
  if envAllowed name inner.acceptEnv then
    { slot.reply [.success] with
      state := slot.state.map fun st =>
        { st with env := st.env ++ [(name, value)] } }
  else
    slot.reply [.failure]

/- `window_change_request`. -/
def windowChangeRequest
    (slot : Slot)
    (colWidth rowHeight : UInt32) : Slot :=
  if slot.state.any ChannelState.resize then
    { slot with
      resizes := slot.resizes ++
        [(colWidth.toUInt16, rowHeight.toUInt16)] }
  else
    slot

/- `start_session`. -/
def startSession
    (inner : ServerInner PublicKey)
    (slot : Slot)
    (kind : SessionKindReq) : Slot :=
  match slot.state with
  | none => slot.reply [.failure]
  | some st =>
      if st.channel then
        let request := kind.request st.pty
        let runner := Runner.session request
          (inner.commandResolver request) st.env .running
        { slot.reply [.success] with
          state := some { st with
            channel := false, env := [], resize := true }
          runners := slot.runners ++ [runner] }
      else
        slot.reply [.failure]

/-
  `subsystem_request`. The SFTP flag is set before the
  channel is taken, so also when the request is refused.
-/
def subsystemRequest
    (inner : ServerInner PublicKey)
    (slot : Slot)
    (name : Text) : Slot :=
  if name = "sftp".toList then
    match slot.state with
    | none => slot.reply [.failure]
    | some st =>
        if st.channel then
          { slot.reply [.success] with
            state := some { st with
              channel := false, sftp := true }
            runners := slot.runners ++
              [.sftp inner.sftpRoot] }
        else
          { slot.reply [.failure] with
            state := some { st with sftp := true } }
  else
    slot.reply [.failure]

/- `channel_eof`. -/
def channelEof
    (slot : Slot) : Slot :=
  if slot.state.any ChannelState.sftp then
    slot.reply (closingMessages 0)
  else
    slot

/- `channel_close`. -/
def channelClose
    (slot : Slot) : Slot :=
  { slot with state := none }

end Slot

end Sshdt

------------------------------------------------------------
-- Steps
------------------------------------------------------------

namespace Sshdt

variable {PublicKey : Type}

/-
  A message of the client on a channel, or a step of a task
  that runs on it. A command arrives as the text that its
  bytes decode to.
-/
inductive ChannelEvent where
  | opens
  | ptyReq
      (term : Text)
      (cols rows pixelWidth pixelHeight : UInt32)
  | env (name value : Text)
  | windowChange (cols rows : UInt32)
  | shell
  | exec (command : Text)
  | subsystem (name : Text)
  | eof
  | close
  | runEnds (runner : Nat) (code : UInt32)
  | finish (runner : Nat) (delivered : Bool)
  deriving DecidableEq, Repr

/- The requests that may start a runner. -/
def ChannelEvent.isRequest : ChannelEvent → Bool
  | .shell | .exec _ | .subsystem _ => true
  | _ => false

namespace Slot

/- The run of a session task ends with its exit code. -/
def runEnds
    (slot : Slot)
    (runner : Nat)
    (code : UInt32) : Option Slot :=
  match slot.runners[runner]? with
  | some (.session request command env .running) =>
      some { slot with
        runners := slot.runners.set runner
          (.session request command env (.ended code 0)) }
  | _ => none

/-
  `finish_channel` sends its next message; a failed send is
  skipped.
-/
def finishChannel
    (slot : Slot)
    (runner : Nat)
    (delivered : Bool) : Option Slot :=
  match slot.runners[runner]? with
  | some (.session request command env (.ended code sent)) =>
      match (closingMessages code)[sent]? with
      | some message =>
          some { slot.reply
              (if delivered then [message] else []) with
            runners := slot.runners.set runner
              (.session request command env
                (.ended code (sent + 1))) }
      | none => none
  | _ => none

def step
    (inner : ServerInner PublicKey)
    (slot : Slot) : ChannelEvent → Option Slot
  | .opens =>
      if slot.opened then none else some slot.channelOpenSession
  | .ptyReq term cols rows pixelWidth pixelHeight =>
      some (slot.ptyRequest term cols rows pixelWidth
        pixelHeight)
  | .env name value => some (slot.envRequest inner name value)
  | .windowChange cols rows =>
      some (slot.windowChangeRequest cols rows)
  | .shell => some (slot.startSession inner .shell)
  | .exec command =>
      some (slot.startSession inner (.exec command))
  | .subsystem name => some (slot.subsystemRequest inner name)
  | .eof => some slot.channelEof
  | .close => some slot.channelClose
  | .runEnds runner code => slot.runEnds runner code
  | .finish runner delivered =>
      slot.finishChannel runner delivered

end Slot

/- `russh::ChannelId`. -/
abbrev ChannelId := UInt32

/- The channels of one connection. -/
abbrev Channels := ChannelId → Slot

namespace Channels

def step
    (inner : ServerInner PublicKey)
    (s : Channels)
    (e : ChannelId × ChannelEvent) : Option Channels :=
  ((s e.1).step inner e.2).map fun slot =>
    Function.update s e.1 slot

def machine
    (inner : ServerInner PublicKey) :
    Machine Channels (ChannelId × ChannelEvent) where
  init := fun _ => .fresh
  step := step inner

end Channels

end Sshdt

------------------------------------------------------------
-- Lifecycle
------------------------------------------------------------

namespace Sshdt

variable {PublicKey : Type}

/- The runner serves SFTP. -/
def Runner.isSftp : Runner → Bool
  | .sftp _ => true
  | .session _ _ _ _ => false

namespace Slot

/-
  What a well-behaved channel looks like at any time: at
  most one runner was started; exit status, end of file and
  close were each sent at most once and in this order; and
  a session sends them after its run has ended, with the
  code of that run.
-/
structure WellBehaved
    (slot : Slot) : Prop where
  runners : slot.runners.length ≤ 1
  closing :
    ∃ code, slot.closing.Sublist (closingMessages code)
  sessions :
    ∀ request command env progress,
      .session request command env progress ∈ slot.runners →
        slot.closing ≠ [] →
          ∃ code sent,
            progress = .ended code sent ∧
              slot.closing.Sublist (closingMessages code)

/-
  An end of file on a channel with the SFTP flag reaches an
  SFTP runner that has not been closed yet.
-/
def EofAllowed
    (slot : Slot) : ChannelEvent → Prop
  | .eof =>
      slot.state.any ChannelState.sftp = true →
        slot.closing = [] ∧
          slot.runners.all Runner.isSftp = true
  | _ => True

instance decidableEofAllowed
    (slot : Slot) :
    (e : ChannelEvent) → Decidable (slot.EofAllowed e)
  | .eof =>
      inferInstanceAs (Decidable
        (slot.state.any ChannelState.sftp = true →
          slot.closing = [] ∧
            slot.runners.all Runner.isSftp = true))
  | .opens | .ptyReq _ _ _ _ _ | .env _ _
  | .windowChange _ _ | .shell | .exec _ | .subsystem _
  | .close | .runEnds _ _ | .finish _ _ =>
      .isTrue trivial

/- The closing messages that fit the runner of a channel. -/
def ClosingFits
    (runners : List Runner)
    (closing : List Reply) : Prop :=
  match runners with
  | [] => closing = []
  | [.sftp _] => closing = [] ∨ closing = closingMessages 0
  | [.session _ _ _ .running] => closing = []
  | [.session _ _ _ (.ended code sent)] =>
      closing.Sublist ((closingMessages code).take sent)
  | _ => False

structure Inv
    (slot : Slot) : Prop where
  unopened :
    slot.opened = false →
      slot.state = none ∧ slot.runners = []
  channel :
    ∀ st, slot.state = some st →
      (st.channel = true ↔ slot.runners = [])
  sftp :
    ∀ st, slot.state = some st →
      st.sftp = true → slot.runners ≠ []
  closing : ClosingFits slot.runners slot.closing

theorem fresh_inv : fresh.Inv := by
  constructor <;> simp [fresh, closing, ClosingFits]

@[simp]
theorem closing_reply
    (slot : Slot)
    (replies : List Reply) :
    (slot.reply replies).closing =
      slot.closing ++ replies.filter Reply.isClosing := by
  simp [reply, closing]

/-
  A step that starts no runner, sends no closing message
  and keeps what the invariant reads of the state.
-/
theorem Inv.frame
    {slot slot' : Slot}
    (hInv : slot.Inv)
    (hOpened : slot'.opened = slot.opened)
    (hRunners : slot'.runners = slot.runners)
    (hClosing : slot'.closing = slot.closing)
    (hNone : slot.state = none → slot'.state = none)
    (hState :
      ∀ st', slot'.state = some st' →
        ∃ st, slot.state = some st ∧
          st'.channel = st.channel ∧
          (st'.sftp = true → slot.runners ≠ [])) :
    slot'.Inv where
  unopened := by
    intro hNot
    rw [hOpened] at hNot
    rcases hInv.unopened hNot with ⟨hGone, hEmpty⟩
    exact ⟨hNone hGone, hRunners.trans hEmpty⟩
  channel := by
    intro st' hSome
    rcases hState st' hSome with ⟨st, hOld, hSame, _⟩
    rw [hSame, hRunners]
    exact hInv.channel st hOld
  sftp := by
    intro st' hSome hFlag
    rcases hState st' hSome with ⟨st, hOld, _, hSftp⟩
    rw [hRunners]
    exact hSftp hFlag
  closing := by
    rw [hRunners, hClosing]
    exact hInv.closing

/- A refused request, which may still set the SFTP flag. -/
theorem Inv.reply_failure
    {slot : Slot}
    (hInv : slot.Inv) :
    (slot.reply [.failure]).Inv :=
  hInv.frame rfl rfl (by simp [Reply.isClosing])
    (fun hGone => hGone)
    (fun st hSome => ⟨st, hSome, rfl, hInv.sftp st hSome⟩)

/-
  Starting the runner: the channel was still there, so
  nothing ran and nothing was closed before.
-/
theorem Inv.start
    {slot slot' : Slot}
    {st st' : ChannelState}
    {runner : Runner}
    (hInv : slot.Inv)
    (hState : slot.state = some st)
    (hChannel : st.channel = true)
    (hState' : slot'.state = some st')
    (hTaken : st'.channel = false)
    (hOpened : slot'.opened = slot.opened)
    (hRunners : slot'.runners = slot.runners ++ [runner])
    (hClosing : slot'.closing = slot.closing)
    (hFits : ClosingFits [runner] []) :
    slot'.Inv := by
  have hEmpty := (hInv.channel st hState).mp hChannel
  have hNothing : slot.closing = [] := by
    have hOld := hInv.closing
    rw [hEmpty] at hOld
    exact hOld
  rw [hEmpty, List.nil_append] at hRunners
  refine ⟨?_, ?_, ?_, ?_⟩
  · intro hNot
    rw [hOpened] at hNot
    simp [(hInv.unopened hNot).1] at hState
  · intro other hOther
    rw [hState'] at hOther
    cases hOther
    simp [hTaken, hRunners]
  · simp [hRunners]
  · rw [hRunners, hClosing, hNothing]
    exact hFits

theorem startSession_inv
    (inner : ServerInner PublicKey)
    {slot : Slot}
    (hInv : slot.Inv)
    (kind : SessionKindReq) :
    (slot.startSession inner kind).Inv := by
  simp only [startSession]
  split
  · exact hInv.reply_failure
  · next st hState =>
      split
      · next hChannel =>
          exact hInv.start hState hChannel rfl rfl rfl rfl
            (by simp [closing, reply, Reply.isClosing]) rfl
      · exact hInv.reply_failure

theorem subsystemRequest_inv
    (inner : ServerInner PublicKey)
    {slot : Slot}
    (hInv : slot.Inv)
    (name : Text) :
    (slot.subsystemRequest inner name).Inv := by
  simp only [subsystemRequest]
  split
  · split
    · exact hInv.reply_failure
    · next st hState =>
        split
        · next hChannel =>
            exact hInv.start hState hChannel rfl rfl rfl rfl
              (by simp [closing, reply, Reply.isClosing])
              (Or.inl rfl)
        · next hTaken =>
            refine hInv.frame rfl rfl
              (by simp [closing, reply, Reply.isClosing])
              (by simp [hState]) ?_
            intro st' hSome
            cases hSome
            refine ⟨st, hState, rfl, fun _ hEmpty => ?_⟩
            exact hTaken
              ((hInv.channel st hState).mpr hEmpty)
  · exact hInv.reply_failure

/- An allowed end of file closes an open SFTP channel. -/
theorem channelEof_inv
    {slot : Slot}
    (hInv : slot.Inv)
    (hAllowed : slot.EofAllowed .eof) :
    slot.channelEof.Inv := by
  simp only [channelEof]
  split
  · next hFlag =>
      rcases hAllowed hFlag with ⟨hNothing, hSftp⟩
      refine ⟨hInv.unopened, hInv.channel, hInv.sftp, ?_⟩
      have hOld := hInv.closing
      rw [closing_reply, hNothing]
      rw [hNothing] at hOld
      simp only [reply]
      rcases (Option.any_eq_true _ _).mp hFlag with
        ⟨st, hState, hSome⟩
      have hStarted := hInv.sftp st hState hSome
      rcases hRunners : slot.runners with _ | ⟨runner, rest⟩
      · exact absurd hRunners hStarted
      · rw [hRunners] at hOld hSftp
        cases runner with
        | session request command env progress =>
            simp [Runner.isSftp] at hSftp
        | sftp root =>
            cases rest with
            | nil => exact Or.inr rfl
            | cons other rest => exact hOld.elim
  · exact hInv

/- A runner of a channel is its only one. -/
theorem Inv.runner_eq
    {slot : Slot}
    {k : Nat}
    {runner : Runner}
    (hInv : slot.Inv)
    (hRunner : slot.runners[k]? = some runner) :
    k = 0 ∧ slot.runners = [runner] := by
  have hFits := hInv.closing
  rcases hRunners : slot.runners with _ | ⟨first, rest⟩
  · simp [hRunners] at hRunner
  · cases rest with
    | nil =>
        rw [hRunners] at hRunner
        cases k with
        | zero =>
            cases hRunner
            exact ⟨rfl, rfl⟩
        | succ k => simp at hRunner
    | cons other rest =>
        rw [hRunners] at hFits
        cases first with
        | sftp root => exact hFits.elim
        | session request command env progress =>
            cases progress <;> exact hFits.elim

/- The steps of a session task keep the invariant. -/
theorem runEnds_inv
    {slot slot' : Slot}
    {runner : Nat}
    {code : UInt32}
    (hInv : slot.Inv)
    (hStep : slot.runEnds runner code = some slot') :
    slot'.Inv := by
  simp only [runEnds] at hStep
  split at hStep <;> [skip; cases hStep]
  next request command env hRunner =>
    simp only [Option.some.injEq] at hStep
    subst hStep
    rcases hInv.runner_eq hRunner with ⟨rfl, hRunners⟩
    have hFits := hInv.closing
    rw [hRunners] at hFits
    refine ⟨?_, ?_, ?_, ?_⟩
    · intro hNot
      simp [(hInv.unopened hNot).2] at hRunners
    · intro st hState
      simpa [hRunners] using hInv.channel st hState
    · simp [hRunners]
    · simp only [hRunners, List.set_cons_zero]
      change slot.closing.Sublist _
      rw [show slot.closing = [] from hFits]
      exact List.nil_sublist _

theorem finishChannel_inv
    {slot slot' : Slot}
    {runner : Nat}
    {delivered : Bool}
    (hInv : slot.Inv)
    (hStep : slot.finishChannel runner delivered = some slot') :
    slot'.Inv := by
  simp only [finishChannel] at hStep
  split at hStep <;> [skip; cases hStep]
  next request command env code sent hRunner =>
    split at hStep <;> [skip; cases hStep]
    next message hMessage =>
      simp only [Option.some.injEq] at hStep
      subst hStep
      rcases hInv.runner_eq hRunner with ⟨rfl, hRunners⟩
      have hFits : slot.closing.Sublist
          ((closingMessages code).take sent) := by
        have hOld := hInv.closing
        rwa [hRunners] at hOld
      refine ⟨?_, ?_, ?_, ?_⟩
      · intro hNot
        simp [(hInv.unopened hNot).2] at hRunners
      · intro st hState
        simpa [hRunners] using hInv.channel st hState
      · simp [hRunners]
      · simp only [hRunners, List.set_cons_zero]
        change (slot.reply _).closing.Sublist _
        rw [closing_reply, List.take_add_one, hMessage]
        refine List.Sublist.append hFits ?_
        cases delivered
        · exact List.nil_sublist _
        · exact List.filter_sublist

/- One step on a channel keeps the invariant. -/
theorem step_inv
    {inner : ServerInner PublicKey}
    {slot slot' : Slot}
    {e : ChannelEvent}
    (hInv : slot.Inv)
    (hAllowed : slot.EofAllowed e)
    (hStep : slot.step inner e = some slot') :
    slot'.Inv := by
  cases e with
  | runEnds runner code => exact runEnds_inv hInv hStep
  | finish runner delivered =>
      exact finishChannel_inv hInv hStep
  | opens =>
      simp only [step] at hStep
      split at hStep <;> [cases hStep; skip]
      next hClosed =>
        simp only [Option.some.injEq] at hStep
        subst hStep
        rcases hInv.unopened (by simpa using hClosed) with
          ⟨_, hEmpty⟩
        refine ⟨?_, ?_, ?_, hInv.closing⟩
        · simp [channelOpenSession]
        · intro st hState
          cases hState
          simp [channelOpenSession, ChannelState.opened,
            hEmpty]
        · intro st hState hFlag
          cases hState
          cases hFlag
  | ptyReq term cols rows pixelWidth pixelHeight =>
      simp only [step, Option.some.injEq] at hStep
      subst hStep
      refine hInv.frame rfl rfl
        (by simp [closing, ptyRequest, reply,
          Reply.isClosing])
        (by simp +contextual [ptyRequest]) ?_
      intro st' hSome
      simp only [ptyRequest, Option.map_eq_some_iff] at hSome
      rcases hSome with ⟨st, hState, rfl⟩
      exact ⟨st, hState, rfl, hInv.sftp st hState⟩
  | env name value =>
      simp only [step, Option.some.injEq] at hStep
      subst hStep
      simp only [envRequest]
      split
      · refine hInv.frame rfl rfl
          (by simp [closing, reply, Reply.isClosing])
          (by simp +contextual) ?_
        intro st' hSome
        simp only [Option.map_eq_some_iff] at hSome
        rcases hSome with ⟨st, hState, rfl⟩
        exact ⟨st, hState, rfl, hInv.sftp st hState⟩
      · exact hInv.reply_failure
  | windowChange cols rows =>
      simp only [step, Option.some.injEq] at hStep
      subst hStep
      simp only [windowChangeRequest]
      split
      · exact ⟨hInv.unopened, hInv.channel, hInv.sftp,
          hInv.closing⟩
      · exact hInv
  | shell =>
      simp only [step, Option.some.injEq] at hStep
      subst hStep
      exact startSession_inv inner hInv .shell
  | exec command =>
      simp only [step, Option.some.injEq] at hStep
      subst hStep
      exact startSession_inv inner hInv (.exec command)
  | subsystem name =>
      simp only [step, Option.some.injEq] at hStep
      subst hStep
      exact subsystemRequest_inv inner hInv name
  | eof =>
      simp only [step, Option.some.injEq] at hStep
      subst hStep
      exact channelEof_inv hInv hAllowed
  | close =>
      simp only [step, Option.some.injEq] at hStep
      subst hStep
      refine ⟨?_, ?_, ?_, hInv.closing⟩
      · intro hNot
        exact ⟨rfl, (hInv.unopened hNot).2⟩
      · intro st hState
        cases hState
      · intro st hState
        cases hState

/- The invariant makes a channel well-behaved. -/
theorem Inv.wellBehaved
    {slot : Slot}
    (hInv : slot.Inv) :
    slot.WellBehaved := by
  have hFits := hInv.closing
  rcases hRunners : slot.runners with _ | ⟨runner, rest⟩
  · rw [hRunners] at hFits
    refine ⟨by simp [hRunners], ⟨0, ?_⟩, by simp [hRunners]⟩
    rw [show slot.closing = [] from hFits]
    exact List.nil_sublist _
  · have hOnly := (hInv.runner_eq (k := 0)
      (by rw [hRunners]; rfl)).2
    rw [hOnly] at hFits
    cases runner with
    | sftp root =>
        refine ⟨by simp [hOnly], ⟨0, ?_⟩, by simp [hOnly]⟩
        rcases hFits with hNothing | hAll
        · rw [hNothing]
          exact List.nil_sublist _
        · rw [hAll]
    | session request command env progress =>
        cases progress with
        | running =>
            have hNothing : slot.closing = [] := hFits
            refine ⟨by simp [hOnly], ⟨0, ?_⟩,
              by simp [hNothing]⟩
            rw [hNothing]
            exact List.nil_sublist _
        | ended code sent =>
            have hSub :
                slot.closing.Sublist
                  (closingMessages code) :=
              hFits.trans (List.take_sublist _ _)
            refine ⟨by simp [hOnly], ⟨code, hSub⟩, ?_⟩
            intro request' command' env' progress' hMem _
            rw [hOnly, List.mem_singleton] at hMem
            cases hMem
            exact ⟨code, sent, rfl, hSub⟩

theorem startSession_answer
    (inner : ServerInner PublicKey)
    (slot : Slot)
    (kind : SessionKindReq) :
    ((slot.startSession inner kind).replies =
          slot.replies ++ [.success] ∧
        ∃ runner,
          (slot.startSession inner kind).runners =
            slot.runners ++ [runner]) ∨
      ((slot.startSession inner kind).replies =
          slot.replies ++ [.failure] ∧
        (slot.startSession inner kind).runners =
          slot.runners) := by
  simp only [startSession]
  split
  · exact Or.inr ⟨rfl, rfl⟩
  · split
    · exact Or.inl ⟨rfl, _, rfl⟩
    · exact Or.inr ⟨rfl, rfl⟩

/-
  The answer to a request: success exactly when it starts a
  runner.
-/
theorem step_answer
    {inner : ServerInner PublicKey}
    {slot slot' : Slot}
    {e : ChannelEvent}
    (hRequest : e.isRequest = true)
    (hStep : slot.step inner e = some slot') :
    (slot'.replies = slot.replies ++ [.success] ∧
        ∃ runner, slot'.runners = slot.runners ++ [runner]) ∨
      (slot'.replies = slot.replies ++ [.failure] ∧
        slot'.runners = slot.runners) := by
  cases e with
  | shell =>
      simp only [step, Option.some.injEq] at hStep
      subst hStep
      exact startSession_answer inner slot .shell
  | exec command =>
      simp only [step, Option.some.injEq] at hStep
      subst hStep
      exact startSession_answer inner slot (.exec command)
  | subsystem name =>
      simp only [step, Option.some.injEq] at hStep
      subst hStep
      simp only [subsystemRequest]
      split
      · split
        · exact Or.inr ⟨rfl, rfl⟩
        · split
          · exact Or.inl ⟨rfl, _, rfl⟩
          · exact Or.inr ⟨rfl, rfl⟩
      · exact Or.inr ⟨rfl, rfl⟩
  | opens | ptyReq | env | windowChange | eof | close
  | runEnds | finish =>
      cases hRequest

end Slot

namespace Channels

/- The invariant holds on every channel of a connection. -/
theorem reaches_inv
    {inner : ServerInner PublicKey}
    {s : Channels}
    (hReaches :
      (machine inner).Reaches
        (fun s e => (s e.1).EofAllowed e.2) s)
    (id : ChannelId) :
    (s id).Inv := by
  refine hReaches.invariant (I := fun s => ∀ id, (s id).Inv)
    (fun _ => Slot.fresh_inv) ?_ id
  intro s e t hInv hAllowed hStep id
  simp only [machine, step, Option.map_eq_some_iff] at hStep
  rcases hStep with ⟨slot, hSlot, rfl⟩
  by_cases hSame : id = e.1
  · subst hSame
    rw [Function.update_self]
    exact Slot.step_inv (hInv e.1) hAllowed hSlot
  · rw [Function.update_of_ne hSame]
    exact hInv id

/-
  The life of the session channels of a connection, in every
  run in which no end of file meets the SFTP flag on a
  channel that runs a session or has been closed already:
  every channel is well-behaved, and a request is answered
  with success exactly when it starts the runner.
-/
theorem channel_lifecycle
    {inner : ServerInner PublicKey}
    {s : Channels}
    (hReaches :
      (machine inner).Reaches
        (fun s e => (s e.1).EofAllowed e.2) s) :
    (∀ id, (s id).WellBehaved) ∧
      ∀ id e t, e.isRequest = true →
        step inner s (id, e) = some t →
          ((t id).replies = (s id).replies ++ [.success] ∧
              ∃ runner,
                (t id).runners = (s id).runners ++ [runner]) ∨
            ((t id).replies = (s id).replies ++ [.failure] ∧
              (t id).runners = (s id).runners) := by
  refine ⟨fun id => (reaches_inv hReaches id).wellBehaved, ?_⟩
  intro id e t hRequest hStep
  simp only [step, Option.map_eq_some_iff] at hStep
  rcases hStep with ⟨slot, hSlot, rfl⟩
  rw [Function.update_self]
  exact Slot.step_answer hRequest hSlot

/- A server that resolves every session to `/bin/sh`. -/
def shellServer : ServerInner Unit where
  auth :=
    { anonymous := true, password := none
      authorizedKeys := [] }
  authenticator := none
  commandResolver _ :=
    { program := "/bin/sh".toList, args := []
      env := [], cwd := none }
  forwarder := none
  allowTcpForwarding := true
  sftpRoot := none
  acceptEnv := defaultAcceptEnv
  banner := none
  allowedUsers := []

/- A command that fails, and a file transfer next to it. -/
def twoChannelRun : List (ChannelId × ChannelEvent) :=
  [(0, .opens), (1, .opens), (0, .exec "false".toList),
    (1, .subsystem "sftp".toList), (0, .eof), (1, .eof),
    (0, .runEnds 0 1), (0, .finish 0 true),
    (0, .finish 0 true), (0, .finish 0 true)]

theorem twoChannelRun_wellBehaved :
    let s := (machine shellServer).final twoChannelRun
      (by decide)
    (s 0).closing = closingMessages 1 ∧
      (s 1).closing = closingMessages 0 ∧
      ∀ id, (s id).WellBehaved := by
  intro s
  refine ⟨by decide, by decide, ?_⟩
  exact (channel_lifecycle
    (Machine.reaches_final (M := machine shellServer)
      twoChannelRun (by decide) (by decide))).1

/-
  A refused SFTP request on a channel that runs a command:
  the next end of file closes the channel with status zero
  while the command is still running.
-/
def refusedSftpRun : List (ChannelId × ChannelEvent) :=
  [(0, .opens), (0, .exec "sleep 5".toList),
    (0, .subsystem "sftp".toList), (0, .eof)]

theorem refusedSftpRun_closes_early :
    let s := (machine shellServer).final refusedSftpRun
      (by decide)
    (machine shellServer).Reachable s ∧
      ¬ (s 0).WellBehaved := by
  intro s
  refine ⟨Machine.reachable_final _ _, fun hBehaved => ?_⟩
  have hRunner :
      Runner.session (.exec "sleep 5".toList none)
        (shellServer.commandResolver
          (.exec "sleep 5".toList none)) [] .running ∈
        (s 0).runners := by
    decide
  rcases hBehaved.sessions _ _ _ _ hRunner (by decide) with
    ⟨code, sent, hProgress, _⟩
  cases hProgress

end Channels

end Sshdt

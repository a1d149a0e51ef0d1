import Sshdt.Lib.Bindings
import Sshdt.Server.Channel

/-
  The environment of a session (`session_env_overrides` in
  `src/session.rs`) and how the client's env requests reach
  it (`src/handler.rs`).

  What the client can do to the environment of a channel is
  stated by comparing runs of the connection: the same
  requests with and without env requests, and the same
  requests with other env requests elsewhere.

  Key definitions include:
    * `sessionEnvOverrides`
    * `Channels.withoutEnv`
    * `Channels.sentOn`
    * `Slot.eraseEnv`
    * `Channels.StartsSession`
    * `Channels.EnvConfined`

  Key theorems include:
    * `Channels.exec_erase`
    * `Channels.exec_sentOn`
    * `Channels.client_env_confined`
-/

------------------------------------------------------------
-- Environment Overrides
------------------------------------------------------------

namespace Sshdt

/- The pairs that do not come from client or resolver. -/
def sessionEnvBase
    (host : Host)
    (shellProgram : Text)
    (pty : Option PtyRequest) : List (Text × Text) :=
  [("SHELL".toList, shellProgram)] ++
    (if (host.envVar "HOME".toList).isNone then
      host.homeDir.toList.map fun home =>
        ("HOME".toList, home)
    else
      []) ++
    (match currentOsUser host with
    | some user =>
        (if (host.envVar "USER".toList).isNone then
          [("USER".toList, user)]
        else
          []) ++
        (if (host.envVar "LOGNAME".toList).isNone then
          [("LOGNAME".toList, user)]
        else
          [])
    | none => []) ++
    (match pty with
    | some pty =>
        if pty.term.isEmpty then
          []
        else
          [("TERM".toList, pty.term)]
    | none => [])

/- `session_env_overrides`. -/
def sessionEnvOverrides
    (host : Host)
    (shellProgram : Text)
    (pty : Option PtyRequest)
    (clientEnv resolverEnv : List (Text × Text)) :
    List (Text × Text) :=
  sessionEnvBase host shellProgram pty ++ clientEnv ++
    resolverEnv

/- The value of a name in a list of overrides. -/
def envBinding
    (name : Text)
    (overrides : List (Text × Text)) : Option Text :=
  Bindings.lastValue (fun key => key == name) overrides

/- The list that `run_session` hands to the process. -/
def runSessionEnv
    (host : Host)
    (request : SessionRequest)
    (command : SessionCommand)
    (clientEnv : List (Text × Text)) : List (Text × Text) :=
  sessionEnvOverrides host command.program request.pty
    clientEnv command.env

end Sshdt

------------------------------------------------------------
-- Requests Apart From Env
------------------------------------------------------------

namespace Sshdt

variable {PublicKey : Type}

/- The event is an env request. -/
def ChannelEvent.isEnv : ChannelEvent → Bool
  | .env _ _ => true
  | _ => false

/- The runner without the client's environment. -/
def Runner.eraseEnv : Runner → Runner
  | .session request command _ progress =>
      .session request command [] progress
  | .sftp root => .sftp root

@[simp]
theorem Runner.eraseEnv_session
    (request : SessionRequest)
    (command : SessionCommand)
    (env : List (Text × Text))
    (progress : Progress) :
    (Runner.session request command env progress).eraseEnv =
      .session request command [] progress :=
  rfl

@[simp]
theorem Runner.eraseEnv_sftp
    (root : Option PathBuf) :
    (Runner.sftp root).eraseEnv = .sftp root :=
  rfl

@[simp]
theorem Runner.eraseEnv_eraseEnv
    (runner : Runner) :
    runner.eraseEnv.eraseEnv = runner.eraseEnv := by
  cases runner <;> rfl

namespace Slot

/-
  A channel without what env requests leave on it: the
  environment itself and the answers.
-/
def eraseEnv
    (slot : Slot) : Slot :=
  { slot with
    state := slot.state.map fun st => { st with env := [] }
    runners := slot.runners.map Runner.eraseEnv
    replies := [] }

/- An env request leaves nothing else. -/
theorem envRequest_eraseEnv
    (inner : ServerInner PublicKey)
    (slot : Slot)
    (name value : Text) :
    (slot.envRequest inner name value).eraseEnv =
      slot.eraseEnv := by
  unfold envRequest
  split
  · simp [eraseEnv, reply, Function.comp_def]
  · rfl

theorem startSession_eraseEnv
    (inner : ServerInner PublicKey)
    (slot : Slot)
    (kind : SessionKindReq) :
    (slot.eraseEnv.startSession inner kind).eraseEnv =
      (slot.startSession inner kind).eraseEnv := by
  rcases slot with ⟨opened, state, runners, replies, resizes⟩
  cases state with
  | none =>
      simp [startSession, eraseEnv, reply, Function.comp_def]
  | some st =>
      cases hChannel : st.channel <;>
        simp [startSession, eraseEnv, reply, hChannel,
          Function.comp_def]

theorem subsystemRequest_eraseEnv
    (inner : ServerInner PublicKey)
    (slot : Slot)
    (name : Text) :
    (slot.eraseEnv.subsystemRequest inner name).eraseEnv =
      (slot.subsystemRequest inner name).eraseEnv := by
  rcases slot with ⟨opened, state, runners, replies, resizes⟩
  unfold subsystemRequest
  split
  · cases state with
    | none => simp [eraseEnv, reply, Function.comp_def]
    | some st =>
        cases hChannel : st.channel <;>
          simp [eraseEnv, reply, hChannel, Function.comp_def]
  · simp [eraseEnv, reply, Function.comp_def]

theorem runEnds_eraseEnv
    (slot : Slot)
    (runner : Nat)
    (code : UInt32) :
    (slot.eraseEnv.runEnds runner code).map eraseEnv =
      (slot.runEnds runner code).map eraseEnv := by
  rcases slot with ⟨opened, state, runners, replies, resizes⟩
  cases hRunner : runners[runner]? with
  | none => simp [runEnds, eraseEnv, hRunner]
  | some task =>
      cases task with
      | sftp root => simp [runEnds, eraseEnv, hRunner]
      | session request command env progress =>
          cases progress <;>
            simp [runEnds, eraseEnv, hRunner,
              List.map_set, Function.comp_def]

theorem finishChannel_eraseEnv
    (slot : Slot)
    (runner : Nat)
    (delivered : Bool) :
    (slot.eraseEnv.finishChannel runner delivered).map
        eraseEnv =
      (slot.finishChannel runner delivered).map eraseEnv := by
  rcases slot with ⟨opened, state, runners, replies, resizes⟩
  cases hRunner : runners[runner]? with
  | none => simp [finishChannel, eraseEnv, hRunner]
  | some task =>
      cases task with
      | sftp root => simp [finishChannel, eraseEnv, hRunner]
      | session request command env progress =>
          cases progress with
          | running => simp [finishChannel, eraseEnv, hRunner]
          | ended code sent =>
              cases hNext : (closingMessages code)[sent]? <;>
                simp [finishChannel, eraseEnv, hRunner,
                  hNext, reply, List.map_set,
                  Function.comp_def]

/- No other step reads the client's environment. -/
theorem step_eraseEnv
    (inner : ServerInner PublicKey)
    (slot : Slot)
    {e : ChannelEvent}
    (hNot : e.isEnv = false) :
    (slot.eraseEnv.step inner e).map eraseEnv =
      (slot.step inner e).map eraseEnv := by
  cases e with
  | env name value => cases hNot
  | runEnds runner code => exact slot.runEnds_eraseEnv runner code
  | finish runner delivered =>
      exact slot.finishChannel_eraseEnv runner delivered
  | shell =>
      simp only [step, Option.map_some,
        startSession_eraseEnv]
  | exec command =>
      simp only [step, Option.map_some,
        startSession_eraseEnv]
  | subsystem name =>
      simp only [step, Option.map_some,
        subsystemRequest_eraseEnv]
  | opens =>
      cases hOpened : slot.opened <;>
        simp [step, eraseEnv, hOpened, channelOpenSession,
          Function.comp_def]
  | ptyReq term cols rows pixelWidth pixelHeight =>
      simp [step, ptyRequest, eraseEnv, reply,
        Function.comp_def]
  | windowChange cols rows =>
      cases hState : slot.state with
      | none =>
          simp [step, windowChangeRequest, eraseEnv, hState,
            Function.comp_def]
      | some st =>
          cases hResize : st.resize <;>
            simp [step, windowChangeRequest, eraseEnv, hState,
              hResize, Function.comp_def]
  | eof =>
      cases hState : slot.state with
      | none =>
          simp [step, channelEof, eraseEnv, hState,
            Function.comp_def]
      | some st =>
          cases hSftp : st.sftp <;>
            simp [step, channelEof, eraseEnv, hState, hSftp,
              reply, Function.comp_def]
  | close =>
      simp [step, channelClose, eraseEnv, Function.comp_def]

end Slot

end Sshdt

------------------------------------------------------------
-- Runs With Other Env Requests
------------------------------------------------------------

namespace Sshdt

namespace Channels

variable {PublicKey : Type}

/- A run without its env requests. -/
def withoutEnv
    (es : List (ChannelId × ChannelEvent)) :
    List (ChannelId × ChannelEvent) :=
  es.filter fun e => !e.2.isEnv

/- The two connections differ in environments only. -/
def EqualApart
    (s s' : Channels) : Prop :=
  ∀ id, (s id).eraseEnv = (s' id).eraseEnv

theorem withoutEnv_cons_of_env
    {e : ChannelId × ChannelEvent}
    {es : List (ChannelId × ChannelEvent)}
    (hEnv : e.2.isEnv = true) :
    withoutEnv (e :: es) = withoutEnv es := by
  simp [withoutEnv, hEnv]

theorem withoutEnv_cons_of_not
    {e : ChannelId × ChannelEvent}
    {es : List (ChannelId × ChannelEvent)}
    (hNot : e.2.isEnv = false) :
    withoutEnv (e :: es) = e :: withoutEnv es := by
  simp [withoutEnv, hNot]

theorem withoutEnv_append
    (es es' : List (ChannelId × ChannelEvent)) :
    withoutEnv (es ++ es') =
      withoutEnv es ++ withoutEnv es' := by
  simp [withoutEnv]

theorem withoutEnv_idem
    (es : List (ChannelId × ChannelEvent)) :
    withoutEnv (withoutEnv es) = withoutEnv es := by
  simp [withoutEnv]

/- An env request is always taken and erased again. -/
theorem step_env
    (inner : ServerInner PublicKey)
    (s : Channels)
    {e : ChannelId × ChannelEvent}
    (hEnv : e.2.isEnv = true) :
    ∃ t, step inner s e = some t ∧ EqualApart s t := by
  rcases e with ⟨id, e⟩
  cases e with
  | env name value =>
      refine ⟨Function.update s id
        ((s id).envRequest inner name value), rfl,
        fun other => ?_⟩
      by_cases hSame : other = id
      · subst hSame
        rw [Function.update_self]
        exact ((s other).envRequest_eraseEnv inner _ _).symm
      · rw [Function.update_of_ne hSame]
  | opens | ptyReq | windowChange | shell | exec
  | subsystem | eof | close | runEnds | finish =>
      cases hEnv

/- Any other step is taken alike. -/
theorem step_equalApart
    {inner : ServerInner PublicKey}
    {s s' t : Channels}
    {e : ChannelId × ChannelEvent}
    (hEqual : EqualApart s s')
    (hNot : e.2.isEnv = false)
    (hStep : step inner s e = some t) :
    ∃ t', step inner s' e = some t' ∧ EqualApart t t' := by
  simp only [step, Option.map_eq_some_iff] at hStep
  rcases hStep with ⟨slot, hSlot, rfl⟩
  have hErased :
      ((s' e.1).step inner e.2).map Slot.eraseEnv =
        some slot.eraseEnv := by
    rw [← Slot.step_eraseEnv inner (s' e.1) hNot,
      ← hEqual e.1, Slot.step_eraseEnv inner (s e.1) hNot,
      hSlot]
    rfl
  rw [Option.map_eq_some_iff] at hErased
  rcases hErased with ⟨slot', hSlot', hSame⟩
  refine ⟨Function.update s' e.1 slot', ?_, fun id => ?_⟩
  · simp [step, hSlot']
  · by_cases hId : id = e.1
    · subst hId
      rw [Function.update_self, Function.update_self]
      exact hSame.symm
    · rw [Function.update_of_ne hId, Function.update_of_ne hId]
      exact hEqual id

/- A run may leave out its env requests. -/
theorem exec_withoutEnv
    {inner : ServerInner PublicKey}
    {s s' t : Channels}
    {es : List (ChannelId × ChannelEvent)}
    (hEqual : EqualApart s s')
    (hExec : (machine inner).exec s es = some t) :
    ∃ t', (machine inner).exec s' (withoutEnv es) = some t' ∧
      EqualApart t t' := by
  induction es generalizing s s' with
  | nil =>
      cases hExec
      exact ⟨s', rfl, hEqual⟩
  | cons e es ih =>
      rcases Machine.exec_cons.mp hExec with
        ⟨u, hFirst, hRest⟩
      cases hEnv : e.2.isEnv with
      | true =>
          rcases step_env inner s hEnv with ⟨v, hStep, hSame⟩
          rw [show (machine inner).step s e = _ from hStep]
            at hFirst
          cases hFirst
          rw [withoutEnv_cons_of_env hEnv]
          exact ih (fun id => (hSame id).symm.trans (hEqual id))
            hRest
      | false =>
          rcases step_equalApart hEqual hEnv hFirst with
            ⟨u', hStep, hSame⟩
          rcases ih hSame hRest with ⟨t', hTail, hFinal⟩
          refine ⟨t', ?_, hFinal⟩
          rw [withoutEnv_cons_of_not hEnv]
          exact Machine.exec_cons.mpr ⟨u', hStep, hTail⟩

/- Env requests may be put back anywhere. -/
theorem exec_of_withoutEnv
    {inner : ServerInner PublicKey}
    {s s' t : Channels}
    {es : List (ChannelId × ChannelEvent)}
    (hEqual : EqualApart s s')
    (hExec :
      (machine inner).exec s (withoutEnv es) = some t) :
    ∃ t', (machine inner).exec s' es = some t' ∧
      EqualApart t t' := by
  induction es generalizing s s' with
  | nil =>
      cases hExec
      exact ⟨s', rfl, hEqual⟩
  | cons e es ih =>
      cases hEnv : e.2.isEnv with
      | true =>
          rw [withoutEnv_cons_of_env hEnv] at hExec
          rcases step_env inner s' hEnv with ⟨u, hStep, hSame⟩
          rcases ih (fun id => (hEqual id).trans (hSame id)) hExec
            with ⟨t', hTail, hFinal⟩
          exact ⟨t', Machine.exec_cons.mpr ⟨u, hStep, hTail⟩,
            hFinal⟩
      | false =>
          rw [withoutEnv_cons_of_not hEnv] at hExec
          rcases Machine.exec_cons.mp hExec with
            ⟨u, hFirst, hRest⟩
          rcases step_equalApart hEqual hEnv hFirst with
            ⟨u', hStep, hSame⟩
          rcases ih hSame hRest with ⟨t', hTail, hFinal⟩
          exact ⟨t', Machine.exec_cons.mpr ⟨u', hStep, hTail⟩,
            hFinal⟩

/-
  Runs with the same requests apart from env ones reach
  connections that differ in environments only.
-/
theorem exec_equalApart
    {inner : ServerInner PublicKey}
    {s s' t : Channels}
    {es es' : List (ChannelId × ChannelEvent)}
    (hEqual : EqualApart s s')
    (hSame : withoutEnv es = withoutEnv es')
    (hExec : (machine inner).exec s es = some t) :
    ∃ t', (machine inner).exec s' es' = some t' ∧
      EqualApart t t' := by
  rcases exec_withoutEnv hEqual hExec with
    ⟨u, hShort, hApart⟩
  rw [hSame] at hShort
  rcases exec_of_withoutEnv (fun _ => rfl) hShort with
    ⟨t', hLong, hApart'⟩
  exact ⟨t', hLong, fun id => (hApart id).trans (hApart' id)⟩

end Channels

end Sshdt

------------------------------------------------------------
-- Hand-Over At The Start
------------------------------------------------------------

namespace Sshdt

variable {PublicKey : Type}

/- The request that asks for a session of a kind. -/
def SessionKindReq.event : SessionKindReq → ChannelEvent
  | .shell => .shell
  | .exec command => .exec command

namespace Slot

/-
  What one step does to the runners of a channel: nothing,
  the start of a session or of SFTP, or progress of a
  session.
-/
theorem step_runners
    {inner : ServerInner PublicKey}
    {slot slot' : Slot}
    {e : ChannelEvent}
    (hStep : slot.step inner e = some slot') :
    slot'.runners = slot.runners ∨
      (∃ (st : ChannelState) (kind : SessionKindReq),
        slot.state = some st ∧ st.channel = true ∧
          e = kind.event ∧
          slot'.runners = slot.runners ++
            [.session (kind.request st.pty)
              (inner.commandResolver (kind.request st.pty))
              st.env .running]) ∨
      slot'.runners = slot.runners ++
        [.sftp inner.sftpRoot] ∨
      ∃ k request command env progress progress',
        slot.runners[k]? =
            some (.session request command env progress) ∧
          slot'.runners = slot.runners.set k
            (.session request command env progress') := by
  have hStart :
      ∀ kind : SessionKindReq,
        (slot.startSession inner kind).runners =
            slot.runners ∨
          ∃ st,
            slot.state = some st ∧ st.channel = true ∧
              (slot.startSession inner kind).runners =
                slot.runners ++
                  [.session (kind.request st.pty)
                    (inner.commandResolver
                      (kind.request st.pty))
                    st.env .running] := by
    intro kind
    unfold startSession
    split
    · exact Or.inl rfl
    · next st hState =>
        split
        · next hChannel => exact Or.inr ⟨st, hState, hChannel, rfl⟩
        · exact Or.inl rfl
  cases e with
  | shell =>
      simp only [step, Option.some.injEq] at hStep
      subst hStep
      rcases hStart .shell with hSame | ⟨st, hState, hNew⟩
      · exact Or.inl hSame
      · exact Or.inr (Or.inl
          ⟨st, .shell, hState, hNew.1, rfl, hNew.2⟩)
  | exec command =>
      simp only [step, Option.some.injEq] at hStep
      subst hStep
      rcases hStart (.exec command) with
        hSame | ⟨st, hState, hNew⟩
      · exact Or.inl hSame
      · exact Or.inr (Or.inl
          ⟨st, .exec command, hState, hNew.1, rfl, hNew.2⟩)
  | subsystem name =>
      simp only [step, Option.some.injEq] at hStep
      subst hStep
      unfold subsystemRequest
      split
      · split
        · exact Or.inl rfl
        · split
          · exact Or.inr (Or.inr (Or.inl rfl))
          · exact Or.inl rfl
      · exact Or.inl rfl
  | runEnds runner code =>
      simp only [step, runEnds] at hStep
      split at hStep <;> [skip; cases hStep]
      next request command env hRunner =>
        simp only [Option.some.injEq] at hStep
        subst hStep
        exact Or.inr (Or.inr (Or.inr
          ⟨runner, request, command, env, _, _, hRunner, rfl⟩))
  | finish runner delivered =>
      simp only [step, finishChannel] at hStep
      split at hStep <;> [skip; cases hStep]
      next request command env code sent hRunner =>
        split at hStep <;> [skip; cases hStep]
        simp only [Option.some.injEq] at hStep
        subst hStep
        exact Or.inr (Or.inr (Or.inr
          ⟨runner, request, command, env, _, _, hRunner, rfl⟩))
  | opens =>
      simp only [step] at hStep
      split at hStep <;> [cases hStep; skip]
      simp only [Option.some.injEq] at hStep
      subst hStep
      exact Or.inl rfl
  | env name value =>
      simp only [step, Option.some.injEq] at hStep
      subst hStep
      unfold envRequest
      split <;> exact Or.inl rfl
  | windowChange cols rows =>
      simp only [step, Option.some.injEq] at hStep
      subst hStep
      unfold windowChangeRequest
      split <;> exact Or.inl rfl
  | eof =>
      simp only [step, Option.some.injEq] at hStep
      subst hStep
      unfold channelEof
      split <;> exact Or.inl rfl
  | ptyReq term cols rows pixelWidth pixelHeight =>
      simp only [step, Option.some.injEq] at hStep
      subst hStep
      exact Or.inl rfl
  | close =>
      simp only [step, Option.some.injEq] at hStep
      subst hStep
      exact Or.inl rfl

/- The channel runs this session, however far it is. -/
def Runs
    (slot : Slot)
    (request : SessionRequest)
    (command : SessionCommand)
    (env : List (Text × Text)) : Prop :=
  ∃ progress,
    .session request command env progress ∈ slot.runners

/- A session keeps what it was started with. -/
theorem Runs.step
    {inner : ServerInner PublicKey}
    {slot slot' : Slot}
    {e : ChannelEvent}
    {request : SessionRequest}
    {command : SessionCommand}
    {env : List (Text × Text)}
    (hRuns : slot.Runs request command env)
    (hStep : slot.step inner e = some slot') :
    slot'.Runs request command env := by
  rcases hRuns with ⟨progress, hMem⟩
  rcases step_runners hStep with
    hSame | ⟨st, kind, _, _, _, hNew⟩ | hNew |
      ⟨k, request', command', env', old, new, hOld, hNew⟩
  · exact ⟨progress, hSame ▸ hMem⟩
  · exact ⟨progress, hNew ▸ List.mem_append_left _ hMem⟩
  · exact ⟨progress, hNew ▸ List.mem_append_left _ hMem⟩
  · rcases List.mem_iff_getElem?.mp hMem with ⟨j, hAt⟩
    by_cases hSame : k = j
    · subst hSame
      rw [hOld] at hAt
      cases hAt
      refine ⟨new, hNew ▸ List.mem_iff_getElem?.mpr ⟨k, ?_⟩⟩
      rw [List.getElem?_set_self]
      exact (List.getElem?_eq_some_iff.mp hOld).1
    · refine ⟨progress,
        hNew ▸ List.mem_iff_getElem?.mpr ⟨j, ?_⟩⟩
      rw [List.getElem?_set_ne hSame]
      exact hAt

/- A session that runs after a step ran before or began. -/
theorem Runs.before
    {inner : ServerInner PublicKey}
    {slot slot' : Slot}
    {e : ChannelEvent}
    {request : SessionRequest}
    {command : SessionCommand}
    {env : List (Text × Text)}
    (hRuns : slot'.Runs request command env)
    (hStep : slot.step inner e = some slot') :
    slot.Runs request command env ∨
      slot'.runners = slot.runners ++
        [.session request command env .running] := by
  rcases hRuns with ⟨progress, hMem⟩
  rcases step_runners hStep with
    hSame | ⟨st, kind, _, _, _, hNew⟩ | hNew |
      ⟨k, request', command', env', old, new, hOld, hNew⟩
  · exact Or.inl ⟨progress, hSame ▸ hMem⟩
  · rw [hNew, List.mem_append, List.mem_singleton] at hMem
    rcases hMem with hMem | hMem
    · exact Or.inl ⟨progress, hMem⟩
    · cases hMem
      exact Or.inr hNew
  · rw [hNew, List.mem_append, List.mem_singleton] at hMem
    rcases hMem with hMem | hMem
    · exact Or.inl ⟨progress, hMem⟩
    · cases hMem
  · rw [hNew] at hMem
    rcases List.mem_or_eq_of_mem_set hMem with hMem | hMem
    · exact Or.inl ⟨progress, hMem⟩
    · cases hMem
      exact Or.inl ⟨old, List.mem_of_getElem? hOld⟩

end Slot

end Sshdt

------------------------------------------------------------
-- What A Channel Has Collected
------------------------------------------------------------

namespace Sshdt

variable {PublicKey : Type}

/- The client's pairs that pass the allowlist. -/
def acceptedEnv
    (inner : ServerInner PublicKey)
    (sent : List (Text × Text)) : List (Text × Text) :=
  sent.filter fun b => envAllowed b.1 inner.acceptEnv

namespace Slot

/-
  Where the environment of a channel that can still start a
  session comes from.
-/
theorem step_env_collected
    {inner : ServerInner PublicKey}
    {slot slot' : Slot}
    {e : ChannelEvent}
    {st' : ChannelState}
    (hStep : slot.step inner e = some slot')
    (hState' : slot'.state = some st')
    (hChannel' : st'.channel = true) :
    (e = .opens ∧ st'.env = []) ∨
      ∃ st,
        slot.state = some st ∧ st.channel = true ∧
          ((∃ name value,
              e = .env name value ∧
                st'.env = st.env ++
                  acceptedEnv inner [(name, value)]) ∨
            (e ≠ .opens ∧ e.isEnv = false ∧
              st'.env = st.env)) := by
  -- A step that keeps the state as far as it is read here.
  have hKeeps :
      e ≠ .opens → e.isEnv = false →
        (∃ st,
          slot.state = some st ∧ st'.channel = st.channel ∧
            st'.env = st.env) →
        ∃ st,
          slot.state = some st ∧ st.channel = true ∧
            ((∃ name value,
                e = .env name value ∧
                  st'.env = st.env ++
                    acceptedEnv inner [(name, value)]) ∨
              (e ≠ .opens ∧ e.isEnv = false ∧
                st'.env = st.env)) := by
    rintro hOpens hNot ⟨st, hState, hSame, hEnv⟩
    exact ⟨st, hState, hSame ▸ hChannel',
      Or.inr ⟨hOpens, hNot, hEnv⟩⟩
  -- A session or SFTP start takes the channel away.
  have hTakes :
      ∀ kind : SessionKindReq,
        (slot.startSession inner kind).state = some st' →
          ∃ st,
            slot.state = some st ∧
              st'.channel = st.channel ∧
              st'.env = st.env := by
    intro kind hState
    simp only [startSession] at hState
    split at hState
    · next hNone => simp [reply, hNone] at hState
    · next st hSome =>
        split at hState
        · cases hState
          cases hChannel'
        · simp only [reply, hSome] at hState
          cases hState
          exact ⟨_, hSome, rfl, rfl⟩
  cases e with
  | opens =>
      simp only [step] at hStep
      split at hStep <;> [cases hStep; skip]
      simp only [Option.some.injEq] at hStep
      subst hStep
      cases hState'
      exact Or.inl ⟨rfl, rfl⟩
  | env name value =>
      right
      simp only [step, Option.some.injEq] at hStep
      subst hStep
      simp only [envRequest] at hState'
      split at hState'
      · next hAllowed =>
          simp only [Option.map_eq_some_iff] at hState'
          rcases hState' with ⟨st, hState, rfl⟩
          exact ⟨st, hState, hChannel', Or.inl
            ⟨name, value, rfl, by simp [acceptedEnv, hAllowed]⟩⟩
      · next hRefused =>
          exact ⟨st', hState', hChannel', Or.inl
            ⟨name, value, rfl, by simp [acceptedEnv, hRefused]⟩⟩
  | shell =>
      simp only [step, Option.some.injEq] at hStep
      subst hStep
      exact Or.inr (hKeeps (by simp) rfl
        (hTakes .shell hState'))
  | exec command =>
      simp only [step, Option.some.injEq] at hStep
      subst hStep
      exact Or.inr (hKeeps (by simp) rfl
        (hTakes (.exec command) hState'))
  | subsystem name =>
      simp only [step, Option.some.injEq] at hStep
      subst hStep
      refine Or.inr (hKeeps (by simp) rfl ?_)
      simp only [subsystemRequest] at hState'
      split at hState'
      · split at hState'
        · next hNone => simp [reply, hNone] at hState'
        · next st hState =>
            split at hState'
            · cases hState'
              cases hChannel'
            · cases hState'
              exact ⟨st, hState, rfl, rfl⟩
      · exact ⟨st', hState', rfl, rfl⟩
  | ptyReq term cols rows pixelWidth pixelHeight =>
      simp only [step, Option.some.injEq] at hStep
      subst hStep
      refine Or.inr (hKeeps (by simp) rfl ?_)
      simp only [ptyRequest, Option.map_eq_some_iff] at hState'
      rcases hState' with ⟨st, hState, rfl⟩
      exact ⟨st, hState, rfl, rfl⟩
  | windowChange cols rows =>
      simp only [step, Option.some.injEq] at hStep
      subst hStep
      refine Or.inr (hKeeps (by simp) rfl ?_)
      simp only [windowChangeRequest] at hState'
      split at hState' <;> exact ⟨st', hState', rfl, rfl⟩
  | eof =>
      simp only [step, Option.some.injEq] at hStep
      subst hStep
      refine Or.inr (hKeeps (by simp) rfl ?_)
      simp only [channelEof] at hState'
      split at hState' <;> exact ⟨st', hState', rfl, rfl⟩
  | close =>
      simp only [step, Option.some.injEq] at hStep
      subst hStep
      cases hState'
  | runEnds runner code =>
      refine Or.inr (hKeeps (by simp) rfl ?_)
      simp only [step, runEnds] at hStep
      split at hStep <;> [skip; cases hStep]
      simp only [Option.some.injEq] at hStep
      subst hStep
      exact ⟨st', hState', rfl, rfl⟩
  | finish runner delivered =>
      refine Or.inr (hKeeps (by simp) rfl ?_)
      simp only [step, finishChannel] at hStep
      split at hStep <;> [skip; cases hStep]
      split at hStep <;> [skip; cases hStep]
      simp only [Option.some.injEq] at hStep
      subst hStep
      exact ⟨st', hState', rfl, rfl⟩

end Slot

namespace Channels

/- One event, seen by what was sent on a channel. -/
def sentStep
    (c : ChannelId)
    (sent : List (Text × Text))
    (e : ChannelId × ChannelEvent) : List (Text × Text) :=
  if e.1 = c then
    match e.2 with
    | .opens => []
    | .env name value => sent ++ [(name, value)]
    | _ => sent
  else
    sent

/- The env requests on a channel since it was opened. -/
def sentOn
    (c : ChannelId)
    (es : List (ChannelId × ChannelEvent)) :
    List (Text × Text) :=
  es.foldl (sentStep c) []

/- Without env requests nothing was sent. -/
theorem sentOn_withoutEnv
    (c : ChannelId)
    (es : List (ChannelId × ChannelEvent)) :
    sentOn c (withoutEnv es) = [] := by
  induction es with
  | nil => rfl
  | cons e es ih =>
      cases hEnv : e.2.isEnv with
      | true => rw [withoutEnv_cons_of_env hEnv, ih]
      | false =>
          rw [withoutEnv_cons_of_not hEnv, sentOn,
            List.foldl_cons]
          have hNothing : sentStep c [] e = [] := by
            rcases e with ⟨id, e⟩
            unfold sentStep
            split
            · cases e <;> first | rfl | cases hEnv
            · rfl
          rw [hNothing]
          exact ih

theorem sentOn_snoc
    (c : ChannelId)
    (es : List (ChannelId × ChannelEvent))
    (e : ChannelId × ChannelEvent) :
    sentOn c (es ++ [e]) = sentStep c (sentOn c es) e := by
  simp [sentOn]

/-
  A channel that can still start a session holds the
  accepted requests that were sent on it, and no others.
-/
theorem exec_sentOn
    {inner : ServerInner PublicKey}
    {es : List (ChannelId × ChannelEvent)}
    {s : Channels}
    {c : ChannelId}
    {st : ChannelState}
    (hExec :
      (machine inner).exec (machine inner).init es = some s)
    (hState : (s c).state = some st)
    (hChannel : st.channel = true) :
    st.env = acceptedEnv inner (sentOn c es) := by
  refine Machine.exec_history
    (P := fun es (s : Channels) =>
      ∀ st, (s c).state = some st → st.channel = true →
        st.env = acceptedEnv inner (sentOn c es))
    hExec ?_ ?_ st hState hChannel
  · intro st hState
    cases hState
  · intro es s e t _ ih hStep st' hState' hChannel'
    simp only [machine, step, Option.map_eq_some_iff] at hStep
    rcases hStep with ⟨slot, hSlot, rfl⟩
    rw [sentOn_snoc, sentStep]
    by_cases hSame : e.1 = c
    · subst hSame
      rw [Function.update_self] at hState'
      rw [if_pos rfl]
      rcases Slot.step_env_collected hSlot hState' hChannel'
        with ⟨hOpens, hEmpty⟩ | ⟨st, hState, hChannel, hEnv⟩
      · rw [hOpens, hEmpty]
        rfl
      · have hOld := ih st hState hChannel
        rcases hEnv with
          ⟨name, value, hEnv, hNew⟩ | ⟨hOpens, hNot, hNew⟩
        · rw [hEnv, hNew, hOld]
          simp [acceptedEnv]
        · rw [hNew, hOld]
          rcases e with ⟨id, e⟩
          cases e <;> first
            | rfl
            | exact absurd rfl hOpens
            | cases hNot
    · rw [Function.update_of_ne (Ne.symm hSame)] at hState'
      rw [if_neg hSame]
      exact ih st' hState' hChannel'

end Channels

end Sshdt

------------------------------------------------------------
-- Confinement
------------------------------------------------------------

namespace Sshdt

namespace Channels

variable {PublicKey : Type}

/- After `pre`, the event starts this session on `c`. -/
def StartsSession
    (inner : ServerInner PublicKey)
    (pre : List (ChannelId × ChannelEvent))
    (c : ChannelId)
    (e : ChannelEvent)
    (request : SessionRequest)
    (command : SessionCommand)
    (env : List (Text × Text)) : Prop :=
  ∃ s t,
    (machine inner).exec (machine inner).init pre = some s ∧
      step inner s (c, e) = some t ∧
      (t c).runners = (s c).runners ++
        [.session request command env .running]

/-
  What the client's env requests can do to the session that
  an event starts on a channel.
-/
structure EnvConfined
    (host : Host)
    (inner : ServerInner PublicKey)
    (pre : List (ChannelId × ChannelEvent))
    (c : ChannelId)
    (e : ChannelEvent)
    (post : List (ChannelId × ChannelEvent))
    (request : SessionRequest)
    (command : SessionCommand)
    (env : List (Text × Text)) : Prop where
  -- Without any env request the same session is started.
  without :
    ∃ u,
      (machine inner).exec (machine inner).init
          (withoutEnv (pre ++ (c, e) :: post)) = some u ∧
        (u c).Runs request command []
  refused :
    ∀ name, envAllowed name inner.acceptEnv = false →
      envBinding name
          (runSessionEnv host request command env) =
        envBinding name
          (runSessionEnv host request command [])
  accepted :
    ∀ name, envAllowed name inner.acceptEnv = true →
      name ∉ command.env.map Prod.fst →
        envBinding name
            (runSessionEnv host request command env) =
          (envBinding name (sentOn c pre)).or
            (envBinding name
              (runSessionEnv host request command []))
  -- Env requests elsewhere, before or after, do nothing.
  elsewhere :
    ∀ pre' post',
      withoutEnv pre' = withoutEnv pre →
        sentOn c pre' = sentOn c pre →
          withoutEnv post' = withoutEnv post →
            ∃ u,
              (machine inner).exec (machine inner).init
                  (pre' ++ (c, e) :: post') = some u ∧
                (u c).Runs request command env

/- The session of a started channel stays on it. -/
theorem exec_runs
    {inner : ServerInner PublicKey}
    {s t : Channels}
    {es : List (ChannelId × ChannelEvent)}
    {c : ChannelId}
    {request : SessionRequest}
    {command : SessionCommand}
    {env : List (Text × Text)}
    (hRuns : (s c).Runs request command env)
    (hExec : (machine inner).exec s es = some t) :
    (t c).Runs request command env := by
  induction es generalizing s with
  | nil =>
      cases hExec
      exact hRuns
  | cons e es ih =>
      rcases Machine.exec_cons.mp hExec with
        ⟨u, hStep, hRest⟩
      simp only [machine, step, Option.map_eq_some_iff]
        at hStep
      rcases hStep with ⟨slot, hSlot, rfl⟩
      refine ih ?_ hRest
      by_cases hSame : c = e.1
      · subst hSame
        rw [Function.update_self]
        exact hRuns.step hSlot
      · rw [Function.update_of_ne hSame]
        exact hRuns

/- Every session has a start in the run. -/
theorem exists_startsSession
    {inner : ServerInner PublicKey}
    {es : List (ChannelId × ChannelEvent)}
    {u : Channels}
    {c : ChannelId}
    {request : SessionRequest}
    {command : SessionCommand}
    {env : List (Text × Text)}
    (hExec :
      (machine inner).exec (machine inner).init es = some u)
    (hRuns : (u c).Runs request command env) :
    ∃ pre e post,
      es = pre ++ (c, e) :: post ∧
        StartsSession inner pre c e request command env := by
  refine Machine.exec_history
    (P := fun es (u : Channels) =>
      (u c).Runs request command env →
        ∃ pre e post,
          es = pre ++ (c, e) :: post ∧
            StartsSession inner pre c e request command env)
    hExec ?_ ?_ hRuns
  · rintro ⟨progress, hMem⟩
    cases hMem
  · intro es s e t hPre ih hStep hRuns
    have hTaken : step inner s e = some t := hStep
    simp only [machine, step, Option.map_eq_some_iff] at hStep
    rcases hStep with ⟨slot, hSlot, hUpdate⟩
    -- Either the session was there before this event, or
    -- this event is its start.
    have hCases :
        (s c).Runs request command env ∨
          (e.1 = c ∧ (t c).runners = (s c).runners ++
            [.session request command env .running]) := by
      by_cases hSame : c = e.1
      · subst hSame
        rw [← hUpdate, Function.update_self] at hRuns ⊢
        rcases hRuns.before hSlot with hOld | hNew
        · exact Or.inl hOld
        · exact Or.inr ⟨rfl, hNew⟩
      · rw [← hUpdate, Function.update_of_ne hSame] at hRuns
        exact Or.inl hRuns
    rcases hCases with hOld | ⟨hHere, hNew⟩
    · rcases ih hOld with ⟨pre, start, post, rfl, hStarts⟩
      exact ⟨pre, start, post ++ [e], by simp, hStarts⟩
    · rcases e with ⟨id, e⟩
      cases hHere
      exact ⟨es, e, [], rfl, s, t, hPre, hTaken, hNew⟩

/- A channel that is still there starts what is asked. -/
theorem startsSession_of_state
    {inner : ServerInner PublicKey}
    {pre : List (ChannelId × ChannelEvent)}
    {s : Channels}
    {c : ChannelId}
    {st : ChannelState}
    (hExec :
      (machine inner).exec (machine inner).init pre = some s)
    (hState : (s c).state = some st)
    (hChannel : st.channel = true)
    (kind : SessionKindReq) :
    StartsSession inner pre c kind.event
      (kind.request st.pty)
      (inner.commandResolver (kind.request st.pty))
      st.env := by
  have hStep :
      (s c).step inner kind.event =
        some ((s c).startSession inner kind) := by
    cases kind <;> rfl
  refine ⟨s, Function.update s c
    ((s c).startSession inner kind), hExec, ?_, ?_⟩
  · simp [step, hStep]
  · rw [Function.update_self]
    simp [Slot.startSession, hState, hChannel]

/- What a start was given, read off the channel. -/
theorem StartsSession.state
    {inner : ServerInner PublicKey}
    {pre : List (ChannelId × ChannelEvent)}
    {c : ChannelId}
    {e : ChannelEvent}
    {request : SessionRequest}
    {command : SessionCommand}
    {env : List (Text × Text)}
    (hStarts :
      StartsSession inner pre c e request command env) :
    ∃ (s : Channels) (st : ChannelState)
      (kind : SessionKindReq),
      (machine inner).exec (machine inner).init pre =
          some s ∧
        (s c).state = some st ∧ st.channel = true ∧
        e = kind.event ∧ request = kind.request st.pty ∧
        command = inner.commandResolver request ∧
        env = st.env := by
  rcases hStarts with ⟨s, t, hPre, hStep, hNew⟩
  simp only [step, Option.map_eq_some_iff] at hStep
  rcases hStep with ⟨slot, hSlot, rfl⟩
  rw [Function.update_self] at hNew
  rcases Slot.step_runners hSlot with
    hSame | ⟨st, kind, hState, hChannel, hEvent, hRunners⟩ |
      hSftp | ⟨k, _, _, _, _, _, _, hSet⟩
  · rw [hSame] at hNew
    simp at hNew
  · rw [hRunners] at hNew
    have hRunner := List.append_cancel_left hNew
    simp only [List.cons.injEq, Runner.session.injEq,
      and_true] at hRunner
    rcases hRunner with ⟨rfl, rfl, rfl⟩
    exact ⟨s, st, kind, hPre, hState, hChannel, hEvent,
      rfl, rfl, rfl⟩
  · rw [hSftp] at hNew
    have hRunner := List.append_cancel_left hNew
    simp at hRunner
  · have hLength := congrArg List.length (hSet.symm.trans hNew)
    simp at hLength

/- A session is given the accepted requests of its channel. -/
theorem StartsSession.env_eq
    {inner : ServerInner PublicKey}
    {pre : List (ChannelId × ChannelEvent)}
    {c : ChannelId}
    {e : ChannelEvent}
    {request : SessionRequest}
    {command : SessionCommand}
    {env : List (Text × Text)}
    (hStarts :
      StartsSession inner pre c e request command env) :
    env = acceptedEnv inner (sentOn c pre) := by
  rcases hStarts.state with
    ⟨s, st, kind, hPre, hState, hChannel, _, _, _, hEnv⟩
  rw [hEnv]
  exact exec_sentOn hPre hState hChannel

/- The same start, after other env requests. -/
theorem StartsSession.transfer
    {inner : ServerInner PublicKey}
    {pre pre' : List (ChannelId × ChannelEvent)}
    {c : ChannelId}
    {e : ChannelEvent}
    {request : SessionRequest}
    {command : SessionCommand}
    {env : List (Text × Text)}
    (hStarts :
      StartsSession inner pre c e request command env)
    (hSame : withoutEnv pre = withoutEnv pre') :
    StartsSession inner pre' c e request command
      (acceptedEnv inner (sentOn c pre')) := by
  rcases hStarts.state with
    ⟨s, st, kind, hPre, hState, hChannel, rfl, rfl, rfl, rfl⟩
  rcases exec_equalApart (fun _ => rfl) hSame hPre with
    ⟨s', hPre', hApart⟩
  have hErased := congrArg Slot.state (hApart c)
  simp only [Slot.eraseEnv, hState, Option.map_some] at hErased
  rcases Option.map_eq_some_iff.mp hErased.symm with
    ⟨st', hState', hFields⟩
  simp only [ChannelState.mk.injEq] at hFields
  rcases hFields with ⟨hChannel', hPty', _⟩
  have hStart := startsSession_of_state hPre' hState'
    (hChannel'.trans hChannel) kind
  rw [hPty', exec_sentOn hPre' hState'
    (hChannel'.trans hChannel)] at hStart
  exact hStart

/- A start with what follows it is a run of the session. -/
theorem StartsSession.exec
    {inner : ServerInner PublicKey}
    {pre post : List (ChannelId × ChannelEvent)}
    {c : ChannelId}
    {e : ChannelEvent}
    {u : Channels}
    {request : SessionRequest}
    {command : SessionCommand}
    {env : List (Text × Text)}
    (hStarts :
      StartsSession inner pre c e request command env)
    (hExec :
      (machine inner).exec (machine inner).init
        (pre ++ (c, e) :: post) = some u) :
    (u c).Runs request command env := by
  rcases hStarts with ⟨s, t, hPre, hStep, hNew⟩
  rcases Machine.exec_append.mp hExec with
    ⟨s', hPre', hRest⟩
  rw [hPre] at hPre'
  cases hPre'
  rcases Machine.exec_cons.mp hRest with ⟨t', hStep', hPost⟩
  rw [show (machine inner).step s (c, e) = _ from hStep]
    at hStep'
  cases hStep'
  refine exec_runs ⟨.running, ?_⟩ hPost
  rw [hNew]
  simp

/- The run with other env requests, to its end. -/
theorem StartsSession.run_transfer
    {inner : ServerInner PublicKey}
    {pre pre' post post' : List (ChannelId × ChannelEvent)}
    {c : ChannelId}
    {e : ChannelEvent}
    {u : Channels}
    {request : SessionRequest}
    {command : SessionCommand}
    {env : List (Text × Text)}
    (hStarts :
      StartsSession inner pre c e request command env)
    (hExec :
      (machine inner).exec (machine inner).init
        (pre ++ (c, e) :: post) = some u)
    (hPre : withoutEnv pre = withoutEnv pre')
    (hPost : withoutEnv post = withoutEnv post') :
    ∃ u',
      (machine inner).exec (machine inner).init
          (pre' ++ (c, e) :: post') = some u' ∧
        (u' c).Runs request command
          (acceptedEnv inner (sentOn c pre')) := by
  have hEvents :
      withoutEnv (pre ++ (c, e) :: post) =
        withoutEnv (pre' ++ (c, e) :: post') := by
    simp only [withoutEnv, List.filter_append,
      List.filter_cons] at hPre hPost ⊢
    rw [hPre, hPost]
  rcases exec_equalApart (fun _ => rfl) hEvents hExec with
    ⟨u', hExec', _⟩
  exact ⟨u', hExec', (hStarts.transfer hPre).exec hExec'⟩

end Channels

end Sshdt

------------------------------------------------------------
-- Bindings Of A Session
------------------------------------------------------------

namespace Sshdt

variable {PublicKey : Type}

/- The client's environment stands below the resolver's. -/
theorem envBinding_runSessionEnv
    (host : Host)
    (request : SessionRequest)
    (command : SessionCommand)
    (env : List (Text × Text))
    (name : Text) :
    envBinding name
        (runSessionEnv host request command env) =
      (envBinding name command.env).or
        ((envBinding name env).or
          (envBinding name
            (sessionEnvBase host command.program
              request.pty))) := by
  simp [envBinding, runSessionEnv, sessionEnvOverrides,
    Option.or_assoc]

/- A refused name is not among the accepted pairs. -/
theorem envBinding_acceptedEnv_of_refused
    {inner : ServerInner PublicKey}
    {name : Text}
    (hRefused : envAllowed name inner.acceptEnv = false)
    (sent : List (Text × Text)) :
    envBinding name (acceptedEnv inner sent) = none := by
  apply Bindings.lastValue_eq_none
  intro b hMem
  rcases List.mem_filter.mp hMem with ⟨_, hAllowed⟩
  by_contra hSame
  rw [Bool.not_eq_false, beq_iff_eq] at hSame
  rw [hSame, hRefused] at hAllowed
  cases hAllowed

/- An allowed name keeps all the pairs sent for it. -/
theorem envBinding_acceptedEnv_of_allowed
    {inner : ServerInner PublicKey}
    {name : Text}
    (hAllowed : envAllowed name inner.acceptEnv = true)
    (sent : List (Text × Text)) :
    envBinding name (acceptedEnv inner sent) =
      envBinding name sent := by
  apply Bindings.lastValue_filter
  intro b hSame
  rw [beq_iff_eq] at hSame
  rw [hSame]
  exact hAllowed

/- A name that the resolver does not set. -/
theorem envBinding_eq_none_of_not_mem
    {name : Text}
    {env : List (Text × Text)}
    (hNot : name ∉ env.map Prod.fst) :
    envBinding name env = none := by
  apply Bindings.lastValue_eq_none
  intro b hMem
  by_contra hSame
  rw [Bool.not_eq_false, beq_iff_eq] at hSame
  exact hNot (List.mem_map.mpr ⟨b, hMem, hSame⟩)

namespace Channels

/-
  Client environment stays within the allowlist: for every
  run of a connection and every session that runs at its
  end, the names outside the allowlist are bound as if no
  env request had been sent, an allowed name that the
  resolver leaves alone is bound to the last value sent on
  the channel before the start, and env requests elsewhere
  change nothing.
-/
theorem client_env_confined
    (host : Host)
    {inner : ServerInner PublicKey}
    {es : List (ChannelId × ChannelEvent)}
    {u : Channels}
    {c : ChannelId}
    {request : SessionRequest}
    {command : SessionCommand}
    {env : List (Text × Text)}
    (hExec :
      (machine inner).exec (machine inner).init es = some u)
    (hRuns : (u c).Runs request command env) :
    ∃ pre e post,
      es = pre ++ (c, e) :: post ∧
        StartsSession inner pre c e request command env ∧
        EnvConfined host inner pre c e post request command
          env := by
  rcases exists_startsSession hExec hRuns with
    ⟨pre, e, post, rfl, hStarts⟩
  refine ⟨pre, e, post, rfl, hStarts, ?_, ?_, ?_, ?_⟩
  · rcases hStarts.state with
      ⟨_, _, kind, _, _, _, hEvent, _⟩
    have hNot : e.isEnv = false := by
      rw [hEvent]
      cases kind <;> rfl
    have hRun := hStarts.run_transfer hExec
      (withoutEnv_idem pre).symm (withoutEnv_idem post).symm
    rw [sentOn_withoutEnv] at hRun
    rw [withoutEnv_append, withoutEnv_cons_of_not hNot]
    exact hRun
  · intro name hRefused
    rw [hStarts.env_eq, envBinding_runSessionEnv,
      envBinding_runSessionEnv,
      envBinding_acceptedEnv_of_refused hRefused]
    rfl
  · intro name hAllowed hNot
    rw [hStarts.env_eq, envBinding_runSessionEnv,
      envBinding_runSessionEnv,
      envBinding_acceptedEnv_of_allowed hAllowed,
      envBinding_eq_none_of_not_mem hNot]
    rfl
  · intro pre' post' hPre hSent hPost
    rw [hStarts.env_eq, ← hSent]
    exact hStarts.run_transfer hExec hPre.symm hPost.symm

/- A host with a home directory and nothing else set. -/
def bareHost : Host where
  readToString _ := none
  pathExists _ := false
  isDir _ := false
  homeDir := some "/home/me".toList
  envVar _ := none

/-
  Two channels: the client sets `LANG` twice and `PATH` on
  the first, and `LANG` on the second and after the start.
-/
def envRun : List (ChannelId × ChannelEvent) :=
  [(0, .opens), (1, .opens),
    (0, .env "LANG".toList "C".toList),
    (0, .env "PATH".toList "/tmp".toList),
    (1, .env "LANG".toList "de".toList),
    (0, .env "LANG".toList "en".toList),
    (0, .exec "env".toList),
    (0, .env "LANG".toList "fr".toList)]

theorem envRun_confined :
    let s := (machine shellServer).final envRun (by decide)
    ∃ request command env,
      (s 0).Runs request command env ∧
        envBinding "LANG".toList
            (runSessionEnv bareHost request command env) =
          some "en".toList ∧
        envBinding "PATH".toList
            (runSessionEnv bareHost request command env) =
          none ∧
        ∃ pre e post,
          envRun = pre ++ (0, e) :: post ∧
            StartsSession shellServer pre 0 e request
              command env ∧
            EnvConfined bareHost shellServer pre 0 e post
              request command env := by
  intro s
  refine ⟨.exec "env".toList none,
    shellServer.commandResolver (.exec "env".toList none),
    [("LANG".toList, "C".toList),
      ("LANG".toList, "en".toList)], ?_, by decide,
    by decide, ?_⟩
  · exact ⟨.running, by decide⟩
  · exact client_env_confined bareHost
      (Option.some_get (by decide)).symm
      ⟨.running, by decide⟩

end Channels

end Sshdt

import Sshdt.Config.Basic
import Sshdt.DevTunnel.Gate
import Sshdt.Lib.FileLock

/-
  How proxies find the broker of their tunnel (`broker`,
  `acquire`, `broker_lock_held` and `broker_response` in
  `src/devtunnel/client.rs`).

  Any number of broker and proxy processes share a directory
  with a lock file and an endpoint file for each tunnel. A
  broker locks the lock file, listens on a port of its own
  and publishes the port and its token. A proxy asks whether
  the lock is held, reads the endpoint file, connects and
  presents the token. Every system call is a step of its
  own, and each process may end between two of them.

  The tokens of the brokers are a parameter. A lock belongs
  to one process and is released when that process ends, the
  endpoint file is replaced as a whole, and whatever listens
  on a published port is a broker.

  Key definitions include:
    * `Rendezvous`
    * `Rendezvous.brokerStep`
    * `Rendezvous.proxyStep`
    * `Rendezvous.Inv`

  Key theorems include:
    * `Rendezvous.brokerStep_inv`
    * `Rendezvous.proxyStep_inv`
    * `Rendezvous.Inv.locked_not_probed`
    * `Rendezvous.one_broker_per_tunnel`
-/

------------------------------------------------------------
-- Files
------------------------------------------------------------

namespace Sshdt

namespace DevTunnel

/- The endpoint file of a tunnel. -/
def endpointName
    (tunnel : Text) : Text :=
  tunnel ++ ".json".toList

/- The lock file of a tunnel, as `broker` names it. -/
def lockName
    (tunnel : Text) : Text :=
  tunnel ++ ".lock".toList

/- The lock file of a tunnel, as `acquire` names it. -/
def probeName
    (tunnel : Text) : Text :=
  Path.withExtension (endpointName tunnel) "lock".toList

/- Different tunnels have different endpoint files. -/
theorem endpointName_injective :
    Function.Injective endpointName := by
  intro tunnel tunnel' hEq
  exact List.append_cancel_right hEq

/- Both sides name the same lock file. -/
theorem probeName_eq
    {tunnel : Text}
    (hTunnel : tunnel ≠ []) :
    probeName tunnel = lockName tunnel := by
  unfold probeName endpointName lockName
  exact Path.withExtension_append hTunnel
    (by decide) (by decide) (by decide)

end DevTunnel

end Sshdt

------------------------------------------------------------
-- Processes
------------------------------------------------------------

namespace Sshdt

namespace DevTunnel

/- `ipc::Endpoint`. -/
structure Endpoint where
  port : UInt16
  token : Text
  deriving DecidableEq, Repr

/- `ipc::Response`. -/
structure Response where
  version : UInt32
  error : Option Text
  deriving DecidableEq, Repr

/- `ProxyRequest`. -/
structure ProxyRequest where
  tunnel : Text
  remotePort : UInt16
  localPort : Option UInt16
  timeout : Duration
  deriving DecidableEq, Repr

/- The checks at the head of `proxy`. -/
def ProxyRequest.valid
    (request : ProxyRequest) : Bool :=
  validTunnelId request.tunnel &&
    request.remotePort != 0 && request.localPort != some 0 &&
    request.timeout != 0

/-
  Where `broker` is. It is `draining` from the removal of
  the endpoint file, or from an error, to the release of the
  lock, and `returned` from there to the end of the process.
-/
inductive BrokerPhase where
  | absent
  | opening
  | opened
  | locked
  | bound (port : UInt16)
  | serving (port : UInt16)
  | closed
  | draining
  | returned
  | gone
  deriving DecidableEq, Repr

namespace BrokerPhase

/- From the success of `try_lock` to `drop(lock)`. -/
def holdsLock : BrokerPhase → Bool
| locked | bound _ | serving _ | closed | draining => true
| _ => false

/-
  A broker lives until it gives up the lock, the last thing
  it does, or finds that it cannot have it.
-/
def live : BrokerPhase → Bool
| absent | returned | gone => false
| _ => true

/- Sessions of accepted connections may be running. -/
def serves : BrokerPhase → Bool
| serving _ | closed | draining | returned => true
| _ => false

/- The endpoint file is written. -/
def pastPublish : BrokerPhase → Bool
| serving _ | closed | draining | returned | gone => true
| _ => false

end BrokerPhase

/- A broker process. -/
structure BrokerProcess where
  tunnel : Text
  phase : BrokerPhase
  published : Bool
  deriving DecidableEq, Repr

/-
  A connection of a proxy to a broker, with what has been
  sent in either direction.
-/
structure TcpStream where
  broker : Nat
  accepted : Bool
  hello : Option Request
  reply : Option Response
  deriving DecidableEq, Repr

namespace TcpStream

/- A connection that has just been opened. -/
def opened
    (broker : Nat) : TcpStream :=
  ⟨broker, false, none, none⟩

def accept
    (stream : TcpStream) : TcpStream :=
  { stream with accepted := true }

def answer
    (response : Response)
    (stream : TcpStream) : TcpStream :=
  { stream with reply := some response }

/-
  `serve` goes on: a request with the token of the broker
  has arrived and is not answered.
-/
def presents
    (token : Text)
    (stream : TcpStream) : Bool :=
  stream.reply.isNone &&
    stream.hello.any fun request =>
      sameToken request.token token

end TcpStream

/-
  Where `acquire` is. In `probing` and `rechecking` the test
  of the lock has succeeded in locking it.
-/
inductive ProxyPhase where
  | absent
  | looping
  | opened
  | probing
  | lockSeen
  | found (endpoint : Endpoint)
  | connected (endpoint : Endpoint) (stream : TcpStream)
  | waiting (stream : TcpStream)
  | rechecking (stream : TcpStream)
  | returned (stream : TcpStream)
  | failed
  deriving DecidableEq, Repr

namespace ProxyPhase

/- The connection that a proxy has. -/
def stream? : ProxyPhase → Option TcpStream
| connected _ stream | waiting stream
| rechecking stream | returned stream => some stream
| _ => none

/- The token that a proxy is about to present, or has. -/
def token? : ProxyPhase → Option Text
| found endpoint | connected endpoint _ => some endpoint.token
| waiting stream | rechecking stream | returned stream =>
    stream.hello.map Request.token
| _ => none

/- Something happens on the connection. -/
def mapStream
    (f : TcpStream → TcpStream) : ProxyPhase → ProxyPhase
| connected endpoint stream => connected endpoint (f stream)
| waiting stream => waiting (f stream)
| rechecking stream => rechecking (f stream)
| phase => phase

end ProxyPhase

/- A proxy process. -/
structure ProxyProcess where
  request : ProxyRequest
  phase : ProxyPhase
  deriving DecidableEq, Repr

/- Who may hold a lock. -/
inductive Holder where
  | broker (b : Nat)
  | proxy (p : Nat)
  deriving DecidableEq, Repr

end DevTunnel

end Sshdt

------------------------------------------------------------
-- Broker Steps
------------------------------------------------------------

namespace Sshdt

namespace DevTunnel

/- The processes and what they share. -/
structure Rendezvous where
  brokers : Nat → BrokerProcess
  proxies : Nat → ProxyProcess
  locks : Text → FileLock Holder
  endpoints : Text → Option Endpoint
  listeners : UInt16 → Option Nat

namespace Rendezvous

/- An empty directory, and no processes. -/
def initial : Rendezvous where
  brokers := fun _ => ⟨[], .absent, false⟩
  proxies := fun _ => ⟨⟨[], 0, none, 0⟩, .absent⟩
  locks := fun _ => .missing
  endpoints := fun _ => none
  listeners := fun _ => none

/- What a broker does next. -/
inductive BrokerAct where
  | start (tunnel : Text)
  | openLock (ok : Bool)
  | tryLock (error : Bool)
  | bind (port : UInt16)
  | publish
  | fails
  | dropListener
  | removeFile (ok : Bool)
  | dropLock
  | exits
  | accept (p : Nat)
  | answer (p : Nat) (error : Option Text)
  deriving DecidableEq, Repr

/- The broker goes on to a phase. -/
def moveBroker
    (w : Rendezvous)
    (b : Nat)
    (phase : BrokerPhase) : Rendezvous :=
  { w with
    brokers := Function.update w.brokers b
      { w.brokers b with phase } }

theorem phase_moveBroker
    (w : Rendezvous)
    (b : Nat)
    (phase : BrokerPhase) :
    ((w.moveBroker b phase).brokers b).phase = phase := by
  simp only [moveBroker, Function.update_self]

/- The proxy goes on to a phase. -/
def moveProxy
    (w : Rendezvous)
    (p : Nat)
    (phase : ProxyPhase) : Rendezvous :=
  { w with
    proxies := Function.update w.proxies p
      { w.proxies p with phase } }

/- Nothing listens for the broker any more. -/
def closeListener
    (w : Rendezvous)
    (b : Nat) : Rendezvous :=
  { w with
    listeners := fun port =>
      if w.listeners port = some b then
        none
      else
        w.listeners port }

/- The process gives back its locks. -/
def releaseLocks
    (w : Rendezvous)
    (holder : Holder) : Rendezvous :=
  { w with locks := FileLock.release w.locks holder }

/- `temporary.persist(&endpoint_path)`. -/
def persist
    (w : Rendezvous)
    (b : Nat)
    (endpoint : Endpoint) : Rendezvous :=
  let process := w.brokers b
  { w with
    brokers := Function.update w.brokers b
      { process with
        phase := .serving endpoint.port
        published := true }
    endpoints := Function.update w.endpoints
      (endpointName process.tunnel) (some endpoint) }

/- `fs::remove_file(endpoint_path)`. -/
def removeEndpoint
    (w : Rendezvous)
    (b : Nat) : Rendezvous :=
  { w with
    endpoints := Function.update w.endpoints
      (endpointName (w.brokers b).tunnel) none }

/-
  A step of `broker`. An error after the lock was taken drops
  the listener and leaves the endpoint file; the end of the
  process, at any time, takes its listener and its lock.
-/
def brokerStep
    (token : Nat → Text)
    (w : Rendezvous)
    (b : Nat) :
    BrokerAct → Option Rendezvous
| .start tunnel =>
    match (w.brokers b).phase with
    | .absent =>
        some { w with
          brokers := Function.update w.brokers b
            { tunnel
              phase :=
                if validTunnelId tunnel then
                  .opening
                else
                  .returned
              published := false } }
    | _ => none
| .openLock ok =>
    match (w.brokers b).phase with
    | .opening =>
        if ok then
          some (moveBroker
            { w with
              locks := FileLock.openCreate w.locks
                (lockName (w.brokers b).tunnel) } b .opened)
        else
          some (w.moveBroker b .returned)
    | _ => none
| .tryLock error =>
    match (w.brokers b).phase with
    | .opened =>
        match error, FileLock.tryLock w.locks
            (lockName (w.brokers b).tunnel) (.broker b) with
        | false, some locks =>
            some (moveBroker { w with locks } b .locked)
        | _, _ => some (w.moveBroker b .returned)
    | _ => none
| .bind port =>
    match (w.brokers b).phase with
    | .locked =>
        if w.listeners port = none then
          some (moveBroker
            { w with
              listeners := Function.update w.listeners port
                (some b) } b (.bound port))
        else
          none
    | _ => none
| .publish =>
    match (w.brokers b).phase with
    | .bound port => some (w.persist b ⟨port, token b⟩)
    | _ => none
| .fails =>
    match (w.brokers b).phase with
    | .locked | .bound _ | .serving _ =>
        some ((w.closeListener b).moveBroker b .draining)
    | _ => none
| .dropListener =>
    match (w.brokers b).phase with
    | .serving _ =>
        some ((w.closeListener b).moveBroker b .closed)
    | _ => none
| .removeFile ok =>
    match (w.brokers b).phase with
    | .closed =>
        if ok then
          some ((w.removeEndpoint b).moveBroker b .draining)
        else
          some (w.moveBroker b .draining)
    | _ => none
| .dropLock =>
    match (w.brokers b).phase with
    | .draining =>
        some ((w.moveBroker b .returned).releaseLocks
          (.broker b))
    | _ => none
| .exits =>
    match (w.brokers b).phase with
    | .absent => none
    | _ =>
        some (((w.closeListener b).moveBroker b
          .gone).releaseLocks (.broker b))
| .accept p =>
    match (w.brokers b).phase,
        (w.proxies p).phase.stream? with
    | .serving _, some stream =>
        if stream.broker = b then
          some (w.moveProxy p
            ((w.proxies p).phase.mapStream .accept))
        else
          none
    | _, _ => none
| .answer p error =>
    match (w.proxies p).phase.stream? with
    | some stream =>
        if (w.brokers b).phase.serves = true ∧
            stream.broker = b ∧ stream.accepted = true ∧
            stream.presents (token b) = true then
          some (w.moveProxy p
            ((w.proxies p).phase.mapStream
              (.answer ⟨ipcVersion, error⟩)))
        else
          none
    | none => none

end Rendezvous

end DevTunnel

end Sshdt

------------------------------------------------------------
-- Proxy Steps
------------------------------------------------------------

namespace Sshdt

namespace DevTunnel

namespace Rendezvous

/- What a proxy does next. -/
inductive ProxyAct where
  | acquire (request : ProxyRequest)
  | openLock (ok : Bool)
  | tryLock (error : Bool)
  | unlock (ok : Bool)
  | readEndpoint (ok : Bool)
  | connect (ok : Bool)
  | sendHello (ok : Bool)
  | receive
  | streamFails
  | exits
  deriving DecidableEq, Repr

/- The request that `acquire` sends. -/
def hello
    (request : ProxyRequest)
    (endpoint : Endpoint) : Request where
  version := ipcVersion
  token := endpoint.token
  remotePort := request.remotePort
  localPort := request.localPort

/-
  A step of `acquire`. What does not succeed takes it back to
  the head of its loop, except an error of the first look at
  the lock and an answer that is a refusal.
-/
def proxyStep
    (w : Rendezvous)
    (p : Nat) :
    ProxyAct → Option Rendezvous
| .acquire request =>
    match (w.proxies p).phase with
    | .absent =>
        some { w with
          proxies := Function.update w.proxies p
            { request
              phase :=
                if request.valid then
                  .looping
                else
                  .failed } }
    | _ => none
| .openLock ok =>
    match (w.proxies p).phase with
    | .looping =>
        if ok = true ∧ w.locks
            (probeName (w.proxies p).request.tunnel) ≠
              .missing then
          some (w.moveProxy p .opened)
        else
          some w
    | _ => none
| .tryLock error =>
    match (w.proxies p).phase, error, FileLock.tryLock w.locks
        (probeName (w.proxies p).request.tunnel)
        (.proxy p) with
    | .opened, true, _ => some (w.moveProxy p .failed)
    | .opened, false, some locks =>
        some (moveProxy { w with locks } p .probing)
    | .opened, false, none =>
        some (w.moveProxy p .lockSeen)
    | .waiting _, true, _ => some (w.moveProxy p .looping)
    | .waiting stream, false, some locks =>
        some (moveProxy { w with locks } p
          (.rechecking stream))
    | .waiting _, false, none => some w
    | _, _, _ => none
| .unlock ok =>
    match (w.proxies p).phase with
    | .probing =>
        some ((w.moveProxy p
          (if ok then .looping else .failed)).releaseLocks
          (.proxy p))
    | .rechecking _ =>
        some ((w.moveProxy p .looping).releaseLocks
          (.proxy p))
    | _ => none
| .readEndpoint ok =>
    match (w.proxies p).phase, ok, w.endpoints
        (endpointName (w.proxies p).request.tunnel) with
    | .lockSeen, true, some endpoint =>
        some (w.moveProxy p (.found endpoint))
    | .lockSeen, _, _ => some (w.moveProxy p .looping)
    | _, _, _ => none
| .connect ok =>
    match (w.proxies p).phase with
    | .found endpoint =>
        match ok, w.listeners endpoint.port with
        | true, some b =>
            some (w.moveProxy p
              (.connected endpoint (.opened b)))
        | _, _ => some (w.moveProxy p .looping)
    | _ => none
| .sendHello ok =>
    match (w.proxies p).phase with
    | .connected endpoint stream =>
        if ok then
          some (w.moveProxy p (.waiting
            { stream with
              hello := some
                (hello (w.proxies p).request endpoint) }))
        else
          some (w.moveProxy p .looping)
    | _ => none
| .receive =>
    match (w.proxies p).phase with
    | .waiting stream =>
        match stream.reply with
        | some response =>
            if response.version = ipcVersion ∧
                response.error = none then
              some (w.moveProxy p (.returned stream))
            else
              some (w.moveProxy p .failed)
        | none => none
    | _ => none
| .streamFails =>
    match (w.proxies p).phase with
    | .waiting _ => some (w.moveProxy p .looping)
    | _ => none
| .exits =>
    match (w.proxies p).phase with
    | .absent => none
    | _ =>
        some ((w.moveProxy p .failed).releaseLocks (.proxy p))

/- A step of one of the processes. -/
inductive Event where
  | broker (b : Nat) (act : BrokerAct)
  | proxy (p : Nat) (act : ProxyAct)
  deriving DecidableEq, Repr

def step
    (token : Nat → Text)
    (w : Rendezvous) :
    Event → Option Rendezvous
| .broker b act => w.brokerStep token b act
| .proxy p act => w.proxyStep p act

/- All runs of brokers with given tokens, and of proxies. -/
def machine
    (token : Nat → Text) : Machine Rendezvous Event where
  init := initial
  step := step token

end Rendezvous

end DevTunnel

end Sshdt

------------------------------------------------------------
-- Invariant
------------------------------------------------------------

namespace Sshdt

namespace DevTunnel

namespace Rendezvous

/- The broker has published the endpoint of the tunnel. -/
structure IsBrokerOf
    (brokers : Nat → BrokerProcess)
    (b : Nat)
    (tunnel : Text) : Prop where
  tunnel_eq : (brokers b).tunnel = tunnel
  published : (brokers b).published = true

/- No two brokers that were started have the same token. -/
def DistinctTokens
    (token : Nat → Text)
    (w : Rendezvous) : Prop :=
  ∀ a b,
    (w.brokers a).phase ≠ .absent →
      (w.brokers b).phase ≠ .absent →
      token a = token b →
      a = b

/- The endpoint file of its tunnel is from this broker. -/
def PublishedBy
    (token : Nat → Text)
    (w : Rendezvous)
    (b : Nat) : Prop :=
  ∃ endpoint,
    w.endpoints (endpointName (w.brokers b).tunnel) =
        some endpoint ∧
      endpoint.token = token b

/- A token that was read for a tunnel is of its brokers. -/
def Known
    (token : Nat → Text)
    (brokers : Nat → BrokerProcess)
    (tunnel t : Text) : Prop :=
  ∃ a, IsBrokerOf brokers a tunnel ∧ t = token a

/- What holds of the connection of a proxy. -/
structure PhaseInv
    (token : Nat → Text)
    (brokers : Nat → BrokerProcess)
    (tunnel : Text)
    (phase : ProxyPhase) : Prop where
  unsent :
    ∀ endpoint stream, phase = .connected endpoint stream →
      stream.hello = none
  known :
    ∀ t, phase.token? = some t → Known token brokers tunnel t
  answered :
    ∀ stream, phase.stream? = some stream →
      stream.reply ≠ none →
        phase.token? = some (token stream.broker) ∧
          (brokers stream.broker).phase ≠ .absent
  returned :
    ∀ stream, phase = .returned stream →
      stream.reply ≠ none

/-
  A broker in a phase that needs the lock has it. What is in
  an endpoint file, and what proxies have read from one, are
  tokens of brokers of that tunnel, and an answer on a
  connection shows the token of the other end.
-/
structure Inv
    (token : Nat → Text)
    (w : Rendezvous) : Prop where
  locked :
    ∀ b, (w.brokers b).phase.holdsLock = true →
      w.locks (lockName (w.brokers b).tunnel) =
        .held (.broker b)
  published :
    ∀ b, (w.brokers b).published = true →
      (w.brokers b).phase.pastPublish = true
  endpoints :
    ∀ name endpoint, w.endpoints name = some endpoint →
      ∃ tunnel, endpointName tunnel = name ∧
        Known token w.brokers tunnel endpoint.token
  proxies :
    ∀ p, PhaseInv token w.brokers
      (w.proxies p).request.tunnel (w.proxies p).phase

end Rendezvous

end DevTunnel

end Sshdt

------------------------------------------------------------
-- What A Change Keeps
------------------------------------------------------------

namespace Sshdt

namespace DevTunnel

namespace Rendezvous

variable {token : Nat → Text}
variable {brokers brokers' : Nat → BrokerProcess}
variable {w w' : Rendezvous}
variable {tunnel t : Text}
variable {phase : ProxyPhase}

/- Brokers keep their tunnel and what they have published. -/
structure Keeps
    (brokers brokers' : Nat → BrokerProcess) : Prop where
  started :
    ∀ a, (brokers a).phase ≠ .absent →
      (brokers' a).phase ≠ .absent
  published :
    ∀ a tunnel, IsBrokerOf brokers a tunnel →
      IsBrokerOf brokers' a tunnel

/- A change of one broker. -/
theorem keeps_update
    {b : Nat}
    {process : BrokerProcess}
    (hStarted : process.phase ≠ .absent)
    (hProcess :
      (brokers b).published = true →
        process.tunnel = (brokers b).tunnel ∧
          process.published = true) :
    Keeps brokers (Function.update brokers b process) := by
  constructor
  · intro a hOld
    by_cases hSame : a = b
    · rw [hSame, Function.update_self]
      exact hStarted
    · rw [Function.update_of_ne hSame]
      exact hOld
  · intro a tunnel hBroker
    by_cases hSame : a = b
    · subst hSame
      rcases hProcess hBroker.published with
        ⟨hTunnel, hPublished⟩
      constructor
      · rw [Function.update_self, hTunnel, hBroker.tunnel_eq]
      · rw [Function.update_self, hPublished]
    · constructor
      · rw [Function.update_of_ne hSame, hBroker.tunnel_eq]
      · rw [Function.update_of_ne hSame, hBroker.published]

theorem Known.mono
    (hKeeps : Keeps brokers brokers')
    (hKnown : Known token brokers tunnel t) :
    Known token brokers' tunnel t := by
  rcases hKnown with ⟨a, hBroker, hToken⟩
  exact ⟨a, hKeeps.published a tunnel hBroker, hToken⟩

theorem PhaseInv.mono
    (hKeeps : Keeps brokers brokers')
    (hPhase : PhaseInv token brokers tunnel phase) :
    PhaseInv token brokers' tunnel phase where
  unsent := hPhase.unsent
  known := fun t hToken => (hPhase.known t hToken).mono hKeeps
  answered := fun stream hStream hReply => by
    rcases hPhase.answered stream hStream hReply with
      ⟨hToken, hStarted⟩
    exact ⟨hToken, hKeeps.started stream.broker hStarted⟩
  returned := hPhase.returned

/- A phase without a token has nothing to show. -/
theorem PhaseInv.of_none
    (hToken : phase.token? = none)
    (hStream : phase.stream? = none) :
    PhaseInv token brokers tunnel phase where
  unsent := fun endpoint stream hConnected => by
    subst hConnected
    cases hStream
  known := fun t hSome => by
    rw [hToken] at hSome
    cases hSome
  answered := fun stream hSome => by
    rw [hStream] at hSome
    cases hSome
  returned := fun stream hReturned => by
    subst hReturned
    cases hStream

theorem inv_initial :
    initial.Inv token where
  locked := fun _ hHolds => by cases hHolds
  published := fun _ hPublished => by cases hPublished
  endpoints := fun _ _ hEndpoint => by cases hEndpoint
  proxies := fun _ => .of_none rfl rfl

/- A change that only concerns listeners. -/
theorem Inv.of_listeners
    (hInv : w.Inv token)
    (listeners : UInt16 → Option Nat) :
    Inv token { w with listeners } :=
  ⟨hInv.locked, hInv.published, hInv.endpoints, hInv.proxies⟩

/- A change of the locks that leaves the brokers theirs. -/
theorem Inv.of_locks
    {locks : Text → FileLock Holder}
    (hInv : w.Inv token)
    (hLocks :
      ∀ b, (w.brokers b).phase.holdsLock = true →
        ∀ name, w.locks name = .held (.broker b) →
          locks name = .held (.broker b)) :
    Inv token { w with locks } :=
  ⟨fun b hHolds => hLocks b hHolds _ (hInv.locked b hHolds),
    hInv.published, hInv.endpoints, hInv.proxies⟩

/- A change of one broker that has the lock it needs. -/
theorem Inv.setBroker
    {b : Nat}
    {process : BrokerProcess}
    (hInv : w.Inv token)
    (hStarted : process.phase ≠ .absent)
    (hLocked :
      process.phase.holdsLock = true →
        w.locks (lockName process.tunnel) =
          .held (.broker b))
    (hPast :
      process.published = true →
        process.phase.pastPublish = true)
    (hProcess :
      (w.brokers b).published = true →
        process.tunnel = (w.brokers b).tunnel ∧
          process.published = true) :
    Inv token { w with
      brokers := Function.update w.brokers b process } := by
  have hKeeps := keeps_update hStarted hProcess
  refine ⟨?_, ?_, ?_, fun p => (hInv.proxies p).mono hKeeps⟩
  · intro a hHolds
    by_cases hSame : a = b
    · subst hSame
      simp only [Function.update_self] at hHolds ⊢
      exact hLocked hHolds
    · simp only [Function.update_of_ne hSame] at hHolds ⊢
      exact hInv.locked a hHolds
  · intro a hPublished
    by_cases hSame : a = b
    · subst hSame
      simp only [Function.update_self] at hPublished ⊢
      exact hPast hPublished
    · simp only [Function.update_of_ne hSame] at hPublished ⊢
      exact hInv.published a hPublished
  · intro name endpoint hEndpoint
    rcases hInv.endpoints name endpoint hEndpoint with
      ⟨tunnel, hName, hKnown⟩
    exact ⟨tunnel, hName, hKnown.mono hKeeps⟩

theorem Inv.moveBroker
    {b : Nat}
    {phase : BrokerPhase}
    (hInv : w.Inv token)
    (hStarted : phase ≠ .absent)
    (hLocked :
      phase.holdsLock = true →
        w.locks (lockName (w.brokers b).tunnel) =
          .held (.broker b))
    (hPast :
      (w.brokers b).published = true →
        phase.pastPublish = true) :
    (w.moveBroker b phase).Inv token :=
  hInv.setBroker hStarted hLocked hPast
    (fun hPublished => ⟨rfl, hPublished⟩)

/- A broker that has the lock publishes its endpoint. -/
theorem Inv.persist
    {b : Nat}
    {port : UInt16}
    (hInv : w.Inv token)
    (hHolds : (w.brokers b).phase.holdsLock = true) :
    (w.persist b ⟨port, token b⟩).Inv token := by
  have hSet : Inv token { w with
      brokers := Function.update w.brokers b
        { w.brokers b with
          phase := .serving port
          published := true } } :=
    hInv.setBroker (fun hEq => by cases hEq)
      (fun _ => hInv.locked b hHolds)
      (fun _ => rfl) (fun _ => ⟨rfl, rfl⟩)
  refine ⟨hSet.locked, hSet.published, ?_, hSet.proxies⟩
  intro name endpoint hEndpoint
  by_cases hName : name = endpointName (w.brokers b).tunnel
  · subst hName
    simp only [Rendezvous.persist, Function.update_self,
      Option.some.injEq] at hEndpoint
    subst hEndpoint
    refine ⟨_, rfl, b, ⟨?_, ?_⟩, rfl⟩
    · simp [Rendezvous.persist]
    · simp [Rendezvous.persist]
  · simp only [Rendezvous.persist,
      Function.update_of_ne hName] at hEndpoint
    exact hSet.endpoints name endpoint hEndpoint

theorem Inv.removeEndpoint
    (hInv : w.Inv token)
    (b : Nat) :
    (w.removeEndpoint b).Inv token := by
  refine ⟨hInv.locked, hInv.published, ?_, hInv.proxies⟩
  intro name endpoint hEndpoint
  by_cases hName : name = endpointName (w.brokers b).tunnel
  · subst hName
    simp [Rendezvous.removeEndpoint] at hEndpoint
  · simp only [Rendezvous.removeEndpoint,
      Function.update_of_ne hName] at hEndpoint
    exact hInv.endpoints name endpoint hEndpoint

/- A change of one proxy. -/
theorem Inv.setProxy
    {p : Nat}
    {process : ProxyProcess}
    (hInv : w.Inv token)
    (hProcess :
      PhaseInv token w.brokers process.request.tunnel
        process.phase) :
    Inv token { w with
      proxies := Function.update w.proxies p process } := by
  refine ⟨hInv.locked, hInv.published, hInv.endpoints, ?_⟩
  intro q
  by_cases hSame : q = p
  · subst hSame
    simp only [Function.update_self]
    exact hProcess
  · simp only [Function.update_of_ne hSame]
    exact hInv.proxies q

theorem Inv.moveProxy
    {p : Nat}
    (hInv : w.Inv token)
    (hPhase :
      PhaseInv token w.brokers (w.proxies p).request.tunnel
        phase) :
    (w.moveProxy p phase).Inv token :=
  hInv.setProxy hPhase

/- The locks of a process that needs none are given back. -/
theorem Inv.releaseLocks
    {holder : Holder}
    (hInv : w.Inv token)
    (hIdle :
      ∀ b, holder = .broker b →
        (w.brokers b).phase.holdsLock = false) :
    (w.releaseLocks holder).Inv token := by
  apply hInv.of_locks
  intro b hHolds name hHeld
  have hOther : Holder.broker b ≠ holder := by
    intro hEq
    rw [hIdle b hEq.symm] at hHolds
    cases hHolds
  exact FileLock.held_release hOther hHeld

end Rendezvous

end DevTunnel

end Sshdt

------------------------------------------------------------
-- Steps Keep The Invariant
------------------------------------------------------------

namespace Sshdt

namespace DevTunnel

namespace Rendezvous

variable {token : Nat → Text}
variable {brokers : Nat → BrokerProcess}
variable {w w' : Rendezvous}
variable {tunnel : Text}
variable {phase : ProxyPhase}

/- A broker accepts a connection. -/
theorem PhaseInv.accept
    (hPhase : PhaseInv token brokers tunnel phase) :
    PhaseInv token brokers tunnel
      (phase.mapStream .accept) := by
  rcases hPhase with ⟨hUnsent, hKnown, hAnswered, hReturned⟩
  cases phase with
  | absent | looping | opened | probing | lockSeen | failed
  | found endpoint | returned stream =>
      exact ⟨hUnsent, hKnown, hAnswered, hReturned⟩
  | connected endpoint stream =>
      refine ⟨?_, hKnown, ?_, ?_⟩
      · intro endpoint' stream' hEq
        cases hEq
        exact hUnsent endpoint stream rfl
      · intro stream' hStream hReply
        cases hStream
        exact hAnswered stream rfl hReply
      · intro stream' hEq
        cases hEq
  | waiting stream | rechecking stream =>
      refine ⟨?_, hKnown, ?_, ?_⟩
      · intro endpoint' stream' hEq
        cases hEq
      · intro stream' hStream hReply
        cases hStream
        exact hAnswered stream rfl hReply
      · intro stream' hEq
        cases hEq

/- A request with the token has come from the other end. -/
theorem token_of_presents
    {stream : TcpStream}
    {t : Text}
    (hPresents : stream.presents t = true) :
    stream.hello.map Request.token = some t := by
  unfold TcpStream.presents at hPresents
  rw [Bool.and_eq_true, Option.any_eq_true] at hPresents
  rcases hPresents with ⟨_, request, hHello, hSame⟩
  rw [hHello, Option.map_some, sameToken_iff.mp hSame]

/- A broker answers a request with its token. -/
theorem PhaseInv.answer
    {stream : TcpStream}
    (hPhase : PhaseInv token brokers tunnel phase)
    (hStream : phase.stream? = some stream)
    (hServes :
      (brokers stream.broker).phase.serves = true)
    (hPresents :
      stream.presents (token stream.broker) = true)
    (response : Response) :
    PhaseInv token brokers tunnel
      (phase.mapStream (.answer response)) := by
  have hToken := token_of_presents hPresents
  have hStarted :
      (brokers stream.broker).phase ≠ .absent := by
    intro hAbsent
    rw [hAbsent] at hServes
    cases hServes
  rcases hPhase with ⟨hUnsent, hKnown, hAnswered, hReturned⟩
  cases phase with
  | absent | looping | opened | probing | lockSeen | failed
  | found endpoint | returned stream =>
      exact ⟨hUnsent, hKnown, hAnswered, hReturned⟩
  | connected endpoint stream' =>
      cases hStream
      rw [hUnsent endpoint stream rfl] at hToken
      cases hToken
  | waiting stream' | rechecking stream' =>
      cases hStream
      refine ⟨?_, hKnown, ?_, ?_⟩
      · intro endpoint' stream' hEq
        cases hEq
      · intro stream' hStream' _
        cases hStream'
        exact ⟨hToken, hStarted⟩
      · intro stream' hEq
        cases hEq

/- What a broker does keeps the invariant. -/
theorem brokerStep_inv
    {b : Nat}
    {act : BrokerAct}
    (hInv : w.Inv token)
    (hStep : w.brokerStep token b act = some w') :
    w'.Inv token := by
  have hLocked := hInv.locked b
  have hPublished := hInv.published b
  cases act with
  | start tunnel =>
      simp only [brokerStep] at hStep
      split at hStep <;> cases hStep
      rename_i hPhase
      apply hInv.setBroker
      · intro hEq
        dsimp only at hEq
        split at hEq <;> cases hEq
      · intro hHolds
        split at hHolds <;> cases hHolds
      · intro hNew
        cases hNew
      · intro hOld
        rw [hPhase] at hPublished
        cases hPublished hOld
  | openLock ok =>
      simp only [brokerStep] at hStep
      split at hStep <;> [skip; cases hStep]
      rename_i hPhase
      rw [hPhase] at hPublished
      split at hStep <;> cases hStep
      · apply Inv.moveBroker
        · apply hInv.of_locks
          intro a _ name hHeld
          exact FileLock.held_openCreate hHeld
        · exact fun hEq => by cases hEq
        · exact fun hHolds => by cases hHolds
        · exact hPublished
      · apply hInv.moveBroker
        · exact fun hEq => by cases hEq
        · exact fun hHolds => by cases hHolds
        · exact fun _ => rfl
  | tryLock error =>
      simp only [brokerStep] at hStep
      split at hStep <;> [skip; cases hStep]
      rename_i hPhase
      rw [hPhase] at hPublished
      split at hStep <;> cases hStep
      · rename_i locks hTry
        apply Inv.moveBroker
        · apply hInv.of_locks
          intro a _ name hHeld
          exact FileLock.held_tryLock hTry hHeld
        · exact fun hEq => by cases hEq
        · exact fun _ => FileLock.held_of_tryLock hTry
        · exact hPublished
      · apply hInv.moveBroker
        · exact fun hEq => by cases hEq
        · exact fun hHolds => by cases hHolds
        · exact fun _ => rfl
  | bind port =>
      simp only [brokerStep] at hStep
      split at hStep <;> [skip; cases hStep]
      rename_i hPhase
      rw [hPhase] at hPublished hLocked
      split at hStep <;> cases hStep
      apply (hInv.of_listeners _).moveBroker
      · exact fun hEq => by cases hEq
      · exact fun _ => hLocked rfl
      · exact hPublished
  | publish =>
      simp only [brokerStep] at hStep
      split at hStep <;> cases hStep
      rename_i hPhase
      apply hInv.persist
      rw [hPhase]
      rfl
  | fails =>
      simp only [brokerStep] at hStep
      split at hStep <;> cases hStep
      all_goals
        rename_i hPhase
        rw [hPhase] at hLocked
        apply (hInv.of_listeners _).moveBroker
        · exact fun hEq => by cases hEq
        · exact fun _ => hLocked rfl
        · exact fun _ => rfl
  | dropListener =>
      simp only [brokerStep] at hStep
      split at hStep <;> cases hStep
      rename_i hPhase
      rw [hPhase] at hLocked
      apply (hInv.of_listeners _).moveBroker
      · exact fun hEq => by cases hEq
      · exact fun _ => hLocked rfl
      · exact fun _ => rfl
  | removeFile ok =>
      simp only [brokerStep] at hStep
      split at hStep <;> [skip; cases hStep]
      rename_i hPhase
      rw [hPhase] at hLocked
      split at hStep <;> cases hStep
      · apply (hInv.removeEndpoint b).moveBroker
        · exact fun hEq => by cases hEq
        · exact fun _ => hLocked rfl
        · exact fun _ => rfl
      · apply hInv.moveBroker
        · exact fun hEq => by cases hEq
        · exact fun _ => hLocked rfl
        · exact fun _ => rfl
  | dropLock =>
      simp only [brokerStep] at hStep
      split at hStep <;> cases hStep
      apply Inv.releaseLocks
      · apply hInv.moveBroker
        · exact fun hEq => by cases hEq
        · exact fun hHolds => by cases hHolds
        · exact fun _ => rfl
      · intro a hEq
        cases hEq
        rw [phase_moveBroker]
        rfl
  | exits =>
      simp only [brokerStep] at hStep
      split at hStep <;> cases hStep
      apply Inv.releaseLocks
      · apply (hInv.of_listeners _).moveBroker
        · exact fun hEq => by cases hEq
        · exact fun hHolds => by cases hHolds
        · exact fun _ => rfl
      · intro a hEq
        cases hEq
        rw [phase_moveBroker]
        rfl
  | accept p =>
      simp only [brokerStep] at hStep
      split at hStep <;> [skip; cases hStep]
      split at hStep <;> cases hStep
      exact hInv.moveProxy (hInv.proxies p).accept
  | answer p error =>
      simp only [brokerStep] at hStep
      split at hStep <;> [skip; cases hStep]
      rename_i stream hStream
      split at hStep <;> cases hStep
      rename_i hGuard
      rcases hGuard with ⟨hServes, rfl, _, hPresents⟩
      exact hInv.moveProxy
        ((hInv.proxies p).answer hStream hServes hPresents _)

/- What a proxy has read from the endpoint file. -/
theorem PhaseInv.found
    {endpoint : Endpoint}
    (hKnown : Known token brokers tunnel endpoint.token) :
    PhaseInv token brokers tunnel (.found endpoint) where
  unsent := fun _ _ hEq => by cases hEq
  known := fun t hToken => by
    cases hToken
    exact hKnown
  answered := fun _ hStream => by cases hStream
  returned := fun _ hEq => by cases hEq

/- A new connection carries nothing. -/
theorem PhaseInv.connected
    {endpoint : Endpoint}
    (hPhase :
      PhaseInv token brokers tunnel (.found endpoint))
    (b : Nat) :
    PhaseInv token brokers tunnel
      (.connected endpoint (.opened b)) where
  unsent := fun _ _ hEq => by
    cases hEq
    rfl
  known := hPhase.known
  answered := fun _ hStream hReply => by
    cases hStream
    exact (hReply rfl).elim
  returned := fun _ hEq => by cases hEq

/- The hello presents the token that was read. -/
theorem PhaseInv.sendHello
    {endpoint : Endpoint}
    {stream : TcpStream}
    (hPhase :
      PhaseInv token brokers tunnel
        (.connected endpoint stream))
    (request : ProxyRequest) :
    PhaseInv token brokers tunnel (.waiting
      { stream with
        hello := some (hello request endpoint) }) where
  unsent := fun _ _ hEq => by cases hEq
  known := hPhase.known
  answered := fun _ hStream hReply => by
    cases hStream
    exact hPhase.answered stream rfl hReply
  returned := fun _ hEq => by cases hEq

theorem PhaseInv.rechecking
    {stream : TcpStream}
    (hPhase :
      PhaseInv token brokers tunnel (.waiting stream)) :
    PhaseInv token brokers tunnel (.rechecking stream) where
  unsent := fun _ _ hEq => by cases hEq
  known := hPhase.known
  answered := hPhase.answered
  returned := fun _ hEq => by cases hEq

theorem PhaseInv.received
    {stream : TcpStream}
    (hPhase :
      PhaseInv token brokers tunnel (.waiting stream))
    (hReply : stream.reply ≠ none) :
    PhaseInv token brokers tunnel (.returned stream) where
  unsent := fun _ _ hEq => by cases hEq
  known := hPhase.known
  answered := hPhase.answered
  returned := fun _ hEq => by
    cases hEq
    exact hReply

/- What a proxy does keeps the invariant. -/
theorem proxyStep_inv
    {p : Nat}
    {act : ProxyAct}
    (hInv : w.Inv token)
    (hStep : w.proxyStep p act = some w') :
    w'.Inv token := by
  have hProxy := hInv.proxies p
  have hTryLock :
      ∀ {name locks},
        FileLock.tryLock w.locks name (.proxy p) =
          some locks →
        Inv token { w with locks } := by
    intro name locks hTry
    apply hInv.of_locks
    intro a _ other hHeld
    exact FileLock.held_tryLock hTry hHeld
  cases act with
  | acquire request =>
      simp only [proxyStep] at hStep
      split at hStep <;> cases hStep
      apply hInv.setProxy
      dsimp only
      split <;> exact .of_none rfl rfl
  | openLock ok =>
      simp only [proxyStep] at hStep
      split at hStep <;> [skip; cases hStep]
      split at hStep <;> cases hStep
      · exact hInv.moveProxy (.of_none rfl rfl)
      · exact hInv
  | tryLock error =>
      simp only [proxyStep] at hStep
      split at hStep <;> cases hStep
      case h_1 => exact hInv.moveProxy (.of_none rfl rfl)
      case h_2 hTry =>
        exact (hTryLock hTry).moveProxy (.of_none rfl rfl)
      case h_3 => exact hInv.moveProxy (.of_none rfl rfl)
      case h_4 => exact hInv.moveProxy (.of_none rfl rfl)
      case h_5 hPhase hTry =>
        rw [hPhase] at hProxy
        exact (hTryLock hTry).moveProxy hProxy.rechecking
      case h_6 => exact hInv
  | unlock ok =>
      simp only [proxyStep] at hStep
      split at hStep <;> cases hStep
      · apply Inv.releaseLocks
        · apply hInv.moveProxy
          split <;> exact .of_none rfl rfl
        · exact fun _ hEq => by cases hEq
      · apply Inv.releaseLocks
        · exact hInv.moveProxy (.of_none rfl rfl)
        · exact fun _ hEq => by cases hEq
  | readEndpoint ok =>
      simp only [proxyStep] at hStep
      split at hStep <;> cases hStep
      · rename_i endpoint _ hEndpoint
        rcases hInv.endpoints _ endpoint hEndpoint with
          ⟨tunnel, hName, hKnown⟩
        rw [endpointName_injective hName] at hKnown
        exact hInv.moveProxy (.found hKnown)
      · exact hInv.moveProxy (.of_none rfl rfl)
  | connect ok =>
      simp only [proxyStep] at hStep
      split at hStep <;> [skip; cases hStep]
      rename_i endpoint hPhase
      rw [hPhase] at hProxy
      split at hStep <;> cases hStep
      · exact hInv.moveProxy (hProxy.connected _)
      · exact hInv.moveProxy (.of_none rfl rfl)
  | sendHello ok =>
      simp only [proxyStep] at hStep
      split at hStep <;> [skip; cases hStep]
      rename_i endpoint stream hPhase
      rw [hPhase] at hProxy
      split at hStep <;> cases hStep
      · exact hInv.moveProxy (hProxy.sendHello _)
      · exact hInv.moveProxy (.of_none rfl rfl)
  | receive =>
      simp only [proxyStep] at hStep
      split at hStep <;> [skip; cases hStep]
      rename_i stream hPhase
      rw [hPhase] at hProxy
      split at hStep <;> [skip; cases hStep]
      rename_i response hReply
      split at hStep <;> cases hStep
      · apply hInv.moveProxy
        apply hProxy.received
        rw [hReply]
        exact Option.some_ne_none response
      · exact hInv.moveProxy (.of_none rfl rfl)
  | streamFails =>
      simp only [proxyStep] at hStep
      split at hStep <;> cases hStep
      exact hInv.moveProxy (.of_none rfl rfl)
  | exits =>
      simp only [proxyStep] at hStep
      split at hStep <;> cases hStep
      apply Inv.releaseLocks
      · exact hInv.moveProxy (.of_none rfl rfl)
      · exact fun _ hEq => by cases hEq

/- Every state of a run meets the invariant. -/
theorem reachable_inv
    (hReach : (machine token).Reachable w) :
    w.Inv token := by
  apply hReach.invariant inv_initial
  intro w e w' hInv _ hStep
  cases e with
  | broker b act => exact brokerStep_inv hInv hStep
  | proxy p act => exact proxyStep_inv hInv hStep

end Rendezvous

end DevTunnel

end Sshdt

------------------------------------------------------------
-- One Broker Per Tunnel
------------------------------------------------------------

namespace Sshdt

namespace DevTunnel

namespace Rendezvous

variable {token : Nat → Text}
variable {w w' : Rendezvous}

/- Two brokers that hold the lock of a tunnel are one. -/
theorem Inv.holder_unique
    {a b : Nat}
    (hInv : w.Inv token)
    (hHoldsA : (w.brokers a).phase.holdsLock = true)
    (hHoldsB : (w.brokers b).phase.holdsLock = true)
    (hTunnel : (w.brokers a).tunnel = (w.brokers b).tunnel) :
    a = b := by
  have hA := hInv.locked a hHoldsA
  have hB := hInv.locked b hHoldsB
  rw [hTunnel, hB] at hA
  cases hA
  rfl

/- A proxy sees the lock of a broker. -/
theorem Inv.locked_not_probed
    {b : Nat}
    {holder : Holder}
    (hInv : w.Inv token)
    (hHolds : (w.brokers b).phase.holdsLock = true)
    (hTunnel : (w.brokers b).tunnel ≠ []) :
    FileLock.tryLock w.locks
      (probeName (w.brokers b).tunnel) holder = none := by
  rw [probeName_eq hTunnel, FileLock.tryLock,
    hInv.locked b hHolds]

/- A broker that has published and lives has the lock. -/
theorem holdsLock_of_live
    {phase : BrokerPhase}
    (hPast : phase.pastPublish = true)
    (hLive : phase.live = true) :
    phase.holdsLock = true := by
  cases phase with
  | absent | opening | opened | locked | bound port =>
      cases hPast
  | returned | gone => cases hLive
  | serving port | closed | draining => rfl

/- Proxies leave the endpoint files alone. -/
theorem endpoints_of_proxyStep
    {p : Nat}
    {act : ProxyAct}
    (hStep : w.proxyStep p act = some w') :
    w'.endpoints = w.endpoints := by
  cases act <;> simp only [proxyStep] at hStep <;>
    (repeat' split at hStep) <;> cases hStep <;> rfl

/- A broker changes only its own file, holding the lock. -/
theorem endpoints_of_brokerStep
    {b : Nat}
    {act : BrokerAct}
    (hStep : w.brokerStep token b act = some w') :
    w'.endpoints = w.endpoints ∨
      (w.brokers b).phase.holdsLock = true ∧
        ∀ name, name ≠ endpointName (w.brokers b).tunnel →
          w'.endpoints name = w.endpoints name := by
  cases act with
  | publish =>
      simp only [brokerStep] at hStep
      split at hStep <;> cases hStep
      rename_i hPhase
      refine Or.inr ⟨by rw [hPhase]; rfl, ?_⟩
      intro name hName
      exact Function.update_of_ne hName _ _
  | removeFile ok =>
      simp only [brokerStep] at hStep
      split at hStep <;> [skip; cases hStep]
      rename_i hPhase
      split at hStep <;> cases hStep
      · refine Or.inr ⟨by rw [hPhase]; rfl, ?_⟩
        intro name hName
        exact Function.update_of_ne hName _ _
      · exact Or.inl rfl
  | start | openLock | tryLock | bind | fails | dropListener
  | dropLock | exits | accept | answer =>
      left
      simp only [brokerStep] at hStep
      (repeat' split at hStep) <;> cases hStep <;> rfl

/- A broker that has published was started. -/
theorem Inv.started
    {a : Nat}
    {tunnel : Text}
    (hInv : w.Inv token)
    (hBroker : IsBrokerOf w.brokers a tunnel) :
    (w.brokers a).phase ≠ .absent := by
  intro hAbsent
  have hPast := hInv.published a hBroker.published
  rw [hAbsent] at hPast
  cases hPast

/- The broker whose token is in its file published it. -/
theorem Inv.published_of_token
    {a : Nat}
    (hInv : w.Inv token)
    (hToken : w.DistinctTokens token)
    (hStarted : (w.brokers a).phase ≠ .absent)
    (hFile : w.PublishedBy token a) :
    (w.brokers a).published = true := by
  rcases hFile with ⟨endpoint, hEndpoint, hOwn⟩
  rcases hInv.endpoints _ endpoint hEndpoint with
    ⟨tunnel, _, c, hBroker, hKnown⟩
  rw [hOwn] at hKnown
  rw [hToken a c hStarted (hInv.started hBroker) hKnown]
  exact hBroker.published

/-
  The file of a broker that lives is changed by nobody else:
  whoever changes it holds the lock, and so does this broker.
-/
theorem Inv.endpoint_kept
    {a : Nat}
    {e : Event}
    (hInv : w.Inv token)
    (hToken : w.DistinctTokens token)
    (hStep : w.step token e = some w')
    (hLive : (w.brokers a).phase.live = true)
    (hFile : w.PublishedBy token a)
    (hChanged :
      w'.endpoints (endpointName (w.brokers a).tunnel) ≠
        w.endpoints (endpointName (w.brokers a).tunnel)) :
    ∃ act, e = .broker a act := by
  cases e with
  | proxy p act =>
      have hSame := endpoints_of_proxyStep hStep
      exact (hChanged (congrFun hSame _)).elim
  | broker b act =>
      have hStarted : (w.brokers a).phase ≠ .absent := by
        intro hAbsent
        rw [hAbsent] at hLive
        cases hLive
      have hPast := hInv.published a
        (hInv.published_of_token hToken hStarted hFile)
      have hHolds := holdsLock_of_live hPast hLive
      rcases endpoints_of_brokerStep hStep with
        hSame | ⟨hHoldsB, hOthers⟩
      · exact (hChanged (congrFun hSame _)).elim
      · have hName :
            endpointName (w.brokers a).tunnel =
              endpointName (w.brokers b).tunnel :=
          Classical.byContradiction fun hNe =>
            hChanged (hOthers _ hNe)
        have hTunnel := endpointName_injective hName
        rw [hInv.holder_unique hHolds hHoldsB hTunnel]
        exact ⟨act, rfl⟩

/- Whoever answers a proxy is a broker of its tunnel. -/
theorem Inv.answered_by
    {p : Nat}
    {stream : TcpStream}
    (hInv : w.Inv token)
    (hToken : w.DistinctTokens token)
    (hReturned : (w.proxies p).phase = .returned stream) :
    IsBrokerOf w.brokers stream.broker
      (w.proxies p).request.tunnel := by
  have hProxy := hInv.proxies p
  have hReply := hProxy.returned stream hReturned
  rcases hProxy.answered stream
    (by rw [hReturned]; rfl) hReply with ⟨hShown, hStarted⟩
  rcases hProxy.known _ hShown with ⟨a, hBroker, hSame⟩
  rw [hToken stream.broker a hStarted
    (hInv.started hBroker) hSame]
  exact hBroker

/-
  In every state of every run, if no two brokers have the
  same token: at most one broker is in possession of the lock
  of a tunnel; the endpoint file of a broker that lives is
  replaced or removed by that broker only; and the process
  behind a stream that `acquire` has returned is a broker
  that has published the endpoint of the requested tunnel.
-/
theorem one_broker_per_tunnel
    (token : Nat → Text)
    (w : Rendezvous)
    (hReach : (machine token).Reachable w)
    (hToken : w.DistinctTokens token) :
    (∀ a b,
      (w.brokers a).phase.holdsLock = true →
        (w.brokers b).phase.holdsLock = true →
        (w.brokers a).tunnel = (w.brokers b).tunnel →
        a = b) ∧
      (∀ a e w', w.step token e = some w' →
        (w.brokers a).phase.live = true →
        w.PublishedBy token a →
        w'.endpoints (endpointName (w.brokers a).tunnel) ≠
          w.endpoints (endpointName (w.brokers a).tunnel) →
        ∃ act, e = .broker a act) ∧
      ∀ p stream,
        (w.proxies p).phase = .returned stream →
          IsBrokerOf w.brokers stream.broker
            (w.proxies p).request.tunnel := by
  have hInv := reachable_inv hReach
  refine ⟨?_, ?_, ?_⟩
  · intro a b hHoldsA hHoldsB hTunnel
    exact hInv.holder_unique hHoldsA hHoldsB hTunnel
  · intro a e w' hStep hLive hFile hChanged
    exact hInv.endpoint_kept hToken hStep hLive hFile hChanged
  · intro p stream hReturned
    exact hInv.answered_by hToken hReturned

/- Tokens of 64 digits for the first brokers. -/
def sampleToken
    (b : Nat) : Text :=
  List.replicate 63 '0' ++ Nat.toDigits 10 b

theorem sampleToken_distinct
    (w : Rendezvous) :
    w.DistinctTokens sampleToken := by
  intro a b _ _ hEq
  have hDigits := List.append_cancel_left hEq
  have hValue := congrArg (Nat.ofDigitChars 10 · 0) hDigits
  simpa [Nat.ofDigitChars_toDigits] using hValue

/- A broker starts for a tunnel and takes the lock. -/
def startRun
    (b : Nat)
    (tunnel : Text) : List Event :=
  [.broker b (.start tunnel), .broker b (.openLock true),
    .broker b (.tryLock false)]

/- It publishes a port. -/
def publishRun
    (b : Nat)
    (port : UInt16) : List Event :=
  [.broker b (.bind port), .broker b .publish]

/- A proxy reads the endpoint and presents the token. -/
def presentRun
    (p b : Nat) : List Event :=
  [.proxy p (.openLock true), .proxy p (.tryLock false),
    .proxy p (.readEndpoint true), .proxy p (.connect true),
    .proxy p (.sendHello true), .broker b (.accept p)]

/-
  A broker is killed, and its port goes to the broker of
  another tunnel. While the next broker starts, a proxy reads
  the stale file and reaches that other broker, which does
  not answer; on its second try it is answered.
-/
def reuseRun : List Event :=
  startRun 0 "abc".toList ++ publishRun 0 7000 ++
    [.broker 0 .exits] ++
    startRun 1 "xyz".toList ++ publishRun 1 7000 ++
    startRun 2 "abc".toList ++
    [.proxy 0 (.acquire
      ⟨"abc".toList, 22, none, Duration.fromSecs 30⟩)] ++
    presentRun 0 1 ++ [.proxy 0 .streamFails] ++
    publishRun 2 7001 ++ presentRun 0 2 ++
    [.broker 2 (.answer 0 none), .proxy 0 .receive]

theorem reuseRun_exec :
    ((machine sampleToken).exec (machine sampleToken).init
      reuseRun).isSome = true := by
  decide

/- Where the run ends. -/
def reuseEnd : Rendezvous :=
  (machine sampleToken).final reuseRun reuseRun_exec

/- The second broker of the tunnel answered. -/
def reuseStream : TcpStream where
  broker := 2
  accepted := true
  hello := some ⟨1, sampleToken 2, 22, none⟩
  reply := some ⟨1, none⟩

theorem reuseRun_answered :
    (reuseEnd.proxies 0).phase = .returned reuseStream ∧
      IsBrokerOf reuseEnd.brokers 2
        (reuseEnd.proxies 0).request.tunnel := by
  have hReturned :
      (reuseEnd.proxies 0).phase = .returned reuseStream := by
    decide
  refine ⟨hReturned, ?_⟩
  exact (one_broker_per_tunnel sampleToken reuseEnd
    (Machine.reachable_final reuseRun reuseRun_exec)
    (sampleToken_distinct reuseEnd)).2.2 0 reuseStream
      hReturned

end Rendezvous

end DevTunnel

end Sshdt

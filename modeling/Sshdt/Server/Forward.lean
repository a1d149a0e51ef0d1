import Sshdt.Lib.NetDisplay
import Sshdt.Server.Builder

/-
  Local forwarding (`channel_open_direct_tcpip` in
  `src/handler.rs` and `run_direct_tcpip` in
  `src/forward.rs`).

  The handler refuses every request when forwarding is off,
  asks the policy of the server if there is one, accepts the
  channel and leaves the connection to a task. The task makes
  one text of the host and the port, and connecting takes the
  two apart again at the last colon. The port of the request
  has 32 bits; the policy and the task see 16 of them.

  Key definitions include:
    * `DirectTcpip`
    * `ForwardEffect`
    * `channelOpenDirectTcpip`
    * `runDirectTcpip`
    * `DirectTcpip.Faithful`

  Key theorems include:
    * `connectTarget_eq`
    * `channelOpenDirectTcpip_eq`
    * `DirectTcpip.faithful_iff`
-/

------------------------------------------------------------
-- Requests And Effects
------------------------------------------------------------

namespace Sshdt

variable {PublicKey : Type}

/- The fields of a `direct-tcpip` open request. -/
structure DirectTcpip where
  hostToConnect : Text
  portToConnect : UInt32
  originatorAddress : Text
  originatorPort : UInt32
  deriving DecidableEq, Repr

/- What the server does for a request. -/
inductive ForwardEffect where
  | asks (request : ForwardRequest)
  | rejects
  | accepts
  | dials (host : Text) (port : UInt16)
  deriving DecidableEq, Repr

/- The request that the policy and the task see. -/
def DirectTcpip.narrowed
    (req : DirectTcpip) : ForwardRequest where
  host := req.hostToConnect
  port := req.portToConnect.toUInt16
  originatorHost := req.originatorAddress
  originatorPort := req.originatorPort.toUInt16

/-
  How `TcpStream::connect` takes its text apart: the port is
  what follows the last colon, after a name as after an
  address.
-/
def connectTarget
    (target : Text) : Option (Text × UInt16) :=
  match Text.rsplitOnce ':' target with
  | some (host, port) =>
      (Text.parseU16 port).map fun port => (host, port)
  | none => none

/- `run_direct_tcpip`, up to the connection. -/
def runDirectTcpip
    (host : Text)
    (port : UInt16) : List ForwardEffect :=
  let target := host ++ ':' :: Text.ofNat port.toNat
  match connectTarget target with
  | some (host, port) => [.dials host port]
  | none => []

/- `channel_open_direct_tcpip`. -/
def channelOpenDirectTcpip
    (inner : ServerInner PublicKey)
    (req : DirectTcpip) : List ForwardEffect :=
  if !inner.allowTcpForwarding then
    [.rejects]
  else
    let request := req.narrowed
    match inner.forwarder with
    | some forwarder =>
        if forwarder request = .deny then
          [.asks request, .rejects]
        else
          [.asks request, .accepts] ++
            runDirectTcpip request.host request.port
    | none =>
        .accepts :: runDirectTcpip request.host request.port

end Sshdt

------------------------------------------------------------
-- The Target
------------------------------------------------------------

namespace Sshdt

variable {PublicKey : Type}

theorem colon_not_mem_ofNat
    (n : Nat) :
    ':' ∉ Text.ofNat n := by
  rcases Net.exists_digits (by omega : 1 < 10) n with
    ⟨digits, hText, _, hBound, _, _⟩
  rw [Text.ofNat, hText]
  intro hMember
  rcases List.mem_map.mp hMember with ⟨d, hDigit, hEq⟩
  have hChars : ∀ d < 10, Nat.digitChar d ≠ ':' := by
    decide
  exact hChars d (hBound d hDigit) hEq

/- Whatever the host is, the text is taken apart again. -/
theorem connectTarget_eq
    (host : Text)
    (port : UInt16) :
    connectTarget (host ++ ':' :: Text.ofNat port.toNat) =
      some (host, port) := by
  have hParse :
      Text.parseU16 (Text.ofNat port.toNat) = some port := by
    rw [Text.parseU16,
      Text.parseUnsigned_ofNat port.toNat_lt]
    simp
  rw [connectTarget,
    Text.rsplitOnce_append (colon_not_mem_ofNat _)]
  simp only [hParse, Option.map_some]

theorem runDirectTcpip_eq
    (host : Text)
    (port : UInt16) :
    runDirectTcpip host port = [.dials host port] := by
  simp only [runDirectTcpip, connectTarget_eq]

/- The policy of the server denies the narrowed request. -/
def DirectTcpip.Denied
    (inner : ServerInner PublicKey)
    (req : DirectTcpip) : Prop :=
  ∃ forwarder, inner.forwarder = some forwarder ∧
    forwarder req.narrowed = .deny

/-
  All that a request leads to: a refusal, or the policy is
  asked if there is one, and the channel is accepted and its
  target dialed.
-/
theorem channelOpenDirectTcpip_eq
    (inner : ServerInner PublicKey)
    (req : DirectTcpip) :
    ((inner.allowTcpForwarding = false ∨ req.Denied inner) ∧
      .rejects ∈ channelOpenDirectTcpip inner req ∧
      .accepts ∉ channelOpenDirectTcpip inner req ∧
      ∀ host port,
        .dials host port ∉
          channelOpenDirectTcpip inner req) ∨
    (inner.allowTcpForwarding = true ∧
      ¬ req.Denied inner ∧
      .rejects ∉ channelOpenDirectTcpip inner req ∧
      (∀ forwarder, inner.forwarder = some forwarder →
        .asks req.narrowed ∈
          channelOpenDirectTcpip inner req) ∧
      ∀ host port,
        .dials host port ∈ channelOpenDirectTcpip inner req ↔
          host = req.hostToConnect ∧
            port = req.portToConnect.toUInt16) := by
  cases hAllow : inner.allowTcpForwarding with
  | false =>
      left
      simp [channelOpenDirectTcpip, hAllow]
  | true =>
      cases hForwarder : inner.forwarder with
      | none =>
          right
          simp [channelOpenDirectTcpip, hAllow, hForwarder,
            runDirectTcpip_eq, DirectTcpip.Denied,
            DirectTcpip.narrowed]
      | some forwarder =>
          by_cases hDeny : forwarder req.narrowed = .deny
          · left
            refine ⟨Or.inr ⟨forwarder, hForwarder, hDeny⟩, ?_⟩
            simp [channelOpenDirectTcpip, hAllow, hForwarder,
              hDeny]
          · right
            have hEffects :
                channelOpenDirectTcpip inner req =
                  [.asks req.narrowed, .accepts,
                    .dials req.hostToConnect
                      req.portToConnect.toUInt16] := by
              simp only [channelOpenDirectTcpip, hAllow,
                hForwarder, runDirectTcpip_eq]
              rw [if_neg hDeny]
              rfl
            refine ⟨rfl, ?_, ?_⟩
            · rintro ⟨other, hOther, hDenied⟩
              rw [hForwarder] at hOther
              cases hOther
              exact hDeny hDenied
            · rw [hEffects]
              simp

end Sshdt

------------------------------------------------------------
-- Where A Forward Goes
------------------------------------------------------------

namespace Sshdt

variable {PublicKey : Type}

namespace DirectTcpip

/-
  A forward goes where it was requested and authorized, and
  every other request is refused without a connection.
-/
structure Faithful
    (inner : ServerInner PublicKey)
    (req : DirectTcpip) : Prop where
  dials :
    ∀ host port,
      .dials host port ∈ channelOpenDirectTcpip inner req →
        inner.allowTcpForwarding = true ∧
          (∀ forwarder, inner.forwarder = some forwarder →
            ∃ request,
              .asks request ∈
                  channelOpenDirectTcpip inner req ∧
                request.host = host ∧ request.port = port ∧
                forwarder request ≠ .deny) ∧
          host = req.hostToConnect ∧
          port.toNat = req.portToConnect.toNat
  others :
    (∀ host port,
      .dials host port ∉ channelOpenDirectTcpip inner req) →
      .rejects ∈ channelOpenDirectTcpip inner req ∧
        .accepts ∉ channelOpenDirectTcpip inner req
  refused :
    .rejects ∈ channelOpenDirectTcpip inner req →
      ∀ host port,
        .dials host port ∉ channelOpenDirectTcpip inner req

/- Narrowing keeps the ports of 16 bits only. -/
theorem toUInt16_toNat_eq_iff
    (port : UInt32) :
    port.toUInt16.toNat = port.toNat ↔
      port.toNat < 65536 := by
  rw [UInt32.toNat_toUInt16]
  omega

theorem faithful_of_refused
    {inner : ServerInner PublicKey}
    {req : DirectTcpip}
    (hRejects :
      .rejects ∈ channelOpenDirectTcpip inner req)
    (hAccepts :
      .accepts ∉ channelOpenDirectTcpip inner req)
    (hDials :
      ∀ host port,
        .dials host port ∉ channelOpenDirectTcpip inner req) :
    req.Faithful inner where
  dials host port hMem := absurd hMem (hDials host port)
  others _ := ⟨hRejects, hAccepts⟩
  refused _ := hDials

/-
  A request is served as it should be exactly when forwarding
  is off, the policy denies what it is shown, or the port is
  one of 16 bits.
-/
theorem faithful_iff
    (inner : ServerInner PublicKey)
    (req : DirectTcpip) :
    req.Faithful inner ↔
      inner.allowTcpForwarding = false ∨ req.Denied inner ∨
        req.portToConnect.toNat < 65536 := by
  rcases channelOpenDirectTcpip_eq inner req with
    ⟨hOff, hRejects, hAccepts, hDials⟩ |
      ⟨hAllow, hDenied, hRejects, hAsks, hDials⟩
  · constructor
    · intro _
      rcases hOff with hAllow | hDenied
      · exact Or.inl hAllow
      · exact Or.inr (Or.inl hDenied)
    · intro _
      exact faithful_of_refused hRejects hAccepts hDials
  · have hTarget := (hDials _ _).mpr ⟨rfl, rfl⟩
    constructor
    · intro hFaithful
      rcases hFaithful.dials _ _ hTarget with ⟨_, _, _, hPort⟩
      exact Or.inr (Or.inr
        ((toUInt16_toNat_eq_iff _).mp hPort))
    · rintro (hOff | hPolicy | hPort)
      · rw [hAllow] at hOff
        cases hOff
      · exact absurd hPolicy hDenied
      · refine ⟨?_, ?_, ?_⟩
        · intro host port hMem
          rcases (hDials host port).mp hMem with ⟨rfl, rfl⟩
          refine ⟨hAllow, ?_, rfl,
            (toUInt16_toNat_eq_iff _).mpr hPort⟩
          intro forwarder hForwarder
          refine ⟨req.narrowed, hAsks forwarder hForwarder,
            rfl, rfl, ?_⟩
          intro hDeny
          exact hDenied ⟨forwarder, hForwarder, hDeny⟩
        · intro hNone
          exact absurd hTarget (hNone _ _)
        · intro hReject
          exact absurd hReject hRejects

/- A server whose policy allows connections to port 22. -/
def port22Server : ServerInner Unit where
  auth :=
    { anonymous := true, password := none
      authorizedKeys := [] }
  authenticator := none
  commandResolver _ :=
    { program := "/bin/sh".toList, args := []
      env := [], cwd := none }
  forwarder := some fun request =>
    if request.port = 22 then .allow else .deny
  allowTcpForwarding := true
  sftpRoot := none
  acceptEnv := []
  banner := none
  allowedUsers := []

/- A request for a port that is 22 in its low 16 bits. -/
def wideRequest : DirectTcpip where
  hostToConnect := ['h']
  portToConnect := 65558
  originatorAddress := ['o']
  originatorPort := 0

theorem wideRequest_misdirected :
    .dials ['h'] 22 ∈
        channelOpenDirectTcpip port22Server wideRequest ∧
      ¬ wideRequest.Faithful port22Server := by
  have hDials :
      .dials ['h'] 22 ∈
        channelOpenDirectTcpip port22Server wideRequest := by
    decide +kernel
  refine ⟨hDials, ?_⟩
  intro hFaithful
  exact absurd (hFaithful.dials _ _ hDials).2.2.2 (by decide)

end DirectTcpip

end Sshdt

import Nightcore.Gateway.Handlers

/-! `OnNewHandshake`, the check a message connection's first message goes through. A
launcher's handshake carries its container id in the inline data, which is handed to the
container monitor; a function worker's handshake is followed by
`ProcessDiscardedFuncCallIfNecessary`. The `WorkerManager` decides whether to take the
connection, and its answer is an argument here. On success the caller's `*response` and
`*response_payload` are set to the handshake response and the function config JSON. -/

namespace Nightcore.Gateway

/-- The constants the handshake reads, whose definitions are not among the sources. -/
structure HandshakeConfig where
  /-- `docker_utils::kContainerIdLength`. -/
  containerIdLength : Nat
  /-- `docker_utils::kInvalidContainerId`. -/
  invalidContainerId : List UInt8
  /-- `func_config_json_`. -/
  funcConfigJson : List UInt8

/-- The container monitor, of which the gateway calls `OnNewFuncContainer` only. Modelled
from the spec: `Monitor` is not among the sources; it registers the container, so it is
taken as the set of (func_id, container id) pairs it has registered. -/
structure Monitor where
  containers : List (UInt16 × List UInt8)
deriving DecidableEq, Repr

/-- `Monitor::OnNewFuncContainer`. Modelled from the spec: the container joins the set. -/
def Monitor.onNewFuncContainer (mon : Monitor) (funcId : UInt16) (containerId : List UInt8) : Monitor :=
  ⟨mon.containers.insert (funcId, containerId)⟩

/-- `protocol::NewHandshakeResponseMessage`. Modelled from the spec: the function is not
among the sources; it makes a `HANDSHAKE_RESPONSE` message whose `payload_size` is the
length of the config JSON that follows it. -/
def newHandshakeResponseMessage (payloadSize : Nat) : Message :=
  ⟨.handshakeResponse, ⟨0, 0, 0, 0⟩, ⟨0, 0, 0, 0⟩, Int32.ofInt payloadSize, .zero, .zero, []⟩

/-- What `OnNewHandshake` reads and writes outside the gateway's tables: `monitor_`, absent
under `--disable_monitor`, and the caller's `*response` and `*response_payload`. -/
structure HandshakeState where
  monitor : Option Monitor
  response : Message
  responsePayload : List UInt8
deriving DecidableEq

namespace HandshakeState

/-- The end of a successful handshake: the response and its payload are written. -/
def respond (hc : HandshakeConfig) (st : HandshakeState) : HandshakeState :=
  { st with response := newHandshakeResponseMessage hc.funcConfigJson.length,
            responsePayload := hc.funcConfigJson }

/-- The launcher's branch hands a valid container id to the monitor, if there is one. -/
def registerContainer (hc : HandshakeConfig) (st : HandshakeState) (funcId : UInt16)
    (containerId : List UInt8) : HandshakeState :=
  match st.monitor with
  | some mon =>
    if containerId ≠ hc.invalidContainerId then
      { st with monitor := some (mon.onNewFuncContainer funcId containerId) }
    else st
  | none => st

@[simp] theorem respond_monitor (hc : HandshakeConfig) (st : HandshakeState) :
    (st.respond hc).monitor = st.monitor := rfl

@[simp] theorem registerContainer_response (hc st f k) :
    (registerContainer hc st f k).response = st.response := by
  unfold registerContainer; split <;> (try split) <;> rfl

@[simp] theorem registerContainer_responsePayload (hc st f k) :
    (registerContainer hc st f k).responsePayload = st.responsePayload := by
  unfold registerContainer; split <;> (try split) <;> rfl

end HandshakeState

open HandshakeState

/-- `OnNewHandshake`, where `accepted` is what `WorkerManager::OnLauncherConnected` or
`OnFuncWorkerConnected` returns: the return value, the state left, and the pieces the
handler goes on with on the gateway's tables. -/
def onNewHandshake (cfg : Config) (hc : HandshakeConfig) (accepted : Bool) (st : HandshakeState)
    (m : Message) : Bool × HandshakeState × List Instr :=
  if m.messageType ≠ .launcherHandshake ∧ m.messageType ≠ .funcWorkerHandshake then (false, st, [])
  else if cfg.knownFuncId m.funcCall.funcId = false then (false, st, [])
  else if m.messageType = .launcherHandshake then
    if m.inlineData.length ≠ hc.containerIdLength then (false, st, [])
    else
      let st := st.registerContainer hc m.funcCall.funcId m.inlineData
      if accepted then (true, st.respond hc, []) else (false, st, [])
  else if accepted then (true, st.respond hc, [.sweep]) else (false, st, [.sweep])

theorem onNewHandshake_pieces (cfg : Config) (hc : HandshakeConfig) (accepted : Bool)
    (st : HandshakeState) (m : Message) (s : Server) :
    (onNewHandshake cfg hc accepted st m).2.2 = (spawn cfg s (.handshake m)).2 := by
  simp only [onNewHandshake, spawn]
  cases ht : m.messageType <;> cases hk : cfg.knownFuncId m.funcCall.funcId <;> simp <;> split_ifs <;> rfl

end Nightcore.Gateway

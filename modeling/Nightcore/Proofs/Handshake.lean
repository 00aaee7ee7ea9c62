import Nightcore.Gateway.Handshake
import Nightcore.Gateway.Run

/-! What a refused handshake leaves behind. No refusal writes the response or its payload.
Every refusal before the launcher's container id reaches the monitor leaves the monitor as
it was; but the container id is handed to `Monitor::OnNewFuncContainer` before the
`WorkerManager` is asked, so a launcher the `WorkerManager` refuses stays registered. -/

namespace Nightcore.Gateway

open HandshakeState

theorem registerContainer_monitor (hc : HandshakeConfig) (st : HandshakeState) (f : UInt16)
    (k : List UInt8) :
    (st.registerContainer hc f k).monitor = st.monitor ∨
      k ≠ hc.invalidContainerId ∧ ∃ mon, st.monitor = some mon ∧
        (st.registerContainer hc f k).monitor = some (mon.onNewFuncContainer f k) := by
  unfold registerContainer
  split
  · rename_i mon hm
    split_ifs with hk
    · exact .inr ⟨hk, mon, hm, rfl⟩
    · exact .inl rfl
  · exact .inl rfl

theorem onNewHandshake_refused_launcher (cfg : Config) (hc : HandshakeConfig) (st : HandshakeState)
    {m : Message} (ht : m.messageType = .launcherHandshake) (hf : cfg.knownFuncId m.funcCall.funcId = true)
    (hl : m.inlineData.length = hc.containerIdLength) :
    onNewHandshake cfg hc false st m = (false, st.registerContainer hc m.funcCall.funcId m.inlineData, []) := by
  simp [onNewHandshake, ht, hf, hl]

/-- The effects of `OnNewHandshake` on its caller's out-parameters and on the monitor: the
response and the config JSON are written exactly on success; a refusal leaves the monitor as
it was, unless it is the `WorkerManager`'s refusal of a launcher for a known function whose
container id has the right length and is valid, with the monitor enabled, in which case the
container is registered. -/
theorem handshake_refusal_effects (cfg : Config) (hc : HandshakeConfig) (accepted : Bool)
    (st : HandshakeState) (m : Message) :
    ((onNewHandshake cfg hc accepted st m).1 = true →
      (onNewHandshake cfg hc accepted st m).2.1.response =
        newHandshakeResponseMessage hc.funcConfigJson.length ∧
      (onNewHandshake cfg hc accepted st m).2.1.responsePayload = hc.funcConfigJson) ∧
    ((onNewHandshake cfg hc accepted st m).1 = false →
      (onNewHandshake cfg hc accepted st m).2.1.response = st.response ∧
      (onNewHandshake cfg hc accepted st m).2.1.responsePayload = st.responsePayload ∧
      ((onNewHandshake cfg hc accepted st m).2.1.monitor = st.monitor ∨
        m.messageType = .launcherHandshake ∧ cfg.knownFuncId m.funcCall.funcId = true ∧
        m.inlineData.length = hc.containerIdLength ∧ m.inlineData ≠ hc.invalidContainerId ∧
        accepted = false ∧ ∃ mon, st.monitor = some mon ∧
          (onNewHandshake cfg hc accepted st m).2.1.monitor =
            some (mon.onNewFuncContainer m.funcCall.funcId m.inlineData))) := by
  cases ht : m.messageType
  case launcherHandshake =>
    by_cases hl : cfg.knownFuncId m.funcCall.funcId = true ∧ m.inlineData.length = hc.containerIdLength
    · obtain ⟨hf, hlen⟩ := hl
      cases accepted
      · -- the `WorkerManager` refused the launcher after its container reached the monitor
        rw [onNewHandshake_refused_launcher cfg hc st ht hf hlen]
        refine ⟨nofun, fun _ => ⟨by simp, by simp, ?_⟩⟩
        rcases registerContainer_monitor hc st m.funcCall.funcId m.inlineData with h | ⟨hk, mon, hm, h⟩
        · exact .inl h
        · exact .inr ⟨rfl, hf, hlen, hk, rfl, mon, hm, h⟩
      · simp [onNewHandshake, ht, hf, hlen, respond]
    · -- refused before the container id reaches the monitor
      have he : onNewHandshake cfg hc accepted st m = (false, st, []) := by
        rw [not_and_or] at hl
        rcases hl with hl | hl <;> simp [onNewHandshake, ht, hl]
      simp [he]
  case funcWorkerHandshake =>
    cases hk : cfg.knownFuncId m.funcCall.funcId <;> cases accepted <;> simp [onNewHandshake, ht, hk, respond]
  -- not a handshake
  all_goals simp [onNewHandshake, ht]

/-- Constants for the runs below: 64-byte container ids, the id of 64 `'0'`s marking none,
and a two-byte config text. -/
def dockerHandshakeConfig : HandshakeConfig :=
  ⟨64, List.replicate 64 48, [123, 125]⟩

/-- A container id as the launcher sends it. -/
def containerA : List UInt8 := List.replicate 64 97

/-- A launcher's handshake for `funcId`, carrying its container id. -/
def launcherHandshake (funcId : UInt16) (containerId : List UInt8) : Message :=
  ⟨.launcherHandshake, ⟨funcId, 0, 0, 0⟩, ⟨0, 0, 0, 0⟩, Int32.ofInt containerId.length, .zero, .zero,
    containerId⟩

/-- A second launcher for function 1, which the `WorkerManager` refuses, with the monitor
enabled: `OnNewHandshake` returns `false` and writes neither out-parameter, yet the monitor
now has its container. -/
theorem refused_launcher_stays_registered :
    (onNewHandshake scenarioConfig dockerHandshakeConfig false ⟨some ⟨[]⟩, launcherHandshake 0 [], []⟩
        (launcherHandshake 1 containerA)).1 = false ∧
    (onNewHandshake scenarioConfig dockerHandshakeConfig false ⟨some ⟨[]⟩, launcherHandshake 0 [], []⟩
        (launcherHandshake 1 containerA)).2.1 = ⟨some ⟨[(1, containerA)]⟩, launcherHandshake 0 [], []⟩ := by
  rw [onNewHandshake_refused_launcher _ _ _ rfl rfl rfl]
  exact ⟨rfl, rfl⟩

end Nightcore.Gateway

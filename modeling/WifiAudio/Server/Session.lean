import WifiAudio.Server.Client
import WifiAudio.Rtsp.Handler
import WifiAudio.Proof.Rtsp.Scrub

/-!
# The session of a connection

`RTSP_Session::create`: the session a connection talks to is a `Session` with an `RTSP_Handler`.
-/

namespace WifiAudio

/-- The session works on its own state and on the handler's; `net` is what the system answers to the
socket calls of its requests. -/
def RtspSession.create (P : Lookup) (net : SocketCalls) : RtspSession (Session × HandlerState) where
  state s := s.1.state
  process s m size := do
    let r ← s.1.process P (RtspHandler.handler P net) s.2 m size
    return (r.cmd, (r.session, r.handler), r.memory)
  scrubs hprocess := by
    obtain ⟨r, hr, hresult⟩ := Except.bind_eq_ok.1 hprocess
    obtain ⟨-, -, rfl⟩ := by simpa using hresult
    exact Session.process_scrubbed P _ _ _ _ _ r hr

end WifiAudio

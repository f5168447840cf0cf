import WifiAudio.Server.System

/-!
# The status callback

`Callback` of `status.cpp` shows the state of the server on an LED. Every session reports to the same
one, which keeps the last state it was told, and the main loop polls it. No lock is held: a poll reads
that state several times, and the sessions report in between.
-/

namespace WifiAudio

structure Rgb where
  r : UInt8 := 0
  g : UInt8 := 0
  b : UInt8 := 0
  deriving DecidableEq, Repr

/-- What a poll finds: whether there is an `i2s` object, the bytes it has received, the clock, and
whether a number of ticks has elapsed since a tick. -/
structure Idle (τ : Type) where
  i2s : Bool
  rxBytes : ℤ
  now : τ
  elapsed : τ → ℕ → Bool

/-- `leds` are the colours sent to the LED, `i2s` says whether the object has been found. -/
structure Callback (τ : Type) where
  leds : List Rgb
  state : State
  done : State
  toggle : Bool
  i2s : Bool
  xfer : ℤ
  t : τ

variable {τ : Type}

namespace Callback

def period : ℕ := 50

/-- The constructor leaves `t` as it is. -/
def new (t : τ) : Callback τ where
  leds := []
  state := .dead
  done := .dead
  toggle := false
  i2s := false
  xfer := 0
  t := t

def toRgb : State → Option Rgb
  | .init => none
  | .ready => some { b := 0x40 }
  | .play => some { g := 0x40 }
  | .dead => some {}

def setState (cb : Callback τ) (state : State) : Callback τ :=
  match toRgb state with
  | some rgb => { cb with leds := cb.leds ++ [rgb] }
  | none => cb

/-- Where a poll stands: none is under way, or the state that was reported is about to be read for the
blinking LED, for the comparison, for `done` or for the LED. -/
inductive Poll
  | waiting
  | blinking
  | comparing
  | storing
  | showing
  deriving DecidableEq, Repr

/-- `on_idle` from one reading of the state to the next. -/
def onIdle (cb : Callback τ) (io : Idle τ) : Poll → Poll × Callback τ
  | .waiting =>
      let cb := if cb.i2s then cb else { cb with i2s := io.i2s }
      if cb.i2s ∧ cb.state = .play ∧ io.rxBytes ≠ cb.xfer then
        let cb := { cb with xfer := io.rxBytes }
        if io.elapsed cb.t period then (.blinking, { cb with t := io.now, toggle := !cb.toggle })
        else (.comparing, cb)
      else (.comparing, cb)
  | .blinking => (.comparing, cb.setState (if cb.toggle then cb.state else .dead))
  | .comparing => if cb.state = cb.done then (.waiting, cb) else (.storing, cb)
  | .storing => (.showing, { cb with done := cb.state })
  | .showing => (.waiting, cb.setState cb.state)

def onState (cb : Callback τ) (state : State) : Callback τ := { cb with state := state }

end Callback

namespace Server

/-- The states the session of connection `i` has reported. -/
def reportsOf (s : Server) (i : ℕ) : List State :=
  (s.connections[i]?).elim [] fun conn => conn.session.reports

/-- What connection `i` has reported since `s`. -/
def newReports (s s' : Server) (i : ℕ) : List (ℕ × State) :=
  ((s'.reportsOf i).drop (s.reportsOf i).length).map fun state => (i, state)

/-- The reports of a step from `s` to `s'`, each with its connection. A session reports its own
changes, and the client thread DEAD when its loop has ended. -/
def reported (s s' : Server) : Action → List (ℕ × State)
  | .connect _ _ => s.newReports s' s.connections.length
  | .request i _ _ _ => s.newReports s' i
  | .disconnect i => [(i, .dead)]
  | _ => []

end Server

/-- The server with the `Callback` its sessions report to. `log` is the record of the reports. -/
structure StatusServer (τ : Type) where
  server : Server
  callback : Callback τ
  poll : Callback.Poll
  log : List (ℕ × State)

/-- A step of the server, or of a poll. -/
inductive StatusAction (τ : Type)
  | server (a : Action)
  | idle (io : Idle τ)

namespace StatusServer

variable (P : Lookup)

def new (server : Server) (t : τ) : StatusServer τ := ⟨server, .new t, .waiting, []⟩

def report (s : StatusServer τ) (server : Server) (reports : List (ℕ × State)) : StatusServer τ where
  server := server
  callback := reports.foldl (fun cb report => cb.onState report.2) s.callback
  poll := s.poll
  log := s.log ++ reports

def exec (s : StatusServer τ) : StatusAction τ → Option (StatusServer τ)
  | .server a => (s.server.exec P a).map fun server => s.report server (s.server.reported server a)
  | .idle io =>
      let (poll, callback) := s.callback.onIdle io s.poll
      some { s with callback := callback, poll := poll }

def Step (s : StatusServer τ) (a : StatusAction τ) (s' : StatusServer τ) : Prop := s.exec P a = some s'

end StatusServer

end WifiAudio

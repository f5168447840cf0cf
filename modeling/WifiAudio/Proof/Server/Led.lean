import WifiAudio.Proof.Server.Callback

/-!
# What the LED shows

The sessions report from their own threads, and the main loop sends a colour when it polls the callback
and finds another state there than the last time, or when it blinks. So where no report falls into a poll
the LED is behind by a poll and no further: after it the LED has a colour of the state reported last. A
report between the storing of the state and its showing is another matter, since the poll then keeps one
state and shows another.
-/

namespace WifiAudio

open Transition

variable {τ : Type}

namespace Callback

def off : Rgb := {}
def blue : Rgb := { b := 0x40 }
def green : Rgb := { g := 0x40 }

/-- What may have been sent to the LED last when the main loop has seen a state. `INIT` has no colour of
its own. -/
def lights : State → List (Option Rgb)
  | .init => [none, some off, some blue, some green]
  | .ready => [some blue]
  | .play => [some green, some off]
  | .dead => [none, some off]

/-- What the LED shows at each point of a poll into which no report falls. -/
def Lit (cb : Callback τ) : Poll → Prop
  | .waiting => cb.leds.getLast? ∈ lights cb.done
  | .blinking => cb.state = .play ∧ cb.leds.getLast? ∈ lights cb.done
  | .comparing => cb.leds.getLast? ∈ lights cb.done ∨ cb.state = .play ∧ cb.leds.getLast? ∈ lights .play
  | .storing => cb.leds.getLast? ∈ lights .init
  | .showing => cb.done = cb.state ∧ cb.leds.getLast? ∈ lights .init

/-- Only the colours of the states are sent. -/
def Coloured (cb : Callback τ) : Prop := ∀ rgb ∈ cb.leds, rgb ∈ [off, blue, green]

variable {cb cb' : Callback τ} {io : Idle τ} {rgb : Rgb}

theorem lights_init {state : State} {led : Option Rgb} (h : led ∈ lights state) : led ∈ lights .init := by
  have hall : ∀ led ∈ lights state, led ∈ lights .init := by cases state <;> decide
  exact hall led h

theorem setState_cases (cb : Callback τ) (state : State) : (cb.setState state).done = cb.done ∧
    (state = .init ∧ (cb.setState state).leds = cb.leds ∨
      ∃ rgb, some rgb ∈ lights state ∧ (cb.setState state).leds = cb.leds ++ [rgb]) := by
  cases state with
  | init => exact ⟨rfl, .inl ⟨rfl, rfl⟩⟩
  | ready => exact ⟨rfl, .inr ⟨blue, by decide, rfl⟩⟩
  | play => exact ⟨rfl, .inr ⟨green, by decide, rfl⟩⟩
  | dead => exact ⟨rfl, .inr ⟨off, by decide, rfl⟩⟩

theorem Coloured.setState (h : cb.Coloured) (state : State) : (cb.setState state).Coloured := by
  rcases (setState_cases cb state).2 with ⟨-, hquiet⟩ | ⟨rgb, hrgb, hsent⟩
  · rw [Coloured, hquiet]
    exact h
  · rw [Coloured, hsent]
    intro colour hcolour
    rcases List.mem_append.1 hcolour with hbefore | hnew
    · exact h colour hbefore
    · rw [List.mem_singleton.1 hnew]
      simpa [lights] using lights_init hrgb

theorem lights_setState {state : State} (h : cb.leds.getLast? ∈ lights .init) :
    (cb.setState state).leds.getLast? ∈ lights state := by
  rcases (setState_cases cb state).2 with ⟨rfl, hquiet⟩ | ⟨rgb, hrgb, hsent⟩
  · rw [hquiet]
    exact h
  · rw [hsent, List.getLast?_concat]
    exact hrgb

/-- The first part of a poll sends nothing, and goes on to blink only during PLAY. -/
theorem onIdle_waiting (cb : Callback τ) (io : Idle τ) : (cb.onIdle io .waiting).2.leds = cb.leds ∧
    (cb.onIdle io .waiting).2.done = cb.done ∧ ((cb.onIdle io .waiting).1 = .comparing ∨
      (cb.onIdle io .waiting).1 = .blinking ∧ cb.state = .play) := by
  obtain ⟨found, hfound⟩ : ∃ found, (if cb.i2s then cb else { cb with i2s := io.i2s }) =
      { cb with i2s := found } := by
    split
    · exact ⟨cb.i2s, rfl⟩
    · exact ⟨io.i2s, rfl⟩
  simp only [Callback.onIdle, hfound]
  split
  case isFalse => exact ⟨rfl, rfl, .inl rfl⟩
  case isTrue haudio =>
    split
    · exact ⟨rfl, rfl, .inr ⟨rfl, haudio.2.1⟩⟩
    · exact ⟨rfl, rfl, .inl rfl⟩

theorem Coloured.onIdle (h : cb.Coloured) (io : Idle τ) (poll : Poll) : (cb.onIdle io poll).2.Coloured := by
  cases poll with
  | waiting =>
      rw [Coloured, (onIdle_waiting cb io).1]
      exact h
  | blinking => exact h.setState _
  | comparing =>
      rw [Callback.onIdle]
      split
      · exact h
      · exact h
  | storing => exact h
  | showing => exact h.setState _

/-- Each step of a poll leads on, and when it is over the LED has a colour of the state that was read. -/
theorem Lit.onIdle {poll : Poll} (h : cb.Lit poll) (io : Idle τ) :
    (cb.onIdle io poll).2.Lit (cb.onIdle io poll).1 ∧
      (poll ≠ .waiting → (cb.onIdle io poll).1 = .waiting → (cb.onIdle io poll).2.done = cb.state) := by
  cases poll with
  | waiting =>
      refine ⟨?_, fun hwaiting => absurd rfl hwaiting⟩
      obtain ⟨hleds, hdone, hnext | ⟨hnext, hplay⟩⟩ := onIdle_waiting cb io
      · rw [hnext, Lit, hleds, hdone]
        exact .inl h
      · rw [hnext, Lit, hleds, hdone, onIdle_state]
        exact ⟨hplay, h⟩
  | blinking =>
      obtain ⟨hplay, hled⟩ := h
      refine ⟨.inr ⟨(onIdle_state cb io .blinking).trans hplay, ?_⟩, fun _ hend => by cases hend⟩
      change (cb.setState (if cb.toggle then cb.state else .dead)).leds.getLast? ∈ lights .play
      cases cb.toggle with
      | true =>
          rw [if_pos rfl, hplay]
          exact lights_setState (lights_init hled)
      | false =>
          have hsent : (cb.setState .dead).leds = cb.leds ++ [off] := rfl
          rw [if_neg Bool.false_ne_true, hsent, List.getLast?_concat]
          decide
  | comparing =>
      by_cases hseen : cb.state = cb.done
      · have hnext : cb.onIdle io .comparing = (.waiting, cb) := if_pos hseen
        rw [hnext]
        refine ⟨?_, fun _ _ => hseen.symm⟩
        rcases h with hled | ⟨hplay, hled⟩
        · exact hled
        · rw [Lit, ← hseen, hplay]
          exact hled
      · have hnext : cb.onIdle io .comparing = (.storing, cb) := if_neg hseen
        rw [hnext]
        refine ⟨?_, fun _ hend => by cases hend⟩
        rcases h with hled | ⟨-, hled⟩
        · exact lights_init hled
        · exact lights_init hled
  | storing => exact ⟨⟨rfl, h⟩, fun _ hend => by cases hend⟩
  | showing =>
      obtain ⟨hdone, hled⟩ := h
      have hkept : (cb.setState cb.state).done = cb.state := (setState_cases cb cb.state).1.trans hdone
      refine ⟨?_, fun _ _ => hkept⟩
      change (cb.setState cb.state).leds.getLast? ∈ lights (cb.setState cb.state).done
      rw [hkept]
      exact lights_setState hled

end Callback

namespace StatusServer

variable {P : Lookup} {s s' : StatusServer τ}

/-- No session reports while a poll is under way. -/
def Undisturbed (P : Lookup) (s : StatusServer τ) : StatusAction τ → Prop
  | .server a => s.poll ≠ .waiting → ∀ server, s.server.Step P a server → s.server.reported server a = []
  | .idle _ => True

theorem report_leds (s : StatusServer τ) (server : Server) (reports : List (ℕ × State)) :
    (s.report server reports).callback.leds = s.callback.leds ∧
      (s.report server reports).callback.done = s.callback.done := by
  have hreports : ∀ cb : Callback τ, (reports.foldl (fun cb report => cb.onState report.2) cb).leds = cb.leds ∧
      (reports.foldl (fun cb report => cb.onState report.2) cb).done = cb.done := by
    induction reports with
    | nil => exact fun cb => ⟨rfl, rfl⟩
    | cons report reports ih => exact fun cb => ih (cb.onState report.2)
  exact hreports s.callback

theorem coloured_step {a : StatusAction τ} (h : s.callback.Coloured) (hstep : s.Step P a s') :
    s'.callback.Coloured := by
  rcases step_cases hstep with ⟨io, -, rfl⟩ | ⟨act, server, -, -, -, rfl⟩
  · exact h.onIdle io s.poll
  · rw [Callback.Coloured, (report_leds s server _).1]
    exact h

theorem lit_step {a : StatusAction τ} (h : s.callback.Lit s.poll) (hquiet : s.Undisturbed P a)
    (hstep : s.Step P a s') : s'.callback.Lit s'.poll := by
  rcases step_cases hstep with ⟨io, -, rfl⟩ | ⟨act, server, rfl, hserver, -, rfl⟩
  · exact (h.onIdle io).1
  · by_cases hpoll : s.poll = .waiting
    · obtain ⟨hleds, hdone⟩ := report_leds s server (s.server.reported server act)
      change (s.report server _).callback.Lit s.poll
      rw [hpoll] at h ⊢
      rw [Callback.Lit, hleds, hdone]
      exact h
    · rw [hquiet hpoll server hserver, report_nil]
      exact h

/-- In every run only the three colours are sent. Where no report falls into a poll, the LED has after
every poll a colour of the state that some session reported last, and that session is in this state; and
where no session reports while another is in READY or PLAY, one in READY is shown in blue, and one in PLAY
in green or, as the LED blinks, by none. -/
theorem led_shows_last_report (P : Lookup) (codec : AudioCodec) (rtp rtcp : ℤ) (numBuffers : ℕ) (t : τ)
    (as : List (StatusAction τ)) (s : StatusServer τ)
    (hrun : Run (Step P) (new (.new codec rtp rtcp numBuffers) t) as s) :
    (∀ rgb ∈ s.callback.leds, rgb ∈ [Callback.off, Callback.blue, Callback.green]) ∧
    (Along (Step P) (Undisturbed P) (new (.new codec rtp rtcp numBuffers) t) as →
      ∀ io s', s.Step P (.idle io) s' → s.poll ≠ .waiting → s'.poll = .waiting →
        (∀ i state, s'.log.getLast? = some (i, state) →
          s'.server.status i = some state ∧ s'.callback.leds.getLast? ∈ Callback.lights state) ∧
        (Along (Step P) (Alone P) (new (.new codec rtp rtcp numBuffers) t) as → ∀ i,
          (s'.server.status i = some .ready → s'.callback.leds.getLast? = some Callback.blue) ∧
          (s'.server.status i = some .play →
            s'.callback.leds.getLast? ∈ [some Callback.green, some Callback.off]))) := by
  have hcoloured : s.callback.Coloured :=
    hrun.invariant (fun _ _ _ h hstep => coloured_step h hstep) (List.forall_mem_nil _)
  have hlast := lastShown_run hrun
  refine ⟨hcoloured, fun hundisturbed io s' hpoll hunder hover => ?_⟩
  obtain rfl := Option.some.inj hpoll
  have hlit : s.callback.Lit s.poll :=
    hrun.invariant_along (I := fun s => s.callback.Lit s.poll)
      (fun _ _ _ h hquiet hstep => lit_step h hquiet hstep) hundisturbed List.mem_cons_self
  obtain ⟨hlit', hread⟩ := hlit.onIdle io
  have hover : (s.callback.onIdle io s.poll).1 = .waiting := hover
  have hdone := hread hunder hover
  rw [hover] at hlit'
  have hshown : ∀ i state, s.log.getLast? = some (i, state) → s.server.status i = some state ∧
      (s.callback.onIdle io s.poll).2.leds.getLast? ∈ Callback.lights state := by
    intro i state hreport
    obtain ⟨hstate, hstatus⟩ := hlast.reported i state hreport
    refine ⟨hstatus, ?_⟩
    rw [← hstate, ← hdone]
    exact hlit'
  refine ⟨hshown, fun halone i => ?_⟩
  have hone := oneBusy_run hrun halone
  have hlight : ∀ state, s.server.status i = some state → s.server.Busy i →
      (s.callback.onIdle io s.poll).2.leds.getLast? ∈ Callback.lights state := by
    intro state hstatus hbusy
    obtain ⟨state', hreport⟩ := hone i hbusy
    obtain ⟨hstatus', hled⟩ := hshown i state' hreport
    obtain rfl := Option.some.inj (hstatus.symm.trans hstatus')
    exact hled
  exact ⟨fun hready => List.mem_singleton.1 (hlight .ready hready (.inl hready)),
    fun hplay => hlight .play hplay (.inr hplay)⟩

/-- No session reports while another one is in READY or PLAY. -/
def reportsAlone (P : Lookup) (s : StatusServer τ) : StatusAction τ → Bool
  | .server a => (s.server.exec P a).all fun server => (s.server.reported server a).all fun report =>
      (List.range s.server.connections.length).all fun i =>
        i = report.1 ∨ s.server.status i ≠ some .ready ∧ s.server.status i ≠ some .play
  | .idle _ => true

theorem alone_of_reportsAlone {a : StatusAction τ} (h : reportsAlone P s a = true) : s.Alone P a := by
  cases a with
  | server act =>
      intro server hserver report hreport i hi hbusy
      have hserver : s.server.exec P act = some server := hserver
      have hlt : i < s.server.connections.length := by
        by_contra hge
        rw [Server.Busy, Server.status, List.getElem?_eq_none (Nat.le_of_not_lt hge)] at hbusy
        simp at hbusy
      rw [reportsAlone, hserver] at h
      have hothers := List.all_eq_true.1 (List.all_eq_true.1 h report hreport) i (List.mem_range.2 hlt)
      rcases of_decide_eq_true hothers with hsame | ⟨hready, hplay⟩
      · exact hi hsame
      · exact hbusy.elim hready hplay
  | idle io => trivial

/-- The check for reports that fall into a poll. -/
def reportsBetween (P : Lookup) (s : StatusServer τ) : StatusAction τ → Bool
  | .server a => s.poll = .waiting ∨ (s.server.exec P a).all fun server => s.server.reported server a = []
  | .idle _ => true

theorem undisturbed_of_reportsBetween {a : StatusAction τ} (h : reportsBetween P s a = true) :
    s.Undisturbed P a := by
  cases a with
  | server act =>
      intro hpoll server hserver
      have hserver : s.server.exec P act = some server := hserver
      rcases of_decide_eq_true h with hwaiting | hquiet
      · exact absurd hwaiting hpoll
      · rw [hserver] at hquiet
        exact of_decide_eq_true hquiet
  | idle io => trivial

/-- Audio comes in, and the LED is to blink. -/
def audible : Idle Unit := ⟨true, 4, (), fun _ _ => true⟩

/-- One of two sessions is set up and plays, each time with a poll after it; the last is about to show
what it has read. -/
def setupAndPlayed : List (StatusAction Unit) :=
  [.server (.connect (ascii "10.0.0.1") 7), .server (.connect (ascii "10.0.0.1") 8),
    .server (.ofText 0 Server.simulated Server.setupText), .idle audible, .idle audible, .idle audible,
    .idle audible, .server (.ofText 0 Server.simulated Server.playText), .idle audible, .idle audible,
    .server .getFree, .idle audible, .idle audible]

/-- A session that plays while another one waits, and the end of the poll after that. -/
theorem led_shows_last_report_in_turn : ∃ s s' : StatusServer Unit,
    Run (Step Lookup.literal) (new Server.pcmServer ()) setupAndPlayed s ∧
    s.Step Lookup.literal (.idle audible) s' ∧ s'.poll = .waiting ∧
    s'.server.status 0 = some .play ∧ s'.server.status 1 = some .init ∧
    s'.callback.leds.getLast? ∈ [some Callback.green, some Callback.off] := by
  have hrun : (execAll (exec Lookup.literal) (new Server.pcmServer ()) setupAndPlayed).any (fun s =>
      s.poll ≠ .waiting ∧ (execAll (exec Lookup.literal) s [.idle audible]).any fun s' =>
        s'.poll = .waiting ∧ s'.server.status 0 = some .play ∧ s'.server.status 1 = some .init) = true := by
    decide +kernel
  obtain ⟨s, hs, hpolled⟩ := run_of_any hrun
  obtain ⟨hunder, hpolled⟩ := of_decide_eq_true hpolled
  obtain ⟨s', hs', hstate⟩ := run_of_any hpolled
  obtain ⟨hover, hplay, hinit⟩ := of_decide_eq_true hstate
  have hpoll : s.Step Lookup.literal (.idle audible) s' := by
    cases hs' with
    | cons hstep hnil =>
        cases hnil
        exact hstep
  have hshown := (led_shows_last_report Lookup.literal _ _ _ _ () _ s hs).2
    (along_of_allAlong (fun _ _ => undisturbed_of_reportsBetween) (by decide +kernel))
  have halone := (hshown _ s' hpoll hunder hover).2
  exact ⟨s, s', hs, hpoll, hover, hplay, hinit,
    (halone (along_of_allAlong (fun _ _ => alone_of_reportsAlone) (by decide +kernel)) 0).2 hplay⟩

/-- A session plays between the storing and the showing of its READY and pauses again before the next
poll: in READY it is shown in green. -/
example : (execAll (exec Lookup.literal) (new Server.pcmServer ())
    [.server (.connect (ascii "10.0.0.1") 7), .server (.ofText 0 Server.simulated Server.setupText),
      .idle audible, .idle audible, .idle audible,
      .server (.ofText 0 Server.simulated Server.playText), .idle audible,
      .server (.ofText 0 Server.simulated Server.pauseText), .idle audible, .idle audible]).any (fun s =>
    s.poll = .waiting ∧ s.server.status 0 = some .ready ∧ s.callback.leds = [Callback.green]) = true := by
  decide +kernel

end StatusServer

end WifiAudio

/-
The heartbeats of a control connection: `msgHandler` of `client/control.go`, which
sends a Ping at every tick and remembers the last Pong, and `manager` of
`server/control.go`, which remembers the last Ping and answers it.  Each side looks
once a second how long ago that was.  Clocks are in nanoseconds, durations are
int64.
-/
import Frp.Client.Reconnect

namespace Frp

open GoInt Transition
open Reconnect (second duration)

namespace Heartbeat

structure ClientConf where
  heartbeatInterval : Int
  heartbeatTimeout : Int
  tcpMux : Bool

structure ServerConf where
  heartbeatTimeout : Int
  tcpMux : Bool

/-- `time.Duration(HeartbeatInterval) * time.Second`, and the timeouts. -/
def ClientConf.interval (cfg : ClientConf) : Int :=
  duration (cfg.heartbeatInterval * second)

def ClientConf.timeout (cfg : ClientConf) : Int :=
  duration (cfg.heartbeatTimeout * second)

def ServerConf.timeout (cfg : ServerConf) : Int :=
  duration (cfg.heartbeatTimeout * second)

/-- The ticker for the Pings is made. -/
def ClientConf.Sends (cfg : ClientConf) : Prop := 0 < cfg.heartbeatInterval

def ClientConf.Checks (cfg : ClientConf) : Prop :=
  0 < cfg.heartbeatInterval ∧ 0 < cfg.heartbeatTimeout ∧ cfg.tcpMux = false

def ServerConf.Checks (cfg : ServerConf) : Prop :=
  cfg.tcpMux = false ∧ 0 < cfg.heartbeatTimeout

instance (cfg : ClientConf) : Decidable cfg.Sends :=
  inferInstanceAs (Decidable (_ < _))

instance (cfg : ClientConf) : Decidable cfg.Checks :=
  inferInstanceAs (Decidable (_ ∧ _))

instance (cfg : ServerConf) : Decidable cfg.Checks :=
  inferInstanceAs (Decidable (_ ∧ _))

/-- A Pong under way: when the Ping that it answers was sent, when it was, and
whether it carries the error of a Ping that was refused. -/
structure Pong where
  asked : Int
  sent : Int
  error : Bool
deriving DecidableEq, Repr

/-- Why `msgHandler` or `manager` has returned: the peer was given up, the ticker
panicked on an interval that is not positive, a Ping could not be signed or was
refused, or the connection has ended. -/
inductive Ending where
  | timeout
  | panicked
  | setPing
  | pongError
  | invalidPing
  | closed
deriving DecidableEq, Repr

/-- The clock, the two times that are remembered, the next ticks, the messages
under way in their order, and how each side has ended. -/
structure State where
  now : Int
  lastPing : Int
  lastPong : Int
  nextSend : Int
  clientCheck : Int
  serverCheck : Int
  started : Bool
  pings : List Int
  pongs : List Pong
  clientEnd : Option Ending
  serverEnd : Option Ending
deriving DecidableEq, Repr

/-- What happens: `SetPing` may fail, and `pluginManager.Ping` and `VerifyPing`
may refuse; `readCh` is closed when the connection has ended. -/
inductive Action where
  | pass (d : Nat)
  | msgHandler
  | send (signed : Bool)
  | ping (accepted : Bool)
  | pong
  | clientCheck
  | serverCheck
  | clientClosed
  | serverClosed
deriving DecidableEq, Repr

/-- `NewControl` of frps; the answer to the login is on its way to frpc. -/
def init : State where
  now := 0
  lastPing := 0
  lastPong := 0
  nextSend := 0
  clientCheck := 0
  serverCheck := second
  started := false
  pings := []
  pongs := []
  clientEnd := none
  serverEnd := none

/-- `msgHandler` is running, and has not returned. -/
def State.Working (s : State) : Prop := s.started = true ∧ s.clientEnd = none

instance (s : State) : Decidable s.Working := inferInstanceAs (Decidable (_ ∧ _))

def step (client : ClientConf) (server : ServerConf) (s : State) :
    Action → Option State
  | .pass d => some { s with now := s.now + d }
  | .msgHandler =>
      if s.started then none
      else if client.Sends ∧ client.interval ≤ 0 then
        some { s with started := true, clientEnd := some .panicked }
      else some { s with
        lastPong := s.now
        nextSend := s.now + client.interval
        clientCheck := s.now + second
        started := true }
  | .send signed =>
      if s.Working ∧ client.Sends ∧ s.nextSend ≤ s.now then
        if signed then some { s with
          pings := s.pings ++ [s.now]
          nextSend := s.nextSend + client.interval }
        else some { s with clientEnd := some .setPing }
      else none
  | .ping accepted =>
      if s.serverEnd = none then
        match s.pings with
        | asked :: pings =>
            if accepted then some { s with
              lastPing := s.now
              pings := pings
              pongs := s.pongs ++ [⟨asked, s.now, false⟩] }
            else some { s with
              pings := pings
              pongs := s.pongs ++ [⟨asked, s.now, true⟩]
              serverEnd := some .invalidPing }
        | [] => none
      else none
  | .pong =>
      if s.Working then
        match s.pongs with
        | pong :: pongs =>
            if pong.error then
              some { s with pongs := pongs, clientEnd := some .pongError }
            else some { s with lastPong := s.now, pongs := pongs }
        | [] => none
      else none
  | .clientCheck =>
      if s.Working ∧ client.Checks ∧ s.clientCheck ≤ s.now then
        if client.timeout < s.now - s.lastPong then
          some { s with clientEnd := some .timeout }
        else some { s with clientCheck := s.clientCheck + second }
      else none
  | .serverCheck =>
      if s.serverEnd = none ∧ server.Checks ∧ s.serverCheck ≤ s.now then
        if server.timeout < s.now - s.lastPing then
          some { s with serverEnd := some .timeout }
        else some { s with serverCheck := s.serverCheck + second }
      else none
  | .clientClosed =>
      if s.Working then some { s with clientEnd := some .closed } else none
  | .serverClosed =>
      if s.serverEnd = none then some { s with serverEnd := some .closed }
      else none

def system (client : ClientConf) (server : ServerConf) : System State Action :=
  ⟨init, step client server⟩

/-- Nothing on the way is later than `delay`, and no tick later than `late`. -/
structure Timely (client : ClientConf) (server : ServerConf) (delay late : Int)
    (s : State) (t : Int) : Prop where
  login : s.started = false → t ≤ delay
  pings : ∀ asked ∈ s.pings, t ≤ asked + delay
  pongs : ∀ pong ∈ s.pongs, t ≤ pong.sent + delay
  sends : s.started = true → client.Sends → t ≤ s.nextSend + late

/-- The ticks of the checks are not later than `late`. -/
structure Watched (client : ClientConf) (server : ServerConf) (late : Int)
    (s : State) (t : Int) : Prop where
  client : s.Working → client.Checks → t ≤ s.clientCheck + late
  server : s.serverEnd = none → server.Checks → t ≤ s.serverCheck + late

instance (client : ClientConf) (server : ServerConf) (delay late : Int)
    (s : State) (t : Int) : Decidable (Timely client server delay late s t) :=
  decidable_of_iff ((s.started = false → t ≤ delay) ∧
      (∀ asked ∈ s.pings, t ≤ asked + delay) ∧
      (∀ pong ∈ s.pongs, t ≤ pong.sent + delay) ∧
      (s.started = true → client.Sends → t ≤ s.nextSend + late))
    ⟨fun h => ⟨h.1, h.2.1, h.2.2.1, h.2.2.2⟩, fun h => ⟨h.1, h.2, h.3, h.4⟩⟩

instance (client : ClientConf) (server : ServerConf) (late : Int)
    (s : State) (t : Int) : Decidable (Watched client server late s t) :=
  decidable_of_iff ((s.Working → client.Checks → t ≤ s.clientCheck + late) ∧
      (s.serverEnd = none → server.Checks → t ≤ s.serverCheck + late))
    ⟨fun h => ⟨h.1, h.2⟩, fun h => ⟨h.1, h.2⟩⟩

/-- The time may pass so far. -/
def Until (P : State → Int → Prop) (s : State) : Action → Prop
  | .pass d => P s (s.now + d)
  | .msgHandler | .send _ | .ping _ | .pong | .clientCheck | .serverCheck |
      .clientClosed | .serverClosed => True

/-- Every Ping is signed and accepted, and the connection does not end. -/
def Action.Sound : Action → Prop
  | .send signed => signed = true
  | .ping accepted => accepted = true
  | .clientClosed | .serverClosed => False
  | .pass _ | .msgHandler | .pong | .clientCheck | .serverCheck => True

/-- Both sides live, and nothing takes longer than it may. -/
def Living (client : ClientConf) (server : ServerConf) (delay late : Int)
    (s : State) (action : Action) : Prop :=
  Until (Timely client server delay late) s action ∧ action.Sound

/-- Times in order, none more than `gap` after the one before. -/
def Spaced (gap : Int) : Int → List Int → Prop
  | _, [] => True
  | last, time :: rest => last ≤ time ∧ time ≤ last + gap ∧ Spaced gap time rest

def latest : Int → List Int → Int
  | last, [] => last
  | _, time :: rest => latest time rest

theorem latest_append (last : Int) (times : List Int) (time : Int) :
    latest last (times ++ [time]) = time := by
  induction times generalizing last with
  | nil => rfl
  | cons head rest ih => exact ih head

theorem Spaced.append {gap last time : Int} {times : List Int}
    (hspaced : Spaced gap last times) (hlow : latest last times ≤ time)
    (hhigh : time ≤ latest last times + gap) :
    Spaced gap last (times ++ [time]) := by
  induction times generalizing last with
  | nil => exact ⟨hlow, hhigh, trivial⟩
  | cons head rest ih =>
      obtain ⟨hfirst, hnext, hrest⟩ := hspaced
      exact ⟨hfirst, hnext, ih hrest hlow hhigh⟩

theorem latest_le {last now : Int} {times : List Int} (hlast : last ≤ now)
    (htimes : ∀ time ∈ times, time ≤ now) : latest last times ≤ now := by
  induction times generalizing last with
  | nil => exact hlast
  | cons head rest ih =>
      exact ih (htimes head List.mem_cons_self)
        fun time htime => htimes time (List.mem_cons_of_mem head htime)

/-- The Pings one after the other: `handled` was sent when the last one that frps
has handled was, `answered` when the last one was whose Pong frpc has. -/
structure Trace (interval delay late : Int) (s : State)
    (handled answered : Int) : Prop where
  server : Spaced (interval + late) handled s.pings
  client : Spaced (interval + late) answered (s.pongs.map Pong.asked ++ s.pings)
  lastPing : handled ≤ s.lastPing + delay
  lastPong : answered ≤ s.lastPong
  handledPast : handled ≤ s.now
  answeredPast : answered ≤ s.now
  pings : ∀ asked ∈ s.pings, asked ≤ s.now ∧ s.now ≤ asked + delay
  pongs : ∀ pong ∈ s.pongs, pong.asked ≤ s.now ∧
    pong.sent ≤ pong.asked + delay ∧ s.now ≤ pong.sent + delay
  accepted : ∀ pong ∈ s.pongs, pong.error = false
  serverNext : s.nextSend ≤ latest handled s.pings + interval
  clientNext : s.nextSend ≤
    latest answered (s.pongs.map Pong.asked ++ s.pings) + interval
  punctual : s.now ≤ s.nextSend + late

section trace

variable {interval delay late handled answered : Int} {s : State}

/-- frps has heard of frpc lately: either no Ping is on its way and the next one is
not due, or the oldest one is not late. -/
theorem Trace.server_recent (htrace : Trace interval delay late s handled answered)
    (hdelay : 0 ≤ delay) :
    s.now ≤ s.lastPing + (interval + late + 2 * delay) := by
  have hlast := htrace.lastPing
  have hserver := htrace.server
  have hnext := htrace.serverNext
  have hpunctual := htrace.punctual
  cases hpings : s.pings with
  | nil =>
      rw [hpings, latest] at hnext
      omega
  | cons asked rest =>
      rw [hpings] at hserver
      obtain ⟨_, hgap, _⟩ := hserver
      obtain ⟨_, hway⟩ := htrace.pings asked (by simp [hpings])
      omega

/-- frpc has heard of frps lately: what it waits for is a Pong or a Ping on its way,
or the next tick. -/
theorem Trace.client_recent (htrace : Trace interval delay late s handled answered)
    (hdelay : 0 ≤ delay) :
    s.now ≤ s.lastPong + (interval + late + 2 * delay) := by
  have hlast := htrace.lastPong
  have hclient := htrace.client
  have hnext := htrace.clientNext
  have hpunctual := htrace.punctual
  cases hpongs : s.pongs with
  | cons pong rest =>
      rw [hpongs, List.map_cons, List.cons_append] at hclient
      obtain ⟨_, hgap, _⟩ := hclient
      obtain ⟨_, hsent, hway⟩ := htrace.pongs pong (by simp [hpongs])
      omega
  | nil =>
      rw [hpongs, List.map_nil, List.nil_append] at hclient hnext
      cases hpings : s.pings with
      | nil =>
          rw [hpings, latest] at hnext
          omega
      | cons asked rest =>
          rw [hpings] at hclient
          obtain ⟨_, hgap, _⟩ := hclient
          obtain ⟨_, hway⟩ := htrace.pings asked (by simp [hpings])
          omega

end trace

/-- What holds while everything is timely: nobody has given up, and once frpc is
running its Pings leave a trace. -/
structure Inv (interval delay late : Int) (s : State) : Prop where
  clientOpen : s.clientEnd = none
  serverOpen : s.serverEnd = none
  login : s.started = false →
    s.now ≤ delay ∧ s.lastPing = 0 ∧ s.pings = [] ∧ s.pongs = []
  trace : s.started = true →
    ∃ handled answered, Trace interval delay late s handled answered

section step

variable {client : ClientConf} {server : ServerConf}
  {interval delay late handled answered : Int} {s s' : State}

theorem Trace.pass (htrace : Trace interval delay late s handled answered)
    {d : Nat} (htimely : Timely client server delay late s (s.now + d))
    (hstarted : s.started = true) (hsends : client.Sends) :
    Trace interval delay late { s with now := s.now + d } handled answered where
  server := htrace.server
  client := htrace.client
  lastPing := htrace.lastPing
  lastPong := htrace.lastPong
  handledPast := by
    have hpast := htrace.handledPast
    simp only
    omega
  answeredPast := by
    have hpast := htrace.answeredPast
    simp only
    omega
  pings asked hasked := by
    obtain ⟨hsent, _⟩ := htrace.pings asked hasked
    exact ⟨by simp only; omega, htimely.pings asked hasked⟩
  pongs pong hpong := by
    obtain ⟨hasked, hway, _⟩ := htrace.pongs pong hpong
    exact ⟨by simp only; omega, hway, htimely.pongs pong hpong⟩
  accepted := htrace.accepted
  serverNext := htrace.serverNext
  clientNext := htrace.clientNext
  punctual := htimely.sends hstarted hsends

/-- The first tick is due an interval after `msgHandler` began. -/
theorem trace_msgHandler (hlate : 0 ≤ late) (hpos : 0 < interval) (hnow : s.now ≤ delay) (hlast : s.lastPing = 0)
    (hpings : s.pings = []) (hpongs : s.pongs = []) :
    Trace interval delay late { s with
      lastPong := s.now
      nextSend := s.now + interval
      clientCheck := s.now + second
      started := true } s.now s.now where
  server := by rw [hpings]; trivial
  client := by rw [hpings, hpongs]; trivial
  lastPing := by simp only [hlast]; omega
  lastPong := Int.le_refl _
  handledPast := Int.le_refl _
  answeredPast := Int.le_refl _
  pings asked hasked := by simp [hpings] at hasked
  pongs pong hpong := by simp [hpongs] at hpong
  accepted pong hpong := by simp [hpongs] at hpong
  serverNext := by
    simp only [hpings, latest]
    exact Int.le_refl _
  clientNext := by
    simp only [hpings, hpongs, List.map_nil, List.nil_append, latest]
    exact Int.le_refl _
  punctual := by
    simp only
    omega

theorem Trace.send (htrace : Trace interval delay late s handled answered)
    (hdelay : 0 ≤ delay) (hinterval : 0 ≤ interval) (hdue : s.nextSend ≤ s.now) :
    Trace interval delay late { s with
      pings := s.pings ++ [s.now]
      nextSend := s.nextSend + interval } handled answered := by
  have hpunctual := htrace.punctual
  have hserver := htrace.serverNext
  have hclient := htrace.clientNext
  have hpings : ∀ asked ∈ s.pings, asked ≤ s.now :=
    fun asked hasked => (htrace.pings asked hasked).1
  have hall : ∀ asked ∈ s.pongs.map Pong.asked ++ s.pings, asked ≤ s.now := by
    intro asked hasked
    rcases List.mem_append.mp hasked with hpong | hping
    · obtain ⟨pong, hin, rfl⟩ := List.mem_map.mp hpong
      exact (htrace.pongs pong hin).1
    · exact hpings asked hping
  constructor
  · exact htrace.server.append (latest_le htrace.handledPast hpings) (by omega)
  · simp only [← List.append_assoc]
    exact htrace.client.append (latest_le htrace.answeredPast hall) (by omega)
  · exact htrace.lastPing
  · exact htrace.lastPong
  · exact htrace.handledPast
  · exact htrace.answeredPast
  · intro asked hasked
    rcases List.mem_append.mp hasked with hold | hnew
    · exact htrace.pings asked hold
    · rw [List.mem_singleton.mp hnew]
      exact ⟨Int.le_refl _, by simp only; omega⟩
  · exact htrace.pongs
  · exact htrace.accepted
  · simp only [latest_append]
    omega
  · simp only [← List.append_assoc, latest_append]
    omega
  · simp only
    omega

/-- frps handles the oldest Ping and answers it: the two sides still see the same
Pings. -/
theorem Trace.ping (htrace : Trace interval delay late s handled answered)
    (hdelay : 0 ≤ delay) {asked : Int} {pings : List Int}
    (hpings : s.pings = asked :: pings) :
    Trace interval delay late { s with
      lastPing := s.now
      pings := pings
      pongs := s.pongs ++ [⟨asked, s.now, false⟩] } asked answered := by
  have hserver := htrace.server
  rw [hpings] at hserver
  obtain ⟨hpast, hway⟩ := htrace.pings asked (by simp [hpings])
  have hsame :
      (s.pongs ++ [(⟨asked, s.now, false⟩ : Pong)]).map Pong.asked ++ pings =
        s.pongs.map Pong.asked ++ s.pings := by
    simp [hpings]
  constructor
  · exact hserver.2.2
  · simp only [hsame]
    exact htrace.client
  · simp only
    omega
  · exact htrace.lastPong
  · exact hpast
  · exact htrace.answeredPast
  · intro other hother
    exact htrace.pings other (by rw [hpings]; exact List.mem_cons_of_mem asked hother)
  · intro pong hpong
    rcases List.mem_append.mp hpong with hold | hnew
    · exact htrace.pongs pong hold
    · rw [List.mem_singleton.mp hnew]
      exact ⟨hpast, hway, by simp only; omega⟩
  · intro pong hpong
    rcases List.mem_append.mp hpong with hold | hnew
    · exact htrace.accepted pong hold
    · rw [List.mem_singleton.mp hnew]
  · have hnext := htrace.serverNext
    rw [hpings, latest] at hnext
    exact hnext
  · simp only [hsame]
    exact htrace.clientNext
  · exact htrace.punctual

theorem Trace.pong (htrace : Trace interval delay late s handled answered)
    {pong : Pong} {pongs : List Pong} (hpongs : s.pongs = pong :: pongs) :
    Trace interval delay late { s with lastPong := s.now, pongs := pongs } handled
      pong.asked := by
  have hclient := htrace.client
  have hnext := htrace.clientNext
  obtain ⟨hpast, _, _⟩ := htrace.pongs pong (by simp [hpongs])
  rw [hpongs, List.map_cons, List.cons_append] at hclient hnext
  exact
    { server := htrace.server
      client := hclient.2.2
      lastPing := htrace.lastPing
      lastPong := hpast
      handledPast := htrace.handledPast
      answeredPast := hpast
      pings := htrace.pings
      pongs := fun other hother => htrace.pongs other
        (by rw [hpongs]; exact List.mem_cons_of_mem pong hother)
      accepted := fun other hother => htrace.accepted other
        (by rw [hpongs]; exact List.mem_cons_of_mem pong hother)
      serverNext := htrace.serverNext
      clientNext := hnext
      punctual := htrace.punctual }

/-- The ticks of the checks leave no trace. -/
theorem Trace.checked (htrace : Trace interval delay late s handled answered)
    (clientCheck serverCheck : Int) : Trace interval delay late
      { s with clientCheck := clientCheck, serverCheck := serverCheck }
      handled answered where
  server := htrace.server
  client := htrace.client
  lastPing := htrace.lastPing
  lastPong := htrace.lastPong
  handledPast := htrace.handledPast
  answeredPast := htrace.answeredPast
  pings := htrace.pings
  pongs := htrace.pongs
  accepted := htrace.accepted
  serverNext := htrace.serverNext
  clientNext := htrace.clientNext
  punctual := htrace.punctual

end step

theorem inv_init {interval delay late : Int} (hdelay : 0 ≤ delay) :
    Inv interval delay late init where
  clientOpen := rfl
  serverOpen := rfl
  login _ := ⟨hdelay, rfl, rfl, rfl⟩
  trace hstarted := by cases hstarted

/-- Both timeouts leave room for an interval, a late tick and a round trip, all as
the code computes them. -/
structure Roomy (client : ClientConf) (server : ServerConf)
    (delay late : Int) : Prop where
  delayNonneg : 0 ≤ delay
  lateNonneg : 0 ≤ late
  sends : client.Sends
  ticks : 0 < client.interval
  clientRoom : client.Checks →
    client.interval + late + 2 * delay ≤ client.timeout
  serverRoom : server.Checks →
    client.interval + late + 2 * delay ≤ server.timeout

section run

variable {client : ClientConf} {server : ServerConf} {delay late : Int}
  {s s' : State} {action : Action}

theorem Inv.step
    (hinv : Inv client.interval delay late s)
    (hroomy : Roomy client server delay late)
    (hliving : Living client server delay late s action)
    (hstep : step client server s action = some s') :
    Inv client.interval delay late s' := by
  have hinterval := hroomy.ticks
  obtain ⟨hcond, hsound⟩ := hliving
  cases action with
  | pass d =>
      obtain rfl := Option.some.inj hstep
      refine ⟨hinv.clientOpen, hinv.serverOpen, fun hstarted => ?_,
        fun hstarted => ?_⟩
      · obtain ⟨_, hrest⟩ := hinv.login hstarted
        exact ⟨hcond.login hstarted, hrest⟩
      · obtain ⟨handled, answered, htrace⟩ := hinv.trace hstarted
        exact ⟨handled, answered, htrace.pass hcond hstarted hroomy.sends⟩
  | msgHandler =>
      obtain ⟨hstarted, hsome⟩ := Option.ite_none_left_eq_some.mp hstep
      rw [if_neg fun hpanics => Int.not_le.mpr hinterval hpanics.2] at hsome
      obtain rfl := Option.some.inj hsome
      obtain ⟨hnow, hlast, hpings, hpongs⟩ :=
        hinv.login (eq_false_of_ne_true hstarted)
      exact ⟨hinv.clientOpen, hinv.serverOpen, fun hfalse => absurd hfalse (by simp),
        fun _ => ⟨s.now, s.now, trace_msgHandler hroomy.lateNonneg hinterval hnow
          hlast hpings hpongs⟩⟩
  | send signed =>
      obtain ⟨⟨hworking, _, hdue⟩, hsome⟩ := Option.ite_none_right_eq_some.mp hstep
      have hsigned : signed = true := hsound
      simp only [hsigned, if_true, Option.some.injEq] at hsome
      obtain rfl := hsome
      obtain ⟨handled, answered, htrace⟩ := hinv.trace hworking.1
      exact ⟨hinv.clientOpen, hinv.serverOpen,
        fun hfalse => absurd (hworking.1.symm.trans hfalse) (by decide),
        fun _ => ⟨handled, answered, htrace.send hroomy.delayNonneg
          (Int.le_of_lt hinterval) hdue⟩⟩
  | ping accepted =>
      obtain ⟨_, hsome⟩ := Option.ite_none_right_eq_some.mp hstep
      cases hpings : s.pings with
      | nil => simp [hpings] at hsome
      | cons asked pings =>
          have haccepted : accepted = true := hsound
          simp only [hpings, haccepted, if_true, Option.some.injEq] at hsome
          obtain rfl := hsome
          refine ⟨hinv.clientOpen, hinv.serverOpen, fun hstarted => ?_,
            fun hstarted => ?_⟩
          · obtain ⟨_, _, hnone, _⟩ := hinv.login hstarted
            rw [hnone] at hpings
            cases hpings
          · obtain ⟨handled, answered, htrace⟩ := hinv.trace hstarted
            exact ⟨asked, answered, htrace.ping hroomy.delayNonneg hpings⟩
  | pong =>
      obtain ⟨hworking, hsome⟩ := Option.ite_none_right_eq_some.mp hstep
      cases hpongs : s.pongs with
      | nil => simp [hpongs] at hsome
      | cons pong pongs =>
          obtain ⟨handled, answered, htrace⟩ := hinv.trace hworking.1
          have herror := htrace.accepted pong (by simp [hpongs])
          simp only [hpongs, herror, Bool.false_eq_true, if_false,
            Option.some.injEq] at hsome
          obtain rfl := hsome
          exact ⟨hinv.clientOpen, hinv.serverOpen,
            fun hfalse => absurd (hworking.1.symm.trans hfalse) (by decide),
            fun _ => ⟨handled, pong.asked, htrace.pong hpongs⟩⟩
  | clientCheck =>
      obtain ⟨⟨hworking, hchecks, _⟩, hsome⟩ :=
        Option.ite_none_right_eq_some.mp hstep
      obtain ⟨handled, answered, htrace⟩ := hinv.trace hworking.1
      have hrecent := htrace.client_recent hroomy.delayNonneg
      have hroom := hroomy.clientRoom hchecks
      rw [if_neg (by omega)] at hsome
      obtain rfl := Option.some.inj hsome
      exact ⟨hinv.clientOpen, hinv.serverOpen, hinv.login, fun _ =>
        ⟨handled, answered, htrace.checked _ _⟩⟩
  | serverCheck =>
      obtain ⟨⟨_, hchecks, _⟩, hsome⟩ := Option.ite_none_right_eq_some.mp hstep
      have hrecent : s.now ≤ s.lastPing +
          (client.interval + late + 2 * delay) := by
        have hdelay := hroomy.delayNonneg
        have hlate := hroomy.lateNonneg
        cases hstarted : s.started with
        | true =>
            obtain ⟨handled, answered, htrace⟩ := hinv.trace hstarted
            exact htrace.server_recent hdelay
        | false =>
            obtain ⟨hnow, hlast, _⟩ := hinv.login hstarted
            omega
      have hroom := hroomy.serverRoom hchecks
      rw [if_neg (by omega)] at hsome
      obtain rfl := Option.some.inj hsome
      refine ⟨hinv.clientOpen, hinv.serverOpen, hinv.login, fun hstarted => ?_⟩
      obtain ⟨handled, answered, htrace⟩ := hinv.trace hstarted
      exact ⟨handled, answered, htrace.checked _ _⟩
  | clientClosed => exact hsound.elim
  | serverClosed => exact hsound.elim

/-- Where the timeouts leave room for what the network and the schedulers take,
nobody gives a living peer up, or ends for another reason. -/
theorem open_of_run (hroomy : Roomy client server delay late)
    {word : List Action}
    (hrun : (system client server).Run (Living client server delay late) word s) :
    s.clientEnd = none ∧ s.serverEnd = none := by
  have hinv : Inv client.interval delay late s :=
    System.Run.invariant (inv_init hroomy.delayNonneg)
      (fun _ _ _ hinv hliving hstep => hinv.step hroomy hliving hstep) hrun
  exact ⟨hinv.clientOpen, hinv.serverOpen⟩

end run

/-- What the punctual checks of both sides keep, whatever becomes of the messages:
the peer had been heard of at the last check. -/
structure Alert (client : ClientConf) (server : ServerConf) (late : Int)
    (s : State) : Prop where
  lastPing : s.lastPing ≤ s.now
  lastPong : s.Working → s.lastPong ≤ s.now
  client : s.Working → client.Checks → s.now ≤ s.clientCheck + late ∧
    s.clientCheck ≤ s.lastPong + client.heartbeatTimeout * second + second
  server : s.serverEnd = none → server.Checks →
    s.now ≤ s.serverCheck + late ∧
      s.serverCheck ≤ s.lastPing + server.heartbeatTimeout * second + second

section alert

variable {client : ClientConf} {server : ServerConf} {late : Int}
  {s s' : State} {action : Action}

/-- A timeout that overflows comes earlier, not later. -/
theorem duration_le {x : Int} (hx : 0 ≤ x) : duration x ≤ x := by
  simp only [duration, Width.wrap, Width.half, Int.bmod_def]
  split <;> omega

example : (⟨30, 10000000000, false⟩ : ClientConf).timeout < 0 := by decide

theorem client_timeout_le (hchecks : client.Checks) :
    client.timeout ≤ client.heartbeatTimeout * second :=
  duration_le (Int.mul_nonneg (Int.le_of_lt hchecks.2.1) (by decide))

theorem server_timeout_le (hchecks : server.Checks) :
    server.timeout ≤ server.heartbeatTimeout * second :=
  duration_le (Int.mul_nonneg (Int.le_of_lt hchecks.2) (by decide))

theorem alert_init (hlate : 0 ≤ late) : Alert client server late init where
  lastPing := Int.le_refl 0
  lastPong hworking := by cases hworking.1
  client hworking := by cases hworking.1
  server _ hchecks := by
    have hpos := hchecks.2
    simp only [init, second]
    omega

/-- A side that ends is not held to anything any more. -/
theorem Alert.clientEnd (halert : Alert client server late s) (ending : Ending) :
    Alert client server late { s with clientEnd := some ending } where
  lastPing := halert.lastPing
  lastPong hworking := by cases hworking.2
  client hworking := by cases hworking.2
  server := halert.server

theorem Alert.serverEnd (halert : Alert client server late s) (ending : Ending) :
    Alert client server late { s with serverEnd := some ending } where
  lastPing := halert.lastPing
  lastPong := halert.lastPong
  client := halert.client
  server hopen := by cases hopen

/-- What is under way does not matter, nor when the next Ping is sent. -/
theorem Alert.messages (halert : Alert client server late s) (pings : List Int)
    (pongs : List Pong) (nextSend : Int) : Alert client server late
      { s with pings := pings, pongs := pongs, nextSend := nextSend } where
  lastPing := halert.lastPing
  lastPong := halert.lastPong
  client := halert.client
  server := halert.server

theorem Alert.step (halert : Alert client server late s) (hlate : 0 ≤ late)
    (hcond : Until (Watched client server late) s action)
    (hstep : step client server s action = some s') :
    Alert client server late s' := by
  have hping := halert.lastPing
  have hpong := halert.lastPong
  have hclient := halert.client
  have hserver := halert.server
  cases action with
  | pass d =>
      obtain rfl := Option.some.inj hstep
      refine ⟨?_, fun hworking => ?_, fun hworking hchecks => ?_,
        fun hopen hchecks => ?_⟩
      · simp only
        omega
      · have hbefore := hpong hworking
        simp only
        omega
      · exact ⟨hcond.client hworking hchecks, (hclient hworking hchecks).2⟩
      · exact ⟨hcond.server hopen hchecks, (hserver hopen hchecks).2⟩
  | msgHandler =>
      obtain ⟨_, hsome⟩ := Option.ite_none_left_eq_some.mp hstep
      split at hsome
      · obtain rfl := Option.some.inj hsome
        refine ⟨hping, fun hworking => ?_, fun hworking => ?_, hserver⟩ <;>
          cases hworking.2
      · obtain rfl := Option.some.inj hsome
        refine ⟨hping, fun _ => Int.le_refl _, fun _ hchecks => ?_, hserver⟩
        have hpos := hchecks.2.1
        simp only [second]
        omega
  | send signed =>
      obtain ⟨_, hsome⟩ := Option.ite_none_right_eq_some.mp hstep
      split at hsome
      · obtain rfl := Option.some.inj hsome
        exact halert.messages _ _ _
      · obtain rfl := Option.some.inj hsome
        exact halert.clientEnd .setPing
  | ping accepted =>
      obtain ⟨_, hsome⟩ := Option.ite_none_right_eq_some.mp hstep
      cases hpings : s.pings with
      | nil => simp [hpings] at hsome
      | cons asked pings =>
          simp only [hpings] at hsome
          split at hsome
          · obtain rfl := Option.some.inj hsome
            refine ⟨Int.le_refl _, hpong, hclient, fun hopen hchecks => ?_⟩
            obtain ⟨hwithin, hbefore⟩ := hserver hopen hchecks
            simp only
            omega
          · obtain rfl := Option.some.inj hsome
            exact (halert.messages pings (s.pongs ++ [⟨asked, s.now, true⟩])
              s.nextSend).serverEnd .invalidPing
  | pong =>
      obtain ⟨hworking, hsome⟩ := Option.ite_none_right_eq_some.mp hstep
      cases hpongs : s.pongs with
      | nil => simp [hpongs] at hsome
      | cons pong pongs =>
          simp only [hpongs] at hsome
          split at hsome
          · obtain rfl := Option.some.inj hsome
            exact (halert.messages s.pings pongs s.nextSend).clientEnd .pongError
          · obtain rfl := Option.some.inj hsome
            refine ⟨hping, fun _ => Int.le_refl _, fun _ hchecks => ?_, hserver⟩
            obtain ⟨hwithin, hbefore⟩ := hclient hworking hchecks
            have hpast := hpong hworking
            simp only
            omega
  | clientCheck =>
      obtain ⟨⟨hworking, hchecks, _⟩, hsome⟩ :=
        Option.ite_none_right_eq_some.mp hstep
      split at hsome
      · obtain rfl := Option.some.inj hsome
        exact halert.clientEnd .timeout
      · next hheard =>
          obtain rfl := Option.some.inj hsome
          refine ⟨hping, hpong, fun _ _ => ?_, hserver⟩
          obtain ⟨hwithin, _⟩ := hclient hworking hchecks
          have hless := client_timeout_le hchecks
          simp only [second] at *
          omega
  | serverCheck =>
      obtain ⟨⟨hopen, hchecks, _⟩, hsome⟩ :=
        Option.ite_none_right_eq_some.mp hstep
      split at hsome
      · obtain rfl := Option.some.inj hsome
        exact halert.serverEnd .timeout
      · next hheard =>
          obtain rfl := Option.some.inj hsome
          refine ⟨hping, hpong, hclient, fun _ _ => ?_⟩
          obtain ⟨hwithin, _⟩ := hserver hopen hchecks
          have hless := server_timeout_le hchecks
          simp only [second] at *
          omega
  | clientClosed =>
      obtain ⟨_, hsome⟩ := Option.ite_none_right_eq_some.mp hstep
      obtain rfl := Option.some.inj hsome
      exact halert.clientEnd .closed
  | serverClosed =>
      obtain ⟨_, hsome⟩ := Option.ite_none_right_eq_some.mp hstep
      obtain rfl := Option.some.inj hsome
      exact halert.serverEnd .closed

/-- A side that is still there has heard of the other one within its timeout and a
second, as late as its ticks are; no assumption on the messages. -/
theorem heard_of_run (hlate : 0 ≤ late) {word : List Action}
    (hrun : (system client server).Run (Until (Watched client server late))
      word s) :
    (s.Working → client.Checks → s.now - s.lastPong ≤
      (client.heartbeatTimeout + 1) * second + late) ∧
    (s.serverEnd = none → server.Checks → s.now - s.lastPing ≤
      (server.heartbeatTimeout + 1) * second + late) := by
  have halert : Alert client server late s :=
    System.Run.invariant (alert_init hlate)
      (fun _ _ _ halert hcond hstep => halert.step hlate hcond hstep) hrun
  constructor
  · intro hworking hchecks
    obtain ⟨hwithin, hbefore⟩ := halert.client hworking hchecks
    rw [Int.add_mul, Int.one_mul]
    omega
  · intro hopen hchecks
    obtain ⟨hwithin, hbefore⟩ := halert.server hopen hchecks
    rw [Int.add_mul, Int.one_mul]
    omega

end alert

instance (P : State → Int → Prop) [∀ s t, Decidable (P s t)] (s : State)
    (action : Action) : Decidable (Until P s action) :=
  match action with
  | .pass d => inferInstanceAs (Decidable (P s (s.now + d)))
  | .msgHandler | .send _ | .ping _ | .pong | .clientCheck | .serverCheck |
      .clientClosed | .serverClosed => inferInstanceAs (Decidable True)

instance (action : Action) : Decidable action.Sound :=
  match action with
  | .send signed => inferInstanceAs (Decidable (signed = true))
  | .ping accepted => inferInstanceAs (Decidable (accepted = true))
  | .clientClosed | .serverClosed => inferInstanceAs (Decidable False)
  | .pass _ | .msgHandler | .pong | .clientCheck | .serverCheck =>
      inferInstanceAs (Decidable True)

instance (client : ClientConf) (server : ServerConf) (delay late : Int)
    (s : State) (action : Action) :
    Decidable (Living client server delay late s action) :=
  inferInstanceAs (Decidable (_ ∧ _))

/-- One heartbeat and a check of each side, with the default timeouts. -/
def oneHeartbeat : List Action :=
  [.pass 500000000, .msgHandler, .pass 30500000000, .send true, .pass 900000000,
    .ping true, .pass 900000000, .pong, .clientCheck, .serverCheck]

theorem open_of_run_oneHeartbeat : ∃ s,
    (system ⟨30, 90, false⟩ ⟨90, false⟩).Run
      (Living ⟨30, 90, false⟩ ⟨90, false⟩ second second) oneHeartbeat s ∧
    (s.lastPong = 32800000000 ∧ s.clientCheck = 2500000000) ∧
    s.clientEnd = none ∧ s.serverEnd = none := by
  have hrun : ∃ s, (system ⟨30, 90, false⟩ ⟨90, false⟩).Run
      (Living ⟨30, 90, false⟩ ⟨90, false⟩ second second) oneHeartbeat s ∧
      (s.lastPong = 32800000000 ∧ s.clientCheck = 2500000000) :=
    System.exists_run_of_replay (by decide)
  obtain ⟨s, hreaches, hfacts⟩ := hrun
  exact ⟨s, hreaches, hfacts,
    open_of_run ⟨by decide, by decide, by decide, by decide, by decide,
      by decide⟩ hreaches⟩

/-- Nothing comes through, and after two seconds nobody has given up yet. -/
def silence : List Action :=
  [.msgHandler, .pass 1000000000, .clientCheck, .serverCheck, .pass 1000000000,
    .clientCheck, .serverCheck]

theorem heard_of_run_silence : ∃ s,
    (system ⟨1, 2, false⟩ ⟨2, false⟩).Run
      (Until (Watched ⟨1, 2, false⟩ ⟨2, false⟩ 0)) silence s ∧
    (s.Working ∧ s.serverEnd = none) ∧
    s.now - s.lastPong ≤ (2 + 1) * second + 0 ∧
    s.now - s.lastPing ≤ (2 + 1) * second + 0 := by
  have hrun : ∃ s, (system ⟨1, 2, false⟩ ⟨2, false⟩).Run
      (Until (Watched ⟨1, 2, false⟩ ⟨2, false⟩ 0)) silence s ∧
      (s.Working ∧ s.serverEnd = none) :=
    System.exists_run_of_replay (by decide)
  obtain ⟨s, hreaches, hworking, hopen⟩ := hrun
  obtain ⟨hclient, hserver⟩ := heard_of_run (Int.le_refl 0) hreaches
  exact ⟨s, hreaches, ⟨hworking, hopen⟩, hclient hworking (by decide),
    hserver hopen (by decide)⟩

end Heartbeat

end Frp

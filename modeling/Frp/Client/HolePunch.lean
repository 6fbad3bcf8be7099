/-
How two clients of xtcp find each other: `XTCPVisitor.handleConn` of
`client/visitor.go`, `XTCPProxy.InWorkConn` of `client/proxy/proxy.go` and the
Controller of frps between them.  All that they send each other before the stream
starts is a sid, over UDP.
-/
import Frp.Server.NatHoleSteps

namespace Frp

open Transition NatHoleReplies

namespace HolePunch

/-- Where a call of `handleConn` is: waiting for its NatHoleResp, with the address
of the client to resolve, waiting for the sid to come back, or with the stream. -/
inductive VisitorPhase (Addr : Type) where
  | asking
  | resolving
  | greeted (daddr : Addr)
  | joined (daddr : Addr)
  | failed
deriving DecidableEq

/-- `addr` is the address of both of its sockets as the others see it; `told` is
`natHoleRespMsg`. -/
structure Visitor (Addr : Type) where
  addr : Addr
  m : NatHoleVisitor
  told : Option NatHoleResp
  phase : VisitorPhase Addr
deriving DecidableEq

/-- Where a call of `InWorkConn` is: waiting for its NatHoleResp, with the address
of the visitor to resolve, after the detect message, and waiting for the sid. -/
inductive OwnerPhase (Addr : Type) where
  | asking
  | resolving
  | detected
  | listening
  | joined (uAddr : Addr)
  | failed
deriving DecidableEq

structure Owner (Addr : Type) where
  addr : Addr
  m : NatHoleClient
  told : Option NatHoleResp
  phase : OwnerPhase Addr
deriving DecidableEq

/-- What one client sends to another. -/
structure Datagram (Addr : Type) where
  src : Addr
  dst : Addr
  content : String
deriving DecidableEq

/-- An owner has the number of its work connection.  `datagrams` are all that have
been sent; `sockets` are the addresses of visitors and owners, `strangers` those
that anybody else has written to frps from. -/
structure State (Addr : Type) where
  controller : NatHoleReplies.State Addr
  visitors : Nat → Option (Visitor Addr)
  owners : Nat → Option (Owner Addr)
  datagrams : List (Datagram Addr)
  sockets : List Addr
  strangers : List Addr

/-- A datagram may arrive late, many times or never.  Of the Controller's steps
those that a client takes part in are actions of their own. -/
inductive Action (Addr : Type) where
  | controller (action : NatHoleReplies.Action Addr)
  | strangerVisitor (i : Nat) (m : NatHoleVisitor) (raddr : Addr) (sid : String)
  | strangerClient (j : Nat) (m : NatHoleClient) (raddr : Addr)
  | stranger (d : Datagram Addr)
  | dial (p : Nat) (addr : Addr) (m : NatHoleVisitor)
  | request (p i : Nat) (sid : String)
  | reply (p n : Nat)
  | greet (p : Nat)
  | ack (p n : Nat)
  | visitorFails (p : Nat)
  | readSid (k : Nat) (addr : Addr) (proxyName : String)
  | hello (k j : Nat)
  | answer (k n : Nat)
  | detect (k : Nat)
  | detectOK (k : Nat) (ok : Bool)
  | accept (k n : Nat)
  | ownerFails (k : Nat)

variable {Addr : Type}

def init (Addr : Type) : State Addr where
  controller := NatHoleReplies.init Addr
  visitors _ := none
  owners _ := none
  datagrams := []
  sockets := []
  strangers := []

namespace State

def setVisitor (s : State Addr) (p : Nat) (v : Visitor Addr) : State Addr :=
  { s with visitors := Function.update s.visitors p (some v) }

def setOwner (s : State Addr) (k : Nat) (o : Owner Addr) : State Addr :=
  { s with owners := Function.update s.owners k (some o) }

def send (s : State Addr) (src dst : Addr) (content : String) : State Addr :=
  { s with datagrams := s.datagrams ++ [⟨src, dst, content⟩] }

end State

section Step

variable [DecidableEq Addr] (md5 : String → List UInt8) (text : Addr → String)
  (resolve : String → Option Addr)

/-- The Controller goes on by itself. -/
def alone : NatHoleReplies.Action Addr → Bool
  | .visitor _ _ _ _ | .client _ _ _ | .answer _ _ | .detectOK _ => false
  | .listenClient _ _ | .closeClient _ | .visitorStep _ | .timeout _
  | .handOver _ _ | .workConn _ _ | .notify _ | .clientStep _ => true

def controllerStep (s : State Addr) (action : NatHoleReplies.Action Addr) :
    Option (State Addr) :=
  (NatHoleReplies.step md5 text s.controller action).map fun c =>
    { s with controller := c }

/-- `natHoleRespMsg` is read. -/
def Visitor.hear (v : Visitor Addr) (resp : NatHoleResp) : Visitor Addr :=
  if resp.error = "" then { v with told := some resp, phase := .resolving }
  else { v with phase := .failed }

/-- The sid is written to the client. -/
def greet (s : State Addr) (p : Nat) (v : Visitor Addr) (resp : NatHoleResp) :
    State Addr :=
  match resolve resp.clientAddr with
  | none => s.setVisitor p { v with phase := .failed }
  | some daddr =>
      (s.setVisitor p { v with phase := .greeted daddr }).send v.addr daddr resp.sid

/-- The first datagram from the client has to be the sid. -/
def Visitor.ack (v : Visitor Addr) (daddr : Addr) (content : String) : Visitor Addr :=
  match v.told with
  | none => v
  | some resp =>
      if content = resp.sid then { v with phase := .joined daddr }
      else { v with phase := .failed }

/-- The NatHoleResp is read; the sid in it goes to the visitor later. -/
def answer (s : State Addr) (k n : Nat) (o : Owner Addr) (resp : NatHoleResp) :
    Option (State Addr) :=
  if resp.error = "" then
    (controllerStep md5 text s (.answer k n)).map fun s =>
      s.setOwner k { o with told := some resp, phase := .resolving }
  else some (s.setOwner k { o with phase := .failed })

/-- `sendDetectMsg`. -/
def detect (s : State Addr) (k : Nat) (o : Owner Addr) (resp : NatHoleResp) :
    State Addr :=
  match resolve resp.visitorAddr with
  | none => s.setOwner k { o with phase := .failed }
  | some daddr =>
      (s.setOwner k { o with phase := .detected }).send o.addr daddr resp.sid

/-- The first datagram from anywhere has to be the sid, which is sent back. -/
def accept (s : State Addr) (k : Nat) (o : Owner Addr) (resp : NatHoleResp)
    (d : Datagram Addr) : State Addr :=
  if d.content = resp.sid then
    (s.setOwner k { o with phase := .joined d.src }).send o.addr d.src resp.sid
  else s.setOwner k { o with phase := .failed }

def step (s : State Addr) : Action Addr → Option (State Addr)
  | .controller action =>
      if alone action then controllerStep md5 text s action else none
  | .strangerVisitor i m raddr sid =>
      controllerStep md5 text { s with strangers := raddr :: s.strangers }
        (.visitor i m raddr sid)
  | .strangerClient j m raddr =>
      controllerStep md5 text { s with strangers := raddr :: s.strangers }
        (.client j m raddr)
  | .stranger d => some { s with datagrams := s.datagrams ++ [d] }
  | .dial p addr m =>
      if (s.visitors p).isNone then
        some ({ s with sockets := addr :: s.sockets }.setVisitor p
          ⟨addr, m, none, .asking⟩)
      else none
  | .request p i sid =>
      (s.visitors p).bind fun v =>
        controllerStep md5 text s (.visitor i v.m v.addr sid)
  | .reply p n =>
      match s.visitors p, s.controller.sent[n]? with
      | some v, some sent =>
          if v.phase = .asking ∧ sent.raddr = v.addr then
            some (s.setVisitor p (v.hear sent.resp))
          else none
      | _, _ => none
  | .greet p =>
      (s.visitors p).bind fun v => v.told.bind fun resp =>
        if v.phase = .resolving then some (greet resolve s p v resp) else none
  | .ack p n =>
      match s.visitors p, s.datagrams[n]? with
      | some v, some d =>
          if v.phase = .greeted d.src ∧ d.dst = v.addr then
            some (s.setVisitor p (v.ack d.src d.content))
          else none
      | _, _ => none
  | .visitorFails p =>
      (s.visitors p).map fun v => s.setVisitor p { v with phase := .failed }
  | .readSid k addr proxyName =>
      match s.owners k, s.controller.works k with
      | none, some work =>
          if work.pc = .sidWritten then
            (s.controller.visitors work.visitor).map fun call =>
              { s with sockets := addr :: s.sockets }.setOwner k
                ⟨addr, ⟨proxyName, call.sid⟩, none, .asking⟩
          else none
      | _, _ => none
  | .hello k j =>
      (s.owners k).bind fun o =>
        controllerStep md5 text s (.client j o.m o.addr)
  | .answer k n =>
      match s.owners k, s.controller.sent[n]? with
      | some o, some sent =>
          if o.phase = .asking ∧ sent.raddr = o.addr then
            answer md5 text s k n o sent.resp
          else none
      | _, _ => none
  | .detect k =>
      (s.owners k).bind fun o => o.told.bind fun resp =>
        if o.phase = .resolving then some (detect resolve s k o resp) else none
  | .detectOK k ok =>
      (s.owners k).bind fun o =>
        if o.phase = .detected then
          let s := s.setOwner k { o with phase := .listening }
          if ok then controllerStep md5 text s (.detectOK k) else some s
        else none
  | .accept k n =>
      match s.owners k, s.datagrams[n]? with
      | some o, some d =>
          if o.phase = .listening ∧ d.dst = o.addr then
            o.told.map fun resp => accept s k o resp d
          else none
      | _, _ => none
  | .ownerFails k =>
      (s.owners k).map fun o => s.setOwner k { o with phase := .failed }

def system : System (State Addr) (Action Addr) where
  start := init Addr
  step := step md5 text resolve

/-- Nobody has guessed the sid. -/
def State.Fresh (s : State Addr) (sid : String) : Prop :=
  sid ∉ s.controller.sids ∧ ∀ d ∈ s.datagrams, d.content ≠ sid

instance (s : State Addr) (sid : String) : Decidable (s.Fresh sid) :=
  inferInstanceAs (Decidable (_ ∧ _))

/-- A socket has an address of its own. -/
def State.Unused (s : State Addr) (addr : Addr) : Prop :=
  addr ∉ s.sockets ∧ addr ∉ s.strangers

instance (s : State Addr) (addr : Addr) : Decidable (s.Unused addr) :=
  inferInstanceAs (Decidable (_ ∧ _))

/-- Only the visitors have the keys of the proxies, and only those who are told a
sid know it. -/
def Assumed (s : State Addr) : Action Addr → Prop
  | .strangerVisitor _ m raddr sid => s.Fresh sid ∧ raddr ∉ s.sockets ∧
      ∀ cfg ∈ s.controller.clientCfgs m.proxyName,
        m.signKey ≠ getAuthKey md5 cfg.sk m.timestamp
  | .strangerClient _ m raddr => raddr ∉ s.sockets ∧ m.sid ∉ s.controller.sids
  | .stranger d => d.content ∉ s.controller.sids
  | .dial _ addr _ | .readSid _ addr _ => s.Unused addr
  | .request _ _ sid => s.Fresh sid
  | _ => True

instance (s : State Addr) (action : Action Addr) :
    Decidable (Assumed md5 s action) :=
  match action with
  | .strangerVisitor _ m raddr sid => inferInstanceAs (Decidable (s.Fresh sid ∧
      raddr ∉ s.sockets ∧ ∀ cfg ∈ s.controller.clientCfgs m.proxyName,
        m.signKey ≠ getAuthKey md5 cfg.sk m.timestamp))
  | .strangerClient _ m raddr =>
      inferInstanceAs (Decidable (raddr ∉ s.sockets ∧ m.sid ∉ s.controller.sids))
  | .stranger d => inferInstanceAs (Decidable (d.content ∉ s.controller.sids))
  | .dial _ addr _ | .readSid _ addr _ => inferInstanceAs (Decidable (s.Unused addr))
  | .request _ _ sid => inferInstanceAs (Decidable (s.Fresh sid))
  | .controller _ | .reply _ _ | .greet _ | .ack _ _ | .visitorFails _ | .hello _ _
  | .answer _ _ | .detect _ | .detectOK _ _ | .accept _ _ | .ownerFails _ =>
      inferInstanceAs (Decidable True)

end Step

section Statement

variable (md5 : String → List UInt8)

namespace State

/-- The visitor and the owner have been told of the same sid: the one asked frps for
the proxy with the right key, the other got it over a work connection of that
proxy. -/
def Session (s : State Addr) (p k : Nat) : Prop :=
  ∃ v o work call, s.visitors p = some v ∧ s.owners k = some o ∧
    s.controller.works k = some work ∧
    s.controller.visitors work.visitor = some call ∧
    call.m = v.m ∧ call.raddr = v.addr ∧ call.Matched md5 ∧
    (∃ cfg ∈ call.clientCfg, cfg.sidCh = work.sidCh) ∧
    o.m.sid = call.sid ∧ ∃ resp ∈ v.told, resp.sid = call.sid

/-- Who has joined is joined with the other end of its session, which has written
the sid to it, and a session has two ends. -/
structure Paired (s : State Addr) : Prop where
  visitor : ∀ p v daddr, s.visitors p = some v → v.phase = .joined daddr →
    ∃ k o, s.owners k = some o ∧ s.Session md5 p k ∧ o.addr = daddr ∧
      ⟨o.addr, v.addr, o.m.sid⟩ ∈ s.datagrams
  owner : ∀ k o uAddr, s.owners k = some o → o.phase = .joined uAddr →
    ∃ p v, s.visitors p = some v ∧ s.Session md5 p k ∧ v.addr = uAddr ∧
      ⟨v.addr, o.addr, o.m.sid⟩ ∈ s.datagrams
  oneOwner : ∀ p k k', s.Session md5 p k → s.Session md5 p k' → k = k'
  oneVisitor : ∀ p p' k, s.Session md5 p k → s.Session md5 p' k → p = p'

end State

end Statement

section Invariant

variable (md5 : String → List UInt8) (text : Addr → String)
  (resolve : String → Option Addr)

namespace State

/-- The owner that serves the call `i` has this address. -/
def Met (s : State Addr) (i : Nat) (addr : Addr) : Prop :=
  ∃ k o work, s.owners k = some o ∧ s.controller.works k = some work ∧
    work.visitor = i ∧ o.addr = addr

/-- No two sockets have one address. -/
structure Addresses (s : State Addr) : Prop where
  visitorSocket : ∀ p v, s.visitors p = some v → v.addr ∈ s.sockets
  ownerSocket : ∀ k o, s.owners k = some o → o.addr ∈ s.sockets
  strangers : ∀ addr ∈ s.strangers, addr ∉ s.sockets
  visitors : ∀ p p' v v', s.visitors p = some v → s.visitors p' = some v' →
    v.addr = v'.addr → p = p'
  owners : ∀ k k' o o', s.owners k = some o → s.owners k' = some o' →
    o.addr = o'.addr → k = k'
  apart : ∀ p k v o, s.visitors p = some v → s.owners k = some o → v.addr ≠ o.addr

/-- A call of `HandleVisitor` is for a visitor, or has not the key. -/
def Asked (s : State Addr) (call : VisitorCall Addr) : Prop :=
  (∃ p v, s.visitors p = some v ∧ v.addr = call.raddr ∧ v.m = call.m) ∨
    call.raddr ∈ s.strangers ∧ ¬ call.Matched md5

/-- A call of `HandleClient` is for an owner, or finds nothing. -/
def Hailed (s : State Addr) (client : ClientCall Addr) : Prop :=
  (∃ k o, s.owners k = some o ∧ o.addr = client.raddr ∧ o.m = client.m) ∨
    client.raddr ∈ s.strangers ∧ client.pc = .returned

structure AtVisitor (s : State Addr) (v : Visitor Addr) : Prop where
  asking : v.phase = .asking → v.told = none
  told : ∀ resp ∈ v.told, ∃ i call, s.controller.visitors i = some call ∧
    call.raddr = v.addr ∧ resp.sid = call.sid ∧
    ∃ addr, s.Met i addr ∧ resp.clientAddr = text addr
  greeted : ∀ daddr, v.phase = .greeted daddr ∨ v.phase = .joined daddr →
    ∃ resp ∈ v.told, resolve resp.clientAddr = some daddr
  joined : ∀ daddr, v.phase = .joined daddr →
    ∃ resp ∈ v.told, ⟨daddr, v.addr, resp.sid⟩ ∈ s.datagrams

structure AtOwner (s : State Addr) (k : Nat) (o : Owner Addr) : Prop where
  asking : o.phase = .asking → o.told = none
  told : ∃ work call, s.controller.works k = some work ∧
    s.controller.visitors work.visitor = some call ∧ call.sid = o.m.sid ∧
    ∀ resp ∈ o.told, resp.sid = o.m.sid ∧ resp.visitorAddr = text call.raddr
  joined : ∀ uAddr, o.phase = .joined uAddr →
    ∃ resp ∈ o.told, ⟨uAddr, o.addr, resp.sid⟩ ∈ s.datagrams

def FromVisitor (s : State Addr) (d : Datagram Addr) : Prop :=
  ∃ p v resp, s.visitors p = some v ∧ resp ∈ v.told ∧ resp.sid = d.content ∧
    v.addr = d.src

def FromOwner (s : State Addr) (d : Datagram Addr) : Prop :=
  ∃ k o resp, s.owners k = some o ∧ resp ∈ o.told ∧ resp.sid = d.content ∧
    o.addr = d.src ∧ ∃ p v, s.visitors p = some v ∧ v.addr = d.dst

/-- Only the two ends write a sid. -/
def AtDatagram (s : State Addr) (d : Datagram Addr) : Prop :=
  d.content ∈ s.controller.sids → s.FromVisitor d ∨ s.FromOwner d

/-- What stays for good: addresses, messages, what an end has been told, which call
a work connection is for.  No sid is new that has been in a datagram. -/
structure Grows (s s' : State Addr) : Prop where
  visitors : ∀ p v, s.visitors p = some v → ∃ v', s'.visitors p = some v' ∧
    v'.addr = v.addr ∧ v'.m = v.m ∧ ∀ resp ∈ v.told, resp ∈ v'.told
  owners : ∀ k o, s.owners k = some o → ∃ o', s'.owners k = some o' ∧
    o'.addr = o.addr ∧ o'.m = o.m ∧ ∀ resp ∈ o.told, resp ∈ o'.told
  calls : ∀ i call, s.controller.visitors i = some call →
    ∃ call', s'.controller.visitors i = some call' ∧ call.Extends call'
  works : ∀ k work, s.controller.works k = some work →
    ∃ work', s'.controller.works k = some work' ∧ work'.visitor = work.visitor
  datagrams : ∀ d ∈ s.datagrams, d ∈ s'.datagrams
  strangers : ∀ addr ∈ s.strangers, addr ∈ s'.strangers
  sids : ∀ d ∈ s.datagrams, d.content ∈ s'.controller.sids →
    d.content ∈ s.controller.sids

end State

structure Inv (s : State Addr) : Prop where
  base : NatHoleReplies.Inv md5 text s.controller
  served : Served md5 text s.Met s.controller
  addresses : s.Addresses
  calls : ∀ i call, s.controller.visitors i = some call → s.Asked md5 call
  clients : ∀ j client, s.controller.clients j = some client → s.Hailed client
  visitors : ∀ p v, s.visitors p = some v → s.AtVisitor text resolve v
  owners : ∀ k o, s.owners k = some o → s.AtOwner text k o
  datagrams : ∀ d ∈ s.datagrams, s.AtDatagram d

variable {md5 text resolve} {s s' : State Addr}

/-- The sockets stay. -/
theorem State.Addresses.of_kept (haddresses : s.Addresses)
    (hvisitors : ∀ p v', s'.visitors p = some v' →
      ∃ v, s.visitors p = some v ∧ v'.addr = v.addr)
    (howners : ∀ k o', s'.owners k = some o' →
      ∃ o, s.owners k = some o ∧ o'.addr = o.addr)
    (hsockets : s'.sockets = s.sockets)
    (hstrangers : ∀ addr ∈ s'.strangers, addr ∉ s.sockets) : s'.Addresses := by
  constructor
  case visitorSocket =>
    intro p v' hvisitor'
    obtain ⟨v, hvisitor, haddr⟩ := hvisitors p v' hvisitor'
    exact haddr ▸ hsockets ▸ haddresses.visitorSocket p v hvisitor
  case ownerSocket =>
    intro k o' howner'
    obtain ⟨o, howner, haddr⟩ := howners k o' howner'
    exact haddr ▸ hsockets ▸ haddresses.ownerSocket k o howner
  case strangers => exact hsockets ▸ hstrangers
  case visitors =>
    intro p₁ p₂ v₁ v₂ hvisitor₁ hvisitor₂ hsame
    obtain ⟨w₁, hold₁, haddr₁⟩ := hvisitors p₁ v₁ hvisitor₁
    obtain ⟨w₂, hold₂, haddr₂⟩ := hvisitors p₂ v₂ hvisitor₂
    exact haddresses.visitors p₁ p₂ w₁ w₂ hold₁ hold₂
      (haddr₁ ▸ haddr₂ ▸ hsame)
  case owners =>
    intro k₁ k₂ o₁ o₂ howner₁ howner₂ hsame
    obtain ⟨w₁, hold₁, haddr₁⟩ := howners k₁ o₁ howner₁
    obtain ⟨w₂, hold₂, haddr₂⟩ := howners k₂ o₂ howner₂
    exact haddresses.owners k₁ k₂ w₁ w₂ hold₁ hold₂ (haddr₁ ▸ haddr₂ ▸ hsame)
  case apart =>
    intro p k v' o' hvisitor' howner'
    obtain ⟨v, hvisitor, haddr⟩ := hvisitors p v' hvisitor'
    obtain ⟨o, howner, haddr'⟩ := howners k o' howner'
    rw [haddr, haddr']
    exact haddresses.apart p k v o hvisitor howner

theorem State.Addresses.ne_visitor (haddresses : s.Addresses) {addr : Addr}
    (hunused : s.Unused addr) {p : Nat} {v : Visitor Addr}
    (hvisitor : s.visitors p = some v) : v.addr ≠ addr :=
  fun heq => hunused.1 (heq ▸ haddresses.visitorSocket p v hvisitor)

theorem State.Addresses.ne_owner (haddresses : s.Addresses) {addr : Addr}
    (hunused : s.Unused addr) {k : Nat} {o : Owner Addr}
    (howner : s.owners k = some o) : o.addr ≠ addr :=
  fun heq => hunused.1 (heq ▸ haddresses.ownerSocket k o howner)

namespace State.Grows

theorem met (hgrows : s.Grows s') {i : Nat} {addr : Addr} (hmet : s.Met i addr) :
    s'.Met i addr := by
  obtain ⟨k, o, work, howner, hwork, hvisitor, haddr⟩ := hmet
  obtain ⟨o', howner', haddr', -⟩ := hgrows.owners k o howner
  obtain ⟨work', hwork', hvisitor'⟩ := hgrows.works k work hwork
  exact ⟨k, o', work', howner', hwork', hvisitor'.trans hvisitor, haddr'.trans haddr⟩

theorem asked (hgrows : s.Grows s') {call call' : VisitorCall Addr}
    (hext : call.Extends call') (hasked : s.Asked md5 call) : s'.Asked md5 call' := by
  obtain ⟨p, v, hvisitor, haddr, hm⟩ | ⟨hstranger, hmatched⟩ := hasked
  · obtain ⟨v', hvisitor', haddr', hm', -⟩ := hgrows.visitors p v hvisitor
    exact .inl ⟨p, v', hvisitor', haddr'.trans (haddr.trans hext.raddr.symm),
      hm'.trans (hm.trans hext.m.symm)⟩
  · exact .inr ⟨hext.raddr ▸ hgrows.strangers _ hstranger,
      fun h => hmatched (hext.matched_iff.mp h)⟩

theorem hailed (hgrows : s.Grows s') {client client' : ClientCall Addr}
    (hext : client.Extends client')
    (hpc : client.pc = .returned → client'.pc = .returned)
    (hhailed : s.Hailed client) : s'.Hailed client' := by
  obtain ⟨k, o, howner, haddr, hm⟩ | ⟨hstranger, hreturned⟩ := hhailed
  · obtain ⟨o', howner', haddr', hm', -⟩ := hgrows.owners k o howner
    exact .inl ⟨k, o', howner', haddr'.trans (haddr.trans hext.raddr.symm),
      hm'.trans (hm.trans hext.m.symm)⟩
  · exact .inr ⟨hext.raddr ▸ hgrows.strangers _ hstranger, hpc hreturned⟩

theorem told (hgrows : s.Grows s') {addr : Addr} {resp : NatHoleResp}
    (htold : ∃ i call, s.controller.visitors i = some call ∧ call.raddr = addr ∧
      resp.sid = call.sid ∧ ∃ daddr, s.Met i daddr ∧ resp.clientAddr = text daddr) :
    ∃ i call, s'.controller.visitors i = some call ∧ call.raddr = addr ∧
      resp.sid = call.sid ∧ ∃ daddr, s'.Met i daddr ∧ resp.clientAddr = text daddr := by
  obtain ⟨i, call, hcall, hraddr, hsid, daddr, hmet, hclient⟩ := htold
  obtain ⟨call', hcall', hext⟩ := hgrows.calls i call hcall
  exact ⟨i, call', hcall', hext.raddr.trans hraddr, hsid.trans hext.sid.symm, daddr,
    hgrows.met hmet, hclient⟩

theorem atVisitor (hgrows : s.Grows s') {v : Visitor Addr}
    (hat : s.AtVisitor text resolve v) : s'.AtVisitor text resolve v where
  asking := hat.asking
  told resp hresp := hgrows.told (hat.told resp hresp)
  greeted := hat.greeted
  joined daddr hphase := by
    obtain ⟨resp, hresp, hmem⟩ := hat.joined daddr hphase
    exact ⟨resp, hresp, hgrows.datagrams _ hmem⟩

theorem atOwner (hgrows : s.Grows s') {k : Nat} {o : Owner Addr}
    (hat : s.AtOwner text k o) : s'.AtOwner text k o where
  asking := hat.asking
  told := by
    obtain ⟨work, call, hwork, hcall, hsid, htold⟩ := hat.told
    obtain ⟨work', hwork', hvisitor⟩ := hgrows.works k work hwork
    obtain ⟨call', hcall', hext⟩ := hgrows.calls _ call hcall
    exact ⟨work', call', hwork', hvisitor ▸ hcall', hext.sid.trans hsid,
      fun resp hresp => hext.raddr ▸ htold resp hresp⟩
  joined uAddr hphase := by
    obtain ⟨resp, hresp, hmem⟩ := hat.joined uAddr hphase
    exact ⟨resp, hresp, hgrows.datagrams _ hmem⟩

theorem fromVisitor (hgrows : s.Grows s') {d : Datagram Addr}
    (hfrom : s.FromVisitor d) : s'.FromVisitor d := by
  obtain ⟨p, v, resp, hvisitor, hresp, hsid, hsrc⟩ := hfrom
  obtain ⟨v', hvisitor', haddr, -, htold⟩ := hgrows.visitors p v hvisitor
  exact ⟨p, v', resp, hvisitor', htold resp hresp, hsid, haddr.trans hsrc⟩

theorem fromOwner (hgrows : s.Grows s') {d : Datagram Addr}
    (hfrom : s.FromOwner d) : s'.FromOwner d := by
  obtain ⟨k, o, resp, howner, hresp, hsid, hsrc, p, v, hvisitor, hdst⟩ := hfrom
  obtain ⟨o', howner', haddr, -, htold⟩ := hgrows.owners k o howner
  obtain ⟨v', hvisitor', haddr', -⟩ := hgrows.visitors p v hvisitor
  exact ⟨k, o', resp, howner', htold resp hresp, hsid, haddr.trans hsrc,
    p, v', hvisitor', haddr'.trans hdst⟩

theorem atDatagram (hgrows : s.Grows s') {d : Datagram Addr} (hmem : d ∈ s.datagrams)
    (hat : s.AtDatagram d) : s'.AtDatagram d := by
  intro hcontent
  obtain hfrom | hfrom := hat (hgrows.sids d hmem hcontent)
  · exact .inl (hgrows.fromVisitor hfrom)
  · exact .inr (hgrows.fromOwner hfrom)

end State.Grows

namespace Inv

theorem of_grows (hinv : Inv md5 text resolve s) (hgrows : s.Grows s')
    (hbase : NatHoleReplies.Inv md5 text s'.controller)
    (hserved : Served md5 text s'.Met s'.controller) (haddresses : s'.Addresses)
    (hcalls : ∀ i call', s'.controller.visitors i = some call' →
      (∃ call, s.controller.visitors i = some call ∧ call.Extends call') ∨
        s'.Asked md5 call')
    (hclients : ∀ j client', s'.controller.clients j = some client' →
      (∃ client, s.controller.clients j = some client ∧ client.Extends client' ∧
        (client.pc = .returned → client'.pc = .returned)) ∨ s'.Hailed client')
    (hvisitors : ∀ p v, s'.visitors p = some v →
      s.visitors p = some v ∨ s'.AtVisitor text resolve v)
    (howners : ∀ k o, s'.owners k = some o →
      s.owners k = some o ∨ s'.AtOwner text k o)
    (hdatagrams : ∀ d ∈ s'.datagrams, d ∈ s.datagrams ∨ s'.AtDatagram d) :
    Inv md5 text resolve s' where
  base := hbase
  served := hserved
  addresses := haddresses
  calls i call' hcall' := by
    obtain ⟨call, hcall, hext⟩ | hasked := hcalls i call' hcall'
    · exact hgrows.asked hext (hinv.calls i call hcall)
    · exact hasked
  clients j client' hclient' := by
    obtain ⟨client, hclient, hext, hpc⟩ | hhailed := hclients j client' hclient'
    · exact hgrows.hailed hext hpc (hinv.clients j client hclient)
    · exact hhailed
  visitors p v hvisitor := by
    obtain hold | hat := hvisitors p v hvisitor
    · exact hgrows.atVisitor (hinv.visitors p v hold)
    · exact hat
  owners k o howner := by
    obtain hold | hat := howners k o howner
    · exact hgrows.atOwner (hinv.owners k o hold)
    · exact hat
  datagrams d hmem := by
    obtain hold | hat := hdatagrams d hmem
    · exact hgrows.atDatagram hold (hinv.datagrams d hold)
    · exact hat

/-- The session that a call of `HandleClient` has found is that of its owner. -/
theorem met_found (hinv : Inv md5 text resolve s) {j i : Nat}
    {client : ClientCall Addr} (hclient : s.controller.clients j = some client)
    (hpc : client.pc = .found i) : s.Met i client.raddr := by
  have hat := hinv.base.atClient j client hclient
  simp only [State.AtClient, hpc] at hat
  obtain ⟨call, hcall, hsid, -⟩ := hat
  obtain ⟨k, o, howner, haddr, hm⟩ | ⟨-, hreturned⟩ := hinv.clients j client hclient
  · obtain ⟨work, call', hwork, hcall', hsid', -⟩ := (hinv.owners k o howner).told
    have hsame : work.visitor = i := by
      refine hinv.base.distinct _ _ call' call hcall' hcall ?_
      rw [hsid', hm, hsid]
    exact ⟨k, o, work, howner, hwork, hsame, haddr⟩
  · simp [hpc] at hreturned

theorem controllerStep (hinv : Inv md5 text resolve s)
    (action : NatHoleReplies.Action Addr) {c' : NatHoleReplies.State Addr}
    (hassumed : NatHoleReplies.Assumed s.controller action)
    (hstep : NatHoleReplies.step md5 text s.controller action = some c')
    (hvisitor : ∀ i m raddr sid, action = .visitor i m raddr sid → s.Fresh sid ∧
      ∀ call, Begins md5 s.controller m raddr sid call → s.Asked md5 call)
    (hclient : ∀ j m raddr, action = .client j m raddr →
      ∀ client, Enters s.controller m raddr client → s.Hailed client) :
    Inv md5 text resolve { s with controller := c' } := by
  have hdoes := does_of_step hstep
  have hgrows : s.Grows { s with controller := c' } := by
    constructor
    case visitors => exact fun p v h => ⟨v, h, rfl, rfl, fun _ h => h⟩
    case owners => exact fun k o h => ⟨o, h, rfl, rfl, fun _ h => h⟩
    case calls =>
      intro i call hcall
      obtain ⟨call', hcall', hmoves⟩ := hdoes.moves_kept hcall
      exact ⟨call', hcall', hmoves.ext⟩
    case works => exact fun k work hwork => hdoes.work_kept hwork
    case datagrams => exact fun d h => h
    case strangers => exact fun addr h => h
    case sids =>
      intro d hmem hcontent
      obtain hsame | ⟨i, m, raddr, sid, hact, hsids⟩ := hdoes.sids
      · exact hsame ▸ hcontent
      · rw [hsids, List.mem_cons] at hcontent
        obtain heq | hold := hcontent
        · exact absurd heq ((hvisitor i m raddr sid hact).1.2 d hmem)
        · exact hold
  have haddresses : State.Addresses { s with controller := c' } :=
    hinv.addresses.of_kept (fun p v h => ⟨v, h, rfl⟩) (fun k o h => ⟨o, h, rfl⟩) rfl
      hinv.addresses.strangers
  refine hinv.of_grows hgrows (hinv.base.step hassumed hstep) ?_ haddresses
    ?_ ?_ (fun _ _ h => .inl h) (fun _ _ h => .inl h) (fun _ h => .inl h)
  · exact (hinv.served.step hinv.base
      (fun j client i hclient hpc => hinv.met_found hclient hpc) hdoes).mono
      fun i addr => hgrows.met
  · intro i call' hcall'
    obtain ⟨call, hcall, hmoves⟩ | ⟨m, raddr, sid, hact, -, hbegins⟩ :=
      hdoes.visitors i call' hcall'
    · exact .inl ⟨call, hcall, hmoves.ext⟩
    · exact .inr ((hvisitor i m raddr sid hact).2 call' hbegins)
  · intro j client' hclient'
    obtain hold | ⟨m, raddr, hact, henters⟩ := hdoes.clients j client' hclient'
    · exact .inl hold
    · exact .inr (hclient j m raddr hact client' henters)

/-- Nothing happens at the Controller. -/
theorem of_same (hinv : Inv md5 text resolve s) (hgrows : s.Grows s')
    (hcontroller : s'.controller = s.controller) (haddresses : s'.Addresses)
    (hvisitors : ∀ p v, s'.visitors p = some v →
      s.visitors p = some v ∨ s'.AtVisitor text resolve v)
    (howners : ∀ k o, s'.owners k = some o →
      s.owners k = some o ∨ s'.AtOwner text k o)
    (hdatagrams : ∀ d ∈ s'.datagrams, d ∈ s.datagrams ∨ s'.AtDatagram d) :
    Inv md5 text resolve s' := by
  refine hinv.of_grows hgrows (hcontroller ▸ hinv.base) ?_ haddresses ?_ ?_ hvisitors
    howners hdatagrams
  · exact hcontroller ▸ hinv.served.mono fun i addr => hgrows.met
  · exact fun i call h => .inl ⟨call, hcontroller ▸ h, .rfl call⟩
  · exact fun j client h => .inl ⟨client, hcontroller ▸ h, .rfl client, id⟩

/-- A visitor is new, or goes on. -/
theorem of_visitor (hinv : Inv md5 text resolve s) {p : Nat} {new : Visitor Addr}
    (sockets : List Addr)
    (hkept : ∀ old, s.visitors p = some old → new.addr = old.addr ∧ new.m = old.m ∧
      ∀ resp ∈ old.told, resp ∈ new.told)
    (haddresses : State.Addresses ({ s with sockets := sockets }.setVisitor p new))
    (hat : s.AtVisitor text resolve new) :
    Inv md5 text resolve ({ s with sockets := sockets }.setVisitor p new) := by
  have hgrows : s.Grows ({ s with sockets := sockets }.setVisitor p new) := by
    refine ⟨fun p' v hvisitor => ?_, fun k o h => ⟨o, h, rfl, rfl, fun _ h => h⟩,
      fun i call h => ⟨call, h, .rfl call⟩, fun k work h => ⟨work, h, rfl⟩,
      fun _ h => h, fun _ h => h, fun _ _ h => h⟩
    by_cases hp : p' = p
    · subst hp
      exact ⟨new, Function.update_self .., hkept v hvisitor⟩
    · exact ⟨v, (Function.update_of_ne hp ..).trans hvisitor, rfl, rfl, fun _ h => h⟩
  refine hinv.of_same hgrows rfl haddresses ?_ (fun _ _ h => .inl h)
    (fun _ h => .inl h)
  intro p' v hvisitor
  obtain ⟨rfl, rfl⟩ | hsame := update_eq_some hvisitor
  · exact .inr (hgrows.atVisitor hat)
  · exact .inl hsame

theorem setVisitor (hinv : Inv md5 text resolve s) {p : Nat} {old new : Visitor Addr}
    (hold : s.visitors p = some old) (haddr : new.addr = old.addr)
    (hm : new.m = old.m) (htold : ∀ resp ∈ old.told, resp ∈ new.told)
    (hat : s.AtVisitor text resolve new) :
    Inv md5 text resolve (s.setVisitor p new) := by
  refine hinv.of_visitor s.sockets ?_ ?_ hat
  · intro old' hold'
    rw [hold, Option.some.injEq] at hold'
    exact hold' ▸ ⟨haddr, hm, htold⟩
  · refine hinv.addresses.of_kept ?_ (fun k o h => ⟨o, h, rfl⟩) rfl
      hinv.addresses.strangers
    intro p' v hvisitor
    obtain ⟨rfl, rfl⟩ | hsame := update_eq_some hvisitor
    · exact ⟨old, hold, haddr⟩
    · exact ⟨v, hsame, rfl⟩

/-- An owner is new, or goes on. -/
theorem of_owner (hinv : Inv md5 text resolve s) {k : Nat} {new : Owner Addr}
    (sockets : List Addr)
    (hkept : ∀ old, s.owners k = some old → new.addr = old.addr ∧ new.m = old.m ∧
      ∀ resp ∈ old.told, resp ∈ new.told)
    (haddresses : State.Addresses ({ s with sockets := sockets }.setOwner k new))
    (hat : s.AtOwner text k new) :
    Inv md5 text resolve ({ s with sockets := sockets }.setOwner k new) := by
  have hgrows : s.Grows ({ s with sockets := sockets }.setOwner k new) := by
    refine ⟨fun p v h => ⟨v, h, rfl, rfl, fun _ h => h⟩, fun k' o howner => ?_,
      fun i call h => ⟨call, h, .rfl call⟩, fun k work h => ⟨work, h, rfl⟩,
      fun _ h => h, fun _ h => h, fun _ _ h => h⟩
    by_cases hk : k' = k
    · subst hk
      exact ⟨new, Function.update_self .., hkept o howner⟩
    · exact ⟨o, (Function.update_of_ne hk ..).trans howner, rfl, rfl, fun _ h => h⟩
  refine hinv.of_same hgrows rfl haddresses (fun _ _ h => .inl h) ?_
    (fun _ h => .inl h)
  intro k' o howner
  obtain ⟨rfl, rfl⟩ | hsame := update_eq_some howner
  · exact .inr (hgrows.atOwner hat)
  · exact .inl hsame

theorem setOwner (hinv : Inv md5 text resolve s) {k : Nat} {old new : Owner Addr}
    (hold : s.owners k = some old) (haddr : new.addr = old.addr)
    (hm : new.m = old.m) (htold : ∀ resp ∈ old.told, resp ∈ new.told)
    (hat : s.AtOwner text k new) : Inv md5 text resolve (s.setOwner k new) := by
  refine hinv.of_owner s.sockets ?_ ?_ hat
  · intro old' hold'
    rw [hold, Option.some.injEq] at hold'
    exact hold' ▸ ⟨haddr, hm, htold⟩
  · refine hinv.addresses.of_kept (fun p v h => ⟨v, h, rfl⟩) ?_ rfl
      hinv.addresses.strangers
    intro k' o howner
    obtain ⟨rfl, rfl⟩ | hsame := update_eq_some howner
    · exact ⟨old, hold, haddr⟩
    · exact ⟨o, hsame, rfl⟩

theorem send (hinv : Inv md5 text resolve s) {d : Datagram Addr}
    (hat : s.AtDatagram d) :
    Inv md5 text resolve { s with datagrams := s.datagrams ++ [d] } := by
  have hgrows : s.Grows { s with datagrams := s.datagrams ++ [d] } :=
    ⟨fun p v h => ⟨v, h, rfl, rfl, fun _ h => h⟩,
      fun k o h => ⟨o, h, rfl, rfl, fun _ h => h⟩,
      fun i call h => ⟨call, h, .rfl call⟩, fun k work h => ⟨work, h, rfl⟩,
      fun _ h => List.mem_append_left _ h, fun _ h => h, fun _ _ h => h⟩
  have haddresses : State.Addresses { s with datagrams := s.datagrams ++ [d] } :=
    hinv.addresses.of_kept (fun p v h => ⟨v, h, rfl⟩) (fun k o h => ⟨o, h, rfl⟩) rfl
      hinv.addresses.strangers
  refine hinv.of_same hgrows rfl haddresses (fun _ _ h => .inl h)
    (fun _ _ h => .inl h) fun d' hmem => ?_
  obtain hmem | hmem := List.mem_append.mp hmem
  · exact .inl hmem
  · obtain rfl := List.mem_singleton.mp hmem
    exact .inr hat

theorem addStranger (hinv : Inv md5 text resolve s) {raddr : Addr}
    (hraddr : raddr ∉ s.sockets) :
    Inv md5 text resolve { s with strangers := raddr :: s.strangers } := by
  have hgrows : s.Grows { s with strangers := raddr :: s.strangers } :=
    ⟨fun p v h => ⟨v, h, rfl, rfl, fun _ h => h⟩,
      fun k o h => ⟨o, h, rfl, rfl, fun _ h => h⟩,
      fun i call h => ⟨call, h, .rfl call⟩, fun k work h => ⟨work, h, rfl⟩,
      fun _ h => h, fun _ h => List.mem_cons_of_mem _ h, fun _ _ h => h⟩
  refine hinv.of_same hgrows rfl ?_ (fun _ _ h => .inl h) (fun _ _ h => .inl h)
    fun _ h => .inl h
  refine hinv.addresses.of_kept (fun p v h => ⟨v, h, rfl⟩) (fun k o h => ⟨o, h, rfl⟩)
    rfl fun addr hmem => ?_
  obtain rfl | hmem := List.mem_cons.mp hmem
  · exact hraddr
  · exact hinv.addresses.strangers addr hmem

theorem init : Inv md5 text resolve (init Addr) := by
  constructor
  case base => exact .init
  case served => exact .init
  case addresses => constructor <;> simp [HolePunch.init]
  all_goals simp [HolePunch.init, NatHoleReplies.init]

/-- A call that is served is for a visitor. -/
theorem visitor_of_work (hinv : Inv md5 text resolve s) {k : Nat} {work : Work}
    {call : VisitorCall Addr} (hwork : s.controller.works k = some work)
    (hcall : s.controller.visitors work.visitor = some call) :
    call.Matched md5 ∧ (∃ cfg ∈ call.clientCfg, cfg.sidCh = work.sidCh) ∧
      ∃ p v, s.visitors p = some v ∧ v.addr = call.raddr ∧ v.m = call.m := by
  obtain ⟨call', hcall', -, hmatched, hcfg⟩ := hinv.served.works k work hwork
  rw [hcall, Option.some.injEq] at hcall'
  subst hcall'
  refine ⟨hmatched, hcfg, ?_⟩
  obtain hvisitor | ⟨-, hnot⟩ := hinv.calls _ call hcall
  · exact hvisitor
  · exact absurd hmatched hnot

/-- A response that comes to a visitor is for its request. -/
theorem visitor_reply (hinv : Inv md5 text resolve s) {p : Nat} {v : Visitor Addr}
    {sent : Sent Addr} (hvisitor : s.visitors p = some v)
    (hmem : sent ∈ s.controller.sent) (hraddr : sent.raddr = v.addr)
    (herror : sent.resp.error = "") :
    ∃ i call, s.controller.visitors i = some call ∧ call.raddr = v.addr ∧
      sent.resp.sid = call.sid ∧
      ∃ addr, s.Met i addr ∧ sent.resp.clientAddr = text addr := by
  have hreply := (hinv.base.sent sent hmem).2
  cases hreceiver : sent.receiver with
  | visitor i =>
      rw [hreceiver] at hreply
      obtain ⟨call, hcall, haddr, hsid, -⟩ := hreply herror
      exact ⟨i, call, hcall, haddr.symm.trans hraddr, hsid,
        hinv.served.sent sent hmem i hreceiver herror⟩
  | client j =>
      rw [hreceiver] at hreply
      obtain ⟨client, -, -, hclient, -, haddr, -⟩ := hreply
      have hsame : client.raddr = v.addr := haddr.symm.trans hraddr
      obtain ⟨k, o, howner, hat, -⟩ | ⟨hstranger, -⟩ := hinv.clients j client hclient
      · exact absurd (hat.trans hsame).symm
          (hinv.addresses.apart p k v o hvisitor howner)
      · exact absurd (hsame ▸ hinv.addresses.visitorSocket p v hvisitor)
          (hinv.addresses.strangers _ hstranger)

/-- A response that comes to an owner is for its request. -/
theorem owner_reply (hinv : Inv md5 text resolve s) {k : Nat} {o : Owner Addr}
    {sent : Sent Addr} (howner : s.owners k = some o)
    (hmem : sent ∈ s.controller.sent) (hraddr : sent.raddr = o.addr)
    (herror : sent.resp.error = "") {work : Work} {call : VisitorCall Addr}
    (hwork : s.controller.works k = some work)
    (hcall : s.controller.visitors work.visitor = some call) :
    sent.resp.sid = o.m.sid ∧ call.sid = o.m.sid ∧
      sent.resp.visitorAddr = text call.raddr := by
  have hown : call.sid = o.m.sid := by
    obtain ⟨work', call', hwork', hcall', hsid, -⟩ := (hinv.owners k o howner).told
    rw [hwork, Option.some.injEq] at hwork'
    subst hwork'
    rw [hcall, Option.some.injEq] at hcall'
    exact hcall' ▸ hsid
  have hreply := (hinv.base.sent sent hmem).2
  cases hreceiver : sent.receiver with
  | visitor i =>
      rw [hreceiver] at hreply
      obtain ⟨other, hother, haddr, -⟩ := hreply herror
      have hsame : other.raddr = o.addr := haddr.symm.trans hraddr
      obtain ⟨p, v, hvisitor, hat, -⟩ | ⟨hstranger, -⟩ := hinv.calls i other hother
      · exact absurd (hat.trans hsame)
          (hinv.addresses.apart p k v o hvisitor howner)
      · exact absurd (hsame ▸ hinv.addresses.ownerSocket k o howner)
          (hinv.addresses.strangers _ hstranger)
  | client j =>
      rw [hreceiver] at hreply
      obtain ⟨client, i, other, hclient, hother, haddr, hnamed, -, hsid, hvisitor⟩ :=
        hreply
      have hsame : client.raddr = o.addr := haddr.symm.trans hraddr
      obtain ⟨k', o', howner', hat, hm⟩ | ⟨hstranger, -⟩ :=
        hinv.clients j client hclient
      · have hk : k' = k :=
          hinv.addresses.owners k' k o' o howner' howner (hat.trans hsame)
        subst hk
        rw [howner, Option.some.injEq] at howner'
        subst howner'
        have hone : i = work.visitor := by
          refine hinv.base.distinct _ _ other call hother hcall ?_
          rw [hnamed, ← hm, hown]
        subst hone
        rw [hcall, Option.some.injEq] at hother
        subst hother
        exact ⟨hsid.trans hown, hown, hvisitor⟩
      · exact absurd (hsame ▸ hinv.addresses.ownerSocket k o howner)
          (hinv.addresses.strangers _ hstranger)

/-- A datagram with a sid that comes to an owner is from a visitor. -/
theorem fromVisitor_of_owner (hinv : Inv md5 text resolve s) {k : Nat}
    {o : Owner Addr} {d : Datagram Addr} (howner : s.owners k = some o)
    (hmem : d ∈ s.datagrams) (hdst : d.dst = o.addr)
    (hcontent : d.content ∈ s.controller.sids) : s.FromVisitor d := by
  obtain hfrom | ⟨_, _, _, -, -, -, -, p, v, hvisitor, haddr⟩ :=
    hinv.datagrams d hmem hcontent
  · exact hfrom
  · exact absurd (haddr.trans hdst) (hinv.addresses.apart p k v o hvisitor howner)

/-- A visitor gives up. -/
theorem failVisitor (hinv : Inv md5 text resolve s) {p : Nat} {v : Visitor Addr}
    (hvisitor : s.visitors p = some v) :
    Inv md5 text resolve (s.setVisitor p { v with phase := .failed }) := by
  have hat := hinv.visitors p v hvisitor
  refine hinv.setVisitor hvisitor rfl rfl (fun _ h => h) ?_
  exact ⟨by simp, hat.told, by simp, by simp⟩

theorem failOwner (hinv : Inv md5 text resolve s) {k : Nat} {o : Owner Addr}
    (howner : s.owners k = some o) :
    Inv md5 text resolve (s.setOwner k { o with phase := .failed }) := by
  have hat := hinv.owners k o howner
  refine hinv.setOwner howner rfl rfl (fun _ h => h) ?_
  exact ⟨by simp, hat.told, by simp⟩

theorem hear (hinv : Inv md5 text resolve s) {p : Nat} {v : Visitor Addr}
    {sent : Sent Addr} (hvisitor : s.visitors p = some v)
    (hmem : sent ∈ s.controller.sent) (hphase : v.phase = .asking)
    (hraddr : sent.raddr = v.addr) :
    Inv md5 text resolve (s.setVisitor p (v.hear sent.resp)) := by
  have hat := hinv.visitors p v hvisitor
  unfold Visitor.hear
  split
  case isTrue herror =>
    have hreply := hinv.visitor_reply hvisitor hmem hraddr herror
    refine hinv.setVisitor hvisitor rfl rfl (by simp [hat.asking hphase]) ?_
    refine ⟨by simp, ?_, by simp, by simp⟩
    rintro resp hresp
    obtain rfl := Option.mem_some_iff.mp hresp
    exact hreply
  case isFalse => exact hinv.failVisitor hvisitor

theorem greet (hinv : Inv md5 text resolve s) {p : Nat} {v : Visitor Addr}
    {resp : NatHoleResp} (hvisitor : s.visitors p = some v)
    (htold : v.told = some resp) :
    Inv md5 text resolve (greet resolve s p v resp) := by
  have hat := hinv.visitors p v hvisitor
  unfold HolePunch.greet
  cases hresolve : resolve resp.clientAddr with
  | none => exact hinv.failVisitor hvisitor
  | some daddr =>
      have hgreeted : Inv md5 text resolve
          (s.setVisitor p { v with phase := .greeted daddr }) := by
        refine hinv.setVisitor hvisitor rfl rfl (fun _ h => h) ?_
        refine ⟨by simp, hat.told, fun addr h => ?_, by simp⟩
        obtain rfl : daddr = addr := by simpa using h
        exact ⟨resp, htold, hresolve⟩
      refine hgreeted.send fun _ => .inl ?_
      exact ⟨p, _, resp, Function.update_self .., htold, rfl, rfl⟩

theorem ack (hinv : Inv md5 text resolve s) {p : Nat} {v : Visitor Addr}
    {d : Datagram Addr} (hvisitor : s.visitors p = some v) (hmem : d ∈ s.datagrams)
    (hphase : v.phase = .greeted d.src) (hdst : d.dst = v.addr) :
    Inv md5 text resolve (s.setVisitor p (v.ack d.src d.content)) := by
  have hat := hinv.visitors p v hvisitor
  unfold Visitor.ack
  split
  · exact hinv.setVisitor hvisitor rfl rfl (fun _ h => h) hat
  · next resp htold =>
      split
      case isTrue hcontent =>
        refine hinv.setVisitor hvisitor rfl rfl (fun _ h => h) ?_
        refine ⟨by simp, hat.told, fun addr h => ?_, fun addr h => ?_⟩
        · obtain rfl : d.src = addr := by simpa using h
          exact hat.greeted d.src (.inl hphase)
        · obtain rfl : d.src = addr := by simpa using h
          exact ⟨resp, htold, hdst ▸ hcontent ▸ hmem⟩
      case isFalse => exact hinv.failVisitor hvisitor

theorem dial (hinv : Inv md5 text resolve s) {p : Nat} {addr : Addr}
    {m : NatHoleVisitor} (hnew : s.visitors p = none) (hunused : s.Unused addr) :
    Inv md5 text resolve ({ s with sockets := addr :: s.sockets }.setVisitor p
      ⟨addr, m, none, .asking⟩) := by
  have haddresses := hinv.addresses
  refine hinv.of_visitor _ (by simp [hnew]) ?_
    ⟨fun _ => rfl, by simp, by simp, by simp⟩
  constructor
  case visitorSocket =>
    intro p' v h
    obtain ⟨rfl, rfl⟩ | h := update_eq_some h
    · exact List.mem_cons_self
    · exact List.mem_cons_of_mem _ (haddresses.visitorSocket p' v h)
  case ownerSocket =>
    exact fun k o h => List.mem_cons_of_mem _ (haddresses.ownerSocket k o h)
  case strangers =>
    intro raddr hstranger hmem
    obtain rfl | hmem := List.mem_cons.mp hmem
    · exact hunused.2 hstranger
    · exact haddresses.strangers raddr hstranger hmem
  case visitors =>
    intro p₁ p₂ v₁ v₂ h₁ h₂ hsame
    obtain ⟨rfl, rfl⟩ | hold₁ := update_eq_some h₁ <;>
      obtain ⟨rfl, rfl⟩ | hold₂ := update_eq_some h₂
    · rfl
    · exact absurd hsame.symm (haddresses.ne_visitor hunused hold₂)
    · exact absurd hsame (haddresses.ne_visitor hunused hold₁)
    · exact haddresses.visitors p₁ p₂ v₁ v₂ hold₁ hold₂ hsame
  case owners => exact haddresses.owners
  case apart =>
    intro p' k v o h howner
    obtain ⟨rfl, rfl⟩ | h := update_eq_some h
    · exact (haddresses.ne_owner hunused howner).symm
    · exact haddresses.apart p' k v o h howner

theorem readSid (hinv : Inv md5 text resolve s) {k : Nat} {addr : Addr}
    {proxyName : String} {work : Work} {call : VisitorCall Addr}
    (hnew : s.owners k = none) (hunused : s.Unused addr)
    (hwork : s.controller.works k = some work)
    (hcall : s.controller.visitors work.visitor = some call) :
    Inv md5 text resolve ({ s with sockets := addr :: s.sockets }.setOwner k
      ⟨addr, ⟨proxyName, call.sid⟩, none, .asking⟩) := by
  have haddresses := hinv.addresses
  refine hinv.of_owner _ (by simp [hnew]) ?_
    ⟨fun _ => rfl, ⟨work, call, hwork, hcall, rfl, by simp⟩, by simp⟩
  constructor
  case visitorSocket =>
    exact fun p v h => List.mem_cons_of_mem _ (haddresses.visitorSocket p v h)
  case ownerSocket =>
    intro k' o h
    obtain ⟨rfl, rfl⟩ | h := update_eq_some h
    · exact List.mem_cons_self
    · exact List.mem_cons_of_mem _ (haddresses.ownerSocket k' o h)
  case strangers =>
    intro raddr hstranger hmem
    obtain rfl | hmem := List.mem_cons.mp hmem
    · exact hunused.2 hstranger
    · exact haddresses.strangers raddr hstranger hmem
  case visitors => exact haddresses.visitors
  case owners =>
    intro k₁ k₂ o₁ o₂ h₁ h₂ hsame
    obtain ⟨rfl, rfl⟩ | hold₁ := update_eq_some h₁ <;>
      obtain ⟨rfl, rfl⟩ | hold₂ := update_eq_some h₂
    · rfl
    · exact absurd hsame.symm (haddresses.ne_owner hunused hold₂)
    · exact absurd hsame (haddresses.ne_owner hunused hold₁)
    · exact haddresses.owners k₁ k₂ o₁ o₂ hold₁ hold₂ hsame
  case apart =>
    intro p k' v o hvisitor h
    obtain ⟨rfl, rfl⟩ | h := update_eq_some h
    · exact haddresses.ne_visitor hunused hvisitor
    · exact haddresses.apart p k' v o hvisitor h

/-- The Controller takes a request of a visitor or of somebody without the key. -/
theorem visitorCall (hinv : Inv md5 text resolve s) {i : Nat} {m : NatHoleVisitor}
    {raddr : Addr} {sid : String} (hfresh : s.Fresh sid)
    (hasked : ∀ call, Begins md5 s.controller m raddr sid call → s.Asked md5 call)
    (hstep : HolePunch.controllerStep md5 text s (.visitor i m raddr sid) = some s') :
    Inv md5 text resolve s' := by
  obtain ⟨c', hnext, rfl⟩ := Option.map_eq_some_iff.mp hstep
  refine hinv.controllerStep (.visitor i m raddr sid) hfresh.1 hnext ?_ (by simp)
  rintro _ _ _ _ hact
  obtain ⟨rfl, rfl, rfl, rfl⟩ := NatHoleReplies.Action.visitor.inj hact
  exact ⟨hfresh, hasked⟩

theorem clientCall (hinv : Inv md5 text resolve s) {j : Nat} {m : NatHoleClient}
    {raddr : Addr}
    (hhailed : ∀ client, Enters s.controller m raddr client → s.Hailed client)
    (hstep : HolePunch.controllerStep md5 text s (.client j m raddr) = some s') :
    Inv md5 text resolve s' := by
  obtain ⟨c', hnext, rfl⟩ := Option.map_eq_some_iff.mp hstep
  refine hinv.controllerStep (.client j m raddr) trivial hnext (by simp) ?_
  rintro _ _ _ hact
  obtain ⟨rfl, rfl, rfl⟩ := NatHoleReplies.Action.client.inj hact
  exact hhailed

theorem strangerVisitor (hinv : Inv md5 text resolve s) {i : Nat}
    {m : NatHoleVisitor} {raddr : Addr} {sid : String} (hfresh : s.Fresh sid)
    (hraddr : raddr ∉ s.sockets)
    (hkey : ∀ cfg ∈ s.controller.clientCfgs m.proxyName,
      m.signKey ≠ getAuthKey md5 cfg.sk m.timestamp)
    (hstep : HolePunch.controllerStep md5 text
      { s with strangers := raddr :: s.strangers } (.visitor i m raddr sid) =
        some s') : Inv md5 text resolve s' := by
  refine (hinv.addStranger hraddr).visitorCall hfresh (fun call hbegins => ?_) hstep
  refine .inr ⟨hbegins.raddr ▸ List.mem_cons_self, ?_⟩
  rintro ⟨cfg, hcfg, -, hsign⟩
  rw [hbegins.clientCfg] at hcfg
  rw [hbegins.m] at hsign
  exact hkey cfg hcfg hsign

theorem strangerClient (hinv : Inv md5 text resolve s) {j : Nat}
    {m : NatHoleClient} {raddr : Addr} (hraddr : raddr ∉ s.sockets)
    (hsid : m.sid ∉ s.controller.sids)
    (hstep : HolePunch.controllerStep md5 text
      { s with strangers := raddr :: s.strangers } (.client j m raddr) = some s') :
    Inv md5 text resolve s' := by
  refine (hinv.addStranger hraddr).clientCall (fun client henters => ?_) hstep
  refine .inr ⟨henters.raddr ▸ List.mem_cons_self, henters.pc ?_⟩
  cases hsession : s.controller.sessions m.sid with
  | none => rfl
  | some i =>
      obtain ⟨call, hcall, heq, -⟩ := (hinv.base.sessions m.sid i).mp hsession
      exact absurd (heq ▸ hinv.base.generated i call hcall) hsid

theorem answer (hinv : Inv md5 text resolve s) {k n : Nat} {o : Owner Addr}
    {sent : Sent Addr} (howner : s.owners k = some o)
    (hsent : s.controller.sent[n]? = some sent) (hphase : o.phase = .asking)
    (hraddr : sent.raddr = o.addr)
    (hstep : answer md5 text s k n o sent.resp = some s') :
    Inv md5 text resolve s' := by
  have hat := hinv.owners k o howner
  obtain ⟨work, call, hwork, hcall, hsid, -⟩ := hat.told
  have hmem := List.mem_of_getElem? hsent
  unfold HolePunch.answer at hstep
  split at hstep
  case isTrue herror =>
    obtain ⟨hresp, -, hvisitor⟩ :=
      hinv.owner_reply howner hmem hraddr herror hwork hcall
    have htold : Inv md5 text resolve (s.setOwner k
        { o with told := some sent.resp, phase := .resolving }) := by
      refine hinv.setOwner howner rfl rfl (by simp [hat.asking hphase]) ?_
      refine ⟨by simp, ⟨work, call, hwork, hcall, hsid, ?_⟩, by simp⟩
      rintro resp hmem'
      obtain rfl := Option.mem_some_iff.mp hmem'
      exact ⟨hresp, hvisitor⟩
    obtain ⟨s₁, hs₁, rfl⟩ := Option.map_eq_some_iff.mp hstep
    obtain ⟨c', hnext, rfl⟩ := Option.map_eq_some_iff.mp hs₁
    refine htold.controllerStep (.answer k n) ?_ hnext (by simp) (by simp)
    -- the response is for the sid that came over the work connection
    intro work' hwork' call' hcall' sent' hsent'
    obtain rfl := Option.some.inj (hwork.symm.trans hwork')
    obtain rfl := Option.some.inj (hcall.symm.trans hcall')
    obtain rfl := Option.some.inj (hsent.symm.trans hsent')
    exact hresp.trans hsid.symm
  case isFalse =>
    obtain rfl := Option.some.inj hstep
    exact hinv.failOwner howner

/-- The detect message goes to the visitor. -/
theorem detect (hresolve : ∀ addr, resolve (text addr) = some addr)
    (hinv : Inv md5 text resolve s) {k : Nat} {o : Owner Addr} {resp : NatHoleResp}
    (howner : s.owners k = some o) (htold : o.told = some resp) :
    Inv md5 text resolve (detect resolve s k o resp) := by
  have hat := hinv.owners k o howner
  obtain ⟨work, call, hwork, hcall, -, hresp⟩ := hat.told
  obtain ⟨-, -, p, v, hvisitor, haddr, -⟩ := hinv.visitor_of_work hwork hcall
  have hdst : resolve resp.visitorAddr = some call.raddr := by
    rw [(hresp resp htold).2, hresolve]
  unfold HolePunch.detect
  rw [hdst]
  have hdetected : Inv md5 text resolve
      (s.setOwner k { o with phase := .detected }) :=
    hinv.setOwner howner rfl rfl (fun _ h => h) ⟨by simp, hat.told, by simp⟩
  refine hdetected.send fun _ => .inr ?_
  exact ⟨k, _, resp, Function.update_self .., htold, rfl, rfl, p, v, hvisitor, haddr⟩

theorem detectOK (hinv : Inv md5 text resolve s) {k : Nat} {o : Owner Addr} {ok : Bool}
    (howner : s.owners k = some o)
    (hstep : (if ok then HolePunch.controllerStep md5 text
        (s.setOwner k { o with phase := .listening }) (.detectOK k)
      else some (s.setOwner k { o with phase := .listening })) = some s') :
    Inv md5 text resolve s' := by
  have hat := hinv.owners k o howner
  have hlistening : Inv md5 text resolve
      (s.setOwner k { o with phase := .listening }) :=
    hinv.setOwner howner rfl rfl (fun _ h => h) ⟨by simp, hat.told, by simp⟩
  split at hstep
  · obtain ⟨c', hnext, rfl⟩ := Option.map_eq_some_iff.mp hstep
    exact hlistening.controllerStep (.detectOK k) trivial hnext (by simp) (by simp)
  · obtain rfl := Option.some.inj hstep
    exact hlistening

theorem accept (hinv : Inv md5 text resolve s) {k : Nat} {o : Owner Addr}
    {resp : NatHoleResp} {d : Datagram Addr} (howner : s.owners k = some o)
    (htold : o.told = some resp) (hmem : d ∈ s.datagrams) (hdst : d.dst = o.addr) :
    Inv md5 text resolve (accept s k o resp d) := by
  have hat := hinv.owners k o howner
  unfold HolePunch.accept
  split
  case isTrue hcontent =>
    have hjoined : Inv md5 text resolve
        (s.setOwner k { o with phase := .joined d.src }) := by
      refine hinv.setOwner howner rfl rfl (fun _ h => h) ⟨by simp, hat.told, ?_⟩
      intro uAddr h
      obtain rfl : d.src = uAddr := by simpa using h
      exact ⟨resp, htold, hdst ▸ hcontent ▸ hmem⟩
    refine hjoined.send fun hsid => .inr ?_
    obtain ⟨p, v, -, hvisitor, -, -, hsrc⟩ :=
      hinv.fromVisitor_of_owner howner hmem hdst (hcontent ▸ hsid)
    exact ⟨k, _, resp, Function.update_self .., htold, rfl, rfl, p, v, hvisitor, hsrc⟩
  case isFalse => exact hinv.failOwner howner

theorem alone (hinv : Inv md5 text resolve s) {action : NatHoleReplies.Action Addr}
    (halone : HolePunch.alone action = true)
    (hstep : HolePunch.controllerStep md5 text s action = some s') :
    Inv md5 text resolve s' := by
  obtain ⟨c', hnext, rfl⟩ := Option.map_eq_some_iff.mp hstep
  have hassumed : NatHoleReplies.Assumed s.controller action := by
    cases action with
    | visitor i m raddr sid => cases halone
    | answer k n => cases halone
    | listenClient _ _ | closeClient _ | visitorStep _ | timeout _ | handOver _ _
    | workConn _ _ | detectOK _ | notify _ | client _ _ _ | clientStep _ => trivial
  refine hinv.controllerStep action hassumed hnext ?_ ?_
  · rintro i m raddr sid rfl
    cases halone
  · rintro j m raddr rfl
    cases halone

theorem step [DecidableEq Addr] (hresolve : ∀ addr, resolve (text addr) = some addr)
    (hinv : Inv md5 text resolve s) {action : Action Addr}
    (hassumed : Assumed md5 s action)
    (hstep : step md5 text resolve s action = some s') :
    Inv md5 text resolve s' := by
  cases action with
  | controller action =>
      simp only [HolePunch.step, Option.ite_none_right_eq_some] at hstep
      exact hinv.alone hstep.1 hstep.2
  | strangerVisitor i m raddr sid =>
      exact hinv.strangerVisitor hassumed.1 hassumed.2.1 hassumed.2.2 hstep
  | strangerClient j m raddr => exact hinv.strangerClient hassumed.1 hassumed.2 hstep
  | stranger d =>
      obtain rfl := Option.some.inj hstep
      exact hinv.send fun hcontent => absurd hcontent hassumed
  | dial p addr m =>
      simp only [HolePunch.step, Option.ite_none_right_eq_some,
        Option.isNone_iff_eq_none, Option.some.injEq] at hstep
      obtain ⟨hnew, rfl⟩ := hstep
      exact hinv.dial hnew hassumed
  | request p i sid =>
      obtain ⟨v, hvisitor, hnext⟩ := Option.bind_eq_some_iff.mp hstep
      exact hinv.visitorCall hassumed (fun call hbegins =>
        .inl ⟨p, v, hvisitor, hbegins.raddr.symm, hbegins.m.symm⟩) hnext
  | reply p n =>
      simp only [HolePunch.step] at hstep
      split at hstep
      · next v sent hvisitor hsent =>
          simp only [Option.ite_none_right_eq_some, Option.some.injEq] at hstep
          obtain ⟨⟨hphase, hraddr⟩, rfl⟩ := hstep
          exact hinv.hear hvisitor (List.mem_of_getElem? hsent) hphase hraddr
      · cases hstep
  | greet p =>
      obtain ⟨v, hvisitor, hnext⟩ := Option.bind_eq_some_iff.mp hstep
      obtain ⟨resp, htold, hnext⟩ := Option.bind_eq_some_iff.mp hnext
      simp only [Option.ite_none_right_eq_some, Option.some.injEq] at hnext
      obtain ⟨-, rfl⟩ := hnext
      exact hinv.greet hvisitor htold
  | ack p n =>
      simp only [HolePunch.step] at hstep
      split at hstep
      · next v d hvisitor hd =>
          simp only [Option.ite_none_right_eq_some, Option.some.injEq] at hstep
          obtain ⟨⟨hphase, hdst⟩, rfl⟩ := hstep
          exact hinv.ack hvisitor (List.mem_of_getElem? hd) hphase hdst
      · cases hstep
  | visitorFails p =>
      obtain ⟨v, hvisitor, rfl⟩ := Option.map_eq_some_iff.mp hstep
      exact hinv.failVisitor hvisitor
  | readSid k addr proxyName =>
      simp only [HolePunch.step] at hstep
      split at hstep
      · next work hnew hwork =>
          simp only [Option.ite_none_right_eq_some] at hstep
          obtain ⟨call, hcall, rfl⟩ := Option.map_eq_some_iff.mp hstep.2
          exact hinv.readSid hnew hassumed hwork hcall
      · cases hstep
  | hello k j =>
      obtain ⟨o, howner, hnext⟩ := Option.bind_eq_some_iff.mp hstep
      exact hinv.clientCall (fun client henters =>
        .inl ⟨k, o, howner, henters.raddr.symm, henters.m.symm⟩) hnext
  | answer k n =>
      simp only [HolePunch.step] at hstep
      split at hstep
      · next o sent howner hsent =>
          simp only [Option.ite_none_right_eq_some] at hstep
          exact hinv.answer howner hsent hstep.1.1 hstep.1.2 hstep.2
      · cases hstep
  | detect k =>
      obtain ⟨o, howner, hnext⟩ := Option.bind_eq_some_iff.mp hstep
      obtain ⟨resp, htold, hnext⟩ := Option.bind_eq_some_iff.mp hnext
      simp only [Option.ite_none_right_eq_some, Option.some.injEq] at hnext
      obtain ⟨-, rfl⟩ := hnext
      exact detect hresolve hinv howner htold
  | detectOK k ok =>
      obtain ⟨o, howner, hnext⟩ := Option.bind_eq_some_iff.mp hstep
      simp only [Option.ite_none_right_eq_some] at hnext
      exact hinv.detectOK howner hnext.2
  | accept k n =>
      simp only [HolePunch.step] at hstep
      split at hstep
      · next o d howner hd =>
          simp only [Option.ite_none_right_eq_some] at hstep
          obtain ⟨⟨-, hdst⟩, hnext⟩ := hstep
          obtain ⟨resp, htold, rfl⟩ := Option.map_eq_some_iff.mp hnext
          exact hinv.accept howner htold (List.mem_of_getElem? hd) hdst
      · cases hstep
  | ownerFails k =>
      obtain ⟨o, howner, rfl⟩ := Option.map_eq_some_iff.mp hstep
      exact hinv.failOwner howner

/-- A visitor and an owner that have been told of one sid. -/
theorem session (hinv : Inv md5 text resolve s) {p k : Nat} {v : Visitor Addr}
    {o : Owner Addr} {resp : NatHoleResp} (hvisitor : s.visitors p = some v)
    (howner : s.owners k = some o) (htold : resp ∈ v.told)
    (hsid : resp.sid = o.m.sid) : s.Session md5 p k := by
  obtain ⟨i, call, hcall, hraddr, hresp, -⟩ :=
    (hinv.visitors p v hvisitor).told resp htold
  obtain ⟨work, call', hwork, hcall', hsid', -⟩ := (hinv.owners k o howner).told
  have hone : i = work.visitor :=
    hinv.base.distinct _ _ call call' hcall hcall' (by rw [hsid', ← hsid, hresp])
  subst hone
  obtain rfl := Option.some.inj (hcall.symm.trans hcall')
  obtain ⟨hmatched, hcfg, p', v', hvisitor', haddr, hm⟩ :=
    hinv.visitor_of_work hwork hcall
  have hp : p' = p :=
    hinv.addresses.visitors p' p v' v hvisitor' hvisitor (haddr.trans hraddr)
  subst hp
  obtain rfl := Option.some.inj (hvisitor.symm.trans hvisitor')
  exact ⟨v, o, work, call, hvisitor, howner, hwork, hcall, hm.symm, hraddr, hmatched,
    hcfg, hsid'.symm, resp, htold, hresp⟩

theorem paired (hresolve : ∀ addr, resolve (text addr) = some addr)
    (hinv : Inv md5 text resolve s) : s.Paired md5 := by
  constructor
  case visitor =>
    intro p v daddr hvisitor hphase
    have hat := hinv.visitors p v hvisitor
    obtain ⟨resp, htold, hmem⟩ := hat.joined daddr hphase
    obtain ⟨resp', htold', hdaddr⟩ := hat.greeted daddr (.inr hphase)
    obtain rfl := Option.some.inj (htold.symm.trans htold')
    obtain ⟨i, call, hcall, hraddr, hsid, addr, hmet, hclient⟩ := hat.told resp htold
    have haddr : daddr = addr := by
      rw [hclient, hresolve, Option.some.injEq] at hdaddr
      exact hdaddr.symm
    -- the address is that of an owner, so only the owner has written the sid
    obtain ⟨k, o, work, howner, -, -, hoaddr⟩ := hmet
    obtain ⟨p', v', -, hvisitor', -, -, hsrc⟩ |
        ⟨k', o', resp'', howner', htold'', hsid'', hsrc, -⟩ :=
      hinv.datagrams _ hmem (hsid ▸ hinv.base.generated i call hcall)
    · have hsame : v'.addr = o.addr := hsrc.trans (haddr.trans hoaddr.symm)
      exact absurd hsame (hinv.addresses.apart p' k v' o hvisitor' howner)
    · obtain ⟨_, _, -, -, -, htolds⟩ := (hinv.owners k' o' howner').told
      have hosid : o'.m.sid = resp.sid := (htolds resp'' htold'').1.symm.trans hsid''
      exact ⟨k', o', howner', hinv.session hvisitor howner' htold hosid.symm, hsrc,
        hosid.symm ▸ hsrc.symm ▸ hmem⟩
  case owner =>
    intro k o uAddr howner hphase
    have hat := hinv.owners k o howner
    obtain ⟨resp, htold, hmem⟩ := hat.joined uAddr hphase
    obtain ⟨work, call, hwork, hcall, hsid, htolds⟩ := hat.told
    have hosid : resp.sid = o.m.sid := (htolds resp htold).1
    have hknown : resp.sid ∈ s.controller.sids :=
      (hsid.trans hosid.symm) ▸ hinv.base.generated _ call hcall
    obtain ⟨p, v, resp', hvisitor, htold', hsid', hsrc⟩ :=
      hinv.fromVisitor_of_owner howner hmem rfl hknown
    exact ⟨p, v, hvisitor, hinv.session hvisitor howner htold' (hsid'.trans hosid),
      hsrc, hosid ▸ hsrc.symm ▸ hmem⟩
  case oneOwner =>
    rintro p k k' ⟨v, o, work, call, hvisitor, -, hwork, hcall, -, -, -, -, -, resp,
      htold, hsid⟩ ⟨v', o', work', call', hvisitor', -, hwork', hcall', -, -, -, -, -,
      resp', htold', hsid'⟩
    obtain rfl := Option.some.inj (hvisitor.symm.trans hvisitor')
    obtain rfl := Option.some.inj (htold.symm.trans htold')
    have hone : work.visitor = work'.visitor :=
      hinv.base.distinct _ _ call call' hcall hcall' (hsid.symm.trans hsid')
    exact hinv.served.single k k' work work' hwork hwork' hone
  case oneVisitor =>
    rintro p p' k ⟨v, o, work, call, hvisitor, -, hwork, hcall, -, hraddr, -⟩
      ⟨v', o', work', call', hvisitor', -, hwork', hcall', -, hraddr', -⟩
    obtain rfl := Option.some.inj (hwork.symm.trans hwork')
    obtain rfl := Option.some.inj (hcall.symm.trans hcall')
    exact hinv.addresses.visitors p p' v v' hvisitor hvisitor'
      (hraddr.symm.trans hraddr')

end Inv

end Invariant

/-- However datagrams are lost, late or repeated: as long as only those who are told
a sid know it, the two ends of a stream belong to each other. -/
theorem paired_of_run [DecidableEq Addr] {md5 : String → List UInt8}
    {text : Addr → String} {resolve : String → Option Addr}
    (hresolve : ∀ addr, resolve (text addr) = some addr)
    {word : List (Action Addr)} {s : State Addr}
    (hrun : (system md5 text resolve).Run (Assumed md5) word s) : s.Paired md5 :=
  (hrun.invariant (I := Inv md5 text resolve) Inv.init
    fun _ _ _ hinv hassumed hstep => hinv.step hresolve hassumed hstep).paired hresolve

inductive SampleAddr where
  | visitor
  | owner
  | stranger
deriving DecidableEq

def SampleAddr.text : SampleAddr → String
  | .visitor => "203.0.113.5:4000"
  | .owner => "198.51.100.7:5000"
  | .stranger => "192.0.2.9:9"

def sampleResolve (text : String) : Option SampleAddr :=
  [SampleAddr.visitor, .owner, .stranger].find? (·.text = text)

theorem sampleResolve_text (addr : SampleAddr) :
    sampleResolve addr.text = some addr := by
  cases addr <;> decide

/-- A stranger is refused; the detect message comes so late that the visitor takes
it for the answer, before the owner has had the sid. -/
def punched : List (Action SampleAddr) :=
  [.controller (.listenClient "p2p" "secret"),
    .dial 0 .visitor ⟨"p2p", "175ec77a7f63082590987d0d8b051aff", 0⟩,
    .strangerVisitor 1 ⟨"p2p", "", 0⟩ .stranger "2b", .controller (.visitorStep 1),
    .request 0 0 "1a", .controller (.handOver 0 0), .controller (.workConn 0 true),
    .readSid 0 .owner "p2p", .hello 0 0, .controller (.clientStep 0),
    .controller (.clientStep 0), .controller (.clientStep 0), .answer 0 1,
    .detect 0, .detectOK 0 true, .controller (.notify 0),
    .controller (.visitorStep 0), .controller (.visitorStep 0), .reply 0 2,
    .greet 0, .ack 0 0, .accept 0 1]

theorem paired_of_run_punched :
    ∃ s, (system digest SampleAddr.text sampleResolve).Run (Assumed digest) punched s ∧
      ((s.visitors 0).map Visitor.phase = some (.joined .owner) ∧
        (s.owners 0).map Owner.phase = some (.joined .visitor)) ∧
      s.Paired digest := by
  obtain ⟨s, hrun, hjoined⟩ :
      ∃ s, (system digest SampleAddr.text sampleResolve).Run (Assumed digest)
          punched s ∧
        (s.visitors 0).map Visitor.phase = some (.joined .owner) ∧
          (s.owners 0).map Owner.phase = some (.joined .visitor) :=
    System.exists_run_of_replay (by decide)
  exact ⟨s, hrun, hjoined, paired_of_run sampleResolve_text hrun⟩

end HolePunch

end Frp

/-
The replies of the NAT-hole Controller of `pkg/nathole/nathole.go`.  A request
for a sid goes from `HandleVisitor` through the goroutine of `XTCPProxy.Run` in
`server/proxy/xtcp.go` and a work connection to `InWorkConn` of the client, and
its answer comes back by UDP and by the work connection.
-/
import Frp.Lib.System
import Frp.Server.NatHole
import Frp.Server.VisitorManager

namespace Frp

open Transition

namespace NatHoleReplies

structure NatHoleVisitor where
  proxyName : String
  signKey : String
  timestamp : Int
deriving DecidableEq, Repr

structure NatHoleClient where
  proxyName : String
  sid : String
deriving DecidableEq, Repr

structure NatHoleResp where
  sid : String
  visitorAddr : String
  clientAddr : String
  error : String
deriving DecidableEq, Repr

/-- Where a call of `HandleVisitor` is: with an error to send, offering its
request on the channel of the proxy, in the select, notified, with a response to
send, and about to delete its session. -/
inductive VisitorPc where
  | refused (errInfo : String)
  | offering
  | waiting
  | notified
  | writing (resp : NatHoleResp)
  | leaving
  | returned
deriving DecidableEq, Repr

/-- A call of `HandleVisitor` with its session; `clientCfg` is what it has found
under the name of the proxy. -/
structure VisitorCall (Addr : Type) where
  m : NatHoleVisitor
  raddr : Addr
  sid : String
  clientCfg : Option ClientCfg
  clientAddr : Option Addr
  pc : VisitorPc

/-- Where a call of `HandleClient` is: with the session of a visitor found, its
address stored there, and with the response to send. -/
inductive ClientPc where
  | found (i : Nat)
  | stored (i : Nat)
  | writing (resp : NatHoleResp)
  | returned
deriving DecidableEq, Repr

structure ClientCall (Addr : Type) where
  m : NatHoleClient
  raddr : Addr
  pc : ClientPc

/-- A request on its way: taken by the proxy, the sid written to a work
connection, a response received by the client, and its NatHoleClientDetectOK. -/
inductive WorkPc where
  | requested
  | sidWritten
  | answered
  | detected
  | done
deriving DecidableEq, Repr

/-- `visitor` is the call whose sid and `NotifyCh` the request carries. -/
structure Work where
  visitor : Nat
  sidCh : Nat
  pc : WorkPc
deriving DecidableEq, Repr

inductive Receiver where
  | visitor (i : Nat)
  | client (j : Nat)
deriving DecidableEq, Repr

/-- A NatHoleResp that has been written to the UDP listener. -/
structure Sent (Addr : Type) where
  receiver : Receiver
  raddr : Addr
  resp : NatHoleResp

/-- `busy` are the channels whose proxy is getting a work connection; `sids` are
the sids that have been generated. -/
structure State (Addr : Type) where
  clientCfgs : String → Option ClientCfg
  channels : Nat
  busy : Nat → Bool
  sessions : String → Option Nat
  visitors : Nat → Option (VisitorCall Addr)
  clients : Nat → Option (ClientCall Addr)
  works : Nat → Option Work
  sids : List String
  sent : List (Sent Addr)

/-- Any datagram may arrive at any time and any number of times.  `answer` is a
response that the client on a work connection receives. -/
inductive Action (Addr : Type) where
  | listenClient (name sk : String)
  | closeClient (name : String)
  | visitor (i : Nat) (m : NatHoleVisitor) (raddr : Addr) (sid : String)
  | visitorStep (i : Nat)
  | timeout (i : Nat)
  | handOver (i k : Nat)
  | workConn (k : Nat) (ok : Bool)
  | answer (k n : Nat)
  | detectOK (k : Nat)
  | notify (k : Nat)
  | client (j : Nat) (m : NatHoleClient) (raddr : Addr)
  | clientStep (j : Nat)

variable {Addr : Type}

def init (Addr : Type) : State Addr where
  clientCfgs _ := none
  channels := 0
  busy _ := false
  sessions _ := none
  visitors _ := none
  clients _ := none
  works _ := none
  sids := []
  sent := []

namespace State

def setVisitor (s : State Addr) (i : Nat) (call : VisitorCall Addr) :
    State Addr :=
  { s with visitors := Function.update s.visitors i (some call) }

def setClient (s : State Addr) (j : Nat) (call : ClientCall Addr) :
    State Addr :=
  { s with clients := Function.update s.clients j (some call) }

def setWork (s : State Addr) (k : Nat) (work : Work) : State Addr :=
  { s with works := Function.update s.works k (some work) }

def setBusy (s : State Addr) (sidCh : Nat) (busy : Bool) : State Addr :=
  { s with busy := Function.update s.busy sidCh busy }

def setSession (s : State Addr) (sid : String) (i : Option Nat) : State Addr :=
  { s with sessions := Function.update s.sessions sid i }

def write (s : State Addr) (receiver : Receiver) (raddr : Addr)
    (resp : NatHoleResp) : State Addr :=
  { s with sent := s.sent ++ [⟨receiver, raddr, resp⟩] }

end State

variable (md5 : String → List UInt8) (text : Addr → String)

/-- The address of a session that has none is printed as nil. -/
def addrText (addr : Option Addr) : String :=
  match addr with
  | none => "<nil>"
  | some addr => text addr

/-- `GenNatHoleResponse`. -/
def genNatHoleResponse (session : Option (VisitorCall Addr))
    (errInfo : String) : NatHoleResp :=
  match session with
  | none => ⟨"", "", "", errInfo⟩
  | some session =>
      ⟨session.sid, text session.raddr, addrText text session.clientAddr,
        errInfo⟩

/-- The key of the message is that of the proxy that it names. -/
def VisitorCall.Matched (call : VisitorCall Addr) : Prop :=
  ∃ cfg ∈ call.clientCfg, cfg.name = call.m.proxyName ∧
    call.m.signKey = getAuthKey md5 cfg.sk call.m.timestamp

instance (call : VisitorCall Addr) : Decidable (call.Matched md5) :=
  inferInstanceAs (Decidable (∃ cfg ∈ call.clientCfg, _))

/-- The first section of `HandleVisitor`, under the lock. -/
def handleVisitor (s : State Addr) (i : Nat) (m : NatHoleVisitor)
    (raddr : Addr) (sid : String) : State Addr :=
  let call : VisitorPc → VisitorCall Addr := fun pc =>
    ⟨m, raddr, sid, s.clientCfgs m.proxyName, none, pc⟩
  let s := { s with sids := sid :: s.sids }
  match s.clientCfgs m.proxyName with
  | none =>
      s.setVisitor i (call (.refused
        ("xtcp server for [" ++ m.proxyName ++ "] doesn't exist")))
  | some cfg =>
      if m.signKey ≠ getAuthKey md5 cfg.sk m.timestamp then
        s.setVisitor i (call (.refused
          ("xtcp connection of [" ++ m.proxyName ++ "] auth failed")))
      else (s.setVisitor i (call .offering)).setSession sid (some i)

/-- The next step of a call of `HandleVisitor`. -/
def visitorStep (s : State Addr) (i : Nat) (call : VisitorCall Addr) :
    Option (State Addr) :=
  match call.pc with
  | .refused errInfo =>
      some ((s.setVisitor i { call with pc := .returned }).write (.visitor i)
        call.raddr (genNatHoleResponse text none errInfo))
  | .notified =>
      some (s.setVisitor i { call with
        pc := .writing (genNatHoleResponse text (some call) "") })
  | .writing resp =>
      some ((s.setVisitor i { call with pc := .leaving }).write (.visitor i)
        call.raddr resp)
  | .leaving =>
      some ((s.setVisitor i { call with pc := .returned }).setSession call.sid
        none)
  | .offering | .waiting | .returned => none

/-- The lookup of `HandleClient`, under the lock. -/
def handleClient (s : State Addr) (j : Nat) (m : NatHoleClient)
    (raddr : Addr) : State Addr :=
  match s.sessions m.sid with
  | none => s.setClient j ⟨m, raddr, .returned⟩
  | some i => s.setClient j ⟨m, raddr, .found i⟩

/-- The next step of a call of `HandleClient`. -/
def clientStep (s : State Addr) (j : Nat) (call : ClientCall Addr) :
    Option (State Addr) :=
  match call.pc with
  | .found i =>
      (s.visitors i).map fun session =>
        (s.setVisitor i { session with clientAddr := some call.raddr }).setClient
          j { call with pc := .stored i }
  | .stored i =>
      some (s.setClient j { call with
        pc := .writing (genNatHoleResponse text (s.visitors i) "") })
  | .writing resp =>
      some ((s.setClient j { call with pc := .returned }).write (.client j)
        call.raddr resp)
  | .returned => none

/-- The goroutine of the proxy takes the request from the channel. -/
def handOver (s : State Addr) (i k : Nat) (call : VisitorCall Addr) :
    Option (State Addr) :=
  match call.clientCfg with
  | none => none
  | some cfg =>
      if call.pc = .offering ∧ s.busy cfg.sidCh = false ∧ (s.works k).isNone then
        some (((s.setVisitor i { call with pc := .waiting }).setWork k
          ⟨i, cfg.sidCh, .requested⟩).setBusy cfg.sidCh true)
      else none

/-- The notification is dropped unless the visitor is in its select. -/
def notify (s : State Addr) (k : Nat) (work : Work) : State Addr :=
  let s := s.setWork k { work with pc := .done }
  match s.visitors work.visitor with
  | none => s
  | some call =>
      if call.pc = .waiting then
        s.setVisitor work.visitor { call with pc := .notified }
      else s

def step (s : State Addr) : Action Addr → Option (State Addr)
  | .listenClient name sk =>
      some { s with
        clientCfgs :=
          Function.update s.clientCfgs name (some ⟨name, sk, s.channels⟩)
        channels := s.channels + 1 }
  | .closeClient name =>
      some { s with clientCfgs := Function.update s.clientCfgs name none }
  | .visitor i m raddr sid =>
      if (s.visitors i).isNone then some (handleVisitor md5 s i m raddr sid)
      else none
  | .visitorStep i => (s.visitors i).bind (visitorStep text s i)
  | .timeout i =>
      match s.visitors i with
      | none => none
      | some call =>
          if call.pc = .waiting then
            some (s.setVisitor i { call with pc := .leaving })
          else none
  | .handOver i k => (s.visitors i).bind (handOver s i k)
  | .workConn k ok =>
      match s.works k with
      | none => none
      | some work =>
          if work.pc = .requested then
            some ((s.setWork k { work with
              pc := if ok then .sidWritten else .done }).setBusy work.sidCh
                false)
          else none
  | .answer k n =>
      match s.works k, s.sent[n]? with
      | some work, some sent =>
          if work.pc = .sidWritten ∧ sent.resp.error = "" then
            some (s.setWork k { work with pc := .answered })
          else none
      | _, _ => none
  | .detectOK k =>
      match s.works k with
      | none => none
      | some work =>
          if work.pc = .answered then
            some (s.setWork k { work with pc := .detected })
          else none
  | .notify k =>
      match s.works k with
      | none => none
      | some work =>
          if work.pc = .detected then some (notify s k work) else none
  | .client j m raddr =>
      if (s.clients j).isNone then some (handleClient s j m raddr) else none
  | .clientStep j => (s.clients j).bind (clientStep text s j)

def system : System (State Addr) (Action Addr) where
  start := init Addr
  step := step md5 text

/-- Every call of `HandleVisitor` has a sid of its own, and the client goes on
only with a response for the sid it was given. -/
def Assumed (s : State Addr) : Action Addr → Prop
  | .visitor _ _ _ sid => sid ∉ s.sids
  | .answer k n => ∀ work ∈ s.works k, ∀ call ∈ s.visitors work.visitor,
      ∀ sent ∈ s.sent[n]?, sent.resp.sid = call.sid
  | _ => True

instance (s : State Addr) (action : Action Addr) :
    Decidable (Assumed s action) :=
  match action with
  | .visitor _ _ _ sid => inferInstanceAs (Decidable (sid ∉ s.sids))
  | .answer k n => inferInstanceAs (Decidable (∀ work ∈ s.works k,
      ∀ call ∈ s.visitors work.visitor, ∀ sent ∈ s.sent[n]?,
        sent.resp.sid = call.sid))
  | .listenClient _ _ | .closeClient _ | .visitorStep _ | .timeout _
  | .handOver _ _ | .workConn _ _ | .detectOK _ | .notify _ | .client _ _ _
  | .clientStep _ => inferInstanceAs (Decidable True)

section Statement

/-- The address of a NatHoleClient datagram with the sid. -/
def State.Learned (s : State Addr) (sid : String) (addr : Addr) : Prop :=
  ∃ j client, s.clients j = some client ∧ client.m.sid = sid ∧
    client.raddr = addr

/-- What an error-free response to the visitor `i` carries. -/
def State.VisitorReply (s : State Addr) (i : Nat) (raddr : Addr)
    (resp : NatHoleResp) : Prop :=
  resp.error = "" → ∃ call, s.visitors i = some call ∧ raddr = call.raddr ∧
    resp.sid = call.sid ∧ resp.visitorAddr = text call.raddr ∧
    ∃ addr, s.Learned call.sid addr ∧ resp.clientAddr = text addr

/-- What a response to the client call `j` carries. -/
def State.ClientReply (s : State Addr) (j : Nat) (raddr : Addr)
    (resp : NatHoleResp) : Prop :=
  ∃ client i call, s.clients j = some client ∧ s.visitors i = some call ∧
    raddr = client.raddr ∧ call.sid = client.m.sid ∧ call.Matched md5 ∧
    resp.sid = call.sid ∧ resp.visitorAddr = text call.raddr

/-- `sessions` is exact, and so is every response that has been sent. -/
structure State.Consistent (s : State Addr) : Prop where
  sessions : ∀ sid, (s.sessions sid).isSome ↔
    ∃ i call, s.visitors i = some call ∧ call.sid = sid ∧
      call.Matched md5 ∧ call.pc ≠ .returned
  toVisitor : ∀ i, ∀ sent ∈ s.sent, sent.receiver = .visitor i →
    s.VisitorReply text i sent.raddr sent.resp
  toClient : ∀ j, ∀ sent ∈ s.sent, sent.receiver = .client j →
    s.ClientReply md5 text j sent.raddr sent.resp

end Statement

section Extension

/-- What never changes in a call, and an address that is never taken back. -/
structure VisitorCall.Extends (call call' : VisitorCall Addr) : Prop where
  m : call'.m = call.m
  raddr : call'.raddr = call.raddr
  sid : call'.sid = call.sid
  clientCfg : call'.clientCfg = call.clientCfg
  clientAddr : call.clientAddr.isSome → call'.clientAddr.isSome

structure ClientCall.Extends (call call' : ClientCall Addr) : Prop where
  m : call'.m = call.m
  raddr : call'.raddr = call.raddr

/-- No call is forgotten. -/
structure State.Extends (s s' : State Addr) : Prop where
  visitors : ∀ i call, s.visitors i = some call →
    ∃ call', s'.visitors i = some call' ∧ call.Extends call'
  clients : ∀ j call, s.clients j = some call →
    ∃ call', s'.clients j = some call' ∧ call.Extends call'

theorem VisitorCall.Extends.rfl (call : VisitorCall Addr) : call.Extends call :=
  ⟨Eq.refl _, Eq.refl _, Eq.refl _, Eq.refl _, id⟩

theorem ClientCall.Extends.rfl (call : ClientCall Addr) : call.Extends call :=
  ⟨Eq.refl _, Eq.refl _⟩

variable {md5 text}

theorem VisitorCall.Extends.matched_iff {call call' : VisitorCall Addr}
    (hext : call.Extends call') : call'.Matched md5 ↔ call.Matched md5 := by
  rw [VisitorCall.Matched, VisitorCall.Matched, hext.clientCfg, hext.m]

namespace State

/-- Both maps of calls are the same. -/
theorem Extends.of_eq {s s' : State Addr} (hvisitors : s'.visitors = s.visitors)
    (hclients : s'.clients = s.clients) : s.Extends s' := by
  constructor
  · intro i call hcall
    exact ⟨call, hvisitors ▸ hcall, .rfl call⟩
  · intro j call hcall
    exact ⟨call, hclients ▸ hcall, .rfl call⟩

/-- The call `i` is new, or goes on. -/
theorem Extends.of_visitor {s s' : State Addr} {i : Nat}
    {call : VisitorCall Addr}
    (hvisitors : s'.visitors = Function.update s.visitors i (some call))
    (hclients : s'.clients = s.clients)
    (hcall : ∀ old, s.visitors i = some old → old.Extends call) :
    s.Extends s' := by
  constructor
  · intro i' old hold
    by_cases hi : i' = i
    · subst hi
      exact ⟨call, by simp [hvisitors], hcall old hold⟩
    · exact ⟨old, by simp [hvisitors, hi, hold], .rfl old⟩
  · intro j client hclient
    exact ⟨client, hclients ▸ hclient, .rfl client⟩

theorem Extends.of_client {s s' : State Addr} {j : Nat} {client : ClientCall Addr}
    (hvisitors : s'.visitors = s.visitors)
    (hclients : s'.clients = Function.update s.clients j (some client))
    (hclient : ∀ old, s.clients j = some old → old.Extends client) :
    s.Extends s' := by
  constructor
  · intro i call hcall
    exact ⟨call, hvisitors ▸ hcall, .rfl call⟩
  · intro j' old hold
    by_cases hj : j' = j
    · subst hj
      exact ⟨client, by simp [hclients], hclient old hold⟩
    · exact ⟨old, by simp [hclients, hj, hold], .rfl old⟩

theorem Extends.setVisitor {s : State Addr} {i : Nat}
    {old call : VisitorCall Addr} (hold : s.visitors i = some old)
    (hext : old.Extends call) : s.Extends (s.setVisitor i call) := by
  refine .of_visitor rfl rfl ?_
  intro old' hold'
  rw [hold, Option.some.injEq] at hold'
  exact hold' ▸ hext

theorem Extends.setClient {s : State Addr} {j : Nat}
    {old client : ClientCall Addr} (hold : s.clients j = some old)
    (hext : old.Extends client) : s.Extends (s.setClient j client) := by
  refine .of_client rfl rfl ?_
  intro old' hold'
  rw [hold, Option.some.injEq] at hold'
  exact hold' ▸ hext

theorem Learned.mono {s s' : State Addr} (hext : s.Extends s') {sid : String}
    {addr : Addr} (hlearned : s.Learned sid addr) : s'.Learned sid addr := by
  obtain ⟨j, client, hclient, hsid, haddr⟩ := hlearned
  obtain ⟨client', hclient', hsame⟩ := hext.clients j client hclient
  exact ⟨j, client', hclient', hsame.m ▸ hsid, hsame.raddr ▸ haddr⟩

theorem VisitorReply.mono {s s' : State Addr} (hext : s.Extends s') {i : Nat}
    {raddr : Addr} {resp : NatHoleResp}
    (hreply : s.VisitorReply text i raddr resp) :
    s'.VisitorReply text i raddr resp := by
  intro herror
  obtain ⟨call, hcall, hraddr, hsid, hvisitor, addr, hlearned, hclient⟩ :=
    hreply herror
  obtain ⟨call', hcall', hsame⟩ := hext.visitors i call hcall
  refine ⟨call', hcall', ?_, ?_, ?_, addr, ?_, hclient⟩
  · rw [hsame.raddr, hraddr]
  · rw [hsame.sid, hsid]
  · rw [hsame.raddr, hvisitor]
  · rw [hsame.sid]
    exact hlearned.mono hext

theorem ClientReply.mono {s s' : State Addr} (hext : s.Extends s') {j : Nat}
    {raddr : Addr} {resp : NatHoleResp}
    (hreply : s.ClientReply md5 text j raddr resp) :
    s'.ClientReply md5 text j raddr resp := by
  obtain ⟨client, i, call, hclient, hcall, hraddr, hnamed, hmatched, hsid, hvisitor⟩ :=
    hreply
  obtain ⟨client', hclient', hsame⟩ := hext.clients j client hclient
  obtain ⟨call', hcall', hsame'⟩ := hext.visitors i call hcall
  refine ⟨client', i, call', hclient', hcall', ?_, ?_,
    hsame'.matched_iff.mpr hmatched, ?_, ?_⟩
  · rw [hsame.raddr, hraddr]
  · rw [hsame'.sid, hsame.m, hnamed]
  · rw [hsame'.sid, hsid]
  · rw [hsame'.raddr, hvisitor]

end State

end Extension

section Invariant

namespace State

/-- Some call of that sid has the address of a client. -/
def Addressed (s : State Addr) (sid : String) : Prop :=
  ∃ i call, s.visitors i = some call ∧ call.sid = sid ∧
    call.clientAddr.isSome

/-- A response that is to be sent or has been sent. -/
def Reply (s : State Addr) (receiver : Receiver) (raddr : Addr)
    (resp : NatHoleResp) : Prop :=
  (resp.error = "" → s.Addressed resp.sid) ∧
    match receiver with
    | .visitor i => s.VisitorReply text i raddr resp
    | .client j => s.ClientReply md5 text j raddr resp

def AtVisitor (s : State Addr) (i : Nat) (call : VisitorCall Addr) : Prop :=
  match call.pc with
  | .refused errInfo => errInfo ≠ "" ∧ ¬ call.Matched md5
  | .notified => call.clientAddr.isSome
  | .writing resp => s.Reply md5 text (.visitor i) call.raddr resp
  | .offering | .waiting | .leaving | .returned => True

def AtClient (s : State Addr) (j : Nat) (client : ClientCall Addr) : Prop :=
  match client.pc with
  | .found i => ∃ call, s.visitors i = some call ∧
      call.sid = client.m.sid ∧ call.Matched md5
  | .stored i => ∃ call, s.visitors i = some call ∧
      call.sid = client.m.sid ∧ call.Matched md5 ∧ call.clientAddr.isSome
  | .writing resp => s.Reply md5 text (.client j) client.raddr resp
  | .returned => True

/-- The client has an answer only when the session has its address. -/
def AtWork (s : State Addr) (work : Work) : Prop :=
  ∃ call, s.visitors work.visitor = some call ∧
    (work.pc = .answered ∨ work.pc = .detected → call.clientAddr.isSome)

end State

structure Inv (s : State Addr) : Prop where
  named : ∀ name cfg, s.clientCfgs name = some cfg → cfg.name = name
  generated : ∀ i call, s.visitors i = some call → call.sid ∈ s.sids
  distinct : ∀ i i' call call', s.visitors i = some call →
    s.visitors i' = some call' → call.sid = call'.sid → i = i'
  sessions : ∀ sid i, s.sessions sid = some i ↔
    ∃ call, s.visitors i = some call ∧ call.sid = sid ∧
      call.Matched md5 ∧ call.pc ≠ .returned
  learned : ∀ i call, s.visitors i = some call →
    ∀ addr ∈ call.clientAddr, s.Learned call.sid addr
  atVisitor : ∀ i call, s.visitors i = some call →
    s.AtVisitor md5 text i call
  atClient : ∀ j client, s.clients j = some client →
    s.AtClient md5 text j client
  atWork : ∀ k work, s.works k = some work → s.AtWork work
  sent : ∀ sent ∈ s.sent, s.Reply md5 text sent.receiver sent.raddr sent.resp

variable {md5 text}

namespace State

theorem Addressed.mono {s s' : State Addr} (hext : s.Extends s') {sid : String}
    (haddressed : s.Addressed sid) : s'.Addressed sid := by
  obtain ⟨i, call, hcall, hsid, haddr⟩ := haddressed
  obtain ⟨call', hcall', hsame⟩ := hext.visitors i call hcall
  exact ⟨i, call', hcall', hsame.sid ▸ hsid, hsame.clientAddr haddr⟩

theorem Reply.mono {s s' : State Addr} (hext : s.Extends s') {receiver : Receiver}
    {raddr : Addr} {resp : NatHoleResp}
    (hreply : s.Reply md5 text receiver raddr resp) :
    s'.Reply md5 text receiver raddr resp := by
  refine ⟨fun herror => (hreply.1 herror).mono hext, ?_⟩
  cases receiver with
  | visitor i => exact VisitorReply.mono hext hreply.2
  | client j => exact ClientReply.mono hext hreply.2

theorem AtVisitor.mono {s s' : State Addr} (hext : s.Extends s') {i : Nat}
    {call : VisitorCall Addr} (hat : s.AtVisitor md5 text i call) :
    s'.AtVisitor md5 text i call := by
  unfold AtVisitor at hat ⊢
  cases hpc : call.pc <;> simp only [hpc] at hat ⊢
  case writing resp => exact Reply.mono hext hat
  all_goals exact hat

theorem AtClient.mono {s s' : State Addr} (hext : s.Extends s') {j : Nat}
    {client : ClientCall Addr} (hat : s.AtClient md5 text j client) :
    s'.AtClient md5 text j client := by
  unfold AtClient at hat ⊢
  cases hpc : client.pc with
  | found i =>
      simp only [hpc] at hat ⊢
      obtain ⟨call, hcall, hsid, hmatched⟩ := hat
      obtain ⟨call', hcall', hsame⟩ := hext.visitors i call hcall
      exact ⟨call', hcall', hsame.sid ▸ hsid, hsame.matched_iff.mpr hmatched⟩
  | stored i =>
      simp only [hpc] at hat ⊢
      obtain ⟨call, hcall, hsid, hmatched, haddr⟩ := hat
      obtain ⟨call', hcall', hsame⟩ := hext.visitors i call hcall
      exact ⟨call', hcall', hsame.sid ▸ hsid, hsame.matched_iff.mpr hmatched,
        hsame.clientAddr haddr⟩
  | writing resp =>
      simp only [hpc] at hat ⊢
      exact Reply.mono hext hat
  | returned => trivial

theorem AtWork.mono {s s' : State Addr} (hext : s.Extends s') {work : Work}
    (hat : s.AtWork work) : s'.AtWork work := by
  obtain ⟨call, hcall, hanswered⟩ := hat
  obtain ⟨call', hcall', hsame⟩ := hext.visitors work.visitor call hcall
  exact ⟨call', hcall', fun hpc => hsame.clientAddr (hanswered hpc)⟩

end State

namespace Inv

theorem init : Inv md5 text (init Addr) := by
  constructor <;> simp [NatHoleReplies.init]

/-- There is one call of a sid. -/
theorem addressed_call {s : State Addr} (hinv : Inv md5 text s) {sid : String}
    {i : Nat} {call : VisitorCall Addr} (hcall : s.visitors i = some call)
    (hsid : call.sid = sid) (haddressed : s.Addressed sid) :
    call.clientAddr.isSome := by
  obtain ⟨i', call', hcall', hsid', haddr⟩ := haddressed
  have hi : i' = i := hinv.distinct i' i call' call hcall' hcall
    (hsid'.trans hsid.symm)
  subst hi
  rw [hcall, Option.some.injEq] at hcall'
  exact hcall' ▸ haddr

/-- Only the call `i` is new or goes on. -/
theorem of_visitor {s s' : State Addr} (hinv : Inv md5 text s) (i : Nat)
    (call : VisitorCall Addr)
    (hvisitors : s'.visitors = Function.update s.visitors i (some call))
    (hclients : s'.clients = s.clients) (hworks : s'.works = s.works)
    (hcfgs : s'.clientCfgs = s.clientCfgs) (hsent : s'.sent = s.sent)
    (hsids : ∀ sid ∈ s.sids, sid ∈ s'.sids) (hsid : call.sid ∈ s'.sids)
    (hext : ∀ old, s.visitors i = some old → old.Extends call)
    (hdistinct : ∀ i' other, i' ≠ i → s.visitors i' = some other →
      other.sid ≠ call.sid)
    (hlearned : ∀ addr ∈ call.clientAddr, s.Learned call.sid addr)
    (hat : s.AtVisitor md5 text i call)
    (hsessions : ∀ sid i', s'.sessions sid = some i' ↔
      ∃ call, s'.visitors i' = some call ∧ call.sid = sid ∧
        call.Matched md5 ∧ call.pc ≠ .returned) :
    Inv md5 text s' := by
  have hgrown : s.Extends s' := .of_visitor hvisitors hclients hext
  -- a call of the new state is that call, or was there before
  have hcases : ∀ i' call', s'.visitors i' = some call' →
      (i' = i ∧ call' = call) ∨ (i' ≠ i ∧ s.visitors i' = some call') := by
    intro i' call' hcall'
    rw [hvisitors] at hcall'
    by_cases hi : i' = i
    · subst hi
      rw [Function.update_self, Option.some.injEq] at hcall'
      exact .inl ⟨rfl, hcall'.symm⟩
    · rw [Function.update_of_ne hi] at hcall'
      exact .inr ⟨hi, hcall'⟩
  constructor
  case named => exact fun name cfg hcfg => hinv.named name cfg (hcfgs ▸ hcfg)
  case generated =>
    intro i' call' hcall'
    obtain ⟨-, rfl⟩ | ⟨-, hold⟩ := hcases i' call' hcall'
    · exact hsid
    · exact hsids _ (hinv.generated i' call' hold)
  case distinct =>
    intro i₁ i₂ call₁ call₂ hcall₁ hcall₂ heq
    obtain ⟨rfl, rfl⟩ | ⟨hne₁, hold₁⟩ := hcases i₁ call₁ hcall₁ <;>
      obtain ⟨rfl, rfl⟩ | ⟨hne₂, hold₂⟩ := hcases i₂ call₂ hcall₂
    · rfl
    · exact absurd heq.symm (hdistinct i₂ call₂ hne₂ hold₂)
    · exact absurd heq (hdistinct i₁ call₁ hne₁ hold₁)
    · exact hinv.distinct i₁ i₂ call₁ call₂ hold₁ hold₂ heq
  case sessions => exact hsessions
  case learned =>
    intro i' call' hcall' addr haddr
    obtain ⟨-, rfl⟩ | ⟨-, hold⟩ := hcases i' call' hcall'
    · exact (hlearned addr haddr).mono hgrown
    · exact (hinv.learned i' call' hold addr haddr).mono hgrown
  case atVisitor =>
    intro i' call' hcall'
    obtain ⟨rfl, rfl⟩ | ⟨-, hold⟩ := hcases i' call' hcall'
    · exact hat.mono hgrown
    · exact (hinv.atVisitor i' call' hold).mono hgrown
  case atClient =>
    intro j client hclient
    exact (hinv.atClient j client (hclients ▸ hclient)).mono hgrown
  case atWork =>
    intro k work hwork
    exact (hinv.atWork k work (hworks ▸ hwork)).mono hgrown
  case sent =>
    intro sent hmem
    exact (hinv.sent sent (hsent ▸ hmem)).mono hgrown

/-- A call goes on, or ends without a session. -/
theorem setVisitor {s : State Addr} (hinv : Inv md5 text s) {i : Nat}
    {old call : VisitorCall Addr} (hold : s.visitors i = some old)
    (hext : old.Extends call)
    (hpc : old.Matched md5 → (old.pc = .returned ↔ call.pc = .returned))
    (hlearned : ∀ addr ∈ call.clientAddr, s.Learned call.sid addr)
    (hat : s.AtVisitor md5 text i call) :
    Inv md5 text (s.setVisitor i call) := by
  refine hinv.of_visitor i call rfl rfl rfl rfl rfl
    (fun _ h => h) ?_ ?_ ?_ hlearned hat ?_
  · exact hext.sid ▸ hinv.generated i old hold
  · intro old' hold'
    rw [hold, Option.some.injEq] at hold'
    exact hold' ▸ hext
  · intro i' other hne hother heq
    exact hne (hinv.distinct i' i other old hother hold (heq.trans hext.sid))
  · intro sid i'
    have hsessions := hinv.sessions sid i'
    simp only [State.setVisitor]
    rw [hsessions]
    by_cases hi : i' = i
    · subst hi
      simp only [hold, Function.update_self, Option.some.injEq,
        exists_eq_left', hext.sid, hext.matched_iff]
      constructor
      · rintro ⟨hsid, hmatched, hne⟩
        exact ⟨hsid, hmatched, fun h => hne ((hpc hmatched).mpr h)⟩
      · rintro ⟨hsid, hmatched, hne⟩
        exact ⟨hsid, hmatched, fun h => hne ((hpc hmatched).mp h)⟩
    · simp [hi]

/-- The deferred deletion of `HandleVisitor`. -/
theorem leave {s : State Addr} (hinv : Inv md5 text s) {i : Nat}
    {call : VisitorCall Addr} (hcall : s.visitors i = some call) :
    Inv md5 text ((s.setVisitor i { call with pc := .returned }).setSession
      call.sid none) := by
  refine hinv.of_visitor i { call with pc := .returned } rfl
    rfl rfl rfl rfl (fun _ h => h) (hinv.generated i call hcall) ?_ ?_
    (hinv.learned i call hcall) trivial ?_
  · intro old hold
    rw [hcall, Option.some.injEq] at hold
    subst hold
    exact ⟨rfl, rfl, rfl, rfl, id⟩
  · intro i' other hne hother heq
    exact hne (hinv.distinct i' i other call hother hcall heq)
  · intro sid i'
    simp only [State.setVisitor, State.setSession]
    by_cases hsid : sid = call.sid
    · subst hsid
      rw [Function.update_self]
      refine ⟨by simp, ?_⟩
      rintro ⟨other, hother, heq, -, hpc⟩
      by_cases hi : i' = i
      · subst hi
        rw [Function.update_self, Option.some.injEq] at hother
        exact absurd (hother ▸ rfl) hpc
      · rw [Function.update_of_ne hi] at hother
        exact absurd (hinv.distinct i' i other call hother hcall heq) hi
    · rw [Function.update_of_ne hsid, hinv.sessions sid i']
      by_cases hi : i' = i
      · subst hi
        simp [hcall, Ne.symm hsid]
      · simp [hi]

theorem handleVisitor {s : State Addr} (hinv : Inv md5 text s) {i : Nat}
    {m : NatHoleVisitor} {raddr : Addr} {sid : String}
    (hfresh : sid ∉ s.sids) (hnew : s.visitors i = none) :
    Inv md5 text (handleVisitor md5 s i m raddr sid) := by
  have hdistinct : ∀ i' other, i' ≠ i → s.visitors i' = some other →
      other.sid ≠ sid :=
    fun i' other _ hother heq => hfresh (heq ▸ hinv.generated i' other hother)
  have hext : ∀ call old, s.visitors i = some old →
      VisitorCall.Extends old call := by
    intro call old hold
    simp [hnew] at hold
  have hfree : ∀ i', s.sessions sid ≠ some i' := by
    intro i' hsession
    obtain ⟨other, hother, heq, -⟩ := (hinv.sessions sid i').mp hsession
    exact hfresh (heq ▸ hinv.generated i' other hother)
  -- a refused call leaves the sessions alone
  have hrefuse : ∀ errInfo, errInfo ≠ "" →
      ¬ VisitorCall.Matched md5
        ⟨m, raddr, sid, s.clientCfgs m.proxyName, none, .refused errInfo⟩ →
      Inv md5 text (({ s with sids := sid :: s.sids } : State Addr).setVisitor i
        ⟨m, raddr, sid, s.clientCfgs m.proxyName, none, .refused errInfo⟩) := by
    intro errInfo herr hmatched
    refine hinv.of_visitor i _ rfl rfl rfl rfl rfl
      (fun _ h => List.mem_cons_of_mem _ h) (List.mem_cons_self ..) (hext _)
      hdistinct (by simp) ⟨herr, hmatched⟩ ?_
    intro sid' i'
    simp only [State.setVisitor]
    rw [hinv.sessions sid' i']
    by_cases hi : i' = i
    · subst hi
      simp only [hnew, Function.update_self, Option.some.injEq, exists_eq_left']
      simp [hmatched]
    · simp [hi]
  unfold NatHoleReplies.handleVisitor
  cases hcfg : s.clientCfgs m.proxyName with
  | none =>
      simp only [hcfg] at hrefuse ⊢
      exact hrefuse _ (by simp) (by simp [VisitorCall.Matched])
  | some cfg =>
      simp only [hcfg] at hrefuse ⊢
      by_cases hkey : m.signKey = getAuthKey md5 cfg.sk m.timestamp
      · rw [if_neg (not_not.mpr hkey)]
        have hmatched : ∀ pc, VisitorCall.Matched md5
            (⟨m, raddr, sid, some cfg, none, pc⟩ : VisitorCall Addr) :=
          fun _ => ⟨cfg, rfl, hinv.named m.proxyName cfg hcfg, hkey⟩
        refine hinv.of_visitor i
          ⟨m, raddr, sid, some cfg, none, .offering⟩ rfl rfl rfl rfl
          rfl (fun _ h => List.mem_cons_of_mem _ h) (List.mem_cons_self ..)
          (hext _) hdistinct (by simp) trivial ?_
        intro sid' i'
        simp only [State.setVisitor, State.setSession]
        by_cases hsid : sid' = sid
        · subst hsid
          rw [Function.update_self, Option.some.injEq]
          constructor
          · rintro rfl
            exact ⟨_, Function.update_self .., rfl, hmatched _, by simp⟩
          · rintro ⟨other, hother, heq, -⟩
            by_contra hi
            rw [Function.update_of_ne (Ne.symm hi)] at hother
            exact hdistinct i' other (Ne.symm hi) hother heq
        · rw [Function.update_of_ne hsid, hinv.sessions sid' i']
          by_cases hi : i' = i
          · subst hi
            simp [hnew, Ne.symm hsid]
          · simp [hi]
      · rw [if_pos hkey]
        exact hrefuse _ (by simp) (by simpa [VisitorCall.Matched] using fun _ => hkey)

/-- The calls of `HandleVisitor` and their sessions stay. -/
theorem of_kept {s s' : State Addr} (hinv : Inv md5 text s)
    (hvisitors : s'.visitors = s.visitors) (hsessions : s'.sessions = s.sessions)
    (hsids : s'.sids = s.sids)
    (hnamed : ∀ name cfg, s'.clientCfgs name = some cfg → cfg.name = name)
    (hext : s.Extends s')
    (hclients : ∀ j client, s'.clients j = some client →
      s.clients j = some client ∨ s.AtClient md5 text j client)
    (hworks : ∀ k work, s'.works k = some work →
      s.works k = some work ∨ s.AtWork work)
    (hsent : ∀ sent ∈ s'.sent, sent ∈ s.sent ∨
      s.Reply md5 text sent.receiver sent.raddr sent.resp) :
    Inv md5 text s' := by
  constructor
  case named => exact hnamed
  case generated => exact hvisitors ▸ hsids ▸ hinv.generated
  case distinct => exact hvisitors ▸ hinv.distinct
  case sessions => exact hvisitors ▸ hsessions ▸ hinv.sessions
  case learned =>
    intro i call hcall addr haddr
    exact (hinv.learned i call (hvisitors ▸ hcall) addr haddr).mono hext
  case atVisitor =>
    intro i call hcall
    exact (hinv.atVisitor i call (hvisitors ▸ hcall)).mono hext
  case atClient =>
    intro j client hclient
    obtain hold | hat := hclients j client hclient
    · exact (hinv.atClient j client hold).mono hext
    · exact hat.mono hext
  case atWork =>
    intro k work hwork
    obtain hold | hat := hworks k work hwork
    · exact (hinv.atWork k work hold).mono hext
    · exact hat.mono hext
  case sent =>
    intro sent hmem
    obtain hold | hreply := hsent sent hmem
    · exact (hinv.sent sent hold).mono hext
    · exact hreply.mono hext

theorem setClientCfg {s : State Addr} (hinv : Inv md5 text s) {name : String}
    {cfg : Option ClientCfg} {channels : Nat}
    (hname : ∀ c ∈ cfg, c.name = name) :
    Inv md5 text { s with
      clientCfgs := Function.update s.clientCfgs name cfg
      channels := channels } := by
  refine hinv.of_kept rfl rfl rfl ?_ (.of_eq rfl rfl) (fun _ _ h => .inl h)
    (fun _ _ h => .inl h) (fun _ h => .inl h)
  intro name' cfg' hcfg'
  simp only [Function.update_apply] at hcfg'
  split at hcfg'
  case isTrue heq => exact heq ▸ hname cfg' hcfg'
  case isFalse => exact hinv.named name' cfg' hcfg'

theorem setClient {s : State Addr} (hinv : Inv md5 text s) {j : Nat}
    {client : ClientCall Addr}
    (hext : ∀ old, s.clients j = some old → old.Extends client)
    (hat : s.AtClient md5 text j client) :
    Inv md5 text (s.setClient j client) := by
  refine hinv.of_kept rfl rfl rfl hinv.named (.of_client rfl rfl hext) ?_
    (fun _ _ h => .inl h) (fun _ h => .inl h)
  intro j' other hother
  simp only [State.setClient, Function.update_apply] at hother
  split at hother
  case isTrue hj =>
    subst hj
    exact .inr (Option.some.inj hother ▸ hat)
  case isFalse => exact .inl hother

theorem setWork {s : State Addr} (hinv : Inv md5 text s) {k : Nat} {work : Work}
    (hat : s.AtWork work) : Inv md5 text (s.setWork k work) := by
  refine hinv.of_kept rfl rfl rfl hinv.named (.of_eq rfl rfl) (fun _ _ h => .inl h) ?_
    (fun _ h => .inl h)
  intro k' other hother
  simp only [State.setWork, Function.update_apply] at hother
  split at hother
  case isTrue => exact .inr (Option.some.inj hother ▸ hat)
  case isFalse => exact .inl hother

theorem setBusy {s : State Addr} (hinv : Inv md5 text s) {sidCh : Nat}
    {busy : Bool} : Inv md5 text (s.setBusy sidCh busy) :=
  hinv.of_kept rfl rfl rfl hinv.named (.of_eq rfl rfl) (fun _ _ h => .inl h)
    (fun _ _ h => .inl h) (fun _ h => .inl h)

theorem write {s : State Addr} (hinv : Inv md5 text s) {receiver : Receiver}
    {raddr : Addr} {resp : NatHoleResp}
    (hreply : s.Reply md5 text receiver raddr resp) :
    Inv md5 text (s.write receiver raddr resp) := by
  refine hinv.of_kept rfl rfl rfl hinv.named (.of_eq rfl rfl) (fun _ _ h => .inl h)
    (fun _ _ h => .inl h) ?_
  intro sent hmem
  obtain hmem | hmem := List.mem_append.mp hmem
  · exact .inl hmem
  · exact .inr (List.mem_singleton.mp hmem ▸ hreply)

/-- A call goes on to a later point of its code. -/
theorem setPc {s : State Addr} (hinv : Inv md5 text s) {i : Nat}
    {call : VisitorCall Addr} (hcall : s.visitors i = some call)
    (pc : VisitorPc) (hpc : call.pc ≠ .returned ∧ pc ≠ .returned)
    (hat : s.AtVisitor md5 text i { call with pc := pc }) :
    Inv md5 text (s.setVisitor i { call with pc := pc }) :=
  hinv.setVisitor hcall ⟨rfl, rfl, rfl, rfl, id⟩
    (fun _ => iff_of_false hpc.1 hpc.2) (hinv.learned i call hcall) hat

/-- The response of a notified call is as it should be. -/
theorem reply_visitor {s : State Addr} (hinv : Inv md5 text s) {i : Nat}
    {call : VisitorCall Addr} (hcall : s.visitors i = some call)
    (haddr : call.clientAddr.isSome) :
    s.Reply md5 text (.visitor i) call.raddr
      (genNatHoleResponse text (some call) "") := by
  refine ⟨fun _ => ⟨i, call, hcall, rfl, haddr⟩, fun _ => ?_⟩
  obtain ⟨addr, heq⟩ := Option.isSome_iff_exists.mp haddr
  refine ⟨call, hcall, rfl, rfl, rfl, addr, hinv.learned i call hcall addr heq, ?_⟩
  simp [genNatHoleResponse, addrText, heq]

theorem visitorStep {s s' : State Addr} (hinv : Inv md5 text s) {i : Nat}
    {call : VisitorCall Addr} (hcall : s.visitors i = some call)
    (hstep : visitorStep text s i call = some s') : Inv md5 text s' := by
  have hat := hinv.atVisitor i call hcall
  unfold State.AtVisitor at hat
  unfold NatHoleReplies.visitorStep at hstep
  cases hpc : call.pc with
  | refused errInfo =>
      simp only [hpc, Option.some.injEq] at hat hstep
      subst hstep
      obtain ⟨herr, hmatched⟩ := hat
      have hended : Inv md5 text
          (s.setVisitor i { call with pc := .returned }) :=
        hinv.setVisitor hcall ⟨rfl, rfl, rfl, rfl, id⟩
          (fun h => absurd h hmatched) (hinv.learned i call hcall) trivial
      exact hended.write ⟨fun h => absurd h herr, fun h => absurd h herr⟩
  | notified =>
      simp only [hpc, Option.some.injEq] at hat hstep
      subst hstep
      exact hinv.setPc hcall _ (by simp [hpc]) (hinv.reply_visitor hcall hat)
  | writing resp =>
      simp only [hpc, Option.some.injEq] at hat hstep
      subst hstep
      have hleaving := hinv.setPc hcall .leaving (by simp [hpc]) trivial
      refine hleaving.write (State.Reply.mono ?_ hat)
      exact .setVisitor hcall ⟨rfl, rfl, rfl, rfl, id⟩
  | leaving =>
      simp only [hpc, Option.some.injEq] at hstep
      subst hstep
      exact hinv.leave hcall
  | offering => simp [hpc] at hstep
  | waiting => simp [hpc] at hstep
  | returned => simp [hpc] at hstep

theorem handleClient {s : State Addr} (hinv : Inv md5 text s) {j : Nat}
    {m : NatHoleClient} {raddr : Addr} (hnew : s.clients j = none) :
    Inv md5 text (handleClient s j m raddr) := by
  have hext : ∀ client old, s.clients j = some old →
      ClientCall.Extends old client := by
    intro client old hold
    simp [hnew] at hold
  unfold NatHoleReplies.handleClient
  cases hsession : s.sessions m.sid with
  | none => exact hinv.setClient (hext _) trivial
  | some i =>
      obtain ⟨call, hcall, hsid, hmatched, -⟩ :=
        (hinv.sessions m.sid i).mp hsession
      exact hinv.setClient (hext _) ⟨call, hcall, hsid, hmatched⟩

/-- `session.ClientAddr = raddr`. -/
theorem storeAddr {s : State Addr} (hinv : Inv md5 text s) {i j : Nat}
    {call : VisitorCall Addr} {client : ClientCall Addr}
    (hcall : s.visitors i = some call) (hclient : s.clients j = some client)
    (hsid : call.sid = client.m.sid) :
    Inv md5 text
      (s.setVisitor i { call with clientAddr := some client.raddr }) := by
  refine hinv.setVisitor hcall ⟨rfl, rfl, rfl, rfl, fun _ => rfl⟩
    (fun _ => Iff.rfl) ?_ ?_
  · intro addr haddr
    rw [Option.mem_some_iff] at haddr
    exact ⟨j, client, hclient, hsid.symm, haddr⟩
  · have hat := hinv.atVisitor i call hcall
    unfold State.AtVisitor at hat ⊢
    cases hpc : call.pc <;> simp only [hpc] at hat ⊢
    case notified => rfl
    all_goals exact hat

theorem clientStep {s s' : State Addr} (hinv : Inv md5 text s) {j : Nat}
    {client : ClientCall Addr} (hclient : s.clients j = some client)
    (hstep : clientStep text s j client = some s') : Inv md5 text s' := by
  have hat := hinv.atClient j client hclient
  -- the call goes on with the message and the address it has
  have hext : ∀ pc old, s.clients j = some old →
      ClientCall.Extends old { client with pc := pc } := by
    intro pc old hold
    rw [hclient, Option.some.injEq] at hold
    exact hold ▸ ⟨rfl, rfl⟩
  unfold State.AtClient at hat
  unfold NatHoleReplies.clientStep at hstep
  cases hpc : client.pc with
  | found i =>
      simp only [hpc] at hat hstep
      obtain ⟨call, hcall, hsid, hmatched⟩ := hat
      simp only [hcall, Option.map_some, Option.some.injEq] at hstep
      subst hstep
      refine (hinv.storeAddr hcall hclient hsid).setClient (hext _) ?_
      exact ⟨{ call with clientAddr := some client.raddr },
        Function.update_self .., hsid, hmatched, rfl⟩
  | stored i =>
      simp only [hpc, Option.some.injEq] at hat hstep
      obtain ⟨call, hcall, hsid, hmatched, haddr⟩ := hat
      subst hstep
      rw [hcall]
      refine hinv.setClient (hext _) ⟨fun _ => ⟨i, call, hcall, rfl, haddr⟩, ?_⟩
      exact ⟨client, i, call, hclient, hcall, rfl, hsid, hmatched, rfl, rfl⟩
  | writing resp =>
      simp only [hpc, Option.some.injEq] at hat hstep
      subst hstep
      have hended := hinv.setClient (hext .returned) trivial
      refine hended.write (State.Reply.mono ?_ hat)
      exact .setClient hclient ⟨rfl, rfl⟩
  | returned => simp [hpc] at hstep

theorem handOver {s s' : State Addr} (hinv : Inv md5 text s) {i k : Nat}
    {call : VisitorCall Addr} (hcall : s.visitors i = some call)
    (hstep : handOver s i k call = some s') : Inv md5 text s' := by
  unfold NatHoleReplies.handOver at hstep
  cases hcfg : call.clientCfg with
  | none => simp [hcfg] at hstep
  | some cfg =>
      simp only [hcfg, Option.ite_none_right_eq_some, Option.some.injEq] at hstep
      obtain ⟨⟨hpc, -, -⟩, rfl⟩ := hstep
      have hwaiting := hinv.setPc hcall .waiting (by simp [hpc]) trivial
      simp only [hcfg] at hwaiting
      refine (hwaiting.setWork ?_).setBusy
      exact ⟨_, Function.update_self .., by simp⟩

theorem notify {s : State Addr} (hinv : Inv md5 text s) {k : Nat} {work : Work}
    (hwork : s.works k = some work) (hpc : work.pc = .detected) :
    Inv md5 text (notify s k work) := by
  obtain ⟨call, hcall, haddr⟩ := hinv.atWork k work hwork
  have hdone : Inv md5 text (s.setWork k { work with pc := .done }) :=
    hinv.setWork ⟨call, hcall, by simp⟩
  have hcall' : (s.setWork k { work with pc := .done }).visitors work.visitor =
      some call := hcall
  unfold NatHoleReplies.notify
  simp only [hcall']
  split
  case isTrue hwaiting =>
    exact hdone.setPc hcall' .notified (by simp [hwaiting]) (haddr (.inr hpc))
  case isFalse => exact hdone

/-- The client goes on when it has been told of the session, and a response that
tells of it is only written once the session has its address. -/
theorem answer {s s' : State Addr} (hinv : Inv md5 text s) {k n : Nat}
    (hassumed : Assumed s (.answer k n))
    (hstep : step md5 text s (.answer k n) = some s') : Inv md5 text s' := by
  simp only [NatHoleReplies.step] at hstep
  cases hwork : s.works k with
  | none => simp [hwork] at hstep
  | some work =>
      cases hsent : s.sent[n]? with
      | none => simp [hwork, hsent] at hstep
      | some sent =>
          simp only [hwork, hsent, Option.ite_none_right_eq_some,
            Option.some.injEq] at hstep
          obtain ⟨⟨-, herror⟩, rfl⟩ := hstep
          obtain ⟨call, hcall, -⟩ := hinv.atWork k work hwork
          have hsid : sent.resp.sid = call.sid :=
            hassumed work hwork call hcall sent hsent
          have haddressed := (hinv.sent sent (List.mem_of_getElem? hsent)).1 herror
          exact hinv.setWork ⟨call, hcall, fun _ =>
            hinv.addressed_call hcall hsid.symm haddressed⟩

theorem step {s s' : State Addr} (hinv : Inv md5 text s) {action : Action Addr}
    (hassumed : Assumed s action)
    (hstep : step md5 text s action = some s') : Inv md5 text s' := by
  cases action with
  | listenClient name sk =>
      obtain rfl := Option.some.inj hstep
      exact hinv.setClientCfg (by simp)
  | closeClient name =>
      obtain rfl := Option.some.inj hstep
      exact hinv.setClientCfg (by simp)
  | visitor i m raddr sid =>
      simp only [NatHoleReplies.step, Option.ite_none_right_eq_some,
        Option.isNone_iff_eq_none, Option.some.injEq] at hstep
      obtain ⟨hnew, rfl⟩ := hstep
      exact hinv.handleVisitor hassumed hnew
  | visitorStep i =>
      obtain ⟨call, hcall, hnext⟩ := Option.bind_eq_some_iff.mp hstep
      exact hinv.visitorStep hcall hnext
  | timeout i =>
      simp only [NatHoleReplies.step] at hstep
      cases hcall : s.visitors i with
      | none => simp [hcall] at hstep
      | some call =>
          simp only [hcall, Option.ite_none_right_eq_some,
            Option.some.injEq] at hstep
          obtain ⟨hwaiting, rfl⟩ := hstep
          exact hinv.setPc hcall .leaving (by simp [hwaiting]) trivial
  | handOver i k =>
      obtain ⟨call, hcall, hnext⟩ := Option.bind_eq_some_iff.mp hstep
      exact hinv.handOver hcall hnext
  | workConn k ok =>
      simp only [NatHoleReplies.step] at hstep
      cases hwork : s.works k with
      | none => simp [hwork] at hstep
      | some work =>
          simp only [hwork, Option.ite_none_right_eq_some,
            Option.some.injEq] at hstep
          obtain ⟨-, rfl⟩ := hstep
          obtain ⟨call, hcall, -⟩ := hinv.atWork k work hwork
          have hat : s.AtWork
              { work with pc := if ok then .sidWritten else .done } :=
            ⟨call, hcall, by cases ok <;> simp⟩
          exact (hinv.setWork hat).setBusy
  | answer k n => exact hinv.answer hassumed hstep
  | detectOK k =>
      simp only [NatHoleReplies.step] at hstep
      cases hwork : s.works k with
      | none => simp [hwork] at hstep
      | some work =>
          simp only [hwork, Option.ite_none_right_eq_some,
            Option.some.injEq] at hstep
          obtain ⟨hanswered, rfl⟩ := hstep
          obtain ⟨call, hcall, haddr⟩ := hinv.atWork k work hwork
          exact hinv.setWork ⟨call, hcall, fun _ => haddr (.inl hanswered)⟩
  | notify k =>
      simp only [NatHoleReplies.step] at hstep
      cases hwork : s.works k with
      | none => simp [hwork] at hstep
      | some work =>
          simp only [hwork, Option.ite_none_right_eq_some,
            Option.some.injEq] at hstep
          obtain ⟨hdetected, rfl⟩ := hstep
          exact hinv.notify hwork hdetected
  | client j m raddr =>
      simp only [NatHoleReplies.step, Option.ite_none_right_eq_some,
        Option.isNone_iff_eq_none, Option.some.injEq] at hstep
      obtain ⟨hnew, rfl⟩ := hstep
      exact hinv.handleClient hnew
  | clientStep j =>
      obtain ⟨client, hclient, hnext⟩ := Option.bind_eq_some_iff.mp hstep
      exact hinv.clientStep hclient hnext

theorem consistent {s : State Addr} (hinv : Inv md5 text s) :
    s.Consistent md5 text := by
  constructor
  case sessions =>
    intro sid
    simp only [Option.isSome_iff_exists, hinv.sessions]
  case toVisitor =>
    intro i sent hmem hreceiver
    have hreply := (hinv.sent sent hmem).2
    rw [hreceiver] at hreply
    exact hreply
  case toClient =>
    intro j sent hmem hreceiver
    have hreply := (hinv.sent sent hmem).2
    rw [hreceiver] at hreply
    exact hreply

end Inv

end Invariant

/-- For every order, duplication and loss of datagrams. -/
theorem replies_consistent {word : List (Action Addr)} {s : State Addr}
    (hrun : (system md5 text).Run Assumed word s) : s.Consistent md5 text :=
  (hrun.invariant (I := Inv md5 text) Inv.init
    fun _ _ _ hinv hassumed hstep => hinv.step hassumed hstep).consistent

/-- The hash of `secret0`. -/
def digest : String → List UInt8 := fun _ =>
  [23, 94, 199, 122, 127, 99, 8, 37,
    144, 152, 125, 13, 139, 5, 26, 255]

/-- `UDPAddr.String` of an IPv4 address. -/
def udpAddr (addr : String × Nat) : String :=
  addr.1 ++ ":" ++ toString addr.2

/-- A visitor without the key is refused; the one with the key is told of the
client, whose datagram came twice. -/
def exchange : List (Action (String × Nat)) :=
  [.listenClient "p2p" "secret",
    .visitor 0 ⟨"p2p", "175ec77a7f63082590987d0d8b051aff", 0⟩
      ("203.0.113.5", 4000) "1a",
    .visitor 1 ⟨"p2p", "", 0⟩ ("192.0.2.9", 9) "2b", .visitorStep 1,
    .handOver 0 0, .workConn 0 true,
    .client 0 ⟨"p2p", "1a"⟩ ("198.51.100.7", 5000), .clientStep 0,
    .client 1 ⟨"p2p", "1a"⟩ ("198.51.100.7", 5000), .clientStep 0, .clientStep 0,
    .answer 0 1, .detectOK 0, .notify 0, .visitorStep 0, .visitorStep 0,
    .visitorStep 0, .clientStep 1, .clientStep 1, .clientStep 1]

theorem replies_consistent_exchange :
    ∃ s, (system digest udpAddr).Run Assumed exchange s ∧
      (s.sent.map fun sent => (sent.receiver, sent.resp)) =
        [(.visitor 1, ⟨"", "", "", "xtcp connection of [p2p] auth failed"⟩),
          (.client 0, ⟨"1a", "203.0.113.5:4000", "198.51.100.7:5000", ""⟩),
          (.visitor 0, ⟨"1a", "203.0.113.5:4000", "198.51.100.7:5000", ""⟩),
          (.client 1, ⟨"1a", "203.0.113.5:4000", "198.51.100.7:5000", ""⟩)] ∧
      s.Consistent digest udpAddr := by
  obtain ⟨s, hrun, hsent⟩ :
      ∃ s, (system digest udpAddr).Run Assumed exchange s ∧
        (s.sent.map fun sent => (sent.receiver, sent.resp)) =
          [(.visitor 1, ⟨"", "", "", "xtcp connection of [p2p] auth failed"⟩),
            (.client 0, ⟨"1a", "203.0.113.5:4000", "198.51.100.7:5000", ""⟩),
            (.visitor 0, ⟨"1a", "203.0.113.5:4000", "198.51.100.7:5000", ""⟩),
            (.client 1, ⟨"1a", "203.0.113.5:4000", "198.51.100.7:5000", ""⟩)] :=
    System.exists_run_of_replay (by decide)
  exact ⟨s, hrun, hsent, replies_consistent digest udpAddr hrun⟩

end NatHoleReplies

end Frp

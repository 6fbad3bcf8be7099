/-
What one step of the NAT-hole Controller does to its calls, to the requests of its
proxies and to the responses that it has sent.
-/
import Frp.Server.NatHoleReplies

namespace Frp

namespace NatHoleReplies

variable {Addr : Type} {md5 : String → List UInt8} {text : Addr → String}
  {c c' : State Addr} {action : Action Addr}

/-- How a call of `HandleVisitor` goes on. -/
structure Moves (text : Addr → String) (c : State Addr) (i : Nat)
    (call call' : VisitorCall Addr) : Prop where
  ext : call.Extends call'
  clientAddr : call'.clientAddr = call.clientAddr ∨
    ∃ j client, c.clients j = some client ∧ client.pc = .found i ∧
      call'.clientAddr = some client.raddr
  offering : call'.pc = .offering → call.pc = .offering
  writing : ∀ resp, call'.pc = .writing resp → call.pc = .writing resp ∨
    call.pc = .notified ∧ resp = genNatHoleResponse text (some call) ""

theorem Moves.rfl (i : Nat) (call : VisitorCall Addr) : Moves text c i call call :=
  ⟨.rfl call, .inl (Eq.refl _), id, fun _ => .inl⟩

/-- Only the point of the code changes. -/
theorem Moves.setPc {i : Nat} {call : VisitorCall Addr} (pc : VisitorPc)
    (hoffering : pc ≠ .offering)
    (hwriting : ∀ resp, pc = .writing resp → call.pc = .notified ∧
      resp = genNatHoleResponse text (some call) "") :
    Moves text c i call { call with pc := pc } :=
  ⟨⟨Eq.refl _, Eq.refl _, Eq.refl _, Eq.refl _, id⟩, .inl (Eq.refl _),
    fun h => absurd h hoffering, fun resp h => .inr (hwriting resp h)⟩

/-- How a call of `HandleVisitor` begins. -/
structure Begins (md5 : String → List UInt8) (c : State Addr)
    (msg : NatHoleVisitor) (addr : Addr) (sid' : String)
    (call : VisitorCall Addr) : Prop where
  m : call.m = msg
  raddr : call.raddr = addr
  sid : call.sid = sid'
  clientCfg : call.clientCfg = c.clientCfgs msg.proxyName
  clientAddr : call.clientAddr = none
  pc : (∃ errInfo, call.pc = .refused errInfo) ∨ call.pc = .offering ∧
    ∃ cfg ∈ call.clientCfg, msg.signKey = getAuthKey md5 cfg.sk msg.timestamp

/-- A map of calls changes at `i` only. -/
theorem update_eq_some {B : Type} {f : Nat → Option B} {i i' : Nat} {b b' : B}
    (hupdate : Function.update f i (some b) i' = some b') :
    i' = i ∧ b' = b ∨ f i' = some b' := by
  by_cases hi : i' = i
  · subst hi
    rw [Function.update_self, Option.some.injEq] at hupdate
    exact .inl ⟨rfl, hupdate.symm⟩
  · rw [Function.update_of_ne hi] at hupdate
    exact .inr hupdate

/-- A call goes on in `c'`, and the others stay. -/
theorem moves_of_update {i : Nat} {old new : VisitorCall Addr}
    (hold : c.visitors i = some old) (hmoves : Moves text c i old new)
    (hvisitors : c'.visitors = Function.update c.visitors i (some new))
    {i' : Nat} {call' : VisitorCall Addr} (hcall' : c'.visitors i' = some call') :
    ∃ call, c.visitors i' = some call ∧ Moves text c i' call call' := by
  rw [hvisitors] at hcall'
  obtain ⟨rfl, rfl⟩ | hsame := update_eq_some hcall'
  · exact ⟨old, hold, hmoves⟩
  · exact ⟨call', hsame, .rfl i' call'⟩

theorem begins_handleVisitor (md5 : String → List UInt8) (c : State Addr) (i : Nat)
    (m : NatHoleVisitor) (raddr : Addr) (sid : String) : ∃ call, Begins md5 c m raddr sid call ∧
      (handleVisitor md5 c i m raddr sid).visitors =
        Function.update c.visitors i (some call) := by
  unfold handleVisitor
  cases hcfg : c.clientCfgs m.proxyName with
  | none =>
      simp only [hcfg]
      exact ⟨_, ⟨rfl, rfl, rfl, hcfg.symm, rfl, .inl ⟨_, rfl⟩⟩, rfl⟩
  | some cfg =>
      simp only [hcfg]
      by_cases hkey : m.signKey = getAuthKey md5 cfg.sk m.timestamp
      · rw [if_neg (not_not.mpr hkey)]
        exact ⟨_, ⟨rfl, rfl, rfl, hcfg.symm, rfl, .inr ⟨rfl, cfg, rfl, hkey⟩⟩, rfl⟩
      · rw [if_pos hkey]
        exact ⟨_, ⟨rfl, rfl, rfl, hcfg.symm, rfl, .inl ⟨_, rfl⟩⟩, rfl⟩

/-- A request is taken by the proxy that the call has found. -/
theorem handOver_eq_some {i k : Nat} {call : VisitorCall Addr}
    (hstep : handOver c i k call = some c') :
    ∃ cfg ∈ call.clientCfg, call.pc = .offering ∧ c.works k = none ∧
      c' = ((c.setVisitor i { call with pc := .waiting }).setWork k
        ⟨i, cfg.sidCh, .requested⟩).setBusy cfg.sidCh true := by
  unfold handOver at hstep
  cases hcfg : call.clientCfg with
  | none => simp [hcfg] at hstep
  | some cfg =>
      simp only [hcfg, Option.ite_none_right_eq_some, Option.some.injEq,
        Option.isNone_iff_eq_none] at hstep
      obtain ⟨⟨hpc, -, hfree⟩, rfl⟩ := hstep
      exact ⟨cfg, rfl, hpc, hfree, rfl⟩

/-- How a call of `HandleClient` begins. -/
structure Enters (c : State Addr) (msg : NatHoleClient) (addr : Addr)
    (client : ClientCall Addr) : Prop where
  m : client.m = msg
  raddr : client.raddr = addr
  pc : c.sessions msg.sid = none → client.pc = .returned

/-- What a call is about to write. -/
def Writes (c : State Addr) (sent : Sent Addr) : Prop :=
  (∃ i call, c.visitors i = some call ∧ sent.receiver = .visitor i ∧
    (call.pc = .writing sent.resp ∨
      ∃ errInfo, call.pc = .refused errInfo ∧ sent.resp.error = errInfo)) ∨
  ∃ j client, c.clients j = some client ∧ sent.receiver = .client j

/-- What a step may do. -/
structure Does (md5 : String → List UInt8) (text : Addr → String) (c : State Addr)
    (action : Action Addr) (c' : State Addr) : Prop where
  visitors : ∀ i call', c'.visitors i = some call' →
    (∃ call, c.visitors i = some call ∧ Moves text c i call call') ∨
      ∃ m raddr sid, action = .visitor i m raddr sid ∧ c.visitors i = none ∧
        Begins md5 c m raddr sid call'
  clients : ∀ j client', c'.clients j = some client' →
    (∃ client, c.clients j = some client ∧ client.Extends client' ∧
      (client.pc = .returned → client'.pc = .returned)) ∨
      ∃ m raddr, action = .client j m raddr ∧ Enters c m raddr client'
  works : ∀ k work', c'.works k = some work' →
    (∃ work, c.works k = some work ∧ work'.visitor = work.visitor ∧
      work'.sidCh = work.sidCh) ∨
      ∃ call cfg, action = .handOver work'.visitor k ∧ c.works k = none ∧
        c.visitors work'.visitor = some call ∧ call.pc = .offering ∧
        cfg ∈ call.clientCfg ∧ cfg.sidCh = work'.sidCh ∧
        c'.visitors work'.visitor = some { call with pc := .waiting }
  sent : ∀ sent ∈ c'.sent, sent ∈ c.sent ∨ Writes c sent
  visitorsKept : ∀ i, (c.visitors i).isSome → (c'.visitors i).isSome
  worksKept : ∀ k, (c.works k).isSome → (c'.works k).isSome
  sids : c'.sids = c.sids ∨
    ∃ i m raddr sid, action = .visitor i m raddr sid ∧ c'.sids = sid :: c.sids

theorem isSome_update {B : Type} {f g : Nat → Option B} {i : Nat} {b : B}
    (hg : g = Function.update f i (some b)) (n : Nat) (hsome : (f n).isSome) :
    (g n).isSome := by
  rw [hg]
  by_cases hn : n = i
  · subst hn
    simp
  · rwa [Function.update_of_ne hn]

section Kept

theorem visitors_kept (hvisitors : c'.visitors = c.visitors) (i : Nat)
    (call' : VisitorCall Addr) (hcall' : c'.visitors i = some call') :
    (∃ call, c.visitors i = some call ∧ Moves text c i call call') ∨
      ∃ m raddr sid, action = .visitor i m raddr sid ∧ c.visitors i = none ∧
        Begins md5 c m raddr sid call' :=
  .inl ⟨call', hvisitors ▸ hcall', .rfl i call'⟩

theorem clients_kept (hclients : c'.clients = c.clients) (j : Nat)
    (client' : ClientCall Addr) (hclient' : c'.clients j = some client') :
    (∃ client, c.clients j = some client ∧ client.Extends client' ∧
      (client.pc = .returned → client'.pc = .returned)) ∨
      ∃ m raddr, action = .client j m raddr ∧ Enters c m raddr client' :=
  .inl ⟨client', hclients ▸ hclient', .rfl client', id⟩

theorem works_kept (hworks : c'.works = c.works) (k : Nat) (work' : Work)
    (hwork' : c'.works k = some work') :
    (∃ work, c.works k = some work ∧ work'.visitor = work.visitor ∧
      work'.sidCh = work.sidCh) ∨
      ∃ call cfg, action = .handOver work'.visitor k ∧ c.works k = none ∧
        c.visitors work'.visitor = some call ∧ call.pc = .offering ∧
        cfg ∈ call.clientCfg ∧ cfg.sidCh = work'.sidCh ∧
        c'.visitors work'.visitor = some { call with pc := .waiting } :=
  .inl ⟨work', hworks ▸ hwork', rfl, rfl⟩

theorem sent_kept (hsent : c'.sent = c.sent) (sent : Sent Addr)
    (hmem : sent ∈ c'.sent) : sent ∈ c.sent ∨ Writes c sent :=
  .inl (hsent ▸ hmem)

end Kept

namespace Does

/-- The Controller's maps stay. -/
theorem of_kept (hvisitors : c'.visitors = c.visitors)
    (hclients : c'.clients = c.clients) (hworks : c'.works = c.works)
    (hsent : c'.sent = c.sent) (hsids : c'.sids = c.sids) :
    Does md5 text c action c' :=
  ⟨visitors_kept hvisitors, clients_kept hclients, works_kept hworks,
    sent_kept hsent, fun _ h => hvisitors ▸ h, fun _ h => hworks ▸ h, .inl hsids⟩

/-- A call of `HandleVisitor` goes on, and may write. -/
theorem of_moves {i : Nat} {old new : VisitorCall Addr}
    (hold : c.visitors i = some old) (hmoves : Moves text c i old new)
    (hvisitors : c'.visitors = Function.update c.visitors i (some new))
    (hclients : c'.clients = c.clients) (hworks : c'.works = c.works)
    (hsent : ∀ sent ∈ c'.sent, sent ∈ c.sent ∨ Writes c sent)
    (hsids : c'.sids = c.sids) : Does md5 text c action c' :=
  ⟨fun _ _ hcall' => .inl (moves_of_update hold hmoves hvisitors hcall'),
    clients_kept hclients, works_kept hworks, hsent, isSome_update hvisitors,
    fun _ h => hworks ▸ h, .inl hsids⟩

/-- The request of a work connection goes on. -/
theorem of_work {k : Nat} {old : Work} (pc : WorkPc) (hold : c.works k = some old)
    (hworks : c'.works = Function.update c.works k (some { old with pc := pc }))
    (hvisitors : ∀ i call', c'.visitors i = some call' →
      ∃ call, c.visitors i = some call ∧ Moves text c i call call')
    (hkept : ∀ i, (c.visitors i).isSome → (c'.visitors i).isSome)
    (hclients : c'.clients = c.clients) (hsent : c'.sent = c.sent)
    (hsids : c'.sids = c.sids) : Does md5 text c action c' := by
  refine ⟨fun i call' hcall' => .inl (hvisitors i call' hcall'),
    clients_kept hclients, ?_, sent_kept hsent, hkept, isSome_update hworks,
    .inl hsids⟩
  intro k' work' hwork'
  rw [hworks] at hwork'
  obtain ⟨rfl, rfl⟩ | hsame := update_eq_some hwork'
  · exact .inl ⟨old, hold, rfl, rfl⟩
  · exact .inl ⟨work', hsame, rfl, rfl⟩

/-- A call of `HandleClient` begins or goes on. -/
theorem of_client {j : Nat} {new : ClientCall Addr}
    (hclients : c'.clients = Function.update c.clients j (some new))
    (hnew : (∃ old, c.clients j = some old ∧ old.Extends new ∧
        (old.pc = .returned → new.pc = .returned)) ∨
      ∃ m raddr, action = .client j m raddr ∧ Enters c m raddr new)
    (hvisitors : ∀ i call', c'.visitors i = some call' →
      ∃ call, c.visitors i = some call ∧ Moves text c i call call')
    (hkept : ∀ i, (c.visitors i).isSome → (c'.visitors i).isSome)
    (hworks : c'.works = c.works)
    (hsent : ∀ sent ∈ c'.sent, sent ∈ c.sent ∨ Writes c sent)
    (hsids : c'.sids = c.sids) : Does md5 text c action c' := by
  refine ⟨fun i call' hcall' => .inl (hvisitors i call' hcall'), ?_,
    works_kept hworks, hsent, hkept, fun _ h => hworks ▸ h, .inl hsids⟩
  intro j' client' hclient'
  rw [hclients] at hclient'
  obtain ⟨rfl, rfl⟩ | hsame := update_eq_some hclient'
  · exact hnew
  · exact .inl ⟨client', hsame, .rfl client', id⟩

theorem handleVisitor {i : Nat} {m : NatHoleVisitor} {raddr : Addr} {sid : String}
    (hnew : c.visitors i = none) :
    Does md5 text c (.visitor i m raddr sid) (handleVisitor md5 c i m raddr sid) := by
  obtain ⟨call, hbegins, hvisitors⟩ :=
    begins_handleVisitor md5 c i m raddr sid
  have hothers : (NatHoleReplies.handleVisitor md5 c i m raddr sid).clients =
        c.clients ∧
      (NatHoleReplies.handleVisitor md5 c i m raddr sid).works = c.works ∧
      (NatHoleReplies.handleVisitor md5 c i m raddr sid).sent = c.sent ∧
      (NatHoleReplies.handleVisitor md5 c i m raddr sid).sids = sid :: c.sids := by
    unfold NatHoleReplies.handleVisitor
    dsimp only
    split
    · exact ⟨rfl, rfl, rfl, rfl⟩
    · split <;> exact ⟨rfl, rfl, rfl, rfl⟩
  obtain ⟨hclients, hworks, hsent, hsids⟩ := hothers
  refine ⟨fun i' call' hcall' => ?_, clients_kept hclients, works_kept hworks,
    sent_kept hsent, isSome_update hvisitors, fun _ h => hworks ▸ h,
    .inr ⟨i, m, raddr, sid, rfl, hsids⟩⟩
  rw [hvisitors] at hcall'
  obtain ⟨rfl, rfl⟩ | hsame := update_eq_some hcall'
  · exact .inr ⟨m, raddr, sid, rfl, hnew, hbegins⟩
  · exact .inl ⟨call', hsame, .rfl i' call'⟩

theorem visitorStep {i : Nat} {old : VisitorCall Addr}
    (hold : c.visitors i = some old) (hstep : visitorStep text c i old = some c') :
    Does md5 text c action c' := by
  have happend {resp : NatHoleResp} (hwrites : Writes c
      ⟨.visitor i, old.raddr, resp⟩) (sent : Sent Addr)
      (hmem : sent ∈ c.sent ++ [⟨.visitor i, old.raddr, resp⟩]) :
      sent ∈ c.sent ∨ Writes c sent := by
    obtain hmem | hmem := List.mem_append.mp hmem
    · exact .inl hmem
    · exact .inr (List.mem_singleton.mp hmem ▸ hwrites)
  unfold NatHoleReplies.visitorStep at hstep
  cases hpc : old.pc with
  | refused errInfo =>
      simp only [hpc, Option.some.injEq] at hstep
      subst hstep
      exact of_moves hold (.setPc .returned (by simp) (by simp)) rfl rfl rfl
        (happend (.inl ⟨i, old, hold, rfl, .inr ⟨errInfo, hpc, rfl⟩⟩)) rfl
  | notified =>
      simp only [hpc, Option.some.injEq] at hstep
      subst hstep
      exact of_moves hold (.setPc _ (by simp) (by simp [hpc])) rfl rfl rfl
        (sent_kept rfl) rfl
  | writing resp =>
      simp only [hpc, Option.some.injEq] at hstep
      subst hstep
      exact of_moves hold (.setPc .leaving (by simp) (by simp)) rfl rfl rfl
        (happend (.inl ⟨i, old, hold, rfl, .inl hpc⟩)) rfl
  | leaving =>
      simp only [hpc, Option.some.injEq] at hstep
      subst hstep
      exact of_moves hold (.setPc .returned (by simp) (by simp)) rfl rfl rfl
        (sent_kept rfl) rfl
  | offering => simp [hpc] at hstep
  | waiting => simp [hpc] at hstep
  | returned => simp [hpc] at hstep

theorem handOver {i k : Nat} {old : VisitorCall Addr}
    (hold : c.visitors i = some old) (hstep : handOver c i k old = some c') :
    Does md5 text c (.handOver i k) c' := by
  obtain ⟨cfg, hcfg, hpc, hfree, rfl⟩ := handOver_eq_some hstep
  refine ⟨fun i' call' hcall' => .inl (moves_of_update hold
    (.setPc .waiting (by simp) (by simp)) rfl hcall'), clients_kept rfl,
    fun k' work' hwork' => ?_, sent_kept rfl, isSome_update rfl, isSome_update rfl,
    .inl rfl⟩
  obtain ⟨rfl, rfl⟩ | hsame := update_eq_some hwork'
  · exact .inr ⟨old, cfg, rfl, hfree, hold, hpc, hcfg, rfl,
      Function.update_self ..⟩
  · exact .inl ⟨work', hsame, rfl, rfl⟩

theorem notify {k : Nat} {work : Work} (hwork : c.works k = some work) :
    Does md5 text c action (notify c k work) := by
  unfold NatHoleReplies.notify
  dsimp only
  cases hcall : (c.setWork k { work with pc := .done }).visitors work.visitor with
  | none =>
      exact of_work .done hwork rfl (fun i call' h => ⟨call', h, .rfl i call'⟩)
        (fun _ h => h) rfl rfl rfl
  | some call =>
      have hcall : c.visitors work.visitor = some call := hcall
      dsimp only
      split
      · have hmoves : Moves text c work.visitor call { call with pc := .notified } :=
          .setPc _ (by simp) (by simp)
        exact of_work .done hwork rfl (fun _ _ h => moves_of_update hcall hmoves rfl h)
          (isSome_update rfl) rfl rfl rfl
      · exact of_work .done hwork rfl (fun i call' h => ⟨call', h, .rfl i call'⟩)
          (fun _ h => h) rfl rfl rfl

theorem handleClient {j : Nat} {m : NatHoleClient} {raddr : Addr} :
    Does md5 text c (.client j m raddr) (handleClient c j m raddr) := by
  unfold NatHoleReplies.handleClient
  cases hsession : c.sessions m.sid with
  | none =>
      exact of_client rfl (.inr ⟨m, raddr, rfl, rfl, rfl, fun _ => rfl⟩)
        (fun i call' h => ⟨call', h, .rfl i call'⟩) (fun _ h => h) rfl (sent_kept rfl)
        rfl
  | some i =>
      exact of_client rfl
        (.inr ⟨m, raddr, rfl, rfl, rfl, fun h => by simp [hsession] at h⟩)
        (fun i call' h => ⟨call', h, .rfl i call'⟩) (fun _ h => h) rfl (sent_kept rfl)
        rfl

theorem clientStep {j : Nat} {old : ClientCall Addr} (hold : c.clients j = some old)
    (hstep : clientStep text c j old = some c') : Does md5 text c action c' := by
  unfold NatHoleReplies.clientStep at hstep
  cases hpc : old.pc with
  | found i =>
      simp only [hpc, Option.map_eq_some_iff] at hstep
      obtain ⟨session, hsession, rfl⟩ := hstep
      have hmoves : Moves text c i session
          { session with clientAddr := some old.raddr } :=
        ⟨⟨rfl, rfl, rfl, rfl, fun _ => rfl⟩, .inr ⟨j, old, hold, hpc, rfl⟩,
          id, fun _ => .inl⟩
      exact of_client rfl (.inl ⟨old, hold, ⟨rfl, rfl⟩, by simp [hpc]⟩)
        (fun _ _ h => moves_of_update hsession hmoves rfl h) (isSome_update rfl) rfl
        (sent_kept rfl) rfl
  | stored i =>
      simp only [hpc, Option.some.injEq] at hstep
      subst hstep
      exact of_client rfl (.inl ⟨old, hold, ⟨rfl, rfl⟩, by simp [hpc]⟩)
        (fun i call' h => ⟨call', h, .rfl i call'⟩) (fun _ h => h) rfl (sent_kept rfl)
        rfl
  | writing resp =>
      simp only [hpc, Option.some.injEq] at hstep
      subst hstep
      refine of_client rfl (.inl ⟨old, hold, ⟨rfl, rfl⟩, fun _ => rfl⟩)
        (fun i call' h => ⟨call', h, .rfl i call'⟩) (fun _ h => h) rfl
        (fun sent hmem => ?_) rfl
      obtain hmem | hmem := List.mem_append.mp hmem
      · exact .inl hmem
      · obtain rfl := List.mem_singleton.mp hmem
        exact .inr (.inr ⟨j, old, hold, rfl⟩)
  | returned => simp [hpc] at hstep

end Does

theorem does_of_step (hstep : step md5 text c action = some c') :
    Does md5 text c action c' := by
  have hsame (i : Nat) (call' : VisitorCall Addr) (h : c.visitors i = some call') :
      ∃ call, c.visitors i = some call ∧ Moves text c i call call' :=
    ⟨call', h, .rfl i call'⟩
  cases action with
  | listenClient name sk =>
      obtain rfl := Option.some.inj hstep
      exact .of_kept rfl rfl rfl rfl rfl
  | closeClient name =>
      obtain rfl := Option.some.inj hstep
      exact .of_kept rfl rfl rfl rfl rfl
  | visitor i m raddr sid =>
      simp only [step, Option.ite_none_right_eq_some, Option.isNone_iff_eq_none,
        Option.some.injEq] at hstep
      obtain ⟨hnew, rfl⟩ := hstep
      exact .handleVisitor hnew
  | visitorStep i =>
      obtain ⟨old, hold, hnext⟩ := Option.bind_eq_some_iff.mp hstep
      exact .visitorStep hold hnext
  | timeout i =>
      simp only [step] at hstep
      cases hold : c.visitors i with
      | none => simp [hold] at hstep
      | some old =>
          simp only [hold, Option.ite_none_right_eq_some, Option.some.injEq] at hstep
          obtain ⟨-, rfl⟩ := hstep
          exact .of_moves hold (.setPc .leaving (by simp) (by simp)) rfl rfl
            rfl (sent_kept rfl) rfl
  | handOver i k =>
      obtain ⟨old, hold, hnext⟩ := Option.bind_eq_some_iff.mp hstep
      exact .handOver hold hnext
  | workConn k ok =>
      simp only [step] at hstep
      cases hwork : c.works k with
      | none => simp [hwork] at hstep
      | some work =>
          simp only [hwork, Option.ite_none_right_eq_some, Option.some.injEq] at hstep
          obtain ⟨-, rfl⟩ := hstep
          exact .of_work _ hwork rfl hsame (fun _ h => h) rfl rfl rfl
  | answer k n =>
      simp only [step] at hstep
      cases hwork : c.works k with
      | none => simp [hwork] at hstep
      | some work =>
          cases hsent : c.sent[n]? with
          | none => simp [hwork, hsent] at hstep
          | some sent =>
              simp only [hwork, hsent, Option.ite_none_right_eq_some,
                Option.some.injEq] at hstep
              obtain ⟨-, rfl⟩ := hstep
              exact .of_work _ hwork rfl hsame (fun _ h => h) rfl rfl rfl
  | detectOK k =>
      simp only [step] at hstep
      cases hwork : c.works k with
      | none => simp [hwork] at hstep
      | some work =>
          simp only [hwork, Option.ite_none_right_eq_some, Option.some.injEq] at hstep
          obtain ⟨-, rfl⟩ := hstep
          exact .of_work _ hwork rfl hsame (fun _ h => h) rfl rfl rfl
  | notify k =>
      simp only [step] at hstep
      cases hwork : c.works k with
      | none => simp [hwork] at hstep
      | some work =>
          simp only [hwork, Option.ite_none_right_eq_some, Option.some.injEq] at hstep
          obtain ⟨-, rfl⟩ := hstep
          exact .notify hwork
  | client j m raddr =>
      simp only [step, Option.ite_none_right_eq_some, Option.isNone_iff_eq_none,
        Option.some.injEq] at hstep
      obtain ⟨-, rfl⟩ := hstep
      exact .handleClient
  | clientStep j =>
      obtain ⟨client, hclient, hnext⟩ := Option.bind_eq_some_iff.mp hstep
      exact .clientStep hclient hnext

section Served

variable {met met' : Nat → Addr → Prop}

/-- The response names an address that the call of its visitor has met. -/
def Reached (text : Addr → String) (met : Nat → Addr → Prop) (i : Nat)
    (resp : NatHoleResp) : Prop :=
  resp.error = "" → ∃ addr, met i addr ∧ resp.clientAddr = text addr

/-- Only a visitor with the key is served, by one work connection of the proxy that
it has named, and told of an address that its call has met. -/
structure Served (md5 : String → List UInt8) (text : Addr → String)
    (met : Nat → Addr → Prop) (c : State Addr) : Prop where
  offering : ∀ i call, c.visitors i = some call → call.pc = .offering →
    call.Matched md5
  clientAddr : ∀ i call, c.visitors i = some call →
    ∀ addr ∈ call.clientAddr, met i addr
  writing : ∀ i call, c.visitors i = some call →
    ∀ resp, call.pc = .writing resp → Reached text met i resp
  works : ∀ k work, c.works k = some work →
    ∃ call, c.visitors work.visitor = some call ∧ call.pc ≠ .offering ∧
      call.Matched md5 ∧ ∃ cfg ∈ call.clientCfg, cfg.sidCh = work.sidCh
  single : ∀ k k' work work', c.works k = some work → c.works k' = some work' →
    work.visitor = work'.visitor → k = k'
  sent : ∀ sent ∈ c.sent, ∀ i, sent.receiver = .visitor i →
    Reached text met i sent.resp

theorem Reached.mono (hmet : ∀ i addr, met i addr → met' i addr) {i : Nat}
    {resp : NatHoleResp} (hreached : Reached text met i resp) :
    Reached text met' i resp := by
  intro herror
  obtain ⟨addr, haddr, hclient⟩ := hreached herror
  exact ⟨addr, hmet i addr haddr, hclient⟩

namespace Served

theorem mono (hmet : ∀ i addr, met i addr → met' i addr)
    (hserved : Served md5 text met c) : Served md5 text met' c where
  offering := hserved.offering
  clientAddr i call hcall addr haddr :=
    hmet i addr (hserved.clientAddr i call hcall addr haddr)
  writing i call hcall resp hpc := (hserved.writing i call hcall resp hpc).mono hmet
  works := hserved.works
  single := hserved.single
  sent sent hmem i hi := (hserved.sent sent hmem i hi).mono hmet

theorem init : Served md5 text met (init Addr) := by
  constructor <;> simp [NatHoleReplies.init]

end Served

namespace Does

/-- A call that was there is still there. -/
theorem moves_kept (hdoes : Does md5 text c action c') {i : Nat}
    {call : VisitorCall Addr} (hcall : c.visitors i = some call) :
    ∃ call', c'.visitors i = some call' ∧ Moves text c i call call' := by
  have hsome : (c'.visitors i).isSome := hdoes.visitorsKept i (by simp [hcall])
  obtain ⟨call', hcall'⟩ := Option.isSome_iff_exists.mp hsome
  obtain ⟨old, hold, hmoves⟩ | ⟨_, _, _, -, hnew, -⟩ := hdoes.visitors i call' hcall'
  · rw [hcall, Option.some.injEq] at hold
    exact ⟨call', hcall', hold ▸ hmoves⟩
  · simp [hcall] at hnew

/-- A work connection is for one call. -/
theorem work_kept (hdoes : Does md5 text c action c') {k : Nat} {work : Work}
    (hwork : c.works k = some work) :
    ∃ work', c'.works k = some work' ∧ work'.visitor = work.visitor := by
  have hsome : (c'.works k).isSome := hdoes.worksKept k (by simp [hwork])
  obtain ⟨work', hwork'⟩ := Option.isSome_iff_exists.mp hsome
  obtain ⟨old, hold, hvisitor, -⟩ | ⟨_, _, -, hfree, -⟩ := hdoes.works k work' hwork'
  · rw [hwork, Option.some.injEq] at hold
    exact ⟨work', hwork', hold ▸ hvisitor⟩
  · simp [hwork] at hfree

end Does

namespace Served

theorem step (hinv : Inv md5 text c) (hserved : Served md5 text met c)
    (hfound : ∀ j client i, c.clients j = some client → client.pc = .found i →
      met i client.raddr)
    (hdoes : Does md5 text c action c') : Served md5 text met c' := by
  constructor
  case offering =>
    intro i call' hcall' hpc
    obtain ⟨call, hcall, hmoves⟩ | ⟨m, raddr, sid, -, -, hbegins⟩ :=
      hdoes.visitors i call' hcall'
    · exact hmoves.ext.matched_iff.mpr
        (hserved.offering i call hcall (hmoves.offering hpc))
    · obtain ⟨errInfo, hrefused⟩ | ⟨-, cfg, hcfg, hkey⟩ := hbegins.pc
      · simp [hrefused] at hpc
      · have hnamed := hinv.named m.proxyName cfg
          (hbegins.clientCfg ▸ Option.mem_def.mp hcfg)
        exact ⟨cfg, hcfg, hbegins.m ▸ hnamed, hbegins.m ▸ hkey⟩
  case clientAddr =>
    intro i call' hcall' addr haddr
    obtain ⟨call, hcall, hmoves⟩ | ⟨m, raddr, sid, -, -, hbegins⟩ :=
      hdoes.visitors i call' hcall'
    · obtain hsame | ⟨j, client, hclient, hpc, hsome⟩ := hmoves.clientAddr
      · exact hserved.clientAddr i call hcall addr (hsame ▸ haddr)
      · rw [hsome, Option.mem_some_iff] at haddr
        exact haddr ▸ hfound j client i hclient hpc
    · simp [hbegins.clientAddr] at haddr
  case writing =>
    intro i call' hcall' resp hpc
    obtain ⟨call, hcall, hmoves⟩ | ⟨m, raddr, sid, -, -, hbegins⟩ :=
      hdoes.visitors i call' hcall'
    · obtain hsame | ⟨hnotified, rfl⟩ := hmoves.writing resp hpc
      · exact hserved.writing i call hcall resp hsame
      · intro _
        have hat := hinv.atVisitor i call hcall
        simp only [State.AtVisitor, hnotified] at hat
        obtain ⟨addr, haddr⟩ := Option.isSome_iff_exists.mp hat
        exact ⟨addr, hserved.clientAddr i call hcall addr haddr, by
          simp [genNatHoleResponse, addrText, haddr]⟩
    · obtain ⟨errInfo, hrefused⟩ | ⟨hoffering, -⟩ := hbegins.pc
      · simp [hrefused] at hpc
      · simp [hoffering] at hpc
  case works =>
    intro k work' hwork'
    obtain ⟨work, hwork, hvisitor, hsidCh⟩ |
        ⟨call, cfg, -, -, hcall, hpc, hcfg, hsidCh, hwaiting⟩ := hdoes.works k work' hwork'
    · obtain ⟨call, hcall, hpc, hmatched, cfg, hcfg, hch⟩ := hserved.works k work hwork
      obtain ⟨call', hcall', hmoves⟩ := hdoes.moves_kept hcall
      exact ⟨call', hvisitor ▸ hcall', fun h => hpc (hmoves.offering h),
        hmoves.ext.matched_iff.mpr hmatched, cfg, hmoves.ext.clientCfg ▸ hcfg,
        hsidCh ▸ hch⟩
    · exact ⟨_, hwaiting, by simp, hserved.offering _ call hcall hpc, cfg, hcfg, hsidCh⟩
  case single =>
    intro k k' work₁ work₂ hwork₁ hwork₂ hsame
    obtain ⟨old₁, hold₁, hvisitor₁, -⟩ | ⟨call₁, _, hact₁, -, hcall₁, hpc₁, -⟩ :=
        hdoes.works k work₁ hwork₁ <;>
      obtain ⟨old₂, hold₂, hvisitor₂, -⟩ | ⟨call₂, _, hact₂, -, hcall₂, hpc₂, -⟩ :=
        hdoes.works k' work₂ hwork₂
    · exact hserved.single k k' old₁ old₂ hold₁ hold₂
        (hvisitor₁ ▸ hvisitor₂ ▸ hsame)
    · obtain ⟨call, hcall, hne, -⟩ := hserved.works k old₁ hold₁
      rw [← hvisitor₁, hsame, hcall₂, Option.some.injEq] at hcall
      exact absurd hpc₂ (hcall ▸ hne)
    · obtain ⟨call, hcall, hne, -⟩ := hserved.works k' old₂ hold₂
      rw [← hvisitor₂, ← hsame, hcall₁, Option.some.injEq] at hcall
      exact absurd hpc₁ (hcall ▸ hne)
    · rw [hact₁, Action.handOver.injEq] at hact₂
      exact hact₂.2
  case sent =>
    intro sent hmem i hi
    obtain hmem | ⟨i', call, hcall, hreceiver, hpc⟩ | ⟨j, client, -, hreceiver⟩ :=
      hdoes.sent sent hmem
    · exact hserved.sent sent hmem i hi
    · obtain rfl : i' = i := by
        rw [hreceiver, Receiver.visitor.injEq] at hi
        exact hi
      obtain hwriting | ⟨errInfo, hrefused, herror⟩ := hpc
      · exact hserved.writing i' call hcall sent.resp hwriting
      · have hat := hinv.atVisitor i' call hcall
        simp only [State.AtVisitor, hrefused] at hat
        exact fun hempty => absurd (herror ▸ hempty) hat.1
    · simp [hreceiver] at hi

end Served

end Served

end NatHoleReplies

end Frp

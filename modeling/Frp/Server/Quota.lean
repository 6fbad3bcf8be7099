/-
The port quota of a client: `RegisterProxy` and `CloseProxy` of every Control of
`server/control.go` over the one Manager of `server/proxy/proxy.go`.  The ports of
a proxy are counted before it runs, given back when it fails, and given back when
it is closed; each lock is held for one step, but for that of a `CloseProxy` whose
`Close` panics.
-/
import Mathlib.Data.List.AList
import Frp.Lib.GoInt
import Frp.Lib.System
import Frp.Config.Proxy
import Frp.Server.ProxyClose

namespace Frp

open Transition GoInt GoStrings

namespace Quota

structure Config where
  width : Width
  serverCfg : ServerCommonConf
  maxPortsPerClient : Int

/-- A proxy of frps and the Control that made it. -/
structure ServerProxy where
  conf : ProxyConf
  control : Nat
deriving DecidableEq

def ServerProxy.getName (pxy : ServerProxy) : Bytes :=
  pxy.conf.getBaseInfo.proxyName

/-- What `NewProxy` sets for the type of the proxy. -/
def ServerProxy.getUsedPortsNum (pxy : ServerProxy) : Int :=
  match pxy.conf with
  | .tcp _ | .udp _ => 1
  | .tcpMux _ | .http _ | .https _ | .stcp _ | .xtcp _ | .sudp _ => 0

/-- The types whose `Run` closes the proxy when it fails halfway. -/
def ServerProxy.undoes (pxy : ServerProxy) : Bool :=
  match pxy.conf with
  | .tcpMux _ | .http _ | .https _ => true
  | .tcp _ | .udp _ | .stcp _ | .xtcp _ | .sudp _ => false

/-- `map[string]proxy.Proxy`. -/
abbrev Proxies := AList fun _ : Bytes => ServerProxy

/-- Where the manager goroutine of a Control stands: in `RegisterProxy` from
`quota` to `rollback`, in `CloseProxy` with its mutex at `closing` and `forget`,
or followed by the stoper, which has the names in `left` to close.  After a `Close`
that panics in `RegisterProxy` the manager has ended at `quit`, if need be by the
`rollback`; after one in `CloseProxy` at `locked`, with the mutex; and after one in
the range of the stoper this has ended at `aborted`. -/
inductive Pc where
  | idle
  | quota (name : Bytes) (pxy : ServerProxy)
  | run (name : Bytes) (pxy : ServerProxy)
  | add (name : Bytes) (pxy : ServerProxy)
  | store (pxy : ServerProxy)
  | close (pxy : ServerProxy)
  | rollback (pxy : ServerProxy) (panicked : Bool)
  | closing (name : Bytes) (pxy : ServerProxy)
  | forget (name : Bytes) (pxy : ServerProxy)
  | stopping (left : List Bytes)
  | quit
  | locked (name : Bytes) (pxy : ServerProxy)
  | aborted (left : List Bytes)
deriving DecidableEq

structure Control where
  proxies : Proxies
  portsUsedNum : Int
  pc : Pc
deriving DecidableEq

structure State where
  controls : Nat → Control
  pxys : Bytes → Option ServerProxy

/-- `ok` says whether `Run` succeeds, and `panic` is a `Close` that does not
return, as one in `stopNext` may not. -/
inductive Action where
  | newProxy (c : Nat) (pMsg : NewProxy)
  | proceed (c : Nat) (ok : Bool)
  | panic (c : Nat)
  | closeProxy (c : Nat) (name : Bytes)
  | stop (c : Nat)
  | stopNext (c : Nat) (name : Bytes) (close : CloseResult)

def Control.new : Control := ⟨∅, 0, .idle⟩

def init : State := ⟨fun _ => .new, fun _ => none⟩

/-- The ports of a proxy that are counted: none without a quota. -/
def Config.charge (cfg : Config) (pxy : ServerProxy) : Int :=
  if 0 < cfg.maxPortsPerClient then pxy.getUsedPortsNum else 0

def State.set (s : State) (c : Nat) (ctl : Control) : State :=
  { s with controls := Function.update s.controls c ctl }

def State.setPxy (s : State) (name : Bytes) (pxy : Option ServerProxy) :
    State :=
  { s with pxys := Function.update s.pxys name pxy }

/-- `RegisterProxy` up to the check of the quota. -/
def State.newProxy (cfg : Config) (s : State) (c : Nat) (pMsg : NewProxy) :
    Option State :=
  match (s.controls c).pc with
  | .idle =>
      match newProxyConfFromMsg pMsg cfg.serverCfg with
      | (_, .error _) => some s
      | (pMsg, .ok conf) => some (s.set c { s.controls c with
          pc := .quota pMsg.proxyName ⟨conf, c⟩ })
  | _ => none

/-- The rest of `RegisterProxy`, with its deferred calls, and of `CloseProxy`, when
a `Close` that they make returns. -/
def State.proceed (cfg : Config) (s : State) (c : Nat) (ok : Bool) :
    Option State :=
  let ctl := s.controls c
  match ctl.pc with
  | .quota name pxy =>
      if 0 < cfg.maxPortsPerClient ∧
          cfg.width.wrap cfg.maxPortsPerClient <
            ctl.portsUsedNum + pxy.getUsedPortsNum then
        some (s.set c { ctl with pc := .idle })
      else some (s.set c { ctl with
        portsUsedNum := ctl.portsUsedNum + cfg.charge pxy
        pc := .run name pxy })
  | .run name pxy => some (s.set c { ctl with
      pc := if ok then .add name pxy else .rollback pxy false })
  | .add name pxy =>
      match s.pxys name with
      | some _ => some (s.set c { ctl with pc := .close pxy })
      | none =>
          some ((s.set c { ctl with pc := .store pxy }).setPxy name (some pxy))
  | .store pxy => some (s.set c { ctl with
      proxies := ctl.proxies.insert pxy.getName pxy
      pc := .idle })
  | .close pxy => some (s.set c { ctl with pc := .rollback pxy false })
  | .rollback pxy panicked => some (s.set c { ctl with
      portsUsedNum := ctl.portsUsedNum - cfg.charge pxy
      pc := if panicked then .quit else .idle })
  | .closing name pxy =>
      some ((s.set c { ctl with pc := .forget name pxy }).setPxy pxy.getName
        none)
  | .forget name _ => some (s.set c { ctl with
      proxies := ctl.proxies.erase name
      pc := .idle })
  | .idle | .stopping _ | .quit | .locked _ _ | .aborted _ => none

/-- The manager ends by a panic of `Close`: in `Run`, which has set no error, in
the deferred call of `RegisterProxy`, which has, or in `CloseProxy`, which leaves
its mutex locked. -/
def State.panic (s : State) (c : Nat) : Option State :=
  let ctl := s.controls c
  match ctl.pc with
  | .run _ pxy =>
      if pxy.undoes then some (s.set c { ctl with pc := .quit }) else none
  | .close pxy => some (s.set c { ctl with pc := .rollback pxy true })
  | .closing name pxy => some (s.set c { ctl with
      pc := if CloseSite.closeProxy.keepsLock .panicked then .locked name pxy
        else .quit })
  | _ => none

def State.closeProxy (cfg : Config) (s : State) (c : Nat) (name : Bytes) :
    Option State :=
  let ctl := s.controls c
  match ctl.pc with
  | .idle =>
      match ctl.proxies.lookup name with
      | none => some s
      | some pxy => some (s.set c { ctl with
          portsUsedNum := ctl.portsUsedNum - cfg.charge pxy
          pc := .closing name pxy })
  | _ => none

/-- The stoper, once the manager has returned and the mutex is free. -/
def State.stop (s : State) (c : Nat) : Option State :=
  let ctl := s.controls c
  match ctl.pc with
  | .idle | .quit => some (s.set c { ctl with
      pc := .stopping ctl.proxies.keys })
  | _ => none

def State.stopNext (s : State) (c : Nat) (name : Bytes) (close : CloseResult) :
    Option State :=
  let ctl := s.controls c
  match ctl.pc, ctl.proxies.lookup name with
  | .stopping left, some pxy =>
      if name ∈ left then
        match close with
        | .returned => some ((s.set c { ctl with
            pc := .stopping (left.filter (· ≠ name)) }).setPxy pxy.getName none)
        | .panicked => some (s.set c { ctl with pc := .aborted left })
      else none
  | _, _ => none

def step (cfg : Config) (s : State) : Action → Option State
  | .newProxy c pMsg => s.newProxy cfg c pMsg
  | .proceed c ok => s.proceed cfg c ok
  | .panic c => s.panic c
  | .closeProxy c name => s.closeProxy cfg c name
  | .stop c => s.stop c
  | .stopNext c name close => s.stopNext c name close

def system (cfg : Config) : System State Action where
  start := init
  step := step cfg

/-- The sum of a number of each proxy over a map. -/
def Proxies.total (f : ServerProxy → Int) (proxies : Proxies) : Int :=
  (proxies.entries.map fun entry => f entry.2).sum

namespace Proxies

variable {f : ServerProxy → Int} {proxies : Proxies} {name : Bytes}
  {pxy : ServerProxy}

theorem total_insert (hfresh : proxies.lookup name = none) :
    total f (proxies.insert name pxy) = f pxy + total f proxies := by
  have hmem : name ∉ proxies := AList.lookup_eq_none.mp hfresh
  rw [total, total, AList.entries_insert_of_notMem hmem, List.map_cons,
    List.sum_cons]

theorem total_erase (hentry : proxies.lookup name = some pxy) :
    total f (proxies.erase name) = total f proxies - f pxy := by
  have hmem : name ∈ proxies.keys :=
    AList.mem_keys.mp (AList.lookup_isSome.mp (by rw [hentry]; rfl))
  obtain ⟨found, before, after, hbefore, hentries, herase⟩ :=
    List.exists_of_kerase hmem
  have hfound : found = pxy := by
    have hlookup : (⟨name, found⟩ : Sigma fun _ : Bytes => ServerProxy) ∈
        proxies.entries := by
      rw [hentries]
      simp
    have hsome := AList.mem_lookup_iff.mpr hlookup
    rw [Option.mem_def, hentry] at hsome
    exact (Option.some.inj hsome).symm
  have hafter : (proxies.erase name).entries = before ++ after := herase
  rw [total, total, hafter, hentries, hfound]
  simp only [List.map_append, List.map_cons, List.sum_append, List.sum_cons]
  omega

theorem total_nonneg (hf : ∀ pxy, 0 ≤ f pxy) (proxies : Proxies) :
    0 ≤ total f proxies := by
  unfold total
  induction proxies.entries with
  | nil => simp
  | cons entry rest ih =>
      have hhead := hf entry.2
      rw [List.map_cons, List.sum_cons]
      omega

end Proxies

variable {cfg : Config} {s s' : State} {c : Nat}

theorem ServerProxy.getUsedPortsNum_nonneg (pxy : ServerProxy) :
    0 ≤ pxy.getUsedPortsNum := by
  unfold getUsedPortsNum
  split <;> decide

/-- A proxy whose `Run` may panic has no ports that are counted. -/
theorem Config.charge_undoes (cfg : Config) {pxy : ServerProxy}
    (hundoes : pxy.undoes = true) : cfg.charge pxy = 0 := by
  unfold ServerProxy.undoes at hundoes
  unfold charge ServerProxy.getUsedPortsNum
  split at hundoes
  all_goals simp_all

theorem Config.charge_nonneg (cfg : Config) (pxy : ServerProxy) :
    0 ≤ cfg.charge pxy := by
  unfold charge
  split
  · exact pxy.getUsedPortsNum_nonneg
  · exact le_rfl

theorem proxyName_unmarshalFromMsg (conf : ProxyConf) (pMsg : NewProxy) :
    (conf.unmarshalFromMsg pMsg).getBaseInfo.proxyName = pMsg.proxyName := by
  cases conf <;> rfl

/-- The proxy is made under the name that the message has. -/
theorem getName_of_newProxyConfFromMsg {pMsg pMsg' : NewProxy}
    {serverCfg : ServerCommonConf} {conf : ProxyConf}
    (hconf : newProxyConfFromMsg pMsg serverCfg = (pMsg', .ok conf)) :
    ServerProxy.getName ⟨conf, c⟩ = pMsg'.proxyName := by
  obtain ⟨-, -, initial, -, rfl⟩ := newProxyConfFromMsg_ok hconf
  exact proxyName_unmarshalFromMsg initial pMsg'

/-- The ports that are counted for a proxy that is not in the map, or given back
for one that still is. -/
def Pc.counted (cfg : Config) : Pc → Int
  | .run _ pxy | .add _ pxy | .store pxy | .close pxy | .rollback pxy _ =>
      cfg.charge pxy
  | .closing _ pxy | .forget _ pxy | .locked _ pxy => -cfg.charge pxy
  | .idle | .quota _ _ | .stopping _ | .quit | .aborted _ => 0

/-- The proxy that is being registered and its name. -/
def Pc.making : Pc → Option (Bytes × ServerProxy)
  | .quota name pxy | .run name pxy | .add name pxy => some (name, pxy)
  | .store pxy => some (pxy.getName, pxy)
  | .idle | .close _ | .rollback _ _ | .closing _ _ | .forget _ _
  | .stopping _ | .quit | .locked _ _ | .aborted _ => none

/-- The proxy that is being closed and its name. -/
def Pc.taking : Pc → Option (Bytes × ServerProxy)
  | .closing name pxy | .forget name pxy | .locked name pxy =>
      some (name, pxy)
  | .idle | .quota _ _ | .run _ _ | .add _ _ | .store _ | .close _
  | .rollback _ _ | .stopping _ | .quit | .aborted _ => none

/-- The entry of a name has not been deleted from the Manager. -/
def Pc.Lists : Pc → Bytes → Prop
  | .forget other _, name => name ≠ other
  | .stopping left, name | .aborted left, name => name ∈ left
  | _, _ => True

namespace Control

/-- The Manager must have this proxy under this name: it is in the map and not
yet deleted, or it has been added and is not yet in the map. -/
def Relies (ctl : Control) (name : Bytes) (pxy : ServerProxy) : Prop :=
  ctl.proxies.lookup name = some pxy ∧ ctl.pc.Lists name ∨
    ctl.pc = .store pxy ∧ name = pxy.getName

/-- What a Control knows by itself: whose its proxies are, and that the counter
is the sum over its map up to the proxy in hand. -/
structure Sound (cfg : Config) (c : Nat) (ctl : Control) : Prop where
  own : ∀ name pxy, ctl.proxies.lookup name = some pxy →
    pxy.getName = name ∧ pxy.control = c
  making : ∀ name pxy, ctl.pc.making = some (name, pxy) →
    pxy.getName = name ∧ pxy.control = c
  taking : ∀ name pxy, ctl.pc.taking = some (name, pxy) →
    ctl.proxies.lookup name = some pxy
  fresh : ∀ pxy, ctl.pc = .store pxy → ctl.proxies.lookup pxy.getName = none
  count : ctl.portsUsedNum =
    Proxies.total cfg.charge ctl.proxies + ctl.pc.counted cfg
  bound : ctl.portsUsedNum ≤ max 0 (cfg.width.wrap cfg.maxPortsPerClient)

theorem sound_new : Control.new.Sound cfg c where
  own := by simp [new]
  making := by simp [new, Pc.making]
  taking := by simp [new, Pc.taking]
  fresh := by simp [new]
  count := by simp [new, Proxies.total, Pc.counted]
  bound := by simp [new]

theorem Sound.relies_own {ctl : Control} (hsound : ctl.Sound cfg c)
    {name : Bytes} {pxy : ServerProxy} (hrelies : ctl.Relies name pxy) :
    pxy.getName = name ∧ pxy.control = c := by
  rcases hrelies with ⟨hentry, _⟩ | ⟨hstore, rfl⟩
  · exact hsound.own name pxy hentry
  · exact hsound.making _ pxy (by rw [hstore]; rfl)

end Control

/-- Every Control is sound, and the Manager has what they rely on. -/
structure State.Inv (cfg : Config) (s : State) : Prop where
  sound : ∀ c, (s.controls c).Sound cfg c
  listed : ∀ c name pxy, (s.controls c).Relies name pxy →
    s.pxys name = some pxy

theorem inv_init : init.Inv cfg where
  sound _ := Control.sound_new
  listed c name pxy hrelies := by
    rcases hrelies with ⟨hentry, _⟩ | ⟨hstore, _⟩
    · simp [init, Control.new] at hentry
    · simp [init, Control.new] at hstore

namespace State.Inv

/-- One Control goes on, and the Manager keeps what the others rely on. -/
theorem change (hinv : s.Inv cfg) {ctl : Control}
    {pxys : Bytes → Option ServerProxy} (hsound : ctl.Sound cfg c)
    (hself : ∀ name pxy, ctl.Relies name pxy → pxys name = some pxy)
    (hothers : ∀ name pxy, s.pxys name = some pxy → pxy.control ≠ c →
      pxys name = some pxy) :
    State.Inv cfg ⟨Function.update s.controls c ctl, pxys⟩ where
  sound other := by
    by_cases hc : other = c
    · subst hc
      simpa using hsound
    · simpa [hc] using hinv.sound other
  listed other name pxy hrelies := by
    by_cases hc : other = c
    · subst hc
      exact hself name pxy (by simpa using hrelies)
    · have hold : (s.controls other).Relies name pxy := by
        simpa [hc] using hrelies
      refine hothers name pxy (hinv.listed other name pxy hold) ?_
      rw [((hinv.sound other).relies_own hold).2]
      exact hc

/-- One Control goes on and the Manager is as it was. -/
theorem set (hinv : s.Inv cfg) {ctl : Control} (hsound : ctl.Sound cfg c)
    (hself : ∀ name pxy, ctl.Relies name pxy → s.pxys name = some pxy) :
    (s.set c ctl).Inv cfg :=
  hinv.change hsound hself fun _ _ hpxy _ => hpxy

/-- A Control deletes a proxy of its own from the Manager. -/
theorem del (hinv : s.Inv cfg) {ctl : Control} {name : Bytes}
    {pxy : ServerProxy} (hrelies : (s.controls c).Relies name pxy)
    (hsound : ctl.Sound cfg c)
    (hself : ∀ other found, ctl.Relies other found → other ≠ name ∧
      s.pxys other = some found) :
    ((s.set c ctl).setPxy pxy.getName none).Inv cfg := by
  obtain ⟨hname, hown⟩ := (hinv.sound c).relies_own hrelies
  rw [hname]
  refine hinv.change hsound ?_ ?_
  · intro other found hfound
    obtain ⟨hne, hpxy⟩ := hself other found hfound
    rw [Function.update_of_ne hne]
    exact hpxy
  · intro other found hfound hother
    have hne : other ≠ name := by
      rintro rfl
      rw [hinv.listed c other pxy hrelies] at hfound
      exact hother (Option.some.inj hfound ▸ hown)
    exact (Function.update_of_ne hne _ _).trans hfound

/-- What a Control has in its map is in the Manager, unless it is deleting. -/
theorem entry (hinv : s.Inv cfg)
    (hlists : ∀ name, (s.controls c).pc.Lists name) {name : Bytes}
    {pxy : ServerProxy}
    (hentry : (s.controls c).proxies.lookup name = some pxy) :
    s.pxys name = some pxy :=
  hinv.listed c name pxy (Or.inl ⟨hentry, hlists name⟩)

/-- A Control goes on with its counter and neither index changes. -/
theorem move (hinv : s.Inv cfg) {pc : Pc} {used : Int}
    (hlists : ∀ name, (s.controls c).pc.Lists name)
    (hstore : ∀ pxy, pc ≠ .store pxy)
    (hmaking : ∀ name pxy, pc.making = some (name, pxy) →
      pxy.getName = name ∧ pxy.control = c)
    (htaking : ∀ name pxy, pc.taking = some (name, pxy) →
      (s.controls c).proxies.lookup name = some pxy)
    (hcount : used = (s.controls c).portsUsedNum + pc.counted cfg -
      (s.controls c).pc.counted cfg)
    (hbound : used ≤ max 0 (cfg.width.wrap cfg.maxPortsPerClient)) :
    (s.set c { s.controls c with portsUsedNum := used, pc := pc }).Inv cfg := by
  have hsound := hinv.sound c
  refine hinv.set { hsound with
    making := hmaking
    taking := htaking
    fresh := fun pxy hpc => absurd hpc (hstore pxy)
    count := ?_
    bound := hbound } ?_
  · have hold := hsound.count
    dsimp only
    omega
  · intro name pxy hrelies
    rcases hrelies with ⟨hentry, _⟩ | ⟨hpc, _⟩
    · exact hinv.entry hlists hentry
    · exact absurd hpc (hstore pxy)

theorem newProxy (hinv : s.Inv cfg) {pMsg : NewProxy}
    (hnext : s.newProxy cfg c pMsg = some s') : s'.Inv cfg := by
  unfold State.newProxy at hnext
  split at hnext
  · rename_i hpc
    split at hnext
    · cases hnext
      exact hinv
    · rename_i pMsg' conf hconf
      cases hnext
      refine hinv.move (by simp [hpc, Pc.Lists]) (by simp) ?_
        (by simp [Pc.taking]) (by simp [hpc, Pc.counted])
        (hinv.sound c).bound
      intro name pxy hmaking
      simp only [Pc.making, Option.some.injEq, Prod.mk.injEq] at hmaking
      obtain ⟨rfl, rfl⟩ := hmaking
      exact ⟨getName_of_newProxyConfFromMsg hconf, rfl⟩
  · cases hnext

/-- The quota lets a proxy through only if its ports still fit. -/
theorem quota (hinv : s.Inv cfg) {name : Bytes} {pxy : ServerProxy} {ok : Bool}
    (hpc : (s.controls c).pc = .quota name pxy)
    (hnext : s.proceed cfg c ok = some s') : s'.Inv cfg := by
  have hlists : ∀ name, (s.controls c).pc.Lists name := by
    simp [hpc, Pc.Lists]
  simp only [State.proceed, hpc] at hnext
  split at hnext
  · cases hnext
    exact hinv.move hlists (by simp) (by simp [Pc.making])
      (by simp [Pc.taking]) (by simp [hpc, Pc.counted]) (hinv.sound c).bound
  · rename_i hfits
    cases hnext
    refine hinv.move hlists (by simp) ?_ (by simp [Pc.taking])
      (by simp [hpc, Pc.counted]) ?_
    · intro other found hmaking
      exact (hinv.sound c).making other found (by rw [hpc]; exact hmaking)
    · have hbound := (hinv.sound c).bound
      unfold Config.charge
      split
      · rename_i hquota
        have hle := not_and.mp hfits hquota
        omega
      · omega

/-- `Manager.Add` lets a proxy through only if its name is in no map. -/
theorem add (hinv : s.Inv cfg) {name : Bytes} {pxy : ServerProxy} {ok : Bool}
    (hpc : (s.controls c).pc = .add name pxy)
    (hnext : s.proceed cfg c ok = some s') : s'.Inv cfg := by
  have hlists : ∀ name, (s.controls c).pc.Lists name := by
    simp [hpc, Pc.Lists]
  have hsound := hinv.sound c
  obtain ⟨hname, hown⟩ := hsound.making name pxy (by rw [hpc]; rfl)
  simp only [State.proceed, hpc] at hnext
  split at hnext
  · cases hnext
    exact hinv.move hlists (by simp) (by simp [Pc.making])
      (by simp [Pc.taking]) (by simp [hpc, Pc.counted]) hsound.bound
  · rename_i hfree
    cases hnext
    have hfresh : (s.controls c).proxies.lookup name = none := by
      by_contra hsome
      obtain ⟨found, hfound⟩ := Option.ne_none_iff_exists'.mp hsome
      have hlisted := hinv.entry hlists hfound
      rw [hfree] at hlisted
      cases hlisted
    refine hinv.change { hsound with
      making := ?_
      taking := by simp [Pc.taking]
      fresh := ?_
      count := ?_ } ?_ ?_
    · intro other found hmaking
      simp only [Pc.making, Option.some.injEq, Prod.mk.injEq] at hmaking
      obtain ⟨rfl, rfl⟩ := hmaking
      exact ⟨rfl, hown⟩
    · intro found hstore
      cases hstore
      exact hname ▸ hfresh
    · have hold := hsound.count
      rw [hpc] at hold
      exact hold
    · intro other found hrelies
      rcases hrelies with ⟨hentry, _⟩ | ⟨hstore, rfl⟩
      · have hne : other ≠ name := by
          rintro rfl
          rw [hfresh] at hentry
          cases hentry
        rw [Function.update_of_ne hne]
        exact hinv.entry hlists hentry
      · cases hstore
        rw [hname, Function.update_self]
    · intro other found hfound _
      have hne : other ≠ name := by
        rintro rfl
        rw [hfree] at hfound
        cases hfound
      exact (Function.update_of_ne hne _ _).trans hfound

/-- A name that the Manager has let through is new to the map. -/
theorem store (hinv : s.Inv cfg) {pxy : ServerProxy} {ok : Bool}
    (hpc : (s.controls c).pc = .store pxy)
    (hnext : s.proceed cfg c ok = some s') : s'.Inv cfg := by
  have hsound := hinv.sound c
  have hfresh := hsound.fresh pxy hpc
  obtain ⟨_, hown⟩ := hsound.making _ pxy (by rw [hpc]; rfl)
  simp only [State.proceed, hpc] at hnext
  cases hnext
  have hcases {name : Bytes} {found : ServerProxy}
      (hentry : ((s.controls c).proxies.insert pxy.getName pxy).lookup name =
        some found) :
      name = pxy.getName ∧ found = pxy ∨
        (s.controls c).proxies.lookup name = some found := by
    by_cases hname : name = pxy.getName
    · left
      rw [hname, AList.lookup_insert] at hentry
      exact ⟨hname, (Option.some.inj hentry).symm⟩
    · right
      rwa [AList.lookup_insert_ne hname] at hentry
  refine hinv.set { hsound with
    own := ?_
    making := by simp [Pc.making]
    taking := by simp [Pc.taking]
    fresh := by simp
    count := ?_ } ?_
  · intro name found hentry
    rcases hcases hentry with ⟨rfl, rfl⟩ | hold
    · exact ⟨rfl, hown⟩
    · exact hsound.own name found hold
  · have hold := hsound.count
    rw [hpc] at hold
    rw [Proxies.total_insert hfresh]
    simp only [Pc.counted] at hold ⊢
    omega
  · intro name found hrelies
    rcases hrelies with ⟨hentry, _⟩ | ⟨hstore, _⟩
    · rcases hcases hentry with ⟨rfl, rfl⟩ | hold
      · exact hinv.listed c _ found (Or.inr ⟨hpc, rfl⟩)
      · exact hinv.entry (by simp [hpc, Pc.Lists]) hold
    · cases hstore

/-- `CloseProxy` deletes the proxy that it has found from the Manager. -/
theorem closing (hinv : s.Inv cfg) {name : Bytes} {pxy : ServerProxy}
    {ok : Bool} (hpc : (s.controls c).pc = .closing name pxy)
    (hnext : s.proceed cfg c ok = some s') : s'.Inv cfg := by
  have hlists : ∀ name, (s.controls c).pc.Lists name := by
    simp [hpc, Pc.Lists]
  have hsound := hinv.sound c
  have hentry := hsound.taking name pxy (by rw [hpc]; rfl)
  simp only [State.proceed, hpc] at hnext
  cases hnext
  refine hinv.del (Or.inl ⟨hentry, hlists name⟩) { hsound with
    making := by simp [Pc.making]
    taking := ?_
    fresh := by simp
    count := ?_ } ?_
  · intro other found htaking
    exact hsound.taking other found (by rw [hpc]; exact htaking)
  · have hold := hsound.count
    rw [hpc] at hold
    exact hold
  · intro other found hrelies
    rcases hrelies with ⟨hother, hne⟩ | ⟨hstore, _⟩
    · exact ⟨hne, hinv.entry hlists hother⟩
    · cases hstore

/-- Then it deletes it from the map. -/
theorem forget (hinv : s.Inv cfg) {name : Bytes} {pxy : ServerProxy}
    {ok : Bool} (hpc : (s.controls c).pc = .forget name pxy)
    (hnext : s.proceed cfg c ok = some s') : s'.Inv cfg := by
  have hsound := hinv.sound c
  have hentry := hsound.taking name pxy (by rw [hpc]; rfl)
  simp only [State.proceed, hpc] at hnext
  cases hnext
  have hcases {other : Bytes} {found : ServerProxy}
      (hother : ((s.controls c).proxies.erase name).lookup other = some found) :
      other ≠ name ∧ (s.controls c).proxies.lookup other = some found := by
    by_cases hname : other = name
    · rw [hname, AList.lookup_erase] at hother
      cases hother
    · rw [AList.lookup_erase_ne hname] at hother
      exact ⟨hname, hother⟩
  refine hinv.set { hsound with
    own := ?_
    making := by simp [Pc.making]
    taking := by simp [Pc.taking]
    fresh := by simp
    count := ?_ } ?_
  · intro other found hother
    exact hsound.own other found (hcases hother).2
  · have hold := hsound.count
    rw [hpc] at hold
    rw [Proxies.total_erase hentry]
    simp only [Pc.counted] at hold ⊢
    omega
  · intro other found hrelies
    rcases hrelies with ⟨hother, _⟩ | ⟨hstore, _⟩
    · obtain ⟨hne, hold⟩ := hcases hother
      refine hinv.listed c other found (Or.inl ⟨hold, ?_⟩)
      rw [hpc]
      exact hne
    · cases hstore

theorem proceed (hinv : s.Inv cfg) {ok : Bool}
    (hnext : s.proceed cfg c ok = some s') : s'.Inv cfg := by
  have hsound := hinv.sound c
  cases hpc : (s.controls c).pc with
  | quota name pxy => exact hinv.quota hpc hnext
  | run name pxy =>
      simp only [State.proceed, hpc] at hnext
      cases hnext
      cases ok with
      | true =>
          refine hinv.move (by simp [hpc, Pc.Lists]) (by simp) ?_
            (by simp [Pc.taking]) (by simp [hpc, Pc.counted]) hsound.bound
          intro other found hmaking
          exact hsound.making other found (by rw [hpc]; exact hmaking)
      | false =>
          exact hinv.move (by simp [hpc, Pc.Lists]) (by simp)
            (by simp [Pc.making]) (by simp [Pc.taking])
            (by simp [hpc, Pc.counted]) hsound.bound
  | add name pxy => exact hinv.add hpc hnext
  | store pxy => exact hinv.store hpc hnext
  | close pxy =>
      simp only [State.proceed, hpc] at hnext
      cases hnext
      exact hinv.move (by simp [hpc, Pc.Lists]) (by simp)
        (by simp [Pc.making]) (by simp [Pc.taking])
        (by simp [hpc, Pc.counted]) hsound.bound
  | rollback pxy panicked =>
      simp only [State.proceed, hpc] at hnext
      cases hnext
      have hcharge := cfg.charge_nonneg pxy
      have hbound := hsound.bound
      cases panicked with
      | false | true =>
          exact hinv.move (by simp [hpc, Pc.Lists]) (by simp)
            (by simp [Pc.making]) (by simp [Pc.taking])
            (by simp [hpc, Pc.counted]) (by omega)
  | closing name pxy => exact hinv.closing hpc hnext
  | forget name pxy => exact hinv.forget hpc hnext
  | idle | stopping left | quit | locked name pxy | aborted left =>
      simp [State.proceed, hpc] at hnext

/-- A panic leaves the counter as it is at this point. -/
theorem panic (hinv : s.Inv cfg) (hnext : s.panic c = some s') :
    s'.Inv cfg := by
  have hsound := hinv.sound c
  cases hpc : (s.controls c).pc with
  | run name pxy =>
      simp only [State.panic, hpc, Option.ite_none_right_eq_some,
        Option.some.injEq] at hnext
      obtain ⟨hundoes, rfl⟩ := hnext
      exact hinv.move (by simp [hpc, Pc.Lists]) (by simp)
        (by simp [Pc.making]) (by simp [Pc.taking])
        (by simp [hpc, Pc.counted, cfg.charge_undoes hundoes]) hsound.bound
  | close pxy =>
      simp only [State.panic, hpc, Option.some.injEq] at hnext
      subst hnext
      exact hinv.move (by simp [hpc, Pc.Lists]) (by simp)
        (by simp [Pc.making]) (by simp [Pc.taking])
        (by simp [hpc, Pc.counted]) hsound.bound
  | closing name pxy =>
      simp only [State.panic, hpc, CloseSite.keepsLock, if_true,
        Option.some.injEq] at hnext
      subst hnext
      refine hinv.move (by simp [hpc, Pc.Lists]) (by simp)
        (by simp [Pc.making]) ?_ (by simp [hpc, Pc.counted]) hsound.bound
      intro other found htaking
      exact hsound.taking other found (by rw [hpc]; exact htaking)
  | _ => simp [State.panic, hpc] at hnext

theorem closeProxy (hinv : s.Inv cfg) {name : Bytes}
    (hnext : s.closeProxy cfg c name = some s') : s'.Inv cfg := by
  simp only [State.closeProxy] at hnext
  split at hnext
  · rename_i hpc
    split at hnext
    · cases hnext
      exact hinv
    · rename_i pxy hentry
      cases hnext
      have hcharge := cfg.charge_nonneg pxy
      have hbound := (hinv.sound c).bound
      refine hinv.move (by simp [hpc, Pc.Lists]) (by simp)
        (by simp [Pc.making]) ?_ (by simp [hpc, Pc.counted]; omega) (by omega)
      intro other found htaking
      simp only [Pc.taking, Option.some.injEq, Prod.mk.injEq] at htaking
      obtain ⟨rfl, rfl⟩ := htaking
      exact hentry
  · cases hnext

theorem stop (hinv : s.Inv cfg) (hnext : s.stop c = some s') : s'.Inv cfg := by
  cases hpc : (s.controls c).pc with
  | idle | quit =>
      simp only [State.stop, hpc, Option.some.injEq] at hnext
      subst hnext
      exact hinv.move (by simp [hpc, Pc.Lists]) (by simp)
        (by simp [Pc.making]) (by simp [Pc.taking])
        (by simp [hpc, Pc.counted]) (hinv.sound c).bound
  | _ => simp [State.stop, hpc] at hnext

/-- The stoper deletes what it has closed, and leaves all the rest where it is
when it cannot go on. -/
theorem stopNext (hinv : s.Inv cfg) {name : Bytes} {close : CloseResult}
    (hnext : s.stopNext c name close = some s') : s'.Inv cfg := by
  have hsound := hinv.sound c
  simp only [State.stopNext] at hnext
  split at hnext
  · rename_i left pxy hpc hentry
    rw [Option.ite_none_right_eq_some] at hnext
    obtain ⟨hleft, hnext⟩ := hnext
    have hcount := hsound.count
    rw [hpc] at hcount
    cases close with
    | returned =>
        simp only [Option.some.injEq] at hnext
        subst hnext
        refine hinv.del (Or.inl ⟨hentry, ?_⟩) { hsound with
          making := by simp [Pc.making]
          taking := by simp [Pc.taking]
          fresh := by simp
          count := hcount } ?_
        · rw [hpc]
          exact hleft
        · intro other found hrelies
          rcases hrelies with ⟨hother, hlists⟩ | ⟨hstore, _⟩
          · obtain ⟨hmem, hne⟩ := List.mem_filter.mp hlists
            refine ⟨of_decide_eq_true hne,
              hinv.listed c other found (Or.inl ⟨hother, ?_⟩)⟩
            rw [hpc]
            exact hmem
          · cases hstore
    | panicked =>
        simp only [Option.some.injEq] at hnext
        subst hnext
        refine hinv.set { hsound with
          making := by simp [Pc.making]
          taking := by simp [Pc.taking]
          fresh := by simp
          count := hcount } ?_
        intro other found hrelies
        rcases hrelies with ⟨hother, hlists⟩ | ⟨hstore, _⟩
        · refine hinv.listed c other found (Or.inl ⟨hother, ?_⟩)
          rw [hpc]
          exact hlists
        · cases hstore
  · cases hnext

theorem step (hinv : s.Inv cfg) {action : Action}
    (hnext : Quota.step cfg s action = some s') : s'.Inv cfg := by
  cases action with
  | newProxy c pMsg => exact hinv.newProxy hnext
  | proceed c ok => exact hinv.proceed hnext
  | panic c => exact hinv.panic hnext
  | closeProxy c name => exact hinv.closeProxy hnext
  | stop c => exact hinv.stop hnext
  | stopNext c name close => exact hinv.stopNext hnext

end State.Inv

theorem inv_of_reaches {word : List Action}
    (hreaches : (system cfg).Reaches word s) : s.Inv cfg :=
  System.Reaches.invariant inv_init (fun _ _ _ hinv hnext => hinv.step hnext)
    hreaches

/-- No `Close` of a proxy panics. -/
def NoPanic (_ : State) : Action → Prop
  | .panic _ | .stopNext _ _ .panicked => False
  | _ => True

instance (s : State) (action : Action) : Decidable (NoPanic s action) :=
  match action with
  | .panic _ | .stopNext _ _ .panicked => inferInstanceAs (Decidable False)
  | .newProxy _ _ | .proceed _ _ | .closeProxy _ _ | .stop _
  | .stopNext _ _ .returned => inferInstanceAs (Decidable True)

/-- The manager has done with its message, or this has been its last one. -/
def Pc.handled : Pc → Bool
  | .idle | .quit | .locked _ _ => true
  | .quota _ _ | .run _ _ | .add _ _ | .store _ | .close _ | .rollback _ _
  | .closing _ _ | .forget _ _ | .stopping _ | .aborted _ => false

/-- The manager has ended in `CloseProxy`. -/
def Pc.isLocked : Pc → Bool
  | .locked _ _ => true
  | _ => false

def State.Unlocked (s : State) : Prop :=
  ∀ c, (s.controls c).pc.isLocked = false

theorem State.Unlocked.set (hunlocked : s.Unlocked) {ctl : Control}
    (hctl : ctl.pc.isLocked = false) : (s.set c ctl).Unlocked := by
  intro other
  by_cases hc : other = c
  · simpa [State.set, hc] using hctl
  · simpa [State.set, hc] using hunlocked other

theorem State.Unlocked.proceed (hunlocked : s.Unlocked) {ok : Bool}
    (hnext : s.proceed cfg c ok = some s') : s'.Unlocked := by
  cases hpc : (s.controls c).pc with
  | quota name pxy =>
      simp only [State.proceed, hpc] at hnext
      split at hnext
      · cases hnext
        exact hunlocked.set rfl
      · cases hnext
        exact hunlocked.set rfl
  | run name pxy =>
      simp only [State.proceed, hpc, Option.some.injEq] at hnext
      subst hnext
      cases ok <;> exact hunlocked.set rfl
  | add name pxy =>
      simp only [State.proceed, hpc] at hnext
      split at hnext
      · cases hnext
        exact hunlocked.set rfl
      · cases hnext
        exact hunlocked.set rfl
  | rollback pxy panicked =>
      simp only [State.proceed, hpc, Option.some.injEq] at hnext
      subst hnext
      cases panicked <;> exact hunlocked.set rfl
  | store pxy | close pxy | closing name pxy | forget name pxy =>
      simp only [State.proceed, hpc, Option.some.injEq] at hnext
      subst hnext
      exact hunlocked.set rfl
  | idle | stopping left | quit | locked name pxy | aborted left =>
      simp [State.proceed, hpc] at hnext

/-- Only a panic ends the manager in `CloseProxy`. -/
theorem State.Unlocked.step (hunlocked : s.Unlocked) {action : Action}
    (hcalm : NoPanic s action) (hnext : Quota.step cfg s action = some s') :
    s'.Unlocked := by
  cases action with
  | panic c => exact hcalm.elim
  | proceed c ok => exact hunlocked.proceed hnext
  | newProxy c pMsg =>
      simp only [Quota.step, State.newProxy] at hnext
      split at hnext
      · split at hnext
        · cases hnext
          exact hunlocked
        · cases hnext
          exact hunlocked.set rfl
      · cases hnext
  | closeProxy c name =>
      simp only [Quota.step, State.closeProxy] at hnext
      split at hnext
      · split at hnext
        · cases hnext
          exact hunlocked
        · cases hnext
          exact hunlocked.set rfl
      · cases hnext
  | stop c =>
      simp only [Quota.step, State.stop] at hnext
      split at hnext
      · cases hnext
        exact hunlocked.set rfl
      · cases hnext
        exact hunlocked.set rfl
      · cases hnext
  | stopNext c name close =>
      simp only [Quota.step, State.stopNext] at hnext
      split at hnext
      · rw [Option.ite_none_right_eq_some] at hnext
        obtain ⟨_, hnext⟩ := hnext
        cases close with
        | returned =>
            cases hnext
            exact hunlocked.set rfl
        | panicked => exact hcalm.elim
      · cases hnext

/-- The counter is the number of ports of the proxies in the map, and within the
quota. -/
def Control.Exact (cfg : Config) (ctl : Control) : Prop :=
  ctl.portsUsedNum =
      Proxies.total ServerProxy.getUsedPortsNum ctl.proxies ∧
    0 ≤ ctl.portsUsedNum ∧ ctl.portsUsedNum ≤ cfg.maxPortsPerClient

/-- In every run in which no `Close` panics, after each message of a Control its
counter is exact, whatever the other Controls are doing. -/
theorem portsUsedNum_exact (cfg : Config) (hquota : 0 < cfg.maxPortsPerClient)
    {word : List Action} {s : State} (hrun : (system cfg).Run NoPanic word s)
    {c : Nat} (hhandled : (s.controls c).pc.handled = true) :
    (s.controls c).Exact cfg := by
  have hsound := (inv_of_reaches hrun.reaches).sound c
  have hunlocked : s.Unlocked := by
    refine System.Run.invariant (I := State.Unlocked) (fun _ => rfl) ?_ hrun
    intro state action next hold hcalm hnext
    exact State.Unlocked.step hold hcalm hnext
  have hcounted : (s.controls c).pc.counted cfg = 0 := by
    have hfree := hunlocked c
    cases hpc : (s.controls c).pc <;>
      simp [hpc, Pc.handled, Pc.isLocked, Pc.counted] at hhandled hfree ⊢
  have hcharge : cfg.charge = ServerProxy.getUsedPortsNum := by
    funext pxy
    exact if_pos hquota
  have hcount := hsound.count
  rw [hcounted, hcharge] at hcount
  have hnonneg := Proxies.total_nonneg ServerProxy.getUsedPortsNum_nonneg
    (s.controls c).proxies
  have hbound := hsound.bound
  have hwrap : cfg.width.wrap cfg.maxPortsPerClient ≤ cfg.maxPortsPerClient :=
    Width.wrap_le hquota.le
  exact ⟨by omega, by omega, by omega⟩

/-- A message for a tcp proxy. -/
def tcpMsg (name : String) : NewProxy :=
  { NewProxy.empty with proxyName := ascii name }

/-- Two clients with a quota of one port.  The first gets its proxy; its second
one exceeds the quota, and a third, after the first is closed, runs but has the
name of a proxy of the other client. -/
def quotaWord : List Action :=
  [.newProxy 0 (tcpMsg "web"), .proceed 0 true, .proceed 0 true,
    .proceed 0 true, .proceed 0 true,
    .newProxy 1 (tcpMsg "ssh"), .proceed 1 true, .proceed 1 true,
    .proceed 1 true, .proceed 1 true,
    .newProxy 0 (tcpMsg "api"), .proceed 0 true,
    .closeProxy 0 (ascii "web"), .proceed 0 true, .proceed 0 true,
    .newProxy 0 (tcpMsg "ssh"), .proceed 0 true, .proceed 0 true,
    .proceed 0 true, .proceed 0 true, .proceed 0 true]

def onePort : Config := ⟨.bits64, ⟨0, 0, 0, []⟩, 1⟩

theorem portsUsedNum_exact_quotaWord :
    ∃ s, (system onePort).Run NoPanic quotaWord s ∧
      (s.controls 1).portsUsedNum = 1 ∧ (s.controls 0).Exact onePort := by
  obtain ⟨s, hrun, hhandled, hother⟩ :
      ∃ s, (system onePort).Run NoPanic quotaWord s ∧
        (s.controls 0).pc.handled = true ∧
        (s.controls 1).portsUsedNum = 1 :=
    System.exists_run_of_replay (by decide)
  exact ⟨s, hrun, hother, portsUsedNum_exact onePort (by decide) hrun hhandled⟩

/-- The `Close` of the only proxy panics in `CloseProxy`. -/
def panickedClose : List Action :=
  [.newProxy 0 (tcpMsg "web"), .proceed 0 true, .proceed 0 true,
    .proceed 0 true, .proceed 0 true, .closeProxy 0 (ascii "web"), .panic 0]

/-- The counter has been lowered for a proxy that stays in the map. -/
theorem not_exact_panickedClose :
    ∃ s, (system onePort).Reaches panickedClose s ∧
      (s.controls 0).pc.handled = true ∧ (s.controls 0).portsUsedNum = 0 ∧
      ¬ (s.controls 0).Exact onePort := by
  obtain ⟨s, hreaches, hhandled, hcounter, hsum⟩ :
      ∃ s, (system onePort).Reaches panickedClose s ∧
        (s.controls 0).pc.handled = true ∧ (s.controls 0).portsUsedNum = 0 ∧
        Proxies.total ServerProxy.getUsedPortsNum (s.controls 0).proxies = 1 :=
    System.exists_reaches_of_exec (by decide)
  refine ⟨s, hreaches, hhandled, hcounter, ?_⟩
  rintro ⟨hexact, _⟩
  rw [hcounter, hsum] at hexact
  cases hexact

end Quota

end Frp

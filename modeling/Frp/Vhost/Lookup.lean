/-
The order in which a host is looked up.  `HTTPReverseProxy.getVhost` and
`Muxer.getListener` each have a loop of their own for it; both search the same
lists of the table in the same order, so both come to the most specific route.
-/
import Frp.Group.TCP
import Frp.Vhost.RouteMap

namespace Frp

open GoStrings

variable {Conn : Type}

namespace Muxer

/-- The inner `findRouter`: it reads the user of the enclosing call and not its
own argument. -/
def findRouter (v : Muxer) (httpUser inName inPath _inHTTPUser : Bytes) :
    Option MuxListener :=
  match v.get inName inPath httpUser with
  | some vr => some vr.payload
  | none =>
      match v.get inName inPath [] with
      | some vr => some vr.payload
      | none => none

/-- The wildcard loop of `getListener` over the labels that are left. -/
def findWildcard (v : Muxer) (path httpUser : Bytes) :
    List Bytes → Option MuxListener
  | [] => none
  | label :: rest =>
      if (label :: rest).length < 3 then none
      else
        match v.findRouter httpUser (joinDot (ascii "*" :: rest)) path
            httpUser with
        | some l => some l
        | none => v.findWildcard path httpUser rest

def getListener (v : Muxer) (name path httpUser : Bytes) :
    Option MuxListener :=
  match v.findRouter httpUser name path httpUser with
  | some l => some l
  | none =>
      match v.findWildcard path httpUser (splitDot name) with
      | some l => some l
      | none => v.findRouter httpUser (ascii "*") path httpUser

end Muxer

/-- The triple under which a listener is stored. -/
def MuxListener.key (l : MuxListener) : RouteKey :=
  ⟨l.name, l.location, l.routeByHTTPUser⟩

/-- The proper suffixes of a host that have two labels or more, the longest
first. -/
def properSuffixes (host : Bytes) : List Bytes :=
  ((splitDot host).tail.tails.filter (2 ≤ ·.length)).map joinDot

def wildcard (suffix : Bytes) : Bytes := ascii "*." ++ suffix

/-- The domains that serve a host, the most specific first. -/
def lookupDomains (host : Bytes) : List Bytes :=
  host :: (properSuffixes host).map wildcard ++ [ascii "*"]

/-- The lists that serve a host and user: under each domain those of the user
before those of every user. -/
def lookupScopes (host httpUser : Bytes) : List (Bytes × Bytes) :=
  (lookupDomains host).flatMap fun domain => [(domain, httpUser), (domain, [])]

/-- The first hit among the registered triples. -/
structure FirstHit (holds : RouteKey → Prop) (host path httpUser : Bytes)
    (key : RouteKey) : Prop where
  registered : holds key
  covers : key.location <+: path
  first : ∃ before after,
    lookupScopes host httpUser =
      before ++ (key.domain, key.httpUser) :: after ∧
    ∀ other, holds other → other.location <+: path →
      (other.domain, other.httpUser) ∉ before
  longest : ∀ other, holds other → other.location <+: path →
    other.domain = key.domain → other.httpUser = key.httpUser →
    other.location.length ≤ key.location.length

namespace Routers

variable {P : Type}

/-- The tables that `Add` and `Del` make when every payload is stored under its
own triple. -/
inductive Built (key : P → RouteKey) : Routers P → Prop where
  | newRouters : Built key (newRouters P)
  | add {r next : Routers P} {payload : P} (hbuilt : Built key r)
      (hadd : r.add (key payload).domain (key payload).location
        (key payload).httpUser payload = .ok next) : Built key next
  | del {r : Routers P} (hbuilt : Built key r)
      (domain location httpUser : Bytes) :
      Built key (r.del domain location httpUser)

/-- A route is registered under the triple. -/
def Holds (r : Routers P) (key : RouteKey) : Prop :=
  ∃ vr ∈ r.entries key.domain key.httpUser, vr.location = key.location

/-- The search of a table list by list. -/
def lookup (r : Routers P) (host path httpUser : Bytes) : Option (Router P) :=
  (lookupScopes host httpUser).findSome? fun scope =>
    r.get scope.1 path scope.2

variable {key : P → RouteKey} {r : Routers P}

theorem Built.sorted (hbuilt : r.Built key) : r.Sorted := by
  induction hbuilt with
  | newRouters => exact sorted_newRouters
  | add _ hadd ih => exact ih.add hadd
  | del _ domain location httpUser ih => exact ih.del domain location httpUser

theorem Built.key_payload (hbuilt : r.Built key) :
    ∀ domain httpUser, ∀ vr ∈ r.entries domain httpUser,
      key vr.payload = ⟨domain, vr.location, httpUser⟩ := by
  induction hbuilt with
  | newRouters => simp
  | @add r next payload _ hadd ih =>
      intro domain httpUser vr hvr
      rw [entries_add hadd] at hvr
      split at hvr
      · next hsame =>
          simp only [List.mem_insertionSort, List.mem_append,
            List.mem_singleton] at hvr
          obtain ⟨rfl, rfl⟩ := hsame
          rcases hvr with hold | rfl
          · exact ih _ _ vr hold
          · rfl
      · exact ih domain httpUser vr hvr
  | @del r _ domain location httpUser ih =>
      intro domain' httpUser' vr hvr
      rw [entries_del] at hvr
      split at hvr
      · next hsame =>
          obtain ⟨rfl, rfl⟩ := hsame
          exact ih _ _ vr (List.mem_of_mem_filter hvr)
      · exact ih domain' httpUser' vr hvr

/-- Of two prefixes of a path the one that sorts first is the longer. -/
theorem length_le_of_le {location longer path : Bytes}
    (hlocation : location <+: path) (hlonger : longer <+: path)
    (hle : longer ≤ location) : longer.length ≤ location.length := by
  by_contra hlt
  have hpre : location <+: longer :=
    List.prefix_of_prefix_length_le hlocation hlonger (by omega)
  have heq : location = longer := List.le_antisymm hpre.le hle
  rw [heq] at hlt
  exact hlt (Nat.le_refl _)

/-- In a sorted list the first location that is a prefix is the longest. -/
theorem longest_of_get (hsorted : r.Sorted) {domain path httpUser : Bytes}
    {vr other : Router P} (hget : r.get domain path httpUser = some vr)
    (hother : other ∈ r.entries domain httpUser)
    (hcovers : other.location <+: path) :
    other.location.length ≤ vr.location.length := by
  rw [get_eq_find, List.find?_eq_some_iff_append] at hget
  obtain ⟨hvr, before, after, hentries, hbefore⟩ := hget
  have hprefix : vr.location <+: path := hasPrefix_iff.mp hvr
  have hpairwise := hsorted domain httpUser
  rw [hentries] at hother hpairwise
  rcases List.mem_append.mp hother with hearly | hlate
  · have hnot := hbefore other hearly
    rw [hasPrefix_iff.mpr hcovers] at hnot
    cases hnot
  · rcases List.mem_cons.mp hlate with rfl | hlate
    · exact Nat.le_refl _
    · have hcons := (List.pairwise_append.mp hpairwise).2.1
      exact length_le_of_le hprefix hcovers
        ((List.pairwise_cons.mp hcons).1 other hlate)

theorem get_eq_none_iff {domain path httpUser : Bytes} :
    r.get domain path httpUser = none ↔
      ∀ location, location <+: path →
        ¬ r.Holds ⟨domain, location, httpUser⟩ := by
  rw [get_eq_find, List.find?_eq_none]
  constructor
  · rintro hnone location hcovers ⟨vr, hvr, rfl⟩
    exact hnone vr hvr (hasPrefix_iff.mpr hcovers)
  · intro hnone vr hvr hcovers
    exact hnone vr.location (hasPrefix_iff.mp hcovers) ⟨vr, hvr, rfl⟩

theorem holds_of_get {domain path httpUser : Bytes} {vr : Router P}
    (hget : r.get domain path httpUser = some vr) :
    r.Holds ⟨domain, vr.location, httpUser⟩ ∧ vr.location <+: path := by
  have hmem := mem_entries_of_get hget
  rw [get_eq_find] at hget
  have hprefix : hasPrefix path vr.location = true := by
    simpa using List.find?_some hget
  exact ⟨⟨vr, hmem, rfl⟩, hasPrefix_iff.mp hprefix⟩

@[simp] theorem not_holds_newRouters (other : RouteKey) :
    ¬ (newRouters P).Holds other := by
  simp [Holds]

theorem holds_add {next : Routers P} {domain location httpUser : Bytes}
    {payload : P} (hadd : r.add domain location httpUser payload = .ok next)
    (other : RouteKey) :
    next.Holds other ↔ r.Holds other ∨ other = ⟨domain, location, httpUser⟩ := by
  obtain ⟨domain', location', httpUser'⟩ := other
  simp only [Holds, entries_add hadd]
  by_cases hsame : domain' = domain ∧ httpUser' = httpUser
  · obtain ⟨rfl, rfl⟩ := hsame
    simp [or_and_right, exists_or, eq_comm]
  · rw [if_neg hsame]
    have hne : (⟨domain', location', httpUser'⟩ : RouteKey) ≠
        ⟨domain, location, httpUser⟩ := by
      intro heq
      cases heq
      exact hsame ⟨rfl, rfl⟩
    exact (or_iff_left hne).symm

theorem lookup_eq_none_iff {host path httpUser : Bytes} :
    r.lookup host path httpUser = none ↔
      ∀ other, r.Holds other → other.location <+: path →
        (other.domain, other.httpUser) ∉ lookupScopes host httpUser := by
  rw [lookup, List.findSome?_eq_none_iff]
  constructor
  · intro hnone other hholds hcovers hscope
    exact get_eq_none_iff.mp (hnone _ hscope) other.location hcovers hholds
  · intro hnone scope hscope
    rw [get_eq_none_iff]
    intro location hcovers hholds
    exact hnone ⟨scope.1, location, scope.2⟩ hholds hcovers hscope

/-- The search ends at the first hit. -/
theorem firstHit_of_lookup (hsorted : r.Sorted) {host path httpUser : Bytes}
    {vr : Router P} (hlookup : r.lookup host path httpUser = some vr) :
    ∃ domain user, vr ∈ r.entries domain user ∧
      FirstHit r.Holds host path httpUser ⟨domain, vr.location, user⟩ := by
  obtain ⟨before, scope, after, hscopes, hget, hbefore⟩ :=
    List.findSome?_eq_some_iff.mp hlookup
  have hmem := mem_entries_of_get hget
  obtain ⟨hholds, hcovers⟩ := holds_of_get hget
  refine ⟨scope.1, scope.2, hmem, hholds, hcovers, ?_, ?_⟩
  · refine ⟨before, after, hscopes, ?_⟩
    intro other hother hprefix hearly
    exact get_eq_none_iff.mp (hbefore _ hearly) other.location hprefix hother
  · rintro other ⟨found, hfound, hlocation⟩ hprefix hdomain huser
    rw [hdomain, huser] at hfound
    rw [← hlocation] at hprefix ⊢
    exact longest_of_get hsorted hget hfound hprefix

/-- There is one first hit only, and the search finds it. -/
theorem lookup_of_firstHit (hsorted : r.Sorted) {host path httpUser : Bytes}
    {hit : RouteKey} (hhit : FirstHit r.Holds host path httpUser hit) :
    ∃ vr, r.lookup host path httpUser = some vr ∧
      vr ∈ r.entries hit.domain hit.httpUser ∧
      vr.location = hit.location := by
  obtain ⟨before, after, hscopes, hbefore⟩ := hhit.first
  cases hget : r.get hit.domain path hit.httpUser with
  | none =>
      exact absurd hhit.registered
        (get_eq_none_iff.mp hget hit.location hhit.covers)
  | some vr =>
      have hmem := mem_entries_of_get hget
      obtain ⟨hholds, hcovers⟩ := holds_of_get hget
      refine ⟨vr, ?_, hmem, ?_⟩
      · refine List.findSome?_eq_some_iff.mpr
          ⟨before, _, after, hscopes, hget, ?_⟩
        intro scope hscope
        rw [get_eq_none_iff]
        intro location hprefix hother
        exact hbefore ⟨scope.1, location, scope.2⟩ hother hprefix hscope
      · obtain ⟨found, hfound, hlocation⟩ := hhit.registered
        have hle := hhit.longest _ hholds hcovers rfl rfl
        have hge := longest_of_get hsorted hget hfound
          (hlocation ▸ hhit.covers)
        rw [hlocation] at hge
        exact (List.prefix_of_prefix_length_le hcovers hhit.covers
          hle).eq_of_length_le hge

/-- The route that the search finds is the first hit. -/
theorem lookup_eq_some_iff (hsorted : r.Sorted)
    (hkeyed : ∀ domain httpUser, ∀ vr ∈ r.entries domain httpUser,
      key vr.payload = ⟨domain, vr.location, httpUser⟩)
    {host path httpUser : Bytes} {hit : RouteKey} :
    (r.lookup host path httpUser).map (fun vr => key vr.payload) = some hit ↔
      FirstHit r.Holds host path httpUser hit := by
  rw [Option.map_eq_some_iff]
  constructor
  · rintro ⟨vr, hlookup, rfl⟩
    obtain ⟨domain, user, hmem, hhit⟩ := firstHit_of_lookup hsorted hlookup
    rw [hkeyed domain user vr hmem]
    exact hhit
  · intro hhit
    obtain ⟨vr, hlookup, hmem, hlocation⟩ := lookup_of_firstHit hsorted hhit
    refine ⟨vr, hlookup, ?_⟩
    rw [hkeyed _ _ vr hmem, hlocation]

end Routers

/-- What the loop over the labels finds, whatever it searches with. -/
theorem wildcardLoop_eq {β : Type} {find : Bytes → Option β}
    {loop : List Bytes → Option β} (hnil : loop [] = none)
    (hcons : ∀ label rest, loop (label :: rest) =
      if (label :: rest).length < 3 then none
      else (find (joinDot (ascii "*" :: rest))).or (loop rest))
    (labels : List Bytes) :
    loop labels = (((labels.tail.tails.filter (2 ≤ ·.length)).map joinDot).map
      wildcard).findSome? find := by
  induction labels with
  | nil => simp [hnil]
  | cons label rest ih =>
      rw [hcons]
      match rest with
      | [] => simp
      | [second] => simp
      | second :: third :: rest =>
          have hjoin : joinDot (ascii "*" :: second :: third :: rest) =
              wildcard (joinDot (second :: third :: rest)) := by
            simp [joinDot, wildcard, ascii, dot, List.intercalate,
              List.intersperse]
          rw [ih, hjoin]
          cases hfind : find (wildcard (joinDot (second :: third :: rest))) with
          | none => simp [hfind]
          | some found => simp [hfind]

/-- A search of the host, then of its wildcards, then of the wildcard of every
host goes through the domains of the host in their order. -/
theorem search_eq_findSome {β : Type} {find : Bytes → Option β}
    {loop : List Bytes → Option β} (hnil : loop [] = none)
    (hcons : ∀ label rest, loop (label :: rest) =
      if (label :: rest).length < 3 then none
      else (find (joinDot (ascii "*" :: rest))).or (loop rest))
    (host : Bytes) :
    (find host).or ((loop (splitDot host)).or (find (ascii "*"))) =
      (lookupDomains host).findSome? find := by
  rw [wildcardLoop_eq hnil hcons, lookupDomains, List.findSome?_append,
    List.findSome?_cons, properSuffixes]
  cases find host with
  | none =>
      rw [Option.none_or]
      congr 1
      cases hall : find (ascii "*") <;> simp [hall]
  | some found => rfl

theorem Routers.lookup_eq_findSome {P : Type} (r : Routers P)
    (host path httpUser : Bytes) :
    r.lookup host path httpUser = (lookupDomains host).findSome? fun domain =>
      (r.get domain path httpUser).or (r.get domain path []) := by
  unfold lookup lookupScopes
  induction lookupDomains host with
  | nil => rfl
  | cons domain rest ih =>
      rw [List.flatMap_cons, List.findSome?_append, ih]
      cases huser : r.get domain path httpUser with
      | none => cases hall : r.get domain path [] <;> simp [huser, hall]
      | some vr => simp [huser]

/-- `getVhost` is the search of the table list by list. -/
theorem HTTPReverseProxy.getVhost_eq_lookup (rp : HTTPReverseProxy Conn)
    (domain location routeByHTTPUser : Bytes) :
    rp.getVhost domain location routeByHTTPUser =
      rp.vhostRouter.lookup domain location routeByHTTPUser := by
  have hfind : (fun name => rp.findRouter name location routeByHTTPUser) =
      fun name => (rp.vhostRouter.get name location routeByHTTPUser).or
        (rp.vhostRouter.get name location []) := by
    funext name
    unfold findRouter
    cases rp.vhostRouter.get name location routeByHTTPUser <;> rfl
  have hloop : ∀ label rest,
      rp.findWildcard location routeByHTTPUser (label :: rest) =
        if (label :: rest).length < 3 then none
        else (rp.findRouter (joinDot (ascii "*" :: rest)) location
          routeByHTTPUser).or
            (rp.findWildcard location routeByHTTPUser rest) := by
    intro label rest
    rw [findWildcard]
    cases rp.findRouter (joinDot (ascii "*" :: rest)) location
      routeByHTTPUser <;> rfl
  rw [Routers.lookup_eq_findSome, ← hfind,
    ← search_eq_findSome rfl hloop domain, getVhost]
  cases rp.findRouter domain location routeByHTTPUser with
  | some vr => rfl
  | none =>
      cases rp.findWildcard location routeByHTTPUser (splitDot domain) <;>
        simp

/-- So is `getListener`. -/
theorem Muxer.getListener_eq_lookup (v : Muxer)
    (name path httpUser : Bytes) :
    v.getListener name path httpUser =
      (Routers.lookup v name path httpUser).map Router.payload := by
  have hfind : (fun name => v.findRouter httpUser name path httpUser) =
      fun name => ((Routers.get v name path httpUser).or
        (Routers.get v name path [])).map Router.payload := by
    funext name
    unfold findRouter
    cases Routers.get v name path httpUser with
    | some vr => rfl
    | none => cases Routers.get v name path [] <;> rfl
  have hloop : ∀ label rest,
      v.findWildcard path httpUser (label :: rest) =
        if (label :: rest).length < 3 then none
        else (v.findRouter httpUser (joinDot (ascii "*" :: rest)) path
          httpUser).or (v.findWildcard path httpUser rest) := by
    intro label rest
    rw [findWildcard]
    cases v.findRouter httpUser (joinDot (ascii "*" :: rest)) path
      httpUser <;> rfl
  have hmap : (Option.map Router.payload ∘ fun name =>
      (Routers.get v name path httpUser).or (Routers.get v name path [])) =
        fun name => v.findRouter httpUser name path httpUser := hfind.symm
  rw [Routers.lookup_eq_findSome, List.map_findSome?, hmap,
    ← search_eq_findSome rfl hloop name, getListener]
  cases v.findRouter httpUser name path httpUser with
  | some l => rfl
  | none =>
      cases v.findWildcard path httpUser (splitDot name) <;> simp

theorem HTTPReverseProxy.built_register {rp rp' : HTTPReverseProxy Conn}
    (hbuilt : rp.vhostRouter.Built RouteConfig.key) {cfg : RouteConfig Conn}
    (hregister : rp.register cfg = .ok rp') :
    rp'.vhostRouter.Built RouteConfig.key := by
  rcases rp.register_cases cfg with ⟨next, hnext, _, hadd⟩ | ⟨hrefused, _⟩
  · rw [hregister, Except.ok.injEq] at hnext
    exact hnext ▸ hbuilt.add hadd
  · rw [hregister] at hrefused
    cases hrefused

theorem HTTPReverseProxy.built_unRegister {rp : HTTPReverseProxy Conn}
    (hbuilt : rp.vhostRouter.Built RouteConfig.key) (cfg : RouteConfig Conn) :
    (rp.unRegister cfg).vhostRouter.Built RouteConfig.key :=
  hbuilt.del cfg.domain cfg.location cfg.routeByHTTPUser

theorem Muxer.built_listen {v next : Muxer} {l : MuxListener}
    (hbuilt : Routers.Built MuxListener.key v) {cfg : RouteConfig RealConn}
    (hlisten : v.listen cfg = .ok (next, l)) :
    Routers.Built MuxListener.key next := by
  let payload : MuxListener := ⟨cfg.domain, cfg.location, cfg.routeByHTTPUser,
    cfg.rewriteHost, cfg.username, cfg.password⟩
  cases hadd : Routers.add v payload.key.domain payload.key.location
      payload.key.httpUser payload with
  | error err =>
      have hrefused : v.listen cfg = .error err := by
        rw [listen]
        exact congrArg _ hadd
      rw [hlisten] at hrefused
      cases hrefused
  | ok table =>
      have hadded : v.listen cfg = .ok (table, payload) := by
        rw [listen]
        exact congrArg _ hadd
      rw [hlisten, Except.ok.injEq, Prod.mk.injEq] at hadded
      exact hadded.1 ▸ hbuilt.add hadd

theorem Muxer.built_close {v : Muxer}
    (hbuilt : Routers.Built MuxListener.key v) (l : MuxListener) :
    Routers.Built MuxListener.key (v.close l) :=
  hbuilt.del l.name l.location l.routeByHTTPUser

/-- The tables that calls of `Register` and `UnRegister` lead to. -/
inductive HTTPReverseProxy.Reached : HTTPReverseProxy Conn → Prop
  | start : Reached (newHTTPReverseProxy Conn)
  | register {rp rp' : HTTPReverseProxy Conn} {cfg : RouteConfig Conn}
      (hrp : Reached rp) (hregister : rp.register cfg = .ok rp') : Reached rp'
  | unRegister {rp : HTTPReverseProxy Conn} (hrp : Reached rp)
      (cfg : RouteConfig Conn) : Reached (rp.unRegister cfg)

theorem HTTPReverseProxy.Reached.built {rp : HTTPReverseProxy Conn}
    (hrp : rp.Reached) : rp.vhostRouter.Built RouteConfig.key := by
  induction hrp with
  | start => exact .newRouters
  | register _ hregister ih => exact built_register ih hregister
  | unRegister _ cfg ih => exact built_unRegister ih cfg

/-- The tables that calls of `Listen` and `Close` lead to. -/
inductive Muxer.Reached : Muxer → Prop
  | start : Reached (Routers.newRouters MuxListener)
  | listen {v next : Muxer} {l : MuxListener} {cfg : RouteConfig RealConn}
      (hv : Reached v) (hlisten : v.listen cfg = .ok (next, l)) : Reached next
  | close {v : Muxer} (hv : Reached v) (l : MuxListener) : Reached (v.close l)

theorem Muxer.Reached.built {v : Muxer} (hv : v.Reached) :
    Routers.Built MuxListener.key v := by
  induction hv with
  | start => exact .newRouters
  | listen _ hlisten ih => exact built_listen ih hlisten
  | close _ l ih => exact built_close ih l

/-- Over one table `getVhost` and `getListener` find the same route or none, and
it is the first hit: the host, then its wildcards from the longest suffix, then
the wildcard of every host; the user before every user; the longest location. -/
theorem lookups_agree {rp : HTTPReverseProxy Conn} {v : Muxer}
    (hrp : rp.vhostRouter.Built RouteConfig.key)
    (hv : Routers.Built MuxListener.key v)
    (hsame : ∀ key, rp.vhostRouter.Holds key ↔ Routers.Holds v key)
    (host path httpUser : Bytes) :
    (rp.getVhost host path httpUser).map (fun vr => vr.payload.key) =
      (v.getListener host path httpUser).map MuxListener.key ∧
    (∀ key, (rp.getVhost host path httpUser).map (fun vr => vr.payload.key) =
      some key ↔ FirstHit rp.vhostRouter.Holds host path httpUser key) ∧
    (rp.getVhost host path httpUser = none ↔
      ∀ key, rp.vhostRouter.Holds key → key.location <+: path →
        (key.domain, key.httpUser) ∉ lookupScopes host httpUser) := by
  have hholds : rp.vhostRouter.Holds = Routers.Holds v := by
    funext key
    exact propext (hsame key)
  have hvhost : ∀ key, (rp.getVhost host path httpUser).map
      (fun vr => vr.payload.key) = some key ↔
        FirstHit rp.vhostRouter.Holds host path httpUser key := by
    intro key
    rw [HTTPReverseProxy.getVhost_eq_lookup]
    exact Routers.lookup_eq_some_iff hrp.sorted hrp.key_payload
  have hlistener : ∀ key, (v.getListener host path httpUser).map
      MuxListener.key = some key ↔
        FirstHit rp.vhostRouter.Holds host path httpUser key := by
    intro key
    rw [Muxer.getListener_eq_lookup, Option.map_map, hholds]
    exact Routers.lookup_eq_some_iff hv.sorted hv.key_payload
  refine ⟨?_, hvhost, ?_⟩
  · apply Option.ext
    intro key
    exact (hvhost key).trans (hlistener key).symm
  · rw [HTTPReverseProxy.getVhost_eq_lookup]
    exact Routers.lookup_eq_none_iff

def wildcardCfg : RouteConfig RealConn :=
  ⟨ascii "*.example.com", ascii "/", [], [], [], [], [], none⟩

def wildcardListener : MuxListener :=
  ⟨ascii "*.example.com", ascii "/", [], [], [], []⟩

/-- The route of `*.example.com` in both tables. -/
theorem lookups_agree_wildcardCfg :
    ∃ (rp : HTTPReverseProxy RealConn) (v : Muxer),
      (rp.getVhost (ascii "sub.test.example.com") (ascii "/a") []).isSome ∧
      (rp.getVhost (ascii "sub.test.example.com") (ascii "/a") []).map
          (fun vr => vr.payload.key) =
        (v.getListener (ascii "sub.test.example.com") (ascii "/a") []).map
          MuxListener.key := by
  obtain ⟨rp, hadd, hregister, hsome⟩ : ∃ rp : HTTPReverseProxy RealConn,
      (Routers.newRouters (RouteConfig RealConn)).add (ascii "*.example.com")
          (ascii "/") [] wildcardCfg = .ok rp.vhostRouter ∧
        (HTTPReverseProxy.newHTTPReverseProxy RealConn).register wildcardCfg =
          .ok rp ∧
        (rp.getVhost (ascii "sub.test.example.com") (ascii "/a")
          []).isSome := by
    refine ⟨((HTTPReverseProxy.newHTTPReverseProxy RealConn).register
      wildcardCfg).toOption.get rfl, rfl, rfl, rfl⟩
  obtain ⟨v, hadd', hlisten⟩ : ∃ v, (Routers.newRouters MuxListener).add
      (ascii "*.example.com") (ascii "/") [] wildcardListener = .ok v ∧
        Muxer.listen (Routers.newRouters MuxListener) wildcardCfg =
          .ok (v, wildcardListener) := ⟨_, rfl, rfl⟩
  have hsame : ∀ key, rp.vhostRouter.Holds key ↔ Routers.Holds v key := by
    intro key
    rw [Routers.holds_add hadd, Routers.holds_add hadd']
    simp
  have hrp : rp.Reached := .register .start hregister
  have hv : Muxer.Reached v := .listen .start hlisten
  exact ⟨rp, v, hsome, (lookups_agree hrp.built hv.built hsame
    (ascii "sub.test.example.com") (ascii "/a") []).1⟩

end Frp

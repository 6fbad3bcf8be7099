/-
The request side of `pkg/util/vhost/reverseproxy.go`: which fields of a request
reach the backend, and what becomes of them when one such proxy stands behind
another.
-/
import Frp.Lib.GoHeader
import Frp.Vhost.HTTP

namespace Frp

open GoStrings GoHeader

variable {Conn Body : Type}

/-- What the proxies read and write of an HTTP request. -/
structure HTTPRequest (Body : Type) where
  method : Bytes
  urlScheme : Bytes
  urlHost : Bytes
  urlPath : Bytes
  host : Bytes
  remoteAddr : Bytes
  header : Header
  contentLength : Int
  close : Bool
  body : Option Body

/-- The part of a request that decides about its route. -/
def HTTPRequest.toRequest (req : HTTPRequest Body) : Request where
  method := req.method
  host := req.host
  urlPath := req.urlPath
  urlHost := req.urlHost
  remoteAddr := req.remoteAddr
  authorization := req.header.get (ascii "Authorization")
  proxyAuthorization := req.header.get (ascii "Proxy-Authorization")

/-- `Director` of the proxy for virtual hosts, on the whole request. -/
def HTTPReverseProxy.direct (toLower : Bytes → Bytes)
    (rp : HTTPReverseProxy Conn) (req : HTTPRequest Body) : HTTPRequest Body :=
  let directed := rp.director toLower req.toRequest
  { req with
    urlScheme := directed.urlScheme
    urlHost := directed.urlHost
    host := directed.host
    header := directed.setHeaders.foldl (fun h kv => h.set kv.1 kv.2)
      req.header }

namespace ReverseProxy

def comma : UInt8 := 44

def connection : Bytes := ascii "Connection"

def upgrade : Bytes := ascii "Upgrade"

def te : Bytes := ascii "Te"

def xForwardedFor : Bytes := ascii "X-Forwarded-For"

def hopHeaders : List Bytes :=
  [connection, ascii "Proxy-Connection", ascii "Keep-Alive",
    ascii "Proxy-Authenticate", ascii "Proxy-Authorization", te,
    ascii "Trailer", ascii "Transfer-Encoding", upgrade]

/-- The loop over the parts of one value of `Connection`. -/
def removeParts (h : Header) (f : Bytes) : Header :=
  (f.splitOn comma).foldl
    (fun h sf => if trimString sf ≠ [] then h.del (trimString sf) else h) h

/-- The fields that `Connection` names are removed; it is read once, before. -/
def removeConnectionHeaders (h : Header) : Header :=
  (h.values connection).foldl removeParts h

/-- The loop over `hopHeaders`: a field whose first value is empty is passed
over, and so is `Te: trailers`. -/
def removeHopHeaders (h : Header) : Header :=
  hopHeaders.foldl
    (fun h key =>
      if h.get key = [] then h
      else if key = te ∧ h.get key = ascii "trailers" then h
      else h.del key) h

/-- `strings.Join(values, ", ")`. -/
def joinComma (values : List Bytes) : Bytes := (ascii ", ").intercalate values

/-- The address of the client behind the values that are there; a field that is
present but nil is left alone. -/
def setForwardedFor (remoteAddr : Bytes) (h : Header) : Header :=
  match splitHostPort remoteAddr with
  | .error _ => h
  | .ok (clientIP, _) =>
      let prior := h.values xForwardedFor
      let clientIP :=
        if prior ≠ [] then joinComma prior ++ ascii ", " ++ clientIP
        else clientIP
      if h.lookup xForwardedFor = some none then h
      else h.set xForwardedFor clientIP

section Requests

variable (containsToken : List Bytes → Bytes → Bool) (toLower : Bytes → Bytes)

/-- `containsToken` is `httpguts.HeaderValuesContainsToken`. -/
def upgradeType (h : Header) : Bytes :=
  if containsToken (h.values connection) upgrade then toLower (h.get upgrade)
  else []

/-- What is needed for a switch of protocols is put back. -/
def addUpgrade (reqUpType : Bytes) (h : Header) : Header :=
  if reqUpType ≠ [] then (h.set connection upgrade).set upgrade reqUpType
  else h

/-- The header that goes to the backend, from the one that `Director` left. -/
def outgoingHeader (remoteAddr : Bytes) (h : Header) : Header :=
  let reqUpType := upgradeType containsToken toLower h
  let h := removeHopHeaders (removeConnectionHeaders h)
  setForwardedFor remoteAddr (addUpgrade reqUpType h)

/-- `ServeHTTP` up to `RoundTrip`. -/
def outgoing (director : HTTPRequest Body → HTTPRequest Body)
    (req : HTTPRequest Body) : HTTPRequest Body :=
  let outreq := { req with
    body := if req.contentLength = 0 then none else req.body }
  let outreq := director outreq
  { outreq with
    close := false
    header := outgoingHeader containsToken toLower req.remoteAddr
      outreq.header }

end Requests

/-- The names that `Connection` lists. -/
def connectionNames (h : Header) : List Bytes :=
  ((((h.values connection).flatMap fun f => f.splitOn comma).map
    trimString).filter (· ≠ [])).map canonicalMIMEHeaderKey

/-- The loop over `hopHeaders` removes the field when it comes to it. -/
def Dropped (h : Header) (key : Bytes) : Prop :=
  h.get key ≠ [] ∧ ¬ (key = te ∧ h.get key = ascii "trailers")

instance (h : Header) (key : Bytes) : Decidable (Dropped h key) :=
  inferInstanceAs (Decidable (_ ∧ ¬ _))

theorem canonical_hopHeaders :
    ∀ key ∈ hopHeaders, canonicalMIMEHeaderKey key = key := by
  decide

theorem canonical_connection :
    canonicalMIMEHeaderKey connection = connection := by decide

theorem canonical_upgrade : canonicalMIMEHeaderKey upgrade = upgrade := by
  decide

theorem canonical_xForwardedFor :
    canonicalMIMEHeaderKey xForwardedFor = xForwardedFor := by decide

theorem connection_mem_hopHeaders : connection ∈ hopHeaders :=
  List.mem_cons_self

theorem upgrade_mem_hopHeaders : upgrade ∈ hopHeaders := by decide

theorem xForwardedFor_notMem_hopHeaders : xForwardedFor ∉ hopHeaders := by
  decide

theorem removeConnectionHeaders_eq (h : Header) :
    removeConnectionHeaders h =
      ((((h.values connection).flatMap fun f => f.splitOn comma).map
        trimString).filter (· ≠ [])).foldl Header.del h := by
  rw [List.foldl_filter, List.foldl_map, List.foldl_flatMap]
  simp only [decide_eq_true_eq]
  rfl

theorem lookup_removeConnectionHeaders (h : Header) (key : Bytes) :
    (removeConnectionHeaders h).lookup key =
      if key ∈ connectionNames h then none else h.lookup key := by
  rw [removeConnectionHeaders_eq, Header.lookup_foldl_del]
  rfl

theorem get_congr {h h' : Header} {key : Bytes}
    (hcanonical : canonicalMIMEHeaderKey key = key)
    (hsame : h'.lookup key = h.lookup key) : h'.get key = h.get key := by
  rw [Header.get, Header.get, Header.values, Header.values, hcanonical, hsame]

theorem dropped_congr {h h' : Header} {key : Bytes}
    (hcanonical : canonicalMIMEHeaderKey key = key)
    (hsame : h'.lookup key = h.lookup key) : Dropped h' key ↔ Dropped h key := by
  rw [Dropped, Dropped, get_congr hcanonical hsame]

theorem get_of_lookup_eq_none {h : Header} {key : Bytes}
    (hcanonical : canonicalMIMEHeaderKey key = key)
    (hnone : h.lookup key = none) : h.get key = [] := by
  rw [Header.get, Header.values, hcanonical, hnone]
  rfl

/-- The loop looks at each field by itself. -/
theorem lookup_removeHopHeaders (h : Header) {key : Bytes} :
    (removeHopHeaders h).lookup key =
      if key ∈ hopHeaders ∧ Dropped h key then none else h.lookup key := by
  have hloop : ∀ keys : List Bytes,
      (∀ k ∈ keys, canonicalMIMEHeaderKey k = k) → ∀ h : Header,
      (keys.foldl
        (fun h key =>
          if h.get key = [] then h
          else if key = te ∧ h.get key = ascii "trailers" then h
          else h.del key) h).lookup key =
        if key ∈ keys ∧ Dropped h key then none else h.lookup key := by
    intro keys
    induction keys with
    | nil => simp
    | cons first rest ih =>
        intro hcanonical h
        have hfirst := hcanonical first List.mem_cons_self
        have hrest := ih fun k hk => hcanonical k (List.mem_cons_of_mem _ hk)
        rw [List.foldl_cons]
        by_cases hdropped : Dropped h first
        · rw [if_neg hdropped.1, if_neg hdropped.2, hrest,
            Header.lookup_del, hfirst]
          by_cases heq : key = first
          · subst heq
            simp [hdropped]
          · have hsame : (h.del first).lookup key = h.lookup key := by
              rw [Header.lookup_del, hfirst, if_neg heq]
            by_cases hmem : key ∈ rest
            · simp [heq, hmem, dropped_congr
                (hcanonical key (List.mem_cons_of_mem _ hmem)) hsame]
            · simp [heq, hmem]
        · have hkept : (if h.get first = [] then h
              else if first = te ∧ h.get first = ascii "trailers" then h
              else h.del first) = h := by
            split
            · rfl
            · next hne =>
                rw [if_pos]
                by_contra hnot
                exact hdropped ⟨hne, hnot⟩
          rw [hkept, hrest]
          by_cases heq : key = first
          · subst heq
            simp [hdropped]
          · simp [heq]
  exact hloop hopHeaders canonical_hopHeaders h

theorem joinComma_cons (value : Bytes) {rest : List Bytes}
    (hrest : rest ≠ []) :
    joinComma (value :: rest) = value ++ ascii ", " ++ joinComma rest :=
  List.intercalate_cons_of_ne_nil hrest

theorem joinComma_append {left right : List Bytes} (hleft : left ≠ [])
    (hright : right ≠ []) :
    joinComma (left ++ right) =
      joinComma left ++ ascii ", " ++ joinComma right := by
  induction left with
  | nil => exact absurd rfl hleft
  | cons value rest ih =>
      have happend : rest ++ right ≠ [] := by simp [hright]
      rw [List.cons_append, joinComma_cons value happend]
      by_cases hrest : rest = []
      · simp [hrest, joinComma]
      · rw [ih hrest, joinComma_cons value hrest]
        simp

/-- Values that were joined before count as the values themselves. -/
theorem joinComma_cons_joinComma {values : List Bytes} (hvalues : values ≠ [])
    (rest : List Bytes) :
    joinComma (joinComma values :: rest) = joinComma (values ++ rest) := by
  by_cases hrest : rest = []
  · simp [hrest, joinComma]
  · rw [joinComma_cons _ hrest, joinComma_append hvalues hrest]

theorem lookup_setForwardedFor_of_ne {key : Bytes} (hkey : key ≠ xForwardedFor)
    (remoteAddr : Bytes) (h : Header) :
    (setForwardedFor remoteAddr h).lookup key = h.lookup key := by
  unfold setForwardedFor
  split
  · rfl
  · split
    · rfl
    · rw [Header.lookup_set, canonical_xForwardedFor, if_neg hkey]

theorem lookup_setForwardedFor {remoteAddr ip port : Bytes} {h : Header}
    (hsplit : splitHostPort remoteAddr = .ok (ip, port))
    (hnil : h.lookup xForwardedFor ≠ some none) :
    (setForwardedFor remoteAddr h).lookup xForwardedFor =
      some (some [joinComma (h.values xForwardedFor ++ [ip])]) := by
  unfold setForwardedFor
  rw [hsplit]
  simp only [if_neg hnil, Header.lookup_set, canonical_xForwardedFor, if_true]
  split
  · next hprior =>
      rw [joinComma_append hprior (List.cons_ne_nil ip [])]
      simp [joinComma]
  · next hprior =>
      rw [not_ne_iff.mp hprior]
      simp [joinComma]

theorem lookup_addUpgrade (reqUpType : Bytes) (h : Header) (key : Bytes) :
    (addUpgrade reqUpType h).lookup key =
      if reqUpType ≠ [] ∧ key = upgrade then some (some [reqUpType])
      else if reqUpType ≠ [] ∧ key = connection then some (some [upgrade])
      else h.lookup key := by
  unfold addUpgrade
  by_cases htype : reqUpType = []
  · simp [htype]
  · simp [htype, Header.lookup_set, canonical_upgrade, canonical_connection]

theorem lookup_stripped (h : Header) (key : Bytes) :
    (removeHopHeaders (removeConnectionHeaders h)).lookup key =
      if key ∈ connectionNames h ∨ key ∈ hopHeaders ∧ Dropped h key then none
      else h.lookup key := by
  rw [lookup_removeHopHeaders, lookup_removeConnectionHeaders]
  by_cases hnamed : key ∈ connectionNames h
  · simp [hnamed]
  · by_cases hhop : key ∈ hopHeaders
    · have hsame : (removeConnectionHeaders h).lookup key = h.lookup key := by
        rw [lookup_removeConnectionHeaders, if_neg hnamed]
      simp [hnamed, hhop, dropped_congr (canonical_hopHeaders key hhop) hsame]
    · simp [hnamed, hhop]

section Through

variable (containsToken : List Bytes → Bytes → Bool) (toLower : Bytes → Bytes)

/-- `Connection` is passed on as it came: no upgrade is asked for, its first
value is empty, and none of its values names the field itself. -/
def Leaks (h : Header) : Prop :=
  upgradeType containsToken toLower h = [] ∧ h.get connection = [] ∧
    connection ∉ connectionNames h

instance (h : Header) : Decidable (Leaks containsToken toLower h) :=
  inferInstanceAs (Decidable (_ ∧ _ ∧ _))

/-- The request goes through one proxy after the other, the last of which sends
`out`; `ips` are the addresses from which each proxy was reached.  Between two
of them the transport and the route of the next proxy keep these fields. -/
inductive Through (kept : List Bytes) :
    HTTPReverseProxy Conn → HTTPRequest Body → List Bytes → HTTPRequest Body →
      Prop
  | last {rp : HTTPReverseProxy Conn} {req : HTTPRequest Body}
      {ip port : Bytes}
      (hsplit : splitHostPort req.remoteAddr = .ok (ip, port)) :
      Through kept rp req [ip]
        (outgoing containsToken toLower (rp.direct toLower) req)
  | next {rp rp' : HTTPReverseProxy Conn} {req req' out : HTTPRequest Body}
      {ip port : Bytes} {ips : List Bytes}
      (hsplit : splitHostPort req.remoteAddr = .ok (ip, port))
      (htransport : ∀ key ∈ kept, req'.header.lookup key =
        (outgoing containsToken toLower (rp.direct toLower)
          req).header.lookup key)
      (hroute : ∀ kv ∈ (rp'.director toLower req'.toRequest).setHeaders,
        canonicalMIMEHeaderKey kv.1 ∉ kept)
      (hrest : Through kept rp' req' ips out) :
      Through kept rp req (ip :: ips) out

variable {containsToken toLower}

theorem lookup_outgoingHeader {key : Bytes} (hkey : key ≠ xForwardedFor)
    (remoteAddr : Bytes) (h : Header) :
    (outgoingHeader containsToken toLower remoteAddr h).lookup key =
      if upgradeType containsToken toLower h ≠ [] ∧ key = upgrade then
        some (some [upgradeType containsToken toLower h])
      else if upgradeType containsToken toLower h ≠ [] ∧ key = connection then
        some (some [upgrade])
      else if key ∈ connectionNames h ∨ key ∈ hopHeaders ∧ Dropped h key then
        none
      else h.lookup key := by
  rw [outgoingHeader, lookup_setForwardedFor_of_ne hkey, lookup_addUpgrade,
    lookup_stripped]

/-- The address of the client stands behind the values that `Connection` does
not name. -/
theorem lookup_outgoingHeader_forwardedFor {remoteAddr ip port : Bytes}
    {h : Header} (hsplit : splitHostPort remoteAddr = .ok (ip, port))
    (hnil : h.lookup xForwardedFor ≠ some none) :
    (outgoingHeader containsToken toLower remoteAddr h).lookup xForwardedFor =
      some (some [joinComma ((if xForwardedFor ∈ connectionNames h then []
        else h.values xForwardedFor) ++ [ip])]) := by
  have hupgrade : xForwardedFor ≠ upgrade := by decide
  have hconnection : xForwardedFor ≠ connection := by decide
  have hstripped : (addUpgrade (upgradeType containsToken toLower h)
      (removeHopHeaders (removeConnectionHeaders h))).lookup xForwardedFor =
        if xForwardedFor ∈ connectionNames h then none
        else h.lookup xForwardedFor := by
    rw [lookup_addUpgrade, lookup_stripped]
    simp [hupgrade, hconnection, xForwardedFor_notMem_hopHeaders]
  rw [outgoingHeader, lookup_setForwardedFor hsplit, Header.values, hstripped]
  · split
    · rfl
    · rfl
  · rw [hstripped]
    split
    · simp
    · exact hnil

theorem connectionNames_congr {h h' : Header}
    (hsame : h'.lookup connection = h.lookup connection) :
    connectionNames h' = connectionNames h := by
  rw [connectionNames, connectionNames, Header.values, Header.values, hsame]

theorem outgoing_header (rp : HTTPReverseProxy Conn) (req : HTTPRequest Body) :
    (outgoing containsToken toLower (rp.direct toLower) req).header =
      outgoingHeader containsToken toLower req.remoteAddr
        (rp.direct toLower req).header := rfl

/-- What the next proxy finds in a field is what this one sent. -/
theorem lookup_next {kept : List Bytes} {rp rp' : HTTPReverseProxy Conn}
    {req req' : HTTPRequest Body} {key : Bytes}
    (htransport : ∀ key ∈ kept, req'.header.lookup key =
      (outgoing containsToken toLower (rp.direct toLower)
        req).header.lookup key)
    (hroute : ∀ kv ∈ (rp'.director toLower req'.toRequest).setHeaders,
      canonicalMIMEHeaderKey kv.1 ∉ kept)
    (hkey : key ∈ kept) :
    (rp'.direct toLower req').header.lookup key =
      (outgoingHeader containsToken toLower req.remoteAddr
        (rp.direct toLower req).header).lookup key := by
  rw [← outgoing_header, ← htransport key hkey]
  apply Header.lookup_foldl_set_of_notMem
  intro hmem
  obtain ⟨kv, hkv, rfl⟩ := List.mem_map.mp hmem
  exact hroute kv hkv hkey

/-- `Connection` is passed on as it came, or it is gone or asks for the upgrade. -/
theorem lookup_connection_outgoingHeader (remoteAddr : Bytes) (h : Header) :
    Leaks containsToken toLower h ∧
        (outgoingHeader containsToken toLower remoteAddr h).lookup connection =
          h.lookup connection ∨
      (outgoingHeader containsToken toLower remoteAddr h).lookup connection =
        none ∨
      (outgoingHeader containsToken toLower remoteAddr h).lookup connection =
        some (some [upgrade]) := by
  have hxff : connection ≠ xForwardedFor := by decide
  have hupgrade : connection ≠ upgrade := by decide
  have hte : connection ≠ te := by decide
  rw [lookup_outgoingHeader hxff, if_neg (fun h => hupgrade h.2)]
  split
  · exact Or.inr (Or.inr rfl)
  · next htype =>
      split
      · exact Or.inr (Or.inl rfl)
      · next hkept =>
          left
          simp only [ne_eq, and_true, not_not] at htype
          rw [not_or] at hkept
          refine ⟨⟨htype, ?_, hkept.1⟩, rfl⟩
          by_contra hfirst
          exact hkept.2 ⟨connection_mem_hopHeaders, hfirst, fun h => hte h.1⟩

/-- The next proxy finds `Connection` as this one did, or it names nothing but
`Upgrade`. -/
theorem connectionNames_outgoingHeader {remoteAddr : Bytes} {h h' : Header}
    (hconn : h'.lookup connection =
      (outgoingHeader containsToken toLower remoteAddr h).lookup connection) :
    Leaks containsToken toLower h ∧
        h'.lookup connection = h.lookup connection ∨
      connectionNames h' ⊆ [upgrade] := by
  rcases @lookup_connection_outgoingHeader containsToken toLower remoteAddr h
    with ⟨hleaks, hsame⟩ | hnone | hupgrade
  · exact Or.inl ⟨hleaks, hconn.trans hsame⟩
  · have hnames : connectionNames h' = [] := by
      rw [connectionNames, Header.values, hconn, hnone]
      rfl
    exact Or.inr (by rw [hnames]; exact List.nil_subset _)
  · have hnames : connectionNames h' = [upgrade] := by
      rw [connectionNames, Header.values, hconn, hupgrade]
      decide
    exact Or.inr (by rw [hnames]; exact List.Subset.refl _)

/-- One proxy on a field that is neither part of an upgrade nor the chain of
addresses. -/
theorem lookup_outgoingHeader_of_ne {key : Bytes} (hconn : key ≠ connection)
    (hup : key ≠ upgrade) (hxff : key ≠ xForwardedFor) (remoteAddr : Bytes)
    (h : Header) :
    (outgoingHeader containsToken toLower remoteAddr h).lookup key =
      if key ∈ connectionNames h ∨ key ∈ hopHeaders ∧ Dropped h key then none
      else h.lookup key := by
  rw [lookup_outgoingHeader hxff]
  simp [hconn, hup]

theorem lookup_through {kept ips : List Bytes} {rp : HTTPReverseProxy Conn}
    {req out : HTTPRequest Body} {key : Bytes}
    (hkey : key ∈ kept) (hkept : connection ∈ kept) (hconn : key ≠ connection)
    (hup : key ≠ upgrade) (hxff : key ≠ xForwardedFor)
    (hthrough : Through containsToken toLower kept rp req ips out) :
    out.header.lookup key =
      if key ∈ connectionNames (rp.direct toLower req).header ∨
        key ∈ hopHeaders ∧ Dropped (rp.direct toLower req).header key then none
      else (rp.direct toLower req).header.lookup key := by
  induction hthrough with
  | last hsplit => exact lookup_outgoingHeader_of_ne hconn hup hxff _ _
  | @next rp rp' req req' out ip port ips hsplit htransport hroute hrest ih =>
      have hnext := lookup_next htransport hroute hkey
      rw [lookup_outgoingHeader_of_ne hconn hup hxff] at hnext
      have hnames := connectionNames_outgoingHeader
        (lookup_next htransport hroute hkept)
      rw [ih]
      split at hnext
      · next hgone =>
          rw [hnext, if_pos hgone]
          exact ite_self _
      · next hstays =>
          rw [hnext, if_neg, if_neg hstays]
          rw [not_or] at hstays ⊢
          constructor
          · rcases hnames with ⟨-, hsame⟩ | hsub
            · rw [connectionNames_congr hsame]
              exact hstays.1
            · exact fun hmem => hup (List.mem_singleton.mp (hsub hmem))
          · rintro ⟨hhop, hdropped⟩
            exact hstays.2 ⟨hhop, (dropped_congr
              (canonical_hopHeaders key hhop) hnext).mp hdropped⟩

theorem connection_through {kept ips : List Bytes} {rp : HTTPReverseProxy Conn}
    {req out : HTTPRequest Body} (hkept : connection ∈ kept)
    (hthrough : Through containsToken toLower kept rp req ips out) :
    Leaks containsToken toLower (rp.direct toLower req).header ∧
        out.header.lookup connection =
          (rp.direct toLower req).header.lookup connection ∨
      out.header.lookup connection = none ∨
      out.header.lookup connection = some (some [upgrade]) := by
  induction hthrough with
  | last hsplit => exact lookup_connection_outgoingHeader _ _
  | @next rp rp' req req' out ip port ips hsplit htransport hroute hrest ih =>
      rcases ih with ⟨-, hsame⟩ | hrest
      · rw [hsame, lookup_next htransport hroute hkept]
        exact lookup_connection_outgoingHeader _ _
      · exact Or.inr hrest

/-- A proxy that passes `Connection` on leaves it to the next to do the same. -/
theorem leaks_outgoingHeader {remoteAddr : Bytes} {h h' : Header}
    (htoLower : toLower [] = []) (hleaks : Leaks containsToken toLower h)
    (hconn : h'.lookup connection =
      (outgoingHeader containsToken toLower remoteAddr h).lookup connection)
    (hup : h'.lookup upgrade =
      (outgoingHeader containsToken toLower remoteAddr h).lookup upgrade) :
    h'.lookup connection = h.lookup connection ∧
      Leaks containsToken toLower h' := by
  obtain ⟨htype, hfirst, hself⟩ := hleaks
  have hne : connection ≠ xForwardedFor := by decide
  have hne' : upgrade ≠ xForwardedFor := by decide
  have hsame : h'.lookup connection = h.lookup connection := by
    rw [hconn, lookup_outgoingHeader hne]
    simp [htype, hself, Dropped, hfirst]
  have hgetUpgrade : h'.get upgrade = [] := by
    rw [lookup_outgoingHeader hne'] at hup
    simp only [htype, ne_eq, not_true_eq_false, false_and, if_false] at hup
    split at hup
    · exact get_of_lookup_eq_none canonical_upgrade hup
    · next hkept =>
        rw [get_congr canonical_upgrade hup]
        by_contra hsome
        apply hkept
        refine Or.inr ⟨upgrade_mem_hopHeaders, hsome, ?_⟩
        have hte : upgrade ≠ te := by decide
        exact fun h => hte h.1
  refine ⟨hsame, ?_, ?_, ?_⟩
  · rw [upgradeType, hgetUpgrade, htoLower]
    split <;> rfl
  · rw [get_congr canonical_connection hsame, hfirst]
  · rwa [connectionNames_congr hsame]

/-- What the last backend finds as the chain of addresses. -/
def forwardedBy (containsToken : List Bytes → Bytes → Bool)
    (toLower : Bytes → Bytes) (h : Header) (ips : List Bytes) : List Bytes :=
  if (connectionNames h).contains xForwardedFor then
    if Leaks containsToken toLower h then ips.drop (ips.length - 1) else ips
  else h.values xForwardedFor ++ ips

theorem forwardedBy_eq (h : Header) (ips : List Bytes) :
    forwardedBy containsToken toLower h ips =
      if xForwardedFor ∈ connectionNames h then
        if Leaks containsToken toLower h then ips.drop (ips.length - 1) else ips
      else h.values xForwardedFor ++ ips := by
  simp only [forwardedBy, List.contains_iff_mem]

theorem ne_nil_of_through {kept ips : List Bytes} {rp : HTTPReverseProxy Conn}
    {req out : HTTPRequest Body}
    (hthrough : Through containsToken toLower kept rp req ips out) :
    ips ≠ [] := by
  cases hthrough with
  | last => exact List.cons_ne_nil _ _
  | next => exact List.cons_ne_nil _ _

/-- The chain that the next proxy starts from comes to the chain of this one. -/
theorem joinComma_forwardedBy {remoteAddr ip : Bytes} {ips : List Bytes}
    {h h' : Header} (htoLower : toLower [] = []) (hips : ips ≠ [])
    (hxff : h'.values xForwardedFor =
      [joinComma ((if xForwardedFor ∈ connectionNames h then []
        else h.values xForwardedFor) ++ [ip])])
    (hconn : h'.lookup connection =
      (outgoingHeader containsToken toLower remoteAddr h).lookup connection)
    (hup : h'.lookup upgrade =
      (outgoingHeader containsToken toLower remoteAddr h).lookup upgrade) :
    joinComma (forwardedBy containsToken toLower h' ips) =
      joinComma (forwardedBy containsToken toLower h (ip :: ips)) := by
  have hfresh : connectionNames h' ⊆ [upgrade] →
      xForwardedFor ∉ connectionNames h' := fun hsub hmem =>
    absurd (hsub hmem) (by decide)
  by_cases hnamed : xForwardedFor ∈ connectionNames h
  · rw [if_pos hnamed] at hxff
    by_cases hleaks : Leaks containsToken toLower h
    · obtain ⟨hsame, hleaks'⟩ := leaks_outgoingHeader htoLower hleaks hconn hup
      have hnamed' : xForwardedFor ∈ connectionNames h' := by
        rwa [connectionNames_congr hsame]
      obtain ⟨first, rest, rfl⟩ := List.exists_cons_of_ne_nil hips
      simp [forwardedBy_eq, hnamed, hnamed', hleaks, hleaks']
    · have hnot : xForwardedFor ∉ connectionNames h' := by
        rcases connectionNames_outgoingHeader hconn with ⟨hyes, -⟩ | hsub
        · exact absurd hyes hleaks
        · exact hfresh hsub
      rw [forwardedBy_eq, if_neg hnot, hxff, List.singleton_append,
        joinComma_cons_joinComma (by simp)]
      simp [forwardedBy_eq, hnamed, hleaks]
  · rw [if_neg hnamed] at hxff
    have hnot : xForwardedFor ∉ connectionNames h' := by
      rcases connectionNames_outgoingHeader hconn with ⟨-, hsame⟩ | hsub
      · rwa [connectionNames_congr hsame]
      · exact hfresh hsub
    rw [forwardedBy_eq, if_neg hnot, hxff, List.singleton_append,
      joinComma_cons_joinComma (by simp)]
    simp [forwardedBy_eq, hnamed]

theorem forwardedFor_through {kept ips : List Bytes}
    {rp : HTTPReverseProxy Conn} {req out : HTTPRequest Body}
    (htoLower : toLower [] = [])
    (hkept : [connection, upgrade, xForwardedFor] ⊆ kept)
    (hnil : (rp.direct toLower req).header.lookup xForwardedFor ≠ some none)
    (hthrough : Through containsToken toLower kept rp req ips out) :
    out.header.lookup xForwardedFor =
      some (some [joinComma (forwardedBy containsToken toLower
        (rp.direct toLower req).header ips)]) := by
  have hconn : connection ∈ kept := hkept (by simp)
  have hup : upgrade ∈ kept := hkept (by simp)
  have hxff : xForwardedFor ∈ kept := hkept (by simp)
  induction hthrough with
  | @last rp req ip port hsplit =>
      have hone := @lookup_outgoingHeader_forwardedFor containsToken toLower
        req.remoteAddr ip port _ hsplit hnil
      refine hone.trans ?_
      simp only [forwardedBy_eq]
      by_cases hnamed :
          xForwardedFor ∈ connectionNames (rp.direct toLower req).header
      · simp [hnamed]
      · simp [hnamed]
  | @next rp rp' req req' out ip port ips hsplit htransport hroute hrest ih =>
      have hfirst := (lookup_next htransport hroute hxff).trans
        (lookup_outgoingHeader_forwardedFor hsplit hnil)
      rw [ih (by rw [hfirst]; simp)]
      congr 3
      apply joinComma_forwardedBy htoLower (ne_nil_of_through hrest)
      · rw [Header.values, hfirst]
        rfl
      · exact lookup_next htransport hroute hconn
      · exact lookup_next htransport hroute hup

/-- What the last of any number of proxies sends: every field but three is as
the first route left it, unless `Connection` named it or it is hop-by-hop; a
`Connection` that survives is the one that `Leaks` says or asks for an upgrade;
and `X-Forwarded-For` is the chain of `forwardedBy`. -/
theorem header_through {kept ips : List Bytes} {rp : HTTPReverseProxy Conn}
    {req out : HTTPRequest Body} (htoLower : toLower [] = [])
    (hkept : [connection, upgrade, xForwardedFor] ⊆ kept)
    (hnil : (rp.direct toLower req).header.lookup xForwardedFor ≠ some none)
    (hthrough : Through containsToken toLower kept rp req ips out) :
    let h := (rp.direct toLower req).header
    (∀ key ∈ kept, key ∉ [connection, upgrade, xForwardedFor] →
      out.header.lookup key =
        if key ∈ connectionNames h ∨ key ∈ hopHeaders ∧ Dropped h key then none
        else h.lookup key) ∧
    (Leaks containsToken toLower h ∧
        out.header.lookup connection = h.lookup connection ∨
      out.header.lookup connection = none ∨
      out.header.lookup connection = some (some [upgrade])) ∧
    out.header.lookup xForwardedFor =
      some (some [joinComma (forwardedBy containsToken toLower h ips)]) := by
  refine ⟨?_, connection_through (hkept (by simp)) hthrough,
    forwardedFor_through htoLower hkept hnil hthrough⟩
  intro key hkey hother
  simp only [List.mem_cons, List.not_mem_nil, or_false, not_or] at hother
  exact lookup_through hkey (hkept (by simp)) hother.1 hother.2.1 hother.2.2
    hthrough

end Through

/-- Some value has the token among its parts, in any case. -/
def sampleContainsToken (values : List Bytes) (token : Bytes) : Bool :=
  values.any fun value => (value.splitOn comma).any fun part =>
    asciiToLower (trimString part) == asciiToLower token

/-- A request behind a proxy, with an empty `Connection` before another one that
names the chain. -/
def sampleRequest : HTTPRequest Unit where
  method := ascii "GET"
  urlScheme := []
  urlHost := []
  urlPath := ascii "/"
  host := ascii "example.com"
  remoteAddr := ascii "192.0.2.1:4000"
  header := ((((Header.empty.set xForwardedFor (ascii "198.51.100.7")).add
    connection []).add connection (ascii "x-forwarded-for")).set
    (ascii "Accept") (ascii "*/*"))
  contentLength := 0
  close := false
  body := none

def sampleProxy : HTTPReverseProxy Unit :=
  HTTPReverseProxy.newHTTPReverseProxy Unit

/-- What the first proxy sends for it, as the second one receives it. -/
def sampleSecond : HTTPRequest Unit :=
  { outgoing sampleContainsToken asciiToLower (sampleProxy.direct asciiToLower)
      sampleRequest with
    remoteAddr := ascii "192.0.2.2:5000" }

theorem through_sampleRequest :
    Through sampleContainsToken asciiToLower
      [ascii "Accept", connection, upgrade, xForwardedFor] sampleProxy
      sampleRequest [ascii "192.0.2.1", ascii "192.0.2.2"]
      (outgoing sampleContainsToken asciiToLower
        (sampleProxy.direct asciiToLower) sampleSecond) := by
  have hfirst : splitHostPort sampleRequest.remoteAddr =
      .ok (ascii "192.0.2.1", ascii "4000") := by decide
  have hsecond : splitHostPort sampleSecond.remoteAddr =
      .ok (ascii "192.0.2.2", ascii "5000") := by decide
  refine Through.next hfirst ?_ ?_ (Through.last hsecond)
  · intro key _
    rfl
  · intro kv hkv
    exact absurd hkv List.not_mem_nil

/-- Behind two proxies the backend is told neither of the clients before. -/
theorem header_through_sampleRequest :
    (outgoing sampleContainsToken asciiToLower
      (sampleProxy.direct asciiToLower) sampleSecond).header.lookup
        xForwardedFor = some (some [ascii "192.0.2.2"]) := by
  have hthrough := header_through rfl (List.subset_cons_self _ _) (by decide)
    through_sampleRequest
  rw [hthrough.2.2]
  decide

end ReverseProxy

end Frp

/-
The response side of `pkg/util/vhost/reverseproxy.go`: the header that the user is
sent, the copy of the body, when a response counts as complete, and when a backend
may switch protocols.
-/
import Frp.Lib.GoStream
import Frp.Vhost.ReverseProxy

namespace Frp

open GoStrings GoHeader GoStream

namespace ReverseProxy

variable {S D E : Type}

/-- A response of the backend, whose body is read from a state on; `trailer` is
what the map of that name holds when the reading has come to a state. -/
structure Response (S : Type) where
  statusCode : Nat
  header : Header
  body : S
  trailer : S → Header

/-- The loops of `copyHeader`, with the names changed by `rename`. -/
def addAll (rename : Bytes → Bytes) (dst src : Header) : Header :=
  src.fields.entries.foldl
    (fun dst kv =>
      (kv.2.getD []).foldl (fun dst v => dst.add (rename kv.1) v) dst) dst

def copyHeader (dst src : Header) : Header := addAll id dst src

/-- `http.TrailerPrefix`. -/
def trailerPrefix : Bytes := ascii "Trailer:"

/-- What goes out with the status line, before the body is read. -/
def responseHeader (rwHeader : Header) (res : Response S) : Header :=
  let header := hopHeaders.foldl Header.del (removeConnectionHeaders res.header)
  let header := copyHeader rwHeader header
  let trailerKeys := (res.trailer res.body).fields.keys
  if 0 < trailerKeys.length then
    header.add (ascii "Trailer") (joinComma trailerKeys)
  else header

/-- What stands in the header of the writer after the body: the trailers under
their names if there are as many as were announced. -/
def finalHeader (header : Header) (announcedTrailers : Nat)
    (trailer : Header) : Header :=
  if trailer.fields.keys.length = announcedTrailers then
    copyHeader header trailer
  else addAll (trailerPrefix ++ ·) header trailer

section Copy

variable (reader : Reader S UInt8 E) (writer : Writer D UInt8 E)
  (eof errShortWrite : E) [DecidableEq E]

/-- What `copyBuffer` returns, with all that was read and the calls of `Write`. -/
structure Copied (S D E : Type) where
  src : S
  dst : D
  read : Bytes
  sent : List (Sent UInt8)
  written : Nat
  err : Option E

/-- A copy that one turn of the loop comes before. -/
def Copied.after (data : Bytes) (sent : List (Sent UInt8))
    (c : Copied S D E) : Copied S D E :=
  { c with read := data ++ c.read, sent := sent ++ c.sent }

/-- One turn of the loop behind its `Read`: nothing is written when nothing was
read. -/
def forward (dst : D) (data : Bytes) : Written D E × List (Sent UInt8) :=
  if 0 < data.length then
    let w := writer.write dst data
    let err := match w.err with
      | some werr => some werr
      | none => if data.length ≠ w.n then some errShortWrite else none
    (⟨w.world, w.n, err⟩, [⟨data, w.n⟩])
  else (⟨dst, 0, none⟩, [])

/-- `copyBuffer` with a buffer of `size` bytes and as many turns as `fuel`. -/
def copyBuffer (size : Nat) : Nat → S → D → Nat → Option (Copied S D E)
  | 0, _, _, _ => none
  | fuel + 1, src, dst, written =>
      let got := reader.read src size
      let (w, sent) := forward writer errShortWrite dst got.data
      match w.err, got.err with
      | some werr, _ => some
          ⟨got.world, w.world, got.data, sent, written + w.n, some werr⟩
      | none, some rerr => some
          ⟨got.world, w.world, got.data, sent, written + w.n,
            if rerr = eof then none else some rerr⟩
      | none, none =>
          (copyBuffer size fuel got.world w.world (written + w.n)).map
            (Copied.after got.data sent)

/-- The handler returns, or it panics with `ErrAbortHandler`, on which the server
drops the connection of the user. -/
inductive Ending where
  | returned
  | aborted
deriving DecidableEq, Repr

/-- What the user is sent. -/
structure Reply where
  statusCode : Nat
  header : Header
  body : Bytes
  final : Header
  ending : Ending

/-- How taking over the connection of the user goes: the writer is no `Hijacker`,
the body cannot be written to, or one of the three calls fails. -/
inductive Takeover where
  | notHijacker
  | notWritable
  | notHijacked
  | notWritten
  | notFlushed
  | done
deriving DecidableEq, Repr

/-- What becomes of a response: the user is sent a reply, or what the error handler
answers with, or has its connection closed or joined with that of the backend. -/
inductive Passed where
  | replied (reply : Reply)
  | errorHandler
  | closed
  | switched (statusCode : Nat) (header : Header)

/-- `handleUpgradeResponse` up to the two copies; `reqHeader` is the header that was
sent to the backend.  Once the connection is taken over, what the error handler
writes reaches nobody. -/
def handleUpgradeResponse (containsToken : List Bytes → Bytes → Bool)
    (toLower : Bytes → Bytes) (takeover : Takeover) (reqHeader rwHeader : Header)
    (res : Response S) : Passed :=
  if upgradeType containsToken toLower reqHeader ≠
      upgradeType containsToken toLower res.header then .errorHandler
  else
    match takeover with
    | .notHijacker | .notWritable | .notHijacked => .errorHandler
    | .notWritten | .notFlushed => .closed
    | .done => .switched res.statusCode (copyHeader rwHeader res.header)

/-- `ServeHTTP` from the answer of the backend on.  Under an HTTP server a copy
that fails ends in a panic. -/
def serveResponse (containsToken : List Bytes → Bytes → Bool)
    (toLower : Bytes → Bytes) (size fuel : Nat) (underServer : Bool)
    (takeover : Takeover) (reqHeader rwHeader : Header) (dst : D)
    (res : Response S) : Option Passed :=
  if res.statusCode = 101 then
    some (handleUpgradeResponse containsToken toLower takeover reqHeader rwHeader
      res)
  else
    let header := responseHeader rwHeader res
    (copyBuffer reader writer eof errShortWrite size fuel res.body dst 0).map
      fun c =>
        let body := c.sent.flatMap Sent.taken
        match c.err with
        | some _ => .replied
            { statusCode := res.statusCode
              header := header
              body := body
              final := header
              ending := if underServer then .aborted else .returned }
        | none => .replied
            { statusCode := res.statusCode
              header := header
              body := body
              final := finalHeader header
                (res.trailer res.body).fields.keys.length (res.trailer c.src)
              ending := .returned }

end Copy

theorem values_foldl_add (key : Bytes) (values : List Bytes) (dst : Header)
    (other : Bytes) (hkey : canonicalMIMEHeaderKey key = key) :
    (values.foldl (fun dst v => dst.add key v) dst).values other =
      if other = key then dst.values other ++ values else dst.values other := by
  induction values generalizing dst with
  | nil => simp
  | cons v rest ih =>
      rw [List.foldl_cons, ih, Header.values_add, hkey]
      split
      · simp
      · rfl

/-- Every name is added to once, with all its values. -/
theorem values_addAll {rename : Bytes → Bytes} {dst src : Header}
    (hinj : Function.Injective rename)
    (hcanonical : ∀ key ∈ src.fields,
      canonicalMIMEHeaderKey (rename key) = rename key) (key : Bytes) :
    (addAll rename dst src).values (rename key) =
      dst.values (rename key) ++ src.values key := by
  have hloop : ∀ entries : List (Sigma fun _ : Bytes => Option (List Bytes)),
      entries.NodupKeys →
      (∀ kv ∈ entries, canonicalMIMEHeaderKey (rename kv.1) = rename kv.1) →
      ∀ dst : Header,
      (entries.foldl (fun dst kv => (kv.2.getD []).foldl
        (fun dst v => dst.add (rename kv.1) v) dst) dst).values (rename key) =
        dst.values (rename key) ++ ((entries.dlookup key).getD none).getD [] := by
    intro entries
    induction entries with
    | nil => simp
    | cons kv rest ih =>
        intro hnodup hcanonical dst
        obtain ⟨hfresh, hrest⟩ := List.nodupKeys_cons.mp hnodup
        rw [List.foldl_cons,
          ih hrest fun kv hkv => hcanonical kv (List.mem_cons_of_mem _ hkv),
          values_foldl_add _ _ _ _ (hcanonical kv List.mem_cons_self)]
        obtain ⟨k, values⟩ := kv
        by_cases heq : key = k
        · subst heq
          have hnone : rest.dlookup key = none := List.dlookup_eq_none.mpr hfresh
          simp [hnone]
        · have hne : ¬ rename key = rename k := fun h => heq (hinj h)
          rw [if_neg hne, List.dlookup_cons_ne rest ⟨k, values⟩ heq]
  apply hloop src.fields.entries src.fields.nodupKeys
  intro kv hkv
  exact hcanonical kv.1 (AList.mem_keys.mpr (List.mem_map_of_mem hkv))

theorem values_copyHeader (dst src : Header) (key : Bytes) :
    (copyHeader dst src).values key = dst.values key ++ src.values key :=
  values_addAll Function.injective_id (fun k hk => src.canonical k hk) key

/-- A name with a colon is no field name, so it stays as it is. -/
theorem values_addAll_trailerPrefix (dst src : Header) (key : Bytes) :
    (addAll (trailerPrefix ++ ·) dst src).values (trailerPrefix ++ key) =
      dst.values (trailerPrefix ++ key) ++ src.values key := by
  apply values_addAll (List.append_right_injective trailerPrefix)
  intro k _
  have hcolon : ¬ (trailerPrefix ++ k).all isTokenByte = true := by
    rw [List.all_append, Bool.and_eq_true, not_and_or]
    exact Or.inl (by decide)
  rw [canonicalMIMEHeaderKey, if_neg hcolon]

theorem map_canonical_hopHeaders :
    hopHeaders.map canonicalMIMEHeaderKey = hopHeaders := by decide

/-- The user gets the values of the backend in every field that is neither
hop-by-hop nor named by `Connection`, and no value in any other field, but for
the announcement of trailers. -/
theorem values_responseHeader (res : Response S) {key : Bytes} :
    (responseHeader Header.empty res).values key =
      if key = ascii "Trailer" then
        if 0 < (res.trailer res.body).fields.keys.length then
          [joinComma (res.trailer res.body).fields.keys]
        else []
      else if key ∈ connectionNames res.header ∨ key ∈ hopHeaders then []
      else res.header.values key := by
  have hcopied : ∀ k, (copyHeader Header.empty (hopHeaders.foldl Header.del
      (removeConnectionHeaders res.header))).values k =
        if k ∈ connectionNames res.header ∨ k ∈ hopHeaders then []
        else res.header.values k := by
    intro k
    have hempty : Header.empty.values k = [] := rfl
    rw [values_copyHeader, hempty, List.nil_append, Header.values,
      Header.lookup_foldl_del, map_canonical_hopHeaders,
      lookup_removeConnectionHeaders]
    by_cases hhop : k ∈ hopHeaders
    · simp [hhop]
    · by_cases hnamed : k ∈ connectionNames res.header
      · simp [hnamed]
      · simp [hhop, hnamed, Header.values]
  have htrailer : canonicalMIMEHeaderKey (ascii "Trailer") =
      ascii "Trailer" := by decide
  have hmem : ascii "Trailer" ∈ hopHeaders := by decide
  unfold responseHeader
  dsimp only
  by_cases hannounced : 0 < (res.trailer res.body).fields.keys.length
  · rw [if_pos hannounced, Header.values_add, htrailer, hcopied,
      if_pos hannounced]
    by_cases heq : key = ascii "Trailer"
    · simp [heq, hmem]
    · simp [heq]
  · rw [if_neg hannounced, hcopied, if_neg hannounced]
    by_cases heq : key = ascii "Trailer"
    · simp [heq, hmem]
    · simp [heq]

section Copy

variable (reader : Reader S UInt8 E) (writer : Writer D UInt8 E)
  (eof errShortWrite : E)

/-- Reading from `src` on gives `data` up to the first error, after which the
body is in the state `last`. -/
inductive Reads (size : Nat) : S → Bytes → E → S → Prop
  | stop {src : S} {err : E} (herr : (reader.read src size).err = some err) :
      Reads size src (reader.read src size).data err
        (reader.read src size).world
  | more {src last : S} {data : Bytes} {err : E}
      (hnone : (reader.read src size).err = none)
      (hrest : Reads size (reader.read src size).world data err last) :
      Reads size src ((reader.read src size).data ++ data) err last

/-- The bytes that were taken are the first ones of the data, all of them if
there is no error. -/
theorem forward_spec (dst : D) (data : Bytes) :
    let turn := forward writer errShortWrite dst data
    turn.2.flatMap Sent.taken = data.take turn.1.n ∧
      turn.1.n ≤ data.length ∧ (turn.1.err = none → turn.1.n = data.length) := by
  unfold forward
  split
  · refine ⟨?_, writer.le dst data, ?_⟩
    · simp [Sent.taken]
    · intro hnone
      apply writer.short dst data
      dsimp only at hnone
      split at hnone
      · cases hnone
      · next hwrite => exact hwrite
  · next hempty =>
      have hnil : data = [] := List.length_eq_zero_iff.mp (by omega)
      simp [hnil]

/-- No `Write` fails. -/
def Willing : Prop := ∀ dst p, (writer.write dst p).err = none

theorem forward_err_of_willing (hwilling : Willing writer) (dst : D)
    (data : Bytes) : (forward writer errShortWrite dst data).1.err = none := by
  unfold forward
  split
  · have hnone := hwilling dst data
    simp [hnone, writer.short dst data hnone]
  · rfl

/-- What a copy passed on of a body with this content. -/
structure Copied.Of (c : Copied S D E) (written : Nat) (data : Bytes) (err : E)
    (last : S) : Prop where
  taken : c.sent.flatMap Sent.taken <+: data
  counted : c.written = written + (c.sent.flatMap Sent.taken).length
  whole : c.err = none → err = eof ∧ c.sent.flatMap Sent.taken = data ∧
    c.src = last
  answered : Willing writer → err = eof → c.err = none

theorem Copied.Of.after {c : Copied S D E} {written n : Nat}
    {data first : Bytes} {sent : List (Sent UInt8)} {err : E} {last : S}
    (hof : c.Of writer eof (written + n) data err last)
    (hsent : sent.flatMap Sent.taken = first) (hn : n = first.length) :
    (c.after first sent).Of writer eof written (first ++ data) err last where
  taken := by
    rw [Copied.after, List.flatMap_append, hsent]
    exact (List.prefix_append_right_inj first).mpr hof.taken
  counted := by
    rw [Copied.after, List.flatMap_append, hsent, List.length_append]
    have hcounted := hof.counted
    dsimp only
    omega
  whole hnone := by
    obtain ⟨heof, hall, hlast⟩ := hof.whole hnone
    refine ⟨heof, ?_, hlast⟩
    rw [Copied.after, List.flatMap_append, hsent, hall]
  answered := hof.answered

/-- A turn whose `Write` fails, of a body that begins with what was read. -/
theorem Copied.Of.cut {world : S} {dst : D} {first data : Bytes}
    {sent : List (Sent UInt8)} {written n : Nat} {werr err : E} {last : S}
    (hfails : ¬ Willing writer)
    (htaken : sent.flatMap Sent.taken = first.take n) (hle : n ≤ first.length)
    (hfirst : first <+: data) :
    (⟨world, dst, first, sent, written + n, some werr⟩ :
      Copied S D E).Of writer eof written data err last where
  taken := by
    rw [htaken]
    exact (List.take_prefix n first).trans hfirst
  counted := by
    rw [htaken, List.length_take_of_le hle]
  whole hnone := by cases hnone
  answered hwilling := absurd hwilling hfails

variable [DecidableEq E]

section Turn

variable {size fuel written : Nat} {src : S} {dst : D}

theorem copyBuffer_cut {werr : E}
    (hturn : (forward writer errShortWrite dst
      (reader.read src size).data).1.err = some werr) :
    copyBuffer reader writer eof errShortWrite size (fuel + 1) src dst written =
      some ⟨(reader.read src size).world,
        (forward writer errShortWrite dst (reader.read src size).data).1.world,
        (reader.read src size).data,
        (forward writer errShortWrite dst (reader.read src size).data).2,
        written +
          (forward writer errShortWrite dst (reader.read src size).data).1.n,
        some werr⟩ := by
  simp only [copyBuffer, hturn]

theorem copyBuffer_last {err : E}
    (hturn : (forward writer errShortWrite dst
      (reader.read src size).data).1.err = none)
    (herr : (reader.read src size).err = some err) :
    copyBuffer reader writer eof errShortWrite size (fuel + 1) src dst written =
      some ⟨(reader.read src size).world,
        (forward writer errShortWrite dst (reader.read src size).data).1.world,
        (reader.read src size).data,
        (forward writer errShortWrite dst (reader.read src size).data).2,
        written +
          (forward writer errShortWrite dst (reader.read src size).data).1.n,
        if err = eof then none else some err⟩ := by
  simp only [copyBuffer, hturn, herr]

theorem copyBuffer_next
    (hturn : (forward writer errShortWrite dst
      (reader.read src size).data).1.err = none)
    (hnone : (reader.read src size).err = none) :
    copyBuffer reader writer eof errShortWrite size (fuel + 1) src dst written =
      (copyBuffer reader writer eof errShortWrite size fuel
        (reader.read src size).world
        (forward writer errShortWrite dst (reader.read src size).data).1.world
        (written +
          (forward writer errShortWrite dst (reader.read src size).data).1.n)).map
        (Copied.after (reader.read src size).data
          (forward writer errShortWrite dst (reader.read src size).data).2) := by
  simp only [copyBuffer, hturn, hnone]

end Turn

/-- The copy of a body that comes to an end ends, whatever the writer does. -/
theorem copyBuffer_spec {size : Nat} {src last : S} {data : Bytes} {err : E}
    (hreads : Reads reader size src data err last) :
    ∃ turns, ∀ fuel, turns ≤ fuel → ∀ (dst : D) (written : Nat),
      ∃ c, copyBuffer reader writer eof errShortWrite size fuel src dst
          written = some c ∧ c.Of writer eof written data err last := by
  induction hreads with
  | @stop src err herr =>
      refine ⟨1, fun fuel hfuel dst written => ?_⟩
      obtain ⟨fuel, rfl⟩ := Nat.exists_eq_add_of_le' hfuel
      obtain ⟨htaken, hle, hall⟩ := forward_spec writer errShortWrite dst
        (reader.read src size).data
      cases hturn : (forward writer errShortWrite dst
          (reader.read src size).data).1.err with
      | some werr =>
          have hfails : ¬ Willing writer := by
            intro hwilling
            rw [forward_err_of_willing writer errShortWrite hwilling] at hturn
            cases hturn
          exact ⟨_, copyBuffer_cut reader writer eof errShortWrite hturn,
            Copied.Of.cut writer eof hfails htaken hle List.prefix_rfl⟩
      | none =>
          rw [hall hturn, List.take_length] at htaken
          refine ⟨_, copyBuffer_last reader writer eof errShortWrite hturn herr,
            ?_, ?_, ?_, fun _ heof => if_pos heof⟩
          · rw [htaken]
          · rw [htaken, hall hturn]
          · intro hnone
            refine ⟨?_, htaken, rfl⟩
            by_contra hne
            rw [if_neg hne] at hnone
            cases hnone
  | @more src last data err hnone hrest ih =>
      obtain ⟨turns, hturns⟩ := ih
      refine ⟨turns + 1, fun fuel hfuel dst written => ?_⟩
      obtain ⟨fuel, rfl⟩ := Nat.exists_eq_add_of_le' hfuel
      obtain ⟨htaken, hle, hall⟩ := forward_spec writer errShortWrite dst
        (reader.read src size).data
      cases hturn : (forward writer errShortWrite dst
          (reader.read src size).data).1.err with
      | some werr =>
          have hfails : ¬ Willing writer := by
            intro hwilling
            rw [forward_err_of_willing writer errShortWrite hwilling] at hturn
            cases hturn
          exact ⟨_, copyBuffer_cut reader writer eof errShortWrite hturn,
            Copied.Of.cut writer eof hfails htaken hle (List.prefix_append _ _)⟩
      | none =>
          rw [hall hturn, List.take_length] at htaken
          obtain ⟨c, hc, hof⟩ := hturns (fuel + turns) (by omega) _ _
          refine ⟨_, ?_, hof.after writer eof htaken (hall hturn)⟩
          rw [← Nat.add_assoc,
            copyBuffer_next reader writer eof errShortWrite hturn hnone, hc]
          rfl

/-- The reply to a response whose body reads `data` up to `err`. -/
structure Reply.Of (reply : Reply) (res : Response S) (data : Bytes) (err : E)
    (last : S) : Prop where
  statusCode : reply.statusCode = res.statusCode
  header : ∀ key, reply.header.values key =
    if key = ascii "Trailer" then
      if 0 < (res.trailer res.body).fields.keys.length then
        [joinComma (res.trailer res.body).fields.keys]
      else []
    else if key ∈ connectionNames res.header ∨ key ∈ hopHeaders then []
    else res.header.values key
  body : reply.body <+: data
  complete : reply.ending = .returned → err = eof ∧ reply.body = data
  answered : Willing writer → err = eof → reply.ending = .returned
  trailer : reply.ending = .returned → ∀ key,
    if (res.trailer last).fields.keys.length =
        (res.trailer res.body).fields.keys.length then
      reply.final.values key =
        reply.header.values key ++ (res.trailer last).values key
    else
      reply.final.values (trailerPrefix ++ key) =
        reply.header.values (trailerPrefix ++ key) ++
          (res.trailer last).values key

/-- The backend has switched protocols: the user gets its header as it is, the
fields between neighbours included, if the switch is to what the request asked for
and the connection can be taken over, and an error or nothing if not. -/
def Passed.Switch (passed : Passed) (containsToken : List Bytes → Bytes → Bool)
    (toLower : Bytes → Bytes) (takeover : Takeover) (reqHeader : Header)
    (res : Response S) : Prop :=
  if upgradeType containsToken toLower reqHeader =
      upgradeType containsToken toLower res.header ∧ takeover = .done then
    ∃ header, passed = .switched 101 header ∧
      ∀ key, header.values key = res.header.values key
  else passed = .errorHandler ∨ passed = .closed

theorem handleUpgradeResponse_switch
    (containsToken : List Bytes → Bytes → Bool) (toLower : Bytes → Bytes)
    (takeover : Takeover) (reqHeader : Header) {res : Response S}
    (hstatus : res.statusCode = 101) :
    (handleUpgradeResponse containsToken toLower takeover reqHeader Header.empty
      res).Switch containsToken toLower takeover reqHeader res := by
  unfold Passed.Switch handleUpgradeResponse
  by_cases htype : upgradeType containsToken toLower reqHeader =
      upgradeType containsToken toLower res.header
  · rw [if_neg (not_not.mpr htype)]
    cases takeover with
    | notHijacker | notWritable | notHijacked =>
        rw [if_neg fun hdone => nomatch hdone.2]
        exact Or.inl rfl
    | notWritten | notFlushed =>
        rw [if_neg fun hdone => nomatch hdone.2]
        exact Or.inr rfl
    | done =>
        rw [if_pos ⟨htype, rfl⟩, hstatus]
        exact ⟨_, rfl, values_copyHeader Header.empty res.header⟩
  · rw [if_pos htype, if_neg fun hdone => htype hdone.1]
    exact Or.inl rfl

/-- Under an HTTP server a response whose body ends is answered, and an answer
that is not cut off is the whole response with its trailers; a switch of protocols
is passed on only where the user has asked for it. -/
theorem serveResponse_spec (containsToken : List Bytes → Bytes → Bool)
    (toLower : Bytes → Bytes) (takeover : Takeover) (reqHeader : Header)
    (size : Nat) (res : Response S) :
    (res.statusCode = 101 → ∀ (fuel : Nat) (dst : D), ∃ passed,
      serveResponse reader writer eof errShortWrite containsToken toLower size
        fuel true takeover reqHeader Header.empty dst res = some passed ∧
      passed.Switch containsToken toLower takeover reqHeader res) ∧
    (res.statusCode ≠ 101 → ∀ (data : Bytes) (err : E) (last : S),
      Reads reader size res.body data err last →
      ∃ turns, ∀ fuel, turns ≤ fuel → ∀ dst : D, ∃ reply,
        serveResponse reader writer eof errShortWrite containsToken toLower size
          fuel true takeover reqHeader Header.empty dst res =
            some (.replied reply) ∧
        reply.Of writer eof res data err last) := by
  refine ⟨fun hstatus fuel dst => ⟨_, if_pos hstatus,
    handleUpgradeResponse_switch containsToken toLower takeover reqHeader
      hstatus⟩, fun hstatus data err last hreads => ?_⟩
  obtain ⟨turns, hturns⟩ :=
    copyBuffer_spec reader writer eof errShortWrite hreads
  refine ⟨turns, fun fuel hfuel dst => ?_⟩
  simp only [serveResponse, if_neg hstatus]
  obtain ⟨c, hc, hof⟩ := hturns fuel hfuel dst 0
  cases hcopy : c.err with
  | some cerr =>
      refine ⟨_, by simp only [hc, Option.map_some, hcopy]; rfl,
        rfl, fun key => values_responseHeader res, hof.taken, ?_, ?_, ?_⟩
      · intro hreturned
        cases hreturned
      · intro hwilling heof
        rw [hof.answered hwilling heof] at hcopy
        cases hcopy
      · intro hreturned
        cases hreturned
  | none =>
      obtain ⟨heof, hall, hlast⟩ := hof.whole hcopy
      refine ⟨_, by simp only [hc, Option.map_some, hcopy]; rfl,
        rfl, fun key => values_responseHeader res, hof.taken,
        fun _ => ⟨heof, hall⟩, fun _ _ => rfl, ?_⟩
      intro _ key
      rw [hlast]
      split
      · next hsame =>
          rw [finalHeader, if_pos hsame, values_copyHeader]
      · next hmore =>
          rw [finalHeader, if_neg hmore, values_addAll_trailerPrefix]

end Copy

/-- A body in memory; the error `true` is its end. -/
def sampleReader : Reader Bytes UInt8 Bool where
  read rest len :=
    ⟨rest.drop len, rest.take len,
      if rest.length ≤ len then some true else none⟩
  le rest len := List.length_take_le len rest

def sampleWriter : Writer Bytes UInt8 Bool where
  write out p := ⟨out ++ p, p.length, none⟩
  le _ _ := Nat.le_refl _
  short _ _ _ := rfl

/-- A response that names a field of its own in `Connection`. -/
def sampleResponse : Response Bytes where
  statusCode := 200
  header := ((Header.empty.set connection (ascii "x-token")).set
    (ascii "X-Token") (ascii "1")).set (ascii "Content-Type")
    (ascii "text/plain")
  body := ascii "hello"
  trailer := fun _ => Header.empty

theorem serveResponse_spec_sampleResponse :
    ∃ turns, ∀ fuel, turns ≤ fuel → ∀ out : Bytes, ∃ reply,
      serveResponse sampleReader sampleWriter true false sampleContainsToken id 4
        fuel true .done Header.empty Header.empty out sampleResponse =
          some (.replied reply) ∧
      reply.ending = .returned ∧ reply.body = ascii "hello" ∧
      reply.header.values (ascii "Content-Type") = [ascii "text/plain"] ∧
      reply.header.values (ascii "X-Token") = [] := by
  have hreads : Reads sampleReader 4 sampleResponse.body
      (ascii "hell" ++ ascii "o") true [] :=
    .more (by decide) (.stop (by decide))
  obtain ⟨turns, hturns⟩ :=
    (serveResponse_spec sampleReader sampleWriter true false sampleContainsToken
      id .done Header.empty 4 sampleResponse).2 (by decide) _ _ _ hreads
  refine ⟨turns, fun fuel hfuel out => ?_⟩
  obtain ⟨reply, hreply, hof⟩ := hturns fuel hfuel out
  have hreturned := hof.answered (fun _ _ => rfl) rfl
  refine ⟨reply, hreply, hreturned, (hof.complete hreturned).2, ?_, ?_⟩
  · rw [hof.header]
    decide
  · rw [hof.header]
    decide

/-- A backend that switches though nobody has asked it to. -/
example : handleUpgradeResponse sampleContainsToken id .done Header.empty
    Header.empty { sampleResponse with
      statusCode := 101
      header := (Header.empty.set connection upgrade).set upgrade
        (ascii "websocket") } = .errorHandler :=
  if_pos (by decide)

end ReverseProxy

end Frp

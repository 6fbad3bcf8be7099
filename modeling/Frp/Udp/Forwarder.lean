/-
`Forwarder` of `pkg/proto/udp/udp.go`: one goroutine reads `readCh` and writes to a
socket for each user address, and one goroutine for each socket puts what it reads
on `sendCh`.  What is done under `mu` is one step.  How a user address is written
as a string is left open.
-/
import Frp.Lib.Ledger
import Frp.Udp.UDPProxy

namespace Frp

open Transition GoChan GoStrings

namespace Udp

namespace Forwarder

/-- The goroutine that reads `readCh`.  `ok` says that the socket was found in the
map. -/
inductive ReaderPc where
  | range
  | lookup (udpMsg : UDPPacket) (buf : Bytes)
  | write (udpMsg : UDPPacket) (buf : Bytes) (conn : Nat) (ok : Bool)
  | close (udpMsg : UDPPacket) (conn : Nat) (ok : Bool)
  | goWriter (udpMsg : UDPPacket) (conn : Nat) (ok : Bool)
  | returned
deriving DecidableEq

/-- `delete` and `close` are the deferred statements. -/
inductive WriterPc where
  | read
  | select (udpMsg : UDPPacket)
  | delete
  | close
  | returned
deriving DecidableEq

/-- A goroutine `writerFn(raddr, udpConn)`. -/
structure Writer where
  raddr : Option UDPAddr
  conn : Nat
  pc : WriterPc
deriving DecidableEq

/-- What has been written to a socket, and for which user. -/
structure Written where
  conn : Nat
  raddr : Option UDPAddr
  buf : Bytes
deriving DecidableEq

/-- Sockets are numbered as they are dialled, and `dialled` has the address of the
message that each was dialled for.  `put` are the packets put on `sendCh`, with the
socket they were read from. -/
structure State (cap : Nat) where
  udpConnMap : Bytes → Option Nat
  dialled : List (Option UDPAddr)
  closed : Nat → Bool
  reader : ReaderPc
  writers : List Writer
  sendCh : Chan WorkMsg cap
  put : List (Nat × UDPPacket)
  wrote : List Written

inductive Action (cap : Nat) where
  | receive (udpMsg : UDPPacket)
  | readClosed
  | lookup (dialed : Bool)
  | write (sent : Bool)
  | close
  | goWriter
  | readConn (i : Nat) (result : Option Bytes)
  | select (i : Nat)
  | delete (i : Nat)
  | closeConn (i : Nat)
  | elsewhere (sendCh : Chan WorkMsg cap)

variable {cap : Nat}

def start (sendCh : Chan WorkMsg cap) : State cap where
  udpConnMap := fun _ => none
  dialled := []
  closed := fun _ => false
  reader := .range
  writers := []
  sendCh := sendCh
  put := []
  wrote := []

namespace State

/-- A message that cannot be decoded is skipped. -/
def receive (s : State cap) (udpMsg : UDPPacket) : Option (State cap) :=
  match s.reader with
  | .range =>
      match getContent udpMsg with
      | none => some s
      | some buf => some { s with reader := .lookup udpMsg buf }
  | _ => none

def readClosed (s : State cap) : Option (State cap) :=
  match s.reader with
  | .range => some { s with reader := .returned }
  | _ => none

/-- The lookup, and a dial that succeeds or not when there is no socket. -/
def lookup (key : Option UDPAddr → Bytes) (s : State cap) (dialed : Bool) :
    Option (State cap) :=
  match s.reader with
  | .lookup udpMsg buf =>
      match s.udpConnMap (key udpMsg.remoteAddr) with
      | some conn => some { s with reader := .write udpMsg buf conn true }
      | none =>
          if dialed then
            some { s with
              udpConnMap := Function.update s.udpConnMap
                (key udpMsg.remoteAddr) (some s.dialled.length)
              dialled := s.dialled ++ [udpMsg.remoteAddr]
              reader := .write udpMsg buf s.dialled.length false }
          else some { s with reader := .range }
  | _ => none

/-- A write may fail, and does so on a closed socket. -/
def write (s : State cap) (sent : Bool) : Option (State cap) :=
  match s.reader with
  | .write udpMsg buf conn ok =>
      if sent then
        if s.closed conn then none
        else some { s with
          reader := .goWriter udpMsg conn ok
          wrote := s.wrote ++ [⟨conn, udpMsg.remoteAddr, buf⟩] }
      else some { s with reader := .close udpMsg conn ok }
  | _ => none

def close (s : State cap) : Option (State cap) :=
  match s.reader with
  | .close udpMsg conn ok => some { s with
      closed := Function.update s.closed conn true
      reader := .goWriter udpMsg conn ok }
  | _ => none

def goWriter (s : State cap) : Option (State cap) :=
  match s.reader with
  | .goWriter udpMsg conn ok =>
      if ok then some { s with reader := .range }
      else some { s with
        writers := s.writers ++ [⟨udpMsg.remoteAddr, conn, .read⟩]
        reader := .range }
  | _ => none

/-- Writer `i` goes on to `pc`. -/
def setWriter (s : State cap) (i : Nat) (w : Writer) (pc : WriterPc) :
    State cap :=
  { s with writers := s.writers.set i { w with pc := pc } }

/-- `none` is an error or the end of thirty seconds; a datagram that does not fit
in the buffer is cut. -/
def readConn (bufSize : Nat) (s : State cap) (i : Nat)
    (result : Option Bytes) : Option (State cap) :=
  match s.writers[i]? with
  | some ⟨raddr, conn, .read⟩ =>
      match result with
      | some datagram =>
          if s.closed conn then none
          else some (s.setWriter i ⟨raddr, conn, .read⟩
            (.select (newUDPPacket (datagram.take bufSize) none raddr)))
      | none => some (s.setWriter i ⟨raddr, conn, .read⟩ .delete)
  | _ => none

/-- A full channel drops the packet, and the panic on a closed one is turned into
an error. -/
def select (s : State cap) (i : Nat) : Option (State cap) :=
  match s.writers[i]? with
  | some ⟨raddr, conn, .select udpMsg⟩ =>
      match s.sendCh.send (.packet udpMsg) with
      | .done chan =>
          some { s.setWriter i ⟨raddr, conn, .select udpMsg⟩ .read with
            sendCh := chan
            put := s.put ++ [(conn, udpMsg)] }
      | .block => some (s.setWriter i ⟨raddr, conn, .select udpMsg⟩ .read)
      | .panic => some (s.setWriter i ⟨raddr, conn, .select udpMsg⟩ .delete)
  | _ => none

def delete (key : Option UDPAddr → Bytes) (s : State cap) (i : Nat) :
    Option (State cap) :=
  match s.writers[i]? with
  | some ⟨raddr, conn, .delete⟩ =>
      some { s.setWriter i ⟨raddr, conn, .delete⟩ .close with
        udpConnMap := Function.update s.udpConnMap (key raddr) none }
  | _ => none

def closeConn (s : State cap) (i : Nat) : Option (State cap) :=
  match s.writers[i]? with
  | some ⟨raddr, conn, .close⟩ =>
      some { s.setWriter i ⟨raddr, conn, .close⟩ .returned with
        closed := Function.update s.closed conn true }
  | _ => none

end State

/-- What other goroutines do to `sendCh` is not restricted. -/
def step (key : Option UDPAddr → Bytes) (bufSize : Nat) (s : State cap) :
    Action cap → Option (State cap)
  | .receive udpMsg => s.receive udpMsg
  | .readClosed => s.readClosed
  | .lookup dialed => s.lookup key dialed
  | .write sent => s.write sent
  | .close => s.close
  | .goWriter => s.goWriter
  | .readConn i result => s.readConn bufSize i result
  | .select i => s.select i
  | .delete i => s.delete key i
  | .closeConn i => s.closeConn i
  | .elsewhere sendCh => some { s with sendCh := sendCh }

def system (key : Option UDPAddr → Bytes) (bufSize : Nat)
    (sendCh : Chan WorkMsg cap) : System (State cap) (Action cap) where
  start := start sendCh
  step := step key bufSize

/-- The writer has not deleted its entry yet. -/
def WriterPc.running : WriterPc → Bool
  | .read | .select _ | .delete => true
  | .close | .returned => false

/-- The user address and the socket of a writer that is started. -/
def Writer.session (w : Writer) : Option (Option UDPAddr × Nat) :=
  if w.pc.running then some (w.raddr, w.conn) else none

/-- The writer that the reader is about to start. -/
def ReaderPc.session : ReaderPc → Option (Option UDPAddr × Nat)
  | .write udpMsg _ conn false | .close udpMsg conn false
  | .goWriter udpMsg conn false => some (udpMsg.remoteAddr, conn)
  | _ => none

@[simp] theorem session_write_new (udpMsg : UDPPacket) (buf : Bytes)
    (conn : Nat) : (ReaderPc.write udpMsg buf conn false).session =
      some (udpMsg.remoteAddr, conn) := rfl

/-- The socket that a message is going to be written to. -/
def ReaderPc.target : ReaderPc → Option (Option UDPAddr × Nat)
  | .write udpMsg _ conn _ => some (udpMsg.remoteAddr, conn)
  | _ => none

def owned (key : Option UDPAddr → Bytes) (addr : Bytes)
    (session : Option UDPAddr × Nat) : Option Nat :=
  if key session.1 = addr then some session.2 else none

namespace State

/-- The writers that are started or about to be. -/
def sessions (s : State cap) : List (Option UDPAddr × Nat) :=
  s.writers.filterMap Writer.session ++ s.reader.session.toList

/-- The sockets of those with the user address `addr`. -/
def owners (key : Option UDPAddr → Bytes) (s : State cap) (addr : Bytes) :
    List Nat :=
  s.sessions.filterMap (owned key addr)

end State

/-- `sole` carries the proof: a writer that is not yet started or not yet past its
`delete` owns the entry of its address. -/
structure Inv (key : Option UDPAddr → Bytes) (s : State cap) : Prop where
  sole : Ledger.Sole s.udpConnMap (s.owners key)
  writers : ∀ w ∈ s.writers, s.dialled[w.conn]? = some w.raddr
  reader : ∀ session ∈ s.reader.session,
    s.dialled[session.2]? = some session.1
  target : ∀ session ∈ s.reader.target, ∃ raddr,
    s.dialled[session.2]? = some raddr ∧ key raddr = key session.1
  selects : ∀ w ∈ s.writers, ∀ udpMsg, w.pc = .select udpMsg →
    udpMsg.remoteAddr = w.raddr
  put : ∀ entry ∈ s.put, s.dialled[entry.1]? = some entry.2.remoteAddr
  wrote : ∀ entry ∈ s.wrote, ∃ raddr,
    s.dialled[entry.conn]? = some raddr ∧ key raddr = key entry.raddr

variable {key : Option UDPAddr → Bytes} {s s' : State cap}

theorem inv_start (key : Option UDPAddr → Bytes) (sendCh : Chan WorkMsg cap) :
    Inv key (start sendCh) where
  sole := fun _ => rfl
  writers := by simp [start]
  reader := by simp [start, ReaderPc.session]
  target := by simp [start, ReaderPc.target]
  selects := by simp [start]
  put := by simp [start]
  wrote := by simp [start]

/-- The address of a session is that of an entry with its socket. -/
theorem Inv.entry_of_mem (hinv : Inv key s) {session : Option UDPAddr × Nat}
    (hmem : session ∈ s.sessions) :
    s.udpConnMap (key session.1) = some session.2 :=
  hinv.sole.entry_of_mem
    (List.mem_filterMap.mpr ⟨session, hmem, by simp [owned]⟩)

/-- The socket of an entry was dialled for its address. -/
theorem Inv.dialled_of_entry (hinv : Inv key s) {addr : Bytes} {conn : Nat}
    (hentry : s.udpConnMap addr = some conn) :
    ∃ raddr, s.dialled[conn]? = some raddr ∧ key raddr = addr := by
  have hmem : conn ∈ s.owners key addr := by
    rw [hinv.sole.owners_of_entry hentry]
    exact List.mem_singleton_self conn
  obtain ⟨session, hsession, hif⟩ := List.mem_filterMap.mp hmem
  rw [owned, Option.ite_none_right_eq_some, Option.some.injEq] at hif
  obtain ⟨haddr, rfl⟩ := hif
  refine ⟨session.1, ?_, haddr⟩
  rcases List.mem_append.mp hsession with hwriter | hreader
  · obtain ⟨w, hw, hrunning⟩ := List.mem_filterMap.mp hwriter
    rw [Writer.session, Option.ite_none_right_eq_some, Option.some.injEq]
      at hrunning
    rw [← hrunning.2]
    exact hinv.writers w hw
  · exact hinv.reader session (Option.mem_toList.mp hreader)

/-- A step of the reader between two lookups. -/
theorem Inv.setReader (hinv : Inv key s) {reader : ReaderPc}
    (hsession : reader.session = s.reader.session)
    (htarget : ∀ session ∈ reader.target, ∃ raddr,
      s.dialled[session.2]? = some raddr ∧ key raddr = key session.1) :
    Inv key { s with reader := reader } where
  sole := by
    have hsole := hinv.sole
    unfold State.owners State.sessions at hsole ⊢
    rw [← hsession] at hsole
    exact hsole
  writers := hinv.writers
  reader := by
    rw [hsession]
    exact hinv.reader
  target := htarget
  selects := hinv.selects
  put := hinv.put
  wrote := hinv.wrote

theorem Inv.receive (hinv : Inv key s) {udpMsg : UDPPacket}
    (hstep : s.receive udpMsg = some s') : Inv key s' := by
  cases hreader : s.reader with
  | range =>
      have hsession : s.reader.session = none := by rw [hreader]; rfl
      cases hcontent : getContent udpMsg with
      | none =>
          simp only [State.receive, hreader, hcontent, Option.some.injEq]
            at hstep
          exact hstep ▸ hinv
      | some buf =>
          simp only [State.receive, hreader, hcontent, Option.some.injEq]
            at hstep
          subst hstep
          exact hinv.setReader hsession.symm (by simp [ReaderPc.target])
  | _ => simp [State.receive, hreader] at hstep

theorem Inv.readClosed (hinv : Inv key s)
    (hstep : s.readClosed = some s') : Inv key s' := by
  cases hreader : s.reader with
  | range =>
      have hsession : s.reader.session = none := by rw [hreader]; rfl
      simp only [State.readClosed, hreader, Option.some.injEq] at hstep
      subst hstep
      exact hinv.setReader hsession.symm (by simp [ReaderPc.target])
  | _ => simp [State.readClosed, hreader] at hstep

theorem exists_set {T : Type} {l : List T} {i : Nat} {w : T}
    (hw : l[i]? = some w) : ∃ before after, l = before ++ w :: after ∧
      ∀ w', l.set i w' = before ++ w' :: after := by
  obtain ⟨hlt, rfl⟩ := List.getElem?_eq_some_iff.mp hw
  refine ⟨l.take i, l.drop (i + 1), ?_, fun w' => ?_⟩
  · rw [List.getElem_cons_drop, List.take_append_drop]
  · rw [List.set_eq_take_append_cons_drop, if_pos hlt]

theorem getElem?_dialled {dialled : List (Option UDPAddr)} {conn : Nat}
    {raddr : Option UDPAddr} (hold : dialled[conn]? = some raddr)
    (new : List (Option UDPAddr)) :
    (dialled ++ new)[conn]? = some raddr := by
  obtain ⟨hlt, _⟩ := List.getElem?_eq_some_iff.mp hold
  rw [List.getElem?_append_left hlt]
  exact hold

/-- A socket is dialled for an address without an entry. -/
theorem Inv.dial (hinv : Inv key s) {udpMsg : UDPPacket} {buf : Bytes}
    (hsession : s.reader.session = none)
    (hfree : s.udpConnMap (key udpMsg.remoteAddr) = none) :
    Inv key { s with
      udpConnMap := Function.update s.udpConnMap (key udpMsg.remoteAddr)
        (some s.dialled.length)
      dialled := s.dialled ++ [udpMsg.remoteAddr]
      reader := .write udpMsg buf s.dialled.length false } where
  sole := by
    refine hinv.sole.enter hfree s.dialled.length ?_ ?_
    · simp [State.owners, State.sessions, owned, hsession]
    · intro other hother
      simp [State.owners, State.sessions, owned, hsession, Ne.symm hother]
  writers w hw := getElem?_dialled (hinv.writers w hw) _
  reader session hmem := by
    simp only [session_write_new, Option.mem_some_iff] at hmem
    subst hmem
    simp
  target session hmem := by
    simp only [ReaderPc.target, Option.mem_some_iff] at hmem
    subst hmem
    exact ⟨udpMsg.remoteAddr, by simp, rfl⟩
  selects := hinv.selects
  put entry hmem := getElem?_dialled (hinv.put entry hmem) _
  wrote entry hmem := by
    obtain ⟨raddr, hdialled, hkey⟩ := hinv.wrote entry hmem
    exact ⟨raddr, getElem?_dialled hdialled _, hkey⟩

theorem Inv.lookup (hinv : Inv key s) {dialed : Bool}
    (hstep : s.lookup key dialed = some s') : Inv key s' := by
  cases hreader : s.reader with
  | lookup udpMsg buf =>
      have hsession : s.reader.session = none := by rw [hreader]; rfl
      cases hentry : s.udpConnMap (key udpMsg.remoteAddr) with
      | some conn =>
          simp only [State.lookup, hreader, hentry, Option.some.injEq] at hstep
          subst hstep
          refine hinv.setReader hsession.symm ?_
          intro session hmem
          simp only [ReaderPc.target, Option.mem_some_iff] at hmem
          subst hmem
          exact hinv.dialled_of_entry hentry
      | none =>
          cases dialed with
          | true =>
              simp only [State.lookup, hreader, hentry, if_true,
                Option.some.injEq] at hstep
              subst hstep
              exact hinv.dial hsession hentry
          | false =>
              simp only [State.lookup, hreader, hentry, Bool.false_eq_true,
                if_false, Option.some.injEq] at hstep
              subst hstep
              exact hinv.setReader hsession.symm (by simp [ReaderPc.target])
  | _ => simp [State.lookup, hreader] at hstep

theorem Inv.write (hinv : Inv key s) {sent : Bool}
    (hstep : s.write sent = some s') : Inv key s' := by
  cases hreader : s.reader with
  | write udpMsg buf conn ok =>
      have hsession : (ReaderPc.goWriter udpMsg conn ok).session =
          s.reader.session := by
        rw [hreader]
        cases ok <;> rfl
      cases sent with
      | true =>
          cases hclosed : s.closed conn with
          | true => simp [State.write, hreader, hclosed] at hstep
          | false =>
              simp only [State.write, hreader, hclosed, if_true,
                Bool.false_eq_true, if_false, Option.some.injEq] at hstep
              subst hstep
              have htarget := hinv.target (udpMsg.remoteAddr, conn)
                (by rw [hreader]; rfl)
              have hnext := hinv.setReader hsession
                (by simp [ReaderPc.target])
              refine { hnext with wrote := ?_ }
              intro entry hmem
              rcases List.mem_append.mp hmem with hold | hnew
              · exact hinv.wrote entry hold
              · rw [List.mem_singleton.mp hnew]
                exact htarget
      | false =>
          simp only [State.write, hreader, Bool.false_eq_true, if_false,
            Option.some.injEq] at hstep
          subst hstep
          refine hinv.setReader ?_ (by simp [ReaderPc.target])
          rw [hreader]
          cases ok <;> rfl
  | _ => simp [State.write, hreader] at hstep

theorem Inv.close (hinv : Inv key s) (hstep : s.close = some s') :
    Inv key s' := by
  cases hreader : s.reader with
  | close udpMsg conn ok =>
      simp only [State.close, hreader, Option.some.injEq] at hstep
      subst hstep
      have hsession : (ReaderPc.goWriter udpMsg conn ok).session =
          s.reader.session := by
        rw [hreader]
        cases ok <;> rfl
      have hnext := hinv.setReader hsession (by simp [ReaderPc.target])
      exact { hnext with }
  | _ => simp [State.close, hreader] at hstep

/-- The writer that was about to be started is started. -/
theorem Inv.goWriter (hinv : Inv key s) (hstep : s.goWriter = some s') :
    Inv key s' := by
  cases hreader : s.reader with
  | goWriter udpMsg conn ok =>
      cases ok with
      | true =>
          simp only [State.goWriter, hreader, if_true, Option.some.injEq]
            at hstep
          subst hstep
          exact hinv.setReader (by rw [hreader]; rfl)
            (by simp [ReaderPc.target])
      | false =>
          simp only [State.goWriter, hreader, Bool.false_eq_true, if_false,
            Option.some.injEq] at hstep
          subst hstep
          refine
            { sole := ?_
              writers := ?_
              reader := by simp [ReaderPc.session]
              target := by simp [ReaderPc.target]
              selects := ?_
              put := hinv.put
              wrote := hinv.wrote }
          · have hsole := hinv.sole
            unfold State.owners State.sessions at hsole ⊢
            rw [hreader] at hsole
            simpa [Writer.session, WriterPc.running, ReaderPc.session]
              using hsole
          · intro w hw
            rcases List.mem_append.mp hw with hold | hnew
            · exact hinv.writers w hold
            · rw [List.mem_singleton.mp hnew]
              exact hinv.reader (udpMsg.remoteAddr, conn)
                (by rw [hreader]; rfl)
          · intro w hw packet hpc
            rcases List.mem_append.mp hw with hold | hnew
            · exact hinv.selects w hold packet hpc
            · rw [List.mem_singleton.mp hnew] at hpc
              cases hpc
  | _ => simp [State.goWriter, hreader] at hstep

/-- A step of a writer that keeps its entry, or had none. -/
theorem Inv.setWriter (hinv : Inv key s) {i : Nat} {w : Writer}
    {pc : WriterPc} (hw : s.writers[i]? = some w)
    (hpc : pc.running = w.pc.running)
    (hselect : ∀ udpMsg, pc = .select udpMsg → udpMsg.remoteAddr = w.raddr) :
    Inv key (s.setWriter i w pc) where
  sole := by
    obtain ⟨before, after, hsplit, hset⟩ := exists_set hw
    have hsession : Writer.session { w with pc := pc } = w.session := by
      rw [Writer.session, Writer.session, hpc]
    have hsole := hinv.sole
    unfold State.owners State.sessions at hsole ⊢
    rw [hsplit] at hsole
    rw [State.setWriter, hset]
    simpa only [List.filterMap_append, List.filterMap_cons, hsession]
      using hsole
  writers other hmem := by
    rcases List.mem_or_eq_of_mem_set hmem with hold | rfl
    · exact hinv.writers other hold
    · exact hinv.writers w (List.mem_of_getElem? hw)
  reader := hinv.reader
  target := hinv.target
  selects other hmem udpMsg hother := by
    rcases List.mem_or_eq_of_mem_set hmem with hold | rfl
    · exact hinv.selects other hold udpMsg hother
    · exact hselect udpMsg hother
  put := hinv.put
  wrote := hinv.wrote

theorem Inv.readConn (hinv : Inv key s) {bufSize i : Nat}
    {result : Option Bytes}
    (hstep : s.readConn bufSize i result = some s') : Inv key s' := by
  unfold State.readConn at hstep
  split at hstep
  · rename_i raddr conn hw
    cases result with
    | some datagram =>
        rw [Option.ite_none_left_eq_some, Option.some.injEq] at hstep
        obtain ⟨_, rfl⟩ := hstep
        refine hinv.setWriter hw rfl ?_
        rintro udpMsg ⟨⟩
        rfl
    | none =>
        rw [Option.some.injEq] at hstep
        exact hstep ▸ hinv.setWriter hw rfl nofun
  · cases hstep

theorem Inv.select (hinv : Inv key s) {i : Nat}
    (hstep : s.select i = some s') : Inv key s' := by
  unfold State.select at hstep
  split at hstep
  · rename_i raddr conn udpMsg hw
    have hmem := List.mem_of_getElem? hw
    have hread : Inv key (s.setWriter i ⟨raddr, conn, .select udpMsg⟩ .read) :=
      hinv.setWriter hw rfl nofun
    cases hsend : s.sendCh.send (.packet udpMsg) with
    | done chan =>
        simp only [hsend, Option.some.injEq] at hstep
        subst hstep
        refine { hread with put := ?_ }
        intro entry hentry
        rcases List.mem_append.mp hentry with hold | hnew
        · exact hinv.put entry hold
        · rw [List.mem_singleton.mp hnew]
          have haddr := hinv.selects _ hmem udpMsg rfl
          exact haddr ▸ hinv.writers _ hmem
    | block =>
        simp only [hsend, Option.some.injEq] at hstep
        exact hstep ▸ hread
    | panic =>
        simp only [hsend, Option.some.injEq] at hstep
        exact hstep ▸ hinv.setWriter hw rfl nofun
  · cases hstep

theorem Inv.closeConn (hinv : Inv key s) {i : Nat}
    (hstep : s.closeConn i = some s') : Inv key s' := by
  unfold State.closeConn at hstep
  split at hstep
  · rename_i raddr conn hw
    rw [Option.some.injEq] at hstep
    subst hstep
    have hnext : Inv key (s.setWriter i ⟨raddr, conn, .close⟩ .returned) :=
      hinv.setWriter hw rfl nofun
    exact { hnext with }
  · cases hstep

/-- A writer that is done takes itself out of the owners of its address. -/
theorem Inv.delete (hinv : Inv key s) {i : Nat}
    (hstep : s.delete key i = some s') : Inv key s' := by
  unfold State.delete at hstep
  split at hstep
  · rename_i raddr conn hw
    rw [Option.some.injEq] at hstep
    subst hstep
    obtain ⟨before, after, hsplit, hset⟩ := exists_set hw
    have hnext : (s.setWriter i ⟨raddr, conn, .delete⟩ .close).writers =
        before ++ ⟨raddr, conn, .close⟩ :: after := hset _
    have hdialled := hinv.writers _ (List.mem_of_getElem? hw)
    have hhere : s.owners key (key raddr) =
        (before.filterMap Writer.session).filterMap (owned key (key raddr)) ++
          conn :: (after.filterMap Writer.session ++
            s.reader.session.toList).filterMap (owned key (key raddr)) := by
      simp [State.owners, State.sessions, hsplit, owned, Writer.session,
        WriterPc.running]
    refine
      { sole := hinv.sole.leave hhere ?_ ?_
        writers := ?_
        reader := hinv.reader
        target := hinv.target
        selects := ?_
        put := hinv.put
        wrote := hinv.wrote }
    · simp only [State.owners, State.sessions, hnext]
      simp [State.setWriter, Writer.session, WriterPc.running]
    · intro other hother
      simp only [State.owners, State.sessions, hnext]
      simp [State.setWriter, hsplit, owned, Writer.session, WriterPc.running,
        Ne.symm hother]
    · intro other hin
      rcases List.mem_or_eq_of_mem_set hin with hold | rfl
      · exact hinv.writers other hold
      · exact hdialled
    · intro other hin udpMsg hpc
      rcases List.mem_or_eq_of_mem_set hin with hold | rfl
      · exact hinv.selects other hold udpMsg hpc
      · cases hpc
  · cases hstep

/-- The step lemma. -/
theorem Inv.step (hinv : Inv key s) {bufSize : Nat} {action : Action cap}
    (hstep : step key bufSize s action = some s') : Inv key s' := by
  cases action with
  | receive udpMsg => exact hinv.receive hstep
  | readClosed => exact hinv.readClosed hstep
  | lookup dialed => exact hinv.lookup hstep
  | write sent => exact hinv.write hstep
  | close => exact hinv.close hstep
  | goWriter => exact hinv.goWriter hstep
  | readConn i result => exact hinv.readConn hstep
  | select i => exact hinv.select hstep
  | delete i => exact hinv.delete hstep
  | closeConn i => exact hinv.closeConn hstep
  | elsewhere sendCh =>
      cases hstep
      exact { hinv with }

theorem udpConnMap_cases {bufSize : Nat} {action : Action cap}
    (hstep : step key bufSize s action = some s') :
    s'.udpConnMap = s.udpConnMap ∨
    (∃ addr conn, s.udpConnMap addr = none ∧
      s'.udpConnMap = Function.update s.udpConnMap addr (some conn)) ∨
    ∃ i raddr conn, action = .delete i ∧
      s.writers[i]? = some ⟨raddr, conn, .delete⟩ ∧
      s'.udpConnMap = Function.update s.udpConnMap (key raddr) none := by
  cases action with
  | lookup dialed => grind [step, State.lookup]
  | delete i => grind [step, State.delete]
  | receive udpMsg => grind [step, State.receive]
  | readClosed => grind [step, State.readClosed]
  | write sent => grind [step, State.write]
  | close => grind [step, State.close]
  | goWriter => grind [step, State.goWriter]
  | readConn i result => grind [step, State.readConn, State.setWriter]
  | select i => grind [step, State.select, State.setWriter]
  | closeConn i => grind [step, State.closeConn, State.setWriter]
  | elsewhere sendCh => grind [step]

/-- Only the writer of a socket removes the entry with that socket. -/
theorem Inv.removed (hinv : Inv key s) {bufSize : Nat} {action : Action cap}
    (hstep : Forwarder.step key bufSize s action = some s') {addr : Bytes}
    {conn : Nat} (hentry : s.udpConnMap addr = some conn)
    (hgone : s'.udpConnMap addr ≠ some conn) :
    ∃ i w, action = .delete i ∧ s.writers[i]? = some w ∧ w.conn = conn := by
  rcases udpConnMap_cases hstep with
    hsame | ⟨new, newConn, hfree, hset⟩ | ⟨i, raddr, own, haction, hw, hset⟩
  · exact absurd (hsame ▸ hentry) hgone
  · have hne : addr ≠ new := by
      rintro rfl
      rw [hfree] at hentry
      cases hentry
    rw [hset, Function.update_of_ne hne] at hgone
    exact absurd hentry hgone
  · by_cases hsame : addr = key raddr
    · have hsession : (raddr, own) ∈ s.sessions :=
        List.mem_append_left _ (List.mem_filterMap.mpr
          ⟨_, List.mem_of_getElem? hw, rfl⟩)
      have hown := hinv.entry_of_mem hsession
      rw [hsame, hown, Option.some.injEq] at hentry
      exact ⟨i, _, haction, hw, hentry⟩
    · rw [hset, Function.update_of_ne hsame] at hgone
      exact absurd hentry hgone

/-- The users are kept apart: the socket of an entry has exactly one writer, started
or about to be, an address without an entry has none, nobody else removes the
entry, a packet on `sendCh` has the address that its socket was dialled for, and so
has a socket that is written to for a user. -/
structure Apart (key : Option UDPAddr → Bytes) (bufSize : Nat)
    (s : State cap) : Prop where
  owners : ∀ addr, s.owners key addr = (s.udpConnMap addr).toList
  removed : ∀ action s', step key bufSize s action = some s' →
    ∀ addr conn, s.udpConnMap addr = some conn →
      s'.udpConnMap addr ≠ some conn →
        ∃ i w, action = .delete i ∧ s.writers[i]? = some w ∧ w.conn = conn
  put : ∀ entry ∈ s.put, s.dialled[entry.1]? = some entry.2.remoteAddr
  wrote : ∀ entry ∈ s.wrote, ∃ raddr,
    s.dialled[entry.conn]? = some raddr ∧ key raddr = key entry.raddr

theorem apart_of_reaches (key : Option UDPAddr → Bytes) (bufSize : Nat)
    (sendCh : Chan WorkMsg cap) (word : List (Action cap)) (s : State cap)
    (hrun : (system key bufSize sendCh).Reaches word s) :
    Apart key bufSize s := by
  have hinv : Inv key s := System.Reaches.invariant (I := Inv key)
    (inv_start key sendCh) (fun _ _ _ hinv hstep => hinv.step hstep) hrun
  exact
    { owners := hinv.sole
      removed := fun _ _ hstep _ _ => hinv.removed hstep
      put := hinv.put
      wrote := hinv.wrote }

/-- How the witness writes an address. -/
def ipString (raddr : Option UDPAddr) : Bytes :=
  (raddr.map UDPAddr.ip).getD []

def packetOf (ip : Bytes) : UDPPacket :=
  newUDPPacket (ascii "hi") none (some ⟨ip, 53, []⟩)

/-- Two users, and the first one again while its writer gives up. -/
def twoUsers : List (Action 4) :=
  [.receive (packetOf [1]), .lookup true, .write true, .goWriter,
    .receive (packetOf [2]), .lookup true, .write true, .goWriter,
    .readConn 0 none, .receive (packetOf [1]), .readConn 1 (some (ascii "yo")),
    .delete 0, .lookup true, .select 1, .write true]

theorem apart_of_reaches_twoUsers :
    ∃ s, (system ipString 1500 (Chan.make WorkMsg 4)).Reaches twoUsers s ∧
      s.udpConnMap [1] = some 2 ∧ s.put.length = 1 ∧
      Apart ipString 1500 s :=
  ⟨_, System.reaches_of_exec rfl, rfl, rfl,
    apart_of_reaches ipString 1500 (Chan.make WorkMsg 4) twoUsers _
      (System.reaches_of_exec rfl)⟩

end Forwarder

end Udp

end Frp

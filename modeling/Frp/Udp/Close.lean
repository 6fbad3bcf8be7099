/-
Closing a UDP proxy on the server or a SUDP visitor on the client.  Only the
select of `ForwardUserConn` can meet a channel that has been closed, and only
with a packet that it had read before.
-/
import Frp.Udp.UDPProxy
import Frp.Udp.SUDPVisitor

namespace Frp.Udp

open Transition GoChan GoStrings

/-- Neither process crashes in a run in which no Close closes `sendCh` while
the loop of `ForwardUserConn` has a packet for it. -/
theorem not_crashed_of_close (bufSize : Nat) :
    (∀ word p, (UDPProxy.system bufSize).Run
      (fun q => UDPProxy.Permitted q.state) word p → p.crashed = false) ∧
    (∀ word p, (SUDPVisitor.system bufSize).Run
      (fun q => SUDPVisitor.Permitted q.state) word p →
        p.crashed = false) := by
  constructor
  · intro word p hrun
    exact UDPProxy.not_crashed_of_run hrun
  · intro word p hrun
    exact SUDPVisitor.not_crashed_of_run hrun

/-- A datagram of one user. -/
def hello : Bytes × UDPAddr :=
  (ascii "hello", ⟨[10, 0, 0, 1], 5353, []⟩)

/-- The packet is forwarded before the proxy is closed, twice. -/
def proxyForwards : List UDPProxy.Action :=
  [.read (some hello), .select, .getWorkConn .conn, .sender 0 true,
    .sender 0 true, .lock, .close, .close, .close, .close, .close, .close,
    .close, .read none, .waitClosed, .reader 0 none, .notify 0, .lock, .close,
    .close]

def visitorForwards : List SUDPVisitor.Action :=
  [.read (some hello), .select, .receive, .connect true, .sender 0 true,
    .lock, .close, .close, .close, .close, .close, .read none, .sender 0 true,
    .reader 0 none, .reader 0 none, .join, .check, .lock, .close, .close]

theorem not_crashed_of_close_forwards :
    (∃ p, (UDPProxy.system 1500).Run
      (fun q => UDPProxy.Permitted q.state) proxyForwards p ∧
        p.state.forward.sendCh.closed = true ∧ p.crashed = false) ∧
    (∃ p, (SUDPVisitor.system 1500).Run
      (fun q => SUDPVisitor.Permitted q.state) visitorForwards p ∧
        p.state.forward.sendCh.closed = true ∧ p.crashed = false) := by
  constructor
  · obtain ⟨p, hrun, hclosed⟩ :
        ∃ p, (UDPProxy.system 1500).Run
          (fun q => UDPProxy.Permitted q.state) proxyForwards p ∧
          p.state.forward.sendCh.closed = true :=
      System.exists_run_of_replay (by decide)
    exact ⟨p, hrun, hclosed, (not_crashed_of_close 1500).1 _ p hrun⟩
  · obtain ⟨p, hrun, hclosed⟩ :
        ∃ p, (SUDPVisitor.system 1500).Run
          (fun q => SUDPVisitor.Permitted q.state) visitorForwards p ∧
          p.state.forward.sendCh.closed = true :=
      System.exists_run_of_replay (by decide)
    exact ⟨p, hrun, hclosed, (not_crashed_of_close 1500).2 _ p hrun⟩

/-- The loop has read the packet when the Close comes, and sends it after the
Close has closed `sendCh`. -/
def proxyLate : List UDPProxy.Action :=
  [.read (some hello), .lock, .close, .close, .close, .close, .close, .close,
    .select]

def visitorLate : List SUDPVisitor.Action :=
  [.read (some hello), .lock, .close, .close, .close, .close, .select]

theorem crashed_late :
    (∃ p, (UDPProxy.system 1500).Reaches proxyLate p ∧ p.crashed = true) ∧
    (∃ p, (SUDPVisitor.system 1500).Reaches visitorLate p ∧
      p.crashed = true) :=
  ⟨System.exists_reaches_of_exec (by decide),
    System.exists_reaches_of_exec (by decide)⟩

end Frp.Udp

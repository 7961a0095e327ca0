/-
# Bpf2Socks.Tcp.Worker — accepting clients, and the loop of a TCP worker.

`acceptReadyClients` has a dozen ways out.  A client whose connection cannot be set up is closed
at once; which of these ways set the zero-linger option first is worked out in `Tcp.Admission`.

A turn of the loop handles the events of one `epoll_wait`, looks at the paused listeners, expires
connections and frees those that were closed.
-/
import Bpf2Socks.Tcp.Relay

namespace Bpf2Socks.Tcp

open Function (update)
open Lib (Act)
open Udp (DstAddr Bits)
open Worker

/-! ## Paused listeners -/

/-- `open_spare_fd`. -/
def openSpareFd : Worker Bool := do
  let r : Option Nat ← ask .openSpare
  match r with
  | none => pure false
  | some fd =>
      modify fun s => { s with fds := update s.fds fd (some .spare), spareFd := some fd }
      pure true

/-- `mod_fd` of one listener, if it is there and its interest is not the wanted one already: the
condition is that of `pause_tcp_listeners` and of `resume_tcp_listeners_if_due`. -/
def modListener (fd : Option Nat) (ref : Ref) (events : Bits) : Worker Bool := do
  let s ← get
  match fd with
  | none => pure true
  | some fd =>
      if (s.refEvents ref = Bits.none) ≠ (events = Bits.none) then modFd fd ref events
      else pure true

/-- `pause_tcp_listeners`. -/
def pauseTcpListeners : Worker Unit := do
  let s ← get
  if s.listenersPaused then pure ()
  else
    let paused4 ← modListener (some s.cfg.listener4) .listener4 Bits.none
    let paused6 ← modListener s.cfg.listener6 .listener6 Bits.none
    if paused4 && paused6 then
      modify fun s => { s with listenersPaused := true }
      let now ← nowMs
      modify fun s => { s with listenersResumeMs := (now + tcpFdBackoffMs) % UInt64.size }

/-- `resume_tcp_listeners_if_due`. -/
def resumeTcpListenersIfDue : Worker Unit := do
  let s ← get
  if !s.listenersPaused then pure ()
  else
    let now ← nowMs
    if now = 0 ∨ now < s.listenersResumeMs then pure ()
    else
      let spare ← if s.spareFd.isNone then openSpareFd else pure true
      if spare then
        let resumed4 ← modListener (some s.cfg.listener4) .listener4 Bits.input
        let resumed6 ← modListener s.cfg.listener6 .listener6 Bits.input
        if resumed4 && resumed6 then
          modify fun s => { s with listenersPaused := false, listenersResumeMs := 0 }
        else
          modify fun s => { s with listenersResumeMs := (now + tcpFdBackoffMs) % UInt64.size }
      else modify fun s => { s with listenersResumeMs := (now + tcpFdBackoffMs) % UInt64.size }

/-! ## Accepting -/

/-- `bpf2socks_socket_accept4`: the client's number and its descriptor. -/
def accept (listener : Nat) : Worker (Except Errno (Nat × Nat)) := do
  let s ← get
  let r : Except Errno Nat ← ask (.accept listener)
  match r with
  | .ok fd =>
      modify fun s => { s.openSocket fd s.accepted .client with accepted := s.accepted + 1 }
      pure (.ok (s.accepted, fd))
  | .error e => pure (.error e)

/-- The `accept` loop of `handle_accept_fd_exhaustion`. -/
def acceptSpareFrom (listener : Nat) : Nat → Worker Unit
  | 0 => diverge
  | fuel + 1 => do
      let r ← accept listener
      match r with
      | .ok (n, fd) => modify fun s => (s.mark n .spare true).closeFd fd
      | .error .eintr => acceptSpareFrom listener fuel
      | .error _ => pure ()

/-- `handle_accept_fd_exhaustion`. -/
def handleAcceptFdExhaustion (listener : Nat) : Worker Unit := do
  modify fun s => { s.closeOpt s.spareFd with spareFd := none }
  let retries : Nat ← ask .retries
  acceptSpareFrom listener (retries + 1)
  let _ ← openSpareFd
  pauseTcpListeners

/-- `record_fd_exhaustion`. -/
def recordFdExhaustion : Worker Unit := pauseTcpListeners

/-- The end of a `create_connection` that failed after the allocation. -/
def State.abandon (s : State) (c : Nat) : State :=
  (s.resetOnClose ((s.conns c).fd .client)).freeConnection c

/-- `connect_nonblocking_addr`: the new socket is in place, with the stage. -/
def connectNonblockingAddr (c : Nat) : Worker (Except Errno Unit) := do
  let r : Except Errno (Nat × Bool) ← ask .connect
  match r with
  | .error e => pure (.error e)
  | .ok (fd, inProgress) =>
      modify fun s => (s.openSocket fd c .upstream).modConn c fun k =>
        { k with fd := update k.fd .upstream (some fd)
                 stage := if inProgress then .connecting else .requestWrite }
      pure (.ok ())

/-- The handshake `create_connection` writes when it is connected already. -/
def writeFirst (c : Nat) : Worker (Except Errno Unit) := do
  let s ← get
  if (s.conns c).stage = .requestWrite then
    if ← startHandshake c then flushHandshake c
    else pure (.error .other)
  else pure (.ok ())

/-- `create_connection`. -/
def createConnection (c fd : Nat) (dst : DstAddr) : Worker (Except Errno Unit) := do
  let r : Option Errno ← ask .calloc
  match r with
  | some e =>
      modify fun s => (s.mark c .noMemory true).closeFd fd
      pure (.error e)
  | none =>
      let now ← nowMs
      modify fun s => s.modConn c fun _ =>
        { Conn.zero with
          fd := update (fun _ => none) .client (some fd)
          createdAtMs := now, lastActivityMs := now, target := dst
          ref := fun _ => ⟨true, Bits.none⟩ }
      let connected ← connectNonblockingAddr c
      match connected with
      | .error e =>
          modify fun s => s.abandon c
          pure (.error e)
      | .ok _ =>
          let written ← writeFirst c
          match written with
          | .error e =>
              modify fun s => s.abandon c
              pure (.error e)
          | .ok _ => pure (.ok ())

/-- `add_fd` for one socket of a connection. -/
def addSide (c : Nat) (side : Side) : Worker (Option Errno) := do
  let s ← get
  match (s.conns c).fd side with
  | none => pure (some .other)
  | some fd => addFd fd (.conn c side) (sideEvents (s.conns c) side)

/-- The registration of a new connection in `accept_ready_clients`. -/
def registerConnection (c : Nat) : Worker (Option Errno) := do
  let r ← addSide c .client
  match r with
  | some e => pure (some e)
  | none => addSide c .upstream

/-- The errors of a full descriptor table. -/
def Errno.exhausted : Errno → Bool
  | .emfile => true
  | .enfile => true
  | _ => false

/-- The part of `accept_ready_clients` after a session was reserved; whether to go on. -/
def startConnection (n fd : Nat) (dst : DstAddr) : Worker Bool := do
  let created ← createConnection n fd dst
  match created with
  | .error e =>
      releaseTcpSessionBudget n
      if e.exhausted then
        recordFdExhaustion
        pure false
      else pure true
  | .ok _ =>
      modify fun s => (s.mark n .creating false).modConn n fun k => { k with sessionReserved := true }
      modify fun s => s.activeAdd n
      modify fun s => s.noteConnectionDeadline n
      let r ← registerConnection n
      match r with
      | none => pure true
      | some e =>
          modify fun s => s.mark n .unregistered true
          closeConnection n
          if e.exhausted then
            recordFdExhaustion
            pure false
          else pure true

/-- `accept_ready_clients`, for a client that was accepted; whether to go on. -/
def admitClient (n fd : Nat) : Worker Bool := do
  let dst : Option DstAddr ← ask (.originalDst fd)
  match dst with
  | none =>
      modify fun s => (s.resetOnClose (some fd)).closeFd fd
      pure true
  | some dst =>
      if ← reserveTcpSession n then startConnection n fd dst
      else
        modify fun s => (s.resetOnClose (some fd)).closeFd fd
        pure true

/-- The loop of `accept_ready_clients`. -/
def acceptReadyClientsFrom (listener : Nat) : Nat → Worker Unit
  | 0 => diverge
  | fuel + 1 => do
      let stop : Bool ← ask .stopRequested
      if stop then pure ()
      else
        let r ← accept listener
        match r with
        | .error .eagain => pure ()
        | .error .eintr => acceptReadyClientsFrom listener fuel
        | .error e => if e.exhausted then handleAcceptFdExhaustion listener else pure ()
        | .ok (n, fd) =>
            if ← admitClient n fd then acceptReadyClientsFrom listener fuel

/-- `accept_ready_clients`. -/
def acceptReadyClients (listener : Nat) : Worker Unit := do
  let retries : Nat ← ask .retries
  acceptReadyClientsFrom listener (retries + 1)

/-! ## The loop -/

/-- An event on a listener. -/
def handleListenerEvent (fd : Option Nat) (events : Bits) : Worker Unit := do
  let s ← get
  match fd with
  | none => pure ()
  | some fd => if !s.listenersPaused && events.inp then acceptReadyClients fd

/-- `handle_connection_event`. -/
def handleConnectionEvent (ref : Ref) (events : Bits) : Worker Unit := do
  let s ← get
  match ref with
  | .listener4 => handleListenerEvent (some s.cfg.listener4) events
  | .listener6 => handleListenerEvent s.cfg.listener6 events
  | .conn c side => handleSocketEvent c side events

/-- What a turn of the loop does after `epoll_wait`. -/
def turn (events : List (Ref × Bits)) : Worker Unit := do
  Act.forEach (fun e => handleConnectionEvent e.1 e.2) events
  let now ← nowMs
  resumeTcpListenersIfDue
  expireTcpConnections now
  modify State.freeClosedConnections

/-- The loop of `bpf2socks_bridge_tcp_run`; whether it ended on request. -/
def runLoop : Nat → Worker Bool
  | 0 => diverge
  | fuel + 1 => do
      let stop : Bool ← ask .stopRequested
      if stop then pure true
      else
        resumeTcpListenersIfDue
        let now ← nowMs
        let s ← get
        let timeout := deadlineTcpWaitTimeout s.listenersPaused s.nextDeadlineMs now s.cfg.debugStats
        let ready : Except Errno (List (Ref × Bits)) ← ask (.epollWait timeout)
        match ready with
        | .error .eintr => runLoop fuel
        | .error _ => pure false
        | .ok events =>
            let stop : Bool ← ask .stopRequested
            if stop then pure true
            else
              turn events
              runLoop fuel

/-- What `bpf2socks_bridge_tcp_run` does before its loop. -/
def setUp : Worker Bool := do
  let created : Bool ← ask .epollCreate
  if !created then pure false
  else
    let s ← get
    let r4 ← addFd s.cfg.listener4 .listener4 Bits.input
    if r4.isSome then pure false
    else
      let r6 ← match s.cfg.listener6 with
        | none => pure none
        | some fd => addFd fd .listener6 Bits.input
      if r6.isSome then pure false else openSpareFd

/-- What `bpf2socks_bridge_tcp_run` does after its loop. -/
def tearDown : Worker Unit := do
  closeAllActive
  modify State.closePipePool
  modify fun s => { s.closeOpt s.spareFd with spareFd := none }

/-- `bpf2socks_bridge_tcp_run`. -/
def tcpRun : Worker Bool := do
  if ← setUp then
    let retries : Nat ← ask .retries
    let result ← runLoop (retries + 1)
    tearDown
    pure result
  else pure false

end Bpf2Socks.Tcp

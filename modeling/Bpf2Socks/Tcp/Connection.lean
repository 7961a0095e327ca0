/-
# Bpf2Socks.Tcp.Connection — the ends of a connection: pipes, the pool, closing and freeing.

A relay holds one pipe for each direction.  Pipes are taken from a small pool of empty ones and go
back to it, so opening and releasing them is the only code that decides what "empty" means.

Closing is in two steps.  `closeConnection` takes a connection out of the active list, gives its
session back and closes its sockets; `freeConnection`, at the end of the loop turn, releases what
is left.  Code that asks nothing is a function of the state.
-/
import Bpf2Socks.Tcp.State

namespace Bpf2Socks.Tcp

open Function (update)
open Lib (Act)
open Udp (Bits)
open Worker

/-- `bpf2socks_now_ms`. -/
def nowMs : Worker Nat := ask .nowMs

/-- `connection_touch`. -/
def connectionTouch (c : Nat) : Worker Unit := do
  let now ← nowMs
  if now ≠ 0 then modify fun s => s.modConn c fun k => { k with lastActivityMs := now }

/-! ## The active list -/

/-- `active_add`. -/
def State.activeAdd (s : State) (c : Nat) : State :=
  if (s.conns c).activeLinked then s
  else { s.modConn c fun k => { k with activeLinked := true } with active := c :: s.active }

/-- `active_remove`. -/
def State.activeRemove (s : State) (c : Nat) : State :=
  if (s.conns c).activeLinked then
    { s.modConn c fun k => { k with activeLinked := false } with active := s.active.erase c }
  else s

/-- `closed_add`. -/
def State.closedAdd (s : State) (c : Nat) : State := { s with closed := c :: s.closed }

/-! ## Pipes -/

/-- Ghost: the pair at a read end changes hands. -/
def State.hold (s : State) (fd : Nat) (holder : Option (Nat × Side)) : State :=
  match s.fds fd with
  | some (.pipeRead _ content) => { s with fds := update s.fds fd (some (.pipeRead holder content)) }
  | _ => s

/-- `open_splice_pipe`: a pair of the pool if there is one, else a new pipe. -/
def openSplicePipe (c : Nat) (side : Side) : Worker Bool := do
  modify fun s => s.modPipe c side fun _ => initSplicePipe
  let s ← get
  match s.pool with
  | p :: rest =>
      modify fun s => ({ s with pool := rest }.hold p.readFd (some (c, side))).modPipe c side
        fun pipe => { pipe with readFd := some p.readFd, writeFd := some p.writeFd
                                capacity := p.capacity }
      pure true
  | [] =>
      let r : Except Errno (Nat × Nat) ← ask .pipe2
      match r with
      | .error _ =>
          modify fun s => s.mark c .noPipe true
          pure false
      | .ok (readFd, writeFd) =>
          modify fun s => { s with
            fds := update (update s.fds readFd (some (.pipeRead (some (c, side)) []))) writeFd
              (some (.pipeWrite readFd)) }.modPipe c side
            fun pipe => { pipe with readFd := some readFd, writeFd := some writeFd }
          let capacity : Option Nat ← ask (.setPipeSize writeFd tcpPipeSize)
          if let some capacity := capacity then
            modify fun s => s.modPipe c side fun pipe => { pipe with capacity }
          pure true

/-- What `close_splice_pipe` leaves of a pipe. -/
def SplicePipe.closed (p : SplicePipe) : SplicePipe :=
  { p with readFd := none, writeFd := none, queued := 0, inputEof := true, inputPaused := false
           outputShutdown := true }

/-- `close_splice_pipe`. -/
def State.closeSplicePipe (s : State) (c : Nat) (side : Side) : State :=
  let pipe := (s.conns c).pipe side
  ((s.closeOpt pipe.readFd).closeOpt pipe.writeFd).modPipe c side SplicePipe.closed

/-- The part of `release_splice_pipe` that puts an empty pair back into the pool. -/
def State.poolPut (s : State) (c : Nat) (side : Side) : State :=
  let pipe := (s.conns c).pipe side
  match pipe.readFd, pipe.writeFd with
  | some readFd, some writeFd =>
      if pipe.queued = 0 ∧ s.pool.length < tcpPipePoolCap then
        ({ s with pool := ⟨readFd, writeFd, pipe.capacity⟩ :: s.pool }.hold readFd none).modPipe c
          side fun pipe => { pipe with readFd := none, writeFd := none }
      else s
  | _, _ => s

/-- `release_splice_pipe`. -/
def State.releaseSplicePipe (s : State) (c : Nat) (side : Side) : State :=
  (s.poolPut c side).closeSplicePipe c side

/-- `close_pipe_pool`. -/
def State.closePipePool (s : State) : State :=
  s.pool.foldl (fun s p => (s.closeFd p.readFd).closeFd p.writeFd) { s with pool := [] }

/-- `init_connection_splice_pipes`. -/
def initConnectionSplicePipes (c : Nat) : Worker Bool := do
  if ← openSplicePipe c .client then
    if ← openSplicePipe c .upstream then pure true
    else
      modify fun s => s.closeSplicePipe c .client
      pure false
  else pure false

/-! ## The session budget -/

/-- The loop of `reserve_tcp_session`. -/
def reserveTcpSessionFrom (n cap : Nat) : Nat → Nat → Worker Bool
  | 0, _ => diverge
  | fuel + 1, used => do
      if used < cap then
        let r : Except Nat Unit ← ask (.budgetCas n used)
        match r with
        | .ok _ =>
            modify fun s => s.mark n .creating true
            pure true
        | .error found => reserveTcpSessionFrom n cap fuel found
      else pure false

/-- `reserve_tcp_session`, for the `n`-th accepted client. -/
def reserveTcpSession (n : Nat) : Worker Bool := do
  let s ← get
  let used : Nat ← ask .budgetLoad
  let retries : Nat ← ask .retries
  reserveTcpSessionFrom n s.cfg.sessionCap (retries + 1) used

/-- `release_tcp_session_budget` of a reservation that no connection took over. -/
def releaseTcpSessionBudget (n : Nat) : Worker Unit := do
  ask (.budgetSub n)
  modify fun s => s.mark n .creating false

/-- `release_tcp_session`. -/
def releaseTcpSession (c : Nat) : Worker Unit := do
  let s ← get
  if (s.conns c).sessionReserved then
    ask (.budgetSub c)
    modify fun s => s.modConn c fun k => { k with sessionReserved := false }

/-! ## Closing -/

/-- The end of a record: `closing` is set and the refs lead nowhere. -/
def Conn.ended (k : Conn) : Conn :=
  { k with closing := true, ref := fun side => { k.ref side with connection := false } }

/-- The part of `close_connection` for one socket. -/
def closeSide (c : Nat) (side : Side) : Worker Unit := do
  let s ← get
  match (s.conns c).fd side with
  | some fd =>
      let _ : Bool ← ask (.epollDel fd)
      modify fun s => (s.closeFd fd).modConn c fun k => { k with fd := update k.fd side none }
  | none => pure ()

/-- `close_connection`. -/
def closeConnection (c : Nat) : Worker Unit := do
  let s ← get
  if (s.conns c).closing then pure ()
  else
    modify fun s => s.modConn c Conn.ended
    modify fun s => s.activeRemove c
    releaseTcpSession c
    closeSide c .client
    closeSide c .upstream
    modify fun s => s.closedAdd c

/-- `reset_connection`. -/
def resetConnection (c : Nat) (failed : Side) : Worker Unit := do
  let s ← get
  if (s.conns c).closing then pure ()
  else
    modify fun s => s.resetOnClose ((s.conns c).fd failed.other)
    closeConnection c

/-- `free_connection`, the sockets.  The record stays for the history. -/
def State.closeSockets (s : State) (c : Nat) : State :=
  ((s.closeOpt ((s.conns c).fd .client)).closeOpt ((s.conns c).fd .upstream)).modConn c fun k =>
    { k.ended with fd := fun _ => none }

/-- `free_connection`. -/
def State.freeConnection (s : State) (c : Nat) : State :=
  ((s.closeSockets c).releaseSplicePipe c .client).releaseSplicePipe c .upstream

/-- `free_closed_connections`. -/
def State.freeClosedConnections (s : State) : State :=
  let s' := { s with
    closed := []
    listenersResumeMs :=
      if s.closed ≠ [] ∧ s.listenersPaused then 0 else s.listenersResumeMs }
  s.closed.foldl State.freeConnection s'

/-- The loop of `close_all_active`. -/
def closeAllActiveFrom : Nat → Worker Unit
  | 0 => diverge
  | fuel + 1 => do
      let s ← get
      match s.active with
      | [] => pure ()
      | c :: _ =>
          modify fun s => s.mark c .stopped true
          closeConnection c
          closeAllActiveFrom fuel

/-- `close_all_active`. -/
def closeAllActive : Worker Unit := do
  let s ← get
  closeAllActiveFrom (s.active.length + 1)
  modify State.freeClosedConnections

/-! ## Deadlines -/

/-- `bpf2socks_deadline_tcp_expired`. -/
def deadlineTcpExpired (nowMs createdAtMs lastActivityMs : Nat) (relayEstablished : Bool)
    (connectTimeoutMs idleTimeoutMs : Nat) : Bool :=
  if nowMs = 0 then false
  else if !relayEstablished then
    if createdAtMs = 0 then false
    else connectTimeoutMs ≠ 0 && createdAtMs ≤ nowMs && connectTimeoutMs ≤ nowMs - createdAtMs
  else if lastActivityMs = 0 then false
  else idleTimeoutMs ≠ 0 && lastActivityMs ≤ nowMs && idleTimeoutMs ≤ nowMs - lastActivityMs

/-- `connection_deadline`. -/
def connectionDeadline (cfg : Config) (k : Conn) : Nat :=
  if k.stage ≠ .relay then
    if k.createdAtMs = 0 ∨ cfg.connectTimeoutMs = 0 then noDeadline
    else (k.createdAtMs + cfg.connectTimeoutMs) % UInt64.size
  else if k.lastActivityMs = 0 ∨ cfg.tcpIdleTimeoutMs = 0 then noDeadline
  else (k.lastActivityMs + cfg.tcpIdleTimeoutMs) % UInt64.size

/-- `note_connection_deadline`, with `bpf2socks_deadline_note`. -/
def State.noteConnectionDeadline (s : State) (c : Nat) : State :=
  if (s.conns c).closing then s
  else { s with nextDeadlineMs := min (connectionDeadline s.cfg (s.conns c)) s.nextDeadlineMs }

/-- The body of the loop of `expire_tcp_connections`. -/
def expireTcpConnection (now c : Nat) : Worker Unit := do
  let s ← get
  let k := s.conns c
  let relayEstablished := k.stage = .relay
  if deadlineTcpExpired now k.createdAtMs k.lastActivityMs relayEstablished
      s.cfg.connectTimeoutMs s.cfg.tcpIdleTimeoutMs then
    if relayEstablished then
      modify fun s => s.mark c .idle true
      closeConnection c
    else resetConnection c .upstream
  else modify fun s => s.noteConnectionDeadline c

/-- `expire_tcp_connections`.  The loop reads the next connection before it closes one, and only
the one it looks at leaves the list. -/
def expireTcpConnections (now : Nat) : Worker Unit := do
  let s ← get
  if now = 0 ∨ now < s.nextDeadlineMs then pure ()
  else
    modify fun s => { s with nextDeadlineMs := noDeadline }
    Act.forEach (expireTcpConnection now) s.active

/-- `deadline_wait_timeout`; `none` waits for ever. -/
def deadlineWaitTimeout (nextDeadlineMs now : Nat) : Option Nat :=
  if nextDeadlineMs = noDeadline then none
  else if now = 0 ∨ nextDeadlineMs ≤ now then some 0
  else some (min (nextDeadlineMs - now) 2147483647)

/-- `min_wait_timeout`. -/
def minWaitTimeout : Option Nat → Nat → Nat
  | none, cap => cap
  | some timeout, cap => min timeout cap

/-- `bpf2socks_deadline_tcp_wait_timeout`. -/
def deadlineTcpWaitTimeout (listenersPaused : Bool) (nextDeadlineMs now : Nat)
    (debugStats : Bool) : Option Nat :=
  let timeout := deadlineWaitTimeout nextDeadlineMs now
  let timeout := if listenersPaused then some (minWaitTimeout timeout tcpFdBackoffMs) else timeout
  if debugStats then some (minWaitTimeout timeout workerTimedWaitMs) else timeout

end Bpf2Socks.Tcp

/-
# Bpf2Socks.Tcp.Relay — moving bytes between the two sockets of a connection.

Bytes go from a socket into the pipe of its side and from there to the other socket.  A direction
is over when an end of file was read, the pipe is empty and the other socket was shut down for
writing.  Between two events the worker asks for exactly the readiness that `clientEvents` and
`upstreamEvents` compute from the pipes.
-/
import Bpf2Socks.Tcp.Handshake

namespace Bpf2Socks.Tcp

open Function (update)
open Udp (Bits)
open Worker

/-! ## Interest -/

/-- `ref->events`. -/
def State.refEvents (s : State) : Ref → Bits
  | .listener4 => s.listener4Events
  | .listener6 => s.listener6Events
  | .conn c side => ((s.conns c).ref side).events

/-- Set `ref->events` after an `epoll_ctl` that succeeded, with what the kernel now holds. -/
def State.register (s : State) (fd : Nat) (ref : Ref) (events : Bits) : State :=
  let s := { s with
    interest := update s.interest fd (if events = Bits.none then none else some (ref, events)) }
  match ref with
  | .listener4 => { s with listener4Events := events }
  | .listener6 => { s with listener6Events := events }
  | .conn c side => s.modConn c fun k =>
      { k with ref := update k.ref side { k.ref side with events } }

/-- `add_fd`: the error of `epoll_ctl`, if any. -/
def addFd (fd : Nat) (ref : Ref) (events : Bits) : Worker (Option Errno) := do
  let r : Option Errno ← ask (.epollAdd fd ref events)
  if r.isNone then modify fun s => s.register fd ref events
  pure r

/-- `mod_fd`. -/
def modFd (fd : Nat) (ref : Ref) (events : Bits) : Worker Bool := do
  let s ← get
  if s.refEvents ref = events then pure true
  else
    let done : Bool ←
      if events = Bits.none then ask (.epollDel fd)
      else if s.refEvents ref = Bits.none then do
        let r : Option Errno ← ask (.epollAdd fd ref events)
        pure r.isNone
      else do
        let r : Option Errno ← ask (.epollMod fd ref events)
        pure r.isNone
    if done then modify fun s => s.register fd ref events
    pure done

/-- `BPF2SOCKS_TCP_HANDSHAKE_CLIENT_EVENTS`. -/
def handshakeClientEvents : Bits := { Bits.none with err := true, hup := true }

/-- `BPF2SOCKS_TCP_RELAY_EVENTS`. -/
def relayEvents : Bits := { Bits.none with err := true, hup := true, rdhup := true }

/-- `relay_side_events`. -/
def relaySideEvents (wantInput outputPending : Bool) : Bits :=
  if wantInput || outputPending then
    { inp := wantInput, rdhup := wantInput, out := outputPending, err := true, hup := true }
  else Bits.none

/-- `splice_pipe_wants_input`. -/
def SplicePipe.wantsInput (p : SplicePipe) : Bool := !p.inputEof && !p.inputPaused

/-- `client_events`. -/
def clientEvents (k : Conn) : Bits :=
  if k.stage = .relay then
    relaySideEvents (k.pipe .client).wantsInput (0 < (k.pipe .upstream).queued)
  else handshakeClientEvents

/-- `upstream_events`. -/
def upstreamEvents (k : Conn) : Bits :=
  match k.stage with
  | .connecting => { relayEvents with out := true }
  | .requestWrite => { relayEvents with out := true }
  | .replyRead => { relayEvents with inp := true }
  | .relay => relaySideEvents (k.pipe .upstream).wantsInput (0 < (k.pipe .client).queued)

/-- `client_events` or `upstream_events`. -/
def sideEvents (k : Conn) : Side → Bits
  | .client => clientEvents k
  | .upstream => upstreamEvents k

/-- One half of `update_connection_events`. -/
def updateSideEvents (c : Nat) (side : Side) : Worker Unit := do
  let s ← get
  let k := s.conns c
  match k.fd side with
  | none => pure ()
  | some fd =>
      let done ← modFd fd (.conn c side) (sideEvents k side)
      if !done then modify fun s => s.mark c .unchanged true

/-- `update_connection_events`. -/
def updateConnectionEvents (c : Nat) : Worker Unit := do
  let s ← get
  if (s.conns c).closing then pure ()
  else
    updateSideEvents c .client
    updateSideEvents c .upstream

/-! ## Splicing -/

/-- `splice` from the socket of a side into the pipe it feeds. -/
def spliceIn (c : Nat) (side : Side) : Worker SpliceIn := do
  let s ← get
  let pipe := (s.conns c).pipe side
  match (s.conns c).fd side, pipe.writeFd with
  | some fd, some w =>
      let r : SpliceIn ← ask (.spliceIn fd w pipe.capacity)
      modify fun s => s.mark c (.stuck side) (r = .full)
      match r with
      | .moved l => modify fun s =>
          (s.pushPipe w (l.map fun b => (c, b))).onSock fd fun k => { k with taken := k.taken ++ l }
      | .eof => modify fun s => s.onSock fd fun k => { k with eof := true }
      | .failed => modify fun s => s.onSock fd fun k => { k with failed := true }
      | _ => pure ()
      pure r
  | _, _ => pure .failed

/-- `splice` from the pipe a side feeds to the other socket. -/
def spliceOut (c : Nat) (side : Side) (chunk : Nat) : Worker (Except Errno Nat) := do
  let s ← get
  match ((s.conns c).pipe side).readFd, (s.conns c).fd side.other with
  | some r, some fd =>
      let moved : Except Errno Nat ← ask (.spliceOut r fd chunk)
      match moved with
      | .ok n =>
          modify fun s =>
            (s.onSock fd fun k =>
              { k with delivered := k.delivered ++ (s.content r).take n
                       failed := k.failed || n == 0 }).popPipe r n
          if 0 < n then modify fun s => s.mark c (.stuck side) false
      | .error e => modify fun s => s.onSock fd fun k => { k with failed := k.failed || !e.soft }
      pure moved
  | _, _ => pure (.error .other)

/-- `shutdown` of a socket for writing. -/
def shutdownWrite (fd : Nat) : Worker Bool := do
  let r : Option Errno ← ask (.shutdown fd)
  let done := match r with
    | none => true
    | some .enotconn => true
    | some .epipe => true
    | some _ => false
  modify fun s => s.onSock fd fun k => { k with shut := true, failed := k.failed || !done }
  pure done

/-- `shutdown_splice_target`, for the pipe a side feeds. -/
def shutdownSpliceTarget (c : Nat) (side : Side) : Worker Bool := do
  let s ← get
  let pipe := (s.conns c).pipe side
  if !pipe.inputEof || 0 < pipe.queued || pipe.outputShutdown then pure true
  else
    match (s.conns c).fd side.other with
    | none => pure false
    | some fd =>
        if ← shutdownWrite fd then
          modify fun s => s.modPipe c side fun p => { p with outputShutdown := true }
          pure true
        else pure false

/-- `connection_touch` if bytes moved. -/
def touchIf (moved : Bool) (c : Nat) : Worker Unit := if moved then connectionTouch c else pure ()

/-- `socket_has_unread_bytes`.  A full pipe in front of a socket that counts nothing is marked. -/
def socketHasUnreadBytes (c : Nat) (side : Side) : Worker Bool := do
  let s ← get
  match (s.conns c).fd side with
  | none => pure false
  | some fd =>
      let r : Option Nat ← ask (.fionread fd)
      let unread := r.any (0 < ·)
      if !unread && s.marks c (.stuck side) then modify fun s => s.mark c (.finOnly side) true
      pure unread

/-- The condition of `splice_socket_to_pipe` for a full pipe: bytes queued and bytes unread. -/
def pipeLooksFull (c : Nat) (side : Side) : Worker Bool := do
  let s ← get
  if 0 < ((s.conns c).pipe side).queued then socketHasUnreadBytes c side else pure false

/-- What `splice_socket_to_pipe` does on `EAGAIN`. -/
def spliceAgain (c : Nat) (side : Side) (movedData : Bool) : Worker Bool := do
  touchIf movedData c
  if ← pipeLooksFull c side then
    modify fun s => s.modPipe c side fun p => { p with inputPaused := true }
  pure true

/-- The loop of `splice_socket_to_pipe`. -/
def spliceSocketToPipeFrom (c : Nat) (side : Side) : Nat → Bool → Worker Bool
  | 0, _ => diverge
  | fuel + 1, movedData => do
      let s ← get
      let capacity := ((s.conns c).pipe side).capacity
      let r ← spliceIn c side
      match r with
      | .moved l =>
          modify fun s => s.modPipe c side fun p => { p with queued := p.queued + l.length }
          if l.length < capacity then
            connectionTouch c
            pure true
          else spliceSocketToPipeFrom c side fuel true
      | .eof =>
          touchIf movedData c
          modify fun s => s.modPipe c side fun p => { p with inputEof := true }
          pure true
      | .intr => spliceSocketToPipeFrom c side fuel movedData
      | .failed =>
          touchIf movedData c
          pure false
      | .full => spliceAgain c side movedData
      | .empty => spliceAgain c side movedData

/-- `splice_socket_to_pipe`, for the socket of a side and the pipe it feeds. -/
def spliceSocketToPipe (c : Nat) (side : Side) : Worker Bool := do
  let s ← get
  if ((s.conns c).pipe side).inputEof then pure true
  else
    let retries : Nat ← ask .retries
    spliceSocketToPipeFrom c side (retries + 1) false

/-- The loop of `splice_pipe_to_socket`: `none` is an error, else whether bytes moved. -/
def splicePipeToSocketFrom (c : Nat) (side : Side) : Nat → Bool → Worker (Option Bool)
  | 0, _ => diverge
  | fuel + 1, movedData => do
      let s ← get
      let pipe := (s.conns c).pipe side
      if 0 < pipe.queued then
        let r ← spliceOut c side (min pipe.queued pipe.capacity)
        match r with
        | .ok 0 =>
            touchIf movedData c
            pure none
        | .ok (n + 1) =>
            modify fun s => s.modPipe c side fun p =>
              { p with queued := p.queued - (n + 1), inputPaused := false }
            splicePipeToSocketFrom c side fuel true
        | .error .eintr => splicePipeToSocketFrom c side fuel movedData
        | .error .eagain => pure (some movedData)
        | .error _ =>
            touchIf movedData c
            pure none
      else pure (some movedData)

/-- `splice_pipe_to_socket`, for the pipe a side feeds. -/
def splicePipeToSocket (c : Nat) (side : Side) : Worker Bool := do
  let retries : Nat ← ask .retries
  let r ← splicePipeToSocketFrom c side (retries + 1) false
  match r with
  | none => pure false
  | some movedData =>
      touchIf movedData c
      shutdownSpliceTarget c side

/-- `splice_pipe_complete`. -/
def SplicePipe.complete (p : SplicePipe) : Bool := p.inputEof && p.queued == 0 && p.outputShutdown

/-- `relay_complete`. -/
def relayComplete (k : Conn) : Bool := (k.pipe .client).complete && (k.pipe .upstream).complete

/-- `flush_relay_pipes`: the socket that could not be written, if any. -/
def flushRelayPipes (c : Nat) : Worker (Option Side) := do
  if ← splicePipeToSocket c .client then
    if ← splicePipeToSocket c .upstream then pure none
    else pure (some .client)
  else pure (some .upstream)

/-! ## Events of a connection -/

/-- `handle_client_event`. -/
def handleClientEvent (c : Nat) (events : Bits) : Worker Unit := do
  if events.err then
    modify fun s => s.mark c .hungUp true
    resetConnection c .client
  else if events.err || events.hup then
    modify fun s => s.mark c .hungUp true
    closeConnection c

/-- The part of `handle_upstream_handshake` that writes the request. -/
def writeRequest (c : Nat) (events : Bits) : Worker Bool := do
  let s ← get
  let started ← if (s.conns c).stage = .connecting && events.out then startHandshake c else pure true
  if started then
    let s ← get
    if (s.conns c).stage = .requestWrite && events.out then
      let r ← flushHandshake c
      pure (match r with
        | .ok _ => true
        | .error _ => false)
    else pure true
  else pure false

/-- The part of `handle_upstream_handshake` that reads the replies. -/
def readReplies (c : Nat) (readable : Bool) : Worker Bool := do
  let s ← get
  if (s.conns c).stage = .replyRead && readable then
    let r ← readPipelinedReplies c
    match r with
    | none => pure false
    | some false => pure true
    | some true => finishPipelinedReplies c
  else pure true

/-- `handle_upstream_handshake`. -/
def handleUpstreamHandshake (c : Nat) (events : Bits) : Worker Unit := do
  if events.err then resetConnection c .upstream
  else
    let hangup := events.hup || events.rdhup
    let readable := events.inp || hangup
    let written ← writeRequest c events
    let read ← if written then readReplies c readable else pure false
    let s ← get
    if !read || (hangup && (s.conns c).stage ≠ .relay) then resetConnection c .upstream

/-- `handle_splice_relay`. -/
def handleSpliceRelay (c : Nat) (side : Side) (events : Bits) : Worker Unit := do
  if events.err then resetConnection c side
  else
    let read ← if events.inp then spliceSocketToPipe c side else pure true
    if read then
      let failed ← flushRelayPipes c
      match failed with
      | some failedSide => resetConnection c failedSide
      | none =>
          let s ← get
          if relayComplete (s.conns c) then closeConnection c
    else resetConnection c side

/-- The end of `handleSpliceRelay`: both pipes are emptied as far as they go. -/
def relayFlush (c : Nat) : Worker Unit := do
  let failed ← flushRelayPipes c
  match failed with
  | some failedSide => resetConnection c failedSide
  | none =>
      let s ← get
      if relayComplete (s.conns c) then closeConnection c

/-- `handle_connection_event` for a socket of a connection.  An error event is a failure of its
socket. -/
def handleSocketEvent (c : Nat) (side : Side) (events : Bits) : Worker Unit := do
  let s ← get
  if !((s.conns c).ref side).connection then pure ()
  else
    if events.err then
      if let some fd := (s.conns c).fd side then
        modify fun s => s.onSock fd fun k => { k with failed := true }
    if (s.conns c).stage = .relay then handleSpliceRelay c side events
    else
      match side with
      | .client => handleClientEvent c events
      | .upstream => handleUpstreamHandshake c events
    updateConnectionEvents c
    modify fun s => s.noteConnectionDeadline c

end Bpf2Socks.Tcp

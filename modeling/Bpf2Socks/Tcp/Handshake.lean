/-
# Bpf2Socks.Tcp.Handshake — the SOCKS5 handshake of a connection, up to the relay.

The method hello and the CONNECT request go out together, and both replies are read into one
buffer.  What the server sends after them is payload already; it is put into the pipe towards the
client before the connection is given to the relay.
-/
import Bpf2Socks.Tcp.Connection

namespace Bpf2Socks.Tcp

open Function (update)
open Udp (DstAddr Bits socks5WriteAddr socks5BuildHello socks5ReplyLength)
open Worker

/-! ## Sockets -/

/-- Errors after which a call may be made again. -/
def Errno.soft : Errno → Bool
  | .eagain => true
  | .eintr => true
  | _ => false

/-- `send` on a socket. -/
def send (fd : Nat) (bytes : List UInt8) : Worker (Except Errno Nat) := do
  let r : Except Errno Nat ← ask (.send fd bytes)
  match r with
  | .ok n => modify fun s => s.onSock fd fun k =>
      { k with sent := k.sent ++ bytes.take n, failed := k.failed || n == 0 }
  | .error e => modify fun s => s.onSock fd fun k => { k with failed := k.failed || !e.soft }
  pure r

/-- `recv` on a socket. -/
def recv (fd room : Nat) : Worker (Except Errno (List UInt8)) := do
  let r : Except Errno (List UInt8) ← ask (.recv fd room)
  match r with
  | .ok l => modify fun s => s.onSock fd fun k =>
      { k with received := k.received ++ l, eof := k.eof || l.isEmpty }
  | .error e => modify fun s => s.onSock fd fun k => { k with failed := k.failed || !e.soft }
  pure r

/-! ## Writing the request -/

/-- `bpf2socks_socks5_build_connect_request`; `none` is its zero length. -/
def socks5BuildConnectRequest (cap : Nat) (dst : DstAddr) : Option (List UInt8) :=
  if cap < 3 then none else (socks5WriteAddr (cap - 3) dst).map ([5, 1, 0] ++ ·)

/-- What `start_handshake` puts into the handshake buffer. -/
def handshakeBytes (target : DstAddr) : Option (List UInt8) :=
  match socks5BuildHello tcpHandshakeCap with
  | none => none
  | some hello => (socks5BuildConnectRequest (tcpHandshakeCap - hello.length) target).map (hello ++ ·)

/-- `start_handshake`. -/
def startHandshake (c : Nat) : Worker Bool := do
  let s ← get
  match handshakeBytes (s.conns c).target with
  | none => pure false
  | some bytes =>
      modify fun s => s.modConn c fun k =>
        { k with handshake := bytes, handshakeOffset := 0, stage := .requestWrite }
      pure true

/-- The loop of `flush_handshake`.  A `send` of nothing fails with whatever `errno` is. -/
def flushHandshakeFrom (c : Nat) : Nat → Worker (Except Errno Unit)
  | 0 => diverge
  | fuel + 1 => do
      let s ← get
      let k := s.conns c
      if k.handshakeOffset < k.handshake.length then
        match k.fd .upstream with
        | none => pure (.error .other)
        | some fd =>
            let r ← send fd (k.handshake.drop k.handshakeOffset)
            match r with
            | .error .eintr => flushHandshakeFrom c fuel
            | .error .eagain => pure (.ok ())
            | .error e => pure (.error e)
            | .ok 0 =>
                let e : Errno ← ask .errno
                pure (.error e)
            | .ok (n + 1) =>
                modify fun s => s.modConn c fun k =>
                  { k with handshakeOffset := k.handshakeOffset + (n + 1) }
                connectionTouch c
                flushHandshakeFrom c fuel
      else
        modify fun s => s.modConn c fun k => { k with response := [], stage := .replyRead }
        pure (.ok ())

/-- `flush_handshake`. -/
def flushHandshake (c : Nat) : Worker (Except Errno Unit) := do
  let retries : Nat ← ask .retries
  flushHandshakeFrom c (retries + tcpHandshakeCap + 1)

/-! ## Reading the replies -/

/-- What the bytes received so far say. -/
inductive Replies where
  | refused
  | incomplete
  | complete (needed : Nat)
  deriving DecidableEq

/-- The checks of `read_pipelined_replies` on the response buffer. -/
def checkReplies (response : List UInt8) : Replies :=
  if 2 ≤ response.length ∧ response.take 2 ≠ [5, 0] then .refused
  else
    match (if 2 < response.length then socks5ReplyLength (response.drop 2) else some 0) with
    | none => .refused
    | some 0 => .incomplete
    | some (n + 1) => if n + 1 + 2 ≤ response.length then .complete (n + 1 + 2) else .incomplete

/-- The loop of `read_pipelined_replies`: `none` failed, `some false` waits for more. -/
def readPipelinedRepliesFrom (c : Nat) : Nat → Worker (Option Bool)
  | 0 => diverge
  | fuel + 1 => do
      let s ← get
      let k := s.conns c
      let room := tcpResponseCap - k.response.length
      if room = 0 then
        modify fun s => s.mark c .repliesFull true
        pure none
      else
        match k.fd .upstream with
        | none => pure none
        | some fd =>
            let r ← recv fd room
            match r with
            | .error .eintr => readPipelinedRepliesFrom c fuel
            | .error .eagain => pure (some false)
            | .error _ => pure none
            | .ok [] => pure none
            | .ok received =>
                modify fun s => s.modConn c fun k => { k with response := k.response ++ received }
                connectionTouch c
                match checkReplies (k.response ++ received) with
                | .refused => pure none
                | .complete needed =>
                    modify fun s => s.modConn c fun k => { k with responseExpected := needed }
                    pure (some true)
                | .incomplete =>
                    if received.length < room then pure (some false)
                    else readPipelinedRepliesFrom c fuel

/-- `read_pipelined_replies`. -/
def readPipelinedReplies (c : Nat) : Worker (Option Bool) := do
  let retries : Nat ← ask .retries
  readPipelinedRepliesFrom c (retries + tcpResponseCap + 1)

/-- `write` of early payload to the pipe towards the client. -/
def writeEarly (c : Nat) (bytes : List UInt8) : Worker (Except Errno Nat) := do
  let s ← get
  match ((s.conns c).pipe .upstream).writeFd with
  | none => pure (.error .other)
  | some fd =>
      let r : Except Errno Nat ← ask (.pipeWrite fd bytes)
      if let .ok n := r then
        modify fun s => s.pushPipe fd ((bytes.take n).map fun b => (c, b))
      pure r

/-- `finish_pipelined_replies`. -/
def finishPipelinedReplies (c : Nat) : Worker Bool := do
  if ← initConnectionSplicePipes c then
    let s ← get
    let k := s.conns c
    let early := k.response.drop k.responseExpected
    if 0 < early.length then
      let written ← writeEarly c early
      match written with
      | .ok n =>
          if n = early.length then
            modify fun s => s.modPipe c .upstream fun p => { p with queued := p.queued + n }
            modify fun s => s.modConn c fun k => { k with stage := .relay }
            pure true
          else
            modify fun s => s.mark c .noPipe true
            pure false
      | .error _ =>
          modify fun s => s.mark c .noPipe true
          pure false
    else
      modify fun s => s.modConn c fun k => { k with stage := .relay }
      pure true
  else pure false

end Bpf2Socks.Tcp

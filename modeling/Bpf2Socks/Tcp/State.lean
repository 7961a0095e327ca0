/-
# Bpf2Socks.Tcp.State — a TCP worker: its connections, its descriptors and its surroundings.

A worker accepts redirected clients, opens one connection to the SOCKS5 server for each, and moves
bytes between the two through two pipes.  What the source keeps in pairs (`client_fd` and
`upstream_fd`, the two epoll refs, `client_to_upstream` and `upstream_to_client`) is a function of
the side here; the pipe of a side is the one that side feeds.

A connection is named by the number of the `accept` that began it, so a name is never used twice.
The ghost part follows each of the two sockets of a connection from open to close: what was read
from it and written to it, whether it would be closed with a reset, whether it failed.  Bytes in a
pipe carry the connection they were put there for.

Everything else the worker depends on is a question `Sys`; `okb` is the contract of the answers.
-/
import Bpf2Socks.Lib.Prog
import Bpf2Socks.Udp.Associate

namespace Bpf2Socks.Tcp

open Function (update)
open Lib (Prog Act)
open Udp (DstAddr Bits)

/-- `BPF2SOCKS_TCP_EVENTS`. -/
def tcpEvents : Nat := 256

/-- `BPF2SOCKS_TCP_HANDSHAKE_CAP`. -/
def tcpHandshakeCap : Nat := 32

/-- `BPF2SOCKS_TCP_RESPONSE_CAP`. -/
def tcpResponseCap : Nat := 264

/-- `BPF2SOCKS_TCP_SPLICE_CHUNK`. -/
def tcpSpliceChunk : Nat := 65536

/-- `BPF2SOCKS_TCP_PIPE_SIZE`. -/
def tcpPipeSize : Nat := 262144

/-- `BPF2SOCKS_TCP_PIPE_POOL_CAP`. -/
def tcpPipePoolCap : Nat := 16

/-- `BPF2SOCKS_TCP_FD_BACKOFF_MILLISECONDS`. -/
def tcpFdBackoffMs : Nat := 1000

/-- `BPF2SOCKS_WORKER_TIMED_WAIT_MILLISECONDS`. -/
def workerTimedWaitMs : Nat := 1000

/-- `BPF2SOCKS_NO_DEADLINE`. -/
def noDeadline : Nat := UInt64.size - 1

/-- `PIPE_BUF`: a write of this many bytes to a pipe is not split. -/
def pipeBuf : Nat := 4096

/-- The errors the worker tells apart. -/
inductive Errno where
  | eagain
  | eintr
  | emfile
  | enfile
  | enotconn
  | epipe
  | other
  deriving DecidableEq

/-- `enum tcp_stage`. -/
inductive Stage where
  | connecting
  | requestWrite
  | replyRead
  | relay
  deriving DecidableEq

/-- `enum tcp_side`, for the two sockets of a connection. -/
inductive Side where
  | client
  | upstream
  deriving DecidableEq

/-- The other socket. -/
def Side.other : Side → Side
  | client => upstream
  | upstream => client

@[simp] theorem Side.other_other (d : Side) : d.other.other = d := by cases d <;> rfl

@[simp] theorem Side.other_ne (d : Side) : d.other ≠ d := by cases d <;> decide

@[simp] theorem Side.ne_other (d : Side) : d ≠ d.other := by cases d <;> decide

theorem Side.eq_or_other (d e : Side) : e = d ∨ e = d.other := by cases d <;> cases e <;> decide

/-- What an epoll registration points to: a `struct tcp_fd_ref`. -/
inductive Ref where
  | listener4
  | listener6
  | conn (c : Nat) (side : Side)
  deriving DecidableEq

/-- `struct tcp_fd_ref` of a socket: whether `connection` is set, and `events`. -/
structure FdRef where
  connection : Bool
  events : Bits
  deriving DecidableEq

/-- `struct tcp_splice_pipe`. -/
structure SplicePipe where
  readFd : Option Nat
  writeFd : Option Nat
  capacity : Nat
  queued : Nat
  inputEof : Bool
  inputPaused : Bool
  outputShutdown : Bool
  deriving DecidableEq

/-- `init_splice_pipe`. -/
def initSplicePipe : SplicePipe :=
  { readFd := none, writeFd := none, capacity := tcpSpliceChunk, queued := 0, inputEof := false
    inputPaused := false, outputShutdown := false }

/-- `struct tcp_connection`.  The handshake buffer holds its first `handshake_length` bytes and the
response buffer its first `response_length`. -/
structure Conn where
  fd : Side → Option Nat
  stage : Stage
  closing : Bool
  sessionReserved : Bool
  ref : Side → FdRef
  pipe : Side → SplicePipe
  target : DstAddr
  handshake : List UInt8
  handshakeOffset : Nat
  response : List UInt8
  responseExpected : Nat
  createdAtMs : Nat
  lastActivityMs : Nat
  activeLinked : Bool

/-- A zeroed connection, with no descriptor. -/
def Conn.zero : Conn :=
  { fd := fun _ => none, stage := .connecting, closing := false, sessionReserved := false
    ref := fun _ => ⟨false, Bits.none⟩, pipe := fun _ => initSplicePipe, target := ⟨.unspec, 0, []⟩
    handshake := [], handshakeOffset := 0, response := [], responseExpected := 0
    createdAtMs := 0, lastActivityMs := 0, activeLinked := false }

/-- An entry of `struct tcp_pipe_pool`. -/
structure PoolPair where
  readFd : Nat
  writeFd : Nat
  capacity : Nat
  deriving DecidableEq

/-! ## Descriptors and ghost records -/

/-- What a descriptor refers to.  The content of a pipe is kept at its read end, each byte with
the connection it was put in for; `holder` is ghost: the direction that holds the pair, or the pool. -/
inductive Desc where
  | listener
  | socket (n : Nat) (side : Side)
  | pipeRead (holder : Option (Nat × Side)) (content : List (Nat × UInt8))
  | pipeWrite (readFd : Nat)
  | spare
  deriving DecidableEq

/-- The life of a socket.  `linger` is the zero-linger option, which makes `close` send a reset.
`received` and `sent` went through `recv` and `send`, `taken` and `delivered` through `splice`. -/
structure Sock where
  isOpen : Bool
  linger : Bool
  received : List UInt8
  sent : List UInt8
  taken : List UInt8
  delivered : List (Nat × UInt8)
  eof : Bool
  shut : Bool
  failed : Bool
  deriving DecidableEq

/-- A socket that does not exist yet. -/
def Sock.zero : Sock :=
  { isOpen := false, linger := false, received := [], sent := [], taken := [], delivered := []
    eof := false, shut := false, failed := false }

/-- What happened to a connection, for the record: an error or hangup of the client before the
relay, an allocation, a registration or a pipe that failed, an `accept` on the spare descriptor, a
reservation not yet handed over, an idle timeout, the end of the worker, a splice that found its
pipe full, a full pipe with nothing to count behind it, an interest that could not be changed, a
response buffer without room. -/
inductive Mark where
  | hungUp
  | noMemory
  | unregistered
  | noPipe
  | spare
  | creating
  | idle
  | stopped
  | stuck (side : Side)
  | finOnly (side : Side)
  | unchanged
  | repliesFull
  deriving DecidableEq

/-- What the worker reads of its configuration. -/
structure Config where
  listener4 : Nat
  listener6 : Option Nat
  connectTimeoutMs : Nat
  tcpIdleTimeoutMs : Nat
  sessionCap : Nat
  debugStats : Bool

/-- `struct tcp_worker_state`, with the descriptor table and the ghost records.  `pool` has the
pair that is handed out next at its head. -/
structure State where
  cfg : Config
  conns : Nat → Conn
  active : List Nat
  closed : List Nat
  pool : List PoolPair
  nextDeadlineMs : Nat
  listenersResumeMs : Nat
  spareFd : Option Nat
  listenersPaused : Bool
  listener4Events : Bits
  listener6Events : Bits
  fds : Nat → Option Desc
  interest : Nat → Option (Ref × Bits)
  accepted : Nat
  socks : Nat → Side → Sock
  marks : Nat → Mark → Bool

/-- The state `bpf2socks_bridge_tcp_run` starts from. -/
def initState (cfg : Config) : State :=
  { cfg, conns := fun _ => .zero, active := [], closed := [], pool := []
    nextDeadlineMs := noDeadline, listenersResumeMs := 0, spareFd := none, listenersPaused := false
    listener4Events := Bits.none, listener6Events := Bits.none
    fds := fun fd => if fd = cfg.listener4 ∨ some fd = cfg.listener6 then some .listener else none
    interest := fun _ => none, accepted := 0, socks := fun _ _ => .zero, marks := fun _ _ => false }

/-! ## Questions -/

/-- How a splice from a socket into a pipe ended.  The code sees `full` and `empty` as `EAGAIN`. -/
inductive SpliceIn where
  | moved (bytes : List UInt8)
  | eof
  | full
  | empty
  | intr
  | failed
  deriving DecidableEq

/-- What the worker asks of its surroundings. -/
inductive Sys where
  | stopRequested
  | nowMs
  | retries
  | errno
  | accept (listener : Nat)
  | originalDst (fd : Nat)
  | budgetLoad
  | budgetCas (n : Nat) (used : Nat)
  | budgetSub (n : Nat)
  | calloc
  | connect
  | send (fd : Nat) (bytes : List UInt8)
  | recv (fd : Nat) (room : Nat)
  | pipe2
  | setPipeSize (fd : Nat) (size : Nat)
  | pipeWrite (fd : Nat) (bytes : List UInt8)
  | spliceIn (fd pipe : Nat) (len : Nat)
  | spliceOut (pipe fd : Nat) (len : Nat)
  | fionread (fd : Nat)
  | shutdown (fd : Nat)
  | epollCreate
  | epollAdd (fd : Nat) (ref : Ref) (events : Bits)
  | epollMod (fd : Nat) (ref : Ref) (events : Bits)
  | epollDel (fd : Nat)
  | epollWait (timeout : Option Nat)
  | openSpare
  deriving DecidableEq

/-- What each question is answered with.  `connect` tells whether the connection is still in
progress; an unsuccessful compare and exchange gives the value it found. -/
abbrev Sys.Ans : Sys → Type
  | stopRequested => Bool
  | nowMs => Nat
  | retries => Nat
  | errno => Errno
  | accept _ => Except Errno Nat
  | originalDst _ => Option DstAddr
  | budgetLoad => Nat
  | budgetCas _ _ => Except Nat Unit
  | budgetSub _ => Unit
  | calloc => Option Errno
  | connect => Except Errno (Nat × Bool)
  | send _ _ => Except Errno Nat
  | recv _ _ => Except Errno (List UInt8)
  | pipe2 => Except Errno (Nat × Nat)
  | setPipeSize _ _ => Option Nat
  | pipeWrite _ _ => Except Errno Nat
  | spliceIn _ _ _ => SpliceIn
  | spliceOut _ _ _ => Except Errno Nat
  | fionread _ => Option Nat
  | shutdown _ => Option Errno
  | epollCreate => Bool
  | epollAdd _ _ _ => Option Errno
  | epollMod _ _ _ => Option Errno
  | epollDel _ => Bool
  | epollWait _ => Except Errno (List (Ref × Bits))
  | openSpare => Option Nat

/-- The bytes in the pipe a write end leads to. -/
def State.content (s : State) (fd : Nat) : List (Nat × UInt8) :=
  match s.fds fd with
  | some (.pipeWrite r) =>
      match s.fds r with
      | some (.pipeRead _ content) => content
      | _ => []
  | some (.pipeRead _ content) => content
  | _ => []

/-- The contract of the answers. -/
def okb (s : State) : (q : Sys) → q.Ans → Bool
  | .nowMs, (r : Nat) => r < UInt64.size
  | .accept _, (r : Except Errno Nat) =>
      match r with
      | .ok fd => (s.fds fd).isNone
      | .error _ => true
  | .connect, (r : Except Errno (Nat × Bool)) =>
      match r with
      | .ok a => (s.fds a.1).isNone
      | .error _ => true
  | .send _ bytes, (r : Except Errno Nat) =>
      match r with
      | .ok n => n ≤ bytes.length
      | .error _ => true
  | .recv _ room, (r : Except Errno (List UInt8)) =>
      match r with
      | .ok l => l.length ≤ room
      | .error _ => true
  | .pipe2, (r : Except Errno (Nat × Nat)) =>
      match r with
      | .ok a => (s.fds a.1).isNone && (s.fds a.2).isNone && a.1 ≠ a.2
      | .error _ => true
  | .setPipeSize _ _, (r : Option Nat) => r.all (0 < ·)
  -- a write of at most `PIPE_BUF` bytes to an empty pipe is all or nothing
  | .pipeWrite fd bytes, (r : Except Errno Nat) =>
      match r with
      | .ok n => n ≤ bytes.length &&
          (n = bytes.length || !(s.content fd).isEmpty || pipeBuf < bytes.length)
      | .error _ => true
  | .spliceIn _ pipe len, (r : SpliceIn) =>
      match r with
      | .moved l => l ≠ [] && l.length ≤ len
      | .full => !(s.content pipe).isEmpty
      | _ => true
  | .spliceOut pipe _ len, (r : Except Errno Nat) =>
      match r with
      | .ok n => n ≤ len && n ≤ (s.content pipe).length
      | .error _ => true
  | .epollWait _, (r : Except Errno (List (Ref × Bits))) =>
      match r with
      | .ok l => l.length ≤ tcpEvents
      | .error _ => true
  | .openSpare, (r : Option Nat) => r.all fun fd => (s.fds fd).isNone
  | _, _ => true

/-- Admissible answers. -/
def ok (s : State) (q : Sys) (r : q.Ans) : Prop := okb s q r = true

/-- Code of the worker. -/
abbrev Worker := Act Sys.Ans State

namespace Worker

/-- The current state. -/
def get : Worker State := Act.get

/-- Change the state. -/
def modify (f : State → State) : Worker Unit := Act.modify f

/-- Ask the environment. -/
def ask (q : Sys) : Worker q.Ans := Act.ask q

/-- A loop that never returns. -/
def diverge {α : Type} : Worker α := Act.diverge

@[simp] theorem get_run (s : State) : get s = .ret s s := rfl

@[simp] theorem modify_run (f : State → State) (s : State) : modify f s = .ret (f s) () := rfl

@[simp] theorem ask_run (q : Sys) (s : State) : ask q s = .ask s q fun r => .ret s r := rfl

@[simp] theorem diverge_run {α : Type} (s : State) : (diverge : Worker α) s = .diverge := rfl

end Worker

/-! ## State changes -/

/-- Change one connection. -/
def State.modConn (s : State) (c : Nat) (f : Conn → Conn) : State :=
  { s with conns := update s.conns c (f (s.conns c)) }

/-- Change the life of one socket. -/
def State.modSock (s : State) (n : Nat) (side : Side) (f : Sock → Sock) : State :=
  { s with socks := update s.socks n (update (s.socks n) side (f (s.socks n side))) }

/-- Put a mark on a connection, or take it off. -/
def State.mark (s : State) (n : Nat) (m : Mark) (b : Bool) : State :=
  { s with marks := update s.marks n (update (s.marks n) m b) }

/-- Change one pipe of a connection. -/
def Conn.modPipe (k : Conn) (side : Side) (f : SplicePipe → SplicePipe) : Conn :=
  { k with pipe := update k.pipe side (f (k.pipe side)) }

/-- Change one pipe of a connection. -/
def State.modPipe (s : State) (c : Nat) (side : Side) (f : SplicePipe → SplicePipe) : State :=
  s.modConn c fun k => k.modPipe side f

/-- Change the life of the socket a descriptor refers to. -/
def State.onSock (s : State) (fd : Nat) (f : Sock → Sock) : State :=
  match s.fds fd with
  | some (.socket n side) => s.modSock n side f
  | _ => s

/-- `close`.  A closed descriptor leaves the epoll set. -/
def State.closeFd (s : State) (fd : Nat) : State :=
  { s.onSock fd fun k => { k with isOpen := false } with
    fds := update s.fds fd none, interest := update s.interest fd none }

/-- `bpf2socks_close_fd`. -/
def State.closeOpt (s : State) : Option Nat → State
  | some fd => s.closeFd fd
  | none => s

/-- `reset_on_close`. -/
def State.resetOnClose (s : State) : Option Nat → State
  | some fd => s.onSock fd fun k => { k with linger := true }
  | none => s

/-- A new socket of connection `n`. -/
def State.openSocket (s : State) (fd n : Nat) (side : Side) : State :=
  { s.modSock n side fun _ => { Sock.zero with isOpen := true } with
    fds := update s.fds fd (some (.socket n side)) }

/-- Bytes enter the pipe behind a write end. -/
def State.pushPipe (s : State) (fd : Nat) (bytes : List (Nat × UInt8)) : State :=
  match s.fds fd with
  | some (.pipeWrite r) =>
      match s.fds r with
      | some (.pipeRead holder content) =>
          { s with fds := update s.fds r (some (.pipeRead holder (content ++ bytes))) }
      | _ => s
  | _ => s

/-- Bytes leave the pipe at a read end. -/
def State.popPipe (s : State) (fd n : Nat) : State :=
  match s.fds fd with
  | some (.pipeRead holder content) =>
      { s with fds := update s.fds fd (some (.pipeRead holder (content.drop n))) }
  | _ => s

end Bpf2Socks.Tcp

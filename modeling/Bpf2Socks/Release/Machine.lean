/-
# Bpf2Socks.Release.Machine — closed client sockets, their notifications, and the sessions they leave.

The kernel reports every destroyed UDP socket to a netlink socket of the worker, or marks that
reports were lost.  A local session whose port no socket holds any more is released when the report
is handled; one that still delivers replies, or is created from a datagram that was queued when its
client closed, is looked at again a little later.

Client sockets come and go on their own: every system call of the worker finds a kernel that has
moved on.  Two fields are ghost: when the close of a socket was handled, and when a port was last
stamped, with all 64 bits.

What the rest of the worker does to sessions is to drop them, to use them and to deliver replies.
-/
import Bpf2Socks.Lib.Prog
import Bpf2Socks.Udp.Address
import Mathlib.Logic.Relation

namespace Bpf2Socks.Release

open Function (update)
open Lib
open Udp (Sockaddr sameSockaddr sockaddrIsLoopback sockaddrPort)

/-- `BPF2SOCKS_UDP_RELEASE_RETRY_MILLISECONDS`. -/
def retryMilliseconds : UInt64 := 100

/-- `BPF2SOCKS_UDP_RELEASE_RECENT_MILLISECONDS`. -/
def recentMilliseconds : Nat := 2000

/-- `BPF2SOCKS_UDP_RELEASE_PORT_MEMO_SLOTS`. -/
def portMemoSlots : Nat := 256

/-- `BPF2SOCKS_NO_DEADLINE`. -/
def noDeadline : UInt64 := 0xffffffffffffffff

/-! ## The kernel -/

/-- A UDP socket, from the time it has a port. -/
inductive Status where
  | unused
  | isOpen (port : UInt16)
  | closed (port : UInt16)
  deriving DecidableEq

def Status.port : Status → Option UInt16
  | .unused => none
  | .isOpen p => some p
  | .closed p => some p

def Status.isClosed : Status → Bool
  | .closed _ => true
  | _ => false

structure Kernel where
  sockets : Nat → Status
  /-- The sockets whose destroy notifications are unread. -/
  queue : List Nat
  /-- `ENOBUFS` waits to be read: notifications were lost. -/
  lost : Bool
  /-- `bpf2socks_now_ms`. -/
  clock : UInt64
  /-- The epoll registration of the netlink socket asks for `EPOLLIN`. -/
  watched : Bool

/-- Some socket has the port. -/
def Kernel.Holds (k : Kernel) (port : UInt16) : Prop := ∃ i, k.sockets i = .isOpen port

/-- There is an unread notification for the port, or a loss mark. -/
def Kernel.Told (k : Kernel) (port : UInt16) : Prop :=
  k.lost = true ∨ ∃ i ∈ k.queue, k.sockets i = .closed port

inductive Kernel.Step : Kernel → Kernel → Prop where
  | tick {k : Kernel} (t : UInt64) (h : k.clock ≤ t) : Step k { k with clock := t }
  | opens {k : Kernel} (i : Nat) (port : UInt16) (h : k.sockets i = .unused) :
      Step k { k with sockets := update k.sockets i (.isOpen port) }
  | closes {k : Kernel} (i : Nat) (port : UInt16) (h : k.sockets i = .isOpen port) :
      Step k { k with
        sockets := update k.sockets i (.closed port)
        queue := k.queue ++ [i] }
  | closesLost {k : Kernel} (i : Nat) (port : UInt16) (h : k.sockets i = .isOpen port) :
      Step k { k with
        sockets := update k.sockets i (.closed port)
        lost := true }

/-- What may happen while the worker does something else. -/
def Kernel.Evolves : Kernel → Kernel → Prop := Relation.ReflTransGen Kernel.Step

/-! ## The worker -/

/-- `struct bpf2socks_udp_client_session`. -/
structure Session where
  clientAddr : Sockaddr
  releaseRetryMs : UInt64
  /-- `downlink_pending_count > 0 || downlink_waiting_budget`. -/
  draining : Bool

/-- `session_client_is_local`. -/
def Session.isLocal (x : Session) : Bool := sockaddrIsLoopback x.clientAddr

/-- `session_client_port`. -/
def Session.port (x : Session) : UInt16 := sockaddrPort x.clientAddr

structure State where
  kernel : Kernel
  /-- The list from `lru_head` on. -/
  sessions : List Session
  localSessionCount : Nat
  releasedPorts : UInt16 → Bool
  portDestroyedMs : UInt16 → UInt32
  checkNewSessionsUntilMs : UInt64
  releaseRetryDueMs : UInt64
  destroyEventsArmed : Bool
  /-- When the close of a socket was handled.  Ghost. -/
  handled : Nat → Option UInt64
  /-- When a port was last stamped.  Ghost. -/
  stampedAt : UInt16 → Option UInt64

/-- System calls. -/
inductive Call where
  | now
  /-- `last_seen_ms` of a new session; the datagram is of this socket.  The socket is ghost. -/
  | seen (addr : Sockaddr) (client : Nat)
  /-- How many reads of the netlink socket return something. -/
  | rounds
  /-- One of them, in a drain that began at `now`. -/
  | recv (now : UInt64)
  | portOpen (port : UInt16)
  /-- `bpf2socks_udp_epoll_modify` of the netlink socket. -/
  | watch (input : Bool)
  /-- `alloc_session`: whether there is room, and which sessions go for it. -/
  | room
  /-- Anything else that can fail. -/
  | tries

/-- Reads return a number of notifications, or `none` for `ENOBUFS`; `none` is a failed port query. -/
def Result : Call → Type
  | .now | .seen _ _ => Unit
  | .rounds => Nat
  | .recv _ => Option Nat
  | .portOpen _ => Option Bool
  | .watch _ | .tries => Bool
  | .room => Option (List Nat)

/-- What a call returns, and the kernel it finds. -/
def Answer (q : Call) : Type := Kernel × Result q

abbrev Code (α : Type) : Type := Act Answer State α

def sys (q : Call) : Code (Result q) := fun s =>
  .ask s q fun r => .ret { s with kernel := r.1 } r.2

/-- `bpf2socks_now_ms`. -/
def nowMs : Code UInt64 := do
  let _ ← sys .now
  let s ← Act.get
  pure s.kernel.clock

/-! ## Sessions -/

/-- `bpf2socks_udp_session_drop`, as far as the list and the count go. -/
def State.drop (s : State) (i : Nat) : State :=
  match s.sessions[i]? with
  | none => s
  | some x =>
      { s with
        sessions := s.sessions.eraseIdx i
        localSessionCount := if x.isLocal then s.localSessionCount - 1 else s.localSessionCount }

/-- `bpf2socks_udp_lru_touch`. -/
def State.touch (s : State) (i : Nat) : State :=
  match s.sessions[i]? with
  | none => s
  | some x => { s with sessions := s.sessions.eraseIdx i ++ [x] }

/-- Replies of a session are queued or are through. -/
def State.deliver (s : State) (i : Nat) (draining : Bool) : State :=
  match s.sessions[i]? with
  | none => s
  | some x => { s with sessions := s.sessions.set i { x with draining := draining } }

/-- `bpf2socks_deadline_note` on `release_retry_due_ms`. -/
def deadlineNote (due deadline : UInt64) : UInt64 := if deadline < due then deadline else due

def State.noteRetry (s : State) (deadline : UInt64) : State :=
  { s with releaseRetryDueMs := deadlineNote s.releaseRetryDueMs deadline }

/-! ## Releasing -/

/-- `bpf2socks_udp_port_bitmap_set`. -/
def setPort (ports : UInt16 → Bool) (port : UInt16) : UInt16 → Bool := update ports port true

/-- `flag_all_local_sessions`. -/
def State.flagAllLocalSessions (s : State) : State :=
  let flag := fun ports (x : Session) => if x.isLocal then setPort ports x.port else ports
  { s with releasedPorts := s.sessions.foldl flag s.releasedPorts }

/-- `struct release_port_results`. -/
abbrev PortMemo := List (UInt16 × Option Bool)

/-- `release_port_has_socket`. -/
def portHasSocket (memo : PortMemo) (port : UInt16) : Code (Option Bool × PortMemo) :=
  match memo.lookup port with
  | some r => pure (r, memo)
  | none => do
      let r : Option Bool ← sys (.portOpen port)
      pure (r, if memo.length < portMemoSlots then memo ++ [(port, r)] else memo)

/-- The count of a session that goes. -/
def State.uncount (s : State) : State := { s with localSessionCount := s.localSessionCount - 1 }

/-- The walk of `release_flagged_sessions`: the sessions that stay. -/
def releaseFlaggedFrom (now : UInt64) : List Session → PortMemo → Code (List Session)
  | [], _ => pure []
  | x :: rest, memo => do
      let s ← Act.get
      if x.isLocal = false ∨ s.releasedPorts x.port = false then
        let kept ← releaseFlaggedFrom now rest memo
        pure (x :: kept)
      else if x.draining then
        Act.modify fun s => s.noteRetry (now + retryMilliseconds)
        let kept ← releaseFlaggedFrom now rest memo
        pure ({ x with releaseRetryMs := now + retryMilliseconds } :: kept)
      else
        let (r, memo) ← portHasSocket memo x.port
        if r = some false then
          Act.modify State.uncount
          releaseFlaggedFrom now rest memo
        else
          let kept ← releaseFlaggedFrom now rest memo
          pure (x :: kept)

/-- `release_flagged_sessions`. -/
def releaseFlaggedSessions (now : UInt64) : Code Unit := do
  let s ← Act.get
  let kept ← releaseFlaggedFrom now s.sessions []
  Act.modify fun s => { s with sessions := kept, releasedPorts := fun _ => false }

/-- The stamp of a time: its low 32 bits, "0 means never". -/
def destroyStamp (now : UInt64) : UInt32 := if now.toUInt32 = 0 then 1 else now.toUInt32

/-- `stamp_destroyed_ports`. -/
def State.stampDestroyedPorts (s : State) (now : UInt64) : State :=
  { s with
    portDestroyedMs := fun p =>
      if s.releasedPorts p then destroyStamp now else s.portDestroyedMs p
    stampedAt := fun p => if s.releasedPorts p then some now else s.stampedAt p }

/-- Notifications are read. -/
def State.readNotifications (s : State) (now : UInt64) (n : Nat) : State :=
  { s with
    kernel := { s.kernel with queue := s.kernel.queue.drop n }
    handled := fun i => if i ∈ s.kernel.queue.take n then some now else s.handled i }

/-- The loss mark is read; with it, the closes that nothing will report are handled. -/
def State.readLoss (s : State) (now : UInt64) : State :=
  { s with
    kernel := { s.kernel with lost := false }
    handled := fun i =>
      if s.handled i = none ∧ i ∉ s.kernel.queue ∧ (s.kernel.sockets i).isClosed then some now
      else s.handled i }

/-- The ports of the first notifications. -/
def Kernel.ports (k : Kernel) (n : Nat) : List UInt16 :=
  (k.queue.take n).filterMap fun i => (k.sockets i).port

/-- The loop of `bpf2socks_udp_destroy_events_drain`. -/
def drainFrom (now : UInt64) : Nat → List UInt16 → Bool → Code (List UInt16 × Bool)
  | 0, ports, lost => pure (ports, lost)
  | rounds + 1, ports, lost => do
      match ← sys (.recv now) with
      | none =>
          Act.modify fun s => s.readLoss now
          drainFrom now rounds ports true
      | some n =>
          let s ← Act.get
          Act.modify fun s => s.readNotifications now n
          drainFrom now rounds (ports ++ s.kernel.ports n) lost

/-- `bpf2socks_udp_destroy_events_drain`. -/
def destroyEventsDrain (now : UInt64) : Code (List UInt16 × Bool) := do
  let rounds ← sys .rounds
  drainFrom now rounds [] false

/-- What `bpf2socks_udp_release_handle_events` does with what it drained, up to the release. -/
def State.noteDestroyed (s : State) (now : UInt64) (ports : List UInt16) (lost : Bool) : State :=
  let s := { s with releasedPorts := ports.foldl setPort s.releasedPorts }
  let s := if ports.length > 0 then s.stampDestroyedPorts now else s
  if lost then
    { s.flagAllLocalSessions with
      checkNewSessionsUntilMs := now + UInt64.ofNat recentMilliseconds }
  else s

/-- `bpf2socks_udp_release_handle_events`. -/
def releaseHandleEvents (now : UInt64) : Code Unit := do
  let (ports, lost) ← destroyEventsDrain now
  if ports.length = 0 ∧ lost = false then pure ()
  else
    Act.modify fun s => s.noteDestroyed now ports lost
    releaseFlaggedSessions now

/-- The epoll registration of the netlink socket. -/
def epollModify (input : Bool) : Code Bool := do
  let r : Bool ← sys (.watch input)
  if r then
    Act.modify fun s => { s with kernel := { s.kernel with watched := input } }
    pure true
  else pure false

/-- `bpf2socks_udp_release_arm`. -/
def releaseArm (now : UInt64) : Code Unit := do
  let _ ← epollModify true
  Act.modify fun s => { s with destroyEventsArmed := true }
  releaseHandleEvents now

/-- `bpf2socks_udp_release_disarm_if_idle`. -/
def releaseDisarmIfIdle : Code Unit := do
  let s ← Act.get
  if s.destroyEventsArmed = false ∨ s.localSessionCount > 0 then pure ()
  else
    let r ← epollModify false
    if r then Act.modify fun s => { s with destroyEventsArmed := false } else pure ()

/-- The port was destroyed recently, or notifications were lost. -/
def State.checksNew (s : State) (port : UInt16) (now : UInt64) : Bool :=
  let destroyed := s.portDestroyedMs port
  let recent := destroyed ≠ 0 ∧ (now.toUInt32 - destroyed).toNat < recentMilliseconds
  recent ∨ now < s.checkNewSessionsUntilMs

/-- `bpf2socks_udp_release_note_new_session`, for the session at the end of the list. -/
def State.noteNewSession (s : State) (now : UInt64) : State :=
  match s.sessions.getLast? with
  | none => s
  | some x =>
      if x.isLocal ∧ s.checksNew x.port now then
        { s.noteRetry (now + retryMilliseconds) with
          sessions := s.sessions.dropLast ++
            [{ x with releaseRetryMs := now + retryMilliseconds }] }
      else s

/-- The walk of `bpf2socks_udp_release_retry`, with the earliest of the later times, the ports to look
at, and whether there is one. -/
def retryFrom (now : UInt64) : List Session → UInt64 → (UInt16 → Bool) →
    List Session × UInt64 × (UInt16 → Bool) × Bool
  | [], due, ports => ([], due, ports, false)
  | x :: rest, due, ports =>
      if x.releaseRetryMs = 0 then
        let (rest, due, ports, flagged) := retryFrom now rest due ports
        (x :: rest, due, ports, flagged)
      else if now < x.releaseRetryMs then
        let (rest, due, ports, flagged) :=
          retryFrom now rest (deadlineNote due x.releaseRetryMs) ports
        (x :: rest, due, ports, flagged)
      else
        let (rest, due, ports, _) := retryFrom now rest due (setPort ports x.port)
        ({ x with releaseRetryMs := 0 } :: rest, due, ports, true)

/-- `bpf2socks_udp_release_retry`. -/
def releaseRetry (now : UInt64) : Code Unit := do
  let s ← Act.get
  if now = 0 ∨ now < s.releaseRetryDueMs then pure ()
  else
    let (sessions, due, ports, flagged) := retryFrom now s.sessions noDeadline s.releasedPorts
    Act.modify fun s =>
      { s with sessions := sessions, releaseRetryDueMs := due, releasedPorts := ports }
    if flagged then releaseFlaggedSessions now else pure ()

/-! ## New sessions -/

/-- The sessions that `alloc_session` evicts. -/
def State.evict (s : State) (victims : List Nat) : State := victims.foldl State.drop s

/-- A session comes to the end of the list. -/
def State.addSession (s : State) (addr : Sockaddr) : State :=
  { s with
    sessions := s.sessions ++ [⟨addr, 0, false⟩]
    localSessionCount :=
      if sockaddrIsLoopback addr then s.localSessionCount + 1 else s.localSessionCount }

/-- The end of `bpf2socks_udp_session_get`. -/
def registerSession (now : UInt64) : Code Unit := do
  let r : Bool ← sys .tries
  if r then Act.modify fun s => s.noteNewSession now
  else Act.modify fun s => s.drop (s.sessions.length - 1)

/-- The middle of `bpf2socks_udp_session_get`: the request is built and its socket opened. -/
def openSession (addr : Sockaddr) (now : UInt64) : Code Unit := do
  let r : Bool ← sys .tries
  if r then
    Act.modify fun s => s.addSession addr
    registerSession now
  else pure ()

/-- The same from `alloc_session` on. -/
def newSession (addr : Sockaddr) (client : Nat) : Code Unit := do
  match ← sys .room with
  | none => pure ()
  | some victims =>
      Act.modify fun s => s.evict victims
      let _ ← sys (.seen addr client)
      let s ← Act.get
      openSession addr s.kernel.clock

/-- "Catch up on closes queued while unwatched." -/
def armFor (addr : Sockaddr) : Code Unit := do
  let s ← Act.get
  if sockaddrIsLoopback addr ∧ s.destroyEventsArmed = false then
    let now ← nowMs
    releaseArm now
  else pure ()

/-- `bpf2socks_udp_session_get`, for a datagram of this client socket. -/
def sessionGet (addr : Sockaddr) (client : Nat) : Code Unit := do
  let s ← Act.get
  match s.sessions.findIdx? fun x => sameSockaddr x.clientAddr addr with
  | some i => Act.modify fun s => s.touch i
  | none =>
      armFor addr
      newSession addr client

/-- The event of the netlink socket. -/
def destroyEvent : Code Unit := do
  let now ← nowMs
  releaseHandleEvents now

/-- The retries of `udp_run_maintenance`. -/
def retryTurn : Code Unit := do
  let now ← nowMs
  releaseRetry now

/-! ## Runs -/

/-- What the kernel answers: the truth about ports and lost notifications; `epoll_ctl` and port
queries succeed. -/
def Truthful (k : Kernel) : (q : Call) → Result q → Prop
  | .portOpen port, r => ∃ b, r = some b ∧ (b = true ↔ k.Holds port)
  | .recv _, r => r = none → k.lost = true
  | .watch _, r => r = true
  | _, _ => True

/-- The datagram of a closed socket is read soon after that close was handled. -/
def Timely (s : State) (k : Kernel) : Call → Prop
  | .seen _ client => ∀ h, s.handled client = some h → k.clock.toNat < h.toNat + recentMilliseconds
  | _ => True

/-- The answers the environment may give. -/
structure admissible (s : State) (q : Call) (r : Answer q) : Prop where
  evolves : s.kernel.Evolves r.1
  truthful : Truthful r.1 q r.2
  timely : Timely s r.1 q

/-- A datagram with a loopback address is of a socket with its port. -/
def Kernel.Sent (k : Kernel) (client : Nat) (addr : Sockaddr) : Prop :=
  sockaddrIsLoopback addr = true → (k.sockets client).port = some (sockaddrPort addr)

/-- Sockets, clock and worker, in any order; `ok` are the answers of the environment. -/
inductive Step (ok : (s : State) → (q : Call) → Answer q → Prop) : State → State → Prop where
  | kernel {s : State} {k : Kernel} (h : s.kernel.Evolves k) : Step ok s { s with kernel := k }
  | drop {s : State} (i : Nat) : Step ok s (s.drop i)
  | deliver {s : State} (i : Nat) (draining : Bool) : Step ok s (s.deliver i draining)
  | read {s s' : State} {addr : Sockaddr} {client : Nat} (sent : s.kernel.Sent client addr)
      (h : Prog.Out ok (sessionGet addr client s) s' ()) : Step ok s s'
  | event {s s' : State} (h : Prog.Out ok (destroyEvent s) s' ()) : Step ok s s'
  | retry {s s' : State} (h : Prog.Out ok (retryTurn s) s' ()) : Step ok s s'
  | disarm {s s' : State} (h : Prog.Out ok (releaseDisarmIfIdle s) s' ()) : Step ok s s'

/-- The worker begins: it watches, has no session, and whatever closed before is forgotten. -/
structure Fresh (s : State) : Prop where
  sessions : s.sessions = []
  localSessionCount : s.localSessionCount = 0
  releasedPorts : s.releasedPorts = fun _ => false
  portDestroyedMs : s.portDestroyedMs = fun _ => 0
  checkNewSessionsUntilMs : s.checkNewSessionsUntilMs = 0
  releaseRetryDueMs : s.releaseRetryDueMs = noDeadline
  armed : s.destroyEventsArmed = true
  watched : s.kernel.watched = true
  sockets : ∀ i port, s.kernel.sockets i ≠ .closed port
  queue : s.kernel.queue = []
  clock : s.kernel.clock ≠ 0
  handled : ∀ i, s.handled i = none
  stampedAt : ∀ port, s.stampedAt port = none

inductive Reach (ok : (s : State) → (q : Call) → Answer q → Prop) : State → Prop where
  | initial {s : State} (h : Fresh s) : Reach ok s
  | step {s s' : State} (past : Reach ok s) (h : Step ok s s') : Reach ok s'

/-- **No close is missed**: a local session whose port no socket holds has an unread notification, or
a loss mark, on a watched socket, or a time at which it is looked at again. -/
def NoMissedClose (s : State) : Prop :=
  ∀ x ∈ s.sessions, x.isLocal = true → ¬ s.kernel.Holds x.port →
    (s.kernel.watched = true ∧ s.kernel.Told x.port) ∨
      (x.releaseRetryMs ≠ 0 ∧ s.releaseRetryDueMs ≤ x.releaseRetryMs)

end Bpf2Socks.Release

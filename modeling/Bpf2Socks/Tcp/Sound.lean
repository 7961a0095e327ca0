/-
# Bpf2Socks.Tcp.Sound — the invariant of a TCP worker.

A connection is either live or over.  While it is live it owns two sockets, and during the relay
two pipes; `Tidy` relates what went in at one socket to what came out at the other and to what is
in the pipe between them.  When it is over, `History` says how it may have ended.

`Others c` is the invariant less the part of connection `c`.  Code that works on `c` is checked
against it with `Others.congr`: such code only touches descriptors that belong to `c` or are not in
use, and those are not the descriptors of another connection.  A pipe changes between `c` and the
pool by `Others.exchange`; at every point it is named by the one whose it is.
-/
import Bpf2Socks.Tcp.Worker

namespace Bpf2Socks.Tcp

open Function (update)
open Lib (Prog Act)
open Udp (Bits)

variable {s s' : State} {c : Nat} {d : Side}

/-! ## What a connection carries -/

/-- The payload that came with the replies, for the pipe of each side. -/
def early (s : State) (c : Nat) : Side → List UInt8
  | .client => []
  | .upstream => (s.socks c .upstream).received.drop (s.conns c).responseExpected

/-- The bytes that entered the pipe of a side. -/
def inflow (s : State) (c : Nat) (d : Side) : List UInt8 :=
  if (s.conns c).stage = .relay then early s c d ++ (s.socks c d).taken else []

/-- The bytes that left it for the other socket. -/
def outflow (s : State) (c : Nat) (d : Side) : List UInt8 :=
  (s.socks c d.other).delivered.map Prod.snd

/-- A direction has its pipe, with this content. -/
structure Held (s : State) (c : Nat) (d : Side) (r w : Nat) (content : List (Nat × UInt8)) :
    Prop where
  readFd : ((s.conns c).pipe d).readFd = some r
  writeFd : ((s.conns c).pipe d).writeFd = some w
  read : s.fds r = some (.pipeRead (some (c, d)) content)
  write : s.fds w = some (.pipeWrite r)
  queued : content.length = ((s.conns c).pipe d).queued
  tags : ∀ x ∈ content, x.1 = c
  flow : inflow s c d = outflow s c d ++ content.map Prod.snd

/-- A direction has no pipe, before the relay or after it. -/
structure Unheld (s : State) (c : Nat) (d : Side) : Prop where
  readFd : ((s.conns c).pipe d).readFd = none
  writeFd : ((s.conns c).pipe d).writeFd = none
  queued : ((s.conns c).pipe d).queued = 0
  flow : outflow s c d <+: inflow s c d

/-- Who holds the pipe at a read end. -/
def holderOf : Option Desc → Option (Nat × Side)
  | some (.pipeRead holder _) => holder
  | _ => none

/-- Whose pipe a descriptor is an end of: a direction's, or nobody's.  `none` is no pipe. -/
def pipeOf (fds : Nat → Option Desc) (fd : Nat) : Option (Option (Nat × Side)) :=
  match fds fd with
  | some (.pipeRead holder _) => some holder
  | some (.pipeWrite r) => some (holderOf (fds r))
  | _ => none

/-- What holds of a connection at every point of its life. -/
structure Tidy (s : State) (c : Nat) : Prop where
  sockets : ∀ {d fd}, (s.conns c).fd d = some fd → s.fds fd = some (.socket c d)
  opened : ∀ d, (s.socks c d).isOpen = ((s.conns c).fd d).isSome
  pipes : ∀ d, Unheld s c d ∨ ∃ r w content, Held s c d r w content
  /-- An end of its pipes is in its record. -/
  named : ∀ {d fd}, pipeOf s.fds fd = some (some (c, d)) →
    ((s.conns c).pipe d).readFd = some fd ∨ ((s.conns c).pipe d).writeFd = some fd
  tags : ∀ d, ∀ x ∈ (s.socks c d).delivered, x.1 = c
  shut : ∀ d, (s.socks c d.other).shut = true →
    (s.socks c d).eof = true ∧ outflow s c d = inflow s c d
  before : (s.conns c).stage ≠ .relay → ∀ d, (s.socks c d).taken = [] ∧
    (s.socks c d).delivered = [] ∧ (s.socks c d).shut = false
  replies : (s.conns c).stage = .relay →
    checkReplies (s.socks c .upstream).received = .complete (s.conns c).responseExpected
  room : s.marks c .repliesFull = false

/-- Both directions are over: an end of file was read from each socket, all that was read from it
was written to the other, and it was shut down. -/
def Complete (s : State) (c : Nat) : Prop :=
  ∀ d, (s.socks c d).eof = true ∧ outflow s c d = inflow s c d ∧ (s.socks c d).shut = true

/-- An end that the code does not announce to the client with a reset although it should. -/
def Slipped (s : State) (c : Nat) : Prop :=
  s.marks c .noMemory = true ∨ s.marks c .unregistered = true ∨ s.marks c .spare = true

/-- How a connection may have ended. -/
structure History (s : State) (c : Nat) : Prop where
  failed : ∀ d, (s.socks c d).failed = true → (s.socks c d.other).linger = true
  relayed : (s.conns c).stage = .relay → s.marks c .idle = true ∨ s.marks c .stopped = true ∨
    (∃ d, (s.socks c d).linger = true) ∨ Complete s c
  refused : c < s.accepted → (s.conns c).stage ≠ .relay → s.marks c .hungUp = false →
    s.marks c .stopped = false → ((s.socks c .client).linger = true ↔ ¬Slipped s c)

/-- A connection that is over, or was never made. -/
structure Over (s : State) (c : Nat) : Prop where
  fd : ∀ d, (s.conns c).fd d = none
  connection : ∀ d, ((s.conns c).ref d).connection = false
  unlinked : (s.conns c).closing = true ∨ (s.conns c).activeLinked = false
  history : History s c

/-- Nothing says yet how the connection will end. -/
structure Unmarked (s : State) (c : Nat) : Prop where
  linger : ∀ d, (s.socks c d).linger = false
  hungUp : s.marks c .hungUp = false
  slipped : ¬Slipped s c
  idle : s.marks c .idle = false
  stopped : s.marks c .stopped = false

/-- The kernel holds the interest that a ref remembers. -/
def Registered (s : State) (c : Nat) (d : Side) (fd : Nat) : Prop :=
  s.interest fd = if ((s.conns c).ref d).events = Bits.none then none
    else some (.conn c d, ((s.conns c).ref d).events)

/-- A connection that can still be closed. -/
structure Standing (s : State) (c : Nat) : Prop where
  fd : ∀ d, ∃ fd, (s.conns c).fd d = some fd ∧ Registered s c d fd
  closing : (s.conns c).closing = false
  connection : ∀ d, ((s.conns c).ref d).connection = true

/-- The pipe of a side during the relay, and what its flags stand for. -/
structure Flags (s : State) (c : Nat) (d : Side) : Prop where
  held : ∃ r w content, Held s c d r w content
  eof : ((s.conns c).pipe d).inputEof = true → (s.socks c d).eof = true
  shut : ((s.conns c).pipe d).outputShutdown = (s.socks c d.other).shut
  last : ((s.conns c).pipe d).outputShutdown = true → ((s.conns c).pipe d).inputEof = true
  paused : ((s.conns c).pipe d).inputPaused = true → 0 < ((s.conns c).pipe d).queued

/-- A direction whose last splice found the pipe full is paused, or nothing was there to count. -/
def StuckOk (s : State) (c : Nat) (d : Side) : Prop :=
  s.marks c (.stuck d) = true →
    ((s.conns c).pipe d).inputPaused = true ∨ s.marks c (.finOnly d) = true

/-- A pipe that the worker waits for: there is input to come, or room for its output. -/
def SplicePipe.Awaited (p : SplicePipe) : Prop := p.wantsInput = true ∨ 0 < p.queued

/-- Where a live connection stands with its pipes. -/
structure Phase (s : State) (c : Nat) : Prop where
  pipe : (s.conns c).stage ≠ .relay → ∀ d, (s.conns c).pipe d = initSplicePipe
  unread : (s.conns c).stage = .connecting ∨ (s.conns c).stage = .requestWrite →
    (s.socks c .upstream).received = []
  response : (s.conns c).stage = .replyRead →
    (s.conns c).response = (s.socks c .upstream).received ∧
      checkReplies (s.conns c).response = .incomplete
  unstuck : (s.conns c).stage ≠ .relay → ∀ d, s.marks c (.stuck d) = false
  flags : (s.conns c).stage = .relay → ∀ d, Flags s c d
  stuck : (s.conns c).stage = .relay → ∀ d, StuckOk s c d
  awaits : (s.conns c).stage = .relay → ∃ d, ((s.conns c).pipe d).Awaited

/-- No socket of the connection failed. -/
def Clean (s : State) (c : Nat) : Prop := ∀ d, (s.socks c d).failed = false

/-- The refs remember the interest that the pipes call for, unless the kernel refused a change. -/
def Settled (s : State) (c : Nat) : Prop :=
  s.marks c .unchanged = true ∨ ∀ d, ((s.conns c).ref d).events = sideEvents (s.conns c) d

/-- A live connection between two events. -/
structure Live (s : State) (c : Nat) : Prop where
  standing : Standing s c
  unmarked : Unmarked s c
  phase : Phase s c
  clean : Clean s c
  settled : Settled s c

/-- A connection between two events. -/
structure Good (s : State) (c : Nat) : Prop where
  tidy : Tidy s c
  state : Live s c ∨ Over s c

/-! ## The pool -/

/-- The pairs of the pool are empty pipes, each of them there once. -/
structure PoolOk (s : State) : Prop where
  cap : s.pool.length ≤ tcpPipePoolCap
  nodup : (s.pool.map PoolPair.readFd).Nodup
  empty : ∀ p ∈ s.pool, s.fds p.readFd = some (.pipeRead none []) ∧
    s.fds p.writeFd = some (.pipeWrite p.readFd)

/-- The descriptors that belong to no connection: the pool, the listeners and the spare one.  Only
open descriptors are registered. -/
structure House (s : State) : Prop where
  pool : PoolOk s
  /-- A pipe of nobody is in the pool. -/
  pooled : ∀ {fd}, pipeOf s.fds fd = some none → ∃ p ∈ s.pool, fd = p.readFd ∨ fd = p.writeFd
  listener4 : s.fds s.cfg.listener4 = some .listener
  listener6 : ∀ {fd}, s.cfg.listener6 = some fd → s.fds fd = some .listener
  spare : ∀ {fd}, s.spareFd = some fd → s.fds fd = some .spare
  quiet : ∀ {fd}, s.fds fd = none → s.interest fd = none

/-- A client that was not accepted yet. -/
structure Unborn (s : State) (n : Nat) : Prop where
  conn : s.conns n = Conn.zero
  socks : ∀ d, s.socks n d = Sock.zero
  marks : ∀ m, s.marks n m = false

/-- The invariant less the part of one connection. -/
structure Others (c : Nat) (s : State) : Prop where
  born : c < s.accepted
  house : House s
  good : ∀ {c'}, c' ≠ c → Good s c'
  unborn : ∀ {n}, s.accepted ≤ n → Unborn s n
  closed : ∀ {c'}, c' ∈ s.closed → c' < s.accepted ∧ (c' ≠ c → Over s c')

/-- The invariant. -/
structure Sound (s : State) : Prop where
  house : House s
  good : ∀ c, Good s c
  unborn : ∀ {n}, s.accepted ≤ n → Unborn s n
  closed : ∀ {c}, c ∈ s.closed → c < s.accepted ∧ Over s c

theorem Sound.others (h : Sound s) (hc : c < s.accepted) : Others c s :=
  ⟨hc, h.house, fun _ => h.good _, h.unborn, fun hc => ⟨(h.closed hc).1, fun _ => (h.closed hc).2⟩⟩

/-! ## Whose descriptor it is -/

/-- The connection a descriptor belongs to. -/
def State.owner (s : State) (fd : Nat) : Option Nat :=
  match s.fds fd with
  | some (.socket n _) => some n
  | some (.pipeRead (some (c, _)) _) => some c
  | some (.pipeWrite r) =>
      match s.fds r with
      | some (.pipeRead (some (c, _)) _) => some c
      | _ => none
  | _ => none

/-- A descriptor of a connection. -/
inductive Names (s : State) (c fd : Nat) : Prop where
  | socket (d : Side) (h : (s.conns c).fd d = some fd)
  | read (d : Side) (h : ((s.conns c).pipe d).readFd = some fd)
  | write (d : Side) (h : ((s.conns c).pipe d).writeFd = some fd)

theorem Tidy.owner (h : Tidy s c) {fd : Nat} (hn : Names s c fd) : s.owner fd = some c := by
  cases hn with
  | socket d hfd => simp [State.owner, h.sockets hfd]
  | read d hfd =>
      rcases h.pipes d with hu | ⟨r, w, content, hh⟩
      · simp [hu.readFd] at hfd
      · obtain rfl : r = fd := by simpa [hh.readFd] using hfd
        simp [State.owner, hh.read]
  | write d hfd =>
      rcases h.pipes d with hu | ⟨r, w, content, hh⟩
      · simp [hu.writeFd] at hfd
      · obtain rfl : w = fd := by simpa [hh.writeFd] using hfd
        simp [State.owner, hh.write, hh.read]

/-- A descriptor that code that works on `c` may touch: one that is not in use, or one of `c`. -/
inductive Mine (s : State) (c fd : Nat) : Prop where
  | unused (h : s.fds fd = none)
  | own (h : s.owner fd = some c)

theorem Tidy.not_mine (h : Tidy s c) {c' fd : Nat} (hne : c ≠ c') (hn : Names s c fd) :
    ¬Mine s c' fd := by
  have ho := h.owner hn
  rintro (hnone | hown)
  · simp [State.owner, hnone] at ho
  · rw [hown] at ho
    exact hne (Option.some.inj ho).symm

/-! ## Code that works on one connection

`Local c s s'` says that `s'` differs from `s` in the part of `c` only. -/

/-- Nothing but connection `c` and its descriptors changed. -/
structure Local (c : Nat) (s s' : State) : Prop where
  cfg : s'.cfg = s.cfg
  conns : ∀ {c'}, c' ≠ c → s'.conns c' = s.conns c'
  socks : ∀ {c'}, c' ≠ c → s'.socks c' = s.socks c'
  marks : ∀ {c'}, c' ≠ c → s'.marks c' = s.marks c'
  fds : ∀ fd, s'.fds fd = s.fds fd ∨ Mine s c fd
  interest : ∀ fd, s'.interest fd = s.interest fd ∨ Mine s c fd
  /-- A pipe is whose it was, is closed, or is one of `c` now. -/
  pipes : ∀ fd, pipeOf s'.fds fd = pipeOf s.fds fd ∨ pipeOf s'.fds fd = none ∨
    ∃ d, pipeOf s'.fds fd = some (some (c, d))
  quiet : ∀ {fd}, s'.fds fd = none → s'.interest fd = none ∨
    (s.fds fd = none ∧ s'.interest fd = s.interest fd)
  pool : s'.pool = s.pool
  accepted : s'.accepted = s.accepted
  closed : ∀ {c'}, c' ∈ s'.closed → c' ∈ s.closed ∨ c' = c
  spareFd : s'.spareFd = s.spareFd

/-- Two records of a connection that agree in what the invariant looks at. -/
structure Alike (k k' : Conn) : Prop where
  fd : k.fd = k'.fd
  stage : k.stage = k'.stage
  closing : k.closing = k'.closing
  ref : k.ref = k'.ref
  pipe : k.pipe = k'.pipe
  response : k.response = k'.response
  responseExpected : k.responseExpected = k'.responseExpected

theorem Alike.of_eq {k k' : Conn} (h : k = k') : Alike k k' := by
  subst h
  exact ⟨rfl, rfl, rfl, rfl, rfl, rfl, rfl⟩

theorem Alike.sideEvents {k k' : Conn} (h : Alike k k') : sideEvents k = sideEvents k' := by
  funext d
  cases d <;> simp only [Tcp.sideEvents, clientEvents, upstreamEvents, h.stage, h.pipe]

/-- Two lives of a socket that agree in what was moved through it. -/
structure SockAlike (k k' : Sock) : Prop where
  received : k.received = k'.received
  taken : k.taken = k'.taken
  delivered : k.delivered = k'.delivered
  eof : k.eof = k'.eof
  shut : k.shut = k'.shut

/-- Two states that agree in what a connection carries. -/
structure Kin (c : Nat) (s s' : State) : Prop where
  stage : (s'.conns c).stage = (s.conns c).stage
  pipe : (s'.conns c).pipe = (s.conns c).pipe
  responseExpected : (s'.conns c).responseExpected = (s.conns c).responseExpected
  sock : ∀ d, SockAlike (s'.socks c d) (s.socks c d)

theorem Kin.of_alike (hk : Alike (s'.conns c) (s.conns c)) (hs : s'.socks c = s.socks c) :
    Kin c s s' :=
  ⟨hk.stage, hk.pipe, hk.responseExpected, fun d => by rw [hs]; exact ⟨rfl, rfl, rfl, rfl, rfl⟩⟩

namespace Kin

theorem inflow (h : Kin c s s') : inflow s' c = inflow s c := by
  funext d
  cases d <;> simp only [Tcp.inflow, early, h.stage, h.responseExpected, (h.sock _).received,
    (h.sock _).taken]

theorem outflow (h : Kin c s s') : outflow s' c = outflow s c := by
  funext d
  simp only [Tcp.outflow, (h.sock _).delivered]

theorem unheld (h : Kin c s s') (hu : Unheld s c d) : Unheld s' c d := by
  refine ⟨by rw [h.pipe]; exact hu.readFd, by rw [h.pipe]; exact hu.writeFd,
    by rw [h.pipe]; exact hu.queued, ?_⟩
  rw [h.inflow, h.outflow]
  exact hu.flow

theorem held (h : Kin c s s') {r w : Nat} {content : List (Nat × UInt8)}
    (hh : Held s c d r w content) (hr : s'.fds r = s.fds r) (hw : s'.fds w = s.fds w) :
    Held s' c d r w content := by
  refine ⟨by rw [h.pipe]; exact hh.readFd, by rw [h.pipe]; exact hh.writeFd,
    by rw [hr]; exact hh.read, by rw [hw]; exact hh.write, by rw [h.pipe]; exact hh.queued,
    hh.tags, ?_⟩
  rw [h.inflow, h.outflow]
  exact hh.flow

theorem complete (h : Kin c s s') (hc : Complete s c) : Complete s' c := fun d => by
  rw [h.inflow, h.outflow, (h.sock d).eof, (h.sock d).shut]
  exact hc d

/-- A change that closes a socket, or sets an option of it, keeps a connection tidy. -/
theorem tidy (h : Kin c s s') (ht : Tidy s c)
    (hm : s'.marks c .repliesFull = s.marks c .repliesFull)
    (hsockets : ∀ {d fd}, (s'.conns c).fd d = some fd → s'.fds fd = some (.socket c d))
    (hopened : ∀ d, (s'.socks c d).isOpen = ((s'.conns c).fd d).isSome)
    (hread : ∀ {d fd}, ((s.conns c).pipe d).readFd = some fd → s'.fds fd = s.fds fd)
    (hwrite : ∀ {d fd}, ((s.conns c).pipe d).writeFd = some fd → s'.fds fd = s.fds fd)
    (hnamed : ∀ {d fd}, pipeOf s'.fds fd = some (some (c, d)) →
      pipeOf s.fds fd = some (some (c, d))) :
    Tidy s' c where
  sockets := hsockets
  opened := hopened
  pipes := fun d => by
    rcases ht.pipes d with hu | ⟨r, w, content, hh⟩
    · exact Or.inl (h.unheld hu)
    · exact Or.inr ⟨r, w, content, h.held hh (hread hh.readFd) (hwrite hh.writeFd)⟩
  named := fun hp => by rw [h.pipe]; exact ht.named (hnamed hp)
  tags := fun d => by rw [(h.sock d).delivered]; exact ht.tags d
  shut := fun d => by
    rw [(h.sock d.other).shut, (h.sock d).eof, h.inflow, h.outflow]
    exact ht.shut d
  before := fun hst d => by
    rw [h.stage] at hst
    rw [(h.sock d).taken, (h.sock d).delivered, (h.sock d).shut]
    exact ht.before hst d
  replies := fun hst => by
    rw [h.stage] at hst
    rw [(h.sock _).received, h.responseExpected]
    exact ht.replies hst
  room := by rw [hm]; exact ht.room

/-- How a connection ended is a matter of what it carried, of errors and of options. -/
theorem history (h : Kin c s s') (hh : History s c) (hm : s'.marks c = s.marks c)
    (hf : ∀ d, (s'.socks c d).failed = (s.socks c d).failed)
    (hl : ∀ d, (s'.socks c d).linger = (s.socks c d).linger)
    (ha : c < s'.accepted → c < s.accepted) : History s' c where
  failed := fun d => by rw [hf, hl]; exact hh.failed d
  relayed := fun hst => by
    rw [h.stage] at hst
    simp only [hm, hl]
    exact (hh.relayed hst).imp_right <| Or.imp_right <| Or.imp_right h.complete
  refused := fun hc => by
    unfold Slipped
    rw [h.stage, hl, hm]
    exact hh.refused (ha hc)

end Kin

section congr

variable (hk : Alike (s'.conns c) (s.conns c)) (hs : s'.socks c = s.socks c)
  (hm : s'.marks c = s.marks c)
include hk hs

omit hs in
theorem Standing.congr (h : Standing s c)
    (hi : ∀ {fd}, Names s c fd → s'.interest fd = s.interest fd) : Standing s' c where
  fd := fun d => by
    obtain ⟨fd, hfd, hreg⟩ := h.fd d
    refine ⟨fd, by rw [hk.fd]; exact hfd, ?_⟩
    unfold Registered
    rw [hk.ref, hi (.socket d hfd)]
    exact hreg
  closing := by rw [hk.closing]; exact h.closing
  connection := by rw [hk.ref]; exact h.connection

omit hk in
theorem Clean.congr (h : Clean s c) : Clean s' c := by
  unfold Clean
  rw [hs]
  exact h

include hm

theorem Tidy.congr (h : Tidy s c) (hfds : ∀ {fd}, Names s c fd → s'.fds fd = s.fds fd)
    (hnamed : ∀ {d fd}, pipeOf s'.fds fd = some (some (c, d)) →
      pipeOf s.fds fd = some (some (c, d))) : Tidy s' c :=
  (Kin.of_alike hk hs).tidy h (by rw [hm])
    (fun {d fd} hfd => by
      rw [hk.fd] at hfd
      rw [hfds (.socket d hfd)]
      exact h.sockets hfd)
    (by rw [hk.fd, hs]; exact h.opened) (fun hfd => hfds (.read _ hfd))
    (fun hfd => hfds (.write _ hfd)) hnamed

theorem History.congr (h : History s c) (ha : c < s'.accepted → c < s.accepted) :
    History s' c :=
  (Kin.of_alike hk hs).history h hm (fun _ => by rw [hs]) (fun _ => by rw [hs]) ha

theorem Over.congr (h : Over s c) (hlinked : (s'.conns c).activeLinked = (s.conns c).activeLinked)
    (ha : c < s'.accepted → c < s.accepted) : Over s' c :=
  ⟨by rw [hk.fd]; exact h.fd, by rw [hk.ref]; exact h.connection,
    by rw [hk.closing, hlinked]; exact h.unlinked, h.history.congr hk hs hm ha⟩

omit hm in
theorem Flags.congr (h : Flags s c d) (hfds : ∀ {fd}, Names s c fd → s'.fds fd = s.fds fd) :
    Flags s' c d where
  held := by
    obtain ⟨r, w, content, hh⟩ := h.held
    exact ⟨r, w, content, (Kin.of_alike hk hs).held hh (hfds (.read d hh.readFd))
      (hfds (.write d hh.writeFd))⟩
  eof := by rw [hk.pipe, hs]; exact h.eof
  shut := by rw [hk.pipe, hs]; exact h.shut
  last := by rw [hk.pipe]; exact h.last
  paused := by rw [hk.pipe]; exact h.paused

theorem Phase.congr (h : Phase s c) (hfds : ∀ {fd}, Names s c fd → s'.fds fd = s.fds fd) :
    Phase s' c where
  pipe := by rw [hk.stage, hk.pipe]; exact h.pipe
  unread := by rw [hk.stage, hs]; exact h.unread
  response := by rw [hk.stage, hk.response, hs]; exact h.response
  unstuck := by rw [hk.stage, hm]; exact h.unstuck
  flags := fun hstage d => (h.flags (by rw [← hk.stage]; exact hstage) d).congr hk hs hfds
  stuck := by unfold StuckOk; rw [hk.stage, hk.pipe, hm]; exact h.stuck
  awaits := by rw [hk.stage, hk.pipe]; exact h.awaits

omit hk in
theorem Unmarked.congr (h : Unmarked s c) : Unmarked s' c where
  linger := by rw [hs]; exact h.linger
  hungUp := by rw [hm]; exact h.hungUp
  slipped := by unfold Slipped; rw [hm]; exact h.slipped
  idle := by rw [hm]; exact h.idle
  stopped := by rw [hm]; exact h.stopped

omit hs in
theorem Settled.congr (h : Settled s c) : Settled s' c := by
  unfold Settled
  rw [hk.ref, hk.sideEvents, hm]
  exact h

theorem Live.congr (h : Live s c) (hfds : ∀ {fd}, Names s c fd → s'.fds fd = s.fds fd)
    (hi : ∀ {fd}, Names s c fd → s'.interest fd = s.interest fd) : Live s' c :=
  ⟨h.standing.congr hk hi, h.unmarked.congr hs hm, h.phase.congr hk hs hm hfds, h.clean.congr hs,
    h.settled.congr hk hm⟩

theorem Good.congr (h : Good s c) (hlinked : (s'.conns c).activeLinked = (s.conns c).activeLinked)
    (ha : c < s'.accepted → c < s.accepted)
    (hfds : ∀ {fd}, Names s c fd → s'.fds fd = s.fds fd)
    (hi : ∀ {fd}, Names s c fd → s'.interest fd = s.interest fd)
    (hnamed : ∀ {d fd}, pipeOf s'.fds fd = some (some (c, d)) →
      pipeOf s.fds fd = some (some (c, d))) : Good s' c :=
  ⟨h.tidy.congr hk hs hm hfds hnamed,
    h.state.imp (·.congr hk hs hm hfds hi) (·.congr hk hs hm hlinked ha)⟩

end congr

theorem not_mine_of_unowned {fd : Nat} (hsome : s.fds fd ≠ none) (hown : s.owner fd = none) :
    ¬Mine s c fd := by
  rintro (h | h)
  · exact hsome h
  · rw [hown] at h
    simp at h

theorem House.congr (h : House s) (l : Local c s s') : House s' := by
  -- what is nobody's stays as it is
  have hkeep : ∀ {fd}, s.fds fd ≠ none → s.owner fd = none → s'.fds fd = s.fds fd :=
    fun hsome hown => (l.fds _).resolve_right (not_mine_of_unowned hsome hown)
  refine ⟨⟨by rw [l.pool]; exact h.pool.cap, by rw [l.pool]; exact h.pool.nodup, fun p hp => ?_⟩,
    fun {fd} hp => ?_, ?_, fun {fd} hfd => ?_, fun {fd} hfd => ?_, fun {fd} hnone => ?_⟩
  · rw [l.pool] at hp
    obtain ⟨hr, hw⟩ := h.pool.empty p hp
    rw [hkeep (by simp [hr]) (by simp [State.owner, hr]),
      hkeep (by simp [hw]) (by simp [State.owner, hw, hr])]
    exact ⟨hr, hw⟩
  · rw [l.pool]
    rcases l.pipes fd with heq | hnone | ⟨d, hmine⟩
    · exact h.pooled (heq ▸ hp)
    · simp [hnone] at hp
    · simp [hmine] at hp
  · rw [l.cfg, hkeep (by simp [h.listener4]) (by simp [State.owner, h.listener4])]
    exact h.listener4
  · rw [l.cfg] at hfd
    have hl := h.listener6 hfd
    rw [hkeep (by simp [hl]) (by simp [State.owner, hl])]
    exact hl
  · rw [l.spareFd] at hfd
    have hl := h.spare hfd
    rw [hkeep (by simp [hl]) (by simp [State.owner, hl])]
    exact hl
  · rcases l.quiet hnone with hq | ⟨hold, hq⟩
    · exact hq
    · rw [hq]
      exact h.quiet hold

/-- Code that works on one connection keeps the rest of the invariant. -/
theorem Others.congr (h : Others c s) (l : Local c s s') : Others c s' where
  born := by rw [l.accepted]; exact h.born
  house := h.house.congr l
  good := fun {c'} hne => by
    have hg := h.good hne
    have hfd : ∀ {fd}, Names s c' fd → ¬Mine s c fd := fun hn => hg.tidy.not_mine hne hn
    exact hg.congr (.of_eq (l.conns hne)) (l.socks hne) (l.marks hne) (by rw [l.conns hne])
      (by rw [l.accepted]; exact id)
      (fun hn => (l.fds _).resolve_right (hfd hn)) (fun hn => (l.interest _).resolve_right (hfd hn))
      fun {d fd} hp => by
        rcases l.pipes fd with heq | hnone | ⟨e, hmine⟩
        · exact heq ▸ hp
        · simp [hnone] at hp
        · rw [hmine, Option.some.injEq, Option.some.injEq, Prod.mk.injEq] at hp
          exact absurd hp.1.symm hne
  unborn := fun {n} hn => by
    rw [l.accepted] at hn
    have hne : n ≠ c := by
      rintro rfl
      exact absurd h.born (by omega)
    have hu := h.unborn hn
    exact ⟨by rw [l.conns hne]; exact hu.conn, by rw [l.socks hne]; exact hu.socks,
      by rw [l.marks hne]; exact hu.marks⟩
  closed := fun hc => by
    rw [l.accepted]
    rcases l.closed hc with hmem | rfl
    · exact ⟨(h.closed hmem).1, fun hne => ((h.closed hmem).2 hne).congr (.of_eq (l.conns hne))
        (l.socks hne) (l.marks hne) (by rw [l.conns hne]) (by rw [l.accepted]; exact id)⟩
    · exact ⟨h.born, fun hne => absurd rfl hne⟩

/-- The invariant is that of the others and that of `c`. -/
theorem Others.sound (h : Others c s) (hg : Good s c) (hclosed : c ∈ s.closed → Over s c) :
    Sound s where
  house := h.house
  good := fun c' => by
    by_cases hne : c' = c
    · rw [hne]
      exact hg
    · exact h.good hne
  unborn := h.unborn
  closed := fun {c'} hmem => by
    refine ⟨(h.closed hmem).1, ?_⟩
    by_cases hne : c' = c
    · subst hne
      exact hclosed hmem
    · exact (h.closed hmem).2 hne

/-- Two states that agree in what the invariant looks at. -/
structure Rest (s s' : State) : Prop where
  cfg : s'.cfg = s.cfg
  conns : s'.conns = s.conns
  socks : s'.socks = s.socks
  marks : s'.marks = s.marks
  fds : s'.fds = s.fds
  interest : s'.interest = s.interest
  pool : s'.pool = s.pool
  accepted : s'.accepted = s.accepted
  closed : ∀ {c}, c ∈ s'.closed → c ∈ s.closed
  spareFd : s'.spareFd = s.spareFd

theorem Rest.local (r : Rest s s') (c : Nat) : Local c s s' where
  cfg := r.cfg
  conns := fun _ => by rw [r.conns]
  socks := fun _ => by rw [r.socks]
  marks := fun _ => by rw [r.marks]
  fds := fun _ => Or.inl (by rw [r.fds])
  interest := fun _ => Or.inl (by rw [r.interest])
  pipes := fun _ => Or.inl (by rw [r.fds])
  quiet := fun h => Or.inr ⟨by rw [← r.fds]; exact h, by rw [r.interest]⟩
  pool := r.pool
  accepted := r.accepted
  closed := fun h => Or.inl (r.closed h)
  spareFd := r.spareFd

theorem Sound.rest (h : Sound s) (r : Rest s s') : Sound s' where
  house := h.house.congr (r.local 0)
  good := fun c => (h.good c).congr (.of_eq (by rw [r.conns])) (by rw [r.socks]) (by rw [r.marks])
    (by rw [r.conns]) (by rw [r.accepted]; exact id) (fun _ => by rw [r.fds])
    (fun _ => by rw [r.interest]) (by rw [r.fds]; exact id)
  unborn := fun {n} hn => by
    rw [r.accepted] at hn
    have hu := h.unborn hn
    exact ⟨by rw [r.conns]; exact hu.conn, by rw [r.socks]; exact hu.socks,
      by rw [r.marks]; exact hu.marks⟩
  closed := fun hc => by
    have ho := h.closed (r.closed hc)
    rw [r.accepted]
    exact ⟨ho.1, ho.2.congr (.of_eq (by rw [r.conns])) (by rw [r.socks]) (by rw [r.marks])
      (by rw [r.conns]) (by rw [r.accepted]; exact id)⟩

end Bpf2Socks.Tcp

/-
# Bpf2Socks.Token.Machine — the token map, its publishers and the bridge.

The token map is shared.  The cgroup programs publish client-less entries for local sockets, the TC
programs entries with the client's address for hotspot flows, and the LRU drops entries as it needs
room.  Every bridge worker reads the map for each datagram, through a short-lived cache, and
remembers in the bindings of its sessions which token stood for which destination.  Two functions of
the bridge change the map for UDP: `bpf2socks_udp_token_recover_connected` writes an entry again, and
`bpf2socks_udp_token_delete_closed_client` deletes those of a closed socket.

A step is one access to the map, by anybody, together with the computation of the worker that
follows up to its next access.  `lastHeld` is ghost: what the map held for a client's token the last
time that client used it.

Token addresses are the sixteen bytes of the C arrays, of which IPv4 uses four and leaves the others
zero, and a datagram's token has the family of its client.
-/
import Bpf2Socks.Tc.State
import Bpf2Socks.Udp.State

namespace Bpf2Socks.Token

open Function (update)
open Tc (TokenKey OriginalDst)
open Udp (DstAddr Family LookupMode Sockaddr sameSockaddr sockaddrIsLoopback)

/-! ## Keys and values -/

/-- An address padded with zeros to sixteen bytes. -/
def pad16 (bytes : List UInt8) : List UInt8 := (bytes ++ List.replicate 16 0).take 16

/-- The client part of a key: port and address. -/
def clientOf (a : Sockaddr) : UInt16 × List UInt8 :=
  match a.family with
  | .inet => (Udp.sockaddrPort a, pad16 ((a.data.drop 2).take 4))
  | .inet6 => (Udp.sockaddrPort a, pad16 ((a.data.drop 6).take 16))
  | _ => (0, pad16 [])

/-- The key `bpf2socks_udp_token_lookup_original` builds for a client and a token. -/
def fullKey (listenPort : UInt16) (client : Sockaddr) (token : List UInt8) : TokenKey where
  family := client.family.code.toUInt8
  protocol := 17
  tokenPort := listenPort
  tokenAddr := token
  clientPort := (clientOf client).1
  clientAddr := (clientOf client).2

/-- The key without its client: `zero_key`, and what `fill_client_less_udp_token_key` builds. -/
def zeroKey (k : TokenKey) : TokenKey := { k with clientPort := 0, clientAddr := pad16 [] }

/-- `bpf2socks_token_key_is_loopback`. -/
def keyIsLoopback (k : TokenKey) : Bool :=
  if k.family = 2 then k.clientAddr.take 1 == [127]
  else k.family = 10 && k.clientAddr == List.replicate 15 0 ++ [1]

/-- `BPF2SOCKS_ORIGINAL_DST_FLAG_CONNECTED_UDP`. -/
def isConnected (v : OriginalDst) : Bool := v.flags &&& 1 ≠ 0

/-- `bpf2socks_original_dst_to_sockaddr`. -/
def dstOf (v : OriginalDst) : Option DstAddr :=
  if v.family = 2 then some ⟨.inet, v.port, pad16 (v.addr.take 4)⟩
  else if v.family = 10 then some ⟨.inet6, v.port, pad16 (v.addr.take 16)⟩
  else none

/-! ## The bridge -/

/-- What a reply binding knows of its token. -/
structure Binding where
  originalDst : DstAddr
  tokenAddr : List UInt8
  connectedUdpToken : Bool
  deriving DecidableEq

/-- `bpf2socks_udp_binding_has_token`. -/
def Binding.hasToken (b : Binding) : Bool := b.tokenAddr ≠ List.replicate 16 0

/-- A session, with its bindings as the list links them. -/
structure Session where
  client : Sockaddr
  tokenLookupMode : LookupMode
  bindings : List Binding
  deriving DecidableEq

/-- `struct bpf2socks_udp_token_cache_entry`. -/
structure CacheEntry where
  key : TokenKey
  original : OriginalDst
  expiresMs : Nat
  mode : LookupMode
  deriving DecidableEq

/-- `BPF2SOCKS_UDP_TOKEN_CACHE_TTL_MILLISECONDS`. -/
def cacheTtl : Nat := 1000

/-- A datagram, and the destination its control message gives when that is no token. -/
structure Packet where
  client : Sockaddr
  tokenAddr : List UInt8
  socketOriginal : Option DstAddr
  deriving DecidableEq

/-- What became known of a datagram: `original_dst`, `connected_udp_token` and
`token_lookup_mode`. -/
structure Resolved where
  originalDst : DstAddr
  connectedUdpToken : Bool
  mode : LookupMode
  deriving DecidableEq

/-- `needs_original_reply_socket`: destinations are IPv4 or IPv6, and one that came with the datagram
leaves the mode unknown. -/
def Resolved.needsOriginalReplySocket (r : Resolved) : Bool :=
  !r.connectedUdpToken && r.mode ≠ .zeroClient

/-- What becomes of a datagram whose destination is known. -/
inductive Outcome where
  /-- It comes to a binding. -/
  | bound
  /-- It comes to a binding that was there, and the reply socket that one lacks cannot be made. -/
  | unanswered
  /-- There is a session, and no binding can be had. -/
  | unbound
  /-- DNS takes it, or no session can be had. -/
  | dropped
  deriving DecidableEq

/-- What a worker is in the middle of. -/
inductive Job where
  | idle
  /-- The first lookup for the datagram missed. -/
  | looking (p : Packet) (preference : LookupMode)
  /-- Both lookups missed and the session has a connected binding for the token. -/
  | republishing (p : Packet) (b : Binding) (mode : LookupMode)
  /-- The datagram's destination is known; before its session and binding are looked up. -/
  | resolved (p : Packet) (r : Resolved)
  /-- The tokens of a closed client's bindings are deleted one by one; `after` is the datagram
  whose new session made the worker look. -/
  | deleting (client : Sockaddr) (rest : List Binding) (after : Option (Packet × Resolved))
  deriving DecidableEq

structure Worker where
  sessions : List Session
  cache : Nat → Option CacheEntry
  /-- `now_ms` of the batch. -/
  now : Nat
  job : Job

/-- What the machine is run with: the slot of a key in the cache, the bridge's port, and which
addresses are in the token prefixes. -/
structure Config where
  slot : TokenKey → Nat
  listenPort : UInt16
  isToken : List UInt8 → Bool

structure State where
  map : TokenKey → Option OriginalDst
  worker : Nat → Worker
  lastHeld : TokenKey → Option DstAddr

def initial : State where
  map _ := none
  worker _ := ⟨[], fun _ => none, 0, .idle⟩
  lastHeld _ := none

/-- Change one worker. -/
def State.setWorker (s : State) (w : Nat) (x : Worker) : State :=
  { s with worker := update s.worker w x }

/-- `bpf2socks_udp_session_find`. -/
def Worker.find (x : Worker) (client : Sockaddr) : Option Session :=
  x.sessions.find? fun k => sameSockaddr k.client client

/-! ## Lookups -/

/-- The order of `bpf2socks_token_lookup_udp`: does it try the client-less key first? -/
def zeroFirst (preference : LookupMode) (k : TokenKey) : Bool :=
  preference = .zeroClient ∨ (preference = .unknown ∧ keyIsLoopback k)

/-- A key with the mode it stands for. -/
def tried (zero : Bool) (k : TokenKey) : TokenKey × LookupMode :=
  if zero then (zeroKey k, .zeroClient) else (k, .fullClient)

/-- What the map holds for a key, in the order of the lookup. -/
def State.holds (s : State) (preference : LookupMode) (k : TokenKey) : Option OriginalDst :=
  (s.map (tried (zeroFirst preference k) k).1).or (s.map (tried (!zeroFirst preference k) k).1)

/-- The ghost record of a client that uses its token. -/
def State.note (s : State) (preference : LookupMode) (k : TokenKey) : State :=
  match (s.holds preference k).bind dstOf with
  | some d => { s with lastHeld := update s.lastHeld k (some d) }
  | none => s

/-- A cache entry that answers for the key. -/
def Worker.cached (cfg : Config) (x : Worker) (k : TokenKey) : Option CacheEntry :=
  match x.cache (cfg.slot k) with
  | some e => if e.expiresMs > x.now ∧ e.key = k then some e else none
  | none => none

/-- The entry of a successful lookup; `room` says whether the cache could be allocated. -/
def Worker.store (cfg : Config) (x : Worker) (k : TokenKey) (v : OriginalDst) (mode : LookupMode)
    (room : Bool) : Worker :=
  if room ∧ x.now ≠ 0 then
    { x with cache := update x.cache (cfg.slot k) (some ⟨k, v, x.now + cacheTtl, mode⟩) }
  else x

/-- The binding `bpf2socks_udp_token_recover_connected` finds. -/
def Session.connectedBinding (k : Session) (token : List UInt8) : Option Binding :=
  k.bindings.find? fun b => b.connectedUdpToken && b.tokenAddr == token

/-- What follows when a datagram's lookup fails: a connected binding, or nothing. -/
def recoverJob (x : Worker) (p : Packet) : Job :=
  match (x.find p.client).bind fun k => (k.connectedBinding p.tokenAddr).map fun b => (k, b) with
  | some (k, b) => .republishing p b k.tokenLookupMode
  | none => .idle

/-- What follows when a value was found for a datagram: a value without an address is a failed
lookup. -/
def resolvedJob (x : Worker) (p : Packet) (v : OriginalDst) (mode : LookupMode) : Job :=
  match dstOf v with
  | some d => .resolved p ⟨d, isConnected v, mode⟩
  | none => recoverJob x p

/-- What follows when the map has nothing for a datagram: the destination of its control message, or
a failed lookup. -/
def afterMiss (x : Worker) (p : Packet) : Job :=
  match p.socketOriginal with
  | some d => .resolved p ⟨d, false, .unknown⟩
  | none => recoverJob x p

/-- `original` of `bpf2socks_udp_token_recover_connected`. -/
def recoveredOriginal (d : DstAddr) : OriginalDst where
  family := d.family.code.toUInt8
  protocol := 17
  port := d.port
  addr := d.addr
  flags := 1

/-! ## Bindings -/

/-- A binding for the destination: the one that is there, or a new one at the head. -/
def Session.bind (k : Session) (p : Packet) (r : Resolved) : Session :=
  let fresh : Binding := ⟨r.originalDst, p.tokenAddr, r.connectedUdpToken⟩
  if k.bindings.any fun b => b.originalDst = r.originalDst then
    { k with bindings := k.bindings.map fun b => if b.originalDst = r.originalDst then fresh else b }
  else { k with bindings := fresh :: k.bindings }

/-- The binding that is there with the datagram's token, and for the rest as it was. -/
def Session.retoken (k : Session) (p : Packet) (r : Resolved) : Session :=
  { k with
    bindings := k.bindings.map fun b =>
      if b.originalDst = r.originalDst then { b with tokenAddr := p.tokenAddr } else b }

/-- A session after its datagram. -/
def Session.settle (k : Session) (p : Packet) (r : Resolved) : Outcome → Session
  | .bound => k.bind p r
  | .unanswered => k.retoken p r
  | .unbound | .dropped => k

/-- The lookup mode a session keeps. -/
def Session.keepMode (k : Session) (mode : LookupMode) : Session :=
  if mode ≠ .unknown then { k with tokenLookupMode := mode } else k

theorem Session.bind_client (k : Session) (p : Packet) (r : Resolved) :
    (k.bind p r).client = k.client := by
  unfold Session.bind
  dsimp only
  split <;> rfl

theorem Session.keepMode_eq (k : Session) (mode : LookupMode) :
    (k.keepMode mode).client = k.client ∧ (k.keepMode mode).bindings = k.bindings := by
  unfold Session.keepMode
  split <;> exact ⟨rfl, rfl⟩

theorem Session.settle_client (k : Session) (p : Packet) (r : Resolved) (o : Outcome) :
    (k.settle p r o).client = k.client := by
  cases o with
  | bound => exact k.bind_client p r
  | _ => rfl

/-- The sessions after a datagram was handled: the client's own, which keeps the lookup mode, or a
new one. -/
def Worker.settled (x : Worker) (p : Packet) (r : Resolved) (o : Outcome) : Worker :=
  match x.find p.client with
  | some _ =>
      { x with
        job := .idle
        sessions := x.sessions.map fun k =>
          if sameSockaddr k.client p.client then (k.keepMode r.mode).settle p r o else k }
  | none =>
      match o with
      | .bound | .unbound =>
          { x with
            job := .idle
            sessions := Session.settle ⟨p.client, r.mode, []⟩ p r o :: x.sessions }
      | .unanswered | .dropped => { x with job := .idle }

/-- The sessions after a reply from a remote the client has not written to made a binding without a
token. -/
def Worker.fullcone (x : Worker) (client : Sockaddr) (d : DstAddr) : Worker :=
  let withNew (k : Session) : Session :=
    if k.bindings.any fun b => b.originalDst = d then k
    else { k with bindings := ⟨d, List.replicate 16 0, false⟩ :: k.bindings }
  { x with
    sessions := x.sessions.map fun k => if sameSockaddr k.client client then withNew k else k }

/-- The sessions after a binding was destroyed. -/
def Worker.unbound (x : Worker) (client : Sockaddr) (d : DstAddr) : Worker :=
  let without (k : Session) : Session :=
    { k with bindings := k.bindings.filter fun b => !decide (b.originalDst = d) }
  { x with
    sessions := x.sessions.map fun k => if sameSockaddr k.client client then without k else k }

/-! ## Steps -/

inductive Action where
  /-- A BPF program publishes a token. -/
  | publish (k : TokenKey) (v : OriginalDst)
  | evict (k : TokenKey)
  /-- A worker begins a batch. -/
  | tick (w : Nat) (now : Nat)
  /-- A worker takes a datagram: the cache, or the first lookup. -/
  | datagram (w : Nat) (p : Packet) (room : Bool)
  /-- The second lookup. -/
  | second (w : Nat) (room : Bool)
  /-- The update of `bpf2socks_udp_token_recover_connected`. -/
  | republish (w : Nat) (ok : Bool)
  /-- A datagram's session and binding. -/
  | settle (w : Nat) (o : Outcome)
  /-- A local client's socket is found closed. -/
  | release (w : Nat) (client : Sockaddr)
  /-- The next delete of `bpf2socks_udp_token_delete_closed_client`, or the end of the session. -/
  | delete (w : Nat)
  /-- A session is dropped. -/
  | drop (w : Nat) (client : Sockaddr)
  /-- A binding is destroyed. -/
  | unbind (w : Nat) (client : Sockaddr) (d : DstAddr)
  /-- `bpf2socks_udp_binding_create_fullcone`. -/
  | fullcone (w : Nat) (client : Sockaddr) (d : DstAddr)

/-- What the programs publish: a token of the prefix and a valid destination; an entry with a client
is TC's, whose values have no flags. -/
def publishable (cfg : Config) (k : TokenKey) (v : OriginalDst) : Bool :=
  cfg.isToken k.tokenAddr ∧ (dstOf v).isSome ∧ (k = zeroKey k ∨ v.flags = 0)

/-- A lookup of one key: it answers, or the job goes on as `miss` says. -/
def lookedUp (cfg : Config) (s : State) (w : Nat) (p : Packet) (zero room : Bool) (miss : Job) :
    State :=
  let k := fullKey cfg.listenPort p.client p.tokenAddr
  let x := s.worker w
  match s.map (tried zero k).1 with
  | none => s.setWorker w { x with job := miss }
  | some v =>
      s.setWorker w { x.store cfg k v (tried zero k).2 room with
        job := resolvedJob x p v (tried zero k).2 }

/-- The preference of a datagram's lookup. -/
def Worker.preference (x : Worker) (client : Sockaddr) : LookupMode :=
  match x.find client with
  | some k => k.tokenLookupMode
  | none => .unknown

/-- A worker takes a datagram. -/
def takeDatagram (cfg : Config) (s : State) (w : Nat) (p : Packet) (room : Bool) : State :=
  let x := s.worker w
  let k := fullKey cfg.listenPort p.client p.tokenAddr
  let preference := x.preference p.client
  let s := s.note preference k
  match x.cached cfg k with
  | some e => s.setWorker w { x with job := resolvedJob x p e.original e.mode }
  | none => lookedUp cfg s w p (zeroFirst preference k) room (.looking p preference)

/-- The job of a worker that found a closed client. -/
def Worker.begin (x : Worker) (client : Sockaddr) (after : Option (Packet × Resolved)) :
    Option Worker :=
  match x.find client with
  | some k =>
      if sockaddrIsLoopback k.client then
        some { x with job := .deleting k.client k.bindings after }
      else none
  | none => none

/-- The job after the last delete: the session is gone. -/
def Worker.finish (x : Worker) (client : Sockaddr) (after : Option (Packet × Resolved)) : Worker :=
  { x with
    sessions := x.sessions.filter fun k => !sameSockaddr k.client client
    job := match after with
      | some (p, r) => .resolved p r
      | none => .idle }

def step (cfg : Config) (s : State) : Action → Option State
  | .publish k v => if publishable cfg k v then some { s with map := update s.map k (some v) } else none
  | .evict k => some { s with map := update s.map k none }
  | .tick w now =>
      let x := s.worker w
      if x.job = .idle ∧ x.now ≤ now then some (s.setWorker w { x with now := now }) else none
  | .datagram w p room =>
      -- a control message names a destination outside the token prefixes only
      if (s.worker w).job = .idle ∧ (p.socketOriginal = none ∨ cfg.isToken p.tokenAddr = false) then
        some (takeDatagram cfg s w p room)
      else none
  | .second w room =>
      match (s.worker w).job with
      | .looking p preference =>
          let k := fullKey cfg.listenPort p.client p.tokenAddr
          let zero := !zeroFirst preference k
          let s := match (s.map (tried zero k).1).bind dstOf with
            | some d => { s with lastHeld := update s.lastHeld k (some d) }
            | none => s
          some (lookedUp cfg s w p zero room (afterMiss (s.worker w) p))
      | _ => none
  | .republish w ok =>
      match (s.worker w).job with
      | .republishing p b mode =>
          let k := zeroKey (fullKey cfg.listenPort p.client p.tokenAddr)
          let s' := if ok then
              { s with map := update s.map k (some (recoveredOriginal b.originalDst)) }
            else s
          some (s'.setWorker w
            { s.worker w with job := .resolved p ⟨b.originalDst, true, mode⟩ })
      | _ => none
  | .settle w o =>
      match (s.worker w).job with
      | .resolved p r =>
          if o ≠ .unanswered ∨ r.needsOriginalReplySocket then
            some (s.setWorker w ((s.worker w).settled p r o))
          else none
      | _ => none
  | .release w client =>
      let x := s.worker w
      match x.job with
      | .idle => (x.begin client none).map (s.setWorker w)
      | .resolved p r =>
          -- `bpf2socks_udp_session_get` looks at closed clients before it makes a session
          if x.find p.client = none then (x.begin client (some (p, r))).map (s.setWorker w) else none
      | _ => none
  | .delete w =>
      let x := s.worker w
      match x.job with
      | .deleting client [] after => some (s.setWorker w (x.finish client after))
      | .deleting client (b :: rest) after =>
          let s' := if b.hasToken then
              { s with map := update s.map (zeroKey (fullKey cfg.listenPort client b.tokenAddr)) none }
            else s
          some (s'.setWorker w { x with job := .deleting client rest after })
      | _ => none
  | .drop w client =>
      let x := s.worker w
      if x.job = .idle then
        some (s.setWorker w
          { x with sessions := x.sessions.filter fun k => !sameSockaddr k.client client })
      else none
  | .unbind w client d =>
      let x := s.worker w
      if x.job = .idle then
        some (s.setWorker w (x.unbound client d))
      else none
  | .fullcone w client d =>
      let x := s.worker w
      if x.job = .idle then some (s.setWorker w (x.fullcone client d)) else none

/-! ## Runs -/

/-- The states of all runs whose steps meet a condition. -/
inductive Reach (cfg : Config) (C : State → Action → Prop) : State → Prop where
  | initial : Reach cfg C initial
  | step {s s' : State} {a : Action} (past : Reach cfg C s) (meets : C s a)
      (run : step cfg s a = some s') : Reach cfg C s'

/-- A run of given actions. -/
def play (cfg : Config) : State → List Action → Option State
  | s, [] => some s
  | s, a :: as => (step cfg s a).bind fun s' => play cfg s' as

theorem Reach.play {cfg : Config} {s s' : State} (h : Reach cfg (fun _ _ => True) s)
    (as : List Action) (hp : play cfg s as = some s') :
    Reach cfg (fun _ _ => True) s' := by
  induction as generalizing s with
  | nil =>
      cases hp
      exact h
  | cons a as ih =>
      obtain ⟨s₁, hs, hrest⟩ := Option.bind_eq_some_iff.mp hp
      exact ih (h.step trivial hs) hrest

end Bpf2Socks.Token

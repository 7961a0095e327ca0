/-
# Bpf2Socks.Udp.Binding — reply bindings: index, LRUs, creation and eviction.

A reply binding ties a session to one original destination, so that replies from it can be sent
to the client with the source address the client expects.  Bindings live in a fixed table with a
free list; a used one is on its owner's list, on its owner's LRU, on the worker's LRU and in a
hash chain of the binding index.

The functions that need nothing from outside are plain state transformers.  Walks along `next`
pointers take fuel: one more step than there are slots.  A walk that needs more runs in a circle,
and the source would not return from it.
-/
import Bpf2Socks.Udp.Kernel

namespace Bpf2Socks.Udp

open Function (update)
open Lib (DLists)

/-! ## Token bytes -/

/-- `memcpy` of the first `len` bytes of `src` over `dst`. -/
def copyBytes (dst src : List UInt8) (len : Nat) : List UInt8 := src.take len ++ dst.drop len

/-- `bpf2socks_udp_binding_has_token`. -/
def bindingHasToken (b : Binding) : Bool := b.tokenAddr != noToken

/-! ## The binding index -/

/-- The bucket of a key: the bucket count is a power of two, so masking is the remainder. -/
def BindTable.bucket (t : BindTable) (owner : Nat) (dst : DstAddr) : Nat :=
  (bindingHash owner dst).toNat % t.bucketCount

/-- `bpf2socks_udp_binding_index_find`. -/
def BindTable.indexFind (t : BindTable) (owner : Nat) (dst : DstAddr) : Option Nat :=
  if validOriginal dst then
    (t.index (t.bucket owner dst)).find? fun b =>
      (t.core b).used && (t.core b).owner == some owner && sameDst (t.core b).originalDst dst
  else none

/-- `bpf2socks_udp_binding_index_insert`; `none` is its failure. -/
def BindTable.indexInsert (t : BindTable) (b : Nat) : Option BindTable :=
  match (t.core b).owner with
  | none => none
  | some owner =>
      if (t.core b).used && validOriginal (t.core b).originalDst then
        let bucket := t.bucket owner (t.core b).originalDst
        if b ∈ t.index bucket then none
        else some { t with index := update t.index bucket (b :: t.index bucket) }
      else none

/-- `bpf2socks_udp_binding_index_remove`. -/
def BindTable.indexRemove (t : BindTable) (b : Nat) : BindTable :=
  match (t.core b).owner with
  | none => t
  | some owner =>
      if validOriginal (t.core b).originalDst then
        let bucket := t.bucket owner (t.core b).originalDst
        { t with index := update t.index bucket ((t.index bucket).erase b) }
      else t

/-! ## LRU lists -/

/-- `bpf2socks_udp_binding_lru_touch`. -/
def BindTable.lruTouch (t : BindTable) (k b : Nat) : BindTable :=
  { t with
    ownedLru :=
      if t.ownedLru.tail k = some b then t.ownedLru else (t.ownedLru.remove k b).addTail k b
    lru := if t.lru.tail () = some b then t.lru else (t.lru.remove () b).addTail () b }

/-- `bpf2socks_udp_binding_lru_touch`. -/
def bindingLruTouch (s : State) (k b : Nat) : State := { s with bind := s.bind.lruTouch k b }

/-! ## Reply sockets of a binding -/

/-- `bpf2socks_udp_binding_close_reply`. -/
def bindingCloseReply (s : State) (b : Nat) : State :=
  (s.closeFd (s.bind.core b).replyFd).modBinding b fun c =>
    { c with replyFd := none, replyRaw := false, replyFdGeneration := c.replyFdGeneration + 1 }

/-- `bpf2socks_udp_binding_set_reply`. -/
def bindingSetReply (s : State) (b fd : Nat) (raw : Bool) : State :=
  s.modBinding b fun c =>
    { c with replyFd := some fd, replyRaw := raw, replyFdGeneration := c.replyFdGeneration + 1 }

/-! ## Slots -/

/-- Zero a binding's record: its fields and its links. -/
def BindTable.clear (t : BindTable) (b : Nat) : BindTable :=
  { t with
    core := update t.core b .zero
    ownedLru := t.ownedLru.clearNode b
    lru := t.lru.clearNode b }

/-- `alloc_binding` once the free list is known to be `b :: rest`. -/
def allocBinding (s : State) (b : Nat) (rest : List Nat) : State :=
  { s with bind := { s.bind.clear b with free := rest } }

/-- `release_binding`. -/
def releaseBinding (s : State) (b : Nat) : State :=
  let s := bindingCloseReply s b
  { s with bind := { s.bind.clear b with free := b :: s.bind.free } }

/-- The table part of `destroy_binding`: out of the index, the owner's list and both LRUs, and
off both counters. -/
def BindTable.detach (t : BindTable) (k b : Nat) : BindTable :=
  let t := t.indexRemove b
  { t with
    owned := update t.owned k ((t.owned k).erase b)
    ownedLru := t.ownedLru.remove k b
    lru := t.lru.remove () b
    ownedCount := update t.ownedCount k (t.ownedCount k - 1)
    count := t.count - 1 }

/-- `destroy_binding`. -/
def destroyBinding (s : State) (k b : Nat) : State :=
  releaseBinding { s with bind := s.bind.detach k b } b

/-- The loop of `bpf2socks_udp_session_close` over the session's bindings: each round destroys the
head, which takes it off the list. -/
def destroyBindings (s : State) (k : Nat) : State :=
  (s.bind.owned k).foldl (fun s b => destroyBinding s k b) s

/-! ## Eviction -/

/-- Follow the worker's binding LRU to the first binding with nothing queued.  The outer `none` is
a walk that never ends. -/
def BindTable.firstIdle (t : BindTable) : Nat → Option Nat → Option (Option Nat)
  | 0, _ => none
  | _ + 1, none => some none
  | fuel + 1, some b =>
      if (t.core b).downlinkPendingCount > 0 then t.firstIdle fuel (t.lru.next b)
      else some (some b)

/-- The binding `evict_binding` takes. -/
def BindTable.evictee (t : BindTable) : Option (Option Nat) :=
  t.firstIdle (t.cap + 1) (t.lru.head ())

open Worker

/-- `evict_binding` without a session, its only use. -/
def evictBinding : Worker Bool := do
  let s ← get
  match s.bind.evictee with
  | none => diverge
  | some none => pure false
  | some (some b) =>
      match (s.bind.core b).owner with
      | none => pure false
      | some k =>
          modify fun s => (destroyBinding s k b).count .udpBindingEvictions
          pure true

/-- `ensure_binding_capacity`: a round that does not fail takes one off the counter. -/
def ensureBindingCapacity : Nat → Worker Bool
  | 0 => diverge
  | fuel + 1 => do
      let s ← get
      if s.bind.count ≥ s.bind.cap then
        let evicted ← evictBinding
        if evicted then ensureBindingCapacity fuel else pure false
      else pure true

/-! ## Lookup and creation -/

/-- `bpf2socks_udp_binding_find`. -/
def bindingFind (k : Nat) (dst : DstAddr) : Worker (Option Nat) := do
  count .udpBindingHashLookups
  let s ← get
  pure (s.bind.indexFind k dst)

/-- The last part of `create_binding`: link the binding everywhere. -/
def BindTable.attach (t : BindTable) (k b : Nat) : BindTable :=
  { t with
    owned := update t.owned k (b :: t.owned k)
    ownedLru := t.ownedLru.addTail k b
    lru := t.lru.addTail () b
    ownedCount := update t.ownedCount k (t.ownedCount k + 1)
    count := t.count + 1 }

/-- What `create_binding` is asked to make. -/
structure BindingRequest where
  original : DstAddr
  tokenAddr : List UInt8
  tokenLen : Nat
  connectedUdpToken : Bool
  needsOriginalReplySocket : Bool
  fullcone : Bool
  deriving DecidableEq

/-- `create_binding` from the reply socket on. -/
def finishBinding (k b : Nat) (req : BindingRequest) : Worker (Option Nat) := do
  modify fun s => s.modBinding b fun c => { c with used := true, owner := some k }
  let s ← get
  match s.bind.indexInsert b with
  | none =>
      modify fun s => releaseBinding s b
      pure none
  | some t =>
      modify fun s => { s with bind := t.attach k b }
      count .udpReplyBindingCreates
      if req.fullcone then count .udpFullconeBindingCreates
      pure (some b)

/-- `create_binding`. -/
def createBinding (k : Nat) (req : BindingRequest) : Worker (Option Nat) := do
  let s ← get
  let room ← ensureBindingCapacity (s.bind.count + 1)
  if room then
    let s ← get
    match s.bind.free with
    | [] => pure none
    | b :: rest =>
        modify fun s => allocBinding s b rest
        modify fun s => s.modBinding b fun c =>
          { c with
            originalDst := req.original
            tokenAddr := copyBytes c.tokenAddr req.tokenAddr req.tokenLen }
        let now ← nowMs
        modify fun s => s.modBinding b fun c =>
          { c with lastSeenMs := now, connectedUdpToken := req.connectedUdpToken }
        if req.needsOriginalReplySocket then
          let r ← replySocketCreate req.original (.reply b)
          match r with
          | none =>
              modify fun s => releaseBinding s b
              pure none
          | some (fd, raw) =>
              modify fun s => bindingSetReply s b fd raw
              finishBinding k b req
        else finishBinding k b req
  else pure none

/-- `bpf2socks_udp_packet_uses_connected_token`. -/
def packetUsesConnectedToken (p : ClientPacket) : Bool := p.connectedUdpToken

/-- `bpf2socks_udp_packet_needs_original_reply_socket`. -/
def packetNeedsOriginalReplySocket (p : ClientPacket) : Bool :=
  if p.connectedUdpToken then false
  else if p.tokenLookupMode = .zeroClient then false
  else validOriginal p.originalDst

/-- Whether the binding of a client packet wants a reply socket of its own. -/
def needsReplySocket (p : ClientPacket) : Bool :=
  !packetUsesConnectedToken p && (p.originalFromSocket || packetNeedsOriginalReplySocket p)

/-- The token bytes a packet carries. -/
def tokenLength (p : ClientPacket) : Nat := if p.tokenFamily = .inet6 then 16 else 4

/-- `bpf2socks_udp_binding_create_for_packet`. -/
def bindingCreateForPacket (k : Nat) (p : ClientPacket) : Worker (Option Nat) :=
  createBinding k
    { original := p.originalDst, tokenAddr := p.tokenAddr, tokenLen := tokenLength p
      connectedUdpToken := p.connectedUdpToken
      needsOriginalReplySocket := needsReplySocket p, fullcone := false }

/-- `bpf2socks_udp_binding_create_fullcone`. -/
def bindingCreateFullcone (k : Nat) (remote : DstAddr) : Worker (Option Nat) :=
  createBinding k
    { original := remote, tokenAddr := [], tokenLen := 0, connectedUdpToken := false
      needsOriginalReplySocket := validOriginal remote, fullcone := true }

/-- `bpf2socks_udp_binding_find_by_domain_port`: the most recently seen client-created binding of
the port, the first of them on a tie. -/
def bindingFindByDomainPort (s : State) (k : Nat) (port : UInt16) : Option Nat :=
  (s.bind.owned k).foldl (fun best b =>
    let c := s.bind.core b
    if c.used && c.originalDst.port = port && bindingHasToken c then
      match best with
      | none => some b
      | some b' => if c.lastSeenMs > (s.bind.core b').lastSeenMs then some b else some b'
    else best) none

/-! ## Idle expiry -/

/-- The walk of `bpf2socks_udp_binding_expire_idle`; the next pointer is read before the binding
goes. -/
def bindingExpireWalk (now : Nat) : Nat → Option Nat → Worker Unit
  | 0, _ => diverge
  | _ + 1, none => pure ()
  | fuel + 1, some b => do
      let s ← get
      let c := s.bind.core b
      let next := s.bind.lru.next b
      if !c.used || subMs now c.lastSeenMs < s.cfg.idleTimeoutMs then pure ()
      else if c.downlinkPendingCount > 0 then bindingExpireWalk now fuel next
      else
        match c.owner with
        | none =>
            count .udpBindingEvictions
            bindingExpireWalk now fuel next
        | some k =>
            modify fun s => (destroyBinding s k b).count .udpBindingEvictions
            bindingExpireWalk now fuel next

/-- `bpf2socks_udp_binding_expire_idle`. -/
def bindingExpireIdle : Worker Unit := do
  let now ← nowMs
  if now = 0 then pure ()
  else
    let s ← get
    bindingExpireWalk now (s.bind.cap + 1) (s.bind.lru.head ())

end Bpf2Socks.Udp

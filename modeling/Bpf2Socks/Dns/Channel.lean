/-
# Bpf2Socks.Dns.Channel — opening, driving and closing the channels of the DNS fast path.

A channel is a control connection to the SOCKS5 server with its own UDP ASSOCIATE handshake, and a
relay socket.  Unlike a session it writes the hello and the request separately, switches its epoll
interest between writing and reading, and is not rebuilt for a second after it was closed.
Closing a channel releases every transaction on it.
-/
import Bpf2Socks.Dns.State
import Bpf2Socks.Udp.Associate

namespace Bpf2Socks.Dns

open Function (update)
open Fast
open Udp (Sockaddr Errno Bits socks5BuildHello socks5BuildUdpAssociateRequest socks5ReplyLength
  socks5ReplaceUnspecifiedRelay sockaddrPort)

/-! ## Closing -/

/-- `release_dns_channel_transactions`. -/
def Table.releaseChannel (t : Table) (c : UInt32) : Table :=
  (List.range t.capacity).foldl
    (fun t i =>
      if (t.transactions i).used ∧ (t.transactions i).channelIndex = c then t.release i else t) t

/-- A channel after `reset_dns_channel_fds`; the time it may be rebuilt is kept. -/
def Channel.reset (ch : Channel) : Channel :=
  { Channel.zero with nextRebuildMs := ch.nextRebuildMs, relayPort := ch.relayPort }

/-- `reset_dns_channel_fds`. -/
def resetChannelFds (c : UInt32) : Fast Unit := do
  let s ← get
  let ch := s.channels c
  if ch.relayPortClaimed then
    ask (.portRelease ch.relayPort)
  modify fun s => s.modChannel c Channel.reset

/-- `if (now_ms == 0U) now_ms = bpf2socks_now_ms();` -/
def timeOr (nowMs : Nat) : Fast Nat := do
  if nowMs = 0 then
    let t : Nat ← ask .nowMs
    pure t
  else pure nowMs

/-- `bpf2socks_udp_dns_close_channel`. -/
def closeChannel (c : UInt32) (nowMs : Nat) : Fast Unit := do
  modify fun s => { s with table := s.table.releaseChannel c }
  resetChannelFds c
  let now ← timeOr nowMs
  modify fun s => s.modChannel c fun ch =>
    { ch with nextRebuildMs := now + channelRebuildDelayMs }

/-- `bpf2socks_udp_dns_expire_transactions`. -/
def expireTransactions (nowMs : Nat) : Fast Unit := do
  let s ← get
  let r := s.table.expire nowMs s.cfg.transactionTimeoutMs maxExpirePerLoop
    (List.replicate channelsPerWorker.toNat false)
  modify fun s => { s with table := r.1 }
  Lib.Act.forEach (fun i => if r.2.2.getD i false then closeChannel (UInt32.ofNat i) nowMs
    else pure ()) (List.range channelsPerWorker.toNat)

/-! ## The handshake -/

/-- The loop of `dns_channel_do_write`: `none` failed, `some false` would block. -/
def channelWriteFrom (c : UInt32) (fd : Nat) : Nat → Fast (Option Bool)
  | 0 => diverge
  | fuel + 1 => do
      let s ← get
      let ch := s.channels c
      if ch.writeOffset < ch.writeBuf.length then
        let r : Except Errno Nat ← ask (.controlSend fd (ch.writeBuf.length - ch.writeOffset))
        match r with
        | .error .eintr => channelWriteFrom c fd fuel
        | .error .eagain => pure (some false)
        | .error _ => pure none
        | .ok 0 => pure none
        | .ok (n + 1) =>
            modify fun s => s.modChannel c fun ch =>
              { ch with writeOffset := ch.writeOffset + (n + 1) }
            channelWriteFrom c fd fuel
      else pure (some true)

/-- `dns_channel_do_write`. -/
def channelDoWrite (c : UInt32) (fd : Nat) : Fast (Option Bool) := do
  let retries : Nat ← ask .retries
  channelWriteFrom c fd (retries + channelWriteCap + 1)

/-- The loop of `dns_channel_do_read`. -/
def channelReadFrom (c : UInt32) (fd expected : Nat) : Nat → Fast (Option Bool)
  | 0 => diverge
  | fuel + 1 => do
      let s ← get
      let ch := s.channels c
      if ch.readBuf.length < expected then
        let r : Except Errno (List UInt8) ← ask (.controlRecv fd (expected - ch.readBuf.length))
        match r with
        | .error .eintr => channelReadFrom c fd expected fuel
        | .error .eagain => pure (some false)
        | .error _ => pure none
        | .ok [] => pure none
        | .ok bytes =>
            modify fun s => s.modChannel c fun ch => { ch with readBuf := ch.readBuf ++ bytes }
            channelReadFrom c fd expected fuel
      else pure (some true)

/-- `dns_channel_do_read`. -/
def channelDoRead (c : UInt32) (fd expected : Nat) : Fast (Option Bool) := do
  let retries : Nat ← ask .retries
  channelReadFrom c fd expected (retries + channelReadCap + 1)

/-- A bound address before its name is resolved. -/
inductive Bound where
  | none
  | addr (consumed : Nat) (a : Sockaddr)
  | name (consumed : Nat) (host : List UInt8) (port : UInt16)
  deriving DecidableEq

/-- `bpf2socks_socks5_parse_bound_addr` up to the resolver. -/
def splitBoundAddr (buf : List UInt8) : Bound :=
  if buf.length < 4 ∨ buf.take 2 ≠ [5, 0] then .none
  else
    match buf.drop 3 with
    | 1 :: rest =>
        if rest.length < 4 + 2 then .none
        else .addr (4 + 4 + 2) ⟨.inet, (rest.drop 4).take 2 ++ rest.take 4 ++ List.replicate 8 0⟩
    | 4 :: rest =>
        if rest.length < 16 + 2 then .none
        else .addr (4 + 16 + 2) ⟨.inet6, (rest.drop 16).take 2 ++ List.replicate 4 0 ++
          rest.take 16 ++ List.replicate 4 0⟩
    | 3 :: n :: rest =>
        if n = 0 ∨ rest.length < n.toNat + 2 then .none
        else
          let port := match rest.drop n.toNat with
            | hi :: lo :: _ => hi.toUInt16 <<< 8 ||| lo.toUInt16
            | _ => 0
          .name (4 + 1 + n.toNat + 2) (rest.take n.toNat) port
    | _ => .none

/-- `bpf2socks_socks5_parse_bound_addr`: the bytes consumed and the address. -/
def parseBoundAddr (buf : List UInt8) : Fast (Option (Nat × Sockaddr)) := do
  match splitBoundAddr buf with
  | .none => pure Option.none
  | .addr consumed a => pure (some (consumed, a))
  | .name consumed host port =>
      let r : Option Sockaddr ← ask (.resolve host port)
      pure (r.map fun a => (consumed, a))

/-- `bpf2socks_udp_relay_port_needs_claim`. -/
def relayPortNeedsClaim (cfg : Config) (port : UInt16) : Bool :=
  port ≠ 0 && port ≠ sockaddrPort cfg.socksAddr

/-- Interest in reading, with half-closes. -/
def readInterest : Bits := { Bits.input with rdhup := true }

/-- Interest in writing, with half-closes. -/
def writeInterest : Bits := { Bits.output with rdhup := true }

/-- An event that ends a handshake. -/
def handshakeBroken (bits : Bits) : Bool := bits.err || bits.hup || bits.rdhup

/-- `BPF2SOCKS_UDP_DNS_ASSOC_READ` from the relay socket on. -/
def openRelaySocket (c : UInt32) (fd : Nat) (relay : Sockaddr) : Fast Bool := do
  let r : Option Nat ← ask (.relaySocket relay)
  match r with
  | none => pure false
  | some udpFd =>
      let connected : Bool ← ask (.relayConnect udpFd relay)
      modify fun s => s.modChannel c fun ch =>
        { ch with udpFd := some udpFd, relayConnected := connected }
      let added : Bool ← ask (.epollAdd udpFd .input)
      if added then
        modify fun s => s.modChannel c fun ch =>
          { ch with stage := .ready, available := true, nextRebuildMs := 0, stageStartedMs := 0 }
        ask (.epollModify fd readInterest)
      else
        modify fun s => s.modChannel c fun ch => { ch with udpFd := none }
        pure false

/-- `BPF2SOCKS_UDP_DNS_ASSOC_READ` once the reply is complete. -/
def finishAssociate (c : UInt32) (fd : Nat) : Fast Bool := do
  let s ← get
  let parsed ← parseBoundAddr (s.channels c).readBuf
  match parsed with
  | none => pure false
  | some (_, bound) =>
      let relay := socks5ReplaceUnspecifiedRelay s.cfg.socksAddr bound
      modify fun s => s.modChannel c fun ch => { ch with relayAddr := relay }
      let port := sockaddrPort relay
      if relayPortNeedsClaim s.cfg port then
        let claimed : Bool ← ask (.portClaim port)
        if claimed then
          modify fun s => s.modChannel c fun ch =>
            { ch with relayPort := port, relayPortClaimed := true }
          openRelaySocket c fd relay
        else pure false
      else openRelaySocket c fd relay

/-- `BPF2SOCKS_UDP_DNS_ASSOC_READ` once its length is known; `none` is `SIZE_MAX`. -/
def readAssociateRest (c : UInt32) (fd : Nat) (total : Option Nat) : Fast Bool := do
  match total with
  | none => pure false
  | some total =>
      if total > channelReadCap then pure false
      else
        let r ← channelDoRead c fd total
        match r with
        | none => pure false
        | some false => pure true
        | some true => finishAssociate c fd

/-- `advance_dns_channel` in `BPF2SOCKS_UDP_DNS_ASSOC_READ`. -/
def advanceAssocRead (c : UInt32) (fd : Nat) (bits : Bits) : Fast Bool := do
  if handshakeBroken bits then pure false
  else if bits.inp then
    let r ← channelDoRead c fd 4
    match r with
    | none => pure false
    | some false => pure true
    | some true =>
        let s ← get
        let total := socks5ReplyLength (s.channels c).readBuf
        if total = some 0 then
          let r ← channelDoRead c fd 5
          match r with
          | none => pure false
          | some false => pure true
          | some true =>
              let s ← get
              readAssociateRest c fd (socks5ReplyLength (s.channels c).readBuf)
        else readAssociateRest c fd total
  else pure true

/-- The end of a write stage: the channel waits for the answer. -/
def awaitReply (c : UInt32) (fd : Nat) (stage : Stage) (nowMs : Nat) : Fast Bool := do
  modify fun s => s.modChannel c fun ch =>
    { ch with stage := stage, readBuf := [], stageStartedMs := nowMs }
  ask (.epollModify fd readInterest)

/-- `advance_dns_channel` in a write stage, which goes over to the read stage `next`. -/
def advanceWrite (c : UInt32) (fd : Nat) (next : Stage) (bits : Bits) (nowMs : Nat) :
    Fast Bool := do
  if handshakeBroken bits then pure false
  else if bits.out then
    let r ← channelDoWrite c fd
    match r with
    | none => pure false
    | some false => pure true
    | some true => awaitReply c fd next nowMs
  else pure true

/-- `advance_dns_channel` in `BPF2SOCKS_UDP_DNS_HELLO_READ`. -/
def advanceHelloRead (c : UInt32) (fd : Nat) (bits : Bits) (nowMs : Nat) : Fast Bool := do
  if handshakeBroken bits then pure false
  else if bits.inp then
    let r ← channelDoRead c fd 2
    match r with
    | none => pure false
    | some false => pure true
    | some true =>
        let s ← get
        if (s.channels c).readBuf.take 2 = [5, 0] then
          match socks5BuildUdpAssociateRequest channelWriteCap with
          | none => pure false
          | some bytes =>
              modify fun s => s.modChannel c fun ch =>
                { ch with writeBuf := bytes, writeOffset := 0, readBuf := [], stage := .assocWrite
                          stageStartedMs := nowMs }
              ask (.epollModify fd writeInterest)
        else pure false
  else pure true

/-- `finish_dns_channel_connect`; the hello is written at once. -/
def finishConnect (c : UInt32) (fd : Nat) (nowMs : Nat) : Fast Bool := do
  let connected : Bool ← ask (.soError fd)
  if connected then
    match socks5BuildHello channelWriteCap with
    | none => pure false
    | some bytes =>
        modify fun s => s.modChannel c fun ch =>
          { ch with writeBuf := bytes, writeOffset := 0, readBuf := [], stage := .helloWrite
                    stageStartedMs := nowMs }
        advanceWrite c fd .helloRead .output nowMs
  else pure false

/-- `advance_dns_channel`: whether the channel is still good. -/
def advanceChannel (c : UInt32) (bits : Bits) (nowMs : Nat) : Fast Bool := do
  let s ← get
  match (s.channels c).tcpFd with
  | none => pure false
  | some fd =>
      match (s.channels c).stage with
      | .connecting =>
          if handshakeBroken bits then pure false
          else if bits.out then finishConnect c fd nowMs
          else pure true
      | .helloWrite => advanceWrite c fd .helloRead bits nowMs
      | .helloRead => advanceHelloRead c fd bits nowMs
      | .assocWrite => advanceWrite c fd .assocRead bits nowMs
      | .assocRead => advanceAssocRead c fd bits
      | .idle => pure true
      | .ready => pure true

/-! ## Health and events -/

/-- `bpf2socks_udp_control_fd_is_healthy`. -/
def controlFdIsHealthy (fd : Nat) : Fast Bool := do
  let r : Except Errno Nat ← ask (.controlPeek fd)
  match r with
  | .ok _ => pure false
  | .error e => pure (e = .eagain || e = .eintr)

/-- `bpf2socks_udp_control_event_is_failure`. -/
def controlEventIsFailure (fd : Nat) (bits : Bits) : Fast Bool := do
  if bits.err || bits.hup || bits.rdhup then pure true
  else if bits.inp then
    let healthy ← controlFdIsHealthy fd
    pure (!healthy)
  else pure false

/-- `bpf2socks_udp_dns_control_event`. -/
def controlEvent (c : UInt32) (bits : Bits) (nowMs : Nat) : Fast Unit := do
  let s ← get
  match (s.channels c).tcpFd with
  | none => pure ()
  | some fd =>
      if (s.channels c).stage ≠ .idle ∧ (s.channels c).stage ≠ .ready then
        let good ← advanceChannel c bits nowMs
        if good then pure () else closeChannel c nowMs
      else
        let failed ← controlEventIsFailure fd bits
        if failed then closeChannel c nowMs else pure ()

/-- `bpf2socks_udp_dns_expire_handshakes` for one channel. -/
def expireHandshake (nowMs : Nat) (c : UInt32) : Fast Unit := do
  let s ← get
  let ch := s.channels c
  if ch.stage = .idle ∨ ch.stage = .ready then pure ()
  else if ch.stageStartedMs = 0 then pure ()
  else if Udp.subMs nowMs ch.stageStartedMs < handshakeTimeoutMs then pure ()
  else closeChannel c nowMs

/-- `bpf2socks_udp_dns_expire_handshakes`. -/
def expireHandshakes (nowMs : Nat) : Fast Unit :=
  Lib.Act.forEach (fun i => expireHandshake nowMs (UInt32.ofNat i))
    (List.range channelsPerWorker.toNat)

/-! ## Opening and choosing a channel -/

/-- `open_dns_channel`: whether the channel is usable already.  A connection that was started
returns `EAGAIN` too. -/
def openChannel (c : UInt32) (nowMs : Nat) : Fast Bool := do
  let s ← get
  let ch := s.channels c
  if ch.available ∧ ch.udpFd.isSome then pure true
  else if ch.stage ≠ .idle then pure false
  else
    let now ← timeOr nowMs
    if ch.nextRebuildMs ≠ 0 ∧ now < ch.nextRebuildMs then pure false
    else
      resetChannelFds c
      let r : Option Nat ← ask .connect
      match r with
      | none =>
          modify fun s => s.modChannel c fun ch =>
            { ch with nextRebuildMs := now + channelRebuildDelayMs }
          pure false
      | some fd =>
          modify fun s => s.modChannel c fun ch =>
            { ch with tcpFd := some fd, udpFd := none, stage := .connecting, stageStartedMs := now }
          let added : Bool ← ask (.epollAdd fd writeInterest)
          if added then pure false
          else
            modify fun s => s.modChannel c fun ch =>
              { ch with tcpFd := none, stage := .idle
                        nextRebuildMs := now + channelRebuildDelayMs }
            pure false

/-- The health check of `ensure_dns_channel`. -/
def channelIsHealthy (c : UInt32) : Fast Bool := do
  let s ← get
  let ch := s.channels c
  match ch.tcpFd with
  | some fd => if ch.available ∧ ch.udpFd.isSome then controlFdIsHealthy fd else pure false
  | none => pure false

/-- `ensure_dns_channel`. -/
def ensureChannel (c : UInt32) (nowMs : Nat) : Fast Bool := do
  let healthy ← channelIsHealthy c
  if healthy then pure true
  else
    let s ← get
    let ch := s.channels c
    if ch.stage ≠ .idle ∧ ch.stage ≠ .ready then pure false
    else if ch.available ∨ ch.tcpFd.isSome ∨ ch.udpFd.isSome then
      closeChannel c nowMs
      openChannel c nowMs
    else openChannel c nowMs

/-- The loop of `select_dns_channel`. -/
def selectFrom (start : UInt32) (nowMs : Nat) : List Nat → Fast (Option UInt32)
  | [] => pure none
  | attempt :: rest => do
      let index := (start + UInt32.ofNat attempt) % channelsPerWorker
      let good ← ensureChannel index nowMs
      if good then
        modify fun s => { s with nextDnsChannel := (index + 1) % channelsPerWorker }
        pure (some index)
      else selectFrom start nowMs rest

/-- `select_dns_channel`. -/
def selectChannel (nowMs : Nat) : Fast (Option UInt32) := do
  let s ← get
  selectFrom (s.nextDnsChannel % channelsPerWorker) nowMs (List.range channelsPerWorker.toNat)

end Bpf2Socks.Dns

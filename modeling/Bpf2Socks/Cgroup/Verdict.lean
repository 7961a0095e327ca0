/-
# Bpf2Socks.Cgroup.Verdict — the ordered list of decisions.

What the forward programs decide about a socket and a destination, said without registers, stack
slots or jumps.  Every place on the list either has nothing to say or gives a verdict, and the first
verdict counts; where nobody objects the destination is proxied.
-/
import Bpf2Socks.Cgroup.Program

namespace Bpf2Socks.Cgroup

inductive Verdict where
  | bypass
  | drop
  | proxy
  deriving DecidableEq

/-- The jump list a verdict goes on. -/
@[simp] def Verdict.jumps : Verdict → Jumps
  | .bypass => .bypass
  | .drop => .drop
  | .proxy => .forceProxy

/-- A place on the list. -/
abbrev Choice := Option Verdict

/-- The jump a place on the list takes, if it takes one. -/
abbrev Choice.exit (d : Choice) : Option Jumps := d.map Verdict.jumps

def choose (p : Prop) [Decidable p] (v : Verdict) : Choice := if p then some v else none

/-- The two kinds of forward programs. -/
inductive Hook where
  | connect
  | sendmsg
  deriving DecidableEq

/-- The arguments `bpf2socks_bpf_runtime_start` passes for a hook. -/
def Hook.protocol : Hook → Word
  | .connect => protoTcp
  | .sendmsg => protoUdp
@[inherit_doc Hook.protocol] def Hook.fromContext : Hook → Bool
  | .connect => true
  | .sendmsg => false
@[inherit_doc Hook.protocol] def Hook.attach4 : Hook → AttachType
  | .connect => .inet4Connect
  | .sendmsg => .udp4Sendmsg
@[inherit_doc Hook.protocol] def Hook.attach6 : Hook → AttachType
  | .connect => .inet6Connect
  | .sendmsg => .udp6Sendmsg

/-! ## The task -/

/-- What the task is to the policy: of the own group, on the inline list, and its user. -/
structure Who where
  own : Bool
  listed : Bool
  uid : Word
  deriving DecidableEq

def Env.uid (env : Env) : Word := env.uidGid.setWidth 32
def Env.gid (env : Env) : Word := (env.uidGid >>> 32).setWidth 32

/-- A 64-bit comparison of a 32-bit number with an immediate, which is sign-extended. -/
def comparesEqual (x imm : Word) : Bool := x.setWidth 64 == imm.signExtend 64

/-- The task, as the generated comparisons see it. -/
def Who.compared (policy : Policy) (env : Env) : Who where
  own := policy.selfBypassGidEnabled && comparesEqual env.gid policy.selfBypassGid
  listed := (policy.bypassUids.take maxInlineBypassUids).any (comparesEqual env.uid)
  uid := env.uid

/-! ## The socket -/

section Socket

variable (policy : Policy) (present : MapId → Bool) (maps : Maps) (hook : Hook) (c : Context)
  (who : Who)

/-- The device the socket is bound to, zero for none. -/
def Context.boundDevIf : Word := (c.sk.map Sock.boundDevIf).getD 0
def Context.mark : Word := (c.sk.map Sock.mark).getD 0

/-- The own group. -/
def ownGroup : Choice := choose who.own .bypass

/-- UDP-Lite, and sockets bound to a device other than the loopback. -/
def socketShape : Choice :=
  choose ((hook = .sendmsg ∧ c.protocol ≠ protoUdp) ∨
    (c.boundDevIf ≠ 0 ∧ c.boundDevIf ≠ loopbackIfindex)) .bypass

/-- The network a socket chose explicitly, zero for none. -/
def Context.explicitNetwork : Word :=
  if c.mark &&& fwmarkExplicit = 0 then 0 else c.mark &&& 0xffff

/-- A network that is chosen and is not a default network, once these are known. -/
def explicitNetworkBypass : Choice :=
  choose (present .defaultNetwork ∧ c.explicitNetwork ≠ 0 ∧
    maps.found .defaultNetwork (leBytes 4 defaultNetworkReadyKey) ∧
    ¬maps.found .defaultNetwork (leBytes 4 c.explicitNetwork)) .bypass

/-- The flags of a user in the UID map. -/
def uidFlags (uid : Word) : Word :=
  ((maps.table .uid (leBytes 4 uid)).map fun value => (joinBytes (value.take 4)).setWidth 32).getD 0

/-- What a mode says of a user with these flags. -/
def modeBypass (mode : Mode) (flags : Word) : Choice :=
  match mode with
  | .global => none
  | .whitelist => choose (flags &&& uidSelected = 0) .bypass
  | .blacklist => choose (flags &&& uidSelected ≠ 0) .bypass

/-- The user: the bypass list first, then the mode; a mode that has no map drops. -/
def uidPolicy (mode : Mode) : Choice :=
  (choose who.listed .bypass).or
    (if present .uid then
      (choose (uidFlags maps who.uid &&& uidBypass ≠ 0) .bypass).or
        (modeBypass mode (uidFlags maps who.uid))
    else choose (mode ≠ .global) .drop)

/-- Users of the bypass list come before hijacked DNS: over TCP, and with the enhancement always. -/
def forcedBypass : Choice :=
  if policy.enableDnsHijack ∧
      (policy.enableDnsEnhancement ∨ (hook = .connect ∧ c.type = sockStream)) then
    uidPolicy present maps who .global
  else none

/-- Everything that is decided before the destination is looked at. -/
def headPolicy : Choice :=
  (ownGroup who).or (((socketShape hook c).or (explicitNetworkBypass present maps c)).or
    (forcedBypass policy present maps hook c who))

end Socket

/-! ## The destination -/

section Destination

variable (policy : Policy) (present : MapId → Bool) (maps : Maps) (env : Env) (hook : Hook)
  (c : Context) (who : Who) (port : BitVec 16)

/-- IKE and its NAT traversal over UDP. -/
def ipsecBypass : Choice :=
  choose ((hook = .sendmsg ∨ c.type = sockDgram) ∧
    (port = swap16 ikePort ∨ port = swap16 natTPort)) .bypass

/-- A `connect` that is neither TCP nor UDP. -/
def connectProtocol : Choice :=
  choose (hook = .connect ∧ c.protocol ≠ protoTcp ∧ c.protocol ≠ protoUdp) .bypass

/-- Does a `connect` record its peer in the cache of UDP peers? -/
def caches : Prop :=
  hook = .connect ∧ c.protocol = protoUdp ∧
    ¬(policy.enableDnsHijack ∧ port = swap16 dnsPort) ∧ present .udpPeer

instance : Decidable (caches policy present hook c port) :=
  inferInstanceAs (Decidable (_ ∧ _ ∧ ¬_ ∧ _))

/-- A peer that cannot be cached. -/
def incompletePeer (zero : Prop) [Decidable zero] : Choice :=
  choose (caches policy present hook c port ∧ (zero ∨ port = 0 ∨ env.cookie = 0)) .bypass

/-- DNS that a mark decides, or that the tethering service sends. -/
def markedDns : Choice :=
  if port = swap16 dnsPort then
    (choose (c.mark &&& dnsMarkMask = dnsDirectMark) .bypass).or
      ((choose (c.mark &&& dnsMarkMask = dnsProxyDecision) .proxy).or
        (choose ((c.protocol = protoTcp ∨ c.protocol = protoUdp) ∧ who.uid = dnsTetherUid) .proxy))
  else none

/-- DNS without the enhancement. -/
def hijackedDns : Choice :=
  choose ((hook = .sendmsg ∨ c.type = sockStream ∨ c.type = sockDgram) ∧ port = swap16 dnsPort)
    .proxy

/-- Marked or hijacked DNS. -/
def dnsPolicy : Choice :=
  if !policy.enableDnsHijack then none
  else if policy.enableDnsEnhancement then markedDns c who port
  else hijackedDns hook c port

/-- With the enhancement, DNS that the user policy lets through skips the CIDR checks. -/
def enhancedDns : Choice :=
  choose (policy.enableDnsHijack ∧ policy.enableDnsEnhancement ∧ port = swap16 dnsPort) .proxy

/-- The key of an IPv4 address in a trie. -/
def lpm4Key (addr : Word) : List Byte := leBytes 4 (32 : Word) ++ leBytes 4 addr

/-- A map that is there covers the key. -/
def covers (m : MapId) (key : List Byte) : Bool := present m && maps.found m key

/-- The interface the socket is bound to is to be ignored. -/
def ignoredInterface : Choice :=
  choose (c.boundDevIf ≠ 0 ∧ covers present maps .ignoredIfindex (leBytes 4 c.boundDevIf)) .bypass

/-- Zero and loopback destinations. -/
def zeroOrLoopback4 (addr : Word) : Choice :=
  choose (addr = 0 ∨ swap32 addr &&& 0xff000000 = 0x7f000000) .bypass

/-- The CIDR lists of IPv4. -/
def cidr4 (addr : Word) : Choice :=
  (choose (covers present maps .localInterfaceCidr4 (lpm4Key addr)) .bypass).or
  ((choose (covers present maps .proxyCidr4 (lpm4Key addr)) .proxy).or
  ((choose (covers present maps .bypassPrivateCidr4 (lpm4Key addr)) .bypass).or
  ((ignoredInterface present maps c).or
  ((choose (covers present maps .ignoredRouteCidr4 (lpm4Key addr)) .bypass).or
  (choose (covers present maps .directCidr4 (lpm4Key addr)) .bypass)))))

/-- What is decided about an IPv4 destination once it is known. -/
def policy4 (addr : Word) : Choice :=
  (dnsPolicy policy hook c who port).or ((uidPolicy present maps who policy.mode).or
    ((enhancedDns policy port).or ((zeroOrLoopback4 addr).or (cidr4 present maps c addr))))

end Destination

end Bpf2Socks.Cgroup

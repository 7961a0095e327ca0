/-
# Bpf2Socks.Tc.State — the maps of the TC programs and what the kernel decides for them.

The ingress program gives every flow of a hotspot client a token address and remembers it in three
maps: `tc_original_to_token` (the flow's token), `tc_token_to_original` (the way back, for egress)
and `bridge_token_map` (what the bridge looks up).  `tc_fragment_map` holds the verdict of a first
fragment.  Addresses are kept as the source keeps them, in sixteen bytes of which IPv4 uses four.

The programs run from one packet to the next without interruption on their CPU, but the maps are
shared: at every map operation other parties may have removed entries.  That, whether an insertion
finds room, the clock and the success of packet helpers are answers of the environment.
-/
import Bpf2Socks.Lib.Lpm
import Bpf2Socks.Lib.Prog
import Bpf2Socks.Tc.Packet

namespace Bpf2Socks.Tc

open Function (update)
open Lib (Act Lpm Prog)

/-- `AF_INET_VALUE`. -/
def afInet : UInt8 := 2
/-- `AF_INET6_VALUE`. -/
def afInet6 : UInt8 := 10
/-- `IPPROTO_TCP_VALUE`. -/
def protoTcp : UInt8 := 6
/-- `IPPROTO_UDP_VALUE`. -/
def protoUdp : UInt8 := 17

/-- `BPF2SOCKS_TC_RUNTIME_IPV6`. -/
def runtimeIpv6 : UInt16 := 2
/-- `BPF2SOCKS_TC_RUNTIME_DNS_HIJACK`. -/
def runtimeDnsHijack : UInt16 := 4
/-- `BPF2SOCKS_TC_RUNTIME_BYPASS_DIRECT`. -/
def runtimeBypassDirect : UInt16 := 8

/-! ## Keys and values -/

/-- `struct bpf2socks_tc_runtime_control`, less `worker_count`, which only the socket selection
reads. -/
structure RuntimeControl where
  enabled : UInt32
  generation : UInt32
  bridgePort : UInt16
  flags : UInt16
  tokenIpv4Prefix : List UInt8
  tokenIpv6Prefix : List UInt8
  deriving DecidableEq

/-- `struct bpf2socks_tc_original_key`. -/
structure OriginalKey where
  ifindex : UInt32
  family : UInt8
  protocol : UInt8
  clientAddr : List UInt8
  clientPort : UInt16
  originalPort : UInt16
  originalAddr : List UInt8
  deriving DecidableEq

/-- `struct bpf2socks_tc_token_value`. -/
structure TokenValue where
  tokenAddr : List UInt8
  tokenPort : UInt16
  generation : UInt32
  deriving DecidableEq

/-- `struct bpf2socks_tc_reverse_key`. -/
structure ReverseKey where
  ifindex : UInt32
  family : UInt8
  protocol : UInt8
  clientAddr : List UInt8
  clientPort : UInt16
  tokenPort : UInt16
  tokenAddr : List UInt8
  deriving DecidableEq

/-- `struct bpf2socks_tc_original_value`. -/
structure OriginalValue where
  originalAddr : List UInt8
  originalPort : UInt16
  createdAtNs : UInt64
  lastSeenNs : UInt64
  generation : UInt32
  deriving DecidableEq

/-- `struct bpf2socks_token_key_bpf`. -/
structure TokenKey where
  family : UInt8
  protocol : UInt8
  tokenPort : UInt16
  tokenAddr : List UInt8
  clientPort : UInt16
  clientAddr : List UInt8
  deriving DecidableEq

/-- `struct bpf2socks_original_dst_bpf`. -/
structure OriginalDst where
  family : UInt8
  protocol : UInt8
  port : UInt16
  addr : List UInt8
  flags : UInt8
  deriving DecidableEq

/-- `struct bpf2socks_tc_fragment_key`. -/
structure FragmentKey where
  ifindex : UInt32
  family : UInt8
  protocol : UInt8
  id : UInt32
  source : List UInt8
  destination : List UInt8
  deriving DecidableEq

/-- `BPF2SOCKS_TC_FRAGMENT_PASS` and `BPF2SOCKS_TC_FRAGMENT_REWRITE`. -/
inductive FragmentVerdict where
  | pass
  | rewrite
  deriving DecidableEq

/-- `struct bpf2socks_tc_fragment_value`. -/
structure FragmentValue where
  tokenAddr : List UInt8
  generation : UInt32
  verdict : FragmentVerdict
  deriving DecidableEq

/-- The CIDR maps the ingress policy reads, one set for each family. -/
structure CidrMaps where
  localInterface : Lpm
  proxy : Lpm
  bypassPrivate : Lpm
  direct : Lpm

/-! ## The state -/

/-- The maps, and the packet the running program works on. -/
structure State where
  originalToToken : OriginalKey → Option TokenValue
  tokenToOriginal : ReverseKey → Option OriginalValue
  bridgeTokens : TokenKey → Option OriginalDst
  fragments : FragmentKey → Option FragmentValue
  cidr4 : CidrMaps
  cidr6 : CidrMaps
  skb : Skb

/-- An entry that another party removes. -/
inductive Vanish where
  | forward (key : OriginalKey)
  | reverse (key : ReverseKey)
  | bridge (key : TokenKey)
  | fragment (key : FragmentKey)
  deriving DecidableEq

/-- The state without the entry. -/
def State.vanish (s : State) : Vanish → State
  | .forward key => { s with originalToToken := update s.originalToToken key none }
  | .reverse key => { s with tokenToOriginal := update s.tokenToOriginal key none }
  | .bridge key => { s with bridgeTokens := update s.bridgeTokens key none }
  | .fragment key => { s with fragments := update s.fragments key none }

/-- What a program leaves to the kernel. -/
inductive Sys where
  /-- Entries other parties removed since the last map operation. -/
  | preempt
  /-- Does an insertion find memory? -/
  | room
  /-- `ktime_get_ns`. -/
  | now
  /-- Does `skb_pull_data` succeed? -/
  | pullData
  /-- Does a packet helper succeed on bytes that are there? -/
  | helper
  deriving DecidableEq

/-- The kernel's answers. -/
abbrev Sys.Answer : Sys → Type
  | .preempt => List Vanish
  | .room => Bool
  | .now => UInt64
  | .pullData => Bool
  | .helper => Bool

/-- Code of a TC program. -/
abbrev Code (α : Type) := Act Sys.Answer State α

/-- Ask the kernel. -/
def ask (q : Sys) : Code q.Answer := Act.ask q

/-- `TC_ACT_OK`, `TC_ACT_PIPE` and `TC_ACT_SHOT`. -/
inductive Verdict where
  | ok
  | pipe
  | shot
  deriving DecidableEq

/-! ## Map operations -/

/-- One of the four maps: how the state holds it. -/
structure Table (K V : Type) where
  entry : State → K → Option V
  put : State → K → Option V → State

/-- `tc_original_to_token`. -/
def forwardTable : Table OriginalKey TokenValue where
  entry s := s.originalToToken
  put s key value := { s with originalToToken := update s.originalToToken key value }

/-- `tc_token_to_original`. -/
def reverseTable : Table ReverseKey OriginalValue where
  entry s := s.tokenToOriginal
  put s key value := { s with tokenToOriginal := update s.tokenToOriginal key value }

/-- `bridge_token_map`. -/
def bridgeTable : Table TokenKey OriginalDst where
  entry s := s.bridgeTokens
  put s key value := { s with bridgeTokens := update s.bridgeTokens key value }

/-- `tc_fragment_map`. -/
def fragmentTable : Table FragmentKey FragmentValue where
  entry s := s.fragments
  put s key value := { s with fragments := update s.fragments key value }

/-- Between two map operations other parties may have removed entries. -/
def preempt : Code Unit := do
  let gone ← ask .preempt
  Act.modify fun s => gone.foldl State.vanish s

variable {K V : Type}

/-- `map_lookup`. -/
def Table.lookup (t : Table K V) (key : K) : Code (Option V) := do
  preempt
  let s ← Act.get
  pure (t.entry s key)

/-- `map_update` with `BPF_ANY`, or with `BPF_NOEXIST`; true when it returns 0. -/
def Table.update (t : Table K V) (key : K) (value : V) (noexist : Bool) : Code Bool := do
  preempt
  let room ← ask .room
  let s ← Act.get
  if room = false ∨ (noexist = true ∧ (t.entry s key).isSome) then pure false
  else do
    Act.modify fun s => t.put s key (some value)
    pure true

/-- `map_delete`; its result is never looked at. -/
def Table.delete (t : Table K V) (key : K) : Code Unit := do
  preempt
  Act.modify fun s => t.put s key none

end Bpf2Socks.Tc

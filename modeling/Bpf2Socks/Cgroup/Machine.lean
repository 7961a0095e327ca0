/-
# Bpf2Socks.Cgroup.Machine — the machine the cgroup programs run on.

The part of eBPF that the generated `cgroup/sock_addr` programs use, on a little-endian host.  A
register holds a 64-bit number or a pointer: to the context, to the socket, into the stack, to a map
or to a value in a map.  64-bit operations and jumps sign-extend their immediate; 32-bit operations
zero the upper half; a helper call leaves `r1` to `r5` unreadable.  An access the verifier would
refuse has no result, so that a program that ends never made one.

What differs from run to run besides the context and the maps is `Env`: who runs, the socket's
cookie, the random numbers, which map updates the kernel refuses, and which entries of an LRU map it
drops to make room for an update.
-/
import Bpf2Socks.Lib.Asm
import Bpf2Socks.Lib.Lpm

namespace Bpf2Socks.Cgroup

open Lib (Effect Flat Isa Line Lpm Outcome)

abbrev Byte := BitVec 8
abbrev Word := BitVec 32

/-! ## Bytes -/

/-- Byte `i` of a number, least significant first. -/
def byteOf {w : Nat} (x : BitVec w) (i : Nat) : Byte := x.extractLsb' (8 * i) 8

/-- The `n` low bytes of a number as they stand in memory. -/
def leBytes {w : Nat} (n : Nat) (x : BitVec w) : List Byte := (List.range n).map (byteOf x)

/-- The number some bytes of memory stand for. -/
def joinBytes (bytes : List Byte) : BitVec 64 :=
  bytes.foldr (fun b acc => acc <<< 8 ||| b.setWidth 64) 0

/-- `BPF_END | BPF_TO_BE` on 16 bits; also `htons`. -/
def swap16 (x : BitVec 16) : BitVec 16 := byteOf x 0 ++ byteOf x 1

/-- `BPF_END | BPF_TO_BE` on 32 bits; also `htonl`. -/
def swap32 (x : Word) : Word := byteOf x 0 ++ byteOf x 1 ++ byteOf x 2 ++ byteOf x 3

/-- Some bytes of the stack. -/
def readAt (f : Int → Byte) (off : Int) (n : Nat) : List Byte :=
  (List.range n).map fun (i : Nat) => f (off + (i : Int))

/-- The stack with some bytes written. -/
def writeAt (f : Int → Byte) (off : Int) (bytes : List Byte) (i : Int) : Byte :=
  if off ≤ i ∧ i < off + bytes.length then bytes.getD (i - off).toNat 0 else f i

/-! ## Maps -/

/-- The maps a program refers to, by their names in `struct bpf2socks_bpf_runtime`. -/
inductive MapId where
  | uid
  | proxyCidr4
  | bypassPrivateCidr4
  | localInterfaceCidr4
  | directCidr4
  | ignoredRouteCidr4
  | proxyCidr6
  | bypassPrivateCidr6
  | localInterfaceCidr6
  | directCidr6
  | ignoredRouteCidr6
  | ignoredIfindex
  | token
  | udpPeer
  | tcpPeer
  | defaultNetwork
  deriving DecidableEq

/-- How a map finds the entry of a key. -/
inductive MapKind where
  | hash
  | lruHash
  | lpm
  deriving DecidableEq

/-- `BPF_MAP_TYPE_LPM_TRIE` for the CIDR maps, `BPF_MAP_TYPE_LRU_HASH` for those the programs write,
which have 65536 entries; the others are hash maps. -/
def MapId.kind : MapId → MapKind
  | .uid | .ignoredIfindex | .defaultNetwork => .hash
  | .token | .udpPeer | .tcpPeer => .lruHash
  | _ => .lpm

/-- `key_size`. -/
def MapId.keySize : MapId → Nat
  | .uid | .ignoredIfindex | .defaultNetwork => 4
  | .token => 40
  | .udpPeer | .tcpPeer => 16
  | .proxyCidr4 | .bypassPrivateCidr4 | .localInterfaceCidr4 | .directCidr4
  | .ignoredRouteCidr4 => 8
  | .proxyCidr6 | .bypassPrivateCidr6 | .localInterfaceCidr6 | .directCidr6
  | .ignoredRouteCidr6 => 20

/-- `value_size`. -/
def MapId.valueSize : MapId → Nat
  | .uid => 4
  | .token => 24
  | .udpPeer | .tcpPeer => 20
  | _ => 1

/-- What the maps hold.  Values have the size of their map. -/
structure Maps where
  table : MapId → List Byte → Option (List Byte)
  lpm : MapId → Lpm
  sized : ∀ m key value, table m key = some value → value.length = m.valueSize

/-- Does a lookup find an entry?  The key of a trie is a prefix length and an address. -/
def Maps.found (t : Maps) (m : MapId) (key : List Byte) : Bool :=
  match m.kind with
  | .hash | .lruHash => (t.table m key).isSome
  | .lpm => (t.lpm m).found (joinBytes (key.take 4)).toNat ((key.drop 4).map UInt8.ofBitVec)

/-- The maps once the kernel has made room for an update of `m`: an LRU map loses the entries of some
keys, any other map loses none. -/
def Maps.evict (t : Maps) (m : MapId) (evicts : List Byte → Bool) : Maps where
  table m' key := if m' = m ∧ m.kind = .lruHash ∧ evicts key then none else t.table m' key
  lpm := t.lpm
  sized m' key value hv := by
    split at hv
    · cases hv
    · exact t.sized m' key value hv

/-- The maps with an entry put. -/
def Maps.put (t : Maps) (m : MapId) (key value : List Byte) (h : value.length = m.valueSize) :
    Maps where
  table m' key' := if m' = m ∧ key' = key then some value else t.table m' key'
  lpm := t.lpm
  sized m' key' value' hv := by
    split at hv
    · rename_i hk
      cases hv
      rw [h, hk.1]
    · exact t.sized m' key' value' hv

/-! ## The context -/

/-- An IPv6 address as its four words in memory. -/
structure Ip6 where
  w0 : Word
  w1 : Word
  w2 : Word
  w3 : Word
  deriving DecidableEq, Inhabited

/-- The fields of `struct bpf_sock` the programs read. -/
structure Sock where
  boundDevIf : Word
  mark : Word
  state : Word
  dstIp4 : Word
  dstIp6 : Ip6
  dstPort : BitVec 16
  deriving DecidableEq, Inhabited

/-- The fields of `struct bpf_sock_addr` the programs use.  Addresses and ports are in network
order. -/
structure Context where
  userIp4 : Word
  userIp6 : Ip6
  userPort : BitVec 16
  type : Word
  protocol : Word
  sk : Option Sock
  deriving DecidableEq, Inhabited

namespace Off

/-- Offsets in `struct bpf_sock_addr`. -/
def userIp4 : Int := 4
@[inherit_doc userIp4] def userIp6 : Int := 8
@[inherit_doc userIp4] def userPort : Int := 24
@[inherit_doc userIp4] def type : Int := 32
@[inherit_doc userIp4] def protocol : Int := 36
@[inherit_doc userIp4] def sk : Int := 64

/-- Offsets in `struct bpf_sock`. -/
def boundDevIf : Int := 0
@[inherit_doc boundDevIf] def mark : Int := 16
@[inherit_doc boundDevIf] def dstPort : Int := 48
@[inherit_doc boundDevIf] def dstIp4 : Int := 52
@[inherit_doc boundDevIf] def dstIp6 : Int := 56
@[inherit_doc boundDevIf] def state : Int := 72

end Off

/-! ## Registers and memory -/

inductive Reg where
  | r0 | r1 | r2 | r3 | r4 | r5 | r6 | r7 | r8 | r9 | r10
  deriving DecidableEq

/-- What a register holds. -/
inductive Val where
  | num (n : BitVec 64)
  | ctx
  | sock
  | fp (off : Int)
  | map (m : MapId)
  | elem (m : MapId) (key : List Byte)
  /-- Nothing that may be read. -/
  | junk
  deriving DecidableEq

/-- A 32-bit value in a register. -/
def word (x : Word) : Val := .num (x.setWidth 64)

/-- A 16-bit value in a register. -/
def half (x : BitVec 16) : Val := .num (x.setWidth 64)

inductive Size where
  | b | h | w | dw
  deriving DecidableEq

def Size.bytes : Size → Nat
  | .b => 1
  | .h => 2
  | .w => 4
  | .dw => 8

/-- What differs from run to run. -/
structure Env where
  /-- `get_current_uid_gid`: the group above the user. -/
  uidGid : BitVec 64
  /-- `get_socket_cookie`. -/
  cookie : BitVec 64
  /-- The results of `get_prandom_u32`, by the number of helper calls answered before. -/
  random : Nat → Word
  /-- Does the kernel refuse an update, for want of memory or because another CPU came first? -/
  refuses : Nat → Bool
  /-- The keys whose entries the kernel drops from an LRU map before it makes an update.  Some have to
  go when the map is full, and the kernel may drop some before. -/
  evicts : Nat → List Byte → Bool

structure State where
  reg : Reg → Val
  stack : Int → Byte
  ctx : Context
  maps : Maps
  /-- How many random numbers and updates there were. -/
  calls : Nat

def State.set (s : State) (r : Reg) (v : Val) : State :=
  { s with reg := fun r' => if r' = r then v else s.reg r' }

def State.write (s : State) (off : Int) (bytes : List Byte) : State :=
  { s with stack := writeAt s.stack off bytes }

/-- A load from the context. -/
def Context.load (c : Context) (size : Size) (off : Int) : Option Val :=
  match size with
  | .w =>
      if off = Off.userIp4 then some (word c.userIp4)
      else if off = Off.userIp6 then some (word c.userIp6.w0)
      else if off = Off.userIp6 + 4 then some (word c.userIp6.w1)
      else if off = Off.userIp6 + 8 then some (word c.userIp6.w2)
      else if off = Off.userIp6 + 12 then some (word c.userIp6.w3)
      else if off = Off.userPort then some (half c.userPort)
      else if off = Off.type then some (word c.type)
      else if off = Off.protocol then some (word c.protocol)
      else none
  | .dw =>
      if off = Off.sk then some (if c.sk.isSome then .sock else .num 0) else none
  | _ => none

/-- A store into the context; of a port only the 16 bits count. -/
def Context.store (c : Context) (size : Size) (off : Int) (x : BitVec 64) : Option Context :=
  match size with
  | .w =>
      if off = Off.userIp4 then some { c with userIp4 := x.setWidth 32 }
      else if off = Off.userIp6 then some { c with userIp6 := { c.userIp6 with w0 := x.setWidth 32 } }
      else if off = Off.userIp6 + 4 then
        some { c with userIp6 := { c.userIp6 with w1 := x.setWidth 32 } }
      else if off = Off.userIp6 + 8 then
        some { c with userIp6 := { c.userIp6 with w2 := x.setWidth 32 } }
      else if off = Off.userIp6 + 12 then
        some { c with userIp6 := { c.userIp6 with w3 := x.setWidth 32 } }
      else if off = Off.userPort then some { c with userPort := x.setWidth 16 }
      else none
  | _ => none

/-- A load from the socket. -/
def Sock.load (k : Sock) (size : Size) (off : Int) : Option Val :=
  match size with
  | .w =>
      if off = Off.boundDevIf then some (word k.boundDevIf)
      else if off = Off.mark then some (word k.mark)
      else if off = Off.state then some (word k.state)
      else if off = Off.dstIp4 then some (word k.dstIp4)
      else if off = Off.dstIp6 then some (word k.dstIp6.w0)
      else if off = Off.dstIp6 + 4 then some (word k.dstIp6.w1)
      else if off = Off.dstIp6 + 8 then some (word k.dstIp6.w2)
      else if off = Off.dstIp6 + 12 then some (word k.dstIp6.w3)
      else none
  | .h => if off = Off.dstPort then some (half k.dstPort) else none
  | _ => none

/-- A load through a pointer. -/
def State.load (s : State) (size : Size) (base : Val) (off : Int) : Option Val :=
  match base with
  | .ctx => s.ctx.load size off
  | .sock => s.ctx.sk.bind fun k => k.load size off
  | .fp b => some (.num (joinBytes (readAt s.stack (b + off) size.bytes)))
  | .elem m key =>
      (s.maps.table m key).bind fun value =>
        if 0 ≤ off ∧ off.toNat + size.bytes ≤ m.valueSize then
          some (.num (joinBytes ((value.drop off.toNat).take size.bytes)))
        else none
  | _ => none

/-- A store through a pointer. -/
def State.store (s : State) (size : Size) (base : Val) (off : Int) (x : BitVec 64) : Option State :=
  match base with
  | .fp b => some (s.write (b + off) (leBytes size.bytes x))
  | .ctx => (s.ctx.store size off x).map fun c => { s with ctx := c }
  | _ => none

/-! ## Instructions -/

inductive Alu where
  | mov | add | and | or | xor | rsh | mul
  deriving DecidableEq

/-- The second operand: `BPF_X` or `BPF_K`. -/
inductive Src where
  | reg (r : Reg)
  | imm (i : Word)
  deriving DecidableEq

/-- The helpers the programs call. -/
inductive Func where
  | mapLookupElem
  | mapUpdateElem
  | getCurrentUidGid
  | getSocketCookie
  | getPrandomU32
  deriving DecidableEq

/-- Instructions other than jumps.  A map load takes two places. -/
inductive Insn where
  | alu64 (op : Alu) (dst : Reg) (src : Src)
  | alu32 (op : Alu) (dst : Reg) (src : Src)
  | be (dst : Reg) (bits : Nat)
  | st (size : Size) (dst : Reg) (off : Int) (imm : Word)
  | stx (size : Size) (dst src : Reg) (off : Int)
  | ldx (size : Size) (dst src : Reg) (off : Int)
  | ldMapFd (dst : Reg) (m : MapId)
  | ldMapHigh
  | call (f : Func)
  | exit
  deriving DecidableEq

/-- `BPF_JA`, `BPF_JEQ` and `BPF_JNE`. -/
inductive Cond where
  | ja
  | jeq (dst : Reg) (src : Src)
  | jne (dst : Reg) (src : Src)
  deriving DecidableEq

/-- An immediate, sign-extended. -/
def immVal (i : Word) : Val := .num (i.signExtend 64)

/-- The value of an operand. -/
def State.operand (s : State) : Src → Val
  | .reg r => s.reg r
  | .imm i => immVal i

/-- A binary operation on numbers. -/
def Alu.apply {w : Nat} : Alu → BitVec w → BitVec w → BitVec w
  | .mov, _, b => b
  | .add, a, b => a + b
  | .and, a, b => a &&& b
  | .or, a, b => a ||| b
  | .xor, a, b => a ^^^ b
  | .rsh, a, b => a >>> (b.toNat % w)
  | .mul, a, b => a * b

/-- A 64-bit operation: a move of anything, a step within the stack, or arithmetic. -/
def alu64 (op : Alu) (a b : Val) : Option Val :=
  match op with
  | .mov => some b
  | op =>
      match a, b with
      | .num a, .num b => some (.num (op.apply a b))
      | .fp off, .num b => if op = .add then some (.fp (off + b.toInt)) else none
      | _, _ => none

/-- A 32-bit operation; the upper half of the result is zero. -/
def alu32 (op : Alu) (a b : Val) : Option Val :=
  match op, a, b with
  | .mov, _, .num b => some (word (b.setWidth 32))
  | op, .num a, .num b => some (word (op.apply (a.setWidth 32) (b.setWidth 32)))
  | _, _, _ => none

/-- Byte swap to network order. -/
def beVal (bits : Nat) (a : Val) : Option Val :=
  match a with
  | .num a =>
      if bits = 16 then some (half (swap16 (a.setWidth 16)))
      else if bits = 32 then some (word (swap32 (a.setWidth 32)))
      else none
  | _ => none

/-- A comparison; a pointer is only ever compared with zero, and is not zero. -/
def sameVal (a b : Val) : Option Bool :=
  match a, b with
  | .num a, .num b => some (a = b)
  | .sock, .num b => if b = 0 then some false else none
  | .elem _ _, .num b => if b = 0 then some false else none
  | _, _ => none

/-- What a helper does before it leaves `r1` to `r5` unreadable. -/
def helper (env : Env) (f : Func) (s : State) : Option State :=
  match f with
  | .getCurrentUidGid => some (s.set .r0 (.num env.uidGid))
  | .getSocketCookie => if s.reg .r1 = .ctx then some (s.set .r0 (.num env.cookie)) else none
  | .getPrandomU32 =>
      some { s.set .r0 (word (env.random s.calls)) with calls := s.calls + 1 }
  | .mapLookupElem =>
      match s.reg .r1, s.reg .r2 with
      | .map m, .fp off =>
          let key := readAt s.stack off m.keySize
          some (s.set .r0 (if s.maps.found m key then .elem m key else .num 0))
      | _, _ => none
  | .mapUpdateElem =>
      match s.reg .r1, s.reg .r2, s.reg .r3, s.reg .r4 with
      | .map m, .fp off, .fp voff, .num flags =>
          let key := readAt s.stack off m.keySize
          let value := readAt s.stack voff m.valueSize
          -- room is made first, also for an update that is refused
          let room := s.maps.evict m (env.evicts s.calls)
          -- `BPF_NOEXIST` is 1
          if env.refuses s.calls ∨ (flags = 1 ∧ room.found m key) then
            some { s.set .r0 (.num (-1)) with calls := s.calls + 1, maps := room }
          else
            some { s.set .r0 (.num 0) with
              calls := s.calls + 1
              maps := room.put m key value (by simp [value, readAt]) }
      | _, _, _, _ => none

/-- `r1` to `r5` after a helper call. -/
def State.clobber (s : State) : State :=
  { s with reg := fun r =>
      match r with
      | .r1 | .r2 | .r3 | .r4 | .r5 => .junk
      | r => s.reg r }

/-- The next state, if there is one. -/
def toEffect (s : Option State) : Effect State :=
  match s with
  | some s => .next s
  | none => .stuck

def step (env : Env) (i : Insn) (s : State) : Effect State :=
  match i with
  | .alu64 op dst src => toEffect ((alu64 op (s.reg dst) (s.operand src)).map (s.set dst))
  | .alu32 op dst src => toEffect ((alu32 op (s.reg dst) (s.operand src)).map (s.set dst))
  | .be dst bits => toEffect ((beVal bits (s.reg dst)).map (s.set dst))
  | .st size dst off imm => toEffect (s.store size (s.reg dst) off (imm.signExtend 64))
  | .stx size dst src off =>
      match s.reg src with
      | .num x => toEffect (s.store size (s.reg dst) off x)
      | _ => .stuck
  | .ldx size dst src off => toEffect ((s.load size (s.reg src) off).map (s.set dst))
  | .ldMapFd dst m => .next (s.set dst (.map m))
  | .ldMapHigh => .next s
  | .call f => toEffect ((helper env f s).map State.clobber)
  | .exit => .halt s

def holds (c : Cond) (s : State) : Option Bool :=
  match c with
  | .ja => some true
  | .jeq dst src => sameVal (s.reg dst) (s.operand src)
  | .jne dst src => (sameVal (s.reg dst) (s.operand src)).map not

/-- The instruction set. -/
def isa (env : Env) : Isa Insn Cond State := ⟨step env, holds⟩

/-- The state a program starts in: the context in `r1`, and an unknown stack. -/
def start (c : Context) (maps : Maps) (stack : Int → Byte) : State where
  reg r := if r = .r1 then .ctx else if r = .r10 then .fp 0 else .junk
  stack := stack
  ctx := c
  maps := maps
  calls := 0

end Bpf2Socks.Cgroup

/-
# Bpf2Socks.Dns.Packet — what the fast path reads of a DNS message.

The fast path looks at the id, at the query/response bit, and at the first question, which it
reduces to a 32-bit fingerprint of its lower-cased name, its type and its class.  Names may be
compressed; the number of pointers followed is bounded, and between two pointers every label moves
the cursor forward, so the recursion is on the pointers left and then on the bytes left.
-/
import Mathlib.Data.List.Basic

namespace Bpf2Socks.Dns

/-- `BPF2SOCKS_DNS_HEADER_SIZE`. -/
def headerSize : Nat := 12

/-- `BPF2SOCKS_DNS_MAX_POINTER_HOPS`. -/
def maxPointerHops : Nat := 16

/-- `struct bpf2socks_dns_packet_info`. -/
structure PacketInfo where
  id : UInt16
  questionFingerprint : UInt32
  hasQuestion : Bool
  deriving DecidableEq

/-- A byte of the packet. -/
def byteAt (packet : List UInt8) (offset : Nat) : UInt8 := packet.getD offset 0

/-- `read_be16`. -/
def readBe16 (packet : List UInt8) (offset : Nat) : UInt16 :=
  (byteAt packet offset).toUInt16 <<< 8 ||| (byteAt packet (offset + 1)).toUInt16

/-- `fnv1a_update`. -/
def fnv1aUpdate (hash : UInt32) (value : UInt8) : UInt32 := (hash ^^^ value.toUInt32) * 16777619

/-- `ascii_lower`. -/
def asciiLower (value : UInt8) : UInt8 := if 65 ≤ value ∧ value ≤ 90 then value + 32 else value

/-- The labels of a name from `cursor` on, with the bytes left as fuel; `jump` follows a pointer.
The result is the offset after the name and the hash. -/
def labels (packet : List UInt8) (jump : Nat → UInt32 → Option UInt32) :
    Nat → Nat → UInt32 → Option (Nat × UInt32)
  | 0, _, _ => none
  | fuel + 1, cursor, hash =>
      let len := byteAt packet cursor
      if cursor ≥ packet.length then none
      else if len &&& 0xc0 = 0xc0 then
        if cursor + 1 ≥ packet.length then none
        else
          let pointer := (readBe16 packet cursor &&& 0x3fff).toNat
          if pointer ≥ packet.length then none
          else (jump pointer hash).map fun h => (cursor + 2, h)
      else if len &&& 0xc0 ≠ 0 then none
      else if len = 0 then some (cursor + 1, fnv1aUpdate hash 0)
      else if cursor + 1 + len.toNat > packet.length then none
      else
        let label := (packet.drop (cursor + 1)).take len.toNat
        labels packet jump fuel (cursor + 1 + len.toNat)
          (label.foldl (fun h b => fnv1aUpdate h (asciiLower b)) (fnv1aUpdate hash len))

/-- A name with the number of pointers that may still be followed. -/
def nameFrom (packet : List UInt8) : Nat → Nat → UInt32 → Option (Nat × UInt32)
  | 0, cursor, hash => labels packet (fun _ _ => none) (packet.length - cursor) cursor hash
  | hops + 1, cursor, hash =>
      labels packet (fun pointer h => (nameFrom packet hops pointer h).map (·.2))
        (packet.length - cursor) cursor hash

/-- `fingerprint_name`. -/
def fingerprintName (packet : List UInt8) (offset : Nat) (hash : UInt32) : Option (Nat × UInt32) :=
  nameFrom packet maxPointerHops offset hash

/-- `parse_dns_packet`. -/
def parseDnsPacket (packet : List UInt8) (expectResponse : Bool) : Option PacketInfo :=
  if packet.length < headerSize then none
  else if decide (byteAt packet 2 &&& 0x80 ≠ 0) ≠ expectResponse then none
  else
    let id := readBe16 packet 0
    let qdcount := readBe16 packet 4
    if qdcount = 0 then if expectResponse then some ⟨id, 0, false⟩ else none
    else
      match fingerprintName packet headerSize 2166136261 with
      | none => none
      | some (questionEnd, hash) =>
          if questionEnd + 4 > packet.length then none
          else
            let hash := ((packet.drop questionEnd).take 4).foldl fnv1aUpdate hash
            some ⟨id, if hash = 0 then 1 else hash, true⟩

/-- `bpf2socks_dns_parse_query`. -/
def parseQuery (packet : List UInt8) : Option PacketInfo := parseDnsPacket packet false

/-- `bpf2socks_dns_parse_response`. -/
def parseResponse (packet : List UInt8) : Option PacketInfo := parseDnsPacket packet true

/-- `bpf2socks_dns_set_id`. -/
def setId (packet : List UInt8) (id : UInt16) : List UInt8 :=
  match packet with
  | _ :: _ :: rest => (id >>> 8).toUInt8 :: id.toUInt8 :: rest
  | _ => packet

/-- What is parsed is at least a header long, and its id is the first two bytes. -/
theorem parseDnsPacket_some {packet : List UInt8} {expect : Bool} {info : PacketInfo}
    (h : parseDnsPacket packet expect = some info) :
    headerSize ≤ packet.length ∧ info.id = readBe16 packet 0 := by
  unfold parseDnsPacket at h
  split at h
  · simp at h
  · rename_i hlen
    refine ⟨Nat.le_of_not_lt hlen, ?_⟩
    dsimp only at h
    split at h
    · simp at h
    · split at h
      · split at h
        · rw [← Option.some.inj h]
        · simp at h
      · split at h
        · simp at h
        · split at h
          · simp at h
          · rw [← Option.some.inj h]

/-- The two bytes of an id make it up again. -/
theorem bytes_of_id (id : UInt16) :
    ((id >>> 8).toUInt8).toUInt16 <<< 8 ||| id.toUInt8.toUInt16 = id := by
  apply UInt16.toNat_inj.mp
  have hlt := id.toNat_lt
  have hhigh : (id.toNat >>> 8 % 256) <<< 8 % 65536 = (id.toNat / 256) <<< 8 := by
    rw [Nat.shiftRight_eq_div_pow, Nat.shiftLeft_eq, Nat.shiftLeft_eq]
    omega
  simp only [UInt16.toNat_or, UInt16.toNat_shiftLeft, UInt8.toNat_toUInt16, UInt16.toNat_toUInt8,
    UInt16.toNat_shiftRight, UInt16.reduceToNat, Nat.reduceMod, Nat.reducePow]
  rw [hhigh, ← Nat.shiftLeft_add_eq_or_of_lt (by omega), Nat.shiftLeft_eq]
  omega

/-- A rewritten packet carries the new id. -/
theorem readBe16_setId {packet : List UInt8} (h : 2 ≤ packet.length) (id : UInt16) :
    readBe16 (setId packet id) 0 = id := by
  match packet, h with
  | a :: b :: rest, _ =>
      exact bytes_of_id id

end Bpf2Socks.Dns

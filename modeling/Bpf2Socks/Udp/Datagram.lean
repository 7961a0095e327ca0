/-
# Bpf2Socks.Udp.Datagram — SOCKS5 UDP datagrams, written and parsed.

A datagram to the relay is a header and a payload: two reserved bytes and a fragment number, all
zero, then the type of the address, the address and the port.  The header is written by one piece of
code and parsed by another.  The parser knows one address type more than the writer: a server that
names a domain gives no address, and only the port is kept.

Reads of the packet are checked here against its end, so that a parser that read past it would have
no result at all.
-/
import Bpf2Socks.Udp.Associate
import Bpf2Socks.Dns.Packet
import Mathlib.Data.List.Forall2

namespace Bpf2Socks.Udp

/-! ## Writing -/

/-- `BPF2SOCKS_SOCKS5_UDP_HEADER_CAP`. -/
def socks5UdpHeaderCap : Nat := 22

/-- The header `bpf2socks_socks5_udp_sendmmsg` writes for a message. -/
def socks5UdpHeader (addr : DstAddr) : Option (List UInt8) :=
  (socks5WriteAddr (socks5UdpHeaderCap - 3) addr).map ([0, 0, 0] ++ ·)

/-- The datagrams `bpf2socks_socks5_udp_sendmmsg` passes to the kernel for a batch of addresses and
payloads, if it passes any. -/
def socks5UdpDatagrams : List (DstAddr × List UInt8) → Option (List (List UInt8))
  | [] => some []
  | (addr, payload) :: messages =>
      match socks5UdpHeader addr with
      | none => none
      | some header => (socks5UdpDatagrams messages).map ((header ++ payload) :: ·)

/-! ## Parsing -/

/-- The errors of the parser. -/
inductive DatagramError where
  | eproto
  | eafnosupport
  deriving DecidableEq

/-- `struct bpf2socks_udp_msg` as the parser fills it in; the payload is where it begins in the packet
and its length. -/
structure ParsedDatagram where
  addr : DstAddr
  payload : Nat
  payloadLen : Nat
  deriving DecidableEq

/-- A `memcpy` from the packet, if it stays within it. -/
def copyFrom (packet : List UInt8) (pos n : Nat) : Option (List UInt8) :=
  if pos + n ≤ packet.length then some ((packet.drop pos).take n) else none

/-- A port in network order. -/
def portOf (hi lo : UInt8) : UInt16 := hi.toUInt16 <<< 8 ||| lo.toUInt16

/-- The end of the parser: the port, and the payload after it. -/
def parsePort (packet : List UInt8) (pos : Nat) (family : Family) (addr : List UInt8) :
    Option (Except DatagramError ParsedDatagram) := do
  let hi ← packet[pos]?
  let lo ← packet[pos + 1]?
  some (.ok ⟨⟨family, portOf hi lo, addr⟩, pos + 2, packet.length - (pos + 2)⟩)

/-- `parse_socks5_udp_datagram` after the reserved bytes and the fragment number. -/
def parseAddress (packet : List UInt8) : Option (Except DatagramError ParsedDatagram) := do
  let type ← packet[3]?
  if type = 1 then
    if packet.length < 3 + 1 + 4 + 2 then some (.error .eproto)
    else do
      let addr ← copyFrom packet 4 4
      parsePort packet 8 .inet (addr ++ List.replicate 12 0)
  else if type = 4 then
    if packet.length < 3 + 1 + 16 + 2 then some (.error .eproto)
    else do
      let addr ← copyFrom packet 4 16
      parsePort packet 20 .inet6 addr
  else if type = 3 then
    if packet.length < 4 + 1 then some (.error .eproto)
    else do
      let n ← packet[4]?
      if packet.length < 4 + 1 + n.toNat + 2 then some (.error .eproto)
      else parsePort packet (4 + (1 + n.toNat)) .unspec noToken
  else some (.error .eafnosupport)

/-- `parse_socks5_udp_datagram`; `none` is a read outside the packet. -/
def parseSocks5UdpDatagram (packet : List UInt8) : Option (Except DatagramError ParsedDatagram) :=
  if packet.length < 4 then some (.error .eproto)
  else do
    let b0 ← packet[0]?
    if b0 ≠ 0 then some (.error .eproto)
    else do
      let b1 ← packet[1]?
      if b1 ≠ 0 then some (.error .eproto)
      else do
        let b2 ← packet[2]?
        if b2 ≠ 0 then some (.error .eproto) else parseAddress packet

/-! ## What a header is -/

/-- A header, and the address it names. -/
inductive Socks5UdpHeader : List UInt8 → DstAddr → Prop
  | ipv4 {addr : List UInt8} {hi lo : UInt8} : addr.length = 4 →
      Socks5UdpHeader ([0, 0, 0, 1] ++ addr ++ [hi, lo])
        ⟨.inet, portOf hi lo, addr ++ List.replicate 12 0⟩
  | ipv6 {addr : List UInt8} {hi lo : UInt8} : addr.length = 16 →
      Socks5UdpHeader ([0, 0, 0, 4] ++ addr ++ [hi, lo]) ⟨.inet6, portOf hi lo, addr⟩
  | domain {n : UInt8} {name : List UInt8} {hi lo : UInt8} : name.length = n.toNat →
      Socks5UdpHeader ([0, 0, 0, 3, n] ++ name ++ [hi, lo]) ⟨.unspec, portOf hi lo, noToken⟩

/-! ## Reading on -/

/-- The port stands where the parser has got to, and the payload follows. -/
theorem parsePort_append (pre : List UInt8) {pos : Nat} (hpos : pre.length = pos)
    (payload addr : List UInt8) (hi lo : UInt8) (family : Family) :
    parsePort (pre ++ [hi, lo] ++ payload) pos family addr =
      some (.ok ⟨⟨family, portOf hi lo, addr⟩, (pre ++ [hi, lo]).length, payload.length⟩) := by
  subst hpos
  have hhi : (pre ++ [hi, lo] ++ payload)[pre.length]? = some hi := by simp
  have hlo : (pre ++ [hi, lo] ++ payload)[pre.length + 1]? = some lo := by simp
  have hlen : (pre ++ [hi, lo] ++ payload).length - (pre.length + 2) = payload.length := by
    simp only [List.length_append, List.length_cons, List.length_nil]
    omega
  rw [parsePort, hhi, hlo, hlen]
  simp

/-- A part of the packet is copied as it stands. -/
theorem copyFrom_append (pre : List UInt8) {part : List UInt8} {pos n : Nat}
    (hpos : pre.length = pos) (hn : part.length = n) (rest : List UInt8) :
    copyFrom (pre ++ part ++ rest) pos n = some part := by
  subst hpos hn
  rw [copyFrom, if_pos (by simp), List.append_assoc, List.drop_left, List.take_left]

/-- After three zeros it is the address that decides. -/
theorem parseSocks5UdpDatagram_zeros (type : UInt8) (rest : List UInt8) :
    parseSocks5UdpDatagram ([0, 0, 0, type] ++ rest) = parseAddress ([0, 0, 0, type] ++ rest) := by
  have hlen : ¬([0, 0, 0, type] ++ rest).length < 4 := by simp
  rw [parseSocks5UdpDatagram, if_neg hlen]
  rfl

/-- The branch for IPv4 addresses. -/
theorem parseAddress_ipv4 (rest : List UInt8) : parseAddress ([0, 0, 0, 1] ++ rest) =
    if rest.length < 6 then some (.error .eproto)
    else (copyFrom ([0, 0, 0, 1] ++ rest) 4 4).bind fun addr =>
      parsePort ([0, 0, 0, 1] ++ rest) 8 .inet (addr ++ List.replicate 12 0) := by
  have hlen : ([0, 0, 0, 1] ++ rest).length < 3 + 1 + 4 + 2 ↔ rest.length < 6 := by
    simp only [List.length_append, List.length_cons, List.length_nil]
    omega
  simp only [← hlen]
  rfl

/-- The branch for IPv6 addresses. -/
theorem parseAddress_ipv6 (rest : List UInt8) : parseAddress ([0, 0, 0, 4] ++ rest) =
    if rest.length < 18 then some (.error .eproto)
    else (copyFrom ([0, 0, 0, 4] ++ rest) 4 16).bind fun addr =>
      parsePort ([0, 0, 0, 4] ++ rest) 20 .inet6 addr := by
  have hlen : ([0, 0, 0, 4] ++ rest).length < 3 + 1 + 16 + 2 ↔ rest.length < 18 := by
    simp only [List.length_append, List.length_cons, List.length_nil]
    omega
  simp only [← hlen]
  rfl

/-- The branch for domains. -/
theorem parseAddress_domain (n : UInt8) (rest : List UInt8) :
    parseAddress ([0, 0, 0, 3, n] ++ rest) =
      if rest.length < n.toNat + 2 then some (.error .eproto)
      else parsePort ([0, 0, 0, 3, n] ++ rest) (4 + (1 + n.toNat)) .unspec noToken := by
  have hlen : ([0, 0, 0, 3, n] ++ rest).length < 4 + 1 + n.toNat + 2 ↔
      rest.length < n.toNat + 2 := by
    simp only [List.length_append, List.length_cons, List.length_nil]
    omega
  have hfive : ¬([0, 0, 0, 3, n] ++ rest).length < 4 + 1 := by simp
  simp only [← hlen]
  exact (if_neg hfive : (if ([0, 0, 0, 3, n] ++ rest).length < 4 + 1 then
    some (Except.error DatagramError.eproto) else _) = _)

/-! ## The two directions -/

/-- What begins with a header is accepted, with its address and what follows it. -/
theorem Socks5UdpHeader.parse {header : List UInt8} {addr : DstAddr}
    (h : Socks5UdpHeader header addr) (payload : List UInt8) :
    parseSocks5UdpDatagram (header ++ payload) =
      some (.ok ⟨addr, header.length, payload.length⟩) := by
  cases h with
  | @ipv4 addr hi lo hlen =>
      have hshort : ¬(addr ++ [hi, lo] ++ payload).length < 6 := by
        simp only [List.length_append, List.length_cons, List.length_nil]
        omega
      have hcopy : copyFrom ([0, 0, 0, 1] ++ addr ++ ([hi, lo] ++ payload)) 4 4 = some addr :=
        copyFrom_append _ rfl hlen _
      have hpos : ([0, 0, 0, 1] ++ addr).length = 8 := by simp [hlen]
      have hport := parsePort_append _ hpos payload (addr ++ List.replicate 12 0) hi lo .inet
      simp only [List.append_assoc] at hshort hcopy hport ⊢
      rw [parseSocks5UdpDatagram_zeros, parseAddress_ipv4, if_neg hshort, hcopy, Option.bind_some,
        hport]
  | @ipv6 addr hi lo hlen =>
      have hshort : ¬(addr ++ [hi, lo] ++ payload).length < 18 := by
        simp only [List.length_append, List.length_cons, List.length_nil]
        omega
      have hcopy : copyFrom ([0, 0, 0, 4] ++ addr ++ ([hi, lo] ++ payload)) 4 16 = some addr :=
        copyFrom_append _ rfl hlen _
      have hpos : ([0, 0, 0, 4] ++ addr).length = 20 := by simp [hlen]
      have hport := parsePort_append _ hpos payload addr hi lo .inet6
      simp only [List.append_assoc] at hshort hcopy hport ⊢
      rw [parseSocks5UdpDatagram_zeros, parseAddress_ipv6, if_neg hshort, hcopy, Option.bind_some,
        hport]
  | @domain n name hi lo hlen =>
      have hshort : ¬(name ++ [hi, lo] ++ payload).length < n.toNat + 2 := by
        simp only [List.length_append, List.length_cons, List.length_nil]
        omega
      have hpos : ([0, 0, 0, 3, n] ++ name).length = 4 + (1 + n.toNat) := by
        simp only [List.length_append, List.length_cons, List.length_nil]
        omega
      have hport := parsePort_append _ hpos payload noToken hi lo .unspec
      simp only [List.append_assoc] at hshort hport ⊢
      show parseSocks5UdpDatagram ([0, 0, 0, 3] ++ (n :: (name ++ ([hi, lo] ++ payload)))) = _
      rw [parseSocks5UdpDatagram_zeros]
      show parseAddress ([0, 0, 0, 3, n] ++ (name ++ ([hi, lo] ++ payload))) = _
      rw [parseAddress_domain, if_neg hshort, hport]

/-- A list that is long enough begins with as many elements and two more. -/
theorem exists_split {rest : List UInt8} (n : Nat) (h : ¬rest.length < n + 2) :
    ∃ part hi lo payload, rest = part ++ [hi, lo] ++ payload ∧ part.length = n := by
  have hn : n < rest.length := by omega
  have hn' : n + 1 < rest.length := by omega
  refine ⟨rest.take n, rest[n], rest[n + 1], rest.drop (n + 2), ?_, by rw [List.length_take]; omega⟩
  conv_lhs => rw [← List.take_append_drop n rest, List.drop_eq_getElem_cons hn,
    List.drop_eq_getElem_cons hn']
  simp

/-- Every packet is either refused or begins with a header. -/
theorem parse_refused_or_header (packet : List UInt8) :
    (∃ e, parseSocks5UdpDatagram packet = some (.error e)) ∨
      ∃ header payload addr, packet = header ++ payload ∧ Socks5UdpHeader header addr := by
  match packet with
  | [] | [_] | [_, _] | [_, _, _] => exact .inl ⟨.eproto, rfl⟩
  | b0 :: b1 :: b2 :: type :: rest =>
      have hlen : ¬(b0 :: b1 :: b2 :: type :: rest).length < 4 := by simp
      by_cases h0 : b0 = 0
      swap
      · refine .inl ⟨.eproto, ?_⟩
        rw [parseSocks5UdpDatagram, if_neg hlen]
        exact if_pos h0
      by_cases h1 : b1 = 0
      swap
      · refine .inl ⟨.eproto, ?_⟩
        subst h0
        rw [parseSocks5UdpDatagram, if_neg hlen]
        exact if_pos h1
      by_cases h2 : b2 = 0
      swap
      · refine .inl ⟨.eproto, ?_⟩
        subst h0 h1
        rw [parseSocks5UdpDatagram, if_neg hlen]
        exact if_pos h2
      subst h0 h1 h2
      -- RSV and FRAG are zero; what is left depends on ATYP
      have hzeros := parseSocks5UdpDatagram_zeros type rest
      by_cases ht1 : type = 1
      · subst ht1
        by_cases hshort : rest.length < 6
        · exact .inl ⟨.eproto, hzeros.trans ((parseAddress_ipv4 rest).trans (if_pos hshort))⟩
        · obtain ⟨addr, hi, lo, payload, rfl, haddr⟩ := exists_split 4 hshort
          exact .inr ⟨[0, 0, 0, 1] ++ addr ++ [hi, lo], payload, _, by simp, .ipv4 haddr⟩
      by_cases ht4 : type = 4
      · subst ht4
        by_cases hshort : rest.length < 18
        · exact .inl ⟨.eproto, hzeros.trans ((parseAddress_ipv6 rest).trans (if_pos hshort))⟩
        · obtain ⟨addr, hi, lo, payload, rfl, haddr⟩ := exists_split 16 hshort
          exact .inr ⟨[0, 0, 0, 4] ++ addr ++ [hi, lo], payload, _, by simp, .ipv6 haddr⟩
      by_cases ht3 : type = 3
      · subst ht3
        cases rest with
        | nil => exact .inl ⟨.eproto, rfl⟩
        | cons n rest =>
            by_cases hshort : rest.length < n.toNat + 2
            · exact .inl ⟨.eproto, hzeros.trans ((parseAddress_domain n rest).trans (if_pos hshort))⟩
            · obtain ⟨name, hi, lo, payload, rfl, hname⟩ := exists_split n.toNat hshort
              exact .inr ⟨[0, 0, 0, 3, n] ++ name ++ [hi, lo], payload, _, by simp, .domain hname⟩
      · refine .inl ⟨.eafnosupport, hzeros.trans ?_⟩
        show (if type = 1 then _ else _) = _
        rw [if_neg ht1, if_neg ht4, if_neg ht3]

/-- Two bytes in network order are the port they were written from. -/
theorem portOf_bytes (port : UInt16) : portOf (port >>> 8).toUInt8 port.toUInt8 = port :=
  Dns.bytes_of_id port

/-- An IPv4 or IPv6 destination. -/
structure Destination where
  dst : DstAddr
  ip : dst.family = .inet ∨ dst.family = .inet6
  full : dst.addr.length = 16

/-- What is written for a destination is a header that names it. -/
theorem socks5UdpHeader_spec (d : Destination) : ∃ header addr,
    socks5UdpHeader d.dst = some header ∧ Socks5UdpHeader header addr ∧
      addr.family = d.dst.family ∧ addr.port = d.dst.port ∧
      addr.addr.take (addressLength addr) = d.dst.addr.take (addressLength d.dst) := by
  have hip := d.ip
  have hfull := d.full
  generalize d.dst = dst at hip hfull ⊢
  obtain ⟨family, port, addr⟩ := dst
  obtain rfl | rfl : family = .inet ∨ family = .inet6 := hip
  · have hlen : (addr.take 4).length = 4 := by
      have hsixteen : addr.length = 16 := hfull
      rw [List.length_take]
      omega
    refine ⟨_, _, rfl, Socks5UdpHeader.ipv4 hlen, rfl, portOf_bytes port, ?_⟩
    show (addr.take 4 ++ _).take 4 = addr.take 4
    rw [List.take_append_of_le_length (Nat.le_of_eq hlen.symm), List.take_take]
    rfl
  · have htake : addr.take 16 = addr := List.take_of_length_le (Nat.le_of_eq hfull)
    have hlen : (addr.take 16).length = 16 := htake.symm ▸ hfull
    refine ⟨_, _, rfl, Socks5UdpHeader.ipv6 hlen, rfl, portOf_bytes port, ?_⟩
    show (addr.take 16).take 16 = addr.take 16
    rw [htake, htake]

/-- The parser gets back from a datagram what was to be written. -/
def ReadsBack (d : Destination) (payload datagram : List UInt8) : Prop :=
  ∃ r, parseSocks5UdpDatagram datagram = some (.ok r) ∧
    r.addr.family = d.dst.family ∧ r.addr.port = d.dst.port ∧
    r.addr.addr.take (addressLength r.addr) = d.dst.addr.take (addressLength d.dst) ∧
    (datagram.drop r.payload).take r.payloadLen = payload

/-- A batch to IPv4 and IPv6 destinations is written as a whole, and each datagram reads back. -/
theorem socks5UdpDatagrams_readBack (batch : List (Destination × List UInt8)) :
    ∃ datagrams, socks5UdpDatagrams (batch.map fun m => (m.1.dst, m.2)) = some datagrams ∧
      List.Forall₂ (fun m datagram => ReadsBack m.1 m.2 datagram) batch datagrams := by
  induction batch with
  | nil => exact ⟨[], rfl, .nil⟩
  | cons m batch ih =>
      obtain ⟨datagrams, hrest, hread⟩ := ih
      obtain ⟨header, addr, hwrite, hheader, hfamily, hport, haddr⟩ := socks5UdpHeader_spec m.1
      refine ⟨(header ++ m.2) :: datagrams, ?_, .cons ?_ hread⟩
      · simp only [List.map_cons, socks5UdpDatagrams, hwrite, hrest, Option.map_some]
      · refine ⟨_, hheader.parse m.2, hfamily, hport, haddr, ?_⟩
        show ((header ++ m.2).drop header.length).take m.2.length = m.2
        rw [List.drop_left, List.take_length]

/-- **SOCKS5 UDP framing.**  The datagrams written for IPv4 and IPv6 destinations are parsed to exactly
their addresses, ports and payloads.  No read of the parser is outside the packet, and it accepts a
packet exactly if a header and a payload make it up, with the lengths of the two. -/
theorem socks5UdpDatagram_spec :
    (∀ batch : List (Destination × List UInt8), ∃ datagrams,
      socks5UdpDatagrams (batch.map fun m => (m.1.dst, m.2)) = some datagrams ∧
        List.Forall₂ (fun m datagram => ReadsBack m.1 m.2 datagram) batch datagrams) ∧
    ∀ packet : List UInt8, ∃ result, parseSocks5UdpDatagram packet = some result ∧
      ∀ r, result = .ok r ↔ ∃ header payload, packet = header ++ payload ∧
        Socks5UdpHeader header r.addr ∧ r.payload = header.length ∧
        r.payloadLen = payload.length ∧ r.payload + r.payloadLen = packet.length := by
  refine ⟨socks5UdpDatagrams_readBack, fun packet => ?_⟩
  have hback : ∀ {result : Except DatagramError ParsedDatagram} {r : ParsedDatagram},
      parseSocks5UdpDatagram packet = some result →
      (∃ header payload, packet = header ++ payload ∧ Socks5UdpHeader header r.addr ∧
        r.payload = header.length ∧ r.payloadLen = payload.length ∧
        r.payload + r.payloadLen = packet.length) → result = .ok r := by
    rintro result ⟨addr, pos, len⟩ hresult ⟨header, payload, rfl, hheader, rfl, rfl, _⟩
    rw [hheader.parse payload] at hresult
    exact (Option.some.inj hresult).symm
  rcases parse_refused_or_header packet with ⟨e, he⟩ | ⟨header, payload, addr, rfl, hheader⟩
  · exact ⟨_, he, fun r => ⟨fun h => (nomatch h), hback he⟩⟩
  · refine ⟨_, hheader.parse payload, fun r => ⟨?_, hback (hheader.parse payload)⟩⟩
    rintro ⟨⟩
    exact ⟨header, payload, rfl, hheader, rfl, rfl, List.length_append.symm⟩

end Bpf2Socks.Udp

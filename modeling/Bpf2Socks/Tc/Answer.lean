/-
# Bpf2Socks.Tc.Answer — an answer leaves with the original destination as its source.

`endpoints` reads the two ends of a flow off a packet.  Ingress moves a packet's destination to the
token and leaves the way back `Recorded` under it; nothing without eviction takes that record away;
egress moves the source of an answer back.  What the rewrites do to the bytes is said once, in
`Rewritten`.
-/
import Bpf2Socks.Tc.Inverse
import Mathlib.Tactic.IntervalCases

namespace Bpf2Socks.Tc

open Function (update update_self update_of_ne)
open Lib (Act Prog)

/-! ## Bytes -/

theorem slice_length {d : List UInt8} {off n : Nat} (h : off + n ≤ d.length) :
    (slice d off n).length = n := by
  simp only [slice, List.length_take, List.length_drop]
  omega

/-- A slice depends on its bytes only. -/
theorem slice_congr {d d' : List UInt8} {off n : Nat} (hl : d'.length = d.length)
    (h : ∀ i, off ≤ i → i < off + n → byteAt d' i = byteAt d i) :
    slice d' off n = slice d off n := by
  apply List.ext_getElem?
  intro i
  simp only [slice, List.getElem?_take, List.getElem?_drop]
  split
  · have hb := h (off + i) (by omega) (by omega)
    simp only [byteAt, List.getD_eq_getElem?_getD] at hb
    by_cases hi : off + i < d.length
    · rw [List.getElem?_eq_getElem hi, List.getElem?_eq_getElem (by omega)] at hb ⊢
      exact congrArg some hb
    · rw [List.getElem?_eq_none (by omega), List.getElem?_eq_none (by omega)]
  · rfl

theorem be16_congr {d d' : List UInt8} {off : Nat} (h : byteAt d' off = byteAt d off)
    (h' : byteAt d' (off + 1) = byteAt d (off + 1)) : be16 d' off = be16 d off := by
  rw [be16, be16, h, h']

/-- The next byte of a number joins the bytes below it. -/
theorem joinByte (n k w : Nat) (h : k + 8 ≤ w) :
    ((n >>> k) % 2 ^ 8) <<< k % 2 ^ w ||| n % 2 ^ k = n % 2 ^ (k + 8) := by
  have hbyte : (n >>> k) % 2 ^ 8 < 2 ^ 8 := Nat.mod_lt _ (by decide)
  have hlow : n % 2 ^ k < 2 ^ k := Nat.mod_lt _ (Nat.two_pow_pos k)
  have hfit : ((n >>> k) % 2 ^ 8) <<< k < 2 ^ w := by
    calc ((n >>> k) % 2 ^ 8) <<< k < 2 ^ 8 * 2 ^ k := by
          rw [Nat.shiftLeft_eq]
          exact Nat.mul_lt_mul_of_pos_right hbyte (Nat.two_pow_pos k)
      _ = 2 ^ (k + 8) := by rw [Nat.pow_add, Nat.mul_comm]
      _ ≤ 2 ^ w := Nat.pow_le_pow_right (by decide) h
  rw [Nat.mod_eq_of_lt hfit, ← Nat.shiftLeft_add_eq_or_of_lt hlow, Nat.pow_add, Nat.mod_mul,
    Nat.shiftLeft_eq, Nat.shiftRight_eq_div_pow, Nat.mul_comm, Nat.add_comm]

/-- The two bytes of a port make the port. -/
theorem portBytes_join (port : UInt16) :
    (port >>> 8).toUInt8.toUInt16 <<< 8 ||| port.toUInt8.toUInt16 = port := by
  apply UInt16.toNat_inj.1
  simp only [UInt16.toNat_or, UInt16.toNat_shiftLeft, UInt8.toNat_toUInt16, UInt16.toNat_toUInt8,
    UInt16.toNat_shiftRight, UInt16.reduceToNat, Nat.reduceMod]
  rw [joinByte port.toNat 8 16 (by decide), Nat.mod_eq_of_lt port.toNat_lt]

/-- The four bytes of an address make the address. -/
theorem wordBytes_join (x : UInt32) :
    (x >>> 24).toUInt8.toUInt32 <<< 24 ||| (x >>> 16).toUInt8.toUInt32 <<< 16 |||
      (x >>> 8).toUInt8.toUInt32 <<< 8 ||| x.toUInt8.toUInt32 = x := by
  apply UInt32.toNat_inj.1
  simp only [UInt32.toNat_or, UInt32.toNat_shiftLeft, UInt8.toNat_toUInt32, UInt32.toNat_toUInt8,
    UInt32.toNat_shiftRight, UInt32.reduceToNat, Nat.reduceMod, Nat.or_assoc]
  rw [joinByte x.toNat 8 32 (by decide), joinByte x.toNat 16 32 (by decide),
    joinByte x.toNat 24 32 (by decide), Nat.mod_eq_of_lt x.toNat_lt]

/-- A port read from its bytes. -/
theorem be16_of_slice {d : List UInt8} {off : Nat} {port : UInt16}
    (h : slice d off 2 = portBytes port) : be16 d off = port := by
  have h0 : byteAt d off = (port >>> 8).toUInt8 := by
    have := congrArg (·[0]?) h
    simp only [slice, List.getElem?_take, List.getElem?_drop, portBytes] at this
    simpa [byteAt, List.getD_eq_getElem?_getD] using congrArg (·.getD 0) this
  have h1 : byteAt d (off + 1) = port.toUInt8 := by
    have := congrArg (·[1]?) h
    simp only [slice, List.getElem?_take, List.getElem?_drop, portBytes] at this
    simpa [byteAt, List.getD_eq_getElem?_getD] using congrArg (·.getD 0) this
  rw [be16, h0, h1, portBytes_join]

theorem csumReplace_length {d : List UInt8} {off : Nat} (h : off + 2 ≤ d.length) (mangled : Bool)
    (old new : List UInt8) : (csumReplace d off mangled old new).length = d.length := by
  dsimp only [csumReplace]
  split
  · rfl
  · exact storeBytes_length (by simpa using h)

/-- A checksum update touches the two bytes of the checksum. -/
theorem byteAt_csumReplace {d : List UInt8} {off i : Nat} (h : off + 2 ≤ d.length)
    (hi : i < off ∨ off + 2 ≤ i) (mangled : Bool) (old new : List UInt8) :
    byteAt (csumReplace d off mangled old new) i = byteAt d i := by
  dsimp only [csumReplace]
  split
  · rfl
  · rcases hi with hi | hi
    · exact byteAt_storeBytes_of_lt (by omega) hi
    · exact byteAt_storeBytes_of_ge (by omega) (by simpa using hi)

/-! ## Rewrites -/

/-- The packet changed at most in the bytes `touched` names. -/
structure Edited (touched : Nat → Prop) (skb skb' : Skb) : Prop where
  ifindex : skb'.ifindex = skb.ifindex
  headlen : skb'.headlen = skb.headlen
  length : skb'.data.length = skb.data.length
  rest : ∀ i, ¬touched i → byteAt skb'.data i = byteAt skb.data i

/-- The same as a relation between states. -/
def EditedState (touched : Nat → Prop) (s s' : State) : Prop := Edited touched s.skb s'.skb

instance (touched : Nat → Prop) : IsPreorder State (EditedState touched) where
  refl _ := ⟨rfl, rfl, rfl, fun _ _ => rfl⟩
  trans _ _ _ h h' := ⟨h'.ifindex.trans h.ifindex, h'.headlen.trans h.headlen,
    h'.length.trans h.length, fun i hi => (h'.rest i hi).trans (h.rest i hi)⟩

section Rewrites

variable {inside : Vanish → Prop} {touched : Nat → Prop} {s : State}

theorem replaceChecksum_edits {off : Nat} (h : ∀ i, off ≤ i → i < off + 2 → touched i)
    (mangled : Bool) (old new : List UInt8) :
    Act.Keeps (admissible inside) (EditedState touched) (replaceChecksum off mangled old new) := by
  intro s done _
  refine Act.sat_ite (fun _ => refl_of (EditedState touched) s) fun hc => ?_
  have hlen : off + 2 ≤ s.skb.data.length := by
    simp only [not_or, Nat.not_lt] at hc
    exact hc.2
  refine ⟨rfl, rfl, csumReplace_length hlen .., fun i hi => byteAt_csumReplace hlen ?_ ..⟩
  by_contra hin
  exact hi (h i (by omega) (by omega))

theorem skbStoreBytes_edits {off : Nat} {bytes : List UInt8}
    (h : ∀ i, off ≤ i → i < off + bytes.length → touched i) :
    Act.Keeps (admissible inside) (EditedState touched) (skbStoreBytes off bytes) := by
  intro s done _
  refine Act.sat_ite (fun _ => refl_of (EditedState touched) s) fun hc => ?_
  have hlen : off + bytes.length ≤ s.skb.data.length := by
    simp only [not_or, Nat.not_lt] at hc
    exact hc.2
  refine ⟨rfl, rfl, storeBytes_length hlen, fun i hi => ?_⟩
  have hout : i < off ∨ off + bytes.length ≤ i := by
    by_contra hin
    exact hi (h i (by omega) (by omega))
  rcases hout with hout | hout
  · exact byteAt_storeBytes_of_lt (by omega) hout
  · exact byteAt_storeBytes_of_ge (by omega) hout

/-- A successful store, exactly. -/
theorem skbStoreBytes_sat (off : Nat) (bytes : List UInt8) :
    Prog.Sat (admissible inside)
      (fun s' r => r = true → off + bytes.length ≤ s.skb.data.length ∧
        s'.skb.data = storeBytes s.skb.data off bytes)
      (skbStoreBytes off bytes s) := by
  intro done _
  refine Act.sat_ite (fun _ h => by cases h) fun hc _ => ⟨?_, rfl⟩
  simp only [not_or, Nat.not_lt] at hc
  exact hc.2

theorem allOk_append (fs gs : List (Code Bool)) (s : State) :
    allOk (fs ++ gs) s =
      (allOk fs s).bind fun s' r => (if !r then pure false else allOk gs : Code Bool) s' := by
  induction fs generalizing s with
  | nil => rfl
  | cons f fs ih =>
      simp only [List.cons_append, allOk, Act.bind_run, Prog.bind_assoc]
      congr 1
      funext s' r
      cases r with
      | false => rfl
      | true => exact ih s'

theorem allOk_edits {fs : List (Code Bool)}
    (h : ∀ f ∈ fs, Act.Keeps (admissible inside) (EditedState touched) f) :
    Act.Keeps (admissible inside) (EditedState touched) (allOk fs) := by
  induction fs with
  | nil => exact Act.keeps_pure _
  | cons f fs ih =>
      refine (h f (List.mem_cons_self ..)).bind fun _ => Act.keeps_ite (Act.keeps_pure _) ?_
      exact ih fun g hg => h g (List.mem_cons_of_mem _ hg)

/-- A rewritten packet: the new address and port stand in it, and nothing else changed but the
checksums. -/
structure Rewritten (touched : Nat → Prop) (addressOff portOff : Nat)
    (address port : List UInt8) (skb skb' : Skb) : Prop where
  edited : Edited touched skb skb'
  address : slice skb'.data addressOff address.length = address
  port : slice skb'.data portOff port.length = port

/-- The two stores at the end of every rewrite. -/
theorem storePair_sat {addressOff portOff : Nat} {address port : List UInt8}
    (hdis : addressOff + address.length ≤ portOff) :
    Prog.Sat (admissible inside)
      (fun s' r => r = true → slice s'.skb.data addressOff address.length = address ∧
        slice s'.skb.data portOff port.length = port)
      (allOk [skbStoreBytes addressOff address, skbStoreBytes portOff port] s) := by
  refine (skbStoreBytes_sat addressOff address).bind fun s₁ r hr => ?_
  refine Act.sat_ite (fun _ h => by cases h) fun hnr => ?_
  obtain ⟨hlen, hs₁⟩ := hr (by simpa using hnr)
  refine (skbStoreBytes_sat portOff port).bind fun s₂ r hr => ?_
  refine Act.sat_ite (fun _ h => by cases h) fun hnr _ => ?_
  obtain ⟨hlen', hs₂⟩ := hr (by simpa using hnr)
  rw [hs₂]
  refine ⟨?_, slice_storeBytes (by omega)⟩
  rw [slice_congr (storeBytes_length hlen') fun i hi hi' =>
    byteAt_storeBytes_of_lt (by omega) (by omega), hs₁]
  exact slice_storeBytes (by omega)

/-- **A rewrite** succeeds as a whole, or the packet is dropped. -/
theorem rewriteAll_sat (fs : List (Code Bool)) {addressOff portOff : Nat}
    {address port : List UInt8} (hdis : addressOff + address.length ≤ portOff)
    (hfs : ∀ f ∈ fs, Act.Keeps (admissible inside) (EditedState touched) f)
    (ha : ∀ i, addressOff ≤ i → i < addressOff + address.length → touched i)
    (hp : ∀ i, portOff ≤ i → i < portOff + port.length → touched i) :
    Prog.Sat (admissible inside)
      (fun s' v => v = .shot ∨
        (v = .ok ∧ Rewritten touched addressOff portOff address port s.skb s'.skb))
      (rewriteAll (fs ++ [skbStoreBytes addressOff address, skbStoreBytes portOff port]) s) := by
  have hedit : Act.Keeps (admissible inside) (EditedState touched)
      (allOk (fs ++ [skbStoreBytes addressOff address, skbStoreBytes portOff port])) := by
    refine allOk_edits fun f hf => ?_
    rcases List.mem_append.mp hf with hf | hf
    · exact hfs f hf
    · simp only [List.mem_cons, List.not_mem_nil, or_false] at hf
      rcases hf with rfl | rfl
      · exact skbStoreBytes_edits ha
      · exact skbStoreBytes_edits hp
  have hpair : Prog.Sat (admissible inside)
      (fun s' r => r = true → slice s'.skb.data addressOff address.length = address ∧
        slice s'.skb.data portOff port.length = port)
      (allOk (fs ++ [skbStoreBytes addressOff address, skbStoreBytes portOff port]) s) := by
    rw [allOk_append]
    refine Prog.Sat.bind (Prog.sat_true) fun s₁ r _ => ?_
    cases r with
    | false => exact fun h => by cases h
    | true => exact storePair_sat hdis
  refine ((hedit s).and hpair).bind fun s' r ⟨he, hr⟩ => ?_
  cases r with
  | false => exact .inl rfl
  | true => exact .inr ⟨rfl, he, (hr rfl).1, (hr rfl).2⟩

end Rewrites

/-- The bytes a rewrite may change: the IPv4 checksum, the transport checksum, an address and a
port. -/
def touchedBytes (addressOff addressLen portOff checksumOff : Nat) (i : Nat) : Prop :=
  (ip4Checksum ≤ i ∧ i < ip4Checksum + 2) ∨ (checksumOff ≤ i ∧ i < checksumOff + 2) ∨
    (addressOff ≤ i ∧ i < addressOff + addressLen) ∨ (portOff ≤ i ∧ i < portOff + 2)

/-- The bytes `rewrite_ipv6` may change: there is no header checksum. -/
def touchedBytes6 (addressOff portOff checksumOff : Nat) (i : Nat) : Prop :=
  (checksumOff ≤ i ∧ i < checksumOff + 2) ∨ (addressOff ≤ i ∧ i < addressOff + 16) ∨
    (portOff ≤ i ∧ i < portOff + 2)

section

variable {inside : Vanish → Prop} {s : State}

theorem rewriteIpv4_sat {addressOff portOff checksumOff : Nat}
    {oldA newA oldP newP : List UInt8} {protocol : UInt8} (hA : newA.length = 4)
    (hP : newP.length = 2) (hdis : addressOff + 4 ≤ portOff) :
    Prog.Sat (admissible inside)
      (fun s' v => v = .shot ∨ (v = .ok ∧
        Rewritten (touchedBytes addressOff 4 portOff checksumOff) addressOff portOff newA newP
          s.skb s'.skb))
      (rewriteIpv4 addressOff portOff checksumOff oldA newA oldP newP protocol s) := by
  refine rewriteAll_sat
    [replaceChecksum ip4Checksum false oldA newA,
      replaceChecksum checksumOff (decide (protocol = protoUdp)) oldA newA,
      replaceChecksum checksumOff (decide (protocol = protoUdp)) oldP newP]
    (by omega) (fun f hf => ?_) ?_ ?_
  · simp only [List.mem_cons, List.not_mem_nil, or_false] at hf
    rcases hf with rfl | rfl | rfl
    · exact replaceChecksum_edits (fun i h h' => .inl ⟨h, h'⟩) _ _ _
    · exact replaceChecksum_edits (fun i h h' => .inr (.inl ⟨h, h'⟩)) _ _ _
    · exact replaceChecksum_edits (fun i h h' => .inr (.inl ⟨h, h'⟩)) _ _ _
  · exact fun i h h' => .inr (.inr (.inl ⟨h, by omega⟩))
  · exact fun i h h' => .inr (.inr (.inr ⟨h, by omega⟩))

theorem rewriteIpv6_sat {addressOff portOff checksumOff : Nat}
    {oldA newA oldP newP : List UInt8} {protocol : UInt8} (hA : newA.length = 16)
    (hP : newP.length = 2) (hdis : addressOff + 16 ≤ portOff) :
    Prog.Sat (admissible inside)
      (fun s' v => v = .shot ∨ (v = .ok ∧
        Rewritten (touchedBytes6 addressOff portOff checksumOff) addressOff portOff newA newP
          s.skb s'.skb))
      (rewriteIpv6 addressOff portOff checksumOff oldA newA oldP newP protocol s) := by
  refine rewriteAll_sat
    ([0, 4, 8, 12].map (fun off => replaceChecksum checksumOff
        (decide (protocol = protoUdp)) (slice oldA off 4) (slice newA off 4)) ++
      [replaceChecksum checksumOff (decide (protocol = protoUdp)) oldP newP])
    (by omega) (fun f hf => ?_) ?_ ?_
  · rcases List.mem_append.mp hf with hf | hf
    · obtain ⟨off, -, rfl⟩ := List.mem_map.mp hf
      exact replaceChecksum_edits (fun i h h' => .inl ⟨h, h'⟩) _ _ _
    · rw [List.mem_singleton] at hf
      subst hf
      exact replaceChecksum_edits (fun i h h' => .inl ⟨h, h'⟩) _ _ _
  · exact fun i h h' => .inr (.inl ⟨h, by omega⟩)
  · exact fun i h h' => .inr (.inr ⟨h, by omega⟩)

end

/-! ## The two ends of a flow -/

/-- Where a packet comes from and goes to. -/
structure Endpoints where
  family : UInt8
  protocol : UInt8
  source : List UInt8
  sourcePort : UInt16
  destination : List UInt8
  destinationPort : UInt16
  deriving DecidableEq

/-- The ends read off an IPv4 packet whose ports stand at `l4`. -/
def endpoints4 (d : List UInt8) (l4 : Nat) : Endpoints :=
  ⟨afInet, byteAt d 23, slice d ip4Source 4, be16 d l4, slice d ip4Destination 4,
    be16 d (l4 + 2)⟩

/-- The same for IPv6, with the transport protocol at hand. -/
def endpoints6 (d : List UInt8) (protocol : UInt8) (l4 : Nat) : Endpoints :=
  ⟨afInet6, protocol, slice d ip6Source 16, be16 d l4, slice d ip6Destination 16,
    be16 d (l4 + 2)⟩

/-- The ends of a packet, unless it is a later fragment and carries no ports. -/
def endpoints (d : List UInt8) : Option Endpoints :=
  if be16 d 12 = 0x0800 then
    if byteAt d 14 >>> 4 ≠ 4 ∨ (byteAt d 14 &&& 15).toNat < 5 ∨
        be16 d 20 &&& 0x3fff &&& 0x1fff ≠ 0 then none
    else some (endpoints4 d (ethernetLength + (byteAt d 14 &&& 15).toNat * 4))
  else if be16 d 12 = 0x86dd then
    if byteAt d 14 >>> 4 ≠ 6 then none
    else if byteAt d 20 ≠ 44 then some (endpoints6 d (byteAt d 20) 54)
    else if be16 d 56 &&& 0xfff8 ≠ 0 then none
    else some (endpoints6 d (byteAt d 54) 62)
  else none

/-- The key under which the answer to a packet with these ends is looked up. -/
def answerKey (c : RuntimeControl) (ifindex : UInt32) (e : Endpoints) : ReverseKey where
  ifindex := ifindex
  family := e.family
  protocol := e.protocol
  clientPort := e.sourcePort
  tokenPort := c.bridgePort
  clientAddr := copyBytes e.source (addressSize e.family)
  tokenAddr := copyBytes e.destination (addressSize e.family)

/-- The flow a packet with these ends belongs to. -/
def flowOf (ifindex : UInt32) (e : Endpoints) : OriginalKey where
  ifindex := ifindex
  family := e.family
  protocol := e.protocol
  clientPort := e.sourcePort
  originalPort := e.destinationPort
  clientAddr := copyBytes e.source (addressSize e.family)
  originalAddr := copyBytes e.destination (addressSize e.family)

/-- The key under which the bridge looks a packet with these ends up. -/
def bridgeKey (e : Endpoints) : TokenKey where
  family := e.family
  protocol := e.protocol
  tokenPort := e.destinationPort
  clientPort := e.sourcePort
  tokenAddr := copyBytes e.destination (addressSize e.family)
  clientAddr := copyBytes e.source (addressSize e.family)

/-- Where the transport header of a packet with ports begins. -/
def transport (d : List UInt8) : Nat :=
  if be16 d 12 = 0x0800 then ethernetLength + (byteAt d 14 &&& 15).toNat * 4
  else if byteAt d 20 ≠ 44 then 54
  else 62

/-- The reverse map names this original under the key. -/
def Recorded (c : RuntimeControl) (key : ReverseKey) (addr : List UInt8) (port : UInt16)
    (s : State) : Prop :=
  ∃ v, s.tokenToOriginal key = some v ∧ v.originalAddr = addr ∧ v.originalPort = port ∧
    v.generation = c.generation

section

variable {inside : Vanish → Prop} {s s' : State} {hash : OriginalKey → UInt32 → UInt32}
  {c : RuntimeControl} {key : ReverseKey} {addr : List UInt8} {port : UInt16}

theorem Recorded.congr (h : Recorded c key addr port s)
    (hr : s'.tokenToOriginal = s.tokenToOriginal) : Recorded c key addr port s' := by
  unfold Recorded
  rw [hr]
  exact h

/-- No move takes a record away. -/
theorem Recorded.move (h : Recorded c key addr port s) (hm : Move inside hash c s s') :
    Recorded c key addr port s' := by
  cases hm with
  | same hs => exact h.congr hs.reverse
  | sent _ _ hs =>
      cases hs with
      | kept _ _ _ hs => exact h.congr hs.reverse
      | renewed _ _ _ hs => exact h.congr hs.reverse
      | fresh _ hr =>
          obtain ⟨v, hv, hrest⟩ := h
          obtain ⟨now, hrev⟩ := hr.reverse
          refine ⟨v, ?_, hrest⟩
          rw [hrev, update_of_ne, hv]
          intro he
          rw [he, hr.free] at hv
          cases hv
  | touched ht =>
      obtain ⟨v, hv, hrest⟩ := h
      obtain ⟨hw, -, -, -, -, now, hrev⟩ := ht
      rename_i key' w
      by_cases hk : key = key'
      · subst hk
        rw [hv] at hw
        cases hw
        exact ⟨{ w with lastSeenNs := now }, by rw [hrev, update_self], hrest⟩
      · exact ⟨v, by rw [hrev, update_of_ne hk, hv], hrest⟩

theorem Recorded.moves (h : Recorded c key addr port s) (hm : Moves inside hash c s s') :
    Recorded c key addr port s' := by
  induction hm with
  | refl => exact h
  | tail _ hm ih => exact ih.move hm

theorem Recorded.step (h : Recorded c key addr port s) (hs : StepWithoutEviction hash c s s') :
    Recorded c key addr port s' := by
  cases hs with
  | packet dir skb v run =>
      have hskb : Recorded c key addr port { s with skb := skb } := h.congr rfl
      exact hskb.moves ((classify_keeps (fun _ h => h) dir _).out run)
  | vanish v allowed =>
      obtain ⟨k, rfl⟩ := allowed
      exact h.congr rfl
  | policy cidr4 cidr6 => exact h.congr rfl

theorem Recorded.run (h : Recorded c key addr port s)
    (hs : Relation.ReflTransGen (StepWithoutEviction hash c) s s') :
    Recorded c key addr port s' := by
  induction hs with
  | refl => exact h
  | tail _ hs ih => exact ih.step hs

end

/-! ## Ingress -/

section Ingress

variable {inside : Vanish → Prop} {s s' : State} {hash : OriginalKey → UInt32 → UInt32}
  {c : RuntimeControl}

/-- A flow that is sent to a token has that token. -/
theorem Sends.found {o : OriginalKey} {syn : Bool} {token : TokenValue}
    (h : Sends inside hash c o syn s s' token) : s'.originalToToken o = some token := by
  cases h with
  | kept hf _ _ hs => rw [hs.forward, hf]
  | renewed hf _ _ hs => rw [hs.forward, hf]
  | fresh _ hr => rw [hr.forward, update_self]

theorem Sends.skb {o : OriginalKey} {syn : Bool} {token : TokenValue}
    (h : Sends inside hash c o syn s s' token) : s'.skb = s.skb := by
  cases h with
  | kept _ _ _ hs => exact hs.skb
  | renewed _ _ _ hs => exact hs.skb
  | fresh _ hr => exact hr.skb

/-- The bridge map names the flow's original under its token, unless the bridge took the entry while
the packet was handled. -/
def Published (inside : Vanish → Prop) (o : OriginalKey) (token : TokenValue) (s : State) : Prop :=
  s.bridgeTokens (fillBridgeKey o token) = some (fillBridgeValue o) ∨
    inside (.bridge (fillBridgeKey o token))

/-- A new connection finds its entry published. -/
theorem Sends.published {o : OriginalKey} {syn : Bool} {token : TokenValue}
    (h : Sends inside hash c o syn s s' token) (hsyn : syn = true) :
    Published inside o token s' := by
  cases h with
  | kept _ _ hsilent _ =>
      rw [hsyn] at hsilent
      cases hsilent
  | renewed _ _ _ hp =>
      exact (hp.bridge _).imp (fun h => h.trans (update_self ..)) And.right
  | fresh _ hr =>
      exact (hr.bridge _).imp (fun h => h.trans (update_self ..)) And.right

theorem Published.same {o : OriginalKey} {token : TokenValue} (h : Published inside o token s)
    (hs : SameTokens inside s s') : Published inside o token s' := by
  rcases h with h | h
  · exact (hs.bridge _).imp (fun hk => hk.trans h) And.right
  · exact .inr h

theorem rememberFragment_sat (hin : OnlyBridge inside) (key : FragmentKey)
    (token : Option (List UInt8)) (verdict : FragmentVerdict) (generation : UInt32) :
    Prog.Sat (admissible inside) (fun s' _ => Eroded inside s s')
      (rememberFragment key token verdict generation s) := by
  refine (Table.update_sat hin).bind fun s' r hr => ?_
  obtain ⟨s₁, h₁, ⟨-, rfl⟩ | ⟨-, -, rfl⟩⟩ := hr
  · exact h₁
  · exact ⟨⟨h₁.forward, h₁.reverse, h₁.bridge⟩, h₁.skb⟩

/-- A packet that leaves ingress rewritten was rewritten to the flow's token. -/
theorem finishIngress_sat (hin : OnlyBridge inside) (fragment : Option FragmentKey)
    {rewrite : TokenValue → Code Verdict} (post : TokenValue → State → State → Prop)
    (hrw : ∀ token s₁, Prog.Sat (admissible inside) (fun s' v => v = .ok → post token s₁ s')
      (rewrite token s₁)) (admission : Admission) :
    Prog.Sat (admissible inside)
      (fun s' v => v = .ok → ∃ token s₁, admission = .rewrite token ∧ Eroded inside s s₁ ∧
        post token s₁ s')
      (finishIngress c fragment rewrite admission s) := by
  cases admission with
  | pass =>
      cases fragment with
      | none => exact nofun
      | some key => exact (rememberFragment_sat hin _ _ _ _).bind fun _ _ _ => nofun
  | unpublished => exact nofun
  | rewrite token =>
      cases fragment with
      | none => exact (hrw token s).mono fun s' v h hv => ⟨token, s, rfl, .refl, h hv⟩
      | some key =>
          refine (rememberFragment_sat hin _ _ _ _).bind fun s₁ _ h₁ => ?_
          exact (hrw token s₁).mono fun s' v h hv => ⟨token, s₁, rfl, h₁, h hv⟩

/-- What a rewritten ingress packet leaves behind: the flow has a token, the packet carries it, the
maps are still inverse, and a new connection is published. -/
def Redirected (inside : Vanish → Prop) (hash : OriginalKey → UInt32 → UInt32) (c : RuntimeControl)
    (o : OriginalKey) (syn : Bool) (touched : Nat → Prop) (addressOff portOff size : Nat)
    (s s' : State) : Prop :=
  ∃ token, s'.originalToToken o = some token ∧ Inverse hash c s' ∧
    Rewritten touched addressOff portOff (token.tokenAddr.take size) (portBytes c.bridgePort)
      s.skb s'.skb ∧
    (syn = true → Published inside o token s')

/-- The token of a candidate fills sixteen bytes. -/
theorem Candidate.tokenAddr_length {o : OriginalKey} {token : TokenValue}
    (h : Candidate hash c o token) : token.tokenAddr.length = 16 := by
  obtain ⟨attempt, addr, haddr, rfl⟩ := h
  show addr.length = 16
  simp only [tokenCandidate] at haddr
  split at haddr
  · split at haddr
    · cases haddr
    · cases haddr
      exact copyBytes_length _ _
  · cases haddr
    exact copyBytes_length _ _

/-- What the rewrite of a token does, given that the token fills its bytes. -/
def RewritesTo (inside : Vanish → Prop) (c : RuntimeControl) (touched : Nat → Prop)
    (addressOff portOff size : Nat) (token : TokenValue) (s s' : State) : Prop :=
  SameTokens inside s s' ∧ (token.tokenAddr.length = 16 →
    Rewritten touched addressOff portOff (token.tokenAddr.take size) (portBytes c.bridgePort)
      s.skb s'.skb)

/-- From an admitted flow to the rewritten packet. -/
theorem Inverse.redirected (h : Inverse hash c s) {s₁ s₂ : State} {o : OriginalKey}
    (ho : o.WellFormed) {syn : Bool} {token : TokenValue} {touched : Nat → Prop}
    {addressOff portOff size : Nat} (hs : Sends inside hash c o syn s s₁ token)
    (he : Eroded inside s₁ s₂)
    (hr : RewritesTo inside c touched addressOff portOff size token s₂ s') :
    Redirected inside hash c o syn touched addressOff portOff size s s' := by
  have h₂ : Inverse hash c s₂ := (h.sends ho hs).same he.toSameTokens
  have hf : s₂.originalToToken o = some token := by rw [he.forward, hs.found]
  refine ⟨token, by rw [hr.1.forward, hf], h₂.same hr.1, ?_, fun hsyn => ?_⟩
  · have hskb : s₂.skb = s.skb := he.skb.trans hs.skb
    rw [← hskb]
    exact hr.2 (h₂.token hf).tokenAddr_length
  · exact ((hs.published hsyn).same he.toSameTokens).same hr.1

theorem rewriteIpv4_to {addressOff portOff checksumOff : Nat} {oldA oldP : List UInt8}
    {protocol : UInt8} {token : TokenValue} (hdis : addressOff + 4 ≤ portOff) :
    Prog.Sat (admissible inside)
      (fun s' v => v = .ok →
        RewritesTo inside c (touchedBytes addressOff 4 portOff checksumOff) addressOff portOff 4
          token s s')
      (rewriteIpv4 addressOff portOff checksumOff oldA (token.tokenAddr.take 4) oldP
        (portBytes c.bridgePort) protocol s) := by
  by_cases hlen : token.tokenAddr.length = 16
  · refine ((rewriteIpv4_keeps _ _ _ _ _ _ _ _ s).and
      (rewriteIpv4_sat (by simp [hlen]) rfl hdis)).mono fun s' v ⟨hk, hv⟩ hok => ⟨hk, fun _ => ?_⟩
    rcases hv with hv | hv
    · rw [hok] at hv
      cases hv
    · exact hv.2
  · exact (rewriteIpv4_keeps _ _ _ _ _ _ _ _ s).mono fun s' v hk _ => ⟨hk, fun h => absurd h hlen⟩

theorem rewriteIpv6_to {addressOff portOff checksumOff : Nat} {oldA oldP : List UInt8}
    {protocol : UInt8} {token : TokenValue} (hdis : addressOff + 16 ≤ portOff) :
    Prog.Sat (admissible inside)
      (fun s' v => v = .ok →
        RewritesTo inside c (touchedBytes6 addressOff portOff checksumOff) addressOff portOff 16
          token s s')
      (rewriteIpv6 addressOff portOff checksumOff oldA token.tokenAddr oldP
        (portBytes c.bridgePort) protocol s) := by
  by_cases hlen : token.tokenAddr.length = 16
  · refine ((rewriteIpv6_keeps _ _ _ _ _ _ _ _ s).and
      (rewriteIpv6_sat hlen rfl hdis)).mono fun s' v ⟨hk, hv⟩ hok => ⟨hk, fun _ => ?_⟩
    rcases hv with hv | hv
    · rw [hok] at hv
      cases hv
    · rw [List.take_of_length_le (by omega)]
      exact hv.2
  · exact (rewriteIpv6_keeps _ _ _ _ _ _ _ _ s).mono fun s' v hk _ => ⟨hk, fun h => absurd h hlen⟩

theorem ingress4Flow_sat (h : Inverse hash c s) (hin : OnlyBridge inside) {l4 : Nat}
    (hl4 : 34 ≤ l4) (first : Bool) :
    Prog.Sat (admissible inside)
      (fun s' v => v = .ok → Redirected inside hash c
        (originalOf s.skb afInet (byteAt s.skb.data 23) l4 ip4Source ip4Destination 4)
        (byteAt s.skb.data 23 = protoTcp ∧ isTcpSyn s.skb l4)
        (touchedBytes ip4Destination 4 (l4 + 2) (checksumOffset l4 (byteAt s.skb.data 23)))
        ip4Destination (l4 + 2) 4 s s')
      (ingress4Flow hash c l4 first s) := by
  refine (admitFlow_sat hin _).bind fun s₁ r hr => ?_
  refine (finishIngress_sat hin _ (RewritesTo inside c
    (touchedBytes ip4Destination 4 (l4 + 2) (checksumOffset l4 (byteAt s.skb.data 23)))
    ip4Destination (l4 + 2) 4) (fun token s₂ => ?_) r).mono fun s' v hv hok => ?_
  · exact rewriteIpv4_to (by show 30 + 4 ≤ l4 + 2; omega)
  · obtain ⟨token, s₂, rfl, he, hp⟩ := hv hok
    exact h.redirected (originalOf_wellFormed _ _ _ _ _ (.inl rfl)) hr he hp

theorem ingress6Flow_sat (h : Inverse hash c s) (hin : OnlyBridge inside) {protocol : UInt8}
    {l4 : Nat} (hl4 : 54 ≤ l4) (fragment : Option FragmentKey) :
    Prog.Sat (admissible inside)
      (fun s' v => v = .ok → (flagSet c.flags runtimeIpv6 ∨ flagSet c.flags runtimeDnsHijack) ∧
        Redirected inside hash c
          (originalOf s.skb afInet6 protocol l4 ip6Source ip6Destination 16)
          (protocol = protoTcp ∧ isTcpSyn s.skb l4)
          (touchedBytes6 ip6Destination (l4 + 2) (checksumOffset l4 protocol))
          ip6Destination (l4 + 2) 16 s s')
      (ingress6Flow hash c protocol l4 fragment s) := by
  refine Act.sat_ite (fun _ => ?_) fun hflags => ?_
  · cases fragment with
    | none => exact nofun
    | some key => exact (rememberFragment_sat hin _ _ _ _).bind fun _ _ _ => nofun
  refine (admitFlow_sat hin _).bind fun s₁ r hr => ?_
  refine (finishIngress_sat hin _ (RewritesTo inside c
    (touchedBytes6 ip6Destination (l4 + 2) (checksumOffset l4 protocol))
    ip6Destination (l4 + 2) 16) (fun token s₂ => ?_) r).mono fun s' v hv hok => ⟨?_, ?_⟩
  · exact rewriteIpv6_to (by show 38 + 16 ≤ l4 + 2; omega)
  · by_contra hno
    apply hflags
    simp_all
  · obtain ⟨token, s₂, rfl, he, hp⟩ := hv hok
    exact h.redirected (originalOf_wellFormed _ _ _ _ _ (.inr rfl)) hr he hp

end Ingress

/-! ## Tokens lie in the prefix -/

section Prefixes

variable {hash : OriginalKey → UInt32 → UInt32} {c : RuntimeControl} {o : OriginalKey}
  {token : TokenValue}

theorem hostWord_wordBytes (x : UInt32) : hostWord (wordBytes x) = x := wordBytes_join x

/-- A token address of the prefix, outside the /24 of the prefix itself and not the last one. -/
structure TokenAddress (c : RuntimeControl) (address : List UInt8) : Prop where
  inside : ipv4InTokenPrefix address c = true
  outside : hostWord address &&& 0xffffff00 ≠ hostWord c.tokenIpv4Prefix &&& 0xffffff00
  last : hostWord address &&& hostMask ≠ hostMask

theorem and_or_network (p h : UInt32) :
    ((p &&& 0xff800000) ||| (h &&& hostMask)) &&& 0xff800000 = p &&& 0xff800000 := by
  apply UInt32.toBitVec_inj.1
  simp only [UInt32.toBitVec_and, UInt32.toBitVec_or, hostMask]
  ext i hi
  simp only [BitVec.getElem_and, BitVec.getElem_or]
  interval_cases i <;> simp

theorem Candidate.tokenAddress (h : Candidate hash c o token) (hf : o.family = afInet) :
    TokenAddress c (token.tokenAddr.take 4) := by
  obtain ⟨attempt, addr, haddr, rfl⟩ := h
  simp only [tokenCandidate, hf, ↓reduceIte] at haddr
  split at haddr
  · cases haddr
  · rename_i hc
    cases haddr
    rw [not_or] at hc
    have htake : ∀ x : UInt32, (copyBytes (wordBytes x) 4).take 4 = wordBytes x := fun x => rfl
    refine ⟨?_, ?_, ?_⟩
    · simp only [ipv4InTokenPrefix, htake, hostWord_wordBytes, and_or_network, decide_true]
    · simp only [htake, hostWord_wordBytes]
      exact hc.1
    · simp only [htake, hostWord_wordBytes]
      exact hc.2

theorem Candidate.inPrefix6 (h : Candidate hash c o token) (hf : o.family = afInet6)
    (h6 : 8 ≤ c.tokenIpv6Prefix.length) : ipv6InTokenPrefix token.tokenAddr c = true := by
  obtain ⟨attempt, addr, haddr, rfl⟩ := h
  have hne : ¬o.family = afInet := by rw [hf]; decide
  simp only [tokenCandidate, hne, ↓reduceIte, Option.some.injEq] at haddr
  subst haddr
  have hlen : (c.tokenIpv6Prefix.take 8).length = 8 := by simp [h6]
  simp only [ipv6InTokenPrefix, copyBytes, beq_iff_eq]
  rw [List.take_take, List.take_append_of_le_length (by simp [hlen]), List.take_take,
    List.append_assoc, List.take_append_of_le_length (by rw [hlen]; decide), List.take_take]
  rfl

end Prefixes

/-! ## What a rewrite does to the ends -/

section Ends

variable {touched : Nat → Prop} {skb skb' : Skb} {address : List UInt8} {port : UInt16}

theorem Edited.be16_eq (h : Edited touched skb skb') {off : Nat} (h₀ : ¬touched off)
    (h₁ : ¬touched (off + 1)) : be16 skb'.data off = be16 skb.data off :=
  be16_congr (h.rest _ h₀) (h.rest _ h₁)

theorem Edited.slice_eq (h : Edited touched skb skb') {off n : Nat}
    (hn : ∀ i, off ≤ i → i < off + n → ¬touched i) : slice skb'.data off n = slice skb.data off n :=
  slice_congr h.length fun i hi hi' => h.rest i (hn i hi hi')

theorem Rewritten.endpoints4_destination {l4 cs : Nat} (hl4 : 34 ≤ l4) (hcs : l4 + 6 ≤ cs)
    (hA : address.length = 4)
    (h : Rewritten (touchedBytes ip4Destination 4 (l4 + 2) cs) ip4Destination (l4 + 2) address
      (portBytes port) skb skb') :
    endpoints4 skb'.data l4 =
      { endpoints4 skb.data l4 with destination := address, destinationPort := port } := by
  have hport : be16 skb'.data (l4 + 2) = port := be16_of_slice h.port
  have haddr : slice skb'.data ip4Destination 4 = address := hA ▸ h.address
  have hsrc : slice skb'.data ip4Source 4 = slice skb.data ip4Source 4 :=
    h.edited.slice_eq fun i hi hi' => by
      simp only [touchedBytes, ip4Checksum, ip4Destination, ip4Source] at *
      omega
  have hsp : be16 skb'.data l4 = be16 skb.data l4 :=
    h.edited.be16_eq (by simp only [touchedBytes, ip4Checksum, ip4Destination]; omega)
      (by simp only [touchedBytes, ip4Checksum, ip4Destination]; omega)
  have hproto : byteAt skb'.data 23 = byteAt skb.data 23 :=
    h.edited.rest _ (by simp only [touchedBytes, ip4Checksum, ip4Destination]; omega)
  simp only [endpoints4, hport, haddr, hsrc, hsp, hproto]

theorem Rewritten.endpoints4_source {l4 cs : Nat} (hl4 : 34 ≤ l4) (hcs : l4 + 6 ≤ cs)
    (hA : address.length = 4)
    (h : Rewritten (touchedBytes ip4Source 4 l4 cs) ip4Source l4 address (portBytes port)
      skb skb') :
    endpoints4 skb'.data l4 =
      { endpoints4 skb.data l4 with source := address, sourcePort := port } := by
  have hport : be16 skb'.data l4 = port := be16_of_slice h.port
  have haddr : slice skb'.data ip4Source 4 = address := hA ▸ h.address
  have hdst : slice skb'.data ip4Destination 4 = slice skb.data ip4Destination 4 :=
    h.edited.slice_eq fun i hi hi' => by
      simp only [touchedBytes, ip4Checksum, ip4Destination, ip4Source] at *
      omega
  have hdp : be16 skb'.data (l4 + 2) = be16 skb.data (l4 + 2) :=
    h.edited.be16_eq (by simp only [touchedBytes, ip4Checksum, ip4Source]; omega)
      (by simp only [touchedBytes, ip4Checksum, ip4Source]; omega)
  have hproto : byteAt skb'.data 23 = byteAt skb.data 23 :=
    h.edited.rest _ (by simp only [touchedBytes, ip4Checksum, ip4Source]; omega)
  simp only [endpoints4, hport, haddr, hdst, hdp, hproto]

theorem Rewritten.endpoints6_destination {l4 cs : Nat} (hl4 : 54 ≤ l4) (hcs : l4 + 6 ≤ cs)
    (hA : address.length = 16) (protocol : UInt8)
    (h : Rewritten (touchedBytes6 ip6Destination (l4 + 2) cs) ip6Destination (l4 + 2) address
      (portBytes port) skb skb') :
    endpoints6 skb'.data protocol l4 =
      { endpoints6 skb.data protocol l4 with destination := address, destinationPort := port } := by
  have hport : be16 skb'.data (l4 + 2) = port := be16_of_slice h.port
  have haddr : slice skb'.data ip6Destination 16 = address := hA ▸ h.address
  have hsrc : slice skb'.data ip6Source 16 = slice skb.data ip6Source 16 :=
    h.edited.slice_eq fun i hi hi' => by
      simp only [touchedBytes6, ip6Destination, ip6Source] at *
      omega
  have hsp : be16 skb'.data l4 = be16 skb.data l4 :=
    h.edited.be16_eq (by simp only [touchedBytes6, ip6Destination]; omega)
      (by simp only [touchedBytes6, ip6Destination]; omega)
  simp only [endpoints6, hport, haddr, hsrc, hsp]

theorem Rewritten.endpoints6_source {l4 cs : Nat} (hl4 : 54 ≤ l4) (hcs : l4 + 6 ≤ cs)
    (hA : address.length = 16) (protocol : UInt8)
    (h : Rewritten (touchedBytes6 ip6Source l4 cs) ip6Source l4 address (portBytes port)
      skb skb') :
    endpoints6 skb'.data protocol l4 =
      { endpoints6 skb.data protocol l4 with source := address, sourcePort := port } := by
  have hport : be16 skb'.data l4 = port := be16_of_slice h.port
  have haddr : slice skb'.data ip6Source 16 = address := hA ▸ h.address
  have hdst : slice skb'.data ip6Destination 16 = slice skb.data ip6Destination 16 :=
    h.edited.slice_eq fun i hi hi' => by
      simp only [touchedBytes6, ip6Destination, ip6Source] at *
      omega
  have hdp : be16 skb'.data (l4 + 2) = be16 skb.data (l4 + 2) :=
    h.edited.be16_eq (by simp only [touchedBytes6, ip6Source]; omega)
      (by simp only [touchedBytes6, ip6Source]; omega)
  simp only [endpoints6, hport, haddr, hdst, hdp]

end Ends

/-! ## A rewritten packet -/

/-- The packet with ends `e` left ingress with ends `e'`: it goes to a token and the bridge port,
and its answers find the way back. -/
structure Returns (c : RuntimeControl) (ifindex : UInt32) (e e' : Endpoints) (s : State) :
    Prop where
  moved : e' = { e with destination := e'.destination, destinationPort := c.bridgePort }
  size : e.destination.length = addressSize e.family
  token4 : e.family = afInet → TokenAddress c e'.destination
  token6 : e.family = afInet6 → ipv6InTokenPrefix e'.destination c = true ∧
    (flagSet c.flags runtimeIpv6 ∨ flagSet c.flags runtimeDnsHijack)
  recorded : Recorded c (answerKey c ifindex e') (copyBytes e.destination (addressSize e.family))
    e.destinationPort s

/-- The packet with ends `e` left ingress with the token of its flow in `e'`; if it opens a
connection, the token is published. -/
def Carries (inside : Vanish → Prop) (syn : Bool) (ifindex : UInt32) (e e' : Endpoints)
    (s : State) : Prop :=
  ∃ token, s.originalToToken (flowOf ifindex e) = some token ∧
    bridgeKey e' = fillBridgeKey (flowOf ifindex e) token ∧
    (syn = true → Published inside (flowOf ifindex e) token s)

section Rewritten

variable {inside : Vanish → Prop} {s s' : State} {hash : OriginalKey → UInt32 → UInt32}
  {c : RuntimeControl}

theorem copyBytes_take (source : List UInt8) (size : Nat) :
    copyBytes (source.take size) size = copyBytes source size := by
  rw [copyBytes, copyBytes, List.take_take, Nat.min_self]

/-- The bytes an address was written over were there. -/
theorem Rewritten.slice_length {touched : Nat → Prop} {addressOff portOff : Nat}
    {address port : List UInt8} {skb skb' : Skb}
    (h : Rewritten touched addressOff portOff address port skb skb') :
    (slice skb.data addressOff address.length).length = address.length := by
  have hlen := congrArg List.length h.address
  simp only [slice, List.length_take, List.length_drop, h.edited.length] at hlen ⊢
  exact hlen

/-- The way back of a flow, under the key its answers have. -/
theorem Inverse.recorded (h : Inverse hash c s) {o : OriginalKey} {token : TokenValue}
    (ht : s.originalToToken o = some token) {key : ReverseKey} (hk : key = fillReverseKey o token) :
    Recorded c key o.originalAddr o.originalPort s := by
  subst hk
  exact h.back ht

theorem Candidate.tokenPort {o : OriginalKey} {token : TokenValue}
    (h : Candidate hash c o token) : token.tokenPort = c.bridgePort := by
  obtain ⟨_, _, _, rfl⟩ := h
  rfl

theorem checksumOffset_le (l4 : Nat) (protocol : UInt8) : l4 + 6 ≤ checksumOffset l4 protocol := by
  unfold checksumOffset
  split <;> omega

theorem Redirected.returns4 {l4 : Nat} {syn : Bool} (hl4 : 34 ≤ l4)
    (h : Redirected inside hash c
      (originalOf s.skb afInet (byteAt s.skb.data 23) l4 ip4Source ip4Destination 4) syn
      (touchedBytes ip4Destination 4 (l4 + 2) (checksumOffset l4 (byteAt s.skb.data 23)))
      ip4Destination (l4 + 2) 4 s s') :
    Returns c s.skb.ifindex (endpoints4 s.skb.data l4) (endpoints4 s'.skb.data l4) s' ∧
      Carries inside syn s.skb.ifindex (endpoints4 s.skb.data l4) (endpoints4 s'.skb.data l4)
        s' := by
  obtain ⟨token, ht, hinv, hrw, hpub⟩ := h
  have hcand := hinv.token ht
  have hlen : (token.tokenAddr.take 4).length = 4 := by simp [hcand.tokenAddr_length]
  have he := hrw.endpoints4_destination hl4 (checksumOffset_le ..) hlen
  rw [he]
  refine ⟨⟨rfl, ?_, fun _ => hcand.tokenAddress rfl, nofun, hinv.recorded ht ?_⟩,
    token, ht, ?_, hpub⟩
  · have := hrw.slice_length
    rw [hlen] at this
    exact this
  · simp only [answerKey, fillReverseKey, originalOf, endpoints4, hcand.tokenPort]
    congr 1
    · exact (copyBytes_copyBytes _ (by decide)).symm
    · exact copyBytes_take _ _
  · simp only [bridgeKey, fillBridgeKey, flowOf, endpoints4, hcand.tokenPort]
    congr 1
    · exact copyBytes_take _ _
    · exact (copyBytes_copyBytes _ (by decide)).symm

theorem Redirected.returns6 {protocol : UInt8} {l4 : Nat} {syn : Bool} (hl4 : 54 ≤ l4)
    (h6 : 8 ≤ c.tokenIpv6Prefix.length)
    (hf : flagSet c.flags runtimeIpv6 ∨ flagSet c.flags runtimeDnsHijack)
    (h : Redirected inside hash c
      (originalOf s.skb afInet6 protocol l4 ip6Source ip6Destination 16) syn
      (touchedBytes6 ip6Destination (l4 + 2) (checksumOffset l4 protocol))
      ip6Destination (l4 + 2) 16 s s') :
    Returns c s.skb.ifindex (endpoints6 s.skb.data protocol l4)
        (endpoints6 s'.skb.data protocol l4) s' ∧
      Carries inside syn s.skb.ifindex (endpoints6 s.skb.data protocol l4)
        (endpoints6 s'.skb.data protocol l4) s' := by
  obtain ⟨token, ht, hinv, hrw, hpub⟩ := h
  have hcand := hinv.token ht
  have htake : token.tokenAddr.take 16 = token.tokenAddr :=
    List.take_of_length_le (by rw [hcand.tokenAddr_length])
  rw [htake] at hrw
  have he := hrw.endpoints6_destination hl4 (checksumOffset_le ..) hcand.tokenAddr_length protocol
  rw [he]
  refine ⟨⟨rfl, ?_, nofun, fun _ => ⟨hcand.inPrefix6 rfl h6, hf⟩, hinv.recorded ht ?_⟩,
    token, ht, ?_, hpub⟩
  · have := hrw.slice_length
    rw [hcand.tokenAddr_length] at this
    exact this
  · simp only [answerKey, fillReverseKey, originalOf, endpoints6, hcand.tokenPort]
    congr 1
    exact (copyBytes_copyBytes _ (by decide)).symm
  · simp only [bridgeKey, fillBridgeKey, flowOf, endpoints6, hcand.tokenPort]
    congr 1
    exact (copyBytes_copyBytes _ (by decide)).symm

/-- A rewrite leaves the part of the header alone that says where the ports are. -/
theorem endpoints4_of_edited {skb skb' : Skb} {addressOff portOff cs : Nat}
    (h : Edited (touchedBytes addressOff 4 portOff cs) skb skb') (ha : 26 ≤ addressOff)
    (hp : 34 ≤ portOff) (hcs : 34 ≤ cs) {l4 : Nat} (hv : be16 skb.data 12 = 0x0800)
    (he : endpoints skb.data = some (endpoints4 skb.data l4)) (hl4 : l4 =
      ethernetLength + (byteAt skb.data 14 &&& 15).toNat * 4) :
    endpoints skb'.data = some (endpoints4 skb'.data l4) := by
  have hb : ∀ i, i < 24 → byteAt skb'.data i = byteAt skb.data i := fun i hi =>
    h.rest i (by simp only [touchedBytes, ip4Checksum]; omega)
  have h12 : be16 skb'.data 12 = be16 skb.data 12 := be16_congr (hb _ (by omega)) (hb _ (by omega))
  have h20 : be16 skb'.data 20 = be16 skb.data 20 := be16_congr (hb _ (by omega)) (hb _ (by omega))
  have h14 : byteAt skb'.data 14 = byteAt skb.data 14 := hb _ (by omega)
  simp only [endpoints, hv, ↓reduceIte] at he
  simp only [endpoints, h12, h14, h20, hv, ↓reduceIte]
  split at he
  · cases he
  · rename_i hc
    rw [if_neg hc, hl4]

theorem endpoints6_of_edited {skb skb' : Skb} {addressOff portOff cs : Nat}
    (h : Edited (touchedBytes6 addressOff portOff cs) skb skb') {protocol : UInt8} {l4 : Nat}
    (ha : 22 ≤ addressOff) (ha' : addressOff ≤ 38) (hp : l4 ≤ portOff) (hcs : l4 + 6 ≤ cs)
    (hv : be16 skb.data 12 = 0x86dd)
    (hl4 : (byteAt skb.data 20 ≠ 44 ∧ l4 = 54 ∧ protocol = byteAt skb.data 20) ∨
      (byteAt skb.data 20 = 44 ∧ l4 = 62 ∧ protocol = byteAt skb.data 54))
    (he : endpoints skb.data = some (endpoints6 skb.data protocol l4)) :
    endpoints skb'.data = some (endpoints6 skb'.data protocol l4) := by
  have hb : ∀ i, i < 22 ∨ (54 ≤ i ∧ i < l4) → byteAt skb'.data i = byteAt skb.data i :=
    fun i hi => h.rest i (by simp only [touchedBytes6]; omega)
  have h12 : be16 skb'.data 12 = be16 skb.data 12 := be16_congr (hb _ (by omega)) (hb _ (by omega))
  have h14 : byteAt skb'.data 14 = byteAt skb.data 14 := hb _ (by omega)
  have h20 : byteAt skb'.data 20 = byteAt skb.data 20 := hb _ (by omega)
  have hne : ¬(0x86dd : UInt16) = 0x0800 := by decide
  simp only [endpoints, hv, hne, ↓reduceIte] at he
  simp only [endpoints, h12, h14, h20, hv, hne, ↓reduceIte]
  split at he
  · cases he
  rename_i hver
  rw [if_neg hver]
  rcases hl4 with ⟨hnf, rfl, rfl⟩ | ⟨hfr, rfl, rfl⟩
  · rw [if_pos hnf]
  · have h54 : byteAt skb'.data 54 = byteAt skb.data 54 := hb _ (by omega)
    have h56 : be16 skb'.data 56 = be16 skb.data 56 :=
      be16_congr (hb _ (by omega)) (hb _ (by omega))
    have hfr' : ¬byteAt skb.data 20 ≠ 44 := not_not.mpr hfr
    rw [if_neg hfr', h56, h54]
    rw [if_neg hfr'] at he
    split at he
    · cases he
    · rename_i hoff
      rw [if_neg hoff]

/-- How `ingress4` and `ingress6` leave a packet with ports that they rewrite. -/
def LeavesRewritten (inside : Vanish → Prop) (c : RuntimeControl) (s s' : State) (v : Verdict) :
    Prop :=
  v = .ok → ∀ e, endpoints s.skb.data = some e →
    ∃ e', endpoints s'.skb.data = some e' ∧ s'.skb.ifindex = s.skb.ifindex ∧
      Returns c s.skb.ifindex e e' s' ∧
      Carries inside (e.protocol = protoTcp ∧ isTcpSyn s.skb (transport s.skb.data))
        s.skb.ifindex e e' s'

theorem ingress4_sat (h : Inverse hash c s) (hin : OnlyBridge inside)
    (hv4 : be16 s.skb.data 12 = 0x0800) :
    Prog.Sat (admissible inside) (fun s' v => LeavesRewritten inside c s s' v) (ingress4 hash c s) := by
  refine Act.sat_ite (fun _ => nofun) fun hver => Act.sat_ite (fun hlater => ?_) fun hfirst =>
    Act.sat_ite (fun _ => nofun) fun _ => Act.sat_ite (fun _ => nofun) fun _ =>
    Act.sat_ite (fun _ => nofun) fun _ => ?_
  · -- a later fragment has no ports
    refine Prog.sat_true.mono fun s' v _ _ e he => ?_
    rw [endpoints, if_pos hv4, if_pos (.inr (.inr hlater))] at he
    cases he
  · rw [not_or, not_lt] at hver
    have hends : endpoints s.skb.data = some (endpoints4 s.skb.data
        (ethernetLength + (byteAt s.skb.data 14 &&& 15).toNat * 4)) := by
      rw [endpoints, if_pos hv4, if_neg]
      rintro (hc | hc | hc)
      · exact hver.1 hc
      · omega
      · exact hfirst hc
    have hl4 : 34 ≤ ethernetLength + (byteAt s.skb.data 14 &&& 15).toNat * 4 := by
      show 34 ≤ 14 + _
      omega
    refine (ingress4Flow_sat h hin hl4 _).mono fun s' v hred hv e he => ?_
    have hr := hred hv
    obtain rfl : endpoints4 s.skb.data _ = e := Option.some.inj (hends.symm.trans he)
    have hto : transport s.skb.data = ethernetLength + (byteAt s.skb.data 14 &&& 15).toNat * 4 :=
      if_pos hv4
    rw [hto]
    refine ⟨_, ?_, ?_, hr.returns4 hl4⟩
    · obtain ⟨token, -, -, hrw, -⟩ := hr
      have hcs := checksumOffset_le
        (ethernetLength + (byteAt s.skb.data 14 &&& 15).toNat * 4) (byteAt s.skb.data 23)
      exact endpoints4_of_edited hrw.edited (by decide) (by omega) (by omega) hv4 hends rfl
    · obtain ⟨token, -, -, hrw, -⟩ := hr
      exact hrw.edited.ifindex

theorem ingress6Transport_sat (h : Inverse hash c s) (hin : OnlyBridge inside)
    (h6 : 8 ≤ c.tokenIpv6Prefix.length) (hv6 : be16 s.skb.data 12 = 0x86dd) {protocol : UInt8}
    {l4 : Nat} (fragment : Option FragmentKey)
    (hl4 : (byteAt s.skb.data 20 ≠ 44 ∧ l4 = 54 ∧ protocol = byteAt s.skb.data 20) ∨
      (byteAt s.skb.data 20 = 44 ∧ l4 = 62 ∧ protocol = byteAt s.skb.data 54))
    (hends : endpoints s.skb.data = some (endpoints6 s.skb.data protocol l4)) :
    Prog.Sat (admissible inside) (fun s' v => LeavesRewritten inside c s s' v)
      (ingress6Transport hash c protocol l4 fragment s) := by
  have hl4' : 54 ≤ l4 := by
    rcases hl4 with h | h <;> omega
  refine Act.sat_ite (fun _ => nofun) fun _ => Act.sat_ite (fun _ => nofun) fun _ =>
    Act.sat_ite (fun _ => nofun) fun _ => ?_
  refine (ingress6Flow_sat h hin hl4' fragment).mono fun s' v hred hv e he => ?_
  obtain ⟨hf, hr⟩ := hred hv
  obtain rfl : endpoints6 s.skb.data protocol l4 = e := Option.some.inj (hends.symm.trans he)
  have hto : transport s.skb.data = l4 := by
    rw [transport, if_neg (by rw [hv6]; decide)]
    rcases hl4 with ⟨hnf, rfl, -⟩ | ⟨hfr, rfl, -⟩
    · rw [if_pos hnf]
    · rw [if_neg (not_not.mpr hfr)]
  rw [hto]
  refine ⟨_, ?_, ?_, hr.returns6 hl4' h6 hf⟩
  · obtain ⟨token, -, -, hrw, -⟩ := hr
    exact endpoints6_of_edited hrw.edited (by decide) (by decide) (by omega)
      (checksumOffset_le ..) hv6 hl4 hends
  · obtain ⟨token, -, -, hrw, -⟩ := hr
    exact hrw.edited.ifindex

theorem ingress6_sat (h : Inverse hash c s) (hin : OnlyBridge inside)
    (h6 : 8 ≤ c.tokenIpv6Prefix.length) (hv6 : be16 s.skb.data 12 = 0x86dd) :
    Prog.Sat (admissible inside) (fun s' v => LeavesRewritten inside c s s' v) (ingress6 hash c s) := by
  have hne : ¬be16 s.skb.data 12 = 0x0800 := by rw [hv6]; decide
  refine Act.sat_ite (fun _ => nofun) fun hver => Act.sat_ite (fun hnf => ?_) fun hfr =>
    Act.sat_ite (fun _ => nofun) fun _ => Act.sat_ite (fun _ => nofun) fun _ =>
    Act.sat_ite (fun hlater => ?_) fun hfirst => ?_
  · refine ingress6Transport_sat h hin h6 hv6 none (.inl ⟨hnf, rfl, rfl⟩) ?_
    rw [endpoints, if_neg hne, if_pos hv6, if_neg hver, if_pos hnf]
    rfl
  · have hlater' : be16 s.skb.data 56 &&& 0xfff8 ≠ 0 := hlater
    refine Prog.sat_true.mono fun s' v _ _ e he => ?_
    rw [endpoints, if_neg hne, if_pos hv6, if_neg hver, if_neg hfr, if_pos hlater'] at he
    cases he
  · have hfirst' : ¬be16 s.skb.data 56 &&& 0xfff8 ≠ 0 := hfirst
    refine ingress6Transport_sat h hin h6 hv6 _ (.inr ⟨not_not.mp hfr, rfl, rfl⟩) ?_
    rw [endpoints, if_neg hne, if_pos hv6, if_neg hver, if_neg hfr, if_neg hfirst']
    rfl

/-- **Ingress**: a packet with ports that leaves rewritten goes to a token from which there is a way
back. -/
theorem classify_ingress_sat (h : Inverse hash c s) (hin : OnlyBridge inside)
    (h6 : 8 ≤ c.tokenIpv6Prefix.length) :
    Prog.Sat (admissible inside) (fun s' v => LeavesRewritten inside c s s' v)
      (classify hash c .ingress s) := by
  refine Act.sat_ite (fun _ => nofun) fun _ => ?_
  intro pulled _
  refine Act.sat_ite (fun _ => nofun) fun _ => Act.sat_ite (fun _ => nofun) fun _ =>
    Act.sat_ite (fun hv4 => Act.sat_ite (fun _ => nofun) fun _ => ?_) fun hn4 =>
    Act.sat_ite (fun hv6 => Act.sat_ite (fun _ => nofun) fun _ => ?_) fun _ => nofun
  · exact ingress4_sat h hin hv4
  · exact ingress6_sat h hin h6 hv6

end Rewritten

/-! ## Egress -/

/-- The ends of an answer. -/
def Endpoints.flip (e : Endpoints) : Endpoints :=
  ⟨e.family, e.protocol, e.destination, e.destinationPort, e.source, e.sourcePort⟩

/-- An answer is dropped, or leaves with this source. -/
def LeavesFrom (address : List UInt8) (port : UInt16) (w : Endpoints) (s' : State) (v : Verdict) :
    Prop :=
  v = .shot ∨
    (v = .ok ∧ endpoints s'.skb.data = some { w with source := address, sourcePort := port })

section Egress

variable {inside : Vanish → Prop} {s s' : State} {c : RuntimeControl} {e e' w : Endpoints}

theorem copyBytes_take_self {address : List UInt8} {size : Nat} (h : address.length = size)
    (hs : size ≤ 16) : (copyBytes address size).take size = address := by
  subst h
  rw [copyBytes, List.take_take, Nat.min_eq_left hs, List.take_length, List.take_left]

/-- Egress finds the record of the flow that is answered. -/
theorem findOriginal_recorded {key : ReverseKey} {addr : List UInt8} {port : UInt16}
    (hin : OnlyBridge inside) (h : Recorded c key addr port s) :
    Prog.Sat (admissible inside)
      (fun s' r => s'.skb = s.skb ∧
        ∃ v, r = some v ∧ v.originalAddr = addr ∧ v.originalPort = port)
      (findOriginal key c s) := by
  obtain ⟨v, hv, ha, hp, hg⟩ := h
  refine (findOriginal_sat hin key).mono fun s' r ⟨hr, hnone⟩ => ?_
  cases r with
  | none => exact absurd hg (hnone rfl v hv)
  | some v' =>
      obtain ⟨hv', -, -, hskb, -⟩ := hr
      rw [hv] at hv'
      cases hv'
      exact ⟨hskb, v, rfl, ha, hp⟩

theorem egress4_sat (hin : OnlyBridge inside) (hv4 : be16 s.skb.data 12 = 0x0800)
    (hw : endpoints s.skb.data = some e'.flip) (hr : Returns c s.skb.ifindex e e' s) :
    Prog.Sat (admissible inside)
      (fun s' v => LeavesFrom e.destination e.destinationPort e'.flip s' v) (egress4 c s) := by
  have hends := hw
  rw [endpoints, if_pos hv4] at hends
  refine Act.sat_ite (fun _ => .inl rfl) fun hver => Act.sat_ite (fun _ => .inl rfl) fun _ => ?_
  split at hends
  · cases hends
  have hflip := Option.some.inj hends
  have hfam : e'.family = afInet := (congrArg Endpoints.family hflip).symm
  have hfam' : e.family = afInet := by
    rw [hr.moved] at hfam
    exact hfam
  have hsrc : slice s.skb.data ip4Source 4 = e'.destination := congrArg Endpoints.source hflip
  -- the answer comes from the token, so the branch of a foreign source is not taken
  have hpre : ipv4InTokenPrefix (slice s.skb.data ip4Source 4) c = true := by
    rw [hsrc]
    exact (hr.token4 hfam').inside
  refine Act.sat_ite (fun hp => ?_) fun _ => Act.sat_ite (fun _ => .inl rfl) fun _ =>
    Act.sat_ite (fun _ => .inl rfl) fun _ => Act.sat_ite (fun _ => .inl rfl) fun _ => ?_
  · rw [hpre] at hp
    cases hp
  -- the key egress reads off the packet is the one ingress recorded
  have hkey : reverseOf s.skb c afInet (byteAt s.skb.data 23)
      (ethernetLength + (byteAt s.skb.data 14 &&& 15).toNat * 4) ip4Source ip4Destination 4 =
      answerKey c s.skb.ifindex e' := by
    have hdst : slice s.skb.data ip4Destination 4 = e'.source :=
      congrArg Endpoints.destination hflip
    have hdp := congrArg Endpoints.destinationPort hflip
    have hproto := congrArg Endpoints.protocol hflip
    simp only [reverseOf, answerKey, hfam, hsrc, hdst, addressSize]
    congr 1
  have hl4 : 34 ≤ ethernetLength + (byteAt s.skb.data 14 &&& 15).toNat * 4 := by
    rw [not_or, not_lt] at hver
    show 34 ≤ 14 + _
    omega
  rw [hkey]
  refine (findOriginal_recorded hin hr.recorded).bind fun s₁ r ⟨hskb, v, hv, ha, hp⟩ => ?_
  subst hv
  have hsize : e.destination.length = 4 := by rw [hr.size, hfam']; rfl
  have haddr : v.originalAddr.take 4 = e.destination := by
    rw [ha, hfam']
    exact copyBytes_take_self hsize (by decide)
  refine (rewriteIpv4_sat (by rw [haddr, hsize]) rfl (by show 26 + 4 ≤ _; omega)).mono
    fun s' v hv => ?_
  rcases hv with hv | ⟨hv, hrw⟩
  · exact .inl hv
  · refine .inr ⟨hv, ?_⟩
    rw [hskb, haddr, hp] at hrw
    have hcs := checksumOffset_le
      (ethernetLength + (byteAt s.skb.data 14 &&& 15).toNat * 4) (byteAt s.skb.data 23)
    rw [endpoints4_of_edited hrw.edited (by decide) (by omega) (by omega) hv4
      (hw.trans hends.symm) rfl, hrw.endpoints4_source hl4 hcs hsize, hflip]

theorem egress6_sat (hin : OnlyBridge inside) (hv6 : be16 s.skb.data 12 = 0x86dd)
    (hw : endpoints s.skb.data = some e'.flip) (hr : Returns c s.skb.ifindex e e' s) :
    Prog.Sat (admissible inside)
      (fun s' v => LeavesFrom e.destination e.destinationPort e'.flip s' v) (egress6 c s) := by
  have hne : ¬be16 s.skb.data 12 = 0x0800 := by rw [hv6]; decide
  have hends := hw
  rw [endpoints, if_neg hne, if_pos hv6] at hends
  obtain ⟨protocol, l4, hsome⟩ : ∃ protocol l4,
      some (endpoints6 s.skb.data protocol l4) = some e'.flip := by
    split at hends
    · cases hends
    · split at hends
      · exact ⟨_, _, hends⟩
      · split at hends
        · cases hends
        · exact ⟨_, _, hends⟩
  have hfam : e'.family = afInet6 := (congrArg Endpoints.family (Option.some.inj hsome)).symm
  have hfam' : e.family = afInet6 := by
    rw [hr.moved] at hfam
    exact hfam
  obtain ⟨hpre, hflags⟩ := hr.token6 hfam'
  have hsrc : slice s.skb.data ip6Source 16 = e'.destination :=
    congrArg Endpoints.source (Option.some.inj hsome)
  refine Act.sat_ite (fun hf => ?_) fun _ => Act.sat_ite (fun _ => .inl rfl) fun hver =>
    Act.sat_ite (fun hp => ?_) fun _ => Act.sat_ite (fun _ => .inl rfl) fun hproto =>
    Act.sat_ite (fun _ => .inl rfl) fun _ => Act.sat_ite (fun _ => .inl rfl) fun _ => ?_
  · simp_all
  · rw [hsrc, hpre] at hp
    cases hp
  -- an answer in fragments is dropped, so there is no fragment header
  have hnf : byteAt s.skb.data 20 ≠ 44 := by
    intro h44
    rw [h44] at hproto
    exact hproto (by decide)
  rw [if_neg hver, if_pos hnf] at hends
  have hflip := Option.some.inj hends
  have hkey : reverseOf s.skb c afInet6 (byteAt s.skb.data 20) (ethernetLength + ipv6Length)
      ip6Source ip6Destination 16 = answerKey c s.skb.ifindex e' := by
    have hdst : slice s.skb.data ip6Destination 16 = e'.source :=
      congrArg Endpoints.destination hflip
    have hdp := congrArg Endpoints.destinationPort hflip
    have hpr := congrArg Endpoints.protocol hflip
    simp only [reverseOf, answerKey, hfam, hsrc, hdst, addressSize]
    congr 1
  rw [hkey]
  refine (findOriginal_recorded hin hr.recorded).bind fun s₁ r ⟨hskb, v, hv, ha, hp⟩ => ?_
  subst hv
  have hsize : e.destination.length = 16 := by rw [hr.size, hfam']; rfl
  have haddr : v.originalAddr = e.destination := by
    have hcopy := copyBytes_take_self hsize (Nat.le_refl 16)
    rw [List.take_of_length_le (by rw [copyBytes_length])] at hcopy
    rw [ha, hfam']
    exact hcopy
  refine (rewriteIpv6_sat (by rw [haddr, hsize]) rfl (by decide)).mono fun s' v hv => ?_
  rcases hv with hv | ⟨hv, hrw⟩
  · exact .inl hv
  · refine .inr ⟨hv, ?_⟩
    rw [hskb, haddr, hp] at hrw
    have hcs := checksumOffset_le (ethernetLength + ipv6Length) (byteAt s.skb.data 20)
    rw [endpoints6_of_edited hrw.edited (by decide) (by decide) (le_refl _) hcs hv6
      (.inl ⟨hnf, rfl, rfl⟩) (hw.trans hends.symm),
      hrw.endpoints6_source (by decide) hcs hsize, ← hflip]
    rfl

/-- **Egress**: the answer to a rewritten packet is dropped or leaves with the original destination
as its source. -/
theorem classifyPulled_egress_sat {hash : OriginalKey → UInt32 → UInt32} (hin : OnlyBridge inside)
    (hw : endpoints s.skb.data = some e'.flip) (hr : Returns c s.skb.ifindex e e' s) :
    Prog.Sat (admissible inside)
      (fun s' v => LeavesFrom e.destination e.destinationPort e'.flip s' v)
      (classifyPulled hash c .egress s) := by
  refine Act.sat_ite (fun _ => .inl rfl) fun _ =>
    Act.sat_ite (fun hv4 => Act.sat_ite (fun _ => .inl rfl) fun _ => ?_) fun hn4 =>
    Act.sat_ite (fun hv6 => Act.sat_ite (fun _ => .inl rfl) fun _ => ?_) fun hn6 => ?_
  · exact egress4_sat hin hv4 hw hr
  · exact egress6_sat hin hv6 hw hr
  · rw [endpoints, if_neg hn4, if_neg hn6] at hw
    cases hw

/-- The record survives the run, whatever packet is at hand. -/
theorem Returns.run {hash : OriginalKey → UInt32 → UInt32} {ifindex : UInt32}
    (h : Returns c ifindex e e' s)
    (hrun : Relation.ReflTransGen (StepWithoutEviction hash c) s s') (answer : Skb)
    (hif : answer.ifindex = ifindex) : Returns c answer.ifindex e e' { s' with skb := answer } := by
  subst hif
  have hrecorded : Recorded c _ _ _ { s' with skb := answer } := (h.recorded.run hrun).congr rfl
  exact ⟨h.moved, h.size, h.token4, h.token6, hrecorded⟩

end Egress

/-! ## Answers that egress can translate -/

/-- Answers of the kernel in which `skb_pull_data` and every packet helper succeed. -/
def served (inside : Vanish → Prop) : State → (q : Sys) → q.Answer → Prop
  | _, .preempt, gone => ∀ v ∈ gone, inside v
  | _, .room, _ => True
  | _, .now, _ => True
  | _, .pullData, pulled => pulled = true
  | _, .helper, done => done = true

/-- An unfragmented TCP or UDP packet that is linear up to its ports and holds its transport
checksum. -/
structure Legible (skb : Skb) (protocol : UInt8) : Prop where
  known : protocol = protoTcp ∨ protocol = protoUdp
  whole4 : be16 skb.data 12 = 0x0800 → be16 skb.data 20 &&& 0x3fff = 0
  whole6 : be16 skb.data 12 = 0x86dd → byteAt skb.data 20 ≠ 44
  ports : transport skb.data + portsLength ≤ skb.headlen
  checksum : checksumOffset (transport skb.data) protocol + 2 ≤ skb.data.length

section Served

variable {inside : Vanish → Prop} {s : State} {c : RuntimeControl} {e e' : Endpoints} {n : Nat}

theorem served_admissible (s : State) (q : Sys) (r : q.Answer) (h : served inside s q r) :
    admissible inside s q r := by
  cases q with
  | preempt => exact h
  | _ => trivial

/-- The helper succeeds on packets of `n` bytes, and leaves as many. -/
def Fits (inside : Vanish → Prop) (n : Nat) (f : Code Bool) : Prop :=
  ∀ s : State, s.skb.data.length = n →
    Prog.Sat (served inside) (fun s' r => r = true ∧ s'.skb.data.length = n) (f s)

theorem replaceChecksum_fits {off : Nat} (h : off + 2 ≤ n) (mangled : Bool) (old new : List UInt8) :
    Fits inside n (replaceChecksum off mangled old new) := by
  intro s hs done hdone
  have hdone' : done = true := hdone
  refine Act.sat_ite (fun hc => ?_) fun _ => ⟨rfl, ?_⟩
  · rcases hc with hc | hc
    · rw [hdone'] at hc
      cases hc
    · omega
  · exact (csumReplace_length (by omega) ..).trans hs

theorem skbStoreBytes_fits {off : Nat} {bytes : List UInt8} (h : off + bytes.length ≤ n) :
    Fits inside n (skbStoreBytes off bytes) := by
  intro s hs done hdone
  have hdone' : done = true := hdone
  refine Act.sat_ite (fun hc => ?_) fun _ => ⟨rfl, ?_⟩
  · rcases hc with hc | hc
    · rw [hdone'] at hc
      cases hc
    · omega
  · exact (storeBytes_length (by omega)).trans hs

theorem rewriteAll_fits {fs : List (Code Bool)} (hfs : ∀ f ∈ fs, Fits inside n f)
    (hs : s.skb.data.length = n) :
    Prog.Sat (served inside) (fun _ v => v = .ok) (rewriteAll fs s) := by
  have hall : Prog.Sat (served inside) (fun _ r => r = true) (allOk fs s) := by
    induction fs generalizing s with
    | nil => exact rfl
    | cons f fs ih =>
        refine (hfs f (List.mem_cons_self ..) s hs).bind fun s₁ r hr => ?_
        obtain ⟨rfl, hs₁⟩ := hr
        exact ih (fun g hg => hfs g (List.mem_cons_of_mem _ hg)) hs₁
  refine hall.bind fun s₁ r hr => ?_
  subst hr
  exact rfl

theorem rewriteIpv4_fits {addressOff portOff checksumOff : Nat} {oldA newA oldP newP : List UInt8}
    (protocol : UInt8) (hA : newA.length = 4) (hP : newP.length = 2)
    (hdis : addressOff + 4 ≤ portOff) (hport : portOff + 2 ≤ checksumOff) (hip : 26 ≤ addressOff)
    (hc : checksumOff + 2 ≤ s.skb.data.length) :
    Prog.Sat (served inside) (fun _ v => v = .ok)
      (rewriteIpv4 addressOff portOff checksumOff oldA newA oldP newP protocol s) := by
  refine rewriteAll_fits (n := s.skb.data.length) (fun f hf => ?_) rfl
  simp only [List.mem_cons, List.not_mem_nil, or_false] at hf
  rcases hf with rfl | rfl | rfl | rfl | rfl
  · exact replaceChecksum_fits (by show 24 + 2 ≤ _; omega) _ _ _
  · exact replaceChecksum_fits hc _ _ _
  · exact replaceChecksum_fits hc _ _ _
  · exact skbStoreBytes_fits (by omega)
  · exact skbStoreBytes_fits (by omega)

theorem rewriteIpv6_fits {addressOff portOff checksumOff : Nat} {oldA newA oldP newP : List UInt8}
    (protocol : UInt8) (hA : newA.length = 16) (hP : newP.length = 2)
    (hdis : addressOff + 16 ≤ portOff) (hport : portOff + 2 ≤ checksumOff)
    (hc : checksumOff + 2 ≤ s.skb.data.length) :
    Prog.Sat (served inside) (fun _ v => v = .ok)
      (rewriteIpv6 addressOff portOff checksumOff oldA newA oldP newP protocol s) := by
  refine rewriteAll_fits (n := s.skb.data.length) (fun f hf => ?_) rfl
  rcases List.mem_append.mp hf with hf | hf
  · obtain ⟨off, -, rfl⟩ := List.mem_map.mp hf
    exact replaceChecksum_fits hc _ _ _
  · simp only [List.mem_cons, List.not_mem_nil, or_false] at hf
    rcases hf with rfl | rfl | rfl
    · exact replaceChecksum_fits hc _ _ _
    · exact skbStoreBytes_fits (by omega)
    · exact skbStoreBytes_fits (by omega)

theorem egress4_served (hin : OnlyBridge inside) (hv4 : be16 s.skb.data 12 = 0x0800)
    (hw : endpoints s.skb.data = some e'.flip) (hr : Returns c s.skb.ifindex e e' s)
    (hlegible : Legible s.skb e'.protocol) :
    Prog.Sat (served inside) (fun _ v => v = .ok) (egress4 c s) := by
  have hto : transport s.skb.data = ethernetLength + (byteAt s.skb.data 14 &&& 15).toNat * 4 :=
    if_pos hv4
  have hports := hlegible.ports
  have hsum := hlegible.checksum
  rw [hto] at hports hsum
  have hends := hw
  rw [endpoints, if_pos hv4] at hends
  split at hends
  · cases hends
  rename_i hbad
  rw [not_or, not_or, not_lt] at hbad
  have hflip := Option.some.inj hends
  have hproto : byteAt s.skb.data 23 = e'.protocol := congrArg Endpoints.protocol hflip
  have hfam : e'.family = afInet := (congrArg Endpoints.family hflip).symm
  have hfam' : e.family = afInet := by
    rw [hr.moved] at hfam
    exact hfam
  have hport : be16 s.skb.data (ethernetLength + (byteAt s.skb.data 14 &&& 15).toNat * 4) =
      c.bridgePort := by
    have hsource : be16 s.skb.data (ethernetLength + (byteAt s.skb.data 14 &&& 15).toNat * 4) =
        e'.destinationPort := congrArg Endpoints.sourcePort hflip
    rw [hsource, hr.moved]
  have hsrc : slice s.skb.data ip4Source 4 = e'.destination := congrArg Endpoints.source hflip
  have hdst : slice s.skb.data ip4Destination 4 = e'.source := congrArg Endpoints.destination hflip
  have hpre : ipv4InTokenPrefix (slice s.skb.data ip4Source 4) c = true := by
    rw [hsrc]
    exact (hr.token4 hfam').inside
  have hkey : reverseOf s.skb c afInet (byteAt s.skb.data 23)
      (ethernetLength + (byteAt s.skb.data 14 &&& 15).toNat * 4) ip4Source ip4Destination 4 =
      answerKey c s.skb.ifindex e' := by
    have hdp := congrArg Endpoints.destinationPort hflip
    simp only [reverseOf, answerKey, hfam, hsrc, hdst, addressSize]
    congr 1
  -- no branch that drops the packet is taken
  refine Act.sat_ite (fun h => ?_) fun _ => Act.sat_ite (fun h => ?_) fun _ =>
    Act.sat_ite (fun h => ?_) fun _ => Act.sat_ite (fun h => ?_) fun _ =>
    Act.sat_ite (fun h => ?_) fun _ => Act.sat_ite (fun h => ?_) fun _ => ?_
  · exact absurd h (not_or.mpr ⟨hbad.1, by omega⟩)
  · omega
  · rw [hpre] at h
    cases h
  · exact absurd (hlegible.whole4 hv4) h
  · rw [hproto] at h
    exact absurd hlegible.known (not_or.mpr h)
  · exact absurd hport h
  rw [hkey]
  refine ((findOriginal_recorded hin hr.recorded).weaken served_admissible).bind fun s₁ r h₁ => ?_
  obtain ⟨hskb, v, hv, ha, hp⟩ := h₁
  subst hv
  have hsize : e.destination.length = 4 := by rw [hr.size, hfam']; rfl
  have haddr : v.originalAddr.take 4 = e.destination := by
    rw [ha, hfam']
    exact copyBytes_take_self hsize (by decide)
  have hcs := checksumOffset_le
    (ethernetLength + (byteAt s.skb.data 14 &&& 15).toNat * 4) (byteAt s.skb.data 23)
  refine rewriteIpv4_fits _ (by rw [haddr, hsize]) rfl (by show 26 + 4 ≤ 14 + _; omega) (by omega)
    (by decide) ?_
  rw [hskb, hproto]
  exact hsum

theorem egress6_served (hin : OnlyBridge inside) (hv6 : be16 s.skb.data 12 = 0x86dd)
    (hw : endpoints s.skb.data = some e'.flip) (hr : Returns c s.skb.ifindex e e' s)
    (hlegible : Legible s.skb e'.protocol) :
    Prog.Sat (served inside) (fun _ v => v = .ok) (egress6 c s) := by
  have hne : ¬be16 s.skb.data 12 = 0x0800 := by rw [hv6]; decide
  have hnf : byteAt s.skb.data 20 ≠ 44 := hlegible.whole6 hv6
  have hto : transport s.skb.data = 54 := by rw [transport, if_neg hne, if_pos hnf]
  have hports := hlegible.ports
  have hsum := hlegible.checksum
  rw [hto] at hports hsum
  have hends := hw
  rw [endpoints, if_neg hne, if_pos hv6] at hends
  split at hends
  · cases hends
  rename_i hver
  have hflip := Option.some.inj hends
  have hproto : byteAt s.skb.data 20 = e'.protocol := congrArg Endpoints.protocol hflip
  have hfam : e'.family = afInet6 := (congrArg Endpoints.family hflip).symm
  have hfam' : e.family = afInet6 := by
    rw [hr.moved] at hfam
    exact hfam
  have hport : be16 s.skb.data (ethernetLength + ipv6Length) = c.bridgePort := by
    have hsource : be16 s.skb.data 54 = e'.destinationPort := congrArg Endpoints.sourcePort hflip
    show be16 s.skb.data 54 = _
    rw [hsource, hr.moved]
  obtain ⟨hpre, hflags⟩ := hr.token6 hfam'
  have hsrc : slice s.skb.data ip6Source 16 = e'.destination := congrArg Endpoints.source hflip
  have hdst : slice s.skb.data ip6Destination 16 = e'.source := congrArg Endpoints.destination hflip
  -- the key egress reads off the packet is the one ingress recorded
  have hkey : reverseOf s.skb c afInet6 (byteAt s.skb.data 20) (ethernetLength + ipv6Length)
      ip6Source ip6Destination 16 = answerKey c s.skb.ifindex e' := by
    have hdp := congrArg Endpoints.destinationPort hflip
    simp only [reverseOf, answerKey, hfam, hsrc, hdst, addressSize]
    congr 1
  -- each early exit contradicts the legibility of the answer or the token it came from
  refine Act.sat_ite (fun h => ?_) fun _ => Act.sat_ite (fun h => ?_) fun _ =>
    Act.sat_ite (fun h => ?_) fun _ => Act.sat_ite (fun h => ?_) fun _ =>
    Act.sat_ite (fun h => ?_) fun _ => Act.sat_ite (fun h => ?_) fun _ => ?_
  · simp_all
  · exact absurd h hver
  · rw [hsrc, hpre] at h
    cases h
  · rw [hproto] at h
    exact absurd hlegible.known (not_or.mpr h)
  · have h54 : s.skb.headlen < 54 + portsLength := h
    omega
  · exact absurd hport h
  rw [hkey]
  refine ((findOriginal_recorded hin hr.recorded).weaken served_admissible).bind fun s₁ r h₁ => ?_
  obtain ⟨hskb, v, hv, ha, hp⟩ := h₁
  subst hv
  have hsize : v.originalAddr.length = 16 := by rw [ha, copyBytes_length]
  have hcs := checksumOffset_le (ethernetLength + ipv6Length) (byteAt s.skb.data 20)
  refine rewriteIpv6_fits _ hsize rfl (by decide) (by omega) ?_
  rw [hskb, hproto]
  exact hsum

/-- A legible packet is linear up to the end of its network header. -/
theorem Legible.linear {skb : Skb} {protocol : UInt8} {w : Endpoints} (h : Legible skb protocol)
    (hw : endpoints skb.data = some w) : 34 ≤ skb.headlen ∧
      (be16 skb.data 12 = 0x86dd → 54 ≤ skb.headlen) := by
  have hports := h.ports
  by_cases hv4 : be16 skb.data 12 = 0x0800
  · rw [endpoints, if_pos hv4] at hw
    split at hw
    · cases hw
    · rename_i hbad
      rw [not_or, not_or, not_lt] at hbad
      rw [transport, if_pos hv4] at hports
      have hlen : 14 + (byteAt skb.data 14 &&& 15).toNat * 4 + 4 ≤ skb.headlen := hports
      refine ⟨by omega, fun hv6 => ?_⟩
      rw [hv4] at hv6
      cases hv6
  · have h54 : 54 ≤ transport skb.data := by
      rw [transport, if_neg hv4]
      split <;> omega
    exact ⟨by omega, fun _ => by omega⟩

/-- **Egress**: a legible answer to a rewritten packet is translated when the helpers succeed. -/
theorem classify_egress_served {hash : OriginalKey → UInt32 → UInt32} (hin : OnlyBridge inside)
    (hon : c.enabled ≠ 0) (hw : endpoints s.skb.data = some e'.flip)
    (hr : Returns c s.skb.ifindex e e' s) (hlegible : Legible s.skb e'.protocol) :
    Prog.Sat (served inside)
      (fun s' v => v = .ok ∧ endpoints s'.skb.data =
        some { e'.flip with source := e.destination, sourcePort := e.destinationPort })
      (classify hash c .egress s) := by
  have hfrom : Prog.Sat (served inside)
      (fun s' v => LeavesFrom e.destination e.destinationPort e'.flip s' v)
      (classifyPulled hash c .egress s) :=
    (classifyPulled_egress_sat hin hw hr).weaken served_admissible
  have hok : Prog.Sat (served inside) (fun _ v => v = .ok) (classifyPulled hash c .egress s) := by
    obtain ⟨h34, h54⟩ := hlegible.linear hw
    refine Act.sat_ite (fun h => ?_) fun _ =>
      Act.sat_ite (fun hv4 => Act.sat_ite (fun h => ?_) fun _ => ?_) fun hn4 =>
      Act.sat_ite (fun hv6 => Act.sat_ite (fun h => ?_) fun _ => ?_) fun hn6 => ?_
    · have hshort : s.skb.headlen < 14 := h
      omega
    · have hshort : s.skb.headlen < 14 + 20 := h
      omega
    · exact egress4_served hin hv4 hw hr hlegible
    · have hshort : s.skb.headlen < 14 + 40 := h
      have := h54 hv6
      omega
    · exact egress6_served hin hv6 hw hr hlegible
    · rw [endpoints, if_neg hn4, if_neg hn6] at hw
      cases hw
  refine Act.sat_ite (fun h => absurd h hon) fun _ => ?_
  intro pulled hpulled
  have hpulled' : pulled = true := hpulled
  refine Act.sat_ite (fun h => ?_) fun _ => ?_
  · rw [hpulled'] at h
    cases h
  · refine (hfrom.and hok).mono fun s' v hv => ?_
    obtain ⟨hshot | htranslated, rfl⟩ := hv
    · cases hshot
    · exact htranslated

end Served

/-! ## Runs -/

/-- The control record of a configuration, with the sixteen bytes of its IPv6 token prefix. -/
def controlOf (enableIpv6 enableDnsHijack bypassDirect : Bool) (listenPort : UInt16)
    (tokenIpv6 : Fin 16 → UInt8) : RuntimeControl :=
  startControl enableIpv6 enableDnsHijack bypassDirect listenPort (List.ofFn tokenIpv6)

/-- **The token maps stay inverse**, in every state of every run without eviction, for every hash
and configuration.

A flow's token of the current generation leads back to its original; two originals of one client
endpoint have different tokens; IPv4 tokens lie in `127.128.0.0/9`, outside `127.128.0.0/24` and are
not `127.255.255.255`; a failed allocation leaves the three maps as they were, but for entries the
bridge took meanwhile; and after a packet left ingress rewritten, its answers, at any later time,
leave egress with exactly the original destination as their source where they are legible and the
helpers succeed, and are otherwise dropped or leave so once their headers could be pulled; where
`skb_pull_data` fails they pass as they are. -/
theorem tokenMaps_inverse (hash : OriginalKey → UInt32 → UInt32)
    (enableIpv6 enableDnsHijack bypassDirect : Bool) (listenPort : UInt16)
    (tokenIpv6 : Fin 16 → UInt8) (c : RuntimeControl)
    (hc : c = controlOf enableIpv6 enableDnsHijack bypassDirect listenPort tokenIpv6) (s : State)
    (hs : Reach Consumes (fun _ => Consumes) hash c s) :
    (∀ o t, s.originalToToken o = some t → t.generation = c.generation →
      ∃ v, s.tokenToOriginal (fillReverseKey o t) = some v ∧ v.originalAddr = o.originalAddr ∧
        v.originalPort = o.originalPort) ∧
    (∀ o o' t t', s.originalToToken o = some t → s.originalToToken o' = some t' →
      t.generation = c.generation → t'.generation = c.generation → o ≠ o' →
      o.ifindex = o'.ifindex → o.family = o'.family → o.protocol = o'.protocol →
      o.clientAddr = o'.clientAddr → o.clientPort = o'.clientPort → t.tokenAddr ≠ t'.tokenAddr) ∧
    (∀ o t, s.originalToToken o = some t → o.family = afInet →
      hostWord (t.tokenAddr.take 4) &&& 0xff800000 = 0x7f800000 ∧
      hostWord (t.tokenAddr.take 4) &&& 0xffffff00 ≠ 0x7f800000 ∧
      hostWord (t.tokenAddr.take 4) &&& 0x007fffff ≠ 0x007fffff) ∧
    (∀ inside, OnlyBridge inside → ∀ o s',
      Prog.Out (admissible inside) (allocateToken hash o c s) s' none →
      s'.originalToToken = s.originalToToken ∧ s'.tokenToOriginal = s.tokenToOriginal ∧
      ∀ k, s'.bridgeTokens k = s.bridgeTokens k ∨
        (s'.bridgeTokens k = none ∧ inside (.bridge k))) ∧
    (∀ skb s₁ e,
      Prog.Out (admissible Consumes) (classify hash c .ingress { s with skb := skb }) s₁ .ok →
      endpoints skb.data = some e →
      ∃ e', endpoints s₁.skb.data = some e' ∧
        ∀ s₂, Relation.ReflTransGen (StepWithoutEviction hash c) s₁ s₂ →
        ∀ answer : Skb, answer.ifindex = skb.ifindex → endpoints answer.data = some e'.flip →
          (Legible answer e'.protocol → ∀ s₃ v, Prog.Out (served Consumes)
              (classify hash c .egress { s₂ with skb := answer }) s₃ v →
            v = .ok ∧ endpoints s₃.skb.data =
              some { e'.flip with source := e.destination, sourcePort := e.destinationPort }) ∧
          (∀ s₃ v, Prog.Out (admissible Consumes)
              (classifyPulled hash c .egress { s₂ with skb := answer }) s₃ v →
            v = .shot ∨ (v = .ok ∧ endpoints s₃.skb.data =
              some { e'.flip with source := e.destination, sourcePort := e.destinationPort })) ∧
          (∀ s₃ v, Prog.Out unpulled (classify hash c .egress { s₂ with skb := answer }) s₃ v →
            v = .pipe ∧ s₃.skb = answer)) := by
  have hinv : Inverse hash c s := inverse_reach hs
  have hin : OnlyBridge Consumes := fun _ h => h
  have h6 : 8 ≤ c.tokenIpv6Prefix.length := by
    rw [hc]
    simp [controlOf, startControl]
  have hpre : hostWord c.tokenIpv4Prefix = 0x7f800000 := by
    rw [hc]
    show hostWord [127, 128, 0, 0] = 0x7f800000
    decide
  refine ⟨?_, ?_, ?_, ?_, ?_⟩
  · intro o t ht _
    obtain ⟨v, hv, ha, hp, -⟩ := hinv.back ht
    exact ⟨v, hv, ha, hp⟩
  · intro o o' t t' ht ht' _ _ hne hif hfam hproto haddr hport htok
    -- all tokens have the bridge port, so only their addresses can tell them apart
    have htp : t.tokenPort = t'.tokenPort :=
      (hinv.token ht).tokenPort.trans (hinv.token ht').tokenPort.symm
    exact hne (hinv.injective ht ht' hif hfam hproto haddr hport htok htp)
  · intro o t ht hf
    have ha := (hinv.token ht).tokenAddress hf
    have hinside := ha.inside
    have houtside := ha.outside
    simp only [ipv4InTokenPrefix, hpre, decide_eq_true_eq] at hinside
    rw [hpre] at houtside
    exact ⟨hinside, houtside, ha.last⟩
  · intro inside hib o s' hout
    have he : Eroded inside s s' := (allocateToken_sat hib).out hout
    exact ⟨he.forward, he.reverse, he.bridge⟩
  · intro skb s₁ e hout he
    have hskb : Inverse hash c { s with skb := skb } := hinv.congr rfl rfl
    -- what an answer needs is recorded at ingress and stands through every later step
    obtain ⟨e', he', -, hret, -⟩ := (classify_ingress_sat hskb hin h6).out hout rfl e he
    refine ⟨e', he', fun s₂ hrun answer hif hans => ?_⟩
    have hback : Returns c answer.ifindex e e' { s₂ with skb := answer } := hret.run hrun answer hif
    refine ⟨fun hlegible s₃ v hout' => ?_, fun s₃ v hout' => ?_, fun s₃ v hout' => ?_⟩
    · have hon : c.enabled ≠ 0 := by
        rw [hc]
        show (1 : UInt32) ≠ 0
        decide
      have hsat : Prog.Sat (served _) _ (classify hash c .egress { s₂ with skb := answer }) :=
        classify_egress_served hin hon hans hback hlegible
      exact hsat.out hout'
    · have hsat : Prog.Sat (admissible _) _ (classifyPulled hash c .egress
          { s₂ with skb := answer }) :=
        classifyPulled_egress_sat hin hans hback
      exact hsat.out hout'
    · obtain ⟨hv, hs⟩ := classify_unpulled.out hout'
      exact ⟨hv, congrArg State.skb hs⟩

/-! ### One flow -/

/-- A UDP packet from `192.168.43.2:40000` to `8.8.8.8:53`. -/
def query : Skb where
  ifindex := 3
  data := [2, 0, 0, 0, 0, 1, 2, 0, 0, 0, 0, 2, 8, 0, 0x45, 0, 0, 28, 0, 1, 0, 0, 64, 17, 0, 0,
    192, 168, 43, 2, 8, 8, 8, 8, 0x9c, 0x40, 0, 53, 0, 8, 0, 0]
  headlen := 42

/-- The answer the bridge gives to it, from the flow's token `127.171.145.176:1088`. -/
def reply : Skb where
  ifindex := 3
  data := [2, 0, 0, 0, 0, 2, 2, 0, 0, 0, 0, 1, 8, 0, 0x45, 0, 0, 28, 0, 1, 0, 0, 64, 17, 0, 0,
    127, 171, 145, 176, 192, 168, 43, 2, 4, 64, 0x9c, 0x40, 0, 8, 0, 0]
  headlen := 42

/-- A configuration with everything on. -/
def sampleControl : RuntimeControl := controlOf true true true 1088 fun _ => 0xfd

/-- No policy entries and empty maps. -/
def sampleStart : State := initial ⟨[], [], [], []⟩ ⟨[], [], [], []⟩ query

/-- Answers with nothing taken and every operation successful; `pulled` says whether
`skb_pull_data` is. -/
def quiet (pulled : Bool) : Nat → (q : Sys) → q.Answer
  | _, .preempt => []
  | _, .room => true
  | _, .now => (0 : UInt64)
  | _, .pullData => pulled
  | _, .helper => true

/-- Nothing was taken. -/
def untaken : State → (q : Sys) → q.Answer → Bool
  | _, .preempt, gone => gone.isEmpty
  | _, _, _ => true

theorem untaken_admissible {inside : Vanish → Prop} (s : State) (q : Sys) (r : q.Answer)
    (h : untaken s q r = true) : admissible inside s q r := by
  cases q with
  | preempt =>
      have hr : r = [] := List.isEmpty_iff.mp h
      subst hr
      exact fun v hv => by cases hv
  | _ => trivial

/-- The query's run through ingress. -/
def queryRun : Option (State × Verdict) :=
  Prog.exec untaken (quiet true) 0 (classify hashOriginal sampleControl .ingress sampleStart)

theorem queryRun_out {inside : Vanish → Prop} {r : State × Verdict} (h : queryRun = some r) :
    Prog.Out (admissible inside) (classify hashOriginal sampleControl .ingress sampleStart) r.1 r.2 :=
  Prog.exec_out (fun s q r => untaken_admissible s q r) h

theorem sampleStart_reach {inside : Vanish → Prop} {between : State → Vanish → Prop} :
    Reach inside between hashOriginal sampleControl sampleStart :=
  ⟨_, _, _, .refl⟩

/-- Nothing was taken, and the helpers succeeded. -/
def attended : State → (q : Sys) → q.Answer → Bool
  | _, .preempt, gone => gone.isEmpty
  | _, .room, _ => true
  | _, .now, _ => true
  | _, .pullData, pulled => pulled
  | _, .helper, done => done

theorem attended_served {inside : Vanish → Prop} (s : State) (q : Sys) (r : q.Answer)
    (h : attended s q r = true) : served inside s q r := by
  cases q with
  | preempt => exact untaken_admissible s .preempt r h
  | room => trivial
  | now => trivial
  | pullData => exact h
  | helper => exact h

/-- The query's run through ingress and its answer's through egress. -/
def replyRun : Option ((State × Verdict) × (State × Verdict)) :=
  queryRun.bind fun r => (Prog.exec attended (quiet true) 0
    (classify hashOriginal sampleControl .egress { r.1 with skb := reply })).map fun r' => (r, r')

/-- The query's flow has its token, the token leads back, and so does the answer. -/
theorem query_tokenMaps_inverse :
    ∃ s t v s₁, Reach Consumes (fun _ => Consumes) hashOriginal sampleControl s ∧
      s.originalToToken (originalOf query afInet 17 34 26 30 4) = some t ∧
      s.tokenToOriginal
        (fillReverseKey (originalOf query afInet 17 34 26 30 4) t) = some v ∧
      v.originalAddr = copyBytes [8, 8, 8, 8] 4 ∧ v.originalPort = 53 ∧
      Prog.Out (served Consumes)
        (classify hashOriginal sampleControl .egress { s with skb := reply }) s₁ .ok ∧
      endpoints s₁.skb.data = some ⟨afInet, 17, [8, 8, 8, 8], 53, [192, 168, 43, 2], 40000⟩ := by
  have hrun : replyRun.map (fun r => (r.1.1.originalToToken (originalOf query afInet 17 34 26 30 4),
      endpoints r.1.1.skb.data, r.1.2)) =
      some (some ⟨copyBytes [127, 171, 145, 176] 4, 1088, 1⟩,
        some ⟨afInet, 17, [192, 168, 43, 2], 40000, [127, 171, 145, 176], 1088⟩, .ok) := by
    decide +kernel
  obtain ⟨⟨⟨s, v₀⟩, ⟨s₁, v₁⟩⟩, hs, heq⟩ := Option.map_eq_some_iff.mp hrun
  obtain ⟨ht, hrest⟩ := Prod.mk.inj heq
  obtain ⟨he', rfl⟩ := Prod.mk.inj hrest
  obtain ⟨r, hquery, hboth⟩ := Option.bind_eq_some_iff.mp hs
  obtain ⟨r', hanswer, hpair⟩ := Option.map_eq_some_iff.mp hboth
  cases hpair
  have hfirst : Prog.Out (admissible Consumes)
      (classify hashOriginal sampleControl .ingress { sampleStart with skb := query }) s .ok :=
    queryRun_out hquery
  have hsecond : Prog.Out (served Consumes)
      (classify hashOriginal sampleControl .egress { s with skb := reply }) s₁ v₁ :=
    Prog.exec_out (fun s q r => attended_served s q r) hanswer
  have hreach : Reach Consumes (fun _ => Consumes) hashOriginal sampleControl s :=
    ⟨_, _, _, .single (Step.packet (s := sampleStart) .ingress query .ok hfirst)⟩
  obtain ⟨w, hw, ha, hp⟩ := (tokenMaps_inverse hashOriginal true true true 1088 (fun _ => 0xfd)
    sampleControl rfl s hreach).1 _ _ ht rfl
  obtain ⟨e', hends, hback⟩ := (tokenMaps_inverse hashOriginal true true true 1088 (fun _ => 0xfd)
    sampleControl rfl sampleStart sampleStart_reach).2.2.2.2 query s
    ⟨afInet, 17, [192, 168, 43, 2], 40000, [8, 8, 8, 8], 53⟩ hfirst (by decide +kernel)
  obtain rfl := Option.some.inj (he'.symm.trans hends)
  obtain ⟨rfl, htranslated⟩ := (hback s .refl reply rfl (by decide +kernel)).1
    ⟨.inr rfl, fun _ => by decide +kernel, fun h => absurd h (by decide +kernel), by decide +kernel,
      by decide +kernel⟩ s₁ v₁ hsecond
  exact ⟨s, _, w, s₁, hreach, ht, hw, ha, hp, hsecond, htranslated⟩

/-- When `skb_pull_data` fails egress passes the answer on, and it leaves with the token as its
source. -/
theorem reply_passes_unpulled :
    ∃ s s₁ s₂ e e', Reach Consumes (fun _ => Consumes) hashOriginal sampleControl s ∧
      Prog.Out (admissible Consumes)
        (classify hashOriginal sampleControl .ingress { s with skb := query }) s₁ .ok ∧
      endpoints query.data = some e ∧ endpoints s₁.skb.data = some e' ∧
      endpoints reply.data = some e'.flip ∧ reply.ifindex = query.ifindex ∧
      Prog.Out (admissible Consumes)
        (classify hashOriginal sampleControl .egress { s₁ with skb := reply }) s₂ .pipe ∧
      endpoints s₂.skb.data = some e'.flip ∧ e'.flip.source ≠ e.destination := by
  have hrun : queryRun.map (fun r => (endpoints r.1.skb.data, r.2)) =
      some (some ⟨afInet, 17, [192, 168, 43, 2], 40000, [127, 171, 145, 176], 1088⟩, .ok) := by
    decide +kernel
  obtain ⟨⟨s₁, v⟩, hs, heq⟩ := Option.map_eq_some_iff.mp hrun
  obtain ⟨he', rfl⟩ := Prod.mk.inj heq
  have hreply : endpoints reply.data = some (Endpoints.flip
      ⟨afInet, 17, [192, 168, 43, 2], 40000, [127, 171, 145, 176], 1088⟩) := by decide +kernel
  refine ⟨sampleStart, s₁, { s₁ with skb := reply },
    ⟨afInet, 17, [192, 168, 43, 2], 40000, [8, 8, 8, 8], 53⟩, _, sampleStart_reach,
    queryRun_out hs, by decide +kernel, he', hreply, rfl, ?_, hreply, by decide⟩
  exact .ask false trivial (.ret _ _)

end Bpf2Socks.Tc

/-
# Bpf2Socks.Tc.Transparent — packets the programs do not own.

Egress owns the packets whose source is a token address, ingress the TCP and UDP packets.  What they
do not own they let pass, unless it is an IPv4 packet with fewer than four bytes after its header:
the IPv4 functions look for the ports before they look at what the packet is, where the IPv6 functions
do it the other way round.
-/
import Bpf2Socks.Tc.Answer
import Bpf2Socks.Tc.Kinds

namespace Bpf2Socks.Tc

open Lib (Act Prog)

/-! ## Headers -/

/-- The length of the IPv4 header, in words. -/
def headerWords4 (skb : Skb) : Nat := (byteAt skb.data 14 &&& 15).toNat

/-- The packet has a whole IPv4 header. -/
structure Complete4 (skb : Skb) : Prop where
  ethernet : be16 skb.data 12 = 0x0800
  version : byteAt skb.data 14 >>> 4 = 4
  words : 5 ≤ headerWords4 skb
  length : ethernetLength + headerWords4 skb * 4 ≤ skb.data.length

/-- The packet has a whole IPv6 header, and a whole fragment header if that is the next one. -/
structure Complete6 (skb : Skb) : Prop where
  ethernet : be16 skb.data 12 = 0x86dd
  version : byteAt skb.data 14 >>> 4 = 6
  length : ethernetLength + ipv6Length ≤ skb.data.length
  fragment : byteAt skb.data 20 = 44 → ethernetLength + ipv6Length + fragmentLength ≤ skb.data.length

/-- The transport protocol of an IPv6 packet. -/
def transportProtocol6 (skb : Skb) : UInt8 :=
  if byteAt skb.data 20 = 44 then byteAt skb.data 54 else byteAt skb.data 20

/-- The program does not own the IPv4 packet. -/
def Unowned4 (c : RuntimeControl) (skb : Skb) : Direction → Prop
  | .ingress => isTransport (byteAt skb.data 23) = false
  | .egress => ipv4InTokenPrefix (slice skb.data ip4Source 4) c = false

/-- The program does not own the IPv6 packet. -/
def Unowned6 (c : RuntimeControl) (skb : Skb) : Direction → Prop
  | .ingress => isTransport (transportProtocol6 skb) = false
  | .egress => ipv6InTokenPrefix (slice skb.data ip6Source 16) c = false

/-- A packet with a complete header that the program does not own. -/
inductive Foreign (c : RuntimeControl) (skb : Skb) (dir : Direction) : Prop where
  | ipv4 (complete : Complete4 skb) (unowned : Unowned4 c skb dir)
  | ipv6 (complete : Complete6 skb) (unowned : Unowned6 c skb dir)

/-- The program lets the packet pass and changes nothing. -/
def Transparent (hash : OriginalKey → UInt32 → UInt32) (c : RuntimeControl) (dir : Direction)
    (s : State) : Prop :=
  ∀ s' v, Prog.Out (fun _ _ _ => True) (classify hash c dir s) s' v → v = .pipe ∧ s' = s

/-- An IPv4 packet with an offset in its datagram. -/
def LaterFragment4 (skb : Skb) : Prop := be16 skb.data 20 &&& 0x3fff &&& 0x1fff ≠ 0

instance (skb : Skb) : Decidable (LaterFragment4 skb) := inferInstanceAs (Decidable (_ ≠ _))

/-- What the IPv4 functions want to see of any packet: four bytes after the header, but not in a
later fragment on ingress. -/
def Seen4 (skb : Skb) (dir : Direction) : Prop :=
  ethernetLength + 20 ≤ skb.headlen ∧
    (dir = .ingress ∧ LaterFragment4 skb ∨
      ethernetLength + headerWords4 skb * 4 + portsLength ≤ skb.headlen)

/-- What the IPv6 functions want to see of any packet: its headers. -/
def Seen6 (skb : Skb) (dir : Direction) : Prop :=
  ethernetLength + ipv6Length ≤ skb.headlen ∧
    (dir = .ingress ∧ byteAt skb.data 20 = 44 →
      ethernetLength + ipv6Length + fragmentLength ≤ skb.headlen)

/-- The linear part of the packet reaches as far as the programs look. -/
def Seen (skb : Skb) (dir : Direction) : Prop :=
  if be16 skb.data 12 = 0x0800 then Seen4 skb dir else Seen6 skb dir

instance (skb : Skb) (dir : Direction) : Decidable (Seen4 skb dir) :=
  inferInstanceAs (Decidable (_ ∧ _))

instance (skb : Skb) (dir : Direction) : Decidable (Seen6 skb dir) :=
  inferInstanceAs (Decidable (_ ∧ (_ → _)))

instance (skb : Skb) (dir : Direction) : Decidable (Seen skb dir) := by
  unfold Seen
  exact inferInstance

/-! ## Verdicts -/

section

variable {hash : OriginalKey → UInt32 → UInt32} {c : RuntimeControl} {s : State} {dir : Direction}

theorem Complete6.not_ipv4 {skb : Skb} (h : Complete6 skb) : be16 skb.data 12 ≠ 0x0800 := by
  rw [h.ethernet]
  decide

theorem Complete4.accepted {skb : Skb} (h : Complete4 skb) :
    ¬ (byteAt skb.data 14 >>> 4 ≠ 4 ∨ (byteAt skb.data 14 &&& 15).toNat < 5) := by
  rintro (hver | hwords)
  · exact hver h.version
  · exact Nat.not_lt.mpr h.words hwords

theorem classifyPulled_ipv4 (h : Complete4 s.skb) :
    classifyPulled hash c dir s =
      if ethernetLength + 20 ≤ s.skb.headlen then classify4 hash c dir s else .ret s .shot := by
  show (if _ then _ else _ : Code Verdict) s = _
  by_cases hlen : ethernetLength + 20 ≤ s.skb.headlen
  · rw [if_pos hlen, if_neg (by omega), if_pos h.ethernet, if_neg (by omega)]
  · have hshort : s.skb.headlen < ethernetLength + 20 := Nat.not_le.mp hlen
    rw [if_neg hlen, if_pos h.ethernet, if_pos hshort]
    split <;> rfl

theorem classifyPulled_ipv6 (h : Complete6 s.skb) :
    classifyPulled hash c dir s =
      if ethernetLength + ipv6Length ≤ s.skb.headlen then classify6 hash c dir s
      else .ret s .shot := by
  show (if _ then _ else _ : Code Verdict) s = _
  by_cases hlen : ethernetLength + ipv6Length ≤ s.skb.headlen
  · rw [if_pos hlen, if_neg (by omega), if_neg h.not_ipv4, if_pos h.ethernet, if_neg (by omega)]
  · have hshort : s.skb.headlen < ethernetLength + ipv6Length := Nat.not_le.mp hlen
    rw [if_neg hlen, if_neg h.not_ipv4, if_pos h.ethernet, if_pos hshort]
    split <;> rfl

/-- An IPv4 packet that is neither TCP nor UDP is ignored, if there is room for ports. -/
theorem kind4_foreign {skb : Skb} (h : Complete4 skb) (hu : Unowned4 c skb .ingress) :
    kind4 skb =
      if LaterFragment4 skb ∨ ethernetLength + headerWords4 skb * 4 + portsLength ≤ skb.headlen
      then .ignored else .dropped := by
  have hproto : isTransport (byteAt skb.data 23) = false := hu
  unfold kind4
  rw [if_neg h.accepted, hproto]
  by_cases hlater : be16 skb.data 20 &&& 0x3fff &&& 0x1fff ≠ 0
  · have hyes : LaterFragment4 skb ∨
        ethernetLength + headerWords4 skb * 4 + portsLength ≤ skb.headlen := .inl hlater
    rw [if_pos hlater, if_pos hyes]
    rfl
  · rw [if_neg hlater]
    by_cases hlen : skb.headlen < ethernetLength + (byteAt skb.data 14 &&& 15).toNat * 4 + portsLength
    · have hno : ¬ (LaterFragment4 skb ∨
          ethernetLength + headerWords4 skb * 4 + portsLength ≤ skb.headlen) :=
        not_or.mpr ⟨hlater, Nat.not_le.mpr hlen⟩
      rw [if_pos hlen, if_neg hno]
    · have hyes : LaterFragment4 skb ∨
          ethernetLength + headerWords4 skb * 4 + portsLength ≤ skb.headlen :=
        .inr (Nat.not_lt.mp hlen)
      rw [if_neg hlen, if_pos hyes]
      rfl

/-- An IPv6 packet that is neither TCP nor UDP is ignored, if its headers are there. -/
theorem kind6_foreign {skb : Skb} (h : Complete6 skb) (hu : Unowned6 c skb .ingress) :
    kind6 c skb =
      if byteAt skb.data 20 = 44 → ethernetLength + ipv6Length + fragmentLength ≤ skb.headlen
      then .ignored else .dropped := by
  have hproto : isTransport (transportProtocol6 skb) = false := hu
  unfold transportProtocol6 at hproto
  unfold kind6
  rw [if_neg (not_not.mpr h.version)]
  by_cases hfrag : byteAt skb.data 20 = 44
  · rw [if_pos hfrag] at hproto
    rw [if_neg (not_not.mpr hfrag), hproto]
    by_cases hlen : skb.headlen < 62
    · have hno : ¬ (byteAt skb.data 20 = 44 →
          ethernetLength + ipv6Length + fragmentLength ≤ skb.headlen) :=
        fun hp => Nat.not_le.mpr hlen (hp hfrag)
      rw [if_pos hlen, if_neg hno]
    · have hyes : byteAt skb.data 20 = 44 →
          ethernetLength + ipv6Length + fragmentLength ≤ skb.headlen :=
        fun _ => Nat.not_lt.mp hlen
      rw [if_neg hlen, if_pos hyes]
      rfl
  · rw [if_neg hfrag] at hproto
    rw [if_pos hfrag, kind6Transport, hproto, if_pos fun hp => absurd hp hfrag]
    rfl

/-- Egress of an IPv4 packet from elsewhere. -/
theorem egress4_foreign (h : Complete4 s.skb) (hu : Unowned4 c s.skb .egress) :
    egress4 c s =
      .ret s (if ethernetLength + headerWords4 s.skb * 4 + portsLength ≤ s.skb.headlen
        then .pipe else .shot) := by
  have hsource : ipv4InTokenPrefix (slice s.skb.data ip4Source 4) c = false := hu
  show (if _ then _ else _ : Code Verdict) s = _
  rw [if_neg h.accepted, hsource]
  by_cases hlen : s.skb.headlen <
      ethernetLength + (byteAt s.skb.data 14 &&& 15).toNat * 4 + portsLength
  · have hno : ¬ ethernetLength + headerWords4 s.skb * 4 + portsLength ≤ s.skb.headlen :=
      Nat.not_le.mpr hlen
    rw [if_pos hlen, if_neg hno]
    rfl
  · have hyes : ethernetLength + headerWords4 s.skb * 4 + portsLength ≤ s.skb.headlen :=
      Nat.not_lt.mp hlen
    rw [if_neg hlen, if_pos hyes]
    rfl

/-- Egress of an IPv6 packet from elsewhere. -/
theorem egress6_foreign (h : Complete6 s.skb) (hu : Unowned6 c s.skb .egress) :
    egress6 c s = .ret s .pipe := by
  have hsource : ipv6InTokenPrefix (slice s.skb.data ip6Source 16) c = false := hu
  show (if _ then _ else _ : Code Verdict) s = _
  by_cases hflags : !flagSet c.flags runtimeIpv6 ∧ !flagSet c.flags runtimeDnsHijack
  · rw [if_pos hflags]
    rfl
  · rw [if_neg hflags, if_neg (not_not.mpr h.version), hsource]
    rfl

theorem classifyPulled_foreign4 (h : Complete4 s.skb) (hu : Unowned4 c s.skb dir) :
    classifyPulled hash c dir s = .ret s (if Seen s.skb dir then .pipe else .shot) := by
  have hseen : Seen s.skb dir ↔ Seen4 s.skb dir := by
    unfold Seen
    rw [if_pos h.ethernet]
  rw [classifyPulled_ipv4 h, if_congr hseen rfl rfl]
  by_cases hlen : ethernetLength + 20 ≤ s.skb.headlen
  · rw [if_pos hlen]
    cases dir with
    | ingress =>
        have hsplit : Seen4 s.skb .ingress ↔ LaterFragment4 s.skb ∨
            ethernetLength + headerWords4 s.skb * 4 + portsLength ≤ s.skb.headlen := by
          simp only [Seen4, hlen, true_and]
        show ingress4 hash c s = _
        rw [ingress4_eq, kind4_foreign h hu, if_congr hsplit rfl rfl]
        split <;> rfl
    | egress =>
        have hsplit : Seen4 s.skb .egress ↔
            ethernetLength + headerWords4 s.skb * 4 + portsLength ≤ s.skb.headlen := by
          simp only [Seen4, hlen, true_and, reduceCtorEq, false_and, false_or]
        show egress4 c s = _
        rw [egress4_foreign h hu, if_congr hsplit rfl rfl]
  · rw [if_neg hlen, if_neg fun hs => hlen hs.1]

theorem classifyPulled_foreign6 (h : Complete6 s.skb) (hu : Unowned6 c s.skb dir) :
    classifyPulled hash c dir s = .ret s (if Seen s.skb dir then .pipe else .shot) := by
  have hseen : Seen s.skb dir ↔ Seen6 s.skb dir := by
    unfold Seen
    rw [if_neg h.not_ipv4]
  rw [classifyPulled_ipv6 h, if_congr hseen rfl rfl]
  by_cases hlen : ethernetLength + ipv6Length ≤ s.skb.headlen
  · rw [if_pos hlen]
    cases dir with
    | ingress =>
        have hsplit : Seen6 s.skb .ingress ↔ (byteAt s.skb.data 20 = 44 →
            ethernetLength + ipv6Length + fragmentLength ≤ s.skb.headlen) := by
          simp only [Seen6, hlen, true_and]
        show ingress6 hash c s = _
        rw [ingress6_eq, kind6_foreign h hu, if_congr hsplit rfl rfl]
        split <;> rfl
    | egress =>
        have hsplit : Seen6 s.skb .egress := ⟨hlen, fun hno => nomatch hno.1⟩
        show egress6 c s = _
        rw [egress6_foreign h hu, if_pos hsplit]
  · rw [if_neg hlen, if_neg fun hs => hlen hs.1]

/-- **What the programs do with a packet they do not own.** -/
theorem classifyPulled_foreign (h : Foreign c s.skb dir) :
    classifyPulled hash c dir s = .ret s (if Seen s.skb dir then .pipe else .shot) := by
  cases h with
  | ipv4 complete unowned => exact classifyPulled_foreign4 complete unowned
  | ipv6 complete unowned => exact classifyPulled_foreign6 complete unowned

/-- **Transparency**: a packet that a program does not own passes unchanged exactly when the program
is off, or its linear part has all the program looks at, which over IPv4 is four bytes more than the
header. -/
theorem transparent_iff (h : Foreign c s.skb dir) :
    Transparent hash c dir s ↔ c.enabled = 0 ∨ Seen s.skb dir := by
  constructor
  · intro ht
    by_contra hno
    obtain ⟨hoff, hports⟩ := not_or.mp hno
    have hout : Prog.Out (fun _ _ _ => True) (classify hash c dir s) s .shot := by
      show Prog.Out _ ((if c.enabled = 0 then _ else _ : Code Verdict) s) s .shot
      rw [if_neg hoff]
      -- the pull succeeds
      refine .ask true trivial ?_
      show Prog.Out _ (classifyPulled hash c dir s) s .shot
      rw [classifyPulled_foreign h, if_neg hports]
      exact .ret _ _
    exact nomatch (ht s .shot hout).1
  · intro hyes s' v hout
    have hsat : Prog.Sat (fun _ _ _ => True) (fun s' v => v = .pipe ∧ s' = s)
        (classify hash c dir s) := by
      refine Act.sat_ite (fun _ => ⟨rfl, rfl⟩) fun hoff => ?_
      intro pulled _
      refine Act.sat_ite (fun _ => ⟨rfl, rfl⟩) fun _ => ?_
      rw [classifyPulled_foreign h, if_pos (hyes.resolve_left hoff)]
      exact ⟨rfl, rfl⟩
    exact hsat.out hout

end

/-! ### A packet without a payload -/

/-- A packet of protocol 50 over IPv4 without a payload. -/
def emptyEsp : Skb where
  ifindex := 1
  data := List.replicate 12 0 ++ [8, 0, 0x45, 0, 0, 20, 0, 0, 0, 0, 64, 50, 0, 0, 192, 168, 1, 2,
    192, 168, 1, 1]
  headlen := 34

/-- The same packet with four bytes of payload. -/
def shortEsp : Skb :=
  { emptyEsp with data := emptyEsp.data ++ [0, 0, 0, 1], headlen := 38 }

theorem emptyEsp_foreign : Foreign sampleControl emptyEsp .ingress :=
  .ipv4 ⟨rfl, rfl, by decide, by decide⟩ rfl

theorem shortEsp_transparent :
    Foreign sampleControl shortEsp .ingress ∧
      Transparent hashOriginal sampleControl .ingress { sampleStart with skb := shortEsp } := by
  have hforeign : Foreign sampleControl shortEsp .ingress :=
    .ipv4 ⟨rfl, rfl, by decide, by decide⟩ rfl
  exact ⟨hforeign, (transparent_iff hforeign).mpr (.inr (by decide))⟩

/-- The packet without a payload is dropped. -/
theorem emptyEsp_dropped :
    ∃ c dir s, c.enabled = 1 ∧ Foreign c s.skb dir ∧ ¬ Transparent hashOriginal c dir s := by
  refine ⟨sampleControl, .ingress, { sampleStart with skb := emptyEsp }, rfl, emptyEsp_foreign,
    fun ht => ?_⟩
  have hout : Prog.Out (fun _ _ _ => True)
      (classify hashOriginal sampleControl .ingress { sampleStart with skb := emptyEsp })
      { sampleStart with skb := emptyEsp } .shot := .ask true trivial (.ret _ _)
  exact nomatch (ht _ _ hout).1

end Bpf2Socks.Tc

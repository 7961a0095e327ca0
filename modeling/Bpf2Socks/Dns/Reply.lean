/-
# Bpf2Socks.Dns.Reply — what a SOCKS5 server's byte stream says about an association.

A server sends the method reply, two bytes, and the ASSOCIATE reply, whose length follows from its
first five bytes.  `replyOf cap` is what a reader with a buffer of `cap` bytes makes of the
stream: how much of it the two replies are and the relay address they name, or nothing.

The two readers of the program differ in `cap` only.  A domain name of 255 bytes makes a reply of
262; the channels of the DNS fast path have room for it and the sessions do not.
-/
import Bpf2Socks.Lib.Stream
import Bpf2Socks.Dns.Channel

namespace Bpf2Socks.Dns

open Lib (segment_succ length_segment segment_append take_segment drop_segment)
open Udp (Sockaddr socks5ReplyLength socks5ReplaceUnspecifiedRelay associateReadCap)

variable {S : Nat → UInt8} {R : List UInt8 → UInt16 → Option Sockaddr} {cap e m : Nat}

/-! ## The length of the reply -/

/-- The ASSOCIATE reply starts as a success. -/
def Accepted (S : Nat → UInt8) : Prop := S 2 = 5 ∧ S 3 = 0

/-- The length of the ASSOCIATE reply, from its first five bytes. -/
def replyLength (S : Nat → UInt8) : Option Nat := socks5ReplyLength (Lib.segment S 2 5)

/-- Fewer than two bytes say nothing. -/
theorem replyLength_two (h : m < 2) : socks5ReplyLength (Lib.segment S 2 m) = some 0 := by
  unfold socks5ReplyLength
  rw [if_neg (by rw [length_segment]; omega), if_pos (by rw [length_segment]; omega)]

/-- A reply that is not a success is known by its first two bytes. -/
theorem replyLength_refused (hm : 2 ≤ m) (h : ¬Accepted S) :
    socks5ReplyLength (Lib.segment S 2 m) = none := by
  unfold socks5ReplyLength
  rw [if_pos]
  refine ⟨by rwa [length_segment], fun heq => h ?_⟩
  rw [take_segment S 2 hm] at heq
  simpa [Lib.segment, Accepted] using heq

/-- Three bytes of a success do not tell its length. -/
theorem replyLength_four (hm : m < 4) (h : Accepted S) :
    socks5ReplyLength (Lib.segment S 2 m) = some 0 := by
  by_cases h2 : m < 2
  · exact replyLength_two h2
  · obtain ⟨k, rfl⟩ := Nat.exists_eq_add_of_le (Nat.le_of_not_lt h2)
    have htake : (Lib.segment S 2 (2 + k)).take 2 = [5, 0] := by
      rw [take_segment S 2 (Nat.le_add_right 2 k)]
      simp [Lib.segment, h.1, h.2]
    unfold socks5ReplyLength
    rw [if_neg fun hbad => hbad.2 htake, if_pos (by rwa [length_segment])]

/-- From four bytes on it is a matter of the address type and what follows it. -/
theorem replyLength_accepted (h : Accepted S) (j : Nat) :
    socks5ReplyLength (Lib.segment S 2 (j + 4)) =
      if S 5 = 1 then some (4 + 4 + 2) else if S 5 = 4 then some (4 + 16 + 2)
      else if S 5 = 3 then if j = 0 then some 0 else some (4 + 1 + (S 6).toNat + 2)
      else none := by
  have hseg : Lib.segment S 2 (j + 4) = 5 :: 0 :: S 4 :: S 5 :: Lib.segment S 6 j := by
    simp only [segment_succ, h.1, h.2]
  have hdrop : (Lib.segment S 2 (j + 4)).drop 3 = S 5 :: Lib.segment S 6 j := by
    rw [hseg]
    rfl
  unfold socks5ReplyLength
  rw [if_neg fun hbad => hbad.2 (by rw [hseg]; rfl), if_neg (by rw [length_segment]; omega), hdrop]
  by_cases h1 : S 5 = 1
  · simp [h1]
  by_cases h4 : S 5 = 4
  · simp [h4]
  by_cases h3 : S 5 = 3
  · cases j with
    | zero => simp [h3]
    | succ j => simp [h3, segment_succ]
  · simp only [h1, h4, h3, if_false]
    split
    · rename_i heq
      exact absurd (List.cons.inj heq).1 h1
    · rename_i heq
      exact absurd (List.cons.inj heq).1 h4
    · rename_i heq
      exact absurd (List.cons.inj heq).1 h3
    · rename_i heq
      exact absurd (List.cons.inj heq).1 h3
    · rfl

theorem replyLength_eq (h : Accepted S) :
    replyLength S = if S 5 = 1 then some (4 + 4 + 2) else if S 5 = 4 then some (4 + 16 + 2)
      else if S 5 = 3 then some (4 + 1 + (S 6).toNat + 2) else none :=
  replyLength_accepted h 1

/-- More bytes do not change the length once it is known. -/
theorem replyLength_known (h : Accepted S) {j : Nat} (hj : S 5 = 3 → j ≠ 0) :
    socks5ReplyLength (Lib.segment S 2 (j + 4)) = replyLength S := by
  rw [replyLength_accepted h, replyLength_eq h]
  by_cases h3 : S 5 = 3
  · simp [h3, hj h3]
  · simp [h3]

theorem accepted_of_length (h : replyLength S = some e) : Accepted S := by
  by_contra hbad
  rw [replyLength, replyLength_refused (by omega) hbad] at h
  simp at h

/-- A reply is at least seven bytes long. -/
theorem replyLength_ge (h : replyLength S = some e) : 7 ≤ e := by
  rw [replyLength_eq (accepted_of_length h)] at h
  split at h
  · obtain rfl := Option.some.inj h
    omega
  · split at h
    · obtain rfl := Option.some.inj h
      omega
    · split at h
      · obtain rfl := Option.some.inj h
        omega
      · simp at h

/-! ## The bound address -/

/-- The address a bound address stands for, with the bytes it takes. -/
def Bound.resolve (R : List UInt8 → UInt16 → Option Sockaddr) : Bound → Option (Nat × Sockaddr)
  | .none => Option.none
  | .addr consumed a => some (consumed, a)
  | .name consumed host port => (R host port).map fun a => (consumed, a)

/-- The two bytes of a port. -/
def portAt (S : Nat → UInt8) (p : Nat) : UInt16 := (S p).toUInt16 <<< 8 ||| (S (p + 1)).toUInt16

/-- What the bytes of a whole reply are split into. -/
theorem splitBoundAddr_reply (h : replyLength S = some e) :
    splitBoundAddr (Lib.segment S 2 e) =
      if S 5 = 1 then .addr e ⟨.inet, [S 10, S 11, S 6, S 7, S 8, S 9] ++ List.replicate 8 0⟩
      else if S 5 = 4 then .addr e ⟨.inet6, Lib.segment S 22 2 ++ List.replicate 4 0 ++ Lib.segment S 6 16 ++
        List.replicate 4 0⟩
      else if S 6 = 0 then .none
      else .name e (Lib.segment S 7 (S 6).toNat) (portAt S (7 + (S 6).toNat)) := by
  have ha := accepted_of_length h
  rw [replyLength_eq ha] at h
  by_cases h1 : S 5 = 1
  · rw [if_pos h1] at h ⊢
    obtain rfl := Option.some.inj h
    simp [splitBoundAddr, Lib.segment, ha.1, ha.2, h1]
  rw [if_neg h1] at h ⊢
  by_cases h4 : S 5 = 4
  · rw [if_pos h4] at h ⊢
    obtain rfl := Option.some.inj h
    simp [splitBoundAddr, Lib.segment, ha.1, ha.2, h4]
  rw [if_neg h4] at h ⊢
  by_cases h3 : S 5 = 3
  · rw [if_pos h3] at h
    obtain rfl := Option.some.inj h
    have hseg : Lib.segment S 2 (4 + 1 + (S 6).toNat + 2) =
        5 :: 0 :: S 4 :: 3 :: S 6 :: Lib.segment S 7 ((S 6).toNat + 2) := by
      rw [show 4 + 1 + (S 6).toNat + 2 = ((S 6).toNat + 2) + 5 by omega]
      simp only [segment_succ, ha.1, ha.2, h3]
    rw [hseg]
    by_cases h0 : S 6 = 0
    · rw [if_pos h0]
      simp [splitBoundAddr, h0]
    · rw [if_neg h0]
      have htake := take_segment S 7 (Nat.le_add_right (S 6).toNat 2)
      have hdrop : (Lib.segment S 7 ((S 6).toNat + 2)).drop (S 6).toNat =
          [S (7 + (S 6).toNat), S (7 + (S 6).toNat + 1)] := drop_segment S 7 (S 6).toNat 2
      have hlen := length_segment S 7 ((S 6).toNat + 2)
      generalize Lib.segment S 7 ((S 6).toNat + 2) = rest at htake hdrop hlen ⊢
      unfold splitBoundAddr
      rw [if_neg (by simp [hlen])]
      simp only [List.drop_succ_cons, List.drop_zero]
      rw [if_neg (by simp [h0, hlen]), htake, hdrop]
      rfl
  · simp [h3] at h

/-! ## The outcome -/

/-- What a reader with a buffer of `cap` bytes makes of a stream: the bytes it reads and the relay
address.  `R` is the resolver and `socks` the server's own address. -/
def replyOf (cap : Nat) (socks : Sockaddr) (R : List UInt8 → UInt16 → Option Sockaddr)
    (S : Nat → UInt8) : Option (Nat × Sockaddr) :=
  if S 0 = 5 ∧ S 1 = 0 then
    match replyLength S with
    | none => none
    | some e =>
        if e > cap then none
        else ((splitBoundAddr (Lib.segment S 2 e)).resolve R).map fun r =>
          (2 + e, socks5ReplaceUnspecifiedRelay socks r.2)
  else none

/-- The stream starts with two success replies, the second with an IPv4 address, an IPv6 address or
a domain name that is not empty and resolves. -/
structure WellFormed (R : List UInt8 → UInt16 → Option Sockaddr) (S : Nat → UInt8) : Prop where
  method : S 0 = 5 ∧ S 1 = 0
  accepted : Accepted S
  bound : S 5 = 1 ∨ S 5 = 4 ∨ S 5 = 3 ∧ S 6 ≠ 0 ∧
    (R (Lib.segment S 7 (S 6).toNat) (portAt S (7 + (S 6).toNat))).isSome = true

/-- It does so with a domain name of 255 bytes. -/
def LongName (R : List UInt8 → UInt16 → Option Sockaddr) (S : Nat → UInt8) : Prop :=
  WellFormed R S ∧ S 5 = 3 ∧ S 6 = 255

/-- No reply is longer than a channel's buffer, and only one kind is longer than a session's. -/
theorem replyLength_le (h : replyLength S = some e) :
    e ≤ channelReadCap ∧ (associateReadCap < e ↔ S 5 = 3 ∧ S 6 = 255) := by
  rw [replyLength_eq (accepted_of_length h)] at h
  simp only [channelReadCap, associateReadCap]
  by_cases h1 : S 5 = 1
  · rw [if_pos h1] at h
    obtain rfl := Option.some.inj h
    simp [h1]
  rw [if_neg h1] at h
  by_cases h4 : S 5 = 4
  · rw [if_pos h4] at h
    obtain rfl := Option.some.inj h
    simp [h4]
  rw [if_neg h4] at h
  by_cases h3 : S 5 = 3
  · rw [if_pos h3] at h
    obtain rfl := Option.some.inj h
    have hlt : (S 6).toNat < 256 := (S 6).toNat_lt
    refine ⟨by omega, ?_⟩
    rw [and_iff_right h3, ← UInt8.toNat_inj]
    simp only [UInt8.reduceToNat]
    omega
  · simp [h3] at h

/-- What a reader makes of a well-formed stream, unless its buffer is too small. -/
theorem replyOf_isSome_iff (cap : Nat) (socks : Sockaddr) :
    (replyOf cap socks R S).isSome = true ↔
      WellFormed R S ∧ ∀ e, replyLength S = some e → e ≤ cap := by
  unfold replyOf
  by_cases hm : S 0 = 5 ∧ S 1 = 0
  · rw [if_pos hm]
    rcases hl : replyLength S with _ | e
    · refine iff_of_false (by simp) fun ⟨hw, _⟩ => ?_
      rw [replyLength_eq hw.accepted] at hl
      rcases hw.bound with h | h | ⟨h, -⟩ <;> simp [h] at hl
    · have ha := accepted_of_length hl
      simp only [Option.some.injEq, forall_eq']
      by_cases hcap : e > cap
      · rw [if_pos hcap]
        exact iff_of_false (by simp) fun h => absurd h.2 (by omega)
      · rw [if_neg hcap, Option.isSome_map, and_iff_left (Nat.le_of_not_lt hcap),
          splitBoundAddr_reply hl]
        rw [replyLength_eq ha] at hl
        by_cases h1 : S 5 = 1
        · rw [if_pos h1]
          exact iff_of_true rfl ⟨hm, ha, Or.inl h1⟩
        by_cases h4 : S 5 = 4
        · rw [if_neg h1, if_pos h4]
          exact iff_of_true rfl ⟨hm, ha, Or.inr (Or.inl h4)⟩
        have h3 : S 5 = 3 := by
          by_contra h3
          simp [h1, h4, h3] at hl
        rw [if_neg h1, if_neg h4]
        by_cases h0 : S 6 = 0
        · rw [if_pos h0]
          refine iff_of_false (by simp [Bound.resolve]) fun hw => ?_
          rcases hw.bound with h | h | ⟨-, h, -⟩
          · exact h1 h
          · exact h4 h
          · exact h h0
        · rw [if_neg h0, Bound.resolve, Option.isSome_map]
          refine ⟨fun h => ⟨hm, ha, Or.inr (Or.inr ⟨h3, h0, h⟩)⟩, fun hw => ?_⟩
          rcases hw.bound with h | h | ⟨-, -, h⟩
          · exact absurd h h1
          · exact absurd h h4
          · exact h
  · rw [if_neg hm]
    exact iff_of_false (by simp) fun h => hm h.1.method

theorem replyOf_congr {cap' : Nat} (socks : Sockaddr)
    (h : ∀ e, replyLength S = some e → (e ≤ cap ↔ e ≤ cap')) :
    replyOf cap socks R S = replyOf cap' socks R S := by
  unfold replyOf
  rcases hl : replyLength S with _ | e
  · rfl
  · have := h e hl
    by_cases hc : e ≤ cap
    · simp only [Nat.not_lt.mpr hc, Nat.not_lt.mpr (this.mp hc), if_false]
    · have hc' : ¬e ≤ cap' := fun h' => hc (this.mpr h')
      simp only [Nat.lt_of_not_le hc, Nat.lt_of_not_le hc', if_true]

/-- The two buffers make no difference unless the name is as long as a name can be. -/
theorem replyOf_agree (socks : Sockaddr) :
    replyOf associateReadCap socks R S = replyOf channelReadCap socks R S ↔ ¬LongName R S := by
  constructor
  · rintro heq ⟨hw, h3, h255⟩
    have hlen : replyLength S = some 262 := by
      rw [replyLength_eq hw.accepted]
      simp [h3, h255]
    have hlong := (replyOf_isSome_iff channelReadCap socks).mpr
      ⟨hw, fun e he => (replyLength_le he).1⟩
    rw [← heq, replyOf_isSome_iff] at hlong
    exact absurd (hlong.2 262 hlen) (by decide)
  · intro hshort
    by_cases hw : WellFormed R S
    · refine replyOf_congr socks fun e he => iff_of_true ?_ (replyLength_le he).1
      by_contra hlong
      exact hshort ⟨hw, (replyLength_le he).2.mp (Nat.lt_of_not_le hlong)⟩
    · have hnone : ∀ cap, replyOf cap socks R S = none := fun cap =>
        Option.not_isSome_iff_eq_none.mp fun h => hw ((replyOf_isSome_iff cap socks).mp h).1
      rw [hnone, hnone]

end Bpf2Socks.Dns

/-
# Bpf2Socks.Tcp.Verdicts — what the replies of the server say, however they arrive.

`checkReplies` looks at all that was received so far.  Once it has a verdict no later byte changes it, and
it accepts exactly the streams that start with the two replies a server grants a CONNECT with.
-/
import Bpf2Socks.Tcp.Handshake

namespace Bpf2Socks.Tcp

open Udp (socks5ReplyLength)

/-! ## What a server may answer -/

/-- A CONNECT reply that says success, with an address of a known type. -/
inductive SuccessReply : List UInt8 → Prop where
  | ipv4 (rsv : UInt8) (bound : List UInt8) (h : bound.length = 4 + 2) :
      SuccessReply ([5, 0, rsv, 1] ++ bound)
  | ipv6 (rsv : UInt8) (bound : List UInt8) (h : bound.length = 16 + 2) :
      SuccessReply ([5, 0, rsv, 4] ++ bound)
  | domain (rsv n : UInt8) (bound : List UInt8) (h : bound.length = n.toNat + 2) :
      SuccessReply ([5, 0, rsv, 3, n] ++ bound)

/-- A stream that starts with the two replies a server accepts a CONNECT with. -/
def Accepts (stream : List UInt8) (n : Nat) : Prop :=
  ∃ reply rest, SuccessReply reply ∧ stream = [5, 0] ++ reply ++ rest ∧ n = 2 + reply.length

/-! ## The length of a reply -/

/-- What the bytes after the method reply say. -/
def connectVerdict (r : List UInt8) : Replies :=
  match socks5ReplyLength r with
  | none => .refused
  | some 0 => .incomplete
  | some (n + 1) => if n + 1 ≤ r.length then .complete (n + 1 + 2) else .incomplete

theorem checkReplies_connect (r : List UInt8) : checkReplies (5 :: 0 :: r) = connectVerdict r := by
  cases r with
  | nil => rfl
  | cons a r =>
      have htake : ¬(2 ≤ (5 :: 0 :: a :: r : List UInt8).length ∧
          (5 :: 0 :: a :: r : List UInt8).take 2 ≠ [5, 0]) := by simp
      have hlong : 2 < (5 :: 0 :: a :: r : List UInt8).length := by simp
      unfold checkReplies connectVerdict
      rw [if_neg htake, if_pos hlong]
      show (match socks5ReplyLength (a :: r) with
        | none => Replies.refused
        | some 0 => .incomplete
        | some (n + 1) => if n + 1 + 2 ≤ (5 :: 0 :: a :: r).length then .complete (n + 1 + 2) else .incomplete) = _
      rcases socks5ReplyLength (a :: r) with _ | _ | n
      · rfl
      · rfl
      · simp only [List.length_cons, Nat.add_le_add_iff_right]

/-- The length of a reply that says success, from its address type and the byte after it. -/
def successLength (t : UInt8) (next : Option UInt8) : Option Nat :=
  if t = 1 then some 10
  else if t = 4 then some 22
  else if t = 3 then some (next.elim 0 fun n => 7 + n.toNat)
  else none

theorem socks5ReplyLength_success (rsv t : UInt8) (r : List UInt8) :
    socks5ReplyLength (5 :: 0 :: rsv :: t :: r) = successLength t r.head? := by
  have hlong : ¬(5 :: 0 :: rsv :: t :: r : List UInt8).length < 4 := by simp
  have htake : ¬(2 ≤ (5 :: 0 :: rsv :: t :: r : List UInt8).length ∧
      (5 :: 0 :: rsv :: t :: r : List UInt8).take 2 ≠ [5, 0]) := by simp
  unfold socks5ReplyLength successLength
  rw [if_neg htake, if_neg hlong]
  split
  · rename_i heq
    obtain ⟨rfl, -⟩ := List.cons.inj heq
    rfl
  · rename_i heq
    obtain ⟨rfl, -⟩ := List.cons.inj heq
    rfl
  · rename_i n tail heq
    obtain ⟨rfl, rfl⟩ := List.cons.inj heq
    show some (4 + 1 + n.toNat + 2) = some (7 + n.toNat)
    rw [Option.some.injEq]
    omega
  · rename_i heq
    obtain ⟨rfl, rfl⟩ := List.cons.inj heq
    rfl
  · rename_i h1 h4 h3 h3'
    have hne1 : t ≠ 1 := fun he => h1 r (he ▸ rfl)
    have hne4 : t ≠ 4 := fun he => h4 r (he ▸ rfl)
    have hne3 : t ≠ 3 := fun he => by
      subst he
      rcases r with _ | ⟨n, r⟩
      · exact h3' rfl
      · exact h3 n r rfl
    rw [if_neg hne1, if_neg hne4, if_neg hne3]

theorem socks5ReplyLength_other {a b : UInt8} (h : ¬(a = 5 ∧ b = 0)) (r : List UInt8) :
    socks5ReplyLength (a :: b :: r) = none := by
  unfold socks5ReplyLength
  rw [if_pos]
  exact ⟨by simp, by simpa using h⟩

/-- The length of a reply is known from its first five bytes on. -/
theorem socks5ReplyLength_append (r m : List UInt8) :
    socks5ReplyLength r = some 0 ∨ socks5ReplyLength (r ++ m) = socks5ReplyLength r := by
  rcases r with _ | ⟨a, _ | ⟨b, r⟩⟩
  · exact .inl rfl
  · exact .inl rfl
  by_cases h : a = 5 ∧ b = 0
  · obtain ⟨rfl, rfl⟩ := h
    rcases r with _ | ⟨rsv, _ | ⟨t, r⟩⟩
    · exact .inl rfl
    · exact .inl rfl
    · rw [socks5ReplyLength_success]
      show _ ∨ socks5ReplyLength (5 :: 0 :: rsv :: t :: (r ++ m)) = _
      rw [socks5ReplyLength_success]
      rcases r with _ | ⟨n, r⟩ <;> by_cases h3 : t = 3 <;> simp [successLength, h3]
  · right
    show socks5ReplyLength (a :: b :: (r ++ m)) = _
    rw [socks5ReplyLength_other h, socks5ReplyLength_other h]

/-! ## Verdicts -/

/-- A verdict does not depend on what comes after the bytes it was given for. -/
theorem connectVerdict_append {r : List UInt8} (h : connectVerdict r ≠ .incomplete) (m : List UInt8) :
    connectVerdict (r ++ m) = connectVerdict r := by
  unfold connectVerdict at h ⊢
  rcases socks5ReplyLength_append r m with hzero | hsame
  · rw [hzero] at h
    exact absurd rfl h
  rw [hsame]
  rcases hl : socks5ReplyLength r with _ | _ | n
  · rfl
  · rfl
  · rw [hl] at h
    have hn : n + 1 ≤ r.length := by
      by_contra hbad
      exact h (if_neg hbad)
    show (if n + 1 ≤ (r ++ m).length then Replies.complete (n + 1 + 2) else .incomplete) =
      if n + 1 ≤ r.length then Replies.complete (n + 1 + 2) else .incomplete
    rw [if_pos hn, if_pos (by rw [List.length_append]; omega)]

theorem checkReplies_other {a b : UInt8} (h : ¬(a = 5 ∧ b = 0)) (r : List UInt8) :
    checkReplies (a :: b :: r) = .refused := by
  unfold checkReplies
  rw [if_pos]
  exact ⟨by simp, by simpa using h⟩

/-- **What a stream of replies says does not depend on how it arrives.**  A verdict, once there, stays. -/
theorem checkReplies_append {l : List UInt8} (h : checkReplies l ≠ .incomplete) (m : List UInt8) :
    checkReplies (l ++ m) = checkReplies l := by
  rcases l with _ | ⟨a, _ | ⟨b, r⟩⟩
  · exact absurd rfl h
  · exact absurd rfl h
  by_cases hab : a = 5 ∧ b = 0
  · obtain ⟨rfl, rfl⟩ := hab
    rw [checkReplies_connect] at h
    show checkReplies (5 :: 0 :: (r ++ m)) = _
    rw [checkReplies_connect, checkReplies_connect]
    exact connectVerdict_append h m
  · show checkReplies (a :: b :: (r ++ m)) = _
    rw [checkReplies_other hab, checkReplies_other hab]

theorem SuccessReply.length {reply : List UInt8} (h : SuccessReply reply) (rest : List UInt8) :
    socks5ReplyLength (reply ++ rest) = some reply.length ∧ 0 < reply.length := by
  cases h with
  | ipv4 rsv bound hb =>
      refine ⟨(socks5ReplyLength_success rsv 1 (bound ++ rest)).trans ?_, by simp⟩
      simp [successLength, hb]
  | ipv6 rsv bound hb =>
      refine ⟨(socks5ReplyLength_success rsv 4 (bound ++ rest)).trans ?_, by simp⟩
      simp [successLength, hb]
  | domain rsv n bound hb =>
      refine ⟨(socks5ReplyLength_success rsv 3 (n :: (bound ++ rest))).trans ?_, by simp⟩
      simp [successLength, hb]
      omega

/-- A reply whose length is known and that is there as a whole says success. -/
theorem successReply_of_length {r : List UInt8} {n : Nat} (h : socks5ReplyLength r = some (n + 1))
    (hn : n + 1 ≤ r.length) : SuccessReply (r.take (n + 1)) := by
  rcases r with _ | ⟨a, _ | ⟨b, r⟩⟩
  · simp at hn
  · simp [socks5ReplyLength] at h
  by_cases hab : a = 5 ∧ b = 0
  · obtain ⟨rfl, rfl⟩ := hab
    rcases r with _ | ⟨rsv, _ | ⟨t, r⟩⟩
    · simp [socks5ReplyLength] at h
    · simp [socks5ReplyLength] at h
    · rw [socks5ReplyLength_success] at h
      unfold successLength at h
      split at h
      · rename_i ht
        subst ht
        obtain rfl : n = 9 := by simpa using h.symm
        exact .ipv4 rsv (r.take 6) (by simp at hn ⊢; omega)
      split at h
      · rename_i ht
        subst ht
        obtain rfl : n = 21 := by simpa using h.symm
        exact .ipv6 rsv (r.take 18) (by simp at hn ⊢; omega)
      split at h
      · rename_i ht
        subst ht
        rcases r with _ | ⟨k, r⟩
        · simp at h
        · obtain rfl : n = 6 + k.toNat := by
            simp at h
            omega
          have hk : 6 + k.toNat + 1 = (k.toNat + 2) + 5 := by omega
          rw [hk]
          exact .domain rsv k (r.take (k.toNat + 2)) (by simp at hn ⊢; omega)
      · simp at h
  · rw [socks5ReplyLength_other hab] at h
    simp at h

/-- **The replies are accepted exactly when they say success.** -/
theorem checkReplies_complete_iff (l : List UInt8) (n : Nat) :
    checkReplies l = .complete n ↔ Accepts l n := by
  constructor
  · intro h
    rcases l with _ | ⟨a, _ | ⟨b, r⟩⟩
    · simp [checkReplies] at h
    · simp [checkReplies] at h
    by_cases hab : a = 5 ∧ b = 0
    · obtain ⟨rfl, rfl⟩ := hab
      rw [checkReplies_connect, connectVerdict] at h
      rcases hl : socks5ReplyLength r with _ | _ | k
      · simp [hl] at h
      · simp [hl] at h
      · rw [hl] at h
        have h : (if k + 1 ≤ r.length then Replies.complete (k + 1 + 2) else .incomplete) =
          .complete n := h
        by_cases hk : k + 1 ≤ r.length
        · rw [if_pos hk] at h
          obtain rfl : k + 1 + 2 = n := by simpa using h
          refine ⟨r.take (k + 1), r.drop (k + 1), successReply_of_length hl hk, ?_, ?_⟩
          · simp
          · rw [List.length_take, Nat.min_eq_left hk, Nat.add_comm]
        · rw [if_neg hk] at h
          simp at h
    · rw [checkReplies_other hab] at h
      simp at h
  · rintro ⟨reply, rest, hreply, rfl, rfl⟩
    obtain ⟨hlen, hpos⟩ := hreply.length rest
    show checkReplies (5 :: 0 :: (reply ++ rest)) = _
    rw [checkReplies_connect, connectVerdict, hlen]
    obtain ⟨k, hk⟩ := Nat.exists_eq_succ_of_ne_zero (Nat.ne_of_gt hpos)
    rw [hk]
    show (if k + 1 ≤ (reply ++ rest).length then Replies.complete (k + 1 + 2) else .incomplete) = _
    rw [if_pos (by rw [List.length_append]; omega), Nat.add_comm 2]

end Bpf2Socks.Tcp

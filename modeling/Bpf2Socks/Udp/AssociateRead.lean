/-
# Bpf2Socks.Udp.AssociateRead — how a session reads the SOCKS5 server's replies.

The control connection is open and hands out the server's stream in any pieces, with `EINTR` and
`EAGAIN` in between.  The session asks for what is still missing of a reply as far as it knows its
length: two bytes, then four, then five for a domain name, then the rest.

The state after some bytes is a function of how many they are (`Expects`), however they were cut.
So every run of the handshake ends with what `replyOf` says about the stream, and every run that
has not ended can be brought to its end.
-/
import Bpf2Socks.Dns.Reply

namespace Bpf2Socks.Udp

open Function (update)
open Worker
open Lib (Prog segment_succ length_segment segment_append)
open Lib.Act (sat_ite done_ite)
open Dns (Accepted replyLength replyLength_two replyLength_refused replyLength_four
  replyLength_known replyLength_accepted replyLength_eq accepted_of_length replyOf splitBoundAddr)

/-- What `recv` of at most `n` bytes can give at position `p` of the stream. -/
def Piece (S : Nat → UInt8) (p n : Nat) (r : Except Errno (List UInt8)) : Prop :=
  r = .error .eintr ∨ r = .error .eagain ∨ ∃ m, 0 < m ∧ m ≤ n ∧ r = .ok (Lib.segment S p m)

namespace AssociateRead

variable {S : Nat → UInt8} {R : List UInt8 → UInt16 → Option Sockaddr} {k fd : Nat}
  {s s' t : State} {socks : Sockaddr}

/-- The response part of the handshake, up to the relay socket. -/
def respond (k fd : Nat) : Worker (Option Bool) := do
  let r ← readAssociateBytes k fd
  if r = some true then
    let created ← createAssociateRelaySocket k
    pure (if created then some true else none)
  else pure r

/-- The reading part of `bpf2socks_udp_associate_advance`, up to the relay socket: `none` failed,
`some false` waits for more. -/
def handshake (k fd : Nat) : Worker (Option Bool) := do
  let s ← get
  if (s.tbl.core k).stage = .assocReadHello then
    let r ← readAssociateHello k fd
    if r = some true then respond k fd else pure r
  else respond k fd

/-- Where in the stream the session is. -/
def place (s : State) (k : Nat) : Nat :=
  (if (s.tbl.core k).stage = .assocReadHello then 0 else 2) + (s.assoc k).readBuf.length

/-- The control connection is open and hands out the stream; the resolver is `R` and a socket can
be made. -/
def Env (S : Nat → UInt8) (R : List UInt8 → UInt16 → Option Sockaddr) (k : Nat) :
    State → (q : Sys) → q.Ans → Prop
  | s, .controlRecv _ n, r => Piece S (place s k) n r
  | _, .resolve host port, r => r = R host port
  | _, .relaySocket _, r => Option.isSome r = true
  | _, _, _ => True

/-- The buffer holds these bytes. -/
def withBuf (s : State) (k : Nat) (buf : List UInt8) (expected : Nat) : State :=
  s.modAssoc k fun a => { a with readBuf := buf, readExpected := expected }

@[simp] theorem withBuf_core (s : State) (k : Nat) (buf : List UInt8) (e : Nat) (j : Nat) :
    (withBuf s k buf e).tbl.core j = s.tbl.core j := rfl

@[simp] theorem withBuf_assoc (s : State) (k : Nat) (buf : List UInt8) (e : Nat) :
    (withBuf s k buf e).assoc k = { s.assoc k with readBuf := buf, readExpected := e } := by
  simp [withBuf, State.modAssoc]

@[simp] theorem withBuf_cfg (s : State) (k : Nat) (buf : List UInt8) (e : Nat) :
    (withBuf s k buf e).cfg = s.cfg := rfl

theorem withBuf_self (s : State) (k : Nat) :
    withBuf s k (s.assoc k).readBuf (s.assoc k).readExpected = s := by
  simp [withBuf, State.modAssoc]

/-- More bytes in the buffer. -/
theorem withBuf_append (s : State) (k : Nat) (buf l : List UInt8) (e : Nat) :
    ((withBuf s k buf e).modAssoc k fun a => { a with readBuf := a.readBuf ++ l }) =
      withBuf s k (buf ++ l) e := by
  simp [withBuf, State.modAssoc]

/-- A new expectation. -/
theorem withBuf_expect (s : State) (k : Nat) (buf : List UInt8) (e e' : Nat) :
    ((withBuf s k buf e).modAssoc k fun a => { a with readExpected := e' }) =
      withBuf s k buf e' := by
  simp [withBuf, State.modAssoc]

/-! ### Reading the method reply -/

/-- The loop in its first stage. -/
theorem readHello_sat (n : Nat) {m : Nat} (hm : m ≤ 2)
    (hstage : (s.tbl.core k).stage = .assocReadHello) :
    Prog.Sat (Env S R k) (fun s' r => ∃ m', m ≤ m' ∧ m' ≤ 2 ∧
        s' = withBuf s k (Lib.segment S 0 m') 2 ∧ r = some (decide (m' = 2)))
      (readAssociateBytesFrom k fd n (withBuf s k (Lib.segment S 0 m) 2)) := by
  induction n generalizing m with
  | zero => trivial
  | succ n ih =>
      simp only [readAssociateBytesFrom, Lib.Act.bind_run, get_run, Prog.ret_bind, withBuf_assoc,
        length_segment]
      refine sat_ite (fun hlt => ?_) fun hge => ?_
      · rintro r (rfl | rfl | ⟨j, hj, hjle, rfl⟩)
        · exact ih hm
        · exact ⟨m, Nat.le_refl m, hm, rfl, by simp; omega⟩
        · have hplace : place (withBuf s k (Lib.segment S 0 m) 2) k = 0 + m := by
            simp [place, hstage]
          rw [hplace]
          rcases hseg : Lib.segment S (0 + m) j with _ | ⟨b, bs⟩
          · have := congrArg List.length hseg
            rw [length_segment] at this
            exact absurd this (Nat.ne_of_gt hj)
          · simp only [Lib.Act.bind_run, modify_run, get_run, Prog.ret_bind, withBuf_append]
            rw [← hseg, segment_append]
            refine sat_ite (fun hbad => ?_) fun _ => ?_
            · exact absurd (hstage.symm.trans hbad) (by simp)
            · simp only [withBuf_assoc, length_segment] at hjle
              exact (ih (by omega)).mono fun s' r ⟨m', h, hrest⟩ => ⟨m', by omega, hrest⟩
      · exact ⟨m, Nat.le_refl m, hm, rfl, by simp; omega⟩

/-! ### Reading the ASSOCIATE reply -/

/-- How much of the reply the session expects in all once it has `m` bytes of it. -/
def Expects (S : Nat → UInt8) (m e : Nat) : Prop :=
  (m < 4 ∧ e = 4 ∧ (2 ≤ m → Accepted S)) ∨ (m = 4 ∧ e = 5 ∧ Accepted S ∧ S 5 = 3) ∨
    (4 ≤ m ∧ m ≤ e ∧ replyLength S = some e ∧ e ≤ associateReadCap ∧ (S 5 = 3 → 5 ≤ m))

theorem Expects.le {m e : Nat} (h : Expects S m e) : m ≤ e ∧ e ≤ associateReadCap := by
  simp only [associateReadCap]
  rcases h with ⟨h, rfl, -⟩ | ⟨rfl, rfl, -⟩ | ⟨-, h, -, h', -⟩
  · omega
  · omega
  · exact ⟨h, h'⟩

/-- Once the expectation is met the whole reply is there. -/
theorem Expects.done {e : Nat} (h : Expects S e e) :
    replyLength S = some e ∧ e ≤ associateReadCap := by
  rcases h with ⟨h, rfl, -⟩ | ⟨h, h', -⟩ | ⟨-, -, h, h', -⟩
  · omega
  · omega
  · exact ⟨h, h'⟩

/-- There is no reply that fits. -/
def Unfit (S : Nat → UInt8) : Prop := ∀ n, replyLength S = some n → associateReadCap < n

/-- The length is known: it is the new expectation, or the reply is given up. -/
theorem responseExpected_known {a : Assoc} (h : socks5ReplyLength a.readBuf = replyLength S) :
    (responseExpected a = none ∧ Unfit S) ∨
      ∃ e, responseExpected a = some e ∧ replyLength S = some e ∧ e ≤ associateReadCap := by
  unfold responseExpected Unfit
  rw [h]
  rcases hl : replyLength S with _ | n
  · exact Or.inl ⟨rfl, by simp⟩
  · have hge := Dns.replyLength_ge hl
    obtain ⟨n, rfl⟩ : ∃ j, n = j + 1 := ⟨n - 1, by omega⟩
    by_cases hcap : n + 1 > associateReadCap
    · exact Or.inl ⟨if_pos hcap, fun j hj => Option.some.inj hj ▸ hcap⟩
    · exact Or.inr ⟨n + 1, if_neg hcap, rfl, Nat.le_of_not_lt hcap⟩

/-- A piece of the reply arrives. -/
theorem responseExpected_piece {m m' e : Nat} (h : Expects S m e) (hlt : m < m') (hle : m' ≤ e)
    {a : Assoc} (ha : a.readBuf = Lib.segment S 2 m') (he : a.readExpected = e) :
    (responseExpected a = none ∧ Unfit S) ∨ ∃ e', responseExpected a = some e' ∧ Expects S m' e' := by
  have hlen : a.readBuf.length = m' := by rw [ha, length_segment]
  have hfour : m' < 4 → e = 4 := by
    rcases h with ⟨-, h, -⟩ | ⟨h, -⟩ | ⟨h, -⟩
    · exact fun _ => h
    · omega
    · omega
  by_cases hacc : Accepted S
  · by_cases h4 : m' < 4
    · -- the address type is still to come
      have hexp : responseExpected a = some 4 := by
        simp only [responseExpected, ha, replyLength_four h4 hacc, length_segment]
        rw [if_neg (by omega), he, hfour h4]
      exact Or.inr ⟨4, hexp, Or.inl ⟨h4, rfl, fun _ => hacc⟩⟩
    obtain ⟨j, rfl⟩ : ∃ j, m' = j + 4 := ⟨m' - 4, by omega⟩
    by_cases h3 : S 5 = 3 ∧ j = 0
    · -- a domain name whose length is still to come
      obtain ⟨h3, rfl⟩ := h3
      have hzero : socks5ReplyLength a.readBuf = some 0 := by
        rw [ha, replyLength_accepted hacc]
        simp [h3]
      have hexp : responseExpected a = some 5 := by
        simp only [responseExpected, hzero]
        rw [if_pos (by omega)]
      exact Or.inr ⟨5, hexp, Or.inr (Or.inl ⟨rfl, rfl, hacc, h3⟩)⟩
    · have hknown : socks5ReplyLength a.readBuf = replyLength S := by
        rw [ha, replyLength_known hacc fun h => fun hj => h3 ⟨h, hj⟩]
      refine (responseExpected_known hknown).imp id fun ⟨e', hexp, hl, hcap⟩ => ?_
      have hge := Dns.replyLength_ge hl
      refine ⟨e', hexp, Or.inr (Or.inr ⟨by omega, ?_, hl, hcap, fun h => ?_⟩)⟩
      · rcases h with ⟨-, rfl, -⟩ | ⟨-, rfl, -⟩ | ⟨-, -, hl', -⟩
        · omega
        · omega
        · rw [hl] at hl'
          rwa [Option.some.inj hl']
      · have : j ≠ 0 := fun hj => h3 ⟨h, hj⟩
        omega
  · by_cases h2 : m' < 2
    · have hexp : responseExpected a = some 4 := by
        simp only [responseExpected, ha, replyLength_two h2, length_segment]
        rw [if_neg (by omega), he, hfour (by omega)]
      exact Or.inr ⟨4, hexp, Or.inl ⟨by omega, rfl, fun h => absurd h (by omega)⟩⟩
    · refine Or.inl ⟨?_, fun n hn => absurd (accepted_of_length hn) hacc⟩
      simp only [responseExpected, ha, replyLength_refused (Nat.le_of_not_lt h2) hacc]

/-- The loop in its second stage. -/
theorem readResponse_sat (n : Nat) {m e : Nat} (hE : Expects S m e)
    (hstage : (s.tbl.core k).stage = .assocReadResponse) :
    Prog.Sat (Env S R k) (fun s' r => (r = none ∧ Unfit S) ∨ ∃ m' e', Expects S m' e' ∧
        s' = withBuf s k (Lib.segment S 2 m') e' ∧ r = some (decide (m' = e')))
      (readAssociateBytesFrom k fd n (withBuf s k (Lib.segment S 2 m) e)) := by
  induction n generalizing m e with
  | zero => trivial
  | succ n ih =>
      simp only [readAssociateBytesFrom, Lib.Act.bind_run, get_run, Prog.ret_bind, withBuf_assoc,
        length_segment]
      refine sat_ite (fun hlt => ?_) fun hge => ?_
      · rintro r (rfl | rfl | ⟨j, hj, hjle, rfl⟩)
        · exact ih hE
        · exact Or.inr ⟨m, e, hE, rfl, by simp; omega⟩
        · have hplace : place (withBuf s k (Lib.segment S 2 m) e) k = 2 + m := by
            simp [place, hstage]
          simp only [withBuf_assoc, length_segment] at hjle
          rw [hplace]
          rcases hseg : Lib.segment S (2 + m) j with _ | ⟨b, bs⟩
          · have := congrArg List.length hseg
            rw [length_segment] at this
            exact absurd this (Nat.ne_of_gt hj)
          · simp only [Lib.Act.bind_run, modify_run, get_run, Prog.ret_bind, withBuf_append]
            rw [← hseg, segment_append]
            refine sat_ite (fun _ => ?_) fun hbad => absurd hstage hbad
            have hgrown : m < m + j := by omega
            rcases responseExpected_piece hE hgrown (by omega)
              (a := (withBuf s k (Lib.segment S 2 (m + j)) e).assoc k) (by simp) (by simp) with
              ⟨hnone, hunfit⟩ | ⟨e', hexp, hE'⟩
            · rw [hnone]
              exact Or.inl ⟨rfl, hunfit⟩
            · rw [hexp]
              simp only [Lib.Act.bind_run, modify_run, Prog.ret_bind, withBuf_expect]
              exact ih hE'
      · have := hE.le
        exact Or.inr ⟨m, e, hE, rfl, by simp; omega⟩

/-! ### The relay socket -/

/-- What the parser does with the parts of an address. -/
def resolveBound : Dns.Bound → Worker (Option (Nat × Sockaddr))
  | .none => pure none
  | .addr consumed a => pure (some (consumed, a))
  | .name consumed host port => do
      let r : Option Sockaddr ← ask (.resolve host port)
      pure (r.map fun a => (consumed, a))

theorem socks5ParseBoundAddr_eq (buf : List UInt8) :
    socks5ParseBoundAddr buf = resolveBound (splitBoundAddr buf) := by
  unfold socks5ParseBoundAddr splitBoundAddr
  by_cases hhead : buf.length < 4 ∨ buf.take 2 ≠ [5, 0]
  · rw [if_pos hhead, if_pos hhead, resolveBound]
  · rw [if_neg hhead, if_neg hhead]
    rcases buf.drop 3 with _ | ⟨kind, rest⟩
    · rfl
    by_cases h1 : kind = 1
    · subst h1
      by_cases h : rest.length < 4 + 2 <;> simp only [h, if_true, if_false, resolveBound]
    by_cases h4 : kind = 4
    · subst h4
      by_cases h : rest.length < 16 + 2 <;> simp only [h, if_true, if_false, resolveBound]
    by_cases h3 : kind = 3
    · subst h3
      rcases rest with _ | ⟨n, rest⟩
      · rfl
      show (if n = 0 ∨ rest.length < n.toNat + 2 then _ else _) =
        resolveBound (if n = 0 ∨ rest.length < n.toNat + 2 then _ else _)
      by_cases h : n = 0 ∨ rest.length < n.toNat + 2
      · rw [if_pos h, if_pos h]
        rfl
      · rw [if_neg h, if_neg h]
        rfl
    · simp [h1, h4, h3, resolveBound]

theorem socks5ParseBoundAddr_sat (buf : List UInt8) :
    Prog.Sat (Env S R k) (fun s' r => s' = s ∧ r = (splitBoundAddr buf).resolve R)
      (socks5ParseBoundAddr buf s) := by
  rw [socks5ParseBoundAddr_eq]
  rcases splitBoundAddr buf with _ | ⟨n, a⟩ | ⟨n, host, port⟩
  · exact ⟨rfl, rfl⟩
  · exact ⟨rfl, rfl⟩
  · rintro r rfl
    exact ⟨rfl, rfl⟩

/-- The whole reply takes as many bytes as its length says. -/
theorem resolve_consumed {e n : Nat} {a : Sockaddr} (h : replyLength S = some e)
    (hr : (splitBoundAddr (Lib.segment S 2 e)).resolve R = some (n, a)) : n = e := by
  rw [Dns.splitBoundAddr_reply h] at hr
  split at hr
  · simp only [Dns.Bound.resolve, Option.some.injEq, Prod.mk.injEq] at hr
    exact hr.1.symm
  · split at hr
    · simp only [Dns.Bound.resolve, Option.some.injEq, Prod.mk.injEq] at hr
      exact hr.1.symm
    · split at hr
      · simp [Dns.Bound.resolve] at hr
      · simp only [Dns.Bound.resolve, Option.map_eq_some_iff, Prod.mk.injEq] at hr
        obtain ⟨_, -, h, -⟩ := hr
        exact h.symm

/-- The session has its relay socket, or has failed, as the stream says. -/
def Ended (S : Nat → UInt8) (R : List UInt8 → UInt16 → Option Sockaddr) (socks : Sockaddr) (k : Nat)
    (s : State) (good : Bool) : Prop :=
  replyOf associateReadCap socks R S =
    if good then some (2 + (s.assoc k).readBuf.length, (s.assoc k).relayAddr) else none

theorem createRelaySocket_sat {e : Nat} (hm : S 0 = 5 ∧ S 1 = 0) (hl : replyLength S = some e)
    (hcap : e ≤ associateReadCap) (hbuf : (s.assoc k).readBuf = Lib.segment S 2 e) :
    Prog.Sat (Env S R k) (fun s' r => Ended S R s.cfg.socksAddr k s' r)
      (createAssociateRelaySocket k s) := by
  have hreply : replyOf associateReadCap s.cfg.socksAddr R S =
      ((splitBoundAddr (Lib.segment S 2 e)).resolve R).map fun r =>
        (2 + e, socks5ReplaceUnspecifiedRelay s.cfg.socksAddr r.2) := by
    simp only [replyOf, if_pos hm, hl, if_neg (Nat.not_lt.mpr hcap)]
  refine (socks5ParseBoundAddr_sat (s := s) _).bind fun t r ⟨ht, hr⟩ => ?_
  subst ht
  rw [hbuf] at hr
  rcases r with _ | ⟨n, a⟩
  · show replyOf _ _ _ _ = none
    rw [hreply, ← hr]
    rfl
  · obtain rfl := resolve_consumed hl hr.symm
    refine sat_ite (fun hbad => absurd hbad (by simp [hbuf])) fun _ => ?_
    rintro r (hsome : Option.isSome r = true)
    obtain ⟨fd', rfl⟩ := Option.isSome_iff_exists.mp hsome
    intro connected _
    show replyOf _ _ _ _ = some _
    rw [hreply, ← hr]
    simp [State.modAssoc, hbuf]

/-! ### One call -/

/-- The session is reading: its buffer holds what the stream has from its place on. -/
structure Reading (S : Nat → UInt8) (socks : Sockaddr) (s : State) (k : Nat) : Prop where
  cfg : s.cfg.socksAddr = socks
  buf : ((s.tbl.core k).stage = .assocReadHello ∧ ∃ m, m ≤ 2 ∧
      (s.assoc k).readBuf = Lib.segment S 0 m ∧ (s.assoc k).readExpected = 2) ∨
    ((s.tbl.core k).stage = .assocReadResponse ∧ (S 0 = 5 ∧ S 1 = 0) ∧ ∃ m e, Expects S m e ∧
      (s.assoc k).readBuf = Lib.segment S 2 m ∧ (s.assoc k).readExpected = e)

/-- The session waits for more, or has ended as the stream says. -/
def Verdict (S : Nat → UInt8) (R : List UInt8 → UInt16 → Option Sockaddr) (socks : Sockaddr)
    (k : Nat) (s : State) : Option Bool → Prop
  | none => Ended S R socks k s false
  | some true => Ended S R socks k s true
  | some false => Reading S socks s k

theorem Unfit.ended (h : Unfit S) (s : State) : Ended S R socks k s false := by
  unfold Ended replyOf
  by_cases hm : S 0 = 5 ∧ S 1 = 0
  · rw [if_pos hm]
    rcases hl : replyLength S with _ | e
    · rfl
    · simp [h e hl]
  · rw [if_neg hm]
    rfl

theorem respond_sat {m e : Nat} (hcfg : s.cfg.socksAddr = socks)
    (hstage : (s.tbl.core k).stage = .assocReadResponse) (hm : S 0 = 5 ∧ S 1 = 0)
    (hE : Expects S m e) (hbuf : (s.assoc k).readBuf = Lib.segment S 2 m)
    (hexp : (s.assoc k).readExpected = e) :
    Prog.Sat (Env S R k) (fun s' r => Verdict S R socks k s' r) (respond k fd s) := by
  have hs : s = withBuf s k (Lib.segment S 2 m) e := by
    rw [← hbuf, ← hexp, withBuf_self]
  intro retries _
  rw [hs]
  refine (readResponse_sat _ hE hstage).bind fun t r ht => ?_
  rcases ht with ⟨rfl, hunfit⟩ | ⟨m', e', hE', rfl, rfl⟩
  · exact hunfit.ended t
  · by_cases hdone : m' = e'
    · subst hdone
      obtain ⟨hl, hcap⟩ := hE'.done
      simp only [decide_true, if_true]
      refine (createRelaySocket_sat hm hl hcap (by simp)).bind fun u good hu => ?_
      rw [withBuf_cfg, hcfg] at hu
      cases good with
      | true => exact hu
      | false => exact hu
    · simp only [hdone, decide_false, Option.some.injEq, Bool.false_eq_true, if_false]
      exact ⟨hcfg, Or.inr ⟨hstage, hm, m', e', hE', by simp, by simp⟩⟩

/-- The method reply: refused, not complete, or accepted. -/
theorem readAssociateHello_sat {m : Nat} (hm : m ≤ 2)
    (hstage : (s.tbl.core k).stage = .assocReadHello)
    (hbuf : (s.assoc k).readBuf = Lib.segment S 0 m) (hexp : (s.assoc k).readExpected = 2) :
    Prog.Sat (Env S R k) (fun s' r => s'.cfg = s.cfg ∧
        ((r = none ∧ ¬(S 0 = 5 ∧ S 1 = 0)) ∨
        (r = some false ∧ (s'.tbl.core k).stage = .assocReadHello ∧ ∃ m', m' ≤ 2 ∧
          (s'.assoc k).readBuf = Lib.segment S 0 m' ∧ (s'.assoc k).readExpected = 2) ∨
        (r = some true ∧ (S 0 = 5 ∧ S 1 = 0) ∧ (s'.tbl.core k).stage = .assocReadResponse ∧
          (s'.assoc k).readBuf = [] ∧ (s'.assoc k).readExpected = 4)))
      (readAssociateHello k fd s) := by
  have hs : s = withBuf s k (Lib.segment S 0 m) 2 := by
    rw [← hbuf, ← hexp, withBuf_self]
  intro retries _
  rw [hs]
  refine (readHello_sat _ hm hstage).bind fun t r ⟨m', _, hm', ht, hr⟩ => ?_
  subst ht hr
  refine sat_ite (fun htrue => ?_) fun hfalse => ?_
  · obtain rfl : m' = 2 := by simpa using htrue
    refine sat_ite (fun hgood => ?_) fun hbad => ?_
    · have hmeth : S 0 = 5 ∧ S 1 = 0 := by simpa [Lib.segment] using hgood
      refine ⟨rfl, Or.inr (Or.inr ⟨rfl, hmeth, ?_, ?_, ?_⟩)⟩
      · simp [setStage, State.modCore, State.modAssoc]
      · simp [setStage, State.modCore, State.modAssoc]
      · simp [setStage, State.modCore, State.modAssoc]
    · refine ⟨rfl, Or.inl ⟨rfl, fun hmeth => hbad ?_⟩⟩
      simp [Lib.segment, hmeth.1, hmeth.2]
  · have hne : m' ≠ 2 := by simpa using hfalse
    refine ⟨rfl, Or.inr (Or.inl ⟨by simp [hne], hstage, m', hm', by simp, by simp⟩)⟩

theorem handshake_sat (h : Reading S socks s k) :
    Prog.Sat (Env S R k) (fun s' r => Verdict S R socks k s' r) (handshake k fd s) := by
  rcases h.buf with ⟨hstage, m, hm, hbuf, hexp⟩ | ⟨hstage, hmeth, m, e, hE, hbuf, hexp⟩
  · refine sat_ite (fun _ => ?_) fun hbad => absurd hstage hbad
    refine (readAssociateHello_sat hm hstage hbuf hexp).bind fun t r ⟨hcfg, ht⟩ => ?_
    have hcfg' : t.cfg.socksAddr = socks := by rw [hcfg, h.cfg]
    rcases ht with ⟨rfl, hbad⟩ | ⟨rfl, hwait⟩ | ⟨rfl, hmeth, hstage', hbuf', hexp'⟩
    · show replyOf _ _ _ _ = none
      rw [replyOf, if_neg hbad]
    · exact ⟨hcfg', Or.inl hwait⟩
    · have hE : Expects S 0 4 := Or.inl ⟨by omega, rfl, by omega⟩
      exact respond_sat hcfg' hstage' hmeth hE hbuf' hexp'
  · refine sat_ite (fun hbad => ?_) fun _ => ?_
    · exact absurd (hbad.symm.trans hstage) (by simp)
    · exact respond_sat h.cfg hstage hmeth hE hbuf hexp

/-! ### The handshake within `associateAdvance` -/

/-- What `completeAssociate` does once there is a relay socket. -/
def claimRelayPort (k : Nat) : Worker Bool := do
  let s ← get
  let port := sockaddrPort (s.assoc k).relayAddr
  if relayPortNeedsClaim s.cfg port then
    let claimed : Bool ← ask (.portClaim port)
    if claimed then
      modify fun s => s.modAssoc k fun a => { a with relayPort := port, relayPortClaimed := true }
      establishAssociate k
    else
      count .udpRelayPortCollisions
      if (s.assoc k).associateRetries < relayPortMaxRetries then
        modify fun s => s.modAssoc k fun a =>
          { a with associateRetries := a.associateRetries + 1 }
        restartAssociate k
      else establishAssociate k
  else establishAssociate k

/-- How `associateAdvance` goes on after the handshake. -/
def afterHandshake (k : Nat) : Option Bool → Worker Bool
  | none => pure false
  | some false => pure true
  | some true => claimRelayPort k

theorem completeAssociate_eq (k : Nat) :
    completeAssociate k = (do
      let created ← createAssociateRelaySocket k
      if created then claimRelayPort k else pure false) := rfl

theorem advanceResponse_eq {bits : Bits} (hin : bits.inp = true)
    (hstage : (s.tbl.core k).stage = .assocReadResponse) :
    advanceResponse k fd bits s = (respond k fd s).bind fun t r => afterHandshake k r t := by
  have hgo : advanceResponse k fd bits s = (readAssociateBytes k fd s).bind fun t r =>
      (match r with
        | none => pure false
        | some false => pure true
        | some true => completeAssociate k : Worker Bool) t := by
    simp only [advanceResponse, Lib.Act.bind_run, get_run, Prog.ret_bind, Lib.Act.ite_run]
    exact if_pos ⟨hstage, hin⟩
  rw [hgo]
  unfold respond
  rw [Lib.Act.bind_run, Prog.bind_assoc]
  refine Prog.bind_congr_of_sat Prog.sat_true fun t r _ => ?_
  cases r with
  | none => rfl
  | some b =>
      cases b with
      | false => rfl
      | true =>
          simp only [completeAssociate_eq, if_true, Lib.Act.bind_run]
          rw [Prog.bind_assoc]
          refine Prog.bind_congr_of_sat Prog.sat_true fun u created _ => ?_
          cases created with
          | true => rfl
          | false => rfl

/-- On readable input a session that is reading runs `handshake`. -/
theorem associateAdvance_reading {bits : Bits} (hin : bits.inp = true) (herr : bits.err = false)
    (hhup : bits.hup = false) (h : Reading S socks s k) :
    associateAdvance k bits s =
      (handshake k ((s.assoc k).tcpFd.getD 0) s).bind fun t r => afterHandshake k r t := by
  have hstage : (s.tbl.core k).stage ≠ .connecting ∧ (s.tbl.core k).stage ≠ .assocWrite := by
    rcases h.buf with ⟨hs, -⟩ | ⟨hs, -⟩
    · simp [hs]
    · simp [hs]
  have hread : associateAdvance k bits s = advanceHello k ((s.assoc k).tcpFd.getD 0) bits s := by
    simp only [associateAdvance, advanceWrite, Lib.Act.bind_run, get_run, Prog.ret_bind,
      Lib.Act.ite_run, herr, hhup, hstage.1, hstage.2, Bool.or_self, Bool.false_eq_true, if_false,
      false_and]
  rw [hread]
  rcases h.buf with ⟨hs, -⟩ | ⟨hs, -⟩
  · simp only [advanceHello, handshake, Lib.Act.bind_run, get_run, Prog.ret_bind, Lib.Act.ite_run, hs,
      hin, and_self, if_true]
    rw [Prog.bind_assoc]
    have hnext : Prog.Sat (fun _ _ _ => True) (fun t r => r = some true →
        (t.tbl.core k).stage = .assocReadResponse)
        (readAssociateHello k ((s.assoc k).tcpFd.getD 0) s) := by
      refine Prog.Sat.bind (p := readAssociateBytes k _ s) Prog.sat_true fun t r _ => ?_
      refine sat_ite (fun _ => sat_ite (fun _ _ => ?_) fun _ h => ?_) fun hne h => absurd h hne
      · simp [setStage, State.modCore]
      · simp at h
    refine Prog.bind_congr_of_sat hnext fun t r hr => ?_
    cases r with
    | none => rfl
    | some b =>
        cases b with
        | false => rfl
        | true => exact advanceResponse_eq hin (hr rfl)
  · have hne : (s.tbl.core k).stage ≠ .assocReadHello := by simp [hs]
    simp only [advanceHello, handshake, Lib.Act.bind_run, get_run, Prog.ret_bind, Lib.Act.ite_run,
      hne, false_and, if_false]
    exact advanceResponse_eq hin hs

/-! ### Coming to the end -/

/-- Everything that is asked for is there at once. -/
def Prompt (S : Nat → UInt8) (R : List UInt8 → UInt16 → Option Sockaddr) (k : Nat) :
    State → (q : Sys) → q.Ans → Prop
  | s, .controlRecv _ n, r => r = .ok (Lib.segment S (place s k) n) ∧ 0 < n
  | _, .resolve host port, r => r = R host port
  | _, .relaySocket _, r => Option.isSome r = true
  | _, _, _ => True

theorem Prompt.env {q : Sys} {r : q.Ans} (h : Prompt S R k s q r) : Env S R k s q r := by
  cases q
  case controlRecv fd n => exact Or.inr (Or.inr ⟨n, h.2, Nat.le_refl n, h.1⟩)
  all_goals exact h

theorem responseExpected_le {a : Assoc} {e : Nat} (h : responseExpected a = some e)
    (ha : a.readExpected ≤ associateReadCap) : e ≤ associateReadCap := by
  unfold responseExpected at h
  split at h
  · simp at h
  · split at h
    · rw [← Option.some.inj h]
      decide
    · rwa [← Option.some.inj h]
  · split at h
    · simp at h
    · rename_i hle
      rw [← Option.some.inj h]
      exact Nat.le_of_not_lt hle

/-- Then the loop does not wait, and each round gets it further. -/
theorem readAssociateBytesFrom_prompt (n : Nat) {s : State}
    (he : (s.assoc k).readExpected ≤ associateReadCap)
    (hl : (s.assoc k).readBuf.length ≤ associateReadCap)
    (hn : associateReadCap < n + (s.assoc k).readBuf.length) :
    Prog.Done (Prompt S R k) (fun _ r => r ≠ some false) (readAssociateBytesFrom k fd n s) := by
  induction n generalizing s with
  | zero => omega
  | succ n ih =>
      refine done_ite (fun hlt => ?_) fun _ => .ret (by simp)
      refine .ask ⟨_, rfl, by omega⟩ ?_
      rintro r ⟨rfl, -⟩
      have hlen := length_segment S (place s k)
        ((s.assoc k).readExpected - (s.assoc k).readBuf.length)
      rcases hseg : Lib.segment S (place s k)
        ((s.assoc k).readExpected - (s.assoc k).readBuf.length) with _ | ⟨b, bs⟩
      · exact .ret (by simp)
      · rw [hseg] at hlen
        simp only [Lib.Act.bind_run, modify_run, get_run, Prog.ret_bind]
        have hgrown : ((s.modAssoc k fun a => { a with readBuf := a.readBuf ++ b :: bs }).assoc k)
            = { s.assoc k with readBuf := (s.assoc k).readBuf ++ b :: bs } := by
          simp [State.modAssoc]
        -- the stream has all that was asked for, so the buffer grows to what is expected
        have hlen' : ((s.assoc k).readBuf ++ b :: bs).length = (s.assoc k).readExpected := by
          rw [List.length_append, hlen]
          omega
        refine done_ite (fun _ => ?_) fun _ => ?_
        · rcases hexp : responseExpected ((s.modAssoc k fun a =>
            { a with readBuf := a.readBuf ++ b :: bs }).assoc k) with _ | e'
          · exact .ret (by simp)
          · have hle : e' ≤ associateReadCap := responseExpected_le hexp (by rwa [hgrown])
            simp only [Lib.Act.bind_run, modify_run, Prog.ret_bind]
            refine ih ?_ ?_ ?_
            · simpa [State.modAssoc] using hle
            · have : ((s.assoc k).readBuf ++ b :: bs).length ≤ associateReadCap := hlen' ▸ he
              simpa [State.modAssoc] using this
            · have : associateReadCap < n + ((s.assoc k).readBuf ++ b :: bs).length := by omega
              simpa [State.modAssoc] using this
        · refine ih ?_ ?_ ?_
          · rwa [hgrown]
          · rw [hgrown]
            exact hlen' ▸ he
          · rw [hgrown]
            show _ < n + ((s.assoc k).readBuf ++ b :: bs).length
            omega

theorem readAssociateBytes_prompt {s : State} (he : (s.assoc k).readExpected ≤ associateReadCap)
    (hl : (s.assoc k).readBuf.length ≤ associateReadCap) :
    Prog.Done (Prompt S R k) (fun _ r => r ≠ some false) (readAssociateBytes k fd s) :=
  .ask ⟨(0 : Nat), trivial⟩ fun retries _ =>
    readAssociateBytesFrom_prompt _ he hl (by simp only [associateReadCap]; omega)

theorem createRelaySocket_prompt (s : State) :
    Prog.Done (Prompt S R k) (fun _ _ => True) (createAssociateRelaySocket k s) := by
  have hparse : Prog.Done (Prompt S R k) (fun s' _ => s' = s)
      (socks5ParseBoundAddr (s.assoc k).readBuf s) := by
    rw [socks5ParseBoundAddr_eq]
    rcases splitBoundAddr (s.assoc k).readBuf with _ | ⟨n, a⟩ | ⟨n, host, port⟩
    · exact .ret rfl
    · exact .ret rfl
    · exact .ask ⟨_, rfl⟩ fun _ _ => .ret rfl
  refine hparse.bind fun t r ht => ?_
  subst ht
  rcases r with _ | ⟨n, a⟩
  · exact .ret trivial
  · refine done_ite (fun _ => .ret trivial) fun _ => ?_
    refine .ask ⟨some (0 : Nat), rfl⟩ fun r _ => ?_
    rcases r with _ | fd'
    · exact .ret trivial
    · exact .ask ⟨true, trivial⟩ fun _ _ => .ret trivial

theorem respond_prompt {s : State} (he : (s.assoc k).readExpected ≤ associateReadCap)
    (hl : (s.assoc k).readBuf.length ≤ associateReadCap) :
    Prog.Done (Prompt S R k) (fun _ r => r ≠ some false) (respond k fd s) := by
  refine (readAssociateBytes_prompt he hl).bind fun t r hr => done_ite (fun _ => ?_) fun _ => ?_
  · refine (createRelaySocket_prompt t).bind fun u good _ => .ret ?_
    cases good with
    | true => simp
    | false => simp
  · exact .ret hr

/-- One call with everything there ends the handshake. -/
theorem handshake_prompt (h : Reading S socks s k) :
    Prog.Done (Prompt S R k) (fun _ r => r ≠ some false) (handshake k fd s) := by
  rcases h.buf with ⟨hstage, m, hm, hbuf, hexp⟩ | ⟨hstage, hmeth, m, e, hE, hbuf, hexp⟩
  · refine done_ite (fun _ => ?_) fun hbad => absurd hstage hbad
    have hdone : Prog.Done (Prompt S R k) (fun s' r => r ≠ some false ∧ (r = some true →
        (s'.assoc k).readExpected = 4 ∧ (s'.assoc k).readBuf = [])) (readAssociateHello k fd s) := by
      have hbytes : Prog.Done (Prompt S R k) (fun _ r => r ≠ some false)
          (readAssociateBytes k fd s) := by
        refine readAssociateBytes_prompt ?_ ?_
        · rw [hexp]
          decide
        · rw [hbuf, length_segment]
          exact Nat.le_trans hm (by decide)
      refine hbytes.bind fun t r hr => done_ite (fun _ => done_ite (fun _ => ?_) fun _ => ?_)
        fun hne => ?_
      · exact .ret ⟨by simp, fun _ => by simp [setStage, State.modCore, State.modAssoc]⟩
      · exact .ret ⟨by simp, by simp⟩
      · exact .ret ⟨hr, fun htrue => absurd htrue hne⟩
    refine hdone.bind fun t r ⟨hr, hready⟩ => done_ite (fun htrue => ?_) fun _ => .ret hr
    obtain ⟨he', hb'⟩ := hready htrue
    refine respond_prompt ?_ ?_
    · rw [he']
      decide
    · rw [hb']
      decide
  · refine done_ite (fun hbad => ?_) fun _ => ?_
    · exact absurd (hbad.symm.trans hstage) (by simp)
    · have hle := hE.le
      refine respond_prompt ?_ ?_
      · rw [hexp]
        exact hle.2
      · rw [hbuf, length_segment]
        exact Nat.le_trans hle.1 hle.2

/-! ### Runs -/

/-- Any number of calls after which the session still waits. -/
inductive Run (S : Nat → UInt8) (R : List UInt8 → UInt16 → Option Sockaddr) (k fd : Nat) :
    State → State → Prop where
  | start (s : State) : Run S R k fd s s
  | next {s t u : State} (h : Run S R k fd s t)
      (ho : Prog.Out (Env S R k) (handshake k fd t) u (some false)) : Run S R k fd s u

/-- A run that came to its end: the session failed, or read so many bytes of the stream and has a
relay socket for this address. -/
def Ends (S : Nat → UInt8) (R : List UInt8 → UInt16 → Option Sockaddr) (k fd : Nat) (s : State)
    (v : Option (Nat × Sockaddr)) : Prop :=
  ∃ t u r, Run S R k fd s t ∧ Prog.Out (Env S R k) (handshake k fd t) u r ∧
    ((r = none ∧ v = none) ∨
      (r = some true ∧ v = some (2 + (u.assoc k).readBuf.length, (u.assoc k).relayAddr)))

theorem Run.reading (h : Run S R k fd s t) (hs : Reading S socks s k) : Reading S socks t k := by
  induction h with
  | start => exact hs
  | next _ ho ih => exact (handshake_sat ih).out ho

/-- Every end is the one the stream says. -/
theorem Ends.eq {v : Option (Nat × Sockaddr)} (h : Ends S R k fd s v) (hs : Reading S socks s k) :
    v = replyOf associateReadCap socks R S := by
  obtain ⟨t, u, r, hrun, ho, hv⟩ := h
  have hverdict := (handshake_sat (hrun.reading hs)).out ho
  rcases hv with ⟨rfl, rfl⟩ | ⟨rfl, rfl⟩
  · exact hverdict.symm
  · exact hverdict.symm

/-- Every run can be brought to an end. -/
theorem Reading.ends (h : Reading S socks s k) : ∃ v, Ends S R k fd s v := by
  have hdone : Prog.Done (Prompt S R k) (fun _ r => r ≠ some false) (handshake k fd s) :=
    handshake_prompt h
  obtain ⟨u, r, ho, hr⟩ := hdone.out
  have ho' : Prog.Out (Env S R k) (handshake k fd s) u r := ho.weaken fun _ _ _ h => h.env
  cases r with
  | none => exact ⟨none, s, u, none, .start s, ho', Or.inl ⟨rfl, rfl⟩⟩
  | some b =>
      cases b with
      | true => exact ⟨_, s, u, some true, .start s, ho', Or.inr ⟨rfl, rfl⟩⟩
      | false => exact absurd rfl hr

end AssociateRead

end Bpf2Socks.Udp

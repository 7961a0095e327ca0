/-
# Bpf2Socks.Dns.Handshake — how a channel reads the SOCKS5 server's replies, and that it reads what
a session reads.

A channel writes the hello, reads the method reply, writes the request and reads the ASSOCIATE
reply: four bytes, a fifth if the address is a domain name, then the rest.  It may be interrupted
between any two bytes, and starts over from the top of the stage with what it has.

Both machines end with what `replyOf` says about the stream for the size of their buffer.  So they
agree on every stream, however it is cut, except on a relay named by a domain name of 255 bytes.
-/
import Bpf2Socks.Udp.AssociateRead
import Bpf2Socks.Udp.Play
import Bpf2Socks.Dns.Responses

namespace Bpf2Socks.Dns

open Function (update)
open Fast
open Lib (Prog segment_succ length_segment segment_append)
open Lib.Act (sat_ite done_ite)
open Udp (Sockaddr Errno Bits Piece socks5ReplyLength socks5ReplaceUnspecifiedRelay sockaddrPort)

namespace ChannelRead

variable {S : Nat → UInt8} {R : List UInt8 → UInt16 → Option Sockaddr} {c : UInt32} {fd : Nat}
  {s s' t : State} {socks : Sockaddr}

/-- Where in the stream the channel is. -/
def place (s : State) (c : UInt32) : Nat :=
  (if (s.channels c).stage = .helloRead then 0 else 2) + (s.channels c).readBuf.length

/-- The control connection is open and hands out the stream; the resolver is `R`, and the worker's
own system calls succeed. -/
def Env (S : Nat → UInt8) (R : List UInt8 → UInt16 → Option Sockaddr) (c : UInt32) :
    State → (q : Sys) → q.Ans → Prop
  | s, .controlRecv _ n, r => Piece S (place s c) n r
  | _, .controlSend _ n, r => r = .error .eintr ∨ r = .error .eagain ∨ ∃ m, 0 < m ∧ m ≤ n ∧ r = .ok m
  | _, .resolve host port, r => r = R host port
  | _, .relaySocket _, r => Option.isSome r = true
  | _, .epollAdd _ _, r => r = true
  | _, .epollModify _ _, r => r = true
  | _, .portClaim _, r => r = true
  | _, _, _ => True

/-- The buffer holds these bytes. -/
def withBuf (s : State) (c : UInt32) (buf : List UInt8) : State :=
  s.modChannel c fun ch => { ch with readBuf := buf }

@[simp] theorem withBuf_channel (s : State) (c : UInt32) (buf : List UInt8) :
    (withBuf s c buf).channels c = { s.channels c with readBuf := buf } := by
  simp [withBuf, State.modChannel]

@[simp] theorem withBuf_cfg (s : State) (c : UInt32) (buf : List UInt8) :
    (withBuf s c buf).cfg = s.cfg := rfl

theorem withBuf_self (s : State) (c : UInt32) : withBuf s c (s.channels c).readBuf = s := by
  simp [withBuf, State.modChannel]

theorem withBuf_append (s : State) (c : UInt32) (buf l : List UInt8) :
    ((withBuf s c buf).modChannel c fun ch => { ch with readBuf := ch.readBuf ++ l }) =
      withBuf s c (buf ++ l) := by
  simp [withBuf, State.modChannel]

/-! ### Reading up to a length -/

/-- The place the buffer starts at. -/
def origin (s : State) (c : UInt32) : Nat := if (s.channels c).stage = .helloRead then 0 else 2

theorem channelReadFrom_sat (n expected : Nat) {m p : Nat} (hp : origin s c = p) :
    Prog.Sat (Env S R c) (fun s' r => ∃ m', m ≤ m' ∧ m' ≤ max m expected ∧
        s' = withBuf s c (Lib.segment S p m') ∧ r = some (decide (expected ≤ m')))
      (channelReadFrom c fd expected n (withBuf s c (Lib.segment S p m))) := by
  induction n generalizing m with
  | zero => trivial
  | succ n ih =>
      simp only [channelReadFrom, Lib.Act.bind_run, get_run, Prog.ret_bind, withBuf_channel,
        length_segment]
      refine sat_ite (fun hlt => ?_) fun hge => ?_
      · rintro r (rfl | rfl | ⟨j, hj, hjle, rfl⟩)
        · exact ih
        · exact ⟨m, Nat.le_refl m, Nat.le_max_left m _, rfl, by simp; omega⟩
        · have hplace : place (withBuf s c (Lib.segment S p m)) c = p + m := by
            simp [place, ← hp, origin]
          simp only [withBuf_channel, length_segment] at hjle
          rw [hplace]
          rcases hseg : Lib.segment S (p + m) j with _ | ⟨b, bs⟩
          · have := congrArg List.length hseg
            rw [length_segment] at this
            exact absurd this (Nat.ne_of_gt hj)
          · simp only [Lib.Act.bind_run, Lib.Act.modify_run, Lib.Act.pure_run, modify_run,
              Prog.ret_bind, State.heard, withBuf_append]
            rw [← hseg, segment_append]
            refine ih.mono fun s' r ⟨m', h, h', hrest⟩ => ⟨m', by omega, ?_, hrest⟩
            omega
      · exact ⟨m, Nat.le_refl m, Nat.le_max_left m _, rfl, by simp; omega⟩

theorem channelDoRead_sat (expected : Nat) {m p : Nat} (hp : origin s c = p)
    (hbuf : (s.channels c).readBuf = Lib.segment S p m) :
    Prog.Sat (Env S R c) (fun s' r => ∃ m', m ≤ m' ∧ m' ≤ max m expected ∧
        s' = withBuf s c (Lib.segment S p m') ∧ r = some (decide (expected ≤ m')))
      (channelDoRead c fd expected s) := by
  have hs : withBuf s c (Lib.segment S p m) = s := by rw [← hbuf, withBuf_self]
  intro retries _
  have hread : Prog.Sat (Env S R c) _ (channelReadFrom c fd expected (retries + channelReadCap + 1)
    (withBuf s c (Lib.segment S p m))) := channelReadFrom_sat _ expected hp
  rwa [hs] at hread

/-! ### One event -/

/-- The channel is reading, or writing its request in between: its buffer holds what the stream has
from its place on. -/
structure Reading (S : Nat → UInt8) (socks : Sockaddr) (s : State) (c : UInt32) : Prop where
  cfg : s.cfg.socksAddr = socks
  connected : (s.channels c).tcpFd.isSome = true
  buf : ((s.channels c).stage = .helloRead ∧ ∃ m, m ≤ 2 ∧
      (s.channels c).readBuf = Lib.segment S 0 m) ∨
    ((s.channels c).stage = .assocWrite ∧ (S 0 = 5 ∧ S 1 = 0)) ∨
    ((s.channels c).stage = .assocRead ∧ (S 0 = 5 ∧ S 1 = 0) ∧ ∃ m,
      (m ≤ 4 ∨ ∃ e, replyLength S = some e ∧ m ≤ e) ∧ (s.channels c).readBuf = Lib.segment S 2 m)

/-- The channel waits for more, or has ended as the stream says. -/
def Verdict (S : Nat → UInt8) (R : List UInt8 → UInt16 → Option Sockaddr) (socks : Sockaddr)
    (c : UInt32) (s : State) (good : Bool) : Prop :=
  if good then
    Reading S socks s c ∨ ((s.channels c).stage = .ready ∧ replyOf channelReadCap socks R S =
      some (2 + (s.channels c).readBuf.length, (s.channels c).relayAddr))
  else replyOf channelReadCap socks R S = none

theorem parseBoundAddr_sat (buf : List UInt8) :
    Prog.Sat (Env S R c) (fun s' r => s' = s ∧ r = (splitBoundAddr buf).resolve R)
      (parseBoundAddr buf s) := by
  unfold parseBoundAddr
  rcases splitBoundAddr buf with _ | ⟨n, a⟩ | ⟨n, host, port⟩
  · exact ⟨rfl, rfl⟩
  · exact ⟨rfl, rfl⟩
  · rintro r rfl
    exact ⟨rfl, rfl⟩

/-- The relay socket is made and the channel is ready. -/
theorem openRelaySocket_sat (relay : Sockaddr) :
    Prog.Sat (Env S R c) (fun s' r => r = true ∧ (s'.channels c).stage = .ready ∧
        (s'.channels c).readBuf = (s.channels c).readBuf ∧
        (s'.channels c).relayAddr = (s.channels c).relayAddr) (openRelaySocket c fd relay s) := by
  rintro r (hsome : Option.isSome r = true)
  obtain ⟨udpFd, rfl⟩ := Option.isSome_iff_exists.mp hsome
  rintro connected - added (rfl : added = true) done (rfl : done = true)
  refine ⟨rfl, ?_⟩
  simp [State.modChannel]

theorem finishAssociate_sat {e : Nat} (hm : S 0 = 5 ∧ S 1 = 0) (hl : replyLength S = some e)
    (hbuf : (s.channels c).readBuf = Lib.segment S 2 e) :
    Prog.Sat (Env S R c) (fun s' r => Verdict S R s.cfg.socksAddr c s' r)
      (finishAssociate c fd s) := by
  have hreply : replyOf channelReadCap s.cfg.socksAddr R S =
      ((splitBoundAddr (Lib.segment S 2 e)).resolve R).map fun r =>
        (2 + e, socks5ReplaceUnspecifiedRelay s.cfg.socksAddr r.2) := by
    simp only [replyOf, if_pos hm, hl, if_neg (Nat.not_lt.mpr (replyLength_le hl).1)]
  refine (parseBoundAddr_sat (s := s) _).bind fun t r hparse => ?_
  obtain ⟨rfl, hr⟩ := hparse
  rw [hbuf] at hr
  rcases r with _ | ⟨n, a⟩
  · show replyOf _ _ _ _ = none
    rw [hreply, ← hr]
    rfl
  · rw [← hr, Option.map_some] at hreply
    -- whichever way it goes on, the buffer and the relay address are settled
    have hopen : ∀ u : State, (u.channels c).readBuf = Lib.segment S 2 e →
        (u.channels c).relayAddr = socks5ReplaceUnspecifiedRelay t.cfg.socksAddr a →
        Prog.Sat (Env S R c) (fun s' r => Verdict S R t.cfg.socksAddr c s' r)
          (openRelaySocket c fd (socks5ReplaceUnspecifiedRelay t.cfg.socksAddr a) u) := by
      intro u hub hua
      refine (openRelaySocket_sat _).mono fun s' r hrelay => ?_
      obtain ⟨rfl, hstage, hb, ha⟩ := hrelay
      refine Or.inr ⟨hstage, ?_⟩
      rw [hreply, hb, ha, hub, hua, length_segment]
    refine sat_ite (fun _ => ?_) fun _ => ?_
    · rintro claimed (rfl : claimed = true)
      exact hopen _ (by simp [State.modChannel, hbuf]) (by simp [State.modChannel])
    · exact hopen _ (by simp [State.modChannel, hbuf]) (by simp [State.modChannel])

/-- Waiting in the middle of the reply. -/
theorem reading_assocRead {m : Nat} (hcfg : s.cfg.socksAddr = socks)
    (hfd : (s.channels c).tcpFd.isSome = true) (hstage : (s.channels c).stage = .assocRead)
    (hm : S 0 = 5 ∧ S 1 = 0) (hle : m ≤ 4 ∨ ∃ e, replyLength S = some e ∧ m ≤ e) :
    Reading S socks (withBuf s c (Lib.segment S 2 m)) c := by
  refine ⟨hcfg, ?_, Or.inr (Or.inr ⟨?_, hm, m, hle, ?_⟩)⟩
  · simpa using hfd
  · simpa using hstage
  · simp

/-- The rest of the reply, once its length is known. -/
theorem readAssociateRest_sat {m : Nat} (hcfg : s.cfg.socksAddr = socks)
    (hfd : (s.channels c).tcpFd.isSome = true) (hstage : (s.channels c).stage = .assocRead)
    (hm : S 0 = 5 ∧ S 1 = 0) (hbuf : (s.channels c).readBuf = Lib.segment S 2 m)
    (hle : ∀ e, replyLength S = some e → m ≤ e) :
    Prog.Sat (Env S R c) (fun s' r => Verdict S R socks c s' r)
      (readAssociateRest c fd (replyLength S) s) := by
  have horigin : origin s c = 2 := by simp [origin, hstage]
  rcases hl : replyLength S with _ | e
  · show replyOf _ _ _ _ = none
    rw [replyOf, if_pos hm, hl]
  · refine sat_ite (fun hbad => absurd (replyLength_le hl).1 (by omega)) fun _ => ?_
    refine (channelDoRead_sat e horigin hbuf).bind fun t r hread => ?_
    obtain ⟨m', _, hmax, rfl, rfl⟩ := hread
    have hme := hle e hl
    by_cases hdone : e ≤ m'
    · obtain rfl : m' = e := by omega
      simp only [Nat.le_refl, decide_true]
      have hfin : Prog.Sat (Env S R c) _ (finishAssociate c fd (withBuf s c (Lib.segment S 2 m'))) :=
        finishAssociate_sat hm hl (by simp)
      rwa [withBuf_cfg, hcfg] at hfin
    · simp only [hdone, decide_false]
      exact Or.inl (reading_assocRead hcfg hfd hstage hm (Or.inr ⟨e, hl, by omega⟩))

theorem advanceAssocRead_sat {bits : Bits} (hb : handshakeBroken bits = false) {m : Nat}
    (hcfg : s.cfg.socksAddr = socks) (hfd : (s.channels c).tcpFd.isSome = true)
    (hstage : (s.channels c).stage = .assocRead) (hm : S 0 = 5 ∧ S 1 = 0)
    (hbuf : (s.channels c).readBuf = Lib.segment S 2 m)
    (hle : m ≤ 4 ∨ ∃ e, replyLength S = some e ∧ m ≤ e) :
    Prog.Sat (Env S R c) (fun s' r => Verdict S R socks c s' r) (advanceAssocRead c fd bits s) := by
  have horigin : ∀ m, origin (withBuf s c (Lib.segment S 2 m)) c = 2 := by
    intro m
    simp [origin, hstage]
  have hrest : ∀ m, (∀ e, replyLength S = some e → m ≤ e) →
      Prog.Sat (Env S R c) (fun s' r => Verdict S R socks c s' r)
        (readAssociateRest c fd (replyLength S) (withBuf s c (Lib.segment S 2 m))) := fun m hme =>
    readAssociateRest_sat hcfg (by simpa using hfd) (by simpa using hstage) hm (by simp) hme
  refine sat_ite (fun hbad => ?_) fun _ => sat_ite (fun _ => ?_) fun _ => ?_
  · rw [hb] at hbad
    exact absurd hbad Bool.false_ne_true
  · have hs : origin s c = 2 := by simp [origin, hstage]
    refine (channelDoRead_sat 4 hs hbuf).bind fun t r ⟨m₁, hge, hmax, ht, hr⟩ => ?_
    subst ht hr
    have hle₁ : ∀ e, replyLength S = some e → m₁ ≤ e := by
      intro e he
      have := replyLength_ge he
      rcases hle with h | ⟨e', he', h⟩
      · omega
      · rw [he] at he'
        have := Option.some.inj he'
        omega
    by_cases hfour : 4 ≤ m₁
    · simp only [hfour, decide_true, Lib.Act.bind_run, get_run, Prog.ret_bind, withBuf_channel]
      by_cases hacc : Accepted S
      · obtain ⟨j, rfl⟩ : ∃ j, m₁ = j + 4 := ⟨m₁ - 4, by omega⟩
        by_cases hname : S 5 = 3 ∧ j = 0
        · -- a domain name: one more byte for its length
          obtain ⟨h3, rfl⟩ := hname
          have hzero : socks5ReplyLength (Lib.segment S 2 (0 + 4)) = some 0 := by
            rw [replyLength_accepted hacc]
            simp [h3]
          rw [hzero]
          refine sat_ite (fun _ => ?_) fun hne => absurd rfl hne
          refine (channelDoRead_sat (m := 0 + 4) 5 (horigin 4) (by simp)).bind
            fun t r ⟨m₂, hge₂, hmax₂, ht, hr⟩ => ?_
          subst ht hr
          have hw : withBuf (withBuf s c (Lib.segment S 2 (0 + 4))) c (Lib.segment S 2 m₂) =
              withBuf s c (Lib.segment S 2 m₂) := by simp [withBuf, State.modChannel]
          rw [hw]
          by_cases hfive : 5 ≤ m₂
          · obtain rfl : m₂ = 1 + 4 := by omega
            simp only [hfive, decide_true, Lib.Act.bind_run, get_run, Prog.ret_bind,
              withBuf_channel]
            rw [replyLength_known hacc fun _ => by omega]
            refine hrest _ fun e he => ?_
            have := replyLength_ge he
            omega
          · simp only [hfive, decide_false]
            exact Or.inl (reading_assocRead hcfg hfd hstage hm (Or.inl (by omega)))
        · rw [replyLength_known hacc fun h hj => hname ⟨h, hj⟩]
          refine sat_ite (fun hzero => ?_) fun _ => hrest _ hle₁
          exact absurd (replyLength_ge hzero) (by omega)
      · rw [replyLength_refused (by omega) hacc]
        have hnone : replyLength S = none := replyLength_refused (by omega) hacc
        refine sat_ite (fun hbad => absurd hbad (by simp)) fun _ => ?_
        have := hrest m₁ hle₁
        rwa [hnone] at this
    · simp only [hfour, decide_false]
      exact Or.inl (reading_assocRead hcfg hfd hstage hm (Or.inl (by omega)))
  · exact Or.inl ⟨hcfg, hfd, Or.inr (Or.inr ⟨hstage, hm, m, hle, hbuf⟩)⟩

theorem advanceHelloRead_sat {bits : Bits} (hb : handshakeBroken bits = false) (now : Nat) {m : Nat}
    (hcfg : s.cfg.socksAddr = socks) (hfd : (s.channels c).tcpFd.isSome = true)
    (hstage : (s.channels c).stage = .helloRead) (hm : m ≤ 2)
    (hbuf : (s.channels c).readBuf = Lib.segment S 0 m) :
    Prog.Sat (Env S R c) (fun s' r => Verdict S R socks c s' r)
      (advanceHelloRead c fd bits now s) := by
  refine sat_ite (fun hbad => ?_) fun _ => sat_ite (fun _ => ?_) fun _ => ?_
  · rw [hb] at hbad
    exact absurd hbad Bool.false_ne_true
  · have hs : origin s c = 0 := by simp [origin, hstage]
    refine (channelDoRead_sat 2 hs hbuf).bind fun t r ⟨m', _, hmax, ht, hr⟩ => ?_
    subst ht hr
    by_cases htwo : 2 ≤ m'
    · obtain rfl : m' = 2 := by omega
      simp only [Nat.le_refl, decide_true, Lib.Act.bind_run, get_run, Prog.ret_bind,
        withBuf_channel]
      refine sat_ite (fun hgood => ?_) fun hbad => ?_
      · have hmeth : S 0 = 5 ∧ S 1 = 0 := by simpa [Lib.segment] using hgood
        rintro done (rfl : done = true)
        refine Or.inl ⟨hcfg, ?_, Or.inr (Or.inl ⟨?_, hmeth⟩)⟩
        · simpa [State.modChannel] using hfd
        · simp [State.modChannel]
      · show replyOf _ _ _ _ = none
        rw [replyOf, if_neg fun hmeth => hbad ?_]
        simp [Lib.segment, hmeth.1, hmeth.2]
    · simp only [htwo, decide_false]
      refine Or.inl ⟨hcfg, by simpa using hfd, Or.inl ⟨by simpa using hstage, m', by omega, ?_⟩⟩
      simp
  · exact Or.inl ⟨hcfg, hfd, Or.inl ⟨hstage, m, hm, hbuf⟩⟩

/-- Writing does not fail, and touches nothing but the write offset. -/
theorem channelWriteFrom_sat (n : Nat) :
    Prog.Sat (Env S R c) (fun s' r => r ≠ none ∧ s'.cfg = s.cfg ∧
        (s'.channels c).stage = (s.channels c).stage ∧
        (s'.channels c).tcpFd = (s.channels c).tcpFd) (channelWriteFrom c fd n s) := by
  induction n generalizing s with
  | zero => trivial
  | succ n ih =>
      refine sat_ite (fun _ => ?_) fun _ => ⟨by simp, rfl, rfl, rfl⟩
      rintro r (rfl | rfl | ⟨j, hj, -, rfl⟩)
      · exact ih
      · exact ⟨by simp, rfl, rfl, rfl⟩
      · obtain ⟨j, rfl⟩ : ∃ i, j = i + 1 := ⟨j - 1, by omega⟩
        refine ih.mono fun s' r ⟨hr, hcfg, hstage, hfd⟩ => ⟨hr, hcfg, ?_, ?_⟩
        · rw [hstage]
          simp [State.modChannel]
        · rw [hfd]
          simp [State.modChannel]

theorem advanceWrite_sat {bits : Bits} (hb : handshakeBroken bits = false) (now : Nat)
    (hcfg : s.cfg.socksAddr = socks) (hfd : (s.channels c).tcpFd.isSome = true)
    (hstage : (s.channels c).stage = .assocWrite) (hm : S 0 = 5 ∧ S 1 = 0) :
    Prog.Sat (Env S R c) (fun s' r => Verdict S R socks c s' r)
      (advanceWrite c fd .assocRead bits now s) := by
  refine sat_ite (fun hbad => ?_) fun _ => sat_ite (fun _ => ?_) fun _ => ?_
  · rw [hb] at hbad
    exact absurd hbad Bool.false_ne_true
  · intro retries _
    refine (channelWriteFrom_sat _).bind fun t r ⟨hr, hcfg', hstage', hfd'⟩ => ?_
    rcases r with _ | done
    · exact absurd rfl hr
    · cases done with
      | false =>
          refine Or.inl ⟨hcfg' ▸ hcfg, hfd' ▸ hfd, Or.inr (Or.inl ⟨hstage'.trans hstage, hm⟩)⟩
      | true =>
          rintro done (rfl : done = true)
          refine Or.inl ⟨hcfg' ▸ hcfg, ?_, Or.inr (Or.inr ⟨?_, hm, 0, Or.inl (by omega), ?_⟩)⟩
          · simpa [State.modChannel, hfd'] using hfd
          · simp [State.modChannel]
          · simp [State.modChannel]
  · exact Or.inl ⟨hcfg, hfd, Or.inr (Or.inl ⟨hstage, hm⟩)⟩

/-- Any event of an open connection. -/
theorem advanceChannel_sat {bits : Bits} (hb : handshakeBroken bits = false) (now : Nat)
    (h : Reading S socks s c) :
    Prog.Sat (Env S R c) (fun s' r => Verdict S R socks c s' r) (advanceChannel c bits now s) := by
  obtain ⟨fd, hfd⟩ := Option.isSome_iff_exists.mp h.connected
  simp only [advanceChannel, Lib.Act.bind_run, get_run, Prog.ret_bind, hfd]
  rcases h.buf with ⟨hstage, m, hm, hbuf⟩ | ⟨hstage, hmeth⟩ | ⟨hstage, hmeth, m, hle, hbuf⟩
  · rw [hstage]
    exact advanceHelloRead_sat hb now h.cfg h.connected hstage hm hbuf
  · rw [hstage]
    exact advanceWrite_sat hb now h.cfg h.connected hstage hmeth
  · rw [hstage]
    exact advanceAssocRead_sat hb h.cfg h.connected hstage hmeth hbuf hle

/-! ### Coming to the end -/

/-- Everything that is asked for is there at once, and everything is taken at once. -/
def Prompt (S : Nat → UInt8) (R : List UInt8 → UInt16 → Option Sockaddr) (c : UInt32) :
    State → (q : Sys) → q.Ans → Prop
  | s, .controlRecv _ n, r => r = .ok (Lib.segment S (place s c) n) ∧ 0 < n
  | _, .controlSend _ n, r => r = .ok n ∧ 0 < n
  | _, .resolve host port, r => r = R host port
  | _, .relaySocket _, r => Option.isSome r = true
  | _, .epollAdd _ _, r => r = true
  | _, .epollModify _ _, r => r = true
  | _, .portClaim _, r => r = true
  | _, _, _ => True

theorem Prompt.env {q : Sys} {r : q.Ans} (h : Prompt S R c s q r) : Env S R c s q r := by
  cases q
  case controlRecv fd n => exact Or.inr (Or.inr ⟨n, h.2, Nat.le_refl n, h.1⟩)
  case controlSend fd n => exact Or.inr (Or.inr ⟨n, h.2, Nat.le_refl n, h.1⟩)
  all_goals exact h

/-- Two rounds are enough to read: one that gets the bytes and one that sees that they are there. -/
theorem channelReadFrom_prompt (n expected : Nat) (s : State) :
    Prog.Done (Prompt S R c) (fun _ r => r = some true)
      (channelReadFrom c fd expected (n + 2) s) := by
  refine done_ite (fun hlt => ?_) fun _ => .ret rfl
  refine .ask ⟨_, rfl, by omega⟩ ?_
  rintro r ⟨rfl, -⟩
  have hlen := length_segment S (place s c) (expected - (s.channels c).readBuf.length)
  rcases hseg : Lib.segment S (place s c) (expected - (s.channels c).readBuf.length) with _ | ⟨b, bs⟩
  · rw [hseg, List.length_nil] at hlen
    omega
  · rw [hseg] at hlen
    refine done_ite (fun hlt' => ?_) fun _ => .ret rfl
    simp only [State.heard, State.modChannel, Function.update_self, List.length_append, hlen] at hlt'
    omega

theorem channelDoRead_prompt (expected : Nat) (s : State) :
    Prog.Done (Prompt S R c) (fun _ r => r = some true) (channelDoRead c fd expected s) :=
  .ask ⟨(0 : Nat), trivial⟩ fun (retries : Nat) _ => channelReadFrom_prompt (retries + 261) expected s

theorem channelWriteFrom_prompt (n : Nat) (s : State) :
    Prog.Done (Prompt S R c) (fun _ r => r = some true) (channelWriteFrom c fd (n + 2) s) := by
  refine done_ite (fun hlt => ?_) fun _ => .ret rfl
  refine .ask ⟨_, rfl, by omega⟩ ?_
  rintro r ⟨rfl, -⟩
  obtain ⟨j, hj⟩ : ∃ j, (s.channels c).writeBuf.length - (s.channels c).writeOffset = j + 1 :=
    ⟨(s.channels c).writeBuf.length - (s.channels c).writeOffset - 1, by omega⟩
  rw [hj]
  refine done_ite (fun hlt' => ?_) fun _ => .ret rfl
  simp only [State.heard, State.modChannel, Function.update_self] at hlt'
  omega

theorem channelDoWrite_prompt (s : State) :
    Prog.Done (Prompt S R c) (fun _ r => r = some true) (channelDoWrite c fd s) :=
  .ask ⟨(0 : Nat), trivial⟩ fun (retries : Nat) _ => channelWriteFrom_prompt (retries + 21) s

theorem finishAssociate_prompt (s : State) :
    Prog.Done (Prompt S R c) (fun s' r => r = true → (s'.channels c).stage = .ready)
      (finishAssociate c fd s) := by
  have hparse : Prog.Done (Prompt S R c) (fun _ _ => True)
      (parseBoundAddr (s.channels c).readBuf s) := by
    unfold parseBoundAddr
    rcases splitBoundAddr (s.channels c).readBuf with _ | ⟨n, a⟩ | ⟨n, host, port⟩
    · exact .ret trivial
    · exact .ret trivial
    · exact .ask ⟨_, rfl⟩ fun _ _ => .ret trivial
  have hopen : ∀ relay u, Prog.Done (Prompt S R c)
      (fun s' r => r = true → (s'.channels c).stage = .ready) (openRelaySocket c fd relay u) := by
    intro relay u
    refine .ask ⟨some (0 : Nat), rfl⟩ ?_
    rintro r (hsome : Option.isSome r = true)
    obtain ⟨udpFd, rfl⟩ := Option.isSome_iff_exists.mp hsome
    refine .ask ⟨true, trivial⟩ fun connected _ => .ask ⟨true, rfl⟩ ?_
    rintro added (rfl : added = true)
    refine .ask ⟨true, rfl⟩ fun done _ => .ret fun _ => ?_
    simp [State.modChannel]
  refine hparse.bind fun t r _ => ?_
  rcases r with _ | ⟨n, a⟩
  · exact .ret (by simp)
  · refine done_ite (fun _ => .ask ⟨true, rfl⟩ ?_) fun _ => hopen _ _
    rintro claimed (rfl : claimed = true)
    exact hopen _ _

theorem readAssociateRest_prompt (total : Option Nat) (s : State) :
    Prog.Done (Prompt S R c) (fun s' r => r = true → (s'.channels c).stage = .ready)
      (readAssociateRest c fd total s) := by
  rcases total with _ | e
  · exact .ret (by simp)
  · refine done_ite (fun _ => .ret (by simp)) fun _ => ?_
    refine (channelDoRead_prompt e s).bind fun t r hr => ?_
    subst hr
    exact finishAssociate_prompt t

/-- The next event that can get the channel further. -/
def nextEvent (s : State) (c : UInt32) : Bits :=
  if (s.channels c).stage = .assocWrite then .output else .input

/-- With everything there, that event takes the channel to its next stage or ends it. -/
theorem advanceChannel_prompt (h : Reading S socks s c) :
    Prog.Done (Prompt S R c) (fun s' r => r = true →
        ((s.channels c).stage = .helloRead ∧ (s'.channels c).stage = .assocWrite) ∨
        ((s.channels c).stage = .assocWrite ∧ (s'.channels c).stage = .assocRead) ∨
        (s'.channels c).stage = .ready) (advanceChannel c (nextEvent s c) 0 s) := by
  obtain ⟨fd, hfd⟩ := Option.isSome_iff_exists.mp h.connected
  simp only [advanceChannel, Lib.Act.bind_run, get_run, Prog.ret_bind, hfd, nextEvent]
  rcases h.buf with ⟨hstage, -⟩ | ⟨hstage, -⟩ | ⟨hstage, -⟩
  · simp only [hstage, reduceCtorEq, if_false]
    refine done_ite (fun hbad => absurd hbad (by decide)) fun _ =>
      done_ite (fun _ => ?_) fun hbad => absurd rfl hbad
    refine (channelDoRead_prompt 2 s).bind fun t r hr => ?_
    subst hr
    refine done_ite (fun _ => ?_) fun _ => .ret (by simp)
    refine .ask ⟨true, rfl⟩ fun _ _ => .ret fun _ => Or.inl ⟨trivial, ?_⟩
    simp [State.modChannel]
  · simp only [hstage, if_true]
    refine done_ite (fun hbad => absurd hbad (by decide)) fun _ =>
      done_ite (fun _ => ?_) fun hbad => absurd rfl hbad
    refine (channelDoWrite_prompt s).bind fun t r hr => ?_
    subst hr
    refine .ask ⟨true, rfl⟩ fun _ _ => .ret fun _ => Or.inr (Or.inl ⟨trivial, ?_⟩)
    simp [State.modChannel]
  · simp only [hstage, reduceCtorEq, if_false]
    have hend : ∀ total t, Prog.Done (Prompt S R c) (fun s' r => r = true →
        (False ∧ (s'.channels c).stage = .assocWrite) ∨
        (False ∧ (s'.channels c).stage = .assocRead) ∨ (s'.channels c).stage = .ready)
        (readAssociateRest c fd total t) := fun total t => by
      have hrest : Prog.Done (Prompt S R c) _ (readAssociateRest c fd total t) :=
        readAssociateRest_prompt total t
      exact ⟨hrest.1.mono fun _ _ hr htrue => Or.inr (Or.inr (hr htrue)), hrest.2⟩
    refine done_ite (fun hbad => absurd hbad (by decide)) fun _ =>
      done_ite (fun _ => ?_) fun hbad => absurd rfl hbad
    refine (channelDoRead_prompt 4 s).bind fun t r hr => ?_
    subst hr
    refine done_ite (fun _ => ?_) fun _ => hend _ t
    refine (channelDoRead_prompt 5 t).bind fun u r hr => ?_
    subst hr
    exact hend _ u

/-! ### Runs -/

/-- Any number of events of an open connection after which the channel is still under way. -/
inductive Run (S : Nat → UInt8) (R : List UInt8 → UInt16 → Option Sockaddr) (c : UInt32) :
    State → State → Prop where
  | start (s : State) : Run S R c s s
  | next {s t u : State} (h : Run S R c s t) (bits : Bits) (hb : handshakeBroken bits = false)
      (now : Nat) (ho : Prog.Out (Env S R c) (advanceChannel c bits now t) u true)
      (hne : (u.channels c).stage ≠ .ready) : Run S R c s u

/-- A run that came to its end: the channel failed, or read so many bytes of the stream and is ready
with this relay address. -/
def Ends (S : Nat → UInt8) (R : List UInt8 → UInt16 → Option Sockaddr) (c : UInt32) (s : State)
    (v : Option (Nat × Sockaddr)) : Prop :=
  ∃ t u bits now good, Run S R c s t ∧ handshakeBroken bits = false ∧
    Prog.Out (Env S R c) (advanceChannel c bits now t) u good ∧
    ((good = false ∧ v = none) ∨ (good = true ∧ (u.channels c).stage = .ready ∧
      v = some (2 + (u.channels c).readBuf.length, (u.channels c).relayAddr)))

theorem Reading.not_ready (h : Reading S socks s c) : (s.channels c).stage ≠ .ready := by
  rcases h.buf with ⟨hs, -⟩ | ⟨hs, -⟩ | ⟨hs, -⟩
  · simp [hs]
  · simp [hs]
  · simp [hs]

theorem Run.reading (h : Run S R c s t) (hs : Reading S socks s c) : Reading S socks t c := by
  induction h with
  | start => exact hs
  | next _ bits hb now ho hne ih =>
      rcases (advanceChannel_sat hb now ih).out ho with h | ⟨hready, -⟩
      · exact h
      · exact absurd hready hne

theorem Ends.eq {v : Option (Nat × Sockaddr)} (h : Ends S R c s v) (hs : Reading S socks s c) :
    v = replyOf channelReadCap socks R S := by
  obtain ⟨t, u, bits, now, good, hrun, hb, ho, hv⟩ := h
  have hverdict := (advanceChannel_sat hb now (hrun.reading hs)).out ho
  rcases hv with ⟨rfl, rfl⟩ | ⟨rfl, hready, rfl⟩
  · exact hverdict.symm
  · rcases hverdict with h | ⟨-, hreply⟩
    · exact absurd hready h.not_ready
    · exact hreply.symm

theorem Run.trans {u : State} (h : Run S R c s t) (h' : Run S R c t u) : Run S R c s u := by
  induction h' with
  | start => exact h
  | next _ bits hb now ho hne ih => exact ih.next bits hb now ho hne

theorem Ends.prepend {v : Option (Nat × Sockaddr)} (h : Run S R c s t) (h' : Ends S R c t v) :
    Ends S R c s v := by
  obtain ⟨t', u, bits, now, good, hrun, hrest⟩ := h'
  exact ⟨t', u, bits, now, good, h.trans hrun, hrest⟩

/-- One event with everything there ends the run or takes the channel to its next stage. -/
theorem Reading.progress (h : Reading S socks s c) :
    (∃ v, Ends S R c s v) ∨ ∃ t, Run S R c s t ∧ Reading S socks t c ∧
      (((s.channels c).stage = .helloRead ∧ (t.channels c).stage = .assocWrite) ∨
        ((s.channels c).stage = .assocWrite ∧ (t.channels c).stage = .assocRead)) := by
  have hdone : Prog.Done (Prompt S R c) _ (advanceChannel c (nextEvent s c) 0 s) :=
    advanceChannel_prompt h
  obtain ⟨u, good, ho, hnext⟩ := hdone.out
  have ho' : Prog.Out (Env S R c) (advanceChannel c (nextEvent s c) 0 s) u good :=
    ho.weaken fun _ _ _ h => h.env
  have hb : handshakeBroken (nextEvent s c) = false := by
    unfold nextEvent
    split
    · rfl
    · rfl
  cases good with
  | false => exact Or.inl ⟨none, s, u, _, 0, false, .start s, hb, ho', Or.inl ⟨rfl, rfl⟩⟩
  | true =>
      by_cases hready : (u.channels c).stage = .ready
      · exact Or.inl ⟨_, s, u, _, 0, true, .start s, hb, ho', Or.inr ⟨rfl, hready, rfl⟩⟩
      · have hrun : Run S R c s u := Run.next (.start s) _ hb 0 ho' hready
        refine Or.inr ⟨u, hrun, hrun.reading h, ?_⟩
        rcases hnext rfl with hs | hs | hs
        · exact Or.inl hs
        · exact Or.inr hs
        · exact absurd hs hready

/-- Every run can be brought to an end, with three more events at most. -/
theorem Reading.ends (h : Reading S socks s c) : ∃ v, Ends S R c s v := by
  have hread : ∀ {s : State}, Reading S socks s c → (s.channels c).stage = .assocRead →
      ∃ v, Ends S R c s v := by
    intro s h hs
    rcases h.progress (R := R) with hend | ⟨t, -, -, ⟨hbad, -⟩ | ⟨hbad, -⟩⟩
    · exact hend
    · exact absurd (hs.symm.trans hbad) (by simp)
    · exact absurd (hs.symm.trans hbad) (by simp)
  have hwrite : ∀ {s : State}, Reading S socks s c → (s.channels c).stage = .assocWrite →
      ∃ v, Ends S R c s v := by
    intro s h hs
    rcases h.progress (R := R) with hend | ⟨t, hrun, ht, ⟨hbad, -⟩ | ⟨-, hnext⟩⟩
    · exact hend
    · exact absurd (hs.symm.trans hbad) (by simp)
    · obtain ⟨v, hv⟩ := hread ht hnext
      exact ⟨v, hv.prepend hrun⟩
  rcases h.progress (R := R) with hend | ⟨t, hrun, ht, ⟨-, hnext⟩ | ⟨-, hnext⟩⟩
  · exact hend
  · obtain ⟨v, hv⟩ := hwrite ht hnext
    exact ⟨v, hv.prepend hrun⟩
  · obtain ⟨v, hv⟩ := hread ht hnext
    exact ⟨v, hv.prepend hrun⟩

end ChannelRead

/-! ## Agreement -/

/-- A session and a channel that have sent their hello and read nothing yet, with the same server. -/
structure Started (s : Udp.State) (k : Nat) (d : State) (c : UInt32) : Prop where
  session : (s.tbl.core k).stage = .assocReadHello ∧ (s.assoc k).readBuf = [] ∧
    (s.assoc k).readExpected = 2
  channel : (d.channels c).stage = .helloRead ∧ (d.channels c).readBuf = [] ∧
    (d.channels c).tcpFd.isSome = true
  socks : s.cfg.socksAddr = d.cfg.socksAddr

/-- Both fail, or both finish after as many bytes with the same relay address; and they finish on
every well-formed stream. -/
def Agree (S : Nat → UInt8) (R : List UInt8 → UInt16 → Option Sockaddr) (k fd : Nat)
    (s : Udp.State) (c : UInt32) (d : State) : Prop :=
  (∀ v w, Udp.AssociateRead.Ends S R k fd s v → ChannelRead.Ends S R c d w → v = w) ∧
    (WellFormed R S → (∀ v, Udp.AssociateRead.Ends S R k fd s v → v.isSome = true) ∧
      ∀ w, ChannelRead.Ends S R c d w → w.isSome = true)

section

variable {S : Nat → UInt8} {R : List UInt8 → UInt16 → Option Sockaddr} {k fd : Nat}
  {s : Udp.State} {c : UInt32} {d : State}

theorem Started.session_reading (h : Started s k d c) :
    Udp.AssociateRead.Reading S d.cfg.socksAddr s k :=
  ⟨h.socks, Or.inl ⟨h.session.1, 0, by omega, h.session.2.1, h.session.2.2⟩⟩

theorem Started.channel_reading (h : Started s k d c) :
    ChannelRead.Reading S d.cfg.socksAddr d c :=
  ⟨rfl, h.channel.2.2, Or.inl ⟨h.channel.1, 0, by omega, h.channel.2.1⟩⟩

theorem Started.agree_iff (h : Started s k d c) :
    Agree S R k fd s c d ↔ ¬LongName R S := by
  obtain ⟨v, hv⟩ : ∃ v, Udp.AssociateRead.Ends S R k fd s v := h.session_reading.ends
  obtain ⟨w, hw⟩ : ∃ w, ChannelRead.Ends S R c d w := h.channel_reading.ends
  rw [← replyOf_agree d.cfg.socksAddr]
  constructor
  · rintro ⟨hsame, -⟩
    rw [← hv.eq h.session_reading, ← hw.eq h.channel_reading]
    exact hsame v w hv hw
  · intro heq
    refine ⟨fun v w hv hw => ?_, fun hwell => ⟨fun v hv => ?_, fun w hw => ?_⟩⟩
    · rw [hv.eq h.session_reading, hw.eq h.channel_reading, heq]
    · rw [hv.eq h.session_reading, heq, replyOf_isSome_iff]
      exact ⟨hwell, fun e he => (replyLength_le he).1⟩
    · rw [hw.eq h.channel_reading, replyOf_isSome_iff]
      exact ⟨hwell, fun e he => (replyLength_le he).1⟩

/-- Whoever finishes has read the two replies and no more. -/
theorem replyOf_length {cap n : Nat} {socks a : Sockaddr} (h : replyOf cap socks R S = some (n, a)) :
    ∃ e, replyLength S = some e ∧ n = 2 + e := by
  unfold replyOf at h
  split at h
  · split at h
    · simp at h
    · rename_i e he
      split at h
      · simp at h
      · obtain ⟨r, -, hr⟩ := Option.map_eq_some_iff.mp h
        exact ⟨e, he, (Prod.mk.inj hr).1.symm⟩
  · simp at h

/-! ### Concrete runs -/

/-- A session and a channel that run to their first read. -/
theorem started_reach :
    ∃ l s d, Udp.Reach Udp.ok (fun _ _ => True) Udp.calmConfig l s ∧ Reach calmConfig d ∧
      Started s 0 d 0 := by
  obtain ⟨l, s, hs, hsess⟩ := Udp.exists_reach (B := Udp.okb) (E := fun _ _ => true)
    (A := Udp.ok) (C := fun _ _ => True) (g := Udp.calmConfig) (fun _ _ _ h => h)
    (fun _ _ _ => trivial)
    (Udp.openMoves Udp.clientA ++ [.wake [(.control 0, .output)], .run Udp.calm])
    (fun _ s => (s.tbl.core 0).stage = .assocReadHello && (s.assoc 0).readBuf = [] &&
      (s.assoc 0).readExpected = 2 && s.cfg.socksAddr = calmConfig.socksAddr) (by decide +kernel)
  have hrun : ((initState calmConfig).bind (play (openMoves.take 2))).any (fun d =>
      (d.channels 0).stage = .helloRead && (d.channels 0).readBuf = [] &&
        (d.channels 0).tcpFd.isSome && d.cfg.socksAddr = calmConfig.socksAddr) = true := by
    decide +kernel
  obtain ⟨d, hd, hchan⟩ := (Option.any_eq_true _ _).mp hrun
  obtain ⟨s₀, h₀, hp⟩ := Option.bind_eq_some_iff.mp hd
  have hreach : Reach calmConfig d :=
    play_reach (by simp [openMoves, Event.valid, channelsPerWorker]) (.init h₀) hp
  simp only [Bool.and_eq_true, decide_eq_true_eq] at hsess hchan
  obtain ⟨⟨⟨h1, h2⟩, h3⟩, h4⟩ := hsess
  obtain ⟨⟨⟨h5, h6⟩, h7⟩, h8⟩ := hchan
  exact ⟨l, s, d, hs, hreach, ⟨h1, h2, h3⟩, ⟨h5, h6, h7⟩, h4.trans h8.symm⟩

/-- A server that names its relay by the letter a, 255 times, and the port 24929. -/
def longNameStream (n : Nat) : UInt8 :=
  if n = 0 ∨ n = 2 then 5 else if n = 5 then 3 else if n = 6 then 255 else if n < 7 then 0 else 97

/-- A server that names its relay by the letter a, three times. -/
def shortNameStream (n : Nat) : UInt8 := if n = 6 then 3 else longNameStream n

/-- A resolver that finds every name on the local host. -/
def localResolver (_ : List UInt8) (port : UInt16) : Option Sockaddr :=
  some ⟨.inet, [(port >>> 8).toUInt8, port.toUInt8, 127, 0, 0, 1] ++ List.replicate 8 0⟩

/-! ### The main result -/

/-- On every stream, however it is cut: every run of either machine can be brought to an end, and
one that finishes has read the two replies exactly.  The machines agree unless the relay is named
by a domain name of 255 bytes. -/
theorem handshakes_agree (h : Started s k d c) :
    ((∀ t, Udp.AssociateRead.Run S R k fd s t → ∃ v, Udp.AssociateRead.Ends S R k fd t v) ∧
      ∀ t, ChannelRead.Run S R c d t → ∃ w, ChannelRead.Ends S R c t w) ∧
    (∀ n a, Udp.AssociateRead.Ends S R k fd s (some (n, a)) ∨ ChannelRead.Ends S R c d (some (n, a)) →
      ∃ e, replyLength S = some e ∧ n = 2 + e) ∧
    (Agree S R k fd s c d ↔ ¬LongName R S) := by
  refine ⟨⟨fun t ht => ?_, fun t ht => ?_⟩, fun n a hend => ?_, h.agree_iff⟩
  · exact (ht.reading h.session_reading).ends
  · exact (ht.reading h.channel_reading).ends
  · rcases hend with hend | hend
    · exact replyOf_length (hend.eq h.session_reading).symm
    · exact replyOf_length (hend.eq h.channel_reading).symm

/-- At a session and a channel of running workers, and a server that names its relay by a name of
three bytes. -/
theorem handshakes_agree_short :
    ∃ l s d, Udp.Reach Udp.ok (fun _ _ => True) Udp.calmConfig l s ∧ Reach calmConfig d ∧
      Started s 0 d 0 ∧ Agree shortNameStream localResolver 0 50 s 0 d := by
  obtain ⟨l, s, d, hs, hd, h⟩ := started_reach
  refine ⟨l, s, d, hs, hd, h, (handshakes_agree h).2.2.mpr fun hlong => ?_⟩
  exact absurd hlong.2.2 (by decide)

/-- The channel is ready and the session fails. -/
theorem handshakes_disagree :
    ∃ l s d v w, Udp.Reach Udp.ok (fun _ _ => True) Udp.calmConfig l s ∧ Reach calmConfig d ∧
      Started s 0 d 0 ∧ WellFormed localResolver longNameStream ∧
      (Udp.AssociateRead.Ends longNameStream localResolver 0 50 s v ∧ v = none) ∧
      (ChannelRead.Ends longNameStream localResolver 0 d w ∧ w.isSome = true) ∧
      ¬Agree longNameStream localResolver 0 50 s 0 d := by
  obtain ⟨l, s, d, hs, hd, h⟩ := started_reach
  have hwell : WellFormed localResolver longNameStream :=
    ⟨by decide, ⟨by decide, by decide⟩, Or.inr (Or.inr ⟨by decide, by decide, rfl⟩)⟩
  have hlong : LongName localResolver longNameStream := ⟨hwell, by decide, by decide⟩
  obtain ⟨v, hv⟩ : ∃ v, Udp.AssociateRead.Ends longNameStream localResolver 0 50 s v :=
    h.session_reading.ends
  obtain ⟨w, hw⟩ : ∃ w, ChannelRead.Ends longNameStream localResolver 0 d w :=
    h.channel_reading.ends
  have hlen : replyLength longNameStream = some 262 := by decide
  refine ⟨l, s, d, v, w, hs, hd, h, hwell, ⟨hv, ?_⟩, ⟨hw, ?_⟩, fun ha => h.agree_iff.mp ha hlong⟩
  · rw [hv.eq h.session_reading, ← Option.not_isSome_iff_eq_none, replyOf_isSome_iff]
    exact fun hbad => absurd (hbad.2 262 hlen) (by decide)
  · rw [hw.eq h.channel_reading, replyOf_isSome_iff]
    exact ⟨hwell, fun e he => (replyLength_le he).1⟩

end

end Bpf2Socks.Dns

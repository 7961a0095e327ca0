/-
# Bpf2Socks.Tcp.Integrity — what a TCP worker delivers, over every run.

`Sound` is kept by every piece of the loop and by the end of the worker, beside `Listed`, which tells
that the connections the scan and the end close are live.  What users of the relay see follows: bytes
arrive in order, unchanged, at the right socket; an end of file is passed on only when everything before
it was; a failure is passed on as a reset.
-/
import Bpf2Socks.Tcp.Admission
import Bpf2Socks.Tcp.Deadlines
import Bpf2Socks.Tcp.Verdicts

namespace Bpf2Socks.Tcp

open Function (update update_self update_of_ne)
open Lib (Prog Act)
open Udp (Bits DstAddr)
open Worker

variable {s s' : State} {c fd : Nat} {d : Side} {w w' : State × Nat}

/-! ## Closing what is active -/

/-- An active connection is live. -/
theorem Sound.live_of_linked (h : Sound s) (hc : (s.conns c).closing = false)
    (hl : (s.conns c).activeLinked = true) : Live s c := by
  refine (h.good c).state.resolve_right fun ho => ?_
  rcases ho.unlinked with hbad | hbad
  · rw [hc] at hbad
    simp at hbad
  · rw [hl] at hbad
    simp at hbad

theorem timely_ok {q : Sys} {r : q.Ans} (h : timely w q r) : ok w.1 q r := h.1

/-- A live connection is closed at the end of the worker. -/
theorem Live.stop (h : Live s c) (hs : Sound s) (hc : c < s.accepted) :
    Prog.Sat ok (fun s' _ => Sound s') (closeConnection c (s.mark c .stopped true)) := by
  have hw := h.work hs hc
  refine (closeConnection_sat (hw.core.mark true (by simp)) ⟨fun d hd => ?_,
    fun _ => Or.inr (Or.inl (mark_self ..)), fun _ _ _ hbad => ?_⟩).mono fun _ _ hp => hp.1
  · have hd : (s.socks c d).failed = true := hd
    rw [hw.clean d] at hd
    simp at hd
  · rw [mark_self] at hbad
    simp at hbad

/-- A live connection that expired: a relay is closed, anything before it is reset. -/
theorem Live.expire (h : Live s c) (hs : Sound s) (hc : c < s.accepted) (now : Nat) :
    Prog.Sat ok (fun s' _ => Sound s') (expireTcpConnection now c s) := by
  have hw := h.work hs hc
  unfold expireTcpConnection
  simp only [Act.bind_run, get_run, Prog.ret_bind]
  refine Act.sat_ite (fun _ => ?_) fun _ => ?_
  · refine Act.sat_ite (fun hst => ?_) fun _ => ?_
    · refine (closeConnection_sat (hw.core.mark (m := .idle) true (by simp)) ⟨fun d hd => ?_,
        fun _ => Or.inl (mark_self ..), fun _ hbad => absurd hst hbad⟩).mono fun _ _ hp => hp.1
      have hd : (s.socks c d).failed = true := hd
      rw [hw.clean d] at hd
      simp at hd
    · refine (resetConnection_sat hw.core hw.unmarked.slipped hw.doomed.failed fun hbad => ?_).mono
        fun _ _ hp => hp.1
      exact absurd hbad (by simp)
  · show Sound (s.noteConnectionDeadline c)
    unfold State.noteConnectionDeadline
    split
    · exact hs
    · exact hs.fields _ _ _

/-! ## The loop -/

/-- What holds of a worker between two pieces of its loop. -/
structure Kept (w : State × Nat) : Prop where
  sound : Sound w.1
  listed : Listed w.1

theorem steady_listed : Steady timely fun w => Listed w.1 where
  timely := id
  listed h := h
  moves _ hl _ := hl
  pause {w} h := (calms_pauseTcpListeners w).mono fun _ _ k => h.calm k

theorem Kept.live (h : Kept w) (hc : c ∈ w.1.active) : Live w.1 c ∧ c < w.1.accepted := by
  obtain ⟨hclosing, hlinked⟩ := h.listed.live hc
  exact ⟨h.sound.live_of_linked hclosing hlinked, h.listed.activeLt hc⟩

/-- One turn of the expiry scan leaves the other connections alone. -/
theorem Kept.expireTcpConnection (h : Kept w) (hlive : Live w.1 c) (hc : c < w.1.accepted) (now : Nat) :
    Prog.Sat timely (fun w' _ => Kept w' ∧ w.1.accepted ≤ w'.1.accepted ∧
      ∀ {c'}, c' ≠ c → w'.1.conns c' = w.1.conns c')
      ((Tcp.expireTcpConnection now c).watch tick w) := by
  have hsound : Prog.Sat timely (fun w' _ => Sound w'.1)
      ((Tcp.expireTcpConnection now c).watch tick w) :=
    (hlive.expire h.sound hc now).watch timely_ok w.2
  have hframe : Prog.Sat timely (fun w' _ => Listed w'.1 ∧ w.1.accepted ≤ w'.1.accepted ∧
      ∀ {c'}, c' ≠ c → w'.1.conns c' = w.1.conns c')
      ((Tcp.expireTcpConnection now c).watch tick w) := by
    have hwork : ∀ {m : Worker Unit}, Works c m → Prog.Sat timely (fun w' _ => Listed w'.1 ∧
        w.1.accepted ≤ w'.1.accepted ∧ ∀ {c'}, c' ≠ c → w'.1.conns c' = w.1.conns c')
        (m.watch tick w) := fun hm =>
      (hm w).mono fun w' _ k => ⟨k.listed h.listed hc, k.accepted, k.conns⟩
    show Prog.Sat timely _ (Prog.watch tick w.2 (Tcp.expireTcpConnection now c w.1))
    simp only [Tcp.expireTcpConnection, Act.bind_run, get_run, Prog.ret_bind]
    by_cases hexpired : deadlineTcpExpired now (w.1.conns c).createdAtMs (w.1.conns c).lastActivityMs
        ((w.1.conns c).stage = .relay) w.1.cfg.connectTimeoutMs w.1.cfg.tcpIdleTimeoutMs = true
    · rw [if_pos hexpired]
      by_cases hstage : (w.1.conns c).stage = .relay
      · rw [if_pos hstage]
        exact hwork (minds_mark.works.bind fun _ => works_closeConnection)
      · rw [if_neg hstage]
        exact hwork (works_resetConnection _)
    · rw [if_neg hexpired]
      obtain ⟨-, hconns, -, haccepted, -⟩ := note_rest w.1 c
      exact ⟨h.listed.note c, Nat.le_of_eq haccepted.symm, fun _ => congrFun hconns _⟩
  exact (hsound.and hframe).mono fun w' _ ⟨h₁, h₂, h₃, h₄⟩ => ⟨⟨h₁, h₂⟩, h₃, h₄⟩

/-- The scan closes connections one by one; those still to come stay as they were. -/
theorem Kept.scan (now : Nat) (rest : List Nat) (hnodup : rest.Nodup) : ∀ {w : State × Nat}, Kept w →
    (∀ c ∈ rest, Live w.1 c ∧ c < w.1.accepted) →
    Prog.Sat timely (fun w' _ => Kept w')
      ((Act.forEach (Tcp.expireTcpConnection now) rest).watch tick w) := by
  induction rest with
  | nil => exact fun h _ => h
  | cons c rest ih =>
      intro w h hlive
      obtain ⟨hnot, hnodup⟩ := List.nodup_cons.mp hnodup
      obtain ⟨hl, hc⟩ := hlive c List.mem_cons_self
      show Prog.Sat timely _ (Act.watch tick (Tcp.expireTcpConnection now c >>= fun _ => _) w)
      rw [Act.watch_bind]
      refine (h.expireTcpConnection hl hc now).bind fun w₁ _ ⟨h₁, hle, hconns⟩ => ?_
      refine ih hnodup h₁ fun e he => ?_
      obtain ⟨hlive', hlt⟩ := hlive e (List.mem_cons_of_mem c he)
      have hsame := hconns fun heq => hnot (heq ▸ he)
      refine ⟨(h₁.sound.good e).state.resolve_right fun ho => ?_, Nat.lt_of_lt_of_le hlt hle⟩
      obtain ⟨fd, hfd, -⟩ := hlive'.standing.fd .client
      rw [← hsame, ho.fd] at hfd
      simp at hfd

/-- `expire_tcp_connections`. -/
theorem Kept.expireTcpConnections (h : Kept w) (now : Nat) :
    Prog.Sat timely (fun w' _ => Kept w') ((expireTcpConnections now).watch tick w) := by
  obtain ⟨s, t⟩ := w
  show Prog.Sat timely _ (Prog.watch tick t (Tcp.expireTcpConnections now s))
  simp only [Tcp.expireTcpConnections, Act.bind_run, get_run, Prog.ret_bind]
  by_cases hskip : now = 0 ∨ now < s.nextDeadlineMs
  · rw [if_pos hskip]
    exact h
  · rw [if_neg hskip]
    have hsound : Sound { s with nextDeadlineMs := noDeadline } := h.sound.fields _ _ _
    have hlisted : Listed { s with nextDeadlineMs := noDeadline } :=
      ⟨h.listed.nodup, h.listed.live, h.listed.activeLt, h.listed.closedLt, h.listed.apart,
        h.listed.known, fun hf => (h.listed.listeners hf).congr rfl rfl rfl rfl⟩
    have hstart : Kept ({ s with nextDeadlineMs := noDeadline }, t) := ⟨hsound, hlisted⟩
    exact Kept.scan now s.active h.listed.nodup hstart fun c hc => hstart.live hc

/-- `free_closed_connections`. -/
theorem Kept.free {t : Nat} (h : Kept (s, t)) : Kept (s.freeClosedConnections, t) := by
  refine ⟨h.sound.freeClosedConnections, ?_⟩
  refine steady_listed.freeConnections s.closed ?_ fun c hc => ⟨h.listed.closedLt hc, fun hmem => ?_⟩
  · exact ⟨h.listed.nodup, h.listed.live, h.listed.activeLt, fun hc => absurd hc List.not_mem_nil,
      fun _ => List.not_mem_nil, h.listed.known,
      fun hf => (h.listed.listeners hf).congr rfl rfl rfl rfl⟩
  · exact h.listed.apart hmem hc

/-- One piece of the loop. -/
theorem Kept.piece (h : Kept w) (hp : Piece timely w w') : Kept w' := by
  cases hp with
  | event ref events ho =>
      have hsound : Prog.Sat timely (fun w' _ => Sound w'.1)
          ((handleConnectionEvent ref events).watch tick w) :=
        (handleConnectionEvent_sound h.sound ref events).watch timely_ok w.2
      exact ⟨hsound.out ho, (steady_listed.handleConnectionEvent ref events h.listed).out ho⟩
  | look now ha => exact ⟨h.sound, h.listed⟩
  | resume ho =>
      have hsound : Prog.Sat timely (fun w' _ => Sound w'.1)
          (resumeTcpListenersIfDue.watch tick w) :=
        (resumeTcpListenersIfDue_sound h.sound).watch timely_ok w.2
      exact ⟨hsound.out ho, h.listed.calm ((calms_resumeTcpListenersIfDue w).out ho)⟩
  | expire now hnow ho => exact (h.expireTcpConnections now).out ho
  | free => exact h.free

/-! ## The begin -/

theorem pipeOf_initState (cfg : Config) (fd : Nat) : pipeOf (initState cfg).fds fd = none := by
  have hfds : (initState cfg).fds fd = some .listener ∨ (initState cfg).fds fd = none := by
    simp only [initState]
    split
    · exact .inl rfl
    · exact .inr rfl
  rcases hfds with h | h <;> simp only [pipeOf, h]

/-- Nothing exists at first but the listeners. -/
theorem sound_initState (cfg : Config) : Sound (initState cfg) where
  house := by
    refine ⟨⟨Nat.zero_le _, List.nodup_nil, fun p hp => absurd hp List.not_mem_nil⟩,
      fun hp => absurd hp (by rw [pipeOf_initState]; simp), if_pos (Or.inl rfl), fun hfd => if_pos (Or.inr hfd.symm), fun hfd => ?_, fun _ => rfl⟩
    simp [initState] at hfd
  good := fun c => by
    refine ⟨⟨fun hfd => ?_, fun _ => rfl, fun d => Or.inl ⟨rfl, rfl, rfl, List.nil_prefix⟩,
      fun hp => absurd hp (by rw [pipeOf_initState]; simp), fun d x hx => absurd hx List.not_mem_nil, fun d hd => ?_, fun _ d => ⟨rfl, rfl, rfl⟩,
      fun hst => ?_, rfl⟩, Or.inr ⟨fun _ => rfl, fun _ => rfl, Or.inr rfl, fun d hd => ?_,
      fun hst => ?_, fun hlt => absurd hlt (Nat.not_lt_zero c)⟩⟩
    · simp [initState, Conn.zero] at hfd
    · simp [initState, Sock.zero] at hd
    · simp [initState, Conn.zero] at hst
    · simp [initState, Sock.zero] at hd
    · simp [initState, Conn.zero] at hst
  unborn := fun _ => ⟨rfl, fun _ => rfl, fun _ => rfl⟩
  closed := fun hc => absurd hc List.not_mem_nil

/-- What `bpf2socks_bridge_tcp_run` does before its loop. -/
theorem setUp_sound (h : Sound s) : Prog.Sat ok (fun s' _ => Sound s') (setUp s) := by
  have hadd : ∀ {s : State} {fd : Nat} {ref : Ref}, Sound s → s.fds fd = some .listener →
      (ref = .listener4 ∨ ref = .listener6) →
      Prog.Sat ok (fun s' _ => Sound s' ∧ s'.cfg = s.cfg) (addFd fd ref Bits.input s) := by
    intro s fd ref hs hfd href
    rintro (r : Option Errno) -
    rcases r with _ | e
    · refine ⟨hs.registerListener hfd href _, ?_⟩
      rcases href with rfl | rfl <;> rfl
    · exact ⟨hs, rfl⟩
  have hend : ∀ {s : State} (r6 : Option Errno), Sound s →
      Prog.Sat ok (fun s' _ => Sound s') ((if r6.isSome then pure false else openSpareFd) s) :=
    fun r6 hs => Act.sat_ite (fun _ => hs) fun _ => (openSpareFd_sound hs).mono fun _ _ hp => hp.1
  intro created _
  refine Act.sat_ite (fun _ => h) fun _ => ?_
  refine (hadd h h.house.listener4 (.inl rfl)).bind fun s₁ r4 ⟨h₁, hcfg₁⟩ => ?_
  refine Act.sat_ite (fun _ => h₁) fun _ => ?_
  rcases h6 : s.cfg.listener6 with _ | fd
  · exact hend none h₁
  · refine (hadd h₁ (h₁.house.listener6 (hcfg₁ ▸ h6)) (.inr rfl)).bind fun s₂ r6 ⟨h₂, _⟩ => ?_
    exact hend r6 h₂

/-- The set-up of a run. -/
theorem setUp_run (cfg : Config) :
    Prog.Sat timely (fun w' _ => Sound w'.1) (setUp.watch tick (initState cfg, 0)) :=
  (setUp_sound (sound_initState cfg)).watch timely_ok 0

theorem Loop.kept {cfg : Config} (h : Loop timely cfg w) : Kept w := by
  obtain ⟨w₀, hset, hrun⟩ := h
  have h₀ : Kept w₀ := ⟨(setUp_run cfg).out hset, (listed_initState cfg).calm ((calms_setUp _).out hset)⟩
  induction hrun with
  | refl => exact h₀
  | tail _ hp ih => exact ih.piece hp

/-! ## The end -/

/-- The loop of `close_all_active`. -/
theorem closeAllActiveFrom_kept (fuel : Nat) : ∀ {w : State × Nat}, Kept w →
    Prog.Sat timely (fun w' _ => Kept w') ((closeAllActiveFrom fuel).watch tick w) := by
  induction fuel with
  | zero => exact fun _ => trivial
  | succ fuel ih =>
      intro w h
      obtain ⟨s, t⟩ := w
      show Prog.Sat timely _ (Prog.watch tick t (closeAllActiveFrom (fuel + 1) s))
      simp only [closeAllActiveFrom, Act.bind_run, get_run, Prog.ret_bind]
      rcases hactive : s.active with _ | ⟨c, rest⟩
      · exact h
      · obtain ⟨hlive, hc⟩ := h.live (w := (s, t)) (c := c) (by rw [hactive]; exact List.mem_cons_self)
        have hmark : Beside c (s, t) (s.mark c .stopped true, t) := beside_mark c .stopped true
        have hsound : Prog.Sat timely (fun w' _ => Sound w'.1)
            ((closeConnection c).watch tick (s.mark c .stopped true, t)) :=
          (hlive.stop h.sound hc).watch timely_ok t
        have hends := closeConnection_ends c (s.mark c .stopped true, t)
        show Prog.Sat timely _ (Prog.watch tick t
          ((closeConnection c (s.mark c .stopped true)).bind fun s' _ => closeAllActiveFrom fuel s'))
        rw [Prog.watch_bind]
        refine (hsound.and hends).bind fun w₁ _ ⟨h₁, he⟩ => ?_
        exact ih ⟨h₁, he.listed (h.listed.beside hmark) hc⟩

/-- The pairs of a pool are closed one after the other. -/
theorem closePairs_sound (l : List PoolPair) : ∀ {s : State}, Sound { s with pool := l } → s.pool = [] →
    Sound (l.foldl (fun s p => (s.closeFd p.readFd).closeFd p.writeFd) s) := by
  induction l with
  | nil =>
      intro s h hpool
      have heq : { s with pool := [] } = s := by rw [← hpool]
      exact heq ▸ h
  | cons p l ih =>
      intro s h hpool
      have hnodup := h.house.pool.nodup
      rw [List.map_cons, List.nodup_cons] at hnodup
      obtain ⟨hread, hwrite⟩ := h.house.pool.empty p List.mem_cons_self
      have hread : s.fds p.readFd = some (.pipeRead none []) := hread
      have hwrite : s.fds p.writeFd = some (.pipeWrite p.readFd) := hwrite
      have hne : p.writeFd ≠ p.readFd := fun he => by
        rw [he, hread] at hwrite
        simp at hwrite
      -- no socket is behind either descriptor
      have heq : (s.closeFd p.readFd).closeFd p.writeFd = { s with
          fds := update (update s.fds p.readFd none) p.writeFd none
          interest := update (update s.interest p.readFd none) p.writeFd none } := by
        rw [closeFd_other (s := s) fun n d => by rw [hread]; simp]
        refine closeFd_other fun n d => ?_
        show update s.fds p.readFd none p.writeFd ≠ _
        rw [update_of_ne hne, hwrite]
        simp
      -- descriptors that are not of this pair stay open
      have hkeep : ∀ {e : Nat} {x : Desc}, s.fds e = some x → x ≠ .pipeRead none [] →
          x ≠ .pipeWrite p.readFd → update (update s.fds p.readFd none) p.writeFd none e = some x := by
        intro e x he hx hx'
        have hr : e ≠ p.readFd := by
          rintro rfl
          exact hx (Option.some.inj (he.symm.trans hread))
        have hw : e ≠ p.writeFd := by
          rintro rfl
          exact hx' (Option.some.inj (he.symm.trans hwrite))
        exact (update_of_ne hw ..).trans ((update_of_ne hr ..).trans he)
      have hclose := pipeOf_close hwrite fun he => h.house.write_eq List.mem_cons_self he
      -- the house is in order again once the pair is off the list
      have hclosed : Sound { (s.closeFd p.readFd).closeFd p.writeFd with pool := l } := by
        rw [heq]
        refine h.desk ⟨⟨Nat.le_of_succ_le h.house.pool.cap, hnodup.2, fun q hq => ?_⟩, fun {e} he => ?_,
          hkeep h.house.listener4 (by simp) (by simp),
          fun he => hkeep (h.house.listener6 he) (by simp) (by simp),
          fun he => hkeep (h.house.spare he) (by simp) (by simp), fun {e} hnone => ?_⟩ rfl rfl rfl rfl
          rfl (fun {c d e} he => ?_) fun hn => ?_
        · have hqr : q.readFd ≠ p.readFd := fun he => hnodup.1 (he ▸ List.mem_map_of_mem hq)
          obtain ⟨hqread, hqwrite⟩ := h.house.pool.empty q (List.mem_cons_of_mem p hq)
          have h₁ : q.readFd ≠ p.writeFd := fun he => by
            rw [he] at hqread
            cases hwrite.symm.trans hqread
          have h₂ : q.writeFd ≠ p.readFd := fun he => by
            rw [he] at hqwrite
            cases hread.symm.trans hqwrite
          have h₃ : q.writeFd ≠ p.writeFd := fun he => by
            rw [he] at hqwrite
            exact hqr (Desc.pipeWrite.inj (Option.some.inj (hwrite.symm.trans hqwrite))).symm
          exact ⟨(update_of_ne h₁ ..).trans ((update_of_ne hqr ..).trans hqread),
            (update_of_ne h₃ ..).trans ((update_of_ne h₂ ..).trans hqwrite)⟩
        · rcases hclose e with ⟨hsame, hr, hw⟩ | hnone
          · obtain ⟨q, hq, hfd⟩ := h.house.pooled (hsame.symm.trans he)
            rcases List.mem_cons.mp hq with rfl | hq
            · exact absurd hfd (by simp [hr, hw])
            · exact ⟨q, hq, hfd⟩
          · cases hnone.symm.trans he
        · show update (update s.interest p.readFd none) p.writeFd none e = none
          by_cases hw : e = p.writeFd
          · rw [hw, update_self]
          by_cases hr : e = p.readFd
          · rw [update_of_ne hw, hr, update_self]
          · have hnone : update (update s.fds p.readFd none) p.writeFd none e = none := hnone
            rw [update_of_ne hw, update_of_ne hr] at hnone
            rw [update_of_ne hw, update_of_ne hr]
            exact h.house.quiet hnone
        · rcases hclose e with ⟨hsame, -⟩ | hnone
          · exact hsame.symm.trans he
          · cases hnone.symm.trans he
        · have hr := h.names_ne hn (e := p.readFd) (by simp [State.owner, hread])
          have hw := h.names_ne hn (e := p.writeFd) (by simp [State.owner, hwrite, hread])
          exact ⟨(update_of_ne hw ..).trans (update_of_ne hr ..),
            (update_of_ne hw ..).trans (update_of_ne hr ..)⟩
      refine ih hclosed ?_
      show ((s.closeFd p.readFd).closeFd p.writeFd).pool = []
      rw [heq]
      exact hpool

/-- `close_pipe_pool`. -/
theorem Sound.closePipePool (h : Sound s) : Sound s.closePipePool :=
  closePairs_sound (s := { s with pool := [] }) s.pool h rfl

/-- What `bpf2socks_bridge_tcp_run` does after its loop. -/
theorem Kept.tearDown (h : Kept w) :
    Prog.Sat timely (fun w' _ => Sound w'.1) (Tcp.tearDown.watch tick w) := by
  obtain ⟨s, t⟩ := w
  show Prog.Sat timely _ (Prog.watch tick t ((closeAllActiveFrom (s.active.length + 1) s).bind _ |>.bind _))
  rw [Prog.bind_assoc, Prog.watch_bind]
  refine (closeAllActiveFrom_kept (s.active.length + 1) h).bind fun w₁ _ h₁ => ?_
  exact (h₁.sound.freeClosedConnections.closePipePool).closeSpare

/-- The states of a worker: one that could not be set up, one between two pieces of its loop, and one
that ended. -/
inductive Run (cfg : Config) : State × Nat → Prop where
  | unset {w : State × Nat} (h : Prog.Out timely (setUp.watch tick (initState cfg, 0)) w false) :
      Run cfg w
  | loop {w : State × Nat} (h : Loop timely cfg w) : Run cfg w
  | ended {w w' : State × Nat} (h : Loop timely cfg w)
      (hend : Prog.Out timely (tearDown.watch tick w) w' ()) : Run cfg w'

theorem Run.sound {cfg : Config} (h : Run cfg w) : Sound w.1 := by
  cases h with
  | unset h => exact (setUp_run cfg).out h
  | loop h => exact h.kept.sound
  | ended h hend => exact h.kept.tearDown.out hend

/-- The loop of `bpf2socks_bridge_tcp_run` goes from piece to piece. -/
theorem Loop.runLoop {cfg : Config} (fuel : Nat) : ∀ {w : State × Nat}, Loop timely cfg w →
    Prog.Sat timely (fun w' _ => Loop timely cfg w') ((Tcp.runLoop fuel).watch tick w) := by
  induction fuel with
  | zero => exact fun _ => trivial
  | succ fuel ih =>
      intro w h stop _
      cases stop with
      | true => exact h
      | false =>
          show Prog.Sat timely _ (Act.watch tick (resumeTcpListenersIfDue >>= fun _ => _) w)
          rw [Act.watch_bind]
          refine Prog.Sat.bind (m := fun w' _ => Loop timely cfg w')
            (Prog.sat_of_out fun w' _ ho => h.piece (.resume ho)) fun w₁ _ h₁ => ?_
          obtain ⟨s₁, t₁⟩ := w₁
          intro now hnow
          have h₂ : Loop timely cfg (s₁, now) := h₁.piece (.look now hnow)
          rintro (ready : Except Errno (List (Ref × Bits))) -
          rcases ready with e | events
          · cases e with
            | eintr => exact ih h₂
            | _ => exact h₂
          · intro stop _
            cases stop with
            | true => exact h₂
            | false =>
                show Prog.Sat timely _ (Act.watch tick (Tcp.turn events >>= fun _ => _) (s₁, now))
                rw [Act.watch_bind]
                exact (h₂.turn id events).bind fun w₃ _ h₃ => ih h₃

/-- **`bpf2socks_bridge_tcp_run`** goes through the states of `Run`. -/
theorem tcpRun_run (cfg : Config) : Prog.Sat timely (fun w' _ => Run cfg w')
    (tcpRun.watch tick (initState cfg, 0)) := by
  unfold tcpRun
  rw [Act.watch_bind]
  refine Prog.Sat.bind (m := fun w' b => Prog.Out timely (setUp.watch tick (initState cfg, 0)) w' b)
    (Prog.sat_of_out fun _ _ ho => ho) fun w₁ b h₁ => ?_
  cases b with
  | false => exact .unset h₁
  | true =>
      have hloop : Loop timely cfg w₁ := ⟨w₁, h₁, .refl⟩
      intro retries _
      show Prog.Sat timely _ (Act.watch tick (Tcp.runLoop (retries + 1) >>= fun _ => _) w₁)
      rw [Act.watch_bind]
      refine (hloop.runLoop _).bind fun w₂ result h₂ => ?_
      show Prog.Sat timely _ (Act.watch tick (Tcp.tearDown >>= fun _ => _) w₂)
      rw [Act.watch_bind]
      exact Prog.Sat.bind (m := fun w' _ => Run cfg w')
        (Prog.sat_of_out fun w' _ ho => .ended h₂ ho) fun w₃ _ h₃ => h₃

/-! ## Runs on a script -/

/-- An event, with the answers of the environment while it is handled. -/
structure Scripted where
  ref : Ref
  events : Bits
  answers : Nat → (q : Sys) → q.Ans

/-- The state after some events. -/
def afterEvents (l : List Scripted) (w : State × Nat) : Option (State × Nat) :=
  l.foldlM (fun w e => (Prog.exec timelyb e.answers 0
    ((handleConnectionEvent e.ref e.events).watch tick w)).map Prod.fst) w

theorem Loop.afterEvents {cfg : Config} (l : List Scripted) : ∀ {w : State × Nat}, Loop timely cfg w →
    Tcp.afterEvents l w = some w' → Loop timely cfg w' := by
  induction l with
  | nil => exact fun h heq => Option.some.inj heq ▸ h
  | cons e l ih =>
      intro w h heq
      rw [Tcp.afterEvents, List.foldlM_cons] at heq
      obtain ⟨w₁, hw₁, heq⟩ := Option.bind_eq_some_iff.mp heq
      obtain ⟨⟨w₁', ⟨⟩⟩, hexec, rfl⟩ := Option.map_eq_some_iff.mp hw₁
      exact ih (h.piece (.event _ _ (Prog.exec_out (fun _ _ _ => timely_of_b) hexec))) heq

/-- Surroundings where a server answers with `server`, splices from a socket end as `input` says, and
splices from a pipe of three bytes move one. -/
def converse (server : List UInt8) (input : SpliceIn) : Nat → (q : Sys) → q.Ans
  | _, .retries => (8 : Nat)
  | _, .originalDst _ => some (⟨.inet, 443, [192, 0, 2, 7]⟩ : DstAddr)
  | _, .connect => .ok ((8 : Nat), false)
  | _, .send _ bytes => .ok (bytes.length : Nat)
  | _, .recv _ _ => .ok server
  | n, .pipe2 => .ok ((100 + 2 * n : Nat), (101 + 2 * n : Nat))
  | _, .pipeWrite _ bytes => .ok (bytes.length : Nat)
  | _, .spliceIn _ _ _ => input
  | _, .spliceOut _ _ len => if len = 3 then .ok (1 : Nat) else .error .eagain
  | _, .fionread _ => some (5 : Nat)
  | n, q => serve 1 100 (.ok 7) (fun _ => true) n q

/-- A client comes, the server grants its request and sends two bytes more, the client sends three
bytes, one of which reaches the server, and then finds its pipe full. -/
def conversation : List Scripted :=
  let server : List UInt8 := [5, 0, 5, 0, 0, 1, 0, 0, 0, 0, 0, 0, 21, 22]
  [⟨.listener4, Bits.input, converse server .empty⟩,
    ⟨.conn 0 .upstream, { Bits.input with out := true }, converse server .empty⟩,
    ⟨.conn 0 .client, Bits.input, converse server (.moved [31, 32, 33])⟩,
    ⟨.conn 0 .client, Bits.input, converse server .full⟩]

/-- The state after these events, or after some of them. -/
theorem loop_converse {p : State × Nat → Bool} (l : List Scripted)
    (h : ((Prog.exec timelyb (serve 1 100 (.ok 7) fun _ => true) 0
      (setUp.watch tick (initState lone, 0))).bind fun r =>
        if r.2 then afterEvents l r.1 else none).any p = true) :
    ∃ w, Loop timely lone w ∧ p w = true := by
  obtain ⟨w, heq, hp⟩ := (Option.any_eq_true _ _).mp h
  obtain ⟨⟨w₀, b⟩, hset, hrest⟩ := Option.bind_eq_some_iff.mp heq
  cases b with
  | false => simp at hrest
  | true =>
      have hloop : Loop timely lone w₀ := ⟨w₀, Prog.exec_out (fun _ _ _ => timely_of_b) hset, .refl⟩
      exact ⟨w, hloop.afterEvents l hrest, hp⟩

/-- Two bytes wait in each pipe, and the client is not read from. -/
structure Conversed (w : State × Nat) : Prop where
  run : Run lone w
  fd : (w.1.conns 0).fd .client = some 7
  stage : (w.1.conns 0).stage = .relay
  flow : inflow w.1 0 .client = [31, 32, 33] ∧ outflow w.1 0 .client = [31]
  early : inflow w.1 0 .upstream = [21, 22]
  pipe : ((w.1.conns 0).pipe .client).readFd = some 106
  stuck : w.1.marks 0 (.stuck .client) = true ∧ w.1.marks 0 (.finOnly .client) = false
  unchanged : w.1.marks 0 .unchanged = false

theorem conversation_run : ∃ w, Conversed w := by
  obtain ⟨w, hloop, hw⟩ := loop_converse (p := fun w => decide ((w.1.conns 0).fd .client = some 7 ∧
    (w.1.conns 0).stage = .relay ∧ (inflow w.1 0 .client = [31, 32, 33] ∧
    outflow w.1 0 .client = [31]) ∧ inflow w.1 0 .upstream = [21, 22] ∧
    ((w.1.conns 0).pipe .client).readFd = some 106 ∧ (w.1.marks 0 (.stuck .client) = true ∧
    w.1.marks 0 (.finOnly .client) = false) ∧ w.1.marks 0 .unchanged = false)) conversation
    (by decide +kernel)
  obtain ⟨hfd, hst, hflow, hearly, hpipe, hstuck, hun⟩ := of_decide_eq_true hw
  exact ⟨w, .loop hloop, hfd, hst, hflow, hearly, hpipe, hstuck, hun⟩

/-! ## Delivery -/

/-- A connection that still has its sockets is live. -/
theorem Sound.live_of_fd (h : Sound s) (hfd : (s.conns c).fd d = some fd) : Live s c := by
  refine (h.good c).state.resolve_right fun ho => ?_
  rw [ho.fd d] at hfd
  simp at hfd

/-- A connection without sockets is over. -/
theorem Sound.over_of_fd (h : Sound s) (hfd : (s.conns c).fd d = none) : Over s c := by
  refine (h.good c).state.resolve_left fun hl => ?_
  obtain ⟨fd, hsome, -⟩ := hl.standing.fd d
  rw [hfd] at hsome
  simp at hsome

/-- What the two peers of a connection may rely on. -/
structure Faithful (s : State) (c : Nat) : Prop where
  /-- What a socket got is a prefix of what the other one gave, the early payload first. -/
  order : ∀ d, outflow s c d <+: inflow s c d
  /-- It got bytes of its own connection only. -/
  own : ∀ d, ∀ x ∈ (s.socks c d).delivered, x.1 = c
  /-- What is on its way is in the pipe of this direction, and `queued` counts it. -/
  pipe : ∀ {d r}, ((s.conns c).pipe d).readFd = some r → ∃ content,
    s.fds r = some (.pipeRead (some (c, d)) content) ∧
      content.length = ((s.conns c).pipe d).queued ∧ (∀ x ∈ content, x.1 = c) ∧
      inflow s c d = outflow s c d ++ content.map Prod.snd
  /-- An end of file is passed on after everything before it. -/
  half : ∀ d, (s.socks c d.other).shut = true →
    (s.socks c d).eof = true ∧ outflow s c d = inflow s c d
  /-- A relay ends with both directions complete, or with a reset, or because it was idle or the worker
  was stopped. -/
  closed : (s.conns c).stage = .relay → (∀ d, (s.conns c).fd d = none) →
    s.marks c .idle = true ∨ s.marks c .stopped = true ∨ (∃ d, (s.socks c d).linger = true) ∨
      Complete s c
  /-- The failure of a socket ends as a reset of the other one. -/
  reset : (∀ d, (s.conns c).fd d = none) → ∀ d, (s.socks c d).failed = true →
    (s.socks c d.other).linger = true
  /-- A connection that was not closed has no socket that failed. -/
  clean : ∀ {d fd}, (s.conns c).fd d = some fd → (s.socks c d).failed = false

theorem Sound.faithful (h : Sound s) (c : Nat) : Faithful s c := by
  have ht := (h.good c).tidy
  refine ⟨fun d => ?_, ht.tags, fun {d r} hr => ?_, ht.shut, fun hst hfd => ?_, fun hfd => ?_,
    fun {d fd} hfd => (h.live_of_fd hfd).clean d⟩
  · rcases ht.pipes d with hu | ⟨r, w, content, hh⟩
    · exact hu.flow
    · exact ⟨_, hh.flow.symm⟩
  · rcases ht.pipes d with hu | ⟨r', w, content, hh⟩
    · rw [hu.readFd] at hr
      simp at hr
    · obtain rfl : r' = r := Option.some.inj (hh.readFd.symm.trans hr)
      exact ⟨content, hh.read, hh.queued, hh.tags, hh.flow⟩
  · exact (h.over_of_fd (hfd .client)).history.relayed hst
  · exact (h.over_of_fd (hfd .client)).history.failed

/-- **What is relayed arrives in order and unchanged.**  In every state of every run, for every
connection, whatever its sockets answered. -/
theorem relay_faithful {cfg : Config} (h : Run cfg w) (c : Nat) : Faithful w.1 c :=
  h.sound.faithful c

/-- One of three bytes has arrived, the others are on their way. -/
theorem relay_faithful_underway : ∃ w, Conversed w ∧ Faithful w.1 0 ∧
    ∃ content, w.1.fds 106 = some (.pipeRead (some (0, .client)) content) ∧
      content.map Prod.snd = [32, 33] := by
  obtain ⟨w, hw⟩ := conversation_run
  have hfaithful : Faithful w.1 0 := relay_faithful hw.run 0
  obtain ⟨content, hcontent, -, -, hflow⟩ := hfaithful.pipe hw.pipe
  refine ⟨w, hw, hfaithful, content, hcontent, ?_⟩
  rw [hw.flow.1, hw.flow.2] at hflow
  have hflow : [31] ++ [32, 33] = [31] ++ content.map Prod.snd := hflow
  exact (List.append_cancel_left hflow).symm

/-! ## The pool -/

/-- An open end of a pipe. -/
def State.IsPipe (s : State) (fd : Nat) : Prop :=
  (∃ holder content, s.fds fd = some (.pipeRead holder content)) ∨ ∃ r, s.fds fd = some (.pipeWrite r)

/-- The pairs of the pool belong to nobody, and every other pipe to one direction of one connection. -/
structure Apart (s : State) : Prop where
  cap : s.pool.length ≤ tcpPipePoolCap
  /-- No descriptor is there twice. -/
  distinct : (s.pool.map PoolPair.readFd ++ s.pool.map PoolPair.writeFd).Nodup
  /-- Every pair is an empty pipe. -/
  empty : ∀ p ∈ s.pool, s.fds p.readFd = some (.pipeRead none []) ∧
    s.fds p.writeFd = some (.pipeWrite p.readFd)
  /-- No connection holds a descriptor of the pool, -/
  unheld : ∀ p ∈ s.pool, ∀ c d fd, ((s.conns c).pipe d).readFd = some fd ∨
    ((s.conns c).pipe d).writeFd = some fd → fd ≠ p.readFd ∧ fd ≠ p.writeFd
  /-- nor one that another direction holds. -/
  single : ∀ {c d fd}, ((s.conns c).pipe d).readFd = some fd ∨ ((s.conns c).pipe d).writeFd = some fd →
    ∀ {c' d'}, ((s.conns c').pipe d').readFd = some fd ∨ ((s.conns c').pipe d').writeFd = some fd →
      c' = c ∧ d' = d
  /-- Every open end of a pipe that is not in the pool is held. -/
  held : ∀ {fd}, s.IsPipe fd → (∀ p ∈ s.pool, fd ≠ p.readFd ∧ fd ≠ p.writeFd) →
    ∃ c d, ((s.conns c).pipe d).readFd = some fd ∨ ((s.conns c).pipe d).writeFd = some fd

theorem State.IsPipe.pipeOf (h : s.IsPipe fd) : ∃ holder, Tcp.pipeOf s.fds fd = some holder := by
  rcases h with ⟨holder, content, hr⟩ | ⟨r, hw⟩
  · exact ⟨holder, pipeOf_read hr⟩
  · exact ⟨holderOf (s.fds r), by simp only [Tcp.pipeOf, hw]⟩

theorem Tidy.pipeOf (h : Tidy s c) (hfd : ((s.conns c).pipe d).readFd = some fd ∨
    ((s.conns c).pipe d).writeFd = some fd) : Tcp.pipeOf s.fds fd = some (some (c, d)) := by
  rcases h.pipes d with hu | ⟨r, w, content, hh⟩
  · rw [hu.readFd, hu.writeFd] at hfd
    simp at hfd
  · rw [hh.readFd, hh.writeFd] at hfd
    simp only [Option.some.injEq] at hfd
    rcases hfd with rfl | rfl
    · exact pipeOf_read hh.read
    · exact pipeOf_write hh.write hh.read

/-- The write ends of the pool are as distinct as its read ends. -/
theorem PoolOk.writeFds_nodup (h : PoolOk s) : (s.pool.map PoolPair.writeFd).Nodup := by
  refine List.Nodup.map_on (fun p hp q hq heq => ?_) (List.Nodup.of_map _ h.nodup)
  have hp' := (h.empty p hp).2
  rw [heq, (h.empty q hq).2, Option.some.injEq, Desc.pipeWrite.injEq] at hp'
  exact List.inj_on_of_nodup_map h.nodup hp hq hp'.symm

theorem Sound.apart (h : Sound s) : Apart s := by
  have hpool := h.house.pool
  refine ⟨hpool.cap, hpool.nodup.append hpool.writeFds_nodup fun fd hr hw => ?_, hpool.empty,
    fun p hp c d fd hfd => ?_, fun {c d fd} hfd {c' d'} hfd' => ?_, fun {fd} hpipe hno => ?_⟩
  · obtain ⟨p, hp, rfl⟩ := List.mem_map.mp hr
    obtain ⟨q, hq, heq⟩ := List.mem_map.mp hw
    have hpr := (hpool.empty p hp).1
    rw [← heq, (hpool.empty q hq).2] at hpr
    simp at hpr
  · have hmine := (h.good c).tidy.pipeOf hfd
    obtain ⟨hr, hw⟩ := hpool.empty p hp
    refine ⟨?_, ?_⟩ <;> rintro rfl
    · cases (pipeOf_read hr).symm.trans hmine
    · cases (pipeOf_write hw hr).symm.trans hmine
  · have hmine := (h.good c).tidy.pipeOf hfd
    rw [(h.good c').tidy.pipeOf hfd', Option.some.injEq, Option.some.injEq, Prod.mk.injEq] at hmine
    exact hmine
  · obtain ⟨_ | ⟨c, d⟩, hof⟩ := hpipe.pipeOf
    · obtain ⟨p, hp, hfd⟩ := h.house.pooled hof
      exact absurd hfd (by simp [hno p hp])
    · exact ⟨c, d, (h.good c).tidy.named hof⟩

/-- **No pipe is shared and none is lost.**  A pipe that goes back to the pool is empty and nobody's
until it is handed out again, an open pipe that is not there is held by one direction of one
connection, and every byte in a pipe or delivered to a socket is one of the connection it belongs to. -/
theorem pipes_apart {cfg : Config} (h : Run cfg w) : Apart w.1 ∧
    (∀ c d r, ((w.1.conns c).pipe d).readFd = some r → ∀ x ∈ w.1.content r, x.1 = c) ∧
      ∀ c d, ∀ x ∈ (w.1.socks c d).delivered, x.1 = c := by
  refine ⟨h.sound.apart, fun c d r hr x hx => ?_, fun c => (h.sound.good c).tidy.tags⟩
  obtain ⟨content, hfd, -, htags, -⟩ := (h.sound.faithful c).pipe hr
  refine htags x ?_
  simpa [State.content, hfd] using hx

/-- The pipe of the client carries bytes of its connection. -/
theorem pipes_apart_underway : ∃ w, Conversed w ∧ Apart w.1 ∧ ∀ x ∈ w.1.content 106, x.1 = 0 := by
  obtain ⟨w, hw⟩ := conversation_run
  obtain ⟨hapart, hcontent, -⟩ := pipes_apart hw.run
  exact ⟨w, hw, hapart, hcontent 0 .client 106 hw.pipe⟩

/-! ## What ends before the relay -/

/-- **A connection that fails before the relay is reset.**  A client that was accepted and whose
connection ended before the relay saw a reset, unless it went away itself, the worker was stopped, or
the end was one of three that forget the option: no memory for the record, no registration of the
sockets, no descriptor but the spare one. -/
theorem refusals_reset {cfg : Config} (h : Run cfg w) (hc : c < w.1.accepted)
    (hfd : (w.1.conns c).fd .client = none) (hst : (w.1.conns c).stage ≠ .relay)
    (hhung : w.1.marks c .hungUp = false) (hstop : w.1.marks c .stopped = false) :
    (w.1.socks c .client).isOpen = false ∧
      ((w.1.socks c .client).linger = true ↔ ¬Slipped w.1 c) := by
  refine ⟨?_, (h.sound.over_of_fd hfd).history.refused hc hst hhung hstop⟩
  rw [(h.sound.good c).tidy.opened, hfd]
  rfl

/-- A server that refuses, and what the client sees of it. -/
theorem refusals_reset_refused : ∃ w, Run lone w ∧ (w.1.socks 0 .client).isOpen = false ∧
    (w.1.socks 0 .client).linger = true := by
  obtain ⟨w, hloop, hw⟩ := loop_converse (p := fun w => decide (0 < w.1.accepted ∧
    (w.1.conns 0).fd .client = none ∧ (w.1.conns 0).stage ≠ .relay ∧ w.1.marks 0 .hungUp = false ∧
    w.1.marks 0 .stopped = false ∧ w.1.marks 0 .noMemory = false ∧
    w.1.marks 0 .unregistered = false ∧ w.1.marks 0 .spare = false))
    [⟨.listener4, Bits.input, converse [] .empty⟩,
      ⟨.conn 0 .upstream, Bits.input, converse [5, 255] .empty⟩] (by decide +kernel)
  obtain ⟨hc, hfd, hst, hhung, hstop, hmem, hreg, hspare⟩ := of_decide_eq_true hw
  have hslip : ¬Slipped w.1 0 := by simp [Slipped, hmem, hreg, hspare]
  obtain ⟨hopen, hreset⟩ := refusals_reset (.loop hloop) hc hfd hst hhung hstop
  exact ⟨w, .loop hloop, hopen, hreset.mpr hslip⟩

/-! ## The replies -/

/-- What became of the replies to a connection. -/
structure Answering (s : State) (c : Nat) : Prop where
  /-- The buffer is never full without a verdict. -/
  room : s.marks c .repliesFull = false
  /-- The relay begins after the two replies a CONNECT is granted with. -/
  granted : (s.conns c).stage = .relay →
    Accepts (s.socks c .upstream).received (s.conns c).responseExpected
  /-- Until then the client is given nothing. -/
  before : (s.conns c).stage ≠ .relay → (s.socks c .client).delivered = []
  /-- What the client is given then is what came after the replies, and after that what was spliced, -/
  first : (s.conns c).stage = .relay → (s.socks c .client).delivered.map Prod.snd <+:
    (s.socks c .upstream).received.drop (s.conns c).responseExpected ++ (s.socks c .upstream).taken
  /-- and what it was not given yet is in the pipe. -/
  rest : ∀ {r}, (s.conns c).stage = .relay → ((s.conns c).pipe .upstream).readFd = some r →
    (s.socks c .client).delivered.map Prod.snd ++ (s.content r).map Prod.snd =
      (s.socks c .upstream).received.drop (s.conns c).responseExpected ++ (s.socks c .upstream).taken
  /-- No prefix of what a connection received before the relay says anything yet. -/
  undecided : ∀ {d fd}, (s.conns c).fd d = some fd → (s.conns c).stage ≠ .relay →
    ∀ k, checkReplies ((s.socks c .upstream).received.take k) = .incomplete

/-- A verdict on a prefix is the verdict on all. -/
theorem checkReplies_take {l : List UInt8} (h : checkReplies l = .incomplete) (k : Nat) :
    checkReplies (l.take k) = .incomplete := by
  by_contra hne
  have happ := checkReplies_append hne (l.drop k)
  rw [List.take_append_drop, h] at happ
  exact hne happ.symm

theorem Live.incomplete (h : Live s c) (hst : (s.conns c).stage ≠ .relay) :
    checkReplies (s.socks c .upstream).received = .incomplete := by
  rcases hstage : (s.conns c).stage
  · rw [h.phase.unread (.inl hstage)]
    rfl
  · rw [h.phase.unread (.inr hstage)]
    rfl
  · obtain ⟨heq, hinc⟩ := h.phase.response hstage
    rw [← heq]
    exact hinc
  · exact absurd hstage hst

/-- What goes to the client during the relay. -/
theorem inflow_upstream (hst : (s.conns c).stage = .relay) : inflow s c .upstream =
    (s.socks c .upstream).received.drop (s.conns c).responseExpected ++ (s.socks c .upstream).taken :=
  if_pos hst

/-- **Replies are read independently of how they arrive.** -/
theorem replies_exact {cfg : Config} (h : Run cfg w) (c : Nat) : Answering w.1 c := by
  have ht := (h.sound.good c).tidy
  have hf := h.sound.faithful c
  refine ⟨ht.room, fun hst => (checkReplies_complete_iff _ _).mp (ht.replies hst),
    fun hst => (ht.before hst .client).2.1, fun hst => ?_, fun {r} hst hr => ?_, fun hfd hst k => ?_⟩
  · have horder : outflow w.1 c .upstream <+: inflow w.1 c .upstream := hf.order .upstream
    rw [inflow_upstream hst] at horder
    exact horder
  · obtain ⟨content, hread, -, -, hflow⟩ := hf.pipe hr
    rw [inflow_upstream hst] at hflow
    have hcontent : w.1.content r = content := by simp only [State.content, hread]
    rw [hcontent]
    exact hflow.symm
  · exact checkReplies_take ((h.sound.live_of_fd hfd).incomplete hst) k

/-- What came with the replies is all that the client can have been given. -/
theorem replies_exact_granted : ∃ w, Conversed w ∧ Answering w.1 0 ∧
    (w.1.socks 0 .client).delivered.map Prod.snd <+: [21, 22] := by
  obtain ⟨w, hw⟩ := conversation_run
  have hanswering : Answering w.1 0 := replies_exact hw.run 0
  refine ⟨w, hw, hanswering, ?_⟩
  have hfirst := hanswering.first hw.stage
  rw [← inflow_upstream hw.stage, hw.early] at hfirst
  exact hfirst

/-! ## What the relay waits for -/

/-- What the kernel reports about a relay. -/
structure Waiting (s : State) (c : Nat) : Prop where
  /-- The kernel holds the interest that the pipes call for. -/
  registered : ∀ {d fd}, (s.conns c).fd d = some fd → s.interest fd =
    if sideEvents (s.conns c) d = Bits.none then none
    else some (.conn c d, sideEvents (s.conns c) d)
  /-- Nothing to read is asked for while the pipe is full and no byte has left it, -/
  stuck : ∀ {d}, s.marks c (.stuck d) = true → s.marks c (.finOnly d) = false →
    (sideEvents (s.conns c) d).inp = false ∧ (sideEvents (s.conns c) d).rdhup = false
  /-- a paused direction asks for room at its target, -/
  paused : ∀ {d}, ((s.conns c).pipe d).inputPaused = true →
    (sideEvents (s.conns c) d.other).out = true
  /-- and something is asked for. -/
  awake : ∃ d, (sideEvents (s.conns c) d).inp = true ∨ (sideEvents (s.conns c) d).out = true

theorem sideEvents_relay {k : Conn} (hst : k.stage = .relay) (d : Side) : sideEvents k d =
    relaySideEvents (k.pipe d).wantsInput (0 < (k.pipe d.other).queued) := by
  cases d with
  | client => exact if_pos hst
  | upstream =>
      show upstreamEvents k = _
      unfold upstreamEvents
      rw [hst]
      rfl

theorem relaySideEvents_inp (i o : Bool) : (relaySideEvents i o).inp = i ∧
    (relaySideEvents i o).rdhup = i ∧ (relaySideEvents i o).out = o := by
  cases i <;> cases o <;> exact ⟨rfl, rfl, rfl⟩

theorem Live.waiting (h : Live s c) (hst : (s.conns c).stage = .relay)
    (hun : s.marks c .unchanged = false) : Waiting s c := by
  have hsettled : ∀ d, ((s.conns c).ref d).events = sideEvents (s.conns c) d :=
    h.settled.resolve_left fun hbad => by simp [hun] at hbad
  have hpaused : ∀ {d}, ((s.conns c).pipe d).inputPaused = true →
      0 < ((s.conns c).pipe d).queued := fun {d} => (h.phase.flags hst d).paused
  refine ⟨fun {d fd} hfd => ?_, fun {d} hstuck hfin => ?_, fun {d} hp => ?_, ?_⟩
  · obtain ⟨f, hf, hreg⟩ := h.standing.fd d
    obtain rfl : f = fd := Option.some.inj (hf.symm.trans hfd)
    unfold Registered at hreg
    rw [hsettled d] at hreg
    exact hreg
  · have hp : ((s.conns c).pipe d).inputPaused = true :=
      (h.phase.stuck hst d hstuck).resolve_right fun hbad => by simp [hfin] at hbad
    rw [sideEvents_relay hst]
    obtain ⟨hinp, hrdhup, -⟩ := relaySideEvents_inp ((s.conns c).pipe d).wantsInput
      (0 < ((s.conns c).pipe d.other).queued)
    rw [hinp, hrdhup]
    simp [SplicePipe.wantsInput, hp]
  · rw [sideEvents_relay hst, Side.other_other]
    exact (relaySideEvents_inp _ _).2.2.trans (decide_eq_true (hpaused hp))
  · obtain ⟨d, hwants | hq⟩ := h.phase.awaits hst
    · refine ⟨d, .inl ?_⟩
      rw [sideEvents_relay hst]
      exact (relaySideEvents_inp _ _).1.trans hwants
    · refine ⟨d.other, .inr ?_⟩
      rw [sideEvents_relay hst, Side.other_other]
      exact (relaySideEvents_inp _ _).2.2.trans (decide_eq_true hq)

/-- **A relay waits for what it can use, and never for nothing.** -/
theorem readiness {cfg : Config} (h : Run cfg w) (hfd : (w.1.conns c).fd d = some fd)
    (hst : (w.1.conns c).stage = .relay) (hun : w.1.marks c .unchanged = false) : Waiting w.1 c :=
  (h.sound.live_of_fd hfd).waiting hst hun

/-- The client is not read from while its pipe is full. -/
theorem readiness_stuck : ∃ w, Conversed w ∧
    ∀ ref events, w.1.interest 7 = some (ref, events) → events.inp = false ∧ events.rdhup = false := by
  obtain ⟨w, hw⟩ := conversation_run
  have hwaiting : Waiting w.1 0 := readiness hw.run hw.fd hw.stage hw.unchanged
  refine ⟨w, hw, fun ref events hi => ?_⟩
  rw [hwaiting.registered hw.fd] at hi
  split at hi
  · simp at hi
  · obtain ⟨-, rfl⟩ := Prod.mk.inj (Option.some.inj hi)
    exact hwaiting.stuck hw.stuck.1 hw.stuck.2

end Bpf2Socks.Tcp

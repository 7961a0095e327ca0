/-
# Bpf2Socks.Tcp.Admission — accepting a client keeps the invariant.

An accepted client starts as a socket that no record names.  `Fresh` is that state.  It ends in one of
three ways: the socket is closed at once, with or without a reset; the record is made and given up
again; or the record is made, registered, and the connection is live.  `History` has to be settled at
each of these ends, so this is where the ways out without a reset show up as marks.
-/
import Bpf2Socks.Tcp.Replies

namespace Bpf2Socks.Tcp

open Function (update update_self update_of_ne)
open Lib (Prog Act)
open Udp (DstAddr Bits)
open Worker

variable {s s' : State} {c n fd : Nat} {d : Side}

/-! ## What belongs to no connection -/

/-- A change of descriptors that no connection names. -/
theorem Sound.desk (h : Sound s) (hh : House s') (hconns : s'.conns = s.conns)
    (hsocks : s'.socks = s.socks) (hmarks : s'.marks = s.marks) (ha : s'.accepted = s.accepted)
    (hclosed : s'.closed = s.closed)
    (hpipes : ∀ {c d fd}, pipeOf s'.fds fd = some (some (c, d)) → pipeOf s.fds fd = some (some (c, d)))
    (hfds : ∀ {c fd}, Names s c fd → s'.fds fd = s.fds fd ∧ s'.interest fd = s.interest fd) :
    Sound s' where
  house := hh
  good := fun c => (h.good c).congr (.of_eq (by rw [hconns])) (by rw [hsocks]) (by rw [hmarks])
    (by rw [hconns]) (by rw [ha]; exact id) (fun hn => (hfds hn).1) (fun hn => (hfds hn).2) hpipes
  unborn := fun {n} hn => by
    rw [ha] at hn
    have hu := h.unborn hn
    exact ⟨by rw [hconns]; exact hu.conn, by rw [hsocks]; exact hu.socks,
      by rw [hmarks]; exact hu.marks⟩
  closed := fun hc => by
    rw [hclosed] at hc
    have ho := h.closed hc
    rw [ha]
    exact ⟨ho.1, ho.2.congr (.of_eq (by rw [hconns])) (by rw [hsocks]) (by rw [hmarks])
      (by rw [hconns]) (by rw [ha]; exact id)⟩

/-- What a connection names is in use, and is neither a listener nor the spare descriptor. -/
theorem Sound.names_ne (h : Sound s) (hn : Names s c fd) {e : Nat} (he : s.owner e = none) : fd ≠ e := by
  rintro rfl
  rw [(h.good c).tidy.owner hn] at he
  simp at he

/-- The kernel is told the interest of a listener. -/
theorem Sound.registerListener (h : Sound s) (hfd : s.fds fd = some .listener) {ref : Ref}
    (href : ref = .listener4 ∨ ref = .listener6) (events : Bits) : Sound (s.register fd ref events) := by
  have hown : s.owner fd = none := by simp [State.owner, hfd]
  have hquiet : ∀ {i : Option (Ref × Bits)} {e : Nat}, s.fds e = none → update s.interest fd i e = none := by
    intro i e he
    have hne : e ≠ fd := by
      rintro rfl
      rw [hfd] at he
      simp at he
    exact (update_of_ne hne ..).trans (h.house.quiet he)
  rcases href with rfl | rfl
  · refine h.desk ⟨⟨h.house.pool.cap, h.house.pool.nodup, h.house.pool.empty⟩, h.house.pooled,
      h.house.listener4, h.house.listener6, h.house.spare, hquiet⟩ rfl rfl rfl rfl rfl id
      fun hn => ⟨rfl, ?_⟩
    exact update_of_ne (h.names_ne hn hown) ..
  · refine h.desk ⟨⟨h.house.pool.cap, h.house.pool.nodup, h.house.pool.empty⟩, h.house.pooled,
      h.house.listener4, h.house.listener6, h.house.spare, hquiet⟩ rfl rfl rfl rfl rfl id
      fun hn => ⟨rfl, ?_⟩
    exact update_of_ne (h.names_ne hn hown) ..

theorem modFd_listener_sat (h : Sound s) (hfd : s.fds fd = some .listener) {ref : Ref}
    (href : ref = .listener4 ∨ ref = .listener6) (events : Bits) :
    Prog.Sat ok (fun s' _ => Sound s' ∧ s'.cfg = s.cfg) (modFd fd ref events s) := by
  have hend : ∀ done : Bool, Prog.Sat ok (fun s' _ => Sound s' ∧ s'.cfg = s.cfg) ((do
      if done then modify fun s => s.register fd ref events
      pure done : Worker Bool) s) := fun done => by
    cases done with
    | false => exact ⟨h, rfl⟩
    | true =>
        refine ⟨h.registerListener hfd href events, ?_⟩
        rcases href with rfl | rfl <;> rfl
  unfold modFd
  simp only [Act.bind_run, get_run, Prog.ret_bind]
  refine Act.sat_ite (fun _ => ⟨h, rfl⟩) fun _ => ?_
  exact Act.sat_ite (fun _ => fun done _ => hend done) fun _ =>
    Act.sat_ite (fun _ => fun r _ => hend r.isNone) (fun _ => fun r _ => hend r.isNone)

theorem modListener_sat (h : Sound s) {o : Option Nat} (ho : ∀ {fd}, o = some fd → s.fds fd = some .listener)
    {ref : Ref} (href : ref = .listener4 ∨ ref = .listener6) (events : Bits) :
    Prog.Sat ok (fun s' _ => Sound s' ∧ s'.cfg = s.cfg) (modListener o ref events s) := by
  unfold modListener
  cases o with
  | none => exact ⟨h, rfl⟩
  | some fd =>
      simp only [Act.bind_run, get_run, Prog.ret_bind]
      exact Act.sat_ite (fun _ => modFd_listener_sat h (ho rfl) href events) fun _ => ⟨h, rfl⟩

/-- Both calls of a pause or of a resume. -/
theorem modListeners_sat (h : Sound s) {cfg : Config} (hcfg : s.cfg = cfg) (events : Bits)
    {f : Bool → Bool → Worker Unit}
    (hf : ∀ {s₁ : State} (b b' : Bool), Sound s₁ → Prog.Sat ok (fun s' _ => Sound s') (f b b' s₁)) :
    Prog.Sat ok (fun s' _ => Sound s') ((do
      let b ← modListener (some cfg.listener4) .listener4 events
      let b' ← modListener cfg.listener6 .listener6 events
      f b b' : Worker Unit) s) := by
  subst hcfg
  refine (modListener_sat h (fun he => Option.some.inj he ▸ h.house.listener4) (.inl rfl) events).bind
    fun s₁ b ⟨h₁, hcfg₁⟩ => ?_
  refine (modListener_sat h₁ (fun he => ?_) (.inr rfl) events).bind fun s₂ b' ⟨h₂, _⟩ => hf b b' h₂
  exact h₁.house.listener6 (hcfg₁ ▸ he)

/-- Fields about pausing and deadlines. -/
theorem Sound.fields (h : Sound s) (next resume : Nat) (paused : Bool) :
    Sound { s with nextDeadlineMs := next, listenersResumeMs := resume, listenersPaused := paused } :=
  h.rest ⟨rfl, rfl, rfl, rfl, rfl, rfl, rfl, rfl, id, rfl⟩

/-- `pause_tcp_listeners`. -/
theorem pauseTcpListeners_sound (h : Sound s) :
    Prog.Sat ok (fun s' _ => Sound s') (pauseTcpListeners s) := by
  unfold pauseTcpListeners
  simp only [Act.bind_run, get_run, Prog.ret_bind]
  refine Act.sat_ite (fun _ => h) fun _ => ?_
  refine modListeners_sat h rfl Bits.none fun b b' h₁ => ?_
  refine Act.sat_ite (fun _ now _ => ?_) fun _ => h₁
  exact h₁.fields _ _ true

/-- `open_spare_fd`. -/
theorem openSpareFd_sound (h : Sound s) :
    Prog.Sat ok (fun s' _ => Sound s' ∧ s'.cfg = s.cfg) (openSpareFd s) := by
  rintro (r : Option Nat) hr
  rcases r with _ | fd
  · exact ⟨h, rfl⟩
  · have hfree : s.fds fd = none := by simpa [ok, okb] using hr
    have hkeep : ∀ {e : Nat} {x : Desc}, s.fds e = some x → update s.fds fd (some .spare) e = some x := by
      intro e x he
      have hne : e ≠ fd := by
        rintro rfl
        rw [hfree] at he
        simp at he
      exact (update_of_ne hne ..).trans he
    have hpipe : pipeOf (update s.fds fd (some .spare)) = pipeOf s.fds :=
      pipeOf_update (by simp [pipeOf, hfree]) (by simp [pipeOf])
    refine ⟨h.desk ⟨⟨h.house.pool.cap, h.house.pool.nodup, fun p hp => ?_⟩,
      fun he => h.house.pooled (hpipe ▸ he), hkeep h.house.listener4,
      fun he => hkeep (h.house.listener6 he), fun he => ?_, fun {e} hnone => ?_⟩ rfl rfl rfl rfl rfl
      (fun he => hpipe ▸ he) fun hn => ⟨update_of_ne (h.names_ne hn (by simp [State.owner, hfree])) .., rfl⟩, rfl⟩
    · obtain ⟨hread, hwrite⟩ := h.house.pool.empty p hp
      exact ⟨hkeep hread, hkeep hwrite⟩
    · obtain rfl := Option.some.inj he
      exact update_self ..
    · have hne : e ≠ fd := by
        rintro rfl
        have hnone : update s.fds e (some .spare) e = none := hnone
        simp at hnone
      have hnone : update s.fds fd (some .spare) e = none := hnone
      rw [update_of_ne hne] at hnone
      exact h.house.quiet hnone

/-- The spare descriptor is given up. -/
theorem Sound.closeSpare (h : Sound s) : Sound { s.closeOpt s.spareFd with spareFd := none } := by
  rcases hspare : s.spareFd with _ | fd
  · exact h.desk ⟨⟨h.house.pool.cap, h.house.pool.nodup, h.house.pool.empty⟩, h.house.pooled,
      h.house.listener4, h.house.listener6, fun he => absurd he (by simp), h.house.quiet⟩
      rfl rfl rfl rfl rfl id fun _ => ⟨rfl, rfl⟩
  · have hfd := h.house.spare hspare
    have hkeep : ∀ {e : Nat} {x : Desc}, s.fds e = some x → x ≠ .spare →
        update s.fds fd none e = some x := by
      intro e x he hx
      have hne : e ≠ fd := by
        rintro rfl
        exact hx (Option.some.inj (he.symm.trans hfd))
      exact (update_of_ne hne ..).trans he
    show Sound { s.closeFd fd with spareFd := none }
    rw [show s.closeFd fd = _ from closeFd_other fun n d => by rw [hfd]; simp]
    have hpipe : pipeOf (update s.fds fd none) = pipeOf s.fds :=
      pipeOf_update (by simp [pipeOf, hfd]) (by simp [pipeOf])
    refine h.desk ⟨⟨h.house.pool.cap, h.house.pool.nodup, fun p hp => ?_⟩,
      fun he => h.house.pooled (hpipe ▸ he),
      hkeep h.house.listener4 (by simp), fun he => hkeep (h.house.listener6 he) (by simp),
      fun he => absurd he (by simp), fun {e} hnone => ?_⟩ rfl rfl rfl rfl rfl (fun he => hpipe ▸ he)
      fun hn => ?_
    · obtain ⟨hread, hwrite⟩ := h.house.pool.empty p hp
      exact ⟨hkeep hread (by simp), hkeep hwrite (by simp)⟩
    · by_cases he : e = fd
      · exact he ▸ update_self ..
      · have hnone : update s.fds fd none e = none := hnone
        rw [update_of_ne he] at hnone
        exact (update_of_ne he ..).trans (h.house.quiet hnone)
    · have hne := h.names_ne hn (e := fd) (by simp [State.owner, hfd])
      exact ⟨update_of_ne hne .., update_of_ne hne ..⟩

/-- `resume_tcp_listeners_if_due`. -/
theorem resumeTcpListenersIfDue_sound (h : Sound s) :
    Prog.Sat ok (fun s' _ => Sound s') (resumeTcpListenersIfDue s) := by
  unfold resumeTcpListenersIfDue
  simp only [Act.bind_run, get_run, Prog.ret_bind]
  refine Act.sat_ite (fun _ => h) fun _ => ?_
  intro now _
  refine Act.sat_ite (fun _ => h) fun _ => ?_
  -- with the spare descriptor back, the listeners are resumed
  have hend : ∀ {s₁ : State} (spare : Bool), Sound s₁ → s₁.cfg = s.cfg →
      Prog.Sat ok (fun s' _ => Sound s') ((do
        if spare then
          let resumed4 ← modListener (some s.cfg.listener4) .listener4 Bits.input
          let resumed6 ← modListener s.cfg.listener6 .listener6 Bits.input
          if resumed4 && resumed6 then
            modify fun s => { s with listenersPaused := false, listenersResumeMs := 0 }
          else
            modify fun s => { s with listenersResumeMs := (now + tcpFdBackoffMs) % UInt64.size }
        else
          modify fun s => { s with listenersResumeMs := (now + tcpFdBackoffMs) % UInt64.size } :
        Worker Unit) s₁) := by
    intro s₁ spare h₁ hcfg₁
    refine Act.sat_ite (fun _ => ?_) fun _ => h₁.fields _ _ _
    refine modListeners_sat h₁ hcfg₁ Bits.input fun b b' h₂ => ?_
    exact Act.sat_ite (fun _ => h₂.fields _ _ false) fun _ => h₂.fields _ _ _
  refine Act.sat_ite (fun _ => ?_) fun _ => hend true h rfl
  exact (openSpareFd_sound h).bind fun s₁ spare ⟨h₁, hcfg₁⟩ => hend spare h₁ hcfg₁

/-! ## A client without a record -/

/-- An accepted client that no record names yet: its socket, whether it would be closed with a reset,
and nothing else. -/
structure Fresh (s : State) (n fd : Nat) (reset : Bool) : Prop where
  others : Others n s
  conn : s.conns n = Conn.zero
  fds : s.fds fd = some (.socket n .client)
  interest : s.interest fd = none
  client : s.socks n .client = { Sock.zero with isOpen := true, linger := reset }
  upstream : s.socks n .upstream = Sock.zero
  unmarked : ∀ m, m ≠ .creating → m ≠ .spare → m ≠ .noMemory → s.marks n m = false
  unclosed : n ∉ s.closed
  unpiped : ∀ d fd, pipeOf s.fds fd ≠ some (some (n, d))

/-- A new client. -/
theorem Sound.grow (h : Sound s) : Others s.accepted { s with accepted := s.accepted + 1 } where
  born := Nat.lt_succ_self _
  house := ⟨⟨h.house.pool.cap, h.house.pool.nodup, h.house.pool.empty⟩, h.house.pooled,
    h.house.listener4, h.house.listener6, h.house.spare, h.house.quiet⟩
  good := fun {c} hne => Good.congr (s := s) (.of_eq rfl) rfl rfl (h.good c) rfl
    (fun hlt => by
      have hlt : c < s.accepted + 1 := hlt
      omega) (fun _ => rfl) (fun _ => rfl) id
  unborn := fun {m} hm => by
    have hm : s.accepted + 1 ≤ m := hm
    have hu := h.unborn (n := m) (by omega)
    exact ⟨hu.conn, hu.socks, hu.marks⟩
  closed := fun {c} hc => by
    obtain ⟨hlt, ho⟩ := h.closed hc
    refine ⟨Nat.lt_succ_of_lt hlt, fun _ => ?_⟩
    exact Over.congr (s := s) (.of_eq rfl) rfl rfl ho rfl fun _ => hlt

/-- `bpf2socks_socket_accept4`. -/
theorem accept_sound (h : Sound s) (listener : Nat) : Prog.Sat ok
    (fun s' r => (∀ n fd, r = .ok (n, fd) → Fresh s' n fd false ∧ ∀ m, s'.marks n m = false) ∧
      ∀ e, r = .error e → s' = s) (accept listener s) := by
  rintro (r : Except Errno Nat) hr
  rcases r with e | fd
  · exact ⟨fun n fd hbad => absurd hbad (by simp), fun _ _ => rfl⟩
  · have hfree : s.fds fd = none := by simpa [ok, okb] using hr
    have hu := h.unborn (Nat.le_refl s.accepted)
    refine ⟨fun n fd' heq => ?_, fun e hbad => absurd hbad (by simp)⟩
    simp only [Except.ok.injEq, Prod.mk.injEq] at heq
    obtain ⟨rfl, rfl⟩ := heq
    have hpipe : pipeOf (update s.fds fd (some (.socket s.accepted .client))) = pipeOf s.fds :=
      pipeOf_update (by simp [pipeOf, hfree]) (by simp [pipeOf])
    have hothers := (h.grow.modSock .client fun _ => { Sock.zero with isOpen := true }).setFd
      (show Mine _ s.accepted fd from .unused hfree) fun e => .inl (congrFun hpipe e)
    refine ⟨⟨hothers, hu.conn, update_self .., h.house.quiet hfree, ?_, ?_,
      fun m _ _ _ => hu.marks m, fun hmem => ?_, fun d e he => ?_⟩, hu.marks⟩
    · exact modSock_self s s.accepted .client fun _ => { Sock.zero with isOpen := true }
    · exact (modSock_other s s.accepted .client fun _ => { Sock.zero with isOpen := true }).trans
        (hu.socks .upstream)
    · exact absurd (h.closed hmem).1 (Nat.lt_irrefl _)
    · have hname := (h.good s.accepted).tidy.named (hpipe ▸ he)
      rw [hu.conn] at hname
      simp [Conn.zero, initSplicePipe] at hname

/-- The socket of a client without a record is closed. -/
theorem Fresh.closeFd {reset : Bool} (h : Fresh s n fd reset) (hslip : reset = true ↔ ¬Slipped s n) :
    Sound (s.closeFd fd) ∧ Over (s.closeFd fd) n ∧ n < (s.closeFd fd).accepted := by
  have hothers := h.others.closeFd_socket h.fds
  rw [closeFd_socket h.fds] at hothers ⊢
  have hclient : (s.modSock n .client fun k => { k with isOpen := false }).socks n .client =
      { Sock.zero with linger := reset } := by rw [modSock_self, h.client]; rfl
  have hupstream : (s.modSock n .client fun k => { k with isOpen := false }).socks n .upstream =
      Sock.zero := (modSock_other s n .client _).trans h.upstream
  have hover : Over { s.modSock n .client fun k => { k with isOpen := false } with
      fds := update s.fds fd none, interest := update s.interest fd none } n := by
    refine ⟨fun d => ?_, fun d => ?_, Or.inr ?_, ⟨fun d hd => ?_, fun hst => ?_, fun _ _ _ _ => ?_⟩⟩
    · show (s.conns n).fd d = none
      rw [h.conn]
      rfl
    · show ((s.conns n).ref d).connection = false
      rw [h.conn]
      rfl
    · show (s.conns n).activeLinked = false
      rw [h.conn]
      rfl
    · cases d with
      | client =>
          have hd : ((s.modSock n .client fun k => { k with isOpen := false }).socks n
            .client).failed = true := hd
          rw [hclient] at hd
          simp [Sock.zero] at hd
      | upstream =>
          have hd : ((s.modSock n .client fun k => { k with isOpen := false }).socks n
            .upstream).failed = true := hd
          rw [hupstream] at hd
          simp [Sock.zero] at hd
    · have hst : (s.conns n).stage = .relay := hst
      rw [h.conn] at hst
      simp [Conn.zero] at hst
    · show ((s.modSock n .client fun k => { k with isOpen := false }).socks n .client).linger = true ↔ _
      rw [hclient]
      exact hslip
  refine ⟨hothers.sound ⟨?_, Or.inr hover⟩ fun hmem => absurd hmem h.unclosed, hover, h.others.born⟩
  -- nothing ever went through its sockets
  have hsock : ∀ d, (s.modSock n .client fun k => { k with isOpen := false }).socks n d =
      { Sock.zero with linger := if d = .client then reset else false } := fun d => by
    cases d with
    | client => exact hclient
    | upstream => exact hupstream
  have hflow : ∀ d, outflow { s.modSock n .client fun k => { k with isOpen := false } with
      fds := update s.fds fd none, interest := update s.interest fd none } n d = [] := fun d => by
    show ((s.modSock n .client fun k => { k with isOpen := false }).socks n d.other).delivered.map
      Prod.snd = []
    rw [hsock]
    rfl
  have hpipe : pipeOf (update s.fds fd none) = pipeOf s.fds :=
    pipeOf_update (by simp [pipeOf, h.fds]) (by simp [pipeOf])
  refine ⟨fun {d e} he => ?_, fun d => ?_, fun d => Or.inl ⟨?_, ?_, ?_, ?_⟩,
    fun {d e} he => absurd (hpipe ▸ he) (h.unpiped d e), fun d x hx => ?_,
    fun d hd => ?_, fun _ d => ?_, fun hst => ?_, ?_⟩
  · have he : (s.conns n).fd d = some e := he
    rw [h.conn] at he
    simp [Conn.zero] at he
  · show ((s.modSock n .client fun k => { k with isOpen := false }).socks n d).isOpen =
      ((s.conns n).fd d).isSome
    rw [hsock, h.conn]
    rfl
  · show ((s.conns n).pipe d).readFd = none
    rw [h.conn]
    rfl
  · show ((s.conns n).pipe d).writeFd = none
    rw [h.conn]
    rfl
  · show ((s.conns n).pipe d).queued = 0
    rw [h.conn]
    rfl
  · rw [hflow]
    exact List.nil_prefix
  · have hx : x ∈ ((s.modSock n .client fun k => { k with isOpen := false }).socks n d).delivered := hx
    rw [hsock] at hx
    exact absurd hx List.not_mem_nil
  · have hd : ((s.modSock n .client fun k => { k with isOpen := false }).socks n d.other).shut =
      true := hd
    rw [hsock] at hd
    simp [Sock.zero] at hd
  · show ((s.modSock n .client fun k => { k with isOpen := false }).socks n d).taken = [] ∧ _ ∧ _
    rw [hsock]
    exact ⟨rfl, rfl, rfl⟩
  · have hst : (s.conns n).stage = .relay := hst
    rw [h.conn] at hst
    simp [Conn.zero] at hst
  · exact h.unmarked _ (by simp) (by simp) (by simp)

/-- A mark about how the client is given up, or on the way to its record. -/
theorem Fresh.mark {reset : Bool} (h : Fresh s n fd reset) {m : Mark} (b : Bool)
    (hm : m = .creating ∨ m = .spare ∨ m = .noMemory) : Fresh (s.mark n m b) n fd reset := by
  refine ⟨h.others.mark m b, h.conn, h.fds, h.interest, h.client, h.upstream, fun m' h₁ h₂ h₃ => ?_,
    h.unclosed, h.unpiped⟩
  refine (mark_ne _ _ _ _ ?_).trans (h.unmarked m' h₁ h₂ h₃)
  rintro rfl
  rcases hm with rfl | rfl | rfl
  · exact h₁ rfl
  · exact h₂ rfl
  · exact h₃ rfl

/-- Nothing says that the client is given up without a reset. -/
def Unslipped (s : State) (n : Nat) : Prop := s.marks n .spare = false ∧ s.marks n .noMemory = false

theorem Fresh.not_slipped {reset : Bool} (h : Fresh s n fd reset) (hu : Unslipped s n) :
    ¬Slipped s n := by
  rintro (hbad | hbad | hbad)
  · rw [hu.2] at hbad
    simp at hbad
  · rw [h.unmarked _ (by simp) (by simp) (by simp)] at hbad
    simp at hbad
  · rw [hu.1] at hbad
    simp at hbad

/-- A client that is refused is reset. -/
theorem Fresh.refuse (h : Fresh s n fd false) (hu : Unslipped s n) :
    Sound ((s.resetOnClose (some fd)).closeFd fd) := by
  have heq : s.resetOnClose (some fd) = s.modSock n .client fun k => { k with linger := true } :=
    onSock_eq h.fds _
  have hreset : Fresh (s.modSock n .client fun k => { k with linger := true }) n fd true := by
    refine ⟨h.others.modSock _ _, h.conn, h.fds, h.interest, ?_, ?_, h.unmarked, h.unclosed,
      h.unpiped⟩
    · rw [modSock_self, h.client]
    · exact (modSock_other s n .client _).trans h.upstream
  rw [heq]
  exact (hreset.closeFd (iff_of_true rfl (h.not_slipped hu))).1

/-! ## The record -/

/-- A record with its client, before the server is connected to. -/
structure Started (s : State) (n fd now : Nat) (dst : DstAddr) : Prop where
  others : Others n s
  tidy : Tidy s n
  conn : s.conns n = Conn.start fd now dst
  fds : s.fds fd = some (.socket n .client)
  interest : s.interest fd = none
  client : s.socks n .client = { Sock.zero with isOpen := true }
  upstream : s.socks n .upstream = Sock.zero
  unmarked : Unmarked s n
  unstuck : ∀ d, s.marks n (.stuck d) = false
  unclosed : n ∉ s.closed

theorem Fresh.start (h : Fresh s n fd false) (hu : Unslipped s n) (now : Nat) (dst : DstAddr) :
    Started (s.modConn n fun _ => Conn.start fd now dst) n fd now dst := by
  have hsock : ∀ d, s.socks n d = { Sock.zero with isOpen := decide (d = .client) } := fun d => by
    cases d with
    | client => rw [h.client]; rfl
    | upstream => rw [h.upstream]; rfl
  -- its sockets are new, so nothing has passed through them
  have hflow : ∀ d, outflow (s.modConn n fun _ => Conn.start fd now dst) n d = [] := fun d => by
    show (s.socks n d.other).delivered.map Prod.snd = []
    rw [hsock]
    rfl
  refine ⟨h.others.modConn _, ⟨fun {d e} he => ?_, fun d => ?_, fun d => Or.inl ⟨?_, ?_, ?_, ?_⟩,
    fun {d e} he => absurd he (h.unpiped d e), fun d x hx => ?_, fun d hd => ?_, fun _ d => ?_, fun hst => ?_, ?_⟩, modConn_conns .., h.fds,
    h.interest, h.client, h.upstream, ⟨fun d => ?_, ?_, h.not_slipped hu, ?_, ?_⟩, fun d => ?_,
    h.unclosed⟩
  · rw [modConn_conns] at he
    cases d with
    | client =>
        obtain rfl : fd = e := by simpa [Conn.start] using he
        exact h.fds
    | upstream => simp [Conn.start] at he
  · rw [modConn_conns, modConn_socks, hsock]
    cases d <;> rfl
  · rw [modConn_conns]
    rfl
  · rw [modConn_conns]
    rfl
  · rw [modConn_conns]
    rfl
  · rw [hflow]
    exact List.nil_prefix
  · rw [modConn_socks, hsock] at hx
    exact absurd hx List.not_mem_nil
  · rw [modConn_socks, hsock] at hd
    simp [Sock.zero] at hd
  · rw [modConn_socks, hsock]
    exact ⟨rfl, rfl, rfl⟩
  · rw [modConn_conns] at hst
    simp [Conn.start, Conn.zero] at hst
  · exact h.unmarked _ (by simp) (by simp) (by simp)
  · rw [modConn_socks, hsock]
    rfl
  · exact h.unmarked _ (by simp) (by simp) (by simp)
  · exact h.unmarked _ (by simp) (by simp) (by simp)
  · exact h.unmarked _ (by simp) (by simp) (by simp)
  · exact h.unmarked _ (by simp) (by simp) (by simp)

/-- A record that is given up: its client is reset. -/
theorem abandon_sound (ho : Others c s) (ht : Tidy s c) (hslip : ¬Slipped s c)
    (hf : FailedOnly s c .upstream) (hfd : (s.conns c).fd .client = some fd) :
    Sound (s.abandon c) ∧ Over (s.abandon c) c ∧ c < (s.abandon c).accepted := by
  have heq : s.resetOnClose ((s.conns c).fd .client) =
      s.modSock c .client fun k => { k with linger := true } := by
    rw [hfd]
    exact onSock_eq (ht.sockets hfd) _
  have hlinger : ((s.modSock c .client fun k => { k with linger := true }).socks c .client).linger =
      true := by rw [modSock_self]
  unfold State.abandon
  rw [heq]
  obtain ⟨hend, hnone⟩ := freeConnection_ending (ho.modSock .client fun k => { k with linger := true })
    (ht.modSock fun _ => ⟨⟨rfl, rfl, rfl, rfl, rfl⟩, rfl⟩)
    { failed := fun d hd => by
        cases d with
        | upstream => exact hlinger
        | client =>
            rw [modSock_self] at hd
            have := hf .client hd
            simp at this
      relayed := fun _ => Or.inr (Or.inr (Or.inl ⟨.client, hlinger⟩))
      refused := fun _ _ _ _ => iff_of_true hlinger hslip }
  exact ⟨hend.sound hnone, hend.over hnone, hend.others.born⟩

/-- `connect_nonblocking_addr`. -/
theorem connectNonblockingAddr_sat {now : Nat} {dst : DstAddr} (h : Started s n fd now dst) :
    Prog.Sat ok (fun s' r => (r = .ok () → Work s' n ∧
        ((s'.conns n).stage = .connecting ∨ (s'.conns n).stage = .requestWrite)) ∧
      ∀ e, r = .error e → s' = s) (connectNonblockingAddr n s) := by
  rintro (r : Except Errno (Nat × Bool)) hr
  rcases r with e | ⟨f, inProgress⟩
  · exact ⟨fun hbad => absurd hbad (by simp), fun _ _ => rfl⟩
  have hfree : s.fds f = none := by simpa [ok, okb] using hr
  have hne : fd ≠ f := by
    rintro rfl
    rw [h.fds] at hfree
    simp at hfree
  refine ⟨fun _ => ?_, fun e hbad => absurd hbad (by simp)⟩
  -- the state, as the code leaves it
  let s₁ := (s.openSocket f n .upstream).modConn n fun k =>
    { k with fd := update k.fd .upstream (some f)
             stage := if inProgress then .connecting else .requestWrite }
  show Work s₁ n ∧ _
  have hpipes : pipeOf (update s.fds f (some (.socket n .upstream))) = pipeOf s.fds :=
    pipeOf_update (by simp [pipeOf, hfree]) (by simp [pipeOf])
  have hothers : Others n s₁ :=
    ((h.others.modSock .upstream fun _ => { Sock.zero with isOpen := true }).setFd
      (show Mine _ n f from .unused hfree) fun e => .inl (congrFun hpipes e)).modConn _
  have hconn : s₁.conns n = { Conn.start fd now dst with
      fd := update (Conn.start fd now dst).fd .upstream (some f)
      stage := if inProgress then .connecting else .requestWrite } := by
    rw [← h.conn]
    exact modConn_conns ..
  have hstage : (s₁.conns n).stage = .connecting ∨ (s₁.conns n).stage = .requestWrite := by
    rw [hconn]
    cases inProgress
    · exact Or.inr rfl
    · exact Or.inl rfl
  have hrelay : (s₁.conns n).stage ≠ .relay := by rcases hstage with h | h <;> rw [h] <;> simp
  have hsock : ∀ d, s₁.socks n d = { Sock.zero with isOpen := true } := fun d => by
    cases d with
    | upstream => exact modSock_self s n .upstream fun _ => { Sock.zero with isOpen := true }
    | client =>
        exact (modSock_other s n .upstream fun _ => { Sock.zero with isOpen := true }).trans h.client
  have hfds : ∀ {d e}, (s₁.conns n).fd d = some e → s₁.fds e = some (.socket n d) ∧
      s₁.interest e = none := by
    intro d e he
    rw [hconn] at he
    cases d with
    | upstream =>
        obtain rfl : f = e := by simpa using he
        exact ⟨update_self .., h.others.house.quiet hfree⟩
    | client =>
        obtain rfl : fd = e := by simpa [Conn.start] using he
        exact ⟨(update_of_ne hne ..).trans h.fds, h.interest⟩
  have hpipe : ∀ d, (s₁.conns n).pipe d = initSplicePipe := fun d => by
    rw [hconn]
    rfl
  have hflow : ∀ d, outflow s₁ n d = [] := fun d => by
    rw [outflow, hsock]
    rfl
  have htidy : Tidy s₁ n := by
    refine ⟨fun he => (hfds he).1, fun d => ?_, fun d => Or.inl ⟨?_, ?_, ?_, ?_⟩,
      fun {d e} he => ?_, fun d x hx => ?_, fun d hd => ?_, fun _ d => ?_, fun hbad => absurd hbad hrelay, h.tidy.room⟩
    · rw [hsock, hconn]
      cases d <;> rfl
    · rw [hpipe]
      rfl
    · rw [hpipe]
      rfl
    · rw [hpipe]
      rfl
    · rw [hflow]
      exact List.nil_prefix
    · have hname := h.tidy.named (hpipes ▸ he)
      rw [h.conn] at hname
      simp [Conn.start, Conn.zero, initSplicePipe] at hname
    · rw [hsock] at hx
      exact absurd hx List.not_mem_nil
    · rw [hsock] at hd
      simp [Sock.zero] at hd
    · rw [hsock]
      exact ⟨rfl, rfl, rfl⟩
  have hstanding : Standing s₁ n := by
    refine ⟨fun d => ?_, ?_, fun d => ?_⟩
    · have hsome : ∃ e, (s₁.conns n).fd d = some e := by
        rw [hconn]
        cases d with
        | client => exact ⟨fd, rfl⟩
        | upstream =>
            refine ⟨f, ?_⟩
            show update (Conn.start fd now dst).fd .upstream (some f) .upstream = some f
            exact update_self ..
      obtain ⟨e, he⟩ := hsome
      refine ⟨e, he, ?_⟩
      unfold Registered
      rw [(hfds he).2, hconn]
      rfl
    · rw [hconn]
      rfl
    · rw [hconn]
      rfl
  refine ⟨⟨⟨hothers, htidy, hstanding, h.unclosed⟩, ⟨fun d => ?_, h.unmarked.hungUp,
    h.unmarked.slipped, h.unmarked.idle, h.unmarked.stopped⟩, ⟨fun _ => hpipe, fun _ => ?_,
    fun hbad => ?_, fun _ => h.unstuck, fun hbad => absurd hbad hrelay,
    fun hbad => absurd hbad hrelay, fun hbad => absurd hbad hrelay⟩, fun d => ?_⟩, hstage⟩
  · rw [hsock]
    rfl
  · rw [hsock]
    rfl
  · rcases hstage with hst | hst <;> rw [hst] at hbad <;> simp at hbad
  · rw [hsock]
    rfl

/-- The handshake of a server that is connected at once. -/
theorem writeFirst_sat (h : Work s n)
    (hst : (s.conns n).stage = .connecting ∨ (s.conns n).stage = .requestWrite) :
    Prog.Sat ok (fun s' r => (r = .ok () → Work s' n ∧ (s'.conns n).stage ≠ .relay) ∧
      ∀ e, r = .error e → Doomed s' n) (writeFirst n s) := by
  unfold writeFirst
  simp only [Act.bind_run, get_run, Prog.ret_bind]
  refine Act.sat_ite (fun hst' => ?_) fun hne => ?_
  · refine (startHandshake_sat h hst).bind fun s₁ b ⟨hno, hyes⟩ => ?_
    cases b with
    | false =>
        rw [hno rfl]
        exact ⟨fun hbad => absurd hbad (by simp), fun _ _ => h.doomed⟩
    | true => exact flushHandshake_sat (hyes rfl).1 (hyes rfl).2
  · refine ⟨fun _ => ⟨h, ?_⟩, fun e hbad => absurd hbad (by simp)⟩
    rcases hst with hst | hst
    · rw [hst]
      simp
    · exact absurd hst hne

/-- A record that was made, or a client that is over. -/
def Created (n : Nat) (s : State) : Except Errno Unit → Prop
  | .ok _ => Work s n ∧ (s.conns n).stage ≠ .relay
  | .error _ => Sound s ∧ Over s n ∧ n < s.accepted

theorem Doomed.abandon (h : Doomed s n) (e : Errno) : Created n (s.abandon n) (.error e) := by
  obtain ⟨fd, hfd, -⟩ := h.core.standing.fd .client
  exact abandon_sound h.core.others h.core.tidy h.unmarked.slipped h.failed hfd

/-- `create_connection`. -/
theorem createConnection_sound (h : Fresh s n fd false) (hu : Unslipped s n) (dst : DstAddr) :
    Prog.Sat ok (fun s' r => Created n s' r) (createConnection n fd dst s) := by
  rintro (r : Option Errno) -
  rcases r with _ | e
  · intro now _
    have hstart := h.start hu now dst
    show Prog.Sat ok _ ((connectNonblockingAddr n (s.modConn n fun _ => Conn.start fd now dst)).bind _)
    refine (connectNonblockingAddr_sat hstart).bind fun s₁ connected ⟨hok, herr⟩ => ?_
    rcases connected with e | ⟨⟩
    · -- no server: nothing happened to the record
      rw [herr e rfl]
      refine @abandon_sound _ _ fd hstart.others hstart.tidy hstart.unmarked.slipped
        (fun d hd => ?_) ?_
      · cases d with
        | upstream => rfl
        | client =>
            rw [hstart.client] at hd
            simp [Sock.zero] at hd
      · rw [hstart.conn]
        rfl
    · obtain ⟨hw, hst⟩ := hok rfl
      refine (writeFirst_sat hw hst).bind fun s₂ written ⟨hok₂, herr₂⟩ => ?_
      rcases written with e | ⟨⟩
      · exact (herr₂ e rfl).abandon e
      · exact hok₂ rfl
  · -- no memory: the client is closed without a reset
    have hmark := h.mark (m := .noMemory) true (by simp)
    refine hmark.closeFd (iff_of_false (by simp) fun hbad => hbad (Or.inl ?_))
    exact mark_self ..

/-! ## The registration -/

/-- A change that a connection in order does not depend on. -/
theorem Work.alike (h : Work s c) (ho : Others c s') (hk : Alike (s'.conns c) (s.conns c))
    (hs : s'.socks = s.socks) (hm : ∀ m, m ≠ .creating → s'.marks c m = s.marks c m)
    (hfds : s'.fds = s.fds) (hi : s'.interest = s.interest) (hcl : s'.closed = s.closed) :
    Work s' c := by
  have hkin : Kin c s s' := .of_alike hk (by rw [hs])
  refine ⟨⟨ho, hkin.tidy h.core.tidy (hm _ (by simp)) (fun {d e} he => ?_) (by
    rw [hk.fd, hs]; exact h.core.tidy.opened) (fun _ => by rw [hfds]) (fun _ => by rw [hfds])
    (by rw [hfds]; exact id),
    h.core.standing.congr hk fun _ => by rw [hi], by rw [hcl]; exact h.core.unclosed⟩, ⟨?_, ?_, ?_,
    ?_, ?_⟩, h.phase.of_kin hkin hk.response hfds fun d => ⟨hm _ (by simp), hm _ (by simp)⟩,
    h.clean.congr (by rw [hs])⟩
  · rw [hk.fd] at he
    rw [hfds]
    exact h.core.tidy.sockets he
  · rw [hs]
    exact h.unmarked.linger
  · rw [hm _ (by simp)]
    exact h.unmarked.hungUp
  · unfold Slipped
    rw [hm _ (by simp), hm _ (by simp), hm _ (by simp)]
    exact h.unmarked.slipped
  · rw [hm _ (by simp)]
    exact h.unmarked.idle
  · rw [hm _ (by simp)]
    exact h.unmarked.stopped

/-- The session goes to the connection. -/
theorem Work.reserved (h : Work s n) : Work ((s.mark n .creating false).modConn n fun k =>
    { k with sessionReserved := true }) n := by
  refine h.alike ((h.core.others.mark _ _).modConn _) ?_ rfl (fun m hm => mark_ne _ _ _ _ hm) rfl rfl
    rfl
  rw [modConn_conns]
  exact ⟨rfl, rfl, rfl, rfl, rfl, rfl, rfl⟩

/-- `active_add`. -/
theorem Work.activeAdd (h : Work s n) : Work (s.activeAdd n) n := by
  unfold State.activeAdd
  split
  · exact h
  · refine h.alike ((h.core.others.modConn _).lists _ _ _ _ Or.inl) ?_ rfl (fun _ _ => rfl) rfl rfl rfl
    show Alike ((s.modConn n fun k => { k with activeLinked := true }).conns n) (s.conns n)
    rw [modConn_conns]
    exact ⟨rfl, rfl, rfl, rfl, rfl, rfl, rfl⟩

/-- `note_connection_deadline`. -/
theorem Work.note (h : Work s n) : Work (s.noteConnectionDeadline n) n := by
  unfold State.noteConnectionDeadline
  split
  · exact h
  · exact h.alike (h.core.others.lists _ _ _ _ Or.inl) (.of_eq rfl) rfl (fun _ _ => rfl) rfl rfl rfl

theorem activeAdd_stage (s : State) (n : Nat) :
    ((s.activeAdd n).conns n).stage = (s.conns n).stage := by
  unfold State.activeAdd
  split
  · rfl
  · show ((s.modConn n fun k => { k with activeLinked := true }).conns n).stage = _
    rw [modConn_conns]

theorem note_stage (s : State) (n : Nat) :
    ((s.noteConnectionDeadline n).conns n).stage = (s.conns n).stage := by
  unfold State.noteConnectionDeadline
  split <;> rfl

/-- `add_fd` for one socket. -/
theorem addSide_sat (h : Work s c) (d : Side) : Prog.Sat ok
    (fun s' r => Work s' c ∧ (s'.conns c).stage = (s.conns c).stage ∧ (r = none → SettledSide s' c d ∧
      (SettledSide s c d.other → SettledSide s' c d.other))) (addSide c d s) := by
  obtain ⟨fd, hfd, -⟩ := h.core.standing.fd d
  unfold addSide
  simp only [Act.bind_run, get_run, Prog.ret_bind, hfd]
  rintro (r : Option Errno) -
  rcases r with _ | e
  · refine ⟨h.register hfd _, ?_, fun _ => ⟨Or.inr ?_, fun ho => ho.imp id fun ho => ?_⟩⟩
    · show ((s.register fd (.conn c d) _).conns c).stage = _
      rw [register_conn]
    · show (((s.register fd (.conn c d) _).conns c).ref d).events =
        sideEvents ((s.register fd (.conn c d) _).conns c) d
      rw [register_sideEvents, register_conn]
      simp
    · show (((s.register fd (.conn c d) _).conns c).ref d.other).events =
        sideEvents ((s.register fd (.conn c d) _).conns c) d.other
      rw [register_sideEvents, register_conn]
      simpa using ho
  · exact ⟨h, rfl, fun hbad => absurd hbad (by simp)⟩

/-- The registration of a new connection: it is live, or can be closed. -/
theorem registerConnection_sound (h : Work s c) (hst : (s.conns c).stage ≠ .relay) : Prog.Sat ok
    (fun s' r => (r = none → Sound s') ∧
      ∀ e, r = some e → Work s' c ∧ (s'.conns c).stage ≠ .relay) (registerConnection c s) := by
  unfold registerConnection
  refine (addSide_sat h .client).bind fun s₁ r₁ ⟨h₁, hst₁, hset₁⟩ => ?_
  rcases r₁ with _ | e
  · refine (addSide_sat h₁ .upstream).mono fun s₂ r₂ ⟨h₂, hst₂, hset₂⟩ => ⟨fun hr => ?_, fun e _ => ?_⟩
    · obtain ⟨hup, hother⟩ := hset₂ hr
      have hcli := hother (hset₁ rfl).1
      have hset : Settled s₂ c := by
        rcases hup with hun | hup
        · exact Or.inl hun
        rcases hcli with hun | hcli
        · exact Or.inl hun
        · exact Or.inr fun d => by
            cases d with
            | client => exact hcli
            | upstream => exact hup
      exact h₂.core.others.sound
        ⟨h₂.core.tidy, Or.inl ⟨h₂.core.standing, h₂.unmarked, h₂.phase, h₂.clean, hset⟩⟩
        fun hmem => absurd hmem h₂.core.unclosed
    · refine ⟨h₂, ?_⟩
      rw [hst₂, hst₁]
      exact hst
  · refine ⟨fun hbad => absurd hbad (by simp), fun e' _ => ⟨h₁, ?_⟩⟩
    rw [hst₁]
    exact hst

/-! ## Accepting -/

/-- A reservation is given back: only its mark changes. -/
theorem Sound.markCreating (h : Sound s) (ho : Over s n) (hn : n < s.accepted) (b : Bool) :
    Sound (s.mark n .creating b) := by
  have hm : ∀ {m}, m ≠ .creating → (s.mark n .creating b).marks n m = s.marks n m :=
    fun hne => mark_ne _ _ _ _ hne
  have hk : Kin n s (s.mark n .creating b) := ⟨rfl, rfl, rfl, fun _ => ⟨rfl, rfl, rfl, rfl, rfl⟩⟩
  have hover : Over (s.mark n .creating b) n := by
    refine ⟨ho.fd, ho.connection, ho.unlinked, ⟨ho.history.failed, fun hst => ?_, fun hlt hst hhu hstop => ?_⟩⟩
    · rw [hm (by simp), hm (by simp)]
      exact ho.history.relayed hst
    · rw [hm (by simp)] at hhu hstop
      unfold Slipped
      rw [hm (by simp), hm (by simp), hm (by simp)]
      exact ho.history.refused hlt hst hhu hstop
  refine ((h.others hn).mark _ _).sound ⟨?_, Or.inr hover⟩ fun _ => hover
  exact hk.tidy (h.good n).tidy (hm (by simp)) (h.good n).tidy.sockets (h.good n).tidy.opened
    (fun _ => rfl) (fun _ => rfl) id

/-- A pause or none. -/
theorem pauseIf_sound (h : Sound s) (b : Bool) : Prog.Sat ok (fun s' _ => Sound s') ((do
    if b then
      recordFdExhaustion
      pure false
    else pure true : Worker Bool) s) := by
  cases b with
  | false => exact h
  | true => exact (pauseTcpListeners_sound h).bind fun s₁ _ h₁ => h₁

/-- `accept_ready_clients`, after a session was reserved. -/
theorem startConnection_sound (h : Fresh s n fd false) (hu : Unslipped s n) (dst : DstAddr) :
    Prog.Sat ok (fun s' _ => Sound s') (startConnection n fd dst s) := by
  unfold startConnection
  refine (createConnection_sound h hu dst).bind fun s₁ created hc => ?_
  rcases created with e | ⟨⟩
  · obtain ⟨h₁, ho, hn⟩ := hc
    intro _ _
    exact pauseIf_sound (h₁.markCreating ho hn false) e.exhausted
  · obtain ⟨h₁, hst⟩ := hc
    -- the session and the lists
    let s₂ := ((s₁.mark n .creating false).modConn n fun k => { k with sessionReserved := true })
    let s₃ := (s₂.activeAdd n).noteConnectionDeadline n
    have h₃ : Work s₃ n := (h₁.reserved.activeAdd).note
    have hst₃ : (s₃.conns n).stage ≠ .relay := by
      show (((s₂.activeAdd n).noteConnectionDeadline n).conns n).stage ≠ .relay
      rw [note_stage, activeAdd_stage, modConn_conns]
      exact hst
    show Prog.Sat ok _ ((registerConnection n s₃).bind _)
    refine (registerConnection_sound h₃ hst₃).bind fun s₄ r ⟨hnone, hsome⟩ => ?_
    rcases r with _ | e
    · exact hnone rfl
    · obtain ⟨h₄, hst₄⟩ := hsome e rfl
      have hcore := h₄.core.mark (m := .unregistered) true (by simp)
      show Prog.Sat ok _ ((closeConnection n (s₄.mark n .unregistered true)).bind _)
      refine (closeConnection_sat hcore ⟨fun d hd => ?_, fun hbad => absurd hbad hst₄,
        fun _ _ _ _ => iff_of_false ?_ fun hbad => hbad (Or.inr (Or.inl (mark_self ..)))⟩).bind
        fun s₅ _ ⟨h₅, _⟩ => pauseIf_sound h₅ e.exhausted
      · have hd : (s₄.socks n d).failed = true := hd
        rw [h₄.clean d] at hd
        simp at hd
      · show ¬(s₄.socks n .client).linger = true
        rw [h₄.unmarked.linger]
        simp

theorem reserveTcpSessionFrom_fresh (cap fuel : Nat) : ∀ {s : State} (used : Nat), Fresh s n fd false →
    Unslipped s n → Prog.Sat ok (fun s' _ => Fresh s' n fd false ∧ Unslipped s' n)
      (reserveTcpSessionFrom n cap fuel used s) := by
  induction fuel with
  | zero => exact fun _ _ _ => trivial
  | succ fuel ih =>
      intro s used h hu
      refine Act.sat_ite (fun _ => ?_) fun _ => ⟨h, hu⟩
      rintro (r : Except Nat Unit) -
      rcases r with found | ⟨⟩
      · exact ih found h hu
      · refine ⟨h.mark true (by simp), ?_⟩
        exact ⟨(mark_ne _ _ _ _ (by simp)).trans hu.1, (mark_ne _ _ _ _ (by simp)).trans hu.2⟩

/-- `accept_ready_clients`, for one client. -/
theorem admitClient_sound (h : Fresh s n fd false) (hu : Unslipped s n) :
    Prog.Sat ok (fun s' _ => Sound s') (admitClient n fd s) := by
  rintro (dst : Option DstAddr) -
  rcases dst with _ | dst
  · exact h.refuse hu
  · show Prog.Sat ok _ ((reserveTcpSession n s).bind _)
    have hreserve : Prog.Sat ok (fun s' _ => Fresh s' n fd false ∧ Unslipped s' n)
        (reserveTcpSession n s) := by
      intro used _ retries _
      exact reserveTcpSessionFrom_fresh _ _ _ h hu
    refine hreserve.bind fun s₁ reserved ⟨h₁, hu₁⟩ => ?_
    cases reserved with
    | false => exact h₁.refuse hu₁
    | true => exact startConnection_sound h₁ hu₁ dst

/-- The `accept` loop of `handle_accept_fd_exhaustion`: a client taken on the spare descriptor is
closed without a reset. -/
theorem acceptSpareFrom_sound (listener fuel : Nat) : ∀ {s : State}, Sound s →
    Prog.Sat ok (fun s' _ => Sound s') (acceptSpareFrom listener fuel s) := by
  induction fuel with
  | zero => exact fun _ => trivial
  | succ fuel ih =>
      intro s h
      unfold acceptSpareFrom
      refine (accept_sound h listener).bind fun s₁ r ⟨hok, herr⟩ => ?_
      rcases r with e | ⟨n, fd⟩
      · rw [herr e rfl]
        cases e with
        | eintr => exact ih h
        | _ => exact h
      · have hmark := (hok n fd rfl).1.mark (m := .spare) true (by simp)
        exact (hmark.closeFd (iff_of_false (by simp) fun hbad => hbad
          (Or.inr (Or.inr (mark_self ..))))).1

/-- `handle_accept_fd_exhaustion`. -/
theorem handleAcceptFdExhaustion_sound (h : Sound s) (listener : Nat) :
    Prog.Sat ok (fun s' _ => Sound s') (handleAcceptFdExhaustion listener s) := by
  intro retries _
  refine (acceptSpareFrom_sound listener _ h.closeSpare).bind fun s₁ _ h₁ => ?_
  exact (openSpareFd_sound h₁).bind fun s₂ _ ⟨h₂, _⟩ => pauseTcpListeners_sound h₂

/-- The loop of `accept_ready_clients`. -/
theorem acceptReadyClientsFrom_sound (listener fuel : Nat) : ∀ {s : State}, Sound s →
    Prog.Sat ok (fun s' _ => Sound s') (acceptReadyClientsFrom listener fuel s) := by
  induction fuel with
  | zero => exact fun _ => trivial
  | succ fuel ih =>
      intro s h stop _
      refine Act.sat_ite (fun _ => h) fun _ => ?_
      refine (accept_sound h listener).bind fun s₁ r ⟨hok, herr⟩ => ?_
      have hfail : ∀ {e : Errno}, r = .error e → Prog.Sat ok (fun s' _ => Sound s')
          ((if e.exhausted then handleAcceptFdExhaustion listener else pure () : Worker Unit) s₁) := by
        intro e he
        rw [herr e he]
        exact Act.sat_ite (fun _ => handleAcceptFdExhaustion_sound h listener) fun _ => h
      rcases r with e | ⟨n, fd⟩
      · have hsame := herr e rfl
        cases e with
        | eagain => exact hsame ▸ h
        | eintr => exact ih (hsame ▸ h)
        | emfile => exact hfail rfl
        | enfile => exact hfail rfl
        | enotconn => exact hfail rfl
        | epipe => exact hfail rfl
        | other => exact hfail rfl
      · obtain ⟨hfresh, hmarks⟩ := hok n fd rfl
        refine (admitClient_sound hfresh ⟨hmarks _, hmarks _⟩).bind fun s₂ go h₂ => ?_
        exact Act.sat_ite (fun _ => ih h₂) fun _ => h₂

/-- **Every event keeps the invariant.** -/
theorem handleConnectionEvent_sound (h : Sound s) (ref : Ref) (events : Bits) :
    Prog.Sat ok (fun s' _ => Sound s') (handleConnectionEvent ref events s) := by
  have hlistener : ∀ o : Option Nat,
      Prog.Sat ok (fun s' _ => Sound s') (handleListenerEvent o events s) := by
    intro o
    unfold handleListenerEvent
    simp only [Act.bind_run, get_run, Prog.ret_bind]
    cases o with
    | none => exact h
    | some fd =>
        refine Act.sat_ite (fun _ => ?_) fun _ => h
        intro retries _
        exact acceptReadyClientsFrom_sound fd _ h
  cases ref with
  | listener4 => exact hlistener (some s.cfg.listener4)
  | listener6 => exact hlistener s.cfg.listener6
  | conn c side => exact handleSocketEvent_sound h c side events

end Bpf2Socks.Tcp

/-
# Bpf2Socks.Tcp.Replies — the replies of the server, and what an event leads to.

The second half of the handshake keeps the invariant.  The replies are read until the bytes received
so far say more than "incomplete"; then two empty pipes are opened, what came after the replies is
written into one of them, and the relay starts.  The state in between, `Answered`, belongs to no stage
of the invariant: the replies are complete and the relay has not begun.

With this every event of a connection is covered: `handleSocketEvent` keeps `Sound`.
-/
import Bpf2Socks.Tcp.Events
import Bpf2Socks.Tcp.Moves

namespace Bpf2Socks.Tcp

open Function (update update_self update_of_ne)
open Lib (Prog Act)
open Udp (Bits)
open Worker

variable {s s' : State} {c fd : Nat} {d : Side}

/-! ## Complete replies -/

/-- A connection whose replies are complete, before it relays. -/
structure Answered (s : State) (c : Nat) : Prop where
  core : Core s c
  unmarked : Unmarked s c
  clean : Clean s c
  stage : (s.conns c).stage = .replyRead
  response : (s.conns c).response = (s.socks c .upstream).received
  complete : checkReplies (s.conns c).response = .complete (s.conns c).responseExpected
  fits : (s.conns c).response.length ≤ tcpResponseCap
  unstuck : ∀ d, s.marks c (.stuck d) = false

theorem Answered.doomed (h : Answered s c) : Doomed s c :=
  ⟨h.core, h.unmarked, fun e he => by
    rw [h.clean e] at he
    simp at he⟩

theorem Answered.ne_relay (h : Answered s c) : (s.conns c).stage ≠ .relay := by
  rw [h.stage]
  simp

/-- The pipe of a side is there, empty and open at both ends. -/
def Opened (s : State) (c : Nat) (d : Side) : Prop :=
  (∃ r w, Held s c d r w []) ∧ ((s.conns c).pipe d).inputEof = false ∧
    ((s.conns c).pipe d).inputPaused = false ∧ ((s.conns c).pipe d).outputShutdown = false

/-- What a change of one pipe before the relay leaves alone. -/
structure Piped (c : Nat) (d : Side) (s s' : State) : Prop where
  others : Others c s'
  fd : (s'.conns c).fd = (s.conns c).fd
  ref : (s'.conns c).ref = (s.conns c).ref
  closing : (s'.conns c).closing = (s.conns c).closing
  stage : (s'.conns c).stage = (s.conns c).stage
  response : (s'.conns c).response = (s.conns c).response
  responseExpected : (s'.conns c).responseExpected = (s.conns c).responseExpected
  other : (s'.conns c).pipe d.other = (s.conns c).pipe d.other
  socks : s'.socks = s.socks
  marks : ∀ m, m ≠ .noPipe → s'.marks c m = s.marks c m
  closed : s'.closed = s.closed
  fds : ∀ {fd}, Aside s c d fd → s'.fds fd = s.fds fd
  interest : ∀ {e fd}, (s.conns c).fd e = some fd → s'.interest fd = s.interest fd
  aside : ∀ {fd}, pipeOf s'.fds fd = some (some (c, d.other)) →
    pipeOf s.fds fd = some (some (c, d.other))
  named : ∀ {fd}, pipeOf s'.fds fd = some (some (c, d)) →
    ((s'.conns c).pipe d).readFd = some fd ∨ ((s'.conns c).pipe d).writeFd = some fd

theorem Piped.answered (h : Piped c d s s') (ha : Answered s c)
    (hd : Unheld s' c d ∨ ∃ r w content, Held s' c d r w content) : Answered s' c where
  core :=
    { others := h.others
      tidy := ha.core.tidy.repipe h.fd h.stage h.responseExpected (by rw [h.socks])
        (h.marks _ (by simp)) h.other h.fds hd h.aside h.named
      standing :=
        { fd := fun e => by
            obtain ⟨fd, hfd, hreg⟩ := ha.core.standing.fd e
            refine ⟨fd, by rw [h.fd]; exact hfd, ?_⟩
            unfold Registered
            rw [h.interest hfd, h.ref]
            exact hreg
          closing := by rw [h.closing]; exact ha.core.standing.closing
          connection := by rw [h.ref]; exact ha.core.standing.connection }
      unclosed := by rw [h.closed]; exact ha.core.unclosed }
  unmarked :=
    { linger := by rw [h.socks]; exact ha.unmarked.linger
      hungUp := (h.marks _ (by simp)).trans ha.unmarked.hungUp
      slipped := by
        unfold Slipped
        rw [h.marks _ (by simp), h.marks _ (by simp), h.marks _ (by simp)]
        exact ha.unmarked.slipped
      idle := (h.marks _ (by simp)).trans ha.unmarked.idle
      stopped := (h.marks _ (by simp)).trans ha.unmarked.stopped }
  clean := fun e => by rw [h.socks]; exact ha.clean e
  stage := h.stage.trans ha.stage
  response := by rw [h.response, h.socks]; exact ha.response
  complete := by rw [h.response, h.responseExpected]; exact ha.complete
  fits := by rw [h.response]; exact ha.fits
  unstuck := fun e => (h.marks _ (by simp)).trans (ha.unstuck e)

/-- The pipe of the other side stays open. -/
theorem Piped.opened (h : Piped c d s s') (ho : Opened s c d.other) : Opened s' c d.other := by
  obtain ⟨⟨r, w, hh⟩, hflags⟩ := ho
  obtain ⟨hin, hout⟩ := flows_eq h.stage h.responseExpected (by rw [h.socks])
  refine ⟨⟨r, w, by rw [h.other]; exact hh.readFd, by rw [h.other]; exact hh.writeFd,
    (h.fds (.inr (.inl hh.readFd))).trans hh.read, (h.fds (.inr (.inr hh.writeFd))).trans hh.write,
    by rw [h.other]; exact hh.queued, hh.tags, by rw [hin, hout]; exact hh.flow⟩, ?_⟩
  rw [h.other]
  exact hflags

/-! ## Opening the pipes -/

theorem unheld_init (ht : Tidy s c) (hst : (s.conns c).stage ≠ .relay)
    (hp : (s.conns c).pipe d = initSplicePipe) : Unheld s c d := by
  obtain ⟨-, hout⟩ := ht.flow_before hst d
  refine ⟨by rw [hp]; rfl, by rw [hp]; rfl, by rw [hp]; rfl, ?_⟩
  rw [hout]
  exact List.nil_prefix

/-- The descriptors of a connection without a pipe at this side are not unused ones. -/
theorem Tidy.aside_used (h : Tidy s c) (ha : Aside s c d fd) : s.fds fd ≠ none := by
  intro hnone
  rcases ha with ⟨e, he⟩ | he | he
  · rw [h.sockets he] at hnone
    simp at hnone
  · rcases h.pipes d.other with hu | ⟨r, w, content, hh⟩
    · simp [hu.readFd] at he
    · obtain rfl : r = fd := by simpa [hh.readFd] using he
      rw [hh.read] at hnone
      simp at hnone
  · rcases h.pipes d.other with hu | ⟨r, w, content, hh⟩
    · simp [hu.writeFd] at he
    · obtain rfl : w = fd := by simpa [hh.writeFd] using he
      rw [hh.write] at hnone
      simp at hnone

/-- They are not in the pool either. -/
theorem Tidy.aside_ne_pool (h : Tidy s c) {p : PoolPair}
    (hp : s.fds p.readFd = some (.pipeRead none [])) (ha : Aside s c d fd) : fd ≠ p.readFd := by
  rintro rfl
  rcases ha with ⟨e, he⟩ | he | he
  · have := (h.sockets he).symm.trans hp
    simp at this
  · rcases h.pipes d.other with hu | ⟨r, w, content, hh⟩
    · simp [hu.readFd] at he
    · obtain rfl : r = p.readFd := by simpa [hh.readFd] using he
      have := hh.read.symm.trans hp
      simp at this
  · rcases h.pipes d.other with hu | ⟨r, w, content, hh⟩
    · simp [hu.writeFd] at he
    · obtain rfl : w = p.readFd := by simpa [hh.writeFd] using he
      have := hh.write.symm.trans hp
      simp at this

/-- A change of the record of one pipe. -/
theorem piped_modPipe (h : Answered s c) {p : SplicePipe → SplicePipe}
    (hr : ∀ x, (p x).readFd = x.readFd) (hw : ∀ x, (p x).writeFd = x.writeFd) :
    Piped c d s (s.modPipe c d p) where
  others := h.core.others.modConn _
  fd := by simp
  ref := by simp
  closing := by simp
  stage := by simp
  response := by simp
  responseExpected := by simp
  other := by simp
  socks := rfl
  marks := fun _ _ => rfl
  closed := rfl
  fds := fun _ => rfl
  interest := fun _ => rfl
  aside := id
  named := fun hp => by
    rw [modPipe_pipe, hr, hw]
    exact h.core.tidy.named hp

theorem Piped.trans {s₁ s₂ : State} (h : Piped c d s s₁) (h' : Piped c d s₁ s₂) : Piped c d s s₂ where
  others := h'.others
  fd := h'.fd.trans h.fd
  ref := h'.ref.trans h.ref
  closing := h'.closing.trans h.closing
  stage := h'.stage.trans h.stage
  response := h'.response.trans h.response
  responseExpected := h'.responseExpected.trans h.responseExpected
  other := h'.other.trans h.other
  socks := h'.socks.trans h.socks
  marks := fun m hm => (h'.marks m hm).trans (h.marks m hm)
  closed := h'.closed.trans h.closed
  fds := fun {fd} ha => by
    refine (h'.fds ?_).trans (h.fds ha)
    unfold Aside
    rw [h.fd, h.other]
    exact ha
  interest := fun {e fd} hfd => by
    refine (h'.interest (e := e) ?_).trans (h.interest hfd)
    rw [h.fd]
    exact hfd
  aside := h.aside ∘ h'.aside
  named := h'.named

/-- No descriptor is one of a pipe that was not opened. -/
theorem Answered.unpiped (h : Answered s c) (hd : (s.conns c).pipe d = initSplicePipe) (fd : Nat) :
    pipeOf s.fds fd ≠ some (some (c, d)) := by
  intro hfd
  have hname := h.core.tidy.named hfd
  rw [hd] at hname
  simp [initSplicePipe] at hname

/-- A pair of the pool becomes a pipe of the connection. -/
theorem Answered.takePool (h : Answered s c) (hd : (s.conns c).pipe d = initSplicePipe)
    {p : PoolPair} {rest : List PoolPair} (hp : s.pool = p :: rest) :
    let s' := ({ s with pool := rest }.hold p.readFd (some (c, d))).modPipe c d fun pipe =>
      { pipe with readFd := some p.readFd, writeFd := some p.writeFd, capacity := p.capacity }
    Piped c d s s' ∧ Opened s' c d := by
  have hpool := h.core.others.house.pool
  obtain ⟨hread, hwrite⟩ := hpool.empty p (hp ▸ List.mem_cons_self)
  have hne : p.writeFd ≠ p.readFd := fun he => by
    rw [he, hread] at hwrite
    simp at hwrite
  have hnodup := hpool.nodup
  rw [hp, List.map_cons, List.nodup_cons] at hnodup
  have heq : { s with pool := rest }.hold p.readFd (some (c, d)) =
      { s with pool := rest, fds := update s.fds p.readFd (some (.pipeRead (some (c, d)) [])) } := by
    simp only [State.hold, hread]
  have hset := @pipeOf_setRead s.fds p.readFd (some (c, d)) []
  have hrest : Others c { s with
      pool := rest, fds := update s.fds p.readFd (some (.pipeRead (some (c, d)) [])) } := by
    have hp' : ∀ q ∈ rest, q ∈ s.pool := fun q hq => hp ▸ List.mem_cons_of_mem p hq
    refine h.core.others.exchange (h.core.others.house.setRead hread ⟨Nat.le_trans (Nat.le_succ _)
      (by simpa [hp] using hpool.cap), hnodup.2, fun q hq => ?_⟩ fun {fd} hfd => ?_)
      (fun {c' fd} hc hn => update_of_ne ?_ ..) fun {c' d' fd} hc hfd => ?_
    · obtain ⟨hqr, hqw⟩ := hpool.empty q (hp' q hq)
      refine ⟨(update_of_ne ?_ ..).trans hqr, (update_of_ne ?_ ..).trans hqw⟩
      · exact fun he => hnodup.1 (he ▸ List.mem_map_of_mem hq)
      · intro he
        rw [he, hread] at hqw
        simp at hqw
    · rcases hset fd with heq | ⟨hsome, -⟩
      · obtain ⟨q, hq, hqfd⟩ := h.core.others.house.pooled (heq.symm.trans hfd)
        rw [hp] at hq
        rcases List.mem_cons.mp hq with rfl | hq
        · -- the pair that was taken is no longer of nobody
          rcases hqfd with rfl | rfl
          · cases (pipeOf_read (update_self ..)).symm.trans hfd
          · cases (pipeOf_write ((update_of_ne hne ..).trans hwrite) (update_self ..)).symm.trans hfd
        · exact ⟨q, hq, hqfd⟩
      · cases hsome.symm.trans hfd
    · rintro rfl
      have hown := (h.core.others.good hc).tidy.owner hn
      simp [State.owner, hread] at hown
    · rcases hset fd with heq | ⟨hmine, -⟩
      · exact heq.symm.trans hfd
      · cases hmine.symm.trans hfd
        exact absurd rfl hc
  have hout := (h.core.tidy.flow_before h.ne_relay d).2
  intro s'
  have hs' : s' = { s with
      pool := rest
      fds := update s.fds p.readFd (some (.pipeRead (some (c, d)) [])) }.modPipe c d fun pipe =>
        { pipe with readFd := some p.readFd, writeFd := some p.writeFd, capacity := p.capacity } := by
    show (({ s with pool := rest }.hold p.readFd (some (c, d))).modPipe c d _) = _
    rw [heq]
  rw [hs']
  refine ⟨⟨hrest.modConn _, by simp, by simp, by simp, by simp, by simp, by simp,
    by simp, rfl, fun _ _ => rfl, rfl, fun ha => update_of_ne (h.core.tidy.aside_ne_pool hread ha) ..,
    fun _ => rfl, fun {fd} hfd => ?_, fun {fd} hfd => ?_⟩,
    ⟨p.readFd, p.writeFd, by simp, by simp, ?_, ?_, ?_, by simp, ?_⟩, ?_⟩
  · rcases hset fd with heq | ⟨hmine, -⟩
    · exact heq.symm.trans hfd
    · exact absurd (hmine.symm.trans hfd) (by simp)
  · rw [modPipe_pipe]
    rcases hset fd with heq | ⟨-, he | hw⟩
    · exact absurd (heq.symm.trans hfd) (h.unpiped hd fd)
    · exact .inl (congrArg some he.symm)
    · exact .inr (congrArg some
        (h.core.others.house.write_eq (hp ▸ List.mem_cons_self) hw).symm)
  · exact update_self ..
  · exact (update_of_ne hne ..).trans hwrite
  · rw [modPipe_pipe, hd]
    rfl
  · obtain ⟨hin, hout'⟩ := @flows_modPipe s { s with
      pool := rest
      fds := update s.fds p.readFd (some (.pipeRead (some (c, d)) [])) } c d rfl rfl fun pipe =>
        { pipe with readFd := some p.readFd, writeFd := some p.writeFd, capacity := p.capacity }
    rw [hin, hout', hout, (h.core.tidy.flow_before h.ne_relay d).1]
    rfl
  · rw [modPipe_pipe, hd]
    exact ⟨rfl, rfl, rfl⟩

/-- A new pipe of the kernel becomes a pipe of the connection. -/
theorem Answered.newPipe (h : Answered s c) (hd : (s.conns c).pipe d = initSplicePipe) {r w : Nat}
    (hr : s.fds r = none) (hw : s.fds w = none) (hne : r ≠ w) :
    let s' := { s with
      fds := update (update s.fds r (some (.pipeRead (some (c, d)) []))) w
        (some (.pipeWrite r)) }.modPipe c d fun pipe =>
          { pipe with readFd := some r, writeFd := some w }
    Piped c d s s' ∧ Opened s' c d := by
  have hmine : Mine { s with fds := update s.fds r (some (.pipeRead (some (c, d)) [])) } c w :=
    .unused ((update_of_ne hne.symm ..).trans hw)
  have hread := @pipeOf_setRead s.fds r (some (c, d)) []
  have hfree : pipeOf (update s.fds r (some (.pipeRead (some (c, d)) []))) w = none := by
    rw [pipeOf, update_of_ne hne.symm, hw]
  have hwrite := pipeOf_setWrite hfree (update_self ..)
  have hothers := (h.core.others.setFd (.unused hr) fun e =>
    (hread e).imp_right fun h => ⟨d, h.1⟩).setFd hmine fun e =>
      (hwrite e).imp_right fun h => ⟨d, h.1⟩
  obtain ⟨hin, hout⟩ := @flows_modPipe s { s with
    fds := update (update s.fds r (some (.pipeRead (some (c, d)) []))) w (some (.pipeWrite r)) } c d
    rfl rfl fun pipe => { pipe with readFd := some r, writeFd := some w }
  refine ⟨⟨hothers.modConn _, by simp, by simp, by simp, by simp, by simp, by simp, by simp, rfl,
    fun _ _ => rfl, rfl, fun {fd} ha => ?_, fun _ => rfl, fun {fd} hfd => ?_, fun {fd} hfd => ?_⟩,
    ⟨r, w, by simp, by simp, ?_, update_self .., ?_, by simp, ?_⟩, ?_⟩
  · have hused := h.core.tidy.aside_used ha
    have hfr : fd ≠ r := fun he => hused (he ▸ hr)
    have hfw : fd ≠ w := fun he => hused (he ▸ hw)
    exact (update_of_ne hfw ..).trans (update_of_ne hfr ..)
  · rcases hwrite fd with heq | ⟨hmine, -⟩
    · rcases hread fd with heq' | ⟨hmine, -⟩
      · exact heq'.symm.trans (heq.symm.trans hfd)
      · exact absurd (hmine.symm.trans (heq.symm.trans hfd)) (by simp)
    · exact absurd (hmine.symm.trans hfd) (by simp)
  · rw [modPipe_pipe]
    rcases hwrite fd with heq | ⟨-, he⟩
    · rcases hread fd with heq' | ⟨-, he | hdangling⟩
      · exact absurd (heq'.symm.trans (heq.symm.trans hfd)) (h.unpiped hd fd)
      · exact .inl (congrArg some he.symm)
      · exact absurd hr (h.core.others.house.read_used hdangling)
    · exact .inr (congrArg some he.symm)
  · exact (update_of_ne hne ..).trans (update_self ..)
  · rw [modPipe_pipe, hd]
    rfl
  · rw [hin, hout, (h.core.tidy.flow_before h.ne_relay d).2,
      (h.core.tidy.flow_before h.ne_relay d).1]
    rfl
  · rw [modPipe_pipe, hd]
    exact ⟨rfl, rfl, rfl⟩

/-- A pipe that is open keeps what a change of its capacity leaves alone. -/
theorem Opened.capacity (h : Opened s c d) (n : Nat) :
    Opened (s.modPipe c d fun pipe => { pipe with capacity := n }) c d := by
  obtain ⟨⟨r, w, hh⟩, hflags⟩ := h
  obtain ⟨hin, hout⟩ := @flows_modPipe s s c d rfl rfl fun pipe =>
    { pipe with capacity := n }
  refine ⟨⟨r, w, ?_, ?_, hh.read, hh.write, ?_, hh.tags, ?_⟩, ?_⟩
  · rw [modPipe_pipe]
    exact hh.readFd
  · rw [modPipe_pipe]
    exact hh.writeFd
  · rw [modPipe_pipe]
    exact hh.queued
  · rw [hin, hout]
    exact hh.flow
  · rw [modPipe_pipe]
    exact hflags

theorem Opened.held (h : Opened s c d) : Unheld s c d ∨ ∃ r w content, Held s c d r w content :=
  let ⟨⟨r, w, hh⟩, _⟩ := h
  Or.inr ⟨r, w, [], hh⟩

/-- `open_splice_pipe`, before the relay. -/
theorem openSplicePipe_sat (h : Answered s c) (hd : (s.conns c).pipe d = initSplicePipe) :
    Prog.Sat ok (fun s' b => Piped c d s s' ∧ Answered s' c ∧ (b = true → Opened s' c d))
      (openSplicePipe c d s) := by
  have hclear : s.modPipe c d (fun _ => initSplicePipe) = s := by
    have hpipe : update (s.conns c).pipe d initSplicePipe = (s.conns c).pipe := by
      rw [← hd, Function.update_eq_self]
    simp only [State.modPipe, State.modConn, Conn.modPipe, hpipe]
    exact congrArg (fun conns => { s with conns }) (Function.update_eq_self c s.conns)
  unfold openSplicePipe
  show Prog.Sat ok _ ((do
    let s ← get
    _ : Worker Bool) (s.modPipe c d fun _ => initSplicePipe))
  rw [hclear]
  simp only [Act.bind_run, get_run, Prog.ret_bind]
  rcases hpool : s.pool with _ | ⟨p, rest⟩
  · rintro (r : Except Errno (Nat × Nat)) hr
    rcases r with e | ⟨r, w⟩
    · -- no pipe: only a mark
      have hmark : Piped c d s (s.mark c .noPipe true) :=
        ⟨h.core.others.mark _ _, rfl, rfl, rfl, rfl, rfl, rfl, rfl, rfl,
          fun m hm => mark_ne _ _ _ _ hm, rfl, fun _ => rfl, fun _ => rfl, id, h.core.tidy.named⟩
      refine ⟨hmark, hmark.answered h (Or.inl ?_), fun hbad => absurd hbad (by simp)⟩
      have hu := unheld_init h.core.tidy h.ne_relay hd
      exact ⟨hu.readFd, hu.writeFd, hu.queued, hu.flow⟩
    · obtain ⟨hr, hw, hne⟩ : s.fds r = none ∧ s.fds w = none ∧ r ≠ w := by
        simpa [ok, okb, and_assoc] using hr
      obtain ⟨hpiped, hopen⟩ := h.newPipe (d := d) hd hr hw hne
      have ha := hpiped.answered h hopen.held
      rintro (size : Option Nat) -
      rcases size with _ | n
      · exact ⟨hpiped, ha, fun _ => hopen⟩
      · have hcap := piped_modPipe (d := d) ha (p := fun pipe => { pipe with capacity := n })
          (fun _ => rfl) fun _ => rfl
        have hopen' := hopen.capacity n
        exact ⟨hpiped.trans hcap, hcap.answered ha hopen'.held, fun _ => hopen'⟩
  · obtain ⟨hpiped, hopen⟩ := h.takePool (d := d) hd hpool
    exact ⟨hpiped, hpiped.answered h hopen.held, fun _ => hopen⟩

@[simp] theorem closeSplicePipe_response (s : State) (c : Nat) (d : Side) :
    ((s.closeSplicePipe c d).conns c).response = (s.conns c).response := by
  simp [State.closeSplicePipe]

/-- `close_splice_pipe`, before the relay. -/
theorem Answered.closeSplicePipe (h : Answered s c) (d : Side) : Answered (s.closeSplicePipe c d) c := by
  have hd := h.core.others.closeSplicePipe h.core.tidy d
  have hkin : (s.closeSplicePipe c d).socks c = s.socks c := by rw [hd.socks]
  refine ⟨⟨hd.others, hd.tidy, ⟨fun e => ?_, ?_, ?_⟩, ?_⟩, ?_, fun e => ?_, ?_, ?_, ?_, ?_, fun e => ?_⟩
  · obtain ⟨fd, hfd, hreg⟩ := h.core.standing.fd e
    refine ⟨fd, by rw [hd.fd]; exact hfd, ?_⟩
    unfold Registered
    rw [hd.interest hfd, hd.ref]
    exact hreg
  · rw [hd.closing]
    exact h.core.standing.closing
  · rw [hd.ref]
    exact h.core.standing.connection
  · rw [hd.closed]
    exact h.core.unclosed
  · exact h.unmarked.congr hkin (by rw [hd.marks])
  · rw [hkin]
    exact h.clean e
  · rw [hd.stage]
    exact h.stage
  · rw [hkin, closeSplicePipe_response]
    exact h.response
  · rw [hd.responseExpected, closeSplicePipe_response]
    exact h.complete
  · rw [closeSplicePipe_response]
    exact h.fits
  · rw [hd.marks]
    exact h.unstuck e

/-- `init_connection_splice_pipes`, before the relay: a pipe for each direction, or none. -/
theorem initConnectionSplicePipes_sat (h : Answered s c)
    (hp : ∀ d, (s.conns c).pipe d = initSplicePipe) :
    Prog.Sat ok (fun s' b => Answered s' c ∧ (b = true → ∀ d, Opened s' c d))
      (initConnectionSplicePipes c s) := by
  unfold initConnectionSplicePipes
  refine (openSplicePipe_sat h (hp .client)).bind fun s₁ b₁ ⟨hpiped₁, h₁, hopen₁⟩ => ?_
  cases b₁ with
  | false => exact ⟨h₁, fun hbad => absurd hbad (by simp)⟩
  | true =>
      have hup : (s₁.conns c).pipe .upstream = initSplicePipe := hpiped₁.other.trans (hp .upstream)
      refine (openSplicePipe_sat h₁ hup).bind fun s₂ b₂ ⟨hpiped₂, h₂, hopen₂⟩ => ?_
      cases b₂ with
      | false => exact ⟨h₂.closeSplicePipe .client, fun hbad => absurd hbad (by simp)⟩
      | true =>
          refine ⟨h₂, fun _ d => ?_⟩
          cases d with
          | client => exact hpiped₂.opened (hopen₁ rfl)
          | upstream => exact hopen₂ rfl

/-! ## The relay begins -/

/-- A pipe that holds `n` bytes. -/
def SplicePipe.holding (p : SplicePipe) (n : Nat) : SplicePipe := { p with queued := n }

/-- A record at the begin of the relay. -/
def Conn.begun (k : Conn) (queued : Side → Nat) : Conn :=
  { k with stage := .relay, pipe := fun d => (k.pipe d).holding (queued d) }

/-- The relay begins with both pipes open, and what came after the replies in the one towards the
client. -/
theorem Answered.begin (h : Answered s c) (hopen : ∀ d, Opened s c d) (ho : Others c s')
    (hk : s'.conns c = (s.conns c).begun fun d => (early s c d).length)
    (hs : s'.socks = s.socks) (hm : s'.marks = s.marks) (hcl : s'.closed = s.closed)
    (hi : s'.interest = s.interest) (hpipes : pipeOf s'.fds = pipeOf s.fds)
    (hfds : ∀ {e fd}, (s.conns c).fd e = some fd → s'.fds fd = s.fds fd)
    (hheld : ∀ {d r w}, Held s c d r w [] →
      s'.fds r = some (.pipeRead (some (c, d)) ((early s c d).map fun b => (c, b))) ∧
        s'.fds w = some (.pipeWrite r)) : Work s' c := by
  have hst : (s'.conns c).stage = .relay := by
    rw [hk]
    rfl
  have hbefore := h.core.tidy.before h.ne_relay
  have hearly : ∀ d, early s' c d = early s c d := fun d => by
    cases d with
    | client => rfl
    | upstream =>
        show (s'.socks c .upstream).received.drop (s'.conns c).responseExpected = _
        rw [hs, hk]
        rfl
  -- before the relay nothing was taken from a socket or delivered to one
  have hflow : ∀ d, inflow s' c d = early s c d ∧ outflow s' c d = [] := fun d => by
    refine ⟨?_, ?_⟩
    · rw [inflow, if_pos hst, hearly, hs, (hbefore d).1, List.append_nil]
    · simp [outflow, hs, (hbefore d.other).2.1]
  -- the pipe towards the client holds what came after the replies, the other nothing
  have hheld' : ∀ d, ∃ r w content, Held s' c d r w content := fun d => by
    obtain ⟨⟨r, w, hh⟩, -⟩ := hopen d
    obtain ⟨hr, hw⟩ := hheld hh
    obtain ⟨hin, hout⟩ := hflow d
    refine ⟨r, w, _, by rw [hk]; exact hh.readFd, by rw [hk]; exact hh.writeFd, hr, hw, ?_, ?_, ?_⟩
    · rw [hk]
      exact List.length_map _
    · intro x hx
      obtain ⟨b, -, rfl⟩ := List.mem_map.mp hx
      rfl
    · rw [hin, hout, List.nil_append, List.map_map]
      exact (List.map_id _).symm
  refine ⟨⟨ho, ⟨fun {e fd} hfd => ?_, fun e => ?_, fun e => Or.inr (hheld' e), fun {e fd} hfd => by
      rw [hk]
      exact h.core.tidy.named (hpipes ▸ hfd), fun e x hx => ?_,
    fun e hshut => ?_, fun hbad => absurd hst hbad, fun _ => ?_, ?_⟩, ⟨fun e => ?_, ?_, ?_⟩, ?_⟩,
    h.unmarked.congr (by rw [hs]) (by rw [hm]),
    ⟨fun hbad => absurd hst hbad, fun hbad => ?_, fun hbad => ?_, fun hbad => absurd hst hbad,
      fun _ e => ?_, fun _ e hstuck => ?_, fun _ => ⟨.client, Or.inl ?_⟩⟩, fun e => ?_⟩
  · rw [hk] at hfd
    rw [hfds hfd]
    exact h.core.tidy.sockets hfd
  · rw [hs, hk]
    exact h.core.tidy.opened e
  · rw [hs, (hbefore e).2.1] at hx
    exact absurd hx List.not_mem_nil
  · rw [hs, (hbefore e.other).2.2] at hshut
    simp at hshut
  · rw [hs, hk, ← h.response]
    exact h.complete
  · rw [hm]
    exact h.core.tidy.room
  · obtain ⟨fd, hfd, hreg⟩ := h.core.standing.fd e
    refine ⟨fd, by rw [hk]; exact hfd, ?_⟩
    unfold Registered
    rw [hi, hk]
    exact hreg
  · rw [hk]
    exact h.core.standing.closing
  · rw [hk]
    exact h.core.standing.connection
  · rw [hcl]
    exact h.core.unclosed
  · rw [hst] at hbad
    simp at hbad
  · rw [hst] at hbad
    simp at hbad
  · obtain ⟨-, heof, hpaused, hshut⟩ := hopen e
    refine ⟨hheld' e, ?_, ?_, ?_, ?_⟩
    · rw [hk]
      exact fun hbad => absurd (heof.symm.trans hbad) (by simp)
    · rw [hk, hs, (hbefore e.other).2.2]
      exact hshut
    · rw [hk]
      exact fun hbad => absurd (hshut.symm.trans hbad) (by simp)
    · rw [hk]
      exact fun hbad => absurd (hpaused.symm.trans hbad) (by simp)
  · rw [hm, h.unstuck e] at hstuck
    simp at hstuck
  · obtain ⟨-, heof, hpaused, -⟩ := hopen .client
    have hpipe : (s'.conns c).pipe .client =
        ((s.conns c).pipe .client).holding (early s c .client).length := by rw [hk]; rfl
    rw [hpipe]
    simp [SplicePipe.wantsInput, SplicePipe.holding, heof, hpaused]
  · rw [hs]
    exact h.clean e

/-- What came after the replies fits into an empty pipe at once. -/
theorem Answered.early_le (h : Answered s c) : (early s c .upstream).length ≤ pipeBuf := by
  have hlen : (early s c .upstream).length ≤ (s.conns c).response.length := by
    rw [h.response]
    exact (List.drop_suffix _ _).length_le
  exact Nat.le_trans hlen (Nat.le_trans h.fits (by decide))

/-- Nothing came after the replies. -/
theorem Answered.begin_bare (h : Answered s c) (hopen : ∀ d, Opened s c d)
    (hbare : early s c .upstream = []) :
    Work (s.modConn c fun k => { k with stage := .relay }) c := by
  have hnone : ∀ d, early s c d = [] := fun d => by
    cases d with
    | client => rfl
    | upstream => exact hbare
  refine h.begin hopen (h.core.others.modConn _) ?_ rfl rfl rfl rfl rfl (fun _ => rfl)
    fun {d r w} hh => ?_
  · rw [modConn_conns]
    have hpipe : (fun d => ((s.conns c).pipe d).holding (early s c d).length) =
        (s.conns c).pipe := by
      funext d
      obtain ⟨⟨r, w, hh⟩, -⟩ := hopen d
      have hq : 0 = ((s.conns c).pipe d).queued := hh.queued
      rw [hnone, List.length_nil, hq]
      rfl
    unfold Conn.begun
    rw [hpipe]
  · rw [hnone]
    exact ⟨hh.read, hh.write⟩

/-- What came after the replies is in the pipe towards the client. -/
theorem Answered.begin_early (h : Answered s c) (hopen : ∀ d, Opened s c d) {w : Nat}
    (hw : ((s.conns c).pipe .upstream).writeFd = some w) :
    Work (((s.pushPipe w ((early s c .upstream).map fun b => (c, b))).modPipe c .upstream fun p =>
      { p with queued := p.queued + (early s c .upstream).length }).modConn c fun k =>
        { k with stage := .relay }) c := by
  obtain ⟨⟨r, w', hh⟩, -⟩ := hopen .upstream
  obtain rfl : w' = w := by
    rw [hh.writeFd] at hw
    exact Option.some.inj hw
  have hmine : Mine s c r := .own (by simp [State.owner, hh.read])
  rw [hh.pushPipe, List.nil_append]
  have hpipes : pipeOf (update s.fds r (some (.pipeRead (some (c, .upstream))
      ((early s c .upstream).map fun b => (c, b))))) = pipeOf s.fds := pipeOf_setContent hh.read _
  refine h.begin hopen (((h.core.others.setFd hmine fun e => .inl (congrFun hpipes e)).modConn
    _).modConn _) ?_ rfl rfl rfl rfl hpipes (fun {e fd} hfd => ?_) fun {d r' w''} hh' => ?_
  · rw [modConn_conns]
    have hq : 0 = ((s.conns c).pipe .upstream).queued := hh.queued
    have hpipe : update (s.conns c).pipe .upstream
        (((s.conns c).pipe .upstream).holding
          (((s.conns c).pipe .upstream).queued + (early s c .upstream).length)) =
        fun d => ((s.conns c).pipe d).holding (early s c d).length := by
      funext d
      cases d with
      | client =>
          obtain ⟨⟨r', w'', hh'⟩, -⟩ := hopen .client
          have hq' : 0 = ((s.conns c).pipe .client).queued := hh'.queued
          rw [update_of_ne (by simp)]
          show (s.conns c).pipe .client = ((s.conns c).pipe .client).holding 0
          rw [hq']
          rfl
      | upstream => rw [update_self, ← hq, Nat.zero_add]
    unfold Conn.begun
    rw [← hpipe]
    simp only [State.modPipe, modConn_conns, Conn.modPipe]
    rfl
  · refine update_of_ne ?_ ..
    rintro rfl
    have := (h.core.tidy.sockets hfd).symm.trans hh.read
    simp at this
  · cases d with
    | client =>
        have hrr : r' ≠ r := by
          rintro rfl
          have := hh'.read.symm.trans hh.read
          simp at this
        have hwr : w'' ≠ r := by
          rintro rfl
          have := hh'.write.symm.trans hh.read
          simp at this
        exact ⟨(update_of_ne hrr ..).trans hh'.read, (update_of_ne hwr ..).trans hh'.write⟩
    | upstream =>
        obtain rfl : r = r' := by
          have := hh.readFd.symm.trans hh'.readFd
          exact Option.some.inj this
        obtain rfl : w' = w'' := by
          have := hh.writeFd.symm.trans hh'.writeFd
          exact Option.some.inj this
        exact ⟨update_self .., (update_of_ne hh.ne ..).trans hh'.write⟩

/-- A mark about pipes. -/
theorem Answered.noPipe (h : Answered s c) : Doomed (s.mark c .noPipe true) c := by
  have hmark : Piped c .client s (s.mark c .noPipe true) :=
    ⟨h.core.others.mark _ _, rfl, rfl, rfl, rfl, rfl, rfl, rfl, rfl,
      fun m hm => mark_ne _ _ _ _ hm, rfl, fun _ => rfl, fun _ => rfl, id, h.core.tidy.named⟩
  have hpipe : Unheld (s.mark c .noPipe true) c .client ∨
      ∃ r w content, Held (s.mark c .noPipe true) c .client r w content := by
    rcases h.core.tidy.pipes .client with hu | ⟨r, w, content, hh⟩
    · exact Or.inl ⟨hu.readFd, hu.writeFd, hu.queued, hu.flow⟩
    · exact Or.inr ⟨r, w, content, hh.readFd, hh.writeFd, hh.read, hh.write, hh.queued, hh.tags, hh.flow⟩
  exact (hmark.answered h hpipe).doomed

/-- `finish_pipelined_replies`. -/
theorem finishPipelinedReplies_sat (h : Answered s c)
    (hp : ∀ d, (s.conns c).pipe d = initSplicePipe) :
    Prog.Sat ok (fun s' b => (b = true → Work s' c) ∧ (b = false → Doomed s' c))
      (finishPipelinedReplies c s) := by
  unfold finishPipelinedReplies
  refine (initConnectionSplicePipes_sat h hp).bind fun s₁ b ⟨h₁, hopen₁⟩ => ?_
  cases b with
  | false => exact ⟨fun hbad => absurd hbad (by simp), fun _ => h₁.doomed⟩
  | true =>
      have hopen := hopen₁ rfl
      have hearly : (s₁.conns c).response.drop (s₁.conns c).responseExpected =
          early s₁ c .upstream := by rw [h₁.response]; rfl
      simp only [if_true, Act.bind_run, get_run, Prog.ret_bind, hearly]
      refine Act.sat_ite (fun _ => ?_) (fun hnone => ?_)
      · obtain ⟨⟨r, w, hh⟩, -⟩ := hopen .upstream
        unfold writeEarly
        simp only [Act.bind_run, get_run, Prog.ret_bind, hh.writeFd]
        rintro (written : Except Errno Nat) hwritten
        rcases written with e | n
        · exact ⟨fun hbad => absurd hbad (by simp), fun _ => h₁.noPipe⟩
        · -- the pipe is empty, so the write is whole
          obtain rfl : n = (early s₁ c .upstream).length := by
            have hcontent : s₁.content w = [] := hh.content_write
            have hle := h₁.early_le
            simp only [ok, okb, hcontent, List.isEmpty_nil, Bool.not_true, Bool.or_false,
              Bool.and_eq_true, Bool.or_eq_true, decide_eq_true_eq] at hwritten
            omega
          have hwork := h₁.begin_early hopen hh.writeFd
          refine Act.sat_ite (fun _ => ⟨fun _ => ?_, fun hbad => absurd hbad (by simp)⟩)
            (fun hbad => absurd rfl hbad)
          rw [List.take_length]
          exact hwork
      · have hbare : early s₁ c .upstream = [] := List.length_eq_zero_iff.mp (by omega)
        exact ⟨fun _ => h₁.begin_bare hopen hbare, fun hbad => absurd hbad (by simp)⟩

/-! ## Reading the replies -/

/-- The state after a `recv`. -/
def afterRecv (s : State) (fd : Nat) : Except Errno (List UInt8) → State
  | .ok l => s.onSock fd fun k => { k with received := k.received ++ l, eof := k.eof || l.isEmpty }
  | .error e => s.onSock fd fun k => { k with failed := k.failed || !e.soft }

theorem recv_run (fd room : Nat) (s : State) :
    recv fd room s = .ask s (.recv fd room) fun r => .ret (afterRecv s fd r) r := by
  simp only [recv, Act.bind_run, ask_run, Prog.ask_bind, Prog.ret_bind]
  congr 1
  funext r
  cases r <;> rfl

theorem afterRecv_shaken (ho : Others c s) (hst : (s.conns c).stage ≠ .relay)
    (hfd : s.fds fd = some (.socket c .upstream)) (r : Except Errno (List UInt8)) :
    Shaken c s (afterRecv s fd r) := by
  cases r with
  | ok l => exact .onSock ho hst hfd fun _ => ⟨rfl, rfl, rfl, rfl, rfl⟩
  | error e => exact .onSock ho hst hfd fun _ => ⟨rfl, rfl, rfl, rfl, rfl⟩

/-- What reading the replies ends in: a failure, a connection that waits for more, or one whose
replies are complete and whose pipes are not open yet. -/
def Read (c : Nat) (s : State) : Option Bool → Prop
  | none => Doomed s c
  | some false => Work s c
  | some true => Answered s c ∧ ∀ d, (s.conns c).pipe d = initSplicePipe

/-- Bytes were received; they and the ones before say what comes next. -/
theorem Work.received (h : Work s c) (hst : (s.conns c).stage = .replyRead) {received : List UInt8}
    (hlen : (s.conns c).response.length + received.length ≤ tcpResponseCap) (hsh : Shaken c s s')
    (hstage : (s'.conns c).stage = .replyRead)
    (hresponse : (s'.conns c).response = (s.conns c).response ++ received)
    (hsock : (s'.socks c .upstream).received = (s.socks c .upstream).received ++ received)
    (hfailed : (s'.socks c .upstream).failed = false) :
    (checkReplies ((s.conns c).response ++ received) = .incomplete → Work s' c) ∧
      ∀ n, checkReplies ((s.conns c).response ++ received) = .complete n →
        Read c (s'.modConn c fun k => { k with responseExpected := n }) (some true) := by
  have hne : (s.conns c).stage ≠ .relay := by
    rw [hst]
    simp
  have hall : (s'.conns c).response = (s'.socks c .upstream).received := by
    rw [hresponse, hsock, (h.phase.response hst).1]
  constructor
  · intro hcheck
    refine hsh.work h hne hfailed (fun hbad => ?_) fun _ => ⟨hall, by rw [hresponse]; exact hcheck⟩
    rw [hstage] at hbad
    simp at hbad
  · intro n hcheck
    have hsh' : Shaken c s (s'.modConn c fun k => { k with responseExpected := n }) :=
      hsh.trans (.modConn hsh.others (fun _ => ⟨rfl, rfl, rfl, rfl⟩) hsh.stage)
    have hclean : Clean s' c := fun e => by
      cases e with
      | upstream => exact hfailed
      | client => rw [hsh.client]; exact h.clean .client
    refine ⟨⟨hsh'.core h.core hne, hsh'.unmarked h.unmarked, hclean, ?_, ?_, ?_, ?_, fun d => ?_⟩,
      fun d => ?_⟩
    · rw [modConn_conns]
      exact hstage
    · rw [modConn_conns]
      exact hall
    · rw [modConn_conns]
      show checkReplies (s'.conns c).response = _
      rw [hresponse]
      exact hcheck
    · rw [modConn_conns]
      show (s'.conns c).response.length ≤ _
      rw [hresponse, List.length_append]
      exact hlen
    · rw [hsh'.marks]
      exact h.phase.unstuck hne d
    · rw [hsh'.pipe]
      exact h.phase.pipe hne d

/-- The loop of `read_pipelined_replies`.  The buffer is never full: replies that fill it are
complete. -/
theorem readPipelinedRepliesFrom_sat (fuel : Nat) : ∀ {s : State}, Work s c →
    (s.conns c).stage = .replyRead →
    Prog.Sat ok (fun s' r => Read c s' r) (readPipelinedRepliesFrom c fuel s) := by
  induction fuel with
  | zero => exact fun _ _ => trivial
  | succ fuel ih =>
      intro s h hst
      have hne : (s.conns c).stage ≠ .relay := by
        rw [hst]
        simp
      -- incomplete replies leave room, so the branch of a full buffer is not taken
      have hroom := length_lt_of_incomplete (h.phase.response hst).2
      simp only [readPipelinedRepliesFrom, Act.bind_run, get_run, Prog.ret_bind]
      refine Act.sat_ite (fun hbad => absurd hbad (by omega)) (fun _ => ?_)
      obtain ⟨f, hf, -⟩ := h.core.standing.fd .upstream
      have hsock := h.core.tidy.sockets hf
      simp only [hf, Act.bind_run, recv_run]
      intro r hr
      -- a handshake that fails leaves a connection that is about to be closed
      have hsh : ∀ r, Shaken c s (afterRecv s f r) :=
        fun r => afterRecv_shaken h.core.others hne hsock r
      have hdoom : ∀ r, Doomed (afterRecv s f r) c := fun r => (hsh r).doomed h hne
      have hsoft : ∀ {e : Errno}, e.soft = true → afterRecv s f (.error e) = s :=
        fun he => onSock_same fun k => by simp [he]
      rcases r with e | received
      · cases e with
        | eintr =>
            show Prog.Sat ok _ (readPipelinedRepliesFrom c fuel (afterRecv s f (.error .eintr)))
            rw [hsoft rfl]
            exact ih h hst
        | eagain =>
            show Work (afterRecv s f (.error .eagain)) c
            rw [hsoft rfl]
            exact h
        | emfile => exact hdoom _
        | enfile => exact hdoom _
        | enotconn => exact hdoom _
        | epipe => exact hdoom _
        | other => exact hdoom _
      · rcases received with _ | ⟨b, rest⟩
        · exact hdoom _
        · have hlen : (b :: rest).length ≤ tcpResponseCap - (s.conns c).response.length :=
            of_decide_eq_true hr
          have hstage₁ : ((afterRecv s f (.ok (b :: rest))).conns c) = s.conns c := by
            simp only [afterRecv, onSock_eq hsock]
            rfl
          have hsh₁ : Shaken c s ((afterRecv s f (.ok (b :: rest))).modConn c fun k =>
              { k with response := k.response ++ b :: rest }) :=
            (hsh _).trans (.modConn (hsh _).others (fun _ => ⟨rfl, rfl, rfl, rfl⟩) (by
              rw [hstage₁]
              exact hne))
          refine (connectionTouch_shaken hsh₁.others hsh₁.stage).bind fun s₂ _ ⟨hsh₂, hal₂, hs₂⟩ => ?_
          have hsocks : (s₂.socks c .upstream).received =
              (s.socks c .upstream).received ++ b :: rest ∧
              (s₂.socks c .upstream).failed = false := by
            rw [hs₂]
            simp only [afterRecv, onSock_eq hsock, modConn_socks, modSock_self]
            exact ⟨trivial, h.clean .upstream⟩
          have hst₂ : (s₂.conns c).stage = .replyRead := by
            rw [hal₂.stage, modConn_conns, hstage₁]
            exact hst
          have hresponse : (s₂.conns c).response = (s.conns c).response ++ b :: rest := by
            rw [hal₂.response, modConn_conns, hstage₁]
          obtain ⟨hwait, hdone⟩ := h.received hst (by omega) (hsh₁.trans hsh₂) hst₂ hresponse
            hsocks.1 hsocks.2
          -- refused, incomplete, or complete with `needed` bytes
          rcases hcheck : checkReplies ((s.conns c).response ++ b :: rest) with _ | _ | needed
          · exact (hsh₁.trans hsh₂).doomed h hne
          · exact Act.sat_ite (fun _ => hwait hcheck) (fun _ => ih (hwait hcheck) hst₂)
          · exact hdone needed hcheck

theorem readPipelinedReplies_sat (h : Work s c) (hst : (s.conns c).stage = .replyRead) :
    Prog.Sat ok (fun s' r => Read c s' r) (readPipelinedReplies c s) := by
  unfold readPipelinedReplies
  intro retries _
  exact readPipelinedRepliesFrom_sat _ h hst

/-! ## Events -/

/-- Whether the request was written, or waits for room. -/
def flushed : Except Errno Unit → Bool
  | .ok _ => true
  | .error _ => false

/-- The part of `handle_upstream_handshake` that writes the request. -/
theorem writeRequest_sat (h : Work s c) (hne : (s.conns c).stage ≠ .relay) (events : Bits) :
    Prog.Sat ok (fun s' b => (b = true → Work s' c ∧ (s'.conns c).stage ≠ .relay) ∧
      (b = false → Doomed s' c)) (writeRequest c events s) := by
  have hflush : ∀ {s₁ : State}, Work s₁ c → (s₁.conns c).stage ≠ .relay →
      Prog.Sat ok (fun s' b => (b = true → Work s' c ∧ (s'.conns c).stage ≠ .relay) ∧
        (b = false → Doomed s' c)) ((do
          let s ← get
          if (s.conns c).stage = .requestWrite && events.out then
            let r ← flushHandshake c
            pure (flushed r)
          else pure true : Worker Bool) s₁) := by
    intro s₁ h₁ hne₁
    simp only [Act.bind_run, get_run, Prog.ret_bind]
    refine Act.sat_ite (fun hcond => ?_) (fun _ => ⟨fun _ => ⟨h₁, hne₁⟩, fun hbad => absurd hbad (by simp)⟩)
    have hst : (s₁.conns c).stage = .requestWrite := by
      simp only [Bool.and_eq_true, decide_eq_true_eq] at hcond
      exact hcond.1
    refine (flushHandshake_sat h₁ hst).bind fun s₂ r hp => ?_
    obtain ⟨hok, herr⟩ := hp
    rcases r with e | ⟨⟩
    · exact ⟨fun hbad => absurd hbad (by simp [flushed]), fun _ => herr e rfl⟩
    · exact ⟨fun _ => hok rfl, fun hbad => absurd hbad (by simp [flushed])⟩
  unfold writeRequest
  simp only [Act.bind_run, get_run, Prog.ret_bind]
  rcases hcond : ((s.conns c).stage = .connecting && events.out : Bool) with _ | _
  · rw [Act.ite_run, if_neg (by simp)]
    exact hflush h hne
  · rw [Act.ite_run, if_pos rfl]
    have hst : (s.conns c).stage = .connecting := by
      simp only [Bool.and_eq_true, decide_eq_true_eq] at hcond
      exact hcond.1
    refine (startHandshake_sat h (Or.inl hst)).bind fun s₁ b hp => ?_
    obtain ⟨hno, hyes⟩ := hp
    cases b with
    | false =>
        rw [hno rfl]
        exact ⟨fun hbad => absurd hbad (by simp), fun _ => h.doomed⟩
    | true =>
        obtain ⟨h₁, hst₁⟩ := hyes rfl
        exact hflush h₁ (by rw [hst₁]; simp)

/-- The part of `handle_upstream_handshake` that reads the replies. -/
theorem readReplies_sat (h : Work s c) (readable : Bool) :
    Prog.Sat ok (fun s' b => (b = true → Work s' c) ∧ (b = false → Doomed s' c))
      (readReplies c readable s) := by
  unfold readReplies
  simp only [Act.bind_run, get_run, Prog.ret_bind]
  refine Act.sat_ite (fun hcond => ?_) (fun _ => ⟨fun _ => h, fun hbad => absurd hbad (by simp)⟩)
  have hst : (s.conns c).stage = .replyRead := by
    simp only [Bool.and_eq_true, decide_eq_true_eq] at hcond
    exact hcond.1
  refine (readPipelinedReplies_sat h hst).bind fun s₁ r hr => ?_
  rcases r with _ | _ | _
  · exact ⟨fun hbad => absurd hbad (by simp), fun _ => hr⟩
  · exact ⟨fun _ => hr, fun hbad => absurd hbad (by simp)⟩
  · exact finishPipelinedReplies_sat hr.1 hr.2

/-- `handle_upstream_handshake`, when the event is not an error. -/
theorem handleUpstreamHandshake_sat (h : Work s c) (hne : (s.conns c).stage ≠ .relay)
    {events : Bits} (herr : events.err = false) :
    Prog.Sat ok (fun s' _ => Handled c s') (handleUpstreamHandshake c events s) := by
  unfold handleUpstreamHandshake
  refine Act.sat_ite (fun hbad => absurd hbad (by simp [herr])) fun _ => ?_
  have hend : ∀ {s₁ : State} {read : Bool}, (read = true → Work s₁ c) → (read = false → Doomed s₁ c) →
      Prog.Sat ok (fun s' _ => Handled c s') ((do
        let s ← get
        if !read || ((events.hup || events.rdhup) && (s.conns c).stage ≠ .relay) then
          resetConnection c .upstream : Worker Unit) s₁) := by
    intro s₁ read hyes hno
    simp only [Act.bind_run, get_run, Prog.ret_bind]
    cases read with
    | false => exact (hno rfl).reset
    | true => exact Act.sat_ite (fun _ => (hyes rfl).doomed.reset) (fun _ => Or.inl (hyes rfl))
  refine (writeRequest_sat h hne events).bind fun s₁ written ⟨hyes, hno⟩ => ?_
  cases written with
  | false => exact @hend s₁ false (fun hbad => absurd hbad (by simp)) fun _ => hno rfl
  | true =>
      refine (readReplies_sat (hyes rfl).1 _).bind fun s₂ read ⟨hyes₂, hno₂⟩ => ?_
      exact hend hyes₂ hno₂

/-- A mark that no part of a tidy connection looks at. -/
theorem Core.mark (h : Core s c) {m : Mark} (b : Bool) (hm : m ≠ .repliesFull) :
    Core (s.mark c m b) c :=
  ⟨h.others.mark m b,
    Kin.tidy (s := s) ⟨rfl, rfl, rfl, fun _ => ⟨rfl, rfl, rfl, rfl, rfl⟩⟩ h.tidy
      (mark_ne _ _ _ _ hm.symm) h.tidy.sockets h.tidy.opened (fun _ => rfl) (fun _ => rfl) id,
    Standing.congr (s := s) (.of_eq rfl) h.standing fun _ => rfl, h.unclosed⟩

/-- The end of a connection before the relay for which the client is to blame. -/
theorem Core.hungUp (h : Core s c) (hclean : Clean s c)
    (hst : (s.conns c).stage ≠ .relay) :
    Prog.Sat ok (fun s' _ => Handled c s') (closeConnection c (s.mark c .hungUp true)) := by
  refine (closeConnection_sat (h.mark true (by simp)) ⟨fun d hd => ?_, fun hbad => absurd hbad hst,
    fun _ _ hbad => ?_⟩).mono fun _ _ => Or.inr
  · have hd : (s.socks c d).failed = true := hd
    rw [hclean d] at hd
    simp at hd
  · rw [mark_self] at hbad
    simp at hbad

/-- The client failed before the relay: the upstream socket is reset. -/
theorem Core.clientFailed (h : Core s c) (hu : Unmarked s c) (hf : FailedOnly s c .client) :
    Prog.Sat ok (fun s' _ => Handled c s') (resetConnection c .client (s.mark c .hungUp true)) := by
  have hslip : ¬Slipped (s.mark c .hungUp true) c := by
    unfold Slipped
    rw [mark_ne _ _ _ _ (by simp), mark_ne _ _ _ _ (by simp), mark_ne _ _ _ _ (by simp)]
    exact hu.slipped
  exact (resetConnection_sat (h.mark true (by simp)) hslip hf fun _ => Or.inr (mark_self ..)).mono
    fun _ _ => Or.inr

theorem Work.relaying (h : Work s c) (hst : (s.conns c).stage = .relay) : Relaying s c :=
  ⟨h.core, h.unmarked, h.clean, hst, h.phase.flags hst⟩

/-- One socket of a connection failed. -/
theorem Work.fail (h : Work s c) (hfd : (s.conns c).fd d = some fd) :
    Core (s.onSock fd fun k => { k with failed := true }) c ∧
      Unmarked (s.onSock fd fun k => { k with failed := true }) c ∧
      FailedOnly (s.onSock fd fun k => { k with failed := true }) c d := by
  rw [onSock_eq (h.core.tidy.sockets hfd)]
  refine ⟨h.core.modSock fun _ => ⟨⟨rfl, rfl, rfl, rfl, rfl⟩, rfl⟩, ⟨fun e => ?_, h.unmarked.hungUp,
    h.unmarked.slipped, h.unmarked.idle, h.unmarked.stopped⟩, fun e he => ?_⟩
  · rcases d.eq_or_other e with rfl | rfl
    · rw [modSock_self]
      exact h.unmarked.linger _
    · rw [modSock_other]
      exact h.unmarked.linger _
  · rcases d.eq_or_other e with rfl | rfl
    · rfl
    · rw [modSock_other, h.clean] at he
      simp at he

/-- The handler of an event, by the stage of its connection. -/
theorem handleStage_sat {stage : Stage} {events : Bits}
    (hrelay : stage = .relay → Prog.Sat ok (fun s' _ => Handled c s') (handleSpliceRelay c d events s))
    (hclient : stage ≠ .relay → d = .client →
      Prog.Sat ok (fun s' _ => Handled c s') (handleClientEvent c events s))
    (hupstream : stage ≠ .relay → d = .upstream →
      Prog.Sat ok (fun s' _ => Handled c s') (handleUpstreamHandshake c events s)) :
    Prog.Sat ok (fun s' _ => Sound s') (handleStage c d events stage s) := by
  unfold handleStage
  by_cases hst : stage = .relay
  · rw [if_pos hst]
    exact (hrelay hst).bind fun s₁ _ h₁ => settle_sat h₁
  · rw [if_neg hst]
    cases d with
    | client => exact (hclient hst rfl).bind fun s₁ _ h₁ => settle_sat h₁
    | upstream => exact (hupstream hst rfl).bind fun s₁ _ h₁ => settle_sat h₁

theorem Live.work (h : Live s c) (hs : Sound s) (hc : c < s.accepted) : Work s c := by
  refine ⟨⟨hs.others hc, (hs.good c).tidy, h.standing, fun hmem => ?_⟩, h.unmarked, h.phase, h.clean⟩
  obtain ⟨fd, hfd, -⟩ := h.standing.fd .client
  rw [(hs.closed hmem).2.fd] at hfd
  simp at hfd

/-- A connection that an event can still be for is live. -/
theorem Sound.live (h : Sound s) (hc : ((s.conns c).ref d).connection = true) :
    Live s c ∧ c < s.accepted := by
  refine ⟨(h.good c).state.resolve_right fun ho => ?_, Nat.lt_of_not_le fun hle => ?_⟩
  · rw [ho.connection] at hc
    simp at hc
  · rw [(h.unborn hle).conn] at hc
    simp [Conn.zero] at hc

/-- **An event of a connection keeps the invariant.** -/
theorem handleSocketEvent_sound (h : Sound s) (c : Nat) (d : Side) (events : Bits) :
    Prog.Sat ok (fun s' _ => Sound s') (handleSocketEvent c d events s) := by
  simp only [handleSocketEvent, Act.bind_run, get_run, Prog.ret_bind]
  refine Act.sat_ite (fun _ => h) (fun hknown => ?_)
  obtain ⟨hlive, hc⟩ := h.live (c := c) (d := d) (by simpa using hknown)
  have hw := hlive.work h hc
  show Prog.Sat ok _ (handleKnown c d events (s.conns c) s)
  unfold handleKnown
  rcases herr : events.err with _ | _
  · refine handleStage_sat (fun hst => ?_) (fun hst _ => ?_) (fun hst _ => ?_)
    · exact handleSpliceRelay_sat (hw.relaying hst) (hw.phase.stuck hst) d herr
    · unfold handleClientEvent
      refine Act.sat_ite (fun hbad => absurd hbad (by simp [herr])) fun _ => ?_
      exact Act.sat_ite (fun _ => hw.core.hungUp hw.clean hst) fun _ => Or.inl hw
    · exact handleUpstreamHandshake_sat hw hst herr
  · -- the socket of the event failed
    obtain ⟨fd, hfd, -⟩ := hw.core.standing.fd d
    obtain ⟨hcore, hunmarked, hfailed⟩ := hw.fail hfd
    simp only [if_true, hfd, Act.bind_run, modify_run, Prog.ret_bind]
    have hstage : ((s.onSock fd fun k => { k with failed := true }).conns c) = s.conns c := by
      rw [onSock_eq (hw.core.tidy.sockets hfd)]
      rfl
    refine handleStage_sat (fun hst => ?_) (fun _ hd => ?_) (fun _ hd => ?_)
    · unfold handleSpliceRelay
      rw [herr]
      exact Broken.reset ⟨hcore, hunmarked, hfailed, by rw [hstage]; exact hst⟩
    · subst hd
      unfold handleClientEvent
      rw [herr]
      exact hcore.clientFailed hunmarked hfailed
    · subst hd
      unfold handleUpstreamHandshake
      rw [herr]
      exact Doomed.reset ⟨hcore, hunmarked, hfailed⟩

end Bpf2Socks.Tcp

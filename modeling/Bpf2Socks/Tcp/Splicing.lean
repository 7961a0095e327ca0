/-
# Bpf2Socks.Tcp.Splicing — the relay keeps the invariant.

A relaying connection makes four kinds of moves: bytes enter a pipe, bytes leave it, a flag is
raised, a socket is shut down.  `Moved` is what they have in common; each of them is then checked
on the direction it works on, and leaves the other direction alone.  When a call on a socket
fails, the flags are off but the connection can still be reset: that is `Broken`.
-/
import Bpf2Socks.Tcp.Ending

namespace Bpf2Socks.Tcp

open Function (update update_self update_of_ne)
open Lib (Prog Act)
open Udp (Bits)
open Worker

variable {s s' : State} {c fd : Nat} {d : Side}

/-- A connection in the relay, in the middle of code that works on it. -/
structure Relaying (s : State) (c : Nat) : Prop where
  core : Core s c
  unmarked : Unmarked s c
  clean : Clean s c
  stage : (s.conns c).stage = .relay
  flags : ∀ d, Flags s c d

/-- A connection in the relay with a socket that failed. -/
structure Broken (s : State) (c : Nat) (d : Side) : Prop where
  core : Core s c
  unmarked : Unmarked s c
  failed : FailedOnly s c d
  stage : (s.conns c).stage = .relay

theorem inflow_relay (h : (s.conns c).stage = .relay) :
    inflow s c d = early s c d ++ (s.socks c d).taken := if_pos h

/-- What a move of the relay leaves alone. -/
structure Moved (c : Nat) (s s' : State) : Prop where
  others : Others c s'
  fd : (s'.conns c).fd = (s.conns c).fd
  ref : (s'.conns c).ref = (s.conns c).ref
  closing : (s'.conns c).closing = (s.conns c).closing
  stage : (s'.conns c).stage = (s.conns c).stage
  responseExpected : (s'.conns c).responseExpected = (s.conns c).responseExpected
  isOpen : ∀ e, (s'.socks c e).isOpen = (s.socks c e).isOpen
  linger : ∀ e, (s'.socks c e).linger = (s.socks c e).linger
  received : ∀ e, (s'.socks c e).received = (s.socks c e).received
  marks : ∀ m, (∀ e, m ≠ .stuck e ∧ m ≠ .finOnly e) → s'.marks c m = s.marks c m
  closed : s'.closed = s.closed
  interest : s'.interest = s.interest
  fds : ∀ {e f}, (s.conns c).fd e = some f → s'.fds f = s.fds f
  ends : ∀ e, ((s'.conns c).pipe e).readFd = ((s.conns c).pipe e).readFd ∧
    ((s'.conns c).pipe e).writeFd = ((s.conns c).pipe e).writeFd
  pipes : pipeOf s'.fds = pipeOf s.fds

theorem Moved.early (m : Moved c s s') : early s' c = early s c := by
  funext e
  cases e <;> simp only [Tcp.early, m.responseExpected, m.received]

theorem Moved.unmarked (m : Moved c s s') (h : Unmarked s c) : Unmarked s' c where
  linger := fun e => by rw [m.linger]; exact h.linger e
  hungUp := by rw [m.marks _ (by simp)]; exact h.hungUp
  slipped := by
    unfold Slipped
    rw [m.marks _ (by simp), m.marks _ (by simp), m.marks _ (by simp)]
    exact h.slipped
  idle := by rw [m.marks _ (by simp)]; exact h.idle
  stopped := by rw [m.marks _ (by simp)]; exact h.stopped

/-- After a move the connection can be closed again, if its pipes carry what they should. -/
theorem Moved.core (m : Moved c s s') (h : Core s c) (hst : (s.conns c).stage = .relay)
    (hheld : ∀ e, ∃ r w content, Held s' c e r w content)
    (htags : ∀ e, ∀ x ∈ (s'.socks c e).delivered, x.1 = c)
    (hshut : ∀ e, (s'.socks c e.other).shut = true →
      (s'.socks c e).eof = true ∧ outflow s' c e = inflow s' c e) : Core s' c where
  others := m.others
  tidy :=
    { sockets := fun hfd => by
        rw [m.fd] at hfd
        rw [m.fds hfd]
        exact h.tidy.sockets hfd
      opened := fun e => by rw [m.fd, m.isOpen]; exact h.tidy.opened e
      pipes := fun e => Or.inr (hheld e)
      named := fun hp => by
        rw [(m.ends _).1, (m.ends _).2]
        exact h.tidy.named (m.pipes ▸ hp)
      tags := htags
      shut := hshut
      before := fun hbad => absurd (m.stage.trans hst) hbad
      replies := fun _ => by rw [m.received, m.responseExpected]; exact h.tidy.replies hst
      room := by rw [m.marks _ (by simp)]; exact h.tidy.room }
  standing :=
    { fd := fun e => by
        obtain ⟨f, hf, hreg⟩ := h.standing.fd e
        refine ⟨f, by rw [m.fd]; exact hf, ?_⟩
        unfold Registered
        rw [m.interest, m.ref]
        exact hreg
      closing := by rw [m.closing]; exact h.standing.closing
      connection := by rw [m.ref]; exact h.standing.connection }
  unclosed := by rw [m.closed]; exact h.unclosed

/-- A move that leaves a relaying connection so. -/
theorem Relaying.move (h : Relaying s c) (m : Moved c s s') (hflags : ∀ e, Flags s' c e)
    (hclean : Clean s' c) (htags : ∀ e, ∀ x ∈ (s'.socks c e).delivered, x.1 = c)
    (hshut : ∀ e, (s'.socks c e.other).shut = true →
      (s'.socks c e).eof = true ∧ outflow s' c e = inflow s' c e) : Relaying s' c :=
  ⟨m.core h.core h.stage (fun e => (hflags e).held) htags hshut, m.unmarked h.unmarked, hclean,
    m.stage.trans h.stage, hflags⟩

/-- A pipe that the move is not about. -/
theorem Held.aside {r w : Nat} {content : List (Nat × UInt8)} (h : Held s c d r w content)
    (m : Moved c s s') (hr : ((s'.conns c).pipe d).readFd = ((s.conns c).pipe d).readFd)
    (hw : ((s'.conns c).pipe d).writeFd = ((s.conns c).pipe d).writeFd)
    (hq : ((s'.conns c).pipe d).queued = ((s.conns c).pipe d).queued)
    (htaken : (s'.socks c d).taken = (s.socks c d).taken)
    (hdel : (s'.socks c d.other).delivered = (s.socks c d.other).delivered)
    (hfds : ∀ {f}, ((s.conns c).pipe d).readFd = some f ∨ ((s.conns c).pipe d).writeFd = some f →
      s'.fds f = s.fds f) : Held s' c d r w content := by
  refine ⟨by rw [hr]; exact h.readFd, by rw [hw]; exact h.writeFd,
    by rw [hfds (Or.inl h.readFd)]; exact h.read, by rw [hfds (Or.inr h.writeFd)]; exact h.write,
    by rw [hq]; exact h.queued, h.tags, ?_⟩
  have hflow := h.flow
  simp only [inflow, outflow] at hflow ⊢
  rw [m.stage, m.early, htaken, hdel]
  exact hflow

/-- The part of the flags that is not about the move. -/
theorem Flags.aside (h : Flags s c d) (m : Moved c s s')
    (hpipe : (s'.conns c).pipe d = (s.conns c).pipe d)
    (heof : (s.socks c d).eof = true → (s'.socks c d).eof = true)
    (hshut : (s'.socks c d.other).shut = (s.socks c d.other).shut)
    (htaken : (s'.socks c d).taken = (s.socks c d).taken)
    (hdel : (s'.socks c d.other).delivered = (s.socks c d.other).delivered)
    (hfds : ∀ {f}, ((s.conns c).pipe d).readFd = some f ∨ ((s.conns c).pipe d).writeFd = some f →
      s'.fds f = s.fds f) : Flags s' c d where
  held := by
    obtain ⟨r, w, content, hh⟩ := h.held
    exact ⟨r, w, content,
      hh.aside m (by rw [hpipe]) (by rw [hpipe]) (by rw [hpipe]) htaken hdel hfds⟩
  eof := fun hp => heof (h.eof (by rw [← hpipe]; exact hp))
  shut := by rw [hpipe, hshut]; exact h.shut
  last := by rw [hpipe]; exact h.last
  paused := by rw [hpipe]; exact h.paused

/-- A shut socket stays what it was when the move is not about its direction. -/
theorem Moved.shut_aside (m : Moved c s s') (ht : Tidy s c)
    (heof : (s.socks c d).eof = true → (s'.socks c d).eof = true)
    (hshut : (s'.socks c d.other).shut = (s.socks c d.other).shut)
    (htaken : (s'.socks c d).taken = (s.socks c d).taken)
    (hdel : (s'.socks c d.other).delivered = (s.socks c d.other).delivered)
    (h : (s'.socks c d.other).shut = true) :
    (s'.socks c d).eof = true ∧ outflow s' c d = inflow s' c d := by
  rw [hshut] at h
  obtain ⟨he, hflow⟩ := ht.shut d h
  refine ⟨heof he, ?_⟩
  simp only [inflow, outflow] at hflow ⊢
  rw [m.stage, m.early, htaken, hdel]
  exact hflow

/-! ## Bytes enter a pipe -/

section moves

variable {f r w : Nat} {content : List (Nat × UInt8)}

/-- The state after a splice from the socket of a side. -/
def afterSpliceIn (s : State) (c : Nat) (d : Side) (f w : Nat) : SpliceIn → State
  | .moved l => ((s.mark c (.stuck d) false).pushPipe w (l.map fun b => (c, b))).onSock f fun k =>
      { k with taken := k.taken ++ l }
  | .eof => (s.mark c (.stuck d) false).onSock f fun k => { k with eof := true }
  | .failed => (s.mark c (.stuck d) false).onSock f fun k => { k with failed := true }
  | .full => s.mark c (.stuck d) true
  | .empty => s.mark c (.stuck d) false
  | .intr => s.mark c (.stuck d) false

theorem spliceIn_run (hf : (s.conns c).fd d = some f)
    (hw : ((s.conns c).pipe d).writeFd = some w) :
    spliceIn c d s = .ask s (.spliceIn f w ((s.conns c).pipe d).capacity) fun r =>
      .ret (afterSpliceIn s c d f w r) r := by
  simp only [spliceIn, Act.bind_run, get_run, Prog.ret_bind, hf, hw, ask_run, Prog.ask_bind]
  congr 1
  funext r
  cases r <;> simp [afterSpliceIn]

/-- The state after bytes entered the pipe of a side, with their count. -/
def takeState (s : State) (c : Nat) (d : Side) (f w : Nat) (l : List UInt8) : State :=
  (afterSpliceIn s c d f w (.moved l)).modPipe c d fun p => { p with queued := p.queued + l.length }

theorem takeState_eq (hh : Held s c d r w content) (hs : s.fds f = some (.socket c d))
    (l : List UInt8) : takeState s c d f w l =
      ({ s.mark c (.stuck d) false with
          fds := update s.fds r
            (some (.pipeRead (some (c, d)) (content ++ l.map fun b => (c, b)))) }.modSock c d
        fun k => { k with taken := k.taken ++ l }).modPipe c d
          fun p => { p with queued := p.queued + l.length } := by
  have hh' : Held (s.mark c (.stuck d) false) c d r w content :=
    ⟨hh.readFd, hh.writeFd, hh.read, hh.write, hh.queued, hh.tags, hh.flow⟩
  have hne : f ≠ r := by
    rintro rfl
    have := hs.symm.trans hh.read
    simp at this
  simp only [takeState, afterSpliceIn]
  rw [hh'.pushPipe, onSock_eq]
  · rfl
  · show update s.fds r _ f = _
    rw [update_of_ne hne]
    exact hs

theorem Relaying.take (h : Relaying s c) (hf : (s.conns c).fd d = some f)
    (hh : Held s c d r w content) (heof : ((s.conns c).pipe d).inputEof = false) (l : List UInt8) :
    Relaying (takeState s c d f w l) c := by
  have hsock := h.core.tidy.sockets hf
  rw [takeState_eq hh hsock l]
  have hmine : Mine (s.mark c (.stuck d) false) c r := .own (by simp [State.owner, hh.read])
  have hrs : ∀ {e g}, (s.conns c).fd e = some g → g ≠ r := fun hg =>
    (h.core.tidy.aside_ne hh (Or.inl ⟨_, hg⟩)).1
  have hpipe : pipeOf (update s.fds r
      (some (.pipeRead (some (c, d)) (content ++ l.map fun b => (c, b))))) = pipeOf s.fds :=
    pipeOf_setContent hh.read _
  -- beside the connection nothing moved
  have m : Moved c s (({ s.mark c (.stuck d) false with
      fds := update s.fds r
        (some (.pipeRead (some (c, d)) (content ++ l.map fun b => (c, b)))) }.modSock c d
      fun k => { k with taken := k.taken ++ l }).modPipe c d
        fun p => { p with queued := p.queued + l.length }) := by
    refine ⟨(((h.core.others.mark _ _).setFd hmine fun e => .inl (congrFun hpipe e)).modSock d
      _).modConn _, by simp, by simp,
      by simp, by simp, by simp, fun e => ?_, fun e => ?_, fun e => ?_, fun x hx => ?_, rfl, rfl,
      fun hg => update_of_ne (hrs hg) .., fun e => ?_, hpipe⟩
    · rcases d.eq_or_other e with rfl | rfl <;> simp
    · rcases d.eq_or_other e with rfl | rfl <;> simp
    · rcases d.eq_or_other e with rfl | rfl <;> simp
    · exact mark_ne _ _ _ _ (hx d).1
    · rcases d.eq_or_other e with rfl | rfl <;> simp
  -- the other socket is shut down only after the end of this input
  have hnoshut : (s.socks c d.other).shut = false := by
    have hfl := h.flags d
    rw [← hfl.shut]
    by_contra hbad
    have hlast := hfl.last (by simpa using hbad)
    rw [heof] at hlast
    exact absurd hlast (by simp)
  refine h.move m (fun e => ?_) (fun e => ?_) (fun e => ?_) (fun e => ?_)
  · rcases d.eq_or_other e with rfl | rfl
    · have hfl := h.flags e
      refine ⟨⟨r, w, _, ⟨?_, ?_, update_self .., ?_, ?_, ?_, ?_⟩⟩, ?_, ?_, ?_, ?_⟩
      · simpa using hh.readFd
      · simpa using hh.writeFd
      · show update s.fds r _ w = _
        rw [update_of_ne hh.ne]
        exact hh.write
      · simp [hh.queued]
      · intro x hx
        rcases List.mem_append.mp hx with hx | hx
        · exact hh.tags x hx
        · obtain ⟨b, -, rfl⟩ := List.mem_map.mp hx
          rfl
      -- what was taken goes to the end of the content and of the inflow alike
      · have hflow := hh.flow
        rw [inflow_relay h.stage] at hflow
        rw [inflow_relay (m.stage.trans h.stage), m.early]
        simp only [outflow] at hflow ⊢
        simp [← List.append_assoc, hflow, Function.comp_def]
      · simpa using hfl.eof
      · simpa using hfl.shut
      · simpa using hfl.last
      · intro hp
        have hq := hfl.paused (by simpa using hp)
        simp only [modPipe_pipe, modSock_conns]
        exact Nat.add_pos_left hq _
    · have hfl := h.flags d.other
      refine hfl.aside m (by simp) (by simp) (by simp) (by simp) (by simp) fun {g} hg => ?_
      refine update_of_ne (h.core.tidy.aside_ne hh (Or.inr ?_)).1 ..
      exact hg
  · rcases d.eq_or_other e with rfl | rfl
    · simpa using h.clean e
    · simpa using h.clean d.other
  · rcases d.eq_or_other e with rfl | rfl
    · simpa using h.core.tidy.tags e
    · simpa using h.core.tidy.tags d.other
  · rcases d.eq_or_other e with rfl | rfl
    · intro hbad
      simp [hnoshut] at hbad
    · exact m.shut_aside h.core.tidy (by simp) (by simp) (by simp) (by simp)

/-! ## Flags and marks -/

/-- Changes of what the relay does not look at. -/
theorem Relaying.alike (h : Relaying s c) (ho : Others c s') (hk : Alike (s'.conns c) (s.conns c))
    (hs : s'.socks c = s.socks c)
    (hm : ∀ m, (∀ e, m ≠ .stuck e ∧ m ≠ .finOnly e) → s'.marks c m = s.marks c m)
    (hfds : s'.fds = s.fds) (hi : s'.interest = s.interest) (hcl : s'.closed = s.closed) :
    Relaying s' c := by
  have m : Moved c s s' :=
    ⟨ho, hk.fd, hk.ref, hk.closing, hk.stage, hk.responseExpected, fun e => by rw [hs],
      fun e => by rw [hs], fun e => by rw [hs], hm, hcl, hi, fun _ => by rw [hfds],
      fun _ => by rw [hk.pipe]; exact ⟨rfl, rfl⟩, by rw [hfds]⟩
  refine h.move m (fun e => (h.flags e).congr hk hs fun _ => by rw [hfds]) (h.clean.congr hs)
    (by rw [hs]; exact h.core.tidy.tags) fun e => ?_
  exact m.shut_aside h.core.tidy (by rw [hs]; exact id) (by rw [hs]) (by rw [hs]) (by rw [hs])

theorem Relaying.mark (h : Relaying s c) {m : Mark} (b : Bool)
    (hm : ∃ e, m = .stuck e ∨ m = .finOnly e) : Relaying (s.mark c m b) c := by
  refine h.alike (h.core.others.mark m b) (.of_eq rfl) rfl (fun m' hm' => mark_ne _ _ _ _ ?_) rfl
    rfl rfl
  rintro rfl
  obtain ⟨e, he | he⟩ := hm
  · exact (hm' e).1 he
  · exact (hm' e).2 he

theorem connectionTouch_relaying (h : Relaying s c) : Prog.Sat ok
    (fun s' _ => Relaying s' c ∧ s'.socks = s.socks ∧ s'.marks = s.marks ∧
      (s'.conns c).pipe = (s.conns c).pipe)
    (connectionTouch c s) := by
  unfold connectionTouch nowMs
  intro now _
  refine Act.sat_ite (fun _ => ⟨?_, rfl, rfl, ?_⟩) (fun _ => ⟨h, rfl, rfl, rfl⟩)
  · refine h.alike (h.core.others.modConn _) ?_ rfl (fun _ _ => rfl) rfl rfl rfl
    rw [modConn_conns]
    exact ⟨rfl, rfl, rfl, rfl, rfl, rfl, rfl⟩
  · rw [modConn_conns]

theorem touchIf_relaying (h : Relaying s c) (b : Bool) : Prog.Sat ok
    (fun s' _ => Relaying s' c ∧ s'.socks = s.socks ∧ s'.marks = s.marks ∧
      (s'.conns c).pipe = (s.conns c).pipe)
    (touchIf b c s) := by
  unfold touchIf
  exact Act.sat_ite (fun _ => connectionTouch_relaying h) (fun _ => ⟨h, rfl, rfl, rfl⟩)

/-- An end of file was read. -/
theorem Relaying.setEof (h : Relaying s c) (hf : (s.conns c).fd d = some f) :
    Relaying (s.onSock f fun k => { k with eof := true }) c := by
  rw [onSock_eq (h.core.tidy.sockets hf)]
  have m : Moved c s (s.modSock c d fun k => { k with eof := true }) := by
    refine ⟨h.core.others.modSock d _, rfl, rfl, rfl, rfl, rfl, fun e => ?_, fun e => ?_,
      fun e => ?_, fun _ _ => rfl, rfl, rfl, fun _ => rfl, fun _ => ⟨rfl, rfl⟩, rfl⟩
    all_goals rcases d.eq_or_other e with rfl | rfl <;> simp
  have heof : ∀ e, (s.socks c e).eof = true →
      ((s.modSock c d fun k => { k with eof := true }).socks c e).eof = true := fun e he => by
    rcases d.eq_or_other e with rfl | rfl
    · simp
    · simpa using he
  have hrest : ∀ e, ((s.modSock c d fun k => { k with eof := true }).socks c e).shut =
      (s.socks c e).shut ∧
      ((s.modSock c d fun k => { k with eof := true }).socks c e).taken = (s.socks c e).taken ∧
      ((s.modSock c d fun k => { k with eof := true }).socks c e).delivered =
        (s.socks c e).delivered ∧
      ((s.modSock c d fun k => { k with eof := true }).socks c e).failed =
        (s.socks c e).failed := fun e => by
    rcases d.eq_or_other e with rfl | rfl <;> simp
  refine h.move m (fun e => ?_) (fun e => ?_) (fun e => ?_) (fun e => ?_)
  · exact (h.flags e).aside m rfl (heof e) (hrest _).1 (hrest _).2.1 (hrest _).2.2.1 fun _ => rfl
  · rw [(hrest e).2.2.2]
    exact h.clean e
  · rw [(hrest e).2.2.1]
    exact h.core.tidy.tags e
  · exact m.shut_aside h.core.tidy (heof e) (hrest _).1 (hrest _).2.1 (hrest _).2.2.1

/-- A flag of the input of a pipe is raised. -/
theorem Relaying.setPipe (h : Relaying s c) {p : SplicePipe → SplicePipe}
    (hp : ∀ x, (p x).readFd = x.readFd ∧ (p x).writeFd = x.writeFd ∧ (p x).queued = x.queued ∧
      (p x).outputShutdown = x.outputShutdown)
    (heof : (p ((s.conns c).pipe d)).inputEof = true → (s.socks c d).eof = true)
    (hlast : ((s.conns c).pipe d).inputEof = true → (p ((s.conns c).pipe d)).inputEof = true)
    (hpaused : (p ((s.conns c).pipe d)).inputPaused = true → 0 < ((s.conns c).pipe d).queued) :
    Relaying (s.modPipe c d p) c := by
  obtain ⟨hr, hw, hq, ho⟩ := hp ((s.conns c).pipe d)
  have m : Moved c s (s.modPipe c d p) :=
    ⟨h.core.others.modConn _, by simp, by simp, by simp, by simp, by simp, fun _ => rfl,
      fun _ => rfl, fun _ => rfl, fun _ _ => rfl, rfl, rfl, fun _ => rfl, fun e => by
        rcases d.eq_or_other e with rfl | rfl
        · rw [modPipe_pipe]
          exact ⟨hr, hw⟩
        · simp, rfl⟩
  refine h.move m (fun e => ?_) h.clean h.core.tidy.tags fun e =>
    m.shut_aside h.core.tidy id rfl rfl rfl
  rcases d.eq_or_other e with rfl | rfl
  · have hfl := h.flags e
    obtain ⟨r, w, content, hh⟩ := hfl.held
    obtain ⟨hin, hout⟩ := flows_modPipe (c := c) (d := e) (s := s) rfl rfl p
    refine ⟨⟨r, w, content, by rw [modPipe_pipe, hr]; exact hh.readFd,
      by rw [modPipe_pipe, hw]; exact hh.writeFd, hh.read, hh.write,
      by rw [modPipe_pipe, hq]; exact hh.queued, hh.tags, by rw [hin, hout]; exact hh.flow⟩,
      ?_, ?_, ?_, ?_⟩
    · rw [modPipe_pipe]
      exact heof
    · rw [modPipe_pipe, ho]
      exact hfl.shut
    · rw [modPipe_pipe, ho]
      exact fun hs => hlast (hfl.last hs)
    · rw [modPipe_pipe, hq]
      exact hpaused
  · exact (h.flags d.other).aside m (by simp) id rfl rfl rfl fun _ => rfl

/-! ## Errors -/

/-- A call on a socket failed. -/
theorem Relaying.fail (h : Relaying s c) (hf : (s.conns c).fd d = some f) {g : Sock → Sock}
    (hg : ∀ k, SockAlike (g k) k ∧ (g k).isOpen = k.isOpen ∧ (g k).linger = k.linger) :
    Broken (s.onSock f g) c d := by
  rw [onSock_eq (h.core.tidy.sockets hf)]
  refine ⟨h.core.modSock fun k => ⟨(hg k).1, (hg k).2.1⟩, ⟨fun e => ?_, h.unmarked.hungUp,
    h.unmarked.slipped, h.unmarked.idle, h.unmarked.stopped⟩, fun e he => ?_, h.stage⟩
  · rcases d.eq_or_other e with rfl | rfl
    · rw [modSock_self, (hg _).2.2]
      exact h.unmarked.linger _
    · rw [modSock_other]
      exact h.unmarked.linger _
  · rcases d.eq_or_other e with rfl | rfl
    · rfl
    · rw [modSock_other, h.clean] at he
      simp at he

theorem touchIf_broken (h : Broken s c d) (b : Bool) : Prog.Sat ok (fun s' _ => Broken s' c d)
    (touchIf b c s) := by
  unfold touchIf
  refine Act.sat_ite (fun _ => ?_) (fun _ => h)
  unfold connectionTouch nowMs
  intro now _
  refine Act.sat_ite (fun _ => ?_) (fun _ => h)
  have hk : Alike ((s.modConn c fun k => { k with lastActivityMs := now }).conns c) (s.conns c) := by
    rw [modConn_conns]
    exact ⟨rfl, rfl, rfl, rfl, rfl, rfl, rfl⟩
  refine ⟨⟨h.core.others.modConn _, ?_, ?_, h.core.unclosed⟩, ?_, h.failed, ?_⟩
  · exact h.core.tidy.congr hk rfl rfl (fun _ => rfl) id
  · exact h.core.standing.congr hk fun _ => rfl
  · exact Unmarked.congr (s := s) rfl rfl h.unmarked
  · rw [hk.stage]
    exact h.stage

end moves

/-! ## From a socket into its pipe -/

theorem StuckOk.congr (h : StuckOk s c d) (hm : s'.marks c (.stuck d) = s.marks c (.stuck d))
    (hm' : s'.marks c (.finOnly d) = s.marks c (.finOnly d))
    (hp : (s'.conns c).pipe d = (s.conns c).pipe d) : StuckOk s' c d := by
  unfold StuckOk
  rw [hm, hm', hp]
  exact h

/-- What a splice of one direction leaves: a relaying connection, or one to be reset. -/
def Spliced (c : Nat) (d : Side) (s' : State) (b : Bool) : Prop :=
  (b = true → Relaying s' c ∧ ∀ e, StuckOk s' c e) ∧ (b = false → Broken s' c d)

/-- The unread bytes are counted only to pause, and a full pipe without any is marked. -/
theorem socketHasUnreadBytes_sat (h : Relaying s c) (d : Side) : Prog.Sat ok
    (fun s' b => Relaying s' c ∧ s'.conns = s.conns ∧
      (∀ e, s'.marks c (.stuck e) = s.marks c (.stuck e)) ∧
      s'.marks c (.finOnly d.other) = s.marks c (.finOnly d.other) ∧
      (b = false → s.marks c (.stuck d) = true → s'.marks c (.finOnly d) = true))
    (socketHasUnreadBytes c d s) := by
  unfold socketHasUnreadBytes
  obtain ⟨f, hf, -⟩ := h.core.standing.fd d
  simp only [Act.bind_run, get_run, Prog.ret_bind, hf]
  intro r _
  refine Act.sat_ite (fun hcond => ?_) (fun hcond => ?_)
  · refine ⟨h.mark true ⟨d, Or.inr rfl⟩, rfl, fun e => mark_ne _ _ _ _ (by simp),
      mark_ne _ _ _ _ (by simp), fun _ _ => mark_self ..⟩
  · refine ⟨h, rfl, fun _ => rfl, rfl, fun hb hst => absurd ?_ hcond⟩
    simp only [hb, hst]
    rfl

/-- What `EAGAIN` leads to, with a full pipe or without. -/
theorem spliceAgain_sat (h : Relaying s c) (hother : StuckOk s c d.other)
    (hfull : s.marks c (.stuck d) = true → 0 < ((s.conns c).pipe d).queued) (movedData : Bool) :
    Prog.Sat ok (Spliced c d) (spliceAgain c d movedData s) := by
  unfold spliceAgain
  refine (touchIf_relaying h movedData).bind fun s₁ _ ⟨h₁, hs₁, hm₁, hp₁⟩ => ?_
  have hother₁ : StuckOk s₁ c d.other := hother.congr (by rw [hm₁]) (by rw [hm₁]) (by rw [hp₁])
  -- the count is read if the pipe holds bytes, so always when it is full
  have hcount : Prog.Sat ok (fun s' b => Relaying s' c ∧ s'.conns = s₁.conns ∧
      StuckOk s' c d.other ∧ (b = true → 0 < ((s₁.conns c).pipe d).queued) ∧
      (b = false → StuckOk s' c d))
      (pipeLooksFull c d s₁) := by
    unfold pipeLooksFull
    simp only [Act.bind_run, get_run, Prog.ret_bind]
    refine Act.sat_ite (fun hq => ?_) (fun hq => ?_)
    · refine (socketHasUnreadBytes_sat h₁ d).mono fun s₂ b ⟨h₂, hk₂, hst₂, hfin₂, hmark⟩ => ?_
      refine ⟨h₂, hk₂, hother₁.congr (hst₂ _) hfin₂ (by rw [hk₂]), fun _ => hq, fun hb hst => ?_⟩
      exact Or.inr (hmark hb (by rw [← hst₂]; exact hst))
    · refine ⟨h₁, rfl, hother₁, fun hb => absurd hb (by simp), fun _ hst => ?_⟩
      rw [hm₁] at hst
      rw [hp₁] at hq
      exact absurd (hfull hst) hq
  refine hcount.bind fun s₂ b ⟨h₂, hk₂, ho₂, hq₂, hst₂⟩ => ?_
  cases b with
  | false => exact ⟨fun _ => ⟨h₂, fun e => by
      rcases d.eq_or_other e with rfl | rfl
      · exact hst₂ rfl
      · exact ho₂⟩, fun hbad => absurd hbad (by simp)⟩
  | true =>
      refine ⟨fun _ => ⟨?_, fun e => ?_⟩, fun hbad => absurd hbad (by simp)⟩
      · refine h₂.setPipe (fun _ => ⟨rfl, rfl, rfl, rfl⟩) (h₂.flags d).eof id fun _ => ?_
        rw [hk₂]
        exact hq₂ rfl
      · rcases d.eq_or_other e with rfl | rfl
        · intro _
          exact Or.inl (by simp)
        · exact ho₂.congr rfl rfl (by simp)

/-- The loop of `splice_socket_to_pipe`. -/
theorem spliceSocketToPipeFrom_sat (fuel : Nat) : ∀ {s : State} (movedData : Bool), Relaying s c →
    ((s.conns c).pipe d).inputEof = false → StuckOk s c d.other →
    Prog.Sat ok (Spliced c d) (spliceSocketToPipeFrom c d fuel movedData s) := by
  induction fuel with
  | zero => exact fun _ _ _ _ => trivial
  | succ fuel ih =>
      intro s movedData h heof hother
      obtain ⟨f, hf, -⟩ := h.core.standing.fd d
      obtain ⟨r, w, content, hh⟩ := (h.flags d).held
      -- only the mark of this direction changes before the call's answer is known
      have hstuck : ∀ b, Relaying (s.mark c (.stuck d) b) c ∧
          StuckOk (s.mark c (.stuck d) b) c d.other := fun b =>
        ⟨h.mark b ⟨d, Or.inl rfl⟩, hother.congr (mark_ne _ _ _ _ (by simp))
          (mark_ne _ _ _ _ (by simp)) rfl⟩
      simp only [spliceSocketToPipeFrom, Act.bind_run, get_run, Prog.ret_bind,
        spliceIn_run hf hh.writeFd]
      intro a ha
      cases a with
      | moved l =>
          have ht := h.take hf hh heof l
          have hout : StuckOk (takeState s c d f w l) c d.other := by
            rw [takeState_eq hh (h.core.tidy.sockets hf)]
            exact hother.congr (mark_ne _ _ _ _ (by simp)) (mark_ne _ _ _ _ (by simp)) (by simp)
          have hst : (takeState s c d f w l).marks c (.stuck d) = false := by
            rw [takeState_eq hh (h.core.tidy.sockets hf)]
            exact mark_self ..
          show Prog.Sat ok _ ((if l.length < ((s.conns c).pipe d).capacity then
            (do connectionTouch c; pure true) else spliceSocketToPipeFrom c d fuel true)
              (takeState s c d f w l))
          -- a short count ends the loop, a full one goes round again
          refine Act.sat_ite (fun _ => ?_) (fun _ => ih true ht ?_ hout)
          · refine (connectionTouch_relaying ht).bind fun s₁ _ ⟨h₁, hs₁, hm₁, hp₁⟩ =>
              ⟨fun _ => ⟨h₁, fun e => ?_⟩, fun hbad => absurd hbad (by simp)⟩
            rcases d.eq_or_other e with rfl | rfl
            · intro hbad
              rw [hm₁, hst] at hbad
              simp at hbad
            · exact hout.congr (by rw [hm₁]) (by rw [hm₁]) (by rw [hp₁])
          · rw [takeState_eq hh (h.core.tidy.sockets hf)]
            simpa using heof
      | eof =>
          have hs := (hstuck false).1.setEof hf
          refine (touchIf_relaying hs movedData).bind fun s₁ _ ⟨h₁, hs₁, hm₁, hp₁⟩ => ?_
          have hsock : (s.mark c (.stuck d) false).fds f = some (.socket c d) :=
            h.core.tidy.sockets hf
          rw [onSock_eq hsock] at hs₁ hm₁ hp₁
          refine ⟨fun _ => ⟨?_, fun e => ?_⟩, fun hbad => absurd hbad (by simp)⟩
          · refine h₁.setPipe (fun _ => ⟨rfl, rfl, rfl, rfl⟩) (fun _ => ?_) (fun _ => rfl)
              (h₁.flags d).paused
            rw [hs₁]
            simp
          · rcases d.eq_or_other e with rfl | rfl
            · intro hbad
              have hbad : s₁.marks c (.stuck e) = true := hbad
              rw [hm₁, modSock_marks, mark_self] at hbad
              simp at hbad
            · refine (hstuck false).2.congr ?_ ?_ ?_
              · show s₁.marks c _ = _
                rw [hm₁]
                rfl
              · show s₁.marks c _ = _
                rw [hm₁]
                rfl
              · simp [hp₁]
      | full =>
          have hq : 0 < ((s.conns c).pipe d).queued := by
            have hne : ¬(s.content w).isEmpty = true := by simpa [ok, okb] using ha
            rw [hh.content_write] at hne
            rw [← hh.queued]
            exact List.length_pos_iff.mpr (by simpa using hne)
          -- stuck, but with bytes queued: the way out of it is to drain the pipe
          exact spliceAgain_sat (hstuck true).1 (hstuck true).2 (fun _ => hq) movedData
      | empty =>
          refine spliceAgain_sat (hstuck false).1 (hstuck false).2 (fun hbad => ?_) movedData
          rw [mark_self] at hbad
          simp at hbad
      | intr => exact ih movedData (hstuck false).1 heof (hstuck false).2
      | failed =>
          have hs := (hstuck false).1.fail hf (g := fun k => { k with failed := true })
            fun _ => ⟨⟨rfl, rfl, rfl, rfl, rfl⟩, rfl, rfl⟩
          exact (touchIf_broken hs movedData).bind fun s₁ _ h₁ =>
            ⟨fun hbad => absurd hbad (by simp), fun _ => h₁⟩

theorem spliceSocketToPipe_sat (h : Relaying s c) (hstuck : ∀ e, StuckOk s c e) (d : Side) :
    Prog.Sat ok (Spliced c d) (spliceSocketToPipe c d s) := by
  unfold spliceSocketToPipe
  simp only [Act.bind_run, get_run, Prog.ret_bind]
  refine Act.sat_ite (fun _ => ⟨fun _ => ⟨h, hstuck⟩, fun hbad => absurd hbad (by simp)⟩)
    (fun heof => ?_)
  intro retries _
  exact spliceSocketToPipeFrom_sat _ false h (by simpa using heof) (hstuck _)

/-! ## From a pipe to the other socket -/

section give

variable {f r w n : Nat} {content : List (Nat × UInt8)}

/-- The state after a splice to the socket opposite to a side. -/
def afterSpliceOut (s : State) (c : Nat) (d : Side) (r f : Nat) : Except Errno Nat → State
  | .ok 0 => (s.onSock f fun k =>
      { k with delivered := k.delivered ++ (s.content r).take 0
               failed := k.failed || true }).popPipe r 0
  | .ok (n + 1) => ((s.onSock f fun k =>
      { k with delivered := k.delivered ++ (s.content r).take (n + 1)
               failed := k.failed || false }).popPipe r (n + 1)).mark c (.stuck d) false
  | .error e => s.onSock f fun k => { k with failed := k.failed || !e.soft }

theorem spliceOut_run (hr : ((s.conns c).pipe d).readFd = some r)
    (hf : (s.conns c).fd d.other = some f) (chunk : Nat) :
    spliceOut c d chunk s = .ask s (.spliceOut r f chunk) fun moved =>
      .ret (afterSpliceOut s c d r f moved) moved := by
  simp only [spliceOut, Act.bind_run, get_run, Prog.ret_bind, hr, hf, ask_run, Prog.ask_bind]
  congr 1
  funext moved
  rcases moved with e | n
  · rfl
  · cases n <;> rfl

theorem onSock_same {g : Sock → Sock} (hg : ∀ k, g k = k) : s.onSock f g = s := by
  unfold State.onSock
  split
  · simp [State.modSock, hg]
  · rfl

/-- A splice that moved nothing is an error of the socket. -/
theorem afterSpliceOut_zero (hh : Held s c d r w content)
    (hs : s.fds f = some (.socket c d.other)) :
    afterSpliceOut s c d r f (.ok 0) = s.onSock f fun k => { k with failed := true } := by
  have hfd : (s.modSock c d.other fun k => { k with failed := true }).fds r =
      some (.pipeRead (some (c, d)) content) := hh.read
  simp only [afterSpliceOut, onSock_eq hs, List.take_zero, List.append_nil, Bool.or_true,
    State.popPipe, hfd, List.drop_zero, modSock_fds]
  rw [← hh.read, Function.update_eq_self]
  rfl

/-- The state after bytes left the pipe of a side, with their count. -/
def giveState (s : State) (c : Nat) (d : Side) (r f n : Nat) : State :=
  (afterSpliceOut s c d r f (.ok (n + 1))).modPipe c d fun p =>
    { p with queued := p.queued - (n + 1), inputPaused := false }

theorem giveState_eq (hh : Held s c d r w content) (hs : s.fds f = some (.socket c d.other)) :
    giveState s c d r f n =
      ({ s.modSock c d.other fun k =>
            { k with delivered := k.delivered ++ content.take (n + 1) } with
          fds := update s.fds r (some (.pipeRead (some (c, d)) (content.drop (n + 1)))) }.mark c
        (.stuck d) false).modPipe c d fun p =>
          { p with queued := p.queued - (n + 1), inputPaused := false } := by
  have hfd : (s.modSock c d.other fun k =>
      { k with delivered := k.delivered ++ content.take (n + 1) }).fds r =
      some (.pipeRead (some (c, d)) content) := hh.read
  simp only [giveState, afterSpliceOut, onSock_eq hs, hh.content_read, Bool.or_false, State.popPipe,
    hfd, modSock_fds]

theorem Relaying.give (h : Relaying s c) (hf : (s.conns c).fd d.other = some f)
    (hh : Held s c d r w content) (hn : n + 1 ≤ content.length) :
    Relaying (giveState s c d r f n) c := by
  rw [giveState_eq hh (h.core.tidy.sockets hf)]
  have hmine : Mine (s.modSock c d.other fun k =>
      { k with delivered := k.delivered ++ content.take (n + 1) }) c r :=
    .own (by simp [State.owner, hh.read])
  have hrs : ∀ {e g}, (s.conns c).fd e = some g → g ≠ r := fun hg =>
    (h.core.tidy.aside_ne hh (Or.inl ⟨_, hg⟩)).1
  have hpipe : pipeOf (update s.fds r (some (.pipeRead (some (c, d)) (content.drop (n + 1))))) =
      pipeOf s.fds := pipeOf_setContent hh.read _
  have m : Moved c s (({ s.modSock c d.other fun k =>
        { k with delivered := k.delivered ++ content.take (n + 1) } with
      fds := update s.fds r (some (.pipeRead (some (c, d)) (content.drop (n + 1)))) }.mark c
        (.stuck d) false).modPipe c d fun p =>
          { p with queued := p.queued - (n + 1), inputPaused := false }) := by
    refine ⟨(((h.core.others.modSock d.other _).setFd hmine fun e =>
      .inl (congrFun hpipe e)).mark _ _).modConn _, by simp,
      by simp, by simp, by simp, by simp, fun e => ?_, fun e => ?_, fun e => ?_, fun x hx => ?_, rfl,
      rfl, fun hg => update_of_ne (hrs hg) .., fun e => ?_, hpipe⟩
    · rcases d.eq_or_other e with rfl | rfl <;> simp
    · rcases d.eq_or_other e with rfl | rfl <;> simp
    · rcases d.eq_or_other e with rfl | rfl <;> simp
    · exact mark_ne _ _ _ _ (hx d).1
    · rcases d.eq_or_other e with rfl | rfl <;> simp
  -- a socket that was shut down has nothing left in the pipe before it
  have hnoshut : (s.socks c d.other).shut = false := by
    by_contra hbad
    obtain ⟨-, hflow⟩ := h.core.tidy.shut d (by simpa using hbad)
    rw [hh.flow] at hflow
    have : content.map Prod.snd = [] := by simpa using hflow
    rw [List.map_eq_nil_iff] at this
    rw [this] at hn
    simp at hn
  refine h.move m (fun e => ?_) (fun e => ?_) (fun e => ?_) (fun e => ?_)
  · rcases d.eq_or_other e with rfl | rfl
    · have hfl := h.flags e
      refine ⟨⟨r, w, content.drop (n + 1), ⟨?_, ?_, update_self .., ?_, ?_, ?_, ?_⟩⟩, ?_, ?_, ?_, ?_⟩
      · simpa using hh.readFd
      · simpa using hh.writeFd
      · show update s.fds r _ w = _
        rw [update_of_ne hh.ne]
        exact hh.write
      · simp [hh.queued]
      · exact fun x hx => hh.tags x (List.mem_of_mem_drop hx)
      · have hflow := hh.flow
        rw [inflow_relay h.stage] at hflow
        rw [inflow_relay (m.stage.trans h.stage), m.early]
        simp only [outflow] at hflow ⊢
        simp only [modPipe_socks, mark_socks, modSock_back, modSock_self]
        have hsplit := congrArg (List.map Prod.snd) (List.take_append_drop (n + 1) content)
        rw [List.map_append] at hsplit
        rw [hflow, List.map_append, List.append_assoc, hsplit]
      · simpa using hfl.eof
      · simpa using hfl.shut
      · simpa using hfl.last
      · simp
    · refine (h.flags d.other).aside m (by simp) (by simp) (by simp) (by simp) (by simp)
        fun {g} hg => ?_
      exact update_of_ne (h.core.tidy.aside_ne hh (Or.inr hg)).1 ..
  · rcases d.eq_or_other e with rfl | rfl
    · simpa using h.clean e
    · simpa using h.clean d.other
  · rcases d.eq_or_other e with rfl | rfl
    · simpa using h.core.tidy.tags e
    · intro x hx
      have hx : x ∈ (s.socks c d.other).delivered ++ content.take (n + 1) := by simpa using hx
      rcases List.mem_append.mp hx with hx | hx
      · exact h.core.tidy.tags d.other x hx
      · exact hh.tags x (List.mem_of_mem_take hx)
  · rcases d.eq_or_other e with rfl | rfl
    · intro hbad
      simp [hnoshut] at hbad
    · exact m.shut_aside h.core.tidy (by simp) (by simp) (by simp) (by simp)

end give

/-- What a splice towards the socket opposite to a side leaves. -/
def Flushed (c : Nat) (d : Side) (s' : State) (b : Bool) : Prop :=
  (b = true → Relaying s' c ∧ ∀ e, StuckOk s' c e) ∧ (b = false → Broken s' c d.other)

/-- The loop of `splice_pipe_to_socket`. -/
theorem splicePipeToSocketFrom_sat (fuel : Nat) : ∀ {s : State} (movedData : Bool),
    Relaying s c → (∀ e, StuckOk s c e) →
    Prog.Sat ok (fun s' r => Flushed c d s' r.isSome)
      (splicePipeToSocketFrom c d fuel movedData s) := by
  induction fuel with
  | zero => exact fun _ _ _ => trivial
  | succ fuel ih =>
      intro s movedData h hstuck
      have hok : Flushed c d s true := ⟨fun _ => ⟨h, hstuck⟩, fun hbad => absurd hbad (by simp)⟩
      simp only [splicePipeToSocketFrom, Act.bind_run, get_run, Prog.ret_bind]
      refine Act.sat_ite (fun hq => ?_) (fun _ => hok)
      obtain ⟨f, hf, -⟩ := h.core.standing.fd d.other
      obtain ⟨r, w, content, hh⟩ := (h.flags d).held
      simp only [Act.bind_run, spliceOut_run hh.readFd hf]
      intro moved hm
      have hsock := h.core.tidy.sockets hf
      -- any other error fails the connection
      have hbroken : ∀ e : Errno, Prog.Sat ok (fun s' r => Flushed c d s' r.isSome)
          ((do touchIf movedData c; pure none : Worker (Option Bool))
            (afterSpliceOut s c d r f (.error e))) := fun e => by
        refine (touchIf_broken (h.fail hf ?_) movedData).bind fun s₁ _ h₁ =>
          ⟨fun hbad => absurd hbad (by simp), fun _ => h₁⟩
        exact fun _ => ⟨⟨rfl, rfl, rfl, rfl, rfl⟩, rfl, rfl⟩
      -- `EINTR` and `EAGAIN` change nothing
      have hsoft : ∀ {e : Errno}, e.soft = true → afterSpliceOut s c d r f (.error e) = s :=
        fun he => onSock_same fun k => by simp [he]
      rcases moved with e | n
      · cases e with
        | eintr =>
            show Prog.Sat ok _ (splicePipeToSocketFrom c d fuel movedData
              (afterSpliceOut s c d r f (.error .eintr)))
            rw [hsoft rfl]
            exact ih movedData h hstuck
        | eagain =>
            show Flushed c d (afterSpliceOut s c d r f (.error .eagain)) true
            rw [hsoft rfl]
            exact hok
        | emfile => exact hbroken _
        | enfile => exact hbroken _
        | enotconn => exact hbroken _
        | epipe => exact hbroken _
        | other => exact hbroken _
      · cases n with
        | zero =>
            show Prog.Sat ok _ ((do touchIf movedData c; pure none : Worker (Option Bool))
              (afterSpliceOut s c d r f (.ok 0)))
            rw [afterSpliceOut_zero hh hsock]
            refine (touchIf_broken (h.fail hf ?_) movedData).bind fun s₁ _ h₁ =>
              ⟨fun hbad => absurd hbad (by simp), fun _ => h₁⟩
            exact fun _ => ⟨⟨rfl, rfl, rfl, rfl, rfl⟩, rfl, rfl⟩
        | succ n =>
            -- `splice` moves no more than the pipe holds
            have hn : n + 1 ≤ content.length := by
              simp only [ok, okb, Bool.and_eq_true, decide_eq_true_eq] at hm
              rw [hh.content_read] at hm
              exact hm.2
            refine ih true (h.give hf hh hn) fun e => ?_
            show StuckOk (giveState s c d r f n) c e
            rw [giveState_eq hh hsock]
            rcases d.eq_or_other e with rfl | rfl
            · intro hbad
              have hbad : ((s.mark c (.stuck e) false).marks c (.stuck e)) = true := hbad
              rw [mark_self] at hbad
              simp at hbad
            · exact (hstuck d.other).congr (mark_ne _ _ _ _ (by simp)) (mark_ne _ _ _ _ (by simp))
                (by simp)

/-- The socket opposite to a direction is shut down once an end of file was read and nothing is
left in the pipe. -/
theorem Relaying.shutdown (h : Relaying s c) (heof : ((s.conns c).pipe d).inputEof = true)
    (hq : ((s.conns c).pipe d).queued = 0) (g : Sock → Sock)
    (hg : ∀ k, (g k).isOpen = k.isOpen ∧ (g k).linger = k.linger ∧ (g k).received = k.received ∧
      (g k).taken = k.taken ∧ (g k).delivered = k.delivered ∧ (g k).eof = k.eof) :
    Moved c s (s.modSock c d.other g) ∧ Core (s.modSock c d.other g) c := by
  have hsame : ∀ e, ((s.modSock c d.other g).socks c e).isOpen = (s.socks c e).isOpen ∧
      ((s.modSock c d.other g).socks c e).linger = (s.socks c e).linger ∧
      ((s.modSock c d.other g).socks c e).received = (s.socks c e).received ∧
      ((s.modSock c d.other g).socks c e).taken = (s.socks c e).taken ∧
      ((s.modSock c d.other g).socks c e).delivered = (s.socks c e).delivered ∧
      ((s.modSock c d.other g).socks c e).eof = (s.socks c e).eof := fun e => by
    rcases d.eq_or_other e with rfl | rfl
    · simp
    · rw [modSock_self]
      exact hg _
  have m : Moved c s (s.modSock c d.other g) :=
    ⟨h.core.others.modSock _ _, rfl, rfl, rfl, rfl, rfl, fun e => (hsame e).1,
      fun e => (hsame e).2.1, fun e => (hsame e).2.2.1, fun _ _ => rfl, rfl, rfl, fun _ => rfl,
      fun _ => ⟨rfl, rfl⟩, rfl⟩
  have hheld : ∀ {e r w content}, Held s c e r w content →
      Held (s.modSock c d.other g) c e r w content := fun hh =>
    hh.aside m rfl rfl rfl (hsame _).2.2.2.1 (hsame _).2.2.2.2.1 fun _ => rfl
  refine ⟨m, m.core h.core h.stage (fun e => ?_) (fun e => ?_) (fun e => ?_)⟩
  · obtain ⟨r, w, content, hh⟩ := (h.flags e).held
    exact ⟨r, w, content, hheld hh⟩
  · rw [(hsame e).2.2.2.2.1]
    exact h.core.tidy.tags e
  · rcases d.eq_or_other e with rfl | rfl
    · intro _
      obtain ⟨r, w, content, hh⟩ := (h.flags e).held
      refine ⟨by rw [(hsame e).2.2.2.2.2]; exact (h.flags e).eof heof, ?_⟩
      have hnil : content = [] := List.eq_nil_of_length_eq_zero (hh.queued.trans hq)
      have hflow := (hheld hh).flow
      rw [hflow, hnil]
      simp
    · refine m.shut_aside h.core.tidy (by rw [(hsame _).2.2.2.2.2]; exact id) ?_ (hsame _).2.2.2.1
        (hsame _).2.2.2.2.1
      simp

/-- `shutdown_splice_target`. -/
theorem shutdownSpliceTarget_sat (h : Relaying s c) (hstuck : ∀ e, StuckOk s c e) (d : Side) :
    Prog.Sat ok (Flushed c d) (shutdownSpliceTarget c d s) := by
  unfold shutdownSpliceTarget
  simp only [Act.bind_run, get_run, Prog.ret_bind]
  refine Act.sat_ite (fun _ => ⟨fun _ => ⟨h, hstuck⟩, fun hbad => absurd hbad (by simp)⟩)
    (fun hcond => ?_)
  -- past the guard the input has ended and the pipe is empty
  have heof : ((s.conns c).pipe d).inputEof = true := by
    by_contra hbad
    exact hcond (by simp [hbad])
  have hq : ((s.conns c).pipe d).queued = 0 := by
    by_contra hbad
    exact hcond (by simp [Nat.pos_of_ne_zero hbad])
  obtain ⟨f, hf, -⟩ := h.core.standing.fd d.other
  have hsock := h.core.tidy.sockets hf
  -- `ENOTCONN` and `EPIPE` count as done: both mean that the peer is gone already
  have hdone : Flushed c d ((s.onSock f fun k =>
      { k with shut := true, failed := k.failed || !true }).modPipe c d
        fun p => { p with outputShutdown := true }) true := by
    rw [onSock_eq hsock]
    obtain ⟨m, hcore⟩ := h.shutdown heof hq
      (fun k => { k with shut := true, failed := k.failed || !true })
      fun _ => ⟨rfl, rfl, rfl, rfl, rfl, rfl⟩
    have m' : Moved c s ((s.modSock c d.other fun k =>
        { k with shut := true, failed := k.failed || !true }).modPipe c d
          fun p => { p with outputShutdown := true }) :=
      ⟨m.others.modConn _, by simp, by simp, by simp, by simp, by simp, m.isOpen, m.linger,
        m.received, fun _ _ => rfl, rfl, rfl, fun _ => rfl, fun e => by
          rcases d.eq_or_other e with rfl | rfl <;> simp, rfl⟩
    obtain ⟨hin, hout⟩ := flows_modPipe (c := c) (d := d) (s := s.modSock c d.other fun k =>
      { k with shut := true, failed := k.failed || !true }) rfl rfl
        fun p => { p with outputShutdown := true }
    refine ⟨fun _ => ⟨h.move m' (fun e => ?_) (fun e => ?_) hcore.tidy.tags (fun e => ?_), fun e => ?_⟩,
      fun hbad => absurd hbad (by simp)⟩
    · rcases d.eq_or_other e with rfl | rfl
      · have hfl := h.flags e
        obtain ⟨r, w, content, hh⟩ := hfl.held
        refine ⟨⟨r, w, content, hh.aside m' (by simp) (by simp) (by simp) (by simp) (by simp)
          fun _ => rfl⟩, ?_, ?_, ?_, ?_⟩
        · simpa using hfl.eof
        · simp
        · simpa using heof
        · simpa using hfl.paused
      · exact (h.flags d.other).aside m' (by simp) (by simp) (by simp) (by simp) (by simp)
          fun _ => rfl
    · rcases d.eq_or_other e with rfl | rfl
      · simpa using h.clean e
      · simpa using h.clean d.other
    · rw [hin, hout]
      exact hcore.tidy.shut e
    · rcases d.eq_or_other e with rfl | rfl
      · exact fun hst => (hstuck e hst).imp_left fun hp => by simpa using hp
      · exact (hstuck d.other).congr rfl rfl (by simp)
  have hfail : Flushed c d (s.onSock f fun k =>
      { k with shut := true, failed := k.failed || !false }) false := by
    rw [onSock_eq hsock]
    obtain ⟨m, hcore⟩ := h.shutdown heof hq
      (fun k => { k with shut := true, failed := k.failed || !false })
      fun _ => ⟨rfl, rfl, rfl, rfl, rfl, rfl⟩
    refine ⟨fun hbad => absurd hbad (by simp), fun _ =>
      ⟨hcore, m.unmarked h.unmarked, fun e he => ?_, h.stage⟩⟩
    rcases d.eq_or_other e with rfl | rfl
    · rw [modSock_back, h.clean] at he
      simp at he
    · rfl
  simp only [hf, shutdownWrite]
  intro r _
  rcases r with _ | e
  · exact hdone
  · cases e with
    | enotconn => exact hdone
    | epipe => exact hdone
    | eagain => exact hfail
    | eintr => exact hfail
    | emfile => exact hfail
    | enfile => exact hfail
    | other => exact hfail

theorem splicePipeToSocket_sat (h : Relaying s c) (hstuck : ∀ e, StuckOk s c e) (d : Side) :
    Prog.Sat ok (Flushed c d) (splicePipeToSocket c d s) := by
  unfold splicePipeToSocket
  intro retries _
  refine (splicePipeToSocketFrom_sat _ false h hstuck).bind fun s₁ r hr => ?_
  cases r with
  | none => exact hr
  | some movedData =>
      obtain ⟨h₁, hst₁⟩ := hr.1 rfl
      refine (touchIf_relaying h₁ movedData).bind fun s₂ _ ⟨h₂, _, hm₂, hp₂⟩ => ?_
      exact shutdownSpliceTarget_sat h₂
        (fun e => (hst₁ e).congr (by rw [hm₂]) (by rw [hm₂]) (by rw [hp₂])) d

/-! ### An end of file is passed on at once -/

/-- An end of file behind an empty pipe was passed on. -/
def SplicePipe.Drained (p : SplicePipe) : Prop :=
  p.inputEof = true → p.queued = 0 → p.outputShutdown = true

/-- `shutdown_splice_target` passes it on. -/
theorem shutdownSpliceTarget_drained (c : Nat) (d : Side) (s : State) :
    Prog.Sat ok (fun s' b => b = true → ((s'.conns c).pipe d).Drained)
      (shutdownSpliceTarget c d s) := by
  unfold shutdownSpliceTarget
  simp only [Act.bind_run, get_run, Prog.ret_bind]
  refine Act.sat_ite (fun hcond _ heof hq => ?_) fun _ => ?_
  · simpa [heof, hq] using hcond
  · rcases (s.conns c).fd d.other with _ | fd
    · exact fun hbad => absurd hbad (by simp)
    · refine Prog.sat_true.bind fun s₁ done _ => ?_
      cases done with
      | false => exact fun hbad => absurd hbad (by simp)
      | true =>
          show true = true → (((s₁.modPipe c d _).conns c).pipe d).Drained
          rw [modPipe_pipe]
          exact fun _ _ _ => rfl

theorem splicePipeToSocket_drained (c : Nat) (d : Side) (s : State) :
    Prog.Sat ok (fun s' b => b = true → ((s'.conns c).pipe d).Drained)
      (splicePipeToSocket c d s) := by
  unfold splicePipeToSocket
  refine Prog.sat_true.bind fun s₁ (retries : Nat) _ => Prog.sat_true.bind fun s₁ r _ => ?_
  cases r with
  | none => exact fun hbad => absurd hbad (by simp)
  | some movedData =>
      refine Prog.sat_true.bind fun s₂ _ _ => ?_
      exact shutdownSpliceTarget_drained c d s₂

/-- The pipe of a side stays as it is. -/
def SamePipe (c : Nat) (d : Side) (s s' : State) : Prop := (s'.conns c).pipe d = (s.conns c).pipe d

instance (c : Nat) (d : Side) : IsPreorder State (SamePipe c d) where
  refl _ := rfl
  trans _ _ _ h h' := Eq.trans h' h

section SamePipe

theorem samePipe_onSock (s : State) (c fd : Nat) (d : Side) (f : Sock → Sock) :
    SamePipe c d s (s.onSock fd f) := by
  unfold SamePipe State.onSock
  split <;> rfl

theorem samePipe_popPipe (s : State) (c fd n : Nat) (d : Side) : SamePipe c d s (s.popPipe fd n) := by
  unfold SamePipe State.popPipe
  split <;> rfl

theorem samePipe_modPipe (s : State) (c : Nat) (d : Side) (f : SplicePipe → SplicePipe) :
    SamePipe c d.other s (s.modPipe c d f) := modPipe_other ..

theorem samePipe_touchIf (moved : Bool) (c : Nat) (d : Side) :
    Act.Keeps ok (SamePipe c d) (touchIf moved c) := by
  refine Act.keeps_ite ((Act.keeps_ask _).bind fun now => ?_) (Act.keeps_pure ())
  refine Act.keeps_ite (Act.keeps_modify fun s => ?_) (Act.keeps_pure ())
  simp [SamePipe]

theorem samePipe_spliceOut (c : Nat) (d e : Side) (chunk : Nat) :
    Act.Keeps ok (SamePipe c e) (spliceOut c d chunk) := by
  refine Act.keeps_get.bind fun s => ?_
  rcases ((s.conns c).pipe d).readFd with _ | r
  · exact Act.keeps_pure _
  rcases (s.conns c).fd d.other with _ | fd
  · exact Act.keeps_pure _
  refine (Act.keeps_ask _).bind fun moved => ?_
  have hmod : ∀ f : Sock → Sock, Act.Keeps ok (SamePipe c e) (modify fun s => s.onSock fd f) :=
    fun f => Act.keeps_modify fun s => samePipe_onSock s c fd e f
  rcases moved with err | n
  · exact (hmod _).bind fun _ => Act.keeps_pure _
  · refine (Act.keeps_modify fun s => ?_).bind fun _ => ?_
    · exact trans_of (SamePipe c e) (samePipe_onSock s c fd e _) (samePipe_popPipe _ c r n e)
    · have hmark : Act.Keeps ok (SamePipe c e) (modify fun s => s.mark c (.stuck d) false) :=
        Act.keeps_modify fun s => show SamePipe c e s (s.mark c (.stuck d) false) from rfl
      exact Act.keeps_ite (hmark.bind fun _ => Act.keeps_pure _) (Act.keeps_pure _)

theorem samePipe_splicePipeToSocketFrom (c : Nat) (d : Side) (fuel : Nat) : ∀ movedData : Bool,
    Act.Keeps ok (SamePipe c d.other) (splicePipeToSocketFrom c d fuel movedData) := by
  induction fuel with
  | zero => exact fun _ => Act.keeps_diverge
  | succ fuel ih =>
      intro movedData
      have hfail : Act.Keeps ok (SamePipe c d.other)
          (do touchIf movedData c; pure none : Worker (Option Bool)) :=
        (samePipe_touchIf movedData c d.other).bind fun _ => Act.keeps_pure none
      refine Act.keeps_get.bind fun s => Act.keeps_ite ?_ (Act.keeps_pure _)
      refine (samePipe_spliceOut c d d.other _).bind fun moved => ?_
      rcases moved with err | n
      · cases err with
        | eintr => exact ih movedData
        | eagain => exact Act.keeps_pure _
        | _ => exact hfail
      · cases n with
        | zero => exact hfail
        | succ n =>
            exact (Act.keeps_modify fun s => samePipe_modPipe s c d _).bind fun _ => ih true

theorem samePipe_splicePipeToSocket (c : Nat) (d : Side) :
    Act.Keeps ok (SamePipe c d.other) (splicePipeToSocket c d) := by
  refine (Act.keeps_ask _).bind fun retries => ?_
  refine (samePipe_splicePipeToSocketFrom c d _ false).bind fun r => ?_
  cases r with
  | none => exact Act.keeps_pure _
  | some movedData =>
      refine (samePipe_touchIf movedData c d.other).bind fun _ => Act.keeps_get.bind fun s => ?_
      refine Act.keeps_ite (Act.keeps_pure _) ?_
      rcases (s.conns c).fd d.other with _ | fd
      · exact Act.keeps_pure _
      refine Act.Keeps.bind ((Act.keeps_ask _).bind fun r => ?_) fun done => ?_
      · exact (Act.keeps_modify fun s => samePipe_onSock s c fd d.other _).bind fun _ =>
          Act.keeps_pure _
      · exact Act.keeps_ite
          ((Act.keeps_modify fun s => samePipe_modPipe s c d _).bind fun _ => Act.keeps_pure _)
          (Act.keeps_pure _)

end SamePipe

/-- `flush_relay_pipes` passes on what it can of both. -/
theorem flushRelayPipes_drained (c : Nat) (s : State) : Prog.Sat ok
    (fun s' r => r = none → ∀ d, ((s'.conns c).pipe d).Drained) (flushRelayPipes c s) := by
  refine (splicePipeToSocket_drained c .client s).bind fun s₁ b₁ h₁ => ?_
  cases b₁ with
  | false => exact fun hbad => absurd hbad (by simp)
  | true =>
      refine ((splicePipeToSocket_drained c .upstream s₁).and
        (samePipe_splicePipeToSocket c .upstream s₁)).bind fun s₂ b₂ ⟨h₂, hsame⟩ => ?_
      cases b₂ with
      | false => exact fun hbad => absurd hbad (by simp)
      | true =>
          intro _ d
          cases d with
          | client =>
              have hsame : (s₂.conns c).pipe .client = (s₁.conns c).pipe .client := hsame
              rw [hsame]
              exact h₁ rfl
          | upstream => exact h₂ rfl

/-! ## The relay of one connection -/

/-- `flush_relay_pipes`: the socket that could not be written is the one to blame. -/
theorem flushRelayPipes_sat (h : Relaying s c) (hstuck : ∀ e, StuckOk s c e) : Prog.Sat ok
    (fun s' r => (r = none → Relaying s' c ∧ ∀ e, StuckOk s' c e) ∧
      ∀ e, r = some e → Broken s' c e) (flushRelayPipes c s) := by
  unfold flushRelayPipes
  refine (splicePipeToSocket_sat h hstuck .client).bind fun s₁ b hb => ?_
  cases b with
  | false =>
      refine ⟨fun hbad => absurd hbad (by simp), fun e he => ?_⟩
      obtain rfl : Side.upstream = e := by simpa using he
      exact hb.2 rfl
  | true =>
      obtain ⟨h₁, hst₁⟩ := hb.1 rfl
      refine (splicePipeToSocket_sat h₁ hst₁ .upstream).bind fun s₂ b hb => ?_
      cases b with
      | false =>
          refine ⟨fun hbad => absurd hbad (by simp), fun e he => ?_⟩
          obtain rfl : Side.client = e := by simpa using he
          exact hb.2 rfl
      | true => exact ⟨fun _ => hb.1 rfl, fun e he => absurd he (by simp)⟩

/-- A connection that is in order, in the middle of code that works on it. -/
structure Work (s : State) (c : Nat) : Prop where
  core : Core s c
  unmarked : Unmarked s c
  phase : Phase s c
  clean : Clean s c

theorem Phase.of_kin (h : Phase s c) (hk : Kin c s s')
    (hr : (s'.conns c).response = (s.conns c).response) (hfds : s'.fds = s.fds)
    (hm : ∀ d, s'.marks c (.stuck d) = s.marks c (.stuck d) ∧
      s'.marks c (.finOnly d) = s.marks c (.finOnly d)) : Phase s' c where
  pipe := by rw [hk.stage, hk.pipe]; exact h.pipe
  unread := by rw [hk.stage, (hk.sock _).received]; exact h.unread
  response := by rw [hk.stage, hr, (hk.sock _).received]; exact h.response
  unstuck := fun hst d => by
    rw [hk.stage] at hst
    rw [(hm d).1]
    exact h.unstuck hst d
  flags := fun hst d => by
    rw [hk.stage] at hst
    have hfl := h.flags hst d
    obtain ⟨r, w, content, hh⟩ := hfl.held
    exact ⟨⟨r, w, content, hk.held hh (by rw [hfds]) (by rw [hfds])⟩,
      by rw [hk.pipe, (hk.sock d).eof]; exact hfl.eof,
      by rw [hk.pipe, (hk.sock d.other).shut]; exact hfl.shut,
      by rw [hk.pipe]; exact hfl.last, by rw [hk.pipe]; exact hfl.paused⟩
  stuck := fun hst d => by
    rw [hk.stage] at hst
    exact (h.stuck hst d).congr (hm d).1 (hm d).2 (by rw [hk.pipe])
  awaits := by rw [hk.stage, hk.pipe]; exact h.awaits

/-- A connection that code has worked on: in order, or closed. -/
def Handled (c : Nat) (s : State) : Prop :=
  Work s c ∨ (Sound s ∧ (s.conns c).closing = true)

theorem Broken.reset (h : Broken s c d) : Prog.Sat ok (fun s' _ => Handled c s')
    (resetConnection c d s) :=
  (resetConnection_sat h.core h.unmarked.slipped h.failed fun _ => Or.inl h.stage).mono
    fun _ _ => Or.inr

theorem Relaying.phase (h : Relaying s c) (hstuck : ∀ e, StuckOk s c e)
    (hawaits : ∃ d, ((s.conns c).pipe d).Awaited) : Phase s c where
  pipe := fun hbad => absurd h.stage hbad
  unread := fun hbad => by simp [h.stage] at hbad
  response := fun hbad => by simp [h.stage] at hbad
  unstuck := fun hbad => absurd h.stage hbad
  flags := fun _ => h.flags
  stuck := fun _ => hstuck
  awaits := fun _ => hawaits

/-- A relay that is not complete waits for something once both pipes were emptied as far as they go. -/
theorem Relaying.awaits (h : Relaying s c) (hdrained : ∀ d, ((s.conns c).pipe d).Drained)
    (hc : relayComplete (s.conns c) ≠ true) : ∃ d, ((s.conns c).pipe d).Awaited := by
  by_contra hnone
  have hidle : ∀ d, ((s.conns c).pipe d).complete = true := fun d => by
    have hnot : ¬((s.conns c).pipe d).Awaited := fun ha => hnone ⟨d, ha⟩
    obtain ⟨hwants, hq⟩ := not_or.mp hnot
    have hq : ((s.conns c).pipe d).queued = 0 := Nat.eq_zero_of_not_pos hq
    have hpaused : ((s.conns c).pipe d).inputPaused ≠ true := fun hp => by
      have := (h.flags d).paused hp
      omega
    have heof : ((s.conns c).pipe d).inputEof = true := by
      by_contra hbad
      exact hwants (by simp [SplicePipe.wantsInput, hbad, hpaused])
    simp [SplicePipe.complete, heof, hq, hdrained d heof hq]
  exact hc (by simp [relayComplete, hidle])

/-- Both pipes are over: so are both directions. -/
theorem Relaying.complete (h : Relaying s c) (hc : relayComplete (s.conns c) = true) :
    Complete s c := by
  have hp : ∀ d, ((s.conns c).pipe d).complete = true := fun d => by
    have hc : ((s.conns c).pipe .client).complete = true ∧
        ((s.conns c).pipe .upstream).complete = true := by simpa [relayComplete] using hc
    cases d with
    | client => exact hc.1
    | upstream => exact hc.2
  have hfl : ∀ d, (s.socks c d).eof = true ∧ (s.socks c d.other).shut = true := fun d => by
    have hd : (((s.conns c).pipe d).inputEof = true ∧ ((s.conns c).pipe d).queued = 0) ∧
        ((s.conns c).pipe d).outputShutdown = true := by
      simpa [SplicePipe.complete] using hp d
    refine ⟨(h.flags d).eof hd.1.1, ?_⟩
    rw [← (h.flags d).shut]
    exact hd.2
  intro d
  have hshut := (hfl d.other).2
  rw [Side.other_other] at hshut
  exact ⟨(hfl d).1, (h.core.tidy.shut d (hfl d).2).2, hshut⟩

/-- A complete relay may be closed without a reset. -/
theorem Relaying.history (h : Relaying s c) (hc : Complete s c) : History s c where
  failed := fun d hd => by
    rw [h.clean d] at hd
    simp at hd
  relayed := fun _ => Or.inr (Or.inr (Or.inr hc))
  refused := fun _ hst => absurd h.stage hst

/-- `handle_splice_relay`, when the event is not an error. -/
theorem handleSpliceRelay_sat (h : Relaying s c) (hstuck : ∀ e, StuckOk s c e) (d : Side)
    {events : Bits} (herr : events.err = false) : Prog.Sat ok (fun s' _ => Handled c s')
    (handleSpliceRelay c d events s) := by
  unfold handleSpliceRelay
  refine Act.sat_ite (fun hbad => absurd hbad (by simp [herr])) fun _ => ?_
  have hflush : ∀ {s₁ : State}, Relaying s₁ c → (∀ e, StuckOk s₁ c e) →
      Prog.Sat ok (fun s' _ => Handled c s') (relayFlush c s₁) := by
    intro s₁ h₁ hst₁
    refine ((flushRelayPipes_sat h₁ hst₁).and (flushRelayPipes_drained c s₁)).bind fun s₂ r hr => ?_
    obtain ⟨⟨hnone, hsome⟩, hdrained⟩ := hr
    cases r with
    | some e => exact (hsome e rfl).reset
    | none =>
        obtain ⟨h₂, hst₂⟩ := hnone rfl
        simp only [Act.bind_run, get_run, Prog.ret_bind]
        refine Act.sat_ite (fun hc => ?_) (fun hc => ?_)
        · exact (closeConnection_sat h₂.core (h₂.history (h₂.complete hc))).mono fun _ _ => Or.inr
        · have hawaits := h₂.awaits (hdrained rfl) hc
          exact Or.inl ⟨h₂.core, h₂.unmarked, h₂.phase hst₂ hawaits, h₂.clean⟩
  refine Act.sat_ite (fun _ => ?_) (fun _ => hflush h hstuck)
  refine (spliceSocketToPipe_sat h hstuck d).bind fun s₁ b hb => ?_
  cases b with
  | true =>
      obtain ⟨h₁, hst₁⟩ := hb.1 rfl
      exact hflush h₁ hst₁
  | false => exact (hb.2 rfl).reset

end Bpf2Socks.Tcp

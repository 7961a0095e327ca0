/-
# Bpf2Socks.Tcp.Ending — closing, resetting and freeing keep the invariant.

`closeConnection` takes a standing connection to one that is over; how it may end is settled
before, by `History`.  `resetConnection` makes that true by setting the linger option of the other
socket.  Freeing gives the pipes back: an empty one to the pool, any other to the kernel.
-/
import Bpf2Socks.Tcp.Local

namespace Bpf2Socks.Tcp

open Function (update update_self update_of_ne)
open Lib (Prog Act)
open Udp (Bits)
open Worker

variable {s s' : State} {c fd : Nat} {d : Side}

/-- A connection that can be closed, in the middle of code that works on it. -/
structure Core (s : State) (c : Nat) : Prop where
  others : Others c s
  tidy : Tidy s c
  standing : Standing s c
  unclosed : c ∉ s.closed

/-- A connection whose end has begun. -/
structure Ending (s : State) (c : Nat) : Prop where
  others : Others c s
  tidy : Tidy s c
  closing : (s.conns c).closing = true
  connection : ∀ d, ((s.conns c).ref d).connection = false
  history : History s c

theorem Ending.over (h : Ending s c) (hfd : ∀ d, (s.conns c).fd d = none) : Over s c :=
  ⟨hfd, h.connection, Or.inl h.closing, h.history⟩

theorem Ending.sound (h : Ending s c) (hfd : ∀ d, (s.conns c).fd d = none) : Sound s :=
  h.others.sound ⟨h.tidy, Or.inr (h.over hfd)⟩ fun _ => h.over hfd

/-- Changes of what the invariant does not look at. -/
theorem Ending.alike (h : Ending s c) (ho : Others c s') (ha : s'.accepted = s.accepted)
    (hk : Alike (s'.conns c) (s.conns c)) (hs : s'.socks c = s.socks c)
    (hm : s'.marks c = s.marks c) (hfds : s'.fds = s.fds) : Ending s' c where
  others := ho
  tidy := h.tidy.congr hk hs hm (fun _ => by rw [hfds]) (by rw [hfds]; exact id)
  closing := by rw [hk.closing]; exact h.closing
  connection := by rw [hk.ref]; exact h.connection
  history := h.history.congr hk hs hm (by rw [ha]; exact id)

/-- The end begins. -/
theorem Ending.begin (ho : Others c s) (ht : Tidy s c) (hh : History s c) :
    Ending (s.modConn c Conn.ended) c := by
  have hkin : Kin c s (s.modConn c Conn.ended) :=
    ⟨by rw [modConn_conns]; rfl, by rw [modConn_conns]; rfl, by rw [modConn_conns]; rfl,
      fun d => ⟨rfl, rfl, rfl, rfl, rfl⟩⟩
  refine ⟨ho.modConn _, ?_, by rw [modConn_conns]; rfl, fun d => by rw [modConn_conns]; rfl, ?_⟩
  · refine hkin.tidy ht rfl (fun {d fd} hfd => ?_) (fun d => ?_) (fun _ => rfl) (fun _ => rfl) id
    · rw [modConn_conns] at hfd
      exact ht.sockets hfd
    · rw [modConn_conns]
      exact ht.opened d
  · exact hkin.history hh rfl (fun _ => rfl) (fun _ => rfl) id

theorem Ending.activeRemove (h : Ending s c) : Ending (s.activeRemove c) c := by
  unfold State.activeRemove
  split
  · refine h.alike ?_ rfl ?_ rfl rfl rfl
    · exact (h.others.modConn _).lists _ _ _ _ Or.inl
    · simp only [State.modConn, update_self]
      exact ⟨rfl, rfl, rfl, rfl, rfl, rfl, rfl⟩
  · exact h

theorem releaseTcpSession_sat (h : Ending s c) : Prog.Sat ok
    (fun s' _ => Ending s' c ∧ (s'.conns c).fd = (s.conns c).fd) (releaseTcpSession c s) := by
  unfold releaseTcpSession
  simp only [Act.bind_run, get_run, Prog.ret_bind]
  refine Act.sat_ite (fun _ => ?_) (fun _ => ⟨h, rfl⟩)
  intro _ _
  refine ⟨h.alike (h.others.modConn _) rfl ?_ rfl rfl rfl, by simp⟩
  simp only [modConn_conns]
  exact ⟨rfl, rfl, rfl, rfl, rfl, rfl, rfl⟩

/-- One socket is closed. -/
theorem Ending.closeSocket (h : Ending s c) (hfd : (s.conns c).fd d = some fd) :
    Ending ((s.closeFd fd).modConn c fun k => { k with fd := update k.fd d none }) c := by
  have hsock := h.tidy.sockets hfd
  rw [closeFd_socket hsock]
  have hne : ∀ {e}, s.fds e ≠ some (.socket c d) → e ≠ fd := by
    rintro e hbad rfl
    exact hbad hsock
  -- the history of the socket stays; it is open no more
  have hsame : ∀ e, SockAlike ((s.modSock c d fun k => { k with isOpen := false }).socks c e)
      (s.socks c e) ∧
      ((s.modSock c d fun k => { k with isOpen := false }).socks c e).failed =
        (s.socks c e).failed ∧
      ((s.modSock c d fun k => { k with isOpen := false }).socks c e).linger =
        (s.socks c e).linger := fun e => by
    rcases d.eq_or_other e with rfl | rfl
    · simp only [modSock_self]
      exact ⟨⟨rfl, rfl, rfl, rfl, rfl⟩, trivial, trivial⟩
    · simp only [modSock_other]
      exact ⟨⟨rfl, rfl, rfl, rfl, rfl⟩, trivial, trivial⟩
  have hkin : Kin c s ({ s.modSock c d fun k => { k with isOpen := false } with
      fds := update s.fds fd none, interest := update s.interest fd none }.modConn c
        fun k => { k with fd := update k.fd d none }) :=
    ⟨by simp, by simp, by simp, fun e => (hsame e).1⟩
  have hm : Mine (s.modSock c d fun k => { k with isOpen := false }) c fd :=
    .own (by simp [State.owner, hsock])
  have hnone : pipeOf s.fds fd = none := by simp [pipeOf, hsock]
  have hpipe : pipeOf (update s.fds fd none) = pipeOf s.fds :=
    pipeOf_update hnone (by simp [pipeOf])
  refine ⟨((h.others.modSock d _).unsetFd hm hnone).modConn _, ?_, by simpa using h.closing,
    fun e => by simpa using h.connection e, ?_⟩
  · refine hkin.tidy h.tidy rfl (fun {e fd'} hfd' => ?_) (fun e => ?_) (fun {e fd'} hr => ?_)
      (fun {e fd'} hw => ?_) fun {e fd'} hp => (congrFun hpipe fd').symm.trans hp
    · simp only [modConn_conns, modSock_conns] at hfd'
      have hed : e ≠ d := by
        rintro rfl
        simp at hfd'
      rw [update_of_ne hed] at hfd'
      have hs' := h.tidy.sockets hfd'
      show update s.fds fd none fd' = _
      rw [update_of_ne (hne (by rw [hs']; simpa using hed)), hs']
    · rcases d.eq_or_other e with rfl | rfl
      · simp
      · simpa using h.tidy.opened d.other
    · show update s.fds fd none fd' = _
      refine update_of_ne (hne ?_) ..
      rcases h.tidy.pipes e with hu | ⟨r, w, content, hh⟩
      · simp [hu.readFd] at hr
      · obtain rfl : r = fd' := by simpa [hh.readFd] using hr
        simp [hh.read]
    · show update s.fds fd none fd' = _
      refine update_of_ne (hne ?_) ..
      rcases h.tidy.pipes e with hu | ⟨r, w, content, hh⟩
      · simp [hu.writeFd] at hw
      · obtain rfl : w = fd' := by simpa [hh.writeFd] using hw
        simp [hh.write]
  · exact hkin.history h.history rfl (fun e => (hsame e).2.1) (fun e => (hsame e).2.2) id

theorem closeSide_sat (h : Ending s c) (d : Side) : Prog.Sat ok
    (fun s' _ => Ending s' c ∧ (s'.conns c).fd = update (s.conns c).fd d none)
    (closeSide c d s) := by
  unfold closeSide
  simp only [Act.bind_run, get_run, Prog.ret_bind]
  rcases hfd : (s.conns c).fd d with _ | fd
  · refine ⟨h, ?_⟩
    rw [← hfd, Function.update_eq_self]
  · intro _ _
    refine ⟨h.closeSocket hfd, ?_⟩
    simp only [modConn_conns]
    rw [closeFd_socket (h.tidy.sockets hfd)]
    rfl

/-- `close_connection` of a connection whose end is accounted for. -/
theorem closeConnection_sat (h : Core s c) (hh : History s c) : Prog.Sat ok
    (fun s' _ => Sound s' ∧ (s'.conns c).closing = true) (closeConnection c s) := by
  unfold closeConnection
  simp only [Act.bind_run, get_run, Prog.ret_bind]
  refine Act.sat_ite (fun hc => absurd h.standing.closing (by simp [hc])) (fun _ => ?_)
  refine (releaseTcpSession_sat (Ending.begin h.others h.tidy hh).activeRemove).bind fun s₁ _ ⟨h₁, _⟩ => ?_
  refine (closeSide_sat h₁ .client).bind fun s₂ _ ⟨h₂, hfd₂⟩ => ?_
  refine (closeSide_sat h₂ .upstream).bind fun s₃ _ ⟨h₃, hfd₃⟩ => ?_
  have hnone : ∀ d, (s₃.conns c).fd d = none := fun d => by
    rw [hfd₃, hfd₂]
    cases d <;> simp
  have hend : Ending (s₃.closedAdd c) c :=
    h₃.alike (h₃.others.lists _ _ _ _ fun hmem => by
      rcases List.mem_cons.mp hmem with rfl | hmem
      · exact Or.inr rfl
      · exact Or.inl hmem) rfl (.of_eq rfl) rfl rfl rfl
  exact ⟨hend.sound hnone, h₃.closing⟩

/-! ## Resetting -/

/-- Only one socket of the connection failed. -/
def FailedOnly (s : State) (c : Nat) (d : Side) : Prop :=
  ∀ e, (s.socks c e).failed = true → e = d

/-- Setting an option of a socket, or noting an error of it, changes nothing the connection carries. -/
theorem Kin.modSock {g : Sock → Sock} (hg : ∀ k, SockAlike (g k) k) : Kin c s (s.modSock c d g) :=
  ⟨rfl, rfl, rfl, fun e => by
    rcases d.eq_or_other e with rfl | rfl
    · simpa using hg _
    · simp only [modSock_other]
      exact ⟨rfl, rfl, rfl, rfl, rfl⟩⟩

theorem Tidy.modSock (h : Tidy s c) {g : Sock → Sock}
    (hg : ∀ k, SockAlike (g k) k ∧ (g k).isOpen = k.isOpen) : Tidy (s.modSock c d g) c := by
  refine (Kin.modSock fun k => (hg k).1).tidy h rfl h.sockets (fun e => ?_) (fun _ => rfl)
    (fun _ => rfl) id
  rcases d.eq_or_other e with rfl | rfl
  · rw [modSock_self, (hg _).2]
    exact h.opened _
  · rw [modSock_other]
    exact h.opened _

theorem Core.modSock (h : Core s c) {g : Sock → Sock}
    (hg : ∀ k, SockAlike (g k) k ∧ (g k).isOpen = k.isOpen) : Core (s.modSock c d g) c :=
  ⟨h.others.modSock d g, h.tidy.modSock hg,
    ⟨h.standing.fd, h.standing.closing, h.standing.connection⟩, h.unclosed⟩

/-- `reset_connection`: the side that failed is closed and the other one is reset. -/
theorem resetConnection_sat (h : Core s c) (hslip : ¬Slipped s c) (hf : FailedOnly s c d)
    (hc : d = .client → (s.conns c).stage = .relay ∨ s.marks c .hungUp = true) : Prog.Sat ok
    (fun s' _ => Sound s' ∧ (s'.conns c).closing = true) (resetConnection c d s) := by
  unfold resetConnection
  simp only [Act.bind_run, get_run, Prog.ret_bind]
  refine Act.sat_ite (fun hc => absurd h.standing.closing (by simp [hc])) (fun _ => ?_)
  obtain ⟨fd, hfd, -⟩ := h.standing.fd d.other
  have heq : s.resetOnClose ((s.conns c).fd d.other) =
      s.modSock c d.other fun k => { k with linger := true } := by
    rw [hfd]
    exact onSock_eq (h.tidy.sockets hfd) _
  show Prog.Sat ok _ (closeConnection c (s.resetOnClose ((s.conns c).fd d.other)))
  rw [heq]
  have hg : ∀ k : Sock, SockAlike { k with linger := true } k ∧
      ({ k with linger := true } : Sock).isOpen = k.isOpen :=
    fun _ => ⟨⟨rfl, rfl, rfl, rfl, rfl⟩, rfl⟩
  have hlinger : ((s.modSock c d.other fun k => { k with linger := true }).socks c d.other).linger =
      true := by simp
  refine closeConnection_sat (h.modSock hg) ⟨fun e he => ?_, fun _ => ?_, fun _ hst hhu _ => ?_⟩
  · have hed : e = d := hf e (by
      rcases d.other.eq_or_other e with rfl | rfl
      · simpa using he
      · simpa using he)
    rw [hed]
    exact hlinger
  · exact Or.inr (Or.inr (Or.inl ⟨d.other, hlinger⟩))
  · cases d with
    | client =>
        rcases hc rfl with hrelay | hhung
        · exact absurd hrelay hst
        · exact absurd hhung (by simpa using hhu)
    | upstream => exact iff_of_true hlinger hslip

/-! ## Pipes -/

/-- The descriptors of a connection other than those of one pipe. -/
def Aside (s : State) (c : Nat) (d : Side) (fd : Nat) : Prop :=
  (∃ e, (s.conns c).fd e = some fd) ∨ ((s.conns c).pipe d.other).readFd = some fd ∨
    ((s.conns c).pipe d.other).writeFd = some fd

/-- They are not the two ends of that pipe. -/
theorem Tidy.aside_ne (h : Tidy s c) {r w e : Nat} {content : List (Nat × UInt8)}
    (hh : Held s c d r w content) (ha : Aside s c d e) : e ≠ r ∧ e ≠ w := by
  have hrd := hh.read
  have hwd := hh.write
  rcases ha with ⟨e', he⟩ | he | he
  · have hs := h.sockets he
    constructor <;> rintro rfl <;> simp_all
  · rcases h.pipes d.other with hu | ⟨r', w', content', hh'⟩
    · simp [hu.readFd] at he
    · obtain rfl : r' = e := by simpa [hh'.readFd] using he
      have hr' := hh'.read
      constructor
      · rintro rfl
        rw [hr'] at hrd
        simp at hrd
      · rintro rfl
        rw [hr'] at hwd
        simp at hwd
  · rcases h.pipes d.other with hu | ⟨r', w', content', hh'⟩
    · simp [hu.writeFd] at he
    · obtain rfl : w' = e := by simpa [hh'.writeFd] using he
      have hw' := hh'.write
      have hr' := hh'.read
      constructor
      · rintro rfl
        rw [hw'] at hrd
        simp at hrd
      · rintro rfl
        obtain rfl : r' = r := by
          rw [hw'] at hwd
          simpa using hwd
        rw [hr'] at hrd
        simp at hrd

/-- A pipe has one write end. -/
theorem Tidy.write_eq (h : Tidy s c) {r w e : Nat} {content : List (Nat × UInt8)}
    (hh : Held s c d r w content) (he : s.fds e = some (.pipeWrite r)) : e = w := by
  rcases h.named (pipeOf_write he hh.read) with hr | hw
  · obtain rfl : r = e := by simpa [hh.readFd] using hr
    rw [hh.read] at he
    simp at he
  · exact (by simpa [hh.writeFd] using hw : w = e).symm

/-- What a connection carries does not depend on its descriptors. -/
theorem flows_eq (hst : (s'.conns c).stage = (s.conns c).stage)
    (hexp : (s'.conns c).responseExpected = (s.conns c).responseExpected)
    (hs : s'.socks c = s.socks c) : inflow s' c = inflow s c ∧ outflow s' c = outflow s c := by
  constructor
  · funext e
    cases e <;> simp only [inflow, early, hst, hexp, hs]
  · funext e
    simp only [outflow, hs]

/-- A change of one pipe of a connection. -/
theorem Tidy.repipe (h : Tidy s c) (hfd : (s'.conns c).fd = (s.conns c).fd)
    (hst : (s'.conns c).stage = (s.conns c).stage)
    (hexp : (s'.conns c).responseExpected = (s.conns c).responseExpected)
    (hs : s'.socks c = s.socks c) (hm : s'.marks c .repliesFull = s.marks c .repliesFull)
    (ho : (s'.conns c).pipe d.other = (s.conns c).pipe d.other)
    (hfds : ∀ {fd}, Aside s c d fd → s'.fds fd = s.fds fd)
    (hd : Unheld s' c d ∨ ∃ r w content, Held s' c d r w content)
    (haside : ∀ {fd}, pipeOf s'.fds fd = some (some (c, d.other)) →
      pipeOf s.fds fd = some (some (c, d.other)))
    (hnamed : ∀ {fd}, pipeOf s'.fds fd = some (some (c, d)) →
      ((s'.conns c).pipe d).readFd = some fd ∨ ((s'.conns c).pipe d).writeFd = some fd) :
    Tidy s' c := by
  obtain ⟨hin, hout⟩ := flows_eq hst hexp hs
  refine ⟨fun {e fd} he => ?_, by rw [hfd, hs]; exact h.opened, fun e => ?_, fun {e fd} hp => ?_,
    by rw [hs]; exact h.tags, by rw [hs, hin, hout]; exact h.shut, by rw [hst, hs]; exact h.before,
    by rw [hst, hexp, hs]; exact h.replies, by rw [hm]; exact h.room⟩
  · rw [hfd] at he
    rw [hfds (Or.inl ⟨e, he⟩)]
    exact h.sockets he
  · rcases d.eq_or_other e with rfl | rfl
    · exact hd
    rcases h.pipes d.other with hu | ⟨r, w, content, hh⟩
    · exact Or.inl ⟨by rw [ho]; exact hu.readFd, by rw [ho]; exact hu.writeFd,
        by rw [ho]; exact hu.queued, by rw [hin, hout]; exact hu.flow⟩
    · exact Or.inr ⟨r, w, content, by rw [ho]; exact hh.readFd, by rw [ho]; exact hh.writeFd,
        by rw [hfds (Or.inr (Or.inl hh.readFd))]; exact hh.read,
        by rw [hfds (Or.inr (Or.inr hh.writeFd))]; exact hh.write, by rw [ho]; exact hh.queued,
        hh.tags, by rw [hin, hout]; exact hh.flow⟩
  · rcases d.eq_or_other e with rfl | rfl
    · exact hnamed hp
    · rw [ho]
      exact h.named (haside hp)

section fields

variable (s : State) (c : Nat) (d : Side) (p : SplicePipe → SplicePipe)

@[simp] theorem modPipe_pipe : ((s.modPipe c d p).conns c).pipe d = p ((s.conns c).pipe d) := by
  simp [State.modPipe, Conn.modPipe]
@[simp] theorem modPipe_other :
    ((s.modPipe c d p).conns c).pipe d.other = (s.conns c).pipe d.other := by
  simp [State.modPipe, Conn.modPipe]
@[simp] theorem modPipe_fd : ((s.modPipe c d p).conns c).fd = (s.conns c).fd := by
  simp [State.modPipe, Conn.modPipe]
@[simp] theorem modPipe_stage : ((s.modPipe c d p).conns c).stage = (s.conns c).stage := by
  simp [State.modPipe, Conn.modPipe]
@[simp] theorem modPipe_closing : ((s.modPipe c d p).conns c).closing = (s.conns c).closing := by
  simp [State.modPipe, Conn.modPipe]
@[simp] theorem modPipe_ref : ((s.modPipe c d p).conns c).ref = (s.conns c).ref := by
  simp [State.modPipe, Conn.modPipe]
@[simp] theorem modPipe_response :
    ((s.modPipe c d p).conns c).response = (s.conns c).response := by
  simp [State.modPipe, Conn.modPipe]
@[simp] theorem modPipe_responseExpected :
    ((s.modPipe c d p).conns c).responseExpected = (s.conns c).responseExpected := by
  simp [State.modPipe, Conn.modPipe]
@[simp] theorem modPipe_socks : (s.modPipe c d p).socks = s.socks := rfl
@[simp] theorem modPipe_marks : (s.modPipe c d p).marks = s.marks := rfl
@[simp] theorem modPipe_fds : (s.modPipe c d p).fds = s.fds := rfl
@[simp] theorem modPipe_interest : (s.modPipe c d p).interest = s.interest := rfl

end fields

/-- A pipe is given up together with its descriptors. -/
theorem Tidy.modPipe (h : Tidy s c) (hk : s'.conns = s.conns) (hs : s'.socks = s.socks)
    (hm : s'.marks = s.marks) (hfds : ∀ {fd}, Aside s c d fd → s'.fds fd = s.fds fd)
    (p : SplicePipe → SplicePipe) (hd : Unheld (s'.modPipe c d p) c d)
    (haside : ∀ {fd}, pipeOf s'.fds fd = some (some (c, d.other)) →
      pipeOf s.fds fd = some (some (c, d.other)))
    (hnone : ∀ fd, pipeOf s'.fds fd ≠ some (some (c, d))) : Tidy (s'.modPipe c d p) c :=
  h.repipe (by rw [modPipe_fd, hk]) (by rw [modPipe_stage, hk])
    (by rw [modPipe_responseExpected, hk]) (by rw [modPipe_socks, hs])
    (by rw [modPipe_marks, hm]) (by rw [modPipe_other, hk]) hfds (Or.inl hd) haside
    fun hp => absurd hp (hnone _)

theorem flows_modPipe (hk : s'.conns = s.conns) (hs : s'.socks = s.socks)
    (p : SplicePipe → SplicePipe) :
    inflow (s'.modPipe c d p) c = inflow s c ∧ outflow (s'.modPipe c d p) c = outflow s c :=
  flows_eq (by rw [modPipe_stage, hk]) (by rw [modPipe_responseExpected, hk])
    (by rw [modPipe_socks, hs])

/-- The pool changes together with descriptors that other connections do not name. -/
theorem Others.exchange (h : Others c s) {fds : Nat → Option Desc} {pool : List PoolPair}
    (hh : House { s with fds, pool })
    (hfds : ∀ {c' fd}, c' ≠ c → Names s c' fd → fds fd = s.fds fd)
    (hnamed : ∀ {c' d fd}, c' ≠ c → pipeOf fds fd = some (some (c', d)) →
      pipeOf s.fds fd = some (some (c', d))) : Others c { s with fds, pool } where
  born := h.born
  house := hh
  good := fun hne => Good.congr (s := s) (.of_eq rfl) rfl rfl (h.good hne) rfl id
    (fun hn => hfds hne hn) (fun _ => rfl) (hnamed hne)
  unborn := fun hn => ⟨(h.unborn hn).conn, (h.unborn hn).socks, (h.unborn hn).marks⟩
  closed := fun hc => ⟨(h.closed hc).1, fun hne =>
    Over.congr (s := s) (.of_eq rfl) rfl rfl ((h.closed hc).2 hne) rfl id⟩

/-- A pair changes hands at its read end. -/
theorem House.setRead (h : House s) {r : Nat} {holder holder' : Option (Nat × Side)}
    {content content' : List (Nat × UInt8)} (hr : s.fds r = some (.pipeRead holder content))
    {pool : List PoolPair}
    (hp : PoolOk { s with fds := update s.fds r (some (.pipeRead holder' content')), pool })
    (hpooled : ∀ {fd}, pipeOf (update s.fds r (some (.pipeRead holder' content'))) fd = some none →
      ∃ p ∈ pool, fd = p.readFd ∨ fd = p.writeFd) :
    House { s with fds := update s.fds r (some (.pipeRead holder' content')), pool } := by
  have hkeep : ∀ {e : Nat} {x : Desc}, s.fds e = some x → (∀ o l, x ≠ .pipeRead o l) →
      update s.fds r (some (.pipeRead holder' content')) e = some x := by
    intro e x he hx
    have hne : e ≠ r := by
      rintro rfl
      exact hx _ _ (Option.some.inj (he.symm.trans hr))
    exact (update_of_ne hne ..).trans he
  refine ⟨hp, hpooled, hkeep h.listener4 (by simp), fun he => hkeep (h.listener6 he) (by simp),
    fun he => hkeep (h.spare he) (by simp), fun {e} hnone => ?_⟩
  by_cases he : e = r
  · have hnone : update s.fds r (some (.pipeRead holder' content')) e = none := hnone
    rw [he, update_self] at hnone
    cases hnone
  · exact h.quiet ((update_of_ne he ..).symm.trans hnone)

/-- A pair of the pool has one write end. -/
theorem House.write_eq (h : House s) {p : PoolPair} {e : Nat} (hp : p ∈ s.pool)
    (he : s.fds e = some (.pipeWrite p.readFd)) : e = p.writeFd := by
  obtain ⟨q, hq, hfd⟩ := h.pooled (pipeOf_write he (h.pool.empty p hp).1)
  obtain ⟨hread, hwrite⟩ := h.pool.empty q hq
  rcases hfd with rfl | rfl
  · cases he.symm.trans hread
  · have hpq : p.readFd = q.readFd := by simpa using he.symm.trans hwrite
    rw [List.inj_on_of_nodup_map h.pool.nodup hp hq hpq]

/-- A write end has its read end. -/
theorem House.read_used (h : House s) {r e : Nat} (he : s.fds e = some (.pipeWrite r)) :
    s.fds r ≠ none := by
  intro hr
  have hnone : pipeOf s.fds e = some none := by simp only [pipeOf, he, hr, holderOf]
  obtain ⟨q, hq, hfd⟩ := h.pooled hnone
  obtain ⟨hread, hwrite⟩ := h.pool.empty q hq
  rcases hfd with rfl | rfl
  · cases he.symm.trans hread
  · obtain rfl : r = q.readFd := by simpa using he.symm.trans hwrite
    cases hr.symm.trans hread

/-- `close_splice_pipe` of a pipe that is not there. -/
theorem closeSplicePipe_unheld (hr : ((s.conns c).pipe d).readFd = none)
    (hw : ((s.conns c).pipe d).writeFd = none) :
    s.closeSplicePipe c d = s.modPipe c d SplicePipe.closed := by
  simp only [State.closeSplicePipe, hr, hw, State.closeOpt]

/-- `close_splice_pipe` of a pipe that is. -/
theorem Held.closeSplicePipe {r w : Nat} {content : List (Nat × UInt8)}
    (h : Held s c d r w content) :
    s.closeSplicePipe c d =
      { s with
        fds := update (update s.fds r none) w none
        interest := update (update s.interest r none) w none }.modPipe c d SplicePipe.closed := by
  have hr : s.closeFd r = { s with fds := update s.fds r none
                                   interest := update s.interest r none } :=
    closeFd_other fun n e => by simp [h.read]
  have hw : (s.closeFd r).closeFd w = { s with
      fds := update (update s.fds r none) w none
      interest := update (update s.interest r none) w none } := by
    rw [hr]
    refine closeFd_other fun n e => ?_
    show update s.fds r none w ≠ _
    rw [update_of_ne h.ne, h.write]
    simp
  simp only [State.closeSplicePipe, h.readFd, h.writeFd, State.closeOpt, hw]

theorem Held.others_close {r w : Nat} {content : List (Nat × UInt8)}
    (h : Held s c d r w content) (ho : Others c s) (ht : Tidy s c) :
    Others c { s with
      fds := update (update s.fds r none) w none
      interest := update (update s.interest r none) w none } := by
  have hr : Mine s c r := .own (by simp [State.owner, h.read])
  have hw : Mine s c w := .own (by simp [State.owner, h.write, h.read])
  have hupd : ∀ {α : Type} (t : Nat → Option α) (e : Nat),
      update (update t r none) w none e = t e ∨ Mine s c e := fun t e => by
    by_cases hew : e = w
    · exact Or.inr (hew ▸ hw)
    by_cases her : e = r
    · exact Or.inr (her ▸ hr)
    · exact Or.inl (by rw [update_of_ne hew, update_of_ne her])
  refine ho.congr
    { cfg := rfl, conns := fun _ => rfl, socks := fun _ => rfl, marks := fun _ => rfl
      fds := hupd s.fds, interest := hupd s.interest
      pipes := fun e => (pipeOf_close h.write (ht.write_eq h) e).imp And.left Or.inl
      quiet := fun {e} hnone => ?_
      pool := rfl, accepted := rfl, closed := Or.inl, spareFd := rfl }
  by_cases hew : e = w
  · exact Or.inl (by rw [hew]; exact update_self ..)
  by_cases her : e = r
  · refine Or.inl ?_
    show update (update s.interest r none) w none e = none
    rw [update_of_ne hew, her, update_self]
  · have hnone : update (update s.fds r none) w none e = none := hnone
    rw [update_of_ne hew, update_of_ne her] at hnone
    refine Or.inr ⟨hnone, ?_⟩
    show update (update s.interest r none) w none e = _
    rw [update_of_ne hew, update_of_ne her]

/-- What closing or releasing a pipe does to its connection: only that pipe changes. -/
structure Dropped (c : Nat) (d : Side) (s s' : State) : Prop where
  others : Others c s'
  tidy : Tidy s' c
  unheld : Unheld s' c d
  conns : ∀ {c'}, c' ≠ c → s'.conns c' = s.conns c'
  fd : (s'.conns c).fd = (s.conns c).fd
  stage : (s'.conns c).stage = (s.conns c).stage
  closing : (s'.conns c).closing = (s.conns c).closing
  ref : (s'.conns c).ref = (s.conns c).ref
  responseExpected : (s'.conns c).responseExpected = (s.conns c).responseExpected
  socks : s'.socks = s.socks
  marks : s'.marks = s.marks
  accepted : s'.accepted = s.accepted
  closed : s'.closed = s.closed
  interest : ∀ {e fd}, (s.conns c).fd e = some fd → s'.interest fd = s.interest fd

theorem unheld_modPipe (hk : s'.conns = s.conns) (hs : s'.socks = s.socks)
    {p : SplicePipe → SplicePipe} (hr : (p ((s.conns c).pipe d)).readFd = none)
    (hw : (p ((s.conns c).pipe d)).writeFd = none) (hq : (p ((s.conns c).pipe d)).queued = 0)
    (hflow : outflow s c d <+: inflow s c d) : Unheld (s'.modPipe c d p) c d := by
  obtain ⟨hin, hout⟩ := flows_modPipe (c := c) (d := d) hk hs p
  rw [← hk] at hr hw hq
  refine ⟨by rw [modPipe_pipe, hr], by rw [modPipe_pipe, hw], by rw [modPipe_pipe, hq], ?_⟩
  rw [hin, hout]
  exact hflow

theorem Others.closeSplicePipe (ho : Others c s) (h : Tidy s c) (d : Side) :
    Dropped c d s (s.closeSplicePipe c d) := by
  rcases h.pipes d with hu | ⟨r, w, content, hh⟩
  · rw [closeSplicePipe_unheld hu.readFd hu.writeFd]
    have hun : Unheld (s.modPipe c d SplicePipe.closed) c d := 
      unheld_modPipe rfl rfl rfl rfl rfl hu.flow
    have hnone : ∀ fd, pipeOf s.fds fd ≠ some (some (c, d)) := fun fd hp => by
      have hname := h.named hp
      simp [hu.readFd, hu.writeFd] at hname
    exact ⟨ho.modConn _, h.modPipe rfl rfl rfl (fun _ => rfl) _ hun id hnone, hun,
      fun hne => update_of_ne hne .., by simp, by simp, by simp, by simp, by simp, rfl, rfl, rfl, rfl, fun _ => rfl⟩
  · rw [hh.closeSplicePipe]
    have hflow : outflow s c d <+: inflow s c d := by
      rw [hh.flow]
      exact List.prefix_append ..
    have hun : Unheld ({ s with
        fds := update (update s.fds r none) w none
        interest := update (update s.interest r none) w none }.modPipe c d SplicePipe.closed) c d := by
      refine unheld_modPipe (s := s) ?_ ?_ ?_ ?_ ?_ hflow
      all_goals rfl
    have hclose := pipeOf_close hh.write (h.write_eq hh)
    refine ⟨(hh.others_close ho h).modConn _, ?_, hun, fun hne => update_of_ne hne .., by simp, by simp, by simp, by simp, by simp,
      rfl, rfl, rfl, rfl, fun {e fd} hfd => ?_⟩
    · refine h.modPipe ?_ ?_ ?_ (fun {fd} ha => ?_) _ hun (fun {fd} hp => ?_) fun fd hp => ?_
      · rfl
      · rfl
      · rfl
      · obtain ⟨hr, hw⟩ := h.aside_ne hh ha
        show update (update s.fds r none) w none fd = _
        rw [update_of_ne hw, update_of_ne hr]
      · rcases hclose fd with ⟨heq, -⟩ | hnone
        · exact heq.symm.trans hp
        · cases hnone.symm.trans hp
      · -- the two ends were all that was of this direction
        rcases hclose fd with ⟨heq, hr, hw⟩ | hnone
        · have hname := h.named (heq.symm.trans hp)
          rw [hh.readFd, hh.writeFd, Option.some.injEq, Option.some.injEq] at hname
          exact hname.elim (fun he => hr he.symm) fun he => hw he.symm
        · cases hnone.symm.trans hp
    · obtain ⟨hr, hw⟩ := h.aside_ne hh (Or.inl ⟨e, hfd⟩)
      show update (update s.interest r none) w none fd = _
      rw [update_of_ne hw, update_of_ne hr]

theorem Dropped.trans {s₁ s₂ : State} (h : Dropped c d s s₁) (h' : Dropped c d s₁ s₂) :
    Dropped c d s s₂ where
  others := h'.others
  tidy := h'.tidy
  unheld := h'.unheld
  conns := fun hne => (h'.conns hne).trans (h.conns hne)
  fd := h'.fd.trans h.fd
  stage := h'.stage.trans h.stage
  closing := h'.closing.trans h.closing
  ref := h'.ref.trans h.ref
  responseExpected := h'.responseExpected.trans h.responseExpected
  socks := h'.socks.trans h.socks
  marks := h'.marks.trans h.marks
  accepted := h'.accepted.trans h.accepted
  closed := h'.closed.trans h.closed
  interest := fun hfd => (h'.interest (by rw [h.fd]; exact hfd)).trans (h.interest hfd)

/-- An empty pipe goes back to the pool. -/
theorem Held.pool {r w cap : Nat} (h : Held s c d r w []) (ho : Others c s) (ht : Tidy s c)
    (hlen : s.pool.length < tcpPipePoolCap) :
    Others c { s with
      fds := update s.fds r (some (.pipeRead none []))
      pool := ⟨r, w, cap⟩ :: s.pool } := by
  have hr : Mine s c r := .own (by simp [State.owner, h.read])
  have hpool := ho.house.pool
  refine ho.exchange (ho.house.setRead h.read ⟨hlen, ?_, fun p hp => ?_⟩ fun {e} he => ?_)
    (fun hne hn => update_of_ne ?_ ..) fun {c' d' e} _ he => ?_
  · refine List.nodup_cons.mpr ⟨fun hmem => ?_, hpool.nodup⟩
    obtain ⟨p, hp, rfl⟩ := List.mem_map.mp hmem
    have := (hpool.empty p hp).1.symm.trans h.read
    simp at this
  · show update s.fds r _ _ = _ ∧ update s.fds r _ _ = _
    rcases List.mem_cons.mp hp with rfl | hp
    · rw [update_self, update_of_ne h.ne]
      exact ⟨rfl, h.write⟩
    · obtain ⟨hpr, hpw⟩ := hpool.empty p hp
      have hner : p.readFd ≠ r := by
        rintro rfl
        have := hpr.symm.trans h.read
        simp at this
      have hnew : p.writeFd ≠ r := by
        rintro rfl
        have := hpw.symm.trans h.read
        simp at this
      rw [update_of_ne hner, update_of_ne hnew]
      exact ⟨hpr, hpw⟩
  · rcases pipeOf_setRead r none [] e with heq | ⟨-, rfl | hw⟩
    · obtain ⟨p, hp, hfd⟩ := ho.house.pooled (heq.symm.trans he)
      exact ⟨p, List.mem_cons_of_mem _ hp, hfd⟩
    · exact ⟨_, List.mem_cons_self, .inl rfl⟩
    · exact ⟨_, List.mem_cons_self, .inr (ht.write_eq h hw)⟩
  · rintro rfl
    exact (ho.good hne).tidy.not_mine hne hn hr
  · rcases pipeOf_setRead r none [] e with heq | ⟨hnone, -⟩
    · exact heq.symm.trans he
    · cases hnone.symm.trans he

theorem Others.poolPut (ho : Others c s) (h : Tidy s c) (d : Side) :
    s.poolPut c d = s ∨ Dropped c d s (s.poolPut c d) := by
  rcases h.pipes d with hu | ⟨r, w, content, hh⟩
  · left
    simp only [State.poolPut, hu.readFd]
  simp only [State.poolPut, hh.readFd, hh.writeFd]
  split
  · rename_i hcond
    right
    obtain rfl : content = [] := List.eq_nil_of_length_eq_zero (hh.queued.trans hcond.1)
    have heq : { s with pool := ⟨r, w, ((s.conns c).pipe d).capacity⟩ :: s.pool }.hold r none =
        { s with
          fds := update s.fds r (some (.pipeRead none []))
          pool := ⟨r, w, ((s.conns c).pipe d).capacity⟩ :: s.pool } := by
      simp only [State.hold, hh.read]
    rw [heq]
    have hflow : outflow s c d <+: inflow s c d := by
      rw [hh.flow]
      exact List.prefix_append ..
    have hun : Unheld ({ s with
        fds := update s.fds r (some (.pipeRead none []))
        pool := ⟨r, w, ((s.conns c).pipe d).capacity⟩ :: s.pool }.modPipe c d
          fun p => { p with readFd := none, writeFd := none }) c d := by
      refine unheld_modPipe (s := s) ?_ ?_ ?_ ?_ hcond.1 hflow
      all_goals rfl
    have hset := @pipeOf_setRead s.fds r none []
    refine ⟨(hh.pool ho h hcond.2).modConn _, ?_, hun, fun hne => update_of_ne hne .., by simp, by simp, by simp, by simp, by simp, rfl,
      rfl, rfl, rfl, fun _ => rfl⟩
    refine h.modPipe ?_ ?_ ?_ (fun {fd} ha => ?_) _ hun (fun {fd} hp => ?_) fun fd hp => ?_
    · rfl
    · rfl
    · rfl
    · exact update_of_ne (h.aside_ne hh ha).1 ..
    · rcases hset fd with heq | ⟨hnone, -⟩
      · exact heq.symm.trans hp
      · cases hnone.symm.trans hp
    · rcases hset fd with heq | ⟨hnone, -⟩
      · have hname := h.named (heq.symm.trans hp)
        rw [hh.readFd, hh.writeFd, Option.some.injEq, Option.some.injEq] at hname
        rcases hname with rfl | rfl
        · cases (pipeOf_read (update_self ..)).symm.trans hp
        · cases (pipeOf_write ((update_of_ne hh.ne ..).trans hh.write) (update_self ..)).symm.trans hp
      · cases hnone.symm.trans hp
  · exact Or.inl rfl

/-- `release_splice_pipe`. -/
theorem Others.releaseSplicePipe (ho : Others c s) (h : Tidy s c) (d : Side) :
    Dropped c d s (s.releaseSplicePipe c d) := by
  unfold State.releaseSplicePipe
  rcases ho.poolPut h d with heq | hd
  · rw [heq]
    exact ho.closeSplicePipe h d
  · exact hd.trans (hd.others.closeSplicePipe hd.tidy d)

/-! ## Freeing -/

theorem Ending.dropped (h : Ending s c) (hd : Dropped c d s s') : Ending s' c := by
  have hs : s'.socks c = s.socks c := by rw [hd.socks]
  refine ⟨hd.others, hd.tidy, by rw [hd.closing]; exact h.closing,
    by rw [hd.ref]; exact h.connection, ?_⟩
  obtain ⟨hin, hout⟩ := flows_eq hd.stage hd.responseExpected hs
  exact
    { failed := by rw [hs]; exact h.history.failed
      relayed := by
        unfold Complete
        rw [hd.stage, hs, hd.marks, hin, hout]
        exact h.history.relayed
      refused := by
        unfold Slipped
        rw [hd.accepted, hd.stage, hs, hd.marks]
        exact h.history.refused }

theorem closeOpt_modConn (f : Conn → Conn) (o : Option Nat) :
    (s.modConn c f).closeOpt o = (s.closeOpt o).modConn c f := by
  cases o with
  | none => rfl
  | some fd =>
      simp only [State.closeOpt, State.closeFd, State.onSock, modConn_fds, modConn_interest]
      split <;> rfl

theorem modConn_modConn (f g : Conn → Conn) :
    (s.modConn c f).modConn c g = s.modConn c fun k => g (f k) := by
  simp [State.modConn]

/-- `bpf2socks_close_fd` of one socket of a connection. -/
theorem Ending.closeOpt (h : Ending s c) (d : Side) :
    Ending ((s.closeOpt ((s.conns c).fd d)).modConn c fun k =>
      { k with fd := update k.fd d none }) c := by
  rcases hfd : (s.conns c).fd d with _ | fd
  · refine h.alike (h.others.modConn _) rfl ?_ rfl rfl rfl
    simp only [State.closeOpt, modConn_conns]
    refine ⟨?_, rfl, rfl, rfl, rfl, rfl, rfl⟩
    rw [← hfd, Function.update_eq_self]
  · exact h.closeSocket hfd

@[simp] theorem closeOpt_conns (o : Option Nat) : (s.closeOpt o).conns = s.conns := by
  cases o with
  | none => rfl
  | some fd =>
      simp only [State.closeOpt, State.closeFd, State.onSock]
      split <;> rfl

/-- The sockets of a connection are closed. -/
theorem Ending.closeSockets (ho : Others c s) (ht : Tidy s c) (hh : History s c) :
    Ending (s.closeSockets c) c ∧ ∀ d, ((s.closeSockets c).conns c).fd d = none := by
  have h := ((Ending.begin ho ht hh).closeOpt .client).closeOpt .upstream
  simp only [modConn_conns, closeOpt_modConn, modConn_modConn, closeOpt_conns] at h
  have heq : s.closeSockets c =
      ((s.closeOpt ((s.conns c).fd .client)).closeOpt ((s.conns c).fd .upstream)).modConn c
        fun k => { k.ended with fd := update (update k.fd .client none) .upstream none } := by
    have hnone : ∀ f : Side → Option Nat,
        update (update f .client none) .upstream none = fun _ => none := fun f => by
      funext d
      cases d <;> simp
    unfold State.closeSockets
    simp only [hnone]
  refine ⟨?_, fun d => ?_⟩
  · rw [heq]
    exact h
  · simp only [State.closeSockets, modConn_conns]

/-- `free_connection`, of a connection that is closed or was never registered. -/
theorem freeConnection_ending (ho : Others c s) (ht : Tidy s c) (hh : History s c) :
    Ending (s.freeConnection c) c ∧ ∀ d, ((s.freeConnection c).conns c).fd d = none := by
  obtain ⟨h, hfd⟩ := Ending.closeSockets ho ht hh
  have h₁ := h.others.releaseSplicePipe h.tidy .client
  have h₂ := h₁.others.releaseSplicePipe h₁.tidy .upstream
  refine ⟨(h.dropped h₁).dropped h₂, fun d => ?_⟩
  rw [State.freeConnection, h₂.fd, h₁.fd]
  exact hfd d

/-- Freeing a connection that is over leaves every other one as it is. -/
theorem Over.freeConnection (h : Sound s) (hc : c < s.accepted) (ho : Over s c) :
    Sound (s.freeConnection c) ∧ (s.freeConnection c).accepted = s.accepted ∧
      ∀ {c'}, Over s c' → Over (s.freeConnection c) c' := by
  have hoth := h.others hc
  have ht := (h.good c).tidy
  obtain ⟨hend, hfd⟩ := freeConnection_ending hoth ht ho.history
  have hsockets : s.closeSockets c = s.modConn c fun k => { k.ended with fd := fun _ => none } := by
    simp only [State.closeSockets, ho.fd, State.closeOpt]
  obtain ⟨h₀, -⟩ := Ending.closeSockets hoth ht ho.history
  have h₁ := h₀.others.releaseSplicePipe h₀.tidy .client
  have h₂ := h₁.others.releaseSplicePipe h₁.tidy .upstream
  have hacc : (s.freeConnection c).accepted = s.accepted := by
    rw [State.freeConnection, h₂.accepted, h₁.accepted, hsockets]
    rfl
  refine ⟨hend.sound hfd, hacc, fun {c'} ho' => ?_⟩
  by_cases hne : c' = c
  · subst hne
    exact hend.over hfd
  · have hconn : (s.freeConnection c).conns c' = s.conns c' := by
      rw [State.freeConnection, h₂.conns hne, h₁.conns hne, hsockets]
      exact update_of_ne hne ..
    refine ho'.congr (.of_eq hconn) ?_ ?_ (by rw [hconn]) (by rw [hacc]; exact id)
    · rw [State.freeConnection, h₂.socks, h₁.socks, hsockets]
      rfl
    · rw [State.freeConnection, h₂.marks, h₁.marks, hsockets]
      rfl

theorem freeConnections_sound (l : List Nat) (h : Sound s)
    (hl : ∀ c ∈ l, c < s.accepted ∧ Over s c) : Sound (l.foldl State.freeConnection s) := by
  induction l generalizing s with
  | nil => exact h
  | cons c l ih =>
      obtain ⟨hc, ho⟩ := hl c List.mem_cons_self
      obtain ⟨hs, hacc, hover⟩ := ho.freeConnection h hc
      refine ih hs fun c' hc' => ?_
      obtain ⟨hb, ho'⟩ := hl c' (List.mem_cons_of_mem _ hc')
      exact ⟨by rw [hacc]; exact hb, hover ho'⟩

/-- `free_closed_connections`. -/
theorem Sound.freeClosedConnections (h : Sound s) : Sound s.freeClosedConnections := by
  unfold State.freeClosedConnections
  have hrest : Rest s { s with
      closed := []
      listenersResumeMs :=
        if s.closed ≠ [] ∧ s.listenersPaused then 0 else s.listenersResumeMs } :=
    ⟨rfl, rfl, rfl, rfl, rfl, rfl, rfl, rfl, fun h => absurd h List.not_mem_nil, rfl⟩
  refine freeConnections_sound _ (h.rest hrest) fun c hc => ?_
  obtain ⟨hb, ho⟩ := h.closed hc
  exact ⟨hb, Over.congr (s := s) (.of_eq rfl) rfl rfl ho rfl id⟩

end Bpf2Socks.Tcp

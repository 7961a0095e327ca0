/-
# Bpf2Socks.Tcp.Shaking — the handshake keeps the invariant.

Before the relay a connection carries nothing, so most of the invariant is about its sockets.  Two
things are kept on the way: the response buffer holds what was received, and its bytes leave room
in it as long as they are not complete.  At the end the two pipes are opened, the payload that came
with the replies is put into one of them, and the relay starts with every byte accounted for.
-/
import Bpf2Socks.Tcp.Splicing

namespace Bpf2Socks.Tcp

open Function (update update_self update_of_ne)
open Lib (Prog Act)
open Udp (Bits socks5ReplyLength)
open Worker

variable {s s' : State} {c fd : Nat} {d : Side}

/-- A connection before the relay whose upstream is given up. -/
structure Doomed (s : State) (c : Nat) : Prop where
  core : Core s c
  unmarked : Unmarked s c
  failed : FailedOnly s c .upstream

theorem Doomed.reset (h : Doomed s c) : Prog.Sat ok (fun s' _ => Handled c s')
    (resetConnection c .upstream s) :=
  (resetConnection_sat h.core h.unmarked.slipped h.failed fun hbad => absurd hbad (by simp)).mono
    fun _ _ => Or.inr

theorem Work.doomed (h : Work s c) : Doomed s c :=
  ⟨h.core, h.unmarked, fun e he => by
    rw [h.clean e] at he
    simp at he⟩

/-! ## Room in the response buffer -/

/-- A reply whose length is known is at most as long as one with the longest name. -/
theorem socks5ReplyLength_le {reply : List UInt8} {n : Nat} (h : socks5ReplyLength reply = some n) :
    n ≤ 4 + 1 + 255 + 2 := by
  unfold socks5ReplyLength at h
  split at h
  · simp at h
  split at h
  · simp at h
    omega
  split at h
  · simp at h
    omega
  · simp at h
    omega
  · rename_i b _ _
    have := b.toNat_lt
    simp at h
    omega
  · simp at h
    omega
  · simp at h

/-- A reply of at least five bytes has a length or is refused. -/
theorem socks5ReplyLength_pos {reply : List UInt8} (h : socks5ReplyLength reply = some 0) :
    reply.length < 5 := by
  unfold socks5ReplyLength at h
  split at h
  · simp at h
  split at h
  · omega
  split at h
  · simp at h
  · simp at h
  · simp at h
  · rename_i hdrop
    have := congrArg List.length hdrop
    simp at this
    omega
  · simp at h

/-- Replies that are not complete leave room in the buffer. -/
theorem length_lt_of_incomplete {response : List UInt8}
    (h : checkReplies response = .incomplete) : response.length < tcpResponseCap := by
  unfold checkReplies at h
  split at h
  · simp at h
  split at h
  · simp at h
  · rename_i hlen
    split at hlen
    · have := socks5ReplyLength_pos hlen
      simp [tcpResponseCap] at this ⊢
      omega
    · simp [tcpResponseCap]
      omega
  · rename_i n hlen
    split at h
    · simp at h
    rename_i hshort
    split at hlen
    · have := socks5ReplyLength_le hlen
      simp [tcpResponseCap]
      omega
    · simp at hlen

/-! ## Before the relay -/

/-- What a call on the upstream socket before the relay leaves alone. -/
structure Shaken (c : Nat) (s s' : State) : Prop where
  others : Others c s'
  fd : (s'.conns c).fd = (s.conns c).fd
  ref : (s'.conns c).ref = (s.conns c).ref
  closing : (s'.conns c).closing = (s.conns c).closing
  pipe : (s'.conns c).pipe = (s.conns c).pipe
  stage : (s'.conns c).stage ≠ .relay
  isOpen : ∀ e, (s'.socks c e).isOpen = (s.socks c e).isOpen
  linger : ∀ e, (s'.socks c e).linger = (s.socks c e).linger
  taken : ∀ e, (s'.socks c e).taken = (s.socks c e).taken
  delivered : ∀ e, (s'.socks c e).delivered = (s.socks c e).delivered
  shut : ∀ e, (s'.socks c e).shut = (s.socks c e).shut
  client : (s'.socks c .client).failed = (s.socks c .client).failed
  marks : s'.marks c = s.marks c
  closed : s'.closed = s.closed
  interest : s'.interest = s.interest
  fds : s'.fds = s.fds

/-- Before the relay nothing enters a pipe and nothing leaves it. -/
theorem Tidy.flow_before (h : Tidy s c) (hst : (s.conns c).stage ≠ .relay) (d : Side) :
    inflow s c d = [] ∧ outflow s c d = [] := by
  refine ⟨if_neg hst, ?_⟩
  simp [outflow, (h.before hst d.other).2.1]

theorem Shaken.core (h : Shaken c s s') (hc : Core s c) (hst : (s.conns c).stage ≠ .relay) :
    Core s' c := by
  have hbefore := hc.tidy.before hst
  -- a handshake relays nothing, so both flows stay empty
  have hnone : ∀ e, inflow s' c e = [] ∧ outflow s' c e = [] := fun e => by
    refine ⟨if_neg h.stage, ?_⟩
    simp [outflow, h.delivered, (hbefore e.other).2.1]
  refine ⟨h.others, ⟨fun {e f} hf => ?_, fun e => ?_, fun e => ?_, fun {e f} hp => ?_, fun e => ?_,
    fun e hs => ?_, fun _ e => ?_, fun hbad => absurd hbad h.stage, ?_⟩, ⟨fun e => ?_, ?_, ?_⟩, ?_⟩
  · rw [h.fd] at hf
    rw [h.fds]
    exact hc.tidy.sockets hf
  · rw [h.isOpen, h.fd]
    exact hc.tidy.opened e
  · obtain ⟨hin, hout⟩ := hnone e
    obtain ⟨hin₀, hout₀⟩ := hc.tidy.flow_before hst e
    rcases hc.tidy.pipes e with hu | ⟨r, w, content, hh⟩
    · exact Or.inl ⟨by rw [h.pipe]; exact hu.readFd, by rw [h.pipe]; exact hu.writeFd,
        by rw [h.pipe]; exact hu.queued, by simp [hin, hout]⟩
    · have hflow := hh.flow
      rw [hin₀, hout₀] at hflow
      exact Or.inr ⟨r, w, content, by rw [h.pipe]; exact hh.readFd, by rw [h.pipe]; exact hh.writeFd,
        by rw [h.fds]; exact hh.read, by rw [h.fds]; exact hh.write, by rw [h.pipe]; exact hh.queued,
        hh.tags, by rw [hin, hout]; exact hflow⟩
  · rw [h.fds] at hp
    rw [h.pipe]
    exact hc.tidy.named hp
  · rw [h.delivered]
    exact hc.tidy.tags e
  · rw [h.shut, (hbefore _).2.2] at hs
    simp at hs
  · rw [h.taken, h.delivered, h.shut]
    exact hbefore e
  · rw [h.marks]
    exact hc.tidy.room
  · obtain ⟨f, hf, hreg⟩ := hc.standing.fd e
    refine ⟨f, by rw [h.fd]; exact hf, ?_⟩
    unfold Registered
    rw [h.interest, h.ref]
    exact hreg
  · rw [h.closing]
    exact hc.standing.closing
  · rw [h.ref]
    exact hc.standing.connection
  · rw [h.closed]
    exact hc.unclosed

theorem Shaken.unmarked (h : Shaken c s s') (hu : Unmarked s c) : Unmarked s' c where
  linger := fun e => by rw [h.linger]; exact hu.linger e
  hungUp := by rw [h.marks]; exact hu.hungUp
  slipped := by unfold Slipped; rw [h.marks]; exact hu.slipped
  idle := by rw [h.marks]; exact hu.idle
  stopped := by rw [h.marks]; exact hu.stopped

theorem Shaken.doomed (h : Shaken c s s') (hw : Work s c) (hst : (s.conns c).stage ≠ .relay) :
    Doomed s' c :=
  ⟨h.core hw.core hst, h.unmarked hw.unmarked, fun e he => by
    cases e with
    | upstream => rfl
    | client =>
        rw [h.client, hw.clean] at he
        simp at he⟩

/-- A connection still in order before the relay. -/
theorem Shaken.work (h : Shaken c s s') (hw : Work s c) (hst : (s.conns c).stage ≠ .relay)
    (hfailed : (s'.socks c .upstream).failed = false)
    (hunread : (s'.conns c).stage = .connecting ∨ (s'.conns c).stage = .requestWrite →
      (s'.socks c .upstream).received = [])
    (hresponse : (s'.conns c).stage = .replyRead →
      (s'.conns c).response = (s'.socks c .upstream).received ∧
        checkReplies (s'.conns c).response = .incomplete) : Work s' c where
  core := h.core hw.core hst
  unmarked := h.unmarked hw.unmarked
  phase :=
    { pipe := fun _ d => by rw [h.pipe]; exact hw.phase.pipe hst d
      unread := hunread
      response := hresponse
      unstuck := fun _ d => by rw [h.marks]; exact hw.phase.unstuck hst d
      flags := fun hbad => absurd hbad h.stage
      stuck := fun hbad => absurd hbad h.stage
      awaits := fun hbad => absurd hbad h.stage }
  clean := fun e => by
    cases e with
    | upstream => exact hfailed
    | client => rw [h.client]; exact hw.clean .client

theorem Shaken.trans {s₁ s₂ : State} (h : Shaken c s s₁) (h' : Shaken c s₁ s₂) : Shaken c s s₂ where
  others := h'.others
  fd := h'.fd.trans h.fd
  ref := h'.ref.trans h.ref
  closing := h'.closing.trans h.closing
  pipe := h'.pipe.trans h.pipe
  stage := h'.stage
  isOpen := fun e => (h'.isOpen e).trans (h.isOpen e)
  linger := fun e => (h'.linger e).trans (h.linger e)
  taken := fun e => (h'.taken e).trans (h.taken e)
  delivered := fun e => (h'.delivered e).trans (h.delivered e)
  shut := fun e => (h'.shut e).trans (h.shut e)
  client := h'.client.trans h.client
  marks := h'.marks.trans h.marks
  closed := h'.closed.trans h.closed
  interest := h'.interest.trans h.interest
  fds := h'.fds.trans h.fds

/-- A call on the upstream socket. -/
theorem Shaken.onSock {g : Sock → Sock} (ho : Others c s) (hst : (s.conns c).stage ≠ .relay)
    (hfd : s.fds fd = some (.socket c .upstream))
    (hg : ∀ k, (g k).isOpen = k.isOpen ∧ (g k).linger = k.linger ∧ (g k).taken = k.taken ∧
      (g k).delivered = k.delivered ∧ (g k).shut = k.shut) : Shaken c s (s.onSock fd g) := by
  rw [onSock_eq hfd]
  have hsame : ∀ e, ((s.modSock c .upstream g).socks c e).isOpen = (s.socks c e).isOpen ∧
      ((s.modSock c .upstream g).socks c e).linger = (s.socks c e).linger ∧
      ((s.modSock c .upstream g).socks c e).taken = (s.socks c e).taken ∧
      ((s.modSock c .upstream g).socks c e).delivered = (s.socks c e).delivered ∧
      ((s.modSock c .upstream g).socks c e).shut = (s.socks c e).shut := fun e => by
    cases e with
    | upstream =>
        rw [modSock_self]
        exact hg _
    | client =>
        have := modSock_other s c .upstream g
        rw [show Side.client = Side.upstream.other from rfl, this]
        exact ⟨rfl, rfl, rfl, rfl, rfl⟩
  exact
    { others := ho.modSock _ _, fd := rfl, ref := rfl, closing := rfl, pipe := rfl, stage := hst
      isOpen := fun e => (hsame e).1, linger := fun e => (hsame e).2.1
      taken := fun e => (hsame e).2.2.1, delivered := fun e => (hsame e).2.2.2.1
      shut := fun e => (hsame e).2.2.2.2
      client := by
        have := modSock_other s c .upstream g
        rw [show Side.client = Side.upstream.other from rfl, this]
      marks := rfl, closed := rfl, interest := rfl, fds := rfl }

/-- A change of the record that the relay does not look at. -/
theorem Shaken.modConn {f : Conn → Conn} (ho : Others c s)
    (hf : ∀ k, (f k).fd = k.fd ∧ (f k).ref = k.ref ∧ (f k).closing = k.closing ∧ (f k).pipe = k.pipe)
    (hst : (f (s.conns c)).stage ≠ .relay) : Shaken c s (s.modConn c f) := by
  obtain ⟨h₁, h₂, h₃, h₄⟩ := hf (s.conns c)
  exact
    { others := ho.modConn _, fd := by rw [modConn_conns, h₁], ref := by rw [modConn_conns, h₂]
      closing := by rw [modConn_conns, h₃], pipe := by rw [modConn_conns, h₄]
      stage := by rw [modConn_conns]; exact hst
      isOpen := fun _ => rfl, linger := fun _ => rfl, taken := fun _ => rfl
      delivered := fun _ => rfl, shut := fun _ => rfl, client := rfl, marks := rfl, closed := rfl
      interest := rfl, fds := rfl }

theorem connectionTouch_shaken (ho : Others c s) (hst : (s.conns c).stage ≠ .relay) : Prog.Sat ok
    (fun s' _ => Shaken c s s' ∧ Alike (s'.conns c) (s.conns c) ∧ s'.socks = s.socks)
    (connectionTouch c s) := by
  unfold connectionTouch nowMs
  intro now _
  have hsame : ∀ {f : Conn → Conn}, (∀ k, Alike (f k) k) →
      Shaken c s (s.modConn c f) ∧ Alike ((s.modConn c f).conns c) (s.conns c) := fun {f} hf => by
    refine ⟨.modConn ho (fun k => ⟨(hf k).fd, (hf k).ref, (hf k).closing, (hf k).pipe⟩) ?_, ?_⟩
    · rw [(hf _).stage]
      exact hst
    · rw [modConn_conns]
      exact hf _
  refine Act.sat_ite (fun _ => ?_) (fun _ => ?_)
  · obtain ⟨hsh, hal⟩ := hsame (f := fun k => { k with lastActivityMs := now })
      fun _ => ⟨rfl, rfl, rfl, rfl, rfl, rfl, rfl⟩
    exact ⟨hsh, hal, rfl⟩
  · obtain ⟨hsh, hal⟩ := hsame (f := id) fun _ => .of_eq rfl
    have hid : s.modConn c id = s := by simp [State.modConn]
    rw [hid] at hsh hal
    exact ⟨hsh, hal, rfl⟩

theorem Work.touched (h : Work s c) (hst : (s.conns c).stage ≠ .relay) (hsh : Shaken c s s')
    (hal : Alike (s'.conns c) (s.conns c)) (hs : s'.socks = s.socks) : Work s' c :=
  hsh.work h hst (by rw [hs]; exact h.clean _) (by rw [hs, hal.stage]; exact h.phase.unread)
    (by rw [hs, hal.stage, hal.response]; exact h.phase.response)

/-! ## Writing the request -/

theorem startHandshake_sat (h : Work s c)
    (hst : (s.conns c).stage = .connecting ∨ (s.conns c).stage = .requestWrite) : Prog.Sat ok
    (fun s' b => (b = false → s' = s) ∧
      (b = true → Work s' c ∧ (s'.conns c).stage = .requestWrite)) (startHandshake c s) := by
  have hne : (s.conns c).stage ≠ .relay := by
    rcases hst with h | h <;> rw [h] <;> simp
  unfold startHandshake
  simp only [Act.bind_run, get_run, Prog.ret_bind]
  rcases handshakeBytes (s.conns c).target with _ | bytes
  · exact ⟨fun _ => rfl, fun hbad => absurd hbad (by simp)⟩
  · refine ⟨fun hbad => absurd hbad (by simp), fun _ => ⟨?_, by rw [modConn_conns]⟩⟩
    have hsh : Shaken c s (s.modConn c fun k =>
        { k with handshake := bytes, handshakeOffset := 0, stage := .requestWrite }) :=
      .modConn h.core.others (fun _ => ⟨rfl, rfl, rfl, rfl⟩) (by simp)
    refine hsh.work h hne (h.clean _) (fun _ => h.phase.unread hst) fun hbad => ?_
    rw [modConn_conns] at hbad
    simp at hbad

/-- The state after a `send`. -/
def afterSend (s : State) (fd : Nat) (bytes : List UInt8) : Except Errno Nat → State
  | .ok n => s.onSock fd fun k =>
      { k with sent := k.sent ++ bytes.take n, failed := k.failed || n == 0 }
  | .error e => s.onSock fd fun k => { k with failed := k.failed || !e.soft }

theorem send_run (fd : Nat) (bytes : List UInt8) (s : State) :
    send fd bytes s = .ask s (.send fd bytes) fun r => .ret (afterSend s fd bytes r) r := by
  simp only [send, Act.bind_run, ask_run, Prog.ask_bind, Prog.ret_bind]
  congr 1
  funext r
  cases r <;> rfl

theorem afterSend_shaken (ho : Others c s) (hst : (s.conns c).stage ≠ .relay)
    (hfd : s.fds fd = some (.socket c .upstream)) (bytes : List UInt8) (r : Except Errno Nat) :
    Shaken c s (afterSend s fd bytes r) := by
  cases r with
  | ok n => exact .onSock ho hst hfd fun _ => ⟨rfl, rfl, rfl, rfl, rfl⟩
  | error e => exact .onSock ho hst hfd fun _ => ⟨rfl, rfl, rfl, rfl, rfl⟩

/-- The loop of `flush_handshake`. -/
theorem flushHandshakeFrom_sat (fuel : Nat) : ∀ {s : State}, Work s c →
    (s.conns c).stage = .requestWrite → Prog.Sat ok
    (fun s' r => (r = .ok () → Work s' c ∧ (s'.conns c).stage ≠ .relay) ∧
      ∀ e, r = .error e → Doomed s' c) (flushHandshakeFrom c fuel s) := by
  induction fuel with
  | zero => exact fun _ _ => trivial
  | succ fuel ih =>
      intro s h hst
      have hne : (s.conns c).stage ≠ .relay := by rw [hst]; simp
      -- nothing is read before the whole request was written
      have hunread := h.phase.unread (Or.inr hst)
      simp only [flushHandshakeFrom, Act.bind_run, get_run, Prog.ret_bind]
      refine Act.sat_ite (fun _ => ?_) (fun _ => ?_)
      · obtain ⟨f, hf, -⟩ := h.core.standing.fd .upstream
        have hsock := h.core.tidy.sockets hf
        simp only [hf, Act.bind_run, send_run]
        generalize (s.conns c).handshake.drop (s.conns c).handshakeOffset = bytes
        intro r _
        have hsh : ∀ r, Shaken c s (afterSend s f bytes r) :=
          fun r => afterSend_shaken h.core.others hne hsock bytes r
        have hdoom : ∀ r, Doomed (afterSend s f bytes r) c := fun r => (hsh r).doomed h hne
        have hsoft : ∀ {e : Errno}, e.soft = true → afterSend s f bytes (.error e) = s :=
          fun he => onSock_same fun k => by simp [he]
        rcases r with e | n
        · cases e with
          | eintr =>
              show Prog.Sat ok _ (flushHandshakeFrom c fuel (afterSend s f bytes (.error .eintr)))
              rw [hsoft rfl]
              exact ih h hst
          | eagain =>
              show (_ → Work (afterSend s f bytes (.error .eagain)) c ∧ _) ∧ _
              rw [hsoft rfl]
              exact ⟨fun _ => ⟨h, hne⟩, fun e he => absurd he (by simp)⟩
          | emfile => exact ⟨fun hbad => absurd hbad (by simp), fun _ _ => hdoom _⟩
          | enfile => exact ⟨fun hbad => absurd hbad (by simp), fun _ _ => hdoom _⟩
          | enotconn => exact ⟨fun hbad => absurd hbad (by simp), fun _ _ => hdoom _⟩
          | epipe => exact ⟨fun hbad => absurd hbad (by simp), fun _ _ => hdoom _⟩
          | other => exact ⟨fun hbad => absurd hbad (by simp), fun _ _ => hdoom _⟩
        · cases n with
          | zero =>
              intro e _
              exact ⟨fun hbad => absurd hbad (by simp), fun _ _ => hdoom _⟩
          | succ n =>
              have hst₁ : ((afterSend s f bytes (.ok (n + 1))).conns c).stage = .requestWrite := by
                simp only [afterSend, onSock_eq hsock]
                exact hst
              have hsh₁ : Shaken c s ((afterSend s f bytes (.ok (n + 1))).modConn c fun k =>
                  { k with handshakeOffset := k.handshakeOffset + (n + 1) }) :=
                (hsh _).trans (.modConn (hsh _).others (fun _ => ⟨rfl, rfl, rfl, rfl⟩)
                  (by simp [hst₁]))
              have hsocks : ((afterSend s f bytes (.ok (n + 1))).socks c .upstream).failed = false ∧
                  ((afterSend s f bytes (.ok (n + 1))).socks c .upstream).received = [] := by
                simp only [afterSend, onSock_eq hsock, modSock_self]
                exact ⟨by simp [h.clean .upstream], hunread⟩
              have h₁ : Work ((afterSend s f bytes (.ok (n + 1))).modConn c fun k =>
                  { k with handshakeOffset := k.handshakeOffset + (n + 1) }) c := by
                refine hsh₁.work h hne hsocks.1 (fun _ => hsocks.2) fun hbad => ?_
                rw [modConn_conns] at hbad
                simp [hst₁] at hbad
              have hne₁ := hsh₁.stage
              refine (connectionTouch_shaken h₁.core.others hne₁).bind fun s₂ _ ⟨hsh₂, hal₂, hs₂⟩ => ?_
              refine ih (h₁.touched hne₁ hsh₂ hal₂ hs₂) ?_
              rw [hal₂.stage, modConn_conns]
              exact hst₁
      · refine ⟨fun _ => ⟨?_, by rw [modConn_conns]; simp⟩, fun e he => absurd he (by simp)⟩
        have hsh : Shaken c s (s.modConn c fun k => { k with response := [], stage := .replyRead }) :=
          .modConn h.core.others (fun _ => ⟨rfl, rfl, rfl, rfl⟩) (by simp)
        -- all of it is written: the replies are awaited from here on
        refine hsh.work h hne (h.clean _) (fun hbad => ?_) fun _ => ?_
        · rw [modConn_conns] at hbad
          simp at hbad
        · rw [modConn_conns]
          exact ⟨hunread.symm, rfl⟩

theorem flushHandshake_sat (h : Work s c) (hst : (s.conns c).stage = .requestWrite) : Prog.Sat ok
    (fun s' r => (r = .ok () → Work s' c ∧ (s'.conns c).stage ≠ .relay) ∧
      ∀ e, r = .error e → Doomed s' c) (flushHandshake c s) := by
  unfold flushHandshake
  intro retries _
  exact flushHandshakeFrom_sat _ h hst

end Bpf2Socks.Tcp

/-
# Bpf2Socks.Tcp.Moves — what an event does to the worker as a whole.

`Listed` says that the active connections are live, and the closed ones are not among them.  Whatever
an event or a new client is about, the result is a `Moves c`: one connection changed, it is the only
one that may have joined the active list, and if it is there its deadline has been noted.
-/
import Bpf2Socks.Tcp.Beside

namespace Bpf2Socks.Tcp

open Function (update update_self update_of_ne)
open Lib (Act Prog)
open Udp (DstAddr Bits)
open Worker

variable {s s' : State} {c t fd : Nat} {d : Side} {w w' w'' : State × Nat}

/-! ## The lists -/

/-- Active connections are live, closed ones are not active, and both were accepted.  Nothing but
their fields names the listeners. -/
structure Listed (s : State) : Prop where
  nodup : s.active.Nodup
  live : ∀ {c}, c ∈ s.active → (s.conns c).closing = false ∧ (s.conns c).activeLinked = true
  activeLt : ∀ {c}, c ∈ s.active → c < s.accepted
  closedLt : ∀ {c}, c ∈ s.closed → c < s.accepted
  apart : ∀ {c}, c ∈ s.active → c ∉ s.closed
  known : ∀ {c d}, ((s.conns c).ref d).connection = true → c < s.accepted
  listeners : ∀ {fd}, s.cfg.Listener fd → Untouched s fd

theorem Around.listeners (h : Around c w w')
    (hl : ∀ {fd}, w.1.cfg.Listener fd → Untouched w.1 fd) {fd : Nat} (hfd : w'.1.cfg.Listener fd) :
    Untouched w'.1 fd := (h.untouched (h.cfg ▸ hfd) (hl (h.cfg ▸ hfd))).1

theorem Listed.beside (h : Listed w.1) (a : Beside c w w') : Listed w'.1 := by
  have hbadge : ∀ c', (w'.1.conns c').badge = (w.1.conns c').badge := fun c' => by
    by_cases hc : c' = c
    · exact hc ▸ a.badge
    · rw [a.conns hc]
  refine ⟨a.lists.1 ▸ h.nodup, fun {c'} hc => ?_, fun hc => ?_, fun hc => ?_, fun hc => ?_,
    fun {c' d} hc => ?_, a.listeners h.listeners⟩
  · obtain ⟨h₁, h₂⟩ := h.live (a.lists.1 ▸ hc)
    exact ⟨(congrArg Badge.closing (hbadge c')).trans h₁,
      (congrArg Badge.activeLinked (hbadge c')).trans h₂⟩
  · exact Nat.lt_of_lt_of_le (h.activeLt (a.lists.1 ▸ hc)) a.accepted
  · exact Nat.lt_of_lt_of_le (h.closedLt (a.lists.2 ▸ hc)) a.accepted
  · rw [a.lists.2]
    exact h.apart (a.lists.1 ▸ hc)
  · refine Nat.lt_of_lt_of_le (h.known (d := d) ?_) a.accepted
    rw [← hc]
    exact (congrFun (congrArg Badge.connection (hbadge c')) d).symm

/-! ## Closing -/

/-- Code about connection `c` that may close it. -/
structure Handles (c : Nat) (w w' : State × Nat) : Prop extends Around c w w' where
  listed : Listed w.1 → c < w.1.accepted → Listed w'.1

theorem Beside.handles (h : Beside c w w') : Handles c w w' := ⟨h.toAround, fun hl _ => hl.beside h⟩

theorem Handles.trans (h : Handles c w w') (h' : Handles c w' w'') : Handles c w w'' where
  toAround := h.toAround.trans h'.toAround
  listed hl hc := h'.listed (h.listed hl hc) (Nat.lt_of_lt_of_le hc h.accepted)

instance (c : Nat) : IsPreorder (State × Nat) (Handles c) where
  refl w := (Beside.refl c w).handles
  trans _ _ _ := Handles.trans

/-- Every run of the code is about connection `c` and may close it. -/
def Works (c : Nat) {α : Type} (m : Worker α) : Prop := Act.Keeps timely (Handles c) (m.watch tick)

section

variable {α β : Type}

theorem Minds.works {m : Worker α} (h : Minds c m) : Works c m := h.imp Beside.handles

theorem Works.bind {m : Worker α} {f : α → Worker β} (hm : Works c m) (hf : ∀ a, Works c (f a)) :
    Works c (m >>= f) := Act.watch_andThen hm hf

theorem works_ite {p : Prop} [Decidable p] {f g : Worker α} (hf : Works c f) (hg : Works c g) :
    Works c (if p then f else g) := Act.watch_ite hf hg

theorem works_pure (a : α) : Works c (pure a : Worker α) := (minds_pure a).works

end

/-- What a record is when it ended and has left the active list. -/
def State.retire (s : State) (c : Nat) : State := (s.modConn c Conn.ended).activeRemove c

theorem retire_conns (s : State) (c : Nat) :
    (s.retire c).conns = update s.conns c { (s.conns c).ended with activeLinked := false } := by
  unfold State.retire State.activeRemove
  split
  · simp only [State.modConn, update_self, Function.update_idem]
  · rename_i hlinked
    have hfalse : (s.conns c).activeLinked = false := by simpa [Conn.ended] using hlinked
    have hrecord : { (s.conns c).ended with activeLinked := false } = (s.conns c).ended := by
      simp only [Conn.ended, hfalse]
    rw [hrecord]
    rfl

theorem retire_active (s : State) (c : Nat) :
    (s.retire c).active = if (s.conns c).activeLinked then s.active.erase c else s.active := by
  unfold State.retire State.activeRemove
  simp only [modConn_conns]
  show (if (s.conns c).activeLinked = true then _ else _ : State).active = _
  split <;> rfl

theorem retire_rest (s : State) (c : Nat) :
    (s.retire c).desk = s.desk ∧ (s.retire c).closed = s.closed ∧
      (s.retire c).accepted = s.accepted ∧ (s.retire c).pool = s.pool ∧
      (s.retire c).spareFd = s.spareFd ∧ (s.retire c).fds = s.fds ∧
      (s.retire c).interest = s.interest := by
  unfold State.retire State.activeRemove
  split <;> exact ⟨rfl, rfl, rfl, rfl, rfl, rfl, rfl⟩

theorem not_mem_retire (h : Listed s) : c ∉ (s.retire c).active := by
  rw [retire_active]
  split
  · exact h.nodup.not_mem_erase
  · rename_i hlinked
    exact fun hc => hlinked (h.live hc).2

theorem around_retire : Around c (s, t) (s.retire c, t) := by
  obtain ⟨hdesk, -, haccepted, hpool, hspare, hfds, hint⟩ := retire_rest s c
  have hself : (s.retire c).conns c = { (s.conns c).ended with activeLinked := false } := by
    rw [retire_conns, update_self]
  have hconns : ∀ {c'}, c' ≠ c → (s.retire c).conns c' = s.conns c' := fun hne => by
    rw [retire_conns, update_of_ne hne]
  refine around_of_spared hdesk (Nat.le_of_eq haccepted.symm) (fun hc => ?_) hconns (fun h => ?_)
    (fun hh => .inl ?_) (fun h => .inl (hfds ▸ h)) (.inl (hint ▸ rfl))
  · rw [retire_active] at hc
    split at hc
    · exact List.mem_of_mem_erase hc
    · exact hc
  · rw [hself]
    exact h
  · refine hh.of_fewer hconns ?_ hpool hspare
    rw [hself]
    exact ⟨id, id, id⟩

theorem handles_retire : Handles c (s, t) (s.retire c, t) := by
  refine ⟨around_retire, fun h hlt => ?_⟩
  obtain ⟨-, hclosed, haccepted, -⟩ := retire_rest s c
  have hsub : ∀ {c'}, c' ∈ (s.retire c).active → c' ∈ s.active :=
    fun hc => (around_retire (s := s) (t := t)).active hc
  have hother : ∀ {c'}, c' ∈ (s.retire c).active → (s.retire c).conns c' = s.conns c' := by
    intro c' hc
    have hne : c' ≠ c := by
      rintro rfl
      exact not_mem_retire h hc
    rw [retire_conns, update_of_ne hne]
  refine ⟨?_, fun hc => ?_, fun hc => ?_, fun hc => ?_, fun hc => ?_, fun {c' d} hc => ?_,
    (around_retire (t := t)).listeners h.listeners⟩
  · show (s.retire c).active.Nodup
    rw [retire_active]
    split
    · exact h.nodup.erase c
    · exact h.nodup
  · show ((s.retire c).conns _).closing = false ∧ _
    rw [hother hc]
    exact h.live (hsub hc)
  · exact haccepted.symm ▸ h.activeLt (hsub hc)
  · exact haccepted.symm ▸ h.closedLt (hclosed ▸ hc)
  · exact hclosed.symm ▸ h.apart (hsub hc)
  · have hc : (((s.retire c).conns c').ref d).connection = true := hc
    show c' < (s.retire c).accepted
    rw [haccepted]
    by_cases hne : c' = c
    · exact hne ▸ hlt
    · rw [retire_conns, update_of_ne hne] at hc
      exact h.known hc

/-- One socket of the connection is closed. -/
theorem minds_closeSide (d : Side) : Minds c (closeSide c d) := by
  rintro ⟨s, t⟩
  show Prog.Sat timely _ ((closeSide c d s).watch tick t)
  simp only [closeSide, Act.bind_run, get_run, Prog.ret_bind]
  cases hfd : (s.conns c).fd d with
  | none => exact Beside.refl ..
  | some fd =>
      intro r _
      refine (beside_closeFd (Holds.socket c d hfd).spared).trans (beside_modConn ?_ rfl id)
      refine ⟨fun {e} {g} he => ?_, id, id⟩
      have he : update ((s.closeFd fd).conns c).fd d none e = some g := he
      by_cases hne : e = d
      · subst hne
        rw [update_self] at he
        cases he
      · rwa [update_of_ne hne] at he

/-- A closed connection joins its list. -/
theorem around_closedAdd : Around c (s, t) (s.closedAdd c, t) := by
  refine around_of_spared rfl (Nat.le_refl _) id (fun _ => rfl) id (fun hh => .inl ?_) .inl (.inl rfl)
  refine Holds.of_fewer (c := c) ?_ ?_ ?_ ?_ hh
  · exact fun _ => rfl
  · exact Fewer.refl _
  · rfl
  · rfl

theorem Listed.closedAdd (h : Listed s) (hlt : c < s.accepted) (hnot : c ∉ s.active) :
    Listed (s.closedAdd c) := by
  refine ⟨h.nodup, h.live, h.activeLt, fun hc => ?_, fun hc hmem => ?_, h.known,
    (around_closedAdd (s := s) (c := c) (t := 0)).listeners h.listeners⟩
  · rcases List.mem_cons.mp hc with rfl | hc
    · exact hlt
    · exact h.closedLt hc
  · rcases List.mem_cons.mp hmem with rfl | hmem
    · exact hnot hc
    · exact h.apart hc hmem

/-- Code about connection `c` that takes it out of the active list. -/
structure Ends (c : Nat) (w w' : State × Nat) : Prop extends Handles c w w' where
  gone : Listed w.1 → c ∉ w'.1.active

theorem Handles.ends (h : Handles c w w') (e : Ends c w' w'') (hlt : c < w.1.accepted) : Ends c w w'' :=
  ⟨h.trans e.toHandles, fun hl => e.gone (h.listed hl hlt)⟩

/-- **`close_connection`.** -/
theorem closeConnection_ends (c : Nat) (w : State × Nat) :
    Prog.Sat timely (fun w' _ => Ends c w w') ((closeConnection c).watch tick w) := by
  obtain ⟨s, t⟩ := w
  show Prog.Sat timely _ ((closeConnection c s).watch tick t)
  simp only [closeConnection, Act.bind_run, get_run, Prog.ret_bind]
  by_cases hclosing : (s.conns c).closing = true
  · rw [if_pos hclosing]
    refine ⟨(Beside.refl ..).handles, fun hl hc => ?_⟩
    rw [(hl.live hc).1] at hclosing
    cases hclosing
  · rw [if_neg hclosing]
    have hnot : Listed s → c ∉ (s.retire c).active := not_mem_retire
    have hretire : Handles c (s, t) (s.retire c, t) := handles_retire
    show Prog.Sat timely _ (Prog.watch tick t ((releaseTcpSession c (s.retire c)).bind _))
    rw [Prog.watch_bind]
    refine (minds_releaseTcpSession.sat (s.retire c, t)).bind fun w₁ _ h₁ => ?_
    show Prog.Sat timely _ (Prog.watch tick w₁.2 ((closeSide c .client w₁.1).bind _))
    rw [Prog.watch_bind]
    refine ((minds_closeSide .client).sat w₁).bind fun w₂ _ h₂ => ?_
    show Prog.Sat timely _ (Prog.watch tick w₂.2 ((closeSide c .upstream w₂.1).bind _))
    rw [Prog.watch_bind]
    refine ((minds_closeSide .upstream).sat w₂).bind fun w₃ _ h₃ => ?_
    have ha : Beside c (s.retire c, t) w₃ := (h₁.trans h₂).trans h₃
    have hw₃ : Handles c (s, t) w₃ := hretire.trans ha.handles
    have hgone : Listed s → c ∉ w₃.1.active := fun hl => by
      rw [ha.lists.1]
      exact hnot hl
    refine ⟨⟨hw₃.toAround.trans around_closedAdd, fun hl hlt => ?_⟩, hgone⟩
    exact (hw₃.listed hl hlt).closedAdd (Nat.lt_of_lt_of_le hlt hw₃.accepted) (hgone hl)

theorem works_closeConnection : Works c (closeConnection c) := fun w =>
  (closeConnection_ends c w).mono fun _ _ h => h.toHandles

/-- **`reset_connection`.** -/
theorem resetConnection_ends (failed : Side) (hlt : c < w.1.accepted) :
    Prog.Sat timely (fun w' _ => Ends c w w') ((resetConnection c failed).watch tick w) := by
  obtain ⟨s, t⟩ := w
  show Prog.Sat timely _ ((resetConnection c failed s).watch tick t)
  simp only [resetConnection, Act.bind_run, get_run, Prog.ret_bind]
  by_cases hclosing : (s.conns c).closing = true
  · rw [if_pos hclosing]
    refine ⟨(Beside.refl ..).handles, fun hl hc => ?_⟩
    rw [(hl.live hc).1] at hclosing
    cases hclosing
  · rw [if_neg hclosing]
    have hreset : Handles c (s, t) (s.resetOnClose ((s.conns c).fd failed.other), t) :=
      (beside_resetOnClose _).handles
    exact (closeConnection_ends c (s.resetOnClose ((s.conns c).fd failed.other), t)).mono
      fun _ _ h => hreset.ends h hlt

theorem works_resetConnection (failed : Side) : Works c (resetConnection c failed) := by
  refine minds_get.works.bind fun s => works_ite (works_pure _) ?_
  refine Works.bind (Minds.works (minds_modify fun s t => ?_)) fun _ => works_closeConnection
  exact beside_resetOnClose _

/-! ## Events of a connection -/

theorem works_handleClientEvent (events : Bits) : Works c (handleClientEvent c events) :=
  works_ite (minds_mark.works.bind fun _ => works_resetConnection _)
    (works_ite (minds_mark.works.bind fun _ => works_closeConnection) (works_pure _))

theorem works_handleUpstreamHandshake (events : Bits) :
    Works c (handleUpstreamHandshake c events) := by
  refine works_ite (works_resetConnection _) ?_
  refine (minds_writeRequest events).works.bind fun written => ?_
  cases written with
  | true =>
      exact (minds_readReplies _).works.bind fun _ => minds_get.works.bind fun _ =>
        works_ite (works_resetConnection _) (works_pure _)
  | false =>
      exact (minds_pure false).works.bind fun _ => minds_get.works.bind fun _ =>
        works_ite (works_resetConnection _) (works_pure _)

theorem works_handleSpliceRelay (d : Side) (events : Bits) :
    Works c (handleSpliceRelay c d events) := by
  have hrest : ∀ read : Bool, Works c (do
      if read then relayFlush c
      else resetConnection c d) := by
    intro read
    refine works_ite (minds_flushRelayPipes.works.bind fun failed => ?_) (works_resetConnection _)
    cases failed with
    | some failedSide => exact works_resetConnection _
    | none =>
        exact minds_get.works.bind fun _ => works_ite works_closeConnection (works_pure _)
  refine works_ite (works_resetConnection _) (works_ite ?_ ?_)
  · exact (minds_spliceSocketToPipe d).works.bind hrest
  · exact (minds_pure true).works.bind hrest

/-! ## Moves -/

/-- The fields about pausing. -/
structure Pausing where
  listenersResumeMs : Nat
  listenersPaused : Bool
  listener4Events : Bits
  listener6Events : Bits

def State.pausing (s : State) : Pausing :=
  ⟨s.listenersResumeMs, s.listenersPaused, s.listener4Events, s.listener6Events⟩

/-- The deadline of a connection. -/
def State.deadline (s : State) (c : Nat) : Nat := connectionDeadline s.cfg (s.conns c)

/-- An event about connection `c` is over: if it is active its deadline is noted. -/
structure Moves (c : Nat) (w w' : State × Nat) : Prop where
  cfg : w'.1.cfg = w.1.cfg
  accepted : w.1.accepted ≤ w'.1.accepted
  pausing : w'.1.pausing = w.1.pausing
  next : w'.1.nextDeadlineMs ≤ w.1.nextDeadlineMs
  noted : c ∈ w'.1.active → w'.1.nextDeadlineMs ≤ w'.1.deadline c
  active : ∀ {c'}, c' ∈ w'.1.active → c' = c ∨ c' ∈ w.1.active
  conns : ∀ {c'}, c' ≠ c → w'.1.conns c' = w.1.conns c'
  stamped : (c ∈ w.1.active → Stamped (w.1.conns c) w.2) → c ∈ w'.1.active →
    Stamped (w'.1.conns c) w'.2
  clock : w.2 ≤ w'.2 ∧ (w.2 < clockEnd → w'.2 < clockEnd)
  untouched : ∀ {fd}, w.1.cfg.Listener fd → Untouched w.1 fd →
    Untouched w'.1 fd ∧ w'.1.interest fd = w.1.interest fd

theorem Around.pausing (h : Around c w w') : w'.1.pausing = w.1.pausing :=
  congrArg (fun k : Desk => (⟨k.listenersResumeMs, k.listenersPaused, k.listener4Events,
    k.listener6Events⟩ : Pausing)) h.desk

theorem Around.next (h : Around c w w') : w'.1.nextDeadlineMs = w.1.nextDeadlineMs :=
  congrArg Desk.nextDeadlineMs h.desk

/-- An event about a connection that is not active and does not get active. -/
theorem Around.moves (h : Around c w w') (hnot : c ∉ w'.1.active) : Moves c w w' where
  cfg := h.cfg
  accepted := h.accepted
  pausing := h.pausing
  next := Nat.le_of_eq h.next
  noted hc := absurd hc hnot
  active hc := .inr (h.active hc)
  conns := h.conns
  stamped _ hc := absurd hc hnot
  clock := h.clock
  untouched := h.untouched

theorem note_rest (s : State) (c : Nat) :
    (s.noteConnectionDeadline c).cfg = s.cfg ∧ (s.noteConnectionDeadline c).conns = s.conns ∧
      (s.noteConnectionDeadline c).active = s.active ∧
      (s.noteConnectionDeadline c).accepted = s.accepted ∧
      (s.noteConnectionDeadline c).pausing = s.pausing ∧
      (s.noteConnectionDeadline c).interest = s.interest := by
  unfold State.noteConnectionDeadline
  split <;> exact ⟨rfl, rfl, rfl, rfl, rfl, rfl⟩

theorem Untouched.congr (h : Untouched s fd) (hconns : s'.conns = s.conns) (hfds : s'.fds = s.fds)
    (hpool : s'.pool = s.pool) (hspare : s'.spareFd = s.spareFd) : Untouched s' fd := by
  refine ⟨(congrFun hfds fd).trans h.1, fun hh => h.2 ?_⟩
  exact hh.of_fewer (c := 0) (fun _ => congrFun hconns _) (hconns ▸ Fewer.refl _) hpool hspare

theorem Untouched.note (h : Untouched s fd) (c : Nat) :
    Untouched (s.noteConnectionDeadline c) fd := by
  unfold State.noteConnectionDeadline
  split
  · exact h
  · exact h.congr rfl rfl rfl rfl

theorem Listed.note (h : Listed s) (c : Nat) : Listed (s.noteConnectionDeadline c) := by
  unfold State.noteConnectionDeadline
  split
  · exact h
  · exact ⟨h.nodup, h.live, h.activeLt, h.closedLt, h.apart, h.known,
      fun hl => (h.listeners hl).congr rfl rfl rfl rfl⟩

/-- What a note does to the cached deadline. -/
theorem next_note (s : State) (c : Nat) :
    (s.noteConnectionDeadline c).nextDeadlineMs ≤ s.nextDeadlineMs ∧
      ((s.conns c).closing = false →
        (s.noteConnectionDeadline c).nextDeadlineMs ≤ s.deadline c) := by
  unfold State.noteConnectionDeadline
  split
  · rename_i hclosing
    exact ⟨Nat.le_refl _, fun h => absurd hclosing (h ▸ Bool.false_ne_true)⟩
  · exact ⟨Nat.min_le_right _ _, fun _ => Nat.min_le_left _ _⟩

/-- After code about `c`, its deadline is noted. -/
theorem Handles.moves_note {s₁ : State} {t₁ : Nat} (h : Handles c w (s₁, t₁)) (hl : Listed w.1)
    (hlt : c < w.1.accepted) :
    Moves c w (s₁.noteConnectionDeadline c, t₁) ∧ Listed (s₁.noteConnectionDeadline c) := by
  obtain ⟨hcfg, hconns, hactive, haccepted, hpausing, hint⟩ := note_rest s₁ c
  have hl₁ : Listed s₁ := h.listed hl hlt
  have ha := h.toAround
  refine ⟨⟨hcfg.trans ha.cfg, Nat.le_trans ha.accepted (Nat.le_of_eq haccepted.symm),
    hpausing.trans ha.pausing, ?_, fun hc => ?_, fun hc => .inr (ha.active ?_), fun hne => ?_,
    fun hs hc => ?_, ha.clock, fun hf hu => ?_⟩, hl₁.note c⟩
  · exact Nat.le_trans (next_note s₁ c).1 (Nat.le_of_eq ha.next)
  · have hc : c ∈ (s₁.noteConnectionDeadline c).active := hc
    show (s₁.noteConnectionDeadline c).nextDeadlineMs ≤
      connectionDeadline (s₁.noteConnectionDeadline c).cfg ((s₁.noteConnectionDeadline c).conns c)
    rw [hcfg, hconns]
    exact (next_note s₁ c).2 (hl₁.live (hactive ▸ hc)).1
  · exact hactive ▸ hc
  · show (s₁.noteConnectionDeadline c).conns _ = _
    rw [hconns]
    exact ha.conns hne
  · have hc : c ∈ (s₁.noteConnectionDeadline c).active := hc
    show Stamped ((s₁.noteConnectionDeadline c).conns c) t₁
    rw [hconns]
    exact ha.stamped (hs (ha.active (hactive ▸ hc)))
  · obtain ⟨hu', hi⟩ := ha.untouched hf hu
    exact ⟨hu'.note c, (congrFun hint _).trans hi⟩

/-- From any state that code about `c` leads to, the rest of the code leads to `P`. -/
def Leads (c : Nat) (w : State × Nat) (P : State × Nat → Prop) (m : Worker Unit) : Prop :=
  ∀ {w₀}, Handles c w w₀ → Prog.Sat timely (fun w' _ => P w') (m.watch tick w₀)

theorem Leads.bind {α : Type} {P : State × Nat → Prop} {m : Worker α} {f : α → Worker Unit}
    (hm : Works c m) (hf : ∀ a, Leads c w P (f a)) : Leads c w P (m >>= f) := by
  intro w₀ h₀
  rw [Act.watch_bind]
  exact (hm w₀).bind fun w₁ a h₁ => hf a (h₀.trans h₁)

theorem leads_ite {p : Prop} [Decidable p] {P : State × Nat → Prop} {f g : Worker Unit}
    (hf : Leads c w P f) (hg : Leads c w P g) : Leads c w P (if p then f else g) := by
  split
  · exact hf
  · exact hg

/-- The end of `handleSocketEvent`: the stage's handler and the bookkeeping after it. -/
def handleStage (c : Nat) (d : Side) (events : Bits) (stage : Stage) : Worker Unit := do
  if stage = .relay then handleSpliceRelay c d events
  else
    match d with
    | .client => handleClientEvent c events
    | .upstream => handleUpstreamHandshake c events
  updateConnectionEvents c
  modify fun s => s.noteConnectionDeadline c

/-- `handleSocketEvent` for connection `conn`, of which the event is one. -/
def handleKnown (c : Nat) (d : Side) (events : Bits) (conn : Conn) : Worker Unit := do
  if events.err then
    if let some fd := conn.fd d then
      modify fun s => s.onSock fd fun k => { k with failed := true }
  handleStage c d events conn.stage

/-- **An event of a connection.** -/
theorem handleSocketEvent_sat (hl : Listed w.1) (c : Nat) (d : Side) (events : Bits) :
    Prog.Sat timely (fun w' _ => w' = w ∨ (Moves c w w' ∧ Listed w'.1))
      ((handleSocketEvent c d events).watch tick w) := by
  obtain ⟨s, t⟩ := w
  show Prog.Sat timely _ (Prog.watch tick t (handleSocketEvent c d events s))
  simp only [handleSocketEvent, Act.bind_run, get_run, Prog.ret_bind]
  cases hknown : ((s.conns c).ref d).connection with
  | false => exact .inl rfl
  | true =>
      have hlt : c < s.accepted := hl.known hknown
      have hend : Leads c (s, t) (fun w' => Moves c (s, t) w' ∧ Listed w'.1) (do
          updateConnectionEvents c
          modify fun s => s.noteConnectionDeadline c) := by
        refine Leads.bind minds_updateConnectionEvents.works fun _ => ?_
        exact fun h => h.moves_note hl hlt
      have hstage : Leads c (s, t) (fun w' => Moves c (s, t) w' ∧ Listed w'.1)
          (handleStage c d events (s.conns c).stage) := by
        refine leads_ite (Leads.bind (works_handleSpliceRelay d events) fun _ => hend) ?_
        cases d with
        | client => exact Leads.bind (works_handleClientEvent events) fun _ => hend
        | upstream => exact Leads.bind (works_handleUpstreamHandshake events) fun _ => hend
      have hall : Leads c (s, t) (fun w' => Moves c (s, t) w' ∧ Listed w'.1)
          (handleKnown c d events (s.conns c)) := by
        refine leads_ite ?_ hstage
        cases (s.conns c).fd d with
        | none => exact hstage
        | some fd => exact Leads.bind minds_onSock.works fun _ => hstage
      exact (hall (Beside.refl c (s, t)).handles).mono fun _ _ => .inr

/-! ## New clients -/

/-- Code about a connection that is not in the lists. -/
structure Builds (c : Nat) (w w' : State × Nat) : Prop extends Around c w w' where
  lists : w'.1.active = w.1.active ∧ w'.1.closed = w.1.closed

theorem Beside.builds (h : Beside c w w') : Builds c w w' := ⟨h.toAround, h.lists⟩

theorem Builds.trans (h : Builds c w w') (h' : Builds c w' w'') : Builds c w w'' :=
  ⟨h.toAround.trans h'.toAround, h'.lists.1.trans h.lists.1, h'.lists.2.trans h.lists.2⟩

theorem Listed.builds (h : Listed w.1) (b : Builds c w w') (hlt : c < w.1.accepted)
    (hnot : c ∉ w.1.active) : Listed w'.1 := by
  have hother : ∀ {c'}, c' ∈ w.1.active → w'.1.conns c' = w.1.conns c' := by
    intro c' hc
    refine b.conns ?_
    rintro rfl
    exact hnot hc
  refine ⟨b.lists.1 ▸ h.nodup, fun hc => ?_, fun hc => ?_, fun hc => ?_, fun hc => ?_,
    fun {c' d} hc => ?_, b.listeners h.listeners⟩
  · rw [b.lists.1] at hc
    rw [hother hc]
    exact h.live hc
  · exact Nat.lt_of_lt_of_le (h.activeLt (b.lists.1 ▸ hc)) b.accepted
  · exact Nat.lt_of_lt_of_le (h.closedLt (b.lists.2 ▸ hc)) b.accepted
  · rw [b.lists.2]
    exact h.apart (b.lists.1 ▸ hc)
  · refine Nat.lt_of_lt_of_le ?_ b.accepted
    by_cases hne : c' = c
    · exact hne ▸ hlt
    · rw [b.conns hne] at hc
      exact h.known hc

/-- A descriptor that does not exist yet is no listener. -/
theorem Listed.fresh (h : Listed s) (hfd : s.fds fd = none) : ¬ s.cfg.Listener fd := by
  intro hl
  have := (h.listeners hl).1
  rw [hfd] at this
  cases this

/-- A new client. -/
theorem accept_sat (c : Nat) (listener : Nat) :
    Prog.Sat timely (fun w' r => Beside c w w' ∧ ∀ n fd, r = .ok (n, fd) →
      n = w.1.accepted ∧ n < w'.1.accepted ∧ w.1.fds fd = none)
      ((accept listener).watch tick w) := by
  obtain ⟨s, t⟩ := w
  rintro (r : Except Errno Nat) ⟨hr, -⟩
  cases r with
  | error e => exact ⟨Beside.refl .., fun n fd h => nomatch h⟩
  | ok fd =>
      have hfree : s.fds fd = none := by simpa [ok, okb] using hr
      refine ⟨⟨⟨rfl, Nat.le_succ _, id, fun _ => rfl, id, ⟨Nat.le_refl _, id⟩, fun {e} _ hu => ?_⟩,
        ⟨rfl, rfl⟩, rfl⟩, fun n fd' h => ?_⟩
      · have hne : e ≠ fd := by
          rintro rfl
          rw [hu.1] at hfree
          cases hfree
        refine ⟨⟨(update_of_ne hne ..).trans hu.1, fun hh => hu.2 ?_⟩, rfl⟩
        refine Holds.of_fewer (c := 0) ?_ ?_ ?_ ?_ hh
        · exact fun _ => rfl
        · exact Fewer.refl _
        · rfl
        · rfl
      · cases h
        exact ⟨rfl, Nat.lt_succ_self _, hfree⟩

/-- A new record, with its client. -/
def Conn.start (fd now : Nat) (dst : DstAddr) : Conn :=
  { Conn.zero with
    fd := update (fun _ => none) .client (some fd)
    createdAtMs := now, lastActivityMs := now, target := dst
    ref := fun _ => ⟨true, Bits.none⟩ }

theorem builds_modConn {f : Conn → Conn} (hfd : ∀ {d fd}, (f (s.conns c)).fd d = some fd → Spared s fd)
    (hpipe : ∀ d, (f (s.conns c)).pipe d = (s.conns c).pipe d ∨ (f (s.conns c)).pipe d = initSplicePipe)
    (hstamped : Stamped (s.conns c) t → Stamped (f (s.conns c)) t) :
    Builds c (s, t) (s.modConn c f, t) := by
  have hself := modConn_conns s c f
  have hconns : ∀ {c'}, c' ≠ c → (s.modConn c f).conns c' = s.conns c' := fun hne =>
    update_of_ne hne ..
  refine ⟨around_of_spared rfl (Nat.le_refl _) id hconns (fun h => ?_) (fun {e} hh => ?_) .inl
    (.inl rfl), rfl, rfl⟩
  · rw [hself]
    exact hstamped h
  · cases hh with
    | socket c' d h =>
        by_cases hc : c' = c
        · rw [hc, hself] at h
          exact hfd h
        · exact (Holds.socket c' d (hconns hc ▸ h)).spared
    | read c' d h =>
        by_cases hc : c' = c
        · rw [hc, hself] at h
          rcases hpipe d with hp | hp
          · exact (Holds.read c d (hp ▸ h)).spared
          · rw [hp] at h
            cases h
        · exact (Holds.read c' d (hconns hc ▸ h)).spared
    | write c' d h =>
        by_cases hc : c' = c
        · rw [hc, hself] at h
          rcases hpipe d with hp | hp
          · exact (Holds.write c d (hp ▸ h)).spared
          · rw [hp] at h
            cases h
        · exact (Holds.write c' d (hconns hc ▸ h)).spared
    | pool p hp h => exact (Holds.pool (s := s) p hp h).spared
    | spare h => exact (Holds.spare (s := s) h).spared

theorem badge_modConn {f : Conn → Conn} (h : ∀ k, (f k).badge = k.badge) :
    ((s.modConn c f).conns c).badge = (s.conns c).badge := by
  rw [modConn_conns]
  exact h _

/-- What is left of a record is freed. -/
theorem builds_freeConnection : Builds c (s, t) (s.freeConnection c, t) := by
  have hconns : ∀ o : Option Nat, (s.closeOpt o).conns = s.conns := by
    intro o
    cases o with
    | none => rfl
    | some fd =>
        obtain ⟨socks, hs⟩ := onSock_socks s fd fun k => { k with isOpen := false }
        simp only [State.closeOpt, State.closeFd, hs]
  have hclient : Beside c (s, t) (s.closeOpt ((s.conns c).fd .client), t) :=
    beside_closeOpt fun h => .socket c .client h
  have hupstream : Beside c (s.closeOpt ((s.conns c).fd .client), t)
      ((s.closeOpt ((s.conns c).fd .client)).closeOpt ((s.conns c).fd .upstream), t) :=
    beside_closeOpt fun h => .socket c .upstream (by rw [hconns]; exact h)
  have hsockets : Builds c (s, t) (s.closeSockets c, t) :=
    (hclient.trans hupstream).builds.trans
      (builds_modConn (fun h => absurd h (by simp)) (fun _ => .inl rfl) id)
  exact (hsockets.trans beside_releaseSplicePipe.builds).trans beside_releaseSplicePipe.builds

/-- The connection to the server. -/
theorem minds_connectNonblockingAddr : Minds c (connectNonblockingAddr c) := by
  rintro ⟨s, t⟩ (r : Except Errno (Nat × Bool)) ⟨hr, -⟩
  match r with
  | .error e => exact Beside.refl ..
  | .ok (fd, inProgress) =>
      have hfree : s.fds fd = none := by simpa [ok, okb] using hr
      have hspared : Spared s fd := .inr (.inl (by rw [hfree]; simp))
      have hopen : Beside c (s, t) (s.openSocket fd c .upstream, t) := by
        refine beside_of_conns rfl ⟨⟨rfl, rfl⟩, rfl⟩ rfl rfl rfl (fun {e} he => ?_) (.inl rfl)
        by_cases hne : e = fd
        · exact .inr (hne ▸ hspared)
        · exact .inl ((update_of_ne hne ..).trans he)
      have hfd : (s.openSocket fd c .upstream).fds fd ≠ some .listener := by
        show update s.fds fd (some (.socket c .upstream)) fd ≠ _
        rw [update_self]
        simp
      have hname : Builds c (s.openSocket fd c .upstream, t)
          ((s.openSocket fd c .upstream).modConn c fun k =>
            { k with fd := update k.fd .upstream (some fd)
                     stage := if inProgress then .connecting else .requestWrite }, t) := by
        refine builds_modConn (fun {d e} he => ?_) (fun _ => .inl rfl) id
        have he : update ((s.openSocket fd c .upstream).conns c).fd .upstream (some fd) d = some e := he
        by_cases hd : d = .upstream
        · rw [hd, update_self, Option.some.injEq] at he
          exact .inr (.inl (he ▸ hfd))
        · rw [update_of_ne hd] at he
          exact (Holds.socket c d he).spared
      refine hopen.trans ⟨hname.toAround, hname.lists, ?_⟩
      exact badge_modConn (s := s.openSocket fd c .upstream) (c := c)
        (f := fun k => { k with fd := update k.fd .upstream (some fd)
                                stage := if inProgress then .connecting else .requestWrite })
        fun _ => rfl

theorem minds_writeFirst : Minds c (writeFirst c) :=
  minds_get.bind fun _ => minds_ite
    (minds_startHandshake.bind fun _ => minds_ite minds_flushHandshake (minds_pure _)) (minds_pure _)

/-- A record that can be put into the active list. -/
structure Ready (k : Conn) (t : Nat) : Prop where
  closing : k.closing = false
  activeLinked : k.activeLinked = false
  stamped : Stamped k t

theorem Ready.beside (h : Ready (w.1.conns c) w.2) (a : Beside c w w') : Ready (w'.1.conns c) w'.2 :=
  ⟨(congrArg Badge.closing a.badge).trans h.closing,
    (congrArg Badge.activeLinked a.badge).trans h.activeLinked, a.stamped h.stamped⟩

/-- **`create_connection`**: a record that is ready, or nothing. -/
theorem createConnection_sat (hfd : ¬ w.1.cfg.Listener fd) (dst : DstAddr) :
    Prog.Sat timely (fun w' r => Builds c w w' ∧ (r = .ok () → Ready (w'.1.conns c) w'.2))
      ((createConnection c fd dst).watch tick w) := by
  obtain ⟨s, t⟩ := w
  have hspared : ∀ {s' : State}, s'.cfg = s.cfg → Spared s' fd := fun h => .inr (.inr (h ▸ hfd))
  rintro (r : Option Errno) -
  cases r with
  | some e =>
      refine ⟨((beside_mark c .noMemory true).trans (beside_closeFd (hspared rfl))).builds, ?_⟩
      exact fun h => nomatch h
  | none =>
      rintro (now : Nat) ⟨-, hnow⟩
      have hrecord : Builds c (s, t) (s.modConn c fun _ => Conn.start fd now dst, now) := by
        refine (beside_tick hnow).builds.trans
          (builds_modConn (fun {d e} he => ?_) (fun _ => .inr rfl) fun _ => ⟨Nat.le_refl _, Nat.le_refl _⟩)
        cases d with
        | client =>
            have he : some fd = some e := he
            exact Option.some.inj he ▸ hspared rfl
        | upstream => cases he
      have hready : Ready ((s.modConn c fun _ => Conn.start fd now dst).conns c) now := by
        rw [modConn_conns]
        exact ⟨rfl, rfl, Nat.le_refl _, Nat.le_refl _⟩
      show Prog.Sat timely _ (Prog.watch tick now
        ((connectNonblockingAddr c (s.modConn c fun _ => Conn.start fd now dst)).bind _))
      rw [Prog.watch_bind]
      refine (minds_connectNonblockingAddr.sat (s.modConn c fun _ => Conn.start fd now dst, now)).bind
        fun w₁ connected h₁ => ?_
      have hb₁ : Builds c (s, t) w₁ := hrecord.trans h₁.builds
      have habandon : ∀ {w₂ : State × Nat}, Builds c (s, t) w₂ →
          Builds c (s, t) (w₂.1.abandon c, w₂.2) := fun hb =>
        (hb.trans (beside_resetOnClose _).builds).trans builds_freeConnection
      cases connected with
      | error e => exact ⟨habandon hb₁, fun h => nomatch h⟩
      | ok _ =>
          show Prog.Sat timely _ (Prog.watch tick w₁.2 ((writeFirst c w₁.1).bind _))
          rw [Prog.watch_bind]
          refine (minds_writeFirst.sat w₁).bind fun w₂ written h₂ => ?_
          have hb₂ : Builds c (s, t) w₂ := hb₁.trans h₂.builds
          cases written with
          | error e => exact ⟨habandon hb₂, fun h => nomatch h⟩
          | ok _ => exact ⟨hb₂, fun _ => (hready.beside h₁).beside h₂⟩

end Bpf2Socks.Tcp

/-
# Bpf2Socks.Tcp.Events — one event keeps the invariant.

A handler leaves its connection in order or closed; `updateConnectionEvents` then brings the
registered interest in line with the pipes.  The handshake is checked on the way to the relay:
each of its failures leaves a connection that `resetConnection` can take.
-/
import Bpf2Socks.Tcp.Shaking

namespace Bpf2Socks.Tcp

open Function (update update_self update_of_ne)
open Lib (Prog Act)
open Udp (Bits)
open Worker

variable {s s' : State} {c fd : Nat} {d : Side}

/-! ## Interest -/

section register

variable (s : State) (c fd : Nat) (d : Side) (events : Bits)

@[simp] theorem register_socks : (s.register fd (.conn c d) events).socks = s.socks := rfl
@[simp] theorem register_marks : (s.register fd (.conn c d) events).marks = s.marks := rfl
@[simp] theorem register_fds : (s.register fd (.conn c d) events).fds = s.fds := rfl
@[simp] theorem register_closed : (s.register fd (.conn c d) events).closed = s.closed := rfl
@[simp] theorem register_interest : (s.register fd (.conn c d) events).interest =
    update s.interest fd (if events = Bits.none then none else some (.conn c d, events)) := rfl
@[simp] theorem register_conn : (s.register fd (.conn c d) events).conns c =
    { s.conns c with ref := update (s.conns c).ref d { (s.conns c).ref d with events } } := by
  simp [State.register]

end register

/-- The record of a ref is not what a connection carries. -/
theorem kin_register (s : State) (c fd : Nat) (d : Side) (events : Bits) :
    Kin c s (s.register fd (.conn c d) events) :=
  ⟨by simp, by simp, by simp, fun _ => ⟨rfl, rfl, rfl, rfl, rfl⟩⟩

theorem Core.register (h : Core s c) (hfd : (s.conns c).fd d = some fd) (events : Bits) :
    Core (s.register fd (.conn c d) events) c := by
  have hsock := h.tidy.sockets hfd
  refine ⟨h.others.register hsock d events, ?_, ⟨fun e => ?_, ?_, fun e => ?_⟩, h.unclosed⟩
  · refine (kin_register s c fd d events).tidy h.tidy rfl (fun {e g} hg => ?_) (fun e => ?_)
      (fun _ => rfl) (fun _ => rfl) id
    · rw [register_conn] at hg
      exact h.tidy.sockets hg
    · rw [register_conn]
      exact h.tidy.opened e
  · obtain ⟨g, hg, hreg⟩ := h.standing.fd e
    refine ⟨g, by rw [register_conn]; exact hg, ?_⟩
    unfold Registered
    rw [register_conn, register_interest]
    rcases d.eq_or_other e with rfl | rfl
    · obtain rfl : fd = g := by rw [hfd] at hg; exact Option.some.inj hg
      simp
    · have hne : g ≠ fd := by
        rintro rfl
        have := hsock.symm.trans (h.tidy.sockets hg)
        simp at this
      rw [update_of_ne hne, hreg]
      simp
  · rw [register_conn]
    exact h.standing.closing
  · rw [register_conn]
    rcases d.eq_or_other e with rfl | rfl
    · simpa using h.standing.connection e
    · simpa using h.standing.connection d.other

theorem Work.register (h : Work s c) (hfd : (s.conns c).fd d = some fd) (events : Bits) :
    Work (s.register fd (.conn c d) events) c :=
  ⟨h.core.register hfd events, Unmarked.congr (s := s) rfl rfl h.unmarked,
    h.phase.of_kin (kin_register s c fd d events) (by simp) rfl fun _ => ⟨rfl, rfl⟩,
    h.clean⟩

theorem Work.markUnchanged (h : Work s c) : Work (s.mark c .unchanged true) c := by
  have hm : ∀ {m}, m ≠ .unchanged → (s.mark c .unchanged true).marks c m = s.marks c m :=
    fun hne => mark_ne _ _ _ _ hne
  have hk : Kin c s (s.mark c .unchanged true) := ⟨rfl, rfl, rfl, fun _ => ⟨rfl, rfl, rfl, rfl, rfl⟩⟩
  refine ⟨⟨h.core.others.mark _ _, ?_, Standing.congr (s := s) (.of_eq rfl) h.core.standing
    fun _ => rfl, h.core.unclosed⟩, ?_,
    h.phase.of_kin hk rfl rfl fun d => ⟨hm (by simp), hm (by simp)⟩, h.clean⟩
  · exact hk.tidy h.core.tidy (hm (by simp)) h.core.tidy.sockets h.core.tidy.opened (fun _ => rfl)
      (fun _ => rfl) id
  · refine ⟨h.unmarked.linger, (hm (by simp)).trans h.unmarked.hungUp, ?_,
      (hm (by simp)).trans h.unmarked.idle, (hm (by simp)).trans h.unmarked.stopped⟩
    unfold Slipped
    rw [hm (by simp), hm (by simp), hm (by simp)]
    exact h.unmarked.slipped

/-- The ref of one side is as its pipes call for. -/
def SettledSide (s : State) (c : Nat) (d : Side) : Prop :=
  s.marks c .unchanged = true ∨ ((s.conns c).ref d).events = sideEvents (s.conns c) d

theorem register_sideEvents (s : State) (c fd : Nat) (d e : Side) (events : Bits) :
    sideEvents ((s.register fd (.conn c d) events).conns c) e = sideEvents (s.conns c) e := by
  rw [register_conn]
  cases e <;> rfl

/-- `mod_fd` on a socket of the connection. -/
theorem modFd_sat (s : State) (c fd : Nat) (d : Side) (events : Bits) : Prog.Sat ok
    (fun s' b => (s' = s ∧ (b = true → ((s.conns c).ref d).events = events)) ∨
      (b = true ∧ s' = s.register fd (.conn c d) events)) (modFd fd (.conn c d) events s) := by
  unfold modFd
  simp only [Act.bind_run, get_run, Prog.ret_bind]
  refine Act.sat_ite (fun heq => Or.inl ⟨rfl, fun _ => heq⟩) fun _ => ?_
  have hend : ∀ done : Bool, Prog.Sat ok
      (fun s' b => (s' = s ∧ (b = true → ((s.conns c).ref d).events = events)) ∨
        (b = true ∧ s' = s.register fd (.conn c d) events))
      ((do
        if done then modify fun s => s.register fd (.conn c d) events
        pure done : Worker Bool) s) := fun done => by
    cases done with
    | false => exact Or.inl ⟨rfl, fun hbad => absurd hbad (by simp)⟩
    | true => exact Or.inr ⟨rfl, rfl⟩
  refine Act.sat_ite (fun _ => fun done _ => hend done) fun _ =>
    Act.sat_ite (fun _ => fun r _ => hend r.isNone) (fun _ => fun r _ => hend r.isNone)

theorem updateSideEvents_sat (h : Work s c) (d : Side) : Prog.Sat ok
    (fun s' _ => Work s' c ∧ SettledSide s' c d ∧ (SettledSide s c d.other → SettledSide s' c d.other))
    (updateSideEvents c d s) := by
  unfold updateSideEvents
  obtain ⟨fd, hfd, -⟩ := h.core.standing.fd d
  simp only [Act.bind_run, get_run, Prog.ret_bind, hfd]
  refine (modFd_sat s c fd d _).bind fun s₁ b hb => ?_
  rcases hb with ⟨rfl, hb⟩ | ⟨rfl, rfl⟩
  · cases b with
    | true => exact ⟨h, Or.inr (hb rfl), id⟩
    | false => exact ⟨h.markUnchanged, Or.inl (mark_self ..), fun _ => Or.inl (mark_self ..)⟩
  · refine ⟨h.register hfd _, Or.inr ?_, fun ho => ho.imp id fun ho => ?_⟩
    · rw [register_sideEvents, register_conn]
      simp
    · rw [register_sideEvents, register_conn]
      simpa using ho

/-- `update_connection_events` and `note_connection_deadline` after a handler. -/
theorem settle_sat (h : Handled c s) : Prog.Sat ok (fun s' _ => Sound s')
    ((do
      updateConnectionEvents c
      modify fun s => s.noteConnectionDeadline c : Worker Unit) s) := by
  have hnote : ∀ {s : State}, Sound s → Sound (s.noteConnectionDeadline c) := fun {s} hs => by
    unfold State.noteConnectionDeadline
    split
    · exact hs
    · exact hs.rest ⟨rfl, rfl, rfl, rfl, rfl, rfl, rfl, rfl, id, rfl⟩
  unfold updateConnectionEvents
  simp only [Act.bind_run, get_run, Prog.ret_bind]
  rcases h with hw | ⟨hs, hclosing⟩
  · rw [Act.ite_run, if_neg (by rw [hw.core.standing.closing]; simp)]
    refine Prog.Sat.bind ?_ fun s₁ _ h₁ => hnote h₁
    refine (updateSideEvents_sat hw .client).bind fun s₁ _ ⟨h₁, hset₁, _⟩ => ?_
    refine (updateSideEvents_sat h₁ .upstream).mono fun s₂ _ ⟨h₂, hset₂, hset₂'⟩ => ?_
    have hset : Settled s₂ c := by
      rcases hset₂ with hun | hup
      · exact Or.inl hun
      · rcases hset₂' hset₁ with hun | hcli
        · exact Or.inl hun
        · exact Or.inr fun d => by
            cases d with
            | client => exact hcli
            | upstream => exact hup
    exact h₂.core.others.sound
      ⟨h₂.core.tidy, Or.inl ⟨h₂.core.standing, h₂.unmarked, h₂.phase, h₂.clean, hset⟩⟩
      fun hmem => absurd hmem h₂.core.unclosed
  · rw [Act.ite_run, if_pos hclosing]
    exact hnote hs

end Bpf2Socks.Tcp

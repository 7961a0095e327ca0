/-
# Bpf2Socks.Tcp.Local — the state changes of one connection.

For each change that the code makes to a connection: which fields it leaves alone, and that it
stays within the connection, so that the invariant of the others is kept.
-/
import Bpf2Socks.Tcp.Sound

namespace Bpf2Socks.Tcp

open Function (update update_self update_of_ne)
open Udp (Bits)

variable {s s' : State} {c fd : Nat} {d : Side}

/-! ## Fields that a change leaves alone -/

section fields

variable (s : State) (c : Nat) (d : Side) (f : Conn → Conn) (g : Sock → Sock) (m : Mark) (b : Bool)

@[simp] theorem modConn_conns : (s.modConn c f).conns c = f (s.conns c) := update_self ..
@[simp] theorem modConn_socks : (s.modConn c f).socks = s.socks := rfl
@[simp] theorem modConn_marks : (s.modConn c f).marks = s.marks := rfl
@[simp] theorem modConn_fds : (s.modConn c f).fds = s.fds := rfl
@[simp] theorem modConn_interest : (s.modConn c f).interest = s.interest := rfl
@[simp] theorem modConn_accepted : (s.modConn c f).accepted = s.accepted := rfl
@[simp] theorem modConn_closed : (s.modConn c f).closed = s.closed := rfl

@[simp] theorem modSock_conns : (s.modSock c d g).conns = s.conns := rfl
@[simp] theorem modSock_self : (s.modSock c d g).socks c d = g (s.socks c d) := by
  simp [State.modSock]
@[simp] theorem modSock_other : (s.modSock c d g).socks c d.other = s.socks c d.other := by
  simp [State.modSock]
@[simp] theorem modSock_back : (s.modSock c d.other g).socks c d = s.socks c d := by
  simp [State.modSock]
@[simp] theorem modSock_marks : (s.modSock c d g).marks = s.marks := rfl
@[simp] theorem modSock_fds : (s.modSock c d g).fds = s.fds := rfl
@[simp] theorem modSock_interest : (s.modSock c d g).interest = s.interest := rfl
@[simp] theorem modSock_accepted : (s.modSock c d g).accepted = s.accepted := rfl
@[simp] theorem modSock_closed : (s.modSock c d g).closed = s.closed := rfl

@[simp] theorem mark_conns : (s.mark c m b).conns = s.conns := rfl
@[simp] theorem mark_socks : (s.mark c m b).socks = s.socks := rfl
@[simp] theorem mark_self : (s.mark c m b).marks c m = b := by simp [State.mark]
theorem mark_ne {m' : Mark} (h : m' ≠ m) : (s.mark c m b).marks c m' = s.marks c m' := by
  simp [State.mark, h]
@[simp] theorem mark_fds : (s.mark c m b).fds = s.fds := rfl
@[simp] theorem mark_interest : (s.mark c m b).interest = s.interest := rfl
@[simp] theorem mark_accepted : (s.mark c m b).accepted = s.accepted := rfl
@[simp] theorem mark_closed : (s.mark c m b).closed = s.closed := rfl

end fields

theorem onSock_eq (h : s.fds fd = some (.socket c d)) (g : Sock → Sock) :
    s.onSock fd g = s.modSock c d g := by
  simp only [State.onSock, h]

theorem Held.pushPipe {r w : Nat} {content bytes : List (Nat × UInt8)} (h : Held s c d r w content) :
    s.pushPipe w bytes =
      { s with fds := update s.fds r (some (.pipeRead (some (c, d)) (content ++ bytes))) } := by
  simp only [State.pushPipe, h.write, h.read]

theorem Held.content_write {r w : Nat} {content : List (Nat × UInt8)} (h : Held s c d r w content) :
    s.content w = content := by
  simp only [State.content, h.write, h.read]

theorem Held.content_read {r w : Nat} {content : List (Nat × UInt8)} (h : Held s c d r w content) :
    s.content r = content := by
  simp only [State.content, h.read]

/-- The two ends of a pipe are different descriptors. -/
theorem Held.ne {r w : Nat} {content : List (Nat × UInt8)} (h : Held s c d r w content) :
    w ≠ r := by
  rintro rfl
  have := h.write.symm.trans h.read
  simp at this

/-! ## Whose pipe a descriptor is -/

section pipeOf

variable {fds : Nat → Option Desc} {r w : Nat} {holder : Option (Nat × Side)}
  {content : List (Nat × UInt8)}

theorem pipeOf_read (h : fds r = some (.pipeRead holder content)) : pipeOf fds r = some holder := by
  simp only [pipeOf, h]

theorem pipeOf_write (hw : fds w = some (.pipeWrite r)) (hr : fds r = some (.pipeRead holder content)) :
    pipeOf fds w = some holder := by
  simp only [pipeOf, hw, hr, holderOf]

theorem holderOf_of_none (h : pipeOf fds fd = none) : holderOf (fds fd) = none := by
  unfold holderOf
  split
  · rename_i hread
    cases (pipeOf_read hread).symm.trans h
  · rfl

theorem pipeOf_congr {fds' : Nat → Option Desc} (hfd : fds' fd = fds fd)
    (hr : ∀ r, fds fd = some (.pipeWrite r) → holderOf (fds' r) = holderOf (fds r)) :
    pipeOf fds' fd = pipeOf fds fd := by
  unfold pipeOf
  rw [hfd]
  split
  · rfl
  · rename_i r hw
    rw [hr r hw]
  · rfl

/-- What is no pipe becomes something else that is none. -/
theorem pipeOf_update {x : Option Desc} (hfd : pipeOf fds fd = none)
    (hx : pipeOf (update fds fd x) fd = none) : pipeOf (update fds fd x) = pipeOf fds := by
  funext e
  by_cases he : e = fd
  · rw [he, hfd, hx]
  refine pipeOf_congr (update_of_ne he ..) fun r _ => ?_
  by_cases hr : r = fd
  · rw [hr, holderOf_of_none hfd, holderOf_of_none hx]
  · rw [update_of_ne hr]

/-- The read end of a pipe is set: the pipe is whose the new read end says. -/
theorem pipeOf_setRead (r : Nat) (holder : Option (Nat × Side)) (content : List (Nat × UInt8)) (e : Nat) :
    pipeOf (update fds r (some (.pipeRead holder content))) e = pipeOf fds e ∨
      pipeOf (update fds r (some (.pipeRead holder content))) e = some holder ∧
        (e = r ∨ fds e = some (.pipeWrite r)) := by
  by_cases he : e = r
  · exact .inr ⟨he ▸ pipeOf_read (update_self ..), .inl he⟩
  by_cases hw : fds e = some (.pipeWrite r)
  · exact .inr ⟨pipeOf_write ((update_of_ne he ..).trans hw) (update_self ..), .inr hw⟩
  refine .inl (pipeOf_congr (update_of_ne he ..) fun r' hr' => ?_)
  have hne : r' ≠ r := by
    rintro rfl
    exact hw hr'
  rw [update_of_ne hne]

/-- A pipe whose content changes is whose it was. -/
theorem pipeOf_setContent (h : fds r = some (.pipeRead holder content))
    (content' : List (Nat × UInt8)) :
    pipeOf (update fds r (some (.pipeRead holder content'))) = pipeOf fds := by
  funext e
  rcases pipeOf_setRead r holder content' e with heq | ⟨heq, he | hw⟩
  · exact heq
  · rw [heq, he, pipeOf_read h]
  · rw [heq, pipeOf_write hw h]

/-- A write end for a read end without one. -/
theorem pipeOf_setWrite (hw : pipeOf fds w = none) (hr : fds r = some (.pipeRead holder content)) (e : Nat) :
    pipeOf (update fds w (some (.pipeWrite r))) e = pipeOf fds e ∨
      pipeOf (update fds w (some (.pipeWrite r))) e = some holder ∧ e = w := by
  have hne : r ≠ w := by
    rintro rfl
    cases (pipeOf_read hr).symm.trans hw
  by_cases he : e = w
  · subst he
    exact .inr ⟨pipeOf_write (update_self ..) ((update_of_ne hne ..).trans hr), rfl⟩
  refine .inl (pipeOf_congr (update_of_ne he ..) fun r' _ => ?_)
  by_cases hr' : r' = w
  · rw [hr', holderOf_of_none hw, update_self]
    rfl
  · rw [update_of_ne hr']

/-- Both ends of a pipe are closed. -/
theorem pipeOf_close (hw : fds w = some (.pipeWrite r))
    (honly : ∀ {e}, fds e = some (.pipeWrite r) → e = w) (e : Nat) :
    pipeOf (update (update fds r none) w none) e = pipeOf fds e ∧ e ≠ r ∧ e ≠ w ∨
      pipeOf (update (update fds r none) w none) e = none := by
  by_cases hew : e = w
  · exact .inr (by rw [hew, pipeOf, update_self])
  by_cases her : e = r
  · exact .inr (by rw [her, pipeOf, update_of_ne (her ▸ hew), update_self])
  refine .inl ⟨pipeOf_congr ((update_of_ne hew ..).trans (update_of_ne her ..)) fun r' hr' => ?_,
    her, hew⟩
  have hne : r' ≠ r := by
    rintro rfl
    exact hew (honly hr')
  by_cases hr'w : r' = w
  · rw [hr'w, hw, update_self]
    rfl
  · rw [update_of_ne hr'w, update_of_ne hne]

end pipeOf

/-! ## Changes within one connection -/

theorem Others.modConn (h : Others c s) (f : Conn → Conn) : Others c (s.modConn c f) :=
  h.congr
    { cfg := rfl, conns := fun hne => update_of_ne hne .., socks := fun _ => rfl
      marks := fun _ => rfl, fds := fun _ => Or.inl rfl, interest := fun _ => Or.inl rfl
      pipes := fun _ => Or.inl rfl, quiet := fun h => Or.inr ⟨h, rfl⟩, pool := rfl, accepted := rfl
      closed := Or.inl, spareFd := rfl }

theorem Others.modSock (h : Others c s) (d : Side) (g : Sock → Sock) :
    Others c (s.modSock c d g) :=
  h.congr
    { cfg := rfl, conns := fun _ => rfl, socks := fun hne => update_of_ne hne ..
      marks := fun _ => rfl, fds := fun _ => Or.inl rfl, interest := fun _ => Or.inl rfl
      pipes := fun _ => Or.inl rfl, quiet := fun h => Or.inr ⟨h, rfl⟩, pool := rfl, accepted := rfl
      closed := Or.inl, spareFd := rfl }

theorem Others.mark (h : Others c s) (m : Mark) (b : Bool) : Others c (s.mark c m b) :=
  h.congr
    { cfg := rfl, conns := fun _ => rfl, socks := fun _ => rfl
      marks := fun hne => update_of_ne hne .., fds := fun _ => Or.inl rfl
      interest := fun _ => Or.inl rfl, pipes := fun _ => Or.inl rfl
      quiet := fun h => Or.inr ⟨h, rfl⟩, pool := rfl, accepted := rfl, closed := Or.inl
      spareFd := rfl }

/-- A descriptor of the connection gets another content. -/
theorem Others.setFd (h : Others c s) (hm : Mine s c fd) {x : Desc}
    (hx : ∀ e, pipeOf (update s.fds fd (some x)) e = pipeOf s.fds e ∨
      ∃ d, pipeOf (update s.fds fd (some x)) e = some (some (c, d))) :
    Others c { s with fds := update s.fds fd (some x) } :=
  h.congr
    { cfg := rfl, conns := fun _ => rfl, socks := fun _ => rfl, marks := fun _ => rfl
      fds := fun e => by
        by_cases he : e = fd
        · exact Or.inr (he ▸ hm)
        · exact Or.inl (update_of_ne he ..)
      interest := fun _ => Or.inl rfl
      pipes := fun e => (hx e).imp_right Or.inr
      quiet := fun {e} hnone => by
        by_cases he : e = fd
        · subst he
          simp at hnone
        · have hnone : update s.fds fd (some x) e = none := hnone
          rw [update_of_ne he] at hnone
          exact Or.inr ⟨hnone, rfl⟩
      pool := rfl, accepted := rfl, closed := Or.inl, spareFd := rfl }

/-- A descriptor of the connection that is no pipe is taken out of the tables. -/
theorem Others.unsetFd (h : Others c s) (hm : Mine s c fd) (hfd : pipeOf s.fds fd = none) :
    Others c { s with fds := update s.fds fd none, interest := update s.interest fd none } :=
  have hupd : ∀ {α : Type} (t : Nat → Option α) (e : Nat),
      update t fd none e = t e ∨ Mine s c e := fun t e => by
    by_cases he : e = fd
    · exact Or.inr (he ▸ hm)
    · exact Or.inl (update_of_ne he ..)
  h.congr
    { cfg := rfl, conns := fun _ => rfl, socks := fun _ => rfl, marks := fun _ => rfl
      fds := hupd s.fds, interest := hupd s.interest
      pipes := fun e => Or.inl (congrFun (pipeOf_update hfd (by simp [pipeOf])) e)
      quiet := fun {e} hnone => by
        by_cases he : e = fd
        · subst he
          exact Or.inl (update_self ..)
        · have hnone : update s.fds fd none e = none := hnone
          rw [update_of_ne he] at hnone
          exact Or.inr ⟨hnone, update_of_ne he ..⟩
      pool := rfl, accepted := rfl, closed := Or.inl, spareFd := rfl }

/-- Closing a socket of the connection. -/
theorem closeFd_socket (h : s.fds fd = some (.socket c d)) :
    s.closeFd fd = { s.modSock c d fun k => { k with isOpen := false } with
      fds := update s.fds fd none, interest := update s.interest fd none } := by
  simp only [State.closeFd, onSock_eq h]

theorem Others.closeFd_socket (h : Others c s) (hfd : s.fds fd = some (.socket c d)) :
    Others c (s.closeFd fd) := by
  rw [Tcp.closeFd_socket hfd]
  have hm : Mine (s.modSock c d fun k => { k with isOpen := false }) c fd := by
    refine .own ?_
    simp [State.owner, hfd]
  exact (h.modSock d _).unsetFd hm (by simp [pipeOf, hfd])

/-- Closing a descriptor that is not a socket. -/
theorem closeFd_other (h : ∀ n d, s.fds fd ≠ some (.socket n d)) :
    s.closeFd fd =
      { s with fds := update s.fds fd none, interest := update s.interest fd none } := by
  unfold State.closeFd
  rw [show s.onSock fd (fun k => { k with isOpen := false }) = s from ?_]
  unfold State.onSock
  split
  · rename_i n d hfd
    exact absurd hfd (h n d)
  · rfl

theorem Others.register (h : Others c s) (hfd : s.fds fd = some (.socket c d)) (e : Side)
    (events : Bits) : Others c (s.register fd (.conn c e) events) := by
  have hm : Mine s c fd := .own (by simp [State.owner, hfd])
  have hreg : Others c { s with
      interest := update s.interest fd
        (if events = Bits.none then none else some (.conn c e, events)) } :=
    h.congr
      { cfg := rfl, conns := fun _ => rfl, socks := fun _ => rfl, marks := fun _ => rfl
        fds := fun _ => Or.inl rfl
        interest := fun e => by
          by_cases he : e = fd
          · exact Or.inr (he ▸ hm)
          · exact Or.inl (update_of_ne he ..)
        pipes := fun _ => Or.inl rfl
        quiet := fun {e} hnone => by
          have he : e ≠ fd := by
            rintro rfl
            have hnone : s.fds e = none := hnone
            simp [hfd] at hnone
          exact Or.inr ⟨hnone, update_of_ne he ..⟩
        pool := rfl, accepted := rfl, closed := Or.inl, spareFd := rfl }
  exact hreg.modConn fun k => { k with ref := update k.ref e { k.ref e with events } }

/-- Fields outside the connections and their descriptors do not matter. -/
theorem Others.lists (h : Others c s) (active closed : List Nat) (next resume : Nat)
    (hclosed : ∀ {c'}, c' ∈ closed → c' ∈ s.closed ∨ c' = c) :
    Others c { s with active, closed, nextDeadlineMs := next, listenersResumeMs := resume } :=
  h.congr
    { cfg := rfl, conns := fun _ => rfl, socks := fun _ => rfl, marks := fun _ => rfl
      fds := fun _ => Or.inl rfl, interest := fun _ => Or.inl rfl, pipes := fun _ => Or.inl rfl
      quiet := fun h => Or.inr ⟨h, rfl⟩, pool := rfl, accepted := rfl, closed := hclosed
      spareFd := rfl }

end Bpf2Socks.Tcp

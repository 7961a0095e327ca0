/-
# Bpf2Socks.Udp.Closing — what is written when bindings are destroyed and sessions detached.

The operations of `Drop` as updates of the records: which table a destroyed binding leaves behind,
which descriptor is closed with it, and what of a session's record detaching it changes.
-/
import Bpf2Socks.Udp.Sessions
import Bpf2Socks.Udp.BindTable

namespace Bpf2Socks.Udp

open Function (update update_self update_of_ne)

/-! ## Bindings -/

theorem BindTable.detach_core (t : BindTable) (k b : Nat) : (t.detach k b).core = t.core := by
  unfold BindTable.detach BindTable.indexRemove
  dsimp only
  split
  · rfl
  · split <;> rfl

theorem BindTable.detach_cap (t : BindTable) (k b : Nat) : (t.detach k b).cap = t.cap := by
  unfold BindTable.detach BindTable.indexRemove
  dsimp only
  split
  · rfl
  · split <;> rfl

theorem BindTable.detach_owned (t : BindTable) (k b : Nat) :
    (t.detach k b).owned = update t.owned k ((t.owned k).erase b) := by
  unfold BindTable.detach BindTable.indexRemove
  dsimp only
  split
  · rfl
  · split <;> rfl

/-- The table after a binding was destroyed. -/
def BindTable.destroyed (t : BindTable) (k b : Nat) : BindTable :=
  { (t.detach k b).clear b with free := b :: (t.detach k b).free }

/-- The descriptors after one of them was closed. -/
def closeIn (fds : Nat → Option OpenFd) : Option Nat → Nat → Option OpenFd
  | some fd => update fds fd none
  | none => fds

theorem releaseBinding_eq (s : State) (b : Nat) :
    releaseBinding s b = { s with
      bind := { s.bind.clear b with free := b :: s.bind.free }
      kern.fds := closeIn s.kern.fds (s.bind.core b).replyFd } := by
  unfold releaseBinding bindingCloseReply
  rcases (s.bind.core b).replyFd with _ | fd <;>
    simp [State.closeFd, State.modBinding, BindTable.clear, closeIn]

theorem destroyBinding_eq (s : State) (k b : Nat) :
    destroyBinding s k b = { s with
      bind := s.bind.destroyed k b
      kern.fds := closeIn s.kern.fds (s.bind.core b).replyFd } := by
  rw [destroyBinding, releaseBinding_eq, BindTable.destroyed]
  simp only [BindTable.detach_core]

theorem BindTable.destroyed_core (t : BindTable) (k b x : Nat) :
    (t.destroyed k b).core x = if x = b then .zero else t.core x := by
  unfold BindTable.destroyed BindTable.clear
  simp only [BindTable.detach_core]
  split
  · rename_i h
    rw [h, update_self]
  · rename_i h
    rw [update_of_ne h]

theorem BindTable.Inv.destroyed {t : BindTable} {lru : List Nat} {olru : Nat → List Nat}
    {k b : Nat} (h : t.Inv none lru olru) (hb : b ∈ lru) (ho : (t.core b).owner = some k) :
    ∃ lru olru, (t.destroyed k b).Inv none lru olru :=
  ⟨_, _, ((h.detach hb ho).clear).pushFree (by simp [BindTable.clear, Binding.zero])⟩

/-! ## Sessions -/

/-- The flag of a session and the count of those that wait go down together. -/
theorem markReady_eq (s : State) (k : Nat) :
    markReady s k = { s with
      down := update s.down k { s.down k with waitingBudget := false }
      waiters := s.waiters - (s.down k).waitingBudget.toNat } := by
  unfold markReady
  split
  · rename_i hw
    simp [State.modDown, hw]
  · rename_i hw
    have hd : { s.down k with waitingBudget := false } = s.down k := by
      rw [← Bool.eq_false_iff.mpr hw]
    rw [hd, Function.update_eq_self]
    simp [hw]

theorem SessTable.handshakeRemove_core (t : SessTable) (k j : Nat) :
    ∃ l, (t.handshakeRemove k).core j = { t.core j with handshakeLinked := l } := by
  unfold SessTable.handshakeRemove
  split
  · rcases eq_or_ne j k with rfl | hj
    · exact ⟨false, update_self _ _ _⟩
    · exact ⟨(t.core j).handshakeLinked, update_of_ne hj _ _⟩
  · exact ⟨(t.core j).handshakeLinked, rfl⟩

theorem SessTable.detach_core (t : SessTable) (k j : Nat) :
    ∃ l, (t.detach k).core j = { t.core j with handshakeLinked := l } := by
  unfold SessTable.detach
  dsimp only
  split <;> exact SessTable.handshakeRemove_core _ k j

end Bpf2Socks.Udp

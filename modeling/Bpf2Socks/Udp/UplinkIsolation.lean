/-
# Bpf2Socks.Udp.UplinkIsolation — whose association a client datagram leaves on.

`handle_udp_client_packets` collects the datagrams of a batch as pairs of a session pointer and a
message, and sends them when the batch is done.  Opening a session for a later datagram of the
batch may evict a session that is already in the array and reuse its slot; the pointer then names
the new session, and the older client's datagrams are handed to it.

As long as no slot in the array is taken, every entry keeps the session it was made for, and every
datagram leaves on the association of the client that sent it.
-/
import Bpf2Socks.Udp.SessionRuns

namespace Bpf2Socks.Udp

open Lib (Prog)
open Lib.Prog

variable {A : State → (q : Sys) → q.Ans → Prop} {C : Loc → State → Prop}
  {cfg : WorkerConfig} {l l' : Loc} {s s' : State}

/-- Every datagram that was handed to a relay association was handed to that of the client that
sent it. -/
def UplinkIsolated (s : State) : Prop :=
  ∀ r ∈ s.trace.relaySends, r.session.used = true ∧
    ∀ m ∈ r.messages, sameSockaddr r.session.clientAddr m.origin = true

/-- The session of `o` is still in its slot, and is the session of the client that sent the
datagram. -/
structure Outgoing.Owned (s : State) (o : Outgoing) : Prop where
  used : (s.tbl.core o.slot).used = true
  uid : (s.tbl.core o.slot).uid = o.uid
  addr : sameSockaddr (s.tbl.core o.slot).clientAddr o.msg.origin = true

/-- The worker is inside `handle_udp_client_packets`. -/
def Loc.inClientBatch : Loc → Bool
  | .clientPacket => true
  | .clientSession _ _ => true
  | .clientFlush => true
  | _ => false

/-- The datagram at hand does not make `alloc_session` take a slot that the outgoing array already
points to. -/
def sparesOutgoing (l : Loc) (s : State) : Bool :=
  match l with
  | .clientSession _ none => s.frame.outgoing.all fun o => allocTarget s ≠ some o.slot
  | _ => true

/-- What is kept along a run: the collected datagrams are those of their sessions' clients. -/
structure UplinkInv (l : Loc) (s : State) : Prop where
  isolated : UplinkIsolated s
  owned : l.inClientBatch = true → ∀ o ∈ s.frame.outgoing, o.Owned s

theorem Outgoing.Owned.kept {o : Outgoing} (h : o.Owned s) (hk : Kept s s' o.slot) : o.Owned s' :=
  ⟨hk.used.trans h.used, hk.uid.trans h.uid, hk.addr ▸ h.addr⟩

theorem UplinkIsolated.congr (h : UplinkIsolated s)
    (hr : s'.trace.relaySends = s.trace.relaySends) : UplinkIsolated s' := by
  unfold UplinkIsolated
  rw [hr]
  exact h

/-- One datagram is served: its entry is made for its own client, and the others keep theirs. -/
theorem UplinkInv.served {p : ClientPacket} {existing : Option Nat} {M : Prop}
    (h : UplinkInv (.clientSession p existing) s)
    (hc : sparesOutgoing (.clientSession p existing) s = true)
    (hs : Served M p existing s s') : UplinkInv .clientPacket s' := by
  obtain ⟨n, out, -, hr, hout⟩ := hs.rest
  have hold : ∀ o ∈ s.frame.outgoing, o.Owned s' := by
    intro o ho
    refine (h.owned rfl o ho).kept (hs.kept o.slot fun he => ?_)
    subst he
    simp only [sparesOutgoing, List.all_eq_true, decide_eq_true_eq] at hc
    exact hc o ho
  refine ⟨h.isolated.congr (congrArg Rest.relaySends hr), fun _ o ho => ?_⟩
  have hadd : s'.frame.outgoing = s.frame.outgoing ++ out := congrArg Rest.outgoing hr
  rcases List.mem_append.mp (hadd ▸ ho) with ho' | ho'
  · exact hold o ho'
  · rcases hout with rfl | ⟨k, rfl | rfl, hu, ha⟩
    · simp at ho'
    · simp at ho'
    · obtain rfl := List.mem_singleton.mp ho'
      exact ⟨hu, rfl, ha⟩

/-- One group is sent: the session in its slot is the one all its datagrams belong to. -/
theorem UplinkInv.flushed {o : Outgoing} {M : Prop} (h : UplinkInv .clientFlush s)
    (ho : o ∈ s.frame.outgoing) (hf : Flushed M s s' o) : UplinkInv .clientFlush s' := by
  obtain ⟨failed, hr⟩ := hf.rest
  have hsends : s'.trace.relaySends = ⟨o.slot, s.tbl.core o.slot,
      (s.frame.outgoing.filter fun o' => o'.slot = o.slot).map (·.msg), failed⟩ ::
      s.trace.relaySends := congrArg Rest.relaySends hr
  have hout : s'.frame.outgoing = s.frame.outgoing.filter fun o' => o'.slot ≠ o.slot :=
    congrArg Rest.outgoing hr
  refine ⟨fun r hmem => ?_, fun _ o' ho' => ?_⟩
  · rcases List.mem_cons.mp (hsends ▸ hmem) with rfl | hmem
    · refine ⟨(h.owned rfl o ho).used, fun m hm => ?_⟩
      obtain ⟨o', ho', rfl⟩ := List.mem_map.mp hm
      obtain ⟨ho', hslot⟩ := List.mem_filter.mp ho'
      have := (h.owned rfl o' ho').addr
      rwa [of_decide_eq_true hslot] at this
    · exact h.isolated r hmem
  · obtain ⟨ho', hslot⟩ := List.mem_filter.mp (hout ▸ ho')
    have hne : o'.slot ≠ o.slot := of_decide_eq_true hslot
    exact (h.owned rfl o' ho').kept ((hf.slots o'.slot).resolve_right fun hd => hne hd.1)

theorem uplinkInv_step {M : Prop} (hc : sparesOutgoing l s = true) (h : UplinkInv l s)
    (he : Effect M l s l' s') : UplinkInv l' s' := by
  cases he with
  | arrayDone => exact ⟨h.isolated, by simp [Loc.inClientBatch]⟩
  | event hd =>
      obtain ⟨_, _, _, _, _, hr⟩ := hd.rest
      refine ⟨h.isolated.congr (congrArg Rest.relaySends hr), fun hl o ho => ?_⟩
      rcases hd.next with rfl | rfl | rfl
      · simp [Loc.inClientBatch] at hl
      · simp [hd.outgoing rfl] at ho
      · simp [Loc.inClientBatch] at hl
  | looked hd =>
      obtain ⟨_, hr⟩ := hd.1.rest
      refine ⟨h.isolated.congr (congrArg Rest.relaySends hr), fun _ o ho => ?_⟩
      have hout : s'.frame.outgoing = s.frame.outgoing := congrArg Rest.outgoing hr
      exact (h.owned rfl o (hout ▸ ho)).kept (hd.1.kept _)
  | served hd => exact h.served hc hd
  | flushDone => exact ⟨h.isolated, by simp [Loc.inClientBatch]⟩
  | flushed ho hd => exact h.flushed ho hd
  | replied hd =>
      refine ⟨h.isolated.congr (congrArg Rest.relaySends hd.rest), fun hl => ?_⟩
      rcases hd.next with rfl | ⟨_, rfl⟩ <;> simp [Loc.inClientBatch] at hl
  | repliesDone hd =>
      exact ⟨h.isolated.congr (congrArg Rest.relaySends hd.rest), by simp [Loc.inClientBatch]⟩
  | maintained hd =>
      exact ⟨h.isolated.congr (congrArg Rest.relaySends hd.rest), by simp [Loc.inClientBatch]⟩

theorem Reach.uplinkInv (h : Reach A (fun l s => sparesOutgoing l s = true) cfg l s) :
    UplinkInv l s := by
  refine h.induct (I := UplinkInv) ⟨by simp [UplinkIsolated, initState], by simp [Loc.inClientBatch]⟩
    ?_ ?_
  · intro s evs _ hi _
    exact ⟨hi.isolated, by simp [Loc.inClientBatch]⟩
  · intro l s l' s' _ _ hc hi he
    exact uplinkInv_step hc hi he

/-- While the batch is sent, session `k` is only ever lost over datagrams of its own client. -/
def SparesOthers (s s' : State) (k : Nat) : Prop :=
  SameSession s s' k ∨
    (∃ o ∈ s.frame.outgoing, o.slot = k) ∧ ∀ o ∈ s.frame.outgoing, o.slot = k → o.Owned s

/-- In every run in which no slot the outgoing array points to is taken for a new session, client
datagrams leave on their own client's association only, and no session is dropped over another
client's datagrams. -/
theorem uplink_batch_isolated
    (h : Reach A (fun l s => sparesOutgoing l s = true) cfg l s) :
    UplinkIsolated s ∧ (l = .clientFlush → ∀ l' s', Step A (l, s) (l', s') →
      ∀ k, (s.tbl.core k).used = true → SparesOthers s s' k) := by
  have hinv := h.uplinkInv
  refine ⟨hinv.isolated, ?_⟩
  rintro rfl l' s' hstep k -
  obtain ⟨hs, -⟩ := h.sessions (M := False) False.elim
  cases hstep with
  | run ho =>
      rcases (clientFlush_sat hs).out ho with ⟨rfl, -⟩ | ⟨-, o, ho, hf⟩
      · exact Or.inl ⟨rfl, rfl, rfl⟩
      · rcases hf.slots k with hk | ⟨hk, -⟩
        · exact Or.inl hk.same
        · exact Or.inr ⟨⟨o, ho, hk.symm⟩, fun o' ho' _ => hinv.owned rfl o' ho'⟩

/-! ## Runs -/

/-- The session of client `a` is established; then one batch of client datagrams arrives and is
worked through. -/
def batchMoves (a : Sockaddr) (batch : List ClientDatagram) (n : Nat) : List Move :=
  openMoves a ++ establishMoves ++
    [.wake [(.listener4, .input)], .run (receiving batch)] ++ steps n

/-- A batch of one client goes out on its association. -/
theorem uplink_batch_isolated_run :
    ∃ l s, Reach ok (fun l s => sparesOutgoing l s = true) calmConfig l s ∧
      (s.trace.relaySends.map fun r => (r.session.clientAddr, r.messages.length)) =
        [(clientA, 2)] ∧ UplinkIsolated s := by
  obtain ⟨l, s, h, hr⟩ := exists_reach (B := okb) (E := sparesOutgoing) (A := ok)
    (C := fun l s => sparesOutgoing l s = true) (g := calmConfig) (fun _ _ _ h => h)
    (fun _ _ h => h) (batchMoves clientA [datagramFrom clientA, datagramFrom clientA] 6)
    (fun _ s => (s.trace.relaySends.map fun r => (r.session.clientAddr, r.messages.length)) =
      [(clientA, 2)]) (by decide +kernel)
  exact ⟨l, s, h, of_decide_eq_true hr, (uplink_batch_isolated h).1⟩

/-- With room for one session, a batch of the established client's datagram and one of a second
client hands the first client's datagram to the second client's session, and drops that session
for it. -/
theorem uplink_batch_crosses_clients :
    ∃ l s, Reach ok (fun _ _ => True) calmConfig l s ∧ ¬UplinkIsolated s ∧
      ∃ r ∈ s.trace.relaySends, r.session.used = true ∧ r.session.clientAddr = clientB ∧
        r.messages.map (·.origin) = [clientA] ∧ r.failed = true ∧
        (s.tbl.core r.slot).used = false := by
  obtain ⟨l, s, h, hr⟩ := exists_reach (B := okb) (E := fun _ _ => true) (A := ok)
    (C := fun _ _ => True) (g := calmConfig) (fun _ _ _ h => h) (fun _ _ _ => trivial)
    (batchMoves clientA [datagramFrom clientA, datagramFrom clientB] 6)
    (fun _ s => s.trace.relaySends.any fun r => r.session.used = true ∧
      r.session.clientAddr = clientB ∧ r.messages.map (·.origin) = [clientA] ∧ r.failed = true ∧
      (s.tbl.core r.slot).used = false) (by decide +kernel)
  obtain ⟨r, hmem, hr⟩ := List.any_eq_true.mp hr
  obtain ⟨hu, ha, hm, hf, hd⟩ := of_decide_eq_true hr
  refine ⟨l, s, h, fun hi => ?_, r, hmem, hu, ha, hm, hf, hd⟩
  obtain ⟨m, hm', ho⟩ : ∃ m ∈ r.messages, m.origin = clientA := by
    have : clientA ∈ r.messages.map (·.origin) := by simp [hm]
    simpa using this
  have := (hi r hmem).2 m hm'
  rw [ha, ho] at this
  exact absurd this (by decide)

end Bpf2Socks.Udp

/-
# Bpf2Socks.Udp.Sessions — what all code keeps of the sessions.

`Sessions` is the part of the worker's invariant that speaks about sessions: the table is whole,
its handshake list is in order, the sessions have numbers of their own, and notifications about
destroyed sockets are watched as long as there is a local session.

`Evolve` is the relation between the states before and after a piece of code that neither opens a
session nor touches the datagrams being handled.  `Sessions` is kept.  The slots in `U` are used
and stay so, those in `W` may change their stage, those in `D` may lose their session; every other
slot keeps its session as it is.
-/
import Bpf2Socks.Udp.Drop

namespace Bpf2Socks.Udp

open Function (update update_self update_of_ne)
open Lib (Prog Act DLists)
open Lib.Prog Lib.Act
open Worker hiding get modify ask diverge

/-! ## The invariant -/

/-- The handshake list, in the order the handshakes started.  Without a clock that never goes back
(`M`) only the starting times themselves are known to be past. -/
structure Handshakes (M : Prop) (t : SessTable) (hs : List Nat) (clock : Nat) : Prop where
  started_le : ∀ k ∈ hs, (t.core k).handshakeStartedMs ≤ clock
  sorted : M →
    hs.Pairwise fun j k => (t.core j).handshakeStartedMs ≤ (t.core k).handshakeStartedMs

/-- The table has no hole and its handshake list is in order. -/
def SessTable.Whole (M : Prop) (t : SessTable) (clock : Nat) : Prop :=
  ∃ lru hs, t.Inv none lru hs ∧ Handshakes M t hs clock

/-- The sessions of a worker. -/
structure Sessions (M : Prop) (s : State) : Prop where
  whole : s.tbl.Whole M s.trace.clock
  cap : s.tbl.cap = s.cfg.sessionCap
  uid_lt : ∀ {k}, (s.tbl.core k).used = true → (s.tbl.core k).uid < s.trace.nextUid
  uid_inj : ∀ {j k}, (s.tbl.core j).used = true → (s.tbl.core k).used = true →
    (s.tbl.core j).uid = (s.tbl.core k).uid → j = k
  armed : s.rel.armed = true ∨ s.tbl.localCount = 0

/-! ## What becomes of a slot -/

/-- The session in slot `j` is the same, in the same stage of its life. -/
structure Kept (s s' : State) (j : Nat) : Prop where
  used : (s'.tbl.core j).used = (s.tbl.core j).used
  uid : (s'.tbl.core j).uid = (s.tbl.core j).uid
  addr : (s'.tbl.core j).clientAddr = (s.tbl.core j).clientAddr
  ready : (s'.tbl.core j).stage = .ready ↔ (s.tbl.core j).stage = .ready
  refs : s'.refs j = s.refs j

/-- Slot `j` is free and its refs point nowhere. -/
structure Gone (s : State) (j : Nat) : Prop where
  used : (s.tbl.core j).used = false
  refs : s.refs j = ⟨false, false⟩

/-- The session in slot `j` was kept or, if `D` allows it, dropped. -/
def Fate (D : Nat → Prop) (s s' : State) (j : Nat) : Prop := Kept s s' j ∨ D j ∧ Gone s' j

theorem Kept.refl (s : State) (j : Nat) : Kept s s j := ⟨rfl, rfl, rfl, Iff.rfl, rfl⟩

theorem Kept.trans {s s' s'' : State} {j : Nat} (h : Kept s s' j) (h' : Kept s' s'' j) :
    Kept s s'' j :=
  ⟨h'.used.trans h.used, h'.uid.trans h.uid, h'.addr.trans h.addr, h'.ready.trans h.ready,
    h'.refs.trans h.refs⟩

theorem Gone.kept {s s' : State} {j : Nat} (h : Gone s j) (h' : Kept s s' j) : Gone s' j :=
  ⟨h'.used.trans h.used, h'.refs.trans h.refs⟩

theorem Fate.trans {D : Nat → Prop} {s t u : State} {j : Nat} (h : Fate D s t j)
    (h' : Fate D t u j) : Fate D s u j := by
  rcases h' with h' | h'
  · exact h.imp (·.trans h') fun ⟨hD, hg⟩ => ⟨hD, hg.kept h'⟩
  · exact Or.inr h'

/-- The same session, perhaps in another stage. -/
structure SameSession (s s' : State) (j : Nat) : Prop where
  used : (s'.tbl.core j).used = (s.tbl.core j).used
  uid : (s'.tbl.core j).uid = (s.tbl.core j).uid
  addr : (s'.tbl.core j).clientAddr = (s.tbl.core j).clientAddr

theorem Kept.same {s s' : State} {j : Nat} (h : Kept s s' j) : SameSession s s' j :=
  ⟨h.used, h.uid, h.addr⟩

theorem SameSession.trans {s s' s'' : State} {j : Nat} (h : SameSession s s' j)
    (h' : SameSession s' s'' j) : SameSession s s'' j :=
  ⟨h'.used.trans h.used, h'.uid.trans h.uid, h'.addr.trans h.addr⟩

/-! ## Code that opens no session -/

/-- What such code never writes. -/
structure Rest where
  cfg : WorkerConfig
  events : List Event
  nowMs : Nat
  incoming : List ClientDatagram
  outgoing : List Outgoing
  session : Nat
  batch : Batch
  nextUid : Nat
  relaySends : List RelaySend

/-- That part of a state. -/
def State.rest (s : State) : Rest :=
  ⟨s.cfg, s.events, s.frame.nowMs, s.frame.incoming, s.frame.outgoing, s.frame.session,
    s.frame.batch, s.trace.nextUid, s.trace.relaySends⟩

/-- From `s` to `s'` no session was opened, those in `U` stayed, those in `W` were worked on and
others in `D` perhaps dropped. -/
structure Evolve (M : Prop) (U W D : Nat → Prop) (s s' : State) : Prop where
  rest : s'.rest = s.rest
  clock : s.trace.clock ≤ s'.trace.clock
  sessions : Sessions M s → (∀ k, U k → (s.tbl.core k).used = true) →
    Sessions M s' ∧ (∀ k, U k → (s'.tbl.core k).used = true) ∧
      (∀ j, W j → SameSession s s' j) ∧ ∀ j, ¬W j → Fate D s s' j

theorem Evolve.refl (M : Prop) (U W D : Nat → Prop) (s : State) : Evolve M U W D s s :=
  ⟨rfl, Nat.le_refl _, fun h hU => ⟨h, hU, fun _ _ => ⟨rfl, rfl, rfl⟩,
    fun j _ => Or.inl (.refl s j)⟩⟩

theorem Evolve.trans {M : Prop} {U W D : Nat → Prop} {s t u : State}
    (h : Evolve M U W D s t) (h' : Evolve M U W D t u) : Evolve M U W D s u := by
  refine ⟨h'.rest.trans h.rest, Nat.le_trans h.clock h'.clock, fun hs hU => ?_⟩
  obtain ⟨hs', hU', hsame, hfate⟩ := h.sessions hs hU
  obtain ⟨hs'', hU'', hsame', hfate'⟩ := h'.sessions hs' hU'
  exact ⟨hs'', hU'', fun j hj => (hsame j hj).trans (hsame' j hj),
    fun j hj => (hfate j hj).trans (hfate' j hj)⟩

instance (M : Prop) (U W D : Nat → Prop) : IsPreorder State (Evolve M U W D) where
  refl := Evolve.refl M U W D
  trans _ _ _ := Evolve.trans

/-- No slot. -/
abbrev Nobody : Nat → Prop := fun _ => False

/-- Only slot `k`. -/
abbrev Only (k : Nat) : Nat → Prop := fun j => j = k

/-- Every slot. -/
abbrev Anyone : Nat → Prop := fun _ => True

variable {A : State → (q : Sys) → q.Ans → Prop} {M : Prop} {U W D : Nat → Prop} {k : Nat}

/-- Code that keeps every slot. -/
theorem evolve_of_kept {s s' : State} (hrest : s'.rest = s.rest)
    (hclock : s.trace.clock ≤ s'.trace.clock)
    (h : Sessions M s → (∀ k, U k → (s.tbl.core k).used = true) →
      Sessions M s' ∧ ∀ j, Kept s s' j) : Evolve M U W D s s' :=
  ⟨hrest, hclock, fun hs hU => ⟨(h hs hU).1, fun k hk => ((h hs hU).2 k).used.trans (hU k hk),
    fun k _ => ((h hs hU).2 k).same, fun j _ => Or.inl ((h hs hU).2 j)⟩⟩

theorem Handshakes.later {t : SessTable} {hs : List Nat} {c c' : Nat} (h : Handshakes M t hs c)
    (hc : c ≤ c') : Handshakes M t hs c' :=
  ⟨fun k hk => Nat.le_trans (h.started_le k hk) hc, h.sorted⟩

theorem SessTable.Whole.later {t : SessTable} {c c' : Nat} (h : t.Whole M c) (hc : c ≤ c') :
    t.Whole M c' := by
  obtain ⟨lru, hs, hi, hh⟩ := h
  exact ⟨lru, hs, hi, hh.later hc⟩

/-- Leaving the table, the refs and the notifications alone. -/
theorem evolve_of_tbl {s s' : State} (hrest : s'.rest = s.rest)
    (hclock : s.trace.clock ≤ s'.trace.clock) (htbl : s'.tbl = s.tbl) (hrefs : s'.refs = s.refs)
    (harmed : s'.rel.armed = s.rel.armed) : Evolve M U W D s s' := by
  have hcfg : s'.cfg = s.cfg := congrArg Rest.cfg hrest
  have huid : s'.trace.nextUid = s.trace.nextUid := congrArg Rest.nextUid hrest
  refine evolve_of_kept hrest hclock fun hs _ => ⟨?_, fun j => ?_⟩
  · exact ⟨htbl ▸ hs.whole.later hclock, by rw [htbl, hcfg]; exact hs.cap,
      by rw [htbl, huid]; exact hs.uid_lt, by rw [htbl]; exact hs.uid_inj,
      by rw [htbl, harmed]; exact hs.armed⟩
  · constructor <;> simp only [htbl, hrefs]

theorem Beside.evolve {s s' : State} (h : Beside s s') : Evolve M U W D s s' := by
  have ho := h.outside
  refine evolve_of_tbl ?_ h.clock h.tbl (congrArg Outside.refs ho) ?_
  · simp only [State.outside, Outside.mk.injEq] at ho
    simp only [State.rest, Rest.mk.injEq]
    exact ⟨ho.1, ho.2.2.2.2.1, ho.2.2.2.2.2.1, ho.2.2.2.2.2.2.1, ho.2.2.2.2.2.2.2.1,
      ho.2.2.2.2.2.2.2.2.1, h.batch, ho.2.2.2.2.2.2.2.2.2.1, ho.2.2.2.2.2.2.2.2.2.2⟩
  · rw [show s'.rel = s.rel from congrArg Outside.rel ho]

theorem Beside.keepsEvolve {α : Type} {f : Worker α} (hf : Keeps A Beside f) :
    Keeps A (Evolve M U W D) f := hf.imp Beside.evolve

theorem Quiet.evolve {α : Type} {f : Worker α} (hf : Quiet A f) :
    Keeps A (Evolve M U W D) f := Beside.keepsEvolve hf.beside

/-! ## Small changes of one record -/

/-- Changing fields of a record the table does not depend on. -/
theorem evolve_modCore {s : State} {f : SessCore → SessCore}
    (hused : ∀ c, (f c).used = c.used) (huid : ∀ c, (f c).uid = c.uid)
    (haddr : ∀ c, (f c).clientAddr = c.clientAddr) (hstage : ∀ c, (f c).stage = c.stage)
    (hlinked : ∀ c, (f c).handshakeLinked = c.handshakeLinked)
    (hstart : ∀ c, (f c).handshakeStartedMs = c.handshakeStartedMs) :
    Evolve M U W D s (s.modCore k f) := by
  have used := update_field (c := s.tbl.core) (π := SessCore.used) (hused (s.tbl.core k))
  have uid := update_field (c := s.tbl.core) (π := SessCore.uid) (huid (s.tbl.core k))
  have addr := update_field (c := s.tbl.core) (π := SessCore.clientAddr) (haddr (s.tbl.core k))
  have stage := update_field (c := s.tbl.core) (π := SessCore.stage) (hstage (s.tbl.core k))
  have linked :=
    update_field (c := s.tbl.core) (π := SessCore.handshakeLinked) (hlinked (s.tbl.core k))
  have start :=
    update_field (c := s.tbl.core) (π := SessCore.handshakeStartedMs) (hstart (s.tbl.core k))
  refine evolve_of_kept rfl (Nat.le_refl _) fun hs _ => ⟨?_, fun j => ?_⟩
  · obtain ⟨lru, l, hi, hl⟩ := hs.whole
    refine ⟨⟨lru, l, hi.congr_core used addr (fun j => by rw [stage]) linked, ?_, ?_⟩, hs.cap, ?_,
      ?_, hs.armed⟩
    · exact fun j hj => (start j).symm ▸ hl.started_le j hj
    · exact fun hm => (hl.sorted hm).imp fun {a b} hab => by
        simpa only [State.modCore, start] using hab
    · intro j
      simp only [State.modCore, used, uid]
      exact hs.uid_lt
    · intro i j
      simp only [State.modCore, used, uid]
      exact hs.uid_inj
  · exact ⟨used j, uid j, addr j, by rw [State.modCore, stage], rfl⟩

/-- Moving a session in use to the end of the LRU. -/
theorem evolve_lruTouch (s : State) (hk : U k) :
    Evolve M U W D s { s with tbl := s.tbl.lruTouch k } := by
  refine evolve_of_kept rfl (Nat.le_refl _) fun hs hU =>
    ⟨?_, fun j => ⟨rfl, rfl, rfl, Iff.rfl, rfl⟩⟩
  obtain ⟨lru, l, hi, hl⟩ := hs.whole
  obtain ⟨lru', hi', -⟩ := hi.lruTouch (hi.mem_lru.mpr ⟨hU k hk, by simp⟩)
  exact ⟨⟨lru', l, hi', hl.started_le, hl.sorted⟩, hs.cap, hs.uid_lt, hs.uid_inj, hs.armed⟩

theorem evolve_seenSession (s : State) (now : Nat) (hk : U k) :
    Evolve M U W D s (seenSession s k now) := by
  refine Evolve.trans (t := s.modCore k fun c => { c with lastSeenMs := now }) ?_
    (evolve_lruTouch _ hk)
  exact evolve_modCore (fun _ => rfl) (fun _ => rfl) (fun _ => rfl) (fun _ => rfl) (fun _ => rfl)
    fun _ => rfl

theorem evolve_setRetry (s : State) (j ms : Nat) : Evolve M U W D s (setRetry s j ms) :=
  evolve_modCore (fun _ => rfl) (fun _ => rfl) (fun _ => rfl) (fun _ => rfl) (fun _ => rfl)
    fun _ => rfl

theorem evolve_noteLookupMode (s : State) (j : Nat) (mode : LookupMode) :
    Evolve M U W D s (noteLookupMode s j mode) := by
  unfold noteLookupMode
  split
  · exact Evolve.refl _ _ _ _ s
  · exact evolve_modCore (fun _ => rfl) (fun _ => rfl) (fun _ => rfl) (fun _ => rfl) (fun _ => rfl)
      fun _ => rfl

/-! ## Dropping a session -/

theorem beside_uncount (s : State) (j : Nat) (p : DownPacket) : Beside s (uncount j s p) :=
  beside_of_eq rfl rfl rfl rfl

theorem beside_retireState (s : State) (j : Nat) (ch : Channel) :
    Beside s (retireState j s ch) :=
  trans_of Beside (beside_unlinkChannel s j ch)
    (foldl_of_step (fun s p => beside_uncount s j p) _ _)

theorem beside_releaseState (s : State) (j : Nat) : Beside s (releaseState s j) :=
  trans_of Beside (foldl_of_step (fun s ch => beside_retireState s j ch) _ s)
    (trans_of Beside (beside_modDown _ j _) (beside_markReady _ j))

/-- The table after a drop. -/
def SessTable.dropped (t : SessTable) (k : Nat) : SessTable :=
  let t := t.detach k
  { t with
    core := update t.core k .zero
    free := k :: t.free
    lru := t.lru.clearNode k
    handshake := t.handshake.clearNode k
    count := t.count - 1 }

theorem dropState_beside (s : State) (k : Nat) :
    ∃ t, Beside (detachState s k) t ∧ dropState s k = { clearSession t k with
      tbl := { (clearSession t k).tbl.pushFree k with count := (clearSession t k).tbl.count - 1 } } :=
  ⟨_, trans_of Beside (beside_releaseState _ k) (beside_destroyBindings _ k), rfl⟩

theorem dropState_tbl (s : State) (k : Nat) : (dropState s k).tbl = s.tbl.dropped k := by
  obtain ⟨t, ht, heq⟩ := dropState_beside s k
  rw [heq]
  simp only [clearSession, SessTable.pushFree, ht.tbl]
  rfl

theorem dropState_refs (s : State) (k : Nat) :
    (dropState s k).refs = update s.refs k ⟨false, false⟩ := by
  obtain ⟨t, ht, heq⟩ := dropState_beside s k
  rw [heq]
  exact congrArg Outside.refs ht.outside

theorem dropState_rest (s : State) (k : Nat) : (dropState s k).rest = s.rest := by
  obtain ⟨t, ht, heq⟩ := dropState_beside s k
  rw [heq]
  exact (Beside.evolve (M := True) (U := Nobody) (W := Nobody) (D := Nobody) ht).rest

theorem dropState_clock (s : State) (k : Nat) : s.trace.clock ≤ (dropState s k).trace.clock := by
  obtain ⟨t, ht, heq⟩ := dropState_beside s k
  rw [heq]
  exact ht.clock

theorem dropState_armed (s : State) (k : Nat) : (dropState s k).rel = s.rel := by
  obtain ⟨t, ht, heq⟩ := dropState_beside s k
  rw [heq]
  exact congrArg Outside.rel ht.outside

section Detach

variable (t : SessTable) (k : Nat)

theorem SessTable.handshakeRemove_eq :
    ∃ c : SessCore, ∃ d : DLists Unit Nat, c.used = (t.core k).used ∧
      t.handshakeRemove k = { t with core := update t.core k c, handshake := d } := by
  unfold SessTable.handshakeRemove
  split
  · exact ⟨{ t.core k with handshakeLinked := false }, _, rfl, rfl⟩
  · exact ⟨t.core k, t.handshake, rfl, by rw [Function.update_eq_self]⟩

/-- What taking a session out of the table leaves alone. -/
theorem SessTable.detach_eq :
    ∃ c : SessCore, ∃ d : DLists Unit Nat, ∃ n, n ≤ t.localCount ∧ c.used = (t.core k).used ∧
      t.detach k = { t with
        core := update t.core k c
        buckets := update t.buckets (sessionBucket (t.core k).clientAddr)
          ((t.buckets (sessionBucket (t.core k).clientAddr)).erase k)
        lru := t.lru.remove () k
        handshake := d
        localCount := n } := by
  unfold SessTable.detach
  obtain ⟨c, d, hc, heq⟩ := SessTable.handshakeRemove_eq { t with
    buckets := update t.buckets (sessionBucket (t.core k).clientAddr)
      ((t.buckets (sessionBucket (t.core k).clientAddr)).erase k)
    lru := t.lru.remove () k } k
  dsimp only at heq hc ⊢
  rw [heq]
  split
  · exact ⟨c, d, _, Nat.sub_le _ _, hc, rfl⟩
  · exact ⟨c, d, _, Nat.le_refl _, hc, rfl⟩

theorem SessTable.dropped_core (j : Nat) :
    (t.dropped k).core j = if j = k then .zero else t.core j := by
  obtain ⟨c, d, n, -, -, heq⟩ := t.detach_eq k
  simp only [SessTable.dropped, heq]
  split
  · rename_i h
    rw [h, update_self]
  · rename_i h
    rw [update_of_ne h, update_of_ne h]

theorem SessTable.dropped_cap : (t.dropped k).cap = t.cap := by
  obtain ⟨c, d, n, -, -, heq⟩ := t.detach_eq k
  simp only [SessTable.dropped, heq]

theorem SessTable.dropped_localCount : (t.dropped k).localCount ≤ t.localCount := by
  obtain ⟨c, d, n, hn, -, heq⟩ := t.detach_eq k
  simp only [SessTable.dropped, heq]
  exact hn

end Detach

theorem SessTable.Inv.dropped {t : SessTable} {lru hs : List Nat} (h : t.Inv none lru hs)
    (hu : (t.core k).used = true) : (t.dropped k).Inv none (lru.erase k) (hs.erase k) := by
  have hd := h.detach (h.mem_lru.mpr ⟨hu, by simp⟩)
  have hcount : (t.detach k).count = t.count := by
    obtain ⟨c, d, n, -, -, heq⟩ := t.detach_eq k
    rw [heq]
  rw [← hcount] at hd
  exact ((hd.set_hole (c := .zero) rfl).clear_links).pushFree (by simp [SessCore.zero])

theorem Handshakes.dropped {t : SessTable} {hs : List Nat} {c : Nat} (h : Handshakes M t hs c)
    (hnd : hs.Nodup) : Handshakes M (t.dropped k) (hs.erase k) c := by
  have hcore : ∀ j ∈ hs.erase k, (t.dropped k).core j = t.core j := fun j hj => by
    rw [t.dropped_core, if_neg (hnd.mem_erase_iff.mp hj).1]
  refine ⟨fun j hj => ?_, fun hm => ?_⟩
  · rw [hcore j hj]
    exact h.started_le j (List.mem_of_mem_erase hj)
  · refine ((h.sorted hm).sublist List.erase_sublist).imp_of_mem fun {a b} ha hb hab => ?_
    rw [hcore a ha, hcore b hb]
    exact hab

/-- A drop empties its own slot and leaves every other as it is. -/
theorem dropState_sessions {s : State} (hu : (s.tbl.core k).used = true) (hs : Sessions M s) :
    Sessions M (dropState s k) ∧ Gone (dropState s k) k ∧
      ∀ j, j ≠ k → Kept s (dropState s k) j := by
  have hcore := dropState_tbl s k ▸ s.tbl.dropped_core k
  have hkept : ∀ {j}, ((dropState s k).tbl.core j).used = true →
      (dropState s k).tbl.core j = s.tbl.core j := fun {j} hj => by
    rw [hcore] at hj ⊢
    split at hj
    · simp [SessCore.zero] at hj
    · rename_i hne
      rw [if_neg hne]
  have hcfg : (dropState s k).cfg = s.cfg := congrArg Rest.cfg (dropState_rest s k)
  have huid : (dropState s k).trace.nextUid = s.trace.nextUid :=
    congrArg Rest.nextUid (dropState_rest s k)
  obtain ⟨lru, l, hi, hl⟩ := hs.whole
  refine ⟨⟨?_, ?_, ?_, ?_, ?_⟩, ⟨?_, ?_⟩, fun j hj => ?_⟩
  · rw [dropState_tbl]
    exact ⟨_, _, hi.dropped hu, (hl.dropped hi.hs_nodup).later (dropState_clock s k)⟩
  · rw [dropState_tbl, s.tbl.dropped_cap, hcfg]
    exact hs.cap
  · intro j hj
    rw [hkept hj, huid]
    exact hs.uid_lt (hkept hj ▸ hj)
  · intro i j hi' hj
    rw [hkept hi', hkept hj]
    exact hs.uid_inj (hkept hi' ▸ hi') (hkept hj ▸ hj)
  · rw [dropState_armed, dropState_tbl]
    have hle := s.tbl.dropped_localCount k
    exact hs.armed.imp id fun h0 => by omega
  · rw [hcore, if_pos rfl]
    rfl
  · rw [dropState_refs, update_self]
  · have hj' : (dropState s k).tbl.core j = s.tbl.core j := by rw [hcore, if_neg hj]
    exact ⟨by rw [hj'], by rw [hj'], by rw [hj'], by rw [hj'],
      by rw [dropState_refs, update_of_ne hj]⟩

theorem evolve_dropState {s : State} (hu : (s.tbl.core k).used = true) (hU : ¬U k) (hW : ¬W k)
    (hD : D k) : Evolve M U W D s (dropState s k) := by
  refine ⟨dropState_rest s k, dropState_clock s k, fun hs hused => ?_⟩
  obtain ⟨hs', hgone, hkept⟩ := dropState_sessions hu hs
  refine ⟨hs', fun j hj => ?_, fun j hj => ?_, fun j _ => ?_⟩
  · exact (hkept j (by rintro rfl; exact hU hj)).used.trans (hused j hj)
  · exact (hkept j (by rintro rfl; exact hW hj)).same
  · rcases eq_or_ne j k with rfl | hj
    · exact Or.inr ⟨hD, hgone⟩
    · exact Or.inl (hkept j hj)

theorem keeps_sessionDrop (hU : ¬U k) (hW : ¬W k) (hD : D k) :
    Keeps A (Evolve M U W D) (sessionDrop k) := by
  intro s
  by_cases hu : (s.tbl.core k).used = true
  · exact (sessionDrop_sat hu).mono fun s' _ h =>
      (evolve_dropState hu hU hW hD).trans (Like.beside h).evolve
  · rw [sessionDrop_unused (Bool.eq_false_iff.mpr hu)]
    exact Evolve.refl _ _ _ _ s

end Bpf2Socks.Udp

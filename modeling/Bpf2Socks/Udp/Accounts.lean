/-
# Bpf2Socks.Udp.Accounts — code that keeps a property of the binding ledger.

`Accounts P F s` is the invariant: the binding table is whole, its ledger has property `P` with the
bindings in `F` at hand, bindings belong to sessions in use, and no stamp lies in the future.

`Steady` is the relation of code that leaves every binding where it is; most of the worker is such
code.  `Tends P F` is the relation of code that keeps the invariant, destroying bindings perhaps.
-/
import Bpf2Socks.Udp.Ledger
import Bpf2Socks.Udp.Lifecycle

namespace Bpf2Socks.Udp

open Function (update update_self update_of_ne)
open Lib (Prog Act DLists)
open Lib.Prog Lib.Act
open Worker hiding get modify ask diverge

variable {A : State → (q : Sys) → q.Ans → Prop} {P : (Nat → Prop) → Ledger → Prop}
  {F F' : Nat → Prop} {s s' t : State} {k b : Nat}

/-! ## The invariant -/

/-- The ledger has property `P`; unused session slots own no binding; bindings in use, and the batch
of client datagrams at hand, were seen in the past. -/
structure Accounts (P : (Nat → Prop) → Ledger → Prop) (F : Nat → Prop) (s : State) : Prop where
  ledger : ∃ g : Ledger, g.Of s.bind ∧ P F g
  vacant : ∀ k, (s.tbl.core k).used = false → s.bind.owned k = []
  past : ∀ b, (s.bind.core b).used = true → (s.bind.core b).lastSeenMs ≤ s.trace.clock
  started : s.frame.nowMs ≤ s.trace.clock

theorem Accounts.fewer (hP : Orderly P) (h : Accounts P F s) (hF : ∀ b, F' b → F b) :
    Accounts P F' s := by
  obtain ⟨g, hg, hp⟩ := h.ledger
  exact ⟨⟨g, hg, hP.fewer hF hp⟩, h.vacant, h.past, h.started⟩

/-- What the ledger says of the stamps. -/
theorem Accounts.stamps {g : Ledger} (h : Accounts P F s) (hg : g.Of s.bind) :
    ∀ x ∈ g.lru, (g.core x).lastSeenMs ≤ s.trace.clock := by
  intro x hx
  rw [hg.core]
  exact h.past x (hg.used.mp hx)

/-! ## Code that leaves the bindings where they are -/

/-- From `s` to `s'` no binding was made, destroyed, touched or stamped, and no session lost. -/
structure Steady (s s' : State) : Prop where
  clock : s.trace.clock ≤ s'.trace.clock
  bind : ∃ core, (∀ b, SameUse (s.bind.core b) (core b)) ∧ s'.bind = { s.bind with core := core }
  used : ∀ k, (s.tbl.core k).used = true → (s'.tbl.core k).used = true
  batch : s'.frame.batch = s.frame.batch
  started : s'.frame.nowMs = s.frame.nowMs

theorem Steady.refl (s : State) : Steady s s :=
  ⟨Nat.le_refl _, ⟨s.bind.core, fun _ => .refl _, rfl⟩, fun _ h => h, rfl, rfl⟩

theorem Steady.trans (h : Steady s t) (h' : Steady t s') : Steady s s' := by
  obtain ⟨core, hc, hb⟩ := h.bind
  obtain ⟨core', hc', hb'⟩ := h'.bind
  refine ⟨Nat.le_trans h.clock h'.clock, ⟨core', fun x => (hc x).trans ?_, by rw [hb', hb]⟩,
    fun k hk => h'.used k (h.used k hk), h'.batch.trans h.batch, h'.started.trans h.started⟩
  have := hc' x
  rwa [hb] at this

instance : IsPreorder State Steady where
  refl := Steady.refl
  trans _ _ _ := Steady.trans

theorem Steady.sameUse (h : Steady s s') (b : Nat) : SameUse (s.bind.core b) (s'.bind.core b) := by
  obtain ⟨core, hc, hb⟩ := h.bind
  rw [hb]
  exact hc b

theorem Steady.accounts (hP : Orderly P) (h : Steady s s') (ha : Accounts P F s) :
    Accounts P F s' := by
  obtain ⟨core, hc, hb⟩ := h.bind
  obtain ⟨g, hg, hp⟩ := ha.ledger
  refine ⟨⟨{ g with core := core }, hb ▸ hg.congr hc, hP.congr hg.whole (fun b _ => ?_) hp⟩,
    fun k hk => ?_, fun b hu => ?_, ?_⟩
  · rw [hg.core]
    exact hc b
  · rw [hb]
    refine ha.vacant k (Bool.eq_false_iff.mpr fun hu => ?_)
    simp [h.used k hu] at hk
  · have hsame := h.sameUse b
    rw [hsame.seen]
    exact Nat.le_trans (ha.past b (hsame.used ▸ hu)) h.clock
  · rw [h.started]
    exact Nat.le_trans ha.started h.clock

/-- Changes of other fields. -/
theorem steady_of_eq (hc : s'.trace.clock = s.trace.clock) (hb : s'.bind = s.bind)
    (ht : ∀ k, (s'.tbl.core k).used = (s.tbl.core k).used) (hf : s'.frame.batch = s.frame.batch)
    (hn : s'.frame.nowMs = s.frame.nowMs) : Steady s s' :=
  ⟨Nat.le_of_eq hc.symm, ⟨s.bind.core, fun _ => .refl _, hb⟩, fun k hk => (ht k).trans hk, hf, hn⟩

theorem Like.steady (h : Like s s') : Steady s s' := by
  obtain ⟨n, rfl, hn⟩ := h
  exact ⟨hn, ⟨s.bind.core, fun _ => .refl _, rfl⟩, fun _ hk => hk, rfl, rfl⟩

theorem steady_modBinding (s : State) (b : Nat) {f : Binding → Binding}
    (hf : SameUse (s.bind.core b) (f (s.bind.core b))) : Steady s (s.modBinding b f) := by
  refine ⟨Nat.le_refl _, ⟨_, fun x => ?_, rfl⟩, fun _ hk => hk, rfl, rfl⟩
  rcases eq_or_ne x b with rfl | hx
  · rw [update_self]
    exact hf
  · rw [update_of_ne hx]
    exact .refl _

theorem serving_steady : Serving Steady where
  like := Like.steady
  kern _ _ := steady_of_eq rfl rfl (fun _ => rfl) rfl rfl
  down _ _ := steady_of_eq rfl rfl (fun _ => rfl) rfl rfl
  waiters _ _ := steady_of_eq rfl rfl (fun _ => rfl) rfl rfl
  pending s b _ := steady_modBinding s b ⟨rfl, rfl, rfl, rfl, rfl⟩
  delivered _ _ := steady_of_eq rfl rfl (fun _ => rfl) rfl rfl

/-- Changing a session's record, but not whether it is used. -/
theorem steady_modCore {f : SessCore → SessCore} (hf : ∀ c, (f c).used = c.used) :
    Steady s (s.modCore k f) :=
  steady_of_eq rfl rfl (update_field (π := SessCore.used) (hf _)) rfl rfl

theorem steady_seenSession (s : State) (k now : Nat) : Steady s (seenSession s k now) :=
  steady_of_eq rfl rfl (update_field (π := SessCore.used) rfl) rfl rfl

theorem steady_noteLookupMode (s : State) (k : Nat) (mode : LookupMode) :
    Steady s (noteLookupMode s k mode) := by
  unfold noteLookupMode
  split
  · exact .refl s
  · exact steady_modCore fun _ => rfl

theorem steady_setStage (s : State) (k : Nat) (stage : Stage) : Steady s (setStage s k stage) :=
  steady_modCore fun _ => rfl

theorem steady_rel (s : State) (rel : Release) : Steady s { s with rel := rel } :=
  steady_of_eq rfl rfl (fun _ => rfl) rfl rfl

theorem steady_handshakeRemove (s : State) (k : Nat) :
    Steady s { s with tbl := s.tbl.handshakeRemove k } := by
  refine steady_of_eq rfl rfl (fun j => ?_) rfl rfl
  obtain ⟨l, hl⟩ := s.tbl.handshakeRemove_core k j
  show ((s.tbl.handshakeRemove k).core j).used = _
  rw [hl]

theorem steady_handshakeAddTail (s : State) (k now : Nat) :
    Steady s { s with tbl := s.tbl.handshakeAddTail k now } :=
  steady_of_eq rfl rfl (update_field (π := SessCore.used) rfl) rfl rfl

theorem seeing_steady : Seeing A k Steady where
  like := Like.steady
  seen s now _ := steady_seenSession s k now

theorem handshaken_steady : Handshaken A k Steady where
  like := Like.steady
  assoc _ _ := steady_of_eq rfl rfl (fun _ => rfl) rfl rfl
  stage s stage _ := steady_setStage s k stage
  refs _ _ := steady_of_eq rfl rfl (fun _ => rfl) rfl rfl
  interest _ _ _ _ := steady_of_eq rfl rfl (fun _ => rfl) rfl rfl
  restart := (keeps_modify fun s => steady_handshakeRemove s k).bind fun _ =>
    (quiet_nowMs.imp Like.steady).bind fun now =>
    keeps_modify fun s => steady_handshakeAddTail s k now

/-! ## Destroying bindings -/

theorem Accounts.destroy (hP : Orderly P) (h : Accounts P F s) (hu : (s.bind.core b).used = true)
    (ho : (s.bind.core b).owner = some k) : Accounts P F (destroyBinding s k b) := by
  obtain ⟨g, hg, hp⟩ := h.ledger
  have hb : b ∈ g.lru := hg.used.mpr hu
  rw [destroyBinding_eq]
  refine ⟨⟨g.drop k b, hg.drop hb ho, hP.drop hg.whole hb (hg.core ▸ ho) hp⟩, fun j hj => ?_,
    fun x hx => ?_, h.started⟩
  · show (s.bind.detach k b).owned j = []
    have hnil := h.vacant j hj
    rw [BindTable.detach_owned]
    rcases eq_or_ne j k with rfl | hne
    · rw [update_self, hnil]
      rfl
    · rw [update_of_ne hne, hnil]
  · show ((s.bind.destroyed k b).core x).lastSeenMs ≤ _
    change ((s.bind.destroyed k b).core x).used = true at hx
    rw [BindTable.destroyed_core] at hx ⊢
    split
    · exact Nat.zero_le _
    · rename_i hne
      rw [if_neg hne] at hx
      exact h.past x hx

/-- A session's bindings are destroyed one after the other. -/
theorem Accounts.destroyAll (hP : Orderly P) (h : Accounts P F s) (k : Nat) :
    Accounts P F (destroyBindings s k) ∧ (destroyBindings s k).bind.owned k = [] := by
  unfold destroyBindings
  generalize hl : s.bind.owned k = l
  induction l generalizing s with
  | nil => exact ⟨h, hl⟩
  | cons b l ih =>
      obtain ⟨g, hg, -⟩ := h.ledger
      obtain ⟨hlru, ho⟩ := hg.inv.mem_owned.mp (hl ▸ List.mem_cons_self : b ∈ s.bind.owned k)
      refine ih (h.destroy hP (hg.used.mp hlru) ho) ?_
      show (destroyBinding s k b).bind.owned k = l
      rw [destroyBinding_eq]
      show (s.bind.detach k b).owned k = l
      rw [BindTable.detach_owned, update_self, hl, List.erase_cons_head]

theorem Accounts.clearSession (h : Accounts P F s) (hk : s.bind.owned k = []) :
    Accounts P F (clearSession s k) := by
  obtain ⟨g, hg, hp⟩ := h.ledger
  refine ⟨⟨g, hg.clearOwner hk, hp⟩, fun j hj => ?_, h.past, h.started⟩
  show update s.bind.owned k [] j = []
  rcases eq_or_ne j k with rfl | hne
  · exact update_self _ _ _
  · rw [update_of_ne hne]
    refine h.vacant j ?_
    change (update s.tbl.core k .zero j).used = false at hj
    rwa [update_of_ne hne] at hj

theorem steady_releaseState (s : State) (k : Nat) : Steady s (releaseState s k) := by
  have hS := serving_steady
  have huncount : ∀ (s : State) (p : DownPacket), Steady s (uncount k s p) := fun s p =>
    (hS.modDown s k _).trans (hS.pending _ p.binding fun n => n - 1)
  have hretire : ∀ (s : State) (ch : Channel), Steady s (retireState k s ch) := fun s ch =>
    (hS.unlinkChannel s k ch).trans (foldl_of_step huncount _ _)
  exact (foldl_of_step hretire _ s).trans ((hS.modDown _ k _).trans (hS.markReady _ k))

theorem Accounts.closeState (hP : Orderly P) (h : Accounts P F s) (k : Nat) :
    Accounts P F (closeState s k) := by
  obtain ⟨hall, hnil⟩ := ((steady_releaseState s k).accounts hP h).destroyAll hP k
  exact hall.clearSession hnil

theorem steady_detachState (s : State) (k : Nat) : Steady s (detachState s k) := by
  refine steady_of_eq rfl rfl (fun j => ?_) rfl rfl
  obtain ⟨l, hl⟩ := s.tbl.detach_core k j
  show ((s.tbl.detach k).core j).used = _
  rw [hl]

theorem Accounts.dropState (hP : Orderly P) (h : Accounts P F s) (k : Nat) :
    Accounts P F (dropState s k) := by
  have hclose := ((steady_detachState s k).accounts hP h).closeState hP k
  exact ⟨hclose.ledger, hclose.vacant, hclose.past, hclose.started⟩

/-! ## Code that keeps the invariant -/

/-- From `s` to `s'` the invariant is kept and no session was given a binding. -/
structure Tends (P : (Nat → Prop) → Ledger → Prop) (F : Nat → Prop) (s s' : State) : Prop where
  keeps : Accounts P F s → Accounts P F s'
  owned : ∀ j, s'.bind.owned j ⊆ s.bind.owned j

instance (P : (Nat → Prop) → Ledger → Prop) (F : Nat → Prop) : IsPreorder State (Tends P F) where
  refl _ := ⟨id, fun _ => List.Subset.refl _⟩
  trans _ _ _ h h' := ⟨h'.keeps ∘ h.keeps, fun j => List.Subset.trans (h'.owned j) (h.owned j)⟩

/-- A session without bindings stays without. -/
theorem Tends.bare (h : Tends P F s s') (hk : s.bind.owned k = []) : s'.bind.owned k = [] :=
  List.subset_nil.mp (hk ▸ h.owned k)

theorem Steady.owned (h : Steady s s') : s'.bind.owned = s.bind.owned := by
  obtain ⟨core, -, hb⟩ := h.bind
  rw [hb]

theorem Steady.tends (hP : Orderly P) (h : Steady s s') : Tends P F s s' :=
  ⟨h.accounts hP, fun _ => by rw [h.owned]; exact List.Subset.refl _⟩

theorem Tends.steady {α : Type} {f : Worker α} (hP : Orderly P) (hf : Keeps A Steady f) :
    Keeps A (Tends P F) f := hf.imp fun h => h.tends hP

theorem Tends.quiet {α : Type} {f : Worker α} (hP : Orderly P) (hf : Quiet A f) :
    Keeps A (Tends P F) f := Tends.steady hP (serving_steady.quiet hf)

theorem destroyBinding_owned (s : State) (k b j : Nat) :
    (destroyBinding s k b).bind.owned j ⊆ s.bind.owned j := by
  rw [destroyBinding_eq]
  show (s.bind.detach k b).owned j ⊆ _
  rw [BindTable.detach_owned]
  rcases eq_or_ne j k with rfl | hne
  · rw [update_self]
    exact List.erase_subset
  · rw [update_of_ne hne]
    exact List.Subset.refl _

theorem destroyBindings_owned (s : State) (k j : Nat) :
    (destroyBindings s k).bind.owned j ⊆ s.bind.owned j := by
  unfold destroyBindings
  generalize s.bind.owned k = l
  induction l generalizing s with
  | nil => exact List.Subset.refl _
  | cons b l ih => exact List.Subset.trans (ih (destroyBinding s k b)) (destroyBinding_owned s k b j)

theorem tends_closeState (hP : Orderly P) (s : State) (k : Nat) :
    Tends P F s (closeState s k) := by
  refine ⟨fun h => h.closeState hP k, fun j => ?_⟩
  show update (destroyBindings (releaseState s k) k).bind.owned k [] j ⊆ _
  rcases eq_or_ne j k with rfl | hne
  · rw [update_self]
    exact List.nil_subset _
  · rw [update_of_ne hne, ← (steady_releaseState s k).owned]
    exact destroyBindings_owned _ k j

theorem tends_dropState (hP : Orderly P) (s : State) (k : Nat) : Tends P F s (dropState s k) :=
  ⟨fun h => h.dropState hP k, fun j => by
    rw [← (steady_detachState s k).owned]
    exact (tends_closeState (F := F) hP (detachState s k) k).owned j⟩

theorem tends_sessionDrop (hP : Orderly P) (k : Nat) : Keeps A (Tends P F) (sessionDrop k) := by
  intro s
  by_cases hu : (s.tbl.core k).used = true
  · exact (sessionDrop_sat hu).mono fun s' _ hl =>
      trans_of (Tends P F) (tends_dropState hP s k) (hl.steady.tends hP)
  · rw [sessionDrop_unused (Bool.eq_false_iff.mpr hu)]
    exact refl_of (Tends P F) s

theorem steady_setRetry (s : State) (k ms : Nat) : Steady s (setRetry s k ms) :=
  steady_modCore fun _ => rfl

theorem tolerant_tends (hP : Orderly P) : Tolerant A (Tends P F) where
  like h := h.steady.tends hP
  rel s rel _ _ := (steady_rel s rel).tends hP
  note s ms := (steady_rel s (noteRetry s ms).rel).tends hP
  postpone s k ms := ((steady_setRetry s k ms).trans
    (steady_rel (setRetry s k ms) (noteRetry (setRetry s k ms) ms).rel)).tends hP
  settle s k := (steady_setRetry s k 0).tends hP
  drop := tends_sessionDrop hP

/-- The walk for idle bindings destroys some. -/
theorem tends_bindingExpireWalk (hP : Orderly P) (now fuel : Nat) (cur : Option Nat) :
    Keeps A (Tends P F) (bindingExpireWalk now fuel cur) := by
  induction fuel generalizing cur with
  | zero => exact keeps_diverge
  | succ fuel ih =>
      cases cur with
      | none => exact keeps_pure ()
      | some b =>
          intro s
          simp only [bindingExpireWalk, bind_run, Worker.get_run, ret_bind]
          refine sat_ite (fun _ => refl_of (Tends P F) s) fun hc => sat_ite (fun _ => ih _ s) fun _ => ?_
          have hu : (s.bind.core b).used = true := by
            by_contra hu
            simp [hu] at hc
          rcases ho : (s.bind.core b).owner with _ | k
          · refine (ih _ (s.count .udpBindingEvictions)).mono fun _ _ h =>
              trans_of (Tends P F) ?_ h
            exact (like_count s _ _).steady.tends hP
          · have hdestroy : Tends P F s (destroyBinding s k b) :=
              ⟨fun h => h.destroy hP hu ho, destroyBinding_owned s k b⟩
            refine (ih _ ((destroyBinding s k b).count .udpBindingEvictions)).mono fun _ _ h =>
              trans_of (Tends P F) (trans_of (Tends P F) hdestroy ?_) h
            exact (like_count _ _ _).steady.tends hP

theorem tends_bindingExpireIdle (hP : Orderly P) : Keeps A (Tends P F) bindingExpireIdle :=
  (Tends.quiet hP quiet_nowMs).bind fun _ => keeps_ite (keeps_pure ())
    (keeps_get.bind fun _ => tends_bindingExpireWalk hP _ _ _)

/-! ### The handshake -/

/-- From `s` to `s'` only the handshake of session `k` went on, and every binding stayed. -/
structure Steadied (k : Nat) (s s' : State) : Prop where
  shake : Shake True k s s'
  steady : Steady s s'

instance (k : Nat) : IsPreorder State (Steadied k) where
  refl s := ⟨Shake.refl True k s, .refl s⟩
  trans _ _ _ h h' := ⟨h.shake.trans h'.shake, h.steady.trans h'.steady⟩

theorem handshaken_steadied (hclock : Clock True A) : Handshaken A k (Steadied k) := by
  have h := handshaken_shake (k := k) hclock
  have h' := handshaken_steady (A := A) (k := k)
  exact ⟨fun hl => ⟨h.like hl, h'.like hl⟩, fun s f => ⟨h.assoc s f, h'.assoc s f⟩,
    fun s _ hst => ⟨h.stage s hst, h'.stage s hst⟩, fun s r => ⟨h.refs s r, h'.refs s r⟩,
    fun s _ hr mask => ⟨h.interest s hr mask, h'.interest s hr mask⟩,
    fun s => ((h.restart s).and (h'.restart s)).mono fun _ _ hb => ⟨hb.1, hb.2⟩⟩

theorem establishing_steady : Establishing A k (Steadied k) Steady where
  stage h := h.shake.stage
  lift h _ := h.steady
  toSeeing := seeing_steady
  established s := (steady_setStage s k .ready).trans (steady_handshakeRemove _ k)

end Bpf2Socks.Udp

/-
# Bpf2Socks.Udp.Released — which sessions a pass over the flagged ports releases.

The pass walks the LRU and unlinks sessions from it on the way.  It is shown to be a loop over the
list of sessions as it was at the start (`releaseFlaggedFrom_eq`): the next pointer is read before
the session goes, so every session is visited once.  What a visit does depends on the session as it
was at the start, because the visits before it leave it untouched; the memo of ports already asked
about changes nothing, as long as the answers do not.
-/
import Bpf2Socks.Udp.Spared

namespace Bpf2Socks.Udp

open Function (update update_self update_of_ne)
open Lib (Prog Act DLists)
open Lib.Prog Lib.Act
open Worker hiding get modify ask diverge

/-! ## Which sessions -/

/-- A session of a local client on a port reported closed. -/
def Flagged (s : State) (k : Nat) : Prop :=
  (s.tbl.core k).used = true ∧ sessionClientIsLocal s k = true ∧
    s.rel.releasedPorts (sessionClientPort s k) = true

/-- Such a session whose replies still drain, or wait for the budget. -/
def Draining (s : State) (k : Nat) : Prop := Flagged s k ∧ droppable s k = false

/-- Such a session with nothing left to deliver, on a port no socket holds. -/
def Closed (answer : UInt16 → Option Bool) (s : State) (k : Nat) : Prop :=
  Flagged s k ∧ droppable s k = true ∧ answer (sessionClientPort s k) = some false

instance (s : State) (k : Nat) : Decidable (Flagged s k) := inferInstanceAs (Decidable (_ ∧ _ ∧ _))

instance (s : State) (k : Nat) : Decidable (Draining s k) := inferInstanceAs (Decidable (_ ∧ _))

instance (answer : UInt16 → Option Bool) (s : State) (k : Nat) : Decidable (Closed answer s k) :=
  inferInstanceAs (Decidable (_ ∧ _ ∧ _))

/-! ## The pass as a loop over a list -/

/-- What the pass does when it comes to session `k`. -/
def releaseVisit (now k : Nat) (memo : PortMemo) : Worker PortMemo := do
  let s ← Worker.get
  let port := sessionClientPort s k
  if !sessionClientIsLocal s k || !s.rel.releasedPorts port then pure memo
  else if !droppable s k then
    Worker.modify fun s => noteRetry (setRetry s k (now + releaseRetryMilliseconds))
      (now + releaseRetryMilliseconds)
    pure memo
  else
    let (isOpen, memo) ← releasePortHasSocket memo port
    if isOpen = some false then
      tokenDeleteClosedClient k
      sessionDrop k
      count .udpClosedClientReleases
    pure memo

/-- The visits to the sessions of a list, one after the other. -/
def releaseVisits (now : Nat) : List Nat → PortMemo → Worker Unit
  | [], _ => pure ()
  | k :: rest, memo => do
      let memo ← releaseVisit now k memo
      releaseVisits now rest memo

variable {A : State → (q : Sys) → q.Ans → Prop} {s t : State} {k now : Nat} {memo : PortMemo}

theorem releaseFlaggedFrom_succ (hu : (t.tbl.core k).used = true) (fuel : Nat) :
    releaseFlaggedFrom now (fuel + 1) (some k) memo t =
      (releaseVisit now k memo t).bind fun t' memo =>
        releaseFlaggedFrom now fuel (t.tbl.lru.next k) memo t' := by
  simp only [releaseFlaggedFrom, releaseVisit, bind_run, Worker.get_run, ret_bind, hu,
    Bool.not_true, Bool.false_eq_true, if_false, ite_run]
  split
  · rfl
  split
  · rfl
  · simp only [Prog.bind_assoc]
    congr 1
    funext t' r
    rcases r with ⟨isOpen, memo⟩
    dsimp only
    split
    · simp only [Prog.bind_assoc]
      rfl
    · rfl

/-! ## Asking about a port -/

/-- The answers remembered are those that would be given. -/
def PortMemo.Ok (answer : UInt16 → Option Bool) (memo : PortMemo) : Prop :=
  ∀ e ∈ memo, e.2 = answer e.1

/-- Only counters differ. -/
def SameButStats (s s' : State) : Prop := ∃ f, s' = { s with stats := f }

theorem SameButStats.like (h : SameButStats s t) : Like s t := by
  obtain ⟨f, rfl⟩ := h
  exact ⟨{ s.ownNoise with stats := f }, rfl, Nat.le_refl _⟩

theorem lookup_mem {memo : PortMemo} {port : UInt16} {r : Option Bool}
    (h : memo.lookup port = some r) : (port, r) ∈ memo := by
  induction memo with
  | nil => exact nomatch h
  | cons e memo ih =>
      obtain ⟨p, q⟩ := e
      rw [List.lookup_cons] at h
      split at h
      · rename_i heq
        obtain rfl : port = p := by simpa using heq
        cases h
        exact List.mem_cons_self
      · exact List.mem_cons_of_mem _ (ih h)

variable {answer : UInt16 → Option Bool}

/-- The query says what is so, remembered or not. -/
theorem releasePortHasSocket_returns
    (hA : ∀ s port (r : Sys.Ans (.portOpen port)), A s (.portOpen port) r → r = answer port)
    (hm : memo.Ok answer) (port : UInt16) :
    Returns A (fun s' r => r.1 = answer port ∧ r.2.Ok answer ∧ SameButStats s s')
      (releasePortHasSocket memo port s) := by
  unfold releasePortHasSocket
  rcases hl : memo.lookup port with _ | r
  · have hcounted : SameButStats s (s.count .udpReleaseConfirmQueries) := ⟨_, rfl⟩
    refine ⟨fun r hr => ?_, fun r _ => trivial⟩
    obtain rfl : r = answer port := hA _ port r hr
    refine ⟨rfl, ?_, hcounted⟩
    show PortMemo.Ok answer (if _ then _ else _)
    split
    · intro e he
      rcases List.mem_append.mp he with he | he
      · exact hm e he
      · obtain rfl := List.mem_singleton.mp he
        rfl
    · exact hm
  · exact Returns.ret ⟨hm _ (lookup_mem hl), hm, s.stats, rfl⟩

/-- Deleting the tokens changes nothing of the worker. -/
theorem tokenDeleteClosedClient_returns (k : Nat) (s : State) :
    Returns A (fun s' _ => s' = s) (tokenDeleteClosedClient k s) := by
  have hall : ∀ l : List Nat, Returns A (fun s' (_ : Unit) => s' = s)
      (forEach (fun b => do
        let s ← Worker.get
        if (s.bind.core b).used && bindingHasToken (s.bind.core b) then
          let _ : Bool ← Worker.ask (.tokenDelete (tokenSource (s.tbl.core k).clientAddr
            (s.bind.core b)))
          pure ()
        else pure () : Nat → Worker Unit) l s) := by
    intro l
    induction l with
    | nil => exact Returns.ret rfl
    | cons b l ih =>
        refine Returns.bind ?_ fun s' _ (hs : s' = s) => hs ▸ ih
        refine returns_ite (fun _ => ?_) fun _ => ?_
        · exact ⟨fun _ _ => rfl, fun _ _ => trivial⟩
        · exact Returns.ret rfl
  exact hall _

/-! ## One visit -/

/-- The state `t` of a pass that started in `s`, with the sessions of `seen` behind it and those of
`rest` before it. -/
structure Underway (answer : UInt16 → Option Bool) (now : Nat) (s : State) (seen rest : List Nat)
    (t : State) : Prop where
  coherent : Coherent t
  lru : t.tbl.lru.Rep fun _ => (seen.filter fun k => ¬Closed answer s k) ++ rest
  flags : t.rel.releasedPorts = s.rel.releasedPorts
  retryDue : t.rel.retryDueMs = if ∃ k ∈ seen, Draining s k then
    min s.rel.retryDueMs (now + releaseRetryMilliseconds) else s.rel.retryDueMs
  closed : ∀ k ∈ seen, Closed answer s k → (t.tbl.core k).used = false
  delayed : ∀ k ∈ seen, Draining s k → t.tbl.core k =
    { s.tbl.core k with releaseRetryMs := now + releaseRetryMilliseconds }
  same : ∀ k, ¬(k ∈ seen ∧ (Closed answer s k ∨ Draining s k)) → t.tbl.core k = s.tbl.core k
  untouched : ∀ k, ¬(k ∈ seen ∧ Closed answer s k) → Untouched s t k

theorem Untouched.of_stats {u : State} (h : SameButStats t u) (j : Nat) : Untouched t u j := by
  obtain ⟨f, rfl⟩ := h
  exact ⟨rfl, rfl, rfl, rfl, rfl, fun _ _ => rfl, fun _ _ _ _ => rfl, fun _ _ => rfl,
    fun _ _ => rfl⟩

variable {seen rest : List Nat}

namespace Underway

theorem stats {u : State} (h : Underway answer now s seen rest t) (hu : SameButStats t u) :
    Underway answer now s seen rest u := by
  have hun : ∀ j, Untouched t u j := Untouched.of_stats hu
  have hc := hu.like.coherent h.coherent
  obtain ⟨f, rfl⟩ := hu
  exact ⟨hc, h.lru, h.flags, h.retryDue, h.closed, h.delayed, h.same,
    fun k hk => (h.untouched k hk).trans (hun k)⟩

/-- A session the pass leaves alone. -/
theorem skip (h : Underway answer now s seen (k :: rest) t) (hc : ¬Closed answer s k)
    (hd : ¬Draining s k) : Underway answer now s (seen ++ [k]) rest t := by
  have hmem : ∀ {j}, j ∈ seen ++ [k] → Closed answer s j ∨ Draining s j → j ∈ seen :=
    fun {j} hj hp => (List.mem_append.mp hj).elim id fun hj => by
      obtain rfl := List.mem_singleton.mp hj
      exact absurd hp (by simp [hc, hd])
  refine ⟨h.coherent, ?_, h.flags, ?_, fun j hj hp => h.closed j (hmem hj (Or.inl hp)) hp,
    fun j hj hp => h.delayed j (hmem hj (Or.inr hp)) hp,
    fun j hj => h.same j fun hp => hj ⟨List.mem_append_left _ hp.1, hp.2⟩,
    fun j hj => h.untouched j fun hp => hj ⟨List.mem_append_left _ hp.1, hp.2⟩⟩
  · have := h.lru
    simpa [List.filter_append, hc] using this
  · rw [h.retryDue]
    simp [hd]

/-- What a session yet to be visited is judged by is as it was at the start. -/
theorem judged (h : Underway answer now s seen (k :: rest) t) (hk : k ∉ seen) :
    t.tbl.core k = s.tbl.core k ∧ (t.tbl.core k).used = true ∧
      sessionClientIsLocal t k = sessionClientIsLocal s k ∧
      sessionClientPort t k = sessionClientPort s k ∧ droppable t k = droppable s k := by
  have hcore := h.same k fun hp => hk hp.1
  have hdown := (h.untouched k fun hp => hk hp.1).down
  obtain ⟨lru, hs, hi⟩ := h.coherent.table
  have hmem : k ∈ lru := hi.lruRep.unique h.lru () ▸ by simp
  refine ⟨hcore, (hi.mem_lru.mp hmem).1, ?_, ?_, ?_⟩
  · rw [sessionClientIsLocal, sessionClientIsLocal, hcore]
  · rw [sessionClientPort, sessionClientPort, hcore]
  · rw [droppable, droppable, hdown]

/-- A session that still drains is looked at again later. -/
theorem delay (h : Underway answer now s seen (k :: rest) t) (hk : k ∉ seen) (hd : Draining s k) :
    Underway answer now s (seen ++ [k]) rest
      (noteRetry (setRetry t k (now + releaseRetryMilliseconds))
        (now + releaseRetryMilliseconds)) := by
  -- a session that drains is not one that closes, so the list keeps it
  have hc : ¬Closed answer s k := fun hc => by simpa [hd.2] using hc.2.1
  have hcore : ∀ j, (setRetry t k (now + releaseRetryMilliseconds)).tbl.core j =
      if j = k then { t.tbl.core k with releaseRetryMs := now + releaseRetryMilliseconds }
      else t.tbl.core j := fun j => Function.update_apply _ _ _ _
  refine ⟨?_, ?_, h.flags, ?_, fun j hj hp => ?_, fun j hj hp => ?_, fun j hj => ?_, fun j hj => ?_⟩
  · obtain ⟨lru, hs, hi⟩ := h.coherent.table
    refine ⟨⟨lru, hs, hi.congr_core ?_ ?_ ?_ ?_⟩, h.coherent.bindings, h.coherent.counted,
      h.coherent.reply, h.coherent.channel, h.coherent.ids_apart⟩
    · exact update_field (π := SessCore.used) rfl
    · exact update_field (π := SessCore.clientAddr) rfl
    · have hstage : ∀ j, ((setRetry t k (now + releaseRetryMilliseconds)).tbl.core j).stage =
          (t.tbl.core j).stage := update_field (π := SessCore.stage) rfl
      exact fun j => by rw [← hstage j]; rfl
    · exact update_field (π := SessCore.handshakeLinked) rfl
  · show t.tbl.lru.Rep _
    have := h.lru
    simpa [List.filter_append, hc] using this
  · have hex : ∃ j ∈ seen ++ [k], Draining s j := ⟨k, by simp, hd⟩
    rw [if_pos hex]
    show min t.rel.retryDueMs _ = _
    rw [h.retryDue]
    split
    · exact Nat.min_eq_left (Nat.min_le_right _ _)
    · rfl
  · have hjk : j ≠ k := by rintro rfl; exact hc hp
    have hj' : j ∈ seen := (List.mem_append.mp hj).elim id fun hm => by simp_all
    show ((setRetry t k _).tbl.core j).used = false
    rw [hcore, if_neg hjk]
    exact h.closed j hj' hp
  · show (setRetry t k _).tbl.core j = _
    rw [hcore]
    split
    · rename_i heq
      rw [heq, (h.judged hk).1]
    · rename_i hjk
      exact h.delayed j ((List.mem_append.mp hj).elim id fun hm => by simp_all) hp
  · have hjk : j ≠ k := by
      rintro rfl
      exact hj ⟨by simp, Or.inr hd⟩
    show (setRetry t k _).tbl.core j = _
    rw [hcore, if_neg hjk]
    exact h.same j fun hp => hj ⟨List.mem_append_left _ hp.1, hp.2⟩
  · refine (h.untouched j fun hp => hj ⟨List.mem_append_left _ hp.1, hp.2⟩).trans ?_
    exact ⟨rfl, rfl, rfl, rfl, rfl, fun _ _ => rfl, fun _ _ _ _ => rfl, fun _ _ => rfl,
      fun _ _ => rfl⟩

/-- A closed session is dropped. -/
theorem drop {u : State} (h : Underway answer now s seen (k :: rest) t) (hk : k ∉ seen)
    (hc : Closed answer s k) (hu : Dropped k t u) :
    Underway answer now s (seen ++ [k]) rest u := by
  have hd : ¬Draining s k := fun hd => by simpa [hd.2] using hc.2.1
  have hcore : ∀ j, u.tbl.core j = if j = k then .zero else t.tbl.core j := fun j => by
    rw [hu.tbl, t.tbl.dropped_core]
  have hmem : ∀ {j}, j ∈ seen ++ [k] → j ≠ k → j ∈ seen := fun hj hjk =>
    (List.mem_append.mp hj).elim id fun hm => absurd (List.mem_singleton.mp hm) hjk
  refine ⟨hu.coherent, ?_, ?_, ?_, fun j hj hp => ?_, fun j hj hp => ?_, fun j hj => ?_,
    fun j hj => ?_⟩
  · obtain ⟨lru, hs, hi⟩ := h.coherent.table
    have heq : lru = (seen.filter fun k => ¬Closed answer s k) ++ k :: rest :=
      hi.lruRep.unique h.lru ()
    have hk' : k ∉ seen.filter fun k => ¬Closed answer s k := fun hm => hk (List.mem_filter.mp hm).1
    have hrep := (hi.dropped (h.judged hk).2.1).lruRep
    rw [heq, List.erase_append_right _ hk', List.erase_cons_head, ← hu.tbl] at hrep
    simpa [List.filter_append, hc] using hrep
  · rw [hu.rel]
    exact h.flags
  · rw [hu.rel, h.retryDue]
    simp [hd]
  · rw [hcore]
    split
    · rfl
    · rename_i hjk
      exact h.closed j (hmem hj hjk) hp
  · have hjk : j ≠ k := by rintro rfl; exact hd hp
    rw [hcore, if_neg hjk]
    exact h.delayed j (hmem hj hjk) hp
  · have hjk : j ≠ k := by
      rintro rfl
      exact hj ⟨by simp, Or.inl hc⟩
    rw [hcore, if_neg hjk]
    exact h.same j fun hp => hj ⟨List.mem_append_left _ hp.1, hp.2⟩
  · have hjk : j ≠ k := by
      rintro rfl
      exact hj ⟨by simp, hc⟩
    exact (h.untouched j fun hp => hj ⟨List.mem_append_left _ hp.1, hp.2⟩).trans (hu.others j hjk)

/-- One visit, whatever else the environment answers. -/
theorem visit
    (hA : ∀ s port (r : Sys.Ans (.portOpen port)), A s (.portOpen port) r → r = answer port)
    (h : Underway answer now s seen (k :: rest) t) (hk : k ∉ seen) (hm : memo.Ok answer) :
    Returns A (fun t' memo' => memo'.Ok answer ∧ Underway answer now s (seen ++ [k]) rest t')
      (releaseVisit now k memo t) := by
  obtain ⟨hcore, hu, hlocal, hport, hdrop⟩ := h.judged hk
  have hus : (s.tbl.core k).used = true := hcore ▸ hu
  refine returns_ite (fun hc => ?_) fun hf => returns_ite (fun hd => ?_) fun hd => ?_
  · have hnot : ¬Flagged s k := by
      rintro ⟨-, hl, hp⟩
      simp [hlocal, hport, h.flags, hl, hp] at hc
    exact Returns.ret ⟨hm, h.skip (fun hc => hnot hc.1) fun hd => hnot hd.1⟩
  all_goals
    have hflag : Flagged s k := by
      refine ⟨hus, ?_, ?_⟩ <;>
        simp_all [h.flags]
  · refine Returns.ret ⟨hm, h.delay hk ⟨hflag, ?_⟩⟩
    simpa [hdrop] using hd
  · have hdk : droppable s k = true := by simpa [hdrop] using hd
    refine (releasePortHasSocket_returns hA hm _).bind fun u r hr => ?_
    obtain ⟨hr, hm', hstats⟩ := hr
    have hu' := h.stats hstats
    have huu : (u.tbl.core k).used = true := (hu'.judged hk).2.1
    have hdu : droppable u k = true := (hu'.judged hk).2.2.2.2.trans hdk
    rw [hport] at hr
    refine returns_ite (fun hopen => ?_) fun hopen => ?_
    · -- no socket holds the port: the session goes
      have hc : Closed answer s k := ⟨hflag, hdk, hr ▸ hopen⟩
      refine (tokenDeleteClosedClient_returns k u).bind fun u' _ he => ?_
      subst he
      refine (sessionDrop_returns hu'.coherent huu hdu).bind fun v _ hv => ?_
      exact Returns.ret ⟨hm', (hu'.drop hk hc hv).stats ⟨_, rfl⟩⟩
    · refine Returns.ret ⟨hm', hu'.skip (fun hc => hopen (hr ▸ hc.2.2)) fun hd => ?_⟩
      simp [hd.2] at hdk

/-- The visits to all that is left. -/
theorem visits
    (hA : ∀ s port (r : Sys.Ans (.portOpen port)), A s (.portOpen port) r → r = answer port)
    (h : Underway answer now s seen rest t) (hnd : (seen ++ rest).Nodup) (hm : memo.Ok answer) :
    Returns A (fun t' _ => Underway answer now s (seen ++ rest) [] t')
      (releaseVisits now rest memo t) := by
  induction rest generalizing seen t memo with
  | nil => exact Returns.ret (by simpa using h)
  | cons k rest ih =>
      have hk : k ∉ seen := fun hm => (List.nodup_append.mp hnd).2.2 k hm k (by simp) rfl
      refine (h.visit hA hk hm).bind fun t' memo' h' => ?_
      have := ih h'.2 (by simpa using hnd) h'.1
      simpa using this

end Underway

/-! ## The walk is the loop -/

/-- After a visit the table still holds what is left. -/
theorem releaseVisit_table {lru hs : List Nat} (hi : t.tbl.Inv none lru hs) (hk : k ∈ lru) :
    Sat (fun _ _ _ => True)
      (fun t' _ => ∃ lru' hs', t'.tbl.Inv none lru' hs' ∧ (lru' = lru ∨ lru' = lru.erase k))
      (releaseVisit now k memo t) := by
  have hstay : ∀ {u : State}, u.tbl = t.tbl →
      ∃ lru' hs', u.tbl.Inv none lru' hs' ∧ (lru' = lru ∨ lru' = lru.erase k) :=
    fun {u} hu => ⟨lru, hs, hu ▸ hi, Or.inl rfl⟩
  refine sat_ite (fun _ => hstay rfl) fun _ => sat_ite (fun _ => ?_) fun _ => ?_
  · refine ⟨lru, hs, hi.congr_core ?_ ?_ ?_ ?_, Or.inl rfl⟩
    · exact update_field (π := SessCore.used) rfl
    · exact update_field (π := SessCore.clientAddr) rfl
    · have hstage : ∀ j, ((setRetry t k (now + releaseRetryMilliseconds)).tbl.core j).stage =
          (t.tbl.core j).stage := update_field (π := SessCore.stage) rfl
      exact fun j => by rw [← hstage j]; rfl
    · exact update_field (π := SessCore.handshakeLinked) rfl
  · have hask : Sat (fun _ _ _ => True) (fun u _ => u.tbl = t.tbl)
        (releasePortHasSocket memo (sessionClientPort t k) t) := by
      unfold releasePortHasSocket
      rcases memo.lookup (sessionClientPort t k) with _ | r
      · exact fun _ _ => rfl
      · rfl
    refine hask.bind fun u r hu => sat_ite (fun _ => ?_) fun _ => hstay hu
    refine (tokenDeleteClosedClient_returns k u).1.bind fun u' _ he => ?_
    subst he
    have hused : (u'.tbl.core k).used = true := hu ▸ (hi.mem_lru.mp hk).1
    refine (sessionDrop_sat hused).bind fun v _ hv => ?_
    refine ⟨lru.erase k, hs.erase k, ?_, Or.inr rfl⟩
    show v.tbl.Inv none _ _
    rw [hv.beside.tbl, dropState_tbl, hu]
    exact hi.dropped (hi.mem_lru.mp hk).1

/-- Reading the next pointer before the session goes makes the walk a loop over the list. -/
theorem releaseFlaggedFrom_eq {v rest hs : List Nat} {fuel : Nat}
    (hi : t.tbl.Inv none (v ++ rest) hs) (hfuel : rest.length < fuel) :
    releaseFlaggedFrom now fuel rest.head? memo t = releaseVisits now rest memo t := by
  induction fuel generalizing t v rest hs memo with
  | zero => exact absurd hfuel (Nat.not_lt_zero _)
  | succ fuel ih =>
      cases rest with
      | nil => rfl
      | cons k rest =>
          have hk : k ∈ v ++ k :: rest := by simp
          have hnd := hi.lru_nodup
          have hks : k ∉ v := fun hm => (List.nodup_append.mp hnd).2.2 k hm k (by simp) rfl
          have hnext : t.tbl.lru.next k = rest.head? := by
            obtain ⟨_, -, hseg⟩ := DLists.seg_append.mp (hi.lruRep.fwd ())
            exact hseg.2.head
          rw [List.head?_cons, releaseFlaggedFrom_succ (hi.mem_lru.mp hk).1, hnext]
          refine bind_congr_of_sat (releaseVisit_table hi hk) fun t' memo' h' => ?_
          obtain ⟨lru', hs', hi', rfl | rfl⟩ := h'
          · exact ih (v := v ++ [k]) (by simpa using hi') (Nat.lt_of_succ_lt_succ hfuel)
          · rw [List.erase_append_right _ hks, List.erase_cons_head] at hi'
            exact ih hi' (Nat.lt_of_succ_lt_succ hfuel)

/-! ## The pass -/

/-- Clear the flags. -/
def clearFlags (s : State) : State := { s with rel := { s.rel with releasedPorts := fun _ => false } }

/-- What a pass over the flagged ports leaves. -/
structure ReleasedExactly (answer : UInt16 → Option Bool) (now : Nat) (s s' : State) : Prop where
  dropped : ∀ k, (s.tbl.core k).used = true →
    ((s'.tbl.core k).used = false ↔ Closed answer s k)
  delayed : ∀ k, Draining s k → s'.tbl.core k =
    { s.tbl.core k with releaseRetryMs := now + releaseRetryMilliseconds }
  same : ∀ k, ¬Closed answer s k → ¬Draining s k → s'.tbl.core k = s.tbl.core k
  untouched : ∀ k, ¬Closed answer s k → Untouched s s' k
  retryDue : ∀ k, Draining s k →
    s'.rel.retryDueMs = min s.rel.retryDueMs (now + releaseRetryMilliseconds)
  retryKept : (∀ k, ¬Draining s k) → s'.rel.retryDueMs = s.rel.retryDueMs
  order : s'.tbl.lruList = s.tbl.lruList.filter fun k => ¬Closed answer s k
  flags : ∀ port, s'.rel.releasedPorts port = false

/-- In every state whose tables and queues fit together, with any set of flagged ports, and while
the answer for a port stays the same: a pass visits each session in use once; it returns, having
dropped exactly the closed sessions and put off exactly the draining ones, every other session and
what belongs to it untouched, and no port flagged. -/
theorem flagged_sessions_released (answer : UInt16 → Option Bool) (now : Nat)
    (hA : ∀ s port (r : Sys.Ans (.portOpen port)), A s (.portOpen port) r → r = answer port)
    (h : Coherent s) :
    s.tbl.lruList.Nodup ∧ (∀ k, k ∈ s.tbl.lruList ↔ (s.tbl.core k).used = true) ∧
      releaseFlaggedSessions now s = (releaseVisits now s.tbl.lruList [] >>= fun _ =>
        Worker.modify clearFlags : Worker Unit) s ∧
      Returns A (fun s' _ => ReleasedExactly answer now s s') (releaseFlaggedSessions now s) := by
  obtain ⟨lru, hs, hi⟩ := h.table
  have hlist := hi.lruList_eq
  have hused : ∀ k, k ∈ lru ↔ (s.tbl.core k).used = true := fun k => by
    rw [hi.mem_lru]
    simp
  have heq : releaseFlaggedSessions now s = (releaseVisits now lru [] >>= fun _ =>
      Worker.modify clearFlags : Worker Unit) s := by
    show (releaseFlaggedFrom now (s.tbl.cap + 1) (s.tbl.lru.head ()) [] s).bind _ = _
    rw [hi.lruRep.head_eq (), releaseFlaggedFrom_eq (v := []) hi
      (Nat.lt_succ_of_le hi.lru_length)]
    rfl
  rw [hlist, heq]
  refine ⟨hi.lru_nodup, hused, rfl, ?_⟩
  -- the walk is an induction on what of the list is still ahead
  have hstart : Underway answer now s [] lru s :=
    ⟨h, hi.lruRep, rfl, by simp, by simp, by simp, fun _ _ => rfl, fun k _ => Untouched.refl s k⟩
  refine (hstart.visits hA (by simpa using hi.lru_nodup) (by simp [PortMemo.Ok])).bind
    fun t _ ht => Returns.ret ?_
  rw [List.nil_append] at ht
  have hflagged : ∀ {k}, Flagged s k → k ∈ lru := fun hf => (hused _).mpr hf.1
  refine ⟨fun k hk => ⟨fun hgone => ?_, fun hc => ht.closed k (hflagged hc.1) hc⟩,
    fun k hd => ht.delayed k (hflagged hd.1) hd,
    fun k hc hd => ht.same k fun hp => hp.2.elim hc hd, fun k hc => ?_, fun k hd => ?_, fun hno => ?_,
    ?_, fun _ => rfl⟩
  · by_contra hc
    have hstill : (t.tbl.core k).used = true := by
      by_cases hd : Draining s k
      · rw [ht.delayed k (hflagged hd.1) hd]
        exact hk
      · rw [ht.same k fun hp => hp.2.elim hc hd]
        exact hk
    exact absurd (hstill.symm.trans hgone) (by decide)
  · refine (ht.untouched k fun hp => hc hp.2).trans ?_
    exact ⟨rfl, rfl, rfl, rfl, rfl, fun _ _ => rfl, fun _ _ _ _ => rfl, fun _ _ => rfl,
      fun _ _ => rfl⟩
  · exact ht.retryDue.trans (if_pos ⟨k, hflagged hd.1, hd⟩)
  · exact ht.retryDue.trans (if_neg fun ⟨k, _, hd⟩ => hno k hd)
  · obtain ⟨lru', hs', hi'⟩ := ht.coherent.table
    show t.tbl.lruList = _
    rw [hi'.lruList_eq, hlist, hi'.lruRep.unique ht.lru (), List.append_nil]

/-- No socket holds any port. -/
def portsClosed : (q : Sys) → q.Ans → Prop
  | .portOpen _, (r : Option Bool) => r = some false
  | _, _ => True

/-- A worker with room for two sessions. -/
def pairConfig : WorkerConfig := { calmConfig with sessionCap := 2, sessionCap_pos := Nat.two_pos }

/-- 127.0.0.1:10. -/
def localClient : Sockaddr := ⟨.inet, [0, 10, 127, 0, 0, 1, 0, 0, 0, 0, 0, 0, 0, 0]⟩

theorem bindTable_init (cfg : WorkerConfig) :
    (initState cfg).bind.Inv none [] fun _ => [] := by
  refine ⟨DLists.rep_empty, DLists.rep_empty, List.nodup_reverse.mpr List.nodup_range, ?_, ?_, ?_,
    by simp, fun _ => List.nodup_nil, ?_, ?_, fun _ => List.nodup_nil, ?_, by simp, by simp, by simp,
    rfl, fun _ => rfl⟩ <;>
    simp [initState, Binding.zero]

/-- A worker with these sessions, which have nothing else yet, and all ports flagged. -/
def allFlagged (cfg : WorkerConfig) (t : SessTable) : State :=
  { initState cfg with tbl := t, rel := { (initState cfg).rel with releasedPorts := fun _ => true } }

theorem coherent_allFlagged (cfg : WorkerConfig) {t : SessTable}
    (h : ∃ lru hs, t.Inv none lru hs) : Coherent (allFlagged cfg t) where
  table := h
  bindings := ⟨_, _, bindTable_init cfg⟩
  counted _ := rfl
  reply _ _ h := nomatch h
  channel _ _ h := nomatch h
  ids_apart _ _ _ h := nomatch h

/-- A local client's session is released; that of a remote client on the same port is not. -/
theorem flagged_sessions_released_run :
    ∃ s, Coherent s ∧ (s.tbl.core 0).used = true ∧ (s.tbl.core 1).used = true ∧
      sessionClientPort s 0 = sessionClientPort s 1 ∧
      Returns (fun _ => portsClosed)
        (fun s' _ => (s'.tbl.core 0).used = false ∧ s'.tbl.core 1 = s.tbl.core 1)
        (releaseFlaggedSessions 5 s) := by
  obtain ⟨l, s, h, hc⟩ := exists_reach (B := okb) (E := fun _ _ => true)
    (A := ok) (C := fun _ _ => True) (g := pairConfig) (fun _ _ _ h => h) (fun _ _ _ => trivial)
    (openMoves clientA ++ openMoves localClient) (fun _ s =>
      (s.tbl.core 0).used && (s.tbl.core 1).used && sessionClientIsLocal s 0 &&
        !sessionClientIsLocal s 1 && sessionClientPort s 0 == sessionClientPort s 1)
    (by decide +kernel)
  simp only [Bool.and_eq_true, Bool.not_eq_true', beq_iff_eq] at hc
  obtain ⟨⟨⟨⟨h0, h1⟩, hlocal⟩, hremote⟩, hport⟩ := hc
  obtain ⟨lru, hs, hi, -⟩ := (h.sessions (M := False) False.elim).1.whole
  have hcoh := coherent_allFlagged pairConfig ⟨lru, hs, hi⟩
  obtain ⟨-, -, -, hret⟩ := flagged_sessions_released (A := fun _ => portsClosed)
    (fun _ => some false) 5 (fun _ _ _ hr => hr) hcoh
  refine ⟨_, hcoh, h0, h1, hport, hret.1.mono fun s' _ hr => ⟨?_, ?_⟩, hret.2⟩
  · exact (hr.dropped 0 h0).mpr ⟨⟨h0, hlocal, rfl⟩, rfl, rfl⟩
  · have hnot : ¬Flagged (allFlagged pairConfig s.tbl) 1 := fun hf =>
      absurd (hremote.symm.trans hf.2.1) (by decide)
    exact hr.same 1 (fun hc => hnot hc.1) fun hd => hnot hd.1

end Bpf2Socks.Udp

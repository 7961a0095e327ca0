/-
# Bpf2Socks.Udp.DomainReplies — which binding a reply from a domain goes through.

A reply from a domain names only a port, and is delivered through the session's most recently used
client-made binding of that port.  The code finds it by the times the bindings were last seen, over
the session's list, which holds the newest binding first; what is most recently used is what is last
on the session's LRU.  `Ranked` says that the two orders agree: of two such bindings the one further
back on the LRU was seen later, or in the same millisecond and stands further in front on the list.

Three things set the orders apart: a datagram that refreshes a binding bears the time at which its
batch was received, a reply touches its binding before it stamps it, and a queue that is flushed
stamps bindings without touching them.
-/
import Bpf2Socks.Udp.BindingRuns
import Mathlib.Data.List.MinMax

namespace Bpf2Socks.Udp

open Function (update update_self update_of_ne)
open Lib (Prog Act DLists)
open Lib.Prog Lib.Act

variable {A : State → (q : Sys) → q.Ans → Prop} {C : Loc → State → Prop} {cfg : WorkerConfig}
  {F F' : Nat → Prop} {g g' : Ledger} {l : Loc} {s : State} {k j a b : Nat} {c : Binding}
  {port : UInt16}

/-! ## Two facts about lists -/

/-- What is last in a list is last in every part of it that has it. -/
theorem getLast?_of_sublist {xs ys : List Nat} (h : xs.Sublist ys) (hnd : ys.Nodup)
    (hlast : ys.getLast? = some b) (hb : b ∈ xs) : xs.getLast? = some b := by
  obtain ⟨front, rfl⟩ := List.getLast?_eq_some_iff.mp hlast
  obtain ⟨l₁, l₂, rfl, h₁, h₂⟩ := List.sublist_append_iff.mp h
  rcases List.sublist_singleton.mp h₂ with rfl | rfl
  · have hfront : b ∈ front := h₁.subset (by simpa using hb)
    exact absurd rfl ((List.nodup_append.mp hnd).2.2 b hfront b (List.mem_singleton_self b))
  · exact List.getLast?_concat

/-- What stands in front has the smaller index. -/
theorem idxOf_lt_of_sublist {xs : List Nat} (h : [b, a].Sublist xs) (hnd : xs.Nodup) :
    xs.idxOf b < xs.idxOf a := by
  induction xs with
  | nil => cases h
  | cons x xs ih =>
      obtain ⟨hx, hnd⟩ := List.nodup_cons.mp hnd
      cases h with
      | cons _ h =>
          have hb : x ≠ b := by
            rintro rfl
            exact hx (h.subset List.mem_cons_self)
          have ha : x ≠ a := by
            rintro rfl
            exact hx (h.subset (by simp))
          rw [List.idxOf_cons_ne xs hb, List.idxOf_cons_ne xs ha]
          exact Nat.succ_lt_succ (ih h hnd)
      | cons_cons _ h =>
          have ha : b ≠ a := by
            rintro rfl
            exact hx (h.subset List.mem_cons_self)
          rw [List.idxOf_cons_self, List.idxOf_cons_ne xs ha]
          exact Nat.succ_pos _

/-! ## The two orders -/

/-- A binding of the port that a client datagram made or refreshed with a token. -/
def isCandidate (port : UInt16) (c : Binding) : Bool :=
  c.used && c.originalDst.port = port && bindingHasToken c

theorem SameUse.isCandidate {c c' : Binding} (h : SameUse c c') (port : UInt16) :
    isCandidate port c' = isCandidate port c := by
  simp only [Udp.isCandidate, bindingHasToken, h.used, h.dst, h.token]

theorem isCandidate_zero (port : UInt16) : isCandidate port .zero = false := rfl

namespace Ledger

/-- The candidates of session `k` for the port, least recently used first. -/
def ranking (g : Ledger) (k : Nat) (port : UInt16) : List Nat :=
  (g.olru k).filter fun b => isCandidate port (g.core b)

/-- Session `k` saw `b` after `a`, or in the same millisecond and has it further in front. -/
def Outdone (g : Ledger) (k a b : Nat) : Prop :=
  (g.core a).lastSeenMs < (g.core b).lastSeenMs ∨
    (g.core a).lastSeenMs = (g.core b).lastSeenMs ∧ [b, a].Sublist (g.owned k)

theorem mem_ranking : b ∈ g.ranking k port ↔ b ∈ g.olru k ∧ isCandidate port (g.core b) = true :=
  List.mem_filter

theorem Whole.olru_nodup (h : g.Whole) (k : Nat) : (g.olru k).Nodup := by
  obtain ⟨t, ht⟩ := h
  exact ht.inv.olru_nodup k

theorem Whole.ranking_nodup (h : g.Whole) (k : Nat) (port : UInt16) : (g.ranking k port).Nodup :=
  (h.olru_nodup k).filter _

theorem Whole.mem_olru (h : g.Whole) :
    b ∈ g.olru k ↔ b ∈ g.lru ∧ (g.core b).owner = some k := by
  obtain ⟨t, ht⟩ := h
  rw [ht.core]
  exact ht.inv.mem_olru

theorem Whole.mem_owned (h : g.Whole) : b ∈ g.owned k ↔ b ∈ g.olru k := by
  obtain ⟨t, ht⟩ := h
  rw [ht.owned, ht.inv.mem_owned, ht.inv.mem_olru]

end Ledger

open Ledger

/-- Of two candidates the one further back on the LRU outdoes the other; one at hand is last. -/
structure Ranked (F : Nat → Prop) (g : Ledger) : Prop where
  order : ∀ k port, (g.ranking k port).Pairwise (g.Outdone k)
  hand : ∀ k port b, F b → b ∈ g.ranking k port → (g.ranking k port).getLast? = some b

/-! ## What keeps the orders together -/

/-- Fewer candidates, of which those left stand to each other as before. -/
theorem Ranked.restrict (hg : g.Whole) (hr : ∀ k port, (g'.ranking k port).Sublist (g.ranking k port))
    (ho : ∀ k port a b, a ∈ g'.ranking k port → b ∈ g'.ranking k port → g.Outdone k a b →
      g'.Outdone k a b) (h : Ranked F g) : Ranked F g' := by
  refine ⟨fun k port => ?_, fun k port b hF hb => ?_⟩
  · have hsub := (h.order k port).sublist (hr k port)
    exact hsub.imp_of_mem fun ha hb hab => ho k port _ _ ha hb hab
  · have hb' := (hr k port).subset hb
    exact getLast?_of_sublist (hr k port) (hg.ranking_nodup k port) (h.hand k port b hF hb') hb

theorem Ranked.congr {core : Nat → Binding} (hg : g.Whole)
    (hc : ∀ b ∈ g.lru, SameUse (g.core b) (core b)) (h : Ranked F g) :
    Ranked F { g with core := core } := by
  have hrank : ∀ k port, Ledger.ranking { g with core := core } k port = g.ranking k port :=
    fun k port => List.filter_congr fun b hb =>
      (hc b (hg.mem_olru.mp hb).1).isCandidate port
  have hseen : ∀ {k port b}, b ∈ g.ranking k port → (core b).lastSeenMs = (g.core b).lastSeenMs :=
    fun hb => (hc _ (hg.mem_olru.mp (mem_ranking.mp hb).1).1).seen
  refine h.restrict hg (fun k port => ?_) fun k port a b ha hb hab => ?_
  · rw [hrank]
  · rw [hrank] at ha hb
    simpa only [Outdone, hseen ha, hseen hb] using hab

theorem Ranked.drop (hg : g.Whole) (h : Ranked F g) (k b : Nat) : Ranked F (g.drop k b) := by
  have hne : ∀ {j port x}, x ∈ (g.drop k b).ranking j port → x ≠ b := by
    rintro j port x hx rfl
    have hc := (mem_ranking.mp hx).2
    simp [Ledger.drop, isCandidate_zero] at hc
  refine h.restrict hg (fun j port => ?_) fun j port a x ha hx hax => ?_
  · -- the record is erased wherever the slot stood
    have hle : ((g.drop k b).olru j).Sublist (g.olru j) := by
      rcases eq_or_ne j k with rfl | hj
      · simpa [Ledger.drop] using List.erase_sublist
      · simp [Ledger.drop, update_of_ne hj]
    refine List.Sublist.trans ?_ (hle.filter _)
    refine List.monotone_filter_right _ fun x hx => ?_
    rcases eq_or_ne x b with rfl | hxb
    · simp [Ledger.drop, isCandidate_zero] at hx
    · simpa [Ledger.drop, update_of_ne hxb] using hx
  · have hseen : ∀ {x}, x ≠ b → (g.drop k b).core x = g.core x := fun hx => update_of_ne hx _ _
    simp only [Outdone, hseen (hne ha), hseen (hne hx)] at hax ⊢
    refine hax.imp id fun ⟨heq, hsub⟩ => ⟨heq, ?_⟩
    rcases eq_or_ne j k with rfl | hj
    · have herase := hsub.erase b
      rw [List.erase_of_not_mem (by simp [(hne ha).symm, (hne hx).symm])] at herase
      simpa [Ledger.drop] using herase
    · simpa [Ledger.drop, update_of_ne hj] using hsub

/-- Records, lists and candidates of other bindings are what they were. -/
theorem Outdone.congr {g g' : Ledger} (ha : (g'.core a).lastSeenMs = (g.core a).lastSeenMs)
    (hb : (g'.core b).lastSeenMs = (g.core b).lastSeenMs) (ho : g'.owned k = g.owned k)
    (h : g.Outdone k a b) : g'.Outdone k a b := by
  simpa only [Outdone, ha, hb, ho] using h

/-- Fewer bindings at hand. -/
theorem Ranked.fewer (hF : ∀ b, F' b → F b) (h : Ranked F g) : Ranked F' g :=
  ⟨h.order, fun k port b hb => h.hand k port b (hF b hb)⟩

/-- A binding without a token may be at hand anywhere. -/
theorem Ranked.welcome (hb : bindingHasToken (g.core b) = false) (h : Ranked F g) :
    Ranked (fun x => F x ∨ x = b) g := by
  refine ⟨h.order, fun k port x hx hmem => ?_⟩
  rcases hx with hx | rfl
  · exact h.hand k port x hx hmem
  · have hc := (mem_ranking.mp hmem).2
    simp [isCandidate, hb] at hc

/-- A new binding is last on the LRU, was seen last, and stands in front. -/
theorem Ranked.add (hg : g.Whole) (hb : b ∉ g.lru)
    (hseen : ∀ x ∈ g.lru, (g.core x).lastSeenMs ≤ c.lastSeenMs)
    (hF : (∀ x, ¬F x) ∨ bindingHasToken c = false) (h : Ranked F g) : Ranked F (g.add k b c) := by
  have hne : ∀ {j x}, x ∈ g.olru j → x ≠ b := by
    rintro j x hx rfl
    exact hb (hg.mem_olru.mp hx).1
  have hcore : ∀ {x}, x ≠ b → (g.add k b c).core x = g.core x := fun hx => update_of_ne hx _ _
  have hself : (g.add k b c).core b = c := update_self _ _ _
  have hold : ∀ j port, ((g.olru j).filter fun x => isCandidate port ((g.add k b c).core x)) =
      g.ranking j port := fun j port => List.filter_congr fun x hx => by rw [hcore (hne hx)]
  have hnew : ∀ port, (g.add k b c).ranking k port =
      g.ranking k port ++ if isCandidate port c then [b] else [] := by
    intro port
    show (update g.olru k (g.olru k ++ [b]) k).filter _ = _
    rw [update_self, List.filter_append, hold, List.filter_singleton, hself]
    split <;> simp_all
  have hother : ∀ {j} port, j ≠ k → (g.add k b c).ranking j port = g.ranking j port := by
    intro j port hj
    show (update g.olru k (g.olru k ++ [b]) j).filter _ = _
    rw [update_of_ne hj, hold]
  have howned : ∀ {j x y}, [y, x].Sublist (g.owned j) → [y, x].Sublist ((g.add k b c).owned j) := by
    intro j x y hsub
    show [y, x].Sublist (update g.owned k (b :: g.owned k) j)
    rcases eq_or_ne j k with rfl | hj
    · rw [update_self]
      exact hsub.cons b
    · rwa [update_of_ne hj]
  have hkeep : ∀ {j port}, (g.ranking j port).Pairwise ((g.add k b c).Outdone j) := by
    intro j port
    refine (h.order j port).imp_of_mem fun ha hx hax => ?_
    have ha' := hcore (hne (mem_ranking.mp ha).1)
    have hx' := hcore (hne (mem_ranking.mp hx).1)
    simp only [Outdone, ha', hx'] at hax ⊢
    exact hax.imp id fun ⟨heq, hsub⟩ => ⟨heq, howned hsub⟩
  refine ⟨fun j port => ?_, fun j port x hx hmem => ?_⟩
  · rcases eq_or_ne j k with rfl | hj
    · rw [hnew]
      refine List.pairwise_append.mpr ⟨hkeep, by split <;> simp, fun a ha x hx => ?_⟩
      obtain rfl : x = b := by
        split at hx
        · exact List.mem_singleton.mp hx
        · exact absurd hx List.not_mem_nil
      -- the new binding stands in front of all others
      have hmem := (mem_ranking.mp ha).1
      have hle := hseen a (hg.mem_olru.mp hmem).1
      have hfront : [x, a].Sublist ((g.add j x c).owned j) := by
        show [x, a].Sublist (update g.owned j (x :: g.owned j) j)
        rw [update_self]
        exact (List.singleton_sublist.mpr (hg.mem_owned.mpr hmem)).cons_cons x
      simp only [Outdone, hcore (hne hmem), hself]
      rcases Nat.lt_or_eq_of_le hle with hlt | heq
      · exact .inl hlt
      · exact .inr ⟨heq, hfront⟩
    · rw [hother port hj]
      exact hkeep
  · rcases hF with hF | hc
    · exact absurd hx (hF x)
    · have hsame : (g.add k b c).ranking j port = g.ranking j port := by
        rcases eq_or_ne j k with rfl | hj
        · rw [hnew, if_neg (by simp [isCandidate, hc]), List.append_nil]
        · exact hother port hj
      rw [hsame] at hmem ⊢
      exact h.hand j port x hx hmem

/-- Touching a binding that is last, or is no candidate, changes no ranking. -/
theorem Ranked.touch (hg : g.Whole) (hF : F b) (ho : (g.core b).owner = some k)
    (hb : b ∈ g.lru) (h : Ranked F g) : Ranked F (g.touch k b) := by
  have hrank : ∀ j port, (g.touch k b).ranking j port = g.ranking j port := by
    intro j port
    show (update g.olru k ((g.olru k).erase b ++ [b]) j).filter
      (fun x => isCandidate port (g.core x)) = _
    rcases eq_or_ne j k with rfl | hj
    · rw [update_self, List.filter_append, List.filter_singleton]
      have herase : ((g.olru j).erase b).filter (fun x => isCandidate port (g.core x)) =
          (g.ranking j port).erase b := by
        rw [(hg.olru_nodup j).erase_eq_filter, (hg.ranking_nodup j port).erase_eq_filter, ranking,
          List.filter_comm]
      rw [herase]
      by_cases hc : isCandidate port (g.core b) = true
      · have hlast := h.hand j port b hF (mem_ranking.mpr ⟨hg.mem_olru.mpr ⟨hb, ho⟩, hc⟩)
        obtain ⟨front, hfront⟩ := List.getLast?_eq_some_iff.mp hlast
        have hnd := hg.ranking_nodup j port
        rw [hfront] at hnd ⊢
        have hnot : b ∉ front := fun hm => (List.nodup_append.mp hnd).2.2 b hm b (by simp) rfl
        rw [List.erase_append_right _ hnot]
        simp [hc]
      · rw [List.erase_of_not_mem fun hm => hc (mem_ranking.mp hm).2]
        simp [hc]
    · rw [update_of_ne hj]
      rfl
  refine h.restrict hg (fun j port => by rw [hrank]) fun _ _ _ _ _ _ hax => hax

/-- Stamping a binding that is last, or is no candidate. -/
theorem Ranked.stamp {now : Nat} (hg : g.Whole) (hF : F b) (hb : b ∈ g.lru)
    (hnow : ∀ x ∈ g.lru, (g.core x).lastSeenMs ≤ now) (h : Ranked F g) :
    Ranked F (g.stamp b now) := by
  have hne : ∀ {x}, x ≠ b → (g.stamp b now).core x = g.core x := fun hx => update_of_ne hx _ _
  have hself : (g.stamp b now).core b = { g.core b with lastSeenMs := now } := update_self _ _ _
  have hrank : ∀ j port, (g.stamp b now).ranking j port = g.ranking j port := by
    intro j port
    refine List.filter_congr fun x _ => ?_
    rcases eq_or_ne x b with rfl | hx
    · rw [hself]
      rfl
    · rw [hne hx]
  refine ⟨fun j port => ?_, fun j port x hx hmem => ?_⟩
  · rw [hrank]
    have hnd := hg.ranking_nodup j port
    -- the stamped binding is only ever the later one of a pair
    have hlater : ∀ {a x}, [a, x].Sublist (g.ranking j port) → a ≠ b := by
      rintro a x hsub rfl
      have hmem : a ∈ g.ranking j port := hsub.subset List.mem_cons_self
      have hlast := h.hand j port a hF hmem
      have hshort := getLast?_of_sublist hsub hnd hlast List.mem_cons_self
      have hxa : x = a := by simpa using hshort
      subst hxa
      have := hsub.nodup hnd
      simp at this
    refine (List.pairwise_iff_forall_sublist.mpr fun {a x} hsub => ?_)
    have hax := List.pairwise_iff_forall_sublist.mp (h.order j port) hsub
    have ha := hlater hsub
    rcases eq_or_ne x b with rfl | hx
    · have hle := hnow a (hg.mem_olru.mp (mem_ranking.mp (hsub.subset List.mem_cons_self)).1).1
      have hold := hnow x hb
      simp only [Outdone, hne ha, hself] at hax ⊢
      rcases Nat.lt_or_eq_of_le hle with hlt | heq
      · exact .inl hlt
      · rcases hax with hlt | ⟨-, hsub'⟩
        · omega
        · exact .inr ⟨heq, hsub'⟩
    · exact Outdone.congr (g := g) (by rw [hne ha]) (by rw [hne hx]) rfl hax
  · rw [hrank] at hmem ⊢
    exact h.hand j port x hx hmem

theorem orderly_ranked : Orderly Ranked where
  congr hg hc h := h.congr hg hc
  fewer hF h := h.fewer hF
  welcome hb h := h.welcome hb
  drop hg _ _ h := h.drop hg _ _
  add hg hb _ _ hseen hF h := h.add hg hb hseen hF
  touch hg hF hb ho h := h.touch hg hF ho hb
  stamp hg hF hb hnow h := h.stamp hg hF hb hnow

/-! ## The table -/

/-- The binding that is last on the LRU of session `k` among its used ones with this port that a
client datagram made or refreshed with a token. -/
def lastToken (s : State) (k : Nat) (port : UInt16) : Option Nat :=
  ((s.bind.ownedLruList k).filter fun b => isCandidate port (s.bind.core b)).getLast?

theorem lastToken_eq (hg : g.Of s.bind) (k : Nat) (port : UInt16) :
    lastToken s k port = (g.ranking k port).getLast? := by
  rw [lastToken, hg.inv.ownedLruList_eq, ranking, hg.core]

/-- The code's scan finds what is last. -/
theorem bindingFindByDomainPort_eq (hg : g.Of s.bind) (h : Ranked F g) (k : Nat) (port : UInt16) :
    bindingFindByDomainPort s k port = (g.ranking k port).getLast? := by
  set cand := fun b => isCandidate port (s.bind.core b) with hcand
  have hscan : bindingFindByDomainPort s k port =
      ((s.bind.owned k).filter cand).argmax fun b => (s.bind.core b).lastSeenMs := by
    rw [List.argmax, List.foldl_filter, bindingFindByDomainPort]
    congr 1
    funext best b
    show (if isCandidate port (s.bind.core b) then _ else _) = if isCandidate port (s.bind.core b)
      then _ else _
    split
    · cases best <;> rfl
    · rfl
  have hmem : ∀ b, b ∈ (s.bind.owned k).filter cand ↔ b ∈ g.ranking k port := by
    intro b
    rw [List.mem_filter, mem_ranking, hg.core, ← hg.owned, hg.whole.mem_owned]
  rw [hscan]
  rcases hlast : (g.ranking k port).getLast? with _ | b
  · rw [List.argmax_eq_none, List.eq_nil_iff_forall_not_mem]
    intro b hb
    rw [List.getLast?_eq_none_iff] at hlast
    rw [hmem, hlast] at hb
    exact absurd hb List.not_mem_nil
  · obtain ⟨front, hfront⟩ := List.getLast?_eq_some_iff.mp hlast
    have horder := h.order k port
    rw [hfront, List.pairwise_append] at horder
    have hbest : ∀ a ∈ (s.bind.owned k).filter cand, a ≠ b → g.Outdone k a b := by
      intro a ha hab
      rw [hmem, hfront, List.mem_append, List.mem_singleton] at ha
      exact horder.2.2 a (ha.resolve_right hab) b (List.mem_singleton_self b)
    rw [← Option.mem_def, List.mem_argmax_iff]
    refine ⟨(hmem b).mpr (by rw [hfront]; simp), fun a ha => ?_, fun a ha hle => ?_⟩
    · rcases eq_or_ne a b with rfl | hab
      · exact Nat.le_refl _
      · have := hbest a ha hab
        rw [Outdone, hg.core] at this
        omega
    · rcases eq_or_ne a b with rfl | hab
      · exact Nat.le_refl _
      · -- a tie: the last one stands in front
        rcases hbest a ha hab with hlt | ⟨-, hsub⟩
        · rw [hg.core] at hlt
          omega
        · have hsub' := hsub.filter cand
          rw [hg.owned] at hsub'
          have hb' := (List.mem_filter.mp ((hmem b).mpr (by rw [hfront]; simp))).2
          have ha' := (List.mem_filter.mp ha).2
          rw [List.filter_cons_of_pos hb', List.filter_cons_of_pos ha', List.filter_nil] at hsub'
          exact Nat.le_of_lt (idxOf_lt_of_sublist hsub' ((hg.inv.owned_nodup k).filter cand))

/-! ## When the orders agree -/

/-- If binding `b` is a candidate, it is the last one of its session for its port. -/
def isLatest (s : State) (b : Nat) : Bool :=
  let c := s.bind.core b
  !bindingHasToken c || c.owner.all fun k => lastToken s k c.originalDst.port == some b

theorem isLatest_last (hg : g.Of s.bind) (h : isLatest s b = true) (hb : b ∈ g.ranking k port) :
    (g.ranking k port).getLast? = some b := by
  obtain ⟨hmem, hc⟩ := mem_ranking.mp hb
  have ho := (hg.whole.mem_olru.mp hmem).2
  rw [hg.core] at hc ho
  simp only [isCandidate, Bool.and_eq_true, decide_eq_true_eq] at hc
  simp only [isLatest, hc.2, ho, hc.1.2, Bool.not_true, Bool.false_or, Option.all_some,
    beq_iff_eq] at h
  rw [← lastToken_eq hg, h]

theorem joins_ranked (h : isLatest s b = true) : Joins Ranked F b s := by
  intro g hg hr
  refine ⟨hr.order, fun k port x hx hmem => ?_⟩
  rcases hx with hx | rfl
  · exact hr.hand k port x hx hmem
  · exact isLatest_last hg h hmem

/-- The datagram leaves its binding last in both orders: other candidates were seen before the batch
was received, or in the same millisecond and stand behind it; and a binding that had no token gets
one only together with a new stamp. -/
def refreshKeeps (s : State) (k b : Nat) (p : ClientPacket) : Bool :=
  let c := s.bind.core b
  !bindingHasToken { c with tokenAddr := refreshedToken c p } ||
    (bindingHasToken c || !needsReplySocket p || c.replyFd.isSome) &&
      (s.bind.owned k).all fun a =>
        a == b || !isCandidate c.originalDst.port (s.bind.core a) ||
          decide ((s.bind.core a).lastSeenMs < s.frame.nowMs) ||
          (s.bind.core a).lastSeenMs == s.frame.nowMs && [b, a].isSublist (s.bind.owned k)

/-- Removing a binding from the candidates, and perhaps putting it last. -/
theorem Ranked.renew (hg : g.Whole) (hb : b ∈ g.lru) (ho : (g.core b).owner = some k)
    (hlast : ∀ port, isCandidate port c = true → ∀ a ∈ g.ranking k port, a ≠ b →
      (g.core a).lastSeenMs < c.lastSeenMs ∨
        (g.core a).lastSeenMs = c.lastSeenMs ∧ [b, a].Sublist (g.owned k))
    (h : Ranked Nobody g) : Ranked Nobody ((g.write b c).touch k b) := by
  have hne : ∀ {x}, x ≠ b → ((g.write b c).touch k b).core x = g.core x := fun hx =>
    update_of_ne hx _ _
  have hself : ((g.write b c).touch k b).core b = c := update_self _ _ _
  have hothers : ∀ {j : Nat} {xs : List Nat} {port : UInt16}, b ∉ xs →
      (xs.filter fun x => isCandidate port (((g.write b c).touch k b).core x)) =
        xs.filter fun x => isCandidate port (g.core x) := fun hnot =>
    List.filter_congr fun x hx => by rw [hne fun e => hnot (e ▸ hx)]
  refine ⟨fun j port => ?_, fun _ _ _ hF => hF.elim⟩
  have hkeep : ∀ {xs : List Nat}, xs.Sublist (g.ranking j port) → b ∉ xs →
      xs.Pairwise (((g.write b c).touch k b).Outdone j) := by
    intro xs hsub hnot
    refine ((h.order j port).sublist hsub).imp_of_mem fun ha hx hax => ?_
    exact Outdone.congr (g := g) (by rw [hne fun e => hnot (e ▸ ha)])
      (by rw [hne fun e => hnot (e ▸ hx)]) rfl hax
  rcases eq_or_ne j k with rfl | hj
  · have hnot : b ∉ (g.olru j).erase b := (hg.olru_nodup j).not_mem_erase
    have hrank : ((g.write b c).touch j b).ranking j port =
        ((g.olru j).erase b).filter (fun x => isCandidate port (g.core x)) ++
          if isCandidate port c then [b] else [] := by
      show (update g.olru j ((g.olru j).erase b ++ [b]) j).filter _ = _
      rw [update_self, List.filter_append, hothers (j := j) hnot, List.filter_singleton, hself]
      cases isCandidate port c <;> rfl
    have hsub : (((g.olru j).erase b).filter fun x => isCandidate port (g.core x)).Sublist
        (g.ranking j port) := List.erase_sublist.filter _
    have hnot' : b ∉ ((g.olru j).erase b).filter fun x => isCandidate port (g.core x) :=
      fun hm => hnot (List.mem_filter.mp hm).1
    rw [hrank]
    refine List.pairwise_append.mpr ⟨hkeep hsub hnot', by split <;> simp, fun a ha x hx => ?_⟩
    split at hx
    · rename_i hc
      obtain rfl := List.mem_singleton.mp hx
      have hab : a ≠ x := fun e => hnot' (e ▸ ha)
      have hax := hlast port hc a (hsub.subset ha) hab
      show (((g.write x c).touch j x).core a).lastSeenMs < (((g.write x c).touch j x).core x).lastSeenMs ∨
        (((g.write x c).touch j x).core a).lastSeenMs =
          (((g.write x c).touch j x).core x).lastSeenMs ∧ [x, a].Sublist (g.owned j)
      rw [hne hab, hself]
      exact hax
    · exact absurd hx List.not_mem_nil
  · -- the binding is on no other session's LRU
    have hnot : b ∉ g.olru j := fun hm =>
      hj (Option.some.inj ((hg.mem_olru.mp hm).2.symm.trans ho))
    have hrank : ((g.write b c).touch k b).ranking j port = g.ranking j port := by
      show (update g.olru k ((g.olru k).erase b ++ [b]) j).filter _ = _
      rw [update_of_ne hj, hothers (j := j) hnot]
      rfl
    rw [hrank]
    exact hkeep (List.Sublist.refl _) fun hm => hnot (mem_ranking.mp hm).1

/-- A binding that does not become a candidate, rewritten where it stands. -/
theorem Ranked.rewrite (hg : g.Whole) (hseen : c.lastSeenMs = (g.core b).lastSeenMs)
    (hc : ∀ port, isCandidate port c = true → isCandidate port (g.core b) = true)
    (h : Ranked F g) : Ranked F (g.write b c) := by
  have hself : (g.write b c).core b = c := update_self _ _ _
  have hne : ∀ {x}, x ≠ b → (g.write b c).core x = g.core x := fun hx => update_of_ne hx _ _
  have hsame : ∀ x, ((g.write b c).core x).lastSeenMs = (g.core x).lastSeenMs := by
    intro x
    rcases eq_or_ne x b with rfl | hx
    · rw [hself, hseen]
    · rw [hne hx]
  refine h.restrict hg (fun k port => List.monotone_filter_right _ fun x hx => ?_)
    fun k port a x _ _ hax => Outdone.congr (g := g) (hsame a) (hsame x) rfl hax
  rcases eq_or_ne x b with rfl | hxb
  · exact hc port (by rwa [hself] at hx)
  · rwa [hne hxb] at hx

theorem refreshes_ranked {p : ClientPacket} (hok : refreshKeeps s k b p = true)
    (hu : (s.bind.core b).used = true) (ho : (s.bind.core b).owner = some k) :
    Refreshes Ranked Nobody k b p s := by
  set c₀ := s.bind.core b with hc₀
  have hok' : bindingHasToken { c₀ with tokenAddr := refreshedToken c₀ p } = true →
      (bindingHasToken c₀ || !needsReplySocket p || c₀.replyFd.isSome) = true ∧
      ∀ a ∈ s.bind.owned k, a ≠ b → isCandidate c₀.originalDst.port (s.bind.core a) = true →
        (s.bind.core a).lastSeenMs < s.frame.nowMs ∨
          (s.bind.core a).lastSeenMs = s.frame.nowMs ∧ [b, a].Sublist (s.bind.owned k) := by
    intro ht
    simp only [refreshKeeps, ← hc₀, ht, Bool.not_true, Bool.false_or, Bool.and_eq_true,
      List.all_eq_true] at hok
    refine ⟨hok.1, fun a ha hab hcand => ?_⟩
    have := hok.2 a ha
    simpa [hab, hcand] using this
  refine ⟨fun {g c} hg hr hc => ?_, fun {g c} hg hr hneeds hfd hc => ?_⟩
  · have hb : b ∈ g.lru := hg.used.mpr hu
    refine Ranked.renew hg.whole hb (by rw [hg.core]; exact ho) (fun port hcand a ha hab => ?_) hr
    -- the token decides, and the port is the binding's own
    have htoken : bindingHasToken { c₀ with tokenAddr := refreshedToken c₀ p } = true := by
      simp only [isCandidate, Bool.and_eq_true] at hcand
      simpa only [bindingHasToken, hc.token] using hcand.2
    have hport : c₀.originalDst.port = port := by
      simp only [isCandidate, Bool.and_eq_true, decide_eq_true_eq, hc.dst] at hcand
      exact hcand.1.2
    obtain ⟨hmem, hca⟩ := mem_ranking.mp ha
    rw [hg.core] at hca
    have hmem' : a ∈ s.bind.owned k := hg.owned ▸ hg.whole.mem_owned.mpr hmem
    have := (hok' htoken).2 a hmem' hab (by rw [hport]; exact hca)
    rw [hg.core, hg.owned, hc.seen]
    exact this
  · refine Ranked.rewrite hg.whole ?_ (fun port hcand => ?_) hr
    · rw [hg.core]
      exact hc.seen
    · simp only [isCandidate, Bool.and_eq_true, decide_eq_true_eq, bindingHasToken, hc.used, hc.dst,
        hc.token] at hcand
      obtain ⟨⟨-, hport⟩, htoken⟩ := hcand
      have hold := (hok' htoken).1
      rw [hneeds, hfd] at hold
      simp only [Bool.not_true, Option.isSome_none, Bool.or_false] at hold
      rw [hg.core, isCandidate, ← hc₀, hu, hold, decide_eq_true hport]
      rfl

/-- The next step keeps the two orders together: a datagram refreshes its binding so that it is last
in both; a reply from an address, and a queue that is flushed, are for bindings that are last. -/
def keepsOrder : Loc → State → Bool
  | .clientSession p (some k), s =>
      match s.bind.indexFind k p.originalDst with
      | none => true
      | some b => refreshKeeps s k b p
  | .upstream, s =>
      sparesBatch .upstream s &&
        match s.frame.messages with
        | [] => true
        | m :: _ =>
            m.error.isSome || m.addr.family = .unspec ||
              (s.bind.indexFind s.frame.session m.addr).all (isLatest s)
  | .dispatch, s =>
      match s.flushes with
      | none => true
      | some (k, id) =>
          (s.down k).channels.all fun ch => ch.id != id || ch.queue.all fun p => isLatest s p.binding
  | _, _ => true

/-- A reply from a domain goes through a binding that is last. -/
theorem joins_domain (hfind : bindingFindByDomainPort s k port = some b) : Joins Ranked F b s := by
  intro g hg hr
  have hlast := (bindingFindByDomainPort_eq hg hr k port).symm.trans hfind
  obtain ⟨hmem, hc⟩ := mem_ranking.mp (List.mem_of_getLast? hlast)
  refine ⟨hr.order, fun j port' x hx hx' => ?_⟩
  rcases hx with hx | rfl
  · exact hr.hand j port' x hx hx'
  · obtain ⟨hmem', hc'⟩ := mem_ranking.mp hx'
    have hj : j = k := Option.some.inj
      ((hg.whole.mem_olru.mp hmem').2.symm.trans (hg.whole.mem_olru.mp hmem).2)
    have hport : port' = port := by
      simp only [isCandidate, Bool.and_eq_true, decide_eq_true_eq] at hc hc'
      exact hc'.1.2.symm.trans hc.1.2
    rw [hj, hport]
    exact hlast

theorem meets_ranked (hc : keepsOrder l s = true) (hb : Booked Ranked s) : Meets Ranked l s := by
  refine ⟨fun p k b hl hfind => ?_, fun m rest hl hm => ⟨fun he hf b hfind => ?_,
    fun he hf hi b hat => ?_, fun _ _ b hfind => joins_domain hfind⟩, fun k id hl hf g hg hr => ?_⟩
  · subst hl
    obtain ⟨g, hg, -⟩ := hb.accounts.ledger
    obtain ⟨hmem, ho, -⟩ := hg.inv.indexFind_some.mp hfind
    simp only [keepsOrder, hfind] at hc
    exact refreshes_ranked hc (hg.used.mp hmem) ho
  · subst hl
    simp only [keepsOrder, Bool.and_eq_true, hm, he, hf, hfind, Option.isSome_none, decide_false,
      Bool.or_false, Bool.false_or, Option.all_some] at hc
    exact joins_ranked hc.2
  · subst hl
    simp only [keepsOrder, Bool.and_eq_true] at hc
    exact sparesBatch_spare hc.1 hm he hf hi hat
  · subst hl
    simp only [keepsOrder, hf, List.all_eq_true, Bool.or_eq_true, bne_iff_ne, ne_eq] at hc
    refine ⟨hr.order, fun j port b ⟨ch, hch, hid, p, hp, hpb⟩ hmem => ?_⟩
    have hlatest := (hc ch hch).resolve_left (not_not_intro hid)
    exact isLatest_last hg (hpb ▸ hlatest p hp) hmem

/-! ## Runs -/

/-- In every run whose steps keep the two orders together, the binding a reply from a domain goes
through is the one last on the session's LRU among those of its port, and there is none only if the
session has no such binding. -/
theorem domain_reply_binding (hclock : Clock True A)
    (h : Reach A (fun l s => keepsOrder l s = true) cfg l s) (k : Nat) (port : UInt16) :
    bindingFindByDomainPort s k port = lastToken s k port ∧
      (bindingFindByDomainPort s k port = none ↔
        ∀ b, (s.bind.core b).owner = some k → isCandidate port (s.bind.core b) = false) := by
  have hinit : ∀ g : Ledger, g.lru = [] → g.olru = (fun _ => []) → Ranked Nobody g := by
    intro g _ holru
    refine ⟨fun k port => ?_, fun _ _ _ hF => hF.elim⟩
    rw [ranking, holru]
    exact List.Pairwise.nil
  obtain ⟨⟨⟨g, hg, hr⟩, -⟩, -⟩ := h.booked orderly_ranked hclock hinit
    fun l s hc hb _ => meets_ranked hc hb
  have hfind := bindingFindByDomainPort_eq hg hr k port
  refine ⟨hfind.trans (lastToken_eq hg k port).symm, ?_⟩
  rw [hfind, List.getLast?_eq_none_iff, List.eq_nil_iff_forall_not_mem]
  refine forall_congr' fun b => ?_
  rw [mem_ranking, hg.whole.mem_olru, hg.used, hg.core]
  refine ⟨fun hnot ho => Bool.eq_false_iff.mpr fun hc => hnot ⟨⟨?_, ho⟩, hc⟩, fun hnot ⟨⟨_, ho⟩, hc⟩ => ?_⟩
  · simp only [isCandidate, Bool.and_eq_true] at hc
    exact hc.1.1
  · rw [hnot ho] at hc
    cases hc

/-- The token 198.18.0.1 stands for 1.2.3.4:80, and every other one for 5.6.7.8:80. -/
def twoTokens : (q : Sys) → q.Ans
  | .tokenLookup p _ _ =>
      (some ⟨.fullClient, true, some ⟨.inet, 80,
        if p.tokenAddr.take 4 = [198, 18, 0, 1] then [1, 2, 3, 4] else [5, 6, 7, 8]⟩⟩ :
        Option TokenEntry)
  | q => calm q

/-- A datagram of `clientA` to token 198.18.0.`x`. -/
def toToken (x : UInt8) : ClientDatagram := ⟨clientA, [1], false, [.pktinfo4 [198, 18, 0, x]]⟩

/-- A batch of datagrams to these tokens, and some steps. -/
def tokenMoves (xs : List UInt8) (n : Nat) : List Move :=
  [.wake [(.listener4, .input)], .run (receiving (xs.map toToken))] ++
    List.replicate n (.run twoTokens)

/-- A run in which one session has a binding for each of two destinations of one port. -/
theorem domain_reply_binding_run :
    ∃ l s, Reach (fun s q r => okForward s q r = true) (fun l s => keepsOrder l s = true)
      calmConfig l s ∧ (s.bind.count == 2) = true ∧
      (bindingFindByDomainPort s 0 80 = lastToken s 0 80 ∧
        (bindingFindByDomainPort s 0 80 = none ↔
          ∀ b, (s.bind.core b).owner = some 0 → isCandidate 80 (s.bind.core b) = false)) := by
  obtain ⟨l, s, h, hc⟩ := exists_reach (B := okForward) (E := keepsOrder)
    (A := fun s q r => okForward s q r = true) (C := fun l s => keepsOrder l s = true)
    (g := calmConfig) (fun _ _ _ h => h) (fun _ _ h => h) (tokenMoves [1, 2] 4)
    (fun _ s => s.bind.count == 2) (by decide +kernel)
  exact ⟨l, s, h, hc, domain_reply_binding clock_okForward h 0 80⟩

/-- One batch has datagrams to 1.2.3.4:80, to 5.6.7.8:80 and to 1.2.3.4:80 again.  The binding of
1.2.3.4 is last on the LRU; a reply from a domain with port 80 goes through that of 5.6.7.8. -/
theorem domain_reply_binding_tie :
    ∃ l s, Reach (fun s q r => okForward s q r = true) (fun _ _ => True) calmConfig l s ∧
      ((lastToken s 0 80).map fun b => (s.bind.core b).originalDst.addr) = some [1, 2, 3, 4] ∧
      ((bindingFindByDomainPort s 0 80).map fun b => (s.bind.core b).originalDst.addr) =
        some [5, 6, 7, 8] ∧
      bindingFindByDomainPort s 0 80 ≠ lastToken s 0 80 := by
  obtain ⟨l, s, h, hc⟩ := exists_reach (B := okForward) (E := fun _ _ => true)
    (A := fun s q r => okForward s q r = true) (C := fun _ _ => True)
    (g := calmConfig) (fun _ _ _ h => h) (fun _ _ _ => trivial) (tokenMoves [1, 2, 1] 6)
    (fun _ s => ((lastToken s 0 80).map fun b => (s.bind.core b).originalDst.addr) ==
        some [1, 2, 3, 4] &&
      ((bindingFindByDomainPort s 0 80).map fun b => (s.bind.core b).originalDst.addr) ==
        some [5, 6, 7, 8]) (by decide +kernel)
  simp only [Bool.and_eq_true, beq_iff_eq] at hc
  refine ⟨l, s, h, hc.1, hc.2, fun heq => ?_⟩
  have hboth := hc.2
  rw [heq, hc.1] at hboth
  simp at hboth

end Bpf2Socks.Udp

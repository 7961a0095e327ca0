/-
# Bpf2Socks.Token.Bridge — the sessions of the token machine are those of a UDP worker.

The token machine keeps of a session its client, its lookup mode and, of each binding, what that
remembers of its token.  `sessionOf` reads these off the tables of a UDP worker, and `Shows` says
that a worker of the machine has the sessions `bpf2socks_udp_session_find` finds there.

The last part of a client datagram's round finds its session, and finds or makes a binding.  On a
session that is there it is a run of the machine: one `settle`, whose outcome is the one the code
came to, and one `unbind` if making room evicted a binding.  The same relation gives the machine's
lookup preference and the binding `bpf2socks_udp_token_recover_connected` finds.
-/
import Bpf2Socks.Token.Machine
import Bpf2Socks.Udp.BindingRuns

namespace Bpf2Socks.Token

open Function (update update_self update_of_ne)
open Lib (Prog Act)
open Lib.Prog Lib.Act
open Udp (DstAddr LookupMode Sockaddr ClientPacket sameSockaddr noToken tokenLength Accounts
  Sessions Ledger Nobody Anything orderly_anything)

variable {A : Udp.State → (q : Udp.Sys) → q.Ans → Prop} {s s' t : Udp.State} {g : Ledger}
  {k b : Nat} {p : ClientPacket} {q : Packet}

/-! ## Destinations and tokens -/

/-- A destination with the bytes of its address that count. -/
def shortDst (d : DstAddr) : DstAddr := { d with addr := d.addr.take (Udp.addressLength d) }

/-- `same_key` compares destinations by these bytes. -/
theorem sameDst_iff_shortDst {a b : DstAddr} :
    Udp.sameDst a b = true ↔ shortDst a = shortDst b := by
  rw [Udp.sameDst_iff]
  constructor
  · rintro ⟨hf, hp, ha⟩
    show DstAddr.mk a.family a.port _ = DstAddr.mk b.family b.port _
    rw [Udp.addressLength_congr hf, hf, hp, ha]
  · intro h
    simp only [shortDst, DstAddr.mk.injEq] at h
    obtain ⟨hf, hp, ha⟩ := h
    rw [Udp.addressLength_congr hf] at ha
    exact ⟨hf, hp, ha⟩

/-- The bytes of a token from the `n`-th on are zero. -/
def Padded (n : Nat) (token : List UInt8) : Prop := token.drop n = noToken.drop n

/-- Copying the bytes that count over a padded token copies the token. -/
theorem copyBytes_padded {n : Nat} {old token : List UInt8} (ho : Padded n old)
    (ht : Padded n token) : Udp.copyBytes old token n = token := by
  unfold Udp.copyBytes
  rw [ho, ← ht, List.take_append_drop]

theorem take_beq_padded {n : Nat} {old token : List UInt8} (ho : Padded n old)
    (ht : Padded n token) : (old.take n == token.take n) = (old == token) := by
  rw [Bool.eq_iff_iff, beq_iff_eq, beq_iff_eq]
  constructor
  · intro h
    rw [← List.take_append_drop n old, ← List.take_append_drop n token, h, ho, ht]
  · rintro rfl
    rfl

/-! ## What the machine sees of a worker -/

/-- What the machine keeps of a binding. -/
def bindingOf (c : Udp.Binding) : Binding where
  originalDst := shortDst c.originalDst
  tokenAddr := c.tokenAddr
  connectedUdpToken := c.connectedUdpToken

/-- What the machine keeps of the session in slot `k`. -/
def sessionOf (s : Udp.State) (k : Nat) : Session where
  client := (s.tbl.core k).clientAddr
  tokenLookupMode := (s.tbl.core k).tokenLookupMode
  bindings := (s.bind.owned k).map fun b => bindingOf (s.bind.core b)

/-- What became known of a client datagram. -/
def resolvedOf (p : ClientPacket) : Resolved where
  originalDst := shortDst p.originalDst
  connectedUdpToken := p.connectedUdpToken
  mode := p.tokenLookupMode

/-- The machine's datagram `q` is client datagram `p`. -/
structure Carries (q : Packet) (p : ClientPacket) : Prop where
  client : q.client = p.clientAddr
  tokenAddr : q.tokenAddr = p.tokenAddr

/-- From `s` to `s'` the machine sees no difference. -/
structure Unseen (s s' : Udp.State) : Prop where
  find : s'.tbl.find = s.tbl.find
  session : sessionOf s' = sessionOf s

instance : IsPreorder Udp.State Unseen where
  refl _ := ⟨rfl, rfl⟩
  trans _ _ _ h h' := ⟨h'.find.trans h.find, h'.session.trans h.session⟩

/-- Tables with the same keys find the same sessions. -/
theorem find_congr {t t' : Udp.SessTable} (hb : t'.buckets = t.buckets)
    (hused : ∀ k, (t'.core k).used = (t.core k).used)
    (haddr : ∀ k, (t'.core k).clientAddr = (t.core k).clientAddr) : t'.find = t.find := by
  funext client
  unfold Udp.SessTable.find
  simp only [hb, hused, haddr]

theorem unseen_of_like (h : Udp.Like s s') : Unseen s s' := by
  obtain ⟨n, rfl, -⟩ := h
  exact ⟨rfl, rfl⟩

theorem unseen_seenSession (s : Udp.State) (j now : Nat) : Unseen s (Udp.seenSession s j now) := by
  have hkeep : ∀ {β : Type} (π : Udp.SessCore → β),
      (∀ c : Udp.SessCore, π { c with lastSeenMs := now } = π c) →
      ∀ i, π ((Udp.seenSession s j now).tbl.core i) = π (s.tbl.core i) := fun π hπ =>
    Udp.update_field (π := π) (hπ _)
  refine ⟨find_congr rfl (hkeep Udp.SessCore.used fun _ => rfl)
    (hkeep Udp.SessCore.clientAddr fun _ => rfl), funext fun i => ?_⟩
  show Session.mk _ _ _ = Session.mk _ _ _
  rw [hkeep Udp.SessCore.clientAddr (fun _ => rfl) i,
    hkeep Udp.SessCore.tokenLookupMode (fun _ => rfl) i]
  rfl

theorem seeing_unseen : Udp.Seeing A k Unseen where
  like := unseen_of_like
  seen s now _ := unseen_seenSession s k now

/-- Passing the datagram on concerns no token. -/
theorem unseen_clientForward (k : Nat) (p : ClientPacket) :
    Keeps A Unseen (Udp.clientForward k p) := by
  refine keeps_get.bind fun s => keeps_ite ?_ (keeps_modify fun s => ⟨rfl, rfl⟩)
  refine (Udp.keeps_sessionQueuePending seeing_unseen _ _ _).bind fun r => ?_
  rcases r with e | _
  · cases e <;> exact seeing_unseen.quiet (k := k) (Udp.quiet_count _ _)
  · exact keeps_pure ()

/-! ## Refreshing a binding -/

/-- The record of a session whose bindings alone changed. -/
theorem sessionOf_of {l : List Binding} (hc : s'.tbl.core k = s.tbl.core k)
    (hl : (s'.bind.owned k).map (fun b => bindingOf (s'.bind.core b)) = l) :
    sessionOf s' k = { sessionOf s k with bindings := l } := by
  show Session.mk _ _ _ = Session.mk _ _ _
  rw [hc, hl]
  rfl

/-- A session whose bindings are as they were. -/
theorem sessionOf_same (hc : s'.tbl.core k = s.tbl.core k)
    (ho : s'.bind.owned k = s.bind.owned k)
    (hb : ∀ y ∈ s.bind.owned k, s'.bind.core y = s.bind.core y) :
    sessionOf s' k = sessionOf s k := by
  refine sessionOf_of hc ?_
  rw [ho]
  exact List.map_congr_left fun y hy => by rw [hb y hy]

/-- The index finds the one binding of the session with the destination. -/
theorem dst_iff_of_find (hg : g.Of s.bind) {dst : DstAddr}
    (hf : s.bind.indexFind k dst = some b) {y : Nat} (hy : y ∈ s.bind.owned k) :
    shortDst (s.bind.core y).originalDst = shortDst dst ↔ y = b := by
  obtain ⟨hb, ho, hd⟩ := hg.inv.indexFind_some.mp hf
  obtain ⟨hyl, hyo⟩ := hg.inv.mem_owned.mp hy
  rw [sameDst_iff_shortDst] at hd
  constructor
  · intro h
    exact hg.inv.unique hyl hb (hyo.trans ho.symm) (sameDst_iff_shortDst.mpr (h.trans hd.symm))
  · rintro rfl
    exact hd

theorem dst_ne_of_not_find (hg : g.Of s.bind) {dst : DstAddr}
    (hf : s.bind.indexFind k dst = none) :
    ∀ c ∈ (sessionOf s k).bindings, c.originalDst ≠ shortDst dst := by
  intro c hc h
  obtain ⟨y, hy, rfl⟩ := List.mem_map.mp hc
  obtain ⟨hyl, hyo⟩ := hg.inv.mem_owned.mp hy
  have hd := hg.inv.of_indexFind_none hf hyl hyo
  rw [sameDst_iff_shortDst.mpr h] at hd
  cases hd

/-- A refreshed binding is settled; one that lacks its reply socket is left unanswered. -/
theorem refreshed_settles (hg : g.Of s.bind) (hq : Carries q p)
    (hf : s.bind.indexFind k p.originalDst = some b)
    (hold : Padded (tokenLength p) (s.bind.core b).tokenAddr)
    (hpad : Padded (tokenLength p) p.tokenAddr) {good : Bool}
    (h : Udp.Refreshed b p s s' good) (hbeside : Udp.Beside s s') :
    sessionOf s' = update (sessionOf s) k
      ((sessionOf s k).settle q (resolvedOf p) (if good then .bound else .unanswered)) := by
  obtain ⟨hb, ho, hd⟩ := hg.inv.indexFind_some.mp hf
  have hmem : b ∈ s.bind.owned k := hg.inv.mem_owned.mpr ⟨hb, ho⟩
  obtain ⟨c, hcore, hcd, hct, hcc⟩ := h.core
  have htbl : ∀ j, s'.tbl.core j = s.tbl.core j := fun j => by rw [hbeside.tbl]
  have htoken : c.tokenAddr = q.tokenAddr := by
    rw [hct, hq.tokenAddr]
    exact copyBytes_padded hold hpad
  have hdst : shortDst c.originalDst = (resolvedOf p).originalDst := by
    rw [hcd]
    exact sameDst_iff_shortDst.mp hd
  funext j
  rcases eq_or_ne j k with rfl | hj
  · rw [update_self]
    -- of the session's bindings, only `b` has the destination
    have hmap : ∀ f : Binding → Binding,
        (∀ e, e.originalDst ≠ (resolvedOf p).originalDst → f e = e) →
        f (bindingOf (s.bind.core b)) = bindingOf c →
        (s'.bind.owned j).map (fun y => bindingOf (s'.bind.core y)) =
          (sessionOf s j).bindings.map f := by
      intro f hother hthis
      show _ = ((s.bind.owned j).map fun y => bindingOf (s.bind.core y)).map f
      rw [h.owned, List.map_map]
      refine List.map_congr_left fun y hy => ?_
      rw [hcore]
      rcases eq_or_ne y b with rfl | hy'
      · rw [update_self]
        exact hthis.symm
      · rw [update_of_ne hy']
        exact (hother _ fun he => hy' ((dst_iff_of_find hg hf hy).mp he)).symm
    have hold' : (bindingOf (s.bind.core b)).originalDst = (resolvedOf p).originalDst :=
      sameDst_iff_shortDst.mp hd
    cases good with
    | true =>
        have hany : ((sessionOf s j).bindings.any fun e =>
            e.originalDst = (resolvedOf p).originalDst) = true :=
          List.any_eq_true.mpr ⟨_, List.mem_map_of_mem hmem, by simpa using hold'⟩
        show _ = (sessionOf s j).bind q (resolvedOf p)
        unfold Session.bind
        rw [if_pos hany]
        refine sessionOf_of (htbl j) (hmap _ (fun e he => if_neg he) ?_)
        rw [if_pos hold']
        show Binding.mk _ _ _ = Binding.mk _ _ _
        rw [hdst, htoken, hcc]
        rfl
    | false =>
        show _ = (sessionOf s j).retoken q (resolvedOf p)
        refine sessionOf_of (htbl j) (hmap _ (fun e he => if_neg he) ?_)
        rw [if_pos hold']
        show Binding.mk _ _ _ = Binding.mk _ _ _
        rw [hcd, htoken, hcc]
        rfl
  · rw [update_of_ne hj]
    refine sessionOf_same (htbl j) (by rw [h.owned]) fun y hy => ?_
    rw [hcore]
    refine update_of_ne ?_ _ _
    rintro rfl
    have hyo := (hg.inv.mem_owned.mp hy).2
    exact hj (Option.some.inj (hyo.symm.trans ho))

/-! ## Making a binding -/

/-- What `bpf2socks_udp_binding_create_for_packet` asks for. -/
def requestOf (p : ClientPacket) : Udp.BindingRequest where
  original := p.originalDst
  tokenAddr := p.tokenAddr
  tokenLen := tokenLength p
  connectedUdpToken := p.connectedUdpToken
  needsOriginalReplySocket := Udp.needsReplySocket p
  fullcone := false

/-- A session without a binding for the destination gets one at the head. -/
theorem Session.bind_new {e : Session} {r : Resolved}
    (hnew : ∀ c ∈ e.bindings, c.originalDst ≠ r.originalDst) :
    e.bind q r = { e with
      bindings := ⟨r.originalDst, q.tokenAddr, r.connectedUdpToken⟩ :: e.bindings } := by
  have hany : (e.bindings.any fun c => c.originalDst = r.originalDst) = false := by
    rw [List.any_eq_false]
    intro c hc
    simpa using hnew c hc
  unfold Session.bind
  simp only [hany, Bool.false_eq_true, if_false]

/-- A binding that was made is settled; if none can be had the session is as it was. -/
theorem created_settles (hg : g.Of s.bind) (hq : Carries q p)
    (hnew : ∀ c ∈ (sessionOf s k).bindings, c.originalDst ≠ shortDst p.originalDst)
    (hpad : Padded (tokenLength p) p.tokenAddr) {P : (Nat → Prop) → Ledger → Prop}
    {F : Nat → Prop} {r : Option Nat} (h : Udp.Created P F k (requestOf p) s s' r) :
    sessionOf s' = update (sessionOf s) k
      ((sessionOf s k).settle q (resolvedOf p) (if r.isSome then .bound else .unbound)) := by
  have htbl : ∀ j, s'.tbl.core j = s.tbl.core j := fun j => by rw [h.beside.tbl]
  have hkept : ∀ j, ∀ y ∈ s.bind.owned j, s'.bind.core y = s.bind.core y := fun j y hy =>
    h.kept y (hg.used.mp (hg.inv.mem_owned.mp hy).1)
  funext j
  rcases eq_or_ne j k with rfl | hj
  · rw [update_self]
    have hlist : s'.bind.owned j = r.toList ++ s.bind.owned j := by rw [h.owned, update_self]
    cases r with
    | none => exact sessionOf_same (htbl j) hlist (hkept j)
    | some b =>
        obtain ⟨-, -, hmet⟩ := h.made b rfl
        show _ = (sessionOf s j).bind q (resolvedOf p)
        rw [Session.bind_new hnew]
        refine sessionOf_of (htbl j) ?_
        rw [hlist]
        show bindingOf (s'.bind.core b) :: _ = _ :: _
        congr 1
        · show Binding.mk _ _ _ = Binding.mk _ _ _
          rw [hmet.dst, hmet.token, hmet.connected, hq.tokenAddr]
          congr 1
          exact copyBytes_padded rfl hpad
        · exact List.map_congr_left fun y hy => by rw [hkept j y hy]
  · rw [update_of_ne hj]
    exact sessionOf_same (htbl j) (by rw [h.owned, update_of_ne hj]) (hkept j)

/-! ## Making room -/

/-- A session without its binding for a destination. -/
def Session.without (e : Session) (d : DstAddr) : Session :=
  { e with bindings := e.bindings.filter fun b => !decide (b.originalDst = d) }

/-- Making room evicts nothing, or one binding of one session. -/
theorem shed_unbinds (hg : g.Of s.bind) (h : Udp.Shed s t) :
    sessionOf t = sessionOf s ∨ ∃ j, ∃ b ∈ s.bind.owned j, sessionOf t = update (sessionOf s) j
      ((sessionOf s j).without (shortDst (s.bind.core b).originalDst)) := by
  have htbl : ∀ j, t.tbl.core j = s.tbl.core j := fun j => by rw [h.beside.tbl]
  obtain hsame | ⟨j, b, hu, ho, -, hgone⟩ := h.bind
  · left
    exact funext fun i => sessionOf_same (htbl i) (by rw [hsame]) fun _ _ => by rw [hsame]
  · right
    have hb : b ∈ g.lru := hg.used.mpr hu
    refine ⟨j, b, hg.inv.mem_owned.mpr ⟨hb, ho⟩, funext fun i => ?_⟩
    have hcore : ∀ y, y ≠ b → t.bind.core y = s.bind.core y := fun y hy => by
      rw [hgone, Udp.BindTable.destroyed_core, if_neg hy]
    have howned : t.bind.owned = update s.bind.owned j ((s.bind.owned j).erase b) := by
      rw [hgone]
      exact Udp.BindTable.detach_owned s.bind j b
    rcases eq_or_ne i j with rfl | hi
    · rw [update_self]
      refine sessionOf_of (htbl i) ?_
      show _ = ((s.bind.owned i).map fun y => bindingOf (s.bind.core y)).filter _
      have hnodup := hg.inv.owned_nodup i
      rw [howned, update_self, hnodup.erase_eq_filter, List.filter_map]
      -- in one session a destination has one binding, so its name tells it apart
      have hfilter : (s.bind.owned i).filter (fun y => y != b) = (s.bind.owned i).filter
          ((fun e : Binding => !decide (e.originalDst = shortDst (s.bind.core b).originalDst)) ∘
            fun y => bindingOf (s.bind.core y)) := by
        refine List.filter_congr fun y hy => ?_
        obtain ⟨hyl, hyo⟩ := hg.inv.mem_owned.mp hy
        show (!(y == b)) = !decide (shortDst _ = shortDst _)
        congr 1
        rw [Bool.eq_iff_iff, beq_iff_eq, decide_eq_true_iff]
        constructor
        · rintro rfl
          rfl
        · intro hd
          exact hg.inv.unique hyl hb (hyo.trans ho.symm) (sameDst_iff_shortDst.mpr hd)
      rw [hfilter]
      refine List.map_congr_left fun y hy => ?_
      rw [← hfilter] at hy
      rw [hcore y (by simpa using (List.mem_filter.mp hy).2)]
    · rw [update_of_ne hi]
      refine sessionOf_same (htbl i) (by rw [howned, update_of_ne hi]) fun y hy => hcore y ?_
      rintro rfl
      have hyo := (hg.inv.mem_owned.mp hy).2
      exact hi (Option.some.inj (hyo.symm.trans ho))

/-- The table still stands for a ledger. -/
theorem shed_ledger (hg : g.Of s.bind) (h : Udp.Shed s t) : ∃ g' : Ledger, g'.Of t.bind := by
  obtain hsame | ⟨j, b, hu, ho, -, hgone⟩ := h.bind
  · exact ⟨g, hsame ▸ hg⟩
  · exact ⟨g.drop j b, hgone ▸ hg.drop (hg.used.mpr hu) ho⟩

/-- Losing another binding first or last makes no difference to one that is made. -/
theorem Session.settle_without {e : Session} {r : Resolved} {d : DstAddr} {o : Outcome}
    (ho : o = .bound ∨ o = .unbound) (hnew : ∀ c ∈ e.bindings, c.originalDst ≠ r.originalDst)
    (hd : d ≠ r.originalDst) : (e.without d).settle q r o = (e.settle q r o).without d := by
  obtain rfl | rfl := ho
  · have hnew' : ∀ c ∈ (e.without d).bindings, c.originalDst ≠ r.originalDst := fun c hc =>
      hnew c (List.mem_of_mem_filter hc)
    show (e.without d).bind q r = (e.bind q r).without d
    rw [Session.bind_new hnew, Session.bind_new hnew']
    simp [Session.without, hd.symm]
  · rfl

/-! ## The binding of a datagram -/

/-- What the sessions are after the binding of a datagram of session `k` was seen to: the session is
settled, and if making room evicted a binding that one is gone. -/
structure Settled (q : Packet) (p : ClientPacket) (k : Nat) (s s' : Udp.State) (o : Outcome) :
    Prop where
  find : s'.tbl.find = s.tbl.find
  needs : o = .unanswered → (resolvedOf p).needsOriginalReplySocket = true
  session : ∃ f, f = update (sessionOf s) k ((sessionOf s k).settle q (resolvedOf p) o) ∧
    (sessionOf s' = f ∨ ∃ j d, s.bind.owned j ≠ [] ∧ sessionOf s' = update f j ((f j).without d))

theorem Settled.unseen {o : Outcome} (h : Settled q p k s s' o) (hu : Unseen s' t) :
    Settled q p k s t o :=
  ⟨hu.find.trans h.find, h.needs, by rw [hu.session]; exact h.session⟩

/-- A binding is made for a datagram whose destination has none. -/
theorem settled_of_created (hg : g.Of s.bind) (hq : Carries q p)
    (hnew : ∀ c ∈ (sessionOf s k).bindings, c.originalDst ≠ shortDst p.originalDst)
    (hpad : Padded (tokenLength p) p.tokenAddr) {P : (Nat → Prop) → Ledger → Prop}
    {F : Nat → Prop} {r : Option Nat} (hshed : Udp.Shed s t)
    (h : Udp.Created P F k (requestOf p) t s' r) :
    Settled q p k s s' (if r.isSome then .bound else .unbound) := by
  obtain ⟨g', hg'⟩ := shed_ledger hg hshed
  have ho : (if r.isSome then Outcome.bound else .unbound) = .bound ∨
      (if r.isSome then Outcome.bound else .unbound) = .unbound := by
    cases r <;> simp
  have hfind : s'.tbl.find = s.tbl.find := by rw [h.beside.tbl, hshed.beside.tbl]
  refine ⟨hfind, fun hun => ?_, _, rfl, ?_⟩
  · rw [hun] at ho
    simp at ho
  · obtain hsame | ⟨j, b, hb, hgone⟩ := shed_unbinds hg hshed
    · left
      have hmade := created_settles hg' hq (by rwa [hsame]) hpad h
      rwa [hsame] at hmade
    · right
      have hne : s.bind.owned j ≠ [] := List.ne_nil_of_mem hb
      refine ⟨j, shortDst (s.bind.core b).originalDst, hne, ?_⟩
      rcases eq_or_ne j k with rfl | hj
      · have hd := hnew _ (List.mem_map_of_mem hb)
        have hnew' : ∀ c ∈ (sessionOf t j).bindings, c.originalDst ≠ shortDst p.originalDst := by
          rw [hgone, update_self]
          exact fun c hc => hnew c (List.mem_of_mem_filter hc)
        rw [created_settles hg' hq hnew' hpad h, hgone]
        simp only [update_self, Function.update_idem]
        rw [Session.settle_without ho hnew hd]
      · have hk : sessionOf t k = sessionOf s k := by rw [hgone, update_of_ne hj.symm]
        rw [created_settles hg' hq (by rwa [hk]) hpad h, hk, hgone, update_of_ne hj]
        exact Function.update_comm hj _ _ _

/-- The destination of the packet came from the map, or with the datagram and no lookup mode. -/
def SocketOrMap (p : ClientPacket) : Prop :=
  p.originalFromSocket = true → p.tokenLookupMode = .unknown

/-- What a datagram that may lack its reply socket has in common with the machine's. -/
theorem needs_of_packet (hsocket : SocketOrMap p)
    (h : Udp.needsReplySocket p = true) : (resolvedOf p).needsOriginalReplySocket = true := by
  unfold Udp.needsReplySocket Udp.packetUsesConnectedToken Udp.packetNeedsOriginalReplySocket at h
  unfold Resolved.needsOriginalReplySocket resolvedOf
  cases hc : p.connectedUdpToken with
  | true => simp [hc] at h
  | false =>
      by_cases hz : p.tokenLookupMode = .zeroClient
      · cases hs : p.originalFromSocket with
        | true => simp [hsocket hs] at hz
        | false => simp [hc, hz, hs] at h
      · simp [hz]

/-- Finding or making the binding of a datagram settles its session. -/
theorem clientBind_settles (hclock : Udp.Clock True A) (ha : Accounts Anything Nobody s)
    (hu : (s.tbl.core k).used = true) (hq : Carries q p)
    (hsocket : SocketOrMap p)
    (hpad : Padded (tokenLength p) p.tokenAddr)
    (hpads : ∀ b ∈ s.bind.owned k, Padded (tokenLength p) (s.bind.core b).tokenAddr) :
    Sat A (fun s' _ => ∃ o, Settled q p k s s' o) (Udp.clientBind k p s) := by
  obtain ⟨g, hg, -⟩ := ha.ledger
  set t := s.count .udpBindingHashLookups
  have hat : Accounts Anything Nobody t :=
    (Udp.like_count s _ _).steady.accounts orderly_anything ha
  have hgt : g.Of t.bind := hg
  show Sat A _ (Udp.clientFound k p (s.bind.indexFind k p.originalDst) t)
  rcases hf : s.bind.indexFind k p.originalDst with _ | b
  · have hfresh := dst_ne_of_not_find hg hf
    have hmake : Sat A (fun u r => ∃ v, Udp.Shed t v ∧
        Udp.Created Anything Nobody k (requestOf p) v u r) (Udp.bindingCreateForPacket k p t) :=
      Udp.createBinding_sat orderly_anything hclock hat hu (.inl fun _ => id) fun x hx ho =>
        hg.inv.of_indexFind_none hf (hg.used.mpr hx) ho
    refine hmake.bind fun u created ⟨v, hshed, hc⟩ => ?_
    have hset : Settled q p k t u (if created.isSome then .bound else .unbound) :=
      settled_of_created hgt hq hfresh hpad hshed hc
    have hsettled : Settled q p k s u (if created.isSome then .bound else .unbound) :=
      ⟨hset.find, hset.needs, hset.session⟩
    cases created with
    | none => exact ⟨_, hsettled⟩
    | some b => exact (unseen_clientForward k p u).mono fun s' _ h => ⟨_, hsettled.unseen h⟩
  -- the destination has a binding: it is refreshed, and may lose its reply socket
  · obtain ⟨hb, ho, -⟩ := hg.inv.indexFind_some.mp hf
    have hR : Udp.Refreshes Anything Nobody k b p t :=
      ⟨fun _ _ _ => trivial, fun _ _ _ _ _ => trivial⟩
    refine (Udp.refreshBinding_sat hat hR (hg.used.mp hb) ho).bind fun u good ⟨_, hbeside, hr⟩ => ?_
    have hold := hpads b (hg.inv.mem_owned.mpr ⟨hb, ho⟩)
    have hsettled : Settled q p k s u (if good then .bound else .unanswered) := by
      have hfind : u.tbl.find = t.tbl.find := by rw [hbeside.tbl]
      refine ⟨hfind, fun hun => ?_, _, rfl, Or.inl ?_⟩
      · refine needs_of_packet hsocket (hr.needs ?_)
        cases good with
        | true => cases hun
        | false => rfl
      · exact refreshed_settles hgt hq hf hold hpad hr hbeside
    cases good with
    | false => exact ⟨_, hsettled⟩
    | true => exact (unseen_clientForward k p u).mono fun s' _ h => ⟨_, hsettled.unseen h⟩

/-! ## The machine's worker -/

variable {find : Sockaddr → Option Nat} {f : Nat → Session} {x y : Worker}

/-- Worker `x` of the machine has the sessions `f` that `find` finds. -/
def Shows (find : Sockaddr → Option Nat) (f : Nat → Session) (x : Worker) : Prop :=
  ∀ client, x.find client = (find client).map f

/-- A client's session is found by its address, and no other client's is. -/
structure Finds (find : Sockaddr → Option Nat) (f : Nat → Session) : Prop where
  client : ∀ {c i}, find c = some i → sameSockaddr (f i).client c = true
  unique : ∀ {c c' i j}, find c = some i → find c' = some j →
    sameSockaddr (f i).client (f j).client = true → i = j

theorem finds_sessionOf (hs : Sessions True s) : Finds s.tbl.find (sessionOf s) where
  client h := (Udp.SessTable.of_find h).2
  unique h h' hsame := by
    obtain ⟨lru, hl, hi, -⟩ := hs.whole
    refine hi.keys (hi.mem_lru.mpr ⟨(Udp.SessTable.of_find h).1, by simp⟩)
      (hi.mem_lru.mpr ⟨(Udp.SessTable.of_find h').1, by simp⟩) hsame

/-- A session in use is found by its client's address. -/
theorem find_client (hs : Sessions True s) (hu : (s.tbl.core k).used = true) {client : Sockaddr}
    (hc : sameSockaddr (s.tbl.core k).clientAddr client = true) :
    s.tbl.find client = some k := by
  obtain ⟨lru, hl, hi, -⟩ := hs.whole
  have hk : k ∈ lru := hi.mem_lru.mpr ⟨hu, by simp⟩
  cases hf : s.tbl.find client with
  | none =>
      rw [hi.of_find_none hf hk] at hc
      cases hc
  | some i =>
      obtain ⟨hui, hsame⟩ := Udp.SessTable.of_find hf
      rw [Udp.sameSockaddr_iff] at hsame hc
      have hkeys : sameSockaddr (s.tbl.core i).clientAddr (s.tbl.core k).clientAddr = true :=
        Udp.sameSockaddr_iff.mpr (hsame.trans hc.symm)
      rw [hi.keys (hi.mem_lru.mpr ⟨hui, by simp⟩) hk hkeys]

theorem Finds.update (h : Finds find f) {e : Session} (he : e.client = (f k).client) :
    Finds find (update f k e) := by
  have hclient : ∀ i, (Function.update f k e i).client = (f i).client :=
    Udp.update_field (π := Session.client) he
  refine ⟨fun hc => ?_, fun hc hc' hsame => ?_⟩
  · rw [hclient]
    exact h.client hc
  · rw [hclient, hclient] at hsame
    exact h.unique hc hc' hsame

/-- The worker changes the sessions of one client. -/
theorem Shows.change (h : Shows find f x) (hf : Finds find f) {client : Sockaddr}
    (hk : find client = some k) (F : Session → Session) (hF : ∀ e, (F e).client = e.client)
    (hy : y.sessions = x.sessions.map fun e => if sameSockaddr e.client client then F e else e) :
    Shows find (update f k (F (f k))) y := by
  intro c
  have hkeep : ∀ e : Session,
      (if sameSockaddr e.client client then F e else e).client = e.client := fun e => by
    split
    · exact hF e
    · rfl
  have hmap : y.find c =
      (x.find c).map fun e => if sameSockaddr e.client client then F e else e := by
    unfold Worker.find
    rw [hy, List.find?_map]
    -- the search looks at clients only
    have hpred : ((fun e : Session => sameSockaddr e.client c) ∘
        fun e => if sameSockaddr e.client client then F e else e) =
        fun e => sameSockaddr e.client c := funext fun e => by
      show sameSockaddr (if sameSockaddr e.client client then F e else e).client c = _
      rw [hkeep]
    rw [hpred]
  rw [hmap, h c, Option.map_map]
  cases hc : find c with
  | none => rfl
  | some i =>
      show some (if sameSockaddr (f i).client client then F (f i) else f i) = some _
      congr 1
      rcases eq_or_ne i k with rfl | hi
      · rw [update_self, if_pos (hf.client hk)]
      · rw [update_of_ne hi, if_neg]
        intro hsame
        refine hi (hf.unique hc hk ?_)
        rw [Udp.sameSockaddr_iff] at hsame ⊢
        exact hsame.trans (Udp.sameSockaddr_iff.mp (hf.client hk)).symm

/-- A datagram of a known client is settled in its session. -/
theorem Shows.settled (h : Shows find f x) (hf : Finds find f) (hk : find q.client = some k)
    (r : Resolved) (o : Outcome) :
    Shows find (update f k (((f k).keepMode r.mode).settle q r o)) (x.settled q r o) ∧
      (x.settled q r o).job = .idle := by
  have hx : x.find q.client = some (f k) := by
    rw [h, hk]
    rfl
  have hsettled : x.settled q r o = { x with
      job := .idle
      sessions := x.sessions.map fun e =>
        if sameSockaddr e.client q.client then (e.keepMode r.mode).settle q r o else e } := by
    unfold Worker.settled
    rw [hx]
  rw [hsettled]
  refine ⟨h.change hf hk (fun e => (e.keepMode r.mode).settle q r o) (fun e => ?_) rfl, rfl⟩
  rw [Session.settle_client, (Session.keepMode_eq _ _).1]

/-- The lookup of a datagram prefers what its client's session found last. -/
theorem Shows.preference (h : Shows find f x) (client : Sockaddr) :
    x.preference client =
      (find client).elim .unknown fun k => (f k).tokenLookupMode := by
  unfold Worker.preference
  rw [h client]
  cases find client <;> rfl

/-! ## The round of a datagram -/

theorem find?_of_agree {α : Type} {P Q : α → Bool} {l : List α} (h : ∀ a ∈ l, P a = Q a) :
    l.find? P = l.find? Q := by
  induction l with
  | nil => rfl
  | cons a l ih =>
      have hl : l.find? P = l.find? Q := ih fun b hb => h b (List.mem_cons_of_mem a hb)
      rw [List.find?_cons, List.find?_cons, h a List.mem_cons_self, hl]

/-- The session's connected binding for a token is the one whose slot the worker comes to first. -/
theorem connectedBinding_sessionOf (hg : g.Of s.bind) {token : List UInt8} {n : Nat}
    (hpad : Padded n token) (hpads : ∀ b ∈ s.bind.owned k, Padded n (s.bind.core b).tokenAddr) :
    (sessionOf s k).connectedBinding token = ((s.bind.owned k).find? fun b =>
      (s.bind.core b).used && (s.bind.core b).connectedUdpToken &&
        (s.bind.core b).tokenAddr.take n == token.take n).map fun b =>
          bindingOf (s.bind.core b) := by
  show ((s.bind.owned k).map _).find? _ = _
  rw [List.find?_map]
  refine congrArg (Option.map _) (find?_of_agree fun b hb => ?_)
  have hused : (s.bind.core b).used = true := hg.used.mp (hg.inv.mem_owned.mp hb).1
  rw [hused, Bool.true_and, take_beq_padded (hpads b hb) hpad]
  rfl

/-- Recovering a connected socket's destination finds what the machine's worker finds. -/
theorem tokenRecoverConnected_finds (hg : g.Of s.bind) (hq : Carries q p)
    (hshows : Shows s.tbl.find (sessionOf s) x) (hpad : Padded (tokenLength p) p.tokenAddr)
    (hpads : ∀ k, s.tbl.find p.clientAddr = some k → ∀ b ∈ s.bind.owned k,
      Padded (tokenLength p) (s.bind.core b).tokenAddr) :
    Sat A (fun _ r => r.map resolvedOf = match recoverJob x q with
        | .republishing _ b mode => some ⟨b.originalDst, true, mode⟩
        | _ => none)
      (Udp.tokenRecoverConnected (s.tbl.find p.clientAddr) p s) := by
  unfold recoverJob
  rw [hshows, hq.client, hq.tokenAddr]
  rcases hk : s.tbl.find p.clientAddr with _ | k
  · exact rfl
  · simp only [Option.map_some, Option.bind_some,
      connectedBinding_sessionOf hg hpad (hpads k hk), Udp.tokenRecoverConnected, bind_run,
      Udp.Worker.get_run, ret_bind]
    cases (s.bind.owned k).find? _ with
    | none => exact rfl
    | some b => exact fun _ _ => rfl

/-- A session keeps the lookup mode of its datagram. -/
theorem noteLookupMode_keepMode (s : Udp.State) (k : Nat) (mode : LookupMode) :
    (Udp.noteLookupMode s k mode).tbl.find = s.tbl.find ∧
      sessionOf (Udp.noteLookupMode s k mode) =
        update (sessionOf s) k ((sessionOf s k).keepMode mode) := by
  unfold Udp.noteLookupMode Session.keepMode
  by_cases hm : mode = .unknown
  · rw [if_pos hm, if_neg (not_not.mpr hm), Function.update_eq_self]
    exact ⟨rfl, rfl⟩
  · rw [if_neg hm, if_pos hm]
    have hused : ∀ i, ((s.modCore k fun c => { c with tokenLookupMode := mode }).tbl.core i).used =
        (s.tbl.core i).used := Udp.update_field (π := Udp.SessCore.used) rfl
    have haddr : ∀ i,
        ((s.modCore k fun c => { c with tokenLookupMode := mode }).tbl.core i).clientAddr =
          (s.tbl.core i).clientAddr := Udp.update_field (π := Udp.SessCore.clientAddr) rfl
    refine ⟨find_congr rfl hused haddr, funext fun i => ?_⟩
    rcases eq_or_ne i k with rfl | hi
    · rw [update_self]
      show Session.mk _ _ _ = Session.mk _ _ _
      rw [haddr]
      show Session.mk _ (update s.tbl.core i _ i).tokenLookupMode _ = _
      rw [update_self]
      rfl
    · rw [update_of_ne hi]
      show Session.mk (update s.tbl.core k _ i).clientAddr (update s.tbl.core k _ i).tokenLookupMode
        _ = _
      rw [update_of_ne hi]
      rfl

/-- A location whose packet, if it has one, is such a packet. -/
def GoesOn (l : Udp.Loc) : Prop := ∀ p e, l = .clientSession p e → SocketOrMap p

theorem goesOn_clientPacket : GoesOn .clientPacket := by
  rintro p e ⟨⟩

/-- Parsing the control messages looks nothing up. -/
theorem tokenParseCmsgs_plain {d : Udp.ClientDatagram} (h : Udp.tokenParseCmsgs d = some p) :
    p.originalFromSocket = false ∧ p.tokenLookupMode = .unknown := by
  have hfold : ∀ (l : List Udp.Cmsg) (a : ClientPacket × Bool),
      (l.foldl Udp.parseCmsg a).1.originalFromSocket = a.1.originalFromSocket ∧
        (l.foldl Udp.parseCmsg a).1.tokenLookupMode = a.1.tokenLookupMode := by
    intro l
    induction l with
    | nil => exact fun a => ⟨rfl, rfl⟩
    | cons c l ih =>
        intro a
        obtain ⟨hs, hm⟩ := ih (Udp.parseCmsg a c)
        rw [List.foldl_cons, hs, hm]
        cases c <;> exact ⟨rfl, rfl⟩
  unfold Udp.tokenParseCmsgs at h
  dsimp only at h
  split at h
  · obtain rfl := Option.some.inj h
    exact hfold d.cmsgs _
  · cases h

theorem clientResolved_goesOn (h : SocketOrMap p) (existing : Option Nat) :
    Sat A (fun _ l => GoesOn l) (Udp.clientResolved p existing t) := by
  have hsession : GoesOn (.clientSession p existing) := by
    rintro p' e ⟨⟩
    exact h
  have hrest : ∀ u : Udp.State, Sat A (fun _ l => GoesOn l) ((do
      let s ← Udp.Worker.get
      if Udp.dnsIsCandidate s.cfg p then
        let taken ← Udp.dnsStep (.prepareQuery p s.frame.nowMs)
        pure (if taken then .clientPacket else .clientSession p existing)
      else pure (.clientSession p existing) : Udp.Worker Udp.Loc) u) := by
    intro u
    simp only [bind_run, Udp.Worker.get_run, ret_bind]
    refine sat_ite (fun _ => ?_) fun _ => hsession
    refine (Udp.quiet_dnsStep _ u).bind fun v taken _ => ?_
    show GoesOn (if taken then .clientPacket else .clientSession p existing)
    split
    · exact goesOn_clientPacket
    · exact hsession
  cases existing with
  | none => exact hrest t
  | some k => exact hrest _

/-- What a datagram's round looks up is a destination of the map, or that of the socket. -/
theorem clientNext_goesOn (s : Udp.State) : Sat A (fun _ l => GoesOn l) (Udp.clientNext s) := by
  have hmiss : ∀ (u : Udp.State) (notify : Option ClientPacket),
      Sat A (fun _ l => GoesOn l) (Udp.tokenMiss notify u) := by
    intro u notify
    simp only [Udp.tokenMiss, bind_run, Udp.Worker.count_run, ret_bind]
    cases notify with
    | none => exact goesOn_clientPacket
    | some p => exact fun _ _ => goesOn_clientPacket
  simp only [Udp.clientNext, bind_run, Udp.Worker.get_run, ret_bind]
  rcases s.frame.incoming with _ | ⟨d, rest⟩
  · refine (Udp.quiet_dnsStep _ s).bind fun u _ _ => ?_
    rintro p e ⟨⟩
  · refine sat_ite (fun _ => goesOn_clientPacket) fun _ => ?_
    simp only [bind_run, Udp.Worker.count_run, ret_bind]
    rcases hd : Udp.tokenParseCmsgs d with _ | p
    · exact hmiss _ none
    · obtain ⟨hs, hm⟩ := tokenParseCmsgs_plain hd
      have hlookup : ∀ (u : Udp.State) (m : LookupMode) (now : Nat),
          Sat A (fun _ r => SocketOrMap r.2 ∧ (r.1 = false → r.2.originalFromSocket = false))
            (Udp.tokenLookupOriginal p m now u) := by
        intro u m now r _
        rcases r with _ | ⟨mode, connected, _ | dst⟩
        · show Sat A _ ((if _ then _ else _ : Udp.Worker _) u)
          split
          · exact ⟨fun _ => hm, fun h => absurd h (by simp)⟩
          · exact ⟨fun _ => hm, fun _ => hs⟩
        · exact ⟨fun h => absurd h (by simp [hs]), fun _ => hs⟩
        · exact ⟨fun h => absurd h (by simp [hs]), fun h => absurd h (by simp)⟩
      refine (hlookup _ _ _).bind fun u r hgot => ?_
      obtain ⟨hr, hfalse⟩ := hgot
      simp only [ite_run]
      split
      · exact clientResolved_goesOn hr _
      · rename_i hnot
        -- a recovered destination is the binding's
        have hrec : ∀ (e : Option Nat) (v : Udp.State), Sat A
            (fun _ r' => ∀ p', r' = some p' → p'.originalFromSocket = false)
            (Udp.tokenRecoverConnected e r.2 v) := by
          intro e v
          rcases e with _ | k
          · rintro p' ⟨⟩
          · simp only [Udp.tokenRecoverConnected, bind_run, Udp.Worker.get_run, ret_bind]
            cases (v.bind.owned k).find? _ with
            | none => rintro p' ⟨⟩
            | some b =>
                rintro _ _ p' ⟨⟩
                exact hfalse (by simpa using hnot)
        refine (hrec _ u).bind fun v r' hr' => ?_
        rcases r' with _ | p'
        · exact hmiss v _
        · exact clientResolved_goesOn (fun h => absurd h (by simp [hr' p' rfl])) _

/-- The session of a known client is the one that was found, with the datagram's lookup mode. -/
theorem sessionGet_keepsMode (k : Nat) (p : ClientPacket) (s : Udp.State) :
    Sat A (fun t r => r = some k ∧ t.tbl.find = s.tbl.find ∧
      sessionOf t = update (sessionOf s) k ((sessionOf s k).keepMode p.tokenLookupMode))
      (Udp.sessionGet p (some k) s) := by
  intro now _
  set s1 : Udp.State := { s with trace.clock := max s.trace.clock now }
  have hseen : Unseen s (Udp.seenSession s1 k now) :=
    trans_of Unseen (unseen_of_like (Udp.like_clock s now)) (unseen_seenSession _ k now)
  obtain ⟨hfind, hsession⟩ :=
    noteLookupMode_keepMode (Udp.seenSession s1 k now) k p.tokenLookupMode
  rw [hseen.find] at hfind
  rw [hseen.session] at hsession
  exact ⟨rfl, hfind, hsession⟩

/-- The rest of a datagram's round, for a client that has a session, is a run of the machine: the
datagram settles in its session, and a binding is destroyed if making room evicted one. -/
theorem clientSession_simulated {cfg : Config} {T : State} {w : Nat} (hclock : Udp.Clock True A)
    (hs : Sessions True s) (ha : Accounts Anything Nobody s)
    (hshows : Shows s.tbl.find (sessionOf s) (T.worker w))
    (hjob : (T.worker w).job = .resolved q (resolvedOf p)) (hq : Carries q p)
    (hat : Udp.AtLoc s (.clientSession p (some k))) (hsocket : SocketOrMap p)
    (hpad : Padded (tokenLength p) p.tokenAddr)
    (hpads : ∀ b ∈ s.bind.owned k, Padded (tokenLength p) (s.bind.core b).tokenAddr) :
    Sat A (fun s' _ => ∃ o evicted T', play cfg T (.settle w o :: evicted) = some T' ∧
        (∀ a ∈ evicted, ∃ client d, a = .unbind w client d) ∧
        (T'.worker w).job = .idle ∧ Shows s'.tbl.find (sessionOf s') (T'.worker w))
      (Udp.clientSession p (some k) s) := by
  refine ((sessionGet_keepsMode k p s).and (Udp.sessionGet_some_steady k p)).bind
    fun t r ⟨⟨hr, hfind, hmode⟩, ⟨hsteady, hbind⟩, _⟩ => ?_
  subst hr
  obtain ⟨-, hused, hsame⟩ := hat
  have hk : s.tbl.find p.clientAddr = some k := find_client hs hused hsame
  refine (clientBind_settles hclock (hsteady.accounts orderly_anything ha) (hsteady.used k hused) hq
    hsocket hpad (by rw [hbind]; exact hpads)).bind fun s' _ ⟨o, hset⟩ => ?_
  obtain ⟨f, hf, hs'⟩ := hset.session
  rw [hmode, update_self, Function.update_idem] at hf
  have hfinds := finds_sessionOf hs
  obtain ⟨hsettled, hidle⟩ := hshows.settled hfinds (hq.client ▸ hk) (resolvedOf p) o
  have hfind' : s'.tbl.find = s.tbl.find := hset.find.trans hfind
  set T₁ := T.setWorker w ((T.worker w).settled q (resolvedOf p) o) with hT₁
  have hstep : step cfg T (.settle w o) = some T₁ := by
    have hallowed : o ≠ .unanswered ∨ (resolvedOf p).needsOriginalReplySocket = true := by
      by_cases h : o = .unanswered
      · exact Or.inr (hset.needs h)
      · exact Or.inl h
    simp only [step, hjob]
    rw [if_pos hallowed]
  have hworker : T₁.worker w = (T.worker w).settled q (resolvedOf p) o := update_self ..
  rw [← hworker] at hsettled hidle
  have hf' : update (sessionOf s) k (((sessionOf s k).keepMode (resolvedOf p).mode).settle q
      (resolvedOf p) o) = f := hf.symm
  rw [hf'] at hsettled
  obtain hsame | ⟨j, d, hne, hgone⟩ := hs'
  · refine ⟨o, [], T₁, by simp [play, hstep], by simp, hidle, ?_⟩
    show Shows s'.tbl.find (sessionOf s') (T₁.worker w)
    rw [hfind', hsame]
    exact hsettled
  · -- the evicted binding's session is in use, and has the same client as before
    have hj : (s.tbl.core j).used = true := by
      by_contra hun
      rw [Bool.not_eq_true] at hun
      rw [hbind] at hne
      exact hne (ha.vacant j hun)
    have hclient : (f j).client = (sessionOf s j).client := by
      rw [hf]
      refine Udp.update_field (π := Session.client) ?_ j
      rw [Session.settle_client, (Session.keepMode_eq _ _).1]
    have hffinds : Finds s.tbl.find f := by
      rw [hf]
      exact hfinds.update (by rw [Session.settle_client, (Session.keepMode_eq _ _).1])
    have hfj : s.tbl.find (f j).client = some j := by
      rw [hclient]
      exact find_client hs hj (Udp.sameSockaddr_refl _)
    set T₂ := T₁.setWorker w ((T₁.worker w).unbound (f j).client d)
    have hunbind : step cfg T₁ (.unbind w (f j).client d) = some T₂ := by
      simp only [step]
      rw [if_pos hidle]
    have hworker₂ : T₂.worker w = (T₁.worker w).unbound (f j).client d := update_self ..
    refine ⟨o, [.unbind w (f j).client d], T₂, by simp [play, hstep, hunbind], by simp, ?_, ?_⟩
    · rw [hworker₂]
      exact hidle
    · rw [hworker₂, hfind', hgone]
      exact hsettled.change hffinds hfj (fun e => Session.without e d) (fun _ => rfl) rfl

end Bpf2Socks.Token

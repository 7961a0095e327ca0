/-
# Bpf2Socks.Udp.Making — what making or refreshing a binding does to the ledger.

`create_binding` first makes room, which may evict one binding of any session, then takes a free
slot, fills its record and links it everywhere.  Until it is linked the slot is in no list
(`Filling`).  `Created` says what the call leaves, on success and on every failure.

A client datagram for a destination that has a binding rewrites the binding's record and, unless a
reply socket cannot be made, touches it (`Refreshes`).
-/
import Bpf2Socks.Udp.Accounts

namespace Bpf2Socks.Udp

open Function (update update_self update_of_ne)
open Lib (Prog Act DLists)
open Lib.Prog Lib.Act
open Worker hiding get modify ask diverge

variable {A : State → (q : Sys) → q.Ans → Prop} {P : (Nat → Prop) → Ledger → Prop}
  {F : Nat → Prop} {s s' t u : State} {k b : Nat} {rest : List Nat} {c : Binding}

theorem Beside.nowMs (h : Beside s s') : s'.frame.nowMs = s.frame.nowMs :=
  congrArg Outside.nowMs h.outside

/-! ## Making room -/

/-- Making room for a binding evicts binding `b`. -/
def State.evicts (s : State) (b : Nat) : Bool :=
  s.bind.cap ≤ s.bind.count && s.bind.evictee = some (some b)

theorem BindTable.detach_count (t : BindTable) (k b : Nat) :
    (t.detach k b).count = t.count - 1 := by
  unfold BindTable.detach BindTable.indexRemove
  dsimp only
  split
  · rfl
  · split <;> rfl

/-- From `s` to `s'` bindings were at most destroyed, and only one that making room evicts. -/
structure Shed (s s' : State) : Prop where
  bind : s'.bind = s.bind ∨ ∃ k b, (s.bind.core b).used = true ∧
    (s.bind.core b).owner = some k ∧ s.evicts b = true ∧ s'.bind = s.bind.destroyed k b
  beside : Beside s s'

theorem Shed.refl (s : State) : Shed s s := ⟨Or.inl rfl, refl_of Beside s⟩

theorem Shed.record (h : Shed s s') (x : Nat) :
    s'.bind.core x = s.bind.core x ∨ s'.bind.core x = .zero ∧ s.evicts x = true := by
  obtain hsame | ⟨k, b, -, -, he, hgone⟩ := h.bind
  · exact Or.inl (by rw [hsame])
  · rw [hgone, BindTable.destroyed_core]
    rcases eq_or_ne x b with rfl | hx
    · exact Or.inr ⟨if_pos rfl, he⟩
    · exact Or.inl (if_neg hx)

/-- What is in use was in use before. -/
theorem Shed.used (h : Shed s s') {x : Nat} (hx : (s'.bind.core x).used = true) :
    s'.bind.core x = s.bind.core x := by
  refine (h.record x).resolve_right fun ⟨hz, _⟩ => ?_
  simp [hz, Binding.zero] at hx

theorem Shed.kept (h : Shed s s') {x : Nat} (hx : s.evicts x = false) :
    s'.bind.core x = s.bind.core x :=
  (h.record x).resolve_right fun ⟨_, he⟩ => by simp [hx] at he

/-- With room the loop is done. -/
theorem ensureBindingCapacity_room {fuel : Nat} (h : ¬s.bind.cap ≤ s.bind.count) :
    ensureBindingCapacity (fuel + 1) s = .ret s true := by
  simp [ensureBindingCapacity, h]

theorem ensureBindingCapacity_sat (hP : Orderly P) (h : Accounts P F s) (fuel : Nat) :
    Sat A (fun s' _ => Accounts P F s' ∧ Shed s s') (ensureBindingCapacity fuel s) := by
  cases fuel with
  | zero => trivial
  | succ fuel =>
      by_cases hfull : s.bind.cap ≤ s.bind.count
      · simp only [ensureBindingCapacity, bind_run, Worker.get_run, ret_bind, ite_run]
        rw [if_pos hfull]
        simp only [evictBinding, bind_run, Worker.get_run, ret_bind]
        rcases he : s.bind.evictee with _ | _ | b
        · trivial
        · exact ⟨h, Shed.refl s⟩
        · obtain ⟨g, hg, -⟩ := h.ledger
          have hb : b ∈ g.lru := (hg.inv.evictee he).1
          obtain ⟨k, ho⟩ := hg.inv.owner hb
          simp only [ho]
          set s1 := (destroyBinding s k b).count .udpBindingEvictions with hs1
          have hbind : s1.bind = s.bind.destroyed k b := by
            rw [hs1, destroyBinding_eq]
            rfl
          have hacc : Accounts P F s1 :=
            (like_count _ _ _).steady.accounts hP (h.destroy hP (hg.used.mp hb) ho)
          have hshed : Shed s s1 :=
            ⟨Or.inr ⟨k, b, hg.used.mp hb, ho, by simp [State.evicts, hfull, he], hbind⟩,
              trans_of Beside (beside_destroyBinding s k b) (like_count _ _ _).beside⟩
          -- one eviction is enough: the table was not more than full
          have hroom : ¬s1.bind.cap ≤ s1.bind.count := by
            have hle := hg.inv.count_le
            have hlt := hg.inv.used_lt (hg.used.mp hb)
            rw [hbind]
            show ¬(s.bind.detach k b).cap ≤ (s.bind.detach k b).count
            rw [BindTable.detach_cap, BindTable.detach_count]
            omega
          show Sat A _ (ensureBindingCapacity fuel s1)
          cases fuel with
          | zero => trivial
          | succ fuel =>
              rw [ensureBindingCapacity_room hroom]
              exact ⟨hacc, hshed⟩
      · rw [ensureBindingCapacity_room hfull]
        exact ⟨h, Shed.refl s⟩

/-! ## A slot that is being filled -/

/-- From `s` to `t` only free slot `b` was taken and its record filled with `c`. -/
structure Filling (b : Nat) (rest : List Nat) (s : State) (c : Binding) (t : State) : Prop where
  bind : t.bind = s.bind.filled b rest c
  beside : Beside s t

theorem Filling.modBinding (h : Filling b rest s c t) (f : Binding → Binding) :
    Filling b rest s (f c) (t.modBinding b f) := by
  refine ⟨?_, trans_of Beside h.beside (beside_modBinding t b f)⟩
  show { t.bind with core := update t.bind.core b (f (t.bind.core b)) } = _
  rw [h.bind]
  simp [BindTable.filled]

theorem Filling.like (h : Filling b rest s c t) (hl : Like t u) : Filling b rest s c u := by
  refine ⟨?_, trans_of Beside h.beside hl.beside⟩
  obtain ⟨n, rfl, -⟩ := hl
  exact h.bind

/-- Opening a socket leaves the bindings alone. -/
theorem replySocketCreate_bind (dst : DstAddr) (o : FdOwner) (s : State) :
    Sat A (fun s' _ => s'.bind = s.bind) (replySocketCreate dst o s) := by
  unfold replySocketCreate
  refine sat_ite (fun _ r _ => ?_) fun _ => rfl
  rcases r with _ | ⟨fd, raw⟩ <;> exact rfl

/-- The record is what the request asks for. -/
structure BindingRequest.Met (req : BindingRequest) (c : Binding) : Prop where
  dst : c.originalDst = req.original
  token : c.tokenAddr = copyBytes noToken req.tokenAddr req.tokenLen
  connected : c.connectedUdpToken = req.connectedUdpToken

/-- What making a binding leaves once there is room: the binding at the head of the session's list,
or nothing. -/
structure Created (P : (Nat → Prop) → Ledger → Prop) (F : Nat → Prop) (k : Nat)
    (req : BindingRequest) (s s' : State) (r : Option Nat) : Prop where
  accounts : Accounts P F s'
  beside : Beside s s'
  kept : ∀ x, (s.bind.core x).used = true → s'.bind.core x = s.bind.core x
  owned : s'.bind.owned = update s.bind.owned k (r.toList ++ s.bind.owned k)
  made : ∀ b, r = some b → (s'.bind.core b).used = true ∧ (s'.bind.core b).owner = some k ∧
    req.Met (s'.bind.core b)

variable {req : BindingRequest}

/-- The slot is given back. -/
theorem Filling.release (hP : Orderly P) (h : Filling b rest s c t) (ha : Accounts P F s)
    (hf : s.bind.free = b :: rest) : Created P F k req s (releaseBinding t b) none := by
  obtain ⟨g, hg, hp⟩ := ha.ledger
  have hbind : (releaseBinding t b).bind = s.bind.emptied b rest c := by
    rw [releaseBinding_eq, h.bind]
    rfl
  have hfree : b ∉ g.lru := hg.fresh hf
  have hcore : ∀ x, x ≠ b → (releaseBinding t b).bind.core x = s.bind.core x := by
    intro x hx
    rw [hbind]
    show update (update s.bind.core b c) b .zero x = _
    rw [Function.update_idem, update_of_ne hx]
  have hzero : (releaseBinding t b).bind.core b = .zero := by
    rw [hbind]
    exact update_self _ _ _
  have hbeside := trans_of Beside h.beside (beside_releaseBinding t b)
  refine ⟨⟨⟨g.write b .zero, ?_, hP.congr hg.whole (fun x hx => ?_) hp⟩, fun j hj => ?_, fun x hx => ?_,
    ?_⟩, hbeside, fun x hx => hcore x ?_, ?_, nofun⟩
  · rw [hbind]
    exact hg.emptied hf
  · rw [update_of_ne (by rintro rfl; exact hfree hx)]
    exact .refl _
  · rw [hbind]
    exact ha.vacant j (by rw [← hbeside.tbl]; exact hj)
  · have hne : x ≠ b := by
      rintro rfl
      simp [hzero, Binding.zero] at hx
    rw [hcore x hne] at hx ⊢
    exact Nat.le_trans (ha.past x hx) hbeside.clock
  · rw [hbeside.nowMs]
    exact Nat.le_trans ha.started hbeside.clock
  · rintro rfl
    exact hfree (hg.used.mpr hx)
  · rw [hbind]
    exact (Function.update_eq_self k s.bind.owned).symm

/-- A record that is ready to be linked in for session `k`. -/
structure Readied (F : Nat → Prop) (k : Nat) (req : BindingRequest) (s t : State) (c : Binding) :
    Prop where
  met : req.Met c
  late : s.trace.clock ≤ c.lastSeenMs
  past : c.lastSeenMs ≤ t.trace.clock
  owner : (s.tbl.core k).used = true
  apart : (∀ x, ¬F x) ∨ copyBytes noToken req.tokenAddr req.tokenLen = noToken
  unknown : ∀ x, (s.bind.core x).used = true → (s.bind.core x).owner = some k →
    sameDst (s.bind.core x).originalDst req.original = false

/-- The end of `finishBinding`: the record in use is indexed, or given back. -/
def enterBinding (k b : Nat) (req : BindingRequest) : Worker (Option Nat) := do
  let s ← Worker.get
  match s.bind.indexInsert b with
  | none =>
      Worker.modify fun s => releaseBinding s b
      pure none
  | some t =>
      Worker.modify fun s => { s with bind := t.attach k b }
      count .udpReplyBindingCreates
      if req.fullcone then count .udpFullconeBindingCreates
      pure (some b)

theorem finishBinding_sat (hP : Orderly P) (h : Filling b rest s c t)
    (hr : Readied F k req s t c) (ha : Accounts P F s) (hf : s.bind.free = b :: rest) :
    Sat A (fun s' r => Created P F k req s s' r) (finishBinding k b req t) := by
  obtain ⟨g, hg, hp⟩ := ha.ledger
  have hfree : b ∉ g.lru := hg.fresh hf
  set c' : Binding := { c with used := true, owner := some k } with hc'
  have h1 : Filling b rest s c' (t.modBinding b fun c => { c with used := true, owner := some k }) :=
    h.modBinding fun c => { c with used := true, owner := some k }
  set t1 := t.modBinding b fun c => { c with used := true, owner := some k }
  show Sat A _ (enterBinding k b req t1)
  simp only [enterBinding, bind_run, Worker.get_run, ret_bind]
  rcases hi : t1.bind.indexInsert b with _ | tbl
  · exact h1.release hP ha hf
  · simp only [bind_run, Worker.modify_run, ret_bind]
    rw [h1.bind] at hi
    have hadd : (g.add k b c').Of (tbl.attach k b) := by
      refine hg.add hf rfl rfl (fun x hx ho => ?_) hi
      rw [hg.core] at ho ⊢
      show sameDst _ c.originalDst = false
      rw [hr.met.dst]
      exact hr.unknown x (hg.used.mp hx) ho
    have hlink : Beside t1 { t1 with bind := tbl.attach k b } := beside_of_eq rfl rfl rfl rfl
    have hbeside := trans_of Beside h1.beside hlink
    have hcore : (tbl.attach k b).core = update s.bind.core b c' := by
      rw [← hadd.core, ← hg.core]
      rfl
    have howned : (tbl.attach k b).owned = update s.bind.owned k (b :: s.bind.owned k) := by
      rw [← hadd.owned, ← hg.owned]
      rfl
    have hmade : Created P F k req s { t1 with bind := tbl.attach k b } (some b) := by
      refine ⟨⟨⟨_, hadd, hP.add hg.whole hfree rfl rfl (fun x hx => ?_) ?_ hp⟩, fun j hj => ?_,
        fun x hx => ?_, ?_⟩, hbeside, fun x hx => ?_, howned, fun x hx => ?_⟩
      · exact Nat.le_trans (ha.stamps hg x hx) hr.late
      · refine hr.apart.imp id fun ht => ?_
        show (c.tokenAddr != noToken) = false
        rw [hr.met.token, ht]
        exact bne_self_eq_false _
      · have hj' : (s.tbl.core j).used = false := by rw [← hbeside.tbl]; exact hj
        have hne : j ≠ k := by
          rintro rfl
          simp [hr.owner] at hj'
        show (tbl.attach k b).owned j = []
        rw [howned, update_of_ne hne]
        exact ha.vacant j hj'
      · change ((tbl.attach k b).core x).used = true at hx
        show ((tbl.attach k b).core x).lastSeenMs ≤ t.trace.clock
        rw [hcore] at hx ⊢
        rcases eq_or_ne x b with rfl | hne
        · rw [update_self]
          exact hr.past
        · rw [update_of_ne hne] at hx ⊢
          exact Nat.le_trans (ha.past x hx) h.beside.clock
      · rw [hbeside.nowMs]
        exact Nat.le_trans ha.started hbeside.clock
      · show (tbl.attach k b).core x = _
        rw [hcore, update_of_ne]
        rintro rfl
        exact hfree (hg.used.mpr hx)
      · obtain rfl : b = x := Option.some.inj hx
        show ((tbl.attach k b).core b).used = true ∧ _
        rw [hcore, update_self]
        exact ⟨rfl, rfl, hr.met.dst, hr.met.token, hr.met.connected⟩
    -- counting changes nothing of this
    have hlike : ∀ v, Like { t1 with bind := tbl.attach k b } v →
        Created P F k req s v (some b) := by
      intro v hv
      have hst := hv.steady
      refine ⟨hst.accounts hP hmade.accounts, trans_of Beside hmade.beside hv.beside,
        fun x hx => ?_, ?_, fun x hx => ?_⟩
      · obtain ⟨n, rfl, -⟩ := hv
        exact hmade.kept x hx
      · obtain ⟨n, rfl, -⟩ := hv
        exact hmade.owned
      · obtain ⟨n, rfl, -⟩ := hv
        exact hmade.made x hx
    have hcount := like_count { t1 with bind := tbl.attach k b } .udpReplyBindingCreates 1
    refine sat_ite (fun _ => hlike _ ?_) fun _ => hlike _ hcount
    exact hcount.trans (like_count _ _ _)

/-- Nothing was made. -/
theorem Created.nothing (ha : Accounts P F s) : Created P F k req s s none :=
  ⟨ha, refl_of Beside s, fun _ _ => rfl, (Function.update_eq_self k s.bind.owned).symm, nofun⟩

/-- `createBinding` from the record taken off the free list on. -/
def fillBinding (k b : Nat) (rest : List Nat) (req : BindingRequest) : Worker (Option Nat) := do
  Worker.modify fun s => allocBinding s b rest
  Worker.modify fun s => s.modBinding b fun c =>
    { c with
      originalDst := req.original
      tokenAddr := copyBytes c.tokenAddr req.tokenAddr req.tokenLen }
  let now ← nowMs
  Worker.modify fun s => s.modBinding b fun c =>
    { c with lastSeenMs := now, connectedUdpToken := req.connectedUdpToken }
  if req.needsOriginalReplySocket then
    let r ← replySocketCreate req.original (.reply b)
    match r with
    | none =>
        Worker.modify fun s => releaseBinding s b
        pure none
    | some (fd, raw) =>
        Worker.modify fun s => bindingSetReply s b fd raw
        finishBinding k b req
  else finishBinding k b req

/-- A slot is taken and filled; the reply socket may fail. -/
theorem fillBinding_sat (hP : Orderly P) (hclock : Clock True A) (ha : Accounts P F s)
    (hk : (s.tbl.core k).used = true)
    (hF : (∀ x, ¬F x) ∨ copyBytes noToken req.tokenAddr req.tokenLen = noToken)
    (hnew : ∀ x, (s.bind.core x).used = true → (s.bind.core x).owner = some k →
      sameDst (s.bind.core x).originalDst req.original = false)
    (hf : s.bind.free = b :: rest) :
    Sat A (fun s' r => Created P F k req s s' r) (fillBinding k b rest req s) := by
  have h0 : Filling b rest s .zero (allocBinding s b rest) := by
    refine ⟨?_, beside_of_eq rfl rfl rfl rfl⟩
    simp [allocBinding, BindTable.clear, BindTable.filled]
  have h1 := h0.modBinding fun c => { c with
    originalDst := req.original, tokenAddr := copyBytes c.tokenAddr req.tokenAddr req.tokenLen }
  intro now hnow
  have h2 := (h1.like (like_clock _ now)).modBinding fun c => { c with
    lastSeenMs := now, connectedUdpToken := req.connectedUdpToken }
  have hle : s.trace.clock ≤ now := Nat.le_trans h1.beside.clock (hclock trivial _ now hnow)
  set c2 : Binding := { Binding.zero with
    originalDst := req.original
    tokenAddr := copyBytes noToken req.tokenAddr req.tokenLen
    lastSeenMs := now, connectedUdpToken := req.connectedUdpToken } with hc2
  have h2' : Filling b rest s c2 _ := h2
  clear_value c2
  have hpast : now ≤ max s.trace.clock now := Nat.le_max_right _ _
  have hready : ∀ u c, max s.trace.clock now ≤ u.trace.clock → c.originalDst = c2.originalDst →
      c.tokenAddr = c2.tokenAddr → c.connectedUdpToken = c2.connectedUdpToken →
      c.lastSeenMs = c2.lastSeenMs → Readied F k req s u c := by
    intro u c hu hd ht hconn hl
    subst hc2
    exact ⟨⟨hd, ht, hconn⟩, hl ▸ hle, hl ▸ Nat.le_trans hpast hu, hk, hF, hnew⟩
  refine sat_ite (fun _ => ?_) fun _ => ?_
  · refine ((replySocketCreate_bind _ _ _).and (keeps_replySocketCreate _ _ _)).bind
      fun u r hu => ?_
    obtain ⟨hbind, hb⟩ := hu
    have h3 : Filling b rest s c2 u := ⟨hbind.trans h2'.bind, trans_of Beside h2'.beside hb⟩
    rcases r with _ | ⟨fd, raw⟩
    · exact h3.release hP ha hf
    · have h4 := h3.modBinding fun c => { c with
        replyFd := some fd, replyRaw := raw, replyFdGeneration := c.replyFdGeneration + 1 }
      exact finishBinding_sat hP h4 (hready _ _ hb.clock rfl rfl rfl rfl) ha hf
  · exact finishBinding_sat hP h2' (hready _ _ (Nat.le_refl _) rfl rfl rfl rfl) ha hf

/-- `create_binding` for a destination the session has no binding for. -/
theorem createBinding_sat (hP : Orderly P) (hclock : Clock True A) (ha : Accounts P F s)
    (hk : (s.tbl.core k).used = true)
    (hF : (∀ x, ¬F x) ∨ copyBytes noToken req.tokenAddr req.tokenLen = noToken)
    (hnew : ∀ x, (s.bind.core x).used = true → (s.bind.core x).owner = some k →
      sameDst (s.bind.core x).originalDst req.original = false) :
    Sat A (fun s' r => ∃ t, Shed s t ∧ Created P F k req t s' r) (createBinding k req s) := by
  refine (ensureBindingCapacity_sat hP ha _).bind fun t room ⟨hat, hshed⟩ => ?_
  have hnone : ∃ t', Shed s t' ∧ Created P F k req t' t none := ⟨t, hshed, .nothing hat⟩
  refine sat_ite (fun _ => ?_) fun _ => hnone
  simp only [bind_run, Worker.get_run, ret_bind]
  rcases hf : t.bind.free with _ | ⟨b, rest⟩
  · exact hnone
  · refine (fillBinding_sat hP hclock hat (by rw [hshed.beside.tbl]; exact hk) hF ?_ hf).mono
      fun s' r hc => ⟨t, hshed, hc⟩
    intro x hx ho
    have hsame := hshed.used hx
    rw [hsame] at hx ho ⊢
    exact hnew x hx ho

/-! ## Refreshing a binding -/

/-- From `s` to `t` only the record of binding `b` was replaced, by `c`. -/
structure Rewritten (b : Nat) (s : State) (c : Binding) (t : State) : Prop where
  bind : t.bind = { s.bind with core := update s.bind.core b c }
  beside : Beside s t

theorem Rewritten.refl (b : Nat) (s : State) : Rewritten b s (s.bind.core b) s :=
  ⟨by rw [Function.update_eq_self], refl_of Beside s⟩

theorem Rewritten.core (h : Rewritten b s c t) : t.bind.core b = c := by
  rw [h.bind]
  exact update_self _ _ _

theorem Rewritten.modBinding (h : Rewritten b s c t) (f : Binding → Binding) :
    Rewritten b s (f c) (t.modBinding b f) := by
  refine ⟨?_, trans_of Beside h.beside (beside_modBinding t b f)⟩
  show { t.bind with core := update t.bind.core b (f (t.bind.core b)) } = _
  rw [h.core, h.bind]
  simp

theorem Rewritten.besides (h : Rewritten b s c t) (hb : u.bind = t.bind) (hu : Beside t u) :
    Rewritten b s c u := ⟨hb.trans h.bind, trans_of Beside h.beside hu⟩

theorem Rewritten.closeReply (h : Rewritten b s c t) :
    Rewritten b s { c with replyFd := none, replyRaw := false,
                           replyFdGeneration := c.replyFdGeneration + 1 }
      (bindingCloseReply t b) := by
  have hclose : Rewritten b s c (t.closeFd (t.bind.core b).replyFd) := by
    refine h.besides ?_ (beside_closeFd t _)
    cases (t.bind.core b).replyFd <;> rfl
  exact hclose.modBinding fun c => { c with
    replyFd := none, replyRaw := false, replyFdGeneration := c.replyFdGeneration + 1 }

/-- The token bytes of binding record `c` after packet `p` was copied in. -/
def refreshedToken (c : Binding) (p : ClientPacket) : List UInt8 :=
  copyBytes c.tokenAddr p.tokenAddr (tokenLength p)

/-- The ledger property survives packet `p` refreshing binding `b` of session `k`, or failing to. -/
structure Refreshes (P : (Nat → Prop) → Ledger → Prop) (F : Nat → Prop) (k b : Nat)
    (p : ClientPacket) (s : State) : Prop where
  note : ∀ {g : Ledger} {c : Binding}, g.Of s.bind → P F g →
    SameUse { s.bind.core b with
      tokenAddr := refreshedToken (s.bind.core b) p, lastSeenMs := s.frame.nowMs } c →
    P F ((g.write b c).touch k b)
  fail : ∀ {g : Ledger} {c : Binding}, g.Of s.bind → P F g → needsReplySocket p = true →
    (s.bind.core b).replyFd = none →
    SameUse { s.bind.core b with tokenAddr := refreshedToken (s.bind.core b) p } c →
    P F (g.write b c)

/-- What packet `p` refreshing binding `b` leaves; `good` says whether it has the reply socket it
needs. -/
structure Refreshed (b : Nat) (p : ClientPacket) (s s' : State) (good : Bool) : Prop where
  owned : s'.bind.owned = s.bind.owned
  core : ∃ c, s'.bind.core = update s.bind.core b c ∧
    c.originalDst = (s.bind.core b).originalDst ∧
    c.tokenAddr = refreshedToken (s.bind.core b) p ∧
    c.connectedUdpToken = if good then p.connectedUdpToken else (s.bind.core b).connectedUdpToken
  needs : good = false → needsReplySocket p = true

variable {p : ClientPacket}

/-- Bindings other than the one rewritten keep their use, owner and past. -/
theorem Rewritten.accounts {Q : (Nat → Prop) → Ledger → Prop} (h : Rewritten b s c t)
    (ha : Accounts P F s) {g : Ledger}
    (hg : g.Of t.bind) (hp : Q F g)
    (hl : c.lastSeenMs ≤ t.trace.clock) (howned : g.owned = s.bind.owned) : Accounts Q F t := by
  refine ⟨⟨g, hg, hp⟩, fun j hj => ?_, fun x hx => ?_, ?_⟩
  · rw [← hg.owned, howned]
    exact ha.vacant j (by rw [← h.beside.tbl]; exact hj)
  · rw [h.bind] at hx ⊢
    rcases eq_or_ne x b with rfl | hne
    · simpa using hl
    · simp only [update_of_ne hne] at hx ⊢
      exact Nat.le_trans (ha.past x hx) h.beside.clock
  · rw [h.beside.nowMs]
    exact Nat.le_trans ha.started h.beside.clock

theorem Accounts.touched {Q : (Nat → Prop) → Ledger → Prop} (h : Accounts P F s) {g : Ledger}
    (hg : g.Of s.bind) (hb : b ∈ g.lru) (ho : (s.bind.core b).owner = some k)
    (hp : Q F (g.touch k b)) : Accounts Q F (bindingLruTouch s k b) :=
  ⟨⟨_, hg.touch hb ho, hp⟩, h.vacant, h.past, h.started⟩

/-- The record is brought up to date and the binding touched. -/
theorem Rewritten.noted (h : Rewritten b s c t) (ha : Accounts P F s)
    (hR : Refreshes P F k b p s) (hu : (s.bind.core b).used = true)
    (ho : (s.bind.core b).owner = some k)
    (hc : SameUse { s.bind.core b with tokenAddr := refreshedToken (s.bind.core b) p } c) :
    Accounts P F (noteBinding t k b p) ∧ Beside s (noteBinding t k b p) ∧
      Refreshed b p s (noteBinding t k b p) true := by
  obtain ⟨g, hg, hp⟩ := ha.ledger
  have hnow : t.frame.nowMs = s.frame.nowMs := h.beside.nowMs
  have h1 := h.modBinding fun c => { c with
    connectedUdpToken := p.connectedUdpToken, lastSeenMs := t.frame.nowMs }
  set c1 : Binding := { c with
    connectedUdpToken := p.connectedUdpToken, lastSeenMs := t.frame.nowMs } with hc1
  set t1 := t.modBinding b fun c => { c with
    connectedUdpToken := p.connectedUdpToken, lastSeenMs := t.frame.nowMs } with ht1
  have htouch : Beside t1 (bindingLruTouch t1 k b) := beside_of_eq rfl rfl rfl rfl
  have hwrite : (g.write b c1).Of t1.bind := by
    rw [h1.bind]
    exact hg.write hc.used hc.owner hc.dst
  have howner : (t1.bind.core b).owner = some k := by
    rw [h1.core]
    exact hc.owner.trans ho
  have hpast : c1.lastSeenMs ≤ t1.trace.clock := by
    show t.frame.nowMs ≤ _
    rw [hnow]
    exact Nat.le_trans ha.started h1.beside.clock
  have hacc : Accounts (fun _ _ => True) F t1 :=
    h1.accounts ha hwrite trivial hpast hg.owned
  refine ⟨hacc.touched hwrite (hg.used.mpr hu) howner (hR.note hg hp ?_),
    trans_of Beside h1.beside htouch, ?_, ⟨c1, ?_, hc.dst, hc.token, rfl⟩, nofun⟩
  · exact ⟨hc.used, hc.owner, hc.dst, hc.token, hnow⟩
  · show t1.bind.owned = _
    rw [h1.bind]
  · show t1.bind.core = _
    rw [h1.bind]

theorem refreshBinding_sat (ha : Accounts P F s) (hR : Refreshes P F k b p s)
    (hu : (s.bind.core b).used = true) (ho : (s.bind.core b).owner = some k) :
    Sat A (fun s' good => Accounts P F s' ∧ Beside s s' ∧ Refreshed b p s s' good)
      (refreshBinding k b p s) := by
  have h0 := (Rewritten.refl b s).besides (u := s.count .udpReplyBindingHits) rfl
    (like_count s _ _).beside
  have h1 := h0.modBinding fun c => { c with
    tokenAddr := copyBytes c.tokenAddr p.tokenAddr (tokenLength p) }
  have hcopy : (copyToken (s.count .udpReplyBindingHits) b p).bind.core b =
      { s.bind.core b with tokenAddr := refreshedToken (s.bind.core b) p } := h1.core
  set t := copyToken (s.count .udpReplyBindingHits) b p with ht
  show Sat A _ ((do
    let s ← Worker.get
    if !needsReplySocket p && (s.bind.core b).replyFd.isSome then
      Worker.modify fun s => noteBinding (bindingCloseReply s b) k b p
      pure true
    else if needsReplySocket p && (s.bind.core b).replyFd.isNone then
      let r ← replySocketCreate (s.bind.core b).originalDst (.reply b)
      match r with
      | none => pure false
      | some (fd, raw) =>
          Worker.modify fun s => noteBinding (bindingSetReply s b fd raw) k b p
          pure true
    else
      Worker.modify fun s => noteBinding s k b p
      pure true : Worker Bool) t)
  simp only [bind_run, Worker.get_run, ret_bind, hcopy]
  refine sat_ite (fun _ => ?_) fun _ => sat_ite (fun hn => ?_) fun _ => ?_
  · exact h1.closeReply.noted ha hR hu ho ⟨rfl, rfl, rfl, rfl, rfl⟩
  · refine ((replySocketCreate_bind _ _ _).and (keeps_replySocketCreate _ _ _)).bind
      fun u r ⟨hbind, hb⟩ => ?_
    have h2 := h1.besides hbind hb
    rcases r with _ | ⟨fd, raw⟩
    · -- the token is there, but the binding is neither seen nor touched
      obtain ⟨g, hg, hp⟩ := ha.ledger
      simp only [Bool.and_eq_true, Option.isNone_iff_eq_none] at hn
      set c : Binding := { s.bind.core b with tokenAddr := refreshedToken (s.bind.core b) p }
      have hp' : P F (g.write b c) := hR.fail hg hp hn.1 hn.2 (SameUse.refl c)
      have hg' : (g.write b c).Of u.bind := by
        rw [h2.bind]
        exact hg.write rfl rfl rfl
      have hcore : u.bind.core = update s.bind.core b c := by
        rw [h2.bind]
        rfl
      have howned : u.bind.owned = s.bind.owned := by rw [h2.bind]
      exact ⟨h2.accounts ha hg' hp' (Nat.le_trans (ha.past b hu) h2.beside.clock) hg.owned,
        h2.beside, howned, ⟨c, hcore, rfl, rfl, rfl⟩, fun _ => hn.1⟩
    · have h3 := h2.modBinding fun c => { c with
        replyFd := some fd, replyRaw := raw, replyFdGeneration := c.replyFdGeneration + 1 }
      exact h3.noted ha hR hu ho ⟨rfl, rfl, rfl, rfl, rfl⟩
  · exact h1.noted ha hR hu ho ⟨rfl, rfl, rfl, rfl, rfl⟩

end Bpf2Socks.Udp

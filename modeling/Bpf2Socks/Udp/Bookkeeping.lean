/-
# Bpf2Socks.Udp.Bookkeeping — every step of the worker keeps the binding ledger in order.

`Booked P s` is the invariant of whole runs: the ledger has property `P` with the bindings at hand
that the batch of replies is for, and these belong to the session the replies are for.  A step that
starts where its location's `Meets P` holds keeps it: what refreshing a binding, answering through
it or flushing its queue does to `P` is what `Meets` asks about, everything else `Orderly P` says.
-/
import Bpf2Socks.Udp.Delivering
import Bpf2Socks.Udp.SessionRuns

namespace Bpf2Socks.Udp

open Function (update update_self update_of_ne)
open Lib (Prog Act DLists)
open Lib.Prog Lib.Act
open Worker hiding get modify ask diverge

variable {A : State → (q : Sys) → q.Ans → Prop} {C : Loc → State → Prop}
  {P : (Nat → Prop) → Ledger → Prop} {F : Nat → Prop} {cfg : WorkerConfig} {k b : Nat} {l : Loc}
  {s s' t : State} {p : ClientPacket} {m : Msg}

/-! ## Opening a session -/

theorem steady_pushFree (s : State) (k : Nat) : Steady s { s with tbl := s.tbl.pushFree k } :=
  steady_of_eq rfl rfl (fun _ => rfl) rfl rfl

theorem Aside.steady (h : Aside s t) : Steady s t := by
  obtain ⟨rel, mask, -, n, rfl, hn⟩ := h
  exact ⟨hn, ⟨s.bind.core, fun _ => .refl _, rfl⟩, fun _ hk => hk, rfl, rfl⟩

theorem steady_attach (s : State) (k : Nat) : Steady s { s with tbl := s.tbl.attach k } :=
  steady_of_eq rfl rfl (update_field (π := SessCore.used) rfl) rfl rfl

theorem steady_releaseNoteNewSession (s : State) (k now : Nat) :
    Steady s (releaseNoteNewSession s k now) := by
  unfold releaseNoteNewSession
  dsimp only
  split
  · split
    · exact .refl s
    · exact (steady_setRetry s k _).trans (steady_rel _ _)
  · exact .refl s

theorem tends_abandonSession (hP : Orderly P) (k : Nat) :
    Keeps A (Tends P F) (abandonSession k) := by
  have hclose : Keeps A (Tends P F) (sessionClose k) := by
    intro s
    by_cases hu : (s.tbl.core k).used = true
    · exact (sessionClose_sat hu).mono fun s' _ hl =>
        trans_of (Tends P F) (tends_closeState hP s k) (hl.steady.tends hP)
    · simp only [sessionClose, bind_run, Worker.get_run, ret_bind, hu]
      exact refl_of (Tends P F) s
  exact hclose.bind fun _ => keeps_modify fun s => (steady_pushFree s k).tends hP

theorem tends_linkSession (hP : Orderly P) (k fd : Nat) {stage : Stage} :
    Keeps A (Tends P F) (linkSession k fd stage) := by
  refine (keeps_modify fun s => Steady.tends hP ?_).bind fun _ =>
    (keeps_modify fun s => (steady_attach s k).tends hP).bind fun _ =>
    (Tends.steady hP (keeps_epollAddSessionControl handshaken_steady _)).bind fun added =>
    keeps_ite ?_ ((tends_sessionDrop hP k).bind fun _ => keeps_pure _)
  · exact Steady.trans (t := s.modAssoc k fun a => { a with tcpFd := some fd })
      (steady_of_eq rfl rfl (fun _ => rfl) rfl rfl) (steady_setStage _ k stage)
  · exact (keeps_modify fun s => (steady_releaseNoteNewSession s k _).tends hP).bind fun _ =>
      keeps_pure _

theorem tends_connectSession (hP : Orderly P) (k : Nat) :
    Keeps A (Tends P F) (connectSession k) := by
  have hgive : Keeps A (Tends P F) (do abandonSession k; pure none : Worker (Option Nat)) :=
    (tends_abandonSession hP k).bind fun _ => keeps_pure _
  unfold connectSession
  rcases associateBuildRequest with _ | bytes
  · exact hgive
  · refine (keeps_modify fun s => Steady.tends hP ?_).bind fun _ =>
      keeps_associateOpen hgive fun fd stage _ => tends_linkSession hP k fd
    exact steady_of_eq rfl rfl (fun _ => rfl) rfl rfl

/-- The record of a slot without bindings is filled. -/
theorem tends_initSession (hP : Orderly P) (hk : s.bind.owned k = []) :
    Tends P F s (initSession s k p) := by
  have hclear : Tends P F s (clearSession s k) := by
    refine ⟨fun h => h.clearSession hk, fun j => ?_⟩
    show update s.bind.owned k [] j ⊆ _
    rw [← hk, Function.update_eq_self]
    exact List.Subset.refl _
  refine trans_of (Tends P F) hclear (Steady.tends hP ?_)
  refine ⟨Nat.le_refl _, ⟨_, fun _ => .refl _, rfl⟩, fun j hj => ?_, rfl, rfl⟩
  show (update (clearSession s k).tbl.core k _ j).used = true
  rcases eq_or_ne j k with rfl | hne
  · rw [update_self]
  · rw [update_of_ne hne]
    exact hj

theorem tends_openSession (hP : Orderly P) (hk : s.bind.owned k = []) :
    Sat A (fun s' _ => Tends P F s s') (openSession k p s) := by
  have hrest : Keeps A (Tends P F) (do
      let now ← nowMs
      Worker.modify fun s => s.modCore k fun c => { c with lastSeenMs := now }
      connectSession k : Worker (Option Nat)) := by
    refine (Tends.quiet hP quiet_nowMs).bind fun _ => Keeps.bind (keeps_modify fun s => ?_) fun _ =>
      tends_connectSession hP k
    exact Steady.tends hP (steady_modCore fun _ => rfl)
  exact (hrest (initSession s k p)).mono fun _ _ h =>
    trans_of (Tends P F) (tends_initSession hP hk) h

theorem tends_takeSlot (hP : Orderly P) (s : State) (k : Nat) : Tends P F s (takeSlot s k) := by
  unfold takeSlot
  dsimp only
  split
  · refine trans_of (Tends P F) (tends_dropState hP s k) (Steady.tends hP ?_)
    exact steady_of_eq rfl rfl (fun _ => rfl) rfl rfl
  · exact Steady.tends hP (steady_of_eq rfl rfl (fun _ => rfl) rfl rfl)

/-- A session that was just opened has no bindings. -/
def Fresh (P : (Nat → Prop) → Ledger → Prop) (F : Nat → Prop) (s' : State) (r : Option Nat) : Prop :=
  Accounts P F s' ∧ ∀ k, r = some k → s'.bind.owned k = []

theorem allocOpen_accounts (hP : Orderly P) (hclock : Clock True A) (hs : Sessions True s)
    (ha : Accounts P F s) (hfind : s.tbl.find p.clientAddr = none)
    (hwatch : sockaddrIsLoopback p.clientAddr = true → s.rel.armed = true) :
    Sat A (fun s' r => Fresh P F s' r) (allocOpen p s) := by
  refine (allocSession_sat hs).bind fun t r ⟨hr, ht⟩ => ?_
  rcases r with _ | k
  · obtain rfl : t = s := ht
    exact ⟨ha, fun _ h => by simp at h⟩
  · obtain ⟨hopen, -, hunused, -⟩ := opening_takeSlot hs hfind hr.symm hwatch
    have htake := (tends_takeSlot (F := F) hP s k).keeps ha
    have hbare : t.bind.owned k = [] := by
      rw [(Like.steady ht).owned]
      exact htake.vacant k hunused
    refine ((openSession_sat hclock (hopen.beside (Like.beside ht))).and
      (tends_openSession (F := F) hP hbare)).mono fun s' r ⟨ho, hT⟩ => ⟨hT.keeps ?_, fun j hj => ?_⟩
    · exact (Like.steady ht).accounts hP htake
    · rcases ho.result with ⟨h, -⟩ | ⟨h, -⟩
      · obtain rfl : k = j := Option.some.inj (h.symm.trans hj)
        exact hT.bare hbare
      · simp [h] at hj

theorem sessionGet_none_accounts (hP : Orderly P) (hclock : Clock True A) (hs : Sessions True s)
    (ha : Accounts P F s) (hfind : s.tbl.find p.clientAddr = none) :
    Sat A (fun s' r => Fresh P F s' r) (sessionGet p none s) := by
  refine sessionGet_none_of hs fun t ht hw => ?_
  have hst := (ht.evolve (M := True) (U := Nobody) (W := Nobody) (D := Nobody)).sessions hs (by simp)
  have hat := ht.steady.accounts hP ha
  obtain ⟨rel, mask, -, n, rfl, -⟩ := ht
  exact allocOpen_accounts hP hclock hst.1 hat hfind hw

/-- The session of a known client is seen. -/
theorem sessionGet_some_steady (k : Nat) (p : ClientPacket) :
    Sat A (fun s' r => (Steady s s' ∧ s'.bind = s.bind) ∧ r = some k)
      (sessionGet p (some k) s) := by
  intro now _
  refine ⟨⟨?_, ?_⟩, rfl⟩
  · refine (like_clock s now).steady.trans ((steady_seenSession _ k now).trans ?_)
    refine (steady_noteLookupMode _ k p.tokenLookupMode).trans ?_
    exact ((like_count _ _ _).trans (like_count _ _ _)).steady
  · show (noteLookupMode _ k p.tokenLookupMode).bind = s.bind
    unfold noteLookupMode
    split <;> rfl

/-! ## Client datagrams -/

/-- What refreshing does depends on the bindings and on when the batch was received. -/
theorem Refreshes.congr (h : Refreshes P F k b p s) (hb : t.bind = s.bind)
    (hn : t.frame.nowMs = s.frame.nowMs) : Refreshes P F k b p t := by
  refine ⟨fun {g c} hg hp hc => ?_, fun {g c} hg hp hneed hfd hc => ?_⟩
  · rw [hb] at hg hc
    rw [hn] at hc
    exact h.note hg hp hc
  · rw [hb] at hg hc hfd
    exact h.fail hg hp hneed hfd hc

theorem steady_clientForward (k : Nat) (p : ClientPacket) : Keeps A Steady (clientForward k p) := by
  refine keeps_get.bind fun s => keeps_ite ?_
    (keeps_modify fun s => steady_of_eq rfl rfl (fun _ => rfl) rfl rfl)
  refine (keeps_sessionQueuePending seeing_steady _ _ _).bind fun r => ?_
  rcases r with e | _
  · cases e <;> exact serving_steady.quiet (quiet_count _ _)
  · exact keeps_pure ()

/-- `clientBind` once the index was searched. -/
def clientFound (k : Nat) (p : ClientPacket) (found : Option Nat) : Worker Unit := do
  match found with
  | none =>
      let created ← bindingCreateForPacket k p
      match created with
      | none => pure ()
      | some _ => clientForward k p
  | some b =>
      let good ← refreshBinding k b p
      if good then clientForward k p

theorem clientBind_accounts (hP : Orderly P) (hclock : Clock True A) (ha : Accounts P Nobody s)
    (hu : (s.tbl.core k).used = true)
    (hR : ∀ b, s.bind.indexFind k p.originalDst = some b → Refreshes P Nobody k b p s) :
    Sat A (fun s' _ => Accounts P Nobody s') (clientBind k p s) := by
  have hforward : ∀ t, Accounts P Nobody t →
      Sat A (fun s' _ => Accounts P Nobody s') (clientForward k p t) := fun t ht =>
    (steady_clientForward k p t).mono fun _ _ h => h.accounts hP ht
  set t := s.count .udpBindingHashLookups with ht
  have hat : Accounts P Nobody t := (like_count s _ _).steady.accounts hP ha
  obtain ⟨g, hg, -⟩ := ha.ledger
  show Sat A _ (clientFound k p (s.bind.indexFind k p.originalDst) t)
  rcases hf : s.bind.indexFind k p.originalDst with _ | b
  · refine (createBinding_sat hP hclock hat hu (.inl fun _ => id) fun x hx ho => ?_).bind
      fun u created ⟨_, _, hc⟩ => ?_
    · exact hg.inv.of_indexFind_none hf (hg.used.mpr hx) ho
    · rcases created with _ | b
      · exact hc.accounts
      · exact hforward u hc.accounts
  · obtain ⟨hb, ho, -⟩ := hg.inv.indexFind_some.mp hf
    have hR' : Refreshes P Nobody k b p t := (hR b hf).congr rfl rfl
    refine (refreshBinding_sat hat hR' (hg.used.mp hb) ho).bind fun u good hu => ?_
    cases good with
    | false => exact hu.1
    | true => exact hforward u hu.1

theorem clientSession_accounts (hP : Orderly P) (hclock : Clock True A) (hs : Sessions True s)
    (ha : Accounts P Nobody s) {existing : Option Nat} (hat : AtLoc s (.clientSession p existing))
    (hR : ∀ k b, existing = some k → s.bind.indexFind k p.originalDst = some b →
      Refreshes P Nobody k b p s) :
    Sat A (fun s' _ => Accounts P Nobody s') (clientSession p existing s) := by
  rcases existing with _ | k
  · refine ((sessionGet_none_sat hclock hs hat.2).and
      (sessionGet_none_accounts hP hclock hs ha hat.2)).bind fun t r ⟨ht, hta, hbare⟩ => ?_
    rcases r with _ | k
    · exact hta
    · have hnew : New p s t k := by
        rcases ht.target k (ht.result k rfl) with h | h
        · exact h.2
        · simp at h
      refine (clientBind_accounts hP hclock hta hnew.used fun b hf => ?_).bind fun _ _ h => h
      -- a new session has no binding that could be found
      obtain ⟨g, hg, -⟩ := hta.ledger
      obtain ⟨hb, ho, -⟩ := hg.inv.indexFind_some.mp hf
      have howned := hg.inv.mem_owned.mpr ⟨hb, ho⟩
      rw [hbare k rfl] at howned
      exact absurd howned List.not_mem_nil
  · refine (sessionGet_some_steady k p).bind fun t r ⟨⟨hst, hbind⟩, hr⟩ => ?_
    subst hr
    refine (clientBind_accounts hP hclock (hst.accounts hP ha) (hst.used k hat.2.1)
      fun b hf => ?_).bind fun _ _ h => h
    exact (hR k b rfl (hbind ▸ hf)).congr hbind hst.started

theorem steady_clientResolved (p : ClientPacket) (existing : Option Nat) :
    Keeps A Steady (clientResolved p existing) := by
  have hrest : Keeps A Steady (do
      let s ← Worker.get
      if dnsIsCandidate s.cfg p then
        let taken ← dnsStep (.prepareQuery p s.frame.nowMs)
        pure (if taken then .clientPacket else .clientSession p existing)
      else pure (.clientSession p existing) : Worker Loc) :=
    keeps_get.bind fun s => keeps_ite
      ((serving_steady.quiet (quiet_dnsStep _)).bind fun _ => keeps_pure _) (keeps_pure _)
  cases existing with
  | none => exact hrest
  | some k => exact (keeps_modify fun s => steady_noteLookupMode s k _).bind fun _ => hrest

theorem steady_tokenMiss (notify : Option ClientPacket) : Keeps A Steady (tokenMiss notify) := by
  refine (serving_steady.quiet (quiet_count _ _)).bind fun _ => ?_
  cases notify with
  | none => exact keeps_pure _
  | some p => exact (keeps_ask _).bind fun _ => keeps_pure _

theorem steady_clientNext : Keeps A Steady clientNext := by
  refine keeps_get.bind fun s => ?_
  split
  · exact (serving_steady.quiet (quiet_dnsStep _)).bind fun _ => keeps_pure _
  · rename_i d rest _
    refine (keeps_modify fun s => ?_).bind fun _ =>
      keeps_ite ((serving_steady.quiet (quiet_count _ _)).bind fun _ => keeps_pure _)
      ((serving_steady.quiet (quiet_count _ _)).bind fun _ => ?_)
    · exact steady_of_eq rfl rfl (fun _ => rfl) rfl rfl
    split
    · exact steady_tokenMiss none
    · -- the two lookups only ask
      have hlookup : ∀ p pref now, Keeps A Steady (tokenLookupOriginal p pref now) :=
        fun p pref now s => (tokenLookupOriginal_sat p pref now s).mono fun _ _ h =>
          h.1 ▸ .refl s
      have hrecover : ∀ session p, Keeps A Steady (tokenRecoverConnected session p) :=
        fun session p s => (tokenRecoverConnected_sat session p s).mono fun _ _ h =>
          h.1 ▸ .refl s
      refine (hlookup _ _ _).bind fun r => keeps_ite (steady_clientResolved _ _)
        ((hrecover _ _).bind fun r' => ?_)
      split
      · exact steady_clientResolved _ _
      · exact steady_tokenMiss _

/-- A batch is received at the time just read. -/
theorem clientReceive_accounts (hP : Orderly P) (ha : Accounts P F s) (fd : Nat) :
    Sat A (fun s' _ => Accounts P F s') (clientReceive fd s) := by
  simp only [clientReceive, bind_run, Worker.get_run, ret_bind]
  intro r _
  rcases r with e | datagrams
  · exact ha
  · intro now _
    have hread := like_clock s now
    refine (quiet_dnsStep (A := A) _ _).bind fun t _ ht => ?_
    have hat := (hread.trans ht).steady.accounts hP ha
    have hnow : now ≤ t.trace.clock := Nat.le_trans (Nat.le_max_right _ _) ht.beside.clock
    exact ⟨hat.ledger, hat.vacant, hat.past, hnow⟩

theorem tends_flushGroup (hP : Orderly P) (o : Outgoing) : Keeps A (Tends P F) (flushGroup o) := by
  refine keeps_get.bind fun s => (keeps_modify fun s => ?_).bind fun _ =>
    (Tends.quiet hP (quiet_relaySendBatch _ _)).bind fun sent => (keeps_modify fun s => ?_).bind
      fun _ => keeps_ite ?_ (keeps_pure _)
  · exact Steady.tends hP (steady_of_eq rfl rfl (fun _ => rfl) rfl rfl)
  · exact Steady.tends hP (steady_of_eq rfl rfl (fun _ => rfl) rfl rfl)
  · exact (Tends.quiet hP (quiet_count _ _)).bind fun _ => tends_sessionDrop hP _

theorem tends_clientFlush (hP : Orderly P) : Keeps A (Tends P F) clientFlush := by
  refine keeps_get.bind fun s => ?_
  split
  · exact keeps_pure _
  · exact (tends_flushGroup hP _).bind fun _ => keeps_pure _

/-! ## Relay datagrams -/

/-- Binding `b` may be put at hand. -/
def Joins (P : (Nat → Prop) → Ledger → Prop) (F : Nat → Prop) (b : Nat) (s : State) : Prop :=
  ∀ g : Ledger, g.Of s.bind → P F g → P (fun x => F x ∨ x = b) g

theorem Batched.join (h : Batched P F k s) (hj : Joins P F b s)
    (hu : (s.bind.core b).used = true) (ho : (s.bind.core b).owner = some k) :
    Batched P (fun x => F x ∨ x = b) k s := by
  obtain ⟨g, hg, hp⟩ := h.accounts.ledger
  exact h.more ⟨⟨g, hg, hj g hg hp⟩, h.accounts.vacant, h.accounts.past, h.accounts.started⟩ hu ho

/-- A reply whose binding is at hand. -/
theorem sendReply_batched (hP : Orderly P) (hclock : Clock True A) (h : Batched P F k s)
    (hF : F b) (m : Msg) : Sat A (fun s' _ => Batched P (AtHand s') k s') (sendReply k b m s) :=
  (fares_sendReply hP hclock hF m s).mono fun _ _ hf => (hf h).fewer hP

/-- `bindReply` once the index was searched. -/
def bindFound (k : Nat) (m : Msg) (found : Option Nat) : Worker Bool := do
  match found with
  | some b =>
      count .udpReplyBindingHits
      Worker.modify fun s => bindingLruTouch s k b
      sendReply k b m
  | none =>
      let created ← bindingCreateFullcone k m.addr
      match created with
      | some b => sendReply k b m
      | none =>
          count .udpDropsMalformedSocks5
          Worker.modify fun s => dropMessage s k m .noBinding
          pure true

theorem bindReply_batched (hP : Orderly P) (hclock : Clock True A) (h : Batched P F k s)
    (hjoin : ∀ b, s.bind.indexFind k m.addr = some b → Joins P F b s)
    (hspare : s.bind.indexFind k m.addr = none → ∀ b, F b → s.evicts b = false) :
    Sat A (fun s' _ => Batched P (AtHand s') k s') (bindReply k m s) := by
  set t := s.count .udpBindingHashLookups with ht
  have hbt : Batched P F k t := (like_count s _ _).steady.fares hP h
  obtain ⟨g, hg, -⟩ := h.accounts.ledger
  show Sat A _ (bindFound k m (s.bind.indexFind k m.addr) t)
  rcases hf : s.bind.indexFind k m.addr with _ | b
  · -- a binding is made, which has no token
    have hnotoken : copyBytes noToken [] 0 = noToken := rfl
    refine (createBinding_sat hP hclock hbt.accounts hbt.used (.inr hnotoken) fun x hx ho => ?_).bind
      fun u created ⟨v, hshed, hc⟩ => ?_
    · exact hg.inv.of_indexFind_none hf (hg.used.mpr hx) ho
    · have hbu : Batched P F k u := by
        have hbeside := trans_of Beside hshed.beside hc.beside
        have hk : (u.tbl.core k).used = true := by
          rw [hbeside.tbl]
          exact hbt.used
        have hsession : BatchOf k u := by
          have := hbt.session
          unfold BatchOf at this ⊢
          rwa [hbeside.batch]
        refine ⟨hc.accounts, hk, fun x hx => ?_, fun x ⟨e, he⟩ => ?_, hsession⟩
        · obtain ⟨hu, ho⟩ := hbt.hand x hx
          have hstays := hshed.kept (show t.evicts x = false from hspare hf x hx)
          rw [hc.kept x (hstays ▸ hu), hstays]
          exact ⟨hu, ho⟩
        · exact hbt.entries x ⟨e, hbeside.batch ▸ he⟩
      rcases created with _ | b
      · have hlike := (like_count u .udpDropsMalformedSocks5 1).steady
        have hdrop : Steady (u.count .udpDropsMalformedSocks5)
            (dropMessage (u.count .udpDropsMalformedSocks5) k m .noBinding) :=
          steady_of_eq rfl rfl (fun _ => rfl) rfl rfl
        exact ((hlike.trans hdrop).fares hP hbu).fewer hP
      · obtain ⟨hu, ho, -, htoken, -⟩ := hc.made b rfl
        refine sendReply_batched hP hclock (hbu.join (fun g hg hp => hP.welcome ?_ hp) hu ho) (.inr rfl) m
        rw [hg.core]
        show ((u.bind.core b).tokenAddr != noToken) = false
        rw [htoken]
        exact bne_self_eq_false _
  · obtain ⟨hb, ho, -⟩ := hg.inv.indexFind_some.mp hf
    have hjoined := (h.join (hjoin b hf) (hg.used.mp hb) ho)
    have hcounts := ((like_count s .udpBindingHashLookups 1).trans
      (like_count t .udpReplyBindingHits 1)).steady.fares hP hjoined
    exact sendReply_batched hP hclock (fares_touch hP (.inr rfl) hcounts) (.inr rfl) m

/-- One step of the walk by port: the better of the best binding so far and `b`. -/
def laterBinding (s : State) (port : UInt16) (best : Option Nat) (b : Nat) : Option Nat :=
  let c := s.bind.core b
  if c.used && c.originalDst.port = port && bindingHasToken c then
    match best with
    | none => some b
    | some b' => if c.lastSeenMs > (s.bind.core b').lastSeenMs then some b else some b'
  else best

/-- What is found by port is one of the session's bindings. -/
theorem bindingFindByDomainPort_mem {port : UInt16}
    (h : bindingFindByDomainPort s k port = some b) : b ∈ s.bind.owned k := by
  have hfold : ∀ (l : List Nat) (best : Option Nat), (∀ x, best = some x → x ∈ s.bind.owned k) →
      (∀ x ∈ l, x ∈ s.bind.owned k) →
      ∀ b, l.foldl (laterBinding s port) best = some b → b ∈ s.bind.owned k := by
    intro l
    induction l with
    | nil => exact fun best hbest _ => hbest
    | cons x l ih =>
        intro best hbest hl
        refine ih _ (fun y hy => ?_) fun y hy => hl y (List.mem_cons_of_mem x hy)
        have hx : x ∈ s.bind.owned k := hl x List.mem_cons_self
        dsimp only [laterBinding] at hy
        split at hy
        · cases best with
          | none => exact Option.some.inj hy ▸ hx
          | some z =>
              dsimp only at hy
              split at hy
              · exact Option.some.inj hy ▸ hx
              · exact hbest y hy
        · exact hbest y hy
  exact hfold _ none (fun _ h => by simp at h) (fun _ => id) b h

/-- What the reply `m` for session `k` asks of the bindings. -/
structure Answerable (P : (Nat → Prop) → Ledger → Prop) (F : Nat → Prop) (k : Nat) (m : Msg)
    (s : State) : Prop where
  found : m.error = none → m.addr.family ≠ .unspec → ∀ b,
    s.bind.indexFind k m.addr = some b → Joins P F b s
  spare : m.error = none → m.addr.family ≠ .unspec → s.bind.indexFind k m.addr = none →
    ∀ b, F b → s.evicts b = false
  domain : m.error = none → m.addr.family = .unspec → ∀ b,
    bindingFindByDomainPort s k m.addr.port = some b → Joins P F b s

/-- `upstreamMessage` for a reply named by domain, once a binding was looked for in `s`. -/
def answerDomain (k : Nat) (m : Msg) (s : State) (found : Option Nat) : Worker Bool := do
  match found with
  | none =>
      count .udpDropsMalformedSocks5
      Worker.modify fun s => dropMessage s k m .noDomainBinding
      pure true
  | some b =>
      let dst := (s.bind.core b).originalDst
      Worker.modify fun s => readdressMessage s dst
      bindReply k { m with addr := dst, error := none }

theorem upstreamMessage_batched (hP : Orderly P) (hclock : Clock True A) (h : Batched P F k s)
    (hm : Answerable P F k m s) :
    Sat A (fun s' _ => Batched P (AtHand s') k s') (upstreamMessage k m s) := by
  have hsteady : ∀ {t}, Steady s t → Batched P (AtHand t) k t := fun ht =>
    (ht.fares hP h).fewer hP
  have hcount := (like_count s .udpPacketsFromUpstream 1).steady
  have hdrop : ∀ c why, Steady (s.count .udpPacketsFromUpstream)
      (dropMessage ((s.count .udpPacketsFromUpstream).count c) k m why) := fun c why =>
    (like_count _ c 1).steady.trans (steady_of_eq rfl rfl (fun _ => rfl) rfl rfl)
  unfold upstreamMessage
  simp only [bind_run, Worker.count_run, ret_bind]
  rcases he : m.error with _ | e
  · refine sat_ite (fun hf => ?_) fun hf => ?_
    · simp only [bind_run, Worker.get_run, ret_bind]
      show Sat A _ (answerDomain k m (s.count .udpPacketsFromUpstream)
        (bindingFindByDomainPort s k m.addr.port) (s.count .udpPacketsFromUpstream))
      rcases hb : bindingFindByDomainPort s k m.addr.port with _ | b
      · exact hsteady (hcount.trans (hdrop _ _))
      · -- the binding found by port is the one found by its address
        obtain ⟨g, hg, -⟩ := h.accounts.ledger
        have hmem := hg.inv.mem_owned.mp (bindingFindByDomainPort_mem hb)
        have hfind : s.bind.indexFind k (s.bind.core b).originalDst = some b :=
          hg.inv.indexFind_some.mpr ⟨hmem.1, hmem.2, sameDst_refl _⟩
        set t := readdressMessage (s.count .udpPacketsFromUpstream) (s.bind.core b).originalDst with ht
        have hst : Steady s t := by
          refine hcount.trans ?_
          rw [ht, readdressMessage]
          split
          · exact .refl _
          · exact steady_of_eq rfl rfl (fun _ => rfl) rfl rfl
        have hbind : t.bind = s.bind := by
          rw [ht, readdressMessage]
          split <;> rfl
        refine bindReply_batched hP hclock (hst.fares hP h) (fun x hx => ?_) fun hx => ?_
        · have hfind' : t.bind.indexFind k (s.bind.core b).originalDst = some x := hx
          rw [hbind, hfind] at hfind'
          obtain rfl : b = x := Option.some.inj hfind'
          intro g hg
          exact hm.domain he hf b hb g (hbind ▸ hg)
        · have hfind' : t.bind.indexFind k (s.bind.core b).originalDst = none := hx
          rw [hbind, hfind] at hfind'
          simp at hfind'
    · exact bindReply_batched hP hclock (hcount.fares hP h) (hm.found he hf) (hm.spare he hf)
  · exact hsteady (hcount.trans (hdrop _ _))

theorem upstreamNext_batched (hP : Orderly P) (hclock : Clock True A)
    (h : Batched P (AtHand s) s.frame.session s)
    (hm : ∀ m rest, s.frame.messages = m :: rest → Answerable P (AtHand s) s.frame.session m s) :
    Sat A (fun s' _ => Batched P (AtHand s') s.frame.session s') (upstreamNext s) := by
  have hcount : ∀ t c, Batched P (AtHand t) s.frame.session t →
      Batched P (AtHand (t.count c)) s.frame.session (t.count c) := fun t c ht =>
    (like_count t c 1).steady.fares hP ht
  have hflush : Keeps A (Fares P (AtHand s) s.frame.session) downlinkBatchFlush :=
    fares_downlinkBatchFlush hP hclock
  simp only [upstreamNext, bind_run, Worker.get_run, ret_bind]
  rcases hmsg : s.frame.messages with _ | ⟨m, rest⟩
  · refine (hflush s).bind fun t flushed ht => ?_
    have hbt := (ht h).fewer hP
    cases flushed with
    | true => exact hbt
    | false => exact hcount t _ hbt
  · refine (upstreamMessage_batched hP hclock h (hm m rest hmsg)).bind fun t good ht => ?_
    cases good with
    | true => exact ht
    | false => exact hcount t _ ht

theorem Accounts.resetBatch (h : Accounts P F s) :
    Accounts P F { s with frame := { s.frame with messages := [], batch := .init } } :=
  ⟨h.ledger, h.vacant, h.past, h.started⟩

theorem upstreamDone_accounts (hP : Orderly P) (ha : Accounts P F s) (failed : Bool) :
    Sat A (fun s' _ => Accounts P F s') (upstreamDone failed s) := by
  simp only [upstreamDone, bind_run, Worker.get_run, ret_bind]
  refine ((Tends.quiet (F := F) hP quiet_releaseReservation) s).bind fun t _ ht => ?_
  have hat := ht.keeps ha
  cases failed with
  | false => exact hat.resetBatch
  | true =>
      exact (tends_sessionDrop hP _ t).bind fun u _ hu => (hu.keeps hat).resetBatch

theorem tends_upstreamReceive (hP : Orderly P) (k : Nat) :
    Keeps A (Tends P F) (upstreamReceive k) := by
  have hrelease := Tends.quiet (A := A) (F := F) hP quiet_releaseReservation
  refine keeps_get.bind fun s => (Tends.quiet hP (quiet_reserveSlots _)).bind fun reserved => ?_
  cases reserved with
  | none =>
      refine ((keeps_modify fun s => (serving_steady.markWaiting s k).tends hP).bind fun _ =>
        (Tends.steady hP (serving_steady.setPaused k true)).bind fun _ =>
        keeps_ite ?_ (keeps_pure _)).bind fun _ => keeps_pure _
      exact (Tends.quiet hP (quiet_count _ _)).bind fun _ => tends_sessionDrop hP k
  | some n =>
      refine (Tends.quiet hP (keeps_socks5UdpRecvmmsg _ _)).bind fun r => ?_
      split
      · refine hrelease.bind fun _ => Keeps.bind ?_ fun _ => keeps_pure _
        exact keeps_ite (Tends.quiet hP (quiet_count _ _))
          (keeps_ite (tends_sessionDrop hP k) (keeps_pure _))
      · exact hrelease.bind fun _ => keeps_pure _
      · refine (keeps_modify fun s => ?_).bind fun _ => keeps_pure _
        exact ⟨fun h => ⟨h.ledger, h.vacant, h.past, h.started⟩, fun _ => List.Subset.refl _⟩

/-! ## Flushing a channel -/

/-- A packet for binding `b` waits in channel `id` of session `k`. -/
def Queueing (s : State) (k id b : Nat) : Prop :=
  ∃ ch ∈ (s.down k).channels, ch.id = id ∧ ∃ p ∈ ch.queue, p.binding = b

/-- From `s` to `s'` no packet was put into channel `id` of session `k`. -/
def Thins (k id : Nat) (s s' : State) : Prop := ∀ b, Queueing s' k id b → Queueing s k id b

instance (k id : Nat) : IsPreorder State (Thins k id) where
  refl _ _ h := h
  trans _ _ _ h h' b := h b ∘ h' b

theorem thins_of_down {id : Nat} (h : s'.down = s.down) : Thins k id s s' := by
  intro b ⟨ch, hch, hb⟩
  exact ⟨ch, h ▸ hch, hb⟩

theorem Like.thins {id : Nat} (h : Like s s') : Thins k id s s' := by
  obtain ⟨n, rfl, -⟩ := h
  exact thins_of_down rfl

theorem thins_deliver {id : Nat} (s : State) (j fd : Nat) (src : SockKind → Source) (m : Msg) :
    Thins k id s (s.deliver j fd src m) := by
  refine thins_of_down ?_
  unfold State.deliver
  split <;> rfl

theorem thins_sendDownlinkChannelPacket {id : Nat} (ch : Channel) (p : DownPacket) :
    Keeps A (Thins k id) (sendDownlinkChannelPacket k ch p) := by
  refine keeps_ite ?_ ?_
  · refine Keeps.bind (keeps_get.bind fun s => keeps_ite (keeps_pure _)
      (keeps_ite (keeps_pure _) ((keeps_ask _).bind fun r => ?_))) fun r => ?_
    · cases r with
      | error e => exact keeps_pure _
      | ok n =>
          exact keeps_ite ((keeps_modify fun s => thins_deliver s _ _ _ _).bind fun _ =>
            keeps_pure _) (keeps_pure _)
    · cases r <;> exact keeps_pure _
  · refine Keeps.bind ((keeps_ask _).bind fun r => ?_) fun _ => keeps_pure _
    cases r with
    | error e => exact keeps_pure _
    | ok n =>
        refine (keeps_modify fun s => ?_).bind fun _ => keeps_pure _
        induction List.take n [(p.binding, p.msg)] generalizing s with
        | nil => exact refl_of (Thins k id) s
        | cons e rest ih => exact trans_of (Thins k id) (thins_deliver s _ _ _ e.2) (ih _)

theorem thins_popPacket (s : State) (k id : Nat) (p : DownPacket) :
    Thins k id s (popPacket s k id p) := by
  intro b ⟨ch, hch, hid, q, hq, hb⟩
  have hmap : ch ∈ (s.down k).channels.map fun ch =>
      if ch.id = id then { ch with queue := ch.queue.tail } else ch := by
    have hdown : (popPacket s k id p).down k = { s.down k with
        channels := (s.down k).channels.map fun ch =>
          if ch.id = id then { ch with queue := ch.queue.tail } else ch } := update_self _ _ _
    rw [hdown] at hch
    exact hch
  obtain ⟨ch', hch', rfl⟩ := List.mem_map.mp hmap
  by_cases h : ch'.id = id
  · rw [if_pos h] at hq
    exact ⟨ch', hch', h, q, List.mem_of_mem_tail hq, hb⟩
  · rw [if_neg h] at hid
    exact absurd hid h

theorem thins_releaseDownlinkPacket {id : Nat} (p : DownPacket) :
    Keeps A (Thins k id) (releaseDownlinkPacket k p) := by
  have hpending : Keeps A (Thins k id) (Worker.modify fun s => s.modBinding p.binding fun c =>
      { c with downlinkPendingCount := c.downlinkPendingCount - 1 }) :=
    keeps_modify fun s => thins_of_down rfl
  refine (keeps_modify fun s => ?_).bind fun _ => hpending.bind fun _ =>
    (quiet_budgetRelease _).imp Like.thins
  intro b ⟨ch, hch, hb⟩
  have hdown : (s.modDown k fun d => { d with pendingCount := d.pendingCount - 1 }).down k =
      { s.down k with pendingCount := (s.down k).pendingCount - 1 } := update_self _ _ _
  rw [hdown] at hch
  exact ⟨ch, hch, hb⟩

/-- From `s` to `s'` the bindings stayed, and no packet was put into channel `id` of session `k`. -/
structure Drained (k id : Nat) (s s' : State) : Prop where
  steady : Steady s s'
  thins : Thins k id s s'

instance (k id : Nat) : IsPreorder State (Drained k id) where
  refl s := ⟨.refl s, refl_of (Thins k id) s⟩
  trans _ _ _ h h' := ⟨h.steady.trans h'.steady, trans_of (Thins k id) h.thins h'.thins⟩

theorem drained_of {α : Type} {f : Worker α} {id : Nat} (h : Keeps A Steady f)
    (h' : Keeps A (Thins k id) f) : Keeps A (Drained k id) f := fun s =>
  ((h s).and (h' s)).mono fun _ _ hb => ⟨hb.1, hb.2⟩

theorem drained_count {id : Nat} (c : Counter) : Keeps A (Drained k id) (count c) :=
  drained_of (serving_steady.quiet (quiet_count c 1)) ((quiet_count c 1).imp Like.thins)

/-- The rest of a round of the loop of `flushChannelFrom` once a packet was sent. -/
theorem drained_sentPacket {id : Nat} (p : DownPacket) :
    Keeps A (Drained k id) (do
      count .udpPacketsToClient
      count .udpCopySends
      Worker.modify fun s => popPacket s k id p
      releaseDownlinkPacket k p : Worker Unit) :=
  (drained_count _).bind fun _ => (drained_count _).bind fun _ =>
    (drained_of (keeps_modify fun s => serving_steady.popPacket s k id p)
      (keeps_modify fun s => thins_popPacket s k id p)).bind fun _ =>
    drained_of (serving_steady.releaseDownlinkPacket k p) (thins_releaseDownlinkPacket p)

/-- Flushing a queue stamps the bindings its packets are for. -/
theorem flushChannelFrom_accounts (hP : Orderly P) (hclock : Clock True A) {id fuel : Nat}
    (h : Accounts P F s) (hq : ∀ b, Queueing s k id b → F b) :
    Sat A (fun s' _ => Accounts P F s') (flushChannelFrom k id fuel s) := by
  induction fuel generalizing s with
  | zero => trivial
  | succ fuel ih =>
      rcases hch : (s.down k).channels.find? (fun ch => decide (ch.id = id)) with _ | ch
      · simp only [flushChannelFrom, bind_run, Worker.get_run, ret_bind, hch]
        exact h
      rcases hqueue : ch.queue with _ | ⟨p, rest⟩
      · simp only [flushChannelFrom, bind_run, Worker.get_run, ret_bind, hch, hqueue]
        exact (serving_steady.retireDownlinkChannel k ch true s).bind fun t _ ht =>
          ht.accounts hP h
      · have hid : ch.id = id := by simpa using List.find?_some hch
        have hF : F p.binding := hq p.binding
          ⟨ch, List.mem_of_find?_eq_some hch, hid, p, hqueue ▸ List.mem_cons_self, rfl⟩
        have hsend : Keeps A (Drained k id) (sendDownlinkChannelPacket k ch p) :=
          drained_of (serving_steady.sendDownlinkChannelPacket k ch p)
            (thins_sendDownlinkChannelPacket ch p)
        simp only [flushChannelFrom, bind_run, Worker.get_run, ret_bind, hch, hqueue]
        refine (hsend s).bind fun t r ht => ?_
        have hat := ht.steady.accounts hP h
        cases r with
        | retry => exact hat
        | fatal => exact hat
        | complete =>
            intro now hnow
            have hread := like_clock t now
            have hau := hread.steady.accounts hP hat
            have hstamped := hau.stamped hP hclock ⟨t, hnow, rfl⟩ hF
            set u : State := { t with trace.clock := max t.trace.clock now }
            set v := seenSession (seenBinding u p.binding now) k now
            have hv : Accounts P F v := (steady_seenSession _ k now).accounts hP hstamped
            have hthin : Thins k id t v := thins_of_down rfl
            refine (drained_sentPacket p v).bind fun w _ hw => ?_
            refine ih (hw.steady.accounts hP hv) fun b hb => ?_
            exact hq b (ht.thins b (hthin b (hw.thins b hb)))

/-! ## Events -/

/-- The channel the next event flushes. -/
def State.flushes (s : State) : Option (Nat × Nat) :=
  match s.events with
  | ⟨.downlink k id, bits, _⟩ :: _ =>
      if ((s.down k).channels.any fun ch => ch.id = id) && (s.tbl.core k).used &&
          !(bits.err || bits.hup) && bits.out then some (k, id)
      else none
  | _ => none

/-- What flushing channel `id` of session `k` asks of the bindings. -/
def Flushable (P : (Nat → Prop) → Ledger → Prop) (k id : Nat) (s : State) : Prop :=
  ∀ g : Ledger, g.Of s.bind → P Nobody g → P (Queueing s k id) g

/-- What an error on a session's sockets leads to. -/
theorem tends_dropCounted (hP : Orderly P) (c : Counter) (k : Nat) :
    Keeps A (Tends P F) (do count c; sessionDrop k : Worker Unit) :=
  (Tends.quiet hP (quiet_count _ _)).bind fun _ => tends_sessionDrop hP k

theorem dispatchDownlink_accounts (hP : Orderly P) (hclock : Clock True A)
    (ha : Accounts P Nobody s) {id : Nat} {bits : Bits}
    (hf : ((s.down k).channels.any fun ch => ch.id = id) = true → (s.tbl.core k).used = true →
      (bits.err || bits.hup) = false → bits.out = true → Flushable P k id s) :
    Sat A (fun s' _ => Accounts P Nobody s') (dispatchDownlink k id bits s) := by
  have hdrop : ∀ t, Accounts P Nobody t → Sat A (fun s' _ => Accounts P Nobody s')
      ((do count .udpSendErrors; sessionDrop k; pure .dispatch : Worker Loc) t) := fun t ht =>
    (tends_dropCounted hP .udpSendErrors k t).bind fun _ _ h => h.keeps ht
  simp only [dispatchDownlink, bind_run, Worker.get_run, ret_bind]
  refine sat_ite (fun hc => sat_ite (fun _ => hdrop s ha) fun hb => sat_ite (fun ho => ?_)
    fun _ => ha) fun _ => ha
  simp only [Bool.and_eq_true] at hc
  obtain ⟨g, hg, hp⟩ := ha.ledger
  have haq : Accounts P (Queueing s k id) s :=
    ⟨⟨g, hg, hf hc.1 hc.2 (by simpa using hb) ho g hg hp⟩, ha.vacant, ha.past, ha.started⟩
  refine (flushChannelFrom_accounts hP hclock haq fun _ hb => hb).bind fun t good ht => ?_
  have hat : Accounts P Nobody t := ht.fewer hP fun _ => False.elim
  cases good with
  | true => exact hat
  | false => exact hdrop t hat

theorem tends_dispatchRelay (hP : Orderly P) (k : Nat) (bits : Bits) :
    Keeps A (Tends P F) (dispatchRelay k bits) :=
  keeps_get.bind fun _ => keeps_ite (keeps_ite
    ((tends_sessionDrop hP k).bind fun _ => keeps_pure _)
    (keeps_ite (tends_upstreamReceive hP k) (keeps_pure _))) (keeps_pure _)

theorem steady_dnsHandleUpstream (i : Fin dnsChannelsPerWorker) :
    Keeps A Steady (dnsHandleUpstream i) := by
  have hS := serving_steady
  refine keeps_get.bind fun s => (hS.quiet (quiet_reserveSlots _)).bind fun reserved => ?_
  split
  · refine (keeps_modify fun s => (like_dns s _).steady).bind fun _ =>
      (hS.epollModify _ _).bind fun _ => keeps_ite (hS.quiet (quiet_count _ _)) (keeps_pure _)
  · refine (hS.quiet (keeps_socks5UdpRecvmmsg _ _)).bind fun r =>
      (hS.quiet quiet_releaseReservation).bind fun _ => ?_
    split
    · exact keeps_ite (hS.quiet (quiet_count _ _)) (keeps_ite
        ((hS.quiet (quiet_dnsStep _)).bind fun _ => keeps_pure _) (keeps_pure _))
    · exact keeps_pure _
    · exact (hS.quiet (quiet_dnsStep _)).bind fun _ => keeps_pure _

theorem steady_dispatchDnsRelay (i : Fin dnsChannelsPerWorker) (bits : Bits) :
    Keeps A Steady (dispatchDnsRelay i bits) := by
  refine keeps_get.bind fun s => keeps_ite (keeps_ite ?_ (keeps_ite ?_ (keeps_pure _)))
    (keeps_pure _)
  · exact (serving_steady.quiet (quiet_dnsStep _)).bind fun _ => keeps_pure _
  · exact (steady_dnsHandleUpstream i).bind fun _ => keeps_pure _

theorem dispatchControl_accounts (hP : Orderly P) (hclock : Clock True A) (ha : Accounts P F s)
    (k : Nat) (bits : Bits) :
    Sat A (fun s' _ => Accounts P F s') (dispatchControl k bits s) := by
  simp only [dispatchControl, bind_run, Worker.get_run, ret_bind]
  refine sat_ite (fun _ => sat_ite (fun hst => ?_) fun _ => ?_) fun _ => ha
  · have hR := handshaken_steadied (k := k) hclock
    have hE := establishing_steady (A := A) (k := k)
    refine (completes_associateAdvance hR hE.toCompleting
      (completes_completeAssociate hR hE) bits s hst).bind fun t good ht => ?_
    have hat := ht.accounts hP ha
    cases good with
    | true => exact hat
    | false => exact (tends_dropCounted hP .udpSendErrors k t).bind fun _ _ h => h.keeps hat
  · exact (keeps_sessionControlEvent (tolerant_tends hP) k bits s).bind fun _ _ h => h.keeps ha

theorem dispatchEvent_accounts (hP : Orderly P) (hclock : Clock True A) (ha : Accounts P Nobody s)
    (e : Event) (hf : ∀ k id, e.ref = .downlink k id →
      ((s.down k).channels.any fun ch => ch.id = id) = true → (s.tbl.core k).used = true →
      (e.bits.err || e.bits.hup) = false → e.bits.out = true → Flushable P k id s) :
    Sat A (fun s' _ => Accounts P Nobody s') (dispatchEvent e s) := by
  obtain ⟨ref, bits, uid⟩ := e
  cases ref with
  | listener4 => exact sat_ite (fun _ => clientReceive_accounts hP ha _) fun _ => ha
  | listener6 =>
      simp only [dispatchEvent, bind_run, Worker.get_run, ret_bind]
      rcases s.cfg.listener6 with _ | fd
      · exact ha
      · exact sat_ite (fun _ => clientReceive_accounts hP ha fd) fun _ => ha
  | control k => exact dispatchControl_accounts hP hclock ha k bits
  | relay k => exact (tends_dispatchRelay hP k bits s).mono fun _ _ h => h.keeps ha
  | downlink k id => exact dispatchDownlink_accounts hP hclock ha (hf k id rfl)
  | dnsControl i =>
      exact ((Tends.quiet hP (quiet_dnsStep (.controlEvent i bits))) s).bind fun _ _ h =>
        h.keeps ha
  | dnsRelay i => exact (steady_dispatchDnsRelay i bits s).mono fun _ _ h => h.accounts hP ha
  | budgetWake => exact fun _ _ => ha
  | destroyEvents =>
      have hkeeps : Keeps A (Tends P Nobody) (do let now ← nowMs; releaseHandleEvents now) :=
        (Tends.quiet hP quiet_nowMs).bind fun now =>
          keeps_releaseHandleEvents (tolerant_tends hP) now
      exact (hkeeps s).bind fun _ _ h => h.keeps ha

theorem dispatchNext_accounts (hP : Orderly P) (hclock : Clock True A) (ha : Accounts P Nobody s)
    (hf : ∀ k id, s.flushes = some (k, id) → Flushable P k id s) :
    Sat A (fun s' _ => Accounts P Nobody s') (dispatchNext s) := by
  simp only [dispatchNext, bind_run, Worker.get_run, ret_bind]
  rcases hev : s.events with _ | ⟨e, rest⟩
  · exact ha
  · have ha' : Accounts P Nobody { s with events := rest } :=
      ⟨ha.ledger, ha.vacant, ha.past, ha.started⟩
    refine dispatchEvent_accounts hP hclock ha' e fun k id hk hany hu hbits hout => ?_
    refine hf k id ?_
    obtain ⟨ref, bits, uid⟩ := e
    obtain rfl : ref = .downlink k id := hk
    simp only [State.flushes, hev]
    rw [if_pos]
    have hbits' : (bits.err || bits.hup) = false := hbits
    have hout' : bits.out = true := hout
    simp only [Bool.and_eq_true, hbits', hout', Bool.not_false, and_true]
    exact ⟨hany, hu⟩

/-! ## Maintenance -/

theorem steady_forgetRetry (s : State) : Steady s (forgetRetry s) := steady_rel s _

theorem steady_releaseDisarmIfIdle : Keeps A Steady releaseDisarmIfIdle := by
  refine keeps_get.bind fun s => keeps_ite (keeps_pure _) ?_
  refine (serving_steady.epollModify _ _).bind fun done => keeps_ite ?_ (keeps_pure _)
  exact keeps_modify fun s => steady_rel s _

theorem tends_expireAll (hP : Orderly P) : Keeps A (Tends P F) expireAll := by
  have hquiet : ∀ {α : Type} {f : Worker α}, Quiet A f → Keeps A (Tends P F) f :=
    fun hf => Tends.quiet hP hf
  have hfree : Keeps A (Tends P F) downlinkFreeRetired :=
    keeps_modify fun s => (like_retired s _).steady.tends hP
  exact hfree.bind fun _ => (Tends.steady hP serving_steady.resumeBudgetWaiters).bind fun _ =>
    (tends_bindingExpireIdle hP).bind fun _ => (hquiet quiet_nowMs).bind fun _ =>
    (keeps_sessionExpireHandshakes (tolerant_tends hP) _).bind fun _ =>
    (keeps_sessionExpireIdle (tolerant_tends hP)).bind fun _ => (hquiet quiet_nowMs).bind fun _ =>
    (keeps_releaseRetry (tolerant_tends hP)
      (fun s => (steady_forgetRetry s).tends hP) _).bind fun _ =>
    (hquiet quiet_nowMs).bind fun _ => (hquiet (quiet_dnsStep _)).bind fun _ =>
    (hquiet quiet_nowMs).bind fun _ => (hquiet (quiet_dnsStep _)).bind fun _ => hfree

theorem tends_runMaintenance (hP : Orderly P) : Keeps A (Tends P F) runMaintenance := by
  have hregister : Keeps A (Tends P F) registerWaiters :=
    keeps_get.bind fun _ => keeps_ite ((keeps_ask _).bind fun _ =>
      Tends.steady hP serving_steady.resumeBudgetWaiters) (keeps_pure _)
  refine (tends_expireAll hP).bind fun _ => hregister.bind fun _ =>
    (Tends.steady hP steady_releaseDisarmIfIdle).bind fun _ =>
    (Tends.quiet hP quiet_nowMs).bind fun now => (keeps_ask _).bind fun dns =>
    (keeps_modify fun s => Steady.tends hP ?_).bind fun _ => keeps_pure _
  exact steady_of_eq rfl rfl (fun _ => rfl) rfl rfl

/-! ## Every step -/

/-- What a step must meet for the ledger to stay in order. -/
structure Meets (P : (Nat → Prop) → Ledger → Prop) (l : Loc) (s : State) : Prop where
  /-- A client datagram may refresh the binding there is for its destination. -/
  refresh : ∀ p k b, l = .clientSession p (some k) → s.bind.indexFind k p.originalDst = some b →
    Refreshes P Nobody k b p s
  /-- The next reply may be answered through the binding there is for it, or through a new one. -/
  answer : ∀ m rest, l = .upstream → s.frame.messages = m :: rest →
    Answerable P (AtHand s) s.frame.session m s
  /-- A channel that became writable may be flushed. -/
  flush : ∀ k id, l = .dispatch → s.flushes = some (k, id) → Flushable P k id s

/-- The ledger is in order, with the bindings at hand that the batch of replies is for; these belong
to the session the replies are for. -/
structure Booked (P : (Nat → Prop) → Ledger → Prop) (s : State) : Prop where
  accounts : Accounts P (AtHand s) s
  hand : ∀ b, AtHand s b →
    (s.bind.core b).used = true ∧ (s.bind.core b).owner = some s.frame.session

theorem not_atHand (h : s.frame.batch.entries = []) : ¬AtHand s b := by
  rintro ⟨m, hm⟩
  rw [h] at hm
  exact absurd hm List.not_mem_nil

/-- Without a batch nothing is at hand. -/
theorem booked_of_accounts (hP : Orderly P) (ha : Accounts P F s)
    (hb : s.frame.batch.entries = []) : Booked P s :=
  ⟨ha.fewer hP fun _ h => absurd h (not_atHand hb), fun _ h => absurd h (not_atHand hb)⟩

theorem Booked.nobody (hP : Orderly P) (h : Booked P s) : Accounts P Nobody s :=
  h.accounts.fewer hP fun _ => False.elim

/-- A step that does not start a batch of replies leaves none. -/
theorem AtLoc.noBatch {l : Loc} (h : AtLoc s l) (hl : l ≠ .upstream) (hd : ∀ f, l ≠ .upstreamDone f) :
    s.frame.batch.entries = [] := by
  cases l with
  | wait => exact h
  | dispatch => exact h
  | clientPacket => exact h
  | clientSession p existing =>
      cases existing with
      | none => exact h.1
      | some k => exact h.1
  | clientFlush => exact h
  | upstream => exact absurd rfl hl
  | upstreamDone failed => exact absurd rfl (hd failed)
  | maintain => exact h

/-- A batch of replies starts empty. -/
theorem dispatchEvent_starts (e : Event) (s : State) :
    Sat A (fun s' l' => l' = .upstream → s'.frame.batch.entries = []) (dispatchEvent e s) := by
  -- the other handlers do not go on to the replies, so nothing is to be shown of them
  have helse : ∀ {α : Type} (f : Worker α) (l : Loc), l ≠ .upstream → ∀ s,
      Sat A (fun s' l' => l' = .upstream → s'.frame.batch.entries = [])
        ((do let _ ← f; pure l : Worker Loc) s) := fun f l hl s =>
    (sat_true (p := f s)).bind fun _ _ _ h => absurd h hl
  have hreceive : ∀ fd s, Sat A (fun s' l' => l' = .upstream → s'.frame.batch.entries = [])
      (clientReceive fd s) := by
    intro fd s
    simp only [clientReceive, bind_run, Worker.get_run, ret_bind]
    intro r _
    rcases r with e | datagrams
    · exact fun h => by simp at h
    · exact (sat_true (p := nowMs s)).bind fun t now _ =>
        (sat_true (p := dnsStep (.expireTransactions now) t)).bind fun _ _ _ h => by simp at h
  have hstop : ∀ s : State, Sat A (fun s' l' => l' = Loc.upstream → s'.frame.batch.entries = [])
      (.ret s .dispatch) := fun _ h => by simp at h
  obtain ⟨ref, bits, uid⟩ := e
  cases ref with
  | listener4 => exact sat_ite (fun _ => hreceive _ s) fun _ => hstop s
  | listener6 =>
      simp only [dispatchEvent, bind_run, Worker.get_run, ret_bind]
      rcases s.cfg.listener6 with _ | fd
      · exact hstop s
      · exact sat_ite (fun _ => hreceive fd s) fun _ => hstop s
  | control k =>
      simp only [dispatchEvent, dispatchControl, bind_run, Worker.get_run, ret_bind]
      exact sat_ite (fun _ => sat_ite
        (fun _ => (sat_true (p := associateAdvance k bits s)).bind fun t good _ =>
          sat_ite (fun _ => helse (sessionDrop k) .dispatch (by simp) (t.count .udpSendErrors))
            fun _ => hstop t)
        fun _ => helse (sessionControlEvent k bits) .dispatch (by simp) s) fun _ => hstop s
  | relay k =>
      simp only [dispatchEvent, dispatchRelay, bind_run, Worker.get_run, ret_bind]
      refine sat_ite (fun _ => sat_ite (fun _ => helse _ .dispatch (by simp) s) fun _ =>
        sat_ite (fun _ => ?_) fun _ => hstop s) fun _ => hstop s
      refine (upstreamReceive_sat (M := True) k s).mono fun s' l' h hl => ?_
      rcases h with ⟨rfl, -⟩ | ⟨-, t, datagrams, -, rfl⟩
      · simp at hl
      · rfl
  | downlink k id =>
      simp only [dispatchEvent, dispatchDownlink, bind_run, Worker.get_run, ret_bind]
      refine sat_ite (fun _ => sat_ite (fun _ => ?_) fun _ => sat_ite (fun _ => ?_)
        fun _ => hstop s) fun _ => hstop s
      · exact helse (sessionDrop k) .dispatch (by simp) _
      · exact (sat_true (p := downlinkFlushChannel k id s)).bind fun t good _ =>
          sat_ite (fun _ => helse (sessionDrop k) .dispatch (by simp) (t.count .udpSendErrors))
            fun _ => hstop t
  | dnsControl i => exact helse (dnsStep (.controlEvent i bits)) .dispatch (by simp) s
  | dnsRelay i =>
      simp only [dispatchEvent, dispatchDnsRelay, bind_run, Worker.get_run, ret_bind]
      exact sat_ite (fun _ => sat_ite (fun _ => helse _ .dispatch (by simp) s) fun _ =>
        sat_ite (fun _ => helse (dnsHandleUpstream i) .dispatch (by simp) s) fun _ => hstop s)
        fun _ => hstop s
  | budgetWake => exact fun _ _ => hstop s
  | destroyEvents =>
      exact (sat_true (p := nowMs s)).bind fun t now _ =>
        helse (releaseHandleEvents now) .dispatch (by simp) t

theorem dispatchNext_starts (s : State) :
    Sat A (fun s' l' => l' = .upstream → s'.frame.batch.entries = []) (dispatchNext s) := by
  simp only [dispatchNext, bind_run, Worker.get_run, ret_bind]
  rcases s.events with _ | ⟨e, rest⟩
  · exact fun h => by simp at h
  · exact dispatchEvent_starts e _

/-- One step keeps the ledger in order. -/
theorem step_booked (hP : Orderly P) (hclock : Clock True A) (hs : Sessions True s)
    (hat : AtLoc s l) (hb : Booked P s) (hm : Meets P l s) :
    Sat A (fun s' _ => Booked P s') (step l s) := by
  have hnobody := hb.nobody hP
  -- outside the loop over replies no batch is left, and the ledger is all there is to show
  have hdone : ∀ {F : Nat → Prop} {s' l'}, Accounts P F s' → Effect True l s l' s' →
      l' ≠ .upstream → (∀ f, l' ≠ .upstreamDone f) → Booked P s' := fun ha he hl hd =>
    booked_of_accounts hP ha ((he.sessions hs hat).2.1.noBatch hl hd)
  have heffect := step_effect hclock hs hat
  cases l with
  | wait => trivial
  | dispatch =>
      refine (((dispatchNext_accounts hP hclock hnobody fun k id hf => hm.flush k id rfl hf).and
        (dispatchNext_starts s)).and heffect).mono fun s' l' ⟨⟨ha, hup⟩, he⟩ => ?_
      by_cases hl : l' = .upstream
      · exact booked_of_accounts hP ha (hup hl)
      · refine hdone ha he hl fun f hd => ?_
        cases he with
        | arrayDone => simp at hd
        | event h => rcases h.next with h | h | h <;> simp [hd] at h
  | clientPacket =>
      refine ((steady_clientNext s).and heffect).mono fun s' l' ⟨hst, he⟩ => ?_
      have ha := hst.accounts hP hnobody
      cases he with
      | looked h =>
          rcases h.2.2 with rfl | rfl | ⟨p, e, rfl⟩ <;>
            exact hdone ha (.looked h) (by simp) (by simp)
  | clientSession p existing =>
      refine ((clientSession_accounts hP hclock hs hnobody hat fun k b hk hf =>
        hm.refresh p k b (by rw [hk]) hf).and heffect).mono fun s' l' ⟨ha, he⟩ => ?_
      cases he with
      | served h => exact hdone ha (.served h) (by simp) (by simp)
  | clientFlush =>
      refine ((tends_clientFlush (F := Nobody) hP s).and heffect).mono fun s' l' ⟨ht, he⟩ => ?_
      have ha := ht.keeps hnobody
      cases he with
      | flushDone => exact hb
      | flushed ho h => exact hdone ha (.flushed ho h) (by simp) (by simp)
  | upstream =>
      have hbatched : Batched P (AtHand s) s.frame.session s :=
        ⟨hb.accounts, hat.2.1, hb.hand, fun _ h => h, hat.1⟩
      refine ((upstreamNext_batched hP hclock hbatched fun m rest hmsg =>
        hm.answer m rest rfl hmsg).and heffect).mono fun s' l' ⟨hb', he⟩ => ?_
      cases he with
      | replied h =>
          have hsession : s'.frame.session = s.frame.session := congrArg Rest.session h.rest
          exact ⟨hb'.accounts, by rw [hsession]; exact hb'.hand⟩
  | upstreamDone failed =>
      refine ((upstreamDone_accounts hP hb.accounts failed).and heffect).mono
        fun s' l' ⟨ha, he⟩ => ?_
      cases he with
      | repliesDone h => exact hdone ha (.repliesDone h) (by simp) (by simp)
  | maintain =>
      refine ((tends_runMaintenance (F := Nobody) hP s).and heffect).mono fun s' l' ⟨ht, he⟩ => ?_
      cases he with
      | maintained h => exact hdone (ht.keeps hnobody) (.maintained h) (by simp) (by simp)

/-! ## Every run -/

/-- Where the table starts, whatever is asked of a ledger without bindings holds. -/
theorem booked_init (hP : Orderly P) (cfg : WorkerConfig)
    (hinit : ∀ g : Ledger, g.lru = [] → g.olru = (fun _ => []) → P Nobody g) :
    Booked P (initState cfg) := by
  have hof : Ledger.Of ⟨[], fun _ => [], fun _ => [], fun _ => .zero⟩ (initState cfg).bind := by
    refine ⟨⟨DLists.rep_empty, DLists.rep_empty, ?_, ?_, ?_, ?_, by simp, fun _ => List.nodup_nil,
      ?_, ?_, fun _ => List.nodup_nil, ?_, by simp, by simp, by simp, rfl, fun _ => rfl⟩, rfl, rfl⟩
    · exact List.nodup_reverse.mpr List.nodup_range
    · intro b
      simp [initState, Binding.zero]
    · intro b
      simp [initState, Binding.zero]
    · intro b
      simp [initState, Binding.zero]
    · intro k b
      simp [initState]
    · intro k b
      simp
    · intro i b
      simp [initState]
  refine booked_of_accounts hP ⟨⟨_, hof, hinit _ rfl rfl⟩, fun _ _ => rfl, fun b hb => ?_, ?_⟩ rfl
  · simp [initState, Binding.zero] at hb
  · exact Nat.le_refl 0

/-- In a run whose steps all meet what they must, the ledger is in order. -/
theorem Reach.booked (hP : Orderly P) (hclock : Clock True A)
    (hinit : ∀ g : Ledger, g.lru = [] → g.olru = (fun _ => []) → P Nobody g)
    (hC : ∀ l s, C l s → Booked P s → AtLoc s l → Meets P l s) (h : Reach A C cfg l s) :
    Booked P s := by
  have hinv := h.invariant (I := fun l s => (Sessions True s ∧ AtLoc s l ∧ s.cfg = cfg) ∧ Booked P s)
    ⟨⟨sessions_init True cfg, rfl, rfl⟩, booked_init hP cfg hinit⟩ ?_ ?_
  · exact hinv.2
  · rintro s evs ⟨⟨hs, hat, hcfg⟩, hb⟩ -
    exact ⟨⟨hs.congr rfl rfl (Nat.le_refl _) rfl rfl, hat, hcfg⟩,
      ⟨⟨hb.accounts.ledger, hb.accounts.vacant, hb.accounts.past, hb.accounts.started⟩, hb.hand⟩⟩
  · rintro l s ⟨⟨hs, hat, hcfg⟩, hb⟩ hc
    refine ((step_effect hclock hs hat).and
      (step_booked hP hclock hs hat hb (hC l s hc hb hat))).mono fun s' l' ⟨he, hb'⟩ => ?_
    obtain ⟨hs', hat', hcfg'⟩ := he.sessions hs hat
    exact ⟨⟨hs', hat', hcfg'.trans hcfg⟩, hb'⟩

end Bpf2Socks.Udp

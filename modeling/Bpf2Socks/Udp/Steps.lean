/-
# Bpf2Socks.Udp.Steps — what each step of the worker does to the sessions.

One theorem for each program location.  Together they say everything a step can do to a session
slot: leave it, drop its session, go on with its handshake, or open a new session in it.  What
holds in every reachable state is derived from these theorems alone.
-/
import Bpf2Socks.Udp.Opening

namespace Bpf2Socks.Udp

open Function (update update_self update_of_ne)
open Lib (Prog Act DLists)
open Lib.Prog Lib.Act
open Worker hiding get modify ask diverge

variable {A : State → (q : Sys) → q.Ans → Prop} {M : Prop} {U W D : Nat → Prop} {k : Nat}

/-! ## Replies -/

theorem kept_seenSession (s : State) (k now j : Nat) : Kept s (seenSession s k now) j := by
  by_cases hj : j = k <;>
    constructor <;> simp [seenSession, SessTable.lruTouch, State.modCore, hj]

theorem Sessions.seenSession {s : State} (hs : Sessions M s) (hu : (s.tbl.core k).used = true)
    (now : Nat) : Sessions M (seenSession s k now) :=
  ((evolve_seenSession (U := Only k) (W := Nobody) (D := Nobody) s now rfl).sessions hs
    (by rintro j rfl; exact hu)).1

theorem Sessions.seenTbl {s : State} {t : SessTable} (hs : Sessions M s)
    (hu : (s.tbl.core k).used = true) (ht : SeenTbl k s.tbl t) :
    Sessions M { s with tbl := t } ∧ ∀ j, Kept s { s with tbl := t } j := by
  induction ht with
  | refl => exact ⟨hs, fun j => .refl s j⟩
  | tail _ hstep ih =>
      obtain ⟨now, rfl⟩ := hstep
      exact ⟨ih.1.seenSession ((ih.2 k).used.trans hu) now,
        fun j => (ih.2 j).trans (kept_seenSession _ k now j)⟩

/-- Marking a session as seen, with nothing else changed around the table. -/
theorem Sessions.seenOutside {s s' : State} (hs : Sessions M s)
    (hu : (s.tbl.core k).used = true) (ht : SeenTbl k s.tbl s'.tbl)
    (ho : s'.outside = s.outside) (hc : s.trace.clock ≤ s'.trace.clock) :
    Sessions M s' ∧ ∀ j, Kept s s' j := by
  obtain ⟨hs', hkept⟩ := hs.seenTbl hu ht
  have hrefs : s'.refs = s.refs := congrArg Outside.refs ho
  have hcfg : s'.cfg = s.cfg := congrArg Outside.cfg ho
  have huid : s'.trace.nextUid = s.trace.nextUid := congrArg Outside.nextUid ho
  have hrel : s'.rel = s.rel := congrArg Outside.rel ho
  refine ⟨⟨hs'.whole.later hc, ?_, ?_, hs'.uid_inj, ?_⟩, fun j => ?_⟩
  · rw [hcfg]
    exact hs'.cap
  · rw [huid]
    exact hs'.uid_lt
  · rw [hrel]
    exact hs'.armed
  · have := hkept j
    exact ⟨this.used, this.uid, this.addr, this.ready, by rw [hrefs]⟩

/-- Handling one session's replies keeps every session. -/
theorem Within.sessions {s s' : State} (h : Within k s s') (hb : BatchOf k s)
    (hs : Sessions M s) (hu : (s.tbl.core k).used = true) :
    Sessions M s' ∧ (∀ j, Kept s s' j) ∧ BatchOf k s' := by
  obtain ⟨hseen, hb'⟩ := h.seen hb
  obtain ⟨hs', hkept⟩ := hs.seenOutside hu hseen h.outside h.clock
  exact ⟨hs', hkept, hb'⟩

theorem Seen.evolve {s s' : State} (h : Seen k s s') :
    Evolve M (Only k) W D s s' := by
  refine evolve_of_kept ?_ h.clock fun hs hU => hs.seenOutside (hU k rfl) h.tbl h.outside h.clock
  have ho := h.outside
  simp only [State.outside, Outside.mk.injEq] at ho
  simp only [State.rest, Rest.mk.injEq]
  exact ⟨ho.1, ho.2.2.2.2.1, ho.2.2.2.2.2.1, ho.2.2.2.2.2.2.1, ho.2.2.2.2.2.2.2.1,
    ho.2.2.2.2.2.2.2.2.1, h.batch, ho.2.2.2.2.2.2.2.2.2.1, ho.2.2.2.2.2.2.2.2.2.2⟩

/-- What replies leave of the rest of the state. -/
theorem Within.rest {s s' : State} (h : Within k s s') :
    s'.rest = { s.rest with batch := s'.frame.batch } := by
  have ho := h.outside
  simp only [State.outside, Outside.mk.injEq] at ho
  simp only [State.rest, Rest.mk.injEq]
  exact ⟨ho.1, ho.2.2.2.2.1, ho.2.2.2.2.2.1, ho.2.2.2.2.2.2.1, ho.2.2.2.2.2.2.2.1,
    ho.2.2.2.2.2.2.2.2.1, trivial, ho.2.2.2.2.2.2.2.2.2.1, ho.2.2.2.2.2.2.2.2.2.2⟩

/-! ## What is known at each location -/

/-- What the locals of a handler say about the sessions.  Outside `handle_udp_upstream_packets`
there is no batch of replies. -/
def AtLoc (s : State) : Loc → Prop
  | .clientSession p (some k) => s.frame.batch.entries = [] ∧ (s.tbl.core k).used = true ∧
      sameSockaddr (s.tbl.core k).clientAddr p.clientAddr = true
  | .clientSession p none => s.frame.batch.entries = [] ∧ s.tbl.find p.clientAddr = none
  | .upstream => BatchOf s.frame.session s ∧ (s.tbl.core s.frame.session).used = true ∧
      (s.tbl.core s.frame.session).stage = .ready
  | .upstreamDone _ => True
  | _ => s.frame.batch.entries = []

/-! ## Client datagrams -/

/-- A round that only reads: everything stays but the datagrams still to look at. -/
structure Looked (M : Prop) (s s' : State) : Prop where
  sessions : Sessions M s'
  kept : ∀ j, Kept s s' j
  rest : ∃ l, s'.rest = { s.rest with incoming := l }

theorem Looked.evolve {s t u : State} (h : Looked M s t) (he : Evolve M Nobody Nobody Nobody t u) :
    Looked M s u := by
  obtain ⟨hs, -, -, hfate⟩ := he.sessions h.sessions (by simp)
  obtain ⟨l, hl⟩ := h.rest
  exact ⟨hs, fun j => (h.kept j).trans ((hfate j id).resolve_right fun h => h.1),
    l, he.rest.trans hl⟩

theorem tokenLookupOriginal_sat (p : ClientPacket) (pref : LookupMode) (now : Nat) (s : State) :
    Sat A (fun s' r => s' = s ∧ r.2.clientAddr = p.clientAddr)
      (tokenLookupOriginal p pref now s) := by
  intro r _
  rcases r with _ | ⟨mode, connected, _ | dst⟩
  · show Sat A _ ((if _ then _ else _ : Worker _) s)
    split <;> exact ⟨rfl, rfl⟩
  · exact ⟨rfl, rfl⟩
  · exact ⟨rfl, rfl⟩

theorem tokenRecoverConnected_sat (session : Option Nat) (p : ClientPacket) (s : State) :
    Sat A (fun s' r => s' = s ∧ ∀ p', r = some p' → p'.clientAddr = p.clientAddr)
      (tokenRecoverConnected session p s) := by
  rcases session with _ | k
  · exact ⟨rfl, by simp⟩
  · simp only [tokenRecoverConnected, bind_run, Worker.get_run, ret_bind]
    generalize List.find? _ _ = found
    rcases found with _ | b
    · exact ⟨rfl, by simp⟩
    · intro r _
      exact ⟨rfl, by rintro p' ⟨⟩; rfl⟩

/-- The session found for a packet, or none. -/
def FoundFor (p : ClientPacket) (existing : Option Nat) (t : SessTable) : Prop :=
  match existing with
  | some k => (t.core k).used = true ∧ sameSockaddr (t.core k).clientAddr p.clientAddr = true
  | none => t.find p.clientAddr = none

theorem foundFor_find (p p' : ClientPacket) (t : SessTable) (h : p'.clientAddr = p.clientAddr) :
    FoundFor p' (t.find p.clientAddr) t := by
  unfold FoundFor
  rw [h]
  split
  · rename_i k hk
    exact SessTable.of_find hk
  · rename_i hk
    exact hk

/-- Up to `session_get`, with what is known about the next location. -/
def LookedAt (M : Prop) (s s' : State) (l' : Loc) : Prop :=
  Looked M s s' ∧ AtLoc s' l' ∧
    (l' = .clientPacket ∨ l' = .clientFlush ∨ ∃ p e, l' = .clientSession p e)

theorem Looked.batch {s s' : State} (h : Looked M s s') : s'.frame.batch = s.frame.batch := by
  obtain ⟨l, hl⟩ := h.rest
  exact congrArg Rest.batch hl

theorem clientResolved_sat {s t : State} (h : Looked M s t) (hb : s.frame.batch.entries = [])
    {p : ClientPacket} {existing : Option Nat} (hf : FoundFor p existing t.tbl) :
    Sat A (LookedAt M s) (clientResolved p existing t) := by
  -- the part after the lookup mode was taken over
  have htail : ∀ u, Looked M s u → FoundFor p existing u.tbl →
      Sat A (LookedAt M s) ((do
        let s ← Worker.get
        if dnsIsCandidate s.cfg p then
          let taken ← dnsStep (.prepareQuery p s.frame.nowMs)
          pure (if taken then .clientPacket else .clientSession p existing)
        else pure (.clientSession p existing) : Worker Loc) u) := by
    intro u hu hfu
    have hsess : ∀ v, Looked M s v → FoundFor p existing v.tbl →
        LookedAt M s v (.clientSession p existing) := by
      intro v hv hfv
      refine ⟨hv, ?_, Or.inr (Or.inr ⟨p, existing, rfl⟩)⟩
      cases existing with
      | none => exact ⟨by rw [hv.batch, hb], hfv⟩
      | some k => exact ⟨by rw [hv.batch, hb], hfv⟩
    simp only [bind_run, Worker.get_run, ret_bind, ite_run]
    split
    · refine (quiet_dnsStep (A := A) _ u).bind fun v taken hv => ?_
      have hlook := hu.evolve hv.beside.evolve
      show LookedAt M s v (if taken then .clientPacket else .clientSession p existing)
      split
      · exact ⟨hlook, by show v.frame.batch.entries = []; rw [hlook.batch, hb], Or.inl rfl⟩
      · refine hsess v hlook ?_
        rw [hv.beside.tbl]
        exact hfu
    · exact hsess u hu hfu
  rcases existing with _ | k
  · exact htail t h hf
  · refine htail _ (h.evolve (evolve_noteLookupMode t k p.tokenLookupMode)) ?_
    unfold noteLookupMode
    split
    · exact hf
    · simpa [FoundFor, State.modCore] using hf

theorem tokenMiss_sat {s t : State} (h : Looked M s t) (hb : s.frame.batch.entries = [])
    (notify : Option ClientPacket) : Sat A (LookedAt M s) (tokenMiss notify t) := by
  have hpost : LookedAt M s (t.count .udpTokenMisses) .clientPacket := by
    have := h.evolve (like_count t .udpTokenMisses 1).beside.evolve
    exact ⟨this, by show (t.count .udpTokenMisses).frame.batch.entries = []; rw [this.batch, hb],
      Or.inl rfl⟩
  rcases notify with _ | p
  · exact hpost
  · exact fun _ _ => hpost

/-- One round up to `session_get` keeps every session. -/
theorem clientNext_sat {s : State} (hs : Sessions M s) (hb : s.frame.batch.entries = []) :
    Sat A (LookedAt M s) (clientNext s) := by
  simp only [clientNext, bind_run, Worker.get_run, ret_bind]
  rcases hin : s.frame.incoming with _ | ⟨d, rest⟩
  · refine (quiet_dnsStep (A := A) _ s).bind fun t _ ht => ?_
    have hlook : Looked M s t := Looked.evolve
      ⟨hs, fun j => .refl s j, s.frame.incoming, rfl⟩ ht.beside.evolve
    exact ⟨hlook, by show t.frame.batch.entries = []; rw [hlook.batch, hb], Or.inr (Or.inl rfl)⟩
  · set t := { s with frame := { s.frame with incoming := rest } } with ht
    have hlook : Looked M s t :=
      ⟨⟨hs.whole, hs.cap, hs.uid_lt, hs.uid_inj, hs.armed⟩,
        fun j => ⟨rfl, rfl, rfl, Iff.rfl, rfl⟩, rest, rfl⟩
    have hcount : ∀ c, Looked M s (t.count c) := fun c =>
      hlook.evolve (like_count t c 1).beside.evolve
    show Sat A _ ((if _ then _ else _ : Worker Loc) t)
    split
    · exact ⟨hcount _, hb, Or.inl rfl⟩
    · simp only [bind_run, Worker.count_run, ret_bind]
      rcases tokenParseCmsgs d with _ | p
      · exact tokenMiss_sat (hcount _) hb none
      · refine (tokenLookupOriginal_sat p _ _ _).bind fun u r ⟨hu, hr⟩ => ?_
        subst hu
        simp only [ite_run]
        split
        · exact clientResolved_sat (hcount _) hb (foundFor_find p r.2 s.tbl hr)
        · refine (tokenRecoverConnected_sat _ _ _).bind fun v r' ⟨hv, hr'⟩ => ?_
          subst hv
          rcases r' with _ | p'
          · exact tokenMiss_sat (hcount _) hb _
          · exact clientResolved_sat (hcount _) hb
              (foundFor_find p p' s.tbl ((hr' p' rfl).trans hr))

theorem beside_noteBinding (s : State) (j b : Nat) (p : ClientPacket) :
    Beside s (noteBinding s j b p) := beside_of_eq rfl rfl rfl rfl

theorem keeps_refreshBinding (j b : Nat) (p : ClientPacket) :
    Keeps A Beside (refreshBinding j b p) := by
  refine (quiet_count _ _).beside.bind fun _ =>
    (keeps_modify fun s => beside_modBinding s b _).bind fun _ => keeps_get.bind fun s =>
    keeps_ite ?_ (keeps_ite ?_ ?_)
  · refine (keeps_modify fun s => ?_).bind fun _ => keeps_pure _
    exact trans_of Beside (beside_bindingCloseReply s b) (beside_noteBinding _ j b p)
  · refine (keeps_replySocketCreate _ _).bind fun r => ?_
    split
    · exact keeps_pure _
    · refine (keeps_modify fun s => ?_).bind fun _ => keeps_pure _
      exact beside_of_eq rfl rfl rfl rfl
  · refine (keeps_modify fun s => ?_).bind fun _ => keeps_pure _
    exact beside_of_eq rfl rfl rfl rfl

/-- What passing on a datagram of session `k` may add to the outgoing arrays: at most one entry,
for that session and from its client. -/
def Added (p : ClientPacket) (k : Nat) (s' : State) (out : List Outgoing) : Prop :=
  out = [] ∨ out = [⟨k, ⟨p.originalDst, p.payload, p.clientAddr⟩, (s'.tbl.core k).uid⟩]

/-- Every session is kept and at most one datagram was collected. -/
structure Passed (M : Prop) (p : ClientPacket) (k : Nat) (s s' : State) : Prop where
  sessions : Sessions M s'
  kept : ∀ j, Kept s s' j
  rest : ∃ out, Added p k s' out ∧ s'.rest = { s.rest with outgoing := s.frame.outgoing ++ out }

/-- Code that keeps every session. -/
theorem Evolve.passed {s s' : State} {p : ClientPacket}
    (he : Evolve M (Only k) Nobody Nobody s s') (hs : Sessions M s)
    (hu : (s.tbl.core k).used = true) : Passed M p k s s' := by
  obtain ⟨hs', -, -, hfate⟩ := he.sessions hs (by rintro j rfl; exact hu)
  refine ⟨hs', fun j => (hfate j id).resolve_right fun h => h.1, [], Or.inl rfl, ?_⟩
  rw [List.append_nil]
  exact he.rest

theorem clientForward_sat {s : State} {p : ClientPacket} (hs : Sessions M s)
    (hu : (s.tbl.core k).used = true) :
    Sat A (fun s' _ => Passed M p k s s') (clientForward k p s) := by
  simp only [clientForward, bind_run, Worker.get_run, ret_bind, ite_run]
  split
  · refine (keeps_sessionQueuePending (A := A) (k := k) (R := Evolve M (Only k) Nobody Nobody)
      (seeing_evolve rfl) _ _ _ s).bind fun t r ht => ?_
    rcases r with e | _
    · cases e <;> exact Evolve.passed (ht.trans (like_count _ _ _).beside.evolve) hs hu
    · exact ht.passed hs hu
  · exact ⟨⟨hs.whole, hs.cap, hs.uid_lt, hs.uid_inj, hs.armed⟩,
      fun j => ⟨rfl, rfl, rfl, Iff.rfl, rfl⟩, _, Or.inr rfl, rfl⟩

theorem Beside.passed {s t u : State} {p : ClientPacket} (h : Beside s t)
    (hp : Passed M p k t u) : Passed M p k s u := by
  have hrefs : t.refs = s.refs := congrArg Outside.refs h.outside
  have hrest : t.rest = s.rest := (h.evolve (M := M) (U := Nobody) (W := Nobody)
    (D := Nobody)).rest
  have hout : t.frame.outgoing = s.frame.outgoing := congrArg Rest.outgoing hrest
  obtain ⟨out, ha, ho⟩ := hp.rest
  refine ⟨hp.sessions, fun j => Kept.trans ?_ (hp.kept j), out, ha, by rw [ho, hrest, hout]⟩
  exact ⟨by rw [h.tbl], by rw [h.tbl], by rw [h.tbl], by rw [h.tbl], by rw [hrefs]⟩

theorem clientBind_sat {s : State} {p : ClientPacket} (hs : Sessions M s)
    (hu : (s.tbl.core k).used = true) :
    Sat A (fun s' _ => Passed M p k s s') (clientBind k p s) := by
  have hstop : ∀ t, Beside s t → Passed M p k s t := fun t ht =>
    ht.evolve.passed hs hu
  have hgo : ∀ t, Beside s t → Sat A (fun s' _ => Passed M p k s s') (clientForward k p t) := by
    intro t ht
    have hst := (ht.evolve (M := M) (U := Only k) (W := Nobody) (D := Nobody)).sessions hs
      (by rintro j rfl; exact hu)
    exact (clientForward_sat hst.1 (hst.2.1 k rfl)).mono fun _ _ h => ht.passed h
  simp only [clientBind, bind_run]
  refine (keeps_bindingFind (A := A) k p.originalDst s).bind fun t found ht => ?_
  rcases found with _ | b
  · refine (keeps_createBinding (A := A) _ _ t).bind fun u created hu => ?_
    have hsu := trans_of Beside ht hu
    rcases created with _ | b
    · exact hstop u hsu
    · exact hgo u hsu
  · refine (keeps_refreshBinding (A := A) _ _ _ t).bind fun u good hu => ?_
    have hsu := trans_of Beside ht hu
    cases good with
    | false => exact hstop u hsu
    | true => exact hgo u hsu

/-- What one round from `session_get` on does: the target of an allocation apart, every session
stays, and a datagram is collected only for its own client's session. -/
structure Served (M : Prop) (p : ClientPacket) (existing : Option Nat) (s s' : State) :
    Prop where
  sessions : Sessions M s'
  kept : ∀ j, (existing = none → allocTarget s ≠ some j) → Kept s s' j
  target : existing = none → ∀ j, allocTarget s = some j →
    New p s s' j ∨ (s'.tbl.core j).used = false
  rest : ∃ n out, s.trace.nextUid ≤ n ∧
    s'.rest = { s.rest with nextUid := n, outgoing := s.frame.outgoing ++ out } ∧
    (out = [] ∨ ∃ k, Added p k s' out ∧ (s'.tbl.core k).used = true ∧
      sameSockaddr (s'.tbl.core k).clientAddr p.clientAddr = true)

theorem clientSession_sat (hclock : Clock M A) {s : State} (hs : Sessions M s)
    {p : ClientPacket} {existing : Option Nat} (hat : AtLoc s (.clientSession p existing)) :
    Sat A (fun s' l' => Served M p existing s s' ∧ l' = .clientPacket)
      (clientSession p existing s) := by
  rcases existing with _ | k
  · refine (sessionGet_none_sat hclock hs hat.2).bind fun t r ht => ?_
    obtain ⟨n, hn, hrest⟩ := ht.rest
    rcases r with _ | k
    · refine ⟨⟨ht.sessions, fun j hj => ht.others j (hj rfl), fun _ j hj => ?_, n, [], hn, ?_,
        Or.inl rfl⟩, rfl⟩
      · rcases ht.target j hj with h | h
        · simp at h
        · exact Or.inr h.2
      · rw [List.append_nil]
        exact hrest
    · have hk := ht.result k rfl
      have hnew : New p s t k := by
        rcases ht.target k hk with h | h
        · exact h.2
        · simp at h
      -- the session is new, and finding the datagram a binding keeps it so
      refine (clientBind_sat (p := p) ht.sessions hnew.used).bind fun u _ hu => ?_
      obtain ⟨out, hadd, hout⟩ := hu.rest
      have hku := hu.kept k
      have houtgoing : t.frame.outgoing = s.frame.outgoing := congrArg Rest.outgoing hrest
      refine ⟨⟨hu.sessions, fun j hj => (ht.others j (hj rfl)).trans (hu.kept j), fun _ j hj => ?_,
        n, out, hn, by rw [hout, hrest, houtgoing], Or.inr ⟨k, hadd, hku.used.trans hnew.used, ?_⟩⟩,
        rfl⟩
      · obtain rfl : k = j := Option.some.inj (hk.symm.trans hj)
        exact Or.inl ⟨hku.used.trans hnew.used, fun e => hnew.stage (hku.ready.mp e),
          hku.addr.trans hnew.addr, hku.uid.trans hnew.uid⟩
      · rw [hku.addr, hnew.addr]
        exact sameSockaddr_refl _
  · have hu := hat.2.1
    have hget : Sat A (fun t r => r = some k ∧ Evolve M (Only k) Nobody Nobody s t)
        (sessionGet p (some k) s) := by
      refine (quiet_nowMs (A := A) s).bind fun t now ht => ⟨rfl, ?_⟩
      refine ht.beside.evolve.trans (Evolve.trans (evolve_seenSession t now rfl) ?_)
      refine (evolve_noteLookupMode _ k p.tokenLookupMode).trans ?_
      exact ((like_count _ _ _).trans (like_count _ _ _)).beside.evolve
    refine hget.bind fun t r ⟨hr, ht⟩ => ?_
    subst hr
    obtain ⟨hst, hut, -, hfate⟩ := ht.sessions hs (by rintro j rfl; exact hu)
    have hkept : ∀ j, Kept s t j := fun j => (hfate j id).resolve_right fun h => h.1
    refine (clientBind_sat (p := p) hst (hut k rfl)).bind fun u _ hpu => ?_
    obtain ⟨out, hadd, hout⟩ := hpu.rest
    have hku := (hkept k).trans (hpu.kept k)
    have houtgoing : t.frame.outgoing = s.frame.outgoing := congrArg Rest.outgoing ht.rest
    refine ⟨⟨hpu.sessions, fun j _ => (hkept j).trans (hpu.kept j), by simp,
      s.trace.nextUid, out, Nat.le_refl _, by rw [hout, ht.rest, houtgoing]; rfl,
      Or.inr ⟨k, hadd, hku.used.trans hu, ?_⟩⟩, rfl⟩
    rw [hku.addr]
    exact hat.2.2

/-- What sending one group of collected datagrams does: it is logged with the session found in the
slot, and only that slot's session may be dropped. -/
structure Flushed (M : Prop) (s s' : State) (o : Outgoing) : Prop where
  sessions : Sessions M s'
  slots : ∀ j, Fate (Only o.slot) s s' j
  rest : ∃ failed, s'.rest = { s.rest with
    outgoing := s.frame.outgoing.filter fun o' => o'.slot ≠ o.slot
    relaySends := ⟨o.slot, s.tbl.core o.slot,
      (s.frame.outgoing.filter fun o' => o'.slot = o.slot).map (·.msg), failed⟩ ::
      s.trace.relaySends }

theorem flushGroup_sat {s : State} (hs : Sessions M s) (o : Outgoing) :
    Sat A (fun s' _ => Flushed M s s' o) (flushGroup o s) := by
  set messages := (s.frame.outgoing.filter fun o' => o'.slot = o.slot).map (·.msg) with hm
  set t := { s with frame := { s.frame with
    outgoing := s.frame.outgoing.filter fun o' => o'.slot ≠ o.slot } } with ht
  have hts : Sessions M t := ⟨hs.whole, hs.cap, hs.uid_lt, hs.uid_inj, hs.armed⟩
  show Sat A _ ((relaySendBatch o.slot messages t).bind _)
  refine (quiet_relaySendBatch (A := A) o.slot messages t).bind fun u sent hu => ?_
  have hue := hu.beside.evolve (M := M) (U := Nobody) (W := Nobody) (D := Only o.slot)
  have htbl : u.tbl = s.tbl := hu.beside.tbl
  have hrefs : u.refs = s.refs := congrArg Outside.refs hu.beside.outside
  have hsends : u.trace.relaySends = s.trace.relaySends := congrArg Rest.relaySends hue.rest
  set v := logRelaySend u ⟨o.slot, u.tbl.core o.slot, messages, !sent⟩ with hv
  have hvs : Sessions M v := by
    have := (hue.sessions hts (by simp)).1
    exact ⟨this.whole, this.cap, this.uid_lt, this.uid_inj, this.armed⟩
  have hvk : ∀ j, Kept s v j := fun j => by
    constructor <;> simp only [hv, logRelaySend, htbl, hrefs]
  have hvrest : v.rest = { s.rest with
      outgoing := s.frame.outgoing.filter fun o' => o'.slot ≠ o.slot
      relaySends := ⟨o.slot, s.tbl.core o.slot, messages, !sent⟩ :: s.trace.relaySends } := by
    have h1 : v.rest = { u.rest with
        relaySends := ⟨o.slot, u.tbl.core o.slot, messages, !sent⟩ :: u.trace.relaySends } := rfl
    rw [h1, hue.rest, hsends, htbl]
    rfl
  have hdrop : ∀ w, Evolve M Nobody Nobody (Only o.slot) v w → Flushed M s w o := by
    intro w hw
    obtain ⟨hws, -, -, hfate⟩ := hw.sessions hvs (by simp)
    exact ⟨hws, fun j => Fate.trans (Or.inl (hvk j)) (hfate j id), _, hw.rest.trans hvrest⟩
  cases sent with
  | true => exact hdrop v (Evolve.refl _ _ _ _ v)
  | false =>
      exact (keeps_sessionDrop (A := A) (D := Only o.slot) id id rfl _).mono fun w _ hw =>
        hdrop w (Evolve.trans (like_count v .udpSendErrors 1).beside.evolve hw)

theorem clientFlush_sat {s : State} (hs : Sessions M s) :
    Sat A (fun s' l' => s' = s ∧ l' = .dispatch ∨
      l' = .clientFlush ∧ ∃ o ∈ s.frame.outgoing, Flushed M s s' o) (clientFlush s) := by
  simp only [clientFlush, bind_run, Worker.get_run, ret_bind]
  rcases s.frame.outgoing with _ | ⟨o, rest⟩
  · exact Or.inl ⟨rfl, rfl⟩
  · exact (flushGroup_sat hs o).bind fun s' _ h => Or.inr ⟨rfl, o, List.mem_cons_self, h⟩

/-! ## Relay datagrams -/

/-- What one round of replies does: every session stays. -/
structure Replied (M : Prop) (s s' : State) (l' : Loc) : Prop where
  sessions : Sessions M s'
  kept : ∀ j, Kept s s' j
  loc : AtLoc s' l'
  rest : s'.rest = { s.rest with batch := s'.frame.batch }
  next : l' = .upstream ∨ ∃ failed, l' = .upstreamDone failed

theorem upstreamNext_sat {s : State} (hs : Sessions M s) (hat : AtLoc s .upstream) :
    Sat A (Replied M s) (upstreamNext s) := by
  obtain ⟨hb, hu, hready⟩ := hat
  have hdone : ∀ t failed, Within s.frame.session s t →
      Replied M s t (.upstreamDone failed) := by
    intro t failed ht
    obtain ⟨hs', hkept, -⟩ := ht.sessions hb hs hu
    exact ⟨hs', hkept, trivial, ht.rest, Or.inr ⟨_, rfl⟩⟩
  have hfail : ∀ t c failed, Within s.frame.session s t →
      Replied M s (t.count c) (.upstreamDone failed) := fun t c failed ht =>
    hdone _ failed (trans_of (Within s.frame.session) ht (like_count t c 1).beside.within)
  simp only [upstreamNext, bind_run, Worker.get_run, ret_bind]
  rcases s.frame.messages with _ | ⟨m, rest⟩
  · refine ((batching_within (A := A)).downlinkBatchFlush (k := s.frame.session) s).bind
      fun t flushed ht => ?_
    cases flushed with
    | true => exact hdone t false ht
    | false => exact hfail t _ true ht
  · refine ((batching_within (A := A)).upstreamMessage m s).bind fun t good ht => ?_
    cases good with
    | true =>
        obtain ⟨hs', hkept, hb'⟩ := ht.sessions hb hs hu
        have hsession : t.frame.session = s.frame.session := congrArg Outside.session ht.outside
        have hk := hkept s.frame.session
        refine ⟨hs', hkept, ?_, ht.rest, Or.inl rfl⟩
        simp only [AtLoc, hsession]
        exact ⟨hb', hk.used.trans hu, hk.ready.mpr hready⟩
    | false => exact hfail t _ true ht

/-- What leaving the loop does: only the session whose replies were handled may be dropped. -/
structure RepliesDone (M : Prop) (s s' : State) : Prop where
  sessions : Sessions M s'
  slots : ∀ j, Fate (Only s.frame.session) s s' j
  rest : s'.rest = { s.rest with batch := .init }

theorem upstreamDone_sat {s : State} (hs : Sessions M s) (failed : Bool) :
    Sat A (fun s' l' => RepliesDone M s s' ∧ l' = .dispatch) (upstreamDone failed s) := by
  have hfin : ∀ t, Evolve M Nobody Nobody (Only s.frame.session) s t →
      RepliesDone M s { t with frame := { t.frame with messages := [], batch := .init } } := by
    intro t ht
    obtain ⟨hts, -, -, hfate⟩ := ht.sessions hs (by simp)
    refine ⟨⟨hts.whole, hts.cap, hts.uid_lt, hts.uid_inj, hts.armed⟩, fun j => ?_, ?_⟩
    · exact (hfate j id).trans (Or.inl ⟨rfl, rfl, rfl, Iff.rfl, rfl⟩)
    · rw [← ht.rest]
      rfl
  simp only [upstreamDone, bind_run, Worker.get_run, ret_bind]
  refine (quiet_releaseReservation (A := A) s).bind fun t _ ht => ?_
  have hte := ht.beside.evolve (M := M) (U := Nobody) (W := Nobody)
    (D := Only s.frame.session)
  cases failed with
  | false => exact ⟨hfin t hte, rfl⟩
  | true =>
      exact (keeps_sessionDrop (A := A) (D := Only s.frame.session) id id rfl t).bind
        fun u _ hu => ⟨hfin u (hte.trans hu), rfl⟩

/-! ## Maintenance -/

theorem runMaintenance_sat (s : State) :
    Sat A (fun s' l' => Evolve M Nobody Nobody Anyone s s' ∧ l' = .wait) (runMaintenance s) := by
  have hfree : Keeps A (Evolve M Nobody Nobody Anyone) downlinkFreeRetired :=
    keeps_modify fun s => (like_retired s _).beside.evolve
  have hexpire : Keeps A (Evolve M Nobody Nobody Anyone) expireAll :=
    hfree.bind fun _ => (Beside.keepsEvolve keeps_resumeBudgetWaiters).bind fun _ =>
      (Beside.keepsEvolve keeps_bindingExpireIdle).bind fun _ => quiet_nowMs.evolve.bind fun _ =>
      (keeps_sessionExpireHandshakes tolerant_evolve _).bind fun _ =>
      (keeps_sessionExpireIdle tolerant_evolve).bind fun _ =>
      quiet_nowMs.evolve.bind fun _ => (keeps_releaseRetry tolerant_evolve evolve_forgetRetry _).bind fun _ =>
      quiet_nowMs.evolve.bind fun _ => (quiet_dnsStep _).evolve.bind fun _ =>
      quiet_nowMs.evolve.bind fun _ => (quiet_dnsStep _).evolve.bind fun _ => hfree
  have hregister : Keeps A (Evolve M Nobody Nobody Anyone) registerWaiters :=
    keeps_get.bind fun _ => keeps_ite ((keeps_ask _).bind fun _ =>
      Beside.keepsEvolve keeps_resumeBudgetWaiters) (keeps_pure _)
  have hdisarm : Keeps A (Evolve M Nobody Nobody Anyone) releaseDisarmIfIdle :=
    keeps_releaseDisarmIfIdle
  refine (hexpire s).bind fun t _ ht => (hregister t).bind fun u _ hu => (hdisarm u).bind fun v _ hv => (quiet_nowMs v).bind fun w now hw => ?_
  refine fun dns _ => ⟨?_, rfl⟩
  refine ((ht.trans hu).trans (hv.trans hw.beside.evolve)).trans ?_
  exact evolve_of_tbl rfl (Nat.le_refl _) rfl rfl rfl

/-! ## Dispatch -/

/-- The next event is for the control connection of session `j`, whose handshake is under way. -/
def Handshaking (s : State) (j : Nat) : Prop :=
  ∃ e rest, s.events = e :: rest ∧ e.ref = .control j ∧ (s.tbl.core j).used = true ∧
    (s.tbl.core j).stage ≠ .ready

/-- What handling one event does: no session is opened, and only the one whose handshake the event
is about gets on. -/
structure Dispatched (M : Prop) (s s' : State) (l' : Loc) : Prop where
  sessions : Sessions M s'
  loc : AtLoc s' l'
  slots : ∀ j, Fate Anyone s s' j ∨ Handshaking s j ∧ SameSession s s' j
  rest : ∃ now inc out k b, s'.rest = { s.rest with
    events := s.events.tail, nowMs := now, incoming := inc, outgoing := out, session := k
    batch := b }
  outgoing : l' = .clientPacket → s'.frame.outgoing = []
  next : l' = .dispatch ∨ l' = .clientPacket ∨ l' = .upstream

/-- A handler that does not start a batch. -/
theorem Evolve.dispatched {s t : State} (hs : Sessions M s) (hb : s.frame.batch.entries = [])
    {rest : List Event} (hev : s.events.tail = rest)
    (h : Evolve M Nobody Nobody Anyone { s with events := rest } t) :
    Dispatched M s t .dispatch := by
  obtain ⟨hts, -, -, hfate⟩ := h.sessions
    ⟨hs.whole, hs.cap, hs.uid_lt, hs.uid_inj, hs.armed⟩ (by simp)
  have hbatch : t.frame.batch = s.frame.batch := congrArg Rest.batch h.rest
  refine ⟨hts, ?_, fun j => Or.inl ?_, ?_, by simp, Or.inl rfl⟩
  · show t.frame.batch.entries = []
    rw [hbatch, hb]
  · exact Fate.trans (t := { s with events := rest }) (Or.inl ⟨rfl, rfl, rfl, Iff.rfl, rfl⟩)
      (hfate j id)
  · exact ⟨_, _, _, _, _, h.rest.trans (by rw [hev]; rfl)⟩

/-- What an error on a session's sockets leads to. -/
theorem keeps_dropCounted (c : Counter) (k : Nat) :
    Keeps A (Evolve M Nobody Nobody Anyone) (do count c; sessionDrop k : Worker Unit) :=
  (quiet_count _ _).evolve.bind fun _ => keeps_sessionDrop id id trivial

theorem keeps_socks5UdpRecvmmsg (fd : Option Nat) (n : Nat) :
    Quiet A (socks5UdpRecvmmsg fd n) := by
  cases fd with
  | none => exact keeps_pure _
  | some fd => exact (keeps_ask _).bind fun _ => keeps_pure _

theorem keeps_dnsHandleUpstream (i : Fin dnsChannelsPerWorker) :
    Keeps A Beside (dnsHandleUpstream i) := by
  refine keeps_get.bind fun s => (quiet_reserveSlots _).beside.bind fun reserved => ?_
  split
  · refine (keeps_modify fun s => (like_dns s _).beside).bind fun _ =>
      (keeps_epollModify _ _).bind fun _ => keeps_ite ?_ (keeps_pure _)
    exact (quiet_count _ _).beside
  · refine (keeps_socks5UdpRecvmmsg _ _).beside.bind fun r =>
      quiet_releaseReservation.beside.bind fun _ => ?_
    split
    · exact keeps_ite (quiet_count _ _).beside (keeps_ite
        ((quiet_dnsStep _).beside.bind fun _ => keeps_pure _) (keeps_pure _))
    · exact keeps_pure _
    · exact (quiet_dnsStep _).beside.bind fun _ => keeps_pure _

/-- Reading from a relay: no room, nothing read, an error, or a batch to work through. -/
theorem upstreamReceive_sat (k : Nat) (s : State) :
    Sat A (fun s' l' => l' = .dispatch ∧ Evolve M Nobody Nobody Anyone s s' ∨
      l' = .upstream ∧ ∃ t datagrams, Like s t ∧ s' = startUpstream t k datagrams)
      (upstreamReceive k s) := by
  have hevolve : ∀ (f : Worker Unit), Keeps A (Evolve M Nobody Nobody Anyone) f →
      ∀ t, Like s t → Sat A (fun s' l' => l' = Loc.dispatch ∧
        Evolve M Nobody Nobody Anyone s s' ∨ l' = .upstream ∧ ∃ t datagrams, Like s t ∧
        s' = startUpstream t k datagrams) ((do f; pure .dispatch : Worker Loc) t) := by
    intro f hf t ht
    exact (hf t).bind fun u _ hu => Or.inl ⟨rfl, ht.beside.evolve.trans hu⟩
  simp only [upstreamReceive, bind_run, Worker.get_run, ret_bind]
  refine (quiet_reserveSlots (A := A) _ s).bind fun t reserved ht => ?_
  rcases reserved with _ | n
  · refine hevolve (waitForBudget k) ?_ t ht
    refine (keeps_modify fun s => (beside_markWaiting s k).evolve).bind fun _ =>
      (Beside.keepsEvolve (keeps_setPaused k true)).bind fun _ =>
      keeps_ite (keeps_dropCounted _ k) (keeps_pure _)
  · refine (keeps_socks5UdpRecvmmsg (A := A) _ _ t).bind fun u r hu => ?_
    have hsu := ht.trans hu
    rcases r with e | datagrams
    · refine (quiet_releaseReservation (A := A) u).bind fun v _ hv =>
        hevolve (relayReadError k e) ?_ v (hsu.trans hv)
      exact keeps_ite (quiet_count _ _).evolve
        (keeps_ite (keeps_sessionDrop id id trivial) (keeps_pure _))
    · rcases datagrams with _ | ⟨d, ds⟩
      · exact hevolve releaseReservation quiet_releaseReservation.evolve u hsu
      · exact Or.inr ⟨rfl, u, d :: ds, hsu, rfl⟩

/-- Working on a session and then dropping it. -/
theorem Evolve.thenDrop {s t : State} (h : Evolve M (Only k) (Only k) Anyone s t)
    (hu : (s.tbl.core k).used = true) :
    Sat A (fun u _ => Evolve M Nobody Nobody Anyone s u) (sessionDrop k t) := by
  have hused : ∀ j, Only k j → (s.tbl.core j).used = true := by
    rintro j rfl
    exact hu
  by_cases hut : (t.tbl.core k).used = true
  · refine (sessionDrop_sat hut).mono fun u _ hlike => ?_
    have hrest := dropState_rest t k
    have hclock := dropState_clock t k
    have he := (Like.beside hlike).evolve (M := M) (U := Nobody) (W := Nobody) (D := Nobody)
    refine ⟨he.rest.trans (hrest.trans h.rest),
      Nat.le_trans h.clock (Nat.le_trans hclock he.clock), fun hs _ => ?_⟩
    obtain ⟨hts, -, -, hfate⟩ := h.sessions hs hused
    obtain ⟨hds, hgone, hkept⟩ := dropState_sessions hut hts
    obtain ⟨hus, -, -, huf⟩ := he.sessions hds (by simp)
    have huk : ∀ j, Kept (dropState t k) u j := fun j => (huf j id).resolve_right fun h => h.1
    refine ⟨hus, by simp, by simp, fun j _ => ?_⟩
    rcases eq_or_ne j k with rfl | hj
    · exact Or.inr ⟨trivial, hgone.kept (huk j)⟩
    · exact (hfate j hj).trans (Or.inl ((hkept j hj).trans (huk j)))
  · rw [sessionDrop_unused (Bool.eq_false_iff.mpr hut)]
    exact ⟨h.rest, h.clock, fun hs _ => absurd ((h.sessions hs hused).2.1 k rfl) hut⟩

section Events

variable {s : State} (hs : Sessions M s) (hb : s.frame.batch.entries = []) {e : Event}
  {rest : List Event} (hev : s.events = e :: rest)

include hs hb hev

/-- The state in which an event is handled. -/
theorem dispatched_of_evolve {t : State}
    (h : Evolve M Nobody Nobody Anyone { s with events := rest } t) :
    Dispatched M s t .dispatch := h.dispatched hs hb (by rw [hev, List.tail_cons])

/-- A handler that always goes on with the next event. -/
theorem dispatched_of_keeps {f : Worker Unit}
    (hf : Keeps A (Evolve M Nobody Nobody Anyone) f) :
    Sat A (fun s' l' => Dispatched M s s' l')
      ((do f; pure .dispatch : Worker Loc) { s with events := rest }) :=
  (hf _).bind fun _ _ h => dispatched_of_evolve hs hb hev h

theorem dispatched_refl :
    Sat A (fun s' l' => Dispatched M s s' l')
      ((pure .dispatch : Worker Loc) { s with events := rest }) :=
  dispatched_of_evolve hs hb hev (Evolve.refl _ _ _ _ _)

theorem dispatchControl_sat (hclock : Clock M A) (hk : e.ref = .control k) (bits : Bits) :
    Sat A (fun s' l' => Dispatched M s s' l')
      (dispatchControl k bits { s with events := rest }) := by
  simp only [dispatchControl, bind_run, Worker.get_run, ret_bind, ite_run]
  split
  · rename_i hc
    simp only [Bool.and_eq_true] at hc
    split
    · rename_i hst
      have hE : Establishing A k (Shake M k) (Evolve M (Only k) (Only k) Anyone) :=
        establishing_evolve
      refine (completes_associateAdvance (handshaken_shake hclock) hE.toCompleting
        (completes_completeAssociate (handshaken_shake hclock) hE) bits { s with events := rest }
        hst).bind fun t good ht => ?_
      cases good with
      | true =>
          obtain ⟨hts, -, hsame, hfate⟩ := ht.sessions
            ⟨hs.whole, hs.cap, hs.uid_lt, hs.uid_inj, hs.armed⟩ (by rintro j rfl; exact hc.2)
          have hbatch : t.frame.batch = s.frame.batch := congrArg Rest.batch ht.rest
          refine ⟨hts, ?_, fun j => ?_, ⟨_, _, _, _, _, ht.rest.trans (by rw [hev]; rfl)⟩, by simp,
            Or.inl rfl⟩
          · show t.frame.batch.entries = []
            rw [hbatch, hb]
          · by_cases hj : j = k
            · subst hj
              have := hsame j rfl
              exact Or.inr ⟨⟨e, rest, hev, hk, hc.2, hst⟩, this.used, this.uid, this.addr⟩
            · exact Or.inl (Fate.trans (t := { s with events := rest })
                (Or.inl ⟨rfl, rfl, rfl, Iff.rfl, rfl⟩) (hfate j hj))
      | false =>
          exact ((ht.trans (like_count t .udpSendErrors 1).beside.evolve).thenDrop hc.2).bind
            fun u _ hu => dispatched_of_evolve hs hb hev hu
    · exact dispatched_of_keeps hs hb hev (keeps_sessionControlEvent tolerant_evolve k bits)
  · exact dispatched_refl hs hb hev

theorem dispatchRelay_sat (k : Nat) (bits : Bits) :
    Sat A (fun s' l' => Dispatched M s s' l')
      (dispatchRelay k bits { s with events := rest }) := by
  simp only [dispatchRelay, bind_run, Worker.get_run, ret_bind, ite_run]
  split
  · rename_i hc
    simp only [Bool.and_eq_true, decide_eq_true_eq] at hc
    split
    · exact dispatched_of_keeps hs hb hev (keeps_sessionDrop id id trivial)
    · split
      · refine (upstreamReceive_sat (M := M) k _).mono fun s' l' h => ?_
        rcases h with ⟨rfl, h⟩ | ⟨rfl, t, datagrams, ht, rfl⟩
        · exact dispatched_of_evolve hs hb hev h
        · obtain ⟨hts, -⟩ := (ht.beside.evolve (M := M) (U := Nobody) (W := Nobody)
            (D := Nobody)).sessions ⟨hs.whole, hs.cap, hs.uid_lt, hs.uid_inj, hs.armed⟩ (by simp)
          obtain ⟨n, rfl, -⟩ := ht
          exact ⟨⟨hts.whole, hts.cap, hts.uid_lt, hts.uid_inj, hts.armed⟩,
            ⟨Or.inl rfl, hc.1.2, hc.2⟩, fun j => Or.inl (Or.inl ⟨rfl, rfl, rfl, Iff.rfl, rfl⟩),
            ⟨_, _, _, _, _, by rw [hev]; rfl⟩, by simp, Or.inr (Or.inr rfl)⟩
      · exact dispatched_refl hs hb hev
  · exact dispatched_refl hs hb hev

theorem dispatchDownlink_sat (k id : Nat) (bits : Bits) :
    Sat A (fun s' l' => Dispatched M s s' l')
      (dispatchDownlink k id bits { s with events := rest }) := by
  simp only [dispatchDownlink, bind_run, Worker.get_run, ret_bind, ite_run]
  split
  · rename_i hc
    simp only [Bool.and_eq_true] at hc
    have hused : ∀ j, Only k j → (s.tbl.core j).used = true := by
      rintro j rfl
      exact hc.2
    split
    · exact dispatched_of_keeps hs hb hev (keeps_dropCounted _ k)
    · split
      · refine ((replying_seen (A := A) (k := k)).downlinkFlushChannel id { s with events := rest }).bind
          fun t good ht => ?_
        cases good with
        | true =>
            have he := ht.evolve (M := M) (W := Nobody) (D := Anyone)
            refine dispatched_of_evolve hs hb hev ⟨he.rest, he.clock, fun h _ => ?_⟩
            obtain ⟨h1, -, h3, h4⟩ := he.sessions h hused
            exact ⟨h1, by simp, h3, h4⟩
        | false =>
            have he := ht.evolve (M := M) (W := Only k) (D := Anyone)
            exact ((he.trans (like_count t .udpSendErrors 1).beside.evolve).thenDrop hc.2).bind
              fun u _ hu => dispatched_of_evolve hs hb hev hu
      · exact dispatched_refl hs hb hev
  · exact dispatched_refl hs hb hev

theorem clientReceive_sat (fd : Nat) :
    Sat A (fun s' l' => Dispatched M s s' l') (clientReceive fd { s with events := rest }) := by
  intro r _
  rcases r with err | datagrams
  · exact dispatched_refl (A := A) hs hb hev
  · show Sat A _ ((nowMs { s with events := rest }).bind _)
    refine (quiet_nowMs (A := A) { s with events := rest }).bind fun t now ht => ?_
    refine (quiet_dnsStep (A := A) (.expireTransactions now) t).bind fun u _ hu => ?_
    have hlike := ht.trans hu
    obtain ⟨hus, -⟩ := (hlike.beside.evolve (M := M) (U := Nobody) (W := Nobody)
      (D := Nobody)).sessions ⟨hs.whole, hs.cap, hs.uid_lt, hs.uid_inj, hs.armed⟩ (by simp)
    obtain ⟨n, rfl, -⟩ := hlike
    exact ⟨⟨hus.whole, hus.cap, hus.uid_lt, hus.uid_inj, hus.armed⟩, hb,
      fun j => Or.inl (Or.inl ⟨rfl, rfl, rfl, Iff.rfl, rfl⟩), ⟨_, _, _, _, _, by rw [hev]; rfl⟩,
      fun _ => rfl, Or.inr (Or.inl rfl)⟩

theorem dispatchDnsRelay_sat (i : Fin dnsChannelsPerWorker) (bits : Bits) :
    Sat A (fun s' l' => Dispatched M s s' l')
      (dispatchDnsRelay i bits { s with events := rest }) := by
  simp only [dispatchDnsRelay, bind_run, Worker.get_run, ret_bind, ite_run]
  split
  · split
    · exact dispatched_of_keeps hs hb hev (f := do let _ ← dnsStep (.closeChannel i))
        ((quiet_dnsStep _).evolve.bind fun _ => keeps_pure _)
    · split
      · exact dispatched_of_keeps hs hb hev (Beside.keepsEvolve (keeps_dnsHandleUpstream i))
      · exact dispatched_refl hs hb hev
  · exact dispatched_refl hs hb hev

theorem dispatchEvent_sat (hclock : Clock M A) :
    Sat A (fun s' l' => Dispatched M s s' l') (dispatchEvent e { s with events := rest }) := by
  obtain ⟨ref, bits, uid⟩ := e
  cases ref with
  | listener4 =>
      show Sat A _ ((if _ then _ else _ : Worker Loc) _)
      split
      · exact clientReceive_sat hs hb hev _
      · exact dispatched_refl hs hb hev
  | listener6 =>
      simp only [dispatchEvent, bind_run, Worker.get_run, ret_bind]
      rcases s.cfg.listener6 with _ | fd
      · exact dispatched_refl hs hb hev
      · show Sat A _ ((if _ then _ else _ : Worker Loc) _)
        split
        · exact clientReceive_sat hs hb hev fd
        · exact dispatched_refl hs hb hev
  | control k => exact dispatchControl_sat hs hb hev hclock rfl bits
  | relay k => exact dispatchRelay_sat hs hb hev k bits
  | dnsControl i =>
      exact dispatched_of_keeps hs hb hev (f := do let _ ← dnsStep (.controlEvent i bits))
        ((quiet_dnsStep _).evolve.bind fun _ => keeps_pure _)
  | dnsRelay i => exact dispatchDnsRelay_sat hs hb hev i bits
  | downlink k id => exact dispatchDownlink_sat hs hb hev k id bits
  | budgetWake => exact fun _ _ => dispatched_refl (A := A) hs hb hev
  | destroyEvents =>
      refine dispatched_of_keeps hs hb hev (f := do let now ← nowMs; releaseHandleEvents now) ?_
      exact quiet_nowMs.evolve.bind fun now => keeps_releaseHandleEvents tolerant_evolve now

end Events

/-- The loop over the event array, one event. -/
theorem dispatchNext_sat (hclock : Clock M A) {s : State} (hs : Sessions M s)
    (hb : s.frame.batch.entries = []) :
    Sat A (fun s' l' => s' = s ∧ l' = .maintain ∨ Dispatched M s s' l') (dispatchNext s) := by
  simp only [dispatchNext, bind_run, Worker.get_run, ret_bind]
  rcases hev : s.events with _ | ⟨e, rest⟩
  · exact Or.inl ⟨rfl, rfl⟩
  · exact (dispatchEvent_sat hs hb hev hclock).mono fun _ _ h => Or.inr h

/-! ## Every step -/

/-- Everything a step of the worker can do to the sessions. -/
inductive Effect (M : Prop) : Loc → State → Loc → State → Prop where
  | arrayDone {s : State} : Effect M .dispatch s .maintain s
  | event {s s' : State} {l' : Loc} (h : Dispatched M s s' l') : Effect M .dispatch s l' s'
  | looked {s s' : State} {l' : Loc} (h : LookedAt M s s' l') :
      Effect M .clientPacket s l' s'
  | served {s s' : State} {p : ClientPacket} {existing : Option Nat}
      (h : Served M p existing s s') : Effect M (.clientSession p existing) s .clientPacket s'
  | flushDone {s : State} : Effect M .clientFlush s .dispatch s
  | flushed {s s' : State} {o : Outgoing} (ho : o ∈ s.frame.outgoing) (h : Flushed M s s' o) :
      Effect M .clientFlush s .clientFlush s'
  | replied {s s' : State} {l' : Loc} (h : Replied M s s' l') : Effect M .upstream s l' s'
  | repliesDone {s s' : State} {failed : Bool} (h : RepliesDone M s s') :
      Effect M (.upstreamDone failed) s .dispatch s'
  | maintained {s s' : State} (h : Evolve M Nobody Nobody Anyone s s') :
      Effect M .maintain s .wait s'

/-- A step does nothing else. -/
theorem step_effect (hclock : Clock M A) {l : Loc} {s : State} (hs : Sessions M s)
    (hat : AtLoc s l) : Sat A (fun s' l' => Effect M l s l' s') (step l s) := by
  cases l with
  | wait => trivial
  | dispatch =>
      refine (dispatchNext_sat hclock hs hat).mono fun s' l' h => ?_
      rcases h with ⟨rfl, rfl⟩ | h
      · exact .arrayDone
      · exact .event h
  | clientPacket => exact (clientNext_sat hs hat).mono fun s' l' h => .looked h
  | clientSession p existing =>
      refine (clientSession_sat hclock hs hat).mono fun s' l' h => ?_
      obtain ⟨h, rfl⟩ := h
      exact .served h
  | clientFlush =>
      refine (clientFlush_sat hs).mono fun s' l' h => ?_
      rcases h with ⟨rfl, rfl⟩ | ⟨rfl, o, ho, h⟩
      · exact .flushDone
      · exact .flushed ho h
  | upstream => exact (upstreamNext_sat hs hat).mono fun s' l' h => .replied h
  | upstreamDone failed =>
      refine (upstreamDone_sat hs failed).mono fun s' l' h => ?_
      obtain ⟨h, rfl⟩ := h
      exact .repliesDone h
  | maintain =>
      refine (runMaintenance_sat (M := M) s).mono fun s' l' h => ?_
      obtain ⟨h, rfl⟩ := h
      exact .maintained h

/-- The sessions and the locals of the running handler are kept by every step. -/
theorem Effect.sessions {l l' : Loc} {s s' : State} (h : Effect M l s l' s')
    (hs : Sessions M s) (hat : AtLoc s l) :
    Sessions M s' ∧ AtLoc s' l' ∧ s'.cfg = s.cfg := by
  cases h with
  | arrayDone => exact ⟨hs, hat, rfl⟩
  | event h =>
      obtain ⟨_, _, _, _, _, hr⟩ := h.rest
      exact ⟨h.sessions, h.loc, congrArg Rest.cfg hr⟩
  | looked h =>
      obtain ⟨_, hr⟩ := h.1.rest
      exact ⟨h.1.sessions, h.2.1, congrArg Rest.cfg hr⟩
  | served h =>
      rename_i p existing
      obtain ⟨_, _, -, hr, -⟩ := h.rest
      have hb : s.frame.batch.entries = [] := by
        cases existing with
        | none => exact hat.1
        | some k => exact hat.1
      have hbatch : s'.frame.batch = s.frame.batch := congrArg Rest.batch hr
      exact ⟨h.sessions, by show s'.frame.batch.entries = []; rw [hbatch, hb], congrArg Rest.cfg hr⟩
  | flushDone => exact ⟨hs, hat, rfl⟩
  | flushed _ h =>
      obtain ⟨_, hr⟩ := h.rest
      have hbatch : s'.frame.batch = s.frame.batch := congrArg Rest.batch hr
      have hb : s.frame.batch.entries = [] := hat
      exact ⟨h.sessions, by show s'.frame.batch.entries = []; rw [hbatch, hb], congrArg Rest.cfg hr⟩
  | replied h => exact ⟨h.sessions, h.loc, congrArg Rest.cfg h.rest⟩
  | repliesDone h =>
      have hbatch : s'.frame.batch = .init := congrArg Rest.batch h.rest
      exact ⟨h.sessions, by show s'.frame.batch.entries = []; rw [hbatch]; rfl,
        congrArg Rest.cfg h.rest⟩
  | maintained h =>
      have hbatch : s'.frame.batch = s.frame.batch := congrArg Rest.batch h.rest
      have hb : s.frame.batch.entries = [] := hat
      exact ⟨(h.sessions hs (by simp)).1, by show s'.frame.batch.entries = []; rw [hbatch, hb],
        congrArg Rest.cfg h.rest⟩

end Bpf2Socks.Udp

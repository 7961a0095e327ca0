/-
# Bpf2Socks.Udp.Opening — a new session takes a slot.

`sessionGet` for an unknown client takes the first free slot or, if there is none, evicts a
session and takes its slot: `allocTarget` is the slot, as a function of the state.  Until the new
session is linked in, its slot is a hole of the table (`Opening`).  `Opened` says what the call
leaves, on success and on every failure: no slot but the target is touched.
-/
import Bpf2Socks.Udp.Lifecycle

namespace Bpf2Socks.Udp

open Function (update update_self update_of_ne)
open Lib (Prog Act DLists)
open Lib.Prog Lib.Act
open Worker hiding get modify ask diverge

variable {A : State → (q : Sys) → q.Ans → Prop} {M : Prop} {k : Nat}

/-! ## Lookup -/

theorem SessTable.of_find {t : SessTable} {addr : Sockaddr} (hf : t.find addr = some k) :
    (t.core k).used = true ∧ sameSockaddr (t.core k).clientAddr addr = true := by
  have := List.find?_some hf
  simpa using this

/-- A client that is not found has no session. -/
theorem SessTable.Inv.of_find_none {t : SessTable} {hole : Option Nat} {lru hs : List Nat}
    (h : t.Inv hole lru hs) {addr : Sockaddr} (hf : t.find addr = none) {j : Nat} (hj : j ∈ lru) :
    sameSockaddr (t.core j).clientAddr addr = false := by
  by_contra hsame
  rw [Bool.not_eq_false] at hsame
  have hb : j ∈ t.buckets (sessionBucket addr) :=
    h.mem_bucket.mpr ⟨hj, (sessionBucket_congr hsame).symm⟩
  have := List.find?_eq_none.mp hf j hb
  simp [(h.mem_lru.mp hj).1, hsame] at this

/-! ## Watching for destroyed sockets without a local session -/

/-- From `s` to `s'` only the release bookkeeping and the registration of its notifications
changed, up to noise, and the notifications did not go out of watch. -/
def Aside (s s' : State) : Prop :=
  ∃ rel mask, (s.rel.armed = true → rel.armed = true) ∧
    Like { s with rel := rel, kern.interest := update s.kern.interest .destroyEvents mask } s'

theorem Like.aside {s s' : State} (h : Like s s') : Aside s s' :=
  ⟨s.rel, s.kern.interest .destroyEvents, id, by rw [Function.update_eq_self]; exact h⟩

theorem Aside.refl (s : State) : Aside s s := (Like.refl s).aside

theorem Aside.trans {s s' s'' : State} (h : Aside s s') (h' : Aside s' s'') : Aside s s'' := by
  obtain ⟨rel, mask, ha, n, rfl, hn⟩ := h
  obtain ⟨rel', mask', ha', n', rfl, hn'⟩ := h'
  refine ⟨rel', mask', fun h => ha' (ha h), n', ?_, Nat.le_trans hn hn'⟩
  simp only [State.noise, Function.update_idem]

instance : IsPreorder State Aside where
  refl := Aside.refl
  trans _ _ _ := Aside.trans

theorem aside_rel (s : State) (rel : Release) (h : s.rel.armed = true → rel.armed = true) :
    Aside s { s with rel := rel } :=
  ⟨rel, s.kern.interest .destroyEvents, h, by rw [Function.update_eq_self]; exact Like.refl _⟩

theorem aside_flagPort (s : State) (port : UInt16) : Aside s (flagPort s port) :=
  aside_rel s _ fun h => h

theorem Quiet.aside {α : Type} {f : Worker α} (hf : Quiet A f) : Keeps A Aside f :=
  hf.imp Like.aside

theorem Aside.armed {s s' : State} (h : Aside s s') (hs : s.rel.armed = true) :
    s'.rel.armed = true := by
  obtain ⟨rel, mask, ha, n, rfl, -⟩ := h
  exact ha hs

/-- No session in use has a loopback client. -/
def NoLocal (s : State) : Prop :=
  ∀ k, (s.tbl.core k).used = true → sessionClientIsLocal s k = false

theorem Aside.noLocal {s s' : State} (h : Aside s s') (hs : NoLocal s) : NoLocal s' := by
  obtain ⟨rel, mask, -, n, rfl, -⟩ := h
  exact hs

theorem Sessions.noLocal {s : State} (hs : Sessions M s) (h : s.rel.armed = false) :
    NoLocal s := by
  obtain ⟨lru, l, hi, -⟩ := hs.whole
  have h0 : s.tbl.localCount = 0 := hs.armed.resolve_left (by simp [h])
  intro k hk
  rw [hi.local_eq, List.countP_eq_zero] at h0
  simpa [sessionClientIsLocal] using h0 k (hi.mem_lru.mpr ⟨hk, by simp⟩)

theorem aside_flagLocalFrom (fuel : Nat) (cur : Option Nat) :
    Keeps A Aside (flagLocalFrom fuel cur) := by
  induction fuel generalizing cur with
  | zero => exact keeps_diverge
  | succ fuel ih =>
      cases cur with
      | none => exact keeps_pure _
      | some k =>
          refine keeps_get.bind fun s => keeps_ite (keeps_ite ?_ (ih _)) (keeps_pure _)
          exact (keeps_modify fun s => aside_flagPort s _).bind fun _ => ih _

/-- The walk passes over every session. -/
theorem releaseFlaggedFrom_sat (now fuel : Nat) (cur : Option Nat) (memo : PortMemo) {s : State}
    (hs : NoLocal s) :
    Sat A (fun s' _ => s' = s) (releaseFlaggedFrom now fuel cur memo s) := by
  induction fuel generalizing cur with
  | zero => trivial
  | succ fuel ih =>
      cases cur with
      | none => rfl
      | some k =>
          simp only [releaseFlaggedFrom, bind_run, Worker.get_run, ret_bind, ite_run]
          split
          · rfl
          · rename_i hu
            rw [if_pos (by simp [hs k (by simpa using hu)])]
            exact ih _

theorem aside_releaseLost (now : Nat) : Keeps A Aside (releaseLost now) :=
  (quiet_count _ _).aside.bind fun _ => (keeps_get.bind fun _ => aside_flagLocalFrom _ _).bind
    fun _ => keeps_modify fun s => aside_rel s _ fun h => h

theorem releaseHandleEvents_sat (now : Nat) {s : State} (hs : NoLocal s) :
    Sat A (fun s' _ => Aside s s') (releaseHandleEvents now s) := by
  have hflagged : ∀ t, Aside s t →
      Sat A (fun s' _ => Aside s s') (releaseFlaggedSessions now t) := by
    intro t ht
    refine (releaseFlaggedFrom_sat now _ _ [] (ht.noLocal hs)).bind fun t' _ h => ?_
    subst h
    exact ht.trans (aside_rel _ _ fun h => h)
  intro r _
  have htail : ∀ t, Aside s t → Sat A (fun s' _ => Aside s s')
      ((if r.2 then releaseLost now >>= fun _ => releaseFlaggedSessions now
        else releaseFlaggedSessions now) t) := by
    intro t ht
    split
    · exact (aside_releaseLost now _).bind fun t' _ ht' => hflagged t' (ht.trans ht')
    · exact hflagged t ht
  have hflag : Aside s (r.1.foldl flagPort s) := foldl_of_step (fun s p => aside_flagPort s p) _ s
  have hcount : Aside s ((r.1.foldl flagPort s).count .udpReleaseEvents r.1.length) :=
    hflag.trans (like_count _ _ _).aside
  show Sat A _ ((if _ then _ else _ : Worker Unit) _)
  split
  · exact hcount
  · have hstamp : ∀ t, Aside s t →
        Aside s (if r.1.length > 0 then stampDestroyedPorts t now else t) := by
      intro t ht
      split
      · exact ht.trans (aside_rel _ _ fun h => h)
      · exact ht
    exact htail _ (hstamp _ hcount)

theorem releaseArm_sat (now : Nat) {s : State} (hs : NoLocal s) :
    Sat A (fun s' _ => Aside s s' ∧ s'.rel.armed = true) (releaseArm now s) := by
  have hrest : ∀ t, Aside s t → Sat A (fun s' _ => Aside s s' ∧ s'.rel.armed = true)
      (releaseHandleEvents now { t with rel := { t.rel with armed := true } }) := by
    intro t ht
    have ht' : Aside s { t with rel := { t.rel with armed := true } } :=
      ht.trans (aside_rel _ _ fun _ => rfl)
    exact (releaseHandleEvents_sat now (ht'.noLocal hs)).mono fun s' _ h =>
      ⟨ht'.trans h, h.armed rfl⟩
  intro done _
  cases done with
  | false => exact hrest s (Aside.refl s)
  | true => exact hrest _ ⟨s.rel, some .input, id, Like.refl _⟩

/-! ## Allocation -/

/-- The slot `alloc_session` takes: the first free one, else the evicted session's. -/
def allocTarget (s : State) : Option Nat :=
  match s.tbl.free with
  | k :: _ => some k
  | [] => (evictionVictim s).join

/-- After `alloc_session` took slot `k`. -/
def takeSlot (s : State) (k : Nat) : State :=
  let s := if s.tbl.free = [] then dropState s k else s
  { s with tbl := { s.tbl with free := s.tbl.free.tail } }

/-- The eviction walk reads the table and what the sessions hold for their clients. -/
theorem victimFrom_congr {s s' : State} (htbl : s'.tbl = s.tbl) (hdown : s'.down = s.down)
    (readyOnly : Bool) (fuel : Nat) (cur : Option Nat) :
    victimFrom s' readyOnly fuel cur = victimFrom s readyOnly fuel cur := by
  induction fuel generalizing cur with
  | zero => rfl
  | succ fuel ih =>
      cases cur with
      | none => rfl
      | some k =>
          have hd : droppable s' k = droppable s k := by rw [droppable, droppable, hdown]
          simp only [victimFrom]
          rw [hd, htbl, ih]

theorem allocTarget_congr {s t : State} (htbl : t.tbl = s.tbl) (hdown : t.down = s.down) :
    allocTarget t = allocTarget s := by
  simp only [allocTarget, evictionVictim, victimFrom_congr htbl hdown, htbl]

theorem victimFrom_mem {s : State} {readyOnly : Bool} {fuel : Nat} {cur : Option Nat}
    {l : List Nat} (hseg : DLists.Seg s.tbl.lru.next cur l none)
    (h : victimFrom s readyOnly fuel cur = some (some k)) : k ∈ l ∧ droppable s k = true := by
  induction fuel generalizing cur l with
  | zero => simp [victimFrom] at h
  | succ fuel ih =>
      cases l with
      | nil =>
          obtain rfl : cur = none := hseg
          simp [victimFrom] at h
      | cons j l =>
          obtain ⟨rfl, hseg⟩ := hseg
          simp only [victimFrom] at h
          split at h
          · rename_i hd
            simp only [Option.some.injEq] at h
            simp only [Bool.and_eq_true] at hd
            exact ⟨h ▸ List.mem_cons_self, h ▸ hd.1⟩
          · exact (ih hseg h).imp (List.mem_cons_of_mem j) id

/-- Only sessions in use that hold no reply are evicted. -/
theorem Sessions.victim {s : State} (hs : Sessions M s)
    (h : evictionVictim s = some (some k)) :
    (s.tbl.core k).used = true ∧ droppable s k = true := by
  obtain ⟨lru, l, hi, -⟩ := hs.whole
  have hmem : k ∈ lru ∧ droppable s k = true := by
    unfold evictionVictim at h
    split at h
    · simp at h
    · rename_i hv
      rw [h] at hv
      exact victimFrom_mem (hi.lruRep.fwd ()) hv
    · exact victimFrom_mem (hi.lruRep.fwd ()) h
  exact ⟨(hi.mem_lru.mp hmem.1).1, hmem.2⟩

theorem allocSession_free (fuel : Nat) {s : State} {rest : List Nat}
    (hf : s.tbl.free = k :: rest) :
    allocSession (fuel + 1) s =
      .ret { s with tbl := { s.tbl with free := s.tbl.free.tail } } (some k) := by
  simp [allocSession, hf]

theorem allocSession_sat {s : State} (hs : Sessions M s) :
    Sat A (fun s' r => r = allocTarget s ∧
      match r with
      | none => s' = s
      | some k => Like (takeSlot s k) s') (allocSession 2 s) := by
  rcases hf : s.tbl.free with _ | ⟨k, rest⟩
  · simp only [allocSession, bind_run, Worker.get_run, ret_bind, hf]
    rcases hv : evictionVictim s with _ | _ | k
    · trivial
    · simp [allocTarget, hf, hv]
    · refine (sessionDrop_sat (hs.victim hv).1).bind fun s' _ h => ?_
      have h' : Like (dropState s k) (s'.count .udpSessionEvictions) := h.trans (like_count _ _ _)
      have hfree : (dropState s k).tbl.free = k :: s.tbl.free := by
        rw [dropState_tbl]
        obtain ⟨c, d, n, -, -, heq⟩ := s.tbl.detach_eq k
        simp only [SessTable.dropped, heq]
      obtain ⟨n, heq, hn⟩ := h'
      have hfree' : (s'.count .udpSessionEvictions).tbl.free = k :: [] := by
        rw [heq, ← hf]
        exact hfree
      show Sat A _ (allocSession 1 (s'.count .udpSessionEvictions))
      rw [allocSession_free 0 hfree', heq]
      refine ⟨by simp [allocTarget, hf, hv], n, ?_, ?_⟩ <;> simp only [takeSlot, if_pos hf]
      · rfl
      · exact hn
  · rw [allocSession_free 1 hf]
    refine ⟨by simp [allocTarget, hf], ?_⟩
    simp only [takeSlot, hf, reduceCtorEq, if_false]
    exact Like.refl _

/-! ## A slot that is being filled -/

/-- Slot `k` is out of the table, for a client at `addr` that no session belongs to. -/
structure Opening (M : Prop) (k : Nat) (addr : Sockaddr) (s : State) : Prop where
  table : ∃ lru hs, s.tbl.Inv (some k) lru hs ∧ Handshakes M s.tbl hs s.trace.clock
  cap : s.tbl.cap = s.cfg.sessionCap
  uid_lt : ∀ {j}, j ≠ k → (s.tbl.core j).used = true →
    (s.tbl.core j).uid < s.trace.nextUid
  uid_inj : ∀ {i j}, i ≠ k → j ≠ k → (s.tbl.core i).used = true → (s.tbl.core j).used = true →
    (s.tbl.core i).uid = (s.tbl.core j).uid → i = j
  unknown : ∀ {j}, j ≠ k → (s.tbl.core j).used = true →
    sameSockaddr (s.tbl.core j).clientAddr addr = false
  armed : s.rel.armed = true ∨ s.tbl.localCount = 0
  watched : sockaddrIsLoopback addr = true → s.rel.armed = true

theorem Handshakes.congr {t t' : SessTable} {hs : List Nat} {c c' : Nat}
    (h : Handshakes M t hs c) (hc : c ≤ c') (hcore : ∀ j ∈ hs, t'.core j = t.core j) :
    Handshakes M t' hs c' := by
  refine ⟨fun j hj => ?_, fun hm => (h.sorted hm).imp_of_mem fun {a b} ha hb hab => ?_⟩
  · rw [hcore j hj]
    exact Nat.le_trans (h.started_le j hj) hc
  · rw [hcore a ha, hcore b hb]
    exact hab

/-- What else happens while a slot is filled: records of other slots and the bookkeeping stay. -/
theorem Opening.congr {addr : Sockaddr} {s s' : State} (h : Opening M k addr s)
    (htable : ∀ {lru hs}, s.tbl.Inv (some k) lru hs → s'.tbl.Inv (some k) lru hs)
    (hcore : ∀ j, j ≠ k → s'.tbl.core j = s.tbl.core j) (hcap : s'.tbl.cap = s.tbl.cap)
    (hcfg : s'.cfg = s.cfg) (hlocal : s'.tbl.localCount = s.tbl.localCount)
    (hrel : s'.rel = s.rel) (hclock : s.trace.clock ≤ s'.trace.clock)
    (huid : s.trace.nextUid ≤ s'.trace.nextUid) : Opening M k addr s' := by
  obtain ⟨lru, hs, hi, hh⟩ := h.table
  refine ⟨⟨lru, hs, htable hi, hh.congr hclock fun j hj => hcore j ?_⟩, ?_, ?_, ?_, ?_, ?_, ?_⟩
  · rintro rfl
    exact hi.hole_not_mem_hs hj
  · rw [hcap, hcfg]
    exact h.cap
  · intro j hj hu
    rw [hcore j hj] at hu ⊢
    exact Nat.lt_of_lt_of_le (h.uid_lt hj hu) huid
  · intro i j hi hj
    rw [hcore i hi, hcore j hj]
    exact h.uid_inj hi hj
  · intro j hj
    rw [hcore j hj]
    exact h.unknown hj
  · rw [hrel, hlocal]
    exact h.armed
  · rw [hrel]
    exact h.watched

theorem Opening.modCore {addr : Sockaddr} {s : State} (h : Opening M k addr s)
    {f : SessCore → SessCore} (hf : (f (s.tbl.core k)).handshakeLinked = false) :
    Opening M k addr (s.modCore k f) :=
  h.congr (fun hi => hi.set_hole hf) (fun _ hj => update_of_ne hj _ _) rfl rfl rfl rfl
    (Nat.le_refl _) (Nat.le_refl _)

theorem Opening.beside {addr : Sockaddr} {s s' : State} (h : Opening M k addr s)
    (hb : Beside s s') : Opening M k addr s' := by
  have ho := hb.outside
  exact h.congr (fun hi => hb.tbl ▸ hi) (fun _ _ => by rw [hb.tbl]) (by rw [hb.tbl])
    (congrArg Outside.cfg ho) (by rw [hb.tbl]) (congrArg Outside.rel ho) hb.clock
    (Nat.le_of_eq (congrArg Outside.nextUid ho).symm)

theorem Opening.modAssoc {addr : Sockaddr} {s : State} (h : Opening M k addr s) (j : Nat)
    (f : Assoc → Assoc) : Opening M k addr (s.modAssoc j f) :=
  h.congr id (fun _ _ => rfl) rfl rfl rfl rfl (Nat.le_refl _) (Nat.le_refl _)

theorem Opening.clearSession {addr : Sockaddr} {s : State} (h : Opening M k addr s) :
    Opening M k addr (clearSession s k) :=
  h.congr (fun hi => (hi.set_hole rfl).clear_links) (fun _ hj => update_of_ne hj _ _) rfl rfl rfl
    rfl (Nat.le_refl _) (Nat.le_refl _)

theorem Opening.initSession {addr : Sockaddr} {s : State} (h : Opening M k addr s)
    (p : ClientPacket) : Opening M k addr (initSession s k p) :=
  (h.clearSession.modCore (f := fun c => { c with
    used := true, clientAddr := p.clientAddr, tokenLookupMode := p.tokenLookupMode
    uid := s.trace.nextUid }) (by simp [Udp.clearSession, SessCore.zero])).congr id (fun _ _ => rfl)
    rfl rfl rfl rfl (Nat.le_refl _) (Nat.le_succ _)

theorem opening_takeSlot {s : State} (hs : Sessions M s) {p : ClientPacket}
    (hfind : s.tbl.find p.clientAddr = none) (hk : allocTarget s = some k)
    (hwatch : sockaddrIsLoopback p.clientAddr = true → s.rel.armed = true) :
    Opening M k p.clientAddr (takeSlot s k) ∧ (takeSlot s k).rest = s.rest ∧
      ((takeSlot s k).tbl.core k).used = false ∧ ∀ j, j ≠ k → Kept s (takeSlot s k) j := by
  obtain ⟨lru, l, hi, -⟩ := hs.whole
  have hunknown : ∀ {j}, (s.tbl.core j).used = true →
      sameSockaddr (s.tbl.core j).clientAddr p.clientAddr = false := fun hu =>
    hi.of_find_none hfind (hi.mem_lru.mpr ⟨hu, by simp⟩)
  -- the state before the slot comes off the free list
  have key : ∀ t, Sessions M t → (t.tbl.free = k :: t.tbl.free.tail) →
      t.rel = s.rel → (∀ j, j ≠ k → Kept s t j) →
      Opening M k p.clientAddr { t with tbl := { t.tbl with free := t.tbl.free.tail } } ∧
        (t.tbl.core k).used = false := by
    intro t ht hfree hrel hkept
    obtain ⟨lru, l, hi, hl⟩ := ht.whole
    obtain ⟨hpop, hunused⟩ := hi.pop hfree
    refine ⟨⟨⟨lru, l, hpop, hl.started_le, hl.sorted⟩, ht.cap, fun _ => ht.uid_lt,
      fun _ _ => ht.uid_inj, fun hj hu => ?_, ht.armed, fun hw => hrel ▸ hwatch hw⟩, hunused⟩
    have := hkept _ hj
    show sameSockaddr (t.tbl.core _).clientAddr _ = _
    rw [this.addr]
    exact hunknown (this.used ▸ hu)
  unfold takeSlot
  rcases hf : s.tbl.free with _ | ⟨k', rest⟩
  · rw [if_pos rfl]
    have hv : evictionVictim s = some (some k) := by
      simpa [allocTarget, hf, Option.join_eq_some_iff] using hk
    obtain ⟨hs', -, hkept⟩ := dropState_sessions (hs.victim hv).1 hs
    have hfree : (dropState s k).tbl.free = k :: s.tbl.free := by
      rw [dropState_tbl]
      obtain ⟨c, d, n, -, -, heq⟩ := s.tbl.detach_eq k
      simp only [SessTable.dropped, heq]
    obtain ⟨ho, hu⟩ := key _ hs' (by rw [hfree, List.tail_cons]) (dropState_armed s k) hkept
    exact ⟨ho, dropState_rest s k, hu,
      fun j hj => ⟨(hkept j hj).used, (hkept j hj).uid, (hkept j hj).addr, (hkept j hj).ready,
        (hkept j hj).refs⟩⟩
  · rw [if_neg (by simp)]
    obtain rfl : k' = k := by simpa [allocTarget, hf] using hk
    obtain ⟨ho, hu⟩ := key s hs (by rw [hf, List.tail_cons]) rfl fun j _ => .refl s j
    exact ⟨ho, rfl, hu, fun j _ => ⟨rfl, rfl, rfl, Iff.rfl, rfl⟩⟩

/-! ## Opening a session -/

/-- The session in slot `k` is the one opened for packet `p`, counting from state `s`. -/
structure New (p : ClientPacket) (s s' : State) (k : Nat) : Prop where
  used : (s'.tbl.core k).used = true
  stage : (s'.tbl.core k).stage ≠ .ready
  addr : (s'.tbl.core k).clientAddr = p.clientAddr
  uid : (s'.tbl.core k).uid = s.trace.nextUid

/-- The record of slot `k` is filled for packet `p`, but not linked yet. -/
structure Filled (M : Prop) (p : ClientPacket) (k : Nat) (s t : State) : Prop where
  before : Opening M k p.clientAddr s
  opening : Opening M k p.clientAddr t
  new : New p s t k
  unlinked : (t.tbl.core k).handshakeLinked = false
  rest : t.rest = { s.rest with nextUid := s.trace.nextUid + 1 }
  others : ∀ j, j ≠ k → Kept s t j

theorem filled_initSession {s : State} {p : ClientPacket}
    (h : Opening M k p.clientAddr s) : Filled M p k s (initSession s k p) := by
  refine ⟨h, h.initSession p, ⟨?_, ?_, ?_, ?_⟩, ?_, rfl, fun j hj => ?_⟩
  · simp [initSession, State.modCore]
  · simp [initSession, State.modCore, clearSession, SessCore.zero]
  · simp [initSession, State.modCore]
  · simp [initSession, State.modCore, clearSession]
  · simp [initSession, State.modCore, clearSession, SessCore.zero]
  · constructor <;> simp [initSession, State.modCore, clearSession, hj]

/-- Changing the record while it is filled. -/
theorem Filled.modCore {s t : State} {p : ClientPacket} (h : Filled M p k s t)
    {f : SessCore → SessCore} (hused : ∀ c, (f c).used = c.used)
    (hstage : ∀ c, c.stage ≠ .ready → (f c).stage ≠ .ready)
    (haddr : ∀ c, (f c).clientAddr = c.clientAddr) (huid : ∀ c, (f c).uid = c.uid)
    (hlinked : ∀ c, (f c).handshakeLinked = c.handshakeLinked) :
    Filled M p k s (t.modCore k f) := by
  have hk : (t.modCore k f).tbl.core k = f (t.tbl.core k) := update_self _ _ _
  refine ⟨h.before, h.opening.modCore ((hlinked _).trans h.unlinked), ?_, ?_, h.rest, fun j hj => ?_⟩
  · exact ⟨by rw [hk, hused]; exact h.new.used, by rw [hk]; exact hstage _ h.new.stage,
      by rw [hk, haddr]; exact h.new.addr, by rw [hk, huid]; exact h.new.uid⟩
  · rw [hk, hlinked]
    exact h.unlinked
  · have hj' : (t.modCore k f).tbl.core j = t.tbl.core j := update_of_ne hj _ _
    have := h.others j hj
    exact ⟨by rw [hj']; exact this.used, by rw [hj']; exact this.uid, by rw [hj']; exact this.addr,
      by rw [hj']; exact this.ready, this.refs⟩

theorem Filled.modAssoc {s t : State} {p : ClientPacket} (h : Filled M p k s t)
    (f : Assoc → Assoc) : Filled M p k s (t.modAssoc k f) :=
  ⟨h.before, h.opening.modAssoc k f, ⟨h.new.used, h.new.stage, h.new.addr, h.new.uid⟩, h.unlinked, h.rest,
    fun j hj => ⟨(h.others j hj).used, (h.others j hj).uid, (h.others j hj).addr,
      (h.others j hj).ready, (h.others j hj).refs⟩⟩

theorem Filled.like {s t t' : State} {p : ClientPacket} (h : Filled M p k s t)
    (ht : Like t t') : Filled M p k s t' := by
  have ho := h.opening.beside ht.beside
  obtain ⟨n, rfl, -⟩ := ht
  exact ⟨h.before, ho, ⟨h.new.used, h.new.stage, h.new.addr, h.new.uid⟩, h.unlinked, h.rest,
    fun j hj => ⟨(h.others j hj).used, (h.others j hj).uid, (h.others j hj).addr,
      (h.others j hj).ready, (h.others j hj).refs⟩⟩

/-- What opening a session in slot `k` leaves. -/
structure OpenedAt (M : Prop) (p : ClientPacket) (k : Nat) (s s' : State) (r : Option Nat) :
    Prop where
  sessions : Sessions M s'
  rest : s'.rest = { s.rest with nextUid := s.trace.nextUid + 1 }
  others : ∀ j, j ≠ k → Kept s s' j
  result : r = some k ∧ New p s s' k ∨ r = none ∧ (s'.tbl.core k).used = false

theorem closeState_beside (t : State) (k : Nat) :
    ∃ u, Beside t u ∧ closeState t k = clearSession u k :=
  ⟨_, trans_of Beside (beside_releaseState t k) (beside_destroyBindings _ k), rfl⟩

/-- Giving up closes the record and puts the slot back. -/
theorem Filled.abandon {s t : State} {p : ClientPacket} (h : Filled M p k s t) :
    Sat A (fun s' _ => OpenedAt M p k s s' none) (abandonSession k t) := by
  refine (sessionClose_sat h.new.used).bind fun t' _ ht => ?_
  obtain ⟨u, hu, heq⟩ := closeState_beside t k
  rw [heq] at ht
  have hO : Opening M k p.clientAddr t' := (h.opening.beside hu).clearSession.beside ht.beside
  have hcore : ∀ j, t'.tbl.core j = if j = k then .zero else t.tbl.core j := by
    obtain ⟨n, rfl, -⟩ := ht
    intro j
    show update u.tbl.core k _ j = _
    rw [hu.tbl]
    by_cases hj : j = k <;> simp [hj]
  have hrefs : t'.refs = t.refs := by
    obtain ⟨n, rfl, -⟩ := ht
    exact congrArg Outside.refs hu.outside
  have hrest : t'.rest = t.rest := by
    obtain ⟨n, rfl, -⟩ := ht
    exact (Beside.evolve (M := M) (U := Nobody) (W := Nobody) (D := Nobody) hu).rest
  have hunused : (t'.tbl.core k).used = false := by simp [hcore, SessCore.zero]
  obtain ⟨lru, l, hi, hl⟩ := hO.table
  have hne : ∀ {j}, (t'.tbl.core j).used = true → j ≠ k := by
    rintro j hj rfl
    simp [hunused] at hj
  refine ⟨⟨⟨lru, l, hi.pushFree hunused, hl.started_le, hl.sorted⟩, hO.cap,
    fun hj => hO.uid_lt (hne hj) hj, fun hi hj => hO.uid_inj (hne hi) (hne hj) hi hj, hO.armed⟩,
    hrest.trans h.rest, fun j hj => ?_, Or.inr ⟨rfl, hunused⟩⟩
  have hj' : t'.tbl.core j = t.tbl.core j := by rw [hcore, if_neg hj]
  have := h.others j hj
  exact ⟨(congrArg _ hj').trans this.used, (congrArg _ hj').trans this.uid,
    (congrArg _ hj').trans this.addr, (by rw [← this.ready, ← hj']; rfl),
    (congrFun hrefs j).trans this.refs⟩

/-- Linking the record in completes the table again. -/
theorem Filled.attach {s t : State} {p : ClientPacket} (h : Filled M p k s t)
    (hle : (t.tbl.core k).lastSeenMs ≤ t.trace.clock)
    (hmono : M → t.trace.clock = (t.tbl.core k).lastSeenMs) :
    Sessions M { t with tbl := t.tbl.attach k } ∧
      New p s { t with tbl := t.tbl.attach k } k ∧
      ∀ j, j ≠ k → Kept s { t with tbl := t.tbl.attach k } j := by
  have hcore : ∀ j, (t.tbl.attach k).core j = if j = k then { t.tbl.core k with
      handshakeStartedMs := (t.tbl.core k).lastSeenMs, handshakeLinked := true }
      else t.tbl.core j := by
    intro j
    by_cases hj : j = k <;> simp [SessTable.attach, SessTable.handshakeAddTail, hj]
  have hO := h.opening
  obtain ⟨lru, l, hi, hl⟩ := hO.table
  have hne : ∀ {j}, j ∈ lru → j ≠ k := by
    rintro j hj rfl
    exact hi.hole_not_mem hj
  have hneh : ∀ {j}, j ∈ l → j ≠ k := fun hj => hne (hi.mem_hs.mp hj).1
  have hi' := hi.attach h.new.used h.new.stage fun j hj => by
    rw [h.new.addr]
    exact hO.unknown (hne hj) (hi.mem_lru.mp hj).1
  have hnext : t.trace.nextUid = s.trace.nextUid + 1 := congrArg Rest.nextUid h.rest
  -- the new record has the next serial number, every other session an older one
  have hold : ∀ {j}, j ≠ k → (t.tbl.core j).used = true →
      (t.tbl.core j).uid < s.trace.nextUid := by
    intro j hj hu
    have hk := h.others j hj
    rw [hk.uid]
    exact h.before.uid_lt hj (hk.used ▸ hu)
  refine ⟨⟨⟨_, _, hi', fun j hj => ?_, fun hm => ?_⟩, hO.cap, ?_, ?_, ?_⟩, ⟨?_, ?_, ?_, ?_⟩,
    fun j hj => ?_⟩
  · simp only [hcore]
    rcases List.mem_append.mp hj with hj | hj
    · rw [if_neg (hneh hj)]
      exact hl.started_le j hj
    · rw [if_pos (List.mem_singleton.mp hj)]
      exact hle
  -- it starts its handshake now, so it belongs at the end of the list
  · refine List.pairwise_append.mpr ⟨?_, List.pairwise_singleton _ _, ?_⟩
    · refine (hl.sorted hm).imp_of_mem fun {a b} ha hb hab => ?_
      simp only [hcore, if_neg (hneh ha), if_neg (hneh hb)]
      exact hab
    · intro a ha b hb
      simp only [hcore, if_neg (hneh ha), if_pos (List.mem_singleton.mp hb)]
      exact hmono hm ▸ hl.started_le a ha
  · intro j hj
    simp only [hcore] at hj ⊢
    split
    · show (t.tbl.core k).uid < _
      rw [h.new.uid, hnext]
      omega
    · rename_i hne
      rw [if_neg hne] at hj
      exact hO.uid_lt hne hj
  · intro i j hui huj
    simp only [hcore] at hui huj ⊢
    by_cases hik : i = k <;> by_cases hjk : j = k
    · exact fun _ => hik.trans hjk.symm
    · simp only [if_pos hik, if_neg hjk] at huj ⊢
      have := hold hjk huj
      rw [h.new.uid]
      omega
    · simp only [if_neg hik, if_pos hjk] at hui ⊢
      have := hold hik hui
      rw [h.new.uid]
      omega
    · simp only [if_neg hik, if_neg hjk] at hui huj ⊢
      exact hO.uid_inj hik hjk hui huj
  · show t.rel.armed = true ∨ (t.tbl.attach k).localCount = 0
    by_cases ha : sockaddrIsLoopback (t.tbl.core k).clientAddr = true
    · exact Or.inl (hO.watched (h.new.addr ▸ ha))
    · have : (t.tbl.attach k).localCount = t.tbl.localCount := by
        simp only [SessTable.attach, SessTable.handshakeAddTail, ha, Bool.false_eq_true, if_false]
      rw [this]
      exact hO.armed
  · simpa [hcore] using h.new.used
  · simpa [hcore] using h.new.stage
  · simpa [hcore] using h.new.addr
  · simpa [hcore] using h.new.uid
  · have hj' : (t.tbl.attach k).core j = t.tbl.core j := by rw [hcore, if_neg hj]
    have := h.others j hj
    exact ⟨(congrArg _ hj').trans this.used, (congrArg _ hj').trans this.uid,
      (congrArg _ hj').trans this.addr, (by rw [← this.ready, ← hj']), this.refs⟩

theorem evolve_releaseNoteNewSession {U W D : Nat → Prop} (s : State) (j now : Nat) :
    Evolve M U W D s (releaseNoteNewSession s j now) := by
  unfold releaseNoteNewSession
  dsimp only
  split
  · split
    · exact Evolve.refl _ _ _ _ s
    · exact (evolve_setRetry s j _).trans (evolve_noteRetry _ _)
  · exact Evolve.refl _ _ _ _ s

/-- The session starts its handshake at the time its record was filled. -/
structure Stamped (M : Prop) (k : Nat) (t : State) : Prop where
  le : (t.tbl.core k).lastSeenMs ≤ t.trace.clock
  eq : M → t.trace.clock = (t.tbl.core k).lastSeenMs

theorem linkSession_sat (hclock : Clock M A) {s t : State} {p : ClientPacket} (h : Filled M p k s t)
    (hs : Stamped M k t) {stage : Stage} (hst : stage ≠ .ready) (fd : Nat) :
    Sat A (fun s' r => OpenedAt M p k s s' r) (linkSession k fd stage t) := by
  set u := setStage (t.modAssoc k fun a => { a with tcpFd := some fd }) k stage with hu
  have hfill : Filled M p k s u := (h.modAssoc _).modCore (fun _ => rfl) (fun _ _ => hst)
    (fun _ => rfl) (fun _ => rfl) fun _ => rfl
  have hseen : (u.tbl.core k).lastSeenMs = (t.tbl.core k).lastSeenMs := by
    simp [hu, setStage, State.modCore, State.modAssoc]
  obtain ⟨hsess, hnew, hkept⟩ := hfill.attach (hseen ▸ hs.le) (hseen ▸ hs.eq)
  have hrest : u.rest = { s.rest with nextUid := s.trace.nextUid + 1 } := hfill.rest
  show Sat A _ ((epollAddSessionControl k handshakeBits >>= fun added => _ : Worker _)
    { u with tbl := u.tbl.attach k })
  refine (keeps_epollAddSessionControl (handshaken_shake hclock) _ _).bind fun v added hv => ?_
  obtain ⟨hvs, hvsame, hvkept⟩ := hv.sessions hsess hnew.used hnew.stage
  have hvnew : New p s v k := ⟨hvsame.used.trans hnew.used, hv.stage hnew.stage,
    hvsame.addr.trans hnew.addr, hvsame.uid.trans hnew.uid⟩
  have hvall : ∀ j, j ≠ k → Kept s v j := fun j hj => (hkept j hj).trans (hvkept j hj)
  cases added with
  | true =>
      -- noting a recently destroyed port only sets the retry deadlines
      have he := evolve_releaseNoteNewSession (M := M) (U := Nobody) (W := Nobody) (D := Nobody) v k
        (v.tbl.core k).lastSeenMs
      have hfields : ∀ j, Kept v (releaseNoteNewSession v k (v.tbl.core k).lastSeenMs) j := by
        intro j
        unfold releaseNoteNewSession
        dsimp only
        split
        · split
          · exact .refl v j
          · by_cases hj : j = k <;>
              constructor <;> simp [noteRetry, setRetry, State.modCore, hj]
        · exact .refl v j
      have hk := hfields k
      exact ⟨(he.sessions hvs (by simp)).1, he.rest.trans (hv.rest.trans hrest),
        fun j hj => (hvall j hj).trans (hfields j), Or.inl ⟨rfl, hk.used.trans hvnew.used,
          fun e => hvnew.stage (hk.ready.mp e), hk.addr.trans hvnew.addr, hk.uid.trans hvnew.uid⟩⟩
  | false =>
      -- `epoll_ctl` failed: the session that was just linked is dropped again
      refine (sessionDrop_sat hvnew.used).bind fun w _ hw => ?_
      obtain ⟨hds, hgone, hdkept⟩ := dropState_sessions hvnew.used hvs
      have he := (Like.beside hw).evolve (M := M) (U := Nobody) (W := Nobody) (D := Nobody)
      obtain ⟨n, rfl, -⟩ := hw
      refine ⟨(he.sessions hds (by simp)).1, ?_, fun j hj => ?_, Or.inr ⟨rfl, hgone.used⟩⟩
      · exact he.rest.trans ((dropState_rest v k).trans (hv.rest.trans hrest))
      · have hd := hdkept j hj
        exact (hvall j hj).trans ⟨hd.used, hd.uid, hd.addr, hd.ready, hd.refs⟩

theorem connectSession_sat (hclock : Clock M A) {s t : State} {p : ClientPacket} (h : Filled M p k s t)
    (hs : Stamped M k t) :
    Sat A (fun s' r => OpenedAt M p k s s' r) (connectSession k t) := by
  have hgive : ∀ t, Filled M p k s t → Sat A (fun s' r => OpenedAt M p k s s' r)
      ((do abandonSession k; pure none : Worker (Option Nat)) t) := fun t ht =>
    ht.abandon.bind fun _ _ h => h
  unfold connectSession
  rcases associateBuildRequest with _ | bytes
  · exact hgive t h
  · intro r _
    rcases r with _ | ⟨fd, connected⟩
    · exact hgive _ (h.modAssoc _)
    · exact linkSession_sat hclock (h.modAssoc _) ⟨hs.le, hs.eq⟩ (by cases connected <;> simp) fd

/-- `openSession` links the record in or gives the slot back. -/
theorem openSession_sat (hclock : Clock M A) {s : State} {p : ClientPacket}
    (h : Opening M k p.clientAddr s) :
    Sat A (fun s' r => OpenedAt M p k s s' r) (openSession k p s) := by
  intro now hnow
  refine connectSession_sat hclock (((filled_initSession h).like (like_clock _ now)).modCore
    (fun _ => rfl) (fun _ h => h) (fun _ => rfl) (fun _ => rfl) fun _ => rfl) ⟨?_, fun hm => ?_⟩
  · simp only [State.modCore, update_self]
    exact Nat.le_max_right _ _
  · simp only [State.modCore, update_self]
    exact Nat.max_eq_right (hclock hm _ now hnow)

/-! ## `bpf2socks_udp_session_get` -/

/-- What asking for the session of an unknown client leaves. -/
structure Opened (M : Prop) (p : ClientPacket) (s s' : State) (r : Option Nat) : Prop where
  sessions : Sessions M s'
  rest : ∃ n, s.trace.nextUid ≤ n ∧ s'.rest = { s.rest with nextUid := n }
  others : ∀ j, allocTarget s ≠ some j → Kept s s' j
  target : ∀ j, allocTarget s = some j →
    r = some j ∧ New p s s' j ∨ r = none ∧ (s'.tbl.core j).used = false
  result : ∀ j, r = some j → allocTarget s = some j

theorem Aside.evolve {U W D : Nat → Prop} {s s' : State} (h : Aside s s') : Evolve M U W D s s' := by
  obtain ⟨rel, mask, ha, n, rfl, hn⟩ := h
  refine evolve_of_kept rfl hn fun hs _ =>
    ⟨⟨hs.whole.later hn, hs.cap, hs.uid_lt, hs.uid_inj, hs.armed.imp ha id⟩,
      fun j => ⟨rfl, rfl, rfl, Iff.rfl, rfl⟩⟩

/-- The rest of `sessionGet` for a new client, once the notifications are watched if they have to
be. -/
def allocOpen (p : ClientPacket) : Worker (Option Nat) := do
  let r ← allocSession 2
  match r with
  | none => pure none
  | some k => openSession k p

theorem allocOpen_sat (hclock : Clock M A) {s : State} {p : ClientPacket}
    (hs : Sessions M s) (hfind : s.tbl.find p.clientAddr = none)
    (hwatch : sockaddrIsLoopback p.clientAddr = true → s.rel.armed = true) :
    Sat A (fun s' r => Opened M p s s' r) (allocOpen p s) := by
  refine (allocSession_sat hs).bind fun t r ⟨hr, ht⟩ => ?_
  rcases r with _ | k
  · obtain rfl : t = s := ht
    exact ⟨hs, ⟨_, Nat.le_refl _, rfl⟩, fun j _ => .refl _ j,
      fun j hj => absurd (hr.trans hj) (by simp), by simp⟩
  · obtain ⟨hopen, hrest, -, hkept⟩ := opening_takeSlot hs hfind hr.symm hwatch
    have hlike := Like.beside ht
    refine (openSession_sat hclock (hopen.beside hlike)).mono fun s' r ho => ?_
    have hrest' : t.rest = s.rest :=
      (hlike.evolve (M := M) (U := Nobody) (W := Nobody) (D := Nobody)).rest.trans hrest
    have huid : t.trace.nextUid = s.trace.nextUid := congrArg Rest.nextUid hrest'
    have hkept' : ∀ j, j ≠ k → Kept s t j := by
      obtain ⟨n, rfl, -⟩ := ht
      exact fun j hj => ⟨(hkept j hj).used, (hkept j hj).uid, (hkept j hj).addr, (hkept j hj).ready,
        (hkept j hj).refs⟩
    refine ⟨ho.sessions, ⟨_, Nat.le_succ _, by rw [ho.rest, hrest', huid]⟩, fun j hj => ?_,
      fun j hj => ?_, fun j hj => ?_⟩
    · have hne : j ≠ k := fun e => hj (hr.symm.trans (congrArg some e.symm))
      exact (hkept' j hne).trans (ho.others j hne)
    · obtain rfl : k = j := Option.some.inj (hr.trans hj)
      refine ho.result.imp (fun ⟨h, hnew⟩ => ⟨h, ?_⟩) id
      exact ⟨hnew.used, hnew.stage, hnew.addr, hnew.uid.trans huid⟩
    · rcases ho.result with ⟨h, -⟩ | ⟨h, -⟩
      · exact hr.symm.trans (h.symm.trans hj)
      · simp [h] at hj

/-- What holds of `allocOpen` whenever the notifications are watched as they have to be holds of
`sessionGet` for a new client. -/
theorem sessionGet_none_of {Q : State → Option Nat → Prop} {s : State} {p : ClientPacket}
    (hs : Sessions M s)
    (htail : ∀ t, Aside s t → (sockaddrIsLoopback p.clientAddr = true → t.rel.armed = true) →
      Sat A Q (allocOpen p t)) :
    Sat A Q (sessionGet p none s) := by
  have hcount : Aside s (s.count .udpSessionMisses) := (like_count _ _ _).aside
  simp only [sessionGet, bind_run, Worker.count_run, Worker.get_run, ret_bind, ite_run]
  split
  · rename_i hc
    simp only [Bool.and_eq_true, Bool.not_eq_true'] at hc
    refine (quiet_nowMs (A := A) _).bind fun t now ht => ?_
    have hst : Aside s t := hcount.trans ht.aside
    refine (releaseArm_sat now (hst.noLocal (hs.noLocal hc.2))).bind fun u _ ⟨hu, ha⟩ => ?_
    exact htail u (hst.trans hu) fun _ => ha
  · rename_i hc
    refine htail _ hcount fun hl => ?_
    simpa [hl] using hc

theorem sessionGet_none_sat (hclock : Clock M A) {s : State} {p : ClientPacket}
    (hs : Sessions M s) (hfind : s.tbl.find p.clientAddr = none) :
    Sat A (fun s' r => Opened M p s s' r) (sessionGet p none s) := by
  refine sessionGet_none_of hs fun t ht hw => ?_
  have hst := (ht.evolve (M := M) (U := Nobody) (W := Nobody) (D := Nobody)).sessions hs (by simp)
  obtain ⟨rel, mask, -, n, rfl, -⟩ := ht
  refine (allocOpen_sat hclock hst.1 hfind hw).mono fun s' r h => ?_
  have htarget := allocTarget_congr (s := s) (t := State.noise { s with
    rel := rel, kern.interest := update s.kern.interest .destroyEvents mask } n) rfl rfl
  refine ⟨h.sessions, h.rest, fun j hj => ?_, fun j hj => ?_, fun j hj => htarget ▸ h.result j hj⟩
  · have := h.others j (htarget ▸ hj)
    exact ⟨this.used, this.uid, this.addr, this.ready, this.refs⟩
  · exact (h.target j (htarget ▸ hj)).imp
      (fun ⟨h, hn⟩ => ⟨h, hn.used, hn.stage, hn.addr, hn.uid⟩) id

end Bpf2Socks.Udp

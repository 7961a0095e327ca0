/-
# Bpf2Socks.Udp.Spared — what dropping one session leaves of the others.

A drop gives back the session's channels, its bindings and its descriptors.  `WorksOn` is the relation
between the states before and after code that works on one session, its bindings and its
descriptors alone; `Untouched` is what then holds of any other session.  That nothing is shared
between sessions is the invariant `Coherent`.
-/
import Bpf2Socks.Udp.Closing
import Bpf2Socks.Udp.SessionRuns

namespace Bpf2Socks.Udp

open Function (update update_self update_of_ne)
open Lib (Prog Act)
open Lib.Prog Lib.Act
open Worker hiding get modify ask diverge

/-- The event-loop registrations of a session slot. -/
def Ref.OfSession (k : Nat) : Ref → Prop
  | .control j => j = k
  | .relay j => j = k
  | .downlink j _ => j = k
  | _ => False

/-- A registration is of one slot at most. -/
theorem Ref.OfSession.eq {r : Ref} {j k : Nat} (h : r.OfSession j) (h' : r.OfSession k) :
    j = k := by
  cases r <;> first | exact h.symm.trans h' | exact h.elim

/-- The packets a session has queued. -/
def Down.queued (d : Down) : List DownPacket := d.channels.flatMap (·.queue)

/-- Both tables are whole, replies are counted, and every descriptor is held by one record. -/
structure Coherent (s : State) : Prop where
  table : ∃ lru hs, s.tbl.Inv none lru hs
  bindings : ∃ lru olru, s.bind.Inv none lru olru
  counted : ∀ k, (s.down k).pendingCount = (s.down k).queued.length
  reply : ∀ b fd, (s.bind.core b).replyFd = some fd →
    ∃ sock, s.kern.fds fd = some ⟨sock, .reply b⟩
  channel : ∀ k, ∀ ch ∈ (s.down k).channels, ∃ sock, s.kern.fds ch.fd = some ⟨sock, .channel ch.id⟩
  ids_apart : ∀ j k, ∀ ch ∈ (s.down j).channels, ∀ ch' ∈ (s.down k).channels,
    ch.id = ch'.id → j = k

/-- What session slot `j` has besides its record is the same. -/
structure Untouched (s s' : State) (j : Nat) : Prop where
  assoc : s'.assoc j = s.assoc j
  up : s'.up j = s.up j
  down : s'.down j = s.down j
  refs : s'.refs j = s.refs j
  owned : s'.bind.owned j = s.bind.owned j
  bindings : ∀ b ∈ s.bind.owned j, s'.bind.core b = s.bind.core b
  replies : ∀ b ∈ s.bind.owned j, ∀ fd, (s.bind.core b).replyFd = some fd →
    s'.kern.fds fd = s.kern.fds fd
  channels : ∀ ch ∈ (s.down j).channels, s'.kern.fds ch.fd = s.kern.fds ch.fd
  interest : ∀ r, Ref.OfSession j r → s'.kern.interest r = s.kern.interest r

theorem Untouched.refl (s : State) (j : Nat) : Untouched s s j :=
  ⟨rfl, rfl, rfl, rfl, rfl, fun _ _ => rfl, fun _ _ _ _ => rfl, fun _ _ => rfl, fun _ _ => rfl⟩

theorem Untouched.trans {s s' s'' : State} {j : Nat} (h : Untouched s s' j)
    (h' : Untouched s' s'' j) : Untouched s s'' j := by
  have howned : ∀ {b}, b ∈ s.bind.owned j → b ∈ s'.bind.owned j := fun hb => h.owned ▸ hb
  refine ⟨h'.assoc.trans h.assoc, h'.up.trans h.up, h'.down.trans h.down, h'.refs.trans h.refs,
    h'.owned.trans h.owned, fun b hb => ?_, fun b hb fd hfd => ?_, fun ch hch => ?_, fun r hr => ?_⟩
  · exact (h'.bindings b (howned hb)).trans (h.bindings b hb)
  · refine (h'.replies b (howned hb) fd ?_).trans (h.replies b hb fd hfd)
    rw [h.bindings b hb]
    exact hfd
  · exact (h'.channels ch (h.down ▸ hch)).trans (h.channels ch hch)
  · exact (h'.interest r hr).trans (h.interest r hr)

/-! ## Code that works on one session -/

/-- From `s` to `s'` only session slot `k`, the bindings in `B` and the descriptors in `F` were worked
on, and no binding got a reply socket. -/
structure WorksOn (k : Nat) (B F : Nat → Prop) (s s' : State) : Prop where
  assoc : ∀ j, j ≠ k → s'.assoc j = s.assoc j
  up : ∀ j, j ≠ k → s'.up j = s.up j
  down : ∀ j, j ≠ k → s'.down j = s.down j
  owned : ∀ j, j ≠ k → s'.bind.owned j = s.bind.owned j
  binding : ∀ b, ¬B b → s'.bind.core b = s.bind.core b
  reply : ∀ b fd, (s'.bind.core b).replyFd = some fd → (s.bind.core b).replyFd = some fd
  fds : ∀ fd, ¬F fd → s'.kern.fds fd = s.kern.fds fd
  interest : ∀ r, ¬Ref.OfSession k r → s'.kern.interest r = s.kern.interest r

variable {A : State → (q : Sys) → q.Ans → Prop} {k b : Nat} {B F : Nat → Prop} {s : State}

theorem WorksOn.refl (s : State) : WorksOn k B F s s :=
  ⟨fun _ _ => rfl, fun _ _ => rfl, fun _ _ => rfl, fun _ _ => rfl, fun _ _ => rfl,
    fun _ _ h => h, fun _ _ => rfl, fun _ _ => rfl⟩

theorem WorksOn.trans {s s' s'' : State} (h : WorksOn k B F s s') (h' : WorksOn k B F s' s'') :
    WorksOn k B F s s'' :=
  ⟨fun j hj => (h'.assoc j hj).trans (h.assoc j hj), fun j hj => (h'.up j hj).trans (h.up j hj),
    fun j hj => (h'.down j hj).trans (h.down j hj),
    fun j hj => (h'.owned j hj).trans (h.owned j hj),
    fun b hb => (h'.binding b hb).trans (h.binding b hb),
    fun b fd hfd => h.reply b fd (h'.reply b fd hfd),
    fun fd hfd => (h'.fds fd hfd).trans (h.fds fd hfd),
    fun r hr => (h'.interest r hr).trans (h.interest r hr)⟩

theorem worksOn_modDown (s : State) (f : Down → Down) : WorksOn k B F s (s.modDown k f) :=
  { WorksOn.refl (k := k) (B := B) (F := F) s with down := fun _ hj => update_of_ne hj _ _ }

theorem worksOn_markReady (s : State) : WorksOn k B F s (markReady s k) := by
  rw [markReady_eq]
  exact { WorksOn.refl (k := k) (B := B) (F := F) s with down := fun _ hj => update_of_ne hj _ _ }

theorem worksOn_detachState (s : State) : WorksOn k B F s (detachState s k) := by
  refine { WorksOn.refl (k := k) (B := B) (F := F) s with interest := fun r hr => ?_ }
  have hc : r ≠ .control k := by rintro rfl; exact hr rfl
  have hl : r ≠ .relay k := by rintro rfl; exact hr rfl
  show update (update s.kern.interest (.control k) none) (.relay k) none r = _
  rw [update_of_ne hl, update_of_ne hc]

theorem worksOn_unlinkChannel (s : State) (ch : Channel) (hF : F ch.fd) :
    WorksOn k B F s (unlinkChannel s k ch) := by
  refine { WorksOn.refl (k := k) (B := B) (F := F) s with
    down := fun j hj => update_of_ne hj _ _, fds := fun fd hfd => ?_, interest := fun r hr => ?_ }
  · exact update_of_ne (by rintro rfl; exact hfd hF) _ _
  · exact update_of_ne (by rintro rfl; exact hr rfl) _ _

/-- Channels without packets are retired. -/
theorem worksOn_retireAll {l : List Channel} (hl : ∀ ch ∈ l, ch.queue = [] ∧ F ch.fd) (s : State) :
    WorksOn k B F s (l.foldl (retireState k) s) := by
  induction l generalizing s with
  | nil => exact WorksOn.refl s
  | cons ch l ih =>
      obtain ⟨hq, hF⟩ := hl ch List.mem_cons_self
      have hhead : WorksOn k B F s (retireState k s ch) := by
        rw [retireState, hq]
        exact worksOn_unlinkChannel s ch hF
      exact hhead.trans (ih (fun c hc => hl c (List.mem_cons_of_mem ch hc)) _)

theorem worksOn_destroyBinding (s : State) (hB : B b)
    (hF : ∀ fd, (s.bind.core b).replyFd = some fd → F fd) :
    WorksOn k B F s (destroyBinding s k b) := by
  rw [destroyBinding_eq]
  refine { WorksOn.refl (k := k) (B := B) (F := F) s with
    owned := fun j hj => ?_, binding := fun x hx => ?_, reply := fun x fd hx => ?_
    fds := fun fd hfd => ?_ }
  · show (s.bind.detach k b).owned j = _
    rw [BindTable.detach_owned, update_of_ne hj]
  · show (s.bind.destroyed k b).core x = _
    rw [BindTable.destroyed_core, if_neg (by rintro rfl; exact hx hB)]
  · change ((s.bind.destroyed k b).core x).replyFd = some fd at hx
    rw [BindTable.destroyed_core] at hx
    split at hx
    · exact nomatch hx
    · exact hx
  · show closeIn s.kern.fds (s.bind.core b).replyFd fd = _
    rcases hr : (s.bind.core b).replyFd with _ | fd'
    · rfl
    · exact update_of_ne (by rintro rfl; exact hfd (hF _ hr)) _ _

theorem worksOn_destroyAll {l : List Nat} (hB : ∀ b ∈ l, B b) (s : State)
    (hF : ∀ b ∈ l, ∀ fd, (s.bind.core b).replyFd = some fd → F fd) :
    WorksOn k B F s (l.foldl (fun s b => destroyBinding s k b) s) := by
  induction l generalizing s with
  | nil => exact WorksOn.refl s
  | cons b l ih =>
      have hhead : WorksOn k B F s (destroyBinding s k b) :=
        worksOn_destroyBinding s (hB b List.mem_cons_self) (hF b List.mem_cons_self)
      refine hhead.trans (ih (fun c hc => hB c (List.mem_cons_of_mem b hc)) _ fun c hc fd hfd => ?_)
      exact hF c (List.mem_cons_of_mem b hc) fd (hhead.reply c fd hfd)

theorem worksOn_clearSession (s : State) : WorksOn k B F s (clearSession s k) :=
  { WorksOn.refl (k := k) (B := B) (F := F) s with
    assoc := fun _ hj => update_of_ne hj _ _, up := fun _ hj => update_of_ne hj _ _
    down := fun _ hj => update_of_ne hj _ _, owned := fun _ hj => update_of_ne hj _ _ }

/-! ## A drop -/

/-- The descriptors of a session: those of its channels and those of its bindings. -/
def State.Holds (s : State) (k fd : Nat) : Prop :=
  (∃ ch ∈ (s.down k).channels, ch.fd = fd) ∨ ∃ b ∈ s.bind.owned k, (s.bind.core b).replyFd = some fd

/-- A session with nothing counted has nothing queued. -/
theorem Coherent.queue_nil (h : Coherent s) (hd : droppable s k = true) :
    ∀ ch ∈ (s.down k).channels, ch.queue = [] := by
  intro ch hch
  have hz : (s.down k).pendingCount = 0 := by
    simp only [droppable, gt_iff_lt, Bool.not_or, Bool.and_eq_true, Bool.not_eq_eq_eq_not,
      Bool.not_true, decide_eq_false_iff_not, Nat.not_lt, Nat.le_zero_eq] at hd
    exact hd.1
  have hq : (s.down k).queued = [] := List.length_eq_zero_iff.mp ((h.counted k).symm.trans hz)
  exact List.flatMap_eq_nil_iff.mp hq ch hch

/-- Giving back a session's channels leaves the bindings alone when nothing is queued. -/
theorem releaseState_bind (h : ∀ ch ∈ (s.down k).channels, ch.queue = []) :
    (releaseState s k).bind = s.bind := by
  have hall : ∀ (l : List Channel) (t : State), (∀ ch ∈ l, ch.queue = []) →
      (l.foldl (retireState k) t).bind = t.bind := by
    intro l
    induction l with
    | nil => exact fun _ _ => rfl
    | cons ch l ih =>
        intro t hl
        refine (ih _ fun c hc => hl c (List.mem_cons_of_mem ch hc)).trans ?_
        rw [retireState, hl ch List.mem_cons_self]
        rfl
  rw [releaseState, markReady_eq]
  exact hall _ s h

/-- A session's bindings are destroyed, and the table is whole. -/
theorem destroyBindings_inv (h : ∃ lru olru, s.bind.Inv none lru olru) :
    (∃ lru olru, (destroyBindings s k).bind.Inv none lru olru) ∧
      (destroyBindings s k).bind.owned k = [] ∧
      ∀ b ∈ s.bind.owned k, (destroyBindings s k).bind.core b = .zero := by
  unfold destroyBindings
  generalize hl : s.bind.owned k = l
  induction l generalizing s with
  | nil => exact ⟨h, hl, by simp⟩
  | cons b l ih =>
      obtain ⟨lru, olru, hi⟩ := h
      obtain ⟨hlru, ho⟩ := hi.mem_owned.mp (hl ▸ List.mem_cons_self)
      have hbind : (destroyBinding s k b).bind = s.bind.destroyed k b := by rw [destroyBinding_eq]
      have howned : (destroyBinding s k b).bind.owned k = l := by
        rw [hbind]
        show (s.bind.detach k b).owned k = l
        rw [BindTable.detach_owned, update_self, hl, List.erase_cons_head]
      obtain ⟨hinv, hnil, hzero⟩ := ih (hbind ▸ hi.destroyed hlru ho) howned
      refine ⟨hinv, hnil, fun c hc => ?_⟩
      rcases List.mem_cons.mp hc with rfl | hc
      · -- the others are not this one, and it is zero already
        have hc' : c ∉ l := (List.nodup_cons.mp (hl ▸ hi.owned_nodup k)).1
        have hrest : WorksOn k (· ∈ l) (fun _ => True) (destroyBinding s k c)
            (l.foldl (fun s b => destroyBinding s k b) (destroyBinding s k c)) :=
          worksOn_destroyAll (fun _ hb => hb) _ fun _ _ _ _ => trivial
        rw [List.foldl_cons, hrest.binding c hc', hbind, BindTable.destroyed_core, if_pos rfl]
      · exact hzero c hc

theorem dropState_worksOn (h : Coherent s) (hd : droppable s k = true) :
    WorksOn k (· ∈ s.bind.owned k) (s.Holds k) s (dropState s k) := by
  have hq := h.queue_nil hd
  have h1 : WorksOn k (· ∈ s.bind.owned k) (s.Holds k) s (detachState s k) := worksOn_detachState s
  have h2 : WorksOn k (· ∈ s.bind.owned k) (s.Holds k) s (releaseState (detachState s k) k) := by
    refine h1.trans (WorksOn.trans (WorksOn.trans ?_ (worksOn_modDown _ _)) (worksOn_markReady _))
    exact worksOn_retireAll (fun ch hch => ⟨hq ch hch, Or.inl ⟨ch, hch, rfl⟩⟩) _
  have howned : (releaseState (detachState s k) k).bind.owned k = s.bind.owned k := by
    rw [releaseState_bind (s := detachState s k) hq]
    rfl
  have h3 : WorksOn k (· ∈ s.bind.owned k) (s.Holds k) (releaseState (detachState s k) k)
      (destroyBindings (releaseState (detachState s k) k) k) := by
    unfold destroyBindings
    rw [howned]
    exact worksOn_destroyAll (fun _ hb => hb) _ fun b hb fd hfd =>
      Or.inr ⟨b, hb, h2.reply b fd hfd⟩
  exact (h2.trans h3).trans { worksOn_clearSession _ with }

/-- The descriptors of a session are no other's. -/
theorem Coherent.holds_reply (h : Coherent s) {fd : Nat} (hfd : (s.bind.core b).replyFd = some fd)
    (hb : b ∉ s.bind.owned k) : ¬s.Holds k fd := by
  obtain ⟨sock, hsock⟩ := h.reply b fd hfd
  rintro (⟨ch, hch, rfl⟩ | ⟨c, hc, hcfd⟩)
  · obtain ⟨sock', hsock'⟩ := h.channel k ch hch
    simp [hsock] at hsock'
  · obtain ⟨sock', hsock'⟩ := h.reply c fd hcfd
    simp only [hsock, Option.some.injEq, OpenFd.mk.injEq, FdOwner.reply.injEq] at hsock'
    exact hb (hsock'.2 ▸ hc)

theorem Coherent.holds_channel (h : Coherent s) {j : Nat} {ch : Channel}
    (hch : ch ∈ (s.down j).channels) (hj : j ≠ k) : ¬s.Holds k ch.fd := by
  obtain ⟨sock, hsock⟩ := h.channel j ch hch
  rintro (⟨ch', hch', hfd⟩ | ⟨c, hc, hcfd⟩)
  · obtain ⟨sock', hsock'⟩ := h.channel k ch' hch'
    rw [hfd, hsock] at hsock'
    simp only [Option.some.injEq, OpenFd.mk.injEq, FdOwner.channel.injEq] at hsock'
    exact hj (h.ids_apart j k ch hch ch' hch' hsock'.2)
  · obtain ⟨sock', hsock'⟩ := h.reply c ch.fd hcfd
    simp [hsock] at hsock'

/-- The bindings of a session are no other's. -/
theorem Coherent.owned_apart (h : Coherent s) {j : Nat} (hb : b ∈ s.bind.owned j) (hj : j ≠ k) :
    b ∉ s.bind.owned k := by
  obtain ⟨lru, olru, hi⟩ := h.bindings
  intro hk
  exact hj (Option.some.inj ((hi.mem_owned.mp hb).2.symm.trans (hi.mem_owned.mp hk).2))

/-- A drop of a session with nothing queued leaves every other session untouched. -/
theorem dropState_untouched (h : Coherent s) (hd : droppable s k = true) {j : Nat} (hj : j ≠ k) :
    Untouched s (dropState s k) j := by
  have hw := dropState_worksOn h hd
  refine ⟨hw.assoc j hj, hw.up j hj, hw.down j hj, ?_, hw.owned j hj, fun b hb => ?_,
    fun b hb fd hfd => ?_, fun ch hch => ?_, fun r hr => ?_⟩
  · rw [dropState_refs, update_of_ne hj]
  · exact hw.binding b (h.owned_apart hb hj)
  · exact hw.fds fd (h.holds_reply hfd (h.owned_apart hb hj))
  · exact hw.fds ch.fd (h.holds_channel hch hj)
  · exact hw.interest r fun hr' => hj (hr.eq hr')

theorem dropState_down_self (s : State) : (dropState s k).down k = .zero := update_self _ _ _

theorem Coherent.dropState (h : Coherent s) (hu : (s.tbl.core k).used = true)
    (hd : droppable s k = true) : Coherent (dropState s k) := by
  have hw := dropState_worksOn h hd
  have hdown : ∀ j, j ≠ k → (Udp.dropState s k).down j = s.down j := hw.down
  have hq : ∀ ch ∈ ((detachState s k).down k).channels, ch.queue = [] := h.queue_nil hd
  have hbind := destroyBindings_inv (s := releaseState (detachState s k) k) (k := k)
    (by rw [releaseState_bind hq]; exact h.bindings)
  have howned : (releaseState (detachState s k) k).bind.owned k = s.bind.owned k := by
    rw [releaseState_bind hq]
    rfl
  -- a binding that still has its socket was not the session's
  have hleft : ∀ {b fd}, ((Udp.dropState s k).bind.core b).replyFd = some fd →
      b ∉ s.bind.owned k := fun {b fd} hfd hb => by
    change ((destroyBindings (releaseState (detachState s k) k) k).bind.core b).replyFd = _ at hfd
    rw [hbind.2.2 b (howned ▸ hb)] at hfd
    exact nomatch hfd
  have hother : ∀ {j ch}, ch ∈ ((Udp.dropState s k).down j).channels →
      j ≠ k ∧ ch ∈ (s.down j).channels := fun {j ch} hch => by
    have hj : j ≠ k := by
      rintro rfl
      rw [dropState_down_self] at hch
      exact nomatch hch
    exact ⟨hj, hdown j hj ▸ hch⟩
  refine ⟨?_, ?_, fun j => ?_, fun b fd hfd => ?_, fun j ch hch => ?_, fun i j ch hch ch' hch' => ?_⟩
  · obtain ⟨lru, hs, hi⟩ := h.table
    rw [dropState_tbl]
    exact ⟨_, _, hi.dropped hu⟩
  · obtain ⟨⟨lru, olru, hi⟩, hnil, -⟩ := hbind
    exact ⟨lru, olru, hi.clearOwner hnil⟩
  · rcases eq_or_ne j k with rfl | hj
    · rw [dropState_down_self]
      rfl
    · rw [hdown j hj]
      exact h.counted j
  · have hb := hleft hfd
    have hfd' := hw.reply b fd hfd
    rw [hw.fds fd (h.holds_reply hfd' hb)]
    exact h.reply b fd hfd'
  · obtain ⟨hj, hch'⟩ := hother hch
    rw [hw.fds ch.fd (h.holds_channel hch' hj)]
    exact h.channel j ch hch'
  · exact h.ids_apart i j ch (hother hch).2 ch' (hother hch').2

/-! ## Dropping a session -/

/-- From `s` to `s'` only session `k` let go of datagrams waiting for its relay. -/
def SparesUp (k : Nat) (s s' : State) : Prop := ∀ j, j ≠ k → s'.up j = s.up j

instance (k : Nat) : IsPreorder State (SparesUp k) where
  refl _ _ _ := rfl
  trans _ _ _ h h' j hj := (h' j hj).trans (h j hj)

/-- Changes of other fields. -/
theorem sparesUp_of_eq {s s' : State} (h : s'.up = s.up) : SparesUp k s s' := fun j _ => congrFun h j

theorem sparesUp_modUp (s : State) (f : Uplink → Uplink) : SparesUp k s (s.modUp k f) :=
  fun _ hj => update_of_ne hj _ _

theorem sparesUp_budgetRelease (n : Nat) : Keeps A (SparesUp k) (budgetRelease n) := by
  refine (keeps_ask _).bind fun r => ?_
  cases r with
  | false => exact keeps_pure _
  | true => exact keeps_modify fun _ => sparesUp_of_eq rfl

theorem sparesUp_releasePendingFrom (l : List PendingPacket) :
    Keeps A (SparesUp k) (releasePendingFrom k l) := by
  induction l with
  | nil => exact keeps_pure ()
  | cons p rest ih =>
      exact Keeps.bind (keeps_modify fun _ _ hj => update_of_ne hj _ _) fun _ =>
        (sparesUp_budgetRelease _).bind fun _ => ih

theorem sparesUp_releaseQueue (q : List DownPacket) : Keeps A (SparesUp k) (releaseQueue k q) := by
  induction q with
  | nil => exact keeps_pure ()
  | cons p rest ih =>
      refine Keeps.bind (keeps_modify fun _ => sparesUp_of_eq rfl) fun _ =>
        Keeps.bind ?_ fun _ => ih
      exact Keeps.bind (keeps_modify fun _ => sparesUp_of_eq rfl) fun _ =>
        Keeps.bind (keeps_modify fun _ => sparesUp_of_eq rfl) fun _ => sparesUp_budgetRelease _

theorem sparesUp_retireDownlinkChannel (ch : Channel) :
    Keeps A (SparesUp k) (retireDownlinkChannel k ch false) := by
  refine Keeps.bind (keeps_modify fun _ => sparesUp_of_eq rfl) fun _ =>
    (sparesUp_releaseQueue _).bind fun _ =>
    Keeps.bind (keeps_modify fun _ => sparesUp_of_eq rfl) fun _ => keeps_get.bind fun s => ?_
  exact keeps_pure ()

theorem sparesUp_destroyBindings (s : State) : SparesUp k s (destroyBindings s k) :=
  foldl_of_step (F := fun s b => destroyBinding s k b) (R := SparesUp k)
    (fun s b => sparesUp_of_eq (by rw [destroyBinding_eq])) _ s

theorem sparesUp_sessionClose (k : Nat) : Keeps A (SparesUp k) (sessionClose k) := by
  have hrest : Keeps A (SparesUp k) (do
      releaseSessionPendingPackets k
      downlinkReleaseSession k
      Worker.modify fun s => clearSession (destroyBindings s k) k : Worker Unit) := by
    refine Keeps.bind (Keeps.bind keeps_get fun _ => Keeps.bind (sparesUp_releasePendingFrom _)
      fun _ => keeps_modify fun s => sparesUp_modUp s _) fun _ => Keeps.bind (Keeps.bind keeps_get
      fun _ => Keeps.bind (keeps_forEach (fun ch => sparesUp_retireDownlinkChannel ch) _) fun _ =>
      keeps_modify fun s => ?_) fun _ => keeps_modify fun s => ?_
    · exact sparesUp_of_eq (by rw [markReady_eq]; rfl)
    · exact trans_of (SparesUp k) (sparesUp_destroyBindings s) fun j hj => update_of_ne hj _ _
  exact keeps_get.bind fun _ => keeps_ite
    (keeps_ite ((keeps_ask _).bind fun _ => hrest) hrest) (keeps_pure _)

theorem sparesUp_sessionDrop (k : Nat) : Keeps A (SparesUp k) (sessionDrop k) :=
  keeps_get.bind fun _ => keeps_ite (Keeps.bind (keeps_modify fun _ => sparesUp_of_eq rfl) fun _ =>
    Keeps.bind (keeps_modify fun _ => sparesUp_of_eq rfl) fun _ =>
    Keeps.bind (sparesUp_sessionClose k) fun _ => keeps_modify fun _ => sparesUp_of_eq rfl)
    (keeps_pure _)

theorem Like.coherent {t : State} (h : Like s t) (hc : Coherent s) : Coherent t := by
  obtain ⟨n, rfl, -⟩ := h
  exact ⟨hc.table, hc.bindings, hc.counted, hc.reply, hc.channel, hc.ids_apart⟩

theorem Untouched.like {t u : State} {j : Nat} (h : Untouched s t j) (hl : Like t u)
    (hup : u.up j = s.up j) : Untouched s u j := by
  obtain ⟨n, rfl, -⟩ := hl
  exact { h with up := hup }

/-- What a drop leaves: the record is cleared, and every other session is as it was. -/
structure Dropped (k : Nat) (s s' : State) : Prop where
  coherent : Coherent s'
  tbl : s'.tbl = s.tbl.dropped k
  rel : s'.rel = s.rel
  others : ∀ j, j ≠ k → Untouched s s' j

/-- A session in use with nothing queued is dropped, and the drop returns. -/
theorem sessionDrop_returns (h : Coherent s) (hu : (s.tbl.core k).used = true)
    (hd : droppable s k = true) :
    Returns A (fun s' _ => Dropped k s s') (sessionDrop k s) := by
  refine ⟨((sessionDrop_sat hu).and (sparesUp_sessionDrop k s)).mono fun s' _ hs => ?_,
    stops_sessionDrop k s⟩
  obtain ⟨hlike, hup⟩ := hs
  have hrel : s'.rel = (dropState s k).rel := by
    obtain ⟨n, rfl, -⟩ := hlike
    rfl
  exact ⟨hlike.coherent (h.dropState hu hd), hlike.beside.tbl.trans (dropState_tbl s k),
    hrel.trans (dropState_armed s k),
    fun j hj => (dropState_untouched h hd hj).like hlike (hup j hj)⟩

end Bpf2Socks.Udp

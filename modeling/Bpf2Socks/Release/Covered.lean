/-
# Bpf2Socks.Release.Covered — every local session without a socket will be looked at.

`Covered` is about sessions: the port of a local session is alive (a socket holds it, or there is
something unread about it), or the session has a time to be looked at.  `Ledger` is about closes: one
that is not to be read any more was stamped, or its loss keeps new sessions under watch.  A session
created from a datagram of a closed socket is covered because of the ledger.

The stamp of a time whose low 32 bits are zero lies one millisecond in the future, so a session
created in that very millisecond is not recent; `Calm` leaves this out, and times that wrap around.
-/
import Bpf2Socks.Release.Machine
import Mathlib.Data.List.Perm.Basic

namespace Bpf2Socks.Release

open Function (update update_self update_of_ne)
open Lib
open Udp (Sockaddr sameSockaddr sockaddrIsLoopback sockaddrPort)

variable {k k' k₁ k₂ : Kernel} {s s' s₁ s₂ : State} {port : UInt16} {now : UInt64} {x : Session}
  {i : Nat} {addr : Sockaddr} {client : Nat} {seen : UInt16 → Prop}

/-! ## The kernel moves on -/

/-- A socket holds the port, or there is something unread about it. -/
def Kernel.Alive (k : Kernel) (port : UInt16) : Prop := k.Holds port ∨ k.Told port

theorem told_update {st : Status} (h : k.Told port) (hi : (k.sockets i).isClosed = false)
    (hs : k'.sockets = update k.sockets i st) (hq : ∀ j ∈ k.queue, j ∈ k'.queue)
    (hl : k.lost = true → k'.lost = true) : k'.Told port := by
  rcases h with h | ⟨j, hj, hc⟩
  · exact .inl (hl h)
  · refine .inr ⟨j, hq j hj, ?_⟩
    rw [hs, update_of_ne ?_]
    · exact hc
    · rintro rfl
      rw [hc] at hi
      cases hi

theorem Kernel.Step.alive (h : Kernel.Step k k') (ha : k.Alive port) : k'.Alive port := by
  cases h with
  | tick t h => exact ha
  | opens i p hi =>
      rcases ha with ⟨j, hj⟩ | ht
      · refine .inl ⟨j, (update_of_ne ?_ ..).trans hj⟩
        rintro rfl
        exact nomatch hi.symm.trans hj
      · exact .inr (told_update ht (by rw [hi]; rfl) rfl (fun _ h => h) fun h => h)
  | closes i p hi =>
      rcases ha with ⟨j, hj⟩ | ht
      · by_cases he : j = i
        · subst he
          cases hi.symm.trans hj
          exact .inr (.inr ⟨j, List.mem_append_right _ (List.mem_singleton_self j), update_self ..⟩)
        · exact .inl ⟨j, (update_of_ne he ..).trans hj⟩
      · exact .inr (told_update ht (by rw [hi]; rfl) rfl (fun _ h => List.mem_append_left _ h)
          fun h => h)
  | closesLost i p hi => exact .inr (.inl rfl)

/-- What the kernel has done in between. -/
structure Kernel.Follows (k k' : Kernel) : Prop where
  clock : k.clock ≤ k'.clock
  watched : k'.watched = k.watched
  alive : ∀ port, k.Alive port → k'.Alive port
  queue : ∀ i ∈ k.queue, i ∈ k'.queue
  lost : k.lost = true → k'.lost = true
  port : ∀ i port, (k.sockets i).port = some port → (k'.sockets i).port = some port
  isClosed : ∀ i, (k.sockets i).isClosed = true → (k'.sockets i).isClosed = true
  /-- A close is reported, or its report is lost. -/
  closed : ∀ i port, k'.sockets i = .closed port → k.sockets i = .closed port ∨ i ∈ k'.queue ∨
    (k'.lost = true ∧ (k.sockets i).isClosed = false)
  queued : ∀ i ∈ k'.queue, i ∈ k.queue ∨ (k'.sockets i).isClosed = true

theorem Kernel.Follows.refl (k : Kernel) : k.Follows k :=
  ⟨UInt64.le_refl _, rfl, fun _ h => h, fun _ h => h, fun h => h, fun _ _ h => h, fun _ h => h,
    fun _ _ h => .inl h, fun _ h => .inl h⟩

theorem Kernel.Follows.trans (h : k.Follows k₁) (h' : k₁.Follows k₂) : k.Follows k₂ := by
  refine ⟨UInt64.le_trans h.clock h'.clock, h'.watched.trans h.watched,
    fun p ha => h'.alive p (h.alive p ha), fun i hi => h'.queue i (h.queue i hi),
    fun hl => h'.lost (h.lost hl), fun i p hp => h'.port i p (h.port i p hp),
    fun i hi => h'.isClosed i (h.isClosed i hi), fun i p hc => ?_, fun i hi => ?_⟩
  · rcases h'.closed i p hc with hc | hq | ⟨hl, hn⟩
    · rcases h.closed i p hc with hc | hq | ⟨hl, hn⟩
      · exact .inl hc
      · exact .inr (.inl (h'.queue i hq))
      · exact .inr (.inr ⟨h'.lost hl, hn⟩)
    · exact .inr (.inl hq)
    · refine .inr (.inr ⟨hl, ?_⟩)
      cases hb : (k.sockets i).isClosed with
      | false => rfl
      | true => exact nomatch hn.symm.trans (h.isClosed i hb)
  · rcases h'.queued i hi with hi | hc
    · exact (h.queued i hi).imp_right (h'.isClosed i)
    · exact .inr hc

/-- One socket changes, from a status that is not closed; if it is closed then, that is reported or
its report is lost. -/
theorem follows_update {st : Status} (hclock : k.clock ≤ k'.clock) (hwatched : k'.watched = k.watched)
    (halive : ∀ port, k.Alive port → k'.Alive port) (hq : ∀ j ∈ k.queue, j ∈ k'.queue)
    (hl : k.lost = true → k'.lost = true) (hs : k'.sockets = update k.sockets i st)
    (hport : ∀ port, (k.sockets i).port = some port → st.port = some port)
    (hi : (k.sockets i).isClosed = false)
    (htold : st.isClosed = true → i ∈ k'.queue ∨ k'.lost = true)
    (hqueued : ∀ j ∈ k'.queue, j ∈ k.queue ∨ (j = i ∧ st.isClosed = true)) : k.Follows k' := by
  refine ⟨hclock, hwatched, halive, hq, hl, fun j q hp => ?_, fun j hj => ?_, fun j q hc => ?_,
    fun j hj => ?_⟩
  · rw [hs]
    by_cases he : j = i
    · subst he
      rw [update_self]
      exact hport q hp
    · rwa [update_of_ne he]
  · rw [hs, update_of_ne ?_]
    · exact hj
    · rintro rfl
      exact nomatch hi.symm.trans hj
  · rw [hs] at hc
    by_cases he : j = i
    · subst he
      rw [update_self] at hc
      rcases htold (by rw [hc]; rfl) with hq | hl
      · exact .inr (.inl hq)
      · exact .inr (.inr ⟨hl, hi⟩)
    · rw [update_of_ne he] at hc
      exact .inl hc
  · rcases hqueued j hj with hj | ⟨rfl, hst⟩
    · exact .inl hj
    · rw [hs, update_self]
      exact .inr hst

theorem Kernel.Step.follows (h : Kernel.Step k k') : k.Follows k' := by
  have halive : ∀ port, k.Alive port → k'.Alive port := fun _ => h.alive
  cases h with
  | tick t h => exact { Kernel.Follows.refl k with clock := h, alive := halive }
  | opens i p hi =>
      refine follows_update (UInt64.le_refl _) rfl halive (fun _ h => h) (fun h => h) rfl ?_ ?_ ?_
        fun _ h => .inl h
      · rw [hi]
        exact fun _ h => nomatch h
      · rw [hi]
        rfl
      · exact fun h => nomatch h
  | closes i p hi =>
      refine follows_update (UInt64.le_refl _) rfl halive (fun _ h => List.mem_append_left _ h)
        (fun h => h) rfl ?_ ?_
        (fun _ => .inl (List.mem_append_right _ (List.mem_singleton_self i))) fun j hj => ?_
      · rw [hi]
        exact fun _ h => h
      · rw [hi]
        rfl
      · exact (List.mem_append.mp hj).imp_right fun hj => ⟨List.mem_singleton.mp hj, rfl⟩
  | closesLost i p hi =>
      refine follows_update (UInt64.le_refl _) rfl halive (fun _ h => h) (fun _ => rfl) rfl ?_ ?_
        (fun _ => .inr rfl) fun _ h => .inl h
      · rw [hi]
        exact fun _ h => h
      · rw [hi]
        rfl

theorem Kernel.Evolves.follows (h : k.Evolves k') : k.Follows k' := by
  induction h with
  | refl => exact .refl k
  | tail _ h ih => exact ih.trans h.follows

/-! ## Sessions and closes -/

/-- The session will be looked at. -/
def State.Safe (s : State) (x : Session) : Prop :=
  s.kernel.Alive x.port ∨ (x.releaseRetryMs ≠ 0 ∧ s.releaseRetryDueMs ≤ x.releaseRetryMs)

/-- Local sessions will be looked at, or now, if their port is among those `seen`. -/
def Covered (seen : UInt16 → Prop) (s : State) : Prop :=
  ∀ x ∈ s.sessions, x.isLocal = true → s.Safe x ∨ seen x.port

/-- What became of every close, as of a clock reading `now`; the ports `seen` are not stamped yet. -/
structure Ledger (now : UInt64) (seen : UInt16 → Prop) (s : State) : Prop where
  clock : now ≤ s.kernel.clock
  stamps : ∀ port t, s.stampedAt port = some t →
    t ≤ now ∧ s.portDestroyedMs port = destroyStamp t
  handled : ∀ i h, s.handled i = some h → h ≤ now ∧ (s.kernel.sockets i).isClosed = true
  queued : ∀ i ∈ s.kernel.queue, (s.kernel.sockets i).isClosed = true
  closes : ∀ i port, s.kernel.sockets i = .closed port →
    i ∈ s.kernel.queue ∨ (s.handled i = none ∧ s.kernel.lost = true) ∨
      ∃ h, s.handled i = some h ∧ ((h = now ∧ seen port) ∨
        (∃ t, s.stampedAt port = some t ∧ h ≤ t) ∨
        h.toNat + recentMilliseconds ≤ s.checkNewSessionsUntilMs.toNat)

/-- While there is a local session, notifications are watched. -/
structure Counted (s : State) : Prop where
  armed : s.destroyEventsArmed = s.kernel.watched
  count : s.sessions.countP Session.isLocal = s.localSessionCount
  watching : 0 < s.localSessionCount → s.destroyEventsArmed = true

/-- What a walk over the sessions may change of a state. -/
structure Walks (s s' : State) : Prop where
  kernel : s.kernel.Follows s'.kernel
  due : s'.releaseRetryDueMs ≤ s.releaseRetryDueMs
  sessions : s'.sessions = s.sessions
  releasedPorts : s'.releasedPorts = s.releasedPorts
  portDestroyedMs : s'.portDestroyedMs = s.portDestroyedMs
  checkNewSessionsUntilMs : s'.checkNewSessionsUntilMs = s.checkNewSessionsUntilMs
  armed : s'.destroyEventsArmed = s.destroyEventsArmed
  handled : s'.handled = s.handled
  stampedAt : s'.stampedAt = s.stampedAt

theorem Walks.refl (s : State) : Walks s s :=
  ⟨.refl _, UInt64.le_refl _, rfl, rfl, rfl, rfl, rfl, rfl, rfl⟩

theorem Walks.trans (h : Walks s s₁) (h' : Walks s₁ s₂) : Walks s s₂ :=
  ⟨h.kernel.trans h'.kernel, UInt64.le_trans h'.due h.due, h'.sessions.trans h.sessions,
    h'.releasedPorts.trans h.releasedPorts, h'.portDestroyedMs.trans h.portDestroyedMs,
    h'.checkNewSessionsUntilMs.trans h.checkNewSessionsUntilMs, h'.armed.trans h.armed,
    h'.handled.trans h.handled, h'.stampedAt.trans h.stampedAt⟩

theorem walks_kernel (h : s.kernel.Follows k) : Walks s { s with kernel := k } :=
  ⟨h, UInt64.le_refl _, rfl, rfl, rfl, rfl, rfl, rfl, rfl⟩

theorem deadlineNote_le (due deadline : UInt64) :
    deadlineNote due deadline ≤ due ∧ deadlineNote due deadline ≤ deadline := by
  unfold deadlineNote
  split
  · rename_i h
    exact ⟨UInt64.le_of_lt h, UInt64.le_refl _⟩
  · rename_i h
    exact ⟨UInt64.le_refl _, UInt64.not_lt.mp h⟩

theorem walks_noteRetry (s : State) (deadline : UInt64) : Walks s (s.noteRetry deadline) :=
  ⟨.refl _, (deadlineNote_le _ _).1, rfl, rfl, rfl, rfl, rfl, rfl, rfl⟩

theorem walks_uncount (s : State) : Walks s s.uncount :=
  ⟨.refl _, UInt64.le_refl _, rfl, rfl, rfl, rfl, rfl, rfl, rfl⟩

theorem State.Safe.walks (h : s.Safe x) (hw : Walks s s') : s'.Safe x := by
  rcases h with ha | ⟨hne, hle⟩
  · exact .inl (hw.kernel.alive _ ha)
  · exact .inr ⟨hne, UInt64.le_trans hw.due hle⟩

theorem Covered.walks (h : Covered seen s) (hw : Walks s s') : Covered seen s' := by
  intro x hx hl
  rw [hw.sessions] at hx
  exact (h x hx hl).imp_left fun hs => hs.walks hw

/-- Nothing is handled twice: the close of a socket that is open is not handled. -/
theorem Ledger.unhandled (h : Ledger now seen s) (hi : (s.kernel.sockets i).isClosed = false) :
    s.handled i = none := by
  cases hh : s.handled i with
  | none => rfl
  | some t => exact nomatch hi.symm.trans (h.handled i t hh).2

theorem Ledger.walks (h : Ledger now seen s) (hw : Walks s s') : Ledger now seen s' := by
  refine ⟨UInt64.le_trans h.clock hw.kernel.clock, fun p t ht => ?_, fun i t ht => ?_,
    fun i hi => ?_, fun i p hc => ?_⟩
  · rw [hw.stampedAt] at ht
    rw [hw.portDestroyedMs]
    exact h.stamps p t ht
  · rw [hw.handled] at ht
    exact ⟨(h.handled i t ht).1, hw.kernel.isClosed i (h.handled i t ht).2⟩
  · rcases hw.kernel.queued i hi with hi | hc
    · exact hw.kernel.isClosed i (h.queued i hi)
    · exact hc
  · rw [hw.handled, hw.stampedAt, hw.checkNewSessionsUntilMs]
    rcases hw.kernel.closed i p hc with hc | hq | ⟨hl, hn⟩
    · rcases h.closes i p hc with hq | ⟨hn, hl⟩ | hh
      · exact .inl (hw.kernel.queue i hq)
      · exact .inr (.inl ⟨hn, hw.kernel.lost hl⟩)
      · exact .inr (.inr hh)
    · exact .inl hq
    · exact .inr (.inl ⟨h.unhandled hn, hl⟩)

/-- The clock is read again. -/
theorem Ledger.later {t : UInt64} (h : Ledger now (fun _ => False) s) (hle : now ≤ t)
    (ht : t ≤ s.kernel.clock) : Ledger t (fun _ => False) s := by
  refine ⟨ht, fun p u hu => ?_, fun i u hu => ?_, h.queued, fun i p hc => ?_⟩
  · exact ⟨UInt64.le_trans (h.stamps p u hu).1 hle, (h.stamps p u hu).2⟩
  · exact ⟨UInt64.le_trans (h.handled i u hu).1 hle, (h.handled i u hu).2⟩
  · rcases h.closes i p hc with hq | hl | ⟨u, hu, ⟨-, hf⟩ | hs⟩
    · exact .inl hq
    · exact .inr (.inl hl)
    · exact hf.elim
    · exact .inr (.inr ⟨u, hu, .inr hs⟩)

theorem Counted.walks (h : Counted s) (hw : Walks s s')
    (hc : s'.localSessionCount = s.localSessionCount) : Counted s' := by
  refine ⟨?_, ?_, ?_⟩
  · rw [hw.armed, hw.kernel.watched]
    exact h.armed
  · rw [hw.sessions, hc]
    exact h.count
  · rw [hc, hw.armed]
    exact h.watching

/-! ## Which runs are calm -/

/-- The clock is not at a time whose retry is zero; a loss is not handled so late that the end of its
watch wraps around; and no local session is created in a millisecond whose low 32 bits are zero and
in which its port was stamped. -/
def Calm (s : State) (k : Kernel) : (q : Call) → Result q → Prop
  | .now, _ => k.clock + retryMilliseconds ≠ 0
  | .seen addr _, _ => k.clock + retryMilliseconds ≠ 0 ∧
      (sockaddrIsLoopback addr = true → k.clock.toUInt32 = 0 →
        s.stampedAt (sockaddrPort addr) ≠ some k.clock)
  | .recv now, r => r = none → now.toNat + recentMilliseconds < UInt64.size
  | _, _ => True

/-- The answers of a calm environment. -/
structure calmly (s : State) (q : Call) (r : Answer q) : Prop where
  admissible : admissible s q r
  calm : Calm s r.1 q r.2

/-- A system call: the kernel has moved on. -/
theorem sys_sat {q : Call} {post : State → Result q → Prop}
    (h : ∀ k r, s.kernel.Follows k → Truthful k q r → Timely s k q → Calm s k q r →
      post { s with kernel := k } r) : Prog.Sat calmly post (sys q s) := by
  rintro ⟨k, r⟩ ⟨⟨he, ht, htimely⟩, hcalm⟩
  exact h k r he.follows ht htimely hcalm

/-! ## Releasing -/

/-- What the memo knows of ports that are in use. -/
def Remembers (s : State) (memo : PortMemo) : Prop :=
  ∀ port r, (port, r) ∈ memo → r ≠ some false → s.kernel.Alive port

theorem Remembers.walks {memo : PortMemo} (h : Remembers s memo) (hw : Walks s s') :
    Remembers s' memo := fun port r hm hr => hw.kernel.alive _ (h port r hm hr)

theorem mem_of_lookup {memo : PortMemo} {r : Option Bool} (h : memo.lookup port = some r) :
    (port, r) ∈ memo := by
  induction memo with
  | nil => cases h
  | cons a rest ih =>
      obtain ⟨p, r'⟩ := a
      rw [List.lookup_cons] at h
      split at h
      · rename_i he
        cases h
        rw [eq_of_beq he]
        exact List.mem_cons_self
      · exact List.mem_cons_of_mem _ (ih h)

theorem portHasSocket_sat {memo : PortMemo} (h : Remembers s memo) :
    Prog.Sat calmly (fun s' r => Walks s s' ∧ s'.localSessionCount = s.localSessionCount ∧
      Remembers s' r.2 ∧ (r.1 ≠ some false → s'.kernel.Alive port)) (portHasSocket memo port s) := by
  unfold portHasSocket
  cases hm : memo.lookup port with
  | some r => exact ⟨.refl s, rfl, h, h port r (mem_of_lookup hm)⟩
  | none =>
      refine Prog.Sat.bind (m := fun s' (r : Option Bool) => Walks s s' ∧
        s'.localSessionCount = s.localSessionCount ∧ (r ≠ some false → s'.kernel.Alive port))
        (sys_sat fun k r hf ht _ _ => ⟨walks_kernel hf, rfl, fun hr => ?_⟩) ?_
      · obtain ⟨b, rfl, hh⟩ := ht
        cases b with
        | true => exact .inl (hh.mp rfl)
        | false => exact absurd rfl hr
      · rintro s' r ⟨hw, hc, ha⟩
        refine ⟨hw, hc, ?_, ha⟩
        dsimp only
        split
        · intro p r' hp hr'
          rcases List.mem_append.mp hp with hp | hp
          · exact h.walks hw p r' hp hr'
          · cases List.mem_singleton.mp hp
            exact ha hr'
        · exact h.walks hw

/-- Sessions that stay will be looked at. -/
structure Keeping (s s' : State) (todo kept : List Session) : Prop where
  walks : Walks s s'
  safe : ∀ x ∈ kept, x.isLocal = true → s'.Safe x
  count : s'.localSessionCount + todo.countP Session.isLocal =
    s.localSessionCount + kept.countP Session.isLocal
  fewer : kept.countP Session.isLocal ≤ todo.countP Session.isLocal

/-- One more session stays. -/
theorem Keeping.cons {rest kept : List Session} {y : Session} (h : Keeping s₁ s' rest kept)
    (hw : Walks s s₁) (hc : s₁.localSessionCount = s.localSessionCount)
    (hl : y.isLocal = x.isLocal) (hs : x.isLocal = true → s₁.Safe y) :
    Keeping s s' (x :: rest) (y :: kept) := by
  have hcount := h.count
  have hfewer := h.fewer
  refine ⟨hw.trans h.walks, fun z hz hz' => ?_, ?_, ?_⟩
  · rcases List.mem_cons.mp hz with rfl | hz
    · exact (hs (hl ▸ hz')).walks h.walks
    · exact h.safe z hz hz'
  · rw [List.countP_cons, List.countP_cons, hl]
    omega
  · rw [List.countP_cons, List.countP_cons, hl]
    omega

theorem releaseFlaggedFrom_sat (todo : List Session) {memo : PortMemo}
    (hnow : now + retryMilliseconds ≠ 0) (hm : Remembers s memo)
    (hcount : todo.countP Session.isLocal ≤ s.localSessionCount)
    (h : ∀ x ∈ todo, x.isLocal = true → s.Safe x ∨ s.releasedPorts x.port = true) :
    Prog.Sat calmly (fun s' kept => Keeping s s' todo kept) (releaseFlaggedFrom now todo memo s) := by
  induction todo generalizing s memo with
  | nil => exact ⟨.refl s, fun _ hx => (nomatch hx), rfl, Nat.le_refl _⟩
  | cons x rest ih =>
      have hx := h x List.mem_cons_self
      have hrest : ∀ {s₁}, Walks s s₁ → ∀ y ∈ rest, y.isLocal = true →
          s₁.Safe y ∨ s₁.releasedPorts y.port = true := by
        intro s₁ hw y hy hl
        rw [hw.releasedPorts]
        exact (h y (List.mem_cons_of_mem _ hy) hl).imp_left fun hs => hs.walks hw
      rw [List.countP_cons] at hcount
      refine Act.sat_ite (fun hno => ?_) fun hyes => ?_
      · -- not a local session on a flagged port
        refine (ih hm (by omega) (hrest (.refl s))).bind fun s' kept hk =>
          hk.cons (.refl s) rfl rfl fun hl => ?_
        rcases hno with hno | hno
        · exact nomatch hno.symm.trans hl
        · exact (hx hl).resolve_right fun hp => nomatch hno.symm.trans hp
      · obtain ⟨hl, hp⟩ := not_or.mp hyes
        have hl : x.isLocal = true := by simpa using hl
        rw [if_pos hl] at hcount
        refine Act.sat_ite (fun _ => ?_) fun _ => ?_
        · -- replies still drain: a time to look again
          have hw := walks_noteRetry s (now + retryMilliseconds)
          refine (ih (hm.walks hw) (by show _ ≤ s.localSessionCount; omega) (hrest hw)).bind
            fun s' kept hk => hk.cons hw rfl rfl fun _ => ?_
          exact .inr ⟨hnow, (deadlineNote_le _ _).2⟩
        · refine (portHasSocket_sat hm).bind fun s₁ r h₁ => ?_
          obtain ⟨r, memo₁⟩ := r
          obtain ⟨hw, hc, hm₁, ha⟩ := h₁
          refine Act.sat_ite (fun _ => ?_) fun hopen => ?_
          · -- no socket: the session goes
            have hw' := hw.trans (walks_uncount s₁)
            refine (ih (s := s₁.uncount) (hm₁.walks (walks_uncount s₁)) ?_ (hrest hw')).mono
              fun s' kept hk => ?_
            · show _ ≤ s₁.localSessionCount - 1
              omega
            · have hkept : s'.localSessionCount + rest.countP Session.isLocal =
                s₁.localSessionCount - 1 + kept.countP Session.isLocal := hk.count
              have hfewer := hk.fewer
              refine ⟨hw'.trans hk.walks, hk.safe, ?_, ?_⟩
              · rw [List.countP_cons, if_pos hl]
                omega
              · rw [List.countP_cons]
                omega
          · refine (ih hm₁ (by omega) (hrest hw)).bind fun s' kept hk => ?_
            exact hk.cons hw hc rfl fun _ => .inl (ha hopen)

/-- What every state between two turns has, as of a clock reading. -/
structure Settled (now : UInt64) (s : State) : Prop where
  counted : Counted s
  ledger : Ledger now (fun _ => False) s
  covered : Covered (fun _ => False) s
  clear : s.releasedPorts = fun _ => false

/-- **`release_flagged_sessions`**: sessions on flagged ports are covered again. -/
theorem releaseFlaggedSessions_sat (hnow : now + retryMilliseconds ≠ 0) (hc : Counted s)
    (hl : Ledger now (fun _ => False) s)
    (hcov : Covered (fun port => s.releasedPorts port = true) s) :
    Prog.Sat calmly (fun s' _ => Settled now s') (releaseFlaggedSessions now s) := by
  have hno : Remembers s [] := fun _ _ hm => absurd hm List.not_mem_nil
  refine (releaseFlaggedFrom_sat s.sessions hnow hno (Nat.le_of_eq hc.count) hcov).bind fun s₁ kept hk => ?_
  have hcount := hc.count
  have hkept := hk.count
  have hfewer := hk.fewer
  refine ⟨⟨?_, ?_, fun hpos => ?_⟩, ?_, fun x hx hloc => ?_, rfl⟩
  · show s₁.destroyEventsArmed = s₁.kernel.watched
    rw [hk.walks.armed, hk.walks.kernel.watched]
    exact hc.armed
  · show kept.countP Session.isLocal = s₁.localSessionCount
    omega
  · show s₁.destroyEventsArmed = true
    rw [hk.walks.armed]
    refine hc.watching ?_
    have hpos' : 0 < s₁.localSessionCount := hpos
    omega
  · have hw := hl.walks hk.walks
    exact ⟨hw.clock, hw.stamps, hw.handled, hw.queued, hw.closes⟩
  · exact .inl (hk.safe x hx hloc)

/-! ## Notifications -/

theorem Settled.walks (h : Settled now s) (hw : Walks s s')
    (hc : s'.localSessionCount = s.localSessionCount) : Settled now s' :=
  ⟨h.counted.walks hw hc, h.ledger.walks hw, h.covered.walks hw, hw.releasedPorts.trans h.clear⟩

/-- What has been drained so far: the ports, and whether something was lost. -/
def Drained (ports : List UInt16) (lost : Bool) (port : UInt16) : Prop :=
  port ∈ ports ∨ lost = true

/-- In the middle of a drain. -/
structure Draining (now : UInt64) (ports : List UInt16) (lost : Bool) (s : State) : Prop where
  counted : Counted s
  ledger : Ledger now (Drained ports lost) s
  covered : Covered (Drained ports lost) s
  clear : s.releasedPorts = fun _ => false
  late : lost = true → now.toNat + recentMilliseconds < UInt64.size

theorem Draining.walks {ports : List UInt16} {lost : Bool} (h : Draining now ports lost s)
    (hw : Walks s s') (hc : s'.localSessionCount = s.localSessionCount) :
    Draining now ports lost s' :=
  ⟨h.counted.walks hw hc, h.ledger.walks hw, h.covered.walks hw, hw.releasedPorts.trans h.clear,
    h.late⟩

/-- The loss mark is read: every close that nothing reports is handled. -/
theorem Draining.readLoss {ports : List UInt16} {lost : Bool} (h : Draining now ports lost s)
    (hlate : now.toNat + recentMilliseconds < UInt64.size) :
    Draining now ports true (s.readLoss now) := by
  refine ⟨⟨h.counted.armed, h.counted.count, h.counted.watching⟩, ⟨h.ledger.clock, h.ledger.stamps,
    fun i t ht => ?_, h.ledger.queued, fun i p hc => ?_⟩, fun x hx hl => .inr (.inr rfl), h.clear, fun _ => hlate⟩
  · have ht' : (if s.handled i = none ∧ i ∉ s.kernel.queue ∧ (s.kernel.sockets i).isClosed = true
        then some now else s.handled i) = some t := ht
    split at ht'
    · rename_i hi
      cases ht'
      exact ⟨UInt64.le_refl _, hi.2.2⟩
    · exact h.ledger.handled i t ht'
  · have hcl : (s.kernel.sockets i).isClosed = true := by
      rw [show s.kernel.sockets i = .closed p from hc]
      rfl
    by_cases hq : i ∈ s.kernel.queue
    · exact .inl hq
    · refine .inr (.inr ?_)
      show ∃ t, (if s.handled i = none ∧ i ∉ s.kernel.queue ∧ (s.kernel.sockets i).isClosed = true
        then some now else s.handled i) = some t ∧ _
      by_cases hn : s.handled i = none
      · exact ⟨now, if_pos ⟨hn, hq, hcl⟩, .inl ⟨rfl, .inr rfl⟩⟩
      · rw [if_neg fun hi => hn hi.1]
        rcases h.ledger.closes i p hc with hq' | ⟨hn', -⟩ | ⟨t, ht, ⟨rfl, -⟩ | hrest⟩
        · exact absurd hq' hq
        · exact absurd hn' hn
        · exact ⟨_, ht, .inl ⟨rfl, .inr rfl⟩⟩
        · exact ⟨t, ht, .inr hrest⟩

theorem mem_ports {n : Nat} (hi : i ∈ k.queue.take n) (hc : k.sockets i = .closed port) :
    port ∈ k.ports n :=
  List.mem_filterMap.mpr ⟨i, hi, by rw [hc]; rfl⟩

theorem mem_take_or_drop {α : Type} {l : List α} {a : α} (n : Nat) (h : a ∈ l) :
    a ∈ l.take n ∨ a ∈ l.drop n := by
  rw [← List.take_append_drop n l] at h
  exact List.mem_append.mp h

/-- Notifications are read: their closes are handled, and their ports drained. -/
theorem Draining.readNotifications {ports : List UInt16} {lost : Bool}
    (h : Draining now ports lost s) (n : Nat) :
    Draining now (ports ++ s.kernel.ports n) lost (s.readNotifications now n) := by
  have hmore : ∀ {p}, Drained ports lost p → Drained (ports ++ s.kernel.ports n) lost p :=
    fun hd => hd.imp_left fun hp => List.mem_append_left _ hp
  refine ⟨⟨h.counted.armed, h.counted.count, h.counted.watching⟩, ⟨h.ledger.clock, h.ledger.stamps,
    fun i t ht => ?_, fun i hi => h.ledger.queued i (List.mem_of_mem_drop hi), fun i p hc => ?_⟩,
    fun x hx hl => ?_, h.clear, h.late⟩
  · have ht' : (if i ∈ s.kernel.queue.take n then some now else s.handled i) = some t := ht
    split at ht'
    · rename_i hi
      cases ht'
      exact ⟨UInt64.le_refl _, h.ledger.queued i (List.mem_of_mem_take hi)⟩
    · exact h.ledger.handled i t ht'
  · show i ∈ s.kernel.queue.drop n ∨
      ((if i ∈ s.kernel.queue.take n then some now else s.handled i) = none ∧ _) ∨
      ∃ t, (if i ∈ s.kernel.queue.take n then some now else s.handled i) = some t ∧ _
    by_cases hi : i ∈ s.kernel.queue.take n
    · exact .inr (.inr ⟨now, if_pos hi, .inl ⟨rfl, .inl (List.mem_append_right _ (mem_ports hi hc))⟩⟩)
    · rw [if_neg hi]
      rcases h.ledger.closes i p hc with hq | hl | ⟨t, ht, ⟨he, hd⟩ | hrest⟩
      · exact .inl ((mem_take_or_drop n hq).resolve_left hi)
      · exact .inr (.inl hl)
      · exact .inr (.inr ⟨t, ht, .inl ⟨he, hmore hd⟩⟩)
      · exact .inr (.inr ⟨t, ht, .inr hrest⟩)
  · rcases h.covered x hx hl with ((hh | hl | ⟨i, hi, hc⟩) | hs) | hd
    · exact .inl (.inl (.inl hh))
    · exact .inl (.inl (.inr (.inl hl)))
    · rcases mem_take_or_drop n hi with hi | hi
      · exact .inr (.inl (List.mem_append_right _ (mem_ports hi hc)))
      · exact .inl (.inl (.inr (.inr ⟨i, hi, hc⟩)))
    · exact .inl (.inr hs)
    · exact .inr (hmore hd)

theorem drainFrom_sat (rounds : Nat) {ports : List UInt16} {lost : Bool}
    (h : Draining now ports lost s) :
    Prog.Sat calmly (fun s' r => Draining now r.1 r.2 s') (drainFrom now rounds ports lost s) := by
  induction rounds generalizing s ports lost with
  | zero => exact h
  | succ rounds ih =>
      refine Prog.Sat.bind (m := fun s' (r : Option Nat) => Draining now ports lost s' ∧
        (r = none → now.toNat + recentMilliseconds < UInt64.size))
        (sys_sat fun k r hf _ _ hcalm => ⟨h.walks (walks_kernel hf) rfl, hcalm⟩) ?_
      rintro s₁ r ⟨h₁, hlate⟩
      cases r with
      | none => exact ih (h₁.readLoss (hlate rfl))
      | some n => exact ih (h₁.readNotifications n)

/-- **`bpf2socks_udp_destroy_events_drain`** keeps account of what it reads. -/
theorem destroyEventsDrain_sat (h : Settled now s) :
    Prog.Sat calmly (fun s' r => Draining now r.1 r.2 s') (destroyEventsDrain now s) := by
  have hno : ∀ {p}, Drained [] false p → False := by
    rintro p (hp | hl)
    · exact List.not_mem_nil hp
    · cases hl
  have h₀ : Draining now [] false s := by
    refine ⟨h.counted, ⟨h.ledger.clock, h.ledger.stamps, h.ledger.handled, h.ledger.queued,
      fun i p hc => ?_⟩, fun x hx hl => (h.covered x hx hl).imp_right False.elim, h.clear,
      fun hl => nomatch hl⟩
    rcases h.ledger.closes i p hc with hq | hl | ⟨t, ht, ⟨-, hf⟩ | hrest⟩
    · exact .inl hq
    · exact .inr (.inl hl)
    · exact hf.elim
    · exact .inr (.inr ⟨t, ht, .inr hrest⟩)
  refine Prog.Sat.bind (m := fun s' _ => Draining now [] false s')
    (sys_sat fun k r hf _ _ _ => h₀.walks (walks_kernel hf) rfl) fun s₁ rounds h₁ => ?_
  exact drainFrom_sat rounds h₁

theorem setPort_of {ports : UInt16 → Bool} {p : UInt16} (h : ports p = true) (q : UInt16) :
    setPort ports q p = true := by
  unfold setPort
  by_cases he : p = q
  · rw [he, update_self]
  · rw [update_of_ne he, h]

theorem foldl_setPort_of {ports : UInt16 → Bool} {p : UInt16} (list : List UInt16)
    (h : ports p = true ∨ p ∈ list) : list.foldl setPort ports p = true := by
  induction list generalizing ports with
  | nil => exact h.resolve_right List.not_mem_nil
  | cons q rest ih =>
      refine ih ?_
      rcases h with h | h
      · exact .inl (setPort_of h q)
      · rcases List.mem_cons.mp h with rfl | h
        · exact .inl (update_self ..)
        · exact .inr h

/-- `flag_all_local_sessions` flags the port of every local session, and takes no flag away. -/
theorem foldl_flag_of {ports : UInt16 → Bool} {p : UInt16} (list : List Session)
    (h : ports p = true ∨ ∃ x ∈ list, x.isLocal = true ∧ x.port = p) :
    list.foldl (fun ports x => if x.isLocal then setPort ports x.port else ports) ports p =
      true := by
  induction list generalizing ports with
  | nil =>
      rcases h with h | ⟨x, hx, -⟩
      · exact h
      · exact absurd hx List.not_mem_nil
  | cons y rest ih =>
      refine ih ?_
      dsimp only
      rcases h with h | ⟨x, hx, hl, rfl⟩
      · left
        split
        · exact setPort_of h _
        · exact h
      · rcases List.mem_cons.mp hx with rfl | hx
        · left
          rw [if_pos hl]
          exact update_self ..
        · exact .inr ⟨x, hx, hl, rfl⟩

/-- Stamping the flagged ports accounts for what was drained on them. -/
theorem Ledger.stamp {seen' : UInt16 → Prop} (h : Ledger now seen s)
    (hseen : ∀ p, seen p → s.releasedPorts p = true ∨ seen' p) :
    Ledger now seen' (s.stampDestroyedPorts now) := by
  refine ⟨h.clock, fun p t ht => ?_, h.handled, h.queued, fun i p hc => ?_⟩
  · have ht' : (if s.releasedPorts p then some now else s.stampedAt p) = some t := ht
    show t ≤ now ∧ (if s.releasedPorts p then destroyStamp now else s.portDestroyedMs p) = _
    split at ht'
    · rename_i hp
      cases ht'
      exact ⟨UInt64.le_refl _, if_pos hp⟩
    · rename_i hp
      rw [if_neg hp]
      exact h.stamps p t ht'
  · have hold : ∀ t u, s.handled i = some t → s.stampedAt p = some u → t ≤ u →
        ∃ u, (if s.releasedPorts p then some now else s.stampedAt p) = some u ∧ t ≤ u := by
      intro t u ht hu hle
      by_cases hp : s.releasedPorts p = true
      · exact ⟨now, if_pos hp, (h.handled i t ht).1⟩
      · exact ⟨u, (if_neg hp).trans hu, hle⟩
    rcases h.closes i p hc with hq | hl | ⟨t, ht, ⟨rfl, hs⟩ | ⟨u, hu, hle⟩ | hlong⟩
    · exact .inl hq
    · exact .inr (.inl hl)
    · refine .inr (.inr ⟨_, ht, ?_⟩)
      rcases hseen p hs with hp | hs'
      · exact .inr (.inl ⟨_, if_pos hp, UInt64.le_refl _⟩)
      · exact .inl ⟨rfl, hs'⟩
    · exact .inr (.inr ⟨t, ht, .inr (.inl (hold t u ht hu hle))⟩)
    · exact .inr (.inr ⟨t, ht, .inr (.inr hlong)⟩)

/-- With a loss, new sessions are under watch for a while. -/
theorem Ledger.lost {until' : UInt64} (h : Ledger now seen s)
    (hu : until'.toNat = now.toNat + recentMilliseconds) :
    Ledger now (fun _ => False) { s with checkNewSessionsUntilMs := until' } := by
  refine ⟨h.clock, h.stamps, h.handled, h.queued, fun i p hc => ?_⟩
  have hlong : ∀ t, s.handled i = some t → t.toNat + recentMilliseconds ≤ until'.toNat := by
    intro t ht
    have hle := UInt64.le_iff_toNat_le.mp (h.handled i t ht).1
    omega
  rcases h.closes i p hc with hq | hl | ⟨t, ht, -⟩
  · exact .inl hq
  · exact .inr (.inl hl)
  · exact .inr (.inr ⟨t, ht, .inr (.inr (hlong t ht))⟩)

/-- Only the flags differ. -/
theorem Ledger.flags (h : Ledger now seen s) (ports : UInt16 → Bool) :
    Ledger now seen { s with releasedPorts := ports } :=
  ⟨h.clock, h.stamps, h.handled, h.queued, h.closes⟩

/-- What was drained is stamped and flagged. -/
theorem Draining.noteDestroyed {ports : List UInt16} {lost : Bool} (h : Draining now ports lost s) :
    Counted (s.noteDestroyed now ports lost) ∧
      Ledger now (fun _ => False) (s.noteDestroyed now ports lost) ∧
      Covered (fun port => (s.noteDestroyed now ports lost).releasedPorts port = true)
        (s.noteDestroyed now ports lost) := by
  have hflag : ∀ p, p ∈ ports → ports.foldl setPort s.releasedPorts p = true := fun p hp =>
    foldl_setPort_of ports (.inr hp)
  have hledger : Ledger now (fun _ => lost = true)
      (if ports.length > 0 then
        State.stampDestroyedPorts { s with releasedPorts := ports.foldl setPort s.releasedPorts } now
      else { s with releasedPorts := ports.foldl setPort s.releasedPorts }) := by
    split
    · exact (h.ledger.flags _).stamp fun p hp => hp.imp_left (hflag p)
    · rename_i hlen
      have hnil : ports = [] := List.length_eq_zero_iff.mp (by omega)
      subst hnil
      refine ⟨h.ledger.clock, h.ledger.stamps, h.ledger.handled, h.ledger.queued, fun i p hc => ?_⟩
      rcases h.ledger.closes i p hc with hq | hl | ⟨t, ht, ⟨he, hd⟩ | hrest⟩
      · exact .inl hq
      · exact .inr (.inl hl)
      · exact .inr (.inr ⟨t, ht, .inl ⟨he, hd.resolve_left List.not_mem_nil⟩⟩)
      · exact .inr (.inr ⟨t, ht, .inr hrest⟩)
  -- stamping changes no field but the stamps
  have hsame : ∀ s₁ : State, s₁ = (if ports.length > 0 then
        State.stampDestroyedPorts { s with releasedPorts := ports.foldl setPort s.releasedPorts } now
      else { s with releasedPorts := ports.foldl setPort s.releasedPorts }) →
      s₁.kernel = s.kernel ∧ s₁.sessions = s.sessions ∧ s₁.localSessionCount = s.localSessionCount ∧
      s₁.destroyEventsArmed = s.destroyEventsArmed ∧ s₁.releaseRetryDueMs = s.releaseRetryDueMs ∧
      s₁.releasedPorts = ports.foldl setPort s.releasedPorts := by
    rintro s₁ rfl
    split
    · exact ⟨rfl, rfl, rfl, rfl, rfl, rfl⟩
    · exact ⟨rfl, rfl, rfl, rfl, rfl, rfl⟩
  unfold State.noteDestroyed
  dsimp only
  generalize hs₁ : (if ports.length > 0 then
        State.stampDestroyedPorts { s with releasedPorts := ports.foldl setPort s.releasedPorts } now
      else { s with releasedPorts := ports.foldl setPort s.releasedPorts }) = s₁ at hledger hsame ⊢
  obtain ⟨hk, hsess, hcnt, harm, hdue, hrel⟩ := hsame s₁ rfl
  have hcounted : Counted s₁ := by
    refine ⟨?_, ?_, ?_⟩
    · rw [harm, hk]
      exact h.counted.armed
    · rw [hsess, hcnt]
      exact h.counted.count
    · rw [hcnt, harm]
      exact h.counted.watching
  have hcov : ∀ x ∈ s₁.sessions, x.isLocal = true → s₁.Safe x ∨
      (ports.foldl setPort s.releasedPorts x.port = true ∨ lost = true) := by
    intro x hx hl
    rw [hsess] at hx
    refine (h.covered x hx hl).imp (fun hs => ?_) fun hd => hd.imp_left (hflag _)
    unfold State.Safe
    rw [hk, hdue]
    exact hs
  -- after a loss every local session is flagged; otherwise those whose port was drained
  cases lost with
  | false =>
      rw [if_neg Bool.false_ne_true]
      refine ⟨hcounted, ?_, fun x hx hl => ?_⟩
      · refine ⟨hledger.clock, hledger.stamps, hledger.handled, hledger.queued, fun i p hc => ?_⟩
        rcases hledger.closes i p hc with hq | hl | ⟨t, ht, ⟨-, hf⟩ | hrest⟩
        · exact .inl hq
        · exact .inr (.inl hl)
        · cases hf
        · exact .inr (.inr ⟨t, ht, .inr hrest⟩)
      · rw [hrel]
        exact (hcov x hx hl).imp_right fun hd => hd.resolve_right Bool.false_ne_true
  | true =>
      rw [if_pos rfl]
      have hlate := h.late rfl
      have hadd : (now + UInt64.ofNat recentMilliseconds).toNat =
          now.toNat + recentMilliseconds := by
        rw [UInt64.toNat_add]
        exact Nat.mod_eq_of_lt hlate
      refine ⟨⟨hcounted.armed, hcounted.count, hcounted.watching⟩, ?_, fun x hx hl => .inr ?_⟩
      · exact (hledger.flags _).lost hadd
      · exact foldl_flag_of _ (.inr ⟨x, hx, hl, rfl⟩)

/-- **`bpf2socks_udp_release_handle_events`**. -/
theorem releaseHandleEvents_sat (hnow : now + retryMilliseconds ≠ 0) (h : Settled now s) :
    Prog.Sat calmly (fun s' _ => Settled now s') (releaseHandleEvents now s) := by
  refine (destroyEventsDrain_sat h).bind fun s₁ r h₁ => ?_
  obtain ⟨ports, lost⟩ := r
  refine Act.sat_ite (fun hno => ?_) fun _ => ?_
  · obtain ⟨hlen, rfl⟩ := hno
    obtain rfl := List.length_eq_zero_iff.mp hlen
    have hnone : ∀ {p}, ¬ Drained [] false p := by
      rintro p (hp | hl)
      · exact List.not_mem_nil hp
      · cases hl
    refine ⟨h₁.counted, ⟨h₁.ledger.clock, h₁.ledger.stamps, h₁.ledger.handled, h₁.ledger.queued,
      fun i p hc => ?_⟩, fun x hx hl => (h₁.covered x hx hl).imp_right hnone, h₁.clear⟩
    rcases h₁.ledger.closes i p hc with hq | hl | ⟨t, ht, ⟨-, hd⟩ | hrest⟩
    · exact .inl hq
    · exact .inr (.inl hl)
    · exact absurd hd hnone
    · exact .inr (.inr ⟨t, ht, .inr hrest⟩)
  · obtain ⟨hc, hl, hcov⟩ := h₁.noteDestroyed
    exact releaseFlaggedSessions_sat hnow hc hl hcov

/-- The clock is read. -/
theorem nowMs_sat {post : State → UInt64 → Prop} {t : UInt64} (h : Settled t s)
    (hpost : ∀ s', Settled s'.kernel.clock s' → Walks s s' →
      s'.kernel.clock + retryMilliseconds ≠ 0 → post s' s'.kernel.clock) :
    Prog.Sat calmly post (nowMs s) := by
  refine Prog.Sat.bind (m := fun s' _ => Settled s'.kernel.clock s' ∧ Walks s s' ∧
    s'.kernel.clock + retryMilliseconds ≠ 0) (sys_sat fun k r hf _ _ hcalm => ?_) ?_
  · have hw := h.walks (walks_kernel hf) rfl
    exact ⟨⟨hw.counted, hw.ledger.later hw.ledger.clock (UInt64.le_refl _), hw.covered, hw.clear⟩,
      walks_kernel hf, hcalm⟩
  · rintro s₁ - ⟨h₁, hw, hcalm⟩
    exact hpost s₁ h₁ hw hcalm

theorem destroyEvent_sat {t : UInt64} (h : Settled t s) :
    Prog.Sat calmly (fun s' _ => ∃ t, Settled t s') (destroyEvent s) := by
  refine Prog.Sat.bind (m := fun s' now => Settled now s' ∧ now + retryMilliseconds ≠ 0)
    (nowMs_sat h fun s' h' _ hcalm => ⟨h', hcalm⟩) ?_
  rintro s₁ now ⟨h₁, hnow⟩
  exact (releaseHandleEvents_sat hnow h₁).mono fun s₂ _ h₂ => ⟨now, h₂⟩

/-! ## Watching -/

theorem Settled.setWatched (h : Settled now s) (b : Bool)
    (hb : b = false → s.localSessionCount = 0) :
    Settled now { s with
      kernel := { s.kernel with watched := b }
      destroyEventsArmed := b } := by
  refine ⟨⟨rfl, h.counted.count, fun hpos => ?_⟩, ⟨h.ledger.clock, h.ledger.stamps,
    h.ledger.handled, h.ledger.queued, h.ledger.closes⟩, h.covered, h.clear⟩
  cases b with
  | true => rfl
  | false => exact absurd (hb rfl) (Nat.pos_iff_ne_zero.mp hpos)

theorem epollModify_sat (b : Bool) (h : Settled now s) :
    Prog.Sat calmly (fun s' r => r = true ∧ ∃ s₁, Settled now s₁ ∧
      s₁.localSessionCount = s.localSessionCount ∧
      (∀ i p, (s.kernel.sockets i).port = some p → (s₁.kernel.sockets i).port = some p) ∧
      s' = { s₁ with kernel := { s₁.kernel with watched := b } }) (epollModify b s) := by
  refine Prog.Sat.bind (m := fun s' (r : Bool) => r = true ∧ Settled now s' ∧
    s'.localSessionCount = s.localSessionCount ∧
    ∀ i p, (s.kernel.sockets i).port = some p → (s'.kernel.sockets i).port = some p)
    (sys_sat fun k r hf ht _ _ => ⟨ht, h.walks (walks_kernel hf) rfl, rfl, hf.port⟩) ?_
  rintro s₁ r ⟨rfl, h₁, hc, hport⟩
  exact ⟨rfl, s₁, h₁, hc, hport, rfl⟩

/-- The flag is as it was. -/
def SameArmed (s s' : State) : Prop := s'.destroyEventsArmed = s.destroyEventsArmed

/-- The flag is as it was, and the ports of sockets are. -/
structure Goes (s s' : State) : Prop where
  armed : SameArmed s s'
  port : ∀ i p, (s.kernel.sockets i).port = some p → (s'.kernel.sockets i).port = some p

instance : IsPreorder State Goes where
  refl _ := ⟨rfl, fun _ _ h => h⟩
  trans _ _ _ h h' := ⟨h'.armed.trans h.armed, fun i p hp => h'.port i p (h.port i p hp)⟩

theorem keeps_sys (q : Call) : Act.Keeps calmly Goes (sys q) := fun _ _ hr =>
  ⟨rfl, hr.admissible.evolves.follows.port⟩

theorem keeps_update {f : State → State} (h : ∀ s, Goes s (f s)) :
    Act.Keeps calmly Goes (Act.modify f) := h

theorem releaseFlaggedFrom_keeps (todo : List Session) (memo : PortMemo) :
    Act.Keeps calmly Goes (releaseFlaggedFrom now todo memo) := by
  induction todo generalizing memo with
  | nil => exact Act.keeps_pure _
  | cons x rest ih =>
      refine Act.keeps_get.bind fun s => Act.keeps_ite ((ih memo).bind fun _ => Act.keeps_pure _)
        (Act.keeps_ite ?_ ?_)
      · refine (keeps_update ?_).bind fun _ => (ih memo).bind fun _ => Act.keeps_pure _
        exact fun _ => ⟨rfl, fun _ _ h => h⟩
      · refine Act.Keeps.bind (f := portHasSocket memo x.port) ?_ fun r => ?_
        · unfold portHasSocket
          split
          · exact Act.keeps_pure _
          · exact (keeps_sys _).bind fun _ => Act.keeps_pure _
        · refine Act.keeps_ite ((keeps_update ?_).bind fun _ => ih _)
            ((ih _).bind fun _ => Act.keeps_pure _)
          exact fun _ => ⟨rfl, fun _ _ h => h⟩

theorem drainFrom_keeps (rounds : Nat) (ports : List UInt16) (lost : Bool) :
    Act.Keeps calmly Goes (drainFrom now rounds ports lost) := by
  induction rounds generalizing ports lost with
  | zero => exact Act.keeps_pure _
  | succ rounds ih =>
      refine (keeps_sys (.recv now)).bind fun r => ?_
      cases r with
      | none =>
          refine (keeps_update ?_).bind fun _ => ih _ _
          exact fun _ => ⟨rfl, fun _ _ h => h⟩
      | some n =>
          refine Act.keeps_get.bind fun s => (keeps_update ?_).bind fun _ => ih _ _
          exact fun _ => ⟨rfl, fun _ _ h => h⟩

theorem noteDestroyed_goes (s : State) (ports : List UInt16) (lost : Bool) :
    Goes s (s.noteDestroyed now ports lost) := by
  unfold State.noteDestroyed
  dsimp only
  split <;> split <;> exact ⟨rfl, fun _ _ h => h⟩

theorem releaseHandleEvents_keeps : Act.Keeps calmly Goes (releaseHandleEvents now) := by
  refine Act.Keeps.bind (f := destroyEventsDrain now)
    ((keeps_sys .rounds).bind fun rounds => drainFrom_keeps rounds [] false) fun r => ?_
  refine Act.keeps_ite (Act.keeps_pure _) ((keeps_update fun s => noteDestroyed_goes s _ _).bind
    fun _ => Act.keeps_get.bind fun s => ?_)
  exact (releaseFlaggedFrom_keeps _ _).bind fun _ => keeps_update fun _ => ⟨rfl, fun _ _ h => h⟩

/-- **`bpf2socks_udp_release_arm`**. -/
theorem releaseArm_sat (hnow : now + retryMilliseconds ≠ 0) (h : Settled now s) :
    Prog.Sat calmly (fun s' _ => Settled now s' ∧ s'.destroyEventsArmed = true ∧
      ∀ i p, (s.kernel.sockets i).port = some p → (s'.kernel.sockets i).port = some p)
      (releaseArm now s) := by
  refine (epollModify_sat true h).bind fun s₁ r h₁ => ?_
  obtain ⟨-, s₀, h₀, -, hport, rfl⟩ := h₁
  have harmed := h₀.setWatched true fun hf => nomatch hf
  refine ((releaseHandleEvents_sat hnow harmed).and (releaseHandleEvents_keeps _)).mono
    fun s₂ _ h₂ => ⟨h₂.1, h₂.2.armed, fun i p hp => h₂.2.port i p (hport i p hp)⟩

/-- **`bpf2socks_udp_release_disarm_if_idle`**. -/
theorem releaseDisarmIfIdle_sat (h : Settled now s) :
    Prog.Sat calmly (fun s' _ => Settled now s') (releaseDisarmIfIdle s) := by
  refine Act.sat_ite (fun _ => h) fun hno => ?_
  have hzero : s.localSessionCount = 0 := by
    have := (not_or.mp hno).2
    omega
  refine (epollModify_sat false h).bind fun s₁ r h₁ => ?_
  obtain ⟨rfl, s₀, h₀, hc, -, rfl⟩ := h₁
  exact h₀.setWatched false fun _ => hc.trans hzero

/-! ## Retries -/

/-- What the walk of `bpf2socks_udp_release_retry` leaves: a session keeps its later time, which is
noted, or its port is to be looked at. -/
structure Retried (list : List Session) (bound : UInt64) (flags : UInt16 → Bool)
    (r : List Session × UInt64 × (UInt16 → Bool) × Bool) : Prop where
  due : r.2.1 ≤ bound
  ports : ∀ p, flags p = true → r.2.2.1 p = true
  count : r.1.countP Session.isLocal = list.countP Session.isLocal
  sessions : ∀ y ∈ r.1, (y ∈ list ∧ (y.releaseRetryMs = 0 ∨ r.2.1 ≤ y.releaseRetryMs)) ∨
    r.2.2.1 y.port = true
  unflagged : r.2.2.2 = false → r.2.2.1 = flags

theorem retryFrom_spec (now : UInt64) (sessions : List Session) (due : UInt64) (ports : UInt16 → Bool) :
    Retried sessions due ports (retryFrom now sessions due ports) := by
  induction sessions generalizing due ports with
  | nil => exact ⟨UInt64.le_refl _, fun _ h => h, rfl, fun _ hy => absurd hy List.not_mem_nil,
      fun _ => rfl⟩
  | cons x rest ih =>
      -- what the walk of the rest says of its sessions it says of them here
      have htail : ∀ {r : List Session × UInt64 × (UInt16 → Bool) × Bool} {y : Session},
          (y ∈ rest ∧ (y.releaseRetryMs = 0 ∨ r.2.1 ≤ y.releaseRetryMs)) ∨ r.2.2.1 y.port = true →
          (y ∈ x :: rest ∧ (y.releaseRetryMs = 0 ∨ r.2.1 ≤ y.releaseRetryMs)) ∨
            r.2.2.1 y.port = true :=
        fun h => h.imp_left fun h => ⟨List.mem_cons_of_mem _ h.1, h.2⟩
      unfold retryFrom
      split
      · rename_i hzero
        have h := ih due ports
        refine ⟨h.due, h.ports, ?_, fun y hy => ?_, h.unflagged⟩
        · rw [List.countP_cons, List.countP_cons, h.count]
        · rcases List.mem_cons.mp hy with rfl | hy
          · exact .inl ⟨List.mem_cons_self, .inl hzero⟩
          · exact htail (h.sessions y hy)
      · split
        · have h := ih (deadlineNote due x.releaseRetryMs) ports
          refine ⟨UInt64.le_trans h.due (deadlineNote_le _ _).1, h.ports, ?_, fun y hy => ?_,
            h.unflagged⟩
          · rw [List.countP_cons, List.countP_cons, h.count]
          · rcases List.mem_cons.mp hy with rfl | hy
            · exact .inl ⟨List.mem_cons_self,
                .inr (UInt64.le_trans h.due (deadlineNote_le _ _).2)⟩
            · exact htail (h.sessions y hy)
        · have h := ih due (setPort ports x.port)
          refine ⟨h.due, fun p hp => h.ports p (setPort_of hp _), ?_, fun y hy => ?_,
            fun hf => nomatch hf⟩
          · rw [List.countP_cons, List.countP_cons, h.count]
            rfl
          · rcases List.mem_cons.mp hy with rfl | hy
            · exact .inr (h.ports _ (update_self ..))
            · exact htail (h.sessions y hy)

/-- After the walk, sessions are covered by their times or flagged. -/
theorem Settled.retried (h : Settled now s)
    {r : List Session × UInt64 × (UInt16 → Bool) × Bool}
    (hr : Retried s.sessions noDeadline s.releasedPorts r) :
    Counted { s with sessions := r.1, releaseRetryDueMs := r.2.1, releasedPorts := r.2.2.1 } ∧
      Ledger now (fun _ => False)
        { s with sessions := r.1, releaseRetryDueMs := r.2.1, releasedPorts := r.2.2.1 } ∧
      Covered (fun port => r.2.2.1 port = true)
        { s with sessions := r.1, releaseRetryDueMs := r.2.1, releasedPorts := r.2.2.1 } := by
  refine ⟨⟨h.counted.armed, hr.count.trans h.counted.count, h.counted.watching⟩,
    ⟨h.ledger.clock, h.ledger.stamps, h.ledger.handled, h.ledger.queued, h.ledger.closes⟩,
    fun y hy hl => ?_⟩
  rcases hr.sessions y hy with ⟨hmem, htime⟩ | hp
  · rcases h.covered y hmem hl with (ha | ⟨hne, -⟩) | hf
    · exact .inl (.inl ha)
    · exact .inl (.inr ⟨hne, htime.resolve_left hne⟩)
    · exact hf.elim
  · exact .inr hp

/-- **`bpf2socks_udp_release_retry`**. -/
theorem releaseRetry_sat (hnow : now + retryMilliseconds ≠ 0) (h : Settled now s) :
    Prog.Sat calmly (fun s' _ => Settled now s') (releaseRetry now s) := by
  refine Act.sat_ite (fun _ => h) fun _ => ?_
  have hr := retryFrom_spec now s.sessions noDeadline s.releasedPorts
  obtain ⟨hc, hl, hcov⟩ := h.retried hr
  refine Prog.Sat.bind (m := fun s' _ => s' = { s with
    sessions := (retryFrom now s.sessions noDeadline s.releasedPorts).1
    releaseRetryDueMs := (retryFrom now s.sessions noDeadline s.releasedPorts).2.1
    releasedPorts := (retryFrom now s.sessions noDeadline s.releasedPorts).2.2.1 }) ?_ ?_
  · exact rfl
  rintro s₁ - rfl
  refine Act.sat_ite (fun _ => releaseFlaggedSessions_sat hnow hc hl hcov) fun hf => ?_
  have hclear := (hr.unflagged (by simpa using hf)).trans h.clear
  refine ⟨hc, hl, fun y hy hloc => (hcov y hy hloc).imp_right fun hp => ?_, hclear⟩
  rw [hclear] at hp
  cases hp

theorem retryTurn_sat {t : UInt64} (h : Settled t s) :
    Prog.Sat calmly (fun s' _ => ∃ t, Settled t s') (retryTurn s) := by
  refine Prog.Sat.bind (m := fun s' now => Settled now s' ∧ now + retryMilliseconds ≠ 0)
    (nowMs_sat h fun s' h' _ hcalm => ⟨h', hcalm⟩) ?_
  rintro s₁ now ⟨h₁, hnow⟩
  exact (releaseRetry_sat hnow h₁).mono fun s₂ _ h₂ => ⟨now, h₂⟩

/-! ## Sessions come and go -/

/-- Other sessions and another count. -/
theorem Settled.sessions (h : Settled now s) {list : List Session} {n : Nat}
    (hmem : ∀ y ∈ list, y.isLocal = true → s.Safe y) (hcount : list.countP Session.isLocal = n)
    (hwatch : 0 < n → s.destroyEventsArmed = true) :
    Settled now { s with sessions := list, localSessionCount := n } :=
  ⟨⟨h.counted.armed, hcount, hwatch⟩, ⟨h.ledger.clock, h.ledger.stamps, h.ledger.handled,
    h.ledger.queued, h.ledger.closes⟩, fun y hy hl => .inl (hmem y hy hl), h.clear⟩

theorem Settled.safe (h : Settled now s) (hx : x ∈ s.sessions) (hl : x.isLocal = true) : s.Safe x :=
  (h.covered x hx hl).resolve_right id

theorem perm_eraseIdx {l : List Session} (h : l[i]? = some x) : l.Perm (x :: l.eraseIdx i) := by
  obtain ⟨hi, rfl⟩ := List.getElem?_eq_some_iff.mp h
  exact (List.getElem_cons_eraseIdx_perm hi).symm

theorem Settled.drop (h : Settled now s) (i : Nat) : Settled now (s.drop i) := by
  unfold State.drop
  split
  · exact h
  · rename_i x hx
    have hperm := perm_eraseIdx hx
    have hcount := hperm.countP_eq Session.isLocal
    rw [List.countP_cons, h.counted.count] at hcount
    refine h.sessions (fun y hy hl => h.safe (hperm.mem_iff.mpr (List.mem_cons_of_mem _ hy)) hl) ?_
      fun hpos => h.counted.watching ?_
    · split <;> rename_i hloc
      · rw [if_pos hloc] at hcount
        omega
      · rw [if_neg hloc] at hcount
        omega
    · split at hpos <;> omega

theorem Settled.touch (h : Settled now s) (i : Nat) : Settled now (s.touch i) := by
  unfold State.touch
  split
  · exact h
  · rename_i x hx
    have hperm : s.sessions.Perm (s.sessions.eraseIdx i ++ [x]) :=
      (perm_eraseIdx hx).trans (List.perm_append_singleton _ _).symm
    exact h.sessions (fun y hy hl => h.safe (hperm.mem_iff.mpr hy) hl)
      ((hperm.countP_eq _).symm.trans h.counted.count) h.counted.watching

theorem Settled.deliver (h : Settled now s) (i : Nat) (draining : Bool) :
    Settled now (s.deliver i draining) := by
  unfold State.deliver
  split
  · exact h
  · rename_i x hx
    have hperm := perm_eraseIdx hx
    obtain ⟨hi, -⟩ := List.getElem?_eq_some_iff.mp hx
    have hset := List.set_perm_cons_eraseIdx hi { x with draining := draining }
    refine h.sessions (fun y hy hl => ?_) ?_ h.counted.watching
    · rcases List.mem_cons.mp (hset.mem_iff.mp hy) with rfl | hy
      · have hx' : s.Safe x := h.safe (hperm.mem_iff.mpr List.mem_cons_self) hl
        exact hx'
      · exact h.safe (hperm.mem_iff.mpr (List.mem_cons_of_mem _ hy)) hl
    · rw [hset.countP_eq, ← h.counted.count, hperm.countP_eq, List.countP_cons, List.countP_cons]
      rfl

theorem Settled.evict (h : Settled now s) (victims : List Nat) : Settled now (s.evict victims) := by
  unfold State.evict
  induction victims generalizing s with
  | nil => exact h
  | cons i rest ih => exact ih (h.drop i)

/-! ## New sessions -/

/-- A stamp of the last two seconds is recent, unless it is that of a millisecond whose low 32 bits
are zero, in that very millisecond. -/
theorem recent_destroyStamp {t : UInt64} (hle : t ≤ now)
    (hlt : now.toNat < t.toNat + recentMilliseconds) (hne : now.toUInt32 = 0 → t ≠ now) :
    destroyStamp t ≠ 0 ∧ (now.toUInt32 - destroyStamp t).toNat < recentMilliseconds := by
  have hle' := UInt64.le_iff_toNat_le.mp hle
  have hnow : now.toUInt32.toNat = now.toNat % 2 ^ 32 := UInt64.toNat_toUInt32 now
  have ht : t.toUInt32.toNat = t.toNat % 2 ^ 32 := UInt64.toNat_toUInt32 t
  unfold recentMilliseconds at hlt ⊢
  unfold destroyStamp
  split
  · rename_i hz
    have hz' : t.toNat % 2 ^ 32 = 0 := by rw [← ht, hz]; rfl
    have hlt' : t.toNat < now.toNat := by
      refine Nat.lt_of_le_of_ne hle' fun he => ?_
      have he' : t = now := UInt64.toNat_inj.mp he
      exact hne (he' ▸ hz) he'
    refine ⟨by decide, ?_⟩
    rw [UInt32.toNat_sub, hnow, show (1 : UInt32).toNat = 1 from rfl]
    omega
  · rename_i hz
    refine ⟨hz, ?_⟩
    rw [UInt32.toNat_sub, hnow, ht]
    omega

/-- A local client of this port is alive, or a session for it would get a time to be looked at. -/
def State.Soon (s : State) (addr : Sockaddr) (now : UInt64) : Prop :=
  sockaddrIsLoopback addr = true →
    s.kernel.Alive (sockaddrPort addr) ∨ s.checksNew (sockaddrPort addr) now = true

theorem State.Soon.walks (h : s.Soon addr now) (hw : Walks s s') : s'.Soon addr now := by
  intro hl
  refine (h hl).imp (hw.kernel.alive _) fun hc => ?_
  unfold State.checksNew at hc ⊢
  rwa [hw.portDestroyedMs, hw.checkNewSessionsUntilMs]

/-- **The ledger pays**: a datagram of a closed socket that is read in time. -/
theorem Settled.soon (h : Settled now s)
    (hsent : sockaddrIsLoopback addr = true →
      (s.kernel.sockets client).port = some (sockaddrPort addr))
    (htimely : ∀ t, s.handled client = some t → now.toNat < t.toNat + recentMilliseconds)
    (hcalm : sockaddrIsLoopback addr = true → now.toUInt32 = 0 →
      s.stampedAt (sockaddrPort addr) ≠ some now) : s.Soon addr now := by
  intro hl
  cases hst : s.kernel.sockets client with
  | unused =>
      have := hsent hl
      rw [hst] at this
      cases this
  | isOpen p =>
      have := hsent hl
      rw [hst] at this
      cases this
      exact .inl (.inl ⟨client, hst⟩)
  | closed p =>
      have hp := hsent hl
      rw [hst] at hp
      cases hp
      rcases h.ledger.closes client _ hst with hq | ⟨-, hlost⟩ | ⟨t, ht, ⟨-, hf⟩ | ⟨u, hu, hle⟩ | hlong⟩
      · exact .inl (.inr (.inr ⟨client, hq, hst⟩))
      · exact .inl (.inr (.inl hlost))
      · exact hf.elim
      · right
        obtain ⟨hnow, hstamp⟩ := h.ledger.stamps _ u hu
        have hlt := htimely t ht
        have hle' := UInt64.le_iff_toNat_le.mp hle
        have hrec := recent_destroyStamp hnow (by omega) fun hz he => hcalm hl hz (he ▸ hu)
        unfold State.checksNew
        rw [hstamp]
        exact decide_eq_true (.inl hrec)
      · right
        have hlt := htimely t ht
        exact decide_eq_true (.inr (UInt64.lt_iff_toNat_lt.mpr (by omega)))

/-- The new session at the end of the list, and what becomes of it. -/
theorem Settled.register (h : Settled now s) (hsoon : s.Soon addr now)
    (hnow : now + retryMilliseconds ≠ 0)
    (harmed : sockaddrIsLoopback addr = true → s.destroyEventsArmed = true) :
    Settled now ((s.addSession addr).noteNewSession now) := by
  have hcount : ∀ retry : UInt64, (s.sessions ++ [(⟨addr, retry, false⟩ : Session)]).countP
      Session.isLocal = (s.addSession addr).localSessionCount := by
    intro retry
    rw [List.countP_append, h.counted.count]
    show s.localSessionCount + List.countP Session.isLocal [⟨addr, retry, false⟩] =
      if sockaddrIsLoopback addr then s.localSessionCount + 1 else s.localSessionCount
    rw [List.countP_cons, List.countP_nil, Nat.zero_add]
    show s.localSessionCount + (if sockaddrIsLoopback addr = true then 1 else 0) = _
    split <;> rfl
  have hwatch : 0 < (s.addSession addr).localSessionCount → s.destroyEventsArmed = true := by
    intro hpos
    have hpos' : 0 < if sockaddrIsLoopback addr = true then s.localSessionCount + 1
      else s.localSessionCount := hpos
    split at hpos'
    · rename_i hl
      exact harmed hl
    · exact h.counted.watching hpos'
  have hlast : (s.addSession addr).sessions.getLast? = some ⟨addr, 0, false⟩ :=
    List.getLast?_concat
  have hinit : (s.addSession addr).sessions.dropLast = s.sessions := List.dropLast_concat
  unfold State.noteNewSession
  rw [hlast, hinit]
  dsimp only
  split
  · -- a time to be looked at
    have hw := walks_noteRetry s (now + retryMilliseconds)
    refine (h.walks hw rfl).sessions (fun y hy hl => ?_) (hcount _) hwatch
    rcases List.mem_append.mp hy with hy | hy
    · exact (h.safe hy hl).walks hw
    · rw [List.mem_singleton.mp hy]
      exact .inr ⟨hnow, (deadlineNote_le _ _).2⟩
  · rename_i hno
    refine h.sessions (fun y hy hl => ?_) (hcount _) hwatch
    rcases List.mem_append.mp hy with hy | hy
    · exact h.safe hy hl
    · rw [List.mem_singleton.mp hy] at hl ⊢
      refine .inl ((hsoon hl).resolve_right fun hc => hno ⟨hl, hc⟩)

/-- A session that cannot be registered goes again. -/
theorem addSession_drop (s : State) (addr : Sockaddr) :
    (s.addSession addr).drop ((s.addSession addr).sessions.length - 1) = s := by
  have hlen : (s.addSession addr).sessions.length - 1 = s.sessions.length := by
    show (s.sessions ++ [(⟨addr, 0, false⟩ : Session)]).length - 1 = _
    rw [List.length_append, List.length_singleton, Nat.add_sub_cancel]
  have hget : (s.addSession addr).sessions[s.sessions.length]? = some ⟨addr, 0, false⟩ :=
    List.getElem?_concat_length
  have hlist : (s.addSession addr).sessions.eraseIdx s.sessions.length = s.sessions := by
    show (s.sessions ++ [(⟨addr, 0, false⟩ : Session)]).eraseIdx s.sessions.length = _
    rw [List.eraseIdx_append_of_length_le (Nat.le_refl _), Nat.sub_self]
    exact List.append_nil _
  have hcount : (if (⟨addr, 0, false⟩ : Session).isLocal = true then
      (s.addSession addr).localSessionCount - 1
      else (s.addSession addr).localSessionCount) = s.localSessionCount := by
    unfold State.addSession Session.isLocal
    dsimp only
    split <;> rfl
  rw [hlen]
  unfold State.drop
  rw [hget]
  dsimp only
  rw [hlist, hcount]
  rfl

theorem openSession_sat (h : Settled now s) (hsoon : s.Soon addr now)
    (hnow : now + retryMilliseconds ≠ 0)
    (harmed : sockaddrIsLoopback addr = true → s.destroyEventsArmed = true) :
    Prog.Sat calmly (fun s' _ => Settled now s') (openSession addr now s) := by
  refine Prog.Sat.bind (m := fun s' (_ : Bool) => Settled now s' ∧ s'.Soon addr now ∧
      SameArmed s s')
    (sys_sat fun k r hf _ _ _ => ⟨h.walks (walks_kernel hf) rfl, hsoon.walks (walks_kernel hf), rfl⟩)
    fun s₁ (r : Bool) h₁ => ?_
  obtain ⟨h₁, hsoon₁, harm₁⟩ := h₁
  refine Act.sat_ite (fun _ => ?_) fun _ => h₁
  -- the kernel moves on once more before the session is noted
  refine Prog.Sat.bind (p := sys .tries (s₁.addSession addr)) (m := fun s' (_ : Bool) =>
      ∃ s₂, s' = s₂.addSession addr ∧ Settled now s₂ ∧ s₂.Soon addr now ∧ SameArmed s s₂)
    (sys_sat fun k r hf _ _ _ => ?_) fun s₂ (r : Bool) h₂ => ?_
  · exact ⟨{ s₁ with kernel := k }, rfl, h₁.walks (walks_kernel hf) rfl,
      hsoon₁.walks (walks_kernel hf), harm₁⟩
  · obtain ⟨s₂, rfl, h₂, hsoon₂, harm₂⟩ := h₂
    refine Act.sat_ite (fun _ => ?_) fun _ => ?_
    · exact h₂.register hsoon₂ hnow fun hl => harm₂.trans (harmed hl)
    · show Settled now ((s₂.addSession addr).drop ((s₂.addSession addr).sessions.length - 1))
      rw [addSession_drop]
      exact h₂

theorem drop_kernel (s : State) (i : Nat) :
    (s.drop i).kernel = s.kernel ∧ SameArmed s (s.drop i) ∧ (s.drop i).handled = s.handled ∧
      (s.drop i).stampedAt = s.stampedAt := by
  unfold State.drop SameArmed
  split <;> exact ⟨rfl, rfl, rfl, rfl⟩

theorem evict_kernel (s : State) (victims : List Nat) :
    (s.evict victims).kernel = s.kernel ∧ SameArmed s (s.evict victims) := by
  unfold State.evict
  induction victims generalizing s with
  | nil => exact ⟨rfl, rfl⟩
  | cons i rest ih =>
      obtain ⟨hk, ha⟩ := ih (s.drop i)
      obtain ⟨hk', ha', -⟩ := drop_kernel s i
      exact ⟨hk.trans hk', ha.trans ha'⟩

theorem newSession_sat {t : UInt64} (h : Settled t s) (hsent : s.kernel.Sent client addr)
    (harmed : sockaddrIsLoopback addr = true → s.destroyEventsArmed = true) :
    Prog.Sat calmly (fun s' _ => ∃ t, Settled t s') (newSession addr client s) := by
  refine Prog.Sat.bind (m := fun s' (_ : Option (List Nat)) => Settled t s' ∧
      s'.kernel.Sent client addr ∧ SameArmed s s')
    (sys_sat fun k r hf _ _ _ => ⟨h.walks (walks_kernel hf) rfl,
      fun hl => hf.port _ _ (hsent hl), rfl⟩) fun s₁ r h₁ => ?_
  obtain ⟨h₁, hsent₁, harm₁⟩ := h₁
  cases r with
  | none => exact ⟨t, h₁⟩
  | some victims =>
      obtain ⟨hk, ha⟩ := evict_kernel s₁ victims
      have h₂ := h₁.evict victims
      refine Prog.Sat.bind (p := sys (.seen addr client) (s₁.evict victims))
        (m := fun s' (_ : Unit) => Settled s'.kernel.clock s' ∧ s'.Soon addr s'.kernel.clock ∧
          s'.kernel.clock + retryMilliseconds ≠ 0 ∧ SameArmed s s')
        (sys_sat fun k r hf _ htimely hcalm => ?_) fun s₂ _ h₂ => ?_
      · have hw := h₂.walks (walks_kernel hf) rfl
        have h₃ : Settled k.clock { s₁.evict victims with kernel := k } :=
          ⟨hw.counted, hw.ledger.later hw.ledger.clock (UInt64.le_refl _), hw.covered, hw.clear⟩
        refine ⟨h₃, h₃.soon (fun hl => hf.port _ _ ?_) htimely hcalm.2, hcalm.1, ha.trans harm₁⟩
        rw [hk]
        exact hsent₁ hl
      · obtain ⟨h₂, hsoon, hnow, harm₂⟩ := h₂
        exact (openSession_sat h₂ hsoon hnow fun hl => harm₂.trans (harmed hl)).mono
          fun s₃ _ h₃ => ⟨_, h₃⟩

theorem armFor_sat {t : UInt64} (h : Settled t s) (hsent : s.kernel.Sent client addr) :
    Prog.Sat calmly (fun s' _ => (∃ t, Settled t s') ∧ s'.kernel.Sent client addr ∧
      (sockaddrIsLoopback addr = true → s'.destroyEventsArmed = true)) (armFor addr s) := by
  refine Act.sat_ite (fun _ => ?_) fun hno => ⟨⟨t, h⟩, hsent, fun hl => ?_⟩
  · refine Prog.Sat.bind (m := fun s' now => Settled now s' ∧ now + retryMilliseconds ≠ 0 ∧
      s'.kernel.Sent client addr) (nowMs_sat h fun s' h' hw hcalm => ⟨h', hcalm, fun hl => ?_⟩) ?_
    · exact hw.kernel.port _ _ (hsent hl)
    · rintro s₁ now ⟨h₁, hnow, hsent₁⟩
      refine (releaseArm_sat hnow h₁).mono fun s₂ _ h₂ => ⟨⟨now, h₂.1⟩, fun hl => ?_, fun _ => h₂.2.1⟩
      exact h₂.2.2 _ _ (hsent₁ hl)
  · simpa using fun ha => hno ⟨hl, ha⟩

/-- **`bpf2socks_udp_session_get`**. -/
theorem sessionGet_sat {t : UInt64} (h : Settled t s) (hsent : s.kernel.Sent client addr) :
    Prog.Sat calmly (fun s' _ => ∃ t, Settled t s') (sessionGet addr client s) := by
  simp only [sessionGet, Act.bind_run, Act.get_run, Prog.ret_bind]
  cases s.sessions.findIdx? (fun x : Session => sameSockaddr x.clientAddr addr) with
  | some i => exact ⟨t, h.touch i⟩
  | none =>
      refine (armFor_sat h hsent).bind fun s₁ _ h₁ => ?_
      obtain ⟨⟨t₁, h₁⟩, hsent₁, harmed⟩ := h₁
      exact newSession_sat h₁ hsent₁ harmed

/-! ## Runs -/

theorem Step.settled {t : UInt64} (h : Step calmly s s') (hs : Settled t s) :
    ∃ t, Settled t s' := by
  cases h with
  | kernel h => exact ⟨t, hs.walks (walks_kernel h.follows) rfl⟩
  | drop i => exact ⟨t, hs.drop i⟩
  | deliver i draining => exact ⟨t, hs.deliver i draining⟩
  | read sent h => exact (sessionGet_sat hs sent).out h
  | event h => exact (destroyEvent_sat hs).out h
  | retry h => exact (retryTurn_sat hs).out h
  | disarm h => exact ⟨t, (releaseDisarmIfIdle_sat hs).out h⟩

theorem Fresh.settled (h : Fresh s) : Settled s.kernel.clock s := by
  refine ⟨⟨h.armed.trans h.watched.symm, ?_, fun _ => h.armed⟩, ⟨UInt64.le_refl _, fun p t ht => ?_,
    fun i t ht => ?_, fun i hi => ?_, fun i p hc => ?_⟩, fun x hx => ?_, h.releasedPorts⟩
  · rw [h.sessions, h.localSessionCount]
    rfl
  · exact nomatch (h.stampedAt p).symm.trans ht
  · exact nomatch (h.handled i).symm.trans ht
  · rw [h.queue] at hi
    exact absurd hi List.not_mem_nil
  · exact absurd hc (h.sockets i p)
  · rw [h.sessions] at hx
    exact absurd hx List.not_mem_nil

theorem Reach.settled (h : Reach calmly s) : ∃ t, Settled t s := by
  induction h with
  | initial h => exact ⟨_, h.settled⟩
  | step _ h ih =>
      obtain ⟨t, ih⟩ := ih
      exact h.settled ih

theorem Settled.noMissedClose (h : Settled now s) : NoMissedClose s := by
  intro x hx hl hheld
  rcases h.safe hx hl with (hh | ht) | hr
  · exact absurd hh hheld
  · refine .inl ⟨?_, ht⟩
    rw [← h.counted.armed]
    refine h.counted.watching ?_
    rw [← h.counted.count]
    exact List.countP_pos_iff.mpr ⟨x, hx, hl⟩
  · exact .inr hr

/-- **In a calm run no close is missed.** -/
theorem noMissedClose_reach (h : Reach calmly s) : NoMissedClose s := by
  obtain ⟨t, hs⟩ := h.settled
  exact hs.noMissedClose

/-! ### A datagram of a closed socket -/

/-- 127.0.0.1, port 5353. -/
def resolver : Sockaddr := ⟨.inet, [0x14, 0xe9, 127, 0, 0, 1, 0, 0, 0, 0, 0, 0, 0, 0]⟩

/-- A worker begins at this time. -/
def begin (c : UInt64) : State where
  kernel := ⟨fun _ => .unused, [], false, c, true⟩
  sessions := []
  localSessionCount := 0
  releasedPorts _ := false
  portDestroyedMs _ := 0
  checkNewSessionsUntilMs := 0
  releaseRetryDueMs := noDeadline
  destroyEventsArmed := true
  handled _ := none
  stampedAt _ := none

/-- A socket has come and gone. -/
def closedKernel (c : UInt64) : Kernel :=
  ⟨update (update (fun _ => .unused) 0 (.isOpen 5353)) 0 (.closed 5353), [0], false, c, true⟩

/-- Its notification is handled. -/
def stamped (c : UInt64) : State :=
  let s := ({ begin c with kernel := closedKernel c }).readNotifications c 1
  { s.noteDestroyed c [5353] false with sessions := [], releasedPorts := fun _ => false }

/-- A datagram of the socket is read. -/
def reopened (c : UInt64) : State := ((stamped c).addSession resolver).noteNewSession c

theorem reach_reopened {c : UInt64} {P : Prop} {ok : (s : State) → (q : Call) → Answer q → Prop}
    (hc : c ≠ 0)
    (hok : ∀ s q r, admissible s q r → (P → Calm s r.1 q r.2) → ok s q r)
    (hadd : P → c + retryMilliseconds ≠ 0) (hlow : P → c.toUInt32 ≠ 0) : Reach ok (reopened c) := by
  have hbegin : Reach ok (begin c) :=
    .initial ⟨rfl, rfl, rfl, rfl, rfl, rfl, rfl, rfl, fun _ _ h => (nomatch h), rfl, hc,
      fun _ => rfl, fun _ => rfl⟩
  have hclosed : Reach ok { begin c with kernel := closedKernel c } := by
    refine hbegin.step (.kernel (.tail (.single (.opens 0 5353 rfl)) ?_))
    exact .closes 0 5353 rfl
  have hstamped : Reach ok (stamped c) := by
    refine hclosed.step (.event ?_)
    refine .ask (closedKernel c, ()) (hok _ _ _ ⟨.refl, trivial, trivial⟩ hadd) ?_
    refine .ask (closedKernel c, (1 : Nat)) (hok _ _ _ ⟨.refl, trivial, trivial⟩ fun _ => trivial) ?_
    refine .ask (closedKernel c, some (1 : Nat))
      (hok _ _ _ ⟨.refl, fun h => (nomatch h), trivial⟩ fun _ h => (nomatch h)) ?_
    exact .ret _ _
  have hseen : ∀ t, (stamped c).handled 0 = some t → c.toNat < t.toNat + recentMilliseconds := by
    rintro t ⟨⟩
    exact Nat.lt_add_of_pos_right (by decide)
  have hsent : (stamped c).kernel.Sent 0 resolver := fun _ => rfl
  refine hstamped.step (.read hsent ?_)
  refine .ask ((stamped c).kernel, some ([] : List Nat))
    (hok _ _ _ ⟨.refl, trivial, trivial⟩ fun _ => trivial) ?_
  refine .ask ((stamped c).kernel, ()) (hok _ _ _ ⟨.refl, trivial, hseen⟩ fun hp => ⟨hadd hp, ?_⟩) ?_
  · exact fun _ hz => absurd hz (hlow hp)
  · refine .ask ((stamped c).kernel, true) (hok _ _ _ ⟨.refl, trivial, trivial⟩ fun _ => trivial) ?_
    refine .ask ((stamped c).kernel, true) (hok _ _ _ ⟨.refl, trivial, trivial⟩ fun _ => trivial) ?_
    exact .ret _ _

theorem reopened_alone (c : UInt64) (port : UInt16) :
    ¬ (reopened c).kernel.Holds port ∧ ¬ (reopened c).kernel.Told port := by
  have hk : (reopened c).kernel.sockets = (closedKernel c).sockets ∧
      (reopened c).kernel.queue = [] ∧ (reopened c).kernel.lost = false := by
    unfold reopened State.noteNewSession
    split
    · exact ⟨rfl, rfl, rfl⟩
    · split <;> exact ⟨rfl, rfl, rfl⟩
  obtain ⟨hs, hq, hl⟩ := hk
  refine ⟨fun ⟨i, hi⟩ => ?_, ?_⟩
  · rw [hs] at hi
    by_cases he : i = 0
    · subst he
      cases hi
    · have hi' : update (update (fun _ => Status.unused) 0 (.isOpen 5353)) 0 (.closed 5353) i =
        Status.isOpen port := hi
      rw [update_of_ne he, update_of_ne he] at hi'
      cases hi'
  · rintro (h | ⟨i, hi, -⟩)
    · exact nomatch hl.symm.trans h
    · rw [hq] at hi
      exact absurd hi List.not_mem_nil

/-- A second after the worker began, the new session gets a time to be looked at. -/
theorem reopened_noMissedClose :
    ∃ x ∈ (reopened 1000).sessions, x.isLocal = true ∧ ¬ (reopened 1000).kernel.Holds x.port ∧
      x.releaseRetryMs ≠ 0 ∧ (reopened 1000).releaseRetryDueMs ≤ x.releaseRetryMs := by
  have hreach : Reach calmly (reopened 1000) :=
    reach_reopened (P := True) (by decide) (fun _ _ _ h hc => ⟨h, hc trivial⟩) (fun _ => by decide)
      fun _ => by decide
  have hmem : ∃ x ∈ (reopened 1000).sessions, x.isLocal = true :=
    ⟨⟨resolver, 1100, false⟩, List.mem_singleton_self _, rfl⟩
  obtain ⟨x, hx, hl⟩ := hmem
  obtain ⟨hheld, htold⟩ := reopened_alone 1000 x.port
  refine ⟨x, hx, hl, hheld, ?_⟩
  exact (noMissedClose_reach hreach x hx hl hheld).resolve_left fun h => htold h.2

/-- **A close is missed** in the millisecond whose low 32 bits are zero: its stamp is that of the next
millisecond, and the new session is not recent. -/
theorem close_missed : ¬ ∀ s, Reach admissible s → NoMissedClose s := by
  intro h
  have hreach : Reach admissible (reopened 0x100000000) :=
    reach_reopened (P := False) (by decide) (fun _ _ _ h _ => h) False.elim False.elim
  obtain ⟨hheld, htold⟩ := reopened_alone 0x100000000 5353
  have hx : (⟨resolver, 0, false⟩ : Session) ∈ (reopened 0x100000000).sessions :=
    List.mem_singleton_self _
  rcases h _ hreach _ hx rfl hheld with ⟨-, ht⟩ | ⟨hne, -⟩
  · exact htold ht
  · exact hne rfl

end Bpf2Socks.Release

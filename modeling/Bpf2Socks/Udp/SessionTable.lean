/-
# Bpf2Socks.Udp.SessionTable — the representation invariant of the session table.

Five structures hold the sessions: the free list, the hash buckets, the LRU, the handshake list
and two counters.  `SessTable.Inv` says how they fit together.  While a session is opened or
dropped its slot is in none of them; that slot is the *hole* of the invariant, and the table is
whole when there is no hole.

Every operation on the table gets one lemma here.  They know nothing of the code around them.
-/
import Bpf2Socks.Udp.Quiet

namespace Bpf2Socks.Udp

open Function (update update_self update_of_ne)
open Lib (DLists)

/-- A field that an update of one record leaves alone. -/
theorem update_field {α β : Type} {c : Nat → α} {k : Nat} {a : α} {π : α → β} (h : π a = π (c k))
    (j : Nat) : π (update c k a j) = π (c j) := by
  rcases eq_or_ne j k with rfl | hj
  · rw [update_self, h]
  · rw [update_of_ne hj]

/-- How the structures of a session table fit together: `lru` and `hs` are what the LRU and the
handshake list hold, `hole` is the slot that is in none of them. -/
structure SessTable.Inv (t : SessTable) (hole : Option Nat) (lru hs : List Nat) : Prop where
  lruRep : t.lru.Rep fun _ => lru
  hsRep : t.handshake.Rep fun _ => hs
  free_nodup : t.free.Nodup
  mem_free : ∀ {k}, k ∈ t.free ↔ k < t.cap ∧ (t.core k).used = false ∧ hole ≠ some k
  mem_lru : ∀ {k}, k ∈ lru ↔ (t.core k).used = true ∧ hole ≠ some k
  used_lt : ∀ {k}, (t.core k).used = true → k < t.cap
  hole_lt : ∀ {k}, hole = some k → k < t.cap
  bucket_nodup : ∀ i, (t.buckets i).Nodup
  mem_bucket : ∀ {i k}, k ∈ t.buckets i ↔
    k ∈ lru ∧ i = sessionBucket (t.core k).clientAddr
  keys : ∀ {k k'}, k ∈ lru → k' ∈ lru →
    sameSockaddr (t.core k).clientAddr (t.core k').clientAddr = true → k = k'
  mem_hs : ∀ {k}, k ∈ hs ↔ k ∈ lru ∧ (t.core k).stage ≠ .ready
  linked : ∀ {k}, (t.core k).handshakeLinked = true ↔ k ∈ hs
  count_eq : t.count = lru.length
  local_eq : t.localCount = lru.countP fun k => sockaddrIsLoopback (t.core k).clientAddr

namespace SessTable.Inv

variable {t : SessTable} {hole : Option Nat} {lru hs : List Nat} {k : Nat}

theorem lru_nodup (h : t.Inv hole lru hs) : lru.Nodup := h.lruRep.nodup ()

theorem hs_nodup (h : t.Inv hole lru hs) : hs.Nodup := h.hsRep.nodup ()

theorem hole_not_mem (h : t.Inv (some k) lru hs) : k ∉ lru := fun hk => (h.mem_lru.mp hk).2 rfl

theorem hole_not_mem_hs (h : t.Inv (some k) lru hs) : k ∉ hs := fun hk =>
  h.hole_not_mem (h.mem_hs.mp hk).1

/-- Records that keep key and use, with a handshake list to match. -/
theorem congr_hs (h : t.Inv hole lru hs) {core : Nat → SessCore} {d : DLists Unit Nat}
    {hs' : List Nat} (hused : ∀ k, (core k).used = (t.core k).used)
    (haddr : ∀ k, (core k).clientAddr = (t.core k).clientAddr) (hrep : d.Rep fun _ => hs')
    (hmem : ∀ k, k ∈ hs' ↔ k ∈ lru ∧ (core k).stage ≠ .ready)
    (hlinked : ∀ k, (core k).handshakeLinked = true ↔ k ∈ hs') :
    SessTable.Inv { t with core := core, handshake := d } hole lru hs' := by
  refine ⟨h.lruRep, hrep, h.free_nodup, ?_, ?_, ?_, h.hole_lt, h.bucket_nodup, ?_, ?_, @hmem,
    @hlinked, h.count_eq, ?_⟩
  · intro k
    simp only [hused]
    exact h.mem_free
  · intro k
    simp only [hused]
    exact h.mem_lru
  · intro k
    simp only [hused]
    exact h.used_lt
  · intro i k
    simp only [haddr]
    exact h.mem_bucket
  · intro k k'
    simp only [haddr]
    exact h.keys
  · simp only [haddr]
    exact h.local_eq

/-- The invariant reads four fields of a record. -/
theorem congr_core (h : t.Inv hole lru hs) {core : Nat → SessCore}
    (hused : ∀ k, (core k).used = (t.core k).used)
    (haddr : ∀ k, (core k).clientAddr = (t.core k).clientAddr)
    (hstage : ∀ k, (core k).stage = .ready ↔ (t.core k).stage = .ready)
    (hlinked : ∀ k, (core k).handshakeLinked = (t.core k).handshakeLinked) :
    SessTable.Inv { t with core := core } hole lru hs := by
  refine h.congr_hs hused haddr h.hsRep (fun k => ?_) fun k => ?_
  · rw [ne_eq, hstage]
    exact h.mem_hs
  · rw [hlinked]
    exact h.linked

/-- Reordering the LRU. -/
theorem reorder (h : t.Inv hole lru hs) {d : DLists Unit Nat} {lru' : List Nat}
    (hrep : d.Rep fun _ => lru') (hp : lru'.Perm lru) :
    SessTable.Inv { t with lru := d } hole lru' hs := by
  refine ⟨hrep, h.hsRep, h.free_nodup, h.mem_free, ?_, h.used_lt, h.hole_lt, h.bucket_nodup, ?_,
    ?_, ?_, h.linked, ?_, ?_⟩
  · intro k
    rw [hp.mem_iff]
    exact h.mem_lru
  · intro i k
    rw [hp.mem_iff]
    exact h.mem_bucket
  · intro k k'
    rw [hp.mem_iff, hp.mem_iff]
    exact h.keys
  · intro k
    rw [hp.mem_iff]
    exact h.mem_hs
  · rw [hp.length_eq]
    exact h.count_eq
  · rw [hp.countP_eq]
    exact h.local_eq

theorem lruTouch (h : t.Inv hole lru hs) (hk : k ∈ lru) :
    ∃ lru', (t.lruTouch k).Inv hole lru' hs ∧ lru'.Perm lru := by
  unfold SessTable.lruTouch
  split
  · exact ⟨lru, h, .refl _⟩
  · have hp : (lru.erase k ++ [k]).Perm lru :=
      (List.perm_append_singleton k _).trans (List.perm_cons_erase hk).symm
    exact ⟨_, h.reorder (h.lruRep.moveToTail hk) hp, hp⟩

/-- Within the hole, a record may change at will as long as it is not linked. -/
theorem set_hole (h : t.Inv (some k) lru hs) {c : SessCore} (hc : c.handshakeLinked = false) :
    SessTable.Inv { t with core := update t.core k c } (some k) lru hs := by
  have hne : ∀ {j}, j ∈ lru → update t.core k c j = t.core j := fun hj =>
    update_of_ne (by rintro rfl; exact h.hole_not_mem hj) _ _
  have hcase : ∀ j, j = k ∨ update t.core k c j = t.core j := fun j =>
    (eq_or_ne j k).imp id fun hj => update_of_ne hj _ _
  refine ⟨h.lruRep, h.hsRep, h.free_nodup, ?_, ?_, ?_, h.hole_lt, h.bucket_nodup, ?_, ?_, ?_, ?_,
    h.count_eq, ?_⟩
  · intro j
    rcases hcase j with rfl | hj
    · simpa using fun hm => (h.mem_free.mp hm).2.2 rfl
    · simp only [hj]
      exact h.mem_free
  · intro j
    rcases hcase j with rfl | hj
    · simpa using h.hole_not_mem
    · simp only [hj]
      exact h.mem_lru
  · intro j
    rcases hcase j with rfl | hj
    · exact fun _ => h.hole_lt rfl
    · simp only [hj]
      exact h.used_lt
  · intro i j
    constructor
    · intro hm
      obtain ⟨hj, hi⟩ := h.mem_bucket.mp hm
      exact ⟨hj, by simpa only [hne hj] using hi⟩
    · rintro ⟨hj, hi⟩
      simp only [hne hj] at hi
      exact h.mem_bucket.mpr ⟨hj, hi⟩
  · intro j j' hj hj'
    simp only [hne hj, hne hj']
    exact h.keys hj hj'
  · intro j
    constructor
    · intro hm
      obtain ⟨hj, hs'⟩ := h.mem_hs.mp hm
      exact ⟨hj, by simpa only [hne hj] using hs'⟩
    · rintro ⟨hj, hs'⟩
      simp only [hne hj] at hs'
      exact h.mem_hs.mpr ⟨hj, hs'⟩
  · intro j
    rcases hcase j with rfl | hj
    · simpa [hc] using h.hole_not_mem_hs
    · simp only [hj]
      exact h.linked
  · rw [h.local_eq]
    exact List.countP_congr fun j hj => by simp only [hne hj]

/-- Zeroing the links of the hole. -/
theorem clear_links (h : t.Inv (some k) lru hs) :
    SessTable.Inv { t with lru := t.lru.clearNode k, handshake := t.handshake.clearNode k }
      (some k) lru hs :=
  { h with
    lruRep := h.lruRep.clearNode fun _ => h.hole_not_mem
    hsRep := h.hsRep.clearNode fun _ => h.hole_not_mem_hs }

/-- Taking the first free slot. -/
theorem pop (h : t.Inv none lru hs) {rest : List Nat} (hf : t.free = k :: rest) :
    SessTable.Inv { t with free := rest } (some k) lru hs ∧ (t.core k).used = false := by
  have hk := h.mem_free.mp (by rw [hf]; exact List.mem_cons_self)
  have hnd : k ∉ rest ∧ rest.Nodup := List.nodup_cons.mp (hf ▸ h.free_nodup)
  have hkl : k ∉ lru := fun hm => by simp [(h.mem_lru.mp hm).1] at hk
  refine ⟨⟨h.lruRep, h.hsRep, hnd.2, ?_, ?_, h.used_lt, ?_, h.bucket_nodup, h.mem_bucket, h.keys,
    h.mem_hs, h.linked, h.count_eq, h.local_eq⟩, hk.2.1⟩
  · intro j
    constructor
    · intro hj
      have := h.mem_free.mp (hf ▸ List.mem_cons_of_mem k hj)
      exact ⟨this.1, this.2.1, by rintro ⟨⟩; exact hnd.1 hj⟩
    · rintro ⟨hlt, hu, hne⟩
      have := h.mem_free.mpr ⟨hlt, hu, by simp⟩
      rw [hf] at this
      rcases List.mem_cons.mp this with rfl | hj
      · exact absurd rfl hne
      · exact hj
  · intro j
    constructor
    · exact fun hj => ⟨(h.mem_lru.mp hj).1, by rintro ⟨⟩; exact hkl hj⟩
    · exact fun hj => h.mem_lru.mpr ⟨hj.1, by simp⟩
  · rintro j ⟨⟩
    exact hk.1

/-- Putting the hole on the free list. -/
theorem pushFree (h : t.Inv (some k) lru hs) (hu : (t.core k).used = false) :
    (t.pushFree k).Inv none lru hs := by
  have hkf : k ∉ t.free := fun hm => (h.mem_free.mp hm).2.2 rfl
  refine ⟨h.lruRep, h.hsRep, List.nodup_cons.mpr ⟨hkf, h.free_nodup⟩, ?_, ?_, h.used_lt, ?_,
    h.bucket_nodup, h.mem_bucket, h.keys, h.mem_hs, h.linked, h.count_eq, h.local_eq⟩
  · intro j
    constructor
    · intro hj
      rcases List.mem_cons.mp hj with rfl | hj
      · exact ⟨h.hole_lt rfl, hu, by simp⟩
      · have := h.mem_free.mp hj
        exact ⟨this.1, this.2.1, by simp⟩
    · rintro ⟨hlt, huj, -⟩
      rcases eq_or_ne j k with rfl | hne
      · exact List.mem_cons_self
      · exact List.mem_cons_of_mem k (h.mem_free.mpr ⟨hlt, huj, fun e => hne (by simpa using e.symm)⟩)
  · intro j
    constructor
    · exact fun hj => ⟨(h.mem_lru.mp hj).1, by simp⟩
    · rintro ⟨huj, -⟩
      refine h.mem_lru.mpr ⟨huj, ?_⟩
      rintro ⟨⟩
      exact absurd huj (by simp [SessTable.pushFree, hu])
  · simp

/-! ### The handshake list -/

/-- Unlinking from the handshake list, whether or not there is anything to unlink. -/
theorem handshakeRemove_rep (h : t.Inv hole lru hs) (k : Nat) :
    ∃ d : DLists Unit Nat, (d.Rep fun _ => hs.erase k) ∧
      t.handshakeRemove k =
        { t with core := update t.core k { t.core k with handshakeLinked := false }
                 handshake := d } := by
  unfold SessTable.handshakeRemove
  split
  · rename_i hl
    exact ⟨_, h.hsRep.removeOne (h.linked.mp hl), rfl⟩
  · rename_i hl
    have hk : k ∉ hs := fun hk => hl (h.linked.mpr hk)
    have hc : { t.core k with handshakeLinked := false } = t.core k := by
      rw [← Bool.eq_false_iff.mpr hl]
    refine ⟨t.handshake, ?_, ?_⟩
    · rw [List.erase_of_not_mem hk]
      exact h.hsRep
    · rw [hc, Function.update_eq_self]

/-- A stage change that does not complete the association. -/
theorem setStage (h : t.Inv hole lru hs) {stage : Stage} (hk : (t.core k).stage ≠ .ready)
    (hst : stage ≠ .ready) :
    SessTable.Inv { t with core := update t.core k { t.core k with stage } } hole lru hs := by
  refine h.congr_core (update_field rfl) (update_field rfl) (fun j => ?_) (update_field rfl)
  rcases eq_or_ne j k with rfl | hj
  · simp [hk, hst]
  · rw [update_of_ne hj]

/-- Starting the handshake again moves the session to the end of the list. -/
theorem restart (h : t.Inv hole lru hs) (hk : k ∈ hs) (now : Nat) :
    ((t.handshakeRemove k).handshakeAddTail k now).Inv hole lru (hs.erase k ++ [k]) := by
  obtain ⟨d, hd, heq⟩ := h.handshakeRemove_rep k
  have hp : (hs.erase k ++ [k]).Perm hs :=
    (List.perm_append_singleton k _).trans (List.perm_cons_erase hk).symm
  have hrep : (d.addTail () k).Rep fun _ => hs.erase k ++ [k] :=
    hd.addOne fun hm => h.hs_nodup.not_mem_erase hm
  rw [heq]
  simp only [SessTable.handshakeAddTail, update_self, Function.update_idem]
  refine h.congr_hs (update_field rfl) (update_field rfl) hrep (fun j => ?_) fun j => ?_
  · rw [hp.mem_iff, h.mem_hs]
    rcases eq_or_ne j k with rfl | hj
    · simp
    · simp [hj]
  · rw [hp.mem_iff]
    rcases eq_or_ne j k with rfl | hj
    · simp [hk]
    · rw [update_of_ne hj]
      exact h.linked

/-- Completing the association takes the session off the list. -/
theorem setReady (h : t.Inv hole lru hs) (k : Nat) :
    (SessTable.handshakeRemove
      { t with core := update t.core k { t.core k with stage := .ready } } k).Inv
      hole lru (hs.erase k) := by
  have hmem : ∀ {j}, j ∈ hs.erase k ↔ j ≠ k ∧ j ∈ hs := h.hs_nodup.mem_erase_iff
  unfold SessTable.handshakeRemove
  simp only [update_self, Function.update_idem]
  split
  · rename_i hl
    refine h.congr_hs (update_field rfl) (update_field rfl) (h.hsRep.removeOne (h.linked.mp hl))
      (fun j => ?_) fun j => ?_ <;> rw [hmem] <;> rcases eq_or_ne j k with rfl | hj
    · simp
    · simp [hj, h.mem_hs]
    · simp
    · simp [hj, h.linked]
  · rename_i hl
    have hk : k ∉ hs := fun hk => hl (h.linked.mpr hk)
    rw [List.erase_of_not_mem hk]
    refine h.congr_hs (update_field rfl) (update_field rfl) h.hsRep (fun j => ?_) fun j => ?_ <;>
      rcases eq_or_ne j k with rfl | hj
    · simp [hk]
    · simp [hj, h.mem_hs]
    · simpa [hk] using hl
    · simp [hj, h.linked]

/-! ### Leaving and entering the table -/

/-- Taking a session out of every structure makes its slot the hole. -/
theorem leave (h : t.Inv none lru hs) (hk : k ∈ lru) (core : Nat → SessCore)
    {d : DLists Unit Nat} (hused : ∀ j, (core j).used = (t.core j).used)
    (haddr : ∀ j, (core j).clientAddr = (t.core j).clientAddr)
    (hstage : ∀ j, (core j).stage = (t.core j).stage)
    (hlinked : ∀ j, (core j).handshakeLinked = true ↔ j ∈ hs.erase k)
    (hd : d.Rep fun _ => hs.erase k) :
    SessTable.Inv
      { t with
        core := core
        buckets := update t.buckets (sessionBucket (t.core k).clientAddr)
          ((t.buckets (sessionBucket (t.core k).clientAddr)).erase k)
        lru := t.lru.remove () k
        handshake := d
        count := t.count - 1
        localCount := if sockaddrIsLoopback (t.core k).clientAddr then t.localCount - 1
          else t.localCount } (some k) (lru.erase k) (hs.erase k) := by
  have hmem : ∀ {j}, j ∈ lru.erase k ↔ j ≠ k ∧ j ∈ lru := h.lru_nodup.mem_erase_iff
  have hmem' : ∀ {j}, j ∈ hs.erase k ↔ j ≠ k ∧ j ∈ hs := h.hs_nodup.mem_erase_iff
  have hku := (h.mem_lru.mp hk).1
  refine ⟨h.lruRep.removeOne hk, hd, h.free_nodup, ?_, ?_, ?_, ?_, ?_, ?_, ?_, ?_, @hlinked, ?_, ?_⟩
  · intro j
    simp only [hused]
    rw [h.mem_free]
    refine and_congr_right fun _ => and_congr_right fun hu => ⟨fun _ e => ?_, fun _ => by simp⟩
    cases e
    simp [hku] at hu
  · intro j
    simp only [hused]
    rw [hmem, h.mem_lru]
    constructor
    · exact fun ⟨hne, hu, _⟩ => ⟨hu, fun e => hne (Option.some.inj e).symm⟩
    · exact fun ⟨hu, hne⟩ => ⟨fun e => hne (congrArg some e.symm), hu, by simp⟩
  · intro j
    simp only [hused]
    exact h.used_lt
  · rintro j ⟨⟩
    exact h.used_lt hku
  · intro i
    rcases eq_or_ne i (sessionBucket (t.core k).clientAddr) with rfl | hi
    · simp only [update_self]
      exact (h.bucket_nodup _).erase k
    · simp only [update_of_ne hi]
      exact h.bucket_nodup i
  · intro i j
    simp only [haddr]
    rw [hmem]
    rcases eq_or_ne i (sessionBucket (t.core k).clientAddr) with rfl | hi
    · rw [update_self, (h.bucket_nodup _).mem_erase_iff, h.mem_bucket, and_assoc]
    · rw [update_of_ne hi, h.mem_bucket]
      -- another bucket never held the session
      refine ⟨fun ⟨hj, hi'⟩ => ⟨⟨?_, hj⟩, hi'⟩, fun ⟨hj, hi'⟩ => ⟨hj.2, hi'⟩⟩
      rintro rfl
      exact hi hi'
  · intro j j' hj hj'
    simp only [haddr]
    exact h.keys (hmem.mp hj).2 (hmem.mp hj').2
  · intro j
    simp only [hstage]
    rw [hmem, hmem', h.mem_hs, and_assoc]
  · simp only [List.length_erase_of_mem hk, h.count_eq]
  -- the list is a permutation of the session and the rest, so the count loses its share
  · have := (List.perm_cons_erase hk).countP_eq fun j => sockaddrIsLoopback (t.core j).clientAddr
    rw [← h.local_eq, List.countP_cons] at this
    simp only [haddr, this]
    split <;> omega

theorem detach (h : t.Inv none lru hs) (hk : k ∈ lru) :
    SessTable.Inv { t.detach k with count := t.count - 1 } (some k) (lru.erase k) (hs.erase k) := by
  have hlinked : ∀ j, (update t.core k { t.core k with handshakeLinked := false } j).handshakeLinked
      = true ↔ j ∈ hs.erase k := by
    intro j
    rw [h.hs_nodup.mem_erase_iff]
    rcases eq_or_ne j k with rfl | hj
    · simp
    · simp [hj, h.linked]
  unfold SessTable.detach SessTable.handshakeRemove
  by_cases hl : (t.core k).handshakeLinked = true
  · have := h.leave hk (update t.core k { t.core k with handshakeLinked := false })
      (update_field rfl) (update_field rfl) (update_field rfl) hlinked
      (h.hsRep.removeOne (h.linked.mp hl))
    by_cases ha : sockaddrIsLoopback (t.core k).clientAddr = true <;>
      simpa only [hl, ha, if_true, if_false, Bool.false_eq_true] using this
  · have hk' : k ∉ hs := fun hm => hl (h.linked.mpr hm)
    have hrep : t.handshake.Rep fun _ => hs.erase k := by
      rw [List.erase_of_not_mem hk']
      exact h.hsRep
    have := h.leave hk t.core (fun _ => rfl) (fun _ => rfl) (fun _ => rfl)
      (fun j => by rw [List.erase_of_not_mem hk']; exact h.linked) hrep
    by_cases ha : sockaddrIsLoopback (t.core k).clientAddr = true <;>
      simpa only [hl, ha, if_true, if_false, Bool.false_eq_true] using this

/-- Linking an opened session in fills the hole. -/
theorem enter (h : t.Inv (some k) lru hs) (hu : (t.core k).used = true)
    (hst : (t.core k).stage ≠ .ready)
    (hkey : ∀ j ∈ lru, sameSockaddr (t.core j).clientAddr (t.core k).clientAddr = false)
    {core : Nat → SessCore} (hused : ∀ j, (core j).used = (t.core j).used)
    (haddr : ∀ j, (core j).clientAddr = (t.core j).clientAddr)
    (hstage : ∀ j, (core j).stage = (t.core j).stage)
    (hlinked : ∀ j, (core j).handshakeLinked = true ↔ j ∈ hs ++ [k]) :
    SessTable.Inv
      { t with
        core := core
        buckets := update t.buckets (sessionBucket (t.core k).clientAddr)
          (k :: t.buckets (sessionBucket (t.core k).clientAddr))
        lru := t.lru.addTail () k
        handshake := t.handshake.addTail () k
        count := t.count + 1
        localCount := if sockaddrIsLoopback (t.core k).clientAddr then t.localCount + 1
          else t.localCount } none (lru ++ [k]) (hs ++ [k]) := by
  have hmem : ∀ {l : List Nat} {j}, j ∈ l ++ [k] ↔ j ∈ l ∨ j = k := by simp
  refine ⟨h.lruRep.addOne h.hole_not_mem, h.hsRep.addOne h.hole_not_mem_hs, h.free_nodup, ?_, ?_,
    ?_, by simp, ?_, ?_, ?_, ?_, @hlinked, ?_, ?_⟩
  · intro j
    simp only [hused]
    rw [h.mem_free]
    refine and_congr_right fun _ => and_congr_right fun huj => ⟨fun _ => by simp, fun _ e => ?_⟩
    cases e
    simp [hu] at huj
  · intro j
    simp only [hused]
    rw [hmem, h.mem_lru]
    constructor
    · rintro (hj | rfl)
      · exact ⟨hj.1, by simp⟩
      · exact ⟨hu, by simp⟩
    · rintro ⟨huj, -⟩
      rcases eq_or_ne j k with rfl | hj
      · exact Or.inr rfl
      · exact Or.inl ⟨huj, fun e => hj (Option.some.inj e).symm⟩
  · intro j
    simp only [hused]
    exact h.used_lt
  · intro i
    rcases eq_or_ne i (sessionBucket (t.core k).clientAddr) with rfl | hi
    · simp only [update_self]
      exact List.nodup_cons.mpr ⟨fun hm => h.hole_not_mem (h.mem_bucket.mp hm).1, h.bucket_nodup _⟩
    · simp only [update_of_ne hi]
      exact h.bucket_nodup i
  · intro i j
    simp only [haddr]
    rw [hmem]
    rcases eq_or_ne i (sessionBucket (t.core k).clientAddr) with rfl | hi
    · rw [update_self, List.mem_cons, h.mem_bucket]
      constructor
      · rintro (rfl | hj)
        · exact ⟨Or.inr rfl, rfl⟩
        · exact ⟨Or.inl hj.1, hj.2⟩
      · rintro ⟨hj | rfl, hi⟩
        · exact Or.inr ⟨hj, hi⟩
        · exact Or.inl rfl
    · rw [update_of_ne hi, h.mem_bucket]
      refine ⟨fun ⟨hj, hi'⟩ => ⟨Or.inl hj, hi'⟩, ?_⟩
      rintro ⟨hj | rfl, hi'⟩
      · exact ⟨hj, hi'⟩
      · exact absurd hi' hi
  -- no session there has the new one's address
  · intro j j' hj hj'
    simp only [haddr]
    intro hsame
    rcases hmem.mp hj with hjl | rfl <;> rcases hmem.mp hj' with hjl' | rfl
    · exact h.keys hjl hjl' hsame
    · exact absurd hsame (by simp [hkey j hjl])
    · exact absurd (sameSockaddr_symm hsame) (by simp [hkey j' hjl'])
    · rfl
  · intro j
    simp only [hstage]
    rw [hmem, hmem, h.mem_hs]
    constructor
    · rintro (hj | rfl)
      · exact ⟨Or.inl hj.1, hj.2⟩
      · exact ⟨Or.inr rfl, hst⟩
    · rintro ⟨hj | rfl, hs'⟩
      · exact Or.inl ⟨hj, hs'⟩
      · exact Or.inr rfl
  · simp [h.count_eq]
  · simp only [haddr, List.countP_append, h.local_eq]
    split <;> rename_i ha <;> simp [ha]

theorem attach (h : t.Inv (some k) lru hs) (hu : (t.core k).used = true)
    (hst : (t.core k).stage ≠ .ready)
    (hkey : ∀ j ∈ lru, sameSockaddr (t.core j).clientAddr (t.core k).clientAddr = false) :
    (t.attach k).Inv none (lru ++ [k]) (hs ++ [k]) := by
  refine h.enter hu hst hkey (update_field rfl) (update_field rfl) (update_field rfl) fun j => ?_
  unfold SessTable.handshakeAddTail
  rcases eq_or_ne j k with rfl | hj
  · simp
  · simp [hj, h.linked]

end SessTable.Inv

end Bpf2Socks.Udp

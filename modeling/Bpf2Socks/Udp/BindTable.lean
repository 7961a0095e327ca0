/-
# Bpf2Socks.Udp.BindTable — the representation invariant of the binding table.

A used binding is in four structures (its owner's list, its owner's LRU, the worker's LRU and a
hash chain of the index) and counted twice; an unused one is on the free list.  `BindTable.Inv`
says how they fit together.  Between `alloc_binding` and the end of `create_binding`, and within
`destroy_binding`, one slot is in none of them: the *hole* of the invariant.

Every operation on the table gets one lemma here.  They know nothing of the code around them.
-/
import Bpf2Socks.Udp.SessionTable
import Mathlib.Data.List.Perm.Subperm

namespace Bpf2Socks.Udp

open Function (update update_self update_of_ne)
open Lib (DLists)

/-- How the structures of a binding table fit together: `lru` is what the worker's LRU holds,
`olru k` what that of session slot `k` holds, and `hole` is the slot that is in none of them. -/
structure BindTable.Inv (t : BindTable) (hole : Option Nat) (lru : List Nat)
    (olru : Nat → List Nat) : Prop where
  lruRep : t.lru.Rep fun _ => lru
  olruRep : t.ownedLru.Rep olru
  free_nodup : t.free.Nodup
  mem_free : ∀ {b}, b ∈ t.free ↔ b < t.cap ∧ (t.core b).used = false ∧ hole ≠ some b
  mem_lru : ∀ {b}, b ∈ lru ↔ (t.core b).used = true ∧ hole ≠ some b
  used_lt : ∀ {b}, (t.core b).used = true → b < t.cap
  hole_lt : ∀ {b}, hole = some b → b < t.cap
  owned_nodup : ∀ k, (t.owned k).Nodup
  mem_owned : ∀ {k b}, b ∈ t.owned k ↔ b ∈ lru ∧ (t.core b).owner = some k
  mem_olru : ∀ {k b}, b ∈ olru k ↔ b ∈ lru ∧ (t.core b).owner = some k
  index_nodup : ∀ i, (t.index i).Nodup
  mem_index : ∀ {i b}, b ∈ t.index i ↔
    b ∈ lru ∧ ∃ k, (t.core b).owner = some k ∧ i = t.bucket k (t.core b).originalDst
  owner : ∀ {b}, b ∈ lru → ∃ k, (t.core b).owner = some k
  valid : ∀ {b}, b ∈ lru → validOriginal (t.core b).originalDst = true
  unique : ∀ {b b'}, b ∈ lru → b' ∈ lru → (t.core b).owner = (t.core b').owner →
    sameDst (t.core b).originalDst (t.core b').originalDst = true → b = b'
  count_eq : t.count = lru.length
  ownedCount_eq : ∀ k, t.ownedCount k = (t.owned k).length

namespace BindTable.Inv

variable {t : BindTable} {hole : Option Nat} {lru : List Nat} {olru : Nat → List Nat} {k b : Nat}

theorem lru_nodup (h : t.Inv hole lru olru) : lru.Nodup := h.lruRep.nodup ()

theorem hole_not_mem (h : t.Inv (some b) lru olru) : b ∉ lru := fun hb => (h.mem_lru.mp hb).2 rfl

theorem not_mem_olru (h : t.Inv hole lru olru) (hb : b ∉ lru) : ∀ k, b ∉ olru k :=
  fun _ hm => hb (h.mem_olru.mp hm).1

theorem count_le (h : t.Inv hole lru olru) : t.count ≤ t.cap := by
  have hsub : lru ⊆ List.range t.cap := fun b hb =>
    List.mem_range.mpr (h.used_lt (h.mem_lru.mp hb).1)
  rw [h.count_eq]
  simpa using (List.subperm_of_subset h.lru_nodup hsub).length_le

/-- The invariant reads three fields of a record. -/
theorem congr_core (h : t.Inv hole lru olru) {core : Nat → Binding}
    (hused : ∀ b, (core b).used = (t.core b).used)
    (howner : ∀ b, (core b).owner = (t.core b).owner)
    (hdst : ∀ b, (core b).originalDst = (t.core b).originalDst) :
    BindTable.Inv { t with core := core } hole lru olru := by
  refine ⟨h.lruRep, h.olruRep, h.free_nodup, ?_, ?_, ?_, h.hole_lt, h.owned_nodup, ?_, ?_,
    h.index_nodup, ?_, ?_, ?_, ?_, h.count_eq, h.ownedCount_eq⟩
  · intro b
    simp only [hused]
    exact h.mem_free
  · intro b
    simp only [hused]
    exact h.mem_lru
  · intro b
    simp only [hused]
    exact h.used_lt
  · intro k b
    simp only [howner]
    exact h.mem_owned
  · intro k b
    simp only [howner]
    exact h.mem_olru
  · intro i b
    simp only [howner, hdst]
    exact h.mem_index
  · intro b
    simp only [howner]
    exact h.owner
  · intro b
    simp only [hdst]
    exact h.valid
  · intro b b'
    simp only [howner, hdst]
    exact h.unique

/-- A change of one record that keeps its use, owner and destination. -/
theorem modify (h : t.Inv hole lru olru) {f : Binding → Binding}
    (hused : (f (t.core b)).used = (t.core b).used)
    (howner : (f (t.core b)).owner = (t.core b).owner)
    (hdst : (f (t.core b)).originalDst = (t.core b).originalDst) :
    BindTable.Inv { t with core := update t.core b (f (t.core b)) } hole lru olru :=
  h.congr_core (update_field hused) (update_field howner) (update_field hdst)

/-- Reordering both LRUs. -/
theorem reorder (h : t.Inv hole lru olru) {d : DLists Unit Nat} {d' : DLists Nat Nat}
    {lru' : List Nat} {olru' : Nat → List Nat} (hrep : d.Rep fun _ => lru') (hrep' : d'.Rep olru')
    (hp : lru'.Perm lru) (hp' : ∀ k, (olru' k).Perm (olru k)) :
    BindTable.Inv { t with lru := d, ownedLru := d' } hole lru' olru' := by
  refine ⟨hrep, hrep', h.free_nodup, h.mem_free, ?_, h.used_lt, h.hole_lt, h.owned_nodup, ?_, ?_,
    h.index_nodup, ?_, ?_, ?_, ?_, ?_, h.ownedCount_eq⟩
  · intro b
    rw [hp.mem_iff]
    exact h.mem_lru
  · intro k b
    rw [hp.mem_iff]
    exact h.mem_owned
  · intro k b
    rw [hp.mem_iff, (hp' k).mem_iff]
    exact h.mem_olru
  · intro i b
    rw [hp.mem_iff]
    exact h.mem_index
  · intro b
    rw [hp.mem_iff]
    exact h.owner
  · intro b
    rw [hp.mem_iff]
    exact h.valid
  · intro b b'
    rw [hp.mem_iff, hp.mem_iff]
    exact h.unique
  · rw [hp.length_eq]
    exact h.count_eq

/-- A touched binding goes to the end of both LRUs. -/
theorem lruTouch (h : t.Inv hole lru olru) (hb : b ∈ lru) (ho : (t.core b).owner = some k) :
    (t.lruTouch k b).Inv hole (lru.erase b ++ [b]) (update olru k ((olru k).erase b ++ [b])) := by
  have hp : ∀ {l : List Nat}, b ∈ l → (l.erase b ++ [b]).Perm l := fun hm =>
    (List.perm_append_singleton b _).trans (List.perm_cons_erase hm).symm
  have hbo : b ∈ olru k := h.mem_olru.mpr ⟨hb, ho⟩
  refine h.reorder (h.lruRep.touch hb) (h.olruRep.touchIn hbo) (hp hb) fun j => ?_
  rcases eq_or_ne j k with rfl | hj
  · rw [update_self]
    exact hp hbo
  · rw [update_of_ne hj]

/-! ### The hole -/

/-- The record of the hole is nobody's business. -/
theorem set_hole (h : t.Inv (some b) lru olru) (c : Binding) :
    BindTable.Inv { t with core := update t.core b c } (some b) lru olru := by
  have hne : ∀ {j}, j ∈ lru → update t.core b c j = t.core j := fun hj =>
    update_of_ne (by rintro rfl; exact h.hole_not_mem hj) _ _
  have hcase : ∀ j, j = b ∨ update t.core b c j = t.core j := fun j =>
    (eq_or_ne j b).imp id fun hj => update_of_ne hj _ _
  refine ⟨h.lruRep, h.olruRep, h.free_nodup, ?_, ?_, ?_, h.hole_lt, h.owned_nodup, ?_, ?_,
    h.index_nodup, ?_, ?_, ?_, ?_, h.count_eq, h.ownedCount_eq⟩
  · intro j
    rcases hcase j with rfl | hj
    · simpa using fun hm => (h.mem_free.mp hm).2.2 rfl
    · simp only [hj]
      exact h.mem_free
  · intro j
    rcases hcase j with rfl | hj
    · simpa using h.hole_not_mem
    · simp only [hj]
      exact h.mem_lru
  · intro j
    rcases hcase j with rfl | hj
    · exact fun _ => h.hole_lt rfl
    · simp only [hj]
      exact h.used_lt
  · intro k j
    rw [h.mem_owned]
    exact and_congr_right fun hj => by simp only [hne hj]
  · intro k j
    rw [h.mem_olru]
    exact and_congr_right fun hj => by simp only [hne hj]
  · intro i j
    rw [h.mem_index]
    exact and_congr_right fun hj => by simp only [hne hj, BindTable.bucket]
  · intro j hj
    simp only [hne hj]
    exact h.owner hj
  · intro j hj
    simp only [hne hj]
    exact h.valid hj
  · intro j j' hj hj'
    simp only [hne hj, hne hj']
    exact h.unique hj hj'

/-- Zeroing the hole. -/
theorem clear (h : t.Inv (some b) lru olru) : (t.clear b).Inv (some b) lru olru :=
  { h.set_hole .zero with
    lruRep := h.lruRep.clearNode fun _ => h.hole_not_mem
    olruRep := h.olruRep.clearNode (h.not_mem_olru h.hole_not_mem) }

/-- Taking the first free slot. -/
theorem pop (h : t.Inv none lru olru) {rest : List Nat} (hf : t.free = b :: rest) :
    BindTable.Inv { t with free := rest } (some b) lru olru := by
  have hb := h.mem_free.mp (by rw [hf]; exact List.mem_cons_self)
  have hnd : b ∉ rest ∧ rest.Nodup := List.nodup_cons.mp (hf ▸ h.free_nodup)
  have hbl : b ∉ lru := fun hm => by simp [(h.mem_lru.mp hm).1] at hb
  refine { h with free_nodup := hnd.2, mem_free := ?_, mem_lru := ?_, hole_lt := ?_ }
  · intro j
    constructor
    · intro hj
      have := h.mem_free.mp (hf ▸ List.mem_cons_of_mem b hj)
      exact ⟨this.1, this.2.1, by rintro ⟨⟩; exact hnd.1 hj⟩
    · rintro ⟨hlt, hu, hne⟩
      have := h.mem_free.mpr ⟨hlt, hu, by simp⟩
      rw [hf] at this
      rcases List.mem_cons.mp this with rfl | hj
      · exact absurd rfl hne
      · exact hj
  · intro j
    constructor
    · exact fun hj => ⟨(h.mem_lru.mp hj).1, by rintro ⟨⟩; exact hbl hj⟩
    · exact fun hj => h.mem_lru.mpr ⟨hj.1, by simp⟩
  · rintro j ⟨⟩
    exact hb.1

/-- Putting the hole on the free list. -/
theorem pushFree (h : t.Inv (some b) lru olru) (hu : (t.core b).used = false) :
    BindTable.Inv { t with free := b :: t.free } none lru olru := by
  have hbf : b ∉ t.free := fun hm => (h.mem_free.mp hm).2.2 rfl
  refine { h with free_nodup := List.nodup_cons.mpr ⟨hbf, h.free_nodup⟩, mem_free := ?_,
                  mem_lru := ?_, hole_lt := by simp }
  · intro j
    constructor
    · intro hj
      rcases List.mem_cons.mp hj with rfl | hj
      · exact ⟨h.hole_lt rfl, hu, by simp⟩
      · have := h.mem_free.mp hj
        exact ⟨this.1, this.2.1, by simp⟩
    · rintro ⟨hlt, huj, -⟩
      rcases eq_or_ne j b with rfl | hne
      · exact List.mem_cons_self
      · exact List.mem_cons_of_mem b (h.mem_free.mpr ⟨hlt, huj, fun e => hne (by simpa using e.symm)⟩)
  · intro j
    constructor
    · exact fun hj => ⟨(h.mem_lru.mp hj).1, by simp⟩
    · rintro ⟨huj, -⟩
      refine h.mem_lru.mpr ⟨huj, ?_⟩
      rintro ⟨⟩
      exact absurd huj (by simp [hu])

/-! ### Leaving and entering the table -/

/-- Taking a binding out of every structure makes its slot the hole. -/
theorem detach (h : t.Inv none lru olru) (hb : b ∈ lru) (ho : (t.core b).owner = some k) :
    (t.detach k b).Inv (some b) (lru.erase b) (update olru k ((olru k).erase b)) := by
  have hmem : ∀ {j}, j ∈ lru.erase b ↔ j ≠ b ∧ j ∈ lru := h.lru_nodup.mem_erase_iff
  have hbu := (h.mem_lru.mp hb).1
  have hbo : b ∈ t.owned k := h.mem_owned.mpr ⟨hb, ho⟩
  -- an element of another list is not `b`
  have hother : ∀ {j x}, j ≠ k → (t.core x).owner = some j → x ≠ b := by
    rintro j x hj hx rfl
    exact hj (Option.some.inj (hx.symm.trans ho))
  unfold BindTable.detach BindTable.indexRemove
  simp only [ho, h.valid hb, if_true]
  refine ⟨h.lruRep.removeOne hb, h.olruRep.remove (h.mem_olru.mpr ⟨hb, ho⟩), h.free_nodup, ?_, ?_,
    h.used_lt, ?_, ?_, ?_, ?_, ?_, ?_, ?_, ?_, ?_, ?_, ?_⟩
  · intro j
    rw [h.mem_free]
    refine and_congr_right fun _ => and_congr_right fun hu => ⟨fun _ e => ?_, fun _ => by simp⟩
    cases e
    simp [hbu] at hu
  · intro j
    rw [hmem, h.mem_lru]
    constructor
    · exact fun ⟨hne, hu, _⟩ => ⟨hu, fun e => hne (Option.some.inj e).symm⟩
    · exact fun ⟨hu, hne⟩ => ⟨fun e => hne (congrArg some e.symm), hu, by simp⟩
  · rintro j ⟨⟩
    exact h.used_lt hbu
  · intro j
    rcases eq_or_ne j k with rfl | hj
    · simp only [update_self]
      exact (h.owned_nodup j).erase b
    · simp only [update_of_ne hj]
      exact h.owned_nodup j
  · intro j x
    show x ∈ update t.owned k _ j ↔ x ∈ lru.erase b ∧ (t.core x).owner = some j
    rcases eq_or_ne j k with rfl | hj
    · rw [update_self, (h.owned_nodup j).mem_erase_iff, hmem, h.mem_owned, and_assoc]
    · rw [update_of_ne hj, hmem, h.mem_owned]
      exact ⟨fun hx => ⟨⟨hother hj hx.2, hx.1⟩, hx.2⟩, fun hx => ⟨hx.1.2, hx.2⟩⟩
  · intro j x
    rcases eq_or_ne j k with rfl | hj
    · rw [update_self, (h.olruRep.nodup j).mem_erase_iff, hmem, h.mem_olru, and_assoc]
    · rw [update_of_ne hj, hmem, h.mem_olru]
      exact ⟨fun hx => ⟨⟨hother hj hx.2, hx.1⟩, hx.2⟩, fun hx => ⟨hx.1.2, hx.2⟩⟩
  · intro i
    rcases eq_or_ne i (t.bucket k (t.core b).originalDst) with rfl | hi
    · simp only [update_self]
      exact (h.index_nodup _).erase b
    · simp only [update_of_ne hi]
      exact h.index_nodup i
  · intro i x
    show x ∈ update t.index _ _ i ↔ x ∈ lru.erase b ∧ ∃ j, (t.core x).owner = some j ∧
      i = t.bucket j (t.core x).originalDst
    rw [hmem]
    rcases eq_or_ne i (t.bucket k (t.core b).originalDst) with rfl | hi
    · rw [update_self, (h.index_nodup _).mem_erase_iff, h.mem_index, and_assoc]
    · rw [update_of_ne hi, h.mem_index]
      refine ⟨fun ⟨hx, j, hj, hi'⟩ => ⟨⟨?_, hx⟩, j, hj, hi'⟩, fun ⟨hx, hi'⟩ => ⟨hx.2, hi'⟩⟩
      rintro rfl
      obtain rfl : k = j := Option.some.inj (ho.symm.trans hj)
      exact hi hi'
  · exact fun hx => h.owner (hmem.mp hx).2
  · exact fun hx => h.valid (hmem.mp hx).2
  · exact fun hx hx' => h.unique (hmem.mp hx).2 (hmem.mp hx').2
  · simp only [List.length_erase_of_mem hb, h.count_eq]
  · intro j
    rcases eq_or_ne j k with rfl | hj
    · simp only [update_self, List.length_erase_of_mem hbo, h.ownedCount_eq]
    · simp only [update_of_ne hj]
      exact h.ownedCount_eq j

/-- Linking a new binding in fills the hole. -/
theorem attach (h : t.Inv (some b) lru olru) (hu : (t.core b).used = true)
    (ho : (t.core b).owner = some k) (hv : validOriginal (t.core b).originalDst = true)
    (hnew : ∀ x ∈ lru, (t.core x).owner = some k →
      sameDst (t.core x).originalDst (t.core b).originalDst = false)
    {t' : BindTable} (hi : t.indexInsert b = some t') :
    (t'.attach k b).Inv none (lru ++ [b]) (update olru k (olru k ++ [b])) := by
  have hbl := h.hole_not_mem
  have hmem : ∀ {l : List Nat} {j}, j ∈ l ++ [b] ↔ j ∈ l ∨ j = b := by simp
  have hbi : b ∉ t.index (t.bucket k (t.core b).originalDst) := fun hm => hbl (h.mem_index.mp hm).1
  -- the insertion succeeded, so the binding was in no chain yet
  have ht' : t' = { t with
      index := update t.index (t.bucket k (t.core b).originalDst)
        (b :: t.index (t.bucket k (t.core b).originalDst)) } := by
    simp only [BindTable.indexInsert, ho, hu, hv, Bool.and_self, if_true, if_neg hbi,
      Option.some.injEq] at hi
    exact hi.symm
  subst ht'
  have hother : ∀ {j}, j ≠ k → (t.core b).owner ≠ some j := fun hj e =>
    hj (Option.some.inj (e.symm.trans ho))
  refine ⟨h.lruRep.addOne hbl, h.olruRep.addTail (h.not_mem_olru hbl), h.free_nodup, ?_, ?_,
    h.used_lt, by simp, ?_, ?_, ?_, ?_, ?_, ?_, ?_, ?_, ?_, ?_⟩
  · intro j
    show j ∈ t.free ↔ j < t.cap ∧ (t.core j).used = false ∧ none ≠ some j
    rw [h.mem_free]
    refine and_congr_right fun _ => and_congr_right fun huj => ⟨fun _ => by simp, fun _ e => ?_⟩
    cases e
    simp [hu] at huj
  · intro j
    rw [hmem, h.mem_lru]
    constructor
    · rintro (hj | rfl)
      · exact ⟨hj.1, by simp⟩
      · exact ⟨hu, by simp⟩
    · rintro ⟨huj, -⟩
      rcases eq_or_ne j b with rfl | hj
      · exact Or.inr rfl
      · exact Or.inl ⟨huj, fun e => hj (Option.some.inj e).symm⟩
  · intro j
    rcases eq_or_ne j k with rfl | hj
    · simp only [BindTable.attach, update_self]
      exact List.nodup_cons.mpr ⟨fun hm => hbl (h.mem_owned.mp hm).1, h.owned_nodup _⟩
    · simp only [BindTable.attach, update_of_ne hj]
      exact h.owned_nodup j
  · intro j x
    rw [hmem]
    rcases eq_or_ne j k with rfl | hj
    · simp only [BindTable.attach, update_self, List.mem_cons, h.mem_owned]
      constructor
      · rintro (rfl | hx)
        · exact ⟨Or.inr rfl, ho⟩
        · exact ⟨Or.inl hx.1, hx.2⟩
      · rintro ⟨hx | rfl, hxo⟩
        · exact Or.inr ⟨hx, hxo⟩
        · exact Or.inl rfl
    · simp only [BindTable.attach, update_of_ne hj, h.mem_owned]
      refine ⟨fun hx => ⟨Or.inl hx.1, hx.2⟩, ?_⟩
      rintro ⟨hx | rfl, hxo⟩
      · exact ⟨hx, hxo⟩
      · exact absurd hxo (hother hj)
  · intro j x
    rw [hmem]
    rcases eq_or_ne j k with rfl | hj
    · rw [update_self, hmem, h.mem_olru]
      constructor
      · rintro (hx | rfl)
        · exact ⟨Or.inl hx.1, hx.2⟩
        · exact ⟨Or.inr rfl, ho⟩
      · rintro ⟨hx | rfl, hxo⟩
        · exact Or.inl ⟨hx, hxo⟩
        · exact Or.inr rfl
    · rw [update_of_ne hj, h.mem_olru]
      refine ⟨fun hx => ⟨Or.inl hx.1, hx.2⟩, ?_⟩
      rintro ⟨hx | rfl, hxo⟩
      · exact ⟨hx, hxo⟩
      · exact absurd hxo (hother hj)
  · intro i
    -- only the chain of the new key grows
    rcases eq_or_ne i (t.bucket k (t.core b).originalDst) with rfl | hi
    · simp only [BindTable.attach, update_self]
      exact List.nodup_cons.mpr ⟨hbi, h.index_nodup _⟩
    · simp only [BindTable.attach, update_of_ne hi]
      exact h.index_nodup i
  · intro i x
    show x ∈ update t.index _ _ i ↔ x ∈ lru ++ [b] ∧ ∃ j, (t.core x).owner = some j ∧
      i = t.bucket j (t.core x).originalDst
    rw [hmem]
    rcases eq_or_ne i (t.bucket k (t.core b).originalDst) with rfl | hi
    · rw [update_self, List.mem_cons, h.mem_index]
      constructor
      · rintro (rfl | hx)
        · exact ⟨Or.inr rfl, k, ho, rfl⟩
        · exact ⟨Or.inl hx.1, hx.2⟩
      · rintro ⟨hx | rfl, hi⟩
        · exact Or.inr ⟨hx, hi⟩
        · exact Or.inl rfl
    · rw [update_of_ne hi, h.mem_index]
      refine ⟨fun ⟨hx, hi'⟩ => ⟨Or.inl hx, hi'⟩, ?_⟩
      rintro ⟨hx | rfl, j, hj, hi'⟩
      · exact ⟨hx, j, hj, hi'⟩
      · obtain rfl : k = j := Option.some.inj (ho.symm.trans hj)
        exact absurd hi' hi
  · intro x hx
    rcases hmem.mp hx with hx | rfl
    · exact h.owner hx
    · exact ⟨k, ho⟩
  · intro x hx
    rcases hmem.mp hx with hx | rfl
    · exact h.valid hx
    · exact hv
  -- two bindings of one owner and destination: the new one has none beside it
  · intro x x' hx hx' howner hsame
    rcases hmem.mp hx with hxl | rfl <;> rcases hmem.mp hx' with hxl' | rfl
    · exact h.unique hxl hxl' howner hsame
    · exact absurd hsame (Bool.eq_false_iff.mp (hnew x hxl (howner.trans ho)))
    · exact absurd (sameDst_symm hsame) (Bool.eq_false_iff.mp (hnew x' hxl' (howner.symm.trans ho)))
    · rfl
  · simp [BindTable.attach, h.count_eq]
  · intro j
    rcases eq_or_ne j k with rfl | hj
    · simp [BindTable.attach, h.ownedCount_eq]
    · simp only [BindTable.attach, update_of_ne hj]
      exact h.ownedCount_eq j

/-- Zeroing the list heads of a session slot without bindings. -/
theorem clearOwner (h : t.Inv hole lru olru) (hk : t.owned k = []) :
    BindTable.Inv { t with
      owned := update t.owned k []
      ownedLru := t.ownedLru.clearHead k
      ownedCount := update t.ownedCount k 0 } hole lru olru := by
  have holru : olru k = [] := List.eq_nil_iff_forall_not_mem.mpr fun b hb => by
    have := h.mem_owned.mpr (h.mem_olru.mp hb)
    simp [hk] at this
  have howned : update t.owned k [] = t.owned := by rw [← hk, Function.update_eq_self]
  have hcount : update t.ownedCount k 0 = t.ownedCount := by
    have := h.ownedCount_eq k
    rw [hk, List.length_nil] at this
    rw [← this, Function.update_eq_self]
  rw [howned, hcount]
  exact { h with olruRep := h.olruRep.clearHead holru }

/-! ### Lookup and eviction -/

theorem indexFind_some (h : t.Inv none lru olru) {dst : DstAddr} :
    t.indexFind k dst = some b ↔ b ∈ lru ∧ (t.core b).owner = some k ∧
      sameDst (t.core b).originalDst dst = true := by
  have hlive : ∀ {x}, x ∈ lru → (t.core x).owner = some k →
      sameDst (t.core x).originalDst dst = true → x ∈ t.index (t.bucket k dst) := by
    intro x hx ho hd
    refine h.mem_index.mpr ⟨hx, k, ho, ?_⟩
    simp only [BindTable.bucket, bindingHash_congr k hd]
  unfold BindTable.indexFind
  constructor
  · intro hf
    split at hf
    · have hm := List.mem_of_find?_eq_some hf
      have hp := List.find?_some hf
      simp only [Bool.and_eq_true, beq_iff_eq] at hp
      exact ⟨(h.mem_index.mp hm).1, hp.1.2, hp.2⟩
    · simp at hf
  · rintro ⟨hb, ho, hd⟩
    rw [if_pos (validOriginal_congr hd ▸ h.valid hb)]
    -- the search stops somewhere, and only one binding has the key
    rcases hf : (t.index (t.bucket k dst)).find? _ with _ | x
    · have := List.find?_eq_none.mp hf b (hlive hb ho hd)
      simp [(h.mem_lru.mp hb).1, ho, hd] at this
    · have hm := List.mem_of_find?_eq_some hf
      have hp := List.find?_some hf
      simp only [Bool.and_eq_true, beq_iff_eq] at hp
      rw [h.unique (h.mem_index.mp hm).1 hb (hp.1.2.trans ho.symm)
        (sameDst_trans hp.2 (sameDst_symm hd))]

theorem of_indexFind_none (h : t.Inv none lru olru) {dst : DstAddr}
    (hf : t.indexFind k dst = none) {x : Nat} (hx : x ∈ lru) (ho : (t.core x).owner = some k) :
    sameDst (t.core x).originalDst dst = false := by
  refine Bool.eq_false_iff.mpr fun hd => ?_
  have := h.indexFind_some.mpr ⟨hx, ho, hd⟩
  simp [hf] at this

theorem firstIdle_mem {fuel : Nat} {cur : Option Nat} {l : List Nat}
    (hseg : DLists.Seg t.lru.next cur l none) (hf : t.firstIdle fuel cur = some (some b)) :
    b ∈ l ∧ (t.core b).downlinkPendingCount = 0 := by
  induction fuel generalizing cur l with
  | zero => simp [BindTable.firstIdle] at hf
  | succ fuel ih =>
      cases l with
      | nil =>
          obtain rfl : cur = none := hseg
          simp [BindTable.firstIdle] at hf
      | cons x l =>
          obtain ⟨rfl, hseg⟩ := hseg
          simp only [BindTable.firstIdle] at hf
          split at hf
          · obtain ⟨hm, hp⟩ := ih hseg hf
            exact ⟨List.mem_cons_of_mem x hm, hp⟩
          · rename_i hp
            obtain rfl : x = b := by simpa using hf
            exact ⟨List.mem_cons_self, by omega⟩

/-- The binding that is evicted is in use, and nothing is queued for it. -/
theorem evictee (h : t.Inv hole lru olru) (he : t.evictee = some (some b)) :
    b ∈ lru ∧ (t.core b).downlinkPendingCount = 0 := firstIdle_mem (h.lruRep.fwd ()) he

end BindTable.Inv

end Bpf2Socks.Udp

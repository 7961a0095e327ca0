/-
# Bpf2Socks.Lib.DList — intrusive doubly linked lists, as pointers.

A family of doubly linked lists threaded through one pool of nodes: every list `k` has a head and
a tail, every node has a `prev` and a `next`, and a node is meant to be on at most one list of the
family.  The operations are the usual C ones (unlink a node, append at the tail), performed on the
pointers, with no assumption that the pointers make sense.

`Rep d f` says that they do: following `next` from the head of `k` reads off the list `f k`,
following `prev` from its tail reads it backwards, no node is on two lists or twice on one, and a
node on no list has both pointers null.  Under `Rep` the pointer operations are `List.erase` and
appending.
-/
import Mathlib.Data.List.Nodup
import Mathlib.Logic.Function.Basic

namespace Lib

open Function (update update_of_ne)

/-- Heads, tails and links of a family of doubly linked lists. -/
structure DLists (κ ι : Type) where
  head : κ → Option ι
  tail : κ → Option ι
  prev : ι → Option ι
  next : ι → Option ι

namespace DLists

variable {κ ι : Type}

/-- All lists empty, all links null. -/
def empty : DLists κ ι := ⟨fun _ => none, fun _ => none, fun _ => none, fun _ => none⟩

section Operations

variable [DecidableEq κ] [DecidableEq ι]

/-- `if (p != NULL) p->link = v`. -/
def setLink (link : ι → Option ι) (p v : Option ι) : ι → Option ι :=
  match p with
  | some p => update link p v
  | none => link

/-- Unlink `x` from list `k`: bypass it in both directions, move the head and the tail off it, and
null its links. -/
def remove (d : DLists κ ι) (k : κ) (x : ι) : DLists κ ι :=
  let next := setLink d.next (d.prev x) (d.next x)
  let prev := setLink d.prev (next x) (d.prev x)
  { head := if d.head k = some x then update d.head k (next x) else d.head
    tail := if d.tail k = some x then update d.tail k (prev x) else d.tail
    prev := update prev x none
    next := update next x none }

/-- Link `x` in at the tail of list `k`. -/
def addTail (d : DLists κ ι) (k : κ) (x : ι) : DLists κ ι :=
  { head := if d.head k = none then update d.head k (some x) else d.head
    tail := update d.tail k (some x)
    prev := update d.prev x (d.tail k)
    next := setLink (update d.next x none) (d.tail k) (some x) }

/-- `remove` in another C idiom: the head is looked at only when `x` has no predecessor, the tail
only when it has no successor. -/
def detach (d : DLists κ ι) (k : κ) (x : ι) : DLists κ ι :=
  let next := setLink d.next (d.prev x) (d.next x)
  let prev := setLink d.prev (next x) (d.prev x)
  { head := if d.prev x = none ∧ d.head k = some x then update d.head k (next x) else d.head
    tail := if next x = none ∧ d.tail k = some x then update d.tail k (prev x) else d.tail
    prev := update prev x none
    next := update next x none }

/-- `addTail` in another C idiom: the list is empty when it has no tail. -/
def attachTail (d : DLists κ ι) (k : κ) (x : ι) : DLists κ ι :=
  { head := if d.tail k = none then update d.head k (some x) else d.head
    tail := update d.tail k (some x)
    prev := update d.prev x (d.tail k)
    next := setLink (update d.next x none) (d.tail k) (some x) }

/-- Null the links of a node, as zeroing its record does. -/
def clearNode (d : DLists κ ι) (x : ι) : DLists κ ι :=
  { d with prev := update d.prev x none, next := update d.next x none }

/-- Null the head and the tail of a list, as zeroing its owner's record does. -/
def clearHead (d : DLists κ ι) (k : κ) : DLists κ ι :=
  { d with head := update d.head k none, tail := update d.tail k none }

end Operations

/-- The nodes met by following `next` from `start`, at most `fuel` of them. -/
def walk (next : ι → Option ι) : Nat → Option ι → List ι
  | 0, _ => []
  | _ + 1, none => []
  | n + 1, some x => x :: walk next n (next x)

/-! ## Segments -/

/-- Following `nxt` from `st` reads off `l` and arrives at `en`. -/
def Seg (nxt : ι → Option ι) : Option ι → List ι → Option ι → Prop
  | st, [], en => st = en
  | st, a :: l, en => st = some a ∧ Seg nxt (nxt a) l en

@[simp] theorem seg_nil {nxt : ι → Option ι} {st en : Option ι} :
    Seg nxt st [] en ↔ st = en := Iff.rfl

@[simp] theorem seg_cons {nxt : ι → Option ι} {st en : Option ι} {a : ι} {l : List ι} :
    Seg nxt st (a :: l) en ↔ st = some a ∧ Seg nxt (nxt a) l en := Iff.rfl

theorem seg_append {nxt : ι → Option ι} {st en : Option ι} {l l' : List ι} :
    Seg nxt st (l ++ l') en ↔ ∃ m, Seg nxt st l m ∧ Seg nxt m l' en := by
  induction l generalizing st with
  | nil => simp
  | cons a l ih => simp [ih, and_assoc]

/-- A segment only reads the links of its own nodes. -/
theorem Seg.congr {nxt m : ι → Option ι} {st en : Option ι} {l : List ι}
    (h : Seg nxt st l en) (heq : ∀ x ∈ l, m x = nxt x) : Seg m st l en := by
  induction l generalizing st with
  | nil => exact h
  | cons a l ih =>
      refine ⟨h.1, ?_⟩
      rw [heq a (by simp)]
      exact ih h.2 fun x hx => heq x (List.mem_cons_of_mem a hx)

theorem Seg.head {nxt : ι → Option ι} {st : Option ι} {l : List ι}
    (h : Seg nxt st l none) : st = l.head? := by
  cases l with
  | nil => exact h
  | cons a l => exact h.1

/-- Redirecting the last link of a segment redirects where it arrives. -/
theorem Seg.redirect [DecidableEq ι] {nxt : ι → Option ι} {st en e : Option ι} {l : List ι}
    {x : ι} (h : Seg nxt st (l ++ [x]) en) (hx : x ∉ l) :
    Seg (update nxt x e) st (l ++ [x]) e := by
  obtain ⟨m, hl, hm⟩ := seg_append.mp h
  refine seg_append.mpr ⟨m, ?_, hm.1, ?_⟩
  · exact hl.congr fun y hy => update_of_ne (by rintro rfl; exact hx hy) _ _
  · simp

theorem Seg.walk {nxt : ι → Option ι} {st : Option ι} {l : List ι} (h : Seg nxt st l none) :
    ∀ n, l.length ≤ n → DLists.walk nxt n st = l := by
  intro n hn
  induction l generalizing st n with
  | nil =>
      cases h
      cases n <;> rfl
  | cons a l ih =>
      obtain ⟨rfl, hl⟩ := h
      cases n with
      | zero => simp at hn
      | succ n => simp [DLists.walk, ih hl n (by simpa using hn)]

/-! ## The representation predicate -/

/-- The pointers of `d` represent the lists `f`. -/
structure Rep (d : DLists κ ι) (f : κ → List ι) : Prop where
  fwd : ∀ k, Seg d.next (d.head k) (f k) none
  bwd : ∀ k, Seg d.prev (d.tail k) (f k).reverse none
  nodup : ∀ k, (f k).Nodup
  apart : ∀ {k k' x}, x ∈ f k → x ∈ f k' → k = k'
  outside : ∀ {x}, (∀ k, x ∉ f k) → d.prev x = none ∧ d.next x = none

theorem rep_empty : Rep (empty : DLists κ ι) fun _ => [] := by
  refine ⟨fun _ => rfl, fun _ => rfl, fun _ => List.nodup_nil, ?_, fun _ => ⟨rfl, rfl⟩⟩
  intro k k' x hx
  simp at hx

theorem Rep.head_eq {d : DLists κ ι} {f : κ → List ι} (h : Rep d f) (k : κ) :
    d.head k = (f k).head? := (h.fwd k).head

theorem Rep.tail_eq {d : DLists κ ι} {f : κ → List ι} (h : Rep d f) (k : κ) :
    d.tail k = (f k).getLast? := by
  rw [(h.bwd k).head, List.head?_reverse]

/-- Walking a represented list reads it off. -/
theorem Rep.walk_eq {d : DLists κ ι} {f : κ → List ι} (h : Rep d f) (k : κ) {n : Nat}
    (hn : (f k).length ≤ n) : walk d.next n (d.head k) = f k := (h.fwd k).walk n hn

section Surgery

variable [DecidableEq κ] [DecidableEq ι] {d : DLists κ ι} {f : κ → List ι} {k : κ} {x : ι}

/-- One direction of an unlink: bypassing `x` in a segment `l ++ x :: r` leaves `l ++ r`. -/
theorem Seg.bypass {nxt : ι → Option ι} {st : Option ι} {l r : List ι}
    (h : Seg nxt st (l ++ x :: r) none) (hnd : (l ++ x :: r).Nodup) :
    Seg (update (setLink nxt l.getLast? (nxt x)) x none)
      (if st = some x then nxt x else st) (l ++ r) none := by
  have hxl : x ∉ l := fun hx => by
    have := List.disjoint_of_nodup_append hnd
    exact this hx (by simp)
  have hxr : x ∉ r := by
    have := (List.nodup_append.mp hnd).2.1
    exact (List.nodup_cons.mp this).1
  obtain ⟨m, hl, rfl, hr⟩ := seg_append.mp h
  rcases List.eq_nil_or_concat l with rfl | ⟨l', p, rfl⟩
  · obtain rfl : st = some x := hl
    simp only [List.getLast?_nil, List.nil_append, ↓reduceIte, setLink]
    exact hr.congr fun y hy => update_of_ne (by rintro rfl; exact hxr hy) _ _
  · have hpl : p ∉ l' := by
      have := (List.nodup_append.mp hnd).1
      rw [List.concat_eq_append] at this
      exact fun hp => (List.disjoint_of_nodup_append this) hp (by simp)
    have hpr : p ∉ r := fun hp => by
      have := List.disjoint_of_nodup_append hnd
      exact this (a := p) (by simp) (by simp [hp])
    have hst : st ≠ some x := by
      intro hst
      rw [List.concat_eq_append] at hl hxl
      cases l' with
      | nil =>
          have := hl.1.symm.trans hst
          simp only [Option.some.injEq] at this
          exact hxl (by simp [this])
      | cons b l'' =>
          have := hl.1.symm.trans hst
          simp only [Option.some.injEq] at this
          exact hxl (by simp [this])
    rw [List.concat_eq_append] at hl hxl ⊢
    simp only [List.getLast?_append, List.getLast?_singleton, Option.some_or, if_neg hst,
      setLink]
    refine seg_append.mpr ⟨nxt x, ?_, ?_⟩
    · exact (hl.redirect hpl).congr fun y hy => update_of_ne (by rintro rfl; exact hxl hy) _ _
    · refine hr.congr fun y hy => ?_
      rw [update_of_ne (by rintro rfl; exact hxr hy), update_of_ne (by rintro rfl; exact hpr hy)]

omit [DecidableEq κ] in
theorem setLink_of_ne {link : ι → Option ι} {p v : Option ι} {y : ι} (h : ∀ q, p = some q → y ≠ q) :
    setLink link p v y = link y := by
  cases p with
  | none => rfl
  | some q => exact update_of_ne (h q rfl) _ _

omit [DecidableEq κ] [DecidableEq ι] in
/-- The neighbours of a node of a represented list. -/
theorem Rep.links (h : Rep d f) {l r : List ι} (hk : f k = l ++ x :: r) :
    d.prev x = l.getLast? ∧ d.next x = r.head? := by
  constructor
  · have hb := h.bwd k
    rw [hk, List.reverse_append, List.reverse_cons, List.append_assoc] at hb
    obtain ⟨m, -, hm⟩ := seg_append.mp hb
    have hl : Seg d.prev (d.prev x) l.reverse none := hm.2
    rw [hl.head, List.head?_reverse]
  · have hf := h.fwd k
    rw [hk] at hf
    obtain ⟨m, -, hm⟩ := seg_append.mp hf
    exact hm.2.head

theorem Rep.remove (h : Rep d f) (hx : x ∈ f k) :
    Rep (d.remove k x) (update f k ((f k).erase x)) := by
  obtain ⟨l, r, hk⟩ := List.append_of_mem hx
  have hnd : (l ++ x :: r).Nodup := hk ▸ h.nodup k
  have hxl : x ∉ l := fun hm => List.disjoint_of_nodup_append hnd hm (by simp)
  have hxr : x ∉ r := (List.nodup_cons.mp (List.nodup_append.mp hnd).2.1).1
  have herase : (f k).erase x = l ++ r := by
    rw [hk, List.erase_append_right _ hxl, List.erase_cons_head]
  obtain ⟨hprev, hnext⟩ := h.links hk
  -- the bypassed links, as the two directions of `remove` compute them
  set next := setLink d.next (d.prev x) (d.next x) with hnextdef
  set prev := setLink d.prev (next x) (d.prev x) with hprevdef
  have hnx : next x = d.next x :=
    setLink_of_ne fun p hp => by
      rintro rfl
      exact hxl (List.mem_of_getLast? (hprev ▸ hp))
  have hpx : prev x = d.prev x :=
    setLink_of_ne fun n hn => by
      rintro rfl
      rw [hnx, hnext] at hn
      exact hxr (List.mem_of_mem_head? hn)
  -- a node off list `k` keeps its links
  have hoffn : ∀ y, y ∉ f k → update next x none y = d.next y := by
    intro y hy
    have hyx : y ≠ x := by rintro rfl; exact hy hx
    rw [update_of_ne hyx]
    refine setLink_of_ne fun p hp => ?_
    rintro rfl
    exact hy (by rw [hk]; simp [List.mem_of_getLast? (hprev ▸ hp)])
  have hoffp : ∀ y, y ∉ f k → update prev x none y = d.prev y := by
    intro y hy
    have hyx : y ≠ x := by rintro rfl; exact hy hx
    rw [update_of_ne hyx]
    refine setLink_of_ne fun n hn => ?_
    rintro rfl
    rw [hnx, hnext] at hn
    exact hy (by rw [hk]; simp [List.mem_of_mem_head? hn])
  have hmem : ∀ {k' y}, y ∈ update f k ((f k).erase x) k' → y ∈ f k' := by
    intro k' y hy
    by_cases hkk : k' = k
    · subst hkk
      rw [Function.update_self] at hy
      exact List.mem_of_mem_erase hy
    · rwa [update_of_ne hkk] at hy
  constructor
  · intro k'
    by_cases hkk : k' = k
    · subst hkk
      have hb := Seg.bypass (hk ▸ h.fwd k') hnd
      rw [← hprev] at hb
      show Seg (update next x none) ((if d.head k' = some x then update d.head k' (next x)
        else d.head) k') _ none
      rw [Function.update_self, herase]
      convert hb using 1
      split <;> simp [hnx]
    · show Seg (update next x none) ((if d.head k = some x then update d.head k (next x)
        else d.head) k') _ none
      have hhead : (if d.head k = some x then update d.head k (next x) else d.head) k'
          = d.head k' := by
        split
        · exact update_of_ne hkk _ _
        · rfl
      rw [hhead, update_of_ne hkk]
      exact (h.fwd k').congr fun y hy => hoffn y fun hy' => hkk (h.apart hy hy')
  · intro k'
    by_cases hkk : k' = k
    · subst hkk
      have hrev : (f k').reverse = r.reverse ++ x :: l.reverse := by simp [hk]
      have hb := Seg.bypass (hrev ▸ h.bwd k') (by rw [← hrev]; exact List.nodup_reverse.mpr (h.nodup k'))
      rw [List.getLast?_reverse, ← hnext, ← hnx] at hb
      show Seg (update prev x none) ((if d.tail k' = some x then update d.tail k' (prev x)
        else d.tail) k') _ none
      rw [Function.update_self, herase, List.reverse_append]
      convert hb using 1
      split <;> simp [hpx]
    · show Seg (update prev x none) ((if d.tail k = some x then update d.tail k (prev x)
        else d.tail) k') _ none
      have htail : (if d.tail k = some x then update d.tail k (prev x) else d.tail) k'
          = d.tail k' := by
        split
        · exact update_of_ne hkk _ _
        · rfl
      rw [htail, update_of_ne hkk]
      exact (h.bwd k').congr fun y hy =>
        hoffp y fun hy' => hkk (h.apart (List.mem_reverse.mp hy) hy')
  · intro k'
    by_cases hkk : k' = k
    · subst hkk
      rw [Function.update_self]
      exact (h.nodup k').erase x
    · rw [update_of_ne hkk]
      exact h.nodup k'
  · intro k₁ k₂ y hy₁ hy₂
    exact h.apart (hmem hy₁) (hmem hy₂)
  · intro y hy
    show update prev x none y = none ∧ update next x none y = none
    by_cases hyx : y = x
    · subst hyx
      simp
    · have hout : ∀ k', y ∉ f k' := by
        intro k' hy'
        apply hy k'
        by_cases hkk : k' = k
        · subst hkk
          rw [Function.update_self]
          exact (List.mem_erase_of_ne hyx).mpr hy'
        · rwa [update_of_ne hkk]
      rw [hoffp y (hout k), hoffn y (hout k)]
      exact h.outside hout

omit [DecidableEq κ] in
theorem Rep.clearNode (h : Rep d f) (hx : ∀ k', x ∉ f k') : Rep (d.clearNode x) f := by
  obtain ⟨hp, hn⟩ := h.outside hx
  have : d.clearNode x = d := by
    simp only [DLists.clearNode]
    rw [← hp, Function.update_eq_self, hp, ← hn, Function.update_eq_self]
  rw [this]
  exact h

theorem Rep.addTail (h : Rep d f) (hx : ∀ k', x ∉ f k') :
    Rep (d.addTail k x) (update f k (f k ++ [x])) := by
  have htail := h.tail_eq k
  have hmem : ∀ {k' y}, y ∈ update f k (f k ++ [x]) k' ↔ y ∈ f k' ∨ (k' = k ∧ y = x) := by
    intro k' y
    by_cases hkk : k' = k
    · subst hkk
      simp
    · simp [hkk]
  have hprev : ∀ y, y ≠ x → update d.prev x (d.tail k) y = d.prev y :=
    fun y hy => update_of_ne hy _ _
  -- only the old tail of list `k` and the new node get a new link
  have hnext : ∀ y, y ≠ x → y ∉ f k → (d.addTail k x).next y = d.next y := by
    intro y hyx hyk
    have hset : (d.addTail k x).next y = update d.next x none y :=
      setLink_of_ne fun t ht => by
        rintro rfl
        exact hyk (List.mem_of_getLast? (htail ▸ ht))
    rw [hset, update_of_ne hyx]
  constructor
  · intro k'
    by_cases hkk : k' = k
    · subst hkk
      rw [Function.update_self]
      rcases List.eq_nil_or_concat (f k') with hnil | ⟨l, t, hl⟩
      · have hh : d.head k' = none := by rw [h.head_eq, hnil]; rfl
        have ht : d.tail k' = none := by rw [htail, hnil]; rfl
        simp [DLists.addTail, setLink, hnil, hh, ht]
      · rw [List.concat_eq_append] at hl
        have hh : d.head k' ≠ none := by
          rw [h.head_eq, hl]
          cases l <;> simp
        have ht : d.tail k' = some t := by rw [htail, hl]; simp
        have htl : t ∉ l := by
          have := h.nodup k'
          rw [hl] at this
          exact fun hm => List.disjoint_of_nodup_append this hm (by simp)
        have htx : x ≠ t := by rintro rfl; exact hx k' (by rw [hl]; simp)
        have hs := (hl ▸ h.fwd k').congr (m := update d.next x none) fun y hy =>
          update_of_ne (by rintro rfl; exact hx k' (by rw [hl]; exact hy)) _ _
        have hs' := hs.redirect (e := some x) htl
        rw [hl]
        refine seg_append.mpr ⟨some x, ?_, rfl, ?_⟩
        · simpa [DLists.addTail, setLink, hh, ht] using hs'
        · simp [DLists.addTail, setLink, ht, update_of_ne htx]
    · have hhead : (d.addTail k x).head k' = d.head k' := by
        simp only [DLists.addTail]
        split
        · exact update_of_ne hkk _ _
        · rfl
      rw [hhead, update_of_ne hkk]
      exact (h.fwd k').congr fun y hy =>
        hnext y (by rintro rfl; exact hx k' hy) fun hy' => hkk (h.apart hy hy')
  · intro k'
    by_cases hkk : k' = k
    · subst hkk
      rw [Function.update_self, List.reverse_append]
      refine ⟨by simp [DLists.addTail], ?_⟩
      show Seg (update d.prev x (d.tail k')) (update d.prev x (d.tail k') x) _ none
      rw [Function.update_self]
      exact (h.bwd k').congr fun y hy =>
        hprev y (by rintro rfl; exact hx k' (List.mem_reverse.mp hy))
    · have htl : (d.addTail k x).tail k' = d.tail k' := update_of_ne hkk _ _
      rw [htl, update_of_ne hkk]
      exact (h.bwd k').congr fun y hy =>
        hprev y (by rintro rfl; exact hx k' (List.mem_reverse.mp hy))
  · intro k'
    by_cases hkk : k' = k
    · subst hkk
      rw [Function.update_self]
      exact List.nodup_append.mpr ⟨h.nodup k', by simp, by
        rintro a ha b hb rfl
        exact hx k' (List.mem_singleton.mp hb ▸ ha)⟩
    · rw [update_of_ne hkk]
      exact h.nodup k'
  · intro k₁ k₂ y hy₁ hy₂
    rcases hmem.mp hy₁ with h₁ | ⟨rfl, rfl⟩
    · rcases hmem.mp hy₂ with h₂ | ⟨rfl, rfl⟩
      · exact h.apart h₁ h₂
      · exact absurd h₁ (hx k₁)
    · rcases hmem.mp hy₂ with h₂ | ⟨rfl, -⟩
      · exact absurd h₂ (hx k₂)
      · rfl
  · intro y hy
    have hyx : y ≠ x := by
      rintro rfl
      exact hy k (hmem.mpr (Or.inr ⟨rfl, rfl⟩))
    have hout : ∀ k', y ∉ f k' := fun k' hy' => hy k' (hmem.mpr (Or.inl hy'))
    have := h.outside hout
    exact ⟨(hprev y hyx).trans this.1, (hnext y hyx (hout k)).trans this.2⟩

theorem Rep.detach_eq (h : Rep d f) (hx : x ∈ f k) : d.detach k x = d.remove k x := by
  obtain ⟨l, r, hk⟩ := List.append_of_mem hx
  obtain ⟨hprev, hnext⟩ := h.links hk
  have hnd : (l ++ x :: r).Nodup := hk ▸ h.nodup k
  have hxl : x ∉ l := fun hm => List.disjoint_of_nodup_append hnd hm (by simp)
  have hxr : x ∉ r := (List.nodup_cons.mp (List.nodup_append.mp hnd).2.1).1
  have hstay : setLink d.next (d.prev x) (d.next x) x = d.next x := by
    refine setLink_of_ne fun q hq => ?_
    rintro rfl
    exact hxl (List.mem_of_getLast? (hprev.symm.trans hq))
  have hhead : d.head k = some x → d.prev x = none := by
    intro hh
    rw [h.head_eq, hk] at hh
    cases l with
    | nil => exact hprev
    | cons a l =>
        obtain rfl : a = x := by simpa using hh
        exact absurd List.mem_cons_self hxl
  have htail : d.tail k = some x → d.next x = none := by
    intro ht
    rw [h.tail_eq, hk] at ht
    rcases List.eq_nil_or_concat r with rfl | ⟨r', y, rfl⟩
    · exact hnext
    · obtain rfl : y = x := by
        rw [List.concat_eq_append, ← List.cons_append, ← List.append_assoc,
          List.getLast?_concat] at ht
        exact Option.some.inj ht
      exact absurd (by simp) hxr
  simp only [DLists.detach, DLists.remove, hstay, DLists.mk.injEq, and_true]
  refine ⟨?_, ?_⟩
  · by_cases hh : d.head k = some x
    · rw [if_pos ⟨hhead hh, hh⟩, if_pos hh]
    · rw [if_neg fun hc => hh hc.2, if_neg hh]
  · by_cases ht : d.tail k = some x
    · rw [if_pos ⟨htail ht, ht⟩, if_pos ht]
    · rw [if_neg fun hc => ht hc.2, if_neg ht]

theorem Rep.attachTail_eq (h : Rep d f) : d.attachTail k x = d.addTail k x := by
  have hiff : d.tail k = none ↔ d.head k = none := by
    rw [h.tail_eq, h.head_eq]
    simp
  simp only [DLists.attachTail, DLists.addTail, hiff]

omit [DecidableEq ι] in
theorem Rep.clearHead (h : Rep d f) (hk : f k = []) : Rep (d.clearHead k) f := by
  have hh : d.head k = none := by rw [h.head_eq, hk]; rfl
  have ht : d.tail k = none := by rw [h.tail_eq, hk]; rfl
  have : d.clearHead k = d := by
    simp only [DLists.clearHead]
    rw [← hh, Function.update_eq_self, hh, ← ht, Function.update_eq_self]
  rw [this]
  exact h

/-- Moving a node to the tail of its list. -/
theorem Rep.toTail (h : Rep d f) (hx : x ∈ f k) :
    Rep ((d.remove k x).addTail k x) (update f k ((f k).erase x ++ [x])) := by
  have hout : ∀ j, x ∉ update f k ((f k).erase x) j := by
    intro j
    rcases eq_or_ne j k with rfl | hj
    · rw [Function.update_self]
      exact (h.nodup j).not_mem_erase
    · rw [Function.update_of_ne hj]
      exact fun hm => hj (h.apart hm hx)
  have := (h.remove hx).addTail (k := k) hout
  rwa [Function.update_self, Function.update_idem] at this

/-- Moving a node to the tail of its list, unless it is there. -/
theorem Rep.touchIn (h : Rep d f) (hx : x ∈ f k) :
    Rep (if d.tail k = some x then d else (d.remove k x).addTail k x)
      (update f k ((f k).erase x ++ [x])) := by
  split
  · rename_i ht
    rw [h.tail_eq k, List.getLast?_eq_some_iff] at ht
    obtain ⟨r, hr⟩ := ht
    have hxr : x ∉ r := fun hm => by
      have := List.nodup_append.mp (hr ▸ h.nodup k)
      exact this.2.2 x hm x (by simp) rfl
    have heq : (f k).erase x ++ [x] = f k := by
      rw [hr, List.erase_append_right _ hxr, List.erase_cons_head, List.append_nil]
    rwa [heq, Function.update_eq_self]
  · exact h.toTail hx

/-! ### A single list -/

section Single

variable {d : DLists Unit ι} {l : List ι}

theorem Rep.removeOne (h : Rep d fun _ => l) (hx : x ∈ l) :
    Rep (d.remove () x) fun _ => l.erase x := by
  have := h.remove (k := ()) hx
  rwa [show update (fun _ : Unit => l) () (l.erase x) = fun _ => l.erase x from
    funext fun _ => rfl] at this

theorem Rep.addOne (h : Rep d fun _ => l) (hx : x ∉ l) :
    Rep (d.addTail () x) fun _ => l ++ [x] := by
  have := h.addTail (k := ()) fun _ => hx
  rwa [show update (fun _ : Unit => l) () (l ++ [x]) = fun _ => l ++ [x] from
    funext fun _ => rfl] at this

/-- Moving a node to the tail. -/
theorem Rep.moveToTail (h : Rep d fun _ => l) (hx : x ∈ l) :
    Rep ((d.remove () x).addTail () x) fun _ => l.erase x ++ [x] :=
  (h.removeOne hx).addOne fun hm => (h.nodup ()).not_mem_erase hm

/-- Moving a node to the tail, unless it is there. -/
theorem Rep.touch (h : Rep d fun _ => l) (hx : x ∈ l) :
    Rep (if d.tail () = some x then d else (d.remove () x).addTail () x)
      fun _ => l.erase x ++ [x] := by
  split
  · rename_i ht
    rw [h.tail_eq (), List.getLast?_eq_some_iff] at ht
    obtain ⟨r, rfl⟩ := ht
    have hr : x ∉ r := fun hm => by
      have := List.nodup_append.mp (h.nodup ())
      exact this.2.2 x hm x (by simp) rfl
    rwa [List.erase_append_right _ hr, List.erase_cons_head, List.append_nil]
  · exact h.moveToTail hx

end Single

end Surgery

/-- The pointers determine the lists. -/
theorem Rep.unique {d : DLists κ ι} {f g : κ → List ι} (h : Rep d f) (h' : Rep d g) (k : κ) :
    f k = g k :=
  (h.walk_eq k (Nat.le_max_left (f k).length (g k).length)).symm.trans
    (h'.walk_eq k (Nat.le_max_right _ _))

end DLists

end Lib

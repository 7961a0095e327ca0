/-
# Bpf2Socks.Udp.Ledger — what the lists of the binding table say.

`BindTable.Inv` says how the pointers and counters of the table fit together.  A `Ledger` is what
they stand for: the order of the bindings on the worker's LRU, on the sessions' LRUs and on the
sessions' own lists, and the records.  Every operation on the table is an operation on the ledger.

`Orderly P` says that a property of ledgers is kept by the operations every part of the worker uses.
Such a property may depend on a set `F` of bindings that are *at hand*: those replies are being
delivered for, which may be touched and stamped.
-/
import Bpf2Socks.Udp.Closing
import Bpf2Socks.Udp.Serving

namespace Bpf2Socks.Udp

open Function (update update_self update_of_ne)

/-- Records that agree on use, owner, destination, token and when the binding was last seen. -/
structure SameUse (c c' : Binding) : Prop where
  used : c'.used = c.used
  owner : c'.owner = c.owner
  dst : c'.originalDst = c.originalDst
  token : c'.tokenAddr = c.tokenAddr
  seen : c'.lastSeenMs = c.lastSeenMs

theorem SameUse.refl (c : Binding) : SameUse c c := ⟨rfl, rfl, rfl, rfl, rfl⟩

theorem SameUse.trans {c c' c'' : Binding} (h : SameUse c c') (h' : SameUse c' c'') :
    SameUse c c'' :=
  ⟨h'.used.trans h.used, h'.owner.trans h.owner, h'.dst.trans h.dst, h'.token.trans h.token,
    h'.seen.trans h.seen⟩

/-- The worker's LRU, the sessions' LRUs and lists, and the records. -/
structure Ledger where
  lru : List Nat
  olru : Nat → List Nat
  owned : Nat → List Nat
  core : Nat → Binding

namespace Ledger

/-! ## Operations -/

/-- Replace a record. -/
def write (g : Ledger) (b : Nat) (c : Binding) : Ledger := { g with core := update g.core b c }

/-- A binding is seen. -/
def stamp (g : Ledger) (b now : Nat) : Ledger := g.write b { g.core b with lastSeenMs := now }

/-- A binding of session `k` goes to the end of both LRUs. -/
def touch (g : Ledger) (k b : Nat) : Ledger :=
  { g with lru := g.lru.erase b ++ [b], olru := update g.olru k ((g.olru k).erase b ++ [b]) }

/-- A binding of session `k` is destroyed. -/
def drop (g : Ledger) (k b : Nat) : Ledger :=
  { lru := g.lru.erase b, olru := update g.olru k ((g.olru k).erase b)
    owned := update g.owned k ((g.owned k).erase b), core := update g.core b .zero }

/-- A binding is made for session `k`. -/
def add (g : Ledger) (k b : Nat) (c : Binding) : Ledger :=
  { lru := g.lru ++ [b], olru := update g.olru k (g.olru k ++ [b])
    owned := update g.owned k (b :: g.owned k), core := update g.core b c }

/-- `g` is what table `t` stands for. -/
structure Of (g : Ledger) (t : BindTable) : Prop where
  inv : t.Inv none g.lru g.olru
  owned : g.owned = t.owned
  core : g.core = t.core

/-- `g` is what some table stands for. -/
def Whole (g : Ledger) : Prop := ∃ t, g.Of t

variable {g : Ledger} {t : BindTable} {k b : Nat} {c : Binding}

/-! ## The table's operations -/

theorem Of.whole (h : g.Of t) : g.Whole := ⟨t, h⟩

theorem Of.used (h : g.Of t) : b ∈ g.lru ↔ (t.core b).used = true := by
  rw [h.inv.mem_lru]
  simp

theorem Of.write (h : g.Of t) (hu : c.used = (t.core b).used) (ho : c.owner = (t.core b).owner)
    (hd : c.originalDst = (t.core b).originalDst) :
    (g.write b c).Of { t with core := update t.core b c } := by
  refine ⟨h.inv.modify (f := fun _ => c) hu ho hd, h.owned, ?_⟩
  show update g.core b c = _
  rw [h.core]

theorem Of.congr (h : g.Of t) {core : Nat → Binding} (hc : ∀ b, SameUse (t.core b) (core b)) :
    ({ g with core := core } : Ledger).Of { t with core := core } :=
  ⟨h.inv.congr_core (fun b => (hc b).used) (fun b => (hc b).owner) fun b => (hc b).dst, h.owned,
    rfl⟩

theorem Of.touch (h : g.Of t) (hb : b ∈ g.lru) (ho : (t.core b).owner = some k) :
    (g.touch k b).Of (t.lruTouch k b) :=
  ⟨h.inv.lruTouch hb ho, h.owned, h.core⟩

theorem Of.drop (h : g.Of t) (hb : b ∈ g.lru) (ho : (t.core b).owner = some k) :
    (g.drop k b).Of (t.destroyed k b) := by
  refine ⟨((h.inv.detach hb ho).clear).pushFree (by simp [BindTable.clear, Binding.zero]), ?_, ?_⟩
  · show update g.owned k _ = (t.detach k b).owned
    rw [h.owned, BindTable.detach_owned]
  · funext x
    rw [BindTable.destroyed_core]
    show update g.core b .zero x = _
    rw [h.core]
    rcases eq_or_ne x b with rfl | hx
    · rw [update_self, if_pos rfl]
    · rw [update_of_ne hx, if_neg hx]

theorem Of.clearOwner (h : g.Of t) (hk : t.owned k = []) :
    g.Of { t with
      owned := update t.owned k []
      ownedLru := t.ownedLru.clearHead k
      ownedCount := update t.ownedCount k 0 } := by
  refine ⟨h.inv.clearOwner hk, ?_, h.core⟩
  rw [h.owned, ← hk, Function.update_eq_self]

end Ledger

/-- The table with its first free slot taken and the record filled. -/
def BindTable.filled (t : BindTable) (b : Nat) (rest : List Nat) (c : Binding) : BindTable :=
  { t.clear b with free := rest, core := update t.core b c }

/-- The table after a filled slot was given back. -/
def BindTable.emptied (t : BindTable) (b : Nat) (rest : List Nat) (c : Binding) : BindTable :=
  { (t.filled b rest c).clear b with free := b :: rest }

namespace Ledger

variable {g : Ledger} {t t' : BindTable} {k b : Nat} {rest : List Nat} {c : Binding}

theorem Of.filled (h : g.Of t) (hf : t.free = b :: rest) :
    (t.filled b rest c).Inv (some b) g.lru g.olru := by
  have hi := ((h.inv.pop hf).clear).set_hole c
  simp only [BindTable.clear, Function.update_idem] at hi
  exact hi

theorem Of.fresh (h : g.Of t) (hf : t.free = b :: rest) : b ∉ g.lru :=
  (h.inv.pop hf).hole_not_mem

theorem Of.emptied (h : g.Of t) (hf : t.free = b :: rest) :
    (g.write b .zero).Of (t.emptied b rest c) := by
  refine ⟨((h.filled hf (c := c)).clear).pushFree (by simp [BindTable.clear, Binding.zero]),
    h.owned, ?_⟩
  show update g.core b .zero = update (update t.core b c) b .zero
  rw [Function.update_idem, h.core]

/-- Putting a slot into the index needs a destination that can be in it. -/
theorem indexInsert_valid (hi : t.indexInsert b = some t') :
    validOriginal (t.core b).originalDst = true := by
  unfold BindTable.indexInsert at hi
  split at hi
  · cases hi
  · split at hi
    · rename_i hv
      simp only [Bool.and_eq_true] at hv
      exact hv.2
    · cases hi

theorem indexInsert_keeps (hi : t.indexInsert b = some t') :
    t'.owned = t.owned ∧ t'.core = t.core := by
  unfold BindTable.indexInsert at hi
  split at hi
  · cases hi
  · split at hi
    · dsimp only at hi
      split at hi
      · cases hi
      · cases hi
        exact ⟨rfl, rfl⟩
    · cases hi

theorem Of.add (h : g.Of t) (hf : t.free = b :: rest) (hu : c.used = true)
    (ho : c.owner = some k)
    (hnew : ∀ x ∈ g.lru, (g.core x).owner = some k →
      sameDst (g.core x).originalDst c.originalDst = false)
    (hi : (t.filled b rest c).indexInsert b = some t') : (g.add k b c).Of (t'.attach k b) := by
  have hb : (t.filled b rest c).core b = c := update_self _ _ _
  have hne : ∀ x ∈ g.lru, (t.filled b rest c).core x = g.core x := by
    intro x hx
    rw [h.core]
    exact update_of_ne (by rintro rfl; exact h.fresh hf hx) _ _
  obtain ⟨howned, hcore⟩ := indexInsert_keeps hi
  refine ⟨(h.filled hf).attach (by rw [hb, hu]) (by rw [hb, ho]) (indexInsert_valid hi) ?_ hi, ?_, ?_⟩
  · intro x hx hxo
    rw [hne x hx] at hxo ⊢
    rw [hb]
    exact hnew x hx hxo
  · show update g.owned k _ = update t'.owned k (b :: t'.owned k)
    rw [howned, h.owned]
    rfl
  · show update g.core b c = t'.core
    rw [hcore, h.core]
    rfl

end Ledger

/-! ## Properties of ledgers -/

/-- A property of ledgers that the operations on bindings keep.  Those in `F` are at hand. -/
structure Orderly (P : (Nat → Prop) → Ledger → Prop) : Prop where
  congr : ∀ {F : Nat → Prop} {g : Ledger} {core : Nat → Binding}, g.Whole →
    (∀ b ∈ g.lru, SameUse (g.core b) (core b)) → P F g → P F { g with core := core }
  fewer : ∀ {F F' : Nat → Prop} {g : Ledger}, (∀ b, F' b → F b) → P F g → P F' g
  welcome : ∀ {F : Nat → Prop} {g : Ledger} {b : Nat}, bindingHasToken (g.core b) = false → P F g →
    P (fun x => F x ∨ x = b) g
  drop : ∀ {F : Nat → Prop} {g : Ledger} {k b : Nat}, g.Whole → b ∈ g.lru →
    (g.core b).owner = some k → P F g → P F (g.drop k b)
  add : ∀ {F : Nat → Prop} {g : Ledger} {k b : Nat} {c : Binding}, g.Whole → b ∉ g.lru →
    c.used = true → c.owner = some k →
    (∀ x ∈ g.lru, (g.core x).lastSeenMs ≤ c.lastSeenMs) →
    (∀ x, ¬F x) ∨ bindingHasToken c = false → P F g → P F (g.add k b c)
  touch : ∀ {F : Nat → Prop} {g : Ledger} {k b : Nat}, g.Whole → F b → b ∈ g.lru →
    (g.core b).owner = some k → P F g → P F (g.touch k b)
  stamp : ∀ {F : Nat → Prop} {g : Ledger} {b now : Nat}, g.Whole → F b → b ∈ g.lru →
    (∀ x ∈ g.lru, (g.core x).lastSeenMs ≤ now) → P F g → P F (g.stamp b now)

end Bpf2Socks.Udp

/-
# Bpf2Socks.Lib.Cost — how much room a script takes, added up from its parts.

A script is tidy (`Lib.Link`) if it fits the buffer and the lists of its builder.  `Within` bounds
what a part of a script costs, wherever it stands: how many instructions it emits, how much room its
jumps need on each list, before the list is patched and after, how many of them wait when it is done,
and which lists it empties.  Costs of parts that follow each other add up (`seq`); of two parts one
of which is there, the larger counts (`sup`).  `Cost.of` is what a script costs call by call.
-/
import Bpf2Socks.Lib.Link

namespace Lib

namespace Asm

/-! ## Costs -/

/-- How many instructions a script emits at most; and for each list, how much room its jumps need on
top of those that wait before it (`need`) and once these are patched (`peak`), how many may wait
after it, and whether those that waited before it are patched (`clear`). -/
structure Cost (L : Type) where
  size : Nat
  need : L → Nat
  peak : L → Nat
  leave : L → Nat
  clear : L → Bool

namespace Cost

variable {I C L : Type} [DecidableEq L]

/-- What no call costs. -/
def none : Cost L := ⟨0, fun _ => 0, fun _ => 0, fun _ => 0, fun _ => false⟩

/-- One script after another. -/
def seq (c d : Cost L) : Cost L where
  size := c.size + d.size
  need l := if c.clear l then c.need l else max (c.need l) (c.leave l + d.need l)
  peak l := max (max (c.peak l) (d.peak l)) (if c.clear l then c.leave l + d.need l else 0)
  leave l := if d.clear l then d.leave l else c.leave l + d.leave l
  clear l := c.clear l || d.clear l

/-- One script or another. -/
def sup (c d : Cost L) : Cost L where
  size := max c.size d.size
  need l := max (c.need l) (d.need l)
  peak l := max (c.peak l) (d.peak l)
  leave l := max (c.leave l) (d.leave l)
  clear l := c.clear l && d.clear l

/-- Some jumps of one list. -/
def jumps (k : Nat) (l : L) : Cost L where
  size := k
  need l' := if l' = l then k else 0
  peak _ := 0
  leave l' := if l' = l then k else 0
  clear _ := false

/-- One call. -/
def line : Line I C L → Cost L
  | .op _ => { none with size := 1 }
  | .jump _ l => jumps 1 l
  | .label l => { none with clear := fun l' => l' = l }

/-- The calls of a script, one after another; only jumps and labels matter to the lists. -/
def of : List (Line I C L) → Cost L
  | [] => none
  | .op _ :: rest => { of rest with size := (of rest).size + 1 }
  | .jump c l :: rest => (line (.jump c l : Line I C L)).seq (of rest)
  | .label l :: rest => (line (.label l : Line I C L)).seq (of rest)

/-- A script that costs `c` costs at most `d`. -/
structure Le (c d : Cost L) : Prop where
  size : c.size ≤ d.size
  need : ∀ l, c.need l ≤ d.need l
  peak : ∀ l, c.peak l ≤ d.peak l
  leave : ∀ l, c.leave l ≤ d.leave l
  clear : ∀ l, d.clear l = true → c.clear l = true

/-- The test of `Le`, on these lists. -/
def le (all : List L) (c d : Cost L) : Bool :=
  Nat.ble c.size d.size && all.all fun l =>
    Nat.ble (c.need l) (d.need l) && Nat.ble (c.peak l) (d.peak l) &&
      Nat.ble (c.leave l) (d.leave l) && (!d.clear l || c.clear l)

omit [DecidableEq L] in
theorem le_iff {all : List L} (hall : ∀ l, l ∈ all) {c d : Cost L} : le all c d = true ↔ Le c d := by
  simp only [le, Bool.and_eq_true, Nat.ble_eq, List.all_eq_true, Bool.or_eq_true,
    Bool.not_eq_true']
  refine ⟨fun h => ⟨h.1, fun l => (h.2 l (hall l)).1.1.1, fun l => (h.2 l (hall l)).1.1.2,
    fun l => (h.2 l (hall l)).1.2, ?_⟩,
    fun h => ⟨h.size, fun l _ => ⟨⟨⟨h.need l, h.peak l⟩, h.leave l⟩, ?_⟩⟩⟩
  · intro l hl
    rcases (h.2 l (hall l)).2 with hd | hc
    · rw [hl] at hd
      cases hd
    · exact hc
  · rcases hd : d.clear l with _ | _
    · exact .inl rfl
    · exact .inr (h.clear l hd)

/-- The lists a script has something to do with. -/
def mentioned : List (Line I C L) → List L
  | [] => []
  | .op _ :: rest => mentioned rest
  | .jump _ l :: rest => l :: mentioned rest
  | .label l :: rest => l :: mentioned rest

/-- The other lists cost nothing. -/
theorem of_unmentioned {A : List (Line I C L)} {l : L} (h : l ∉ mentioned A) :
    (of A).need l = 0 ∧ (of A).peak l = 0 ∧ (of A).leave l = 0 := by
  induction A with
  | nil => exact ⟨rfl, rfl, rfl⟩
  | cons call A ih =>
      cases call with
      | op i => exact ih h
      | jump x l' =>
          obtain ⟨hl, hA⟩ := not_or.mp (mt List.mem_cons.mpr h)
          obtain ⟨hneed, hpeak, hleave⟩ := ih hA
          simp [of, seq, line, jumps, if_neg hl, hneed, hpeak, hleave]
      | label l' =>
          obtain ⟨hl, hA⟩ := not_or.mp (mt List.mem_cons.mpr h)
          obtain ⟨hneed, hpeak, hleave⟩ := ih hA
          simp [of, seq, line, none, hl, hneed, hpeak, hleave]

/-- The test that a script costs at most `c`: it only looks at lists the script mentions. -/
def test (all : List L) (A : List (Line I C L)) (c : Cost L) : Bool :=
  Nat.ble (of A).size c.size &&
    ((mentioned A).all fun l => Nat.ble ((of A).need l) (c.need l) &&
      Nat.ble ((of A).peak l) (c.peak l) && Nat.ble ((of A).leave l) (c.leave l)) &&
    all.all fun l => !c.clear l || (of A).clear l

theorem le_of_test {all : List L} (hall : ∀ l, l ∈ all) {A : List (Line I C L)} {c : Cost L}
    (h : test all A c = true) : Le (of A) c := by
  simp only [test, Bool.and_eq_true, Nat.ble_eq, List.all_eq_true] at h
  obtain ⟨⟨hsize, hlists⟩, hclear⟩ := h
  have hmentioned : ∀ l, (of A).need l ≤ c.need l ∧ (of A).peak l ≤ c.peak l ∧
      (of A).leave l ≤ c.leave l := by
    intro l
    by_cases hl : l ∈ mentioned A
    · obtain ⟨⟨hneed, hpeak⟩, hleave⟩ := hlists l hl
      exact ⟨hneed, hpeak, hleave⟩
    · obtain ⟨hneed, hpeak, hleave⟩ := of_unmentioned hl
      rw [hneed, hpeak, hleave]
      exact ⟨Nat.zero_le _, Nat.zero_le _, Nat.zero_le _⟩
  refine ⟨hsize, fun l => (hmentioned l).1, fun l => (hmentioned l).2.1,
    fun l => (hmentioned l).2.2, fun l hl => ?_⟩
  have := hclear l (hall l)
  rwa [hl, Bool.not_true, Bool.false_or] at this

end Cost

/-- All the room there is, and no jump waiting at the end. -/
def Limits.full {L : Type} (lim : Limits L) : Cost L where
  size := lim.buffer
  need := lim.list
  peak := lim.list
  leave _ := 0
  clear _ := false

variable {I C L : Type} [DecidableEq L] {form : Form I C}

/-! ## What a script costs -/

/-- The number of instructions a script emits. -/
def emitted : List (Line I C L) → Nat
  | [] => 0
  | .op _ :: rest => emitted rest + 1
  | .jump _ _ :: rest => emitted rest + 1
  | .label _ :: rest => emitted rest

theorem length_assemble (script : List (Line I C L)) : (assemble script).length = emitted script := by
  induction script with
  | nil => rfl
  | cons line script ih => cases line <;> simp [assemble, emitted, ih]

omit [DecidableEq L] in
theorem emitted_append (A B : List (Line I C L)) : emitted (A ++ B) = emitted A + emitted B := by
  induction A with
  | nil => simp [emitted]
  | cons line A ih =>
      cases line <;> simp only [List.cons_append, emitted, ih]
      · omega
      · omega

/-- Script `A` needs no more room than `c` says. -/
structure Spends (cap : L → Nat) (A : List (Line I C L)) (c : Cost L) : Prop where
  size : emitted A ≤ c.size
  lists : ∀ l n, n + c.need l ≤ cap l → c.peak l ≤ cap l →
    ∃ m, m ≤ (if c.clear l then 0 else n) + c.leave l ∧ level cap l A n = some m

variable {cap : L → Nat} {A B : List (Line I C L)} {c d : Cost L}

namespace Spends

theorem mono (h : Spends cap A c) (hle : c.Le d) : Spends cap A d := by
  refine ⟨Nat.le_trans h.size hle.size, fun l n hroom hpeak => ?_⟩
  obtain ⟨m, hm, hlevel⟩ := h.lists l n (Nat.le_trans (Nat.add_le_add_left (hle.need l) n) hroom)
    (Nat.le_trans (hle.peak l) hpeak)
  refine ⟨m, Nat.le_trans hm (Nat.add_le_add ?_ (hle.leave l)), hlevel⟩
  rcases hd : d.clear l with _ | _
  · split
    · exact Nat.zero_le n
    · exact Nat.le_refl n
  · rw [hle.clear l hd]

theorem nil : Spends cap ([] : List (Line I C L)) Cost.none :=
  ⟨Nat.le_refl 0, fun _ n _ _ => ⟨n, Nat.le_refl n, rfl⟩⟩

/-- **Costs add up.** -/
theorem append (hA : Spends cap A c) (hB : Spends cap B d) : Spends cap (A ++ B) (c.seq d) := by
  refine ⟨?_, fun l n hroom hpeak => ?_⟩
  · rw [emitted_append]
    exact Nat.add_le_add hA.size hB.size
  · have hroom' : n + (if c.clear l then c.need l else max (c.need l) (c.leave l + d.need l)) ≤
        cap l := hroom
    have hpeak' : max (max (c.peak l) (d.peak l)) (if c.clear l then c.leave l + d.need l else 0) ≤
        cap l := hpeak
    -- the first script leaves the room the second one needs
    have hfirst : n + c.need l ≤ cap l ∧
        (if c.clear l then 0 else n) + c.leave l + d.need l ≤ cap l := by
      split at hroom' <;> rename_i hc
      · rw [if_pos hc] at hpeak'
        rw [if_pos hc]
        omega
      · rw [if_neg hc]
        omega
    obtain ⟨m, hm, hlevel⟩ := hA.lists l n hfirst.1 (by omega)
    obtain ⟨m', hm', hlevel'⟩ := hB.lists l m (by omega) (by omega)
    refine ⟨m', ?_, by rw [level_append, hlevel]; exact hlevel'⟩
    show m' ≤ (if c.clear l || d.clear l then 0 else n) +
      if d.clear l then d.leave l else c.leave l + d.leave l
    rcases hd : d.clear l with _ | _
    · rw [hd, if_neg Bool.false_ne_true] at hm'
      rw [Bool.or_false, if_neg Bool.false_ne_true]
      omega
    · rw [hd, if_pos rfl] at hm'
      rw [Bool.or_true, if_pos rfl, if_pos rfl]
      exact hm'

/-- One call. -/
theorem line (call : Line I C L) : Spends cap [call] (Cost.line call) := by
  cases call with
  | op i => exact ⟨Nat.le_refl 1, fun l n _ _ => ⟨n, Nat.le_refl n, rfl⟩⟩
  | label l =>
      refine ⟨Nat.le_refl 0, fun l' n _ _ => ⟨_, ?_, rfl⟩⟩
      show (if l = l' then 0 else n) ≤ (if decide (l' = l) then 0 else n) + 0
      by_cases hl : l = l'
      · rw [if_pos hl]
        exact Nat.zero_le _
      · rw [if_neg hl, if_neg fun h => hl (of_decide_eq_true h).symm]
        exact Nat.le_refl n
  | jump x l =>
      refine ⟨Nat.le_refl 1, fun l' n hroom _ => ?_⟩
      have hroom' : n + (if l' = l then 1 else 0) ≤ cap l' := hroom
      show ∃ m, m ≤ n + (if l' = l then 1 else 0) ∧ level cap l' [.jump x l] n = some m
      by_cases hl : l' = l
      · rw [if_pos hl] at hroom' ⊢
        have hlt : n < cap l' := hroom'
        refine ⟨n + 1, Nat.le_refl _, ?_⟩
        rw [level, if_pos hl.symm, if_pos hlt, level]
      · rw [if_neg hl]
        refine ⟨n, Nat.le_refl n, ?_⟩
        rw [level, if_neg fun h => hl h.symm, level]

/-- A script costs what its calls cost. -/
theorem of (A : List (Line I C L)) : Spends cap A (Cost.of A) := by
  induction A with
  | nil => exact nil
  | cons call A ih =>
      cases call with
      | op i => exact ⟨Nat.succ_le_succ ih.size, ih.lists⟩
      | jump x l => exact (line (.jump x l)).append ih
      | label l => exact (line (.label l)).append ih

end Spends

/-! ## Parts of a program -/

variable (form) in
/-- Script `A` costs at most `c`, and splits no double instruction. -/
structure Within (cap : L → Nat) (A : List (Line I C L)) (c : Cost L) : Prop where
  paired : paired form false A = true
  spends : Spends cap A c

omit [DecidableEq L] in
theorem paired_append {first : Bool} (hA : paired form first A = true)
    (hB : paired form false B = true) : paired form first (A ++ B) = true := by
  induction A generalizing first with
  | nil =>
      cases first with
      | false => exact hB
      | true => cases hA
  | cons line A ih =>
      cases line <;> simp only [List.cons_append, paired, Bool.and_eq_true] at hA ⊢ <;>
        exact ⟨hA.1, ih hA.2⟩

omit [DecidableEq L] in
theorem finishes_append (hB : finishes form B = true) : finishes form (A ++ B) = true := by
  have hne : B ≠ [] := by
    rintro rfl
    cases hB
  rwa [finishes, List.getLast?_append_of_ne_nil A hne]

namespace Within

theorem nil : Within form cap ([] : List (Line I C L)) Cost.none := ⟨rfl, .nil⟩

/-- A part that is written out. -/
theorem block (all : List L) (hall : ∀ l, l ∈ all) (hp : Asm.paired form false A = true)
    (hc : Cost.test all A c = true) : Within form cap A c :=
  ⟨hp, (Spends.of A).mono (Cost.le_of_test hall hc)⟩

theorem append (hA : Within form cap A c) (hB : Within form cap B d) :
    Within form cap (A ++ B) (c.seq d) :=
  ⟨paired_append hA.paired hB.paired, hA.spends.append hB.spends⟩

theorem mono (h : Within form cap A c) (hle : c.Le d) : Within form cap A d :=
  ⟨h.paired, h.spends.mono hle⟩

/-- Jumps of one list, one after another. -/
theorem jumps {α : Type} (xs : List α) (f : α → C) (l : L) {k : Nat} (hk : xs.length ≤ k) :
    Within form cap (xs.map fun x => .jump (f x) l) (Cost.jumps k l) := by
  induction xs generalizing k with
  | nil =>
      refine nil.mono ⟨Nat.zero_le k, fun _ => Nat.zero_le _, fun _ => Nat.le_refl 0,
        fun _ => Nat.zero_le _, fun _ h => h⟩
  | cons x xs ih =>
      obtain ⟨k, rfl⟩ : ∃ k', k = k' + 1 := ⟨k - 1, by rw [List.length_cons] at hk; omega⟩
      have hcall : Within form cap [.jump (f x) l] (Cost.jumps 1 l) := ⟨rfl, .line _⟩
      have hle : (Cost.seq (Cost.jumps 1 l) (Cost.jumps k l)).Le (Cost.jumps (k + 1) l) := by
        refine ⟨Nat.le_of_eq (Nat.add_comm 1 k), fun l' => ?_, fun _ => Nat.le_refl 0,
          fun l' => ?_, fun _ h => h⟩
        · show max (if l' = l then 1 else 0) ((if l' = l then 1 else 0) + if l' = l then k else 0) ≤
            if l' = l then k + 1 else 0
          split <;> omega
        · show ((if l' = l then 1 else 0) + if l' = l then k else 0) ≤ if l' = l then k + 1 else 0
          split <;> omega
      exact (hcall.append (ih (Nat.le_of_succ_le_succ hk))).mono hle

/-- Of two parts one is there. -/
theorem ite {P : Prop} [Decidable P] (hA : Within form cap A c) (hB : Within form cap B d) :
    Within form cap (if P then A else B) (c.sup d) := by
  split
  · refine ⟨hA.paired, hA.spends.mono ⟨Nat.le_max_left _ _, fun l => Nat.le_max_left _ _,
      fun l => Nat.le_max_left _ _, fun l => Nat.le_max_left _ _, fun l hl => ?_⟩⟩
    exact (Bool.and_eq_true_iff.mp hl).1
  · refine ⟨hB.paired, hB.spends.mono ⟨Nat.le_max_right _ _, fun l => Nat.le_max_right _ _,
      fun l => Nat.le_max_right _ _, fun l => Nat.le_max_right _ _, fun l hl => ?_⟩⟩
    exact (Bool.and_eq_true_iff.mp hl).2

/-- A script that costs no more than there is, and leaves nothing waiting. -/
theorem tidy {lim : Limits L} (h : Within form lim.list A lim.full)
    (hf : Asm.finishes form A = true) : Tidy form lim A := by
  refine ⟨?_, h.paired, hf, fun l => ?_⟩
  · rw [length_assemble]
    exact h.spends.size
  · obtain ⟨m, hm, hlevel⟩ := h.spends.lists l 0 (Nat.le_of_eq (Nat.zero_add _)) (Nat.le_refl _)
    rw [hlevel, Nat.le_zero.mp hm]

end Within

end Asm

end Lib

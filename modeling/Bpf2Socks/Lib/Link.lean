/-
# Bpf2Socks.Lib.Link — a builder with a buffer of fixed size, and what makes it link every jump.

`Lib.Asm` replays a script on a builder that has all the room it needs.  `replay` is the builder as a
program has it: the instructions go into an array, and are dropped once it is full; the jumps of a
list wait in an array, and a jump too many is written past its end (`none`); an offset is stored in
a signed 16-bit field.

A script is `Tidy` if it fits, leaves no jump waiting, splits no double instruction and ends by
leaving the program.  `replay_tidy` says that the code then is the code of the builder with all the
room, and `linked_tidy` that every path through it only goes forward and reaches an exit.
-/
import Bpf2Socks.Lib.Asm
import Mathlib.Order.Lattice
import Mathlib.Algebra.Group.Int.Defs
import Mathlib.Algebra.Group.Nat.Defs

namespace Lib

namespace Asm

open Function (update update_self update_of_ne)

variable {I C L : Type} [DecidableEq L]

/-! ## The builder -/

/-- The room there is for instructions, and for the jumps of each list. -/
structure Limits (L : Type) where
  buffer : Nat
  list : L → Nat

/-- An instruction of the buffer. -/
inductive Cell (I C : Type) where
  | op (i : I)
  | jump (c : C) (off : Int)
  deriving DecidableEq

/-- A number stored in a signed 16-bit field. -/
def wrap16 (x : Int) : Int := (BitVec.ofInt 16 x).toInt

/-- The buffer, whether an instruction was dropped, and the jumps that wait on each list. -/
structure Buffer (I C L : Type) where
  insns : List (Cell I C)
  overflow : Bool
  waiting : L → List Nat

/-- Write an instruction, if there is room. -/
def Buffer.emit (lim : Limits L) (b : Buffer I C L) (x : Cell I C) : Buffer I C L :=
  if b.insns.length < lim.buffer then { b with insns := b.insns ++ [x] }
  else { b with overflow := true }

/-- Write the offset of a jump. -/
def Cell.aim (off : Int) : Cell I C → Cell I C
  | .op i => .op i
  | .jump c _ => .jump c off

/-- Make the jump at position `j` land at `target`; `none` is a write outside the buffer. -/
def Buffer.patch (lim : Limits L) (target : Nat) (b : Buffer I C L) (j : Nat) :
    Option (Buffer I C L) :=
  if j < lim.buffer then
    some { b with insns := b.insns.modify j (Cell.aim (wrap16 ((target : Int) - j - 1))) }
  else none

/-- One call; `none` is a write outside an array. -/
def Buffer.add (lim : Limits L) (b : Buffer I C L) : Line I C L → Option (Buffer I C L)
  | .op i => some (b.emit lim (.op i))
  | .jump c l =>
      if (b.waiting l).length < lim.list l then
        some { b.emit lim (.jump c 0) with
          waiting := update b.waiting l (b.waiting l ++ [b.insns.length]) }
      else none
  | .label l =>
      ((b.waiting l).foldlM (Buffer.patch lim b.insns.length) b).map fun b' =>
        { b' with waiting := update b'.waiting l [] }

/-- What a script leaves in the buffer. -/
def replay (lim : Limits L) (script : List (Line I C L)) : Option (Buffer I C L) :=
  script.foldlM (Buffer.add lim) ⟨[], false, fun _ => []⟩

/-- An instruction of the builder with all the room, as the buffer holds it. -/
def Cell.of : Flat I C → Cell I C
  | .op i => .op i
  | .jump c off => .jump c off

/-! ## What the lists hold -/

/-- How many jumps wait on list `l` after a script, if they never need more than its room. -/
def level (cap : L → Nat) (l : L) : List (Line I C L) → Nat → Option Nat
  | [], n => some n
  | .op _ :: rest, n => level cap l rest n
  | .jump _ l' :: rest, n =>
      if l' = l then if n < cap l then level cap l rest (n + 1) else none else level cap l rest n
  | .label l' :: rest, n => level cap l rest (if l' = l then 0 else n)

theorem level_append (cap : L → Nat) (l : L) (A B : List (Line I C L)) (n : Nat) :
    level cap l (A ++ B) n = (level cap l A n).bind (level cap l B) := by
  induction A generalizing n with
  | nil => rfl
  | cons line A ih =>
      cases line with
      | op i => exact ih n
      | jump c l' =>
          simp only [List.cons_append, level]
          split
          · split
            · exact ih (n + 1)
            · rfl
          · exact ih n
      | label l' => exact ih _

/-! ## The two builders agree -/

theorem wrap16_of_lt {x : Int} (h₀ : 0 ≤ x) (h : x < 2 ^ 15) : wrap16 x = x := by
  rw [wrap16, BitVec.toInt_ofInt]
  exact Int.bmod_eq_of_le (by omega) (by omega)

/-- The buffer of `c` holds what the builder `b` with all the room holds. -/
structure Mirrors (b : Builder I C L) (c : Buffer I C L) : Prop where
  insns : c.insns = b.insns.map Cell.of
  waiting : c.waiting = b.waiting
  fits : c.overflow = false
  inside : ∀ l, ∀ j ∈ b.waiting l, j < b.insns.length

theorem Cell.of_aim (off : Nat) (f : Flat I C) :
    Cell.of (Asm.aim off f) = Cell.aim (off : Int) (Cell.of f) := by
  cases f <;> rfl

theorem map_patchJump (insns : List (Flat I C)) {j target : Nat} (hj : j < target)
    (ht : target ≤ 2 ^ 15) :
    (patchJump insns j target).map Cell.of =
      (insns.map Cell.of).modify j (Cell.aim (wrap16 ((target : Int) - j - 1))) := by
  have hoff : wrap16 ((target : Int) - j - 1) = ((target - j - 1 : Nat) : Int) := by
    rw [wrap16_of_lt (by omega) (by omega)]
    omega
  rw [patchJump, hoff]
  apply List.ext_getElem?
  intro i
  rw [List.getElem?_map, List.getElem?_modify, List.getElem?_modify, List.getElem?_map]
  rcases insns[i]? with _ | f
  · rfl
  · by_cases hi : j = i
    · simp [hi, Cell.of_aim]
    · simp [hi]

theorem length_patchJump (insns : List (Flat I C)) (j target : Nat) :
    (patchJump insns j target).length = insns.length := List.length_modify ..

omit [DecidableEq L] in
/-- Patching a list of jumps, on both builders. -/
theorem foldlM_patch (lim : Limits L) (hb : lim.buffer ≤ 2 ^ 15) {target : Nat}
    (ht : target ≤ lim.buffer) (js : List Nat) (hj : ∀ j ∈ js, j < target)
    (insns : List (Flat I C)) (c : Buffer I C L) (hc : c.insns = insns.map Cell.of) :
    js.foldlM (Buffer.patch lim target) c = some { c with
      insns := (js.foldl (fun insns j => patchJump insns j target) insns).map Cell.of } := by
  induction js generalizing insns c with
  | nil =>
      rw [List.foldlM_nil, List.foldl_nil, ← hc]
      rfl
  | cons j js ih =>
      have hlt : j < target := hj j List.mem_cons_self
      have hpatch : c.patch lim target j =
          some { c with insns := (patchJump insns j target).map Cell.of } := by
        rw [Buffer.patch, if_pos (Nat.lt_of_lt_of_le hlt ht), hc,
          map_patchJump insns hlt (Nat.le_trans ht hb)]
      rw [List.foldlM_cons, hpatch, List.foldl_cons]
      exact ih (fun x hx => hj x (List.mem_cons_of_mem j hx)) _ _ rfl

theorem length_foldl_patch (js : List Nat) (insns : List (Flat I C)) (target : Nat) :
    (js.foldl (fun insns j => patchJump insns j target) insns).length = insns.length := by
  induction js generalizing insns with
  | nil => rfl
  | cons j js ih => rw [List.foldl_cons, ih, length_patchJump]

/-- The builders agree after one call, if there is room for it. -/
theorem Mirrors.add {lim : Limits L} (hb : lim.buffer ≤ 2 ^ 15) {b : Builder I C L}
    {c : Buffer I C L} (h : Mirrors b c) (line : Line I C L)
    (hroom : (b.add line).insns.length ≤ lim.buffer)
    (hlist : ∀ x l, line = .jump x l → (b.waiting l).length < lim.list l) :
    ∃ c', c.add lim line = some c' ∧ Mirrors (b.add line) c' := by
  have hlen : c.insns.length = b.insns.length := by rw [h.insns, List.length_map]
  have hemit : ∀ f : Flat I C, b.insns.length < lim.buffer →
      c.emit lim (Cell.of f) = { c with insns := (b.insns ++ [f]).map Cell.of } := by
    intro f hlt
    rw [Buffer.emit, hlen, if_pos hlt, List.map_append, h.insns]
    rfl
  cases line with
  | op i =>
      have hlt : b.insns.length + 1 ≤ lim.buffer := by simpa [Builder.add] using hroom
      refine ⟨_, rfl, ?_⟩
      rw [show Cell.op i = Cell.of (.op i : Flat I C) from rfl, hemit _ hlt]
      refine ⟨rfl, h.waiting, h.fits, fun l j hj => ?_⟩
      have := h.inside l j hj
      show j < (b.insns ++ [_]).length
      rw [List.length_append]
      omega
  | jump x l =>
      have hlt : b.insns.length + 1 ≤ lim.buffer := by simpa [Builder.add] using hroom
      -- a jump is noted in the list of its label before it is emitted
      have hwait : (c.waiting l).length < lim.list l := h.waiting ▸ hlist x l rfl
      have hcell : (Cell.jump x 0 : Cell I C) = Cell.of (.jump x 0) := rfl
      refine ⟨_, if_pos hwait, ?_⟩
      rw [hcell, hemit _ hlt]
      refine ⟨rfl, ?_, h.fits, fun l' j hj => ?_⟩
      · show update c.waiting l _ = update b.waiting l _
        rw [h.waiting, hlen]
      · have hj' : j ∈ update b.waiting l (b.waiting l ++ [b.insns.length]) l' := hj
        show j < (b.insns ++ [_]).length
        rw [List.length_append, List.length_singleton]
        rcases eq_or_ne l' l with rfl | hl
        · rw [update_self, List.mem_append, List.mem_singleton] at hj'
          rcases hj' with hj' | rfl
          · exact Nat.lt_succ_of_lt (h.inside l' j hj')
          · exact Nat.lt_succ_self _
        · rw [update_of_ne hl] at hj'
          exact Nat.lt_succ_of_lt (h.inside l' j hj')
  | label l =>
      have hle : b.insns.length ≤ lim.buffer := by
        rw [Builder.add, length_foldl_patch] at hroom
        exact hroom
      -- at a label the jumps that wait for it are patched, and the list is emptied
      have hpatch := foldlM_patch lim hb hle (b.waiting l) (h.inside l) b.insns c h.insns
      have hadd := congrArg (Option.map fun b' : Buffer I C L =>
        { b' with waiting := update b'.waiting l [] }) hpatch
      rw [← h.waiting, ← hlen] at hadd
      refine ⟨_, hadd, ?_, ?_, h.fits, fun l' j hj => ?_⟩
      · rw [h.waiting, hlen]
        rfl
      · show update c.waiting l [] = update b.waiting l []
        rw [h.waiting]
      · show j < List.length (List.foldl _ _ _)
        rw [length_foldl_patch]
        have hj' : j ∈ update b.waiting l [] l' := hj
        rcases eq_or_ne l' l with rfl | hl
        · rw [update_self] at hj'
          exact absurd hj' List.not_mem_nil
        · rw [update_of_ne hl] at hj'
          exact h.inside l' j hj'

/-- One call adds at most one instruction. -/
theorem length_add (b : Builder I C L) (line : Line I C L) :
    b.insns.length ≤ (b.add line).insns.length := by
  cases line with
  | op i => simp [Builder.add]
  | jump c l => simp [Builder.add]
  | label l => rw [Builder.add, length_foldl_patch]

theorem length_foldl_add (script : List (Line I C L)) (b : Builder I C L) :
    b.insns.length ≤ (script.foldl Builder.add b).insns.length := by
  induction script generalizing b with
  | nil => exact Nat.le_refl _
  | cons line script ih => exact Nat.le_trans (length_add b line) (ih _)

/-- The builders agree after a script, if there is room for all of it. -/
theorem Mirrors.run {lim : Limits L} (hb : lim.buffer ≤ 2 ^ 15) (script : List (Line I C L))
    {b : Builder I C L} {c : Buffer I C L} (h : Mirrors b c)
    (hroom : (script.foldl Builder.add b).insns.length ≤ lim.buffer)
    (hlevel : ∀ l, level lim.list l script (b.waiting l).length = some 0) :
    ∃ c', script.foldlM (Buffer.add lim) c = some c' ∧
      Mirrors (script.foldl Builder.add b) c' ∧ ∀ l, (script.foldl Builder.add b).waiting l = [] := by
  induction script generalizing b c with
  | nil =>
      refine ⟨c, rfl, h, fun l => List.eq_nil_of_length_eq_zero ?_⟩
      exact Option.some.inj (hlevel l)
  | cons line script ih =>
      have hstep : ∃ c', c.add lim line = some c' ∧ Mirrors (b.add line) c' := by
        refine h.add hb line (Nat.le_trans (length_foldl_add script _) hroom) fun x l hl => ?_
        subst hl
        have := hlevel l
        rw [level, if_pos rfl] at this
        by_contra hfull
        rw [if_neg hfull] at this
        cases this
      obtain ⟨c₁, hadd, hm⟩ := hstep
      -- the list is as long as its level says
      have hlater : ∀ l, level lim.list l script ((b.add line).waiting l).length = some 0 := by
        intro l
        have hl := hlevel l
        cases line with
        | op i => exact hl
        | jump x l' =>
            rw [level] at hl
            by_cases hx : l' = l
            · subst hx
              rw [if_pos rfl] at hl
              split at hl
              · have hlen : ((b.add (.jump x l')).waiting l').length = (b.waiting l').length + 1 := by
                  simp [Builder.add]
                rw [hlen]
                exact hl
              · cases hl
            · rw [if_neg hx] at hl
              have hsame : (b.add (.jump x l')).waiting l = b.waiting l := update_of_ne (Ne.symm hx) _ _
              rw [hsame]
              exact hl
        | label l' =>
            rw [level] at hl
            by_cases hx : l' = l
            · subst hx
              rw [if_pos rfl] at hl
              have hnone : (b.add (.label l' : Line I C L)).waiting l' = [] := update_self _ _ _
              rw [hnone]
              exact hl
            · rw [if_neg hx] at hl
              have hsame : (b.add (.label l' : Line I C L)).waiting l = b.waiting l :=
                update_of_ne (Ne.symm hx) _ _
              rw [hsame]
              exact hl
      obtain ⟨c', hrun, hm', hdone⟩ := ih hm hroom hlater
      refine ⟨c', ?_, hm', hdone⟩
      rw [List.foldlM_cons, hadd]
      exact hrun

/-! ## Paths -/

/-- What linking asks about instructions: which leave the program, which are the first and which the
second half of a double one, and which jumps are always taken. -/
structure Form (I C : Type) where
  exits : I → Bool
  wide : I → Bool
  tail : I → Bool
  always : C → Bool

variable (form : Form I C)

/-- From position `i` the program may go on at `j`. -/
def Next (code : List (Cell I C)) (i j : Nat) : Prop :=
  match code[i]? with
  | some (.op x) => form.exits x = false ∧ j = i + if form.wide x then 2 else 1
  | some (.jump c off) => (j : Int) = (i : Int) + 1 + off ∨ form.always c = false ∧ j = i + 1
  | none => False

/-- An instruction starts at position `i`. -/
def Boundary (code : List (Cell I C)) (i : Nat) : Prop :=
  ∃ x, code[i]? = some x ∧ ∀ y, x = .op y → form.tail y = false

/-- Every path from position `i` runs forward over whole instructions and reaches an exit. -/
inductive Exits (code : List (Cell I C)) : Nat → Prop
  | exit {i : Nat} (x : I) (hi : code[i]? = some (.op x)) (hx : form.exits x = true) : Exits code i
  | next {i : Nat} (hb : Boundary form code i) (hsome : ∃ j, Next form code i j)
      (hforward : ∀ j, Next form code i j → i < j)
      (hall : ∀ j, Next form code i j → Exits code j) : Exits code i

/-- Every jump fits its field and lands on an instruction; every path reaches an exit. -/
structure Linked (code : List (Cell I C)) : Prop where
  jumps : ∀ (i : Nat) (c : C) (off : Int), code[i]? = some (.jump c off) →
    (-2 ^ 15 ≤ off ∧ off < 2 ^ 15) ∧
      ∃ target : Nat, (target : Int) = (i : Int) + 1 + off ∧ Boundary form code target
  exits : Exits form code 0

/-! ## Scripts that link -/

/-- Double instructions stand together; `first` says whether the first half was just emitted. -/
def paired (first : Bool) : List (Line I C L) → Bool
  | [] => !first
  | .op x :: rest =>
      form.tail x == first && !(first && (form.wide x || form.exits x)) && paired (form.wide x) rest
  | .jump _ _ :: rest => !first && paired false rest
  | .label _ :: rest => !first && paired false rest

/-- The last call emits an instruction that leaves the program. -/
def finishes (script : List (Line I C L)) : Bool :=
  match script.getLast? with
  | some (.op x) => form.exits x
  | _ => false

/-- The code starts with an instruction. -/
def Entry (code : List (Flat I C)) : Prop :=
  ∃ x rest, code = x :: rest ∧ ∀ y, x = .op y → form.tail y = false

/-- Each instruction is followed by one, and each jump lands on one. -/
def Sound : List (Flat I C) → Prop
  | [] => True
  | .op x :: rest =>
      (form.exits x = true ∨
        if form.wide x then ∃ y rest', rest = .op y :: rest' ∧ Entry form rest' else Entry form rest) ∧
      Sound rest
  | .jump _ off :: rest => Entry form rest ∧ Entry form (rest.drop off) ∧ Sound rest

variable {form}

omit [DecidableEq L] in
theorem finishes_cons {line : Line I C L} {rest : List (Line I C L)}
    (h : finishes form (line :: rest) = true) (hr : rest ≠ []) : finishes form rest = true := by
  cases rest with
  | nil => exact absurd rfl hr
  | cons line' rest => rwa [finishes, List.getLast?_cons_cons] at h

/-- A script that finishes has an instruction after every call but the last. -/
theorem entry_assemble {script : List (Line I C L)} (hp : paired form false script = true)
    (hf : finishes form script = true) : Entry form (assemble script) := by
  induction script with
  | nil => cases hf
  | cons line script ih =>
      cases line with
      | op x =>
          refine ⟨.op x, _, rfl, fun y hy => ?_⟩
          cases hy
          simp only [paired, Bool.and_eq_true, beq_iff_eq] at hp
          exact hp.1.1
      | jump c l =>
          refine ⟨_, _, rfl, fun y hy => ?_⟩
          cases hy
      | label l =>
          have hne : script ≠ [] := by
            rintro rfl
            cases hf
          simp only [paired, Bool.not_false, Bool.true_and] at hp
          exact ih hp (finishes_cons hf hne)

/-- A jump lands on an instruction. -/
theorem entry_drop_gap {script : List (Line I C L)} {l : L} {n : Nat} {first : Bool}
    (hg : gap l script = some n) (hp : paired form first script = true)
    (hf : finishes form script = true) : Entry form ((assemble script).drop n) := by
  induction script generalizing n first with
  | nil => cases hg
  | cons line script ih =>
      have hne : ∀ m, gap l script = some m → script ≠ [] := by
        rintro m hm rfl
        cases hm
      cases line with
      | op x =>
          obtain ⟨m, hm, rfl⟩ := Option.map_eq_some_iff.mp hg
          simp only [paired, Bool.and_eq_true] at hp
          exact ih hm hp.2 (finishes_cons hf (hne m hm))
      | jump c l' =>
          obtain ⟨m, hm, rfl⟩ := Option.map_eq_some_iff.mp hg
          simp only [paired, Bool.and_eq_true] at hp
          exact ih hm hp.2 (finishes_cons hf (hne m hm))
      | label l' =>
          simp only [paired, Bool.and_eq_true] at hp
          rw [gap] at hg
          by_cases hl : l' = l
          · rw [if_pos hl] at hg
            cases hg
            have hne' : script ≠ [] := by
              rintro rfl
              cases hf
            show Entry form (assemble script)
            exact entry_assemble hp.2 (finishes_cons hf hne')
          · rw [if_neg hl] at hg
            exact ih hg hp.2 (finishes_cons hf (hne n hg))

/-- A jump that waits at the end of a script whose lists are empty there was patched. -/
theorem gap_of_level {cap : L → Nat} {l : L} {script : List (Line I C L)} {n : Nat} (hn : 0 < n)
    (h : level cap l script n = some 0) : ∃ m, gap l script = some m := by
  induction script generalizing n with
  | nil =>
      cases h
      exact absurd hn (Nat.lt_irrefl 0)
  | cons line script ih =>
      cases line with
      | op x =>
          obtain ⟨m, hm⟩ := ih hn h
          exact ⟨m + 1, by rw [gap, hm]; rfl⟩
      | jump c l' =>
          rw [level] at h
          have hlater : ∃ k, 0 < k ∧ level cap l script k = some 0 := by
            split at h
            · split at h
              · exact ⟨n + 1, Nat.succ_pos n, h⟩
              · cases h
            · exact ⟨n, hn, h⟩
          obtain ⟨k, hk, hlevel⟩ := hlater
          obtain ⟨m, hm⟩ := ih hk hlevel
          exact ⟨m + 1, by rw [gap, hm]; rfl⟩
      | label l' =>
          rw [level] at h
          by_cases hl : l' = l
          · exact ⟨0, by rw [gap, if_pos hl]⟩
          · rw [if_neg hl] at h
            obtain ⟨m, hm⟩ := ih hn h
            exact ⟨m, by rw [gap, if_neg hl, hm]⟩

/-- The code of a script that leaves no jump waiting, splits no double instruction and finishes. -/
theorem sound_assemble {cap : L → Nat} {script : List (Line I C L)} {first : Bool}
    (hp : paired form first script = true) (hf : finishes form script = true)
    (hl : ∀ l, ∃ n, level cap l script n = some 0) : Sound form (assemble script) := by
  induction script generalizing first with
  | nil => trivial
  | cons line script ih =>
      rcases script.eq_nil_or_concat with rfl | ⟨front, last, hscript⟩
      · -- the last call leaves the program
        cases line with
        | op x => exact ⟨.inl hf, trivial⟩
        | jump c l => cases hf
        | label l => cases hf
      have hne : script ≠ [] := by
        rintro rfl
        simp at hscript
      have hf' := finishes_cons hf hne
      cases line with
      | op x =>
          simp only [paired, Bool.and_eq_true] at hp
          refine ⟨.inr ?_, ih hp.2 hf' hl⟩
          by_cases hw : form.wide x = true
          · rw [if_pos hw]
            rw [hw] at hp
            cases hcase : script with
            | nil => exact absurd hcase hne
            | cons line' rest =>
                subst hcase
                cases line' with
                | jump c l => simp [paired] at hp
                | label l => simp [paired] at hp
                | op y =>
                    simp only [paired, Bool.true_and, Bool.and_eq_true, Bool.not_eq_true',
                      Bool.or_eq_false_iff] at hp
                    obtain ⟨-, ⟨-, hnarrow, hstays⟩, hrest⟩ := hp
                    have hne' : rest ≠ [] := by
                      rintro rfl
                      have hexits : form.exits y = true := hf'
                      rw [hstays] at hexits
                      cases hexits
                    refine ⟨y, assemble rest, rfl, ?_⟩
                    rw [hnarrow] at hrest
                    exact entry_assemble hrest (finishes_cons hf' hne')
          · rw [if_neg hw]
            rw [Bool.not_eq_true] at hw
            rw [hw] at hp
            exact entry_assemble hp.2 hf'
      | jump c l =>
          simp only [paired, Bool.and_eq_true] at hp
          have hlater : ∀ l', ∃ n, (l = l' → 0 < n) ∧ level cap l' script n = some 0 := by
            intro l'
            obtain ⟨n, hn⟩ := hl l'
            rw [level] at hn
            split at hn
            · split at hn
              · exact ⟨n + 1, fun _ => Nat.succ_pos n, hn⟩
              · cases hn
            · rename_i hne'
              exact ⟨n, fun h => absurd h hne', hn⟩
          obtain ⟨n, hpos, hn⟩ := hlater l
          obtain ⟨m, hm⟩ := gap_of_level (hpos rfl) hn
          refine ⟨entry_assemble hp.2 hf', ?_, ih hp.2 hf' fun l' => ?_⟩
          · rw [hm]
            exact entry_drop_gap hm hp.2 hf'
          · obtain ⟨n', -, hn'⟩ := hlater l'
            exact ⟨n', hn'⟩
      | label l =>
          simp only [paired, Bool.and_eq_true] at hp
          refine ih hp.2 hf' fun l' => ?_
          obtain ⟨n, hn⟩ := hl l'
          exact ⟨_, hn⟩

/-! ## Sound code is linked -/

section Code

omit [DecidableEq L]

theorem sound_drop {code : List (Flat I C)} (h : Sound form code) (i : Nat) :
    Sound form (code.drop i) := by
  induction i generalizing code with
  | zero => exact h
  | succ i ih =>
      cases code with
      | nil => exact h
      | cons x rest =>
          cases x with
          | op y => exact ih h.2
          | jump c off => exact ih h.2.2

theorem getElem?_of_drop {code rest : List (Flat I C)} {x : Flat I C} {i : Nat}
    (h : code.drop i = x :: rest) : (code.map Cell.of)[i]? = some (Cell.of x) := by
  have hx : code[i]? = some x := by
    have := congrArg (fun l : List (Flat I C) => l[0]?) h
    rw [List.getElem?_drop] at this
    simpa using this
  rw [List.getElem?_map, hx]
  rfl

theorem boundary_of_entry {code : List (Flat I C)} {i : Nat} (h : Entry form (code.drop i)) :
    Boundary form (code.map Cell.of) i := by
  obtain ⟨x, rest, hd, hx⟩ := h
  refine ⟨Cell.of x, getElem?_of_drop hd, fun y hy => hx y ?_⟩
  cases x with
  | op z =>
      cases hy
      rfl
  | jump c off => cases hy

/-- Every path through sound code goes forward, and so reaches an exit. -/
theorem exits_of_sound {code : List (Flat I C)} (h : Sound form code) {i : Nat}
    (hi : Entry form (code.drop i)) : Exits form (code.map Cell.of) i := by
  -- on how much of the code is left
  induction hn : code.length - i using Nat.strong_induction_on generalizing i with
  | _ n ih =>
      obtain ⟨x, rest, hd, hx⟩ := hi
      have hat : (code.map Cell.of)[i]? = some (Cell.of x) := getElem?_of_drop hd
      have hrest : code.drop (i + 1) = rest := by
        rw [← List.drop_drop, hd]
        rfl
      have hlt : i < code.length := by
        by_contra hge
        rw [List.drop_eq_nil_of_le (Nat.not_lt.mp hge)] at hd
        cases hd
      have hb : Boundary form (code.map Cell.of) i := boundary_of_entry ⟨x, rest, hd, hx⟩
      have hs := sound_drop h i
      rw [hd] at hs
      have hgo : ∀ j, i < j → Entry form (code.drop j) → Exits form (code.map Cell.of) j := by
        intro j hj he
        exact ih (code.length - j) (by omega) he rfl
      cases x with
      | op y =>
          by_cases hexit : form.exits y = true
          · exact .exit y hat hexit
          have hnext : ∀ j, Next form (code.map Cell.of) i j ↔
              j = i + if form.wide y then 2 else 1 := by
            intro j
            rw [Next, hat]
            simp [Cell.of, hexit]
          have hstep := hs.1.resolve_left hexit
          by_cases hw : form.wide y = true
          · rw [if_pos hw] at hstep
            simp only [hw, if_true] at hnext
            obtain ⟨z, rest', hz, he⟩ := hstep
            have hrest' : code.drop (i + 2) = rest' := by
              rw [show i + 2 = (i + 1) + 1 from rfl, ← List.drop_drop, hrest, hz]
              rfl
            refine .next hb ⟨i + 2, (hnext _).mpr rfl⟩ (fun j hj => ?_) fun j hj => ?_
            · rw [(hnext j).mp hj]
              omega
            · rw [(hnext j).mp hj]
              exact hgo _ (by omega) (hrest' ▸ he)
          · rw [if_neg hw] at hstep
            simp only [hw] at hnext
            refine .next hb ⟨i + 1, (hnext _).mpr rfl⟩ (fun j hj => ?_) fun j hj => ?_
            · rw [(hnext j).mp hj]
              exact Nat.lt_succ_self i
            · rw [(hnext j).mp hj]
              exact hgo _ (Nat.lt_succ_self i) (hrest ▸ hstep)
      | jump c off =>
          obtain ⟨hfall, htaken, -⟩ := hs
          have hnext : ∀ j, Next form (code.map Cell.of) i j →
              j = i + 1 + off ∨ j = i + 1 := by
            intro j hj
            rw [Next, hat] at hj
            rcases hj with hj | ⟨-, hj⟩
            · left
              omega
            · exact .inr hj
          refine .next hb ⟨i + 1 + off, ?_⟩ (fun j hj => ?_) fun j hj => ?_
          · rw [Next, hat]
            left
            push_cast
            rfl
          · rcases hnext j hj with rfl | rfl <;> omega
          · rcases hnext j hj with rfl | rfl
            · refine hgo _ (by omega) ?_
              rw [← List.drop_drop, hrest]
              exact htaken
            · exact hgo _ (Nat.lt_succ_self i) (hrest ▸ hfall)

/-- Sound code that fits a buffer of at most 2^15 instructions is linked. -/
theorem linked_of_sound {code : List (Flat I C)} (h : Sound form code) (he : Entry form code)
    (hlen : code.length ≤ 2 ^ 15) : Linked form (code.map Cell.of) := by
  refine ⟨fun i c off hi => ?_, exits_of_sound h (i := 0) he⟩
  rw [List.getElem?_map] at hi
  obtain ⟨x, hx, hxo⟩ := Option.map_eq_some_iff.mp hi
  cases x with
  | op y => cases hxo
  | jump c' n =>
      cases hxo
      obtain ⟨hlt, hget⟩ := List.getElem?_eq_some_iff.mp hx
      have hd : code.drop i = .jump c n :: code.drop (i + 1) := by
        rw [← hget]
        exact List.drop_eq_getElem_cons hlt
      have hs := sound_drop h i
      rw [hd] at hs
      have hentry : Entry form (code.drop (i + 1 + n)) := by
        rw [← List.drop_drop]
        exact hs.2.1
      have hb := boundary_of_entry hentry
      have hin : i + 1 + n < code.length := by
        obtain ⟨y, hy, -⟩ := hb
        have := (List.getElem?_eq_some_iff.mp hy).1
        simpa using this
      refine ⟨⟨by omega, by omega⟩, i + 1 + n, by push_cast; rfl, hb⟩

end Code

/-! ## Tidy scripts -/

variable (form)

/-- A script that fits, leaves no jump waiting, splits no double instruction and finishes. -/
structure Tidy (lim : Limits L) (script : List (Line I C L)) : Prop where
  size : (assemble script).length ≤ lim.buffer
  paired : paired form false script = true
  finishes : finishes form script = true
  level : ∀ l, level lim.list l script 0 = some 0

variable {form}

/-- The builder with fixed arrays builds what the one with all the room does. -/
theorem replay_tidy {lim : Limits L} (hb : lim.buffer ≤ 2 ^ 15) {script : List (Line I C L)}
    (h : Tidy form lim script) :
    replay lim script = some ⟨(build script).map Cell.of, false, fun _ => []⟩ := by
  have hstart : Mirrors (⟨[], fun _ => []⟩ : Builder I C L) ⟨[], false, fun _ => []⟩ :=
    ⟨rfl, rfl, rfl, fun _ _ hj => absurd hj List.not_mem_nil⟩
  have hsize : (build script).length ≤ lim.buffer := build_eq_assemble script ▸ h.size
  obtain ⟨c, hrun, hm, hdone⟩ := hstart.run hb script hsize h.level
  rw [replay, hrun]
  obtain ⟨insns, overflow, waiting⟩ := c
  have hw : waiting = fun _ => [] := hm.waiting.trans (funext hdone)
  have hi : insns = (build script).map Cell.of := hm.insns
  have ho : overflow = false := hm.fits
  rw [hw, hi, ho]

/-- What it builds is linked. -/
theorem linked_tidy {lim : Limits L} (hb : lim.buffer ≤ 2 ^ 15) {script : List (Line I C L)}
    (h : Tidy form lim script) : Linked form ((build script).map Cell.of) := by
  rw [build_eq_assemble]
  exact linked_of_sound (sound_assemble h.paired h.finishes fun l => ⟨0, h.level l⟩)
    (entry_assemble h.paired h.finishes) (Nat.le_trans h.size hb)

end Asm

end Lib

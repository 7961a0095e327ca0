/-
# Bpf2Socks.Lib.Asm — code with forward jumps, and the builder that links it.

A generator of straight-line code with forward jumps makes three kinds of calls: it *emits* an
instruction, it emits a *jump* whose offset it will fill in later, remembering the jump on a list,
and it *patches* the jumps of a list to land where it stands.  A script of such calls (`Line`) is
read in two ways:

* `build` replays it on a builder: an instruction buffer and, for each list, the positions of the
  jumps on it; patching writes offsets into the buffer.  The result is flat code, which `exec` runs
  with relative jumps.
* `run` executes the script itself: a jump that is taken looks for the next place its list is
  patched.  Scripts compose under `run` by `run_append`.

`exec_build` connects the two: a run of the script that halts is a run of the built code.

The instructions, the conditions and the states are parameters.
-/
import Mathlib.Data.List.Basic
import Mathlib.Logic.Function.Basic

namespace Lib

/-- How one instruction ends: in a state, by leaving the program, or not at all. -/
inductive Effect (S : Type) where
  | next (s : S)
  | halt (s : S)
  | stuck
  deriving DecidableEq

/-- What instructions and jump conditions do. -/
structure Isa (I C S : Type) where
  step : I → S → Effect S
  holds : C → S → Option Bool

/-- One call of the generator: emit, emit a jump of a list, patch a list. -/
inductive Line (I C L : Type) where
  | op (i : I)
  | jump (c : C) (l : L)
  | label (l : L)
  deriving DecidableEq

/-- An instruction of the built code. -/
inductive Flat (I C : Type) where
  | op (i : I)
  | jump (c : C) (off : Nat)
  deriving DecidableEq

/-- How a script ends: at its end, at a jump it does not patch, by leaving the program, or not. -/
inductive Outcome (L S : Type) where
  | fall (s : S)
  | goto (l : L) (s : S)
  | halt (s : S)
  | stuck
  deriving DecidableEq

namespace Asm

variable {I C L S : Type}

/-! ## Flat code -/

/-- Run flat code after skipping some instructions.  Running off the end is an error. -/
def exec (isa : Isa I C S) : List (Flat I C) → Nat → S → Effect S
  | [], _, _ => .stuck
  | _ :: rest, n + 1, s => exec isa rest n s
  | .op i :: rest, 0, s =>
      match isa.step i s with
      | .next s' => exec isa rest 0 s'
      | .halt s' => .halt s'
      | .stuck => .stuck
  | .jump c off :: rest, 0, s =>
      match isa.holds c s with
      | some true => exec isa rest off s
      | some false => exec isa rest 0 s
      | none => .stuck

/-! ## Scripts -/

section Scripts

variable [DecidableEq L]

/-- Go on after an instruction. -/
def onward (e : Effect S) (k : S → Outcome L S) : Outcome L S :=
  match e with
  | .next s => k s
  | .halt s => .halt s
  | .stuck => .stuck

/-- Go on after a jump. -/
def branch (taken : Option Bool) (yes no : Outcome L S) : Outcome L S :=
  match taken with
  | some true => yes
  | some false => no
  | none => .stuck

/-- Run a script, or look for the place where a list is patched. -/
def run (isa : Isa I C S) : List (Line I C L) → Option L → S → Outcome L S
  | [], none, s => .fall s
  | [], some l, s => .goto l s
  | .label l' :: rest, some l, s =>
      if l' = l then run isa rest none s else run isa rest (some l) s
  | .op _ :: rest, some l, s => run isa rest (some l) s
  | .jump _ _ :: rest, some l, s => run isa rest (some l) s
  | .label _ :: rest, none, s => run isa rest none s
  | .op i :: rest, none, s => onward (isa.step i s) fun s' => run isa rest none s'
  | .jump c l :: rest, none, s =>
      branch (isa.holds c s) (run isa rest (some l) s) (run isa rest none s)

/-- Go on from the end of a script. -/
def andThen (o : Outcome L S) (f : Option L → S → Outcome L S) : Outcome L S :=
  match o with
  | .fall s => f none s
  | .goto l s => f (some l) s
  | .halt s => .halt s
  | .stuck => .stuck

/-- **Scripts compose.** -/
theorem run_append (isa : Isa I C S) (A B : List (Line I C L)) (w : Option L) (s : S) :
    run isa (A ++ B) w s = andThen (run isa A w s) fun w s => run isa B w s := by
  induction A generalizing w s with
  | nil => cases w <;> rfl
  | cons line A ih =>
      cases w with
      | some l =>
          cases line with
          | op i => exact ih _ _
          | jump c l' => exact ih _ _
          | label l' =>
              simp only [List.cons_append, run]
              split <;> exact ih _ _
      | none =>
          cases line with
          | op i =>
              simp only [List.cons_append, run]
              cases isa.step i s with
              | next s' => exact ih _ _
              | halt s' => rfl
              | stuck => rfl
          | jump c l' =>
              simp only [List.cons_append, run]
              rcases isa.holds c s with _ | _ | _
              · rfl
              · exact ih _ _
              · exact ih _ _
          | label l' => exact ih _ _

/-- The lists a script patches. -/
def labels : List (Line I C L) → List L
  | [] => []
  | .label l :: rest => l :: labels rest
  | .op _ :: rest => labels rest
  | .jump _ _ :: rest => labels rest

omit [DecidableEq L] in
@[simp] theorem labels_append (A B : List (Line I C L)) : labels (A ++ B) = labels A ++ labels B := by
  induction A with
  | nil => rfl
  | cons line A ih => cases line <;> simp [labels, ih]

/-- A jump passes over a script that does not patch its list. -/
theorem run_over (isa : Isa I C S) {A : List (Line I C L)} {l : L} (h : l ∉ labels A) (s : S) :
    run isa A (some l) s = .goto l s := by
  induction A with
  | nil => rfl
  | cons line A ih =>
      cases line with
      | op i => exact ih h
      | jump c l' => exact ih h
      | label l' =>
          rw [labels, List.mem_cons, not_or] at h
          rw [run, if_neg fun he => h.1 he.symm]
          exact ih h.2

/-! ## The builder -/

/-- The instruction buffer, and the positions of the jumps that wait on each list. -/
structure Builder (I C L : Type) where
  insns : List (Flat I C)
  waiting : L → List Nat

/-- Write the offset of a jump. -/
def aim (off : Nat) : Flat I C → Flat I C
  | .op i => .op i
  | .jump c _ => .jump c off

/-- Make the jump at position `j` land at `target`. -/
def patchJump (insns : List (Flat I C)) (j target : Nat) : List (Flat I C) :=
  insns.modify j (aim (target - j - 1))

/-- One call. -/
def Builder.add (b : Builder I C L) : Line I C L → Builder I C L
  | .op i => { b with insns := b.insns ++ [.op i] }
  | .jump c l =>
      { insns := b.insns ++ [.jump c 0]
        waiting := Function.update b.waiting l (b.waiting l ++ [b.insns.length]) }
  | .label l =>
      { insns := (b.waiting l).foldl (fun insns j => patchJump insns j b.insns.length) b.insns
        waiting := Function.update b.waiting l [] }

/-- The code a script builds. -/
def build (script : List (Line I C L)) : List (Flat I C) :=
  (script.foldl Builder.add ⟨[], fun _ => []⟩).insns

/-! ## Linking -/

/-- How many instructions come before the next place a list is patched. -/
def gap (l : L) : List (Line I C L) → Option Nat
  | [] => none
  | .label l' :: rest => if l' = l then some 0 else gap l rest
  | .op _ :: rest => (gap l rest).map (· + 1)
  | .jump _ _ :: rest => (gap l rest).map (· + 1)

/-- The code of a script, with every jump linked from where it stands. -/
def assemble : List (Line I C L) → List (Flat I C)
  | [] => []
  | .op i :: rest => .op i :: assemble rest
  | .jump c l :: rest => .jump c ((gap l rest).getD 0) :: assemble rest
  | .label _ :: rest => assemble rest

/-- An instruction of the buffer, with the list it waits on. -/
abbrev Slot (I C L : Type) := Flat I C × Option L

/-- The slot after what comes next is known to be `rest`, from `len` instructions on. -/
def settle (rest : List (Line I C L)) (len j : Nat) : Slot I C L → Flat I C
  | (f, none) => f
  | (f, some l) => ((gap l rest).map fun d => aim (len - j - 1 + d) f).getD f

/-- The positions of the slots that wait on a list. -/
def waitingOn (slots : List (Slot I C L)) (l : L) : List Nat :=
  (List.range slots.length).filter fun j => (slots[j]?.bind Prod.snd) = some l

/-- The builder of some slots. -/
def ofSlots (slots : List (Slot I C L)) : Builder I C L :=
  ⟨slots.map Prod.fst, waitingOn slots⟩

/-- Patching a list of jumps patches each of them. -/
theorem getElem?_patchAll (js : List Nat) (insns : List (Flat I C)) (target i : Nat) :
    (js.foldl (fun insns j => patchJump insns j target) insns)[i]? =
      insns[i]?.map fun f => if i ∈ js then aim (target - i - 1) f else f := by
  induction js generalizing insns with
  | nil => simp
  | cons j js ih =>
      rw [List.foldl_cons, ih, patchJump, List.getElem?_modify]
      rcases hi : insns[i]? with _ | f
      · simp
      · by_cases hj : j = i
        · subst hj
          cases f <;> simp [aim]
        · have hj' : ¬i = j := fun h => hj h.symm
          simp [hj, hj']

theorem mem_waitingOn {slots : List (Slot I C L)} {l : L} {j : Nat} :
    j ∈ waitingOn slots l ↔ slots[j]?.bind Prod.snd = some l := by
  rw [waitingOn, List.mem_filter, List.mem_range, decide_eq_true_eq]
  refine ⟨And.right, fun h => ⟨?_, h⟩⟩
  by_contra hlt
  rw [List.getElem?_eq_none (Nat.le_of_not_lt hlt)] at h
  cases h

/-- A new slot comes last among those that wait on its list. -/
theorem waitingOn_append (slots : List (Slot I C L)) (x : Slot I C L) (l : L) :
    waitingOn (slots ++ [x]) l =
      waitingOn slots l ++ if x.2 = some l then [slots.length] else [] := by
  rw [waitingOn, List.length_append, List.length_singleton, List.range_succ, List.filter_append]
  congr 1
  · refine List.filter_congr fun j hj => ?_
    rw [List.getElem?_append_left (List.mem_range.mp hj)]
  · simp [List.filter_singleton]

/-- The slots after a list is patched. -/
def patched (l : L) (slots : List (Slot I C L)) : List (Slot I C L) :=
  slots.mapIdx fun j x => if x.2 = some l then (aim (slots.length - j - 1) x.1, none) else x

theorem getElem?_patched (l : L) (slots : List (Slot I C L)) (j : Nat) :
    (patched l slots)[j]? = slots[j]?.map fun x =>
      if x.2 = some l then (aim (slots.length - j - 1) x.1, none) else x :=
  List.getElem?_mapIdx

theorem length_patched (l : L) (slots : List (Slot I C L)) :
    (patched l slots).length = slots.length :=
  List.length_mapIdx

theorem waitingOn_patched (l l' : L) (slots : List (Slot I C L)) :
    waitingOn (patched l slots) l' = if l' = l then [] else waitingOn slots l' := by
  rw [waitingOn, length_patched]
  by_cases hl : l' = l
  · subst hl
    rw [if_pos rfl, List.filter_eq_nil_iff]
    intro j _
    rw [getElem?_patched]
    rcases slots[j]? with _ | x
    · simp
    · by_cases hx : x.2 = some l' <;> simp [hx]
  · rw [if_neg hl, waitingOn]
    refine List.filter_congr fun j _ => ?_
    rw [getElem?_patched]
    rcases slots[j]? with _ | x
    · rfl
    · by_cases hx : x.2 = some l
      · have hne : ¬l = l' := fun h => hl h.symm
        simp [hx, hne]
      · simp [hx]

theorem add_op (slots : List (Slot I C L)) (i : I) :
    (ofSlots slots).add (.op i) = ofSlots (slots ++ [(.op i, none)]) := by
  rw [Builder.add, ofSlots, ofSlots, List.map_append]
  congr 1
  funext l
  rw [waitingOn_append]
  simp

theorem add_jump (slots : List (Slot I C L)) (c : C) (l : L) :
    (ofSlots slots).add (.jump c l) = ofSlots (slots ++ [(.jump c 0, some l)]) := by
  rw [Builder.add, ofSlots, ofSlots, List.map_append]
  congr 1
  funext l'
  rw [waitingOn_append, List.length_map]
  by_cases hl : l' = l
  · subst hl
    simp
  · have hne : ¬l = l' := fun h => hl h.symm
    simp [Function.update_of_ne hl, hne]

theorem add_label (slots : List (Slot I C L)) (l : L) :
    (ofSlots slots).add (.label l) = ofSlots (patched l slots) := by
  rw [Builder.add, ofSlots, ofSlots]
  congr 1
  · apply List.ext_getElem?
    intro i
    rw [getElem?_patchAll, List.length_map, List.getElem?_map, List.getElem?_map, getElem?_patched]
    rcases hi : slots[i]? with _ | x
    · rfl
    · have hmem : i ∈ waitingOn slots l ↔ x.2 = some l := by
        rw [mem_waitingOn, hi]
        rfl
      by_cases hx : x.2 = some l
      · simp [hmem, hx]
      · simp [hmem, hx]
  · funext l'
    rw [waitingOn_patched]
    by_cases hl : l' = l
    · subst hl
      simp
    · simp [hl]

/-- The builder links every jump from where it stands. -/
theorem foldl_add (script : List (Line I C L)) (slots : List (Slot I C L)) :
    (script.foldl Builder.add (ofSlots slots)).insns =
      slots.mapIdx (settle script slots.length) ++ assemble script := by
  induction script generalizing slots with
  | nil =>
      rw [assemble, List.append_nil, List.foldl_nil, ofSlots]
      apply List.ext_getElem?
      intro i
      rw [List.getElem?_map, List.getElem?_mapIdx]
      rcases slots[i]? with _ | ⟨f, _ | l⟩ <;> rfl
  | cons line script ih =>
      -- what comes later moves one instruction further away, or is now known
      have later : ∀ (x : Slot I C L) (line' : Line I C L), (∀ l, gap l (line' :: script) =
          (gap l script).map (· + 1)) →
          slots.mapIdx (settle script (slots.length + 1)) =
            slots.mapIdx (settle (line' :: script) slots.length) := by
        intro _ line' hgap
        apply List.ext_getElem?
        intro i
        rw [List.getElem?_mapIdx, List.getElem?_mapIdx]
        rcases hi : slots[i]? with _ | ⟨f, _ | l⟩
        · rfl
        · rfl
        · have hlt : i < slots.length := (List.getElem?_eq_some_iff.mp hi).1
          simp only [Option.map_some, settle, hgap]
          rcases gap l script with _ | d
          · rfl
          · simp only [Option.map_some, Option.getD_some]
            rw [show slots.length + 1 - i - 1 + d = slots.length - i - 1 + (d + 1) by omega]
      rw [List.foldl_cons]
      cases line with
      | op i =>
          rw [add_op, ih, List.length_append, List.length_singleton, List.mapIdx_append, assemble,
            List.append_assoc, later (.op i, none) (.op i) fun _ => rfl]
          rfl
      | jump c l =>
          rw [add_jump, ih, List.length_append, List.length_singleton, List.mapIdx_append, assemble,
            List.append_assoc, later (.jump c 0, none) (.jump c l) fun _ => rfl]
          congr 1
          simp only [List.mapIdx_cons, List.mapIdx_nil, settle, Nat.zero_add, List.cons_append,
            List.nil_append]
          rcases gap l script with _ | d
          · rfl
          · simp only [Option.map_some, Option.getD_some, aim]
            rw [show slots.length + 1 - slots.length - 1 + d = d by omega]
      | label l =>
          rw [add_label, ih, length_patched, assemble]
          congr 1
          apply List.ext_getElem?
          intro i
          rw [List.getElem?_mapIdx, List.getElem?_mapIdx, getElem?_patched]
          rcases slots[i]? with _ | ⟨f, _ | l'⟩
          · rfl
          · rfl
          · by_cases hl : l = l'
            · subst hl
              simp [settle, gap]
            · have hne : ¬l' = l := fun h => hl h.symm
              simp [settle, gap, hl, hne]

theorem build_eq_assemble (script : List (Line I C L)) : build script = assemble script := by
  have hempty : (ofSlots [] : Builder I C L) = ⟨[], fun _ => []⟩ := rfl
  rw [build, ← hempty, foldl_add]
  rfl

/-- How many instructions a run of a script skips first. -/
def skip (script : List (Line I C L)) : Option L → Option Nat
  | none => some 0
  | some l => gap l script

theorem exec_assemble (isa : Isa I C S) (script : List (Line I C L)) (w : Option L) (s s' : S)
    (h : run isa script w s = .halt s') :
    ∃ n, skip script w = some n ∧ exec isa (assemble script) n s = .halt s' := by
  induction script generalizing w s with
  | nil => cases w <;> cases h
  | cons line script ih =>
      -- while a label is sought, `n` instructions are to be skipped; otherwise one is run
      cases w with
      | some l =>
          cases line with
          | op i =>
              obtain ⟨n, hn, he⟩ := ih (some l) s h
              have hg : gap l script = some n := hn
              exact ⟨n + 1, by rw [skip, gap, hg]; rfl, he⟩
          | jump c l' =>
              obtain ⟨n, hn, he⟩ := ih (some l) s h
              have hg : gap l script = some n := hn
              exact ⟨n + 1, by rw [skip, gap, hg]; rfl, he⟩
          | label l' =>
              rw [run] at h
              by_cases hl : l' = l
              · rw [if_pos hl] at h
                obtain ⟨n, hn, he⟩ := ih none s h
                cases hn
                exact ⟨0, by rw [skip, gap, if_pos hl], he⟩
              · rw [if_neg hl] at h
                obtain ⟨n, hn, he⟩ := ih (some l) s h
                exact ⟨n, by rw [skip, gap, if_neg hl]; exact hn, he⟩
      | none =>
          cases line with
          | op i =>
              rw [run] at h
              refine ⟨0, rfl, ?_⟩
              rw [assemble, exec]
              rcases hi : isa.step i s with s₁ | s₁ | _
              · rw [hi] at h
                obtain ⟨n, hn, he⟩ := ih none s₁ h
                cases hn
                exact he
              · rw [hi] at h
                cases h
                rfl
              · rw [hi] at h
                cases h
          | jump c l =>
              rw [run] at h
              refine ⟨0, rfl, ?_⟩
              rw [assemble, exec]
              rcases hc : isa.holds c s with _ | _ | _
              · rw [hc] at h
                cases h
              · rw [hc] at h
                obtain ⟨n, hn, he⟩ := ih none s h
                cases hn
                exact he
              · rw [hc] at h
                obtain ⟨n, hn, he⟩ := ih (some l) s h
                -- the jump is taken: its offset is the distance to the label
                have hg : gap l script = some n := hn
                rw [hg]
                exact he
          | label l =>
              obtain ⟨n, hn, he⟩ := ih none s h
              exact ⟨n, hn, he⟩

/-- **The built code runs as its script does.** -/
theorem exec_build (isa : Isa I C S) {script : List (Line I C L)} {s s' : S}
    (h : run isa script none s = .halt s') : exec isa (build script) 0 s = .halt s' := by
  obtain ⟨n, hn, he⟩ := exec_assemble isa script none s s' h
  cases hn
  rw [build_eq_assemble]
  exact he

/-! ## Specifications -/

/-- The run goes on (`none`) or leaves by a jump, in a state of `post`. -/
def Ends (o : Outcome L S) (d : Option L) (post : S → Prop) : Prop :=
  match o with
  | .fall s => d = none ∧ post s
  | .goto l s => d = some l ∧ post s
  | .halt _ => False
  | .stuck => False

/-- The script goes on (`none`) or leaves by a jump, in a state of `post`. -/
def Takes (isa : Isa I C S) (A : List (Line I C L)) (s : S) (d : Option L) (post : S → Prop) :
    Prop :=
  Ends (run isa A none s) d post

/-- The script, run or searched for a list, leaves the program in a state of `post`. -/
def Halts (isa : Isa I C S) (A : List (Line I C L)) (w : Option L) (s : S) (post : S → Prop) :
    Prop :=
  ∃ s', run isa A w s = .halt s' ∧ post s'

variable {isa : Isa I C S} {A B : List (Line I C L)} {s : S} {d e : Option L} {P Q : S → Prop}

section Endings

omit [DecidableEq L]

@[simp] theorem ends_fall : Ends (.fall s : Outcome L S) d P ↔ d = none ∧ P s := Iff.rfl

@[simp] theorem ends_goto {l : L} : Ends (.goto l s : Outcome L S) d P ↔ d = some l ∧ P s := Iff.rfl

theorem Ends.mono {o : Outcome L S} (h : Ends o d P) (hPQ : ∀ s', P s' → Q s') : Ends o d Q := by
  cases o with
  | fall s' => exact ⟨h.1, hPQ _ h.2⟩
  | goto l s' => exact ⟨h.1, hPQ _ h.2⟩
  | halt s' => exact h
  | stuck => exact h

end Endings

theorem Takes.nil (h : P s) : Takes isa ([] : List (Line I C L)) s none P := ⟨rfl, h⟩

theorem Takes.mono (h : Takes isa A s d P) (hPQ : ∀ s', P s' → Q s') : Takes isa A s d Q :=
  Ends.mono h hPQ

/-- What a script that takes a decision hands on. -/
theorem Takes.run_eq (h : Takes isa A s d P) :
    ∃ s', P s' ∧ ∀ f : Option L → S → Outcome L S, andThen (run isa A none s) f = f d s' := by
  rcases hr : run isa A none s with s' | ⟨l, s'⟩ | s' | _ <;> rw [Takes, hr] at h
  · obtain ⟨rfl, hp⟩ := h
    exact ⟨s', hp, fun _ => rfl⟩
  · obtain ⟨rfl, hp⟩ := h
    exact ⟨s', hp, fun _ => rfl⟩
  · exact h.elim
  · exact h.elim

/-- **Sequencing**: the first decision that is taken counts. -/
theorem Takes.append (h : Takes isa A s d P) (hB : ∀ s', d = none → P s' → Takes isa B s' e Q)
    (hl : ∀ l, d = some l → l ∉ labels B) (hQ : ∀ s' l, d = some l → P s' → Q s') :
    Takes isa (A ++ B) s (d.or e) Q := by
  obtain ⟨s', hp, hr⟩ := h.run_eq
  unfold Takes
  rw [run_append, hr]
  cases d with
  | none => exact hB s' rfl hp
  | some l =>
      rw [run_over isa (hl l rfl)]
      exact ⟨rfl, hQ s' l rfl hp⟩

/-- Sequencing after a script that only goes on. -/
theorem Takes.through (h : Takes isa A s none P) (hB : ∀ s', P s' → Takes isa B s' e Q) :
    Takes isa (A ++ B) s e Q := by
  obtain ⟨s', hp, hr⟩ := h.run_eq
  unfold Takes
  rw [run_append, hr]
  exact hB s' hp

/-- The rest of the program is run, or searched for the list that was jumped to. -/
theorem Takes.halts (h : Takes isa A s d P) (hB : ∀ s', P s' → Halts isa B d s' Q) :
    Halts isa (A ++ B) none s Q := by
  obtain ⟨s', hp, hr⟩ := h.run_eq
  obtain ⟨s'', hr', hq⟩ := hB s' hp
  exact ⟨s'', by rw [run_append, hr, hr'], hq⟩

/-- A jump passes over a script that does not patch its list. -/
theorem Halts.over {l : L} (hl : l ∉ labels A) (h : Halts isa B (some l) s P) :
    Halts isa (A ++ B) (some l) s P := by
  obtain ⟨s', hr, hp⟩ := h
  exact ⟨s', by rw [run_append, run_over isa hl]; exact hr, hp⟩

/-- A jump lands where its list is patched. -/
theorem Halts.land {l : L} (h : Halts isa B none s P) :
    Halts isa (.label l :: B) (some l) s P := by
  obtain ⟨s', hr, hp⟩ := h
  exact ⟨s', by rw [run, if_pos rfl]; exact hr, hp⟩

/-- A script that leaves the program does so when it is built. -/
theorem Halts.exec (h : Halts isa A none s P) :
    ∃ s', exec isa (build A) 0 s = .halt s' ∧ P s' := by
  obtain ⟨s', hr, hp⟩ := h
  exact ⟨s', exec_build isa hr, hp⟩

end Scripts

end Asm

end Lib

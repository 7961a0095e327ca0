/-
# Bpf2Socks.Lib.Prog — programs that ask their environment, and a program logic for them.

A `Prog A σ α` is a piece of imperative code over a state `σ`.  Between two points where the code
depends on something outside itself it is ordinary state passing; at such a point it *asks*: it
hands over its current state and a question `q`, and continues with whatever answer of type `A q`
it is given.  A loop that never returns is `diverge`.

Three readings of one program are used:

* `exec` runs it on a script of answers (for concrete runs);
* `Out` is the relation "some run with admissible answers ends here";
* `Track` is the program logic: a monitor walks along every run, an assertion is checked at every
  question, and a postcondition at the end.  `Sat` is the plain case with no monitor.

Nothing here knows what the questions are about.
-/
import Mathlib.Logic.Function.Basic
import Mathlib.Data.List.Basic
import Mathlib.Order.Defs.Unbundled

namespace Lib

/-- Code over states `σ` that asks questions `q : Q`, answered in `A q`, and returns an `α`. -/
inductive Prog {Q : Type} (A : Q → Type) (σ α : Type) : Type where
  | ret (s : σ) (a : α) : Prog A σ α
  | ask (s : σ) (q : Q) (k : A q → Prog A σ α) : Prog A σ α
  | diverge : Prog A σ α

namespace Prog

variable {Q : Type} {A : Q → Type} {σ α β γ φ : Type}

/-- Sequencing: continue where the first program returns. -/
def bind : Prog A σ α → (σ → α → Prog A σ β) → Prog A σ β
  | ret s a, f => f s a
  | ask s q k, f => ask s q fun r => (k r).bind f
  | diverge, _ => diverge

@[simp] theorem ret_bind (s : σ) (a : α) (f : σ → α → Prog A σ β) :
    (ret s a : Prog A σ α).bind f = f s a := rfl

@[simp] theorem ask_bind (s : σ) (q : Q) (k : A q → Prog A σ α) (f : σ → α → Prog A σ β) :
    (ask s q k).bind f = ask s q fun r => (k r).bind f := rfl

@[simp] theorem diverge_bind (f : σ → α → Prog A σ β) :
    (diverge : Prog A σ α).bind f = diverge := rfl

theorem bind_assoc (p : Prog A σ α) (f : σ → α → Prog A σ β) (g : σ → β → Prog A σ γ) :
    (p.bind f).bind g = p.bind fun s a => (f s a).bind g := by
  induction p with
  | ret s a => rfl
  | ask s q k ih =>
      simp only [ask_bind]
      congr 1
      funext r
      exact ih r
  | diverge => rfl

theorem bind_ret (p : Prog A σ α) : p.bind ret = p := by
  induction p with
  | ret s a => rfl
  | ask s q k ih =>
      simp only [ask_bind]
      congr 1
      funext r
      exact ih r
  | diverge => rfl

/-! ## The program logic -/

/-- A monitor: which answers the environment may give, how the monitor's own state moves with an
answer, and what must hold whenever the program asks. -/
structure Monitor {Q : Type} (A : Q → Type) (σ φ : Type) where
  ok : σ → (q : Q) → A q → Prop
  next : φ → (q : Q) → A q → φ
  atAsk : φ → σ → Q → Prop

/-- Every run of the program from monitor state `ph` passes the assertion at each question and
ends, if it ends, in `post`. -/
def Track (m : Monitor A σ φ) (post : φ → σ → α → Prop) : φ → Prog A σ α → Prop
  | ph, ret s a => post ph s a
  | ph, ask s q k => m.atAsk ph s q ∧ ∀ r, m.ok s q r → Track m post (m.next ph q r) (k r)
  | _, diverge => True

theorem track_bind {m : Monitor A σ φ} {post : φ → σ → β → Prop} {p : Prog A σ α}
    {f : σ → α → Prog A σ β} {ph : φ} :
    Track m post ph (p.bind f) ↔ Track m (fun ph s a => Track m post ph (f s a)) ph p := by
  induction p generalizing ph with
  | ret s a => exact Iff.rfl
  | ask s q k ih =>
      simp only [ask_bind, Track]
      exact and_congr Iff.rfl (forall_congr' fun r => imp_congr Iff.rfl (ih r))
  | diverge => exact Iff.rfl

theorem Track.mono {m : Monitor A σ φ} {post post' : φ → σ → α → Prop} {p : Prog A σ α} {ph : φ}
    (h : Track m post ph p) (hpost : ∀ ph s a, post ph s a → post' ph s a) :
    Track m post' ph p := by
  induction p generalizing ph with
  | ret s a => exact hpost _ _ _ h
  | ask s q k ih => exact ⟨h.1, fun r hr => ih r (h.2 r hr)⟩
  | diverge => trivial

/-- Partial correctness: every run with admissible answers that returns, returns in `post`. -/
def Sat (ok : σ → (q : Q) → A q → Prop) (post : σ → α → Prop) : Prog A σ α → Prop
  | ret s a => post s a
  | ask s q k => ∀ r, ok s q r → Sat ok post (k r)
  | diverge => True

variable {ok ok' : σ → (q : Q) → A q → Prop} {post post' : σ → α → Prop} {p : Prog A σ α}

@[simp] theorem sat_ret {s : σ} {a : α} : Sat ok post (ret s a) ↔ post s a := Iff.rfl

@[simp] theorem sat_ask {s : σ} {q : Q} {k : A q → Prog A σ α} :
    Sat ok post (ask s q k) ↔ ∀ r, ok s q r → Sat ok post (k r) := Iff.rfl

@[simp] theorem sat_diverge : Sat ok post (diverge : Prog A σ α) := trivial

theorem sat_bind {post : σ → β → Prop} {f : σ → α → Prog A σ β} :
    Sat ok post (p.bind f) ↔ Sat ok (fun s a => Sat ok post (f s a)) p := by
  induction p with
  | ret s a => exact Iff.rfl
  | ask s q k ih => exact forall_congr' fun r => imp_congr Iff.rfl (ih r)
  | diverge => exact Iff.rfl

theorem Sat.mono (h : Sat ok post p) (hpost : ∀ s a, post s a → post' s a) : Sat ok post' p := by
  induction p with
  | ret s a => exact hpost _ _ h
  | ask s q k ih => exact fun r hr => ih r (h r hr)
  | diverge => trivial

/-- Fewer admissible answers, fewer runs. -/
theorem Sat.weaken (h : Sat ok post p) (hok : ∀ s q r, ok' s q r → ok s q r) :
    Sat ok' post p := by
  induction p with
  | ret s a => exact h
  | ask s q k ih => exact fun r hr => ih r (h r (hok _ _ _ hr))
  | diverge => trivial

theorem Sat.and (h : Sat ok post p) (h' : Sat ok post' p) :
    Sat ok (fun s a => post s a ∧ post' s a) p := by
  induction p with
  | ret s a => exact ⟨h, h'⟩
  | ask s q k ih => exact fun r hr => ih r (h r hr) (h' r hr)
  | diverge => trivial

theorem sat_true : Sat ok (fun _ _ => True) p := by
  induction p with
  | ret s a => trivial
  | ask s q k ih => exact fun r _ => ih r
  | diverge => trivial

/-- Sequencing, from a postcondition of the first part. -/
theorem Sat.bind {post : σ → β → Prop} {m : σ → α → Prop} {f : σ → α → Prog A σ β}
    (h : Sat ok m p) (hf : ∀ s a, m s a → Sat ok post (f s a)) : Sat ok post (p.bind f) :=
  sat_bind.mpr (h.mono hf)

/-- Two continuations that agree wherever the first program can return. -/
theorem bind_congr_of_sat {f g : σ → α → Prog A σ β} (h : Sat (fun _ _ _ => True) post p)
    (hfg : ∀ s a, post s a → f s a = g s a) : p.bind f = p.bind g := by
  induction p with
  | ret s a => exact hfg s a h
  | ask s q k ih =>
      simp only [ask_bind]
      congr 1
      funext r
      exact ih r (h r trivial)
  | diverge => rfl

/-- Partial correctness with an invariant at every question, where the program may be stopped. -/
def Always (ok : σ → (q : Q) → A q → Prop) (I : σ → Prop) (post : σ → α → Prop)
    (p : Prog A σ α) : Prop :=
  Track ⟨ok, fun _ _ _ => (), fun _ s _ => I s⟩ (fun _ => post) () p

section Always

variable {I : σ → Prop}

theorem Always.bind {post : σ → β → Prop} {m : σ → α → Prop} {f : σ → α → Prog A σ β}
    (h : Always ok I m p) (hf : ∀ s a, m s a → Always ok I post (f s a)) :
    Always ok I post (p.bind f) :=
  track_bind.mpr (Track.mono h fun _ => hf)

theorem Always.mono (h : Always ok I post p) (hpost : ∀ s a, post s a → post' s a) :
    Always ok I post' p :=
  Track.mono h fun _ => hpost

theorem Always.sat (h : Always ok I post p) : Sat ok post p := by
  induction p with
  | ret s a => exact h
  | ask s q k ih => exact fun r hr => ih r (h.2 r hr)
  | diverge => trivial

/-- Some run with admissible answers asks in state `s`. -/
inductive Visits (ok : σ → (q : Q) → A q → Prop) : Prog A σ α → σ → Prop where
  | here (s : σ) (q : Q) (k : A q → Prog A σ α) : Visits ok (.ask s q k) s
  | later {s s' : σ} {q : Q} {k : A q → Prog A σ α} (r : A q) (hr : ok s q r)
      (h : Visits ok (k r) s') : Visits ok (.ask s q k) s'

theorem Always.visits (h : Always ok I post p) {s : σ} (hv : Visits ok p s) : I s := by
  induction hv with
  | here s q k => exact h.1
  | later r hr _ ih => exact ih (h.2 r hr)

end Always

/-! ## Runs -/

/-- Some run with admissible answers ends in state `s` with value `a`. -/
inductive Out (ok : σ → (q : Q) → A q → Prop) : Prog A σ α → σ → α → Prop where
  | ret (s : σ) (a : α) : Out ok (.ret s a) s a
  | ask {s : σ} {q : Q} {k : A q → Prog A σ α} {s' : σ} {a : α} (r : A q) (hr : ok s q r)
      (h : Out ok (k r) s' a) : Out ok (.ask s q k) s' a

theorem Sat.out (h : Sat ok post p) {s : σ} {a : α} (ho : Out ok p s a) : post s a := by
  induction ho with
  | ret s a => exact h
  | ask r hr _ ih => exact ih (h r hr)

theorem sat_of_out (h : ∀ s a, Out ok p s a → post s a) : Sat ok post p := by
  induction p with
  | ret s a => exact h s a (.ret s a)
  | ask s q k ih => exact fun r hr => ih r fun s' a ho => h s' a (.ask r hr ho)
  | diverge => trivial

theorem Out.weaken {s : σ} {a : α} (ho : Out ok' p s a)
    (hok : ∀ s q r, ok' s q r → ok s q r) : Out ok p s a := by
  induction ho with
  | ret s a => exact .ret s a
  | ask r hr _ ih => exact .ask r (hok _ _ _ hr) ih

theorem Out.bind {f : σ → α → Prog A σ β} {s s' : σ} {a : α} {b : β} (h : Out ok p s a)
    (h' : Out ok (f s a) s' b) : Out ok (p.bind f) s' b := by
  induction h with
  | ret s a => exact h'
  | ask r hr _ ih => exact .ask r hr (ih h')

/-- A run of two programs in sequence is a run of the first and then one of the second. -/
theorem out_bind {f : σ → α → Prog A σ β} {s : σ} {b : β} (h : Out ok (p.bind f) s b) :
    ∃ s' a, Out ok p s' a ∧ Out ok (f s' a) s b := by
  induction p with
  | ret s' a => exact ⟨s', a, .ret s' a, h⟩
  | ask s' q k ih =>
      cases h with
      | ask r hr h =>
          obtain ⟨s₁, a, hfirst, hrest⟩ := ih r h
          exact ⟨s₁, a, .ask r hr hfirst, hrest⟩
  | diverge => cases h

/-- Every run returns: there is always an admissible answer, and no loop runs on for ever. -/
def Total (ok : σ → (q : Q) → A q → Prop) : Prog A σ α → Prop
  | ret _ _ => True
  | ask s q k => (∃ r, ok s q r) ∧ ∀ r, ok s q r → Total ok (k r)
  | diverge => False

theorem Total.bind {f : σ → α → Prog A σ β} (h : Total ok p) (hs : Sat ok post p)
    (hf : ∀ s a, post s a → Total ok (f s a)) : Total ok (p.bind f) := by
  induction p with
  | ret s a => exact hf s a hs
  | ask s q k ih => exact ⟨h.1, fun r hr => ih r (h.2 r hr) (hs r hr)⟩
  | diverge => exact h

theorem Total.out (h : Total ok p) : ∃ s a, Out ok p s a := by
  induction p with
  | ret s a => exact ⟨s, a, .ret s a⟩
  | ask s q k ih =>
      obtain ⟨r, hr⟩ := h.1
      obtain ⟨s', a, ho⟩ := ih r (h.2 r hr)
      exact ⟨s', a, .ask r hr ho⟩
  | diverge => exact h.elim

/-- Total correctness: every run returns, and in `post`. -/
def Done (ok : σ → (q : Q) → A q → Prop) (post : σ → α → Prop) (p : Prog A σ α) : Prop :=
  Sat ok post p ∧ Total ok p

theorem Done.ret {s : σ} {a : α} (h : post s a) : Done ok post (ret s a) := ⟨h, trivial⟩

theorem Done.ask {s : σ} {q : Q} {k : A q → Prog A σ α} (hr : ∃ r, ok s q r)
    (h : ∀ r, ok s q r → Done ok post (k r)) : Done ok post (.ask s q k) :=
  ⟨fun r hr => (h r hr).1, hr, fun r hr => (h r hr).2⟩

theorem Done.bind {post' : σ → β → Prop} {f : σ → α → Prog A σ β} (h : Done ok post p)
    (hf : ∀ s a, post s a → Done ok post' (f s a)) : Done ok post' (p.bind f) :=
  ⟨h.1.bind fun s a ha => (hf s a ha).1, h.2.bind h.1 fun s a ha => (hf s a ha).2⟩

theorem Done.out (h : Done ok post p) : ∃ s a, Out ok p s a ∧ post s a := by
  obtain ⟨s, a, ho⟩ := h.2.out
  exact ⟨s, a, ho, h.1.out ho⟩

/-- No run with admissible answers is caught in a loop. -/
def Stops (ok : σ → (q : Q) → A q → Prop) : Prog A σ α → Prop
  | ret _ _ => True
  | ask s q k => ∀ r, ok s q r → Stops ok (k r)
  | diverge => False

theorem Stops.bind {f : σ → α → Prog A σ β} (h : Stops ok p) (hs : Sat ok post p)
    (hf : ∀ s a, post s a → Stops ok (f s a)) : Stops ok (p.bind f) := by
  induction p with
  | ret s a => exact hf s a hs
  | ask s q k ih => exact fun r hr => ih r (h r hr) (hs r hr)
  | diverge => exact h

/-- Every run with admissible answers returns, and in `post`. -/
def Returns (ok : σ → (q : Q) → A q → Prop) (post : σ → α → Prop) (p : Prog A σ α) : Prop :=
  Sat ok post p ∧ Stops ok p

theorem Returns.ret {s : σ} {a : α} (h : post s a) : Returns ok post (ret s a) := ⟨h, trivial⟩

theorem Returns.bind {post' : σ → β → Prop} {f : σ → α → Prog A σ β} (h : Returns ok post p)
    (hf : ∀ s a, post s a → Returns ok post' (f s a)) : Returns ok post' (p.bind f) :=
  ⟨h.1.bind fun s a ha => (hf s a ha).1, h.2.bind h.1 fun s a ha => (hf s a ha).2⟩

/-- Where a run on a script is when it asks after `m` answers. -/
def stopAfter (okb : σ → (q : Q) → A q → Bool) (script : Nat → (q : Q) → A q) :
    Nat → Nat → Prog A σ α → Option σ
  | _, 0, ask s _ _ => some s
  | n, m + 1, ask s q k =>
      if okb s q (script n q) then stopAfter okb script (n + 1) m (k (script n q)) else none
  | _, _, ret _ _ => none
  | _, _, diverge => none

theorem stopAfter_visits {okb : σ → (q : Q) → A q → Bool} {script : Nat → (q : Q) → A q}
    (hok : ∀ s q r, okb s q r = true → ok s q r) {n m : Nat} {s : σ}
    (h : stopAfter okb script n m p = some s) : Visits ok p s := by
  induction m generalizing n p with
  | zero =>
      cases p with
      | ask s' q k =>
          cases h
          exact .here s q k
      | _ => cases h
  | succ m ih =>
      cases p with
      | ask s' q k =>
          simp only [stopAfter] at h
          split at h
          · rename_i hr
            exact .later _ (hok _ _ _ hr) (ih h)
          · cases h
      | _ => cases h

/-- Run the program on a script: the `n`-th question is answered by `script n`.  The run stops
without a result if an answer is not admissible or the program diverges. -/
def exec (okb : σ → (q : Q) → A q → Bool) (script : Nat → (q : Q) → A q) :
    Nat → Prog A σ α → Option (σ × α)
  | _, ret s a => some (s, a)
  | n, ask s q k =>
      if okb s q (script n q) then exec okb script (n + 1) (k (script n q)) else none
  | _, diverge => none

theorem exec_out {okb : σ → (q : Q) → A q → Bool} {script : Nat → (q : Q) → A q}
    (hok : ∀ s q r, okb s q r = true → ok s q r) {n : Nat} {s : σ} {a : α}
    (h : exec okb script n p = some (s, a)) : Out ok p s a := by
  induction p generalizing n with
  | ret s' a' =>
      simp only [exec, Option.some.injEq, Prod.mk.injEq] at h
      obtain ⟨rfl, rfl⟩ := h
      exact .ret _ _
  | ask s' q k ih =>
      simp only [exec] at h
      split at h
      · rename_i hr
        exact .ask _ (hok _ _ _ hr) (ih _ h)
      · simp at h
  | diverge => simp [exec] at h

end Prog

/-! ## Actions: state-passing code as a monad -/

/-- An action reads the current state and runs a program from it. -/
def Act {Q : Type} (A : Q → Type) (σ α : Type) : Type := σ → Prog A σ α

namespace Act

variable {Q : Type} {A : Q → Type} {σ α β : Type}

instance : Monad (Act A σ) where
  pure a := fun s => .ret s a
  bind m f := fun s => (m s).bind fun s' a => f a s'

/-- The current state. -/
def get : Act A σ σ := fun s => .ret s s

/-- Change the state. -/
def modify (f : σ → σ) : Act A σ Unit := fun s => .ret (f s) ()

/-- Ask the environment. -/
def ask (q : Q) : Act A σ (A q) := fun s => .ask s q fun r => .ret s r

/-- A loop that never returns. -/
def diverge : Act A σ α := fun _ => .diverge

@[simp] theorem pure_run (a : α) (s : σ) : (pure a : Act A σ α) s = .ret s a := rfl

@[simp] theorem bind_run (m : Act A σ α) (f : α → Act A σ β) (s : σ) :
    (m >>= f) s = (m s).bind fun s' a => f a s' := rfl

@[simp] theorem get_run (s : σ) : (get : Act A σ σ) s = .ret s s := rfl

@[simp] theorem modify_run (f : σ → σ) (s : σ) :
    (modify f : Act A σ Unit) s = .ret (f s) () := rfl

@[simp] theorem ask_run (q : Q) (s : σ) :
    (ask q : Act A σ (A q)) s = .ask s q fun r => .ret s r := rfl

@[simp] theorem diverge_run (s : σ) : (diverge : Act A σ α) s = .diverge := rfl

@[simp] theorem ite_run (c : Prop) [Decidable c] (m m' : Act A σ α) (s : σ) :
    (if c then m else m') s = if c then m s else m' s := by
  split <;> rfl

/-- Both branches of a conditional. -/
theorem sat_ite {ok : σ → (q : Q) → A q → Prop} {post : σ → α → Prop} {c : Prop} [Decidable c]
    {m m' : Act A σ α} {s : σ} (h : c → Prog.Sat ok post (m s))
    (h' : ¬c → Prog.Sat ok post (m' s)) : Prog.Sat ok post ((if c then m else m') s) := by
  split
  · exact h ‹_›
  · exact h' ‹_›

theorem always_ite {ok : σ → (q : Q) → A q → Prop} {I : σ → Prop} {post : σ → α → Prop} {c : Prop}
    [Decidable c] {m m' : Act A σ α} {s : σ} (h : c → Prog.Always ok I post (m s))
    (h' : ¬c → Prog.Always ok I post (m' s)) :
    Prog.Always ok I post ((if c then m else m') s) := by
  split
  · exact h ‹_›
  · exact h' ‹_›

theorem done_ite {ok : σ → (q : Q) → A q → Prop} {post : σ → α → Prop} {c : Prop} [Decidable c]
    {m m' : Act A σ α} {s : σ} (h : c → Prog.Done ok post (m s))
    (h' : ¬c → Prog.Done ok post (m' s)) : Prog.Done ok post ((if c then m else m') s) := by
  split
  · exact h ‹_›
  · exact h' ‹_›

theorem returns_ite {ok : σ → (q : Q) → A q → Prop} {post : σ → α → Prop} {c : Prop}
    [Decidable c] {m m' : Act A σ α} {s : σ} (h : c → Prog.Returns ok post (m s))
    (h' : ¬c → Prog.Returns ok post (m' s)) :
    Prog.Returns ok post ((if c then m else m') s) := by
  split
  · exact h ‹_›
  · exact h' ‹_›

/-- Run an action on every element of a list, in order. -/
def forEach (f : α → Act A σ Unit) : List α → Act A σ Unit
  | [] => pure ()
  | x :: xs => do
      f x
      forEach f xs

/-- A loop invariant carried through `forEach`. -/
theorem forEach_sat {ok : σ → (q : Q) → A q → Prop} {f : α → Act A σ Unit} {I : σ → Prop}
    (hf : ∀ x s, I s → Prog.Sat ok (fun s' _ => I s') (f x s)) :
    ∀ (xs : List α) (s : σ), I s → Prog.Sat ok (fun s' _ => I s') (forEach f xs s)
  | [], _, h => h
  | x :: xs, s, h => (hf x s h).bind fun s' _ h' => forEach_sat hf xs s' h'

/-! ### Code without endless loops -/

/-- Running `f` from any state, no run is caught in a loop. -/
abbrev Stops (ok : σ → (q : Q) → A q → Prop) (f : Act A σ α) : Prop := ∀ s, Prog.Stops ok (f s)

section Stops

variable {ok : σ → (q : Q) → A q → Prop}

theorem stops_pure (a : α) : Stops ok (pure a : Act A σ α) := fun _ => trivial

theorem stops_get : Stops ok (get : Act A σ σ) := fun _ => trivial

theorem stops_modify (f : σ → σ) : Stops ok (modify f : Act A σ Unit) := fun _ => trivial

theorem stops_ask (q : Q) : Stops ok (ask q : Act A σ (A q)) := fun _ _ _ => trivial

theorem stops_ite {c : Prop} [Decidable c] {f g : Act A σ α} (hf : Stops ok f)
    (hg : Stops ok g) : Stops ok (if c then f else g) := by
  split
  · exact hf
  · exact hg

theorem Stops.bind {f : Act A σ α} {g : α → Act A σ β} (hf : Stops ok f)
    (hg : ∀ a, Stops ok (g a)) : Stops ok (f >>= g) := fun s =>
  Prog.Stops.bind (hf s) Prog.sat_true fun s' a _ => hg a s'

theorem stops_forEach {f : α → Act A σ Unit} (hf : ∀ x, Stops ok (f x)) (xs : List α) :
    Stops ok (forEach f xs) := by
  induction xs with
  | nil => exact stops_pure ()
  | cons x xs ih => exact (hf x).bind fun _ => ih

end Stops

/-! ### Code that stays within a preorder

`Keeps ok R f` says that every run of `f` ends `R`-above where it started.  For a preorder this is
closed under everything actions are built from, so a large piece of code is checked by looking at
its state changes one by one. -/

section Keeps

variable {ok : σ → (q : Q) → A q → Prop} {R : σ → σ → Prop}

/-- Every run of `f` from `s` that returns, returns in a state `R`-above `s`. -/
def Keeps (ok : σ → (q : Q) → A q → Prop) (R : σ → σ → Prop) (f : Act A σ α) : Prop :=
  ∀ s, Prog.Sat ok (fun s' _ => R s s') (f s)

theorem Keeps.imp {R' : σ → σ → Prop} {f : Act A σ α} (hf : Keeps ok R f)
    (h : ∀ {s s'}, R s s' → R' s s') : Keeps ok R' f := fun s => (hf s).mono fun _ _ => h

theorem keeps_diverge : Keeps ok R (diverge : Act A σ α) := fun _ => trivial

theorem keeps_modify {f : σ → σ} (h : ∀ s, R s (f s)) : Keeps ok R (modify f : Act A σ Unit) := h

theorem keeps_ite {c : Prop} [Decidable c] {f g : Act A σ α} (hf : Keeps ok R f)
    (hg : Keeps ok R g) : Keeps ok R (if c then f else g) := by
  split
  · exact hf
  · exact hg

variable [IsPreorder σ R]

theorem keeps_pure (a : α) : Keeps ok R (pure a : Act A σ α) := fun s => refl_of R s

theorem keeps_get : Keeps ok R (get : Act A σ σ) := fun s => refl_of R s

theorem keeps_ask (q : Q) : Keeps ok R (ask q : Act A σ (A q)) := fun s _ _ => refl_of R s

theorem Keeps.bind {f : Act A σ α} {g : α → Act A σ β} (hf : Keeps ok R f)
    (hg : ∀ a, Keeps ok R (g a)) : Keeps ok R (f >>= g) := fun s =>
  (hf s).bind fun s' a h => (hg a s').mono fun _ _ h' => trans_of R h h'

/-- The same for a fold of state changes. -/
theorem foldl_of_step {F : σ → α → σ} (h : ∀ s a, R s (F s a)) (l : List α)
    (s : σ) : R s (l.foldl F s) := by
  induction l generalizing s with
  | nil => exact refl_of R s
  | cons a l ih => exact trans_of R (h s a) (ih _)

theorem keeps_forEach {f : α → Act A σ Unit} (hf : ∀ x, Keeps ok R (f x)) (xs : List α) :
    Keeps ok R (forEach f xs) := by
  induction xs with
  | nil => exact keeps_pure ()
  | cons x xs ih => exact (hf x).bind fun _ => ih

end Keeps

end Act

end Lib

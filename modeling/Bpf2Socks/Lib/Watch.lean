/-
# Bpf2Socks.Lib.Watch — programs with a record of what they were answered.

`Prog.watch next` runs a program with a record beside its state.  Every answer moves the record, the
program cannot see it, and what the environment may answer can depend on it.  A clock that never goes
back is such an environment: its record is the latest time that was read.

A watched action is built from the watched parts of the action, so code that keeps to a preorder of
states with a record is checked piece by piece, as with `Act.Keeps`.
-/
import Bpf2Socks.Lib.Prog

namespace Lib

variable {Q : Type} {A : Q → Type} {σ α β φ : Type}

/-- The program with a record beside its state. -/
def Prog.watch (next : φ → (q : Q) → A q → φ) : φ → Prog A σ α → Prog A (σ × φ) α
  | ph, .ret s a => .ret (s, ph) a
  | ph, .ask s q k => .ask (s, ph) q fun r => watch next (next ph q r) (k r)
  | _, .diverge => .diverge

theorem Prog.watch_bind (next : φ → (q : Q) → A q → φ) (p : Prog A σ α) (f : σ → α → Prog A σ β)
    (ph : φ) : (p.bind f).watch next ph = (p.watch next ph).bind fun s a => (f s.1 a).watch next s.2 := by
  induction p generalizing ph with
  | ret s a => rfl
  | ask s q k ih =>
      simp only [ask_bind, watch]
      congr 1
      funext r
      exact ih r (next ph q r)
  | diverge => rfl

/-- What holds of every run of a program holds of it beside a record, where the environment may only
answer less. -/
theorem Prog.Sat.watch {next : φ → (q : Q) → A q → φ} {ok : σ → (q : Q) → A q → Prop}
    {ok' : σ × φ → (q : Q) → A q → Prop} (hok : ∀ {w q r}, ok' w q r → ok w.1 q r)
    {post : σ → α → Prop} {p : Prog A σ α} (h : p.Sat ok post) (ph : φ) :
    (p.watch next ph).Sat ok' fun w a => post w.1 a := by
  induction p generalizing ph with
  | ret s a => exact h
  | ask s q k ih => exact fun r hr => ih r (h r (hok hr)) _
  | diverge => trivial

namespace Act

/-- The action with a record beside its state. -/
def watch (next : φ → (q : Q) → A q → φ) (m : Act A σ α) : Act A (σ × φ) α :=
  fun s => (m s.1).watch next s.2

variable {next : φ → (q : Q) → A q → φ}

theorem watch_bind (m : Act A σ α) (f : α → Act A σ β) :
    (m >>= f).watch next = m.watch next >>= fun a => (f a).watch next := by
  funext s
  exact Prog.watch_bind next (m s.1) (fun s a => f a s) s.2

/-! ## Code that stays within a preorder -/

section Keeps

variable {ok : σ × φ → (q : Q) → A q → Prop} {R : σ × φ → σ × φ → Prop}

theorem watch_diverge : Keeps ok R ((diverge : Act A σ α).watch next) := fun _ => trivial

theorem watch_modify {f : σ → σ} (h : ∀ s ph, R (s, ph) (f s, ph)) :
    Keeps ok R ((modify f : Act A σ Unit).watch next) := fun s => h s.1 s.2

theorem watch_ite {c : Prop} [Decidable c] {f g : Act A σ α} (hf : Keeps ok R (f.watch next))
    (hg : Keeps ok R (g.watch next)) : Keeps ok R ((if c then f else g).watch next) := by
  split
  · exact hf
  · exact hg

theorem watch_ask {q : Q} (h : ∀ w r, ok w q r → R w (w.1, next w.2 q r)) :
    Keeps ok R ((ask q : Act A σ (A q)).watch next) := fun w r hr => h w r hr

variable [IsPreorder (σ × φ) R]

theorem watch_pure (a : α) : Keeps ok R ((pure a : Act A σ α).watch next) := fun s => refl_of R s

theorem watch_get : Keeps ok R ((get : Act A σ σ).watch next) := fun s => refl_of R s

theorem watch_andThen {f : Act A σ α} {g : α → Act A σ β} (hf : Keeps ok R (f.watch next))
    (hg : ∀ a, Keeps ok R ((g a).watch next)) : Keeps ok R ((f >>= g).watch next) := by
  rw [watch_bind]
  exact hf.bind hg

end Keeps

end Act

end Lib

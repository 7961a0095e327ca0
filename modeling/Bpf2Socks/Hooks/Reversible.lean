/-
# Bpf2Socks.Hooks.Reversible — what the calls do to hooks, records and descriptors.

`AttachOutcome` and `DetachOutcome` say once what a call can do.  From these follow what becomes of
the hooks, and `Kept`, the invariant of the records: a hook has at most one, each holds a descriptor
of its own that was opened for it and is still open, and all others that were opened are closed.
-/
import Bpf2Socks.Hooks.Exclusive

namespace Bpf2Socks.Hooks

open Function (update update_self update_of_ne)
open Lib

variable {s s' : State} {cg prog fd : Fd} {t : AttachType} {c : Cgroup} {id : ProgId} {i j : Fin 6}
  {I : State → Prop}

/-! ## System calls -/

theorem attachWithFlags_zero_always (hI : I s) : Prog.Always admissible I
    (fun s' r => (r ≠ none ∧ s' = s) ∨ ∃ c id o, r = none ∧ s.fds cg = some (.cgroup c) ∧
      s.fds prog = some (.program id o) ∧ s' = s.setHook c t ⟨0, [id]⟩)
    (attachWithFlags cg prog t 0 s) := by
  refine acts_always hI (fun e => .inl ⟨by nofun, rfl⟩) fun s' h => .inr ?_
  unfold State.attach at h
  split at h
  · rename_i c id o hc hp
    dsimp only at h
    split at h
    · cases h
    · rw [if_neg (by decide)] at h
      cases h
      exact ⟨c, id, o, rfl, hc, hp, rfl⟩
  · cases h

theorem attachWithFlags_multi_always (hI : I s) : Prog.Always admissible I
    (fun s' r => (r ≠ none ∧ s' = s) ∨ ∃ c id o, r = none ∧ s.fds cg = some (.cgroup c) ∧
      s.fds prog = some (.program id o) ∧
      ((s.hooks c t).progs = [] ∨ (s.hooks c t).flags = allowMulti) ∧ id ∉ (s.hooks c t).progs ∧
      s' = s.setHook c t ⟨allowMulti, (s.hooks c t).progs ++ [id]⟩)
    (attachWithFlags cg prog t allowMulti s) := by
  refine acts_always hI (fun e => .inl ⟨by nofun, rfl⟩) fun s' h => .inr ?_
  unfold State.attach at h
  split at h
  · rename_i c id o hc hp
    dsimp only at h
    split at h
    · cases h
    · rename_i hmode
      rw [if_pos rfl] at h
      split at h
      · cases h
      · rename_i hnew
        cases h
        refine ⟨c, id, o, rfl, hc, hp, ?_, hnew, rfl⟩
        by_cases he : (s.hooks c t).progs = []
        · exact .inl he
        · exact .inr (not_not.mp fun hf => hmode ⟨he, hf⟩)
  · cases h

theorem queryExclusive_always (hI : I s) : Prog.Always admissible I
    (fun s' r => s' = s ∧ ∀ id, r = .ok id →
      ∃ c, s.fds cg = some (.cgroup c) ∧ s.hooks c t = ⟨0, [id]⟩)
    (queryExclusive cg t s) := by
  refine reads_always hI (fun e => ⟨rfl, by nofun⟩) fun id h => ⟨rfl, fun id' he => ?_⟩
  cases he
  unfold State.query at h
  split at h
  · rename_i c hc
    split at h
    · cases h
    · refine ⟨c, hc, ?_⟩
      rcases hh : s.hooks c t with ⟨flags, progs⟩
      rw [hh] at h
      rcases progs with _ | ⟨id₁, _ | ⟨id₂, rest⟩⟩
      · cases h
      · change (if flags ≠ 0 ∨ id₁ = 0 then Except.error Errno.ebusy else Except.ok id₁) = .ok id at h
        split at h
        · cases h
        · rename_i hz
          cases h
          rw [not_or, not_not] at hz
          rw [hz.1]
      · cases h
  · cases h

theorem Program.insns_of_xlated {p : Program} (h : p.xlated = allowOnly) : p.insns = allowOnly := by
  unfold Program.xlated at h
  split at h
  · exact h
  · rcases hi : p.insns with _ | ⟨a, l⟩ <;> rw [hi] at h
    · cases h
    · have hcode := congrArg Insn.code (List.cons.inj h).1
      exact absurd (show (0 : UInt8) = 0xb7 from hcode) (by decide)

theorem unconditionalAllow_always (hI : I s) : Prog.Always admissible I
    (fun s' r => s' = s ∧ (r = true → ∃ p, s.programs id = some p ∧ p.insns = allowOnly))
    (unconditionalAllow fd id s) := by
  refine Prog.Always.bind (m := fun s' r => s' = s ∧ ∀ a, r = .ok a → s.programs a.1 = some a.2)
    (reads_always hI (fun e => ⟨rfl, by nofun⟩) fun a h => ⟨rfl, fun a' he => ?_⟩) ?_
  · cases he
    unfold State.info at h
    split at h
    · split at h
      · rename_i p hp
        cases h
        exact hp
      · cases h
    · cases h
  · rintro s' r ⟨rfl, h⟩
    rcases r with e | ⟨id', p⟩
    · exact ⟨rfl, by nofun⟩
    · refine ⟨rfl, fun ht => ?_⟩
      simp only [Bool.and_eq_true, decide_eq_true_eq] at ht
      obtain ⟨⟨rfl, -⟩, hx⟩ := ht
      exact ⟨p, h _ rfl, p.insns_of_xlated hx⟩

theorem verified_always {original : Fd} (hI : I s) : Prog.Always admissible I
    (fun s' r => s' = s ∧ (r = true → ∃ c p, s.fds cg = some (.cgroup c) ∧
      s.hooks c t = ⟨0, [id]⟩ ∧ s.programs id = some p ∧ p.insns = allowOnly))
    (verified cg t original id s) := by
  refine (unconditionalAllow_always hI).bind fun s₁ r h => ?_
  obtain ⟨rfl, hallow⟩ := h
  refine Act.always_ite (fun hr => ?_) fun _ => ⟨rfl, by nofun⟩
  refine (queryExclusive_always hI).bind fun s₂ r₂ h₂ => ?_
  obtain ⟨rfl, hquery⟩ := h₂
  rcases r₂ with e | checked
  · exact ⟨rfl, by nofun⟩
  · refine ⟨rfl, fun hc => ?_⟩
    obtain rfl : checked = id := by simpa using hc
    obtain ⟨p, hp, hi⟩ := hallow hr
    obtain ⟨c, hcg, hh⟩ := hquery _ rfl
    exact ⟨c, p, hcg, hh, hp, hi⟩

/-! ## Attaching -/

/-- The state with an original opened. -/
def State.opening (s : State) (cg : Fd) (id : ProgId) (fd : Fd) : State :=
  { s.setFd fd (some (.program id (some s.opened.length))) with opened := s.opened ++ [(cg, id)] }

theorem openOriginal_always (hI : I s) : Prog.Always admissible I
    (fun s' r => (∃ e, r = .error e ∧ s' = s) ∨
      ∃ fd, r = .ok fd ∧ s.fds fd = none ∧ s' = s.opening cg id fd)
    (openOriginal cg id s) := by
  refine ⟨hI, fun r hr => ?_⟩
  rcases r with e | fd
  · exact .inl ⟨e, rfl, rfl⟩
  · have free : s.isFree fd = true := hr
    simp only [State.isFree, decide_eq_true_eq] at free
    dsimp only
    split
    · exact .inr ⟨fd, rfl, free.2, rfl⟩
    · exact .inl ⟨_, rfl, rfl⟩

/-- What `bpf2socks_bpf_prog_attach` can do. -/
inductive AttachOutcome (s : State) (cg prog : Fd) (t : AttachType) : State → Option Errno → Prop
  /-- The program is one of several. -/
  | joined {c : Cgroup} {id : ProgId} {o : Option Nat} (cgroup : s.fds cg = some (.cgroup c))
      (program : s.fds prog = some (.program id o))
      (hook : (s.hooks c t).progs = [] ∨ (s.hooks c t).flags = allowMulti)
      (new : id ∉ (s.hooks c t).progs) :
      AttachOutcome s cg prog t (s.setHook c t ⟨allowMulti, (s.hooks c t).progs ++ [id]⟩) none
  | refused (e : Errno) : AttachOutcome s cg prog t s (some e)
  /-- The original was opened and closed again. -/
  | closed {id : ProgId} {fd : Fd} (exclusive : exclusiveHook t = true) (free : s.fds fd = none)
      (e : Errno) :
      AttachOutcome s cg prog t ((s.opening cg id fd).closeOriginal fd) (some e)
  /-- The program has the place of the original. -/
  | replaced {c : Cgroup} {id new : ProgId} {o : Option Nat} {p : Program} {fd : Fd} {slot : Fin 6}
      (exclusive : exclusiveHook t = true) (free : s.fds fd = none)
      (cgroup : s.fds cg = some (.cgroup c))
      (attached : (s.opening cg id fd).fds prog = some (.program new o))
      (hook : s.hooks c t = ⟨0, [id]⟩) (program : s.programs id = some p)
      (allows : p.insns = allowOnly) (inactive : (s.slots slot).active = false)
      (unrecorded : ∀ i, (s.slots i).isFor cg t = false) :
      AttachOutcome s cg prog t
        (((s.opening cg id fd).setHook c t ⟨0, [new]⟩).setSlot slot ⟨true, cg, prog, fd, t⟩) none

theorem attachOver_always {saved : Errno} {slot : Fin 6} (hI : I (s.opening cg id fd))
    (exclusive : exclusiveHook t = true) (free : s.fds fd = none)
    (inactive : (s.slots slot).active = false)
    (unrecorded : ∀ i, (s.slots i).isFor cg t = false) :
    Prog.Always admissible I (AttachOutcome s cg prog t)
      (attachOver cg prog t saved slot id fd (s.opening cg id fd)) := by
  refine (verified_always hI).bind fun s₁ r h => ?_
  obtain ⟨rfl, hver⟩ := h
  refine Act.always_ite (fun hr => ?_) fun _ => .closed exclusive free saved
  obtain ⟨c, p, hcg, hhook, hprog, hallow⟩ := hver hr
  -- the cgroup's descriptor is not the new one
  have hcg' : s.fds cg = some (.cgroup c) := by
    have hne : cg ≠ fd := by
      rintro rfl
      have : (s.opening cg id cg).fds cg = some (.program id (some s.opened.length)) :=
        update_self ..
      exact nomatch this.symm.trans hcg
    exact (update_of_ne hne ..).symm.trans hcg
  refine (attachWithFlags_zero_always hI).bind fun s₂ r₂ h₂ => ?_
  rcases h₂ with ⟨hne, rfl⟩ | ⟨c', new, o, rfl, hc', hp', rfl⟩
  · obtain ⟨e, rfl⟩ := Option.ne_none_iff_exists'.mp hne
    exact .closed exclusive free e
  · cases hcg.symm.trans hc'
    exact .replaced exclusive free hcg' hp' hhook hprog hallow inactive unrecorded

/-- The parts of a state that other processes see. -/
structure SameKernel (s s' : State) : Prop where
  hooks : s'.hooks = s.hooks
  programs : s'.programs = s.programs
  pins : s'.pins = s.pins

theorem attachExclusive_always {saved : Errno} (exclusive : exclusiveHook t = true)
    (hsame : ∀ s', SameKernel s s' → I s') :
    Prog.Always admissible I (AttachOutcome s cg prog t) (attachExclusive cg prog t saved s) := by
  have hI : I s := hsame s ⟨rfl, rfl, rfl⟩
  refine Act.always_ite (fun _ => .refused _) fun hany => ?_
  have unrecorded : ∀ i, (s.slots i).isFor cg t = false := by
    intro i
    by_contra h
    exact hany (List.any_eq_true.mpr ⟨i, List.mem_finRange i, by simpa using h⟩)
  cases hslot : s.freeSlot with
  | none => exact .refused saved
  | some slot =>
      have inactive : (s.slots slot).active = false := by
        simpa using List.find?_some hslot
      refine (queryExclusive_always hI).bind fun s₁ r h => ?_
      obtain ⟨rfl, -⟩ := h
      rcases r with e | id
      · exact .refused saved
      · refine (openOriginal_always hI).bind fun s₂ r₂ h₂ => ?_
        rcases h₂ with ⟨e, rfl, rfl⟩ | ⟨fd, rfl, free, rfl⟩
        · exact .refused saved
        · exact attachOver_always (hsame _ ⟨rfl, rfl, rfl⟩) exclusive free inactive unrecorded

theorem progAttach_always (hsame : ∀ s', SameKernel s s' → I s') :
    Prog.Always admissible I (AttachOutcome s cg prog t) (progAttach cg prog t s) := by
  have hI : I s := hsame s ⟨rfl, rfl, rfl⟩
  refine (attachWithFlags_multi_always hI).bind fun s₁ r h => ?_
  rcases h with ⟨hne, rfl⟩ | ⟨c, id, o, rfl, hcg, hprog, hook, hnew, rfl⟩
  · obtain ⟨saved, rfl⟩ := Option.ne_none_iff_exists'.mp hne
    exact Act.always_ite (fun _ => .refused saved) fun hn =>
      attachExclusive_always (by simpa using fun h => hn (.inr h)) hsame
  · exact .joined hcg hprog hook hnew

/-! ## Detaching -/

/-- What `bpf2socks_bpf_prog_detach` can do. -/
inductive DetachOutcome (s : State) (cg prog : Fd) (t : AttachType) : State → Option Errno → Prop
  | refused (e : Errno) : DetachOutcome s cg prog t s (some e)
  /-- The program is not there. -/
  | absent {c : Cgroup} {id : ProgId} {o : Option Nat} (unrecorded : s.recordOf cg prog t = none)
      (cgroup : s.fds cg = some (.cgroup c)) (program : s.fds prog = some (.program id o))
      (gone : id ∉ (s.hooks c t).progs) : DetachOutcome s cg prog t s none
  /-- The program is taken from among several. -/
  | removed {c : Cgroup} {id : ProgId} {o : Option Nat} (unrecorded : s.recordOf cg prog t = none)
      (cgroup : s.fds cg = some (.cgroup c)) (program : s.fds prog = some (.program id o)) :
      DetachOutcome s cg prog t (s.setHook c t ((s.hooks c t).without id)) none
  /-- Somebody has changed the hook, and the record is given up. -/
  | changed {i : Fin 6} (recorded : s.recordOf cg prog t = some i) :
      DetachOutcome s cg prog t (s.giveUp i) (some .ebusy)
  /-- The original is back. -/
  | restored {i : Fin 6} {c : Cgroup} {id old : ProgId} {o o' : Option Nat}
      (recorded : s.recordOf cg prog t = some i) (cgroup : s.fds cg = some (.cgroup c))
      (program : s.fds prog = some (.program id o)) (hook : s.hooks c t = ⟨0, [id]⟩)
      (original : s.fds (s.slots i).originalFd = some (.program old o')) :
      DetachOutcome s cg prog t ((s.setHook c t ⟨0, [old]⟩).giveUp i) none

theorem detachRecorded_always {o : Option Nat} (hI : I s) (recorded : s.recordOf cg prog t = some i)
    (hcg : s.fds cg = some (.cgroup c)) (hprog : s.fds prog = some (.program id o)) :
    Prog.Always admissible I (DetachOutcome s cg prog t)
      (detachRecorded cg t i id (s.hooks c t) s) := by
  refine Act.always_ite (fun _ => .changed recorded) fun hsame => ?_
  simp only [not_or, not_not] at hsame
  obtain ⟨hmem, hlen, hflags⟩ := hsame
  have hook : s.hooks c t = ⟨0, [id]⟩ := by
    rcases hh : s.hooks c t with ⟨flags, progs⟩
    rw [hh] at hmem hlen hflags
    obtain ⟨a, rfl⟩ := List.length_eq_one_iff.mp hlen
    rw [List.mem_singleton.mp hmem, show flags = 0 from hflags]
  refine (attachWithFlags_zero_always hI).bind fun s₁ r h => ?_
  rcases h with ⟨hne, rfl⟩ | ⟨c', old, o', rfl, hc', ho, rfl⟩
  · obtain ⟨e, rfl⟩ := Option.ne_none_iff_exists'.mp hne
    exact .refused e
  · cases hcg.symm.trans hc'
    exact .restored recorded hcg hprog hook ho

theorem detachFrom_always {o : Option Nat} (hI : I s) (hcg : s.fds cg = some (.cgroup c))
    (hprog : s.fds prog = some (.program id o)) :
    Prog.Always admissible I (DetachOutcome s cg prog t)
      (detachFrom cg prog t id (s.hooks c t) s) := by
  unfold detachFrom
  cases hr : s.recordOf cg prog t with
  | some i =>
      simp only [Act.bind_run, Act.get_run, Prog.ret_bind, hr]
      exact detachRecorded_always hI hr hcg hprog
  | none =>
      simp only [Act.bind_run, Act.get_run, Prog.ret_bind, hr]
      refine Act.always_ite (fun hgone => .absent hr hcg hprog hgone) fun _ =>
        Act.always_ite (fun _ => .refused _) fun hm => ?_
      refine acts_always hI (fun e => .refused e) fun s' h => ?_
      simp only [State.detach, hcg, hprog] at h
      rw [if_pos (not_not.mp hm)] at h
      split at h
      · cases h
        exact .removed hr hcg hprog
      · cases h

theorem progDetach_always (hI : I s) :
    Prog.Always admissible I (DetachOutcome s cg prog t) (progDetach cg prog t s) := by
  refine Act.always_ite (fun _ => .refused _) fun _ => ?_
  refine Prog.Always.bind (m := fun s' r => s' = s ∧ ∀ a, r = .ok a →
    ∃ o, s.fds prog = some (.program a.1 o)) (reads_always hI (fun e => ⟨rfl, by nofun⟩) ?_) ?_
  · intro a h
    refine ⟨rfl, fun a' he => ?_⟩
    cases he
    unfold State.info at h
    split at h
    · rename_i id o hp
      split at h
      · cases h
        exact ⟨o, hp⟩
      · cases h
    · cases h
  · rintro s₁ r ⟨rfl, hinfo⟩
    rcases r with e | ⟨id, p⟩
    · exact .refused e
    · obtain ⟨o, hprog⟩ := hinfo _ rfl
      refine Act.always_ite (fun _ => .refused _) fun _ => ?_
      refine Prog.Always.bind (m := fun s' r => s' = s₁ ∧ ∀ h, r = .ok h →
        ∃ c, s₁.fds cg = some (.cgroup c) ∧ h = s₁.hooks c t)
        (reads_always hI (fun e => ⟨rfl, by nofun⟩) ?_) ?_
      · intro h hq
        refine ⟨rfl, fun h' he => ?_⟩
        cases he
        unfold State.query at hq
        split at hq
        · rename_i c hc
          split at hq
          · cases hq
          · cases hq
            exact ⟨c, hc, rfl⟩
        · cases hq
      · rintro s₂ r ⟨rfl, hquery⟩
        rcases r with e | h
        · exact .refused e
        · obtain ⟨c, hcg, rfl⟩ := hquery _ rfl
          exact Act.always_ite (fun _ => .refused _) fun _ => detachFrom_always hI hcg hprog

/-! ## Records -/

theorem hooks_setHook {hook : Hook} : (s.setHook c t hook).hooks c t = hook := by
  show update s.hooks c (update (s.hooks c) t hook) c t = hook
  rw [update_self, update_self]

/-- The descriptor of an active record stands for its original, which has this number. -/
def State.Holds (s : State) (i : Fin 6) (id : ProgId) (n : Nat) : Prop :=
  (s.slots i).active = true ∧ s.fds (s.slots i).originalFd = some (.program id (some n))

/-- The invariant of the records. -/
structure Kept (s : State) : Prop where
  single : ∀ i j, (s.slots i).active = true → (s.slots j).active = true →
    (s.slots i).cgroupFd = (s.slots j).cgroupFd → (s.slots i).type = (s.slots j).type → i = j
  held : ∀ i, (s.slots i).active = true → ∃ id n, s.Holds i id n
  opened : ∀ i id n, s.Holds i id n →
    s.opened[n]? = some ((s.slots i).cgroupFd, id) ∧ some n ∉ s.closed
  distinct : ∀ i j id id' n, s.Holds i id n → s.Holds j id' n → i = j
  /-- Every descriptor that was opened is held or was closed once. -/
  ledger : ∀ n, n < s.opened.length → s.closed.count (some n) = 1 ∨ ∃ i id, s.Holds i id n
  bounded : ∀ n, some n ∈ s.closed → n < s.opened.length
  /-- Nothing else was closed. -/
  clean : none ∉ s.closed

theorem kept_fresh (h : Fresh s) : Kept s := by
  have hno : ∀ {i}, (s.slots i).active ≠ true := by
    intro i
    rw [h.slots i]
    decide
  refine ⟨fun i _ hi => absurd hi hno, fun i hi => absurd hi hno, fun i _ _ hi => absurd hi.1 hno,
    fun i _ _ _ _ hi => absurd hi.1 hno, fun n hn => ?_, fun n hn => ?_, ?_⟩
  · rw [h.opened] at hn
    cases hn
  · rw [h.closed] at hn
    cases hn
  · rw [h.closed]
    exact List.not_mem_nil

/-- Hooks, programs and others' descriptors do not matter. -/
theorem Kept.external (h : Kept s) (hslots : s'.slots = s.slots) (hopened : s'.opened = s.opened)
    (hclosed : s'.closed = s.closed) (hfds : SameOriginals s.fds s'.fds) : Kept s' := by
  have hholds : ∀ {i id n}, s'.Holds i id n ↔ s.Holds i id n := by
    intro i id n
    unfold State.Holds
    rw [hslots, hfds]
  refine ⟨?_, fun i hi => ?_, fun i id n hh => ?_, fun i j id id' n hi hj => ?_, fun n hn => ?_, ?_, ?_⟩
  · rw [hslots]
    exact h.single
  · rw [hslots] at hi
    obtain ⟨id, n, hh⟩ := h.held i hi
    exact ⟨id, n, hholds.mpr hh⟩
  · rw [hslots, hopened, hclosed]
    exact h.opened i id n (hholds.mp hh)
  · exact h.distinct i j id id' n (hholds.mp hi) (hholds.mp hj)
  · rw [hopened] at hn
    rw [hclosed]
    rcases h.ledger n hn with hc | ⟨i, id, hh⟩
    · exact .inl hc
    · exact .inr ⟨i, id, hholds.mpr hh⟩
  · rw [hclosed, hopened]
    exact h.bounded
  · rw [hclosed]
    exact h.clean

theorem Kept.setHook (h : Kept s) (c : Cgroup) (t : AttachType) (hook : Hook) :
    Kept (s.setHook c t hook) :=
  h.external rfl rfl rfl fun _ _ _ => Iff.rfl

/-- Closing a descriptor that stands for an original. -/
theorem closeOriginal_closed {n : Nat} (h : s.fds fd = some (.program id (some n))) :
    (s.closeOriginal fd).closed = s.closed ++ [some n] := by
  simp only [State.closeOriginal, h]

theorem count_close {l : List (Option Nat)} {n m : Nat} :
    (l ++ [some n]).count (some m) = l.count (some m) + if n = m then 1 else 0 := by
  rw [List.count_append, List.count_singleton]
  simp

/-- The records after one is given up. -/
theorem slots_giveUp (hj : ((s.giveUp i).slots j).active = true) :
    j ≠ i ∧ (s.giveUp i).slots j = s.slots j := by
  have hj' : (update s.slots i { s.slots i with active := false } j).active = true := hj
  by_cases he : j = i
  · subst he
    rw [update_self] at hj'
    cases hj'
  · exact ⟨he, update_of_ne he ..⟩

theorem holds_giveUp {id : ProgId} {n : Nat} (hj : (s.giveUp i).Holds j id n) :
    j ≠ i ∧ s.Holds j id n := by
  obtain ⟨hne, heq⟩ := slots_giveUp hj.1
  refine ⟨hne, heq ▸ hj.1, ?_⟩
  have hfd : update s.fds (s.slots i).originalFd none (s.slots j).originalFd =
      some (.program id (some n)) := heq ▸ hj.2
  by_cases he : (s.slots j).originalFd = (s.slots i).originalFd
  · rw [he, update_self] at hfd
    cases hfd
  · rwa [update_of_ne he] at hfd

/-- Other descriptors than those of originals stay open. -/
theorem Kept.fds_giveUp (h : Kept s) (hi : (s.slots i).active = true) {k : Fd} {d : Descriptor}
    (hd : ∀ id n, d ≠ .program id (some n)) (hk : s.fds k = some d) :
    (s.giveUp i).fds k = some d := by
  obtain ⟨id, n, hh⟩ := h.held i hi
  refine (update_of_ne ?_ ..).trans hk
  rintro rfl
  exact hd id n (Option.some.inj (hk.symm.trans hh.2))

/-- **A record is given up**: its descriptor is closed for the first time. -/
theorem Kept.giveUp (h : Kept s) (hi : (s.slots i).active = true) : Kept (s.giveUp i) := by
  obtain ⟨id, n, hh⟩ := h.held i hi
  obtain ⟨hopen, hnot⟩ := h.opened i id n hh
  have hclosed : (s.giveUp i).closed = s.closed ++ [some n] := closeOriginal_closed hh.2
  -- no other record holds this descriptor
  have hother : ∀ {j id' m}, j ≠ i → s.Holds j id' m →
      (s.slots j).originalFd ≠ (s.slots i).originalFd := by
    intro j id' m hne hj he
    have := hj.2
    rw [he, hh.2] at this
    cases this
    exact hne (h.distinct j i _ _ _ hj hh)
  have hkeep : ∀ {j id' m}, j ≠ i → s.Holds j id' m → (s.giveUp i).Holds j id' m := by
    intro j id' m hne hj
    have heq : (s.giveUp i).slots j = s.slots j := update_of_ne hne ..
    refine ⟨heq ▸ hj.1, ?_⟩
    rw [heq]
    exact (update_of_ne (hother hne hj) ..).trans hj.2
  refine ⟨fun j k hj hk hc ht => ?_, fun j hj => ?_, fun j id' m hj => ?_,
    fun j k id' id'' m hj hk => ?_, fun m hm => ?_, fun m hm => ?_, ?_⟩
  · rw [(slots_giveUp hj).2, (slots_giveUp hk).2] at hc ht
    exact h.single j k ((slots_giveUp hj).2 ▸ hj) ((slots_giveUp hk).2 ▸ hk) hc ht
  · obtain ⟨hne, heq⟩ := slots_giveUp hj
    obtain ⟨id', m, hm⟩ := h.held j (heq ▸ hj)
    exact ⟨id', m, hkeep hne hm⟩
  · obtain ⟨hne, hj'⟩ := holds_giveUp hj
    obtain ⟨ho, hn⟩ := h.opened j id' m hj'
    rw [(slots_giveUp hj.1).2]
    refine ⟨ho, ?_⟩
    rw [hclosed, List.mem_append, List.mem_singleton]
    rintro (hm | hm)
    · exact hn hm
    · cases hm
      exact hne (h.distinct j i _ _ _ hj' hh)
  · exact h.distinct j k id' id'' m (holds_giveUp hj).2 (holds_giveUp hk).2
  -- closed now for the first time, or held or closed once as before
  · rw [hclosed, count_close]
    by_cases hnm : n = m
    · subst hnm
      rw [if_pos rfl, List.count_eq_zero_of_not_mem hnot]
      exact .inl rfl
    · rw [if_neg hnm]
      rcases h.ledger m hm with hc | ⟨j, id', hj⟩
      · exact .inl hc
      · refine .inr ⟨j, id', hkeep ?_ hj⟩
        rintro rfl
        have := hh.2.symm.trans hj.2
        cases this
        exact hnm rfl
  · rw [hclosed, List.mem_append, List.mem_singleton] at hm
    rcases hm with hm | hm
    · exact h.bounded m hm
    · cases hm
      exact (List.getElem?_eq_some_iff.mp hopen).1
  · rw [hclosed, List.mem_append, List.mem_singleton]
    rintro (hm | hm)
    · exact h.clean hm
    · cases hm

theorem Kept.length_not_closed (h : Kept s) : some s.opened.length ∉ s.closed := fun hm =>
  absurd (h.bounded _ hm) (Nat.lt_irrefl _)

theorem getElem?_opening {n : Nat} {x : Fd × ProgId} (h : s.opened[n]? = some x) :
    (s.opened ++ [(cg, id)])[n]? = some x := by
  rw [List.getElem?_append_left (List.getElem?_eq_some_iff.mp h).1]
  exact h

theorem fds_openClose (free : s.fds fd = none) :
    ((s.opening cg id fd).closeOriginal fd).fds = s.fds := by
  funext k
  show update (update s.fds fd _) fd none k = s.fds k
  by_cases hk : k = fd
  · rw [hk, update_self, free]
  · rw [update_of_ne hk, update_of_ne hk]

/-- **An original is opened and closed again.** -/
theorem Kept.openClose (h : Kept s) (free : s.fds fd = none) :
    Kept ((s.opening cg id fd).closeOriginal fd) := by
  have hfds : ((s.opening cg id fd).closeOriginal fd).fds = s.fds := fds_openClose free
  have hclosed : ((s.opening cg id fd).closeOriginal fd).closed =
      s.closed ++ [some s.opened.length] :=
    closeOriginal_closed (s := s.opening cg id fd) (update_self ..)
  -- no record held the descriptor that came and went
  have hholds : ∀ {i id' n}, ((s.opening cg id fd).closeOriginal fd).Holds i id' n ↔
      s.Holds i id' n := by
    intro i id' n
    unfold State.Holds
    rw [hfds]
    rfl
  refine ⟨h.single, fun i hi => ?_, fun i id' n hh => ?_, fun i j id' id'' n hi hj => ?_,
    fun n hn => ?_, fun n hn => ?_, ?_⟩
  · obtain ⟨id', n, hh⟩ := h.held i hi
    exact ⟨id', n, hholds.mpr hh⟩
  · obtain ⟨ho, hnot⟩ := h.opened i id' n (hholds.mp hh)
    refine ⟨getElem?_opening ho, ?_⟩
    rw [hclosed, List.mem_append, List.mem_singleton]
    rintro (hm | hm)
    · exact hnot hm
    · cases hm
      exact absurd (List.getElem?_eq_some_iff.mp ho).1 (Nat.lt_irrefl _)
  · exact h.distinct i j id' id'' n (hholds.mp hi) (hholds.mp hj)
  · have hn' : n < s.opened.length + 1 := by
      have : n < (s.opened ++ [(cg, id)]).length := hn
      rwa [List.length_append] at this
    rw [hclosed, count_close]
    by_cases hl : s.opened.length = n
    · rw [if_pos hl, ← hl, List.count_eq_zero_of_not_mem h.length_not_closed]
      exact .inl rfl
    · rw [if_neg hl]
      rcases h.ledger n (by omega) with hc | ⟨i, id', hh⟩
      · exact .inl hc
      · exact .inr ⟨i, id', hholds.mpr hh⟩
  · show n < (s.opened ++ [(cg, id)]).length
    rw [hclosed, List.mem_append, List.mem_singleton] at hn
    rw [List.length_append]
    rcases hn with hn | hn
    · exact Nat.lt_succ_of_lt (h.bounded n hn)
    · cases hn
      exact Nat.lt_succ_self _
  · rw [hclosed, List.mem_append, List.mem_singleton]
    rintro (hm | hm)
    · exact h.clean hm
    · cases hm

theorem Record.isFor_iff {r : Record} :
    r.isFor cg t = true ↔ r.active = true ∧ r.cgroupFd = cg ∧ r.type = t := by
  simp only [Record.isFor, Bool.and_eq_true, decide_eq_true_eq, and_assoc]

/-- What is held after a new record: its original, or what was held before. -/
theorem Kept.holds_record (h : Kept s) {slot : Fin 6} {id' : ProgId} {n : Nat}
    (free : s.fds fd = none)
    (hh : ((s.opening cg id fd).setSlot slot ⟨true, cg, prog, fd, t⟩).Holds i id' n) :
    (i = slot ∧ id' = id ∧ n = s.opened.length) ∨ (i ≠ slot ∧ s.Holds i id' n) := by
  obtain ⟨ha, hf⟩ := hh
  have ha' : (update s.slots slot ⟨true, cg, prog, fd, t⟩ i).active = true := ha
  have hf' : update s.fds fd (some (.program id (some s.opened.length)))
      (update s.slots slot ⟨true, cg, prog, fd, t⟩ i).originalFd = some (.program id' (some n)) := hf
  by_cases hi : i = slot
  · rw [hi, update_self, update_self] at hf'
    cases hf'
    exact .inl ⟨hi, rfl, rfl⟩
  · rw [update_of_ne hi] at ha' hf'
    refine .inr ⟨hi, ha', ?_⟩
    rwa [update_of_ne ?_] at hf'
    intro he
    obtain ⟨id₀, n₀, h₀⟩ := h.held i ha'
    rw [State.Holds, he, free] at h₀
    cases h₀.2

/-- **An original is opened and recorded.** -/
theorem Kept.record (h : Kept s) {slot : Fin 6} (free : s.fds fd = none)
    (inactive : (s.slots slot).active = false) (unrecorded : ∀ i, (s.slots i).isFor cg t = false) :
    Kept ((s.opening cg id fd).setSlot slot ⟨true, cg, prog, fd, t⟩) := by
  generalize hs' : (s.opening cg id fd).setSlot slot ⟨true, cg, prog, fd, t⟩ = s'
  have hslot : s'.slots slot = ⟨true, cg, prog, fd, t⟩ := by
    rw [← hs']
    exact update_self ..
  have hold : ∀ {i}, i ≠ slot → s'.slots i = s.slots i := by
    intro i hi
    rw [← hs']
    exact update_of_ne hi ..
  have hactive : ∀ {i}, (s.slots i).active = true → i ≠ slot := by
    rintro i hi rfl
    rw [inactive] at hi
    cases hi
  have hnew : s'.Holds slot id s.opened.length := by
    refine ⟨by rw [hslot], ?_⟩
    rw [hslot, ← hs']
    exact update_self ..
  have hfd : ∀ {k}, s.fds k ≠ none → s'.fds k = s.fds k := by
    intro k hk
    rw [← hs']
    refine update_of_ne ?_ ..
    rintro rfl
    exact hk free
  have hkeep : ∀ {i id' n}, s.Holds i id' n → s'.Holds i id' n := by
    intro i id' n hh
    have hne := hactive hh.1
    refine ⟨by rw [hold hne]; exact hh.1, ?_⟩
    rw [hold hne, hfd (by rw [hh.2]; nofun)]
    exact hh.2
  have hholds : ∀ {i id' n}, s'.Holds i id' n →
      (i = slot ∧ id' = id ∧ n = s.opened.length) ∨ (i ≠ slot ∧ s.Holds i id' n) := by
    intro i id' n hh
    rw [← hs'] at hh
    exact h.holds_record free hh
  have hopened : s'.opened = s.opened ++ [(cg, id)] := by rw [← hs']; rfl
  have hclosed : s'.closed = s.closed := by rw [← hs']; rfl
  have hfresh : ∀ {i id' n}, s.Holds i id' n → n ≠ s.opened.length := by
    rintro i id' n hh rfl
    exact absurd (List.getElem?_eq_some_iff.mp (h.opened i id' _ hh).1).1 (Nat.lt_irrefl _)
  -- another record is not for this hook
  have hsingle : ∀ {i}, i ≠ slot → (s'.slots i).active = true → (s'.slots i).cgroupFd = cg →
      (s'.slots i).type = t → False := by
    intro i hi ha hc ht
    rw [hold hi] at ha hc ht
    have := unrecorded i
    rw [Record.isFor_iff.mpr ⟨ha, hc, ht⟩] at this
    cases this
  refine ⟨fun i j hi hj hc ht => ?_, fun i hi => ?_, fun i id' n hh => ?_,
    fun i j id' id'' n hi hj => ?_, fun n hn => ?_, fun n hn => ?_, ?_⟩
  · by_cases his : i = slot <;> by_cases hjs : j = slot
    · rw [his, hjs]
    · rw [his, hslot] at hc ht
      exact (hsingle hjs hj hc.symm ht.symm).elim
    · rw [hjs, hslot] at hc ht
      exact (hsingle his hi hc ht).elim
    · rw [hold his, hold hjs] at hc ht
      exact h.single i j (hold his ▸ hi) (hold hjs ▸ hj) hc ht
  · by_cases his : i = slot
    · subst his
      exact ⟨_, _, hnew⟩
    · obtain ⟨id', n, hh⟩ := h.held i (hold his ▸ hi)
      exact ⟨id', n, hkeep hh⟩
  · rw [hopened, hclosed]
    rcases hholds hh with ⟨rfl, rfl, rfl⟩ | ⟨hi, hh⟩
    · rw [hslot]
      exact ⟨List.getElem?_concat_length, h.length_not_closed⟩
    · obtain ⟨ho, hn⟩ := h.opened i id' n hh
      rw [hold hi]
      exact ⟨getElem?_opening ho, hn⟩
  · rcases hholds hi with ⟨rfl, rfl, rfl⟩ | ⟨-, hi⟩ <;>
      rcases hholds hj with ⟨rfl, rfl, hn⟩ | ⟨-, hj⟩
    · rfl
    · exact absurd rfl (hfresh hj)
    · exact absurd hn (hfresh hi)
    · exact h.distinct i j id' id'' n hi hj
  · rw [hopened, List.length_append] at hn
    rw [hclosed]
    by_cases hl : n = s.opened.length
    · exact .inr ⟨slot, id, hl ▸ hnew⟩
    · have hn' : n < s.opened.length + 1 := hn
      rcases h.ledger n (by omega) with hc | ⟨i, id', hh⟩
      · exact .inl hc
      · exact .inr ⟨i, id', hkeep hh⟩
  · rw [hopened, List.length_append]
    rw [hclosed] at hn
    exact Nat.lt_succ_of_lt (h.bounded n hn)
  · rw [hclosed]
    exact h.clean

theorem Kept.attach {r : Option Errno} (h : Kept s) (ho : AttachOutcome s cg prog t s' r) :
    Kept s' := by
  cases ho with
  | joined _ _ _ _ => exact h.setHook ..
  | refused e => exact h
  | closed _ free e => exact h.openClose free
  | replaced _ free _ _ _ _ _ inactive unrecorded => exact (h.record free inactive unrecorded).setHook ..

theorem recordOf_some (h : s.recordOf cg prog t = some i) : (s.slots i).active = true ∧
    (s.slots i).cgroupFd = cg ∧ (s.slots i).type = t ∧ (s.slots i).progFd = prog := by
  have hi := List.find?_some h
  simp only [Bool.and_eq_true, decide_eq_true_eq] at hi
  obtain ⟨ha, hc, ht⟩ := Record.isFor_iff.mp hi.1
  exact ⟨ha, hc, ht, hi.2⟩

theorem Kept.detach {r : Option Errno} (h : Kept s) (ho : DetachOutcome s cg prog t s' r) :
    Kept s' := by
  cases ho with
  | refused e => exact h
  | absent _ _ _ _ => exact h
  | removed _ _ _ => exact h.setHook ..
  | changed recorded => exact h.giveUp (recordOf_some recorded).1
  | restored recorded _ _ _ _ => exact (h.setHook ..).giveUp (recordOf_some recorded).1

/-! ## Restoring -/

/-- No record is new or other than it was. -/
def Fewer (s s' : State) : Prop := ∀ i, (s'.slots i).active = true → s'.slots i = s.slots i

theorem Fewer.trans {s₁ s₂ s₃ : State} (h : Fewer s₁ s₂) (h' : Fewer s₂ s₃) : Fewer s₁ s₃ := by
  intro i hi
  have he := h' i hi
  exact he.trans (h i (he ▸ hi))

theorem fewer_giveUp : Fewer s (s.giveUp i) := fun _ hj => (slots_giveUp hj).2

theorem DetachOutcome.fewer {r : Option Errno} (ho : DetachOutcome s cg prog t s' r) :
    Fewer s s' := by
  cases ho with
  | refused e => exact fun _ _ => rfl
  | absent _ _ _ _ => exact fun _ _ => rfl
  | removed _ _ _ => exact fun _ _ => rfl
  | changed _ => exact fewer_giveUp
  | restored _ _ _ _ _ => exact fewer_giveUp

/-- The record is none of the cgroup's. -/
def State.Free (s : State) (cg : Fd) (i : Fin 6) : Prop :=
  ¬ ((s.slots i).active = true ∧ (s.slots i).cgroupFd = cg)

theorem State.Free.fewer (h : s.Free cg i) (hf : Fewer s s') : s'.Free cg i := by
  rintro ⟨ha, hc⟩
  have he := hf i ha
  exact h ⟨he ▸ ha, he ▸ hc⟩

section Restore

-- `J` is what detaching from the cgroup and giving records up keep
variable {J : State → Prop}
  (hdetach : ∀ s prog t, J s →
    Prog.Always admissible I (fun s' _ => J s' ∧ Fewer s s') (progDetach cg prog t s))
  (hgive : ∀ s i, J s → (s.slots i).active = true → J (s.giveUp i))

include hdetach hgive

theorem restoreSlot_always (h : J s) : Prog.Always admissible I
    (fun s' _ => J s' ∧ Fewer s s' ∧ s'.Free cg i) (restoreSlot cg i s) := by
  refine Act.always_ite (fun hskip => ?_) fun _ => ?_
  · refine ⟨h, fun _ _ => rfl, fun hf => ?_⟩
    rcases hskip with hs | hs
    · rw [hf.1] at hs
      cases hs
    · exact hs hf.2
  · refine (hdetach s _ _ h).bind fun s₁ r h₁ => ?_
    obtain ⟨hj, hf⟩ := h₁
    show J (if (s₁.slots i).active then s₁.giveUp i else s₁) ∧
      Fewer s (if (s₁.slots i).active then s₁.giveUp i else s₁) ∧
      (if (s₁.slots i).active then s₁.giveUp i else s₁).Free cg i
    split
    · rename_i ha
      exact ⟨hgive _ _ hj ha, hf.trans fewer_giveUp, fun hb => (slots_giveUp hb.1).1 rfl⟩
    · rename_i ha
      exact ⟨hj, hf, fun hb => ha hb.1⟩

theorem restoreSlots_always (is : List (Fin 6)) (h : J s) : Prog.Always admissible I
    (fun s' _ => J s' ∧ Fewer s s' ∧ ∀ i ∈ is, s'.Free cg i) (restoreSlots cg is s) := by
  induction is generalizing s with
  | nil => exact ⟨h, fun _ _ => rfl, by nofun⟩
  | cons i is ih =>
      refine (restoreSlot_always hdetach hgive h).bind fun s₁ r h₁ => ?_
      obtain ⟨hj, hf, hfree⟩ := h₁
      refine (ih hj).bind fun s₂ r₂ h₂ => ?_
      obtain ⟨hj₂, hf₂, hfree₂⟩ := h₂
      refine ⟨hj₂, hf.trans hf₂, fun j hj => ?_⟩
      rcases List.mem_cons.mp hj with rfl | hj
      · exact hfree.fewer hf₂
      · exact hfree₂ j hj

theorem cgroupRestore_always (h : J s) : Prog.Always admissible I
    (fun s' _ => J s' ∧ ∀ i, s'.Free cg i) (cgroupRestore cg s) :=
  (restoreSlots_always hdetach hgive _ h).mono fun _ _ h' =>
    ⟨h'.1, fun i => h'.2.2 i (List.mem_finRange i)⟩

end Restore

/-! ## Runs -/

theorem attach_out {r : Option Errno} (h : Prog.Out admissible (progAttach cg prog t s) s' r) :
    AttachOutcome s cg prog t s' r :=
  (progAttach_always (fun _ _ => trivial) : Prog.Always _ (fun _ => True) _ _).sat.out h

theorem detach_out {r : Option Errno} (h : Prog.Out admissible (progDetach cg prog t s) s' r) :
    DetachOutcome s cg prog t s' r :=
  (progDetach_always trivial : Prog.Always _ (fun _ => True) _ _).sat.out h

theorem restore_out {r : Bool} (h : Kept s) (ho : Prog.Out admissible (cgroupRestore cg s) s' r) :
    Kept s' ∧ ∀ i, s'.Free cg i := by
  have hall : Prog.Always admissible (fun _ => True) _ (cgroupRestore cg s) :=
    cgroupRestore_always (fun s prog t hk => (progDetach_always trivial).mono fun s' r ho =>
      ⟨hk.detach ho, ho.fewer⟩) (fun s i hk ha => hk.giveUp ha) h
  exact hall.sat.out ho

/-- What a record holds is the program that was replaced last on its hook. -/
def Remembered (log : List Replacement) (s : State) : Prop :=
  ∀ i id n, s.Holds i id n → latest log (s.slots i).cgroupFd (s.slots i).type =
    some ⟨(s.slots i).cgroupFd, (s.slots i).type, (s.slots i).progFd, id⟩

section Remembering

variable {log : List Replacement}

theorem Remembered.congr (h : Remembered log s) (hslots : s'.slots = s.slots)
    (hfds : SameOriginals s.fds s'.fds) : Remembered log s' := by
  intro i id n hh
  have hholds : s.Holds i id n := by
    unfold State.Holds at hh ⊢
    rwa [hslots, ← hfds] at hh
  rw [hslots]
  exact h i id n hholds

theorem Remembered.giveUp (h : Remembered log s) : Remembered log (s.giveUp i) := by
  intro j id n hh
  rw [(slots_giveUp hh.1).2]
  exact h j id n (holds_giveUp hh).2

theorem Remembered.detach {r : Option Errno} (h : Remembered log s)
    (ho : DetachOutcome s cg prog t s' r) : Remembered log s' := by
  cases ho with
  | refused e => exact h
  | absent _ _ _ _ => exact h
  | removed _ _ _ => exact h.congr rfl fun _ _ _ => Iff.rfl
  | changed _ => exact h.giveUp
  | restored _ _ _ _ _ =>
      refine Remembered.giveUp ?_
      exact h.congr rfl fun _ _ _ => Iff.rfl

/-- An attach that takes the place of a program remembers it. -/
theorem Remembered.attach {r : Option Errno} (h : Remembered log s) (hk : Kept s)
    (ho : AttachOutcome s cg prog t s' r) :
    Remembered (((displaced s s' cg t r).map fun id => ⟨cg, t, prog, id⟩).toList ++ log) s' := by
  cases ho with
  | @joined c id o cgroup _ _ _ =>
      have hnone : displaced s (s.setHook c t ⟨allowMulti, (s.hooks c t).progs ++ [id]⟩) cg t none =
          none := by
        simp only [displaced, cgroup, hooks_setHook]
        exact if_neg (by decide)
      rw [hnone]
      exact h.congr rfl fun _ _ _ => Iff.rfl
  | refused e => exact h
  | closed _ free e =>
      refine h.congr rfl fun k id' n => ?_
      rw [fds_openClose free]
  | @replaced c id new o p fd slot _ free cgroup _ hook _ _ inactive unrecorded =>
      generalize hs' : ((s.opening cg id fd).setHook c t ⟨0, [new]⟩).setSlot slot
        ⟨true, cg, prog, fd, t⟩ = s'
      have hdisplaced : displaced s s' cg t none = some id := by
        have hafter : s'.hooks c t = ⟨0, [new]⟩ := by
          rw [← hs']
          exact hooks_setHook (s := s.opening cg id fd)
        simp only [displaced, cgroup, hafter, hook]
        rfl
      rw [hdisplaced]
      intro i id' n hh
      have hheld : ((s.opening cg id fd).setSlot slot ⟨true, cg, prog, fd, t⟩).Holds i id' n := by
        rw [← hs'] at hh
        exact hh
      rcases hk.holds_record free hheld with ⟨rfl, rfl, -⟩ | ⟨hne, hold⟩
      · have hslot : s'.slots i = ⟨true, cg, prog, fd, t⟩ := by
          rw [← hs']
          exact update_self ..
        rw [hslot]
        exact List.find?_cons_of_pos (by simp)
      · -- a record of another hook
        have hslot : s'.slots i = s.slots i := by
          rw [← hs']
          exact update_of_ne hne ..
        rw [hslot]
        refine (List.find?_cons_of_neg ?_).trans (h i id' n hold)
        have hother := unrecorded i
        simp only [Record.isFor, hold.1, Bool.true_and, Bool.and_eq_false_iff,
          decide_eq_false_iff_not] at hother
        simp only [Bool.and_eq_true, decide_eq_true_eq, not_and]
        exact fun hc ht => hother.elim (fun hn => hn hc.symm) fun hn => hn ht.symm

end Remembering

/-- **Runs**: the records are kept, and what they hold was replaced last. -/
theorem kept_reach {log : List Replacement} (h : Reach log s) : Kept s ∧ Remembered log s := by
  induction h with
  | @initial s h =>
      refine ⟨kept_fresh h, fun i id n hh => ?_⟩
      have hactive := hh.1
      rw [h.slots i] at hactive
      cases hactive
  | attach past cg prog t ho ih =>
      exact ⟨ih.1.attach (attach_out ho), ih.2.attach ih.1 (attach_out ho)⟩
  | detach past cg prog t ho ih =>
      exact ⟨ih.1.detach (detach_out ho), ih.2.detach (detach_out ho)⟩
  | @restore log s s' past cg r ho ih =>
      have hall : Prog.Always admissible (fun _ => True) _ (cgroupRestore cg s) :=
        cgroupRestore_always (J := Remembered log)
          (fun s prog t hr => (progDetach_always trivial).mono fun s' r ho => ⟨hr.detach ho, ho.fewer⟩)
          (fun s i hr _ => hr.giveUp) ih.2
      exact ⟨(restore_out ih.1 ho).1, (hall.sat.out ho).1⟩
  | external past hooks programs pins fds originals ih =>
      exact ⟨ih.1.external rfl rfl rfl originals, ih.2.congr rfl originals⟩

/-- The program is on the hook: beside those that were there, or in the place of the only one, of
which the new record holds a descriptor. -/
inductive Placed (s s' : State) (cg prog : Fd) (t : AttachType) : Prop
  | joined {c : Cgroup} {id : ProgId} {o : Option Nat} (cgroup : s.fds cg = some (.cgroup c))
      (program : s.fds prog = some (.program id o))
      (hook : s'.hooks c t = ⟨allowMulti, (s.hooks c t).progs ++ [id]⟩)
      (slots : s'.slots = s.slots)
  | replaced {c : Cgroup} {id new : ProgId} {o : Option Nat} {i : Fin 6} {n : Nat}
      (cgroup : s.fds cg = some (.cgroup c)) (program : s'.fds prog = some (.program new o))
      (before : s.hooks c t = ⟨0, [id]⟩) (after : s'.hooks c t = ⟨0, [new]⟩)
      (record : (s'.slots i).isFor cg t = true ∧ (s'.slots i).progFd = prog)
      (holds : s'.Holds i id n) (others : ∀ j, j ≠ i → s'.slots j = s.slots j)

/-- What an attach leaves behind. -/
structure Attached (s s' : State) (cg prog : Fd) (t : AttachType) (r : Option Errno) : Prop where
  /-- A program goes from a hook only if it was the only one, attached without flags, and did
  nothing but allow. -/
  allowed : ∀ c t, (∀ id ∈ (s.hooks c t).progs, id ∈ (s'.hooks c t).progs) ∨
    ∃ id p, s.hooks c t = ⟨0, [id]⟩ ∧ s.programs id = some p ∧ p.insns = allowOnly
  failed : r ≠ none → s'.hooks = s.hooks ∧ s'.slots = s.slots
  /-- Success puts the program on the hook and records the one it replaced. -/
  placed : r = none → Placed s s' cg prog t

/-- What a detach leaves behind. -/
structure Detached (log : List Replacement) (s s' : State) (cg prog : Fd) (t : AttachType)
    (r : Option Errno) : Prop where
  /-- Success with a recorded program puts the program back that was replaced last on the hook. -/
  restored : r = none → ∀ i, s.recordOf cg prog t = some i →
    ∃ c id, s.fds cg = some (.cgroup c) ∧ latest log cg t = some ⟨cg, t, prog, id⟩ ∧
      s'.hooks c t = ⟨0, [id]⟩
  /-- A recorded hook that is no longer the program's alone stays as it is. -/
  changed : ∀ i, s.recordOf cg prog t = some i →
    ∀ c id o, s.fds cg = some (.cgroup c) → s.fds prog = some (.program id o) →
      s.hooks c t ≠ ⟨0, [id]⟩ → s'.hooks = s.hooks
  /-- No other program goes from any hook. -/
  others : ∀ c t', ∀ id ∈ (s.hooks c t').progs, id ∈ (s'.hooks c t').progs ∨
    ∃ o, s.fds prog = some (.program id o)

/-- What a restore leaves behind. -/
structure Restored (s' : State) (cg : Fd) : Prop where
  free : ∀ i, s'.Free cg i
  closedOnce : ∀ n id, s'.opened[n]? = some (cg, id) → s'.closed.count (some n) = 1

/-- Everything the calls promise from a state, after these replacements. -/
structure Reversible (log : List Replacement) (s : State) : Prop where
  single : ∀ i j, (s.slots i).active = true → (s.slots j).active = true →
    (s.slots i).cgroupFd = (s.slots j).cgroupFd → (s.slots i).type = (s.slots j).type → i = j
  /-- Closing has never hit anything but an open original. -/
  clean : none ∉ s.closed
  attach : ∀ cg prog t s' r, Prog.Out admissible (progAttach cg prog t s) s' r →
    Attached s s' cg prog t r
  detach : ∀ cg prog t s' r, Prog.Out admissible (progDetach cg prog t s) s' r →
    Detached log s s' cg prog t r
  restore : ∀ cg s' r, Prog.Out admissible (cgroupRestore cg s) s' r → Restored s' cg

/-- A changed hook: the other hooks are as they were. -/
theorem mem_setHook {hook : Hook} {c' : Cgroup} {t' : AttachType}
    (h : c' = c → t' = t → id ∈ hook.progs) (hid : id ∈ (s.hooks c' t').progs) :
    id ∈ ((s.setHook c t hook).hooks c' t').progs := by
  show id ∈ (update s.hooks c (update (s.hooks c) t hook) c' t').progs
  by_cases hc : c' = c
  · subst hc
    rw [update_self]
    by_cases ht : t' = t
    · subst ht
      rw [update_self]
      exact h rfl rfl
    · rwa [update_of_ne ht]
  · rwa [update_of_ne hc]

theorem AttachOutcome.attached {r : Option Errno} (ho : AttachOutcome s cg prog t s' r) :
    Attached s s' cg prog t r := by
  cases ho with
  | joined cgroup program _ _ =>
      refine ⟨fun c' t' => .inl fun id hid => mem_setHook ?_ hid, fun hr => absurd rfl hr,
        fun _ => .joined cgroup program hooks_setHook rfl⟩
      rintro rfl rfl
      exact List.mem_append_left _ hid
  | refused e => exact ⟨fun _ _ => .inl fun _ hid => hid, fun _ => ⟨rfl, rfl⟩, by nofun⟩
  | closed _ free e => exact ⟨fun _ _ => .inl fun _ hid => hid, fun _ => ⟨rfl, rfl⟩, by nofun⟩
  | @replaced c id new o p fd slot _ _ cgroup attached hook program allows _ _ =>
      generalize hs' : ((s.opening cg id fd).setHook c t ⟨0, [new]⟩).setSlot slot
        ⟨true, cg, prog, fd, t⟩ = s'
      have hslot : s'.slots slot = ⟨true, cg, prog, fd, t⟩ := by
        rw [← hs']
        exact update_self ..
      have hheld : s'.Holds slot id s.opened.length := by
        refine ⟨by rw [hslot], ?_⟩
        rw [hslot, ← hs']
        exact update_self ..
      have hprog : s'.fds prog = some (.program new o) := by
        rw [← hs']
        exact attached
      have hafter : s'.hooks c t = ⟨0, [new]⟩ := by
        rw [← hs']
        exact hooks_setHook (s := s.opening cg id fd)
      have hrecord : (s'.slots slot).isFor cg t = true ∧ (s'.slots slot).progFd = prog := by
        rw [hslot]
        exact ⟨by simp [Record.isFor], rfl⟩
      have hothers : ∀ j, j ≠ slot → s'.slots j = s.slots j := by
        intro j hj
        rw [← hs']
        exact update_of_ne hj ..
      refine ⟨fun c' t' => ?_, fun hr => absurd rfl hr,
        fun _ => .replaced cgroup hprog hook hafter hrecord hheld hothers⟩
      rw [← hs']
      by_cases he : c' = c ∧ t' = t
      · obtain ⟨rfl, rfl⟩ := he
        exact .inr ⟨id, p, hook, program, allows⟩
      · refine .inl fun id hid => mem_setHook (s := s.opening cg _ fd) (fun hc ht => ?_) hid
        exact absurd ⟨hc, ht⟩ he

theorem Hook.mem_without {h : Hook} {id' : ProgId} (hid : id ∈ h.progs) (hne : id ≠ id') :
    id ∈ (h.without id').progs :=
  (List.mem_erase_of_ne hne).mpr hid

theorem DetachOutcome.detached {log : List Replacement} {r : Option Errno} (h : Kept s)
    (hlog : Remembered log s) (ho : DetachOutcome s cg prog t s' r) :
    Detached log s s' cg prog t r := by
  cases ho with
  | refused e => exact ⟨by nofun, fun _ _ _ _ _ _ _ _ => rfl, fun _ _ _ hid => .inl hid⟩
  | absent unrecorded _ _ _ =>
      exact ⟨fun _ i hi => (nomatch unrecorded.symm.trans hi), fun _ _ _ _ _ _ _ _ => rfl,
        fun _ _ _ hid => .inl hid⟩
  | @removed c id o unrecorded _ program =>
      refine ⟨fun _ i hi => (nomatch unrecorded.symm.trans hi),
        fun i hi => (nomatch unrecorded.symm.trans hi), fun c' t' id' hid => ?_⟩
      by_cases he : id' = id
      · exact .inr ⟨o, he ▸ program⟩
      · refine .inl (mem_setHook ?_ hid)
        rintro rfl rfl
        exact Hook.mem_without hid he
  | changed _ => exact ⟨by nofun, fun _ _ _ _ _ _ _ _ => rfl, fun _ _ _ hid => .inl hid⟩
  | @restored i c id old o o' recorded cgroup program hook original =>
      obtain ⟨ha, hcg, ht, hprog⟩ := recordOf_some recorded
      refine ⟨fun _ j hj => ?_, fun _ _ c' id' o₁ hc hp hne => ?_, fun c' t' id' hid => ?_⟩
      · cases recorded.symm.trans hj
        obtain ⟨id₀, n, hh⟩ := h.held i ha
        have hlast := hlog i id₀ n hh
        rw [hcg, ht, hprog] at hlast
        cases original.symm.trans hh.2
        exact ⟨c, _, cgroup, hlast, hooks_setHook⟩
      · cases cgroup.symm.trans hc
        cases program.symm.trans hp
        exact absurd hook hne
      · by_cases he : c' = c ∧ t' = t
        · obtain ⟨rfl, rfl⟩ := he
          rw [hook] at hid
          exact .inr ⟨o, List.mem_singleton.mp hid ▸ program⟩
        · exact .inl (mem_setHook (fun hc ht => absurd ⟨hc, ht⟩ he) hid)

theorem Kept.restored (h : Kept s) (hfree : ∀ i, s.Free cg i) : Restored s cg := by
  refine ⟨hfree, fun n id ho => ?_⟩
  rcases h.ledger n (List.getElem?_eq_some_iff.mp ho).1 with hc | ⟨i, id', hh⟩
  · exact hc
  · have hopen := (h.opened i id' n hh).1
    cases ho.symm.trans hopen
    exact absurd ⟨hh.1, rfl⟩ (hfree i)

/-- **Replacing the program of an exclusive hook is reversible**, in every state of every run. -/
theorem reversible_reach (log : List Replacement) (s : State) (h : Reach log s) :
    Reversible log s where
  single := (kept_reach h).1.single
  clean := (kept_reach h).1.clean
  attach _ _ _ _ _ ho := (attach_out ho).attached
  detach _ _ _ _ _ ho := (detach_out ho).detached (kept_reach h).1 (kept_reach h).2
  restore _ _ _ ho :=
    have h' := restore_out (kept_reach h).1 ho
    h'.1.restored h'.2

/-! ## A replaced placeholder -/

/-- Programs of the example: two that only allow, and one that does not. -/
def placeholder : Program := ⟨none, true, allowOnly, true, none⟩

def interceptor : Program := 
  ⟨some .connect4, true, [⟨0xb7, 0, 0, 0, 0⟩, ⟨0x95, 0, 0, 0, 0⟩], true, none⟩

/-- A connect hook with the system's placeholder, two descriptors of its cgroup, and descriptors of a
program that only allows and of one that does not. -/
def reserved : State where
  hooks _ t := if t = .inet4Connect then ⟨0, [1]⟩ else ⟨0, []⟩
  programs id := if id = 1 ∨ id = 10 then some placeholder else if id = 11 then some interceptor else none
  pins _ _ := none
  fds fd := if fd = 3 ∨ fd = 4 then some (.cgroup 0) else if fd = 5 then some (.program 10 none)
    else if fd = 6 then some (.program 11 none) else none
  slots _ := ⟨false, 0, 0, 0, .inet4Connect⟩
  runtime := ⟨-1, fun _ => -1⟩
  opened := []
  closed := []

/-- Every call is done, and this is the next descriptor. -/
def done (fd : Fd) : Nat → (q : Call) → Answer q
  | _, .acts => none
  | _, .opens => .ok fd
  | _, .loads => .error .eperm
  | _, .gets _ _ => .error .eperm
  | _, .unlinks _ _ => some .eperm
  | _, .serves => (reserved.hooks, reserved.programs)

/-- The state after a call. -/
def after {α : Type} (fd : Fd) (p : Prog Answer State α) : State :=
  ((Prog.exec admissibleb (done fd) 0 p).map Prod.fst).getD reserved

theorem out_of_exec {α : Type} {p : Prog Answer State α} {a : α} (fd : Fd)
    (h : Prog.exec admissibleb (done fd) 0 p = some (s', a)) : Prog.Out admissible p s' a :=
  Prog.exec_out (fun _ _ _ h => admissible_of_b h) h

theorem reach_reserved : Reach [] reserved := by
  refine .initial ⟨fun _ => rfl, fun fd id n h => ?_, rfl, rfl⟩
  simp only [reserved] at h
  split_ifs at h <;> cases h

/-- The placeholder's place is taken. -/
def replaced : State := after 7 (progAttach 3 5 .inet4Connect reserved)

theorem reach_replaced : Reach [⟨3, .inet4Connect, 5, 1⟩] replaced := by
  have hout : Prog.Out admissible (progAttach 3 5 .inet4Connect reserved) replaced none :=
    out_of_exec 7 rfl
  exact reach_reserved.attach _ _ _ hout

/-- Detaching the program puts it back. -/
theorem replaced_restored :
    replaced.hooks 0 .inet4Connect = ⟨0, [10]⟩ ∧
      ∃ s', Prog.Out admissible (progDetach 3 5 .inet4Connect replaced) s' none ∧
        s'.hooks 0 .inet4Connect = ⟨0, [1]⟩ := by
  have hout : Prog.Out admissible (progDetach 3 5 .inet4Connect replaced)
      (after 8 (progDetach 3 5 .inet4Connect replaced)) none := out_of_exec 8 rfl
  obtain ⟨c, id, hc, hlast, hhook⟩ :=
    ((reversible_reach _ _ reach_replaced).detach _ _ _ _ _ hout).restored rfl 5 (by decide)
  cases hc
  cases hlast
  exact ⟨by decide, _, hout, hhook⟩

/-- **A hook's record and its program.**  Detaching a program that is not there succeeds, and the hook
stays replaced; and two descriptors of one cgroup have a record each. -/
theorem recorded_hook_kept :
    (∃ log s s' i id n, Reach log s ∧ (s.slots i).isFor 3 .inet4Connect = true ∧ s.Holds i id n ∧
      s.fds 3 = some (.cgroup 0) ∧ Prog.Out admissible (progDetach 3 6 .inet4Connect s) s' none ∧
      s'.hooks 0 .inet4Connect ≠ ⟨0, [id]⟩) ∧
    ∃ log s i j c, Reach log s ∧ i ≠ j ∧ (s.slots i).active = true ∧ (s.slots j).active = true ∧
      (s.slots i).type = (s.slots j).type ∧ s.fds (s.slots i).cgroupFd = some (.cgroup c) ∧
      s.fds (s.slots j).cgroupFd = some (.cgroup c) := by
  constructor
  · have hout : Prog.Out admissible (progDetach 3 6 .inet4Connect replaced)
        (after 8 (progDetach 3 6 .inet4Connect replaced)) none := out_of_exec 8 rfl
    exact ⟨_, _, _, 5, 1, 0, reach_replaced, by decide, ⟨by decide, by decide⟩, by decide, hout,
      by decide⟩
  · have hout : Prog.Out admissible (progAttach 4 6 .inet4Connect replaced)
        (after 8 (progAttach 4 6 .inet4Connect replaced)) none := out_of_exec 8 rfl
    exact ⟨_, _, 5, 4, 0, reach_replaced.attach _ _ _ hout, by decide, by decide, by decide,
      by decide, by decide, by decide⟩

end Bpf2Socks.Hooks

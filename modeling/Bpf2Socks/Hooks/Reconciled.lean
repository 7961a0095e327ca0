/-
# Bpf2Socks.Hooks.Reconciled — pins as the authority over attached programs.

`Authority`: a program that a start has loaded is attached only while it is behind its own pin, and a
pin holds a program of its name.  `asterisk_cgroup_reconcile` keeps this at every point where it may
be killed, provided that the programs behind the pins are attached to the cgroup it is given and to
no other; then success means that they are off.
-/
import Bpf2Socks.Hooks.Owned
import Bpf2Socks.Hooks.Reversible

namespace Bpf2Socks.Hooks

open Function (update update_self update_of_ne)
open Lib

variable {s s' s₁ s₂ : State} {cg fd : Fd} {t : AttachType} {c : Cgroup} {dir : Dir} {leaf : Leaf}
  {id : ProgId}

/-! ## Authority -/

/-- The program is known, and if a start loaded it, it is behind its pin, which is for this hook. -/
def Attachable (s : State) (t : AttachType) (id : ProgId) : Prop :=
  ∃ p, s.programs id = some p ∧ ∀ dir, p.owner = some dir →
    ∃ leaf, p.name = some leaf ∧ leaf.type = t ∧ s.pins dir leaf = some id

structure Authority (s : State) : Prop where
  attached : ∀ c t, ∀ id ∈ (s.hooks c t).progs, Attachable s t id
  pins : ∀ dir leaf id, s.pins dir leaf = some id →
    ∃ p, s.programs id = some p ∧ p.name = some leaf ∧ p.owner = some dir

/-- The programs of a directory's starts are attached to one cgroup. -/
def Homed (c : Cgroup) (dir : Dir) (s : State) : Prop :=
  ∀ c' t, ∀ id ∈ (s.hooks c' t).progs, ∀ p, s.programs id = some p → p.owner = some dir → c' = c

/-- The known programs stay what they are. -/
def Knows (s s' : State) : Prop := ∀ id p, s.programs id = some p → s'.programs id = some p

theorem Knows.refl (s : State) : Knows s s := fun _ _ h => h

theorem Knows.trans (h : Knows s s₁) (h' : Knows s₁ s₂) : Knows s s₂ := fun id p hp =>
  h' id p (h id p hp)

theorem Attachable.known (h : Attachable s t id) (hk : Knows s s') (hpins : s'.pins = s.pins) :
    Attachable s' t id := by
  obtain ⟨p, hp, ho⟩ := h
  exact ⟨p, hk id p hp, by rw [hpins]; exact ho⟩

/-- A program that no start loaded. -/
def Foreign (s : State) (id : ProgId) : Prop := ∃ p, s.programs id = some p ∧ p.owner = none

theorem Foreign.attachable (h : Foreign s id) : Attachable s t id := by
  obtain ⟨p, hp, ho⟩ := h
  refine ⟨p, hp, fun dir hd => ?_⟩
  rw [ho] at hd
  cases hd

/-- Hooks that got nothing but foreign programs. -/
def Gains (s s' : State) : Prop :=
  ∀ c t, ∀ id ∈ (s'.hooks c t).progs, id ∈ (s.hooks c t).progs ∨ Foreign s' id

theorem Authority.gains (h : Authority s) (hk : Knows s s') (hpins : s'.pins = s.pins)
    (hg : Gains s s') : Authority s' := by
  refine ⟨fun c t id hid => ?_, fun dir leaf id hp => ?_⟩
  · rcases hg c t id hid with hold | hf
    · exact (h.attached c t id hold).known hk hpins
    · exact hf.attachable
  · rw [hpins] at hp
    obtain ⟨p, hp', hrest⟩ := h.pins dir leaf id hp
    exact ⟨p, hk id p hp', hrest⟩

theorem Homed.gains (h : Homed c dir s) (ha : Authority s) (hk : Knows s s') (hg : Gains s s') :
    Homed c dir s' := by
  intro c' t id hid p hp ho
  rcases hg c' t id hid with hold | ⟨p', hp', ho'⟩
  · obtain ⟨p₀, hp₀, -⟩ := ha.attached c' t id hold
    cases (hk id p₀ hp₀).symm.trans hp
    exact h c' t id hold p hp₀ ho
  · cases hp'.symm.trans hp
    rw [ho'] at ho
    cases ho

/-- The pins' authority, and the home of a directory's programs. -/
structure Guarded (c : Cgroup) (dir : Dir) (s : State) : Prop where
  authority : Authority s
  homed : Homed c dir s

theorem Guarded.gains (h : Guarded c dir s) (hk : Knows s s') (hpins : s'.pins = s.pins)
    (hg : Gains s s') : Guarded c dir s' :=
  ⟨h.authority.gains hk hpins hg, h.homed.gains h.authority hk hg⟩

/-- Two pins of a directory do not have the same program. -/
theorem Authority.leaf_unique {leaf leaf' : Leaf} (h : Authority s) (hl : s.pins dir leaf = some id)
    (hl' : s.pins dir leaf' = some id) : leaf = leaf' := by
  obtain ⟨p, hp, hn, -⟩ := h.pins dir leaf id hl
  obtain ⟨p', hp', hn', -⟩ := h.pins dir leaf' id hl'
  cases hp.symm.trans hp'
  exact Option.some.inj (hn.symm.trans hn')

/-- A pinned program is attached to its own hook in the cgroup, or to none. -/
theorem Guarded.pinned_at {c' : Cgroup} (h : Guarded c dir s)
    (hl : s.pins dir leaf = some id) (hid : id ∈ (s.hooks c' t).progs) : c' = c ∧ t = leaf.type := by
  obtain ⟨p, hp, -, ho⟩ := h.authority.pins dir leaf id hl
  obtain ⟨p', hp', hatt⟩ := h.authority.attached c' t id hid
  cases hp.symm.trans hp'
  obtain ⟨leaf', -, ht, hl'⟩ := hatt dir ho
  rw [h.authority.leaf_unique hl hl']
  exact ⟨h.homed c' t id hid p hp ho, ht.symm⟩

/-! ## Descriptors of one's own -/

/-- What code leaves that closes the descriptors it opens. -/
structure Beside (s s' : State) : Prop where
  fds : ∀ k d, s.fds k = some d → s'.fds k = some d
  originals : ∀ k id n, s'.fds k = some (.program id (some n)) →
    s.fds k = some (.program id (some n))
  slots : s'.slots = s.slots
  runtime : s'.runtime = s.runtime
  opened : s'.opened = s.opened
  closed : s'.closed = s.closed

theorem Beside.refl (s : State) : Beside s s := ⟨fun _ _ h => h, fun _ _ _ h => h, rfl, rfl, rfl, rfl⟩

theorem Beside.trans (h : Beside s s₁) (h' : Beside s₁ s₂) : Beside s s₂ :=
  ⟨fun k d hk => h'.fds k d (h.fds k d hk), fun k id n hk => h.originals k id n (h'.originals k id n hk),
    h'.slots.trans h.slots, h'.runtime.trans h.runtime, h'.opened.trans h.opened,
    h'.closed.trans h.closed⟩

/-- Opening a descriptor of a cgroup or of a program. -/
theorem beside_open {d : Descriptor} (free : s.fds fd = none)
    (hd : ∀ id n, d ≠ .program id (some n)) : Beside s (s.setFd fd (some d)) := by
  refine ⟨fun k d' hk => ?_, fun k id n hk => ?_, rfl, rfl, rfl, rfl⟩
  · refine (update_of_ne ?_ ..).trans hk
    rintro rfl
    exact nomatch free.symm.trans hk
  · have hk' : update s.fds fd (some d) k = some (.program id (some n)) := hk
    by_cases he : k = fd
    · rw [he, update_self] at hk'
      exact absurd (Option.some.inj hk') (hd id n)
    · rwa [update_of_ne he] at hk'

/-- Closing it again. -/
theorem Beside.close (h : Beside s s₁) (free : s.fds fd = none) : Beside s (s₁.setFd fd none) := by
  refine ⟨fun k d hk => ?_, fun k id n hk => ?_, h.slots, h.runtime, h.opened, h.closed⟩
  · refine (update_of_ne ?_ ..).trans (h.fds k d hk)
    rintro rfl
    exact nomatch free.symm.trans hk
  · have hk' : update s₁.fds fd none k = some (.program id (some n)) := hk
    by_cases he : k = fd
    · rw [he, update_self] at hk'
      cases hk'
    · rw [update_of_ne he] at hk'
      exact h.originals k id n hk'

theorem isFree_iff : s.isFree fd = true ↔ 0 ≤ fd ∧ s.fds fd = none := by
  simp only [State.isFree, decide_eq_true_eq]

/-! ## Calls -/

theorem openCgroup_always {I : State → Prop} (hI : I s) : Prog.Always admissible I
    (fun s' r => (∃ e, r = .error e ∧ s' = s) ∨ ∃ fd, r = .ok fd ∧ 0 ≤ fd ∧ s.fds fd = none ∧
      s' = s.setFd fd (some (.cgroup c)))
    (openCgroup c s) := by
  refine ⟨hI, fun r hr => ?_⟩
  rcases r with e | fd
  · exact .inl ⟨e, rfl, rfl⟩
  · have free := isFree_iff.mp hr
    exact .inr ⟨fd, rfl, free.1, free.2, rfl⟩

theorem loadProgram_always {I : State → Prop} {p : Program} (hI : I s) : Prog.Always admissible I
    (fun s' r => (∃ e, r = .error e ∧ s' = s) ∨ ∃ fd id, r = .ok fd ∧ 0 ≤ fd ∧ s.fds fd = none ∧
      s.programs id = none ∧
      s' = { s.setFd fd (some (.program id none)) with programs := update s.programs id (some p) })
    (loadProgram p s) := by
  refine ⟨hI, fun r hr => ?_⟩
  rcases r with e | ⟨fd, id⟩
  · exact .inl ⟨e, rfl, rfl⟩
  · have hr' : (s.isFree fd && (s.programs id).isNone && decide (id ≠ 0)) = true := hr
    simp only [Bool.and_eq_true, Option.isNone_iff_eq_none] at hr'
    have free := isFree_iff.mp hr'.1.1
    exact .inr ⟨fd, id, rfl, free.1, free.2, hr'.1.2, rfl⟩

theorem objGet_always {I : State → Prop} (hI : I s) : Prog.Always admissible I
    (fun s' r => (∃ e, r = .error e ∧ s' = s ∧ (e = .enoent → s.pins dir leaf = none)) ∨
      ∃ fd id, r = .ok fd ∧ s.fds fd = none ∧ s.pins dir leaf = some id ∧
        s' = s.setFd fd (some (.program id none)))
    (objGet dir leaf s) := by
  refine ⟨hI, fun r hr => ?_⟩
  rcases r with e | fd
  · refine .inl ⟨e, rfl, rfl, fun he => ?_⟩
    have hr' : (decide (e ≠ .enoent) || (s.pins dir leaf).isNone) = true := hr
    simpa [he] using hr'
  · have free := isFree_iff.mp hr
    dsimp only
    cases hp : s.pins dir leaf with
    | some id => exact .inr ⟨fd, id, rfl, free.2, rfl, rfl⟩
    | none => exact .inl ⟨_, rfl, rfl, fun _ => rfl⟩

theorem unlinkPin_always {I : State → Prop} (hI : I s) : Prog.Always admissible I
    (fun s' r => (s' = s ∧ ((r = none ∨ r = some .enoent) → s.pins dir leaf = none)) ∨
      s' = s.setPin dir leaf none)
    (unlinkPin dir leaf s) := by
  refine ⟨hI, fun r hr => ?_⟩
  rcases r with _ | e
  · dsimp only
    cases hp : s.pins dir leaf with
    | some id => exact .inr rfl
    | none => exact .inl ⟨rfl, fun _ => rfl⟩
  · refine .inl ⟨rfl, fun he => ?_⟩
    have hr' : (decide (e ≠ .enoent) || (s.pins dir leaf).isNone) = true := hr
    rcases he with he | he
    · cases he
    · cases he
      simpa using hr'

theorem query_ok {room : Nat} {h : Hook} (hq : s.query cg t room = .ok h)
    (hcg : s.fds cg = some (.cgroup c)) : h = s.hooks c t := by
  simp only [State.query, hcg] at hq
  split at hq
  · cases hq
  · cases hq
    rfl

theorem hasId_always {I : State → Prop} (hI : I s) (hcg : s.fds cg = some (.cgroup c)) :
    Prog.Always admissible I
      (fun s' r => s' = s ∧ (r = .ok false → id ∉ (s.hooks c t).progs) ∧
        (r = .ok true → (s.hooks c t).flags = allowMulti))
      (hasId cg t id s) := by
  refine reads_always hI (fun e => ⟨rfl, by nofun, by nofun⟩) fun b h => ?_
  refine ⟨rfl, ?_⟩
  cases hq : s.query cg t 64 with
  | error e =>
      rw [hq] at h
      cases h
  | ok hook =>
      obtain rfl := query_ok hq hcg
      rw [hq] at h
      change (if _ then _ else _) = _ at h
      split_ifs at h with h₁ h₂ h₃ <;> cases h
      · exact ⟨by nofun, fun _ => not_not.mp h₃⟩
      · exact ⟨fun _ => h₂, by nofun⟩

theorem soleExclusiveId_always {I : State → Prop} (hI : I s) (hcg : s.fds cg = some (.cgroup c)) :
    Prog.Always admissible I
      (fun s' r => s' = s ∧ (r = .ok true → s.hooks c t = ⟨0, [id]⟩))
      (soleExclusiveId cg t id s) := by
  refine reads_always hI (fun e => ⟨rfl, by nofun⟩) fun b h => ⟨rfl, fun hb => ?_⟩
  cases hb
  cases hq : s.query cg t 64 with
  | error e =>
      rw [hq] at h
      cases h
  | ok hook =>
      obtain rfl := query_ok hq hcg
      rw [hq] at h
      change (if _ then _ else _) = _ at h
      split_ifs at h with h₁
      have hsole : (s.hooks c t).flags = 0 ∧ (s.hooks c t).progs = [id] := by
        simpa using h
      rcases hh : s.hooks c t with ⟨flags, progs⟩
      rw [hh] at hsole
      rw [show flags = 0 from hsole.1, show progs = [id] from hsole.2]

/-! ## A program comes off its hook -/

/-- What happens to the hooks when a pinned program is taken off one of them. -/
inductive OffHook (s s' : State) (c : Cgroup) (t : AttachType) (id : ProgId) : Prop
  | same (hooks : s'.hooks = s.hooks)
  | removed (multi : (s.hooks c t).flags = allowMulti)
      (hooks : s'.hooks = (s.setHook c t ((s.hooks c t).without id)).hooks)
  | replaced (new : ProgId) (sole : s.hooks c t = ⟨0, [id]⟩)
      (allows : s'.programs new = some allowProgram)
      (hooks : s'.hooks = (s.setHook c t ⟨0, [new]⟩).hooks)

/-- Everything else stays. -/
structure Off (s s' : State) (c : Cgroup) (t : AttachType) (id : ProgId) : Prop where
  beside : Beside s s'
  knows : Knows s s'
  pins : s'.pins = s.pins
  hook : OffHook s s' c t id

theorem hooks_setHook_of_ne {hook : Hook} {c' : Cgroup} {t' : AttachType}
    (h : ¬ (c' = c ∧ t' = t)) : (s.setHook c t hook).hooks c' t' = s.hooks c' t' := by
  show update s.hooks c (update (s.hooks c) t hook) c' t' = s.hooks c' t'
  by_cases hc : c' = c
  · subst hc
    rw [update_self, update_of_ne fun ht => h ⟨rfl, ht⟩]
  · rw [update_of_ne hc]

theorem OffHook.gains (h : OffHook s s' c t id) : Gains s s' := by
  intro c' t' id' hid
  by_cases he : c' = c ∧ t' = t
  · obtain ⟨rfl, rfl⟩ := he
    cases h with
    | same hooks => exact .inl (hooks ▸ hid)
    | removed _ hooks =>
        rw [hooks, hooks_setHook] at hid
        exact .inl (List.mem_of_mem_erase hid)
    | replaced new _ allows hooks =>
        rw [hooks, hooks_setHook, List.mem_singleton] at hid
        exact .inr ⟨allowProgram, hid ▸ allows, rfl⟩
  · cases h with
    | same hooks => exact .inl (hooks ▸ hid)
    | removed _ hooks => exact .inl (by rwa [hooks, hooks_setHook_of_ne he] at hid)
    | replaced _ _ _ hooks => exact .inl (by rwa [hooks, hooks_setHook_of_ne he] at hid)

theorem Off.guarded (h : Off s s' c t id) (ha : Guarded c dir s) : Guarded c dir s' :=
  ha.gains h.knows h.pins h.hook.gains

/-- A change of descriptors and a new program do not change what happened to the hooks. -/
theorem OffHook.congr (h : OffHook s₁ s₂ c t id) (hooks : s₁.hooks = s.hooks)
    (hooks' : s'.hooks = s₂.hooks) (programs' : s'.programs = s₂.programs) :
    OffHook s s' c t id := by
  cases h with
  | same h => exact .same ((hooks'.trans h).trans hooks)
  | removed multi h =>
      rw [hooks] at multi
      refine .removed multi ((hooks'.trans h).trans ?_)
      simp only [State.setHook, hooks]
  | replaced new sole allows h =>
      rw [hooks] at sole
      refine .replaced new sole (programs' ▸ allows) ((hooks'.trans h).trans ?_)
      simp only [State.setHook, hooks]

theorem knows_load {p : Program} (hid : s.programs id = none) :
    Knows s { s.setFd fd (some (.program id none)) with
      programs := update s.programs id (some p) } := by
  intro id' p' hp
  refine (update_of_ne ?_ ..).trans hp
  rintro rfl
  exact nomatch hid.symm.trans hp

theorem attachAllow_always {placeholder : Fd} {new : ProgId} (ha : Guarded c dir s)
    (hcg : s.fds cg = some (.cgroup c)) (hnew : s.fds placeholder = some (.program new none))
    (hallow : s.programs new = some allowProgram) : Prog.Always admissible (Guarded c dir)
    (fun s' r => Off s s' c t id ∧ (r = true → id ∉ (s'.hooks c t).progs))
    (attachAllow cg placeholder t id s) := by
  have hsame : Off s s c t id := ⟨.refl s, .refl s, rfl, .same rfl⟩
  refine (soleExclusiveId_always ha hcg).bind fun s₁ r h₁ => ?_
  obtain ⟨rfl, hsole⟩ := h₁
  rcases r with e | _ | _
  · exact ⟨hsame, by nofun⟩
  · exact ⟨hsame, by nofun⟩
  · refine (attachWithFlags_zero_always ha).bind fun s₂ r₂ h₂ => ?_
    rcases h₂ with ⟨hne, rfl⟩ | ⟨c', id', o, rfl, hc', hid', rfl⟩
    · obtain ⟨e, rfl⟩ := Option.ne_none_iff_exists'.mp hne
      exact ⟨hsame, by nofun⟩
    · cases hcg.symm.trans hc'
      cases hnew.symm.trans hid'
      have hoff : Off s₁ (s₁.setHook c t ⟨0, [new]⟩) c t id :=
        ⟨⟨fun _ _ h => h, fun _ _ _ h => h, rfl, rfl, rfl, rfl⟩, .refl _, rfl,
          .replaced new (hsole rfl) hallow rfl⟩
      refine (hasId_always (hoff.guarded ha) hcg).bind fun s₃ r₃ h₃ => ?_
      obtain ⟨rfl, hgone, -⟩ := h₃
      rcases r₃ with e | _ | _
      · exact ⟨hoff, by nofun⟩
      · exact ⟨hoff, fun _ => hgone rfl⟩
      · exact ⟨hoff, by nofun⟩

theorem restoreAllowOnly_always (ha : Guarded c dir s) (hcg : s.fds cg = some (.cgroup c)) :
    Prog.Always admissible (Guarded c dir)
      (fun s' r => Off s s' c t id ∧ (r = true → id ∉ (s'.hooks c t).progs))
      (restoreAllowOnly cg t id s) := by
  refine (loadProgram_always ha).bind fun s₁ r h₁ => ?_
  rcases h₁ with ⟨e, rfl, rfl⟩ | ⟨fd, new, rfl, -, free, hnew, rfl⟩
  · exact ⟨⟨.refl _, .refl _, rfl, .same rfl⟩, by nofun⟩
  · have hknows : Knows s { s.setFd fd (some (.program new none)) with
        programs := update s.programs new (some allowProgram) } := knows_load hnew
    have hbeside : Beside s { s.setFd fd (some (.program new none)) with
        programs := update s.programs new (some allowProgram) } :=
      (beside_open free (by nofun)).trans
        ⟨fun _ _ h => h, fun _ _ _ h => h, rfl, rfl, rfl, rfl⟩
    have ha₁ := ha.gains hknows rfl fun c t id hid => .inl hid
    refine (attachAllow_always ha₁ (hbeside.fds _ _ hcg) (update_self ..) (update_self ..)).bind
      fun s₂ r₂ h₂ => ?_
    obtain ⟨hoff, hgone⟩ := h₂
    exact ⟨⟨(hbeside.trans hoff.beside).close free, hknows.trans hoff.knows, hoff.pins,
      hoff.hook.congr rfl rfl rfl⟩, hgone⟩

/-- **The program is taken off its hook**, and nothing else is. -/
theorem detachOwned_always {o : Option Nat} (ha : Guarded c dir s) (hcg : s.fds cg = some (.cgroup c))
    (hfd : s.fds fd = some (.program id o)) : Prog.Always admissible (Guarded c dir)
    (fun s' r => Off s s' c t id ∧ (r = true → id ∉ (s'.hooks c t).progs))
    (detachOwned cg fd t id s) := by
  have hsame : Off s s c t id := ⟨.refl s, .refl s, rfl, .same rfl⟩
  refine (hasId_always ha hcg).bind fun s₁ r h₁ => ?_
  obtain ⟨rfl, hgone, hmulti⟩ := h₁
  rcases r with e | _ | _
  · by_cases he : e = .eperm
    · subst he
      refine (soleExclusiveId_always ha hcg).bind fun s₂ r₂ h₂ => ?_
      obtain ⟨rfl, -⟩ := h₂
      rcases r₂ with e | _ | _
      · exact ⟨hsame, by simp⟩
      · exact ⟨hsame, by simp⟩
      · exact restoreAllowOnly_always ha hcg
    · cases e <;> first | exact absurd rfl he | exact ⟨hsame, by simp⟩
  · exact ⟨hsame, fun _ => hgone rfl⟩
  · refine Prog.Always.bind (m := fun s' r => (r ≠ none ∧ s' = s₁) ∨
      (r = none ∧ s' = s₁.setHook c t ((s₁.hooks c t).without id)))
      (acts_always ha (fun e => .inl ⟨by simp, rfl⟩) fun s' h => .inr ⟨rfl, ?_⟩) ?_
    · simp only [State.detach, hcg, hfd, if_pos (hmulti rfl)] at h
      split at h
      · cases h
        rfl
      · cases h
    · rintro s₂ r₂ (⟨hne, rfl⟩ | ⟨rfl, rfl⟩)
      · obtain ⟨e, rfl⟩ := Option.ne_none_iff_exists'.mp hne
        exact ⟨hsame, by simp⟩
      · have hoff : Off s₁ (s₁.setHook c t ((s₁.hooks c t).without id)) c t id :=
          ⟨⟨fun _ _ h => h, fun _ _ _ h => h, rfl, rfl, rfl, rfl⟩, .refl _, rfl,
            .removed (hmulti rfl) rfl⟩
        refine (hasId_always (hoff.guarded ha) hcg).bind fun s₃ r₃ h₃ => ?_
        obtain ⟨rfl, hgone, -⟩ := h₃
        rcases r₃ with e | _ | _
        · exact ⟨hoff, by simp⟩
        · exact ⟨hoff, fun _ => hgone rfl⟩
        · exact ⟨hoff, by simp⟩

/-! ## The loop over the catalog -/

/-- No hook has the program behind the pin. -/
def Cleared (dir : Dir) (s : State) (leaf : Leaf) : Prop :=
  ∀ id, s.pins dir leaf = some id → ∀ c t, id ∉ (s.hooks c t).progs

/-- What taking pinned programs off has made of a state. -/
structure Purged (c : Cgroup) (dir : Dir) (s s' : State) : Prop where
  guarded : Guarded c dir s'
  knows : Knows s s'
  pins : s'.pins = s.pins
  /-- Only programs behind the pins are gone. -/
  keeps : ∀ c' t, ∀ id ∈ (s.hooks c' t).progs,
    id ∈ (s'.hooks c' t).progs ∨ ∃ leaf, s.pins dir leaf = some id
  /-- An exclusive hook of such a program has it still, or a program that only allows. -/
  exclusive : ∀ t leaf id, s.pins dir leaf = some id → s.hooks c t = ⟨0, [id]⟩ →
    s'.hooks c t = ⟨0, [id]⟩ ∨ ∃ new, s'.hooks c t = ⟨0, [new]⟩ ∧ s'.programs new = some allowProgram

theorem Purged.refl (ha : Guarded c dir s) : Purged c dir s s :=
  ⟨ha, .refl s, rfl, fun _ _ _ hid => .inl hid, fun _ _ _ _ hs => .inl hs⟩

/-- A pinned program is not foreign. -/
theorem Authority.not_foreign (h : Authority s) (hl : s.pins dir leaf = some id) : ¬ Foreign s id := by
  rintro ⟨p, hp, ho⟩
  obtain ⟨p', hp', -, ho'⟩ := h.pins dir leaf id hl
  cases hp.symm.trans hp'
  rw [ho] at ho'
  cases ho'

theorem Cleared.off {leaf' : Leaf} (h : Cleared dir s leaf') (hoff : Off s s' c t id)
    (ha : Authority s') : Cleared dir s' leaf' := by
  intro id' hl c' t' hid
  rcases hoff.hook.gains c' t' id' hid with hold | hf
  · rw [hoff.pins] at hl
    exact h id' hl c' t' hold
  · exact ha.not_foreign hl hf

/-- The hook of the program is the only one that changes. -/
theorem OffHook.other {c' : Cgroup} {t' : AttachType} (h : OffHook s s' c t id)
    (hne : ¬ (c' = c ∧ t' = t)) : s'.hooks c' t' = s.hooks c' t' := by
  cases h with
  | same hooks => rw [hooks]
  | removed _ hooks => rw [hooks, hooks_setHook_of_ne hne]
  | replaced _ _ _ hooks => rw [hooks, hooks_setHook_of_ne hne]

theorem Purged.off (h : Purged c dir s s₁) (hoff : Off s₁ s₂ c leaf.type id)
    (hl : s₁.pins dir leaf = some id) : Purged c dir s s₂ := by
  have hl₀ : s.pins dir leaf = some id := h.pins ▸ hl
  refine ⟨hoff.guarded h.guarded, h.knows.trans hoff.knows, hoff.pins.trans h.pins, fun c' t id' hid => ?_,
    fun t leaf' id' hl' hs => ?_⟩
  · rcases h.keeps c' t id' hid with hid | hp
    · by_cases hc : c' = c ∧ t = leaf.type
      · obtain ⟨rfl, rfl⟩ := hc
        by_cases he : id' = id
        · exact .inr ⟨leaf, he ▸ hl₀⟩
        · cases hoff.hook with
          | same hooks => exact .inl (hooks ▸ hid)
          | removed _ hooks =>
              rw [hooks, hooks_setHook]
              exact .inl (Hook.mem_without hid he)
          | replaced _ sole _ _ =>
              rw [sole, List.mem_singleton] at hid
              exact absurd hid he
      · exact .inl (by rwa [hoff.hook.other hc])
    · exact .inr hp
  · by_cases hc : t = leaf.type
    · subst hc
      have hflags : (s₁.hooks c leaf.type).flags ≠ allowMulti := by
        have hzero : (0 : UInt32) ≠ allowMulti := by decide
        rcases h.exclusive _ leaf' id' hl' hs with hh | ⟨new, hh, -⟩ <;> rw [hh] <;> exact hzero
      cases hoff.hook with
      | same hooks =>
          rw [hooks]
          rcases h.exclusive _ leaf' id' hl' hs with hh | ⟨new, hh, hp⟩
          · exact .inl hh
          · exact .inr ⟨new, hh, hoff.knows _ _ hp⟩
      | removed multi _ => exact absurd multi hflags
      | replaced new sole allows hooks =>
          rw [hooks, hooks_setHook]
          exact .inr ⟨new, rfl, allows⟩
    · rw [hoff.hook.other fun he => hc he.2]
      rcases h.exclusive t leaf' id' hl' hs with hh | ⟨new, hh, hp⟩
      · exact .inl hh
      · exact .inr ⟨new, hh, hoff.knows _ _ hp⟩

/-- Descriptors do not matter. -/
theorem Purged.setFd (h : Purged c dir s s₁) (fd : Fd) (d : Option Descriptor) :
    Purged c dir s (s₁.setFd fd d) :=
  ⟨h.guarded.gains (.refl _) rfl fun _ _ _ h => .inl h, h.knows, h.pins, h.keeps, h.exclusive⟩

/-- The cgroup's descriptor of the loop is not open yet, or was opened in it. -/
def LoopFd (c : Cgroup) (s₀ s : State) (cg : Fd) : Prop :=
  cg < 0 ∨ (s₀.fds cg = none ∧ s.fds cg = some (.cgroup c))

theorem cgroupFdFor_always {s₀ : State} (ha : Guarded c dir s) (hb : Beside s₀ s)
    (hfd : LoopFd c s₀ s cg) : Prog.Always admissible (Guarded c dir)
    (fun s' r => (∃ e, r = .error e ∧ s' = s) ∨
      ∃ cg' d, r = .ok cg' ∧ s₀.fds cg' = none ∧ s'.fds cg' = some (.cgroup c) ∧
        Beside s s' ∧ (s' = s ∨ s' = s.setFd cg' d))
    (cgroupFdFor c cg s) := by
  refine Act.always_ite (fun _ => ?_) fun hnn => ?_
  · refine (openCgroup_always ha).mono fun s₁ r h₁ => ?_
    rcases h₁ with ⟨e, rfl, rfl⟩ | ⟨fd, rfl, -, free, rfl⟩
    · exact .inl ⟨e, rfl, rfl⟩
    · refine .inr ⟨fd, _, rfl, ?_, update_self .., beside_open free (by nofun), .inr rfl⟩
      cases hf : s₀.fds fd with
      | none => rfl
      | some d => exact nomatch free.symm.trans (hb.fds _ _ hf)
  · rcases hfd with hneg | ⟨hfree, hopen⟩
    · exact absurd hneg hnn
    · exact .inr ⟨cg, none, rfl, hfree, hopen, .refl s, .inl rfl⟩

theorem detachPin_always {s₀ : State} (ha : Guarded c dir s) (hb : Beside s₀ s)
    (hfd : s.fds fd = some (.program id none)) (hcg : LoopFd c s₀ s cg) : Prog.Always admissible (Guarded c dir)
    (fun s' r => Off s s' c leaf.type id ∧ LoopFd c s₀ s' r.1 ∧
      (r.2 = true → id ∉ (s'.hooks c leaf.type).progs))
    (detachPin c leaf cg fd s) := by
  have hsame : Off s s c leaf.type id := ⟨.refl s, .refl s, rfl, .same rfl⟩
  refine Prog.Always.bind (m := fun s' r => s' = s ∧ (r = none ∨ r = some id)) ?_ ?_
  · refine Prog.Always.bind (m := fun s' r => s' = s ∧ ∀ a, r = .ok a → a.1 = id)
      (reads_always ha (fun e => ⟨rfl, by nofun⟩) fun a hi => ⟨rfl, fun a' he => ?_⟩) ?_
    · cases he
      simp only [State.info, hfd] at hi
      split at hi
      · cases hi
        rfl
      · cases hi
    · rintro s₁ r ⟨rfl, hr⟩
      rcases r with e | ⟨id', p⟩
      · exact ⟨rfl, .inl rfl⟩
      · refine Act.always_ite (fun _ => ⟨rfl, .inl rfl⟩) fun _ => ⟨rfl, .inr ?_⟩
        rw [← hr _ rfl]
  · rintro s₁ r ⟨rfl, hr⟩
    rcases hr with rfl | rfl
    · exact ⟨hsame, hcg, by nofun⟩
    · refine (cgroupFdFor_always ha hb hcg).bind fun s₂ r₂ h₂ => ?_
      rcases h₂ with ⟨e, rfl, rfl⟩ | ⟨cg', d, rfl, hfree, hopen, hb₂, hs₂⟩
      · exact ⟨hsame, hcg, by nofun⟩
      · have hkernel : s₂.hooks = s₁.hooks ∧ s₂.programs = s₁.programs ∧ s₂.pins = s₁.pins := by
          rcases hs₂ with rfl | rfl
          · exact ⟨rfl, rfl, rfl⟩
          · exact ⟨rfl, rfl, rfl⟩
        have hknows : Knows s₁ s₂ := by
          intro id p hp
          rwa [hkernel.2.1]
        have ha₂ := ha.gains hknows hkernel.2.2 fun c t id hid => .inl (hkernel.1 ▸ hid)
        refine (detachOwned_always ha₂ hopen (hb₂.fds _ _ hfd)).bind fun s₃ r₃ h₃ => ?_
        obtain ⟨hoff, hgone⟩ := h₃
        exact ⟨⟨hb₂.trans hoff.beside, hknows.trans hoff.knows, hoff.pins.trans hkernel.2.2,
          hoff.hook.congr hkernel.1 rfl rfl⟩, .inr ⟨hfree, hoff.beside.fds _ _ hopen⟩, hgone⟩

theorem Purged.cleared (h : Purged c dir s s') (hl : s'.pins dir leaf = some id)
    (hgone : id ∉ (s'.hooks c leaf.type).progs) : Cleared dir s' leaf := by
  intro id' hl' c' t hid
  cases hl.symm.trans hl'
  obtain ⟨rfl, rfl⟩ := h.guarded.pinned_at hl hid
  exact hgone hid

/-- What the loop keeps, and what it has done. -/
structure Looped (c : Cgroup) (dir : Dir) (s s' : State) (cg : Fd) (done : List Leaf) : Prop where
  purged : Purged c dir s s'
  beside : Beside s s'
  loopFd : LoopFd c s s' cg
  cleared : ∀ leaf ∈ done, Cleared dir s' leaf

/-- The rest of the loop, from a state `s₁` in its middle. -/
theorem detachPinsFrom_always (rest : List Leaf) {done : List Leaf} (h : Looped c dir s s₁ cg done) :
    Prog.Always admissible (Guarded c dir)
      (fun s' r => Looped c dir s s' r.1 (if r.2 then rest.reverse ++ done else []))
      (detachPinsFrom c dir cg rest s₁) := by
  induction rest generalizing s₁ cg done with
  | nil => exact h
  | cons leaf rest ih =>
      have hstop : Looped c dir s s₁ cg [] :=
        ⟨h.purged, h.beside, h.loopFd, fun leaf hl => nomatch hl⟩
      have hgo : ∀ {s₂ cg'}, Looped c dir s s₂ cg' (leaf :: done) → Prog.Always admissible (Guarded c dir)
          (fun s' r => Looped c dir s s' r.1 (if r.2 then (leaf :: rest).reverse ++ done else []))
          (detachPinsFrom c dir cg' rest s₂) := by
        intro s₂ cg' h₂
        rw [List.reverse_cons, List.append_assoc]
        exact ih h₂
      -- the pin could not be opened, or its program is open now
      refine (objGet_always h.purged.guarded).bind fun s₂ r h₂ => ?_
      rcases h₂ with ⟨e, rfl, rfl, hnone⟩ | ⟨fd, id, rfl, free, hl, rfl⟩
      · refine Act.always_ite (fun he => hgo ⟨h.purged, h.beside, h.loopFd, ?_⟩) fun _ => hstop
        intro leaf' hl'
        rcases List.mem_cons.mp hl' with rfl | hl'
        · intro id hid
          exact nomatch (hnone he).symm.trans hid
        · exact h.cleared leaf' hl'
      · have hfree : s.fds fd = none := by
          cases hf : s.fds fd with
          | none => rfl
          | some d => exact nomatch free.symm.trans (h.beside.fds _ _ hf)
        have hopen := beside_open (d := .program id none) free (by nofun)
        have hcg : LoopFd c s (s₁.setFd fd (some (.program id none))) cg := by
          rcases h.loopFd with hneg | ⟨hf, ho⟩
          · exact .inl hneg
          · exact .inr ⟨hf, hopen.fds _ _ ho⟩
        have hp₁ := h.purged.setFd fd (some (.program id none))
        refine (detachPin_always hp₁.guarded (h.beside.trans hopen) (update_self ..) hcg).bind
          fun s₂ r₂ h₂ => ?_
        obtain ⟨hoff, hcg₂, hgone⟩ := h₂
        have hp₂ := hp₁.off hoff hl
        have hopen₂ : s₂.fds fd = some (.program id none) := hoff.beside.fds _ _ (update_self ..)
        -- the program is closed again, whether or not it could be detached
        have hclosed : ∀ {done' : List Leaf}, (∀ leaf ∈ done', Cleared dir s₂ leaf) →
            Looped c dir s (s₂.setFd fd none) r₂.1 done' := by
          intro done' hd
          refine ⟨hp₂.setFd fd none, ((h.beside.trans hopen).trans hoff.beside).close hfree, ?_, hd⟩
          rcases hcg₂ with hneg | ⟨hf, ho⟩
          · exact .inl hneg
          · refine .inr ⟨hf, (update_of_ne ?_ ..).trans ho⟩
            intro he
            rw [he, hopen₂] at ho
            cases ho
        refine Act.always_ite (fun hr => hgo (hclosed fun leaf' hl' => ?_)) fun _ =>
          hclosed fun leaf' hl' => nomatch hl'
        rcases List.mem_cons.mp hl' with rfl | hl'
        · exact hp₂.cleared (hoff.pins ▸ hl) (hgone hr)
        · refine Cleared.off ?_ hoff hp₂.guarded.authority
          exact h.cleared leaf' hl'

theorem mem_catalog (leaf : Leaf) : leaf ∈ catalog := by
  cases leaf <;> decide

/-- **`asterisk_cgroup_detach_pins`** takes the programs behind all pins off their hooks. -/
theorem detachPins_always (ha : Guarded c dir s) :
    Prog.Always admissible (Guarded c dir)
      (fun s' r => Purged c dir s s' ∧ Beside s s' ∧ (r = true → ∀ leaf, Cleared dir s' leaf))
      (detachPins c dir s) := by
  have hstart : Looped c dir s s (-1) [] := ⟨.refl ha, .refl s, .inl (by decide), by nofun⟩
  refine (detachPinsFrom_always catalog hstart).bind fun s₁ r h => ?_
  obtain ⟨cg, r⟩ := r
  have hcleared : r = true → ∀ leaf, Cleared dir s₁ leaf := by
    rintro rfl leaf
    exact h.cleared leaf (List.mem_append_left _ (List.mem_reverse.mpr (mem_catalog leaf)))
  refine Act.always_ite (fun hcg => ?_) fun _ => ⟨h.purged, h.beside, hcleared⟩
  rcases h.loopFd with hneg | ⟨hfree, -⟩
  · exact absurd hcg (Int.not_le.mpr hneg)
  · exact ⟨h.purged.setFd cg none, h.beside.close hfree, hcleared⟩

/-! ## Removing the pins -/

/-- A pin whose program is off may go. -/
theorem Authority.unlink (h : Authority s) (hc : Cleared dir s leaf) :
    Authority (s.setPin dir leaf none) := by
  have hpins : ∀ {dir' leaf' id}, (s.setPin dir leaf none).pins dir' leaf' = some id →
      s.pins dir' leaf' = some id := by
    intro dir' leaf' id hl
    have hl' : update s.pins dir (update (s.pins dir) leaf none) dir' leaf' = some id := hl
    by_cases hd : dir' = dir
    · subst hd
      rw [update_self] at hl'
      by_cases he : leaf' = leaf
      · rw [he, update_self] at hl'
        cases hl'
      · rwa [update_of_ne he] at hl'
    · rwa [update_of_ne hd] at hl'
  refine ⟨fun c t id hid => ?_, fun dir' leaf' id hl => h.pins dir' leaf' id (hpins hl)⟩
  obtain ⟨p, hp, ho⟩ := h.attached c t id hid
  refine ⟨p, hp, fun dir' hd => ?_⟩
  obtain ⟨leaf', hn, ht, hl⟩ := ho dir' hd
  refine ⟨leaf', hn, ht, ?_⟩
  show update s.pins dir (update (s.pins dir) leaf none) dir' leaf' = some id
  by_cases he : dir' = dir
  · subst he
    rw [update_self, update_of_ne ?_]
    · exact hl
    · rintro rfl
      exact hc id hl c t hid
  · rw [update_of_ne he]
    exact hl

theorem Guarded.unlink (h : Guarded c dir s) (hc : Cleared dir s leaf) :
    Guarded c dir (s.setPin dir leaf none) :=
  ⟨h.authority.unlink hc, h.homed⟩

theorem setPin_none_pins {leaf' : Leaf} : (s.setPin dir leaf none).pins dir leaf' =
    if leaf' = leaf then none else s.pins dir leaf' := by
  show update s.pins dir (update (s.pins dir) leaf none) dir leaf' = _
  rw [update_self]
  split
  · rename_i he
    rw [he, update_self]
  · rename_i he
    rw [update_of_ne he]

theorem Cleared.unlink {leaf' : Leaf} (h : Cleared dir s leaf') :
    Cleared dir (s.setPin dir leaf none) leaf' := by
  intro id hl
  rw [setPin_none_pins] at hl
  split at hl
  · cases hl
  · exact h id hl

/-- What removing pins leaves behind, once their programs are off. -/
structure Unlinked (c : Cgroup) (dir : Dir) (s s' : State) : Prop where
  guarded : Guarded c dir s'
  cleared : ∀ leaf, Cleared dir s' leaf
  beside : Beside s s'
  hooks : s'.hooks = s.hooks
  programs : s'.programs = s.programs
  pins : ∀ leaf, s.pins dir leaf = none → s'.pins dir leaf = none

theorem Unlinked.refl (ha : Guarded c dir s) (hc : ∀ leaf, Cleared dir s leaf) : Unlinked c dir s s :=
  ⟨ha, hc, .refl s, rfl, rfl, fun _ h => h⟩

theorem Unlinked.trans (h : Unlinked c dir s s₁) (h' : Unlinked c dir s₁ s₂) : Unlinked c dir s s₂ :=
  ⟨h'.guarded, h'.cleared, h.beside.trans h'.beside, h'.hooks.trans h.hooks,
    h'.programs.trans h.programs, fun leaf hl => h'.pins leaf (h.pins leaf hl)⟩

theorem Unlinked.setPin (h : Unlinked c dir s s₁) (leaf : Leaf) :
    Unlinked c dir s (s₁.setPin dir leaf none) := by
  refine ⟨h.guarded.unlink (h.cleared leaf), fun leaf' => (h.cleared leaf').unlink,
    h.beside.trans ⟨fun _ _ h => h, fun _ _ _ h => h, rfl, rfl, rfl, rfl⟩, h.hooks, h.programs,
    fun leaf' hl => ?_⟩
  rw [setPin_none_pins]
  split
  · rfl
  · exact h.pins leaf' hl

theorem unlinkPins_always (rest : List Leaf) (h : Unlinked c dir s s₁) :
    Prog.Always admissible (Guarded c dir)
      (fun s' r => Unlinked c dir s s' ∧ Unlinked c dir s₁ s' ∧
        (r = true → ∀ leaf ∈ rest, s'.pins dir leaf = none))
      (unlinkPins dir rest s₁) := by
  induction rest generalizing s₁ with
  | nil => exact ⟨h, .refl h.guarded h.cleared, fun _ leaf hl => nomatch hl⟩
  | cons leaf rest ih =>
      refine (unlinkPin_always h.guarded).bind fun s₂ r h₂ => ?_
      have hself := Unlinked.refl h.guarded h.cleared
      have hstep : Unlinked c dir s₁ s₂ ∧ ((r = none ∨ r = some .enoent) → s₂.pins dir leaf = none) := by
        rcases h₂ with ⟨rfl, hnone⟩ | rfl
        · exact ⟨hself, hnone⟩
        · refine ⟨hself.setPin leaf, fun _ => ?_⟩
          rw [setPin_none_pins, if_pos rfl]
      refine Act.always_ite (fun hr => (ih (h.trans hstep.1)).mono fun s₃ r₃ h₃ => ?_) fun _ =>
        ⟨h.trans hstep.1, hstep.1, by nofun⟩
      obtain ⟨hs, h₂₃, hrest⟩ := h₃
      refine ⟨hs, hstep.1.trans h₂₃, fun ht leaf' hl => ?_⟩
      rcases List.mem_cons.mp hl with rfl | hl
      · exact h₂₃.pins _ (hstep.2 hr)
      · exact hrest ht leaf' hl

/-- What a reconciliation leaves behind. -/
structure Reconciled (c : Cgroup) (dir : Dir) (s s' : State) (r : Bool) : Prop where
  guarded : Guarded c dir s'
  beside : Beside s s'
  /-- Only programs behind the pins are gone from any hook. -/
  keeps : ∀ c' t, ∀ id ∈ (s.hooks c' t).progs,
    id ∈ (s'.hooks c' t).progs ∨ ∃ leaf, s.pins dir leaf = some id
  /-- After success they are all gone. -/
  off : r = true → ∀ leaf id, s.pins dir leaf = some id → ∀ c' t, id ∉ (s'.hooks c' t).progs
  /-- Where one had an exclusive hook, that has a program that only allows. -/
  exclusive : r = true → ∀ t leaf id, s.pins dir leaf = some id → s.hooks c t = ⟨0, [id]⟩ →
    ∃ new p, s'.hooks c t = ⟨0, [new]⟩ ∧ s'.programs new = some p ∧ p.insns = allowOnly
  unpinned : r = true → ∀ leaf, s'.pins dir leaf = none

/-- **`asterisk_cgroup_reconcile`**. -/
theorem reconcile_always (ha : Guarded c dir s) :
    Prog.Always admissible (Guarded c dir) (fun s' r => Reconciled c dir s s' r)
      (reconcile c dir s) := by
  refine (detachPins_always ha).bind fun s₁ r h₁ => ?_
  obtain ⟨hp, hb, hclear⟩ := h₁
  refine Act.always_ite (fun hr => ?_) fun _ =>
    ⟨hp.guarded, hb, hp.keeps, by nofun, by nofun, by nofun⟩
  refine (unlinkPins_always catalog (.refl hp.guarded (hclear hr))).mono fun s₂ r₂ h₂ => ?_
  obtain ⟨⟨ha₂, -, hb₂, hooks, programs, -⟩, -, hnone⟩ := h₂
  have hoff : ∀ leaf id, s.pins dir leaf = some id → ∀ c' t, id ∉ (s₁.hooks c' t).progs := by
    intro leaf id hl
    exact hclear hr leaf id (by rw [hp.pins]; exact hl)
  refine ⟨ha₂, hb.trans hb₂, ?_, fun _ => ?_, fun _ t leaf id hl hs => ?_, fun ht leaf =>
    hnone ht leaf (mem_catalog leaf)⟩
  · rw [hooks]
    exact hp.keeps
  · rw [hooks]
    exact hoff
  · rw [hooks, programs]
    rcases hp.exclusive t leaf id hl hs with h | ⟨new, h, hallow⟩
    · refine absurd ?_ (hoff leaf id hl c t)
      rw [h]
      exact List.mem_singleton_self id
    · exact ⟨new, allowProgram, h, hallow, rfl⟩

end Bpf2Socks.Hooks

/-
# Bpf2Socks.Hooks.Starts — sequences of starts, killed anywhere.

`Running` is what a start keeps from its first system call to its last: the pins' authority over
attached programs, the records of replaced programs, whose originals may be put back, and its cgroup.
Each operation of a start keeps it, so authority holds wherever the process may be killed.
-/
import Bpf2Socks.Hooks.Reconciled

namespace Bpf2Socks.Hooks

open Function (update update_self update_of_ne)
open Lib

variable {s s' s₁ s₂ : State} {cfg : Config} {cg prog fd : Fd} {t : AttachType} {c : Cgroup}
  {dir : Dir} {leaf : Leaf} {id : ProgId} {i : Fin 6}

/-! ## The invariant of a start -/

structure Running (cfg : Config) (s : State) : Prop where
  guarded : Guarded cfg.cgroup cfg.dir s
  kept : Kept s
  /-- An original may be put back. -/
  records : ∀ i id n, s.Holds i id n →
    exclusiveHook (s.slots i).type = true ∧ Attachable s (s.slots i).type id
  cgroup : s.runtime.cgroupFd < 0 ∨ s.fds s.runtime.cgroupFd = some (.cgroup cfg.cgroup)

theorem Beside.kept (hb : Beside s s') (h : Kept s) : Kept s' := by
  refine h.external hb.slots hb.opened hb.closed fun k id n => ⟨fun hk => hb.fds _ _ hk, fun hk => ?_⟩
  exact hb.originals k id n hk

theorem Beside.holds {n : Nat} (hb : Beside s s') (h : s'.Holds i id n) : s.Holds i id n := by
  unfold State.Holds at h ⊢
  rw [hb.slots] at h
  exact ⟨h.1, hb.originals _ _ _ h.2⟩

/-- Descriptors of one's own and new programs, here or elsewhere. -/
theorem Running.gains (h : Running cfg s) (hb : Beside s s') (hk : Knows s s')
    (hpins : s'.pins = s.pins) (hg : Gains s s') : Running cfg s' := by
  refine ⟨h.guarded.gains hk hpins hg, hb.kept h.kept,
    fun i id n hh => ?_, ?_⟩
  · obtain ⟨he, hatt⟩ := h.records i id n (hb.holds hh)
    rw [hb.slots]
    exact ⟨he, hatt.known hk hpins⟩
  · rw [hb.runtime]
    exact h.cgroup.imp_right (hb.fds _ _)

/-- What stays over attaching and detaching: descriptors of one's own, programs, pins and fields. -/
structure Stays (s s' : State) : Prop where
  fds : ∀ k d, (∀ id n, d ≠ .program id (some n)) → s.fds k = some d → s'.fds k = some d
  programs : s'.programs = s.programs
  pins : s'.pins = s.pins
  runtime : s'.runtime = s.runtime

theorem Stays.refl (s : State) : Stays s s := ⟨fun _ _ _ h => h, rfl, rfl, rfl⟩

theorem Stays.trans (h : Stays s s₁) (h' : Stays s₁ s₂) : Stays s s₂ :=
  ⟨fun k d hd hk => h'.fds k d hd (h.fds k d hd hk), h'.programs.trans h.programs,
    h'.pins.trans h.pins, h'.runtime.trans h.runtime⟩

theorem Stays.cgroup (h : Stays s s')
    (hc : s.runtime.cgroupFd < 0 ∨ s.fds s.runtime.cgroupFd = some (.cgroup c)) :
    s'.runtime.cgroupFd < 0 ∨ s'.fds s'.runtime.cgroupFd = some (.cgroup c) := by
  rw [h.runtime]
  exact hc.imp_right (h.fds _ _ (by nofun))

/-! ## Attaching and detaching -/

/-- A hook gets one program that may be there. -/
theorem Authority.put {hook : Hook} (h : Authority s) (hatt : ∀ id ∈ hook.progs, Attachable s t id) :
    Authority (s.setHook c t hook) := by
  refine ⟨fun c' t' id hid => ?_, h.pins⟩
  by_cases he : c' = c ∧ t' = t
  · obtain ⟨rfl, rfl⟩ := he
    rw [hooks_setHook] at hid
    exact hatt id hid
  · rw [hooks_setHook_of_ne he] at hid
    exact h.attached c' t' id hid

theorem Homed.put {hook : Hook} (h : Homed c dir s) : Homed c dir (s.setHook c t hook) := by
  intro c' t' id hid p hp ho
  by_cases he : c' = c ∧ t' = t
  · exact he.1
  · rw [hooks_setHook_of_ne he] at hid
    exact h c' t' id hid p hp ho

theorem Running.setHook {hook : Hook} (h : Running cfg s)
    (hatt : ∀ id ∈ hook.progs, Attachable s t id) :
    Running cfg (s.setHook cfg.cgroup t hook) :=
  ⟨⟨h.guarded.authority.put hatt, h.guarded.homed.put⟩, h.kept.setHook .., h.records, h.cgroup⟩

/-- **An attach** of a program that may be there, to the start's cgroup. -/
theorem AttachOutcome.running {o : Option Nat} {r : Option Errno}
    (ho : AttachOutcome s cg prog t s' r) (h : Running cfg s)
    (hcg : s.fds cg = some (.cgroup cfg.cgroup)) (hprog : s.fds prog = some (.program id o))
    (hatt : Attachable s t id) : Running cfg s' ∧ Stays s s' := by
  have hkept := h.kept.attach ho
  cases ho with
  | joined hc hp _ _ =>
      cases hcg.symm.trans hc
      cases hprog.symm.trans hp
      refine ⟨h.setHook fun id' hid => ?_, fun _ _ _ h => h, rfl, rfl, rfl⟩
      rcases List.mem_append.mp hid with hid | hid
      · exact h.guarded.authority.attached _ _ id' hid
      · rw [List.mem_singleton.mp hid]
        exact hatt
  | refused e => exact ⟨h, .refl s⟩
  -- the original was opened and closed again: the descriptors are as before
  | @closed old fd _ free e =>
      have hfds : ((s.opening cg old fd).closeOriginal fd).fds = s.fds := fds_openClose free
      have hstays : Stays s ((s.opening cg old fd).closeOriginal fd) :=
        ⟨fun k d _ hk => by rw [hfds]; exact hk, rfl, rfl, rfl⟩
      refine ⟨⟨h.guarded.gains (.refl _) rfl fun _ _ _ h => .inl h, hkept, fun i id n hh => ?_,
        hstays.cgroup h.cgroup⟩, hstays⟩
      refine h.records i id n ⟨hh.1, ?_⟩
      have := hh.2
      rwa [hfds] at this
  | @replaced c old new o' p fd slot exclusive free hc hnew hook _ _ _ _ =>
      cases hcg.symm.trans hc
      have hopen : ∀ {k d}, s.fds k = some d → (s.opening cg old fd).fds k = some d := by
        intro k d hk
        refine (update_of_ne ?_ ..).trans hk
        rintro rfl
        exact nomatch free.symm.trans hk
      cases (hopen hprog).symm.trans hnew
      -- what was on the hook may be there, so it may be put back
      have hold : Attachable s t old := by
        refine h.guarded.authority.attached cfg.cgroup t old ?_
        rw [hook]
        exact List.mem_singleton_self old
      refine ⟨⟨?_, hkept, fun i id' n hh => ?_, ?_⟩, fun k d _ hk => hopen hk, rfl, rfl, rfl⟩
      · have hrun : Running cfg (s.setHook cfg.cgroup t ⟨0, [id]⟩) := h.setHook fun id' hid => by
          rw [List.mem_singleton.mp hid]
          exact hatt
        exact hrun.guarded.gains (.refl _) rfl fun _ _ _ h => .inl h
      · rcases h.kept.holds_record free hh with ⟨rfl, rfl, -⟩ | ⟨hi, hh'⟩
        · show exclusiveHook (update s.slots i ⟨true, cg, prog, fd, t⟩ i).type = true ∧
            Attachable s (update s.slots i ⟨true, cg, prog, fd, t⟩ i).type id'
          rw [update_self]
          exact ⟨exclusive, hold⟩
        · show exclusiveHook (update s.slots slot ⟨true, cg, prog, fd, t⟩ i).type = true ∧
            Attachable s (update s.slots slot ⟨true, cg, prog, fd, t⟩ i).type id'
          rw [update_of_ne hi]
          exact h.records i id' n hh'
      · exact h.cgroup.imp_right fun hk => hopen hk

theorem progAttach_running {o : Option Nat} (h : Running cfg s)
    (hcg : s.fds cg = some (.cgroup cfg.cgroup)) (hprog : s.fds prog = some (.program id o))
    (hatt : Attachable s t id) : Prog.Always admissible (Guarded cfg.cgroup cfg.dir)
    (fun s' r => AttachOutcome s cg prog t s' r ∧ Running cfg s' ∧ Stays s s')
    (progAttach cg prog t s) := by
  refine (progAttach_always fun s' hsame => ?_).mono fun s' r ho => ⟨ho, ho.running h hcg hprog hatt⟩
  refine h.guarded.gains ?_ hsame.pins fun c t id hid => .inl (hsame.hooks ▸ hid)
  intro id p hp
  rw [hsame.programs]
  exact hp

theorem Running.giveUp (h : Running cfg s) (hi : (s.slots i).active = true) :
    Running cfg (s.giveUp i) ∧ Stays s (s.giveUp i) := by
  have hstays : Stays s (s.giveUp i) := ⟨fun k d hd hk => h.kept.fds_giveUp hi hd hk, rfl, rfl, rfl⟩
  refine ⟨⟨h.guarded.gains (.refl _) rfl fun _ _ _ h => .inl h, h.kept.giveUp hi, fun j id n hh => ?_,
    hstays.cgroup h.cgroup⟩, hstays⟩
  obtain ⟨-, hh'⟩ := holds_giveUp hh
  rw [(slots_giveUp hh.1).2]
  exact h.records j id n hh'

/-- **A detach** from the start's cgroup. -/
theorem DetachOutcome.running {r : Option Errno} (ho : DetachOutcome s cg prog t s' r)
    (h : Running cfg s) (hcg : s.fds cg = some (.cgroup cfg.cgroup)) :
    Running cfg s' ∧ Stays s s' := by
  cases ho with
  | refused e => exact ⟨h, .refl s⟩
  | absent _ _ _ _ => exact ⟨h, .refl s⟩
  | removed _ hc _ =>
      cases hcg.symm.trans hc
      refine ⟨h.setHook fun id' hid => ?_, fun _ _ _ h => h, rfl, rfl, rfl⟩
      exact h.guarded.authority.attached _ _ id' (List.mem_of_mem_erase hid)
  | changed recorded => exact h.giveUp (recordOf_some recorded).1
  | @restored i c id old o o' recorded hc _ _ original =>
      cases hcg.symm.trans hc
      obtain ⟨ha, -, ht, -⟩ := recordOf_some recorded
      obtain ⟨id₀, n, hh⟩ := h.kept.held i ha
      cases original.symm.trans hh.2
      have hatt := (h.records i old n hh).2
      rw [ht] at hatt
      have hput : Running cfg (s.setHook cfg.cgroup t ⟨0, [old]⟩) := h.setHook fun id' hid => by
        rw [List.mem_singleton.mp hid]
        exact hatt
      obtain ⟨hrun, hstays⟩ := hput.giveUp (i := i) ha
      exact ⟨hrun, ⟨hstays.fds, hstays.programs, hstays.pins, hstays.runtime⟩⟩

theorem progDetach_running (h : Running cfg s)
    (hcg : cg < 0 ∨ s.fds cg = some (.cgroup cfg.cgroup)) : Prog.Always admissible (Guarded cfg.cgroup cfg.dir)
    (fun s' r => Running cfg s' ∧ Stays s s' ∧ Fewer s s' ∧
      (r = none → DetachOutcome s cg prog t s' none))
    (progDetach cg prog t s) := by
  rcases hcg with hneg | hcg
  · refine Act.always_ite (fun _ => ⟨h, .refl s, fun _ _ => rfl, by nofun⟩) fun hn => ?_
    exact absurd (.inl hneg) hn
  · refine (progDetach_always h.guarded).mono fun s' r ho => ?_
    obtain ⟨hrun, hstays⟩ := ho.running h hcg
    refine ⟨hrun, hstays, ho.fewer, ?_⟩
    rintro rfl
    exact ho

theorem cgroupRestore_running (h : Running cfg s) : Prog.Always admissible (Guarded cfg.cgroup cfg.dir)
    (fun s' _ => Running cfg s') (cgroupRestore s.runtime.cgroupFd s) := by
  have hall : Prog.Always admissible (Guarded cfg.cgroup cfg.dir) _ (cgroupRestore s.runtime.cgroupFd s) :=
    cgroupRestore_always (J := fun s' => Running cfg s' ∧ s'.runtime = s.runtime)
      (fun s₁ prog t hj => (progDetach_running hj.1 (hj.2 ▸ hj.1.cgroup)).mono fun s₂ r h₂ =>
        ⟨⟨h₂.1, h₂.2.1.runtime.trans hj.2⟩, h₂.2.2.1⟩)
      (fun s₁ i hj ha => ⟨(hj.1.giveUp ha).1, hj.2⟩) ⟨h, rfl⟩
  exact hall.mono fun s' _ h' => h'.1.1

/-! ## Stopping -/

theorem detachLeaf_running (h : Running cfg s) : Prog.Always admissible (Guarded cfg.cgroup cfg.dir)
    (fun s' _ => Running cfg s') (detachLeaf leaf s) :=
  (progDetach_running h h.cgroup).bind fun _ _ h' => h'.1

/-- Code that keeps the invariant, for every entry of a list. -/
theorem forEach_running {f : Leaf → Code Unit} (hf : ∀ leaf s, Running cfg s →
    Prog.Always admissible (Guarded cfg.cgroup cfg.dir) (fun s' _ => Running cfg s') (f leaf s)) (leaves : List Leaf)
    (h : Running cfg s) : Prog.Always admissible (Guarded cfg.cgroup cfg.dir) (fun s' _ => Running cfg s')
    (Act.forEach f leaves s) := by
  induction leaves generalizing s with
  | nil => exact h
  | cons leaf leaves ih => exact (hf leaf s h).bind fun s' _ h' => ih h'

/-- **`bpf2socks_bpf_runtime_stop`**. -/
theorem runtimeStop_always (h : Running cfg s) : Prog.Always admissible (Guarded cfg.cgroup cfg.dir)
    (fun s' _ => Guarded cfg.cgroup cfg.dir s') (runtimeStop s) := by
  refine (forEach_running (fun leaf s h => ?_) stopOrder h).bind fun s₁ _ h₁ => ?_
  · exact Act.always_ite (fun _ => detachLeaf_running h) fun _ => h
  · refine (cgroupRestore_running h₁).bind fun s₂ _ h₂ => ?_
    exact h₂.guarded.gains (.refl _) rfl fun _ _ _ h => .inl h

/-! ## Loading and pinning -/

/-- A descriptor of a program of this start. -/
structure Owns (cfg : Config) (s : State) (leaf : Leaf) (fd : Fd) (id : ProgId) : Prop where
  fd : s.fds fd = some (.program id none)
  program : ∃ p, s.programs id = some p ∧ p.name = some leaf ∧ p.owner = some cfg.dir

theorem Owns.attachable (h : Owns cfg s leaf fd id) (hpin : s.pins cfg.dir leaf = some id) :
    Attachable s leaf.type id := by
  obtain ⟨p, hp, hn, ho⟩ := h.program
  refine ⟨p, hp, fun dir hd => ?_⟩
  cases ho.symm.trans hd
  exact ⟨leaf, hn, rfl, hpin⟩

theorem Owns.stays (h : Owns cfg s leaf fd id) (hs : Stays s s') : Owns cfg s' leaf fd id :=
  ⟨hs.fds _ _ (by nofun) h.fd, by rw [hs.programs]; exact h.program⟩

theorem pins_setPin {dir' : Dir} {leaf' : Leaf} (h : ¬ (dir' = dir ∧ leaf' = leaf))
    (x : Option ProgId) : (s.setPin dir leaf x).pins dir' leaf' = s.pins dir' leaf' := by
  show update s.pins dir (update (s.pins dir) leaf x) dir' leaf' = s.pins dir' leaf'
  by_cases hd : dir' = dir
  · subst hd
    rw [update_self, update_of_ne fun hl => h ⟨rfl, hl⟩]
  · rw [update_of_ne hd]

theorem pins_setPin_self {x : Option ProgId} : (s.setPin dir leaf x).pins dir leaf = x := by
  show update s.pins dir (update (s.pins dir) leaf x) dir leaf = x
  rw [update_self, update_self]

/-- A new pin takes nothing away. -/
theorem Attachable.pin (h : Attachable s t id) (hnone : s.pins dir leaf = none) (x : Option ProgId) :
    Attachable (s.setPin dir leaf x) t id := by
  obtain ⟨p, hp, ho⟩ := h
  refine ⟨p, hp, fun dir' hd => ?_⟩
  obtain ⟨leaf', hn, ht, hl⟩ := ho dir' hd
  refine ⟨leaf', hn, ht, ?_⟩
  rw [pins_setPin ?_]
  · exact hl
  · rintro ⟨rfl, rfl⟩
    exact nomatch hnone.symm.trans hl

/-- **A program of this start is pinned.** -/
theorem Running.pin (h : Running cfg s) (hown : Owns cfg s leaf fd id)
    (hnone : s.pins cfg.dir leaf = none) : Running cfg (s.setPin cfg.dir leaf (some id)) := by
  refine ⟨⟨⟨fun c t id' hid => ?_, fun dir leaf' id' hl => ?_⟩, h.guarded.homed⟩,
    h.kept.external rfl rfl rfl fun _ _ _ => Iff.rfl, fun i id' n hh => ?_, h.cgroup⟩
  · exact (h.guarded.authority.attached c t id' hid).pin hnone _
  · by_cases he : dir = cfg.dir ∧ leaf' = leaf
    · obtain ⟨rfl, rfl⟩ := he
      rw [pins_setPin_self] at hl
      cases hl
      exact hown.program
    · rw [pins_setPin he] at hl
      exact h.guarded.authority.pins dir leaf' id' hl
  · obtain ⟨he, hatt⟩ := h.records i id' n hh
    exact ⟨he, hatt.pin hnone _⟩

theorem cgroupPin_always (ha : Guarded cfg.cgroup cfg.dir s) (hown : Owns cfg s leaf fd id) :
    Prog.Always admissible (Guarded cfg.cgroup cfg.dir)
      (fun s' r => (r ≠ none ∧ s' = s) ∨ (r = none ∧ s.pins cfg.dir leaf = none ∧
        s' = s.setPin cfg.dir leaf (some id)))
      (cgroupPin fd cfg.dir s) := by
  obtain ⟨p, hp, hn, -⟩ := hown.program
  refine Prog.Always.bind (m := fun s' r => s' = s ∧ ∀ a, r = .ok a → a = (id, p))
    (reads_always ha (fun e => ⟨rfl, by simp⟩) fun a hi => ⟨rfl, fun a' he => ?_⟩) ?_
  · cases he
    simp only [State.info, hown.fd, hp] at hi
    cases hi
    rfl
  · rintro s₁ r ⟨rfl, hr⟩
    rcases r with e | a
    · exact .inl ⟨by simp, rfl⟩
    · obtain rfl := hr a rfl
      dsimp only
      rw [hn]
      refine Act.always_ite (fun _ => ?_) fun _ => .inl ⟨by simp, rfl⟩
      refine acts_always ha (fun e => .inl ⟨by simp, rfl⟩) fun s' h => .inr ⟨rfl, ?_⟩
      simp only [State.pin, hown.fd] at h
      split at h
      · cases h
      · rename_i hnone
        cases h
        exact ⟨by simpa using hnone, rfl⟩

/-- A program is loaded: its descriptor is new, and no hook has it. -/
theorem load_running (h : Running cfg s) (insns : List Insn) : Prog.Always admissible (Guarded cfg.cgroup cfg.dir)
    (fun s' r => Running cfg s' ∧ Beside s s' ∧ Knows s s' ∧ s'.pins = s.pins ∧
      s'.hooks = s.hooks ∧
      ∀ fd, r = .ok fd → 0 ≤ fd ∧ s.fds fd = none ∧
        ∃ id, Owns cfg s' leaf fd id ∧ ∀ c t, id ∉ (s'.hooks c t).progs)
    (loadProgram (cfg.program leaf insns) s) := by
  refine (loadProgram_always h.guarded).mono fun s₁ r h₁ => ?_
  rcases h₁ with ⟨e, rfl, rfl⟩ | ⟨fd, id, rfl, hnn, free, hnew, rfl⟩
  · exact ⟨h, .refl _, .refl _, rfl, rfl, by nofun⟩
  · have hknows : Knows s { s.setFd fd (some (.program id none)) with
        programs := update s.programs id (some (cfg.program leaf insns)) } := knows_load hnew
    have hbeside : Beside s { s.setFd fd (some (.program id none)) with
        programs := update s.programs id (some (cfg.program leaf insns)) } :=
      (beside_open free (by nofun)).trans ⟨fun _ _ h => h, fun _ _ _ h => h, rfl, rfl, rfl, rfl⟩
    refine ⟨h.gains hbeside hknows rfl fun c t id hid => .inl hid, hbeside, hknows, rfl, rfl,
      fun fd' he => ?_⟩
    cases he
    refine ⟨hnn, free, id, ⟨update_self .., cfg.program leaf insns, update_self .., rfl, rfl⟩,
      fun c t hid => ?_⟩
    obtain ⟨p, hp, -⟩ := h.guarded.authority.attached c t id hid
    exact nomatch hnew.symm.trans hp

theorem Running.setProgFd (h : Running cfg s) : Running cfg (s.setProgFd leaf fd) :=
  ⟨h.guarded.gains (.refl _) rfl fun _ _ _ h => .inl h, h.kept.external rfl rfl rfl fun _ _ _ => Iff.rfl,
    h.records, h.cgroup⟩

/-! ## Stages -/

/-- The start has its cgroup open, and every field that is set has its program. -/
structure Opened (cfg : Config) (s : State) : Prop where
  running : Running cfg s
  cgroup : s.fds s.runtime.cgroupFd = some (.cgroup cfg.cgroup)
  loaded : ∀ leaf, 0 ≤ s.runtime.progFd leaf → ∃ id, Owns cfg s leaf (s.runtime.progFd leaf) id

/-- The program of a field is pinned. -/
def Ready (cfg : Config) (s : State) (leaf : Leaf) : Prop :=
  ∃ id, Owns cfg s leaf (s.runtime.progFd leaf) id ∧ s.pins cfg.dir leaf = some id

theorem Opened.stays (h : Opened cfg s) (hs : Stays s s') (hr : Running cfg s') : Opened cfg s' := by
  refine ⟨hr, ?_, fun leaf hl => ?_⟩
  · rw [hs.runtime]
    exact hs.fds _ _ (by nofun) h.cgroup
  · rw [hs.runtime] at hl ⊢
    obtain ⟨id, ho⟩ := h.loaded leaf hl
    exact ⟨id, ho.stays hs⟩

theorem Ready.stays (h : Ready cfg s leaf) (hs : Stays s s') : Ready cfg s' leaf := by
  obtain ⟨id, ho, hp⟩ := h
  refine ⟨id, ?_, ?_⟩
  · rw [hs.runtime]
    exact ho.stays hs
  · rw [hs.pins]
    exact hp

/-- One stage after another. -/
theorem then_always {I : State → Prop} {post : State → Bool → Prop} {m k : Code Bool}
    (h : Prog.Always admissible I (fun s' r => (r = true → Prog.Always admissible I post (k s')) ∧
      (r = false → post s' false)) (m s)) :
    Prog.Always admissible I post (Stage.then m k s) := by
  refine h.bind fun s' r h' => ?_
  cases r with
  | true => exact h'.1 rfl
  | false => exact h'.2 rfl

theorem elsewhere_always {I : State → Prop} (hI : I s) :
    Prog.Always admissible I (fun s' _ => s' = s) (elsewhere s) := by
  refine Prog.Always.bind (m := fun s' _ => s' = s) (acts_always hI (fun e => rfl) fun s' h => ?_)
    fun s' r h => h
  cases h
  rfl

/-- **A program is loaded into its field.** -/
theorem loadLeaf_always (h : Opened cfg s) : Prog.Always admissible (Guarded cfg.cgroup cfg.dir)
    (fun s' _ => Opened cfg s' ∧ s'.pins = s.pins ∧ s'.runtime.cgroupFd = s.runtime.cgroupFd ∧
      ∀ leaf', leaf' ≠ leaf → s'.runtime.progFd leaf' = s.runtime.progFd leaf')
    (loadLeaf cfg leaf s) := by
  refine (load_running h.running (cfg.insns leaf)).bind fun s₁ r h₁ => ?_
  obtain ⟨hrun, hb, hk, hpins, -, hok⟩ := h₁
  -- the fields that were set are set to the same programs
  have hold : ∀ leaf', 0 ≤ s₁.runtime.progFd leaf' →
      ∃ id, Owns cfg s₁ leaf' (s₁.runtime.progFd leaf') id := by
    intro leaf' hl
    rw [hb.runtime] at hl ⊢
    obtain ⟨id, ho⟩ := h.loaded leaf' hl
    obtain ⟨p, hp, hrest⟩ := ho.program
    exact ⟨id, hb.fds _ _ ho.fd, p, hk id p hp, hrest⟩
  have hset : ∀ fd, (0 ≤ fd → ∃ id, Owns cfg s₁ leaf fd id) →
      Opened cfg (s₁.setProgFd leaf fd) ∧ (s₁.setProgFd leaf fd).pins = s.pins ∧
      (s₁.setProgFd leaf fd).runtime.cgroupFd = s.runtime.cgroupFd ∧
      ∀ leaf', leaf' ≠ leaf →
        (s₁.setProgFd leaf fd).runtime.progFd leaf' = s.runtime.progFd leaf' := by
    intro fd hfd
    refine ⟨⟨hrun.setProgFd, ?_, fun leaf' hl => ?_⟩, hpins, ?_, fun leaf' hne => ?_⟩
    · show s₁.fds s₁.runtime.cgroupFd = _
      rw [hb.runtime]
      exact hb.fds _ _ h.cgroup
    · have hl' : 0 ≤ update s₁.runtime.progFd leaf fd leaf' := hl
      show ∃ id, Owns cfg (s₁.setProgFd leaf fd) leaf' (update s₁.runtime.progFd leaf fd leaf') id
      by_cases he : leaf' = leaf
      · subst he
        rw [update_self] at hl' ⊢
        obtain ⟨id, ho⟩ := hfd hl'
        exact ⟨id, ho.fd, ho.program⟩
      · rw [update_of_ne he] at hl' ⊢
        obtain ⟨id, ho⟩ := hold leaf' hl'
        exact ⟨id, ho.fd, ho.program⟩
    · show s₁.runtime.cgroupFd = _
      rw [hb.runtime]
    · show update s₁.runtime.progFd leaf fd leaf' = _
      rw [update_of_ne hne, hb.runtime]
  rcases r with e | fd
  · exact hset (-1) (fun hn => absurd hn (by decide))
  · obtain ⟨-, -, id, ho, -⟩ := hok fd rfl
    exact hset fd fun _ => ⟨id, ho⟩

theorem forEach_loadLeaf_always (leaves : List Leaf) (h : Opened cfg s) :
    Prog.Always admissible (Guarded cfg.cgroup cfg.dir)
      (fun s' _ => Opened cfg s' ∧
        ∀ leaf, leaf ∉ leaves → s'.runtime.progFd leaf = s.runtime.progFd leaf)
      (Act.forEach (loadLeaf cfg) leaves s) := by
  induction leaves generalizing s with
  | nil => exact ⟨h, fun _ _ => rfl⟩
  | cons leaf leaves ih =>
      refine (loadLeaf_always h).bind fun s₁ _ h₁ => ?_
      obtain ⟨ho, -, -, hother⟩ := h₁
      refine (ih ho).mono fun s₂ _ h₂ => ⟨h₂.1, fun leaf' hl => ?_⟩
      rw [List.mem_cons, not_or] at hl
      rw [h₂.2 leaf' hl.2, hother leaf' hl.1]

/-- The fields of these programs are set. -/
def AllSet (s : State) (leaves : List Leaf) : Prop := ∀ leaf ∈ leaves, 0 ≤ s.runtime.progFd leaf

theorem loadAll_always (leaves : List Leaf) (h : Opened cfg s) : Prog.Always admissible (Guarded cfg.cgroup cfg.dir)
    (fun s' r => Opened cfg s' ∧ (r = true → AllSet s' leaves) ∧
      ∀ leaf, leaf ∉ leaves → s'.runtime.progFd leaf = s.runtime.progFd leaf)
    (loadAll cfg leaves s) := by
  refine (forEach_loadLeaf_always leaves h).bind fun s₁ _ h₁ => ?_
  refine ⟨h₁.1, fun hr leaf hl => ?_, h₁.2⟩
  have := List.all_eq_true.mp hr leaf hl
  simpa using this

/-- The programs a start attaches to connect, sendmsg and recvmsg hooks. -/
def wanted (cfg : Config) : List Leaf := [.connect4, .sendmsg4, .recvmsg4] ++ sixLeaves cfg

theorem AllSet.append {l l' : List Leaf} (h : AllSet s l) (h' : AllSet s l') : AllSet s (l ++ l') :=
  fun leaf hl => (List.mem_append.mp hl).elim (h leaf) (h' leaf)

/-- Fields keep their programs while others are loaded. -/
theorem AllSet.keep {l l' : List Leaf} (h : AllSet s l)
    (hother : ∀ leaf, leaf ∉ l' → s'.runtime.progFd leaf = s.runtime.progFd leaf)
    (hd : ∀ leaf ∈ l, leaf ∉ l') : AllSet s' l := by
  intro leaf hl
  rw [hother leaf (hd leaf hl)]
  exact h leaf hl

/-- **Loading.** -/
theorem loadPrograms_always (h : Opened cfg s) : Prog.Always admissible (Guarded cfg.cgroup cfg.dir)
    (fun s' r => Opened cfg s' ∧ (r = true → AllSet s' (wanted cfg))) (loadPrograms cfg s) := by
  refine then_always ((loadAll_always _ h).mono fun s₁ r₁ h₁ => ⟨fun hr₁ => ?_, fun _ => ⟨h₁.1, by nofun⟩⟩)
  obtain ⟨ho₁, hset₁, -⟩ := h₁
  refine Act.always_ite (fun hsix => ?_) fun hsix => ?_
  · refine (loadAll_always _ ho₁).mono fun s₂ r₂ h₂ => ⟨h₂.1, fun hr₂ => ?_⟩
    rw [wanted, sixLeaves, if_pos hsix]
    exact ((hset₁ hr₁).keep h₂.2.2 (by decide)).append (h₂.2.1 hr₂)
  · refine then_always ((loadAll_always _ ho₁).mono fun s₂ r₂ h₂ =>
      ⟨fun hr₂ => ?_, fun _ => ⟨h₂.1, by nofun⟩⟩)
    refine (loadAll_always _ h₂.1).mono fun s₃ r₃ h₃ => ⟨h₃.1, fun hr₃ => ?_⟩
    rw [wanted, sixLeaves, if_neg hsix]
    have hbase := ((hset₁ hr₁).keep h₂.2.2 (by decide)).keep h₃.2.2 (by decide)
    have hconnect := (h₂.2.1 hr₂).keep h₃.2.2 (by decide)
    exact hbase.append (hconnect.append (h₃.2.1 hr₃))

theorem Opened.pin (h : Opened cfg s) (hown : Owns cfg s leaf fd id)
    (hnone : s.pins cfg.dir leaf = none) : Opened cfg (s.setPin cfg.dir leaf (some id)) :=
  ⟨h.running.pin hown hnone, h.cgroup, fun leaf' hl =>
    let ⟨id', ho⟩ := h.loaded leaf' hl
    ⟨id', ho.fd, ho.program⟩⟩

/-- **Pinning** what is loaded. -/
theorem pinAll_always (leaves : List Leaf) (h : Opened cfg s) : Prog.Always admissible (Guarded cfg.cgroup cfg.dir)
    (fun s' r => Opened cfg s' ∧ s'.runtime = s.runtime ∧
      (∀ leaf, Ready cfg s leaf → Ready cfg s' leaf) ∧
      (r = true → ∀ leaf ∈ leaves, 0 ≤ s.runtime.progFd leaf → Ready cfg s' leaf))
    (pinAll cfg leaves s) := by
  induction leaves generalizing s with
  | nil => exact ⟨h, rfl, fun _ h => h, fun _ leaf hl => nomatch hl⟩
  | cons leaf leaves ih =>
      refine Act.always_ite (fun hset => ?_) fun hset => ?_
      · obtain ⟨id, hown⟩ := h.loaded leaf hset
        refine (cgroupPin_always h.running.guarded hown).bind fun s₁ r h₁ => ?_
        rcases h₁ with ⟨hne, rfl⟩ | ⟨rfl, hnone, rfl⟩
        · refine Act.always_ite (fun hr => absurd hr hne) fun _ => ?_
          exact ⟨h, rfl, fun _ h => h, by nofun⟩
        · have hkeep : ∀ leaf', Ready cfg s leaf' →
              Ready cfg (s.setPin cfg.dir leaf (some id)) leaf' := by
            rintro leaf' ⟨id', ho, hp⟩
            refine ⟨id', ⟨ho.fd, ho.program⟩, ?_⟩
            rw [pins_setPin ?_]
            · exact hp
            · rintro ⟨-, rfl⟩
              exact nomatch hnone.symm.trans hp
          refine (ih (h.pin hown hnone)).mono fun s₂ r₂ h₂ => ?_
          obtain ⟨ho₂, hr₂, hk₂, hrest⟩ := h₂
          refine ⟨ho₂, hr₂, fun leaf' hl => hk₂ leaf' (hkeep leaf' hl), fun ht leaf' hl hs => ?_⟩
          rcases List.mem_cons.mp hl with rfl | hl
          · exact hk₂ _ ⟨id, ⟨hown.fd, hown.program⟩, pins_setPin_self⟩
          · exact hrest ht leaf' hl hs
      · refine (ih h).mono fun s₂ r₂ h₂ => ⟨h₂.1, h₂.2.1, h₂.2.2.1, fun ht leaf' hl hs => ?_⟩
        rcases List.mem_cons.mp hl with rfl | hl
        · exact absurd hs hset
        · exact h₂.2.2.2 ht leaf' hl hs

/-- **A pinned program is attached.** -/
theorem attachLeaf_always (h : Opened cfg s) (hready : Ready cfg s leaf) :
    Prog.Always admissible (Guarded cfg.cgroup cfg.dir)
      (fun s' _ => Opened cfg s' ∧ ∀ leaf', Ready cfg s leaf' → Ready cfg s' leaf')
      (attachLeaf leaf s) := by
  obtain ⟨id, hown, hpin⟩ := hready
  refine (progAttach_running h.running h.cgroup hown.fd (hown.attachable hpin)).mono fun s' r h' => ?_
  exact ⟨h.stays h'.2.2 h'.2.1, fun leaf' hl => hl.stays h'.2.2⟩

/-- **Attaching in order**, with the roll-back. -/
theorem attachAll_always (leaves : List Leaf) {attached : List Leaf} (h : Opened cfg s)
    (hready : ∀ leaf ∈ leaves, Ready cfg s leaf) : Prog.Always admissible (Guarded cfg.cgroup cfg.dir)
    (fun s' r => Running cfg s' ∧
      (r = true → Opened cfg s' ∧ ∀ leaf, Ready cfg s leaf → Ready cfg s' leaf))
    (attachAll attached leaves s) := by
  induction leaves generalizing s attached with
  | nil => exact ⟨h.running, fun _ => ⟨h, fun _ h => h⟩⟩
  | cons leaf leaves ih =>
      refine (attachLeaf_always h (hready leaf List.mem_cons_self)).bind fun s₁ r h₁ => ?_
      refine Act.always_ite (fun _ => ?_) fun _ => ?_
      · refine (ih h₁.1 fun leaf' hl => h₁.2 leaf' (hready leaf' (List.mem_cons_of_mem _ hl))).mono
          fun s₂ r₂ h₂ => ⟨h₂.1, fun hr => ?_⟩
        exact ⟨(h₂.2 hr).1, fun leaf' hl => (h₂.2 hr).2 leaf' (h₁.2 leaf' hl)⟩
      · refine (forEach_running (fun leaf s h => detachLeaf_running h) attached h₁.1.running).bind
          fun s₂ _ h₂ => ⟨h₂, by nofun⟩

/-! ## The capability program -/

/-- No hook has the program. -/
def Unattached (s : State) (id : ProgId) : Prop := ∀ c t, id ∉ (s.hooks c t).progs

/-- A program that joined others and was taken out again is nowhere. -/
theorem Unattached.without {hook : Hook} (h : Unattached s id)
    (hhook : hook = ⟨allowMulti, (s.hooks c t).progs ++ [id]⟩) :
    Unattached ((s.setHook c t hook).setHook c t (hook.without id)) id := by
  intro c' t'
  by_cases he : c' = c ∧ t' = t
  · obtain ⟨rfl, rfl⟩ := he
    rw [hooks_setHook, hhook]
    show id ∉ ((s.hooks c' t').progs ++ [id]).erase id
    rw [List.erase_append_right _ (h c' t'), List.erase_cons_head, List.append_nil]
    exact h c' t'
  · rw [hooks_setHook_of_ne he, hooks_setHook_of_ne he]
    exact h c' t'

/-- The start may remove the pin of a hook that is not exclusive when its program is off. -/
theorem Running.unlink (h : Running cfg s) (hc : Cleared cfg.dir s leaf)
    (hleaf : exclusiveHook leaf.type = false) : Running cfg (s.setPin cfg.dir leaf none) := by
  refine ⟨h.guarded.unlink hc, h.kept.external rfl rfl rfl fun _ _ _ => Iff.rfl,
    fun i id n hh => ?_, h.cgroup⟩
  obtain ⟨he, p, hp, ho⟩ := h.records i id n hh
  refine ⟨he, p, hp, fun dir hd => ?_⟩
  obtain ⟨leaf', hn, ht, hl⟩ := ho dir hd
  refine ⟨leaf', hn, ht, ?_⟩
  rw [pins_setPin ?_]
  · exact hl
  · rintro ⟨-, rfl⟩
    rw [ht] at hleaf
    rw [show exclusiveHook (s.slots i).type = true from he] at hleaf
    cases hleaf

/-- Attached and detached again, or never attached: it is nowhere. -/
theorem tryCapability_unattached {r : Option Errno} (hleaf : exclusiveHook t = false)
    (hun : Unattached s id) (hcg : s.fds cg = some (.cgroup c))
    (hfd : s.fds fd = some (.program id none)) (h₁ : AttachOutcome s cg fd t s₁ r)
    (hrec : ∀ i, (s₁.slots i).active = true → exclusiveHook (s₁.slots i).type = true) :
    (r ≠ none → s₁ = s) ∧
      ∀ s₂, DetachOutcome s₁ cg fd t s₂ none → r = none → Unattached s₂ id := by
  cases h₁ with
  | refused e => exact ⟨fun _ => rfl, fun _ _ h => nomatch h⟩
  | closed exclusive => exact nomatch hleaf.symm.trans exclusive
  | replaced exclusive => exact nomatch hleaf.symm.trans exclusive
  | @joined c' id' o hc hp _ _ =>
      refine ⟨fun hr => absurd rfl hr, fun s₂ h₂ _ => ?_⟩
      cases hcg.symm.trans hc
      cases hfd.symm.trans hp
      have hno : ∀ {i}, (s.setHook c t ⟨allowMulti, (s.hooks c t).progs ++ [id]⟩).recordOf cg fd t ≠
          some i := by
        intro i hi
        obtain ⟨ha, -, ht, -⟩ := recordOf_some hi
        have := hrec i ha
        rw [ht, hleaf] at this
        cases this
      cases h₂ with
      | absent _ hc₂ hp₂ gone =>
          cases hcg.symm.trans hc₂
          cases hfd.symm.trans hp₂
          rw [hooks_setHook] at gone
          exact absurd (List.mem_append_right _ (List.mem_singleton_self id)) gone
      | removed _ hc₂ hp₂ =>
          cases hcg.symm.trans hc₂
          cases hfd.symm.trans hp₂
          rw [hooks_setHook]
          exact hun.without rfl
      | restored recorded => exact absurd recorded hno

theorem Opened.unlink (h : Opened cfg s) (hc : Cleared cfg.dir s leaf)
    (hleaf : exclusiveHook leaf.type = false) : Opened cfg (s.setPin cfg.dir leaf none) :=
  ⟨h.running.unlink hc hleaf, h.cgroup, fun leaf' hl =>
    let ⟨id', ho⟩ := h.loaded leaf' hl
    ⟨id', ho.fd, ho.program⟩⟩

theorem Running.exclusive_records (h : Running cfg s) (i : Fin 6)
    (hi : (s.slots i).active = true) : exclusiveHook (s.slots i).type = true := by
  obtain ⟨id, n, hh⟩ := h.kept.held i hi
  exact (h.records i id n hh).1

/-- The end of `tryCapability`: the pin goes with the program nowhere. -/
theorem removeCapability_always {r : Option Errno} (h : Opened cfg s)
    (hpin : s.pins cfg.dir leaf = some id) (hun : Unattached s id)
    (hleaf : exclusiveHook leaf.type = false) : Prog.Always admissible (Guarded cfg.cgroup cfg.dir)
    (fun s' _ => Opened cfg s' ∧ s'.runtime = s.runtime ∧ s'.fds = s.fds)
    (removeCapability cfg leaf r s) := by
  have hcleared : Cleared cfg.dir s leaf := by
    intro id' hl
    cases hpin.symm.trans hl
    exact hun
  refine (unlinkPin_always h.running.guarded).bind fun s₁ u h₁ => ?_
  have hopen : Opened cfg s₁ ∧ s₁.runtime = s.runtime ∧ s₁.fds = s.fds := by
    rcases h₁ with ⟨rfl, -⟩ | rfl
    · exact ⟨h, rfl, rfl⟩
    · exact ⟨h.unlink hcleared hleaf, rfl, rfl⟩
  exact Act.always_ite (fun _ => hopen) fun _ => hopen

theorem tryCapability_always (h : Opened cfg s) (hown : Owns cfg s leaf fd id)
    (hpin : s.pins cfg.dir leaf = some id) (hun : Unattached s id)
    (hleaf : exclusiveHook leaf.type = false) : Prog.Always admissible (Guarded cfg.cgroup cfg.dir)
    (fun s' _ => Opened cfg s' ∧ s'.runtime = s.runtime ∧
      s'.fds fd = some (.program id none))
    (tryCapability cfg leaf fd s) := by
  refine (progAttach_running h.running h.cgroup hown.fd (hown.attachable hpin)).bind
    fun s₁ r h₁ => ?_
  obtain ⟨hout, hrun₁, hstays₁⟩ := h₁
  obtain ⟨hsame, hgone⟩ := tryCapability_unattached hleaf hun h.cgroup hown.fd hout
    hrun₁.exclusive_records
  have ho₁ := h.stays hstays₁ hrun₁
  have hcg₁ : s₁.fds s.runtime.cgroupFd = some (.cgroup cfg.cgroup) :=
    hstays₁.fds _ _ (by nofun) h.cgroup
  -- detached, or never attached, unless the whole fails
  refine Prog.Always.bind (m := fun s₂ d => Opened cfg s₂ ∧ Stays s s₂ ∧
    (d = none → Unattached s₂ id)) ?_ fun s₂ d h₂ => ?_
  · refine Act.always_ite (fun hr => ?_) fun hr => ?_
    · refine (progDetach_running hrun₁ (.inr hcg₁)).mono fun s₂ d h₂ => ?_
      exact ⟨ho₁.stays h₂.2.1 h₂.1, hstays₁.trans h₂.2.1, fun hd => hgone s₂ (h₂.2.2.2 hd) hr⟩
    · rw [hsame hr]
      exact ⟨h, .refl s, fun _ => hun⟩
  · obtain ⟨ho₂, hstays₂, hun₂⟩ := h₂
    have hfd₂ := (hown.stays hstays₂).fd
    refine Act.always_ite (fun _ => ⟨ho₂, hstays₂.runtime, hfd₂⟩) fun hd => ?_
    refine (removeCapability_always ho₂ (by rw [hstays₂.pins]; exact hpin) (hun₂ (not_not.mp hd))
      hleaf).mono fun s₃ _ h₃ => ?_
    exact ⟨h₃.1, h₃.2.1.trans hstays₂.runtime, by rw [h₃.2.2]; exact hfd₂⟩

/-- A descriptor that is in no field is closed. -/
theorem Opened.close (h : Opened cfg s) (hfd : s.fds fd = some (.program id none))
    (hcg : s.runtime.cgroupFd ≠ fd)
    (hprog : ∀ leaf, 0 ≤ s.runtime.progFd leaf → s.runtime.progFd leaf ≠ fd) :
    Opened cfg (s.setFd fd none) := by
  have hother : ∀ {k d}, k ≠ fd → s.fds k = some d → (s.setFd fd none).fds k = some d :=
    fun hne hk => (update_of_ne hne ..).trans hk
  have horiginal : ∀ {k id' n}, s.fds k = some (.program id' (some n)) → k ≠ fd := by
    rintro k id' n hk rfl
    exact nomatch hfd.symm.trans hk
  have hback : ∀ {k d}, (s.setFd fd none).fds k = some d → s.fds k = some d := by
    intro k d hk
    have hk' : update s.fds fd none k = some d := hk
    by_cases he : k = fd
    · rw [he, update_self] at hk'
      cases hk'
    · rwa [update_of_ne he] at hk'
  refine ⟨⟨h.running.guarded.gains (.refl _) rfl fun _ _ _ h => .inl h, ?_,
    fun i id' n hh => h.running.records i id' n ⟨hh.1, hback hh.2⟩, .inr (hother hcg h.cgroup)⟩,
    hother hcg h.cgroup, fun leaf hl => ?_⟩
  · exact h.running.kept.external rfl rfl rfl fun k id' n =>
      ⟨fun hk => hother (horiginal hk) hk, hback⟩
  · obtain ⟨id', ho⟩ := h.loaded leaf hl
    exact ⟨id', hother (hprog leaf hl) ho.fd, ho.program⟩

/-- What loading a program outside the fields leaves. -/
theorem Opened.beside (h : Opened cfg s) (hrun : Running cfg s') (hb : Beside s s')
    (hk : Knows s s') : Opened cfg s' := by
  refine ⟨hrun, by rw [hb.runtime]; exact hb.fds _ _ h.cgroup, fun leaf hl => ?_⟩
  rw [hb.runtime] at hl ⊢
  obtain ⟨id, ho⟩ := h.loaded leaf hl
  obtain ⟨p, hp, hrest⟩ := ho.program
  exact ⟨id, hb.fds _ _ ho.fd, p, hk id p hp, hrest⟩

/-- **The capability program** comes and goes. -/
theorem capability_always (h : Opened cfg s) (hleaf : exclusiveHook leaf.type = false) :
    Prog.Always admissible (Guarded cfg.cgroup cfg.dir) (fun s' _ => Opened cfg s') (capability cfg leaf s) := by
  refine (load_running h.running allowOnly).bind fun s₁ r h₁ => ?_
  obtain ⟨hrun, hb, hk, -, -, hok⟩ := h₁
  have ho₁ := h.beside hrun hb hk
  rcases r with e | fd
  · exact ho₁
  · obtain ⟨-, free, id, hown, hun⟩ := hok fd rfl
    -- the new descriptor is in no field
    have hne : ∀ {k d}, s.fds k = some d → k ≠ fd := by
      rintro k d hk rfl
      exact nomatch free.symm.trans hk
    have hcg : s₁.runtime.cgroupFd ≠ fd := by
      rw [hb.runtime]
      exact hne h.cgroup
    have hprog : ∀ leaf, 0 ≤ s₁.runtime.progFd leaf → s₁.runtime.progFd leaf ≠ fd := by
      intro leaf' hl
      rw [hb.runtime] at hl ⊢
      obtain ⟨id', ho⟩ := h.loaded leaf' hl
      exact hne ho.fd
    have hpinned : Prog.Always admissible (Guarded cfg.cgroup cfg.dir)
        (fun s' _ => Opened cfg s' ∧ s'.runtime = s₁.runtime ∧ s'.fds fd = some (.program id none))
        (pinCapability cfg leaf fd s₁) := by
      refine (cgroupPin_always hrun.guarded hown).bind fun s₂ p h₂ => ?_
      rcases h₂ with ⟨hne, rfl⟩ | ⟨rfl, hnone, rfl⟩
      · exact Act.always_ite (fun hp => absurd hp hne) fun _ => ⟨ho₁, rfl, hown.fd⟩
      · exact tryCapability_always (ho₁.pin hown hnone) ⟨hown.fd, hown.program⟩ pins_setPin_self hun
          hleaf
    refine hpinned.bind fun s₂ r₂ h₂ => ?_
    obtain ⟨ho₂, hr₂, hfd₂⟩ := h₂
    exact ho₂.close hfd₂ (hr₂ ▸ hcg) (hr₂ ▸ hprog)

theorem attachPeer_always (h : Opened cfg s) : Prog.Always admissible (Guarded cfg.cgroup cfg.dir)
    (fun s' r => Running cfg s' ∧ (r = true → Opened cfg s')) (attachPeer cfg leaf s) := by
  refine (loadLeaf_always h).bind fun s₁ _ h₁ => ?_
  obtain ⟨ho₁, -⟩ := h₁
  refine Act.always_ite (fun _ => ⟨ho₁.running, by nofun⟩) fun hneg => ?_
  obtain ⟨id, hown⟩ := ho₁.loaded leaf (Int.not_lt.mp hneg)
  refine (cgroupPin_always ho₁.running.guarded hown).bind fun s₂ p h₂ => ?_
  rcases h₂ with ⟨hne, rfl⟩ | ⟨rfl, hnone, rfl⟩
  · exact Act.always_ite (fun _ => ⟨ho₁.running, by nofun⟩) fun hp => absurd hne hp
  · have hready : Ready cfg (s₁.setPin cfg.dir leaf (some id)) leaf :=
      ⟨id, ⟨hown.fd, hown.program⟩, pins_setPin_self⟩
    exact (attachLeaf_always (ho₁.pin hown hnone) hready).bind fun s₃ r h₃ =>
      ⟨h₃.1.running, fun _ => h₃.1⟩

/-- **`attach_getpeername_prog`**. -/
theorem attachGetpeername_always {peer : Leaf} (h : Opened cfg s)
    (hleaf : exclusiveHook leaf.type = false) : Prog.Always admissible (Guarded cfg.cgroup cfg.dir)
    (fun s' r => Running cfg s' ∧ (r = true → Opened cfg s')) (attachGetpeername cfg leaf peer s) := by
  refine (capability_always h hleaf).bind fun s₁ r h₁ => ?_
  rcases r with _ | _ | e
  · exact ⟨h₁.running, by nofun⟩
  · exact attachPeer_always h₁
  · exact ⟨h₁.running, fun _ => h₁⟩

/-! ## A start -/

/-- The state of a process that has done nothing yet. -/
structure Idle (cfg : Config) (s : State) : Prop where
  guarded : Guarded cfg.cgroup cfg.dir s
  slots : ∀ i, (s.slots i).active = false
  kept : Kept s
  progFds : ∀ leaf, s.runtime.progFd leaf < 0

theorem Idle.running (h : Idle cfg s)
    (hcg : s.runtime.cgroupFd < 0 ∨ s.fds s.runtime.cgroupFd = some (.cgroup cfg.cgroup)) :
    Running cfg s := by
  refine ⟨h.guarded, h.kept, fun i id n hh => ?_, hcg⟩
  exact nomatch (h.slots i).symm.trans hh.1

theorem openRuntimeCgroup_always (h : Idle cfg s) (hcg : s.runtime.cgroupFd < 0) :
    Prog.Always admissible (Guarded cfg.cgroup cfg.dir)
      (fun s' r => Running cfg s' ∧
        (r = true → Idle cfg s' ∧ s'.fds s'.runtime.cgroupFd = some (.cgroup cfg.cgroup)))
      (openRuntimeCgroup cfg s) := by
  refine (openCgroup_always h.guarded).bind fun s₁ r h₁ => ?_
  rcases h₁ with ⟨e, rfl, rfl⟩ | ⟨fd, rfl, -, free, rfl⟩
  · exact ⟨h.running (.inl hcg), by nofun⟩
  · have hb : Beside s (s.setFd fd (some (.cgroup cfg.cgroup))) := beside_open free (by nofun)
    have hopen : (s.setFd fd (some (.cgroup cfg.cgroup))).fds fd = some (.cgroup cfg.cgroup) :=
      update_self ..
    have hidle : Idle cfg { s.setFd fd (some (.cgroup cfg.cgroup)) with
        runtime := { s.runtime with cgroupFd := fd } } :=
      ⟨h.guarded.gains (.refl _) rfl fun _ _ _ h => .inl h, h.slots,
        (hb.kept h.kept).external rfl rfl rfl fun _ _ _ => Iff.rfl, h.progFds⟩
    exact ⟨hidle.running (.inr hopen), fun _ => ⟨hidle, hopen⟩⟩

theorem reconcile_idle (h : Idle cfg s)
    (hcg : s.fds s.runtime.cgroupFd = some (.cgroup cfg.cgroup)) : Prog.Always admissible (Guarded cfg.cgroup cfg.dir)
    (fun s' _ => Opened cfg s') (reconcile cfg.cgroup cfg.dir s) := by
  refine (reconcile_always h.guarded).mono fun s₁ r h₁ => ?_
  have hopen : s₁.fds s₁.runtime.cgroupFd = some (.cgroup cfg.cgroup) := by
    rw [h₁.beside.runtime]
    exact h₁.beside.fds _ _ hcg
  have hidle : Idle cfg s₁ := by
    refine ⟨h₁.guarded, ?_, h₁.beside.kept h.kept, ?_⟩
    · rw [h₁.beside.slots]
      exact h.slots
    · rw [h₁.beside.runtime]
      exact h.progFds
  exact ⟨hidle.running (.inr hopen), hopen, fun leaf hl =>
    absurd (hidle.progFds leaf) (Int.not_lt.mpr hl)⟩

theorem wanted_subset (cfg : Config) : ∀ leaf ∈ wanted cfg, leaf ∈ pinOrder := by
  intro leaf hl
  unfold wanted sixLeaves at hl
  split at hl <;> simp only [List.cons_append, List.nil_append, List.mem_cons, List.not_mem_nil,
    or_false] at hl <;> rcases hl with rfl | rfl | rfl | rfl | rfl | rfl <;> decide

/-- **The stages of `bpf2socks_bpf_runtime_start`**. -/
theorem startStages_always (h : Idle cfg s) (hcg : s.runtime.cgroupFd < 0) :
    Prog.Always admissible (Guarded cfg.cgroup cfg.dir) (fun s' _ => Running cfg s') (startStages cfg s) := by
  have hrun := h.running (.inl hcg)
  refine then_always ((elsewhere_always h.guarded).mono fun s₁ r₁ h₁ => ?_)
  subst h₁
  refine ⟨fun _ => ?_, fun _ => hrun⟩
  refine then_always ((openRuntimeCgroup_always h hcg).mono fun s₂ r₂ h₂ =>
    ⟨fun hr₂ => ?_, fun _ => h₂.1⟩)
  obtain ⟨hidle, hopen⟩ := h₂.2 hr₂
  refine then_always ((reconcile_idle hidle hopen).mono fun s₃ r₃ h₃ =>
    ⟨fun _ => ?_, fun _ => h₃.running⟩)
  refine then_always ((loadPrograms_always h₃).mono fun s₄ r₄ h₄ =>
    ⟨fun hr₄ => ?_, fun _ => h₄.1.running⟩)
  obtain ⟨ho₄, hset⟩ := h₄
  refine then_always ((elsewhere_always ho₄.running.guarded).mono fun s₅ r₅ h₅ => ?_)
  subst h₅
  refine ⟨fun _ => ?_, fun _ => ho₄.running⟩
  refine then_always ((pinAll_always pinOrder ho₄).mono fun s₆ r₆ h₆ =>
    ⟨fun hr₆ => ?_, fun _ => h₆.1.running⟩)
  obtain ⟨ho₆, -, -, hpinned⟩ := h₆
  have hready : ∀ leaf ∈ wanted cfg, Ready cfg s₆ leaf := fun leaf hl =>
    hpinned hr₆ leaf (wanted_subset cfg leaf hl) (hset hr₄ leaf hl)
  refine then_always ((attachAll_always _ ho₆ fun leaf hl =>
    hready leaf (List.mem_append_left _ hl)).mono fun s₇ r₇ h₇ => ⟨fun hr₇ => ?_, fun _ => h₇.1⟩)
  obtain ⟨ho₇, hkeep⟩ := h₇.2 hr₇
  refine then_always ((attachAll_always _ ho₇ fun leaf hl =>
    hkeep leaf (hready leaf (List.mem_append_right _ hl))).mono fun s₈ r₈ h₈ =>
      ⟨fun hr₈ => ?_, fun _ => h₈.1⟩)
  obtain ⟨ho₈, -⟩ := h₈.2 hr₈
  refine then_always ((attachGetpeername_always ho₈ rfl).mono fun s₉ r₉ h₉ =>
    ⟨fun hr₉ => ?_, fun _ => h₉.1⟩)
  exact (attachGetpeername_always (h₉.2 hr₉) rfl).mono fun _ _ h => h.1

/-- The bridge runs: others load programs and change hooks. -/
theorem serve_always (h : Running cfg s) : Prog.Always admissible (Guarded cfg.cgroup cfg.dir)
    (fun s' _ => Running cfg s') (serve s) := by
  refine ⟨h.guarded, fun r hr => ?_⟩
  obtain ⟨hooks, programs⟩ := r
  have he : s.Elsewhere hooks programs := hr
  exact h.gains ⟨fun _ _ h => h, fun _ _ _ h => h, rfl, rfl, rfl, rfl⟩ he.extend rfl he.hooks

/-- **A start keeps authority**, wherever it is stopped. -/
theorem startRun_always (h : Idle cfg s) (hcg : s.runtime.cgroupFd < 0) :
    Prog.Always admissible (Guarded cfg.cgroup cfg.dir)
      (fun s' _ => Guarded cfg.cgroup cfg.dir s') (startRun cfg s) := by
  have hstart : Prog.Always admissible (Guarded cfg.cgroup cfg.dir)
      (fun s' r => Guarded cfg.cgroup cfg.dir s' ∧ (r = true → Running cfg s'))
      (runtimeStart cfg s) := by
    refine (startStages_always h hcg).bind fun s₁ r h₁ => ?_
    refine Act.always_ite (fun _ => ⟨h₁.guarded, fun _ => h₁⟩) fun _ => ?_
    exact (runtimeStop_always h₁).bind fun s₂ _ h₂ => ⟨h₂, by nofun⟩
  have hserve : ∀ {s r}, Guarded cfg.cgroup cfg.dir s ∧ (r = true → Running cfg s) →
      Prog.Always admissible (Guarded cfg.cgroup cfg.dir)
        (fun s' _ => Guarded cfg.cgroup cfg.dir s') (serveAndStop r s) := by
    intro s r hs
    refine Act.always_ite (fun hr => ?_) fun _ => hs.1
    exact (serve_always (hs.2 hr)).bind fun _ _ h₁ => runtimeStop_always h₁
  refine hstart.bind fun s₁ r h₁ => (hserve h₁).bind fun s₂ _ h₂ => ?_
  exact (reconcile_always h₂).bind fun s₃ _ h₃ => h₃.guarded

/-! ## Sequences of starts -/

/-- The programs behind the pins of a start are attached to no other cgroup than its own. -/
def AtHome (cfg : Config) (s : State) : Prop :=
  ∀ leaf id, s.pins cfg.dir leaf = some id → ∀ c t, id ∈ (s.hooks c t).progs → c = cfg.cgroup

theorem AtHome.guarded (h : AtHome cfg s) (ha : Authority s) : Guarded cfg.cgroup cfg.dir s := by
  refine ⟨ha, fun c t id hid p hp ho => ?_⟩
  obtain ⟨p', hp', hatt⟩ := ha.attached c t id hid
  cases hp.symm.trans hp'
  obtain ⟨leaf, -, -, hl⟩ := hatt cfg.dir ho
  exact h leaf id hl c t hid

theorem Guarded.atHome (h : Guarded cfg.cgroup cfg.dir s) : AtHome cfg s := fun _ _ hl _ _ hid =>
  (h.pinned_at hl hid).1

/-- Whatever starts have left: `ok` is what holds when one begins, `last` the last of them.  A start
runs to its end or is killed before one of its system calls; others change hooks in between. -/
inductive Starts (ok : Config → State → Prop) : Option Config → State → Prop
  | none (s : State) (hooks : ∀ c t, ∀ id ∈ (s.hooks c t).progs, Foreign s id)
      (pins : ∀ dir leaf, s.pins dir leaf = .none) : Starts ok .none s
  | run {last : Option Config} {s s' : State} {cfg : Config} (h : Starts ok last s) (hok : ok cfg s)
      (hrun : Prog.Out admissible (startRun cfg s.begin) s' ()) : Starts ok (some cfg) s'
  | killed {last : Option Config} {s s' : State} {cfg : Config} (h : Starts ok last s)
      (hok : ok cfg s) (hrun : Prog.Visits admissible (startRun cfg s.begin) s') :
      Starts ok (some cfg) s'
  | others {last : Option Config} {s : State} {hooks : Cgroup → AttachType → Hook}
      {programs : ProgId → Option Program} (h : Starts ok last s)
      (helse : s.Elsewhere hooks programs) :
      Starts ok last { s with hooks := hooks, programs := programs }

theorem Guarded.begin (h : Guarded c dir s) : Guarded c dir s.begin :=
  h.gains (.refl s) rfl fun _ _ _ h => .inl h

theorem Guarded.idle (h : Guarded cfg.cgroup cfg.dir s) : Idle cfg s.begin := by
  have hfresh : Fresh s.begin := ⟨fun _ => rfl, fun _ _ _ hk => (by cases hk), rfl, rfl⟩
  exact ⟨h.begin, fun _ => rfl, kept_fresh hfresh, fun _ => Int.negSucc_lt_zero 0⟩

theorem Authority.startRun (ha : Authority s) (hh : AtHome cfg s) :
    Prog.Always admissible (Guarded cfg.cgroup cfg.dir)
      (fun s' _ => Guarded cfg.cgroup cfg.dir s') (startRun cfg s.begin) :=
  startRun_always (hh.guarded ha).idle (Int.negSucc_lt_zero 0)

/-- Authority, and the home of the last start's programs. -/
theorem Starts.authority {last : Option Config} (h : Starts AtHome last s) :
    Authority s ∧ ∀ cfg ∈ last, AtHome cfg s := by
  induction h with
  | none s hooks pins =>
      refine ⟨⟨fun c t id hid => (hooks c t id hid).attachable, fun dir leaf id hl => ?_⟩, by nofun⟩
      exact nomatch (pins dir leaf).symm.trans hl
  | run _ hok hrun ih =>
      have hg := (ih.1.startRun hok).sat.out hrun
      refine ⟨hg.authority, ?_⟩
      rintro _ ⟨⟩
      exact hg.atHome
  | killed _ hok hrun ih =>
      have hg := (ih.1.startRun hok).visits hrun
      refine ⟨hg.authority, ?_⟩
      rintro _ ⟨⟩
      exact hg.atHome
  | @others last s hooks programs _ helse ih =>
      refine ⟨ih.1.gains helse.extend rfl helse.hooks, fun cfg hc => ?_⟩
      have hg : Guarded cfg.cgroup cfg.dir { s with hooks := hooks, programs := programs } :=
        ((ih.2 cfg hc).guarded ih.1).gains helse.extend rfl helse.hooks
      exact hg.atHome

/-- **Whatever starts have left can be cleaned up.**  Every program a start has attached is behind its
pin; with the paths of the last start the programs are at home, and where they are, a reconciliation
takes them off and removes their pins, or keeps authority, and touches no other program. -/
theorem cleanable_starts {last : Option Config} (h : Starts AtHome last s) :
    Authority s ∧ (∀ cfg ∈ last, AtHome cfg s) ∧
    ∀ cfg, AtHome cfg s →
      (∀ s' r, Prog.Out admissible (reconcile cfg.cgroup cfg.dir s.begin) s' r →
        Reconciled cfg.cgroup cfg.dir s.begin s' r) ∧
      ∀ s', Prog.Visits admissible (reconcile cfg.cgroup cfg.dir s.begin) s' → Authority s' := by
  obtain ⟨ha, hlast⟩ := h.authority
  refine ⟨ha, hlast, fun cfg hh => ?_⟩
  have hall := reconcile_always (hh.guarded ha).begin
  exact ⟨fun s' r ho => hall.sat.out ho, fun s' hv => (hall.visits hv).authority⟩

/-! ### Two starts -/

/-- Nothing is attached or pinned. -/
def blank : State where
  hooks _ _ := ⟨0, []⟩
  programs _ := none
  pins _ _ := none
  fds _ := none
  slots _ := ⟨false, 0, 0, 0, .inet4Connect⟩
  runtime := ⟨-1, fun _ => -1⟩
  opened := []
  closed := []

def startIn (c : Cgroup) : Config := ⟨c, 0, false, fun _ => [⟨0xb7, 0, 0, 0, 0⟩, ⟨0x95, 0, 0, 0, 0⟩]⟩

/-- Everything works; descriptors and programs are numbered by the answer, and the pins are there as
`pinned` says. -/
def works (base : Nat) (pinned : Bool) : Nat → (q : Call) → Answer q
  | _, .acts => none
  | n, .opens => .ok (base + n)
  | n, .loads => .ok (base + n, base + n)
  | n, .gets _ leaf =>
      if pinned ∧ leaf ∈ wanted (startIn 0) then .ok (base + n) else .error .enoent
  | _, .unlinks _ leaf => if pinned ∧ leaf ∈ wanted (startIn 0) then none else some .enoent
  | _, .serves => (blank.hooks, blank.programs)

/-- A start is killed after so many answers. -/
def killedAfter (s : State) (base : Nat) (pinned : Bool) (cfg : Config) (m : Nat) : State :=
  (Prog.stopAfter admissibleb (works base pinned) 0 m (startRun cfg s.begin)).getD blank

theorem killedAfter_visits {s s' : State} {cfg : Config} (base : Nat) (pinned : Bool) (m : Nat)
    (h : Prog.stopAfter admissibleb (works base pinned) 0 m (startRun cfg s.begin) = some s') :
    Prog.Visits admissible (startRun cfg s.begin) s' :=
  Prog.stopAfter_visits (fun _ _ _ h => admissible_of_b h) h

theorem starts_blank (ok : Config → State → Prop) : Starts ok none blank :=
  .none blank (fun _ _ _ hid => nomatch hid) fun _ _ => rfl

/-- A start is killed when it has attached its first program. -/
def abandoned : State := killedAfter blank 10 false (startIn 0) 48

theorem starts_abandoned {ok : Config → State → Prop} (hok : ok (startIn 0) blank) :
    Starts ok (some (startIn 0)) abandoned :=
  (starts_blank ok).killed hok (killedAfter_visits 10 false 48 rfl)

/-- The state after a reconciliation. -/
def cleaned : State :=
  ((Prog.exec admissibleb (works 200 true) 0 (reconcile 0 0 abandoned.begin)).map Prod.fst).getD blank

/-- The program it left is behind its pin, and a reconciliation takes it off. -/
theorem abandoned_cleanable :
    38 ∈ (abandoned.hooks 0 .inet4Connect).progs ∧ abandoned.pins 0 .connect4 = some 38 ∧
      ∃ s', Prog.Out admissible (reconcile 0 0 abandoned.begin) s' true ∧
        38 ∉ (s'.hooks 0 .inet4Connect).progs ∧ s'.pins 0 .connect4 = none := by
  have hstarts : Starts AtHome (some (startIn 0)) abandoned :=
    starts_abandoned fun _ _ hl => nomatch hl
  have hpin : abandoned.pins 0 .connect4 = some 38 := by decide
  obtain ⟨-, hlast, hclean⟩ := cleanable_starts hstarts
  have hexec : Prog.exec admissibleb (works 200 true) 0 (reconcile 0 0 abandoned.begin) =
      some (cleaned, true) := rfl
  have hout : Prog.Out admissible (reconcile 0 0 abandoned.begin) cleaned true :=
    Prog.exec_out (fun _ _ _ h => admissible_of_b h) hexec
  have hrec : Reconciled 0 0 abandoned.begin cleaned true :=
    (hclean (startIn 0) (hlast _ rfl)).1 _ _ hout
  have hbegin : abandoned.begin.pins 0 .connect4 = some 38 := by decide
  exact ⟨by decide, hpin, cleaned, hout, hrec.off rfl .connect4 38 hbegin 0 .inet4Connect,
    hrec.unpinned rfl .connect4⟩

/-- The next start has another cgroup and the same directory. -/
def orphaned : State := killedAfter abandoned 200 true (startIn 1) 41

/-- **Authority is lost**: the reconciliation of a start for another cgroup removes the pins of
programs that stay attached. -/
theorem authority_lost : ¬ ∀ last s, Starts (fun _ _ => True) last s → Authority s := by
  intro h
  have hstarts : Starts (fun _ _ => True) (some (startIn 1)) orphaned :=
    (starts_abandoned trivial).killed trivial (killedAfter_visits 200 true 41 rfl)
  obtain ⟨p, hp, hatt⟩ := (h _ _ hstarts).attached 0 .inet4Connect 38 (by decide)
  have howner : (orphaned.programs 38).bind Program.owner = some 0 := by decide
  rw [hp] at howner
  obtain ⟨leaf, -, -, hl⟩ := hatt 0 howner
  have hnone : ∀ leaf ∈ catalog, orphaned.pins 0 leaf = none := by decide
  rw [hnone leaf (mem_catalog leaf)] at hl
  cases hl

end Bpf2Socks.Hooks

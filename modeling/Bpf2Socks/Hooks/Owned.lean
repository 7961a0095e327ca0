/-
# Bpf2Socks.Hooks.Owned — the catalog of pins, its reconciliation, and `--start`.

Every program a start attaches is first pinned under a fixed name.  `asterisk_cgroup_reconcile` opens
these pins, takes their programs off their hooks and removes them; a start runs it before it loads
anything and after it has stopped.

The part of `bpf2socks_bpf_runtime_start` before the cgroup is opened, and the watchers it starts
before it pins, have nothing to do with cgroup hooks: they succeed or fail.
-/
import Bpf2Socks.Hooks.Exclusive

namespace Bpf2Socks.Hooks

open Function (update)
open Lib

/-! ## Pins -/

/-- The hook of a catalog entry. -/
def Leaf.type : Leaf → AttachType
  | .connect4 => .inet4Connect
  | .sendmsg4 => .udp4Sendmsg
  | .recvmsg4 => .udp4Recvmsg
  | .connect6 | .connect6Mapped => .inet6Connect
  | .sendmsg6 | .sendmsg6Mapped => .udp6Sendmsg
  | .recvmsg6 | .recvmsg6Mapped => .udp6Recvmsg
  | .peerCap4 | .peer4 => .inet4Getpeername
  | .peerCap6 | .peer6 => .inet6Getpeername

/-- `asterisk_cgroup_programs`. -/
def catalog : List Leaf :=
  [.connect4, .sendmsg4, .recvmsg4, .connect6, .sendmsg6, .recvmsg6, .connect6Mapped,
    .sendmsg6Mapped, .recvmsg6Mapped, .peerCap4, .peerCap6, .peer4, .peer6]

def State.setPin (s : State) (dir : Dir) (leaf : Leaf) (id : Option ProgId) : State :=
  { s with pins := update s.pins dir (update (s.pins dir) leaf id) }

/-- `BPF_OBJ_PIN`, which does not overwrite. -/
def State.pin (s : State) (fd : Fd) (dir : Dir) (leaf : Leaf) : Except Errno State :=
  match s.fds fd with
  | some (.program id _) =>
      if (s.pins dir leaf).isSome then .error .eexist else .ok (s.setPin dir leaf (some id))
  | _ => .error .ebadf

/-- `asterisk_cgroup_pin`: the name of the program decides on the pin. -/
def cgroupPin (fd : Fd) (dir : Dir) : Code (Option Errno) := do
  match ← reads fun s => s.info fd with
  | .error e => pure (some e)
  | .ok (_, p) =>
      match p.name with
      | some leaf =>
          if p.sockAddr then acts fun s => s.pin fd dir leaf else pure (some .einval)
      | none => pure (some .einval)

/-- `BPF_OBJ_GET`. -/
def objGet (dir : Dir) (leaf : Leaf) : Code (Except Errno Fd) := fun s =>
  .ask s (.gets dir leaf) fun
    | .error e => .ret s (.error e)
    | .ok fd =>
        match s.pins dir leaf with
        | some id => .ret (s.setFd fd (some (.program id none))) (.ok fd)
        | none => .ret s (.error .enoent)

/-- `unlink` of a pin. -/
def unlinkPin (dir : Dir) (leaf : Leaf) : Code (Option Errno) := fun s =>
  .ask s (.unlinks dir leaf) fun
    | some e => .ret s (some e)
    | none =>
        match s.pins dir leaf with
        | some _ => .ret (s.setPin dir leaf none) none
        | none => .ret s (some .enoent)

/-- `open` of the cgroup a path names. -/
def openCgroup (c : Cgroup) : Code (Except Errno Fd) := fun s =>
  .ask s .opens fun
    | .error e => .ret s (.error e)
    | .ok fd => .ret (s.setFd fd (some (.cgroup c))) (.ok fd)

/-- `BPF_PROG_LOAD`. -/
def loadProgram (p : Program) : Code (Except Errno Fd) := fun s =>
  .ask s .loads fun
    | .error e => .ret s (.error e)
    | .ok (fd, id) =>
        .ret { s.setFd fd (some (.program id none)) with
          programs := update s.programs id (some p) } (.ok fd)

def closeFd (fd : Fd) : Code Unit := Act.modify fun s => s.setFd fd none

/-! ## Reconciliation -/

/-- `asterisk_cgroup_has_id`. -/
def hasId (cg : Fd) (t : AttachType) (id : ProgId) : Code (Except Errno Bool) :=
  reads fun s => do
    let h ← s.query cg t 64
    if h.progs.length > 64 then .error .e2big
    else if id ∉ h.progs then .ok false
    else if h.flags ≠ allowMulti then .error .eperm
    else .ok true

/-- `asterisk_cgroup_sole_exclusive_id`. -/
def soleExclusiveId (cg : Fd) (t : AttachType) (id : ProgId) : Code (Except Errno Bool) :=
  reads fun s => do
    let h ← s.query cg t 64
    if h.progs.length > 64 then .error .e2big else .ok (h.flags = 0 ∧ h.progs = [id])

/-- The program of `asterisk_cgroup_restore_allow_only`, "b2s_allow". -/
def allowProgram : Program := ⟨none, true, allowOnly, true, none⟩

/-- Attach the placeholder over the owned program; was that the end of it? -/
def attachAllow (cg placeholder : Fd) (t : AttachType) (id : ProgId) : Code Bool := do
  match ← soleExclusiveId cg t id with
  | .ok true =>
      match ← attachWithFlags cg placeholder t 0 with
      | some _ => pure false
      | none =>
          match ← hasId cg t id with
          | .ok false => pure true
          | _ => pure false
  | _ => pure false

/-- `asterisk_cgroup_restore_allow_only`. -/
def restoreAllowOnly (cg : Fd) (t : AttachType) (id : ProgId) : Code Bool := do
  match ← loadProgram allowProgram with
  | .error _ => pure false
  | .ok placeholder =>
      let r ← attachAllow cg placeholder t id
      closeFd placeholder
      pure r

/-- The program is off its hook: the middle of the loop of `asterisk_cgroup_detach_pins`. -/
def detachOwned (cg fd : Fd) (t : AttachType) (id : ProgId) : Code Bool := do
  match ← hasId cg t id with
  | .error .eperm =>
      match ← soleExclusiveId cg t id with
      | .ok true => restoreAllowOnly cg t id
      | _ => pure false
  | .error _ => pure false
  | .ok false => pure true
  | .ok true =>
      match ← acts fun s => s.detach cg fd t with
      | some _ => pure false
      | none =>
          match ← hasId cg t id with
          | .ok false => pure true
          | _ => pure false

/-- The program behind a pin, if it is what the catalog says. -/
def pinnedProgram (fd : Fd) (leaf : Leaf) : Code (Option ProgId) := do
  match ← reads fun s => s.info fd with
  | .error _ => pure none
  | .ok (id, p) =>
      if id = 0 ∨ p.sockAddr = false ∨ p.name ≠ some leaf then pure none else pure (some id)

/-- The cgroup's descriptor, opened with the first pin that needs it. -/
def cgroupFdFor (c : Cgroup) (cg : Fd) : Code (Except Errno Fd) :=
  if cg < 0 then openCgroup c else pure (.ok cg)

/-- What is done with an open pin: the cgroup's descriptor, and whether the program is off. -/
def detachPin (c : Cgroup) (leaf : Leaf) (cg fd : Fd) : Code (Fd × Bool) := do
  match ← pinnedProgram fd leaf with
  | none => pure (cg, false)
  | some id =>
      match ← cgroupFdFor c cg with
      | .error _ => pure (cg, false)
      | .ok cg =>
          let r ← detachOwned cg fd leaf.type id
          pure (cg, r)

/-- The loop of `asterisk_cgroup_detach_pins`. -/
def detachPinsFrom (c : Cgroup) (dir : Dir) : Fd → List Leaf → Code (Fd × Bool)
  | cg, [] => pure (cg, true)
  | cg, leaf :: rest => do
      match ← objGet dir leaf with
      | .error e => if e = .enoent then detachPinsFrom c dir cg rest else pure (cg, false)
      | .ok fd =>
          let (cg, r) ← detachPin c leaf cg fd
          closeFd fd
          if r then detachPinsFrom c dir cg rest else pure (cg, false)

/-- `asterisk_cgroup_detach_pins`. -/
def detachPins (c : Cgroup) (dir : Dir) : Code Bool := do
  let (cg, r) ← detachPinsFrom c dir (-1) catalog
  if 0 ≤ cg then closeFd cg
  pure r

/-- The second half of `asterisk_cgroup_reconcile`. -/
def unlinkPins (dir : Dir) : List Leaf → Code Bool
  | [] => pure true
  | leaf :: rest => do
      let r ← unlinkPin dir leaf
      if r = none ∨ r = some .enoent then unlinkPins dir rest else pure false

/-- `asterisk_cgroup_reconcile`. -/
def reconcile (c : Cgroup) (dir : Dir) : Code Bool := do
  if ← detachPins c dir then unlinkPins dir catalog else pure false

/-! ## Starting -/

/-- What a start is run with: the cgroup `cgroupPath` names, `pinnedObjectDir`, whether
`enable_ipv6 || enable_dns_hijack`, and the instructions of its programs. -/
structure Config where
  cgroup : Cgroup
  dir : Dir
  six : Bool
  insns : Leaf → List Insn

/-- The program of a catalog entry. -/
def Config.program (cfg : Config) (leaf : Leaf) (insns : List Insn) : Program :=
  ⟨some leaf, true, insns, true, some cfg.dir⟩

/-- One stage after another, up to the first that fails. -/
def Stage.then (m k : Code Bool) : Code Bool := do
  if ← m then k else pure false

/-- Something that has nothing to do with cgroup hooks. -/
def elsewhere : Code Bool := do
  let r ← acts fun s => .ok s
  pure (r = none)

def State.setProgFd (s : State) (leaf : Leaf) (fd : Fd) : State :=
  { s with runtime := { s.runtime with progFd := update s.runtime.progFd leaf fd } }

/-- Load a program into its field; a failure leaves -1. -/
def loadLeaf (cfg : Config) (leaf : Leaf) : Code Unit := do
  match ← loadProgram (cfg.program leaf (cfg.insns leaf)) with
  | .ok fd => Act.modify fun s => s.setProgFd leaf fd
  | .error _ => Act.modify fun s => s.setProgFd leaf (-1)

/-- Load programs, and look whether all are there. -/
def loadAll (cfg : Config) (leaves : List Leaf) : Code Bool := do
  Act.forEach (loadLeaf cfg) leaves
  let s ← Act.get
  pure (leaves.all fun leaf => 0 ≤ s.runtime.progFd leaf)

def loadPrograms (cfg : Config) : Code Bool :=
  Stage.then (loadAll cfg [.connect4, .sendmsg4, .recvmsg4])
    (if cfg.six then loadAll cfg [.connect6, .sendmsg6, .recvmsg6]
    else Stage.then (loadAll cfg [.connect6Mapped]) (loadAll cfg [.sendmsg6Mapped, .recvmsg6Mapped]))

/-- Pin the programs that are loaded. -/
def pinAll (cfg : Config) : List Leaf → Code Bool
  | [] => pure true
  | leaf :: rest => do
      let s ← Act.get
      if 0 ≤ s.runtime.progFd leaf then
        let r ← cgroupPin (s.runtime.progFd leaf) cfg.dir
        if r = none then pinAll cfg rest else pure false
      else pinAll cfg rest

/-- The order of "pin cgroup program identity". -/
def pinOrder : List Leaf :=
  [.connect4, .connect6, .connect6Mapped, .sendmsg4, .sendmsg6, .sendmsg6Mapped, .recvmsg4,
    .recvmsg6, .recvmsg6Mapped]

def attachLeaf (leaf : Leaf) : Code (Option Errno) := do
  let s ← Act.get
  progAttach s.runtime.cgroupFd (s.runtime.progFd leaf) leaf.type

def detachLeaf (leaf : Leaf) : Code Unit := do
  let s ← Act.get
  let _ ← progDetach s.runtime.cgroupFd (s.runtime.progFd leaf) leaf.type

/-- Attach programs in order; a failure detaches those that are attached, last first. -/
def attachAll (attached : List Leaf) : List Leaf → Code Bool
  | [] => pure true
  | leaf :: rest => do
      let r ← attachLeaf leaf
      if r = none then attachAll (leaf :: attached) rest
      else
        Act.forEach detachLeaf attached
        pure false

/-- `capability_fd` is detached if it could be attached. -/
def detachTried (cg fd : Fd) (t : AttachType) (r : Option Errno) : Code (Option Errno) :=
  if r = none then progDetach cg fd t else pure none

/-- The pin of the capability program is removed; the error of the attachment is handed on, unless
this is a failure of the whole. -/
def removeCapability (cfg : Config) (cap : Leaf) (r : Option Errno) :
    Code (Except Unit (Option Errno)) := do
  let u ← unlinkPin cfg.dir cap
  if u = none ∨ u = some .enoent then pure (.ok r) else pure (.error ())

/-- `capability_fd` attached and detached, and its pin removed. -/
def tryCapability (cfg : Config) (cap : Leaf) (fd : Fd) : Code (Except Unit (Option Errno)) := do
  let s ← Act.get
  let r ← progAttach s.runtime.cgroupFd fd cap.type
  let d ← detachTried s.runtime.cgroupFd fd cap.type r
  if d ≠ none then pure (.error ()) else removeCapability cfg cap r

/-- The same from the pin on. -/
def pinCapability (cfg : Config) (cap : Leaf) (fd : Fd) : Code (Except Unit (Option Errno)) := do
  let p ← cgroupPin fd cfg.dir
  if p = none then tryCapability cfg cap fd else pure (.error ())

/-- The capability program's way from loading to closing. -/
def capability (cfg : Config) (cap : Leaf) : Code (Except Unit (Option Errno)) := do
  match ← loadProgram (cfg.program cap allowOnly) with
  | .error e => pure (.ok (some e))
  | .ok fd =>
      let r ← pinCapability cfg cap fd
      closeFd fd
      pure r

/-- The program itself. -/
def attachPeer (cfg : Config) (peer : Leaf) : Code Bool := do
  loadLeaf cfg peer
  let s ← Act.get
  if s.runtime.progFd peer < 0 then pure false
  else
    let p ← cgroupPin (s.runtime.progFd peer) cfg.dir
    if p ≠ none then pure false
    else
      let r ← attachLeaf peer
      pure (r = none)

/-- `attach_getpeername_prog` of a start. -/
def attachGetpeername (cfg : Config) (cap peer : Leaf) : Code Bool := do
  match ← capability cfg cap with
  | .error _ => pure false
  | .ok none => attachPeer cfg peer
  | .ok (some e) => pure (e = .einval ∨ e = .eopnotsupp)

/-- Open the cgroup into its field. -/
def openRuntimeCgroup (cfg : Config) : Code Bool := do
  match ← openCgroup cfg.cgroup with
  | .error _ => pure false
  | .ok fd =>
      Act.modify fun s => { s with runtime := { s.runtime with cgroupFd := fd } }
      pure true

/-- The programs of the IPv6 hooks. -/
def sixLeaves (cfg : Config) : List Leaf :=
  if cfg.six then [.connect6, .sendmsg6, .recvmsg6]
  else [.connect6Mapped, .sendmsg6Mapped, .recvmsg6Mapped]

/-- The stages of `bpf2socks_bpf_runtime_start`. -/
def startStages (cfg : Config) : Code Bool :=
  Stage.then elsewhere <|
  Stage.then (openRuntimeCgroup cfg) <|
  Stage.then (reconcile cfg.cgroup cfg.dir) <|
  Stage.then (loadPrograms cfg) <|
  Stage.then elsewhere <|
  Stage.then (pinAll cfg pinOrder) <|
  Stage.then (attachAll [] [.connect4, .sendmsg4, .recvmsg4]) <|
  Stage.then (attachAll [] (sixLeaves cfg)) <|
  Stage.then (attachGetpeername cfg .peerCap4 .peer4) (attachGetpeername cfg .peerCap6 .peer6)

/-- The order of `bpf2socks_bpf_runtime_stop`. -/
def stopOrder : List Leaf :=
  [.peer4, .peer6, .recvmsg6, .sendmsg6, .recvmsg6Mapped, .sendmsg6Mapped, .connect6,
    .connect6Mapped, .recvmsg4, .sendmsg4, .connect4]

/-- Detach a program that is loaded. -/
def stopLeaf (leaf : Leaf) : Code Unit := do
  let s ← Act.get
  if 0 ≤ s.runtime.cgroupFd ∧ 0 ≤ s.runtime.progFd leaf then detachLeaf leaf else pure ()

/-- `bpf2socks_close_fd` of all descriptors. -/
def State.closeRuntime (s : State) : State :=
  let fds := stopOrder.foldl (fun fds leaf => update fds (s.runtime.progFd leaf) none) s.fds
  { s with
    fds := update fds s.runtime.cgroupFd none
    runtime := ⟨-1, fun _ => -1⟩ }

/-- `bpf2socks_bpf_runtime_stop`. -/
def runtimeStop : Code Unit := do
  Act.forEach stopLeaf stopOrder
  let s ← Act.get
  let _ ← cgroupRestore s.runtime.cgroupFd
  Act.modify State.closeRuntime

/-- `bpf2socks_bpf_runtime_start`. -/
def runtimeStart (cfg : Config) : Code Bool := do
  if ← startStages cfg then pure true
  else
    runtimeStop
    pure false

/-- The bridge runs. -/
def serve : Code Unit := fun s =>
  .ask s .serves fun
    | (hooks, programs) => .ret { s with hooks := hooks, programs := programs } ()

/-- From a runtime that has started to its stop. -/
def serveAndStop (started : Bool) : Code Unit :=
  if started then do
    serve
    runtimeStop
  else pure ()

/-- `start_with_config_unlocked`, as far as cgroup hooks are concerned. -/
def startRun (cfg : Config) : Code Unit := do
  let started ← runtimeStart cfg
  serveAndStop started
  let _ ← reconcile cfg.cgroup cfg.dir

/-- A new process. -/
def State.begin (s : State) : State :=
  { s with
    fds := fun _ => none
    slots := fun _ => ⟨false, 0, 0, 0, .inet4Connect⟩
    runtime := ⟨-1, fun _ => -1⟩
    opened := []
    closed := [] }

end Bpf2Socks.Hooks

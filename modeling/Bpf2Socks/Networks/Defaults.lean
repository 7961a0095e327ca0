/-
# Bpf2Socks.Networks.Defaults — which networks are default networks.

An application that binds a socket to a network gets a mark with the network's id.  The hooks let
such a socket past the proxy unless the network is a default network, which they look up in a map.
A refresh fills this map: it dumps the policy routing rules, writes the ids whose explicit rule shares
a table with a default rule, removes the other ids and last writes the ready key, without which the
hooks let no socket past.

A rule is given by the attributes the kernel announces it with.  The map is the list of its keys in
the order the kernel walks them; every value is one and nothing reads it.  The kernel places a new
key anywhere in that order, or refuses it.
-/
import Bpf2Socks.Interfaces.Policy
import Mathlib.Data.Finset.Card
import Mathlib.Data.List.Nodup

namespace Bpf2Socks.Networks

open Cgroup (Byte)
open Interfaces (wordOf)

/-! ## Rules -/

abbrev Word := BitVec 32

/-- `BPF2SOCKS_MAX_RULE_TABLES`. -/
def maxRuleTables : Nat := 256
/-- `BPF2SOCKS_FWMARK_NETID_MASK`. -/
def fwmarkNetidMask : Word := 0xffff
/-- `BPF2SOCKS_FWMARK_EXPLICIT`. -/
def fwmarkExplicit : Word := 0x10000
/-- `BPF2SOCKS_FWMARK_EXPLICIT_MASK`. -/
def fwmarkExplicitMask : Word := 0x1ffff
/-- `BPF2SOCKS_DEFAULT_NETWORK_READY_KEY`. -/
def readyKey : Word := 0
/-- `BPF2SOCKS_MAX_DEFAULT_NETWORK_MAP_ENTRIES`. -/
def maxEntries : Nat := 64

inductive AttrType where
  | table
  | fwmark
  | fwmask
  | other
  deriving DecidableEq

/-- `struct rtattr` with its payload. -/
structure Attr where
  type : AttrType
  data : List Byte
  deriving DecidableEq

/-- An `RTM_NEWRULE` message with a whole `struct fib_rule_hdr`. -/
structure RuleMessage where
  /-- `action == FR_ACT_TO_TBL`. -/
  toTable : Bool
  table : Byte
  attrs : List Attr
  deriving DecidableEq

/-- What `note_rule` reads off a message. -/
structure Selector where
  table : Word
  mark : Word
  mask : Word
  hasMask : Bool

/-- One attribute: the last of its type counts. -/
def readAttr (r : Selector) (a : Attr) : Selector :=
  if a.data.length < 4 then r
  else
    match a.type with
    | .table => { r with table := wordOf a.data }
    | .fwmark => { r with mark := wordOf a.data }
    | .fwmask => { r with mask := wordOf a.data, hasMask := true }
    | .other => r

/-- The table, the mark and the mask of a rule. -/
def RuleMessage.selector (m : RuleMessage) : Selector :=
  m.attrs.foldl readAttr ⟨m.table.setWidth 32, 0, 0, false⟩

/-- `struct network_rules`: the tables of the default rules, and the netIds and tables of the explicit
ones. -/
structure NetworkRules where
  defaultTables : List Word
  explicits : List (Word × Word)
  deriving DecidableEq

/-- `note_rule`. -/
def noteRule (m : RuleMessage) (rules : NetworkRules) : NetworkRules :=
  if !m.toTable then rules
  else
    let r := m.selector
    if !r.hasMask then rules
    else if r.mark = 0 ∧ r.mask = fwmarkNetidMask then
      if rules.defaultTables.length < maxRuleTables then
        { rules with defaultTables := rules.defaultTables ++ [r.table] }
      else rules
    else if r.mask = fwmarkExplicitMask ∧ r.mark &&& fwmarkExplicit ≠ 0 ∧
        r.mark &&& fwmarkNetidMask ≠ 0 then
      if rules.explicits.length < maxRuleTables then
        { rules with explicits := rules.explicits ++ [(r.mark &&& fwmarkNetidMask, r.table)] }
      else rules
    else rules

/-! ## Dumps -/

/-- A netlink message. -/
inductive Message where
  | rule (m : RuleMessage)
  | done
  | error
  | other
  deriving DecidableEq

/-- What `recv` brings. -/
inductive Receive where
  | batch (messages : List Message)
  | interrupted
  | failed
  deriving DecidableEq

/-- How the kernel answers a request for its rules; the socket fails when the answers end. -/
structure Dump where
  opened : Bool
  sent : Bool
  receives : List Receive
  deriving DecidableEq

/-- The messages of one `recv`, with the result of the dump if it ends there. -/
def readBatch : List Message → NetworkRules → NetworkRules × Option Bool
  | [], rules => (rules, none)
  | .done :: _, rules => (rules, some true)
  | .error :: _, rules => (rules, some false)
  | .rule m :: rest, rules => readBatch rest (noteRule m rules)
  | .other :: rest, rules => readBatch rest rules

/-- The loop of `dump_rules`. -/
def receiveRules : List Receive → NetworkRules → NetworkRules × Bool
  | [], rules => (rules, false)
  | .interrupted :: rest, rules => receiveRules rest rules
  | .failed :: _, rules => (rules, false)
  | .batch messages :: rest, rules =>
      match readBatch messages rules with
      | (rules', some result) => (rules', result)
      | (rules', none) => receiveRules rest rules'

/-- `dump_rules`: the rules it noted, and whether the dump was complete. -/
def dumpRules (d : Dump) : NetworkRules × Bool :=
  if !d.opened then (⟨[], []⟩, false)
  else if !d.sent then (⟨[], []⟩, false)
  else receiveRules d.receives ⟨[], []⟩

/-- `rules_mark_default`. -/
def rulesMarkDefault (rules : NetworkRules) (table : Word) : Bool :=
  rules.defaultTables.any (· = table)

/-- `netid_is_default`. -/
def netidIsDefault (rules : NetworkRules) (netid : Word) : Bool :=
  rules.explicits.any fun e => e.1 = netid && rulesMarkDefault rules e.2

/-! ## The map -/

/-- The default network map. -/
structure NetworkMap where
  keys : List Word
  nodup : keys.Nodup
  bounded : keys.length ≤ maxEntries

/-- A new key in its place. -/
def NetworkMap.insertAt (m : NetworkMap) (place : Nat) (key : Word) (fresh : key ∉ m.keys)
    (room : m.keys.length < maxEntries) : NetworkMap where
  keys := m.keys.take place ++ key :: m.keys.drop place
  nodup := by
    rw [List.nodup_middle, List.take_append_drop]
    exact List.nodup_cons.mpr ⟨fresh, m.nodup⟩
  bounded := by
    have hlen := congrArg List.length (List.take_append_drop place m.keys)
    simp only [List.length_append, List.length_cons] at hlen ⊢
    omega

/-- `bpf2socks_bpf_map_delete`. -/
def NetworkMap.delete (m : NetworkMap) (key : Word) : NetworkMap where
  keys := m.keys.erase key
  nodup := m.nodup.erase key
  bounded := (List.length_erase_le).trans m.bounded

/-- The map, and how many insertions were asked for. -/
structure Table where
  map : NetworkMap
  updates : Nat

/-- What the kernel says to the insertions of a pass, in turn: where a new key goes, or that there is
no memory. -/
abbrev Answers := Nat → Option Nat

/-- `bpf2socks_bpf_map_update`. -/
def mapUpdate (answers : Answers) (key : Word) (t : Table) : Bool × Table :=
  let asked : Table := { t with updates := t.updates + 1 }
  match answers t.updates with
  | none => (false, asked)
  | some place =>
      if h : key ∈ t.map.keys then (true, asked)
      else if room : t.map.keys.length < maxEntries then
        (true, { asked with map := t.map.insertAt place key h room })
      else (false, asked)

/-- `bpf2socks_bpf_map_next_key`: the first key after a cursor that is gone, or without one. -/
def nextKey (keys : List Word) : Option Word → Option Word
  | none => keys.head?
  | some cursor =>
      if cursor ∈ keys then (keys.dropWhile (· ≠ cursor)).tail.head? else keys.head?

/-- A key that the rules do not ask for. -/
def isStale (rules : NetworkRules) (key : Word) : Bool :=
  key ≠ readyKey && !netidIsDefault rules key

/-- The walk that collects stale keys, `fuel` steps of it. -/
def collectStale (rules : NetworkRules) (keys : List Word) :
    Nat → Option Word → List Word → List Word
  | 0, _, stale => stale
  | fuel + 1, cursor, stale =>
      match nextKey keys cursor with
      | none => stale
      | some next =>
          collectStale rules keys fuel (some next)
            (if isStale rules next ∧ stale.length < maxRuleTables then stale ++ [next] else stale)

/-- The first loop of `refresh_default_networks`. -/
def insertDefaults (answers : Answers) (rules : NetworkRules) :
    List (Word × Word) → Table → Bool × Table
  | [], t => (true, t)
  | e :: rest, t =>
      if netidIsDefault rules e.1 then
        let r := mapUpdate answers e.1 t
        if r.1 then insertDefaults answers rules rest r.2 else (false, r.2)
      else insertDefaults answers rules rest t

/-- `refresh_default_networks` once the rules are known. -/
def publishNetworks (answers : Answers) (rules : NetworkRules) (m : NetworkMap) :
    Int × NetworkMap :=
  let inserted := insertDefaults answers rules rules.explicits ⟨m, 0⟩
  if !inserted.1 then (-1, inserted.2.map)
  else
    -- one step for each key, and one that finds no further key
    let stale := collectStale rules inserted.2.map.keys (maxEntries + 1) none []
    let cleaned := stale.foldl NetworkMap.delete inserted.2.map
    let ready := mapUpdate answers readyKey { inserted.2 with map := cleaned }
    (if ready.1 then 0 else -1, ready.2.map)

/-- `refresh_default_networks`. -/
def refreshDefaultNetworks (answers : Answers) (d : Dump) (m : NetworkMap) : Int × NetworkMap :=
  let dumped := dumpRules d
  if !dumped.2 ∨ dumped.1.defaultTables = [] then (-1, m.delete readyKey)
  else publishNetworks answers dumped.1 m

/-! ## What the rules mean -/

/-- The table of a default rule. -/
def RuleMessage.defaultTable (m : RuleMessage) : Option Word :=
  let r := m.selector
  if m.toTable ∧ r.hasMask ∧ r.mark = 0 ∧ r.mask = fwmarkNetidMask then some r.table else none

/-- The netId and the table of an explicit rule. -/
def RuleMessage.explicit (m : RuleMessage) : Option (Word × Word) :=
  let r := m.selector
  if m.toTable ∧ r.hasMask ∧ r.mask = fwmarkExplicitMask ∧ r.mark &&& fwmarkExplicit ≠ 0 ∧
      r.mark &&& fwmarkNetidMask ≠ 0 then
    some (r.mark &&& fwmarkNetidMask, r.table)
  else none

/-- The message ends a dump. -/
def Message.ends : Message → Bool
  | .done => true
  | .error => true
  | _ => false

/-- The rule of a message. -/
def Message.toRule : Message → Option RuleMessage
  | .rule m => some m
  | _ => none

/-- A failing `recv` ends a dump as an error message does. -/
def Receive.messages : Receive → List Message
  | .batch messages => messages
  | .interrupted => []
  | .failed => [.error]

/-- All the messages of a dump. -/
def Dump.messages (d : Dump) : List Message := d.receives.flatMap Receive.messages

/-- The kernel told all its rules. -/
def Dump.Complete (d : Dump) : Prop :=
  d.opened ∧ d.sent ∧ d.messages.find? Message.ends = some .done

/-- The rules before the end of a dump. -/
def Dump.rules (d : Dump) : List RuleMessage :=
  (d.messages.takeWhile (!·.ends)).filterMap Message.toRule

/-- The tables of the default rules, and the explicit rules, all of them. -/
def Dump.defaultTables (d : Dump) : List Word := d.rules.filterMap RuleMessage.defaultTable

def Dump.explicits (d : Dump) : List (Word × Word) := d.rules.filterMap RuleMessage.explicit

/-- A default network: its explicit rule shares a table with a default rule. -/
def DefaultNetwork (d : Dump) (netid : Word) : Prop :=
  ∃ table, (netid, table) ∈ d.explicits ∧ table ∈ d.defaultTables

/-- The default networks are known, or nothing is bypassed. -/
def KnownOrUnready (d : Dump) (r : Int × NetworkMap) : Prop :=
  (r.1 = 0 ∧ ∀ key, key ∈ r.2.keys ↔ key = readyKey ∨ DefaultNetwork d key) ∨
    (r.1 = -1 ∧ readyKey ∉ r.2.keys)

/-! ## When a refresh succeeds -/

/-- A dump with a default rule. -/
def Dump.Usable (d : Dump) : Prop := d.Complete ∧ d.defaultTables ≠ []

/-- The insertions of a pass, before the ready key: explicit rules that share a table with a default
rule, among the first of each kind. -/
def Dump.insertions (d : Dump) : List Word :=
  ((d.explicits.take maxRuleTables).map Prod.fst).filter fun netid =>
    (d.explicits.take maxRuleTables).any fun e =>
      e.1 = netid && (d.defaultTables.take maxRuleTables).any (· = e.2)

/-- The kernel takes every insertion of the pass. -/
structure Fits (answers : Answers) (d : Dump) (m : NetworkMap) : Prop where
  taken : ∀ i ≤ d.insertions.length, (answers i).isSome
  room : (m.keys.toFinset ∪ d.insertions.toFinset).card ≤ maxEntries
  roomReady : (insert readyKey d.insertions.toFinset).card ≤ maxEntries

/-- A default network by the first rules of each kind. -/
def KeptNetwork (d : Dump) (netid : Word) : Prop :=
  ∃ table, (netid, table) ∈ d.explicits.take maxRuleTables ∧
    table ∈ d.defaultTables.take maxRuleTables

/-- The first rules of each kind tell every default network. -/
def Kept (d : Dump) : Prop := ∀ netid, DefaultNetwork d netid → KeptNetwork d netid

/-! ## The dump -/

/-- The rules noted after some messages: the first of each kind. -/
def noted (ms : List RuleMessage) : NetworkRules where
  defaultTables := (ms.filterMap RuleMessage.defaultTable).take maxRuleTables
  explicits := (ms.filterMap RuleMessage.explicit).take maxRuleTables

/-- An element appended to an array of `maxRuleTables`. -/
def push {α : Type} (l : List α) (x : α) : List α := if l.length < maxRuleTables then l ++ [x] else l

/-- Appending while there is room keeps the first elements. -/
theorem push_take {α : Type} (l : List α) (x : α) :
    push (l.take maxRuleTables) x = (l ++ [x]).take maxRuleTables := by
  unfold push
  rw [List.length_take]
  by_cases h : l.length < maxRuleTables
  · have hlen : (l ++ [x]).length ≤ maxRuleTables := by
      rw [List.length_append, List.length_singleton]
      omega
    rw [if_pos (by omega), List.take_of_length_le (Nat.le_of_lt h), List.take_of_length_le hlen]
  · rw [if_neg (by omega), List.take_append_of_le_length (by omega)]

/-- A rule is noted as a default rule, as an explicit one, or not at all. -/
theorem noteRule_eq (m : RuleMessage) (rules : NetworkRules) :
    noteRule m rules =
      { defaultTables := m.defaultTable.elim rules.defaultTables (push rules.defaultTables)
        explicits := m.explicit.elim rules.explicits (push rules.explicits) } := by
  have hmarks : fwmarkNetidMask ≠ fwmarkExplicitMask := by decide
  unfold noteRule
  by_cases htable : m.toTable
  · by_cases hmask : m.selector.hasMask
    · by_cases hdefault : m.selector.mark = 0 ∧ m.selector.mask = fwmarkNetidMask
      · have h₁ : m.defaultTable = some m.selector.table :=
          if_pos ⟨htable, hmask, hdefault.1, hdefault.2⟩
        have h₂ : m.explicit = none := if_neg fun h => hmarks (hdefault.2.symm.trans h.2.2.1)
        simp only [htable, hmask, if_pos hdefault, h₁, h₂, Bool.not_true, Bool.false_eq_true,
          if_false, Option.elim_some, Option.elim_none, push]
        split <;> rfl
      · have h₁ : m.defaultTable = none := if_neg fun h => hdefault h.2.2
        by_cases hexplicit : m.selector.mask = fwmarkExplicitMask ∧
            m.selector.mark &&& fwmarkExplicit ≠ 0 ∧ m.selector.mark &&& fwmarkNetidMask ≠ 0
        · have h₂ : m.explicit = some (m.selector.mark &&& fwmarkNetidMask, m.selector.table) :=
            if_pos ⟨htable, hmask, hexplicit⟩
          simp only [htable, hmask, if_neg hdefault, h₁, h₂, Bool.not_true, Bool.false_eq_true,
            if_false, if_pos hexplicit, Option.elim_some, Option.elim_none, push]
          split <;> rfl
        · have h₂ : m.explicit = none := if_neg fun h => hexplicit h.2.2
          simp only [htable, hmask, if_neg hdefault, h₁, h₂, Bool.not_true, Bool.false_eq_true,
            if_false, if_neg hexplicit, Option.elim_none]
    · have h₁ : m.defaultTable = none := if_neg fun h => hmask h.2.1
      have h₂ : m.explicit = none := if_neg fun h => hmask h.2.1
      simp only [htable, hmask, h₁, h₂, Bool.not_true, Bool.false_eq_true, if_false,
        Bool.not_false, if_true, Option.elim_none]
  · have h₁ : m.defaultTable = none := if_neg fun h => htable h.1
    have h₂ : m.explicit = none := if_neg fun h => htable h.1
    simp only [htable, h₁, h₂, Bool.not_false, if_true, Option.elim_none]

theorem noteRule_noted (m : RuleMessage) (ms : List RuleMessage) :
    noteRule m (noted ms) = noted (ms ++ [m]) := by
  rw [noteRule_eq]
  simp only [noted, List.filterMap_append, List.filterMap_cons, List.filterMap_nil]
  cases m.defaultTable <;> cases m.explicit <;>
    simp only [Option.elim_some, Option.elim_none, push_take, List.append_nil]

/-- The rules of a list of messages, up to its end. -/
def rulesIn (messages : List Message) : List RuleMessage :=
  (messages.takeWhile (!·.ends)).filterMap Message.toRule

@[simp] theorem rulesIn_rule (m : RuleMessage) (rest : List Message) :
    rulesIn (.rule m :: rest) = m :: rulesIn rest := rfl

theorem rulesIn_append_of_none {messages rest : List Message}
    (h : messages.find? Message.ends = none) :
    rulesIn (messages ++ rest) = rulesIn messages ++ rulesIn rest := by
  induction messages with
  | nil => rfl
  | cons x xs ih =>
      cases x with
      | done => cases h
      | error => cases h
      | other => exact ih h
      | rule m =>
          rw [List.cons_append, rulesIn_rule, rulesIn_rule, ih h, List.cons_append]

theorem rulesIn_append_of_some {messages rest : List Message} {e : Message}
    (h : messages.find? Message.ends = some e) :
    rulesIn (messages ++ rest) = rulesIn messages := by
  induction messages with
  | nil => cases h
  | cons x xs ih =>
      cases x with
      | done => rfl
      | error => rfl
      | other => exact ih h
      | rule m => rw [List.cons_append, rulesIn_rule, rulesIn_rule, ih h]

/-- One batch: it notes its rules up to its end. -/
theorem readBatch_noted (messages : List Message) (ms : List RuleMessage) :
    readBatch messages (noted ms) =
      (noted (ms ++ rulesIn messages),
        (messages.find? Message.ends).map fun e => decide (e = .done)) := by
  induction messages generalizing ms with
  | nil => simp [readBatch, rulesIn]
  | cons x xs ih =>
      cases x with
      | done => simp [readBatch, rulesIn, Message.ends]
      | error => simp [readBatch, rulesIn, Message.ends]
      | other => exact ih ms
      | rule m =>
          rw [readBatch, noteRule_noted, ih, rulesIn_rule, List.append_assoc,
            List.singleton_append, List.find?_cons_of_neg Bool.false_ne_true]

/-- The loop: it notes the rules before the end of the dump. -/
theorem receiveRules_noted (rs : List Receive) (ms : List RuleMessage) :
    receiveRules rs (noted ms) =
      (noted (ms ++ rulesIn (rs.flatMap Receive.messages)),
        decide ((rs.flatMap Receive.messages).find? Message.ends = some .done)) := by
  induction rs generalizing ms with
  | nil => simp [receiveRules, rulesIn]
  | cons r rs ih =>
      cases r with
      | interrupted => simpa [receiveRules, Receive.messages] using ih ms
      | failed => simp [receiveRules, Receive.messages, rulesIn, Message.ends]
      | batch messages =>
          simp only [receiveRules, readBatch_noted, List.flatMap_cons, Receive.messages,
            List.find?_append]
          cases hend : messages.find? Message.ends with
          | none =>
              simp only [Option.map_none, Option.none_or]
              rw [ih, rulesIn_append_of_none hend, List.append_assoc]
              rfl
          | some e =>
              simp only [Option.map_some, Option.some_or, Option.some.injEq]
              rw [rulesIn_append_of_some hend]

/-- **The dump**: a complete dump notes the first rules of each kind. -/
theorem dumpRules_of_complete {d : Dump} (h : d.Complete) :
    dumpRules d = (noted d.rules, true) := by
  obtain ⟨hopened, hsent, hend⟩ := h
  have hrun := receiveRules_noted d.receives []
  simp only [dumpRules, hopened, hsent, Bool.not_true, Bool.false_eq_true, if_false]
  rw [show (⟨[], []⟩ : NetworkRules) = noted [] from rfl, hrun, List.nil_append]
  exact Prod.ext rfl (decide_eq_true hend)

/-- A dump that is not complete fails. -/
theorem dumpRules_of_not_complete {d : Dump} (h : ¬ d.Complete) : (dumpRules d).2 = false := by
  unfold dumpRules
  by_cases hopened : d.opened
  · by_cases hsent : d.sent
    · simp only [hopened, hsent, Bool.not_true, Bool.false_eq_true, if_false]
      rw [show (⟨[], []⟩ : NetworkRules) = noted [] from rfl, receiveRules_noted]
      exact decide_eq_false fun hend => h ⟨hopened, hsent, hend⟩
    · simp only [hopened, hsent, Bool.not_true, Bool.not_false, Bool.false_eq_true, if_false,
        if_true]
  · simp only [hopened, Bool.not_false, if_true]

/-! ## The map under a pass -/

theorem NetworkMap.card_keys (m : NetworkMap) : m.keys.toFinset.card = m.keys.length :=
  List.toFinset_card_of_nodup m.nodup

theorem NetworkMap.toFinset_insertAt (m : NetworkMap) (place : Nat) (key : Word)
    (fresh : key ∉ m.keys) (room : m.keys.length < maxEntries) :
    (m.insertAt place key fresh room).keys.toFinset = insert key m.keys.toFinset := by
  ext x
  have hsplit : x ∈ m.keys ↔ x ∈ m.keys.take place ∨ x ∈ m.keys.drop place := by
    rw [← List.mem_append, List.take_append_drop]
  simp only [insertAt, List.mem_toFinset, List.mem_append, List.mem_cons, Finset.mem_insert, hsplit]
  exact or_left_comm

section

variable {answers : Answers} {key : Word} {t : Table}

@[simp] theorem mapUpdate_updates : (mapUpdate answers key t).2.updates = t.updates + 1 := by
  unfold mapUpdate
  split
  · rfl
  · split_ifs <;> rfl

/-- An insertion succeeds if it is taken and there is room. -/
theorem mapUpdate_fst :
    (mapUpdate answers key t).1 = true ↔
      (answers t.updates).isSome ∧ (insert key t.map.keys.toFinset).card ≤ maxEntries := by
  unfold mapUpdate
  cases ha : answers t.updates with
  | none => simp
  | some place =>
      by_cases hmem : key ∈ t.map.keys
      · have hins : insert key t.map.keys.toFinset = t.map.keys.toFinset :=
          Finset.insert_eq_of_mem (List.mem_toFinset.mpr hmem)
        simp only [dif_pos hmem, Option.isSome_some, true_and, hins, t.map.card_keys, true_iff]
        exact t.map.bounded
      · have hcard : (insert key t.map.keys.toFinset).card = t.map.keys.length + 1 := by
          rw [Finset.card_insert_of_notMem (fun h => hmem (List.mem_toFinset.mp h)),
            t.map.card_keys]
        by_cases hroom : t.map.keys.length < maxEntries
        · simp only [dif_neg hmem, dif_pos hroom, Option.isSome_some, true_and, hcard, true_iff]
          exact hroom
        · simp only [dif_neg hmem, dif_neg hroom, Option.isSome_some, true_and, hcard,
            Bool.false_eq_true, false_iff]
          exact hroom

theorem mapUpdate_keys (h : (mapUpdate answers key t).1 = true) :
    (mapUpdate answers key t).2.map.keys.toFinset = insert key t.map.keys.toFinset := by
  unfold mapUpdate at h ⊢
  cases ha : answers t.updates with
  | none => simp [ha] at h
  | some place =>
      rw [ha] at h
      by_cases hmem : key ∈ t.map.keys
      · simp only [dif_pos hmem]
        exact (Finset.insert_eq_of_mem (List.mem_toFinset.mpr hmem)).symm
      · by_cases hroom : t.map.keys.length < maxEntries
        · simp only [dif_neg hmem, dif_pos hroom]
          exact t.map.toFinset_insertAt place key hmem hroom
        · simp [hmem, hroom] at h

theorem mapUpdate_refused (h : (mapUpdate answers key t).1 = false) :
    (mapUpdate answers key t).2.map = t.map := by
  unfold mapUpdate at h ⊢
  cases ha : answers t.updates with
  | none => rfl
  | some place =>
      rw [ha] at h
      by_cases hmem : key ∈ t.map.keys
      · simp [hmem] at h
      · by_cases hroom : t.map.keys.length < maxEntries
        · simp [hmem, hroom] at h
        · simp only [dif_neg hmem, dif_neg hroom]

/-- Another key stays as it was. -/
theorem mapUpdate_mem_of_ne {other : Word} (hne : other ≠ key) :
    other ∈ (mapUpdate answers key t).2.map.keys ↔ other ∈ t.map.keys := by
  cases hok : (mapUpdate answers key t).1 with
  | false => rw [mapUpdate_refused hok]
  | true =>
      have hkeys := mapUpdate_keys hok
      rw [← List.mem_toFinset, hkeys, Finset.mem_insert, List.mem_toFinset]
      exact or_iff_right hne

end

/-- Some keys inserted in turn, up to the first failure. -/
def insertAll (answers : Answers) : List Word → Table → Bool × Table
  | [], t => (true, t)
  | key :: rest, t =>
      let r := mapUpdate answers key t
      if r.1 then insertAll answers rest r.2 else (false, r.2)

theorem insertDefaults_eq (answers : Answers) (rules : NetworkRules) (es : List (Word × Word))
    (t : Table) :
    insertDefaults answers rules es t =
      insertAll answers ((es.map Prod.fst).filter (netidIsDefault rules)) t := by
  induction es generalizing t with
  | nil => rfl
  | cons e es ih =>
      rw [insertDefaults, List.map_cons, List.filter_cons]
      by_cases hdefault : netidIsDefault rules e.1 = true
      · simp only [hdefault, if_true, insertAll, ih]
      · simp only [hdefault, Bool.false_eq_true, if_false, ih]

/-- All insertions succeed if all are taken and the map has room for all. -/
theorem insertAll_fst (answers : Answers) (ks : List Word) (t : Table) :
    (insertAll answers ks t).1 = true ↔
      (∀ i < ks.length, (answers (t.updates + i)).isSome) ∧
        (t.map.keys.toFinset ∪ ks.toFinset).card ≤ maxEntries := by
  induction ks generalizing t with
  | nil =>
      simp only [insertAll, List.length_nil, Nat.not_lt_zero, false_implies, implies_true,
        List.toFinset_nil, Finset.union_empty, true_and, t.map.card_keys, true_iff]
      exact t.map.bounded
  | cons key rest ih =>
      have hunion : t.map.keys.toFinset ∪ (key :: rest).toFinset =
          insert key t.map.keys.toFinset ∪ rest.toFinset := by
        rw [List.toFinset_cons, Finset.union_insert, Finset.insert_union]
      rw [insertAll, hunion]
      cases hok : (mapUpdate answers key t).1 with
      | true =>
          have hkeys := mapUpdate_keys hok
          have hfirst := (mapUpdate_fst.mp hok).1
          simp only [if_true, ih, hkeys, mapUpdate_updates, List.length_cons]
          refine and_congr_left fun _ => ⟨fun hrest i hi => ?_, fun hall i hi => ?_⟩
          · cases i with
            | zero => exact hfirst
            | succ i =>
                have := hrest i (Nat.lt_of_succ_lt_succ hi)
                rwa [Nat.add_assoc, Nat.add_comm 1] at this
          · have := hall (i + 1) (Nat.succ_lt_succ hi)
            rwa [Nat.add_assoc, Nat.add_comm 1]
      | false =>
          simp only [Bool.false_eq_true, if_false, false_iff, not_and]
          intro htaken hcard
          -- the first key was refused, by the kernel or for want of room
          refine Bool.false_ne_true (hok.symm.trans (mapUpdate_fst.mpr ⟨?_, ?_⟩))
          · exact htaken 0 (Nat.succ_pos _)
          · exact (Finset.card_le_card Finset.subset_union_left).trans hcard

theorem insertAll_keys {answers : Answers} {ks : List Word} {t : Table}
    (h : (insertAll answers ks t).1 = true) :
    (insertAll answers ks t).2.map.keys.toFinset = t.map.keys.toFinset ∪ ks.toFinset ∧
      (insertAll answers ks t).2.updates = t.updates + ks.length := by
  induction ks generalizing t with
  | nil => exact ⟨(Finset.union_empty _).symm, rfl⟩
  | cons key rest ih =>
      rw [insertAll] at h ⊢
      cases hok : (mapUpdate answers key t).1 with
      | true =>
          simp only [hok, if_true] at h ⊢
          obtain ⟨hkeys, hupdates⟩ := ih h
          rw [hkeys, hupdates, mapUpdate_keys hok, mapUpdate_updates, List.toFinset_cons,
            Finset.union_insert, Finset.insert_union, List.length_cons]
          exact ⟨rfl, by omega⟩
      | false =>
          simp only [hok, Bool.false_eq_true, if_false] at h

/-- Keys that are not inserted stay as they were, whatever fails. -/
theorem insertAll_mem {answers : Answers} {ks : List Word} {t : Table} {other : Word}
    (h : other ∉ ks) : other ∈ (insertAll answers ks t).2.map.keys ↔ other ∈ t.map.keys := by
  induction ks generalizing t with
  | nil => exact Iff.rfl
  | cons key rest ih =>
      obtain ⟨hne, hrest⟩ := not_or.mp (List.mem_cons.not.mp h)
      rw [insertAll]
      cases hok : (mapUpdate answers key t).1 with
      | true => simpa only [hok, if_true] using (ih hrest).trans (mapUpdate_mem_of_ne hne)
      | false => simpa only [hok, Bool.false_eq_true, if_false] using mapUpdate_mem_of_ne hne

/-! ## The walk over the keys -/

/-- From a key of the list the next one is its successor. -/
theorem nextKey_append {pre suf : List Word} {cursor : Word}
    (h : (pre ++ cursor :: suf).Nodup) :
    nextKey (pre ++ cursor :: suf) (some cursor) = suf.head? := by
  have hpre : ∀ x ∈ pre, decide (x ≠ cursor) = true := by
    intro x hx
    refine decide_eq_true fun heq => ?_
    rw [List.nodup_append] at h
    exact h.2.2 x hx cursor List.mem_cons_self heq
  rw [nextKey, if_pos (List.mem_append_right _ List.mem_cons_self),
    List.dropWhile_append_of_pos hpre, List.dropWhile_cons_of_neg (by simp), List.tail_cons]

/-- The walk from a key on, with room in the array. -/
theorem collectStale_from (rules : NetworkRules) {pre suf : List Word} {cursor : Word} {fuel : Nat}
    {stale : List Word} (h : (pre ++ cursor :: suf).Nodup) (hfuel : suf.length < fuel)
    (hroom : stale.length + suf.length ≤ maxRuleTables) :
    collectStale rules (pre ++ cursor :: suf) fuel (some cursor) stale =
      stale ++ suf.filter (isStale rules) := by
  induction suf generalizing pre cursor fuel stale with
  | nil =>
      cases fuel with
      | zero => cases hfuel
      | succ fuel => rw [collectStale, nextKey_append h]; simp
  | cons next rest ih =>
      cases fuel with
      | zero => cases hfuel
      | succ fuel =>
          rw [List.length_cons] at hfuel hroom
          have hlist : pre ++ cursor :: next :: rest = (pre ++ [cursor]) ++ next :: rest := by
            rw [List.append_assoc, List.singleton_append]
          rw [collectStale, nextKey_append h]
          rw [hlist] at h ⊢
          by_cases hstale : isStale rules next = true
          · have hlen : stale.length < maxRuleTables := by omega
            simp only [List.head?_cons, hstale, hlen, and_self, if_true]
            rw [ih h (by omega) (by rw [List.length_append, List.length_singleton]; omega),
              List.filter_cons_of_pos hstale, List.append_assoc, List.singleton_append]
          · simp only [List.head?_cons, hstale, Bool.false_eq_true, false_and, if_false]
            rw [ih h (by omega) (by omega), List.filter_cons_of_neg hstale]

/-- **The walk** collects the stale keys of the map. -/
theorem collectStale_eq (rules : NetworkRules) (m : NetworkMap) :
    collectStale rules m.keys (maxEntries + 1) none [] = m.keys.filter (isStale rules) := by
  have hbound := m.bounded
  cases hkeys : m.keys with
  | nil => rfl
  | cons first rest =>
      have hnodup := m.nodup
      rw [hkeys, List.length_cons] at hbound
      rw [hkeys] at hnodup
      have hfuel : rest.length < maxEntries := hbound
      have hsmall : ([] ++ [first]).length + rest.length ≤ maxRuleTables := by
        have htables : maxEntries ≤ maxRuleTables := by decide
        show 1 + rest.length ≤ maxRuleTables
        omega
      show collectStale rules ([] ++ first :: rest) maxEntries (some first) _ = _
      by_cases hstale : isStale rules first = true
      · rw [if_pos ⟨hstale, Nat.zero_lt_succ _⟩,
          collectStale_from rules hnodup hfuel hsmall, List.filter_cons_of_pos hstale]
        rfl
      · rw [if_neg fun h => hstale h.1,
          collectStale_from rules hnodup hfuel (by rw [List.length_nil]; omega),
          List.filter_cons_of_neg hstale]
        rfl

theorem mem_deleteAll {keys : List Word} {m : NetworkMap} {key : Word} :
    key ∈ (keys.foldl NetworkMap.delete m).keys ↔ key ∈ m.keys ∧ key ∉ keys := by
  induction keys generalizing m with
  | nil => simp
  | cons k ks ih =>
      have hdelete : key ∈ (m.delete k).keys ↔ key ≠ k ∧ key ∈ m.keys := m.nodup.mem_erase_iff
      rw [List.foldl_cons, ih, hdelete, List.mem_cons, not_or, and_assoc]
      exact and_left_comm

/-! ## A refresh -/

theorem netidIsDefault_noted (d : Dump) (netid : Word) :
    netidIsDefault (noted d.rules) netid = true ↔ KeptNetwork d netid := by
  simp only [netidIsDefault, rulesMarkDefault, KeptNetwork, List.any_eq_true, Bool.and_eq_true,
    decide_eq_true_eq, noted]
  constructor
  · rintro ⟨⟨netid', table⟩, he, rfl, table', ht, rfl⟩
    exact ⟨table', he, ht⟩
  · rintro ⟨table, he, ht⟩
    exact ⟨(netid, table), he, rfl, table, ht, rfl⟩

theorem KeptNetwork.default {d : Dump} {netid : Word} (h : KeptNetwork d netid) :
    DefaultNetwork d netid := by
  obtain ⟨table, he, ht⟩ := h
  exact ⟨table, List.mem_of_mem_take he, List.mem_of_mem_take ht⟩

theorem insertions_eq (d : Dump) :
    d.insertions = ((noted d.rules).explicits.map Prod.fst).filter (netidIsDefault (noted d.rules)) :=
  rfl

theorem mem_insertions {d : Dump} {netid : Word} : netid ∈ d.insertions ↔ KeptNetwork d netid := by
  rw [insertions_eq, List.mem_filter, netidIsDefault_noted]
  refine ⟨And.right, fun h => ⟨?_, h⟩⟩
  obtain ⟨table, he, -⟩ := h
  exact List.mem_map.mpr ⟨_, he, rfl⟩

/-- An explicit rule names a network. -/
theorem explicit_ne_ready {d : Dump} {e : Word × Word} (h : e ∈ d.explicits) : e.1 ≠ readyKey := by
  obtain ⟨m, -, hm⟩ := List.mem_filterMap.mp h
  simp only [RuleMessage.explicit] at hm
  split at hm
  · rename_i hcond
    cases hm
    exact hcond.2.2.2.2
  · cases hm

theorem ready_not_mem_insertions (d : Dump) : readyKey ∉ d.insertions := by
  intro h
  obtain ⟨table, he, -⟩ := mem_insertions.mp h
  exact explicit_ne_ready (List.mem_of_mem_take he) rfl

section

variable {answers : Answers} {d : Dump} {m : NetworkMap}

/-- The map after the insertions of a pass. -/
def inserted (answers : Answers) (d : Dump) (m : NetworkMap) : Bool × Table :=
  insertAll answers d.insertions ⟨m, 0⟩

/-- The map without its stale keys. -/
def cleaned (answers : Answers) (d : Dump) (m : NetworkMap) : NetworkMap :=
  ((inserted answers d m).2.map.keys.filter (isStale (noted d.rules))).foldl NetworkMap.delete
    (inserted answers d m).2.map

theorem publishNetworks_noted :
    publishNetworks answers (noted d.rules) m =
      if (inserted answers d m).1 then
        let ready := mapUpdate answers readyKey
          { (inserted answers d m).2 with map := cleaned answers d m }
        (if ready.1 then 0 else -1, ready.2.map)
      else (-1, (inserted answers d m).2.map) := by
  simp only [publishNetworks, insertDefaults_eq, collectStale_eq, ← insertions_eq]
  show (if !(inserted answers d m).1 then _ else _) = _
  cases (inserted answers d m).1 <;> rfl

/-- What the clean-up leaves: the inserted keys, and the ready key if it was there. -/
theorem mem_cleaned (h : (inserted answers d m).1 = true) {key : Word} :
    key ∈ (cleaned answers d m).keys ↔
      KeptNetwork d key ∨ key = readyKey ∧ readyKey ∈ m.keys := by
  have hkeys := (insertAll_keys h).1
  have hmem : key ∈ (inserted answers d m).2.map.keys ↔ key ∈ m.keys ∨ key ∈ d.insertions := by
    rw [← List.mem_toFinset]
    exact hkeys ▸ (Finset.mem_union.trans (or_congr List.mem_toFinset List.mem_toFinset))
  have hkept := netidIsDefault_noted d key
  rw [cleaned, mem_deleteAll, List.mem_filter, hmem, mem_insertions, isStale, ← hkept]
  by_cases hready : key = readyKey
  · simp [hready, or_comm]
  · simp [hready]
    exact ⟨fun ⟨hin, hkeep⟩ => hkeep hin, fun hd => ⟨.inr hd, fun _ => hd⟩⟩

theorem fits_iff : Fits answers d m ↔
    (inserted answers d m).1 = true ∧ (mapUpdate answers readyKey
      { (inserted answers d m).2 with map := cleaned answers d m }).1 = true := by
  have hfst := insertAll_fst answers d.insertions ⟨m, 0⟩
  constructor
  · intro h
    have hinserted : (inserted answers d m).1 = true := by
      refine hfst.mpr ⟨fun i hi => ?_, h.room⟩
      rw [Nat.zero_add]
      exact h.taken i hi.le
    refine ⟨hinserted, mapUpdate_fst.mpr ⟨?_, ?_⟩⟩
    · have hupdates : (inserted answers d m).2.updates = 0 + d.insertions.length :=
        (insertAll_keys hinserted).2
      show (answers (inserted answers d m).2.updates).isSome
      rw [hupdates, Nat.zero_add]
      exact h.taken _ le_rfl
    · refine (Finset.card_le_card fun key hkey => ?_).trans h.roomReady
      rcases Finset.mem_insert.mp hkey with rfl | hkey
      · exact Finset.mem_insert_self _ _
      · rcases (mem_cleaned hinserted).mp (List.mem_toFinset.mp hkey) with hkept | ⟨rfl, -⟩
        · exact Finset.mem_insert_of_mem (List.mem_toFinset.mpr (mem_insertions.mpr hkept))
        · exact Finset.mem_insert_self _ _
  · rintro ⟨hinserted, hready⟩
    obtain ⟨htaken, hroom⟩ := hfst.mp hinserted
    obtain ⟨htakenReady, hroomReady⟩ := mapUpdate_fst.mp hready
    refine ⟨fun i hi => ?_, hroom, (Finset.card_le_card fun key hkey => ?_).trans hroomReady⟩
    · rcases Nat.lt_or_eq_of_le hi with hlt | rfl
      · have := htaken i hlt
        rwa [Nat.zero_add] at this
      · have hupdates : (inserted answers d m).2.updates = 0 + d.insertions.length :=
          (insertAll_keys hinserted).2
        have hsome : (answers (inserted answers d m).2.updates).isSome := htakenReady
        rwa [hupdates, Nat.zero_add] at hsome
    · rcases Finset.mem_insert.mp hkey with rfl | hkey
      · exact Finset.mem_insert_self _ _
      · refine Finset.mem_insert_of_mem (List.mem_toFinset.mpr ((mem_cleaned hinserted).mpr ?_))
        exact .inl (mem_insertions.mp (List.mem_toFinset.mp hkey))

/-- A pass whose insertions all succeed. -/
theorem publish_of_fits (h : Fits answers d m) :
    (publishNetworks answers (noted d.rules) m).1 = 0 ∧
      ∀ key, key ∈ (publishNetworks answers (noted d.rules) m).2.keys ↔
        key = readyKey ∨ KeptNetwork d key := by
  obtain ⟨hinserted, hready⟩ := fits_iff.mp h
  rw [publishNetworks_noted, if_pos hinserted]
  refine ⟨if_pos hready, fun key => ?_⟩
  have hkeys := mapUpdate_keys hready
  show key ∈ (mapUpdate answers readyKey _).2.map.keys ↔ _
  rw [← List.mem_toFinset, hkeys, Finset.mem_insert, List.mem_toFinset, mem_cleaned hinserted]
  constructor
  · rintro (h | h | ⟨h, -⟩)
    · exact .inl h
    · exact .inr h
    · exact .inl h
  · exact Or.imp_right .inl

/-- A pass with an insertion that fails: the ready key is as it was. -/
theorem publish_of_not_fits (h : ¬ Fits answers d m) :
    (publishNetworks answers (noted d.rules) m).1 = -1 ∧
      (readyKey ∈ (publishNetworks answers (noted d.rules) m).2.keys ↔ readyKey ∈ m.keys) := by
  rw [publishNetworks_noted]
  by_cases hinserted : (inserted answers d m).1 = true
  · have hready := Bool.eq_false_iff.mpr fun hready => h (fits_iff.mpr ⟨hinserted, hready⟩)
    rw [if_pos hinserted]
    refine ⟨if_neg (Bool.eq_false_iff.mp hready), ?_⟩
    have hno : ¬ KeptNetwork d readyKey := fun hk =>
      ready_not_mem_insertions d (mem_insertions.mpr hk)
    show readyKey ∈ (mapUpdate answers readyKey _).2.map.keys ↔ _
    rw [mapUpdate_refused hready, mem_cleaned hinserted, or_iff_right hno]
    exact and_iff_right rfl
  · rw [if_neg hinserted]
    exact ⟨rfl, insertAll_mem (ready_not_mem_insertions d)⟩

end

/-- **A refresh** ends with the default networks known or with nothing bypassed exactly when the dump
is of no use, or every insertion succeeds and no default network is lost to the arrays, or an insertion
fails and the ready key was not there. -/
theorem refresh_known_iff (answers : Answers) (d : Dump) (m : NetworkMap) :
    KnownOrUnready d (refreshDefaultNetworks answers d m) ↔
      ¬ d.Usable ∨ (Fits answers d m ∧ Kept d) ∨ (¬ Fits answers d m ∧ readyKey ∉ m.keys) := by
  have hdeleted : readyKey ∉ (m.delete readyKey).keys := m.nodup.not_mem_erase
  by_cases husable : d.Usable
  · obtain ⟨hcomplete, htables⟩ := husable
    have hnoted : (noted d.rules).defaultTables ≠ [] := by
      intro hnil
      rcases List.take_eq_nil_iff.mp hnil with hzero | hnil
      · cases hzero
      · exact htables hnil
    -- a dump that is of use has a default table, so the refresh goes on to publish
    have hrun : refreshDefaultNetworks answers d m = publishNetworks answers (noted d.rules) m := by
      unfold refreshDefaultNetworks
      rw [dumpRules_of_complete hcomplete, if_neg]
      rintro (h | h)
      · cases h
      · exact hnoted h
    rw [hrun]
    by_cases hfits : Fits answers d m
    · obtain ⟨hzero, hkeys⟩ := publish_of_fits hfits
      constructor
      · rintro (⟨-, hknown⟩ | ⟨hfailed, -⟩)
        · refine .inr (.inl ⟨hfits, fun netid hdefault => ?_⟩)
          -- no network has the ready key for its number
          rcases (hkeys netid).mp ((hknown netid).mpr (.inr hdefault)) with rfl | hkept
          · obtain ⟨table, he, -⟩ := hdefault
            exact absurd rfl (explicit_ne_ready he)
          · exact hkept
        · rw [hzero] at hfailed
          cases hfailed
      · rintro (hno | ⟨-, hkept⟩ | ⟨hno, -⟩)
        · exact absurd ⟨hcomplete, htables⟩ hno
        · refine .inl ⟨hzero, fun key => (hkeys key).trans (or_congr_right ?_)⟩
          exact ⟨KeptNetwork.default, hkept key⟩
        · exact absurd hfits hno
    · obtain ⟨hfailed, hready⟩ := publish_of_not_fits hfits
      constructor
      · rintro (⟨hzero, -⟩ | ⟨-, habsent⟩)
        · rw [hfailed] at hzero
          cases hzero
        · exact .inr (.inr ⟨hfits, fun hm => habsent (hready.mpr hm)⟩)
      · rintro (hno | ⟨hyes, -⟩ | ⟨-, habsent⟩)
        · exact absurd ⟨hcomplete, htables⟩ hno
        · exact absurd hyes hfits
        · exact .inr ⟨hfailed, fun hm => habsent (hready.mp hm)⟩
  -- the dump failed or names no default table: the ready key is deleted, and it fails
  · refine iff_of_true (.inr ?_) (.inl husable)
    have hrun : refreshDefaultNetworks answers d m = (-1, m.delete readyKey) := by
      unfold refreshDefaultNetworks
      rw [if_pos]
      by_cases hcomplete : d.Complete
      · rw [dumpRules_of_complete hcomplete]
        have hnil : d.defaultTables = [] := by
          by_contra hne
          exact husable ⟨hcomplete, hne⟩
        exact .inr (List.take_eq_nil_iff.mpr (.inr hnil))
      · rw [dumpRules_of_not_complete hcomplete]
        exact .inl rfl
    rw [hrun]
    exact ⟨rfl, hdeleted⟩

/-! ### A full map -/

/-- A default rule for table 7, and an explicit rule of network 100 for it. -/
def sampleDump : Dump where
  opened := true
  sent := true
  receives := [.batch [.rule ⟨true, 7, [⟨.fwmask, [0xff, 0xff, 0, 0]⟩]⟩,
    .rule ⟨true, 7, [⟨.fwmark, [100, 0, 1, 0]⟩, ⟨.fwmask, [0xff, 0xff, 1, 0]⟩]⟩, .done]]

/-- The ready key and 63 networks that are no longer default networks. -/
def fullMap : NetworkMap where
  keys := (List.range 64).map (BitVec.ofNat 32)
  nodup := by decide
  bounded := by decide

/-- There is no room for network 100: the refresh fails and leaves the ready key over the old
networks. -/
theorem fullMap_outdated :
    ¬ KnownOrUnready sampleDump (refreshDefaultNetworks (fun _ => some 0) sampleDump fullMap) := by
  have hrun : (refreshDefaultNetworks (fun _ => some 0) sampleDump fullMap).1 = -1 ∧
      readyKey ∈ (refreshDefaultNetworks (fun _ => some 0) sampleDump fullMap).2.keys := by
    decide +kernel
  rintro (⟨hzero, -⟩ | ⟨-, habsent⟩)
  · exact absurd (hrun.1.symm.trans hzero) (by decide)
  · exact habsent hrun.2

end Bpf2Socks.Networks

/-
# Bpf2Socks.Interfaces.Sync — making a map of the kernel hold a set of keys.

A refresh computes the keys a map is to hold and hands them over.  The missing ones are written
first, then the map is walked for keys that are not wanted, and those are deleted: a lookup on the
way never sees an emptied map.  The price is room.  While the old keys are still there the new ones
need entries of their own, and a map has a fixed number of them.

The kernel keeps the keys in an order of its own; where it puts a new one is left open.
-/
import Bpf2Socks.Interfaces.Policy
import Mathlib.Data.List.Perm.Basic

namespace Bpf2Socks.Interfaces

variable {α : Type} [DecidableEq α]

/-! ## Maps of the kernel -/

/-- The errors of the two calls that change a map. -/
inductive Errno where
  | e2big
  | enoent
  deriving DecidableEq

/-- A map: its keys in the order in which `bpf_map_get_next_key` meets them. -/
structure KeyMap (α : Type) where
  maxEntries : Nat
  keys : List α
  nodup : keys.Nodup
  bounded : keys.length ≤ maxEntries
  deriving DecidableEq

/-- Where the kernel puts a new key among those it has. -/
structure Placing (α : Type) where
  place : List α → α → List α
  perm : ∀ keys key, (place keys key).Perm (key :: keys)

/-- New keys come first. -/
def Placing.front (α : Type) : Placing α := ⟨fun keys key => key :: keys, fun _ _ => .refl _⟩

/-- The map with a key it did not hold. -/
def KeyMap.insert (p : Placing α) (m : KeyMap α) (key : α) (hnew : key ∉ m.keys)
    (hroom : m.keys.length < m.maxEntries) : KeyMap α where
  maxEntries := m.maxEntries
  keys := p.place m.keys key
  nodup := (p.perm m.keys key).nodup_iff.mpr (List.nodup_cons.mpr ⟨hnew, m.nodup⟩)
  bounded := by
    rw [(p.perm m.keys key).length_eq, List.length_cons]
    omega

/-- `bpf2socks_bpf_map_update`: only a new key needs an entry. -/
def KeyMap.update (p : Placing α) (m : KeyMap α) (key : α) : Except Errno (KeyMap α) :=
  if hold : key ∈ m.keys then .ok m
  else if hroom : m.keys.length < m.maxEntries then .ok (m.insert p key hold hroom)
  else .error .e2big

/-- `bpf2socks_bpf_map_delete`. -/
def KeyMap.delete (m : KeyMap α) (key : α) : Except Errno (KeyMap α) :=
  if key ∈ m.keys then
    .ok {
      maxEntries := m.maxEntries
      keys := m.keys.erase key
      nodup := m.nodup.erase key
      bounded := Nat.le_trans List.length_erase_le m.bounded }
  else .error .enoent

/-- The keys an iteration has still to meet; from a key that is gone it starts again. -/
def KeyMap.keysAfter (m : KeyMap α) : Option α → List α
  | none => m.keys
  | some key => if key ∈ m.keys then (m.keys.dropWhile fun x => x ≠ key).tail else m.keys

/-- `bpf2socks_bpf_map_next_key`. -/
def KeyMap.nextKey (m : KeyMap α) (cursor : Option α) : Option α := (m.keysAfter cursor).head?

/-! ## The synchronisation -/

/-- `sizeof(struct bpf2socks_lpm6_key)`. -/
def lpm6KeySize : Nat := 20

/-- `struct key_set`: interface indices or the keys of a trie. -/
structure KeySet (α : Type) where
  keySize : Nat
  keys : List α
  known : keySize = 4 ∨ keySize = 8 ∨ keySize = lpm6KeySize
  nodup : keys.Nodup

/-- What a part of the call did: its result, the map after each of its operations, and the map it
leaves. -/
structure Outcome (α : Type) where
  ok : Bool
  maps : List (KeyMap α)
  last : KeyMap α
  deriving DecidableEq

/-- The same with one operation before it. -/
def Outcome.after (m : KeyMap α) (r : Outcome α) : Outcome α := { r with maps := m :: r.maps }

/-- One part of the call, then another. -/
def Outcome.andThen (first second : Outcome α) : Outcome α :=
  { second with maps := first.maps ++ second.maps }

/-- The loop that writes the desired keys. -/
def updateKeys (p : Placing α) : List α → KeyMap α → Outcome α
  | [], m => ⟨true, [], m⟩
  | key :: keys, m =>
      match m.update p key with
      | .error _ => ⟨false, [m], m⟩
      | .ok m' => (updateKeys p keys m').after m'

/-- The loop that walks the map for keys that are not desired; `none` when the fuel ends first. -/
def collectStale (m : KeyMap α) (desired : List α) : Nat → Option α → List α → Option (List α)
  | 0, _, _ => none
  | fuel + 1, cursor, stale =>
      match m.nextKey cursor with
      | none => some stale
      | some next =>
          collectStale m desired fuel (some next)
            (if next ∈ desired then stale else addKey stale next)

/-- The loop that deletes them; a key that is gone already is as good as deleted. -/
def deleteKeys : List α → KeyMap α → Outcome α
  | [], m => ⟨true, [], m⟩
  | key :: keys, m =>
      match m.delete key with
      | .ok m' => (deleteKeys keys m').after m'
      | .error e => if e = .enoent then (deleteKeys keys m).after m else ⟨false, [m], m⟩

/-- `sync_map_keys`. -/
def syncMapKeys (p : Placing α) (m : KeyMap α) (desired : KeySet α) : Option (Outcome α) :=
  let written := updateKeys p desired.keys m
  if !written.ok then some written
  else if lpm6KeySize < desired.keySize then some { written with ok := false }
  else
    match collectStale written.last desired.keys (written.last.keys.length + 1) none [] with
    | none => none
    | some stale => some (written.andThen (deleteKeys stale written.last))

/-! ## Writing -/

/-- The desired keys that are not in the map. -/
def KeyMap.missing (m : KeyMap α) (desired : List α) : List α := desired.filter fun x => x ∉ m.keys

/-- A map on the way from one set of keys to another: nothing that is in both is gone, and nothing
is there that is in neither. -/
def KeyMap.Between (old desired : List α) (m : KeyMap α) : Prop :=
  (∀ x ∈ old, x ∈ desired → x ∈ m.keys) ∧ ∀ x ∈ m.keys, x ∈ old ∨ x ∈ desired

omit [DecidableEq α] in
@[simp] theorem KeyMap.mem_insert {p : Placing α} {m : KeyMap α} {key x : α} {hnew : key ∉ m.keys}
    {hroom : m.keys.length < m.maxEntries} :
    x ∈ (m.insert p key hnew hroom).keys ↔ x = key ∨ x ∈ m.keys := by
  show x ∈ p.place m.keys key ↔ _
  rw [(p.perm m.keys key).mem_iff, List.mem_cons]

omit [DecidableEq α] in
@[simp] theorem KeyMap.length_insert {p : Placing α} {m : KeyMap α} {key : α} {hnew : key ∉ m.keys}
    {hroom : m.keys.length < m.maxEntries} :
    (m.insert p key hnew hroom).keys.length = m.keys.length + 1 := by
  show (p.place m.keys key).length = _
  rw [(p.perm m.keys key).length_eq, List.length_cons]

/-- An update either finds the key, or takes an entry for it, or finds the map full. -/
theorem KeyMap.update_cases (p : Placing α) (m : KeyMap α) (key : α) :
    (key ∈ m.keys ∧ m.update p key = .ok m) ∨
      (∃ (hnew : key ∉ m.keys) (hroom : m.keys.length < m.maxEntries),
        m.update p key = .ok (m.insert p key hnew hroom)) ∨
      (key ∉ m.keys ∧ m.keys.length = m.maxEntries ∧ m.update p key = .error .e2big) := by
  by_cases hold : key ∈ m.keys
  · exact .inl ⟨hold, by rw [KeyMap.update, dif_pos hold]⟩
  by_cases hroom : m.keys.length < m.maxEntries
  · exact .inr (.inl ⟨hold, hroom, by rw [KeyMap.update, dif_neg hold, dif_pos hroom]⟩)
  · have hfull : m.keys.length = m.maxEntries := Nat.le_antisymm m.bounded (Nat.not_lt.mp hroom)
    exact .inr (.inr ⟨hold, hfull, by rw [KeyMap.update, dif_neg hold, dif_neg hroom]⟩)

/-- What is missing of the later keys is not changed by writing this one. -/
theorem KeyMap.missing_insert {p : Placing α} {m : KeyMap α} {key : α} {hnew : key ∉ m.keys}
    {hroom : m.keys.length < m.maxEntries} {keys : List α} (hkey : key ∉ keys) :
    (m.insert p key hnew hroom).missing keys = m.missing keys := by
  refine List.filter_congr fun x hx => ?_
  have hne : x ≠ key := fun he => hkey (he ▸ hx)
  simp [hne]

/-- The keys are written exactly when the map has room for the missing ones beside its own. -/
theorem updateKeys_ok_iff (p : Placing α) : ∀ {keys : List α} (m : KeyMap α), keys.Nodup →
    ((updateKeys p keys m).ok = true ↔ m.keys.length + (m.missing keys).length ≤ m.maxEntries) := by
  intro keys
  induction keys with
  | nil =>
      intro m _
      exact iff_of_true rfl m.bounded
  | cons key keys ih =>
      intro m hnodup
      obtain ⟨hkey, hkeys⟩ := List.nodup_cons.mp hnodup
      rcases m.update_cases p key with ⟨hold, h⟩ | ⟨hnew, hroom, h⟩ | ⟨hnew, hfull, h⟩
      · have hmissing : m.missing (key :: keys) = m.missing keys :=
          List.filter_cons_of_neg (by simpa using hold)
        rw [updateKeys, h, hmissing]
        exact ih m hkeys
      · have hmissing : m.missing (key :: keys) = key :: m.missing keys :=
          List.filter_cons_of_pos (by simpa using hnew)
        have hsame := ih (m.insert p key hnew hroom) hkeys
        rw [KeyMap.missing_insert hkey, KeyMap.length_insert] at hsame
        rw [updateKeys, h, hmissing, List.length_cons]
        refine hsame.trans ?_
        show _ ≤ m.maxEntries ↔ _
        omega
      · have hmissing : m.missing (key :: keys) = key :: m.missing keys :=
          List.filter_cons_of_pos (by simpa using hnew)
        rw [updateKeys, h, hmissing, List.length_cons]
        exact iff_of_false (by simp) (by omega)

/-- Writing removes nothing, adds desired keys only, and if it succeeds adds them all. -/
theorem updateKeys_keys (p : Placing α) : ∀ (keys : List α) (m : KeyMap α),
    (∀ m' ∈ (updateKeys p keys m).last :: (updateKeys p keys m).maps,
      (∀ x ∈ m.keys, x ∈ m'.keys) ∧ ∀ x ∈ m'.keys, x ∈ m.keys ∨ x ∈ keys) ∧
    ((updateKeys p keys m).ok = true → ∀ x ∈ keys, x ∈ (updateKeys p keys m).last.keys) := by
  intro keys
  induction keys with
  | nil =>
      intro m
      refine ⟨fun m' hm' => ?_, fun _ x hx => absurd hx List.not_mem_nil⟩
      obtain rfl := List.mem_singleton.mp hm'
      exact ⟨fun _ hx => hx, fun _ hx => .inl hx⟩
  | cons key keys ih =>
      intro m
      -- a write that succeeds leaves a map from which the rest goes on
      have hgo : ∀ m₁ : KeyMap α, m.update p key = .ok m₁ → (∀ x, x ∈ m₁.keys ↔ x = key ∨ x ∈ m.keys) →
          (∀ m' ∈ (updateKeys p (key :: keys) m).last :: (updateKeys p (key :: keys) m).maps,
            (∀ x ∈ m.keys, x ∈ m'.keys) ∧ ∀ x ∈ m'.keys, x ∈ m.keys ∨ x ∈ key :: keys) ∧
          ((updateKeys p (key :: keys) m).ok = true →
            ∀ x ∈ key :: keys, x ∈ (updateKeys p (key :: keys) m).last.keys) := by
        intro m₁ h hm₁
        obtain ⟨hmaps, hall⟩ := ih m₁
        rw [updateKeys, h]
        have hfrom : ∀ m' : KeyMap α, ((∀ x ∈ m₁.keys, x ∈ m'.keys) ∧
            ∀ x ∈ m'.keys, x ∈ m₁.keys ∨ x ∈ keys) →
            (∀ x ∈ m.keys, x ∈ m'.keys) ∧ ∀ x ∈ m'.keys, x ∈ m.keys ∨ x ∈ key :: keys := by
          rintro m' ⟨hkept, hadded⟩
          refine ⟨fun x hx => hkept x ((hm₁ x).mpr (.inr hx)), fun x hx => ?_⟩
          rcases hadded x hx with hx | hx
          · rcases (hm₁ x).mp hx with rfl | hx
            · exact .inr List.mem_cons_self
            · exact .inl hx
          · exact .inr (List.mem_cons_of_mem _ hx)
        refine ⟨fun m' hm' => ?_, fun hok x hx => ?_⟩
        · rcases List.mem_cons.mp hm' with rfl | hm'
          · exact hfrom _ (hmaps _ List.mem_cons_self)
          rcases List.mem_cons.mp hm' with rfl | hm'
          · exact hfrom _ ⟨fun _ hx => hx, fun _ hx => .inl hx⟩
          · exact hfrom _ (hmaps _ (List.mem_cons_of_mem _ hm'))
        · rcases List.mem_cons.mp hx with rfl | hx
          · exact (hmaps _ List.mem_cons_self).1 x ((hm₁ x).mpr (.inl rfl))
          · exact hall hok x hx
      rcases m.update_cases p key with ⟨hold, h⟩ | ⟨hnew, hroom, h⟩ | ⟨_, _, h⟩
      · exact hgo m h fun x => ⟨.inr, fun hx => hx.elim (fun he => he ▸ hold) id⟩
      · exact hgo _ h fun _ => KeyMap.mem_insert
      · rw [updateKeys, h]
        refine ⟨fun m' hm' => ?_, fun hok => (nomatch hok)⟩
        have hm : m' = m := by simpa using hm'
        rw [hm]
        exact ⟨fun _ hx => hx, fun _ hx => .inl hx⟩

/-! ## The walk -/

/-- After the last of the keys met so far come the others. -/
theorem KeyMap.keysAfter_getLast (m : KeyMap α) {seen rest : List α} (h : m.keys = seen ++ rest) :
    m.keysAfter seen.getLast? = rest := by
  rcases List.eq_nil_or_concat seen with rfl | ⟨seen, key, rfl⟩
  · exact h
  · rw [List.concat_eq_append] at h ⊢
    have hnodup := m.nodup
    rw [h, List.append_assoc, List.nodup_append] at hnodup
    have hmem : key ∈ m.keys := by simp [h]
    have hseen : ∀ x ∈ seen, x ≠ key := fun x hx => hnodup.2.2 x hx key (by simp)
    rw [List.getLast?_append, List.getLast?_singleton, Option.some_or, KeyMap.keysAfter,
      if_pos hmem, h, List.append_assoc, List.dropWhile_append_of_pos (by simpa using hseen)]
    simp

/-- The walk meets every key of the map, and ends. -/
theorem collectStale_eq (m : KeyMap α) (desired : List α) : ∀ {rest v stale : List α} {fuel : Nat},
    m.keys = v ++ rest → rest.length < fuel →
    collectStale m desired fuel v.getLast? stale =
      some (rest.foldl (fun stale next => if next ∈ desired then stale else addKey stale next)
        stale) := by
  intro rest
  induction rest with
  | nil =>
      intro v stale fuel h hfuel
      obtain ⟨fuel, rfl⟩ := Nat.exists_eq_succ_of_ne_zero (Nat.ne_of_gt hfuel)
      rw [collectStale, KeyMap.nextKey, m.keysAfter_getLast h]
      rfl
  | cons next rest ih =>
      intro v stale fuel h hfuel
      obtain ⟨fuel, rfl⟩ := Nat.exists_eq_succ_of_ne_zero (Nat.ne_of_gt (Nat.zero_lt_of_lt hfuel))
      have hrest : rest.length < fuel := by
        rw [List.length_cons] at hfuel
        omega
      have hlast : some next = (v ++ [next]).getLast? := by simp
      rw [collectStale, KeyMap.nextKey, m.keysAfter_getLast h, List.head?_cons]
      show collectStale m desired fuel (some next) _ = _
      rw [hlast]
      exact ih (by rw [h, List.append_assoc, List.singleton_append]) hrest

/-- What the walk collects. -/
theorem mem_foldl_stale {desired keys : List α} {x : α} : ∀ {stale : List α},
    x ∈ keys.foldl (fun stale next => if next ∈ desired then stale else addKey stale next) stale ↔
      x ∈ stale ∨ (x ∈ keys ∧ x ∉ desired) := by
  induction keys with
  | nil => simp
  | cons key keys ih =>
      intro stale
      rw [List.foldl_cons, ih]
      by_cases hkey : key ∈ desired
      · rw [if_pos hkey, List.mem_cons]
        have hne : x ∉ desired → x ≠ key := fun hx he => hx (he ▸ hkey)
        tauto
      · rw [if_neg hkey, mem_addKey, List.mem_cons]
        have he : key = x → x ∉ desired := fun he => he ▸ hkey
        have hcomm : key = x ↔ x = key := eq_comm
        tauto

theorem exists_collectStale (m : KeyMap α) (desired : List α) :
    ∃ stale, collectStale m desired (m.keys.length + 1) none [] = some stale ∧
      ∀ x, x ∈ stale ↔ x ∈ m.keys ∧ x ∉ desired := by
  refine ⟨_, collectStale_eq m desired (v := []) rfl (Nat.lt_succ_self _), fun x => ?_⟩
  rw [mem_foldl_stale]
  simp

/-! ## Deleting -/

/-- A deletion leaves the other keys, whether or not the key was there. -/
theorem deleteKeys_cons (key : α) (keys : List α) (m : KeyMap α) :
    ∃ m₁ : KeyMap α, (∀ x, x ∈ m₁.keys ↔ x ∈ m.keys ∧ x ≠ key) ∧
      deleteKeys (key :: keys) m = (deleteKeys keys m₁).after m₁ := by
  by_cases hold : key ∈ m.keys
  · refine ⟨_, fun x => ?_, by rw [deleteKeys, KeyMap.delete, if_pos hold]⟩
    show x ∈ m.keys.erase key ↔ _
    rw [m.nodup.mem_erase_iff, and_comm]
  · refine ⟨m, fun x => ⟨fun hx => ⟨hx, fun he => hold (he ▸ hx)⟩, And.left⟩, ?_⟩
    rw [deleteKeys, KeyMap.delete, if_neg hold]
    rfl

/-- Deleting succeeds, removes the given keys only, and all of them. -/
theorem deleteKeys_keys : ∀ (keys : List α) (m : KeyMap α),
    (deleteKeys keys m).ok = true ∧
    (∀ x, x ∈ (deleteKeys keys m).last.keys ↔ x ∈ m.keys ∧ x ∉ keys) ∧
    ∀ m' ∈ (deleteKeys keys m).maps, (∀ x ∈ m.keys, x ∉ keys → x ∈ m'.keys) ∧
      ∀ x ∈ m'.keys, x ∈ m.keys := by
  intro keys
  induction keys with
  | nil =>
      intro m
      exact ⟨rfl, fun x => by simp [deleteKeys], fun m' hm' => (nomatch hm')⟩
  | cons key keys ih =>
      intro m
      obtain ⟨m₁, hm₁, h⟩ := deleteKeys_cons key keys m
      obtain ⟨hok, hlast, hmaps⟩ := ih m₁
      rw [h]
      refine ⟨hok, fun x => ?_, fun m' hm' => ?_⟩
      · show x ∈ (deleteKeys keys m₁).last.keys ↔ _
        rw [hlast, hm₁, List.mem_cons, not_or, and_assoc]
      · rcases List.mem_cons.mp hm' with rfl | hm'
        · exact ⟨fun x hx hn => (hm₁ x).mpr ⟨hx, fun he => hn (he ▸ List.mem_cons_self)⟩,
            fun x hx => ((hm₁ x).mp hx).1⟩
        · obtain ⟨hkept, honly⟩ := hmaps m' hm'
          refine ⟨fun x hx hn => hkept x ((hm₁ x).mpr ⟨hx, ?_⟩) ?_, fun x hx => ?_⟩
          · exact fun he => hn (he ▸ List.mem_cons_self)
          · exact fun hk => hn (List.mem_cons_of_mem _ hk)
          · exact ((hm₁ x).mp (honly x hx)).1

/-! ## The whole call -/

/-- The call succeeds and leaves exactly the desired keys. -/
def LeavesDesired (p : Placing α) (m : KeyMap α) (desired : KeySet α) : Prop :=
  ∃ r, syncMapKeys p m desired = some r ∧ r.ok = true ∧ ∀ x, x ∈ r.last.keys ↔ x ∈ desired.keys

/-- The call ends, and each map on the way lies between the old keys and the desired ones. -/
def StaysBetween (p : Placing α) (m : KeyMap α) (desired : KeySet α) : Prop :=
  ∃ r, syncMapKeys p m desired = some r ∧ ∀ m' ∈ r.maps, m'.Between m.keys desired.keys

omit [DecidableEq α] in
/-- The keys of all three kinds fit the buffer. -/
theorem KeySet.keySize_le (desired : KeySet α) : ¬lpm6KeySize < desired.keySize := by
  rcases desired.known with h | h | h <;> rw [h] <;> decide

/-- The call after its first loop. -/
theorem syncMapKeys_of_written {p : Placing α} {m : KeyMap α} {desired : KeySet α}
    (hok : (updateKeys p desired.keys m).ok = true) :
    ∃ stale, (∀ x, x ∈ stale ↔
        x ∈ (updateKeys p desired.keys m).last.keys ∧ x ∉ desired.keys) ∧
      syncMapKeys p m desired = some ((updateKeys p desired.keys m).andThen
        (deleteKeys stale (updateKeys p desired.keys m).last)) := by
  obtain ⟨stale, hstale, hmem⟩ :=
    exists_collectStale (updateKeys p desired.keys m).last desired.keys
  refine ⟨stale, hmem, ?_⟩
  simp only [syncMapKeys, hok, Bool.not_true, Bool.false_eq_true, if_false, desired.keySize_le,
    hstale]

/-- Nothing wanted is ever missing on the way, whether or not the call succeeds. -/
theorem staysBetween (p : Placing α) (m : KeyMap α) (desired : KeySet α) :
    StaysBetween p m desired := by
  obtain ⟨hmaps, hall⟩ := updateKeys_keys p desired.keys m
  by_cases hok : (updateKeys p desired.keys m).ok = true
  · obtain ⟨stale, hstale, h⟩ := syncMapKeys_of_written hok
    refine ⟨_, h, fun m' hm' => ?_⟩
    rcases List.mem_append.mp hm' with hm' | hm'
    · obtain ⟨hkept, hadded⟩ := hmaps m' (List.mem_cons_of_mem _ hm')
      exact ⟨fun x hx _ => hkept x hx, hadded⟩
    · obtain ⟨_, _, hdeleted⟩ := deleteKeys_keys stale (updateKeys p desired.keys m).last
      obtain ⟨hkept, honly⟩ := hdeleted m' hm'
      refine ⟨fun x _ hx => hkept x (hall hok x hx) fun hs => ((hstale x).mp hs).2 hx, ?_⟩
      exact fun x hx => (hmaps _ List.mem_cons_self).2 x (honly x hx)
  · refine ⟨updateKeys p desired.keys m, by simp [syncMapKeys, hok], fun m' hm' => ?_⟩
    obtain ⟨hkept, hadded⟩ := hmaps m' (List.mem_cons_of_mem _ hm')
    exact ⟨fun x hx _ => hkept x hx, hadded⟩

/-- **When the map is made to hold the desired keys.**  The call succeeds and leaves exactly them,
with every map on the way between the old keys and the new ones, if and only if the map has room for
the missing keys beside all those it holds. -/
theorem leavesDesired_iff (p : Placing α) (m : KeyMap α) (desired : KeySet α) :
    (LeavesDesired p m desired ∧ StaysBetween p m desired) ↔
      m.keys.length + (m.missing desired.keys).length ≤ m.maxEntries := by
  rw [← updateKeys_ok_iff p m desired.nodup]
  constructor
  · rintro ⟨⟨r, hr, hok, _⟩, _⟩
    by_contra hn
    have h : syncMapKeys p m desired = some (updateKeys p desired.keys m) := by
      simp [syncMapKeys, hn]
    rw [h] at hr
    exact hn ((Option.some.inj hr) ▸ hok)
  · intro hok
    refine ⟨?_, staysBetween p m desired⟩
    obtain ⟨stale, hstale, h⟩ := syncMapKeys_of_written hok
    obtain ⟨hdeleted, hlast, _⟩ := deleteKeys_keys stale (updateKeys p desired.keys m).last
    refine ⟨_, h, hdeleted, fun x => ?_⟩
    show x ∈ (deleteKeys stale _).last.keys ↔ _
    have hall := (updateKeys_keys p desired.keys m).2 hok x
    rw [hlast, hstale]
    tauto

/-- The map of ignored interfaces, with an entry for each of the interfaces 1 to 64. -/
def fullMap : KeyMap Nat :=
  ⟨maxInterfaces, List.range' 1 maxInterfaces, List.nodup_range', by simp⟩

/-- The one interface that is to be ignored from now on. -/
def otherKey : KeySet Nat := ⟨4, [65], by decide, by decide⟩

/-- The one desired key fits the map, but not beside the stale ones. -/
theorem full_map_not_synced : ¬∀ (p : Placing Nat) (m : KeyMap Nat) (desired : KeySet Nat),
    desired.keys.length ≤ m.maxEntries → LeavesDesired p m desired ∧ StaysBetween p m desired := by
  intro hall
  obtain ⟨⟨r, hr, hok, _⟩, _⟩ := hall (Placing.front Nat) fullMap otherKey (by decide)
  have h : syncMapKeys (Placing.front Nat) fullMap otherKey = some ⟨false, [fullMap], fullMap⟩ := by
    decide
  rw [h] at hr
  obtain rfl := Option.some.inj hr
  cases hok

end Bpf2Socks.Interfaces

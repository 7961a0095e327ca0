/-
# Bpf2Socks.Interfaces.Policy — ignored interfaces, and which netlink messages matter.

The policy thread keeps three sets in maps: the indices of the interfaces that match a selector, and
the prefixes of the unicast routes through them, in both families.  A full refresh computes them from
the links and the routes of the system.  Between refreshes a message on the netlink socket is looked
at by itself, and the sets are refreshed only if it mentions an ignored interface.

A route is given as the kernel announces it, by its `rtmsg` and its attributes.  A route that takes
another's place is announced alone: nothing says which interface the old one went through.
-/
import Bpf2Socks.Cgroup.Machine
import Mathlib.Algebra.Group.Nat.Defs

namespace Bpf2Socks.Interfaces

open Cgroup (Byte joinBytes swap32)

/-! ## Selectors -/

/-- `BPF2SOCKS_MAX_INTERFACES`. -/
def maxInterfaces : Nat := 64
/-- `BPF2SOCKS_MAX_INTERFACE_NAME_LEN`. -/
def maxInterfaceNameLen : Nat := 32

/-- A C string, without its terminator. -/
abbrev Name := List Char

/-- `interface_selector_bounded_length`. -/
def boundedLength (text : Name) : Nat := min text.length maxInterfaceNameLen

/-- `bpf2socks_interface_matches_selector`. -/
def matchesSelector (name selector : Name) : Bool :=
  let length := boundedLength selector
  if length = 0 ∨ maxInterfaceNameLen ≤ length then false
  else if selector[length - 1]? = some '+' then
    decide (1 < length ∧ name.take (length - 1) = selector.take (length - 1))
  else decide (name = selector)

/-- `interface_name_ignored`. -/
def nameIgnored (selectors : List Name) (name : Name) : Bool :=
  (selectors.take maxInterfaces).any (matchesSelector name)

/-! ## Links and routes -/

/-- A link: its index is a positive `int`. -/
structure Link where
  index : Nat
  name : Name
  positive : 0 < index
  bounded : index < 2 ^ 31
  deriving DecidableEq

inductive Family where
  | inet
  | inet6
  | other
  deriving DecidableEq

inductive AttrType where
  | oif
  | dst
  | other
  deriving DecidableEq

/-- `struct rtattr` with its payload. -/
structure Attr where
  type : AttrType
  data : List Byte
  deriving DecidableEq

/-- A route, as `struct rtmsg` and its attributes announce it. -/
structure Route where
  family : Family
  /-- `rtm_type == RTN_UNICAST`. -/
  unicast : Bool
  dstLen : Nat
  attrs : List Attr
  deriving DecidableEq

/-- The links and the routes of the system. -/
structure System where
  links : List Link
  routes : List Route

/-- A `memcpy` of four bytes. -/
def wordOf (data : List Byte) : BitVec 32 := (joinBytes (data.take 4)).setWidth 32

/-- `route_output_ifindex`: the last attribute counts, and zero stands for none. -/
def routeOutputIfindex (r : Route) : Int :=
  r.attrs.foldl (fun oif a => if a.type = .oif ∧ 4 ≤ a.data.length then (wordOf a.data).toInt else oif)
    0

/-- The IPv4 destination of a route. -/
def routeDst4 (r : Route) : BitVec 32 :=
  r.attrs.foldl (fun dst a => if a.type = .dst ∧ 4 ≤ a.data.length then wordOf a.data else dst) 0

/-- The IPv6 destination of a route. -/
def routeDst6 (r : Route) : List Byte :=
  r.attrs.foldl (fun dst a => if a.type = .dst ∧ 16 ≤ a.data.length then a.data.take 16 else dst)
    (List.replicate 16 0)

/-- `mask_ipv4_route_addr`. -/
def maskIpv4RouteAddr (addr : BitVec 32) (len : Nat) : BitVec 32 :=
  if len = 0 then 0
  else if 32 ≤ len then addr
  else swap32 (swap32 addr &&& (0xffffffff : BitVec 32) <<< (32 - len))

/-- `mask_ipv6_route_addr`. -/
def maskIpv6RouteAddr (addr : List Byte) (len : Nat) : List Byte :=
  if 128 ≤ len then addr
  else
    let fullBytes := len / 8
    let restBits := len % 8
    if restBits = 0 then addr.take fullBytes ++ List.replicate (16 - fullBytes) 0
    else
      addr.take fullBytes ++
        (addr.getD fullBytes 0 &&& (0xff : Byte) <<< (8 - restBits)) ::
          List.replicate (16 - fullBytes - 1) 0

/-- `struct bpf2socks_lpm4_key` and `struct bpf2socks_lpm6_key`. -/
inductive Key where
  | v4 (prefixlen : Nat) (addr : BitVec 32)
  | v6 (prefixlen : Nat) (addr : List Byte)
  deriving DecidableEq

/-! ## The refresh -/

/-- `key_set_add`. -/
def addKey {α : Type} [DecidableEq α] (set : List α) (key : α) : List α :=
  if key ∈ set then set else set ++ [key]

/-- `ifindex_ignored`. -/
def ifindexIgnored (ignored : List Nat) (ifindex : Int) : Bool :=
  if ifindex ≤ 0 then false else decide (ifindex.toNat ∈ ignored)

/-- The set `refresh_ignored_ifindices` computes. -/
def ignoredIfindices (selectors : List Name) (sys : System) : List Nat :=
  sys.links.foldl (fun set l => if nameIgnored selectors l.name then addKey set l.index else set) []

/-- The key `collect_ignored_route` adds, if it adds one. -/
def ignoredRouteKey (ignored : List Nat) (r : Route) : Option Key :=
  if !r.unicast then none
  else
    match r.family with
    | .inet =>
        if 32 < r.dstLen then none
        else if !ifindexIgnored ignored (routeOutputIfindex r) then none
        else some (.v4 r.dstLen (maskIpv4RouteAddr (routeDst4 r) r.dstLen))
    | .inet6 =>
        if 128 < r.dstLen then none
        else if !ifindexIgnored ignored (routeOutputIfindex r) then none
        else some (.v6 r.dstLen (maskIpv6RouteAddr (routeDst6 r) r.dstLen))
    | .other => none

/-- `collect_ignored_route`. -/
def collectIgnoredRoute (ignored : List Nat) (routes : List Key) (r : Route) : List Key :=
  match ignoredRouteKey ignored r with
  | none => routes
  | some key => addKey routes key

/-- The set `dump_ignored_routes_family` computes: the kernel dumps the routes of one family. -/
def ignoredRoutes (ignored : List Nat) (family : Family) (sys : System) : List Key :=
  (sys.routes.filter fun r => r.family = family).foldl (collectIgnoredRoute ignored) []

/-- What the policy thread keeps. -/
structure Runtime where
  selectors : List Name
  /-- `ignored_ifindices`. -/
  ignored : List Nat
  ifindexMap : List Nat
  routes4 : List Key
  routes6 : List Key

/-- The maps, and `ignored_ifindices`, hold what a full refresh would compute. -/
structure InSync (rt : Runtime) (sys : System) : Prop where
  ignored : ∀ i, i ∈ rt.ignored ↔ i ∈ ignoredIfindices rt.selectors sys
  ifindexMap : ∀ i, i ∈ rt.ifindexMap ↔ i ∈ ignoredIfindices rt.selectors sys
  routes4 : ∀ k, k ∈ rt.routes4 ↔ k ∈ ignoredRoutes (ignoredIfindices rt.selectors sys) .inet sys
  routes6 : ∀ k, k ∈ rt.routes6 ↔ k ∈ ignoredRoutes (ignoredIfindices rt.selectors sys) .inet6 sys

/-! ## Messages -/

/-- Messages on the netlink socket; a link message may lack a usable `IFLA_IFNAME`. -/
inductive Message where
  | newLink (index : Int) (name : Option Name)
  | delLink (index : Int) (name : Option Name)
  | newRoute (r : Route)
  | delRoute (r : Route)

/-- `struct interface_policy_changes`. -/
structure Changes where
  links : Bool
  routes : Bool
  deriving DecidableEq

/-- A link message mentions an ignored interface, or a name that is to be ignored. -/
def linkMatters (rt : Runtime) (index : Int) (name : Option Name) : Bool :=
  ifindexIgnored rt.ignored index || (name.map (nameIgnored rt.selectors)).getD false

/-- `note_interface_policy_message`. -/
def noteInterfacePolicyMessage (rt : Runtime) (m : Message) (changes : Changes) : Changes :=
  match m with
  | .newLink index name | .delLink index name =>
      if linkMatters rt index name then { changes with links := true } else changes
  | .newRoute r | .delRoute r =>
      if ifindexIgnored rt.ignored (routeOutputIfindex r) then { changes with routes := true }
      else changes

/-- One change of the system. -/
inductive Change where
  | addLink (l : Link)
  | renameLink (l : Link) (name : Name)
  | delLink (l : Link)
  | addRoute (r : Route)
  | delRoute (r : Route)
  | replaceRoute (old new : Route)

/-- The message that announces a change. -/
def Change.message : Change → Message
  | .addLink l => .newLink l.index (some l.name)
  | .renameLink l name => .newLink l.index (some name)
  | .delLink l => .delLink l.index (some l.name)
  | .addRoute r => .newRoute r
  | .delRoute r => .delRoute r
  | .replaceRoute _ new => .newRoute new

def Link.rename (l : Link) (name : Name) : Link := { l with name := name }

/-- The system after a change. -/
def System.apply (sys : System) : Change → System
  | .addLink l => { sys with links := l :: sys.links }
  | .renameLink l name =>
      { sys with links := sys.links.map fun x => if x.index = l.index then x.rename name else x }
  | .delLink l => { sys with links := sys.links.filter fun x => x.index ≠ l.index }
  | .addRoute r => { sys with routes := r :: sys.routes }
  | .delRoute r => { sys with routes := sys.routes.erase r }
  | .replaceRoute old new => { sys with routes := new :: sys.routes.erase old }

/-- What is deleted or replaced is there, and routes are unicast. -/
def Change.Valid (sys : System) : Change → Prop
  | .addLink l => ∀ x ∈ sys.links, x.index ≠ l.index
  | .renameLink l _ => l ∈ sys.links
  | .delLink l => l ∈ sys.links
  | .addRoute r => r.unicast = true
  | .delRoute r => r ∈ sys.routes ∧ r.unicast = true
  | .replaceRoute old new => old ∈ sys.routes ∧ old.unicast = true ∧ new.unicast = true

/-! ## What is in the sets -/

theorem mem_addKey {α : Type} [DecidableEq α] {set : List α} {key x : α} :
    x ∈ addKey set key ↔ x ∈ set ∨ key = x := by
  rw [addKey]
  split
  · rename_i h
    exact ⟨.inl, fun hx => hx.elim id fun he => he ▸ h⟩
  · simp [eq_comm]

theorem mem_ignoredIfindices {selectors : List Name} {sys : System} {i : Nat} :
    i ∈ ignoredIfindices selectors sys ↔
      ∃ l ∈ sys.links, nameIgnored selectors l.name = true ∧ l.index = i := by
  have hfold : ∀ (links : List Link) (set : List Nat),
      i ∈ links.foldl (fun set l => if nameIgnored selectors l.name then addKey set l.index else set)
        set ↔ i ∈ set ∨ ∃ l ∈ links, nameIgnored selectors l.name = true ∧ l.index = i := by
    intro links
    induction links with
    | nil => simp
    | cons l links ih =>
        intro set
        rw [List.foldl_cons, ih]
        by_cases hl : nameIgnored selectors l.name
        · simp only [hl, if_true, mem_addKey, List.mem_cons, exists_eq_or_imp, true_and, or_assoc]
        · simp [hl]
  rw [ignoredIfindices, hfold]
  simp

theorem mem_ignoredRoutes {ignored : List Nat} {family : Family} {sys : System} {k : Key} :
    k ∈ ignoredRoutes ignored family sys ↔
      ∃ r ∈ sys.routes, r.family = family ∧ ignoredRouteKey ignored r = some k := by
  have hfold : ∀ (routes : List Route) (set : List Key),
      k ∈ routes.foldl (collectIgnoredRoute ignored) set ↔
        k ∈ set ∨ ∃ r ∈ routes, ignoredRouteKey ignored r = some k := by
    intro routes
    induction routes with
    | nil => simp
    | cons r routes ih =>
        intro set
        rw [List.foldl_cons, ih, collectIgnoredRoute]
        rcases hr : ignoredRouteKey ignored r with _ | key
        · simp [hr]
        · simp only [mem_addKey, List.mem_cons, exists_eq_or_imp, hr, Option.some.injEq, or_assoc]
  rw [ignoredRoutes, hfold]
  simp [and_assoc]

/-- Only the members of the ignored set matter. -/
theorem ifindexIgnored_congr {a b : List Nat} (h : ∀ i, i ∈ a ↔ i ∈ b) (i : Int) :
    ifindexIgnored a i = ifindexIgnored b i := by
  simp only [ifindexIgnored, h]

theorem ignoredRouteKey_congr {a b : List Nat} (h : ∀ i, i ∈ a ↔ i ∈ b) (r : Route) :
    ignoredRouteKey a r = ignoredRouteKey b r := by
  simp only [ignoredRouteKey, ifindexIgnored_congr h]

/-- A route that gives a key goes through an ignored interface. -/
theorem ifindexIgnored_of_key {ignored : List Nat} {r : Route} {k : Key}
    (h : ignoredRouteKey ignored r = some k) :
    ifindexIgnored ignored (routeOutputIfindex r) = true := by
  by_contra hn
  rw [Bool.not_eq_true] at hn
  rw [ignoredRouteKey] at h
  split at h
  · cases h
  · split at h
    all_goals first | cases h | (split at h <;> simp [hn] at h)

/-- The keys of one family come from its routes. -/
def keyFamily : Key → Family
  | .v4 _ _ => .inet
  | .v6 _ _ => .inet6

theorem family_of_key {ignored : List Nat} {r : Route} {k : Key}
    (h : ignoredRouteKey ignored r = some k) : r.family = keyFamily k := by
  rw [ignoredRouteKey] at h
  split at h
  · cases h
  · split at h
    · split at h
      · cases h
      · split at h <;> cases h
        assumption
    · split at h
      · cases h
      · split at h <;> cases h
        assumption
    · cases h

/-! ## Messages that matter -/

section Changes

variable {rt : Runtime} {sys sys' : System}

theorem ifindexIgnored_link (ignored : List Nat) (l : Link) :
    ifindexIgnored ignored (l.index : Int) = decide (l.index ∈ ignored) := by
  have := l.positive
  rw [ifindexIgnored, if_neg (by omega), Int.toNat_natCast]

/-- The sets are those of another system with the same ignored interfaces and the same keys. -/
theorem InSync.of_same (h : InSync rt sys)
    (hlinks : ∀ i, i ∈ ignoredIfindices rt.selectors sys' ↔ i ∈ ignoredIfindices rt.selectors sys)
    (hkeys : ∀ k, (∃ r ∈ sys'.routes, ignoredRouteKey rt.ignored r = some k) ↔
      ∃ r ∈ sys.routes, ignoredRouteKey rt.ignored r = some k) : InSync rt sys' := by
  have hroutes : ∀ family k, k ∈ ignoredRoutes (ignoredIfindices rt.selectors sys') family sys' ↔
      k ∈ ignoredRoutes (ignoredIfindices rt.selectors sys) family sys := by
    intro family k
    have hsame : ∀ r, ignoredRouteKey (ignoredIfindices rt.selectors sys') r =
        ignoredRouteKey rt.ignored r :=
      fun r => ignoredRouteKey_congr (fun i => (hlinks i).trans (h.ignored i).symm) r
    have hsame' : ∀ r, ignoredRouteKey (ignoredIfindices rt.selectors sys) r =
        ignoredRouteKey rt.ignored r :=
      fun r => ignoredRouteKey_congr (fun i => (h.ignored i).symm) r
    simp only [mem_ignoredRoutes, hsame, hsame']
    constructor
    · rintro ⟨r, hr, hf, hk⟩
      obtain ⟨r', hr', hk'⟩ := (hkeys k).mp ⟨r, hr, hk⟩
      exact ⟨r', hr', (family_of_key hk').trans ((family_of_key hk).symm.trans hf), hk'⟩
    · rintro ⟨r, hr, hf, hk⟩
      obtain ⟨r', hr', hk'⟩ := (hkeys k).mpr ⟨r, hr, hk⟩
      exact ⟨r', hr', (family_of_key hk').trans ((family_of_key hk).symm.trans hf), hk'⟩
  exact ⟨fun i => (h.ignored i).trans (hlinks i).symm, fun i => (h.ifindexMap i).trans (hlinks i).symm,
    fun k => (h.routes4 k).trans (hroutes .inet k).symm,
    fun k => (h.routes6 k).trans (hroutes .inet6 k).symm⟩

/-- A link that was not ignored and is not to be ignored. -/
theorem not_linkMatters {index : Int} {name : Name} (h : linkMatters rt index (some name) = false) :
    ifindexIgnored rt.ignored index = false ∧ nameIgnored rt.selectors name = false := by
  simpa [linkMatters] using h

/-- The links change, and no message was due. -/
theorem InSync.links (h : InSync rt sys) {l : Link} {name : Name}
    (hm : linkMatters rt l.index (some name) = false) (hroutes : sys'.routes = sys.routes)
    (hnew : ∀ x ∈ sys'.links, x ∈ sys.links ∨ (x.index = l.index ∧ x.name = name))
    (hold : ∀ x ∈ sys.links, x.index ≠ l.index → x ∈ sys'.links) : InSync rt sys' := by
  obtain ⟨hindex, hname⟩ := not_linkMatters hm
  rw [ifindexIgnored_link, decide_eq_false_iff_not] at hindex
  refine h.of_same (fun i => ?_) fun k => by rw [hroutes]
  rw [mem_ignoredIfindices, mem_ignoredIfindices]
  constructor
  · rintro ⟨x, hx, hn, hi⟩
    rcases hnew x hx with hx | ⟨_, hxn⟩
    · exact ⟨x, hx, hn, hi⟩
    · rw [hxn, hname] at hn
      cases hn
  · rintro ⟨x, hx, hn, hi⟩
    refine ⟨x, hold x hx fun he => hindex ?_, hn, hi⟩
    rw [h.ignored, mem_ignoredIfindices]
    exact ⟨x, hx, hn, he⟩

/-- No route that gives a key is mentioned. -/
theorem key_none {r : Route} (h : ifindexIgnored rt.ignored (routeOutputIfindex r) = false) (k : Key) :
    ignoredRouteKey rt.ignored r ≠ some k := by
  intro hk
  rw [ifindexIgnored_of_key hk] at h
  cases h

/-- A route takes the place of the last ignored route of a prefix, and goes elsewhere. -/
def LosesLast (rt : Runtime) (sys : System) (c : Change) : Prop :=
  ∃ old new k, c = .replaceRoute old new ∧
    ifindexIgnored rt.ignored (routeOutputIfindex new) = false ∧
    ignoredRouteKey rt.ignored old = some k ∧
    ∀ r ∈ sys.routes.erase old, ignoredRouteKey rt.ignored r ≠ some k

/-- The message leaves both flags clear. -/
def Unnoticed (rt : Runtime) (c : Change) : Prop :=
  noteInterfacePolicyMessage rt c.message ⟨false, false⟩ = ⟨false, false⟩

theorem Unnoticed.link {index : Int} {name : Name} {changes : Changes}
    (h : (if linkMatters rt index (some name) then { changes with links := true } else changes) =
      changes) (hc : changes.links = false) : linkMatters rt index (some name) = false := by
  by_contra hm
  rw [Bool.not_eq_false] at hm
  rw [if_pos hm] at h
  rw [← h] at hc
  cases hc

theorem Unnoticed.route {r : Route} {changes : Changes}
    (h : (if ifindexIgnored rt.ignored (routeOutputIfindex r) then { changes with routes := true }
      else changes) = changes) (hc : changes.routes = false) :
    ifindexIgnored rt.ignored (routeOutputIfindex r) = false := by
  by_contra hm
  rw [Bool.not_eq_false] at hm
  rw [if_pos hm] at h
  rw [← h] at hc
  cases hc

/-- In two systems that are both in sync the same keys are given. -/
theorem InSync.keys_iff (h : InSync rt sys) (h' : InSync rt sys') (k : Key) :
    (∃ r ∈ sys'.routes, ignoredRouteKey rt.ignored r = some k) ↔
      ∃ r ∈ sys.routes, ignoredRouteKey rt.ignored r = some k := by
  have hmem : ∀ {s : System} (hs : InSync rt s), (∃ r ∈ s.routes, ignoredRouteKey rt.ignored r = some k) ↔
      k ∈ ignoredRoutes (ignoredIfindices rt.selectors s) (keyFamily k) s := by
    intro s hs
    rw [mem_ignoredRoutes]
    simp only [ignoredRouteKey_congr fun i => (hs.ignored i).symm]
    exact ⟨fun ⟨r, hr, hk⟩ => ⟨r, hr, family_of_key hk, hk⟩, fun ⟨r, hr, _, hk⟩ => ⟨r, hr, hk⟩⟩
  rw [hmem h, hmem h']
  cases k with
  | v4 len addr => exact (h'.routes4 _).symm.trans (h.routes4 _)
  | v6 len addr => exact (h'.routes6 _).symm.trans (h.routes6 _)

/-- **Which changes go unnoticed.**  In sync, a change whose message leaves both flags clear leaves
the sets as a full refresh would compute them, unless a route replaces the last route of a prefix
through an ignored interface and goes through another. -/
theorem unnoticed_inSync_iff (rt : Runtime) (sys : System) (c : Change) (h : InSync rt sys)
    (hv : c.Valid sys) :
    (Unnoticed rt c → InSync rt (sys.apply c)) ↔ ¬LosesLast rt sys c := by
  constructor
  · rintro hsync ⟨old, new, k, rfl, hnew, hold, hlast⟩
    have hunnoticed : Unnoticed rt (.replaceRoute old new) := by
      simp [Unnoticed, Change.message, noteInterfacePolicyMessage, hnew]
    obtain ⟨r, hr, hk⟩ := ((h.keys_iff (hsync hunnoticed)) k).mpr ⟨old, hv.1, hold⟩
    rcases List.mem_cons.mp hr with rfl | hr
    · exact key_none hnew k hk
    · exact hlast r hr hk
  · intro hlast hu
    cases c with
    | addLink l =>
        refine h.links (Unnoticed.link hu rfl) rfl (fun x hx => ?_) fun x hx _ =>
          List.mem_cons_of_mem _ hx
        rcases List.mem_cons.mp hx with rfl | hx
        · exact .inr ⟨rfl, rfl⟩
        · exact .inl hx
    | renameLink l name =>
        refine h.links (Unnoticed.link hu rfl) rfl (fun x hx => ?_) fun x hx hne =>
          List.mem_map.mpr ⟨x, hx, if_neg hne⟩
        obtain ⟨y, hy, rfl⟩ := List.mem_map.mp hx
        by_cases hi : y.index = l.index
        · rw [if_pos hi]
          exact .inr ⟨hi, rfl⟩
        · rw [if_neg hi]
          exact .inl hy
    | delLink l =>
        exact h.links (Unnoticed.link hu rfl) rfl (fun x hx => .inl (List.mem_filter.mp hx).1)
          fun x hx hne => List.mem_filter.mpr ⟨hx, by simpa using hne⟩
    | addRoute r =>
        have hr := key_none (Unnoticed.route hu rfl)
        refine h.of_same (fun _ => Iff.rfl) fun k => ?_
        constructor
        · rintro ⟨x, hx, hk⟩
          rcases List.mem_cons.mp hx with rfl | hx
          · exact (hr k hk).elim
          · exact ⟨x, hx, hk⟩
        · rintro ⟨x, hx, hk⟩
          exact ⟨x, List.mem_cons_of_mem _ hx, hk⟩
    | delRoute r =>
        have hr := key_none (Unnoticed.route hu rfl)
        refine h.of_same (fun _ => Iff.rfl) fun k => ?_
        constructor
        · rintro ⟨x, hx, hk⟩
          exact ⟨x, List.mem_of_mem_erase hx, hk⟩
        · rintro ⟨x, hx, hk⟩
          have hne : x ≠ r := by
            rintro rfl
            exact hr k hk
          exact ⟨x, (List.mem_erase_of_ne hne).mpr hx, hk⟩
    | replaceRoute old new =>
        have hnew := Unnoticed.route hu rfl
        refine h.of_same (fun _ => Iff.rfl) fun k => ?_
        constructor
        · rintro ⟨x, hx, hk⟩
          rcases List.mem_cons.mp hx with rfl | hx
          · exact (key_none hnew k hk).elim
          · exact ⟨x, List.mem_of_mem_erase hx, hk⟩
        · rintro ⟨x, hx, hk⟩
          by_cases hxo : x = old
          · subst hxo
            -- some other route has the same prefix, or this was the last
            by_contra hn
            refine hlast ⟨x, new, k, rfl, hnew, hk, fun r hr hrk => hn ⟨r, ?_, hrk⟩⟩
            exact List.mem_cons_of_mem _ hr
          · exact ⟨x, List.mem_cons_of_mem _ ((List.mem_erase_of_ne hxo).mpr hx), hk⟩

end Changes

/-! ## A replaced route -/

/-- `wlan0`, index 5, is ignored; `eth0`, index 2, is not. -/
def twoLinks : List Link :=
  [⟨5, ['w', 'l', 'a', 'n', '0'], by decide, by decide⟩,
    ⟨2, ['e', 't', 'h', '0'], by decide, by decide⟩]

/-- A route to `10.0.0.0/8` through an interface. -/
def tenNet (oif : Byte) : Route where
  family := .inet
  unicast := true
  dstLen := 8
  attrs := [⟨.dst, [10, 0, 0, 0]⟩, ⟨.oif, [oif, 0, 0, 0]⟩]

def wlanRuntime : Runtime where
  selectors := [['w', 'l', 'a', 'n', '+']]
  ignored := [5]
  ifindexMap := [5]
  routes4 := [.v4 8 10]
  routes6 := []

theorem wlanRuntime_inSync : InSync wlanRuntime ⟨twoLinks, [tenNet 5]⟩ := by
  have h1 : ignoredIfindices wlanRuntime.selectors ⟨twoLinks, [tenNet 5]⟩ = [5] := by decide
  have h4 : ignoredRoutes [5] .inet ⟨twoLinks, [tenNet 5]⟩ = [.v4 8 10] := by decide
  have h6 : ignoredRoutes [5] .inet6 ⟨twoLinks, [tenNet 5]⟩ = [] := by decide
  refine ⟨fun i => ?_, fun i => ?_, fun k => ?_, fun k => ?_⟩ <;> rw [h1]
  · rfl
  · rfl
  · rw [h4]
    rfl
  · rw [h6]
    rfl

/-- The route moves from `wlan0` to `eth0`, nothing is flagged, and the prefix stays in the map. -/
theorem replaced_route_unnoticed : ¬∀ (rt : Runtime) (sys : System) (c : Change), InSync rt sys →
    c.Valid sys → Unnoticed rt c → InSync rt (sys.apply c) := by
  intro hall
  have h := hall wlanRuntime ⟨twoLinks, [tenNet 5]⟩ (.replaceRoute (tenNet 5) (tenNet 2))
    wlanRuntime_inSync ⟨by decide, rfl, rfl⟩ (by unfold Unnoticed; decide)
  have hk := (h.routes4 (.v4 8 10)).mp (by decide)
  revert hk
  decide

/-- `eth0` goes away, which is not flagged and changes nothing. -/
theorem inSync_deleted_link :
    InSync wlanRuntime (System.apply ⟨twoLinks, [tenNet 5]⟩ (.delLink ⟨2, ['e', 't', 'h', '0'],
      by decide, by decide⟩)) :=
  (unnoticed_inSync_iff wlanRuntime ⟨twoLinks, [tenNet 5]⟩ (.delLink ⟨2, ['e', 't', 'h', '0'],
    by decide, by decide⟩) wlanRuntime_inSync (by unfold Change.Valid; decide)).mpr
    (by rintro ⟨_, _, _, h, _⟩; cases h) (by unfold Unnoticed; decide)

end Bpf2Socks.Interfaces

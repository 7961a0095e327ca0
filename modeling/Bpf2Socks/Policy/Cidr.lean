/-
# Bpf2Socks.Policy.Cidr — prefixes written as text, and the tables they are loaded into.

A line may hold a prefix, with blanks around it and a comment after it.  It is trimmed, cut at the
comment mark and split at the slash; the prefix length is read by `strtoul`, the address by
`inet_pton`, and the host bits are cleared.  A key that the table covers already is not stored.

`inet_pton` is not part of the program: it is given by what it reads, with what its manual says of
the texts it takes.  Whether the kernel takes another entry into a table is left open, too.
-/
import Bpf2Socks.Interfaces.Policy
import Bpf2Socks.Lib.Lpm
import Bpf2Socks.Lib.Text
import Mathlib

namespace Bpf2Socks.Policy

open Interfaces (Family)
open Lib (Lpm Prefix trim Trimmed before bitsOf)

/-! ## Characters and numbers -/

/-- A C string, without its terminator. -/
abbrev Text := List UInt8

/-- `'/'`. -/
def slash : UInt8 := 47
/-- `'#'`. -/
def hash : UInt8 := 35
/-- `'+'`. -/
def plus : UInt8 := 43
/-- `'-'`. -/
def minus : UInt8 := 45

/-- `isspace`. -/
def isSpace (b : UInt8) : Bool := b == 32 || (9 ≤ b && b ≤ 13)

/-- `isdigit`. -/
def isDigit (b : UInt8) : Bool := 48 ≤ b && b ≤ 57

/-- The characters of an address: hexadecimal digits, points and colons. -/
def isAddressChar (b : UInt8) : Bool :=
  isDigit b || (65 ≤ b && b ≤ 70) || (97 ≤ b && b ≤ 102) || b == 46 || b == 58

/-- The value of a run of decimal digits. -/
def decimalValue (digits : Text) : Nat := digits.foldl (fun n b => 10 * n + (b.toNat - 48)) 0

/-- The values of `unsigned long`. -/
def ulongRange : Nat := 2 ^ 64

/-- What a conversion by `strtoul` leaves: a value, `ERANGE`, and what it did not read. -/
structure Conversion where
  value : Nat
  outOfRange : Bool
  rest : Text

/-- A text without its sign. -/
def dropSign (text : Text) : Text :=
  if text.head? = some minus ∨ text.head? = some plus then text.tail else text

/-- `strtoul` to the base ten; without digits it converts nothing. -/
def strtoul (text : Text) : Option Conversion :=
  let signed := text.dropWhile isSpace
  let digits := (dropSign signed).takeWhile isDigit
  let magnitude := decimalValue digits
  if digits = [] then none
  else some {
    value :=
      if ulongRange ≤ magnitude then ulongRange - 1
      else if signed.head? = some minus then (ulongRange - magnitude) % ulongRange
      else magnitude
    outOfRange := decide (ulongRange ≤ magnitude)
    rest := (dropSign signed).dropWhile isDigit }

/-! ## Addresses and keys -/

/-- `inet_pton`, as far as its manual goes. -/
structure InetPton where
  read : Family → Text → Option (List UInt8)
  length4 : ∀ {text addr}, read .inet text = some addr → addr.length = 4
  length6 : ∀ {text addr}, read .inet6 text = some addr → addr.length = 16
  other : ∀ text, read .other text = none
  plain : ∀ {family text addr}, read family text = some addr → ∀ b ∈ text, isAddressChar b = true

/-- The number of bits of an address. -/
def width : Family → Nat
  | .inet => 32
  | .inet6 => 128
  | .other => 0

/-- `ntohl` of four bytes. -/
def ntohl : List UInt8 → BitVec 32
  | [a, b, c, d] => a.toBitVec ++ b.toBitVec ++ c.toBitVec ++ d.toBitVec
  | _ => 0

/-- The four bytes of `htonl`. -/
def htonl (x : BitVec 32) : List UInt8 :=
  [⟨x.extractLsb' 24 8⟩, ⟨x.extractLsb' 16 8⟩, ⟨x.extractLsb' 8 8⟩, ⟨x.extractLsb' 0 8⟩]

/-- The address of a `struct bpf2socks_lpm4_key`. -/
def maskAddr4 (bits : Nat) (addr : List UInt8) : List UInt8 :=
  let mask := if bits = 0 then (0 : BitVec 32) else (0xffffffff : BitVec 32) <<< (32 - bits)
  htonl (ntohl addr &&& mask)

/-- The address of a `struct bpf2socks_lpm6_key`. -/
def maskAddr6 (bits : Nat) (addr : List UInt8) : List UInt8 :=
  if bits < 128 then
    let fullBytes := bits / 8
    let restBits := bits % 8
    if fullBytes < 16 then
      if restBits = 0 then addr.take fullBytes ++ List.replicate (16 - fullBytes) 0
      else
        addr.take fullBytes ++
          (addr.getD fullBytes 0 &&& UInt8.ofNat (0xff <<< (8 - restBits))) ::
            List.replicate (16 - fullBytes - 1) 0
    else addr
  else addr

/-- A prefix without its host bits. -/
def maskKey (family : Family) (c : Prefix) : Prefix :=
  match family with
  | .inet => ⟨c.bits, maskAddr4 c.bits c.addr⟩
  | .inet6 => ⟨c.bits, maskAddr6 c.bits c.addr⟩
  | .other => c

/-! ## Lines -/

/-- `trim_line`. -/
def trimLine (line : Text) : Text := trim isSpace line

/-- `parse_cidr`. -/
def parseCidr (pton : InetPton) (family : Family) (line : Text) : Option Prefix :=
  if slash ∉ line then none
  else
    let addr := before slash line
    match strtoul (line.drop (addr.length + 1)) with
    | none => none
    | some n =>
        if n.outOfRange ∨ n.rest ≠ [] then none
        else if family = .other then none
        else if width family < n.value then none
        else (pton.read family addr).map fun a => maskKey family ⟨n.value, a⟩

/-- What is parsed of a line: nothing of a blank line or a comment. -/
def cidrPart (line : Text) : Option Text :=
  let trimmed := trimLine line
  if trimmed = [] ∨ trimmed.head? = some hash then none
  else if hash ∈ trimmed then
    let cut := trimLine (before hash trimmed)
    if cut = [] then none else some cut
  else some trimmed

/-- What a line gives: it is refused, or it gives nothing, or a key. -/
def readLine (pton : InetPton) (family : Family) (line : Text) : Option (Option Prefix) :=
  match cidrPart line with
  | none => some none
  | some cidr => (parseCidr pton family cidr).map some

/-- `sizeof(line)`. -/
def lineSize : Nat := 256

/-- `parse_cidr_text`. -/
def parseCidrText (pton : InetPton) (family : Family) (text : Text) : Option (Option Prefix) :=
  if text = [] then none else readLine pton family (text.take (lineSize - 1))

/-! ## Loading -/

/-- Whether the kernel takes another entry into a table. -/
abbrev Takes := Lpm → Prefix → Bool

/-- `update_cidr_map_if_uncovered`. -/
def updateCidrMapIfUncovered (takes : Takes) (map : Lpm) (key : Prefix) : Option Lpm :=
  if map.found key.bits key.addr then some map
  else if takes map key then some (key :: map)
  else none

/-- What loading does: the keys it has gone on to load, the table it leaves, and its result. -/
structure Load where
  loaded : List Prefix
  map : Lpm
  ok : Bool
  deriving DecidableEq

/-- The loop of both loading functions, over whatever is read. -/
def loadEach {α : Type} (read : α → Option (Option Prefix)) (takes : Takes) : List α → Lpm → Load
  | [], map => ⟨[], map, true⟩
  | x :: xs, map =>
      match read x with
      | none => ⟨[], map, false⟩
      | some none => loadEach read takes xs map
      | some (some key) =>
          match updateCidrMapIfUncovered takes map key with
          | none => ⟨[key], map, false⟩
          | some map' =>
              let rest := loadEach read takes xs map'
              { rest with loaded := key :: rest.loaded }

/-- An element of `cidrs`. -/
structure CidrText where
  text : Text
  fits : text.length < 64
  deriving DecidableEq

/-- `bpf2socks_policy_load_cidr_list`. -/
def loadCidrList (pton : InetPton) (takes : Takes) (family : Family) (cidrs : List CidrText)
    (map : Lpm) : Load :=
  loadEach (fun c : CidrText => parseCidrText pton family c.text) takes cidrs map

/-- Loading keys that are known. -/
def loadKeys (takes : Takes) (keys : List Prefix) (map : Lpm) : Load :=
  loadEach (fun key => some (some key)) takes keys map

/-! ## What a line may look like -/

/-- A number spelled by digits alone. -/
def decimal (text : Text) : Option Nat :=
  if text ≠ [] ∧ ∀ b ∈ text, isDigit b = true then some (decimalValue text) else none

/-- A number as `strtoul` takes the whole of a text. -/
def wholeNumber (text : Text) : Option Nat :=
  match strtoul text with
  | none => none
  | some n => if n.outOfRange ∨ n.rest ≠ [] then none else some n.value

/-- The text of a prefix: an address, a slash and a prefix length. -/
def IsCidr (pton : InetPton) (number : Text → Option Nat) (family : Family) (text : Text)
    (c : Prefix) : Prop :=
  ∃ addr digits, text = addr ++ slash :: digits ∧ pton.read family addr = some c.addr ∧
    number digits = some c.bits ∧ c.bits ≤ width family

/-- A line, and the key it gives if it holds a prefix. -/
inductive LineForm (pton : InetPton) (number : Text → Option Nat) (family : Family) :
    Text → Option Prefix → Prop
  | blank {line : Text} : (∀ b ∈ line, isSpace b = true) → LineForm pton number family line none
  | comment {lead rest : Text} : (∀ b ∈ lead, isSpace b = true) →
      LineForm pton number family (lead ++ hash :: rest) none
  | cidr {lead text trail : Text} {c : Prefix} : (∀ b ∈ lead, isSpace b = true) →
      (∀ b ∈ trail, isSpace b = true) → IsCidr pton number family text c →
      LineForm pton number family (lead ++ text ++ trail) (some (maskKey family c))
  | cidrComment {lead text trail rest : Text} {c : Prefix} : (∀ b ∈ lead, isSpace b = true) →
      (∀ b ∈ trail, isSpace b = true) → IsCidr pton number family text c →
      LineForm pton number family (lead ++ text ++ trail ++ hash :: rest) (some (maskKey family c))

/-! ## Numbers -/

/-- The signs `strtoul` takes. -/
def Sign (sign : Text) : Prop := sign = [] ∨ sign = [plus] ∨ sign = [minus]

theorem dropSign_spec (text : Text) : ∃ sign, Sign sign ∧ text = sign ++ dropSign text := by
  cases text with
  | nil => exact ⟨[], .inl rfl, rfl⟩
  | cons b rest =>
      by_cases hm : b = minus
      · exact ⟨[minus], .inr (.inr rfl), by simp [dropSign, hm]⟩
      by_cases hp : b = plus
      · exact ⟨[plus], .inr (.inl rfl), by simp [dropSign, hp]⟩
      · exact ⟨[], .inl rfl, by simp [dropSign, hm, hp]⟩

/-- How a number that `strtoul` takes is spelled: blanks, a sign and digits. -/
theorem wholeNumber_spelling {text : Text} {n : Nat} (h : wholeNumber text = some n) :
    ∃ lead sign digits, text = lead ++ sign ++ digits ∧ (∀ b ∈ lead, isSpace b = true) ∧
      Sign sign ∧ digits ≠ [] ∧ ∀ b ∈ digits, isDigit b = true := by
  obtain ⟨sign, hsign, hsigned⟩ := dropSign_spec (text.dropWhile isSpace)
  rw [wholeNumber, strtoul] at h
  by_cases hdigits : (dropSign (text.dropWhile isSpace)).takeWhile isDigit = []
  · simp [hdigits] at h
  simp only [hdigits, if_false] at h
  split at h
  · cases h
  · rename_i hrest
    rw [not_or, not_not] at hrest
    have hall : dropSign (text.dropWhile isSpace) =
        (dropSign (text.dropWhile isSpace)).takeWhile isDigit := by
      conv_lhs => rw [← List.takeWhile_append_dropWhile (p := isDigit)
        (l := dropSign (text.dropWhile isSpace)), hrest.2, List.append_nil]
    refine ⟨text.takeWhile isSpace, sign, dropSign (text.dropWhile isSpace), ?_,
      fun b hb => List.mem_takeWhile_imp hb, hsign, fun hn => ?_, fun b hb => ?_⟩
    · rw [List.append_assoc, ← hsigned, List.takeWhile_append_dropWhile]
    · rw [hn] at hdigits
      exact hdigits rfl
    · rw [hall] at hb
      exact List.mem_takeWhile_imp hb

/-! ## Classes of characters -/

/-- A predicate that holds of every byte value holds of every byte. -/
theorem forall_byte {p : UInt8 → Bool}
    (h : ((List.range 256).all fun n => p (UInt8.ofNat n)) = true) (b : UInt8) : p b = true := by
  have hb := List.all_eq_true.mp h b.toNat (List.mem_range.mpr b.toNat_lt)
  rwa [UInt8.ofNat_toNat] at hb

theorem not_space_of_digit {b : UInt8} (h : isDigit b = true) : isSpace b = false := by
  have hb := forall_byte (p := fun b => !isDigit b || !isSpace b) (by decide +kernel) b
  simpa [h] using hb

theorem ne_hash_of_digit {b : UInt8} (h : isDigit b = true) : b ≠ hash := by
  rintro rfl
  revert h
  decide

theorem not_space_of_addressChar {b : UInt8} (h : isAddressChar b = true) : isSpace b = false := by
  have hb := forall_byte (p := fun b => !isAddressChar b || !isSpace b) (by decide +kernel) b
  simpa [h] using hb

theorem ne_hash_of_addressChar {b : UInt8} (h : isAddressChar b = true) : b ≠ hash := by
  rintro rfl
  revert h
  decide

theorem ne_slash_of_addressChar {b : UInt8} (h : isAddressChar b = true) : b ≠ slash := by
  rintro rfl
  revert h
  decide

theorem ne_hash_of_space {b : UInt8} (h : isSpace b = true) : b ≠ hash := by
  rintro rfl
  revert h
  decide

theorem Sign.ne_hash {sign : Text} (h : Sign sign) : ∀ b ∈ sign, b ≠ hash := by
  rcases h with rfl | rfl | rfl <;> decide +kernel

/-! ## The text of a prefix -/

variable {pton : InetPton} {family : Family} {text : Text} {c : Prefix}

/-- What is true of every text of a prefix: nothing can be trimmed off it or cut from it. -/
structure Bare (text : Text) : Prop where
  trimmed : Trimmed isSpace text
  ne_nil : text ≠ []
  hash : hash ∉ text

theorem IsCidr.bare (h : IsCidr pton wholeNumber family text c) : Bare text := by
  obtain ⟨addr, spelled, rfl, haddr, hnumber, _⟩ := h
  obtain ⟨lead, sign, digits, rfl, hlead, hsign, hne, hdigits⟩ := wholeNumber_spelling hnumber
  have hplain := pton.plain haddr
  refine ⟨⟨fun b hb => ?_, fun b hb => ?_⟩, by simp, fun hmem => ?_⟩
  · cases addr with
    | nil =>
        obtain rfl := Option.some.inj hb
        rfl
    | cons a addr =>
        obtain rfl := Option.some.inj hb
        exact not_space_of_addressChar (hplain _ List.mem_cons_self)
  · -- the last character is a digit
    have hlast : (addr ++ slash :: (lead ++ sign ++ digits)).getLast? = digits.getLast? := by
      rw [List.getLast?_append_cons, ← List.cons_append, List.getLast?_append_of_ne_nil _ hne]
    rw [hlast] at hb
    exact not_space_of_digit (hdigits b (List.mem_of_mem_getLast? hb))
  · rcases List.mem_append.mp hmem with hmem | hmem
    · exact ne_hash_of_addressChar (hplain _ hmem) rfl
    rcases List.mem_cons.mp hmem with hmem | hmem
    · revert hmem
      decide
    rcases List.mem_append.mp hmem with hmem | hmem
    · rcases List.mem_append.mp hmem with hmem | hmem
      · exact ne_hash_of_space (hlead _ hmem) rfl
      · exact hsign.ne_hash _ hmem rfl
    · exact ne_hash_of_digit (hdigits _ hmem) rfl

/-- A text is split at the slash after the address, since an address has none. -/
theorem before_slash {addr : Text} (h : ∀ b ∈ addr, isAddressChar b = true) (digits : Text) :
    before slash (addr ++ slash :: digits) = addr :=
  Lib.before_append fun hmem => ne_slash_of_addressChar (h _ hmem) rfl

theorem parseCidr_eq_some_iff {key : Prefix} : parseCidr pton family text = some key ↔
    ∃ c, IsCidr pton wholeNumber family text c ∧ maskKey family c = key := by
  constructor
  · intro h
    rw [parseCidr] at h
    split at h
    · cases h
    rename_i hslash
    rcases Lib.before_cases slash text with ⟨hnot, _⟩ | ⟨digits, hsplit⟩
    · exact absurd hnot hslash
    have hdrop : text.drop ((before slash text).length + 1) = digits := by
      conv_lhs => arg 2; rw [hsplit]
      exact Lib.drop_before _ _ _
    simp only [hdrop] at h
    rcases hn : strtoul digits with _ | n
    · simp [hn] at h
    simp only [hn] at h
    split at h
    · cases h
    rename_i hwhole
    split at h
    · cases h
    split at h
    · cases h
    rename_i hle
    obtain ⟨a, ha, rfl⟩ := Option.map_eq_some_iff.mp h
    refine ⟨⟨n.value, a⟩, ⟨_, digits, hsplit, ha, ?_, Nat.not_lt.mp hle⟩, rfl⟩
    rw [wholeNumber, hn]
    exact if_neg hwhole
  · rintro ⟨c, ⟨addr, digits, rfl, haddr, hnumber, hle⟩, rfl⟩
    have hbefore := before_slash (pton.plain haddr) digits
    have hmem : ¬slash ∉ addr ++ slash :: digits := by simp
    have hdrop := Lib.drop_before slash addr digits
    have hfamily : family ≠ .other := by
      rintro rfl
      rw [pton.other] at haddr
      cases haddr
    rw [wholeNumber] at hnumber
    rcases hn : strtoul digits with _ | n
    · simp [hn] at hnumber
    simp only [hn] at hnumber
    split at hnumber
    · cases hnumber
    rename_i hwhole
    have hvalue : n.value = c.bits := Option.some.inj hnumber
    simp only [parseCidr, if_neg hmem, hbefore, hdrop, hn, if_neg hwhole, if_neg hfamily, hvalue,
      if_neg (Nat.not_lt.mpr hle), haddr, Option.map_some]

/-! ## Lines -/

theorem trimLine_eq_nil_iff {line : Text} : trimLine line = [] ↔ ∀ b ∈ line, isSpace b = true :=
  Lib.trim_eq_nil_iff

/-- Trimming before the comment is cut makes no difference. -/
theorem cidrPart_eq (line : Text) : cidrPart line =
    if trimLine (before hash line) = [] then none else some (trimLine (before hash line)) := by
  rcases Lib.before_cases hash line with ⟨hnot, hself⟩ | ⟨rest, hsplit⟩
  · rw [← hself, cidrPart]
    have htrim : hash ∉ trimLine line := fun hmem => by
      obtain ⟨lead, trail, heq, _, _⟩ := Lib.exists_trim isSpace line
      refine hnot ?_
      rw [heq]
      exact List.mem_append_left _ (List.mem_append_right _ hmem)
    have hhead : (trimLine line).head? ≠ some hash := fun he =>
      htrim (List.mem_of_mem_head? he)
    simp only [hhead, or_false, if_neg htrim]
  · -- the mark stays, with what is before it but for the leading blanks
    have hcut : hash ∉ (before hash line).dropWhile isSpace := fun hmem =>
      Lib.not_mem_before hash line ((List.dropWhile_sublist _).subset hmem)
    have htrim : trimLine line = (before hash line).dropWhile isSpace ++
        hash :: rest.rdropWhile isSpace := by
      rw [trimLine]
      conv_lhs => rw [hsplit]
      exact Lib.trim_append_mark rfl _ _
    have hmem : hash ∈ trimLine line := by simp [htrim]
    have hbefore : before hash (trimLine line) = (before hash line).dropWhile isSpace := by
      rw [htrim, Lib.before_append hcut]
    have hsame : trimLine ((before hash line).dropWhile isSpace) = trimLine (before hash line) :=
      Lib.trim_dropWhile _
    rw [cidrPart]
    simp only [if_pos hmem, hbefore, hsame]
    split
    · rename_i hor
      rcases hor with hnil | hhead
      · simp [htrim] at hnil
      rw [if_pos]
      rw [htrim] at hhead
      rcases hd : (before hash line).dropWhile isSpace with _ | ⟨b, text⟩
      · rw [← hsame, hd]
        rfl
      · rw [hd] at hhead hcut
        exact absurd (Option.some.inj hhead).symm fun he => hcut (he ▸ List.mem_cons_self)
    · rfl

/-- What is read of a line is what its form says. -/
theorem readLine_eq_some_iff {line : Text} {r : Option Prefix} :
    readLine pton family line = some r ↔ LineForm pton wholeNumber family line r := by
  rw [readLine, cidrPart_eq]
  constructor
  · intro h
    obtain ⟨lead, trail, heq, hlead, htrail⟩ := Lib.exists_trim isSpace (before hash line)
    -- a comment is cut off or there is none
    have hparts : ∀ {r}, (∀ tail, LineForm pton wholeNumber family
        (before hash line ++ hash :: tail) r) →
        LineForm pton wholeNumber family (before hash line) r →
        LineForm pton wholeNumber family line r := by
      intro r hcut hwhole
      rcases Lib.before_cases hash line with ⟨_, hself⟩ | ⟨rest, hsplit⟩
      · rw [hself]
        exact hwhole
      · rw [hsplit]
        exact hcut rest
    by_cases hnil : trimLine (before hash line) = []
    · rw [if_pos hnil] at h
      obtain rfl := Option.some.inj h
      have hall := trimLine_eq_nil_iff.mp hnil
      exact hparts (fun _ => .comment hall) (.blank hall)
    · rw [if_neg hnil] at h
      obtain ⟨key, hkey, rfl⟩ := Option.map_eq_some_iff.mp h
      obtain ⟨c, hc, rfl⟩ := parseCidr_eq_some_iff.mp hkey
      refine hparts (fun tail => ?_) ?_
      · rw [heq]
        exact .cidrComment hlead htrail hc
      · rw [heq]
        exact .cidr hlead htrail hc
  · intro h
    have hspace : ∀ {l : Text}, (∀ b ∈ l, isSpace b = true) → hash ∉ l := fun hl hmem =>
      ne_hash_of_space (hl _ hmem) rfl
    -- neither blanks nor a prefix hold a hash, so the cut and the trim give back the prefix
    have hbare : ∀ {lead text trail : Text} {c : Prefix}, (∀ b ∈ lead, isSpace b = true) →
        (∀ b ∈ trail, isSpace b = true) → IsCidr pton wholeNumber family text c →
        hash ∉ lead ++ text ++ trail ∧ trimLine (lead ++ text ++ trail) = text ∧ text ≠ [] ∧
          parseCidr pton family text = some (maskKey family c) := by
      intro lead text trail c hlead htrail hc
      have hb := hc.bare
      refine ⟨by simp [hspace hlead, hspace htrail, hb.hash], ?_, hb.ne_nil,
        parseCidr_eq_some_iff.mpr ⟨c, hc, rfl⟩⟩
      exact Lib.trim_append hlead htrail hb.trimmed hb.ne_nil
    cases h with
    | blank hall =>
        rw [Lib.before_eq_self (hspace hall), if_pos (trimLine_eq_nil_iff.mpr hall)]
    | comment hlead =>
        rw [Lib.before_append (hspace hlead), if_pos (trimLine_eq_nil_iff.mpr hlead)]
    | cidr hlead htrail hc =>
        obtain ⟨hhash, htrim, hne, hkey⟩ := hbare hlead htrail hc
        rw [Lib.before_eq_self hhash, htrim, if_neg hne]
        simp only [hkey, Option.map_some]
    | cidrComment hlead htrail hc =>
        obtain ⟨hhash, htrim, hne, hkey⟩ := hbare hlead htrail hc
        rw [Lib.before_append hhash, htrim, if_neg hne]
        simp only [hkey, Option.map_some]

/-! ## Masks -/

theorem bitsOf_extract (x : BitVec 32) (start : Nat) :
    bitsOf [⟨x.extractLsb' start 8⟩] = (List.range 8).map fun i => x.getLsbD (start + (7 - i)) := by
  show ((List.range 8).map fun i => (x.extractLsb' start 8).toNat.testBit (7 - i)) ++ [] = _
  rw [List.append_nil]
  refine List.map_congr_left fun i _ => ?_
  show (x.extractLsb' start 8).getLsbD (7 - i) = _
  have hlt : 7 - i < 8 := by omega
  rw [BitVec.getLsbD_extractLsb', decide_eq_true hlt, Bool.true_and]

/-- The bits of a word in network order, from its highest. -/
theorem bitsOf_htonl (x : BitVec 32) :
    bitsOf (htonl x) = (List.range 32).map fun i => x.getLsbD (31 - i) := by
  have hsplit : List.range 32 = List.range 8 ++ (List.range 8).map (fun i => 8 + i) ++
      (List.range 8).map (fun i => 16 + i) ++ (List.range 8).map (fun i => 24 + i) := by decide
  show bitsOf ([⟨x.extractLsb' 24 8⟩] ++ [⟨x.extractLsb' 16 8⟩] ++ [⟨x.extractLsb' 8 8⟩] ++
    [⟨x.extractLsb' 0 8⟩]) = _
  rw [hsplit]
  simp only [Lib.bitsOf_append, bitsOf_extract, List.map_append, List.map_map]
  have hpart : ∀ start k, start + 7 + k = 31 → ((List.range 8).map fun i =>
      x.getLsbD (start + (7 - i))) = (List.range 8).map fun i => x.getLsbD (31 - (k + i)) := by
    intro start k h
    refine List.map_congr_left fun i hi => congrArg x.getLsbD ?_
    have hlt := List.mem_range.mp hi
    omega
  rw [hpart 24 0 rfl, hpart 16 8 rfl, hpart 8 16 rfl, hpart 0 24 rfl]
  simp only [Nat.zero_add]
  rfl

theorem htonl_ntohl {addr : List UInt8} (h : addr.length = 4) : htonl (ntohl addr) = addr := by
  match addr, h with
  | [a, b, c, d], _ =>
      have hbyte : ∀ {x : BitVec 32} {b : UInt8} {start : Nat},
          (∀ i < 8, x.getLsbD (start + i) = b.toBitVec.getLsbD i) →
          UInt8.ofBitVec (x.extractLsb' start 8) = b := by
        intro x b start hx
        refine UInt8.toBitVec_inj.mp (BitVec.eq_of_getLsbD_eq fun i hi => ?_)
        show (x.extractLsb' start 8).getLsbD i = _
        rw [BitVec.getLsbD_extractLsb', decide_eq_true hi, Bool.true_and, hx i hi]
      simp only [ntohl, htonl, List.cons.injEq, and_true]
      refine ⟨hbyte fun i hi => ?_, hbyte fun i hi => ?_, hbyte fun i hi => ?_,
        hbyte fun i hi => ?_⟩
      all_goals
        simp only [BitVec.getLsbD_append]
        repeat' split
        all_goals first | omega | (congr 1; omega)

/-- The mask of an IPv4 prefix keeps its leading bits. -/
theorem take_maskAddr4 {bits : Nat} {addr : List UInt8} (haddr : addr.length = 4)
    (hbits : bits ≤ 32) : (bitsOf (maskAddr4 bits addr)).take bits = (bitsOf addr).take bits := by
  have hmask : ∀ i < bits, (if bits = 0 then (0 : BitVec 32)
      else (0xffffffff : BitVec 32) <<< (32 - bits)).getLsbD (31 - i) = true := by
    intro i hi
    have hne : bits ≠ 0 := by omega
    have hones : (0xffffffff : BitVec 32) = BitVec.allOnes 32 := by decide
    rw [if_neg hne, hones, BitVec.getLsbD_shiftLeft, BitVec.getLsbD_allOnes]
    simp only [Bool.and_eq_true, Bool.not_eq_true', decide_eq_true_eq, decide_eq_false_iff_not]
    omega
  conv_rhs => rw [← htonl_ntohl haddr]
  rw [maskAddr4, bitsOf_htonl, bitsOf_htonl, ← List.map_take, ← List.map_take, List.take_range,
    Nat.min_eq_left hbits]
  refine List.map_congr_left fun i hi => ?_
  rw [BitVec.getLsbD_and, hmask i (List.mem_range.mp hi), Bool.and_true]

/-- The same of the byte of an IPv6 prefix in which it ends. -/
theorem take_maskByte (b : UInt8) {rest : Nat} (h : rest < 8) :
    (bitsOf [b &&& UInt8.ofNat (0xff <<< (8 - rest))]).take rest = (bitsOf [b]).take rest := by
  rw [Lib.take_bitsOf_singleton _ (Nat.le_of_lt h), Lib.take_bitsOf_singleton _ (Nat.le_of_lt h)]
  refine List.map_congr_left fun i hi => ?_
  have hmask : ∀ r < 8, ∀ i < r, (UInt8.ofNat (0xff <<< (8 - r))).toNat.testBit (7 - i) = true := by
    decide
  rw [UInt8.toNat_and, Nat.testBit_and, hmask rest h i (List.mem_range.mp hi), Bool.and_true]

theorem take_maskAddr6 {bits : Nat} {addr : List UInt8} (haddr : addr.length = 16)
    (hbits : bits ≤ 128) : (bitsOf (maskAddr6 bits addr)).take bits = (bitsOf addr).take bits := by
  rw [maskAddr6]
  split
  · rename_i hlt
    have hfull : bits / 8 < 16 := by omega
    have hsum : bits = 8 * (addr.take (bits / 8)).length + bits % 8 := by
      rw [List.length_take, haddr]
      omega
    -- both addresses begin with the same full bytes
    have hcut : ∀ tail : List UInt8, (bitsOf (addr.take (bits / 8) ++ tail)).take bits =
        bitsOf (addr.take (bits / 8)) ++ (bitsOf tail).take (bits % 8) := by
      intro tail
      rw [Lib.bitsOf_append]
      conv_lhs => arg 1; rw [hsum]
      rw [← Lib.length_bitsOf, List.take_length_add_append]
    have hrest : (bitsOf addr).take bits = bitsOf (addr.take (bits / 8)) ++
        (bitsOf (addr.drop (bits / 8))).take (bits % 8) := by
      rw [← hcut, List.take_append_drop]
    simp only [hfull, if_true]
    split
    · rename_i hzero
      rw [hcut, hrest, hzero, List.take_zero, List.take_zero]
    · have hdrop : addr.drop (bits / 8) = addr.getD (bits / 8) 0 :: addr.drop (bits / 8 + 1) := by
        have hlen : bits / 8 < addr.length := by rw [haddr]; exact hfull
        rw [List.drop_eq_getElem_cons hlen, List.getD_eq_getElem?_getD, List.getElem?_eq_getElem hlen,
          Option.getD_some]
      have hmod : bits % 8 < 8 := Nat.mod_lt _ (by decide)
      -- the last bits all lie in the first byte of what follows
      have hone : ∀ (b : UInt8) (tail : List UInt8),
          (bitsOf (b :: tail)).take (bits % 8) = (bitsOf [b]).take (bits % 8) := by
        intro b tail
        rw [← List.singleton_append, Lib.bitsOf_append]
        refine List.take_append_of_le_length ?_
        rw [Lib.length_bitsOf]
        exact Nat.le_of_lt hmod
      rw [hcut, hrest, hdrop, hone _ (List.replicate _ 0), hone _ (addr.drop _),
        take_maskByte _ hmod]
  · rfl

/-- A key covers what the prefix on the line does. -/
theorem covers_maskKey (h : pton.read family text = some c.addr) (hbits : c.bits ≤ width family)
    (addr : List UInt8) : (maskKey family c).covers addr = c.covers addr := by
  cases family with
  | inet =>
      exact Prefix.covers_congr (p := maskKey .inet c) (q := c) rfl
        (take_maskAddr4 (pton.length4 h) hbits) addr
  | inet6 =>
      exact Prefix.covers_congr (p := maskKey .inet6 c) (q := c) rfl
        (take_maskAddr6 (pton.length6 h) hbits) addr
  | other => rfl

theorem IsCidr.covers_iff {number : Text → Option Nat} (h : IsCidr pton number family text c)
    (addr : List UInt8) : (maskKey family c).covers addr = true ↔ c.covers addr = true := by
  obtain ⟨_, _, _, haddr, _, hbits⟩ := h
  rw [covers_maskKey haddr hbits]

theorem maskKey_bits (family : Family) (c : Prefix) : (maskKey family c).bits = c.bits := by
  cases family <;> rfl

/-! ## Digits alone -/

/-- Digits alone are read by `strtoul` as they stand. -/
theorem wholeNumber_of_decimal {n : Nat} (h : decimal text = some n) (hn : n < ulongRange) :
    wholeNumber text = some n := by
  rw [decimal] at h
  split at h
  · rename_i hdigits
    obtain ⟨hne, hall⟩ := hdigits
    obtain rfl := Option.some.inj h
    have hspace : text.dropWhile isSpace = text := by
      show ([] ++ text).dropWhile isSpace = text
      refine Lib.dropWhile_append_of_trimmed (by simp) fun b hb => ?_
      exact not_space_of_digit (hall b (List.mem_of_mem_head? hb))
    have hhead : text.head? ≠ some minus ∧ text.head? ≠ some plus := by
      constructor <;>
      · intro hb
        have hdigit := hall _ (List.mem_of_mem_head? hb)
        revert hdigit
        decide
    have hsign : dropSign text = text := by simp [dropSign, hhead]
    have htake : text.takeWhile isDigit = text := List.takeWhile_eq_self_iff.mpr hall
    have hdrop : text.dropWhile isDigit = [] := List.dropWhile_eq_nil_iff.mpr hall
    simp only [wholeNumber, strtoul, hspace, hsign, htake, hdrop, hne, hhead.1, if_false]
    simp [Nat.not_le.mpr hn]
  · cases h

theorem IsCidr.of_decimal (h : IsCidr pton decimal family text c) :
    IsCidr pton wholeNumber family text c := by
  obtain ⟨addr, digits, htext, haddr, hnumber, hbits⟩ := h
  refine ⟨addr, digits, htext, haddr, wholeNumber_of_decimal hnumber ?_, hbits⟩
  have hwidth : width family ≤ 128 := by cases family <;> decide
  have : ulongRange = 2 ^ 64 := rfl
  omega

/-! ## Lists -/

section Lists

variable {takes : Takes} {map : Lpm}

theorem updateCidrMapIfUncovered_eq {key : Prefix} {map' : Lpm}
    (h : updateCidrMapIfUncovered takes map key = some map') : map' = map.addUncovered key := by
  rw [updateCidrMapIfUncovered] at h
  rw [Lpm.addUncovered]
  split at h
  · rename_i hfound
    rw [if_pos hfound]
    exact (Option.some.inj h).symm
  · rename_i hfound
    rw [if_neg hfound]
    split at h
    · exact (Option.some.inj h).symm
    · cases h

/-- Where every element is read to a key or to nothing, the keys are loaded in their order. -/
theorem loadEach_eq_loadKeys {α : Type} {read : α → Option (Option Prefix)} {xs : List α}
    {rs : List (Option Prefix)} (h : List.Forall₂ (fun x r => read x = some r) xs rs) :
    ∀ map, loadEach read takes xs map = loadKeys takes rs.reduceOption map := by
  induction h with
  | nil => exact fun _ => rfl
  | @cons x r xs rs hx _ ih =>
      intro map
      cases r with
      | none =>
          simp only [loadEach, hx]
          exact ih map
      | some key =>
          rw [List.reduceOption_cons_of_some]
          simp only [loadEach, hx, loadKeys]
          rcases updateCidrMapIfUncovered takes map key with _ | map'
          · rfl
          · simp only [ih map', loadKeys]

/-- If the loading of keys succeeds, they have all been stored where they were not covered. -/
theorem loadKeys_map {keys : List Prefix} : ∀ {map : Lpm}, (loadKeys takes keys map).ok = true →
    (loadKeys takes keys map).map = keys.foldl Lpm.addUncovered map ∧
      (loadKeys takes keys map).loaded = keys := by
  induction keys with
  | nil => exact fun _ => ⟨rfl, rfl⟩
  | cons key keys ih =>
      intro map h
      simp only [loadKeys, loadEach] at h ⊢
      rcases hupdate : updateCidrMapIfUncovered takes map key with _ | map'
      · simp [hupdate] at h
      · simp only [hupdate] at h ⊢
        obtain ⟨hmap, hloaded⟩ := ih h
        rw [List.foldl_cons, ← updateCidrMapIfUncovered_eq hupdate]
        exact ⟨hmap, by rw [← loadKeys, hloaded]⟩

/-- The texts are those of the prefixes. -/
def Spells (pton : InetPton) (family : Family) (texts : List CidrText) (cidrs : List Prefix) :
    Prop :=
  List.Forall₂ (fun text c => IsCidr pton decimal family text.text c) texts cidrs

/-- The text of a prefix is read as its key. -/
theorem parseCidrText_eq {text : CidrText} (h : IsCidr pton decimal family text.text c) :
    parseCidrText pton family text.text = some (some (maskKey family c)) := by
  have hne := h.of_decimal.bare.ne_nil
  have htake : text.text.take (lineSize - 1) = text.text := by
    refine List.take_of_length_le ?_
    have := text.fits
    show _ ≤ 255
    omega
  rw [parseCidrText, if_neg hne, htake, readLine_eq_some_iff]
  have hform : LineForm pton wholeNumber family ([] ++ text.text ++ []) (some (maskKey family c)) :=
    .cidr (by simp) (by simp) h.of_decimal
  rwa [List.nil_append, List.append_nil] at hform

theorem loadCidrList_eq {texts : List CidrText} {cidrs : List Prefix}
    (h : Spells pton family texts cidrs) :
    loadCidrList pton takes family texts map = loadKeys takes (cidrs.map (maskKey family)) map := by
  have hread : List.Forall₂ (fun text r => parseCidrText pton family text.text = some r) texts
      (cidrs.map fun c => some (maskKey family c)) := by
    rw [List.forall₂_map_right_iff]
    exact h.imp fun _ _ => parseCidrText_eq
  have hsome : ∀ keys : List Prefix, (keys.map some).reduceOption = keys := by
    intro keys
    induction keys with
    | nil => rfl
    | cons key keys ih => rw [List.map_cons, List.reduceOption_cons_of_some, ih]
  rw [loadCidrList, loadEach_eq_loadKeys hread, ← hsome (cidrs.map _), List.map_map]
  rfl

/-- The lengths of prefixes are within the range of the family, and their keys cover what they do. -/
theorem Spells.keys {texts : List CidrText} {cidrs : List Prefix}
    (h : Spells pton family texts cidrs) :
    (∀ key ∈ cidrs.map (maskKey family), key.bits ≤ width family) ∧
      ∀ addr, (∃ key ∈ cidrs.map (maskKey family), key.covers addr = true) ↔
        ∃ c ∈ cidrs, c.covers addr = true := by
  have hall : ∀ c ∈ cidrs, ∃ text, IsCidr pton decimal family text c := by
    intro c hc
    obtain ⟨i, hi, rfl⟩ := List.getElem_of_mem hc
    exact ⟨_, h.get (h.length_eq ▸ hi) hi⟩
  constructor
  · intro key hkey
    obtain ⟨c, hc, rfl⟩ := List.mem_map.mp hkey
    obtain ⟨_, _, _, _, _, _, hbits⟩ := hall c hc
    rwa [maskKey_bits]
  · intro addr
    simp only [List.mem_map, exists_exists_and_eq_and]
    refine exists_congr fun c => and_congr_right fun hc => ?_
    obtain ⟨_, hcidr⟩ := hall c hc
    exact hcidr.covers_iff addr

/-- **What a loaded table matches.**  If the loading of a list of prefixes succeeds, an address
matches exactly if it matched before or a listed prefix covers it, whatever the order, whatever host
bits are set and however often a prefix is listed; storing every key would match the same. -/
theorem loadCidrList_found {texts : List CidrText} {cidrs : List Prefix}
    (hspells : Spells pton family texts cidrs)
    (hok : (loadCidrList pton takes family texts map).ok = true) (addr : List UInt8) :
    ((loadCidrList pton takes family texts map).map.found (width family) addr = true ↔
      map.found (width family) addr = true ∨ ∃ c ∈ cidrs, c.covers addr = true) ∧
    (loadCidrList pton takes family texts map).map.found (width family) addr =
      Lpm.found (cidrs.map (maskKey family) ++ map) (width family) addr := by
  obtain ⟨hbits, hcovers⟩ := hspells.keys
  rw [loadCidrList_eq hspells] at hok ⊢
  rw [(loadKeys_map hok).1]
  have hiff : ((cidrs.map (maskKey family)).foldl Lpm.addUncovered map).found (width family) addr =
      true ↔ _ := Lpm.found_foldl_addUncovered hbits
  refine ⟨?_, ?_⟩
  · rw [hiff, hcovers]
  · rw [Bool.eq_iff_iff, hiff, Lpm.found_append hbits]

end Lists

/-! ## Two nested prefixes -/

/-- The characters of a string. -/
def ascii (s : String) : Text := s.toList.map fun c => c.toNat.toUInt8

/-- Two addresses as `inet_pton` reads them, and no other. -/
def tenNets : InetPton where
  read family text :=
    if family = .inet ∧ text = ascii "10.0.0.0" then some [10, 0, 0, 0]
    else if family = .inet ∧ text = ascii "10.1.2.3" then some [10, 1, 2, 3]
    else none
  length4 h := by
    split at h
    · exact (Option.some.inj h) ▸ rfl
    · split at h
      · exact (Option.some.inj h) ▸ rfl
      · cases h
  length6 h := by simp at h
  other _ := by simp
  plain {_ text _} h := by
    split at h
    · rename_i hp
      rw [hp.2]
      decide +kernel
    · split at h
      · rename_i hp
        rw [hp.2]
        decide +kernel
      · cases h

/-- The narrower prefix first, with host bits, and then the wider one. -/
def nestedTexts : List CidrText :=
  [⟨ascii "10.1.2.3/16", by decide⟩, ⟨ascii "10.0.0.0/8", by decide⟩]

theorem nested_spells : Spells tenNets .inet nestedTexts [⟨16, [10, 1, 2, 3]⟩, ⟨8, [10, 0, 0, 0]⟩] :=
  .cons ⟨ascii "10.1.2.3", ascii "16", by decide, by decide, by decide +kernel, by decide⟩
    (.cons ⟨ascii "10.0.0.0", ascii "8", by decide, by decide, by decide +kernel, by decide⟩ .nil)

/-- An address in the wider network is matched. -/
theorem loadCidrList_found_nested :
    (loadCidrList tenNets (fun _ _ => true) .inet nestedTexts []).map.found 32 [10, 9, 9, 9] = true :=
  (loadCidrList_found nested_spells (by decide) [10, 9, 9, 9]).1.mpr
    (.inr ⟨⟨8, [10, 0, 0, 0]⟩, by decide, by decide⟩)

end Bpf2Socks.Policy

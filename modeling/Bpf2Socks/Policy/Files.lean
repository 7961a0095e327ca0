/-
# Bpf2Socks.Policy.Files — files of prefixes.

A file holds a prefix, a comment or nothing on each line.  It is read with `fgets` into a buffer of
256 bytes, so a longer line comes in pieces, and each piece is read as if it were a line.  The prefix
length is read by `strtoul`, which also takes blanks and a sign before the digits.

What a file says is a matter of its lines, with prefix lengths spelled by digits alone.  The two
differ where a cut goes through a prefix or a comment, or where a line is refused by the grammar but
each of its pieces is taken.
-/
import Bpf2Socks.Policy.Cidr

namespace Bpf2Socks.Policy

open Interfaces (Family)
open Lib (Lpm Prefix)

/-! ## Pieces and lines -/

/-- `'\\n'`. -/
def newline : UInt8 := 10

/-- What the calls of `fgets` return, when `buf` has been read of the next piece. -/
def fgetsPieces (buf : Text) : Text → List Text
  | [] => if buf = [] then [] else [buf]
  | b :: rest =>
      if b = newline ∨ buf.length + 2 = lineSize then (buf ++ [b]) :: fgetsPieces [] rest
      else fgetsPieces (buf ++ [b]) rest

/-- The string in a buffer ends at the first zero. -/
def cString (piece : Text) : Text := Lib.before 0 piece

/-- `bpf2socks_policy_load_cidr_file`, with what `fopen` gives. -/
def loadCidrFile (pton : InetPton) (takes : Takes) (family : Family) (path : Text)
    (opened : Option Text) (map : Lpm) : Load :=
  if path = [] then ⟨[], map, false⟩
  else
    match opened with
    | none => ⟨[], map, false⟩
    | some text =>
        loadEach (fun piece => readLine pton family (cString piece)) takes (fgetsPieces [] text) map

/-- The lines of a text, each with its newline, when `line` has been read of the next one. -/
def linesFrom (line : Text) : Text → List Text
  | [] => if line = [] then [] else [line]
  | b :: rest =>
      if b = newline then (line ++ [b]) :: linesFrom [] rest else linesFrom (line ++ [b]) rest

/-- The lines of a text. -/
def linesOf (text : Text) : List Text := linesFrom [] text

variable {pton : InetPton} {takes : Takes} {family : Family} {text : Text}

/-! ## What a file says, and what is made of it -/

/-- The lines give these keys, or none. -/
def LinesGive (pton : InetPton) (family : Family) (text : Text) (rs : List (Option Prefix)) : Prop :=
  List.Forall₂ (LineForm pton decimal family) (linesOf text) rs

/-- The file is read line by line: it loads the prefixes on its lines, if the kernel takes them, and
a line of another form makes it fail. -/
structure ReadsLines (pton : InetPton) (family : Family) (text : Text) : Prop where
  loads : ∀ rs, LinesGive pton family text rs → ∀ takes path map, path ≠ [] →
    (loadKeys takes rs.reduceOption map).ok = true →
    loadCidrFile pton takes family path (some text) map =
      ⟨rs.reduceOption, rs.reduceOption.foldl Lpm.addUncovered map, true⟩
  refuses : (∃ line ∈ linesOf text, ∀ r, ¬LineForm pton decimal family line r) →
    ∀ takes path map, (loadCidrFile pton takes family path (some text) map).ok = false

/-- The pieces of a line give what the line gives: one of them holds its prefix, if it has one, and
the others are blank or comments. -/
def CutsHarmless (pton : InetPton) (family : Family) (line : Text) (r : Option Prefix) : Prop :=
  ∃ ps, List.Forall₂ (LineForm pton wholeNumber family) (fgetsPieces [] line) ps ∧
    ps.reduceOption = r.toList

/-- No cut and no spelling of a number hides what the file says. -/
structure NothingMisread (pton : InetPton) (family : Family) (text : Text) : Prop where
  /-- If each line has one of the forms, no line is cut through its prefix or its comment. -/
  harmless : ∀ rs, LinesGive pton family text rs →
    List.Forall₂ (CutsHarmless pton family) (linesOf text) rs
  /-- If some line has another form, some piece has, even with numbers as `strtoul` reads them. -/
  seen : (∃ line ∈ linesOf text, ∀ r, ¬LineForm pton decimal family line r) →
    ∃ line ∈ linesOf text, ∃ piece ∈ fgetsPieces [] line,
      ∀ r, ¬LineForm pton wholeNumber family piece r

/-! ## Pieces -/

/-- Nothing is lost or added between the pieces. -/
theorem flatten_fgetsPieces : ∀ (text buf : Text), (fgetsPieces buf text).flatten = buf ++ text := by
  intro text
  induction text with
  | nil =>
      intro buf
      rw [fgetsPieces]
      split
      · rename_i h
        simp [h]
      · simp
  | cons b rest ih =>
      intro buf
      rw [fgetsPieces]
      split
      · rw [List.flatten_cons, ih]
        simp
      · rw [ih]
        simp

/-- The pieces of a text are those of its lines. -/
theorem fgetsPieces_eq_flatMap : ∀ (text buf line : Text) (done : List Text),
    (∀ tail, fgetsPieces [] (line ++ tail) = done ++ fgetsPieces buf tail) →
    done ++ fgetsPieces buf text = (linesFrom line text).flatMap (fgetsPieces []) := by
  intro text
  induction text with
  | nil =>
      intro buf line done h
      have hline := h []
      rw [List.append_nil] at hline
      rw [linesFrom]
      split
      · rename_i hnil
        rw [← hline, hnil]
        rfl
      · simp [hline]
  | cons b rest ih =>
      intro buf line done h
      rw [linesFrom]
      by_cases hb : b = newline
      · -- both end here
        have hend : fgetsPieces buf [b] = [buf ++ [b]] := by
          rw [fgetsPieces, if_pos (.inl hb)]
          rfl
        have hrest := ih [] [] [] fun tail => rfl
        rw [List.nil_append] at hrest
        rw [if_pos hb, List.flatMap_cons, h [b], hend, ← hrest, fgetsPieces, if_pos (.inl hb)]
        simp
      · rw [if_neg hb]
        by_cases hfull : buf.length + 2 = lineSize
        · -- the buffer is full, and the line goes on
          have hrest := ih [] (line ++ [b]) (done ++ [buf ++ [b]])
            fun tail => by
              rw [List.append_assoc, List.singleton_append, h, fgetsPieces, if_pos (.inr hfull)]
              simp
          rw [← hrest, fgetsPieces, if_pos (.inr hfull)]
          simp
        · have hor : ¬(b = newline ∨ buf.length + 2 = lineSize) := by simp [hb, hfull]
          have hrest := ih (buf ++ [b]) (line ++ [b]) done fun tail => by
            rw [List.append_assoc, List.singleton_append, h, fgetsPieces, if_neg hor]
          rw [← hrest, fgetsPieces, if_neg hor]

theorem fgetsPieces_eq (text : Text) :
    fgetsPieces [] text = (linesOf text).flatMap (fgetsPieces []) := by
  have h := fgetsPieces_eq_flatMap text [] [] [] fun tail => rfl
  rwa [List.nil_append] at h

/-- A line that fits the buffer is not cut. -/
theorem fgetsPieces_of_short : ∀ {line buf : Text}, line ≠ [] →
    buf.length + line.length < lineSize → (∀ b ∈ line.dropLast, b ≠ newline) →
    fgetsPieces buf line = [buf ++ line] := by
  intro line
  induction line with
  | nil => exact fun h => absurd rfl h
  | cons b rest ih =>
      intro buf _ hlen hinner
      rw [List.length_cons] at hlen
      rw [fgetsPieces]
      cases rest with
      | nil =>
          split
          · rfl
          · rw [fgetsPieces, if_neg (by simp)]
      | cons b' rest =>
          have hb : b ≠ newline := hinner b (by simp)
          have hroom : buf.length + 2 ≠ lineSize := by
            rw [List.length_cons] at hlen
            omega
          rw [if_neg (by simp [hb, hroom]), ih (by simp) _ fun x hx => hinner x ?_]
          · simp
          · rw [List.length_append, List.length_singleton]
            omega
          · rw [List.dropLast_cons_cons]
            exact List.mem_cons_of_mem _ hx

/-- Without zeros in the file, the strings are the pieces. -/
theorem cString_eq (hnul : (0 : UInt8) ∉ text) {piece : Text} (h : piece ∈ fgetsPieces [] text) :
    cString piece = piece := by
  refine Lib.before_eq_self fun hzero => hnul ?_
  have hflat := flatten_fgetsPieces text []
  rw [List.nil_append] at hflat
  rw [← hflat]
  exact List.mem_flatten.mpr ⟨piece, h, hzero⟩

/-! ## Loading pieces -/

/-- If every piece is taken, the keys they give are loaded. -/
theorem loadCidrFile_eq {path : Text} {map : Lpm} {ps : List (Option Prefix)}
    (hnul : (0 : UInt8) ∉ text) (hpath : path ≠ [])
    (h : List.Forall₂ (LineForm pton wholeNumber family) (fgetsPieces [] text) ps) :
    loadCidrFile pton takes family path (some text) map = loadKeys takes ps.reduceOption map := by
  have hread : List.Forall₂ (fun piece r => readLine pton family (cString piece) = some r)
      (fgetsPieces [] text) ps := by
    rw [List.forall₂_iff_get] at h ⊢
    refine ⟨h.1, fun i h₁ h₂ => ?_⟩
    rw [cString_eq hnul (List.get_mem _ _), readLine_eq_some_iff]
    exact h.2 i h₁ h₂
  rw [loadCidrFile, if_neg hpath]
  exact loadEach_eq_loadKeys hread map

/-- One element that is refused makes the loading fail. -/
theorem loadEach_refused {α : Type} {read : α → Option (Option Prefix)} {xs : List α} {x : α}
    (hx : x ∈ xs) (h : read x = none) : ∀ map, (loadEach read takes xs map).ok = false := by
  induction xs with
  | nil => cases hx
  | cons y ys ih =>
      intro map
      rcases hy : read y with _ | r
      · simp only [loadEach, hy]
      have hmem : x ∈ ys := (List.mem_cons.mp hx).resolve_left (by
        rintro rfl
        rw [h] at hy
        cases hy)
      rcases r with _ | key
      · simp only [loadEach, hy]
        exact ih hmem map
      · rcases hupdate : updateCidrMapIfUncovered takes map key with _ | map'
        · simp only [loadEach, hy, hupdate]
        · simp only [loadEach, hy, hupdate]
          exact ih hmem map'

theorem loadCidrFile_refused {path : Text} {map : Lpm} {piece : Text} (hnul : (0 : UInt8) ∉ text)
    (hpiece : piece ∈ fgetsPieces [] text) (h : ∀ r, ¬LineForm pton wholeNumber family piece r) :
    (loadCidrFile pton takes family path (some text) map).ok = false := by
  rw [loadCidrFile]
  split
  · rfl
  · refine loadEach_refused hpiece ?_ map
    rw [cString_eq hnul hpiece, Option.eq_none_iff_forall_ne_some]
    exact fun r hr => h r (readLine_eq_some_iff.mp hr)

/-- A kernel that takes every entry. -/
theorem loadKeys_ok_of_takes {keys : List Prefix} :
    ∀ map, (loadKeys (fun _ _ => true) keys map).ok = true := by
  induction keys with
  | nil => exact fun _ => rfl
  | cons key keys ih =>
      intro map
      have hsome : ∃ map', updateCidrMapIfUncovered (fun _ _ => true) map key = some map' := by
        rw [updateCidrMapIfUncovered]
        split
        · exact ⟨_, rfl⟩
        · exact ⟨_, rfl⟩
      obtain ⟨map', hmap'⟩ := hsome
      simp only [loadKeys, loadEach, hmap']
      exact ih map'

theorem exists_forall₂ {α β : Type} {R : α → β → Prop} {xs : List α} (h : ∀ x ∈ xs, ∃ y, R x y) :
    ∃ ys, List.Forall₂ R xs ys := by
  induction xs with
  | nil => exact ⟨[], .nil⟩
  | cons x xs ih =>
      obtain ⟨y, hy⟩ := h x List.mem_cons_self
      obtain ⟨ys, hys⟩ := ih fun x hx => h x (List.mem_cons_of_mem _ hx)
      exact ⟨y :: ys, .cons hy hys⟩

/-- The pieces of the lines, one line after the other. -/
theorem forall₂_flatMap {lines : List Text} {qs : List (List (Option Prefix))}
    (h : List.Forall₂ (fun line q => List.Forall₂ (LineForm pton wholeNumber family)
      (fgetsPieces [] line) q) lines qs) :
    List.Forall₂ (LineForm pton wholeNumber family) (lines.flatMap (fgetsPieces [])) qs.flatten := by
  induction h with
  | nil => exact .nil
  | cons hline _ ih =>
      rw [List.flatMap_cons, List.flatten_cons]
      exact List.rel_append hline ih

/-! ## The piece with the prefix -/

/-- Nothing but a comment mark can be the first character after the blanks. -/
def Quiet (text : Text) : Prop := ∀ b ∈ (text.dropWhile isSpace).head?, b = hash

theorem Quiet.append {a b : Text} (ha : Quiet a) (hb : Quiet b) : Quiet (a ++ b) := by
  rw [Quiet, List.dropWhile_append]
  split
  · exact hb
  · rename_i h
    rw [List.head?_append_of_ne_nil _ fun hn => h (by rw [hn]; rfl)]
    exact ha

theorem quiet_of_none {number : Text → Option Nat} {line : Text}
    (h : LineForm pton number family line none) : Quiet line := by
  cases h with
  | blank hall =>
      rw [Quiet, List.dropWhile_eq_nil_iff.mpr hall]
      exact fun _ hb => (nomatch hb)
  | comment hlead =>
      rw [Quiet, List.dropWhile_append_of_pos hlead, List.dropWhile_cons_of_neg (by decide)]
      exact fun b hb => (Option.some.inj hb).symm

theorem not_quiet_of_cidr {lead text rest : Text} {c : Prefix} (hlead : ∀ b ∈ lead, isSpace b = true)
    (hc : IsCidr pton wholeNumber family text c) : ¬Quiet (lead ++ text ++ rest) := by
  have hbare := hc.bare
  obtain ⟨b, tail, rfl⟩ := List.exists_cons_of_ne_nil hbare.ne_nil
  have hspace : isSpace b = false := hbare.trimmed.head b rfl
  intro hquiet
  rw [Quiet, List.append_assoc, List.dropWhile_append_of_pos hlead, List.cons_append,
    List.dropWhile_cons_of_neg (by simp [hspace])] at hquiet
  exact hbare.hash (hquiet b rfl ▸ List.mem_cons_self)

/-- If all pieces of a line with a prefix are taken, one of them gives a key. -/
theorem length_le_of_pieces {line : Text} {r : Option Prefix} {ps : List (Option Prefix)}
    (hline : LineForm pton decimal family line r)
    (h : List.Forall₂ (LineForm pton wholeNumber family) (fgetsPieces [] line) ps) :
    r.toList.length ≤ ps.reduceOption.length := by
  rcases r with _ | key
  · exact Nat.zero_le _
  refine List.length_pos_iff.mpr fun hnil => ?_
  -- otherwise every piece is blank or a comment, and so is the line
  have hquiet : ∀ {pieces : List Text} {ps : List (Option Prefix)},
      List.Forall₂ (LineForm pton wholeNumber family) pieces ps → ps.reduceOption = [] →
      Quiet pieces.flatten := by
    intro pieces ps h
    induction h with
    | nil => exact fun _ b hb => (nomatch hb)
    | @cons piece p pieces ps hpiece _ ih =>
        intro hnil
        cases p with
        | none =>
            rw [List.reduceOption_cons_of_none] at hnil
            rw [List.flatten_cons]
            exact (quiet_of_none hpiece).append (ih hnil)
        | some key =>
            rw [List.reduceOption_cons_of_some] at hnil
            cases hnil
  have hq := hquiet h hnil
  rw [flatten_fgetsPieces, List.nil_append] at hq
  cases hline with
  | cidr hlead _ hc => exact not_quiet_of_cidr hlead hc.of_decimal hq
  | @cidrComment lead text trail rest c hlead _ hc =>
      rw [List.append_assoc] at hq
      exact not_quiet_of_cidr hlead hc.of_decimal hq

/-- Lists that are long enough, and give the same together, give the same one by one. -/
theorem forall₂_of_reduceOption {rs : List (Option Prefix)} {qs : List (List (Option Prefix))}
    (h : List.Forall₂ (fun r q => r.toList.length ≤ q.reduceOption.length) rs qs)
    (heq : qs.flatten.reduceOption = rs.reduceOption) :
    List.Forall₂ (fun r q => q.reduceOption = r.toList) rs qs := by
  have hcons : ∀ (r : Option Prefix) (rs : List (Option Prefix)),
      (r :: rs).reduceOption = r.toList ++ rs.reduceOption := by
    intro r rs
    cases r <;> rfl
  have hlong : ∀ {rs : List (Option Prefix)} {qs : List (List (Option Prefix))},
      List.Forall₂ (fun r q => r.toList.length ≤ q.reduceOption.length) rs qs →
      rs.reduceOption.length ≤ qs.flatten.reduceOption.length := by
    intro rs qs h
    induction h with
    | nil => exact Nat.le_refl _
    | cons hr _ ih =>
        rw [hcons, List.flatten_cons, List.reduceOption_append, List.length_append,
          List.length_append]
        exact Nat.add_le_add hr ih
  induction h with
  | nil => exact .nil
  | @cons r q rs qs hr hrest ih =>
      rw [hcons, List.flatten_cons, List.reduceOption_append] at heq
      have hsum := congrArg List.length heq
      rw [List.length_append, List.length_append] at hsum
      have hle := hlong hrest
      obtain ⟨hq, hqs⟩ := List.append_inj heq (by omega)
      exact .cons hq (ih hqs)

/-! ## Which files are read line by line -/

/-- What the lines give is what `strtoul` makes of whole lines, too. -/
theorem LineForm.of_decimal {line : Text} {r : Option Prefix}
    (h : LineForm pton decimal family line r) : LineForm pton wholeNumber family line r := by
  cases h with
  | blank hall => exact .blank hall
  | comment hlead => exact .comment hlead
  | cidr hlead htrail hc => exact .cidr hlead htrail hc.of_decimal
  | cidrComment hlead htrail hc => exact .cidrComment hlead htrail hc.of_decimal

/-- If every piece is taken, each line has a list of what its pieces give. -/
theorem exists_pieces (h : ∀ piece ∈ fgetsPieces [] text,
    ∃ r, LineForm pton wholeNumber family piece r) :
    ∃ qs, List.Forall₂ (fun line q => List.Forall₂ (LineForm pton wholeNumber family)
      (fgetsPieces [] line) q) (linesOf text) qs := by
  refine exists_forall₂ fun line hline => exists_forall₂ fun piece hpiece => h piece ?_
  rw [fgetsPieces_eq]
  exact List.mem_flatMap.mpr ⟨line, hline, hpiece⟩

/-- A load that succeeds has refused no piece. -/
theorem exists_of_ok {path : Text} {map : Lpm} (hnul : (0 : UInt8) ∉ text)
    (hok : (loadCidrFile pton takes family path (some text) map).ok = true) :
    ∀ piece ∈ fgetsPieces [] text, ∃ r, LineForm pton wholeNumber family piece r := by
  intro piece hpiece
  by_contra hn
  rw [not_exists] at hn
  rw [loadCidrFile_refused hnul hpiece hn] at hok
  cases hok

/-- A line read before the current one, or the rest of it and what is left, has its newline last. -/
theorem inner_ne_newline : ∀ {text line : Text}, (∀ b ∈ line, b ≠ newline) →
    ∀ l ∈ linesFrom line text, l ≠ [] ∧ ∀ b ∈ l.dropLast, b ≠ newline := by
  intro text
  induction text with
  | nil =>
      intro line hline l hl
      rw [linesFrom] at hl
      split at hl
      · cases hl
      · rename_i hne
        obtain rfl := List.mem_singleton.mp hl
        exact ⟨hne, fun b hb => hline b ((List.dropLast_sublist _).subset hb)⟩
  | cons b rest ih =>
      intro line hline l hl
      rw [linesFrom] at hl
      split at hl
      · rcases List.mem_cons.mp hl with rfl | hl
        · exact ⟨by simp, by rwa [List.dropLast_concat]⟩
        · exact ih (fun _ hb => absurd hb List.not_mem_nil) l hl
      · rename_i hb
        refine ih (fun x hx => ?_) l hl
        rcases List.mem_append.mp hx with hx | hx
        · exact hline x hx
        · exact List.mem_singleton.mp hx ▸ hb

/-- A line that fits the buffer is one piece. -/
theorem fgetsPieces_of_line {line : Text} (hline : line ∈ linesOf text)
    (hshort : line.length < lineSize) : fgetsPieces [] line = [line] := by
  obtain ⟨hne, hinner⟩ := inner_ne_newline (fun _ hb => absurd hb List.not_mem_nil) line hline
  exact fgetsPieces_of_short hne (by simpa using hshort) hinner

theorem cutsHarmless_of_piece {line : Text} {r : Option Prefix}
    (hpiece : fgetsPieces [] line = [line]) (h : LineForm pton decimal family line r) :
    CutsHarmless pton family line r :=
  ⟨[r], hpiece ▸ .cons h.of_decimal .nil, List.reduceOption_singleton _⟩

/-- Nothing is misread of a file whose lines all fit the buffer, if digits alone stand after every
slash where `strtoul` would take more. -/
theorem nothingMisread_of_plain (hshort : ∀ line ∈ linesOf text, line.length < lineSize)
    (hspelled : ∀ line ∈ linesOf text, ∀ r, LineForm pton wholeNumber family line r →
      LineForm pton decimal family line r) : NothingMisread pton family text := by
  have hpieces : ∀ line ∈ linesOf text, fgetsPieces [] line = [line] := fun line hline =>
    fgetsPieces_of_line hline (hshort line hline)
  refine ⟨fun rs hrs => ?_, fun ⟨line, hline, hbad⟩ => ?_⟩
  · rw [LinesGive, List.forall₂_iff_get] at hrs
    refine List.forall₂_iff_get.mpr ⟨hrs.1, fun i h₁ h₂ => ?_⟩
    exact cutsHarmless_of_piece (hpieces _ (List.get_mem _ _)) (hrs.2 i h₁ h₂)
  · refine ⟨line, hline, line, ?_, fun r hr => hbad r (hspelled line hline r hr)⟩
    rw [hpieces line hline]
    exact List.mem_singleton_self line

/-- A line gives one thing. -/
theorem LineForm.unique {line : Text} {r r' : Option Prefix}
    (h : LineForm pton decimal family line r) (h' : LineForm pton decimal family line r') :
    r = r' := by
  have hread := readLine_eq_some_iff.mpr h.of_decimal
  rw [readLine_eq_some_iff.mpr h'.of_decimal] at hread
  exact (Option.some.inj hread).symm

/-- Nothing is misread of a file whose lines all have one of the forms, if no cut does harm. -/
theorem nothingMisread_of_gives {rs : List (Option Prefix)} (hgive : LinesGive pton family text rs)
    (hcuts : List.Forall₂ (CutsHarmless pton family) (linesOf text) rs) :
    NothingMisread pton family text := by
  refine ⟨fun rs' hrs' => ?_, fun ⟨line, hline, hbad⟩ => ?_⟩
  · have hunique : Relator.RightUnique (LineForm pton decimal family) := fun _ _ _ => LineForm.unique
    exact List.right_unique_forall₂' hunique hgive hrs' ▸ hcuts
  · obtain ⟨i, hi, rfl⟩ := List.mem_iff_getElem.mp hline
    rw [LinesGive, List.forall₂_iff_get] at hgive
    exact absurd (hgive.2 i hi (hgive.1 ▸ hi)) (hbad _)

/-- **Which files are read line by line.**  A file without zeros loads exactly the prefixes on its
lines if the kernel takes them, and fails if a line has another form, if and only if no cut and no
spelling of a number hides what it says. -/
theorem readsLines_iff (pton : InetPton) (family : Family) {text : Text}
    (hnul : (0 : UInt8) ∉ text) :
    ReadsLines pton family text ↔ NothingMisread pton family text := by
  constructor
  · intro h
    refine ⟨fun rs hrs => ?_, fun hbad => ?_⟩
    · have hload := h.loads rs hrs (fun _ _ => true) [slash] [] (by decide) (loadKeys_ok_of_takes _)
      obtain ⟨qs, hqs⟩ := exists_pieces (exists_of_ok hnul (by rw [hload]))
      have hflat := forall₂_flatMap hqs
      rw [← fgetsPieces_eq] at hflat
      have hkeys : loadCidrFile pton (fun _ _ => true) family [slash] (some text) [] = _ :=
        loadCidrFile_eq hnul (by decide) hflat
      have hloaded : (loadKeys (fun _ _ => true) qs.flatten.reduceOption []).loaded =
          qs.flatten.reduceOption := (loadKeys_map (loadKeys_ok_of_takes [])).2
      rw [← hkeys, hload] at hloaded
      have heq : qs.flatten.reduceOption = rs.reduceOption := hloaded.symm
      -- line by line the pieces give at least what the line does
      have hlong : List.Forall₂ (fun r q => r.toList.length ≤ q.reduceOption.length) rs qs := by
        rw [List.forall₂_iff_get] at hqs ⊢
        have hrs' := List.forall₂_iff_get.mp hrs
        refine ⟨hrs'.1.symm.trans hqs.1, fun i h₁ h₂ => ?_⟩
        exact length_le_of_pieces (hrs'.2 i (hrs'.1 ▸ h₁) h₁) (hqs.2 i (hrs'.1 ▸ h₁) h₂)
      have hsame := List.forall₂_iff_get.mp (forall₂_of_reduceOption hlong heq)
      rw [List.forall₂_iff_get] at hqs ⊢
      refine ⟨hqs.1.trans hsame.1.symm, fun i h₁ h₂ => ?_⟩
      exact ⟨_, hqs.2 i h₁ (hqs.1 ▸ h₁), hsame.2 i h₂ (hqs.1 ▸ h₁)⟩
    · by_contra hn
      have hall : ∀ piece ∈ fgetsPieces [] text, ∃ r, LineForm pton wholeNumber family piece r := by
        intro piece hpiece
        by_contra hr
        rw [not_exists] at hr
        rw [fgetsPieces_eq] at hpiece
        obtain ⟨line, hline, hmem⟩ := List.mem_flatMap.mp hpiece
        exact hn ⟨line, hline, piece, hmem, hr⟩
      obtain ⟨ps, hps⟩ := exists_forall₂ hall
      have hfalse := h.refuses hbad (fun _ _ => true) [slash] []
      rw [loadCidrFile_eq hnul (by decide) hps, loadKeys_ok_of_takes] at hfalse
      cases hfalse
  · intro h
    refine ⟨fun rs hrs takes path map hpath hok => ?_, fun hbad takes path map => ?_⟩
    · have hgather : ∀ {lines : List Text} {rs : List (Option Prefix)},
          List.Forall₂ (CutsHarmless pton family) lines rs →
          ∃ ps, List.Forall₂ (LineForm pton wholeNumber family) (lines.flatMap (fgetsPieces [])) ps ∧
            ps.reduceOption = rs.reduceOption := by
        intro lines rs h
        induction h with
        | nil => exact ⟨[], .nil, rfl⟩
        | @cons line r lines rs hline _ ih =>
            obtain ⟨q, hq, hqr⟩ := hline
            obtain ⟨ps, hps, hpsr⟩ := ih
            refine ⟨q ++ ps, List.rel_append hq hps, ?_⟩
            rw [List.reduceOption_append, hqr, hpsr]
            cases r <;> rfl
      obtain ⟨ps, hps, hkeys⟩ := hgather (h.harmless rs hrs)
      rw [← fgetsPieces_eq] at hps
      obtain ⟨hmap, hloaded⟩ := loadKeys_map hok
      rw [loadCidrFile_eq hnul hpath hps, hkeys]
      calc loadKeys takes rs.reduceOption map
          = ⟨(loadKeys takes rs.reduceOption map).loaded, (loadKeys takes rs.reduceOption map).map,
              (loadKeys takes rs.reduceOption map).ok⟩ := rfl
        _ = _ := by rw [hmap, hloaded, hok]
    · obtain ⟨line, hline, piece, hpiece, hr⟩ := h.seen hbad
      refine loadCidrFile_refused hnul ?_ hr
      rw [fgetsPieces_eq]
      exact List.mem_flatMap.mpr ⟨line, hline, hpiece⟩

/-! ## A comment that is cut, and a prefix that is read -/

/-- A comment of 301 characters. -/
def longComment : Text := hash :: List.replicate 300 97

/-- The rest of the comment is taken for a line, and refused. -/
theorem long_comment_refused : ¬∀ (pton : InetPton) (family : Family) (text : Text),
    (0 : UInt8) ∉ text → ReadsLines pton family text := by
  intro hall
  have hlines : linesOf longComment = [longComment] := by decide +kernel
  have hgive : LinesGive tenNets .inet longComment [none] := by
    have hform : LineForm tenNets decimal .inet ([] ++ longComment) none := .comment (by simp)
    rw [LinesGive, hlines]
    exact .cons hform .nil
  have hload := (hall tenNets .inet longComment (by decide +kernel)).loads [none] hgive
    (fun _ _ => true) [slash] [] (by decide) rfl
  have hok : (loadCidrFile tenNets (fun _ _ => true) .inet [slash] (some longComment) []).ok =
      false := by decide +kernel
  rw [hload] at hok
  cases hok

/-- A prefix on a line. -/
def tenLine : Text := ascii "10.0.0.0/8" ++ [newline]

/-- As many blanks as one call of `fgets` takes. -/
def blanks : Text := List.replicate 255 32

theorem blanks_space : ∀ b ∈ blanks, isSpace b = true := fun b hb => by
  rw [List.eq_of_mem_replicate hb]
  decide

/-- A comment, a prefix, and a prefix after so many blanks that it is in the second piece. -/
def threeLines : Text := ascii "# nets" ++ [newline] ++ tenLine ++ (blanks ++ tenLine)

theorem tenLine_form {lead : Text} (hlead : ∀ b ∈ lead, isSpace b = true) :
    LineForm tenNets decimal .inet (lead ++ tenLine) (some ⟨8, [10, 0, 0, 0]⟩) := by
  have hcidr : IsCidr tenNets decimal .inet (ascii "10.0.0.0/8") ⟨8, [10, 0, 0, 0]⟩ :=
    ⟨ascii "10.0.0.0", ascii "8", by decide, by decide, by decide +kernel, by decide⟩
  have hform : LineForm tenNets decimal .inet (lead ++ ascii "10.0.0.0/8" ++ [newline])
      (some (maskKey .inet ⟨8, [10, 0, 0, 0]⟩)) := .cidr hlead (by decide +kernel) hcidr
  rwa [List.append_assoc] at hform

/-- A file with a line that is cut is read as it should be. -/
theorem readsLines_threeLines : ReadsLines tenNets .inet threeLines := by
  have hlines : linesOf threeLines =
      [ascii "# nets" ++ [newline], tenLine, blanks ++ tenLine] := by decide +kernel
  have hcomment : LineForm tenNets decimal .inet ([] ++ (ascii "# nets" ++ [newline])) none :=
    .comment (by simp)
  have hten : LineForm tenNets decimal .inet ([] ++ tenLine) (some ⟨8, [10, 0, 0, 0]⟩) :=
    tenLine_form (by simp)
  have hfar : LineForm tenNets decimal .inet (blanks ++ tenLine) (some ⟨8, [10, 0, 0, 0]⟩) :=
    tenLine_form blanks_space
  have hcut : CutsHarmless tenNets .inet (blanks ++ tenLine) (some ⟨8, [10, 0, 0, 0]⟩) := by
    have hpieces : fgetsPieces [] (blanks ++ tenLine) = [blanks, tenLine] := by decide +kernel
    refine ⟨[none, some ⟨8, [10, 0, 0, 0]⟩], ?_, rfl⟩
    rw [hpieces]
    exact .cons (.blank blanks_space) (.cons hten.of_decimal .nil)
  have hgive : LinesGive tenNets .inet threeLines
      [none, some ⟨8, [10, 0, 0, 0]⟩, some ⟨8, [10, 0, 0, 0]⟩] := by
    rw [LinesGive, hlines]
    exact .cons hcomment (.cons hten (.cons hfar .nil))
  refine (readsLines_iff tenNets .inet (by decide +kernel)).mpr (nothingMisread_of_gives hgive ?_)
  rw [hlines]
  exact .cons (cutsHarmless_of_piece (by decide) hcomment)
    (.cons (cutsHarmless_of_piece (by decide) hten) (.cons hcut .nil))

end Bpf2Socks.Policy

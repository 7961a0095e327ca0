/-
# Bpf2Socks.Dns.Question — reading the first question of a message, byte by byte.

The loop that reads a name follows compression pointers, which may point anywhere: back, forward or
at themselves.  Here it is written with every read checked against the end of the packet, with its
locals as a record and its rounds counted, and with the hash left open: fed to a list instead of an
accumulator, it yields the very bytes that are hashed.

`NameAt` is the reference: what name stands at an offset when at most so many pointers may be
followed.  The loop never reads outside the packet, always comes to an end, accepts exactly the
names that stand there, and hashes them in a form that tells two questions apart unless they are the
same up to ASCII case.
-/
import Mathlib.Data.List.Basic
import Bpf2Socks.Dns.Packet

namespace Bpf2Socks.Dns

/-! ## The reference decoder -/

/-- The name at an offset, following at most `hops` pointers, and the offset after it.  A pointer
counts its target's labels and ends two bytes on. -/
inductive NameAt (packet : List UInt8) : Nat → Nat → List (List UInt8) → Nat → Prop where
  | root {hops cursor : Nat} (head : packet[cursor]? = some 0) :
      NameAt packet hops cursor [] (cursor + 1)
  | label {hops cursor stop : Nat} {bytes : List UInt8} {labels : List (List UInt8)}
      (head : packet[cursor]? = some (UInt8.ofNat bytes.length)) (pos : 0 < bytes.length)
      (short : bytes.length ≤ 63) (there : bytes <+: packet.drop (cursor + 1))
      (rest : NameAt packet hops (cursor + 1 + bytes.length) labels stop) :
      NameAt packet hops cursor (bytes :: labels) stop
  | pointer {hops cursor stop : Nat} {hi lo : UInt8} {labels : List (List UInt8)}
      (head : packet[cursor]? = some hi) (tag : 192 ≤ hi.toNat)
      (next : packet[cursor + 1]? = some lo)
      (target : NameAt packet hops ((hi.toNat - 192) * 256 + lo.toNat) labels stop) :
      NameAt packet (hops + 1) cursor labels (cursor + 2)

/-- A question. -/
structure Question where
  labels : List (List UInt8)
  qtype : UInt16
  qclass : UInt16
  deriving DecidableEq

/-- The question after the header, its name decoded by the reference. -/
def FirstQuestion (packet : List UInt8) (q : Question) : Prop :=
  ∃ stop, NameAt packet maxPointerHops headerSize q.labels stop ∧ stop + 4 ≤ packet.length ∧
    q.qtype = readBe16 packet stop ∧ q.qclass = readBe16 packet (stop + 2)

/-- The same question up to the case of ASCII letters. -/
def Question.Same (q q' : Question) : Prop :=
  q.labels.map (·.map asciiLower) = q'.labels.map (·.map asciiLower) ∧ q.qtype = q'.qtype ∧
    q.qclass = q'.qclass

/-- Labels have from 1 to 63 bytes. -/
theorem NameAt.sizes {packet : List UInt8} {hops cursor stop : Nat} {labels : List (List UInt8)}
    (h : NameAt packet hops cursor labels stop) :
    ∀ bytes ∈ labels, 0 < bytes.length ∧ bytes.length ≤ 63 := by
  induction h with
  | root head => simp
  | label head pos short there rest ih =>
      intro b hb
      rcases List.mem_cons.mp hb with rfl | hb
      · exact ⟨pos, short⟩
      · exact ih b hb
  | pointer head tag next target ih => exact ih

theorem ofNat_length_toNat {n : Nat} (h : n ≤ 63) : (UInt8.ofNat n).toNat = n := by
  rw [UInt8.toNat_ofNat']
  exact Nat.mod_eq_of_lt (by omega)

theorem ofNat_length_inj {m n : Nat} (hm : m ≤ 63) (hn : n ≤ 63)
    (h : UInt8.ofNat m = UInt8.ofNat n) : m = n := by
  have := congrArg UInt8.toNat h
  rwa [ofNat_length_toNat hm, ofNat_length_toNat hn] at this

theorem ofNat_length_ne_zero {n : Nat} (hpos : 0 < n) (h : n ≤ 63) : UInt8.ofNat n ≠ 0 := by
  intro h0
  have : n = 0 := (ofNat_length_toNat h).symm.trans (congrArg UInt8.toNat h0)
  omega

/-- At most one name stands at an offset. -/
theorem NameAt.unique {packet : List UInt8} {hops cursor stop stop' : Nat}
    {labels labels' : List (List UInt8)} (h : NameAt packet hops cursor labels stop)
    (h' : NameAt packet hops cursor labels' stop') : labels = labels' ∧ stop = stop' := by
  induction h generalizing labels' stop' with
  | root head =>
      cases h' with
      | root head' => exact ⟨rfl, rfl⟩
      | label head' pos short there rest =>
          exact absurd (Option.some.inj (head'.symm.trans head)) (ofNat_length_ne_zero pos short)
      | pointer head' tag next target =>
          obtain rfl := Option.some.inj (head.symm.trans head')
          simp at tag
  | @label hops cursor stop bytes labels head pos short there rest ih =>
      cases h' with
      | root head' =>
          exact absurd (Option.some.inj (head.symm.trans head')) (ofNat_length_ne_zero pos short)
      | @label _ _ _ bytes' labels' head' pos' short' there' rest' =>
          have hlen := ofNat_length_inj short short' (Option.some.inj (head.symm.trans head'))
          have hbytes : bytes = bytes' := by
            rw [List.prefix_iff_eq_take.mp there, List.prefix_iff_eq_take.mp there', hlen]
          subst hbytes
          obtain ⟨rfl, rfl⟩ := ih rest'
          exact ⟨rfl, rfl⟩
      | pointer head' tag next target =>
          obtain rfl := Option.some.inj (head.symm.trans head')
          rw [ofNat_length_toNat short] at tag
          omega
  | pointer head tag next target ih =>
      cases h' with
      | root head' =>
          obtain rfl := Option.some.inj (head.symm.trans head')
          simp at tag
      | label head' pos short there rest =>
          obtain rfl := Option.some.inj (head.symm.trans head')
          rw [ofNat_length_toNat short] at tag
          omega
      | pointer head' tag' next' target' =>
          obtain rfl := Option.some.inj (head.symm.trans head')
          obtain rfl := Option.some.inj (next.symm.trans next')
          exact ⟨(ih target').1, rfl⟩

theorem FirstQuestion.unique {packet : List UInt8} {q q' : Question} (h : FirstQuestion packet q)
    (h' : FirstQuestion packet q') : q = q' := by
  obtain ⟨stop, hname, -, htype, hclass⟩ := h
  obtain ⟨stop', hname', -, htype', hclass'⟩ := h'
  obtain ⟨hlabels, rfl⟩ := hname.unique hname'
  obtain ⟨labels, qtype, qclass⟩ := q
  obtain ⟨labels', qtype', qclass'⟩ := q'
  simp only at hlabels htype hclass htype' hclass'
  rw [hlabels, htype, htype', hclass, hclass']

/-! ## The loop, with checked reads -/

/-- The ways to leave a parse without a result.  `outside` is a read past the end of the packet,
and `endless` a loop still running after the rounds it was given. -/
inductive Failure where
  | refused
  | outside
  | endless
  deriving DecidableEq

/-- A read of one byte. -/
def fetch (packet : List UInt8) (offset : Nat) : Except Failure UInt8 :=
  match packet[offset]? with
  | some b => .ok b
  | none => .error .outside

/-- `read_be16`. -/
def fetchBe16 (packet : List UInt8) (offset : Nat) : Except Failure UInt16 := do
  let hi ← fetch packet offset
  let lo ← fetch packet (offset + 1)
  pure (hi.toUInt16 <<< 8 ||| lo.toUInt16)

section Loop

variable {σ : Type} (feed : σ → UInt8 → σ) (packet : List UInt8)

/-- The inner loop of `fingerprint_name`: the bytes of a label. -/
def feedLabel : Nat → Nat → σ → Except Failure σ
  | _, 0, hash => pure hash
  | cursor, n + 1, hash => do
      let b ← fetch packet cursor
      feedLabel (cursor + 1) n (feed hash (asciiLower b))

/-- The locals of `fingerprint_name`. -/
structure NameWalk (σ : Type) where
  cursor : Nat
  endOffset : Nat
  jumped : Bool
  hops : Nat
  hash : σ

/-- A round of the loop of `fingerprint_name`: on, or out with the offset after the name. -/
def nameRound (w : NameWalk σ) : Except Failure (NameWalk σ ⊕ Nat × σ) :=
  if w.cursor < packet.length then do
    let len ← fetch packet w.cursor
    if len &&& 0xc0 = 0xc0 then
      if w.cursor + 1 ≥ packet.length then .error .refused
      else do
        let word ← fetchBe16 packet w.cursor
        let pointer := (word &&& 0x3fff).toNat
        if pointer ≥ packet.length ∨ w.hops + 1 > maxPointerHops then .error .refused
        else
          pure (.inl
            { cursor := pointer
              endOffset := if w.jumped then w.endOffset else w.cursor + 2
              jumped := true
              hops := w.hops + 1
              hash := w.hash })
    else if len &&& 0xc0 ≠ 0 then .error .refused
    else if len = 0 then
      pure (.inr (if w.jumped then w.endOffset else w.cursor + 1, feed w.hash 0))
    else if len > 63 ∨ w.cursor + 1 + len.toNat > packet.length then .error .refused
    else do
      let hash ← feedLabel feed packet (w.cursor + 1) len.toNat (feed w.hash len)
      pure (.inl { w with cursor := w.cursor + 1 + len.toNat, hash })
  else .error .refused

/-- Rounds of the loop. -/
def nameLoop : Nat → NameWalk σ → Except Failure (Nat × σ)
  | 0, _ => .error .endless
  | n + 1, w => do
      let r ← nameRound feed packet w
      match r with
      | .inl w => nameLoop n w
      | .inr r => pure r

/-- `fingerprint_name`. -/
def readName (offset : Nat) (hash : σ) : Except Failure (Nat × σ) :=
  nameLoop feed packet ((maxPointerHops + 1) * (packet.length + 1))
    { cursor := offset, endOffset := 0, jumped := false, hops := 0, hash }

/-- The two bytes of a word, as they are hashed. -/
def feedWord (hash : σ) (word : UInt16) : σ := feed (feed hash (word >>> 8).toUInt8) word.toUInt8

/-- `parse_dns_packet`: the id, and what became of the hash if there is a question. -/
def parseWith (start : σ) (expectResponse : Bool) : Except Failure (UInt16 × Option σ) :=
  if packet.length < headerSize then .error .refused
  else do
    let flags ← fetch packet 2
    if decide (flags &&& 0x80 ≠ 0) ≠ expectResponse then .error .refused
    else do
      let id ← fetchBe16 packet 0
      let qdcount ← fetchBe16 packet 4
      if !expectResponse ∧ qdcount = 0 then .error .refused
      else if qdcount = 0 then pure (id, none)
      else do
        let (questionEnd, hash) ← readName feed packet headerSize start
        if questionEnd + 4 > packet.length then .error .refused
        else do
          let qtype ← fetchBe16 packet questionEnd
          let qclass ← fetchBe16 packet (questionEnd + 2)
          pure (id, some (feedWord feed (feedWord feed hash qtype) qclass))

end Loop

theorem NameAt.after_label {packet : List UInt8} {hops cursor stop : Nat} {bytes : List UInt8}
    {labels : List (List UInt8)} (h : NameAt packet hops cursor labels stop)
    (head : packet[cursor]? = some (UInt8.ofNat bytes.length)) (pos : 0 < bytes.length)
    (short : bytes.length ≤ 63) :
    ∃ labels' stop', NameAt packet hops (cursor + 1 + bytes.length) labels' stop' := by
  cases h with
  | root head' =>
      exact absurd (Option.some.inj (head.symm.trans head')) (ofNat_length_ne_zero pos short)
  | label head' pos' short' there rest =>
      rw [ofNat_length_inj short short' (Option.some.inj (head.symm.trans head'))]
      exact ⟨_, _, rest⟩
  | pointer head' tag next target =>
      rw [← Option.some.inj (head.symm.trans head'), ofNat_length_toNat short] at tag
      omega

theorem NameAt.after_pointer {packet : List UInt8} {hops cursor stop : Nat} {hi lo : UInt8}
    {labels : List (List UInt8)} (h : NameAt packet (hops + 1) cursor labels stop)
    (head : packet[cursor]? = some hi) (tag : 192 ≤ hi.toNat) (next : packet[cursor + 1]? = some lo) :
    ∃ stop', NameAt packet hops ((hi.toNat - 192) * 256 + lo.toNat) labels stop' := by
  cases h with
  | root head' => simp [Option.some.inj (head.symm.trans head')] at tag
  | label head' pos short there rest =>
      rw [Option.some.inj (head.symm.trans head'), ofNat_length_toNat short] at tag
      omega
  | pointer head' tag' next' target =>
      obtain rfl := Option.some.inj (head.symm.trans head')
      obtain rfl := Option.some.inj (next.symm.trans next')
      exact ⟨_, target⟩

/-! ## One round -/

/-- The two top bits of a length byte. -/
theorem tag_cases (b : UInt8) :
    (b &&& 0xc0 = 0xc0 ↔ 192 ≤ b.toNat) ∧ (b &&& 0xc0 = 0 ↔ b.toNat < 64) := by
  have hall : ∀ i : Fin 256, (i.val &&& 192 = 192 ↔ 192 ≤ i.val) ∧ (i.val &&& 192 = 0 ↔ i.val < 64) := by
    decide +kernel
  have h := hall ⟨b.toNat, b.toNat_lt⟩
  rw [← UInt8.toNat_inj, ← UInt8.toNat_inj, UInt8.toNat_and]
  exact h

/-- The value of a word. -/
theorem word_toNat (hi lo : UInt8) :
    (hi.toUInt16 <<< 8 ||| lo.toUInt16).toNat = hi.toNat * 256 + lo.toNat := by
  have hhi := hi.toNat_lt
  simp only [UInt16.toNat_or, UInt16.toNat_shiftLeft, UInt8.toNat_toUInt16, UInt16.reduceToNat,
    Nat.reduceMod]
  rw [Nat.shiftLeft_eq, Nat.mod_eq_of_lt (by omega), ← Nat.shiftLeft_eq,
    ← Nat.shiftLeft_add_eq_or_of_lt lo.toNat_lt, Nat.shiftLeft_eq]

/-- Where a pointer points. -/
theorem pointer_toNat {hi : UInt8} (lo : UInt8) (h : 192 ≤ hi.toNat) :
    ((hi.toUInt16 <<< 8 ||| lo.toUInt16) &&& 0x3fff).toNat = (hi.toNat - 192) * 256 + lo.toNat := by
  have hhi := hi.toNat_lt
  have hlo := lo.toNat_lt
  rw [UInt16.toNat_and, word_toNat, show (0x3fff : UInt16).toNat = 2 ^ 14 - 1 from rfl,
    Nat.and_two_pow_sub_one_eq_mod]
  omega

theorem fetch_some {packet : List UInt8} {offset : Nat} {b : UInt8}
    (h : packet[offset]? = some b) : fetch packet offset = .ok b := by
  simp only [fetch, h]

theorem fetchBe16_some {packet : List UInt8} {offset : Nat} {hi lo : UInt8}
    (hhi : packet[offset]? = some hi) (hlo : packet[offset + 1]? = some lo) :
    fetchBe16 packet offset = .ok (hi.toUInt16 <<< 8 ||| lo.toUInt16) := by
  simp only [fetchBe16, fetch_some hhi, fetch_some hlo]
  rfl

section Round

variable {σ : Type} (feed : σ → UInt8 → σ) (packet : List UInt8)

/-- The label's bytes are there, and are fed in lower case. -/
theorem feedLabel_eq (n : Nat) {cursor : Nat} (h : cursor + n ≤ packet.length) (hash : σ) :
    feedLabel feed packet cursor n hash =
      .ok ((((packet.drop cursor).take n).map asciiLower).foldl feed hash) := by
  induction n generalizing cursor hash with
  | zero => simp [feedLabel, pure, Except.pure]
  | succ n ih =>
      have hlt : cursor < packet.length := by omega
      rw [feedLabel, fetch_some (List.getElem?_eq_getElem hlt), List.drop_eq_getElem_cons hlt]
      exact ih (by omega) _

/-- What a round does.  It refuses only where no name stands; otherwise it ends at a root, or goes
on after a label or at the target of a pointer. -/
inductive RoundIs (w : NameWalk σ) : Except Failure (NameWalk σ ⊕ Nat × σ) → Prop where
  | refused (none : ∀ hops labels stop, w.hops + hops = maxPointerHops →
      ¬ NameAt packet hops w.cursor labels stop) : RoundIs w (.error .refused)
  | root (head : packet[w.cursor]? = some 0) :
      RoundIs w (.ok (.inr (if w.jumped then w.endOffset else w.cursor + 1, feed w.hash 0)))
  | label (bytes : List UInt8) (head : packet[w.cursor]? = some (UInt8.ofNat bytes.length))
      (pos : 0 < bytes.length) (short : bytes.length ≤ 63)
      (there : bytes <+: packet.drop (w.cursor + 1)) :
      RoundIs w (.ok (.inl
        { w with
          cursor := w.cursor + 1 + bytes.length
          hash := (bytes.map asciiLower).foldl feed (feed w.hash (UInt8.ofNat bytes.length)) }))
  | pointer (hi lo : UInt8) (head : packet[w.cursor]? = some hi) (tag : 192 ≤ hi.toNat)
      (next : packet[w.cursor + 1]? = some lo)
      (inside : (hi.toNat - 192) * 256 + lo.toNat < packet.length)
      (room : w.hops < maxPointerHops) :
      RoundIs w (.ok (.inl
        { cursor := (hi.toNat - 192) * 256 + lo.toNat
          endOffset := if w.jumped then w.endOffset else w.cursor + 2
          jumped := true
          hops := w.hops + 1
          hash := w.hash }))

/-- Something stands only inside the packet. -/
theorem NameAt.inside {hops cursor stop : Nat} {labels : List (List UInt8)}
    (h : NameAt packet hops cursor labels stop) : cursor < packet.length := by
  have hlt : ∀ {i : Nat} {b : UInt8}, packet[i]? = some b → i < packet.length := fun hb =>
    (List.getElem?_eq_some_iff.mp hb).1
  cases h with
  | root head => exact hlt head
  | label head pos short there rest => exact hlt head
  | pointer head tag next target => exact hlt head

theorem nameRound_is (w : NameWalk σ) : RoundIs feed packet w (nameRound feed packet w) := by
  unfold nameRound
  by_cases hin : w.cursor < packet.length
  · have hhead : packet[w.cursor]? = some packet[w.cursor] := List.getElem?_eq_getElem hin
    generalize packet[w.cursor] = len at hhead
    obtain ⟨htag, hplain⟩ := tag_cases len
    rw [if_pos hin, fetch_some hhead]
    show RoundIs feed packet w (if len &&& 0xc0 = 0xc0 then _ else _)
    by_cases hptr : len &&& 0xc0 = 0xc0
    · -- a pointer, if its second byte is there, its target is, and one more may be followed
      have htag := htag.mp hptr
      rw [if_pos hptr]
      by_cases hnext : w.cursor + 1 ≥ packet.length
      · rw [if_pos hnext]
        refine .refused fun hops labels stop _ hname => ?_
        cases hname with
        | root head => simp [Option.some.inj (hhead.symm.trans head)] at htag
        | label head pos short there rest =>
            rw [Option.some.inj (hhead.symm.trans head), ofNat_length_toNat short] at htag
            omega
        | pointer head tag next target =>
            have := (List.getElem?_eq_some_iff.mp next).1
            omega
      · rw [if_neg hnext]
        have hsecond : packet[w.cursor + 1]? = some packet[w.cursor + 1] :=
          List.getElem?_eq_getElem (Nat.lt_of_not_le hnext)
        generalize packet[w.cursor + 1] = lo at hsecond
        rw [fetchBe16_some hhead hsecond]
        show RoundIs feed packet w (if ((len.toUInt16 <<< 8 ||| lo.toUInt16) &&& 0x3fff).toNat ≥
          packet.length ∨ _ then _ else _)
        rw [pointer_toNat lo htag]
        by_cases hbad : (len.toNat - 192) * 256 + lo.toNat ≥ packet.length ∨
            w.hops + 1 > maxPointerHops
        · rw [if_pos hbad]
          refine .refused fun hops labels stop hsum hname => ?_
          cases hname with
          | root head => simp [Option.some.inj (hhead.symm.trans head)] at htag
          | label head pos short there rest =>
              rw [Option.some.inj (hhead.symm.trans head), ofNat_length_toNat short] at htag
              omega
          | pointer head tag next target =>
              obtain rfl := Option.some.inj (hhead.symm.trans head)
              obtain rfl := Option.some.inj (hsecond.symm.trans next)
              have := target.inside
              omega
        · rw [if_neg hbad]
          exact .pointer len lo hhead htag hsecond (by omega) (by omega)
    · rw [if_neg hptr]
      have hlow : ¬ 192 ≤ len.toNat := fun h => hptr (htag.mpr h)
      by_cases hbits : len &&& 0xc0 ≠ 0
      · rw [if_pos hbits]
        have hhigh : ¬ len.toNat < 64 := fun h => hbits (hplain.mpr h)
        refine .refused fun hops labels stop _ hname => ?_
        cases hname with
        | root head => simp [Option.some.inj (hhead.symm.trans head)] at hhigh
        | label head pos short there rest =>
            rw [Option.some.inj (hhead.symm.trans head), ofNat_length_toNat short] at hhigh
            omega
        | pointer head tag next target =>
            obtain rfl := Option.some.inj (hhead.symm.trans head)
            exact hlow tag
      · rw [if_neg hbits]
        have h63 : len.toNat < 64 := hplain.mp (not_not.mp hbits)
        by_cases hzero : len = 0
        · subst hzero
          rw [if_pos rfl]
          exact .root hhead
        · rw [if_neg hzero]
          have hpos : 0 < len.toNat := by
            by_contra h0
            exact hzero (UInt8.toNat_inj.mp (by simp; omega))
          by_cases hlong : len > 63 ∨ w.cursor + 1 + len.toNat > packet.length
          · rw [if_pos hlong]
            refine .refused fun hops labels stop _ hname => ?_
            cases hname with
            | root head => exact hzero (Option.some.inj (hhead.symm.trans head))
            | @label _ _ _ bytes _ head pos short there rest =>
                obtain rfl := Option.some.inj (hhead.symm.trans head)
                rw [ofNat_length_toNat short] at hlong
                have hlen := there.length_le
                rw [List.length_drop] at hlen
                rcases hlong with h | h
                · have := UInt8.lt_iff_toNat_lt.mp h
                  rw [ofNat_length_toNat short] at this
                  simp at this
                  omega
                · omega
            | pointer head tag next target =>
                obtain rfl := Option.some.inj (hhead.symm.trans head)
                exact hlow tag
          · -- a label
            rw [if_neg hlong]
            have hroom : w.cursor + 1 + len.toNat ≤ packet.length := by omega
            rw [feedLabel_eq feed packet len.toNat hroom]
            have hbytes : ((packet.drop (w.cursor + 1)).take len.toNat).length = len.toNat := by
              rw [List.length_take, List.length_drop]
              omega
            have := @RoundIs.label σ feed packet w
              ((packet.drop (w.cursor + 1)).take len.toNat)
              (by rw [hbytes, UInt8.ofNat_toNat]; exact hhead) (by omega) (by omega)
              (List.take_prefix _ _)
            rw [hbytes, UInt8.ofNat_toNat] at this
            exact this
  · rw [if_neg hin]
    exact .refused fun hops labels stop _ hname => hin hname.inside

end Round

/-! ## The loop -/

/-- What is hashed of a name: each label after its length, in lower case, and a zero. -/
def nameBytes (labels : List (List UInt8)) : List UInt8 :=
  labels.flatMap (fun bytes => UInt8.ofNat bytes.length :: bytes.map asciiLower) ++ [0]

/-- The rounds a walk may still take: a pointer uses up a hop, anything else bytes. -/
def NameWalk.rounds {σ : Type} (packet : List UInt8) (w : NameWalk σ) : Nat :=
  (maxPointerHops - w.hops) * (packet.length + 1) + (packet.length - w.cursor)

section Loop

variable {σ : Type} (feed : σ → UInt8 → σ) (packet : List UInt8)

theorem NameWalk.rounds_hop {hops : Nat} (h : hops < maxPointerHops) :
    (maxPointerHops - (hops + 1)) * (packet.length + 1) + (packet.length + 1) =
      (maxPointerHops - hops) * (packet.length + 1) := by
  rw [← Nat.succ_mul]
  congr 1
  omega

/-- From a walk with enough rounds the loop comes to an end inside the packet, with the name that
stands there or with none. -/
theorem nameLoop_spec (n : Nat) {w : NameWalk σ} (hhops : w.hops ≤ maxPointerHops)
    (hn : w.rounds packet < n) :
    (∃ labels stop, NameAt packet (maxPointerHops - w.hops) w.cursor labels stop ∧
      nameLoop feed packet n w =
        .ok (if w.jumped then w.endOffset else stop, (nameBytes labels).foldl feed w.hash)) ∨
    nameLoop feed packet n w = .error .refused ∧
      ∀ labels stop, ¬ NameAt packet (maxPointerHops - w.hops) w.cursor labels stop := by
  induction n generalizing w with
  | zero => omega
  | succ n ih =>
      rw [nameLoop]
      have his := nameRound_is feed packet w
      generalize nameRound feed packet w = r at his
      cases his with
      | refused none =>
          exact Or.inr ⟨rfl, fun labels stop => none _ labels stop (by omega)⟩
      | root head =>
          exact Or.inl ⟨[], w.cursor + 1, .root head, rfl⟩
      | label bytes head pos short there =>
          have hlt := (List.getElem?_eq_some_iff.mp head).1
          have hstep := @ih { w with
            cursor := w.cursor + 1 + bytes.length
            hash := (bytes.map asciiLower).foldl feed (feed w.hash (UInt8.ofNat bytes.length)) }
            hhops (by simp only [NameWalk.rounds] at hn ⊢; omega)
          rcases hstep with ⟨labels, stop, hname, hok⟩ | ⟨hbad, hnone⟩
          · refine Or.inl ⟨bytes :: labels, stop, .label head pos short there hname, ?_⟩
            refine hok.trans ?_
            simp [nameBytes, List.foldl_append]
          · refine Or.inr ⟨hbad, fun labels stop hname => ?_⟩
            obtain ⟨_, _, h⟩ := hname.after_label head pos short
            exact hnone _ _ h
      | pointer hi lo head tag next inside room =>
          have hsplit := NameWalk.rounds_hop packet room
          have hstep := @ih
            { cursor := (hi.toNat - 192) * 256 + lo.toNat
              endOffset := if w.jumped then w.endOffset else w.cursor + 2
              jumped := true
              hops := w.hops + 1
              hash := w.hash }
            room (by simp only [NameWalk.rounds] at hn ⊢; omega)
          have hhop : maxPointerHops - w.hops = maxPointerHops - (w.hops + 1) + 1 := by omega
          rw [hhop]
          rcases hstep with ⟨labels, stop, hname, hok⟩ | ⟨hbad, hnone⟩
          · exact Or.inl ⟨labels, w.cursor + 2, .pointer head tag next hname, hok⟩
          · refine Or.inr ⟨hbad, fun labels stop hname => ?_⟩
            obtain ⟨_, h⟩ := hname.after_pointer head tag next
            exact hnone _ _ h

/-- Reading a name. -/
theorem readName_spec (offset : Nat) (hash : σ) :
    (∃ labels stop, NameAt packet maxPointerHops offset labels stop ∧
      readName feed packet offset hash = .ok (stop, (nameBytes labels).foldl feed hash)) ∨
    readName feed packet offset hash = .error .refused ∧
      ∀ labels stop, ¬ NameAt packet maxPointerHops offset labels stop := by
  refine @nameLoop_spec σ feed packet _
    { cursor := offset, endOffset := 0, jumped := false, hops := 0, hash }
    (Nat.zero_le _) ?_
  simp only [NameWalk.rounds, Nat.sub_zero, Nat.add_mul, Nat.one_mul]
  omega

end Loop

/-! ## The parse -/

/-- The four bytes of a word pair. -/
def wordBytes (word : UInt16) : List UInt8 := [(word >>> 8).toUInt8, word.toUInt8]

/-- What is hashed of a question. -/
def Question.bytes (q : Question) : List UInt8 :=
  nameBytes q.labels ++ wordBytes q.qtype ++ wordBytes q.qclass

/-- A message of the expected kind that says it has a question. -/
def Asks (packet : List UInt8) (expectResponse : Bool) : Prop :=
  headerSize ≤ packet.length ∧ decide (byteAt packet 2 &&& 0x80 ≠ 0) = expectResponse ∧
    readBe16 packet 4 ≠ 0

theorem fetch_eq {packet : List UInt8} {offset : Nat} (h : offset < packet.length) :
    fetch packet offset = .ok (byteAt packet offset) := by
  rw [fetch_some (List.getElem?_eq_getElem h), byteAt, List.getD_eq_getElem?_getD,
    List.getElem?_eq_getElem h]
  rfl

theorem fetchBe16_eq {packet : List UInt8} {offset : Nat} (h : offset + 1 < packet.length) :
    fetchBe16 packet offset = .ok (readBe16 packet offset) := by
  simp only [fetchBe16, fetch_eq h, fetch_eq (show offset < packet.length by omega)]
  rfl

/-- What a parse comes to. -/
inductive ParseIs {σ : Type} (feed : σ → UInt8 → σ) (start : σ) (packet : List UInt8)
    (expectResponse : Bool) : Except Failure (UInt16 × Option σ) → Prop where
  | refused (none : ¬ (Asks packet expectResponse ∧ ∃ q, FirstQuestion packet q)) :
      ParseIs feed start packet expectResponse (.error .refused)
  | empty (long : headerSize ≤ packet.length)
      (kind : decide (byteAt packet 2 &&& 0x80 ≠ 0) = expectResponse)
      (response : expectResponse = true) (count : readBe16 packet 4 = 0) :
      ParseIs feed start packet expectResponse (.ok (readBe16 packet 0, none))
  | question (asks : Asks packet expectResponse) (q : Question) (first : FirstQuestion packet q) :
      ParseIs feed start packet expectResponse
        (.ok (readBe16 packet 0, some (q.bytes.foldl feed start)))

theorem parseWith_is {σ : Type} (feed : σ → UInt8 → σ) (start : σ) (packet : List UInt8)
    (expectResponse : Bool) :
    ParseIs feed start packet expectResponse (parseWith feed packet start expectResponse) := by
  unfold parseWith
  by_cases hshort : packet.length < headerSize
  · rw [if_pos hshort]
    exact .refused fun h => absurd h.1.1 (Nat.not_le.mpr hshort)
  · rw [if_neg hshort]
    have hlong : 12 ≤ packet.length := Nat.le_of_not_lt hshort
    rw [fetch_eq (show 2 < packet.length by omega)]
    show ParseIs feed start packet expectResponse
      (if decide (byteAt packet 2 &&& 0x80 ≠ 0) ≠ expectResponse then _ else _)
    by_cases hkind : decide (byteAt packet 2 &&& 0x80 ≠ 0) ≠ expectResponse
    · rw [if_pos hkind]
      exact .refused fun h => hkind h.1.2.1
    · rw [if_neg hkind, fetchBe16_eq (show 0 + 1 < packet.length by omega),
        fetchBe16_eq (show 4 + 1 < packet.length by omega)]
      show ParseIs feed start packet expectResponse
        (if !expectResponse ∧ readBe16 packet 4 = 0 then _ else
          if readBe16 packet 4 = 0 then _ else _)
      by_cases hzero : readBe16 packet 4 = 0
      · rcases expectResponse with _ | _
        · rw [if_pos ⟨rfl, hzero⟩]
          exact .refused fun h => h.1.2.2 hzero
        · rw [if_neg (by simp), if_pos hzero]
          exact .empty hlong (not_not.mp hkind) rfl hzero
      · rw [if_neg (fun h => hzero h.2), if_neg hzero]
        have hasks : Asks packet expectResponse := ⟨hlong, not_not.mp hkind, hzero⟩
        rcases readName_spec feed packet headerSize start with
          ⟨labels, stop, hname, hok⟩ | ⟨hbad, hnone⟩
        · rw [hok]
          show ParseIs feed start packet expectResponse
            (if stop + 4 > packet.length then _ else _)
          by_cases hend : stop + 4 > packet.length
          · rw [if_pos hend]
            refine .refused fun ⟨_, q, stop', hname', hstop, _⟩ => ?_
            obtain ⟨-, rfl⟩ := hname.unique hname'
            omega
          · rw [if_neg hend, fetchBe16_eq (show stop + 1 < packet.length by omega),
              fetchBe16_eq (show stop + 2 + 1 < packet.length by omega)]
            have hq : FirstQuestion packet
                ⟨labels, readBe16 packet stop, readBe16 packet (stop + 2)⟩ :=
              ⟨stop, hname, Nat.le_of_not_lt hend, rfl, rfl⟩
            have := @ParseIs.question σ feed start packet expectResponse hasks _ hq
            rw [Question.bytes, List.foldl_append, List.foldl_append] at this
            exact this
        · rw [hbad]
          exact .refused fun ⟨_, q, stop, hname, _⟩ => hnone _ _ hname

/-! ## The fast path's parse -/

section Fast

variable (packet : List UInt8)

/-- What the recursion over labels makes of a round: a pointer is left to `jump`. -/
def afterRound (jump : Nat → UInt32 → Option UInt32) (fuel : Nat) (w : NameWalk UInt32) :
    Except Failure (NameWalk UInt32 ⊕ Nat × UInt32) → Option (Nat × UInt32)
  | .error _ => none
  | .ok (.inr r) => some (w.cursor + 1, r.2)
  | .ok (.inl w') =>
      if w'.hops = w.hops then labels packet jump fuel w'.cursor w'.hash
      else (jump w'.cursor w'.hash).map fun h => (w.cursor + 2, h)

/-- The recursion over labels takes the rounds of the loop. -/
theorem labels_succ (jump : Nat → UInt32 → Option UInt32) (fuel : Nat) {w : NameWalk UInt32}
    (hin : w.cursor < packet.length)
    (hlast : w.hops = maxPointerHops → ∀ target hash, jump target hash = none)
    (hhops : w.hops ≤ maxPointerHops) :
    labels packet jump (fuel + 1) w.cursor w.hash =
      afterRound packet jump fuel w (nameRound fnv1aUpdate packet w) := by
  unfold nameRound
  rw [if_pos hin, fetch_eq hin, labels, if_neg (Nat.not_le.mpr hin)]
  show (if byteAt packet w.cursor &&& 0xc0 = 0xc0 then _ else _) = afterRound packet jump fuel w
    (if byteAt packet w.cursor &&& 0xc0 = 0xc0 then _ else _)
  by_cases hptr : byteAt packet w.cursor &&& 0xc0 = 0xc0
  · rw [if_pos hptr, if_pos hptr]
    by_cases hnext : w.cursor + 1 ≥ packet.length
    · rw [if_pos hnext, if_pos hnext]
      rfl
    · rw [if_neg hnext, if_neg hnext, fetchBe16_eq (Nat.lt_of_not_le hnext)]
      show (if (readBe16 packet w.cursor &&& 0x3fff).toNat ≥ packet.length then none else _) =
        afterRound packet jump fuel w (if (readBe16 packet w.cursor &&& 0x3fff).toNat ≥
          packet.length ∨ w.hops + 1 > maxPointerHops then _ else _)
      generalize (readBe16 packet w.cursor &&& 0x3fff).toNat = target
      by_cases hout : target ≥ packet.length
      · rw [if_pos hout, if_pos (Or.inl hout)]
        rfl
      · rw [if_neg hout]
        by_cases hfull : w.hops + 1 > maxPointerHops
        · rw [if_pos (Or.inr hfull), hlast (by omega)]
          rfl
        · rw [if_neg (by omega)]
          exact (if_neg (Nat.succ_ne_self w.hops)).symm
  · rw [if_neg hptr, if_neg hptr]
    by_cases hbits : byteAt packet w.cursor &&& 0xc0 ≠ 0
    · rw [if_pos hbits, if_pos hbits]
      rfl
    · rw [if_neg hbits, if_neg hbits]
      by_cases hzero : byteAt packet w.cursor = 0
      · rw [if_pos hzero, if_pos hzero]
        rfl
      · have h63 : ¬ byteAt packet w.cursor > 63 := by
          have := (tag_cases (byteAt packet w.cursor)).2.mp (not_not.mp hbits)
          intro h
          have h := UInt8.lt_iff_toNat_lt.mp h
          simp at h
          omega
        rw [if_neg hzero, if_neg hzero]
        by_cases hlong : w.cursor + 1 + (byteAt packet w.cursor).toNat > packet.length
        · rw [if_pos hlong, if_pos (Or.inr hlong)]
          rfl
        · rw [if_neg hlong, if_neg (not_or.mpr ⟨h63, hlong⟩),
            feedLabel_eq fnv1aUpdate packet _ (Nat.le_of_not_lt hlong), List.foldl_map]
          exact (if_pos rfl).symm

/-- What a decoder that may follow `hops` pointers has to answer. -/
def Reads (hops cursor : Nat) (hash : UInt32) (r : Option (Nat × UInt32)) : Prop :=
  (∃ labels stop, NameAt packet hops cursor labels stop ∧
    r = some (stop, (nameBytes labels).foldl fnv1aUpdate hash)) ∨
  r = none ∧ ∀ labels stop, ¬ NameAt packet hops cursor labels stop

theorem labels_reads {hops : Nat} (hhops : hops ≤ maxPointerHops)
    {jump : Nat → UInt32 → Option UInt32}
    (hlast : hops = 0 → ∀ target hash, jump target hash = none)
    (hjump : ∀ k, hops = k + 1 → ∀ target hash, ∃ r, Reads packet k target hash r ∧
      jump target hash = r.map (·.2)) :
    ∀ (fuel cursor : Nat) (hash : UInt32), packet.length ≤ cursor + fuel →
      Reads packet hops cursor hash (labels packet jump fuel cursor hash) := by
  intro fuel
  induction fuel with
  | zero =>
      intro cursor hash hfuel
      refine Or.inr ⟨rfl, fun labels stop hname => ?_⟩
      have := hname.inside
      omega
  | succ fuel ih =>
      intro cursor hash hfuel
      -- one round of the loop, and for each way it can end the reference reading of it
      by_cases hin : cursor < packet.length
      · have hsucc := @labels_succ packet jump fuel
          { cursor, endOffset := 0, jumped := false, hops := maxPointerHops - hops, hash } hin
          (fun h => hlast (by simp only at h; omega)) (Nat.sub_le _ _)
        have his := nameRound_is fnv1aUpdate packet
          { cursor, endOffset := 0, jumped := false, hops := maxPointerHops - hops, hash }
        simp only at hsucc
        rw [hsucc]
        generalize nameRound fnv1aUpdate packet _ = r at his
        cases his with
        | refused none => exact Or.inr ⟨rfl, fun labels stop => none _ labels stop (by simp; omega)⟩
        | root head => exact Or.inl ⟨[], cursor + 1, .root head, rfl⟩
        | label bytes head pos short there =>
            simp only [afterRound, if_true]
            rcases ih (cursor + 1 + bytes.length) ((bytes.map asciiLower).foldl fnv1aUpdate
              (fnv1aUpdate hash (UInt8.ofNat bytes.length))) (by omega) with
              ⟨labels, stop, hname, hok⟩ | ⟨hbad, hnone⟩
            · refine Or.inl ⟨bytes :: labels, stop, .label head pos short there hname, ?_⟩
              rw [hok]
              simp [nameBytes, List.foldl_append]
            · refine Or.inr ⟨hbad, fun labels stop hname => ?_⟩
              obtain ⟨_, _, h⟩ := hname.after_label head pos short
              exact hnone _ _ h
        | pointer hi lo head tag next inside room =>
            simp only at room
            -- the round followed a pointer, so a hop was left for it
            obtain ⟨k, rfl⟩ : ∃ k, hops = k + 1 := ⟨hops - 1, by omega⟩
            obtain ⟨r, hr, hjmp⟩ := hjump k rfl ((hi.toNat - 192) * 256 + lo.toNat) hash
            simp only [afterRound, Nat.succ_ne_self, if_false, hjmp]
            rcases hr with ⟨labels, stop, hname, rfl⟩ | ⟨rfl, hnone⟩
            · exact Or.inl ⟨labels, cursor + 2, .pointer head tag next hname, rfl⟩
            · refine Or.inr ⟨rfl, fun labels stop hname => ?_⟩
              obtain ⟨_, h⟩ := hname.after_pointer head tag next
              exact hnone _ _ h
      · refine Or.inr ⟨?_, fun labels stop hname => hin hname.inside⟩
        rw [labels, if_pos (Nat.le_of_not_lt hin)]

theorem nameFrom_reads {hops : Nat} (hhops : hops ≤ maxPointerHops) (cursor : Nat) (hash : UInt32) :
    Reads packet hops cursor hash (nameFrom packet hops cursor hash) := by
  induction hops generalizing cursor hash with
  | zero =>
      exact labels_reads packet hhops (fun _ _ _ => rfl) (fun k h => absurd h (by omega)) _ cursor
        hash (by omega)
  | succ hops ih =>
      refine labels_reads packet hhops (fun h => absurd h (by omega)) (fun k hk target h => ?_) _
        cursor hash (by omega)
      obtain rfl := Nat.succ.inj hk
      exact ⟨_, ih (by omega) target h, rfl⟩

/-- The fast path's name is the loop's. -/
theorem fingerprintName_eq (offset : Nat) (hash : UInt32) :
    fingerprintName packet offset hash = (readName fnv1aUpdate packet offset hash).toOption := by
  rcases nameFrom_reads packet (Nat.le_refl maxPointerHops) offset hash with
    ⟨labels, stop, hname, hok⟩ | ⟨hbad, hnone⟩
  · rcases readName_spec fnv1aUpdate packet offset hash with
      ⟨labels', stop', hname', hok'⟩ | ⟨-, hnone⟩
    · obtain ⟨rfl, rfl⟩ := hname.unique hname'
      rw [fingerprintName, hok, hok']
      rfl
    · exact absurd hname (hnone _ _)
  · rcases readName_spec fnv1aUpdate packet offset hash with
      ⟨labels', stop', hname', -⟩ | ⟨hbad', -⟩
    · exact absurd hname' (hnone _ _)
    · rw [fingerprintName, hbad, hbad']
      rfl

/-- What a caller learns of a parse. -/
def report : Except Failure (UInt16 × Option UInt32) → Option PacketInfo
  | .error _ => none
  | .ok (id, none) => some ⟨id, 0, false⟩
  | .ok (id, some hash) => some ⟨id, if hash = 0 then 1 else hash, true⟩

/-- The two bytes of a word are hashed as they stand in the packet. -/
theorem wordBytes_readBe16 {offset : Nat} (h : offset + 1 < packet.length) :
    wordBytes (readBe16 packet offset) = (packet.drop offset).take 2 := by
  have h0 : offset < packet.length := by omega
  have hbyte : ∀ {i : Nat} (hi : i < packet.length), byteAt packet i = packet[i] := by
    intro i hi
    rw [byteAt, List.getD_eq_getElem?_getD, List.getElem?_eq_getElem hi]
    rfl
  rw [List.drop_eq_getElem_cons h0, List.drop_eq_getElem_cons h, wordBytes, readBe16, hbyte h0,
    hbyte h]
  have hhi := (packet[offset]).toNat_lt
  have hlo := (packet[offset + 1]).toNat_lt
  simp only [List.take_succ_cons, List.take_zero, List.cons.injEq, and_true]
  constructor
  · rw [← UInt8.toNat_inj, UInt16.toNat_toUInt8, UInt16.toNat_shiftRight, word_toNat]
    simp only [UInt16.reduceToNat, Nat.reduceMod, Nat.shiftRight_eq_div_pow]
    omega
  · rw [← UInt8.toNat_inj, UInt16.toNat_toUInt8, word_toNat]
    omega

/-- The fast path's parse is the checked one. -/
theorem parseDnsPacket_eq (expectResponse : Bool) :
    parseDnsPacket packet expectResponse =
      report (parseWith fnv1aUpdate packet 2166136261 expectResponse) := by
  unfold parseDnsPacket parseWith
  by_cases hshort : packet.length < headerSize
  · rw [if_pos hshort, if_pos hshort]
    rfl
  · have hlong : 12 ≤ packet.length := Nat.le_of_not_lt hshort
    rw [if_neg hshort, if_neg hshort, fetch_eq (show 2 < packet.length by omega)]
    show _ = report (if decide (byteAt packet 2 &&& 0x80 ≠ 0) ≠ expectResponse then _ else _)
    by_cases hkind : decide (byteAt packet 2 &&& 0x80 ≠ 0) ≠ expectResponse
    · rw [if_pos hkind, if_pos hkind]
      rfl
    · rw [if_neg hkind, if_neg hkind, fetchBe16_eq (show 0 + 1 < packet.length by omega),
        fetchBe16_eq (show 4 + 1 < packet.length by omega)]
      show _ = report (if !expectResponse ∧ readBe16 packet 4 = 0 then _ else
        if readBe16 packet 4 = 0 then _ else _)
      dsimp only
      by_cases hzero : readBe16 packet 4 = 0
      · rw [if_pos hzero]
        rcases expectResponse with _ | _
        · simp [hzero, report]
        · simp [hzero, report, pure, Except.pure]
      · rw [if_neg hzero, if_neg (fun h => hzero h.2), if_neg hzero, fingerprintName_eq]
        rcases readName fnv1aUpdate packet headerSize 2166136261 with e | ⟨stop, hash⟩
        · rfl
        · show (if stop + 4 > packet.length then none else _) =
            report (if stop + 4 > packet.length then _ else _)
          by_cases hend : stop + 4 > packet.length
          · rw [if_pos hend, if_pos hend]
            rfl
          · rw [if_neg hend, if_neg hend, fetchBe16_eq (show stop + 1 < packet.length by omega),
              fetchBe16_eq (show stop + 2 + 1 < packet.length by omega)]
            have hfour : (packet.drop stop).take 4 =
                wordBytes (readBe16 packet stop) ++ wordBytes (readBe16 packet (stop + 2)) := by
              rw [wordBytes_readBe16 packet (by omega), wordBytes_readBe16 packet (by omega),
                ← List.drop_drop, ← List.take_add]
            rw [hfour, List.foldl_append]
            rfl

end Fast

/-! ## Telling questions apart -/

/-- A name can be read back from what is hashed of it, whatever follows. -/
theorem nameBytes_inj {labels labels' : List (List UInt8)} {t t' : List UInt8}
    (h : ∀ bytes ∈ labels, 0 < bytes.length ∧ bytes.length ≤ 63)
    (h' : ∀ bytes ∈ labels', 0 < bytes.length ∧ bytes.length ≤ 63)
    (heq : nameBytes labels ++ t = nameBytes labels' ++ t') :
    labels.map (·.map asciiLower) = labels'.map (·.map asciiLower) ∧ t = t' := by
  induction labels generalizing labels' with
  | nil =>
      rcases labels' with _ | ⟨bytes', labels'⟩
      · exact ⟨rfl, (List.cons.inj heq).2⟩
      · obtain ⟨hpos, hshort⟩ := h' bytes' List.mem_cons_self
        exact absurd (List.cons.inj heq).1.symm (ofNat_length_ne_zero hpos hshort)
  | cons bytes labels ih =>
      obtain ⟨hpos, hshort⟩ := h bytes List.mem_cons_self
      rcases labels' with _ | ⟨bytes', labels'⟩
      · exact absurd (List.cons.inj heq).1 (ofNat_length_ne_zero hpos hshort)
      · obtain ⟨hpos', hshort'⟩ := h' bytes' List.mem_cons_self
        -- equal length bytes, hence labels of equal length, hence equal in lower case
        have hsplit : ∀ (b : List UInt8) (ls : List (List UInt8)) (u : List UInt8),
            nameBytes (b :: ls) ++ u =
              UInt8.ofNat b.length :: (b.map asciiLower ++ (nameBytes ls ++ u)) := by
          simp [nameBytes]
        rw [hsplit, hsplit] at heq
        obtain ⟨hlen, hrest⟩ := List.cons.inj heq
        have hlen := ofNat_length_inj hshort hshort' hlen
        obtain ⟨hlower, htail⟩ := List.append_inj hrest (by simp [hlen])
        obtain ⟨hmap, ht⟩ := ih (fun b hb => h b (List.mem_cons_of_mem _ hb))
          (fun b hb => h' b (List.mem_cons_of_mem _ hb)) htail
        exact ⟨by rw [List.map_cons, List.map_cons, hlower, hmap], ht⟩

theorem wordBytes_inj {word word' : UInt16} (h : wordBytes word = wordBytes word') :
    word = word' := by
  obtain ⟨hhi, hlo⟩ := List.cons.inj h
  have hlo := (List.cons.inj hlo).1
  rw [← bytes_of_id word, ← bytes_of_id word', hhi, hlo]

/-- Names equal up to case are hashed the same. -/
theorem nameBytes_congr {labels labels' : List (List UInt8)}
    (h : labels.map (·.map asciiLower) = labels'.map (·.map asciiLower)) :
    nameBytes labels = nameBytes labels' := by
  have hform : ∀ ls : List (List UInt8), nameBytes ls =
      (ls.map (·.map asciiLower)).flatMap (fun b => UInt8.ofNat b.length :: b) ++ [0] := by
    intro ls
    simp [nameBytes, List.flatMap_map]
  rw [hform, hform, h]

theorem Question.bytes_eq_iff {q q' : Question}
    (h : ∀ bytes ∈ q.labels, 0 < bytes.length ∧ bytes.length ≤ 63)
    (h' : ∀ bytes ∈ q'.labels, 0 < bytes.length ∧ bytes.length ≤ 63) :
    q.bytes = q'.bytes ↔ q.Same q' := by
  constructor
  · intro heq
    unfold Question.bytes at heq
    rw [List.append_assoc, List.append_assoc] at heq
    obtain ⟨hlabels, hwords⟩ := nameBytes_inj h h' heq
    obtain ⟨htype, hclass⟩ := List.append_inj hwords rfl
    exact ⟨hlabels, wordBytes_inj htype, wordBytes_inj hclass⟩
  · rintro ⟨hlabels, htype, hclass⟩
    unfold Question.bytes
    rw [nameBytes_congr hlabels, htype, hclass]

/-- What is hashed of a message: the bytes fed to the hash, as a list. -/
def hashedInput (packet : List UInt8) (expectResponse : Bool) :
    Except Failure (UInt16 × Option (List UInt8)) :=
  parseWith (fun bytes b => bytes ++ [b]) packet [] expectResponse

theorem foldl_snoc (bytes start : List UInt8) :
    bytes.foldl (fun l b => l ++ [b]) start = start ++ bytes := by
  induction bytes generalizing start with
  | nil => simp
  | cons b bytes ih => simp [ih]

/-- For every byte string and whichever kind is expected: the parse reads inside the packet and
comes to an end, and is the one the fast path uses; it yields a fingerprint exactly when the message
is of that kind, says it has a question and the reference decoder reads one; and what is hashed of
two messages is the same exactly when their questions are, up to ASCII case. -/
theorem question_fingerprint :
    (∀ (packet : List UInt8) (expectResponse : Bool) {σ : Type} (feed : σ → UInt8 → σ) (start : σ),
      parseWith feed packet start expectResponse ≠ .error .outside ∧
      parseWith feed packet start expectResponse ≠ .error .endless) ∧
    (∀ (packet : List UInt8) (expectResponse : Bool),
      parseDnsPacket packet expectResponse =
        report (parseWith fnv1aUpdate packet 2166136261 expectResponse)) ∧
    (∀ (packet : List UInt8) (expectResponse : Bool),
      (∃ info, parseDnsPacket packet expectResponse = some info ∧ info.hasQuestion = true) ↔
        Asks packet expectResponse ∧ ∃! q, FirstQuestion packet q) ∧
    (∀ (packet : List UInt8) (expectResponse : Bool) (id : UInt16) (bytes : List UInt8),
      hashedInput packet expectResponse = .ok (id, some bytes) →
        parseWith fnv1aUpdate packet 2166136261 expectResponse =
          .ok (id, some (bytes.foldl fnv1aUpdate 2166136261))) ∧
    ∀ (packet packet' : List UInt8) (expect expect' : Bool) (id id' : UInt16)
      (bytes bytes' : List UInt8) (q q' : Question),
      hashedInput packet expect = .ok (id, some bytes) →
      hashedInput packet' expect' = .ok (id', some bytes') →
      FirstQuestion packet q → FirstQuestion packet' q' → (bytes = bytes' ↔ q.Same q') := by
  -- hashing into a list instead of a number shows which bytes are hashed
  have hhashed : ∀ {packet : List UInt8} {expect : Bool} {id : UInt16} {bytes : List UInt8},
      hashedInput packet expect = .ok (id, some bytes) →
      Asks packet expect ∧ ∃ q, FirstQuestion packet q ∧ bytes = q.bytes ∧
        id = readBe16 packet 0 := by
    intro packet expect id bytes h
    have his := parseWith_is (fun (l : List UInt8) b => l ++ [b]) [] packet expect
    rw [show parseWith _ packet [] expect = _ from h] at his
    generalize hr : (Except.ok (id, some bytes) : Except Failure _) = r at his
    cases his with
    | refused _ => cases hr
    | empty _ _ _ _ => cases hr
    | question asks q first =>
        obtain ⟨hid, hbytes⟩ := Prod.mk.inj (Except.ok.inj hr)
        exact ⟨asks, q, first, by rw [Option.some.inj hbytes, foldl_snoc, List.nil_append], hid⟩
  refine ⟨fun packet expect σ feed start => ?_, fun packet expect => parseDnsPacket_eq packet expect,
    fun packet expect => ?_, fun packet expect id bytes h => ?_,
    fun packet packet' expect expect' id id' bytes bytes' q q' h h' hq hq' => ?_⟩
  · have his := parseWith_is feed start packet expect
    generalize parseWith feed packet start expect = r at his
    cases his <;> exact ⟨nofun, nofun⟩
  · rw [parseDnsPacket_eq]
    have his := parseWith_is fnv1aUpdate 2166136261 packet expect
    generalize parseWith fnv1aUpdate packet 2166136261 expect = r at his
    cases his with
    | refused none =>
        refine ⟨fun ⟨_, h, _⟩ => absurd h nofun, fun ⟨hasks, q, hq, _⟩ => ?_⟩
        exact absurd ⟨hasks, q, hq⟩ none
    | empty _ _ _ count =>
        refine ⟨fun ⟨info, h, hq⟩ => ?_, fun h => absurd count h.1.2.2⟩
        obtain rfl := Option.some.inj h
        exact absurd hq Bool.false_ne_true
    | question asks q first =>
        exact ⟨fun _ => ⟨asks, q, first, fun q' hq' => hq'.unique first⟩,
          fun _ => ⟨_, rfl, rfl⟩⟩
  · obtain ⟨hasks, q, hq, rfl, rfl⟩ := hhashed h
    have his := parseWith_is fnv1aUpdate 2166136261 packet expect
    generalize parseWith fnv1aUpdate packet 2166136261 expect = r at his
    cases his with
    | refused none => exact absurd ⟨hasks, q, hq⟩ none
    | empty _ _ _ count => exact absurd count hasks.2.2
    | question _ q' first =>
        obtain rfl := hq.unique first
        rfl
  · obtain ⟨-, p, hp, rfl, -⟩ := hhashed h
    obtain ⟨-, p', hp', rfl, -⟩ := hhashed h'
    obtain rfl := hq.unique hp
    obtain rfl := hq'.unique hp'
    obtain ⟨_, hname, _⟩ := hq
    obtain ⟨_, hname', _⟩ := hq'
    exact Question.bytes_eq_iff hname.sizes hname'.sizes

end Bpf2Socks.Dns

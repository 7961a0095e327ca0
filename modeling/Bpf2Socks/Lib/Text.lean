/-
# Bpf2Socks.Lib.Text — trimming and cutting texts.

A text is a list of characters of any type, with a predicate for its blanks.  Trimming takes the
blanks off both ends; cutting at a mark leaves what stands before its first occurrence.
-/
import Mathlib.Data.List.DropRight
import Mathlib.Data.List.Flatten

namespace Lib

variable {α : Type}

/-! ## Trimming -/

/-- The text without the blanks at its ends. -/
def trim (blank : α → Bool) (text : List α) : List α := (text.dropWhile blank).rdropWhile blank

/-- No blank stands at an end of the text. -/
structure Trimmed (blank : α → Bool) (text : List α) : Prop where
  head : ∀ x ∈ text.head?, blank x = false
  last : ∀ x ∈ text.getLast?, blank x = false

variable {blank : α → Bool}

theorem dropWhile_append_of_trimmed {lead text : List α} (hlead : ∀ x ∈ lead, blank x = true)
    (htext : ∀ x ∈ text.head?, blank x = false) : (lead ++ text).dropWhile blank = text := by
  rw [List.dropWhile_append_of_pos hlead]
  cases text with
  | nil => rfl
  | cons x text => rw [List.dropWhile_cons_of_neg (by simp [htext x rfl])]

theorem rdropWhile_append_of_trimmed {text trail : List α} (htrail : ∀ x ∈ trail, blank x = true)
    (htext : ∀ x ∈ text.getLast?, blank x = false) : (text ++ trail).rdropWhile blank = text := by
  rw [List.rdropWhile, List.reverse_append, dropWhile_append_of_trimmed (by simpa using htrail)
    (by simpa using htext), List.reverse_reverse]

/-- Trimming takes off exactly the blanks around a trimmed text. -/
theorem trim_append {lead text trail : List α} (hlead : ∀ x ∈ lead, blank x = true)
    (htrail : ∀ x ∈ trail, blank x = true) (htext : Trimmed blank text) (hne : text ≠ []) :
    trim blank (lead ++ text ++ trail) = text := by
  rw [trim, List.append_assoc, dropWhile_append_of_trimmed hlead,
    rdropWhile_append_of_trimmed htrail htext.last]
  rw [List.head?_append_of_ne_nil _ hne]
  exact htext.head

theorem trim_eq_nil_iff {text : List α} : trim blank text = [] ↔ ∀ x ∈ text, blank x = true := by
  rw [trim, List.rdropWhile_eq_nil_iff]
  constructor
  · intro h x hx
    by_contra hb
    have hnil : text.dropWhile blank ≠ [] := by
      rw [Ne, List.dropWhile_eq_nil_iff]
      exact fun hall => hb (hall x hx)
    obtain ⟨y, rest, hy⟩ := List.exists_cons_of_ne_nil hnil
    have hnot := List.head_dropWhile_not blank hnil
    rw [h _ (List.head_mem hnil)] at hnot
    cases hnot
  · exact fun h x hx => h x ((List.dropWhile_sublist blank).subset hx)

/-- What trimming takes off. -/
theorem exists_trim (blank : α → Bool) (text : List α) :
    ∃ lead trail, text = lead ++ trim blank text ++ trail ∧ (∀ x ∈ lead, blank x = true) ∧
      ∀ x ∈ trail, blank x = true := by
  refine ⟨text.takeWhile blank, (text.dropWhile blank).rtakeWhile blank, ?_,
    fun x hx => List.mem_takeWhile_imp hx, fun x hx => List.mem_rtakeWhile_imp hx⟩
  rw [trim, List.append_assoc, List.rdropWhile_append_rtakeWhile, List.takeWhile_append_dropWhile]

theorem trim_dropWhile (text : List α) : trim blank (text.dropWhile blank) = trim blank text := by
  rw [trim, List.dropWhile_idempotent, trim]

theorem dropWhile_append_mark {mark : α} (hmark : blank mark = false) (text rest : List α) :
    (text ++ mark :: rest).dropWhile blank = text.dropWhile blank ++ mark :: rest := by
  have hstop : (mark :: rest).dropWhile blank = mark :: rest :=
    List.dropWhile_cons_of_neg (by simp [hmark])
  rw [List.dropWhile_append]
  split
  · rename_i hempty
    rw [List.isEmpty_iff.mp hempty, hstop, List.nil_append]
  · rfl

/-- A mark in the text keeps the blanks on either side of it. -/
theorem trim_append_mark {mark : α} (hmark : blank mark = false) (text rest : List α) :
    trim blank (text ++ mark :: rest) =
      text.dropWhile blank ++ mark :: rest.rdropWhile blank := by
  rw [trim, dropWhile_append_mark hmark, List.rdropWhile, List.reverse_append, List.reverse_cons,
    List.append_assoc, List.singleton_append, dropWhile_append_mark hmark, List.reverse_append,
    List.reverse_cons, List.reverse_reverse, List.append_assoc, List.singleton_append]
  rfl

/-! ## Cutting at a mark -/

variable [DecidableEq α]

/-- What stands before the first mark. -/
def before (mark : α) (text : List α) : List α := text.takeWhile fun x => x ≠ mark

theorem before_eq_self {mark : α} {text : List α} (h : mark ∉ text) : before mark text = text := by
  rw [before, List.takeWhile_eq_self_iff]
  intro x hx
  exact decide_eq_true fun he => h (he ▸ hx)

theorem before_append {mark : α} {text rest : List α} (h : mark ∉ text) :
    before mark (text ++ mark :: rest) = text := by
  have hall : ∀ x ∈ text, (decide (x ≠ mark)) = true := fun x hx =>
    decide_eq_true fun he => h (he ▸ hx)
  rw [before, List.takeWhile_append_of_pos hall, List.takeWhile_cons_of_neg (by simp),
    List.append_nil]

omit [DecidableEq α] in
/-- What stands after the mark. -/
theorem drop_before (mark : α) (text rest : List α) :
    (text ++ mark :: rest).drop (text.length + 1) = rest := by
  rw [List.drop_append]
  simp

theorem not_mem_before (mark : α) (text : List α) : mark ∉ before mark text := fun h => by
  simpa using List.mem_takeWhile_imp h

/-- A text is what stands before the first mark, alone or with the mark and the rest after it. -/
theorem before_cases (mark : α) (text : List α) :
    (mark ∉ text ∧ text = before mark text) ∨ ∃ rest, text = before mark text ++ mark :: rest := by
  by_cases h : mark ∈ text
  · right
    obtain ⟨head, rest, rfl, hhead⟩ := List.eq_append_cons_of_mem h
    exact ⟨rest, by rw [before_append hhead]⟩
  · exact .inl ⟨h, (before_eq_self h).symm⟩

end Lib

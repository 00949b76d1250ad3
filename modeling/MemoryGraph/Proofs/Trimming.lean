-- SUMMARY: Trimming twice is trimming once, and a text that passed its check passes it trimmed.
import MemoryGraph.Record.Validation
import Mathlib.Data.List.DropRight

/-!
# Trimming

A text is trimmed when no blank stands at either end. Trimming gives such a text
and leaves such a text alone, and it takes nothing but blanks away, so that a
text which passed its check passes it again once trimmed.
-/
namespace MemoryGraph

open Text

namespace Text

/-- No blank stands at either end. -/
structure Trimmed (cs : List Char) : Prop where
  head : ∀ c ∈ cs.head?, isBlank c = false
  last : ∀ c ∈ cs.getLast?, isBlank c = false

/-! ## Characters -/

theorem dropWhile_eq_self {cs : List Char} (h : ∀ c ∈ cs.head?, isBlank c = false) :
    cs.dropWhile isBlank = cs := by
  cases cs with
  | nil => rfl
  | cons c cs => simp [h c rfl]

theorem head?_dropWhile (cs : List Char) :
    ∀ c ∈ (cs.dropWhile isBlank).head?, isBlank c = false := by
  intro c hc
  have hhead := List.head?_dropWhile_not isBlank cs
  rw [Option.mem_def] at hc
  simpa [hc] using hhead

theorem Trimmed.trimChars_eq {cs : List Char} (h : Trimmed cs) : trimChars cs = cs := by
  have hlast : ∀ c ∈ cs.reverse.head?, isBlank c = false := by
    simpa [List.head?_reverse] using h.last
  unfold trimChars
  rw [dropWhile_eq_self h.head, dropWhile_eq_self hlast, List.reverse_reverse]

theorem trimmed_trimChars (cs : List Char) : Trimmed (trimChars cs) := by
  constructor
  · intro c hc
    -- What is cut off behind leaves a prefix, and a prefix that is not empty keeps its head.
    have hprefix : trimChars cs <+: cs.dropWhile isBlank := by
      have := List.dropWhile_suffix (l := (cs.dropWhile isBlank).reverse) isBlank
      simpa [trimChars] using List.reverse_prefix.2 this
    obtain ⟨rest, hrest⟩ := hprefix
    apply head?_dropWhile cs c
    rw [← hrest]
    exact List.mem_head?_append_of_mem_head? hc
  · intro c hc
    rw [trimChars, List.getLast?_reverse] at hc
    exact head?_dropWhile _ c hc

theorem trimChars_trimChars (cs : List Char) : trimChars (trimChars cs) = trimChars cs :=
  (trimmed_trimChars cs).trimChars_eq

theorem trimChars_sublist (cs : List Char) : (trimChars cs).Sublist cs := by
  have hback := (List.dropWhile_sublist isBlank (l := (cs.dropWhile isBlank).reverse)).reverse
  rw [List.reverse_reverse] at hback
  exact hback.trans (List.dropWhile_sublist isBlank)

theorem trimChars_eq_nil {cs : List Char} : trimChars cs = [] ↔ cs.all isBlank = true := by
  constructor
  · intro h
    have hback : ∀ c ∈ cs.dropWhile isBlank, isBlank c = true := by
      simpa [trimChars, List.dropWhile_eq_nil_iff] using h
    have hnone : cs.dropWhile isBlank = [] := by
      cases hd : cs.dropWhile isBlank with
      | nil => rfl
      | cons c rest =>
        have hno := head?_dropWhile cs c (by simp [hd])
        rw [hback c (by simp [hd])] at hno
        cases hno
    simpa [List.dropWhile_eq_nil_iff] using hnone
  · intro h
    have hnone : cs.dropWhile isBlank = [] := by simpa [List.dropWhile_eq_nil_iff] using h
    simp [trimChars, hnone]

theorem trimChars_cons_blank {c : Char} {cs : List Char} (h : isBlank c = true) :
    trimChars (c :: cs) = trimChars cs := by
  simp [trimChars, h]

/-- Trimming takes the blanks around a text away and nothing else. -/
theorem Trimmed.trimChars_between {cs before after : List Char} (h : Trimmed cs)
    (hbefore : ∀ c ∈ before, isBlank c = true) (hafter : ∀ c ∈ after, isBlank c = true) :
    trimChars (before ++ (cs ++ after)) = cs := by
  have hback : ∀ c ∈ after.reverse, isBlank c = true := by simpa using hafter
  cases cs with
  | nil =>
    rw [List.nil_append, trimChars_eq_nil, List.all_append, List.all_eq_true.2 hbefore,
      List.all_eq_true.2 hafter, Bool.and_self]
  | cons c cs =>
    have hhead : ∀ d ∈ (c :: cs ++ after).head?, isBlank d = false := h.head
    have hlast : ∀ d ∈ (c :: cs).reverse.head?, isBlank d = false := by
      simpa only [List.head?_reverse] using h.last
    rw [trimChars, List.dropWhile_append_of_pos hbefore, dropWhile_eq_self hhead,
      List.reverse_append, List.dropWhile_append_of_pos hback, dropWhile_eq_self hlast,
      List.reverse_reverse]

theorem exists_trimChars (cs : List Char) : ∃ before after,
    cs = before ++ (trimChars cs ++ after) ∧ (∀ c ∈ before, isBlank c = true) ∧
      ∀ c ∈ after, isBlank c = true := by
  have hblank (ds : List Char) : ∀ c ∈ ds.takeWhile isBlank, isBlank c = true :=
    List.all_eq_true.1 List.all_takeWhile
  refine ⟨cs.takeWhile isBlank, ((cs.dropWhile isBlank).reverse.takeWhile isBlank).reverse, ?_,
    hblank cs, ?_⟩
  · rw [trimChars, ← List.reverse_append, List.takeWhile_append_dropWhile, List.reverse_reverse,
      List.takeWhile_append_dropWhile]
  · intro c hc
    exact hblank _ c (List.mem_reverse.1 hc)

/-! ## Texts -/

@[simp] theorem trim_trim (s : String) : trim (trim s) = trim s := by
  simp [trim, trimChars_trimChars]

theorem trim_eq_self {s : String} (h : Trimmed s.toList) : trim s = s := by
  rw [trim, h.trimChars_eq, String.ofList_toList]

@[simp] theorem allBlank_trim (s : String) : allBlank (trim s) = allBlank s := by
  rw [Bool.eq_iff_iff]
  unfold allBlank
  rw [toList_trim, ← trimChars_eq_nil, ← trimChars_eq_nil, trimChars_trimChars]

theorem allBlank_eq_false {s : String} {c : Char} (h : c ∈ s.toList) (hc : isBlank c = false) :
    allBlank s = false := by
  unfold allBlank
  rw [List.all_eq_false]
  exact ⟨c, h, by simp [hc]⟩

theorem nonBlank?_of_kept {text : String} (hblank : allBlank text = false)
    (htrim : trim text = text) : nonBlank? (some text) = some text := by
  simp [nonBlank?, hblank, htrim]

/-- A text that cleaning leaves alone holds something and has no blanks at its ends. -/
theorem trimmed_of_nonBlank? {text : String} (h : nonBlank? (some text) = some text) :
    text ≠ "" ∧ trim text = text := by
  cases hblank : allBlank text with
  | true => simp [nonBlank?, hblank] at h
  | false =>
    constructor
    · rintro rfl
      simp [allBlank] at hblank
    · simpa [nonBlank?, hblank] using h

/-- A text that may be absent keeps its form when it is cleaned twice. -/
@[simp] theorem nonBlank?_nonBlank? (s : Option String) :
    nonBlank? (nonBlank? s) = nonBlank? s := by
  cases s with
  | none => rfl
  | some text =>
    by_cases h : allBlank text = true
    · simp [nonBlank?, h]
    · simp [nonBlank?, h]

end Text

/-! ## Checked texts -/

/-- A text that passed its check and has no blanks at its ends. -/
structure Field.Settled (field : Field) (text : String) : Prop where
  passes : field.fault? text = none
  trim_eq : trim text = text

theorem Field.fault?_eq_none {field : Field} {text : String} :
    field.fault? text = none ↔ allBlank text = false ∧ text.length ≤ field.maxLength ∧
      ∀ c ∈ text.toList, field.forbids c = false := by
  unfold Field.fault?
  split_ifs with hblank hlong hchars
  · simp [hblank]
  · simp [Nat.not_le.2 hlong]
  · simp only [List.any_eq_true] at hchars
    obtain ⟨c, hc, hforbidden⟩ := hchars
    simp only [false_iff]
    rintro ⟨_, _, hclean⟩
    simp [hclean c hc] at hforbidden
  · simp_all

theorem Field.not_blank {field : Field} {text : String} (h : field.fault? text = none) :
    allBlank text = false :=
  (Field.fault?_eq_none.1 h).1

theorem Field.fault?_trim {field : Field} {text : String} (h : field.fault? text = none) :
    field.fault? (trim text) = none := by
  obtain ⟨hblank, hshort, hclean⟩ := Field.fault?_eq_none.1 h
  have hsub : (trim text).toList.Sublist text.toList := by
    simpa only [toList_trim] using trimChars_sublist text.toList
  have hlength : (trim text).length ≤ text.length := by
    simpa only [String.length_toList] using hsub.length_le
  apply Field.fault?_eq_none.2
  refine ⟨by simpa using hblank, hlength.trans hshort, ?_⟩
  intro c hc
  exact hclean c (hsub.subset hc)

theorem Field.settled_trim {field : Field} {text : String} (h : field.validate text = .ok ()) :
    field.Settled (trim text) where
  passes := Field.fault?_trim (Field.validate_eq_ok.1 h)
  trim_eq := trim_trim text

theorem Field.Settled.validate {field : Field} {text : String} (h : field.Settled text) :
    field.validate text = .ok () :=
  Field.validate_eq_ok.2 h.passes

end MemoryGraph

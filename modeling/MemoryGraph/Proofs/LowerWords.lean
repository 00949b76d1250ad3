-- SUMMARY: A word of a text, lowercased on its own, stands in the lowercased text; the words of a trimmed or joined text.
import MemoryGraph.Proofs.Pieces
import MemoryGraph.Proofs.Trimming
import MemoryGraph.Text.Case

/-!
# Words and lower case

The lowercase form of a character depends on its neighbours: a capital sigma looks
for a letter before it and behind it. A blank is no letter and is not passed over,
so that what lies beyond the blanks around a word has no say in the lowercase form
of the word. Lowercasing a text therefore lowercases each of its words.
-/
namespace MemoryGraph.Text

/-! ## Substrings -/

theorem occursIn_iff_isInfix {part cs : List Char} : occursIn part cs = true ↔ part <:+: cs := by
  induction cs with
  | nil => simp [occursIn]
  | cons c cs ih => simp [occursIn, ih, List.infix_cons_iff]

theorem contains_iff_isInfix {s part : String} :
    contains s part = true ↔ part.toList <:+: s.toList :=
  occursIn_iff_isInfix

theorem contains_empty_right (s : String) : contains s "" = true :=
  contains_iff_isInfix.2 List.nil_infix

theorem contains_empty_left {part : String} : contains "" part = true ↔ part = "" := by
  rw [contains_iff_isInfix, String.toList_empty, List.infix_nil, String.toList_eq_nil_iff]

/-! ## Words -/

/-- The words of a text as lists of characters. -/
def wordChars (cs : List Char) : List (List Char) := (pieces isBlank cs).filter fun p => !p.isEmpty

theorem words_eq (s : String) : words s = (wordChars s.toList).map String.ofList := rfl

theorem wordChars_append {blank : Char} (hblank : isBlank blank = true) (cs rest : List Char) :
    wordChars (cs ++ blank :: rest) = wordChars cs ++ wordChars rest :=
  fieldChars_append hblank cs rest

theorem wordChars_cons_blank {c : Char} (h : isBlank c = true) (cs : List Char) :
    wordChars (c :: cs) = wordChars cs :=
  wordChars_append h [] cs

theorem wordChars_concat_blank {c : Char} (h : isBlank c = true) (cs : List Char) :
    wordChars (cs ++ [c]) = wordChars cs := by
  rw [wordChars_append h, show wordChars [] = [] from rfl, List.append_nil]

theorem wordChars_eq_nil {cs : List Char} : wordChars cs = [] ↔ cs.all isBlank = true := by
  induction cs with
  | nil => simp [wordChars, pieces]
  | cons c cs ih =>
    by_cases h : isBlank c = true
    · rw [wordChars_cons_blank h, ih, List.all_cons, h, Bool.true_and]
    · cases hp : pieces isBlank cs with
      | nil => exact absurd hp (pieces_ne_nil isBlank cs)
      | cons p ps => simp [wordChars, pieces, h, hp]

theorem wordChars_dropWhile (cs : List Char) : wordChars (cs.dropWhile isBlank) = wordChars cs := by
  induction cs with
  | nil => rfl
  | cons c cs ih =>
    by_cases h : isBlank c = true
    · rw [List.dropWhile_cons_of_pos h, ih, wordChars_cons_blank h]
    · rw [List.dropWhile_cons_of_neg h]

theorem wordChars_rdropWhile (cs : List Char) :
    wordChars (cs.rdropWhile isBlank) = wordChars cs := by
  induction cs using List.reverseRecOn with
  | nil => rfl
  | append_singleton cs c ih =>
    by_cases h : isBlank c = true
    · rw [List.rdropWhile_concat_pos isBlank cs c h, ih, wordChars_concat_blank h]
    · rw [List.rdropWhile_concat_neg isBlank cs c h]

/-- Trimming a text takes none of its words. -/
theorem words_trim (s : String) : words (trim s) = words s := by
  have htrim : wordChars (trimChars s.toList) = wordChars s.toList :=
    (wordChars_rdropWhile _).trans (wordChars_dropWhile _)
  rw [words_eq, words_eq, toList_trim, htrim]

/-- Two texts with a blank between them have the words of both. -/
theorem words_join (s t : String) : words (s ++ " " ++ t) = words s ++ words t := by
  have hjoin : (s ++ " " ++ t).toList = s.toList ++ ' ' :: t.toList := by simp
  rw [words_eq, words_eq, words_eq, hjoin, wordChars_append (by decide), List.map_append]

theorem words_ne_nil {s : String} (h : allBlank s = false) : words s ≠ [] := by
  rw [words_eq, ne_eq, List.map_eq_nil_iff, wordChars_eq_nil]
  simpa [allBlank] using h

/-! ## Lower case -/

/-- A blank is no letter, and it is not passed over in the search for one. -/
theorem not_cased_of_isBlank {c : Char} (h : isBlank c = true) :
    isCaseIgnorable c = false ∧ isCased c = false := by
  have hall : (blanks.all fun d => !isCaseIgnorable d && !isCased d) = true := by decide +kernel
  simpa using List.all_eq_true.1 hall c (List.contains_iff_mem.1 h)

theorem startsCased_of_blank_head {cs : List Char} (h : ∀ c ∈ cs.head?, isBlank c = true) :
    startsCased cs = false := by
  cases cs with
  | nil => rfl
  | cons c cs =>
    obtain ⟨hignorable, hcased⟩ := not_cased_of_isBlank (h c rfl)
    simp [startsCased, hignorable, hcased]

theorem startsCased_append {cs rest : List Char} (h : startsCased rest = false) :
    startsCased (cs ++ rest) = startsCased cs := by
  induction cs with
  | nil => exact h
  | cons c cs ih => simp only [List.cons_append, startsCased, ih]

/-- What stands before a text counts only up to the first character that is not passed over. -/
theorem lowerAfter_append_before {before : List Char} (h : startsCased before = false)
    (near cs : List Char) : lowerAfter (near ++ before) cs = lowerAfter near cs := by
  induction cs generalizing near with
  | nil => rfl
  | cons c cs ih =>
    have hrest := ih (c :: near)
    rw [List.cons_append] at hrest
    rw [lowerAfter, lowerAfter, hrest, lowerIn, lowerIn, startsCased_append h]

theorem lowerAfter_append {rest : List Char} (h : startsCased rest = false)
    (before cs : List Char) :
    lowerAfter before (cs ++ rest) =
      lowerAfter before cs ++ lowerAfter (cs.reverse ++ before) rest := by
  induction cs generalizing before with
  | nil => rfl
  | cons c cs ih =>
    rw [List.cons_append, lowerAfter, lowerAfter, ih, lowerIn, lowerIn, startsCased_append h]
    simp

theorem lowerAfter_isSuffix (before front rest : List Char) :
    lowerAfter (front.reverse ++ before) rest <:+ lowerAfter before (front ++ rest) := by
  induction front generalizing before with
  | nil => exact List.suffix_rfl
  | cons c front ih =>
    have hsuffix := ih (c :: before)
    rw [List.cons_append, lowerAfter, List.reverse_cons, List.append_assoc, List.singleton_append]
    exact hsuffix.trans (List.suffix_append _ _)

/-- What stands between blanks is lowercased as on its own. -/
theorem lowerChars_isInfix {front cs back : List Char}
    (hfront : ∀ c ∈ front.getLast?, isBlank c = true) (hback : ∀ c ∈ back.head?, isBlank c = true) :
    lowerChars cs <:+: lowerChars (front ++ (cs ++ back)) := by
  have hbefore : startsCased front.reverse = false :=
    startsCased_of_blank_head (by simpa [List.head?_reverse] using hfront)
  have hword : lowerAfter front.reverse (cs ++ back) =
      lowerChars cs ++ lowerAfter (cs.reverse ++ front.reverse) back := by
    rw [lowerAfter_append (startsCased_of_blank_head hback)]
    exact congrArg (· ++ _) (lowerAfter_append_before hbefore [] cs)
  have hsuffix := lowerAfter_isSuffix [] front (cs ++ back)
  rw [List.append_nil, hword] at hsuffix
  exact (List.infix_append' [] _ _).trans hsuffix.isInfix

/-- A word of a text stands, lowercased, in the lowercased text. -/
theorem contains_lower_of_mem_words {s word : String} (h : word ∈ words s) :
    contains (lower s) (lower word) = true := by
  obtain ⟨cs, hcs, rfl⟩ := List.mem_map.1 h
  obtain ⟨front, back, hs, hfront, hback⟩ := exists_of_mem_pieces (List.mem_filter.1 hcs).1
  rw [contains_iff_isInfix, toList_lower, toList_lower, String.toList_ofList, hs]
  exact lowerChars_isInfix hfront hback

theorem lowerChar_ne_nil (c : Char) : lowerChar c ≠ [] := by
  unfold lowerChar
  split
  · simp
  · split <;> simp

theorem lowerChars_eq_nil {cs : List Char} : lowerChars cs = [] ↔ cs = [] := by
  cases cs with
  | nil => simp [lowerChars, lowerAfter]
  | cons c cs =>
    by_cases hsigma : c = 'Σ'
    · simp [lowerChars, lowerAfter, lowerIn, hsigma, startsCased]
    · simp [lowerChars, lowerAfter, lowerIn, hsigma, lowerChar_ne_nil]

theorem lower_eq_empty {s : String} : lower s = "" ↔ s = "" := by
  rw [← String.toList_eq_nil_iff, toList_lower, lowerChars_eq_nil, String.toList_eq_nil_iff]

end MemoryGraph.Text

-- SUMMARY: Where the pieces of a text lie between its cuts, and the pieces of texts put together.
import MemoryGraph.Text.Pieces

/-!
# Pieces between cuts

A text without a cut is one piece, and a cut separates the pieces before it from
those behind it. Each piece is free of cuts and reaches to the next one. The
fields of a text are its pieces that are not empty, so that a run of cuts counts
as one and cuts at either end count for nothing.
-/
namespace MemoryGraph.Text

/-! ## Pieces -/

theorem pieces_of_no_cut {isCut : Char → Bool} {cs : List Char}
    (h : ∀ c ∈ cs, isCut c = false) : pieces isCut cs = [cs] := by
  induction cs with
  | nil => rfl
  | cons c cs ih =>
    have hrest := ih fun d hd => h d (List.mem_cons_of_mem _ hd)
    simp [pieces, h c List.mem_cons_self, hrest]

theorem pieces_append {isCut : Char → Bool} {cut : Char} (hcut : isCut cut = true)
    (cs rest : List Char) :
    pieces isCut (cs ++ cut :: rest) = pieces isCut cs ++ pieces isCut rest := by
  induction cs with
  | nil => simp [pieces, hcut]
  | cons c cs ih =>
    rw [List.cons_append, pieces, pieces, ih]
    split
    · rfl
    · cases hp : pieces isCut cs with
      | nil => exact absurd hp (pieces_ne_nil isCut cs)
      | cons p ps => rfl

theorem pieces_append_cut {isCut : Char → Bool} {cs : List Char} {cut : Char} (rest : List Char)
    (h : ∀ c ∈ cs, isCut c = false) (hcut : isCut cut = true) :
    pieces isCut (cs ++ cut :: rest) = cs :: pieces isCut rest := by
  rw [pieces_append hcut, pieces_of_no_cut h]
  rfl

theorem not_cut_of_mem_pieces {isCut : Char → Bool} {cs p : List Char}
    (hp : p ∈ pieces isCut cs) : ∀ c ∈ p, isCut c = false := by
  induction cs generalizing p with
  | nil =>
    simp only [pieces, List.mem_singleton] at hp
    simp [hp]
  | cons c cs ih =>
    simp only [pieces] at hp
    split at hp
    · rcases List.mem_cons.1 hp with rfl | hp
      · simp
      · exact ih hp
    · rename_i hcut
      have hcut : isCut c = false := by simpa using hcut
      split at hp
      · rw [List.mem_singleton] at hp
        simp [hp, hcut]
      · rename_i first others heq
        rcases List.mem_cons.1 hp with rfl | hp
        · intro d hd
          rcases List.mem_cons.1 hd with rfl | hd
          · exact hcut
          · exact ih (heq ▸ List.mem_cons_self) d hd
        · exact ih (heq ▸ List.mem_cons_of_mem _ hp)

/-- The first piece starts a text, and every other one stands behind a cut; each of them reaches to
the next cut. -/
theorem of_pieces_eq_cons {isCut : Char → Bool} {cs first : List Char} {others : List (List Char)}
    (h : pieces isCut cs = first :: others) :
    (∃ back, cs = first ++ back ∧ ∀ c ∈ back.head?, isCut c = true) ∧
    ∀ p ∈ others, ∃ front cut back, cs = front ++ cut :: (p ++ back) ∧ isCut cut = true ∧
      ∀ c ∈ back.head?, isCut c = true := by
  induction cs generalizing first others with
  | nil =>
    cases h
    exact ⟨⟨[], rfl, by simp⟩, by simp⟩
  | cons c cs ih =>
    cases hp : pieces isCut cs with
    | nil => exact absurd hp (pieces_ne_nil isCut cs)
    | cons next rest =>
      obtain ⟨⟨back, hback, hend⟩, hrest⟩ := ih hp
      have hbehind : ∀ p ∈ rest, ∃ front cut back, c :: cs = front ++ cut :: (p ++ back) ∧
          isCut cut = true ∧ ∀ c ∈ back.head?, isCut c = true := by
        intro p hp
        obtain ⟨front, cut, back, rfl, hcut, hend⟩ := hrest p hp
        exact ⟨c :: front, cut, back, rfl, hcut, hend⟩
      rw [pieces, hp] at h
      split at h
      · rename_i hcut
        cases h
        refine ⟨⟨c :: cs, rfl, by simpa using hcut⟩, ?_⟩
        intro p hp
        rcases List.mem_cons.1 hp with rfl | hp
        · exact ⟨[], c, back, congrArg (c :: ·) hback, hcut, hend⟩
        · exact hbehind p hp
      · cases h
        exact ⟨⟨back, congrArg (c :: ·) hback, hend⟩, hbehind⟩

/-- A piece lies between two cuts, or reaches to an end of the text. -/
theorem exists_of_mem_pieces {isCut : Char → Bool} {cs p : List Char} (hp : p ∈ pieces isCut cs) :
    ∃ front back, cs = front ++ (p ++ back) ∧ (∀ c ∈ front.getLast?, isCut c = true) ∧
      ∀ c ∈ back.head?, isCut c = true := by
  cases h : pieces isCut cs with
  | nil => exact absurd h (pieces_ne_nil isCut cs)
  | cons first others =>
    obtain ⟨⟨back, hback, hend⟩, hothers⟩ := of_pieces_eq_cons h
    rw [h] at hp
    rcases List.mem_cons.1 hp with rfl | hp
    · exact ⟨[], back, hback, by simp, hend⟩
    · obtain ⟨front, cut, back, hcs, hcut, hend⟩ := hothers p hp
      exact ⟨front ++ [cut], back, by simp [hcs], by simpa using hcut, hend⟩

/-! ## Fields -/

/-- The pieces of a text that are not empty, as lists of characters. -/
def fieldChars (isCut : Char → Bool) (cs : List Char) : List (List Char) :=
  (pieces isCut cs).filter fun p => !p.isEmpty

theorem fieldsAt_eq (isCut : Char → Bool) (s : String) :
    fieldsAt isCut s = (fieldChars isCut s.toList).map String.ofList := rfl

theorem fieldChars_append {isCut : Char → Bool} {cut : Char} (hcut : isCut cut = true)
    (cs rest : List Char) :
    fieldChars isCut (cs ++ cut :: rest) = fieldChars isCut cs ++ fieldChars isCut rest := by
  rw [fieldChars, pieces_append hcut, List.filter_append]
  rfl

theorem fieldChars_cons_cut {isCut : Char → Bool} {c : Char} (h : isCut c = true)
    (cs : List Char) : fieldChars isCut (c :: cs) = fieldChars isCut cs :=
  fieldChars_append h [] cs

/-- A run without cuts, up to the first cut behind it, is a field. -/
theorem fieldChars_append_of_no_cut {isCut : Char → Bool} {cs rest : List Char} (hne : cs ≠ [])
    (hcs : ∀ c ∈ cs, isCut c = false) (hrest : ∀ c ∈ rest.head?, isCut c = true) :
    fieldChars isCut (cs ++ rest) = cs :: fieldChars isCut rest := by
  have hone : fieldChars isCut cs = [cs] := by simp [fieldChars, pieces_of_no_cut hcs, hne]
  cases rest with
  | nil => rw [List.append_nil, hone]; rfl
  | cons cut rest =>
    have hcut : isCut cut = true := hrest cut rfl
    rw [fieldChars_append hcut, fieldChars_cons_cut hcut, hone]
    rfl

/-- A text that does not start with a cut starts with a run without cuts, up to the next cut. -/
theorem exists_run {isCut : Char → Bool} {c : Char} (hc : ¬ isCut c = true) (cs : List Char) :
    ∃ run rest, c :: cs = run ++ rest ∧ run ≠ [] ∧ (∀ d ∈ run, isCut d = false) ∧
      ∀ d ∈ rest.head?, isCut d = true := by
  refine ⟨(c :: cs).takeWhile (!isCut ·), (c :: cs).dropWhile (!isCut ·),
    List.takeWhile_append_dropWhile.symm, ?_, ?_, ?_⟩
  · simp [hc]
  · intro d hd
    have hall := List.all_eq_true.1 (List.all_takeWhile (p := (!isCut ·))) d hd
    simpa using hall
  · intro d hd
    have hhead := List.head?_dropWhile_not (!isCut ·) (c :: cs)
    rw [Option.mem_def.1 hd] at hhead
    simpa using hhead

theorem not_cut_of_mem_fieldChars {isCut : Char → Bool} {cs p : List Char}
    (hp : p ∈ fieldChars isCut cs) : ∀ c ∈ p, isCut c = false :=
  not_cut_of_mem_pieces (List.mem_filter.1 hp).1

end MemoryGraph.Text

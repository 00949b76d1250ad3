-- SUMMARY: The union of alias texts keeps the first spellings, and read back it is its own list of aliases.
import MemoryGraph.Proofs.Pieces
import MemoryGraph.Proofs.Trimming
import MemoryGraph.Record.Alias
import Mathlib.Data.List.Basic

/-!
# The union of aliases

An alias is a trimmed text that is not empty and holds no separator. Splitting
an alias text gives aliases, and aliases joined by a comma and a blank are split
into the same ones again. The text of a union therefore stands for exactly the
aliases it was formed from, each in its first spelling. Forming the union of it
again changes nothing, and neither does forming it in several steps.
-/
namespace MemoryGraph

open Text

/-! ## Lists without repetition -/

namespace Text

/-- A list in which no two elements have the same key keeps all of them. -/
theorem distinctBy_eq_self [BEq κ] [LawfulBEq κ] {key : α → κ} {as : List α}
    (h : as.Pairwise fun a b => key a ≠ key b) : distinctBy key as = as := by
  induction as with
  | nil => rfl
  | cons a as ih =>
    rw [List.pairwise_cons] at h
    have hkeep : ∀ b ∈ as, (!(key b == key a)) = true := by
      intro b hb
      simpa using (h.1 b hb).symm
    rw [distinctBy, ih h.2, List.filter_eq_self.2 hkeep]

theorem distinctBy_sublist [BEq κ] (key : α → κ) (as : List α) :
    (distinctBy key as).Sublist as := by
  induction as with
  | nil => exact List.Sublist.slnil
  | cons a as ih => exact (List.filter_sublist.trans ih).cons_cons a

theorem distinctBy_pairwise [BEq κ] [LawfulBEq κ] (key : α → κ) (as : List α) :
    (distinctBy key as).Pairwise fun a b => key a ≠ key b := by
  induction as with
  | nil => exact List.Pairwise.nil
  | cons a as ih =>
    refine List.Pairwise.cons ?_ (ih.sublist List.filter_sublist)
    intro b hb
    have hne := (List.mem_filter.1 hb).2
    simp only [Bool.not_eq_true', beq_eq_false_iff_ne] at hne
    exact hne.symm

theorem mem_distinctBy_of_mem [BEq κ] [LawfulBEq κ] (key : α → κ) {as : List α} {a : α}
    (h : a ∈ as) : ∃ b ∈ distinctBy key as, key b = key a := by
  induction as with
  | nil => cases h
  | cons c as ih =>
    by_cases hkey : key a = key c
    · exact ⟨c, List.mem_cons_self, hkey.symm⟩
    · rcases List.mem_cons.1 h with rfl | h
      · exact absurd rfl hkey
      · obtain ⟨b, hb, hab⟩ := ih h
        have hkeep : (!(key b == key c)) = true := by simpa [hab] using hkey
        exact ⟨b, List.mem_cons_of_mem _ (List.mem_filter.2 ⟨hb, hkeep⟩), hab⟩

/-- Of a list put behind another, those elements stay whose key is new. -/
theorem distinctBy_append [BEq κ] [LawfulBEq κ] (key : α → κ) (as bs : List α) :
    distinctBy key (as ++ bs)
      = distinctBy key as
        ++ (distinctBy key bs).filter (fun b => !(as.map key).contains (key b)) := by
  induction as with
  | nil => simp [distinctBy]
  | cons a as ih =>
    have hnew : ∀ b ∈ distinctBy key bs,
        (!(key b == key a) && !(as.map key).contains (key b))
          = !((a :: as).map key).contains (key b) := by
      intro b _
      simp [Bool.not_or]
    simp only [List.cons_append, distinctBy, ih, List.filter_append, List.filter_filter]
    rw [List.filter_congr hnew]

theorem distinctBy_append_of_known [BEq κ] [LawfulBEq κ] {key : α → κ} {as bs : List α}
    (h : ∀ b ∈ bs, ∃ a ∈ as, key a = key b) : distinctBy key (as ++ bs) = distinctBy key as := by
  have hnone : (distinctBy key bs).filter (fun b => !(as.map key).contains (key b)) = [] := by
    rw [List.filter_eq_nil_iff]
    intro b hb
    obtain ⟨a, ha, hab⟩ := h b ((distinctBy_sublist key bs).subset hb)
    have hmem : key b ∈ as.map key := List.mem_map.2 ⟨a, ha, hab⟩
    simp [hmem]
  rw [distinctBy_append, hnone, List.append_nil]

/-- A list thinned out is not thinned out further. -/
theorem distinctBy_distinctBy [BEq κ] [LawfulBEq κ] (key : α → κ) (as : List α) :
    distinctBy key (distinctBy key as) = distinctBy key as :=
  distinctBy_eq_self (distinctBy_pairwise key as)

theorem mem_map_distinctBy [BEq κ] [LawfulBEq κ] (key : α → κ) {as : List α} {k : κ} :
    k ∈ (distinctBy key as).map key ↔ k ∈ as.map key := by
  constructor
  · exact fun h => List.map_subset key (distinctBy_sublist key as).subset h
  · intro h
    obtain ⟨a, ha, rfl⟩ := List.mem_map.1 h
    obtain ⟨b, hb, hkey⟩ := mem_distinctBy_of_mem key ha
    exact List.mem_map.2 ⟨b, hb, hkey⟩

/-- Lists that are put one behind the other may be thinned out before. -/
theorem distinctBy_append_distinctBy [BEq κ] [LawfulBEq κ] (key : α → κ) (as bs : List α) :
    distinctBy key (distinctBy key as ++ distinctBy key bs) = distinctBy key (as ++ bs) := by
  have hsame : ∀ b ∈ distinctBy key bs, (!((distinctBy key as).map key).contains (key b)) =
      !(as.map key).contains (key b) := by
    intro b _
    rw [Bool.eq_iff_iff]
    simp only [Bool.not_eq_true', ← Bool.not_eq_true, List.contains_iff_mem, mem_map_distinctBy]
  rw [distinctBy_append, distinctBy_append, distinctBy_distinctBy, distinctBy_distinctBy,
    List.filter_congr hsame]

/-- The elements whose key no element before them has. -/
def firstByKey [DecidableEq κ] (key : α → κ) (as : List α) : List α :=
  (as.zipIdx.filter fun (a, i) => key a ∉ (as.take i).map key).map Prod.fst

/-- One element more is kept when its key is new. -/
theorem firstByKey_concat [DecidableEq κ] (key : α → κ) (as : List α) (a : α) :
    firstByKey key (as ++ [a]) =
      firstByKey key as ++ if key a ∈ as.map key then [] else [a] := by
  have hfilter : (as.zipIdx.filter fun (b, i) => key b ∉ ((as ++ [a]).take i).map key) =
      as.zipIdx.filter fun (b, i) => key b ∉ (as.take i).map key := by
    apply List.filter_congr
    rintro ⟨b, i⟩ hentry
    have hlt : i < as.length := (List.mem_zipIdx' hentry).1
    dsimp only
    rw [List.take_append_of_le_length hlt.le]
  rw [firstByKey, List.zipIdx_append, List.filter_append, hfilter, List.map_append, ← firstByKey]
  by_cases hknown : key a ∈ as.map key <;> simp [hknown]

/-- What thinning out keeps, read from the front as well as from the back. -/
theorem distinctBy_eq_firstByKey [DecidableEq κ] (key : α → κ) (as : List α) :
    distinctBy key as = firstByKey key as := by
  induction as using List.reverseRecOn with
  | nil => rfl
  | append_singleton as a ih =>
    have hone : distinctBy key [a] = [a] := rfl
    rw [firstByKey_concat, ← ih, distinctBy_append, hone]
    by_cases hknown : key a ∈ as.map key
    · rw [if_pos hknown]
      simpa using hknown
    · rw [if_neg hknown]
      simpa using hknown

theorem mem_distinct [BEq α] [LawfulBEq α] {as : List α} {a : α} : a ∈ distinct as ↔ a ∈ as := by
  constructor
  · intro h
    exact (distinctBy_sublist id as).subset h
  · intro h
    obtain ⟨b, hb, rfl⟩ := mem_distinctBy_of_mem id h
    exact hb

theorem distinct_nodup [BEq α] [LawfulBEq α] (as : List α) : (distinct as).Nodup :=
  distinctBy_pairwise id as

/-- One element more is kept when it is new. -/
theorem distinct_concat [BEq α] [LawfulBEq α] (as : List α) (a : α) :
    distinct (as ++ [a]) =
      if (distinct as).contains a then distinct as else distinct as ++ [a] := by
  have hone : distinctBy id [a] = [a] := rfl
  unfold distinct
  rw [distinctBy_append, hone]
  by_cases h : a ∈ as
  · have hthere : a ∈ distinctBy id as := mem_distinct.2 h
    simp [h, hthere]
  · have hnew : a ∉ distinctBy id as := fun hthere => h (mem_distinct.1 hthere)
    simp [h, hnew]

end Text

/-! ## Aliases -/

/-- A text as splitting gives it: trimmed, not empty, without separators. -/
structure IsAlias (text : String) : Prop where
  trimmed : Trimmed text.toList
  not_empty : text.toList ≠ []
  no_delimiter : ∀ c ∈ text.toList, isAliasDelimiter c = false

theorem isAlias_of_mem_aliasesOf {text name : String} (h : name ∈ aliasesOf text) :
    IsAlias name := by
  unfold aliasesOf at h
  obtain ⟨trimmed, htrimmed, rfl⟩ := List.mem_map.1 h
  obtain ⟨hmem, hne⟩ := List.mem_filter.1 htrimmed
  obtain ⟨piece, hpiece, rfl⟩ := List.mem_map.1 hmem
  constructor
  · rw [String.toList_ofList]
    exact trimmed_trimChars piece
  · rw [String.toList_ofList]
    simpa using hne
  · intro c hc
    rw [String.toList_ofList] at hc
    exact not_cut_of_mem_pieces hpiece c ((trimChars_sublist piece).subset hc)

theorem aliasesOf_empty : aliasesOf "" = [] := by decide

theorem isAlias_of_mem_aliasUnion {sources : List String} {name : String}
    (h : name ∈ aliasUnion sources) : IsAlias name := by
  have hmem := (distinctBy_sublist lower _).subset h
  obtain ⟨source, _, hsource⟩ := List.mem_flatMap.1 hmem
  exact isAlias_of_mem_aliasesOf hsource

/-- The trimmed pieces of a text. -/
private def trimmedPieces (cs : List Char) : List (List Char) :=
  (pieces isAliasDelimiter cs).map trimChars

private theorem aliasesOf_eq (text : String) :
    aliasesOf text = ((trimmedPieces text.toList).filter (fun p => !p.isEmpty)).map String.ofList :=
  rfl

private theorem trimmedPieces_blank_cons {cs : List Char} :
    trimmedPieces (' ' :: cs) = trimmedPieces cs := by
  have hblank : isBlank ' ' = true := by decide
  have hcut : isAliasDelimiter ' ' = false := by decide
  unfold trimmedPieces
  cases hp : pieces isAliasDelimiter cs with
  | nil => exact absurd hp (pieces_ne_nil _ _)
  | cons p ps => simp [pieces, hcut, hp, trimChars_cons_blank hblank]

private theorem trimmedPieces_intercalate {aliases : List String} (hne : aliases ≠ [])
    (h : ∀ name ∈ aliases, IsAlias name) :
    trimmedPieces ((", ".intercalate aliases).toList) = aliases.map String.toList := by
  induction aliases with
  | nil => exact absurd rfl hne
  | cons name rest ih =>
    have halias := h name List.mem_cons_self
    have htrim := halias.trimmed.trimChars_eq
    cases rest with
    | nil =>
      rw [String.intercalate_singleton]
      simp [trimmedPieces, pieces_of_no_cut halias.no_delimiter, htrim]
    | cons next rest =>
      have hrest := ih (by simp) fun a ha => h a (List.mem_cons_of_mem _ ha)
      have hcut : isAliasDelimiter ',' = true := by decide
      have hjoin : (", ".intercalate (name :: next :: rest)).toList
          = name.toList ++ ',' :: ' ' :: (", ".intercalate (next :: rest)).toList := by
        simp [String.intercalate_cons_cons]
      rw [hjoin, trimmedPieces, pieces_append_cut _ halias.no_delimiter hcut, List.map_cons, htrim,
        ← trimmedPieces, trimmedPieces_blank_cons, hrest]
      rfl

/-- Aliases joined into one text are split into the same aliases. -/
theorem aliasesOf_intercalate {aliases : List String} (h : ∀ name ∈ aliases, IsAlias name) :
    aliasesOf (", ".intercalate aliases) = aliases := by
  by_cases hne : aliases = []
  · subst hne
    rw [String.intercalate_nil, aliasesOf_empty]
  · have hkeep : ∀ p ∈ aliases.map String.toList, (!p.isEmpty) = true := by
      intro p hp
      obtain ⟨name, halias, rfl⟩ := List.mem_map.1 hp
      simpa using (h name halias).not_empty
    rw [aliasesOf_eq, trimmedPieces_intercalate hne h, List.filter_eq_self.2 hkeep, List.map_map]
    simp [Function.comp_def]

/-! ## The text of a union -/

theorem aliasUnionText_eq_none {sources : List String} :
    aliasUnionText sources = none ↔ aliasUnion sources = [] := by
  unfold aliasUnionText
  split <;> simp_all

theorem aliasUnionText_eq_some {sources : List String} {text : String}
    (h : aliasUnionText sources = some text) :
    aliasUnion sources ≠ [] ∧ text = ", ".intercalate (aliasUnion sources) := by
  unfold aliasUnionText at h
  split at h
  · cases h
  · rename_i hne
    exact ⟨by simpa using hne, by simpa using h.symm⟩

/-- The text of a union, read as a list of aliases, is the union. -/
theorem aliasesOf_aliasUnionText (sources : List String) :
    aliasesOf ((aliasUnionText sources).getD "") = aliasUnion sources := by
  cases h : aliasUnionText sources with
  | none => rw [aliasUnionText_eq_none.1 h, Option.getD_none, aliasesOf_empty]
  | some text =>
    obtain ⟨_, rfl⟩ := aliasUnionText_eq_some h
    exact aliasesOf_intercalate fun _ => isAlias_of_mem_aliasUnion

/-- A union stands for itself: forming it again from its own text changes nothing. -/
theorem aliasUnion_aliasUnionText (sources : List String) :
    aliasUnion [(aliasUnionText sources).getD ""] = aliasUnion sources := by
  have hsplit : [(aliasUnionText sources).getD ""].flatMap aliasesOf = aliasUnion sources := by
    simp [aliasesOf_aliasUnionText]
  rw [aliasUnion, hsplit]
  exact distinctBy_distinctBy lower _

/-- Every alias of a source is in the union, though perhaps in another spelling. -/
theorem mem_aliasUnion_of_mem {sources : List String} {source name : String}
    (hsource : source ∈ sources) (hname : name ∈ aliasesOf source) :
    ∃ kept ∈ aliasUnion sources, lower kept = lower name :=
  mem_distinctBy_of_mem lower (List.mem_flatMap.2 ⟨source, hsource, hname⟩)

theorem aliasUnionText_congr {xs ys : List String} (h : aliasUnion xs = aliasUnion ys) :
    aliasUnionText xs = aliasUnionText ys := by
  simp [aliasUnionText, h]

/-- Two texts with the same union have it as the union of both. -/
theorem aliasUnion_pair {x y : String} (h : aliasUnion [x] = aliasUnion [y]) :
    aliasUnion [x, y] = aliasUnion [x] := by
  simp only [aliasUnion, List.flatMap_cons, List.flatMap_nil, List.append_nil] at h ⊢
  apply distinctBy_append_of_known
  intro name hname
  obtain ⟨first, hfirst, hkey⟩ := mem_distinctBy_of_mem lower hname
  rw [← h] at hfirst
  exact ⟨first, (distinctBy_sublist lower _).subset hfirst, hkey⟩

/-- A union takes nothing from a text whose aliases are all in it. -/
theorem aliasUnionText_of_known {sources : List String} {text : String}
    (h : ∀ name ∈ aliasesOf text, ∃ kept ∈ aliasUnion sources, lower kept = lower name) :
    aliasUnionText [(aliasUnionText sources).getD "", text] = aliasUnionText sources := by
  apply aliasUnionText_congr
  have hsplit : [(aliasUnionText sources).getD "", text].flatMap aliasesOf =
      aliasUnion sources ++ aliasesOf text := by
    simp [aliasesOf_aliasUnionText]
  rw [aliasUnion, hsplit, distinctBy_append_of_known h]
  exact distinctBy_distinctBy lower _

/-- The union of alias texts, split again, holds of all their aliases those whose lowercase form did
not occur before. It is its own union, and the union of two unions is that of all their texts. -/
theorem union_keeps_first_spellings (xs : List String) :
    aliasesOf ((aliasUnionText xs).getD "") = firstByKey lower (xs.flatMap aliasesOf) ∧
    aliasUnionText [(aliasUnionText xs).getD ""] = aliasUnionText xs ∧
    ∀ ys, aliasUnionText [(aliasUnionText xs).getD "", (aliasUnionText ys).getD ""] =
      aliasUnionText (xs ++ ys) := by
  refine ⟨?_, aliasUnionText_congr (aliasUnion_aliasUnionText xs), ?_⟩
  · rw [aliasesOf_aliasUnionText, aliasUnion, distinctBy_eq_firstByKey]
  · intro ys
    apply aliasUnionText_congr
    calc aliasUnion [(aliasUnionText xs).getD "", (aliasUnionText ys).getD ""]
        = distinctBy lower (aliasUnion xs ++ aliasUnion ys) := by
          simp [aliasUnion, aliasesOf_aliasUnionText]
      _ = aliasUnion (xs ++ ys) := by
          rw [aliasUnion, aliasUnion, distinctBy_append_distinctBy, ← List.flatMap_append,
            ← aliasUnion]

/-! ## Stored alias texts -/

/-- Aliases joined into one text leave no blank at its ends. -/
theorem trimmed_intercalate {aliases : List String} (hne : aliases ≠ [])
    (h : ∀ name ∈ aliases, IsAlias name) : Trimmed (", ".intercalate aliases).toList := by
  induction aliases with
  | nil => exact absurd rfl hne
  | cons name rest ih =>
    have halias := h name List.mem_cons_self
    cases rest with
    | nil =>
      rw [String.intercalate_singleton]
      exact halias.trimmed
    | cons next rest =>
      have hrest := ih (by simp) fun a ha => h a (List.mem_cons_of_mem _ ha)
      have hfilled : (", ".intercalate (next :: rest)).toList ≠ [] := by
        intro hnil
        have hsplit := aliasesOf_intercalate fun a ha => h a (List.mem_cons_of_mem name ha)
        rw [String.toList_eq_nil_iff.1 hnil, aliasesOf_empty] at hsplit
        cases hsplit
      rw [String.intercalate_cons_cons, String.toList_append, String.toList_append]
      constructor
      · intro c hc
        obtain ⟨first, others, heq⟩ := List.exists_cons_of_ne_nil halias.not_empty
        have hfirst := halias.trimmed.head first (by simp [heq])
        simp only [heq, List.cons_append, List.head?_cons, Option.mem_some_iff] at hc
        exact hc ▸ hfirst
      · intro c hc
        rw [List.getLast?_append_of_ne_nil _ hfilled] at hc
        exact hrest.last c hc

/-- The text of a union is stored as it is. -/
theorem nonBlank?_aliasUnionText (sources : List String) :
    nonBlank? (aliasUnionText sources) = aliasUnionText sources := by
  cases h : aliasUnionText sources with
  | none => rfl
  | some text =>
    obtain ⟨hne, rfl⟩ := aliasUnionText_eq_some h
    have htrimmed := trimmed_intercalate hne fun _ => isAlias_of_mem_aliasUnion
    apply nonBlank?_of_kept _ (trim_eq_self htrimmed)
    -- A text of blanks alone would be trimmed to nothing and hold no alias.
    cases hblank : allBlank (", ".intercalate (aliasUnion sources)) with
    | false => rfl
    | true =>
      have hnil := trimChars_eq_nil.2 hblank
      rw [htrimmed.trimChars_eq, String.toList_eq_nil_iff] at hnil
      have hsplit : aliasesOf (", ".intercalate (aliasUnion sources)) = aliasUnion sources :=
        aliasesOf_intercalate fun _ => isAlias_of_mem_aliasUnion
      rw [hnil, aliasesOf_empty] at hsplit
      exact absurd hsplit.symm hne

end MemoryGraph

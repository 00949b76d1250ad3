-- SUMMARY: The aliases of an entity that another one was merged into, and which names are found among them.
import MemoryGraph.Proofs.Merge
import MemoryGraph.Proofs.Preservation

/-!
# Aliases after a merge

Two spellings of an alias are the same when their lowercase forms, their keys,
are. The entity that takes another one over has the keys of both, and those of
the name of the other. A name is read as an alias text there, so that one with a
separator in it falls into pieces: each piece is an alias then, and the name
itself is none, since lowercasing neither makes nor removes separators.
-/
namespace MemoryGraph

open Text Store

/-! ## Separators in lower case -/

namespace Text

variable {c d : Char}

theorem lowerCode?_eq_some {spans : List CaseSpan} {n m : Nat} (h : lowerCode? spans n = some m) :
    ∃ span ∈ spans, span.first ≤ n ∧ n ≤ span.last ∧ m = Int.toNat (n + span.shift) := by
  induction spans with
  | nil => cases h
  | cons span rest ih =>
    have hrest (h : lowerCode? rest n = some m) : ∃ span' ∈ span :: rest,
        span'.first ≤ n ∧ n ≤ span'.last ∧ m = Int.toNat (n + span'.shift) := by
      obtain ⟨span', hspan, hlower⟩ := ih h
      exact ⟨span', List.mem_cons_of_mem _ hspan, hlower⟩
    simp only [lowerCode?] at h
    split at h
    · cases h
    rename_i hfirst
    split at h
    · rename_i hlast
      split at h
      · exact ⟨span, List.mem_cons_self, Nat.not_lt.1 hfirst, hlast, (Option.some.inj h).symm⟩
      · exact hrest h
    · exact hrest h

/-- No span leads to a code point below the small letters or to one between them and `'}'`. -/
theorem lowerSpans_avoid : ∀ span ∈ lowerSpans, 96 < span.first + span.shift ∧
    (span.last + span.shift < 123 ∨ 124 < span.first + span.shift) := by
  decide +kernel

theorem lowerCode?_avoids {n m : Nat} (h : lowerCode? lowerSpans n = some m) :
    96 < m ∧ m ≠ 123 ∧ m ≠ 124 := by
  obtain ⟨span, hspan, hfirst, hlast, rfl⟩ := lowerCode?_eq_some h
  have havoid := lowerSpans_avoid span hspan
  omega

theorem isAliasDelimiter_iff : isAliasDelimiter c = true ↔ c = ',' ∨ c = '|' ∨ c = ';' := by
  simp [isAliasDelimiter, or_assoc]

/-- A code point that is no character stands for the one of code 0. -/
theorem toNat_ofNat_eq_or (n : Nat) : (Char.ofNat n).toNat = n ∨ (Char.ofNat n).toNat = 0 := by
  by_cases h : n.isValidChar
  · left
    rw [Char.ofNat, dif_pos h]
    rfl
  · right
    rw [Char.ofNat, dif_neg h]
    rfl

/-- A separator in the lowercase form of a character is that character. -/
theorem mem_lowerChar (hc : isAliasDelimiter c = true) : c ∈ lowerChar d ↔ c = d := by
  constructor
  · intro h
    unfold lowerChar at h
    split at h
    · simp only [List.mem_cons, List.not_mem_nil, or_false] at h
      obtain rfl | rfl := h <;> exact absurd hc (by decide)
    · split at h
      · rename_i n hcode
        have hc : isAliasDelimiter (Char.ofNat n) = true := List.mem_singleton.1 h ▸ hc
        -- The codes that spans lead to are those of no separators.
        have havoid := lowerCode?_avoids hcode
        have hseparator : (Char.ofNat n).toNat = 44 ∨ (Char.ofNat n).toNat = 124 ∨
            (Char.ofNat n).toNat = 59 := by
          obtain heq | heq | heq := isAliasDelimiter_iff.1 hc <;> rw [heq] <;> decide
        have hvalue := toNat_ofNat_eq_or n
        omega
      · exact List.mem_singleton.1 h
  · rintro rfl
    obtain rfl | rfl | rfl := isAliasDelimiter_iff.1 hc <;> decide +kernel

theorem mem_lowerIn (hc : isAliasDelimiter c = true) (before rest : List Char) :
    c ∈ lowerIn before d rest ↔ c = d := by
  unfold lowerIn
  split
  · rename_i hsigma
    subst hsigma
    have hdiffer : c ≠ 'Σ' ∧ c ≠ 'ς' ∧ c ≠ 'σ' := by
      refine ⟨?_, ?_, ?_⟩ <;> rintro rfl <;> exact absurd hc (by decide)
    split <;> simp [hdiffer]
  · exact mem_lowerChar hc

theorem mem_lowerAfter (hc : isAliasDelimiter c = true) (before cs : List Char) :
    c ∈ lowerAfter before cs ↔ c ∈ cs := by
  induction cs generalizing before with
  | nil => rfl
  | cons d rest ih => rw [lowerAfter, List.mem_append, mem_lowerIn hc, ih, List.mem_cons]

end Text

/-- A text without separators of aliases in it. -/
def Unseparated (text : String) : Prop := ∀ c ∈ text.toList, isAliasDelimiter c = false

/-- Lowercasing neither makes nor removes separators. -/
theorem unseparated_lower {text : String} : Unseparated (lower text) ↔ Unseparated text := by
  have hmem {c : Char} (hc : isAliasDelimiter c = true) :
      c ∈ (lower text).toList ↔ c ∈ text.toList := by
    rw [toList_lower]
    exact mem_lowerAfter hc [] text.toList
  simp only [Unseparated, ← Bool.not_eq_true]
  exact ⟨fun h c hc hcut => h c ((hmem hcut).2 hc) hcut,
    fun h c hc hcut => h c ((hmem hcut).1 hc) hcut⟩

/-! ## Keys -/

/-- The aliases of a text in lower case. -/
def aliasKeys (text : String) : List String := (aliasesOf text).map lower

/-- The aliases of an entity in lower case, in which they are compared. -/
def Entity.aliasKeys (e : Entity) : List String := e.aliasNames.map lower

variable {key : String}

theorem Entity.mem_aliasKeys {e : Entity} :
    key ∈ e.aliasKeys ↔ ∃ text, e.aliases = some text ∧ key ∈ MemoryGraph.aliasKeys text := by
  cases haliases : e.aliases <;>
    simp [Entity.aliasKeys, Entity.aliasNames, haliases, MemoryGraph.aliasKeys]

/-- Joining alias texts adds no key and loses none. -/
theorem mem_map_lower_aliasUnion {sources : List String} :
    key ∈ (aliasUnion sources).map lower ↔ ∃ source ∈ sources, key ∈ aliasKeys source := by
  constructor
  · intro h
    obtain ⟨name, hname, rfl⟩ := List.mem_map.1 h
    obtain ⟨source, hsource, hmem⟩ := List.mem_flatMap.1 ((distinctBy_sublist lower _).subset hname)
    exact ⟨source, hsource, List.mem_map_of_mem hmem⟩
  · rintro ⟨source, hsource, h⟩
    obtain ⟨name, hname, rfl⟩ := List.mem_map.1 h
    obtain ⟨kept, hkept, hsame⟩ := mem_aliasUnion_of_mem hsource hname
    exact List.mem_map.2 ⟨kept, hkept, hsame⟩

theorem unseparated_of_mem_aliasKeys {e : Entity} (h : key ∈ e.aliasKeys) : Unseparated key := by
  obtain ⟨name, hname, rfl⟩ := List.mem_map.1 h
  rw [Entity.aliasNames_eq] at hname
  exact unseparated_lower.2 (isAlias_of_mem_aliasesOf hname).no_delimiter

/-- A stored name without separators is an alias text of one alias, the name itself. -/
theorem aliasesOf_eq_self {name : String} (hname : Field.entityName.Settled name)
    (hclean : Unseparated name) : aliasesOf name = [name] := by
  have hfilled : trimChars name.toList ≠ [] := by
    rw [ne_eq, trimChars_eq_nil]
    exact fun hblank => Bool.false_ne_true ((Field.not_blank hname.passes).symm.trans hblank)
  have htrim : trimChars name.toList = name.toList := by
    rw [← toList_trim, hname.trim_eq]
  rw [htrim] at hfilled
  simp [aliasesOf, pieces_of_no_cut hclean, htrim, hfilled]

/-! ## What a merge makes of the aliases -/

theorem mem_aliasKeys_of_mergedAliases {giver taker after : Entity}
    (hname : giver.name ≠ taker.name) (h : after.aliases = mergedAliases giver taker) :
    key ∈ after.aliasKeys ↔
      key ∈ taker.aliasKeys ∨ key ∈ giver.aliasKeys ∨ key ∈ aliasKeys giver.name := by
  have hunion : after.aliasKeys = (aliasUnion (taker.aliases.toList ++ giver.aliases.toList
      ++ [giver.name])).map lower := by
    rw [Entity.aliasKeys, Entity.aliasNames_eq, h, mergedAliases, if_neg hname,
      aliasesOf_aliasUnionText]
  rw [hunion, mem_map_lower_aliasUnion, Entity.mem_aliasKeys, Entity.mem_aliasKeys]
  simp [or_and_right, exists_or]

namespace Store

variable {s after : Store} {now : Timestamp} {source target : Id} {giver taker : Entity}

/-- The aliases that a merge reports are formed from the rows that it looked up. -/
theorem aliases_of_mergeEntities {effect : MergeEffect}
    (h : s.mergeEntities now source target = .ok (effect, after))
    (hgiver : s.entity? source = some giver) (htaker : s.entity? target = some taker) :
    effect.aliases = mergedAliases giver taker := by
  simp only [mergeEntities, guard_eq_ok, bind_eq_ok, Prod.exists] at h
  obtain ⟨_, first, hfirst, second, hsecond, _, _, _, _, _, _, _, h⟩ := h
  cases h
  rw [existing_eq_ok, hgiver] at hfirst
  rw [existing_eq_ok, htaker] at hsecond
  cases hfirst
  cases hsecond
  rfl

/-- What a merge makes of the row of the entity that takes the other one over. -/
theorem entity?_of_mergeEntities (hs : s.Sound) {effect : MergeEffect}
    (h : s.mergeEntities now source target = .ok (effect, after)) (hne : source ≠ target)
    (hgiver : s.entity? source = some giver) (htaker : s.entity? target = some taker) :
    after.entity? target = some
      { taker with
        aliases := mergedAliases giver taker
        observationCount := (after.observationsOf target).length
        updatedAt := now } := by
  obtain ⟨effect', after', hok, _, _, hentities, _⟩ := mergeEntities_eq_ok now hs hne
    (hasEntity_of_entity? hgiver) (hasEntity_of_entity? htaker)
  cases h.symm.trans hok
  have hk := (hs.writes (mergeEntities_writes hs.keyed h)).keyed
  obtain ⟨hmem, hid⟩ := hs.keyed.entity?_eq_some.1 htaker
  rw [hk.entity?_eq_some, hentities, ← aliases_of_mergeEntities h hgiver htaker]
  refine ⟨List.mem_map.2 ⟨taker, ?_, if_pos hid⟩, hid⟩
  simp [hmem, hid, hne.symm]

end Store

/-- Merging two entities of a reachable store keeps every alias of both, in some spelling, and makes
an alias of every piece of the name that goes. That name itself is found among the aliases exactly
when no separator stands in it. -/
theorem findable_iff_unseparated {s : Store} (h : Reachable s) (now : Moment)
    {source target : Entity} (hsource : source ∈ s.entities) (htarget : target ∈ s.entities)
    (hne : source.id ≠ target.id) :
    ∃ effect after merged, s.mergeEntities now.text source.id target.id = .ok (effect, after) ∧
      after.entity? target.id = some merged ∧
      (∀ name ∈ target.aliasNames ++ source.aliasNames, lower name ∈ merged.aliasKeys) ∧
      (∀ piece ∈ aliasesOf source.name, lower piece ∈ merged.aliasKeys) ∧
      (lower source.name ∈ merged.aliasKeys ↔ Unseparated source.name) := by
  have hs := h.sound
  have hgiver := hs.keyed.entity?_eq_some.2 ⟨hsource, rfl⟩
  have htaker := hs.keyed.entity?_eq_some.2 ⟨htarget, rfl⟩
  obtain ⟨effect, after, hok, _⟩ := mergeEntities_eq_ok now.text hs hne
    (hasEntity_of_entity? hgiver) (hasEntity_of_entity? htaker)
  obtain ⟨merged, hmerged, haliases⟩ : ∃ merged, after.entity? target.id = some merged ∧
      merged.aliases = mergedAliases source target :=
    ⟨_, entity?_of_mergeEntities hs hok hne hgiver htaker, rfl⟩
  have hname := hs.named.name_ne hsource htarget hne
  have hkeys {key : String} : key ∈ merged.aliasKeys ↔
      key ∈ target.aliasKeys ∨ key ∈ source.aliasKeys ∨ key ∈ aliasKeys source.name :=
    mem_aliasKeys_of_mergedAliases hname haliases
  refine ⟨effect, after, merged, hok, hmerged, ?_, ?_, ?_, ?_⟩
  · intro name hmem
    rcases List.mem_append.1 hmem with hmem | hmem
    · exact hkeys.2 (.inl (List.mem_map_of_mem hmem))
    · exact hkeys.2 (.inr (.inl (List.mem_map_of_mem hmem)))
  · intro piece hpiece
    exact hkeys.2 (.inr (.inr (List.mem_map_of_mem hpiece)))
  · intro hfound
    exact unseparated_lower.1 (unseparated_of_mem_aliasKeys hfound)
  · intro hclean
    have hone := aliasesOf_eq_self (hs.settled.entities source hsource).name hclean
    exact hkeys.2 (.inr (.inr (by simp [aliasKeys, hone])))

/-- A name with a bar in it: the two sides of the bar are aliases after the merge, the name is
not. -/
theorem unfindable_of_bar :
    let now : Moment := .ofNanoseconds 0
    let s := Store.run .empty [
      (now, .addEntity { name := "read|write", entityType := "Note" }),
      (now, .addEntity { name := "access", entityType := "Note" })]
    ∃ effect after merged, s.mergeEntities now.text 1 2 = .ok (effect, after) ∧
      after.entity? 2 = some merged ∧ lower "read" ∈ merged.aliasKeys ∧
      lower "write" ∈ merged.aliasKeys ∧ lower "read|write" ∉ merged.aliasKeys := by
  intro now s
  have hthere : ∃ source ∈ s.entities, ∃ target ∈ s.entities,
      source.id = 1 ∧ source.name = "read|write" ∧ target.id = 2 := by decide +kernel
  obtain ⟨source, hsource, target, htarget, hid, hname, hid'⟩ := hthere
  obtain ⟨effect, after, merged, hok, hmerged, _, hpieces, hfound⟩ :=
    findable_iff_unseparated (Reachable.empty.run _) now hsource htarget (by simp [hid, hid'])
  rw [hid, hid'] at hok
  rw [hid'] at hmerged
  rw [hname] at hpieces hfound
  have hsplit : aliasesOf "read|write" = ["read", "write"] := by decide +kernel
  have hbar : ¬ Unseparated "read|write" := fun h => by
    have hcut := h '|' (by decide)
    cases hcut
  refine ⟨effect, after, merged, hok, hmerged, ?_, ?_, fun hkey => hbar (hfound.1 hkey)⟩
  · exact hpieces "read" (by simp [hsplit])
  · exact hpieces "write" (by simp [hsplit])

end MemoryGraph

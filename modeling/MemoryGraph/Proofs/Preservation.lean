-- SUMMARY: What an import leaves of the data that was there: all of it, and what it touched only grows.
import MemoryGraph.Proofs.Accounting

/-!
# What an import leaves

An import appends rows. Of the rows that were there it changes at most those of
the entities that it touches, and of these only the aliases, which lose none, the
number of observations and the time of the change. An entity that was there gets
observations that it did not have, each once.
-/
namespace MemoryGraph

open Text

/-- An entity before and after an import. -/
structure Entity.Kept (e after : Entity) : Prop where
  id : after.id = e.id
  name : after.name = e.name
  entityType : after.entityType = e.entityType
  description : after.description = e.description
  createdAt : after.createdAt = e.createdAt
  embedding : after.embedding = e.embedding
  /-- Every alias is there, though perhaps in another spelling. -/
  aliases : ∀ name ∈ e.aliasNames, ∃ kept ∈ after.aliasNames, lower kept = lower name

namespace Entity

theorem aliasNames_eq (e : Entity) : e.aliasNames = aliasesOf (e.aliases.getD "") := by
  unfold aliasNames
  cases e.aliases with
  | none => exact aliasesOf_empty.symm
  | some aliases => rfl

theorem Kept.refl (e : Entity) : e.Kept e :=
  ⟨rfl, rfl, rfl, rfl, rfl, rfl, fun name hname => ⟨name, hname, rfl⟩⟩

theorem Kept.trans {a b c : Entity} (hab : a.Kept b) (hbc : b.Kept c) : a.Kept c where
  id := hbc.id.trans hab.id
  name := hbc.name.trans hab.name
  entityType := hbc.entityType.trans hab.entityType
  description := hbc.description.trans hab.description
  createdAt := hbc.createdAt.trans hab.createdAt
  embedding := hbc.embedding.trans hab.embedding
  aliases name hname := by
    obtain ⟨middle, hmiddle, hspelled⟩ := hab.aliases name hname
    obtain ⟨kept, hkept, hagain⟩ := hbc.aliases middle hmiddle
    exact ⟨kept, hkept, hagain.trans hspelled⟩

end Entity

namespace Store

/-- The aliases of an entity and of the node that is merged into it are both in the union. -/
theorem kept_absorbed (now : Timestamp) (target : Entity) (node : TreeNode) (count : Nat) :
    target.Kept (absorbed now target node count target) where
  id := by simp only [absorbed]
  name := by simp only [absorbed]
  entityType := by simp only [absorbed]
  description := by simp only [absorbed]
  createdAt := by simp only [absorbed]
  embedding := by simp only [absorbed]
  aliases name hname := by
    rw [Entity.aliasNames_eq] at hname
    have hunion : ∃ kept ∈ aliasUnion [target.aliases.getD "", node.aliases.getD ""],
        lower kept = lower name := mem_aliasUnion_of_mem List.mem_cons_self hname
    rw [Entity.aliasNames_eq]
    unfold absorbed
    by_cases hsame : aliasUnionText [target.aliases.getD "", node.aliases.getD ""] = target.aliases
    · simp only [if_pos hsame]
      exact ⟨name, hname, rfl⟩
    · simp only [if_neg hsame, aliasesOf_aliasUnionText]
      exact hunion

/-! ## One node -/

/-- A store before and after an import that touched some entities. -/
structure Undamaged (s : Store) (touched : List Id) (after : Store) : Prop where
  /-- Entities stay, and those that are not touched stay as they are. -/
  entities : ∀ e ∈ s.entities, ∃ kept ∈ after.entities, e.Kept kept ∧ (e.id ∉ touched → kept = e)
  observations : s.observations <+: after.observations
  relations : s.relations <+: after.relations
  /-- The observations that an entity gets are new to it and do not repeat. -/
  noted : ∀ id, s.HasEntity id → ∃ rows,
    after.observationsOf id = s.observationsOf id ++ rows ∧ (rows.map Observation.content).Nodup ∧
      ∀ row ∈ rows, row.content ∉ s.contentsOf id

namespace Undamaged

variable {a b c : Store} {touched : List Id}

theorem refl (s : Store) : s.Undamaged touched s where
  entities e he := ⟨e, he, .refl e, fun _ => rfl⟩
  observations := List.prefix_rfl
  relations := List.prefix_rfl
  noted _ _ := ⟨[], by simp⟩

theorem hasEntity (h : a.Undamaged touched b) {id : Id} (hid : a.HasEntity id) :
    b.HasEntity id := by
  obtain ⟨e, he, rfl⟩ := hid
  obtain ⟨kept, hkept, hsame, _⟩ := h.entities e he
  exact ⟨kept, hkept, hsame.id⟩

theorem trans (hab : a.Undamaged touched b) (hbc : b.Undamaged touched c) :
    a.Undamaged touched c where
  entities e he := by
    obtain ⟨middle, hmiddle, hfirst, huntouched⟩ := hab.entities e he
    obtain ⟨kept, hkept, hsecond, hagain⟩ := hbc.entities middle hmiddle
    refine ⟨kept, hkept, hfirst.trans hsecond, ?_⟩
    intro hid
    rw [hagain (hfirst.id ▸ hid), huntouched hid]
  observations := hab.observations.trans hbc.observations
  relations := hab.relations.trans hbc.relations
  noted id hid := by
    obtain ⟨first, hfirst, hnodup, hnew⟩ := hab.noted id hid
    obtain ⟨second, hsecond, hnodup', hnew'⟩ := hbc.noted id (hab.hasEntity hid)
    -- What comes second is new also to what came first.
    have hapart : ∀ row ∈ second, row.content ∉ a.contentsOf id ∧
        row.content ∉ first.map Observation.content := by
      intro row hrow
      have hcontents : b.contentsOf id = a.contentsOf id ++ first.map Observation.content := by
        simp [contentsOf, hfirst]
      have hunknown := hnew' row hrow
      rw [hcontents, List.mem_append, not_or] at hunknown
      exact hunknown
    refine ⟨first ++ second, ?_, ?_, ?_⟩
    · rw [hsecond, hfirst, List.append_assoc]
    · rw [List.map_append, List.nodup_append]
      refine ⟨hnodup, hnodup', ?_⟩
      rintro _ hknown _ hlater rfl
      obtain ⟨row, hrow, hsame⟩ := List.mem_map.1 hlater
      exact (hapart row hrow).2 (hsame ▸ hknown)
    · intro row hrow
      rcases List.mem_append.1 hrow with hrow | hrow
      · exact hnew row hrow
      · exact (hapart row hrow).1

end Undamaged

section Admitted

variable {s after : Store} {now : Timestamp} {node : TreeNode} {decision : Decision}
  {treeParent : Option Id} {effect : NodeEffect}

/-- The observations that a node adds belong to its entity. -/
theorem Adds.observationsOf {parent : Option Id} {id : Id} {drafts : List ObservationDraft}
    (h : s.Adds now node parent id drafts effect after) :
    ∃ rows, rows.map Observation.content = drafts.map ObservationDraft.content ∧
      ∀ other, after.observationsOf other =
        s.observationsOf other ++ if other = id then rows else [] := by
  obtain ⟨rows, hafter, _, hnoted⟩ := h.observations
  refine ⟨rows, hnoted.contents, ?_⟩
  intro other
  have hrows : rows.filter (fun row => row.entityId = other) = if other = id then rows else [] := by
    split
    · rename_i hother
      rw [List.filter_eq_self]
      intro row hrow
      simp [hnoted.owner row hrow, hother]
    · rename_i hother
      rw [List.filter_eq_nil_iff]
      intro row hrow
      simpa [hnoted.owner row hrow] using Ne.symm hother
  unfold Store.observationsOf
  rw [hafter, List.filter_append, hrows]

/-- An entity says what it said before, and what is added to it. -/
theorem Adds.contentsOf {parent : Option Id} {id : Id} {drafts : List ObservationDraft}
    (h : s.Adds now node parent id drafts effect after) (other : Id) :
    after.contentsOf other =
      s.contentsOf other ++ if other = id then drafts.map ObservationDraft.content else [] := by
  obtain ⟨rows, hcontents, hafter⟩ := h.observationsOf
  unfold Store.contentsOf
  rw [hafter other, List.map_append, ← hcontents]
  split <;> rfl

/-- A node damages nothing where it adds to one entity what this one does not have. -/
theorem Adds.undamaged {parent : Option Id} {id : Id} {drafts : List ObservationDraft}
    {touched : List Id} (h : s.Adds now node parent id drafts effect after)
    (hentities : ∀ e ∈ s.entities, ∃ kept ∈ after.entities,
      e.Kept kept ∧ (e.id ∉ touched → kept = e))
    (hdrafts : s.HasEntity id → (drafts.map ObservationDraft.content).Nodup ∧
      ∀ draft ∈ drafts, draft.content ∉ s.contentsOf id) :
    s.Undamaged touched after where
  entities := hentities
  observations := by
    obtain ⟨rows, hafter, _⟩ := h.observations
    exact ⟨rows, hafter.symm⟩
  relations := by
    obtain ⟨links, hafter, _⟩ := h.relations
    exact ⟨links, hafter.symm⟩
  noted other hother := by
    obtain ⟨rows, hcontents, hrows⟩ := h.observationsOf
    by_cases hid : other = id
    · subst hid
      obtain ⟨hnodup, hnew⟩ := hdrafts hother
      refine ⟨rows, by simpa using hrows other, hcontents ▸ hnodup, ?_⟩
      intro row hrow
      have hsaid : row.content ∈ drafts.map ObservationDraft.content :=
        hcontents ▸ List.mem_map_of_mem hrow
      obtain ⟨draft, hdraft, hsame⟩ := List.mem_map.1 hsaid
      exact hsame ▸ hnew draft hdraft
    · exact ⟨[], by simpa [hid] using hrows other, by simp⟩

theorem Admitted.undamaged {touched : List Id}
    (h : s.Admitted now node decision treeParent effect after) (hs : s.Keyed)
    (htouched : effect.fate ≠ .skipped → ∀ id, effect.resolved = some id → id ∈ touched) :
    s.Undamaged touched after := by
  cases h with
  | skipped hdecision hthere => exact .refl s
  | @merged target _ _ htarget hfate hentities hadds =>
    have hin : target.id ∈ touched := htouched (by simp [hfate]) _ hadds.resolved
    refine hadds.undamaged ?_ fun _ => unseen_contents _ _
    intro e he
    rw [hentities]
    by_cases hid : e.id = target.id
    · obtain rfl := hs.entities.unique he (mem_of_mergeTarget? htarget) hid
      exact ⟨_, absorbed_mem_absorbedRows he, kept_absorbed .., fun hout => absurd hin hout⟩
    · exact ⟨e, mem_absorbedRows he hid, .refl e, fun _ => rfl⟩
  | @created _ row _ _ hdecision hfree hrow hfate hentities hadds =>
    -- The new id is above all that are there.
    have hfresh : ∀ e ∈ s.entities, e.id ≠ row.id := by
      intro e he
      rw [hrow]
      exact Int.ne_of_lt (hs.entities.lt_bound e he)
    refine hadds.undamaged ?_ ?_
    · intro e he
      rw [hentities]
      exact ⟨e, mem_createdRows he (hfresh e he), .refl e, fun _ => rfl⟩
    · rintro ⟨e, he, hid⟩
      exact absurd hid (hfresh e he)

end Admitted
end Store

/-! ## All nodes -/

namespace Visit

variable {now : Moment} {decisions : Decisions} {s : Store}
  {visits : List (Visit now.text decisions)} {touched : List Id}

theorem undamaged (v : Visit now.text decisions) (h : v.before.Keyed)
    (htouched : ∀ id, v.touched? = some id → id ∈ touched) :
    v.before.Undamaged touched v.after := by
  rcases v.cases with ⟨_, hafter, _⟩ | ⟨_, effect, _, heffect, hadmitted⟩
  · rw [hafter]
    exact .refl _
  · refine hadmitted.undamaged h fun hfate id hresolved => htouched id ?_
    simp [touched?, fate?, resolved, heffect, hfate, hresolved]

/-- Visits damage nothing, whatever stores they pass through. -/
theorem Chained.undamaged (h : Chained s visits) (hs : s.Keyed)
    (htouched : ∀ id ∈ visits.filterMap touched?, id ∈ touched) :
    s.Undamaged touched (storeAfter s visits) := by
  have hrelated : s.Keyed → (storeAfter s visits).Keyed ∧
      s.Undamaged touched (storeAfter s visits) := by
    refine h.relates (R := fun a b => a.Keyed → b.Keyed ∧ a.Undamaged touched b)
      (fun a ha => ⟨ha, .refl a⟩) ?_ ?_
    · intro a b c hab hbc ha
      obtain ⟨hb, hfirst⟩ := hab ha
      obtain ⟨hc, hsecond⟩ := hbc hb
      exact ⟨hc, hfirst.trans hsecond⟩
    · intro v hv hbefore
      refine ⟨v.keyed_after hbefore, v.undamaged hbefore fun id hid => htouched id ?_⟩
      exact List.mem_filterMap.2 ⟨v, hv, hid⟩
  exact (hrelated hs).2

end Visit

/-- An import damages nothing that was there, and changes nothing of an entity that it does not
report as touched. -/
theorem undamaged_by_import {s : Store} (h : Reachable s) (now : Moment) (decisions : Decisions)
    (document : TreeDocument) (mode : ImportMode) :
    s.Undamaged (s.runImport now.text document decisions mode).1.touched
      (s.runImport now.text document decisions mode).2 := by
  rw [Store.runImport_eq]
  split
  · exact .refl s
  · refine Store.chained_visits.undamaged h.sound.keyed ?_
    intro id hid
    rw [touched_visitsReport]
    exact mem_distinct.2 hid

/-- An entity that is found by its name, merged into by two decisions with aliases and observations
that overlap, and named by a node that fails at its last observation. -/
theorem undamaged_by_overlap :
    let now : Moment := .ofNanoseconds 0
    let s := Store.run .empty [
      (now, .addEntity { name := "top", entityType := "Project", aliases := some "T" }),
      (now, .addEntity { name := "note", entityType := "Note", aliases := some "A; b, a"
                         observations := ["seen"] }),
      (now, .relate 2 1 "part_of")]
    let document : TreeDocument := { roots := [
      { name := "note", entityType := "Note", aliases := some "B | c"
        observations := [{ content := "new" }, { content := "seen" }, { content := "new" }]
        children := [
          { name := "fresh", entityType := "Note", observations := [{ content := "x" }] }] },
      { name := "other", entityType := "Note", aliases := some "C, d"
        observations := [{ content := "new" }, { content := "last" }] },
      { name := "third", entityType := "Note", aliases := some "e" },
      { name := "broken", entityType := "Note", aliases := some "f"
        observations := [{ content := "lost" }, { content := " " }] }] }
    let decisions : Decisions := [("1", .merge 2 (some 1)), ("2", .addRelation 2 (some 3)),
      ("3", .merge 1 none)]
    let result := s.runImport now.text document decisions .bestEffort
    Reachable s ∧ s.Undamaged result.1.touched result.2 ∧
      result.1.touched = [2, 3] ∧ result.1.failures.length = 1 ∧
      result.2.contentsOf 2 = ["seen", "new", "last"] ∧
      result.2.entities.map Entity.aliases = [some "T", some "A, b, c, d, e", none] := by
  intro now s document decisions result
  have hreachable : Reachable s := Reachable.empty.run _
  exact ⟨hreachable, undamaged_by_import hreachable now decisions document .bestEffort,
    by decide +kernel⟩

end MemoryGraph

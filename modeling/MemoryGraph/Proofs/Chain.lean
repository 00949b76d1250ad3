-- SUMMARY: Every operation is a chain of guarded writes, so that what each write keeps holds of all reachable stores.
import MemoryGraph.Proofs.Keyed

/-!
# Operations as chains of writes

For each operation the writes it makes are put in a row. What a write keeps is
then kept by every operation and holds of every reachable store.
-/
namespace MemoryGraph

open Text

namespace Store

/-! ## Editing records -/

theorem addEntity_writes {now : Moment} {input : EntityDraft} {s after : Store} {e : Entity}
    (h : s.addEntity now.text input = .ok (e, after)) : Writes s after := by
  simp only [addEntity, guard_eq_ok, bind_eq_ok, Prod.exists] at h
  obtain ⟨hfree, row, first, hrow, rows, second, hrows, stored, _, h⟩ := h
  cases h
  have hfree : s.entityNamed? (trim input.name) = none := by simpa using hfree
  have hcreate := appendEntity_write hrow hfree
  have hobserve := appendObservations_writes (hasEntity_appendEntity hrow) hrows
  exact .head hcreate (hobserve.tail (refreshCount_write now.text second row.id))

theorem renamed_eq_ok {s : Store} {current : Entity} {given : Option String} {name : String}
    (h : s.renamed current given = .ok name) :
    name = current.name ∨
      (Field.entityName.Settled name ∧
        ∀ other, s.entityNamed? name = some other →
          name = current.name ∨ other.id = current.id) := by
  cases given with
  | none =>
    cases h
    exact .inl rfl
  | some given =>
    simp only [renamed, bind_eq_ok, guard_eq_ok] at h
    obtain ⟨_, hvalid, hfree, h⟩ := h
    cases h
    refine .inr ⟨Field.settled_trim hvalid, fun other hother => ?_⟩
    by_cases hsame : trim given = current.name
    · exact .inl hsame
    · right
      by_contra hid
      exact hfree ⟨hsame, by simpa [hother] using hid⟩

theorem retyped_eq_ok {current : Entity} {given : Option String} {entityType : String}
    (h : retyped current given = .ok entityType) :
    entityType = current.entityType ∨ Field.entityType.Settled entityType := by
  cases given with
  | none =>
    cases h
    exact .inl rfl
  | some given =>
    simp only [retyped, bind_eq_ok] at h
    obtain ⟨_, hvalid, h⟩ := h
    cases h
    exact .inr (Field.settled_trim hvalid)

theorem changeEntity_write {now : Timestamp} {id : Id} {update : EntityChange} {s after : Store}
    {e : Entity} (hk : s.Keyed) (h : s.changeEntity now id update = .ok (e, after)) :
    Write s after := by
  simp only [changeEntity, bind_eq_ok] at h
  obtain ⟨current, hcurrent, name, hname, entityType, htype, stored, _, h⟩ := h
  cases h
  rw [existing_eq_ok, hk.entity?_eq_some] at hcurrent
  obtain ⟨hmem, hid⟩ := hcurrent
  -- The only row of this id is the one that was looked up.
  have honly : ∀ row ∈ s.entities, row.id = id → row = current := fun row hrow hrowid =>
    hk.entities.unique hrow hmem (hrowid.trans hid.symm)
  refine .changeEntity (fun _ => rfl) ?_ ?_
  · intro row hrow hrowid hsettled
    obtain rfl := honly row hrow hrowid
    refine ⟨?_, ?_, ?_, ?_⟩
    · rcases renamed_eq_ok hname with rfl | ⟨hnew, _⟩
      · exact hsettled.name
      · exact hnew
    · rcases retyped_eq_ok htype with rfl | hnew
      · exact hsettled.entityType
      · exact hnew
    · dsimp only
      split
      · exact nonBlank?_nonBlank? _
      · exact hsettled.aliases
    · dsimp only
      split
      · exact nonBlank?_nonBlank? _
      · exact hsettled.description
  · intro row hrow hrowid
    obtain rfl := honly row hrow hrowid
    rcases renamed_eq_ok hname with rfl | ⟨_, hfree⟩
    · exact .inl rfl
    · by_cases hsame : name = row.name
      · exact .inl hsame
      · exact .inr fun other hother =>
          ((hfree other hother).resolve_left hsame).trans hid

theorem observe_writes {now : Moment} {id : Id} {contents : List String} {s after : Store}
    {rows : List Observation} (h : s.observe now.text id contents = .ok (rows, after)) :
    Writes s after := by
  simp only [observe, bind_eq_ok, Prod.exists] at h
  obtain ⟨e, he, added, mid, hadded, h⟩ := h
  cases h
  have howner := hasEntity_of_entity? (existing_eq_ok.1 he)
  exact (appendObservations_writes howner hadded).tail (refreshCount_write now.text mid id)

theorem dropObservation_writes {now : Timestamp} {id : Id} {s after : Store}
    (h : s.dropObservation now id = .ok after) : Writes s after := by
  unfold dropObservation at h
  split at h
  · cases h
  · cases h
    exact .tail (.single (.removeObservation s id)) (refreshCount_write now _ _)

theorem relate_write {now : Timestamp} {source target : Id} {relationType : String}
    {s after : Store} {added : Option Relation}
    (h : s.relate now source target relationType = .ok (added, after)) : Write s after := by
  simp only [relate, bind_eq_ok] at h
  obtain ⟨_, _, _, _, h⟩ := h
  exact appendRelation_write h

theorem dropRelation_write {id : Id} {s after : Store} (h : s.dropRelation id = .ok after) :
    Write s after := by
  simp only [dropRelation, bind_eq_ok] at h
  obtain ⟨_, _, h⟩ := h
  cases h
  exact .keepRelations s _

theorem setEmbedding_write {id : Id} {v : Embedding} {s after : Store}
    (h : s.setEmbedding id v = .ok after) : Write s after := by
  simp only [setEmbedding, bind_eq_ok] at h
  obtain ⟨_, _, h⟩ := h
  cases h
  exact modifyEntity_write (fun _ => rfl) (fun _ => rfl)
    fun _ h => ⟨h.name, h.entityType, h.aliases, h.description⟩

/-! ## Imports -/

theorem insertNode_writes {now : Moment} {node : TreeNode} {s after : Store} {e : Entity}
    {count : Nat} (hfree : s.entityNamed? (trim node.name) = none)
    (h : s.insertNode now.text node = .ok (e, count, after)) : Writes s after := by
  simp only [insertNode, bind_eq_ok, Prod.exists] at h
  obtain ⟨row, first, hrow, rows, second, hrows, h⟩ := h
  cases h
  have hobserve := appendObservations_writes (hasEntity_appendEntity hrow) hrows
  exact .head (appendEntity_write hrow hfree) (hobserve.tail (refreshCount_write now.text second _))

theorem absorbNode_writes {now : Moment} {node : TreeNode} {s after : Store} {target : Entity}
    {count : Nat} (htarget : s.HasEntity target.id)
    (h : s.absorbNode now.text target node = .ok (count, after)) : Writes s after := by
  simp only [absorbNode, bind_eq_ok, Prod.exists] at h
  obtain ⟨rows, last, hrows, h⟩ := h
  cases h
  split at hrows
  · exact (appendObservations_writes htarget hrows).tail (refreshCount_write now.text last _)
  · have haliases := setAliases_write now.text s target.id
      (nonBlank?_aliasUnionText [target.aliases.getD "", node.aliases.getD ""])
    refine .head haliases (.tail ?_ (refreshCount_write now.text last _))
    exact appendObservations_writes (hasEntity_modifyEntity _ _ (fun _ => rfl) htarget) hrows

theorem linkToParent_writes {now : Timestamp} {node : TreeNode} {id : Id} {parent : Option Id}
    {s after : Store} {count : Nat} (h : s.linkToParent now node id parent = .ok (count, after)) :
    Writes s after := by
  unfold linkToParent at h
  split at h
  · cases h
    exact .refl
  · split at h
    · cases h
      exact .refl
    · simp only [bind_eq_ok, Prod.exists] at h
      obtain ⟨_, _, added, last, hlink, h⟩ := h
      cases h
      exact .single (appendRelation_write hlink)

theorem absorbUnder_writes {now : Moment} {node : TreeNode} {target : Entity} {parent : Option Id}
    {s after : Store} {effect : NodeEffect} (htarget : s.HasEntity target.id)
    (h : s.absorbUnder now.text node target parent = .ok (effect, after)) : Writes s after := by
  simp only [absorbUnder, bind_eq_ok, Prod.exists] at h
  obtain ⟨_, mid, habsorb, _, last, hlink, h⟩ := h
  cases h
  exact (absorbNode_writes htarget habsorb).trans (linkToParent_writes hlink)

theorem insertUnder_writes {now : Moment} {node : TreeNode} {parent : Option Id}
    {s after : Store} {effect : NodeEffect} (hfree : s.entityNamed? (trim node.name) = none)
    (h : s.insertUnder now.text node parent = .ok (effect, after)) : Writes s after := by
  simp only [insertUnder, bind_eq_ok, Prod.exists] at h
  obtain ⟨_, _, mid, hinsert, _, last, hlink, h⟩ := h
  cases h
  exact (insertNode_writes hfree hinsert).trans (linkToParent_writes hlink)

theorem admitNode_writes {now : Moment} {node : TreeNode} {decision : Decision}
    {treeParent : Option Id} {s after : Store} {effect : NodeEffect}
    (h : s.admitNode now.text node decision treeParent = .ok (effect, after)) :
    Writes s after := by
  have habsorb {id : Id} {target : Entity} (htarget : s.existing id = .ok target) :
      s.HasEntity target.id :=
    ⟨target, mem_of_entity? (existing_eq_ok.1 htarget), rfl⟩
  cases decision with
  | skip target parent =>
    cases target with
    | none =>
      cases h
      exact .refl
    | some id =>
      simp only [admitNode, bind_eq_ok] at h
      obtain ⟨_, _, h⟩ := h
      cases h
      exact .refl
  | create parent =>
    simp only [admitNode] at h
    split at h
    · rename_i there hthere
      exact absorbUnder_writes ⟨there, mem_of_entityNamed? hthere, rfl⟩ h
    · rename_i hfree
      exact insertUnder_writes hfree h
  | merge id parent =>
    simp only [admitNode, bind_eq_ok] at h
    obtain ⟨target, htarget, h⟩ := h
    exact absorbUnder_writes (habsorb htarget) h
  | addRelation id parent =>
    simp only [admitNode, bind_eq_ok] at h
    obtain ⟨target, htarget, h⟩ := h
    exact absorbUnder_writes (habsorb htarget) h

end Store

namespace ImportRun

theorem visit_writes (now : Moment) (decisions : Decisions) (node : TreeNode) (path : NodePath)
    (treeParent : Option Id) (run : ImportRun) :
    Store.Writes run.store (run.visit now.text decisions node path treeParent).1.store := by
  unfold visit
  split
  · rename_i effect after hadmit
    exact Store.admitNode_writes hadmit
  · exact .refl

section Keeps

variable {now : Timestamp} {decisions : Decisions} {P : ImportRun → Prop}

mutual
/-- What visiting a node keeps, walking a tree keeps. -/
theorem descend_keeps
    (hvisit : ∀ node path treeParent run, P run →
      P (visit now decisions node path treeParent run).1)
    (path : NodePath) (treeParent : Option Id) (run : ImportRun) (h : P run) :
    (node : TreeNode) → P (run.descend now decisions path treeParent node)
  | ⟨name, entityType, aliases, description, observations, relationType, children⟩ => by
    rw [descend]
    exact descendAll_keeps hvisit path _ 0 _ (hvisit _ path treeParent run h) children
/-- What visiting a node keeps, walking a list of trees below a node keeps. -/
theorem descendAll_keeps
    (hvisit : ∀ node path treeParent run, P run →
      P (visit now decisions node path treeParent run).1)
    (path : NodePath) (treeParent : Option Id) (index : Nat) (run : ImportRun) (h : P run) :
    (nodes : List TreeNode) → P (run.descendAll now decisions path treeParent index nodes)
  | [] => by
    rw [descendAll]
    exact h
  | node :: rest => by
    rw [descendAll]
    exact descendAll_keeps hvisit path treeParent (index + 1) _
      (descend_keeps hvisit (path.child index) treeParent run h node) rest
end

/-- What visiting a node keeps, walking the trees of a document keeps. -/
theorem descendRoots_keeps
    (hvisit : ∀ node path treeParent run, P run →
      P (visit now decisions node path treeParent run).1)
    (index : Nat) (run : ImportRun) (h : P run) (nodes : List TreeNode) :
    P (run.descendRoots now decisions index nodes) := by
  induction nodes generalizing index run with
  | nil => exact h
  | cons node rest ih => exact ih (index + 1) _ (descend_keeps hvisit _ none run h node)

end Keeps

end ImportRun

namespace Store

theorem runImport_writes (now : Moment) (document : TreeDocument) (decisions : Decisions)
    (mode : ImportMode) (s : Store) :
    Writes s (s.runImport now.text document decisions mode).2 := by
  have hrun : Writes s
      (ImportRun.descendRoots now.text decisions 0 { store := s } document.roots).store :=
    ImportRun.descendRoots_keeps (P := fun run => Writes s run.store)
      (fun node path treeParent run h =>
        h.trans (ImportRun.visit_writes now decisions node path treeParent run))
      0 { store := s } .refl document.roots
  unfold runImport
  dsimp only
  split
  · exact .refl
  · exact hrun

/-! ## Moving a node -/

theorem removeRelation_write (s : Store) (id : Id) : Write s (s.removeRelation id) :=
  .keepRelations s _

/-- What the removal of a relation keeps, letting go of the parents keeps. -/
theorem releaseFromParents_keeps {P : Store → Prop}
    (hstep : ∀ (s : Store) (id : Id), P s → P (s.removeRelation id)) {s : Store} (node : Id)
    (hs : P s) : P (s.releaseFromParents node) := by
  have hfold : ∀ (relations : List Relation) (s : Store), P s →
      P (relations.foldl (fun s r => s.removeRelation r.id) s) := by
    intro relations
    induction relations with
    | nil => exact fun _ hs => hs
    | cons r rest ih => exact fun s hs => ih _ (hstep s r.id hs)
  exact hfold _ s hs

theorem releaseFromParents_writes (s : Store) (node : Id) :
    Writes s (s.releaseFromParents node) :=
  releaseFromParents_keeps (fun t id h => h.tail (removeRelation_write t id)) node .refl

theorem reparent_writes {now : Timestamp} {node parent : Id} {s after : Store} {r : Relation}
    (h : s.reparent now node parent = .ok (r, after)) : Writes s after := by
  simp only [reparent, guard_eq_ok, bind_eq_ok, Prod.exists] at h
  obtain ⟨_, _, _, _, _, _, added, last, hlink, h⟩ := h
  have hwrites := (releaseFromParents_writes s node).tail (appendRelation_write hlink)
  cases added with
  | none => cases h
  | some row =>
    cases h
    exact hwrites

/-! ## Merging entities -/

/-- What handing one relation over can do: it is dropped as a loop, gets its new ends, is dropped
because a lower one has them, or takes the place of a higher one. -/
theorem repointOne_cases {source target : Id} {relation : Relation} {count after' : Repointed}
    {s after : Store} (h : s.repointOne source target relation count = .ok (after', after)) :
    let source' := substitute source target relation.source
    let target' := substitute source target relation.target
    (source' = target' ∧ after' = { count with dropped := count.dropped + 1 } ∧
        after = s.removeRelation relation.id) ∨
    (source' ≠ target' ∧ s.relationBetween? source' target' relation.relationType = none ∧
        after' = { count with kept := count.kept + 1 } ∧
        s.redirectRelation relation source' target' = .ok after) ∨
    (source' ≠ target' ∧ ∃ other,
        s.relationBetween? source' target' relation.relationType = some other ∧
        other.id < relation.id ∧ after' = { count with dropped := count.dropped + 1 } ∧
        after = s.removeRelation relation.id) ∨
    (source' ≠ target' ∧ ∃ other,
        s.relationBetween? source' target' relation.relationType = some other ∧
        ¬ other.id < relation.id ∧
        after' = { kept := count.kept + 1, dropped := count.dropped + 1 } ∧
        (s.removeRelation other.id).redirectRelation relation source' target' = .ok after) := by
  intro source' target'
  unfold repointOne at h
  dsimp only at h
  split at h
  · rename_i hloop
    cases h
    exact .inl ⟨hloop, rfl, rfl⟩
  · rename_i hloop
    split at h
    · rename_i hfree
      simp only [bind_eq_ok] at h
      obtain ⟨last, hredirect, h⟩ := h
      cases h
      exact .inr (.inl ⟨hloop, hfree, rfl, hredirect⟩)
    · rename_i other hother
      split at h
      · rename_i hlower
        cases h
        exact .inr (.inr (.inl ⟨hloop, other, hother, hlower, rfl, rfl⟩))
      · rename_i hlower
        simp only [bind_eq_ok] at h
        obtain ⟨last, hredirect, h⟩ := h
        cases h
        exact .inr (.inr (.inr ⟨hloop, other, hother, hlower, rfl, hredirect⟩))

/-- The rows of these ids have the types that a list of relations says. -/
def TypesAgree (relations : List Relation) (s : Store) : Prop :=
  ∀ relation ∈ relations, ∀ r ∈ s.relations, r.id = relation.id →
    r.relationType = relation.relationType

theorem TypesAgree.remove {relations : List Relation} {s : Store} (h : TypesAgree relations s)
    (id : Id) : TypesAgree relations (s.removeRelation id) :=
  fun relation hrelation r hr => h relation hrelation r (List.mem_filter.1 hr).1

theorem TypesAgree.redirect {relations : List Relation} {s after : Store} {relation : Relation}
    {source target : Id} (h : TypesAgree relations s)
    (hok : s.redirectRelation relation source target = .ok after) :
    TypesAgree relations after := by
  obtain ⟨_, _, _, rfl⟩ := redirectRelation_eq_ok hok
  intro other hother r hr hid
  obtain ⟨row, hrow, rfl⟩ := List.mem_map.1 hr
  split at hid
  · rename_i hsame
    simp only [hsame, if_true] at hid ⊢
    exact h other hother row hrow (hsame.trans hid)
  · rename_i hdiffer
    simp only [hdiffer, if_false] at hid ⊢
    exact h other hother row hrow hid

theorem repointOne_writes {source target : Id} {relation : Relation} {rest : List Relation}
    {count after' : Repointed} {s after : Store} (htypes : TypesAgree (relation :: rest) s)
    (h : s.repointOne source target relation count = .ok (after', after)) :
    Writes s after ∧ TypesAgree rest after := by
  have hrest : TypesAgree rest s := fun r hr => htypes r (List.mem_cons_of_mem _ hr)
  have hone : ∀ {s : Store}, TypesAgree (relation :: rest) s → ∀ r ∈ s.relations,
      r.id = relation.id → r.relationType = relation.relationType :=
    fun h => h relation List.mem_cons_self
  obtain ⟨_, _, rfl⟩ | ⟨hloop, _, _, hok⟩ | ⟨_, _, _, _, _, rfl⟩ | ⟨hloop, other, _, _, _, hok⟩ :=
    repointOne_cases h
  · exact ⟨.single (removeRelation_write s _), hrest.remove _⟩
  · exact ⟨.single (.redirect hloop (hone htypes) hok), hrest.redirect hok⟩
  · exact ⟨.single (removeRelation_write s _), hrest.remove _⟩
  · have hredirect := Write.redirect hloop (hone (htypes.remove other.id)) hok
    exact ⟨.head (removeRelation_write s _) (.single hredirect), (hrest.remove _).redirect hok⟩

theorem repointAll_writes {source target : Id} {relations : List Relation}
    {count after' : Repointed} {s after : Store} (htypes : TypesAgree relations s)
    (h : repointAll source target relations count s = .ok (after', after)) : Writes s after := by
  induction relations generalizing count s with
  | nil =>
    cases h
    exact .refl
  | cons relation rest ih =>
    simp only [repointAll, bind_eq_ok, Prod.exists] at h
    obtain ⟨_, mid, hone, hrest⟩ := h
    obtain ⟨hwrites, htypes'⟩ := repointOne_writes htypes hone
    exact hwrites.trans (ih htypes' hrest)

theorem deleteEntity_write {id : Id} {s after : Store} (h : s.deleteEntity id = .ok after) :
    Write s after := by
  obtain ⟨_, rfl⟩ := deleteEntity_eq_ok.1 h
  exact .removeEntity s id

theorem nonBlank?_mergedAliases (giver taker : Entity) :
    nonBlank? (mergedAliases giver taker) = mergedAliases giver taker :=
  nonBlank?_aliasUnionText _

theorem mergeEntities_writes {now : Timestamp} {source target : Id} {s after : Store}
    {effect : MergeEffect} (hk : s.Keyed)
    (h : s.mergeEntities now source target = .ok (effect, after)) : Writes s after := by
  simp only [mergeEntities, guard_eq_ok, bind_eq_ok, Prod.exists] at h
  obtain ⟨_, giver, _, taker, htaker, count, mid, hrepoint, last, hdelete, _, _, h⟩ := h
  cases h
  have htarget := hasEntity_of_entity? (existing_eq_ok.1 htaker)
  have haliases := setAliases_write now s target (nonBlank?_mergedAliases giver taker)
  have howner := hasEntity_modifyEntity target
    (fun e => { e with aliases := mergedAliases giver taker, updatedAt := now }) (fun _ => rfl)
    htarget
  have htypes : TypesAgree (s.relationsAt source) s := fun relation hrelation r hr hid =>
    congrArg Relation.relationType (hk.relations.unique hr (List.mem_filter.1 hrelation).1 hid)
  have hfinish : Writes mid after :=
    .head (refreshCount_write now mid target) (.single (deleteEntity_write hdelete))
  refine .head haliases (.head (.handOver howner) (.trans (repointAll_writes ?_ hrepoint) hfinish))
  exact htypes

/-! ## Deleting nodes -/

/-- What the removal of an entity keeps, the deletion of any number of them keeps. -/
theorem deleteAll_keeps {P : Store → Prop}
    (hstep : ∀ (s : Store) (id : Id), P s → P (s.removeEntity id)) {ids : List Id}
    {s after : Store} (h : deleteAll ids s = .ok after) (hs : P s) : P after := by
  induction ids generalizing s with
  | nil =>
    cases h
    exact hs
  | cons id rest ih =>
    simp only [deleteAll, bind_eq_ok] at h
    obtain ⟨mid, hone, hrest⟩ := h
    obtain ⟨_, rfl⟩ := deleteEntity_eq_ok.1 hone
    exact ih hrest (hstep s id hs)

theorem deleteAll_writes {ids : List Id} {s after : Store} (h : deleteAll ids s = .ok after) :
    Writes s after :=
  deleteAll_keeps (fun t id h => h.tail (.removeEntity t id)) h .refl

theorem prune_writes {node : Id} {cascade : Bool} {s after : Store} {count : Nat}
    (h : s.prune node cascade = .ok (count, after)) : Writes s after := by
  simp only [prune, bind_eq_ok] at h
  obtain ⟨_, _, last, hdelete, h⟩ := h
  cases h
  split at hdelete
  · exact deleteAll_writes hdelete
  · exact .head (.keepRelations s _) (deleteAll_writes hdelete)

end Store

/-! ## All operations -/

theorem Operation.perform_writes {now : Moment} {s after : Store} {operation : Operation}
    (hk : s.Keyed) (h : operation.perform now.text s = .ok after) : Store.Writes s after := by
  cases operation with
  | addEntity input =>
    simp only [perform, bind_eq_ok, Prod.exists] at h
    obtain ⟨_, _, hadd, ⟨⟩⟩ := h
    exact Store.addEntity_writes hadd
  | changeEntity id update =>
    simp only [perform, bind_eq_ok, Prod.exists] at h
    obtain ⟨_, _, hchange, ⟨⟩⟩ := h
    exact .single (Store.changeEntity_write hk hchange)
  | observe id contents =>
    simp only [perform, bind_eq_ok, Prod.exists] at h
    obtain ⟨_, _, hobserve, ⟨⟩⟩ := h
    exact Store.observe_writes hobserve
  | dropObservation id => exact Store.dropObservation_writes h
  | relate source target relationType =>
    simp only [perform, bind_eq_ok, Prod.exists] at h
    obtain ⟨_, _, hrelate, ⟨⟩⟩ := h
    exact .single (Store.relate_write hrelate)
  | dropRelation id => exact .single (Store.dropRelation_write h)
  | setEmbedding id v => exact .single (Store.setEmbedding_write h)
  | runImport document decisions mode =>
    cases h
    exact Store.runImport_writes now document decisions mode s
  | reparent node parent =>
    simp only [perform, bind_eq_ok, Prod.exists] at h
    obtain ⟨_, _, hmove, ⟨⟩⟩ := h
    exact Store.reparent_writes hmove
  | mergeEntities source target =>
    simp only [perform, bind_eq_ok, Prod.exists] at h
    obtain ⟨_, _, hmerge, ⟨⟩⟩ := h
    exact Store.mergeEntities_writes hk hmerge
  | prune node cascade =>
    simp only [perform, bind_eq_ok, Prod.exists] at h
    obtain ⟨_, _, hprune, ⟨⟩⟩ := h
    exact Store.prune_writes hprune

theorem Operation.outcome_writes {now : Moment} {s : Store} {operation : Operation}
    (hk : s.Keyed) : Store.Writes s (operation.outcome now s) := by
  unfold outcome
  split
  · rename_i after h
    exact perform_writes hk h
  · exact .refl

theorem Reachable.keyed {s : Store} (h : Reachable s) : s.Keyed := by
  induction h with
  | empty => exact Store.keyed_empty
  | step now operation _ ih => exact (Operation.outcome_writes ih).keeps Store.Write.keyed ih

/-- A reachable store is made out of the empty one by writes. -/
theorem Reachable.writes {s : Store} (h : Reachable s) : Store.Writes .empty s := by
  induction h with
  | empty => exact .refl
  | step now operation hs ih => exact ih.trans (Operation.outcome_writes hs.keyed)

end MemoryGraph

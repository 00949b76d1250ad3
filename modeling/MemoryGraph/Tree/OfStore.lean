-- SUMMARY: Exporting parts of the graph as trees.
import MemoryGraph.Store.Basic
import MemoryGraph.Tree.Codec

/-!
# Export

Below an entity stand first its children and then the entities that its lateral
relations lead to, both in the order of the relations. An entity never stands
below itself: every branch carries the entities on it, and a link back to one of
them is left out.
-/
namespace MemoryGraph.Store

/-- A step of a tree: where it leads and the type of the relation it follows. -/
structure Link where
  target : Id
  relationType : String
  deriving DecidableEq, Repr

/-- The links below an entity: its children, then the ends of its lateral relations. -/
def links (s : Store) (id : Id) : List Link :=
  (s.relationsFromChildren id).map (fun r => ⟨r.source, r.relationType⟩)
    ++ (s.relationsAside id).map (fun r => ⟨r.target, r.relationType⟩)

/-- The entities that are not on a branch. -/
def offBranch (s : Store) (branch : List Id) : List Entity :=
  s.entities.filter (fun e => !branch.contains e.id)

theorem length_offBranch_lt {s : Store} {branch : List Id} {id : Id} {e : Entity}
    (hoff : branch.contains id = false) (he : s.entity? id = some e) :
    (s.offBranch (id :: branch)).length < (s.offBranch branch).length := by
  have hsplit : s.offBranch (id :: branch)
      = (s.offBranch branch).filter (fun e => !decide (e.id = id)) := by
    simp only [offBranch, List.filter_filter]
    apply List.filter_congr
    intro x _
    simp
  have hid : e.id = id := entity?_id he
  have hmem : e ∈ s.entities := List.mem_of_find?_eq_some he
  have hbranch : e ∈ s.offBranch branch := by simp_all [offBranch]
  rw [hsplit]
  exact List.length_filter_lt_length_iff_exists.2 ⟨e, hbranch, by simp [hid]⟩

/-- The observations of an entity as they stand in a tree. -/
def draftsOf (s : Store) (id : Id) : List ObservationDraft :=
  (s.observationsOf id).map fun o => { content := o.content, createdAt := some o.createdAt }

/-- The tree below an entity at the end of a `branch`. -/
def exportNode (s : Store) (entity : Entity) (relationType : Option String) (branch : List Id) :
    TreeNode :=
  { name := entity.name
    entityType := entity.entityType
    aliases := entity.aliases
    description := entity.description
    observations := s.draftsOf entity.id
    relationType
    children := (s.links entity.id).filterMap fun link =>
      if _hoff : branch.contains link.target = false then
        match _he : s.entity? link.target with
        | none => none
        | some child => some (exportNode s child (some link.relationType) (link.target :: branch))
      else none }
termination_by (s.offBranch branch).length
decreasing_by exact length_offBranch_lt _hoff _he

/-- The trees of the given entities; unknown ids are passed over. -/
def exportTrees (now : Timestamp) (ids : List Id) (s : Store) : TreeDocument where
  version := currentVersion
  exportedAt := now
  roots := ids.filterMap fun id => (s.entity? id).map fun e => s.exportNode e none [id]

/-- The text of the trees of the given entities. -/
def exportText (now : Timestamp) (ids : List Id) (s : Store) : String :=
  (s.exportTrees now ids).toText

/-- The entities without a parent: first those at the top of trees, then the rest, each by name. -/
def roots (s : Store) : List Entity :=
  s.parentless.filter Entity.isTop ++ s.parentless.filter (fun e => !e.isTop)

end MemoryGraph.Store

-- SUMMARY: Embedders, the text that stands for an entity, and keeping the stored vectors up to date.
import MemoryGraph.Embedding.Blob
import MemoryGraph.Number.Numeral
import MemoryGraph.Store.Rows

/-!
# Embedding entities

An embedder answers texts with vectors, or is disabled; it need not answer every
text. The vector of an entity is that of its name, type, aliases and
description, and changes no other field of its row.
-/
namespace MemoryGraph

open Text

/-- What answers texts with vectors. -/
inductive Embedder where
  | disabled
  | answering (answer : String → Option Embedding)

namespace Embedder

/-- Whether vectors are to be had at all. -/
def isEnabled : Embedder → Bool
  | .disabled => false
  | .answering _ => true

/-- The vector of a text, when there is one. -/
def vector? : Embedder → String → Option Embedding
  | .disabled, _ => none
  | .answering answer, text => answer text

end Embedder

/-- The text that stands for an entity. -/
def Entity.embeddingText (e : Entity) : String :=
  " ".intercalate
    (([e.name, e.entityType] ++ e.aliases.toList ++ e.description.toList).filter
      (fun part => !allBlank part))

namespace Store

/-- Store the vector of an entity. -/
def setEmbedding (id : Id) (v : Embedding) (s : Store) : Except Refusal Store := do
  let _ ← s.existing id
  return s.modifyEntity id fun e => { e with embedding := some v.toBlob }

/-- The first entities without a vector. A limit that exceeds the integers of 64
bits with a sign is none. -/
def withoutEmbedding (s : Store) (limit : Nat) : List Entity :=
  let missing := s.entities.filter (fun e => e.embedding.isNone)
  if IntegerRange.signed64.holds limit then missing.take limit else missing

/-- The entities with a vector, and the vectors. -/
def withEmbedding (s : Store) : List (Entity × Embedding) :=
  s.entities.filterMap fun e => e.embedding.map fun blob => (e, Embedding.ofBlob blob)

/-- Embed an entity; the result says whether a vector was stored. -/
def embedOne (embedder : Embedder) (e : Entity) (s : Store) :
    Except Refusal (Bool × Store) :=
  match embedder.vector? e.embeddingText with
  | some v => do return (true, ← s.setEmbedding e.id v)
  | none => .ok (false, s)

/-- Embed entities one after the other; the result is how many vectors were stored. -/
def embedAll (embedder : Embedder) : List Entity → Store → Except Refusal (Nat × Store)
  | [], s => .ok (0, s)
  | e :: rest, s => do
    let (stored, s) ← s.embedOne embedder e
    let (count, s) ← embedAll embedder rest s
    return ((if stored then 1 else 0) + count, s)

/-- Embed the first entities without a vector. -/
def embedMissing (embedder : Embedder) (limit : Nat) (s : Store) :
    Except Refusal (Nat × Store) :=
  if embedder.isEnabled then s.embedAll embedder (s.withoutEmbedding limit)
  else .ok (0, s)

/-- Embed the entities of the given ids again; unknown ids are passed over. -/
def embedAgain (embedder : Embedder) (ids : List Id) (s : Store) :
    Except Refusal (Nat × Store) :=
  if embedder.isEnabled then s.embedAll embedder (ids.filterMap s.entity?)
  else .ok (0, s)

end Store
end MemoryGraph

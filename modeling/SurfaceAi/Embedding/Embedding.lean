import Mathlib.Data.Nat.Notation

/-! Embeddings: a flat feature array with the shape it claims to have. Nothing ties
the two together, so consumers check the shape or read at their own risk. -/

namespace SurfaceAi.Embeddings

structure EmbeddingMeta where
  dim : ℕ := 0
  count : ℕ := 0
  gridH : ℕ := 0
  gridW : ℕ := 0
  deriving DecidableEq, Repr

structure Embedding (F : Type*) where
  data : List F
  onGpu : Bool
  embeddingMeta : EmbeddingMeta
  globalFeatures : List F
  surfaceId : String
  positionId : ℕ

namespace Embedding

variable {F : Type*}

def fromCpu (data : List F) (m : EmbeddingMeta) : Embedding F := ⟨data, false, m, [], "", 0⟩

/-- `Embedding::FromCpu({}, EmbeddingMeta{})`. -/
def empty : Embedding F := fromCpu [] {}

/-- Patch `i` of the flat array. -/
def patch (e : Embedding F) (i : ℕ) : List F :=
  (e.data.drop (i * e.embeddingMeta.dim)).take e.embeddingMeta.dim

end Embedding

end SurfaceAi.Embeddings

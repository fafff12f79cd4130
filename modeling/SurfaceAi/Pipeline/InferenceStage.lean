import SurfaceAi.Pipeline.Stage
import SurfaceAi.Pipeline.StageData

/-! The inference stage: upload the image, extract its patch features, download them.
Every step that fails is answered by the empty embedding, never by an error. -/

namespace SurfaceAi.Pipeline

open Embeddings

/-- `IEmbedder::Extract`. -/
abbrev Embedder (F : Type*) := Image → Result (Embedding F)

/-- The pool device images are taken from; `Acquire` is asked for a number of bytes. -/
structure GpuPool where
  acquire : ℕ → Result Unit

/-- `GpuImage::FromPool`; the pixels are copied later. -/
def GpuPool.fromPool (pool : GpuPool) (m : ImageMeta) : Result ImageMeta :=
  (pool.acquire m.byteSize).map fun _ => m

/-- Whether the two copies of a frame succeed. -/
structure DeviceCopies where
  toDevice : Bool
  toHost : Bool

structure InferenceStage (F : Type) where
  stub : Bool
  embedder : Option (Embedder F)
  globalEmbedder : Option (Embedder F)
  gpuPool : Option GpuPool

namespace InferenceStage

variable {F D : Type} (stage : InferenceStage F)

def activeEmbedder : Option (Embedder F) := if stage.stub then none else stage.embedder

/-- The features of an extracted embedding, in host memory. -/
def download (copies : DeviceCopies) (extracted : Embedding F) : Embedding F :=
  if extracted.onGpu then
    if copies.toHost then
      .fromCpu (extracted.data.take
        (extracted.embeddingMeta.count * extracted.embeddingMeta.dim)) extracted.embeddingMeta
    else .empty
  else extracted

def patchEmbedding (copies : DeviceCopies) (img : Image) : Embedding F :=
  match stage.activeEmbedder with
  | none => .empty
  | some extract =>
    match stage.gpuPool with
    | none => .empty
    | some pool =>
      match pool.fromPool img.imageMeta with
      | .error _ => .empty
      | .ok deviceMeta =>
        if copies.toDevice then
          match extract ⟨deviceMeta, img.bytes⟩ with
          | .error _ => .empty
          | .ok extracted => download copies extracted
        else .empty

/-- The features of the whole image, for retrieval. -/
def globalFeatures (img : Image) (embedding : Embedding F) : Embedding F :=
  match if stage.stub then none else stage.globalEmbedder with
  | none => embedding
  | some extract =>
    match extract img with
    | .error _ => embedding
    | .ok g =>
      let m := g.embeddingMeta
      if 0 < m.count ∧ 0 < m.dim then
        { embedding with globalFeatures := g.data.take (m.count * m.dim) }
      else embedding

/-- Carry the identity in the image's metadata over, where it is set. -/
def carryIdentity (m : ImageMeta) (embedding : Embedding F) : Embedding F :=
  { embedding with
    surfaceId := if m.surfaceId = "" then embedding.surfaceId else m.surfaceId
    positionId := if m.positionId = 0 then embedding.positionId else m.positionId }

def process (copies : DeviceCopies) (input : StageData F D) : Result (StageData F D) :=
  match input with
  | .surfaceImage img =>
    .ok (.embedding (carryIdentity img.imageMeta
      (stage.globalFeatures img (stage.patchEmbedding copies img))))
  | _ => fail .pipelineStageTypeMismatch "Inference expects SurfaceImage input"

end InferenceStage

end SurfaceAi.Pipeline

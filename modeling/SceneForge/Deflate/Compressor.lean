import SceneForge.Bytes
import SceneForge.Proofs.Deflate.RoundTrip

/-!
# Compressors

There are many ways to compress data for one way to decompress it. Which one is taken shows
in the bytes and the size of what is compressed only, so whatever compresses is given its
compressor, and may rely on decompression to undo it.
-/

namespace SceneForge

/-- A way to compress data, which decompression undoes. -/
structure Compressor where
  deflate : (data : Bytes) → Bytes
  inflate_deflate : ∀ {data : Bytes} {limit : Nat}, data.length ≤ limit →
    Deflate.inflate limit (deflate data) = some data

/-- This library's own compressor. -/
def Compressor.standard : Compressor := ⟨Deflate.deflate, Deflate.inflate_deflate⟩

end SceneForge

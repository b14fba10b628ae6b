import BlockStore.Digest.Blake3
import BlockStore.Key

/-!
# Content keys

Equal contents are recognised by a key computed from their bytes.

## Main definitions

* `contentHash`: the first 160 bits of the BLAKE3 digest, over exactly the bytes given; a value and
  the same value padded to a block differ.
-/

namespace BlockStore

/-- The key of a content: the first 160 bits of its BLAKE3 digest. -/
def contentHash (data : ByteArray) : Key := Key.ofBytes (bytesOf (blake3 data)) 0

end BlockStore

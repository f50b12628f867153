import SealedGraph.Hash.Sha2

/-!
# Keyed hashes

HMAC over SHA-256. A key longer than a block is hashed first, a shorter one is filled up with
zeros; the hash of the message is hashed again, each time behind the key with a mask over it.

* `length_keyBlock`: every key comes to one block.
* `keyBlock_keyBlock`: a key that is one block already stays as it is.
* `length_mac`: a tag has 32 bytes.
-/

namespace SealedGraph.Hmac

/-- The number of bytes in a block. -/
def blockSize : Nat := 64

/-- The key as one block. -/
def keyBlock (key : List UInt8) : List UInt8 :=
  let key := if key.length > blockSize then sha256 key else key
  key ++ List.replicate (blockSize - key.length) 0

/-- A block with the same mask over every byte. -/
def masked (mask : UInt8) (block : List UInt8) : List UInt8 := block.map (· ^^^ mask)

/-- The tag of a message under a key. -/
def mac (key msg : List UInt8) : List UInt8 :=
  sha256 (masked 0x5C (keyBlock key) ++ sha256 (masked 0x36 (keyBlock key) ++ msg))

theorem length_keyBlock (key : List UInt8) : (keyBlock key).length = blockSize := by
  unfold keyBlock
  split
  · simp [length_sha256, blockSize]
  · simp; omega

theorem keyBlock_keyBlock (key : List UInt8) : keyBlock (keyBlock key) = keyBlock key := by
  have h := length_keyBlock key
  generalize keyBlock key = block at h
  unfold keyBlock
  simp [h]

theorem length_mac (key msg : List UInt8) : (mac key msg).length = 32 := length_sha256 _

end SealedGraph.Hmac

import SealedGraph.Envelope

/-!
# Tags and the standard construction

Tags are made with the key as one block, and the block is taken for a key once more: what is a block
already is left as it is by that. So a tag under a key of any length is the standard one.

* `standard`: the construction over any hash, mask by mask.
* `written?`: the block as it is written into memory, where bytes may have no room.
* `tag_exact`: the block always has room for the key or its digest, the tag is the standard one, and
  it depends on the key through the block only.
-/

namespace SealedGraph.Hmac

/-- The standard construction over a hash: the key, hashed first if it is longer than a block, and
filled up with zeros to a block; the text behind it under the inner mask is hashed, and the digest
behind it under the outer mask is hashed again. -/
def standard (hash : List UInt8 → List UInt8) (size : Nat) (key text : List UInt8) : List UInt8 :=
  let short := if size < key.length then hash key else key
  let block := short.rightpad size 0
  let inner := List.replicate size 0x36
  let outer := List.replicate size 0x5C
  hash (List.zipWith (· ^^^ ·) block outer ++ hash (List.zipWith (· ^^^ ·) block inner ++ text))

/-- Bytes written over the first ones of a block, if it has room for them. -/
def overwrite? (block bytes : List UInt8) : Option (List UInt8) :=
  if bytes.length ≤ block.length then some (bytes ++ block.drop bytes.length) else none

/-- A block of zeros with the key written over it, or its digest if the key is longer. -/
def written? (key : List UInt8) : Option (List UInt8) :=
  let zeros := List.replicate blockSize 0
  if key.length > zeros.length then overwrite? zeros (sha256 key) else overwrite? zeros key

theorem overwrite?_zeros {n : Nat} {bytes : List UInt8} (h : bytes.length ≤ n) :
    overwrite? (List.replicate n 0) bytes =
      some (bytes ++ List.replicate (n - bytes.length) 0) := by
  unfold overwrite?
  rw [List.length_replicate, if_pos h, List.drop_replicate]

/-- **No key is out of range**: the block has room for every key that is written into it. -/
theorem written?_eq (key : List UInt8) : written? key = some (keyBlock key) := by
  unfold written? keyBlock
  simp only [List.length_replicate]
  by_cases h : key.length > blockSize
  · have room : (sha256 key).length ≤ blockSize := by
      rw [length_sha256]
      decide
    rw [if_pos h, if_pos h, overwrite?_zeros room]
  · rw [if_neg h, if_neg h, overwrite?_zeros (Nat.le_of_not_lt h)]

theorem masked_eq_zipWith {mask : UInt8} {block : List UInt8} {n : Nat} (h : block.length = n) :
    masked mask block = List.zipWith (· ^^^ ·) block (List.replicate n mask) := by
  subst h
  unfold masked
  induction block with
  | nil => rfl
  | cons b block ih =>
    rw [List.map_cons, ih, List.length_cons, List.replicate_succ, List.zipWith_cons_cons]

/-- **The tag under any key** is the standard one. -/
theorem mac_eq_standard (key msg : List UInt8) :
    mac key msg = standard sha256 blockSize key msg := by
  have hblock : keyBlock key =
      (if blockSize < key.length then sha256 key else key).rightpad blockSize 0 := rfl
  unfold mac standard
  rw [masked_eq_zipWith (length_keyBlock key), masked_eq_zipWith (length_keyBlock key), hblock]

/-- To take a block for a key changes nothing. -/
theorem mac_keyBlock (key : List UInt8) : mac (keyBlock key) = mac key := by
  funext msg
  unfold mac
  rw [keyBlock_keyBlock]

/-- **The tag is the standard one for every key.** A block of zeros always has room for the key, or
for its digest if the key is longer, and comes out as long as it was; the tag made with that block,
which is made a block once more, is the standard tag of the message under the key itself; and two
keys that do not have the same tags have different blocks. -/
theorem tag_exact (key : List UInt8) :
    (written? key = some (keyBlock key) ∧ (keyBlock key).length = 64) ∧
      (∀ msg, mac (keyBlock key) msg = standard sha256 64 key msg) ∧
      (∀ body, Envelope.tag key body = standard sha256 64 key (Utf8.encode body)) ∧
      ∀ key', standard sha256 64 key ≠ standard sha256 64 key' → keyBlock key ≠ keyBlock key' := by
  have hmac : ∀ key msg, mac (keyBlock key) msg = standard sha256 64 key msg := by
    intro key msg
    rw [mac_keyBlock]
    exact mac_eq_standard key msg
  refine ⟨⟨written?_eq key, length_keyBlock key⟩, hmac key, fun body => ?_, fun key' h => ?_⟩
  · exact hmac key (Utf8.encode body)
  · intro hblock
    refine h (funext fun msg => ?_)
    rw [← hmac key, ← hmac key', hblock]

end SealedGraph.Hmac

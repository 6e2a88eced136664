import HpmSdk.Sdp.Engine

set_option autoImplicit false

/-!
# CCM of NIST SP 800-38C

The authenticated encryption mode over an abstract 16-byte block function, as
sections 6 and A.2 of the publication state it: the formatting of the nonce,
the associated data and the payload into blocks, the CBC-MAC over them, and the
counter blocks.  This is what the driver's CCM functions are meant to compute;
nothing in this module is translated from the driver.
-/

namespace HpmSdk.Sdp.Ccm

open HpmSdk.Foundation

/-- `q`, the width in bytes of the length field, for a nonce of `15 - q` bytes. -/
def q (nonce : List UInt8) : Nat := 15 - nonce.length

/-! ## Formatting (section A.2) -/

/-- The flags byte of `B₀`. -/
def b0Flags (adata : Bool) (t q : Nat) : UInt8 :=
  UInt8.ofNat ((if adata then 64 else 0) + 8 * ((t - 2) / 2) + (q - 1))

/-- `B₀`: flags, nonce, payload length. -/
def b0 (nonce aad payload : List UInt8) (t : Nat) : Block :=
  Block.pad (b0Flags (!aad.isEmpty) t (q nonce) ::
    (nonce ++ beBytes (q nonce) payload.length))

/-- The prefix that encodes the length `a < 2 ^ 32` of the associated data. -/
def encodeAadLen (a : Nat) : List UInt8 :=
  if a = 0 then []
  else if a < 0xFF00 then beBytes 2 a
  else 0xFF :: 0xFE :: beBytes 4 a

/-- Cut a string into blocks, the last one padded with zeros. -/
def padBlocks (l : List UInt8) : List Block :=
  if l.length = 0 then [] else Block.pad l :: padBlocks (l.drop 16)
termination_by l.length
decreasing_by rw [List.length_drop]; omega

/-- All the blocks that are authenticated. -/
def blocks (nonce aad payload : List UInt8) (t : Nat) : List Block :=
  b0 nonce aad payload t :: (padBlocks (encodeAadLen aad.length ++ aad) ++ padBlocks payload)

/-- Counter block `j`. -/
def ctrBlock (nonce : List UInt8) (j : Nat) : Block :=
  Block.pad (UInt8.ofNat (q nonce - 1) :: (nonce ++ beBytes (q nonce) j))

/-! ## Authentication and encryption (section 6) -/

variable (E : Block → Block)

/-- Continue a CBC-MAC from the chaining value `y`. -/
def macFrom (y : Block) (bs : List Block) : Block := bs.foldl (fun y b => E (Block.xor y b)) y

/-- The CBC-MAC of a sequence of blocks. -/
def cbcMac (bs : List Block) : Block := macFrom E (fun _ => 0) bs

/-- The payload under the key stream `E(Ctr₁) ‖ E(Ctr₂) ‖ …`. -/
def ciphertext (nonce payload : List UInt8) : List UInt8 :=
  List.zipWith (· ^^^ ·) payload
    ((List.range ((payload.length + 15) / 16)).flatMap fun j =>
      (E (ctrBlock nonce (j + 1))).toList)

/-- The first `t` bytes of the CBC-MAC under `E(Ctr₀)`. -/
def tag (nonce aad payload : List UInt8) (t : Nat) : List UInt8 :=
  (Block.xor (cbcMac E (blocks nonce aad payload t)) (E (ctrBlock nonce 0))).toList.take t

/-! ## Cutting and chaining -/

theorem padBlocks_nil : padBlocks [] = [] := by
  rw [padBlocks]
  rfl

/-- Sixteen bytes at a time. -/
theorem padBlocks_of_ne {l : List UInt8} (h : 0 < l.length) :
    padBlocks l = Block.pad l :: padBlocks (l.drop 16) := by
  rw [padBlocks, if_neg (by omega)]

/-- A padded block depends on the first sixteen bytes only. -/
theorem pad_congr {l l' : List UInt8} (h : l.take 16 = l'.take 16) :
    Block.pad l = Block.pad l' := by
  funext i
  have hi : l[i.val]? = l'[i.val]? := by
    have := congrArg (fun x => x[i.val]?) h
    simpa only [List.getElem?_take_of_lt i.isLt] using this
  simp [Block.pad, Block.ofBuf, Buf.ofList, List.getD_eq_getElem?_getD, hi]

/-- A first part that fills a block is a block of its own. -/
theorem padBlocks_append_of_full {l r : List UInt8} (h : l.length = 16) :
    padBlocks (l ++ r) = Block.pad l :: padBlocks r := by
  rw [padBlocks_of_ne (by rw [List.length_append]; omega), List.drop_left' h]
  congr 1
  exact pad_congr (by rw [List.take_left' h, ← h, List.take_length])

/-- A short string is one block. -/
theorem padBlocks_of_le {l : List UInt8} (hpos : 0 < l.length) (hle : l.length ≤ 16) :
    padBlocks l = [Block.pad l] := by
  rw [padBlocks_of_ne hpos, List.drop_eq_nil_of_le hle, padBlocks_nil]

/-- The first block takes what fits behind a prefix, the rest is cut on its own. -/
theorem padBlocks_prefix (pre : List UInt8) (b : Buf) (off : Nat) {n k : Nat}
    (hpre : pre.length ≤ 16) (hpos : 0 < pre.length + n) (hk : k = min n (16 - pre.length)) :
    padBlocks (pre ++ b.toList off n) =
      Block.pad (pre ++ b.toList off k) :: padBlocks (b.toList (off + k) (n - k)) := by
  rcases Nat.lt_or_ge n (16 - pre.length) with h | h
  · obtain rfl : k = n := by omega
    have hlen : (pre ++ b.toList off k).length < 16 := by
      rw [List.length_append, Buf.length_toList]
      omega
    rw [padBlocks_of_ne (by rw [List.length_append, Buf.length_toList]; exact hpos),
      List.drop_eq_nil_of_le (Nat.le_of_lt hlen), Nat.sub_self, Buf.toList_zero]
  · have hsplit : b.toList off n = b.toList off k ++ b.toList (off + k) (n - k) := by
      rw [← Buf.toList_add, Nat.add_sub_cancel' (by omega)]
    rw [hsplit, ← List.append_assoc, padBlocks_append_of_full]
    rw [List.length_append, Buf.length_toList]
    omega

@[simp] theorem macFrom_nil (y : Block) : macFrom E y [] = y := rfl

@[simp] theorem macFrom_cons (y b : Block) (bs : List Block) :
    macFrom E y (b :: bs) = macFrom E (E (Block.xor y b)) bs := rfl

/-- Chaining goes on from where it was. -/
theorem macFrom_append (y : Block) (bs cs : List Block) :
    macFrom E y (bs ++ cs) = macFrom E (macFrom E y bs) cs := List.foldl_append

end HpmSdk.Sdp.Ccm

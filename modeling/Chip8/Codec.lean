/-!
# Fixed-width byte codecs

A `Codec α w` is a **bijection** between the values of `α` and the byte strings of length `w`. Both
directions are total and each is the inverse of the other, so a format put together from codecs has
exactly one written form per value, and every byte string of the right length is the form of one.

* `Codec.byte` and `Codec.bytes` write bytes as they are.
* `Codec.bigEndian w` writes a word of `8 * w` bits, most significant byte first.
* `Codec.littleEndian w` writes the same bytes in the opposite order.
* `Codec.both` puts two fields side by side, `Codec.replicate` writes a vector entry by entry, and
  `Codec.via` changes the type along an invertible map.

The inverse laws are fields of the structure, so nothing has to be proved again for a composite.
-/

namespace Chip8

/-- A bijection between `α` and the byte strings of length `w`. -/
structure Codec (α : Type) (w : Nat) where
  /-- The written form of a value. -/
  encode : α → Vector UInt8 w
  /-- The value that a byte string is the written form of. -/
  decode : Vector UInt8 w → α
  decode_encode : ∀ a, decode (encode a) = a
  encode_decode : ∀ b, encode (decode b) = b

namespace Codec

variable {α β : Type} {m n w : Nat}

/-! ### Cutting a vector in two -/

/-- The first `m` and the last `n` entries of a vector. -/
def cut (v : Vector α (m + n)) : Vector α m × Vector α n :=
  ((v.take m).cast (by omega), (v.drop m).cast (by omega))

@[simp] theorem cut_append (a : Vector α m) (b : Vector α n) : cut (a ++ b) = (a, b) := by
  ext i hi
  · simp [cut, -Vector.take_eq_extract, hi]
  · simp [cut]

@[simp] theorem append_cut (v : Vector α (m + n)) : (cut v).1 ++ (cut v).2 = v := by
  ext i hi
  rw [Vector.getElem_append]
  split
  · simp [cut, -Vector.take_eq_extract]
  · have : m + (i - m) = i := by omega
    simp [cut, this]

/-! ### Bytes and words -/

/-- A byte string is its own written form. -/
def bytes (w : Nat) : Codec (Vector UInt8 w) w where
  encode b := b
  decode b := b
  decode_encode _ := rfl
  encode_decode _ := rfl

/-- One byte. -/
def byte : Codec UInt8 1 where
  encode b := #v[b]
  decode v := v[0]
  decode_encode _ := rfl
  encode_decode v := by ext i hi; simp [Nat.lt_one_iff.1 hi]

/-- The `w` low bytes of a number, most significant first. -/
def digits : (w : Nat) → Nat → Vector UInt8 w
  | 0, _ => #v[]
  | w + 1, n => (digits w (n / 256)).push (UInt8.ofNat n)

/-- The number that a byte string writes in base 256, most significant byte first. -/
def number (v : Vector UInt8 w) : Nat :=
  v.foldl (fun n b ↦ 256 * n + b.toNat) 0

theorem number_push (v : Vector UInt8 w) (b : UInt8) :
    number (v.push b) = 256 * number v + b.toNat := by
  simp [number]

/-- Digits lose nothing that fits into a word of as many bytes. -/
theorem number_digits (w n : Nat) : number (digits w n) = (BitVec.ofNat (8 * w) n).toNat := by
  rw [BitVec.toNat_ofNat]
  induction w generalizing n with
  | zero => simp [number, digits, Nat.mod_one]
  | succ w ih =>
    have h : (2 : Nat) ^ (8 * (w + 1)) = 256 * 2 ^ (8 * w) := by
      rw [Nat.mul_succ, Nat.pow_add, Nat.mul_comm]
    rw [digits, number_push, ih, h, Nat.mod_mul, UInt8.toNat_ofNat']
    omega

theorem digits_number (v : Vector UInt8 w) : digits w (number v) = v := by
  induction w with
  | zero => ext i hi; omega
  | succ w ih =>
    obtain ⟨u, b, rfl⟩ : ∃ u b, v = Vector.push u b := ⟨v.pop, v.back, by simp⟩
    have hb := b.toNat_lt
    have hdiv : (256 * number u + b.toNat) / 256 = number u := by omega
    have hmod : UInt8.ofNat (256 * number u + b.toNat) = b := by
      apply UInt8.toNat_inj.1
      rw [UInt8.toNat_ofNat']
      omega
    rw [digits, number_push, hdiv, ih, hmod]

/-- A word of `8 * w` bits, most significant byte first. -/
def bigEndian (w : Nat) : Codec (BitVec (8 * w)) w where
  encode b := digits w b.toNat
  decode v := BitVec.ofNat (8 * w) (number v)
  decode_encode b := by
    rw [number_digits, BitVec.ofNat_toNat, BitVec.ofNat_toNat, BitVec.setWidth_eq,
      BitVec.setWidth_eq]
  encode_decode v := by rw [← number_digits, digits_number, digits_number]

/-! ### Composition -/

/-- Write `β` in the form of `α`, along a map with an inverse. -/
def via (c : Codec α w) (f : β → α) (g : α → β) (hgf : ∀ b, g (f b) = b) (hfg : ∀ a, f (g a) = a) :
    Codec β w where
  encode b := c.encode (f b)
  decode v := g (c.decode v)
  decode_encode b := by rw [c.decode_encode, hgf]
  encode_decode v := by rw [hfg, c.encode_decode]

/-- Read and write the bytes of a form back to front. -/
def backward (c : Codec α w) : Codec α w where
  encode a := (c.encode a).reverse
  decode v := c.decode v.reverse
  decode_encode a := by rw [Vector.reverse_reverse, c.decode_encode]
  encode_decode v := by rw [c.encode_decode, Vector.reverse_reverse]

/-- A word of `8 * w` bits, least significant byte first. -/
def littleEndian (w : Nat) : Codec (BitVec (8 * w)) w :=
  (bigEndian w).backward

/-- Two fields, one after the other. -/
def both (c : Codec α m) (d : Codec β n) : Codec (α × β) (m + n) where
  encode p := c.encode p.1 ++ d.encode p.2
  decode v := (c.decode (cut v).1, d.decode (cut v).2)
  decode_encode p := by rw [cut_append, c.decode_encode, d.decode_encode]
  encode_decode v := by rw [c.encode_decode, d.encode_decode, append_cut]

/-- Entry `i` of the blocks of length `w` that a byte string consists of. -/
def block (v : Vector UInt8 (n * w)) (i : Fin n) : Vector UInt8 w :=
  Vector.ofFn fun j : Fin w ↦
    have : i.val * w + j.val < n * w :=
      calc i.val * w + j.val < i.val * w + w := by omega
        _ = (i.val + 1) * w := by rw [Nat.succ_mul]
        _ ≤ n * w := Nat.mul_le_mul_right w i.isLt
    v[i.val * w + j.val]

/-- The entries of a vector, one after the other. -/
def replicate (c : Codec α w) (n : Nat) : Codec (Vector α n) (n * w) where
  encode a := (a.map c.encode).flatten
  decode v := Vector.ofFn fun i ↦ c.decode (block v i)
  decode_encode a := by
    ext i hi
    rw [Vector.getElem_ofFn]
    refine Eq.trans (congrArg c.decode ?_) (c.decode_encode _)
    ext j hj
    have hw : 0 < w := by omega
    have hdiv : (i * w + j) / w = i := by
      rw [Nat.mul_comm, Nat.mul_add_div hw, Nat.div_eq_of_lt hj, Nat.add_zero]
    simp [block, Vector.getElem_flatten, hdiv, Nat.mod_eq_of_lt hj]
  encode_decode v := by
    ext i hi
    have hdm : i / w * w + i % w = i := by rw [Nat.mul_comm]; exact Nat.div_add_mod i w
    simp [Vector.getElem_flatten, c.encode_decode, block, hdm]

/-! ### Instances used by formats -/

/-- A 16-bit word, high byte first. -/
def word : Codec UInt16 2 :=
  (bigEndian 2).via UInt16.toBitVec UInt16.ofBitVec (fun _ ↦ rfl) fun _ ↦ rfl

end Codec

end Chip8

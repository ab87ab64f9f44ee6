import Mathlib.Data.List.Nodup
import Mathlib.Data.List.ProdSigma
import Mathlib.Data.Nat.Bitwise
import Chip8.Proofs.Sprites

/-!
# Loops that check every access

The instructions that work on several bytes or pixels are functions on whole blocks, masks and
words. Here they are written as **loops over single entries**, each with a check: an entry has to
exist (`Checked.put?`), a number has to fit into its type (`Checked.below?`), and a bit can be moved
by less than the width of its word (`shiftDown?`, `shiftUp?`). A check that fails gives `none`.

None of them ever fails, and each loop computes what the function on the whole computes:
`writeBlock_loop` and `setFrom_loop` for blocks of memory, `Sprite.draw?_eq` for the pixels of a
sprite, and `gather?_eq` for words that are put together bit by bit. What a loop has done after `k`
rounds is an explicit value (`foldlM_range_eq_some`). Drawing is different, as its rounds do not
follow the pixels of the screen: there it is the places that are inverted that matter, and that they
are all different (`Sprite.nodup_marks`).
-/

namespace Chip8

/-! ### Checks -/

namespace Checked

variable {α β : Type} {n : Nat}

/-- Replace an entry of an array, if the array has it. -/
def put? (v : Vector α n) (k : Nat) (a : α) : Option (Vector α n) :=
  if h : k < n then some (v.set k a) else none

theorem put?_of_lt {v : Vector α n} {k : Nat} {a : α} (h : k < n) :
    put? v k a = some (v.set k a) :=
  dif_pos h

/-- A number that has to be less than a bound. -/
def below? (bound k : Nat) : Option Nat :=
  if k < bound then some k else none

theorem below?_of_lt {bound k : Nat} (h : k < bound) : below? bound k = some k :=
  if_pos h

/-- Move the bits of a byte down, by less than its width. -/
def shiftDown? (b : UInt8) (k : Nat) : Option UInt8 :=
  if k < 8 then some (b >>> UInt8.ofNat k) else none

/-- Move a single bit up in a word, by less than its width. -/
def shiftUp? (width : Nat) (bit : Bool) (k : Nat) : Option (BitVec width) :=
  if k < width then some ((BitVec.ofBool bit).setWidth width <<< k) else none

/-! ### Loops -/

/-- A loop whose rounds are known is known by its state after `k` rounds. -/
theorem foldlM_range_eq_some {f : β → Nat → Option β} (after : Nat → β)
    (h : ∀ k < n, f (after k) k = some (after (k + 1))) :
    (List.range n).foldlM f (after 0) = some (after n) := by
  induction n with
  | zero => rfl
  | succ n ih =>
    rw [List.range_succ, List.foldlM_append, ih fun k hk ↦ h k (Nat.lt_succ_of_lt hk)]
    simp [h n (Nat.lt_succ_self n)]

/-- A loop whose rounds all pass their checks is the loop without them. -/
theorem foldlM_eq_some_foldl {f : β → α → Option β} {g : β → α → β} {l : List α}
    (h : ∀ b, ∀ a ∈ l, f b a = some (g b a)) (b : β) : l.foldlM f b = some (l.foldl g b) := by
  induction l generalizing b with
  | nil => rfl
  | cons a l ih =>
    rw [List.foldlM_cons, h b a List.mem_cons_self]
    exact ih (fun b c hc ↦ h b c (List.mem_cons_of_mem a hc)) (g b a)

theorem mapM_eq_some_map {f : α → Option β} {g : α → β} {l : List α}
    (h : ∀ a ∈ l, f a = some (g a)) : l.mapM f = some (l.map g) := by
  induction l with
  | nil => rfl
  | cons a l ih =>
    rw [List.mapM_cons, h a List.mem_cons_self, ih fun b hb ↦ h b (List.mem_cons_of_mem a hb)]
    rfl

/-! ### Words from bits -/

/-- The word with the bits that are read, the first of them lowest. -/
def gather? (width : Nat) (bit? : Nat → Option Bool) : Option (BitVec width) :=
  (List.range width).foldlM (fun word k ↦ do
    let bit ← bit? k
    let moved ← shiftUp? width bit k
    return word ||| moved) 0

/-- One more bit of a word. -/
theorem setWidth_succ_eq_or {width k : Nat} (word : BitVec width) (hk : k < width) :
    (word.setWidth (k + 1)).setWidth width =
      (word.setWidth k).setWidth width |||
        (BitVec.ofBool (word.getLsbD k)).setWidth width <<< k := by
  ext i hi
  simp only [← BitVec.getLsbD_eq_getElem, BitVec.getLsbD_or, BitVec.getLsbD_shiftLeft,
    BitVec.getLsbD_setWidth, BitVec.getLsbD_ofBool]
  rcases Nat.lt_trichotomy i k with h | rfl | h
  · simp [h, hi, Nat.lt_succ_of_lt h]
  · simp [hi, Nat.zero_lt_of_lt hi]
  · have hsub : i - k ≠ 0 := by omega
    simp [hi, hsub, Nat.not_lt_of_lt h, Nat.not_lt.2 (show k + 1 ≤ i from h)]

/-- **Bits that are those of a word make up the word.** -/
theorem gather?_eq {width : Nat} {word : BitVec width} {bit? : Nat → Option Bool}
    (h : ∀ k < width, bit? k = some (word.getLsbD k)) : gather? width bit? = some word := by
  -- after `k` rounds the lowest `k` bits are in place
  have hloop := foldlM_range_eq_some (n := width)
    (f := fun w k ↦ do
      let bit ← bit? k
      let moved ← shiftUp? width bit k
      return w ||| moved)
    (fun k ↦ (word.setWidth k).setWidth width) fun k hk ↦ by
      simp only [h k hk, shiftUp?, if_pos hk, setWidth_succ_eq_or word hk]
      rfl
  rw [BitVec.setWidth_eq, BitVec.setWidth_eq] at hloop
  rw [gather?, ← hloop]
  congr 1
  ext i hi
  simp

end Checked

/-! ### Blocks of memory -/

namespace Memory

variable {m : Memory} {a : UInt16}

/-- The byte at an address, whose low twelve bits have to number a cell. -/
def read? (m : Memory) (a : UInt16) : Option UInt8 :=
  m.cells[(a &&& 0x0FFF).toNat]?

/-- Put a byte at an address, whose low twelve bits have to number a cell. -/
def write? (m : Memory) (a : UInt16) (b : UInt8) : Option Memory := do
  let cells ← Checked.put? m.cells (a &&& 0x0FFF).toNat b
  return ⟨cells⟩

/-- The low twelve bits of an address number a cell. -/
theorem toNat_and_mask (a : UInt16) : (a &&& 0x0FFF).toNat = (cell a).val := by
  rw [UInt16.toNat_and]
  exact Nat.and_two_pow_sub_one_eq_mod a.toNat 12

@[simp] theorem read?_eq (m : Memory) (a : UInt16) : m.read? a = some (m.read a) := by
  rw [read?, toNat_and_mask, Vector.getElem?_eq_getElem (cell a).isLt]
  rfl

@[simp] theorem write?_eq (m : Memory) (a : UInt16) (b : UInt8) :
    m.write? a b = some (m.write a b) := by
  have hput := Checked.put?_of_lt (v := m.cells) (a := b) (cell a).isLt
  simp only [write?, toNat_and_mask, hput]
  rfl

theorem writeBlock_append (m : Memory) (a : UInt16) (bs cs : List UInt8) :
    m.writeBlock a (bs ++ cs) = (m.writeBlock a bs).writeBlock (a + UInt16.ofNat bs.length) cs := by
  induction bs generalizing m a with
  | nil => simp
  | cons b bs ih =>
    have hnext : a + 1 + UInt16.ofNat bs.length = a + UInt16.ofNat (b :: bs).length := by
      rw [List.length_cons, UInt16.ofNat_add, UInt16.add_assoc, UInt16.add_comm 1]
      rfl
    rw [List.cons_append, writeBlock_cons, writeBlock_cons, ih, hnext]

/-- **Writing bytes one after the other is writing the block of them.** -/
theorem writeBlock_loop {byte? : Nat → Option UInt8} {bs : List UInt8}
    (h : ∀ k < bs.length, byte? k = bs[k]?) :
    (List.range bs.length).foldlM (fun (m : Memory) k ↦ do
      let b ← byte? k
      m.write? (a + UInt16.ofNat k) b) m = some (m.writeBlock a bs) := by
  -- after `k` rounds the first `k` bytes are written
  have hloop := Checked.foldlM_range_eq_some (n := bs.length)
    (f := fun (m : Memory) k ↦ do
      let b ← byte? k
      m.write? (a + UInt16.ofNat k) b)
    (fun k ↦ m.writeBlock a (bs.take k)) fun k hk ↦ by
      rw [h k hk, List.getElem?_eq_getElem hk, List.take_succ_eq_append_getElem hk,
        writeBlock_append, List.length_take_of_le (Nat.le_of_lt hk)]
      exact write?_eq _ _ _
  rwa [List.take_length] at hloop

/-- Reading bytes one after the other is reading the block of them. -/
theorem readBlock_loop (m : Memory) (a : UInt16) (n : Nat) :
    ((List.range n).mapM fun k ↦ m.read? (a + UInt16.ofNat k)) = some (m.readBlock a n) :=
  Checked.mapM_eq_some_map fun _ _ ↦ read?_eq _ _

end Memory

namespace Registers

/-- Give the register with a number a value. -/
def set? (r : Registers) (k : Nat) (b : UInt8) : Option Registers := do
  let values ← Checked.put? r.values k b
  return ⟨values⟩

@[simp] theorem set?_val (r : Registers) (x : Register) (b : UInt8) :
    r.set? x.val b = some (r.set x b) := by
  simp only [set?, Checked.put?_of_lt x.isLt]
  rfl

@[simp] theorem setFrom_nil (r : Registers) : r.setFrom [] = r := by
  ext x
  simp

/-- **Setting registers one after the other is setting the block of them.** -/
theorem setFrom_loop (r : Registers) {byte? : Nat → Option UInt8} {bs : List UInt8}
    (hlen : bs.length ≤ 16) (h : ∀ k < bs.length, byte? k = bs[k]?) :
    (List.range bs.length).foldlM (fun (r : Registers) k ↦ do
      let b ← byte? k
      r.set? k b) r = some (r.setFrom bs) := by
  have hloop := Checked.foldlM_range_eq_some (n := bs.length)
    (f := fun (r : Registers) k ↦ do
      let b ← byte? k
      r.set? k b)
    (fun k ↦ r.setFrom (bs.take k)) fun k hk ↦ by
      have hstep : (r.setFrom (bs.take k)).set ⟨k, by omega⟩ bs[k] =
          r.setFrom (bs.take (k + 1)) := by
        ext x
        rw [get_set, get_setFrom, get_setFrom, List.getD_eq_getElem?_getD,
          List.getD_eq_getElem?_getD, List.getElem?_take, List.getElem?_take]
        rcases Nat.lt_trichotomy x.val k with hx | hx | hx
        · simp [Fin.ext_iff, hx, Nat.lt_succ_of_lt hx, Nat.ne_of_gt hx]
        · simp [Fin.ext_iff, hx, List.getElem?_eq_getElem hk]
        · simp [Fin.ext_iff, Nat.not_lt_of_lt hx, Nat.ne_of_lt hx,
            Nat.not_lt.2 (show k + 1 ≤ x.val from hx)]
      rw [h k hk, List.getElem?_eq_getElem hk, ← hstep]
      exact set?_val _ ⟨k, by omega⟩ _
  rwa [List.take_length, List.take_zero, setFrom_nil] at hloop

end Registers

/-! ### Pixels -/

namespace Screen

/-- The screen on which a single pixel is lit. -/
def point (p : Fin 64) (q : Fin 32) : Screen where
  rows := Vector.ofFn fun r ↦ if r = q then BitVec.twoPow 64 p else 0

theorem lit_point (p x : Fin 64) (q y : Fin 32) :
    (point p q).lit x y = decide ((p, q) = (x, y)) := by
  simp only [lit, point, Fin.getElem_fin, Vector.getElem_ofFn, Prod.mk.injEq, Bool.decide_and]
  by_cases hy : y = q
  · simp [hy, BitVec.getLsbD_twoPow, Fin.ext_iff, -BitVec.getLsbD_eq_getElem]
  · simp [hy, Ne.symm hy]

/-- Invert a single pixel. -/
def invert (s : Screen) (place : Fin 64 × Fin 32) : Screen :=
  s.flip (point place.1 place.2)

theorem lit_invert (s : Screen) (place : Fin 64 × Fin 32) (x : Fin 64) (y : Fin 32) :
    (s.invert place).lit x y = (s.lit x y ^^ decide (place = (x, y))) := by
  rw [invert, lit_flip, lit_point]

/-- The pixel with a number, counted row by row, if there is one. -/
def pixel? (s : Screen) (k : Nat) : Option Bool := do
  let row ← s.rows[k / 64]?
  return row.getLsbD (k % 64)

/-- Invert the pixel with a number, if there is one, and tell whether it was lit. -/
def invert? (s : Screen) (k : Nat) : Option (Screen × Bool) := do
  let lit ← s.pixel? k
  let row ← s.rows[k / 64]?
  let rows ← Checked.put? s.rows (k / 64) (row ^^^ BitVec.twoPow 64 (k % 64))
  return (⟨rows⟩, lit)

theorem pixel?_eq (s : Screen) (p : Fin 64) (q : Fin 32) :
    s.pixel? (q.val * 64 + p.val) = some (s.lit p q) := by
  have hq : (q.val * 64 + p.val) / 64 = q.val := by omega
  have hp : (q.val * 64 + p.val) % 64 = p.val := by omega
  simp only [pixel?, hq, hp, Vector.getElem?_eq_getElem q.isLt]
  rfl

theorem invert?_eq (s : Screen) (p : Fin 64) (q : Fin 32) :
    s.invert? (q.val * 64 + p.val) = some (s.invert (p, q), s.lit p q) := by
  have hq : (q.val * 64 + p.val) / 64 = q.val := by omega
  have hp : (q.val * 64 + p.val) % 64 = p.val := by omega
  have hrows : s.rows.set q.val (s.rows[q.val] ^^^ BitVec.twoPow 64 p.val) =
      (s.invert (p, q)).rows := by
    refine Vector.ext fun r hr ↦ ?_
    rw [Vector.getElem_set]
    by_cases hrq : q.val = r
    · simp [invert, flip, point, Fin.ext_iff, hrq]
    · simp [invert, flip, point, Fin.ext_iff, hrq, Ne.symm hrq]
  simp only [invert?, pixel?_eq, hq, hp, Vector.getElem?_eq_getElem q.isLt,
    Checked.put?_of_lt q.isLt, Option.bind_eq_bind, Option.bind_some, hrows]
  rfl

/-- Invert a pixel of a drawing, and remember whether it or one before it was lit. -/
def touch (drawn : Screen × Bool) (place : Fin 64 × Fin 32) : Screen × Bool :=
  (drawn.1.invert place, drawn.2 || drawn.1.lit place.1 place.2)

variable {places : List (Fin 64 × Fin 32)}

/-- A pixel that is not touched stays as it is. -/
theorem lit_foldl_touch_of_notMem {x : Fin 64} {y : Fin 32} (h : (x, y) ∉ places)
    (drawn : Screen × Bool) : (places.foldl touch drawn).1.lit x y = drawn.1.lit x y := by
  induction places generalizing drawn with
  | nil => rfl
  | cons place places ih =>
    obtain ⟨hplace, hrest⟩ := List.ne_and_not_mem_of_not_mem_cons h
    rw [List.foldl_cons, ih hrest, touch, lit_invert, decide_eq_false hplace.symm, Bool.xor_false]

/-- **Different places are inverted once each.** -/
theorem lit_foldl_touch_of_mem {x : Fin 64} {y : Fin 32} (hnodup : places.Nodup)
    (h : (x, y) ∈ places) (drawn : Screen × Bool) :
    (places.foldl touch drawn).1.lit x y = !drawn.1.lit x y := by
  induction places generalizing drawn with
  | nil => exact absurd h List.not_mem_nil
  | cons place places ih =>
    obtain ⟨hnew, hrest⟩ := List.nodup_cons.1 hnodup
    rw [List.foldl_cons]
    rcases List.mem_cons.1 h with rfl | hmem
    · rw [lit_foldl_touch_of_notMem hnew, touch, lit_invert, decide_eq_true rfl, Bool.xor_true]
    · have hne : place ≠ (x, y) := fun heq ↦ hnew (heq ▸ hmem)
      rw [ih hrest hmem, touch, lit_invert, decide_eq_false hne, Bool.xor_false]

/-- Before it is inverted, a pixel is as it was at the start. -/
theorem snd_foldl_touch (h : places.Nodup) (drawn : Screen × Bool) :
    (places.foldl touch drawn).2 =
      (drawn.2 || places.any fun place ↦ drawn.1.lit place.1 place.2) := by
  induction places generalizing drawn with
  | nil => simp
  | cons place places ih =>
    obtain ⟨hnew, hrest⟩ := List.nodup_cons.1 h
    -- the first place is none of the others, so inverting it changes nothing there
    have hsame : (places.any fun other ↦ (drawn.1.invert place).lit other.1 other.2) =
        places.any fun other ↦ drawn.1.lit other.1 other.2 := by
      rw [Bool.eq_iff_iff, List.any_eq_true, List.any_eq_true]
      refine exists_congr fun other ↦ and_congr_right fun hother ↦ ?_
      have hne : place ≠ other := fun heq ↦ hnew (heq ▸ hother)
      rw [lit_invert, decide_eq_false hne, Bool.xor_false]
    rw [List.foldl_cons, ih hrest, touch, hsame, List.any_cons, Bool.or_assoc]

end Screen

/-! ### Sprites -/

namespace Sprite

variable {sprite : Sprite}

/-- Whether bit `c` of row `r` is a one, counted from the left. -/
def ink (sprite : Sprite) (r c : Nat) : Bool :=
  match sprite.bytes[r]? with
  | some b => b.toNat.testBit (7 - c)
  | none => false

/-- The rows and columns of a sprite, row by row. -/
def grid (sprite : Sprite) : List (Nat × Nat) :=
  List.range sprite.bytes.length ×ˢ List.range 8

theorem mem_grid {r c : Nat} : (r, c) ∈ sprite.grid ↔ r < sprite.bytes.length ∧ c < 8 := by
  simp [grid]

/-- The places that a sprite inverts, in the order in which it is drawn. -/
def marks (sprite : Sprite) : List (Fin 64 × Fin 32) :=
  (sprite.grid.filter fun g ↦ sprite.ink g.1 g.2).map fun g ↦ sprite.cell g.1 g.2

/-- **A sprite inverts no place twice.** -/
theorem nodup_marks (h : sprite.bytes.length ≤ 32) : sprite.marks.Nodup := by
  refine List.Nodup.map_on ?_ ((List.nodup_range.product List.nodup_range).filter _)
  rintro ⟨r, c⟩ hg ⟨r', c'⟩ hg' hcell
  obtain ⟨hr, hc⟩ := mem_grid.1 (List.mem_filter.1 hg).1
  obtain ⟨hr', hc'⟩ := mem_grid.1 (List.mem_filter.1 hg').1
  obtain ⟨rfl, rfl⟩ :=
    cell_inj (Nat.lt_of_lt_of_le hr h) (Nat.lt_of_lt_of_le hr' h) (by omega) (by omega) hcell
  rfl

/-- The places that are inverted are those that the sprite covers. -/
theorem mem_marks_iff {p : Fin 64} {q : Fin 32} : (p, q) ∈ sprite.marks ↔ sprite.Covers p q := by
  simp only [marks, List.mem_map, List.mem_filter, Prod.exists, mem_grid]
  constructor
  · rintro ⟨r, c, ⟨⟨hr, hc⟩, hink⟩, hcell⟩
    rw [ink, List.getElem?_eq_getElem hr] at hink
    exact ⟨r, _, List.getElem?_eq_getElem hr, c, hc, hink, hcell⟩
  · rintro ⟨r, b, hb, c, hc, hbit, hcell⟩
    refine ⟨r, c, ⟨⟨(List.getElem?_eq_some_iff.1 hb).1, hc⟩, ?_⟩, hcell⟩
    rw [ink, hb]
    exact hbit

/-- Draw one bit of a sprite: a one inverts the pixel where it comes to lie. -/
def plot? (sprite : Sprite) (drawn : Screen × Bool) (g : Nat × Nat) : Option (Screen × Bool) := do
  let b ← sprite.bytes[g.1]?
  let row ← Checked.below? UInt16.size (sprite.row.toNat + g.1)
  let column ← Checked.below? UInt16.size (sprite.column.toNat + g.2)
  let bit ← Checked.shiftDown? 0x80 g.2
  if b &&& bit = 0 then return drawn
  let place ← Checked.below? UInt16.size (row % 32 * 64 + column % 64)
  let (screen, lit) ← drawn.1.invert? place
  return (screen, drawn.2 || lit)

/-- Draw a sprite bit by bit, and tell whether a pixel that was lit is dark now. -/
def draw? (sprite : Sprite) (s : Screen) : Option (Screen × Bool) :=
  sprite.grid.foldlM sprite.plot? (s, false)

/-- A single bit of a byte, picked out by a mask that was moved to it. -/
theorem and_shiftDown_eq_zero_iff {b : UInt8} {c : Nat} (hc : c < 8) :
    b &&& 0x80 >>> UInt8.ofNat c = 0 ↔ b.toNat.testBit (7 - c) = false := by
  have hshift : ((0x80 : UInt8) >>> UInt8.ofNat c).toNat = 2 ^ (7 - c) := by
    have hall : ∀ c < 8, ((0x80 : UInt8) >>> UInt8.ofNat c).toNat = 2 ^ (7 - c) := by decide
    exact hall c hc
  rw [← UInt8.toNat_inj, UInt8.toNat_and, hshift, Nat.and_two_pow]
  cases b.toNat.testBit (7 - c) <;> simp

/-- **A bit of a sprite passes all checks.** -/
theorem plot?_eq (h : sprite.bytes.length ≤ 32) (drawn : Screen × Bool) {g : Nat × Nat}
    (hg : g ∈ sprite.grid) :
    sprite.plot? drawn g =
      some (if sprite.ink g.1 g.2 then Screen.touch drawn (sprite.cell g.1 g.2) else drawn) := by
  obtain ⟨r, c⟩ := g
  obtain ⟨hr, hc⟩ := mem_grid.1 hg
  have hrow : sprite.row.toNat + r < 65536 := by
    have := sprite.row.toNat_lt
    omega
  have hcolumn : sprite.column.toNat + c < 65536 := by
    have := sprite.column.toNat_lt
    omega
  have hplace : (sprite.row.toNat + r) % 32 * 64 + (sprite.column.toNat + c) % 64 < 65536 := by
    omega
  have hbyte := List.getElem?_eq_getElem hr
  have hinvert : drawn.1.invert?
      ((sprite.row.toNat + r) % 32 * 64 + (sprite.column.toNat + c) % 64) = _ :=
    Screen.invert?_eq drawn.1 (Fin.ofNat 64 (sprite.column.toNat + c))
      (Fin.ofNat 32 (sprite.row.toNat + r))
  simp only [plot?, hbyte, Checked.below?_of_lt hrow, Checked.below?_of_lt hcolumn,
    Checked.below?_of_lt hplace, Checked.shiftDown?, if_pos hc, ink, hinvert,
    and_shiftDown_eq_zero_iff hc, Option.bind_eq_bind, Option.bind_some]
  cases sprite.bytes[r].toNat.testBit (7 - c) <;> rfl

/-- **Drawing bit by bit never fails, and flips the screen with the mask of the sprite.** -/
theorem draw?_eq (h : sprite.bytes.length ≤ 32) (s : Screen) :
    sprite.draw? s = some (s.flip sprite.mask, s.overlaps sprite.mask) := by
  have hloop : sprite.draw? s = some (sprite.marks.foldl Screen.touch (s, false)) := by
    rw [draw?, Checked.foldlM_eq_some_foldl fun drawn g hg ↦ plot?_eq h drawn hg, marks,
      List.foldl_map, List.foldl_filter]
  rw [hloop, Option.some_inj]
  refine Prod.ext ?_ ?_
  · ext x y
    rw [Screen.lit_flip]
    by_cases hxy : sprite.Covers x y
    · rw [Screen.lit_foldl_touch_of_mem (nodup_marks h) (mem_marks_iff.2 hxy),
        (lit_mask_iff h x y).2 hxy, Bool.xor_true]
    · rw [Screen.lit_foldl_touch_of_notMem (mt mem_marks_iff.1 hxy),
        Bool.eq_false_iff.2 (mt (lit_mask_iff h x y).1 hxy), Bool.xor_false]
  · rw [Screen.snd_foldl_touch (nodup_marks h), Bool.false_or, Bool.eq_iff_iff, List.any_eq_true,
      Screen.overlaps_iff, Prod.exists]
    refine exists_congr fun x ↦ exists_congr fun y ↦ ?_
    rw [mem_marks_iff, lit_mask_iff h, and_comm]

end Sprite

/-! ### Written forms -/

namespace Codec

/-- Digits in base 256 are quotients by its powers. -/
theorem getElem_digits (w n : Nat) {i : Nat} (hi : i < w) :
    (digits w n)[i] = UInt8.ofNat (n / 256 ^ (w - 1 - i)) := by
  induction w generalizing n with
  | zero => omega
  | succ w ih =>
    simp only [digits, Vector.getElem_push]
    split
    next h =>
      have hpow : w + 1 - 1 - i = w - 1 - i + 1 := by omega
      rw [ih (n / 256) h, hpow, Nat.div_div_eq_div_mul, Nat.pow_succ']
    next h =>
      have hpow : w + 1 - 1 - i = 0 := by omega
      rw [hpow, Nat.pow_zero, Nat.div_one]

/-- A word whose lowest byte comes first has its bits in order. -/
theorem getLsbD_littleEndian (w : Nat) (word : BitVec (8 * w)) {i k : Nat} (hi : i < w)
    (hk : k < 8) :
    (((littleEndian w).encode word)[i]).toBitVec.getLsbD k = word.getLsbD (8 * i + k) := by
  have hbyte : ((littleEndian w).encode word)[i] = UInt8.ofNat (word.toNat / 2 ^ (8 * i)) := by
    have hplace : w - 1 - (w - 1 - i) = i := by omega
    show (digits w word.toNat).reverse[i] = _
    rw [Vector.getElem_reverse, getElem_digits w _ (by omega), hplace, Nat.pow_mul]
  rw [hbyte, UInt8.toBitVec_ofNat', BitVec.getLsbD_ofNat, Nat.testBit_div_two_pow]
  simp [hk, BitVec.testBit_toNat, Nat.add_comm]

end Codec

/-- **The written form of the screen has eight pixels to a byte**, the leftmost in its lowest
bit. -/
theorem Screen.getLsbD_encode (s : Screen) {j k : Nat} (hj : j < 256) (hk : k < 8) :
    (Screen.codec.encode s)[j].toBitVec.getLsbD k = s.rows[j / 8].getLsbD (8 * (j % 8) + k) := by
  have hblock : (Screen.codec.encode s)[j] =
      ((Codec.littleEndian 8).encode s.rows[j / 8])[j % 8] := by
    show ((s.rows.map (Codec.littleEndian 8).encode).flatten : Vector UInt8 (32 * 8))[j] = _
    rw [Vector.getElem_flatten, Vector.getElem_map]
  rw [hblock, Codec.getLsbD_littleEndian 8 _ (Nat.mod_lt _ (by decide)) hk]

/-- Eight pixels to a byte, the leftmost in its lowest bit. -/
def Screen.packed? (s : Screen) : Option (List UInt8) :=
  (List.range 256).mapM fun j ↦ do
    let word ← Checked.gather? 8 fun k ↦ s.pixel? (j * 8 + k)
    return UInt8.ofBitVec word

/-- **Packing the pixels one by one gives the written form of the screen.** -/
theorem Screen.packed?_eq (s : Screen) : s.packed? = some (Screen.codec.encode s).toList := by
  have hbyte (j : Nat) (hj : j < 256) :
      (Checked.gather? 8 fun k ↦ s.pixel? (j * 8 + k)) =
        some (Screen.codec.encode s)[j].toBitVec := by
    refine Checked.gather?_eq fun k hk ↦ ?_
    have hrow : (j * 8 + k) / 64 = j / 8 := by omega
    have hcolumn : (j * 8 + k) % 64 = 8 * (j % 8) + k := by omega
    rw [getLsbD_encode s hj hk, pixel?, hrow, hcolumn,
      Vector.getElem?_eq_getElem (show j / 8 < 32 by omega)]
    rfl
  have hbytes : ∀ j ∈ List.range 256, (do
      let word ← Checked.gather? 8 fun k ↦ s.pixel? (j * 8 + k)
      return UInt8.ofBitVec word) = some ((Screen.codec.encode s).toList.getD j 0) := by
    intro j hj
    have hj : j < 256 := List.mem_range.1 hj
    rw [hbyte j hj]
    simp [List.getD_eq_getElem?_getD, hj]
  rw [packed?, Checked.mapM_eq_some_map hbytes, Option.some_inj]
  refine List.ext_getElem (by simp) fun j hj hj' ↦ ?_
  rw [Vector.length_toList] at hj'
  simp [List.getD_eq_getElem?_getD, hj']

/-- The states of the keys, packed into a word. -/
def Keypad.packed? (k : Keypad) : Option (BitVec 16) :=
  Checked.gather? 16 fun key ↦ k.toList[key]?

theorem Keypad.packed?_eq (k : Keypad) : k.packed? = some k.held :=
  Checked.gather?_eq fun key hkey ↦ by simp [toList, hkey]

end Chip8

import Chip8.Proofs.Opcodes

/-!
# Drawing sprites

A `Sprite` is what a draw depends on besides the screen: a place and the bytes of the rows.
`Sprite.Covers` says which pixels it consists of, in terms of the bits of these bytes and with the
wrapping around both edges. A sprite is not larger than the screen, so **no pixel is met twice**
(`cell_inj`), and inverting them one after the other is the same as inverting all at once: the
pixels are those of a mask (`lit_mask_iff`), and a draw flips the screen with it.

The flag tells whether one of these pixels was lit, and nothing but the screen, the flag and the
program counter changes. As flipping is exclusive or, a second draw of the same sprite undoes the
first one (`flip_flip`), and the order of two draws does not matter to the screen
(`flip_right_comm`).
-/

namespace Chip8

/-! ### Pixels of a sprite -/

/-- Rows of eight pixels in a place. -/
structure Sprite where
  column : UInt8
  row : UInt8
  /-- One byte for a row, the leftmost pixel highest. -/
  bytes : List UInt8
  deriving DecidableEq, Repr

namespace Sprite

variable {sprite : Sprite} {r r' c c' : Nat} {p : Fin 64} {q : Fin 32}

/-- The column and the row on the screen where bit `c` of byte `r` comes to lie. -/
def cell (sprite : Sprite) (r c : Nat) : Fin 64 × Fin 32 :=
  (Fin.ofNat 64 (sprite.column.toNat + c), Fin.ofNat 32 (sprite.row.toNat + r))

theorem cell_eq_iff :
    sprite.cell r c = (p, q) ↔
      (sprite.column.toNat + c) % 64 = p.val ∧ (sprite.row.toNat + r) % 32 = q.val := by
  rw [cell, Prod.mk.injEq, Fin.ext_iff, Fin.ext_iff]
  rfl

/-- **No pixel is met twice**, also where a sprite wraps around. -/
theorem cell_inj (hr : r < 32) (hr' : r' < 32) (hc : c < 64) (hc' : c' < 64)
    (h : sprite.cell r c = sprite.cell r' c') : r = r' ∧ c = c' := by
  have hboth := cell_eq_iff.1 (show sprite.cell r c = (_, _) from h)
  simp only [Fin.ofNat] at hboth
  omega

/-- The pixel in column `p` and row `q` of the screen belongs to a one of the sprite. -/
def Covers (sprite : Sprite) (p : Fin 64) (q : Fin 32) : Prop :=
  ∃ r b, sprite.bytes[r]? = some b ∧ ∃ c < 8, b.toNat.testBit (7 - c) = true ∧
    sprite.cell r c = (p, q)

/-- The screen on which exactly the pixels of the sprite are lit. -/
def mask (sprite : Sprite) : Screen :=
  Screen.mask sprite.column sprite.row sprite.bytes

/-- A bit counted from the left. -/
theorem getMsbD_eq_true_iff {b : UInt8} :
    b.toBitVec.getMsbD c = true ↔ c < 8 ∧ b.toNat.testBit (7 - c) = true := by
  rw [BitVec.getMsbD, Bool.and_eq_true, decide_eq_true_eq]
  rfl

theorem lit_mask_iff (h : sprite.bytes.length ≤ 32) (p : Fin 64) (q : Fin 32) :
    sprite.mask.lit p q = true ↔ sprite.Covers p q := by
  have hp := p.isLt
  have hq := q.isLt
  rw [mask, Screen.lit_mask]
  constructor
  · intro hlit
    split at hlit
    next b hb =>
      obtain ⟨hc, hbit⟩ := getMsbD_eq_true_iff.1 hlit
      refine ⟨_, b, hb, _, hc, hbit, cell_eq_iff.2 ⟨?_, ?_⟩⟩ <;> omega
    next => exact absurd hlit (by simp)
  · rintro ⟨r, b, hb, c, hc, hbit, hcell⟩
    obtain ⟨hcolumn, hrow⟩ := cell_eq_iff.1 hcell
    have hr : r < sprite.bytes.length := (List.getElem?_eq_some_iff.1 hb).1
    have hbyte : (q.val + (32 - sprite.row.toNat % 32)) % 32 = r := by omega
    have hplace : (p.val + (64 - sprite.column.toNat % 64)) % 64 = c := by omega
    rw [hbyte, hb, hplace]
    exact getMsbD_eq_true_iff.2 ⟨hc, hbit⟩

end Sprite

/-! ### Flipping -/

namespace Screen

/-- Flipping leaves the pixels that do not belong to the sprite. -/
theorem lit_flip_mask_of_not_covers {sprite : Sprite} (hlen : sprite.bytes.length ≤ 32) (s : Screen)
    {p : Fin 64} {q : Fin 32} (h : ¬ sprite.Covers p q) :
    (s.flip sprite.mask).lit p q = s.lit p q := by
  have hdark : sprite.mask.lit p q = false :=
    Bool.eq_false_iff.2 (mt (Sprite.lit_mask_iff hlen p q).1 h)
  rw [lit_flip, hdark, Bool.xor_false]

/-- Flipping twice restores the screen. -/
theorem flip_flip (s m : Screen) : (s.flip m).flip m = s := by
  ext x y
  rw [lit_flip, lit_flip, Bool.xor_assoc, Bool.xor_self, Bool.xor_false]

/-- The order of two flips does not matter. -/
theorem flip_right_comm (s m n : Screen) : (s.flip m).flip n = (s.flip n).flip m := by
  ext x y
  simp only [lit_flip]
  exact Bool.xor_right_comm _ _ _

end Screen

/-! ### Draws -/

/-- The sprite that `DXYN` draws. -/
def State.sprite (s : State) (x y : Register) (n : Nat) : Sprite where
  column := s.v x
  row := s.v y
  bytes := (List.range n).map fun r ↦ s.memory.byteAt (s.index.toNat + r)

namespace State

variable {s : State} {x y : Register} {n : Nat}

theorem drawSprite_eq (s : State) (x y : Register) (n : Nat) :
    s.drawSprite x y n =
      { s with
        registers := s.registers.setFlag (s.screen.overlaps (s.sprite x y n).mask)
        screen := s.screen.flip (s.sprite x y n).mask } := by
  have hbytes : s.memory.readBlock s.index n = (s.sprite x y n).bytes := by
    simp only [Memory.readBlock, sprite, Memory.read_add_ofNat]
  rw [drawSprite, hbytes]
  rfl

@[simp] theorem length_bytes_sprite : (s.sprite x y n).bytes.length = n := by
  simp [sprite]

end State

namespace Machine

variable {m : Machine} {x y : Register} {n : Nat} {sprite : Sprite}

/-- A running machine stands on a draw of this sprite. -/
def Draws (m : Machine) (sprite : Sprite) : Prop :=
  m.fault? = none ∧ ∃ x y, ∃ n < 16,
    m.state.fetch = Instruction.wordXYN 0xD x y n ∧ m.state.sprite x y n = sprite

theorem step_draw (hm : m.fault? = none) (hn : n < 16)
    (hw : m.state.fetch = Instruction.wordXYN 0xD x y n) :
    m.step = ⟨.ok (), { m with state := (m.state.drawSprite x y n).advance }, #[m.fetchRecord]⟩ :=
  step_of_fetch (i := .draw x y ⟨n, hn⟩) hm hw rfl

theorem screen_step_of_draws (h : m.Draws sprite) :
    m.step.machine.screen = m.screen.flip sprite.mask := by
  obtain ⟨hm, x, y, n, hn, hw, rfl⟩ := h
  rw [step_draw hm hn hw, State.drawSprite_eq]
  rfl

/-- **A draw inverts the pixels of its sprite, and a flag tells whether one of them was lit.** Let a
running machine stand on `DXYN`. The places of the sprite on the screen are all different, and the
step succeeds. It inverts the pixels of the sprite, leaves all others, and sets `VF` to one if a
pixel of the sprite was lit and to zero if none was. Nothing else changes but the program counter.
If the same sprite is drawn on the screen that is left, the screen is as it was before; and if any
other sprite is drawn before or after, the two orders lead to the same screen. -/
theorem draw_inverts_sprite {m : Machine} (hm : m.fault? = none) {x y : Register} {n : Nat}
    (hn : n < 16) (hw : m.state.fetch = Instruction.wordXYN 0xD x y n) :
    let sprite := m.state.sprite x y n
    let o := m.step
    (∀ r < n, ∀ r' < n, ∀ c < 8, ∀ c' < 8,
        sprite.cell r c = sprite.cell r' c' → r = r' ∧ c = c') ∧
      o.result = .ok () ∧
      (∀ p q, sprite.Covers p q → o.machine.screen.lit p q = !m.screen.lit p q) ∧
      (∀ p q, ¬ sprite.Covers p q → o.machine.screen.lit p q = m.screen.lit p q) ∧
      ((∃ p q, sprite.Covers p q ∧ m.screen.lit p q = true) → o.machine.state.v VF = 1) ∧
      ((¬ ∃ p q, sprite.Covers p q ∧ m.screen.lit p q = true) → o.machine.state.v VF = 0) ∧
      o.machine =
        { m with state :=
          { m.state with
            screen := o.machine.screen
            registers := m.state.registers.set VF (o.machine.state.v VF)
            pc := m.state.pc + 2 } } ∧
      (∀ again : Machine, again.Draws sprite → again.screen = o.machine.screen →
        again.step.machine.screen = m.screen) ∧
      ∀ (other : Sprite) (before after swapped : Machine),
        before.Draws other → before.screen = m.screen →
        after.Draws other → after.screen = o.machine.screen →
        swapped.Draws sprite → swapped.screen = before.step.machine.screen →
        swapped.step.machine.screen = after.step.machine.screen := by
  intro sprite o
  have hlit (p : Fin 64) (q : Fin 32) : sprite.mask.lit p q = true ↔ sprite.Covers p q :=
    Sprite.lit_mask_iff (by rw [State.length_bytes_sprite]; omega) p q
  have hstep : m.step = _ := step_draw hm hn hw
  rw [State.drawSprite_eq] at hstep
  have hscreen : o.machine.screen = m.screen.flip sprite.mask :=
    screen_step_of_draws ⟨hm, x, y, n, hn, hw, rfl⟩
  have hflag : o.machine.state.v VF = if m.screen.overlaps sprite.mask then 1 else 0 := by
    have hregisters : o.machine.state.registers =
        m.state.registers.setFlag (m.screen.overlaps sprite.mask) := by
      show m.step.machine.state.registers = _
      rw [hstep]
      rfl
    rw [State.v, hregisters, Registers.setFlag, Registers.get_set, if_pos rfl]
  have hoverlaps : m.screen.overlaps sprite.mask = true ↔
      ∃ p q, sprite.Covers p q ∧ m.screen.lit p q = true := by
    simp only [Screen.overlaps_iff, hlit, and_comm]
  refine ⟨fun r hr r' hr' c hc c' hc' h ↦ ?distinct, ?answer, fun p q h ↦ ?covered,
    fun p q h ↦ ?uncovered, fun h ↦ ?hit, fun h ↦ ?miss, ?others, fun again h hsame ↦ ?again,
    fun other before after swapped hbefore hs hafter hs' hswapped hs'' ↦ ?swapped⟩
  case distinct => exact Sprite.cell_inj (by omega) (by omega) (by omega) (by omega) h
  case answer =>
    show m.step.result = _
    rw [hstep]
  case covered => rw [hscreen, Screen.lit_flip, (hlit p q).2 h, Bool.xor_true]
  case uncovered =>
    rw [hscreen, Screen.lit_flip, Bool.eq_false_iff.2 (mt (hlit p q).1 h), Bool.xor_false]
  case hit => rw [hflag, if_pos (hoverlaps.2 h)]
  case miss => rw [hflag, if_neg (mt hoverlaps.1 h)]
  case others =>
    rw [hflag, hscreen]
    show m.step.machine = _
    rw [hstep]
    rfl
  case again => rw [screen_step_of_draws h, hsame, hscreen, Screen.flip_flip]
  case swapped =>
    rw [screen_step_of_draws hswapped, hs'', screen_step_of_draws hbefore, hs,
      screen_step_of_draws hafter, hs', hscreen, Screen.flip_right_comm]

/-- A row of the digit zero is drawn in the last row of a dark screen, from column 63 on. Its place
is in `VF`: it goes around the edge, and `VF` is zero afterwards. -/
theorem draw_inverts_sprite_of_wrap :
    let rom : Rom := ⟨#[0xDF, 0xF1], by decide⟩
    let m : Machine :=
      { powerOn {} rom 0 with
        state := { State.powerOn rom 0 with registers := Registers.zero.set VF 63 } }
    m.fault? = none ∧ 1 < 16 ∧ m.state.fetch = Instruction.wordXYN 0xD VF VF 1 ∧
      m.step.result = .ok () ∧ (m.state.sprite VF VF 1).Covers 0 31 ∧
      m.step.machine.screen.lit 0 31 = true ∧ m.step.machine.state.v VF = 0 := by
  intro rom m
  have hm : m.fault? = none := rfl
  have hword : m.state.fetch = Instruction.wordXYN 0xD VF VF 1 := by
    show (State.powerOn rom 0).fetch = _
    rw [State.fetch_powerOn]
    decide
  have hbyte : m.state.memory.byteAt m.state.index.toNat = 0xF0 := by
    show (Memory.ofRom rom).read 0 = 0xF0
    rw [Memory.read_ofRom]
    decide
  have hcovers : (m.state.sprite VF VF 1).Covers 0 31 :=
    ⟨0, 0xF0, congrArg some hbyte, 1, by decide, by decide, Sprite.cell_eq_iff.2 (by decide)⟩
  have hdark : ¬ ∃ p q, (m.state.sprite VF VF 1).Covers p q ∧ m.screen.lit p q = true := by
    rintro ⟨p, q, -, hlit⟩
    exact absurd hlit (by rw [show m.screen = Screen.blank from rfl, Screen.lit_blank]; decide)
  obtain ⟨-, hanswer, hinverted, -, -, hmiss, -⟩ :=
    draw_inverts_sprite hm (show 1 < 16 by decide) hword
  refine ⟨hm, by decide, hword, hanswer, hcovers, ?_, hmiss hdark⟩
  rw [hinverted 0 31 hcovers, show m.screen = Screen.blank from rfl, Screen.lit_blank]
  rfl

end Machine

end Chip8

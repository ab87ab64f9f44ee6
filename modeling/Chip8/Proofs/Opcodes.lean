import Chip8.Proofs.Transition

/-!
# The words of instructions

`Instruction.word` is the table of all forms: it writes every instruction as a word, with the digits
of the operation at fixed places and those of the operands between them. `Instruction.decode` reads
words. That the two belong together is `decode_eq_some_iff`: **a word decodes to an instruction
exactly if it is the word of that instruction**. So no two instructions share a word, and a word
that does not decode is the form of nothing (`decode_eq_none_iff`).

Both directions go digit by digit. There are three ways to place operands, `NNN`, `XNN` and `XYN`,
and for each of them the digits of a word are read off (`digit_wordXNN` and its neighbours) and a
word is put together from its digits (`wordXNN_lowByte` and its neighbours). With these equations
`decode_word` is a case for each instruction, and `word_of_decode` one for each first digit.
-/

namespace Chip8

/-! ### The table -/

/-- The last digit of the words `8XYN` that combine two registers. -/
def Arithmetic.lastDigit : Arithmetic → Nat
  | copy => 0x0
  | or => 0x1
  | and => 0x2
  | xor => 0x3
  | add => 0x4
  | subtract => 0x5
  | subtractFrom => 0x7

/-- The last digit of the words `8XYN` that shift. -/
def Direction.lastDigit : Direction → Nat
  | right => 0x6
  | left => 0xE

namespace Instruction

/-- The word with an operation and an address behind it. -/
def wordNNN (operation : Nat) (nnn : BitVec 12) : UInt16 :=
  UInt16.ofNat (0x1000 * operation + nnn.toNat)

/-- The word with an operation, a register and a byte. -/
def wordXNN (operation : Nat) (x : Register) (nn : Nat) : UInt16 :=
  UInt16.ofNat (0x1000 * operation + 0x100 * x.val + nn)

/-- The word with an operation, two registers and a digit. -/
def wordXYN (operation : Nat) (x y : Register) (n : Nat) : UInt16 :=
  UInt16.ofNat (0x1000 * operation + 0x100 * x.val + 0x10 * y.val + n)

/-- The word of an instruction. -/
def word : Instruction → UInt16
  | clearScreen => 0x00E0
  | ret => 0x00EE
  | jump target => wordNNN 0x1 target
  | call target => wordNNN 0x2 target
  | skipIfImmediate x value => wordXNN 0x3 x value.toNat
  | skipUnlessImmediate x value => wordXNN 0x4 x value.toNat
  | skipIfEqual x y => wordXYN 0x5 x y 0x0
  | loadImmediate x value => wordXNN 0x6 x value.toNat
  | addImmediate x value => wordXNN 0x7 x value.toNat
  | arithmetic operation x y => wordXYN 0x8 x y operation.lastDigit
  | shift direction x y => wordXYN 0x8 x y direction.lastDigit
  | skipUnlessEqual x y => wordXYN 0x9 x y 0x0
  | loadIndex target => wordNNN 0xA target
  | jumpOffset target => wordNNN 0xB target
  | random x mask => wordXNN 0xC x mask.toNat
  | draw x y rows => wordXYN 0xD x y rows.val
  | skipIfKey x => wordXNN 0xE x 0x9E
  | skipUnlessKey x => wordXNN 0xE x 0xA1
  | readDelay x => wordXNN 0xF x 0x07
  | waitForKey x => wordXNN 0xF x 0x0A
  | setDelay x => wordXNN 0xF x 0x15
  | setSound x => wordXNN 0xF x 0x18
  | addIndex x => wordXNN 0xF x 0x1E
  | loadGlyph x => wordXNN 0xF x 0x29
  | storeDecimal x => wordXNN 0xF x 0x33
  | storeRegisters x => wordXNN 0xF x 0x55
  | loadRegisters x => wordXNN 0xF x 0x65

/-! ### Digits of words -/

variable {operation nn n : Nat} {nnn : BitVec 12} {x y : Register} {w : UInt16} {i : Instruction}

theorem digit_wordNNN (h : operation < 16) :
    digit (wordNNN operation nnn) 0x1000 = ⟨operation, h⟩ := by
  have := nnn.isLt
  apply Fin.ext
  simp only [digit, wordNNN, UInt16.toNat_ofNat']
  omega

theorem lowAddress_wordNNN (operation : Nat) (nnn : BitVec 12) :
    lowAddress (wordNNN operation nnn) = nnn := by
  have := nnn.isLt
  apply BitVec.eq_of_toNat_eq
  simp only [lowAddress, wordNNN, BitVec.toNat_setWidth, UInt16.toNat_toBitVec,
    UInt16.toNat_ofNat']
  omega

theorem digit_wordXNN (h : operation < 16) (hnn : nn < 256) :
    digit (wordXNN operation x nn) 0x1000 = ⟨operation, h⟩ := by
  have := x.isLt
  apply Fin.ext
  simp only [digit, wordXNN, UInt16.toNat_ofNat']
  omega

theorem x_wordXNN (hnn : nn < 256) : digit (wordXNN operation x nn) 0x100 = x := by
  have := x.isLt
  apply Fin.ext
  simp only [digit, wordXNN, UInt16.toNat_ofNat']
  omega

theorem lowByte_wordXNN (operation : Nat) (x : Register) (nn : Nat) :
    lowByte (wordXNN operation x nn) = UInt8.ofNat nn := by
  apply UInt8.toNat_inj.1
  simp only [lowByte, wordXNN, UInt16.toNat_toUInt8, UInt16.toNat_ofNat', UInt8.toNat_ofNat']
  omega

/-- A second register and a digit are a byte. -/
theorem wordXYN_eq (operation : Nat) (x y : Register) (n : Nat) :
    wordXYN operation x y n = wordXNN operation x (0x10 * y.val + n) := by
  rw [wordXYN, wordXNN, Nat.add_assoc _ (0x10 * y.val)]

theorem digit_wordXYN (h : operation < 16) (hn : n < 16) :
    digit (wordXYN operation x y n) 0x1000 = ⟨operation, h⟩ := by
  have := y.isLt
  rw [wordXYN_eq]
  exact digit_wordXNN h (by omega)

theorem x_wordXYN (hn : n < 16) : digit (wordXYN operation x y n) 0x100 = x := by
  have := y.isLt
  rw [wordXYN_eq]
  exact x_wordXNN (by omega)

theorem y_wordXYN (hn : n < 16) : digit (wordXYN operation x y n) 0x10 = y := by
  have := x.isLt
  have := y.isLt
  apply Fin.ext
  simp only [digit, wordXYN, UInt16.toNat_ofNat']
  omega

theorem n_wordXYN (h : n < 16) : digit (wordXYN operation x y n) 1 = ⟨n, h⟩ := by
  apply Fin.ext
  simp only [digit, wordXYN, UInt16.toNat_ofNat']
  omega

/-! ### Words from their digits -/

theorem wordNNN_lowAddress (h : (digit w 0x1000).val = operation) :
    wordNNN operation (lowAddress w) = w := by
  subst h
  have := w.toNat_lt
  apply UInt16.toNat_inj.1
  simp only [digit, wordNNN, lowAddress, BitVec.toNat_setWidth, UInt16.toNat_toBitVec,
    UInt16.toNat_ofNat']
  omega

theorem wordXNN_lowByte (h : (digit w 0x1000).val = operation) :
    wordXNN operation (digit w 0x100) (lowByte w).toNat = w := by
  subst h
  have := w.toNat_lt
  apply UInt16.toNat_inj.1
  simp only [digit, wordXNN, lowByte, UInt16.toNat_toUInt8, UInt16.toNat_ofNat']
  omega

theorem wordXYN_digits (h : (digit w 0x1000).val = operation) :
    wordXYN operation (digit w 0x100) (digit w 0x10) (digit w 1).val = w := by
  subst h
  have := w.toNat_lt
  apply UInt16.toNat_inj.1
  simp only [digit, wordXYN, UInt16.toNat_ofNat']
  omega

/-! ### Reading and writing -/

theorem decode_word (i : Instruction) : decode i.word = some i := by
  cases i with
  | clearScreen | ret => rfl
  | jump | call | loadIndex | jumpOffset => simp [word, decode, digit_wordNNN, lowAddress_wordNNN]
  | skipIfImmediate x b | skipUnlessImmediate x b | loadImmediate x b | addImmediate x b
    | random x b =>
    simp [word, decode, digit_wordXNN, x_wordXNN, lowByte_wordXNN, b.toNat_lt]
  | skipIfEqual x y | skipUnlessEqual x y | draw x y n =>
    simp [word, decode, digit_wordXYN, x_wordXYN, y_wordXYN, n_wordXYN]
  | arithmetic operation x y =>
    cases operation <;>
      simp [word, decode, Arithmetic.lastDigit, digit_wordXYN, x_wordXYN, y_wordXYN, n_wordXYN,
        decodeArithmetic]
  | shift direction x y =>
    cases direction <;>
      simp [word, decode, Direction.lastDigit, digit_wordXYN, x_wordXYN, y_wordXYN, n_wordXYN,
        decodeArithmetic]
  | skipIfKey x | skipUnlessKey x =>
    simp [word, decode, digit_wordXNN, x_wordXNN, lowByte_wordXNN, decodeKey]
  | _ => simp [word, decode, digit_wordXNN, x_wordXNN, lowByte_wordXNN, decodeMiscellaneous]

theorem word_of_decodeArithmetic {n : Fin 16} (h : decodeArithmetic x y n = some i) :
    i.word = wordXYN 0x8 x y n.val := by
  unfold decodeArithmetic at h
  split at h <;> simp only [Option.some.injEq, reduceCtorEq] at h <;> subst h <;> rfl

theorem word_of_decodeKey {b : UInt8} (h : decodeKey x b = some i) :
    i.word = wordXNN 0xE x b.toNat := by
  unfold decodeKey at h
  split at h <;> simp only [Option.some.injEq, reduceCtorEq] at h <;> subst h <;> rfl

theorem word_of_decodeMiscellaneous {b : UInt8} (h : decodeMiscellaneous x b = some i) :
    i.word = wordXNN 0xF x b.toNat := by
  unfold decodeMiscellaneous at h
  split at h <;> simp only [Option.some.injEq, reduceCtorEq] at h <;> subst h <;> rfl

/-- What is read from a word is written as that word. -/
theorem word_of_decode (h : decode w = some i) : i.word = w := by
  simp only [decode] at h
  split at h
  case h_1 =>
    split at h
    case isTrue hw =>
      obtain rfl := Option.some.inj h
      exact hw.symm
    case isFalse =>
      split at h
      case isTrue hw =>
        obtain rfl := Option.some.inj h
        exact hw.symm
      case isFalse => exact absurd h (by simp)
  case h_2 hd | h_3 hd | h_11 hd | h_12 hd =>
    obtain rfl := Option.some.inj h
    exact wordNNN_lowAddress (congrArg Fin.val hd)
  case h_4 hd | h_5 hd | h_7 hd | h_8 hd | h_13 hd =>
    obtain rfl := Option.some.inj h
    exact wordXNN_lowByte (congrArg Fin.val hd)
  case h_6 hd | h_10 hd =>
    split at h
    case isTrue hn =>
      obtain rfl := Option.some.inj h
      rw [word, ← hn]
      exact wordXYN_digits (congrArg Fin.val hd)
    case isFalse => exact absurd h (by simp)
  case h_9 hd =>
    rw [word_of_decodeArithmetic h]
    exact wordXYN_digits (congrArg Fin.val hd)
  case h_14 hd =>
    obtain rfl := Option.some.inj h
    exact wordXYN_digits (congrArg Fin.val hd)
  case h_15 hd =>
    rw [word_of_decodeKey h]
    exact wordXNN_lowByte (congrArg Fin.val hd)
  case h_16 =>
    -- the other fifteen digits are excluded
    rw [word_of_decodeMiscellaneous h]
    refine wordXNN_lowByte ?_
    simp only [imp_false, Fin.ext_iff] at *
    omega

/-- **A word decodes to an instruction exactly if it is the word of that instruction.** -/
theorem decode_eq_some_iff : decode w = some i ↔ i.word = w :=
  ⟨word_of_decode, fun h ↦ h ▸ decode_word i⟩

/-- No two instructions share a word. -/
theorem word_inj {j : Instruction} (h : i.word = j.word) : i = j :=
  Option.some.inj ((decode_word i).symm.trans ((congrArg decode h).trans (decode_word j)))

/-- A word that does not decode is the word of no instruction. -/
theorem decode_eq_none_iff : decode w = none ↔ ∀ i : Instruction, i.word ≠ w := by
  simp only [Option.eq_none_iff_forall_ne_some, ne_eq, decode_eq_some_iff]

end Instruction

namespace Machine

variable {m : Machine} {i : Instruction}

/-- A machine that stands on the word of an instruction performs it. -/
theorem effect_of_fetch (h : m.state.fetch = i.word) :
    m.effect = m.state.perform m.config.dialect i :=
  effect_of_decode (h ▸ Instruction.decode_word i)

/-- The state after a step is that after the instruction at hand. -/
theorem state_step_of_fetch (hm : m.fault? = none) (h : m.state.fetch = i.word) :
    m.step.machine.state = (m.state.perform m.config.dialect i).stateAfter m.state := by
  rw [state_step hm, effect_of_fetch h]

/-- If a step succeeds, the instruction at hand does. -/
theorem result_perform_of_fetch (hok : m.step.result = .ok ()) (h : m.state.fetch = i.word) :
    (m.state.perform m.config.dialect i).result = .ok () := by
  rw [← effect_of_fetch h, ← result_step (fault?_of_step_ok hok).1, hok]

theorem step_of_fetch {s : State} (hm : m.fault? = none) (h : m.state.fetch = i.word)
    (hi : m.state.perform m.config.dialect i = .advanced s) :
    m.step = ⟨.ok (), { m with state := s }, #[m.fetchRecord]⟩ :=
  step_of_advanced hm ((effect_of_fetch h).trans hi)

end Machine

end Chip8

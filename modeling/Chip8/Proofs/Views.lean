import Chip8.Proofs.CheckedLoops
import Chip8.Proofs.SnapshotFormat
import Chip8.Proofs.Stages

/-!
# Views of a machine

What a machine shows, pixels, text, keys and timers, and what it saves come from the same state on
different ways, and a reader of either can tell the other. `views_agree` says so cell by cell. It
rests on three equations, none of which goes through another.

* `intensity?_eq`: the pixel at a place is the one that is lit there.
* `chars_eq`: the text has a line for each row and a character for each pixel. Lines are of one
  length, so a text can be the text of one screen only (`text_inj`).
* `Screen.getLsbD_encode`: the written form has eight pixels to a byte, the leftmost lowest. Where
  its bytes lie in a snapshot is `Snapshot.getElem?_encode_screen`, and `getElem?_encode_timers` and
  `getElem?_encode_keypad` say the same of the timers and the keys.

Together they say that what a run of the command line prints and the bytes of the screen in what it
saves **determine each other**.
-/

namespace Chip8

namespace Screen

variable {s t : Screen}

/-! ### Pixels and text -/

theorem intensity?_eq (s : Screen) (x : Fin 64) (y : Fin 32) :
    s.intensity? x y = some (if s.lit x y then brightness else 0) := by
  have hrow : (y.val * width + x.val) / 64 = y.val := by
    rw [width]
    omega
  have hcolumn : (y.val * width + x.val) % 64 = x.val := by
    rw [width]
    omega
  simp only [intensity?, hrow, hcolumn, y.isLt, dite_true]

/-- Lit pixels, and no others, have the brightness of lit pixels. -/
theorem intensity?_eq_brightness_iff (s : Screen) (x : Fin 64) (y : Fin 32) :
    s.intensity? x y = some 255 ↔ s.lit x y = true := by
  rw [intensity?_eq]
  cases s.lit x y <;> decide

/-- Screens are the same if all their pixels are. -/
theorem eq_iff_intensity? :
    s = t ↔ ∀ (x : Fin 64) (y : Fin 32), s.intensity? x y = t.intensity? x y := by
  refine ⟨fun h _ _ ↦ by rw [h], fun h ↦ ?_⟩
  ext x y
  rw [Bool.eq_iff_iff, ← intensity?_eq_brightness_iff, ← intensity?_eq_brightness_iff, h]

/-- The lines of the text, without their ends. -/
def lines (s : Screen) : Vector (Vector Char 64) 32 :=
  Vector.ofFn fun y ↦ Vector.ofFn fun x ↦ if s.lit x y then '#' else '.'

theorem get_lines (s : Screen) (x : Fin 64) (y : Fin 32) :
    (s.lines.get y).get x = if s.lit x y then '#' else '.' := by
  have hget {α : Type} {n : Nat} (v : Vector α n) (i : Fin n) : v.get i = v[i.val] := rfl
  rw [hget, hget, lines, Vector.getElem_ofFn, Vector.getElem_ofFn]

/-- **The text is made of lines**, one for each row, and each is ended. -/
theorem chars_eq (s : Screen) :
    s.chars = s.lines.toList.flatMap fun line ↦ line.toList ++ ['\n'] := by
  have hrow (y : Fin 32) : (Vector.ofFn fun x ↦ if s.lit x y then '#' else '.').toList =
      s.rowChars y := by
    rw [Vector.toList_ofFn, rowChars, List.finRange, List.map_ofFn]
    rfl
  have hlines : s.lines.toList =
      (List.finRange 32).map fun y ↦ Vector.ofFn fun x ↦ if s.lit x y then '#' else '.' := by
    rw [lines, Vector.toList_ofFn, List.finRange, List.map_ofFn]
    rfl
  rw [hlines, List.flatMap_map, chars]
  simp only [hrow]

/-- **A text is the text of one screen only.** -/
theorem text_inj (h : s.text = t.text) : s = t := by
  have hchars : s.chars = t.chars := String.ofList_injective h
  rw [chars, chars, List.flatMap_def, List.flatMap_def] at hchars
  -- ended lines of one length are told apart in what they are joined to
  have hlines := List.eq_iff_flatten_eq.2 ⟨hchars, by simp [Function.comp_def, rowChars]⟩
  ext x y
  have hrow := List.map_inj_left.1 hlines y (List.mem_finRange y)
  have hpixel := List.map_inj_left.1 (List.append_cancel_right hrow) x (List.mem_finRange x)
  revert hpixel
  cases s.lit x y <;> cases t.lit x y <;> decide

theorem text_eq_iff : s.text = t.text ↔ s = t :=
  ⟨text_inj, congrArg text⟩

end Screen

/-- The two bytes of the keys are one word, the high one first. -/
theorem Keypad.getLsbD_encode (k : Keypad) (key : Nat) :
    (256 * (codec.encode k)[0].toNat + (codec.encode k)[1].toNat).testBit key =
      k.held.getLsbD key := by
  have hword : Codec.number ((Codec.bigEndian 2).encode k.held) = k.held.toNat := by
    show Codec.number (Codec.digits 2 _) = _
    rw [Codec.number_digits, BitVec.ofNat_toNat, BitVec.setWidth_eq]
  have hbytes : Codec.number ((Codec.bigEndian 2).encode k.held) =
      256 * (256 * 0 + (codec.encode k)[0].toNat) + (codec.encode k)[1].toNat := rfl
  rw [Nat.mul_zero, Nat.zero_add] at hbytes
  rw [← hbytes, hword]
  exact BitVec.testBit_toNat k.held

namespace Machine

/-! ### Views and bytes -/

/-- **A pixel is a bit of what is saved.** -/
theorem exists_byte_of_pixel (m : Machine) (x : Fin 64) (y : Fin 32) :
    ∃ b, m.snapshot[4152 + 8 * y.val + x.val / 8]? = some b ∧
      m.screen.intensity? x y = some (if b.toNat.testBit (x.val % 8) then 255 else 0) := by
  have hj : 8 * y.val + x.val / 8 < 256 := by omega
  have hrow : (8 * y.val + x.val / 8) / 8 = y.val := by omega
  have hcolumn : 8 * ((8 * y.val + x.val / 8) % 8) + x.val % 8 = x.val := by omega
  have hbit : ((Screen.codec.encode m.state.screen)[8 * y.val + x.val / 8]).toNat.testBit
      (x.val % 8) = m.state.screen.lit x y := by
    have h := m.state.screen.getLsbD_encode hj (Nat.mod_lt x.val (by decide : 0 < 8))
    simp only [hrow, hcolumn] at h
    exact h
  refine ⟨(Screen.codec.encode m.state.screen)[8 * y.val + x.val / 8], ?_, ?_⟩
  · rw [Nat.add_assoc]
    exact Snapshot.getElem?_encode_screen (Snapshot.ofState m.state) hj
  · rw [screen, Screen.intensity?_eq]
    show some (if m.state.screen.lit x y then (255 : UInt8) else 0) = _
    rw [← hbit]

/-- **The keys are the bits of a word that is saved.** -/
theorem exists_bytes_of_keys (m : Machine) :
    ∃ high low, m.snapshot[4408]? = some high ∧ m.snapshot[4409]? = some low ∧
      ∀ key < 16, m.keys[key]? = some ((256 * high.toNat + low.toNat).testBit key) := by
  refine ⟨_, _, Snapshot.getElem?_encode_keypad (Snapshot.ofState m.state) (j := 0) (by decide),
    Snapshot.getElem?_encode_keypad (Snapshot.ofState m.state) (j := 1) (by decide), ?_⟩
  intro key hkey
  rw [show (Snapshot.ofState m.state).state.keypad = m.state.keypad from rfl,
    Keypad.getLsbD_encode]
  simp [keys, Keypad.toList, hkey]

/-- Machines show the same text exactly if the bytes of the screen in what they save are the
same. -/
theorem text_eq_iff_bytes (m n : Machine) :
    m.screen.text = n.screen.text ↔
      ∀ i, 4152 ≤ i → i < 4408 → m.snapshot[i]? = n.snapshot[i]? := by
  rw [Screen.text_eq_iff]
  constructor
  · intro h i hi hi'
    obtain ⟨j, rfl⟩ := Nat.exists_eq_add_of_le hi
    have hj : j < 256 := by omega
    have hstate : m.state.screen = n.state.screen := h
    have hm := Snapshot.getElem?_encode_screen (Snapshot.ofState m.state) hj
    have hn := Snapshot.getElem?_encode_screen (Snapshot.ofState n.state) hj
    refine hm.trans (Eq.trans ?_ hn.symm)
    simp only [Snapshot.ofState, hstate]
  · intro h
    refine Screen.eq_iff_intensity?.2 fun x y ↦ ?_
    obtain ⟨b, hb, hpixel⟩ := m.exists_byte_of_pixel x y
    obtain ⟨b', hb', hpixel'⟩ := n.exists_byte_of_pixel x y
    -- the same byte holds the pixel of both
    have hbyte := h (4152 + 8 * y.val + x.val / 8) (by omega) (by omega)
    rw [hb, hb'] at hbyte
    rw [hpixel, hpixel', Option.some.inj hbyte]

end Machine

namespace CommandLine

open Machine

variable {σ : Type} {files : Files (StateM σ)}

/-! ### Runs -/

/-- A run of the command line that is to be saved at a path ends well after it has shown a text. -/
structure EndsWell (files : Files (StateM σ)) (arguments : List String) (entropy : UInt64) (d : σ)
    (path output : String) : Prop where
  saved : ∃ o, Options.parse arguments = .ok o ∧ o.saveState = some path
  shown : ((invoke files arguments entropy).run d).1 = .finished output

/-- Such a run shows and saves one machine. -/
theorem EndsWell.exists_machine {arguments : List String} {entropy : UInt64} {d : σ}
    {path output : String} (hfiles : files.Faithful)
    (h : EndsWell files arguments entropy d path output) :
    ∃ m : Machine, output = m.screen.text ∧
      files.contents ((invoke files arguments entropy).run d).2 path = .ok m.snapshot.toArray := by
  obtain ⟨o, hparse, hsave⟩ := h.saved
  have hshown := h.shown
  rw [invoke_of_parse hparse] at hshown ⊢
  obtain ⟨m, d', -, hrun, hread⟩ := exists_of_exitCode hfiles hsave (by rw [hshown]; rfl)
  rw [hrun] at hshown ⊢
  exact ⟨m, (Ending.finished.inj hshown).symm, hread⟩

/-- A run that is through its frames and can be saved ends well. -/
theorem endsWell_of_reached (hfiles : files.Faithful) {arguments : List String} {o : Options}
    {entropy : UInt64} {d : σ} {path : String} {m : Machine}
    (hparse : Options.parse arguments = .ok o) (hsave : o.saveState = some path)
    (hcan : files.CanSave d path) (h : reached (files.contents d) o entropy = .ok m) :
    EndsWell files arguments entropy d path m.screen.text ∧
      files.contents ((invoke files arguments entropy).run d).2 path =
        .ok m.snapshot.toArray := by
  obtain ⟨d', hrun, hread⟩ := exists_run_eq_finished hfiles hsave hcan h
  rw [invoke_of_parse hparse, hrun]
  exact ⟨⟨⟨o, hparse, hsave⟩, by rw [invoke_of_parse hparse, hrun]⟩, hread⟩

/-- **All views of a machine agree.** A pixel is as bright as the bit of its place in what is saved
says. The text has 32 lines of 64 characters, each ended, with a hash where the pixel is lit and a
dot elsewhere, so that screens have the same text only if they are the same, pixel by pixel. Every
key is held exactly if its bit in the saved word of the keys is set, the delay timer is a byte that
is saved, and the tone sounds exactly if the byte after it is not zero. So if two runs of the
command line end well and are saved, they show the same text exactly if the bytes of the screen in
what they saved are the same. -/
theorem views_agree (hfiles : files.Faithful) (m : Machine) :
    (∀ (x : Fin 64) (y : Fin 32), ∃ b, m.snapshot[4152 + 8 * y.val + x.val / 8]? = some b ∧
      m.screen.intensity? x y = some (if b.toNat.testBit (x.val % 8) then 255 else 0)) ∧
    (∃ lines : Vector (Vector Char 64) 32,
      m.screen.text.toList = lines.toList.flatMap (fun line ↦ line.toList ++ ['\n']) ∧
        ∀ (x : Fin 64) (y : Fin 32),
          (lines.get y).get x = if m.screen.intensity? x y = some 255 then '#' else '.') ∧
    (∀ s t : Screen, (s.text = t.text ↔ s = t) ∧
      (s = t ↔ ∀ (x : Fin 64) (y : Fin 32), s.intensity? x y = t.intensity? x y)) ∧
    (m.keys.length = 16 ∧ ∃ high low, m.snapshot[4408]? = some high ∧
      m.snapshot[4409]? = some low ∧
        ∀ key < 16, m.keys[key]? = some ((256 * high.toNat + low.toNat).testBit key)) ∧
    m.snapshot[4150]? = some m.delay ∧
    (∃ b, m.snapshot[4151]? = some b ∧ (m.soundActive = true ↔ b ≠ 0)) ∧
    ∀ arguments arguments' entropy entropy' d d' path path' output output',
      EndsWell files arguments entropy d path output →
      EndsWell files arguments' entropy' d' path' output' →
      ∃ bytes bytes',
        files.contents ((invoke files arguments entropy).run d).2 path = .ok bytes ∧
        files.contents ((invoke files arguments' entropy').run d').2 path' = .ok bytes' ∧
        (output = output' ↔ ∀ i, 4152 ≤ i → i < 4408 → bytes[i]? = bytes'[i]?) := by
  refine ⟨m.exists_byte_of_pixel, ⟨m.screen.lines, ?_, fun x y ↦ ?_⟩, ?_,
    ⟨Keypad.length_toList _, m.exists_bytes_of_keys⟩, ?_, ⟨m.state.timers.sound, ?_, ?_⟩, ?_⟩
  · rw [Screen.text, String.toList_ofList, Screen.chars_eq]
  · rw [Screen.get_lines]
    simp only [Screen.intensity?_eq_brightness_iff]
  · exact fun s t ↦ ⟨Screen.text_eq_iff, Screen.eq_iff_intensity?⟩
  · exact Snapshot.getElem?_encode_timers (Snapshot.ofState m.state) (j := 0) (by decide)
  · exact Snapshot.getElem?_encode_timers (Snapshot.ofState m.state) (j := 1) (by decide)
  · rw [soundActive, Timers.soundActive, decide_eq_true_iff, gt_iff_lt, UInt8.pos_iff_ne_zero]
  · intro arguments arguments' entropy entropy' d d' path path' output output' h h'
    obtain ⟨n, rfl, hread⟩ := h.exists_machine hfiles
    obtain ⟨n', rfl, hread'⟩ := h'.exists_machine hfiles
    refine ⟨_, _, hread, hread', (n.text_eq_iff_bytes n').trans ?_⟩
    simp only [Vector.getElem?_toArray]

/-- A run from a snapshot of nothing but twos, and one from a program without a byte. In a byte that
is a two, one pixel of eight is lit, the second from the left. -/
theorem views_agree_of_twos :
    let twos := Array.replicate 4458 (2 : UInt8)
    let d : Directory := ⟨[("empty", #[]), ("twos", twos)]⟩
    let dark := ["empty", "--frames=0", "--save-state=dark"]
    let bright := ["empty", "--frames=0", "--load-state=twos", "--save-state=bright"]
    let m := ((powerOn {} Rom.empty 0).restore twos).machine
    Directory.access.Faithful ∧
      m.screen.intensity? 1 0 = some 255 ∧ m.screen.intensity? 0 0 = some 0 ∧
      m.keys[1]? = some true ∧ m.keys[0]? = some false ∧ m.delay = 2 ∧ m.soundActive = true ∧
      ∃ output output', EndsWell Directory.access dark 0 d "dark" output ∧
        EndsWell Directory.access bright 0 d "bright" output' ∧ output ≠ output' := by
  intro twos d dark bright m
  have hfiles := Directory.faithful_access
  obtain ⟨s, hs⟩ := Snapshot.exists_decode_iff.2
    (show twos.size = Snapshot.size ∧ twos[0]? = some Snapshot.version by
      simp [twos, Snapshot.size, Snapshot.version])
  have hform : s.encode.toArray = twos := Snapshot.encode_of_decode hs
  have hm : m =
      { powerOn {} Rom.empty 0 with state := s.state, fault? := none, waiting := false } :=
    congrArg Outcome.machine (restore_of_decode hs)
  -- all bytes in front of the count of drawn words are saved again
  have hbyte (n : Machine) (hn : n.state = s.state) {i : Nat} (hi : i < 4442) :
      n.snapshot[i]? = some 2 := by
    have htwo : s.encode.toList[i]? = some 2 := by
      rw [Vector.getElem?_toList, ← Vector.getElem?_toArray, hform]
      simp [twos, show i < 4458 by omega]
    rw [snapshot, hn, ← Vector.getElem?_toList]
    exact (Snapshot.getElem?_encode_withLaps s 0 hi).trans htwo
  obtain ⟨hpixels, -, -, ⟨-, high, low, hhigh, hlow, hkeys⟩, hdelay, ⟨b, hb, hsound⟩, hruns⟩ :=
    views_agree hfiles m
  have htwo {i : Nat} (hi : i < 4442) : m.snapshot[i]? = some 2 := hbyte m (by rw [hm]) hi
  rw [htwo (by decide)] at hhigh hlow hdelay hb
  obtain rfl := Option.some.inj hhigh
  obtain rfl := Option.some.inj hlow
  obtain rfl := Option.some.inj hb
  have hpixel (x : Fin 64) : m.screen.intensity? x 0 =
      some (if (2 : UInt8).toNat.testBit (x.val % 8) then 255 else 0) := by
    obtain ⟨b, hb, hx⟩ := hpixels x 0
    rw [htwo (by omega)] at hb
    rw [Option.some.inj hb]
    exact hx
  refine ⟨hfiles, hpixel 1, hpixel 0, hkeys 1 (by decide), hkeys 0 (by decide),
    (Option.some.inj hdelay).symm, hsound.2 (by decide), ?_⟩
  -- both runs reach what they start with
  let o : Options := ⟨"empty", [], none, none, some 0, none, some "dark"⟩
  let o' : Options := ⟨"empty", [], none, none, some 0, some "twos", some "bright"⟩
  have hparse : Options.parse dark = .ok o := rfl
  have hparse' : Options.parse bright = .ok o' := rfl
  have hrom : Directory.access.contents d "empty" = .ok #[] := rfl
  have hread : Directory.access.contents d "twos" = .ok s.encode.toArray := by
    rw [hform]
    rfl
  obtain ⟨n, hblank, hreached⟩ : ∃ n, n.screen = Screen.blank ∧
      reached (Directory.access.contents d) o 0 = .ok n :=
    ⟨_, rfl, reached_of_no_frames (StartCase.poweredOn hrom (by decide) rfl).eq rfl⟩
  obtain ⟨n', hstate, hreached'⟩ : ∃ n', n'.state = s.state ∧
      reached (Directory.access.contents d) o' 0 = .ok n' :=
    ⟨_, rfl, reached_of_no_frames
      (StartCase.resumed hrom (by decide) rfl hread (Snapshot.decode_encode s)).eq rfl⟩
  obtain ⟨hends, hsaved⟩ := endsWell_of_reached hfiles hparse rfl
    (Directory.canSave_access rfl rfl (by decide)) hreached
  obtain ⟨hends', hsaved'⟩ := endsWell_of_reached hfiles hparse' rfl
    (Directory.canSave_access rfl rfl (by decide)) hreached'
  refine ⟨_, _, hends, hends', fun hsame ↦ ?_⟩
  obtain ⟨bytes, bytes', hbytes, hbytes', hiff⟩ := hruns _ _ _ _ _ _ _ _ _ _ hends hends'
  obtain rfl := Except.ok.inj (hsaved.symm.trans hbytes)
  obtain rfl := Except.ok.inj (hsaved'.symm.trans hbytes')
  have hfirst := hiff.1 hsame 4152 (by decide) (by decide)
  rw [Vector.getElem?_toArray, Vector.getElem?_toArray, hbyte n' hstate (by decide)] at hfirst
  -- the same byte as in the other run, but here the pixel is dark
  obtain ⟨c, hc, hdark⟩ := n.exists_byte_of_pixel 1 0
  obtain rfl : 2 = c := Option.some.inj (hfirst.symm.trans hc)
  rw [hblank, Screen.intensity?_eq, Screen.lit_blank] at hdark
  exact absurd hdark (by decide)

end CommandLine

end Chip8

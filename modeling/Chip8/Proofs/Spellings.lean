import Chip8.Proofs.ParsingRules

/-!
# Ways to write a command line

`Options.parser` is the parser of the command line: reading from left to right keeps the rules of an
`ArgumentParser`. But for the order in which arguments are settled, each rule is about one item, and
about a draft that holds a choice on the same subject or holds none.

`parse_writtenAs` puts the rules to use. It says of every way to write some options that reading
comes to these options, and **to one configuration**, and that a number that cannot be read is
refused wherever it stands.
-/

namespace Chip8

namespace CommandLine

/-! ### Settling an item -/

namespace Draft

variable {d : Draft} {i : Item} {c : Choice}

theorem exists_makes_of_not_isFresh {x : Subject} (h : ¬ d.IsFresh x) :
    ∃ c, d.Makes c ∧ c.subject = x := by
  simpa [IsFresh] using h

/-- A setting that has a value is what a choice is about. -/
theorem exists_makes_of_has {s : Setting} (h : d.has s = true) :
    ∃ c, d.Makes c ∧ c.subject = .setting s := by
  cases s with
  | clockRate => exact (Option.isSome_iff_exists.1 h).imp' Choice.clockRate fun n hn ↦ ⟨hn, rfl⟩
  | seed => exact (Option.isSome_iff_exists.1 h).imp' Choice.seed fun n hn ↦ ⟨hn, rfl⟩
  | frames => exact (Option.isSome_iff_exists.1 h).imp' Choice.frames fun n hn ↦ ⟨hn, rfl⟩
  | loadState => exact (Option.isSome_iff_exists.1 h).imp' Choice.loadState fun p hp ↦ ⟨hp, rfl⟩
  | saveState => exact (Option.isSome_iff_exists.1 h).imp' Choice.saveState fun p hp ↦ ⟨hp, rfl⟩

/-- A setting has a value exactly if a choice is about it. -/
theorem has_iff_not_isFresh {s : Setting} : d.has s = true ↔ ¬ d.IsFresh (.setting s) := by
  constructor
  · intro h hfresh
    obtain ⟨c, hc, hsubject⟩ := exists_makes_of_has h
    exact hfresh c hc hsubject
  · intro h
    obtain ⟨c, hc, hsubject⟩ := exists_makes_of_not_isFresh h
    cases c <;> cases hsubject <;> exact Option.isSome_iff_exists.2 ⟨_, hc⟩

/-- The part of a draft that a fresh subject stands for is empty. -/
theorem IsFresh.eq_none {α : Type} {part : Option α} {x : Subject} (h : d.IsFresh x)
    (choice : α → Choice)
    (hpart : ∀ a, part = some a → d.Makes (choice a) ∧ (choice a).subject = x) : part = none :=
  Option.eq_none_iff_forall_ne_some.2 fun a ha ↦ h _ (hpart a ha).1 (hpart a ha).2

/-- A setting that no choice is about takes any value that can be assigned. -/
theorem set_of_isFresh {s : Setting} (h : d.IsFresh (.setting s)) (text : String) :
    d.set s text = d.assign s text :=
  if_neg fun hhas ↦ has_iff_not_isFresh.1 hhas h

theorem path_of_plain {text : String} (h : Plain text) : path text = .ok text :=
  if_neg fun hnil ↦ h.1 (String.toList_eq_nil_iff.1 hnil)

theorem count?_of_isNumeral {limit n : Nat} {text : String} (hn : n < limit)
    (h : IsNumeral n text.toList) :
    count? limit text.toList = some n ∧ rate? limit text.toList = some n := by
  have hcount := count?_eq_some_iff.2 ⟨hn, h⟩
  exact ⟨hcount, (rate?_eq_count? h.plain.2 limit).trans hcount⟩

/-- **An item whose subject is new is settled**, and adds the choice that it says. -/
theorem exists_apply_of_said (h : i.Says c) (hfresh : d.IsFresh c.subject) :
    ∃ d', d.apply i = .ok d' ∧ ∀ c', d'.Makes c' ↔ c' = c ∨ d.Makes c' := by
  cases h with
  | @rom path h =>
    refine ⟨{ d with rom := some path }, ?_, fun c' ↦ ?_⟩
    · rw [apply, settle, path_of_plain h]
      rfl
    · have hnone : d.rom = none := hfresh.eq_none .rom fun p hp ↦ ⟨hp, rfl⟩
      cases c' <;> simp [Makes, hnone, eq_comm]
  | flag f =>
    have hnot : f ∉ d.flags := fun hmem ↦ hfresh (.flag f) hmem rfl
    refine ⟨{ d with flags := f :: d.flags }, ?_, fun c' ↦ ?_⟩
    · rw [apply, raise, if_neg (by simpa using hnot)]
    · cases c' <;> simp [Makes]
  | @clockRate n text h attached =>
    refine ⟨{ d with clockRate := some n }, ?_, fun c' ↦ ?_⟩
    · rw [apply, set_of_isFresh hfresh, assign, (count?_of_isNumeral n.toNat_lt_size h).2]
      show Except.ok { d with clockRate := some (UInt32.ofNat n.toNat) } = _
      rw [UInt32.ofNat_toNat]
    · have hnone : d.clockRate = none := hfresh.eq_none .clockRate fun k hk ↦ ⟨hk, rfl⟩
      cases c' <;> simp [Makes, hnone, eq_comm]
  | @seed n text h attached =>
    refine ⟨{ d with seed := some n }, ?_, fun c' ↦ ?_⟩
    · rw [apply, set_of_isFresh hfresh, assign, (count?_of_isNumeral n.toNat_lt_size h).1]
      show Except.ok { d with seed := some (UInt64.ofNat n.toNat) } = _
      rw [UInt64.ofNat_toNat]
    · have hnone : d.seed = none := hfresh.eq_none .seed fun k hk ↦ ⟨hk, rfl⟩
      cases c' <;> simp [Makes, hnone, eq_comm]
  | @frames n text h attached =>
    refine ⟨{ d with frames := some n }, ?_, fun c' ↦ ?_⟩
    · rw [apply, set_of_isFresh hfresh, assign, (count?_of_isNumeral n.toNat_lt_size h).1]
      show Except.ok { d with frames := some (UInt64.ofNat n.toNat) } = _
      rw [UInt64.ofNat_toNat]
    · have hnone : d.frames = none := hfresh.eq_none .frames fun k hk ↦ ⟨hk, rfl⟩
      cases c' <;> simp [Makes, hnone, eq_comm]
  | @loadState path h attached =>
    refine ⟨{ d with loadState := some path }, ?_, fun c' ↦ ?_⟩
    · rw [apply, set_of_isFresh hfresh, assign, path_of_plain h]
      rfl
    · have hnone : d.loadState = none := hfresh.eq_none .loadState fun p hp ↦ ⟨hp, rfl⟩
      cases c' <;> simp [Makes, hnone, eq_comm]
  | @saveState path h attached =>
    refine ⟨{ d with saveState := some path }, ?_, fun c' ↦ ?_⟩
    · rw [apply, set_of_isFresh hfresh, assign, path_of_plain h]
      rfl
    · have hnone : d.saveState = none := hfresh.eq_none .saveState fun p hp ↦ ⟨hp, rfl⟩
      cases c' <;> simp [Makes, hnone, eq_comm]

/-- A text that is no number below the limit of a setting is refused. -/
theorem apply_of_not_isNumeral {s : Setting} {limit : Nat} {text : String} {attached : Bool}
    (hlimit : s.limit? = some limit) (hplain : Plain text)
    (hnot : ∀ n < limit, ¬ IsNumeral n text.toList) (hfresh : d.IsFresh (.setting s)) :
    d.apply (.setting s text attached) = .error (.notANumber s text) := by
  have hcount : count? limit text.toList = none := Option.eq_none_iff_forall_ne_some.2 fun n hn ↦
    hnot n (count?_eq_some_iff.1 hn).1 (count?_eq_some_iff.1 hn).2
  rw [apply, set_of_isFresh hfresh]
  cases s with
  | clockRate =>
    obtain rfl := Option.some.inj hlimit
    have hrate := (rate?_eq_count? hplain.2 _).trans hcount
    rw [assign, hrate]
    rfl
  | seed | frames =>
    obtain rfl := Option.some.inj hlimit
    rw [assign, hcount]
    rfl
  | loadState | saveState => exact absurd hlimit (by simp [Setting.limit?])

/-- An option that was given before is refused. -/
theorem apply_of_not_isFresh {name : String} (h : ¬ d.IsFresh i.subject)
    (hname : i.subject.name? = some name) : d.apply i = .error (.repeated name) := by
  cases i with
  | rom path => exact absurd hname (by simp [Item.subject, Subject.name?])
  | flag f =>
    obtain rfl := Option.some.inj hname
    have hmem : f ∈ d.flags := by
      obtain ⟨c, hc, hsubject⟩ := exists_makes_of_not_isFresh h
      cases c <;> cases hsubject
      exact hc
    rw [apply, raise, if_pos (by simpa using hmem)]
  | setting s text attached =>
    obtain rfl := Option.some.inj hname
    rw [apply, set, if_pos (has_iff_not_isFresh.2 h)]

theorem apply_apart (d : Draft) (i : Item) : d.apply i.apart = d.apply i := by
  cases i <;> rfl

end Draft

/-! ### The parser of the command line -/

/-- The flag of the COSMAC VIP stands for both of the others. -/
theorem dialectOf_eq (flags : List Flag) :
    dialectOf flags =
      { shiftReadsY := decide (.shiftUsesVy ∈ flags ∨ .cosmacVip ∈ flags)
        transferMovesIndex := decide (.loadStoreAdvancesIndex ∈ flags ∨ .cosmacVip ∈ flags) } := by
  rw [dialectOf]
  by_cases hvip : Flag.cosmacVip ∈ flags <;> simp [hvip, Dialect.cosmacVip]

namespace Options

variable {o : Options} {items : List Item}

/-- **Reading from left to right keeps the rules.** -/
def parser : ArgumentParser where
  parse := parse
  take := Draft.apply
  parse_items := parse_flatMap
  parse_unknown hplain honce hitems hlate hne hname rest :=
    parse_of_unknown hplain honce hitems hlate hne hname rest
  take_apart := Draft.apply_apart
  take_said h hfresh := by
    rw [Draft.apply_apart]
    exact Draft.exists_apply_of_said h hfresh
  take_repeated h hname := by
    rw [Draft.apply_apart]
    exact Draft.apply_of_not_isFresh h hname
  take_notANumber := Draft.apply_of_not_isNumeral

/-- **What is written decides, and not how.** Let items say every choice of some options once: in
any order, with each value attached or apart, and each number in any numeral. Then the arguments are
accepted and come to these options, of which the configuration takes the clock rate, the seed and
the flags, and nothing else. A plain text that is no numeral below the limit, in the place of one of
the numbers, makes them be refused for that reason. -/
theorem parse_writtenAs (h : o.WrittenAs items) :
    (∃ o', parse (items.flatMap Item.arguments) = .ok o' ∧
      (∀ f, f ∈ o'.flags ↔ f ∈ o.flags) ∧ { o' with flags := o.flags } = o ∧
      o'.config =
        { clockRate := o.clockRate.getD 600
          dialect :=
            { shiftReadsY := decide (.shiftUsesVy ∈ o.flags ∨ .cosmacVip ∈ o.flags)
              transferMovesIndex :=
                decide (.loadStoreAdvancesIndex ∈ o.flags ∨ .cosmacVip ∈ o.flags) }
          seed := o.seed }) ∧
    ∀ before s text attached after limit text' attached',
      items = before ++ .setting s text attached :: after → s.limit? = some limit →
      Plain text' → (∀ n < limit, ¬ IsNumeral n text'.toList) →
      parse ((before ++ .setting s text' attached' :: after).flatMap Item.arguments) =
        .error (.notANumber s text') := by
  obtain ⟨said, hitems, honce, hsaid⟩ := h
  constructor
  · obtain ⟨flags, hparse, hflags⟩ := parser.parse_of_said hitems honce hsaid
    refine ⟨_, hparse, hflags, rfl, ?_⟩
    rw [config, dialectOf_eq]
    simp only [hflags]
  · rintro before s text attached after limit text' attached' rfl hlimit hplain hnot
    exact parser.parse_of_not_isNumeral hitems (nodup_subjects honce hsaid) hlimit hplain hnot

/-- Five options with the path between them, and a clock rate that does not fit. -/
theorem parse_writtenAs_of_five :
    let o : Options := ⟨"game.ch8", [.shiftUsesVy], some 1200, some 9, some 0, none, some "out"⟩
    let before : List Item := [.setting .seed "+09" true, .flag .shiftUsesVy]
    let after : List Item :=
      [.rom "game.ch8", .setting .frames "000" true, .setting .saveState "out" false]
    let items := before ++ .setting .clockRate "01200" false :: after
    o.WrittenAs items ∧
      items.flatMap Item.arguments =
        ["--seed=+09", "--shift-uses-vy", "--clock-rate", "01200", "game.ch8", "--frames=000",
          "--save-state", "out"] ∧
      (∃ o', parse (items.flatMap Item.arguments) = .ok o' ∧ { o' with flags := o.flags } = o ∧
        o'.config = ⟨1200, ⟨true, false⟩, some 9⟩) ∧
      (∀ n < UInt32.size, ¬ IsNumeral n "4294967296".toList) ∧
      parse ((before ++ .setting .clockRate "4294967296" true :: after).flatMap Item.arguments) =
        .error (.notANumber .clockRate "4294967296") := by
  intro o before after items
  have hplain (text : String) (h : text ≠ "" ∧ text.toList.head? ≠ some '-') : Plain text := h
  have hwritten : o.WrittenAs items := by
    refine ⟨[.seed 9, .flag .shiftUsesVy, .clockRate 1200, .rom "game.ch8", .frames 0,
      .saveState "out"], ?_, by decide, fun c ↦ ?_⟩
    · have hseed : IsNumeral (9 : UInt64).toNat "+09".toList :=
        ⟨"09".toList, by decide, List.all_eq_true.1 (by decide), by decide, .inr (by decide)⟩
      have hclock : IsNumeral (1200 : UInt32).toNat "01200".toList :=
        ⟨_, by decide, List.all_eq_true.1 (by decide), by decide, .inl rfl⟩
      have hframes : IsNumeral (0 : UInt64).toNat "000".toList :=
        ⟨_, by decide, List.all_eq_true.1 (by decide), by decide, .inl rfl⟩
      exact .cons (.seed hseed _) <| .cons (.flag _) <| .cons (.clockRate hclock _) <|
        .cons (.rom (hplain _ (by decide))) <| .cons (.frames hframes _) <|
        .cons (.saveState (hplain _ (by decide)) _) .nil
    · cases c <;> simp [o, draft, Draft.Makes, eq_comm]
  have hnot : ∀ n < UInt32.size, ¬ IsNumeral n "4294967296".toList := by
    intro n hn hnumeral
    have hnone : count? UInt32.size "4294967296".toList = none := by decide
    rw [count?_eq_some_iff.2 ⟨hn, hnumeral⟩] at hnone
    exact absurd hnone (by simp)
  obtain ⟨⟨o', hparse, -, hsame, hconfig⟩, hbad⟩ := parse_writtenAs hwritten
  exact ⟨hwritten, by decide, ⟨o', hparse, hsame, hconfig⟩, hnot,
    hbad before .clockRate "01200" false after _ _ true rfl rfl (hplain _ (by decide)) hnot⟩

end Options

end CommandLine

end Chip8

import Chip8.Proofs.ArgumentItems
import Mathlib.Data.List.Forall2
import Mathlib.Data.List.Nodup

/-!
# The rules of an argument parser

A program declares its options and leaves reading them to an argument parser. `ArgumentParser` is a
parser for the options of the command line together with the rules that it follows.

* Items are taken one after the other, in whatever order they are written, and **the first one that
  is refused decides**.
* A value that is attached to its setting is as good as one that follows it.
* A setting takes the numerals below its limit, or any plain path, and no setting and no flag is
  taken twice.
* What is no option is refused before a value or a path in front of it is looked at.

The same options can be written in many ways that follow these rules: in any order, with a value
attached or apart, and with numbers in any numeral. `Item.Says` relates what is written to the
`Choice` that it stands for, and `Options.WrittenAs` lists what has to be said for all choices to be
made. By the rules an item whose subject is new is never refused, wherever it stands, and adds its
choice to those that were made before. So **what options are asked for depends on the choices
alone** (`parse_of_said`), and a number that cannot be read is refused wherever it stands
(`parse_of_not_isNumeral`), whatever the parser.
-/

namespace Chip8

namespace CommandLine

/-! ### Choices -/

/-- One choice that options are made of. -/
inductive Choice where
  | rom (path : String)
  | flag (f : Flag)
  | clockRate (n : UInt32)
  | seed (n : UInt64)
  | frames (n : UInt64)
  | loadState (path : String)
  | saveState (path : String)
  deriving DecidableEq, Repr

/-- What a choice is about. -/
def Choice.subject : Choice → Subject
  | rom _ => .rom
  | flag f => .flag f
  | clockRate _ => .setting .clockRate
  | seed _ => .setting .seed
  | frames _ => .setting .frames
  | loadState _ => .setting .loadState
  | saveState _ => .setting .saveState

/-- What stands behind the dashes of an option. -/
def Subject.name? : Subject → Option String
  | rom => none
  | flag f => some f.name
  | setting s => some s.name

/-- The choice is among those that a draft is made of. -/
def Draft.Makes (d : Draft) : Choice → Prop
  | .rom path => d.rom = some path
  | .flag f => f ∈ d.flags
  | .clockRate n => d.clockRate = some n
  | .seed n => d.seed = some n
  | .frames n => d.frames = some n
  | .loadState path => d.loadState = some path
  | .saveState path => d.saveState = some path

/-- The draft that comes to these options. -/
def Options.draft (o : Options) : Draft where
  rom := some o.rom
  flags := o.flags
  clockRate := o.clockRate
  seed := o.seed
  frames := o.frames
  loadState := o.loadState
  saveState := o.saveState

/-- An item says that a choice is made. Paths are written as they are, and numbers in any
numeral. -/
inductive Item.Says : Item → Choice → Prop
  | rom {path : String} (h : Plain path) : Says (.rom path) (.rom path)
  | flag (f : Flag) : Says (.flag f) (.flag f)
  | clockRate {n : UInt32} {text : String} (h : IsNumeral n.toNat text.toList) (attached : Bool) :
    Says (.setting .clockRate text attached) (.clockRate n)
  | seed {n : UInt64} {text : String} (h : IsNumeral n.toNat text.toList) (attached : Bool) :
    Says (.setting .seed text attached) (.seed n)
  | frames {n : UInt64} {text : String} (h : IsNumeral n.toNat text.toList) (attached : Bool) :
    Says (.setting .frames text attached) (.frames n)
  | loadState {path : String} (h : Plain path) (attached : Bool) :
    Says (.setting .loadState path attached) (.loadState path)
  | saveState {path : String} (h : Plain path) (attached : Bool) :
    Says (.setting .saveState path attached) (.saveState path)

/-- The items say every choice of the options once, in some order, and nothing else. -/
def Options.WrittenAs (o : Options) (items : List Item) : Prop :=
  ∃ said, List.Forall₂ Item.Says items said ∧ said.Nodup ∧ ∀ c, c ∈ said ↔ o.draft.Makes c

/-- The limit of the numbers that a setting takes. Paths are not numbers. -/
def Setting.limit? : Setting → Option Nat
  | .clockRate => some UInt32.size
  | .seed | .frames => some UInt64.size
  | .loadState | .saveState => none

theorem IsNumeral.plain {n : Nat} {text : String} (h : IsNumeral n text.toList) : Plain text := by
  obtain ⟨digits, hne, hdigits, -, hcs⟩ := h
  obtain ⟨c, rest, rfl⟩ := List.exists_cons_of_ne_nil hne
  have hc : c ≠ '-' := by
    rintro rfl
    exact absurd (hdigits '-' (by simp)) (by decide)
  constructor
  · rintro rfl
    rcases hcs with hcs | hcs <;> simp at hcs
  · rcases hcs with hcs | hcs <;> rw [hcs] <;> simp [hc]

theorem Item.Says.isPlain {i : Item} {c : Choice} (h : i.Says c) : i.IsPlain := by
  cases h with
  | flag f => trivial
  | rom h | loadState h _ | saveState h _ => exact h
  | clockRate h _ | seed h _ | frames h _ => exact h.plain

theorem Item.Says.subject_eq {i : Item} {c : Choice} (h : i.Says c) : i.subject = c.subject := by
  cases h <;> rfl

namespace Draft

variable {d : Draft} {c : Choice}

theorem not_makes_empty : ¬ ({} : Draft).Makes c := by
  cases c <;> simp [Makes]

/-- No two choices are about the same. -/
theorem Makes.unique {c' : Choice} (h : d.Makes c) (h' : d.Makes c')
    (hsubject : c.subject = c'.subject) : c = c' := by
  cases c <;> cases c' <;> simp_all [Makes, Choice.subject]

/-- Nothing that a draft is made of is about the subject. -/
def IsFresh (d : Draft) (x : Subject) : Prop :=
  ∀ c, d.Makes c → c.subject ≠ x

theorem isFresh_empty (x : Subject) : ({} : Draft).IsFresh x :=
  fun _ hmakes ↦ absurd hmakes not_makes_empty

/-- A draft that is made of the choices of some options comes to these options, but for the order
of their flags. -/
theorem options_of_makes {o : Options} (h : ∀ c, d.Makes c ↔ o.draft.Makes c) :
    d.options = .ok { o with flags := d.flags } := by
  have hrom : d.rom = some o.rom := (h (.rom o.rom)).2 rfl
  have hclock : d.clockRate = o.clockRate := Option.ext fun n ↦ h (.clockRate n)
  have hseed : d.seed = o.seed := Option.ext fun n ↦ h (.seed n)
  have hframes : d.frames = o.frames := Option.ext fun n ↦ h (.frames n)
  have hload : d.loadState = o.loadState := Option.ext fun p ↦ h (.loadState p)
  have hsave : d.saveState = o.saveState := Option.ext fun p ↦ h (.saveState p)
  rw [options, hrom, hclock, hseed, hframes, hload, hsave]

end Draft

theorem map_subject_of_said {items : List Item} {said : List Choice}
    (h : List.Forall₂ Item.Says items said) :
    items.map Item.subject = said.map Choice.subject := by
  induction h with
  | nil => rfl
  | cons hsay _ ih => rw [List.map_cons, List.map_cons, hsay.subject_eq, ih]

/-- No two choices that are said are about the same. -/
theorem Options.nodup_subjects {o : Options} {said : List Choice} (honce : said.Nodup)
    (hsaid : ∀ c, c ∈ said ↔ o.draft.Makes c) : (said.map Choice.subject).Nodup :=
  honce.map_on fun c hc c' hc' ↦ ((hsaid c).1 hc).unique ((hsaid c').1 hc')

theorem isPlain_of_said {items : List Item} {said : List Choice}
    (h : List.Forall₂ Item.Says items said) :
    ∀ i ∈ items, i.IsPlain := by
  induction h with
  | nil => simp
  | cons hsay _ ih => exact List.forall_mem_cons.2 ⟨hsay.isPlain, ih⟩

/-! ### The rules -/

/-- An argument parser for the options of the command line, and the rules that it follows. -/
structure ArgumentParser where
  /-- The options that a list of arguments asks for. -/
  parse : List String → Except Refusal Options
  /-- What an item adds to the options before it. -/
  take : Draft → Item → Except Refusal Draft
  /-- Items are taken one after the other, and the first one that is refused decides. -/
  parse_items : ∀ {items : List Item}, (∀ i ∈ items, i.IsPlain) →
    (items.map Item.subject).count .rom ≤ 1 →
    parse (items.flatMap Item.arguments) = items.foldlM take {} >>= Draft.options
  /-- What is no option is refused before what stands alone in front of it. -/
  parse_unknown : ∀ {items : List Item} {last : Item} {d : Draft} {name : String},
    (∀ i ∈ items ++ [last], i.IsPlain) → ((items ++ [last]).map Item.subject).count .rom ≤ 1 →
    items.foldlM take {} = .ok d → last.IsLate → name ≠ "" →
    named? (name.toList.takeWhile (· ≠ '=')) = none → ∀ rest,
    parse ((items ++ [last]).flatMap Item.arguments ++ ("--" ++ name) :: rest) =
      .error (.unknown ("--" ++ name))
  /-- A value is the same attached and apart. -/
  take_apart : ∀ d i, take d i.apart = take d i
  /-- An item on a new subject adds the choice that it says. -/
  take_said : ∀ {d : Draft} {i : Item} {c : Choice}, i.Says c → d.IsFresh c.subject →
    ∃ d', take d i.apart = .ok d' ∧ ∀ c', d'.Makes c' ↔ c' = c ∨ d.Makes c'
  /-- No setting and no flag is given twice. -/
  take_repeated : ∀ {d : Draft} {i : Item} {name : String}, ¬ d.IsFresh i.subject →
    i.subject.name? = some name → take d i.apart = .error (.repeated name)
  /-- A number is a numeral below the limit of its setting. -/
  take_notANumber : ∀ {d : Draft} {s : Setting} {limit : Nat} {text : String},
    s.limit? = some limit → Plain text → (∀ n < limit, ¬ IsNumeral n text.toList) →
    d.IsFresh (.setting s) → take d (.setting s text false) = .error (.notANumber s text)

namespace ArgumentParser

variable (p : ArgumentParser) {d : Draft} {items : List Item} {said : List Choice}

/-! ### What follows for every parser -/

theorem exists_take_of_said {i : Item} {c : Choice} (h : i.Says c) (hfresh : d.IsFresh c.subject) :
    ∃ d', p.take d i = .ok d' ∧ ∀ c', d'.Makes c' ↔ c' = c ∨ d.Makes c' := by
  rw [← p.take_apart]
  exact p.take_said h hfresh

/-- **Items with different subjects are taken in any order**, and what they add is what they
say. -/
theorem exists_foldlM_take (h : List.Forall₂ Item.Says items said)
    (honce : (said.map Choice.subject).Nodup) (hfresh : ∀ c ∈ said, d.IsFresh c.subject) :
    ∃ d', items.foldlM p.take d = .ok d' ∧ ∀ c, d'.Makes c ↔ c ∈ said ∨ d.Makes c := by
  induction h generalizing d with
  | nil => exact ⟨d, rfl, fun c ↦ by simp⟩
  | @cons i c items said hsay _ ih =>
    obtain ⟨hnew, honce'⟩ := List.nodup_cons.1 honce
    obtain ⟨d₁, hfirst, hmakes₁⟩ := p.exists_take_of_said hsay (hfresh c (by simp))
    -- the first choice is about none of the subjects that are still to come
    have hfresh₁ : ∀ c' ∈ said, d₁.IsFresh c'.subject := by
      intro c' hc' c'' hmakes hsubject
      rcases (hmakes₁ c'').1 hmakes with rfl | hold
      · exact hnew (hsubject ▸ List.mem_map_of_mem hc')
      · exact hfresh c' (by simp [hc']) c'' hold hsubject
    obtain ⟨d', hrest, hmakes⟩ := ih honce' hfresh₁
    refine ⟨d', ?_, fun c' ↦ ?_⟩
    · rw [List.foldlM_cons, hfirst]
      exact hrest
    · rw [hmakes, hmakes₁, List.mem_cons, or_assoc, or_left_comm]

/-- Items on different subjects are taken one after the other. -/
theorem parse_of_nodup (hplain : ∀ i ∈ items, i.IsPlain) (honce : (items.map Item.subject).Nodup) :
    p.parse (items.flatMap Item.arguments) = items.foldlM p.take {} >>= Draft.options :=
  p.parse_items hplain (List.nodup_iff_count_le_one.1 honce .rom)

/-- Items that say the choices of options come to these options. -/
theorem parse_of_said {o : Options} (hitems : List.Forall₂ Item.Says items said)
    (honce : said.Nodup) (hsaid : ∀ c, c ∈ said ↔ o.draft.Makes c) :
    ∃ flags, p.parse (items.flatMap Item.arguments) = .ok { o with flags := flags } ∧
      ∀ f, f ∈ flags ↔ f ∈ o.flags := by
  have hsubjects := Options.nodup_subjects honce hsaid
  obtain ⟨d, hfold, hmakes⟩ :=
    p.exists_foldlM_take hitems hsubjects fun c _ ↦ Draft.isFresh_empty c.subject
  have hsame (c : Choice) : d.Makes c ↔ o.draft.Makes c := by
    rw [hmakes, hsaid]
    exact or_iff_left Draft.not_makes_empty
  refine ⟨d.flags, ?_, fun f ↦ hsame (.flag f)⟩
  rw [p.parse_of_nodup (isPlain_of_said hitems) (by rwa [map_subject_of_said hitems]), hfold]
  exact Draft.options_of_makes hsame

/-- One number that cannot be read makes all be refused, whatever stands around it. -/
theorem parse_of_not_isNumeral {before after : List Item} {s : Setting} {text text' : String}
    {attached attached' : Bool} {limit : Nat}
    (hitems : List.Forall₂ Item.Says (before ++ .setting s text attached :: after) said)
    (hsubjects : (said.map Choice.subject).Nodup) (hlimit : s.limit? = some limit)
    (hplain : Plain text') (hnot : ∀ n < limit, ¬ IsNumeral n text'.toList) :
    p.parse ((before ++ .setting s text' attached' :: after).flatMap Item.arguments) =
      .error (.notANumber s text') := by
  have hbefore := (List.forall₂_take_append _ _ _ hitems.flip).flip
  obtain ⟨c, rest, hsay, -, hdrop⟩ :=
    List.forall₂_cons_left_iff.1 (List.forall₂_drop_append _ _ _ hitems.flip).flip
  have hsplit : said = said.take before.length ++ c :: rest := by
    rw [← hdrop, List.take_append_drop]
  have hplain' : ∀ i ∈ before ++ .setting s text' attached' :: after, i.IsPlain := by
    have hall := isPlain_of_said hitems
    simp only [List.forall_mem_append, List.forall_mem_cons] at hall ⊢
    exact ⟨hall.1, hplain, hall.2.2⟩
  -- the bad number is about the same as the good one in its place
  have honce : ((before ++ .setting s text' attached' :: after).map Item.subject).Nodup := by
    have hnodup := hsubjects
    rw [← map_subject_of_said hitems, List.map_append] at hnodup
    rw [List.map_append]
    exact hnodup
  -- the items before the bad number are taken without it
  rw [hsplit, List.map_append, List.map_cons, List.nodup_append] at hsubjects
  obtain ⟨hfirst, -, hapart⟩ := hsubjects
  obtain ⟨d, hfold, hmakes⟩ :=
    p.exists_foldlM_take hbefore hfirst fun c _ ↦ Draft.isFresh_empty c.subject
  have hfresh : d.IsFresh (.setting s) := by
    intro c' hmakes' hsubject
    have hmem := ((hmakes c').1 hmakes').resolve_right Draft.not_makes_empty
    refine hapart _ (List.mem_map_of_mem hmem) c.subject (by simp) ?_
    rw [hsubject, ← hsay.subject_eq]
    rfl
  have hbad : p.take d (.setting s text' attached') = .error (.notANumber s text') :=
    (p.take_apart d _).symm.trans (p.take_notANumber hlimit hplain hnot hfresh)
  rw [p.parse_of_nodup hplain' honce, List.foldlM_append, hfold]
  show ((p.take d (.setting s text' attached') >>= fun d' ↦ after.foldlM p.take d') >>= _) = _
  rw [hbad]
  rfl

end ArgumentParser

end CommandLine

end Chip8

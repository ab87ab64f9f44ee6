import Chip8.CommandLine.Options
import Mathlib.Data.List.TakeWhile

/-!
# Arguments as items

An `Item` is one thing that is written on a command line: a path, a flag, or a setting with its
value, which is attached by an equals sign or follows as an argument of its own.

Arguments are settled late, so what stands alone is checked only when the next argument has been
recognised. `parse_flatMap` does away with this: **for arguments that are made of items, reading is
a fold** over the items, which settles one after the other. It asks that texts are plain, so that no
value is taken for an option, and that there is at most one path. That settling is late shows only
behind the items: an argument that is no option is refused whatever the value or the path in front
of it is like (`parse_of_unknown`).
-/

namespace Chip8

namespace CommandLine

/-! ### Items -/

/-- A text that can be a path or a value of its own: it has a character, and does not start with a
dash. -/
def Plain (text : String) : Prop :=
  text ≠ "" ∧ text.toList.head? ≠ some '-'

/-- One thing that is written on a command line. A value is attached to its setting by an equals
sign, or follows as an argument of its own. -/
inductive Item where
  | rom (path : String)
  | flag (f : Flag)
  | setting (s : Setting) (text : String) (attached : Bool)
  deriving DecidableEq, Repr

/-- What options are about. -/
inductive Subject where
  | rom
  | flag (f : Flag)
  | setting (s : Setting)
  deriving DecidableEq, Repr

namespace Item

/-- The arguments that an item is written with. -/
def arguments : Item → List String
  | rom path => [path]
  | flag f => ["--" ++ f.name]
  | setting s text true => ["--" ++ (s.name ++ "=" ++ text)]
  | setting s text false => ["--" ++ s.name, text]

/-- What an item is about. -/
def subject : Item → Subject
  | rom _ => .rom
  | flag f => .flag f
  | setting s _ _ => .setting s

/-- The item with its value as an argument of its own. -/
def apart : Item → Item
  | setting s text _ => setting s text false
  | i => i

/-- The item ends with a value or a path that stands alone, and is settled late. -/
def IsLate : Item → Prop
  | rom _ => True
  | flag _ => False
  | setting _ _ attached => attached = false

/-- Every text of an item is plain. -/
def IsPlain : Item → Prop
  | rom path => Plain path
  | flag _ => True
  | setting _ text _ => Plain text

end Item

/-! ### Reading an item -/

theorem Plain.ne_dashes {text : String} (h : Plain text) : text ≠ "--" := by
  rintro rfl
  exact h.2 (by decide)

namespace Draft

/-- Settle an item. -/
def apply (d : Draft) : Item → Except Refusal Draft
  | .rom path => d.settle (.rom path)
  | .flag f => d.raise f
  | .setting s text _ => d.set s text

/-- What the arguments of an item come to when all before it is settled: a path and a value that
follows its setting are still pending. -/
def read (d : Draft) : Item → Except Refusal Reading
  | .rom path => .ok ⟨d, .rom path⟩
  | .flag f => do
    let d' ← d.raise f
    return ⟨d', .nothing⟩
  | .setting s text true => do
    let d' ← d.set s text
    return ⟨d', .nothing⟩
  | .setting s text false => .ok ⟨d, .value s text⟩

variable {d d' : Draft}

/-- However an item is read, settling it is the same. -/
theorem read_settled (d : Draft) (i : Item) : (d.read i >>= fun r ↦ r.settled) = d.apply i := by
  cases i with
  | rom path => rfl
  | flag f => rw [read, apply]; rcases d.raise f with e | d' <;> rfl
  | setting s text attached =>
    cases attached with
    | true => rw [read, apply]; rcases d.set s text with e | d' <;> rfl
    | false => rfl

theorem rom_raise {f : Flag} (h : d.raise f = .ok d') : d'.rom = d.rom := by
  rw [raise] at h
  split at h
  · exact absurd h (by simp)
  · rw [← Except.ok.inj h]

theorem rom_assign {s : Setting} {text : String} (h : d.assign s text = .ok d') :
    d'.rom = d.rom := by
  -- a value that is accepted goes into a part of its own
  cases s with
  | clockRate | seed | frames =>
    rw [assign] at h
    unfold number at h
    split at h
    · rw [← Except.ok.inj h]
    · exact absurd h (by simp [bind, Except.bind])
  | loadState | saveState =>
    rw [assign, path] at h
    split at h
    · exact absurd h (by simp [bind, Except.bind])
    · rw [← Except.ok.inj h]

theorem rom_set {s : Setting} {text : String} (h : d.set s text = .ok d') : d'.rom = d.rom := by
  rw [set] at h
  split at h
  · exact absurd h (by simp)
  · exact rom_assign h

end Draft

namespace Reading

variable {r : Reading} {d : Draft}

/-- A plain text is the value that is awaited, or else a path. -/
theorem read_of_plain {text : String} (h : Plain text) :
    r.read text = match r.pending with
      | .awaiting s => .ok { r with pending := .value s text }
      | _ => r.readPath text := by
  unfold read
  split
  next option heq => exact absurd (by rw [heq]; rfl) h.2
  next rest heq => exact absurd (by rw [heq]; rfl) h.2
  next c rest heq => exact absurd (by rw [heq]; rfl) h.2
  next => rfl

theorem readAll_cons {argument : String} (h : argument ≠ "--") (rest : List String) :
    readAll (argument :: rest) r = r.read argument >>= readAll rest := by
  rw [readAll, if_neg h]

/-- An argument with two dashes in front is an option. -/
theorem read_dashes (r : Reading) (option : String) :
    r.read ("--" ++ option) =
      r.readOption ("--" ++ option) (option.toList.takeWhile (· ≠ '='))
        (attached? option.toList) := by
  have hlist : ("--" ++ option).toList = '-' :: '-' :: option.toList := by simp
  rw [read, hlist]
  rfl

/-- The name of an option ends with the first equals sign, behind which its value stands. -/
theorem takeWhile_name (name value : List Char) (h : '=' ∉ name) :
    (name ++ '=' :: value).takeWhile (· ≠ '=') = name ∧
      attached? (name ++ '=' :: value) = some (String.ofList value) := by
  have hname : ∀ c ∈ name, decide (c ≠ '=') = true := fun c hc ↦
    decide_eq_true fun heq ↦ h (heq ▸ hc)
  constructor
  · rw [List.takeWhile_append_of_pos hname]
    simp
  · rw [attached?, List.dropWhile_append_of_pos hname]
    simp

/-- Without an equals sign all is name. -/
theorem takeWhile_name_alone (name : List Char) (h : '=' ∉ name) :
    name.takeWhile (· ≠ '=') = name ∧ attached? name = none := by
  have hname : ∀ c ∈ name, decide (c ≠ '=') = true := fun c hc ↦
    decide_eq_true fun heq ↦ h (heq ▸ hc)
  constructor
  · exact List.takeWhile_eq_self_iff.2 hname
  · rw [attached?, List.dropWhile_eq_nil_iff.2 hname]

theorem read_flag (r : Reading) (f : Flag) :
    r.read ("--" ++ f.name) = r.settled >>= fun d ↦ d.read (.flag f) := by
  obtain ⟨hname, hvalue⟩ := takeWhile_name_alone f.name.toList (by cases f <;> decide)
  rw [read_dashes, hname, hvalue]
  unfold readOption
  rw [named?_flag]
  rfl

theorem read_setting (r : Reading) (s : Setting) :
    r.read ("--" ++ s.name) = r.settled >>= fun d ↦ .ok ⟨d, .awaiting s⟩ := by
  obtain ⟨hname, hvalue⟩ := takeWhile_name_alone s.name.toList (by cases s <;> decide)
  rw [read_dashes, hname, hvalue]
  unfold readOption
  rw [named?_setting]
  rfl

theorem read_attached (r : Reading) (s : Setting) (text : String) :
    r.read ("--" ++ (s.name ++ "=" ++ text)) =
      r.settled >>= fun d ↦ d.read (.setting s text true) := by
  obtain ⟨hname, hvalue⟩ := takeWhile_name s.name.toList text.toList
    (by cases s <;> decide)
  have hlist : (s.name ++ "=" ++ text).toList = s.name.toList ++ '=' :: text.toList := by simp
  rw [read_dashes, hlist, hname, hvalue, String.ofList_toList]
  unfold readOption
  rw [named?_setting]
  rfl

/-- **The arguments of an item settle what is pending**, and then come to what the item comes to. -/
theorem readAll_arguments {i : Item} (hplain : i.IsPlain) (hpending : ∀ s, r.pending ≠ .awaiting s)
    (hrom : r.hasRom = true → i.subject ≠ .rom) (rest : List String) :
    readAll (i.arguments ++ rest) r = r.settled >>= fun d ↦ d.read i >>= readAll rest := by
  cases i with
  | rom path =>
    have hfirst : r.hasRom = false := Bool.eq_false_iff.2 fun h ↦ hrom h rfl
    have hread : r.read path = r.settled >>= fun d ↦ .ok ⟨d, .rom path⟩ := by
      rw [read_of_plain hplain]
      split
      next s hs => exact absurd hs (hpending s)
      next => rw [readPath, if_neg (by rw [hfirst]; simp)]; rfl
    rw [Item.arguments, List.singleton_append, readAll_cons hplain.ne_dashes, hread]
    rcases r.settled with e | d <;> rfl
  | flag f =>
    have hne : "--" ++ f.name ≠ "--" := by cases f <;> decide
    rw [Item.arguments, List.singleton_append, readAll_cons hne, read_flag]
    rcases r.settled with e | d <;> rfl
  | setting s text attached =>
    cases attached with
    | true =>
      have hne : "--" ++ (s.name ++ "=" ++ text) ≠ "--" := by simp
      rw [Item.arguments, List.singleton_append, readAll_cons hne, read_attached]
      rcases r.settled with e | d <;> rfl
    | false =>
      have hne : "--" ++ s.name ≠ "--" := by cases s <;> decide
      show readAll (("--" ++ s.name) :: text :: rest) r = _
      rw [readAll_cons hne, read_setting]
      rcases r.settled with e | d
      · rfl
      · show readAll (text :: rest) ⟨d, .awaiting s⟩ = _
        rw [readAll_cons hplain.ne_dashes, read_of_plain hplain]
        rfl

/-- An item that is settled at once leaves nothing pending. -/
theorem of_settled_at_once {x : Except Refusal Draft}
    (h : (x >>= fun d' ↦ pure ⟨d', .nothing⟩) = .ok r) : ∃ d', x = .ok d' ∧ r = ⟨d', .nothing⟩ := by
  rcases x with e | d'
  · exact absurd h (by simp [bind, Except.bind])
  · exact ⟨d', rfl, (Except.ok.inj h).symm⟩

/-- What an item comes to waits for no value, and has a path only if there was one or the item is
one. -/
theorem of_read {i : Item} (h : d.read i = .ok r) :
    (∀ s, r.pending ≠ .awaiting s) ∧
      (r.hasRom = true → i.subject = .rom ∨ d.rom.isSome = true) := by
  cases i with
  | rom path =>
    obtain rfl := Except.ok.inj h
    exact ⟨fun s ↦ by simp, fun _ ↦ .inl rfl⟩
  | flag f =>
    obtain ⟨d', hd, rfl⟩ := of_settled_at_once h
    refine ⟨fun s ↦ by simp, fun hrom ↦ .inr ?_⟩
    rw [← Draft.rom_raise hd]
    exact hrom
  | setting s text attached =>
    cases attached with
    | true =>
      obtain ⟨d', hd, rfl⟩ := of_settled_at_once h
      refine ⟨fun s ↦ by simp, fun hrom ↦ .inr ?_⟩
      rw [← Draft.rom_set hd]
      exact hrom
    | false =>
      obtain rfl := Except.ok.inj h
      exact ⟨fun s ↦ by simp, .inr⟩

/-- When all is settled there is a path only if there was one before. -/
theorem hasRom_of_settled (h : r.settled = .ok d) (hd : d.rom.isSome = true) : r.hasRom = true := by
  obtain ⟨draft, pending⟩ := r
  cases pending with
  | rom path => rfl
  | nothing =>
    obtain rfl := Except.ok.inj h
    exact hd
  | awaiting s => exact absurd h (by simp [settled, Draft.settle])
  | value s text =>
    have hset : draft.set s text = .ok d := h
    rw [Draft.rom_set hset] at hd
    exact hd

/-- **The arguments of items settle all items but the last**, and then come to what the last one
comes to. At most one item is a path, so that no path comes after another. -/
theorem readAll_flatMap_append {items : List Item} {last : Item}
    (hplain : ∀ i ∈ items ++ [last], i.IsPlain)
    (honce : ((items ++ [last]).map Item.subject).count .rom ≤ 1)
    (hpending : ∀ s, r.pending ≠ .awaiting s)
    (hrom : r.hasRom = true → Subject.rom ∉ (items ++ [last]).map Item.subject)
    (rest : List String) :
    readAll ((items ++ [last]).flatMap Item.arguments ++ rest) r =
      r.settled >>= fun d ↦ items.foldlM Draft.apply d >>= fun d' ↦
        d'.read last >>= readAll rest := by
  -- what is carried along: nothing waits for a value, and the path is given or still to come
  induction items generalizing r with
  | nil =>
    have hlast := readAll_arguments (hplain last (by simp)) hpending
      (fun h heq ↦ hrom h (by simp [heq])) rest
    simpa using hlast
  | cons i items ih =>
    have hfirst := readAll_arguments (hplain i (by simp)) hpending
      (fun h heq ↦ hrom h (by simp [heq])) ((items ++ [last]).flatMap Item.arguments ++ rest)
    rw [List.cons_append, List.flatMap_cons, List.append_assoc, hfirst]
    rcases hd : r.settled with e | d
    · rfl
    · show (d.read i >>= readAll _) =
        (d.apply i >>= fun d' ↦ items.foldlM Draft.apply d') >>= fun d' ↦
          d'.read last >>= readAll rest
      rw [bind_assoc, ← Draft.read_settled]
      rcases hr : d.read i with e | r'
      · rfl
      · obtain ⟨hpending', hrom'⟩ := of_read hr
        rw [List.cons_append, List.map_cons] at honce
        refine ih (fun j hj ↦ hplain j (by simp [hj]))
          (Nat.le_trans List.count_le_count_cons honce) hpending' fun h hmem ↦ ?_
        rcases hrom' h with heq | hsome
        · have hpos := List.count_pos_iff.2 hmem
          rw [heq, List.count_cons_self] at honce
          omega
        · exact hrom (hasRom_of_settled hd hsome) (List.mem_cons_of_mem _ hmem)

/-- The same from the start, where nothing is pending and nothing settled. -/
theorem readAll_items {items : List Item} {last : Item} (hplain : ∀ i ∈ items ++ [last], i.IsPlain)
    (honce : ((items ++ [last]).map Item.subject).count .rom ≤ 1) (rest : List String) :
    readAll ((items ++ [last]).flatMap Item.arguments ++ rest) {} =
      items.foldlM Draft.apply {} >>= fun d ↦ d.read last >>= readAll rest :=
  readAll_flatMap_append hplain honce (fun s ↦ by simp) (fun h ↦ absurd h (by simp [hasRom])) rest

end Reading

/-- **For arguments that are made of items, parsing is a fold.** -/
theorem parse_flatMap {items : List Item} (hplain : ∀ i ∈ items, i.IsPlain)
    (honce : (items.map Item.subject).count .rom ≤ 1) :
    Options.parse (items.flatMap Item.arguments) =
      items.foldlM Draft.apply {} >>= Draft.options := by
  rcases List.eq_nil_or_concat items with rfl | ⟨items, last, rfl⟩
  · rfl
  · rw [List.concat_eq_append] at *
    have hread := Reading.readAll_items hplain honce []
    rw [List.append_nil] at hread
    rw [Options.parse, hread, List.foldlM_append]
    rcases items.foldlM Draft.apply {} with e | d
    · rfl
    · -- at the end the last item is settled as the ones before it were
      show (d.read last >>= _) >>= _ = (d.apply last >>= _) >>= _
      rw [← Draft.read_settled]
      rcases d.read last with e | r
      · rfl
      · show (r.settled >>= Draft.options) = (r.settled >>= pure) >>= Draft.options
        rw [bind_pure]

/-- **What is no option is refused before what is settled late**, and what comes after it does not
count. -/
theorem parse_of_unknown {items : List Item} {last : Item} {d : Draft} {name : String}
    (hplain : ∀ i ∈ items ++ [last], i.IsPlain)
    (honce : ((items ++ [last]).map Item.subject).count .rom ≤ 1)
    (hitems : items.foldlM Draft.apply {} = .ok d) (hlate : last.IsLate) (hne : name ≠ "")
    (hname : named? (name.toList.takeWhile (· ≠ '=')) = none) (rest : List String) :
    Options.parse ((items ++ [last]).flatMap Item.arguments ++ ("--" ++ name) :: rest) =
      .error (.unknown ("--" ++ name)) := by
  have hread (r : Reading) :
      Reading.readAll (("--" ++ name) :: rest) r = .error (.unknown ("--" ++ name)) := by
    rw [Reading.readAll_cons (by simpa using hne), Reading.read_dashes]
    unfold Reading.readOption
    rw [hname]
    rfl
  rw [Options.parse, Reading.readAll_items hplain honce, hitems]
  -- the last item is still pending, and what is pending has no influence
  cases last with
  | rom path => exact congrArg (· >>= _) (hread _)
  | flag f => exact hlate.elim
  | setting s text attached =>
    obtain rfl : attached = false := hlate
    exact congrArg (· >>= _) (hread _)

end CommandLine

end Chip8

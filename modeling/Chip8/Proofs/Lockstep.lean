import Mathlib.Data.List.Forall2
import Chip8.Proofs.History

/-!
# Machines in lockstep

Two machines that are made the same calls are compared by a relation between them. `LockstepWhile`
is what the relation has to be kept by: a step, a tick of two running machines, and other keys. It
also says what the relation has to fix, which is the length of a frame and the screen. From these
parts `LockstepWhile.performAll` gives that **every run keeps the relation and every two answers
agree**.

Answers agree if they are the same. Faults and logs may differ, as far as two further relations let
them: some comparisons are about machines of which one may stand at other addresses. Steps need to
be compared only in the states that a guard admits. What is proved of a run then holds **as long
as** the first machine executes nothing else, and nothing has to be known about the second one.

`Lockstep` is the special case without a guard in which logs are not compared.
-/

namespace Chip8

/-! ### Answers that agree -/

/-- Both calls succeed with the same answer, or both fail with related faults. -/
inductive AnswersAgree {α : Type} (F : Fault → Fault → Prop) :
    Except Fault α → Except Fault α → Prop
  | ok (a : α) : AnswersAgree F (.ok a) (.ok a)
  | error {f g : Fault} (h : F f g) : AnswersAgree F (.error f) (.error g)

/-- Answers that are the same, or related faults. -/
inductive Response.Agrees (F : Fault → Fault → Prop) : Response → Response → Prop
  | same (r : Response) : Agrees F r r
  | faulted {f g : Fault} (h : F f g) : Agrees F (.faulted f) (.faulted g)

theorem AnswersAgree.ofExcept {α : Type} {F : Fault → Fault → Prop} {x y : Except Fault α}
    (h : AnswersAgree F x y) (accepted : α → Response) :
    Response.Agrees F (.ofExcept .faulted accepted x) (.ofExcept .faulted accepted y) := by
  cases h with
  | ok a => exact .same _
  | error h => exact .faulted h

theorem answersAgree_of_eq {α : Type} {x y : Except Fault α} (h : x = y) :
    AnswersAgree Eq x y := by
  subst h
  cases x with
  | ok a => exact .ok a
  | error f => exact .error rfl

theorem Response.Agrees.eq {r s : Response} (h : Agrees Eq r s) : r = s := by
  cases h with
  | same => rfl
  | faulted h => rw [h]

namespace Machine

/-- Two series made as many calls before they ended, in the same way. -/
structure Tally.Agrees (F : Fault → Fault → Prop) (s t : Tally) : Prop where
  completed : s.completed = t.completed
  fault? : Option.Rel F s.fault? t.fault?

theorem Tally.Agrees.eq {s t : Tally} (h : Tally.Agrees Eq s t) : s = t := by
  obtain ⟨completed, fault?⟩ := s
  obtain ⟨completed', fault?'⟩ := t
  obtain rfl : completed = completed' := h.completed
  have hfault : Option.Rel Eq fault? fault?' := h.fault?
  cases hfault with
  | some heq => rw [heq]
  | none => rfl

/-- Outcomes with answers, logs and machines that agree. -/
structure OutcomesAgree {α : Type} (F : Fault → Fault → Prop)
    (L : Array Record → Array Record → Prop) (R : Machine → Machine → Prop)
    (o p : Outcome (Except Fault α)) : Prop where
  answer : AnswersAgree F o.result p.result
  log : L o.log p.log
  machine : R o.machine p.machine

/-- Two logs agree if their parts do. -/
structure LogRelation (L : Array Record → Array Record → Prop) : Prop where
  nil : L #[] #[]
  append : ∀ {x x' y y'}, L x x' → L y y' → L (x ++ y) (x' ++ y')

theorem logRelation_eq : LogRelation Eq where
  nil := rfl
  append h h' := by rw [h, h']

/-! ### The parts of a run -/

/-- A relation between two machines that is kept by all that can happen to both of them, as long as
the first one executes instructions only in states that the guard `G` admits. -/
structure LockstepWhile (G : State → Prop) (F : Fault → Fault → Prop)
    (L : Array Record → Array Record → Prop) (R : Machine → Machine → Prop) : Prop where
  logs : LogRelation L
  step : ∀ {a b}, R a b → (a.step.result = .ok () → G a.state) → OutcomesAgree F L R a.step b.step
  tick : ∀ {a b}, R a b → a.fault? = none → b.fault? = none → R a.tick b.tick
  keys : ∀ {a b}, R a b → ∀ k, R (a.withKeypad k) (b.withKeypad k)
  stepsPerFrame : ∀ {a b}, R a b → a.config.stepsPerFrame = b.config.stepsPerFrame
  screen : ∀ {a b}, R a b → a.screen = b.screen

/-- A relation between two machines that is kept by all that can happen to both of them. -/
structure Lockstep (F : Fault → Fault → Prop) (R : Machine → Machine → Prop) : Prop where
  step : ∀ {a b}, R a b →
    AnswersAgree F a.step.result b.step.result ∧ R a.step.machine b.step.machine
  tick : ∀ {a b}, R a b → a.fault? = none → b.fault? = none → R a.tick b.tick
  keys : ∀ {a b}, R a b → ∀ k, R (a.withKeypad k) (b.withKeypad k)
  stepsPerFrame : ∀ {a b}, R a b → a.config.stepsPerFrame = b.config.stepsPerFrame
  screen : ∀ {a b}, R a b → a.screen = b.screen

variable {G : State → Prop} {F : Fault → Fault → Prop} {L : Array Record → Array Record → Prop}
  {R : Machine → Machine → Prop} {a b : Machine}

/-- The guard admits every state in which events have executed an instruction. -/
def Admits (G : State → Prop) (es : List Event) : Prop :=
  ∀ s, .executed s ∈ es → G s

theorem admits_append {es fs : List Event} :
    Admits G (es ++ fs) ↔ Admits G es ∧ Admits G fs := by
  simp only [Admits, List.mem_append, or_imp, forall_and]

theorem Admits.head {s : State} {es : List Event} (h : Admits G (.executed s :: es)) : G s :=
  h s List.mem_cons_self

theorem Admits.tail {e : Event} {es : List Event} (h : Admits G (e :: es)) : Admits G es :=
  fun s hs ↦ h s (List.mem_cons_of_mem e hs)

/-- **What related steps keep, related series of steps keep**, as far as a fault lets them come, and
the two series end alike. -/
theorem steps_related (hL : LogRelation L)
    (hstep : ∀ {a b}, R a b → (a.step.result = .ok () → G a.state) →
      OutcomesAgree F L R a.step b.step)
    (h : R a b) (n : Nat) (hG : Admits G (a.stepEvents n)) :
    let o := a.steps n
    let p := b.steps n
    Tally.Agrees F o.result p.result ∧ L o.log p.log ∧ R o.machine p.machine := by
  induction n generalizing a b with
  | zero => exact ⟨⟨rfl, .none⟩, hL.nil, h⟩
  | succ n ih =>
    have hguard : a.step.result = .ok () → G a.state := by
      intro hok
      rw [stepEvents_succ_of_ok hok] at hG
      exact hG.head
    obtain ⟨hanswer, hlog, hnext⟩ := hstep h hguard
    generalize ha : a.step.result = x at hanswer
    generalize hb : b.step.result = y at hanswer
    cases hanswer with
    | ok _ =>
      rw [stepEvents_succ_of_ok ha] at hG
      obtain ⟨⟨hcompleted, hfault⟩, hrest, hlast⟩ := ih hnext hG.tail
      rw [steps_succ_of_ok ha, steps_succ_of_ok hb]
      exact ⟨⟨congrArg (1 + ·) hcompleted, hfault⟩, hL.append hlog hrest, hlast⟩
    | error hfault =>
      rw [steps_succ_of_error ha, steps_succ_of_error hb]
      exact ⟨⟨rfl, .some hfault⟩, hlog, hnext⟩

namespace LockstepWhile

/-- Frames of equal length end alike. -/
theorem runFrame (hR : LockstepWhile G F L R) (h : R a b) (hG : Admits G (a.events .runFrame)) :
    OutcomesAgree F L R a.runFrame b.runFrame := by
  have hn : a.config.stepsPerFrame = b.config.stepsPerFrame := hR.stepsPerFrame h
  have hG' : Admits G (a.stepEvents a.config.stepsPerFrame) := by
    rw [events] at hG
    split at hG
    · exact (admits_append.1 hG).1
    · exact hG
  obtain ⟨⟨-, hfault⟩, hlog, hlast⟩ := steps_related hR.logs hR.step h _ hG'
  generalize ha : (a.steps a.config.stepsPerFrame).result.fault? = x at hfault
  generalize hb : (b.steps a.config.stepsPerFrame).result.fault? = y at hfault
  rw [hn] at hb
  cases hfault with
  | none =>
    have hleft := fault?_steps a a.config.stepsPerFrame_pos
    have hright := fault?_steps b b.config.stepsPerFrame_pos
    rw [runFrame_of_ok ha, runFrame_of_ok hb, ← hn]
    rw [← hn] at hb hright
    refine ⟨?_, hlog, hR.tick hlast (hleft.trans ha) (hright.trans hb)⟩
    show AnswersAgree F (.ok _) (.ok _)
    rw [hR.screen hlast]
    exact .ok _
  | some hfault =>
    rw [runFrame_of_error ha, runFrame_of_error hb, ← hn]
    exact ⟨.error hfault, hlog, hlast⟩

theorem setKeys (hR : LockstepWhile G F L R) (h : R a b) (keys : List Bool) :
    (a.setKeys keys).result = (b.setKeys keys).result ∧
      L (a.setKeys keys).log (b.setKeys keys).log ∧
      R (a.setKeys keys).machine (b.setKeys keys).machine := by
  rw [Machine.setKeys, Machine.setKeys]
  rcases Keypad.ofList keys with e | k
  · exact ⟨rfl, hR.logs.nil, h⟩
  · exact ⟨rfl, hR.logs.nil, hR.keys h k⟩

/-! ### Whole runs -/

/-- Calls that run two machines, change their keys or show their screens are answered alike. -/
theorem perform (hR : LockstepWhile G F L R) (h : R a b) {c : Call}
    (hc : c.replacesState = false) (hs : c ≠ .snapshot) (hG : Admits G (a.events c)) :
    Response.Agrees F (a.perform c).result (b.perform c).result ∧
      L (a.perform c).log (b.perform c).log ∧ R (a.perform c).machine (b.perform c).machine := by
  cases c with
  | step =>
    have hguard : a.step.result = .ok () → G a.state := by
      intro hok
      rw [events, stepEvents_succ_of_ok hok] at hG
      exact hG.head
    obtain ⟨hanswer, hlog, hnext⟩ := hR.step h hguard
    exact ⟨hanswer.ofExcept fun _ ↦ .done, hlog, hnext⟩
  | runFrame =>
    obtain ⟨hanswer, hlog, hnext⟩ := hR.runFrame h hG
    exact ⟨hanswer.ofExcept .shown, hlog, hnext⟩
  | setKeys keys =>
    obtain ⟨hresult, hlog, hnext⟩ := hR.setKeys h keys
    refine ⟨?_, hlog, hnext⟩
    show Response.Agrees F (.ofExcept _ _ (a.setKeys keys).result) (.ofExcept _ _ _)
    rw [hresult]
    exact .same _
  | screen =>
    refine ⟨?_, hR.logs.nil, h⟩
    show Response.Agrees F (.shown a.screen) (.shown b.screen)
    rw [hR.screen h]
    exact .same _
  | snapshot => exact absurd rfl hs
  | load _ _ | reset _ | restore _ => exact absurd hc (by simp [Call.replacesState])

end LockstepWhile

/-- **What related calls keep, related runs keep**, and every two answers agree. -/
theorem performAll_related {K : Call → Call → Prop} (hL : LogRelation L)
    (hcall : ∀ {a b c d}, R a b → K c d → Admits G (a.events c) →
      Response.Agrees F (a.perform c).result (b.perform d).result ∧
        L (a.perform c).log (b.perform d).log ∧ R (a.perform c).machine (b.perform d).machine)
    (h : R a b) {calls calls' : List Call} (hcalls : List.Forall₂ K calls calls')
    (hG : Admits G (a.history calls)) :
    let o := a.performAll calls
    let p := b.performAll calls'
    List.Forall₂ (Response.Agrees F) o.result p.result ∧ L o.log p.log ∧
      R o.machine p.machine := by
  induction hcalls generalizing a b with
  | nil => exact ⟨.nil, hL.nil, h⟩
  | cons hfirst _ ih =>
    rw [history, admits_append] at hG
    obtain ⟨hanswer, hlog, hnext⟩ := hcall h hfirst hG.1
    obtain ⟨hanswers, hrest, hlast⟩ := ih hnext hG.2
    exact ⟨.cons hanswer hanswers, hL.append hlog hrest, hlast⟩

/-- If only equal faults are related, answers that agree are the same. -/
theorem eq_of_forall₂_agrees {rs rs' : List Response}
    (h : List.Forall₂ (Response.Agrees Eq) rs rs') : rs = rs' := by
  rw [← List.forall₂_eq_eq_eq]
  exact h.imp fun _ _ ↦ Response.Agrees.eq

/-- **Every run keeps the relation, and every two answers agree.** -/
theorem LockstepWhile.performAll (hR : LockstepWhile G F L R) (h : R a b) {calls : List Call}
    (hc : ∀ c ∈ calls, c.replacesState = false ∧ c ≠ .snapshot)
    (hG : Admits G (a.history calls)) :
    let o := a.performAll calls
    let p := b.performAll calls
    List.Forall₂ (Response.Agrees F) o.result p.result ∧ L o.log p.log ∧
      R o.machine p.machine := by
  refine performAll_related (K := fun c d ↦ c = d ∧ c.replacesState = false ∧ c ≠ .snapshot) hR.logs
    ?_ h (List.forall₂_same.2 fun c hmem ↦ ⟨rfl, hc c hmem⟩) hG
  rintro a b c _ hab ⟨rfl, hkind, hs⟩ hG
  exact hR.perform hab hkind hs hG

/-! ### Runs without a guard -/

namespace Lockstep

/-- A relation that is always kept is kept under any guard. -/
theorem lockstepWhile (hR : Lockstep F R) : LockstepWhile (fun _ ↦ True) F (fun _ _ ↦ True) R where
  logs := ⟨trivial, fun _ _ ↦ trivial⟩
  step h _ := ⟨(hR.step h).1, trivial, (hR.step h).2⟩
  tick := hR.tick
  keys := hR.keys
  stepsPerFrame := hR.stepsPerFrame
  screen := hR.screen

theorem runFrame (hR : Lockstep F R) (h : R a b) :
    AnswersAgree F a.runFrame.result b.runFrame.result ∧
      R a.runFrame.machine b.runFrame.machine := by
  obtain ⟨hanswer, -, hnext⟩ := hR.lockstepWhile.runFrame h fun _ _ ↦ trivial
  exact ⟨hanswer, hnext⟩

/-- Series of frames are compared frame by frame, until a fault ends both. -/
theorem runFrames (hR : Lockstep F R) (h : R a b) (n : Nat) :
    Tally.Agrees F (a.runFrames n).result (b.runFrames n).result ∧
      R (a.runFrames n).machine (b.runFrames n).machine := by
  induction n generalizing a b with
  | zero => exact ⟨⟨rfl, .none⟩, h⟩
  | succ n ih =>
    obtain ⟨hanswer, hnext⟩ := hR.runFrame h
    rw [Machine.runFrames, Machine.runFrames]
    generalize ha : a.runFrame.result = x at hanswer
    generalize hb : b.runFrame.result = y at hanswer
    cases hanswer with
    | ok _ =>
      obtain ⟨⟨hcompleted, hfault⟩, hlast⟩ := ih hnext
      rw [series_succ_of_ok ha, series_succ_of_ok hb]
      exact ⟨⟨congrArg (1 + ·) hcompleted, hfault⟩, hlast⟩
    | error hfault =>
      rw [series_succ_of_error ha, series_succ_of_error hb]
      exact ⟨⟨rfl, .some hfault⟩, hnext⟩

theorem perform (hR : Lockstep F R) (h : R a b) {c : Call} (hc : c.replacesState = false)
    (hs : c ≠ .snapshot) :
    Response.Agrees F (a.perform c).result (b.perform c).result ∧
      R (a.perform c).machine (b.perform c).machine := by
  obtain ⟨hanswer, -, hnext⟩ := hR.lockstepWhile.perform h hc hs fun _ _ ↦ trivial
  exact ⟨hanswer, hnext⟩

theorem performAll (hR : Lockstep F R) (h : R a b) {calls : List Call}
    (hc : ∀ c ∈ calls, c.replacesState = false ∧ c ≠ .snapshot) :
    List.Forall₂ (Response.Agrees F) (a.performAll calls).result (b.performAll calls).result ∧
      R (a.performAll calls).machine (b.performAll calls).machine := by
  obtain ⟨hanswers, -, hlast⟩ := hR.lockstepWhile.performAll h hc fun _ _ ↦ trivial
  exact ⟨hanswers, hlast⟩

end Lockstep

end Machine

end Chip8

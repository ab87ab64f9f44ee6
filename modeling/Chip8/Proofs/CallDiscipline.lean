import Chip8.Proofs.Faults
import Chip8.Proofs.Footprint
import Chip8.Proofs.History

/-!
# Calls and returns

The call stack is an array and a counter, and slots above the counter keep old values. Over a whole
run it means one thing only: which **calls are open**, that is, have not been returned from.
`openCalls` reads them off the history of the run from its end, where a return closes the nearest
call before it that nothing else closes. It knows nothing of slots and counters.

`Disciplined` is the invariant that ties the stack to the history. It speaks of three things because
pushing needs the bound and popping needs to know that **no return is unpaired**: a machine that was
switched on has come to every return with its call.
-/

namespace Chip8

/-! ### Open calls of a history -/

/-- What an event means for the calls that are open. -/
inductive Linkage where
  /-- The instruction at this address calls. -/
  | opens (pc : UInt16)
  /-- The last open call is returned from. -/
  | closes
  /-- Nothing changes. -/
  | keeps
  deriving DecidableEq, Repr

namespace Event

/-- Executed calls open, executed returns close, and everything else keeps. -/
def linkage : Event → Linkage
  | executed s =>
    match Instruction.decode s.fetch with
    | some (.call _) => .opens s.pc
    | some .ret => .closes
    | _ => .keeps
  | ticked => .keeps

/-- Whether a call was executed. -/
def isCall (e : Event) : Bool :=
  e.linkage matches .opens _

/-- Whether a return was executed. -/
def isReturn (e : Event) : Bool :=
  e.linkage matches .closes

end Event

/-- How many returns of a history have no call in it. -/
def unpairedReturns : List Event → Nat
  | [] => 0
  | e :: es =>
    match e.linkage with
    | .opens _ => unpairedReturns es - 1
    | .closes => unpairedReturns es + 1
    | .keeps => unpairedReturns es

/-- The addresses of the calls of a history that it does not return from, oldest first. A call is
returned from if the events after it have a return without a call. -/
def openCalls : List Event → List UInt16
  | [] => []
  | e :: es =>
    match e.linkage with
    | .opens pc => if unpairedReturns es = 0 then pc :: openCalls es else openCalls es
    | .closes | .keeps => openCalls es

variable {es fs : List Event} {e : Event}

/-- **Every call is open or paired with a return**, and so is every return but the unpaired ones. -/
theorem length_openCalls_add (es : List Event) :
    (openCalls es).length + es.countP Event.isReturn =
      es.countP Event.isCall + unpairedReturns es := by
  induction es with
  | nil => rfl
  | cons e es ih =>
    rw [List.countP_cons, List.countP_cons, openCalls, unpairedReturns, Event.isCall,
      Event.isReturn]
    rcases e.linkage with pc | - | -
    · show (if unpairedReturns es = 0 then pc :: openCalls es else openCalls es).length + _ =
        es.countP Event.isCall + 1 + (unpairedReturns es - 1)
      by_cases hpaired : unpairedReturns es = 0
      · rw [if_pos hpaired, List.length_cons]
        show (openCalls es).length + 1 + es.countP Event.isReturn = _
        omega
      · rw [if_neg hpaired]
        show (openCalls es).length + es.countP Event.isReturn = _
        omega
    · show (openCalls es).length + (es.countP Event.isReturn + 1) =
        es.countP Event.isCall + (unpairedReturns es + 1)
      omega
    · exact ih

/-- What only returns from its own calls does not pair a return that came before it. -/
theorem unpairedReturns_append (h : unpairedReturns fs = 0) :
    unpairedReturns (es ++ fs) = unpairedReturns es := by
  induction es with
  | nil => exact h
  | cons e es ih => rw [List.cons_append, unpairedReturns, unpairedReturns, ih]

/-- **What only returns from its own calls leaves the open calls before it open.** -/
theorem openCalls_append (h : unpairedReturns fs = 0) :
    openCalls (es ++ fs) = openCalls es ++ openCalls fs := by
  induction es with
  | nil => rfl
  | cons e es ih =>
    rw [List.cons_append, openCalls, openCalls, ih, unpairedReturns_append h]
    rcases e.linkage with pc | - | -
    · by_cases hpaired : unpairedReturns es = 0
      · simp only [hpaired, if_true, List.cons_append]
      · simp only [hpaired, if_false]
    · rfl
    · rfl

/-- A call is open when it has just been made. -/
theorem openCalls_of_opens {pc : UInt16} (h : e.linkage = .opens pc) :
    openCalls [e] = [pc] ∧ unpairedReturns [e] = 0 := by
  simp [openCalls, unpairedReturns, h]

theorem openCalls_of_keeps (h : e.linkage = .keeps) :
    openCalls [e] = [] ∧ unpairedReturns [e] = 0 := by
  simp [openCalls, unpairedReturns, h]

/-- **A return closes the last open call**, and is unpaired only if there is none. -/
theorem openCalls_append_of_closes (h : e.linkage = .closes) :
    openCalls (es ++ [e]) = (openCalls es).dropLast ∧
      unpairedReturns (es ++ [e]) =
        if openCalls es = [] then unpairedReturns es + 1 else unpairedReturns es := by
  induction es with
  | nil => simp [openCalls, unpairedReturns, h]
  | cons e' es ih =>
    obtain ⟨hopen, hunpaired⟩ := ih
    rcases he : e'.linkage with pc | - | -
    · -- the call before them is closed by the new return if nothing after it is
      simp only [List.cons_append, openCalls, unpairedReturns, he, hopen, hunpaired]
      by_cases hnone : openCalls es = []
      · by_cases hpaired : unpairedReturns es = 0
        · simp [hnone, hpaired]
        · simp only [hnone, hpaired, if_true, if_false, List.dropLast_nil, Nat.succ_ne_zero]
          refine ⟨trivial, ?_⟩
          omega
      · by_cases hpaired : unpairedReturns es = 0
        · simp [hnone, hpaired, List.dropLast_cons_of_ne_nil hnone]
        · simp [hnone, hpaired]
    · simp only [List.cons_append, openCalls, unpairedReturns, he, hopen, hunpaired, true_and]
      split <;> rfl
    · simp only [List.cons_append, openCalls, unpairedReturns, he, hopen, hunpaired, true_and]

/-! ### The stack in one step -/

namespace State

variable {d : Dialect} {s : State}

/-- A call that finds a free slot goes to its target. -/
theorem perform_call {target : BitVec 12} {stack : CallStack}
    (h : s.stack.push? (s.pc + 2) = some stack) :
    s.perform d (.call target) = .advanced { s with stack := stack, pc := widen target } := by
  rw [perform, h]

theorem stack_perform_call {target : BitVec 12} (h : (s.perform d (.call target)).result = .ok ()) :
    s.stack.push? (s.pc + 2) = some ((s.perform d (.call target)).stateAfter s).stack := by
  rcases hs : s.stack.push? (s.pc + 2) with - | stack
  · simp only [perform, hs, Effect.result] at h
    exact absurd h (by simp)
  · rw [perform_call hs]
    rfl

theorem stack_perform_ret (h : (s.perform d .ret).result = .ok ()) :
    s.stack.pop? =
      some (((s.perform d .ret).stateAfter s).pc, ((s.perform d .ret).stateAfter s).stack) := by
  rcases hs : s.stack.pop? with - | ⟨target, stack⟩
  · simp only [perform, hs, Effect.result] at h
    exact absurd h (by simp)
  · simp only [perform, hs]
    rfl

end State

/-- What a step that succeeds does to the stack, by what it means for the calls that are open. -/
inductive StackCase (s t : State) : Linkage → Prop
  | opens (h : s.stack.push? (s.pc + 2) = some t.stack) : StackCase s t (.opens s.pc)
  | closes (h : s.stack.pop? = some (t.pc, t.stack)) : StackCase s t .closes
  | keeps (h : t.stack = s.stack) : StackCase s t .keeps

namespace Machine

variable {m : Machine}

theorem stackCase (h : m.step.result = .ok ()) :
    StackCase m.state m.step.machine.state (Event.executed m.state).linkage := by
  obtain ⟨hm, -⟩ := fault?_of_step_ok h
  obtain ⟨i, hi⟩ := exists_decode_of_step_ok h
  have hspares := spares_step h hi
  rw [result_step hm, effect_of_decode hi] at h
  rw [state_step hm, effect_of_decode hi] at hspares ⊢
  rw [Event.linkage, hi]
  cases i with
  | call target => exact .opens (State.stack_perform_call h)
  | ret => exact .closes (State.stack_perform_ret h)
  | _ => exact .keeps (hspares.stack (by simp) (by simp)) -- only calls and returns change the stack

/-! ### The invariant -/

/-- **The stack holds the return addresses of the open calls**, there are no more of them than
slots, and every return had its call. -/
structure Disciplined (es : List Event) (m : Machine) : Prop where
  depth_le : m.state.stack.depth.toNat ≤ 16
  returns_eq : m.state.stack.returns = (openCalls es).map (· + 2)
  unpaired_eq : unpairedReturns es = 0

theorem Disciplined.depth_eq (h : Disciplined es m) :
    m.state.stack.depth.toNat = (openCalls es).length := by
  have hlength := m.state.stack.length_returns
  rw [h.returns_eq, List.length_map] at hlength
  have := h.depth_le
  omega

/-- An event that is neither a call nor a return keeps the invariant, if the stack stays. -/
theorem Disciplined.keeps (h : Disciplined es m) {e : Event} (he : e.linkage = .keeps)
    {n : Machine} (hn : n.state.stack = m.state.stack) : Disciplined (es ++ [e]) n := by
  obtain ⟨hopen, hunpaired⟩ := openCalls_of_keeps he
  refine ⟨?_, ?_, ?_⟩
  · rw [hn]
    exact h.depth_le
  · rw [hn, openCalls_append hunpaired, hopen, List.append_nil, h.returns_eq]
  · rw [unpairedReturns_append hunpaired, h.unpaired_eq]

/-- A step that succeeds keeps the invariant. -/
theorem Disciplined.step (h : Disciplined es m) (hok : m.step.result = .ok ()) :
    Disciplined (es ++ [.executed m.state]) m.step.machine := by
  have hcase := stackCase hok
  generalize m.step.machine = n at hcase ⊢
  generalize he : (Event.executed m.state).linkage = linkage at hcase
  cases hcase with
  | opens hpush =>
    obtain ⟨hfree, hdepth⟩ := CallStack.depth_of_push? hpush
    obtain ⟨hopen, hunpaired⟩ := openCalls_of_opens he
    refine ⟨by omega, ?_, ?_⟩
    · rw [openCalls_append hunpaired, hopen, CallStack.returns_of_push? hpush, h.returns_eq,
        List.map_append]
      rfl
    · rw [unpairedReturns_append hunpaired, h.unpaired_eq]
  | closes hpop =>
    obtain ⟨hle, hdepth⟩ := CallStack.depth_of_pop? hpop
    obtain ⟨hopen, hunpaired⟩ := @openCalls_append_of_closes es _ he
    have hreturns := CallStack.returns_of_pop? hpop
    refine ⟨by omega, ?_, ?_⟩
    · rw [hopen, List.map_dropLast, ← h.returns_eq, hreturns, List.dropLast_concat]
    · -- something was popped, so a call was open
      have hsome : openCalls es ≠ [] := by
        intro hnone
        have := h.depth_eq
        rw [hnone, List.length_nil] at this
        omega
      rw [hunpaired, if_neg hsome, h.unpaired_eq]
  | keeps hstack => exact h.keeps he hstack

/-- The stack does not change in any other way. -/
theorem disciplined_follows : Follows Disciplined where
  step h hok := h.step hok
  halt h _ := ⟨h.depth_le, h.returns_eq, h.unpaired_eq⟩
  keys h _ := ⟨h.depth_le, h.returns_eq, h.unpaired_eq⟩
  tick h _ := h.keeps rfl rfl

/-! ### Machines that were switched on -/

/-- The machines that have just been switched on: new ones, and those that were reset or have
accepted a program. -/
inductive SwitchedOn : Machine → Prop
  | new (config : Config) (entropy : UInt64) : SwitchedOn (powerOn config Rom.empty entropy)
  | load {m : Machine} {bytes : Array UInt8} {entropy : UInt64}
    (h : (m.load bytes entropy).result = .ok ()) : SwitchedOn (m.load bytes entropy).machine
  | reset (m : Machine) (entropy : UInt64) : SwitchedOn (m.reset entropy).machine

/-- Each of them was switched on with some program. -/
theorem SwitchedOn.exists_powerOn (h : m.SwitchedOn) :
    ∃ config rom entropy, m = powerOn config rom entropy := by
  cases h with
  | new config entropy => exact ⟨config, Rom.empty, entropy, rfl⟩
  | @load m bytes entropy h =>
    rcases Nat.lt_or_ge maxRomSize bytes.size with hlt | hle
    · rw [load_of_lt_size hlt] at h
      exact absurd h (by simp)
    · rw [load_of_size_le hle]
      exact ⟨_, _, _, rfl⟩
  | reset m entropy => exact ⟨_, _, _, rfl⟩

/-- With no call made, none is open. -/
theorem SwitchedOn.disciplined (h : m.SwitchedOn) : Disciplined [] m := by
  obtain ⟨config, rom, entropy, rfl⟩ := h.exists_powerOn
  exact ⟨Nat.zero_le _, rfl, rfl⟩

/-! ### Calls and returns in a disciplined machine -/

/-- A call of a running machine fails exactly if every slot belongs to an open call. -/
theorem Disciplined.result_call (h : Disciplined es m) (hm : m.fault? = none) {target : BitVec 12}
    (hi : Instruction.decode m.state.fetch = some (.call target)) :
    m.step.result =
      if (openCalls es).length = 16 then .error (.stackOverflow m.state.pc) else .ok () := by
  have hdepth := h.depth_eq
  rw [result_step hm, effect_of_decode hi]
  rcases hs : m.state.stack.push? (m.state.pc + 2) with - | stack
  · have hfull := CallStack.push?_eq_none_iff.1 hs
    have := h.depth_le
    rw [if_pos (by omega), State.perform, hs]
    rfl
  · obtain ⟨hfree, -⟩ := CallStack.depth_of_push? hs
    rw [if_neg (by omega), State.perform_call hs]
    rfl

/-- A return of a running machine fails exactly if no call is open. -/
theorem Disciplined.result_ret (h : Disciplined es m) (hm : m.fault? = none)
    (hi : Instruction.decode m.state.fetch = some .ret) :
    m.step.result =
      if openCalls es = [] then .error (.stackUnderflow m.state.pc) else .ok () := by
  have hdepth := h.depth_eq
  rw [result_step hm, effect_of_decode hi]
  rcases hs : m.state.stack.pop? with - | ⟨a, stack⟩
  · have hnone : openCalls es = [] := by
      rw [← List.length_eq_zero_iff]
      have := CallStack.pop?_eq_none_iff.1 hs
      have := h.depth_le
      omega
    rw [if_pos hnone, State.perform, hs]
    rfl
  · have hsome : openCalls es ≠ [] := by
      obtain ⟨-, hd⟩ := CallStack.depth_of_pop? hs
      rw [← List.length_pos_iff]
      omega
    rw [if_neg hsome, State.perform, hs]
    rfl

/-- A return goes on behind the last open call. -/
theorem Disciplined.pc_ret (h : Disciplined es m) (hm : m.fault? = none)
    (hi : Instruction.decode m.state.fetch = some .ret) {a : UInt16}
    (ha : (openCalls es).getLast? = some a) : m.step.machine.state.pc = a + 2 := by
  have hsome : openCalls es ≠ [] := by
    intro hnone
    rw [hnone] at ha
    exact absurd ha (by simp)
  have hok : m.step.result = .ok () := by rw [h.result_ret hm hi, if_neg hsome]
  have hcase := stackCase hok
  have hlinkage : (Event.executed m.state).linkage = .closes := by rw [Event.linkage, hi]
  rw [hlinkage] at hcase
  cases hcase with
  | closes hpop =>
    have hlast := congrArg List.getLast? (CallStack.returns_of_pop? hpop)
    rw [h.returns_eq, List.getLast?_map, ha, List.getLast?_concat] at hlast
    exact (Option.some.inj hlast).symm

/-! ### Whole runs -/

/-- **Calls and returns pair up over whole runs.** Take any machine that was just switched on, any
calls that run it, and any number of steps after them, which may lie within a frame. The number of
slots in use is the number of calls executed less the number of returns, and at most sixteen. The
slots in use hold the addresses behind the open calls, oldest first. A call that comes next fails
exactly if sixteen calls are open. A return that comes next fails exactly if none is, and else goes
on behind the last one. -/
theorem stack_eq_openCalls {m : Machine} (hm : m.SwitchedOn) {calls : List Call}
    (hc : ∀ c ∈ calls, c.replacesState = false) (k : Nat) :
    let start := (m.performAll calls).machine
    let now := (start.steps k).machine
    let es := m.history calls ++ start.stepEvents k
    let stack := now.state.stack
    stack.depth.toNat + es.countP Event.isReturn = es.countP Event.isCall ∧
      stack.depth.toNat ≤ 16 ∧
      stack.slots.toList.take stack.depth.toNat = (openCalls es).map (· + 2) ∧
      (now.fault? = none →
        (∀ target, Instruction.decode now.state.fetch = some (.call target) →
          now.step.result =
            if (openCalls es).length = 16 then .error (.stackOverflow now.state.pc) else .ok ()) ∧
        (Instruction.decode now.state.fetch = some .ret →
          (now.step.result =
            if openCalls es = [] then .error (.stackUnderflow now.state.pc) else .ok ()) ∧
          ∀ a, (openCalls es).getLast? = some a → now.step.machine.state.pc = a + 2)) := by
  intro start now es stack
  have h : Disciplined es now :=
    disciplined_follows.steps (disciplined_follows.performAll hm.disciplined hc) k
  refine ⟨?_, h.depth_le, h.returns_eq, fun hrunning ↦ ⟨fun target hi ↦ ?_, fun hi ↦ ⟨?_, ?_⟩⟩⟩
  · have hcount := length_openCalls_add es
    rwa [h.unpaired_eq, Nat.add_zero, ← h.depth_eq] at hcount
  · exact h.result_call hrunning hi
  · exact h.result_ret hrunning hi
  · exact fun a ↦ h.pc_ret hrunning hi

/-- A program whose first instruction calls the second one, which is a return. -/
theorem stack_eq_openCalls_of_return :
    let m := ((powerOn {} Rom.empty 0).load #[0x22, 0x02, 0x00, 0xEE] 0).machine
    let now := (m.performAll [.step]).machine
    m.SwitchedOn ∧ openCalls (m.history [.step]) = [0x200] ∧
      now.state.stack.depth.toNat = 1 ∧ now.step.result = .ok () ∧
      now.step.machine.state.pc = 0x202 := by
  have hload := load_of_size_le (m := powerOn {} Rom.empty 0)
    (show (#[0x22, 0x02, 0x00, 0xEE] : Array UInt8).size ≤ maxRomSize by decide) 0
  -- only the two words and an empty stack count about the machine
  have key : ∀ m : Machine, m.SwitchedOn → m.fault? = none → m.state.pc = 0x200 →
      m.state.stack = .empty → m.state.fetch = 0x2202 →
      m.state.memory.readWord 0x202 = 0x00EE →
      let now := (m.performAll [.step]).machine
      openCalls (m.history [.step]) = [0x200] ∧ now.state.stack.depth.toNat = 1 ∧
        now.step.result = .ok () ∧ now.step.machine.state.pc = 0x202 := by
    intro m hm hrunning hpc hstack hfetch hfetch' now
    have hcall : Instruction.decode m.state.fetch = some (.call 0x202) := by
      rw [hfetch]
      decide
    have hnone : ∀ c ∈ ([] : List Call), c.replacesState = false := by simp
    have hone : ∀ c ∈ [Call.step], c.replacesState = false := by simp [Call.replacesState]
    obtain ⟨-, -, -, hfirst⟩ := stack_eq_openCalls hm hnone 0
    have hok : m.step.result = .ok () := (hfirst hrunning).1 _ hcall
    have hstate : m.step.machine.state =
        { m.state with stack := ⟨CallStack.empty.slots.set 0 0x202, 1⟩, pc := 0x202 } := by
      have hpush : m.state.stack.push? (m.state.pc + 2) =
          some ⟨CallStack.empty.slots.set 0 0x202, 1⟩ := by
        rw [hpc, hstack]
        rfl
      rw [state_step hrunning, effect, State.execute, hcall]
      show (m.state.perform m.config.dialect (.call 0x202)).stateAfter m.state = _
      rw [State.perform_call hpush]
      rfl
    have hret : Instruction.decode m.step.machine.state.fetch = some .ret := by
      rw [hstate, State.fetch, hfetch']
      decide
    have hhistory : m.history [.step] = [.executed m.state] := history_step_of_ok hok
    have hopen : openCalls (m.history [.step]) = [0x200] := by
      rw [hhistory, openCalls, Event.linkage, hcall, hpc]
      rfl
    obtain ⟨hcount, -, -, hsecond⟩ := stack_eq_openCalls hm hone 0
    obtain ⟨hresult, hlast⟩ := (hsecond (fault?_of_step_ok hok).2).2 hret
    rw [stepEvents_zero, List.append_nil, hopen] at hresult hlast
    rw [stepEvents_zero, List.append_nil, hhistory] at hcount
    have hcalls : [Event.executed m.state].countP Event.isCall = 1 := by
      simp [Event.isCall, Event.linkage, hcall]
    have hreturns : [Event.executed m.state].countP Event.isReturn = 0 := by
      simp [Event.isReturn, Event.linkage, hcall]
    rw [hcalls, hreturns, Nat.add_zero] at hcount
    exact ⟨hopen, hcount, hresult, hlast 0x200 rfl⟩
  have hm : ((powerOn {} Rom.empty 0).load #[0x22, 0x02, 0x00, 0xEE] 0).machine.SwitchedOn :=
    .load (by rw [hload])
  have hmachine := congrArg Outcome.machine hload
  refine ⟨hm, key _ hm ?_ ?_ ?_ ?_ ?_⟩
  · rw [hmachine]
    rfl
  · rw [hmachine]
    rfl
  · rw [hmachine]
    rfl
  · rw [hmachine, powerOn, State.fetch_powerOn]
    decide
  · rw [hmachine, powerOn, State.powerOn, Memory.readWord_ofRom_program _ (by decide) (by decide)]
    decide

end Machine

end Chip8

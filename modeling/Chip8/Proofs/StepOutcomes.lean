import Chip8.Proofs.CallDiscipline
import Chip8.Proofs.CheckedExecution
import Chip8.Proofs.Faults
import Chip8.Proofs.SnapshotFormat

/-!
# How a step can end

A snapshot is accepted whatever stands in its fields, so **every state can be installed**: the
program counter and `I` beyond the end of memory, and more slots of the call stack in use than there
are. What holds of a step has to hold of all of these, and no invariant of running programs helps.

No check that an access is in range fails (`Machine.step?_eq` and its neighbours), and a step fails
in exactly three cases. `State.faults_iff` gives them by the word at the program counter and the
number of slots in use alone. A stack that claims too many slots can be neither pushed nor popped,
so it stays as it is until another state is put in place (`follows_stack`), while one that does not
never will (`depth_perform_le`).
-/

namespace Chip8

/-! ### The three faults -/

namespace State

variable {s : State} {f : Fault}

/-- **When an instruction faults**, by its word and the number of slots in use. -/
theorem faults_iff :
    s.Faults f ↔
      (f = .invalidOpcode s.fetch s.pc ∧ ∀ i : Instruction, i.word ≠ s.fetch) ∨
        (f = .stackOverflow s.pc ∧ (∃ target, s.fetch = Instruction.wordNNN 0x2 target) ∧
          16 ≤ s.stack.depth.toNat) ∨
        (f = .stackUnderflow s.pc ∧ s.fetch = 0x00EE ∧
          (s.stack.depth.toNat = 0 ∨ 16 < s.stack.depth.toNat)) := by
  constructor
  · intro h
    cases h with
    | invalidOpcode h => exact .inl ⟨rfl, Instruction.decode_eq_none_iff.1 h⟩
    | stackOverflow h hs =>
      exact .inr (.inl ⟨rfl, ⟨_, (Instruction.word_of_decode h).symm⟩,
        CallStack.push?_eq_none_iff.1 hs⟩)
    | stackUnderflow h hs =>
      exact .inr (.inr ⟨rfl, (Instruction.word_of_decode h).symm, CallStack.pop?_eq_none_iff.1 hs⟩)
  · rintro (⟨rfl, hw⟩ | ⟨rfl, ⟨target, hw⟩, hs⟩ | ⟨rfl, hw, hs⟩)
    · exact .invalidOpcode (Instruction.decode_eq_none_iff.2 hw)
    · exact .stackOverflow (Instruction.decode_eq_some_iff.2 hw.symm)
        (CallStack.push?_eq_none_iff.2 hs)
    · exact .stackUnderflow (Instruction.decode_eq_some_iff.2 hw.symm)
        (CallStack.pop?_eq_none_iff.2 hs)

/-- When an instruction does not fault. -/
theorem forall_not_faults_iff :
    (∀ f, ¬ s.Faults f) ↔
      (∃ i : Instruction, i.word = s.fetch) ∧
        ((∃ target, s.fetch = Instruction.wordNNN 0x2 target) → s.stack.depth.toNat < 16) ∧
        (s.fetch = 0x00EE → 0 < s.stack.depth.toNat ∧ s.stack.depth.toNat ≤ 16) := by
  simp only [faults_iff]
  constructor
  · intro h
    refine ⟨Classical.byContradiction fun hw ↦ h _ (.inl ⟨rfl, not_exists.1 hw⟩), fun hw ↦ ?_,
      fun hw ↦ ?_⟩
    · exact Nat.lt_of_not_le fun hs ↦ h _ (.inr (.inl ⟨rfl, hw, hs⟩))
    · have hs := mt (fun hs ↦ h _ (.inr (.inr ⟨rfl, hw, hs⟩))) not_false
      omega
  · rintro ⟨⟨i, hi⟩, hcall, hret⟩ f (⟨-, hw⟩ | ⟨-, hw, hs⟩ | ⟨-, hw, hs⟩)
    · exact hw i hi
    · exact Nat.not_lt.2 hs (hcall hw)
    · have := hret hw
      omega

end State

namespace Machine

variable {m : Machine}

/-- The answer of a running machine is the fault of its instruction, if that has one. -/
theorem result_step_eq_error_iff (h : m.fault? = none) {f : Fault} :
    m.step.result = .error f ↔ m.state.Faults f := by
  rw [result_step h, ← State.execute_eq_faulted_iff, ← effect]
  cases m.effect <;> simp [Effect.result]

/-- What succeeds has no fault. -/
theorem result_step_eq_ok_iff (h : m.fault? = none) :
    m.step.result = .ok () ↔ ∀ f, ¬ m.state.Faults f := by
  simp only [← result_step_eq_error_iff h]
  rcases m.step.result with f | ⟨⟩ <;> simp

/-! ### The number of slots in use -/

/-- A stack that claims more slots than there are can be neither pushed nor popped. -/
theorem stack_step_of_lt (h : 16 < m.state.stack.depth.toNat) (hok : m.step.result = .ok ()) :
    m.step.machine.state.stack = m.state.stack := by
  have hcase := stackCase hok
  generalize m.step.machine = n at hcase ⊢
  generalize (Event.executed m.state).linkage = linkage at hcase
  cases hcase with
  | opens hpush => exact absurd (CallStack.depth_of_push? hpush).1 (by omega)
  | closes hpop => exact absurd (CallStack.depth_of_pop? hpop).1 (by omega)
  | keeps hstack => exact hstack

theorem depth_step_le (h : m.state.stack.depth.toNat ≤ 16) (hok : m.step.result = .ok ()) :
    m.step.machine.state.stack.depth.toNat ≤ 16 := by
  have hcase := stackCase hok
  generalize m.step.machine = n at hcase ⊢
  generalize (Event.executed m.state).linkage = linkage at hcase
  cases hcase with
  | opens hpush =>
    have := CallStack.depth_of_push? hpush
    omega
  | closes hpop =>
    have := CallStack.depth_of_pop? hpop
    omega
  | keeps hstack => rwa [hstack]

/-- **A stack that claims too many slots stays as it is.** -/
theorem follows_stack {stack : CallStack} (h : 16 < stack.depth.toNat) :
    Follows fun _ m ↦ m.state.stack = stack where
  step hm hok := by
    subst hm
    exact stack_step_of_lt h hok
  halt hm _ := hm
  tick hm _ := hm
  keys hm _ := hm

/-- **A stack that does not claim too many slots never will.** -/
theorem follows_depth_le : Follows fun _ m ↦ m.state.stack.depth.toNat ≤ 16 where
  step hm hok := depth_step_le hm hok
  halt hm _ := hm
  tick hm _ := hm
  keys hm _ := hm

/-- Switching the machine on empties the stack, so only a restored snapshot can claim too many
slots. -/
theorem depth_perform_le (h : m.state.stack.depth.toNat ≤ 16) {c : Call}
    (hc : ∀ bytes, c ≠ .restore bytes) : (m.perform c).machine.state.stack.depth.toNat ≤ 16 := by
  have hempty (config : Config) (rom : Rom) (entropy : UInt64) :
      (powerOn config rom entropy).state.stack.depth.toNat ≤ 16 := Nat.zero_le 16
  cases c with
  | load bytes entropy =>
    show (m.load bytes entropy).machine.state.stack.depth.toNat ≤ 16
    rw [load]
    split
    · exact hempty _ _ _
    · exact h
  | reset entropy => exact hempty _ _ _
  | restore bytes => exact absurd rfl (hc bytes)
  | step | runFrame | setKeys _ | screen | snapshot =>
    exact @Follows.perform _ [] _ follows_depth_le h _ rfl

theorem depth_performAll_le (h : m.state.stack.depth.toNat ≤ 16) {calls : List Call}
    (hc : ∀ c ∈ calls, ∀ bytes, c ≠ .restore bytes) :
    (m.performAll calls).machine.state.stack.depth.toNat ≤ 16 := by
  induction calls generalizing m with
  | nil => exact h
  | cons c calls ih =>
    exact ih (depth_perform_le h (hc c List.mem_cons_self)) fun c' hc' ↦
      hc c' (List.mem_cons_of_mem c hc')

/-! ### Every state can be installed -/

/-- Every state is what some bytes of the right number and version are restored to. -/
theorem exists_restore_eq (m : Machine) (s : State) :
    ∃ bytes : Array UInt8, bytes.size = Snapshot.size ∧ bytes[0]? = some Snapshot.version ∧
      (m.restore bytes).machine = { m with state := s, fault? := none, waiting := false } := by
  have hdecode := Snapshot.decode_encode (Snapshot.ofState s)
  obtain ⟨hsize, hversion⟩ := Snapshot.exists_decode_iff.1 ⟨_, hdecode⟩
  exact ⟨_, hsize, hversion, congrArg Outcome.machine (restore_of_decode hdecode)⟩

/-- **How a step can end, in every state that can be installed.** Every state is restored from some
4458 bytes of which the first is 2, and all such bytes are accepted. Let any calls follow. No access
of a step, a frame or a look at the state that follows then is out of range, and no number computed
on the way is too large for its type. The word at hand is the big-endian word in the cells that the
program counter and its successor select, and a step of a running machine

* returns `invalidOpcode` with that word and the program counter exactly if the word is that of no
  instruction,
* returns `stackOverflow` exactly if it is a call and at least sixteen slots are in use,
* returns `stackUnderflow` exactly if it is a return and no slot is in use, or more than there are,
* and succeeds otherwise.

If at most sixteen slots are in use, this stays so at every moment until another snapshot is
restored; if there are more, the stack is never changed by steps and frames. -/
theorem step_outcomes_of_restore (m : Machine) {bytes : Array UInt8} (hsize : bytes.size = 4458)
    (hversion : bytes[0]? = some 2) (calls : List Call) :
    let r := ((m.restore bytes).machine.performAll calls).machine
    let s := r.state
    let w := s.fetch
    let used := s.stack.depth.toNat
    (m.restore bytes).result = .ok () ∧
      (∀ t : State, ∃ form : Array UInt8, form.size = 4458 ∧ form[0]? = some 2 ∧
        (m.restore form).machine.state = t) ∧
      (r.step? = some r.step ∧ r.runFrame? = some r.runFrame ∧
        r.snapshot? = some r.snapshot.toList) ∧
      w.toNat = 256 * (s.memory.byteAt s.pc.toNat).toNat +
        (s.memory.byteAt (s.pc.toNat + 1)).toNat ∧
      (r.fault? = none →
        (∀ f, r.step.result = .error f ↔
          (f = .invalidOpcode w s.pc ∧ ∀ i : Instruction, i.word ≠ w) ∨
            (f = .stackOverflow s.pc ∧ (∃ target, w = Instruction.wordNNN 0x2 target) ∧
              16 ≤ used) ∨
            (f = .stackUnderflow s.pc ∧ w = 0x00EE ∧ (used = 0 ∨ 16 < used))) ∧
        (r.step.result = .ok () ↔
          (∃ i : Instruction, i.word = w) ∧
            ((∃ target, w = Instruction.wordNNN 0x2 target) → used < 16) ∧
            (w = 0x00EE → 0 < used ∧ used ≤ 16))) ∧
      (used ≤ 16 → ∀ later : List Call, (∀ c ∈ later, ∀ form, c ≠ .restore form) →
        ∀ k, ((r.performAll later).machine.steps k).machine.state.stack.depth.toNat ≤ 16) ∧
      (16 < used → ∀ later : List Call, (∀ c ∈ later, c.replacesState = false) →
        ∀ k, ((r.performAll later).machine.steps k).machine.state.stack = s.stack) := by
  intro r s w used
  refine ⟨?accepted, fun t ↦ ?installed, ⟨step?_eq r, runFrame?_eq r, snapshot?_eq r⟩,
    s.memory.toNat_readWord s.pc, fun hr ↦ ⟨fun f ↦ ?fails, ?succeeds⟩,
    fun hused later hlater k ↦ ?small, fun hused later hlater k ↦ ?large⟩
  case accepted => exact result_restore_eq_ok_iff.2 (Snapshot.exists_decode_iff.2 ⟨hsize, hversion⟩)
  case installed =>
    obtain ⟨form, hform, hfirst, hmachine⟩ := exists_restore_eq m t
    exact ⟨form, hform, hfirst, congrArg Machine.state hmachine⟩
  case fails => exact (result_step_eq_error_iff hr).trans State.faults_iff
  case succeeds => exact (result_step_eq_ok_iff hr).trans State.forall_not_faults_iff
  case small => exact @Follows.steps _ [] _ follows_depth_le (depth_performAll_le hused hlater) k
  case large => exact @Follows.until _ [] _ (follows_stack hused) rfl _ hlater k

/-- Memory is full of the byte `22`, the program counter is the last address there is, and two
hundred slots of the call stack are in use. The word at hand is the call `2222`. It fails, and the
two hundred slots stay in use. -/
theorem step_outcomes_of_restore_of_excess :
    let m := powerOn {} Rom.empty 0
    let t : State :=
      { m.state with
        memory := ⟨Vector.replicate memorySize 0x22⟩
        pc := 0xFFFF
        stack := ⟨Vector.replicate 16 0, 200⟩ }
    let bytes := (Snapshot.ofState t).encode.toArray
    let r := (m.restore bytes).machine
    bytes.size = 4458 ∧ bytes[0]? = some 2 ∧ (m.restore bytes).result = .ok () ∧
      r.fault? = none ∧ r.step? = some r.step ∧ r.step.result = .error (.stackOverflow 0xFFFF) ∧
      ∀ k, (r.steps k).machine.state.stack.depth = 200 := by
  -- the machine and the bytes do not matter, and are not looked into
  have key (m r : Machine) (t : State) (bytes : Array UInt8)
      (hbytes : (Snapshot.ofState t).encode.toArray = bytes) (hr : (m.restore bytes).machine = r)
      (hread : ∀ a, t.memory.read a = 0x22) (hpc : t.pc = 0xFFFF) (hdepth : t.stack.depth = 200) :
      bytes.size = 4458 ∧ bytes[0]? = some 2 ∧ (m.restore bytes).result = .ok () ∧
        r.fault? = none ∧ r.step? = some r.step ∧ r.step.result = .error (.stackOverflow 0xFFFF) ∧
        ∀ k, (r.steps k).machine.state.stack.depth = 200 := by
    have hdecode : Snapshot.decode bytes = .ok (Snapshot.ofState t) :=
      Snapshot.decode_eq_ok_iff.2 hbytes
    obtain ⟨hsize, hversion⟩ := Snapshot.exists_decode_iff.1 ⟨_, hdecode⟩
    have houtcomes := step_outcomes_of_restore m hsize hversion []
    simp only [performAll_nil, hr] at houtcomes
    obtain ⟨haccepted, -, ⟨hchecked, -⟩, -, hfails, -, hlarge⟩ := houtcomes
    rw [restore_of_decode hdecode] at hr
    have hrunning : r.fault? = none := by rw [← hr]
    have hstate : r.state = t := by
      rw [← hr]
      rfl
    have hword : r.state.fetch = Instruction.wordNNN 0x2 0x222 := by
      rw [hstate, State.fetch, Memory.readWord, hread, hread]
      decide
    have hused : 16 < r.state.stack.depth.toNat := by
      rw [hstate, hdepth]
      decide
    refine ⟨hsize, hversion, haccepted, hrunning, hchecked, ?_, fun k ↦ ?_⟩
    · rw [← hpc, ← hstate]
      exact ((hfails hrunning).1 _).2 (.inr (.inl ⟨rfl, ⟨_, hword⟩, Nat.le_of_lt hused⟩))
    · have hsame := hlarge hused [] (fun _ h ↦ absurd h List.not_mem_nil) k
      rw [performAll_nil] at hsame
      rw [hsame, hstate, hdepth]
  intro m t bytes r
  have hread (a : UInt16) : t.memory.read a = 0x22 := by
    rw [Memory.read, Fin.getElem_fin]
    exact Vector.getElem_replicate _
  exact key m r t bytes rfl rfl hread rfl rfl

end Machine

end Chip8

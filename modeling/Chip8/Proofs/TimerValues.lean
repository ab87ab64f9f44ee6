import Chip8.Proofs.Footprint
import Chip8.Proofs.History

/-!
# Timers over a run

A timer shows what it was last set to, less the frames that were completed since. Two histories come
together in this. Instructions set timers in the middle of frames, and frames let both timers tick
when they are over, which frames that a fault cuts short never are.

The proof goes through the events of a run. `Timer.remaining` is the value that they leave a timer
with, and `remaining_follows` says that **it is the value of the timer** whatever happens. Callers
see frames and not ticks: `ticksSince_eventsUntil` counts the ticks by the answers to calls,
starting with the call that has set the timer, because the tick of a frame comes after its
instructions.
-/

namespace Chip8

/-- One of the two timers. -/
inductive Timer where
  | delay
  | sound
  deriving DecidableEq, Repr

namespace Timer

/-- The value of a timer. -/
def value (t : Timer) (timers : Timers) : UInt8 :=
  match t with
  | delay => timers.delay
  | sound => timers.sound

/-- The register that an instruction sets the timer to. -/
def source? : Timer → Instruction → Option Register
  | delay, .setDelay x => some x
  | sound, .setSound x => some x
  | _, _ => none

theorem toNat_value_tick (t : Timer) (timers : Timers) :
    (t.value timers.tick).toNat = (t.value timers).toNat - 1 := by
  cases t <;> exact Timers.toNat_countDown _

/-- **An instruction sets the timer to its register, or leaves it alone.** -/
theorem value_perform (t : Timer) (d : Dialect) (s : State) (i : Instruction) :
    t.value ((s.perform d i).stateAfter s).timers =
      ((t.source? i).map s.v).getD (t.value s.timers) := by
  cases i with
  | setDelay x | setSound x => cases t <;> rfl
  | _ =>
    rw [(s.spares_perform d _).timers (by simp) (by simp)]
    cases t <;> rfl

end Timer

/-! ### Settings and ticks of a history -/

/-- The value that an event sets a timer to, if it is an instruction that does so. -/
def Event.setting? (t : Timer) : Event → Option UInt8
  | executed s => ((Instruction.decode s.fetch).bind t.source?).map s.v
  | ticked => none

/-- The value that a timer was last set to. -/
def lastSetting? (t : Timer) (es : List Event) : Option UInt8 :=
  (es.filterMap (Event.setting? t)).getLast?

/-- How often the timers have ticked since one of them was last set, or in all if it never was. -/
def ticksSince (t : Timer) : List Event → Nat
  | [] => 0
  | e :: es => if (lastSetting? t es).isSome then ticksSince t es else (e :: es).count .ticked

/-- What a timer that has started with a value shows after a history. -/
def Timer.remaining (t : Timer) (start : UInt8) (es : List Event) : Nat :=
  ((lastSetting? t es).getD start).toNat - ticksSince t es

variable {t : Timer} {es fs : List Event} {e : Event}

theorem lastSetting?_append (t : Timer) (es fs : List Event) :
    lastSetting? t (es ++ fs) = (lastSetting? t fs).or (lastSetting? t es) := by
  rw [lastSetting?, List.filterMap_append, List.getLast?_append]
  rfl

theorem lastSetting?_singleton (t : Timer) (e : Event) : lastSetting? t [e] = e.setting? t := by
  rw [lastSetting?, List.filterMap_cons, List.filterMap_nil]
  cases e.setting? t <;> rfl

/-- Without a setting all ticks count. -/
theorem ticksSince_of_none (h : lastSetting? t es = none) : ticksSince t es = es.count .ticked := by
  cases es with
  | nil => rfl
  | cons e es =>
    rw [← List.singleton_append, lastSetting?_append, Option.or_eq_none_iff] at h
    rw [ticksSince, h.1]
    rfl

theorem ticksSince_le_count (t : Timer) (es : List Event) :
    ticksSince t es ≤ es.count .ticked := by
  induction es with
  | nil => exact Nat.le_refl _
  | cons e es ih =>
    rw [ticksSince]
    split
    · exact Nat.le_trans ih List.count_le_count_cons
    · exact Nat.le_refl _

theorem ticksSince_eq_zero (h : es.count .ticked = 0) : ticksSince t es = 0 :=
  Nat.le_zero.1 (h ▸ ticksSince_le_count t es)

/-- **A later setting makes all that came before it irrelevant.** -/
theorem ticksSince_append (t : Timer) (es fs : List Event) :
    ticksSince t (es ++ fs) =
      if (lastSetting? t fs).isSome then ticksSince t fs
      else ticksSince t es + fs.count .ticked := by
  induction es with
  | nil =>
    split
    · rfl
    next h =>
      rw [List.nil_append, ticksSince_of_none (Option.not_isSome_iff_eq_none.1 h), ticksSince,
        Nat.zero_add]
  | cons e es ih =>
    rw [List.cons_append, ticksSince, ticksSince, ih, lastSetting?_append]
    cases lastSetting? t fs with
    | some v => simp
    | none =>
      rw [Option.none_or, ← List.cons_append, List.count_append]
      split <;> rfl

/-- The next event sets the timer, or it may be a tick. -/
theorem Timer.remaining_concat (t : Timer) (start : UInt8) (es : List Event) (e : Event) :
    t.remaining start (es ++ [e]) =
      match e.setting? t with
      | some v => v.toNat
      | none => t.remaining start es - [e].count .ticked := by
  rw [remaining, lastSetting?_append, ticksSince_append, lastSetting?_singleton]
  rcases he : e.setting? t with - | v
  · exact (Nat.sub_sub _ _ _).symm
  · -- an event that sets a timer is no tick
    have hne : e ≠ .ticked := by
      rintro rfl
      exact absurd he (by simp [Event.setting?])
    have hcount : ticksSince t [e] = 0 :=
      ticksSince_eq_zero (List.count_eq_zero.2 fun hmem ↦ hne (List.mem_singleton.1 hmem).symm)
    simp [hcount]

namespace Machine

variable {m : Machine}

theorem value_step (h : m.step.result = .ok ()) (t : Timer) :
    t.value m.step.machine.state.timers =
      ((Event.executed m.state).setting? t).getD (t.value m.state.timers) := by
  obtain ⟨i, hi⟩ := exists_decode_of_step_ok h
  rw [state_step (fault?_of_step_ok h).1, effect_of_decode hi, t.value_perform, Event.setting?, hi]
  rfl

/-- **Whatever happens, a timer shows what the events have left it with.** -/
theorem remaining_follows (t : Timer) (start : UInt8) :
    Follows fun es m ↦ (t.value m.state.timers).toNat = t.remaining start es where
  step {es m} h hok := by
    rw [value_step hok, t.remaining_concat, ← h]
    rcases (Event.executed m.state).setting? t with - | v
    · simp
    · rfl
  halt h _ := h
  tick {es m} h _ := by
    rw [t.remaining_concat, ← h]
    exact t.toNat_value_tick m.state.timers
  keys h _ := h

/-! ### Completed frames -/

/-- Whether a call with this answer is a frame that was completed. -/
def isCompletedFrame : Call × Response → Bool
  | (.runFrame, .shown _) => true
  | _ => false

/-- How many frames calls complete. -/
def completedFrames (m : Machine) (calls : List Call) : Nat :=
  (calls.zip (m.performAll calls).result).countP isCompletedFrame

/-- The value that a timer was last set to before a moment of a run, or the one that it started
with. -/
def setting (t : Timer) (m : Machine) (calls : List Call) (k : Nat) : UInt8 :=
  (lastSetting? t (m.eventsUntil calls k)).getD (t.value m.state.timers)

/-- How many frames were completed since a timer was last set before a moment of a run, or in all if
it never was. The frame that has set the timer is the first one that counts. -/
def framesSince (t : Timer) (m : Machine) : List Call → (k : Nat) → Nat
  | [], _ => 0
  | c :: cs, k =>
    let next := (m.perform c).machine
    if (lastSetting? t (next.eventsUntil cs k)).isSome then framesSince t next cs k
    else m.completedFrames (c :: cs)

theorem completedFrames_cons (m : Machine) (c : Call) (cs : List Call) :
    m.completedFrames (c :: cs) =
      m.completedFrames [c] + (m.perform c).machine.completedFrames cs := by
  show List.countP isCompletedFrame ([(c, (m.perform c).result)] ++ _) = _
  rw [List.countP_append]
  rfl

theorem count_ticked_stepEvents (m : Machine) (n : Nat) : (m.stepEvents n).count .ticked = 0 := by
  rw [List.count_eq_zero]
  simp [stepEvents]

/-- **A call ticks exactly if it completes a frame**, after all that it executes. -/
theorem count_ticked_events (t : Timer) (m : Machine) (c : Call) :
    (m.events c).count .ticked = m.completedFrames [c] ∧
      ticksSince t (m.events c) = m.completedFrames [c] := by
  cases c with
  | runFrame =>
    have hnone := m.count_ticked_stepEvents m.config.stepsPerFrame
    have hanswer : (m.perform .runFrame).result = .ofExcept .faulted .shown m.runFrame.result := rfl
    simp only [events, completedFrames, performAll, hanswer]
    rcases m.runFrame.result with f | screen
    · exact ⟨hnone, ticksSince_eq_zero hnone⟩
    · rw [List.count_append, ticksSince_append, hnone, ticksSince_eq_zero hnone]
      exact ⟨rfl, rfl⟩
  | step =>
    have hnone := m.count_ticked_stepEvents 1
    exact ⟨hnone, ticksSince_eq_zero hnone⟩
  | load _ _ | reset _ | setKeys _ | restore _ | screen | snapshot => exact ⟨rfl, rfl⟩

theorem count_ticked_eventsUntil (m : Machine) (calls : List Call) (k : Nat) :
    (m.eventsUntil calls k).count .ticked = m.completedFrames calls := by
  induction calls generalizing m with
  | nil => exact m.count_ticked_stepEvents k
  | cons c calls ih =>
    rw [eventsUntil_cons, List.count_append, ih, completedFrames_cons,
      (count_ticked_events .delay m c).1]

/-- **The ticks since a setting are the frames completed since**, the one with the setting included.
-/
theorem ticksSince_eventsUntil (t : Timer) (m : Machine) (calls : List Call) (k : Nat) :
    ticksSince t (m.eventsUntil calls k) = framesSince t m calls k := by
  induction calls generalizing m with
  | nil => exact ticksSince_eq_zero (m.count_ticked_stepEvents k)
  | cons c calls ih =>
    rw [eventsUntil_cons, framesSince, ticksSince_append, ih, count_ticked_eventsUntil,
      completedFrames_cons, (count_ticked_events t m c).2]

/-! ### Values at every moment -/

/-- **Timers are exact.** Take any machine, any calls that run it or change its keys, and any number
of steps after them, which may lie within a frame. Then each timer shows what the last instruction
that set it has set it to, or what it started with if there was none, less the frames that were
completed since, and never less than zero. A frame counts from its end, for an instruction in it as
for one before it. Frames that fail do not count, and single steps do not either. The tone sounds
exactly if this is positive for the sound timer, and an instruction that reads the delay timer gets
this value of it. -/
theorem timer_values_exact (m : Machine) {calls : List Call}
    (hc : ∀ c ∈ calls, c.replacesState = false) (k : Nat) :
    let now := ((m.performAll calls).machine.steps k).machine
    (∀ t : Timer, (t.value now.state.timers).toNat =
        (setting t m calls k).toNat - framesSince t m calls k) ∧
      (now.soundActive = true ↔ framesSince .sound m calls k < (setting .sound m calls k).toNat) ∧
      (now.fault? = none → ∀ x, Instruction.decode now.state.fetch = some (.readDelay x) →
        now.step.result = .ok () ∧
          now.step.machine.state = (now.state.setV x now.delay).advance ∧
          (now.step.machine.state.v x).toNat =
            (setting .delay m calls k).toNat - framesSince .delay m calls k) := by
  intro now
  have hvalue : ∀ t : Timer, (t.value now.state.timers).toNat =
      (setting t m calls k).toNat - framesSince t m calls k := by
    intro t
    have hfollows := remaining_follows t (t.value m.state.timers)
    have hstart : (t.value m.state.timers).toNat = t.remaining (t.value m.state.timers) [] :=
      (Nat.sub_zero _).symm
    have hnow := hfollows.until hstart hc k
    rwa [List.nil_append, Timer.remaining, ticksSince_eventsUntil] at hnow
  refine ⟨hvalue, ?_, fun hrunning x hi ↦ ?_⟩
  · have hsound : now.soundActive = true ↔ 0 < (Timer.sound.value now.state.timers).toNat :=
      decide_eq_true_iff.trans UInt8.lt_iff_toNat_lt
    rw [hsound, hvalue]
    omega
  · have heffect : now.effect = .advanced (now.state.setV x now.delay).advance :=
      effect_of_decode hi
    rw [step_of_advanced hrunning heffect]
    refine ⟨rfl, rfl, ?_⟩
    have hread : (now.state.setV x now.delay).advance.v x = Timer.delay.value now.state.timers := by
      show (now.state.registers.set x now.delay).get x = now.delay
      rw [Registers.get_set, if_pos rfl]
    rw [hread, hvalue]

/-- A program that sets the delay timer to five in a first frame of two instructions, and reads it
after that. -/
theorem timer_values_exact_of_read :
    let m := ((powerOn { clockRate := 120 } Rom.empty 0).load
      #[0x60, 0x05, 0xF0, 0x15, 0xF1, 0x07] 0).machine
    let now := (m.performAll [.runFrame]).machine
    (∀ c ∈ [Call.runFrame], c.replacesState = false) ∧
      setting .delay m [.runFrame] 0 = 5 ∧ framesSince .delay m [.runFrame] 0 = 1 ∧
      now.state.timers.delay.toNat = 4 ∧ (now.step.machine.state.v 1).toNat = 4 := by
  have hload := load_of_size_le (m := powerOn { clockRate := 120 } Rom.empty 0)
    (show (#[0x60, 0x05, 0xF0, 0x15, 0xF1, 0x07] : Array UInt8).size ≤ maxRomSize by decide) 0
  -- only the three words count about the machine
  have key : ∀ m : Machine, m.fault? = none → m.config.stepsPerFrame = 2 →
      m.state.fetch = 0x6005 → m.state.memory.readWord (m.state.pc + 2) = 0xF015 →
      m.state.memory.readWord (m.state.pc + 2 + 2) = 0xF107 →
      let now := (m.performAll [.runFrame]).machine
      setting .delay m [.runFrame] 0 = 5 ∧ framesSince .delay m [.runFrame] 0 = 1 ∧
        now.state.timers.delay.toNat = 4 ∧ (now.step.machine.state.v 1).toNat = 4 := by
    intro m hrunning hframe hfirst hsecond hthird now
    have hload : Instruction.decode m.state.fetch = some (.loadImmediate 0 5) := by
      rw [hfirst]
      decide
    let n : Machine := { m with state := (m.state.setV 0 5).advance }
    have hstep : m.step = ⟨.ok (), n, #[m.fetchRecord]⟩ :=
      step_of_advanced hrunning (effect_of_decode hload)
    have hset : Instruction.decode n.state.fetch = some (.setDelay 0) := by
      rw [show n.state.fetch = 0xF015 from hsecond]
      decide
    let timers : Timers := { n.state.timers with delay := n.state.v 0 }
    let n' : Machine := { n with state := { n.state with timers := timers }.advance }
    have hstep' : n.step = ⟨.ok (), n', #[n.fetchRecord]⟩ :=
      step_of_advanced hrunning (effect_of_decode hset)
    have hsteps : m.steps 2 = ⟨⟨2, none⟩, n', #[m.fetchRecord, n.fetchRecord]⟩ := by
      rw [steps_succ_of_ok (by rw [hstep]), hstep, steps_succ_of_ok (by rw [hstep']), hstep']
      rfl
    have hevents : m.stepEvents 2 = [.executed m.state, .executed n.state] := by
      rw [stepEvents_succ_of_ok (by rw [hstep]), hstep, stepEvents_succ_of_ok (by rw [hstep']),
        stepEvents_zero]
    have hok : m.runFrame = ⟨.ok n'.screen, n'.tick, #[m.fetchRecord, n.fetchRecord]⟩ := by
      rw [runFrame_of_ok (by rw [hframe, hsteps]), hframe, hsteps]
    have hnow : now = n'.tick := congrArg Outcome.machine hok
    have hhistory :
        m.eventsUntil [.runFrame] 0 = [.executed m.state, .executed n.state, .ticked] := by
      rw [eventsUntil_cons, events, hok, hframe, hevents]
      rfl
    have hvalue : n.state.v 0 = 5 := by
      show (m.state.registers.set 0 5).get 0 = 5
      rw [Registers.get_set, if_pos rfl]
    have hlast : setting .delay m [.runFrame] 0 = 5 := by
      have hfirst : (Event.executed m.state).setting? .delay = none := by
        rw [Event.setting?, hload]
        rfl
      have hsecond : (Event.executed n.state).setting? .delay = some 5 := by
        rw [Event.setting?, hset, ← hvalue]
        rfl
      rw [setting, hhistory, lastSetting?, List.filterMap_cons_none hfirst,
        List.filterMap_cons_some hsecond]
      rfl
    have hframes : framesSince .delay m [.runFrame] 0 = 1 := by
      show m.completedFrames [.runFrame] = 1
      rw [← count_ticked_eventsUntil m [.runFrame] 0, hhistory]
      simp
    have hread : Instruction.decode now.state.fetch = some (.readDelay 1) := by
      rw [hnow, show n'.tick.state.fetch = 0xF107 from hthird]
      decide
    obtain ⟨hdelay, -, hreads⟩ := timer_values_exact m
      (show ∀ c ∈ [Call.runFrame], c.replacesState = false by decide) 0
    have hdelay := hdelay .delay
    obtain ⟨-, -, hfour⟩ := hreads (show now.fault? = none by rw [hnow]; exact hrunning) 1 hread
    rw [hlast, hframes] at hdelay hfour
    exact ⟨hlast, hframes, hdelay, hfour⟩
  have hmachine := congrArg Outcome.machine hload
  refine ⟨by decide, key _ ?_ ?_ ?_ ?_ ?_⟩
  · rw [hmachine]
    rfl
  · rw [hmachine]
    rfl
  · rw [hmachine, powerOn, State.fetch_powerOn]
    decide
  · rw [hmachine, powerOn, State.powerOn, Memory.readWord_ofRom_program _ (by decide) (by decide)]
    decide
  · rw [hmachine, powerOn, State.powerOn, Memory.readWord_ofRom_program _ (by decide) (by decide)]
    decide

end Machine

end Chip8

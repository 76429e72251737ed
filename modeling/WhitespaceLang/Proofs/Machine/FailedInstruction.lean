import WhitespaceLang.Proofs.Machine.EncodedOutput
import WhitespaceLang.Proofs.Machine.UnreachedInput

/-!
What an instruction that fails leaves behind. The operands that it had come to are gone from the
stack, and if it reads, what it read is gone from the input. Nothing else has changed, so the next
step finds the same instruction and tries it on what is left.
-/

namespace WhitespaceLang
namespace InstrOf

/-- How many operands are gone when the instruction fails, if there were so many. -/
def taken : Instr → Nat
  | .arith _ | .store => 2
  | .jumpZero _ | .jumpNegative _ | .printChar | .printNumber => 1
  | _ => 0

/-- What the instruction does to the device if it is one that reads. -/
def reading? : Instr → Option (Device → Except Failure Int × Device)
  | .readChar => some Device.readChar
  | .readNumber => some Device.readNumber
  | _ => none

end InstrOf

namespace Device

variable {d d' : Device} {e : Failure} {n : Int}

theorem write_text_of_error {t : Text} (h : d.write t = (.error e, d')) :
    d'.output.text = d.output.text := by
  simp only [write, Output.write] at h
  cases hr : d.output.refusal? t with
  | some why =>
      rw [hr] at h
      cases h
      rfl
  | none =>
      rw [hr] at h
      cases hw : d.output.writes.next with
      | mk fate writes =>
          rw [hw] at h
          cases fate with
          | none => cases h
          | some why =>
              cases h
              rfl

theorem printChar_text_of_error (h : d.printChar n = (.error e, d')) :
    d'.output.text = d.output.text := by
  simp only [printChar] at h
  split at h
  · exact write_text_of_error h
  · cases h
    rfl

theorem printNumber_text_of_error (h : d.printNumber n = (.error e, d')) :
    d'.output.text = d.output.text := by
  simp only [printNumber] at h
  split at h
  · exact write_text_of_error h
  · cases h
    rfl

end Device

namespace Data

/-- What an instruction that fails leaves of the data. -/
structure Leaves (d : Data) (i : Instr) (d' : Data) : Prop where
  stack_eq : d'.stack = d.stack.drop (min i.taken d.stack.length)
  heap_eq : d'.heap = d.heap
  output_eq : d'.device.output.text = d.device.output.text
  input_eq (h : i.reading? = none) : d'.device.input = d.device.input
  device_eq {read : Device → Except Failure Int × Device} (h : i.reading? = some read) :
    d'.device = (read d.device).2

section Leaves

variable {d d' : Data} {i : Instr} {e : Failure}

theorem leaves_of_drop {s : Stack} {device : Device} (hs : s = d.stack.drop i.taken)
    (hr : i.reading? = none) (hinput : device.input = d.device.input)
    (houtput : device.output.text = d.device.output.text) : d.Leaves i ⟨s, d.heap, device⟩ where
  stack_eq := by
    obtain hle | hle := Nat.le_total i.taken d.stack.length
    · rw [Nat.min_eq_left hle, hs]
    · rw [Nat.min_eq_right hle, hs, List.drop_length, List.drop_eq_nil_of_le hle]
  heap_eq := rfl
  output_eq := houtput
  input_eq _ := hinput
  device_eq h := by
    rw [hr] at h
    cases h

theorem leaves_self (ht : i.taken = 0) (hr : i.reading? = none) : d.Leaves i d :=
  leaves_of_drop (by rw [ht, List.drop_zero]) hr rfl rfl

theorem leaves_of_updateStack {a : Attempt Stack Failure Unit} (ha : a.Atomic) (ht : i.taken = 0)
    (hr : i.reading? = none) (h : d.updateStack a = (.error e, d')) : d.Leaves i d' := by
  have hmade := updateStack_eq_error_iff.mp (congrArg Prod.fst h)
  rw [updateStack_of_atomic ha, hmade] at h
  cases h
  exact leaves_self ht hr

theorem leaves_of_jumpIf {test : Int → Bool} {l : Label} (hr : i.reading? = none)
    (h : d.jumpIf test l = (.error e, d')) : d.Leaves i d' := by
  simp only [jumpIf] at h
  split at h
  · cases h
  · next hs =>
      cases h
      exact leaves_of_drop (by rw [hs, List.drop_nil]) hr rfl rfl

theorem leaves_of_printTop {print : Int → Device → Except Failure Unit × Device}
    (ht : i.taken = 1) (hr : i.reading? = none)
    (hinput : ∀ v, (print v d.device).2.input = d.device.input)
    (houtput : ∀ v e device, print v d.device = (.error e, device) →
      device.output.text = d.device.output.text)
    (h : d.printTop print = (.error e, d')) : d.Leaves i d' := by
  simp only [printTop] at h
  split at h
  · next v rest hs =>
      have hv := hinput v
      split at h
      · cases h
      · next e device hp =>
          rw [hp] at hv
          cases h
          exact leaves_of_drop (by rw [hs, ht]; rfl) hr hv (houtput v e device hp)
  · next hs =>
      cases h
      exact leaves_of_drop (by rw [hs, List.drop_nil]) hr rfl rfl

theorem leaves_of_storeRead {read : Device → Except Failure Int × Device} (ht : i.taken = 0)
    (hr : i.reading? = some read) (houtput : (read d.device).2.output = d.device.output)
    (h : d.storeRead (read d.device) = (.error e, d')) : d.Leaves i d' := by
  have hd' : d' = { d with device := (read d.device).2 } := by
    simp only [storeRead] at h
    split at h
    · next hread =>
        cases h
        rw [hread]
    · next hread =>
        split at h
        · cases h
        · cases h
          rw [hread]
  subst hd'
  refine ⟨?_, rfl, congrArg Output.text houtput, ?_, ?_⟩
  · rw [ht, Nat.zero_min, List.drop_zero]
  · intro hnone
    rw [hr] at hnone
    cases hnone
  · intro read' hread'
    rw [hr] at hread'
    cases hread'
    rfl

/-- An instruction that fails by itself. -/
theorem leaves_of_error (h : d.execute i = (.error e, d')) : d.Leaves i d' := by
  cases i with
  | dup => exact leaves_of_updateStack OperandStack.atomic_dup rfl rfl h
  | copy n => exact leaves_of_updateStack (OperandStack.atomic_copy n) rfl rfl h
  | swap => exact leaves_of_updateStack OperandStack.atomic_swap rfl rfl h
  | slide n => exact leaves_of_updateStack (OperandStack.atomic_slide n) rfl rfl h
  | jumpZero l | jumpNegative l => exact leaves_of_jumpIf rfl h
  | printChar =>
      exact leaves_of_printTop rfl rfl (fun v => Device.printChar_input v d.device)
        (fun _ _ _ => Device.printChar_text_of_error) h
  | printNumber =>
      exact leaves_of_printTop rfl rfl (fun v => Device.printNumber_input v d.device)
        (fun _ _ _ => Device.printNumber_text_of_error) h
  | readChar => exact leaves_of_storeRead rfl rfl (Device.readChar_output d.device) h
  | readNumber => exact leaves_of_storeRead rfl rfl (Device.readNumber_output d.device) h
  | discard | retrieve =>
      simp only [execute] at h
      split at h
      · cases h
      · cases h
        exact leaves_self rfl rfl
  | arith op =>
      obtain ⟨_ | ⟨right, _ | ⟨left, rest⟩⟩, heap, device⟩ := d
      · cases h
        exact leaves_of_drop rfl rfl rfl rfl
      · cases h
        exact leaves_of_drop rfl rfl rfl rfl
      · simp only [execute] at h
        split at h
        · cases h
        · cases h
          exact leaves_of_drop rfl rfl rfl rfl
  | store =>
      obtain ⟨_ | ⟨value, _ | ⟨address, rest⟩⟩, heap, device⟩ := d
      · cases h
        exact leaves_of_drop rfl rfl rfl rfl
      · cases h
        exact leaves_of_drop rfl rfl rfl rfl
      · cases h
  | push n | mark l | call l | jump l | ret | exit => cases h

/-- An instruction that succeeds and then cannot be left. It asked for a transfer, so all that it
has done is to take the operand of a jump. -/
theorem leaves_of_transfer {c : Control} (h : d.execute i = (.ok c, d')) (hc : c ≠ .next) :
    d.Leaves i d' := by
  have hcontrol := execute_control h
  cases i with
  | call l | jump l | ret | exit =>
      cases h
      exact leaves_self rfl rfl
  | jumpZero l =>
      obtain ⟨v, rest, hs, -, rfl⟩ := execute_jumpZero_eq_ok_iff.mp h
      exact leaves_of_drop (by rw [hs]; rfl) rfl rfl rfl
  | jumpNegative l =>
      obtain ⟨v, rest, hs, -, rfl⟩ := execute_jumpNegative_eq_ok_iff.mp h
      exact leaves_of_drop (by rw [hs]; rfl) rfl rfl rfl
  | _ => exact absurd hcontrol hc

theorem control_of_reading {read : Device → Except Failure Int × Device} {c : Control}
    (hr : i.reading? = some read) (h : d.execute i = (.ok c, d')) : c = .next := by
  have hcontrol := execute_control h
  cases i with
  | readChar | readNumber => exact hcontrol
  | _ => cases hr

/-- Where the read itself went well, the failure is that no address is on the stack. -/
theorem stack_eq_nil_of_read {read : Device → Except Failure Int × Device} {v : Int}
    (hr : i.reading? = some read) (hv : (read d.device).1 = .ok v)
    (h : d.execute i = (.error e, d')) : e = .fault .underflow ∧ d.stack = [] := by
  have hstore : d.storeRead (read d.device) = (.error e, d') := by
    cases i with
    | readChar | readNumber =>
        cases hr
        exact h
    | _ => cases hr
  simp only [storeRead] at hstore
  split at hstore
  · next hread =>
      rw [hread] at hv
      cases hv
  · split at hstore
    · cases hstore
    · next hs =>
        cases hstore
        exact ⟨rfl, hs⟩

end Leaves
end Data

namespace Machine

variable {m m' : Machine} {i : Instr} {e : Failure}

/-- An instruction fails by itself, or because the transfer that it asks for is refused. In both
cases the flow is not touched: a transfer looks whether it can be made before it moves anything. -/
theorem execute_eq_error (h : m.execute i = (.error e, m')) :
    m'.flow = m.flow ∧
      (m.data.execute i = (.error e, m'.data) ∨
        ∃ c f, c ≠ .next ∧ e = .fault f ∧ m.flow.Refuses c f ∧
          m.data.execute i = (.ok c, m'.data)) := by
  simp only [execute] at h
  split at h
  · next he =>
      cases h
      exact ⟨rfl, .inl he⟩
  · next c data he =>
      split at h
      · cases h
      · next f flow hf =>
          cases h
          obtain ⟨hrefuses, rfl⟩ := Flow.outcome_transfer_eq_error_iff.mp hf
          refine ⟨rfl, .inr ⟨c, f, ?_, rfl, hrefuses, he⟩⟩
          rintro rfl
          cases hrefuses

theorem leaves_of_execute (h : m.execute i = (.error e, m')) : m.data.Leaves i m'.data := by
  obtain ⟨-, he | ⟨c, f, hc, -, -, he⟩⟩ := execute_eq_error h
  · exact Data.leaves_of_error he
  · exact Data.leaves_of_transfer he hc

theorem step_of_poll (h : m.flow.poll.1 = some i) :
    m.step = match execute i ⟨m.flow.unmoved, m.data⟩ with
      | (.ok (), m') => (.ok true, { m' with flow := m'.flow.pass })
      | (.error e, m') => (.error e, m') := by
  obtain ⟨hp, hi⟩ := Flow.poll_eq_some_iff.mp h
  cases he : execute i ⟨m.flow.unmoved, m.data⟩ with
  | mk r m' =>
      cases r with
      | ok _ =>
          apply Flow.next_ok hp hi
          exact he
      | error e =>
          apply Flow.next_error hp hi
          exact he

/-- An instruction fares the same whether or not control was transferred before it. -/
theorem execute_unmoved (m : Machine) (i : Instr) :
    (execute i ⟨m.flow.unmoved, m.data⟩).1 = (m.execute i).1 := by
  simp only [execute]
  split
  · rfl
  · next c data _ =>
      obtain ⟨g, hm⟩ | ⟨e, he⟩ := m.flow.moves_or_refuses c
      · obtain ⟨g', hg', -⟩ := hm.outcome_unmoved
        by_cases hc : c = .next
        · subst hc
          rfl
        · rw [hg', (hm.outcome_transfer hc).1]
      · rw [he.unmoved.outcome_transfer, he.outcome_transfer]

/-- The step at an instruction answers as the instruction does, and does the same to the data. -/
theorem step_of_execute (h : m.flow.poll.1 = some i) :
    m.step.1 = ((m.execute i).1.map fun _ => true) ∧ m.step.2.data = (m.execute i).2.data := by
  have hdata : (execute i ⟨m.flow.unmoved, m.data⟩).2.data = (m.execute i).2.data := by
    rw [execute_data, execute_data]
  rw [step_of_poll h, ← m.execute_unmoved i, ← hdata]
  cases execute i ⟨m.flow.unmoved, m.data⟩ with
  | mk r m' => cases r <;> exact ⟨rfl, rfl⟩

theorem step_of_execute_error (h : m.flow.poll.1 = some i) (he : m.execute i = (.error e, m')) :
    m.step = (.error e, ⟨m.flow.unmoved, m'.data⟩) := by
  obtain ⟨hp, hi⟩ := Flow.poll_eq_some_iff.mp h
  obtain ⟨-, hdata | ⟨c, f, -, rfl, hrefuses, hdata⟩⟩ := execute_eq_error he
  · exact step_failed hp hi hdata
  · exact step_refused hp hi hdata hrefuses

end Machine

/-- An instruction that fails leaves the flow as it was and the data without the operands that it
had taken. As a step of the program it fails in the same way, and behind either failure the next
step is another try of the same instruction. -/
theorem failed_instruction {m m' : Machine} {i : Instr} {e : Failure}
    (h : m.execute i = (.error e, m')) :
    m'.flow = m.flow ∧ m.data.Leaves i m'.data ∧
      (∀ read v, i.reading? = some read → (read m.data.device).1 = .ok v →
        e = .fault .underflow ∧ m.data.stack = []) ∧
      (m.flow.poll.1 = some i →
        m.step = (.error e, ⟨{ m.flow with moved := false }, m'.data⟩) ∧
          ∀ n, n = m' ∨ n = m.step.2 →
            n.flow.poll.1 = some i ∧ n.step.1 = ((n.execute i).1.map fun _ => true) ∧
              n.step.2.data = (n.execute i).2.data) := by
  obtain ⟨hflow, hfails⟩ := Machine.execute_eq_error h
  refine ⟨hflow, Machine.leaves_of_execute h, ?_, ?_⟩
  · intro read v hread hv
    obtain he | ⟨c, f, hc, -, -, he⟩ := hfails
    · exact Data.stack_eq_nil_of_read hread hv he
    · exact absurd (Data.control_of_reading hread he) hc
  · intro hpoll
    have hstep := Machine.step_of_execute_error hpoll h
    refine ⟨hstep, ?_⟩
    intro n hn
    have hagain : n.flow.poll.1 = some i := by
      rw [Flow.poll_eq_some_iff] at hpoll ⊢
      obtain rfl | rfl := hn
      · rw [hflow]
        exact hpoll
      · rw [hstep]
        exact hpoll
    exact ⟨hagain, Machine.step_of_execute hagain⟩

/-- A jump to a label that is nowhere has taken its operand, and a character that is read without an
address for it is gone. -/
theorem failed_instruction_of_jump_and_read :
    let m : Machine :=
      ⟨⟨#[.jumpZero [true]], [], .running, 0, [], false⟩, ⟨[0, 7], .empty, .ofText "ab"⟩⟩
    let n : Machine := ⟨⟨#[.readChar], [], .running, 0, [], false⟩, ⟨[], .empty, .ofText "ab"⟩⟩
    (∃ m', m.execute (.jumpZero [true]) = (.error (.fault (.undefinedLabel [true])), m') ∧
      m'.data.stack = [7] ∧ m'.data.device.input = m.data.device.input ∧
      m'.flow.poll.1 = some (.jumpZero [true])) ∧
    ∃ n', n.execute .readChar = (.error (.fault .underflow), n') ∧
      n'.data.device = .ofText "b" ∧ n.step = (.error (.fault .underflow), n') := by
  intro m n
  have hjump : m.execute (.jumpZero [true]) = (.error (.fault (.undefinedLabel [true])), _) := rfl
  have hread : n.execute .readChar = (.error (.fault .underflow), _) := rfl
  obtain ⟨-, hleaves, -, hretry⟩ := failed_instruction hjump
  obtain ⟨-, hleaves', -, hretry'⟩ := failed_instruction hread
  refine ⟨⟨_, hjump, ?_, ?_, ?_⟩, ⟨_, hread, ?_, ?_⟩⟩
  · exact hleaves.stack_eq
  · exact hleaves.input_eq rfl
  · exact ((hretry rfl).2 _ (.inl rfl)).1
  · exact hleaves'.device_eq rfl
  · exact (hretry' rfl).1

end WhitespaceLang

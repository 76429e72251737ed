import WhitespaceLang.Proofs.Device.Plain
import WhitespaceLang.Proofs.Machine.DigitLimit
import WhitespaceLang.Proofs.Machine.Expression
import WhitespaceLang.Proofs.Machine.Interpretation
import WhitespaceLang.Proofs.Source.Spelled

/-!
Running the code of an expression. It puts the value on the stack and leaves everything else as it
was, wherever in a program it stands, or it stops at the first division by 0.
-/

namespace WhitespaceLang

/-- The machine goes on for `k` steps, and then it is `m'`. -/
structure Machine.Reaches (m : Machine) (k : Nat) (m' : Machine) : Prop where
  continues : m.Continues k
  after_eq : m.after k = m'

namespace Machine

variable {m m' m'' : Machine} {j k : Nat}

theorem reaches_one (h : m.step = (.ok true, m')) : m.Reaches 1 m' where
  continues i hi := by
    obtain rfl := Nat.lt_one_iff.mp hi
    rw [after_zero, h]
  after_eq := by rw [after_succ, after_zero, h]

theorem Reaches.trans (h : m.Reaches j m') (h' : m'.Reaches k m'') : m.Reaches (j + k) m'' where
  continues i hi := by
    by_cases hj : i < j
    · exact h.continues i hj
    · obtain ⟨d, rfl⟩ := Nat.exists_eq_add_of_le (Nat.le_of_not_lt hj)
      rw [after_add, h.after_eq]
      exact h'.continues d (Nat.lt_of_add_lt_add_left hi)
  after_eq := by rw [after_add, h.after_eq, h'.after_eq]

theorem Reaches.step (h : m.Reaches k m') (h' : m'.step = (.ok true, m'')) :
    m.Reaches (k + 1) m'' := h.trans (reaches_one h')

theorem stopsAfter_zero {r : Except Failure Bool} {stop : Stop}
    (hstop : Stop.ofAnswer r = some stop) (h : m.step = (r, m')) :
    m.StopsAfter 0 stop ∧ m.after 1 = m' := by
  refine ⟨⟨nofun, ?_⟩, ?_⟩
  · rw [after_zero, h, hstop]
  · rw [after_succ, after_zero, h]

/-- Where the machine comes to after some steps decides where and why it stops. -/
theorem Reaches.stopsAfter (h : m.Reaches j m') {stop : Stop} (h' : m'.StopsAfter k stop) :
    m.StopsAfter (j + k) stop ∧ m.after (j + k + 1) = m'.after (k + 1) := by
  refine ⟨⟨(h.trans ⟨h'.continues, rfl⟩).continues, ?_⟩, ?_⟩
  · rw [after_add, h.after_eq]
    exact h'.stops
  · rw [Nat.add_assoc, after_add, h.after_eq]

/-- The same machine `n` instructions further on, with a value put on the stack. -/
def yielding (m : Machine) (n : Nat) (v : Int) : Machine :=
  ⟨{ m.flow with ip := m.flow.ip + n, moved := false },
    { m.data with stack := v :: m.data.stack }⟩

/-- The machine is running, and the code stands in its program from the pointer on. -/
structure Faces (m : Machine) (code : List Instr) : Prop where
  running : m.flow.phase = .running
  isPrefix : code <+: m.flow.program.toList.drop m.flow.ip

variable {a b : List Instr} {i : Instr}

theorem Faces.front (h : m.Faces (a ++ b)) : m.Faces a :=
  ⟨h.running, (List.prefix_append a b).trans h.isPrefix⟩

theorem Faces.behind (h : m.Faces (a ++ b)) (v : Int) : (m.yielding a.length v).Faces b where
  running := h.running
  isPrefix := by
    obtain ⟨rest, hrest⟩ := h.isPrefix
    refine ⟨rest, ?_⟩
    change b ++ rest = m.flow.program.toList.drop (m.flow.ip + a.length)
    rw [← List.drop_drop, ← hrest, List.append_assoc, List.drop_left]

theorem Faces.instr (h : m.Faces (i :: a)) : m.flow.program[m.flow.ip]? = some i := by
  obtain ⟨rest, hrest⟩ := h.isPrefix
  rw [← Array.getElem?_toList, ← List.head?_drop, ← hrest]
  rfl

theorem step_push {n : Int} (h : m.Faces [.push n]) : m.step = (.ok true, m.yielding 1 n) :=
  step_moved h.running h.instr rfl .next

theorem step_arith {op : Arith} {left right v : Int} {rest : Stack} (h : m.Faces [.arith op])
    (hs : m.data.stack = right :: left :: rest) (hv : op.Yields left right v) :
    m.step = (.ok true, ⟨{ m.flow with ip := m.flow.ip + 1, moved := false },
      { m.data with stack := v :: rest }⟩) := by
  have hexecute := Data.execute_arith_eq_ok_iff.mpr
    ⟨rfl, right, left, rest, v, hs, Arith.yields_iff.mp hv, rfl⟩
  exact step_moved h.running h.instr hexecute .next

/-- A division by 0 has taken its operands when it fails. -/
theorem step_arith_zero {op : Arith} {left : Int} {rest : Stack} (h : m.Faces [.arith op])
    (hs : m.data.stack = 0 :: left :: rest) (hop : op = .div ∨ op = .mod) :
    m.step = (.error (.fault (.divisionByZero op)),
      ⟨m.flow.unmoved, { m.data with stack := rest }⟩) := by
  have hnone : op.apply left 0 = none := Arith.apply_eq_none_iff.mpr ⟨rfl, hop⟩
  exact step_failed h.running h.instr (by simp only [Data.execute, hs, hnone])

end Machine

namespace Expr

variable {e : Expr} {m : Machine}

theorem code_node (op : Arith) (left right : Expr) :
    (node op left right).code = left.code ++ (right.code ++ [.arith op]) :=
  List.append_assoc left.code right.code [.arith op]

theorem length_code_node (op : Arith) (left right : Expr) :
    (node op left right).code.length = left.code.length + right.code.length + 1 := by
  rw [code_node, List.length_append, List.length_append, ← Nat.add_assoc]
  rfl

/-- The code of an expression puts its value on the stack. The induction is on how the value comes
about: the operation finds the values of its operands on top of the stack, the right one first. -/
theorem Value.reaches {v : Int} (h : e.Value v) (hm : m.Faces e.code) :
    m.Reaches e.code.length (m.yielding e.code.length v) := by
  induction h generalizing m with
  | literal n => exact Machine.reaches_one (Machine.step_push hm)
  | @node op left right a b v _ _ hv ihl ihr =>
      rw [code_node] at hm
      have hright := hm.behind a
      have hop := hright.behind b
      have hstep := Machine.step_arith hop rfl hv
      have hreaches := ((ihl hm.front).trans (ihr hright.front)).trans (Machine.reaches_one hstep)
      rw [length_code_node]
      simpa only [Machine.yielding, Nat.add_assoc] using hreaches

/-- The code of an expression stops at its first division by 0. -/
theorem FirstZero.stopsAfter {op : Arith} (h : e.FirstZero op) (hm : m.Faces e.code) :
    ∃ k < e.code.length, m.StopsAfter k (.failed (.fault (.divisionByZero op))) ∧
      (m.after (k + 1)).data.device = m.data.device := by
  induction h generalizing m with
  | left hl ih =>
      rw [code_node] at hm
      obtain ⟨k, hk, hstops, hdevice⟩ := ih hm.front
      rw [length_code_node]
      exact ⟨k, by omega, hstops, hdevice⟩
  | @right op first left right a ha hr ih =>
      rw [code_node] at hm
      have hleft := ha.reaches hm.front
      obtain ⟨k, hk, hstops, hdevice⟩ := ih (hm.behind a).front
      obtain ⟨hstops', hafter⟩ := hleft.stopsAfter hstops
      rw [length_code_node]
      exact ⟨left.code.length + k, by omega, hstops', by rw [hafter, hdevice]; rfl⟩
  | @here op left right a ha hb hop =>
      rw [code_node] at hm
      have hright := hm.behind a
      have hleft := (ha.reaches hm.front).trans (hb.reaches hright.front)
      -- Both operands have been computed, and the right one on top of the stack is 0.
      obtain ⟨hhere, hlast⟩ := Machine.stopsAfter_zero rfl
        (Machine.step_arith_zero (hright.behind 0) rfl hop)
      obtain ⟨hstops, hafter⟩ := hleft.stopsAfter hhere
      rw [length_code_node]
      exact ⟨_, Nat.lt_succ_self _, hstops, by rw [hafter, hlast]; rfl⟩

end Expr

section Plain

variable {m : Machine} {i o : Text}

theorem Report.result_of_ended (h : m.data.device = .plain i o) :
    (m.close .ended).result = .ok o := by
  simp only [Machine.close, Machine.flush, h, Device.flush_plain, result]
  rfl

theorem Report.result_of_fault (h : m.data.device = .plain i o) (f : Fault) :
    (m.close (.failed (.fault f))).result = .ok (withError o f.message) := by
  simp only [Machine.close, Machine.fail, Machine.flush, h, Device.flush_plain, result]
  rfl

end Plain

theorem Machine.faces_started (is : List Instr) (device : Device) :
    (new (Flow.ofInstrs is).finish.started device).Faces is :=
  ⟨rfl, List.prefix_rfl⟩

/-- A program whose last instruction prints a number ends when it has printed it. -/
theorem Machine.Faces.stopsAfter_printNumber {m : Machine} {v : Int} {rest : Stack} {i o : Text}
    (h : m.Faces [.printNumber]) (hlast : m.flow.program[m.flow.ip + 1]? = none)
    (hs : m.data.stack = v :: rest) (hd : m.data.device = .plain i o) (hv : Decimal.Fits v) :
    m.StopsAfter 1 .ended ∧ (m.after 2).data.device = .plain i (o ++ Decimal.text v) := by
  have hprint : m.data.device.printNumber v = (.ok (), .plain i (o ++ Decimal.text v)) := by
    rw [hd, Device.printNumber_plain_iff]
    exact ⟨hv, rfl⟩
  have hexecute := Data.printTop_eq_ok_iff.mpr ⟨rfl, v, rest, _, hs, hprint, rfl⟩
  let printed : Machine := ⟨{ m.flow with ip := m.flow.ip + 1, moved := false },
    ⟨rest, m.data.heap, .plain i (o ++ Decimal.text v)⟩⟩
  have hstep : m.step = (.ok true, printed) := step_moved h.running h.instr hexecute .next
  have hend : printed.step = (.ok false, _) := step_ended h.running hlast
  obtain ⟨hhere, hended⟩ := stopsAfter_zero rfl hend
  obtain ⟨hstops, hafter⟩ := (reaches_one hstep).stopsAfter hhere
  refine ⟨hstops, ?_⟩
  rw [hafter, hended]

namespace Expr

variable {e : Expr} {t : Text} {fuel : Nat}

theorem marks_code (e : Expr) : Flow.marks e.code = [] := by
  induction e with
  | literal n => rfl
  | node op left right ihl ihr =>
      rw [code_node, Flow.marks_append, Flow.marks_append, ihl, ihr]
      rfl

theorem load_of_spelled (h : Spelled e.program t) :
    Flow.load t = .ok (Flow.ofInstrs e.program).finish := by
  refine Flow.load_of_spelled h ?_
  rw [program, Flow.marks_append, marks_code]
  exact List.nodup_nil

theorem interpret_of_value {v : Int} (h : Spelled e.program t) (hv : e.Value v)
    (hfits : Decimal.Fits v) (hfuel : e.program.length < fuel) (stdin : Text) :
    interpret fuel t stdin = some (.ok (Decimal.text v)) := by
  have hstart := Machine.faces_started e.program (.ofText stdin)
  have hlast : (Flow.ofInstrs e.program).finish.program[0 + e.code.length + 1]? = none := by
    rw [Flow.getElem?_ofInstrs, List.getElem?_eq_none_iff, program, List.length_append,
      Nat.zero_add]
    exact Nat.le_refl _
  obtain ⟨hprinted, hdevice⟩ := (hstart.behind v).stopsAfter_printNumber hlast rfl
    (Device.ofText_eq_plain stdin) hfits
  obtain ⟨hstops, hafter⟩ := (hv.reaches hstart.front).stopsAfter hprinted
  have hlt : e.code.length + 1 < fuel := by
    rw [program, List.length_append] at hfuel
    exact hfuel
  rw [interpret_of_stopsAfter (load_of_spelled h) hstops hlt, hafter,
    Report.result_of_ended hdevice, List.nil_append]

theorem interpret_of_firstZero {op : Arith} (h : Spelled e.program t) (hop : e.FirstZero op)
    (hfuel : e.program.length < fuel) (stdin : Text) :
    interpret fuel t stdin = some (.ok (withError [] (Fault.divisionByZero op).message)) := by
  have hstart := Machine.faces_started e.program (.ofText stdin)
  obtain ⟨k, hk, hstops, hdevice⟩ := hop.stopsAfter hstart.front
  have hlt : k < fuel := by
    rw [program, List.length_append] at hfuel
    omega
  rw [interpret_of_stopsAfter (load_of_spelled h) hstops hlt,
    Report.result_of_fault (hdevice.trans (Device.ofText_eq_plain stdin))]

end Expr

/-- What comes of the program of an expression, however it is spelled and whatever there is to read.
The numbers on the way to the value may be of any size. -/
theorem compiled_expression {e : Expr} {t : Text} (h : Spelled e.program t) {fuel : Nat}
    (hfuel : e.program.length < fuel) (stdin : Text) :
    ((∃! v, e.Value v) ∨ ∃! op, (op = .div ∨ op = .mod) ∧ e.FirstZero op) ∧
    (∀ v, e.Value v → Decimal.Fits v →
      interpret fuel t stdin = some (.ok (Decimal.text v))) ∧
    (e.FirstZero .div → interpret fuel t stdin = some (.ok "\n Error: DIV by zero")) ∧
    (e.FirstZero .mod → interpret fuel t stdin = some (.ok "\n Error: MOD by zero")) := by
  refine ⟨?_, ?_, ?_, ?_⟩
  · obtain ⟨v, hv⟩ | ⟨op, hop⟩ := e.value_or_firstZero
    · exact .inl ⟨v, hv, fun v' hv' => hv'.unique hv⟩
    · exact .inr ⟨op, ⟨hop.op_eq, hop⟩, fun op' hop' => hop'.2.unique hop⟩
  · intro v hv hfits
    exact Expr.interpret_of_value h hv hfits hfuel stdin
  · intro hop
    exact Expr.interpret_of_firstZero h hop hfuel stdin
  · intro hop
    exact Expr.interpret_of_firstZero h hop hfuel stdin

/-- The quotient of a negative number, and the remainder of it by 0. -/
theorem compiled_expression_of_negative_dividend :
    let quotient : Expr := .node .div (.literal (-7)) (.literal 2)
    let remainder : Expr := .node .mod quotient (.literal 0)
    interpret 5 (sourceOf quotient.program) [] = some (.ok "-4") ∧
      interpret 7 (sourceOf remainder.program) [] = some (.ok "\n Error: MOD by zero") := by
  intro quotient remainder
  have hdivides : Arith.Divides (-7) 2 (-4) 1 := ⟨by decide, .inl (by decide)⟩
  have hvalue : quotient.Value (-4) := .node (.literal _) (.literal _) (.div hdivides)
  have hzero : remainder.FirstZero .mod := .here hvalue (.literal 0) (.inr rfl)
  obtain ⟨-, hprints, -, -⟩ := compiled_expression (spelled_sourceOf quotient.program)
    (by decide : quotient.program.length < 5) []
  obtain ⟨-, -, -, hfails⟩ := compiled_expression (spelled_sourceOf remainder.program)
    (by decide : remainder.program.length < 7) []
  have htext : Decimal.text (-4) = "-4" := by
    change CodePoint.ofChar '-' :: Decimal.natText 4 = "-4"
    rw [Decimal.natText, Decimal.digitsBefore, if_pos (by decide)]
    rfl
  rw [← htext]
  exact ⟨hprints (-4) hvalue (Decimal.fits_of_lt (by decide)), hfails hzero⟩

end WhitespaceLang

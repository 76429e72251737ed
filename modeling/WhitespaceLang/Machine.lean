import WhitespaceLang.Data

/-!
The machine: the flow of control together with the data. An instruction that fails leaves the flow
where it was, so the next step tries it again.
-/

namespace WhitespaceLang

structure Machine where
  flow : Flow
  data : Data

namespace Machine

def new (flow : Flow) (device : Device) : Machine := ⟨flow, .new device⟩

/-- Runs an instruction, which may transfer control when it is done with the data. -/
def execute (i : Instr) (m : Machine) : Except Failure Unit × Machine :=
  match m.data.execute i with
  | (.error e, data) => (.error e, { m with data })
  | (.ok c, data) =>
      match (FlowControl.transfer c).outcome m.flow with
      | (.ok (), flow) => (.ok (), ⟨flow, data⟩)
      | (.error f, flow) => (.error (.fault f), ⟨flow, data⟩)

/-- Runs the instruction at the pointer, or says that there is none left. -/
def step (m : Machine) : Except Failure Bool × Machine :=
  Flow.next flow (fun flow m => { m with flow }) execute m

end Machine
end WhitespaceLang

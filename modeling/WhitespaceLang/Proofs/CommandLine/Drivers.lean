import WhitespaceLang.Proofs.Bytes.RoundTrip
import WhitespaceLang.Proofs.CommandLine.Sources
import WhitespaceLang.Proofs.Machine.EncodedOutput

/-!
The two ways to run a program text. One has its input and output as text and adds the error to what
has been printed; the other has them as bytes and reports the error apart. Whatever the program
does, they tell the same of it.
-/

namespace WhitespaceLang

/-- A source that is loaded and run over an input prints `output`, and stops within `n` steps with
the error `message` or with none. A source that is not loaded prints nothing. -/
inductive RunsTo (n : Nat) (source input : Text) : (output : Text) → (message : Option Text) → Prop
  | refused {e : LoadError} (h : Flow.load source = .error e) :
      RunsTo n source input [] (some e.message)
  | finished {f : Flow} {r : Report} (h : Flow.load source = .ok f)
      (hr : f.run n (.ofText input) = .ok (some r)) (hend : r.ending = .finished) :
      RunsTo n source input r.machine.data.device.output.text none
  | failed {f : Flow} {r : Report} {ip : Nat} {e : Fault} (h : Flow.load source = .ok f)
      (hr : f.run n (.ofText input) = .ok (some r)) (hend : r.ending = .fault ip e) :
      RunsTo n source input r.machine.data.device.output.text (some e.message)

section Drivers

variable {n : Nat} {source input o : Text} {m : Option Text}

theorem RunsTo.interpret (h : RunsTo n source input o m) :
    interpret n source input = some (.ok (m.elim o fun e => o ++ "\n Error: " ++ e)) := by
  cases h with
  | refused h => exact interpret_of_refused h
  | finished h hr hend =>
      refine (interpret_eq_some_iff h).mpr ⟨_, hr, ?_⟩
      rw [Report.result, hend]
      rfl
  | failed h hr hend =>
      refine (interpret_eq_some_iff h).mpr ⟨_, hr, ?_⟩
      rw [Report.result, hend]
      rfl

/-- Nothing else stops: what is left out are the runs that a number too long breaks off. -/
theorem exists_runsTo_iff :
    (∃ o m, RunsTo n source input o m) ↔ ∃ t, interpret n source input = some (.ok t) := by
  constructor
  · intro h
    obtain ⟨o, m, h⟩ := h
    exact ⟨_, h.interpret⟩
  · intro h
    obtain ⟨t, ht⟩ := h
    cases hload : Flow.load source with
    | error e => exact ⟨_, _, .refused hload⟩
    | ok f =>
        obtain ⟨r, hr, hresult⟩ := (interpret_eq_some_iff hload).mp ht
        cases hend : r.ending with
        | finished => exact ⟨_, _, .finished hload hr hend⟩
        | fault ip e => exact ⟨_, _, .failed hload hr hend⟩
        | tooLong e =>
            rw [Report.result, hend] at hresult
            cases hresult

namespace CommandLine

theorem runText_of_runsTo (h : RunsTo n source input o m) (ho : o.Encodable) :
    runText n false source (.ofText input) =
      some (m.elim ⟨.returned 0, o, []⟩ fun e => ⟨.returned 1, o, "Error: " ++ e ++ "\n"⟩) := by
  cases h with
  | refused h =>
      simp only [runText, h]
      rfl
  | finished h hr hend =>
      have hrun := (Flow.Loaded.text h).run_encoded hr ho
      simp only [runText, h, hrun, reportOutcome, hend]
      rfl
  | failed h hr hend =>
      have hrun := (Flow.Loaded.text h).run_encoded hr ho
      simp only [runText, h, hrun, reportOutcome, hend]
      rfl

theorem ofBytes_of_decode {bytes : List UInt8} {t : Text} (h : Utf8.decode bytes = (t, none)) :
    Input.ofBytes bytes = .ofText t.unifyLineEnds := by
  simp only [Input.ofBytes, Input.ofChunks, h]

/-- A program in a file and standard input are run as their texts are. What is printed is the same,
in bytes that are decoded to it, and the error that the one adds to it is the error that the other
reports with its code. -/
theorem drivers_agree {name : Text} {read : FileReader} {bytes stdin : List UInt8} {t : Text}
    (hname : IsFileName name) (hread : read name = .ok bytes)
    (hstdin : Utf8.decode stdin = (t, none))
    (h : RunsTo n (Utf8.decodeReplacing bytes) t.unifyLineEnds o m)
    (ho : ∀ c ∈ o, c.isSurrogate = false) :
    interpret n (Utf8.decodeReplacing bytes) t.unifyLineEnds =
        some (.ok (m.elim o fun e => o ++ "\n Error: " ++ e)) ∧
      ∃ outcome, run n [name] read stdin = some outcome ∧
        outcome =
          (m.elim ⟨.returned 0, o, []⟩ fun e => ⟨.returned 1, o, "Error: " ++ e ++ "\n"⟩) ∧
        Utf8.decode outcome.stdoutBytes = (o, none) := by
  refine ⟨h.interpret, _, ?_, rfl, ?_⟩
  · rw [run_program hname hread, ofBytes_of_decode hstdin]
    exact runText_of_runsTo h ho
  · cases m <;> exact Utf8.decode_encode ho

/-- A character is echoed before a return fails. -/
theorem drivers_agree_of_failing_return :
    let program : List Instr := [.push 0, .readChar, .push 0, .retrieve, .printChar, .ret]
    let bytes := Utf8.encode (sourceOf program)
    let read : FileReader := fun _ => .ok bytes
    interpret 6 (Utf8.decodeReplacing bytes) "é" =
        some (.ok "é\n Error: Return outside a subroutine") ∧
      ∃ outcome, run 6 ["echo.ws"] read [0xC3, 0xA9] = some outcome ∧
        outcome.exit = .returned 1 ∧ outcome.stdoutBytes = [0xC3, 0xA9] ∧
        outcome.stderr = "Error: Return outside a subroutine\n" := by
  intro program bytes read
  have hname : IsFileName "echo.ws" := isFileName_of_all ⟨_, _, rfl, by decide⟩ (by decide)
  have hstdin : Utf8.decode [0xC3, 0xA9] = (("é" : Text), none) := by decide
  have hsource : Utf8.decodeReplacing bytes = sourceOf program := by decide
  have hload := Flow.load_of_spelled (spelled_sourceOf program) (by decide)
  obtain ⟨r, hr, hend, hout⟩ : ∃ r, (Flow.ofInstrs program).finish.run 6 (.ofText "é") =
      .ok (some r) ∧ r.ending = .fault 5 .returnOutside ∧
      r.machine.data.device.output.text = "é" := ⟨_, rfl, by decide, by decide⟩
  have hruns := RunsTo.failed hload hr hend
  have hprinted : ∀ c ∈ ("é" : Text), c.isSurrogate = false := by
    intro c hc
    cases List.mem_singleton.mp hc
    decide
  have hunified : Text.unifyLineEnds "é" = "é" := by decide
  rw [hout, ← hsource, ← hunified] at hruns
  obtain ⟨hinterpret, _, hrun, rfl, -⟩ :=
    drivers_agree hname (rfl : read "echo.ws" = .ok bytes) hstdin hruns hprinted
  have htold : ("é" : Text) ++ "\n Error: " ++ Fault.message .returnOutside =
      "é\n Error: Return outside a subroutine" := by decide
  rw [hunified] at hinterpret
  exact ⟨hinterpret.trans (congrArg (some ∘ Except.ok) htold), _, hrun, rfl, by decide, by decide⟩

end CommandLine
end Drivers
end WhitespaceLang

import WhitespaceLang.Proofs.Machine.DeviceChange

/-!
Input that a run has not come to. Reading takes characters from the front, so what is left is always
the end of what there was before. As long as something is left, no operation has looked for more
than there is, and it would have done the same with any other text behind.
-/

namespace WhitespaceLang

namespace Input

/-- The same input with a text behind what is left of it. -/
def followedBy (y : Text) (i : Input) : Input := { i with text := i.text ++ y }

theorem readPastBlanks_eq (i : Input) :
    i.readPastBlanks =
      match i.read with
      | (.ok (some c), i') => if c.isBlank then i'.readPastBlanks else (.ok (some c), i')
      | r => r := by
  rw [readPastBlanks]
  split
  · next h => simp only [h]
  · next h =>
      split
      · next h' => exact absurd h' (h _ _)
      · rfl

theorem readWord_eq (i : Input) :
    i.readWord =
      match i.read with
      | (.ok (some c), i') =>
          if c.isBlank then (.ok [], i') else (i'.readWord.1.map (c :: ·), i'.readWord.2)
      | (.ok none, i') => (.ok [], i')
      | (.error why, i') => (.error why, i') := by
  rw [readWord]
  split
  · next h =>
      simp only [h]
      split
      · rfl
      · split <;> next hw => rw [hw]; rfl
  · next h => simp only [h]
  · next h => simp only [h]

theorem read_suffix (i : Input) : i.read.2.text <:+ i.text := by
  simp only [read]
  split
  · exact List.suffix_rfl
  · exact List.tail_suffix i.text

theorem readPastBlanks_suffix (i : Input) : i.readPastBlanks.2.text <:+ i.text := by
  fun_induction readPastBlanks i with
  | case1 i c i' h _ _ ih =>
      have hread := i.read_suffix
      rw [h] at hread
      exact ih.trans hread
  | case2 i c i' h _ _ =>
      have hread := i.read_suffix
      rw [h] at hread
      exact hread
  | case3 i _ => exact i.read_suffix

theorem readWord_suffix (i : Input) : i.readWord.2.text <:+ i.text := by
  fun_induction readWord i with
  | case1 i c i' h _ _ | case4 i i' h | case5 i why i' h =>
      have hread := i.read_suffix
      rw [h] at hread
      exact hread
  | case2 i c i' h _ _ word i'' hw ih | case3 i c i' h _ _ why i'' hw ih =>
      have hread := i.read_suffix
      rw [h] at hread
      rw [hw] at ih
      exact ih.trans hread

section FollowedBy

variable {y : Text} {i : Input}

theorem read_followedBy (h : i.read.2.text ≠ []) :
    (i.followedBy y).read = (i.read.1, i.read.2.followedBy y) := by
  obtain ⟨text, faults⟩ := i
  simp only [read, followedBy] at h ⊢
  cases hfate : faults.next with
  | mk fate faults' =>
      cases fate with
      | some why => rfl
      | none =>
          cases text with
          | nil => simp [hfate] at h
          | cons c rest => rfl

theorem readPastBlanks_followedBy (h : i.readPastBlanks.2.text ≠ []) :
    (i.followedBy y).readPastBlanks =
      (i.readPastBlanks.1, i.readPastBlanks.2.followedBy y) := by
  fun_induction readPastBlanks i with
  | case1 i c i' hread _ hc ih =>
      have hleft : i.read.2.text ≠ [] := by
        rw [hread]
        exact i'.readPastBlanks_suffix.ne_nil h
      rw [readPastBlanks_eq, read_followedBy hleft, hread]
      simp only [hc, ↓reduceIte, ih h]
  | case2 i c i' hread _ hc =>
      have hleft : i.read.2.text ≠ [] := by
        rw [hread]
        exact h
      rw [readPastBlanks_eq, read_followedBy hleft, hread]
      simp only [hc, Bool.false_eq_true, ↓reduceIte]
  | case3 i hstop =>
      rw [readPastBlanks_eq, read_followedBy h]
      cases hread : i.read with
      | mk r i' =>
          obtain _ | _ | c := r
          · rfl
          · rfl
          · exact absurd hread (hstop c i')

theorem readWord_followedBy (h : i.readWord.2.text ≠ []) :
    (i.followedBy y).readWord = (i.readWord.1, i.readWord.2.followedBy y) := by
  fun_induction readWord i with
  | case1 i c i' hread _ hc =>
      have hleft : i.read.2.text ≠ [] := by
        rw [hread]
        exact h
      rw [readWord_eq, read_followedBy hleft, hread]
      simp only [hc, ↓reduceIte]
  | case2 i c i' hread _ hc word i'' hw ih | case3 i c i' hread _ hc word i'' hw ih =>
      rw [hw] at ih
      have hleft : i.read.2.text ≠ [] := by
        rw [hread]
        have hsuffix := i'.readWord_suffix
        rw [hw] at hsuffix
        exact hsuffix.ne_nil h
      rw [readWord_eq, read_followedBy hleft, hread]
      simp only [hc, Bool.false_eq_true, ↓reduceIte, ih h]
      rfl
  | case4 i i' hread | case5 i why i' hread =>
      have hleft : i.read.2.text ≠ [] := by
        rw [hread]
        exact h
      rw [readWord_eq, read_followedBy hleft, hread]

end FollowedBy
end Input

namespace Device

def followedBy (y : Text) (d : Device) : Device := { d with input := d.input.followedBy y }

section Use

variable {y : Text} {d d' : Device}

theorem readChar_input (d : Device) : d.readChar.2.input = d.input.read.2 := by
  simp only [readChar]
  split <;> next h => rw [h]

theorem write_input (t : Text) (d : Device) : (d.write t).2.input = d.input := by
  simp only [write]
  split <;> rfl

theorem printChar_input (n : Int) (d : Device) : (d.printChar n).2.input = d.input := by
  simp only [printChar]
  split
  · exact write_input _ d
  · rfl

theorem printNumber_input (n : Int) (d : Device) : (d.printNumber n).2.input = d.input := by
  simp only [printNumber]
  split
  · exact write_input _ d
  · rfl

theorem readNumber_suffix (d : Device) : d.readNumber.2.input.text <:+ d.input.text := by
  have hblanks := d.input.readPastBlanks_suffix
  simp only [readNumber]
  split
  · next h =>
      rw [h] at hblanks
      exact hblanks
  · next h =>
      rw [h] at hblanks
      exact hblanks
  · next c i h =>
      rw [h] at hblanks
      have hword := i.readWord_suffix
      split <;> next h' =>
        rw [h'] at hword
        exact hword.trans hblanks

theorem Serves.input_suffix (h : d.Serves d') : d'.input.text <:+ d.input.text := by
  cases h with
  | unused => exact List.suffix_rfl
  | readChar =>
      rw [readChar_input]
      exact d.input.read_suffix
  | readNumber => exact d.readNumber_suffix
  | printChar n => rw [printChar_input]
  | printNumber n => rw [printNumber_input]

theorem write_followedBy (t : Text) (d : Device) :
    (d.followedBy y).write t = ((d.write t).1, (d.write t).2.followedBy y) := by
  simp only [write, followedBy]
  cases d.output.write t with
  | mk r output => cases r <;> rfl

theorem flush_followedBy (d : Device) :
    (d.followedBy y).flush = (d.flush.1, d.flush.2.followedBy y) := by
  simp only [flush, followedBy]
  cases d.output.flush with
  | mk r output => cases r <;> rfl

theorem readNumber_followedBy (h : d.readNumber.2.input.text ≠ []) :
    (d.followedBy y).readNumber = (d.readNumber.1, d.readNumber.2.followedBy y) := by
  obtain ⟨input, output⟩ := d
  simp only [readNumber, followedBy] at h ⊢
  have hblanks : input.readPastBlanks.2.text ≠ [] →
      (input.followedBy y).readPastBlanks = _ := Input.readPastBlanks_followedBy
  cases hb : input.readPastBlanks with
  | mk r i =>
      rw [hb] at h hblanks
      obtain why | _ | c := r
      · rw [hblanks h]
      · rw [hblanks h]
      · have hword : i.readWord.2.text ≠ [] → (i.followedBy y).readWord = _ :=
          Input.readWord_followedBy
        have hsuffix := i.readWord_suffix
        simp only at h
        cases hw : i.readWord with
        | mk r i' =>
            rw [hw] at h hword hsuffix
            cases r with
            | error why | ok word =>
                rw [hblanks (hsuffix.ne_nil h)]
                simp only [hword h, hw]

/-- Text behind the input is not noticed by an operation that leaves something to read. -/
theorem unnoticed_followedBy (y : Text) (d : Device) :
    d.UnnoticedWithin (fun d => d.input.text ≠ []) (followedBy y) where
  readChar h := by
    rw [readChar_input] at h
    simp only [readChar, followedBy, Input.read_followedBy h]
    cases d.input.read with
    | mk r i => obtain _ | _ | c := r <;> rfl
  readNumber := readNumber_followedBy
  printChar :=
    printChar_of_write (P := fun d => d.input.text ≠ []) fun t _ => write_followedBy t d
  printNumber :=
    printNumber_of_write (P := fun d => d.input.text ≠ []) fun t _ => write_followedBy t d

end Use
end Device

namespace Machine

section Input

variable {y : Text} {m : Machine} {j k : Nat}

theorem input_suffix_after (m : Machine) (h : j ≤ k) :
    (m.after k).data.device.input.text <:+ (m.after j).data.device.input.text :=
  device_between (R := fun d d' => d'.input.text <:+ d.input.text) (fun _ => List.suffix_rfl)
    (fun _ _ _ hd hs => hs.input_suffix.trans hd) m h

/-- As long as something is left to read, no step has noticed what stands behind it. -/
theorem unnoticing_followedBy (y : Text) (h : (m.after k).data.device.input.text ≠ []) :
    m.Unnoticing (Device.followedBy y) k :=
  unnoticing_of_within (fun _ _ => Device.unnoticed_followedBy y _)
    fun _ hj => (m.input_suffix_after hj).ne_nil h

end Input

/-- The second machine is in the state of the first, with the text `y` behind the input that is left
to it. -/
structure FollowedBy (y : Text) (m m' : Machine) : Prop where
  flow_eq : m'.flow = m.flow
  stack_eq : m'.data.stack = m.data.stack
  heap_eq : m'.data.heap = m.data.heap
  output_eq : m'.data.device.output = m.data.device.output
  input_eq : m'.data.device.input.text = m.data.device.input.text ++ y

theorem followedBy_mapDevice (y : Text) (m : Machine) :
    FollowedBy y m (m.mapDevice (Device.followedBy y)) :=
  ⟨rfl, rfl, rfl, rfl, rfl⟩

end Machine

/-- A run does not depend on input that it has not come to. As many steps as leave something of the
input answer the same and lead through the same states if there is more text behind it, and a run
that stops with input left has the same report. -/
theorem unreached_input {f : Flow} (hf : f.Loaded) (x y : Text) :
    ∃ m m', f.launch (.ofText x) = .ok m ∧ f.launch (.ofText (x ++ y)) = .ok m' ∧
      (∀ k, (m.after k).data.device.input.text ≠ [] →
        (∀ j < k, (m'.after j).step.1 = (m.after j).step.1) ∧
        ∀ j ≤ k, Machine.FollowedBy y (m.after j) (m'.after j)) ∧
      ∀ n r, f.run n (.ofText x) = .ok (some r) → r.machine.data.device.input.text ≠ [] →
        ∃ r', f.run n (.ofText (x ++ y)) = .ok (some r') ∧ r'.ending = r.ending ∧
          r'.events = r.events ∧ Machine.FollowedBy y r.machine r'.machine := by
  have hmore : Machine.new f.started (.ofText (x ++ y)) =
      (Machine.new f.started (.ofText x)).mapDevice (Device.followedBy y) := rfl
  refine ⟨_, _, hf.launch_eq (.ofText x), hf.launch_eq (.ofText (x ++ y)), ?_, ?_⟩
  · intro k hleft
    have hunnoticed := Machine.unnoticing_followedBy y hleft
    rw [hmore]
    refine ⟨fun j hj => hunnoticed.answer hj, ?_⟩
    intro j hj
    rw [hunnoticed.after hj]
    exact Machine.followedBy_mapDevice y _
  · intro n r hr hleft
    have hrun := hf.run_mapDevice Device.flush_followedBy hr fun k hflushed =>
      Machine.unnoticing_followedBy y (by rw [← hflushed.input_eq]; exact hleft)
    exact ⟨_, hrun, rfl, rfl, Machine.followedBy_mapDevice y r.machine⟩

/-- A character is read, and the return that fails afterwards is tried again. What stands behind the
second character has no part in it. -/
theorem unreached_input_of_failing_return :
    let f : Flow := ⟨#[.push 0, .readChar, .ret], [], .ready, 0, [], false⟩
    f.Loaded ∧ ∃ m m', f.launch (.ofText "ab") = .ok m ∧ f.launch (.ofText ("ab" ++ "c")) = .ok m' ∧
      (m.after 4).data.device.input.text = "b" ∧ Machine.FollowedBy "c" (m.after 4) (m'.after 4) ∧
      ∃ r, f.run 3 (.ofText ("ab" ++ "c")) = .ok (some r) ∧ r.ending = .fault 2 .returnOutside ∧
        r.machine.data.device.input.text = "b" ++ "c" := by
  intro f
  have hadd : Flow.empty.addAll [.push 0, .readChar, .ret] = .ok { f with phase := .loading } := rfl
  have hf : f.Loaded := .instrs hadd
  obtain ⟨m, m', hm, hm', hsteps, hruns⟩ := unreached_input hf "ab" "c"
  cases (hf.launch_eq _).symm.trans hm
  have hleft : ((Machine.new f.started (.ofText "ab")).after 4).data.device.input.text = "b" := by
    decide
  obtain ⟨-, hstates⟩ := hsteps 4 (by rw [hleft]; decide)
  obtain ⟨r', hr', hending, -, hfollowed⟩ := hruns 3 _ rfl (by decide)
  exact ⟨hf, _, m', hm, hm', hleft, hstates 4 (Nat.le_refl 4), r', hr', hending, hfollowed.input_eq⟩

end WhitespaceLang

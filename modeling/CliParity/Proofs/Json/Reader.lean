import CliParity.Json.Reader

/-!
# The tokens of a value denote it

Read in a state that waits for a value, the tokens of a value take the reader to the state in which
this value has been delivered (`Json.delivers`). So the tokens of a value denote the value and no
other (`ofTokens?_tokens`).
-/

set_option autoImplicit false

namespace CliParity.Json

/-- What holds of a container if it holds of its parts holds of every value. -/
theorem parts_induction {P : Json → Prop} (scalar : ∀ s, P (.scalar s))
    (arr : ∀ items, (∀ v ∈ items, P v) → P (.arr items))
    (obj : ∀ members, (∀ m ∈ members, P m.2) → P (.obj members)) (v : Json) : P v :=
  match v with
  | .scalar s => scalar s
  | .arr items => arr items fun v _ => parts_induction scalar arr obj v
  | .obj members => obj members fun m _ => parts_induction scalar arr obj m.2
termination_by sizeOf v
decreasing_by
  · have := List.sizeOf_lt_of_mem ‹v ∈ items›
    simp only [Json.arr.sizeOf_spec]
    omega
  · have := List.sizeOf_lt_of_mem ‹m ∈ members›
    have : sizeOf m = 1 + sizeOf m.1 + sizeOf m.2 := by
      cases m
      rfl
    simp only [Json.obj.sizeOf_spec]
    omega

namespace State

/-- The reader goes on from a state with some tokens. -/
abbrev run (tokens : List Token) (state : State) : Option State := tokens.foldlM step? state

/-- The value is read wherever a value may come. -/
def Delivers (v : Json) : Prop :=
  ∀ outer rest, run (tokens v ++ rest) (.value outer) = run rest (deliver v outer)

/-- A value may come for the first item of an array. -/
theorem run_firstItem (v : Json) (outer : List Frame) (rest : List Token) :
    run (tokens v ++ rest) (.firstItem outer) =
      run (tokens v ++ rest) (.value (.array [] :: outer)) := by
  rcases v with s | items | members
  · rfl
  · cases items <;> rfl
  · rcases members with _ | ⟨m, members⟩ <;> rfl

theorem run_itemTokens {items : List Json} (h : ∀ v ∈ items, Delivers v) (before : List Json)
    (outer : List Frame) (rest : List Token) :
    run (itemTokens items ++ .closeArray :: rest) (.afterItem before outer) =
      run rest (deliver (.arr (before.reverse ++ items)) outer) := by
  induction items generalizing before with
  | nil => simp [itemTokens, step?]
  | cons v items ih =>
    have hv := h v List.mem_cons_self (.array before :: outer)
      (itemTokens items ++ .closeArray :: rest)
    have hi := ih (fun w hw => h w (List.mem_cons_of_mem v hw)) (v :: before)
    rw [List.reverse_cons, List.append_assoc, List.singleton_append] at hi
    rw [itemTokens, List.cons_append, List.cons_append, List.append_assoc]
    exact hv.trans hi

theorem run_memberTokens {members : List (Content × Json)} (h : ∀ m ∈ members, Delivers m.2)
    (before : List (Content × Json)) (outer : List Frame) (rest : List Token) :
    run (memberTokens members ++ .closeObject :: rest) (.afterMember before outer) =
      run rest (deliver (.obj (before.reverse ++ members)) outer) := by
  induction members generalizing before with
  | nil => simp [memberTokens, step?]
  | cons m members ih =>
    obtain ⟨k, v⟩ := m
    have hv := h (k, v) List.mem_cons_self (.object before k :: outer)
      (memberTokens members ++ .closeObject :: rest)
    have hi := ih (fun w hw => h w (List.mem_cons_of_mem _ hw)) ((k, v) :: before)
    rw [List.reverse_cons, List.append_assoc, List.singleton_append] at hi
    rw [memberTokens, List.cons_append, List.cons_append, List.cons_append, List.cons_append,
      List.append_assoc]
    exact hv.trans hi

/-- Every value is read wherever a value may come. -/
theorem delivers (v : Json) : Delivers v := by
  induction v using parts_induction with
  | scalar s => exact fun outer rest => rfl
  | arr items ih =>
    intro outer rest
    cases items with
    | nil => rfl
    | cons v items =>
      have hv := ih v List.mem_cons_self (.array [] :: outer)
        (itemTokens items ++ .closeArray :: rest)
      have hi := run_itemTokens (fun w hw => ih w (List.mem_cons_of_mem v hw)) [v] outer rest
      rw [tokens, List.append_assoc, List.append_assoc]
      exact (run_firstItem v outer _).trans (hv.trans hi)
  | obj members ih =>
    intro outer rest
    cases members with
    | nil => rfl
    | cons m members =>
      obtain ⟨k, v⟩ := m
      have hv := ih (k, v) List.mem_cons_self (.object [] k :: outer)
        (memberTokens members ++ .closeObject :: rest)
      have hi := run_memberTokens (fun w hw => ih w (List.mem_cons_of_mem _ hw)) [(k, v)] outer rest
      rw [tokens, List.append_assoc, List.append_assoc]
      exact hv.trans hi

end State

/-- The tokens of a value denote it. -/
theorem ofTokens?_tokens (v : Json) : ofTokens? (tokens v) = some v := by
  have h := State.delivers v [] []
  rw [List.append_nil] at h
  rw [ofTokens?, show (tokens v).foldlM State.step? (.value []) = some (.done v) from h]
  rfl

end CliParity.Json

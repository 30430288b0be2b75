import CommandConsole.Proofs.Handler.Performed

/-!
# Programs that only print

A listing is a program that looks at the known commands and prints. All that it does is to push rows, and the rows
are the same in every context that shows it the same commands.

## Main definitions

- `Action.Says` — a program that is shown given commands only edits the output, by given edits

## Main statements

- `Action.Says.bind`, `Action.says_forM_line` — what programs say that are put together
-/

namespace CommandConsole

namespace Action

variable {ω α β : Type}

theorem performed_andThen (first : Action ω α) (next : α → Action ω β) (context : Context ω) :
    (first.andThen next).performed context =
      first.performed context ++
        match first.run context with
        | (.ok value, left) => (next value).performed left
        | (.error _, _) => [] := by
  induction first generalizing context with
  | done value => rfl
  | stop fault => rfl
  | perform operation rest ih => exact congrArg (operation :: ·) (ih _)
  | inspect rest ih => exact ih context context

/-- A program leaves the commands that it is shown as they are. -/
theorem catalogue_run (action : Action ω α) (context : Context ω) :
    (action.run context).2.catalogue = context.catalogue := by
  rw [run_snd_eq_foldl]
  generalize action.performed context = operations
  induction operations generalizing context with
  | nil => rfl
  | cons operation operations ih => exact (ih _).trans (context.catalogue_apply operation)

/-- In every context that shows these commands, the program only edits the output, in this way, and has this
result. -/
structure Says (action : Action ω α) (catalogue : Registry Unit) (result : Except Fault α)
    (edits : List Scrollback.Edit) : Prop where
  result : ∀ context, context.catalogue = catalogue → (action.run context).1 = result
  performed : ∀ context, context.catalogue = catalogue → action.performed context = edits.map .output

variable {catalogue : Registry Unit}

theorem says_print (style : Style) (text : String) :
    (print style text : Action ω Unit).Says catalogue (.ok ()) [.push style text] :=
  ⟨fun _ _ => rfl, fun _ _ => rfl⟩

theorem says_fail (message : String) :
    (fail message : Action ω α).Says catalogue (.error (.failed message)) [] :=
  ⟨fun _ _ => rfl, fun _ _ => rfl⟩

theorem says_catalogue : (Action.catalogue : Action ω (Registry Unit)).Says catalogue (.ok catalogue) [] :=
  ⟨fun _ h => congrArg Except.ok h, fun _ _ => rfl⟩

theorem Says.bind {first : Action ω α} {next : α → Action ω β} {value : α} {result : Except Fault β}
    {edits edits' : List Scrollback.Edit} (h : first.Says catalogue (.ok value) edits)
    (h' : (next value).Says catalogue result edits') :
    (first >>= next).Says catalogue result (edits ++ edits') := by
  have hleft (context : Context ω) (hshown : context.catalogue = catalogue) :
      ∃ left, first.run context = (.ok value, left) ∧ left.catalogue = catalogue :=
    ⟨(first.run context).2, Prod.ext (h.result context hshown) rfl,
      (first.catalogue_run context).trans hshown⟩
  constructor
  · intro context hshown
    obtain ⟨left, hrun, hkept⟩ := hleft context hshown
    show ((first.andThen next).run context).1 = result
    rw [run_andThen, hrun]
    exact h'.result left hkept
  · intro context hshown
    obtain ⟨left, hrun, hkept⟩ := hleft context hshown
    show (first.andThen next).performed context = _
    rw [performed_andThen, hrun, h.performed context hshown, List.map_append]
    exact congrArg _ (h'.performed left hkept)

theorem says_forM_line {δ : Type} (items : List δ) (text : δ → String) :
    (items.forM fun item => (line (text item) : Action ω Unit)).Says catalogue (.ok ())
      (items.map fun item => .push .plain (text item)) := by
  induction items with
  | nil => exact ⟨fun _ _ => rfl, fun _ _ => rfl⟩
  | cons item items ih => exact (says_print .plain (text item)).bind ih

end Action

end CommandConsole

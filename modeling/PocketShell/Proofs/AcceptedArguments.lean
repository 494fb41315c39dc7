import PocketShell.Arguments

/-!
# What arguments come to

An option that takes no value changes what the arguments behind it come to in one field and no
more, whatever they are; and a line that is accepted behind the command option is the command.
-/

namespace PocketShell.Arguments

/-- The outcome with other options, where there are options. -/
def Outcome.map (f : Options → Options) : Outcome → Outcome
  | .help => .help
  | .options o => .options (f o)
  | .invalid e => .invalid e

/-- A change of options that no argument interferes with. -/
structure Commutes (f : Options → Options) : Prop where
  command : ∀ o value, f { o with command := value } = { f o with command := value }
  debug : ∀ o, f { o with debug := true } = { f o with debug := true }
  noCompletion : ∀ o, f { o with noCompletion := true } = { f o with noCompletion := true }

theorem map_helpOutcome (f : Options → Options) (attached : Text) (rest : List (Text × Class)) :
    (helpOutcome attached rest).map f = helpOutcome attached rest := by
  unfold helpOutcome
  rcases attachedToHelp attached with e | _ | _
  · rfl
  · rfl
  · cases plainFollows rest <;> rfl

/-- Options that are given from the start are kept to the end. -/
theorem consume_map {f : Options → Options} (hf : Commutes f) (o : Options) (unused : List Text)
    (args : List (Text × Class)) :
    consume (f o) unused args = (consume o unused args).map f := by
  fun_induction consume o unused args with
  | case1 o => rfl
  | case2 o unused hunused => simp [consume, hunused, Outcome.map]
  | case3 o unused t short rest => rfl
  | case4 o unused t short value rest hcluster => rw [consume, if_pos hcluster, map_helpOutcome]
  | case5 o unused t short value rest hcluster =>
    rw [consume, if_neg hcluster]
    rfl
  | case6 o unused t short value rest ih =>
    rw [consume, ← ih, hf.command o (some (commandOf value))]
  | case7 o unused t short value rest ih => rw [consume, ← ih, hf.command o (some value)]
  | case8 o unused t short rest hplain => simp [consume, Outcome.map]
  | case9 o unused t flag short value rest hhelp hcommand =>
    cases flag <;> simp_all [consume, Outcome.map]
  | case10 o unused t short rest ih => rw [consume, ← ih, hf.debug o]
  | case11 o unused t short rest ih => rw [consume, ← ih, hf.noCompletion o]
  | case12 o unused t kind rest _ _ _ _ _ _ _ _ ih =>
    rw [← ih, consume]
    all_goals assumption

variable {flag : Flag} {short : Bool} {f : Options → Options} {t : Text}

/-- An option without a value does its part, whatever the arguments behind it are. -/
theorem read_cons_option (hf : Commutes f) (hclass : classify t = .ok (.option flag short none))
    (hconsume : ∀ o unused rest,
      consume o unused ((t, .option flag short none) :: rest) = consume (f o) unused rest)
    (args : List Text) : read (t :: args) = (read args).map f := by
  simp only [read, classifyAll, hclass]
  cases classifyAll args with
  | error e => rfl
  | ok classified =>
    simp only [Except.map, hconsume]
    exact consume_map hf _ [] classified

theorem read_cons_debug (args : List Text) :
    read ("--debug".toList :: args) = (read args).map fun o => { o with debug := true } :=
  read_cons_option ⟨fun _ _ => rfl, fun _ => rfl, fun _ => rfl⟩ rfl (fun _ _ _ => by rw [consume])
    args

theorem read_cons_noCompletion (args : List Text) :
    read ("--no-completion".toList :: args) =
      (read args).map fun o => { o with noCompletion := true } :=
  read_cons_option ⟨fun _ _ => rfl, fun _ => rfl, fun _ => rfl⟩ rfl (fun _ _ _ => by rw [consume])
    args

/-- A line that is accepted as a command is the command, and nothing else is asked for. -/
theorem eq_of_read_command {line : Text} {o : Options}
    (h : read ["-c".toList, line] = .options o) : o = ⟨some line, false, false⟩ := by
  have hcommand : classify "-c".toList = .ok (.option .command true none) := rfl
  simp only [read, classifyAll, hcommand] at h
  cases hline : classify line with
  | error e => simp [hline, Except.map] at h
  | ok c =>
    cases c with
    | plain =>
      simp only [hline, Except.map, consume, if_true, Outcome.options.injEq] at h
      exact h.symm
    | separator => simp [hline, Except.map, consume] at h
    | unknown => simp [hline, Except.map, consume] at h
    | option flag short value => simp [hline, Except.map, consume] at h

end PocketShell.Arguments

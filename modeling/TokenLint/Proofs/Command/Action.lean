import TokenLint.Command.Settings

/-!
# Running commands

What the pieces of a command do to a console. A command that is put together from pieces which
cannot fail is taken apart with `run_bind_ok`, one piece after the other.
-/

namespace TokenLint.Command

theorem run_bind_ok {α β : Type} {x : Action α} {c c' : Console} {a : α}
    (h : x.run.run c = (.ok a, c')) (f : α → Action β) :
    (x >>= f).run.run c = (f a).run.run c' := by
  simp only [ExceptT.run_bind, StateT.run_bind, h]
  rfl

theorem run_targetsOf {name target : Text} {c : Console} {r : Text × List Text}
    (h : c.disk.targets target = .ok r) : (targetsOf name target).run.run c = (.ok r, c) := by
  have hRun : (targetsOf name target).run.run c = (Action.orFail ((c.disk.targets target).mapError
      fun e => name ++ ": " ++ e.message)).run.run c := rfl
  rw [hRun, h]
  rfl

theorem run_runRules (s : Settings) (base : Text) (paths : List Text) (c : Console) :
    ∃ c', (runRules s base paths).run.run c =
      (.ok (Run.processFiles (.ofPaths s.rules s.maxDiagnostics s.jobs c.disk base paths)), c') :=
  ⟨_, rfl⟩

theorem run_warn (t : Text) (c : Console) :
    (Action.warn t).run.run c = (.ok (), { c with err := c.err ++ t }) := rfl

theorem run_print (t : Text) (c : Console) :
    (Action.print t).run.run c = (.ok (), { c with out := c.out ++ t }) := rfl

theorem run_phase (name note : Text) (c : Console) :
    (Action.phase name note).run.run c =
      (.ok (), { c with phases := c.phases ++ [{ name := name, note := note }] }) := rfl

theorem run_printTimings (timed : Bool) (c : Console) :
    ∃ c', (Action.printTimings timed).run.run c = (.ok (), c') := by
  cases timed with
  | false => exact ⟨_, rfl⟩
  | true => exact ⟨_, rfl⟩

end TokenLint.Command

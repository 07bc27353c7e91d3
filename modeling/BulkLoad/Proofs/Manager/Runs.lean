import BulkLoad.Manager.Step
import BulkLoad.Proofs.Steps

/-!
# Along a run

What no step undoes holds on along a run (`kept_along_run`), and what comes to hold along a run
comes to hold at one of its steps (`exists_step_of_run`).
-/

namespace BulkLoad.Manager

variable {settings : Settings} {s next : State} {labels : List Label}

/-- What every step keeps is kept along a run. -/
theorem kept_along_run {p : State → Prop}
    (hkeep : ∀ {s next : State} {label : Label}, p s → step settings s label = some next → p next)
    (hs : p s) (hrun : run settings s labels = some next) : p next :=
  Steps.keeps (fun _ hs hstep => hkeep hs hstep) hs hrun

/-- A run along which something comes to hold has a step at which it comes to hold. -/
theorem exists_step_of_run {p : State → Bool} (hs : p s = false) (hnext : p next = true)
    (hrun : run settings s labels = some next) :
    ∃ past label future before after, labels = past ++ label :: future ∧
      run settings s past = some before ∧ step settings before label = some after ∧
      run settings after future = some next ∧ p before = false ∧ p after = true :=
  Steps.exists_step hs hnext hrun

/-- A run goes through the state after each of its steps. -/
theorem run_of_append {past future : List Label}
    (hrun : run settings s (past ++ future) = some next) :
    ∃ middle, run settings s past = some middle ∧ run settings middle future = some next :=
  Steps.append_iff.mp hrun

/-- What is possible leads to the state that stands for its end. -/
theorem some_of_possible {result : Option State} {default : State} (h : result.isSome = true) :
    result = some (result.getD default) := by
  obtain ⟨next, hnext⟩ := Option.isSome_iff_exists.mp h
  rw [hnext]
  rfl

end BulkLoad.Manager

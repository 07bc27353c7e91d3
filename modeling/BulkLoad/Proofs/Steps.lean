import Mathlib.Data.List.Induction

/-!
# Along a run

A run makes its steps one after the other and comes to an end only if all of them are possible. What
every step keeps holds on along a run (`keeps`), and what comes to hold along a run comes to hold at
one of its steps (`exists_step`). What a state owes to all steps that led to it is proved step by
step from the first one on (`holds`).
-/

namespace BulkLoad.Steps

variable {σ μ : Type} {step : σ → μ → Option σ} {s final : σ} {move : μ} {moves past future : List μ}

/-- A run of two parts goes through the state between them. -/
theorem append_iff : (past ++ future).foldlM step s = some final ↔
    ∃ middle, past.foldlM step s = some middle ∧ future.foldlM step middle = some final := by
  rw [List.foldlM_append]
  exact Option.bind_eq_some_iff

/-- The last step of a run leads to its end. -/
theorem concat_iff : (moves ++ [move]).foldlM step s = some final ↔
    ∃ before, moves.foldlM step s = some before ∧ step before move = some final := by
  simp only [append_iff, List.foldlM_cons, List.foldlM_nil, bind_pure]

/-- What every step of a run keeps is kept along it. -/
theorem keeps {p : σ → Prop}
    (hkeeps : ∀ {s next : σ} {move : μ}, move ∈ moves → p s → step s move = some next → p next)
    (hs : p s) (hrun : moves.foldlM step s = some final) : p final := by
  induction moves generalizing s with
  | nil =>
      cases hrun
      exact hs
  | cons move moves ih =>
      obtain ⟨middle, hstep, hrun⟩ := Option.bind_eq_some_iff.mp hrun
      exact ih (fun hmove => hkeeps (List.mem_cons_of_mem _ hmove))
        (hkeeps List.mem_cons_self hs hstep) hrun

/-- What holds at first, and after one more step if it held before, holds after every run. -/
theorem holds {p : List μ → σ → Prop} (hfirst : p [] s)
    (hnext : ∀ {moves : List μ} {before next : σ} {move : μ}, moves.foldlM step s = some before →
      p moves before → step before move = some next → p (moves ++ [move]) next)
    (hrun : moves.foldlM step s = some final) : p moves final := by
  induction moves using List.reverseRecOn generalizing final with
  | nil =>
      cases hrun
      exact hfirst
  | append_singleton moves move ih =>
      obtain ⟨before, hbefore, hstep⟩ := concat_iff.mp hrun
      exact hnext hbefore (ih hbefore) hstep

/-- A run along which something comes to hold has a step at which it comes to hold. -/
theorem exists_step {p : σ → Bool} (hs : p s = false) (hfinal : p final = true)
    (hrun : moves.foldlM step s = some final) :
    ∃ past move future before after, moves = past ++ move :: future ∧
      past.foldlM step s = some before ∧ step before move = some after ∧
      future.foldlM step after = some final ∧ p before = false ∧ p after = true := by
  induction moves generalizing s with
  | nil =>
      cases hrun
      rw [hs] at hfinal
      cases hfinal
  | cons move moves ih =>
      obtain ⟨middle, hstep, hrun⟩ := Option.bind_eq_some_iff.mp hrun
      cases hmiddle : p middle with
      | true => exact ⟨[], move, moves, s, middle, rfl, rfl, hstep, hrun, hs, hmiddle⟩
      | false =>
          obtain ⟨past, other, future, before, after, rfl, hpast, hbefore⟩ := ih hmiddle hrun
          refine ⟨move :: past, other, future, before, after, rfl, ?_, hbefore⟩
          exact Option.bind_eq_some_iff.mpr ⟨middle, hstep, hpast⟩

end BulkLoad.Steps

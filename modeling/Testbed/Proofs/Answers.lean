import Testbed.Proofs.Callers

/-!
# Answers after a stop pass

Once its stop pass is over, a caller carries the result of the pass to its end and is answered with
it, whatever happens on the way.
-/

namespace Testbed

/-- What a caller that stopped containers is answered, given the result of its stop pass. -/
def Purpose.answer (p : Purpose) (r : Except Fault TeardownReport) : Except Fault Result :=
  match p, r with
  | _, .error g => .error g
  | .failure f, .ok _ => .error f
  | .teardown strict, .ok report =>
    if strict && !report.ok then .error (Lifecycle.incomplete report.failures)
    else .ok (.report report)

namespace Lifecycle

variable {l l' n : Lifecycle} {s s' : Stage} {m : Move} {i : Nat} {u v : List Moment} {x : Moment}
  {p : Purpose} {r : Except Fault TeardownReport}

/-- Why and with which result containers have been stopped, once the stop pass is over. -/
def result? : Stage → Option (Purpose × Except Fault TeardownReport)
  | .clearing p r | .closing p r => some (p, r)
  | s => closed? s

/-- The caller carries a result, or has been answered with it. -/
def Carries (p : Purpose) (r : Except Fault TeardownReport) (s : Stage) : Prop :=
  result? s = some (p, r) ∨ s = .finished (p.answer r)

theorem Carries.turn (h : Carries p r s) (turn : Turn l s m s' n)
    (sound : ∀ q, s.drives? = some q → l.phase = q) : Carries p r s' := by
  rcases h with h | rfl
  · cases turn
    case closeRefused q o k report refused =>
      -- The phase allows the transition as long as the environment is sound.
      rw [sound q.source rfl] at refused
      exact absurd q.target_mem_next refused
    case answerError q g k =>
      cases h
      exact .inr rfl
    case answerFailure f o k =>
      cases h
      exact .inr rfl
    case answerIncomplete o k log incomplete =>
      cases h
      refine .inr ?_
      simp [Purpose.answer, incomplete]
    case answerReport strict o k log complete =>
      cases h
      refine .inr ?_
      cases strict with
      | false => rfl
      | true => simp [Purpose.answer, complete rfl]
    all_goals first | exact .inl h | cases h
  · cases turn

/-- What every turn keeps of the stage of a caller holds from some moment on. -/
theorem Run.stage_stays {P : Stage → Prop} (fresh : l.Fresh) (run : Run l (u ++ x :: v) l')
    (turns : ∀ {l n : Lifecycle} {s s' : Stage} {m : Move}, P s → Turn l s m s' n →
      (∀ q, s.drives? = some q → l.phase = q) → P s')
    (hx : x.after.callers[i]? = some s) (hs : P s) : ∃ s, l'.callers[i]? = some s ∧ P s := by
  refine run.stays (P := fun n => ∃ s, n.callers[i]? = some s ∧ P s) ?_ ⟨s, hx, hs⟩
  rintro tr y run' ⟨t, ht, kept⟩
  rcases run'.tail_inv with ⟨front, act, -⟩
  rcases (change_of_act? act).goes ht with ⟨-, hn⟩ | ⟨m, t', n, -, turn, -, hn⟩
  · exact ⟨t, hn, kept⟩
  · exact ⟨t', hn, turns kept turn fun q => (front.sound fresh).phase_eq ht⟩

/-- A caller that has left its stop pass with a result carries it from there on. -/
theorem Run.carries (fresh : l.Fresh) (run : Run l (u ++ x :: v) l') (ha : x.action = .caller i m)
    (hx : x.reached? = some s) (hs : Carries p r s) :
    ∃ s, l'.callers[i]? = some s ∧ Carries p r s :=
  run.stage_stays fresh Carries.turn ((Moment.reached?_caller ha).symm.trans hx) hs

theorem Run.answered (fresh : l.Fresh) (run : Run l (u ++ x :: v) l')
    (ha : x.action = .caller i m) (hx : x.reached? = some (.clearing p r))
    {a : Except Fault Result} (answered : l'.callers[i]? = some (.finished a)) :
    a = p.answer r := by
  -- A finished caller carries nothing but its answer.
  rcases run.carries fresh ha hx (.inl rfl) with ⟨s, hs, carries⟩
  cases answered.symm.trans hs
  rcases carries with h | h
  · cases h
  · exact Stage.finished.inj h

end Lifecycle
end Testbed

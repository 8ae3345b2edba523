import Testbed.Proofs.Execution
import Testbed.Proofs.Provisioner

/-!
# Relying on replies

What a program comes to as long as the replies to its calls are of some kind.  A `Reliance` says
which replies are relied on, given a note of the exchanges so far; `Task.Ensures` says that the
value of a program then fits the note.  It does not say that such replies come: in a world that
gives them, `Task.Ensures.ends` does.
-/

namespace Testbed

/-- Which replies to a call are relied on, given a note, and how a reply changes the note. -/
structure Reliance (σ : Type) where
  grants : σ → (c : Call) → c.Reply → Prop
  note : σ → (c : Call) → c.Reply → σ

/-- The note after some exchanges. -/
def Reliance.after {σ : Type} (R : Reliance σ) (s : σ) (es : List Exchange) : σ :=
  es.foldl (fun s e => R.note s e.call e.reply) s

namespace Task

variable {σ α β : Type} {R : Reliance σ} {Q Q' : σ → α → Prop} {s : σ}

/-- A program whose calls get replies that are relied on ends with a value that fits the note. -/
def Ensures {σ α : Type} (R : Reliance σ) (Q : σ → α → Prop) : Task α → σ → Prop
  | .done a, s => Q s a
  | .call c next, s => ∀ r, R.grants s c r → Ensures R Q (next r) (R.note s c r)

theorem Ensures.mono {t : Task α} (h : Ensures R Q t s) (hq : ∀ s a, Q s a → Q' s a) :
    Ensures R Q' t s := by
  induction t generalizing s with
  | done a => exact hq s a h
  | call c next ih =>
    intro r granted
    exact ih r (h r granted)

theorem Ensures.bind {t : Task α} {f : α → Task β} {Q' : σ → β → Prop} (h : Ensures R Q t s)
    (hf : ∀ s a, Q s a → Ensures R Q' (f a) s) : Ensures R Q' (t.bind f) s := by
  induction t generalizing s with
  | done a => exact hf s a h
  | call c next ih =>
    intro r granted
    exact ih r (h r granted)

/-- In a world that gives the replies that are relied on, a program that makes no other calls than
those that the world answers comes to an end. -/
theorem Ensures.ends {P : Call → Prop} {I : World → σ → Prop} {t : Task α} {w : World}
    {Q' : Unit → α → Prop} (h : Ensures R Q t s) (calls : Follows (Rule.only P) Q' t ())
    (init : I w s)
    (step : ∀ w s c, I w s → P c →
      ∃ r w', w.perform c = some (r, w') ∧ R.grants s c r ∧ I w' (R.note s c r)) :
    ∃ es a w', Ends t w es a w' ∧ Q (R.after s es) a := by
  -- World and note move together; what they keep to is what makes the next reply come.
  induction t generalizing w s with
  | done a => exact ⟨[], a, w, .done a w, h⟩
  | call c next ih =>
    rcases step w s c init calls.1 with ⟨r, w₁, reply, granted, kept⟩
    rcases ih r (h r granted) (calls.2 r) kept with ⟨es, a, w', ends, fits⟩
    exact ⟨⟨c, r⟩ :: es, a, w', .call reply ends, fits⟩

end Task

/-! ## Work -/

namespace Work

variable {σ α β : Type} {R : Reliance σ} {s : σ} {Q Q' : σ → α → Prop} {Q₁ : σ → β → Prop}
  {E E' : σ → Fault → Prop} {w : Work α}

/-- A value fits the note, or an error does. -/
def Fits {σ α : Type} (Q : σ → α → Prop) (E : σ → Fault → Prop) (s : σ) : Except Fault α → Prop
  | .ok a => Q s a
  | .error f => E s f

/-- Work whose calls get replies that are relied on comes to a value or an error that fits. -/
def Ensures {σ α : Type} (R : Reliance σ) (Q : σ → α → Prop) (E : σ → Fault → Prop)
    (w : Work α) (s : σ) : Prop :=
  Task.Ensures R (Fits Q E) w.run s

theorem Ensures.mono (h : w.Ensures R Q E s) (hq : ∀ s a, Q s a → Q' s a)
    (he : ∀ s f, E s f → E' s f) : w.Ensures R Q' E' s := by
  refine Task.Ensures.mono h ?_
  rintro s (f | a) fits
  · exact he s f fits
  · exact hq s a fits

theorem Ensures.bind {f : α → Work β} (h : w.Ensures R Q E s)
    (hf : ∀ s a, Q s a → (f a).Ensures R Q₁ E s) : (w >>= f).Ensures R Q₁ E s := by
  refine Task.Ensures.bind h ?_
  rintro s (e | a) fits
  · exact fits
  · exact hf s a fits

/-- Work whose errors are known in another way. -/
theorem Ensures.andThen {f : α → Work β} (h : w.Ensures R Q E s)
    (error : ∀ s f, E s f → E' s f) (hf : ∀ s a, Q s a → (f a).Ensures R Q₁ E' s) :
    (w >>= f).Ensures R Q₁ E' s :=
  (h.mono (fun _ _ fits => fits) error).bind hf

theorem Ensures.tryCatch {handler : Fault → Work α} (h : w.Ensures R Q E s)
    (hf : ∀ s f, E s f → (handler f).Ensures R Q E' s) :
    (tryCatch w handler : Work α).Ensures R Q E' s := by
  refine Task.Ensures.bind h ?_
  rintro s (f | a) fits
  · exact hf s f fits
  · exact fits

theorem Ensures.handle {caught : Fault → Bool} {handler : Fault → Work α}
    (h : w.Ensures R Q E s)
    (handled : ∀ s f, E s f → caught f = true → (handler f).Ensures R Q E' s)
    (raised : ∀ s f, E s f → caught f = false → E' s f) :
    (Work.handle caught w handler).Ensures R Q E' s := by
  refine h.tryCatch ?_
  intro s f fits
  split
  · rename_i hc
    exact handled s f fits hc
  · rename_i hc
    exact raised s f fits (by simpa using hc)

/-- Work that follows whether or not there was an error keeps what is known of the outcome. -/
theorem Ensures.andFinally {after : Work Unit} (h : w.Ensures R Q E s)
    (ok : ∀ s a, Q s a → after.Ensures R (fun s _ => Q' s a) E' s)
    (error : ∀ s f, E s f → after.Ensures R (fun s _ => E' s f) E' s) :
    (w.andFinally after).Ensures R Q' E' s := by
  have caught : Ensures R (Fits Q E) (fun _ _ => False)
      (MonadExcept.tryCatch (Except.ok <$> w) fun f => pure (Except.error f) :
        Work (Except Fault α)) s := by
    refine Ensures.tryCatch (E := E) (Task.Ensures.bind h ?_) fun _ _ fits => fits
    rintro s (f | a) fits
    · exact fits
    · exact fits
  refine Ensures.bind (caught.mono (fun _ _ h => h) fun _ _ h => h.elim) ?_
  rintro s (f | a) fits
  · exact (error s f fits).bind fun _ _ h => h
  · exact (ok s a fits).bind fun _ _ h => h

theorem ensures_throw {f : Fault} (h : E s f) : (throw f : Work α).Ensures R Q E s := h

theorem ensures_ofExcept {r : Except Fault α} (ok : ∀ a, r = .ok a → Q s a)
    (error : ∀ f, r = .error f → E s f) : (Work.ofExcept r).Ensures R Q E s := by
  cases r with
  | error f => exact error f rfl
  | ok a => exact ok a rfl

theorem ensures_mapError {ε : Type} {r : Except ε α} {g : ε → Fault}
    (ok : ∀ a, r = .ok a → Q s a) (error : ∀ e, r = .error e → E s (g e)) :
    (Work.ofExcept (r.mapError g)).Ensures R Q E s := by
  cases r with
  | error e => exact error e rfl
  | ok a => exact ok a rfl

theorem exists_of_isOk {ε : Type} {r : Except ε α} (h : r.isOk = true) : ∃ a, r = .ok a := by
  cases r with
  | error e => cases h
  | ok a => exact ⟨a, rfl⟩

theorem ensures_ask {c : Call} {Q : σ → c.Reply → Prop}
    (h : ∀ r, R.grants s c r → Q (R.note s c r) r) : (Work.ask c).Ensures R Q E s := h

theorem ensures_ite {c : Prop} [Decidable c] {v w : Work α} (hv : c → v.Ensures R Q E s)
    (hw : ¬ c → w.Ensures R Q E s) : (if c then v else w).Ensures R Q E s := by
  split
  · exact hv ‹c›
  · exact hw ‹¬ c›

theorem ensures_engine {r : Engine.Request} {Q : σ → r.Reply → Prop}
    (ok : ∀ a, R.grants s (.engine r) (.ok a) → Q (R.note s (.engine r) (.ok a)) a)
    (error : ∀ f, R.grants s (.engine r) (.error f) → E (R.note s (.engine r) (.error f)) f) :
    (Work.engine r).Ensures R Q E s := by
  rintro (f | a) granted
  · exact error f granted
  · exact ok a granted

end Work

/-! ## Deadlines -/

/-- The call passes the time. -/
def Call.takesTime : Call → Bool
  | .pause _ | .waitUntil _ | .hang => true
  | _ => false

namespace Readiness

variable {σ α : Type} {R : Reliance σ} {s : σ} {Q : σ → α → Prop} {E : σ → Fault → Prop}

/-- A program that never passes the time is not cut off. -/
theorem withDeadline_eq {t : Task (Except Fault α)} {Q : Unit → Except Fault α → Prop}
    (brief : Task.Follows (Rule.only fun c => c.takesTime = false) Q t ()) (deadline : Float) :
    withDeadline deadline t = t := by
  induction t with
  | done r => rfl
  | call c next ih =>
    have rest : (fun r => withDeadline deadline (next r)) = next :=
      funext fun r => ih r (brief.2 r)
    have passes : c.takesTime = false := brief.1
    cases c <;> first | exact congrArg _ rest | cases passes

/-- Within a bound, work that never passes the time comes to what it comes to without one. -/
theorem within_ensures {w : Work α} {P : α → Prop} (h : w.Ensures R Q E s)
    (brief : w.Gives (fun c => c.takesTime = false) P) (now : ∀ t : Float, R.note s .now t = s)
    (bound : Float) :
    (within bound w).Ensures R (Work.Fits Q fun s f => E s f ∧ f.isCancelled = false)
      (fun s f => E s f ∧ f.isCancelled = true) s := by
  intro (time : Float) _
  rw [now]
  simp only [withDeadline_eq brief]
  refine Task.Ensures.bind h ?_
  rintro s (f | a) fits
  · simp only
    split
    -- A cancelled attempt is raised on, any other error is handed to who polls.
    · rename_i hc
      exact ⟨fits, hc⟩
    · rename_i hc
      exact ⟨fits, by simpa using hc⟩
  · exact fits

end Readiness
end Testbed

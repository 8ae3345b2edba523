import Testbed.Proofs.Frame

/-!
# The conduct of programs

What a program does whatever the replies to its calls are.  A `Rule` says which calls are allowed
and keeps a note of the replies so far; `Task.Follows` says that a program keeps to a rule and ends
with a value that fits the note.  `Work.Gives` is the special case without notes.
-/

namespace Testbed

/-- Which calls are allowed, given a note, and how a reply changes the note. -/
structure Rule (σ : Type) where
  allows : σ → Call → Prop
  note : σ → (c : Call) → c.Reply → σ

/-- The rule that only allows some calls and takes no notes. -/
def Rule.only (P : Call → Prop) : Rule Unit where
  allows := fun _ c => P c
  note := fun _ _ _ => ()

/-- A rule allows some calls and takes no note of them. -/
structure Rule.Overlooks {σ : Type} (R : Rule σ) (P : Call → Prop) : Prop where
  allowed : ∀ s c, P c → R.allows s c
  unnoted : ∀ s c (r : c.Reply), P c → R.note s c r = s

namespace Task

variable {σ α β : Type} {R : Rule σ} {Q Q' : σ → α → Prop} {s : σ}

/-- A program keeps to a rule, and its value fits the note that it ends with. -/
def Follows {σ α : Type} (R : Rule σ) (Q : σ → α → Prop) : Task α → σ → Prop
  | .done a, s => Q s a
  | .call c next, s => R.allows s c ∧ ∀ r, Follows R Q (next r) (R.note s c r)

theorem Follows.mono {t : Task α} (h : Follows R Q t s) (hq : ∀ s a, Q s a → Q' s a) :
    Follows R Q' t s := by
  induction t generalizing s with
  | done a => exact hq s a h
  | call c next ih => exact ⟨h.1, fun r => ih r (h.2 r)⟩

theorem Follows.weaken {P P' : Call → Prop} {t : Task α} {Q : Unit → α → Prop}
    (h : Follows (Rule.only P) Q t ()) (hp : ∀ c, P c → P' c) :
    Follows (Rule.only P') Q t () := by
  induction t with
  | done a => exact h
  | call c next ih => exact ⟨hp c h.1, fun r => ih r (h.2 r)⟩

/-- Calls that a rule allows and does not note leave the note as it is. -/
theorem Follows.unnoted {P : Call → Prop} {t : Task α} {Q : Unit → α → Prop}
    (h : Follows (Rule.only P) Q t ()) (allowed : ∀ c, P c → R.allows s c)
    (same : ∀ c r, P c → R.note s c r = s) : Follows R (fun s' a => s' = s ∧ Q () a) t s := by
  induction t with
  | done a => exact ⟨rfl, h⟩
  | call c next ih =>
    refine ⟨allowed c h.1, fun r => ?_⟩
    rw [same c r h.1]
    exact ih r (h.2 r)

theorem follows_bind {t : Task α} {f : α → Task β} {Q : σ → β → Prop} :
    Follows R Q (t.bind f) s ↔ Follows R (fun s a => Follows R Q (f a) s) t s := by
  induction t generalizing s with
  | done a => exact Iff.rfl
  | call c next ih =>
    refine and_congr_right fun _ => forall_congr' fun r => ?_
    exact ih r

/-- A rule allows the next call of a program that follows it. -/
theorem Follows.allows {t : Task α} {c : Call} (h : Follows R Q t s) (hc : t.call? = some c) :
    R.allows s c := by
  cases t with
  | done a => cases hc
  | call c' next =>
    cases hc
    exact h.1

/-- A program that moves on still follows its rule. -/
theorem Follows.next {w w' : World} {t t' : Task α} (h : Follows R Q t s)
    (hn : w.next? t = some (t', w')) :
    ∃ c r, t.call? = some c ∧ R.allows s c ∧ w.perform c = some (r, w') ∧
      Follows R Q t' (R.note s c r) := by
  rcases World.next?_eq_some hn with ⟨c, next, r, rfl, hr, rfl⟩
  exact ⟨c, r, rfl, h.1, hr, h.2 r⟩

/-- A program that is cancelled still follows its rule. -/
theorem Follows.cancel {w w' : World} {t t' : Task α} {landed : Bool} (h : Follows R Q t s)
    (hn : w.cancel? landed t = some (t', w')) :
    ∃ c r, t.call? = some c ∧ R.allows s c ∧ c.cancelled? = some r ∧
      Follows R Q t' (R.note s c r) := by
  rcases World.cancel?_eq_some hn with ⟨c, next, r, rfl, hr, rfl, -⟩
  exact ⟨c, r, rfl, h.1, hr, h.2 r⟩

/-- What is left of a program when its value is not needed follows the same rule. -/
theorem Follows.unfinished {t : Task (Except Fault α)} {t' : Task (Except Fault Unit)}
    {Q : σ → Except Fault α → Prop} (h : Follows R Q t s)
    (ht : StopPass.unfinished? t = some t') : Follows R (fun _ _ => True) t' s := by
  unfold StopPass.unfinished? at ht
  split at ht
  · cases ht
  · cases ht
    refine follows_bind.2 (h.mono ?_)
    intro s a _
    trivial

end Task

/-! ## Work -/

namespace Work

section

variable {σ α β : Type} {R : Rule σ} {s : σ} {P Q : σ → Except Fault α → Prop}
  {Q₁ : σ → Except Fault β → Prop}

theorem follows_bind {w : Work α} {f : α → Work β} (hw : Task.Follows R P w.run s)
    (ok : ∀ s a, P s (.ok a) → Task.Follows R Q₁ (f a).run s)
    (error : ∀ s e, P s (.error e) → Q₁ s (.error e)) : Task.Follows R Q₁ (w >>= f).run s := by
  refine Task.follows_bind.2 (hw.mono ?_)
  rintro s (e | a) h
  · exact error s e h
  · exact ok s a h

theorem follows_tryCatch {w : Work α} {f : Fault → Work α} (hw : Task.Follows R P w.run s)
    (ok : ∀ s a, P s (.ok a) → Q s (.ok a))
    (error : ∀ s e, P s (.error e) → Task.Follows R Q (f e).run s) :
    Task.Follows R Q (tryCatch w f : Work α).run s := by
  refine Task.follows_bind.2 (hw.mono ?_)
  rintro s (e | a) h
  · exact error s e h
  · exact ok s a h

theorem follows_handle {caught : Fault → Bool} {w : Work α} {f : Fault → Work α}
    (hw : Task.Follows R P w.run s) (ok : ∀ s a, P s (.ok a) → Q s (.ok a))
    (handled : ∀ s e, P s (.error e) → caught e = true → Task.Follows R Q (f e).run s)
    (raised : ∀ s e, P s (.error e) → caught e = false → Q s (.error e)) :
    Task.Follows R Q (Work.handle caught w f).run s := by
  refine follows_tryCatch hw ok ?_
  intro s e h
  split
  · rename_i hc
    exact handled s e h hc
  · rename_i hc
    exact raised s e h (by simpa using hc)

end

/-! ## Work that only makes some calls -/

variable {α β : Type} {P P' : Call → Prop} {Q Q' : α → Prop} {Q₁ : β → Prop}

/-- Work only makes some calls, and if it comes to a value then to one that fits. -/
def Gives (P : Call → Prop) (Q : α → Prop) (w : Work α) : Prop :=
  Task.Follows (Rule.only P) (fun _ r => ∀ a, r = .ok a → Q a) w ()

theorem Gives.mono {w : Work α} (h : w.Gives P Q) (hq : ∀ a, Q a → Q' a) : w.Gives P Q' :=
  Task.Follows.mono h fun _ _ h a ha => hq a (h a ha)

theorem Gives.any {w : Work α} (h : w.Gives P Q) : w.Gives P fun _ => True :=
  h.mono fun _ _ => trivial

section

variable {σ : Type} {R : Rule σ} {s : σ}

/-- Calls that a rule overlooks leave the note as it is. -/
theorem Gives.unnoted {w : Work α} (past : R.Overlooks P) (h : w.Gives P Q) (s : σ) :
    Task.Follows R (fun s' r => s' = s ∧ ∀ a, r = .ok a → Q a) w.run s :=
  Task.Follows.unnoted h (past.allowed s) (past.unnoted s)

/-- Work whose calls a rule overlooks can be passed over. -/
theorem follows_past {w : Work α} {f : α → Work β} {Q₁ : σ → Except Fault β → Prop}
    (past : R.Overlooks P) (h : w.Gives P fun _ => True)
    (ok : ∀ a, Task.Follows R Q₁ (f a).run s) (error : ∀ e, Q₁ s (.error e)) :
    Task.Follows R Q₁ (w >>= f).run s := by
  refine follows_bind (h.unnoted past s) ?_ ?_
  · rintro _ a ⟨rfl, -⟩
    exact ok a
  · rintro _ e ⟨rfl, -⟩
    exact error e

end

/-- Work that moves on makes the same calls. -/
theorem Gives.next {w w' : World} {t t' : Task (Except Fault α)} (h : Gives P Q t)
    (hn : w.next? t = some (t', w')) : Gives P Q t' := by
  rcases Task.Follows.next h hn with ⟨c, r, -, -, -, ht⟩
  exact ht

theorem Gives.cancel {w w' : World} {t t' : Task (Except Fault α)} {landed : Bool}
    (h : Gives P Q t) (hn : w.cancel? landed t = some (t', w')) : Gives P Q t' := by
  rcases Task.Follows.cancel h hn with ⟨c, r, -, -, -, ht⟩
  exact ht

theorem gives_pure {a : α} (h : Q a) : (pure a : Work α).Gives P Q := by
  intro b hb
  cases hb
  exact h

theorem gives_throw {e : Fault} : (throw e : Work α).Gives P Q := by
  intro b hb
  cases hb

theorem gives_ofExcept {r : Except Fault α} (h : ∀ a, r = .ok a → Q a) :
    (Work.ofExcept r).Gives P Q := h

theorem gives_bind {w : Work α} {f : α → Work β} (hw : w.Gives P Q)
    (hf : ∀ a, Q a → (f a).Gives P Q₁) : (w >>= f).Gives P Q₁ := by
  refine follows_bind hw ?_ ?_
  · intro _ a h
    exact hf a (h a rfl)
  · intro _ e _ b hb
    cases hb

theorem gives_then {w : Work α} {f : α → Work β} (hw : w.Gives P fun _ => True)
    (hf : ∀ a, (f a).Gives P Q₁) : (w >>= f).Gives P Q₁ :=
  gives_bind hw fun a _ => hf a

theorem gives_tryCatch {w : Work α} {f : Fault → Work α} (hw : w.Gives P Q)
    (hf : ∀ e, (f e).Gives P Q) : (tryCatch w f).Gives P Q :=
  follows_tryCatch hw (fun _ _ h => h) fun _ e _ => hf e

theorem gives_ite {c : Prop} [Decidable c] {v w : Work α} (hv : v.Gives P Q)
    (hw : w.Gives P Q) : (if c then v else w).Gives P Q := by
  split
  · exact hv
  · exact hw

theorem gives_handle {caught : Fault → Bool} {w : Work α} {f : Fault → Work α}
    (hw : w.Gives P Q) (hf : ∀ e, (f e).Gives P Q) : (Work.handle caught w f).Gives P Q :=
  gives_tryCatch hw fun e => gives_ite (hf e) gives_throw

theorem gives_ask {c : Call} (h : P c) : (Work.ask c).Gives P fun _ => True :=
  ⟨h, fun _ _ _ => trivial⟩

theorem gives_log {level : Level} {text : String} (h : P (.log level text)) :
    (Work.log level text).Gives P fun _ => True :=
  gives_ask h

theorem gives_engine {r : Engine.Request} (h : P (.engine r)) :
    (Work.engine r).Gives P fun _ => True :=
  ⟨h, fun _ _ _ => trivial⟩

theorem gives_ensureOpen {inWorker : Bool} (h : P (.openClient inWorker)) :
    (Client.ensureOpen inWorker).Gives P fun _ => True :=
  ⟨h, fun _ _ _ => trivial⟩

theorem gives_andFinally {w : Work α} {after : Work Unit} (hw : w.Gives P Q)
    (ha : after.Gives P fun _ => True) : (w.andFinally after).Gives P Q := by
  have caught : (tryCatch (Except.ok <$> w) fun f => pure (Except.error f) :
      Work (Except Fault α)).Gives P fun r => ∀ a, r = .ok a → Q a := by
    refine gives_tryCatch ?_ fun e => gives_pure ?_
    · refine Task.follows_bind.2 (Task.Follows.mono hw ?_)
      rintro - (e | a) h b hb
      · cases hb
      · cases hb
        intro c hc
        cases hc
        exact h a rfl
    · intro a ha
      cases ha
  exact gives_bind caught fun r hr => gives_bind ha fun _ _ => gives_ofExcept hr

end Work

/-! ## Programs on a runtime that is shutting down -/

namespace Victim

variable {P : Call → Prop} {vs : List Victim} {v : Victim} {k : Nat}

/-- A program on a runtime only makes some calls. -/
def Makes (P : Call → Prop) : Victim → Prop
  | .waiting t | .dying t => Work.Gives P (fun _ => True) t

theorem makes_call {c : Call} (h : ∀ v ∈ vs, v.Makes P) (hc : vs[k]?.bind call? = some c) :
    P c := by
  rcases Option.bind_eq_some_iff.1 hc with ⟨v, hk, hc⟩
  have hv : v.Makes P := h v (List.mem_of_getElem? hk)
  cases v with
  | waiting t => exact Task.Follows.allows hv hc
  | dying t => exact Task.Follows.allows hv hc

theorem makes_set (h : ∀ v ∈ vs, v.Makes P) (hv : v.Makes P) : ∀ v' ∈ vs.set k v, v'.Makes P := by
  intro v' hm
  rcases List.mem_or_eq_of_mem_set hm with hm | rfl
  · exact h v' hm
  · exact hv

end Victim

/-! ## The programs that stop containers -/

/-- A call that stop actions make. -/
def Call.isStop : Call → Bool
  | .log .. | .openClient _ | .noteStop | .hang | .waitForGate | .engine (.find _)
  | .engine (.remove ..) => true
  | _ => false

/-- A call that is made to close the engine client. -/
def Call.isClose : Call → Bool
  | .log .. | .viewClient | .forgetClient | .engine .close => true
  | _ => false

open Work

theorem Client.removeContainer_gives (id : String) (force volumes : Bool) :
    (Client.removeContainer id force volumes).Gives (fun c => c.isStop = true) fun _ => True := by
  refine gives_then (gives_ensureOpen rfl) fun _ => gives_then (gives_handle ?_ ?_) ?_
  · exact gives_then (gives_engine rfl) fun _ =>
      gives_then (gives_engine rfl) fun _ => gives_pure trivial
  · exact fun _ => gives_then (gives_log rfl) fun _ => gives_pure trivial
  · exact fun removed => gives_ite (gives_then (gives_log rfl) fun _ => gives_pure trivial)
      (gives_pure trivial)

theorem Client.close_gives :
    Client.close.Gives (fun c => c.isClose = true) fun _ => True := by
  refine gives_then (gives_ask rfl) fun v => gives_ite ?_ (gives_pure trivial)
  refine gives_andFinally (gives_handle ?_ fun _ => gives_log rfl) (gives_ask rfl)
  exact gives_then (gives_engine rfl) fun _ => gives_log rfl

namespace Capability

variable (c : Capability)

theorem act_gives : c.act.Gives (fun c => c.isStop = true) fun _ => True := by
  unfold act
  split
  · exact gives_then (Client.removeContainer_gives _ _ _) fun _ => gives_pure trivial
  · exact gives_ask rfl
  · exact gives_then (gives_ask rfl) fun _ => gives_throw
  · exact gives_then (gives_ask rfl) fun _ => ⟨rfl, fun _ _ _ => trivial⟩
  · exact gives_then (gives_ask rfl) fun _ => ⟨rfl, fun _ _ _ => trivial⟩

/-- A stop action begins with a call. -/
theorem act_eq_call : ∃ call next, c.act = .call call next := by
  unfold act
  split <;> exact ⟨_, _, rfl⟩

/-- The stop action only follows a claim that is granted. -/
theorem use_eq : c.use =
    .call (.claim c) fun unused : Bool => if unused then c.act else .done (.error c.usedTwice) :=
  rfl

theorem stopOne_eq : StopPass.stopOne c = .call (.log Level.info
    s!"Stopping container {c.name} ({c.shortId})") fun _ => c.use :=
  rfl

/-- Calling a capability claims nothing but this capability. -/
theorem stopOne_gives {P : Call → Prop} (hp : ∀ call, call.isStop = true → P call)
    (hc : P (.claim c)) : (StopPass.stopOne c).Gives P fun _ => True := by
  have act : c.act.Gives P fun _ => True := c.act_gives.weaken hp
  exact gives_then (gives_log (hp _ rfl)) fun _ =>
    gives_then (gives_ask hc) fun _ => gives_ite act gives_throw

end Capability
end Testbed

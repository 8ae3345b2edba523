import Testbed.Proofs.Calls
import Testbed.Proofs.Provisioner

/-!
# The handling of the engine client

A program that has the engine client closed drops it afterwards.  `Client.handling` is the rule of
programs that see to this: they ask for the client to be closed only if they have just found it
open, and drop it only after they have asked.  While a client has been asked to close and is not
dropped yet, the program stands in debt; `Books` balances the clients that have been opened with
those that were closed, those whose request to close was lost, the one that is open, and the debt.
-/

namespace Testbed

/-- A call that neither has the engine client closed nor drops it. -/
def Call.sparesClient : Call → Bool
  | .engine .close | .forgetClient => false
  | _ => true

/-- A request to the engine to close its client. -/
def Call.closesClient : Call → Bool
  | .engine .close => true
  | _ => false

namespace World

variable {α : Type} {w w' : World} {t t' : Task α} {c : Call}

/-- A program goes on with a reply: its call has been answered, or the program has been cancelled,
and what a worker thread does for the call may have landed all the same. -/
def Answers (w : World) (c : Call) (r : c.Reply) (w' : World) : Prop :=
  w.perform c = some (r, w') ∨
    c.cancelled? = some r ∧ (w' = w ∨ ∃ r', w.perform c = some (r', w'))

theorem answers_of_next? (h : w.next? t = some (t', w')) :
    ∃ (c : Call) (next : c.Reply → Task α) (r : c.Reply),
      t = .call c next ∧ t' = next r ∧ w.Answers c r w' := by
  rcases next?_eq_some h with ⟨c, next, r, rfl, hr, rfl⟩
  exact ⟨c, next, r, rfl, rfl, .inl hr⟩

theorem answers_of_cancel? {landed : Bool} (h : w.cancel? landed t = some (t', w')) :
    ∃ (c : Call) (next : c.Reply → Task α) (r : c.Reply),
      t = .call c next ∧ t' = next r ∧ w.Answers c r w' := by
  rcases cancel?_eq_some h with ⟨c, next, r, rfl, hr, rfl, hw⟩
  refine ⟨c, next, r, rfl, rfl, .inr ⟨hr, ?_⟩⟩
  split at hw
  · exact .inr hw
  · exact .inl hw

/-- A client that is open is not opened again. -/
theorem openClient_of_clientOpen {inWorker : Bool} {r : (Call.openClient inWorker).Reply}
    (reply : w.perform (.openClient inWorker) = some (r, w')) (isOpen : w.clientOpen = true) :
    w' = w := by
  have opened : w.openClient.2 = w := congrArg Prod.snd (if_pos isOpen)
  have worker : (w.viaWorkers openClient).2 = w := by
    unfold viaWorkers
    split
    · exact opened
    · rfl
  have same := congrArg Prod.snd (Option.some.inj reply)
  cases inWorker with
  | false => exact same.symm.trans opened
  | true => exact same.symm.trans worker

/-- A client that is open stays open unless it is dropped. -/
theorem clientOpen_of_perform_ne {r : c.Reply} (reply : w.perform c = some (r, w'))
    (isOpen : w.clientOpen = true) (kept : c ≠ .forgetClient) : w'.clientOpen = true := by
  cases effect_of_perform reply with
  | openClient inWorker => exact openClient_of_clientOpen reply isOpen ▸ isOpen
  | forgetClient => exact absurd rfl kept
  | shutdown =>
    rcases closeRuntime_eq w with ⟨workers, closed, log, he⟩
    rw [he]
    exact isOpen
  | _ => exact isOpen

theorem Answers.clientOpen {r : c.Reply} (h : w.Answers c r w') (isOpen : w.clientOpen = true)
    (kept : c ≠ .forgetClient) : w'.clientOpen = true := by
  rcases h with reply | ⟨-, rfl | ⟨r', reply⟩⟩
  · exact clientOpen_of_perform_ne reply isOpen kept
  · exact isOpen
  · exact clientOpen_of_perform_ne reply isOpen kept

end World

/-! ## Programs that handle the client -/

namespace Client

/-- Where a program stands with the engine client: it knows nothing, it knows whether the client is
open, or it has asked for it to be closed and has not dropped it yet. -/
inductive Standing where
  | unknown
  | known (isOpen : Bool)
  | closing

namespace Standing

/-- The calls that a program may make. -/
def allows : Standing → Call → Prop
  | .closing, .log .. | .closing, .forgetClient => True
  | .closing, _ => False
  | .known true, c => c ≠ .forgetClient
  | _, c => c.sparesClient = true

/-- Where a program stands after a call. -/
def next (s : Standing) : (c : Call) → c.Reply → Standing
  | .log .., _ => s
  | .viewClient, v => .known (ClientView.isOpen v)
  | .engine .close, _ => .closing
  | .forgetClient, _ => .known false
  | _, _ => .unknown

/-- How many clients have been asked to close and are not dropped yet. -/
def debt : Standing → Nat
  | .closing => 1
  | _ => 0

/-- What the program knows is true. -/
def Fits (isOpen : Bool) : Standing → Prop
  | .unknown => True
  | .known b => isOpen = b
  | .closing => isOpen = true

variable {s : Standing} {c : Call} {w w' : World}

theorem allows_of_spares (h : c.sparesClient = true) (hs : s ≠ .closing) : s.allows c := by
  rcases s with _ | _ | _
  · exact h
  · rename_i b
    cases b with
    | false => exact h
    | true =>
      rintro rfl
      cases h
  · exact absurd rfl hs

theorem next_of_spares (h : c.sparesClient = true) (hs : s ≠ .closing) (r : c.Reply) :
    s.next c r ≠ .closing := by
  cases c with
  | log => exact hs
  | engine q =>
    cases q with
    | close => cases h
    | _ => nofun
  | forgetClient => cases h
  | _ => nofun

theorem debt_of_ne (h : s ≠ .closing) : s.debt = 0 := by
  cases s with
  | closing => exact absurd rfl h
  | _ => rfl

/-- A program that has asked for the client to be closed only writes to the log before it drops
the client. -/
theorem eq_log_of_allows (h : closing.allows c) (kept : c ≠ .forgetClient) :
    ∃ level text, c = .log level text := by
  cases c with
  | log level text => exact ⟨level, text, rfl⟩
  | forgetClient => exact absurd rfl kept
  | _ => cases h

/-- The client is found open before it is asked to close. -/
theorem isOpen_of_close {isOpen : Bool} (h : s.allows (.engine .close)) (fits : s.Fits isOpen) :
    isOpen = true := by
  rcases s with _ | (_ | _) | _
  · cases h
  · cases h
  · exact fits
  · exact fits

/-- What a program knows after a call is true. -/
theorem fits_next {r : c.Reply} (allowed : s.allows c) (fits : s.Fits w.clientOpen)
    (h : w.Answers c r w') : (s.next c r).Fits w'.clientOpen := by
  cases c with
  | log level text =>
    rcases h with reply | ⟨cancelled, -⟩
    · cases reply
      exact fits
    · cases cancelled
  | viewClient =>
    rcases h with reply | ⟨cancelled, -⟩
    · cases reply
      rfl
    · cases cancelled
  | forgetClient =>
    rcases h with reply | ⟨cancelled, -⟩
    · cases reply
      rfl
    · cases cancelled
  | engine q =>
    cases q with
    | close => exact h.clientOpen (isOpen_of_close allowed fits) nofun
    | _ => trivial
  | _ => trivial

/-- A request to close the client leaves a debt. -/
theorem debt_next (allowed : s.allows c) (kept : c ≠ .forgetClient) (r : c.Reply) :
    (s.next c r).debt = c.closesClient.toNat + s.debt := by
  by_cases hs : s = .closing
  · subst hs
    rcases eq_log_of_allows allowed kept with ⟨level, text, rfl⟩
    rfl
  · rw [debt_of_ne hs]
    cases c with
    | log => exact debt_of_ne hs
    | forgetClient => exact absurd rfl kept
    | engine q => cases q <;> rfl
    | _ => rfl

/-- What a call does to the client is balanced by what the program owes. -/
theorem balance {r : c.Reply} (allowed : s.allows c) (fits : s.Fits w.clientOpen)
    (h : w.Answers c r w') :
    c.closesClient.toNat + w'.clientOpen.toNat + s.debt =
      (!w.clientOpen && w'.clientOpen).toNat + w.clientOpen.toNat + (s.next c r).debt := by
  by_cases kept : c = .forgetClient
  · subst kept
    have dropped : w'.clientOpen = false := fits_next allowed fits h
    rcases s with _ | (_ | _) | _
    · cases allowed
    · cases allowed
    · exact absurd rfl allowed
    · have isOpen : w.clientOpen = true := fits
      simp [dropped, isOpen, next, debt, Call.closesClient]
  · have opened : w'.clientOpen.toNat =
        (!w.clientOpen && w'.clientOpen).toNat + w.clientOpen.toNat := by
      cases isOpen : w.clientOpen with
      | true => simp [h.clientOpen isOpen kept]
      | false => simp
    rw [debt_next allowed kept, opened]
    omega

end Standing

/-- Programs that drop the client only after they have asked for it to be closed. -/
def handling : Rule Standing := ⟨Standing.allows, Standing.next⟩

end Client

namespace Work

variable {α β : Type} {s : Client.Standing}

/-- Work handles the engine client properly, and does not end in debt. -/
def Handles (w : Work α) : Prop :=
  Task.Follows Client.handling (fun s _ => s ≠ .closing) w .unknown

/-- A program that knows something about the client may do all that one may that knows nothing. -/
theorem Handles.follows {t : Task (Except Fault α)} (h : Handles t) (hs : s ≠ .closing) :
    Task.Follows Client.handling (fun s _ => s ≠ .closing) t s := by
  -- Until the next call that is no log record; from there on it stands the same either way.
  induction t generalizing s with
  | done a => exact hs
  | call c next ih =>
    have spares : c.sparesClient = true := h.1
    refine ⟨Client.Standing.allows_of_spares spares hs, fun r => ?_⟩
    cases c with
    | log level text => exact ih r (h.2 r) hs
    | engine q =>
      cases q with
      | close => cases spares
      | _ => exact h.2 r
    | forgetClient => cases spares
    | _ => exact h.2 r

/-- A program that leaves the client open handles it properly. -/
theorem Gives.handles {P : Call → Prop} {Q : α → Prop} {w : Work α} (h : w.Gives P Q)
    (spares : ∀ c, P c → c.sparesClient = true) : w.Handles := by
  have follows (t : Task (Except Fault α)) (h : Gives P Q t) (s : Client.Standing)
      (hs : s ≠ .closing) : Task.Follows Client.handling (fun s _ => s ≠ .closing) t s := by
    induction t generalizing s with
    | done a => exact hs
    | call c next ih =>
      have spared := spares c h.1
      refine ⟨Client.Standing.allows_of_spares spared hs, fun r => ?_⟩
      exact ih r (h.2 r) _ (Client.Standing.next_of_spares spared hs r)
  exact follows w h .unknown nofun

/-- Work that is followed by other work whether it fails or not. -/
theorem follows_andFinally {σ : Type} {R : Rule σ} {P Q : σ → Prop} {s : σ} {w : Work α}
    {after : Work Unit} (hw : Task.Follows R (fun s _ => P s) w s)
    (ha : ∀ s, P s → Task.Follows R (fun s _ => Q s) after s) :
    Task.Follows R (fun s _ => Q s) (w.andFinally after) s := by
  have caught : Task.Follows R (fun s r => P s ∧ ∃ r', r = .ok r')
      (tryCatch (Except.ok <$> w) fun f => pure (Except.error f) : Work (Except Fault α)) s := by
    refine Task.follows_bind.2 (Task.follows_bind.2 (hw.mono ?_))
    rintro _ (e | a) h
    · exact ⟨h, _, rfl⟩
    · exact ⟨h, _, rfl⟩
  refine Task.follows_bind.2 (caught.mono ?_)
  rintro _ _ ⟨h, r, rfl⟩
  refine Task.follows_bind.2 ((ha _ h).mono ?_)
  rintro _ (e | a) h
  · exact h
  · exact h

end Work

/-- Closing the client handles it properly, and leaves it closed. -/
theorem Client.close_follows :
    Task.Follows handling (fun s _ => s = .known false) Client.close .unknown := by
  refine ⟨rfl, fun v => ?_⟩
  rcases v with ⟨host, _ | _, address⟩
  · exact rfl
  · -- Whatever becomes of the request, the client is dropped afterwards.
    refine Work.follows_andFinally (P := fun s => s = .closing) ?_ ?_
    · refine Work.follows_handle (P := fun s _ => s = .closing) ⟨nofun, fun r => ?_⟩ ?_ ?_ ?_
      · rcases r with f | ⟨⟩
        · exact rfl
        · exact ⟨trivial, fun _ => rfl⟩
      · exact fun _ _ h => h
      · rintro _ f rfl -
        exact ⟨trivial, fun _ => rfl⟩
      · exact fun _ _ h _ => h
    · rintro _ rfl
      exact ⟨trivial, fun _ => rfl⟩

/-- Both parts of a plan handle the engine client properly. -/
structure Plan.Handles (p : Plan) : Prop where
  init : ∀ v, (p.init v).Handles
  after : ∀ f, p.after = some f → ∀ s, (f s).Handles

/-- A caller waits for the client to be closed for good. -/
def Stage.isRelease : Stage → Bool
  | .disconnecting .. => true
  | _ => false

namespace Lifecycle

/-! ## The client at a moment -/

namespace Moment

/-- The call that the program that moves makes, or at which it is cancelled. -/
def current? (x : Moment) : Option Call :=
  match x.action, x.stage? with
  | .caller _ (.cancel k _), some (.halting vs _) => vs[k]?.bind Victim.call?
  | _, _ => x.call?

/-- The engine client is opened. -/
def opens (x : Moment) : Bool := !x.before.world.clientOpen && x.after.world.clientOpen

/-- A program asks for the client to be closed. -/
def asksClose (x : Moment) : Bool := x.current?.any Call.closesClient

/-- The engine gets a request to close its client. -/
def closes (x : Moment) : Bool := x.call?.any Call.closesClient && x.before.world.workersOpen

/-- The client is being closed for good. -/
def isRelease (x : Moment) : Bool := x.stage?.any Stage.isRelease

/-- A part of a plan asks for the client to be closed, and the engine never gets the request: it is
cut off, or the runtime has been shut down. -/
def losesClose (x : Moment) : Bool := x.asksClose && !x.closes && !x.isRelease

variable {x : Moment} {i k : Nat} {s : Stage}

theorem call?_caller {m : Move} (ha : x.action = .caller i m) (hs : x.stage? = some s) :
    x.call? = s.call? m := by
  rw [stage?_caller ha] at hs
  simp [Moment.call?, Lifecycle.call?, ha, hs]

theorem isRelease_eq (hs : x.stage? = some s) : x.isRelease = s.isRelease := by
  rw [isRelease, hs, Option.any_some]

theorem current?_go (ha : x.action = .caller i (.go k)) (hs : x.stage? = some s) :
    x.current? = s.call? (.go k) := by
  simp [current?, ha, call?_caller ha hs]

theorem current?_of_expire (ha : x.action = .caller i .expire) : x.current? = none := by
  have silent (s : Stage) : s.call? .expire = none := by
    cases s <;> rfl
  simp [current?, ha, Moment.call?, Lifecycle.call?, silent]

theorem current?_cancel {landed : Bool} {vs : List Victim} {next : Afterwards}
    (ha : x.action = .caller i (.cancel k landed)) (hs : x.stage? = some (.halting vs next)) :
    x.current? = vs[k]?.bind Victim.call? := by
  simp [current?, ha, hs]

/-- What is called is what the program is at. -/
theorem current?_of_call? {c : Call} (h : x.call? = some c) : x.current? = some c := by
  unfold current?
  split
  · rename_i ha hs
    rw [call?_caller ha hs] at h
    rename_i landed _ _
    cases landed with
    | true => exact (Option.mem_filter_iff.1 h).1
    | false => cases h
  · exact h

theorem asksClose_of_closes (h : x.closes = true) : x.asksClose = true := by
  rcases (Option.any_eq_true _ _).1 (Bool.and_eq_true_iff.1 h).1 with ⟨c, hc, closing⟩
  exact (Option.any_eq_true _ _).2 ⟨c, current?_of_call? hc, closing⟩

/-- A request to close the client reaches the engine or is lost. -/
theorem asksClose_toNat (reaches : x.isRelease = true → x.closes = x.asksClose) :
    x.asksClose.toNat = x.closes.toNat + x.losesClose.toNat := by
  cases hc : x.closes with
  | true => simp [losesClose, hc, asksClose_of_closes hc]
  | false =>
    cases hr : x.isRelease with
    | true => simp [losesClose, hc, ← reaches hr]
    | false => simp [losesClose, hc, hr]

end Moment

/-! ## What an environment holds -/

/-- What an environment holds of runtimes and of the engine client, and what still runs on a
runtime. -/
structure Estate where
  held : Bool
  hasClient : Bool
  workersOpen : Bool
  clientOpen : Bool
  started : Nat
  closed : Nat
  leftovers : List Leftover

/-- The estate of an environment. -/
def estate (l : Lifecycle) : Estate where
  held := l.held
  hasClient := l.hasClient
  workersOpen := l.world.workersOpen
  clientOpen := l.world.clientOpen
  started := l.world.runtimesStarted
  closed := l.world.runtimesClosed
  leftovers := l.leftovers

section

variable {e₀ e : Estate} {tr : List Moment} {x : Moment} {d d' : Nat} {α : Type}
  {t : Task (Except Fault α)} {Q : Client.Standing → Except Fault α → Prop}

/-- Each client that was opened since the estate `e₀` has been closed, or the request to close it
was lost, or it is still open; `debt` many count twice. -/
def Books (e₀ : Estate) (tr : List Moment) (e : Estate) (debt : Nat) : Prop :=
  tr.countP Moment.closes + tr.countP Moment.losesClose + e.clientOpen.toNat =
    tr.countP Moment.opens + e₀.clientOpen.toNat + debt

theorem Books.step (h : Books e₀ tr x.before.estate d)
    (balance : x.asksClose.toNat + x.after.world.clientOpen.toNat + d =
      x.opens.toNat + x.before.world.clientOpen.toNat + d')
    (reaches : x.isRelease = true → x.closes = x.asksClose) :
    Books e₀ (tr ++ [x]) x.after.estate d' := by
  have asked := Moment.asksClose_toNat reaches
  have count (p : Moment → Bool) : (tr ++ [x]).countP p = tr.countP p + (p x).toNat := by
    rw [List.countP_append, List.countP_singleton]
    cases p x <;> rfl
  unfold Books at h ⊢
  rw [count, count, count]
  simp only [estate] at h ⊢
  omega

/-- A moment at which no program moves and the client is left as it is. -/
theorem Books.still (h : Books e₀ tr x.before.estate d) (idle : x.current? = none)
    (same : x.after.world.clientOpen = x.before.world.clientOpen) :
    Books e₀ (tr ++ [x]) x.after.estate d := by
  have unasked : x.asksClose = false := by simp [Moment.asksClose, idle]
  have unopened : x.opens = false := by simp [Moment.opens, same]
  refine h.step (by simp [unasked, unopened, same]) fun _ => ?_
  rw [unasked, Moment.closes]
  cases hc : x.call? with
  | none => rfl
  | some c =>
    rw [Moment.current?_of_call? hc] at idle
    cases idle

/-- A program is under way that handles the client properly, and the books balance with what it
owes. -/
def Flight (e₀ : Estate) (tr : List Moment) (e : Estate)
    (Q : Client.Standing → Except Fault α → Prop) (t : Task (Except Fault α)) : Prop :=
  ∃ s : Client.Standing, Task.Follows Client.handling Q t s ∧ s.Fits e.clientOpen ∧
    Books e₀ tr e s.debt

/-- The program goes on with its call. -/
theorem Flight.answers {c : Call} {next : c.Reply → Task (Except Fault α)} {r : c.Reply}
    (h : Flight e₀ tr x.before.estate Q (.call c next)) (current : x.current? = some c)
    (answered : x.before.world.Answers c r x.after.world)
    (reaches : x.isRelease = true → x.closes = x.asksClose) :
    Flight e₀ (tr ++ [x]) x.after.estate Q (next r) := by
  rcases h with ⟨s, follows, fits, books⟩
  refine ⟨s.next c r, follows.2 r, Client.Standing.fits_next follows.1 fits answered, ?_⟩
  refine books.step ?_ reaches
  have balance := Client.Standing.balance follows.1 fits answered
  simpa [Moment.asksClose, current, Moment.opens] using balance

theorem Flight.still (h : Flight e₀ tr x.before.estate Q t) (idle : x.current? = none)
    (same : x.after.world.clientOpen = x.before.world.clientOpen) :
    Flight e₀ (tr ++ [x]) x.after.estate Q t := by
  rcases h with ⟨s, follows, fits, books⟩
  exact ⟨s, follows, show s.Fits x.after.world.clientOpen from same ▸ fits, books.still idle same⟩

end
end Lifecycle
end Testbed

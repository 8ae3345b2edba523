import Testbed.Proofs.Removal

/-!
# What a stop pass finds out

The report of a stop pass names every container that could not be removed, and the label query of
its sweep finds every container of the session.
-/

namespace Testbed

/-! ## Accounting for containers -/

/-- The report says that a container could not be stopped. -/
def TeardownReport.Accounts (r : TeardownReport) (id : String) : Prop :=
  ∃ f ∈ r.failures, f.containerId = id

theorem TeardownReport.accounts_append {a b : TeardownReport} {id : String} :
    (a.append b).Accounts id ↔ a.Accounts id ∨ b.Accounts id := by
  simp [Accounts, append, or_and_right, exists_or]

namespace StopPass

variable {α : Type} {id : String}

theorem reportOne_accounts {name i : String} {r : Except Fault Unit} :
    (reportOne name i r).Accounts id ↔ i = id ∧ ∃ f, r = .error f := by
  rcases r with f | ⟨⟩
  · simp [TeardownReport.Accounts, reportOne]
  · simp [TeardownReport.Accounts, reportOne]

/-- A report that is put together accounts for what its parts account for. -/
theorem foldl_accounts (g : α → TeardownReport) (xs : List α) (r : TeardownReport) :
    (xs.foldl (fun r x => r.append (g x)) r).Accounts id ↔
      r.Accounts id ∨ ∃ x ∈ xs, (g x).Accounts id := by
  induction xs generalizing r with
  | nil => simp
  | cons x xs ih =>
    rw [List.foldl_cons, ih, TeardownReport.accounts_append]
    simp [or_assoc]

theorem not_accounts_empty : ¬ TeardownReport.Accounts {} id := by
  simp [TeardownReport.Accounts]

theorem report_accounts {cs : List Capability} {rs : List (Except Fault Unit)} :
    (report cs rs).Accounts id ↔
      ∃ p ∈ cs.zip rs, p.1.containerId = id ∧ ∃ f, p.2 = .error f := by
  simp [report, foldl_accounts, not_accounts_empty, reportOne_accounts]

theorem sweptReport_accounts {ids : List String} {rs : List (Except Fault Bool)} :
    (sweptReport ids rs).Accounts id ↔ ∃ p ∈ ids.zip rs, p.1 = id ∧ ∃ f, p.2 = .error f := by
  unfold sweptReport
  rw [foldl_accounts]
  simp only [not_accounts_empty, false_or, reportOne_accounts]
  refine exists_congr fun p => and_congr_right fun _ => and_congr_right fun _ => ?_
  rcases p.2 with f | b
  · simp [Except.map]
  · simp [Except.map]

/-- Of two lists of which the elements belong together, each element of the first is paired. -/
theorem mem_zip_of_forall₂ {β : Type} {R : α → β → Prop} {xs : List α} {ys : List β}
    (h : List.Forall₂ R xs ys) {a : α} (ha : a ∈ xs) : ∃ b, (a, b) ∈ xs.zip ys ∧ R a b := by
  induction h with
  | nil => cases ha
  | cons hr _ ih =>
    rcases List.mem_cons.1 ha with rfl | ha
    · exact ⟨_, List.mem_cons_self .., hr⟩
    · rcases ih ha with ⟨b, hb, hr⟩
      exact ⟨b, List.mem_cons_of_mem _ hb, hr⟩

section

variable {e : Engine}

/-- The container of a capability is gone, or the report accounts for it. -/
theorem lacks_or_report {cs : List Capability} {rs : List (Except Fault Unit)}
    (h : Removed e (cs.map Capability.containerId) rs) {c : Capability} (hc : c ∈ cs) :
    e.Lacks c.containerId ∨ (report cs rs).Accounts c.containerId := by
  rcases mem_zip_of_forall₂ (List.forall₂_map_left_iff.1 h) hc with ⟨r, hr, hl⟩
  rcases r with f | a
  · exact .inr (report_accounts.2 ⟨_, hr, rfl, f, rfl⟩)
  · exact .inl (hl a rfl)

/-- A container that was swept is gone, or the report accounts for it. -/
theorem lacks_or_sweptReport {ids : List String} {rs : List (Except Fault Bool)}
    (h : Removed e ids rs) (hi : id ∈ ids) :
    e.Lacks id ∨ (sweptReport ids rs).Accounts id := by
  rcases mem_zip_of_forall₂ h hi with ⟨r, hr, hl⟩
  rcases r with f | a
  · exact .inr (sweptReport_accounts.2 ⟨_, hr, rfl, f, rfl⟩)
  · exact .inl (hl a rfl)

/-- A report accounts for containers of the capabilities only. -/
theorem mem_of_report {cs : List Capability} {rs : List (Except Fault Unit)}
    (h : (report cs rs).Accounts id) : id ∈ cs.map Capability.containerId := by
  rcases report_accounts.1 h with ⟨p, hp, rfl, -⟩
  exact List.mem_map_of_mem (List.of_mem_zip hp).1

end

end StopPass

/-! ## The label query -/

/-- The containers that the answer to a label query names. -/
def Call.found? : (c : Call) → c.Reply → Option (List String)
  | .engine (.listLabelled _), .ok ids => some ids
  | _, _ => none

theorem Call.found?_of_stops {id : String} {c : Call} (h : c.stops id = true) (r : c.Reply) :
    c.found? r = none := by
  unfold found?
  split
  · cases h
  · rfl

/-- The rule of a label query: the note is the last answer. -/
def Rule.listing (filter : String) : Rule (Option (List String)) where
  allows := fun _ c => c.isStop = true ∨ c = .engine (.listLabelled filter)
  note := fun found c r => (c.found? r).or found

/-- A program that has an answer comes back with it. -/
def Answers (found : Option (List String)) (r : Except Fault (List String)) : Prop :=
  ∀ ids, found = some ids → r = .ok ids

theorem StopPass.labelled_listing (session : String) :
    Task.Follows (Rule.listing s!"{Provisioner.sessionLabel}={session}") Answers
      (StopPass.labelled session).run none := by
  have query : Task.Follows (Rule.listing s!"{Provisioner.sessionLabel}={session}")
      (fun found (r : Except Fault (List String)) =>
        Answers found r ∧ ∀ f, r = .error f → found = none)
      (Client.containersWithLabel Provisioner.sessionLabel session).run none := by
    refine And.intro (.inl rfl) fun r => ?_
    rcases r with e | ⟨⟩
    · exact ⟨nofun, fun _ _ => rfl⟩
    · refine And.intro (.inr rfl) fun r => ?_
      rcases r with e | ids
      · exact ⟨nofun, fun _ _ => rfl⟩
      · refine ⟨?_, nofun⟩
        intro ids' h
        cases h
        rfl
  refine Work.follows_handle query (fun _ _ h => h.1) ?_ fun _ _ h _ => h.1
  intro found e h _
  rcases h.2 e rfl with rfl
  exact And.intro (.inl rfl) fun _ => nofun

namespace Engine

variable {e e' : Engine} {label : String × String} {ids : List String}

/-- The list names every container with the label. -/
def Covers (e : Engine) (label : String × String) (ids : List String) : Prop :=
  ∀ id, e.Holds id label → id ∈ ids

theorem Covers.within (h : e.Covers label ids) (hw : e'.Within e) : e'.Covers label ids :=
  fun id hi => h id (hi.within hw)

/-- A label query that is answered names every container with the label. -/
theorem covers_of_listLabelled
    (h : (e.perform (.listLabelled s!"{label.1}={label.2}")).1 = .ok ids) :
    e.Covers label ids := by
  rintro id ⟨k, hk, rfl, hl⟩
  refine listLabelled_complete h hk ?_
  exact List.any_eq_true.2 ⟨label, hl, by simp⟩

end Engine

/-- The answer to a label query is true of the engine. -/
theorem World.found_covers {w w' : World} {c : Call} {r : c.Reply} {ids : List String}
    {label : String × String} (h : w.perform c = some (r, w'))
    (hc : c.isStop = true ∨ c = .engine (.listLabelled s!"{label.1}={label.2}"))
    (hf : c.found? r = some ids) : w.engine.Covers label ids := by
  rcases hc with hc | rfl
  · unfold Call.found? at hf
    split at hf
    · cases hc
    · cases hf
  · rcases r with e | ids'
    · cases hf
    · cases hf
      rcases World.perform_engine h with ⟨hr, -⟩ | ⟨hr, -⟩
      · exact Engine.covers_of_listLabelled hr.symm
      · cases hr

end Testbed

import Mathlib.Data.List.Nodup
import Mathlib.Data.List.Perm.Subperm
import Testbed.Files.Tree

/-!
# Where paths lead

`Walks` says where a path leads without a bound on the links that are followed: a link is only
refused if it is met again while it is being followed.  The bound of `walk` is never reached, so
`resolve` finds what `Walks` says, and a path is only said to loop if it does.
-/

namespace Testbed
namespace Files

/-- A name that leads nowhere else. -/
def Stays (name : String) : Prop := name.isEmpty = true ∨ name = "."

/-- A name that is looked up. -/
def Enters (name : String) : Prop := ¬ Stays name ∧ name ≠ ".."

instance : DecidablePred Stays := fun name =>
  inferInstanceAs (Decidable (name.isEmpty = true ∨ name = "."))

instance : DecidablePred Enters := fun name =>
  inferInstanceAs (Decidable (¬ Stays name ∧ name ≠ ".."))

/-- Where names lead from a place while some links are being followed. -/
inductive Walks (fs : Files) :
    List Place → Place → List String → Except Problem Place → Prop where
  | here (pending : List Place) (p : Place) : Walks fs pending p [] (.ok p)
  | stay {pending : List Place} {p : Place} {name : String} {rest : List String}
      {r : Except Problem Place} (h : Stays name) (walk : Walks fs pending p rest r) :
      Walks fs pending p (name :: rest) r
  | up {pending : List Place} {p : Place} {rest : List String} {r : Except Problem Place}
      (walk : Walks fs pending p.parent rest r) : Walks fs pending p (".." :: rest) r
  /-- The operating system refuses the place under a name. -/
  | refused {pending : List Place} {p : Place} {name : String} {e : Problem} (h : Enters name)
      (look : fs.look (p.child name) = .error e) (rest : List String) :
      Walks fs pending p (name :: rest) (.error e)
  | enter {pending : List Place} {p : Place} {name : String} {n : Node} {rest : List String}
      {r : Except Problem Place} (h : Enters name) (look : fs.look (p.child name) = .ok n)
      (plain : ∀ target, n ≠ .link target) (walk : Walks fs pending (p.child name) rest r) :
      Walks fs pending p (name :: rest) r
  /-- A link is met again while it is being followed. -/
  | loop {pending : List Place} {p : Place} {name target : String} (h : Enters name)
      (look : fs.look (p.child name) = .ok (.link target)) (again : p.child name ∈ pending)
      (rest : List String) :
      Walks fs pending p (name :: rest) (.error (.loop (p.child name).path))
  /-- A link leads nowhere. -/
  | lost {pending : List Place} {p : Place} {name target : String} {e : Problem} (h : Enters name)
      (look : fs.look (p.child name) = .ok (.link target)) (first : p.child name ∉ pending)
      (inside : Walks fs (p.child name :: pending) (startOf p target) (namesOf target) (.error e))
      (rest : List String) : Walks fs pending p (name :: rest) (.error e)
  | follow {pending : List Place} {p q : Place} {name target : String} {rest : List String}
      {r : Except Problem Place} (h : Enters name)
      (look : fs.look (p.child name) = .ok (.link target)) (first : p.child name ∉ pending)
      (inside : Walks fs (p.child name :: pending) (startOf p target) (namesOf target) (.ok q))
      (walk : Walks fs pending q rest r) : Walks fs pending p (name :: rest) r

variable {fs : Files} {pending : List Place} {p q : Place} {name target : String}
  {names rest : List String} {r : Except Problem Place}

/-! ## Links that are being followed -/

/-- A link stands at the place. -/
def IsLink (fs : Files) (p : Place) : Prop := ∃ target, fs.node? p = some (.link target)

theorem look_eq_ok {n : Node} (h : fs.look p = .ok n) : fs.node? p = some n := by
  unfold look at h
  split at h
  · rename_i hn
    cases h
    simp [node?, List.getLast?_eq_none_iff.1 hn]
  · split at h
    · cases h
    · split at h
      · cases h
      · split at h
        · cases h
        · split at h
          · rename_i hn
            cases h
            exact hn
          · cases h

/-- Links only stand at places under the home directory that are nodes of the tree. -/
theorem IsLink.mem (h : fs.IsLink p) : p.rooted = false ∧ p.names ∈ fs.nodes.map Prod.fst := by
  rcases h with ⟨target, h⟩
  unfold node? at h
  split at h
  · cases h
  · split at h
    · cases h
    · rename_i hr
      rcases Option.map_eq_some_iff.1 h with ⟨n, hn, -⟩
      refine ⟨by simpa using hr, List.mem_map.2 ⟨n, List.mem_of_find?_eq_some hn, ?_⟩⟩
      simpa using List.find?_some hn

/-- The links that are being followed are links, each followed once. -/
structure Followed (fs : Files) (pending : List Place) : Prop where
  distinct : pending.Nodup
  links : ∀ p ∈ pending, fs.IsLink p

theorem Followed.cons (h : fs.Followed pending) (hp : fs.IsLink p) (fresh : p ∉ pending) :
    fs.Followed (p :: pending) where
  distinct := List.nodup_cons.2 ⟨fresh, h.distinct⟩
  links := by
    intro q hq
    rcases List.mem_cons.1 hq with rfl | hq
    · exact hp
    · exact h.links q hq

/-- No more links are being followed than there are nodes. -/
theorem Followed.length_le (h : fs.Followed pending) : pending.length ≤ fs.nodes.length := by
  have distinct : (pending.map Place.names).Nodup := by
    refine List.Nodup.map_on ?_ h.distinct
    intro p hp q hq same
    have hp := (h.links p hp).mem.1
    have hq := (h.links q hq).mem.1
    cases p
    cases q
    simp_all
  have among : pending.map Place.names ⊆ fs.nodes.map Prod.fst := by
    intro names hn
    rcases List.mem_map.1 hn with ⟨p, hp, rfl⟩
    exact (h.links p hp).mem.2
  simpa using (List.subperm_of_subset distinct among).length_le

/-- As long as no more links have been followed than there are nodes, another one may be. -/
theorem Followed.deeper {depth : Nat} (h : fs.Followed pending) (hp : fs.IsLink p)
    (first : p ∉ pending) (deep : fs.nodes.length ≤ depth + pending.length) :
    ∃ d, depth = d + 1 ∧ fs.nodes.length ≤ d + (p :: pending).length := by
  have bound := (h.cons hp first).length_le
  simp only [List.length_cons] at bound ⊢
  cases depth with
  | zero => omega
  | succ d => exact ⟨d, rfl, by omega⟩

/-! ## What a walk finds -/

section

variable {depth : Nat}

theorem walk_stay (h : Stays name) :
    fs.walk depth pending p (name :: rest) = fs.walk depth pending p rest := by
  rw [walk, if_pos (by simpa [Stays] using h)]

theorem walk_up : fs.walk depth pending p (".." :: rest) = fs.walk depth pending p.parent rest := by
  rw [walk, if_neg (by decide), if_pos (by decide)]

theorem walk_enters (h : Enters name) : fs.walk depth pending p (name :: rest) = (do
    match ← fs.look (p.child name) with
    | .link target =>
      if pending.contains (p.child name) then .error (.loop (p.child name).path)
      else
        match depth with
        | 0 => .error (.loop (p.child name).path)
        | depth + 1 => do
          let q ← fs.walk depth (p.child name :: pending) (startOf p target) (namesOf target)
          fs.walk (depth + 1) pending q rest
    | _ => fs.walk depth pending (p.child name) rest) := by
  rw [walk]
  exact (if_neg (by simpa [Stays] using h.1)).trans (if_neg (by simpa using h.2))

theorem walk_refused {e : Problem} (h : Enters name) (look : fs.look (p.child name) = .error e) :
    fs.walk depth pending p (name :: rest) = .error e := by
  rw [walk_enters h, look]
  rfl

theorem walk_enter {n : Node} (h : Enters name) (look : fs.look (p.child name) = .ok n)
    (plain : ∀ target, n ≠ .link target) :
    fs.walk depth pending p (name :: rest) = fs.walk depth pending (p.child name) rest := by
  rw [walk_enters h, look]
  cases n with
  | link target => exact absurd rfl (plain target)
  | file content => rfl
  | directory => rfl

theorem walk_loop (h : Enters name) (look : fs.look (p.child name) = .ok (.link target))
    (again : p.child name ∈ pending) :
    fs.walk depth pending p (name :: rest) = .error (.loop (p.child name).path) := by
  rw [walk_enters h, look]
  simp [bind, Except.bind, again]

theorem walk_follow (h : Enters name) (look : fs.look (p.child name) = .ok (.link target))
    (first : p.child name ∉ pending) :
    fs.walk (depth + 1) pending p (name :: rest) = (do
      let q ← fs.walk depth (p.child name :: pending) (startOf p target) (namesOf target)
      fs.walk (depth + 1) pending q rest) := by
  rw [walk_enters h, look]
  simp [bind, Except.bind, first]

end

/-- A walk that may follow as many links as there are nodes finds what is there. -/
theorem walks_walk (depth : Nat) (pending : List Place) (p : Place) (names : List String)
    (h : fs.Followed pending) (deep : fs.nodes.length ≤ depth + pending.length) :
    fs.Walks pending p names (fs.walk depth pending p names) := by
  -- The links being followed are distinct nodes, so the depth is never used up on the way.
  induction depth, pending, p, names using walk.induct with
  | case1 depth pending p =>
    rw [walk]
    exact .here pending p
  | case2 depth pending p name rest hs ih =>
    have hs : Stays name := by simpa [Stays] using hs
    rw [walk_stay hs]
    exact .stay hs (ih h deep)
  | case3 depth pending p name rest _ hu ih =>
    rcases beq_iff_eq.1 hu with rfl
    rw [walk_up]
    exact .up (ih h deep)
  | case4 depth pending p name rest hs hu ih inside =>
    have enters : Enters name := ⟨by simpa [Stays] using hs, by simpa using hu⟩
    rcases look : fs.look (p.child name) with e | n
    · rw [walk_refused enters look]
      exact .refused enters look rest
    · by_cases link : ∃ target, n = .link target
      · rcases link with ⟨target, rfl⟩
        by_cases again : p.child name ∈ pending
        · rw [walk_loop enters look again]
          exact .loop enters look again rest
        · have link : fs.IsLink (p.child name) := ⟨target, look_eq_ok look⟩
          rcases h.deeper link again deep with ⟨depth, rfl, deeper⟩
          rcases ih target with ⟨inside, after⟩
          have found := inside (h.cons link again) deeper
          rw [walk_follow enters look again]
          rcases hw : fs.walk depth (p.child name :: pending) (startOf p target)
            (namesOf target) with e | q
          · exact .lost enters look again (hw ▸ found) rest
          · exact .follow enters look again (hw ▸ found) (after q h deep)
      · have plain : ∀ target, n ≠ .link target := fun target hn => link ⟨target, hn⟩
        rw [walk_enter enters look plain]
        exact .enter enters look plain (inside h deep)

/-- Names lead to one end at most, and a walk that may follow enough links gets there. -/
theorem Walks.walk_eq (w : fs.Walks pending p names r) {depth : Nat} (h : fs.Followed pending)
    (deep : fs.nodes.length ≤ depth + pending.length) : fs.walk depth pending p names = r := by
  -- Entering a link takes one off the depth and adds one to what is being followed.
  induction w generalizing depth with
  | here => rw [walk]
  | stay hs _ ih => rw [walk_stay hs, ih h deep]
  | up _ ih => rw [walk_up, ih h deep]
  | refused enters look => exact walk_refused enters look
  | enter enters look plain _ ih => rw [walk_enter enters look plain, ih h deep]
  | loop enters look again => exact walk_loop enters look again
  | lost enters look first _ _ ih =>
    have link : fs.IsLink _ := ⟨_, look_eq_ok look⟩
    rcases h.deeper link first deep with ⟨depth, rfl, deeper⟩
    rw [walk_follow enters look first, ih (h.cons link first) deeper]
    rfl
  | follow enters look first _ _ inside after =>
    have link : fs.IsLink _ := ⟨_, look_eq_ok look⟩
    rcases h.deeper link first deep with ⟨depth, rfl, deeper⟩
    rw [walk_follow enters look first, inside (h.cons link first) deeper]
    exact after h deep

/-! ## Paths -/

/-- A path that is a single name leads where the name leads. -/
theorem Walks.single (relative : name.startsWith "/" = false) (single : namesOf name = [name])
    (w : fs.Walks pending p [name] r) : fs.Walks pending (startOf p name) (namesOf name) r := by
  have start : startOf p name = p := if_neg (by simp [relative])
  rw [start, single]
  exact w

/-- Where a path leads from the home directory. -/
def Leads (fs : Files) (path : String) (r : Except Problem Place) : Prop :=
  fs.Walks [] (startOf {} path) (namesOf path) r

theorem followed_nil : fs.Followed [] := ⟨List.nodup_nil, nofun⟩

/-- What is found at a path is where it leads. -/
theorem leads_iff {path : String} :
    fs.Leads path r ↔ fs.walk fs.nodes.length [] (startOf {} path) (namesOf path) = r := by
  constructor
  · intro h
    exact h.walk_eq followed_nil (Nat.le_refl _)
  · rintro rfl
    exact walks_walk _ _ _ _ followed_nil (Nat.le_refl _)

theorem Leads.unique {path : String} {r' : Except Problem Place} (h : fs.Leads path r)
    (h' : fs.Leads path r') : r = r' :=
  (leads_iff.1 h).symm.trans (leads_iff.1 h')

theorem resolve_eq {path : String} (h : fs.Leads path r) :
    fs.resolve path = r.mapError Problem.fault := by
  rw [resolve, leads_iff.1 h]

end Files
end Testbed

import Testbed.Client.Operations
import Testbed.Proofs.Cuts

/-!
# The parts of a split URI

What the parts of a URI consist of once it has been split.  Marks that end an authority stand in no
part of it, tabs and line ends stand nowhere, and the host is in lower case up to its zone.  So
the host of an address is a text that a URI can be built with, unless it came out of brackets.
-/

namespace Testbed
namespace Uri

open Text

variable {p : Char → Bool} {cs rest a b : List Char} {c d mark : Char} {u : Uri}

/-- A tab or a line end, which is taken out of a URI before it is split. -/
def isStray (c : Char) : Bool := c == '\t' || c == '\r' || c == '\n'

/-- A character that ends the authority. -/
def isDelimiter (c : Char) : Bool := c == '/' || c == '?' || c == '#'

/-- A character that may stand in an authority. -/
def isInner (c : Char) : Bool := !isDelimiter c && !isStray c

theorem isInner_iff (c : Char) : isInner c = true ↔ isDelimiter c = false ∧ isStray c = false := by
  simp [isInner]

/-- Whatever may not stand in an authority is a mark. -/
theorem isMark_of_not_inner (h : isInner c = false) : IsMark c := by
  have cases : c = '/' ∨ c = '?' ∨ c = '#' ∨ c = '\t' ∨ c = '\r' ∨ c = '\n' := by
    simp [isInner, isDelimiter, isStray] at h
    tauto
  rcases cases with rfl | rfl | rfl | rfl | rfl | rfl <;> decide

/-! ## Cuts -/

theorem cutAt_of_none (h : mark ∉ cs) : cutAt mark cs = (cs, []) := by
  have none : splitFirst? (· == mark) cs = none :=
    splitFirst?_eq_none.2 fun x hx => by simpa using fun he : x = mark => h (he ▸ hx)
  rw [cutAt, none]
  rfl

theorem cutAt_append (h : mark ∉ a) : cutAt mark (a ++ mark :: b) = (a, b) := by
  have found : splitFirst? (· == mark) (a ++ mark :: b) = some (a, b) :=
    splitFirst?_append (fun x hx => by simpa using fun he : x = mark => h (he ▸ hx)) (by simp)
  rw [cutAt, found]
  rfl

/-- A text is as it is cut. -/
theorem cutAt_cases (mark : Char) (cs : List Char) :
    (mark ∉ cs ∧ cutAt mark cs = (cs, [])) ∨
      ∃ a b, mark ∉ a ∧ cs = a ++ mark :: b ∧ cutAt mark cs = (a, b) := by
  cases h : splitFirst? (· == mark) cs with
  | none =>
    have absent : mark ∉ cs := fun mem => by simpa using splitFirst?_eq_none.1 h mark mem
    exact .inl ⟨absent, cutAt_of_none absent⟩
  | some r =>
    obtain ⟨a, b⟩ := r
    obtain ⟨c, hc, rfl, before⟩ := of_splitFirst? h
    obtain rfl : c = mark := by simpa using hc
    have absent : c ∉ a := fun mem => by simpa using before c mem
    exact .inr ⟨a, b, absent, rfl, cutAt_append absent⟩

theorem not_mem_cutAt (mark : Char) (cs : List Char) : mark ∉ (cutAt mark cs).1 := by
  rcases cutAt_cases mark cs with ⟨absent, cut⟩ | ⟨a, b, absent, -, cut⟩
  · rwa [cut]
  · rwa [cut]

theorem cutAt_sublist (mark : Char) (cs : List Char) : (cutAt mark cs).1.Sublist cs := by
  rcases cutAt_cases mark cs with ⟨-, cut⟩ | ⟨a, b, -, rfl, cut⟩
  · rw [cut]
  · rw [cut]
    exact List.sublist_append_left a _

/-! ## Splitting -/

/-- The authority of what follows the two slashes, and the text after it. -/
def beforeDelimiter (cs : List Char) : List Char × List Char :=
  (cs.takeWhile fun c => !isDelimiter c, cs.dropWhile fun c => !isDelimiter c)

/-- An authority ends where the first delimiter stands. -/
theorem beforeDelimiter_append {authority : List Char}
    (inner : ∀ c ∈ authority, isInner c = true)
    (ends : ∀ c, rest.head? = some c → isDelimiter c = true) :
    beforeDelimiter (authority ++ rest) = (authority, rest) := by
  have passed : ∀ c ∈ authority, (!isDelimiter c) = true :=
    fun c hc => by simpa using ((isInner_iff c).1 (inner c hc)).1
  rw [beforeDelimiter, List.takeWhile_append_of_pos passed, List.dropWhile_append_of_pos passed]
  cases rest with
  | nil => simp
  | cons c rest => simp [ends c rfl]

/-- The authority of a text without its scheme, and the text after it. -/
def splitAuthority : List Char → List Char × List Char
  | '/' :: '/' :: rest => beforeDelimiter rest
  | rest => ([], rest)

/-- The URI with a scheme, an authority and a text after that. -/
def assemble (scheme authority rest : List Char) : Uri where
  scheme := scheme
  authority := authority
  path := (cutAt '?' (cutAt '#' rest).1).1
  query := (cutAt '?' (cutAt '#' rest).1).2
  fragment := (cutAt '#' rest).2

theorem split_eq (text : List Char) :
    split text = (do
      checkBrackets (splitAuthority (splitScheme (clean text)).2).1
      checkHidden (splitAuthority (splitScheme (clean text)).2).1
      .ok (assemble (splitScheme (clean text)).1 (splitAuthority (splitScheme (clean text)).2).1
        (splitAuthority (splitScheme (clean text)).2).2)) := by
  -- The match on what follows the scheme is `splitAuthority`.
  have parts : (match (splitScheme (clean text)).2 with
      | '/' :: '/' :: rest =>
        (rest.takeWhile fun c => !isDelimiter c, rest.dropWhile fun c => !isDelimiter c)
      | _ => ([], (splitScheme (clean text)).2)) =
        splitAuthority (splitScheme (clean text)).2 := by
    unfold splitAuthority
    split <;> rfl
  unfold split
  simp only
  rw [← parts]
  rfl

theorem of_split {text : List Char} (h : split text = .ok u) :
    u = assemble (splitScheme (clean text)).1 (splitAuthority (splitScheme (clean text)).2).1
      (splitAuthority (splitScheme (clean text)).2).2 := by
  rw [split_eq] at h
  generalize (splitAuthority (splitScheme (clean text)).2).1 = authority at h ⊢
  cases hb : checkBrackets authority with
  | error e =>
    rw [hb] at h
    cases h
  | ok _ =>
    cases hh : checkHidden authority with
    | error e =>
      rw [hb, hh] at h
      cases h
    | ok _ =>
      rw [hb, hh] at h
      cases h
      rfl

theorem isStray_of_mem_clean (h : c ∈ clean cs) : isStray c = false := by
  have kept := (List.mem_filter.1 h).2
  simpa [isStray] using kept

theorem mem_of_mem_splitScheme (h : c ∈ (splitScheme cs).2) : c ∈ cs := by
  unfold splitScheme at h
  split at h
  · rename_i x scheme rest cut
    obtain ⟨m, -, rfl, -⟩ := of_splitFirst? cut
    split at h
    · exact List.mem_append_right _ (List.mem_cons_of_mem m h)
    · exact h
  · exact h

theorem splitAuthority_inner (stray : ∀ c ∈ cs, isStray c = false) :
    ∀ c ∈ (splitAuthority cs).1, isInner c = true := by
  unfold splitAuthority
  split
  · rename_i rest
    intro c hc
    have mem : c ∈ rest := (List.takeWhile_sublist _).subset hc
    have free := List.mem_takeWhile_imp hc
    rw [isInner_iff]
    exact ⟨by simpa using free, stray c (by simp [mem])⟩
  · nofun

/-- The authority holds no delimiters, tabs or line ends. -/
theorem authority_inner {text : List Char} (h : split text = .ok u) :
    ∀ c ∈ u.authority, isInner c = true := by
  rw [of_split h]
  exact splitAuthority_inner fun c hc => isStray_of_mem_clean (mem_of_mem_splitScheme hc)

/-! ## The parts of the authority -/

theorem userInfo?_sublist {info : List Char} (h : u.userInfo? = some info) :
    info.Sublist u.authority := by
  obtain ⟨⟨a, b⟩, cut, rfl⟩ := Option.map_eq_some_iff.1 h
  obtain ⟨m, -, whole, -⟩ := of_splitLast? cut
  rw [whole]
  exact List.sublist_append_left a _

theorem user?_sublist {user : List Char} (h : u.user? = some user) :
    user.Sublist u.authority ∧ ':' ∉ user := by
  obtain ⟨info, hi, rfl⟩ := Option.map_eq_some_iff.1 h
  exact ⟨(cutAt_sublist ':' info).trans (userInfo?_sublist hi), not_mem_cutAt ':' info⟩

theorem password?_sublist {password : List Char} (h : u.password? = some password) :
    password.Sublist u.authority := by
  obtain ⟨info, hi, h⟩ := Option.bind_eq_some_iff.1 h
  obtain ⟨⟨a, b⟩, cut, rfl⟩ := Option.map_eq_some_iff.1 h
  obtain ⟨m, -, rfl, -⟩ := of_splitFirst? cut
  exact ((List.sublist_cons_self m b).trans (List.sublist_append_right a _)).trans
    (userInfo?_sublist hi)

theorem hostInfo_sublist (u : Uri) : u.hostInfo.Sublist u.authority ∧ '@' ∉ u.hostInfo := by
  unfold hostInfo
  cases cut : splitLast? (· == '@') u.authority with
  | none =>
    have absent : '@' ∉ u.authority := fun mem => by simpa using splitLast?_eq_none.1 cut '@' mem
    exact ⟨List.Sublist.refl _, absent⟩
  | some r =>
    obtain ⟨a, b⟩ := r
    obtain ⟨m, -, whole, after⟩ := of_splitLast? cut
    have absent : '@' ∉ b := fun mem => by simpa using after '@' mem
    refine ⟨?_, absent⟩
    rw [whole]
    exact (List.sublist_cons_self m b).trans (List.sublist_append_right a _)

/-- A host comes out of brackets, or it is the text before the first colon. -/
theorem hostAndPort_cases (u : Uri) :
    ('[' ∉ u.hostInfo ∧ u.hostAndPort = cutAt ':' u.hostInfo) ∨
      ∃ before inside, u.hostInfo = before ++ '[' :: inside ∧ '[' ∉ before ∧
        u.hostAndPort.1 = (cutAt ']' inside).1 := by
  unfold hostAndPort
  cases cut : splitFirst? (· == '[') u.hostInfo with
  | none =>
    exact .inl ⟨fun mem => by simpa using splitFirst?_eq_none.1 cut '[' mem, rfl⟩
  | some r =>
    obtain ⟨a, b⟩ := r
    obtain ⟨m, hm, whole, before⟩ := of_splitFirst? cut
    obtain rfl : m = '[' := by simpa using hm
    exact .inr ⟨a, b, whole, fun mem => by simpa using before '[' mem, rfl⟩

theorem hostAndPort_sublist (u : Uri) : u.hostAndPort.1.Sublist u.hostInfo := by
  rcases hostAndPort_cases u with ⟨-, same⟩ | ⟨before, inside, whole, -, same⟩
  · rw [same]
    exact cutAt_sublist _ _
  · rw [same, whole]
    exact ((cutAt_sublist _ _).trans (List.sublist_cons_self _ _)).trans
      (List.sublist_append_right before _)

/-! ## Hosts -/

/-- The host as written, in lower case up to its zone. -/
def lowerHost (cs : List Char) : List Char :=
  lower (cs.takeWhile (· != '%')) ++ cs.dropWhile (· != '%')

theorem host?_eq (u : Uri) :
    u.host? = if u.hostAndPort.1.isEmpty then none else some (lowerHost u.hostAndPort.1) :=
  rfl

theorem count_lowerHost (hd : IsMark d) (cs : List Char) :
    (lowerHost cs).count d = cs.count d := by
  rw [lowerHost, List.count_append, count_lower hd, ← List.count_append,
    List.takeWhile_append_dropWhile]

theorem mem_lowerHost (hd : IsMark d) : d ∈ lowerHost cs ↔ d ∈ cs := by
  rw [← List.count_pos_iff, count_lowerHost hd, List.count_pos_iff]

theorem lowerHost_ne_nil (h : cs ≠ []) : lowerHost cs ≠ [] := by
  intro empty
  obtain ⟨first, second⟩ := List.append_eq_nil_iff.1 empty
  have none : cs.takeWhile (· != '%') = [] := by
    by_contra some
    exact lower_ne_nil some first
  have whole : cs.takeWhile (· != '%') ++ cs.dropWhile (· != '%') = cs :=
    List.takeWhile_append_dropWhile
  rw [none, second] at whole
  exact h whole.symm

/-- A host in lower case stays as it is. -/
theorem lowerHost_lowerHost (cs : List Char) : lowerHost (lowerHost cs) = lowerHost cs := by
  -- No percent sign comes about in lower case, so the zone begins where it began.
  have percent : IsMark '%' := by decide
  have plain : ∀ x ∈ lower (cs.takeWhile (· != '%')), (x != '%') = true := by
    intro x hx
    have absent : '%' ∉ lower (cs.takeWhile (· != '%')) := by
      rw [← List.count_eq_zero, count_lower percent, List.count_eq_zero]
      exact fun mem => by simpa using List.mem_takeWhile_imp mem
    simpa using fun he : x = '%' => absent (he ▸ hx)
  have zone : (cs.dropWhile (· != '%')).dropWhile (· != '%') = cs.dropWhile (· != '%') :=
    List.dropWhile_idempotent _ cs
  have none : (cs.dropWhile (· != '%')).takeWhile (· != '%') = [] := by
    have whole := List.takeWhile_append_dropWhile (p := (· != '%'))
      (l := cs.dropWhile (· != '%'))
    rw [zone] at whole
    exact List.append_left_eq_self.1 whole
  calc lowerHost (lowerHost cs)
      = lower (lower (cs.takeWhile (· != '%'))) ++ cs.dropWhile (· != '%') := by
        rw [lowerHost, lowerHost, List.takeWhile_append_of_pos plain,
          List.dropWhile_append_of_pos plain, none, zone, List.append_nil]
    _ = lowerHost cs := by rw [lower_lower, lowerHost]

/-- A text that can stand as the host of a URI, in the form in which it is read again. -/
structure IsHost (cs : List Char) : Prop where
  ne_nil : cs ≠ []
  inner : ∀ c ∈ cs, isInner c = true
  no_user : '@' ∉ cs
  low : lowerHost cs = cs

theorem isHost_localhost : IsHost "localhost".toList where
  ne_nil := by decide
  inner := by simp [isInner, isDelimiter, isStray]
  no_user := by decide
  low := by decide +kernel

theorem isHost_host? {text h : List Char} (hs : split text = .ok u) (hh : u.host? = some h) :
    IsHost h := by
  rw [host?_eq] at hh
  split at hh
  · cases hh
  · rename_i some_host
    cases hh
    -- Lower case brings in no marks, so a mark would have been in the authority.
    have sub := (hostAndPort_sublist u).trans (hostInfo_sublist u).1
    refine ⟨lowerHost_ne_nil (by simpa using some_host), fun c hc => ?_, fun hc => ?_,
      lowerHost_lowerHost _⟩
    · by_contra outer
      have mark := isMark_of_not_inner (by simpa using outer)
      exact outer (authority_inner hs c (sub.subset ((mem_lowerHost mark).1 hc)))
    · have mark : IsMark '@' := by decide
      exact (hostInfo_sublist u).2 ((hostAndPort_sublist u).subset ((mem_lowerHost mark).1 hc))

end Uri

/-- The host under which an engine's ports are reachable can stand as the host of a URI. -/
theorem Client.isHost_hostOf {address host : String} (h : hostOf address = .ok host) :
    Uri.IsHost host.toList := by
  unfold hostOf at h
  split at h
  · cases h
    exact Uri.isHost_localhost
  · split at h
    · cases h
    · rename_i u hu
      split at h
      · rename_i x hx
        split at h
        · cases h
          rw [String.toList_ofList]
          exact Uri.isHost_host? hu hx
        · cases h
          exact Uri.isHost_localhost
      · cases h
        exact Uri.isHost_localhost

end Testbed

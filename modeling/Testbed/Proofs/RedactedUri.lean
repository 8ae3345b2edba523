import Testbed.Proofs.ConnectionUri
import Testbed.Proofs.Labels
import Testbed.Uri.Redacted

/-!
# Redacted URIs

A URI that has been split is put together from its parts and split into them again.  A redacted URI
is the URI with another authority, which is put together from user, host and port as they have been
read.  It is split into the same parts, with asterisks for the password, exactly if its host is
there, was written without the brackets that it needs, and leaves no brackets unsound.
-/

namespace Testbed
namespace Uri

open Text
open Redaction (asterisks)

variable {cs a b path query fragment rest : List Char} {c d : Char} {u : Uri}

/-! ## Parts -/

/-- The scheme of a URI is a word in lower case that begins with a letter. -/
structure IsScheme (cs : List Char) : Prop where
  letter : ∃ c rest, cs = c :: rest ∧ c.isAlpha = true
  all : ∀ c ∈ cs, isSchemeChar c = true
  low : cs.map Char.toLower = cs

/-- What the parts of a URI consist of that has been split. -/
structure Sound (u : Uri) : Prop where
  scheme : u.scheme = [] ∨ IsScheme u.scheme
  inner : ∀ c ∈ u.authority, isInner c = true
  stray : ∀ c ∈ u.path ++ (u.query ++ u.fragment), isStray c = false
  path : '?' ∉ u.path ∧ '#' ∉ u.path
  query : '#' ∉ u.query
  rooted : u.authority ≠ [] → u.path = [] ∨ u.path.head? = some '/'

theorem isSchemeChar_toLower (hc : isSchemeChar c = true) : isSchemeChar c.toLower = true := by
  by_cases upper : c.isUpper = true
  · have letter : c.toLower.isAlpha = true := by simp [Char.isAlpha, upper]
    simp [isSchemeChar, Char.isAlphanum, letter]
  · rwa [Char.toLower_eq_of_not_isUpper upper]

theorem splitScheme_cases (cs : List Char) :
    splitScheme cs = ([], cs) ∨ IsScheme (splitScheme cs).1 := by
  unfold splitScheme
  split
  · rename_i c scheme rest cut
    split
    · rename_i valid
      rw [Bool.and_eq_true, List.all_eq_true] at valid
      refine .inr ⟨⟨c.toLower, scheme.map Char.toLower, rfl, by simpa using valid.1⟩, ?_, ?_⟩
      · intro d hd
        obtain ⟨e, he, rfl⟩ := List.mem_map.1 hd
        exact isSchemeChar_toLower (valid.2 e he)
      · simp
    · exact .inl rfl
  · exact .inl rfl

/-- Behind an authority a path begins, a query, a fragment, or nothing. -/
theorem splitAuthority_rest (cs : List Char) (some_authority : (splitAuthority cs).1 ≠ []) :
    ∀ c, (splitAuthority cs).2.head? = some c → isDelimiter c = true := by
  unfold splitAuthority at *
  split at some_authority
  · rename_i rest
    intro c hc
    have stops := List.head?_dropWhile_not (fun c => !isDelimiter c) rest
    rw [beforeDelimiter] at hc
    simp only at hc
    rw [hc] at stops
    simpa using stops
  · exact absurd rfl some_authority

theorem splitAuthority_suffix (cs : List Char) : (splitAuthority cs).2 <:+ cs := by
  unfold splitAuthority
  split
  · rename_i rest
    exact (List.dropWhile_suffix _).trans ⟨['/', '/'], rfl⟩
  · exact List.suffix_rfl

theorem cutAt_snd_sublist (mark : Char) (cs : List Char) : (cutAt mark cs).2.Sublist cs := by
  rcases cutAt_cases mark cs with ⟨-, cut⟩ | ⟨a, b, -, rfl, cut⟩
  · rw [cut]
    exact List.nil_sublist cs
  · rw [cut]
    exact (List.sublist_cons_self mark b).trans (List.sublist_append_right a _)

/-- What is cut begins as before, and not with the mark. -/
theorem cutAt_head (h : (cutAt d cs).1.head? = some c) : cs.head? = some c ∧ c ≠ d := by
  have mem : c ∈ (cutAt d cs).1 := List.mem_of_head? h
  refine ⟨?_, fun same => not_mem_cutAt d cs (same ▸ mem)⟩
  rcases cutAt_cases d cs with ⟨-, cut⟩ | ⟨a, b, -, rfl, cut⟩
  · rwa [cut] at h
  · rw [cut] at h
    rw [List.head?_append, h]
    rfl

theorem sound_of_split {text : List Char} (h : split text = .ok u) : u.Sound := by
  have parts := of_split h
  have inner := authority_inner h
  generalize scheme_eq : splitScheme (clean text) = r at parts
  generalize authority_eq : splitAuthority r.2 = s at parts
  have tail_clean : s.2 <:+ r.2 := authority_eq ▸ splitAuthority_suffix r.2
  have stray : ∀ c ∈ s.2, isStray c = false := fun c hc =>
    isStray_of_mem_clean (mem_of_mem_splitScheme (scheme_eq ▸ tail_clean.subset hc))
  have path_sub : u.path.Sublist s.2 := by
    rw [parts]
    exact (cutAt_sublist _ _).trans (cutAt_sublist _ _)
  constructor
  · rcases splitScheme_cases (clean text) with none | scheme
    · left
      rw [parts, assemble, ← scheme_eq, none]
    · right
      rw [parts, assemble, ← scheme_eq]
      exact scheme
  · exact inner
  · intro c hc
    refine stray c ?_
    rcases List.mem_append.1 hc with hc | hc
    · exact path_sub.subset hc
    · rw [parts] at hc
      rcases List.mem_append.1 hc with hc | hc
      · exact ((cutAt_snd_sublist _ _).trans (cutAt_sublist _ _)).subset hc
      · exact (cutAt_snd_sublist _ _).subset hc
  · rw [parts]
    exact ⟨not_mem_cutAt '?' _, fun mem => not_mem_cutAt '#' s.2 ((cutAt_sublist _ _).subset mem)⟩
  · rw [parts]
    exact fun mem => not_mem_cutAt '#' s.2 ((cutAt_snd_sublist _ _).subset mem)
  · intro some_authority
    rw [parts] at some_authority ⊢
    -- What follows the authority begins with a delimiter; the path is cut before the other two.
    have delimiter := authority_eq ▸ splitAuthority_rest r.2 (authority_eq ▸ some_authority)
    cases first : (cutAt '?' (cutAt '#' s.2).1).1 with
    | nil => exact .inl first
    | cons c rest =>
      obtain ⟨head, no_question⟩ := cutAt_head (c := c) (by rw [first]; rfl)
      obtain ⟨head, no_hash⟩ := cutAt_head head
      have slash : c = '/' := by simpa [isDelimiter, no_question, no_hash] using delimiter c head
      exact .inr (by rw [assemble, first, slash]; rfl)

/-! ## Putting together -/

/-- Path, query and fragment. -/
def tail (u : Uri) : List Char :=
  u.path ++ ((if u.query.isEmpty then [] else '?' :: u.query) ++
    (if u.fragment.isEmpty then [] else '#' :: u.fragment))

/-- The scheme and its colon. -/
def schemePart (scheme : List Char) : List Char := if scheme.isEmpty then [] else scheme ++ [':']

theorem toText_eq (sound : u.Sound) (some_authority : u.authority ≠ []) :
    u.toText = schemePart u.scheme ++ '/' :: '/' :: (u.authority ++ u.tail) := by
  have present : u.authority.isEmpty = false := by simpa using some_authority
  have rooted : (if (u.path.isEmpty || u.path.head? == some '/') = true then u.path
      else '/' :: u.path) = u.path := by
    rcases sound.rooted some_authority with none | slash
    · simp [none]
    · simp [slash]
  simp only [toText, present, Bool.false_and, Bool.false_eq_true, if_false, rooted, schemePart,
    tail, List.append_assoc, List.cons_append]

theorem stray_tail (sound : u.Sound) : ∀ c ∈ u.tail, isStray c = false := by
  intro c hc
  have stray := sound.stray c
  simp only [List.mem_append] at stray
  simp only [tail, List.mem_append] at hc
  rcases hc with hc | hc | hc
  · exact stray (.inl hc)
  · split at hc
    · cases hc
    · rcases List.mem_cons.1 hc with rfl | hc
      · rfl
      · exact stray (.inr (.inl hc))
  · split at hc
    · cases hc
    · rcases List.mem_cons.1 hc with rfl | hc
      · rfl
      · exact stray (.inr (.inr hc))

theorem clean_eq (stray : ∀ c ∈ cs, isStray c = false)
    (head : ∀ c, cs.head? = some c → 0x20 < c.toNat) : clean cs = cs := by
  have start : cs.dropWhile (fun c => decide (c.toNat ≤ 0x20)) = cs := by
    cases cs with
    | nil => rfl
    | cons c rest =>
      have beyond := head c rfl
      exact List.dropWhile_cons_of_neg (by simp; omega)
  rw [clean, start]
  exact List.filter_eq_self.2 fun c hc => by simpa [isStray] using stray c hc

theorem splitScheme_schemePart {scheme : List Char} (h : scheme = [] ∨ IsScheme scheme)
    (rest : List Char) :
    splitScheme (schemePart scheme ++ '/' :: rest) = (scheme, '/' :: rest) := by
  rcases h with rfl | scheme_ok
  · -- A slash in front of the first colon is no scheme.
    show splitScheme ('/' :: rest) = _
    unfold splitScheme
    split
    · rename_i c scheme rest' cut
      obtain ⟨m, -, whole, -⟩ := of_splitFirst? cut
      obtain ⟨rfl, -⟩ := List.cons_eq_cons.1 whole
      rfl
    · rfl
  · obtain ⟨c, more, rfl, letter⟩ := scheme_ok.letter
    have no_colon : ∀ x ∈ c :: more, (x == ':') = false := by
      intro x hx
      have valid := scheme_ok.all x hx
      by_contra colon
      obtain rfl : x = ':' := by simpa using colon
      exact absurd valid (by decide)
    have cut : splitFirst? (· == ':') ((c :: more) ++ ':' :: '/' :: rest) =
        some (c :: more, '/' :: rest) := splitFirst?_append no_colon rfl
    have whole : schemePart (c :: more) ++ '/' :: rest = (c :: more) ++ ':' :: '/' :: rest := by
      simp [schemePart]
    have all : (c :: more).all isSchemeChar = true := List.all_eq_true.2 scheme_ok.all
    rw [whole, splitScheme, cut]
    simp only [letter, all, Bool.and_self, if_true, scheme_ok.low]

theorem head?_tail (sound : u.Sound) (some_authority : u.authority ≠ []) :
    ∀ c, u.tail.head? = some c → isDelimiter c = true := by
  intro c hc
  rcases sound.rooted some_authority with none | slash
  · rw [tail, none, List.nil_append] at hc
    split at hc
    · split at hc
      · cases hc
      · cases hc
        rfl
    · cases hc
      rfl
  · rw [tail, List.head?_append, slash] at hc
    cases hc
    rfl

/-- A part is cut off where it has been put. -/
theorem cutAt_joined (ha : d ∉ a) :
    cutAt d (a ++ (if b.isEmpty then [] else d :: b)) = (a, b) := by
  cases b with
  | nil => rw [List.isEmpty_nil, if_pos rfl, List.append_nil, cutAt_of_none ha]
  | cons c b =>
    rw [List.isEmpty_cons, if_neg Bool.false_ne_true]
    exact cutAt_append ha

theorem assemble_tail (sound : u.Sound) : assemble u.scheme u.authority u.tail = u := by
  have no_hash : '#' ∉ u.path ++ (if u.query.isEmpty then [] else '?' :: u.query) := by
    intro mem
    rcases List.mem_append.1 mem with mem | mem
    · exact sound.path.2 mem
    · split at mem
      · cases mem
      · exact sound.query (List.mem_of_ne_of_mem (by decide) mem)
  have hash := cutAt_joined (b := u.fragment) no_hash
  rw [List.append_assoc, ← tail] at hash
  rw [assemble, hash, cutAt_joined sound.path.1]

theorem isStray_of_isSchemeChar (hc : isSchemeChar c = true) : isStray c = false := by
  by_contra stray
  have cases : c = '\t' ∨ c = '\r' ∨ c = '\n' := by
    simp [isStray] at stray
    tauto
  rcases cases with rfl | rfl | rfl <;> exact absurd hc (by decide)

theorem clean_toText (sound : u.Sound) (some_authority : u.authority ≠ []) :
    clean u.toText = u.toText := by
  rw [toText_eq sound some_authority]
  refine clean_eq (fun c hc => ?_) fun c hc => ?_
  · simp only [List.mem_append, List.mem_cons] at hc
    rcases hc with hc | rfl | rfl | hc | hc
    · rcases sound.scheme with none | scheme
      · simp [none, schemePart] at hc
      · obtain ⟨_, _, parts, -⟩ := scheme.letter
        have whole : schemePart u.scheme = u.scheme ++ [':'] := by simp [schemePart, parts]
        rw [whole] at hc
        rcases List.mem_append.1 hc with hc | hc
        · exact isStray_of_isSchemeChar (scheme.all c hc)
        · rw [List.mem_singleton.1 hc]
          rfl
    · rfl
    · rfl
    · exact ((isInner_iff c).1 (sound.inner c hc)).2
    · exact stray_tail sound c hc
  · rcases sound.scheme with none | scheme
    · rw [none] at hc
      cases hc
      decide
    · obtain ⟨d, rest, parts, letter⟩ := scheme.letter
      rw [parts] at hc
      cases hc
      -- A letter stands behind the controls and blanks.
      simp [Char.isAlpha, Char.isUpper, Char.isLower, UInt32.le_iff_toNat_le] at letter
      omega

/-- A URI that is put together from sound parts is split into them, if its authority is. -/
theorem split_toText (sound : u.Sound) (some_authority : u.authority ≠ []) :
    split u.toText = (do
      checkBrackets u.authority
      checkHidden u.authority
      .ok u) := by
  have authority_eq : splitAuthority ('/' :: '/' :: (u.authority ++ u.tail)) =
      (u.authority, u.tail) :=
    beforeDelimiter_append sound.inner (head?_tail sound some_authority)
  rw [split_eq, clean_toText sound some_authority, toText_eq sound some_authority,
    splitScheme_schemePart sound.scheme, authority_eq, assemble_tail sound]

/-! ## Hidden delimiters -/

/-- The normal form of the character contains a delimiter. -/
def IsDisguise (c : Char) : Prop := disguises.contains c.toNat = true

theorem checkHidden_eq_ok {authority : List Char} :
    checkHidden authority = .ok () ↔ ∀ c ∈ authority, ¬ IsDisguise c := by
  unfold checkHidden
  split
  · rename_i some_disguise
    obtain ⟨c, hc, disguise⟩ := List.any_eq_true.1 some_disguise
    exact iff_of_false nofun fun none => none c hc disguise
  · rename_i none
    refine iff_of_true rfl fun c hc disguise => none (List.any_eq_true.2 ⟨c, hc, disguise⟩)

theorem caseRuns_apart : (caseRuns.toList.all fun r => disguises.all fun n =>
    n < (r.first : Int) + r.shift || (r.last : Int) + r.shift < n) = true := by
  decide +kernel

/-- Lower case brings in no disguise. -/
theorem isDisguise_of_lowered {before rest : List Char} {x : Char}
    (hx : x ∈ lowered before c rest) (disguise : IsDisguise x) : IsDisguise c := by
  have listed : x.toNat ∈ disguises := by simpa [IsDisguise] using disguise
  have beyond : ∀ n ∈ disguises, 0x2000 ≤ n := by decide
  have far := beyond _ listed
  have special {n : Nat} (hn : n < 0x2000) (h : x = Char.ofNat n) : False := by
    have value : (Char.ofNat n).toNat = n := by
      rw [Char.toNat_ofNat, if_pos (.inl (by omega))]
    rw [h, value] at far
    omega
  -- What ends up in a lowered text is one of a few special characters, or lowered on its own.
  unfold lowered at hx
  split at hx
  · rcases List.mem_cons.1 hx with h | h
    · exact (special (n := 0x69) (by decide) h).elim
    · exact (special (by decide) (List.mem_singleton.1 h)).elim
  · split at hx
    · split at hx
      · exact (special (by decide) (List.mem_singleton.1 hx)).elim
      · exact (special (by decide) (List.mem_singleton.1 hx)).elim
    · obtain rfl := List.mem_singleton.1 hx
      rcases lowerChar_cases c with same | ⟨upper, value⟩ | ⟨-, r, mem, n, has, value⟩
      · rwa [same] at disguise
      · have range := (isUpper_iff c).1 upper
        omega
      · have apart := List.all_eq_true.1 (List.all_eq_true.1 caseRuns_apart r mem.val) _ listed
        simp only [Bool.or_eq_true, decide_eq_true_eq] at apart
        have first := has.1
        have last := has.2.1
        omega

theorem not_isDisguise_lowerHost (h : ∀ c ∈ cs, ¬ IsDisguise c) :
    ∀ c ∈ lowerHost cs, ¬ IsDisguise c := by
  have lowerAfter_plain {cs : List Char} (h : ∀ c ∈ cs, ¬ IsDisguise c) (before : List Char) :
      ∀ x ∈ lowerAfter before cs, ¬ IsDisguise x := by
    induction cs generalizing before with
    | nil => nofun
    | cons c rest ih =>
      intro x hx
      rw [lowerAfter_cons] at hx
      rcases List.mem_append.1 hx with hx | hx
      · exact mt (isDisguise_of_lowered hx) (h c List.mem_cons_self)
      · exact ih (fun c hc => h c (List.mem_cons_of_mem _ hc)) _ x hx
  intro c hc
  rcases List.mem_append.1 hc with hc | hc
  · exact lowerAfter_plain (fun d hd => h d ((List.takeWhile_sublist _).subset hd)) [] c hc
  · exact h c ((List.dropWhile_sublist _).subset hc)

/-- The authority of a split URI has sound brackets and hides no delimiters. -/
theorem checks_of_split {text : List Char} (h : split text = .ok u) :
    checkBrackets u.authority = .ok () ∧ checkHidden u.authority = .ok () := by
  have parts := of_split h
  rw [split_eq] at h
  have authority_eq : u.authority = (splitAuthority (splitScheme (clean text)).2).1 := by
    rw [parts]
    rfl
  rw [← authority_eq] at h
  cases hb : checkBrackets u.authority with
  | error e =>
    rw [hb] at h
    cases h
  | ok _ =>
    cases hh : checkHidden u.authority with
    | error e =>
      rw [hb, hh] at h
      cases h
    | ok _ => exact ⟨rfl, rfl⟩

/-! ## The authority without the password -/

section

variable {user host password : List Char} {port : Option Nat}

/-- A port behind its colon. -/
def portPart : Option Nat → List Char
  | some n => ':' :: Nat.toDigits 10 n
  | none => []

/-- The authority of a redacted URI. -/
def withAsterisks (user host : List Char) (port : Option Nat) : List Char :=
  (user ++ ':' :: asterisks) ++ '@' :: (host ++ portPart port)

theorem redactedAuthority_eq (u : Uri) (port : Option Nat) :
    u.redactedAuthority port =
      withAsterisks (u.user?.getD missing) (u.host?.getD missing) port := by
  have mask : ":***@".toList = ':' :: (asterisks ++ ['@']) := by decide
  unfold redactedAuthority
  rw [mask, withAsterisks]
  cases port <;> simp [portPart]

theorem mem_portPart (hc : c ∈ portPart port) : c = ':' ∨ c.isDigit = true := by
  cases port with
  | none => cases hc
  | some n =>
    rcases List.mem_cons.1 hc with rfl | hc
    · exact .inl rfl
    · exact .inr ((Decimal.digits_toDigits n).all c hc)

theorem not_mem_portPart (colon : d ≠ ':') (digit : d.isDigit = false) : d ∉ portPart port := by
  intro mem
  rcases mem_portPart mem with rfl | isDigit
  · exact colon rfl
  · cases digit.symm.trans isDigit

theorem all_withAsterisks {P : Char → Prop} (colon : P ':') (at_sign : P '@') (star : P '*')
    (digit : ∀ c, c.isDigit = true → P c) (huser : ∀ c ∈ user, P c) (hhost : ∀ c ∈ host, P c) :
    ∀ c ∈ withAsterisks user host port, P c := by
  intro c hc
  simp only [withAsterisks, asterisks, List.mem_append, List.mem_cons, List.not_mem_nil,
    or_false] at hc
  rcases hc with (hc | rfl | rfl | rfl | rfl) | rfl | hc | hc
  · exact huser c hc
  · exact colon
  · exact star
  · exact star
  · exact star
  · exact at_sign
  · exact hhost c hc
  · rcases mem_portPart hc with rfl | isDigit
    · exact colon
    · exact digit c isDigit

theorem isInner_of_isDigit (hc : c.isDigit = true) : isInner c = true := by
  by_contra outer
  have cases : c = '/' ∨ c = '?' ∨ c = '#' ∨ c = '\t' ∨ c = '\r' ∨ c = '\n' := by
    simp [isInner, isDelimiter, isStray] at outer
    tauto
  rcases cases with rfl | rfl | rfl | rfl | rfl | rfl <;> exact absurd hc (by decide)

theorem not_isDisguise_of_ascii (hc : c.toNat < 0x80) : ¬ IsDisguise c := by
  intro disguise
  have listed : c.toNat ∈ disguises := by simpa [IsDisguise] using disguise
  have beyond : ∀ n ∈ disguises, 0x80 ≤ n := by decide
  have far := beyond _ listed
  omega

variable {v : Uri} (hv : v.authority = withAsterisks user host port)

include hv

theorem splitLast?_withAsterisks (no_user : '@' ∉ host) :
    splitLast? (· == '@') v.authority = some (user ++ ':' :: asterisks, host ++ portPart port) := by
  rw [hv]
  refine splitLast?_append rfl fun c hc => ?_
  rw [beq_eq_false_iff_ne]
  rintro rfl
  rcases List.mem_append.1 hc with hc | hc
  · exact no_user hc
  · exact not_mem_portPart (by decide) (by decide) hc

theorem user?_withAsterisks (no_user : '@' ∉ host) (colon : ':' ∉ user) :
    v.user? = some user ∧ v.password? = some asterisks := by
  have info : v.userInfo? = some (user ++ ':' :: asterisks) := by
    rw [userInfo?, splitLast?_withAsterisks hv no_user]
    rfl
  have cut : splitFirst? (· == ':') (user ++ ':' :: asterisks) = some (user, asterisks) :=
    splitFirst?_append (fun x hx => by simpa using fun he : x = ':' => colon (he ▸ hx)) rfl
  constructor
  · rw [user?, info, Option.map_some, cutAt_append colon]
  · rw [password?, info, Option.bind_some, cut]
    rfl

theorem hostInfo_withAsterisks (no_user : '@' ∉ host) : v.hostInfo = host ++ portPart port := by
  rw [hostInfo, splitLast?_withAsterisks hv no_user]
  rfl

/-- Host and port are read as they have been put, if the host does not end before. -/
theorem hostAndPort_withAsterisks (no_user : '@' ∉ host) (colon : ':' ∉ host)
    (bracket : '[' ∉ host) : v.hostAndPort = (host, (portPart port).drop 1) := by
  have info := hostInfo_withAsterisks hv no_user
  rcases hostAndPort_cases v with ⟨-, cut⟩ | ⟨before, inside, whole, -⟩
  · rw [cut, info]
    cases port with
    | none => rw [portPart, List.append_nil, cutAt_of_none colon]; rfl
    | some n => exact cutAt_append colon
  · have mem : '[' ∈ host ++ portPart port := by
      rw [← info, whole]
      simp
    rcases List.mem_append.1 mem with mem | mem
    · exact absurd mem bracket
    · exact absurd mem (not_mem_portPart (by decide) (by decide))

end

/-! ## Redacting -/

section

variable {text : List Char} {password : List Char} {port : Option Nat}

/-- What the authority of a redacted URI is put together from. -/
structure Rebuilt (u : Uri) (user host : List Char) (port : Option Nat) : Prop where
  user_eq : u.user? = some user
  host_eq : host = u.host?.getD missing
  colon : ':' ∉ user
  no_user : '@' ∉ host
  inner : ∀ c ∈ withAsterisks user host port, isInner c = true
  hidden : checkHidden (withAsterisks user host port) = .ok ()

theorem rebuilt_of_split (h : split text = .ok u) (hp : u.password? = some password)
    (port : Option Nat) : ∃ user host, u.Rebuilt user host port := by
  obtain ⟨info, hi, -⟩ := Option.bind_eq_some_iff.1 hp
  have user_eq : u.user? = some (cutAt ':' info).1 := by rw [user?, hi]; rfl
  obtain ⟨user_sub, colon⟩ := user?_sublist user_eq
  have plain := checkHidden_eq_ok.1 (checks_of_split h).2
  -- The host is one that has been read, or the word for a missing one.
  have host : '@' ∉ u.host?.getD missing ∧ (∀ c ∈ u.host?.getD missing, isInner c = true) ∧
      ∀ c ∈ u.host?.getD missing, ¬ IsDisguise c := by
    cases hh : u.host? with
    | none =>
      refine ⟨by decide, ?_, ?_⟩
      · exact List.all_eq_true.1 (by decide : missing.all isInner = true)
      · have ascii := List.all_eq_true.1 (by decide : (missing.all fun c => c.toNat < 0x80) = true)
        exact fun c hc => not_isDisguise_of_ascii (by simpa using ascii c hc)
    | some host =>
      have is_host := isHost_host? h hh
      refine ⟨is_host.no_user, is_host.inner, ?_⟩
      rw [host?_eq] at hh
      split at hh
      · cases hh
      · cases hh
        have sub := (hostAndPort_sublist u).trans (hostInfo_sublist u).1
        exact not_isDisguise_lowerHost fun c hc => plain c (sub.subset hc)
  refine ⟨_, _, user_eq, rfl, colon, host.1, ?_, checkHidden_eq_ok.2 ?_⟩
  · exact all_withAsterisks rfl rfl rfl (fun c => isInner_of_isDigit)
      (fun c hc => authority_inner h c (user_sub.subset hc)) host.2.1
  · refine all_withAsterisks ?_ ?_ ?_ (fun c hc => not_isDisguise_of_ascii ?_)
      (fun c hc => plain c (user_sub.subset hc)) host.2.2
    · exact not_isDisguise_of_ascii (by decide)
    · exact not_isDisguise_of_ascii (by decide)
    · exact not_isDisguise_of_ascii (by decide)
    · have range := toNat_of_isDigit hc
      omega

/-- The URI with the authority without its password. -/
def masked (u : Uri) (port : Option Nat) : Uri := { u with authority := u.redactedAuthority port }

theorem redactedAuthority_of_rebuilt {user host : List Char} (parts : u.Rebuilt user host port) :
    (u.masked port).authority = withAsterisks user host port := by
  rw [masked, redactedAuthority_eq, parts.user_eq, parts.host_eq]
  rfl

theorem authority_ne_nil (hp : u.password? = some password) : u.authority ≠ [] := by
  intro empty
  obtain ⟨info, hi, -⟩ := Option.bind_eq_some_iff.1 hp
  obtain ⟨cut, found, -⟩ := Option.map_eq_some_iff.1 hi
  rw [empty] at found
  cases found

/-- A redacted URI is split into its parts, if its brackets are sound. -/
theorem split_masked (h : split text = .ok u) (hp : u.password? = some password)
    (port : Option Nat) : split (u.masked port).toText = (do
      checkBrackets (u.masked port).authority
      .ok (u.masked port)) := by
  obtain ⟨user, host, parts⟩ := rebuilt_of_split h hp port
  have authority := redactedAuthority_of_rebuilt parts
  have some_authority : (u.masked port).authority ≠ [] := by
    rw [authority, withAsterisks]
    simp
  have old := sound_of_split h
  have sound : (u.masked port).Sound := by
    refine ⟨old.scheme, ?_, old.stray, old.path, old.query, fun _ => ?_⟩
    · rw [authority]
      exact parts.inner
    · exact old.rooted (authority_ne_nil hp)
  rw [split_toText sound some_authority, authority, parts.hidden]
  rfl

theorem port?_of_digits {v : Uri} (hu : u.port? = .ok port)
    (hv : v.hostAndPort.2 = (portPart port).drop 1) : v.port? = .ok port := by
  cases port with
  | none => simp [port?, hv, portPart]
  | some n =>
    have digits := Decimal.digits_toDigits n
    have small : n ≤ 65535 := by
      unfold port? at hu
      simp only at hu
      split at hu
      · cases hu
      · split at hu
        · cases hu
        · split at hu
          · cases hu
            assumption
          · cases hu
    have value : Decimal.natOf? (Nat.toDigits 10 n) = some n := by
      rw [Decimal.natOf?_digits digits, Nat.ofDigitChars_ten_toDigits]
    have some_digit : (Nat.toDigits 10 n).isEmpty = false := by simp [digits.some_digit]
    simp [port?, hv, portPart, some_digit, value, small]

/-- A URI has the parts of another one and asterisks for a password. -/
structure Masks (v u : Uri) : Prop where
  scheme : v.scheme = u.scheme
  user : v.user? = u.user?
  password : v.password? = some asterisks
  host : v.host? = u.host?
  port : v.port? = u.port?
  path : v.path = u.path
  query : v.query = u.query
  fragment : v.fragment = u.fragment

/-- A redacted URI is as good as the URI: the host is there and can stand without brackets, and
the brackets of the authority are sound without those of the password. -/
structure Restorable (u : Uri) (port : Option Nat) : Prop where
  host : ∃ host, u.host? = some host ∧ ':' ∉ host ∧ '[' ∉ host
  brackets : checkBrackets (u.masked port).authority = .ok ()

theorem redact_masked {text : String} (h : split text.toList = .ok u)
    (hp : u.password? = some password) (hport : u.port? = .ok port) :
    redact text = .ok (String.ofList (u.masked port).toText) := by
  have present : u.password?.isNone = false := by simp [hp]
  rw [redact, h]
  simp [Bind.bind, Except.bind, present, hport, masked]

/-- What a restorable URI is redacted to has its parts. -/
theorem masks_of_restorable (h : split text = .ok u) (hp : u.password? = some password)
    (hport : u.port? = .ok port) (restorable : u.Restorable port) :
    (u.masked port).Masks u := by
  obtain ⟨user, host, parts⟩ := rebuilt_of_split h hp port
  have authority := redactedAuthority_of_rebuilt parts
  obtain ⟨host', host_eq, colon, bracket⟩ := restorable.host
  obtain rfl : host = host' := by rw [parts.host_eq, host_eq]; rfl
  obtain ⟨user_eq, password_eq⟩ := user?_withAsterisks authority parts.no_user parts.colon
  have located := hostAndPort_withAsterisks authority parts.no_user colon bracket
  have is_host := isHost_host? h host_eq
  have some_host : host.isEmpty = false := by simpa using is_host.ne_nil
  refine ⟨rfl, by rw [user_eq, parts.user_eq], password_eq, ?_, ?_, rfl, rfl, rfl⟩
  · rw [host?_eq, located, host_eq]
    simp only [some_host, Bool.false_eq_true, if_false, is_host.low]
  · rw [hport]
    exact port?_of_digits hport (by rw [located])

/-- A URI whose parts are found again in what it is redacted to is restorable. -/
theorem restorable_of_masks (h : split text = .ok u) (hp : u.password? = some password)
    (brackets : checkBrackets (u.masked port).authority = .ok ())
    (masks : (u.masked port).Masks u) : u.Restorable port := by
  obtain ⟨user, host, parts⟩ := rebuilt_of_split h hp port
  have authority := redactedAuthority_of_rebuilt parts
  have no_bracket : '[' ∉ portPart port := not_mem_portPart (by decide) (by decide)
  have info := hostInfo_withAsterisks authority parts.no_user
  cases host_eq : u.host? with
  | none =>
    -- The word that stands for a missing host is a host when it is read.
    have word : host = missing := by rw [parts.host_eq, host_eq]; rfl
    have located := hostAndPort_withAsterisks authority parts.no_user
      (word ▸ by decide) (word ▸ by decide)
    have again := masks.host
    rw [host?_eq, located, host_eq, word] at again
    cases again
  | some host' =>
    obtain rfl : host = host' := by rw [parts.host_eq, host_eq]; rfl
    have plain := plain_of_host? info no_bracket (masks.host.trans host_eq)
    exact ⟨⟨host, host_eq, plain⟩, brackets⟩

/-- Redacting gives a URI that is split into the same parts with asterisks for the password, and
that is not changed by redacting it again, exactly if the URI is restorable. -/
theorem redact_round_trip_iff {text : String} (h : split text.toList = .ok u)
    (hp : u.password? = some password) (hport : u.port? = .ok port) :
    ∃ shown, redact text = .ok shown ∧
      ((∃ v, split shown.toList = .ok v ∧ v.Masks u ∧ redact shown = .ok shown) ↔
        u.Restorable port) := by
  have splits := split_masked h hp port
  refine ⟨_, redact_masked h hp hport, ?_, fun restorable => ?_⟩
  · rintro ⟨v, split_v, masks, -⟩
    rw [String.toList_ofList, splits] at split_v
    cases brackets : checkBrackets (u.masked port).authority with
    | error e =>
      rw [brackets] at split_v
      cases split_v
    | ok _ =>
      rw [brackets] at split_v
      cases split_v
      exact restorable_of_masks h hp brackets masks
  · have masks := masks_of_restorable h hp hport restorable
    rw [restorable.brackets] at splits
    have split_v : split (String.ofList (u.masked port).toText).toList = .ok (u.masked port) := by
      rw [String.toList_ofList]
      exact splits
    refine ⟨u.masked port, split_v, masks, ?_⟩
    -- The authority is put together from the same parts once more.
    have same : (u.masked port).masked port = u.masked port := by
      have again : (u.masked port).redactedAuthority port = u.redactedAuthority port := by
        rw [redactedAuthority_eq, masks.user, masks.host, ← redactedAuthority_eq]
      rw [masked, again]
      rfl
    rw [redact_masked split_v masks.password (masks.port.trans hport), same]

end

/-- A host is written in lower case and found again. -/
theorem redact_round_trip_of_name :
    let u : Uri := ⟨"postgres".toList, "u:p@H:5432".toList, "/db".toList, [], []⟩
    split "postgres://u:p@H:5432/db".toList = .ok u ∧ u.password? = some ['p'] ∧
      u.port? = .ok (some 5432) ∧ u.Restorable (some 5432) ∧
        ∃ shown, redact "postgres://u:p@H:5432/db" = .ok shown ∧
          ∃ v, split shown.toList = .ok v ∧ v.Masks u ∧ redact shown = .ok shown := by
  intro u
  have splits : split "postgres://u:p@H:5432/db".toList = .ok u := by decide +kernel
  have password : u.password? = some ['p'] := by decide +kernel
  have port : u.port? = .ok (some 5432) := by decide +kernel
  have restorable : u.Restorable (some 5432) :=
    ⟨⟨['h'], by decide +kernel, by decide, by decide⟩, by decide +kernel⟩
  obtain ⟨shown, redacted, round_trip⟩ := redact_round_trip_iff splits password port
  exact ⟨splits, password, port, restorable, shown, redacted, round_trip.2 restorable⟩

/-- An address in brackets loses them, and no host is found any more. -/
theorem address_is_not_restored : ¬ ∀ (text : String) (u : Uri) (password : List Char)
    (port : Option Nat), split text.toList = .ok u → u.password? = some password →
      u.port? = .ok port → ∃ shown v, redact text = .ok shown ∧ split shown.toList = .ok v ∧
        v.Masks u ∧ redact shown = .ok shown := by
  intro restored
  let u : Uri := ⟨"postgres".toList, "u:p@[::1]:5432".toList, "/db".toList, [], []⟩
  have redacted : redact "postgres://u:p@[::1]:5432/db" = .ok "postgres://u:***@::1:5432/db" := by
    decide +kernel
  have splits : split "postgres://u:***@::1:5432/db".toList =
      .ok ⟨"postgres".toList, "u:***@::1:5432".toList, "/db".toList, [], []⟩ := by
    decide +kernel
  obtain ⟨shown, v, redacted', splits', masks, -⟩ := restored "postgres://u:p@[::1]:5432/db" u ['p']
    (some 5432) (by decide +kernel) (by decide +kernel) (by decide +kernel)
  obtain rfl := Except.ok.inj (redacted.symm.trans redacted')
  obtain rfl := Except.ok.inj (splits.symm.trans splits')
  -- The host is the empty text in front of the first colon.
  have host := masks.host
  revert host
  decide +kernel

end Uri
end Testbed

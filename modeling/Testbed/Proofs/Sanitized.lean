import Testbed.Proofs.Labels

/-!
# Sanitised messages

What is left of a message once its secrets have been replaced: no credential and no bearer token,
and no password of a URI but the asterisks that stand for one.  No pass brings about a match for a
pass before it, because the label of a key would have been there already.  So a message that has
been sanitised is not changed by being sanitised again, in whatever error it is raised; only an
error that shows its message in quotes shows another one.
-/

namespace Testbed
namespace Redaction

open Text

variable {p : Pattern} {c : Char} {s t t' w r : List Char}

/-! ## Passwords of URIs -/

/-- A character of a user. -/
def isUserChar (c : Char) : Bool := !(c == ':' || c == '/' || c == '@' || isBlank c)

/-- A character of a password. -/
def isPasswordChar (c : Char) : Bool := !(c == '@' || isBlank c)

/-- One or more characters of a class. -/
structure IsRun (allowed : Char → Bool) (t : List Char) : Prop where
  ne_nil : t ≠ []
  allowed : ∀ c ∈ t, allowed c = true

/-- The user of a URI and what stands around it. -/
def userPart (user : List Char) : List Char := ':' :: '/' :: '/' :: (user ++ [':'])

/-- A URI shows no password but asterisks at the head of the text. -/
def IsMasked (t : List Char) : Prop :=
  ∃ user rest, IsRun isUserChar user ∧ t = userPart user ++ (asterisks ++ '@' :: rest)

theorem takeWhile_run {allowed : Char → Bool} (hw : ∀ x ∈ w, allowed x = true)
    (hc : allowed c = false) : (w ++ c :: t).takeWhile allowed = w := by
  rw [List.takeWhile_append_of_pos hw, List.takeWhile_cons_of_neg (by simp [hc]), List.append_nil]

theorem of_takeWhile {allowed : Char → Bool} (taken : t.takeWhile allowed = c :: w)
    (behind : t.drop (t.takeWhile allowed).length = r) :
    IsRun allowed (c :: w) ∧ t = c :: w ++ r := by
  refine ⟨⟨List.cons_ne_nil c w, fun x hx => ?_⟩, ?_⟩
  · exact List.mem_takeWhile_imp (taken ▸ hx)
  · rw [← taken, ← behind]
    exact (List.prefix_iff_eq_append.1 (List.takeWhile_prefix allowed)).symm

theorem uriPassword_eq {user password rest : List Char} (hu : IsRun isUserChar user)
    (hp : IsRun isPasswordChar password) :
    uriPassword (userPart user ++ (password ++ '@' :: rest)) =
      some ⟨userPart user ++ (asterisks ++ ['@']),
        (userPart user ++ (password ++ ['@'])).length⟩ := by
  have text : userPart user ++ (password ++ '@' :: rest) =
      ':' :: '/' :: '/' :: (user ++ ':' :: (password ++ '@' :: rest)) := by
    simp [userPart]
  have user_eq : (user ++ ':' :: (password ++ '@' :: rest)).takeWhile isUserChar = user :=
    takeWhile_run hu.allowed rfl
  have password_eq : (password ++ '@' :: rest).takeWhile isPasswordChar = password :=
    takeWhile_run hp.allowed rfl
  obtain ⟨a, user, rfl⟩ := List.exists_cons_of_ne_nil hu.ne_nil
  obtain ⟨b, password, rfl⟩ := List.exists_cons_of_ne_nil hp.ne_nil
  rw [text]
  unfold uriPassword
  simp only [show (fun c => !(c == ':' || c == '/' || c == '@' || isBlank c)) = isUserChar from rfl,
    show (fun c => !(c == '@' || isBlank c)) = isPasswordChar from rfl, user_eq,
    List.drop_left, password_eq]
  -- The same text and the same length are left, put together in another way.
  congr 2
  · simp [userPart, asterisks]
  · simp only [userPart, List.length_append, List.length_cons, List.length_nil]
    omega

theorem of_uriPassword {m : Match} (hm : uriPassword t = some m) :
    ∃ user password rest, IsRun isUserChar user ∧ IsRun isPasswordChar password ∧
      t = userPart user ++ (password ++ '@' :: rest) := by
  unfold uriPassword at hm
  split at hm
  · rename_i rest
    simp only at hm
    split at hm
    · rename_i a user rest' taken behind
      split at hm
      · rename_i b password rest'' taken' behind'
        obtain ⟨hu, rfl⟩ := of_takeWhile taken behind
        obtain ⟨hp, rfl⟩ := of_takeWhile taken' behind'
        exact ⟨a :: user, b :: password, rest'', hu, hp, by simp [userPart]⟩
      · cases hm
    · cases hm
  · cases hm

theorem sized_uriPassword : Sized uriPassword := by
  intro t m hm
  obtain ⟨user, password, rest, hu, hp, rfl⟩ := of_uriPassword hm
  rw [uriPassword_eq hu hp] at hm
  cases hm
  simp only [List.length_append, List.length_cons, List.length_nil]
  omega

/-- What a match covers and what is put in its place. -/
theorem of_uriPassword_match (hm : uriPassword (w ++ t) = some ⟨r, w.length⟩) :
    ∃ user password, IsRun isUserChar user ∧ IsRun isPasswordChar password ∧
      w = userPart user ++ (password ++ ['@']) ∧ r = userPart user ++ (asterisks ++ ['@']) := by
  obtain ⟨user, password, rest, hu, hp, whole⟩ := of_uriPassword hm
  rw [whole, uriPassword_eq hu hp] at hm
  injection hm with hm
  injection hm with replaced size
  have parts : w ++ t = (userPart user ++ (password ++ ['@'])) ++ rest := by rw [whole]; simp
  obtain ⟨rfl, -⟩ := List.append_inj parts size.symm
  exact ⟨user, password, hu, hp, rfl, replaced.symm⟩

/-! ## What passwords leave behind -/

/-- A password has been edited into asterisks. -/
def MasksPassword (old new : List Char) : Prop :=
  (∃ c ∈ old, isBlank c = false) ∧ new = asterisks

/-- Replacing passwords edits the passwords only. -/
theorem edited_passwords (t : List Char) (absent : Absent p t) :
    Edited p MasksPassword t (replaceAll uriPassword t) := by
  induction t using scan_induction sized_uriPassword with
  | nil => exact .nil
  | keep c t hc ih =>
    rw [replaceAll_keep hc]
    exact .keep (absent _ List.suffix_rfl) (ih (absent.suffix (List.suffix_cons c t)))
  | replace w r t hw hm ih =>
    obtain ⟨user, password, hu, hp, rfl, rfl⟩ := of_uriPassword_match hm
    rw [replaceAll_replace hw hm]
    have solid : ∃ c ∈ password, isBlank c = false := by
      obtain ⟨c, hc⟩ := List.exists_mem_of_ne_nil password hp.ne_nil
      have allowed := hp.allowed c hc
      simp only [isPasswordChar, Bool.not_eq_true', Bool.or_eq_false_iff] at allowed
      exact ⟨c, hc, allowed.2⟩
    have rest : Edited p MasksPassword (password ++ '@' :: t)
        (asterisks ++ '@' :: replaceAll uriPassword t) := by
      refine .change ⟨solid, rfl⟩ (.keep (absent _ ?_) (ih (absent.suffix ?_)))
      · exact ⟨userPart user ++ password, by simp⟩
      · exact List.suffix_append _ t
    have whole := Edited.keepAll (w := userPart user) rest fun s _ hs => by
      obtain ⟨x, hx⟩ := hs
      exact absent _ ⟨x, by rw [← hx]; simp⟩
    simpa using whole

theorem passwordChars_userPart {user password : List Char} (hu : IsRun isUserChar user)
    (hp : IsRun isPasswordChar password) :
    ∀ c ∈ userPart user ++ password, isPasswordChar c = true := by
  intro c hc
  simp only [userPart, List.cons_append, List.append_assoc, List.mem_cons, List.mem_append,
    List.not_mem_nil, false_or] at hc
  rcases hc with rfl | rfl | rfl | hc | rfl | hc
  · rfl
  · rfl
  · rfl
  · have allowed := hu.allowed c hc
    simp only [isUserChar, isPasswordChar, Bool.not_eq_true', Bool.or_eq_false_iff] at allowed ⊢
    exact ⟨allowed.1.2, allowed.2⟩
  · rfl
  · exact hp.allowed c hc

/-- A password and the at sign behind it stand at the head of the text. -/
def EndsAtSign (t : List Char) : Prop :=
  ∃ password rest, (∀ c ∈ password, isPasswordChar c = true) ∧ t = password ++ '@' :: rest

/-- Replacing passwords edits URIs only. -/
def MasksUri (old new : List Char) : Prop :=
  ∃ user password, IsRun isUserChar user ∧ IsRun isPasswordChar password ∧
    old = userPart user ++ (password ++ ['@']) ∧ new = userPart user ++ (asterisks ++ ['@'])

theorem edited_uris (t : List Char) : Edited uriPassword MasksUri t (replaceAll uriPassword t) :=
  edited_replaceAll sized_uriPassword (fun _ _ _ hm => of_uriPassword_match hm) t fun _ _ => id

/-- Where a password ends with an at sign after the edits, one has ended before them. -/
theorem EndsAtSign.of_edited (h : Edited p MasksUri t t') (ends : EndsAtSign t') :
    EndsAtSign t := by
  obtain ⟨password, rest, allowed, rfl⟩ := ends
  induction password generalizing t with
  | nil =>
    generalize whole : [] ++ '@' :: rest = u at h
    cases h with
    | nil => cases whole
    | keep _ _ =>
      obtain ⟨rfl, -⟩ := List.cons_eq_cons.1 whole
      exact ⟨[], _, nofun, rfl⟩
    | change change _ =>
      obtain ⟨user, password, -, -, rfl, rfl⟩ := change
      cases (List.cons_eq_cons.1 whole).1
  | cons c password ih =>
    generalize whole : c :: password ++ '@' :: rest = u at h
    cases h with
    | nil => cases whole
    | keep _ edited =>
      obtain ⟨rfl, rfl⟩ := List.cons_eq_cons.1 whole
      obtain ⟨password', rest', allowed', rfl⟩ :=
        ih (fun x hx => allowed x (List.mem_cons_of_mem c hx)) edited
      refine ⟨c :: password', rest', fun x hx => ?_, rfl⟩
      rcases List.mem_cons.1 hx with rfl | hx
      · exact allowed x List.mem_cons_self
      · exact allowed' x hx
    | @change _ _ t _ change _ =>
      -- The URI that has been edited holds an at sign itself.
      obtain ⟨user, password', hu, hp, rfl, -⟩ := change
      exact ⟨userPart user ++ password', t, passwordChars_userPart hu hp, by simp⟩

theorem marked_masksUri : Marked MasksUri (· = ':') := by
  constructor
  · rintro o n ⟨user, password, -, -, rfl, -⟩
    exact ⟨'@', by simp, rfl⟩
  · rintro o n ⟨user, password, -, -, -, rfl⟩
    exact ⟨':', _, rfl, rfl⟩

theorem Edited.head?_eq (h : Edited p MasksUri t t') : t'.head? = t.head? := by
  cases h with
  | nil => rfl
  | keep _ _ => rfl
  | change change _ =>
    obtain ⟨user, password, -, -, rfl, rfl⟩ := change
    rfl

/-- Where a character has been kept no URI comes about. -/
theorem uriPassword_of_edited (none : uriPassword (c :: t) = none)
    (h : Edited uriPassword MasksUri t t') : uriPassword (c :: t') = .none := by
  cases found : uriPassword (c :: t') with
  | none => rfl
  | some m =>
    obtain ⟨user, password, rest, hu, hp, whole⟩ := of_uriPassword found
    obtain ⟨rfl, rfl⟩ : c = ':' ∧
        t' = ('/' :: '/' :: user) ++ ':' :: (password ++ '@' :: rest) := by
      simpa [userPart] using whole
    -- The user has been kept, since the edited URIs begin with a colon.
    have no_colon : ∀ x ∈ '/' :: '/' :: user, ¬ x = ':' := by
      rintro x hx rfl
      simp only [List.mem_cons, Char.reduceEq, false_or] at hx
      exact absurd (hu.allowed _ hx) (by decide)
    obtain ⟨s, rfl, kept⟩ := h.split marked_masksUri no_colon
    -- So it is enough that there has been a password behind it.
    suffices before : ∃ old rest', IsRun isPasswordChar old ∧ s = ':' :: (old ++ '@' :: rest') by
      obtain ⟨old, rest', ho, rfl⟩ := before
      have there : uriPassword (userPart user ++ (old ++ '@' :: rest')) = _ :=
        uriPassword_eq hu ho
      have same : userPart user ++ (old ++ '@' :: rest') =
          ':' :: ('/' :: '/' :: user ++ ':' :: (old ++ '@' :: rest')) := by simp [userPart]
      rw [same, none] at there
      cases there
    generalize after : ':' :: (password ++ '@' :: rest) = u at kept
    cases kept with
    | nil => cases after
    | keep _ edited =>
      obtain ⟨rfl, rfl⟩ := List.cons_eq_cons.1 after
      obtain ⟨old, rest', allowed, rfl⟩ := EndsAtSign.of_edited edited ⟨_, _, hp.allowed, rfl⟩
      refine ⟨old, rest', ⟨?_, allowed⟩, rfl⟩
      rintro rfl
      -- The password would have begun with an at sign.
      obtain ⟨a, password, rfl⟩ := List.exists_cons_of_ne_nil hp.ne_nil
      obtain rfl : a = '@' := by simpa using edited.head?_eq
      exact absurd (hp.allowed _ List.mem_cons_self) (by decide)
    | @change _ _ t₁ _ change _ =>
      obtain ⟨user', password', hu', hp', rfl, -⟩ := change
      have parts : userPart user' ++ password' =
          ':' :: '/' :: '/' :: (user' ++ ':' :: password') := by simp [userPart]
      refine ⟨'/' :: '/' :: (user' ++ ':' :: password'), t₁, ⟨by simp, fun x hx => ?_⟩, ?_⟩
      · exact passwordChars_userPart hu' hp' x (parts ▸ List.mem_cons_of_mem ':' hx)
      · simp [userPart]

/-! ## What is left of a text -/

/-- Inside a masked URI no other URI shows a password. -/
theorem isMasked_inside {user u : List Char} {m : Match} (hu : IsRun isUserChar user)
    (hne : u ≠ []) (inside : u <:+ userPart user ++ (asterisks ++ ['@']))
    (hm : uriPassword (u ++ t) = .some m) : IsMasked (u ++ t) := by
  obtain ⟨y, start⟩ : ∃ y, u ++ t = ':' :: '/' :: '/' :: y := by
    obtain ⟨_, _, _, -, -, whole⟩ := of_uriPassword hm
    exact ⟨_, whole⟩
  -- Only at its head the masked URI has a colon and two slashes.
  have whole : userPart user ++ (asterisks ++ ['@']) =
      ':' :: '/' :: '/' :: (user ++ ':' :: (asterisks ++ ['@'])) := by simp [userPart]
  rw [whole] at inside
  rcases List.suffix_cons_iff.1 inside with rfl | inside
  · exact ⟨user, t, hu, by simp [userPart]⟩
  rcases List.suffix_cons_iff.1 inside with rfl | inside
  · simp at start
  rcases List.suffix_cons_iff.1 inside with rfl | inside
  · simp at start
  rcases suffix_append_cases inside with inside | ⟨v, hv', hv, rfl⟩
  · simp only [asterisks, List.cons_append, List.nil_append, List.suffix_cons_iff,
      List.suffix_nil] at inside
    rcases inside with rfl | rfl | rfl | rfl | rfl | rfl <;> simp_all
  · obtain ⟨a, v, rfl⟩ := List.exists_cons_of_ne_nil hv'
    obtain rfl : a = ':' := by simpa using congrArg List.head? start
    exact absurd (hu.allowed _ (hv.subset List.mem_cons_self)) (by decide)

theorem isMasked_of_replaceAll {m : Match} (t : List Char) (hs : s <:+ replaceAll uriPassword t)
    (hm : uriPassword s = some m) : IsMasked s := by
  induction t using scan_induction sized_uriPassword generalizing s m with
  | nil =>
    rw [List.suffix_nil.1 hs] at hm
    cases hm
  | keep c t hc ih =>
    rw [replaceAll_keep hc] at hs
    rcases List.suffix_cons_iff.1 hs with rfl | hs
    · rw [uriPassword_of_edited hc (edited_uris t)] at hm
      cases hm
    · exact ih hs hm
  | replace w r t hw hm' ih =>
    obtain ⟨user, password, hu, hp, rfl, rfl⟩ := of_uriPassword_match hm'
    rw [replaceAll_replace hw hm'] at hs
    rcases suffix_append_cases hs with hs | ⟨u, hu', inside, rfl⟩
    · exact ih hs hm
    · exact isMasked_inside hu hu' inside hm

/-- A text that shows no secret: what may be left of it are the passwords that are masked. -/
structure Settled (t : List Char) : Prop where
  credential : Absent credential t
  bearer : Absent bearer t
  password : ∀ s, s <:+ t → ∀ m, uriPassword s = some m → IsMasked s

/-- A masked password is replaced by itself. -/
theorem replaceAll_of_masked (t : List Char)
    (masked : ∀ s, s <:+ t → ∀ m, uriPassword s = some m → IsMasked s) :
    replaceAll uriPassword t = t := by
  induction t using scan_induction sized_uriPassword with
  | nil => rfl
  | keep c t hc ih =>
    rw [replaceAll_keep hc, ih fun s hs => masked s (hs.trans (List.suffix_cons c t))]
  | replace w r t hw hm ih =>
    rw [replaceAll_replace hw hm, ih fun s hs => masked s (hs.trans (List.suffix_append w t))]
    obtain ⟨user, rest, hu, whole⟩ := masked _ List.suffix_rfl _ hm
    have stars : IsRun isPasswordChar asterisks :=
      ⟨by decide, by simp [asterisks, isPasswordChar, isBlank, isWhite]⟩
    rw [whole, uriPassword_eq hu stars] at hm
    injection hm with hm
    injection hm with replaced size
    have parts : w ++ t = (userPart user ++ (asterisks ++ ['@'])) ++ rest := by
      rw [whole]
      simp
    rw [← replaced, (List.append_inj parts size.symm).1]

theorem Settled.redact_eq (ht : Settled t) : redact t = t := by
  rw [redact, replaceAll_of_absent ht.credential, replaceAll_of_absent ht.bearer,
    replaceAll_of_masked t ht.password]

/-- Replacing bearer tokens leaves no credential behind where there has been none. -/
theorem absent_bearers (ht : Absent credentialKey.pattern t) :
    Absent credentialKey.pattern (replaceAll bearerKey.pattern t) := by
  refine Key.absent_of_edited (fun o n change => change.1) ?_
    (edited_replaceAll (Key.sized_pattern _) (fun _ _ _ => Key.edits_word) t fun s hs _ => ht s hs)
  rintro o n ⟨-, rfl⟩
  exact credentialKey_shuns_redacted

/-- Replacing passwords brings about no match of a key that shuns the asterisks. -/
theorem absent_passwords {k : Key} (shuns : k.Shuns asterisks) (ht : Absent k.pattern t) :
    Absent k.pattern (replaceAll uriPassword t) := by
  refine Key.absent_of_edited (fun o n change => change.1) ?_ (edited_passwords t ht)
  rintro o n ⟨-, rfl⟩
  exact shuns

theorem redact_eq (t : List Char) : redact t = replaceAll uriPassword
    (replaceAll bearerKey.pattern (replaceAll credentialKey.pattern t)) := by
  rw [redact, credential_eq, bearer_eq]

/-- Once its secrets have been replaced a text shows none. -/
theorem settled_redact (t : List Char) : Settled (redact t) := by
  have no_credential := Key.absent_replaceAll credentialKey_shuns_redacted t
  have no_bearer := Key.absent_replaceAll bearerKey_shuns_redacted
    (replaceAll credentialKey.pattern t)
  rw [redact_eq]
  refine ⟨?_, ?_, fun s hs m hm => isMasked_of_replaceAll _ hs hm⟩
  · rw [credential_eq]
    exact absent_passwords credentialKey_shuns_asterisks (absent_bearers no_credential)
  · rw [bearer_eq]
    exact absent_passwords bearerKey_shuns_asterisks no_bearer

theorem redact_redact (t : List Char) : redact (redact t) = redact t :=
  (settled_redact t).redact_eq

/-! ## Messages of errors -/

theorem shorten_of_le {bound : Int} (h : (t.length : Int) ≤ bound) : shorten bound t = t :=
  if_neg (Int.not_lt.2 h)

/-- Within the bound a sanitised message is the message with its secrets replaced. -/
theorem toList_sanitize {f : Fault} {bound : Int}
    (h : ((redact (describe f).toList).length : Int) ≤ bound) :
    (f.sanitize bound).toList = redact (describe f).toList := by
  rw [Fault.sanitize, shorten_of_le h, String.toList_ofList]

/-- Every error but a missing key shows its text as it is. -/
theorem describe_of {k : Fault.Kind} {text : String} (hk : k ≠ .key) (some_text : text ≠ "") :
    describe (Fault.of k text) = text := by
  have shown : (Fault.of k text).text = text := by
    cases k <;> first | rfl | exact absurd rfl hk
  rw [describe, shown, if_neg (mt String.isEmpty_iff.1 some_text)]

/-- A sanitised message shows no secret.  Raised once more in an error that shows it as it is, it is
not changed when that error is sanitised. -/
theorem sanitize_settles (f : Fault) {bound : Int}
    (long : ((redact (describe f).toList).length : Int) ≤ bound) :
    Settled (f.sanitize bound).toList ∧
      ∀ g : Fault, describe g = f.sanitize bound →
        ∀ again : Int, ((f.sanitize bound).length : Int) ≤ again →
          g.sanitize again = f.sanitize bound := by
  have shown := toList_sanitize long
  refine ⟨shown ▸ settled_redact _, fun g wrapped again enough => ?_⟩
  have same : redact (describe g).toList = (f.sanitize bound).toList := by
    rw [wrapped, shown, redact_redact]
  rw [← String.toList_inj, toList_sanitize, same]
  rw [same]
  exact enough

/-- What two passes over a message with a credential and a URI leave. -/
theorem sanitize_settles_credential :
    Settled ((Fault.of .value "auth=x ://u:p@h").sanitize).toList ∧
      (Fault.of .runtime "[REDACTED] ://u:***@h").sanitize =
        "[REDACTED] ://u:***@h" := by
  have once : (Fault.of .value "auth=x ://u:p@h").sanitize standardBound =
      "[REDACTED] ://u:***@h" := by decide +kernel
  have long : ((redact (describe (Fault.of .value "auth=x ://u:p@h")).toList).length : Int) ≤
      standardBound := by decide +kernel
  have settles := sanitize_settles (Fault.of .value "auth=x ://u:p@h") long
  rw [once] at settles ⊢
  exact ⟨settles.1, settles.2 (Fault.of .runtime "[REDACTED] ://u:***@h")
    (describe_of (by decide) (by decide)) standardBound (by decide)⟩

/-- A missing key is shown in quotes with its backslashes doubled, and so it stays. -/
theorem sanitize_missing_key : ¬ ∀ (f : Fault) (bound : Int),
    ((redact (describe f).toList).length : Int) ≤ bound →
      ∀ k : Fault.Kind, (Fault.of k (f.sanitize bound)).sanitize bound = f.sanitize bound := by
  intro unchanged
  have quoted := unchanged (Fault.of .value "\\") standardBound (by decide +kernel) .key
  revert quoted
  decide +kernel

end Redaction
end Testbed

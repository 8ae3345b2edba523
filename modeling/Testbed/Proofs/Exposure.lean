import Testbed.Proofs.Reach
import Testbed.Proofs.Sanitized

/-!
# Exposed secrets

When the secret behind a label shows in a sanitised message.  A match is the word behind its key, so
that a label which belongs to that word is no key any more.  If the label itself ends with a blank,
the secret behind it then stands alone and is kept.
-/

namespace Testbed
namespace Redaction

open Text

variable {a b l s t w y gap : List Char} {c g : Char}

/-! ## The keys of credentials and tokens -/

section

variable {ls : List (List Char)} {mark : Char → Bool}

theorem plain_ofLabels (plain : (ls.all fun label => label.all isLetter) = true)
    (some_label : (ls.all fun label => !label.isEmpty) = true) (bracket : mark ']' = false) :
    (Key.ofLabels ls mark).Plain := by
  refine ⟨?_, fun l hl => solid_of_label plain hl, fun l hl => ?_, bracket⟩
  · rintro l hl rfl
    obtain ⟨label, mem, spelled⟩ := List.any_eq_true.1 hl
    have empty : label = [] := List.length_eq_zero_iff.1 (length_of_spells spelled).symm
    have := List.all_eq_true.1 some_label label mem
    rw [empty] at this
    cases this
  · obtain ⟨label, mem, spelled⟩ := List.any_eq_true.1 hl
    exact not_mem_of_spells (List.all_eq_true.1 plain label mem) spelled (by decide)

theorem spells_append {label u x : List Char} (h : spells label (u ++ x) = true) :
    spells (label.drop u.length) x = true := by
  induction u generalizing label with
  | nil => exact h
  | cons c u ih =>
    cases label with
    | nil => cases spells_nil.1 h
    | cons a label =>
      rw [List.cons_append, spells_cons, Bool.and_eq_true] at h
      exact ih h.2

/-- A label that is no end of a label is a stem. -/
theorem stem_ofLabels (label : (Key.ofLabels ls mark).label l = true)
    (unmarked : (l.all fun c => !mark c) = true)
    (alone : (ls.all fun label => label.tails.all fun x => x == label || !spells x l) = true) :
    (Key.ofLabels ls mark).Stem l := by
  refine ⟨label, fun c hc => ?_, fun v hv => ?_⟩
  · simpa [Key.ofLabels] using List.all_eq_true.1 unmarked c hc
  · by_contra both
    rw [Bool.not_eq_false] at both
    obtain ⟨label', mem, spelled⟩ := List.any_eq_true.1 both
    have inside := List.all_eq_true.1 (List.all_eq_true.1 alone label' mem) _
      ((List.mem_tails _ _).2 (List.drop_suffix v.length label'))
    rw [spells_append spelled, Bool.not_true, Bool.or_false, beq_iff_eq] at inside
    have length := congrArg List.length inside
    have := length_of_spells spelled
    have := List.length_pos_iff.2 hv
    rw [List.length_append] at *
    rw [List.length_drop] at length
    omega

end

theorem credentialKey_plain : credentialKey.Plain :=
  plain_ofLabels credential_plain (by decide) rfl

theorem bearerKey_plain : bearerKey.Plain := plain_ofLabels bearer_plain (by decide) rfl

theorem not_mark_of_isBlank (hc : isBlank c = true) : credentialKey.mark c = false := by
  by_contra mark
  rw [Bool.not_eq_false] at mark
  simp only [credentialKey, Key.ofLabels, Bool.or_eq_true, beq_iff_eq] at mark
  rcases mark with rfl | rfl <;> exact absurd hc (by decide)

theorem solid_of_mark (hc : credentialKey.mark c = true) : isBlank c = false := by
  by_contra blank
  rw [not_mark_of_isBlank (by simpa using blank)] at hc
  cases hc

/-- No match of a key begins at a sign. -/
theorem pattern_cons_of_sign (hc : c ∈ ['[', '*']) (t : List Char) :
    credentialKey.pattern (c :: t) = none ∧ bearerKey.pattern (c :: t) = none := by
  have sign : c ∈ signs := by
    simp only [List.mem_cons, List.not_mem_nil, or_false] at hc
    rcases hc with rfl | rfl <;> decide
  constructor
  · refine credentialKey_plain.pattern_cons (fun l hl => ?_) t
    obtain ⟨label, mem, spelled⟩ := List.any_eq_true.1 hl
    exact not_mem_of_spells (List.all_eq_true.1 credential_plain label mem) spelled sign
  · refine bearerKey_plain.pattern_cons (fun l hl => ?_) t
    obtain ⟨label, mem, spelled⟩ := List.any_eq_true.1 hl
    exact not_mem_of_spells (List.all_eq_true.1 bearer_plain label mem) spelled sign

/-! ## Words of URIs -/

/-- A URI ends with the word in which it begins. -/
theorem uriPassword_append (hy : IsTail y) :
    replaceAll uriPassword (t ++ y) = replaceAll uriPassword t ++ replaceAll uriPassword y := by
  induction t using scan_induction sized_uriPassword with
  | nil => rfl
  | keep c t hc ih =>
    have still : uriPassword (c :: (t ++ y)) = none := by
      cases found : uriPassword (c :: (t ++ y)) with
      | none => rfl
      | some m =>
        obtain ⟨user, password, rest, hu, hp, whole⟩ := of_uriPassword found
        rw [← List.append_assoc, ← List.cons_append] at whole
        rcases append_eq_append_cons whole with ⟨v, inside, -⟩ | ⟨v, parts, behind⟩
        · rw [inside, List.append_assoc, uriPassword_eq hu hp] at hc
          cases hc
        · -- What stands in front of the at sign would hold a blank.
          cases v with
          | nil => exact absurd (hy '@' (by rw [behind]; rfl)) (by decide)
          | cons e v =>
            have blank := hy e (by rw [behind]; rfl)
            have allowed := passwordChars_userPart hu hp e (by rw [parts]; simp)
            simp [isPasswordChar, blank] at allowed
    rw [List.cons_append, replaceAll_keep still, replaceAll_keep hc, ih, List.cons_append]
  | replace w r t hw hm ih =>
    obtain ⟨user, password, hu, hp, rfl, rfl⟩ := of_uriPassword_match hm
    have still : uriPassword (userPart user ++ (password ++ '@' :: (t ++ y))) = _ :=
      uriPassword_eq hu hp
    have again : uriPassword (userPart user ++ (password ++ ['@']) ++ (t ++ y)) =
        some ⟨userPart user ++ (asterisks ++ ['@']),
          (userPart user ++ (password ++ ['@'])).length⟩ := by
      rw [← still]
      simp
    rw [List.append_assoc _ t, replaceAll_replace hw again, replaceAll_replace hw hm, ih,
      ← List.append_assoc]

/-! ## What shows -/

/-- The passes over a text up to the one that looks for tokens. -/
def upToTokens (t : List Char) : List Char :=
  replaceAll bearerKey.pattern (replaceAll credentialKey.pattern t)

theorem redact_upToTokens (t : List Char) : redact t = replaceAll uriPassword (upToTokens t) :=
  redact_eq t

theorem uriPassword_skip (hw : ∀ c ∈ w, c ≠ ':') (t : List Char) :
    replaceAll uriPassword (w ++ t) = w ++ replaceAll uriPassword t := by
  refine replaceAll_skip (fun c hc x => ?_) t
  cases found : uriPassword (c :: x) with
  | none => rfl
  | some m =>
    obtain ⟨user, password, rest, -, -, whole⟩ := of_uriPassword found
    exact absurd (List.cons_eq_cons.1 whole).1 (hw c hc)

theorem isTail_append (hg : IsGap gap) (some_gap : gap ≠ []) : IsTail (gap ++ t) := by
  obtain ⟨g, gap, rfl⟩ := List.exists_cons_of_ne_nil some_gap
  exact isTail_cons (hg g List.mem_cons_self)

theorem isTail_replaceAll {k : Key} (plain : k.Plain) (ht : IsTail t) :
    IsTail (replaceAll k.pattern t) := by
  cases t with
  | nil => exact isTail_nil
  | cons c t =>
    have blank := ht c rfl
    rw [replaceAll_keep (plain.pattern_cons (fun l hl => plain.not_mem blank hl) t)]
    exact isTail_cons blank

/-- Blanks and a sign at the head of a text are kept. -/
theorem replaceAll_gap_sign {k : Key} (plain : k.Plain) (hg : IsGap gap)
    (sign : ∀ t, k.pattern (c :: t) = none) (t : List Char) :
    replaceAll k.pattern (gap ++ c :: t) = gap ++ c :: replaceAll k.pattern t := by
  have kept := replaceAll_skip (p := k.pattern) (w := gap ++ [c]) (fun d hd x => ?_) t
  · simpa using kept
  · rcases List.mem_append.1 hd with hd | hd
    · exact plain.pattern_cons (fun l hl => plain.not_mem (hg d hd) hl) x
    · exact List.mem_singleton.1 hd ▸ sign x

/-- Two signs that stand behind blanks when tokens have been replaced show. -/
theorem redact_ne {f : Char → List Char} {z : List Char} (hg : IsGap gap) (some_gap : gap ≠ [])
    (shown : ∀ c ∈ ['[', '*'], upToTokens (f c) = z ++ (gap ++ c :: t)) :
    redact (f '[') ≠ redact (f '*') := by
  have colon_free (c : Char) (hc : c ∈ ['[', '*']) : ∀ d ∈ gap ++ [c], d ≠ ':' := by
    rintro d hd rfl
    rcases List.mem_append.1 hd with hd | hd
    · exact absurd (hg ':' hd) (by decide)
    · rw [← List.mem_singleton.1 hd] at hc
      exact absurd hc (by decide)
  have final (c : Char) (hc : c ∈ ['[', '*']) : redact (f c) =
      replaceAll uriPassword z ++ (gap ++ c :: replaceAll uriPassword t) := by
    have kept := uriPassword_skip (colon_free c hc) t
    rw [redact_upToTokens, shown c hc, uriPassword_append (isTail_append hg some_gap)]
    simpa using kept
  intro same
  rw [final '[' (by decide), final '*' (by decide)] at same
  have heads := List.append_cancel_left (List.append_cancel_left same)
  exact absurd (List.cons_eq_cons.1 heads).1 (by decide)

theorem redacted_eq : redacted = "[REDACTED".toList ++ [']'] := by decide

/-- A text with a closing bracket at its end ends with a word and with no label. -/
theorem ended_bracket {k : Key} (plain : k.Plain) (z : List Char) :
    k.Ended (z ++ [']']) ∧ ∀ u, u <:+ z ++ [']'] → k.label u = false := by
  have last {u : List Char} (hu : u <:+ z ++ [']']) (some_char : u ≠ []) : ∃ v, u = v ++ [']'] := by
    rcases List.eq_nil_or_concat u with rfl | ⟨v, c, rfl⟩
    · exact absurd rfl some_char
    · obtain ⟨x, whole⟩ := hu
      rw [List.concat_eq_append, ← List.append_assoc] at whole
      obtain ⟨-, same⟩ := List.append_inj' whole rfl
      exact ⟨v, by rw [List.concat_eq_append, same]⟩
  refine ⟨⟨⟨']', by simp, by decide⟩, fun u hu key => ?_⟩, fun u hu => ?_⟩
  · obtain ⟨l, c, -, -, hc, rfl⟩ := Key.after?_eq_some.1 key
    obtain ⟨v, ends⟩ := last hu (by simp)
    obtain ⟨-, same⟩ := List.append_inj' ends rfl
    rw [(List.cons_eq_cons.1 same).1, plain.mark] at hc
    cases hc
  · by_contra label
    rw [Bool.not_eq_false] at label
    obtain ⟨v, rfl⟩ := last hu (plain.ne_nil u label)
    exact plain.bracket _ label (by simp)

/-- A text with a closing bracket at its end is scanned apart from what follows its last word. -/
theorem replaceAll_bracket {k : Key} (plain : k.Plain) (hy : IsTail y) (z : List Char) :
    replaceAll k.pattern (z ++ ([']'] ++ y)) =
      replaceAll k.pattern (z ++ [']']) ++ replaceAll k.pattern y := by
  obtain ⟨ended, no_label⟩ := ended_bracket plain z
  rw [← List.append_assoc]
  exact Key.replaceAll_append plain ended hy fun _ _ _ => no_label

/-- The closing bracket at the end of a text stays. -/
theorem replaceAll_bracket_last {k : Key} (plain : k.Plain) (z : List Char) :
    ∃ z', replaceAll k.pattern (z ++ [']']) = z' ++ [']'] := by
  have word : IsWord [']'] := isWord_singleton (by decide)
  rcases Key.reach_word (k := k) word (by simp [plain.mark]) z with ⟨z', h⟩ | ⟨z', h⟩
  · exact ⟨z' ++ "[REDACTED".toList, by rw [h, redacted_eq, List.append_assoc]⟩
  · exact ⟨z', h⟩

theorem suffix_of_append_right {x z : List Char} (h : x ++ y <:+ z ++ y) : x <:+ z := by
  obtain ⟨v, whole⟩ := h
  rw [← List.append_assoc] at whole
  exact ⟨v, List.append_cancel_right whole⟩

theorem replaceAll_gap {k : Key} (plain : k.Plain) (hg : IsGap gap) :
    replaceAll k.pattern gap = gap := by
  have skip := replaceAll_skip (p := k.pattern) (w := gap)
    (fun d hd => plain.pattern_cons fun l hl => plain.not_mem (hg d hd) hl) []
  simpa using skip

theorem not_gap_of_word (hs : IsWord s) (x y : List Char) : ¬ IsGap (x ++ (s ++ y)) := by
  intro gap
  obtain ⟨d, mem⟩ := List.exists_mem_of_ne_nil s hs.ne_nil
  have blank := gap d (by simp [mem])
  rw [hs.solid d mem] at blank
  cases blank

/-! ## Credentials -/

/-- A credential is replaced, unless its label ends with blanks and belongs to an earlier match. -/
theorem credential_replaced_iff (stem : credentialKey.Stem l) (hc : credentialKey.mark c = true)
    (hg : IsGap gap) (hb : IsTail b) :
    (∀ s₁ s₂, IsWord s₁ → IsWord s₂ → redact (a ++ (l ++ c :: (gap ++ (s₁ ++ b)))) =
        redact (a ++ (l ++ c :: (gap ++ (s₂ ++ b))))) ↔
      gap = [] ∨ l ++ c :: gap <:+ replaceAll credentialKey.pattern (a ++ (l ++ c :: gap)) := by
  have past (y : List Char) : pastWord (c :: y) = pastWord y :=
    pastWord_append (isWord_singleton (solid_of_mark hc)).solid
  rcases stem.reach credentialKey_plain hc a with ⟨z, swallowed⟩ | ⟨z, found, kept⟩
  · by_cases some_gap : gap = []
    · -- The secret is the end of the word that the earlier match covers.
      subst some_gap
      refine ⟨fun _ => .inl rfl, fun _ s₁ s₂ h₁ h₂ => ?_⟩
      have rest {s : List Char} (hs : IsWord s) : pastWord (c :: ([] ++ (s ++ b))) = b := by
        rw [past, List.nil_append, pastWord_append hs.solid, hb.pastWord_eq]
      rw [redact_eq, redact_eq, swallowed, swallowed, rest h₁, rest h₂]
    · -- The earlier match ends with the label, in front of the blanks.
      have ends (y : List Char) : replaceAll credentialKey.pattern (a ++ (l ++ c :: (gap ++ y))) =
          (z ++ "[REDACTED".toList) ++
            ([']'] ++ replaceAll credentialKey.pattern (gap ++ y)) := by
        rw [swallowed, past, (isTail_append hg some_gap).pastWord_eq, redacted_eq]
        simp only [List.append_assoc]
      refine iff_of_false (fun alike => ?_) (not_or.2 ⟨some_gap, fun stays => ?_⟩)
      · -- Neither of two signs is taken for a part of a match, so they show.
        have shown (d : Char) (hd : d ∈ ['[', '*']) :
            upToTokens (a ++ (l ++ c :: (gap ++ ([d] ++ b)))) =
              replaceAll bearerKey.pattern ((z ++ "[REDACTED".toList) ++ [']']) ++
                (gap ++ d :: upToTokens b) := by
          have sign := pattern_cons_of_sign hd
          rw [upToTokens, ends, List.singleton_append (l := b),
            replaceAll_gap_sign credentialKey_plain hg fun t => (sign t).1,
            replaceAll_bracket bearerKey_plain (isTail_append hg some_gap),
            replaceAll_gap_sign bearerKey_plain hg fun t => (sign t).2, ← upToTokens]
        exact redact_ne hg some_gap shown (alike ['['] ['*'] (isWord_singleton (by decide))
          (isWord_singleton (by decide)))
      · -- A label that is still there would have its mark in place of the closing bracket.
        have whole := ends []
        rw [List.append_nil, replaceAll_gap credentialKey_plain hg] at whole
        rw [whole, ← List.append_assoc, List.append_cons] at stays
        have key : credentialKey.after? (l ++ [c]) = some [] :=
          Key.after?_eq_some.2 ⟨l, c, stem.label, stem.unmarked, hc, rfl⟩
        exact (ended_bracket credentialKey_plain _).1.key _ (suffix_of_append_right stays) key
  · refine iff_of_true (fun s₁ s₂ h₁ h₂ => ?_) (.inr ⟨z, (kept gap hg).symm⟩)
    have rest {s : List Char} (hs : IsWord s) :
        replaceAll credentialKey.pattern (a ++ (l ++ c :: (gap ++ (s ++ b)))) =
          z ++ (redacted ++ replaceAll credentialKey.pattern b) := by
      rw [found _ (not_gap_of_word hs gap b), beyond_append hg, beyond_word hs, hb.pastWord_eq]
    rw [redact_eq, redact_eq, rest h₁, rest h₂]

/-! ## Bearer tokens -/

/-- A secret does not end with the key of a credential. -/
def Closed (s : List Char) : Prop := ∀ u, u <:+ s → credentialKey.after? u ≠ some []

theorem closed_singleton (c : Char) : Closed [c] := by
  intro u hu key
  obtain ⟨l, d, label, -, -, rfl⟩ := Key.after?_eq_some.1 key
  -- A key has at least two characters.
  have := hu.length_le
  have := List.length_pos_iff.2 (credentialKey_plain.ne_nil l label)
  simp only [List.length_append, List.length_cons, List.length_nil] at *
  omega

theorem replaceAll_cons_blank {k : Key} (plain : k.Plain) (hg : isBlank g = true)
    (t : List Char) : replaceAll k.pattern (g :: t) = g :: replaceAll k.pattern t :=
  replaceAll_keep (plain.pattern_cons (fun _ hl => plain.not_mem hg hl) t)

section

variable (stem : bearerKey.Stem l) (unmarked : ∀ d ∈ l, credentialKey.mark d = false)
  (hg : isBlank g = true)

include stem unmarked hg

/-- Either the label of a token belongs to an earlier match, or it is found. -/
theorem upToTokens_cases (a : List Char) :
    (∃ z, ∀ y, upToTokens (a ++ (l ++ g :: y)) =
      z ++ ([']'] ++ g :: upToTokens y)) ∨
    (∃ z, (∀ y, ¬ IsGap (replaceAll credentialKey.pattern y) → upToTokens (a ++ (l ++ g :: y)) =
        z ++ (redacted ++
          replaceAll bearerKey.pattern (beyond (replaceAll credentialKey.pattern y)))) ∧
      upToTokens (a ++ (l ++ [g])) = z ++ (l ++ [g])) := by
  have word : IsWord l := ⟨bearerKey_plain.ne_nil l stem.label, bearerKey_plain.solid l stem.label⟩
  have ended : credentialKey.Ended (a ++ l) := Key.ended_append word unmarked a
  have parts (y : List Char) : replaceAll credentialKey.pattern (a ++ (l ++ g :: y)) =
      replaceAll credentialKey.pattern (a ++ l) ++ g :: replaceAll credentialKey.pattern y := by
    rw [← List.append_assoc, Key.replaceAll_append credentialKey_plain ended (isTail_cons hg),
      replaceAll_cons_blank credentialKey_plain hg]
    rintro d ⟨⟩ mark
    rw [not_mark_of_isBlank hg] at mark
    cases mark
  rcases Key.reach_word word unmarked a with ⟨z, swallowed⟩ | ⟨z, kept⟩
  · -- The label belongs to the secret of a credential.
    left
    obtain ⟨z', ends⟩ := replaceAll_bracket_last bearerKey_plain (z ++ "[REDACTED".toList)
    refine ⟨z', fun y => ?_⟩
    rw [upToTokens, parts, swallowed, redacted_eq, ← List.append_assoc z, List.append_assoc _ [']'],
      replaceAll_bracket bearerKey_plain (isTail_cons hg), ends,
      replaceAll_cons_blank bearerKey_plain hg, ← upToTokens, List.append_assoc]
  · rcases stem.reach bearerKey_plain (c := g) hg z with ⟨z', swallowed⟩ | ⟨z', found, stays⟩
    · -- The label is itself a token.
      refine .inl ⟨z' ++ "[REDACTED".toList, fun y => ?_⟩
      rw [upToTokens, parts, kept, List.append_assoc, swallowed, redacted_eq,
        (isTail_cons hg).pastWord_eq, replaceAll_cons_blank bearerKey_plain hg, ← upToTokens]
      simp only [List.append_assoc]
    · refine .inr ⟨z', fun y hy => ?_, ?_⟩
      · rw [upToTokens, parts, kept, List.append_assoc, found _ hy]
      · rw [upToTokens, parts, kept, List.append_assoc, replaceAll_nil, stays [] nofun]

/-- A token that does not end with a key of its own is replaced, unless its label belongs to an
earlier match. -/
theorem token_replaced_iff (hb : IsTail b) :
    (∀ s₁ s₂, IsWord s₁ → IsWord s₂ → Closed s₁ → Closed s₂ →
        redact (a ++ (l ++ g :: (s₁ ++ b))) = redact (a ++ (l ++ g :: (s₂ ++ b)))) ↔
      l ++ [g] <:+ upToTokens (a ++ (l ++ [g])) := by
  rcases upToTokens_cases stem unmarked hg a with ⟨z, lost⟩ | ⟨z, found, stays⟩
  · -- The label is gone, so that its token shows.
    refine iff_of_false (fun alike => ?_) fun stays => ?_
    · have shown (d : Char) (hd : d ∈ ['[', '*']) : upToTokens (a ++ (l ++ g :: ([d] ++ b))) =
          (z ++ [']']) ++ ([g] ++ d :: upToTokens b) := by
        have sign := pattern_cons_of_sign hd
        have kept : upToTokens ([d] ++ b) = d :: upToTokens b := by
          rw [upToTokens, List.singleton_append, replaceAll_keep (sign b).1,
            replaceAll_keep (sign _).2, ← upToTokens]
        rw [lost, kept]
        simp
      exact redact_ne (by simpa [IsGap] using hg) (List.cons_ne_nil g []) shown
        (alike ['['] ['*'] (isWord_singleton (by decide)) (isWord_singleton (by decide))
          (closed_singleton _) (closed_singleton _))
    · have nothing : upToTokens [] = [] := rfl
      rw [lost [], nothing, ← List.append_assoc] at stays
      have no_label := (ended_bracket bearerKey_plain z).2 l (suffix_of_append_right stays)
      rw [stem.label] at no_label
      cases no_label
  · refine iff_of_true (fun s₁ s₂ h₁ h₂ c₁ c₂ => ?_) ⟨z, stays.symm⟩
    -- A token may hold credentials, which makes another word of it.
    have rest {s : List Char} (hs : IsWord s) (closed : Closed s) :
        upToTokens (a ++ (l ++ g :: (s ++ b))) = z ++ (redacted ++ upToTokens b) := by
      have parts : replaceAll credentialKey.pattern (s ++ b) =
          replaceAll credentialKey.pattern s ++ replaceAll credentialKey.pattern b := by
        refine Key.replaceAll_append credentialKey_plain ⟨hs.last, closed⟩ hb fun d hd mark => ?_
        rw [not_mark_of_isBlank (hb d hd)] at mark
        cases mark
      have word : IsWord (replaceAll credentialKey.pattern s) := Key.isWord_replaceAll hs
      have tail := isTail_replaceAll credentialKey_plain hb
      have some_word := not_gap_of_word word [] (replaceAll credentialKey.pattern b)
      rw [List.nil_append, ← parts] at some_word
      rw [found _ some_word, parts, beyond_word word, tail.pastWord_eq, ← upToTokens]
    rw [redact_upToTokens, redact_upToTokens, rest h₁ c₁, rest h₂ c₂]

end

/-! ## Labels in messages -/

/-- The texts that announce a credential. -/
def credentialLabels : List String := ["password=", "secret: ", "token=", "api_key=", "auth: "]

/-- The text that announces a bearer token. -/
def tokenLabel : String := "Bearer "

/-- A secret is a word.  A token does not end with the key of a credential, which would take the
word behind the token for its own. -/
def IsSecret (label : String) (s : List Char) : Prop :=
  IsWord s ∧ (label = tokenLabel → Closed s)

/-- The passes up to the one that looks for the secret behind a label. -/
def upTo (label : String) (t : List Char) : List Char :=
  if label = tokenLabel then replaceAll bearer (replaceAll credential t)
  else replaceAll credential t

/-- A label that ends with a blank is still there when the text up to it has been scanned. -/
def Found (label : String) (a : List Char) : Prop :=
  EndsWithWord label.toList ∨ label.toList <:+ upTo label (a ++ label.toList)

/-- Errors with these texts are sanitised alike. -/
def SanitizedAlike (t t' : List Char) : Prop :=
  ∀ f f' : Fault, f.text.toList = t → f'.text.toList = t' →
    ∀ bound : Int, f.sanitize bound = f'.sanitize bound

theorem sanitize_of_text {f : Fault} (h : f.text.toList = t) (ht : t ≠ []) (bound : Int) :
    f.sanitize bound = String.ofList (shorten bound (redact t)) := by
  have some_text : f.text.isEmpty = false := by
    rw [← h] at ht
    simpa using ht
  rw [Fault.sanitize, describe, some_text, if_neg Bool.false_ne_true, h]

theorem sanitizedAlike_iff {t' : List Char} (ht : t ≠ []) (ht' : t' ≠ []) :
    SanitizedAlike t t' ↔ redact t = redact t' := by
  constructor
  · intro alike
    -- A bound that cuts off neither of them.
    have text (t : List Char) : (Fault.of .runtime (String.ofList t)).text.toList = t :=
      String.toList_ofList
    have same := alike _ _ (text t) (text t') ((redact t).length + (redact t').length)
    rw [sanitize_of_text (text t) ht, sanitize_of_text (text t') ht', shorten_of_le (by omega),
      shorten_of_le (by omega)] at same
    exact String.ofList_injective same
  · intro same f f' hf hf' bound
    rw [sanitize_of_text hf ht, sanitize_of_text hf' ht', same]

/-- A label of a credential is a stem, a mark and the blanks behind it. -/
theorem credentialLabels_parts : ∀ label ∈ credentialLabels, label ≠ tokenLabel ∧
    ∃ l c gap, label.toList = l ++ c :: gap ∧ credentialKey.Stem l ∧
      credentialKey.mark c = true ∧ IsGap gap := by
  have stem {l : List Char} (label : credentialKey.label l = true)
      (unmarked : (l.all fun c => !credentialKey.mark c) = true)
      (alone : (labels.all fun label => label.tails.all fun x => x == label || !spells x l) =
        true) : credentialKey.Stem l := stem_ofLabels label unmarked alone
  have nothing : IsGap [] := by simp [IsGap]
  have blank : IsGap [' '] := by simp [IsGap, isBlank, isWhite]
  intro label hl
  simp only [credentialLabels, List.mem_cons, List.not_mem_nil, or_false] at hl
  rcases hl with rfl | rfl | rfl | rfl | rfl
  · exact ⟨by decide, "password".toList, '=', [], rfl,
      stem (by decide) (by decide) (by decide), rfl, nothing⟩
  · exact ⟨by decide, "secret".toList, ':', [' '], rfl,
      stem (by decide) (by decide) (by decide), rfl, blank⟩
  · exact ⟨by decide, "token".toList, '=', [], rfl,
      stem (by decide) (by decide) (by decide), rfl, nothing⟩
  · exact ⟨by decide, "api_key".toList, '=', [], rfl,
      stem (by decide) (by decide) (by decide), rfl, nothing⟩
  · exact ⟨by decide, "auth".toList, ':', [' '], rfl,
      stem (by decide) (by decide) (by decide), rfl, blank⟩

theorem tokenLabel_stem : bearerKey.Stem "Bearer".toList :=
  stem_ofLabels (by decide) (by decide) (by decide)

theorem tokenLabel_unmarked : ∀ c ∈ "Bearer".toList, credentialKey.mark c = false := by
  have none : "Bearer".toList.all (fun c => !credentialKey.mark c) = true := by decide
  exact fun c hc => by simpa using List.all_eq_true.1 none c hc

theorem endsWithWord_iff (hc : isBlank c = false) (hg : IsGap gap) :
    EndsWithWord (l ++ c :: gap) ↔ gap = [] := by
  constructor
  · rintro ⟨d, last, hd⟩
    rcases List.eq_nil_or_concat gap with rfl | ⟨gap, e, rfl⟩
    · rfl
    · rw [List.concat_eq_append, ← List.cons_append, ← List.append_assoc,
        List.getLast?_concat] at last
      obtain rfl : e = d := Option.some.inj last
      rw [hg e (by simp)] at hd
      cases hd
  · rintro rfl
    exact ⟨c, by simp, hc⟩

/-- Secrets behind a label are sanitised alike, whatever they are, exactly if the label is found. -/
theorem sanitizedAlike_iff_found {label : String} (hl : label ∈ credentialLabels ++ [tokenLabel])
    (a : List Char) {b : List Char} (hb : IsTail b) :
    (∀ s₁ s₂, IsSecret label s₁ → IsSecret label s₂ →
        SanitizedAlike (a ++ (label.toList ++ (s₁ ++ b))) (a ++ (label.toList ++ (s₂ ++ b)))) ↔
      Found label a := by
  rcases List.mem_append.1 hl with hl | hl
  · -- The label of a credential ends in a sign, or in blanks behind one.
    obtain ⟨no_token, l, c, gap, parts, stem, hc, hg⟩ := credentialLabels_parts label hl
    have solid : isBlank c = false := solid_of_mark hc
    have whole (s : List Char) :
        a ++ ((l ++ c :: gap) ++ (s ++ b)) = a ++ (l ++ c :: (gap ++ (s ++ b))) := by simp
    rw [Found, upTo, if_neg no_token, parts, endsWithWord_iff solid hg, credential_eq,
      ← credential_replaced_iff stem hc hg hb]
    simp only [IsSecret, no_token, false_imp_iff, and_true, whole]
    refine forall₄_congr fun s₁ s₂ _ _ => sanitizedAlike_iff ?_ ?_ <;> simp
  · -- The label of a token ends in a blank.
    obtain rfl := List.mem_singleton.1 hl
    have parts : tokenLabel.toList = "Bearer".toList ++ [' '] := by decide
    have whole (s : List Char) : a ++ (("Bearer".toList ++ [' ']) ++ (s ++ b)) =
        a ++ ("Bearer".toList ++ ' ' :: (s ++ b)) := by simp
    have not_solid : ¬ EndsWithWord ("Bearer".toList ++ [' ']) := by
      rintro ⟨c, last, hc⟩
      obtain rfl : ' ' = c := by simpa using last
      exact absurd hc (by decide)
    rw [Found, upTo, if_pos rfl, parts, credential_eq, bearer_eq, or_iff_right not_solid,
      ← upToTokens, ← token_replaced_iff tokenLabel_stem tokenLabel_unmarked (by decide) hb]
    simp only [IsSecret, forall_const, whole]
    constructor
    · intro alike s₁ s₂ h₁ h₂ c₁ c₂
      exact (sanitizedAlike_iff (by simp) (by simp)).1 (alike s₁ s₂ ⟨h₁, c₁⟩ ⟨h₂, c₂⟩)
    · intro alike s₁ s₂ h₁ h₂
      exact (sanitizedAlike_iff (by simp) (by simp)).2 (alike s₁ s₂ h₁.1 h₂.1 h₁.2 h₂.2)

/-- The secrets behind `auth` show no difference, but tokens do that are themselves behind it. -/
theorem sanitizedAlike_behind_auth : IsTail [] ∧
    "auth: " ∈ credentialLabels ++ [tokenLabel] ∧ tokenLabel ∈ credentialLabels ++ [tokenLabel] ∧
    (∀ s₁ s₂, IsSecret "auth: " s₁ → IsSecret "auth: " s₂ →
      SanitizedAlike ("auth: ".toList ++ (s₁ ++ [])) ("auth: ".toList ++ (s₂ ++ []))) ∧
    ¬ ∀ s₁ s₂, IsSecret tokenLabel s₁ → IsSecret tokenLabel s₂ →
      SanitizedAlike ("auth: ".toList ++ (tokenLabel.toList ++ (s₁ ++ [])))
        ("auth: ".toList ++ (tokenLabel.toList ++ (s₂ ++ []))) := by
  have label : "auth: " ∈ credentialLabels ++ [tokenLabel] := by decide
  have token : tokenLabel ∈ credentialLabels ++ [tokenLabel] := by decide
  have found : Found "auth: " [] := .inr (by decide +kernel)
  have lost : ¬ Found tokenLabel "auth: ".toList := by
    rintro (⟨c, last, hc⟩ | stays)
    · obtain rfl : ' ' = c := by simpa [tokenLabel] using last
      exact absurd hc (by decide)
    · revert stays
      decide +kernel
  exact ⟨isTail_nil, label, token, (sanitizedAlike_iff_found label [] isTail_nil).2 found,
    mt (sanitizedAlike_iff_found token "auth: ".toList isTail_nil).1 lost⟩

/-- A bearer token behind the label of a credential shows: the label takes the word `Bearer` for the
secret and leaves the token. -/
theorem token_behind_auth_shows : ¬ ∀ (a b s₁ s₂ : List Char), IsTail b → IsWord s₁ → IsWord s₂ →
    ∀ label ∈ credentialLabels ++ [tokenLabel],
      SanitizedAlike (a ++ (label.toList ++ (s₁ ++ b))) (a ++ (label.toList ++ (s₂ ++ b))) := by
  intro alike
  have same := alike "auth: ".toList [] ['x'] ['y'] isTail_nil (isWord_singleton (by decide))
    (isWord_singleton (by decide)) tokenLabel (by decide) (.of .runtime "auth: Bearer x")
    (.of .runtime "auth: Bearer y") (by decide) (by decide) standardBound
  revert same
  decide +kernel

end Redaction
end Testbed

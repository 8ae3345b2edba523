import Testbed.Proofs.Scanning

/-!
# Labels of secrets

Labels are spelled letter by letter, whatever their case.  A credential and a bearer token are the
words that a key with certain labels announces, so that what holds of scanning for the words behind
a key holds of both.
-/

namespace Testbed
namespace Redaction

open Text

variable {c : Char} {s t w r : List Char}

/-! ## Labels -/

/-- A text is a label, letter by letter and whatever their case. -/
def spells (label l : List Char) : Bool := afterLabel? label l == some []

section

variable {label l : List Char} {a : Char}

@[simp] theorem spells_nil : spells [] l = true ↔ l = [] := by simp [spells, afterLabel?]

@[simp] theorem spells_cons : spells (a :: label) (c :: l) = (standsFor a c && spells label l) := by
  cases stands : standsFor a c <;> simp [spells, afterLabel?, stands]

/-- What follows a label is what follows the characters that spell it. -/
theorem afterLabel?_eq_some : afterLabel? label t = some r ↔
    ∃ l, spells label l = true ∧ t = l ++ r := by
  -- By induction on the label, each letter of which takes one character of the text.
  induction label generalizing t with
  | nil =>
    constructor
    · rintro ⟨⟩
      exact ⟨[], spells_nil.2 rfl, rfl⟩
    · rintro ⟨l, hl, rfl⟩
      rw [spells_nil.1 hl]
      rfl
  | cons a label ih =>
    cases t with
    | nil =>
      constructor
      · nofun
      · rintro ⟨l, hl, whole⟩
        obtain ⟨rfl, -⟩ := List.append_eq_nil_iff.1 whole.symm
        cases hl
    | cons c t =>
      have step : afterLabel? (a :: label) (c :: t) = some r ↔
          standsFor a c = true ∧ afterLabel? label t = some r := by
        cases stands : standsFor a c <;> simp [afterLabel?, stands]
      rw [step, ih]
      constructor
      · rintro ⟨stands, l, hl, rfl⟩
        exact ⟨c :: l, by simp [stands, hl], rfl⟩
      · rintro ⟨l, hl, whole⟩
        cases l with
        | nil => cases hl
        | cons d l =>
          obtain ⟨rfl, rfl⟩ := List.cons_eq_cons.1 whole
          rw [spells_cons, Bool.and_eq_true] at hl
          exact ⟨hl.1, l, hl.2, rfl⟩

theorem length_of_spells (h : spells label l = true) : l.length = label.length := by
  induction label generalizing l with
  | nil => rw [spells_nil.1 h]
  | cons a label ih =>
    cases l with
    | nil => cases h
    | cons c l =>
      rw [spells_cons, Bool.and_eq_true] at h
      rw [List.length_cons, List.length_cons, ih h.2]

/-- Every character of a spelled label stands for one of its letters. -/
theorem standsFor_of_spells (h : spells label l = true) (hc : c ∈ l) :
    ∃ a ∈ label, standsFor a c = true := by
  induction label generalizing l with
  | nil => simp [spells_nil.1 h] at hc
  | cons a label ih =>
    cases l with
    | nil => cases hc
    | cons d l =>
      rw [spells_cons, Bool.and_eq_true] at h
      rcases List.mem_cons.1 hc with rfl | hc
      · exact ⟨a, List.mem_cons_self, h.1⟩
      · obtain ⟨b, hb, stands⟩ := ih h.2 hc
        exact ⟨b, List.mem_cons_of_mem a hb, stands⟩

/-- Two texts differ at a place where both have a character. -/
def clashes : List Char → List Char → Bool
  | a :: label, c :: s => !standsFor a c || clashes label s
  | _, _ => false

theorem afterLabel?_of_clashes (h : clashes label s = true) (x : List Char) :
    afterLabel? label (s ++ x) = none := by
  induction label generalizing s with
  | nil => cases h
  | cons a label ih =>
    cases s with
    | nil => cases h
    | cons c s =>
      cases stands : standsFor a c with
      | false => simp [afterLabel?, stands]
      | true => simpa [afterLabel?, stands] using ih (by simpa [clashes, stands] using h)

/-- No blank stands for a letter. -/
theorem isBlank_of_standsFor (ha : isBlank a = false) (h : standsFor a c = true) :
    isBlank c = false := by
  by_contra blank
  have blank : isBlank c = true := by simpa using blank
  -- A blank is no capital letter, and none of the letters that stand for an ASCII letter.
  have upper : ¬ c.isUpper = true := fun upper => by
    have range := (isUpper_iff c).1 upper
    simp [isBlank, isWhite] at blank
    omega
  simp only [standsFor, Char.toLower_eq_of_not_isUpper upper, Bool.or_eq_true, Bool.and_eq_true,
    beq_iff_eq] at h
  simp only [isBlank, isWhite, Bool.or_eq_true, Bool.and_eq_true, beq_iff_eq,
    decide_eq_true_eq] at blank
  rcases h with ((rfl | h) | h) | h
  · simp only [isBlank, isWhite, Bool.or_eq_false_iff, Bool.and_eq_false_iff, beq_eq_false_iff_ne,
      decide_eq_false_iff_not] at ha
    omega
  all_goals omega

end

/-- The characters of keys and of what stands for secrets that no letter of a label is. -/
def signs : List Char := ['=', ':', '[', ']', '*']

/-- The letters of labels are no blanks, and no sign stands for one. -/
def isLetter (a : Char) : Bool :=
  !isBlank a && signs.all fun c => !standsFor a c

section

variable {label l : List Char} (plain : label.all isLetter = true) (spelled : spells label l = true)

include plain spelled

theorem solid_of_spells : ∀ c ∈ l, isBlank c = false := by
  intro c hc
  obtain ⟨a, ha, stands⟩ := standsFor_of_spells spelled hc
  have letter := List.all_eq_true.1 plain a ha
  simp only [isLetter, Bool.and_eq_true, Bool.not_eq_true'] at letter
  exact isBlank_of_standsFor letter.1 stands

theorem not_mem_of_spells (hc : c ∈ signs) : c ∉ l := by
  intro mem
  obtain ⟨a, ha, stands⟩ := standsFor_of_spells spelled mem
  have letter := List.all_eq_true.1 plain a ha
  simp only [isLetter, Bool.and_eq_true, List.all_eq_true] at letter
  have differs := letter.2 c hc
  rw [stands] at differs
  cases differs

end

/-! ## Keys with given labels -/

/-- The key with one of the labels. -/
def Key.ofLabels (ls : List (List Char)) (mark : Char → Bool) : Key where
  label l := ls.any fun label => spells label l
  mark := mark

section

variable {ls : List (List Char)} {mark : Char → Bool}
  (plain : (ls.all fun label => label.all isLetter) = true)
  (marks : ∀ c, mark c = true → isBlank c = true ∨ c ∈ ['=', ':'])

include plain

theorem solid_of_label {l : List Char} (h : (Key.ofLabels ls mark).label l = true) :
    ∀ c ∈ l, isBlank c = false := by
  obtain ⟨label, mem, spelled⟩ := List.any_eq_true.1 h
  exact solid_of_spells (List.all_eq_true.1 plain label mem) spelled

include marks

theorem after?_ofLabels : (Key.ofLabels ls mark).after? t = some r ↔
    ∃ label ∈ ls, ∃ c, mark c = true ∧ afterLabel? label t = some (c :: r) := by
  rw [Key.after?_eq_some]
  constructor
  · rintro ⟨l, c, spelled, -, hc, whole⟩
    obtain ⟨label, mem, spelled⟩ := List.any_eq_true.1 spelled
    exact ⟨label, mem, c, hc, afterLabel?_eq_some.2 ⟨l, spelled, whole⟩⟩
  · rintro ⟨label, mem, c, hc, h⟩
    obtain ⟨l, spelled, whole⟩ := afterLabel?_eq_some.1 h
    refine ⟨l, c, List.any_eq_true.2 ⟨label, mem, spelled⟩, fun x hx => ?_, hc, whole⟩
    have letters := List.all_eq_true.1 plain label mem
    by_contra marked
    have marked : (Key.ofLabels ls mark).mark x = true := by simpa using marked
    rcases marks x marked with blank | mark
    · rw [solid_of_spells letters spelled x hx] at blank
      cases blank
    · have sign : x ∈ signs := List.mem_append_left ['[', ']', '*'] mark
      exact not_mem_of_spells letters spelled sign hx

/-- A key shuns what clashes with its labels wherever one could begin. -/
theorem shuns_of_clashes {new : List Char} (hd : c ∈ ['[', '*'])
    (clash : ((c :: new).tails.all fun s => s.isEmpty || ls.all fun label => clashes label s) =
      true) : (Key.ofLabels ls mark).Shuns (c :: new) := by
  have sign : c ∈ signs := by
    simp only [List.mem_cons, List.not_mem_nil, or_false] at hd
    rcases hd with rfl | rfl <;> decide
  refine ⟨⟨c, new, rfl, ?_, fun l label mem => ?_⟩, fun s hs suffix x => ?_⟩
  · by_contra marked
    have marked := marks c (by simpa [Key.ofLabels] using marked)
    simp only [List.mem_cons, List.not_mem_nil, or_false] at hd
    rcases hd with rfl | rfl <;> exact absurd marked (by decide)
  · obtain ⟨w, hw, spelled⟩ := List.any_eq_true.1 label
    exact not_mem_of_spells (List.all_eq_true.1 plain w hw) spelled sign mem
  · cases key : (Key.ofLabels ls mark).after? (s ++ x) with
    | none => rfl
    | some r =>
      obtain ⟨label, mem, d, -, h⟩ := (after?_ofLabels plain marks).1 key
      have either := List.all_eq_true.1 clash s ((List.mem_tails _ _).2 suffix)
      rw [List.isEmpty_eq_false_iff.2 hs, Bool.false_or] at either
      rw [afterLabel?_of_clashes (List.all_eq_true.1 either label mem)] at h
      cases h

end

/-! ## Credentials and bearer tokens -/

/-- The key of a credential. -/
def credentialKey : Key := .ofLabels labels fun c => c == '=' || c == ':'

/-- The key of a bearer token. -/
def bearerKey : Key := .ofLabels ["bearer".toList] isBlank

/-- What stands for the password of a URI. -/
def asterisks : List Char := ['*', '*', '*']

theorem credential_plain : (labels.all fun label => label.all isLetter) = true := by
  decide

theorem credential_marks (c : Char) (hc : (c == '=' || c == ':') = true) :
    isBlank c = true ∨ c ∈ ['=', ':'] := by
  simpa using Or.inr hc

theorem bearer_plain : (["bearer".toList].all fun label => label.all isLetter) = true := by
  decide

theorem bearer_marks (c : Char) (hc : isBlank c = true) : isBlank c = true ∨ c ∈ ['=', ':'] :=
  .inl hc

theorem credentialKey_shuns_redacted : credentialKey.Shuns redacted :=
  shuns_of_clashes credential_plain credential_marks (by decide) (by decide)

theorem credentialKey_shuns_asterisks : credentialKey.Shuns asterisks :=
  shuns_of_clashes credential_plain credential_marks (by decide) (by decide)

theorem bearerKey_shuns_redacted : bearerKey.Shuns redacted :=
  shuns_of_clashes bearer_plain bearer_marks (by decide) (by decide)

theorem bearerKey_shuns_asterisks : bearerKey.Shuns asterisks :=
  shuns_of_clashes bearer_plain bearer_marks (by decide) (by decide)

theorem blanksAndWord_of_gap (ht : IsGap t) : blanksAndWord t = (t.length, 0) := by
  have all : t.takeWhile isBlank = t := List.takeWhile_eq_self_iff.2 ht
  simp [blanksAndWord, all]

theorem blanksAndWord_of_word {gap : List Char} (hg : IsGap gap) (hw : IsWord w) (ht : IsTail t) :
    blanksAndWord (gap ++ (w ++ t)) = (gap.length, w.length) := by
  have blanks : (gap ++ (w ++ t)).takeWhile isBlank = gap := by
    obtain ⟨c, w, rfl⟩ := List.exists_cons_of_ne_nil hw.ne_nil
    rw [List.takeWhile_append_of_pos hg, List.cons_append,
      List.takeWhile_cons_of_neg (by simp [hw.solid c List.mem_cons_self]), List.append_nil]
  have word : (w ++ t).takeWhile (fun c => !isBlank c) = w := by
    rw [List.takeWhile_append_of_pos fun c hc => by simp [hw.solid c hc]]
    cases t with
    | nil => simp
    | cons c t => simp [ht c rfl]
  simp [blanksAndWord, blanks, word]

theorem blanksAndWord_snd (t : List Char) : ((blanksAndWord t).2 == 0) = t.all isBlank := by
  rcases gap_or_word t with gap | ⟨gap, w, hg, hw, whole⟩
  · rw [blanksAndWord_of_gap gap, all_isBlank_iff.2 gap]
    rfl
  · have found := blanksAndWord_of_word hg hw (isTail_pastWord (t.dropWhile isBlank))
    rw [← beyond, ← whole] at found
    obtain ⟨c, w, rfl⟩ := List.exists_cons_of_ne_nil hw.ne_nil
    have first : isBlank c = false := hw.solid c List.mem_cons_self
    have all : t.all isBlank = false := by
      rw [whole]
      simp [first]
    rw [found, all]
    rfl

/-- The match of a label, a mark and the word behind them. -/
def labelled (mark : Char → Bool) (label : List Char) : Pattern := fun text =>
  (afterLabel? label text).bind fun rest =>
    match rest with
    | c :: rest =>
      if mark c && !rest.all isBlank then
        some ⟨redacted, label.length + 1 + (blanksAndWord rest).1 + (blanksAndWord rest).2⟩
      else none
    | [] => none

theorem labelled_eq_some {mark : Char → Bool} {label : List Char} {m : Match} :
    labelled mark label t = some m ↔ ∃ c rest, afterLabel? label t = some (c :: rest) ∧
      mark c = true ∧ ¬ IsGap rest ∧ m = ⟨redacted, t.length - (beyond rest).length⟩ := by
  -- Label, mark, blanks and word are what is in front of the rest.
  have size {c : Char} {rest : List Char} (h : afterLabel? label t = some (c :: rest))
      (some_word : ¬ IsGap rest) :
      label.length + 1 + (blanksAndWord rest).1 + (blanksAndWord rest).2 =
        t.length - (beyond rest).length := by
    obtain ⟨l, spelled, rfl⟩ := afterLabel?_eq_some.1 h
    rcases gap_or_word rest with gap | ⟨gap, w, hg, hw, whole⟩
    · exact absurd gap some_word
    · have found := blanksAndWord_of_word hg hw (isTail_pastWord (rest.dropWhile isBlank))
      have parts := congrArg List.length whole
      rw [← beyond, ← whole] at found
      rw [found]
      simp only [List.length_append, List.length_cons, length_of_spells spelled] at parts ⊢
      omega
  constructor
  · intro hm
    obtain ⟨rest, h, hm⟩ := Option.bind_eq_some_iff.1 hm
    cases rest with
    | nil => cases hm
    | cons c rest =>
      simp only at hm
      split at hm
      · rename_i both
        rw [Bool.and_eq_true, Bool.not_eq_true', ← Bool.not_eq_true, all_isBlank_iff] at both
        cases hm
        exact ⟨c, rest, h, both.1, both.2, by rw [size h both.2]⟩
      · cases hm
  · rintro ⟨c, rest, h, hc, gap, rfl⟩
    have all : rest.all isBlank = false := by simpa using mt all_isBlank_iff.1 gap
    simp only [labelled, h, Option.bind_some, hc, all, Bool.not_false, Bool.and_true, if_true,
      size h gap]

/-- A key with given labels is matched by one of the labels, whichever it is. -/
theorem pattern_ofLabels {ls : List (List Char)} {mark : Char → Bool}
    (plain : (ls.all fun label => label.all isLetter) = true)
    (marks : ∀ c, mark c = true → isBlank c = true ∨ c ∈ ['=', ':']) (t : List Char) :
    (Key.ofLabels ls mark).pattern t = (ls.filterMap fun label => labelled mark label t).head? := by
  have one (m : Match) : (Key.ofLabels ls mark).pattern t = some m ↔
      m ∈ ls.filterMap fun label => labelled mark label t := by
    simp only [Key.pattern_eq_some, after?_ofLabels plain marks, List.mem_filterMap,
      labelled_eq_some]
    constructor
    · rintro ⟨r, ⟨label, mem, c, hc, after⟩, gap, same⟩
      exact ⟨label, mem, c, r, after, hc, gap, same⟩
    · rintro ⟨label, mem, c, r, after, hc, gap, same⟩
      exact ⟨r, ⟨label, mem, c, hc, after⟩, gap, same⟩
  cases found : ls.filterMap fun label => labelled mark label t with
  | nil =>
    cases hp : (Key.ofLabels ls mark).pattern t with
    | none => rfl
    | some m =>
      have mem := (one m).1 hp
      rw [found] at mem
      cases mem
  | cons m rest => exact (one m).2 (found ▸ List.mem_cons_self)

/-- A credential is the word behind its key. -/
theorem credential_eq : credential = credentialKey.pattern := by
  funext t
  rw [credentialKey, pattern_ofLabels credential_plain credential_marks, credential]
  congr 2
  funext label
  unfold labelled
  congr 1
  funext rest
  cases rest with
  | nil => rfl
  | cons c rest =>
    have nested (x y : Bool) (o : Option Match) :
        (if x = true then if y = true then none else o else none) =
          if (x && !y) = true then o else none := by
      cases x <;> cases y <;> rfl
    simp only [blanksAndWord_snd]
    exact nested _ _ _

/-- A bearer token is the word behind its key. -/
theorem bearer_eq : bearer = bearerKey.pattern := by
  funext t
  rw [bearerKey, pattern_ofLabels bearer_plain bearer_marks, bearer]
  simp only [List.head?_filterMap, List.findSome?_singleton]
  unfold labelled
  congr 1
  funext rest
  cases rest with
  | nil => rfl
  | cons c rest =>
    cases hc : isBlank c with
    | false => simp [blanksAndWord, hc]
    | true =>
      have step : blanksAndWord (c :: rest) =
          ((blanksAndWord rest).1 + 1, (blanksAndWord rest).2) := by
        simp [blanksAndWord, hc]
      have size (b w : Nat) : 6 + (b + 1) + w = "bearer".toList.length + 1 + b + w := by
        rw [show "bearer".toList.length = 6 from rfl]
        omega
      have some_blank (b : Nat) : (b + 1 == 0) = false := rfl
      simp only [step, size, blanksAndWord_snd, some_blank, hc, Bool.false_or, Bool.true_and]
      cases rest.all isBlank <;> rfl

end Redaction
end Testbed

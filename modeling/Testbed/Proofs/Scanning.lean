import Testbed.Proofs.Cuts
import Testbed.Redaction.Sanitize

/-!
# Scanning for secrets

How a text is scanned from the left for the matches of a pattern.  One kind of pattern is a key,
which is a label with a character of a class behind it, and after optional blanks the word that it
announces.  `Edited` says what scanning makes of a text without saying where; from it follows what
is absent from the text that scanning leaves behind.
-/

namespace Testbed
namespace Redaction

open Text

variable {p q : Pattern} {c : Char} {s t t' w r h : List Char}

/-! ## Blanks and words -/

/-- Blanks only. -/
def IsGap (t : List Char) : Prop := ∀ c ∈ t, isBlank c = true

/-- Characters that are no blanks, at least one. -/
structure IsWord (t : List Char) : Prop where
  ne_nil : t ≠ []
  solid : ∀ c ∈ t, isBlank c = false

theorem isWord_singleton (hc : isBlank c = false) : IsWord [c] :=
  ⟨List.cons_ne_nil c [], fun _ hd => List.mem_singleton.1 hd ▸ hc⟩

/-- The last character of a text is no blank. -/
def EndsWithWord (t : List Char) : Prop := ∃ c, t.getLast? = some c ∧ isBlank c = false

theorem IsWord.last (hw : IsWord w) : EndsWithWord w :=
  ⟨w.getLast hw.ne_nil, List.getLast?_eq_some_getLast hw.ne_nil, hw.solid _ (List.getLast_mem _)⟩

/-- A text in which a word does not go on that stands before it. -/
def IsTail (t : List Char) : Prop := ∀ c, t.head? = some c → isBlank c = true

/-- The text behind the word at its head. -/
def pastWord (t : List Char) : List Char := t.dropWhile fun c => !isBlank c

/-- The text behind the first word. -/
def beyond (t : List Char) : List Char := pastWord (t.dropWhile isBlank)

theorem all_isBlank_iff : t.all isBlank = true ↔ IsGap t := List.all_eq_true

theorem isTail_nil : IsTail [] := nofun

theorem isTail_cons (hc : isBlank c = true) : IsTail (c :: t) := by
  rintro d ⟨⟩
  exact hc

theorem IsTail.pastWord_eq (ht : IsTail t) : pastWord t = t := by
  cases t with
  | nil => rfl
  | cons c t => exact List.dropWhile_cons_of_neg (by simp [ht c rfl])

theorem pastWord_append (hw : ∀ c ∈ w, isBlank c = false) : pastWord (w ++ t) = pastWord t :=
  List.dropWhile_append_of_pos fun c hc => by simp [hw c hc]

theorem isTail_pastWord (t : List Char) : IsTail (pastWord t) := by
  intro c hc
  have stops := List.head?_dropWhile_not (fun c => !isBlank c) t
  rw [show t.dropWhile (fun c => !isBlank c) = pastWord t from rfl, hc] at stops
  simpa using stops

theorem beyond_append {gap : List Char} (hg : IsGap gap) : beyond (gap ++ t) = beyond t := by
  rw [beyond, List.dropWhile_append_of_pos hg, beyond]

theorem beyond_word (hw : IsWord w) : beyond (w ++ t) = pastWord t := by
  obtain ⟨c, w, rfl⟩ := List.exists_cons_of_ne_nil hw.ne_nil
  have first : isBlank c = false := hw.solid c List.mem_cons_self
  rw [beyond, List.cons_append, List.dropWhile_cons_of_neg (by simp [first])]
  exact pastWord_append (w := c :: w) hw.solid

/-- A text consists of blanks only, or it has a first word. -/
theorem gap_or_word (t : List Char) :
    IsGap t ∨ ∃ gap w, IsGap gap ∧ IsWord w ∧ t = gap ++ (w ++ beyond t) := by
  have whole := List.takeWhile_append_dropWhile (p := isBlank) (l := t)
  have split := List.takeWhile_append_dropWhile (p := fun c => !isBlank c)
    (l := t.dropWhile isBlank)
  have blanks : IsGap (t.takeWhile isBlank) := fun c hc => List.mem_takeWhile_imp hc
  cases rest : t.dropWhile isBlank with
  | nil =>
    left
    rw [rest, List.append_nil] at whole
    exact whole ▸ blanks
  | cons c u =>
    right
    have first : isBlank c = false := by
      have stops := List.head?_dropWhile_not isBlank t
      simpa [rest] using stops
    refine ⟨_, (t.dropWhile isBlank).takeWhile fun c => !isBlank c, blanks, ⟨?_, ?_⟩, ?_⟩
    · simp [rest, first]
    · intro d hd
      simpa using List.mem_takeWhile_imp hd
    · rw [beyond, pastWord, split, whole]

/-- The end of two texts begins in one of them. -/
theorem suffix_append_cases (h : s <:+ w ++ t) :
    s <:+ t ∨ ∃ u, u ≠ [] ∧ u <:+ w ∧ s = u ++ t := by
  rcases List.suffix_or_suffix_of_suffix h (List.suffix_append w t) with inside | ⟨u, rfl⟩
  · exact .inl inside
  · cases u with
    | nil => exact .inl List.suffix_rfl
    | cons c u =>
      obtain ⟨v, whole⟩ := h
      rw [← List.append_assoc] at whole
      exact .inr ⟨c :: u, List.cons_ne_nil c u, ⟨v, List.append_cancel_right whole⟩, rfl⟩

/-! ## Scanning -/

/-- The pattern covers something, and no more than there is. -/
def Sized (p : Pattern) : Prop := ∀ t m, p t = some m → 0 < m.size ∧ m.size ≤ t.length

/-- Nowhere in the text does the pattern match. -/
def Absent (p : Pattern) (t : List Char) : Prop := ∀ s, s <:+ t → p s = none

theorem Absent.suffix (ht : Absent p t) (hs : s <:+ t) : Absent p s :=
  fun u hu => ht u (hu.trans hs)

theorem replaceFrom_eq_drop (p : Pattern) (k : Nat) (t : List Char) :
    replaceFrom p k t = replaceAll p (t.drop k) := by
  induction t generalizing k with
  | nil => simp [replaceFrom, replaceAll]
  | cons c t ih =>
    cases k with
    | zero => rfl
    | succ k => exact ih k

@[simp] theorem replaceAll_nil (p : Pattern) : replaceAll p [] = [] := rfl

theorem replaceAll_keep (hc : p (c :: t) = none) : replaceAll p (c :: t) = c :: replaceAll p t := by
  rw [replaceAll, replaceFrom, hc]
  rfl

theorem replaceAll_replace (hw : w ≠ []) (hm : p (w ++ t) = some ⟨r, w.length⟩) :
    replaceAll p (w ++ t) = r ++ replaceAll p t := by
  obtain ⟨c, w, rfl⟩ := List.exists_cons_of_ne_nil hw
  rw [List.cons_append] at hm
  rw [replaceAll, List.cons_append, replaceFrom, hm]
  simp [replaceFrom_eq_drop]

/-- What holds of the empty text, of a text whose head is kept if it holds of the rest, and of a
text whose head is replaced if it holds of what is behind the match, holds of every text. -/
@[elab_as_elim]
theorem scan_induction {motive : List Char → Prop} (sized : Sized p) (nil : motive [])
    (keep : ∀ c t, p (c :: t) = none → motive t → motive (c :: t))
    (replace : ∀ w r t, w ≠ [] → p (w ++ t) = some ⟨r, w.length⟩ → motive t → motive (w ++ t))
    (t : List Char) : motive t := by
  induction hn : t.length using Nat.strong_induction_on generalizing t with
  | _ n ih =>
    subst hn
    cases t with
    | nil => exact nil
    | cons c t =>
      cases hm : p (c :: t) with
      | none => exact keep c t hm (ih t.length (by simp) t rfl)
      | some m =>
        obtain ⟨some_size, enough⟩ := sized _ m hm
        -- The text is what is covered and the rest behind it.
        have whole : (c :: t).take m.size ++ (c :: t).drop m.size = c :: t :=
          List.take_append_drop m.size (c :: t)
        have length : ((c :: t).take m.size).length = m.size := List.length_take_of_le enough
        have shorter : ((c :: t).drop m.size).length < (c :: t).length := by
          rw [List.length_drop]
          omega
        rw [← whole]
        refine replace _ m.replacement _ ?_ ?_ (ih _ shorter _ rfl)
        · intro empty
          rw [empty] at length
          exact absurd length (Nat.ne_of_lt some_size)
        · rw [whole, hm, length]

/-- Where a pattern does not match, nothing is replaced. -/
theorem replaceAll_of_absent (ht : Absent p t) : replaceAll p t = t := by
  induction t with
  | nil => rfl
  | cons c t ih =>
    rw [replaceAll_keep (ht _ List.suffix_rfl), ih (ht.suffix (List.suffix_cons c t))]

/-- Characters at which no match begins are kept. -/
theorem replaceAll_skip (hw : ∀ c ∈ w, ∀ x, p (c :: x) = none) (t : List Char) :
    replaceAll p (w ++ t) = w ++ replaceAll p t := by
  induction w with
  | nil => rfl
  | cons c w ih =>
    have first : p (c :: (w ++ t)) = none := hw c List.mem_cons_self (w ++ t)
    rw [List.cons_append, replaceAll_keep first, ih fun d hd => hw d (List.mem_cons_of_mem c hd),
      List.cons_append]

/-! ## Keys -/

/-- What announces a secret: a label and behind it a character of a class. -/
structure Key where
  label : List Char → Bool
  mark : Char → Bool

namespace Key

variable {k : Key}

/-- What follows the key at the head of a text. -/
def after? (k : Key) (t : List Char) : Option (List Char) :=
  (splitFirst? k.mark t).bind fun cut => if k.label cut.1 then some cut.2 else none

/-- A key, optional blanks and a word. -/
def pattern (k : Key) : Pattern := fun t =>
  (k.after? t).bind fun rest =>
    if rest.all isBlank then none else some ⟨redacted, t.length - (beyond rest).length⟩

theorem after?_eq_some : k.after? t = some r ↔
    ∃ l c, k.label l = true ∧ (∀ x ∈ l, k.mark x = false) ∧ k.mark c = true ∧ t = l ++ c :: r := by
  constructor
  · intro h
    obtain ⟨⟨l, r'⟩, cut, h⟩ := Option.bind_eq_some_iff.1 h
    obtain ⟨c, hc, whole, before⟩ := of_splitFirst? cut
    split at h
    · rename_i label
      cases h
      exact ⟨l, c, label, before, hc, whole⟩
    · cases h
  · rintro ⟨l, c, label, before, hc, rfl⟩
    rw [after?, splitFirst?_append before hc]
    simp [label]

/-- Up to its first mark a text tells whether a key stands at its head. -/
theorem after?_append (ht : ∃ c ∈ t, k.mark c = true) (x : List Char) :
    k.after? (t ++ x) = (k.after? t).map (· ++ x) := by
  cases cut : splitFirst? k.mark t with
  | none =>
    obtain ⟨c, mem, hc⟩ := ht
    rw [splitFirst?_eq_none.1 cut c mem] at hc
    cases hc
  | some parts =>
    obtain ⟨l, r⟩ := parts
    obtain ⟨c, hc, rfl, before⟩ := of_splitFirst? cut
    rw [after?, after?, cut, List.append_assoc, List.cons_append, splitFirst?_append before hc]
    cases k.label l <;> simp

theorem after?_of_unmarked (ht : ∀ c ∈ t, k.mark c = false) : k.after? t = none := by
  rw [after?, splitFirst?_eq_none.2 ht]
  rfl

theorem suffix_of_after? (h : k.after? t = some r) : r <:+ t := by
  obtain ⟨l, c, -, -, -, rfl⟩ := after?_eq_some.1 h
  exact ⟨l ++ [c], by simp⟩

theorem pattern_of_none (h : k.after? t = none) : k.pattern t = none := by
  rw [pattern, h]
  rfl

theorem pattern_of_gap (h : k.after? t = some r) (hr : IsGap r) : k.pattern t = none := by
  rw [pattern, h, Option.bind_some, if_pos (all_isBlank_iff.2 hr)]

theorem pattern_eq_some {m : Match} : k.pattern t = some m ↔
    ∃ r, k.after? t = some r ∧ ¬ IsGap r ∧ m = ⟨redacted, t.length - (beyond r).length⟩ := by
  constructor
  · intro hm
    obtain ⟨r, key, hm⟩ := Option.bind_eq_some_iff.1 hm
    split at hm
    · cases hm
    · rename_i all
      cases hm
      exact ⟨r, key, mt all_isBlank_iff.2 all, rfl⟩
  · rintro ⟨r, key, gap, rfl⟩
    rw [pattern, key, Option.bind_some, if_neg (mt all_isBlank_iff.1 gap)]

/-- A key at the head of a text without a match has no word behind it. -/
theorem gap_of_pattern (h : k.pattern t = none) (key : k.after? t = some r) : IsGap r := by
  rw [pattern, key, Option.bind_some] at h
  split at h
  · rename_i all
    exact all_isBlank_iff.1 all
  · cases h

/-- A key with a word behind it is covered together with the word. -/
theorem pattern_of_word {gap x : List Char} (key : k.after? (h ++ (gap ++ (w ++ x))) =
    some (gap ++ (w ++ x))) (hg : IsGap gap) (hw : IsWord w) (hx : IsTail x) :
    k.pattern (h ++ (gap ++ (w ++ x))) = some ⟨redacted, (h ++ (gap ++ w)).length⟩ := by
  obtain ⟨c, hc⟩ := List.exists_mem_of_ne_nil w hw.ne_nil
  have some_word : (gap ++ (w ++ x)).all isBlank = false := by
    rw [List.all_eq_false]
    exact ⟨c, by simp [hc], by simp [hw.solid c hc]⟩
  have rest : beyond (gap ++ (w ++ x)) = x := by
    rw [beyond_append hg, beyond_word hw, hx.pastWord_eq]
  rw [pattern, key, Option.bind_some, some_word, rest]
  simp only [Bool.false_eq_true, if_false, List.length_append]
  congr 2
  omega

/-- A match is a key, blanks and the word up to its end. -/
theorem of_pattern {m : Match} (hm : k.pattern t = some m) :
    ∃ h gap w x, k.after? t = some (gap ++ (w ++ x)) ∧ h ≠ [] ∧ IsGap gap ∧ IsWord w ∧ IsTail x ∧
      t = h ++ (gap ++ (w ++ x)) ∧ m = ⟨redacted, (h ++ (gap ++ w)).length⟩ := by
  cases key : k.after? t with
  | none =>
    rw [pattern_of_none key] at hm
    cases hm
  | some r =>
    obtain ⟨l, c, -, -, -, rfl⟩ := after?_eq_some.1 key
    rcases gap_or_word r with gap | ⟨gap, w, hg, hw, whole⟩
    · rw [pattern_of_gap key gap] at hm
      cases hm
    · have tail : IsTail (beyond r) := isTail_pastWord _
      have split : l ++ c :: r = (l ++ [c]) ++ (gap ++ (w ++ beyond r)) := by
        rw [← whole, List.append_assoc, List.singleton_append]
      have found := pattern_of_word (k := k) (h := l ++ [c]) (split ▸ whole ▸ key) hg hw tail
      rw [← split, hm] at found
      exact ⟨l ++ [c], gap, w, beyond r, by rw [← whole], by simp, hg, hw, tail, split,
        Option.some.inj found⟩

/-- What a match covers. -/
theorem of_match (hm : k.pattern (w ++ t) = some ⟨r, w.length⟩) :
    r = redacted ∧ IsTail t ∧ ∃ h gap v, k.after? (w ++ t) = some (gap ++ (v ++ t)) ∧
      IsGap gap ∧ IsWord v ∧ w = h ++ (gap ++ v) := by
  obtain ⟨h, gap, v, x, key, -, hg, hv, hx, whole, same⟩ := of_pattern hm
  injection same with replaced size
  -- As much is covered as key, blanks and word are long.
  have parts : w ++ t = (h ++ (gap ++ v)) ++ x := by rw [whole]; simp
  obtain ⟨rfl, rfl⟩ := List.append_inj parts size
  exact ⟨replaced, hx, h, gap, v, key, hg, hv, rfl⟩

/-- A match covers a word and is replaced by what stands for a secret. -/
theorem edits_word (hm : k.pattern (w ++ t) = some ⟨r, w.length⟩) :
    (∃ c ∈ w, isBlank c = false) ∧ r = redacted := by
  obtain ⟨replaced, -, h, gap, v, -, -, hv, rfl⟩ := of_match hm
  obtain ⟨c, hc⟩ := List.exists_mem_of_ne_nil v hv.ne_nil
  exact ⟨⟨c, by simp [hc], hv.solid c hc⟩, replaced⟩

theorem sized_pattern (k : Key) : Sized k.pattern := by
  intro t m hm
  obtain ⟨h, gap, w, x, -, hh, -, -, -, rfl, rfl⟩ := of_pattern hm
  have := List.length_pos_iff.2 hh
  simp only [List.length_append]
  omega

end Key

/-! ## Edited texts -/

/-- A text with some of its parts edited, in which the pattern does not match where a character is
kept. -/
inductive Edited (p : Pattern) (edit : List Char → List Char → Prop) :
    List Char → List Char → Prop where
  | nil : Edited p edit [] []
  | keep {c : Char} {t t' : List Char} (none : p (c :: t) = none) (rest : Edited p edit t t') :
      Edited p edit (c :: t) (c :: t')
  | change {old new t t' : List Char} (change : edit old new) (rest : Edited p edit t t') :
      Edited p edit (old ++ t) (new ++ t')

variable {edit : List Char → List Char → Prop}

/-- Scanning edits what it replaces.  A second pattern has to be absent where the first one is. -/
theorem edited_replaceAll (sized : Sized q)
    (edits : ∀ w r t, q (w ++ t) = some ⟨r, w.length⟩ → edit w r) (t : List Char)
    (absent : ∀ s, s <:+ t → q s = none → p s = none) : Edited p edit t (replaceAll q t) := by
  induction t using scan_induction sized with
  | nil => exact .nil
  | keep c t hc ih =>
    rw [replaceAll_keep hc]
    exact .keep (absent _ List.suffix_rfl hc)
      (ih fun s hs => absent s (hs.trans (List.suffix_cons c t)))
  | replace w r t hw hm ih =>
    rw [replaceAll_replace hw hm]
    exact .change (edits w r t hm) (ih fun s hs => absent s (hs.trans (List.suffix_append w t)))

theorem Edited.keepAll (h : Edited p edit t t') (none : ∀ s, s ≠ [] → s <:+ w → p (s ++ t) = none) :
    Edited p edit (w ++ t) (w ++ t') := by
  induction w with
  | nil => exact h
  | cons c w ih =>
    refine .keep (none (c :: w) (List.cons_ne_nil c w) List.suffix_rfl) (ih fun s hs suffix => ?_)
    exact none s hs (suffix.trans (List.suffix_cons c w))

/-- Edits put something that begins with one of the marks in the place of a word. -/
structure Marked (edit : List Char → List Char → Prop) (isMark : Char → Prop) : Prop where
  old : ∀ o n, edit o n → ∃ c ∈ o, isBlank c = false
  new : ∀ o n, edit o n → ∃ c x, n = c :: x ∧ isMark c

variable {isMark : Char → Prop}

/-- Blanks stay as they are. -/
theorem Edited.gap_eq (edits : Marked edit isMark) (h : Edited p edit t t') (ht : IsGap t) :
    t' = t := by
  induction h with
  | nil => rfl
  | keep _ _ ih => rw [ih fun c hc => ht c (List.mem_cons_of_mem _ hc)]
  | change change _ _ =>
    obtain ⟨c, hc, solid⟩ := edits.old _ _ change
    rw [ht c (List.mem_append_left _ hc)] at solid
    cases solid

/-- What holds no mark at the head of an edited text has been kept. -/
theorem Edited.split (edits : Marked edit isMark) (h : Edited p edit t (w ++ t'))
    (hw : ∀ c ∈ w, ¬ isMark c) : ∃ s, t = w ++ s ∧ Edited p edit s t' := by
  induction w generalizing t with
  | nil => exact ⟨t, rfl, h⟩
  | cons c w ih =>
    generalize whole : c :: w ++ t' = u at h
    cases h with
    | nil => cases whole
    | keep _ rest =>
      obtain ⟨rfl, rfl⟩ := List.cons_eq_cons.1 whole
      obtain ⟨s, rfl, kept⟩ := ih rest fun d hd => hw d (List.mem_cons_of_mem c hd)
      exact ⟨s, rfl, kept⟩
    | change change rest =>
      obtain ⟨d, x, rfl, mark⟩ := edits.new _ _ change
      obtain ⟨rfl, -⟩ := List.cons_eq_cons.1 whole
      exact absurd mark (hw c List.mem_cons_self)

namespace Key

variable {k : Key}

/-- No key holds the character at the head of the text, and none begins in the text. -/
structure Shuns (k : Key) (new : List Char) : Prop where
  head : ∃ c x, new = c :: x ∧ k.mark c = false ∧ ∀ l, k.label l = true → c ∉ l
  apart : ∀ s, s ≠ [] → s <:+ new → ∀ x, k.after? (s ++ x) = none

/-- If only words have been edited and no key can come about with what has been put in their place,
then nowhere in the edited text is there a match. -/
theorem absent_of_edited (olds : ∀ o n, edit o n → ∃ c ∈ o, isBlank c = false)
    (news : ∀ o n, edit o n → k.Shuns n) (h : Edited k.pattern edit t t') :
    Absent k.pattern t' := by
  have edits : Marked edit fun c => k.mark c = false ∧ ∀ l, k.label l = true → c ∉ l := by
    refine ⟨olds, fun o n change => ?_⟩
    obtain ⟨c, x, whole, outside⟩ := (news o n change).head
    exact ⟨c, x, whole, outside⟩
  induction h with
  | nil =>
    intro s hs
    rw [List.suffix_nil.1 hs]
    rfl
  | @keep c t t' none rest ih =>
    intro s hs
    rcases List.suffix_cons_iff.1 hs with rfl | hs
    · cases key' : k.after? (c :: t') with
      | none => exact pattern_of_none key'
      | some r' =>
        -- The key was there before, so that only blanks can follow it.
        obtain ⟨l, d, label, before, mark, whole⟩ := after?_eq_some.1 key'
        have kept : Edited k.pattern edit (c :: t) ((l ++ [d]) ++ r') := by
          have same : (l ++ [d]) ++ r' = c :: t' := by rw [whole]; simp
          exact same ▸ .keep none rest
        obtain ⟨r, was, rest⟩ := kept.split edits fun x hx outside => by
          rcases List.mem_append.1 hx with hx | hx
          · exact outside.2 l label hx
          · rw [List.mem_singleton.1 hx, mark] at outside
            exact Bool.noConfusion outside.1
        have key : k.after? (c :: t) = some r :=
          after?_eq_some.2 ⟨l, d, label, before, mark, by rw [was]; simp⟩
        have gap := gap_of_pattern none key
        obtain rfl : r' = r := rest.gap_eq edits gap
        exact pattern_of_gap key' gap
    · exact ih s hs
  | @change old new t t' change rest ih =>
    intro s hs
    rcases suffix_append_cases hs with hs | ⟨u, some, hu, rfl⟩
    · exact ih s hs
    · exact pattern_of_none ((news _ _ change).apart u some hu t')

/-- Scanning leaves no match behind. -/
theorem absent_replaceAll (shuns : k.Shuns redacted) (t : List Char) :
    Absent k.pattern (replaceAll k.pattern t) := by
  refine absent_of_edited (fun o n change => change.1) ?_
    (edited_replaceAll (sized_pattern k) (fun _ _ _ => edits_word) t fun _ _ => id)
  rintro o n ⟨-, rfl⟩
  exact shuns

end Key

end Redaction
end Testbed

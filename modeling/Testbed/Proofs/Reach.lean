import Testbed.Proofs.Labels

/-!
# How far a match reaches

What scanning for the word behind a key makes of a text in two parts.  If no key begins in the first
part and ends in the second one, either the first word of the second part belongs to a match that
begins in front of it, or the second part is scanned as if it stood alone.  Where the first part
ends with a word and the second one begins with a blank, the two are scanned one after the other.
-/

namespace Testbed
namespace Redaction

open Text

variable {k : Key} {c : Char} {s t w l r y : List Char}

/-! ## The text behind the first word -/

/-- In front of a text either a word ends, or one begins that may go on in the text. -/
theorem beyond_append_cases (a : List Char) :
    (∃ x, x <:+ a ∧ ∀ t, beyond (a ++ t) = x ++ t) ∨
      ∀ c t, isBlank c = false → beyond (a ++ c :: t) = pastWord (c :: t) := by
  rcases gap_or_word a with gap | ⟨gap, w, hg, hw, whole⟩
  · refine .inr fun c t hc => ?_
    have word := isWord_singleton hc
    rw [beyond_append gap, ← List.singleton_append, beyond_word word, pastWord_append word.solid]
  · cases rest : beyond a with
    | nil =>
      refine .inr fun c t hc => ?_
      rw [whole, rest, List.append_nil, List.append_assoc, beyond_append hg, beyond_word hw]
    | cons d x =>
      have tail : IsTail (d :: x) := rest ▸ isTail_pastWord _
      refine .inl ⟨d :: x, ⟨gap ++ w, by rw [← rest, List.append_assoc, ← whole]⟩, fun t => ?_⟩
      have tail' : IsTail (d :: x ++ t) := isTail_cons (tail d rfl)
      calc beyond (a ++ t)
          = beyond (gap ++ (w ++ (d :: x ++ t))) := by rw [whole, rest]; simp
        _ = d :: x ++ t := by rw [beyond_append hg, beyond_word hw, tail'.pastWord_eq]

/-- A word in a text is the first word of what begins with the text. -/
theorem beyond_append_tail (ht : ¬ IsGap t) (hy : IsTail y) :
    ∃ x, x <:+ t ∧ beyond t = x ∧ beyond (t ++ y) = x ++ y := by
  rcases gap_or_word t with gap | ⟨gap, w, hg, hw, whole⟩
  · exact absurd gap ht
  · have tail : IsTail (beyond t ++ y) := by
      intro c hc
      cases rest : beyond t with
      | nil => exact hy c (by simpa [rest] using hc)
      | cons d x =>
        obtain rfl : d = c := by simpa [rest] using hc
        exact isTail_pastWord _ d (by rw [← beyond, rest]; rfl)
    refine ⟨beyond t, ⟨gap ++ w, by rw [List.append_assoc, ← whole]⟩, rfl, ?_⟩
    calc beyond (t ++ y)
        = beyond (gap ++ (w ++ (beyond t ++ y))) := by rw [← List.append_assoc w,
            ← List.append_assoc gap, ← whole]
      _ = beyond t ++ y := by rw [beyond_append hg, beyond_word hw, tail.pastWord_eq]

/-- A character of two texts one after the other stands in the first one or in the second one. -/
theorem append_eq_append_cons {u x l r : List Char} {d : Char} (h : u ++ x = l ++ d :: r) :
    (∃ v, u = l ++ d :: v ∧ r = v ++ x) ∨ ∃ v, l = u ++ v ∧ x = v ++ d :: r := by
  rcases List.append_eq_append_iff.1 h with ⟨v, rfl, rfl⟩ | ⟨v, rfl, behind⟩
  · exact .inr ⟨v, rfl, rfl⟩
  · cases v with
    | nil => exact .inr ⟨[], by simp, behind.symm⟩
    | cons e v =>
      obtain ⟨rfl, rfl⟩ := List.cons_eq_cons.1 behind
      exact .inl ⟨v, rfl, rfl⟩

namespace Key

/-- A key with a word behind it is replaced together with the word. -/
theorem replaceAll_of_after? (key : k.after? t = some r) (hr : ¬ IsGap r) :
    replaceAll k.pattern t = redacted ++ replaceAll k.pattern (beyond r) := by
  rcases gap_or_word r with gap | ⟨gap, w, hg, hw, whole⟩
  · exact absurd gap hr
  · obtain ⟨h, rfl⟩ := suffix_of_after? key
    obtain ⟨l, c, -, -, -, parts⟩ := after?_eq_some.1 key
    have tail : IsTail (beyond r) := isTail_pastWord _
    have found := pattern_of_word (k := k) (h := h) (whole ▸ key) hg hw tail
    have covered : h ++ r = (h ++ (gap ++ w)) ++ beyond r := by
      rw [List.append_assoc, List.append_assoc, ← whole]
    rw [← whole, covered] at found
    rw [covered]
    refine replaceAll_replace (fun empty => hw.ne_nil ?_) found
    exact (List.append_eq_nil_iff.1 (List.append_eq_nil_iff.1 empty).2).2

/-! ## Texts behind a text -/

/-- A key that begins in front of the texts ends there, wherever it begins and whatever the text
is. -/
def Apart (k : Key) (T : List Char → Prop) : Prop :=
  ∀ u, u ≠ [] → (∀ t, T t → k.after? (u ++ t) = none) ∨
    ∃ v, v <:+ u ∧ v.length < u.length ∧ ∀ t, T t → k.after? (u ++ t) = some (v ++ t)

/-- Either the word at the head of the texts belongs to a match that begins in front of them, or the
texts are scanned as they are. -/
theorem reach {T : List Char → Prop} (apart : k.Apart T)
    (solid : ∀ t, T t → ∃ c x, t = c :: x ∧ isBlank c = false) (a : List Char) :
    (∃ z, ∀ t, T t → replaceAll k.pattern (a ++ t) =
      z ++ (redacted ++ replaceAll k.pattern (pastWord t))) ∨
    (∃ z, ∀ t, T t → replaceAll k.pattern (a ++ t) = z ++ replaceAll k.pattern t) := by
  -- By induction on what stands in front: a match may skip more than one character of it.
  induction hn : a.length using Nat.strong_induction_on generalizing a with
  | _ n ih =>
    subst hn
    cases a with
    | nil => exact .inr ⟨[], fun t _ => rfl⟩
    | cons c a =>
      rcases apart (c :: a) (List.cons_ne_nil c a) with none | ⟨v, hv, shorter, key⟩
      · have step (t : List Char) (ht : T t) :
            replaceAll k.pattern (c :: a ++ t) = c :: replaceAll k.pattern (a ++ t) :=
          replaceAll_keep (pattern_of_none (none t ht))
        rcases ih a.length (by simp) a rfl with ⟨z, h⟩ | ⟨z, h⟩
        · exact .inl ⟨c :: z, fun t ht => by rw [step t ht, h t ht, List.cons_append]⟩
        · exact .inr ⟨c :: z, fun t ht => by rw [step t ht, h t ht, List.cons_append]⟩
      · have step (t : List Char) (ht : T t) : replaceAll k.pattern (c :: a ++ t) =
            redacted ++ replaceAll k.pattern (beyond (v ++ t)) := by
          refine replaceAll_of_after? (key t ht) fun gap => ?_
          obtain ⟨d, x, rfl, hd⟩ := solid t ht
          rw [gap d (by simp)] at hd
          cases hd
        rcases beyond_append_cases v with ⟨x, hx, ends⟩ | goes_on
        · -- The match ends in front of the texts, and what is left there is shorter.
          rcases ih x.length (hx.length_le.trans_lt shorter) x rfl with ⟨z, h⟩ | ⟨z, h⟩
          · exact .inl ⟨redacted ++ z, fun t ht => by
              rw [step t ht, ends, h t ht, List.append_assoc]⟩
          · exact .inr ⟨redacted ++ z, fun t ht => by
              rw [step t ht, ends, h t ht, List.append_assoc]⟩
        · refine .inl ⟨[], fun t ht => ?_⟩
          obtain ⟨d, x, rfl, hd⟩ := solid t ht
          rw [step _ ht, goes_on d x hd, List.nil_append]

/-! ## Kinds of keys and texts -/

/-- The labels of a key are words without a closing bracket, and it is no mark either. -/
structure Plain (k : Key) : Prop where
  ne_nil : ∀ l, k.label l = true → l ≠ []
  solid : ∀ l, k.label l = true → ∀ c ∈ l, isBlank c = false
  bracket : ∀ l, k.label l = true → ']' ∉ l
  mark : k.mark ']' = false

/-- A label that no label ends with. -/
structure Stem (k : Key) (l : List Char) : Prop where
  label : k.label l = true
  unmarked : ∀ c ∈ l, k.mark c = false
  alone : ∀ v, v ≠ [] → k.label (v ++ l) = false

/-- A text ends with a word and not with a key. -/
structure Ended (k : Key) (t : List Char) : Prop where
  last : EndsWithWord t
  key : ∀ u, u <:+ t → k.after? u ≠ some []

/-- Where no label can begin there is no match. -/
theorem Plain.pattern_cons (plain : k.Plain) (hc : ∀ l, k.label l = true → c ∉ l)
    (t : List Char) : k.pattern (c :: t) = none := by
  cases key : k.after? (c :: t) with
  | none => exact pattern_of_none key
  | some r =>
    obtain ⟨l, d, label, -, -, whole⟩ := after?_eq_some.1 key
    obtain ⟨e, l, rfl⟩ := List.exists_cons_of_ne_nil (plain.ne_nil l label)
    obtain ⟨rfl, -⟩ := List.cons_eq_cons.1 whole
    exact absurd List.mem_cons_self (hc _ label)

theorem Plain.not_mem (plain : k.Plain) (hc : isBlank c = true) (hl : k.label l = true) :
    c ∉ l := by
  intro mem
  rw [plain.solid l hl c mem] at hc
  cases hc

/-- Behind the texts with a label and a mark at their head, a key that begins before them ends. -/
theorem Stem.apart (stem : k.Stem l) (hc : k.mark c = true) :
    k.Apart fun t => ∃ y, t = l ++ c :: y := by
  intro u hu
  have shared (y : List Char) : k.after? (u ++ (l ++ c :: y)) =
      (k.after? (u ++ (l ++ [c]))).map (· ++ y) := by
    rw [← after?_append ⟨c, by simp, hc⟩]
    simp
  cases key : k.after? (u ++ (l ++ [c])) with
  | none =>
    refine .inl ?_
    rintro t ⟨y, rfl⟩
    rw [shared, key]
    rfl
  | some r =>
    right
    obtain ⟨l', d, label, unmarked, hd, whole⟩ := after?_eq_some.1 key
    rcases append_eq_append_cons whole with ⟨v, rfl, rfl⟩ | ⟨v, rfl, inside⟩
    · refine ⟨v, ⟨l' ++ [d], by simp⟩, by simp; omega, ?_⟩
      rintro t ⟨y, rfl⟩
      rw [shared, key]
      simp
    · -- The label in front of the mark would end with this label, or the mark would stand in it.
      rcases List.eq_nil_or_concat r with rfl | ⟨r, e, rfl⟩
      · obtain ⟨rfl, -⟩ := List.append_inj' inside rfl
        rw [stem.alone u hu] at label
        cases label
      · rw [List.concat_eq_append, ← List.cons_append, ← List.append_assoc] at inside
        obtain ⟨rfl, -⟩ := List.append_inj' inside rfl
        rw [stem.unmarked d (by simp)] at hd
        cases hd

/-- No key ends in a text without a mark. -/
theorem apart_of_unmarked (hw : ∀ c ∈ w, k.mark c = false) : k.Apart (· = w) := by
  intro u hu
  cases key : k.after? (u ++ w) with
  | none => exact .inl fun t ht => ht ▸ key
  | some r =>
    right
    obtain ⟨l, d, -, -, hd, whole⟩ := after?_eq_some.1 key
    rcases append_eq_append_cons whole with ⟨v, rfl, rfl⟩ | ⟨v, rfl, rfl⟩
    · exact ⟨v, ⟨l ++ [d], by simp⟩, by simp; omega, fun t ht => ht ▸ key⟩
    · rw [hw d (by simp)] at hd
      cases hd

/-- A text with a word without marks at its end does not end with a key. -/
theorem ended_append (hw : IsWord w) (unmarked : ∀ c ∈ w, k.mark c = false) (a : List Char) :
    k.Ended (a ++ w) := by
  obtain ⟨c, last, hc⟩ := hw.last
  refine ⟨⟨c, by simp [last], hc⟩, fun u hu key => ?_⟩
  obtain ⟨l, d, -, -, hd, rfl⟩ := after?_eq_some.1 key
  obtain ⟨v, whole⟩ := hu
  -- The mark of the key would be the last character of the word.
  have ends := congrArg List.getLast? whole
  rw [← List.append_assoc, List.getLast?_append, List.getLast?_append (l := a), last] at ends
  obtain rfl : d = c := by simpa using ends
  rw [unmarked d (List.mem_of_getLast? last)] at hd
  cases hd

/-- A key in a text that ends with a word has a word behind it. -/
theorem Ended.not_gap {x v : List Char} (ended : k.Ended t) (hx : x <:+ t)
    (key : k.after? x = some v) : ¬ IsGap v := by
  intro gap
  obtain ⟨e, last, he⟩ := ended.last
  rcases List.eq_nil_or_concat v with rfl | ⟨v, f, rfl⟩
  · exact ended.key x hx key
  · obtain ⟨z, rfl⟩ := (suffix_of_after? key).trans hx
    obtain rfl : f = e := by simpa using last
    rw [gap f (by simp)] at he
    cases he

/-- No key goes on behind a word, unless the mark of a label that ends there. -/
theorem after?_append_tail {x : List Char} (plain : k.Plain) (hy : IsTail y)
    (head : ∀ c, y.head? = some c → k.mark c = true → k.label x = false) :
    k.after? (x ++ y) = (k.after? x).map (· ++ y) := by
  cases own : k.after? x with
  | some r =>
    obtain ⟨l, d, -, -, hd, rfl⟩ := after?_eq_some.1 own
    rw [after?_append ⟨d, by simp, hd⟩, own]
  | none =>
    cases key : k.after? (x ++ y) with
    | none => rfl
    | some r =>
      obtain ⟨l, d, label, unmarked, hd, whole⟩ := after?_eq_some.1 key
      rcases append_eq_append_cons whole with ⟨v, inside, -⟩ | ⟨v, rfl, behind⟩
      · rw [after?_eq_some.2 ⟨l, d, label, unmarked, hd, inside⟩] at own
        cases own
      · cases v with
        | nil =>
          rw [List.append_nil, head d (by rw [behind]; rfl) hd] at label
          cases label
        | cons e v =>
          have blank := hy e (by rw [behind]; rfl)
          rw [plain.solid _ label e (by simp)] at blank
          cases blank

/-- A text that ends with a word and what follows this word are scanned one after the other, if no
key ends with the one and no label that ends with it has its mark at the head of the other. -/
theorem replaceAll_append (plain : k.Plain) (ended : k.Ended t) (hy : IsTail y)
    (head : ∀ c, y.head? = some c → k.mark c = true → ∀ u, u <:+ t → k.label u = false) :
    replaceAll k.pattern (t ++ y) = replaceAll k.pattern t ++ replaceAll k.pattern y := by
  -- The scan comes from suffix to suffix of the first text; each of them is shorter than the last.
  suffices parts : ∀ x, x <:+ t → replaceAll k.pattern (x ++ y) =
      replaceAll k.pattern x ++ replaceAll k.pattern y from parts t List.suffix_rfl
  intro x hx
  induction hn : x.length using Nat.strong_induction_on generalizing x with
  | _ n ih =>
    subst hn
    cases x with
    | nil => rfl
    | cons c x =>
      have split := after?_append_tail (x := c :: x) plain hy fun d hd mark => head d hd mark _ hx
      cases key : k.after? (c :: x) with
      | none =>
        rw [key, Option.map_none] at split
        calc replaceAll k.pattern (c :: x ++ y)
            = c :: replaceAll k.pattern (x ++ y) := replaceAll_keep (pattern_of_none split)
          _ = c :: (replaceAll k.pattern x ++ replaceAll k.pattern y) := by
              rw [ih x.length (by simp) x ((List.suffix_cons c x).trans hx) rfl]
          _ = replaceAll k.pattern (c :: x) ++ replaceAll k.pattern y := by
              rw [replaceAll_keep (pattern_of_none key), List.cons_append]
      | some v =>
        rw [key, Option.map_some] at split
        -- The match ends within the first text, since a word stands behind its key.
        have some_word := ended.not_gap hx key
        obtain ⟨x', hx', own, rest⟩ := beyond_append_tail some_word hy
        have within : x' <:+ c :: x := hx'.trans (suffix_of_after? key)
        have shorter : x'.length < (c :: x).length := by
          obtain ⟨l, d, -, -, -, whole⟩ := after?_eq_some.1 key
          have length := congrArg List.length whole
          have := hx'.length_le
          simp only [List.length_append, List.length_cons] at length ⊢
          omega
        have still : ¬ IsGap (v ++ y) := fun gap =>
          some_word fun e he => gap e (List.mem_append_left y he)
        calc replaceAll k.pattern (c :: x ++ y)
            = redacted ++ replaceAll k.pattern (x' ++ y) := by
              rw [replaceAll_of_after? split still, rest]
          _ = redacted ++ (replaceAll k.pattern x' ++ replaceAll k.pattern y) := by
              rw [ih _ shorter x' (within.trans hx) rfl]
          _ = replaceAll k.pattern (c :: x) ++ replaceAll k.pattern y := by
              rw [replaceAll_of_after? key some_word, own, List.append_assoc]

/-- With a word behind it a label is found at the head of a text. -/
theorem Stem.replaceAll_word (stem : k.Stem l) (hc : k.mark c = true) (hy : ¬ IsGap y) :
    replaceAll k.pattern (l ++ c :: y) = redacted ++ replaceAll k.pattern (beyond y) :=
  replaceAll_of_after? (after?_eq_some.2 ⟨l, c, stem.label, stem.unmarked, hc, rfl⟩) hy

/-- With nothing but blanks behind it a label is left as it is. -/
theorem Stem.replaceAll_gap (stem : k.Stem l) (hy : IsGap y) :
    replaceAll k.pattern (l ++ c :: y) = l ++ c :: y := by
  refine replaceAll_of_absent fun s hs => ?_
  cases key : k.after? s with
  | none => exact pattern_of_none key
  | some r =>
    obtain ⟨l', d, -, -, hd, rfl⟩ := after?_eq_some.1 key
    obtain ⟨z, whole⟩ := hs
    rw [← List.append_assoc] at whole
    -- The first mark is the one behind the label, so that only blanks follow the key.
    refine pattern_of_gap key fun x hx => hy x ?_
    rcases append_eq_append_cons whole.symm with ⟨v, rfl, -⟩ | ⟨v, -, behind⟩
    · rw [stem.unmarked d (by simp)] at hd
      cases hd
    · cases v with
      | nil => exact (List.cons_eq_cons.1 behind).2 ▸ hx
      | cons e v => exact (List.cons_eq_cons.1 behind).2 ▸ by simp [hx]

/-- Either a label belongs to a match that begins in front of it, or it is found. -/
theorem Stem.reach (plain : k.Plain) (stem : k.Stem l) (hc : k.mark c = true) (a : List Char) :
    (∃ z, ∀ y, replaceAll k.pattern (a ++ (l ++ c :: y)) =
      z ++ (redacted ++ replaceAll k.pattern (pastWord (c :: y)))) ∨
    (∃ z, (∀ y, ¬ IsGap y → replaceAll k.pattern (a ++ (l ++ c :: y)) =
        z ++ (redacted ++ replaceAll k.pattern (beyond y))) ∧
      ∀ y, IsGap y → replaceAll k.pattern (a ++ (l ++ c :: y)) = z ++ (l ++ c :: y)) := by
  have solid := plain.solid l stem.label
  have first (t : List Char) (ht : ∃ y, t = l ++ c :: y) :
      ∃ d x, t = d :: x ∧ isBlank d = false := by
    obtain ⟨y, rfl⟩ := ht
    obtain ⟨d, l, rfl⟩ := List.exists_cons_of_ne_nil (plain.ne_nil l stem.label)
    exact ⟨d, _, rfl, solid d List.mem_cons_self⟩
  rcases Key.reach (stem.apart hc) first a with ⟨z, h⟩ | ⟨z, h⟩
  · exact .inl ⟨z, fun y => by rw [h _ ⟨y, rfl⟩, pastWord_append solid]⟩
  · refine .inr ⟨z, fun y hy => ?_, fun y hy => ?_⟩
    · rw [h _ ⟨y, rfl⟩, stem.replaceAll_word hc hy]
    · rw [h _ ⟨y, rfl⟩, stem.replaceAll_gap hy]

/-- Either a word without marks belongs to a match that begins in front of it, or it is kept. -/
theorem reach_word (hw : IsWord w) (unmarked : ∀ c ∈ w, k.mark c = false) (a : List Char) :
    (∃ z, replaceAll k.pattern (a ++ w) = z ++ redacted) ∨
      ∃ z, replaceAll k.pattern (a ++ w) = z ++ w := by
  have first (t : List Char) (ht : t = w) : ∃ c x, t = c :: x ∧ isBlank c = false := by
    obtain ⟨c, x, rfl⟩ := List.exists_cons_of_ne_nil hw.ne_nil
    exact ⟨c, x, ht, hw.solid c List.mem_cons_self⟩
  rcases Key.reach (apart_of_unmarked unmarked) first a with ⟨z, h⟩ | ⟨z, h⟩
  · have past : pastWord w = [] := by
      rw [← List.append_nil w, pastWord_append hw.solid]
      rfl
    exact .inl ⟨z, by rw [h w rfl, past, replaceAll_nil, List.append_nil]⟩
  · have absent : Absent k.pattern w := fun s hs =>
      pattern_of_none (after?_of_unmarked fun c hc => unmarked c (hs.subset hc))
    exact .inr ⟨z, by rw [h w rfl, replaceAll_of_absent absent]⟩

theorem redacted_word : IsWord redacted := by
  have solid : redacted.all (fun c => !isBlank c) = true := by decide +kernel
  exact ⟨List.cons_ne_nil _ _, fun c hc => by simpa using List.all_eq_true.1 solid c hc⟩

/-- Scanning puts no blanks into a text without blanks. -/
theorem solid_replaceAll (solid : ∀ c ∈ w, isBlank c = false) :
    ∀ c ∈ replaceAll k.pattern w, isBlank c = false := by
  induction w using scan_induction (sized_pattern k) with
  | nil => simp
  | keep c t hc ih =>
    rw [replaceAll_keep hc]
    intro d hd
    rcases List.mem_cons.1 hd with rfl | hd
    · exact solid d List.mem_cons_self
    · exact ih (fun e he => solid e (List.mem_cons_of_mem c he)) d hd
  | replace w r t hw hm ih =>
    obtain ⟨-, rfl⟩ := edits_word hm
    rw [replaceAll_replace hw hm]
    intro d hd
    rcases List.mem_append.1 hd with hd | hd
    · exact redacted_word.solid d hd
    · exact ih (fun e he => solid e (List.mem_append_right w he)) d hd

/-- Scanning makes a word of a word. -/
theorem isWord_replaceAll (hw : IsWord w) : IsWord (replaceAll k.pattern w) := by
  refine ⟨?_, solid_replaceAll hw.solid⟩
  obtain ⟨c, w, rfl⟩ := List.exists_cons_of_ne_nil hw.ne_nil
  rw [replaceAll, replaceFrom]
  cases hm : k.pattern (c :: w) with
  | none => simp
  | some m =>
    obtain ⟨_, -, -, rfl⟩ := pattern_eq_some.1 hm
    exact List.append_ne_nil_of_left_ne_nil redacted_word.ne_nil _

end Key

end Redaction
end Testbed

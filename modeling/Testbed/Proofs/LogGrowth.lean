import Mathlib.Data.List.Infix
import Testbed.Proofs.Undisturbed
import Testbed.Readiness.Probe

/-!
# Growing logs

A container goes on logging while it is polled, and a poll may see the log cut off in the middle of
a character.  `Text.Continues` relates the text of such a log to that of a longer one: both agree
up to the cut, where the shorter one has a replacement character if a character has been cut off.
A needle without replacement characters is found in the longer text at least as often.

Nothing is said of needles that hold a replacement character: they may be found at a cut and be
gone once the rest of the character is there.
-/

namespace Testbed

namespace Text

/-! ## Decoding bytes and more bytes -/

/-- The character that stands for what cannot be decoded. -/
def replacementChar : Char := Char.ofNat 0xFFFD

/-- A text goes on where another one ends, which may have a replacement character for its next
character. -/
inductive Continues : List Char → List Char → Prop where
  | more (rest : List Char) : Continues [] rest
  | cut (c : Char) (rest : List Char) : Continues [replacementChar] (c :: rest)
  | same (c : Char) {short long : List Char} (h : Continues short long) :
      Continues (c :: short) (c :: long)

/-- More bytes only matter for a character that all bytes so far belong to. -/
theorem continueChar_append (low high used bits need : Nat) (rest more : List UInt8) :
    continueChar low high used bits need (rest ++ more) =
        continueChar low high used bits need rest ∨
      continueChar low high used bits need rest = .truncated (used + rest.length) := by
  induction rest generalizing low high used bits need with
  | nil =>
    cases need with
    | zero => exact .inl rfl
    | succ need => exact .inr rfl
  | cons b rest ih =>
    cases need with
    | zero => exact .inl rfl
    | succ need =>
      simp only [List.cons_append, continueChar]
      split
      · rcases ih 0x80 0xBF (used + 1) (bits * 64 + (b.toNat - 0x80)) need with same | cut
        · exact .inl same
        · refine .inr ?_
          rw [cut, List.length_cons]
          congr 1
          omega
      · exact .inl rfl

theorem decodeStep_append (b : UInt8) (rest more : List UInt8) :
    decodeStep b (rest ++ more) = decodeStep b rest ∨
      decodeStep b rest = .truncated (1 + rest.length) := by
  unfold decodeStep
  split
  · exact .inl rfl
  · split
    · exact .inl rfl
    · exact continueChar_append ..

theorem decodeReplacingFrom_length (bytes : List UInt8) :
    decodeReplacingFrom bytes.length bytes = [] := by
  induction bytes with
  | nil => rfl
  | cons b rest ih => exact ih

/-- The text of more bytes continues the text of the bytes so far. -/
theorem decodeReplacingFrom_append (skip : Nat) (bytes more : List UInt8) :
    Continues (decodeReplacingFrom skip bytes) (decodeReplacingFrom skip (bytes ++ more)) := by
  -- By induction on the steps of the decoder: it takes the same steps until it meets the end.
  fun_induction decodeReplacingFrom skip bytes with
  | case1 skip => exact .more _
  | case2 skip b rest ih => exact ih
  | case3 b rest d ih =>
    rw [List.cons_append, decodeReplacingFrom]
    rcases decodeStep_append b rest more with same | cut
    · rw [same]
      exact .same _ ih
    · have ended : decodeReplacingFrom (d.size - 1) rest = [] := by
        have size : d.size - 1 = rest.length := by simp [d, cut, Decoded.size]
        rw [size, decodeReplacingFrom_length]
      have replaced : d.replacement = replacementChar := by
        simp [d, cut, Decoded.replacement, replacementChar]
      rw [ended, replaced]
      exact .cut _ _

/-! ## Counting in a text and in a longer one -/

variable {needle short long text : List Char}

theorem dropPrefix?_isSome : (dropPrefix? needle text).isSome = true ↔ needle <+: text := by
  induction needle generalizing text with
  | nil => simp [dropPrefix?]
  | cons n needle ih =>
    cases text with
    | nil => simp [dropPrefix?]
    | cons c text =>
      rw [dropPrefix?, List.cons_prefix_cons, ← ih]
      by_cases h : n = c
      · simp [h]
      · simp [h]

/-- A needle that is longer than the text does not occur in it. -/
theorem countFrom_eq_zero (h : text.length < needle.length) : countFrom needle 0 text = 0 := by
  induction text with
  | nil => rfl
  | cons c text ih =>
    have absent : ¬ needle <+: c :: text := fun found => Nat.not_lt.2 found.length_le h
    rw [countFrom, if_neg (mt dropPrefix?_isSome.1 absent)]
    exact ih (Nat.lt_of_succ_lt h)

/-- A needle without replacement characters does not begin with one. -/
theorem not_isPrefix_replacement (clean : replacementChar ∉ needle) (some : needle ≠ []) :
    ¬ needle <+: replacementChar :: text := by
  intro found
  cases needle with
  | nil => exact some rfl
  | cons n needle =>
    rw [(List.cons_prefix_cons.1 found).1] at clean
    exact clean List.mem_cons_self

namespace Continues

theorem length_le (h : Continues short long) : short.length ≤ long.length := by
  induction h with
  | more rest => exact Nat.zero_le _
  | cut c rest => simp
  | same c h ih => exact Nat.succ_le_succ ih

/-- What the shorter text starts with, the longer one does. -/
theorem isPrefix (h : Continues short long) (clean : replacementChar ∉ needle)
    (found : needle <+: short) : needle <+: long := by
  induction h generalizing needle with
  | more rest =>
    rw [List.prefix_nil.1 found]
    exact List.nil_prefix
  | cut c rest =>
    by_cases some : needle = []
    · rw [some]
      exact List.nil_prefix
    · exact absurd found (not_isPrefix_replacement clean some)
  | same c h ih =>
    cases needle with
    | nil => exact List.nil_prefix
    | cons n needle =>
      rcases List.cons_prefix_cons.1 found with ⟨rfl, tail⟩
      exact List.cons_prefix_cons.2 ⟨rfl, ih (fun hn => clean (List.mem_cons_of_mem _ hn)) tail⟩

/-- What the longer text starts with, the shorter one does unless its end is reached. -/
theorem of_isPrefix (h : Continues short long) (inside : needle.length < short.length)
    (found : needle <+: long) : needle <+: short := by
  induction h generalizing needle with
  | more rest => exact absurd inside (Nat.not_lt_zero _)
  | cut c rest =>
    rw [List.eq_nil_of_length_eq_zero (Nat.lt_one_iff.1 inside)]
    exact List.nil_prefix
  | same c h ih =>
    cases needle with
    | nil => exact List.nil_prefix
    | cons n needle =>
      rcases List.cons_prefix_cons.1 found with ⟨rfl, tail⟩
      exact List.cons_prefix_cons.2 ⟨rfl, ih (Nat.lt_of_succ_lt_succ inside) tail⟩

theorem countFrom_le (h : Continues short long) (clean : replacementChar ∉ needle)
    (some : needle ≠ []) (skip : Nat) :
    countFrom needle skip short ≤ countFrom needle skip long := by
  induction h generalizing skip with
  | more rest => simp [countFrom]
  | cut c rest =>
    -- The needle does not occur at the replacement character.
    have none : countFrom needle skip [replacementChar] = 0 := by
      cases skip with
      | zero =>
        rw [countFrom, if_neg (mt dropPrefix?_isSome.1 (not_isPrefix_replacement clean some))]
        rfl
      | succ skip => rfl
    rw [none]
    exact Nat.zero_le _
  | @same c short long h ih =>
    cases skip with
    | succ skip => exact ih skip
    | zero =>
      by_cases found : needle <+: c :: short
      · have later : needle <+: c :: long := (Continues.same c h).isPrefix clean found
        rw [countFrom, countFrom, if_pos (dropPrefix?_isSome.2 found),
          if_pos (dropPrefix?_isSome.2 later)]
        exact Nat.succ_le_succ (ih _)
      · rw [countFrom, countFrom, if_neg (mt dropPrefix?_isSome.1 found)]
        split
        · rename_i later
          -- The needle reaches beyond the end of the shorter text, which is too short for it.
          have outside : ¬ needle.length < (c :: short).length := fun inside =>
            found ((Continues.same c h).of_isPrefix inside (dropPrefix?_isSome.1 later))
          rw [countFrom_eq_zero (Nat.not_lt.1 outside)]
          exact Nat.zero_le _
        · exact ih 0

/-- A needle without replacement characters occurs at least as often in the longer text. -/
theorem count_le (h : Continues short long) (clean : replacementChar ∉ needle) :
    count needle short ≤ count needle long := by
  unfold count
  cases needle with
  | nil => exact Nat.succ_le_succ h.length_le
  | cons n needle => exact h.countFrom_le clean (List.cons_ne_nil n needle) 0

end Continues
end Text

/-! ## The probe -/

/-- A world hands out the log of a container: the client can be opened, the container is found and
its log is read. -/
inductive World.HandsOut (w : World) (id : String) (bytes : List UInt8) : Prop where
  | read {w₁ w₂ w₃ : World} {found : Engine.Snapshot}
      (opened : w.perform (.openClient false) = some (.ok (), w₁))
      (finds : w₁.perform (.engine (.find id)) = some (.ok found, w₂))
      (reads : w₂.perform (.engine (.readLogs id)) = some (.ok bytes, w₃))

namespace Readiness

variable {w w' : World} {id needle : String} {occurrences : Int} {bytes more : List UInt8}

/-- The probe for a text in a log answers whether the text occurs in it often enough. -/
theorem run_logContains (h : w.HandsOut id bytes) (needle : String) (occurrences : Int) :
    (World.run (logContains id needle occurrences) w).1 =
      .ok (decide (occurrences ≤ (Text.count needle.toList (Text.decodeReplacing bytes) : Int))) := by
  rcases h with ⟨opened, finds, reads⟩
  have logs : Task.Ends (Client.containerLogs id) w
      [⟨.openClient false, .ok ()⟩, ⟨.engine (.find id), .ok _⟩, ⟨.engine (.readLogs id), .ok bytes⟩]
      (.ok (some (String.ofList (Text.decodeReplacing bytes)))) _ :=
    .unhandled_ok (.call opened (.call finds (.call reads (.done _ _))))
  have ends : Task.Ends (logContains id needle occurrences) w _ _ _ := logs.andThen (.done _ _)
  rw [ends.run_eq, String.toList_ofList]

/-- A text that has been logged often enough is found by every later poll: whatever has happened to
the world, and wherever the log was cut off, if the log has grown then the probe succeeds again. -/
theorem logged_text_is_found_again (clean : Text.replacementChar ∉ needle.toList)
    (now : w.HandsOut id bytes) (later : w'.HandsOut id (bytes ++ more))
    (found : (World.run (logContains id needle occurrences) w).1 = .ok true) :
    (World.run (logContains id needle occurrences) w').1 = .ok true := by
  have grown : Text.Continues (Text.decodeReplacing bytes) (Text.decodeReplacing (bytes ++ more)) :=
    Text.decodeReplacingFrom_append 0 bytes more
  rw [run_logContains now, Except.ok.injEq, decide_eq_true_eq] at found
  rw [run_logContains later, Except.ok.injEq, decide_eq_true_eq]
  exact Int.le_trans found (Int.ofNat_le.2 (grown.count_le clean))

/-- A world with a container that has logged some bytes. -/
def loggingWorld (bytes : List UInt8) : World where
  engine := { containers := [{ id := "db", name := "db", status := "running", logs := some bytes }] }

theorem loggingWorld_handsOut (bytes : List UInt8) : (loggingWorld bytes).HandsOut "db" bytes :=
  .read rfl rfl rfl

/-- The log is cut off in the third one of its characters. -/
theorem logged_text_is_found_again_of_cut :
    Text.replacementChar ∉ "ok".toList ∧
      (loggingWorld [0x6F, 0x6B, 0xE2, 0x82]).HandsOut "db" [0x6F, 0x6B, 0xE2, 0x82] ∧
      (loggingWorld [0x6F, 0x6B, 0xE2, 0x82, 0xAC]).HandsOut "db"
        ([0x6F, 0x6B, 0xE2, 0x82] ++ [0xAC]) ∧
      (World.run (logContains "db" "ok") (loggingWorld [0x6F, 0x6B, 0xE2, 0x82])).1 = .ok true ∧
      (World.run (logContains "db" "ok") (loggingWorld [0x6F, 0x6B, 0xE2, 0x82, 0xAC])).1 =
        .ok true := by
  have clean : Text.replacementChar ∉ "ok".toList := by decide
  have now := loggingWorld_handsOut [0x6F, 0x6B, 0xE2, 0x82]
  have later := loggingWorld_handsOut ([0x6F, 0x6B, 0xE2, 0x82] ++ [0xAC])
  have found : (World.run (logContains "db" "ok") (loggingWorld [0x6F, 0x6B, 0xE2, 0x82])).1 =
      .ok true := by
    rw [run_logContains now, Except.ok.injEq]
    decide
  exact ⟨clean, now, later, found, logged_text_is_found_again clean now later found⟩

/-- A replacement character at a cut is gone once the rest of the character is there. -/
example : Text.count [Text.replacementChar] (Text.decodeReplacing [0xE2, 0x82]) = 1 ∧
    Text.count [Text.replacementChar] (Text.decodeReplacing ([0xE2, 0x82] ++ [0xAC])) = 0 := by
  decide

end Readiness
end Testbed

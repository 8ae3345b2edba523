import Mathlib.Data.List.Basic
import Testbed.Client.Port
import Testbed.Engine.State

/-!
# Well-formed inspection data

Inspection data in which every port that is bound names a host port.  In such data a port is found
or said not to be published, and no other error is raised.  The data that an engine makes of its
own bindings is well formed.
-/

namespace Testbed

/-! ## Numbers as texts -/

namespace Text

/-- The code point of an ASCII digit. -/
theorem toNat_of_isDigit {c : Char} (h : c.isDigit = true) : 48 ≤ c.toNat ∧ c.toNat ≤ 57 := by
  simpa [Char.isDigit, UInt32.le_iff_toNat_le] using h

theorem asciiDigit_digit {c : Char} (h : c.isDigit = true) : asciiDigit c = c := by
  have range := toNat_of_isDigit h
  have found : digitValue? c = some (c.toNat - 48) := by
    have first : (0x30 ≤ c.toNat && c.toNat < 0x30 + 10) = true := by
      simp only [Bool.and_eq_true, decide_eq_true_eq]
      omega
    simp [digitValue?, zeros, List.find?_cons_of_pos, first]
  have value : 48 + (c.toNat - 48) = c.toNat := by omega
  simp [asciiDigit, found, value]

theorem isWhite_digit {c : Char} (h : c.isDigit = true) : isWhite c = false := by
  have range := toNat_of_isDigit h
  simp only [isWhite, Bool.or_eq_false_iff, Bool.and_eq_false_iff, decide_eq_false_iff_not,
    beq_eq_false_iff_ne]
  omega

/-- Nothing is trimmed from a text without characters of the class. -/
theorem trimBoth_eq {drop : Char → Bool} {cs : List Char} (h : ∀ c ∈ cs, drop c = false) :
    trimBoth drop cs = cs := by
  have kept {cs : List Char} (h : ∀ c ∈ cs, drop c = false) : cs.dropWhile drop = cs := by
    cases cs with
    | nil => rfl
    | cons c rest => exact List.dropWhile_cons_of_neg (by simp [h c])
  rw [trimBoth, kept h, kept (by simpa using h), List.reverse_reverse]

end Text

namespace Decimal

variable {cs : List Char}

/-- The text is a run of ASCII digits. -/
structure Digits (cs : List Char) : Prop where
  some_digit : cs ≠ []
  all : ∀ c ∈ cs, c.isDigit = true

theorem digits_toDigits (n : Nat) : Digits (Nat.toDigits 10 n) where
  some_digit := Nat.toDigits_ne_nil
  all := fun _ => Nat.isDigit_of_mem_toDigits (by decide) (by decide)

theorem natOf?_digits (h : Digits cs) : natOf? cs = some (Nat.ofDigitChars 10 cs 0) := by
  have fold (cs : List Char) (n : Nat) (all : ∀ c ∈ cs, c.isDigit = true) :
      cs.foldl (fun acc c => do
        let n ← acc
        if c.isDigit then some (n * 10 + (c.toNat - 48)) else none) (some n) =
          some (Nat.ofDigitChars 10 cs n) := by
    induction cs generalizing n with
    | nil => rfl
    | cons c rest ih =>
      have digit := all c List.mem_cons_self
      have others : ∀ c ∈ rest, c.isDigit = true := fun c hc => all c (List.mem_cons_of_mem _ hc)
      rw [Nat.ofDigitChars_cons, ← ih _ others, List.foldl_cons]
      simp [digit, Nat.mul_comm]
  rw [natOf?, if_neg (by simpa using h.some_digit), fold cs 0 h.all]

theorem dropUnderscores?_digits (h : Digits cs) : dropUnderscores? cs = some cs := by
  have plain : ∀ c ∈ cs, (c == '_') = false := by
    intro c hc
    have digit := h.all c hc
    simp only [beq_eq_false_iff_ne]
    rintro rfl
    cases digit
  have sound (cs : List Char) (plain : ∀ c ∈ cs, (c == '_') = false) (after : Bool)
      (h : after = true → cs ≠ []) : dropUnderscores?.sound after cs = true := by
    induction cs generalizing after with
    | nil => simpa [dropUnderscores?.sound] using h
    | cons c rest ih =>
      rw [dropUnderscores?.sound, plain c List.mem_cons_self]
      exact ih (fun c hc => plain c (List.mem_cons_of_mem _ hc)) false nofun
  have kept : cs.filter (· != '_') = cs :=
    List.filter_eq_self.2 fun c hc => by simpa using plain c hc
  rw [dropUnderscores?, sound cs plain true fun _ => h.some_digit, kept]
  rfl

theorem splitSign_digits (h : Digits cs) : splitSign cs = (false, cs) := by
  unfold splitSign
  split
  · cases h.all '-' List.mem_cons_self
  · cases h.all '+' List.mem_cons_self
  · rfl

/-- The decimal digits of a number spell the number. -/
theorem portInt?_toString (n : Nat) : portInt? (toString n) = some (n : Int) := by
  have digits := digits_toDigits n
  have trimmed : Text.trimBoth Text.isWhite (Nat.toDigits 10 n) = Nat.toDigits 10 n :=
    Text.trimBoth_eq fun c hc => Text.isWhite_digit (digits.all c hc)
  have ascii : (Nat.toDigits 10 n).map Text.asciiDigit = Nat.toDigits 10 n := by
    refine (List.map_congr_left ?_).trans (List.map_id _)
    exact fun c hc => Text.asciiDigit_digit (digits.all c hc)
  have value : natOf? (Nat.toDigits 10 n) = some n := by
    rw [natOf?_digits digits, Nat.ofDigitChars_ten_toDigits]
  simp [portInt?, trimmed, ascii, intOf?, splitSign_digits digits,
    dropUnderscores?_digits digits, value]

end Decimal

/-! ## Inspection data -/

namespace Port

/-- What a port is bound to: nothing, or first of all to a host port. -/
inductive Binding : Json → Prop where
  | nothing {j : Json} (h : j.truthy = false) : Binding j
  | hostPort {fields : List (String × Json)} {rest : List Json} {value : Json} {n : Int}
      (found : Json.lookup "HostPort" fields = some value) (number : integer value = .ok n) :
      Binding (.arr (.obj fields :: rest))

/-- What the ports of a container are bound to. -/
inductive Bindings : Json → Prop where
  | nothing {j : Json} (h : j.truthy = false) : Bindings j
  | ports {fields : List (String × Json)}
      (bound : ∀ name j, Json.lookup name fields = some j → Binding j) : Bindings (.obj fields)

/-- Inspection data that tells what the ports of a container are bound to. -/
inductive WellFormed : Json → Prop where
  | settings {fields settings : List (String × Json)} {ports : Json}
      (network : Json.lookup "NetworkSettings" fields = some (.obj settings))
      (found : Json.lookup "Ports" settings = some ports) (bindings : Bindings ports) :
      WellFormed (.obj fields)

variable {j : Json}

theorem bindings_empty : Bindings (.obj []) := .nothing rfl

/-- In well-formed data a port has a host port or is not published. -/
theorem WellFormed.published (h : WellFormed j) (id : String) (port : Int) :
    (∃ n, published id port j = .ok n) ∨
      published id port j = .error (unpublished id port) := by
  obtain ⟨network, found, bindings⟩ := h
  simp only [Port.published, field, network, found, bind, Except.bind]
  cases bindings with
  | nothing unbound => exact .inr (by simp [unbound, Json.lookup])
  | @ports fields bound =>
    cases some_port : (Json.obj fields).truthy with
    | false => exact .inr (by simp [Json.lookup])
    | true =>
      simp only [if_true]
      cases look : Json.lookup s!"{port}/tcp" fields with
      | none => exact .inr rfl
      | some mapping =>
        cases bound _ _ look with
        | nothing unbound => exact .inr (by simp [unbound])
        | @hostPort _ _ _ n found number =>
          refine .inl ⟨n, ?_⟩
          simp [Json.truthy, first, found, number]

end Port

namespace Engine

/-- The engine tells what ports are bound to as it should. -/
structure TellsPorts (e : Engine) : Prop where
  attributes : ∀ j, e.attributes = some j → Port.WellFormed j
  portMap : ∀ j, e.portMap = some j → Port.Bindings j

variable {e : Engine}

/-- The engine's own map of ports names their host ports. -/
theorem TellsPorts.portsOf (h : e.TellsPorts) (k : Container) : Port.Bindings (e.portsOf k) := by
  unfold Engine.portsOf
  split
  · exact h.portMap _ ‹_›
  · split
    · exact Port.bindings_empty
    · refine .ports fun name j look => ?_
      rcases Option.map_eq_some_iff.1 look with ⟨field, found, rfl⟩
      rcases List.mem_map.1 (List.mem_of_find?_eq_some found) with ⟨b, -, rfl⟩
      refine .hostPort (n := b.2) rfl ?_
      simp only [Port.integer, Decimal.portInt?_toString]

theorem TellsPorts.snapshot (h : e.TellsPorts) (k : Container) :
    Port.WellFormed (e.snapshot k).attributes := by
  unfold Engine.snapshot
  cases given : e.attributes with
  | some j => exact h.attributes j given
  | none => exact .settings rfl rfl (h.portsOf k)

end Engine
end Testbed

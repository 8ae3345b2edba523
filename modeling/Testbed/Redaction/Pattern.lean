import Testbed.Text.Blank
import Testbed.Text.Lower

/-!
# Patterns of secrets

Three patterns of secrets in a message: a labelled credential, a bearer token, and the password of
a URI.  Each pattern looks at the head of a text and answers how it is replaced and how many
characters it covers; `replaceAll` replaces every match from the left.
-/

namespace Testbed
namespace Redaction

/-- A match at the head of a text: what replaces it and how many characters it covers. -/
structure Match where
  replacement : List Char
  size : Nat
  deriving Repr, DecidableEq

/-- A pattern finds a match at the head of a text. -/
abbrev Pattern := List Char → Option Match

/-- Replacement from the left, passing over the next `skip` characters. -/
def replaceFrom (p : Pattern) : Nat → List Char → List Char
  | _, [] => []
  | skip + 1, _ :: rest => replaceFrom p skip rest
  | 0, c :: rest =>
    match p (c :: rest) with
    | some m => m.replacement ++ replaceFrom p (m.size - 1) rest
    | none => c :: replaceFrom p 0 rest

/-- The text with every match replaced. -/
def replaceAll (p : Pattern) (text : List Char) : List Char := replaceFrom p 0 text

/-- A character stands for a small letter of a label, whatever its case. -/
def standsFor (letter c : Char) : Bool :=
  c.toLower == letter ||
    (letter == 's' && c.toNat == 0x17F) ||
    (letter == 'k' && c.toNat == 0x212A) ||
    (letter == 'i' && (c.toNat == 0x130 || c.toNat == 0x131))

/-- What follows a label at the head of a text. -/
def afterLabel? : List Char → List Char → Option (List Char)
  | [], text => some text
  | _ :: _, [] => none
  | l :: label, c :: text => if standsFor l c then afterLabel? label text else none

/-- The labels of credentials. -/
def labels : List (List Char) :=
  ["password", "secret", "token", "api_key", "api-key", "apikey", "auth"].map String.toList

/-- What stands for a credential or a token in a sanitised message. -/
def redacted : List Char := "[REDACTED]".toList

/-- The number of blanks at the head of a text and of the characters that are none after them. -/
def blanksAndWord (text : List Char) : Nat × Nat :=
  let blanks := text.takeWhile Text.isBlank
  let word := (text.drop blanks.length).takeWhile fun c => !Text.isBlank c
  (blanks.length, word.length)

/-- A label, `=` or `:`, and after optional blanks a word. -/
def credential : Pattern := fun text =>
  (labels.filterMap fun label => (afterLabel? label text).bind fun rest =>
    match rest with
    | mark :: rest =>
      if mark == '=' || mark == ':' then
        let (blanks, word) := blanksAndWord rest
        if word == 0 then none else some ⟨redacted, label.length + 1 + blanks + word⟩
      else none
    | [] => none).head?

/-- The word `bearer`, blanks and a word. -/
def bearer : Pattern := fun text =>
  (afterLabel? "bearer".toList text).bind fun rest =>
    let (blanks, word) := blanksAndWord rest
    if blanks == 0 || word == 0 then none else some ⟨redacted, 6 + blanks + word⟩

/-- `://`, a user, `:`, a password and `@`; the password is replaced. -/
def uriPassword : Pattern := fun text =>
  match text with
  | ':' :: '/' :: '/' :: rest =>
    let user := rest.takeWhile fun c =>
      !(c == ':' || c == '/' || c == '@' || Text.isBlank c)
    match user, rest.drop user.length with
    | _ :: _, ':' :: rest =>
      let password := rest.takeWhile fun c => !(c == '@' || Text.isBlank c)
      match password, rest.drop password.length with
      | _ :: _, '@' :: _ =>
        some ⟨"://".toList ++ user ++ ":***@".toList, 3 + user.length + 1 + password.length + 1⟩
      | _, _ => none
    | _, _ => none
  | _ => none

end Redaction
end Testbed
